import Mathlib.Data.List.Chain
import StoryGrammar.Template.Parser

namespace StoryGrammar.Template

mutual

-- The sequences of nodes that stand inside of nodes, at any depth.
def Node.nested : List Node → List (List Node)
  | [] => []
  | .literal _ :: rest => Node.nested rest
  | .alternation options :: rest => Node.nestedOfEach options ++ Node.nested rest
  | .reference target :: rest => target.nested ++ Node.nested rest
  | .conditional ⟨_, subject, test, whenTrue, whenFalse⟩ :: rest =>
    subject.nested ++ (test :: Node.nested test) ++ (whenTrue :: Node.nested whenTrue) ++
      (whenFalse :: Node.nested whenFalse) ++ Node.nested rest

def Node.nestedOfEach : List (List Node) → List (List Node)
  | [] => []
  | nodes :: rest => nodes :: Node.nested nodes ++ Node.nestedOfEach rest

def Reference.nested : Reference → List (List Node)
  | ⟨_, calls⟩ => Call.nested calls

def Call.nested : List Call → List (List Node)
  | [] => []
  | ⟨_, arguments⟩ :: rest => Node.nestedOfEach arguments ++ Call.nested rest

end

-- Parentheses around a single empty argument cannot be told from those around none.
def Call.Tidy (call : Call) : Prop := isName call.name.toList = true ∧ call.arguments ≠ [[]]

def Reference.Tidy (target : Reference) : Prop :=
  isName target.name.toList = true ∧ ∀ call ∈ target.calls, call.Tidy

namespace Node

def IsLiteral : Node → Prop
  | .literal _ => True
  | _ => False

def IsAlternation : Node → Prop
  | .alternation _ => True
  | _ => False

def IsReference : Node → Prop
  | .reference _ => True
  | _ => False

def IsConditional : Node → Prop
  | .conditional _ => True
  | _ => False

def Tidy : Node → Prop
  | .literal text => text ≠ ""
  | .alternation options =>
    options ≠ [] ∧ ∀ option ∈ options, ∀ node ∈ option, ¬node.IsAlternation
  | .reference target => target.Tidy
  | .conditional branching => branching.subject.Tidy

-- Literals that stand side by side would be read as one.
def Separate (node next : Node) : Prop := ¬(node.IsLiteral ∧ next.IsLiteral)

structure TidySequence (nodes : List Node) : Prop where
  tidy : ∀ node ∈ nodes, node.Tidy
  separate : nodes.IsChain Separate

-- A property that all sequences inside of the nodes have.
def Inside (P : List Node → Prop) (nodes : List Node) : Prop :=
  ∀ sequence ∈ nested nodes, P sequence

-- A property that the nodes have as well as all sequences inside of them.
def Throughout (P : List Node → Prop) (nodes : List Node) : Prop := P nodes ∧ Inside P nodes

-- Nodes in the form in which a text is read.
def Canonical (nodes : List Node) : Prop := Throughout TidySequence nodes

def NoConditional (sequence : List Node) : Prop := ∀ node ∈ sequence, ¬node.IsConditional

def NoAlternation (sequence : List Node) : Prop := ∀ node ∈ sequence, ¬node.IsAlternation

-- A sequence that draws nothing by itself.
def Constant (sequence : List Node) : Prop :=
  ∀ node ∈ sequence, ¬node.IsReference ∧ ¬node.IsConditional

-- What a node is can be seen from its constructor, so all of this can be checked.
instance : DecidablePred IsAlternation
  | .alternation _ => isTrue trivial
  | .literal _ | .reference _ | .conditional _ => isFalse id

instance : DecidablePred IsConditional
  | .conditional _ => isTrue trivial
  | .literal _ | .alternation _ | .reference _ => isFalse id

instance : DecidablePred NoAlternation := fun sequence =>
  inferInstanceAs (Decidable (∀ node ∈ sequence, ¬node.IsAlternation))

instance : DecidablePred NoConditional := fun sequence =>
  inferInstanceAs (Decidable (∀ node ∈ sequence, ¬node.IsConditional))

instance {P : List Node → Prop} [DecidablePred P] : DecidablePred (Throughout P) := fun nodes =>
  inferInstanceAs (Decidable (P nodes ∧ ∀ sequence ∈ nested nodes, P sequence))

theorem Constant.noConditional {sequence : List Node} (h : Constant sequence) :
    NoConditional sequence := fun node hn => (h node hn).2

theorem Constant.tail {node : Node} {rest : List Node} (h : Constant (node :: rest)) :
    Constant rest := (List.forall_mem_cons.mp h).2

end Node

theorem Node.nestedOfEach_eq (items : List (List Node)) :
    nestedOfEach items = items.flatMap fun nodes => nodes :: nested nodes := by
  induction items with
  | nil => simp [nestedOfEach]
  | cons nodes rest ih => simp [nestedOfEach, ih]

theorem Call.nested_eq (calls : List Call) :
    Call.nested calls = calls.flatMap fun call => Node.nestedOfEach call.arguments := by
  induction calls with
  | nil => simp [nested]
  | cons call rest ih =>
      obtain ⟨name, arguments⟩ := call
      simp [nested, ih]

-- The arguments of the calls have the property, and so has all that is inside of them.
def Reference.Inside (P : List Node → Prop) (target : Reference) : Prop :=
  ∀ call ∈ target.calls, ∀ argument ∈ call.arguments, Node.Throughout P argument

namespace Node

variable {P Q : List Node → Prop} {rest : List Node}

theorem forall_nestedOfEach {items : List (List Node)} :
    (∀ sequence ∈ nestedOfEach items, P sequence) ↔ ∀ item ∈ items, Throughout P item := by
  simp only [nestedOfEach_eq, List.mem_flatMap, Throughout, Inside]
  constructor
  · intro h item hi
    exact ⟨h item ⟨item, hi, by simp⟩, fun sequence hs => h sequence ⟨item, hi, by simp [hs]⟩⟩
  · rintro h sequence ⟨item, hi, hs⟩
    rcases List.mem_cons.mp hs with rfl | hs
    · exact (h _ hi).1
    · exact (h item hi).2 sequence hs

theorem forall_nested_reference {target : Reference} :
    (∀ sequence ∈ target.nested, P sequence) ↔ target.Inside P := by
  obtain ⟨name, calls⟩ := target
  simp only [Reference.nested, Call.nested_eq, List.mem_flatMap, Reference.Inside]
  constructor
  · intro h call hc
    exact forall_nestedOfEach.mp fun sequence hs => h sequence ⟨call, hc, hs⟩
  · rintro h sequence ⟨call, hc, hs⟩
    exact forall_nestedOfEach.mpr (h call hc) sequence hs

@[simp] theorem inside_nil : Inside P [] := by simp [Inside, nested]

@[simp] theorem inside_literal {text : String} :
    Inside P (.literal text :: rest) ↔ Inside P rest := Iff.rfl

@[simp] theorem inside_alternation {options : List (List Node)} :
    Inside P (.alternation options :: rest) ↔
      (∀ option ∈ options, Throughout P option) ∧ Inside P rest := by
  simp only [Inside, nested, List.forall_mem_append, forall_nestedOfEach]

@[simp] theorem inside_reference {target : Reference} :
    Inside P (.reference target :: rest) ↔ target.Inside P ∧ Inside P rest := by
  simp only [Inside, nested, List.forall_mem_append, forall_nested_reference]

@[simp] theorem inside_conditional {branching : Branching} :
    Inside P (.conditional branching :: rest) ↔ branching.subject.Inside P ∧
      Throughout P branching.test ∧ Throughout P branching.whenTrue ∧
      Throughout P branching.whenFalse ∧ Inside P rest := by
  obtain ⟨comparison, subject, test, whenTrue, whenFalse⟩ := branching
  simp only [Inside, nested, List.forall_mem_append, List.forall_mem_cons, forall_nested_reference,
    Throughout, and_assoc]

theorem inside_append {nodes : List Node} :
    Inside P (nodes ++ rest) ↔ Inside P nodes ∧ Inside P rest := by
  induction nodes with
  | nil => simp
  | cons node nodes ih =>
      cases node <;> simp [ih, and_assoc]

theorem Inside.mono {nodes : List Node} (hp : Inside P nodes)
    (h : ∀ sequence, P sequence → Q sequence) : Inside Q nodes :=
  fun sequence hs => h sequence (hp sequence hs)

theorem Inside.and {nodes : List Node} (hp : Inside P nodes) (hq : Inside Q nodes) :
    Inside (fun sequence => P sequence ∧ Q sequence) nodes :=
  fun sequence hs => ⟨hp sequence hs, hq sequence hs⟩

theorem tidySequence_nil : TidySequence [] := ⟨by simp, .nil⟩

theorem tidySequence_cons {node : Node} :
    TidySequence (node :: rest) ↔
      node.Tidy ∧ (∀ next ∈ rest.head?, Separate node next) ∧ TidySequence rest := by
  constructor
  · rintro ⟨ht, hs⟩
    obtain ⟨ht, hrest⟩ := List.forall_mem_cons.mp ht
    obtain ⟨hs, hchain⟩ := List.isChain_cons.mp hs
    exact ⟨ht, hs, hrest, hchain⟩
  · rintro ⟨ht, hs, hrest⟩
    exact ⟨List.forall_mem_cons.mpr ⟨ht, hrest.tidy⟩, List.isChain_cons.mpr ⟨hs, hrest.separate⟩⟩

theorem TidySequence.right {nodes : List Node} (h : TidySequence (nodes ++ rest)) :
    TidySequence rest :=
  ⟨fun node hn => h.tidy node (by simp [hn]), h.separate.right_of_append⟩

end Node

end StoryGrammar.Template
