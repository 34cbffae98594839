import StoryGrammar.Proofs.Expansion.Keeps

namespace StoryGrammar

open Expansion

-- What a grammar can be asked for. The answer is a text.
inductive Query where
  | get (name : String)
  | expandSymbol (name : String) (force : Bool)
  | expand
  | evaluate (text : String)

inductive Operation where
  | ask (query : Query)
  | set (name : String) (rules : RuleSet)
  | setValue (name value : String)
  | reset (name : String)
  | registerModifier (name : String) (modifier : Modifier)

-- Where an operation has ended, with all that it has asked the source and written down.
def Outcome.world {σ α : Type} (outcome : Outcome σ α) : World σ :=
  ⟨outcome.grammar.symbols, ⟨outcome.grammar.source, outcome.requests⟩, outcome.grammar.calls,
    outcome.journal⟩

namespace Grammar

variable {σ : Type}

-- The names at which the expansion for a query starts.
def roots (grammar : Grammar σ) : Query → List String
  | .get name => [name]
  | .expandSymbol name _ => [name]
  | .expand => [grammar.origin]
  | .evaluate text => (Template.parse text).toOption.elim [] fun template =>
      template.references.map (·.name)

-- Whether a query is about something: a symbol that is defined, or a text that is a template.
def Answerable (grammar : Grammar σ) : Query → Prop
  | .get name => grammar.contains name = true
  | .expandSymbol name _ => grammar.contains name = true
  | .expand => grammar.contains grammar.origin = true
  | .evaluate text => ∃ template, Template.parse text = .ok template

-- Where an operation starts from.
def world (grammar : Grammar σ) : World σ :=
  ⟨grammar.symbols, ⟨grammar.source, #[]⟩, grammar.calls, #[]⟩

theorem contains_iff (grammar : Grammar σ) (name : String) :
    grammar.contains name = true ↔ ∃ symbol, grammar.symbol? name = some symbol := by
  rw [contains, Std.TreeMap.contains_eq_isSome_getElem?, Option.isSome_iff_exists]
  rfl

theorem symbol?_put_self (grammar : Grammar σ) (name : String) (symbol : Symbol) :
    (grammar.put name symbol).symbol? name = some symbol := by
  simp [put, symbol?]

theorem symbol?_put_of_ne (grammar : Grammar σ) {name other : String} (symbol : Symbol)
    (h : other ≠ name) : (grammar.put other symbol).symbol? name = grammar.symbol? name := by
  simp [put, symbol?, Std.TreeMap.getElem?_insert, h]

theorem contains_put (grammar : Grammar σ) {name : String} (other : String) (symbol : Symbol)
    (h : grammar.contains name = true) : (grammar.put other symbol).contains name = true := by
  simp only [put, contains, Std.TreeMap.contains_insert, Bool.or_eq_true]
  exact .inr h

theorem run_eq (grammar : Grammar σ) {α : Type} {expansion : Expansion σ α}
    {result : Except GrammarError α} {world : World σ}
    (h : runOn expansion grammar.world = (result, world)) :
    grammar.run expansion = ⟨result,
      { grammar with symbols := world.symbols, source := world.dice.source, calls := world.calls },
      world.dice.requests, world.journal⟩ := by
  change (match runOn expansion grammar.world with
    | (result, world) => (⟨result, { grammar with
        symbols := world.symbols, source := world.dice.source, calls := world.calls },
        world.dice.requests, world.journal⟩ : Outcome σ α)) = _
  rw [h]

variable [RandomSource σ]

def answer (grammar : Grammar σ) : Query → Outcome σ String
  | .get name => grammar.get name
  | .expandSymbol name force => grammar.expandSymbol name force
  | .expand => grammar.expand
  | .evaluate text => grammar.evaluate text

-- The grammar after an operation, also one that fails.
def perform (grammar : Grammar σ) : Operation → Grammar σ
  | .ask query => (grammar.answer query).grammar
  | .set name rules =>
    match grammar.set name rules with
    | .ok changed => changed
    | .error _ => grammar
  | .setValue name value => grammar.setValue name value
  | .reset name => (grammar.reset? name).getD grammar
  | .registerModifier name modifier => grammar.registerModifier name modifier

-- All that an operation can do: expand, give one name a symbol that is new or made from the one
-- it had, or leave the symbols as they are.
inductive Performed (grammar : Grammar σ) : Operation → Grammar σ → Prop
  | asked {query : Query} : Performed grammar (.ask query) (grammar.answer query).grammar
  | replaced {name : String} {rules : RuleSet} {symbol : Symbol} :
      Symbol.ofRules rules = .ok symbol →
      Performed grammar (.set name rules) (grammar.put name symbol)
  | refused {name : String} {rules : RuleSet} : Performed grammar (.set name rules) grammar
  | assigned {name value : String} {symbol : Symbol} : grammar.symbol? name = some symbol →
      Performed grammar (.setValue name value) (grammar.put name (symbol.setValue value))
  | added {name value : String} : grammar.symbol? name = none →
      Performed grammar (.setValue name value) (grammar.put name (Symbol.fixed value))
  | returned {name : String} {symbol : Symbol} : grammar.symbol? name = some symbol →
      Performed grammar (.reset name) (grammar.put name symbol.reset)
  | missing {name : String} : grammar.symbol? name = none → Performed grammar (.reset name) grammar
  | registered {name : String} {modifier : Modifier} :
      Performed grammar (.registerModifier name modifier) (grammar.registerModifier name modifier)

theorem performed (grammar : Grammar σ) (operation : Operation) :
    Performed grammar operation (grammar.perform operation) := by
  cases operation with
  | ask query => exact .asked
  | set name rules =>
      simp only [perform, set]
      cases hr : Symbol.ofRules rules with
      | ok symbol => exact .replaced hr
      | error cause => exact .refused
  | setValue name value =>
      simp only [perform, setValue]
      cases hs : grammar.symbol? name with
      | none => exact .added hs
      | some symbol => exact .assigned hs
  | reset name =>
      simp only [perform, reset?]
      cases hs : grammar.symbol? name with
      | none => exact .missing hs
      | some symbol => exact .returned hs
  | registerModifier name modifier => exact .registered

-- The grammar after a run of operations. What can be reached from a grammar is what some run
-- leads to.
def after (grammar : Grammar σ) (run : List Operation) : Grammar σ := run.foldl perform grammar

-- What each operation of a run keeps, the run keeps.
theorem after_keeps {P : Grammar σ → Prop} {Q : Operation → Prop}
    (step : ∀ grammar operation, P grammar → Q operation → P (grammar.perform operation))
    (grammar : Grammar σ) (run : List Operation) (hp : P grammar)
    (hq : ∀ operation ∈ run, Q operation) : P (grammar.after run) := by
  induction run generalizing grammar with
  | nil => exact hp
  | cons operation run ih =>
      exact ih _ (step _ _ hp (hq _ (by simp))) fun other ho => hq other (by simp [ho])

section Answer

variable (grammar : Grammar σ) {I : World σ → Prop} {E : GrammarError → Prop}

omit [RandomSource σ] in
theorem run_keeps {α : Type} {expansion : Expansion σ α} (h : Keeps I E expansion)
    (hi : I grammar.world) :
    I (grammar.run expansion).world ∧
      ∀ cause, (grammar.run expansion).result = .error cause → E cause :=
  h grammar.world hi

theorem expandSymbol_world (name : String) (force : Bool) :
    (grammar.expandSymbol name force).world = (grammar.resolve name force).world := by
  unfold expandSymbol
  dsimp only
  split <;> rfl

theorem expandSymbol_result (name : String) (force : Bool) :
    (grammar.expandSymbol name force).result = (grammar.resolve name force).result := by
  unfold expandSymbol
  dsimp only
  split <;> simp_all

variable {Reached : List String → String → Prop} {Drawable : String → Prop}

section LookUp

variable {Unknown : String → Prop} {Offered : Nat → Prop}

theorem resolve_keeps
    (rules : LookUpRules grammar.modifiers I E grammar.maxDepth Reached Drawable Unknown Offered)
    (name : String) (force : Bool) (hr : grammar.contains name = true → Reached [] name)
    (hf : force = true → Drawable name) (hi : I grammar.world) :
    I (grammar.resolve name force).world ∧
      (grammar.contains name = true → ∀ cause,
        (grammar.resolve name force).result = .error cause → E cause) := by
  unfold resolve
  split
  · rename_i hc
    obtain ⟨hnext, hcause⟩ := grammar.run_keeps
      (keeps_lookUp rules grammar.maxDepth [] force name (hr hc) (by simp) hf) hi
    exact ⟨hnext, fun _ => hcause⟩
  · rename_i hn
    exact ⟨hi, fun hc => absurd hc hn⟩

-- An answer does what the rules of looking up allow, and fails only for their causes.
theorem answer_keeps_world
    (rules : LookUpRules grammar.modifiers I E grammar.maxDepth Reached Drawable Unknown Offered)
    (query : Query) (hr : ∀ name ∈ grammar.roots query, grammar.contains name = true →
      Reached [] name)
    (hf : ∀ name, query = .expandSymbol name true → Drawable name)
    (ha : ∀ text template, query = .evaluate text → Template.parse text = .ok template →
      AsksIn grammar.modifiers (Reached []) Unknown Offered template.nodes)
    (hi : I grammar.world) :
    I (grammar.answer query).world ∧
      (grammar.Answerable query → ∀ cause,
        (grammar.answer query).result = .error cause → E cause) := by
  cases query with
  | get name =>
      exact grammar.resolve_keeps rules name false (hr name (by simp [roots])) (by simp) hi
  | expandSymbol name force =>
      simp only [answer, expandSymbol_world, expandSymbol_result]
      exact grammar.resolve_keeps rules name force (hr name (by simp [roots]))
        (fun h => hf name (by rw [h])) hi
  | expand =>
      simp only [answer, expand, expandSymbol_world, expandSymbol_result]
      exact grammar.resolve_keeps rules grammar.origin false (hr _ (by simp [roots])) (by simp) hi
  | evaluate text =>
      cases hp : Template.parse text with
      | error cause =>
          simp only [answer, evaluate, hp, Answerable]
          exact ⟨hi, by simp⟩
      | ok template =>
          have hkeeps : Keeps I E
              (Expansion.render grammar.modifiers (grammar.lookUp false) template.nodes) :=
            keeps_render grammar.modifiers rules.toTemplateRules _
              ((ha text template rfl hp).mono fun name hreached =>
                keeps_lookUp rules grammar.maxDepth [] false name hreached (by simp) (by simp))
          obtain ⟨hnext, hcause⟩ := grammar.run_keeps hkeeps hi
          simp only [answer, evaluate, hp, render]
          exact ⟨hnext, fun _ => hcause⟩

end LookUp

-- An answer leaves the symbols as the rules of drawing do, and fails only for their causes.
theorem answer_keeps {J : SymbolTable → Prop}
    (rules : DrawRules (σ := σ) (fun world => J world.symbols) E grammar.maxDepth Reached Drawable)
    (query : Query) (hr : ∀ name ∈ grammar.roots query, Reached [] name)
    (hf : ∀ name, query = .expandSymbol name true → Drawable name) (hj : J grammar.symbols) :
    J (grammar.answer query).grammar.symbols ∧
      (grammar.Answerable query → ∀ cause,
        (grammar.answer query).result = .error cause → E cause) := by
  refine grammar.answer_keeps_world (rules.lookUpRules grammar.modifiers) query
    (fun name hn _ => hr name hn) hf (fun text template hq hp => ?_) hj
  subst hq
  refine asksIn_of_refersIn fun target ht => ⟨hr _ ?_, by simp⟩
  simp only [roots, hp, Except.toOption, Option.elim, List.mem_map]
  exact ⟨target, ht, rfl⟩

end Answer

end Grammar

end StoryGrammar
