import StoryGrammar.Grammar
import StoryGrammar.Proofs.Except
import StoryGrammar.Proofs.Template.Canonical

namespace StoryGrammar.Expansion

open Template (Node Reference Call)

variable {σ α β : Type}

-- What an expansion gives in a world, and the world afterwards.
def runOn (m : Expansion σ α) (world : World σ) : Except GrammarError α × World σ := m.run.run world

section Run

variable (world : World σ)

@[simp] theorem runOn_pure (a : α) : runOn (pure a) world = (.ok a, world) := rfl

@[simp] theorem runOn_note (step : Step) :
    runOn (note step) world = (.ok (), { world with journal := world.journal.push step }) := rfl

theorem runOn_record_return (event : Event) (a : α) :
    runOn (do record event; return a) world =
      (.ok a, { world with journal := world.journal.push (.event event) }) := rfl

@[simp] theorem runOn_roll (question : Roll σ α) :
    runOn (roll question) world =
      (.ok (question.run world.dice).1,
        { world with dice := (question.run world.dice).2 }) := rfl

@[simp] theorem runOn_symbol? (name : String) :
    runOn (symbol? name) world = (.ok world.symbols[name]?, world) := rfl

-- A part that fails ends the whole, in the world that it has left.
theorem runOn_bind (m : Expansion σ α) (f : α → Expansion σ β) :
    runOn (m >>= f) world =
      match runOn m world with
      | (.ok a, next) => runOn (f a) next
      | (.error cause, next) => (.error cause, next) := by
  rw [runOn, ExceptT.run_run_bind, ← runOn]
  rcases runOn m world with ⟨_ | a, next⟩ <;> rfl

-- A whole succeeds just if its first part does, and the second one in the world that it has left.
theorem runOn_bind_eq_iff {m : Expansion σ α} {f : α → Expansion σ β} {world last : World σ} {b : β} :
    runOn (m >>= f) world = (.ok b, last) ↔
      ∃ a next, runOn m world = (.ok a, next) ∧ runOn (f a) next = (.ok b, last) := by
  rw [runOn_bind]
  rcases runOn m world with ⟨cause | a, next⟩
  · simp
  · constructor
    · exact fun h => ⟨a, next, rfl, h⟩
    · rintro ⟨_, _, he, h⟩
      cases he
      exact h

theorem runOn_bind_eq_ok_iff {m : Expansion σ α} {f : α → Expansion σ β} {world : World σ} {b : β} :
    (runOn (m >>= f) world).1 = .ok b ↔
      ∃ a next, runOn m world = (.ok a, next) ∧ (runOn (f a) next).1 = .ok b := by
  constructor
  · intro h
    obtain ⟨a, next, hm, hf⟩ := runOn_bind_eq_iff.mp (Prod.ext h rfl)
    exact ⟨a, next, hm, congrArg Prod.fst hf⟩
  · rintro ⟨a, next, hm, hf⟩
    exact congrArg Prod.fst (runOn_bind_eq_iff.mpr ⟨a, next, hm, Prod.ext hf rfl⟩)

theorem runOn_hold (name value : String) :
    runOn (hold name value) world =
      match world.symbols[name]? with
      | none => (.ok (), world)
      | some symbol =>
        (.ok (), { world with symbols := world.symbols.insert name (symbol.setValue value) }) := by
  unfold hold
  rw [runOn_bind, runOn_symbol?]
  cases world.symbols[name]? <;> rfl

theorem runOn_templateOf (body : Body) :
    runOn (templateOf body) world =
      ((body.template world.calls).1.mapError .template,
        { world with calls := (body.template world.calls).2 }) := by
  have hfirst : runOn (modifyGet fun world => ((body.template world.calls).1,
      { world with calls := (body.template world.calls).2 }) : Expansion σ _) world =
      (.ok (body.template world.calls).1,
        { world with calls := (body.template world.calls).2 }) := rfl
  unfold templateOf
  rw [runOn_bind]
  simp only [hfirst]
  cases (body.template world.calls).1 <;> rfl

variable [RandomSource σ]

-- The world after a symbol has been drawn from.
def drawn (name : String) (symbol : Symbol) (mask : Option (List Bool)) : World σ :=
  let draw := (symbol.sampler.draw symbol.weights mask).run world.dice
  { world with
    symbols := world.symbols.insert name { symbol with sampler := draw.1.2 }
    dice := draw.2
    journal := world.journal.push (.drawn name mask draw.1.1) }

theorem runOn_drawCandidate (name : String) (mask : Option (List Bool)) :
    runOn (drawCandidate name mask) world =
      match world.symbols[name]? with
      | none => (.ok none, world)
      | some symbol =>
        (.ok (((symbol.sampler.draw symbol.weights mask).run world.dice).1.1.bind
          (symbol.candidates[·]?)), drawn world name symbol mask) := by
  unfold drawCandidate
  rw [runOn_bind, runOn_symbol?]
  cases world.symbols[name]? <;> rfl

variable (modifiers : Modifiers)

theorem runOn_drawText (lookUp : String → Expansion σ String) (name : String) :
    runOn (drawText modifiers lookUp name) world =
      match world.symbols[name]? with
      | none => (.ok "", world)
      | some symbol => runOn (do
          match ← drawCandidate name (← eligibility modifiers lookUp symbol) with
          | some candidate => render modifiers lookUp (← templateOf candidate.body).nodes
          | none => do
            record (.exhausted name)
            return "") world := by
  unfold drawText
  rw [runOn_bind, runOn_symbol?]
  cases world.symbols[name]? <;> rfl

-- Where a candidate is drawn, its text is the text of the draw.
theorem runOn_drawText_of_drawn {lookUp : String → Expansion σ String} {name : String}
    {mask : Option (List Bool)} {index : Nat} {before world : World σ} {symbol later : Symbol}
    {candidate : Candidate}
    (hs : before.symbols[name]? = some symbol)
    (hmask : runOn (eligibility modifiers lookUp symbol) before = (.ok mask, world))
    (hl : world.symbols[name]? = some later)
    (hi : ((later.sampler.draw later.weights mask).run world.dice).1.1 = some index)
    (hc : later.candidates[index]? = some candidate) :
    runOn (drawText modifiers lookUp name) before =
      runOn (do render modifiers lookUp (← templateOf candidate.body).nodes)
        (drawn world name later mask) := by
  rw [runOn_drawText, hs]
  dsimp only
  rw [runOn_bind, hmask]
  dsimp only
  rw [runOn_bind, runOn_drawCandidate, hl]
  simp only [hi, Option.bind_some, hc]

-- All that a look-up can do: pass over a name that is unknown, answer with the value that is
-- held, refuse, or draw.
theorem runOn_lookUp (limit budget : Nat) (active : List String) (force : Bool) (name : String) :
    runOn (lookUp modifiers limit budget active force name) world =
      match world.symbols[name]? with
      | none => runOn (do record (.undefinedSymbol name); return "") world
      | some symbol =>
        match if force then none else symbol.value with
        | some value => runOn (do record (.symbol name value true); return value) world
        | none =>
          if name ∈ active then (.error (.recursion name (active ++ [name])), world)
          else
            match budget with
            | 0 => (.error (.depthExceeded name limit), world)
            | budget + 1 => runOn (do
                note (.opened (active ++ [name]))
                let value ←
                  drawText modifiers (lookUp modifiers limit budget (active ++ [name]) false) name
                hold name value
                record (.symbol name value false)
                return value) world := by
  unfold lookUp
  rw [runOn_bind, runOn_symbol?]
  cases world.symbols[name]? with
  | none => rfl
  | some symbol =>
      dsimp only
      cases (if force then none else symbol.value) with
      | some value => rfl
      | none =>
          dsimp only
          split
          · rfl
          · cases budget <;> rfl

end Run

-- A relation between expansions that holds of a sequence when it holds of its parts.
structure Compositional (R : (α : Type) → Expansion σ α → Expansion σ α → Prop) : Prop where
  pure {α : Type} (a : α) : R α (pure a) (pure a)
  bind {α β : Type} {m m' : Expansion σ α} {f f' : α → Expansion σ β} :
    R α m m' → (∀ a, R β (f a) (f' a)) → R β (m >>= f) (m' >>= f')

namespace Compositional

variable {R : (α : Type) → Expansion σ α → Expansion σ α → Prop}

theorem map (hR : Compositional R) {m m' : Expansion σ α} (h : R α m m') (f : α → β) :
    R β (f <$> m) (f <$> m') := by
  rw [map_eq_pure_bind, map_eq_pure_bind]
  exact hR.bind h fun a => hR.pure (f a)

theorem mapM (hR : Compositional R) {f f' : α → Expansion σ β} {items : List α}
    (h : ∀ a ∈ items, R β (f a) (f' a)) : R (List β) (items.mapM f) (items.mapM f') := by
  induction items with
  | nil => exact hR.pure []
  | cons a items ih =>
      rw [List.mapM_cons, List.mapM_cons]
      refine hR.bind (h a (by simp)) fun b => ?_
      refine hR.bind (ih fun a ha => h a (by simp [ha])) fun bs => ?_
      exact hR.pure (b :: bs)

end Compositional

-- The events that a template leads to by itself. The modifiers that it calls in vain are in
-- `Unknown`.
def FromTemplate (Unknown : String → Prop) : Event → Prop
  | .alternation .. | .modifier .. | .condition .. => True
  | .undefinedModifier name => Unknown name
  | .symbol .. | .undefinedSymbol _ | .exhausted _ => False

-- The numbers of options that a sequence of nodes offers by itself are in `Offered`.
def OffersIn (Offered : Nat → Prop) (sequence : List Node) : Prop :=
  ∀ options, .alternation options ∈ sequence → Offered options.length

-- What a reference asks for: the symbol has `Named`, the modifiers called in vain are in `Unknown`.
def RefersIn (modifiers : Modifiers) (Named Unknown : String → Prop) (target : Reference) : Prop :=
  Named target.name ∧ ∀ call ∈ target.calls, modifiers.get? call.name = none → Unknown call.name

-- What a template asks for, in all its parts.
structure AsksIn (modifiers : Modifiers) (Named Unknown : String → Prop) (Offered : Nat → Prop)
    (nodes : List Node) : Prop where
  targets : ∀ target ∈ Node.references nodes, RefersIn modifiers Named Unknown target
  choices : Node.Throughout (OffersIn Offered) nodes

-- Where any number of options will do, only the references count.
theorem asksIn_of_refersIn {modifiers : Modifiers} {Named Unknown : String → Prop}
    {nodes : List Node}
    (h : ∀ target ∈ Node.references nodes, RefersIn modifiers Named Unknown target) :
    AsksIn modifiers Named Unknown (fun _ => True) nodes :=
  ⟨h, by simp [OffersIn], by simp [Node.Inside, OffersIn]⟩

theorem AsksIn.mono {modifiers : Modifiers} {Named Named' Unknown : String → Prop}
    {Offered : Nat → Prop} {nodes : List Node} (h : AsksIn modifiers Named Unknown Offered nodes)
    (hn : ∀ name, Named name → Named' name) : AsksIn modifiers Named' Unknown Offered nodes :=
  ⟨fun target ht => ⟨hn _ (h.targets target ht).1, (h.targets target ht).2⟩, h.choices⟩

section Render

variable [RandomSource σ] {R : (α : Type) → Expansion σ α → Expansion σ α → Prop}
variable (modifiers : Modifiers) {lookUp lookUp' : String → Expansion σ String}
variable {Unknown : String → Prop} {Offered : Nat → Prop}

-- Whatever relates the texts of the symbols that a template refers to, and lets the events and the
-- choices of the template pass, relates the texts of the template. Each way in which a template
-- comes to a symbol is one of its references, so no others matter.
structure RelatesIn (Unknown : String → Prop) (Offered : Nat → Prop)
    (R : (α : Type) → Expansion σ α → Expansion σ α → Prop) : Prop extends Compositional R where
  record {event : Event} : FromTemplate Unknown event → R Unit (record event) (record event)
  pick {count : Nat} : Offered count →
    R Nat (roll (Roll.uniform count)) (roll (Roll.uniform count))

-- Lets all events and all choices pass.
structure Relates (R : (α : Type) → Expansion σ α → Expansion σ α → Prop) : Prop
    extends Compositional R where
  record (event : Event) : R Unit (record event) (record event)
  pick (count : Nat) : R Nat (roll (Roll.uniform count)) (roll (Roll.uniform count))

theorem Relates.relatesIn (hR : Relates R) : RelatesIn (fun _ => True) (fun _ => True) R where
  toCompositional := hR.toCompositional
  record _ := hR.record _
  pick _ := hR.pick _

theorem choose_related (hR : RelatesIn Unknown Offered R) (nodes : List Node)
    (ho : OffersIn Offered nodes) : R (List Nat) (choose nodes) (choose nodes) := by
  induction nodes with
  | nil => exact hR.pure []
  | cons node rest ih =>
      have hrest := ih fun options hm => ho options (by simp [hm])
      cases node with
      | literal text => exact hrest
      | reference target => exact hrest
      | conditional branching => exact hrest
      | alternation options =>
          simp only [choose]
          refine hR.bind (hR.pick (ho options (by simp))) fun chosen => ?_
          refine hR.bind (hR.record trivial) fun _ => ?_
          exact hR.bind hrest fun choices => hR.pure (chosen :: choices)

-- The texts of the symbol that a reference names are related.
variable (R lookUp lookUp' Unknown) in
abbrev Meets (target : Reference) : Prop :=
  RefersIn modifiers (fun name => R String (lookUp name) (lookUp' name)) Unknown target

mutual

theorem renderNodes_related (hR : RelatesIn Unknown Offered R) :
    (nodes : List Node) → (choices : List Nat) →
      (∀ target ∈ Node.references nodes, Meets R modifiers lookUp lookUp' Unknown target) →
      Node.Inside (OffersIn Offered) nodes →
      R String (renderNodes modifiers lookUp nodes choices)
        (renderNodes modifiers lookUp' nodes choices)
  | [], choices, h, ho => by
      simp only [renderNodes]
      exact hR.pure ""
  | .literal text :: rest, choices, h, ho => by
      simp only [renderNodes]
      exact hR.bind (renderNodes_related hR rest choices h ho) fun more => hR.pure (text ++ more)
  | .alternation options :: rest, choices, h, ho => by
      simp only [renderNodes]
      simp only [Node.references, List.mem_append] at h
      obtain ⟨ho, hrest⟩ := Node.inside_alternation.mp ho
      refine hR.bind (renderOption_related hR options _ (fun t ht => h t (.inl ht)) ho)
        fun text => ?_
      refine hR.bind (renderNodes_related hR rest _ (fun t ht => h t (.inr ht)) hrest)
        fun more => ?_
      exact hR.pure (text ++ more)
  | .reference target :: rest, choices, h, ho => by
      simp only [renderNodes]
      simp only [Node.references, List.mem_append] at h
      obtain ⟨ho, hrest⟩ := Node.inside_reference.mp ho
      refine hR.bind (renderReference_related hR target (fun t ht => h t (.inl ht)) ho)
        fun text => ?_
      refine hR.bind (renderNodes_related hR rest _ (fun t ht => h t (.inr ht)) hrest)
        fun more => ?_
      exact hR.pure (text ++ more)
  | .conditional ⟨comparison, subject, test, whenTrue, whenFalse⟩ :: rest, choices, h, ho => by
      simp only [renderNodes]
      simp only [Node.references, List.mem_append] at h
      obtain ⟨hsubject, htest, htrue, hfalse, hrest⟩ := Node.inside_conditional.mp ho
      refine hR.bind (renderReference_related hR subject (fun t ht => h t (by simp [ht])) hsubject)
        fun left => ?_
      refine hR.bind (choose_related hR test htest.1) fun picks => ?_
      refine hR.bind (renderNodes_related hR test picks (fun t ht => h t (by simp [ht])) htest.2)
        fun right => ?_
      refine hR.bind (hR.record trivial) fun _ => ?_
      split
      · refine hR.bind (hR.bind (choose_related hR whenTrue htrue.1) fun picks =>
          renderNodes_related hR whenTrue picks (fun t ht => h t (by simp [ht])) htrue.2)
          fun text => ?_
        refine hR.bind (renderNodes_related hR rest _ (fun t ht => h t (by simp [ht])) hrest)
          fun more => ?_
        exact hR.pure (text ++ more)
      · refine hR.bind (hR.bind (choose_related hR whenFalse hfalse.1) fun picks =>
          renderNodes_related hR whenFalse picks (fun t ht => h t (by simp [ht])) hfalse.2)
          fun text => ?_
        refine hR.bind (renderNodes_related hR rest _ (fun t ht => h t (by simp [ht])) hrest)
          fun more => ?_
        exact hR.pure (text ++ more)

theorem renderOption_related (hR : RelatesIn Unknown Offered R) :
    (options : List (List Node)) → (index : Nat) →
      (∀ target ∈ Node.referencesOfEach options, Meets R modifiers lookUp lookUp' Unknown target) →
      (∀ option ∈ options, Node.Throughout (OffersIn Offered) option) →
      R String (renderOption modifiers lookUp options index)
        (renderOption modifiers lookUp' options index)
  | [], index, h, ho => by
      simp only [renderOption]
      exact hR.pure ""
  | nodes :: rest, 0, h, ho => by
      simp only [renderOption]
      simp only [Node.referencesOfEach, List.mem_append] at h
      obtain ⟨ho, -⟩ := List.forall_mem_cons.mp ho
      refine hR.bind (choose_related hR nodes ho.1) fun picks => ?_
      exact renderNodes_related hR nodes picks (fun t ht => h t (.inl ht)) ho.2
  | nodes :: rest, index + 1, h, ho => by
      simp only [renderOption]
      simp only [Node.referencesOfEach, List.mem_append] at h
      obtain ⟨-, hrest⟩ := List.forall_mem_cons.mp ho
      exact renderOption_related hR rest index (fun t ht => h t (.inr ht)) hrest

theorem renderReference_related (hR : RelatesIn Unknown Offered R) :
    (target : Reference) →
      (∀ inner ∈ Reference.references target, Meets R modifiers lookUp lookUp' Unknown inner) →
      target.Inside (OffersIn Offered) →
      R String (renderReference modifiers lookUp target) (renderReference modifiers lookUp' target)
  | ⟨name, calls⟩, h, ho => by
      simp only [renderReference]
      simp only [Reference.references, List.mem_cons, forall_eq_or_imp] at h
      exact hR.bind h.1.1 fun value => applyCalls_related hR calls value h.1.2 h.2 ho

theorem applyCalls_related (hR : RelatesIn Unknown Offered R) :
    (calls : List Call) → (value : String) →
      (∀ call ∈ calls, modifiers.get? call.name = none → Unknown call.name) →
      (∀ target ∈ Call.references calls, Meets R modifiers lookUp lookUp' Unknown target) →
      (∀ call ∈ calls, ∀ argument ∈ call.arguments, Node.Throughout (OffersIn Offered) argument) →
      R String (applyCalls modifiers lookUp calls value) (applyCalls modifiers lookUp' calls value)
  | [], value, hu, h, ho => by
      simp only [applyCalls]
      exact hR.pure value
  | ⟨name, arguments⟩ :: rest, value, hu, h, ho => by
      simp only [applyCalls]
      simp only [Call.references, List.mem_append] at h
      obtain ⟨hname, hu⟩ := List.forall_mem_cons.mp hu
      obtain ⟨harguments, ho⟩ := List.forall_mem_cons.mp ho
      have hrest (value : String) := applyCalls_related hR rest value hu
        (fun t ht => h t (.inr ht)) ho
      refine hR.bind (renderEach_related hR arguments (fun t ht => h t (.inl ht)) harguments)
        fun texts => ?_
      split
      · exact hR.bind (hR.record trivial) fun _ => hrest _
      · rename_i hnone
        have hmissing : modifiers.get? name = none := Option.map_eq_none_iff.mp hnone
        exact hR.bind (hR.record (hname hmissing)) fun _ => hrest _

theorem renderEach_related (hR : RelatesIn Unknown Offered R) :
    (sequences : List (List Node)) →
      (∀ target ∈ Node.referencesOfEach sequences,
        Meets R modifiers lookUp lookUp' Unknown target) →
      (∀ nodes ∈ sequences, Node.Throughout (OffersIn Offered) nodes) →
      R (List String) (renderEach modifiers lookUp sequences)
        (renderEach modifiers lookUp' sequences)
  | [], h, ho => by
      simp only [renderEach]
      exact hR.pure []
  | nodes :: rest, h, ho => by
      simp only [renderEach]
      simp only [Node.referencesOfEach, List.mem_append] at h
      obtain ⟨hnodes, hrest⟩ := List.forall_mem_cons.mp ho
      refine hR.bind (choose_related hR nodes hnodes.1) fun picks => ?_
      refine hR.bind (renderNodes_related hR nodes picks (fun t ht => h t (.inl ht)) hnodes.2)
        fun text => ?_
      refine hR.bind (renderEach_related hR rest (fun t ht => h t (.inr ht)) hrest) fun texts => ?_
      exact hR.pure (text :: texts)

end

theorem render_related (hR : RelatesIn Unknown Offered R) (nodes : List Node)
    (h : AsksIn modifiers (fun name => R String (lookUp name) (lookUp' name)) Unknown Offered
      nodes) : R String (render modifiers lookUp nodes) (render modifiers lookUp' nodes) :=
  hR.bind (choose_related hR nodes h.choices.1) fun choices =>
    renderNodes_related modifiers hR nodes choices h.targets h.choices.2

theorem admits_related (hR : RelatesIn Unknown Offered R) (conditions : List Template)
    (h : ∀ condition ∈ conditions, AsksIn modifiers
      (fun name => R String (lookUp name) (lookUp' name)) Unknown Offered condition.nodes) :
    R Bool (admits modifiers lookUp conditions) (admits modifiers lookUp' conditions) := by
  induction conditions with
  | nil => exact hR.pure true
  | cons condition rest ih =>
      simp only [admits]
      refine hR.bind (render_related modifiers hR _ (h condition (by simp))) fun text => ?_
      split
      · exact hR.pure false
      · exact ih fun other ho => h other (by simp [ho])

theorem eligibility_related (hR : RelatesIn Unknown Offered R) (symbol : Symbol)
    (h : ∀ candidate ∈ symbol.candidates, ∀ condition ∈ candidate.conditions, AsksIn modifiers
      (fun name => R String (lookUp name) (lookUp' name)) Unknown Offered condition.nodes) :
    R (Option (List Bool)) (eligibility modifiers lookUp symbol)
      (eligibility modifiers lookUp' symbol) := by
  unfold eligibility
  split
  · exact hR.map (hR.mapM fun candidate hc => admits_related modifiers hR _ (h candidate hc)) some
  · exact hR.pure none

end Render

end StoryGrammar.Expansion
