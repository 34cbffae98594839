import StoryGrammar.Proofs.Grammar.Failure
import StoryGrammar.Proofs.Sampling.Rolls

namespace StoryGrammar

open Expansion

-- A failure as it shows when the symbols of `front` are being drawn around everything else, and the
-- limit leaves room for them.
def GrammarError.enclose (front : List String) : GrammarError → GrammarError
  | .recursion symbol chain => .recursion symbol (front ++ chain)
  | .depthExceeded symbol limit => .depthExceeded symbol (limit + front.length)
  | cause => cause

def Step.enclose (front : List String) : Step → Step
  | .opened chain => .opened (front ++ chain)
  | step => step

-- All texts of the symbol are known beforehand, and they refer to nothing but what is `Used`.
def Symbol.StaysIn (Used : String → Prop) (symbol : Symbol) : Prop :=
  ∀ candidate ∈ symbol.candidates, candidate.IsWritten ∧
    ∀ target ∈ candidate.references, Used target.name

namespace Expansion

variable {σ α β : Type} {W : World σ → World σ → Prop} {front : List String}

-- From worlds that are related, the two expansions lead to worlds that are related, and the second
-- comes to the same with the symbols of `front` around it.
def Mirrors (W : World σ → World σ → Prop) (front : List String) (α : Type)
    (m m' : Expansion σ α) : Prop :=
  ∀ world world', W world world' → W (runOn m world).2 (runOn m' world').2 ∧
    (runOn m' world').1 = (runOn m world).1.mapError (GrammarError.enclose front)

theorem mirrors_pure (a : α) : Mirrors W front α (pure a) (pure a) := fun _ _ h => ⟨h, rfl⟩

theorem mirrors_bind {m m' : Expansion σ α} {f f' : α → Expansion σ β}
    (hm : Mirrors W front α m m') (hf : ∀ a, Mirrors W front β (f a) (f' a)) :
    Mirrors W front β (m >>= f) (m' >>= f') := by
  intro world world' h
  obtain ⟨hnext, hresult⟩ := hm world world' h
  rw [runOn_bind, runOn_bind]
  generalize runOn m world = run at hnext hresult ⊢
  generalize runOn m' world' = run' at hnext hresult ⊢
  obtain ⟨result, next⟩ := run
  obtain ⟨result', next'⟩ := run'
  obtain rfl : result' = result.mapError (GrammarError.enclose front) := hresult
  cases result with
  | error cause => exact ⟨hnext, rfl⟩
  | ok a => exact hf a next next' hnext

-- What two worlds have to have in common, step by step, for an expansion to do the same in both.
structure MirrorRules [RandomSource σ] (W : World σ → World σ → Prop) (Used : String → Prop)
    (front : List String) : Prop where
  outside : ∀ name ∈ front, ¬Used name
  used {world world' : World σ} {name : String} : W world world' → Used name →
    world'.symbols[name]? = world.symbols[name]?
  within {world world' : World σ} {name : String} {symbol : Symbol} : W world world' → Used name →
    world.symbols[name]? = some symbol → symbol.StaysIn Used
  note {world world' : World σ} (step : Step) : W world world' →
    W { world with journal := world.journal.push step }
      { world' with journal := world'.journal.push (step.enclose front) }
  roll {α : Type} {question : Roll σ α} {world world' : World σ} : question.Forgetful →
    W world world' → (question.run world'.dice).1 = (question.run world.dice).1 ∧
      W { world with dice := (question.run world.dice).2 }
        { world' with dice := (question.run world'.dice).2 }
  update {world world' : World σ} {name : String} {symbol next : Symbol} : W world world' →
    Used name → world.symbols[name]? = some symbol → next.candidates = symbol.candidates →
    W { world with symbols := world.symbols.insert name next }
      { world' with symbols := world'.symbols.insert name next }

variable [RandomSource σ] {Used : String → Prop}

namespace MirrorRules

variable (rules : MirrorRules (σ := σ) W Used front)

include rules

theorem mirrors_note (step : Step) :
    Mirrors W front Unit (Expansion.note step) (Expansion.note (step.enclose front)) :=
  fun _ _ h => ⟨rules.note step h, rfl⟩

theorem mirrors_record (event : Event) : Mirrors W front Unit (record event) (record event) :=
  rules.mirrors_note (.event event)

theorem mirrors_roll {question : Roll σ α} (hq : question.Forgetful) :
    Mirrors W front α (Expansion.roll question) (Expansion.roll question) := by
  intro world world' h
  obtain ⟨hanswer, hnext⟩ := rules.roll hq h
  exact ⟨hnext, congrArg Except.ok hanswer⟩

theorem relatesIn : RelatesIn (fun _ => True) (fun _ => True) (Mirrors W front) where
  pure := mirrors_pure
  bind := mirrors_bind
  record _ := rules.mirrors_record _
  pick _ := rules.mirrors_roll (Roll.forgetful_uniform _)

theorem mirrors_record_return (event : Event) (text : String) :
    Mirrors W front String (do record event; return text) (do record event; return text) :=
  mirrors_bind (rules.mirrors_record event) fun _ => mirrors_pure text

theorem mirrors_hold {name : String} (hu : Used name) (value : String) :
    Mirrors W front Unit (hold name value) (hold name value) := by
  intro world world' h
  rw [runOn_hold, runOn_hold, rules.used h hu]
  cases hs : world.symbols[name]? with
  | none => exact ⟨h, rfl⟩
  | some symbol => exact ⟨rules.update h hu hs rfl, rfl⟩

-- A draw gives the same candidate, and it changes the symbol in the same way.
theorem drawn {world world' : World σ} {name : String} {symbol : Symbol} (h : W world world')
    (hu : Used name) (hs : world.symbols[name]? = some symbol) (mask : Option (List Bool)) :
    ((symbol.sampler.draw symbol.weights mask).run world'.dice).1.1 =
        ((symbol.sampler.draw symbol.weights mask).run world.dice).1.1 ∧
      W (Expansion.drawn world name symbol mask) (Expansion.drawn world' name symbol mask) := by
  obtain ⟨hanswer, hdice⟩ := rules.roll
    (Roll.forgetful_rules.draw (σ := σ) symbol.sampler symbol.weights mask) h
  let later : Symbol := { symbol with
    sampler := ((symbol.sampler.draw symbol.weights mask).run world.dice).1.2 }
  have hlater : later.candidates = symbol.candidates := rfl
  refine ⟨congrArg Prod.fst hanswer, ?_⟩
  simp only [Expansion.drawn, hanswer]
  exact rules.note (.drawn name mask _) (rules.update hdice hu hs hlater)

end MirrorRules

-- All that the texts of a symbol ask for is used.
omit [RandomSource σ] in
theorem asksIn_of_staysIn (modifiers : Modifiers) {lookUp lookUp' : String → Expansion σ String}
    (h : ∀ name, Used name → Mirrors W front String (lookUp name) (lookUp' name))
    {symbol : Symbol} (hs : symbol.StaysIn Used) {candidate : Candidate}
    (hc : candidate ∈ symbol.candidates) {nodes : List Template.Node}
    (hn : candidate.Renders nodes) :
    AsksIn modifiers (fun name => Mirrors W front String (lookUp name) (lookUp' name))
      (fun _ => True) (fun _ => True) nodes := by
  obtain ⟨hwritten, htargets⟩ := hs candidate hc
  apply asksIn_of_refersIn
  intro target ht
  have hused := htargets target (Candidate.references_of_renders hwritten hn ht)
  exact ⟨h target.name hused, by simp⟩

variable (rules : MirrorRules (σ := σ) W Used front)

include rules

theorem MirrorRules.mirrors_drawText (modifiers : Modifiers)
    {lookUp lookUp' : String → Expansion σ String}
    (h : ∀ name, Used name → Mirrors W front String (lookUp name) (lookUp' name)) {name : String}
    (hu : Used name) :
    Mirrors W front String (drawText modifiers lookUp name) (drawText modifiers lookUp' name) := by
  have hexhausted := rules.mirrors_record_return (.exhausted name) ""
  intro world world' hw
  rw [runOn_drawText, runOn_drawText, rules.used hw hu]
  cases hs : world.symbols[name]? with
  | none => exact ⟨hw, rfl⟩
  | some symbol =>
      have hsymbol := rules.within hw hu hs
      have heligible := eligibility_related modifiers rules.relatesIn symbol
        fun candidate hc condition hd => asksIn_of_staysIn modifiers h hsymbol hc
          (.inl ⟨condition, hd, rfl⟩)
      refine mirrors_bind heligible (fun mask => ?_) world world' hw
      -- the conditions may have changed the symbol, so what is drawn from is looked at anew
      intro world world' hw
      rw [runOn_bind, runOn_bind, runOn_drawCandidate, runOn_drawCandidate, rules.used hw hu]
      cases hs : world.symbols[name]? with
      | none => exact hexhausted world world' hw
      | some symbol =>
          obtain ⟨hindex, hnext⟩ := rules.drawn hw hu hs mask
          dsimp only
          rw [hindex]
          cases hc : ((symbol.sampler.draw symbol.weights mask).run world.dice).1.1.bind
              (symbol.candidates[·]?) with
          | none => exact hexhausted _ _ hnext
          | some candidate =>
              obtain ⟨index, -, hget⟩ := Option.bind_eq_some_iff.mp hc
              have hmem : candidate ∈ symbol.candidates := List.mem_of_getElem? hget
              obtain ⟨body, weight⟩ := candidate
              cases body with
              | generated generator =>
                  exact absurd (rules.within hw hu hs _ hmem).1 (by
                    simp [Candidate.IsWritten, Body.passage?])
              | written passage =>
                  have hasks := asksIn_of_staysIn modifiers h (rules.within hw hu hs) hmem
                    (.inr ⟨passage.template, world.calls, rfl, rfl⟩)
                  exact render_related modifiers rules.relatesIn _ hasks _ _ hnext

-- What is used is looked up in the same way inside the symbols of `front`.
theorem MirrorRules.mirrors_lookUp (modifiers : Modifiers) (limit budget : Nat)
    (active : List String) (force : Bool) {name : String} (hu : Used name) :
    Mirrors W front String (lookUp modifiers limit budget active force name)
      (lookUp modifiers (limit + front.length) budget (front ++ active) force name) := by
  intro world world' hw
  rw [runOn_lookUp, runOn_lookUp, rules.used hw hu]
  cases hs : world.symbols[name]? with
  | none => exact rules.mirrors_record_return (.undefinedSymbol name) "" world world' hw
  | some symbol =>
      dsimp only
      cases (if force then none else symbol.value) with
      | some value =>
          exact rules.mirrors_record_return (.symbol name value true) value world world' hw
      | none =>
          have hm : name ∈ front ++ active ↔ name ∈ active := by
            rw [List.mem_append]
            exact or_iff_right fun hf => rules.outside name hf hu
          by_cases ha : name ∈ active
          · simp only [ha, hm, if_true]
            rw [List.append_assoc]
            exact ⟨hw, rfl⟩
          · simp only [ha, hm, if_false]
            cases budget with
            | zero => exact ⟨hw, rfl⟩
            | succ budget =>
                have hdraw := rules.mirrors_drawText modifiers (fun other ho =>
                  mirrors_lookUp modifiers limit budget (active ++ [name]) false ho) hu
                simp only [List.append_assoc]
                have hopened := mirrors_bind (rules.mirrors_note (.opened (active ++ [name])))
                  fun _ => mirrors_bind hdraw fun value =>
                    mirrors_bind (rules.mirrors_hold hu value) fun _ =>
                      rules.mirrors_record_return (.symbol name value false) value
                exact hopened world world' hw
termination_by budget

end Expansion

end StoryGrammar
