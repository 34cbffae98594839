import StoryGrammar.Proofs.Grammar.Failure
import StoryGrammar.Proofs.Grammar.HeldValue

namespace StoryGrammar

open Expansion SymbolTable

namespace Event

-- A template has asked for something that does not exist.
def isUndefined : Event → Bool
  | .undefinedSymbol _ | .undefinedModifier _ => true
  | _ => false

end Event

-- The entry tells of nothing that does not exist.
def Step.IsClean (step : Step) : Prop :=
  ∀ event, step.event? = some event → event.isUndefined = false

-- The query brings no template of its own.
def Query.IsPlain : Query → Prop
  | .evaluate _ => False
  | _ => True

-- The operation brings neither rules nor templates nor modifiers of its own.
def Operation.IsPlain : Operation → Prop
  | .ask query => query.IsPlain
  | .setValue .. | .reset _ => True
  | .set .. | .registerModifier .. => False

-- All texts of the symbol are known beforehand. What they refer to has `Named`, and they call no
-- modifier in vain.
def Symbol.Within (modifiers : Modifiers) (Named : String → Prop) (symbol : Symbol) : Prop :=
  ∀ candidate ∈ symbol.candidates, candidate.IsWritten ∧
    ∀ target ∈ candidate.references, RefersIn modifiers Named (fun _ => False) target

section

variable {modifiers : Modifiers} {Named Named' : String → Prop}

theorem Symbol.Within.mono {symbol : Symbol} (h : symbol.Within modifiers Named)
    (hn : ∀ name, Named name → Named' name) : symbol.Within modifiers Named' :=
  fun candidate hc => ⟨(h candidate hc).1, fun target ht =>
    ⟨hn _ ((h candidate hc).2 target ht).1, ((h candidate hc).2 target ht).2⟩⟩

theorem Symbol.lasting_within : Symbol.Lasting (Symbol.Within modifiers Named) where
  setValue _ h := h
  reset h := h
  fixed value := by
    intro candidate hc
    refine ⟨lasting_isWritten.fixed value candidate hc, fun target ht => ?_⟩
    obtain rfl := List.mem_singleton.mp hc
    by_cases he : value = "" <;>
      simp [Candidate.references, Body.passage?, Passage.references, Template.references,
        Template.verbatim, Template.Node.references, he] at ht

end

namespace Grammar

variable {σ : Type}

-- Everything that may come up in the texts of the grammar exists in it.
def IsComplete (grammar : Grammar σ) : Prop :=
  Everywhere (Symbol.Within grammar.modifiers (grammar.contains · = true)) grammar.symbols

-- The symbols of the table come to no more names than the grammar has, and none of these is
-- missing.
structure Covers (grammar : Grammar σ) (table : SymbolTable) : Prop where
  present : ∀ name, grammar.contains name = true → name ∈ table
  within : Everywhere (Symbol.Within grammar.modifiers (grammar.contains · = true)) table

theorem Covers.insert {grammar : Grammar σ} {table : SymbolTable} (h : grammar.Covers table)
    {name : String} {symbol next : Symbol} (hs : table[name]? = some symbol)
    (hn : next.candidates = symbol.candidates) : grammar.Covers (table.insert name next) := by
  refine ⟨fun other ho => Std.TreeMap.mem_insert.mpr (.inr (h.present other ho)), ?_⟩
  refine h.within.insert name ?_
  unfold Symbol.Within
  rw [hn]
  exact h.within name symbol hs

variable [RandomSource σ]

-- Where everything exists, looking symbols up comes to nothing that does not.
theorem partRules_of_covers (grammar : Grammar σ) :
    PartRules (σ := σ) grammar.modifiers grammar.Covers Step.IsClean (fun _ => True)
      (grammar.contains · = true) (fun _ => False) (fun _ => True) where
  shown := by
    rintro event hevent shown ⟨⟩
    cases event <;> first | rfl | exact absurd hevent id
  picked _ := trivial
  missing := by
    intro table name ht hn hnone
    have hm := ht.present name hn
    rw [Std.TreeMap.mem_iff_isSome_getElem?, hnone] at hm
    exact absurd hm (by simp)
  resolved := by simp [Step.IsClean, Step.event?, Event.isUndefined]
  exhausted := by simp [Step.IsClean, Step.event?, Event.isUndefined]
  opened := by simp [Step.IsClean, Step.event?]
  asks := by
    intro table name symbol candidate nodes ht hs hc hn
    obtain ⟨hwritten, hrefers⟩ := ht.within name symbol hs candidate hc
    exact asksIn_of_refersIn fun target htarget =>
      hrefers target (Candidate.references_of_renders hwritten hn htarget)
  held _ ht hs := ht.insert hs rfl
  drawn _ _ ht hs := ⟨ht.insert hs rfl, by simp [Step.IsClean, Step.event?], by simp⟩

variable (grammar : Grammar σ)

theorem answer_covers {query : Query} (h : grammar.IsComplete) (hq : query.IsPlain) :
    Upholds grammar.Covers Step.IsClean (fun _ => True) (grammar.answer query).world := by
  refine grammar.answer_upholds grammar.partRules_of_covers query (fun _ _ hc => hc) ?_ ⟨?_, h⟩
  · rintro text template rfl
    exact absurd hq id
  · exact fun name hc => Std.TreeMap.mem_iff_contains.mpr hc

theorem isComplete_perform (operation : Operation) (h : grammar.IsComplete)
    (ho : operation.IsPlain) : (grammar.perform operation).IsComplete := by
  have hmodifiers : (grammar.perform operation).modifiers = grammar.modifiers := by
    cases operation with
    | ask query => exact grammar.answer_modifiers query
    | set name rules => exact absurd ho id
    | setValue name value =>
        simp only [perform, setValue]
        split <;> rfl
    | reset name =>
        simp only [perform, reset?]
        cases grammar.symbol? name <;> rfl
    | registerModifier name modifier => exact absurd ho id
  have hgrown {symbol : Symbol}
      (hs : symbol.Within grammar.modifiers (grammar.contains · = true)) :
      symbol.Within grammar.modifiers ((grammar.perform operation).contains · = true) :=
    hs.mono fun name => grammar.contains_perform operation
  unfold IsComplete
  rw [hmodifiers]
  refine grammar.everywhere_perform Symbol.lasting_within operation (h.mono fun _ => hgrown) ?_ ?_
  · rintro query rfl
    exact (grammar.answer_covers h ho).symbols.within.mono fun _ => hgrown
  · rintro name rules symbol rfl
    exact absurd ho id

-- However a complete grammar is used, as long as it gets no new rules, templates or modifiers, it
-- never comes to anything that does not exist.
theorem isUndefined_eq_false_of_isComplete (h : grammar.IsComplete) (run : List Operation)
    (hr : ∀ operation ∈ run, operation.IsPlain) (query : Query) (hq : query.IsPlain) {event : Event}
    (he : event ∈ ((grammar.after run).answer query).events) : event.isUndefined = false := by
  have hcomplete : (grammar.after run).IsComplete :=
    after_keeps (fun grammar operation hg ho => grammar.isComplete_perform operation hg ho)
      grammar run h hr
  obtain ⟨step, hs, hevent⟩ := List.mem_filterMap.mp he
  exact ((grammar.after run).answer_covers hcomplete hq).journal step
    (Array.mem_toList_iff.mp hs) event hevent

end Grammar

end StoryGrammar
