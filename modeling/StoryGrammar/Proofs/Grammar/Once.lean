import StoryGrammar.Proofs.Grammar.Phase
import StoryGrammar.Random.Script

namespace StoryGrammar

open Expansion

namespace Outcome

variable {σ α : Type}

-- The values under which a symbol is shown while an operation goes on, in order.
def readings (outcome : Outcome σ α) (name : String) : List (String × Bool) :=
  outcome.events.filterMap (Event.reading? name)

-- What a symbol is offered at each of its draws, and what it gives.
def draws (outcome : Outcome σ α) (name : String) : List (Option (List Bool) × Option Nat) :=
  outcome.journal.toList.filterMap (Step.draw? name)

theorem readings_world (outcome : Outcome σ α) (name : String) :
    outcome.world.readings name = outcome.readings name :=
  List.filterMap_filterMap.symm

end Outcome

namespace Expansion

variable {σ : Type} [RandomSource σ] {own : Option Symbol} {forced : Prop} {name : String}
variable {world : World σ} {phase : Phase} {readings : List (String × Bool)}

-- Where all readings tell of the value that was there before, each is like any other.
theorem HeldOnly.pairwise (h : HeldOnly own readings) :
    readings.Pairwise fun earlier later => later = (earlier.1, true) := by
  apply List.pairwise_of_forall_mem_list
  rintro ⟨value, cached⟩ hm ⟨value', cached'⟩ hm'
  obtain ⟨-, hvalue⟩ := h _ hm
  obtain ⟨hcached', hvalue'⟩ := h _ hm'
  have hsame : value' = value := Option.some.inj (hvalue'.symm.trans hvalue)
  exact Prod.ext hsame hcached'

theorem HeldOnly.eq_nil (h : HeldOnly own readings) (hown : own.bind Symbol.value = none) :
    readings = [] := by
  apply List.eq_nil_iff_forall_not_mem.mpr
  intro reading hm
  have hvalue := (h reading hm).2
  simp [hown] at hvalue

theorem HeldOnly.filter_eq_nil (h : HeldOnly own readings) : readings.filter (!·.2) = [] := by
  apply List.filter_eq_nil_iff.mpr
  intro reading hm
  simp [(h reading hm).1]

-- The sampler is as it was before, or one draw further.
theorem Stands.draws (h : Stands own forced name world phase) :
    (world.draws name = [] ∧
        world.symbols[name]?.map Symbol.sampler = own.map Symbol.sampler) ∨
      ∃ symbol later mask index, world.draws name = [(mask, index)] ∧ own = some symbol ∧
        world.symbols[name]? = some later ∧ ∃ dice : Dice σ,
          ((symbol.sampler.draw symbol.weights mask).run dice).1 = (index, later.sampler) := by
  cases h with
  | rested hsymbol hdraws _ => exact .inl ⟨hdraws, by rw [hsymbol]⟩
  | drawn hdrawn hsymbol _ | settled _ hdrawn hsymbol _ _ _ =>
      obtain ⟨symbol, mask, index, hown, hdraws, dice, hdraw⟩ := hdrawn
      have hindex : ((symbol.sampler.draw symbol.weights mask).run dice).1.1 = index :=
        congrArg Prod.fst hdraw
      have hlater : ((symbol.sampler.draw symbol.weights mask).run dice).1.2 = _ :=
        congrArg (·.2.sampler) hdraw
      exact .inr ⟨symbol, _, mask, index, hdraws, hown, hsymbol, dice, Prod.ext hindex hlater⟩

-- The symbol gets a value at most once.
theorem Stands.length_assigned (h : Stands own forced name world phase) :
    ((world.readings name).filter (!·.2)).length ≤ 1 := by
  cases h with
  | rested _ _ hheld | drawn _ _ hheld =>
      rw [hheld.filter_eq_nil]
      exact Nat.zero_le 1
  | @settled later value before after _ _ _ hreadings hheld hafter =>
      have hcached : after.filter (!·.2) = [] := by
        apply List.filter_eq_nil_iff.mpr
        intro reading hm
        simp [hafter reading hm]
      rw [hreadings, List.filter_append, hheld.filter_eq_nil, List.nil_append,
        List.filter_cons_of_pos (by rfl), hcached]
      exact Nat.le_refl 1

-- Unless it is forced to draw, a symbol is shown with one value only.
theorem Stands.readings_pairwise (h : Stands own forced name world phase) (hf : ¬forced) :
    (world.readings name).Pairwise (fun earlier later => later = (earlier.1, true)) ∧
      ∀ reading ∈ (world.readings name).head?,
        reading.2 = true ↔ own.bind Symbol.value = some reading.1 := by
  cases h with
  | rested _ _ hheld | drawn _ _ hheld =>
      refine ⟨hheld.pairwise, fun reading hm => ?_⟩
      obtain ⟨hcached, hvalue⟩ := hheld reading (List.mem_of_mem_head? hm)
      exact ⟨fun _ => hvalue, fun _ => hcached⟩
  | @settled later value before after hdue _ _ hreadings hheld hafter =>
      have hnone : own.bind Symbol.value = none := hdue.resolve_right hf
      have hnil : before = [] := hheld.eq_nil hnone
      rw [hreadings, hnil, List.nil_append]
      constructor
      · apply List.Pairwise.cons hafter
        apply List.pairwise_of_forall_mem_list
        intro earlier hm later hm'
        rw [hafter earlier hm, hafter later hm']
      · rintro reading hm
        obtain rfl : (value, false) = reading := by simpa using hm
        simp [hnone]

end Expansion

namespace Grammar

variable {σ : Type} [RandomSource σ] (grammar : Grammar σ)

-- In the course of one operation no symbol is drawn from twice, and its sampler is touched by
-- nothing else. No symbol gets a value twice. Unless it is forced to draw, it is shown with one
-- value only; where it had none before, the first time it is shown is when it gets it.
theorem answer_draws_once (query : Query) (name : String) :
    let outcome := grammar.answer query
    ((outcome.draws name = [] ∧
        (outcome.grammar.symbol? name).map Symbol.sampler =
          (grammar.symbol? name).map Symbol.sampler) ∨
      ∃ symbol later mask index, outcome.draws name = [(mask, index)] ∧
        grammar.symbol? name = some symbol ∧ outcome.grammar.symbol? name = some later ∧
        ∃ dice : Dice σ,
          ((symbol.sampler.draw symbol.weights mask).run dice).1 = (index, later.sampler)) ∧
    ((outcome.readings name).filter (!·.2)).length ≤ 1 ∧
    (query ≠ .expandSymbol name true →
      (outcome.readings name).Pairwise (fun earlier later => later = (earlier.1, true)) ∧
      ∀ reading ∈ (outcome.readings name).head?,
        reading.2 = true ↔ (grammar.symbol? name).bind Symbol.value = some reading.1) := by
  intro outcome
  obtain ⟨phase, hstands, -⟩ := grammar.answer_stands query name
  rw [← outcome.readings_world name]
  refine ⟨hstands.draws, hstands.length_assigned, fun hq => ?_⟩
  exact hstands.readings_pairwise hq

-- A saying that is about the same thing three times, with a thing that may be either of two.
def saying : Grammar Script where
  symbols := ((∅ : SymbolTable).insert "saying"
    (.ofCandidates [⟨.written ⟨⟨"no #thing# like #thing#",
        [.literal "no ", .reference ⟨"thing", []⟩, .literal " like ", .reference ⟨"thing", []⟩]⟩,
        [⟨"#thing#", [.reference ⟨"thing", []⟩]⟩]⟩, 1⟩] .uniform)).insert "thing"
    (.ofCandidates (["bread", "home"].map fun text =>
      ⟨.written ⟨Template.verbatim text, []⟩, 1⟩) .shuffle)
  modifiers := .empty
  source := ⟨[1, 0, 1]⟩
  origin := "saying"
  maxDepth := 2

theorem answer_draws_once_saying :
    Query.expand ≠ .expandSymbol "thing" true ∧
    (saying.expand.readings "thing").Pairwise (fun earlier later => later = (earlier.1, true)) ∧
    saying.expand.readings "thing" = [("bread", false), ("bread", true), ("bread", true)] := by
  have hq : Query.expand ≠ .expandSymbol "thing" true := by simp
  obtain ⟨-, -, hreadings⟩ := answer_draws_once saying .expand "thing"
  exact ⟨hq, (hreadings hq).1, by decide +kernel⟩

end Grammar

end StoryGrammar
