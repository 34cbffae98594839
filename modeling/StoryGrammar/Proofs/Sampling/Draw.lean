import Mathlib.Data.List.ReduceOption
import StoryGrammar.Proofs.Sampling.Deck

namespace StoryGrammar

-- Whether a candidate that was picked may be picked again at once.
def Distribution.replaces : Distribution → Bool
  | .uniform | .weighted => true
  | .pop | .shuffle | .popWeighted => false

-- A deck from which no card is missing.
def Deck.full (policy : Distribution) (weights : List UInt32) : Deck :=
  match policy with
  | .popWeighted => pool weights
  | _ => ordered weights.length

namespace Sampler

variable (sampler : Sampler) (weights : List UInt32) (allowed : Nat → Bool)

-- The deck that a draw takes from: the one in use, or one that is dealt in the draw. Only a
-- shuffle deals anew while a deck is in use.
def Provides (deck : Deck) : Prop :=
  sampler.deck = some deck ∨ deck.Perm (Deck.full sampler.policy weights) ∧
    (sampler.policy = .shuffle ∨ sampler.deck = none)

-- All that a draw can give and leave behind: an index and a deck.
inductive Picked : Option Nat → Option Deck → Prop
  | chosen {index : Nat} : sampler.policy.replaces = true → index < weights.length →
      allowed index = true → Picked (some index) sampler.deck
  | barred : sampler.policy.replaces = true → (∀ index < weights.length, allowed index = false) →
      Picked none sampler.deck
  | taken {deck rest : Deck} {card : Nat} : sampler.policy.replaces = false →
      sampler.Provides weights deck → allowed card = true → (card :: rest).Perm deck →
      Picked (some card) (some rest)
  | stuck {deck : Deck} : sampler.policy.replaces = false → sampler.Provides weights deck →
      (∀ card ∈ deck, allowed card = false) → Picked none (some deck)

variable {weights allowed} {deck : Deck} {indices : List Nat}

theorem mem_indices {index : Nat} :
    index ∈ Sampler.indices allowed weights ↔ index < weights.length ∧ allowed index = true := by
  simp [Sampler.indices]

-- The weights of some of the candidates are as many as these.
theorem length_filterMap_weights (h : ∀ index ∈ indices, index < weights.length) :
    (indices.filterMap (weights[·]?)).length = indices.length := by
  rw [List.filterMap_length_eq_length]
  intro index hi
  simp [h index hi]

variable {σ : Type} [RandomSource σ]

theorem pickFrom_nil : (pickFrom [] : Roll σ (Option Nat)) = pure none := rfl

theorem pickWeightedFrom_nil : (pickWeightedFrom weights [] : Roll σ (Option Nat)) = pure none :=
  rfl

-- The first card that qualifies is dealt.
theorem dealFrom_cases (allowed : Nat → Bool) (deck : Deck) :
    ((∀ card ∈ deck, allowed card = false) ∧ dealFrom allowed deck = (none, deck)) ∨
      ∃ card rest, allowed card = true ∧ (card :: rest).Perm deck ∧
        dealFrom allowed deck = (some card, rest) := by
  unfold dealFrom
  cases h : deck.takeFirst? allowed with
  | none => exact .inl ⟨Deck.takeFirst?_eq_none_iff.mp h, rfl⟩
  | some taken =>
      obtain ⟨card, rest⟩ := taken
      exact .inr ⟨card, rest, (Deck.exists_of_takeFirst? h).1, Deck.perm_of_takeFirst? h, rfl⟩

-- Where the cards come from when a shuffle draws: the deck in use if a card of it qualifies, and
-- else a new one.
theorem run_dealThrough (sampler : Sampler) (count : Nat) (allowed : Nat → Bool) (dice : Dice σ) :
    ∃ deck, (sampler.deck = some deck ∨ deck.Perm (Deck.ordered count)) ∧
      ((sampler.dealThrough count allowed).run dice).1 = dealFrom allowed deck := by
  have horder : ∃ deck, (sampler.deck = some deck ∨ deck.Perm (Deck.ordered count)) ∧
      ((sampler.currentOrder count).run dice).1 = deck := by
    refine ⟨_, ?_, rfl⟩
    unfold currentOrder
    split
    · exact .inr (Deck.permuted_perm count _ dice)
    · exact .inr (Deck.permuted_perm count _ dice)
    · rename_i deck hdeck
      exact .inl hdeck
  obtain ⟨deck, hdeck, hrun⟩ := horder
  rw [dealThrough, Roll.run_bind, hrun]
  cases htake : deck.takeFirst? allowed with
  | some taken =>
      refine ⟨deck, hdeck, ?_⟩
      simp only [dealFrom, htake]
      rfl
  | none => exact ⟨_, .inr (Deck.permuted_perm count _ _), rfl⟩

section

variable [RangedSource σ] (dice : Dice σ)

theorem run_pickFrom (h : indices ≠ []) :
    ∃ index ∈ indices, ((pickFrom indices).run dice).1 = some index := by
  have hlt := RangedSource.pickUniform_lt dice.source indices.length (List.length_pos_iff.mpr h)
  refine ⟨_, List.getElem_mem hlt, ?_⟩
  rw [pickFrom, if_neg (by simpa using h)]
  exact List.getElem?_eq_getElem hlt

theorem run_pickWeightedFrom (h : indices ≠ []) (hlt : ∀ index ∈ indices, index < weights.length) :
    ∃ index ∈ indices, ((pickWeightedFrom weights indices).run dice).1 = some index := by
  have hlength := length_filterMap_weights hlt
  have hpool : indices.filterMap (weights[·]?) ≠ [] := by
    rw [← List.length_pos_iff, hlength]
    exact List.length_pos_iff.mpr h
  have hpick := RangedSource.pickWeighted_lt dice.source _ hpool
  rw [hlength] at hpick
  refine ⟨_, List.getElem_mem hpick, ?_⟩
  rw [pickWeightedFrom, if_neg (by simpa using h)]
  exact List.getElem?_eq_getElem hpick

-- A deck of which no card qualifies is left alone, and the source is asked nothing.
theorem run_popFrom (allowed : Nat → Bool) (deck : Deck) :
    ((∀ card ∈ deck, allowed card = false) ∧
        (popFrom allowed deck).run dice = ((none, deck), dice)) ∨
      ∃ card rest, allowed card = true ∧ (card :: rest).Perm deck ∧
        ((popFrom allowed deck).run dice).1 = (some card, rest) := by
  by_cases hp : deck.positions allowed = []
  · refine .inl ⟨Deck.positions_eq_nil_iff.mp hp, ?_⟩
    rw [popFrom, hp]
    rfl
  · obtain ⟨position, hm, hpick⟩ := run_pickFrom dice hp
    obtain ⟨card, hget, hq⟩ := Deck.mem_positions.mp hm
    refine .inr ⟨card, deck.eraseIdx position, hq, Deck.perm_of_getElem? hget, ?_⟩
    simp only [popFrom, Roll.run_bind, hpick, Deck.takeAt?, hget, Option.map_some, Roll.run_pure]

theorem picked (sampler : Sampler) (weights : List UInt32) (allowed : Nat → Bool) :
    sampler.Picked weights allowed ((sampler.pick weights allowed).run dice).1.1
      ((sampler.pick weights allowed).run dice).1.2 := by
  have hindices : Sampler.indices allowed weights = [] →
      ∀ index < weights.length, allowed index = false := by
    intro h index hi
    refine Bool.eq_false_iff.mpr fun ha => ?_
    have hm := mem_indices.mpr ⟨hi, ha⟩
    rw [h] at hm
    exact List.not_mem_nil hm
  have hdealt (deck : Deck) (hr : sampler.policy.replaces = false)
      (hp : sampler.Provides weights deck) :
      sampler.Picked weights allowed (dealFrom allowed deck).1 (some (dealFrom allowed deck).2) := by
    rcases dealFrom_cases allowed deck with ⟨hnone, he⟩ | ⟨card, rest, hq, hperm, he⟩
    · rw [he]
      exact .stuck hr hp hnone
    · rw [he]
      exact .taken hr hp hq hperm
  unfold pick
  cases hpolicy : sampler.policy with
  | uniform =>
      simp only [Roll.run_bind, Roll.run_pure]
      by_cases hi : Sampler.indices allowed weights = []
      · rw [hi, pickFrom_nil]
        exact .barred (by rw [hpolicy]; rfl) (hindices hi)
      · obtain ⟨index, hm, hpick⟩ := run_pickFrom dice hi
        rw [hpick]
        obtain ⟨hlt, hq⟩ := mem_indices.mp hm
        exact .chosen (by rw [hpolicy]; rfl) hlt hq
  | weighted =>
      simp only [Roll.run_bind, Roll.run_pure]
      by_cases hi : Sampler.indices allowed weights = []
      · rw [hi, pickWeightedFrom_nil]
        exact .barred (by rw [hpolicy]; rfl) (hindices hi)
      · obtain ⟨index, hm, hpick⟩ := run_pickWeightedFrom dice hi fun _ h => (mem_indices.mp h).1
        rw [hpick]
        obtain ⟨hlt, hq⟩ := mem_indices.mp hm
        exact .chosen (by rw [hpolicy]; rfl) hlt hq
  | pop =>
      have hp : sampler.Provides weights (sampler.deck.getD (Deck.ordered weights.length)) := by
        cases hdeck : sampler.deck with
        | some deck => exact .inl hdeck
        | none => exact .inr ⟨by rw [hpolicy]; exact List.Perm.refl _, .inr hdeck⟩
      have hr : sampler.policy.replaces = false := by rw [hpolicy]; rfl
      simp only [Roll.run_bind, Roll.run_pure]
      rcases run_popFrom dice allowed (sampler.deck.getD (Deck.ordered weights.length)) with
        ⟨hnone, he⟩ | ⟨card, rest, hq, hperm, he⟩
      · rw [he]
        exact .stuck hr hp hnone
      · rw [he]
        exact .taken hr hp hq hperm
  | shuffle =>
      obtain ⟨deck, hdeck, he⟩ := run_dealThrough sampler weights.length allowed dice
      simp only [Roll.run_bind, Roll.run_pure, he]
      refine hdealt deck (by rw [hpolicy]; rfl) (hdeck.imp id fun h => ⟨?_, .inl hpolicy⟩)
      rw [hpolicy]
      exact h
  | popWeighted =>
      have hr : sampler.policy.replaces = false := by rw [hpolicy]; rfl
      cases hdeck : sampler.deck with
      | some deck => exact hdealt deck hr (.inl hdeck)
      | none =>
          refine hdealt _ hr (.inr ⟨?_, .inr hdeck⟩)
          rw [hpolicy]
          exact Roll.shuffle_perm _ _

end

theorem run_draw (sampler : Sampler) (weights : List UInt32) (mask : Option (List Bool))
    (dice : Dice σ) :
    (sampler.draw weights mask).run dice =
      let picked := (sampler.pick weights (allows mask)).run dice
      ((picked.1.1, ⟨sampler.policy, picked.1.2, picked.1.1.or sampler.last⟩), picked.2) := rfl

end Sampler

-- One thing that is done with a sampler.
inductive Move where
  | draw (mask : Option (List Bool))
  | reset

-- A sampler in use, with what its draws have come to since it was last reset, the latest last.
structure Play (σ : Type) where
  sampler : Sampler
  dice : Dice σ
  answers : List (Option Nat) := []

namespace Play

variable {σ : Type}

-- A sampler that is new or has just been reset, with whatever source it is used.
def fresh (policy : Distribution) (dice : Dice σ) : Play σ := { sampler := { policy }, dice }

-- The indices that have been drawn since the sampler was last reset.
def given (play : Play σ) : List Nat := play.answers.reduceOption

variable [RandomSource σ] (weights : List UInt32)

def move (play : Play σ) : Move → Play σ
  | .draw mask =>
    let ((answer, sampler), dice) := (play.sampler.draw weights mask).run play.dice
    ⟨sampler, dice, play.answers ++ [answer]⟩
  | .reset => { sampler := play.sampler.reset, dice := play.dice }

def after (play : Play σ) (moves : List Move) : Play σ := moves.foldl (move weights) play

theorem after_cons (play : Play σ) (move : Move) (moves : List Move) :
    play.after weights (move :: moves) = (play.move weights move).after weights moves := rfl

theorem after_append (play : Play σ) (moves more : List Move) :
    play.after weights (moves ++ more) = (play.after weights moves).after weights more :=
  List.foldl_append

theorem move_draw (play : Play σ) (mask : Option (List Bool)) :
    play.move weights (.draw mask) =
      let picked := (play.sampler.pick weights (Sampler.allows mask)).run play.dice
      ⟨⟨play.sampler.policy, picked.1.2, picked.1.1.or play.sampler.last⟩, picked.2,
        play.answers ++ [picked.1.1]⟩ := rfl

omit [RandomSource σ] in
theorem given_append (play : Play σ) (sampler : Sampler) (dice : Dice σ) (answer : Option Nat) :
    (⟨sampler, dice, play.answers ++ [answer]⟩ : Play σ).given = play.given ++ answer.toList := by
  cases answer <;> simp [given, List.reduceOption_append]

-- What each move of a run keeps, the run keeps.
theorem after_keeps {P : Play σ → Prop} (step : ∀ play move, P play → P (play.move weights move))
    (play : Play σ) (moves : List Move) (h : P play) : P (play.after weights moves) := by
  induction moves generalizing play with
  | nil => exact h
  | cons move moves ih => exact ih _ (step play move h)

theorem policy_after (play : Play σ) (moves : List Move) :
    (play.after weights moves).sampler.policy = play.sampler.policy :=
  after_keeps (P := fun other => other.sampler.policy = play.sampler.policy) weights
    (fun _ move h => by cases move <;> exact h) play moves rfl

-- A sampler remembers the index that it gave last.
theorem getLast?_given (policy : Distribution) (dice : Dice σ) (moves : List Move) :
    ((fresh policy dice).after weights moves).given.getLast? =
      ((fresh policy dice).after weights moves).sampler.last := by
  refine after_keeps (P := fun play => play.given.getLast? = play.sampler.last) weights
    (fun play move h => ?_) _ moves rfl
  cases move with
  | reset => rfl
  | draw mask =>
      rw [move_draw]
      dsimp only
      rw [given_append]
      generalize ((play.sampler.pick weights (Sampler.allows mask)).run play.dice).1.1 = answer
      cases answer with
      | none => simpa using h
      | some index => simp

end Play

end StoryGrammar
