import Mathlib.Data.List.Induction
import StoryGrammar.Proofs.Sampling.Cycle

namespace StoryGrammar

namespace Happening

variable {count : Nat} {last : Option Nat} {told : List Happening}

-- What has been given since the last deal is the end of all that has been given.
theorem sinceDeal_suffix (told : List Happening) : sinceDeal told <:+ told.filterMap given? := by
  induction told using List.reverseRecOn with
  | nil => exact List.suffix_refl _
  | append_singleton told next ih =>
      cases next with
      | dealt mask =>
          rw [sinceDeal_dealt]
          exact List.nil_suffix
      | gave index =>
          obtain ⟨earlier, he⟩ := ih
          refine ⟨earlier, ?_⟩
          rw [sinceDeal_gave, ← List.append_assoc, he, List.filterMap_append]
          rfl

theorem mem_sinceDeal_of_getLast? {index : Nat} (hne : sinceDeal told ≠ [])
    (hl : (told.filterMap given?).getLast? = some index) : index ∈ sinceDeal told := by
  obtain ⟨earlier, he⟩ := sinceDeal_suffix told
  rw [← he, List.getLast?_append_of_ne_nil _ hne] at hl
  exact List.mem_of_getLast? hl

-- The deck in use holds the cards that have not been given since the last deal.
theorem InCycle.mem_deck_iff {cards : Deck} {index : Nat}
    (h : InCycle count (some cards) last told) (hi : index < count) :
    index ∈ cards ↔ index ∉ sinceDeal told := by
  have hall := h.complete cards rfl
  obtain ⟨-, -, hapart⟩ := List.nodup_append.mp (hall.nodup_iff.mpr List.nodup_range)
  have hm : index ∈ cards ++ sinceDeal told := hall.mem_iff.mpr (List.mem_range.mpr hi)
  exact ⟨fun hc hg => hapart index hc index hg rfl, (List.mem_append.mp hm).resolve_right⟩

theorem InCycle.lt_of_mem {cards : Deck} {index : Nat} (h : InCycle count (some cards) last told)
    (hm : index ∈ cards) : index < count :=
  List.mem_range.mp ((h.complete cards rfl).mem_iff.mp (List.mem_append_left _ hm))

end Happening

namespace Sampler

variable {allowed : Nat → Bool} {last : Option Nat}

-- From a deck that does not start with the last card, another one is dealt, since only the last
-- card can be barred.
theorem dealFrom_ne_last {deck : Deck} (hne : deck ≠ [])
    (hhead : ∀ card, last = some card → deck.head? ≠ some card)
    (hall : ∀ card ∈ deck, last ≠ some card → allowed card = true) :
    ∃ card, (dealFrom allowed deck).1 = some card ∧ allowed card = true ∧ last ≠ some card := by
  obtain ⟨first, behind, rfl⟩ := List.exists_cons_of_ne_nil hne
  have hfirst : last ≠ some first := fun hl => hhead first hl rfl
  have hallowed := hall first (by simp) hfirst
  refine ⟨first, ?_, hallowed, hfirst⟩
  simp [dealFrom, Deck.takeFirst?, hallowed]

end Sampler

namespace Play

variable {σ : Type} [RandomSource σ] {weights : List UInt32} {play : Play σ}
  {told : List Happening}

-- Where the deck in use has a card for the draw, nothing is dealt, and the last card is gone.
theorem draw_ne_last_of_in_deck (hp : play.sampler.policy = .shuffle)
    (h : Happening.InCycle weights.length play.sampler.deck play.sampler.last told)
    (hg : Happening.sinceDeal told ≠ [])
    (hl : ∀ index, play.sampler.last = some index → index ∈ Happening.sinceDeal told)
    (mask : Option (List Bool)) {left : Nat} (hlt : left < weights.length)
    (ha : Sampler.allows mask left = true) (hn : left ∉ Happening.sinceDeal told) :
    ∃ index, ((play.sampler.draw weights mask).run play.dice).1.1 = some index ∧
      Sampler.allows mask index = true ∧ play.sampler.last ≠ some index := by
  have hshuffled := play.sampler.shuffled weights.length (Sampler.allows mask) play.dice
  rw [(run_draw_shuffle weights hp mask).1]
  generalize ((play.sampler.dealThrough weights.length (Sampler.allows mask)).run play.dice).1 =
    drawn at hshuffled ⊢
  generalize play.sampler.deals weights.length (Sampler.allows mask) play.dice = deals at hshuffled
  obtain ⟨cards, hcards⟩ : ∃ cards, play.sampler.deck = some cards := by
    refine Option.ne_none_iff_exists'.mp fun hnone => hg ?_
    rw [h.undealt hnone]
    rfl
  rw [hcards] at h
  have hleft : left ∈ cards := (h.mem_deck_iff hlt).mpr hn
  cases hshuffled with
  | @kept deck rest card hd htake =>
      obtain rfl : cards = deck := Option.some.inj (hcards.symm.trans hd)
      have hm : card ∈ cards := (Deck.perm_of_takeFirst? htake).mem_iff.mp List.mem_cons_self
      refine ⟨card, rfl, (Deck.exists_of_takeFirst? htake).1, fun hlast => ?_⟩
      exact (h.mem_deck_iff (h.lt_of_mem hm)).mp hm (hl card hlast)
  | dealt hbarred _ =>
      rw [hbarred cards hcards left hleft] at ha
      exact absurd ha Bool.false_ne_true
  | dealtTwice hused _ _ _ =>
      rw [hused cards hcards] at hleft
      exact absurd hleft List.not_mem_nil

-- Where no card but the last one is barred, what lies in front of a deck is given.
theorem draw_ne_last_of_only_last (hp : play.sampler.policy = .shuffle)
    (h : Happening.InCycle weights.length play.sampler.deck play.sampler.last told)
    (hc : 2 ≤ weights.length) (mask : Option (List Bool))
    (hall : ∀ index < weights.length, play.sampler.last ≠ some index →
      Sampler.allows mask index = true) :
    ∃ index, ((play.sampler.draw weights mask).run play.dice).1.1 = some index ∧
      Sampler.allows mask index = true ∧ play.sampler.last ≠ some index := by
  have hdealt {order : Deck} (hd : Sampler.Dealt weights.length play.sampler.last order) :
      ∃ index, (Sampler.dealFrom (Sampler.allows mask) order).1 = some index ∧
        Sampler.allows mask index = true ∧ play.sampler.last ≠ some index := by
    have hne : order ≠ [] := by
      rintro rfl
      have hlength := hd.perm.length_eq
      simp only [Deck.ordered, List.length_nil, List.length_range] at hlength
      omega
    refine Sampler.dealFrom_ne_last hne (hd.head (by omega)) fun card hm => hall card ?_
    exact List.mem_range.mp (hd.perm.mem_iff.mp hm)
  have hshuffled := play.sampler.shuffled weights.length (Sampler.allows mask) play.dice
  rw [(run_draw_shuffle weights hp mask).1]
  generalize ((play.sampler.dealThrough weights.length (Sampler.allows mask)).run play.dice).1 =
    drawn at hshuffled ⊢
  generalize play.sampler.deals weights.length (Sampler.allows mask) play.dice = deals at hshuffled
  cases hshuffled with
  | @kept deck rest card hd htake =>
      rw [hd] at h
      have hne : deck ≠ [] := by
        rintro rfl
        cases htake
      have hfront := Sampler.dealFrom_ne_last hne (h.apart (by omega) deck · rfl)
        fun card hm => hall card (h.lt_of_mem hm)
      simpa only [Sampler.dealFrom, htake] using hfront
  | dealt _ hd => exact hdealt hd
  | dealtTwice _ _ _ hd => exact hdealt hd

-- With a choice of cards, a draw gives another one than the draw before it in two situations:
-- something has been given since the last deal and an eligible card is still there, so that none are
-- dealt, or no card but the last one is barred.
theorem draw_ne_previous (weights : List UInt32) (dice : Dice σ)
    (masks : List (Option (List Bool))) (mask : Option (List Bool)) :
    let play := (fresh .shuffle dice).after weights (masks.map .draw)
    let given := Happening.sinceDeal ((fresh .shuffle dice).story weights masks)
    2 ≤ (Sampler.indices (Sampler.allows mask) weights).length →
    (given ≠ [] ∧ ∃ index < weights.length, Sampler.allows mask index = true ∧ index ∉ given) ∨
      (∀ index < weights.length, play.given.getLast? ≠ some index →
        Sampler.allows mask index = true) →
    ∃ index, ((play.sampler.draw weights mask).run play.dice).1.1 = some index ∧
      Sampler.allows mask index = true ∧ play.given.getLast? ≠ some index := by
  intro play given hc h
  have hp : play.sampler.policy = .shuffle := policy_after weights (fresh .shuffle dice) _
  have hcycle := inCycle_fresh weights dice masks
  have hlast : play.given.getLast? = play.sampler.last := getLast?_given weights .shuffle dice _
  rcases h with ⟨hgiven, left, hlt, ha, hn⟩ | hall
  · rw [hlast]
    refine draw_ne_last_of_in_deck hp hcycle hgiven (fun index hl => ?_) mask hlt ha hn
    refine Happening.mem_sinceDeal_of_getLast? hgiven ?_
    rw [← hlast, given_story] at hl
    exact hl
  · have hcount : 2 ≤ weights.length := by
      have hle := List.length_filter_le (Sampler.allows mask) (List.range weights.length)
      rw [List.length_range] at hle
      exact Nat.le_trans hc hle
    rw [hlast] at hall ⊢
    exact draw_ne_last_of_only_last hp hcycle hcount mask hall

-- Three cards that come to lie in order, and in another order when they are dealt again.
def threeCards : Dice Script := ⟨⟨[2, 1, 0, 1]⟩, #[]⟩

def opening (draws : Nat) : Play Script :=
  (fresh .shuffle threeCards).after [1, 1, 1] ((List.replicate draws none).map .draw)

-- After the first card the second one is still there, and after the second one only it is barred.
theorem draw_ne_previous_three_cards :
    (opening 1).given.getLast? = some 0 ∧ (opening 2).given.getLast? = some 1 ∧
      (∃ index, (((opening 1).sampler.draw [1, 1, 1] (some [true, true, false])).run
        (opening 1).dice).1.1 = some index ∧ some 0 ≠ some index) ∧
      ∃ index, (((opening 2).sampler.draw [1, 1, 1] (some [true, false, true])).run
        (opening 2).dice).1.1 = some index ∧ some 1 ≠ some index := by
  have hfirst : (opening 1).given.getLast? = some 0 := by decide +kernel
  have hsecond : (opening 2).given.getLast? = some 1 := by decide +kernel
  refine ⟨hfirst, hsecond, ?_, ?_⟩
  · have hsince : Happening.sinceDeal ((fresh .shuffle threeCards).story [1, 1, 1]
        (List.replicate 1 none)) = [0] := by decide +kernel
    obtain ⟨index, hdraw, -, hother⟩ := draw_ne_previous [1, 1, 1] threeCards
      (List.replicate 1 none) (some [true, true, false]) (by decide)
      (.inl ⟨by simp only [hsince]; decide, 1, by decide, by decide, by simp only [hsince]; decide⟩)
    have hgiven : (opening 1).given.getLast? ≠ some index := hother
    rw [hfirst] at hgiven
    exact ⟨index, hdraw, hgiven⟩
  · have hbarred : ∀ index < 3, (opening 2).given.getLast? ≠ some index →
        Sampler.allows (some [true, false, true]) index = true := by
      rw [hsecond]
      decide
    obtain ⟨index, hdraw, -, hother⟩ := draw_ne_previous [1, 1, 1] threeCards
      (List.replicate 2 none) (some [true, false, true]) (by decide) (.inr hbarred)
    have hgiven : (opening 2).given.getLast? ≠ some index := hother
    rw [hsecond] at hgiven
    exact ⟨index, hdraw, hgiven⟩

-- A deal only keeps the last card out of the first place. Where the card in that place is barred,
-- the last one may come next, with another card to be had.
theorem draw_repeats_behind_barred :
    Sampler.indices (Sampler.allows (some [true, true, false])) [1, 1, 1] = [0, 1] ∧
      (opening 2).given.getLast? = some 1 ∧
      (((opening 2).sampler.draw [1, 1, 1] (some [true, true, false])).run
        (opening 2).dice).1.1 = some 1 := by
  decide +kernel

end Play

end StoryGrammar
