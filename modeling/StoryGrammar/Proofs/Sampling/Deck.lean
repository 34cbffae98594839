import Mathlib.Data.List.Perm.Basic
import StoryGrammar.Sampling.Sampler

namespace StoryGrammar

namespace Roll

variable {σ α β : Type}

theorem run_bind (question : Roll σ α) (f : α → Roll σ β) (dice : Dice σ) :
    (question >>= f).run dice = (f (question.run dice).1).run (question.run dice).2 := rfl

theorem run_pure (a : α) (dice : Dice σ) : (pure a : Roll σ α).run dice = (a, dice) := rfl

theorem swapIfInBounds_perm (items : Array α) (i j : Nat) : (items.swapIfInBounds i j).Perm items := by
  unfold Array.swapIfInBounds
  split
  · split
    · exact Array.swap_perm _ _
    · exact Array.Perm.refl items
  · exact Array.Perm.refl items

variable [RandomSource σ]

theorem settle_perm (last : Nat) (items : Array α) (dice : Dice σ) :
    ((settle last items).run dice).1.Perm items := by
  induction last generalizing items dice with
  | zero => exact Array.Perm.refl items
  | succ last ih =>
      rw [settle, run_bind]
      exact (ih _ _).trans (swapIfInBounds_perm items _ _)

theorem shuffle_perm (items : List α) (dice : Dice σ) : ((shuffle items).run dice).1.Perm items := by
  have h := settle_perm (items.length - 1) items.toArray dice
  exact Array.perm_iff_toList_perm.mp h

end Roll

namespace Deck

variable {qualifies : Nat → Bool} {deck rest : Deck} {card position : Nat}

theorem takeFirst?_eq_none_iff :
    takeFirst? qualifies deck = none ↔ ∀ card ∈ deck, qualifies card = false := by
  simp [takeFirst?]

-- What lies in front of the card that is taken does not qualify, and it stays where it is.
theorem exists_of_takeFirst? (h : takeFirst? qualifies deck = some (card, rest)) :
    qualifies card = true ∧ ∃ skipped behind, deck = skipped ++ card :: behind ∧
      rest = skipped ++ behind ∧ ∀ other ∈ skipped, qualifies other = false := by
  obtain ⟨found, hf, he⟩ := Option.map_eq_some_iff.mp h
  obtain ⟨rfl, rfl⟩ := Prod.mk.inj he
  obtain ⟨hq, skipped, behind, rfl, hs⟩ := List.find?_eq_some_iff_append.mp hf
  simp only [Bool.not_eq_true'] at hs
  refine ⟨hq, skipped, behind, rfl, ?_, hs⟩
  rw [List.eraseP_append_right _ fun other ho => by simp [hs other ho],
    List.eraseP_cons_of_pos hq]

theorem perm_of_takeFirst? (h : takeFirst? qualifies deck = some (card, rest)) :
    (card :: rest).Perm deck := by
  obtain ⟨-, skipped, behind, rfl, rfl, -⟩ := exists_of_takeFirst? h
  exact List.perm_middle.symm

theorem mem_positions :
    position ∈ positions qualifies deck ↔
      ∃ card, deck[position]? = some card ∧ qualifies card = true := by
  simp only [positions, List.mem_map, List.mem_filter, Prod.exists, List.mem_zipIdx_iff_getElem?]
  constructor
  · rintro ⟨card, place, ⟨hget, hq⟩, rfl⟩
    exact ⟨card, hget, hq⟩
  · rintro ⟨card, hget, hq⟩
    exact ⟨card, position, ⟨hget, hq⟩, rfl⟩

theorem positions_eq_nil_iff :
    positions qualifies deck = [] ↔ ∀ card ∈ deck, qualifies card = false := by
  simp only [positions, List.map_eq_nil_iff, List.filter_eq_nil_iff, Prod.forall,
    List.mem_zipIdx_iff_getElem?, Bool.not_eq_true]
  constructor
  · intro h card hc
    obtain ⟨position, hget⟩ := List.mem_iff_getElem?.mp hc
    exact h card position hget
  · intro h card position hget
    exact h card (List.mem_of_getElem? hget)

theorem perm_of_getElem? (h : deck[position]? = some card) :
    (card :: deck.eraseIdx position).Perm deck := by
  obtain ⟨hlt, rfl⟩ := List.getElem?_eq_some_iff.mp h
  exact List.getElem_cons_eraseIdx_perm hlt

theorem eq_cons_cons_of_one_lt (h : 1 < deck.length) :
    ∃ first second behind, deck = first :: second :: behind := by
  match deck, h with
  | first :: second :: behind, _ => exact ⟨first, second, behind, rfl⟩

theorem swapFirstTwo_perm (deck : Deck) : (swapFirstTwo deck).Perm deck := by
  unfold swapFirstTwo
  split
  · exact List.Perm.swap _ _ _
  · exact List.Perm.refl _

variable {σ : Type} [RandomSource σ] (count : Nat) (last : Option Nat) (dice : Dice σ)

theorem permuted_perm : ((permuted count last).run dice).1.Perm (ordered count) := by
  have h := Roll.shuffle_perm (ordered count) dice
  simp only [permuted, Roll.run_bind, Roll.run_pure]
  split
  · exact (swapFirstTwo_perm _).trans h
  · exact h

-- Where there is a choice, a new order does not start with the card that was given last.
theorem head?_permuted_ne (hc : 1 < count) (card : Nat) (hl : last = some card) :
    ((permuted count last).run dice).1.head? ≠ some card := by
  subst hl
  have h := Roll.shuffle_perm (ordered count) dice
  simp only [permuted, Roll.run_bind, Roll.run_pure]
  generalize ((Roll.shuffle (ordered count)).run dice).1 = deck at h ⊢
  split
  · rename_i hfirst
    have hnodup : deck.Nodup := h.nodup_iff.mpr List.nodup_range
    have hlength : deck.length = count := by rw [h.length_eq, ordered, List.length_range]
    obtain ⟨first, second, behind, rfl⟩ := eq_cons_cons_of_one_lt (by omega : 1 < deck.length)
    obtain rfl : first = card := by simpa using hfirst.2
    simp only [List.nodup_cons, List.mem_cons, not_or] at hnodup
    simpa [swapFirstTwo] using Ne.symm hnodup.1.1
  · rename_i hfirst
    exact fun h => hfirst ⟨hc, h⟩

end Deck

end StoryGrammar
