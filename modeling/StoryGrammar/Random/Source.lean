namespace StoryGrammar

-- Where choices come from. The same source answers the same questions with the same indices.
class RandomSource (σ : Type) where
  -- An index below a positive number.
  pickUniform : σ → Nat → Nat × σ
  -- An index into a list that is not empty. Larger weights are picked more often; if all are
  -- zero, each index is as good as another.
  pickWeighted : σ → List UInt32 → Nat × σ

-- Sources that stay inside the range they are asked for, and that do not pick a zero weight
-- where a positive one is offered.
class LawfulSource (σ : Type) [RandomSource σ] : Prop where
  pickUniform_lt : ∀ (s : σ) (n : Nat), 0 < n → (RandomSource.pickUniform s n).1 < n
  pickWeighted_lt : ∀ (s : σ) (weights : List UInt32), weights ≠ [] →
    (RandomSource.pickWeighted s weights).1 < weights.length
  pickWeighted_pos : ∀ (s : σ) (weights : List UInt32), (∃ w ∈ weights, w ≠ 0) →
    weights[(RandomSource.pickWeighted s weights).1]? ≠ some 0

-- Sources of which no more is known than that they stay inside the range.
class RangedSource (σ : Type) [RandomSource σ] : Prop where
  pickUniform_lt : ∀ (s : σ) (n : Nat), 0 < n → (RandomSource.pickUniform s n).1 < n
  pickWeighted_lt : ∀ (s : σ) (weights : List UInt32), weights ≠ [] →
    (RandomSource.pickWeighted s weights).1 < weights.length

instance {σ : Type} [RandomSource σ] [LawfulSource σ] : RangedSource σ :=
  ⟨LawfulSource.pickUniform_lt, LawfulSource.pickWeighted_lt⟩

def totalWeight (weights : List UInt32) : Nat := weights.foldr (·.toNat + ·) 0

-- The entry that a point falls on when the weights are laid end to end. A point beyond them all
-- gives the length of the list.
def indexAt : List UInt32 → Nat → Nat
  | [], _ => 0
  | weight :: rest, point =>
    if point < weight.toNat then 0 else indexAt rest (point - weight.toNat) + 1

theorem indexAt_lt_length {weights : List UInt32} {point : Nat}
    (h : point < totalWeight weights) : indexAt weights point < weights.length := by
  induction weights generalizing point with
  | nil => simp [totalWeight] at h
  | cons weight rest ih =>
    simp only [totalWeight, List.foldr_cons] at h ih
    simp only [indexAt]
    split
    · simp
    · have := @ih (point - weight.toNat) (by omega)
      simp only [List.length_cons]
      omega

-- No point falls on an entry without weight.
theorem getElem?_indexAt_ne_zero {weights : List UInt32} {point : Nat} :
    weights[indexAt weights point]? ≠ some 0 := by
  induction weights generalizing point with
  | nil => simp
  | cons weight rest ih =>
    simp only [indexAt]
    split
    · rename_i h
      simp only [List.getElem?_cons_zero, ne_eq, Option.some.injEq]
      intro hw
      simp [hw] at h
    · simpa using ih

theorem totalWeight_pos_iff {weights : List UInt32} :
    0 < totalWeight weights ↔ ∃ w ∈ weights, w ≠ 0 := by
  induction weights with
  | nil => simp [totalWeight]
  | cons weight rest ih =>
    have h : weight ≠ 0 ↔ 0 < weight.toNat := by
      rw [ne_eq, ← UInt32.toNat_inj]
      simp only [UInt32.toNat_zero]
      omega
    simp only [totalWeight, List.foldr_cons, List.mem_cons, exists_eq_or_imp, h]
      at ih ⊢
    rw [← ih]
    omega

end StoryGrammar
