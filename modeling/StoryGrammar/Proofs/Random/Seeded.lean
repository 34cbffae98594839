import StoryGrammar.Random.Seeded

namespace StoryGrammar

namespace Random.Keystream

-- The stream when some of its numbers have been used up.
def skip (stream : Keystream) (count : Nat) : Keystream :=
  { stream with position := stream.position + count }

theorem skip_next (stream : Keystream) (count : Nat) :
    stream.next.2.skip count = stream.skip (count + 1) := by
  simp only [skip, next, Nat.add_assoc, Nat.add_comm 1]

theorem next_skip_add_period (stream : Keystream) (count : Nat) :
    (stream.skip (count + period)).next.1 = (stream.skip count).next.1 := by
  simp only [next, skip, ← Nat.add_assoc, numberAt_add_period]

end Random.Keystream

theorem totalWeight_cons (weight : UInt32) (rest : List UInt32) :
    totalWeight (weight :: rest) = weight.toNat + totalWeight rest := rfl

theorem totalWeight_le (weights : List UInt32) :
    totalWeight weights ≤ weights.length * (UInt32.size - 1) := by
  induction weights with
  | nil => exact Nat.le_refl 0
  | cons weight rest ih =>
      have hweight : weight.toNat ≤ UInt32.size - 1 := Nat.le_sub_one_of_lt weight.toNat_lt_size
      rw [totalWeight_cons, List.length_cons, Nat.succ_mul, Nat.add_comm]
      exact Nat.add_le_add ih hweight

-- The square of a number below 2^32 is below 2^64.
theorem totalWeight_lt {weights : List UInt32} (h : weights.length < UInt32.size) :
    totalWeight weights < UInt64.size := by
  have hle := totalWeight_le weights
  have hlength : weights.length * (UInt32.size - 1) ≤ (UInt32.size - 1) * (UInt32.size - 1) :=
    Nat.mul_le_mul_right _ (Nat.le_sub_one_of_lt h)
  exact Nat.lt_of_le_of_lt (Nat.le_trans hle hlength) (by decide)

-- The sum of the weights as 64 bits hold it.
def wrappedWeight (weights : List UInt32) : UInt64 :=
  weights.foldl (fun sum weight => sum + weight.toUInt64) 0

theorem toNat_foldl_weights {weights : List UInt32} {start : UInt64}
    (h : start.toNat + totalWeight weights < UInt64.size) :
    (weights.foldl (fun sum weight => sum + weight.toUInt64) start).toNat =
      start.toNat + totalWeight weights := by
  induction weights generalizing start with
  | nil => rfl
  | cons weight rest ih =>
      rw [totalWeight_cons] at h
      have hstart : (start + weight.toUInt64).toNat = start.toNat + weight.toNat := by
        have hfit : start.toNat + weight.toNat < UInt64.size := by omega
        rw [UInt64.toNat_add, UInt32.toNat_toUInt64]
        exact Nat.mod_eq_of_lt hfit
      rw [List.foldl_cons, ih (by omega), hstart, totalWeight_cons, Nat.add_assoc]

theorem toNat_wrappedWeight {weights : List UInt32} (h : weights.length < UInt32.size) :
    (wrappedWeight weights).toNat = totalWeight weights := by
  have htotal : (0 : UInt64).toNat + totalWeight weights < UInt64.size := by
    rw [UInt64.toNat_zero, Nat.zero_add]
    exact totalWeight_lt h
  rw [wrappedWeight, toNat_foldl_weights htotal, UInt64.toNat_zero, Nat.zero_add]

-- A point falls on the first entry that ends behind it.
theorem indexAt_bounds {weights : List UInt32} {point : Nat} (h : point < totalWeight weights) :
    totalWeight (weights.take (indexAt weights point)) ≤ point ∧
      point < totalWeight (weights.take (indexAt weights point + 1)) := by
  induction weights generalizing point with
  | nil => exact absurd h (Nat.not_lt_zero point)
  | cons weight rest ih =>
      rw [totalWeight_cons] at h
      rw [indexAt]
      split
      · rename_i hlt
        exact ⟨Nat.zero_le point, by simpa [totalWeight_cons] using Nat.lt_add_right _ hlt⟩
      · obtain ⟨hle, hlt⟩ := @ih (point - weight.toNat) (by omega)
        simp only [List.take_succ_cons, totalWeight_cons]
        omega

namespace Seeded

open StoryGrammar.Random (Keystream)

-- A number counts when the low half of its product lies in the zone.
def Counts (n zone : Nat) (number : UInt64) : Prop := number.toNat * n % UInt64.size ≤ zone

-- The first number that counts stands behind some that do not.
structure CountsFirst (n zone : Nat) (stream : Keystream) (passed : Nat) : Prop where
  counts : Counts n zone (stream.skip passed).next.1
  before : ∀ earlier < passed, ¬Counts n zone (stream.skip earlier).next.1

-- If any number counts, then one does before the stream starts over.
theorem CountsFirst.lt_period {n zone passed : Nat} {stream : Keystream}
    (h : CountsFirst n zone stream passed) : passed < Keystream.period := by
  refine Nat.lt_of_not_le fun hge => ?_
  obtain ⟨earlier, rfl⟩ := Nat.exists_eq_add_of_le' hge
  refine h.before earlier ?_ ?_
  · exact Nat.lt_add_of_pos_right (by decide)
  · rw [← stream.next_skip_add_period]
    exact h.counts

-- Scaling goes by the first number that counts.
theorem scale_eq {n zone tries passed : Nat} {stream : Keystream}
    (h : CountsFirst n zone stream passed) (ht : passed ≤ tries) :
    scale n zone tries stream = ((stream.skip passed).next.1.toNat * n / UInt64.size,
      stream.skip (passed + 1)) := by
  induction tries generalizing stream passed with
  | zero =>
      obtain rfl := Nat.le_zero.mp ht
      rfl
  | succ tries ih =>
      cases passed with
      | zero =>
          rw [scale]
          exact if_pos h.counts
      | succ passed =>
          have hnext : CountsFirst n zone stream.next.2 passed := by
            refine ⟨?_, fun earlier he => ?_⟩
            · rw [Keystream.skip_next]
              exact h.counts
            · rw [Keystream.skip_next]
              exact h.before (earlier + 1) (by omega)
          have hfirst : ¬Counts n zone stream.next.1 := h.before 0 (by omega)
          have hscale : scale n zone (tries + 1) stream = scale n zone tries stream.next.2 :=
            if_neg hfirst
          rw [hscale, ih hnext (by omega), Keystream.skip_next, Keystream.skip_next]

-- The zone of a number below 2^64 is found without leaving 64 bits.
theorem uniformZone_lt {n : Nat} (h : 0 < n) (hn : n < UInt64.size) :
    uniformZone n < UInt64.size := by
  have hlog : n.log2 < 64 := (Nat.log2_lt (Nat.pos_iff_ne_zero.mp h)).mpr hn
  calc uniformZone n ≤ n <<< (63 - n.log2) := Nat.sub_le _ 1
    _ = n * 2 ^ (63 - n.log2) := Nat.shiftLeft_eq ..
    _ < 2 ^ (n.log2 + 1) * 2 ^ (63 - n.log2) :=
      Nat.mul_lt_mul_of_pos_right Nat.lt_log2_self (Nat.two_pow_pos _)
    _ = UInt64.size := by
      rw [← Nat.pow_add, show n.log2 + 1 + (63 - n.log2) = 64 by omega]

theorem pickUniform_eq (seeded : Seeded) {n passed : Nat} (hn : 1 < n)
    (h : CountsFirst n (uniformZone n) seeded.stream passed) :
    seeded.pickUniform n = ((seeded.stream.skip passed).next.1.toNat * n / UInt64.size,
      ⟨seeded.stream.skip (passed + 1)⟩) := by
  rw [pickUniform, if_neg (by omega), scale_eq h (Nat.le_of_lt h.lt_period)]

theorem pickWeighted_of_zero (seeded : Seeded) {weights : List UInt32}
    (h : ∀ weight ∈ weights, weight = 0) :
    seeded.pickWeighted weights = seeded.pickUniform weights.length := by
  have htotal : totalWeight weights = 0 := by
    refine Nat.eq_zero_of_not_pos fun hpos => ?_
    obtain ⟨weight, hmem, hne⟩ := totalWeight_pos_iff.mp hpos
    exact hne (h weight hmem)
  rw [pickWeighted]
  exact if_pos htotal

-- Where there is any weight, a point below the total decides, and it is scaled from the stream.
theorem pickWeighted_of_pos (seeded : Seeded) {weights : List UInt32}
    (h : ∃ weight ∈ weights, weight ≠ 0) :
    ∃ point < totalWeight weights, (seeded.pickWeighted weights).1 = indexAt weights point ∧
      ∀ passed, CountsFirst (totalWeight weights) (weightedZone (totalWeight weights))
          seeded.stream passed →
        point = (seeded.stream.skip passed).next.1.toNat * totalWeight weights / UInt64.size ∧
        (seeded.pickWeighted weights).2 = ⟨seeded.stream.skip (passed + 1)⟩ := by
  have hpos : 0 < totalWeight weights := totalWeight_pos_iff.mpr h
  have hpick : seeded.pickWeighted weights =
      (indexAt weights (scale (totalWeight weights) (weightedZone (totalWeight weights))
        Keystream.period seeded.stream).1,
      ⟨(scale (totalWeight weights) (weightedZone (totalWeight weights))
        Keystream.period seeded.stream).2⟩) := if_neg (Nat.ne_of_gt hpos)
  refine ⟨_, scale_lt hpos, congrArg Prod.fst hpick, fun passed hfirst => ?_⟩
  rw [hpick, scale_eq hfirst (Nat.le_of_lt hfirst.lt_period)]
  exact ⟨rfl, rfl⟩

-- A seeded source keeps to what is asked of it. The index that it picks is in range. It falls on a
-- weight that is not zero if there is one, and the pick is uniform if there is none. The index
-- comes from the first number that counts, and no sum of weights is too large for 64 bits.
theorem picks_lawful (seeded : Seeded) :
    (∀ n, 0 < n → n < UInt64.size →
      (seeded.pickUniform n).1 < n ∧ uniformZone n < UInt64.size ∧
      ∀ passed, 1 < n → CountsFirst n (uniformZone n) seeded.stream passed →
        seeded.pickUniform n = ((seeded.stream.skip passed).next.1.toNat * n / UInt64.size,
          ⟨seeded.stream.skip (passed + 1)⟩)) ∧
    ∀ weights : List UInt32, weights ≠ [] → weights.length < UInt32.size →
      let total := totalWeight weights
      let pick := seeded.pickWeighted weights
      (∃ weight, weights[pick.1]? = some weight ∧
        (weight ≠ 0 ∨ ∀ other ∈ weights, other = 0)) ∧
      ((∀ weight ∈ weights, weight = 0) → pick = seeded.pickUniform weights.length) ∧
      ((∃ weight ∈ weights, weight ≠ 0) → ∃ point < total,
        totalWeight (weights.take pick.1) ≤ point ∧
        point < totalWeight (weights.take (pick.1 + 1)) ∧
        ∀ passed, CountsFirst total (weightedZone total) seeded.stream passed →
          point = (seeded.stream.skip passed).next.1.toNat * total / UInt64.size ∧
          pick.2 = ⟨seeded.stream.skip (passed + 1)⟩) ∧
      ∀ count, (wrappedWeight (weights.take count)).toNat = totalWeight (weights.take count) := by
  refine ⟨fun n h hn => ⟨seeded.pickUniform_lt h, uniformZone_lt h hn,
    fun passed => seeded.pickUniform_eq⟩, fun weights hne hlength => ?_⟩
  intro total pick
  refine ⟨?_, seeded.pickWeighted_of_zero, fun h => ?_, fun count => ?_⟩
  · have hlt : pick.1 < weights.length := LawfulSource.pickWeighted_lt seeded weights hne
    have hget := List.getElem?_eq_getElem hlt
    refine ⟨weights[pick.1], hget, ?_⟩
    by_cases hsome : ∃ other ∈ weights, other ≠ 0
    · refine .inl fun hzero => LawfulSource.pickWeighted_pos seeded weights hsome ?_
      exact hget.trans (congrArg some hzero)
    · exact .inr fun other ho => Decidable.byContradiction fun hne => hsome ⟨other, ho, hne⟩
  · obtain ⟨point, hlt, hindex, hpoint⟩ := seeded.pickWeighted_of_pos h
    obtain ⟨hle, hbehind⟩ := indexAt_bounds hlt
    rw [← hindex] at hle hbehind
    exact ⟨point, hlt, hle, hbehind, hpoint⟩
  · refine toNat_wrappedWeight (Nat.lt_of_le_of_lt ?_ hlength)
    rw [List.length_take]
    exact Nat.min_le_right _ _

-- Two weights that do not fit into 32 bits together.
def heavy : List UInt32 := [3000000000, 3000000000]

theorem picks_lawful_heavy :
    let seeded := Seeded.ofSeed 13
    heavy ≠ [] ∧ heavy.length < UInt32.size ∧
    CountsFirst 6000000000 (weightedZone 6000000000) seeded.stream 0 ∧
    (seeded.pickUniform (UInt64.size - 1)).1 < UInt64.size - 1 ∧
    (wrappedWeight heavy).toNat = 6000000000 ∧
    seeded.pickWeighted heavy = (1, ⟨seeded.stream.skip 1⟩) := by
  intro seeded
  have hne : heavy ≠ [] := by decide
  have hlength : heavy.length < UInt32.size := by decide
  have hsome : ∃ weight ∈ heavy, weight ≠ 0 := by decide
  have hfirst : CountsFirst 6000000000 (weightedZone 6000000000) seeded.stream 0 :=
    ⟨by unfold Counts; decide +kernel, fun earlier he => absurd he (Nat.not_lt_zero earlier)⟩
  have hindex : (seeded.pickWeighted heavy).1 = 1 := by decide +kernel
  obtain ⟨huniform, hweighted⟩ := picks_lawful seeded
  obtain ⟨-, -, hpoint, hsum⟩ := hweighted heavy hne hlength
  obtain ⟨point, -, -, -, hnext⟩ := hpoint hsome
  exact ⟨hne, hlength, hfirst, (huniform _ (by decide) (by decide)).1, hsum 2,
    Prod.ext hindex (hnext 0 hfirst).2⟩

end Seeded

end StoryGrammar
