import StoryGrammar.Random.Keystream
import StoryGrammar.Random.Source

namespace StoryGrammar

open StoryGrammar.Random (Keystream)

-- A source that is laid down by its seed.
structure Seeded where
  stream : Keystream
deriving DecidableEq, Repr

namespace Seeded

def ofSeed (seed : UInt64) : Seeded := ⟨Keystream.ofSeed seed⟩

-- Scales a number below 2^64 to an index below `n`. Numbers whose low half lies above the zone
-- are passed over, so that every index has equally many left. When a whole period has been
-- passed over, the next number counts whatever its low half is.
def scale (n zone : Nat) : Nat → Keystream → Nat × Keystream
  | 0, stream => (stream.next.1.toNat * n / UInt64.size, stream.next.2)
  | tries + 1, stream =>
    let product := stream.next.1.toNat * n
    if product % UInt64.size ≤ zone then (product / UInt64.size, stream.next.2)
    else scale n zone tries stream.next.2

theorem scale_lt {n zone tries : Nat} {stream : Keystream} (h : 0 < n) :
    (scale n zone tries stream).1 < n := by
  have hlt (x : UInt64) : x.toNat * n / UInt64.size < n := by
    rw [Nat.div_lt_iff_lt_mul (by decide), Nat.mul_comm n]
    exact Nat.mul_lt_mul_of_pos_right x.toNat_lt_size h
  induction tries generalizing stream with
  | zero => exact hlt _
  | succ tries ih =>
    simp only [scale]
    split
    · exact hlt _
    · exact ih

-- The largest multiple of `n` that is `n` times a power of two and fits into 64 bits, less one.
def uniformZone (n : Nat) : Nat := n <<< (63 - n.log2) - 1

-- The largest number below 2^64 that leaves room for whole multiples of `total` only.
def weightedZone (total : Nat) : Nat := UInt64.size - 1 - (UInt64.size - total) % total

-- A single choice needs no number of the stream.
def pickUniform (seeded : Seeded) (n : Nat) : Nat × Seeded :=
  if n ≤ 1 then (0, seeded)
  else
    let (index, stream) := scale n (uniformZone n) Keystream.period seeded.stream
    (index, ⟨stream⟩)

-- Uses the stream also for a single weight. Without any weight the pick is uniform.
def pickWeighted (seeded : Seeded) (weights : List UInt32) : Nat × Seeded :=
  let total := totalWeight weights
  if total = 0 then seeded.pickUniform weights.length
  else
    let (point, stream) := scale total (weightedZone total) Keystream.period seeded.stream
    (indexAt weights point, ⟨stream⟩)

instance : RandomSource Seeded where
  pickUniform := pickUniform
  pickWeighted := pickWeighted

theorem pickUniform_lt (seeded : Seeded) {n : Nat} (h : 0 < n) : (seeded.pickUniform n).1 < n := by
  rw [pickUniform]
  split
  · exact h
  · exact scale_lt h

instance : LawfulSource Seeded where
  pickUniform_lt seeded _ h := seeded.pickUniform_lt h
  pickWeighted_lt seeded weights h := by
    change (seeded.pickWeighted weights).1 < _
    rw [pickWeighted]
    split
    · exact seeded.pickUniform_lt (List.length_pos_iff.mpr h)
    · exact indexAt_lt_length (scale_lt (by omega))
  pickWeighted_pos seeded weights h := by
    change weights[(seeded.pickWeighted weights).1]? ≠ some 0
    rw [pickWeighted, if_neg (Nat.pos_iff_ne_zero.mp (totalWeight_pos_iff.mpr h))]
    exact getElem?_indexAt_ne_zero

end Seeded

end StoryGrammar
