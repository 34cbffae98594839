import StoryGrammar.Random.Source

namespace StoryGrammar

-- A source that reads its answers off a list. Every question uses up one number, also a question
-- with a single possible answer; behind the end of the list there are only zeros.
structure Script where
  upcoming : List Nat
deriving DecidableEq, Repr

namespace Script

def next (script : Script) : Nat × Script :=
  match script.upcoming with
  | [] => (0, script)
  | number :: rest => (number, ⟨rest⟩)

-- The remainder of a number, which is an index below `n`; zero if there is none.
def fit (number n : Nat) : Nat := if n = 0 then 0 else number % n

theorem fit_lt {number n : Nat} (h : 0 < n) : fit number n < n := by
  rw [fit, if_neg (by omega)]
  exact Nat.mod_lt _ h

def answerWeighted (number : Nat) (weights : List UInt32) : Nat :=
  if totalWeight weights = 0 then fit number weights.length
  else indexAt weights (fit number (totalWeight weights))

instance : RandomSource Script where
  pickUniform script n := (fit script.next.1 n, script.next.2)
  pickWeighted script weights := (answerWeighted script.next.1 weights, script.next.2)

instance : LawfulSource Script where
  pickUniform_lt _ _ h := fit_lt h
  pickWeighted_lt script weights h := by
    change answerWeighted _ weights < _
    rw [answerWeighted]
    split
    · exact fit_lt (List.length_pos_iff.mpr h)
    · exact indexAt_lt_length (fit_lt (by omega))
  pickWeighted_pos script weights h := by
    change weights[answerWeighted _ weights]? ≠ some 0
    rw [answerWeighted, if_neg (Nat.pos_iff_ne_zero.mp (totalWeight_pos_iff.mpr h))]
    exact getElem?_indexAt_ne_zero

end Script

end StoryGrammar
