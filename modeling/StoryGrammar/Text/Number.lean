namespace StoryGrammar.Text

-- A number written with digits only, perhaps behind a plus sign, that stays within a bound.
def natural? (bound : Nat) (text : String) : Option Nat :=
  let digits := match text.toList with
    | '+' :: rest => rest
    | chars => chars
  if digits.isEmpty || !digits.all Char.isDigit then none
  else
    let number := digits.foldl (fun number c => 10 * number + (c.toNat - '0'.toNat)) 0
    if number ≤ bound then some number else none

-- A quotient as a whole number. Of two that are equally near, the even one is taken.
def roundDiv (num den : Nat) : Nat :=
  let quotient := num / den
  let twice := 2 * (num % den)
  if twice < den ∨ (twice = den ∧ quotient % 2 = 0) then quotient else quotient + 1

-- A whole number of which 53 binary digits are kept, with zeros behind them.
def roundBinary (n : Nat) : Nat :=
  let dropped := n.log2 - 52
  roundDiv n (1 <<< dropped) <<< dropped

theorem roundDiv_one (n : Nat) : roundDiv n 1 = n := by
  simp [roundDiv, Nat.mod_one]

theorem roundBinary_of_lt {n : Nat} (h : n < 1 <<< 53) : roundBinary n = n := by
  by_cases hn : n = 0
  · simp [hn, roundBinary, roundDiv]
  · have : n.log2 < 53 := (Nat.log2_lt hn).2 h
    have hd : n.log2 - 52 = 0 := by omega
    simp [roundBinary, hd, roundDiv_one]

-- The place of the last binary digit that is kept when a quotient is held in 53 digits.
def binaryPlaces (num den : Nat) : Nat :=
  let places := 53 + den.log2 - num.log2
  if (num <<< places) / den < 1 <<< 53 then places else places - 1

-- One decimal place of a quotient that is first held in 53 binary digits. The first rounding is
-- what decides about quotients such as one twentieth.
def tenths (num den : Nat) : Nat :=
  let places := binaryPlaces num den
  roundDiv (10 * roundDiv (num <<< places) den) (1 <<< places)

-- A mean with one decimal place; nothing has the mean zero.
def showMean (total count : Nat) : String :=
  let tenths := if count = 0 then 0 else tenths total count
  s!"{tenths / 10}.{tenths % 10}"

end StoryGrammar.Text
