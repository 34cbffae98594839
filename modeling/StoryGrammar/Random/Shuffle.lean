import StoryGrammar.Random.Source

namespace StoryGrammar

-- One question put to a source.
inductive Request where
  | uniform (n : Nat)
  | weighted (weights : List UInt32)
deriving DecidableEq, Repr

-- A source, and what it has been asked so far.
structure Dice (σ : Type) where
  source : σ
  requests : Array Request := #[]

abbrev Roll (σ : Type) := StateM (Dice σ)

namespace Roll

variable {σ : Type} [RandomSource σ] {α : Type}

def uniform (n : Nat) : Roll σ Nat := fun dice =>
  let (index, source) := RandomSource.pickUniform dice.source n
  (index, ⟨source, dice.requests.push (.uniform n)⟩)

def weighted (weights : List UInt32) : Roll σ Nat := fun dice =>
  let (index, source) := RandomSource.pickWeighted dice.source weights
  (index, ⟨source, dice.requests.push (.weighted weights)⟩)

-- Settles the places from `last` down to the second: each takes the item of a place that is
-- not settled yet, its own included.
def settle : Nat → Array α → Roll σ (Array α)
  | 0, items => pure items
  | last + 1, items => do
    let chosen ← uniform (last + 2)
    settle last (items.swapIfInBounds (last + 1) chosen)

-- Puts items into a random order.
def shuffle (items : List α) : Roll σ (List α) := do
  return (← settle (items.length - 1) items.toArray).toList

end Roll

end StoryGrammar
