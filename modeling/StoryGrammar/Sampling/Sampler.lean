import StoryGrammar.Random.Shuffle
import StoryGrammar.Sampling.Distribution

namespace StoryGrammar

-- The cards still to be dealt, the next one first. A card is the index of a candidate.
abbrev Deck := List Nat

namespace Deck

-- Each candidate once, in order.
def ordered (count : Nat) : Deck := List.range count

-- Each candidate as many times as its weight says.
def pool (weights : List UInt32) : Deck :=
  weights.zipIdx.flatMap fun (weight, index) => List.replicate weight.toNat index

def swapFirstTwo : Deck → Deck
  | first :: second :: rest => second :: first :: rest
  | deck => deck

section

variable {σ : Type} [RandomSource σ]

-- Each candidate once, in a random order that does not start with `last` if it can be helped.
def permuted (count : Nat) (last : Option Nat) : Roll σ Deck := do
  let deck ← Roll.shuffle (ordered count)
  return if 1 < count ∧ deck.head? = last then swapFirstTwo deck else deck

end

-- Takes out the first card that qualifies.
def takeFirst? (qualifies : Nat → Bool) (deck : Deck) : Option (Nat × Deck) :=
  (deck.find? qualifies).map fun card => (card, deck.eraseP qualifies)

-- Where the cards that qualify lie.
def positions (qualifies : Nat → Bool) (deck : Deck) : List Nat :=
  (deck.zipIdx.filter fun card => qualifies card.1).map Prod.snd

-- Takes out the card at a position.
def takeAt? (position : Nat) (deck : Deck) : Option (Nat × Deck) :=
  deck[position]?.map fun card => (card, deck.eraseIdx position)

end Deck

-- What a distribution remembers between draws. A deck is dealt by the first draw that needs it.
structure Sampler where
  policy : Distribution
  deck : Option Deck := none
  last : Option Nat := none
deriving DecidableEq, Repr

namespace Sampler

-- Puts every card back.
def reset (sampler : Sampler) : Sampler := { policy := sampler.policy }

-- The number of cards left, if a deck has been dealt.
def remaining (sampler : Sampler) : Option Nat := sampler.deck.map List.length

-- Without a mask every candidate is allowed; a mask allows those that it marks.
def allows (mask : Option (List Bool)) (index : Nat) : Bool :=
  mask.all fun marks => marks[index]? == some true

section

variable {σ : Type} [RandomSource σ]

def indices (allowed : Nat → Bool) (weights : List UInt32) : List Nat :=
  (List.range weights.length).filter allowed

def pickFrom (indices : List Nat) : Roll σ (Option Nat) :=
  if indices.isEmpty then pure none
  else do return indices[← Roll.uniform indices.length]?

def pickWeightedFrom (weights : List UInt32) (indices : List Nat) : Roll σ (Option Nat) :=
  if indices.isEmpty then pure none
  else do return indices[← Roll.weighted (indices.filterMap (weights[·]?))]?

-- One card, any of those that qualify, and the deck without it.
def popFrom (allowed : Nat → Bool) (deck : Deck) : Roll σ (Option Nat × Deck) := do
  match ← pickFrom (deck.positions allowed) with
  | none => return (none, deck)
  | some position =>
    match deck.takeAt? position with
    | none => return (none, deck)
    | some (card, rest) => return (some card, rest)

-- The first card that qualifies, and the deck without it.
def dealFrom (allowed : Nat → Bool) (deck : Deck) : Option Nat × Deck :=
  match deck.takeFirst? allowed with
  | none => (none, deck)
  | some (card, rest) => (some card, rest)

-- The deck in use, or a new one if there is none left.
def currentOrder (sampler : Sampler) (count : Nat) : Roll σ Deck :=
  match sampler.deck with
  | none | some [] => Deck.permuted count sampler.last
  | some deck => pure deck

-- When no card that is left qualifies, the cards are dealt anew.
def dealThrough (sampler : Sampler) (count : Nat) (allowed : Nat → Bool) :
    Roll σ (Option Nat × Deck) := do
  match (← sampler.currentOrder count).takeFirst? allowed with
  | some (card, rest) => return (some card, rest)
  | none => return dealFrom allowed (← Deck.permuted count sampler.last)

-- One draw, with the deck afterwards. There is one weight for each candidate.
def pick (sampler : Sampler) (weights : List UInt32) (allowed : Nat → Bool) :
    Roll σ (Option Nat × Option Deck) :=
  match sampler.policy with
  | .uniform => do return (← pickFrom (indices allowed weights), sampler.deck)
  | .weighted => do return (← pickWeightedFrom weights (indices allowed weights), sampler.deck)
  | .pop => do
    let (card, deck) ← popFrom allowed (sampler.deck.getD (Deck.ordered weights.length))
    return (card, some deck)
  | .shuffle => do
    let (card, deck) ← sampler.dealThrough weights.length allowed
    return (card, some deck)
  | .popWeighted => do
    let (card, deck) := dealFrom allowed (← match sampler.deck with
      | some deck => pure deck
      | none => Roll.shuffle (Deck.pool weights))
    return (card, some deck)

-- Draws the index of a candidate that the mask allows, if there is one to be had.
def draw (sampler : Sampler) (weights : List UInt32) (mask : Option (List Bool)) :
    Roll σ (Option Nat × Sampler) := do
  let (card, deck) ← sampler.pick weights (allows mask)
  return (card, ⟨sampler.policy, deck, card.or sampler.last⟩)

end

end Sampler

end StoryGrammar
