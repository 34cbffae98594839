import StoryGrammar.Proofs.Sampling.Draw

namespace StoryGrammar

-- A roll that stops at the first index that is out of range.
abbrev CheckedRoll (σ : Type) := OptionT (Roll σ)

namespace CheckedRoll

variable {σ α β : Type}

-- Something that has to be there.
def demand (found : Option α) : CheckedRoll σ α := OptionT.mk (pure found)

-- A roll in which no index is used.
def of (question : Roll σ α) : CheckedRoll σ α := OptionT.lift question

-- The roll comes to its end, with the answer of the roll that looks nothing up.
def Agrees (checked : CheckedRoll σ α) (question : Roll σ α) : Prop :=
  ∀ dice, checked.run.run dice = (some (question.run dice).1, (question.run dice).2)

variable [RandomSource σ]

-- The same, unless the source has answered out of range and the roll has stopped.
def Follows (checked : CheckedRoll σ α) (question : Roll σ α) : Prop :=
  ∀ dice, checked.run.run dice = (some (question.run dice).1, (question.run dice).2) ∨
    (checked.run.run dice).1 = none ∧ ¬RangedSource σ

theorem Follows.agrees [hr : RangedSource σ] {checked : CheckedRoll σ α} {question : Roll σ α}
    (h : Follows checked question) : Agrees checked question :=
  fun dice => (h dice).resolve_right fun hn => hn.2 hr

-- A roll that has not stopped has given the answer.
theorem Follows.run_eq {checked : CheckedRoll σ α} {question : Roll σ α}
    (h : Follows checked question) {dice next : Dice σ} {a : α}
    (hr : checked.run.run dice = (some a, next)) : question.run dice = (a, next) := by
  rcases h dice with he | ⟨hn, -⟩
  · obtain ⟨ha, hnext⟩ := Prod.mk.inj (he.symm.trans hr)
    exact Prod.ext (Option.some.inj ha) hnext
  · rw [hr] at hn
    cases hn

theorem follows_pure (a : α) : Follows (pure a : CheckedRoll σ α) (pure a) := fun _ => .inl rfl

theorem follows_of (question : Roll σ α) : Follows (of question) question := fun _ => .inl rfl

-- What has to be there is missing only if the source has answered out of range.
theorem follows_demand {found : Option α} {f : α → CheckedRoll σ β} {question : Roll σ β}
    (hs : ∀ a, found = some a → Follows (f a) question) (hn : found = none → ¬RangedSource σ) :
    Follows (demand found >>= f) question := by
  intro dice
  cases found with
  | none => exact .inr ⟨rfl, hn rfl⟩
  | some a => exact hs a rfl dice

-- Only the answers that can come up matter for what comes next.
theorem follows_bind {checked : CheckedRoll σ α} {question : Roll σ α} {f : α → CheckedRoll σ β}
    {g : α → Roll σ β} (h : Follows checked question)
    (hf : ∀ dice, Follows (f (question.run dice).1) (g (question.run dice).1)) :
    Follows (checked >>= f) (question >>= g) := by
  intro dice
  rw [Roll.run_bind]
  rcases h dice with he | ⟨hn, hr⟩
  · have hrun : (checked >>= f).run.run dice =
        (f (question.run dice).1).run.run (question.run dice).2 := by
      simp only [OptionT.run_bind, Option.elimM, Roll.run_bind, he, Option.elim]
    rw [hrun]
    exact hf dice (question.run dice).2
  · refine .inr ⟨?_, hr⟩
    simp only [OptionT.run_bind, Option.elimM, Roll.run_bind, hn, Option.elim]
    rfl

-- A part that asks nothing leaves only its answer behind.
theorem follows_then {checked : CheckedRoll σ α} {a : α} {f : α → CheckedRoll σ β}
    {question : Roll σ β} (h : Follows checked (pure a)) (hf : Follows (f a) question) :
    Follows (checked >>= f) question :=
  follows_bind (g := fun _ => question) h fun _ => hf

end CheckedRoll

open CheckedRoll

-- Exchanges two items, both of which have to be there.
def swap? {α : Type} (items : Array α) (i j : Nat) : Option (Array α) :=
  if h : i < items.size ∧ j < items.size then some (items.swap i j h.1 h.2) else none

theorem swap?_eq_none_iff {α : Type} {items : Array α} {i j : Nat} :
    swap? items i j = none ↔ ¬(i < items.size ∧ j < items.size) := by
  simp [swap?]

theorem eq_of_swap?_eq_some {α : Type} {items swapped : Array α} {i j : Nat}
    (h : swap? items i j = some swapped) : swapped = items.swapIfInBounds i j := by
  unfold swap? at h
  split at h
  · rename_i hb
    obtain ⟨hi, hj⟩ := hb
    simpa [Array.swapIfInBounds, hi, hj] using h.symm
  · cases h

namespace Roll

variable {σ α : Type} [RandomSource σ]

def settleChecked : Nat → Array α → CheckedRoll σ (Array α)
  | 0, items => pure items
  | last + 1, items => do
    let chosen ← of (uniform (last + 2))
    settleChecked last (← demand (swap? items (last + 1) chosen))

def shuffleChecked (items : List α) : CheckedRoll σ (List α) := do
  return (← settleChecked (items.length - 1) items.toArray).toList

-- Each place that is settled lies within the array, and so does the place it exchanges with, if the
-- source stays within the range.
theorem settleChecked_follows (last : Nat) (items : Array α) (h : last ≤ items.size - 1) :
    Follows (σ := σ) (settleChecked last items) (settle last items) := by
  induction last generalizing items with
  | zero => exact follows_pure items
  | succ last ih =>
      refine follows_bind (follows_of _) fun dice => ?_
      refine follows_demand (fun swapped hs => ?_) fun hn hr => ?_
      · obtain rfl := eq_of_swap?_eq_some hs
        refine ih _ ?_
        rw [Array.size_swapIfInBounds]
        omega
      · have hchosen : ((uniform (last + 2)).run dice).1 < last + 2 :=
          RangedSource.pickUniform_lt dice.source (last + 2) (by omega)
        exact swap?_eq_none_iff.mp hn ⟨by omega, by omega⟩

theorem shuffleChecked_follows (items : List α) :
    Follows (σ := σ) (shuffleChecked items) (shuffle items) :=
  follows_bind (settleChecked_follows _ _ (by simp)) fun _ => follows_pure _

end Roll

namespace Deck

variable {σ : Type} [RandomSource σ]

def swapFirstTwo? : Deck → Option Deck
  | first :: second :: rest => some (second :: first :: rest)
  | _ => none

def permutedChecked (count : Nat) (last : Option Nat) : CheckedRoll σ Deck := do
  let deck ← Roll.shuffleChecked (ordered count)
  if 1 < count ∧ deck.head? = last then demand (swapFirstTwo? deck) else return deck

theorem permutedChecked_follows (count : Nat) (last : Option Nat) :
    Follows (σ := σ) (permutedChecked count last) (permuted count last) := by
  refine follows_bind (Roll.shuffleChecked_follows _) fun dice => ?_
  have hlength : _ = count :=
    (Roll.shuffle_perm (ordered count) dice).length_eq.trans List.length_range
  split
  · rename_i hc
    generalize ((Roll.shuffle (ordered count)).run dice).1 = deck at hlength
    obtain ⟨first, second, behind, rfl⟩ := eq_cons_cons_of_one_lt (by omega : 1 < deck.length)
    exact follows_pure _
  · exact follows_pure _

end Deck

namespace Sampler

variable {σ : Type} [RandomSource σ]

-- The same draws, except that an index out of range ends them where the others pass it over.
section

def pickFromChecked (indices : List Nat) : CheckedRoll σ (Option Nat) :=
  if indices.isEmpty then pure none
  else do return some (← demand indices[← of (Roll.uniform indices.length)]?)

def pickWeightedFromChecked (weights : List UInt32) (indices : List Nat) :
    CheckedRoll σ (Option Nat) :=
  if indices.isEmpty then pure none
  else do
    let pool ← indices.mapM fun index => demand weights[index]?
    return some (← demand indices[← of (Roll.weighted pool)]?)

def popFromChecked (allowed : Nat → Bool) (deck : Deck) : CheckedRoll σ (Option Nat × Deck) := do
  match ← pickFromChecked (deck.positions allowed) with
  | none => return (none, deck)
  | some position =>
    let (card, rest) ← demand (deck.takeAt? position)
    return (some card, rest)

def currentOrderChecked (sampler : Sampler) (count : Nat) : CheckedRoll σ Deck :=
  match sampler.deck with
  | none | some [] => Deck.permutedChecked count sampler.last
  | some deck => pure deck

def dealThroughChecked (sampler : Sampler) (count : Nat) (allowed : Nat → Bool) :
    CheckedRoll σ (Option Nat × Deck) := do
  match (← sampler.currentOrderChecked count).takeFirst? allowed with
  | some (card, rest) => return (some card, rest)
  | none => return dealFrom allowed (← Deck.permutedChecked count sampler.last)

def pickChecked (sampler : Sampler) (weights : List UInt32) (allowed : Nat → Bool) :
    CheckedRoll σ (Option Nat × Option Deck) :=
  match sampler.policy with
  | .uniform => do return (← pickFromChecked (indices allowed weights), sampler.deck)
  | .weighted => do
    return (← pickWeightedFromChecked weights (indices allowed weights), sampler.deck)
  | .pop => do
    let (card, deck) ← popFromChecked allowed (sampler.deck.getD (Deck.ordered weights.length))
    return (card, some deck)
  | .shuffle => do
    let (card, deck) ← sampler.dealThroughChecked weights.length allowed
    return (card, some deck)
  | .popWeighted => do
    let (card, deck) := dealFrom allowed (← match sampler.deck with
      | some deck => pure deck
      | none => Roll.shuffleChecked (Deck.pool weights))
    return (card, some deck)

def drawChecked (sampler : Sampler) (weights : List UInt32) (mask : Option (List Bool)) :
    CheckedRoll σ (Option Nat × Sampler) := do
  let (card, deck) ← sampler.pickChecked weights (allows mask)
  return (card, ⟨sampler.policy, deck, card.or sampler.last⟩)

end

variable {weights : List UInt32}

theorem pickFromChecked_follows (indices : List Nat) :
    Follows (σ := σ) (pickFromChecked indices) (pickFrom indices) := by
  unfold pickFromChecked pickFrom
  split
  · exact follows_pure none
  · rename_i hne
    refine follows_bind (follows_of _) fun dice => ?_
    refine follows_demand (fun index hs => ?_) fun hn hr => ?_
    · rw [hs]
      exact follows_pure _
    · have hlt : ((Roll.uniform indices.length).run dice).1 < indices.length :=
        RangedSource.pickUniform_lt dice.source _ (List.length_pos_iff.mpr (by simpa using hne))
      have hle := List.getElem?_eq_none_iff.mp hn
      omega

theorem mapM_demand_follows {indices : List Nat} (h : ∀ index ∈ indices, index < weights.length) :
    Follows (σ := σ) (indices.mapM fun index => demand weights[index]?)
      (pure (indices.filterMap (weights[·]?))) := by
  induction indices with
  | nil => exact follows_pure []
  | cons index indices ih =>
      have hlt : index < weights.length := h index (by simp)
      have hfirst : weights[index]? = some weights[index] := List.getElem?_eq_getElem hlt
      rw [List.mapM_cons, List.filterMap_cons_some hfirst, hfirst]
      refine follows_then (follows_pure _) ?_
      exact follows_then (ih fun other ho => h other (by simp [ho])) (follows_pure _)

theorem pickWeightedFromChecked_follows {indices : List Nat}
    (h : ∀ index ∈ indices, index < weights.length) :
    Follows (σ := σ) (pickWeightedFromChecked weights indices)
      (pickWeightedFrom weights indices) := by
  unfold pickWeightedFromChecked pickWeightedFrom
  split
  · exact follows_pure none
  · rename_i hne
    have hlength := length_filterMap_weights h
    refine follows_then (mapM_demand_follows h) (follows_bind (follows_of _) fun dice => ?_)
    refine follows_demand (fun index hs => ?_) fun hn hr => ?_
    · rw [hs]
      exact follows_pure _
    · have hpool : indices.filterMap (weights[·]?) ≠ [] := by
        rw [← List.length_pos_iff, hlength]
        exact List.length_pos_iff.mpr (by simpa using hne)
      have hlt : ((Roll.weighted (indices.filterMap (weights[·]?))).run dice).1 < indices.length :=
        hlength ▸ RangedSource.pickWeighted_lt dice.source _ hpool
      have hle := List.getElem?_eq_none_iff.mp hn
      omega

theorem mem_of_run_pickFrom {indices : List Nat} {dice : Dice σ} {index : Nat}
    (h : ((pickFrom indices).run dice).1 = some index) : index ∈ indices := by
  unfold pickFrom at h
  split at h
  · cases h
  · exact List.mem_of_getElem? h

theorem popFromChecked_follows (allowed : Nat → Bool) (deck : Deck) :
    Follows (σ := σ) (popFromChecked allowed deck) (popFrom allowed deck) := by
  refine follows_bind (pickFromChecked_follows _) fun dice => ?_
  cases hpick : ((pickFrom (deck.positions allowed)).run dice).1 with
  | none => exact follows_pure _
  | some position =>
      obtain ⟨card, hget, -⟩ := Deck.mem_positions.mp (mem_of_run_pickFrom hpick)
      have htake : deck.takeAt? position = some (card, deck.eraseIdx position) := by
        rw [Deck.takeAt?, hget, Option.map_some]
      simp only [htake]
      exact follows_then (follows_pure _) (follows_pure _)

theorem dealThroughChecked_follows (sampler : Sampler) (count : Nat) (allowed : Nat → Bool) :
    Follows (σ := σ) (sampler.dealThroughChecked count allowed)
      (sampler.dealThrough count allowed) := by
  have horder : Follows (σ := σ) (sampler.currentOrderChecked count)
      (sampler.currentOrder count) := by
    unfold currentOrderChecked currentOrder
    match sampler.deck with
    | none | some [] => exact Deck.permutedChecked_follows _ _
    | some (_ :: _) => exact follows_pure _
  refine follows_bind horder fun dice => ?_
  cases ((sampler.currentOrder count).run dice).1.takeFirst? allowed with
  | some taken => exact follows_pure _
  | none => exact follows_bind (Deck.permutedChecked_follows _ _) fun _ => follows_pure _

-- Whatever the weights, the deck and the mask, a draw uses an index that is out of range only where
-- the source has answered out of range.
theorem drawChecked_follows (sampler : Sampler) (weights : List UInt32)
    (mask : Option (List Bool)) :
    Follows (σ := σ) (sampler.drawChecked weights mask) (sampler.draw weights mask) := by
  have hpick : Follows (σ := σ) (sampler.pickChecked weights (allows mask))
      (sampler.pick weights (allows mask)) := by
    unfold pickChecked pick
    cases sampler.policy with
    | uniform => exact follows_bind (pickFromChecked_follows _) fun _ => follows_pure _
    | weighted =>
        exact follows_bind (pickWeightedFromChecked_follows fun _ h => (mem_indices.mp h).1)
          fun _ => follows_pure _
    | pop => exact follows_bind (popFromChecked_follows _ _) fun _ => follows_pure _
    | shuffle => exact follows_bind (dealThroughChecked_follows _ _ _) fun _ => follows_pure _
    | popWeighted =>
        cases sampler.deck with
        | some deck => exact follows_pure _
        | none => exact follows_bind (Roll.shuffleChecked_follows _) fun _ => follows_pure _
  exact follows_bind hpick fun _ => follows_pure _

theorem drawChecked_agrees [RangedSource σ] (sampler : Sampler) (weights : List UInt32)
    (mask : Option (List Bool)) :
    Agrees (σ := σ) (sampler.drawChecked weights mask) (sampler.draw weights mask) :=
  (drawChecked_follows sampler weights mask).agrees

end Sampler

end StoryGrammar
