import StoryGrammar.Proofs.Sampling.Draw

namespace StoryGrammar

-- What holds of each question that has an answer, and of one roll after another, holds of all that
-- a sampler does.
structure RollRules {σ : Type} [RandomSource σ] (P : (α : Type) → Roll σ α → Prop) : Prop where
  pure {α : Type} (a : α) : P α (pure a)
  bind {α β : Type} {question : Roll σ α} {f : α → Roll σ β} :
    P α question → (∀ a, P β (f a)) → P β (question >>= f)
  uniform {count : Nat} : 0 < count → P Nat (Roll.uniform count)
  weighted {weights : List UInt32} : weights ≠ [] → P Nat (Roll.weighted weights)

namespace RollRules

variable {σ : Type} [RandomSource σ] {P : (α : Type) → Roll σ α → Prop} (rules : RollRules P)

include rules

theorem settle {α : Type} (last : Nat) (items : Array α) :
    P (Array α) (Roll.settle last items) := by
  induction last generalizing items with
  | zero => exact rules.pure items
  | succ last ih => exact rules.bind (rules.uniform (by omega)) fun _ => ih _

theorem shuffle {α : Type} (items : List α) : P (List α) (Roll.shuffle items) :=
  rules.bind (rules.settle _ _) fun _ => rules.pure _

theorem permuted (count : Nat) (last : Option Nat) : P Deck (Deck.permuted count last) :=
  rules.bind (rules.shuffle _) fun _ => rules.pure _

theorem pickFrom (indices : List Nat) : P (Option Nat) (Sampler.pickFrom indices) := by
  unfold Sampler.pickFrom
  split
  · exact rules.pure none
  · rename_i hne
    have hlength : 0 < indices.length := List.length_pos_iff.mpr (by simpa using hne)
    exact rules.bind (rules.uniform hlength) fun _ => rules.pure _

theorem pickWeightedFrom {weights : List UInt32} {indices : List Nat}
    (h : ∀ index ∈ indices, index < weights.length) :
    P (Option Nat) (Sampler.pickWeightedFrom weights indices) := by
  unfold Sampler.pickWeightedFrom
  split
  · exact rules.pure none
  · rename_i hne
    have hpool : indices.filterMap (weights[·]?) ≠ [] := by
      rw [← List.length_pos_iff, Sampler.length_filterMap_weights h]
      exact List.length_pos_iff.mpr (by simpa using hne)
    exact rules.bind (rules.weighted hpool) fun _ => rules.pure _

theorem popFrom (allowed : Nat → Bool) (deck : Deck) :
    P (Option Nat × Deck) (Sampler.popFrom allowed deck) := by
  refine rules.bind (rules.pickFrom _) fun position => ?_
  cases position with
  | none => exact rules.pure _
  | some position =>
      dsimp only
      cases deck.takeAt? position with
      | none => exact rules.pure _
      | some taken => exact rules.pure _

theorem dealThrough (sampler : Sampler) (count : Nat) (allowed : Nat → Bool) :
    P (Option Nat × Deck) (sampler.dealThrough count allowed) := by
  have horder : P Deck (sampler.currentOrder count) := by
    unfold Sampler.currentOrder
    match sampler.deck with
    | none | some [] => exact rules.permuted _ _
    | some (_ :: _) => exact rules.pure _
  refine rules.bind horder fun deck => ?_
  cases deck.takeFirst? allowed with
  | some taken => exact rules.pure _
  | none => exact rules.bind (rules.permuted _ _) fun _ => rules.pure _

theorem draw (sampler : Sampler) (weights : List UInt32) (mask : Option (List Bool)) :
    P (Option Nat × Sampler) (sampler.draw weights mask) := by
  have hpick : P (Option Nat × Option Deck) (sampler.pick weights (Sampler.allows mask)) := by
    unfold Sampler.pick
    cases sampler.policy with
    | uniform => exact rules.bind (rules.pickFrom _) fun _ => rules.pure _
    | weighted =>
        have hindices : ∀ index ∈ Sampler.indices (Sampler.allows mask) weights,
            index < weights.length := fun _ h => (Sampler.mem_indices.mp h).1
        exact rules.bind (rules.pickWeightedFrom hindices) fun _ => rules.pure _
    | pop => exact rules.bind (rules.popFrom _ _) fun _ => rules.pure _
    | shuffle => exact rules.bind (rules.dealThrough _ _ _) fun _ => rules.pure _
    | popWeighted =>
        cases sampler.deck with
        | some deck => exact rules.pure _
        | none => exact rules.bind (rules.shuffle _) fun _ => rules.pure _
  exact rules.bind hpick fun _ => rules.pure _

end RollRules

namespace Roll

variable {σ α : Type}

-- What the source has been asked before matters neither for the answer nor for what is asked next.
def Forgetful (question : Roll σ α) : Prop :=
  ∀ source requests, question.run ⟨source, requests⟩ =
    ((question.run ⟨source, #[]⟩).1, ⟨(question.run ⟨source, #[]⟩).2.source,
      requests ++ (question.run ⟨source, #[]⟩).2.requests⟩)

theorem Forgetful.run_eq {question : Roll σ α} (h : question.Forgetful) {dice dice' : Dice σ}
    (hs : dice'.source = dice.source) :
    (question.run dice').1 = (question.run dice).1 ∧
      (question.run dice').2.source = (question.run dice).2.source := by
  obtain ⟨source, requests⟩ := dice
  obtain ⟨source', requests'⟩ := dice'
  obtain rfl : source' = source := hs
  rw [h source' requests, h source' requests']
  exact ⟨rfl, rfl⟩

theorem forgetful_uniform [RandomSource σ] (count : Nat) :
    (uniform count : Roll σ Nat).Forgetful := by
  intro source requests
  simp [uniform, StateT.run]

theorem forgetful_rules [RandomSource σ] :
    RollRules (σ := σ) fun α question => Forgetful (α := α) question where
  pure a source requests := by
    simp only [run_pure, Array.append_empty]
  bind := by
    intro α β question f hq hf source requests
    simp only [run_bind]
    rw [hq source requests, hf _ _ (requests ++ _), hf _ _ ((question.run ⟨source, #[]⟩).2.requests),
      Array.append_assoc]
  uniform _ := forgetful_uniform _
  weighted _ source requests := by
    simp [weighted, StateT.run]

end Roll

end StoryGrammar
