import StoryGrammar.Proofs.Sampling.Conservation
import StoryGrammar.Proofs.Sampling.Rolls

namespace StoryGrammar

-- A question to which there is an answer.
def Request.IsProper : Request → Prop
  | .uniform count => 0 < count
  | .weighted weights => weights ≠ []

namespace Roll

variable {σ α : Type}

-- No question of the roll lacks an answer.
def IsProper (question : Roll σ α) : Prop :=
  ∀ dice, (∀ request ∈ dice.requests, request.IsProper) →
    ∀ request ∈ (question.run dice).2.requests, request.IsProper

theorem isProper_rules [RandomSource σ] :
    RollRules (σ := σ) fun α question => IsProper (α := α) question where
  pure _ _ h := h
  bind h hf dice hd := hf _ _ (h dice hd)
  uniform := by
    intro count hc dice hd request hr
    rcases Array.mem_push.mp hr with hr | rfl
    · exact hd request hr
    · exact hc
  weighted := by
    intro weights hw dice hd request hr
    rcases Array.mem_push.mp hr with hr | rfl
    · exact hd request hr
    · exact hw

end Roll

theorem Deck.lt_of_mem_full {policy : Distribution} {weights : List UInt32} {card : Nat}
    (h : card ∈ full policy weights) : card < weights.length := by
  have hcount := List.count_pos_iff.mpr h
  rw [count_full] at hcount
  cases policy with
  | popWeighted =>
      by_contra hn
      simp [copies, List.getElem?_eq_none (Nat.le_of_not_lt hn)] at hcount
  | uniform | weighted | pop | shuffle =>
      by_contra hn
      simp [copies, hn] at hcount

namespace Sampler

variable {weights : List UInt32}

-- The deck in use is what is left of a full one. Only draws without replacement use a deck.
def Fits (weights : List UInt32) (sampler : Sampler) : Prop :=
  ∀ deck, sampler.deck = some deck →
    sampler.policy.replaces = false ∧ deck.Subperm (Deck.full sampler.policy weights)

theorem fits_fresh (policy : Distribution) : Fits weights { policy } := by
  intro deck hd
  cases hd

section

variable {σ : Type} [RandomSource σ]

-- A draw asks the source only where there is something to choose from.
theorem isProper_draw (sampler : Sampler) (weights : List UInt32) (mask : Option (List Bool)) :
    (sampler.draw weights mask : Roll σ _).IsProper :=
  Roll.isProper_rules.draw sampler weights mask

variable [RangedSource σ] {sampler : Sampler}

-- A draw gives the index of a candidate, and it leaves a deck that is part of a full one.
theorem Fits.draw (h : sampler.Fits weights) (mask : Option (List Bool)) (dice : Dice σ) :
    (∀ index, ((sampler.draw weights mask).run dice).1.1 = some index → index < weights.length) ∧
      ((sampler.draw weights mask).run dice).1.2.Fits weights := by
  have hprovided {deck : Deck} (hd : sampler.Provides weights deck) :
      deck.Subperm (Deck.full sampler.policy weights) := by
    rcases hd with hd | ⟨hperm, -⟩
    · exact (h deck hd).2
    · exact hperm.subperm
  have hpicked := picked dice sampler weights (allows mask)
  rw [run_draw]
  generalize (sampler.pick weights (allows mask)).run dice = result at hpicked ⊢
  obtain ⟨⟨answer, deck⟩, dice⟩ := result
  dsimp only at hpicked ⊢
  cases hpicked with
  | chosen _ hlt _ => exact ⟨by simpa using hlt, fun deck hd => h deck hd⟩
  | barred _ _ => exact ⟨by simp, fun deck hd => h deck hd⟩
  | @taken deck rest card hr hd _ hperm =>
      have hfull := hprovided hd
      constructor
      · rintro index hi
        obtain rfl := Option.some.inj hi
        exact Deck.lt_of_mem_full (hfull.subset (hperm.subset List.mem_cons_self))
      · rintro left hl
        obtain rfl := Option.some.inj hl
        exact ⟨hr, ((List.sublist_cons_self card rest).subperm.trans hperm.subperm).trans hfull⟩
  | stuck hr hd _ =>
      refine ⟨by simp, fun left hl => ?_⟩
      obtain rfl := Option.some.inj hl
      exact ⟨hr, hprovided hd⟩

-- Where no deck is in use, a draw fails only if nothing may be drawn. A candidate that may be drawn
-- is missing from a full deck only if it has no weight.
theorem weight_eq_zero_of_draw_eq_none {mask : Option (List Bool)} {dice : Dice σ}
    (hd : sampler.deck = none) (h : ((sampler.draw weights mask).run dice).1.1 = none) {index : Nat}
    (hi : index < weights.length) (ha : allows mask index = true) :
    sampler.policy = .popWeighted ∧ weights[index]? = some 0 := by
  have hpicked := picked dice sampler weights (allows mask)
  rw [run_draw] at h
  dsimp only at h
  rw [h] at hpicked
  generalize ((sampler.pick weights (allows mask)).run dice).1.2 = deck at hpicked
  cases hpicked with
  | barred _ hnone => simp [hnone index hi] at ha
  | @stuck deck _ hp hnone =>
      have hperm : deck.Perm (Deck.full sampler.policy weights) := by
        rcases hp with hp | ⟨hperm, -⟩
        · simp [hd] at hp
        · exact hperm
      have hout : index ∉ Deck.full sampler.policy weights := by
        intro hm
        simp [hnone index (hperm.mem_iff.mpr hm)] at ha
      have hcopies := List.count_eq_zero.mpr hout
      rw [Deck.count_full] at hcopies
      cases hpolicy : sampler.policy with
      | popWeighted =>
          rw [hpolicy, Deck.copies, List.getElem?_eq_getElem hi] at hcopies
          refine ⟨rfl, ?_⟩
          rw [List.getElem?_eq_getElem hi]
          exact congrArg some (UInt32.toNat_inj.mp hcopies)
      | uniform | weighted | pop | shuffle =>
          simp [hpolicy, Deck.copies, hi] at hcopies

end

end Sampler

end StoryGrammar
