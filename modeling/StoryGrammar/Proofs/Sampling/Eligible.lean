import StoryGrammar.Proofs.Sampling.Bounds
import StoryGrammar.Proofs.Sampling.Cycle

namespace StoryGrammar

namespace Deck

variable {qualifies qualifies' : Nat → Bool} {deck : Deck}

theorem takeFirst?_congr (h : ∀ card ∈ deck, qualifies card = qualifies' card) :
    deck.takeFirst? qualifies = deck.takeFirst? qualifies' := by
  induction deck with
  | nil => rfl
  | cons card rest ih =>
      have hcard := h card (by simp)
      have hrest := ih fun other ho => h other (by simp [ho])
      simp only [takeFirst?, List.find?_cons, List.eraseP_cons, ← hcard] at hrest ⊢
      cases qualifies card with
      | true => rfl
      | false =>
          cases hq : rest.find? qualifies <;> cases hq' : rest.find? qualifies' <;> simp_all

theorem positions_congr (h : ∀ card ∈ deck, qualifies card = qualifies' card) :
    deck.positions qualifies = deck.positions qualifies' := by
  have hfilter : deck.zipIdx.filter (fun card => qualifies card.1) =
      deck.zipIdx.filter fun card => qualifies' card.1 :=
    List.filter_congr fun card hc => h card.1 (List.fst_mem_of_mem_zipIdx hc)
  rw [positions, positions, hfilter]

end Deck

namespace Sampler

variable {weights : List UInt32} {allowed allowed' : Nat → Bool} {indices : List Nat}

theorem indices_congr (h : ∀ index < weights.length, allowed index = allowed' index) :
    Sampler.indices allowed weights = Sampler.indices allowed' weights :=
  List.filter_congr fun index hi => h index (List.mem_range.mp hi)

theorem dealFrom_congr {deck : Deck} (h : ∀ card ∈ deck, allowed card = allowed' card) :
    dealFrom allowed deck = dealFrom allowed' deck := by
  rw [dealFrom, dealFrom, Deck.takeFirst?_congr h]

-- The weight that is offered in a place is the weight of the candidate in that place.
theorem getElem?_filterMap_weights (h : ∀ index ∈ indices, index < weights.length)
    (position : Nat) :
    (indices.filterMap (weights[·]?))[position]? = indices[position]?.bind (weights[·]?) := by
  induction indices generalizing position with
  | nil => simp
  | cons index indices ih =>
      have hlt : index < weights.length := h index (by simp)
      have hfirst : weights[index]? = some weights[index] := List.getElem?_eq_getElem hlt
      rw [List.filterMap_cons_some hfirst]
      cases position with
      | zero => simp
      | succ position => simpa using ih (fun other ho => h other (by simp [ho])) position

section

variable {σ : Type} [RandomSource σ] {sampler : Sampler}

-- All cards are candidates, so it is enough to agree about the candidates.
theorem congr_of_subperm (h : ∀ index < weights.length, allowed index = allowed' index) {deck : Deck}
    {policy : Distribution} (hd : deck.Subperm (Deck.full policy weights)) :
    ∀ card ∈ deck, allowed card = allowed' card :=
  fun card hc => h card (Deck.lt_of_mem_full (hd.subset hc))

theorem congr_of_perm (h : ∀ index < weights.length, allowed index = allowed' index) {order : Deck}
    (ho : order.Perm (Deck.ordered weights.length)) : ∀ card ∈ order, allowed card = allowed' card :=
  fun card hc => h card (List.mem_range.mp (ho.mem_iff.mp hc))

theorem dealThrough_congr (hf : sampler.Fits weights)
    (h : ∀ index < weights.length, allowed index = allowed' index) (dice : Dice σ) :
    (sampler.dealThrough weights.length allowed).run dice =
      (sampler.dealThrough weights.length allowed').run dice := by
  have horder : ∀ card ∈ ((sampler.currentOrder weights.length).run dice).1,
      allowed card = allowed' card := by
    unfold currentOrder
    split
    · exact congr_of_perm h (Deck.permuted_perm _ _ dice)
    · exact congr_of_perm h (Deck.permuted_perm _ _ dice)
    · rename_i deck _ hd
      exact congr_of_subperm h (hf deck hd).2
  simp only [dealThrough, Roll.run_bind, Deck.takeFirst?_congr horder]
  cases ((sampler.currentOrder weights.length).run dice).1.takeFirst? allowed' with
  | some taken => rfl
  | none =>
      simp only [Roll.run_bind,
        dealFrom_congr (congr_of_perm h (Deck.permuted_perm weights.length sampler.last _))]

-- Only what the mask says of the candidates counts, and of the cards in the deck.
theorem pick_congr (hf : sampler.Fits weights)
    (h : ∀ index < weights.length, allowed index = allowed' index) (dice : Dice σ) :
    (sampler.pick weights allowed).run dice = (sampler.pick weights allowed').run dice := by
  unfold pick
  cases hp : sampler.policy with
  | uniform => simp only [indices_congr h]
  | weighted => simp only [indices_congr h]
  | pop =>
      have hdeck : ∀ card ∈ sampler.deck.getD (Deck.ordered weights.length),
          allowed card = allowed' card := by
        cases hd : sampler.deck with
        | none => exact congr_of_perm h (.refl _)
        | some deck => exact congr_of_subperm h (hf deck hd).2
      simp only [popFrom, Deck.positions_congr hdeck]
  | shuffle => simp only [Roll.run_bind, dealThrough_congr hf h dice]
  | popWeighted =>
      cases hd : sampler.deck with
      | some deck =>
          have hdeck := congr_of_subperm h (hf deck hd).2
          simp only [Roll.run_bind, Roll.run_pure, dealFrom_congr hdeck]
      | none =>
          have hpool : ((Roll.shuffle (Deck.pool weights)).run dice).1.Subperm
              (Deck.full .popWeighted weights) := (Roll.shuffle_perm _ dice).subperm
          simp only [Roll.run_bind, Roll.run_pure, dealFrom_congr (congr_of_subperm h hpool)]

theorem allows_replicate {index : Nat} (h : index < weights.length) :
    allows none index = allows (some (List.replicate weights.length true)) index := by
  simp [allows, h]

-- A mask that marks every candidate is as good as none.
theorem draw_none_eq (hf : sampler.Fits weights) (dice : Dice σ) :
    (sampler.draw weights none).run dice =
      (sampler.draw weights (some (List.replicate weights.length true))).run dice := by
  rw [run_draw, run_draw, pick_congr hf (fun index hi => allows_replicate hi) dice]

-- A weight of zero comes up only where nothing else is offered.
theorem run_pickWeightedFrom_eq_zero [LawfulSource σ] {dice : Dice σ} {index : Nat}
    (hlt : ∀ index ∈ indices, index < weights.length)
    (h : ((pickWeightedFrom weights indices).run dice).1 = some index)
    (hz : weights[index]? = some 0) : ∀ other ∈ indices, weights[other]? = some 0 := by
  intro other ho
  by_contra hn
  rw [pickWeightedFrom, if_neg (by simpa using List.ne_nil_of_mem ho), Roll.run_bind] at h
  refine LawfulSource.pickWeighted_pos dice.source (indices.filterMap (weights[·]?)) ?_ ?_
  · have hother := List.getElem?_eq_getElem (hlt other ho)
    refine ⟨_, List.mem_filterMap.mpr ⟨other, ho, hother⟩, fun hw => hn ?_⟩
    rw [hother, hw]
  · rw [getElem?_filterMap_weights hlt]
    exact Option.bind_eq_some_iff.mpr ⟨index, h, hz⟩

omit [RandomSource σ] in
-- A new order holds all candidates.
theorem dealFrom_eq_none_iff {order : Deck} (ho : order.Perm (Deck.ordered weights.length)) :
    (dealFrom allowed order).1 = none ↔ ∀ index < weights.length, allowed index = false := by
  have hmem (index : Nat) : index ∈ order ↔ index < weights.length :=
    ho.mem_iff.trans List.mem_range
  rcases dealFrom_cases allowed order with ⟨hnone, he⟩ | ⟨card, rest, ha, hperm, he⟩
  · rw [he]
    exact ⟨fun _ index hi => hnone index ((hmem index).mpr hi), fun _ => rfl⟩
  · rw [he]
    refine ⟨nofun, fun hnone => ?_⟩
    rw [hnone card ((hmem card).mp (hperm.subset List.mem_cons_self))] at ha
    exact absurd ha Bool.false_ne_true

-- A shuffle deals anew before it gives up.
theorem draw_eq_none_iff_of_shuffle (hp : sampler.policy = .shuffle) (hf : sampler.Fits weights)
    (mask : Option (List Bool)) (dice : Dice σ) :
    ((sampler.draw weights mask).run dice).1.1 = none ↔
      ∀ index < weights.length, allows mask index = false := by
  have hpolicy : (⟨sampler, dice, []⟩ : Play σ).sampler.policy = .shuffle := hp
  have hshuffled := sampler.shuffled weights.length (allows mask) dice
  rw [(Play.run_draw_shuffle weights hpolicy mask).1]
  dsimp only
  generalize ((sampler.dealThrough weights.length (allows mask)).run dice).1 = drawn
    at hshuffled ⊢
  generalize sampler.deals weights.length (allows mask) dice = deals at hshuffled
  cases hshuffled with
  | @kept deck rest card hd htake =>
      obtain ⟨ha, -⟩ := Deck.exists_of_takeFirst? htake
      have hm : card ∈ deck := (Deck.perm_of_takeFirst? htake).subset List.mem_cons_self
      refine ⟨nofun, fun hnone => ?_⟩
      rw [hnone card (Deck.lt_of_mem_full ((hf deck hd).2.subset hm))] at ha
      exact absurd ha Bool.false_ne_true
  | dealt _ hd => exact dealFrom_eq_none_iff hd.perm
  | dealtTwice _ _ _ hd => exact dealFrom_eq_none_iff hd.perm

end

section

variable {σ : Type} [RandomSource σ] [RangedSource σ] {sampler : Sampler}
variable {mask : Option (List Bool)} {dice : Dice σ}

-- What is drawn may be drawn, in whatever state the sampler is.
theorem allows_of_draw {index : Nat}
    (h : ((sampler.draw weights mask).run dice).1.1 = some index) : allows mask index = true := by
  have hpicked := picked dice sampler weights (allows mask)
  rw [run_draw] at h
  dsimp only at h
  rw [h] at hpicked
  generalize ((sampler.pick weights (allows mask)).run dice).1.2 = deck at hpicked
  cases hpicked with
  | chosen _ _ ha => exact ha
  | taken _ _ ha _ => exact ha

-- With replacement, something is drawn wherever something may be.
theorem draw_eq_none_iff_of_replaces (hr : sampler.policy.replaces = true) :
    ((sampler.draw weights mask).run dice).1.1 = none ↔
      ∀ index < weights.length, allows mask index = false := by
  have hpicked := picked dice sampler weights (allows mask)
  rw [run_draw]
  dsimp only
  generalize (sampler.pick weights (allows mask)).run dice = result at hpicked ⊢
  obtain ⟨⟨answer, deck⟩, dice⟩ := result
  dsimp only at hpicked ⊢
  cases hpicked with
  | @chosen index _ hlt ha =>
      refine ⟨nofun, fun hnone => ?_⟩
      rw [hnone index hlt] at ha
      exact absurd ha Bool.false_ne_true
  | barred _ hnone => exact ⟨fun _ => hnone, fun _ => rfl⟩
  | taken hn _ _ _ => simp [hr] at hn
  | stuck hn _ _ => simp [hr] at hn

-- Without replacement, a draw takes a card of the deck in use, or of a new one before there is any.
-- It fails if none of the cards may be drawn, and then it leaves the deck alone.
theorem exists_deck_of_draw (hp : sampler.policy = .pop ∨ sampler.policy = .popWeighted)
    (weights : List UInt32) (mask : Option (List Bool)) (dice : Dice σ) :
    let drawn := ((sampler.draw weights mask).run dice).1
    ∃ deck, (sampler.deck = some deck ∨
        sampler.deck = none ∧ deck.Perm (Deck.full sampler.policy weights)) ∧
      (drawn.1 = none ↔ ∀ card ∈ deck, allows mask card = false) ∧
      (drawn.1 = none → drawn.2.deck = some deck) ∧
      ∀ card, drawn.1 = some card → ∃ rest, drawn.2.deck = some rest ∧ (card :: rest).Perm deck := by
  have hr : sampler.policy.replaces = false := by rcases hp with hp | hp <;> rw [hp] <;> rfl
  have hprovided {deck : Deck} (hd : sampler.Provides weights deck) : sampler.deck = some deck ∨
      sampler.deck = none ∧ deck.Perm (Deck.full sampler.policy weights) := by
    refine hd.imp id fun ⟨hperm, hd⟩ => ⟨hd.resolve_left fun hs => ?_, hperm⟩
    rcases hp with hp | hp <;> simp [hp] at hs
  have hpicked := picked dice sampler weights (allows mask)
  rw [run_draw]
  dsimp only
  generalize (sampler.pick weights (allows mask)).run dice = result at hpicked ⊢
  obtain ⟨⟨answer, left⟩, dice⟩ := result
  dsimp only at hpicked ⊢
  cases hpicked with
  | chosen hn _ _ => simp [hr] at hn
  | barred hn _ => simp [hr] at hn
  | @taken deck rest card _ hd ha hperm =>
      refine ⟨deck, hprovided hd, ⟨nofun, fun hnone => ?_⟩, nofun, ?_⟩
      · rw [hnone card (hperm.subset List.mem_cons_self)] at ha
        exact absurd ha Bool.false_ne_true
      · rintro _ ⟨⟩
        exact ⟨rest, rfl, hperm⟩
  | @stuck deck _ hd hnone =>
      exact ⟨deck, hprovided hd, ⟨fun _ => hnone, fun _ => rfl⟩, fun _ => rfl, nofun⟩

-- A candidate without weight has no card.
theorem weight_ne_zero_of_draw (hp : sampler.policy = .popWeighted) (hf : sampler.Fits weights)
    {index : Nat} (h : ((sampler.draw weights mask).run dice).1.1 = some index) :
    weights[index]? ≠ some 0 := by
  obtain ⟨deck, hd, -, -, htaken⟩ := exists_deck_of_draw (.inr hp) weights mask dice
  obtain ⟨rest, -, hperm⟩ := htaken index h
  have hfull : deck.Subperm (Deck.full sampler.policy weights) := by
    rcases hd with hd | ⟨-, hd⟩
    · exact (hf deck hd).2
    · exact hd.subperm
  have hcount : 0 < (Deck.full sampler.policy weights).count index :=
    List.count_pos_iff.mpr (hfull.subset (hperm.subset List.mem_cons_self))
  intro hz
  simp [Deck.count_full, hp, Deck.copies, hz] at hcount

end

end Sampler

namespace Play

variable {σ : Type} [RandomSource σ]

-- What a draw makes of its mask. The cards lie in the deck in use, or in a new one that is dealt in
-- the draw.
structure Heeds (policy : Distribution) (weights : List UInt32) (mask : Option (List Bool))
    (play : Play σ) : Prop where
  allowed : ∀ index, ((play.sampler.draw weights mask).run play.dice).1.1 = some index →
    index < weights.length ∧ Sampler.allows mask index = true
  finds : policy = .uniform ∨ policy = .weighted ∨ policy = .shuffle →
    (((play.sampler.draw weights mask).run play.dice).1.1 = none ↔
      ∀ index < weights.length, Sampler.allows mask index = false)
  takes : policy = .pop ∨ policy = .popWeighted →
    let drawn := ((play.sampler.draw weights mask).run play.dice).1
    ∃ deck, (play.sampler.deck = some deck ∨
        play.sampler.deck = none ∧ deck.Perm (Deck.full policy weights)) ∧
      (drawn.1 = none ↔ ∀ card ∈ deck, Sampler.allows mask card = false) ∧
      (drawn.1 = none → drawn.2.deck = some deck) ∧
      ∀ card, drawn.1 = some card → ∃ rest, drawn.2.deck = some rest ∧ (card :: rest).Perm deck
  weighs : policy = .weighted → ∀ index,
    ((play.sampler.draw weights mask).run play.dice).1.1 = some index → weights[index]? = some 0 →
    ∀ other < weights.length, Sampler.allows mask other = true → weights[other]? = some 0
  weighsCards : policy = .popWeighted → ∀ index,
    ((play.sampler.draw weights mask).run play.dice).1.1 = some index → weights[index]? ≠ some 0

-- Whatever is done with a sampler that was new, its deck is part of a full one.
theorem fits_after [RangedSource σ] (policy : Distribution) (weights : List UInt32) (dice : Dice σ)
    (moves : List Move) : ((fresh policy dice).after weights moves).sampler.Fits weights := by
  refine after_keeps (P := fun play => play.sampler.Fits weights) weights
    (fun play move h => ?_) _ moves (Sampler.fits_fresh policy)
  cases move with
  | reset => exact Sampler.fits_fresh _
  | draw mask => exact (h.draw mask play.dice).2

theorem heeds_after [LawfulSource σ] (policy : Distribution) (weights : List UInt32) (dice : Dice σ)
    (moves : List Move) (mask : Option (List Bool)) :
    ((fresh policy dice).after weights moves).Heeds policy weights mask := by
  have hf := fits_after policy weights dice moves
  have hp : ((fresh policy dice).after weights moves).sampler.policy = policy :=
    policy_after weights _ moves
  generalize (fresh policy dice).after weights moves = play at hf hp
  refine ⟨fun index hi => ⟨?_, Sampler.allows_of_draw hi⟩, ?_, ?_, ?_, ?_⟩
  · exact (hf.draw mask play.dice).1 index hi
  · rintro (rfl | rfl | rfl)
    · exact Sampler.draw_eq_none_iff_of_replaces (by rw [hp]; rfl)
    · exact Sampler.draw_eq_none_iff_of_replaces (by rw [hp]; rfl)
    · exact Sampler.draw_eq_none_iff_of_shuffle hp hf mask play.dice
  · intro hpolicy
    rw [← hp] at hpolicy ⊢
    exact Sampler.exists_deck_of_draw hpolicy weights mask play.dice
  · rintro rfl index hi hz other ho ha
    have hpick : ((Sampler.pickWeightedFrom weights
        (Sampler.indices (Sampler.allows mask) weights)).run play.dice).1 = some index := by
      rw [Sampler.run_draw, Sampler.pick, hp] at hi
      exact hi
    exact Sampler.run_pickWeightedFrom_eq_zero (fun _ hm => (Sampler.mem_indices.mp hm).1) hpick hz
      other (Sampler.mem_indices.mpr ⟨ho, ha⟩)
  · rintro rfl index hi
    exact Sampler.weight_ne_zero_of_draw hp hf hi

end Play

end StoryGrammar
