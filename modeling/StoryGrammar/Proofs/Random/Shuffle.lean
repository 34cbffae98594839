import Mathlib.Data.Set.Function
import Mathlib.Probability.Distributions.Uniform
import StoryGrammar.Proofs.Sampling.Rolls
import StoryGrammar.Random.Script

namespace StoryGrammar

-- What a source answers to a row of questions for one of so many, put one after the other.
def replies {σ : Type} [RandomSource σ] (source : σ) : List Nat → List Nat
  | [] => []
  | count :: counts =>
    let (index, next) := RandomSource.pickUniform source count
    index :: replies next counts

-- A row of answers, each in the range of its question.
abbrev InRange (answers counts : List Nat) : Prop := List.Forall₂ (· < ·) answers counts

theorem inRange_replies {σ : Type} [RandomSource σ] [RangedSource σ] (source : σ)
    {counts : List Nat} (h : ∀ count ∈ counts, 0 < count) :
    InRange (replies source counts) counts := by
  induction counts generalizing source with
  | nil => exact .nil
  | cons count counts ih =>
      obtain ⟨hcount, hrest⟩ := List.forall_mem_cons.mp h
      exact .cons (RangedSource.pickUniform_lt source count hcount) (ih _ hrest)

namespace Roll

-- The choices that settling asks for, the widest first.
def choices (last : Nat) : List Nat := (List.range' 2 last).reverse

theorem choices_succ (last : Nat) : choices (last + 1) = (last + 2) :: choices last := by
  simp [choices, List.range'_concat, Nat.add_comm]

theorem pos_of_mem_choices {last count : Nat} (h : count ∈ choices last) : 0 < count := by
  simp only [choices, List.mem_reverse, List.mem_range'_1] at h
  omega

variable {α : Type} {last : Nat} {items order : Array α}

-- What settling comes to if it gets these answers.
def settled (last : Nat) (items : Array α) (answers : List Nat) : Array α :=
  ((settle last items).run (⟨⟨answers⟩, #[]⟩ : Dice Script)).1

theorem settled_cons {chosen : Nat} (hc : chosen < last + 2) (answers : List Nat) :
    settled (last + 1) items (chosen :: answers) =
      settled last (items.swapIfInBounds (last + 1) chosen) answers := by
  have hfit : Script.fit chosen (last + 2) = chosen := by
    rw [Script.fit, if_neg (by omega), Nat.mod_eq_of_lt hc]
  have hstep : settled (last + 1) items (chosen :: answers) =
      ((settle last (items.swapIfInBounds (last + 1) (Script.fit chosen (last + 2)))).run
        (⟨⟨answers⟩, #[.uniform (last + 2)]⟩ : Dice Script)).1 := rfl
  rw [hstep, hfit, forgetful_rules.settle]
  rfl

section

variable {σ : Type} [RandomSource σ]

-- The choices are the same whatever the answers.
theorem requests_settle (last : Nat) (items : Array α) (dice : Dice σ) :
    ((settle last items).run dice).2.requests =
      dice.requests ++ ((choices last).map Request.uniform).toArray := by
  induction last generalizing items dice with
  | zero => exact Array.append_empty.symm
  | succ last ih =>
      rw [settle, run_bind, ih, choices_succ]
      simp [uniform, StateT.run]

-- The answers are all that matters about a source.
theorem settle_eq_settled [RangedSource σ] (last : Nat) (items : Array α) (dice : Dice σ) :
    ((settle last items).run dice).1 = settled last items (replies dice.source (choices last)) := by
  induction last generalizing items dice with
  | zero => rfl
  | succ last ih =>
      have hlt := RangedSource.pickUniform_lt dice.source (last + 2) (by omega)
      rw [settle, run_bind, ih, choices_succ, replies, settled_cons hlt]
      rfl

end

theorem settled_perm (last : Nat) (items : Array α) (answers : List Nat) :
    (settled last items answers).Perm items :=
  settle_perm last items _

-- In items that differ from each other a place is known by what is there.
theorem place_inj (hn : items.toList.Nodup) {place other : Nat} (hp : place < items.size)
    (h : items[place]? = items[other]?) : place = other := by
  rw [← Array.getElem?_toList, ← Array.getElem?_toList] at h
  exact (List.getElem?_inj hp hn).mp h

section

variable {i j : Nat} (hi : i < items.size) (hj : j < items.size)

include hi hj

theorem getElem?_swapIfInBounds (place : Nat) : (items.swapIfInBounds i j)[place]? =
    if j = place then items[i]? else if i = place then items[j]? else items[place]? := by
  have hswap : items.swapIfInBounds i j = items.swap i j hi hj := by
    simp [Array.swapIfInBounds, hi, hj]
  rw [hswap, Array.getElem?_swap, Array.getElem?_eq_getElem hi, Array.getElem?_eq_getElem hj]

theorem getElem?_swapIfInBounds_left : (items.swapIfInBounds i j)[i]? = items[j]? := by
  rw [getElem?_swapIfInBounds hi hj]
  split
  · rename_i hsame
    rw [hsame]
  · exact if_pos rfl

theorem getElem?_swapIfInBounds_of_lt {place : Nat} (hip : i < place) (hjp : j < place) :
    (items.swapIfInBounds i j)[place]? = items[place]? := by
  rw [getElem?_swapIfInBounds hi hj, if_neg (by omega), if_neg (by omega)]

end

-- The orders that items may still come into when only the places up to the last one are settled
-- anew.
def Reorders (last : Nat) (items : Array α) : Set (Array α) :=
  {order | order.Perm items ∧ ∀ place, last < place → order[place]? = items[place]?}

theorem mapsTo_settled (hl : last ≤ items.size - 1) :
    Set.MapsTo (settled last items) {answers | InRange answers (choices last)}
      (Reorders last items) := by
  refine fun answers ha => ⟨settled_perm last items answers, ?_⟩
  induction last generalizing items answers with
  | zero => exact fun _ _ => rfl
  | succ last ih =>
      intro place hp
      rw [choices_succ] at ha
      obtain ⟨chosen, rest, hc, hrest, rfl⟩ := List.forall₂_cons_right_iff.mp ha
      have hsize : last ≤ (items.swapIfInBounds (last + 1) chosen).size - 1 := by
        rw [Array.size_swapIfInBounds]
        omega
      rw [settled_cons hc, ih hsize rest hrest place (by omega)]
      exact getElem?_swapIfInBounds_of_lt (by omega) (by omega) (by omega) (by omega)

-- The first answer says what comes to the last place.
theorem getElem?_settled_last (hl : last + 1 ≤ items.size - 1) {chosen : Nat}
    (hc : chosen < last + 2) {answers : List Nat} (ha : InRange answers (choices last)) :
    (settled (last + 1) items (chosen :: answers))[last + 1]? = items[chosen]? := by
  have hsize : last ≤ (items.swapIfInBounds (last + 1) chosen).size - 1 := by
    rw [Array.size_swapIfInBounds]
    omega
  obtain ⟨-, hbehind⟩ := mapsTo_settled hsize ha
  rw [settled_cons hc, hbehind (last + 1) (by omega)]
  exact getElem?_swapIfInBounds_left (by omega) (by omega)

-- What comes to the last place tells which answer was given, and the others settle what is left.
theorem injOn_settled (hn : items.toList.Nodup) (hl : last ≤ items.size - 1) :
    Set.InjOn (settled last items) {answers | InRange answers (choices last)} := by
  intro answers ha others ho he
  induction last generalizing items answers others with
  | zero =>
      obtain rfl := List.forall₂_nil_right_iff.mp ha
      exact (List.forall₂_nil_right_iff.mp ho).symm
  | succ last ih =>
      rw [choices_succ] at ha ho
      obtain ⟨chosen, rest, hc, hrest, rfl⟩ := List.forall₂_cons_right_iff.mp ha
      obtain ⟨other, more, hother, hmore, rfl⟩ := List.forall₂_cons_right_iff.mp ho
      have hsource : items[chosen]? = items[other]? := by
        rw [← getElem?_settled_last hl hc hrest, ← getElem?_settled_last hl hother hmore, he]
      obtain rfl : chosen = other := place_inj hn (by omega) hsource
      rw [settled_cons hc, settled_cons hc] at he
      have hnodup : (items.swapIfInBounds (last + 1) chosen).toList.Nodup :=
        (swapIfInBounds_perm items _ _).toList.nodup_iff.mpr hn
      have hsize : last ≤ (items.swapIfInBounds (last + 1) chosen).size - 1 := by
        rw [Array.size_swapIfInBounds]
        omega
      rw [ih hnodup hsize hrest hmore he]

-- What comes to the last place is found in a place that has not been settled.
theorem exists_source (ho : order ∈ Reorders last items) (hn : items.toList.Nodup)
    (hl : last < items.size) : ∃ chosen ≤ last, items[chosen]? = order[last]? := by
  obtain ⟨hperm, hbehind⟩ := ho
  have hlast : last < order.size := by rwa [hperm.size_eq]
  have hmem : order[last] ∈ items := hperm.mem_iff.mp (Array.getElem_mem hlast)
  obtain ⟨chosen, hchosen⟩ := Array.mem_iff_getElem?.mp hmem
  rw [← Array.getElem?_eq_getElem hlast] at hchosen
  refine ⟨chosen, ?_, hchosen⟩
  by_contra hlt
  have hsame : order[last]? = order[chosen]? := by rw [hbehind chosen (by omega), hchosen]
  have hnodup : order.toList.Nodup := hperm.toList.nodup_iff.mpr hn
  have := place_inj hnodup hlast hsame
  omega

theorem surjOn_settled (hn : items.toList.Nodup) (hl : last ≤ items.size - 1) :
    Set.SurjOn (settled last items) {answers | InRange answers (choices last)}
      (Reorders last items) := by
  intro order ho
  induction last generalizing items with
  | zero =>
      refine ⟨[], List.forall₂_nil_right_iff.mpr rfl, ?_⟩
      change items = order
      refine Array.ext_getElem? fun place => ?_
      rcases Nat.eq_zero_or_pos place with rfl | hp
      · by_cases hempty : items.size = 0
        · have hsize : order.size = 0 := ho.1.size_eq.trans hempty
          rw [Array.getElem?_eq_none (by omega), Array.getElem?_eq_none (by omega)]
        · obtain ⟨chosen, hc, hsource⟩ := exists_source ho hn (by omega)
          obtain rfl : chosen = 0 := by omega
          exact hsource
      · exact (ho.2 place hp).symm
  | succ last ih =>
      obtain ⟨chosen, hc, hsource⟩ := exists_source ho hn (by omega)
      have hnodup : (items.swapIfInBounds (last + 1) chosen).toList.Nodup :=
        (swapIfInBounds_perm items _ _).toList.nodup_iff.mpr hn
      have hsize : last ≤ (items.swapIfInBounds (last + 1) chosen).size - 1 := by
        rw [Array.size_swapIfInBounds]
        omega
      have hrest : order ∈ Reorders last (items.swapIfInBounds (last + 1) chosen) := by
        refine ⟨ho.1.trans (swapIfInBounds_perm items _ _).symm, fun place hp => ?_⟩
        by_cases hlast : place = last + 1
        · subst hlast
          rw [← hsource, getElem?_swapIfInBounds_left (by omega) (by omega)]
        · rw [getElem?_swapIfInBounds_of_lt (by omega) (by omega) (by omega) (by omega)]
          exact ho.2 place (by omega)
      obtain ⟨answers, ha, rfl⟩ := ih hnodup hsize hrest
      refine ⟨chosen :: answers, ?_, settled_cons (by omega) answers⟩
      rw [choices_succ]
      exact .cons (by omega) ha

theorem prod_choices (last : Nat) : (choices last).prod = (last + 1).factorial := by
  induction last with
  | zero => rfl
  | succ last ih => rw [choices_succ, List.prod_cons, ih, Nat.factorial_succ (last + 1)]

end Roll

section Chance

-- One answer, with every index in range as likely as any other.
noncomputable def fairAnswer (count : Nat) : PMF Nat :=
  if h : 0 < count then
    PMF.uniformOfFinset (Finset.range count) (Finset.nonempty_range_iff.mpr (by omega))
  else PMF.pure 0

-- A row of such answers, none of which depends on another.
noncomputable def fairAnswers : List Nat → PMF (List Nat)
  | [] => PMF.pure []
  | count :: counts =>
    (fairAnswer count).bind fun index => (fairAnswers counts).map (index :: ·)

theorem fairAnswer_apply {count : Nat} (h : 0 < count) (index : Nat) :
    fairAnswer count index = if index < count then (count : ENNReal)⁻¹ else 0 := by
  rw [fairAnswer, dif_pos h, PMF.uniformOfFinset_apply]
  simp

-- What comes about in one way only is as likely as that.
theorem map_apply_of_unique {α β : Type} (chances : PMF α) (f : α → β) (a : α)
    (h : ∀ other, f other = f a → other ≠ a → chances other = 0) :
    (chances.map f) (f a) = chances a := by
  rw [PMF.map_apply, tsum_eq_single a, if_pos rfl]
  intro other ho
  split
  · rename_i hsame
    exact h other hsame.symm ho
  · rfl

theorem map_cons_apply (chances : PMF (List Nat)) (index first : Nat) (rest : List Nat) :
    (chances.map (index :: ·)) (first :: rest) = if index = first then chances rest else 0 := by
  by_cases h : index = first
  · subst h
    rw [if_pos rfl]
    exact map_apply_of_unique chances (index :: ·) rest fun other hs ho =>
      absurd (List.cons.inj hs).2 ho
  · rw [if_neg h, PMF.map_apply]
    exact ENNReal.tsum_eq_zero.mpr fun other => if_neg (by simp [Ne.symm h])

theorem fairAnswers_cons (count first : Nat) (counts rest : List Nat) :
    fairAnswers (count :: counts) (first :: rest) =
      fairAnswer count first * fairAnswers counts rest := by
  rw [fairAnswers, PMF.bind_apply]
  simp only [map_cons_apply]
  rw [tsum_eq_single first (fun other ho => by rw [if_neg ho, mul_zero]), if_pos rfl]

-- All rows of answers that are in range are equally likely.
theorem fairAnswers_of_inRange {answers counts : List Nat} (h : InRange answers counts) :
    fairAnswers counts answers = (counts.prod : ENNReal)⁻¹ := by
  induction h with
  | nil => simp [fairAnswers]
  | @cons first count rest counts hfirst _ ih =>
      rw [fairAnswers_cons, ih, fairAnswer_apply (by omega), if_pos hfirst, List.prod_cons,
        Nat.cast_mul]
      exact (ENNReal.mul_inv (.inr (ENNReal.natCast_ne_top _)) (.inl (ENNReal.natCast_ne_top _))).symm

theorem fairAnswers_of_not_inRange {answers counts : List Nat} (hc : ∀ count ∈ counts, 0 < count)
    (h : ¬InRange answers counts) : fairAnswers counts answers = 0 := by
  induction counts generalizing answers with
  | nil =>
      have hne : answers ≠ [] := by
        rintro rfl
        exact h .nil
      simp [fairAnswers, hne]
  | cons count counts ih =>
      obtain ⟨hcount, hcounts⟩ := List.forall_mem_cons.mp hc
      cases answers with
      | nil =>
          rw [fairAnswers, PMF.bind_apply]
          refine ENNReal.tsum_eq_zero.mpr fun index => ?_
          have hnone : ((fairAnswers counts).map (index :: ·)) [] = 0 := by
            rw [PMF.map_apply]
            exact ENNReal.tsum_eq_zero.mpr fun other => if_neg (by simp)
          rw [hnone, mul_zero]
      | cons first rest =>
          rw [fairAnswers_cons]
          by_cases hf : first < count
          · rw [ih hcounts fun hr => h (.cons hf hr), mul_zero]
          · rw [fairAnswer_apply hcount, if_neg hf, zero_mul]

end Chance

namespace Roll

variable {α : Type}

-- The order that items come into if the choices are made like this.
def arrange (items : List α) (answers : List Nat) : List α :=
  ((shuffle items).run (⟨⟨answers⟩, #[]⟩ : Dice Script)).1

theorem arrange_eq (items : List α) (answers : List Nat) :
    arrange items answers = (settled (items.length - 1) items.toArray answers).toList := rfl

-- Each order of the items comes from one row of answers, and from no other.
theorem bijOn_arrange {items : List α} (hn : items.Nodup) :
    Set.BijOn (arrange items) {answers | InRange answers (choices (items.length - 1))}
      {order | order.Perm items} := by
  have hl : items.length - 1 ≤ items.toArray.size - 1 := Nat.le_refl _
  have hreorder {order : List α} (ho : order.Perm items) :
      order.toArray ∈ Reorders (items.length - 1) items.toArray := by
    refine ⟨Array.perm_iff_toList_perm.mpr ho, fun place hp => ?_⟩
    have hlength := ho.length_eq
    simp only [List.getElem?_toArray]
    rw [List.getElem?_eq_none (by omega), List.getElem?_eq_none (by omega)]
  refine ⟨fun answers _ => shuffle_perm items _, ?_, ?_⟩
  · intro answers ha others ho he
    exact injOn_settled hn hl ha ho (Array.toList_inj.mp he)
  · intro order ho
    obtain ⟨answers, ha, he⟩ := surjOn_settled hn hl (hreorder ho)
    exact ⟨answers, ha, by rw [arrange_eq, he]⟩

-- Shuffling n items asks for one of n, of n - 1 and so on down to one of 2, and for nothing else,
-- and gives the items in some order. Each order comes from one row of answers and from no other.
-- So all orders are equally likely if the answers are, and do not depend on each other.
theorem shuffle_unbiased (items : List α) (hn : items.Nodup) :
    let asked := (List.range' 2 (items.length - 1)).reverse
    (∀ (σ : Type) [RandomSource σ] [RangedSource σ] (dice : Dice σ),
      let shuffled := (shuffle items).run dice
      shuffled.2.requests = dice.requests ++ (asked.map Request.uniform).toArray ∧
      shuffled.1.Perm items ∧ InRange (replies dice.source asked) asked ∧
      shuffled.1 = arrange items (replies dice.source asked)) ∧
    Set.BijOn (arrange items) {answers | InRange answers asked} {order | order.Perm items} ∧
    ∀ order, order.Perm items →
      ((fairAnswers asked).map (arrange items)) order = (items.length.factorial : ENNReal)⁻¹ := by
  intro asked
  have hbij := bijOn_arrange hn
  refine ⟨fun σ _ _ dice => ⟨?_, shuffle_perm items dice, ?_, ?_⟩, hbij, fun order ho => ?_⟩
  · exact requests_settle (items.length - 1) items.toArray dice
  · exact inRange_replies dice.source fun count hc => pos_of_mem_choices hc
  · exact congrArg Array.toList (settle_eq_settled (items.length - 1) items.toArray dice)
  · obtain ⟨answers, ha, rfl⟩ := hbij.surjOn ho
    have honly (other : List Nat) (hs : arrange items other = arrange items answers)
        (hne : other ≠ answers) : fairAnswers asked other = 0 :=
      fairAnswers_of_not_inRange (fun count hc => pos_of_mem_choices hc) fun hr =>
        hne (hbij.injOn hr ha hs)
    have hprod : asked.prod = items.length.factorial := by
      have hlast : asked.prod = (items.length - 1 + 1).factorial := prod_choices _
      rw [hlast]
      cases items <;> rfl
    rw [map_apply_of_unique _ _ _ honly, ← hprod]
    exact fairAnswers_of_inRange ha

theorem shuffle_unbiased_three_cards :
    ["ace", "king", "queen"].Nodup ∧
    arrange ["ace", "king", "queen"] [0, 1] = ["queen", "king", "ace"] ∧
    ∀ order, order.Perm ["ace", "king", "queen"] →
      ((fairAnswers [3, 2]).map (arrange ["ace", "king", "queen"])) order = (6 : ENNReal)⁻¹ := by
  have hn : ["ace", "king", "queen"].Nodup := by decide
  obtain ⟨-, -, hfair⟩ := shuffle_unbiased _ hn
  exact ⟨hn, by decide, fun order ho => hfair order ho⟩

end Roll

end StoryGrammar
