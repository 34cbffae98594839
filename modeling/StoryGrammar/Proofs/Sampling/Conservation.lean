import StoryGrammar.Proofs.Sampling.Draw
import StoryGrammar.Random.Script

namespace StoryGrammar

namespace Deck

-- How often a card lies in a full deck.
def copies (policy : Distribution) (weights : List UInt32) (card : Nat) : Nat :=
  match policy with
  | .popWeighted => (weights[card]?.map UInt32.toNat).getD 0
  | _ => if card < weights.length then 1 else 0

def total (policy : Distribution) (weights : List UInt32) : Nat :=
  match policy with
  | .popWeighted => totalWeight weights
  | _ => weights.length

-- The indices are counted from `first` on, so that the rest of the weights can be spoken of.
def poolFrom (first : Nat) (weights : List UInt32) : Deck :=
  (weights.zipIdx first).flatMap fun (weight, index) => List.replicate weight.toNat index

theorem poolFrom_cons (first : Nat) (weight : UInt32) (rest : List UInt32) :
    poolFrom first (weight :: rest) =
      List.replicate weight.toNat first ++ poolFrom (first + 1) rest := rfl

theorem count_poolFrom (first : Nat) (weights : List UInt32) (card : Nat) :
    (poolFrom first weights).count card =
      if first ≤ card then (weights[card - first]?.map UInt32.toNat).getD 0 else 0 := by
  induction weights generalizing first with
  | nil => simp [poolFrom]
  | cons weight rest ih =>
      rw [poolFrom_cons, List.count_append, List.count_replicate, ih]
      rcases Nat.lt_trichotomy card first with hlt | rfl | hgt
      · simp [show first ≠ card by omega, show ¬first ≤ card by omega,
          show ¬first + 1 ≤ card by omega]
      · simp [show ¬card + 1 ≤ card by omega]
      · obtain ⟨more, rfl⟩ := Nat.exists_eq_add_of_lt hgt
        have hmore : first + more + 1 - first = more + 1 := by omega
        have hrest : first + more + 1 - (first + 1) = more := by omega
        simp [hmore, hrest, show first ≠ first + more + 1 by omega,
          show first ≤ first + more + 1 by omega]

theorem length_poolFrom (first : Nat) (weights : List UInt32) :
    (poolFrom first weights).length = totalWeight weights := by
  induction weights generalizing first with
  | nil => rfl
  | cons weight rest ih =>
      rw [poolFrom_cons, List.length_append, List.length_replicate, ih]
      rfl

theorem count_full (policy : Distribution) (weights : List UInt32) (card : Nat) :
    (full policy weights).count card = copies policy weights card := by
  cases policy with
  | popWeighted =>
      change (poolFrom 0 weights).count card = _
      simp [count_poolFrom, copies]
  | uniform | weighted | pop | shuffle => exact List.count_range

theorem length_full (policy : Distribution) (weights : List UInt32) :
    (full policy weights).length = total policy weights := by
  cases policy with
  | popWeighted => exact length_poolFrom 0 weights
  | uniform | weighted | pop | shuffle => exact List.length_range

end Deck

namespace Sampler

variable {σ : Type} [RandomSource σ] [RangedSource σ]

-- A deck that has been dealt and that cannot serve a draw is left alone, without a choice.
theorem draw_eq_of_none {sampler : Sampler} {weights : List UInt32} {mask : Option (List Bool)}
    {dice : Dice σ} {deck : Deck} (hp : sampler.policy = .pop ∨ sampler.policy = .popWeighted)
    (hd : sampler.deck = some deck)
    (h : ((sampler.draw weights mask).run dice).1.1 = none) :
    (sampler.draw weights mask).run dice = ((none, sampler), dice) := by
  obtain ⟨policy, deck', last⟩ := sampler
  obtain rfl : deck' = some deck := hd
  rcases hp with rfl | rfl
  · rcases run_popFrom dice (allows mask) deck with ⟨-, he⟩ | ⟨card, rest, -, -, he⟩
    · simp only [run_draw, pick, Roll.run_bind, Roll.run_pure, Option.getD_some, he, Option.none_or]
    · simp only [run_draw, pick, Roll.run_bind, Roll.run_pure, Option.getD_some, he] at h
      exact absurd h (Option.some_ne_none card)
  · rcases dealFrom_cases (allows mask) deck with ⟨-, he⟩ | ⟨card, rest, -, -, he⟩
    · simp only [run_draw, pick, Roll.run_bind, Roll.run_pure, he, Option.none_or]
    · simp only [run_draw, pick, Roll.run_bind, Roll.run_pure, he] at h
      exact absurd h (Option.some_ne_none card)

end Sampler

namespace Play

variable {σ : Type} [RandomSource σ]

-- No card is lost or doubled: what has been drawn since the reset and what is left in the deck
-- make up a full deck, as soon as there is a deck.
structure Conserved (policy : Distribution) (weights : List UInt32) (play : Play σ) : Prop where
  same_policy : play.sampler.policy = policy
  undealt : play.answers = [] → play.sampler.deck = none
  dealt : play.answers ≠ [] → ∃ deck, play.sampler.deck = some deck ∧
    (deck ++ play.given).Perm (Deck.full policy weights)

section

variable {policy : Distribution} {weights : List UInt32} {play : Play σ}

omit [RandomSource σ] in
theorem Conserved.provided (h : play.Conserved policy weights) (hs : policy ≠ .shuffle) {deck : Deck}
    (hd : play.sampler.Provides weights deck) :
    (deck ++ play.given).Perm (Deck.full policy weights) := by
  have hpolicy := h.same_policy
  rcases hd with hd | ⟨hperm, hd⟩
  · have hne : play.answers ≠ [] := fun he => by simp [h.undealt he] at hd
    obtain ⟨own, ho, hperm⟩ := h.dealt hne
    rw [hd] at ho
    exact Option.some.inj ho ▸ hperm
  · have hnone : play.sampler.deck = none := hd.resolve_left (by rw [hpolicy]; exact hs)
    have hempty : play.answers = [] := by
      by_contra hne
      obtain ⟨own, ho, -⟩ := h.dealt hne
      simp [hnone] at ho
    rw [hpolicy] at hperm
    simpa [given, hempty] using hperm

variable [RangedSource σ]

-- A draw moves one card from the deck to those that have been given, or none.
theorem Conserved.move (h : play.Conserved policy weights) (hr : policy.replaces = false)
    (hs : policy ≠ .shuffle) (move : Move) : (play.move weights move).Conserved policy weights := by
  have hpolicy := h.same_policy
  cases move with
  | reset => exact ⟨hpolicy, fun _ => rfl, fun hne => absurd rfl hne⟩
  | draw mask =>
      have hpicked := Sampler.picked play.dice play.sampler weights (Sampler.allows mask)
      rw [move_draw]
      refine ⟨hpolicy, fun he => by simp at he, fun _ => ?_⟩
      simp only [given_append]
      generalize (play.sampler.pick weights (Sampler.allows mask)).run play.dice = result
        at hpicked ⊢
      obtain ⟨⟨answer, deck⟩, dice⟩ := result
      dsimp only at hpicked ⊢
      cases hpicked with
      | chosen hreplaces _ _ => simp [hpolicy, hr] at hreplaces
      | barred hreplaces _ => simp [hpolicy, hr] at hreplaces
      | @taken deck rest card _ hd _ hperm =>
          have hmoved : (rest ++ (play.given ++ [card])).Perm (card :: rest ++ play.given) := by
            rw [← List.append_assoc]
            exact List.perm_append_singleton card (rest ++ play.given)
          exact ⟨rest, rfl, hmoved.trans ((hperm.append_right _).trans (h.provided hs hd))⟩
      | @stuck deck _ hd _ =>
          refine ⟨deck, rfl, ?_⟩
          simpa using h.provided hs hd

end

theorem conserved_after {policy : Distribution} (hp : policy = .pop ∨ policy = .popWeighted)
    [RangedSource σ] (weights : List UInt32) (dice : Dice σ) (moves : List Move) :
    ((fresh policy dice).after weights moves).Conserved policy weights := by
  have hr : policy.replaces = false := by rcases hp with rfl | rfl <;> rfl
  have hs : policy ≠ .shuffle := by rcases hp with rfl | rfl <;> decide
  exact after_keeps weights (fun play move h => h.move hr hs move) _ moves
    ⟨rfl, fun _ => rfl, fun hne => absurd rfl hne⟩

-- However the eligible candidates change from draw to draw, the cards that are left and the
-- indices that have been given since the last reset are together what a full deck is made of. A
-- draw that comes to nothing, once the cards have been dealt, costs no choice and no card.
theorem deck_conserved [RangedSource σ] (policy : Distribution)
    (hp : policy = .pop ∨ policy = .popWeighted) (weights : List UInt32) (dice : Dice σ)
    (moves : List Move) :
    let play := (fresh policy dice).after weights moves
    (play.answers ≠ [] → ∃ deck, play.sampler.deck = some deck ∧
      (∀ card, (deck ++ play.given).count card = Deck.copies policy weights card) ∧
      play.given.length ≤ Deck.total policy weights ∧
      play.sampler.remaining = some (Deck.total policy weights - play.given.length)) ∧
    ∀ mask deck, play.sampler.deck = some deck →
      ((play.sampler.draw weights mask).run play.dice).1.1 = none →
      (play.sampler.draw weights mask).run play.dice = ((none, play.sampler), play.dice) := by
  intro play
  have h : play.Conserved policy weights := conserved_after hp weights dice moves
  constructor
  · intro hne
    obtain ⟨deck, hd, hperm⟩ := h.dealt hne
    have hlength := hperm.length_eq
    rw [List.length_append, Deck.length_full] at hlength
    refine ⟨deck, hd, fun card => ?_, by omega, ?_⟩
    · rw [hperm.count_eq, Deck.count_full]
    · rw [Sampler.remaining, hd, Option.map_some]
      congr 1
      omega
  · intro mask deck hd hnone
    exact Sampler.draw_eq_of_none (by rw [h.same_policy]; exact hp) hd hnone

-- A pool in which the first candidate lies twice and the second one not at all.
def pooled : Play Script :=
  (fresh .popWeighted ⟨⟨[1, 0]⟩, #[]⟩).after [2, 0, 1]
    [.draw none, .reset, .draw (some [false, true, false]), .draw (some [false, true, true])]

theorem deck_conserved_pooled :
    (Distribution.popWeighted = .pop ∨ Distribution.popWeighted = .popWeighted) ∧
      pooled.answers = [none, some 2] ∧ ∃ deck, pooled.sampler.deck = some deck ∧
        (∀ card, (deck ++ pooled.given).count card =
          Deck.copies .popWeighted [2, 0, 1] card) ∧ pooled.sampler.remaining = some 2 := by
  have hanswers : pooled.answers = [none, some 2] := by decide +kernel
  have hne : pooled.answers ≠ [] := by simp [hanswers]
  obtain ⟨deck, hd, hcount, -, hremaining⟩ :=
    (deck_conserved .popWeighted (.inr rfl) [2, 0, 1] (⟨⟨[1, 0]⟩, #[]⟩ : Dice Script)
      [.draw none, .reset, .draw (some [false, true, false]),
        .draw (some [false, true, true])]).1 hne
  exact ⟨.inr rfl, hanswers, deck, hd, hcount, hremaining.trans (by decide +kernel)⟩

end Play

end StoryGrammar
