import StoryGrammar.Proofs.Sampling.Draw
import StoryGrammar.Random.Script

namespace StoryGrammar

namespace Sampler

variable {σ : Type} [RandomSource σ]

-- The deck in use, with the number of times that the cards are dealt to come by it.
def currentOrderCounted (sampler : Sampler) (count : Nat) : Roll σ (Deck × Nat) :=
  match sampler.deck with
  | none | some [] => do return (← Deck.permuted count sampler.last, 1)
  | some deck => return (deck, 0)

-- A draw through a shuffle that counts how often the cards are dealt in it.
def dealThroughCounted (sampler : Sampler) (count : Nat) (allowed : Nat → Bool) :
    Roll σ ((Option Nat × Deck) × Nat) := do
  let (order, deals) ← sampler.currentOrderCounted count
  match order.takeFirst? allowed with
  | some (card, rest) => return ((some card, rest), deals)
  | none => return (dealFrom allowed (← Deck.permuted count sampler.last), deals + 1)

-- How often the cards are dealt in a draw.
def deals (sampler : Sampler) (count : Nat) (allowed : Nat → Bool) (dice : Dice σ) : Nat :=
  ((sampler.dealThroughCounted count allowed).run dice).1.2

theorem run_currentOrder_eq (sampler : Sampler) (count : Nat) (dice : Dice σ) :
    (sampler.currentOrder count).run dice =
      (((sampler.currentOrderCounted count).run dice).1.1,
        ((sampler.currentOrderCounted count).run dice).2) := by
  obtain ⟨policy, deck, last⟩ := sampler
  rcases deck with _ | _ | ⟨card, rest⟩ <;> rfl

-- Counting changes nothing about the draw.
theorem run_dealThrough_eq (sampler : Sampler) (count : Nat) (allowed : Nat → Bool)
    (dice : Dice σ) :
    (sampler.dealThrough count allowed).run dice =
      (((sampler.dealThroughCounted count allowed).run dice).1.1,
        ((sampler.dealThroughCounted count allowed).run dice).2) := by
  rw [dealThrough, dealThroughCounted, Roll.run_bind, Roll.run_bind, run_currentOrder_eq]
  dsimp only
  cases Deck.takeFirst? allowed ((sampler.currentOrderCounted count).run dice).1.1 <;> rfl

-- What a deal leads to: each card once, and not the one in front that was given last.
structure Dealt (count : Nat) (last : Option Nat) (order : Deck) : Prop where
  perm : order.Perm (Deck.ordered count)
  head : 1 < count → ∀ card, last = some card → order.head? ≠ some card

theorem dealt_permuted (count : Nat) (last : Option Nat) (dice : Dice σ) :
    Dealt count last ((Deck.permuted count last).run dice).1 :=
  ⟨Deck.permuted_perm count last dice, Deck.head?_permuted_ne count last dice⟩

-- All that a draw through a shuffle can do, with the number of deals: take a card of the deck in
-- use, deal because none of them qualifies, or deal twice because the deck is used up and none of
-- all the cards qualifies.
inductive Shuffled (sampler : Sampler) (count : Nat) (allowed : Nat → Bool) :
    Option Nat × Deck → Nat → Prop
  | kept {deck rest : Deck} {card : Nat} : sampler.deck = some deck →
      deck.takeFirst? allowed = some (card, rest) → Shuffled sampler count allowed (some card, rest) 0
  | dealt {order : Deck} :
      (∀ deck, sampler.deck = some deck → ∀ card ∈ deck, allowed card = false) →
      Dealt count sampler.last order → Shuffled sampler count allowed (dealFrom allowed order) 1
  | dealtTwice {first second : Deck} : (∀ deck, sampler.deck = some deck → deck = []) →
      Dealt count sampler.last first → (∀ card ∈ first, allowed card = false) →
      Dealt count sampler.last second → Shuffled sampler count allowed (dealFrom allowed second) 2

theorem shuffled (sampler : Sampler) (count : Nat) (allowed : Nat → Bool) (dice : Dice σ) :
    sampler.Shuffled count allowed ((sampler.dealThrough count allowed).run dice).1
      (sampler.deals count allowed dice) := by
  rw [run_dealThrough_eq, deals, dealThroughCounted, Roll.run_bind]
  by_cases hused : ∀ deck, sampler.deck = some deck → deck = []
  · have hrun : (sampler.currentOrderCounted count).run dice =
        ((((Deck.permuted count sampler.last).run dice).1, 1),
          ((Deck.permuted count sampler.last).run dice).2) := by
      unfold currentOrderCounted
      split
      · rfl
      · rfl
      · rename_i deck hne hdeck
        exact absurd (hused deck hdeck) hne
    have hfirst := dealt_permuted count sampler.last dice
    rw [hrun]
    dsimp only
    cases htake : ((Deck.permuted count sampler.last).run dice).1.takeFirst? allowed with
    | some taken =>
        have hdealt : sampler.Shuffled count allowed (dealFrom allowed _) 1 :=
          .dealt (fun deck hd card hc => by simp [hused deck hd] at hc) hfirst
        simp only [dealFrom, htake] at hdealt
        exact hdealt
    | none =>
        exact .dealtTwice hused hfirst (Deck.takeFirst?_eq_none_iff.mp htake) (dealt_permuted _ _ _)
  · simp only [not_forall] at hused
    obtain ⟨deck, hdeck, hne⟩ := hused
    have hrun : (sampler.currentOrderCounted count).run dice = ((deck, 0), dice) := by
      unfold currentOrderCounted
      split
      · simp_all
      · simp_all
      · rename_i other _ hother
        rw [hdeck] at hother
        rw [Option.some.inj hother]
        rfl
    rw [hrun]
    dsimp only
    cases htake : deck.takeFirst? allowed with
    | some taken => exact .kept hdeck htake
    | none =>
        refine .dealt (fun other ho => ?_) (dealt_permuted _ _ _)
        rw [hdeck] at ho
        exact Option.some.inj ho ▸ Deck.takeFirst?_eq_none_iff.mp htake

end Sampler

-- A list with one more item behind it is split at that item, or where the list itself is.
theorem split_of_snoc {α : Type} {items before after : List α} {last item : α}
    (h : items ++ [last] = before ++ item :: after) :
    (items = before ∧ last = item) ∨ ∃ more, items = before ++ item :: more := by
  rcases List.eq_nil_or_concat after with rfl | ⟨more, final, rfl⟩
  · obtain ⟨rfl, hlast⟩ := List.append_inj' h rfl
    exact .inl ⟨rfl, List.singleton_inj.mp hlast⟩
  · have hsplit : items ++ [last] = (before ++ item :: more) ++ [final] := by simpa using h
    obtain ⟨rfl, -⟩ := List.append_inj' hsplit rfl
    exact .inr ⟨more, rfl⟩

-- What happens to a shuffled deck: the cards are dealt, in a draw with a mask, or one is given.
inductive Happening where
  | dealt (mask : Option (List Bool))
  | gave (index : Nat)
deriving DecidableEq, Repr

namespace Happening

def given? : Happening → Option Nat
  | .gave index => some index
  | .dealt _ => none

-- The indices that have been given since the cards were last dealt.
def sinceDeal (told : List Happening) : List Nat :=
  told.foldl (fun given next =>
    match next with
    | .dealt _ => []
    | .gave index => given ++ [index]) []

@[simp] theorem sinceDeal_dealt (told : List Happening) (mask : Option (List Bool)) :
    sinceDeal (told ++ [.dealt mask]) = [] := by
  simp [sinceDeal]

@[simp] theorem sinceDeal_gave (told : List Happening) (index : Nat) :
    sinceDeal (told ++ [.gave index]) = sinceDeal told ++ [index] := by
  simp [sinceDeal]

-- When something may happen: no index is given twice without a deal in between, and the cards are
-- not dealt again before all that are eligible have been given.
def Due (count : Nat) (before : List Happening) : Happening → Prop
  | .dealt mask => (∃ earlier, .dealt earlier ∈ before) →
      ∀ index < count, Sampler.allows mask index = true → index ∈ sinceDeal before
  | .gave index => index ∉ sinceDeal before

def Fair (count : Nat) (told : List Happening) : Prop :=
  ∀ before next after, told = before ++ next :: after → Due count before next

theorem fair_nil (count : Nat) : Fair count [] := by
  intro before next after h
  simp at h

theorem Fair.snoc {count : Nat} {told : List Happening} {last : Happening} (h : Fair count told)
    (hl : Due count told last) : Fair count (told ++ [last]) := by
  intro before next after he
  rcases split_of_snoc he with ⟨rfl, rfl⟩ | ⟨more, rfl⟩
  · exact hl
  · exact h before next more rfl

-- The cards of a shuffled deck, with the card that was given last and all that has happened to it.
structure InCycle (count : Nat) (deck : Option Deck) (last : Option Nat) (told : List Happening) :
    Prop where
  fair : Fair count told
  undealt : deck = none → told = []
  complete : ∀ cards, deck = some cards → (cards ++ sinceDeal told).Perm (Deck.ordered count)
  apart : 1 < count → ∀ cards card, deck = some cards → last = some card →
    cards.head? ≠ some card

section

variable {count : Nat} {last : Option Nat} {told : List Happening}

theorem InCycle.deal {deck : Option Deck} (h : InCycle count deck last told)
    (mask : Option (List Bool)) {order : Deck}
    (hused : ∀ cards, deck = some cards → ∀ card ∈ cards, Sampler.allows mask card = false)
    (hd : Sampler.Dealt count last order) :
    InCycle count (some order) last (told ++ [.dealt mask]) where
  fair := by
    refine h.fair.snoc ?_
    rintro ⟨earlier, hm⟩ index hi ha
    cases deck with
    | none => simp [h.undealt rfl] at hm
    | some cards =>
        have hall : index ∈ cards ++ sinceDeal told :=
          (h.complete cards rfl).mem_iff.mpr (List.mem_range.mpr hi)
        refine (List.mem_append.mp hall).resolve_left fun hc => ?_
        rw [hused cards rfl index hc] at ha
        exact Bool.false_ne_true ha
  undealt := nofun
  complete := by
    rintro cards ⟨⟩
    rw [sinceDeal_dealt, List.append_nil]
    exact hd.perm
  apart := by
    rintro hc cards card ⟨⟩ hl
    exact hd.head hc card hl

theorem InCycle.give {cards rest : Deck} {card : Nat} (h : InCycle count (some cards) last told)
    (hp : (card :: rest).Perm cards) :
    InCycle count (some rest) (some card) (told ++ [.gave card]) := by
  have hall := h.complete cards rfl
  have hmoved : (card :: (rest ++ sinceDeal told)).Perm (Deck.ordered count) :=
    (hp.append_right _).trans hall
  have hnew : card ∉ rest ++ sinceDeal told :=
    (List.nodup_cons.mp (hmoved.nodup_iff.mpr List.nodup_range)).1
  refine ⟨h.fair.snoc fun hm => hnew (by simp [hm]), nofun, ?_, ?_⟩
  · rintro _ ⟨⟩
    rw [sinceDeal_gave, ← List.append_assoc]
    exact (List.perm_append_singleton card _).trans hmoved
  · rintro - _ _ ⟨⟩ ⟨⟩ hh
    exact hnew (by simp [List.mem_of_mem_head? hh])

-- Dealing from a deck gives a card of it or leaves it alone.
theorem InCycle.dealFrom {cards : Deck} (h : InCycle count (some cards) last told)
    (allowed : Nat → Bool) :
    InCycle count (some (Sampler.dealFrom allowed cards).2)
      ((Sampler.dealFrom allowed cards).1.or last)
      (told ++ ((Sampler.dealFrom allowed cards).1.map .gave).toList) := by
  rcases Sampler.dealFrom_cases allowed cards with ⟨-, he⟩ | ⟨card, rest, -, hp, he⟩
  · rw [he]
    simpa using h
  · rw [he]
    exact h.give hp

end

end Happening

namespace Play

variable {σ : Type} [RandomSource σ] (weights : List UInt32)

-- What happens to the deck in a draw.
def happenings (play : Play σ) (mask : Option (List Bool)) : List Happening :=
  List.replicate (play.sampler.deals weights.length (Sampler.allows mask) play.dice) (.dealt mask) ++
    (((play.sampler.draw weights mask).run play.dice).1.1.map .gave).toList

-- What happens to the deck in a run of draws.
def story (play : Play σ) : List (Option (List Bool)) → List Happening
  | [] => []
  | mask :: masks => play.happenings weights mask ++ (play.move weights (.draw mask)).story masks

section

variable {weights} {play : Play σ} {told : List Happening}

variable (weights) in
theorem run_draw_shuffle (hp : play.sampler.policy = .shuffle) (mask : Option (List Bool)) :
    ((play.sampler.draw weights mask).run play.dice).1.1 =
        ((play.sampler.dealThrough weights.length (Sampler.allows mask)).run play.dice).1.1 ∧
      (play.move weights (.draw mask)).sampler.deck = some
        ((play.sampler.dealThrough weights.length (Sampler.allows mask)).run play.dice).1.2 := by
  obtain ⟨⟨policy, deck, last⟩, dice, answers⟩ := play
  obtain rfl : policy = .shuffle := hp
  exact ⟨rfl, rfl⟩

theorem inCycle_move (hp : play.sampler.policy = .shuffle)
    (h : Happening.InCycle weights.length play.sampler.deck play.sampler.last told)
    (mask : Option (List Bool)) :
    Happening.InCycle weights.length (play.move weights (.draw mask)).sampler.deck
      (play.move weights (.draw mask)).sampler.last (told ++ play.happenings weights mask) := by
  obtain ⟨hanswer, hdeck⟩ := run_draw_shuffle weights hp mask
  have hlast : (play.move weights (.draw mask)).sampler.last =
      ((play.sampler.draw weights mask).run play.dice).1.1.or play.sampler.last := rfl
  have hshuffled := play.sampler.shuffled weights.length (Sampler.allows mask) play.dice
  rw [hlast, hdeck, happenings, hanswer, ← List.append_assoc]
  generalize ((play.sampler.dealThrough weights.length (Sampler.allows mask)).run play.dice).1 = drawn
    at hshuffled ⊢
  generalize play.sampler.deals weights.length (Sampler.allows mask) play.dice = deals
    at hshuffled ⊢
  cases hshuffled with
  | kept hd htake =>
      rw [hd] at h
      simpa using h.give (Deck.perm_of_takeFirst? htake)
  | dealt hused hd =>
      have hdeal := h.deal mask hused hd
      exact hdeal.dealFrom _
  | dealtTwice hused hf hbarred hd =>
      have hfirst := h.deal mask (fun cards hc card hm => by simp [hused cards hc] at hm) hf
      have hsecond := hfirst.deal mask (by rintro cards ⟨⟩; exact hbarred) hd
      have htold : told ++ List.replicate 2 (.dealt mask) = told ++ [.dealt mask] ++ [.dealt mask] := by
        simp [List.replicate]
      rw [htold]
      exact hsecond.dealFrom _

theorem inCycle_story (hp : play.sampler.policy = .shuffle)
    (h : Happening.InCycle weights.length play.sampler.deck play.sampler.last told)
    (masks : List (Option (List Bool))) :
    Happening.InCycle weights.length (play.after weights (masks.map .draw)).sampler.deck
      (play.after weights (masks.map .draw)).sampler.last (told ++ play.story weights masks) := by
  induction masks generalizing play told with
  | nil =>
      rw [story, List.append_nil]
      exact h
  | cons mask masks ih =>
      have hpolicy : (play.move weights (.draw mask)).sampler.policy = .shuffle := hp
      rw [story, ← List.append_assoc]
      exact ih hpolicy (inCycle_move hp h mask)

end

theorem inCycle_fresh (dice : Dice σ) (masks : List (Option (List Bool))) :
    Happening.InCycle weights.length
      ((fresh .shuffle dice).after weights (masks.map .draw)).sampler.deck
      ((fresh .shuffle dice).after weights (masks.map .draw)).sampler.last
      ((fresh .shuffle dice).story weights masks) := by
  have hstart : Happening.InCycle weights.length (fresh .shuffle dice : Play σ).sampler.deck
      (fresh .shuffle dice : Play σ).sampler.last [] :=
    ⟨Happening.fair_nil _, fun _ => rfl, nofun, fun _ => nofun⟩
  simpa using inCycle_story rfl hstart masks

-- The story tells of the indices that the draws have given.
theorem given_story (play : Play σ) (masks : List (Option (List Bool))) :
    (play.after weights (masks.map .draw)).given =
      play.given ++ (play.story weights masks).filterMap Happening.given? := by
  induction masks generalizing play with
  | nil =>
      rw [story, List.filterMap_nil, List.append_nil]
      rfl
  | cons mask masks ih =>
      have hdeals (deals : Nat) :
          (List.replicate deals (Happening.dealt mask)).filterMap Happening.given? = [] := by
        simp [Happening.given?]
      have hgave (answer : Option Nat) :
          (answer.map Happening.gave).toList.filterMap Happening.given? = answer.toList := by
        cases answer <;> rfl
      rw [List.map_cons, after_cons, ih, story, happenings, List.filterMap_append,
        List.filterMap_append, hdeals, hgave, List.nil_append, ← List.append_assoc]
      congr 1
      rw [move_draw, given_append]
      rfl

section

variable {weights} {play : Play σ}

-- Without a mask the cards are given in the order in which they lie.
theorem deal_out (weights : List UInt32) (play : Play σ) {cards : Deck}
    (hp : play.sampler.policy = .shuffle)
    (hd : play.sampler.deck = some cards) :
    (play.after weights (List.replicate cards.length (.draw none))).answers =
        play.answers ++ cards.map some ∧
      (play.after weights (List.replicate cards.length (.draw none))).sampler.deck = some [] := by
  induction cards generalizing play with
  | nil => exact ⟨by simp [after], hd⟩
  | cons card rest ih =>
      obtain ⟨⟨policy, deck, last⟩, dice, answers⟩ := play
      obtain rfl : policy = .shuffle := hp
      obtain rfl : deck = some (card :: rest) := hd
      obtain ⟨hanswers, hdeck⟩ := ih ⟨⟨.shuffle, some rest, some card⟩, dice,
        answers ++ [some card]⟩ rfl rfl
      refine ⟨?_, hdeck⟩
      have hmap : answers ++ (card :: rest).map some = (answers ++ [some card]) ++ rest.map some := by
        simp
      exact hanswers.trans hmap.symm

theorem move_of_used_up (hp : play.sampler.policy = .shuffle)
    (hd : ∀ deck, play.sampler.deck = some deck → deck = []) {card : Nat} {rest : Deck}
    (ho : ((Deck.permuted weights.length play.sampler.last).run play.dice).1 = card :: rest) :
    (play.move weights (.draw none)).answers = play.answers ++ [some card] ∧
      (play.move weights (.draw none)).sampler.deck = some rest := by
  obtain ⟨⟨policy, deck, last⟩, dice, answers⟩ := play
  obtain rfl : policy = .shuffle := hp
  have hrun : (Sampler.dealThrough ⟨.shuffle, deck, last⟩ weights.length (Sampler.allows none)).run
      dice = ((some card, rest), ((Deck.permuted weights.length last).run dice).2) := by
    have horder : (Sampler.currentOrder ⟨.shuffle, deck, last⟩ weights.length : Roll σ Deck) =
        Deck.permuted weights.length last := by
      rcases deck with _ | _ | ⟨first, more⟩
      · rfl
      · rfl
      · simp at hd
    rw [Sampler.dealThrough, horder, Roll.run_bind, ho]
    rfl
  constructor
  · rw [move_draw]
    simp only [Sampler.pick, Roll.run_bind, hrun]
    rfl
  · rw [move_draw]
    simp only [Sampler.pick, Roll.run_bind, hrun]
    rfl

-- From a deck that is used up, as many draws as there are cards give each card once and use the
-- deck up again.
theorem deal_round (weights : List UInt32) (hp : play.sampler.policy = .shuffle)
    (hd : ∀ deck, play.sampler.deck = some deck → deck = []) :
    ∃ order : Deck, order.Perm (Deck.ordered weights.length) ∧
      (play.after weights (List.replicate weights.length (.draw none))).answers =
        play.answers ++ order.map some ∧
      ∀ deck, (play.after weights (List.replicate weights.length (.draw none))).sampler.deck =
        some deck → deck = [] := by
  have hperm := Deck.permuted_perm weights.length play.sampler.last play.dice
  have hlength : ((Deck.permuted weights.length play.sampler.last).run play.dice).1.length =
      weights.length := by
    rw [hperm.length_eq, Deck.ordered, List.length_range]
  refine ⟨_, hperm, ?_⟩
  cases ho : ((Deck.permuted weights.length play.sampler.last).run play.dice).1 with
  | nil =>
      rw [ho, List.length_nil] at hlength
      rw [← hlength]
      exact ⟨by simp [after], hd⟩
  | cons card rest =>
      obtain ⟨hanswers, hdeck⟩ := move_of_used_up hp hd ho
      obtain ⟨hmore, hleft⟩ := deal_out weights (play.move weights (.draw none)) hp hdeck
      rw [ho, List.length_cons] at hlength
      rw [← hlength, List.replicate_succ, after_cons, hmore, hanswers, hleft]
      exact ⟨by simp, by rintro deck ⟨⟩; rfl⟩

theorem deal_rounds (weights : List UInt32) (dice : Dice σ) (rounds : Nat) :
    ((fresh .shuffle dice).after weights
        (List.replicate (rounds * weights.length) (.draw none))).answers.length =
        rounds * weights.length ∧
      ∀ deck, ((fresh .shuffle dice).after weights
        (List.replicate (rounds * weights.length) (.draw none))).sampler.deck = some deck →
        deck = [] := by
  induction rounds with
  | zero => exact ⟨by simp [after, fresh], by simp [after, fresh]⟩
  | succ rounds ih =>
      obtain ⟨order, hperm, hanswers, hdeck⟩ := deal_round weights
        (policy_after weights (fresh .shuffle dice) _) ih.2
      rw [Nat.succ_mul, List.replicate_add, after_append]
      refine ⟨?_, hdeck⟩
      rw [hanswers, List.length_append, ih.1, List.length_map, hperm.length_eq, Deck.ordered,
        List.length_range]

-- With a choice of cards, a draw without a mask gives another one than the draw before it.
theorem draw_ne_last {told : List Happening} (hp : play.sampler.policy = .shuffle)
    (h : Happening.InCycle weights.length play.sampler.deck play.sampler.last told)
    (hc : 2 ≤ weights.length) :
    ∃ index, ((play.sampler.draw weights none).run play.dice).1.1 = some index ∧
      play.sampler.last ≠ some index := by
  have hall (card : Nat) : Sampler.allows none card = true := rfl
  have hdealt {order : Deck} (hd : Sampler.Dealt weights.length play.sampler.last order) :
      ∃ index, (Sampler.dealFrom (Sampler.allows none) order).1 = some index ∧
        play.sampler.last ≠ some index := by
    cases order with
    | nil =>
        have hlength := hd.perm.length_eq
        simp only [Deck.ordered, List.length_nil, List.length_range] at hlength
        omega
    | cons card rest => exact ⟨card, rfl, fun hl => hd.head (by omega) card hl rfl⟩
  have hshuffled := play.sampler.shuffled weights.length (Sampler.allows none) play.dice
  rw [(run_draw_shuffle weights hp none).1]
  generalize ((play.sampler.dealThrough weights.length (Sampler.allows none)).run play.dice).1 = drawn
    at hshuffled ⊢
  generalize play.sampler.deals weights.length (Sampler.allows none) play.dice = deals at hshuffled
  cases hshuffled with
  | @kept deck rest card hd htake =>
      obtain ⟨-, skipped, behind, rfl, -, hskipped⟩ := Deck.exists_of_takeFirst? htake
      cases skipped with
      | nil => exact ⟨card, rfl, fun hl => h.apart (by omega) _ card hd hl rfl⟩
      | cons first more => simpa [hall] using hskipped first (by simp)
  | dealt _ hd => exact hdealt hd
  | dealtTwice _ _ _ hd => exact hdealt hd

end

-- The draws of a shuffle go round. An index comes up again only after a deal, and the cards are not
-- dealt before all that are eligible have been given. Without masks each round gives every index
-- once. And a draw without a mask does not repeat the index before it, also where a round starts.
theorem shuffle_fair (weights : List UInt32) (dice : Dice σ) :
    (∀ masks : List (Option (List Bool)), let told := (fresh .shuffle dice).story weights masks
      told.filterMap Happening.given? =
        ((fresh .shuffle dice).after weights (masks.map .draw)).given ∧
      (∀ before index after, told = before ++ .gave index :: after →
        index ∉ Happening.sinceDeal before) ∧
      ∀ before mask after, told = before ++ .dealt mask :: after →
        (∃ earlier, .dealt earlier ∈ before) → ∀ index < weights.length,
          Sampler.allows mask index = true → index ∈ Happening.sinceDeal before) ∧
    (∀ round, (((fresh .shuffle dice).after weights
        (List.replicate ((round + 1) * weights.length) (.draw none))).answers.drop
          (round * weights.length)).Perm ((List.range weights.length).map some)) ∧
    (2 ≤ weights.length → ∀ masks : List (Option (List Bool)),
      let play := (fresh .shuffle dice).after weights (masks.map .draw)
      ∃ index, ((play.sampler.draw weights none).run play.dice).1.1 = some index ∧
        play.given.getLast? ≠ some index) := by
  refine ⟨fun masks => ⟨?_, ?_, ?_⟩, fun round => ?_, fun hc masks => ?_⟩
  · rw [given_story]
    rfl
  · intro before index after he
    exact (inCycle_fresh weights dice masks).fair before _ after he
  · intro before mask after he
    exact (inCycle_fresh weights dice masks).fair before _ after he
  · obtain ⟨hlength, hused⟩ := deal_rounds weights dice round
    obtain ⟨order, hperm, hanswers, -⟩ := deal_round weights
      (policy_after weights (fresh .shuffle dice) _) hused
    rw [Nat.succ_mul, List.replicate_add, after_append, hanswers, List.drop_left' hlength]
    exact hperm.map some
  · dsimp only
    rw [getLast?_given]
    exact draw_ne_last (policy_after weights _ _) (inCycle_fresh weights dice masks) hc

-- Three cards, of which the middle one is left when a draw comes that is not for it.
def cards : Dice Script := ⟨⟨[1, 0, 0, 1]⟩, #[]⟩

def masked : List (Option (List Bool)) := [none, some [true, false, true], some [true, false, true]]

theorem shuffle_fair_masked :
    2 ≤ [(1 : UInt32), 1, 1].length ∧
      (fresh .shuffle cards).story [1, 1, 1] masked =
        [.dealt none, .gave 2, .gave 0] ++ .dealt (some [true, false, true]) :: [.gave 2] ∧
      (∀ index < 3, Sampler.allows (some [true, false, true]) index = true →
        index ∈ Happening.sinceDeal [.dealt none, .gave 2, .gave 0]) ∧
      ∃ index, ((((fresh .shuffle cards).after [1, 1, 1] (masked.map .draw)).sampler.draw [1, 1, 1]
        none).run ((fresh .shuffle cards).after [1, 1, 1] (masked.map .draw)).dice).1.1 =
          some index ∧ some 2 ≠ some index := by
  have hstory : (fresh .shuffle cards).story [1, 1, 1] masked =
      [.dealt none, .gave 2, .gave 0] ++ .dealt (some [true, false, true]) :: [.gave 2] := by
    decide +kernel
  have hgiven : ((fresh .shuffle cards).after [1, 1, 1] (masked.map .draw)).given.getLast? =
      some 2 := by decide +kernel
  obtain ⟨htold, -, hnext⟩ := shuffle_fair [1, 1, 1] cards
  obtain ⟨index, hdraw, hne⟩ := hnext (by decide) masked
  rw [hgiven] at hne
  exact ⟨by decide, hstory, (htold masked).2.2 _ _ _ hstory ⟨none, by simp⟩, index, hdraw, hne⟩

end Play

end StoryGrammar
