import StoryGrammar.Proofs.Expansion.Keeps
import StoryGrammar.Proofs.Random.Shuffle

namespace StoryGrammar

-- The answer to a question in a row is in range, if there is anything to choose.
theorem exists_reply {σ : Type} [RandomSource σ] [RangedSource σ] (source : σ) {counts : List Nat}
    {place count : Nat} (h : counts[place]? = some count) :
    ∃ answer, (replies source counts)[place]? = some answer ∧ (0 < count → answer < count) := by
  induction counts generalizing source place with
  | nil => simp at h
  | cons first counts ih =>
      cases place with
      | zero =>
          obtain rfl : first = count := by simpa using h
          exact ⟨_, rfl, RangedSource.pickUniform_lt source first⟩
      | succ place => exact ih _ (by simpa using h)

-- A row of questions is put to the source in order.
theorem Roll.requests_mapM_uniform {σ : Type} [RandomSource σ] (counts : List Nat) (dice : Dice σ) :
    ((counts.mapM Roll.uniform).run dice).2.requests =
      dice.requests ++ (counts.map Request.uniform).toArray := by
  induction counts generalizing dice with
  | nil => exact Array.append_empty.symm
  | cons count counts ih =>
      rw [List.mapM_cons]
      simp only [run_bind, run_pure]
      rw [ih]
      simp [Roll.uniform, StateT.run]

namespace Template.Node

-- The alternations that stand directly in a sequence, by their options.
def alternations : List Node → List (List (List Node))
  | [] => []
  | .alternation options :: rest => options :: alternations rest
  | _ :: rest => alternations rest

theorem alternations_append (front back : List Node) :
    alternations (front ++ back) = alternations front ++ alternations back := by
  induction front with
  | nil => rfl
  | cons node front ih => cases node <;> simp [alternations, ih]

theorem alternations_of_noAlternation {nodes : List Node} (h : NoAlternation nodes) :
    alternations nodes = [] := by
  induction nodes with
  | nil => rfl
  | cons node rest ih =>
      obtain ⟨hnode, hrest⟩ := List.forall_mem_cons.mp h
      cases node with
      | alternation options => exact absurd trivial hnode
      | literal _ | reference _ | conditional _ => exact ih hrest

end Template.Node

namespace Expansion

open Template (Node)
open Template.Node (alternations alternations_append alternations_of_noAlternation
  NoAlternation)

variable {σ : Type} [RandomSource σ]

-- The world in which one option has been picked for each of a row of alternations. Nothing has been
-- looked up yet.
def settled (counts : List Nat) (world : World σ) : World σ :=
  { world with
    dice := ((counts.mapM Roll.uniform).run world.dice).2
    journal := world.journal ++
      (List.zipWith (fun count chosen => Step.event (.alternation count chosen)) counts
        (replies world.dice.source counts)).toArray }

theorem settled_nil (world : World σ) : settled [] world = world := by
  have hjournal : world.journal ++ #[] = world.journal := Array.append_empty
  rw [settled, replies, List.zipWith_nil_left, hjournal]
  rfl

theorem settled_cons (count : Nat) (counts : List Nat) (world : World σ) :
    settled (count :: counts) world =
      settled counts { world with
        dice := ((Roll.uniform count).run world.dice).2
        journal := world.journal.push
          (.event (.alternation count ((Roll.uniform count).run world.dice).1)) } := by
  have hjournal (later : List Step) (step : Step) :
      world.journal ++ (step :: later).toArray = world.journal.push step ++ later.toArray := by
    simp
  rw [settled, settled, replies, List.zipWith_cons_cons, hjournal, List.mapM_cons]
  rfl

-- Choosing comes to the answers of the source, and it is all that happens.
theorem runOn_choose (nodes : List Node) (world : World σ) :
    runOn (choose nodes) world =
      (.ok (replies world.dice.source ((alternations nodes).map List.length)),
        settled ((alternations nodes).map List.length) world) := by
  induction nodes generalizing world with
  | nil =>
      rw [alternations, List.map_nil, settled_nil]
      rfl
  | cons node rest ih =>
      cases node with
      | literal _ | reference _ | conditional _ => exact ih world
      | alternation options =>
          have hchoose : runOn (choose (.alternation options :: rest)) world =
              runOn (do return ((Roll.uniform options.length).run world.dice).1 :: (← choose rest))
                { world with
                  dice := ((Roll.uniform options.length).run world.dice).2
                  journal := world.journal.push (.event (.alternation options.length
                    ((Roll.uniform options.length).run world.dice).1)) } := rfl
          rw [hchoose, runOn_bind, ih, alternations, List.map_cons, settled_cons]
          rfl

theorem choose_of_noAlternation {nodes : List Node} (h : NoAlternation nodes) :
    choose nodes = (return [] : Expansion σ (List Nat)) := by
  induction nodes with
  | nil => rfl
  | cons node rest ih =>
      obtain ⟨hnode, hrest⟩ := List.forall_mem_cons.mp h
      cases node with
      | alternation options => exact absurd trivial hnode
      | literal _ | reference _ | conditional _ => exact ih hrest

theorem choose_append_of_noAlternation (front : List Node) {back : List Node}
    (h : NoAlternation back) :
    choose (front ++ back) = (choose front : Expansion σ (List Nat)) := by
  induction front with
  | nil => exact choose_of_noAlternation h
  | cons node front ih =>
      cases node with
      | literal _ | reference _ | conditional _ => exact ih
      | alternation options => simp only [List.cons_append, choose, ih]

section

variable (modifiers : Modifiers) (lookUp : String → Expansion σ String)

theorem renderOption_eq (options : List (List Node)) (index : Nat) :
    renderOption modifiers lookUp options index =
      render modifiers lookUp (options[index]?.getD []) := by
  have hnothing : render modifiers lookUp [] = return "" := by
    simp only [render, choose, pure_bind, renderNodes]
  induction options generalizing index with
  | nil => exact hnothing.symm
  | cons nodes rest ih =>
      cases index with
      | zero => rfl
      | succ index => exact ih index

-- The text of a sequence is put together from left to right, with a choice for each alternation.
theorem renderNodes_append (front back : List Node) (choices : List Nat) :
    renderNodes modifiers lookUp (front ++ back) choices = do
      let text ← renderNodes modifiers lookUp front (choices.take (alternations front).length)
      let more ← renderNodes modifiers lookUp back (choices.drop (alternations front).length)
      return text ++ more := by
  induction front generalizing choices with
  | nil =>
      simp only [List.nil_append, renderNodes, alternations, List.length_nil, List.drop_zero,
        pure_bind, String.empty_append, bind_pure]
  | cons node front ih =>
      cases node with
      | literal text =>
          simp only [List.cons_append, renderNodes, alternations, ih, bind_assoc, pure_bind,
            String.append_assoc]
      | reference target =>
          simp only [List.cons_append, renderNodes, alternations, ih, bind_assoc, pure_bind,
            String.append_assoc]
      | alternation options =>
          have hhead : (choices.take ((alternations front).length + 1)).headD 0 =
              choices.headD 0 := by cases choices <;> rfl
          have htail : (choices.take ((alternations front).length + 1)).tail =
              choices.tail.take (alternations front).length := by cases choices <;> simp
          simp only [List.cons_append, renderNodes, alternations, List.length_cons, ih, bind_assoc,
            pure_bind, String.append_assoc, hhead, htail, List.drop_tail]
      | conditional branching =>
          obtain ⟨comparison, subject, test, whenTrue, whenFalse⟩ := branching
          simp only [List.cons_append, renderNodes, alternations, ih, bind_assoc, pure_bind]
          refine bind_congr fun _ => bind_congr fun _ => bind_congr fun _ => bind_congr fun _ => ?_
          split <;> simp only [bind_assoc, pure_bind, String.append_assoc]

-- Only the choices for its own alternations matter to a sequence.
theorem renderNodes_take (nodes : List Node) (choices : List Nat) :
    renderNodes modifiers lookUp nodes (choices.take (alternations nodes).length) =
      renderNodes modifiers lookUp nodes choices := by
  have hsplit := renderNodes_append modifiers lookUp nodes [] choices
  simp only [List.append_nil, renderNodes, pure_bind, String.append_empty, bind_pure] at hsplit
  exact hsplit.symm

-- The choice for an alternation says which of its options stands at its place.
theorem renderNodes_alternation (front back : List Node) (options : List (List Node))
    (choices : List Nat) {answer : Nat} (h : choices[(alternations front).length]? = some answer) :
    renderNodes modifiers lookUp (front ++ .alternation options :: back) choices = do
      let before ← renderNodes modifiers lookUp front (choices.take (alternations front).length)
      let text ← render modifiers lookUp (options[answer]?.getD [])
      let after ←
        renderNodes modifiers lookUp back (choices.drop ((alternations front).length + 1))
      return before ++ text ++ after := by
  have hanswer : (choices.drop (alternations front).length).headD 0 = answer := by
    rw [List.headD_eq_head?_getD, List.head?_drop, h]
    rfl
  simp only [renderNodes_append, renderNodes, renderOption_eq, hanswer, List.tail_drop, bind_assoc,
    pure_bind, String.append_assoc]

-- A sequence that offers no choice may just as well be written after the other one.
theorem render_append_of_noAlternation (front : List Node) {back : List Node}
    (h : NoAlternation back) : render modifiers lookUp (front ++ back) = do
      let text ← render modifiers lookUp front
      let more ← render modifiers lookUp back
      return text ++ more := by
  have hback (choices : List Nat) : renderNodes modifiers lookUp back choices =
      renderNodes modifiers lookUp back [] := by
    rw [← renderNodes_take, alternations_of_noAlternation h, List.length_nil, List.take_zero]
  simp only [render, choose_append_of_noAlternation front h, choose_of_noAlternation h,
    renderNodes_append, renderNodes_take, hback (List.drop _ _), bind_assoc, pure_bind]

end

-- These questions have been asked, and maybe more since.
def HasAsked (first : Array Request) (world : World σ) : Prop :=
  ∃ later, world.dice.requests = first ++ later

omit [RandomSource σ] in
theorem HasAsked.ask {first : Array Request} {world : World σ} {α : Type} {question : Roll σ α}
    (hq : question.Forgetful) (h : HasAsked first world) :
    HasAsked first { world with dice := (question.run world.dice).2 } := by
  obtain ⟨later, hlater⟩ := h
  refine ⟨later ++ (question.run ⟨world.dice.source, #[]⟩).2.requests, ?_⟩
  have hmore := congrArg (·.2.requests) (hq world.dice.source world.dice.requests)
  rw [← Array.append_assoc, ← hlater]
  exact hmore

-- An expansion only asks more.
theorem steadyRules_hasAsked (first : Array Request) :
    SteadyRules (σ := σ) (HasAsked first) [] where
  note _ := keeps_note fun _ h => h
  pick _ := keeps_roll fun _ h => h.ask (Roll.forgetful_uniform _)
  calls _ h := h
  drawn _ h _ := h.ask (Roll.forgetful_rules.draw _ _ _)
  hold := by
    intro name value _ world h
    rw [runOn_hold]
    cases world.symbols[name]? <;> exact ⟨h, fun _ _ => trivial⟩

-- A sequence settles its alternations from left to right before anything in it is looked up. Each
-- of them turns into the option that was picked for it, at its own place in the text. What follows
-- a sequence and offers no choice of its own may as well be expanded after it.
theorem render_in_order [RangedSource σ] (modifiers : Modifiers) (limit budget : Nat)
    (active : List String) (xs ys : List Node) (world : World σ) :
    let text := renderNodes modifiers (lookUp modifiers limit budget active false)
    let expand := render modifiers (lookUp modifiers limit budget active false)
    let counts := (alternations xs ++ alternations ys).map List.length
    let answers := replies world.dice.source counts
    let picked := settled counts world
    picked.dice.requests = world.dice.requests ++ (counts.map Request.uniform).toArray ∧
    runOn (expand (xs ++ ys)) world = runOn (text (xs ++ ys) answers) picked ∧
    (∃ later, (runOn (expand (xs ++ ys)) world).2.dice.requests = picked.dice.requests ++ later) ∧
    (∀ front options back, xs ++ ys = front ++ .alternation options :: back →
      ∃ answer, answers[(alternations front).length]? = some answer ∧
        (options ≠ [] → answer < options.length) ∧
        text (xs ++ ys) answers = do
          let before ← text front (answers.take (alternations front).length)
          let here ← expand (options[answer]?.getD [])
          let after ← text back (answers.drop ((alternations front).length + 1))
          return before ++ here ++ after) ∧
    (NoAlternation ys → expand (xs ++ ys) = do return (← expand xs) ++ (← expand ys)) := by
  intro text expand counts answers picked
  have hwhole : runOn (expand (xs ++ ys)) world = runOn (text (xs ++ ys) answers) picked := by
    have hchoose := runOn_choose (xs ++ ys) world
    rw [alternations_append] at hchoose
    change runOn (choose (xs ++ ys) >>= text (xs ++ ys)) world = _
    rw [runOn_bind, hchoose]
  refine ⟨Roll.requests_mapM_uniform counts world.dice, hwhole, ?_, ?_,
    render_append_of_noAlternation _ _ xs⟩
  · rw [hwhole]
    have rules := steadyRules_hasAsked (σ := σ) picked.dice.requests
    have hlookUp :=
      keeps_lookUp_of_steady modifiers rules limit budget (List.nil_subset active) false
    exact (keeps_renderNodes_of_steady modifiers rules hlookUp (xs ++ ys) answers picked
      ⟨#[], Array.append_empty.symm⟩).1
  · intro front options back hsplit
    have hplace : counts[(alternations front).length]? = some options.length := by
      have hcounts : counts = (alternations (xs ++ ys)).map List.length := by
        rw [alternations_append]
      rw [hcounts, hsplit, alternations_append]
      simp [alternations]
    obtain ⟨answer, hanswer, hlt⟩ := exists_reply world.dice.source hplace
    refine ⟨answer, hanswer, fun hne => hlt (List.length_pos_iff.mpr hne), ?_⟩
    change renderNodes _ _ (xs ++ ys) answers = _
    rw [hsplit]
    exact renderNodes_alternation _ _ front back options answers hanswer

-- What is ordered is brought with honey or with milk; which of them shows when it is first brought.
def kitchen : World Script :=
  let side : List Node := [.alternation [[.literal "milk"], [.literal "honey"]]]
  let candidate : Candidate := ⟨.written ⟨⟨"[milk|honey]", side⟩, []⟩, 1⟩
  ⟨(∅ : SymbolTable).insert "side" (.ofCandidates [candidate] .uniform),
    ⟨⟨[1, 0, 1]⟩, #[]⟩, ∅, #[]⟩

def order : List Node :=
  [.reference ⟨"side", []⟩, .literal " and ", .alternation [[.literal "tea"], [.literal "coffee"]]]

def reminder : List Node := [.literal ", but first the ", .reference ⟨"side", []⟩]

theorem render_in_order_kitchen :
    let text := renderNodes .empty (lookUp .empty 4 4 [] false)
    let expand := render .empty (lookUp .empty 4 4 [] false)
    (runOn (expand (order ++ reminder)) kitchen).1 =
      .ok "honey and coffee, but first the honey" ∧
    (runOn (expand (order ++ reminder)) kitchen).2.dice.requests =
      #[.uniform 2, .uniform 1, .uniform 2] ∧
    settled [2] kitchen = { kitchen with
      dice := ⟨⟨[0, 1]⟩, #[.uniform 2]⟩
      journal := #[.event (.alternation 2 1)] } ∧
    runOn (expand (order ++ reminder)) kitchen =
      runOn (text (order ++ reminder) [1]) (settled [2] kitchen) ∧
    expand (order ++ reminder) = do return (← expand order) ++ (← expand reminder) := by
  obtain ⟨-, hpicked, -, -, hsplit⟩ := render_in_order .empty 4 4 [] order reminder kitchen
  exact ⟨by decide +kernel, by decide +kernel, rfl, hpicked, hsplit (by decide)⟩

end Expansion

end StoryGrammar
