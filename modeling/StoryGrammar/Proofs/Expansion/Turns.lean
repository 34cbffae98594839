import StoryGrammar.Proofs.Expansion.Keeps
import StoryGrammar.Proofs.Expansion.Machine

namespace StoryGrammar

namespace Event

-- How a symbol was read, if it was this one: the value, and whether it was held already.
def reading? (name : String) : Event → Option (String × Bool)
  | .symbol other value cached => if other = name then some (value, cached) else none
  | _ => none

end Event

namespace Step

def reading? (name : String) (step : Step) : Option (String × Bool) :=
  step.event?.bind (Event.reading? name)

-- What a symbol was drawn from, if it was this one, and what was drawn.
def draw? (name : String) : Step → Option (Option (List Bool) × Option Nat)
  | .drawn other mask index => if other = name then some (mask, index) else none
  | _ => none

-- The entry tells neither of a value nor of a draw.
def IsAside : Step → Prop
  | .drawn .. | .event (.symbol ..) => False
  | _ => True

end Step

namespace World

variable {σ : Type}

-- All that is written down about one symbol, in order.
def readings (world : World σ) (name : String) : List (String × Bool) :=
  world.journal.toList.filterMap (Step.reading? name)

def draws (world : World σ) (name : String) : List (Option (List Bool) × Option Nat) :=
  world.journal.toList.filterMap (Step.draw? name)

end World

namespace Expansion

variable {σ α : Type}

-- Nothing has happened to any symbol.
structure Quiet (world next : World σ) : Prop where
  symbols : next.symbols = world.symbols
  readings : ∀ name, next.readings name = world.readings name
  draws : ∀ name, next.draws name = world.draws name

section

variable {world next : World σ}

theorem Quiet.refl (world : World σ) : Quiet world world := ⟨rfl, fun _ => rfl, fun _ => rfl⟩

theorem Quiet.trans {last : World σ} (h : Quiet world next) (h' : Quiet next last) :
    Quiet world last :=
  ⟨h'.symbols.trans h.symbols, fun name => (h'.readings name).trans (h.readings name),
    fun name => (h'.draws name).trans (h.draws name)⟩

theorem readings_push {step : Step} (h : next.journal = world.journal.push step) (name : String) :
    next.readings name = world.readings name ++ (step.reading? name).toList := by
  simp only [World.readings, h, Array.toList_push, List.filterMap_append]
  cases hs : step.reading? name <;> simp [hs]

theorem draws_push {step : Step} (h : next.journal = world.journal.push step) (name : String) :
    next.draws name = world.draws name ++ (step.draw? name).toList := by
  simp only [World.draws, h, Array.toList_push, List.filterMap_append]
  cases hs : step.draw? name <;> simp [hs]

theorem quiet_push {step : Step} (hs : step.IsAside) :
    Quiet world { world with journal := world.journal.push step } := by
  refine ⟨rfl, fun name => ?_, fun name => ?_⟩
  · refine (readings_push rfl name).trans ?_
    cases step with
    | event event =>
        cases event <;> first | exact absurd hs id | exact List.append_nil _
    | opened chain => exact List.append_nil _
    | drawn other mask index => exact absurd hs id
  · refine (draws_push rfl name).trans ?_
    cases step <;> first | exact absurd hs id | exact List.append_nil _

theorem quiet_dice (dice : Dice σ) : Quiet world { world with dice } :=
  ⟨rfl, fun _ => rfl, fun _ => rfl⟩

theorem quiet_calls (calls : CallCounts) : Quiet world { world with calls } :=
  ⟨rfl, fun _ => rfl, fun _ => rfl⟩

-- A template settles its alternations without a look at the symbols.
theorem quiet_choose [RandomSource σ] (nodes : List Template.Node) :
    Quiet world (runOn (choose nodes) world).2 := by
  have hrules : TemplateRules (σ := σ) (Quiet world) (fun _ => True) (fun _ => True)
      (fun _ => True) := by
    constructor
    · intro event hevent
      refine keeps_note fun next hq => hq.trans (quiet_push ?_)
      cases event <;> first | exact absurd hevent id | trivial
    · intro count _
      exact keeps_roll fun next hq => hq.trans (quiet_dice _)
  have hkeeps := (choose_related hrules.relatesIn nodes (fun _ _ => trivial)).2
  exact (hkeeps world (Quiet.refl world)).1

end

-- The symbols that are being drawn are found in what there is still to do; it is also known which of
-- them have been drawn from.
def Task.opening? : Task → Option (String × Bool)
  | .survey name .. | .satisfy name .. | .draw name _ => some (name, false)
  | _ => none

def Frame.opening? : Frame → Option (String × Bool)
  | .condition name .. => some (name, false)
  | .leave name => some (name, true)
  | _ => none

-- The innermost symbol comes first.
def Moment.openings (moment : Moment σ) : List (String × Bool) :=
  moment.task.opening?.toList ++ moment.frames.filterMap Frame.opening?

def Moment.Failed (moment : Moment σ) : Prop := ∃ cause, moment.task = .finish (.error cause)

section

variable [RandomSource σ]

-- All that one step can do to the symbols, to what is written down about them, and to the order in
-- which they are being drawn.
inductive Turn (limit : Nat) (moment next : Moment σ) : Prop
  | quiet : next.openings = moment.openings → next.chain = moment.chain →
      Quiet moment.world next.world → Turn limit moment next
  | recalled {name value : String} {symbol : Symbol} :
      moment.world.symbols[name]? = some symbol → symbol.value = some value →
      next.openings = moment.openings → next.chain = moment.chain →
      next.world = { moment.world with
        journal := moment.world.journal.push (.event (.symbol name value true)) } →
      Turn limit moment next
  | opened {name : String} {force : Bool} {symbol : Symbol} :
      moment.task = .resolve name force → moment.world.symbols[name]? = some symbol →
      (force = false → symbol.value = none) → name ∉ moment.chain → moment.chain.length < limit →
      next.openings = (name, false) :: moment.openings → next.chain = moment.chain ++ [name] →
      Quiet moment.world next.world → Turn limit moment next
  | drawn {name : String} {mask : Option (List Bool)} {symbol : Symbol}
      {rest : List (String × Bool)} :
      moment.openings = (name, false) :: rest → moment.world.symbols[name]? = some symbol →
      next.openings = (name, true) :: rest → next.chain = moment.chain →
      Quiet (drawn moment.world name symbol mask) next.world → Turn limit moment next
  | settled {name value : String} {symbol : Symbol} :
      moment.openings = (name, true) :: next.openings → moment.chain = next.chain ++ [name] →
      moment.world.symbols[name]? = some symbol →
      next.world = { moment.world with
        symbols := moment.world.symbols.insert name (symbol.setValue value)
        journal := moment.world.journal.push (.event (.symbol name value false)) } →
      Turn limit moment next
  -- a failure is on its way out
  | gaveUp : moment.Failed → next.task = moment.task → next.chain <+: moment.chain →
      next.openings.map Prod.fst = next.chain.reverse → next.world = moment.world →
      Turn limit moment next

-- What there is still to do is in line with the symbols that are being drawn, and they exist.
structure Moment.Aligned (moment : Moment σ) : Prop where
  openings : moment.openings.map Prod.fst = moment.chain.reverse
  defined : ∀ name ∈ moment.chain, name ∈ moment.world.symbols

variable {modifiers : Modifiers} {limit : Nat} {frames : List Frame} {chain : List String}
variable {world : World σ}

-- A part that leaves the symbols alone, for a task that has not opened any.
theorem turn_perform {task : Task} {part : Expansion σ α} {goOn : α → Task}
    (ht : task.opening? = none) (hg : ∀ a, (goOn a).opening? = none)
    (hq : Quiet world (runOn part world).2) :
    Turn limit ⟨task, frames, chain, world⟩
      (Moment.perform ⟨task, frames, chain, world⟩ part goOn) := by
  unfold Moment.perform
  rcases hr : runOn part world with ⟨cause | a, next⟩
  · rw [hr] at hq
    refine .quiet ?_ rfl hq
    simp only [Moment.openings, ht]
    rfl
  · rw [hr] at hq
    refine .quiet ?_ rfl hq
    simp only [Moment.openings, ht, hg]

theorem turn_resolve (name : String) (force : Bool) :
    Turn limit ⟨.resolve name force, frames, chain, world⟩
      (Moment.resolve limit ⟨.resolve name force, frames, chain, world⟩ name force) := by
  unfold Moment.resolve
  dsimp only
  cases hs : world.symbols[name]? with
  | none => exact turn_perform rfl (fun _ => rfl) (quiet_push trivial)
  | some symbol =>
      dsimp only
      cases hv : (if force then none else symbol.value) with
      | some value =>
          have hheld : symbol.value = some value := by cases force <;> simp_all
          exact .recalled hs hheld rfl rfl rfl
      | none =>
          have hnone (hf : force = false) : symbol.value = none := by simp_all
          dsimp only
          by_cases hm : name ∈ chain
          · simp only [hm, if_true]
            exact .quiet rfl rfl (.refl _)
          · by_cases hl : limit ≤ chain.length
            · simp only [hm, if_false, hl, if_true]
              exact .quiet rfl rfl (.refl _)
            · have hlt : chain.length < limit := Nat.lt_of_not_le hl
              simp only [hm, if_false, hl]
              refine .opened rfl hs hnone hm hlt ?_ rfl (quiet_push trivial)
              simp only [Moment.openings, Moment.perform, runOn_note]
              cases symbol.hasConditions <;> rfl

omit [RandomSource σ] in
theorem Moment.Aligned.mem_chain {moment : Moment σ} {name : String} {drawn : Bool}
    (h : moment.Aligned) (hm : (name, drawn) ∈ moment.openings) : name ∈ moment.chain := by
  rw [← List.mem_reverse, ← h.openings]
  exact List.mem_map.mpr ⟨_, hm, rfl⟩

omit [RandomSource σ] in
theorem Moment.Aligned.exists_symbol {moment : Moment σ} {name : String} (h : moment.Aligned)
    (hm : name ∈ moment.chain) : ∃ symbol, moment.world.symbols[name]? = some symbol :=
  Option.isSome_iff_exists.mp (Std.TreeMap.mem_iff_isSome_getElem?.mp (h.defined name hm))

theorem turn_draw (name : String) (mask : Option (List Bool))
    (h : Moment.Aligned (σ := σ) ⟨.draw name mask, frames, chain, world⟩) :
    Turn limit ⟨.draw name mask, frames, chain, world⟩
      (Moment.perform ⟨.draw name mask, .leave name :: frames, chain, world⟩ (pickTask name mask)
        id) := by
  have hname := h.mem_chain (List.mem_append_left _ (List.mem_singleton_self _))
  obtain ⟨symbol, hs⟩ := h.exists_symbol hname
  have hdraw : runOn (drawCandidate name mask) world =
      (.ok (((symbol.sampler.draw symbol.weights mask).run world.dice).1.1.bind
        (symbol.candidates[·]?)), drawn world name symbol mask) := by
    rw [runOn_drawCandidate, show world.symbols[name]? = some symbol from hs]
  unfold Moment.perform pickTask
  rw [runOn_bind, hdraw]
  cases ((symbol.sampler.draw symbol.weights mask).run world.dice).1.1.bind
      (symbol.candidates[·]?) with
  | none => exact .drawn rfl hs rfl rfl (quiet_push trivial)
  | some candidate =>
      dsimp only [candidateTask]
      rw [runOn_bind, runOn_templateOf]
      cases (candidate.body.template (drawn world name symbol mask).calls).1 with
      | error cause => exact .drawn rfl hs rfl rfl (quiet_calls _)
      | ok template => exact .drawn rfl hs rfl rfl (quiet_calls _)

theorem turn_conclude (result : Except GrammarError String)
    (h : Moment.Aligned (σ := σ) ⟨.finish result, frames, chain, world⟩) :
    Turn limit ⟨.finish result, frames, chain, world⟩
      (Moment.conclude ⟨.finish result, frames, chain, world⟩ result) := by
  have hopenings := h.openings
  cases result with
  | error cause =>
      have hfailed : Moment.Failed (σ := σ) ⟨.finish (.error cause), frames, chain, world⟩ :=
        ⟨cause, rfl⟩
      cases frames with
      | nil => exact .gaveUp hfailed rfl (List.prefix_refl _) hopenings rfl
      | cons frame frames =>
          cases frame with
          | leave name =>
              refine .gaveUp hfailed rfl (List.dropLast_prefix _) ?_ rfl
              have htail := congrArg List.tail hopenings
              rw [List.tail_reverse] at htail
              exact htail
          | _ => exact .gaveUp hfailed rfl (List.prefix_refl _) hopenings rfl
  | ok text =>
      cases frames with
      | nil => exact .quiet rfl rfl (.refl _)
      | cons frame frames =>
          cases frame with
          | leave name =>
              obtain ⟨symbol, hs⟩ := h.exists_symbol (h.mem_chain List.mem_cons_self)
              have hchain : chain = chain.dropLast ++ [name] := by
                have hlast : chain = _ ++ [name] := List.reverse_eq_cons_iff.mp hopenings.symm
                rw [hlast, List.dropLast_concat]
              simp only [Moment.conclude, Moment.perform, runOn_bind, runOn_hold]
              simp only [show world.symbols[name]? = some symbol from hs]
              exact .settled rfl hchain hs rfl
          | condition name conditions candidates mask =>
              refine .quiet ?_ rfl (.refl _)
              simp only [Moment.conclude, Moment.openings, Frame.goOn]
              cases text.isEmpty <;> rfl
          | _ => exact .quiet rfl rfl (.refl _)

theorem turn_next {moment : Moment σ} (h : moment.Aligned) :
    Turn limit moment (moment.next modifiers limit) := by
  obtain ⟨task, frames, chain, world⟩ := moment
  cases task with
  | resolve name force => exact turn_resolve name force
  | survey name candidates mask =>
      cases candidates <;> exact .quiet rfl rfl (.refl _)
  | satisfy name conditions candidates mask =>
      cases conditions <;> exact .quiet rfl rfl (.refl _)
  | draw name mask => exact turn_draw name mask h
  | sequence nodes => exact turn_perform rfl (fun _ => rfl) (quiet_choose nodes)
  | write rest choices text =>
      rcases rest with _ | ⟨_ | options | _ | _, rest⟩
      · exact .quiet rfl rfl (.refl _)
      · exact .quiet rfl rfl (.refl _)
      · refine .quiet ?_ rfl (.refl _)
        simp only [Moment.next, Moment.openings]
        cases options[choices.headD 0]? <;> rfl
      · exact .quiet rfl rfl (.refl _)
      · exact .quiet rfl rfl (.refl _)
  | refer target =>
      obtain ⟨name, calls⟩ := target
      exact .quiet rfl rfl (.refl _)
  | branch branching => exact .quiet rfl rfl (.refl _)
  | compare branching left => exact .quiet rfl rfl (.refl _)
  | decide branching left right =>
      simp only [Moment.next]
      exact turn_perform rfl (fun _ => rfl) (quiet_push trivial)
  | modify calls value =>
      rcases calls with _ | ⟨⟨name, arguments⟩, calls⟩ <;> exact .quiet rfl rfl (.refl _)
  | gather name value arguments texts calls =>
      cases arguments with
      | cons nodes arguments => exact .quiet rfl rfl (.refl _)
      | nil =>
          simp only [Moment.next]
          cases modifiers.result? name value texts with
          | some output => exact turn_perform rfl (fun _ => rfl) (quiet_push trivial)
          | none => exact turn_perform rfl (fun _ => rfl) (quiet_push trivial)
  | finish result => exact turn_conclude result h

end

section

variable [RandomSource σ] {modifiers : Modifiers} {limit : Nat} {moment : Moment σ}
variable {name : String}

omit [RandomSource σ] in
theorem perform_ne_forced {α : Type} {part : Expansion σ α} {goOn : α → Task}
    (h : ∀ a world next, runOn part world = (.ok a, next) → goOn a ≠ .resolve name true) :
    (moment.perform part goOn).task ≠ .resolve name true := by
  unfold Moment.perform
  rcases hr : runOn part moment.world with ⟨cause | a, next⟩
  · simp
  · exact h a _ _ hr

omit [RandomSource σ] in
theorem resolve_ne_forced (other : String) (force : Bool) :
    (moment.resolve limit other force).task ≠ .resolve name true := by
  unfold Moment.resolve
  split
  · exact perform_ne_forced (by simp)
  · split
    · exact perform_ne_forced (by simp)
    · split
      · simp
      · split
        · simp
        · refine perform_ne_forced fun _ _ _ _ => ?_
          split <;> simp

theorem pickTask_ne_forced {other : String} {mask : Option (List Bool)} {task : Task}
    {world next : World σ} (h : runOn (pickTask other mask) world = (.ok task, next)) :
    task ≠ .resolve name true := by
  rintro rfl
  unfold pickTask at h
  rw [runOn_bind] at h
  generalize runOn (drawCandidate other mask) world = drawn at h
  rcases drawn with ⟨cause | _ | candidate, after⟩
  · simp at h
  · have hfirst : (Except.ok (.finish (.ok "")) : Except GrammarError Task) =
        .ok (.resolve name true) := congrArg Prod.fst h
    simp at hfirst
  · dsimp only [candidateTask] at h
    rw [runOn_bind] at h
    generalize runOn (templateOf candidate.body) after = read at h
    rcases read with ⟨cause | template, last⟩ <;> simp at h

omit [RandomSource σ] in
theorem goOn_ne_forced (frame : Frame) (text : String) : frame.goOn text ≠ .resolve name true := by
  cases frame with
  | condition other conditions candidates mask =>
      simp only [Frame.goOn]
      split <;> simp
  | _ => simp [Frame.goOn]

omit [RandomSource σ] in
theorem conclude_ne_forced {result : Except GrammarError String} (h : moment.task = .finish result) :
    (moment.conclude result).task ≠ .resolve name true := by
  unfold Moment.conclude
  split
  · simp [h]
  · exact perform_ne_forced (by simp)
  · simp [h]
  · simp [h]
  · simp [h]
  · exact goOn_ne_forced _ _

-- Only what an answer starts with is forced.
theorem next_ne_forced (moment : Moment σ) :
    (moment.next modifiers limit).task ≠ .resolve name true := by
  obtain ⟨task, frames, chain, world⟩ := moment
  cases task with
  | resolve other force => exact resolve_ne_forced other force
  | survey other candidates mask => cases candidates <;> simp [Moment.next]
  | satisfy other conditions candidates mask => cases conditions <;> simp [Moment.next]
  | draw other mask => exact perform_ne_forced fun _ _ _ h => pickTask_ne_forced h
  | sequence nodes => exact perform_ne_forced (by simp)
  | write rest choices text =>
      rcases rest with _ | ⟨_ | options | _ | _, rest⟩
      · simp [Moment.next]
      · simp [Moment.next]
      · simp only [Moment.next]
        cases options[choices.headD 0]? <;> simp
      · simp [Moment.next]
      · simp [Moment.next]
  | refer target =>
      obtain ⟨other, calls⟩ := target
      simp [Moment.next]
  | branch branching => simp [Moment.next]
  | compare branching left => simp [Moment.next]
  | decide branching left right => exact perform_ne_forced (by simp)
  | modify calls value =>
      rcases calls with _ | ⟨⟨other, arguments⟩, calls⟩ <;> simp [Moment.next]
  | gather other value arguments texts calls =>
      cases arguments with
      | cons nodes arguments => simp [Moment.next]
      | nil =>
          simp only [Moment.next]
          split <;> exact perform_ne_forced (by simp)
  | finish result => exact conclude_ne_forced rfl

omit [RandomSource σ] in
theorem conclude_failed {cause : GrammarError} (h : moment.task = .finish (.error cause)) :
    (moment.conclude (.error cause)).task = moment.task ∧
      (moment.conclude (.error cause)).chain <+: moment.chain ∧
      (moment.conclude (.error cause)).world = moment.world := by
  obtain ⟨task, frames, chain, world⟩ := moment
  cases frames with
  | nil => exact ⟨rfl, List.prefix_refl _, rfl⟩
  | cons frame frames =>
      cases frame with
      | leave other => exact ⟨rfl, List.dropLast_prefix _, rfl⟩
      | _ => exact ⟨rfl, List.prefix_refl _, rfl⟩

-- A failure stays as it is, and so do the symbols.
variable (modifiers limit) in
theorem next_failed (h : moment.Failed) :
    (moment.next modifiers limit).task = moment.task ∧
      (moment.next modifiers limit).chain <+: moment.chain ∧
      (moment.next modifiers limit).world = moment.world := by
  obtain ⟨cause, ht⟩ := h
  have hnext : moment.next modifiers limit = moment.conclude (.error cause) := by
    unfold Moment.next
    rw [ht]
  rw [hnext]
  exact conclude_failed ht

end

end Expansion

end StoryGrammar
