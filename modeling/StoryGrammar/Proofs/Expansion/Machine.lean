import Mathlib.Logic.Function.Iterate
import StoryGrammar.Proofs.Expansion.Related
import StoryGrammar.Proofs.Sampling.Checked

namespace StoryGrammar.Expansion

open Template (Node Reference Call Branching)

-- What an expansion that is carried out step by step has to do next.
inductive Task where
  | resolve (name : String) (force : Bool)
  -- Tries the conditions of the candidates in turn. The mask has the answers so far.
  | survey (name : String) (candidates : List Candidate) (mask : List Bool)
  | satisfy (name : String) (conditions : List Template) (candidates : List Candidate)
      (mask : List Bool)
  | draw (name : String) (mask : Option (List Bool))
  | sequence (nodes : List Node)
  -- Goes on with a sequence whose alternations have been settled, after the text so far.
  | write (rest : List Node) (choices : List Nat) (text : String)
  | refer (target : Reference)
  | branch (branching : Branching)
  | compare (branching : Branching) (left : String)
  | decide (branching : Branching) (left right : String)
  | modify (calls : List Call) (value : String)
  -- Gathers the texts of the arguments of a modifier.
  | gather (name value : String) (arguments : List (List Node)) (texts : List String)
      (calls : List Call)
  | finish (result : Except GrammarError String)

-- What to go on with when a text is there.
inductive Frame where
  | node (rest : List Node) (choices : List Nat) (text : String)
  | reference (calls : List Call)
  | argument (name value : String) (arguments : List (List Node)) (texts : List String)
      (calls : List Call)
  | subject (branching : Branching)
  | test (branching : Branching) (left : String)
  | condition (name : String) (conditions : List Template) (candidates : List Candidate)
      (mask : List Bool)
  -- The symbol has been drawn from. It gets the text, and is no longer being drawn.
  | leave (name : String)

-- A moment of an expansion. The chain lists the symbols that are being drawn, the outermost first;
-- it is written down like everything else, and nothing but the steps keeps it in order.
structure Moment (σ : Type) where
  task : Task
  frames : List Frame
  chain : List String
  world : World σ

variable {σ α : Type}

-- What a symbol that has been drawn from goes on with: the text of a candidate, or nothing at all.
def candidateTask (name : String) : Option Candidate → Expansion σ Task
  | some candidate => do return .sequence (← templateOf candidate.body).nodes
  | none => do
    record (.exhausted name)
    return .finish (.ok "")

def pickTask [RandomSource σ] (name : String) (mask : Option (List Bool)) : Expansion σ Task := do
  candidateTask name (← drawCandidate name mask)

-- Takes a candidate out of a symbol by a checked draw. There is nothing to go on with if an index
-- turns out to be out of range, be it in the draw or among the candidates.
def drawCandidate? [RandomSource σ] (name : String) (mask : Option (List Bool)) (world : World σ) :
    Option (Option Candidate × World σ) :=
  match world.symbols[name]? with
  | none => some (none, world)
  | some symbol =>
    match (symbol.sampler.drawChecked symbol.weights mask).run.run world.dice with
    | (none, _) => none
    | (some (index, sampler), dice) =>
      let after := { world with
        symbols := world.symbols.insert name { symbol with sampler }
        dice
        journal := world.journal.push (.drawn name mask index) }
      match index with
      | none => some (none, after)
      | some index => symbol.candidates[index]?.map fun candidate => (some candidate, after)

-- What follows on the text that a frame has waited for.
def Frame.goOn : Frame → String → Task
  | .node rest choices text, more => .write rest choices (text ++ more)
  | .reference calls, value => .modify calls value
  | .argument name value arguments texts calls, text =>
    .gather name value arguments (texts ++ [text]) calls
  | .subject branching, left => .compare branching left
  | .test branching left, right => .decide branching left right
  | .condition name conditions candidates mask, text =>
    if text.isEmpty then .survey name candidates (mask ++ [false])
    else .satisfy name conditions candidates mask
  | .leave _, value => .finish (.ok value)

namespace Moment

-- Carries out a part of an expansion at once. If it fails, the failure is passed on.
def perform (moment : Moment σ) (part : Expansion σ α) (goOn : α → Task) : Moment σ :=
  match runOn part moment.world with
  | (.ok a, world) => { moment with task := goOn a, world }
  | (.error cause, world) => { moment with task := .finish (.error cause), world }

variable (modifiers : Modifiers) (limit : Nat)

-- Reads a symbol, or starts to draw it.
def resolve (moment : Moment σ) (name : String) (force : Bool) : Moment σ :=
  match moment.world.symbols[name]? with
  | none => moment.perform (record (.undefinedSymbol name)) fun _ => .finish (.ok "")
  | some symbol =>
    match if force then none else symbol.value with
    | some value => moment.perform (record (.symbol name value true)) fun _ => .finish (.ok value)
    | none =>
      if name ∈ moment.chain then
        { moment with task := .finish (.error (.recursion name (moment.chain ++ [name]))) }
      else if limit ≤ moment.chain.length then
        { moment with task := .finish (.error (.depthExceeded name limit)) }
      else
        { moment with chain := moment.chain ++ [name] }.perform
          (note (.opened (moment.chain ++ [name]))) fun _ =>
            if symbol.hasConditions then .survey name symbol.candidates [] else .draw name none

-- A text has come out, and the innermost frame goes on with it. Where none has come out, the frames
-- are given up one by one; a symbol that is being drawn is left in any case.
def conclude (moment : Moment σ) (result : Except GrammarError String) : Moment σ :=
  match moment.frames, result with
  | [], _ => moment
  | .leave name :: frames, .ok value =>
    { moment with frames, chain := moment.chain.dropLast }.perform
      (do hold name value; record (.symbol name value false)) fun _ => .finish (.ok value)
  | .leave _ :: frames, .error _ => { moment with frames, chain := moment.chain.dropLast }
  -- the symbol has not been drawn from yet, but it is left all the same
  | .condition name .. :: frames, .error _ => { moment with frames := .leave name :: frames }
  | _ :: frames, .error _ => { moment with frames }
  | frame :: frames, .ok text => { moment with task := frame.goOn text, frames }

variable [RandomSource σ]

-- One step. When all is done, nothing changes any more.
def next (moment : Moment σ) : Moment σ :=
  match moment.task with
  | .resolve name force => moment.resolve limit name force
  | .survey name [] mask => { moment with task := .draw name (some mask) }
  | .survey name (candidate :: candidates) mask =>
    { moment with task := .satisfy name candidate.conditions candidates mask }
  | .satisfy name [] candidates mask =>
    { moment with task := .survey name candidates (mask ++ [true]) }
  | .satisfy name (condition :: conditions) candidates mask =>
    { moment with
      task := .sequence condition.nodes
      frames := .condition name conditions candidates mask :: moment.frames }
  | .draw name mask =>
    { moment with frames := .leave name :: moment.frames }.perform (pickTask name mask) id
  | .sequence nodes => moment.perform (choose nodes) fun choices => .write nodes choices ""
  | .write [] _ text => { moment with task := .finish (.ok text) }
  | .write (.literal more :: rest) choices text =>
    { moment with task := .write rest choices (text ++ more) }
  | .write (.alternation options :: rest) choices text =>
    { moment with
      task := options[choices.headD 0]?.elim (.finish (.ok "")) .sequence
      frames := .node rest choices.tail text :: moment.frames }
  | .write (.reference target :: rest) choices text =>
    { moment with task := .refer target, frames := .node rest choices text :: moment.frames }
  | .write (.conditional branching :: rest) choices text =>
    { moment with task := .branch branching, frames := .node rest choices text :: moment.frames }
  | .branch branching =>
    { moment with
      task := .refer branching.subject
      frames := .subject branching :: moment.frames }
  | .compare branching left =>
    { moment with
      task := .sequence branching.test
      frames := .test branching left :: moment.frames }
  | .decide branching left right =>
    moment.perform
      (record (.condition left right (branching.comparison.holds left right))) fun _ =>
        .sequence (if branching.comparison.holds left right then branching.whenTrue
          else branching.whenFalse)
  | .refer ⟨name, calls⟩ =>
    { moment with task := .resolve name false, frames := .reference calls :: moment.frames }
  | .modify [] value => { moment with task := .finish (.ok value) }
  | .modify (⟨name, arguments⟩ :: calls) value =>
    { moment with task := .gather name value arguments [] calls }
  | .gather name value (nodes :: arguments) texts calls =>
    { moment with
      task := .sequence nodes
      frames := .argument name value arguments texts calls :: moment.frames }
  | .gather name value [] texts calls =>
    match modifiers.result? name value texts with
    | some output =>
      moment.perform (record (.modifier name value output)) fun _ => .modify calls output
    | none => moment.perform (record (.undefinedModifier name)) fun _ => .modify calls value
  | .finish result => moment.conclude result

-- The same step by a checked draw: nothing follows once an index is out of range.
def nextChecked (moment : Moment σ) : Option (Moment σ) :=
  match moment.task with
  | .draw name mask =>
    (drawCandidate? name mask moment.world).map fun (candidate, world) =>
      { moment with frames := .leave name :: moment.frames, world }.perform
        (candidateTask name candidate) id
  | _ => some (moment.next modifiers limit)

end Moment

section

variable [RandomSource σ] {name : String} {mask : Option (List Bool)} {world after : World σ}
variable {candidate : Option Candidate}

-- A checked draw that goes on does what the draw does that passes over what is out of range.
theorem runOn_drawCandidate_of_checked
    (h : drawCandidate? name mask world = some (candidate, after)) :
    runOn (drawCandidate name mask) world = (.ok candidate, after) := by
  rw [runOn_drawCandidate]
  unfold drawCandidate? at h
  cases hs : world.symbols[name]? with
  | none =>
      rw [hs] at h
      obtain ⟨rfl, rfl⟩ := Prod.mk.inj (Option.some.inj h)
      rfl
  | some symbol =>
      rw [hs] at h
      dsimp only at h
      cases hr : (symbol.sampler.drawChecked symbol.weights mask).run.run world.dice with
      | mk answer dice =>
          rw [hr] at h
          cases answer with
          | none => cases h
          | some drawn =>
              obtain ⟨index, sampler⟩ := drawn
              have hdraw := (Sampler.drawChecked_follows _ _ _).run_eq hr
              simp only [Expansion.drawn, hdraw]
              cases index with
              | none =>
                  obtain ⟨rfl, rfl⟩ := Prod.mk.inj (Option.some.inj h)
                  rfl
              | some index =>
                  obtain ⟨found, hget, h⟩ := Option.map_eq_some_iff.mp h
                  obtain ⟨rfl, rfl⟩ := Prod.mk.inj h
                  rw [Option.bind_some, hget]

theorem Moment.next_of_nextChecked {modifiers : Modifiers} {limit : Nat} {moment later : Moment σ}
    (h : moment.nextChecked modifiers limit = some later) :
    moment.next modifiers limit = later := by
  obtain ⟨task, frames, chain, world⟩ := moment
  cases task with
  | draw name mask =>
      obtain ⟨⟨candidate, after⟩, hd, rfl⟩ := Option.map_eq_some_iff.mp h
      have hdraw := runOn_drawCandidate_of_checked hd
      simp only [next, perform, pickTask, runOn_bind, hdraw]
  | _ => exact Option.some.inj h

end

end StoryGrammar.Expansion
