import StoryGrammar.Proofs.Expansion.Machine

namespace StoryGrammar.Expansion

open Template (Node Reference Call Branching)

variable {σ α : Type} [RandomSource σ] (modifiers : Modifiers) (limit : Nat)

-- One moment leads to another, and the frames of the floor stay where they are all the way.
inductive Runs (floor : List Frame) : Moment σ → Moment σ → Prop
  | stay {moment : Moment σ} : floor <:+ moment.frames → Runs floor moment moment
  | go {moment last : Moment σ} : floor <:+ moment.frames →
      Runs floor (moment.next modifiers limit) last → Runs floor moment last

-- The steps from a task on do what an expansion does, in front of any frames: they come to their
-- end, and then the frames are those that were there before.
def Carries (task : Task) (before after : List String) (m : Expansion σ String) : Prop :=
  ∀ frames world, Runs modifiers limit frames ⟨task, frames, before, world⟩
    ⟨.finish (runOn m world).1, frames, after, (runOn m world).2⟩

-- The same for a frame that has a text to go on with. A failure is passed on.
structure Continues (frame : Frame) (before after : List String)
    (f : String → Expansion σ String) : Prop where
  ok (text : String) (frames : List Frame) (world : World σ) :
    Runs modifiers limit frames ⟨.finish (.ok text), frame :: frames, before, world⟩
      ⟨.finish (runOn (f text) world).1, frames, after, (runOn (f text) world).2⟩
  error (cause : GrammarError) (frames : List Frame) (world : World σ) :
    Runs modifiers limit frames ⟨.finish (.error cause), frame :: frames, before, world⟩
      ⟨.finish (.error cause), frames, after, world⟩

section

variable {modifiers limit}

theorem Runs.trans {floor : List Frame} {first second third : Moment σ}
    (h : Runs modifiers limit floor first second) (h' : Runs modifiers limit floor second third) :
    Runs modifiers limit floor first third := by
  induction h with
  | stay _ => exact h'
  | go hf _ ih => exact .go hf (ih h')

theorem Runs.lower {floor frames : List Frame} {first last : Moment σ} (hs : floor <:+ frames)
    (h : Runs modifiers limit frames first last) : Runs modifiers limit floor first last := by
  induction h with
  | stay hf => exact .stay (hs.trans hf)
  | go hf _ ih => exact .go (hs.trans hf) ih

theorem runs_iff {floor : List Frame} {first last : Moment σ} :
    Runs modifiers limit floor first last ↔
      ∃ count, (Moment.next modifiers limit)^[count] first = last ∧
        ∀ earlier ≤ count, floor <:+ ((Moment.next modifiers limit)^[earlier] first).frames := by
  constructor
  · intro h
    induction h with
    | stay hf => exact ⟨0, rfl, fun earlier he => by rwa [Nat.le_zero.mp he]⟩
    | go hf _ ih =>
        obtain ⟨count, hlast, hfloor⟩ := ih
        refine ⟨count + 1, hlast, fun earlier he => ?_⟩
        cases earlier with
        | zero => exact hf
        | succ earlier => exact hfloor earlier (by omega)
  · rintro ⟨count, hlast, hfloor⟩
    induction count generalizing first with
    | zero => exact hlast ▸ .stay (hfloor 0 (by omega))
    | succ count ih =>
        refine .go (hfloor 0 (by omega)) (ih hlast fun earlier he => ?_)
        exact hfloor (earlier + 1) (by omega)

variable {task inner : Task} {before between after chain : List String}

theorem Carries.step {m : Expansion σ String}
    (h : ∀ frames (world : World σ), Moment.next modifiers limit ⟨task, frames, before, world⟩ =
      ⟨inner, frames, between, world⟩)
    (hi : Carries modifiers limit inner between after m) :
    Carries modifiers limit task before after m := by
  intro frames world
  refine .go (List.suffix_refl _) ?_
  rw [h]
  exact hi frames world

-- A part that is carried out at once, and what it goes on with.
theorem Carries.part {part : Expansion σ α} {goOn : α → Task} {f : α → Expansion σ String}
    (h : ∀ frames (world : World σ), Moment.next modifiers limit ⟨task, frames, chain, world⟩ =
      Moment.perform ⟨task, frames, chain, world⟩ part goOn)
    (hi : ∀ a, Carries modifiers limit (goOn a) chain chain (f a)) :
    Carries modifiers limit task chain chain (part >>= f) := by
  intro frames world
  refine .go (List.suffix_refl _) ?_
  rw [h, runOn_bind]
  unfold Moment.perform
  rcases runOn part world with ⟨_ | a, next⟩
  · exact .stay (List.suffix_refl _)
  · exact hi a frames next

theorem carries_pure (text : String) :
    Carries modifiers limit (.finish (.ok text)) chain chain (pure text : Expansion σ String) :=
  fun _ _ => .stay (List.suffix_refl _)

-- Above a frame: what comes out of a part is what the frame goes on with.
theorem Carries.above {frame : Frame} {m : Expansion σ String} {f : String → Expansion σ String}
    (h : Carries modifiers limit task before before m)
    (hf : Continues modifiers limit frame before after f) (frames : List Frame)
    (world : World σ) :
    Runs modifiers limit frames ⟨task, frame :: frames, before, world⟩
      ⟨.finish (runOn (m >>= f) world).1, frames, after, (runOn (m >>= f) world).2⟩ := by
  refine ((h (frame :: frames) world).lower (List.suffix_cons frame frames)).trans ?_
  rw [runOn_bind]
  rcases runOn m world with ⟨cause | text, next⟩
  · exact hf.error cause frames next
  · exact hf.ok text frames next

theorem Carries.framed {frame : Frame} {m : Expansion σ String} {f : String → Expansion σ String}
    (h : ∀ frames (world : World σ), Moment.next modifiers limit ⟨task, frames, before, world⟩ =
      ⟨inner, frame :: frames, before, world⟩)
    (hi : Carries modifiers limit inner before before m)
    (hf : Continues modifiers limit frame before after f) :
    Carries modifiers limit task before after (m >>= f) := by
  intro frames world
  refine .go (List.suffix_refl _) ?_
  rw [h]
  exact hi.above hf frames world

theorem Continues.of {frame : Frame} {goOn : String → Task} {f : String → Expansion σ String}
    (hok : ∀ text frames (world : World σ), Moment.next modifiers limit
      ⟨.finish (.ok text), frame :: frames, chain, world⟩ = ⟨goOn text, frames, chain, world⟩)
    (herror : ∀ cause frames (world : World σ), Moment.next modifiers limit
      ⟨.finish (.error cause), frame :: frames, chain, world⟩ =
        ⟨.finish (.error cause), frames, chain, world⟩)
    (hi : ∀ text, Carries modifiers limit (goOn text) chain chain (f text)) :
    Continues modifiers limit frame chain chain f where
  ok text frames world := by
    refine .go (List.suffix_cons _ _) ?_
    rw [hok]
    exact hi text frames world
  error cause frames world := by
    refine .go (List.suffix_cons _ _) ?_
    rw [herror]
    exact .stay (List.suffix_refl _)

end

section Render

variable {modifiers limit} {chain : List String} {lookUp : String → Expansion σ String}

theorem continues_node {rest : List Node} {choices : List Nat} {text : String}
    {m : Expansion σ String}
    (h : ∀ text, Carries modifiers limit (.write rest choices text) chain chain
      ((text ++ ·) <$> m)) :
    Continues modifiers limit (.node rest choices text) chain chain
      fun more => ((text ++ more) ++ ·) <$> m :=
  .of (fun _ _ _ => rfl) (fun _ _ _ => rfl) fun more => h (text ++ more)

omit [RandomSource σ] in
theorem append_map_bind (text : String) (m n : Expansion σ String) :
    (text ++ ·) <$> (do let more ← m; return more ++ (← n)) =
      m >>= fun more => ((text ++ more) ++ ·) <$> n := by
  simp only [map_eq_pure_bind, bind_assoc, pure_bind, String.append_assoc]

-- The text of a conditional.
variable (modifiers lookUp) in
def renderBranching (branching : Branching) : Expansion σ String := do
  let left ← renderReference modifiers lookUp branching.subject
  let right ← render modifiers lookUp branching.test
  record (.condition left right (branching.comparison.holds left right))
  render modifiers lookUp
    (if branching.comparison.holds left right then branching.whenTrue else branching.whenFalse)

theorem renderNodes_conditional (branching : Branching) (rest : List Node) (choices : List Nat) :
    renderNodes modifiers lookUp (.conditional branching :: rest) choices = (do
      let text ← renderBranching modifiers lookUp branching
      return text ++ (← renderNodes modifiers lookUp rest choices)) := by
  obtain ⟨comparison, subject, test, whenTrue, whenFalse⟩ := branching
  rw [renderNodes]
  simp only [renderBranching, render, bind_assoc]
  congr! 7
  split <;> rfl

theorem renderEach_cons (nodes : List Node) (rest : List (List Node)) :
    renderEach modifiers lookUp (nodes :: rest) = (do
      let text ← render modifiers lookUp nodes
      return text :: (← renderEach modifiers lookUp rest)) := by
  simp only [renderEach, render, bind_assoc]

theorem carries_sequence {nodes : List Node}
    (h : ∀ choices text, Carries modifiers limit (.write nodes choices text) chain chain
      ((text ++ ·) <$> renderNodes modifiers lookUp nodes choices)) :
    Carries modifiers limit (.sequence nodes) chain chain (render modifiers lookUp nodes) :=
  .part (fun _ _ => rfl) fun choices => by simpa using h choices ""

-- The symbols that a template refers to are carried out where it is.
variable (modifiers limit chain lookUp) in
abbrev Resolves : Prop :=
  ∀ name, Carries modifiers limit (.resolve name false) chain chain (lookUp name)

mutual

theorem write_carries (h : Resolves modifiers limit chain lookUp) :
    (nodes : List Node) → (choices : List Nat) → (text : String) →
    Carries modifiers limit (.write nodes choices text) chain chain
      ((text ++ ·) <$> renderNodes modifiers lookUp nodes choices)
  | [], choices, text => by
      simp only [renderNodes, map_pure, String.append_empty]
      exact .step (fun _ _ => rfl) (carries_pure text)
  | .literal more :: rest, choices, text => by
      simp only [renderNodes, bind_pure_comp, Functor.map_map, ← String.append_assoc]
      exact .step (fun _ _ => rfl) (write_carries h rest choices (text ++ more))
  | .alternation options :: rest, choices, text => by
      rw [renderNodes, append_map_bind]
      exact .framed (fun _ _ => rfl) (option_carries h options _)
        (continues_node fun text => write_carries h rest _ text)
  | .reference target :: rest, choices, text => by
      rw [renderNodes, append_map_bind]
      exact .framed (fun _ _ => rfl) (refer_carries h target)
        (continues_node fun text => write_carries h rest _ text)
  | .conditional branching :: rest, choices, text => by
      rw [renderNodes_conditional, append_map_bind]
      exact .framed (fun _ _ => rfl) (branch_carries h branching)
        (continues_node fun text => write_carries h rest _ text)

theorem option_carries (h : Resolves modifiers limit chain lookUp) :
    (options : List (List Node)) → (index : Nat) →
    Carries modifiers limit (options[index]?.elim (.finish (.ok "")) .sequence) chain chain
      (renderOption modifiers lookUp options index)
  | [], index => by
      simp only [renderOption]
      exact carries_pure ""
  | nodes :: rest, 0 => by
      simp only [renderOption]
      exact carries_sequence (write_carries h nodes)
  | nodes :: rest, index + 1 => by
      simp only [renderOption]
      exact option_carries h rest index

theorem branch_carries (h : Resolves modifiers limit chain lookUp) : (branching : Branching) →
    Carries modifiers limit (.branch branching) chain chain
      (renderBranching modifiers lookUp branching)
  | ⟨comparison, subject, test, whenTrue, whenFalse⟩ => by
      have hbranch (holds : Bool) : Carries modifiers limit
          (.sequence (if holds then whenTrue else whenFalse)) chain chain
          (render modifiers lookUp (if holds then whenTrue else whenFalse)) := by
        cases holds with
        | true => exact carries_sequence (write_carries h whenTrue)
        | false => exact carries_sequence (write_carries h whenFalse)
      refine .framed (fun _ _ => rfl) (refer_carries h subject)
        (.of (fun _ _ _ => rfl) (fun _ _ _ => rfl) fun left => ?_)
      exact .framed (fun _ _ => rfl) (carries_sequence (write_carries h test))
        (.of (fun _ _ _ => rfl) (fun _ _ _ => rfl) fun right =>
          .part (fun _ _ => rfl) fun _ => hbranch _)

theorem refer_carries (h : Resolves modifiers limit chain lookUp) : (target : Reference) →
    Carries modifiers limit (.refer target) chain chain (renderReference modifiers lookUp target)
  | ⟨name, calls⟩ => by
      simp only [renderReference]
      exact .framed (fun _ _ => rfl) (h name)
        (.of (fun _ _ _ => rfl) (fun _ _ _ => rfl) fun value => modify_carries h calls value)

theorem modify_carries (h : Resolves modifiers limit chain lookUp) :
    (calls : List Call) → (value : String) →
    Carries modifiers limit (.modify calls value) chain chain
      (applyCalls modifiers lookUp calls value)
  | [], value => by
      simp only [applyCalls]
      exact .step (fun _ _ => rfl) (carries_pure value)
  | ⟨name, arguments⟩ :: calls, value => by
      simp only [applyCalls]
      exact .step (fun _ _ => rfl)
        (gather_carries h name value arguments [] calls fun value => modify_carries h calls value)

theorem gather_carries (h : Resolves modifiers limit chain lookUp) :
    (name value : String) → (arguments : List (List Node)) →
    (texts : List String) → (calls : List Call) →
    (∀ value, Carries modifiers limit (.modify calls value) chain chain
      (applyCalls modifiers lookUp calls value)) →
    Carries modifiers limit (.gather name value arguments texts calls) chain chain (do
      let more ← renderEach modifiers lookUp arguments
      match modifiers.result? name value (texts ++ more) with
      | some output => do
        record (.modifier name value output)
        applyCalls modifiers lookUp calls output
      | none => do
        record (.undefinedModifier name)
        applyCalls modifiers lookUp calls value)
  | name, value, [], texts, calls, hcalls => by
      simp only [renderEach, pure_bind, List.append_nil]
      split
      · rename_i output houtput
        refine .part (fun _ _ => ?_) fun _ => hcalls output
        simp only [Moment.next, houtput]
      · rename_i hnone
        refine .part (fun _ _ => ?_) fun _ => hcalls value
        simp only [Moment.next, hnone]
  | name, value, nodes :: arguments, texts, calls, hcalls => by
      have hmore (text : String) :=
        gather_carries h name value arguments (texts ++ [text]) calls hcalls
      simp only [List.append_assoc, List.singleton_append] at hmore
      simp only [renderEach_cons, bind_assoc, pure_bind]
      refine .framed (fun _ _ => rfl) (carries_sequence (write_carries h nodes)) ?_
      exact .of (fun _ _ _ => rfl) (fun _ _ _ => rfl) hmore

end

end Render

section Draw

variable {modifiers limit} {chain : List String} {lookUp : String → Expansion σ String}
variable {name : String}

-- The text of a symbol once it is known which candidates are to be had.
variable (modifiers lookUp name) in
def drawFrom (mask : Option (List Bool)) : Expansion σ String := do
  match ← drawCandidate name mask with
  | some candidate => render modifiers lookUp (← templateOf candidate.body).nodes
  | none => do
    record (.exhausted name)
    return ""

-- A symbol that has been drawn gets its text.
variable (name) in
def settle (value : String) : Expansion σ String := do
  hold name value
  record (.symbol name value false)
  return value

-- Nothing can go wrong with that, and nothing happens to the other symbols, nor to the source.
omit [RandomSource σ] in
variable (name) in
theorem exists_settled (value : String) (world : World σ) :
    ∃ last : World σ, runOn (settle name value) world = (.ok value, last) ∧
      last.dice = world.dice ∧
      ∀ other, other ≠ name → last.symbols[other]? = world.symbols[other]? := by
  let told := world.journal.push (.event (.symbol name value false))
  cases hs : world.symbols[name]? with
  | none =>
      refine ⟨{ world with journal := told }, ?_, rfl, fun _ _ => rfl⟩
      rw [settle, runOn_bind, runOn_hold, hs]
      rfl
  | some symbol =>
      let symbols := world.symbols.insert name (symbol.setValue value)
      refine ⟨{ world with symbols := symbols, journal := told }, ?_, rfl, fun other ho => ?_⟩
      · rw [settle, runOn_bind, runOn_hold, hs]
        rfl
      · simp [symbols, Std.TreeMap.getElem?_insert, ho.symm]

theorem continues_leave :
    Continues (σ := σ) modifiers limit (.leave name) (chain ++ [name]) chain (settle name) where
  ok value frames world := by
    have hsettle : runOn (settle name value) world = runOn (do
        let _ ← (do hold name value; record (.symbol name value false) : Expansion σ Unit)
        return value) world := by
      simp only [settle, bind_assoc]
    refine .go (List.suffix_cons _ _) ?_
    rw [hsettle, runOn_bind]
    simp only [Moment.next, Moment.conclude, Moment.perform, List.dropLast_concat]
    rcases runOn (do hold name value; record (.symbol name value false) : Expansion σ Unit) world
      with ⟨cause | _, next⟩
    · exact .stay (List.suffix_refl _)
    · exact .stay (List.suffix_refl _)
  error cause frames world := by
    refine .go (List.suffix_cons _ _) ?_
    simp only [Moment.next, Moment.conclude, List.dropLast_concat]
    exact .stay (List.suffix_refl _)

theorem draw_carries (h : Resolves modifiers limit (chain ++ [name]) lookUp)
    (mask : Option (List Bool)) :
    Carries modifiers limit (.draw name mask) (chain ++ [name]) chain
      (drawFrom modifiers lookUp name mask >>= settle name) := by
  intro frames world
  refine .go (List.suffix_refl _) ?_
  have hleave : Continues (σ := σ) modifiers limit (.leave name) (chain ++ [name]) chain _ :=
    continues_leave
  simp only [Moment.next, Moment.perform, pickTask, drawFrom, bind_assoc]
  rw [runOn_bind, runOn_bind]
  rcases runOn (drawCandidate name mask) world with ⟨cause | _ | candidate, next⟩
  · exact hleave.error cause frames next
  · exact (carries_pure "").above hleave frames _
  · dsimp only [candidateTask]
    rw [bind_assoc, runOn_bind, runOn_bind]
    rcases runOn (templateOf candidate.body) next with ⟨cause | template, after⟩
    · exact hleave.error cause frames after
    · exact (carries_sequence (write_carries h template.nodes)).above hleave frames after

variable {rest : List Bool → Expansion σ String} {candidates : List Candidate}

-- The conditions of one candidate, in front of what is done about the others.
theorem satisfy_carries (h : Resolves modifiers limit (chain ++ [name]) lookUp)
    (hrest : ∀ mask, Carries modifiers limit (.survey name candidates mask) (chain ++ [name]) chain
      (rest mask)) (conditions : List Template) (mask : List Bool) :
    Carries modifiers limit (.satisfy name conditions candidates mask) (chain ++ [name]) chain (do
      let holds ← admits modifiers lookUp conditions
      rest (mask ++ [holds])) := by
  induction conditions with
  | nil =>
      simp only [admits, pure_bind]
      exact .step (fun _ _ => rfl) (hrest _)
  | cons condition conditions ih =>
      simp only [admits, bind_assoc]
      refine .framed (fun _ _ => rfl) (carries_sequence (write_carries h condition.nodes)) ⟨?_, ?_⟩
      · intro text frames world
        refine .go (List.suffix_cons _ _) ?_
        simp only [Moment.next, Moment.conclude, Frame.goOn]
        by_cases ht : text.isEmpty
        · simp only [ht, if_true, pure_bind]
          exact hrest _ frames world
        · simp only [ht, Bool.false_eq_true, if_false]
          exact ih frames world
      · intro cause frames world
        exact .go (List.suffix_cons _ _) (continues_leave.error cause frames world)

theorem survey_carries (h : Resolves modifiers limit (chain ++ [name]) lookUp)
    (candidates : List Candidate) (mask : List Bool) :
    Carries modifiers limit (.survey name candidates mask) (chain ++ [name]) chain (do
      let more ← candidates.mapM fun candidate => admits modifiers lookUp candidate.conditions
      drawFrom modifiers lookUp name (some (mask ++ more)) >>= settle name) := by
  induction candidates generalizing mask with
  | nil =>
      simp only [List.mapM_nil, pure_bind, List.append_nil]
      exact .step (fun _ _ => rfl) (draw_carries h (some mask))
  | cons candidate candidates ih =>
      have hsatisfy := satisfy_carries h ih candidate.conditions mask
      simp only [List.append_assoc, List.singleton_append] at hsatisfy
      simp only [List.mapM_cons, bind_assoc, pure_bind]
      exact .step (fun _ _ => rfl) hsatisfy

-- From the eligible candidates of a symbol on.
theorem opened_carries (h : Resolves modifiers limit (chain ++ [name]) lookUp) (symbol : Symbol) :
    Carries modifiers limit
      (if symbol.hasConditions then .survey name symbol.candidates [] else .draw name none)
      (chain ++ [name]) chain (do
        let mask ← eligibility modifiers lookUp symbol
        drawFrom modifiers lookUp name mask >>= settle name) := by
  unfold eligibility
  split
  · have hsurvey := survey_carries h symbol.candidates []
    simp only [List.nil_append] at hsurvey
    simp only [map_eq_pure_bind, bind_assoc, pure_bind]
    exact hsurvey
  · simp only [pure_bind]
    exact draw_carries h none

theorem runOn_drawText_settle {world : World σ} {symbol : Symbol}
    (hs : world.symbols[name]? = some symbol) :
    runOn (do settle name (← drawText modifiers lookUp name)) world = runOn (do
      let mask ← eligibility modifiers lookUp symbol
      drawFrom modifiers lookUp name mask >>= settle name) world := by
  rw [runOn_bind, runOn_drawText]
  simp only [hs]
  rw [← runOn_bind, bind_assoc]
  rfl

-- A look-up that is carried out step by step comes to the text, or the failure, that it comes to
-- at once. In particular it comes to an end.
theorem lookUp_carries (budget : Nat) (chain : List String) (hb : chain.length + budget = limit)
    (name : String) (force : Bool) :
    Carries (σ := σ) modifiers limit (.resolve name force) chain chain
      (Expansion.lookUp modifiers limit budget chain force name) := by
  intro frames world
  refine .go (List.suffix_refl _) ?_
  rw [runOn_lookUp]
  simp only [Moment.next, Moment.resolve]
  cases hs : world.symbols[name]? with
  | none => exact .stay (List.suffix_refl _)
  | some symbol =>
      dsimp only
      cases hv : (if force then none else symbol.value) with
      | some value => exact .stay (List.suffix_refl _)
      | none =>
          dsimp only
          by_cases hm : name ∈ chain
          · simp only [hm, if_true]
            exact .stay (List.suffix_refl _)
          · simp only [hm, if_false]
            cases budget with
            | zero =>
                have hl : limit ≤ chain.length := by omega
                simp only [hl, if_true]
                exact .stay (List.suffix_refl _)
            | succ budget =>
                have hl : ¬limit ≤ chain.length := by omega
                have hinner : Resolves (σ := σ) modifiers limit (chain ++ [name])
                    (Expansion.lookUp modifiers limit budget (chain ++ [name]) false) :=
                  fun other => lookUp_carries budget (chain ++ [name])
                    (by simp only [List.length_append, List.length_singleton]; omega) other false
                simp only [hl, if_false]
                -- what has been written down meanwhile does not concern the symbol
                have hopened : ({ world with
                    journal := world.journal.push (.opened (chain ++ [name])) } : World σ).symbols[name]? =
                      some symbol := hs
                have hdraw := opened_carries hinner symbol frames
                  { world with journal := world.journal.push (.opened (chain ++ [name])) }
                rw [← runOn_drawText_settle hopened] at hdraw
                exact hdraw
termination_by budget

end Draw

end StoryGrammar.Expansion
