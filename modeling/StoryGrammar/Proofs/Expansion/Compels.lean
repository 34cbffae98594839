import StoryGrammar.Proofs.Expansion.Keeps

namespace StoryGrammar

namespace Template

mutual

-- Whether nodes cannot come out as text without a look at a symbol of the name: they refer to it
-- outside of any choice, in all that a choice may come to, or in the arguments of a call.
def Node.compels (name : String) : List Node → Bool
  | [] => false
  | .literal _ :: rest => Node.compels name rest
  | .alternation options :: rest =>
    (!options.isEmpty && Node.compelsEach name options) || Node.compels name rest
  | .reference target :: rest => target.compels name || Node.compels name rest
  | .conditional ⟨_, subject, test, whenTrue, whenFalse⟩ :: rest =>
    subject.compels name || Node.compels name test ||
      (Node.compels name whenTrue && Node.compels name whenFalse) || Node.compels name rest

def Node.compelsEach (name : String) : List (List Node) → Bool
  | [] => true
  | nodes :: rest => Node.compels name nodes && Node.compelsEach name rest

def Node.compelsSome (name : String) : List (List Node) → Bool
  | [] => false
  | nodes :: rest => Node.compels name nodes || Node.compelsSome name rest

def Reference.compels (name : String) : Reference → Bool
  | ⟨other, calls⟩ => other == name || Call.compels name calls

def Call.compels (name : String) : List Call → Bool
  | [] => false
  | ⟨_, arguments⟩ :: rest => Node.compelsSome name arguments || Call.compels name rest

end

-- Each choice among options that there are gives one of them.
def Settled : List Node → List Nat → Prop
  | [], _ => True
  | .alternation options :: rest, choices =>
    (options ≠ [] → choices.headD 0 < options.length) ∧ Settled rest choices.tail
  | _ :: rest, choices => Settled rest choices

end Template

namespace Expansion

open Template (Node Reference Call Settled)

variable {σ α β : Type} {I : World σ → Prop} {E : GrammarError → Prop}

-- An expansion that comes to nothing wherever `I` holds.
def Blocked (I : World σ → Prop) (m : Expansion σ α) : Prop :=
  ∀ world, I world → ∀ a, (runOn m world).1 ≠ .ok a

theorem Blocked.bind_left {m : Expansion σ α} (h : Blocked I m) (f : α → Expansion σ β) :
    Blocked I (m >>= f) := by
  intro world hi b hb
  obtain ⟨a, next, hr, -⟩ := runOn_bind_eq_ok_iff.mp hb
  exact h world hi a (by rw [hr])

-- What comes first leads to something that is blocked.
theorem blocked_bind {m : Expansion σ α} {f : α → Expansion σ β} {P : α → Prop}
    (hm : ∀ world a next, I world → runOn m world = (.ok a, next) → I next ∧ P a)
    (hf : ∀ a, P a → Blocked I (f a)) : Blocked I (m >>= f) := by
  intro world hi b hb
  obtain ⟨a, next, hr, hb⟩ := runOn_bind_eq_ok_iff.mp hb
  obtain ⟨hnext, hp⟩ := hm world a next hi hr
  exact hf a hp next hnext b hb

theorem Keeps.blocked_bind {m : Expansion σ α} {f : α → Expansion σ β} (hm : Keeps I E m)
    (hf : ∀ a, Blocked I (f a)) : Blocked I (m >>= f) := by
  refine Expansion.blocked_bind (P := fun _ => True) (fun world a next hi hr => ⟨?_, trivial⟩)
    fun a _ => hf a
  have hnext := (hm world hi).1
  rwa [hr] at hnext

theorem blocked_mapM {f : α → Expansion σ β} {items : List α}
    (hk : ∀ a ∈ items, Keeps I E (f a)) (h : ∃ a ∈ items, Blocked I (f a)) :
    Blocked I (items.mapM f) := by
  induction items with
  | nil => simp at h
  | cons first items ih =>
      rw [List.mapM_cons]
      obtain ⟨a, ha, hb⟩ := h
      rcases List.mem_cons.mp ha with rfl | ha
      · exact hb.bind_left _
      · refine (hk first (by simp)).blocked_bind fun b => ?_
        exact (ih (fun other ho => hk other (by simp [ho])) ⟨a, ha, hb⟩).bind_left _

section Render

variable [RandomSource σ] (modifiers : Modifiers) {lookUp : String → Expansion σ String}

-- Nothing that a template does by itself disturbs `I`, and neither does any look-up.
structure Sheltered (I : World σ → Prop) (E : GrammarError → Prop)
    (lookUp : String → Expansion σ String) : Prop
    extends TemplateRules I E (fun _ => True) (fun _ => True) where
  lookUp (name : String) : Keeps I E (lookUp name)

theorem throughout_offersIn (nodes : List Node) :
    Node.Throughout (OffersIn fun _ => True) nodes :=
  ⟨by simp [OffersIn], by simp [Node.Inside, OffersIn]⟩

section Keeps

variable (rules : Sheltered I E lookUp)

include rules

theorem Sheltered.meets (target : Reference) :
    Meets (fun _ m m' => m = m' ∧ Keeps I E m) modifiers lookUp lookUp (fun _ => True) target :=
  ⟨⟨rfl, rules.lookUp target.name⟩, fun _ _ _ => trivial⟩

theorem Sheltered.choose (nodes : List Node) : Keeps I E (choose nodes) :=
  (choose_related rules.relatesIn nodes fun _ _ => trivial).2

theorem Sheltered.renderNodes (nodes : List Node) (choices : List Nat) :
    Keeps I E (renderNodes modifiers lookUp nodes choices) :=
  (renderNodes_related modifiers rules.relatesIn nodes choices
    (fun target _ => rules.meets modifiers target) (throughout_offersIn nodes).2).2

theorem Sheltered.render (nodes : List Node) : Keeps I E (render modifiers lookUp nodes) :=
  keeps_bind (rules.choose nodes) (rules.renderNodes modifiers nodes)

theorem Sheltered.renderOption (options : List (List Node)) (index : Nat) :
    Keeps I E (renderOption modifiers lookUp options index) :=
  (renderOption_related modifiers rules.relatesIn options index
    (fun target _ => rules.meets modifiers target) fun nodes _ => throughout_offersIn nodes).2

theorem Sheltered.renderReference (target : Reference) :
    Keeps I E (renderReference modifiers lookUp target) :=
  (renderReference_related modifiers rules.relatesIn target
    (fun inner _ => rules.meets modifiers inner)
    fun _ _ nodes _ => throughout_offersIn nodes).2

theorem Sheltered.renderEach (sequences : List (List Node)) :
    Keeps I E (renderEach modifiers lookUp sequences) :=
  (renderEach_related modifiers rules.relatesIn sequences
    (fun target _ => rules.meets modifiers target) fun nodes _ => throughout_offersIn nodes).2

theorem Sheltered.admits (conditions : List Template) :
    Keeps I E (admits modifiers lookUp conditions) :=
  (admits_related modifiers rules.relatesIn conditions fun _ _ =>
    asksIn_of_refersIn fun target _ => rules.meets modifiers target).2

theorem Sheltered.eligibility (symbol : Symbol) :
    Keeps I E (eligibility modifiers lookUp symbol) :=
  keeps_eligibility modifiers rules.toTemplateRules symbol fun _ _ _ _ =>
    asksIn_of_refersIn fun target _ => ⟨rules.lookUp target.name, fun _ _ _ => trivial⟩

end Keeps

section Ranged

variable [RangedSource σ]

-- The choices for a sequence lie in the range of its alternations.
theorem settled_of_choose (nodes : List Node) {world : World σ} {choices : List Nat}
    (h : (runOn (choose nodes) world).1 = .ok choices) : Settled nodes choices := by
  induction nodes generalizing world choices with
  | nil => trivial
  | cons node rest ih =>
      cases node with
      | literal _ | reference _ | conditional _ => exact ih h
      | alternation options =>
          let chosen := (Roll.uniform options.length).run world.dice
          have hchoose : runOn (choose (.alternation options :: rest)) world =
              runOn (do return chosen.1 :: (← choose rest)) { world with
                dice := chosen.2
                journal := world.journal.push (.event (.alternation options.length chosen.1)) } :=
            rfl
          rw [hchoose] at h
          obtain ⟨more, next, hr, hmore⟩ := runOn_bind_eq_ok_iff.mp h
          obtain rfl := Except.ok.inj hmore
          refine ⟨fun hne => ?_, ih (congrArg Prod.fst hr)⟩
          exact RangedSource.pickUniform_lt _ _ (List.length_pos_iff.mpr hne)

variable (rules : Sheltered I E lookUp)

include rules

theorem Sheltered.blocked_choose (nodes : List Node) {f : List Nat → Expansion σ α}
    (hf : ∀ choices, Settled nodes choices → Blocked I (f choices)) :
    Blocked I (Expansion.choose nodes >>= f) := by
  refine blocked_bind (fun world choices next hi hr => ?_) hf
  have hnext := (rules.choose nodes world hi).1
  rw [hr] at hnext
  exact ⟨hnext, settled_of_choose nodes (congrArg Prod.fst hr)⟩

end Ranged

section

variable {name : String}

mutual

-- Where the symbol of a name gives no text, neither does a template that cannot do without it.
theorem blocked_renderNodes [RangedSource σ] (rules : Sheltered I E lookUp)
    (hb : Blocked I (lookUp name)) :
    (nodes : List Node) → (choices : List Nat) → Node.compels name nodes = true →
      Settled nodes choices → Blocked I (renderNodes modifiers lookUp nodes choices)
  | [], choices, h, hs => by simp [Node.compels] at h
  | .literal text :: rest, choices, h, hs => by
      simp only [renderNodes]
      exact (blocked_renderNodes rules hb rest choices h hs).bind_left _
  | .alternation options :: rest, choices, h, hs => by
      simp only [renderNodes]
      obtain ⟨hlt, hs⟩ := hs
      rw [Node.compels, Bool.or_eq_true, Bool.and_eq_true] at h
      rcases h with ⟨hne, heach⟩ | h
      · have hlt := hlt (by simpa using hne)
        exact (blocked_renderOption rules hb options _ hlt heach).bind_left _
      · refine (rules.renderOption modifiers options _).blocked_bind fun text => ?_
        exact (blocked_renderNodes rules hb rest _ h hs).bind_left _
  | .reference target :: rest, choices, h, hs => by
      simp only [renderNodes]
      rw [Node.compels, Bool.or_eq_true] at h
      rcases h with h | h
      · exact (blocked_renderReference rules hb target h).bind_left _
      · refine (rules.renderReference modifiers target).blocked_bind fun text => ?_
        exact (blocked_renderNodes rules hb rest _ h hs).bind_left _
  | .conditional ⟨comparison, subject, test, whenTrue, whenFalse⟩ :: rest, choices, h, hs => by
      simp only [renderNodes]
      simp only [Node.compels, Bool.or_eq_true, Bool.and_eq_true] at h
      by_cases hsubject : subject.compels name = true
      · exact (blocked_renderReference rules hb subject hsubject).bind_left _
      refine (rules.renderReference modifiers subject).blocked_bind fun left => ?_
      by_cases htest : Node.compels name test = true
      · exact rules.blocked_choose test fun picks hp =>
          (blocked_renderNodes rules hb test picks htest hp).bind_left _
      refine (rules.choose test).blocked_bind fun picks => ?_
      refine (rules.renderNodes modifiers test picks).blocked_bind fun right => ?_
      refine Keeps.blocked_bind (rules.record (by trivial)) fun _ => ?_
      rcases h with ((h | h) | ⟨htrue, hfalse⟩) | h
      · exact absurd h hsubject
      · exact absurd h htest
      · split
        · exact Blocked.bind_left (rules.blocked_choose whenTrue fun picks hp =>
            blocked_renderNodes rules hb whenTrue picks htrue hp) _
        · exact Blocked.bind_left (rules.blocked_choose whenFalse fun picks hp =>
            blocked_renderNodes rules hb whenFalse picks hfalse hp) _
      · split
        · refine (rules.render modifiers whenTrue).blocked_bind fun text => ?_
          exact (blocked_renderNodes rules hb rest _ h hs).bind_left _
        · refine (rules.render modifiers whenFalse).blocked_bind fun text => ?_
          exact (blocked_renderNodes rules hb rest _ h hs).bind_left _

theorem blocked_renderOption [RangedSource σ] (rules : Sheltered I E lookUp)
    (hb : Blocked I (lookUp name)) :
    (options : List (List Node)) → (index : Nat) → index < options.length →
      Node.compelsEach name options = true →
      Blocked I (renderOption modifiers lookUp options index)
  | [], index, hlt, h => by simp at hlt
  | nodes :: rest, 0, hlt, h => by
      simp only [renderOption]
      rw [Node.compelsEach, Bool.and_eq_true] at h
      exact rules.blocked_choose nodes fun choices hs =>
        blocked_renderNodes rules hb nodes choices h.1 hs
  | nodes :: rest, index + 1, hlt, h => by
      simp only [renderOption]
      rw [Node.compelsEach, Bool.and_eq_true] at h
      exact blocked_renderOption rules hb rest index (by simpa using hlt) h.2

theorem blocked_renderReference [RangedSource σ] (rules : Sheltered I E lookUp)
    (hb : Blocked I (lookUp name)) :
    (target : Reference) → target.compels name = true →
      Blocked I (renderReference modifiers lookUp target)
  | ⟨other, calls⟩, h => by
      simp only [renderReference]
      rw [Reference.compels, Bool.or_eq_true, beq_iff_eq] at h
      rcases h with rfl | h
      · exact hb.bind_left _
      · exact (rules.lookUp other).blocked_bind fun value =>
          blocked_applyCalls rules hb calls value h

theorem blocked_applyCalls [RangedSource σ] (rules : Sheltered I E lookUp)
    (hb : Blocked I (lookUp name)) :
    (calls : List Call) → (value : String) → Call.compels name calls = true →
      Blocked I (applyCalls modifiers lookUp calls value)
  | [], value, h => by simp [Call.compels] at h
  | ⟨other, arguments⟩ :: rest, value, h => by
      simp only [applyCalls]
      rw [Call.compels, Bool.or_eq_true] at h
      rcases h with h | h
      · exact (blocked_renderEach rules hb arguments h).bind_left _
      · refine (rules.renderEach modifiers arguments).blocked_bind fun texts => ?_
        split
        · exact Keeps.blocked_bind (rules.record trivial) fun _ =>
            blocked_applyCalls rules hb rest _ h
        · exact Keeps.blocked_bind (rules.record trivial) fun _ =>
            blocked_applyCalls rules hb rest _ h

theorem blocked_renderEach [RangedSource σ] (rules : Sheltered I E lookUp)
    (hb : Blocked I (lookUp name)) :
    (sequences : List (List Node)) → Node.compelsSome name sequences = true →
      Blocked I (renderEach modifiers lookUp sequences)
  | [], h => by simp [Node.compelsSome] at h
  | nodes :: rest, h => by
      simp only [renderEach]
      rw [Node.compelsSome, Bool.or_eq_true] at h
      rcases h with h | h
      · exact rules.blocked_choose nodes fun choices hs =>
          (blocked_renderNodes rules hb nodes choices h hs).bind_left _
      · refine (rules.choose nodes).blocked_bind fun choices => ?_
        refine (rules.renderNodes modifiers nodes choices).blocked_bind fun text => ?_
        exact (blocked_renderEach rules hb rest h).bind_left _

end

variable [RangedSource σ] (rules : Sheltered I E lookUp) (hb : Blocked I (lookUp name))

include rules hb

theorem blocked_render {nodes : List Node} (h : Node.compels name nodes = true) :
    Blocked I (render modifiers lookUp nodes) :=
  rules.blocked_choose nodes fun choices hs =>
    blocked_renderNodes modifiers rules hb nodes choices h hs

-- The first condition of a candidate is tried in any case.
theorem blocked_eligibility {symbol : Symbol}
    (h : ∃ candidate ∈ symbol.candidates, ∃ condition ∈ candidate.conditions.head?,
      Node.compels name condition.nodes = true) :
    Blocked I (eligibility modifiers lookUp symbol) := by
  obtain ⟨candidate, hc, condition, hhead, hcompels⟩ := h
  have hconditions : symbol.hasConditions = true := by
    refine List.any_eq_true.mpr ⟨candidate, hc, ?_⟩
    cases hl : candidate.conditions with
    | nil => simp [hl] at hhead
    | cons first rest => rfl
  rw [eligibility, if_pos hconditions, map_eq_pure_bind]
  refine Blocked.bind_left (blocked_mapM (fun other _ => rules.admits modifiers other.conditions)
    ⟨candidate, hc, ?_⟩) _
  cases hl : candidate.conditions with
  | nil => simp [hl] at hhead
  | cons first rest =>
      rw [hl, List.head?_cons, Option.mem_some_iff] at hhead
      subst hhead
      rw [admits]
      exact (blocked_render modifiers rules hb hcompels).bind_left _

end

omit [RandomSource σ] in
-- What each item of a list has come to is found in its place. The items before it come first, and
-- those behind it go on where it has ended.
theorem exists_run_of_mapM {f : α → Expansion σ β} {items : List α} {results : List β}
    {world last : World σ} (h : runOn (items.mapM f) world = (.ok results, last)) {index : Nat}
    {a : α} (ha : items[index]? = some a) :
    ∃ b before after earlier later, results[index]? = some b ∧
      runOn ((items.take index).mapM f) world = (.ok earlier, before) ∧
      runOn (f a) before = (.ok b, after) ∧
      runOn ((items.drop (index + 1)).mapM f) after = (.ok later, last) := by
  induction items generalizing world results index with
  | nil => simp at ha
  | cons first items ih =>
      rw [List.mapM_cons] at h
      obtain ⟨b, middle, hf, h⟩ := runOn_bind_eq_iff.mp h
      obtain ⟨more, next, hr, h⟩ := runOn_bind_eq_iff.mp h
      obtain ⟨rfl, rfl⟩ : b :: more = results ∧ next = last := by simpa using h
      cases index with
      | zero =>
          obtain rfl : first = a := by simpa using ha
          exact ⟨b, world, middle, [], more, rfl, rfl, hf, hr⟩
      | succ index =>
          obtain ⟨c, before, after, earlier, later, hc, hearlier, hrun, hlater⟩ := ih hr ha
          refine ⟨c, before, after, b :: earlier, later, hc, ?_, hrun, hlater⟩
          rw [List.take_succ_cons, List.mapM_cons]
          refine runOn_bind_eq_iff.mpr ⟨b, middle, hf, ?_⟩
          exact runOn_bind_eq_iff.mpr ⟨earlier, before, hearlier, rfl⟩

theorem runOn_mapM_admits_nil {candidates : List Candidate} (world : World σ)
    (h : ∀ candidate ∈ candidates, candidate.conditions = []) :
    runOn (candidates.mapM fun candidate => admits modifiers lookUp candidate.conditions) world =
      (.ok (List.replicate candidates.length true), world) := by
  induction candidates with
  | nil => rfl
  | cons first candidates ih =>
      have hrest := ih fun candidate hc => h candidate (by simp [hc])
      rw [List.mapM_cons, h first (by simp)]
      exact runOn_bind_eq_iff.mpr
        ⟨true, world, rfl, runOn_bind_eq_iff.mpr ⟨_, world, hrest, rfl⟩⟩

-- A mask says of each candidate whether its conditions hold, also where there is none because there
-- are no conditions.
theorem exists_marks_of_eligibility {symbol : Symbol} {mask : Option (List Bool)}
    {world next : World σ}
    (h : runOn (eligibility modifiers lookUp symbol) world = (.ok mask, next)) :
    ∃ marks, runOn (symbol.candidates.mapM fun candidate =>
        admits modifiers lookUp candidate.conditions) world = (.ok marks, next) ∧
      ∀ index < symbol.candidates.length,
        Sampler.allows mask index = (marks[index]? == some true) := by
  rw [eligibility] at h
  split at h
  · rw [map_eq_pure_bind] at h
    obtain ⟨marks, middle, hmarks, h⟩ := runOn_bind_eq_iff.mp h
    obtain ⟨rfl, rfl⟩ : some marks = mask ∧ middle = next := by simpa using h
    exact ⟨marks, hmarks, fun _ _ => rfl⟩
  · rename_i hnone
    obtain ⟨rfl, rfl⟩ : none = mask ∧ world = next := by simpa using h
    refine ⟨_, runOn_mapM_admits_nil modifiers world fun candidate hc => ?_, fun index hi => ?_⟩
    · by_contra hne
      exact hnone (List.any_eq_true.mpr ⟨candidate, hc, by simpa using hne⟩)
    · simp [Sampler.allows, hi]

-- A candidate without conditions may be drawn.
theorem allows_of_eligibility {symbol : Symbol} {mask : Option (List Bool)} {world : World σ}
    (h : (runOn (eligibility modifiers lookUp symbol) world).1 = .ok mask) {index : Nat}
    {candidate : Candidate} (hc : symbol.candidates[index]? = some candidate)
    (hn : candidate.conditions = []) : Sampler.allows mask index = true := by
  obtain ⟨marks, hmarks, hallows⟩ := exists_marks_of_eligibility modifiers (Prod.ext h rfl)
  obtain ⟨mark, _, _, _, _, hmark, -, hrun, -⟩ := exists_run_of_mapM hmarks hc
  rw [hn] at hrun
  obtain rfl := Except.ok.inj (congrArg Prod.fst hrun)
  rw [hallows index (List.getElem?_eq_some_iff.mp hc).1, hmark]
  rfl

end Render

end Expansion

end StoryGrammar
