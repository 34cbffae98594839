import StoryGrammar.Proofs.Expansion.Related

namespace StoryGrammar

namespace Candidate

-- A name that the candidate may lead to when it is drawn: one in its conditions, or one in a text
-- that it may turn out to have.
def Mentions (candidate : Candidate) (name : String) : Prop :=
  (∃ condition ∈ candidate.conditions, ∃ target ∈ condition.references, target.name = name) ∨
    ∃ template calls, (candidate.body.template calls).1 = .ok template ∧
      ∃ target ∈ template.references, target.name = name

-- A sequence of nodes that the candidate may lead to: a condition, or a text that it may turn out
-- to have.
def Renders (candidate : Candidate) (nodes : List Template.Node) : Prop :=
  (∃ condition ∈ candidate.conditions, condition.nodes = nodes) ∨
    ∃ template calls, (candidate.body.template calls).1 = .ok template ∧ template.nodes = nodes

theorem mentions_iff {candidate : Candidate} {name : String} : candidate.Mentions name ↔
    ∃ nodes, candidate.Renders nodes ∧ ∃ target ∈ Template.Node.references nodes,
      target.name = name := by
  constructor
  · rintro (⟨condition, hc, ht⟩ | ⟨template, calls, hp, ht⟩)
    · exact ⟨_, .inl ⟨condition, hc, rfl⟩, ht⟩
    · exact ⟨_, .inr ⟨template, calls, hp, rfl⟩, ht⟩
  · rintro ⟨nodes, ⟨condition, hc, rfl⟩ | ⟨template, calls, hp, rfl⟩, ht⟩
    · exact .inl ⟨condition, hc, ht⟩
    · exact .inr ⟨template, calls, hp, ht⟩

end Candidate

namespace Expansion

open Template (Node Reference Call)

variable {σ α β : Type}

-- An expansion that starts where `I` holds ends where `I` holds, also when it fails, and it fails
-- only for a cause in `E`.
def Keeps (I : World σ → Prop) (E : GrammarError → Prop) (m : Expansion σ α) : Prop :=
  ∀ world, I world → I (runOn m world).2 ∧ ∀ cause, (runOn m world).1 = .error cause → E cause

section Parts

variable {I : World σ → Prop} {E : GrammarError → Prop}

theorem keeps_pure (a : α) : Keeps I E (pure a : Expansion σ α) :=
  fun _ h => ⟨h, by simp⟩

theorem bind_keeps {m : Expansion σ α} {f : α → Expansion σ β} {world : World σ}
    (hm : I (runOn m world).2 ∧ ∀ cause, (runOn m world).1 = .error cause → E cause)
    (hf : ∀ a, Keeps I E (f a)) :
    I (runOn (m >>= f) world).2 ∧ ∀ cause, (runOn (m >>= f) world).1 = .error cause → E cause := by
  obtain ⟨hnext, hcause⟩ := hm
  rw [runOn_bind]
  cases hr : runOn m world with
  | mk result next =>
      rw [hr] at hnext hcause
      cases result with
      | ok a => exact hf a next hnext
      | error cause => exact ⟨hnext, fun other ho => hcause other (by simpa using ho)⟩

theorem keeps_bind {m : Expansion σ α} {f : α → Expansion σ β} (hm : Keeps I E m)
    (hf : ∀ a, Keeps I E (f a)) : Keeps I E (m >>= f) :=
  fun world hi => bind_keeps (hm world hi) hf

theorem keeps_compositional :
    Compositional (σ := σ) fun _ m m' => m = m' ∧ Keeps I E m where
  pure a := ⟨rfl, keeps_pure a⟩
  bind := fun ⟨hm, hk⟩ hf =>
    ⟨by rw [hm, funext fun a => (hf a).1], keeps_bind hk fun a => (hf a).2⟩

theorem keeps_note {step : Step}
    (h : ∀ world : World σ, I world → I { world with journal := world.journal.push step }) :
    Keeps I E (note step : Expansion σ Unit) :=
  fun world hi => ⟨h world hi, by simp⟩

theorem keeps_roll {question : Roll σ α}
    (h : ∀ world, I world → I { world with dice := (question.run world.dice).2 }) :
    Keeps I E (roll question) :=
  fun world hi => ⟨h world hi, by simp⟩

variable [RandomSource σ] {Unknown : String → Prop} {Offered : Nat → Prop}

-- What a template does by itself, apart from looking symbols up.
structure TemplateRules (I : World σ → Prop) (E : GrammarError → Prop) (Unknown : String → Prop)
    (Offered : Nat → Prop) : Prop where
  record {event : Event} : FromTemplate Unknown event → Keeps I E (record event)
  pick {count : Nat} : Offered count → Keeps I E (roll (Roll.uniform count))

theorem TemplateRules.relatesIn (rules : TemplateRules (σ := σ) I E Unknown Offered) :
    RelatesIn (σ := σ) Unknown Offered fun _ m m' => m = m' ∧ Keeps I E m where
  toCompositional := keeps_compositional
  record h := ⟨rfl, rules.record h⟩
  pick h := ⟨rfl, rules.pick h⟩

variable (modifiers : Modifiers) {lookUp : String → Expansion σ String}

theorem keeps_render (rules : TemplateRules (σ := σ) I E Unknown Offered) (nodes : List Node)
    (h : AsksIn modifiers (fun name => Keeps I E (lookUp name)) Unknown Offered nodes) :
    Keeps I E (render modifiers lookUp nodes) :=
  (render_related modifiers rules.relatesIn nodes (h.mono fun _ hk => ⟨rfl, hk⟩)).2

theorem keeps_eligibility (rules : TemplateRules (σ := σ) I E Unknown Offered) (symbol : Symbol)
    (h : ∀ candidate ∈ symbol.candidates, ∀ nodes, candidate.Renders nodes →
      AsksIn modifiers (fun name => Keeps I E (lookUp name)) Unknown Offered nodes) :
    Keeps I E (eligibility modifiers lookUp symbol) :=
  (eligibility_related modifiers rules.relatesIn symbol fun candidate hc condition hd =>
    (h candidate hc _ (.inl ⟨condition, hd, rfl⟩)).mono fun _ hk => ⟨rfl, hk⟩).2

theorem keeps_renderCandidate (rules : TemplateRules (σ := σ) I E Unknown Offered)
    (candidate : Candidate)
    (h : ∀ nodes, candidate.Renders nodes →
      AsksIn modifiers (fun name => Keeps I E (lookUp name)) Unknown Offered nodes)
    (hi : ∀ (world : World σ) (calls : CallCounts), I world → I { world with calls })
    (hE : ∀ calls cause, (candidate.body.template calls).1 = .error cause → E (.template cause)) :
    Keeps I E (do render modifiers lookUp (← templateOf candidate.body).nodes) := by
  intro world hw
  rw [runOn_bind, runOn_templateOf]
  cases ht : (candidate.body.template world.calls).1 with
  | error cause =>
      refine ⟨hi _ _ hw, fun other ho => ?_⟩
      obtain rfl : GrammarError.template cause = other := Except.error.inj ho
      exact hE _ _ ht
  | ok template =>
      exact keeps_render modifiers rules _ (h _ (.inr ⟨template, _, ht, rfl⟩)) _ (hi _ _ hw)

-- Drawing a text tries the conditions, takes out a candidate, and writes its text.
theorem drawText_keeps (rules : TemplateRules (σ := σ) I E Unknown Offered) {name : String}
    {before : World σ} (hi : I before)
    (hasks : ∀ (world : World σ) symbol, I world → world.symbols[name]? = some symbol →
      ∀ candidate ∈ symbol.candidates, ∀ nodes, candidate.Renders nodes →
        AsksIn modifiers (fun name => Keeps I E (lookUp name)) Unknown Offered nodes)
    (hdrawn : ∀ symbol mask world later, before.symbols[name]? = some symbol →
      runOn (eligibility modifiers lookUp symbol) before = (.ok mask, world) → I world →
      world.symbols[name]? = some later → I (drawn world name later mask))
    (hexhausted : Keeps (σ := σ) I E (record (.exhausted name)))
    (hcalls : ∀ (world : World σ) (calls : CallCounts), I world → I { world with calls })
    (hE : ∀ (world : World σ) symbol, I world → world.symbols[name]? = some symbol →
      ∀ candidate ∈ symbol.candidates, ∀ calls cause,
        (candidate.body.template calls).1 = .error cause → E (.template cause)) :
    I (runOn (drawText modifiers lookUp name) before).2 ∧
      ∀ cause, (runOn (drawText modifiers lookUp name) before).1 = .error cause → E cause := by
  rw [runOn_drawText]
  cases hs : before.symbols[name]? with
  | none => exact ⟨hi, by simp⟩
  | some symbol =>
      obtain ⟨hworld, hcause⟩ :=
        keeps_eligibility modifiers rules symbol (hasks before symbol hi hs) before hi
      dsimp only
      rw [runOn_bind]
      rcases hr : runOn (eligibility modifiers lookUp symbol) before with ⟨cause | mask, world⟩
      · rw [hr] at hworld hcause
        exact ⟨hworld, fun other ho => hcause other (by simpa using ho)⟩
      · rw [hr] at hworld
        dsimp only at hworld ⊢
        -- the conditions may have changed the symbol, so what is drawn from is looked at anew
        rw [runOn_bind, runOn_drawCandidate]
        cases hl : world.symbols[name]? with
        | none => exact keeps_bind hexhausted (fun _ => keeps_pure "") world hworld
        | some later =>
            dsimp only
            have hnext := hdrawn symbol mask world later hs hr hworld hl
            cases hc : ((later.sampler.draw later.weights mask).run world.dice).1.1.bind
                (later.candidates[·]?) with
            | none => exact keeps_bind hexhausted (fun _ => keeps_pure "") _ hnext
            | some candidate =>
                obtain ⟨index, -, hget⟩ := Option.bind_eq_some_iff.mp hc
                have hmem := List.mem_of_getElem? hget
                exact keeps_renderCandidate modifiers rules candidate
                  (hasks world later hworld hl candidate hmem) hcalls
                  (hE world later hworld hl candidate hmem) _ hnext

theorem keeps_draw (rules : TemplateRules (σ := σ) I E Unknown Offered) {name : String}
    (hasks : ∀ (world : World σ) symbol, I world → world.symbols[name]? = some symbol →
      ∀ candidate ∈ symbol.candidates, ∀ nodes, candidate.Renders nodes →
        AsksIn modifiers (fun name => Keeps I E (lookUp name)) Unknown Offered nodes)
    (hdrawn : ∀ world symbol mask, I world → world.symbols[name]? = some symbol →
      I (drawn world name symbol mask))
    (hexhausted : Keeps (σ := σ) I E (record (.exhausted name)))
    (hcalls : ∀ (world : World σ) (calls : CallCounts), I world → I { world with calls })
    (hE : ∀ (world : World σ) symbol, I world → world.symbols[name]? = some symbol →
      ∀ candidate ∈ symbol.candidates, ∀ calls cause,
        (candidate.body.template calls).1 = .error cause → E (.template cause)) :
    Keeps I E (drawText modifiers lookUp name) :=
  fun _ hi => drawText_keeps modifiers rules hi hasks
    (fun _ mask world later _ _ hw hl => hdrawn world later mask hw hl) hexhausted hcalls hE

end Parts

-- How a mask has come about when a symbol is drawn from: the symbol was opened, and the conditions of
-- its candidates were tried next.
inductive Surveyed [RandomSource σ] (modifiers : Modifiers) (I : World σ → Prop) (limit : Nat)
    (name : String) (mask : Option (List Bool)) (world : World σ) : Prop
  | intro {active : List String} {budget : Nat} {before : World σ} {symbol : Symbol} :
      (active ++ [name]).length + budget = limit → I before →
      before.journal.back? = some (.opened (active ++ [name])) →
      before.symbols[name]? = some symbol →
      runOn (eligibility modifiers (lookUp modifiers limit budget (active ++ [name]) false) symbol)
        before = (.ok mask, world) → Surveyed modifiers I limit name mask world

-- What makes an expansion keep `I`, one rule for each thing that it may do. A name is only looked
-- up where it has been reached: from outside, or through a candidate of the innermost symbol that is
-- being drawn. Only symbols that are drawable are drawn.
structure LookUpRules [RandomSource σ] (modifiers : Modifiers) (I : World σ → Prop)
    (E : GrammarError → Prop) (limit : Nat) (Reached : List String → String → Prop)
    (Drawable : String → Prop) (Unknown : String → Prop) (Offered : Nat → Prop) : Prop
    extends TemplateRules I E Unknown Offered where
  missing {world : World σ} {active : List String} {name : String} : I world →
    Reached active name → world.symbols[name]? = none →
    I { world with journal := world.journal.push (.event (.undefinedSymbol name)) }
  held {world : World σ} {name value : String} {symbol : Symbol} : I world →
    world.symbols[name]? = some symbol → symbol.value = some value →
    I { world with journal := world.journal.push (.event (.symbol name value true)) }
  recursion {active : List String} {name : String} : Reached active name → name ∈ active →
    E (.recursion name (active ++ [name]))
  depthExceeded {world : World σ} {active : List String} {name : String} {symbol : Symbol} :
    I world → world.symbols[name]? = some symbol → Reached active name → name ∉ active →
    active.length = limit → E (.depthExceeded name limit)
  opened {world : World σ} {active : List String} {name : String} {symbol : Symbol} : I world →
    world.symbols[name]? = some symbol → Reached active name → name ∉ active →
    I { world with journal := world.journal.push (.opened (active ++ [name])) }
  drawable {world : World σ} {name : String} {symbol : Symbol} : I world →
    world.symbols[name]? = some symbol → symbol.value = none → Drawable name
  asks {world : World σ} {active : List String} {name : String} {symbol : Symbol}
    {candidate : Candidate} {nodes : List Node} : I world → world.symbols[name]? = some symbol →
    Reached active name → name ∉ active → candidate ∈ symbol.candidates →
    candidate.Renders nodes → AsksIn modifiers (Reached (active ++ [name])) Unknown Offered nodes
  drawn {world : World σ} {name : String} {symbol : Symbol} {mask : Option (List Bool)} :
    Drawable name → Surveyed modifiers I limit name mask world → I world →
    world.symbols[name]? = some symbol → I (drawn world name symbol mask)
  exhausted (name : String) : Keeps I E (Expansion.record (.exhausted name))
  calls (world : World σ) (calls : CallCounts) : I world → I { world with calls }
  template {world : World σ} {name : String} {symbol : Symbol} {candidate : Candidate}
    {calls : CallCounts} {cause : Template.ParseError} : I world →
    world.symbols[name]? = some symbol → candidate ∈ symbol.candidates →
    (candidate.body.template calls).1 = .error cause → E (.template cause)
  settled {name : String} (value : String) : Drawable name →
    Keeps I E (do hold name value; Expansion.record (.symbol name value false); return value)

section LookUp

variable [RandomSource σ] {I : World σ → Prop} {E : GrammarError → Prop} {limit : Nat}
variable {Reached : List String → String → Prop} {Drawable : String → Prop}
variable {modifiers : Modifiers} {Unknown : String → Prop} {Offered : Nat → Prop}

-- A symbol that has just been opened is drawn.
theorem keeps_opened
    (rules : LookUpRules modifiers I E limit Reached Drawable Unknown Offered) {budget : Nat}
    {active : List String} {name : String} {world : World σ} {symbol : Symbol}
    (hb : (active ++ [name]).length + budget = limit) (hr : Reached active name)
    (ha : name ∉ active) (hd : Drawable name) (hi : I world)
    (hs : world.symbols[name]? = some symbol)
    (h : ∀ other, Reached (active ++ [name]) other →
      Keeps I E (lookUp modifiers limit budget (active ++ [name]) false other)) :
    let opened := { world with journal := world.journal.push (.opened (active ++ [name])) }
    let drawing := runOn
      (drawText modifiers (lookUp modifiers limit budget (active ++ [name]) false) name) opened
    I drawing.2 ∧ ∀ cause, drawing.1 = .error cause → E cause := by
  refine drawText_keeps modifiers rules.toTemplateRules (rules.opened hi hs hr ha) ?_ ?_
    (rules.exhausted name) rules.calls ?_
  · intro world symbol hi hs candidate hc nodes hn
    exact (rules.asks hi hs hr ha hc hn).mono h
  · intro found mask middle later hf hmask hm hl
    refine rules.drawn hd (.intro hb (rules.opened hi hs hr ha) ?_ hf hmask) hm hl
    exact Array.back?_push
  · intro world symbol hi hs candidate hc calls cause hcause
    exact rules.template hi hs hc hcause

theorem keeps_lookUp
    (rules : LookUpRules modifiers I E limit Reached Drawable Unknown Offered) (budget : Nat)
    (active : List String) (force : Bool) (name : String) (hr : Reached active name)
    (hb : active.length + budget = limit) (hf : force = true → Drawable name) :
    Keeps I E (lookUp modifiers limit budget active force name) := by
  intro world hi
  rw [runOn_lookUp]
  cases hs : world.symbols[name]? with
  | none =>
      dsimp only
      rw [runOn_record_return]
      exact ⟨rules.missing hi hr hs, by simp⟩
  | some symbol =>
      dsimp only
      cases hv : (if force then none else symbol.value) with
      | some value =>
          have hheld : symbol.value = some value := by
            cases force <;> simp_all
          dsimp only
          rw [runOn_record_return]
          exact ⟨rules.held hi hs hheld, by simp⟩
      | none =>
          have hd : Drawable name := by
            cases force with
            | true => exact hf rfl
            | false => exact rules.drawable hi hs (by simpa using hv)
          dsimp only
          split
          · rename_i ha
            refine ⟨hi, fun cause hc => ?_⟩
            obtain rfl : GrammarError.recursion name (active ++ [name]) = cause := by simpa using hc
            exact rules.recursion hr ha
          · rename_i ha
            cases budget with
            | zero =>
                refine ⟨hi, fun cause hc => ?_⟩
                obtain rfl : GrammarError.depthExceeded name limit = cause := by simpa using hc
                exact rules.depthExceeded hi hs hr ha hb
            | succ budget =>
                have hlength : (active ++ [name]).length + budget = limit := by
                  simp only [List.length_append, List.length_singleton]
                  omega
                have hdraw := keeps_opened rules hlength hr ha hd hi hs fun other ho =>
                  keeps_lookUp rules budget (active ++ [name]) false other ho hlength (by simp)
                dsimp only
                rw [runOn_bind, runOn_note]
                exact bind_keeps hdraw fun value => rules.settled value hd
termination_by budget

end LookUp

-- What is known of the symbols only, so that dice, generators and the journal cannot disturb it.
structure Undisturbed (I : World σ → Prop) : Prop where
  dice {world : World σ} (dice : Dice σ) : I world → I { world with dice }
  calls {world : World σ} (calls : CallCounts) : I world → I { world with calls }
  journal {world : World σ} (journal : Array Step) : I world → I { world with journal }

-- What makes an expansion keep something that is known of the symbols only. Of a symbol that is
-- drawable, the sampler and the value change.
structure DrawRules (I : World σ → Prop) (E : GrammarError → Prop) (limit : Nat)
    (Reached : List String → String → Prop) (Drawable : String → Prop) : Prop
    extends Undisturbed I where
  drawable {world : World σ} {name : String} {symbol : Symbol} : I world →
    world.symbols[name]? = some symbol → symbol.value = none → Drawable name
  update {world : World σ} {name : String} {symbol : Symbol} (sampler : Sampler)
    (value : Option String) : Drawable name → I world → world.symbols[name]? = some symbol →
    I { world with symbols := world.symbols.insert name { symbol with sampler, value } }
  reach {world : World σ} {active : List String} {name other : String} {symbol : Symbol}
    {candidate : Candidate} : I world → world.symbols[name]? = some symbol →
    Reached active name → name ∉ active → candidate ∈ symbol.candidates →
    candidate.Mentions other → Reached (active ++ [name]) other
  recursion {active : List String} {name : String} : Reached active name → name ∈ active →
    E (.recursion name (active ++ [name]))
  depthExceeded {world : World σ} {active : List String} {name : String} {symbol : Symbol} :
    I world → world.symbols[name]? = some symbol → Reached active name → name ∉ active →
    active.length = limit → E (.depthExceeded name limit)
  template {world : World σ} {name : String} {symbol : Symbol} {candidate : Candidate}
    {calls : CallCounts} {cause : Template.ParseError} : I world →
    world.symbols[name]? = some symbol → candidate ∈ symbol.candidates →
    (candidate.body.template calls).1 = .error cause → E (.template cause)

section Draw

variable [RandomSource σ] {I : World σ → Prop} {E : GrammarError → Prop} {limit : Nat}
variable {Reached : List String → String → Prop} {Drawable : String → Prop}

omit [RandomSource σ] in
theorem keeps_hold (rules : DrawRules I E limit Reached Drawable) {name : String}
    (hd : Drawable name) (value : String) : Keeps I E (hold name value : Expansion σ Unit) := by
  intro world hi
  rw [runOn_hold]
  cases hs : world.symbols[name]? with
  | none => exact ⟨hi, by simp⟩
  | some symbol => exact ⟨rules.update symbol.sampler (some value) hd hi hs, by simp⟩

theorem DrawRules.lookUpRules (rules : DrawRules I E limit Reached Drawable)
    (modifiers : Modifiers) : LookUpRules modifiers I E limit Reached Drawable (fun _ => True)
      (fun _ => True) where
  record _ := keeps_note fun _ => rules.journal _
  pick _ := keeps_roll fun _ => rules.dice _
  missing hi _ _ := rules.journal _ hi
  held hi _ _ := rules.journal _ hi
  recursion := rules.recursion
  depthExceeded := rules.depthExceeded
  opened hi _ _ _ := rules.journal _ hi
  drawable := rules.drawable
  asks hi hs hr ha hc hn := asksIn_of_refersIn fun target ht =>
    ⟨rules.reach hi hs hr ha hc (Candidate.mentions_iff.mpr ⟨_, hn, target, ht, rfl⟩), by simp⟩
  drawn hd _ hi hs := rules.journal _ (rules.dice _ (rules.update _ _ hd hi hs))
  exhausted _ := keeps_note fun _ => rules.journal _
  calls _ calls := rules.calls calls
  template := rules.template
  settled value hd := keeps_bind (keeps_hold rules hd value) fun _ =>
    keeps_bind (keeps_note fun _ => rules.journal _) fun _ => keeps_pure value

end Draw

-- What makes an expansion keep `I` whatever it may fail for, while the symbols in `closed` are being
-- drawn around it. They are not drawn again inside.
structure SteadyRules [RandomSource σ] (I : World σ → Prop) (closed : List String) : Prop where
  note (step : Step) : Keeps I (fun _ => True) (note step)
  pick (count : Nat) : Keeps I (fun _ => True) (roll (Roll.uniform count))
  calls {world : World σ} (calls : CallCounts) : I world → I { world with calls }
  drawn {world : World σ} {name : String} {symbol : Symbol} {mask : Option (List Bool)} :
    name ∉ closed → I world → world.symbols[name]? = some symbol →
    I (drawn world name symbol mask)
  hold {name : String} (value : String) : name ∉ closed →
    Keeps I (fun _ => True) (hold name value)

section Steady

variable [RandomSource σ] {I : World σ → Prop} {closed : List String}

theorem SteadyRules.templateRules (rules : SteadyRules I closed) :
    TemplateRules I (fun _ => True) (fun _ => True) (fun _ => True) where
  record _ := rules.note _
  pick _ := rules.pick _

variable (modifiers : Modifiers) {lookUp : String → Expansion σ String}

omit [RandomSource σ] in
theorem asksIn_of_keeps (h : ∀ name, Keeps I (fun _ => True) (lookUp name)) (nodes : List Node) :
    AsksIn modifiers (fun name => Keeps I (fun _ => True) (lookUp name)) (fun _ => True)
      (fun _ => True) nodes :=
  asksIn_of_refersIn fun target _ => ⟨h target.name, fun _ _ _ => trivial⟩

theorem keeps_renderNodes_of_steady (rules : SteadyRules I closed)
    (h : ∀ name, Keeps I (fun _ => True) (lookUp name)) (nodes : List Node) (choices : List Nat) :
    Keeps I (fun _ => True) (renderNodes modifiers lookUp nodes choices) := by
  have hasks := (asksIn_of_keeps modifiers h nodes).mono fun name hk =>
    (⟨rfl, hk⟩ : lookUp name = lookUp name ∧ Keeps I (fun _ => True) (lookUp name))
  exact (renderNodes_related modifiers rules.templateRules.relatesIn nodes choices hasks.targets
    hasks.choices.2).2

theorem keeps_drawText_of_steady (rules : SteadyRules I closed)
    (h : ∀ name, Keeps I (fun _ => True) (lookUp name)) {name : String} (hn : name ∉ closed) :
    Keeps I (fun _ => True) (drawText modifiers lookUp name) :=
  keeps_draw modifiers rules.templateRules
    (fun _ _ _ _ _ _ nodes _ => asksIn_of_keeps modifiers h nodes)
    (fun _ _ _ => rules.drawn hn) (rules.note _) (fun _ calls => rules.calls calls)
    fun _ _ _ _ _ _ _ _ _ => trivial

theorem keeps_lookUp_of_steady (rules : SteadyRules I closed) (limit budget : Nat)
    {active : List String} (ha : closed ⊆ active) (force : Bool) (name : String) :
    Keeps I (fun _ => True) (Expansion.lookUp modifiers limit budget active force name) := by
  intro world hi
  rw [runOn_lookUp]
  cases world.symbols[name]? with
  | none => exact keeps_bind (rules.note _) (fun _ => keeps_pure "") world hi
  | some symbol =>
      dsimp only
      cases if force then none else symbol.value with
      | some value => exact keeps_bind (rules.note _) (fun _ => keeps_pure value) world hi
      | none =>
          dsimp only
          split
          · exact ⟨hi, fun _ _ => trivial⟩
          · rename_i hn
            have hopen : name ∉ closed := fun hc => hn (ha hc)
            cases budget with
            | zero => exact ⟨hi, fun _ _ => trivial⟩
            | succ budget =>
                have hinside := keeps_lookUp_of_steady rules limit budget
                  (List.subset_append_of_subset_left [name] ha) false
                refine keeps_bind (rules.note _) (fun _ => ?_) world hi
                refine keeps_bind (keeps_drawText_of_steady modifiers rules hinside hopen)
                  fun value => ?_
                refine keeps_bind (rules.hold value hopen) fun _ => ?_
                exact keeps_bind (rules.note _) fun _ => keeps_pure value
termination_by budget

end Steady

end Expansion

end StoryGrammar
