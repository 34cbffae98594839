import StoryGrammar.Proofs.Grammar.Agreement
import StoryGrammar.Proofs.Grammar.Depth
import StoryGrammar.Random.Seeded

namespace StoryGrammar

open Expansion SymbolTable

namespace GrammarError

variable {α : Type} {result : Except GrammarError α} {front : List String}

theorem mapError_enclose_eq_recursion_iff {symbol : String} {chain : List String} :
    result.mapError (enclose front) = .error (.recursion symbol (front ++ chain)) ↔
      result = .error (.recursion symbol chain) := by
  cases result with
  | ok value => simp [Except.mapError]
  | error cause => cases cause <;> simp [Except.mapError, enclose]

theorem mapError_enclose_eq_depthExceeded_iff {symbol : String} {limit : Nat} :
    result.mapError (enclose front) = .error (.depthExceeded symbol (limit + front.length)) ↔
      result = .error (.depthExceeded symbol limit) := by
  cases result with
  | ok value => simp [Except.mapError]
  | error cause => cases cause <;> simp [Except.mapError, enclose]

end GrammarError

namespace Symbol

-- The symbol that is made from a single text.
def ofTemplate (template : Template) : Symbol :=
  ofCandidates [⟨.written ⟨template, []⟩, 1⟩] .uniform

theorem ofRules_ofText {text : String} {template : Template}
    (hp : Template.parse text = .ok template) :
    ofRules (RuleSet.ofText text) = .ok (ofTemplate template) := by
  have hcandidate : candidateOf false { text } = .ok ⟨.written ⟨template, []⟩, 1⟩ := by
    simp only [candidateOf, Passage.parse, List.mapM_nil, hp]
    rfl
  simp only [ofRules, RuleSet.ofText, RuleSet.ofRules, Distribution.usesWeights, List.mapM_cons,
    hcandidate, List.mapM_nil]
  rfl

end Symbol

namespace Expansion

variable {σ : Type} {name : String} {first first' : SymbolTable}

-- Worlds that have the same source, and the same symbols but for one.
def Beside (name : String) (first first' : SymbolTable) (world world' : World σ) : Prop :=
  Agree (· ≠ name) first first' world.symbols world'.symbols ∧
    world'.dice.source = world.dice.source

variable [RandomSource σ]

theorem mirrorRules_of_beside :
    MirrorRules (σ := σ) (Beside name first first') (· ≠ name) [name] where
  outside _ ho hne := hne (List.mem_singleton.mp ho)
  used h hu := h.1.used _ hu
  within h hu hs := h.1.within _ _ hu hs
  note _ h := h
  roll hq h := ⟨(hq.run_eq h.2).1, h.1, (hq.run_eq h.2).2⟩
  update h hu hs hn := ⟨agree_insert h.1 hu hs hn, h.2⟩

-- A choice between one thing leaves the source alone.
theorem run_draw_single (hone : ∀ source : σ, RandomSource.pickUniform source 1 = (0, source))
    (dice : Dice σ) : (Sampler.draw ⟨.uniform, none, none⟩ [1] none).run dice =
      ((some 0, ⟨.uniform, none, some 0⟩), ⟨dice.source, dice.requests.push (.uniform 1)⟩) := by
  have hpick : (Roll.uniform 1).run dice = (0, ⟨dice.source, dice.requests.push (.uniform 1)⟩) := by
    simp only [Roll.uniform, StateT.run, hone]
  have hindices : Sampler.indices (Sampler.allows none) [1] = [0] := rfl
  simp only [Sampler.run_draw, Sampler.pick, hindices, Sampler.pickFrom, List.isEmpty_cons,
    List.length_singleton, Bool.false_eq_true, if_false, Roll.run_bind, hpick]
  rfl

-- Drawing a symbol that has a single text comes down to writing that text.
theorem exists_opened (hone : ∀ source : σ, RandomSource.pickUniform source 1 = (0, source))
    (modifiers : Modifiers) {template : Template} {world : World σ}
    (hs : world.symbols[name]? = some (Symbol.ofTemplate template)) (limit : Nat) :
    ∃ opened : World σ, opened.dice.source = world.dice.source ∧
      (∀ other, other ≠ name → opened.symbols[other]? = world.symbols[other]?) ∧
      runOn (lookUp modifiers (limit + 1) (limit + 1) [] false name) world =
        runOn (render modifiers (lookUp modifiers (limit + 1) limit [name] false) template.nodes >>=
          settle name) opened := by
  let start : World σ := { world with journal := world.journal.push (.opened [name]) }
  have hstart : start.symbols[name]? = some (Symbol.ofTemplate template) := hs
  have hdraw := run_draw_single hone start.dice
  have hdrawText : runOn (drawText modifiers (lookUp modifiers (limit + 1) limit [name] false) name)
      start = runOn (render modifiers (lookUp modifiers (limit + 1) limit [name] false)
        template.nodes) (drawn start name (Symbol.ofTemplate template) none) :=
    runOn_drawText_of_drawn modifiers hstart rfl hstart (congrArg (·.1.1) hdraw) rfl
  refine ⟨drawn start name (Symbol.ofTemplate template) none, ?_, fun other ho => ?_, ?_⟩
  · exact congrArg (·.2.source) hdraw
  · simp [drawn, Std.TreeMap.getElem?_insert, ho.symm, start]
  · rw [runOn_lookUp, hs]
    change runOn (do
      note (.opened [name])
      drawText modifiers (lookUp modifiers (limit + 1) limit [name] false) name >>= settle name)
      world = _
    rw [runOn_bind, runOn_note]
    dsimp only
    rw [runOn_bind, hdrawText, runOn_bind]

-- Reading a symbol that has a single text does what writing the text does, with the name of the symbol
-- around it.
theorem exists_read (hone : ∀ source : σ, RandomSource.pickUniform source 1 = (0, source))
    (modifiers : Modifiers) {template : Template}
    (ht : ∀ target ∈ template.references, target.name ≠ name) {world world' : World σ}
    (hs : world'.symbols[name]? = some (Symbol.ofTemplate template))
    (hu : ∀ other, other ≠ name → world'.symbols[other]? = world.symbols[other]?)
    (hw : ∀ (other : String) (symbol : Symbol), other ≠ name →
      world.symbols[other]? = some symbol → symbol.StaysIn (· ≠ name))
    (hsource : world'.dice.source = world.dice.source) (limit : Nat) :
    let told := runOn (render modifiers (lookUp modifiers limit limit [] false) template.nodes) world
    ∃ last, runOn (lookUp modifiers (limit + 1) (limit + 1) [] false name) world' =
        (told.1.mapError (GrammarError.enclose [name]), last) ∧
      last.dice.source = told.2.dice.source ∧
      ∀ other, other ≠ name → last.symbols[other]? = told.2.symbols[other]? := by
  obtain ⟨opened, hdice, hsymbols, hrun⟩ := exists_opened hone modifiers hs limit
  have hrules : MirrorRules (σ := σ) (Beside name world.symbols opened.symbols) (· ≠ name) [name] :=
    mirrorRules_of_beside
  have hbeside : Beside name world.symbols opened.symbols world opened :=
    ⟨⟨fun other ho => (hsymbols other ho).trans (hu other ho), hw, fun _ _ => rfl, fun _ _ => rfl⟩,
      hdice.trans hsource⟩
  have hmirrors : Mirrors (Beside name world.symbols opened.symbols) [name] String
      (render modifiers (lookUp modifiers limit limit [] false) template.nodes)
      (render modifiers (lookUp modifiers (limit + 1) limit [name] false) template.nodes) :=
    render_related modifiers hrules.relatesIn template.nodes
      (asksIn_of_refersIn fun target htarget =>
        ⟨hrules.mirrors_lookUp modifiers limit limit [] false (ht target htarget), by simp⟩)
  obtain ⟨⟨hagree, hlast⟩, hresult⟩ := hmirrors world opened hbeside
  rw [hrun, runOn_bind]
  generalize runOn (render modifiers (lookUp modifiers limit limit [] false) template.nodes) world =
    told at hagree hlast hresult ⊢
  generalize runOn (render modifiers (lookUp modifiers (limit + 1) limit [name] false)
    template.nodes) opened = got at hagree hlast hresult ⊢
  obtain ⟨result, next⟩ := told
  obtain ⟨result', next'⟩ := got
  obtain rfl : result' = result.mapError (GrammarError.enclose [name]) := hresult
  cases result with
  | error cause => exact ⟨next', rfl, hlast, hagree.used⟩
  | ok value =>
      obtain ⟨last, hsettled, hdice, hkept⟩ := exists_settled name value next'
      exact ⟨last, hsettled, by rw [hdice, hlast],
        fun other ho => (hkept other ho).trans (hagree.used other ho)⟩

end Expansion

namespace Grammar

variable {σ : Type} [RandomSource σ] (grammar : Grammar σ)

-- Reading a symbol that was just put in with a single text comes to what evaluating the text comes to.
theorem get_of_put (hone : ∀ source : σ, RandomSource.pickUniform source 1 = (0, source))
    (hw : grammar.IsWritten) {text : String} {template : Template}
    (hp : Template.parse text = .ok template) {name : String}
    (ht : ∀ target ∈ template.references, target.name ≠ name)
    (hr : ∀ other, ¬grammar.Refers other name) :
    let told := grammar.evaluate text
    let changed := (grammar.put name (Symbol.ofTemplate template)).withMaxDepth (grammar.maxDepth + 1)
    let got := changed.get name
    got.result = told.result.mapError (GrammarError.enclose [name]) ∧
      got.grammar.source = told.grammar.source ∧
      ∀ other, other ≠ name → got.grammar.symbol? other = told.grammar.symbol? other := by
  intro told changed got
  have htold : told = grammar.run (Expansion.render grammar.modifiers (grammar.lookUp false)
      template.nodes) := by
    simp only [told, evaluate, hp]
    rfl
  have hget : got = changed.run (changed.lookUp false name) :=
    if_pos Std.TreeMap.contains_insert_self
  have hs : changed.world.symbols[name]? = some (Symbol.ofTemplate template) :=
    Std.TreeMap.getElem?_insert_self
  have hu (other : String) (ho : other ≠ name) :
      changed.world.symbols[other]? = grammar.world.symbols[other]? :=
    grammar.symbol?_put_of_ne (Symbol.ofTemplate template) ho.symm
  have hstays (other : String) (symbol : Symbol) (_ : other ≠ name)
      (hs : grammar.world.symbols[other]? = some symbol) : symbol.StaysIn (· ≠ name) :=
    fun candidate hc => ⟨hw other symbol hs candidate hc, fun target hm he =>
      hr other ⟨symbol, hs, candidate, hc, target, hm, he⟩⟩
  obtain ⟨last, hread, hsource, hsymbols⟩ :=
    exists_read hone grammar.modifiers ht hs hu hstays rfl grammar.maxDepth
  have hgot := changed.run_eq hread
  rw [hget, htold]
  exact ⟨congrArg Outcome.result hgot, (congrArg (·.grammar.source) hgot).trans hsource,
    fun other ho => (congrArg (·.grammar.symbol? other) hgot).trans (hsymbols other ho)⟩

-- Evaluating a text is the same as reading a symbol that has this text, with one symbol more around
-- everything that is drawn and room for it under the limit.
theorem evaluate_eq_get (hone : ∀ source : σ, RandomSource.pickUniform source 1 = (0, source))
    (hw : grammar.IsWritten) {text : String} {template : Template}
    (hp : Template.parse text = .ok template) {name : String}
    (ht : ∀ target ∈ template.references, target.name ≠ name)
    (hr : ∀ other, ¬grammar.Refers other name) :
    ∃ changed, grammar.set name (RuleSet.ofText text) = .ok changed ∧
      let told := grammar.evaluate text
      let got := (changed.withMaxDepth (grammar.maxDepth + 1)).get name
      (∀ value, told.result = .ok value ↔ got.result = .ok value) ∧
      (∀ symbol chain, told.result = .error (.recursion symbol chain) ↔
        got.result = .error (.recursion symbol (name :: chain))) ∧
      (∀ symbol, told.result = .error (.depthExceeded symbol grammar.maxDepth) ↔
        got.result = .error (.depthExceeded symbol (grammar.maxDepth + 1))) ∧
      got.grammar.source = told.grammar.source ∧
      ∀ other, other ≠ name → got.grammar.symbol? other = told.grammar.symbol? other := by
  obtain ⟨hresult, hsource, hsymbols⟩ := grammar.get_of_put hone hw hp ht hr
  have hset : grammar.set name (RuleSet.ofText text) =
      .ok (grammar.put name (Symbol.ofTemplate template)) := by
    rw [set, Symbol.ofRules_ofText hp]
  refine ⟨_, hset, fun value => ?_, fun symbol chain => ?_, fun symbol => ?_, hsource, hsymbols⟩
  · rw [hresult, Except.mapError_eq_ok_iff]
  · rw [hresult]
    exact GrammarError.mapError_enclose_eq_recursion_iff.symm
  · rw [hresult]
    exact GrammarError.mapError_enclose_eq_depthExceeded_iff.symm

-- The tale of the day and the night, with a source that only asks for numbers where there is a choice.
def dusk : Grammar Seeded where
  symbols := daylight.symbols
  modifiers := daylight.modifiers
  source := Seeded.ofSeed 7
  origin := daylight.origin
  maxDepth := 1

theorem isWritten_dusk : dusk.IsWritten := isWritten_daylight

theorem not_refers_dusk (name : String) : ¬dusk.Refers name "tale" := by
  rintro ⟨symbol, hs, candidate, hc, target, ht, he⟩
  simp only [dusk, daylight, symbol?, Std.TreeMap.getElem?_insert, Std.TreeMap.getElem?_emptyc] at hs
  split at hs
  · obtain rfl := Option.some.inj hs
    obtain rfl := List.mem_singleton.mp hc
    obtain rfl : target = ⟨"day", []⟩ := List.mem_singleton.mp ht
    simp at he
  · split at hs
    · obtain rfl := Option.some.inj hs
      obtain rfl := List.mem_singleton.mp hc
      obtain rfl : target = ⟨"night", []⟩ := List.mem_singleton.mp ht
      simp at he
    · simp at hs

theorem evaluate_eq_get_dusk :
    (∀ source : Seeded, RandomSource.pickUniform source 1 = (0, source)) ∧
    (dusk.evaluate "by #day#").result = .error (.depthExceeded "night" 1) ∧
    ∃ changed, dusk.set "tale" (RuleSet.ofText "by #day#") = .ok changed ∧
      ((changed.withMaxDepth 2).get "tale").result = .error (.depthExceeded "night" 2) := by
  have hone (source : Seeded) : RandomSource.pickUniform source 1 = (0, source) := rfl
  have htold : (dusk.evaluate "by #day#").result = .error (.depthExceeded "night" 1) := by
    decide +kernel
  have hparse : (Template.parse "by #day#").toOption.any (fun template =>
      template.references.all (·.name != "tale")) = true := by decide +kernel
  obtain ⟨template, hp, hnames⟩ := Except.exists_of_any_toOption hparse
  have ht : ∀ target ∈ template.references, target.name ≠ "tale" := by simpa using hnames
  obtain ⟨changed, hset, -, -, hdepth, -⟩ :=
    evaluate_eq_get dusk hone isWritten_dusk hp ht not_refers_dusk
  exact ⟨hone, htold, changed, hset, (hdepth "night").mp htold⟩

end Grammar

end StoryGrammar
