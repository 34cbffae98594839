import Mathlib.Data.List.Chain
import Mathlib.Data.List.Nodup
import StoryGrammar.Proofs.Grammar.Table
import StoryGrammar.Random.Script

namespace StoryGrammar

open Expansion

-- All texts that the candidate may have are known beforehand.
def Candidate.IsWritten (candidate : Candidate) : Prop := candidate.body.passage?.isSome = true

namespace Candidate

-- The references of a written candidate are those of the sequences that it may lead to.
theorem references_of_renders {candidate : Candidate} (hw : candidate.IsWritten)
    {nodes : List Template.Node} (h : candidate.Renders nodes) {target : Template.Reference}
    (ht : target ∈ Template.Node.references nodes) : target ∈ candidate.references := by
  obtain ⟨body, weight⟩ := candidate
  cases body with
  | generated generator => simp [IsWritten, Body.passage?] at hw
  | written passage =>
      simp only [references, Body.passage?, Option.elim, Passage.references, List.mem_append,
        List.mem_flatMap]
      rcases h with ⟨condition, hc, rfl⟩ | ⟨template, calls, hp, rfl⟩
      · exact .inr ⟨condition, hc, ht⟩
      · obtain rfl : passage.template = template := by simpa [Body.template] using hp
        exact .inl ht

theorem template_ne_error {candidate : Candidate} (hw : candidate.IsWritten) (calls : CallCounts)
    (cause : Template.ParseError) : (candidate.body.template calls).1 ≠ .error cause := by
  obtain ⟨body, weight⟩ := candidate
  cases body with
  | generated generator => simp [IsWritten, Body.passage?] at hw
  | written passage => simp [Body.template]

end Candidate

namespace Operation

-- The operation brings no rule into the grammar whose texts are not known beforehand.
def IsWritten : Operation → Prop
  | .set _ rules => ∃ written, rules.source = .rules written
  | _ => True

end Operation

namespace Symbol

def IsWritten (symbol : Symbol) : Prop := ∀ candidate ∈ symbol.candidates, candidate.IsWritten

theorem lasting_isWritten : Lasting IsWritten where
  fixed value := by simp [IsWritten, fixed, Candidate.IsWritten, Body.passage?]
  setValue _ h := h
  reset h := h

theorem isWritten_candidateOf {keepWeight : Bool} {rule : Rule} {candidate : Candidate}
    (h : candidateOf keepWeight rule = .ok candidate) : candidate.IsWritten := by
  obtain ⟨passage, -, h⟩ := Except.bind_eq_ok_iff.mp h
  obtain rfl := Except.ok.inj h
  rfl

theorem isWritten_ofRules {rules : RuleSet} {written : List Rule} {symbol : Symbol}
    (hs : rules.source = .rules written) (h : ofRules rules = .ok symbol) : symbol.IsWritten := by
  unfold ofRules at h
  rw [hs] at h
  cases written with
  | nil => simp at h
  | cons rule others =>
      obtain ⟨candidates, hc, h⟩ := Except.bind_eq_ok_iff.mp h
      obtain rfl := Except.ok.inj h
      intro candidate hm
      obtain ⟨source, -, hsource⟩ := Except.exists_of_mem_mapM hc hm
      exact isWritten_candidateOf hsource

end Symbol

namespace Grammar

variable {σ : Type}

def IsWritten (grammar : Grammar σ) : Prop :=
  ∀ name symbol, grammar.symbol? name = some symbol → symbol.IsWritten

-- A symbol refers to a name if one of its candidates does, in its template or in its conditions.
def Refers (grammar : Grammar σ) (name other : String) : Prop :=
  ∃ symbol, grammar.symbol? name = some symbol ∧
    ∃ candidate ∈ symbol.candidates, ∃ target ∈ candidate.references, target.name = other

-- A way through the references from one of the roots that passes no symbol twice.
structure Path (grammar : Grammar σ) (roots names : List String) : Prop where
  distinct : names.Nodup
  defined : ∀ name ∈ names, grammar.contains name = true
  linked : names.IsChain grammar.Refers
  rooted : ∃ root ∈ roots, names.head? = some root

-- A name that is met while the symbols of a path are drawn, the last one innermost: a root where
-- nothing is drawn yet, and otherwise a name that the innermost symbol refers to.
inductive Reached (grammar : Grammar σ) (roots : List String) : List String → String → Prop
  | root {name : String} : name ∈ roots → Reached grammar roots [] name
  | onward {path : List String} {last name : String} : grammar.Path roots path →
      path.getLast? = some last → grammar.Refers last name → Reached grammar roots path name

-- A failure that the references account for: a path that comes back to one of its symbols, or a
-- path that is longer than the limit.
def Accounted (grammar : Grammar σ) (roots : List String) (cause : GrammarError) : Prop :=
  (∃ symbol path, cause = .recursion symbol (path ++ [symbol]) ∧ path.count symbol = 1 ∧
    grammar.Path roots path ∧ (path ++ [symbol]).IsChain grammar.Refers) ∨
  ∃ symbol path, cause = .depthExceeded symbol grammar.maxDepth ∧
    path.length = grammar.maxDepth + 1 ∧ path.getLast? = some symbol ∧ grammar.Path roots path

-- The table holds the candidates of the grammar, whatever was drawn from them.
def SameCandidates (grammar : Grammar σ) (table : SymbolTable) : Prop :=
  ∀ name : String, table[name]?.map Symbol.candidates = (grammar.symbol? name).map Symbol.candidates

section

variable {grammar : Grammar σ} {roots : List String}

theorem Reached.path {active : List String} {name : String}
    (h : grammar.Reached roots active name) (hn : name ∉ active)
    (hd : grammar.contains name = true) : grammar.Path roots (active ++ [name]) := by
  cases h with
  | root hm =>
      exact ⟨List.nodup_singleton name, by simpa using hd, List.isChain_singleton name,
        name, hm, rfl⟩
  | @onward _ last _ hp hl hr =>
      refine ⟨by simpa using hp.distinct.concat hn, ?_, ?_, ?_⟩
      · intro other ho
        rcases List.mem_append.mp ho with ho | ho
        · exact hp.defined other ho
        · rw [List.mem_singleton.mp ho]
          exact hd
      · refine hp.linked.append (List.isChain_singleton name) ?_
        simpa [hl] using hr
      · obtain ⟨root, hm, hh⟩ := hp.rooted
        exact ⟨root, hm, by rw [List.head?_append, hh]; rfl⟩

theorem Reached.closes {active : List String} {name : String}
    (h : grammar.Reached roots active name) (hn : name ∈ active) :
    grammar.Accounted roots (.recursion name (active ++ [name])) := by
  cases h with
  | root _ => simp at hn
  | @onward _ last _ hp hl hr =>
      refine .inl ⟨name, active, rfl, List.count_eq_one_of_mem hp.distinct hn, hp, ?_⟩
      refine hp.linked.append (List.isChain_singleton name) ?_
      simpa [hl] using hr

theorem SameCandidates.symbol? {table : SymbolTable} (h : grammar.SameCandidates table)
    {name : String} {symbol : Symbol} (hs : table[name]? = some symbol) :
    ∃ own, grammar.symbol? name = some own ∧ own.candidates = symbol.candidates := by
  have hname := h name
  rw [hs, Option.map_some] at hname
  exact Option.map_eq_some_iff.mp hname.symm

theorem SameCandidates.contains {table : SymbolTable} (h : grammar.SameCandidates table)
    {name : String} {symbol : Symbol} (hs : table[name]? = some symbol) :
    grammar.contains name = true := by
  obtain ⟨own, ho, -⟩ := h.symbol? hs
  exact (grammar.contains_iff name).mpr ⟨own, ho⟩

theorem SameCandidates.insert {table : SymbolTable} (h : grammar.SameCandidates table)
    {name : String} {symbol next : Symbol} (hs : table[name]? = some symbol)
    (hn : next.candidates = symbol.candidates) :
    grammar.SameCandidates (table.insert name next) := by
  intro other
  rw [Std.TreeMap.getElem?_insert]
  split
  · rename_i he
    obtain rfl : name = other := by simpa using he
    rw [← h name, hs, Option.map_some, Option.map_some, hn]
  · exact h other

theorem SameCandidates.refers {table : SymbolTable} (h : grammar.SameCandidates table)
    (hw : grammar.IsWritten) {name other : String} {symbol : Symbol} {candidate : Candidate}
    (hs : table[name]? = some symbol) (hc : candidate ∈ symbol.candidates)
    (hm : candidate.Mentions other) : grammar.Refers name other := by
  obtain ⟨own, ho, hsame⟩ := h.symbol? hs
  rw [← hsame] at hc
  obtain ⟨nodes, hn, target, ht, hname⟩ := Candidate.mentions_iff.mp hm
  have hwritten := hw name own ho candidate hc
  exact ⟨own, ho, candidate, hc, target, Candidate.references_of_renders hwritten hn ht, hname⟩

-- Where every rule is written, a draw goes along the references, and nothing but the references
-- can make it fail.
theorem drawRules_of_written (hw : grammar.IsWritten) (roots : List String) :
    DrawRules (σ := σ) (fun world => grammar.SameCandidates world.symbols)
      (grammar.Accounted roots) grammar.maxDepth (grammar.Reached roots) (fun _ => True) where
  dice _ h := h
  calls _ h := h
  journal _ h := h
  drawable := by simp
  update := fun _ _ _ hi hs => hi.insert hs rfl
  reach := by
    intro world active name other symbol candidate hi hs hr hn hc hm
    exact .onward (hr.path hn (hi.contains hs)) (by simp) (hi.refers hw hs hc hm)
  recursion := fun hr hn => hr.closes hn
  depthExceeded := by
    intro world active name symbol hi hs hr hn hl
    exact .inr ⟨name, active ++ [name], rfl, by simp [hl], by simp, hr.path hn (hi.contains hs)⟩
  template := by
    intro world name symbol candidate calls cause hi hs hc ht
    obtain ⟨own, ho, hsame⟩ := hi.symbol? hs
    rw [← hsame] at hc
    exact absurd ht (Candidate.template_ne_error (hw name own ho candidate hc) calls cause)

end

variable [RandomSource σ] (grammar : Grammar σ)

theorem answer_sameCandidates (hw : grammar.IsWritten) (query : Query) :
    grammar.SameCandidates (grammar.answer query).grammar.symbols :=
  (grammar.answer_keeps (drawRules_of_written hw (grammar.roots query)) query
    (fun _ h => .root h) (by simp) fun _ => rfl).1

theorem answer_accounted (hw : grammar.IsWritten) {query : Query} (hq : grammar.Answerable query)
    {cause : GrammarError} (h : (grammar.answer query).result = .error cause) :
    grammar.Accounted (grammar.roots query) cause :=
  (grammar.answer_keeps (drawRules_of_written hw (grammar.roots query)) query
    (fun _ h => .root h) (by simp) fun _ => rfl).2 hq cause h

theorem isWritten_perform (operation : Operation) (hw : grammar.IsWritten)
    (ho : operation.IsWritten) : (grammar.perform operation).IsWritten := by
  refine grammar.everywhere_perform Symbol.lasting_isWritten operation hw ?_ ?_
  · rintro query rfl name symbol hs
    obtain ⟨own, hown, hsame⟩ := (grammar.answer_sameCandidates hw query).symbol? hs
    unfold Symbol.IsWritten
    rw [← hsame]
    exact hw name own hown
  · rintro name rules symbol rfl hr
    obtain ⟨written, hs⟩ := ho
    exact Symbol.isWritten_ofRules hs hr

-- In whatever state a grammar of written rules has come to be, what is defined can only fail to
-- expand because of its references: they lead back to a symbol that is being drawn, or they lead
-- through more symbols than the limit allows. Where they do neither, the text comes out.
theorem answer_failure_accounted (run : List Operation) (query : Query) (hw : grammar.IsWritten)
    (hr : ∀ operation ∈ run, operation.IsWritten)
    (hq : (grammar.after run).Answerable query) :
    (∀ cause, ((grammar.after run).answer query).result = .error cause →
      (grammar.after run).Accounted ((grammar.after run).roots query) cause) ∧
    ((∀ path, (grammar.after run).Path ((grammar.after run).roots query) path →
        path.length ≤ (grammar.after run).maxDepth ∧
        ∀ name ∈ path, ¬(path ++ [name]).IsChain (grammar.after run).Refers) →
      ∃ text, ((grammar.after run).answer query).result = .ok text) := by
  have hwritten : (grammar.after run).IsWritten :=
    after_keeps (fun grammar operation hg ho => grammar.isWritten_perform operation hg ho)
      grammar run hw hr
  have haccounted (cause : GrammarError)
      (h : ((grammar.after run).answer query).result = .error cause) :=
    (grammar.after run).answer_accounted hwritten hq h
  refine ⟨haccounted, fun hpath => ?_⟩
  cases hresult : ((grammar.after run).answer query).result with
  | ok text => exact ⟨text, rfl⟩
  | error cause =>
      rcases haccounted cause hresult with ⟨symbol, path, -, hcount, hp, hchain⟩ |
        ⟨symbol, path, -, hlength, -, hp⟩
      · have hm : symbol ∈ path := List.count_pos_iff.mp (by omega)
        exact absurd hchain ((hpath path hp).2 symbol hm)
      · have := (hpath path hp).1
        omega

-- The text of the day depends on the night, and the night is only for use if the day has a text.
def daylight : Grammar Script where
  symbols := ((∅ : SymbolTable).insert "day"
    (.ofCandidates [⟨.written ⟨⟨"#night#", [.reference ⟨"night", []⟩]⟩, []⟩, 1⟩] .uniform)).insert
    "night" (.ofCandidates
      [⟨.written ⟨⟨"dark", [.literal "dark"]⟩, [⟨"#day#", [.reference ⟨"day", []⟩]⟩]⟩, 1⟩] .shuffle)
  modifiers := .empty
  source := ⟨[]⟩
  origin := "day"
  maxDepth := 64

theorem isWritten_daylight : daylight.IsWritten := by
  intro name symbol hs candidate hc
  simp only [daylight, symbol?, Std.TreeMap.getElem?_insert, Std.TreeMap.getElem?_emptyc] at hs
  split at hs
  · obtain rfl := Option.some.inj hs
    rw [List.mem_singleton.mp hc]
    rfl
  · split at hs
    · obtain rfl := Option.some.inj hs
      rw [List.mem_singleton.mp hc]
      rfl
    · simp at hs

theorem answer_failure_accounted_daylight :
    daylight.IsWritten ∧ (∀ operation ∈ [Operation.reset "night"], operation.IsWritten) ∧
      (daylight.after [.reset "night"]).Answerable .expand ∧
      (daylight.after [.reset "night"]).Accounted ["day"]
        (.recursion "day" ["day", "night", "day"]) := by
  have hr : ∀ operation ∈ [Operation.reset "night"], operation.IsWritten := by
    simp [Operation.IsWritten]
  have hq : (daylight.after [.reset "night"]).Answerable .expand := by
    simp only [Answerable]
    decide +kernel
  have h := (answer_failure_accounted daylight [.reset "night"] .expand isWritten_daylight hr hq).1
  exact ⟨isWritten_daylight, hr, hq, h _ (by decide +kernel)⟩

end Grammar

end StoryGrammar
