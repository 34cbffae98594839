import StoryGrammar.Proofs.Grammar.Reach

namespace StoryGrammar

open Expansion SymbolTable

-- A symbol that has just been made consists of its candidates.
theorem Symbol.eq_ofCandidates {rules : RuleSet} {symbol : Symbol}
    (h : Symbol.ofRules rules = .ok symbol) :
    symbol = .ofCandidates symbol.candidates rules.distribution := by
  unfold ofRules at h
  split at h
  · simp at h
  · obtain ⟨candidates, -, h⟩ := Except.bind_eq_ok_iff.mp h
    obtain rfl := Except.ok.inj h
    rfl
  · obtain rfl := Except.ok.inj h
    rfl

-- So it has neither a value nor a deck.
theorem Symbol.fresh_of_ofRules {rules : RuleSet} {symbol : Symbol}
    (h : Symbol.ofRules rules = .ok symbol) : symbol.value = none ∧ symbol.sampler.deck = none := by
  rw [eq_ofCandidates h]
  exact ⟨rfl, rfl⟩

-- A blueprint that has some definitions and nothing else.
def Blueprint.ofDefinitions (definitions : Definitions) (modifiers : Modifiers) (origin : String)
    (maxDepth : Nat) : Blueprint :=
  { symbols := definitions.toList, modifiers, origin, maxDepth }

namespace Query

-- The query is about a name that is used, or about the origin.
def StartsIn (Used : String → Prop) : Query → Prop
  | .get name | .expandSymbol name _ => Used name
  | .expand => True
  | .evaluate _ => False

end Query

namespace Operation

def StartsIn (Used : String → Prop) : Operation → Prop
  | .ask query => query.StartsIn Used
  | .reset name => Used name
  | .set .. | .setValue .. | .registerModifier .. => False

end Operation

namespace Grammar

variable {σ : Type} (grammar : Grammar σ)

def withSymbols (table : SymbolTable) : Grammar σ := { grammar with symbols := table }

end Grammar

namespace Outcome

variable {σ α : Type}

def withSymbols (outcome : Outcome σ α) (table : SymbolTable) : Outcome σ α :=
  { outcome with grammar := outcome.grammar.withSymbols table }

end Outcome

namespace Grammar

variable {σ : Type} {Used : String → Prop} {first first' table' : SymbolTable}

section Build

variable {definitions : Definitions} {modifiers : Modifiers} {origin : String} {maxDepth : Nat}

-- Definitions that make symbols make a grammar.
theorem exists_build (h : ∀ (name : String) (rules : RuleSet), definitions[name]? = some rules →
      ∃ symbol, Symbol.ofRules rules = .ok symbol) (source : σ) :
    ∃ table : SymbolTable, (∀ name : String, table[name]? =
        definitions[name]?.bind fun rules => (Symbol.ofRules rules).toOption) ∧
      (Blueprint.ofDefinitions definitions modifiers origin maxDepth).build source =
        .ok { symbols := table, modifiers, source, origin, maxDepth } := by
  obtain ⟨table, ht⟩ := Blueprint.exists_foldlM_define ∅ fun entry he =>
    h entry.1 entry.2 (Std.TreeMap.mem_toList_iff_getElem?_eq_some.mp he)
  refine ⟨table, Blueprint.getElem?_foldlM_define ht, Blueprint.build_eq_ok_iff.mpr ⟨table, ?_, rfl⟩⟩
  exact Blueprint.symbolTable_eq_ok_iff.mpr ⟨definitions.toList, table, rfl, ht, rfl⟩

end Build

section Answer

variable (grammar : Grammar σ)

theorem run_alike {α : Type} {expansion : Expansion σ α}
    (h : Alike Used first first' α expansion expansion)
    (ha : Agree Used first first' grammar.symbols table') :
    ∃ next', Agree Used first first' (grammar.run expansion).grammar.symbols next' ∧
      (grammar.withSymbols table').run expansion = (grammar.run expansion).withSymbols next' := by
  obtain ⟨next', hnext, hrun⟩ := h grammar.world table' ha
  refine ⟨next', hnext, ?_⟩
  rw [(grammar.withSymbols table').run_eq hrun]
  rfl

variable [RandomSource σ]

theorem resolve_alike {name : String} (hu : Used name) (force : Bool)
    (ha : Agree Used first first' grammar.symbols table') :
    ∃ next', Agree Used first first' (grammar.resolve name force).grammar.symbols next' ∧
      (grammar.withSymbols table').resolve name force =
        (grammar.resolve name force).withSymbols next' := by
  have hc : (grammar.withSymbols table').contains name = grammar.contains name := by
    simp only [contains, Std.TreeMap.contains_eq_isSome_getElem?]
    exact congrArg Option.isSome (ha.used name hu)
  unfold resolve
  rw [hc]
  split
  · exact grammar.run_alike (alike_lookUp grammar.maxDepth grammar.maxDepth [] force hu) ha
  · exact ⟨table', ha, rfl⟩

theorem expandSymbol_alike {name : String} (hu : Used name) (force : Bool)
    (ha : Agree Used first first' grammar.symbols table') :
    ∃ next', Agree Used first first' (grammar.expandSymbol name force).grammar.symbols next' ∧
      (grammar.withSymbols table').expandSymbol name force =
        (grammar.expandSymbol name force).withSymbols next' := by
  obtain ⟨next', hnext, hresolve⟩ := grammar.resolve_alike hu force ha
  refine ⟨next', ?_, ?_⟩
  · unfold expandSymbol
    dsimp only
    split <;> exact hnext
  · unfold expandSymbol
    rw [hresolve]
    obtain ⟨result, changed, requests, journal⟩ := grammar.resolve name force
    cases result <;> rfl

-- An answer that starts in names that are used is the same whatever is not used.
theorem answer_alike {query : Query} (hq : query.StartsIn Used) (ho : Used grammar.origin)
    (ha : Agree Used first first' grammar.symbols table') :
    ∃ next', Agree Used first first' (grammar.answer query).grammar.symbols next' ∧
      (grammar.withSymbols table').answer query =
        (grammar.answer query).withSymbols next' := by
  cases query with
  | get name => exact grammar.resolve_alike hq false ha
  | expandSymbol name force => exact grammar.expandSymbol_alike hq force ha
  | expand => exact grammar.expandSymbol_alike ho false ha
  | evaluate text => exact absurd hq id

theorem perform_alike {operation : Operation} (hp : operation.StartsIn Used)
    (ho : Used grammar.origin) (ha : Agree Used first first' grammar.symbols table') :
    (grammar.perform operation).origin = grammar.origin ∧
    ∃ next', Agree Used first first' (grammar.perform operation).symbols next' ∧
      (grammar.withSymbols table').perform operation =
        (grammar.perform operation).withSymbols next' := by
  cases operation with
  | ask query =>
      obtain ⟨symbols, source, calls, output, hgrammar⟩ := grammar.answer_grammar query
      obtain ⟨next', hnext, hanswer⟩ := grammar.answer_alike hp ho ha
      refine ⟨?_, next', hnext, congrArg Outcome.grammar hanswer⟩
      simp only [perform, hgrammar]
  | reset name =>
      have hs : (grammar.withSymbols table').symbol? name = grammar.symbol? name :=
        ha.used name hp
      simp only [perform, reset?, hs]
      cases hsome : grammar.symbol? name with
      | none => exact ⟨rfl, table', ha, rfl⟩
      | some symbol => exact ⟨rfl, _, agree_insert ha hp hsome rfl, rfl⟩
  | set name rules => exact absurd hp id
  | setValue name value => exact absurd hp id
  | registerModifier name modifier => exact absurd hp id

theorem after_alike (run : List Operation) (hr : ∀ operation ∈ run, operation.StartsIn Used)
    (ho : Used grammar.origin) (ha : Agree Used first first' grammar.symbols table') :
    Used (grammar.after run).origin ∧
    ∃ next', Agree Used first first' (grammar.after run).symbols next' ∧
      (grammar.withSymbols table').after run = (grammar.after run).withSymbols next' := by
  induction run generalizing grammar table' with
  | nil => exact ⟨ho, table', ha, rfl⟩
  | cons operation run ih =>
      obtain ⟨hfirst, hrest⟩ := List.forall_mem_cons.mp hr
      obtain ⟨horigin, next', hnext, hperform⟩ := grammar.perform_alike hfirst ho ha
      have hlater := ih (grammar.perform operation) hrest (horigin ▸ ho) hnext
      rw [← hperform] at hlater
      exact hlater

-- What is reported as out of reach does not matter. Built without it, the grammar gives the same
-- answers, puts the same questions to the source and comes to the same values and the same decks,
-- however often and in whatever order it is asked about the rest, of which the origin is a part. All
-- the while what is out of reach has neither a value nor a deck.
theorem unreachable_irrelevant (definitions : Definitions) (origin : String)
    (hw : ∀ (name : String) (rules : RuleSet), definitions[name]? = some rules →
      ∃ written, rules.source = .rules written)
    (hl : ∀ name cause, .brokenSymbol name cause ∉ lint definitions origin)
    (hd : definitions.contains origin = true) (modifiers : Modifiers) (maxDepth : Nat)
    (source : σ) :
    let Kept := fun name => Finding.unreachable name origin ∉ lint definitions origin
    Kept origin ∧
    ∃ whole pruned,
      (Blueprint.ofDefinitions definitions modifiers origin maxDepth).build source = .ok whole ∧
      (Blueprint.ofDefinitions (Lint.needed definitions origin) modifiers origin maxDepth).build
        source = .ok pruned ∧
      ∀ run : List Operation, (∀ operation ∈ run, operation.StartsIn Kept) →
        (∀ query, query.StartsIn Kept →
          ((pruned.after run).answer query).result = ((whole.after run).answer query).result ∧
          ((pruned.after run).answer query).requests = ((whole.after run).answer query).requests ∧
          ((pruned.after run).answer query).journal = ((whole.after run).answer query).journal) ∧
        (pruned.after run).source = (whole.after run).source ∧
        (pruned.after run).output = (whole.after run).output ∧
        (∀ name, Kept name → (pruned.after run).symbol? name = (whole.after run).symbol? name ∧
          ((pruned.after run).reset? name).isSome = ((whole.after run).reset? name).isSome) ∧
        ∀ name, ¬Kept name → (pruned.after run).symbol? name = none ∧
          ∃ symbol, (whole.after run).symbol? name = some symbol ∧ symbol.value = none ∧
            symbol.sampler.deck = none := by
  intro Kept
  obtain ⟨table, ht, hb⟩ := exists_build (fun _ _ hr => Lint.exists_ofRules hl hr) source
  obtain ⟨table', ht', hb'⟩ := exists_build
    (fun _ _ hr => Lint.exists_ofRules hl (Lint.getElem?_of_needed hr)) source
  let whole : Grammar σ := { symbols := table, modifiers, source, origin, maxDepth }
  refine ⟨Lint.origin_reached hd, whole, whole.withSymbols table', hb, hb', fun run hr => ?_⟩
  obtain ⟨horigin, next', hnext, hafter⟩ := whole.after_alike run hr (Lint.origin_reached hd)
    (Lint.agree_needed hw hd ht ht')
  rw [hafter]
  refine ⟨fun query hq => ?_, rfl, rfl, fun name hk => ?_, fun name hn => ?_⟩
  · obtain ⟨_, -, hanswer⟩ := (whole.after run).answer_alike hq horigin hnext
    rw [hanswer]
    exact ⟨rfl, rfl, rfl⟩
  · have hsame : ((whole.after run).withSymbols next').symbol? name =
        (whole.after run).symbol? name := hnext.used name hk
    simp only [reset?, hsame, Option.isSome_map, and_self]
  · have hout : .unreachable name origin ∈ lint definitions origin := Decidable.not_not.mp hn
    constructor
    · have hnone : table'[name]? = none := by
        rw [ht', Lint.getElem?_needed, if_pos hout]
        rfl
      exact (hnext.spared' name hn).trans hnone
    · have hc := Lint.contains_of_unreachable hd hout
      rw [Std.TreeMap.contains_eq_isSome_getElem?, Option.isSome_iff_exists] at hc
      obtain ⟨rules, hr⟩ := hc
      obtain ⟨symbol, hs⟩ := Lint.exists_ofRules hl hr
      have hsymbol : table[name]? = some symbol := by
        rw [ht, hr, Option.bind_some, hs]
        rfl
      exact ⟨symbol, (hnext.spared name hn).trans hsymbol, Symbol.fresh_of_ofRules hs⟩

end Answer

-- Nothing in the almanac leads to the moon.
theorem unreachable_moon : .unreachable "moon" "day" ∈ lint almanac "day" := by
  have hclosed : ∀ name ∈ ["day", "sky", "wind"], ∀ target ∈ Lint.successors almanac name,
      target ∈ ["day", "sky", "wind"] := by decide +kernel
  have hday : almanac.contains "day" = true := by decide +kernel
  refine (Lint.unreachable_mem_lint hday).mpr ⟨by decide +kernel, fun hreached => ?_⟩
  have hm := Lint.mem_of_leads hclosed (by simp) hreached
  simp at hm

def week : List Operation :=
  [.ask (.expandSymbol "day" true), .reset "day", .ask (.get "day"), .ask (.expandSymbol "day" true)]

theorem unreachable_irrelevant_almanac :
    (∀ name cause, .brokenSymbol name cause ∉ lint almanac "day") ∧
    almanac.contains "day" = true ∧ .unreachable "moon" "day" ∈ lint almanac "day" ∧
    ∃ whole pruned : Grammar Script,
      (Blueprint.ofDefinitions almanac Modifiers.english "day" 64).build ⟨[1, 0, 2]⟩ = .ok whole ∧
      (Blueprint.ofDefinitions (Lint.needed almanac "day") Modifiers.english "day" 64).build
        ⟨[1, 0, 2]⟩ = .ok pruned ∧
      ((pruned.after week).answer .expand).result = ((whole.after week).answer .expand).result ∧
      ∃ symbol, (whole.after week).symbol? "moon" = some symbol ∧ symbol.value = none ∧
        symbol.sampler.deck = none := by
  have hsymbols : ∀ entry ∈ almanac.toList, Lint.checkDefinition almanac entry.1 entry.2 = [] := by
    decide +kernel
  have hsound : ∀ name cause, .brokenSymbol name cause ∉ lint almanac "day" := by
    intro name cause hf
    rcases List.mem_append.mp hf with hf | hf
    · obtain ⟨entry, he, hf⟩ := List.mem_flatMap.mp hf
      have hnone := hsymbols entry he
      simp [hnone] at hf
    · exact absurd (Lint.isDangling_of_mem_checkReach hf) (by simp [Finding.isDangling])
  have hday : almanac.contains "day" = true := by decide +kernel
  obtain ⟨horigin, whole, pruned, hwhole, hpruned, hruns⟩ := unreachable_irrelevant almanac "day"
    almanac_written hsound hday Modifiers.english 64 (⟨[1, 0, 2]⟩ : Script)
  have hweek : ∀ operation ∈ week,
      operation.StartsIn fun name => .unreachable name "day" ∉ lint almanac "day" := by
    simp only [week, List.forall_mem_cons]
    exact ⟨horigin, horigin, horigin, horigin, by simp⟩
  obtain ⟨hanswers, -, -, -, hspared⟩ := hruns week hweek
  obtain ⟨-, hmoon⟩ := hspared "moon" (by simpa using unreachable_moon)
  exact ⟨hsound, hday, unreachable_moon, whole, pruned, hwhole, hpruned,
    (hanswers .expand trivial).1, hmoon⟩

end Grammar

end StoryGrammar
