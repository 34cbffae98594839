import StoryGrammar.Lint
import StoryGrammar.Proofs.Grammar.Complete

namespace StoryGrammar

open Expansion SymbolTable

namespace Finding

-- The finding is about something that does not exist, or that does not come to exist.
def isDangling : Finding → Bool
  | .brokenSymbol .. | .undefinedReference .. | .unknownModifier .. => true
  | _ => false

end Finding

namespace Lint

variable {definitions : Definitions} {name : String}

theorem mem_written {symbol : Symbol} {candidate : Candidate} :
    candidate ∈ written symbol ↔ candidate ∈ symbol.candidates ∧ candidate.IsWritten :=
  List.mem_filter

theorem refersIn_of_checkReference {target : Template.Reference}
    (h : ∀ finding ∈ checkReference definitions name target, finding.isDangling = false) :
    RefersIn Modifiers.english (definitions.contains · = true) (fun _ => False) target := by
  simp only [checkReference, List.forall_mem_append, List.forall_mem_map, List.mem_filter] at h
  obtain ⟨hname, hcalls⟩ := h
  constructor
  · by_contra hn
    simp [hn, Finding.isDangling] at hname
  · intro call hc hnone
    have hunknown : Modifiers.english.contains call.name = false := by
      rw [Modifiers.contains_eq_isSome_get?, hnone]
      rfl
    exact absurd (hcalls call ⟨hc, by rw [hunknown]; rfl⟩) (by simp [Finding.isDangling])

theorem within_of_checkSymbol {symbol : Symbol} (hw : symbol.IsWritten)
    (h : ∀ finding ∈ checkSymbol definitions name symbol, finding.isDangling = false) :
    symbol.Within Modifiers.english (definitions.contains · = true) := by
  simp only [checkSymbol, List.forall_mem_append, List.forall_mem_flatMap] at h
  intro candidate hc
  have hwritten := hw candidate hc
  exact ⟨hwritten, fun target ht =>
    refersIn_of_checkReference (h.1.1 candidate (mem_written.mpr ⟨hc, hwritten⟩) target ht)⟩

-- Rules that leave nothing dangling make a symbol that stays within what is defined.
theorem exists_within_of_checkDefinition {rules : RuleSet} {written : List Rule}
    (hw : rules.source = .rules written)
    (h : ∀ finding ∈ checkDefinition definitions name rules, finding.isDangling = false) :
    ∃ symbol, Symbol.ofRules rules = .ok symbol ∧
      symbol.Within Modifiers.english (definitions.contains · = true) := by
  unfold checkDefinition at h
  cases hs : Symbol.ofRules rules with
  | error cause =>
      rw [hs] at h
      exact absurd (h _ (List.mem_singleton_self _)) (by simp [Finding.isDangling])
  | ok symbol =>
      rw [hs] at h
      exact ⟨symbol, rfl, within_of_checkSymbol (Symbol.isWritten_ofRules hw hs) h⟩

theorem mem_lint {origin : String} {rules : RuleSet} (hd : definitions[name]? = some rules)
    {finding : Finding} (h : finding ∈ checkDefinition definitions name rules) :
    finding ∈ lint definitions origin := by
  refine List.mem_append_left _ (List.mem_flatMap.mpr ⟨(name, rules), ?_, h⟩)
  exact Std.TreeMap.mem_toList_iff_getElem?_eq_some.mpr hd

-- The way from the origin leads to no such finding: what cannot be reached still exists, and what
-- is to be expanded first is not looked up by a template.
theorem isDangling_of_mem_checkReach {origin : String} {finding : Finding}
    (h : finding ∈ checkReach definitions origin) : finding.isDangling = false := by
  unfold checkReach at h
  split at h
  · obtain ⟨other, -, rfl⟩ := List.mem_map.mp h
    rfl
  · rw [List.mem_singleton.mp h]
    rfl

end Lint

namespace Grammar

variable {σ : Type}

-- Definitions in which nothing dangles make a grammar, and it is complete.
theorem exists_isComplete_of_lint {definitions : Definitions} {origin : String}
    (hw : ∀ (name : String) (rules : RuleSet), definitions[name]? = some rules →
      ∃ written, rules.source = .rules written)
    (hl : ∀ finding ∈ lint definitions origin, finding.isDangling = false)
    {blueprint : Blueprint} (hb : blueprint.definitions = .ok definitions.toList)
    (hm : blueprint.modifiers = Modifiers.english) (source : σ) :
    ∃ grammar, blueprint.build source = .ok grammar ∧ grammar.IsComplete := by
  have hwithin : ∀ entry ∈ definitions.toList, ∃ symbol, Symbol.ofRules entry.2 = .ok symbol ∧
      symbol.Within Modifiers.english (definitions.contains · = true) := by
    rintro ⟨name, rules⟩ he
    have hd := Std.TreeMap.mem_toList_iff_getElem?_eq_some.mp he
    obtain ⟨written, hs⟩ := hw name rules hd
    exact Lint.exists_within_of_checkDefinition hs fun finding hf => hl _ (Lint.mem_lint hd hf)
  have hrules : ∀ entry ∈ definitions.toList, ∃ symbol, Symbol.ofRules entry.2 = .ok symbol := by
    intro entry he
    obtain ⟨symbol, hs, -⟩ := hwithin entry he
    exact ⟨symbol, hs⟩
  obtain ⟨table, ht⟩ := Blueprint.exists_symbolTable hb hrules
  refine ⟨_, Blueprint.build_eq_ok_iff.mpr ⟨table, ht, rfl⟩, ?_⟩
  have hcontains (name : String) (hc : definitions.contains name = true) :
      table.contains name = true := by
    rw [Std.TreeMap.contains_eq_isSome_getElem?, Option.isSome_iff_exists] at hc
    obtain ⟨rules, hr⟩ := hc
    have hentry := Std.TreeMap.mem_toList_iff_getElem?_eq_some.mpr hr
    exact Std.TreeMap.mem_iff_contains.mp (Blueprint.mem_symbolTable ht hb hentry)
  unfold IsComplete
  rw [hm]
  refine Blueprint.everywhere_symbolTable ht Symbol.lasting_within.fixed ?_
  intro entries he entry hentry symbol hs
  obtain rfl := Except.ok.inj (hb.symm.trans he)
  obtain ⟨own, ho, hwithin⟩ := hwithin entry hentry
  obtain rfl := Except.ok.inj (ho.symm.trans hs)
  exact hwithin.mono hcontains

variable [RandomSource σ]

-- Where no rules are generated and no finding says that something is missing or broken, the grammar
-- can be built, and nothing that is looked up in it later, however often and in whatever order,
-- turns out to be missing.
theorem lint_clean_never_undefined (definitions : Definitions) (origin : String)
    (hw : ∀ (name : String) (rules : RuleSet), definitions[name]? = some rules →
      ∃ written, rules.source = .rules written)
    (hl : ∀ finding ∈ lint definitions origin, finding.isDangling = false)
    (blueprint : Blueprint) (hb : blueprint.definitions = .ok definitions.toList)
    (hm : blueprint.modifiers = Modifiers.english) (source : σ) :
    ∃ grammar, blueprint.build source = .ok grammar ∧
      ∀ run : List Operation, (∀ operation ∈ run, operation.IsPlain) →
        ∀ query : Query, query.IsPlain → ∀ event ∈ ((grammar.after run).answer query).events,
          event.isUndefined = false := by
  obtain ⟨grammar, hbuild, hcomplete⟩ := exists_isComplete_of_lint hw hl hb hm source
  exact ⟨grammar, hbuild, fun run hr query hq event he =>
    grammar.isUndefined_eq_false_of_isComplete hcomplete run hr query hq he⟩

-- A forecast that refers to others in a condition, in an argument and in both branches. Nothing
-- leads to the moon, but that is the only thing to be said against it.
def almanac : Definitions :=
  ((((∅ : Definitions).insert "day" ⟨.rules [
    { text := "#sky.join([ and |, ]#wind.s#)#, #?wind=gale?#sky.capitalize#:[mild|calm]#",
      conditions := ["#wind#"] }], .pop⟩).insert
    "moon" (RuleSet.ofText "full")).insert
    "sky" (RuleSet.ofTexts ["grey", "blue"])).insert
    "wind" ⟨.rules [{ text := "breeze", weight := 2 }, { text := "gale" }], .weighted⟩

theorem almanac_written (name : String) (rules : RuleSet) (h : almanac[name]? = some rules) :
    ∃ written, rules.source = .rules written := by
  simp only [almanac, Std.TreeMap.getElem?_insert, Std.TreeMap.getElem?_emptyc] at h
  repeat' split at h
  all_goals cases h
  all_goals exact ⟨_, rfl⟩

def season : List Operation :=
  [.ask .expand, .setValue "sky" "red", .reset "day", .setValue "tide" "low", .ask (.get "tide")]

theorem lint_clean_never_undefined_almanac :
    (∀ finding ∈ lint almanac "day", finding.isDangling = false) ∧
    (∀ operation ∈ season, operation.IsPlain) ∧
    ∃ grammar, ({ symbols := almanac.toList, origin := "day" } : Blueprint).build
        (⟨[1, 0, 2]⟩ : Script) = .ok grammar ∧
      ∀ event ∈ ((grammar.after season).answer (.expandSymbol "day" true)).events,
        event.isUndefined = false := by
  have hsymbols : ∀ entry ∈ almanac.toList, Lint.checkDefinition almanac entry.1 entry.2 = [] := by
    decide +kernel
  have hlint : ∀ finding ∈ lint almanac "day", finding.isDangling = false := by
    intro finding hf
    rcases List.mem_append.mp hf with hf | hf
    · obtain ⟨entry, he, hf⟩ := List.mem_flatMap.mp hf
      have hnone := hsymbols entry he
      simp [hnone] at hf
    · exact Lint.isDangling_of_mem_checkReach hf
  have hseason : ∀ operation ∈ season, operation.IsPlain := by
    simp [season, Operation.IsPlain, Query.IsPlain]
  obtain ⟨grammar, hbuild, hclean⟩ := lint_clean_never_undefined almanac "day" almanac_written
    hlint { symbols := almanac.toList, origin := "day" } rfl rfl (⟨[1, 0, 2]⟩ : Script)
  exact ⟨hlint, hseason, grammar, hbuild,
    hclean season hseason (.expandSymbol "day" true) trivial⟩

end Grammar

end StoryGrammar
