import StoryGrammar.Proofs.Grammar.Agreement
import StoryGrammar.Proofs.Grammar.Lint
import StoryGrammar.Proofs.Grammar.Search

namespace StoryGrammar

open Expansion SymbolTable

namespace Lint

open Relation

variable {definitions : Definitions} {origin name target : String}

-- A symbol that can be built leads to the defined names that its candidates refer to, in a template or
-- in a condition.
def Leads (definitions : Definitions) (name target : String) : Prop :=
  definitions.contains target = true ∧
    ∃ rules symbol, definitions[name]? = some rules ∧ Symbol.ofRules rules = .ok symbol ∧
      ∃ candidate ∈ symbol.candidates, ∃ passage, candidate.body = .written passage ∧
        ∃ reference ∈ passage.references, reference.name = target

theorem mem_targets_iff {candidate : Candidate} : target ∈ targets candidate ↔
    ∃ passage, candidate.body = .written passage ∧
      ∃ reference ∈ passage.references, reference.name = target := by
  obtain ⟨body, weight⟩ := candidate
  cases body <;> simp [targets, Candidate.references, Body.passage?]

theorem mem_successors_iff : target ∈ successors definitions name ↔ Leads definitions name target := by
  unfold successors Leads
  constructor
  · intro h
    split at h
    · rename_i symbol hs
      obtain ⟨rules, hr, hs⟩ := Option.map_eq_some_iff.mp hs
      obtain ⟨ht, hc⟩ := List.mem_filter.mp h
      obtain ⟨candidate, hm, ht⟩ := List.mem_flatMap.mp ht
      exact ⟨hc, rules, symbol, hr, hs, candidate, hm, mem_targets_iff.mp ht⟩
    · exact absurd h List.not_mem_nil
  · rintro ⟨hc, rules, symbol, hr, hs, candidate, hm, ht⟩
    simp only [hr, Option.map_some, hs]
    exact List.mem_filter.mpr
      ⟨List.mem_flatMap.mpr ⟨candidate, hm, mem_targets_iff.mpr ht⟩, hc⟩

theorem leads_eq (definitions : Definitions) :
    (fun name target => target ∈ successors definitions name) = Leads definitions :=
  funext fun _ => funext fun _ => propext mem_successors_iff

theorem mem_keys_of_successors (h : successors definitions name ≠ []) :
    name ∈ definitions.keys := by
  obtain ⟨target, ht⟩ := List.exists_mem_of_ne_nil _ h
  obtain ⟨-, rules, -, hr, -⟩ := mem_successors_iff.mp ht
  rw [Std.TreeMap.mem_keys, Std.TreeMap.mem_iff_isSome_getElem?, hr]
  rfl

open Classical in
-- However a search from the origin goes, the names that it leaves are those that nothing leads to.
theorem names_eq_of_steps {search : Search}
    (h : ReflTransGen (Search.Step (successors definitions)) ⟨definitions.keys, [origin]⟩ search)
    (hq : search.queue = []) : search.names = definitions.keys.filter fun name =>
      decide ¬ReflTransGen (Leads definitions) origin name := by
  rw [← leads_eq]
  exact (Search.sound_of_steps Std.TreeMap.nodup_keys h).names_eq hq fun _ => mem_keys_of_successors

open Classical in
theorem mem_unreached_iff : name ∈ unreached (successors definitions) definitions.keys [origin] ↔
    definitions.contains name = true ∧ ¬ReflTransGen (Leads definitions) origin name := by
  have hnames : unreached (successors definitions) definitions.keys [origin] = _ :=
    names_eq_of_steps (steps_unreached _ _ _) rfl
  rw [hnames, List.mem_filter, decide_eq_true_iff, Std.TreeMap.mem_keys,
    Std.TreeMap.mem_iff_contains]

theorem checkReach_eq (ho : definitions.contains origin = true) : checkReach definitions origin =
    (unreached (successors definitions) definitions.keys [origin]).map (.unreachable · origin) :=
  if_pos ho

-- The names that are reported as out of reach are those that nothing leads to.
theorem unreachable_mem_lint (ho : definitions.contains origin = true) :
    .unreachable name origin ∈ lint definitions origin ↔
      definitions.contains name = true ∧ ¬ReflTransGen (Leads definitions) origin name := by
  have hdefinition (other : String) (rules : RuleSet) :
      .unreachable name origin ∉ checkDefinition definitions other rules := by
    intro h
    unfold checkDefinition at h
    split at h
    · simp [checkSymbol, checkReference] at h
    · simp at h
  rw [← mem_unreached_iff]
  constructor
  · intro h
    rcases List.mem_append.mp h with h | h
    · obtain ⟨entry, -, h⟩ := List.mem_flatMap.mp h
      exact absurd h (hdefinition entry.1 entry.2)
    · rw [checkReach_eq ho] at h
      obtain ⟨other, hm, he⟩ := List.mem_map.mp h
      obtain rfl : other = name := by simpa using he
      exact hm
  · intro h
    apply List.mem_append_right
    rw [checkReach_eq ho]
    exact List.mem_map_of_mem h

-- Names that lead nowhere else keep what is reached from them among themselves.
theorem mem_of_leads {inner : List String}
    (hi : ∀ name ∈ inner, ∀ target ∈ successors definitions name, target ∈ inner)
    (ho : origin ∈ inner) (h : ReflTransGen (Leads definitions) origin name) : name ∈ inner := by
  induction h with
  | refl => exact ho
  | tail _ ht ih => exact hi _ ih _ (mem_successors_iff.mpr ht)

theorem contains_of_unreachable (ho : definitions.contains origin = true)
    (hn : .unreachable name origin ∈ lint definitions origin) : definitions.contains name = true :=
  ((unreachable_mem_lint ho).mp hn).1

theorem origin_reached (ho : definitions.contains origin = true) :
    .unreachable origin origin ∉ lint definitions origin :=
  fun h => ((unreachable_mem_lint ho).mp h).2 .refl

-- A symbol that is in reach only refers to names that are.
theorem staysIn_of_reached (ho : definitions.contains origin = true) {rules : RuleSet}
    (hd : definitions[name]? = some rules) {symbol : Symbol}
    (hs : Symbol.ofRules rules = .ok symbol) (hw : symbol.IsWritten)
    (hr : .unreachable name origin ∉ lint definitions origin) :
    symbol.StaysIn (.unreachable · origin ∉ lint definitions origin) := by
  intro candidate hc
  refine ⟨hw candidate hc, fun target ht hu => ?_⟩
  obtain ⟨hdefined, hout⟩ := (unreachable_mem_lint ho).mp hu
  have hname : definitions.contains name = true := by
    rw [Std.TreeMap.contains_eq_isSome_getElem?, hd]
    rfl
  have hreached : ReflTransGen (Leads definitions) origin name :=
    not_not.mp fun h => hr ((unreachable_mem_lint ho).mpr ⟨hname, h⟩)
  have htarget := mem_targets_iff.mp (List.mem_map_of_mem ht)
  exact hout (hreached.tail ⟨hdefined, rules, symbol, hd, hs, candidate, hc, htarget⟩)

-- The definitions that are in reach.
def needed (definitions : Definitions) (origin : String) : Definitions :=
  definitions.filter fun name _ => decide (.unreachable name origin ∉ lint definitions origin)

theorem getElem?_needed : (needed definitions origin)[name]? =
    if .unreachable name origin ∈ lint definitions origin then none else definitions[name]? := by
  rw [needed, Std.TreeMap.getElem?_filter']
  split <;> cases definitions[name]? <;> simp_all

theorem getElem?_of_needed {rules : RuleSet} (h : (needed definitions origin)[name]? = some rules) :
    definitions[name]? = some rules := by
  rw [getElem?_needed] at h
  split at h
  · simp at h
  · exact h

-- Rules about which nothing of the kind is reported can be made into a symbol.
theorem exists_ofRules (hl : ∀ name cause, .brokenSymbol name cause ∉ lint definitions origin)
    {rules : RuleSet} (hd : definitions[name]? = some rules) :
    ∃ symbol, Symbol.ofRules rules = .ok symbol := by
  cases hs : Symbol.ofRules rules with
  | ok symbol => exact ⟨symbol, rfl⟩
  | error cause =>
      have hbroken : .brokenSymbol name cause ∈ checkDefinition definitions name rules := by
        simp [checkDefinition, hs]
      exact absurd (mem_lint hd hbroken) (hl name cause)

-- The symbols that are made from all definitions, and from those that are in reach, differ only in
-- what is out of reach.
theorem agree_needed (hw : ∀ (name : String) (rules : RuleSet), definitions[name]? = some rules →
      ∃ written, rules.source = .rules written)
    (hd : definitions.contains origin = true) {table table' : SymbolTable}
    (ht : ∀ name : String, table[name]? =
      definitions[name]?.bind fun rules => (Symbol.ofRules rules).toOption)
    (ht' : ∀ name : String, table'[name]? =
      (needed definitions origin)[name]?.bind fun rules => (Symbol.ofRules rules).toOption) :
    Agree (.unreachable · origin ∉ lint definitions origin) table table' table table' := by
  refine ⟨fun name hk => ?_, fun name symbol hk hs => ?_, fun _ _ => rfl, fun _ _ => rfl⟩
  · rw [ht, ht', getElem?_needed, if_neg hk]
  · rw [ht] at hs
    obtain ⟨rules, hr, hs⟩ := Option.bind_eq_some_iff.mp hs
    have hmade : Symbol.ofRules rules = .ok symbol := by
      cases hm : Symbol.ofRules rules with
      | error cause => simp [hm, Except.toOption] at hs
      | ok made =>
          obtain rfl : made = symbol := by simpa [hm, Except.toOption] using hs
          rfl
    obtain ⟨written, hsource⟩ := hw name rules hr
    exact staysIn_of_reached hd hr hmade (Symbol.isWritten_ofRules hsource hmade) hk

theorem exists_chain_iff : (∃ chain : List String, chain.head? = some origin ∧
      chain.getLast? = some name ∧ chain.IsChain (Leads definitions)) ↔
    ReflTransGen (Leads definitions) origin name := by
  have hlast (rest : List String) : (origin :: rest).getLast? = some _ :=
    List.getLast?_eq_some_getLast (List.cons_ne_nil origin rest)
  constructor
  · rintro ⟨chain, hhead, hname, hchain⟩
    obtain ⟨rest, rfl⟩ := List.head?_eq_some_iff.mp hhead
    exact List.relationReflTransGen_of_exists_isChain_cons rest hchain
      (Option.some.inj ((hlast rest).symm.trans hname))
  · intro h
    obtain ⟨rest, hchain, hname⟩ := List.exists_isChain_cons_of_relationReflTransGen h
    exact ⟨origin :: rest, rfl, (hlast rest).trans (congrArg some hname), hchain⟩

-- What is reported as out of reach is exactly what no chain of references leads to from the origin,
-- through symbols that can be built. The search for it always ends, and however it takes the names
-- that a symbol leads to, it ends with the same report.
theorem unreachable_iff_no_chain (definitions : Definitions) (origin : String)
    (ho : definitions.contains origin = true) :
    (∀ name, definitions.contains name = true →
      (.unreachable name origin ∈ lint definitions origin ↔
        ¬∃ chain : List String, chain.head? = some origin ∧ chain.getLast? = some name ∧
          chain.IsChain (Leads definitions))) ∧
    Acc (fun later search => Search.Step (successors definitions) search later)
      ⟨definitions.keys, [origin]⟩ ∧
    ∀ search, ReflTransGen (Search.Step (successors definitions)) ⟨definitions.keys, [origin]⟩
        search →
      (∃ later, Search.Step (successors definitions) search later) ∨
        search.queue = [] ∧
          checkReach definitions origin = search.names.map (.unreachable · origin) := by
  refine ⟨fun name hname => ?_, (Search.wellFounded_step _).apply _, fun search hsteps => ?_⟩
  · rw [exists_chain_iff, unreachable_mem_lint ho]
    exact and_iff_right hname
  · refine (Search.exists_step _ search).imp_right fun hq => ⟨hq, ?_⟩
    rw [checkReach_eq ho, names_eq_of_steps hsteps hq,
      ← names_eq_of_steps (steps_unreached _ _ _) rfl]

-- A house where the way goes round in circles, and where the stairs to the tower are not finished.
def house : Definitions :=
  (((∅ : Definitions).insert "hall" (RuleSet.ofTexts ["#hall# and #stairs#", "#attic#"])).insert
    "stairs" (RuleSet.ofRules [{ text := "creaking", conditions := ["#cellar##hall#"] }])).insert
    "cellar" (RuleSet.ofTexts ["#tower#", "#"]) |>.insert "tower" (RuleSet.ofText "high")

theorem unreachable_iff_no_chain_house :
    house.contains "hall" = true ∧ .unreachable "tower" "hall" ∈ lint house "hall" ∧
      .unreachable "cellar" "hall" ∉ lint house "hall" := by
  have hhall : house.contains "hall" = true := by decide +kernel
  obtain ⟨hexact, -, -⟩ := unreachable_iff_no_chain house "hall" hhall
  have hinner : ∀ name ∈ ["hall", "stairs", "cellar"], ∀ target ∈ successors house name,
      target ∈ ["hall", "stairs", "cellar"] := by decide +kernel
  refine ⟨hhall, (hexact "tower" (by decide +kernel)).mpr fun hchain => ?_, fun h => ?_⟩
  · have hm := mem_of_leads hinner (by simp) (exists_chain_iff.mp hchain)
    simp at hm
  · refine (hexact "cellar" (by decide +kernel)).mp h ⟨["hall", "stairs", "cellar"], rfl, rfl, ?_⟩
    simp only [List.isChain_cons_cons, List.isChain_singleton, and_true, ← mem_successors_iff]
    decide +kernel

end Lint

end StoryGrammar
