import StoryGrammar.Proofs.Grammar.Table
import StoryGrammar.Random.Script

namespace StoryGrammar.Blueprint

-- What the last entry for a name says.
def latest {α : Type} (name : String) : List (String × α) → Option α
  | [] => none
  | (key, a) :: rest => (latest name rest).or (if key = name then some a else none)

section

variable {α : Type} {name : String} {entries : List (String × α)}

theorem latest_cons_self (a : α) (h : latest name entries = none) :
    latest name ((name, a) :: entries) = some a := by
  rw [latest, h, if_pos rfl, Option.none_or]

theorem latest_cons_of_ne {key : String} (h : key ≠ name) (a : α) :
    latest name ((key, a) :: entries) = latest name entries := by
  rw [latest, if_neg h, Option.or_none]

theorem latest_cons_of_some {a : α} (h : latest name entries = some a) (entry : String × α) :
    latest name (entry :: entries) = some a := by
  rw [latest, h, Option.some_or]

theorem latest_eq_none_iff :
    latest name entries = none ↔ ∀ entry ∈ entries, entry.1 ≠ name := by
  induction entries with
  | nil => simp [latest]
  | cons entry rest ih => simp [latest, ih, and_comm]

-- An entry is the last one for its name if no entry behind it has the name.
theorem latest_append_cons (front : List (String × α)) {a : α} {back : List (String × α)}
    (h : ∀ entry ∈ back, entry.1 ≠ name) : latest name (front ++ (name, a) :: back) = some a := by
  induction front with
  | nil => exact latest_cons_self a (latest_eq_none_iff.mpr h)
  | cons entry front ih => exact latest_cons_of_some ih entry

end

-- Something that counts more stands over the definition: a later definition of the name, or a
-- value from outside.
def Overridden (entries : List (String × RuleSet)) (state : List (String × String))
    (entry : String × RuleSet) : Prop :=
  ∃ front back, entries = front ++ entry :: back ∧
    ((∃ other ∈ back, other.1 = entry.1) ∨ ∃ held ∈ state, held.1 = entry.1)

variable {table next : SymbolTable} {entries : List (String × RuleSet)}
  {state : List (String × String)}

-- A definition over which nothing stands is the last one for its name.
theorem latest_of_not_overridden {front back : List (String × RuleSet)} {name : String}
    {rules : RuleSet} (he : entries = front ++ (name, rules) :: back)
    (h : ¬Overridden entries state (name, rules)) :
    latest name entries = some rules ∧ latest name state = none := by
  have hback : ∀ other ∈ back, other.1 ≠ name := fun other ho hn =>
    h ⟨front, back, he, .inl ⟨other, ho, hn⟩⟩
  have hstate : ∀ held ∈ state, held.1 ≠ name := fun held hh hn =>
    h ⟨front, back, he, .inr ⟨held, hh, hn⟩⟩
  subst he
  exact ⟨latest_append_cons front hback, latest_eq_none_iff.mpr hstate⟩

-- The last definition of a name is the one that the table keeps.
theorem latest_of_foldlM_define (hn : entries.foldlM define table = .ok next) (name : String) :
    (∀ rules, latest name entries = some rules →
      ∃ symbol, Symbol.ofRules rules = .ok symbol ∧ next[name]? = some symbol) ∧
    (latest name entries = none → next[name]? = table[name]?) := by
  induction entries generalizing table with
  | nil =>
      obtain rfl := Except.ok.inj hn
      exact ⟨nofun, fun _ => rfl⟩
  | cons entry rest ih =>
      rw [List.foldlM_cons] at hn
      obtain ⟨mid, hd, hn⟩ := Except.bind_eq_ok_iff.mp hn
      obtain ⟨symbol, hs, rfl⟩ := define_eq_ok_iff.mp hd
      obtain ⟨key, given⟩ := entry
      obtain ⟨hsome, hnone⟩ := ih hn
      cases hr : latest name rest with
      | some later =>
          rw [latest_cons_of_some hr]
          exact ⟨fun rules h => hsome rules (hr.trans h), nofun⟩
      | none =>
          have hkept := hnone hr
          rw [Std.TreeMap.getElem?_insert] at hkept
          by_cases hk : key = name
          · subst hk
            rw [latest_cons_self given hr]
            refine ⟨fun rules h => ?_, nofun⟩
            obtain rfl := Option.some.inj h
            exact ⟨symbol, hs, by simpa using hkept⟩
          · rw [latest_cons_of_ne hk, hr]
            exact ⟨nofun, fun _ => by simpa [hk] using hkept⟩

-- The values from outside are put over what is there.
theorem getElem?_foldl_fixed (state : List (String × String)) (table : SymbolTable)
    (name : String) :
    (state.foldl (fun table (name, value) => table.insert name (Symbol.fixed value)) table)[name]? =
      ((latest name state).map Symbol.fixed).or table[name]? := by
  induction state generalizing table with
  | nil => rfl
  | cons entry rest ih =>
      obtain ⟨key, value⟩ := entry
      rw [List.foldl_cons, ih, Std.TreeMap.getElem?_insert]
      cases hr : latest name rest with
      | some later => rw [latest_cons_of_some hr, Option.map_some, Option.some_or, Option.some_or]
      | none =>
          by_cases hk : key = name
          · subst hk
            rw [latest_cons_self value hr]
            simp
          · rw [latest_cons_of_ne hk, hr]
            simp [hk]

theorem define_eq_error_iff {entry : String × RuleSet} {cause : GrammarError} :
    define table entry = .error cause ↔
      ∃ reason, Symbol.ofRules entry.2 = .error reason ∧ cause = .inSymbol entry.1 reason := by
  unfold define
  cases Symbol.ofRules entry.2 with
  | ok symbol => simp
  | error reason => simp [eq_comm]

theorem exists_symbol_of_foldlM_define (hn : entries.foldlM define table = .ok next) :
    ∀ entry ∈ entries, ∃ symbol, Symbol.ofRules entry.2 = .ok symbol := by
  induction entries generalizing table with
  | nil => simp
  | cons entry rest ih =>
      rw [List.foldlM_cons] at hn
      obtain ⟨mid, hd, hn⟩ := Except.bind_eq_ok_iff.mp hn
      obtain ⟨symbol, hs, -⟩ := define_eq_ok_iff.mp hd
      exact List.forall_mem_cons.mpr ⟨⟨symbol, hs⟩, ih hn⟩

theorem definitions_eq_ok {blueprint : Blueprint}
    {fromFiles fromTexts : List (List (String × RuleSet))}
    (hf : blueprint.files.mapM readFile = .ok fromFiles)
    (ht : blueprint.texts.mapM readText = .ok fromTexts) :
    blueprint.definitions =
      .ok (fromFiles.flatten ++ fromTexts.flatten ++ blueprint.symbols) := by
  rw [definitions, hf, Except.ok_bind, ht, Except.ok_bind]
  rfl

theorem symbolTable_eq_error {blueprint : Blueprint} {cause : GrammarError}
    (hd : blueprint.definitions = .ok entries) (h : blueprint.symbolTable = .error cause) :
    entries.foldlM define ∅ = .error cause := by
  rw [symbolTable, hd, Except.ok_bind] at h
  cases hdefined : entries.foldlM define ∅ with
  | error first => rwa [hdefined] at h
  | ok table =>
      rw [hdefined] at h
      cases h

theorem build_eq_error {σ : Type} {blueprint : Blueprint} {source : σ} {cause : GrammarError}
    (h : blueprint.build source = .error cause) : blueprint.symbolTable = .error cause := by
  rw [build] at h
  cases ht : blueprint.symbolTable with
  | error first =>
      rw [ht] at h
      exact congrArg Except.error (Except.error.inj h)
  | ok table =>
      rw [ht] at h
      cases h

-- Where all files and texts can be read, the grammar holds each value from outside as it is,
-- each other name as the last of its definitions says, and no name besides. It is built just if
-- every definition can be, and then a definition that counts is to blame for a failure, as long as
-- those that do not count are in order.
theorem later_definitions_win {σ : Type} (blueprint : Blueprint) (source : σ)
    {fromFiles fromTexts : List (List (String × RuleSet))}
    (hf : blueprint.files.mapM readFile = .ok fromFiles)
    (ht : blueprint.texts.mapM readText = .ok fromTexts)
    (he : entries = fromFiles.flatten ++ fromTexts.flatten ++ blueprint.symbols) :
    (∀ grammar, blueprint.build source = .ok grammar → ∀ name,
      (∀ value, latest name blueprint.state = some value →
        grammar.symbol? name = some (Symbol.fixed value)) ∧
      (latest name blueprint.state = none →
        (∀ rules, latest name entries = some rules →
          ∃ symbol, Symbol.ofRules rules = .ok symbol ∧ grammar.symbol? name = some symbol) ∧
        (latest name entries = none → grammar.symbol? name = none))) ∧
    ((∃ grammar, blueprint.build source = .ok grammar) ↔
      ∀ entry ∈ entries, ∃ symbol, Symbol.ofRules entry.2 = .ok symbol) ∧
    ((∀ entry, Overridden entries blueprint.state entry →
        ∃ symbol, Symbol.ofRules entry.2 = .ok symbol) →
      ∀ cause, blueprint.build source = .error cause →
        ∃ name rules reason, latest name entries = some rules ∧
          latest name blueprint.state = none ∧ Symbol.ofRules rules = .error reason ∧
          cause = .inSymbol name reason) := by
  have hd : blueprint.definitions = .ok entries := by rw [definitions_eq_ok hf ht, he]
  refine ⟨fun grammar hb name => ?_, ⟨?_, fun hall => ?_⟩, fun hsound cause hb => ?_⟩
  · obtain ⟨table, htable, rfl⟩ := build_eq_ok_iff.mp hb
    obtain ⟨_, defined, hentries, hdefined, rfl⟩ := symbolTable_eq_ok_iff.mp htable
    obtain rfl := Except.ok.inj (hd.symm.trans hentries)
    obtain ⟨hsome, hnone⟩ := latest_of_foldlM_define hdefined name
    have hstate := getElem?_foldl_fixed blueprint.state defined name
    refine ⟨fun value hv => ?_, fun hv => ⟨fun rules hr => ?_, fun hr => ?_⟩⟩
    · rw [hv, Option.map_some, Option.some_or] at hstate
      exact hstate
    · obtain ⟨symbol, hs, hkept⟩ := hsome rules hr
      rw [hv, Option.map_none, Option.none_or, hkept] at hstate
      exact ⟨symbol, hs, hstate⟩
    · rw [hv, Option.map_none, Option.none_or, hnone hr] at hstate
      exact hstate
  · rintro ⟨grammar, hb⟩
    obtain ⟨table, htable, -⟩ := build_eq_ok_iff.mp hb
    obtain ⟨_, defined, hentries, hdefined, -⟩ := symbolTable_eq_ok_iff.mp htable
    obtain rfl := Except.ok.inj (hd.symm.trans hentries)
    exact exists_symbol_of_foldlM_define hdefined
  · obtain ⟨table, htable⟩ := exists_symbolTable hd hall
    exact ⟨_, build_eq_ok_iff.mpr ⟨table, htable, rfl⟩⟩
  · obtain ⟨front, ⟨name, rules⟩, back, mid, hsplit, -, hfails⟩ :=
      Except.exists_of_foldlM_eq_error (symbolTable_eq_error hd (build_eq_error hb))
    obtain ⟨reason, hr, hcause⟩ := define_eq_error_iff.mp hfails
    -- the first definition that fails cannot be one over which another stands
    have hwins : ¬Overridden entries blueprint.state (name, rules) := by
      intro ho
      obtain ⟨symbol, hs⟩ := hsound _ ho
      rw [hs] at hr
      cases hr
    obtain ⟨hlatest, hstate⟩ := latest_of_not_overridden hsplit hwins
    exact ⟨name, rules, reason, hlatest, hstate, hr, hcause⟩

-- A text that defines a mood and a pet. The pet is defined once more, and the mood comes from
-- outside.
def household : Blueprint where
  texts := ["\x7b\"mood\": Text(\"dull\"), \"pet\": List([\"cat\", \"#mood# cat\"])\x7d"]
  symbols := [("pet", .ofText "#mood# dog")]
  state := [("mood", "calm"), ("mood", "glad")]

theorem later_definitions_win_household : ∃ fromTexts grammar,
    household.texts.mapM readText = .ok fromTexts ∧
    household.build (⟨[]⟩ : Script) = .ok grammar ∧
    grammar.symbol? "mood" = some (Symbol.fixed "glad") ∧
    ∃ symbol, Symbol.ofRules (.ofText "#mood# dog") = .ok symbol ∧
      grammar.symbol? "pet" = some symbol := by
  have htexts : (household.texts.mapM readText).toOption.any (fun _ => true) = true := by
    decide +kernel
  have hbuilds : (household.build (⟨[]⟩ : Script)).toOption.any (fun _ => true) = true := by
    decide +kernel
  obtain ⟨fromTexts, ht, -⟩ := Except.exists_of_any_toOption htexts
  obtain ⟨grammar, hb, -⟩ := Except.exists_of_any_toOption hbuilds
  have hfiles : household.files.mapM readFile = .ok [] := rfl
  obtain ⟨hholds, -, -⟩ := later_definitions_win household (⟨[]⟩ : Script) hfiles ht rfl
  have hpet : latest "pet" ([].flatten ++ fromTexts.flatten ++ household.symbols) =
      some (.ofText "#mood# dog") := latest_append_cons _ (by simp)
  exact ⟨fromTexts, grammar, ht, hb, (hholds grammar hb "mood").1 "glad" (by decide),
    ((hholds grammar hb "pet").2 (by decide)).1 _ hpet⟩

-- The mood is supplied from outside. Yet the grammar cannot be built, because of a definition of the
-- mood that does not count.
def stubborn : Blueprint where
  symbols := [("mood", .ofText "#oops")]
  state := [("mood", "calm")]

theorem overridden_definition_fails :
    stubborn.build (⟨[]⟩ : Script) =
      .error (.inSymbol "mood" (.template (.unclosedReference 0))) ∧
    latest "mood" stubborn.state = some "calm" := by
  have hstubborn : (stubborn.build (⟨[]⟩ : Script)).map (fun _ => ()) =
      .error (.inSymbol "mood" (.template (.unclosedReference 0))) := by decide +kernel
  exact ⟨Except.map_eq_error_iff.mp hstubborn, rfl⟩

end StoryGrammar.Blueprint
