import StoryGrammar.Grammar.Blueprint
import StoryGrammar.Proofs.Except
import StoryGrammar.Proofs.Expansion.Upholds
import StoryGrammar.Proofs.Grammar.Operation

namespace StoryGrammar

open Expansion

namespace SymbolTable

-- A property that all symbols of a table have.
def Everywhere (P : Symbol → Prop) (table : SymbolTable) : Prop :=
  ∀ (name : String) (symbol : Symbol), table[name]? = some symbol → P symbol

variable {P Q : Symbol → Prop} {table next : SymbolTable}

theorem everywhere_empty : Everywhere P ∅ := by simp [Everywhere]

theorem Everywhere.mono (h : Everywhere P table) (hq : ∀ symbol, P symbol → Q symbol) :
    Everywhere Q table := fun name symbol hs => hq symbol (h name symbol hs)

theorem Everywhere.insert (h : Everywhere P table) (name : String) {symbol : Symbol}
    (hs : P symbol) : Everywhere P (table.insert name symbol) := by
  intro other found hf
  rw [Std.TreeMap.getElem?_insert] at hf
  split at hf
  · exact Option.some.inj hf ▸ hs
  · exact h other found hf

end SymbolTable

open SymbolTable

namespace Blueprint

variable {P : Symbol → Prop} {table next : SymbolTable} {entries : List (String × RuleSet)}

theorem define_eq_ok_iff {entry : String × RuleSet} :
    define table entry = .ok next ↔
      ∃ symbol, Symbol.ofRules entry.2 = .ok symbol ∧ next = table.insert entry.1 symbol := by
  unfold define
  cases Symbol.ofRules entry.2 with
  | error cause => simp
  | ok symbol => simp [eq_comm]

theorem exists_foldlM_define (table : SymbolTable)
    (h : ∀ entry ∈ entries, ∃ symbol, Symbol.ofRules entry.2 = .ok symbol) :
    ∃ next, entries.foldlM define table = .ok next := by
  apply Except.exists_foldlM
  intro table entry he
  obtain ⟨symbol, hs⟩ := h entry he
  exact ⟨table.insert entry.1 symbol, define_eq_ok_iff.mpr ⟨symbol, hs, rfl⟩⟩

-- Each entry adds the symbol that its rules describe.
theorem everywhere_foldlM_define (hn : entries.foldlM define table = .ok next)
    (ht : Everywhere P table)
    (h : ∀ entry ∈ entries, ∀ symbol, Symbol.ofRules entry.2 = .ok symbol → P symbol) :
    Everywhere P next := by
  refine (Except.foldlM_keeps (I := fun entries table => Everywhere P table ∧ ∀ entry ∈ entries,
    ∀ symbol, Symbol.ofRules entry.2 = .ok symbol → P symbol) ?_ ⟨ht, h⟩ hn).1
  rintro entry rest table next ⟨ht, h⟩ hd
  obtain ⟨symbol, hs, rfl⟩ := define_eq_ok_iff.mp hd
  exact ⟨ht.insert _ (h entry (by simp) symbol hs), fun other ho => h other (by simp [ho])⟩

-- No entry takes a name away.
theorem mem_foldlM_define (hn : entries.foldlM define table = .ok next) {name : String}
    (h : name ∈ table ∨ ∃ entry ∈ entries, entry.1 = name) : name ∈ next := by
  refine (Except.foldlM_keeps (I := fun entries table => name ∈ table ∨ ∃ entry ∈ entries,
    entry.1 = name) ?_ h hn).resolve_right (by simp)
  rintro entry rest table next h hd
  obtain ⟨symbol, hs, rfl⟩ := define_eq_ok_iff.mp hd
  rcases h with h | ⟨other, ho, rfl⟩
  · exact .inl (Std.TreeMap.mem_insert.mpr (.inr h))
  · rcases List.mem_cons.mp ho with rfl | ho
    · exact .inl Std.TreeMap.mem_insert_self
    · exact .inr ⟨other, ho, rfl⟩

-- Under each name there is the symbol that its rules describe, and there are no other names.
theorem getElem?_foldlM_define {definitions : Definitions}
    (hn : definitions.toList.foldlM define ∅ = .ok next) (name : String) :
    next[name]? = definitions[name]?.bind fun rules => (Symbol.ofRules rules).toOption := by
  -- names that are still to come do not count yet
  let I (entries : List (String × RuleSet)) (table : SymbolTable) : Prop :=
    (∀ entry ∈ entries, definitions[entry.1]? = some entry.2) ∧
      ∀ name, (∀ rules, (name, rules) ∉ entries) →
        table[name]? = definitions[name]?.bind fun rules => (Symbol.ofRules rules).toOption
  have hfirst : I definitions.toList ∅ := by
    refine ⟨fun entry he => Std.TreeMap.mem_toList_iff_getElem?_eq_some.mp he, fun name hm => ?_⟩
    have hnone : definitions[name]? = none := by
      apply Option.eq_none_iff_forall_ne_some.mpr
      intro rules hr
      exact hm rules (Std.TreeMap.mem_toList_iff_getElem?_eq_some.mpr hr)
    rw [hnone, Std.TreeMap.getElem?_emptyc]
    rfl
  have hstep : ∀ entry rest table next, I (entry :: rest) table → define table entry = .ok next →
      I rest next := by
    rintro entry rest table next ⟨hentries, htable⟩ hd
    obtain ⟨symbol, hs, rfl⟩ := define_eq_ok_iff.mp hd
    refine ⟨fun other ho => hentries other (List.mem_cons_of_mem _ ho), fun name hm => ?_⟩
    by_cases he : entry.1 = name
    · subst he
      rw [Std.TreeMap.getElem?_insert_self, hentries entry List.mem_cons_self, Option.bind_some, hs]
      rfl
    · have hout : ∀ rules, (name, rules) ∉ entry :: rest := by
        intro rules hr
        rcases List.mem_cons.mp hr with rfl | hr
        · exact he rfl
        · exact hm rules hr
      rw [← htable name hout, Std.TreeMap.getElem?_insert]
      simp [he]
  exact (Except.foldlM_keeps hstep hfirst hn).2 name fun rules => List.not_mem_nil

-- The values that are supplied from outside come last.
theorem symbolTable_eq_ok_iff {blueprint : Blueprint} :
    blueprint.symbolTable = .ok table ↔ ∃ entries defined, blueprint.definitions = .ok entries ∧
      entries.foldlM define ∅ = .ok defined ∧ table = blueprint.state.foldl
        (fun table (name, value) => table.insert name (Symbol.fixed value)) defined := by
  unfold symbolTable
  constructor
  · intro h
    obtain ⟨entries, he, h⟩ := Except.bind_eq_ok_iff.mp h
    obtain ⟨defined, hd, h⟩ := Except.bind_eq_ok_iff.mp h
    exact ⟨entries, defined, he, hd, (Except.ok.inj h).symm⟩
  · rintro ⟨entries, defined, he, hd, rfl⟩
    rw [he, Except.ok_bind, hd]
    rfl

theorem exists_symbolTable {blueprint : Blueprint} (hd : blueprint.definitions = .ok entries)
    (h : ∀ entry ∈ entries, ∃ symbol, Symbol.ofRules entry.2 = .ok symbol) :
    ∃ table, blueprint.symbolTable = .ok table := by
  obtain ⟨defined, hdefined⟩ := exists_foldlM_define ∅ h
  exact ⟨_, symbolTable_eq_ok_iff.mpr ⟨entries, defined, hd, hdefined, rfl⟩⟩

theorem everywhere_symbolTable {blueprint : Blueprint} (h : blueprint.symbolTable = .ok table)
    (hf : ∀ value, P (Symbol.fixed value))
    (hd : ∀ entries, blueprint.definitions = .ok entries → ∀ entry ∈ entries,
      ∀ symbol, Symbol.ofRules entry.2 = .ok symbol → P symbol) : Everywhere P table := by
  obtain ⟨entries, defined, he, hdefined, rfl⟩ := symbolTable_eq_ok_iff.mp h
  have hrules := everywhere_foldlM_define hdefined everywhere_empty (hd entries he)
  exact List.foldlRecOn blueprint.state _ hrules fun _ ht entry _ => ht.insert _ (hf entry.2)

theorem mem_symbolTable {blueprint : Blueprint} (h : blueprint.symbolTable = .ok table)
    (hd : blueprint.definitions = .ok entries) {entry : String × RuleSet} (he : entry ∈ entries) :
    entry.1 ∈ table := by
  obtain ⟨_, defined, hentries, hdefined, rfl⟩ := symbolTable_eq_ok_iff.mp h
  obtain rfl := Except.ok.inj (hd.symm.trans hentries)
  have hrules : entry.1 ∈ defined := mem_foldlM_define hdefined (.inr ⟨entry, he, rfl⟩)
  exact List.foldlRecOn (motive := (entry.1 ∈ ·)) blueprint.state _ hrules fun _ ht _ _ =>
    Std.TreeMap.mem_insert.mpr (.inr ht)

theorem build_eq_ok_iff {σ : Type} {blueprint : Blueprint} {source : σ} {grammar : Grammar σ} :
    blueprint.build source = .ok grammar ↔ ∃ table, blueprint.symbolTable = .ok table ∧
      grammar = { symbols := table, modifiers := blueprint.modifiers, source,
                  origin := blueprint.origin, maxDepth := blueprint.maxDepth } := by
  unfold build
  rw [Except.bind_eq_ok_iff]
  simp only [pure, Except.pure, Except.ok.injEq, eq_comm]

end Blueprint

-- A property of symbols that lasts whatever is done to them one at a time.
structure Symbol.Lasting (P : Symbol → Prop) : Prop where
  fixed (value : String) : P (Symbol.fixed value)
  setValue {symbol : Symbol} (value : String) : P symbol → P (symbol.setValue value)
  reset {symbol : Symbol} : P symbol → P symbol.reset

namespace Grammar

variable {σ : Type} [RandomSource σ] (grammar : Grammar σ)

-- An answer changes the symbols and the source, how often generators have been called, and the
-- output.
theorem answer_grammar (query : Query) : ∃ symbols source calls output,
    (grammar.answer query).grammar = { grammar with symbols, source, calls, output } := by
  have hresolve (name : String) (force : Bool) : ∃ symbols source calls,
      (grammar.resolve name force).grammar = { grammar with symbols, source, calls } := by
    unfold resolve
    split
    · exact ⟨_, _, _, rfl⟩
    · exact ⟨_, _, _, rfl⟩
  have hexpand (name : String) (force : Bool) : ∃ symbols source calls output,
      (grammar.expandSymbol name force).grammar =
        { grammar with symbols, source, calls, output } := by
    obtain ⟨symbols, source, calls, h⟩ := hresolve name force
    unfold expandSymbol
    dsimp only
    split
    · rw [h]
      exact ⟨_, _, _, _, rfl⟩
    · rw [h]
      exact ⟨_, _, _, _, rfl⟩
  cases query with
  | get name =>
      obtain ⟨symbols, source, calls, h⟩ := hresolve name false
      exact ⟨symbols, source, calls, grammar.output, h⟩
  | expandSymbol name force => exact hexpand name force
  | expand => exact hexpand grammar.origin false
  | evaluate text =>
      simp only [answer, evaluate]
      split
      · exact ⟨_, _, _, _, rfl⟩
      · exact ⟨_, _, _, _, rfl⟩

theorem answer_modifiers (query : Query) :
    (grammar.answer query).grammar.modifiers = grammar.modifiers := by
  obtain ⟨symbols, source, calls, output, h⟩ := grammar.answer_grammar query
  rw [h]

variable {P : Symbol → Prop}

-- Each operation keeps a property of all symbols that its own symbols have as well.
theorem everywhere_perform (hl : Symbol.Lasting P) (operation : Operation)
    (h : Everywhere P grammar.symbols)
    (ha : ∀ query, operation = .ask query → Everywhere P (grammar.answer query).grammar.symbols)
    (hr : ∀ name rules symbol, operation = .set name rules → Symbol.ofRules rules = .ok symbol →
      P symbol) : Everywhere P (grammar.perform operation).symbols := by
  have hp := grammar.performed operation
  generalize grammar.perform operation = next at hp ⊢
  cases hp with
  | asked => exact ha _ rfl
  | replaced hs => exact h.insert _ (hr _ _ _ rfl hs)
  | assigned hs => exact h.insert _ (hl.setValue _ (h _ _ hs))
  | added _ => exact h.insert _ (hl.fixed _)
  | returned hs => exact h.insert _ (hl.reset (h _ _ hs))
  | refused | missing _ | registered => exact h

variable {T : SymbolTable → Prop} {S : Step → Prop} {R : Request → Prop}
variable {Known Unknown : String → Prop} {Offered : Nat → Prop}

-- An answer leaves a world of which no more is known than before.
theorem answer_upholds
    (rules : PartRules (σ := σ) grammar.modifiers T S R Known Unknown Offered) (query : Query)
    (hk : ∀ name ∈ grammar.roots query, grammar.contains name = true → Known name)
    (ha : ∀ text template, query = .evaluate text → Template.parse text = .ok template →
      AsksIn grammar.modifiers Known Unknown Offered template.nodes)
    (ht : T grammar.symbols) : Upholds T S R (grammar.answer query).world :=
  (grammar.answer_keeps_world (rules.lookUpRules grammar.maxDepth) query hk (by simp) ha
    ⟨ht, by simp [world], by simp [world]⟩).1

end Grammar

end StoryGrammar
