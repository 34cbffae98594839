import StoryGrammar.Proofs.Grammar.Mirror

namespace StoryGrammar

open Expansion

-- Two tables that differ only in symbols that are not used. Those are as they were at first, and
-- nothing that is used refers to them.
structure SymbolTable.Agree (Used : String → Prop) (first first' table table' : SymbolTable) :
    Prop where
  used : ∀ name, Used name → table'[name]? = table[name]?
  within : ∀ name symbol, Used name → table[name]? = some symbol → symbol.StaysIn Used
  spared : ∀ name, ¬Used name → table[name]? = first[name]?
  spared' : ∀ name, ¬Used name → table'[name]? = first'[name]?

open SymbolTable

namespace Expansion

variable {σ : Type} {Used : String → Prop} {first first' table table' : SymbolTable}

-- A symbol that is used gets another value or another sampler.
theorem agree_insert (h : Agree Used first first' table table') {name : String}
    {symbol next : Symbol} (hu : Used name) (hs : table[name]? = some symbol)
    (hn : next.candidates = symbol.candidates) :
    Agree Used first first' (table.insert name next) (table'.insert name next) := by
  have hother {table : SymbolTable} {other : String} (ho : ¬Used other) :
      (table.insert name next)[other]? = table[other]? := by
    have hne : name ≠ other := fun he => ho (he ▸ hu)
    simp [Std.TreeMap.getElem?_insert, hne]
  refine ⟨fun other ho => ?_, fun other found ho hf => ?_, fun other ho => ?_, fun other ho => ?_⟩
  · simp only [Std.TreeMap.getElem?_insert, h.used other ho]
  · rw [Std.TreeMap.getElem?_insert] at hf
    split at hf
    · obtain rfl := Option.some.inj hf
      unfold Symbol.StaysIn
      rw [hn]
      exact h.within name symbol hu hs
    · exact h.within other found ho hf
  · exact (hother ho).trans (h.spared other ho)
  · exact (hother ho).trans (h.spared' other ho)

-- In worlds that are the same but for tables that agree, two expansions do the same, and the tables
-- agree afterwards.
def Alike (Used : String → Prop) (first first' : SymbolTable) (α : Type) (m m' : Expansion σ α) :
    Prop :=
  ∀ world table', Agree Used first first' world.symbols table' →
    ∃ next', Agree Used first first' (runOn m world).2.symbols next' ∧
      runOn m' { world with symbols := table' } =
        ((runOn m world).1, { (runOn m world).2 with symbols := next' })

-- The same world with another table.
def Agreeing (Used : String → Prop) (first first' : SymbolTable) (world world' : World σ) : Prop :=
  ∃ table', Agree Used first first' world.symbols table' ∧
    world' = { world with symbols := table' }

variable [RandomSource σ]

theorem mirrorRules_of_agreeing :
    MirrorRules (σ := σ) (Agreeing Used first first') Used [] where
  outside := by simp
  used := by
    rintro world _ name ⟨table', ha, rfl⟩ hu
    exact ha.used name hu
  within := by
    rintro world _ name symbol ⟨table', ha, rfl⟩ hu hs
    exact ha.within name symbol hu hs
  note := by
    rintro world _ step ⟨table', ha, rfl⟩
    refine ⟨table', ha, ?_⟩
    cases step <;> rfl
  roll := by
    rintro α question world _ - ⟨table', ha, rfl⟩
    exact ⟨rfl, table', ha, rfl⟩
  update := by
    rintro world _ name symbol next ⟨table', ha, rfl⟩ hu hs hn
    exact ⟨_, agree_insert ha hu hs hn, rfl⟩

-- What is used is looked up in the same way, whatever is not used.
theorem alike_lookUp {modifiers : Modifiers} (limit budget : Nat) (active : List String)
    (force : Bool) {name : String} (hu : Used name) :
    Alike (σ := σ) Used first first' String (lookUp modifiers limit budget active force name)
      (lookUp modifiers limit budget active force name) := by
  intro world table' ha
  obtain ⟨⟨next', hnext, hworld⟩, hresult⟩ := mirrorRules_of_agreeing.mirrors_lookUp modifiers limit
    budget active force hu world { world with symbols := table' } ⟨table', ha, rfl⟩
  refine ⟨next', hnext, Prod.ext (hresult.trans ?_) hworld⟩
  cases (runOn (lookUp modifiers limit budget active force name) world).1 with
  | ok text => rfl
  | error cause => cases cause <;> rfl

end Expansion

end StoryGrammar
