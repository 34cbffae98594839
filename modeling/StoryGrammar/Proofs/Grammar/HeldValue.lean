import StoryGrammar.Proofs.Grammar.Operation
import StoryGrammar.Random.Script

namespace StoryGrammar

open Expansion

namespace Operation

-- Operations that do not say anything new about a symbol. Resetting it only concerns its deck.
def Spares (name : String) : Operation → Prop
  | .ask (.expandSymbol other force) => other ≠ name ∨ force = false
  | .ask _ => True
  | .set other _ => other ≠ name
  | .setValue other _ => other ≠ name
  | .reset _ => True
  | .registerModifier _ _ => True

end Operation

namespace Grammar

variable {σ : Type}

-- Where a symbol holds a value, looking it up does not draw it. Only other symbols change.
theorem drawRules_of_held {name value : String} {symbol : Symbol} (hv : symbol.value = some value)
    (limit : Nat) :
    DrawRules (σ := σ) (fun world => world.symbols[name]? = some symbol) (fun _ => True) limit
      (fun _ _ => True) (· ≠ name) where
  dice _ h := h
  calls _ h := h
  journal _ h := h
  drawable := by
    rintro world other found hi hs hn rfl
    rw [hi] at hs
    cases hs
    simp [hv] at hn
  update := by
    intro world other found sampler text hne hi _
    simp only [Std.TreeMap.getElem?_insert]
    simpa [hne] using hi
  reach := by simp
  recursion := by simp
  depthExceeded := by simp
  template := by simp

-- Names are only ever added.
theorem drawRules_of_defined (name : String) (limit : Nat) :
    DrawRules (σ := σ) (fun world => name ∈ world.symbols) (fun _ => True) limit
      (fun _ _ => True) (fun _ => True) where
  dice _ h := h
  calls _ h := h
  journal _ h := h
  drawable := by simp
  update := by
    intro world other found sampler text _ hi _
    exact Std.TreeMap.mem_insert.mpr (.inr hi)
  reach := by simp
  recursion := by simp
  depthExceeded := by simp
  template := by simp

variable [RandomSource σ] (grammar : Grammar σ)

theorem contains_perform {name : String} (operation : Operation)
    (h : grammar.contains name = true) : (grammar.perform operation).contains name = true := by
  have hp := grammar.performed operation
  generalize grammar.perform operation = next at hp ⊢
  cases hp with
  | asked =>
      exact (grammar.answer_keeps (J := fun table => name ∈ table)
        (drawRules_of_defined name grammar.maxDepth) _ (by simp) (by simp) h).1
  | replaced _ | assigned _ | added _ | returned _ => exact grammar.contains_put _ _ h
  | refused | missing _ | registered => exact h

-- One operation that spares a symbol with a value leaves it as it is, or returns its candidates
-- to the deck.
theorem symbol?_perform {name value : String} {symbol : Symbol} (operation : Operation)
    (hs : grammar.symbol? name = some symbol) (hv : symbol.value = some value)
    (h : operation.Spares name) :
    (operation ≠ .reset name → (grammar.perform operation).symbol? name = some symbol) ∧
      (operation = .reset name → (grammar.perform operation).symbol? name = some symbol.reset) := by
  have hp := grammar.performed operation
  generalize grammar.perform operation = next at hp ⊢
  cases hp with
  | asked =>
      rename_i query
      refine ⟨fun _ => ?_, by simp⟩
      refine (grammar.answer_keeps (J := fun table => table[name]? = some symbol)
        (drawRules_of_held hv grammar.maxDepth) query (by simp) ?_ hs).1
      rintro other rfl
      simpa [Operation.Spares] using h
  | replaced _ | assigned _ | added _ =>
      exact ⟨fun _ => (grammar.symbol?_put_of_ne _ h).trans hs, by simp⟩
  | returned hr =>
      rename_i other found
      constructor
      · intro hne
        have hother : other ≠ name := fun he => hne (by rw [he])
        exact (grammar.symbol?_put_of_ne _ hother).trans hs
      · intro he
        obtain rfl : other = name := by simpa using he
        obtain rfl : symbol = found := by simpa [hs] using hr
        exact grammar.symbol?_put_self _ _
  | missing hr =>
      rename_i other
      refine ⟨fun _ => hs, fun he => ?_⟩
      obtain rfl : other = name := by simpa using he
      simp [hs] at hr
  | refused | registered => exact ⟨fun _ => hs, by simp⟩

theorem symbol?_after {name value : String} {symbol : Symbol} (run : List Operation)
    (hs : grammar.symbol? name = some symbol) (hv : symbol.value = some value)
    (h : ∀ operation ∈ run, operation.Spares name) :
    (.reset name ∉ run → (grammar.after run).symbol? name = some symbol) ∧
      (.reset name ∈ run → (grammar.after run).symbol? name = some symbol.reset) := by
  induction run generalizing grammar symbol with
  | nil => exact ⟨fun _ => hs, by simp⟩
  | cons operation run ih =>
      obtain ⟨hkept, hreset⟩ := grammar.symbol?_perform operation hs hv (h _ (by simp))
      have hrest : ∀ operation ∈ run, operation.Spares name :=
        fun other ho => h other (by simp [ho])
      by_cases he : operation = .reset name
      · refine ⟨fun hn => absurd he.symm (by simp_all), fun _ => ?_⟩
        obtain ⟨hkept', hreset'⟩ := ih (grammar.perform operation) (hreset he) hv hrest
        by_cases hm : .reset name ∈ run
        · exact hreset' hm
        · exact hkept' hm
      · obtain ⟨hkept', hreset'⟩ := ih (grammar.perform operation) (hkept he) hv hrest
        refine ⟨fun hn => hkept' fun hm => hn (by simp [hm]), fun hm => hreset' ?_⟩
        exact (List.mem_cons.mp hm).resolve_left (Ne.symm he)

-- Reading a symbol with a value asks the source nothing and changes nothing.
theorem get_of_held {name value : String} {symbol : Symbol}
    (hs : grammar.symbol? name = some symbol) (hv : symbol.value = some value) :
    (grammar.get name).result = .ok value ∧ (grammar.get name).requests = #[] ∧
      (grammar.get name).grammar = grammar := by
  have hc : grammar.contains name = true := (grammar.contains_iff name).mpr ⟨symbol, hs⟩
  have hrun : runOn (grammar.lookUp false name) grammar.world = (.ok value,
      { grammar.world with journal := #[.event (.symbol name value true)] }) := by
    have hw : grammar.world.symbols[name]? = some symbol := hs
    simp only [lookUp, runOn_lookUp, hw, hv, Bool.false_eq_true, if_false]
    rfl
  have hget : grammar.get name = grammar.run (grammar.lookUp false name) := by
    simp only [get, resolve, hc, if_true]
  rw [hget, grammar.run_eq hrun]
  exact ⟨rfl, rfl, rfl⟩

-- Once a symbol has a value, nothing but an operation on the symbol itself changes it. Whatever
-- else is drawn in whatever order, and whether it succeeds or fails, the symbol goes on to hold
-- the value, its deck stays as it is until it is reset, and reading it costs no choice. No name is
-- ever lost.
theorem held_symbol_frozen (run : List Operation) :
    (∀ name, grammar.contains name = true → (grammar.after run).contains name = true) ∧
    ∀ name symbol value, grammar.symbol? name = some symbol → symbol.value = some value →
      (∀ operation ∈ run, operation.Spares name) →
      (∃ kept, (grammar.after run).symbol? name = some kept ∧
        kept.candidates = symbol.candidates ∧ kept.value = some value ∧
        kept.distribution = symbol.distribution ∧
        (.reset name ∉ run → kept.sampler = symbol.sampler) ∧
        (.reset name ∈ run → kept.sampler.deck = none ∧ kept.sampler.last = none)) ∧
      ((grammar.after run).get name).result = .ok value ∧
      ((grammar.after run).get name).requests = #[] ∧
      ((grammar.after run).get name).grammar = grammar.after run := by
  constructor
  · intro name hc
    exact after_keeps (Q := fun _ => True) (fun grammar operation h _ =>
      grammar.contains_perform operation h) grammar run hc (by simp)
  · intro name symbol value hs hv hspare
    obtain ⟨hkept, hreset⟩ := grammar.symbol?_after run hs hv hspare
    by_cases hm : .reset name ∈ run
    · refine ⟨⟨symbol.reset, hreset hm, rfl, hv, rfl, fun hn => absurd hm hn,
        fun _ => ⟨rfl, rfl⟩⟩, ?_⟩
      exact (grammar.after run).get_of_held (hreset hm) hv
    · refine ⟨⟨symbol, hkept hm, rfl, hv, rfl, fun _ => rfl, fun h => absurd h hm⟩, ?_⟩
      exact (grammar.after run).get_of_held (hkept hm) hv

-- A colour that was drawn from a deck of three, and a room that is painted in it.
def colour : Symbol where
  candidates := ["red", "green", "blue"].map fun text =>
    ⟨.written ⟨Template.verbatim text, []⟩, 1⟩
  weights := [1, 1, 1]
  sampler := ⟨.pop, some [0, 2], some 1⟩
  value := some "green"

def room : Symbol :=
  .ofCandidates [⟨.written ⟨⟨"a #colour# room",
    [.literal "a ", .reference ⟨"colour", []⟩, .literal " room"]⟩, []⟩, 1⟩] .uniform

def paint : Grammar Script where
  symbols := ((∅ : SymbolTable).insert "colour" colour).insert "room" room
  modifiers := .empty
  source := ⟨[2, 1]⟩
  origin := "room"
  maxDepth := 8

theorem paint_colour : paint.symbol? "colour" = some colour := by
  simp only [paint, symbol?, Std.TreeMap.getElem?_insert]
  rfl

-- Symbols are drawn around the colour, again and again, and its deck is reset.
def painting : List Operation :=
  [.ask .expand, .ask (.expandSymbol "room" true), .ask (.expandSymbol "colour" false),
    .setValue "room" "a bare room", .reset "colour", .ask (.get "garden")]

theorem held_symbol_frozen_painting :
    (∀ operation ∈ painting, operation.Spares "colour") ∧
    (∃ kept, (paint.after painting).symbol? "colour" = some kept ∧
      kept.candidates = colour.candidates ∧ kept.value = some "green" ∧
      kept.sampler.deck = none) ∧
    ((paint.after painting).get "colour").result = .ok "green" := by
  have hspare : ∀ operation ∈ painting, operation.Spares "colour" := by
    simp [painting, Operation.Spares]
  have hreset : .reset "colour" ∈ painting := by simp [painting]
  obtain ⟨⟨kept, hk, hc, hv, -, -, hdeck⟩, hget, -, -⟩ :=
    (held_symbol_frozen paint painting).2 "colour" colour "green" paint_colour rfl hspare
  exact ⟨hspare, ⟨kept, hk, hc, hv, (hdeck hreset).1⟩, hget⟩

end Grammar

end StoryGrammar
