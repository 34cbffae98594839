import Mathlib.Data.List.Nodup
import StoryGrammar.Proofs.Expansion.Simulation
import StoryGrammar.Proofs.Expansion.Turns
import StoryGrammar.Proofs.Grammar.Bounds

namespace StoryGrammar

open Expansion SymbolTable

namespace Expansion

variable {σ : Type} [RandomSource σ] {modifiers : Modifiers} {limit : Nat} {moment next : Moment σ}

-- The symbols that are being drawn exist, differ from each other, and are not too many.
structure Moment.Orderly (limit : Nat) (moment : Moment σ) : Prop extends moment.Aligned where
  distinct : moment.chain.Nodup
  bounded : moment.chain.length ≤ limit

theorem Moment.Orderly.turn (h : moment.Orderly limit) (ht : Turn limit moment next) :
    next.Orderly limit := by
  obtain ⟨⟨hopenings, hdefined⟩, hdistinct, hbounded⟩ := h
  cases ht with
  | quiet ho hc hw =>
      refine ⟨⟨?_, ?_⟩, ?_, ?_⟩
      · rw [ho, hc, hopenings]
      · rw [hc, hw.symbols]
        exact hdefined
      · rwa [hc]
      · rwa [hc]
  | recalled _ _ ho hc hw =>
      refine ⟨⟨?_, ?_⟩, ?_, ?_⟩
      · rw [ho, hc, hopenings]
      · rw [hc, hw]
        exact hdefined
      · rwa [hc]
      · rwa [hc]
  | opened _ hs _ hn hl ho hc hw =>
      refine ⟨⟨?_, ?_⟩, ?_, ?_⟩
      · rw [ho, hc, List.map_cons, hopenings, List.reverse_concat]
      · rw [hc, hw.symbols]
        intro name hm
        rcases List.mem_append.mp hm with hm | hm
        · exact hdefined name hm
        · rw [List.mem_singleton.mp hm, Std.TreeMap.mem_iff_isSome_getElem?, hs]
          rfl
      · rw [hc]
        simpa using List.Nodup.concat hn hdistinct
      · rw [hc, List.length_append, List.length_singleton]
        omega
  | drawn ho _ ho' hc hw =>
      refine ⟨⟨?_, ?_⟩, ?_, ?_⟩
      · rw [ho', hc, ← hopenings, ho, List.map_cons, List.map_cons]
      · rw [hc, hw.symbols]
        intro other hm
        exact Std.TreeMap.mem_insert.mpr (.inr (hdefined other hm))
      · rwa [hc]
      · rwa [hc]
  | settled ho hc hs hw =>
      rw [hc] at hdistinct hbounded hopenings hdefined
      refine ⟨⟨?_, ?_⟩, ?_, ?_⟩
      · rw [ho, List.map_cons, List.reverse_concat] at hopenings
        exact (List.cons.inj hopenings).2
      · rw [hw]
        intro other hm
        exact Std.TreeMap.mem_insert.mpr (.inr (hdefined other (List.mem_append_left _ hm)))
      · exact List.Nodup.of_append_left hdistinct
      · rw [List.length_append] at hbounded
        omega
  | gaveUp _ _ hc ho hw =>
      refine ⟨⟨ho, ?_⟩, ?_, ?_⟩
      · rw [hw]
        exact fun other hm => hdefined other (hc.subset hm)
      · exact hdistinct.sublist hc.sublist
      · exact hc.length_le.trans hbounded

-- No step adds a name, or takes one away.
theorem Turn.mem_symbols (ht : Turn limit moment next) (name : String) :
    name ∈ next.world.symbols ↔ name ∈ moment.world.symbols := by
  have hinsert {table : SymbolTable} {other : String} {symbol later : Symbol}
      (hs : table[other]? = some symbol) : name ∈ table.insert other later ↔ name ∈ table := by
    have hother : other ∈ table := by
      rw [Std.TreeMap.mem_iff_isSome_getElem?, hs]
      rfl
    rw [Std.TreeMap.mem_insert]
    constructor
    · rintro (he | hm)
      · obtain rfl : other = name := by simpa using he
        exact hother
      · exact hm
    · exact .inr
  cases ht with
  | quiet _ _ hw | opened _ _ _ _ _ _ _ hw => rw [hw.symbols]
  | recalled _ _ _ _ hw | gaveUp _ _ _ _ hw => rw [hw]
  | drawn _ hs _ _ hw =>
      rw [hw.symbols]
      exact hinsert hs
  | settled _ _ hs hw =>
      rw [hw]
      exact hinsert hs

-- No step spoils a symbol.
theorem Turn.serves [RangedSource σ] (ht : Turn limit moment next)
    (h : Everywhere Symbol.Serves moment.world.symbols) :
    Everywhere Symbol.Serves next.world.symbols := by
  cases ht with
  | quiet _ _ hw | opened _ _ _ _ _ _ _ hw =>
      rw [hw.symbols]
      exact h
  | recalled _ _ _ _ hw | gaveUp _ _ _ _ hw =>
      rw [hw]
      exact h
  | drawn _ hs _ _ hw =>
      rw [hw.symbols]
      exact h.insert _ ((h _ _ hs).drawn _ _)
  | settled _ _ hs hw =>
      rw [hw]
      exact h.insert _ (Symbol.lasting_serves.setValue _ (h _ _ hs))

-- From symbols that serve, a checked draw finds its candidate if the source stays within the range.
theorem exists_drawCandidate? [RangedSource σ] {world : World σ}
    (h : Everywhere Symbol.Serves world.symbols) (name : String)
    (mask : Option (List Bool)) : ∃ result, drawCandidate? name mask world = some result := by
  unfold drawCandidate?
  cases hs : world.symbols[name]? with
  | none => exact ⟨_, rfl⟩
  | some symbol =>
      have hdraw := Sampler.drawChecked_agrees symbol.sampler symbol.weights mask world.dice
      dsimp only
      rw [hdraw]
      cases hi : ((symbol.sampler.draw symbol.weights mask).run world.dice).1 with
      | mk index sampler =>
          cases index with
          | none => exact ⟨_, rfl⟩
          | some index =>
              have hlt := (h name symbol hs).index_lt (congrArg Prod.fst hi)
              dsimp only
              rw [List.getElem?_eq_getElem hlt]
              exact ⟨_, rfl⟩

theorem Moment.nextChecked_eq_next [RangedSource σ]
    (h : Everywhere Symbol.Serves moment.world.symbols) :
    moment.nextChecked modifiers limit = some (moment.next modifiers limit) := by
  have hgoes : ∃ later, moment.nextChecked modifiers limit = some later := by
    obtain ⟨task, frames, chain, world⟩ := moment
    cases task with
    | draw name mask =>
        obtain ⟨result, hd⟩ := exists_drawCandidate? h name mask
        exact ⟨_, Option.map_eq_some_iff.mpr ⟨result, hd, rfl⟩⟩
    | _ => exact ⟨_, rfl⟩
  obtain ⟨later, hl⟩ := hgoes
  rw [hl, Moment.next_of_nextChecked hl]

end Expansion

namespace Grammar

variable {σ : Type} [RandomSource σ] (grammar : Grammar σ)

-- How the reading of a symbol starts. It has failed already where there is no such symbol.
def rootTask (name : String) (force : Bool) : Task :=
  if grammar.contains name then .resolve name force else .finish (.error (.symbolNotFound name))

def firstTask : Query → Task
  | .get name => grammar.rootTask name false
  | .expandSymbol name force => grammar.rootTask name force
  | .expand => grammar.rootTask grammar.origin false
  | .evaluate text =>
    match Template.parse text with
    | .ok template => .sequence template.nodes
    | .error cause => .finish (.error (.template cause))

-- The answer to a query after some steps. No symbol is being drawn at first.
def moment (query : Query) (count : Nat) : Moment σ :=
  (Moment.next grammar.modifiers grammar.maxDepth)^[count]
    ⟨grammar.firstTask query, [], [], grammar.world⟩

theorem moment_add (query : Query) (count more : Nat) : grammar.moment query (count + more) =
    (Moment.next grammar.modifiers grammar.maxDepth)^[more] (grammar.moment query count) := by
  rw [moment, Nat.add_comm, Function.iterate_add_apply]
  rfl

-- What each step keeps, all moments of an answer have.
theorem moment_keeps {P : Moment σ → Prop} {query : Query} (hfirst : P (grammar.moment query 0))
    (hnext : ∀ moment, P moment → P (moment.next grammar.modifiers grammar.maxDepth))
    (count : Nat) : P (grammar.moment query count) := by
  induction count with
  | zero => exact hfirst
  | succ count ih =>
      rw [moment_add]
      exact hnext _ ih

omit [RandomSource σ] in
theorem opening?_firstTask (query : Query) : (grammar.firstTask query).opening? = none := by
  have hroot (name : String) (force : Bool) : (grammar.rootTask name force).opening? = none := by
    unfold rootTask
    split <;> rfl
  cases query with
  | get name => exact hroot name false
  | expandSymbol name force => exact hroot name force
  | expand => exact hroot grammar.origin false
  | evaluate text =>
      simp only [firstTask]
      split <;> rfl

theorem orderly_moment (query : Query) (count : Nat) :
    (grammar.moment query count).Orderly grammar.maxDepth := by
  refine grammar.moment_keeps ?_ (fun moment h => h.turn (turn_next h.toAligned)) count
  refine ⟨⟨?_, ?_⟩, List.nodup_nil, Nat.zero_le _⟩
  · change ((grammar.firstTask query).opening?.toList ++ []).map Prod.fst = [].reverse
    rw [opening?_firstTask]
    rfl
  · intro name hm
    exact absurd hm List.not_mem_nil

theorem mem_symbols_moment (query : Query) (count : Nat) (name : String) :
    name ∈ (grammar.moment query count).world.symbols ↔ grammar.contains name = true := by
  induction count with
  | zero => exact Std.TreeMap.mem_iff_contains
  | succ count ih =>
      have hturn : Turn grammar.maxDepth (grammar.moment query count)
          ((grammar.moment query count).next grammar.modifiers grammar.maxDepth) :=
        turn_next (grammar.orderly_moment query count).toAligned
      rw [moment_add, ← ih]
      exact hturn.mem_symbols name

-- A look-up inside an answer is carried out to its end, and takes the chain back to where it was.
theorem runs_resolve {moment : Moment σ} (h : moment.Orderly grammar.maxDepth) {name : String}
    {force : Bool} (ht : moment.task = .resolve name force) :
    ∃ result world, Runs grammar.modifiers grammar.maxDepth moment.frames moment
      ⟨.finish result, moment.frames, moment.chain, world⟩ := by
  obtain ⟨task, frames, chain, world⟩ := moment
  have hbudget : chain.length + (grammar.maxDepth - chain.length) = grammar.maxDepth :=
    Nat.add_sub_of_le h.bounded
  obtain rfl : task = .resolve name force := ht
  exact ⟨_, _, lookUp_carries _ chain hbudget name force frames world⟩

theorem runs_root (name : String) (force : Bool) :
    Runs grammar.modifiers grammar.maxDepth [] ⟨grammar.rootTask name force, [], [], grammar.world⟩
      ⟨.finish (grammar.resolve name force).result, [], [], (grammar.resolve name force).world⟩ := by
  unfold rootTask resolve
  split
  · exact lookUp_carries grammar.maxDepth [] (Nat.zero_add _) name force [] grammar.world
  · exact .stay (List.suffix_refl _)

theorem runs_answer (query : Query) :
    Runs grammar.modifiers grammar.maxDepth []
      ⟨grammar.firstTask query, [], [], grammar.world⟩
      ⟨.finish (grammar.answer query).result, [], [], (grammar.answer query).world⟩ := by
  cases query with
  | get name => exact grammar.runs_root name false
  | expandSymbol name force =>
      simp only [answer, expandSymbol_world, expandSymbol_result]
      exact grammar.runs_root name force
  | expand =>
      simp only [answer, expand, expandSymbol_world, expandSymbol_result]
      exact grammar.runs_root grammar.origin false
  | evaluate text =>
      simp only [firstTask, answer, evaluate]
      cases Template.parse text with
      | error cause => exact .stay (List.suffix_refl _)
      | ok template =>
        have hresolves : Resolves grammar.modifiers grammar.maxDepth [] (grammar.lookUp false) :=
          fun name => lookUp_carries grammar.maxDepth [] (Nat.zero_add _) name false
        have hcarries := carries_sequence (write_carries hresolves template.nodes) [] grammar.world
        exact hcarries

theorem moment_eq_of_le (query : Query) : ∃ count, ∀ later ≥ count, grammar.moment query later =
    ⟨.finish (grammar.answer query).result, [], [], (grammar.answer query).world⟩ := by
  obtain ⟨count, hlast, -⟩ := runs_iff.mp (grammar.runs_answer query)
  refine ⟨count, fun later hl => ?_⟩
  obtain ⟨more, rfl⟩ := Nat.exists_eq_add_of_le hl
  rw [moment_add, moment, hlast]
  exact Function.iterate_fixed rfl more

-- The answer to a query by checked draws. Once an index has been out of range, nothing follows.
def checkedMoment (query : Query) : Nat → Option (Moment σ)
  | 0 => some (grammar.moment query 0)
  | count + 1 =>
    (checkedMoment query count).bind (Moment.nextChecked grammar.modifiers grammar.maxDepth)

-- As far as it goes, the checked answer passes through the same moments.
theorem checkedMoment_cases (query : Query) (count : Nat) :
    grammar.checkedMoment query count = none ∨
      grammar.checkedMoment query count = some (grammar.moment query count) := by
  induction count with
  | zero => exact .inr rfl
  | succ count ih =>
      rw [checkedMoment]
      rcases ih with hn | hs
      · rw [hn]
        exact .inl rfl
      · rw [hs, Option.bind_some]
        cases hstep : Moment.nextChecked grammar.modifiers grammar.maxDepth
            (grammar.moment query count) with
        | none => exact .inl rfl
        | some later =>
            rw [moment_add, ← Moment.next_of_nextChecked hstep]
            exact .inr rfl

variable {grammar} in
theorem moment_of_checkedMoment {query : Query} {count : Nat} {moment : Moment σ}
    (h : grammar.checkedMoment query count = some moment) :
    grammar.moment query count = moment := by
  rcases grammar.checkedMoment_cases query count with hn | hs
  · rw [hn] at h
    cases h
  · exact Option.some.inj (hs.symm.trans h)

theorem serves_moment [RangedSource σ] (h : Everywhere Symbol.Serves grammar.symbols)
    (query : Query) (count : Nat) :
    Everywhere Symbol.Serves (grammar.moment query count).world.symbols := by
  induction count with
  | zero => exact h
  | succ count ih =>
      have hturn : Turn grammar.maxDepth (grammar.moment query count)
          ((grammar.moment query count).next grammar.modifiers grammar.maxDepth) :=
        turn_next (grammar.orderly_moment query count).toAligned
      rw [moment_add]
      exact hturn.serves ih

-- Where all symbols serve, no index is out of range if the source stays within the range.
theorem checkedMoment_eq_moment [RangedSource σ] (h : Everywhere Symbol.Serves grammar.symbols)
    (query : Query) (count : Nat) :
    grammar.checkedMoment query count = some (grammar.moment query count) := by
  induction count with
  | zero => rfl
  | succ count ih =>
      have hserves := grammar.serves_moment h query count
      rw [checkedMoment, ih, Option.bind_some, Moment.nextChecked_eq_next hserves, moment_add]
      rfl

-- Whatever a grammar looks like, wherever its symbols lead, and whatever the source answers, every
-- query is answered after finitely many steps, unless an index is out of range before. At each step
-- no symbol is being drawn twice, none that does not exist, and no more than the limit allows; and
-- each look-up on the way comes to a result, with the symbols that are being drawn the same as
-- before. In a grammar that has been built no index is out of range, if the source stays within the
-- range that it is asked for.
theorem answer_terminates (query : Query) :
    (∃ count, grammar.checkedMoment query count = none ∨
      ∀ later ≥ count, grammar.checkedMoment query later =
        some ⟨.finish (grammar.answer query).result, [], [], (grammar.answer query).world⟩) ∧
    (∀ count moment, grammar.checkedMoment query count = some moment →
      moment.chain.Nodup ∧ (∀ name ∈ moment.chain, grammar.contains name = true) ∧
      moment.chain.length ≤ grammar.maxDepth ∧
      ∀ name force, moment.task = .resolve name force → ∃ more,
        (grammar.checkedMoment query (count + more) = none ∨ ∃ result last,
          grammar.checkedMoment query (count + more) = some last ∧ last.task = .finish result ∧
          last.frames = moment.frames ∧ last.chain = moment.chain) ∧
        ∀ between ≤ more, ∀ inner, grammar.checkedMoment query (count + between) = some inner →
          moment.frames <:+ inner.frames) ∧
    (RangedSource σ → ∀ (blueprint : Blueprint) (source : σ) (built : Grammar σ)
      (run : List Operation), blueprint.build source = .ok built → grammar = built.after run →
      ∀ count, ∃ moment, grammar.checkedMoment query count = some moment) := by
  refine ⟨?_, fun count moment hm => ?_, fun hr blueprint source built run hb hg count => ?_⟩
  · obtain ⟨count, hlast⟩ := grammar.moment_eq_of_le query
    by_cases hcrash : ∃ later ≥ count, grammar.checkedMoment query later = none
    · obtain ⟨later, -, hnone⟩ := hcrash
      exact ⟨later, .inl hnone⟩
    · refine ⟨count, .inr fun later hl => ?_⟩
      rw [← hlast later hl]
      exact (grammar.checkedMoment_cases query later).resolve_left fun hn => hcrash ⟨later, hl, hn⟩
  · obtain rfl := moment_of_checkedMoment hm
    have horderly := grammar.orderly_moment query count
    refine ⟨horderly.distinct, fun name hn => ?_, horderly.bounded, fun name force ht => ?_⟩
    · exact (grammar.mem_symbols_moment query count name).mp (horderly.defined name hn)
    · obtain ⟨result, world, hruns⟩ := grammar.runs_resolve horderly ht
      obtain ⟨more, hlast, hfloor⟩ := runs_iff.mp hruns
      refine ⟨more, ?_, fun between hle inner hi => ?_⟩
      · refine (grammar.checkedMoment_cases query (count + more)).imp_right fun hs => ?_
        rw [moment_add, hlast] at hs
        exact ⟨result, _, hs, rfl, rfl, rfl⟩
      · obtain rfl := moment_of_checkedMoment hi
        rw [moment_add]
        exact hfloor between hle
  · subst hg
    exact ⟨_, (built.after run).checkedMoment_eq_moment (serves_after hb run) query count⟩

-- The day turns into the night, and the night into the day.
def carousel : Blueprint where
  symbols := [("day", .ofText "#night#"),
    ("night", ⟨.rules [{ text := "#day#" }, { text := "dark" }], .shuffle⟩)]
  origin := "day"

theorem answer_terminates_carousel :
    ∃ grammar, carousel.build (⟨[0, 1]⟩ : Script) = .ok grammar ∧
      ∃ count, ∀ later ≥ count, ∃ world, grammar.checkedMoment .expand later =
        some ⟨.finish (.error (.recursion "day" ["day", "night", "day"])), [], [], world⟩ := by
  have hbuild : (carousel.build (⟨[0, 1]⟩ : Script)).toOption.any (fun grammar =>
      decide ((grammar.answer .expand).result =
        .error (.recursion "day" ["day", "night", "day"]))) = true := by decide +kernel
  obtain ⟨grammar, hb, hresult⟩ := Except.exists_of_any_toOption hbuild
  obtain ⟨⟨count, hend⟩, -, hsafe⟩ := answer_terminates grammar .expand
  refine ⟨grammar, hb, count, fun later hl => ?_⟩
  rcases hend with hnone | hend
  · obtain ⟨moment, hm⟩ := hsafe inferInstance carousel _ grammar [] hb rfl count
    rw [hnone] at hm
    cases hm
  · exact ⟨_, (hend later hl).trans (by rw [of_decide_eq_true hresult])⟩

end Grammar

end StoryGrammar
