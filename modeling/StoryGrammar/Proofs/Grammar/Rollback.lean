import Mathlib.Data.Nat.Find
import StoryGrammar.Proofs.Grammar.HeldValue
import StoryGrammar.Proofs.Grammar.Phase

namespace StoryGrammar

open Expansion

namespace Expansion

variable {σ : Type}

def Holds (name value : String) (world : World σ) : Prop :=
  world.symbols[name]?.bind Symbol.value = some value

-- A symbol keeps its value while others are drawn, whatever becomes of its sampler.
theorem drawRules_of_holds (name value : String) (limit : Nat) :
    DrawRules (σ := σ) (Holds name value) (fun _ => True) limit (fun _ _ => True) (· ≠ name) where
  dice _ h := h
  calls _ h := h
  journal _ h := h
  drawable := by
    rintro world other found hi hs hn rfl
    simp [Holds, hs, hn] at hi
  update := by
    intro world other found sampler text hne hi _
    have hkept : (world.symbols.insert other { found with sampler, value := text })[name]? =
        world.symbols[name]? := by
      simp [Std.TreeMap.getElem?_insert, hne]
    simp only [Holds, hkept]
    exact hi
  reach := by simp
  recursion := by simp
  depthExceeded := by simp
  template := by simp

variable [RandomSource σ] {modifiers : Modifiers} {limit : Nat} {name value : String}

-- A symbol that is drawn anew has its old value until the new text is complete.
theorem keeps_drawText_holds {lookUp : String → Expansion σ String}
    (h : ∀ other, Keeps (Holds name value) (fun _ => True) (lookUp other)) :
    Keeps (Holds name value) (fun _ => True) (drawText modifiers lookUp name) := by
  have rules := (drawRules_of_holds (σ := σ) name value 0).lookUpRules modifiers
  have hasks (nodes : List Template.Node) :
      AsksIn modifiers (fun other => Keeps (Holds name value) (fun _ => True) (lookUp other))
        (fun _ => True) (fun _ => True) nodes :=
    asksIn_of_refersIn fun target _ => ⟨h target.name, by simp⟩
  refine keeps_draw modifiers rules.toTemplateRules (fun _ _ _ _ _ _ nodes _ => hasks nodes) ?_
    (rules.exhausted name) rules.calls (fun _ _ _ _ _ _ _ _ _ => trivial)
  intro world symbol mask hi hs
  simp only [Holds, hs, Option.bind_some] at hi
  simp only [Holds, drawn, Std.TreeMap.getElem?_insert_self, Option.bind_some]
  exact hi

-- A look-up that is forced and fails leaves the value of its symbol as it was.
theorem holds_of_lookUp_error {budget : Nat} {active : List String} {world : World σ}
    {cause : GrammarError} (hb : active.length + budget = limit) (hi : Holds name value world)
    (h : (runOn (lookUp modifiers limit budget active true name) world).1 = .error cause) :
    Holds name value (runOn (lookUp modifiers limit budget active true name) world).2 := by
  obtain ⟨symbol, hs, -⟩ := Option.bind_eq_some_iff.mp hi
  rw [runOn_lookUp, hs] at h ⊢
  simp only [if_true] at h ⊢
  by_cases ha : name ∈ active
  · simp only [ha, if_true]
    exact hi
  · simp only [ha, if_false] at h ⊢
    cases budget with
    | zero => exact hi
    | succ budget =>
        have hdraw : Keeps (σ := σ) (Holds name value) (fun _ => True)
            (drawText modifiers (lookUp modifiers limit budget (active ++ [name]) false) name) := by
          apply keeps_drawText_holds
          intro other
          have rules := (drawRules_of_holds (σ := σ) name value limit).lookUpRules modifiers
          have hbudget : (active ++ [name]).length + budget = limit := by
            rw [List.length_append, List.length_singleton]
            omega
          exact keeps_lookUp rules budget (active ++ [name]) false other trivial hbudget (by simp)
        dsimp only at h ⊢
        rw [runOn_bind, runOn_note] at h ⊢
        dsimp only at h ⊢
        rw [runOn_bind] at h ⊢
        obtain ⟨hnext, -⟩ := hdraw
          { world with journal := world.journal.push (.opened (active ++ [name])) } hi
        rcases hr : runOn (drawText modifiers
            (lookUp modifiers limit budget (active ++ [name]) false) name)
            { world with journal := world.journal.push (.opened (active ++ [name])) }
          with ⟨other | text, next⟩
        · rw [hr] at hnext
          exact hnext
        · -- nothing can go wrong once the text is there
          obtain ⟨last, hsettled, -⟩ := exists_settled name text next
          rw [hr] at h
          dsimp only at h
          rw [← settle, hsettled] at h
          simp at h

end Expansion

namespace Grammar

variable {σ : Type} [RandomSource σ] (grammar : Grammar σ)

-- A query that is about nothing is turned down, and nothing at all has happened.
theorem answer_of_not_answerable {query : Query} (h : ¬grammar.Answerable query) :
    (∃ cause, (grammar.answer query).result = .error cause) ∧
      (grammar.answer query).grammar = grammar ∧ (grammar.answer query).requests = #[] := by
  have hresolve {name : String} (hc : ¬grammar.contains name = true) (force : Bool) :
      grammar.resolve name force = { result := .error (.symbolNotFound name), grammar } := by
    unfold resolve
    rw [if_neg hc]
  have hexpand {name : String} (hc : ¬grammar.contains name = true) (force : Bool) :
      grammar.expandSymbol name force = { result := .error (.symbolNotFound name), grammar } := by
    unfold expandSymbol
    rw [hresolve hc]
  cases query with
  | get name =>
      simp only [answer, get, hresolve h]
      exact ⟨⟨_, rfl⟩, trivial, trivial⟩
  | expandSymbol name force =>
      simp only [answer, hexpand h]
      exact ⟨⟨_, rfl⟩, trivial, trivial⟩
  | expand =>
      simp only [answer, expand, hexpand h]
      exact ⟨⟨_, rfl⟩, trivial, trivial⟩
  | evaluate text =>
      simp only [answer, evaluate]
      cases hp : Template.parse text with
      | error cause => exact ⟨⟨_, rfl⟩, rfl, rfl⟩
      | ok template => exact absurd ⟨template, hp⟩ h

theorem output_of_error {query : Query} {cause : GrammarError}
    (h : (grammar.answer query).result = .error cause) :
    (grammar.answer query).grammar.output = grammar.output := by
  have hresolve (name : String) (force : Bool) :
      (grammar.resolve name force).grammar.output = grammar.output := by
    unfold resolve
    split <;> rfl
  have hexpand {name : String} {force : Bool}
      (he : (grammar.expandSymbol name force).result = .error cause) :
      (grammar.expandSymbol name force).grammar.output = grammar.output := by
    rw [expandSymbol_result] at he
    unfold expandSymbol
    simp only [he]
    exact hresolve name force
  cases query with
  | get name => exact hresolve name false
  | expandSymbol name force => exact hexpand h
  | expand => exact hexpand h
  | evaluate text =>
      simp only [answer, evaluate]
      split <;> rfl

theorem contains_answer (query : Query) (name : String) :
    (grammar.answer query).grammar.contains name = grammar.contains name := by
  obtain ⟨count, hlast, -⟩ := runs_iff.mp (grammar.runs_answer query)
  have hmem := grammar.mem_symbols_moment query count name
  rw [moment, hlast] at hmem
  exact Bool.eq_iff_iff.mpr (Std.TreeMap.mem_iff_contains.symm.trans hmem)

-- A failure leaves a value where there was one.
theorem value_of_error {query : Query} {cause : GrammarError} {name value : String}
    (h : (grammar.answer query).result = .error cause)
    (hv : (grammar.symbol? name).bind Symbol.value = some value) :
    ((grammar.answer query).grammar.symbol? name).bind Symbol.value = some value := by
  by_cases hq : query = .expandSymbol name true
  · subst hq
    have hc : grammar.contains name = true := by
      obtain ⟨symbol, hs, -⟩ := Option.bind_eq_some_iff.mp hv
      exact (grammar.contains_iff name).mpr ⟨symbol, hs⟩
    have hresolve : grammar.resolve name true = grammar.run (grammar.lookUp true name) := by
      unfold resolve
      rw [if_pos hc]
    have hworld : (grammar.expandSymbol name true).world =
        (grammar.run (grammar.lookUp true name)).world := by
      rw [expandSymbol_world, hresolve]
    have herror : (grammar.run (grammar.lookUp true name)).result = .error cause := by
      rw [← hresolve, ← expandSymbol_result]
      exact h
    have hi : Holds name value grammar.world := hv
    have hkept : Holds name value (grammar.expandSymbol name true).world := by
      rw [hworld]
      exact holds_of_lookUp_error (Nat.zero_add grammar.maxDepth) hi herror
    exact hkept
  · have hrules := drawRules_of_holds (σ := σ) name value grammar.maxDepth
    refine (grammar.answer_keeps (J := fun table => table[name]?.bind Symbol.value = some value)
      hrules query (by simp) ?_ hv).1
    rintro other rfl
    simpa using hq

-- From the moment of a failure on nothing changes but what there is still to do.
theorem moment_failed_add {query : Query} {count : Nat} (h : (grammar.moment query count).Failed)
    (more : Nat) :
    (grammar.moment query (count + more)).task = (grammar.moment query count).task ∧
      (grammar.moment query (count + more)).world = (grammar.moment query count).world := by
  induction more with
  | zero => exact ⟨rfl, rfl⟩
  | succ more ih =>
      obtain ⟨ht, hw⟩ := ih
      obtain ⟨cause, hcause⟩ := h
      have hfailed : (grammar.moment query (count + more)).Failed := ⟨cause, ht.trans hcause⟩
      obtain ⟨ht', -, hw'⟩ := next_failed grammar.modifiers grammar.maxDepth hfailed
      rw [← Nat.add_assoc, moment_add]
      exact ⟨ht'.trans ht, hw'.trans hw⟩

-- Where an answer fails there is a first moment at which it does.
theorem exists_failed_moment {query : Query} {cause : GrammarError}
    (h : (grammar.answer query).result = .error cause) :
    ∃ count, (grammar.moment query count).task = .finish (.error cause) ∧
      (∀ earlier < count, ¬(grammar.moment query earlier).Failed) ∧
      (grammar.moment query count).world = (grammar.answer query).world := by
  classical
  obtain ⟨last, hlast, -⟩ := runs_iff.mp (grammar.runs_answer query)
  have hend : grammar.moment query last = ⟨.finish (.error cause), [], [],
      (grammar.answer query).world⟩ := by
    rw [← h]
    exact hlast
  have hfailed : ∃ count, (grammar.moment query count).Failed := ⟨last, cause, by rw [hend]⟩
  have hle : Nat.find hfailed ≤ last := Nat.find_min' hfailed ⟨cause, by rw [hend]⟩
  obtain ⟨more, rfl⟩ := Nat.exists_eq_add_of_le hle
  obtain ⟨ht, hw⟩ := grammar.moment_failed_add (Nat.find_spec hfailed) more
  rw [hend] at ht hw
  exact ⟨Nat.find hfailed, ht.symm, fun earlier he => Nat.find_min hfailed he, hw.symm⟩

-- What fails leaves the grammar as it should be. Where nothing is asked for, or where a text is not
-- what it claims to be, the grammar is not touched at all. Otherwise no name, no rule and no value
-- is lost, also of a symbol that is forced; and the symbols that are being drawn when the failure
-- arises are left without a value if they had none.
theorem failure_keeps :
    (∀ name rules cause, grammar.set name rules = .error cause →
      grammar.perform (.set name rules) = grammar) ∧
    (∀ query, ¬grammar.Answerable query → (∃ cause, (grammar.answer query).result = .error cause) ∧
      (grammar.answer query).grammar = grammar ∧ (grammar.answer query).requests = #[]) ∧
    ∀ query cause, (grammar.answer query).result = .error cause →
      let next := (grammar.answer query).grammar
      next.output = grammar.output ∧
      (∀ name, next.contains name = grammar.contains name) ∧
      (∀ name symbol, grammar.symbol? name = some symbol → ∃ later, next.symbol? name = some later ∧
        later.candidates = symbol.candidates ∧ later.distribution = symbol.distribution ∧
        ∀ value, symbol.value = some value → later.value = some value) ∧
      ∃ count, (grammar.moment query count).task = .finish (.error cause) ∧
        (∀ earlier < count, ¬(grammar.moment query earlier).Failed) ∧
        ∀ name ∈ (grammar.moment query count).chain,
          (next.symbol? name).bind Symbol.value = (grammar.symbol? name).bind Symbol.value := by
  refine ⟨fun name rules cause h => ?_, fun query h => grammar.answer_of_not_answerable h,
    fun query cause h => ⟨grammar.output_of_error h, grammar.contains_answer query, ?_, ?_⟩⟩
  · simp only [perform, h]
  · intro name symbol hs
    obtain ⟨phase, hstands, -⟩ := grammar.answer_stands query name
    obtain ⟨later, hlater, hcandidates, hdistribution⟩ := hstands.same_rules hs
    refine ⟨later, hlater, hcandidates, hdistribution, fun value hv => ?_⟩
    have hbefore : (grammar.symbol? name).bind Symbol.value = some value := by
      rw [hs]
      exact hv
    have hafter := grammar.value_of_error h hbefore
    rw [show (grammar.answer query).grammar.symbol? name = some later from hlater] at hafter
    exact hafter
  · obtain ⟨count, htask, hfirst, hworld⟩ := grammar.exists_failed_moment h
    refine ⟨count, htask, hfirst, fun name hm => ?_⟩
    obtain ⟨phase, hstands, hplaces⟩ := grammar.moment_stands query name count
    obtain ⟨symbol, hs⟩ := (grammar.orderly_moment query count).exists_symbol hm
    have hvalue := hstands.value_eq (hplaces.unsettled hm) hs
    rw [hworld] at hs
    rw [show (grammar.answer query).grammar.symbol? name = some symbol from hs, hvalue]
    rfl

-- A tale that was told once, and now does not come to an end.
def tale : Grammar Script where
  symbols := (((∅ : SymbolTable).insert "tale"
    ((Symbol.ofCandidates [⟨.written ⟨⟨"#hero# #end#",
      [.reference ⟨"hero", []⟩, .literal " ", .reference ⟨"end", []⟩]⟩, []⟩, 1⟩] .shuffle).setValue
        "a frog was kissed")).insert "hero"
    (.ofCandidates (["a frog", "a toad"].map fun text =>
      ⟨.written ⟨Template.verbatim text, []⟩, 1⟩) .pop)).insert "end"
    (.ofCandidates
      [⟨.written ⟨⟨"and #end#", [.literal "and ", .reference ⟨"end", []⟩]⟩, []⟩, 1⟩] .uniform)
  modifiers := .empty
  source := ⟨[0, 1]⟩
  origin := "tale"
  maxDepth := 16

theorem failure_keeps_tale :
    (∃ cause, tale.set "hero" (RuleSet.ofTexts ["a [frog"]) = .error cause ∧
      tale.perform (.set "hero" (RuleSet.ofTexts ["a [frog"])) = tale) ∧
    ¬tale.Answerable (.get "moral") ∧ (tale.answer (.get "moral")).requests = #[] ∧
    (tale.answer (.expandSymbol "tale" true)).result =
      .error (.recursion "end" ["tale", "end", "end"]) ∧
    ∃ later, (tale.answer (.expandSymbol "tale" true)).grammar.symbol? "tale" = some later ∧
      later.value = some "a frog was kissed" := by
  have hset : (tale.set "hero" (RuleSet.ofTexts ["a [frog"])).toBool = false := by decide +kernel
  have hget : ¬tale.Answerable (.get "moral") := by
    simp only [Answerable]
    decide +kernel
  have herror : (tale.answer (.expandSymbol "tale" true)).result =
      .error (.recursion "end" ["tale", "end", "end"]) := by decide +kernel
  have htale : (tale.symbol? "tale").bind Symbol.value = some "a frog was kissed" := by
    decide +kernel
  obtain ⟨symbol, hs, hv⟩ := Option.bind_eq_some_iff.mp htale
  obtain ⟨hkeeps, hrefused, hfailed⟩ := failure_keeps tale
  obtain ⟨-, -, hkept, -⟩ := hfailed _ _ herror
  obtain ⟨later, hlater, -, -, hvalue⟩ := hkept "tale" symbol hs
  refine ⟨?_, hget, (hrefused _ hget).2.2, herror, later, hlater, hvalue _ hv⟩
  cases hr : tale.set "hero" (RuleSet.ofTexts ["a [frog"]) with
  | ok changed => simp [hr, Except.toBool] at hset
  | error cause => exact ⟨cause, rfl, hkeeps _ _ _ hr⟩

end Grammar

end StoryGrammar
