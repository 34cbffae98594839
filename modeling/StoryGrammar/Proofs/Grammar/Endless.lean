import StoryGrammar.Proofs.Expansion.Compels
import StoryGrammar.Proofs.Grammar.Unreachable
import StoryGrammar.Proofs.Sampling.Bounds

namespace StoryGrammar

open Expansion

-- Whether the text of a candidate compels a look at a symbol of the name.
def Candidate.compels (name : String) (candidate : Candidate) : Bool :=
  candidate.body.passage?.any fun passage =>
    Template.Node.compels name passage.template.nodes

namespace Symbol

-- Whether a condition compels a look at a symbol of the name before anything is drawn. Only the
-- first condition of a candidate is tried in any case.
def tries (name : String) (symbol : Symbol) : Bool :=
  symbol.candidates.any fun candidate => candidate.conditions.head?.any fun condition =>
    Template.Node.compels name condition.nodes

-- Nothing may come to be drawn: each candidate waits for its conditions, or lies in no deck since it
-- has no weight.
def MayRest (symbol : Symbol) : Prop :=
  ∀ candidate ∈ symbol.candidates,
    candidate.conditions ≠ [] ∨ symbol.distribution = .popWeighted ∧ candidate.weight = 0

-- Generated candidates are not known beforehand, so a symbol has either no candidates that are
-- written or no others.
theorem isWritten_of_written {rules : RuleSet} {symbol : Symbol} (h : ofRules rules = .ok symbol)
    (hw : Lint.written symbol ≠ []) : symbol.IsWritten := by
  cases hs : rules.source with
  | rules written => exact isWritten_ofRules hs h
  | generator generator =>
      unfold ofRules at h
      rw [hs] at h
      obtain rfl := Except.ok.inj h
      exact absurd rfl hw

end Symbol

namespace Expansion

variable {σ : Type} {name : String} {own : Symbol}

abbrev Kept (name : String) (own : Symbol) (world : World σ) : Prop :=
  world.symbols[name]? = some own

variable [RandomSource σ] (modifiers : Modifiers) (limit : Nat)

omit [RandomSource σ] in
-- Where another symbol changes, this one stays.
theorem kept_insert {world : World σ} {other : String} (hi : Kept name own world)
    (hne : other ≠ name) (symbol : Symbol) :
    (world.symbols.insert other symbol)[name]? = some own := by
  rw [Std.TreeMap.getElem?_insert]
  simpa [hne] using hi

-- While a symbol is being drawn, nothing that is looked up inside changes it.
theorem steadyRules_kept : SteadyRules (σ := σ) (Kept name own) [name] where
  note _ := keeps_note fun _ h => h
  pick _ := keeps_roll fun _ h => h
  calls _ h := h
  drawn hn hi _ := kept_insert hi (List.ne_of_not_mem_cons hn) _
  hold := by
    intro other value hn world hi
    rw [runOn_hold]
    cases world.symbols[other]? with
    | none => exact ⟨hi, by simp⟩
    | some symbol => exact ⟨kept_insert hi (List.ne_of_not_mem_cons hn) _, by simp⟩

theorem sheltered_lookUp (budget : Nat) {active : List String} (ha : name ∈ active) :
    Sheltered (σ := σ) (Kept name own) (fun _ => True)
      (lookUp modifiers limit budget active false) where
  toTemplateRules := steadyRules_kept.templateRules
  lookUp := keeps_lookUp_of_steady modifiers steadyRules_kept limit budget
    (List.cons_subset.mpr ⟨ha, List.nil_subset active⟩) false

-- A symbol that is being drawn has no text for itself.
theorem blocked_lookUp (hv : own.value = none) (budget : Nat) {active : List String}
    (ha : name ∈ active) : Blocked (σ := σ) (Kept name own)
      (lookUp modifiers limit budget active false name) := by
  intro world hi text
  have hs : world.symbols[name]? = some own := hi
  rw [runOn_lookUp, hs]
  simp [hv, ha]

theorem blocked_renderCandidate [RangedSource σ] {lookUp : String → Expansion σ String}
    (rules : Sheltered (Kept name own) (fun _ => True) lookUp)
    (hb : Blocked (Kept name own) (lookUp name)) {passage : Passage}
    (h : Template.Node.compels name passage.template.nodes = true) :
    Blocked (Kept name own)
      (do render modifiers lookUp (← templateOf (.written passage)).nodes) := by
  intro world hi text
  rw [runOn_bind, runOn_templateOf]
  exact blocked_render modifiers rules hb h _ hi text

-- Where no deck has been dealt and nothing is drawn, a candidate that is allowed is missing from
-- the deck, because it has no weight.
theorem weight_eq_zero_of_nothing_drawn [RangedSource σ] (hd : own.sampler.deck = none)
    (hweights : own.weights = own.candidates.map Candidate.weight) {mask : Option (List Bool)}
    {dice : Dice σ}
    (h : ((own.sampler.draw own.weights mask).run dice).1.1.bind (own.candidates[·]?) = none)
    {index : Nat} {candidate : Candidate} (hc : own.candidates[index]? = some candidate)
    (ha : Sampler.allows mask index = true) :
    own.distribution = .popWeighted ∧ candidate.weight = 0 := by
  have hlength : own.weights.length = own.candidates.length := by
    rw [hweights, List.length_map]
  have hfits : own.sampler.Fits own.weights := by
    intro deck hdeck
    rw [hd] at hdeck
    cases hdeck
  have hnone : ((own.sampler.draw own.weights mask).run dice).1.1 = none := by
    apply Option.eq_none_iff_forall_ne_some.mpr
    intro position hp
    have hlt := (hfits.draw mask dice).1 position hp
    rw [hp, Option.bind_some] at h
    have hle := List.getElem?_eq_none_iff.mp h
    omega
  have hi : index < own.weights.length := by
    rw [hlength]
    exact (List.getElem?_eq_some_iff.mp hc).1
  obtain ⟨hp, hw⟩ := Sampler.weight_eq_zero_of_draw_eq_none hd hnone hi ha
  rw [hweights, List.getElem?_map, hc] at hw
  exact ⟨hp, Option.some.inj hw⟩

-- Where a condition compels a look at the symbol that is drawn, the draw comes to nothing before a
-- candidate is taken.
theorem blocked_drawText_of_tries [RangedSource σ] {lookUp : String → Expansion σ String}
    (rules : Sheltered (Kept name own) (fun _ => True) lookUp)
    (hb : Blocked (Kept name own) (lookUp name)) (ht : own.tries name = true) :
    Blocked (Kept name own) (drawText modifiers lookUp name) := by
  intro world hi text h
  have hs : world.symbols[name]? = some own := hi
  obtain ⟨candidate, hm, htried⟩ := List.any_eq_true.mp ht
  obtain ⟨condition, hhead, hcondition⟩ := (Option.any_eq_true _ _).mp htried
  have hblocked := blocked_eligibility modifiers rules hb
    ⟨candidate, hm, condition, hhead, hcondition⟩
  rw [runOn_drawText, hs] at h
  obtain ⟨mask, next, he, -⟩ := runOn_bind_eq_ok_iff.mp h
  exact hblocked world hi mask (by rw [he])

-- Where every text compels a look at the symbol that is drawn, the draw comes to no text, unless
-- nothing can be drawn.
theorem drawText_of_compels [RangedSource σ] {lookUp : String → Expansion σ String}
    (rules : ∀ sampler, Sheltered (Kept name { own with sampler }) (fun _ => True) lookUp)
    (hb : ∀ sampler, Blocked (Kept name { own with sampler }) (lookUp name))
    (hd : own.sampler.deck = none)
    (hweights : own.weights = own.candidates.map Candidate.weight)
    (hc : ∀ candidate ∈ own.candidates, candidate.compels name = true) {world : World σ}
    (hi : Kept name own world) {text : String}
    (h : (runOn (drawText modifiers lookUp name) world).1 = .ok text) :
    text = "" ∧ own.MayRest := by
  have hs : world.symbols[name]? = some own := hi
  have hown := rules own.sampler
  rw [runOn_drawText, hs] at h
  obtain ⟨mask, next, he, h⟩ := runOn_bind_eq_ok_iff.mp h
  have hmask : (runOn (eligibility modifiers lookUp own) world).1 = .ok mask := by rw [he]
  have hnext : next.symbols[name]? = some own := by
    have hk := (hown.eligibility modifiers own world hi).1
    rwa [he] at hk
  rw [runOn_bind, runOn_drawCandidate, hnext] at h
  dsimp only at h
  cases hdrawn : ((own.sampler.draw own.weights mask).run next.dice).1.1.bind
      (own.candidates[·]?) with
  | some candidate =>
      rw [hdrawn] at h
      obtain ⟨index, -, hget⟩ := Option.bind_eq_some_iff.mp hdrawn
      have hcompels := hc candidate (List.mem_of_getElem? hget)
      obtain ⟨sampler, hafter⟩ : ∃ sampler,
          Kept name { own with sampler } (drawn next name own mask) :=
        ⟨_, Std.TreeMap.getElem?_insert_self⟩
      obtain ⟨body, weight⟩ := candidate
      cases body with
      | generated generator => simp [Candidate.compels, Body.passage?] at hcompels
      | written passage =>
          exact absurd h (blocked_renderCandidate modifiers (rules sampler) (hb sampler)
            hcompels _ hafter text)
  | none =>
      rw [hdrawn] at h
      refine ⟨(Except.ok.inj h).symm, fun candidate hm => ?_⟩
      by_cases hn : candidate.conditions = []
      · obtain ⟨index, hget⟩ := List.mem_iff_getElem?.mp hm
        have hallowed := allows_of_eligibility modifiers hmask hget hn
        exact .inr (weight_eq_zero_of_nothing_drawn hd hweights hdrawn hget hallowed)
      · exact .inl hn

-- A text that has been looked up for a symbol without a value has been drawn.
theorem drawText_of_lookUp (hv : own.value = none) {budget : Nat} {active : List String}
    {world : World σ} (hi : Kept name own world) {text : String}
    (h : (runOn (lookUp modifiers limit budget active false name) world).1 = .ok text) :
    ∃ rest, (runOn (drawText modifiers (lookUp modifiers limit rest (active ++ [name]) false) name)
      { world with journal := world.journal.push (.opened (active ++ [name])) }).1 = .ok text := by
  have hs : world.symbols[name]? = some own := hi
  rw [runOn_lookUp, hs] at h
  simp only [hv, Bool.false_eq_true, if_false] at h
  by_cases ha : name ∈ active
  · rw [if_pos ha] at h
    cases h
  · rw [if_neg ha] at h
    cases budget with
    | zero => cases h
    | succ budget =>
        refine ⟨budget, ?_⟩
        dsimp only at h
        rw [runOn_bind, runOn_note] at h
        obtain ⟨value, next, hdraw, h⟩ := runOn_bind_eq_ok_iff.mp h
        obtain ⟨-, last, -, hlast⟩ := runOn_bind_eq_ok_iff.mp h
        obtain rfl : value = text := Except.ok.inj hlast
        rw [hdraw]

end Expansion

namespace Lint

theorem of_endless_checkSymbol {definitions : Definitions} {name other : String} {symbol : Symbol}
    (h : .endlessRecursion name ∈ checkSymbol definitions other symbol) :
    other = name ∧ written symbol ≠ [] ∧
      ∀ candidate ∈ written symbol, name ∈ targets candidate := by
  rw [checkSymbol, List.mem_append, List.mem_append] at h
  rcases h with (h | h) | h
  · obtain ⟨candidate, -, h⟩ := List.mem_flatMap.mp h
    obtain ⟨target, -, h⟩ := List.mem_flatMap.mp h
    simp only [checkReference, List.mem_append, List.mem_map] at h
    rcases h with h | ⟨call, -, h⟩
    · split at h <;> simp at h
    · cases h
  · split at h
    · rename_i hall
      obtain rfl : name = other := by simpa using h
      obtain ⟨hne, hall⟩ := Bool.and_eq_true_iff.mp hall
      refine ⟨rfl, by simpa using hne, fun candidate hc => ?_⟩
      have htargets := List.all_eq_true.mp hall candidate hc
      simpa using htargets
    · simp at h
  · split at h <;> simp at h

-- What is reported to be endless is written down, and each of its candidates refers to it.
theorem of_endless {definitions : Definitions} {name origin : String}
    (h : .endlessRecursion name ∈ lint definitions origin) {rules : RuleSet}
    (hr : definitions[name]? = some rules) {symbol : Symbol}
    (hs : Symbol.ofRules rules = .ok symbol) :
    symbol.IsWritten ∧ ∀ candidate ∈ symbol.candidates, name ∈ targets candidate := by
  rcases List.mem_append.mp h with h | h
  · obtain ⟨⟨other, own⟩, he, h⟩ := List.mem_flatMap.mp h
    have hd := Std.TreeMap.mem_toList_iff_getElem?_eq_some.mp he
    dsimp only [checkDefinition] at h
    cases ho : Symbol.ofRules own with
    | error cause => simp [ho] at h
    | ok made =>
        rw [ho] at h
        obtain ⟨rfl, hne, hall⟩ := of_endless_checkSymbol h
        obtain rfl := Option.some.inj (hd.symm.trans hr)
        obtain rfl := Except.ok.inj (ho.symm.trans hs)
        have hwritten := Symbol.isWritten_of_written hs hne
        exact ⟨hwritten, fun candidate hm => hall candidate (mem_written.mpr ⟨hm, hwritten _ hm⟩)⟩
  · unfold checkReach at h
    split at h
    · simp at h
    · simp at h

end Lint

namespace Grammar

variable {σ : Type} [RandomSource σ]

theorem get_result {grammar : Grammar σ} {name : String} (h : grammar.contains name = true) :
    (grammar.get name).result = (runOn (grammar.lookUp false name) grammar.world).1 := by
  rw [get, resolve, if_pos h]
  rfl

omit [RandomSource σ] in
-- A path through the grammar is no longer than the list of what is defined.
theorem Path.length_le {grammar : Grammar σ} {definitions : Definitions} {roots names : List String}
    (h : grammar.Path roots names)
    (hd : ∀ name, grammar.contains name = true → name ∈ definitions) :
    names.length ≤ definitions.size := by
  have hsub : names ⊆ definitions.keys := fun name hn =>
    Std.TreeMap.mem_keys.mpr (hd name (h.defined name hn))
  rw [← Std.TreeMap.length_keys]
  exact (List.subperm_of_subset h.distinct hsub).length_le

omit [RandomSource σ] in
-- Where the limit leaves room for all names, no path is too long.
theorem Accounted.exists_recursion {grammar : Grammar σ} {definitions : Definitions}
    {roots : List String} {cause : GrammarError} (h : grammar.Accounted roots cause)
    (hd : ∀ name, grammar.contains name = true → name ∈ definitions)
    (hsize : definitions.size ≤ grammar.maxDepth) :
    ∃ name chain, cause = .recursion name chain := by
  rcases h with ⟨name, path, rfl, -⟩ | ⟨_, path, -, hlength, -, hpath⟩
  · exact ⟨name, _, rfl⟩
  · have hle := hpath.length_le hd
    omega

section

variable [RangedSource σ] {grammar : Grammar σ} {name : String} {symbol : Symbol}

omit [RangedSource σ] in
-- A symbol without a value has been drawn if a text of it comes out, and until then it is kept.
theorem exists_draw_of_get (hs : grammar.symbol? name = some symbol) (hv : symbol.value = none)
    {text : String} (h : (grammar.get name).result = .ok text) :
    ∃ (rest : Nat) (world : World σ), Kept name symbol world ∧
      (runOn (drawText grammar.modifiers
        (Expansion.lookUp grammar.modifiers grammar.maxDepth rest [name] false) name) world).1 =
        .ok text := by
  rw [get_result ((grammar.contains_iff name).mpr ⟨symbol, hs⟩)] at h
  obtain ⟨rest, hdraw⟩ := drawText_of_lookUp grammar.modifiers grammar.maxDepth hv hs h
  refine ⟨rest, _, ?_, hdraw⟩
  exact hs

-- Where a condition compels a look at the symbol, there is no text of it.
theorem get_ne_ok_of_tries (hs : grammar.symbol? name = some symbol) (hv : symbol.value = none)
    (ht : symbol.tries name = true) (text : String) : (grammar.get name).result ≠ .ok text := by
  intro h
  obtain ⟨rest, world, hkept, hdraw⟩ := exists_draw_of_get hs hv h
  have hactive : name ∈ [name] := List.mem_singleton_self name
  exact blocked_drawText_of_tries grammar.modifiers
    (sheltered_lookUp grammar.modifiers grammar.maxDepth rest hactive)
    (blocked_lookUp grammar.modifiers grammar.maxDepth hv rest hactive) ht world hkept text hdraw

-- Where every text of the symbol compels a look at it, nothing comes out, unless nothing can be
-- drawn.
theorem get_of_compels (hs : grammar.symbol? name = some symbol) (hv : symbol.value = none)
    (hd : symbol.sampler.deck = none)
    (hweights : symbol.weights = symbol.candidates.map Candidate.weight)
    (hc : ∀ candidate ∈ symbol.candidates, candidate.compels name = true) {text : String}
    (h : (grammar.get name).result = .ok text) : text = "" ∧ symbol.MayRest := by
  obtain ⟨rest, world, hkept, hdraw⟩ := exists_draw_of_get hs hv h
  have hactive : name ∈ [name] := List.mem_singleton_self name
  have hblocked (sampler : Sampler) : Blocked (σ := σ) (Kept name { symbol with sampler })
      (Expansion.lookUp grammar.modifiers grammar.maxDepth rest [name] false name) := by
    have hnone : ({ symbol with sampler } : Symbol).value = none := hv
    exact blocked_lookUp grammar.modifiers grammar.maxDepth hnone rest hactive
  exact drawText_of_compels grammar.modifiers
    (fun _ => sheltered_lookUp grammar.modifiers grammar.maxDepth rest hactive) hblocked hd hweights
    hc hkept hdraw

end

-- A table that is made of definitions holds nothing else.
theorem exists_rules_of_getElem? {definitions : Definitions} {table : SymbolTable}
    (ht : ∀ name : String, table[name]? =
      definitions[name]?.bind fun rules => (Symbol.ofRules rules).toOption)
    {name : String} {symbol : Symbol} (h : table[name]? = some symbol) :
    ∃ rules, definitions[name]? = some rules ∧ Symbol.ofRules rules = .ok symbol := by
  obtain ⟨rules, hr, hmade⟩ := Option.bind_eq_some_iff.mp ((ht name).symm.trans h)
  refine ⟨rules, hr, ?_⟩
  cases hs : Symbol.ofRules rules with
  | error cause =>
      rw [hs] at hmade
      cases hmade
  | ok own =>
      rw [hs] at hmade
      exact congrArg Except.ok (Option.some.inj hmade)

-- Definitions that all build make a grammar that holds them. Where all of them are written, the
-- references account for the failure of a look-up; where the limit leaves room for all names, it is
-- a recursion.
theorem exists_grammar {definitions : Definitions}
    (hb : ∀ (name : String) (rules : RuleSet), definitions[name]? = some rules →
      ∃ symbol, Symbol.ofRules rules = .ok symbol)
    {name : String} {rules : RuleSet} {symbol : Symbol} (hr : definitions[name]? = some rules)
    (hs : Symbol.ofRules rules = .ok symbol) (modifiers : Modifiers) (origin : String)
    (maxDepth : Nat) (source : σ) :
    ∃ grammar : Grammar σ,
      (Blueprint.ofDefinitions definitions modifiers origin maxDepth).build source = .ok grammar ∧
      grammar.symbol? name = some symbol ∧
      ((∀ (other : String) (found : RuleSet), definitions[other]? = some found →
          ∃ written, found.source = .rules written) →
        ∀ cause, (grammar.get name).result = .error cause → grammar.Accounted [name] cause ∧
          (definitions.size ≤ maxDepth → ∃ other chain, cause = .recursion other chain)) := by
  obtain ⟨table, ht, hbuild⟩ := exists_build hb source
  let grammar : Grammar σ := { symbols := table, modifiers, source, origin, maxDepth }
  have hsymbol : grammar.symbol? name = some symbol := by
    have hname := ht name
    rw [hr, Option.bind_some, hs] at hname
    exact hname
  refine ⟨grammar, hbuild, hsymbol, fun hw cause hcause => ?_⟩
  have hwritten : grammar.IsWritten := by
    intro other found hf
    obtain ⟨rules, hd, hmade⟩ := exists_rules_of_getElem? ht hf
    obtain ⟨written, hsource⟩ := hw other rules hd
    exact Symbol.isWritten_ofRules hsource hmade
  have hdefined : ∀ other, grammar.contains other = true → other ∈ definitions := by
    intro other ho
    obtain ⟨found, hf⟩ := (grammar.contains_iff other).mp ho
    obtain ⟨rules, hd, -⟩ := exists_rules_of_getElem? ht hf
    rw [Std.TreeMap.mem_iff_isSome_getElem?, hd]
    rfl
  have hanswerable : grammar.Answerable (.get name) :=
    (grammar.contains_iff name).mpr ⟨symbol, hsymbol⟩
  have haccounted : grammar.Accounted [name] cause :=
    grammar.answer_accounted hwritten hanswerable hcause
  exact ⟨haccounted, haccounted.exists_recursion hdefined⟩

-- A symbol is reported to be endless, and no candidate that refers to it can do without a look at
-- it. Then there is no text of it, whatever the source answers. All that may come out is nothing,
-- and only where nothing can be drawn. Where no rules are generated, the references account for the
-- failure; where the limit leaves room for all names, it is a recursion.
theorem get_of_endless [RangedSource σ] {definitions : Definitions} {origin : String}
    (hb : ∀ (name : String) (rules : RuleSet), definitions[name]? = some rules →
      ∃ symbol, Symbol.ofRules rules = .ok symbol)
    {name : String} {rules : RuleSet} {symbol : Symbol} (hr : definitions[name]? = some rules)
    (hs : Symbol.ofRules rules = .ok symbol)
    (hl : .endlessRecursion name ∈ lint definitions origin)
    (hc : ∀ candidate ∈ symbol.candidates, name ∈ Lint.targets candidate →
      candidate.compels name = true)
    (modifiers : Modifiers) (maxDepth : Nat) (source : σ) :
    ∃ grammar, (Blueprint.ofDefinitions definitions modifiers origin maxDepth).build source =
        .ok grammar ∧
      (∀ text, (grammar.get name).result = .ok text → text = "" ∧ symbol.MayRest) ∧
      ((∀ (other : String) (found : RuleSet), definitions[other]? = some found →
          ∃ written, found.source = .rules written) →
        ∀ cause, (grammar.get name).result = .error cause → grammar.Accounted [name] cause ∧
          (definitions.size ≤ maxDepth → ∃ other chain, cause = .recursion other chain)) := by
  obtain ⟨grammar, hbuild, hsymbol, hfailure⟩ :=
    exists_grammar hb hr hs modifiers origin maxDepth source
  refine ⟨grammar, hbuild, fun text htext => ?_, hfailure⟩
  obtain ⟨-, hrefers⟩ := Lint.of_endless hl hr hs
  have hcompels : ∀ candidate ∈ symbol.candidates, candidate.compels name = true :=
    fun candidate hm => hc candidate hm (hrefers candidate hm)
  obtain ⟨hvalue, hdeck⟩ := Symbol.fresh_of_ofRules hs
  have hweights : symbol.weights = symbol.candidates.map Candidate.weight := by
    rw [Symbol.eq_ofCandidates hs]
    rfl
  exact get_of_compels hsymbol hvalue hdeck hweights hcompels htext

-- The first condition of a candidate cannot do without a look at the symbol. Then there is no text
-- of it, not even an empty one, whether or not anything is reported.
theorem get_of_tries [RangedSource σ] {definitions : Definitions}
    (hb : ∀ (name : String) (rules : RuleSet), definitions[name]? = some rules →
      ∃ symbol, Symbol.ofRules rules = .ok symbol)
    {name : String} {rules : RuleSet} {symbol : Symbol} (hr : definitions[name]? = some rules)
    (hs : Symbol.ofRules rules = .ok symbol) (ht : symbol.tries name = true)
    (modifiers : Modifiers) (origin : String) (maxDepth : Nat) (source : σ) :
    ∃ grammar, (Blueprint.ofDefinitions definitions modifiers origin maxDepth).build source =
        .ok grammar ∧
      (∀ text, (grammar.get name).result ≠ .ok text) ∧
      ((∀ (other : String) (found : RuleSet), definitions[other]? = some found →
          ∃ written, found.source = .rules written) →
        ∀ cause, (grammar.get name).result = .error cause → grammar.Accounted [name] cause ∧
          (definitions.size ≤ maxDepth → ∃ other chain, cause = .recursion other chain)) := by
  obtain ⟨grammar, hbuild, hsymbol, hfailure⟩ :=
    exists_grammar hb hr hs modifiers origin maxDepth source
  have hvalue := (Symbol.fresh_of_ofRules hs).1
  exact ⟨grammar, hbuild, get_ne_ok_of_tries hsymbol hvalue ht, hfailure⟩

-- A knot that comes back to itself in all options, through an argument, and in both branches. What
-- stands beside it is reported as well, but a branch may end in a leaf, and an idler is never drawn.
def ropes : Definitions :=
  ((((∅ : Definitions).insert "knot" ⟨.rules [{ text := "[over #knot#|#knot# under]" },
      { text := "#link.join(#knot.s#)#", conditions := ["#link#"] },
      { text := "#?link=o?#knot#:a #knot##" }], .shuffle⟩).insert
    "branch" (.ofText "[leaf|#branch#]")).insert
    "idler" ⟨.rules [{ text := "#idler#", weight := 0 }], .popWeighted⟩).insert
    "link" (.ofText "o")

theorem ropes_written (name : String) (rules : RuleSet) (h : ropes[name]? = some rules) :
    ∃ written, rules.source = .rules written := by
  simp only [ropes, Std.TreeMap.getElem?_insert, Std.TreeMap.getElem?_emptyc] at h
  repeat' split at h
  all_goals cases h
  all_goals exact ⟨_, rfl⟩

theorem exists_symbol_ropes (name : String) (rules : RuleSet) (h : ropes[name]? = some rules) :
    ∃ symbol, Symbol.ofRules rules = .ok symbol := by
  have hall : ∀ entry ∈ ropes.toList,
      (Symbol.ofRules entry.2).toOption.any (fun _ => true) = true := by decide +kernel
  have hentry := hall (name, rules) (Std.TreeMap.mem_toList_iff_getElem?_eq_some.mpr h)
  obtain ⟨symbol, hs, -⟩ := Except.exists_of_any_toOption hentry
  exact ⟨symbol, hs⟩

theorem get_of_endless_knot : .endlessRecursion "knot" ∈ lint ropes "knot" ∧
    ∃ grammar other chain, (Blueprint.ofDefinitions ropes Modifiers.english "knot" 64).build
        (⟨[1, 0, 2]⟩ : Script) = .ok grammar ∧
      (grammar.get "knot").result = .error (.recursion other chain) := by
  have hknot : ∃ rules, ropes["knot"]? = some rules ∧
      .endlessRecursion "knot" ∈ Lint.checkDefinition ropes "knot" rules ∧
      (Symbol.ofRules rules).toOption.any (fun symbol =>
        symbol.candidates.all (·.compels "knot") && symbol.distribution == .shuffle &&
          symbol.candidates.any (·.conditions.isEmpty)) = true := by
    refine ⟨_, rfl, ?_, ?_⟩ <;> decide +kernel
  obtain ⟨rules, hr, hcheck, hsound⟩ := hknot
  obtain ⟨symbol, hs, hsymbol⟩ := Except.exists_of_any_toOption hsound
  simp only [Bool.and_eq_true, List.all_eq_true, beq_iff_eq, List.any_eq_true,
    List.isEmpty_iff] at hsymbol
  obtain ⟨⟨hcompels, hpolicy⟩, candidate, hm, hfree⟩ := hsymbol
  have hl : .endlessRecursion "knot" ∈ lint ropes "knot" := Lint.mem_lint hr hcheck
  obtain ⟨grammar, hbuild, hok, herror⟩ := get_of_endless exists_symbol_ropes hr hs hl
    (fun candidate hm _ => hcompels candidate hm) Modifiers.english 64 (⟨[1, 0, 2]⟩ : Script)
  cases hresult : (grammar.get "knot").result with
  | ok text =>
      have hrest := (hok text hresult).2 candidate hm
      simp [hfree, hpolicy] at hrest
  | error cause =>
      obtain ⟨other, chain, rfl⟩ := (herror ropes_written cause hresult).2 (by decide +kernel)
      exact ⟨hl, grammar, other, chain, hbuild, hresult⟩

-- The report alone does not mean that there is no text.
theorem endless_with_text :
    (∀ name ∈ ["branch", "idler"], .endlessRecursion name ∈ lint ropes "knot") ∧
    ∃ grammar, (Blueprint.ofDefinitions ropes Modifiers.english "knot" 64).build
        (⟨[0]⟩ : Script) = .ok grammar ∧
      (grammar.get "branch").result = .ok "leaf" ∧ (grammar.get "idler").result = .ok "" := by
  have hcheck : ∀ name ∈ ["branch", "idler"], ropes[name]?.any (fun rules =>
      (Lint.checkDefinition ropes name rules).contains (.endlessRecursion name)) = true := by
    decide +kernel
  have hbuild : ((Blueprint.ofDefinitions ropes Modifiers.english "knot" 64).build
      (⟨[0]⟩ : Script)).toOption.any (fun grammar =>
        decide ((grammar.get "branch").result = .ok "leaf") &&
        decide ((grammar.get "idler").result = .ok "")) = true := by
    decide +kernel
  obtain ⟨grammar, hb, hresults⟩ := Except.exists_of_any_toOption hbuild
  simp only [Bool.and_eq_true, decide_eq_true_eq] at hresults
  obtain ⟨hbranch, hidler⟩ := hresults
  refine ⟨fun name hn => ?_, grammar, hb, hbranch, hidler⟩
  obtain ⟨rules, hr, hc⟩ := (Option.any_eq_true _ _).mp (hcheck name hn)
  exact Lint.mem_lint hr (List.contains_iff_mem.mp hc)

end Grammar

end StoryGrammar
