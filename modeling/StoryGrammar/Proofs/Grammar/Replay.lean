import StoryGrammar.Proofs.Except
import StoryGrammar.Proofs.Grammar.Once

namespace StoryGrammar

open Expansion

-- From one table to a later one, values that are held stay, and no name comes or goes.
structure SymbolTable.Extends (first later : SymbolTable) : Prop where
  undefined : ∀ name : String, later[name]? = none ↔ first[name]? = none
  holds : ∀ (name : String) (value : String), first[name]?.bind Symbol.value = some value →
    later[name]?.bind Symbol.value = some value

open SymbolTable

theorem SymbolTable.extends_refl (table : SymbolTable) : Extends table table :=
  ⟨fun _ => Iff.rfl, fun _ _ h => h⟩

theorem SymbolTable.Extends.trans {first middle later : SymbolTable} (h : Extends first middle)
    (h' : Extends middle later) : Extends first later where
  undefined name := (h'.undefined name).trans (h.undefined name)
  holds name value hv := h'.holds name value (h.holds name value hv)

namespace Expansion

variable {σ α β : Type}

-- All that is drawn is a symbol without a value.
theorem drawRules_of_extends (first : SymbolTable) (limit : Nat) :
    DrawRules (σ := σ) (fun world => Extends first world.symbols) (fun _ => True) limit
      (fun _ _ => True) (fun name => first[name]?.bind Symbol.value = none) where
  dice _ h := h
  calls _ h := h
  journal _ h := h
  drawable := by
    intro world name symbol hi hs hn
    refine Option.eq_none_iff_forall_ne_some.mpr fun value hv => ?_
    have hheld := hi.holds name value hv
    rw [hs, Option.bind_some, hn] at hheld
    cases hheld
  update := by
    intro world name symbol sampler text hd hi hs
    refine ⟨fun other => ?_, fun other value hv => ?_⟩
    · rw [Std.TreeMap.getElem?_insert, ← hi.undefined other]
      split
      · rename_i he
        obtain rfl : name = other := by simpa using he
        simp [hs]
      · exact Iff.rfl
    · have hne : name ≠ other := by
        rintro rfl
        rw [hd] at hv
        cases hv
      simp only [Std.TreeMap.getElem?_insert, Std.compare_eq_iff_eq, hne, if_false]
      exact hi.holds other value hv
  reach := by simp
  recursion := by simp
  depthExceeded := by simp
  template := by simp

-- Where the first expansion succeeds, the second can be run later, in any world in which all values
-- are held that are held then: it gives the same result and leaves no trace but in the journal.
def Replays (α : Type) (m m' : Expansion σ α) : Prop :=
  ∀ world a next, runOn m world = (.ok a, next) → Extends world.symbols next.symbols ∧
    ∀ later : World σ, Extends next.symbols later.symbols →
      ∃ journal, runOn m' later = (.ok a, { later with journal })

theorem replays_pure (a : α) : Replays (σ := σ) α (pure a) (pure a) := by
  intro world b next h
  obtain ⟨hb, rfl⟩ := Prod.mk.inj h
  obtain rfl := Except.ok.inj hb
  exact ⟨extends_refl _, fun later _ => ⟨later.journal, rfl⟩⟩

theorem replays_bind {m m' : Expansion σ α} {f f' : α → Expansion σ β} (hm : Replays α m m')
    (hf : ∀ a, Replays β (f a) (f' a)) : Replays β (m >>= f) (m' >>= f') := by
  intro world b next h
  rw [runOn_bind] at h
  rcases hr : runOn m world with ⟨cause | a, middle⟩
  · rw [hr] at h
    cases h
  · rw [hr] at h
    obtain ⟨hfirst, hagain⟩ := hm world a middle hr
    obtain ⟨hsecond, hlast⟩ := hf a middle b next h
    refine ⟨hfirst.trans hsecond, fun later hl => ?_⟩
    obtain ⟨journal, hrun⟩ := hagain later (hsecond.trans hl)
    rw [runOn_bind, hrun]
    exact hlast { later with journal } hl

theorem replays_record (event : Event) :
    Replays (σ := σ) Unit (record event) (record event) := by
  intro world b next h
  obtain ⟨-, rfl⟩ := Prod.mk.inj h
  exact ⟨extends_refl _, fun later _ => ⟨_, rfl⟩⟩

variable [RandomSource σ]

theorem replays_relatesIn :
    RelatesIn (σ := σ) (fun _ => True) (fun _ => False) Replays where
  pure := replays_pure
  bind := replays_bind
  record _ := replays_record _
  pick h := h.elim

variable {modifiers : Modifiers} {limit budget : Nat} {active : List String}

theorem lookUp_of_undefined {name : String} {world : World σ} (h : world.symbols[name]? = none)
    (force : Bool) :
    runOn (lookUp modifiers limit budget active force name) world = (.ok "",
      { world with journal := world.journal.push (.event (.undefinedSymbol name)) }) := by
  rw [runOn_lookUp, h]
  rfl

theorem lookUp_of_held {name value : String} {world : World σ}
    (h : world.symbols[name]?.bind Symbol.value = some value) :
    runOn (lookUp modifiers limit budget active false name) world = (.ok value,
      { world with journal := world.journal.push (.event (.symbol name value true)) }) := by
  obtain ⟨symbol, hs, hv⟩ := Option.bind_eq_some_iff.mp h
  simp only [runOn_lookUp, hs, hv, Bool.false_eq_true, if_false]
  rfl

-- What has been looked up holds the text that was found, or is not there at all.
theorem holds_of_lookUp {name text : String} {world next : World σ}
    (hb : active.length + budget = limit)
    (h : runOn (lookUp modifiers limit budget active false name) world = (.ok text, next)) :
    (next.symbols[name]? = none ∧ text = "") ∨
      next.symbols[name]?.bind Symbol.value = some text := by
  rw [runOn_lookUp] at h
  cases hs : world.symbols[name]? with
  | none =>
      rw [hs] at h
      obtain ⟨ht, rfl⟩ := Prod.mk.inj h
      exact .inl ⟨hs, (Except.ok.inj ht).symm⟩
  | some symbol =>
      simp only [hs, Bool.false_eq_true, if_false] at h
      cases hv : symbol.value with
      | some value =>
          rw [hv] at h
          obtain ⟨ht, rfl⟩ := Prod.mk.inj h
          obtain rfl := Except.ok.inj ht
          exact .inr (by rw [hs, Option.bind_some, hv])
      | none =>
          simp only [hv] at h
          by_cases ha : name ∈ active
          · rw [if_pos ha] at h
            cases h
          · rw [if_neg ha] at h
            cases budget with
            | zero => cases h
            | succ budget =>
                let opened : World σ :=
                  { world with journal := world.journal.push (.opened (active ++ [name])) }
                have rules :=
                  (drawRules_of_extends (σ := σ) world.symbols limit).lookUpRules modifiers
                have hd : world.symbols[name]?.bind Symbol.value = none := by
                  rw [hs, Option.bind_some, hv]
                have hlength : (active ++ [name]).length + budget = limit := by
                  rw [List.length_append, List.length_singleton]
                  omega
                obtain ⟨hextends, -⟩ := keeps_opened rules hlength trivial ha hd (extends_refl _) hs
                  fun other _ => keeps_lookUp rules budget (active ++ [name]) false other trivial
                    hlength (by simp)
                dsimp only at h
                rw [runOn_bind, runOn_note] at h
                dsimp only at h
                rw [runOn_bind] at h
                rcases hr : runOn (drawText modifiers
                    (lookUp modifiers limit budget (active ++ [name]) false) name) opened
                  with ⟨cause | value, middle⟩
                · rw [hr] at h
                  cases h
                · rw [hr] at h hextends
                  dsimp only at h
                  -- the symbol is still there, so there is something to hold the text
                  obtain ⟨found, hf⟩ : ∃ found, middle.symbols[name]? = some found := by
                    refine Option.ne_none_iff_exists'.mp fun hn => ?_
                    rw [hextends.undefined name, hs] at hn
                    cases hn
                  rw [runOn_bind, runOn_hold, hf] at h
                  obtain ⟨ht, rfl⟩ := Prod.mk.inj h
                  obtain rfl := Except.ok.inj ht
                  exact .inr (by simp [Symbol.setValue])

-- A look-up can be replayed, because the symbol holds from then on what was found.
theorem replays_lookUp (hb : active.length + budget = limit) (name : String) :
    Replays (σ := σ) String (lookUp modifiers limit budget active false name)
      (lookUp modifiers limit budget active false name) := by
  intro world text next h
  have rules := (drawRules_of_extends (σ := σ) world.symbols limit).lookUpRules modifiers
  obtain ⟨hextends, -⟩ :=
    keeps_lookUp rules budget active false name trivial hb (by simp) world (extends_refl _)
  rw [h] at hextends
  refine ⟨hextends, fun later hl => ?_⟩
  rcases holds_of_lookUp hb h with ⟨hn, rfl⟩ | hv
  · exact ⟨_, lookUp_of_undefined ((hl.undefined name).mpr hn) false⟩
  · exact ⟨_, lookUp_of_held (hl.holds name text hv)⟩

end Expansion

namespace Grammar

open Template.Node (Throughout NoAlternation)

variable {σ : Type} [RandomSource σ] (grammar : Grammar σ)

-- A text without choices of its own comes out the same when it is evaluated again at once. The first
-- time it may draw symbols whose rules have choices, conditions and decks; the second time it finds
-- all of their values, asks the source nothing and changes nothing.
theorem evaluate_again {text result : String} {template : Template}
    (hp : Template.parse text = .ok template) (hn : Throughout NoAlternation template.nodes)
    (hr : (grammar.evaluate text).result = .ok result) :
    let next := (grammar.evaluate text).grammar
    (next.evaluate text).result = .ok result ∧ (next.evaluate text).requests = #[] ∧
      (next.evaluate text).grammar = next := by
  intro next
  have hasks : AsksIn grammar.modifiers
      (fun name => Replays (σ := σ) String (grammar.lookUp false name) (grammar.lookUp false name))
      (fun _ => True) (fun _ => False) template.nodes :=
    ⟨fun target _ => ⟨replays_lookUp (by simp) target.name, by simp⟩,
      fun options hm => hn.1 _ hm trivial,
      hn.2.mono fun sequence hs options hm => hs _ hm trivial⟩
  have hreplays := render_related grammar.modifiers replays_relatesIn template.nodes hasks
  have heval (other : Grammar σ) : other.evaluate text = other.render template := by
    simp only [evaluate, hp]
  rw [heval] at hr
  rcases hrun : runOn (Expansion.render grammar.modifiers (grammar.lookUp false) template.nodes)
      grammar.world with ⟨outcome, world⟩
  have hfirst := grammar.run_eq hrun
  have hoked : outcome = .ok result := by
    rw [← hr, render, hfirst]
  subst hoked
  have hnext : next = { grammar with
      symbols := world.symbols, source := world.dice.source, calls := world.calls } := by
    simp only [next, heval, render, hfirst]
  obtain ⟨-, hagain⟩ := hreplays grammar.world result world hrun
  obtain ⟨journal, hsecond⟩ := hagain next.world (by rw [hnext]; exact extends_refl _)
  have hsame : next.evaluate text = ⟨.ok result, next, #[], journal⟩ := by
    have hlookUp : next.lookUp false = grammar.lookUp false := by rw [hnext]; rfl
    have hmodifiers : next.modifiers = grammar.modifiers := by rw [hnext]
    rw [heval, render, hlookUp, hmodifiers, next.run_eq hsecond]
    rfl
  rw [hsame]
  exact ⟨rfl, rfl, rfl⟩

-- A symbol that is drawn in the middle of the text decides how the text goes on.
def homely : String := "#thing#? #?thing=home?#saying#:no#.#thing.loud(#saying#)#"

theorem evaluate_again_saying :
    ∃ template, Template.parse homely = .ok template ∧ Throughout NoAlternation template.nodes ∧
      (saying.evaluate homely).result = .ok "bread? no.bread" ∧
      (saying.evaluate homely).requests.size = 2 ∧
      ((saying.evaluate homely).grammar.evaluate homely).result = .ok "bread? no.bread" ∧
      ((saying.evaluate homely).grammar.evaluate homely).requests = #[] := by
  have hparse : (Template.parse homely).toOption.any
      (fun template => decide (Throughout NoAlternation template.nodes)) = true := by
    decide +kernel
  have hresult : (saying.evaluate homely).result = .ok "bread? no.bread" := by decide +kernel
  have hdrawn : (saying.evaluate homely).requests.size = 2 := by decide +kernel
  obtain ⟨template, hp, hn⟩ := Except.exists_of_any_toOption hparse
  obtain ⟨hagain, hrequests, -⟩ := evaluate_again saying hp (of_decide_eq_true hn) hresult
  exact ⟨template, hp, of_decide_eq_true hn, hresult, hdrawn, hagain, hrequests⟩

end Grammar

end StoryGrammar
