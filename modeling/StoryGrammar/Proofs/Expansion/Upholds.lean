import StoryGrammar.Proofs.Expansion.Keeps

namespace StoryGrammar.Expansion

variable {σ : Type}

-- What is known of a world, part by part: of its symbols, of each entry of its journal, and of
-- each request to its source.
structure Upholds (T : SymbolTable → Prop) (S : Step → Prop) (R : Request → Prop)
    (world : World σ) : Prop where
  symbols : T world.symbols
  journal : ∀ step ∈ world.journal, S step
  requests : ∀ request ∈ world.dice.requests, R request

section

variable {T : SymbolTable → Prop} {S : Step → Prop} {R : Request → Prop} {world : World σ}

theorem Upholds.push (h : Upholds T S R world) {step : Step} (hs : S step) :
    Upholds T S R { world with journal := world.journal.push step } := by
  refine ⟨h.symbols, fun other ho => ?_, h.requests⟩
  rcases Array.mem_push.mp ho with ho | rfl
  · exact h.journal other ho
  · exact hs

theorem keeps_record {E : GrammarError → Prop} {event : Event} (hs : S (.event event)) :
    Keeps (Upholds T S R) E (record event : Expansion σ Unit) :=
  keeps_note fun _ h => h.push hs

end

variable [RandomSource σ] (modifiers : Modifiers)

-- The rules of looking up, each for the parts of the world that it is about.
structure PartRules (T : SymbolTable → Prop) (S : Step → Prop) (R : Request → Prop)
    (Known Unknown : String → Prop) (Offered : Nat → Prop) : Prop where
  shown {event : Event} : FromTemplate Unknown event → S (.event event)
  picked {count : Nat} : Offered count → R (.uniform count)
  missing {table : SymbolTable} {name : String} : T table → Known name → table[name]? = none →
    S (.event (.undefinedSymbol name))
  resolved (name value : String) (cached : Bool) : S (.event (.symbol name value cached))
  exhausted (name : String) : S (.event (.exhausted name))
  opened (chain : List String) : S (.opened chain)
  asks {table : SymbolTable} {name : String} {symbol : Symbol} {candidate : Candidate}
    {nodes : List Template.Node} : T table → table[name]? = some symbol →
    candidate ∈ symbol.candidates → candidate.Renders nodes →
    AsksIn modifiers Known Unknown Offered nodes
  held {table : SymbolTable} {name : String} {symbol : Symbol} (value : String) : T table →
    table[name]? = some symbol → T (table.insert name (symbol.setValue value))
  drawn {table : SymbolTable} {name : String} {symbol : Symbol} (mask : Option (List Bool))
    (dice : Dice σ) : T table → table[name]? = some symbol →
    let draw := (symbol.sampler.draw symbol.weights mask).run dice
    T (table.insert name { symbol with sampler := draw.1.2 }) ∧ S (.drawn name mask draw.1.1) ∧
      ((∀ request ∈ dice.requests, R request) → ∀ request ∈ draw.2.requests, R request)

variable {modifiers} {T : SymbolTable → Prop} {S : Step → Prop} {R : Request → Prop}
variable {Known Unknown : String → Prop} {Offered : Nat → Prop}

theorem PartRules.lookUpRules
    (rules : PartRules (σ := σ) modifiers T S R Known Unknown Offered) (limit : Nat) :
    LookUpRules (σ := σ) modifiers (Upholds T S R) (fun _ => True) limit (fun _ => Known)
      (fun _ => True) Unknown Offered where
  record h := keeps_record (rules.shown h)
  pick h := keeps_roll fun world hw => by
    refine ⟨hw.symbols, hw.journal, fun request hr => ?_⟩
    rcases Array.mem_push.mp hr with hr | rfl
    · exact hw.requests request hr
    · exact rules.picked h
  missing hw hr hs := hw.push (rules.missing hw.symbols hr hs)
  held hw _ _ := hw.push (rules.resolved _ _ _)
  recursion _ _ := trivial
  depthExceeded _ _ _ _ _ := trivial
  opened hw _ _ _ := hw.push (rules.opened _)
  drawable _ _ _ := trivial
  asks hw hs _ _ hc hn := rules.asks hw.symbols hs hc hn
  drawn := by
    intro world name symbol mask _ _ hw hs
    obtain ⟨hsymbols, hstep, hrequests⟩ := rules.drawn mask world.dice hw.symbols hs
    have hnext : Upholds T S R { world with
        symbols := world.symbols.insert name { symbol with
          sampler := ((symbol.sampler.draw symbol.weights mask).run world.dice).1.2 }
        dice := ((symbol.sampler.draw symbol.weights mask).run world.dice).2 } :=
      ⟨hsymbols, hw.journal, hrequests hw.requests⟩
    exact hnext.push hstep
  exhausted _ := keeps_record (rules.exhausted _)
  calls _ _ hw := ⟨hw.symbols, hw.journal, hw.requests⟩
  template _ _ _ _ := trivial
  settled := by
    intro name value _
    have hhold : Keeps (Upholds T S R) (fun _ => True) (hold name value : Expansion σ Unit) := by
      intro world hw
      rw [runOn_hold]
      cases hs : world.symbols[name]? with
      | none => exact ⟨hw, by simp⟩
      | some symbol =>
          exact ⟨⟨rules.held value hw.symbols hs, hw.journal, hw.requests⟩, by simp⟩
    exact keeps_bind hhold fun _ =>
      keeps_bind (keeps_record (rules.resolved _ _ _)) fun _ => keeps_pure value

end StoryGrammar.Expansion
