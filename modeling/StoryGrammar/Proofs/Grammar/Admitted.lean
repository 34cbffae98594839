import StoryGrammar.Proofs.Expansion.Compels
import StoryGrammar.Proofs.Grammar.Bounds
import StoryGrammar.Proofs.Sampling.Eligible

namespace StoryGrammar

open Expansion SymbolTable

namespace Expansion

variable {σ : Type} [RandomSource σ]

-- Each of the conditions comes out as some text, one after the other.
inductive Met (modifiers : Modifiers) (lookUp : String → Expansion σ String) :
    List Template → World σ → World σ → Prop
  | nil {world : World σ} : Met modifiers lookUp [] world world
  | cons {condition : Template} {rest : List Template} {text : String} {world next last : World σ} :
      runOn (render modifiers lookUp condition.nodes) world = (.ok text, next) →
      text.isEmpty = false → Met modifiers lookUp rest next last →
      Met modifiers lookUp (condition :: rest) world last

-- The candidates are tried one after the other, and the conditions of the one at the index are met.
inductive Passes (modifiers : Modifiers) (lookUp : String → Expansion σ String)
    (candidates : List Candidate) (index : Nat) (candidate : Candidate) (world last : World σ) : Prop
  | intro {earlier later : List Bool} {before after : World σ}
      (listed : candidates[index]? = some candidate)
      (front : runOn ((candidates.take index).mapM fun other =>
        admits modifiers lookUp other.conditions) world = (.ok earlier, before))
      (met : Met modifiers lookUp candidate.conditions before after)
      (behind : runOn ((candidates.drop (index + 1)).mapM fun other =>
        admits modifiers lookUp other.conditions) after = (.ok later, last)) :
      Passes modifiers lookUp candidates index candidate world last

section

variable {modifiers : Modifiers} {lookUp : String → Expansion σ String}

theorem met_of_admits {conditions : List Template} {world last : World σ}
    (h : runOn (admits modifiers lookUp conditions) world = (.ok true, last)) :
    Met modifiers lookUp conditions world last := by
  induction conditions generalizing world with
  | nil =>
      obtain rfl : world = last := congrArg Prod.snd h
      exact .nil
  | cons condition rest ih =>
      rw [admits] at h
      obtain ⟨text, next, hrender, h⟩ := runOn_bind_eq_iff.mp h
      cases ht : text.isEmpty with
      | true => simp [ht] at h
      | false =>
          rw [ht] at h
          exact .cons hrender ht (ih h)

-- What a mask allows has met its conditions.
theorem passes_of_allows {symbol : Symbol} {mask : Option (List Bool)} {world last : World σ}
    (h : runOn (eligibility modifiers lookUp symbol) world = (.ok mask, last)) {index : Nat}
    {candidate : Candidate} (hc : symbol.candidates[index]? = some candidate)
    (ha : Sampler.allows mask index = true) :
    Passes modifiers lookUp symbol.candidates index candidate world last := by
  obtain ⟨marks, hmarks, hallows⟩ := exists_marks_of_eligibility modifiers h
  obtain ⟨mark, before, after, earlier, later, hmark, hearlier, hrun, hlater⟩ :=
    exists_run_of_mapM hmarks hc
  obtain rfl : mark = true := by
    rw [hallows index (List.getElem?_eq_some_iff.mp hc).1, hmark] at ha
    simpa using ha
  exact .intro hc hearlier (met_of_admits hrun) hlater

end

end Expansion

namespace Grammar

variable {σ : Type} [RandomSource σ] (grammar : Grammar σ)

-- How names are looked up while symbols are being drawn.
def lookUpInside (active : List String) (budget : Nat) : String → Expansion σ String :=
  Expansion.lookUp grammar.modifiers grammar.maxDepth budget active false

-- How a candidate has come to be drawn, seen from what had been written down until then. The symbol
-- was opened, the conditions of all candidates were tried, those of this one were met, and its text
-- is what the draw comes to.
inductive Vetted (earlier : List Step) (name : String) (mask : Option (List Bool)) (index : Nat) :
    Prop
  | intro {active : List String} {budget : Nat} {before world : World σ} {symbol later : Symbol}
      {candidate : Candidate}
      (room : (active ++ [name]).length + budget = grammar.maxDepth)
      (opened : before.journal.back? = some (.opened (active ++ [name])))
      (found : before.symbols[name]? = some symbol)
      (own : (grammar.symbol? name).map Symbol.candidates = some symbol.candidates)
      (surveyed : runOn (eligibility grammar.modifiers
        (grammar.lookUpInside (active ++ [name]) budget) symbol) before = (.ok mask, world))
      (noted : world.journal.toList = earlier)
      (kept : world.symbols[name]? = some later)
      (picked : ((later.sampler.draw later.weights mask).run world.dice).1.1 = some index)
      (passed : Passes grammar.modifiers (grammar.lookUpInside (active ++ [name]) budget)
        symbol.candidates index candidate before world)
      (text : runOn (drawText grammar.modifiers
          (grammar.lookUpInside (active ++ [name]) budget) name) before =
        runOn (do
          let template ← templateOf candidate.body
          Expansion.render grammar.modifiers (grammar.lookUpInside (active ++ [name]) budget)
            template.nodes) (drawn world name later mask)) :
      Vetted earlier name mask index

-- Whatever has been drawn was vetted before.
def AllVetted (journal : List Step) : Prop :=
  ∀ earlier name mask index later, journal = earlier ++ .drawn name mask (some index) :: later →
    grammar.Vetted earlier name mask index

variable {grammar}

theorem allVetted_nil : grammar.AllVetted [] := by
  intro earlier name mask index later h
  simp at h

theorem AllVetted.snoc {journal : List Step} {step : Step} (h : grammar.AllVetted journal)
    (hs : ∀ name mask index, step = .drawn name mask (some index) →
      grammar.Vetted journal name mask index) : grammar.AllVetted (journal ++ [step]) := by
  intro earlier name mask index later he
  rcases split_of_snoc he with ⟨rfl, hstep⟩ | ⟨more, rfl⟩
  · exact hs name mask index hstep
  · exact h earlier name mask index more rfl

variable (grammar) in
-- The symbols serve, and whatever has been drawn from them was vetted.
structure Vouches (world : World σ) : Prop where
  stocks : grammar.Stocks world.symbols
  journal : grammar.AllVetted world.journal.toList

theorem Vouches.push {world : World σ} (h : grammar.Vouches world) {step : Step}
    (hs : ∀ name mask index, step ≠ .drawn name mask (some index)) :
    grammar.Vouches { world with journal := world.journal.push step } := by
  refine ⟨h.stocks, ?_⟩
  rw [Array.toList_push]
  exact h.journal.snoc fun name mask index he => absurd he (hs name mask index)

theorem Vouches.record (event : Event) :
    Keeps grammar.Vouches (fun _ => True) (record event : Expansion σ Unit) :=
  keeps_note fun _ h => h.push nofun

variable [RangedSource σ]

-- What the mask of a draw allows was vetted.
theorem Vouches.draw {world : World σ} {name : String} {mask : Option (List Bool)} {later : Symbol}
    (hm : Surveyed grammar.modifiers grammar.Vouches grammar.maxDepth name mask world)
    (h : grammar.Vouches world) (hl : world.symbols[name]? = some later) :
    grammar.Vouches (drawn world name later mask) := by
  have hserves := h.stocks.serves name later hl
  refine ⟨h.stocks.insert hl rfl (hserves.drawn mask world.dice), ?_⟩
  simp only [drawn, Array.toList_push]
  refine h.journal.snoc fun other otherMask index he => ?_
  obtain ⟨rfl, rfl, hi⟩ : name = other ∧ mask = otherMask ∧ _ = some index := by simpa using he
  cases hm with
  | @intro active budget before symbol hb hbefore hj hs hmask =>
      obtain ⟨own, hown, hsame⟩ := hbefore.stocks.same.symbol? hs
      have hlater : later.candidates = symbol.candidates := by
        obtain ⟨found, hf, hlater⟩ := h.stocks.same.symbol? hl
        obtain rfl : own = found := Option.some.inj (hown.symm.trans hf)
        exact hlater.symm.trans hsame
      have hlt : index < symbol.candidates.length := by
        rw [← hlater]
        exact hserves.index_lt hi
      have hget : symbol.candidates[index]? = some symbol.candidates[index] :=
        List.getElem?_eq_getElem hlt
      have hcandidate : later.candidates[index]? = some symbol.candidates[index] := by
        rw [hlater]
        exact hget
      refine .intro hb hj hs ?_ hmask rfl hl hi
        (passes_of_allows hmask hget (Sampler.allows_of_draw hi))
        (runOn_drawText_of_drawn grammar.modifiers hs hmask hl hi hcandidate)
      rw [hown, Option.map_some, hsame]

variable (grammar)

theorem lookUpRules_of_vouches :
    LookUpRules (σ := σ) grammar.modifiers grammar.Vouches (fun _ => True) grammar.maxDepth
      (fun _ _ => True) (fun _ => True) (fun _ => True) (fun _ => True) where
  record _ := Vouches.record _
  pick _ := keeps_roll fun _ h => ⟨h.stocks, h.journal⟩
  missing h _ _ := h.push nofun
  held h _ _ := h.push nofun
  recursion _ _ := trivial
  depthExceeded _ _ _ _ _ := trivial
  opened h _ _ _ := h.push nofun
  drawable _ _ _ := trivial
  asks _ _ _ _ _ _ := asksIn_of_refersIn fun _ _ => ⟨trivial, by simp⟩
  drawn _ hm h hs := h.draw hm hs
  exhausted _ := Vouches.record _
  calls _ _ h := ⟨h.stocks, h.journal⟩
  template _ _ _ _ := trivial
  settled := by
    intro name value _
    have hhold : Keeps grammar.Vouches (fun _ => True) (hold name value : Expansion σ Unit) := by
      intro world h
      rw [runOn_hold]
      cases hs : world.symbols[name]? with
      | none => exact ⟨h, by simp⟩
      | some symbol =>
          have hserves := Symbol.lasting_serves.setValue value (h.stocks.serves name symbol hs)
          exact ⟨⟨h.stocks.insert hs rfl hserves, h.journal⟩, by simp⟩
    exact keeps_bind hhold fun _ => keeps_bind (Vouches.record _) fun _ => keeps_pure value

theorem answer_vouches (h : Everywhere Symbol.Serves grammar.symbols) (query : Query) :
    grammar.Vouches (grammar.answer query).world :=
  (grammar.answer_keeps_world grammar.lookUpRules_of_vouches query (by simp) (by simp)
    (fun _ _ _ _ => asksIn_of_refersIn fun _ _ => ⟨trivial, by simp⟩)
    ⟨⟨fun _ => rfl, h⟩, allVetted_nil⟩).1

-- Draws keep to what may be drawn, and they find it. A sampler that was new gives an index that its
-- mask allows, and none only where there is none to be had; a mask that allows everything is as good
-- as no mask. So in whatever state a grammar answers, the candidate whose text is used is one whose
-- conditions have just come out as some text.
theorem draws_admitted [LawfulSource σ] :
    (∀ (policy : Distribution) (weights : List UInt32) (dice : Dice σ) (moves : List Move),
      let play := (Play.fresh policy dice).after weights moves
      (∀ mask, play.Heeds policy weights mask) ∧
      (play.sampler.draw weights none).run play.dice =
        (play.sampler.draw weights (some (List.replicate weights.length true))).run play.dice) ∧
    ∀ (blueprint : Blueprint) (source : σ) (grammar : Grammar σ),
      blueprint.build source = .ok grammar → ∀ run query,
      (grammar.after run).AllVetted ((grammar.after run).answer query).journal.toList := by
  refine ⟨fun policy weights dice moves => ⟨?_, ?_⟩, fun blueprint source grammar hb run query => ?_⟩
  · exact Play.heeds_after policy weights dice moves
  · exact Sampler.draw_none_eq (Play.fits_after policy weights dice moves) _
  · exact ((grammar.after run).answer_vouches (serves_after hb run) query).journal

-- A gate that is shut by night, kept by guards of whom one is never sent.
def gatehouse : Blueprint where
  symbols := [
    ("gate", ⟨.rules [{ text := "open", conditions := ["#day#"] },
      { text := "#guard# waits", conditions := ["#guard#", "[Ann|]" ] }], .pop⟩),
    ("guard", ⟨.rules [{ text := "Bob", weight := 0 }, { text := "Eve" }], .popWeighted⟩)]
  origin := "gate"

-- Three guards of whom the first is never sent while another may be.
def watch : Play Script := (Play.fresh .weighted ⟨⟨[4, 2]⟩, #[]⟩).after [0, 2, 1] [.draw none]

theorem draws_admitted_gatehouse :
    (∃ index, ((watch.sampler.draw [0, 2, 1] (some [true, false, true])).run watch.dice).1.1 =
      some index ∧ Sampler.allows (some [true, false, true]) index = true ∧
        [(0 : UInt32), 2, 1][index]? ≠ some 0) ∧
    ∃ grammar earlier, gatehouse.build (⟨[]⟩ : Script) = .ok grammar ∧
      .drawn "guard" none (some 1) ∈ earlier ∧
      grammar.Vetted earlier "gate" (some [false, true]) 1 := by
  obtain ⟨hplay, hgrammar⟩ := draws_admitted (σ := Script)
  constructor
  · have hheeds := (hplay .weighted [0, 2, 1] ⟨⟨[4, 2]⟩, #[]⟩ [.draw none]).1
      (some [true, false, true])
    have hsome := mt (hheeds.finds (.inr (.inl rfl))).mp fun hnone =>
      absurd (hnone 2 (by decide)) (by decide)
    obtain ⟨index, hindex⟩ := Option.ne_none_iff_exists'.mp hsome
    refine ⟨index, hindex, (hheeds.allowed index hindex).2, fun hz => ?_⟩
    exact absurd (hheeds.weighs rfl index hindex hz 2 (by decide) (by decide)) (by decide)
  · have hbuild : (gatehouse.build (⟨[]⟩ : Script)).toOption.any (fun grammar =>
        (grammar.answer .expand).journal.toList[6]? =
          some (.drawn "gate" (some [false, true]) (some 1)) ∧
        .drawn "guard" none (some 1) ∈ (grammar.answer .expand).journal.toList.take 6) = true := by
      decide +kernel
    obtain ⟨grammar, hb, hjournal⟩ := Except.exists_of_any_toOption hbuild
    obtain ⟨hdrawn, hguard⟩ := of_decide_eq_true hjournal
    obtain ⟨hlt, hget⟩ := List.getElem?_eq_some_iff.mp hdrawn
    refine ⟨grammar, _, hb, hguard, hgrammar gatehouse ⟨[]⟩ grammar hb [] .expand _ _ _ _
      ((grammar.answer .expand).journal.toList.drop 7) ?_⟩
    rw [← hget, List.getElem_cons_drop, List.take_append_drop]
    rfl

end Grammar

end StoryGrammar
