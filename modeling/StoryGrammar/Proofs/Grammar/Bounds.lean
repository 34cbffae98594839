import StoryGrammar.Proofs.Expansion.Offers
import StoryGrammar.Proofs.Grammar.Failure
import StoryGrammar.Proofs.Sampling.Bounds
import StoryGrammar.Proofs.Sampling.Checked

namespace StoryGrammar

open Expansion SymbolTable

namespace Candidate

-- Whatever text the candidate turns out to have, it offers a choice where it has alternations.
def Offers (candidate : Candidate) : Prop :=
  ∀ nodes, candidate.Renders nodes → Template.HasOptions nodes

theorem offers_written {passage : Passage} (weight : UInt32)
    (ht : Template.HasOptions passage.template.nodes)
    (hc : ∀ condition ∈ passage.conditions, Template.HasOptions condition.nodes) :
    (⟨.written passage, weight⟩ : Candidate).Offers := by
  rintro nodes (⟨condition, hm, rfl⟩ | ⟨template, calls, hp, rfl⟩)
  · exact hc condition hm
  · obtain rfl : passage.template = template := by simpa [Body.template] using hp
    exact ht

-- Generated text is read like any other before it is used.
theorem offers_generated (generator : Generator) (weight : UInt32) :
    (⟨.generated generator, weight⟩ : Candidate).Offers := by
  rintro nodes (⟨condition, hm, rfl⟩ | ⟨template, calls, hp, rfl⟩)
  · simp [conditions, Body.conditions] at hm
  · exact Template.hasOptions_of_parse hp

end Candidate

namespace Symbol

-- What a symbol may rely on whenever it is drawn from.
structure Sound (symbol : Symbol) : Prop where
  nonempty : symbol.candidates ≠ []
  weighed : symbol.weights.length = symbol.candidates.length
  inRange : ∀ deck, symbol.sampler.deck = some deck →
    ∀ card ∈ deck, card < symbol.candidates.length
  distinct : symbol.distribution = .pop ∨ symbol.distribution = .shuffle →
    ∀ deck, symbol.sampler.deck = some deck → deck.Nodup
  rationed : symbol.distribution = .popWeighted → ∀ deck, symbol.sampler.deck = some deck →
    ∀ index weight, symbol.weights[index]? = some weight → deck.count index ≤ weight.toNat
  deckless : symbol.distribution = .uniform ∨ symbol.distribution = .weighted →
    symbol.sampler.deck = none

-- The invariant behind it, with what the texts of the symbol add to it.
structure Serves (symbol : Symbol) : Prop where
  nonempty : symbol.candidates ≠ []
  weighed : symbol.weights.length = symbol.candidates.length
  fits : symbol.sampler.Fits symbol.weights
  offers : ∀ candidate ∈ symbol.candidates, candidate.Offers

theorem Serves.sound {symbol : Symbol} (h : symbol.Serves) : symbol.Sound where
  nonempty := h.nonempty
  weighed := h.weighed
  inRange deck hd card hc := by
    have hfull := (h.fits deck hd).2.subset hc
    exact h.weighed ▸ Deck.lt_of_mem_full hfull
  distinct hp deck hd := by
    have hfull : Deck.full symbol.distribution symbol.weights =
        Deck.ordered symbol.weights.length := by
      rcases hp with hp | hp <;> rw [hp] <;> rfl
    obtain ⟨part, hperm, hsublist⟩ := (h.fits deck hd).2
    exact hperm.nodup_iff.mp (List.nodup_range.sublist (hfull ▸ hsublist))
  rationed hp deck hd index weight hw := by
    have hcount := (h.fits deck hd).2.count_le index
    rw [Deck.count_full, show symbol.sampler.policy = .popWeighted from hp] at hcount
    simpa [Deck.copies, hw] using hcount
  deckless hp := by
    refine Option.eq_none_iff_forall_not_mem.mpr fun deck hd => ?_
    have hr := (h.fits deck hd).1
    rcases hp with hp | hp <;>
    · rw [show symbol.sampler.policy = _ from hp] at hr
      cases hr

theorem lasting_serves : Lasting Serves where
  fixed value := by
    refine ⟨by simp [fixed], rfl, Sampler.fits_fresh .uniform, fun candidate hc => ?_⟩
    obtain rfl := List.mem_singleton.mp hc
    exact Candidate.offers_written 1 (Template.hasOptions_verbatim value) (by simp)
  setValue _ h := ⟨h.nonempty, h.weighed, h.fits, h.offers⟩
  reset h := ⟨h.nonempty, h.weighed, Sampler.fits_fresh _, h.offers⟩

section

variable {σ : Type} [RandomSource σ] [RangedSource σ] {symbol : Symbol}

-- What is drawn from a symbol that serves is one of its candidates, and the symbol still serves.
theorem Serves.index_lt (h : symbol.Serves) {mask : Option (List Bool)} {dice : Dice σ}
    {index : Nat} (hi : ((symbol.sampler.draw symbol.weights mask).run dice).1.1 = some index) :
    index < symbol.candidates.length :=
  h.weighed ▸ (h.fits.draw mask dice).1 index hi

theorem Serves.drawn (h : symbol.Serves) (mask : Option (List Bool)) (dice : Dice σ) :
    ({ symbol with
      sampler := ((symbol.sampler.draw symbol.weights mask).run dice).1.2 } : Symbol).Serves :=
  ⟨h.nonempty, h.weighed, (h.fits.draw mask dice).2, h.offers⟩

end

theorem offers_of_candidateOf {keepWeight : Bool} {rule : Rule} {candidate : Candidate}
    (h : candidateOf keepWeight rule = .ok candidate) : candidate.Offers := by
  obtain ⟨passage, hp, h⟩ := Except.bind_eq_ok_iff.mp h
  obtain ⟨conditions, hc, hp⟩ := Except.bind_eq_ok_iff.mp (Except.mapError_eq_ok_iff.mp hp)
  obtain ⟨template, ht, hp⟩ := Except.bind_eq_ok_iff.mp hp
  obtain rfl := Except.ok.inj hp
  obtain rfl := Except.ok.inj h
  refine Candidate.offers_written _ (Template.hasOptions_of_parse ht) fun condition hm => ?_
  obtain ⟨text, -, hp⟩ := Except.exists_of_mem_mapM hc hm
  exact Template.hasOptions_of_parse hp

-- What a symbol is made from serves to draw from, generated or not.
theorem serves_ofRules {rules : RuleSet} {symbol : Symbol} (h : ofRules rules = .ok symbol) :
    symbol.Serves := by
  obtain ⟨source, distribution⟩ := rules
  unfold ofRules at h
  cases source with
  | generator generator =>
      obtain rfl := Except.ok.inj h
      refine ⟨by simp [ofCandidates], rfl, Sampler.fits_fresh distribution, fun candidate hc => ?_⟩
      obtain rfl := List.mem_singleton.mp hc
      exact Candidate.offers_generated generator 1
  | rules written =>
      cases written with
      | nil => cases h
      | cons rule others =>
          obtain ⟨candidates, hc, h⟩ := Except.bind_eq_ok_iff.mp h
          obtain rfl := Except.ok.inj h
          have hlength : candidates.length = others.length + 1 := Except.length_of_mapM hc
          have hne : candidates ≠ [] := List.ne_nil_of_length_eq_add_one hlength
          refine ⟨hne, List.length_map _, Sampler.fits_fresh distribution, fun candidate hm => ?_⟩
          obtain ⟨source, -, hsource⟩ := Except.exists_of_mem_mapM hc hm
          exact offers_of_candidateOf hsource

end Symbol

namespace Grammar

variable {σ : Type} (grammar : Grammar σ)

-- An index that a draw has given belongs to a candidate.
def InRange : Step → Prop
  | .drawn name _ (some index) =>
    ∃ symbol, grammar.symbol? name = some symbol ∧ index < symbol.candidates.length
  | _ => True

-- The table serves, and its symbols have the candidates of the grammar.
structure Stocks (table : SymbolTable) : Prop where
  same : grammar.SameCandidates table
  serves : Everywhere Symbol.Serves table

variable {grammar} in
theorem Stocks.insert {table : SymbolTable} (h : grammar.Stocks table) {name : String}
    {symbol next : Symbol} (hs : table[name]? = some symbol)
    (hc : next.candidates = symbol.candidates) (hn : next.Serves) :
    grammar.Stocks (table.insert name next) :=
  ⟨h.same.insert hs hc, h.serves.insert name hn⟩

variable [RandomSource σ] [RangedSource σ]

theorem partRules_of_stocks :
    PartRules (σ := σ) grammar.modifiers grammar.Stocks grammar.InRange Request.IsProper
      (fun _ => True) (fun _ => True) (0 < ·) where
  shown _ := trivial
  picked h := h
  missing _ _ _ := trivial
  resolved _ _ _ := trivial
  exhausted _ := trivial
  opened _ := trivial
  asks ht hs hc hn := ⟨fun _ _ => ⟨trivial, by simp⟩, (ht.serves _ _ hs).offers _ hc _ hn⟩
  held value ht hs := ht.insert hs rfl (Symbol.lasting_serves.setValue value (ht.serves _ _ hs))
  drawn := by
    intro table name symbol mask dice ht hs
    have hserves := ht.serves name symbol hs
    refine ⟨ht.insert hs rfl (hserves.drawn mask dice), ?_,
      Sampler.isProper_draw symbol.sampler symbol.weights mask dice⟩
    cases hi : ((symbol.sampler.draw symbol.weights mask).run dice).1.1 with
    | none => trivial
    | some index =>
        obtain ⟨own, ho, hsame⟩ := ht.same.symbol? hs
        have hlt := hserves.index_lt hi
        rw [← hsame] at hlt
        exact ⟨own, ho, hlt⟩

theorem answer_stocks (h : Everywhere Symbol.Serves grammar.symbols) (query : Query) :
    Upholds grammar.Stocks grammar.InRange Request.IsProper (grammar.answer query).world := by
  refine grammar.answer_upholds grammar.partRules_of_stocks query (by simp) ?_ ⟨fun _ => rfl, h⟩
  intro text template _ hp
  exact ⟨fun _ _ => ⟨trivial, by simp⟩, Template.hasOptions_of_parse hp⟩

theorem serves_perform (operation : Operation) (h : Everywhere Symbol.Serves grammar.symbols) :
    Everywhere Symbol.Serves (grammar.perform operation).symbols :=
  grammar.everywhere_perform Symbol.lasting_serves operation h
    (fun query _ => (grammar.answer_stocks h query).symbols.serves)
    (fun _ _ _ _ => Symbol.serves_ofRules)

theorem serves_after {blueprint : Blueprint} {source : σ} {grammar : Grammar σ}
    (hb : blueprint.build source = .ok grammar) (run : List Operation) :
    Everywhere Symbol.Serves (grammar.after run).symbols := by
  have hbuilt : Everywhere Symbol.Serves grammar.symbols := by
    obtain ⟨table, ht, rfl⟩ := Blueprint.build_eq_ok_iff.mp hb
    exact Blueprint.everywhere_symbolTable ht Symbol.lasting_serves.fixed
      fun _ _ _ _ _ => Symbol.serves_ofRules
  exact after_keeps (Q := fun _ => True) (fun grammar operation hg _ =>
    grammar.serves_perform operation hg) grammar run hbuilt (by simp)

-- Whatever a grammar is built from, and whatever is done with it, also where it fails: no symbol
-- runs out of candidates, no deck holds a card that it should not hold, no index is out of range,
-- and the source is never asked to choose from nothing.
theorem draws_in_range (blueprint : Blueprint) (source : σ) (grammar : Grammar σ)
    (hb : blueprint.build source = .ok grammar) (run : List Operation) :
    (∀ name symbol, (grammar.after run).symbol? name = some symbol → symbol.Sound) ∧
    (∀ query, let outcome := (grammar.after run).answer query
      (∀ request ∈ outcome.requests, request.IsProper) ∧
      ∀ name mask index, .drawn name mask (some index) ∈ outcome.journal →
        ∃ symbol, (grammar.after run).symbol? name = some symbol ∧
          index < symbol.candidates.length) ∧
    ∀ (sampler : Sampler) (weights : List UInt32) (mask : Option (List Bool)),
      CheckedRoll.Agrees (σ := σ) (sampler.drawChecked weights mask)
        (sampler.draw weights mask) := by
  have hserves := serves_after hb run
  refine ⟨fun name symbol hs => (hserves name symbol hs).sound, fun query => ?_,
    Sampler.drawChecked_agrees⟩
  have hworld := (grammar.after run).answer_stocks hserves query
  exact ⟨hworld.requests, fun name mask index hd => hworld.journal _ hd⟩

-- Guests that are used up, one of whom never comes, and names of which only the first is a template.
def inn : Blueprint where
  symbols := [
    ("guest", ⟨.rules [{ text := "[old |]#name#", weight := 2 },
      { text := "nobody", weight := 0 }], .popWeighted⟩),
    ("name", ⟨.generator ⟨0, fun count => if count = 0 then "[Ann|Bob]" else "#"⟩, .shuffle⟩)]
  origin := "guest"

def evening : List Operation :=
  [.ask .expand, .ask (.expandSymbol "name" true), .set "name" (RuleSet.ofTexts ["Eve", "Zoe"]),
    .ask (.evaluate "#name# [waves|nods]"), .ask (.expandSymbol "guest" true), .reset "guest"]

theorem draws_in_range_inn : ∃ grammar, inn.build (⟨[3, 1, 4, 1, 5]⟩ : Script) = .ok grammar ∧
    (∀ name symbol, (grammar.after evening).symbol? name = some symbol → symbol.Sound) ∧
    ∀ request ∈ ((grammar.after evening).answer (.expandSymbol "guest" true)).requests,
      request.IsProper := by
  have hbuild : (inn.build (⟨[3, 1, 4, 1, 5]⟩ : Script)).toBool = true := by decide +kernel
  cases hb : inn.build (⟨[3, 1, 4, 1, 5]⟩ : Script) with
  | error cause => simp [hb, Except.toBool] at hbuild
  | ok grammar =>
      obtain ⟨hsound, hanswers, -⟩ := draws_in_range inn _ grammar hb evening
      exact ⟨grammar, rfl, hsound, (hanswers (.expandSymbol "guest" true)).1⟩

end Grammar

end StoryGrammar
