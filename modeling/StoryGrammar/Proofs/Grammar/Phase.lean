import StoryGrammar.Proofs.Grammar.Termination

namespace StoryGrammar

-- The symbol that a draw leaves behind, and what it has drawn.
def Symbol.DrawsTo (σ : Type) [RandomSource σ] (symbol : Symbol) (mask : Option (List Bool))
    (index : Option Nat) (later : Symbol) : Prop :=
  ∃ dice : Dice σ, ((symbol.draw mask).run dice).1 = (index, later)

-- Only the sampler is another one, and it goes on to draw in the same way.
theorem Symbol.DrawsTo.same {σ : Type} [RandomSource σ] {symbol later : Symbol}
    {mask : Option (List Bool)} {index : Option Nat} (h : symbol.DrawsTo σ mask index later) :
    later.candidates = symbol.candidates ∧ later.value = symbol.value ∧
      later.distribution = symbol.distribution := by
  obtain ⟨dice, h⟩ := h
  obtain rfl : _ = later := congrArg Prod.snd h
  exact ⟨rfl, rfl, rfl⟩

open Expansion

namespace Expansion

-- How far a symbol has got in an answer.
inductive Phase where
  | rested
  | drawn
  | settled
deriving DecidableEq

-- The readings tell of nothing but the value that the symbol had before.
def HeldOnly (own : Option Symbol) (readings : List (String × Bool)) : Prop :=
  ∀ reading ∈ readings, reading.2 = true ∧ own.bind Symbol.value = some reading.1

variable {σ : Type} [RandomSource σ]

-- The symbol has been drawn from once, and is now another one.
def DrawnOnce (σ : Type) [RandomSource σ] (own : Option Symbol)
    (draws : List (Option (List Bool) × Option Nat)) (later : Symbol) : Prop :=
  ∃ symbol mask index, own = some symbol ∧ draws = [(mask, index)] ∧
    symbol.DrawsTo σ mask index later

-- A symbol may be drawn if it had no value before, or if it is forced to.
def Due (own : Option Symbol) (forced : Prop) : Prop := own.bind Symbol.value = none ∨ forced

-- What has become of a symbol so far, and what has been written down about it.
inductive Stands (own : Option Symbol) (forced : Prop) (name : String) (world : World σ) :
    Phase → Prop
  | rested : world.symbols[name]? = own → world.draws name = [] →
      HeldOnly own (world.readings name) → Stands own forced name world .rested
  | drawn {later : Symbol} : DrawnOnce σ own (world.draws name) later →
      world.symbols[name]? = some later → HeldOnly own (world.readings name) →
      Stands own forced name world .drawn
  | settled {later : Symbol} {value : String} {before after : List (String × Bool)} :
      Due own forced → DrawnOnce σ own (world.draws name) later →
      world.symbols[name]? = some (later.setValue value) →
      world.readings name = before ++ (value, false) :: after → HeldOnly own before →
      (∀ reading ∈ after, reading = (value, true)) → Stands own forced name world .settled

-- Where a symbol is found among those that are being drawn tells how far it has got. A failure
-- leaves them as they are, so it only tells that none of them has been settled.
structure Moment.Places (own : Option Symbol) (forced : Prop) (name : String) (moment : Moment σ)
    (phase : Phase) : Prop where
  unsettled : name ∈ moment.chain → phase ≠ .settled
  due : name ∈ moment.chain → Due own forced
  rested : ¬moment.Failed → (name, false) ∈ moment.openings → phase = .rested
  drawn : ¬moment.Failed → (name, true) ∈ moment.openings → phase = .drawn
  closed : ¬moment.Failed → name ∉ moment.chain → phase ≠ .drawn
  forced : moment.task = .resolve name true → phase = .rested ∧ forced

section

variable {own : Option Symbol} {forced : Prop} {name : String} {world next : World σ}
variable {phase : Phase}

theorem Stands.congr (h : Stands own forced name world phase)
    (hs : next.symbols[name]? = world.symbols[name]?)
    (hr : next.readings name = world.readings name) (hd : next.draws name = world.draws name) :
    Stands own forced name next phase := by
  cases h with
  | rested hsymbol hdraws hheld => exact .rested (hs.trans hsymbol) (hd.trans hdraws) (hr ▸ hheld)
  | drawn hdrawn hsymbol hheld =>
      exact .drawn (hd ▸ hdrawn) (hs.trans hsymbol) (hr ▸ hheld)
  | settled hdue hdrawn hsymbol hreadings hheld hafter =>
      exact .settled hdue (hd ▸ hdrawn) (hs.trans hsymbol) (hr.trans hreadings) hheld hafter

theorem Stands.quiet (h : Stands own forced name world phase) (hq : Quiet world next) :
    Stands own forced name next phase :=
  h.congr (by rw [hq.symbols]) (hq.readings name) (hq.draws name)

-- The value that a symbol has is the one it had before, until it is settled.
theorem Stands.value_eq (h : Stands own forced name world phase) (hp : phase ≠ .settled)
    {symbol : Symbol} (hs : world.symbols[name]? = some symbol) :
    own.bind Symbol.value = symbol.value := by
  cases h with
  | rested hsymbol _ _ =>
      rw [hsymbol] at hs
      rw [hs]
      rfl
  | drawn hdrawn hsymbol _ =>
      obtain ⟨first, mask, index, hown, -, hdraw⟩ := hdrawn
      obtain rfl : _ = symbol := Option.some.inj (hsymbol.symm.trans hs)
      rw [hown, hdraw.same.2.1]
      rfl
  | settled => exact absurd rfl hp

-- The rules of a symbol are not touched.
theorem Stands.same_rules (h : Stands own forced name world phase) {symbol : Symbol}
    (hown : own = some symbol) :
    ∃ later, world.symbols[name]? = some later ∧ later.candidates = symbol.candidates ∧
      later.distribution = symbol.distribution := by
  cases h with
  | rested hsymbol _ _ => exact ⟨symbol, hsymbol.trans hown, rfl, rfl⟩
  | drawn hdrawn hsymbol _ | settled _ hdrawn hsymbol _ _ _ =>
      obtain ⟨first, mask, index, hfirst, -, hdraw⟩ := hdrawn
      obtain rfl : symbol = first := Option.some.inj (hown.symm.trans hfirst)
      exact ⟨_, hsymbol, hdraw.same.1, hdraw.same.2.2⟩

-- A reading that is written down is the last one.
omit [RandomSource σ] in
theorem readings_told {value : String} {cached : Bool}
    (hj : next.journal = world.journal.push (.event (.symbol name value cached))) :
    next.readings name = world.readings name ++ [(value, cached)] ∧
      next.draws name = world.draws name := by
  have hsome : (Step.event (.symbol name value cached)).reading? name = some (value, cached) :=
    if_pos rfl
  constructor
  · rw [readings_push hj, hsome]
    rfl
  · exact (draws_push hj name).trans (List.append_nil _)

-- What is written down about one symbol says nothing about the others.
theorem Stands.of_told (h : Stands own forced name world phase) {other value : String}
    {cached : Bool} (hn : other ≠ name) (hs : next.symbols[name]? = world.symbols[name]?)
    (hj : next.journal = world.journal.push (.event (.symbol other value cached))) :
    Stands own forced name next phase := by
  have hnone : (Step.event (.symbol other value cached)).reading? name = none := if_neg hn
  apply h.congr hs
  · rw [readings_push hj, hnone]
    exact List.append_nil _
  · exact (draws_push hj name).trans (List.append_nil _)

-- A value that is read once more is the one that was read before.
theorem Stands.recall (h : Stands own forced name world phase) {symbol : Symbol} {value : String}
    (hs : world.symbols[name]? = some symbol) (hv : symbol.value = some value)
    (hn : next.symbols = world.symbols)
    (hj : next.journal = world.journal.push (.event (.symbol name value true))) :
    Stands own forced name next phase := by
  obtain ⟨hreadings, hdraws⟩ := readings_told hj
  have hheld (hp : phase ≠ .settled) (hb : HeldOnly own (world.readings name)) :
      HeldOnly own (next.readings name) := by
    rw [hreadings]
    intro reading hm
    rcases List.mem_append.mp hm with hm | hm
    · exact hb reading hm
    · rw [List.mem_singleton.mp hm]
      exact ⟨rfl, (h.value_eq hp hs).trans hv⟩
  cases h with
  | rested hsymbol hd hb =>
      exact .rested (hn ▸ hsymbol) (hdraws.trans hd) (hheld (by simp) hb)
  | drawn hdrawn hsymbol hb =>
      exact .drawn (hdraws ▸ hdrawn) (hn ▸ hsymbol) (hheld (by simp) hb)
  | @settled later settled before after hdue hdrawn hsymbol hr hb ha =>
      have hsame : settled = value := by
        obtain rfl : _ = symbol := Option.some.inj (hsymbol.symm.trans hs)
        exact Option.some.inj hv
      subst hsame
      have hmore : ∀ reading ∈ after ++ [(settled, true)], reading = (settled, true) := by
        intro reading hm
        rcases List.mem_append.mp hm with hm | hm
        · exact ha reading hm
        · exact List.mem_singleton.mp hm
      refine .settled hdue (hdraws ▸ hdrawn) (hn ▸ hsymbol) ?_ hb hmore
      rw [hreadings, hr, List.append_assoc, List.cons_append]

theorem Stands.draw (h : Stands own forced name world .rested) {symbol : Symbol}
    (hs : world.symbols[name]? = some symbol) (mask : Option (List Bool)) :
    Stands own forced name (Expansion.drawn world name symbol mask) .drawn := by
  cases h with
  | rested hsymbol hdraws hheld =>
      have hown : own = some symbol := hsymbol.symm.trans hs
      have hreadings : (Expansion.drawn world name symbol mask).readings name =
          world.readings name := (readings_push rfl name).trans (List.append_nil _)
      have hlast : (Expansion.drawn world name symbol mask).draws name =
          [(mask, ((symbol.sampler.draw symbol.weights mask).run world.dice).1.1)] := by
        refine (draws_push rfl name).trans ?_
        rw [hdraws]
        exact congrArg Option.toList (if_pos rfl)
      refine .drawn ⟨symbol, mask, _, hown, hlast, world.dice, rfl⟩ ?_ (hreadings ▸ hheld)
      exact Std.TreeMap.getElem?_insert_self

theorem Stands.draw_of_ne (h : Stands own forced name world phase) {other : String}
    (hn : other ≠ name) (symbol : Symbol) (mask : Option (List Bool)) :
    Stands own forced name (Expansion.drawn world other symbol mask) phase := by
  apply h.congr
  · simp only [Expansion.drawn, Std.TreeMap.getElem?_insert]
    simp [hn]
  · exact (readings_push rfl name).trans (List.append_nil _)
  · refine (draws_push rfl name).trans ?_
    have hnone (index : Option Nat) : (Step.drawn other mask index).draw? name = none := if_neg hn
    rw [hnone]
    exact List.append_nil _

theorem Stands.settle (h : Stands own forced name world .drawn) (hd : Due own forced)
    {symbol : Symbol} {value : String} (hs : world.symbols[name]? = some symbol)
    (hn : next.symbols = world.symbols.insert name (symbol.setValue value))
    (hj : next.journal = world.journal.push (.event (.symbol name value false))) :
    Stands own forced name next .settled := by
  obtain ⟨hreadings, hdraws⟩ := readings_told hj
  cases h with
  | drawn hdrawn hsymbol hheld =>
      obtain rfl : _ = symbol := Option.some.inj (hsymbol.symm.trans hs)
      refine .settled hd (hdraws ▸ hdrawn) ?_ hreadings hheld (by simp)
      rw [hn]
      exact Std.TreeMap.getElem?_insert_self

end

section

variable {modifiers : Modifiers} {limit : Nat} {own : Option Symbol} {forced : Prop}
variable {name : String} {moment next : Moment σ} {phase : Phase}

-- A symbol that is being drawn is found once among what there is still to do.
omit [RandomSource σ] in
theorem Moment.Orderly.drawn_unique (h : moment.Orderly limit) {drawn drawn' : Bool}
    (hm : (name, drawn) ∈ moment.openings) (hm' : (name, drawn') ∈ moment.openings) :
    drawn = drawn' := by
  have hnodup : (moment.openings.map Prod.fst).Nodup := by
    rw [h.openings]
    exact List.nodup_reverse.mpr h.distinct
  have hsame := List.inj_on_of_nodup_map hnodup hm hm' rfl
  exact congrArg Prod.snd hsame

-- A step that leaves the place of a symbol alone.
omit [RandomSource σ] in
theorem Moment.Places.step (hp : moment.Places own forced name phase) (hf : ¬moment.Failed)
    (hn : next.task ≠ .resolve name true) (hc : name ∈ next.chain ↔ name ∈ moment.chain)
    (ho : ∀ drawn, (name, drawn) ∈ next.openings → (name, drawn) ∈ moment.openings) :
    next.Places own forced name phase where
  unsettled hm := hp.unsettled (hc.mp hm)
  due hm := hp.due (hc.mp hm)
  rested _ hm := hp.rested hf (ho false hm)
  drawn _ hm := hp.drawn hf (ho true hm)
  closed _ hm := hp.closed hf (fun h => hm (hc.mpr h))
  forced he := absurd he hn

-- A symbol is opened only if it may be drawn, and only before it has been.
theorem Moment.Places.rested_of_resolve {force : Bool} {symbol : Symbol}
    (hs : Stands own forced name moment.world phase) (hp : moment.Places own forced name phase)
    (ht : moment.task = .resolve name force) (hsome : moment.world.symbols[name]? = some symbol)
    (hnone : force = false → symbol.value = none) (hout : name ∉ moment.chain) :
    phase = .rested ∧ Due own forced := by
  have hf : ¬moment.Failed := by
    rintro ⟨cause, hcause⟩
    simp [ht] at hcause
  cases force with
  | true =>
      obtain ⟨hrested, hforced⟩ := hp.forced ht
      exact ⟨hrested, .inr hforced⟩
  | false =>
      have hvalue : symbol.value = none := hnone rfl
      have hopen : phase ≠ .drawn := hp.closed hf hout
      cases hs with
      | rested hsymbol _ _ =>
          refine ⟨rfl, .inl ?_⟩
          rw [← hsymbol, hsome]
          exact hvalue
      | drawn => exact absurd rfl hopen
      | settled _ _ hsymbol _ _ _ =>
          obtain rfl : _ = symbol := Option.some.inj (hsymbol.symm.trans hsome)
          simp [Symbol.setValue] at hvalue

-- What one step makes of a symbol, and of its place among those that are being drawn.
theorem Turn.stands (h : moment.Orderly limit) (ht : Turn limit moment next) (hf : ¬moment.Failed)
    (hn : next.task ≠ .resolve name true) (hs : Stands own forced name moment.world phase)
    (hp : moment.Places own forced name phase) :
    ∃ later, Stands own forced name next.world later ∧ next.Places own forced name later := by
  have hnext : next.Orderly limit := h.turn ht
  cases ht with
  | quiet ho hc hw =>
      exact ⟨phase, hs.quiet hw, hp.step hf hn (by rw [hc]) (by simp [ho])⟩
  | @recalled other value symbol hsome hv ho hc hw =>
      refine ⟨phase, ?_, hp.step hf hn (by rw [hc]) (by simp [ho])⟩
      by_cases he : other = name
      · subst he
        exact hs.recall hsome hv (by rw [hw]) (by rw [hw])
      · exact hs.of_told he (by rw [hw]) (by rw [hw])
  | @opened other force symbol htask hsome hnone hout _ ho hc hw =>
      refine ⟨phase, hs.quiet hw, ?_⟩
      by_cases he : other = name
      · subst he
        obtain ⟨rfl, hdue⟩ := hp.rested_of_resolve hs htask hsome hnone hout
        have hopening : (other, false) ∈ next.openings := by simp [ho]
        refine ⟨by simp, fun _ => hdue, fun _ _ => rfl, fun _ hm => ?_, by simp, fun he => absurd he hn⟩
        exact absurd (hnext.drawn_unique hopening hm) (by simp)
      · exact hp.step hf hn (by simp [hc, Ne.symm he]) (by simp [ho, Ne.symm he])
  | @drawn other mask symbol rest ho hsome ho' hc hw =>
      by_cases he : other = name
      · subst he
        have hopening : (other, false) ∈ moment.openings := by simp [ho]
        have hopening' : (other, true) ∈ next.openings := by simp [ho']
        obtain rfl : phase = .rested := hp.rested hf hopening
        have hmem : other ∈ next.chain := hnext.mem_chain hopening'
        refine ⟨.drawn, (hs.draw hsome mask).quiet hw, by simp, fun _ => ?_, fun _ hm => ?_,
          fun _ _ => rfl, fun _ hm => absurd hmem hm, fun he => absurd he hn⟩
        · exact hp.due (hc ▸ hmem)
        · exact absurd (hnext.drawn_unique hopening' hm) (by simp)
      · refine ⟨phase, (hs.draw_of_ne he symbol mask).quiet hw, hp.step hf hn (by rw [hc]) ?_⟩
        simp [ho, ho', Ne.symm he]
  | @settled other value symbol ho hc hsome hw =>
      by_cases he : other = name
      · subst he
        have hopening : (other, true) ∈ moment.openings := by simp [ho]
        obtain rfl : phase = .drawn := hp.drawn hf hopening
        have hdue : Due own forced := hp.due (h.mem_chain hopening)
        have hout : other ∉ next.chain := by
          have hnodup : (next.chain ++ [other]).Nodup := hc ▸ h.distinct
          intro hm
          exact (List.nodup_append.mp hnodup).2.2 other hm other (List.mem_singleton_self _) rfl
        refine ⟨.settled, hs.settle hdue hsome (by rw [hw]) (by rw [hw]), fun hm => absurd hm hout,
          fun hm => absurd hm hout, fun _ hm => ?_, fun _ hm => ?_, by simp, fun he => absurd he hn⟩
        · exact absurd (hnext.mem_chain hm) hout
        · exact absurd (hnext.mem_chain hm) hout
      · refine ⟨phase, hs.of_told he ?_ (by rw [hw]), hp.step hf hn ?_ ?_⟩
        · simp [hw, Std.TreeMap.getElem?_insert, he]
        · simp [hc, Ne.symm he]
        · intro drawn hm
          rw [ho]
          exact List.mem_cons_of_mem _ hm
  | gaveUp hfailed => exact absurd hfailed hf

theorem stands_next (h : moment.Orderly limit) (hs : Stands own forced name moment.world phase)
    (hp : moment.Places own forced name phase) :
    ∃ later, Stands own forced name (moment.next modifiers limit).world later ∧
      (moment.next modifiers limit).Places own forced name later := by
  have hn : (moment.next modifiers limit).task ≠ .resolve name true := next_ne_forced moment
  by_cases hf : moment.Failed
  · obtain ⟨ht, hc, hw⟩ := next_failed modifiers limit hf
    have hfailed : (moment.next modifiers limit).Failed := by
      obtain ⟨cause, hcause⟩ := hf
      exact ⟨cause, ht.trans hcause⟩
    refine ⟨phase, hw ▸ hs, fun hm => hp.unsettled (hc.subset hm), fun hm => hp.due (hc.subset hm),
      absurd hfailed, absurd hfailed, absurd hfailed, fun he => absurd he hn⟩
  · exact (turn_next h.toAligned).stands h hf hn hs hp

end

end Expansion

namespace Grammar

variable {σ : Type} [RandomSource σ] (grammar : Grammar σ)

omit [RandomSource σ] in
theorem firstTask_forced {query : Query} {name : String}
    (h : grammar.firstTask query = .resolve name true) : query = .expandSymbol name true := by
  have hroot {other : String} {force : Bool}
      (ht : grammar.rootTask other force = .resolve name true) : other = name ∧ force = true := by
    unfold rootTask at ht
    split at ht
    · simpa using ht
    · simp at ht
  cases query with
  | get other => exact absurd (hroot h).2 (by simp)
  | expandSymbol other force =>
      obtain ⟨rfl, rfl⟩ := hroot h
      rfl
  | expand => exact absurd (hroot h).2 (by simp)
  | evaluate text =>
      simp only [firstTask] at h
      split at h <;> simp at h

-- At each moment of an answer it is known of every symbol how far it has got.
theorem moment_stands (query : Query) (name : String) (count : Nat) :
    ∃ phase, Stands (grammar.symbol? name) (query = .expandSymbol name true) name
        (grammar.moment query count).world phase ∧
      (grammar.moment query count).Places (grammar.symbol? name)
        (query = .expandSymbol name true) name phase := by
  induction count with
  | zero =>
      have hopenings : (grammar.moment query 0).openings = [] := by
        change (grammar.firstTask query).opening?.toList ++ [] = []
        rw [opening?_firstTask]
        rfl
      have hout : name ∉ (grammar.moment query 0).chain := List.not_mem_nil
      refine ⟨.rested, .rested rfl rfl (fun _ hm => absurd hm List.not_mem_nil), by simp,
        fun hm => absurd hm hout, fun _ _ => rfl, ?_, by simp, ?_⟩
      · simp [hopenings]
      · exact fun ht => ⟨rfl, grammar.firstTask_forced ht⟩
  | succ count ih =>
      obtain ⟨phase, hs, hp⟩ := ih
      rw [moment_add]
      exact stands_next (grammar.orderly_moment query count) hs hp

-- When an answer has come to its end, no symbol has been left half way, unless it has failed.
theorem answer_stands (query : Query) (name : String) :
    ∃ phase, Stands (grammar.symbol? name) (query = .expandSymbol name true) name
        (grammar.answer query).world phase ∧
      ∀ text, (grammar.answer query).result = .ok text → phase ≠ .drawn := by
  obtain ⟨count, hlast, -⟩ := runs_iff.mp (grammar.runs_answer query)
  obtain ⟨phase, hs, hp⟩ := grammar.moment_stands query name count
  rw [moment, hlast] at hs hp
  refine ⟨phase, hs, fun text ht => hp.closed ?_ List.not_mem_nil⟩
  rintro ⟨cause, hcause⟩
  simp [ht] at hcause

end Grammar

end StoryGrammar
