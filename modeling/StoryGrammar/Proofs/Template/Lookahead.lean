import StoryGrammar.Proofs.Template.RoundTrip

namespace StoryGrammar.Template

open Node

namespace Phrase

-- The mark that ends a phrase, where the phrase takes it in. The other phrases are ended by what lies
-- behind them.
def closer? : Phrase → Option Mark
  | .items enclosure => some enclosure.closer
  | .span | .branching _ => some .hash
  | .nodes _ | .arguments | .calls | .reference | .otherwise => none

-- A phrase that has no branch in it. Only a branch depends on more than the token behind it.
def Unbranched : (phrase : Phrase) → phrase.Value → Prop
  | .nodes place, value => place.isBranch = false ∧ Throughout NoConditional value
  | .items _, value | .arguments, value => ∀ item ∈ value, Throughout NoConditional item
  | .calls, value => ∀ call ∈ value, ∀ argument ∈ call.arguments, Throughout NoConditional argument
  | .reference, value => value.Inside NoConditional
  | .span, value => Throughout NoConditional [value]
  | .branching _, _ | .otherwise, _ => False

-- It makes no difference to a phrase which of two things lies further behind it: neither has a hash
-- that could close a branch, or the phrase has no branch.
def Indifferent (back back' : List Token) (phrase : Phrase) (value : phrase.Value) : Prop :=
  (hashAhead back = false ∧ hashAhead back' = false) ∨ phrase.Unbranched value

end Phrase

theorem Node.throughout_noConditional_cons {node : Node} {rest : List Node} :
    Throughout NoConditional (node :: rest) ↔
      Throughout NoConditional [node] ∧ Throughout NoConditional rest := by
  have hinside : Inside NoConditional ([node] ++ rest) ↔ _ := inside_append
  rw [List.singleton_append] at hinside
  simp only [Throughout, NoConditional, List.forall_mem_cons, hinside, List.not_mem_nil,
    false_implies, implies_true, and_true]
  tauto

theorem Node.throughout_noConditional_consText {text : String} {nodes : List Node} :
    Throughout NoConditional (consText text nodes) ↔ Throughout NoConditional nodes := by
  unfold consText
  split
  · simp [Throughout, NoConditional, IsConditional]
  · simp [Throughout, NoConditional, IsConditional]

section

variable {stop stop' : Nat} {phrase : Phrase} {tokens rest front back back' : List Token}
  {value : phrase.Value}

theorem behind?_append {m : Mark} (hne : front ≠ []) (h : behind? m (front ++ back) = none) :
    behind? m (front ++ back') = none := by
  obtain ⟨⟨l, offset⟩, others, rfl⟩ := List.exists_cons_of_ne_nil hne
  by_cases hl : l = .mark m
  · rw [hl, List.cons_append, behind?_cons] at h
    cases h
  · exact behind?_cons_of_ne hl _ _

theorem Reads.length_le (h : Reads stop phrase tokens value rest) :
    rest.length ≤ tokens.length := by
  obtain ⟨consumed, rfl, -⟩ := h.spelled
  simp

theorem Reads.closed (h : Reads stop phrase tokens value rest) {m : Mark}
    (hm : phrase.closer? = some m) :
    ∃ consumed offset, tokens = consumed ++ ⟨.mark m, offset⟩ :: rest := by
  induction h with
  | @lastItem enclosure _ _ offset _ hn =>
      obtain rfl := Option.some.inj hm
      obtain ⟨consumed, rfl, -⟩ := hn.spelled
      exact ⟨consumed, offset, rfl⟩
  | @item enclosure _ _ offset _ _ _ hn _ _ ihi =>
      obtain ⟨item, rfl, -⟩ := hn.spelled
      obtain ⟨consumed, closed, rfl⟩ := ihi hm
      exact ⟨item ++ ⟨.mark enclosure.separator, offset⟩ :: consumed, closed, by simp⟩
  | @referenceSpan _ _ closed _ hr =>
      obtain rfl := Option.some.inj hm
      obtain ⟨consumed, rfl, -⟩ := hr.spelled
      exact ⟨consumed, closed, rfl⟩
  | @conditionalSpan comparison offset _ _ _ _ ihr =>
      obtain ⟨consumed, closed, rfl⟩ := ihr hm
      exact ⟨⟨.mark comparison.mark, offset⟩ :: consumed, closed, rfl⟩
  | @branching _ _ _ equals _ _ question _ _ _ _ closed _ hs ht htrue hfalse =>
      obtain rfl := Option.some.inj hm
      obtain ⟨subject, rfl, -⟩ := hs.spelled
      obtain ⟨test, rfl, -⟩ := ht.spelled
      obtain ⟨whenTrue, rfl, -⟩ := htrue.spelled
      obtain ⟨whenFalse, rfl, -⟩ := hfalse.spelled
      exact ⟨subject ++ ⟨.mark .equals, equals⟩ :: (test ++ ⟨.mark .question, question⟩ ::
        (whenTrue ++ whenFalse)), closed, by simp⟩
  | _ => cases hm

-- Where the closing mark cannot lie behind, what lies there is left.
theorem Reads.exists_front (h : Reads stop phrase (front ++ back) value rest) {m : Mark}
    (hm : phrase.closer? = some m) (hb : ∀ token ∈ back, token.lexeme ≠ .mark m) :
    ∃ left, rest = left ++ back := by
  obtain ⟨consumed, offset, he⟩ := h.closed hm
  rcases List.append_eq_append_iff.mp he with ⟨more, -, hback⟩ | ⟨more, -, hrest⟩
  · exact absurd rfl (hb ⟨.mark m, offset⟩ (by simp [hback]))
  · cases more with
    | nil =>
        rw [List.nil_append] at hrest
        subst hrest
        exact absurd rfl (hb _ List.mem_cons_self)
    | cons token left =>
        obtain ⟨-, rfl⟩ := List.cons.inj hrest
        exact ⟨left, rfl⟩

end

-- Spans that take fewer tokens than the limit, in front of what has no hash, are read in front of
-- anything else that has none.
def SpansRelayed (limit : Nat) : Prop :=
  ∀ (stop' : Nat) ⦃stop : Nat⦄ ⦃tokens front back back' : List Token⦄ ⦃node : Node⦄,
    hashAhead back = false → hashAhead back' = false → tokens.length < limit + back.length →
    Reads stop .span tokens node (front ++ back) →
    ∃ consumed, tokens = consumed ++ (front ++ back) ∧
      Reads stop' .span (consumed ++ (front ++ back')) node (front ++ back')

section

variable {stop stop' limit : Nat} {back back' : List Token}

-- A hash that closes a branch goes on doing so: a span that it could open in front of the one thing
-- could be opened in front of the other.
theorem reads_close_relay {place : Place} (hspans : SpansRelayed limit)
    (hp : place.isBranch = true) (hb : hashAhead back = false) (hb' : hashAhead back' = false)
    {opened : Nat} {front : List Token} (hl : front.length < limit)
    (ha : ∀ node more h, parseSpan stop opened (front ++ back) = .ok ⟨node, more, h⟩ →
      hashAhead more = false) :
    Reads stop' (.nodes place) (⟨.mark .hash, opened⟩ :: (front ++ back')) []
      (⟨.mark .hash, opened⟩ :: (front ++ back')) := by
  refine .close hp fun node more h hs => ?_
  have hspan := reads_of_parseSpan hs
  have hmark : ∀ token ∈ back', token.lexeme ≠ .mark .hash := by
    simpa [hashAhead] using hb'
  obtain ⟨left, rfl⟩ := hspan.exists_front rfl hmark
  have hlength : (front ++ back').length < limit + back'.length := by
    rw [List.length_append]
    omega
  obtain ⟨consumed, he, hother⟩ := hspans stop hb' hb hlength hspan
  rw [← List.append_assoc] at he hother
  obtain rfl := List.append_cancel_right he
  obtain ⟨hx, hfound⟩ := hother.parse opened
  have hahead := ha node (left ++ back) hx hfound
  rw [hashAhead_append, Bool.or_eq_false_iff] at hahead ⊢
  exact ⟨hahead.1, hb'⟩

theorem Phrase.Indifferent.hashAhead {place : Place} {nodes : List Node}
    (h : Indifferent back back' (.nodes place) nodes) {front : List Token}
    (ha : place.isBranch = true → hashAhead (front ++ back) = true) (hp : place.isBranch = true) :
    Template.hashAhead (front ++ back') = true := by
  rcases h with ⟨hb, -⟩ | ⟨hn, -⟩
  · have hfront := ha hp
    rw [hashAhead_append, hb, Bool.or_false] at hfront
    rw [hashAhead_append, hfront, Bool.true_or]
  · rw [hn] at hp
    cases hp

theorem Phrase.Indifferent.of_cons {place : Place} {node : Node} {nodes : List Node}
    (h : Indifferent back back' (.nodes place) (node :: nodes)) :
    Indifferent back back' .span node ∧ Indifferent back back' (.nodes place) nodes := by
  rcases h with hno | ⟨hp, ht⟩
  · exact ⟨.inl hno, .inl hno⟩
  · obtain ⟨hnode, hnodes⟩ := throughout_noConditional_cons.mp ht
    exact ⟨.inr hnode, .inr ⟨hp, hnodes⟩⟩

theorem Phrase.Indifferent.of_alternation {place : Place} {options : List (List Node)}
    {nodes : List Node}
    (h : Indifferent back back' (.nodes place) (.alternation options :: nodes)) :
    Indifferent back back' (.items .options) options ∧
      Indifferent back back' (.nodes place) nodes :=
  ⟨h.imp_right fun hn => (inside_alternation.mp hn.2.2).1, h.of_cons.2⟩

theorem Phrase.Indifferent.of_consText {place : Place} {text : String} {nodes : List Node}
    (h : Indifferent back back' (.nodes place) (consText text nodes)) :
    Indifferent back back' (.nodes place) nodes :=
  h.imp_right fun hn => ⟨hn.1, throughout_noConditional_consText.mp hn.2⟩

-- What is read in front of one thing is read in front of the other, if it is indifferent to them.
-- The induction is on the reading; that a hash closes a branch rests on spans of fewer tokens. The
-- last part of a phrase comes first, as it is what lies behind the parts before it.
theorem Reads.relay_of_spans (hspans : SpansRelayed limit) {phrase : Phrase}
    {tokens rest : List Token} {value : phrase.Value} (h : Reads stop phrase tokens value rest)
    {front : List Token} (hr : rest = front ++ back) (hl : tokens.length ≤ limit + back.length)
    (hc : phrase.closer? = none → front ≠ []) (hi : phrase.Indifferent back back' value) :
    ∃ consumed, tokens = consumed ++ (front ++ back) ∧
      Reads stop' phrase (consumed ++ (front ++ back')) value (front ++ back') := by
  induction h generalizing front with
  | finish => exact absurd (List.append_eq_nil_iff.mp hr.symm).1 (hc rfl)
  | stop he =>
      obtain ⟨token, others, rfl⟩ := List.exists_cons_of_ne_nil (hc rfl)
      rw [List.cons_append] at hr
      obtain ⟨rfl, rfl⟩ := List.cons.inj hr
      exact ⟨[], rfl, .stop he⟩
  | @close place opened rest hp ha =>
      obtain ⟨token, others, rfl⟩ := List.exists_cons_of_ne_nil (hc rfl)
      rw [List.cons_append] at hr
      obtain ⟨rfl, rfl⟩ := List.cons.inj hr
      obtain ⟨hb, hb'⟩ := hi.resolve_right fun h => by simp [Phrase.Unbranched, hp] at h
      have hlength : others.length < limit := by
        simp only [List.length_cons, List.length_append] at hl
        omega
      exact ⟨[], rfl, reads_close_relay hspans hp hb hb' hlength ha⟩
  | @hash place opened rest node more nodes after hs ha hn ihs ihn =>
      have hle := hs.length_le
      rw [List.length_cons] at hl
      obtain ⟨his, hin⟩ := hi.of_cons
      obtain ⟨others, rfl, hothers⟩ := ihn hr (by omega) hc hin
      obtain ⟨span, rfl, hspan⟩ := ihs (List.append_assoc _ _ _).symm (by omega) nofun his
      refine ⟨⟨.mark .hash, opened⟩ :: (span ++ others), by simp, ?_⟩
      rw [← List.append_assoc] at ha hothers
      simpa using Reads.hash hspan (hi.hashAhead ha) hothers
  | @bracket place opened rest options more nodes after hp ho hn iho ihn =>
      have hle := ho.length_le
      rw [List.length_cons] at hl
      obtain ⟨hio, hin⟩ := hi.of_alternation
      obtain ⟨others, rfl, hothers⟩ := ihn hr (by omega) hc hin
      obtain ⟨inner, rfl, hinner⟩ := iho (List.append_assoc _ _ _).symm (by omega) nofun hio
      refine ⟨⟨.mark .openBracket, opened⟩ :: (inner ++ others), by simp, ?_⟩
      rw [← List.append_assoc] at hothers
      simpa using Reads.bracket hp hinner hothers
  | @text place token rest nodes after ht hn ihn =>
      rw [List.length_cons] at hl
      obtain ⟨others, rfl, hothers⟩ := ihn hr (by omega) hc hi.of_consText
      exact ⟨token :: others, rfl, .text ht hothers⟩
  | @lastItem enclosure tokens nodes offset rest hn ihn =>
      subst hr
      have hin : Phrase.Indifferent back back' (.nodes enclosure.place) nodes :=
        hi.imp_right fun h => ⟨enclosure.not_isBranch, h nodes (by simp)⟩
      obtain ⟨item, rfl, hitem⟩ := ihn List.cons_append.symm hl (fun _ => List.cons_ne_nil _ _) hin
      refine ⟨item ++ [⟨.mark enclosure.closer, offset⟩], by simp, ?_⟩
      simpa using Reads.lastItem hitem
  | @item enclosure tokens nodes offset rest items after hn hrest ihn ihi =>
      have hle := hn.length_le
      rw [List.length_cons] at hle
      have hin : Phrase.Indifferent back back' (.nodes enclosure.place) nodes :=
        hi.imp_right fun h => ⟨enclosure.not_isBranch, h nodes (by simp)⟩
      have hii : Phrase.Indifferent back back' (.items enclosure) items :=
        hi.imp_right fun h => (List.forall_mem_cons.mp h).2
      obtain ⟨others, rfl, hothers⟩ := ihi hr (by omega) nofun hii
      rw [← List.append_assoc] at ihn hothers
      obtain ⟨item, rfl, hitem⟩ := ihn List.cons_append.symm hl (fun _ => List.cons_ne_nil _ _) hin
      refine ⟨item ++ ⟨.mark enclosure.separator, offset⟩ :: others, by simp, ?_⟩
      simpa using Reads.item hitem hothers
  | noArguments hb =>
      subst hr
      have hb' : behind? .openParen (front ++ back') = none := behind?_append (hc rfl) hb
      exact ⟨[], rfl, .noArguments hb'⟩
  | @emptyArguments opened closed rest =>
      subst hr
      exact ⟨[⟨.mark .openParen, opened⟩, ⟨.mark .closeParen, closed⟩], rfl, .emptyArguments⟩
  | @arguments opened tokens items rest hb hitems ihi =>
      rw [List.length_cons] at hl
      obtain ⟨inner, rfl, hinner⟩ := ihi hr (by omega) nofun hi
      have hne : inner ++ front ≠ [] := by simp [hc rfl]
      rw [← List.append_assoc] at hb hinner
      refine ⟨⟨.mark .openParen, opened⟩ :: inner, by simp, ?_⟩
      simpa using Reads.arguments (behind?_append hne hb) hinner
  | noCalls hb =>
      subst hr
      have hb' : behind? .dot (front ++ back') = none := behind?_append (hc rfl) hb
      exact ⟨[], rfl, .noCalls hb'⟩
  | @call dot letters offset tokens arguments more calls rest hname ha hcalls iha ihc =>
      have hle := ha.length_le
      simp only [List.length_cons] at hl
      have hic : Phrase.Indifferent back back' .calls calls :=
        hi.imp_right fun h call hm => h call (List.mem_cons_of_mem _ hm)
      have hia : Phrase.Indifferent back back' .arguments arguments :=
        hi.imp_right fun h => h _ List.mem_cons_self
      obtain ⟨others, rfl, hothers⟩ := ihc hr (by omega) hc hic
      have hne : others ++ front ≠ [] := by simp [hc rfl]
      obtain ⟨inner, rfl, hinner⟩ :=
        iha (List.append_assoc _ _ _).symm (by omega) (fun _ => hne) hia
      refine ⟨⟨.mark .dot, dot⟩ :: ⟨.run letters, offset⟩ :: (inner ++ others), by simp, ?_⟩
      rw [← List.append_assoc] at hothers
      simpa using Reads.call hname hinner hothers
  | @reference letters offset tokens calls rest hname hcalls ihc =>
      rw [List.length_cons] at hl
      have hic : Phrase.Indifferent back back' .calls calls := hi
      obtain ⟨others, rfl, hothers⟩ := ihc hr (by omega) hc hic
      exact ⟨⟨.run letters, offset⟩ :: others, rfl, .reference hname hothers⟩
  | @referenceSpan tokens target closed rest ht iht =>
      subst hr
      have hit : Phrase.Indifferent back back' .reference target :=
        hi.imp_right fun h => (inside_reference.mp h.2).1
      obtain ⟨inner, rfl, hinner⟩ :=
        iht List.cons_append.symm hl (fun _ => List.cons_ne_nil _ _) hit
      refine ⟨inner ++ [⟨.mark .hash, closed⟩], by simp, ?_⟩
      simpa using Reads.referenceSpan hinner
  | @conditionalSpan comparison offset tokens branching rest hbranching ihb =>
      rw [List.length_cons] at hl
      have hib : Phrase.Indifferent back back' (.branching comparison) branching :=
        hi.imp_right fun h => h.1 (.conditional branching) List.mem_cons_self trivial
      obtain ⟨inner, rfl, hinner⟩ := ihb hr (by omega) nofun hib
      exact ⟨⟨.mark comparison.mark, offset⟩ :: inner, rfl, .conditionalSpan hinner⟩
  | @branching comparison tokens subject equals inTest test question inTrue whenTrue inFalse
      whenFalse closed rest hs ht htrue hfalse ihs iht ihtrue ihfalse =>
      subst hr
      have hle₁ := hs.length_le
      have hle₂ := ht.length_le
      have hle₃ := htrue.length_le
      simp only [List.length_cons] at hle₁ hle₂
      -- A conditional has branches, so only the lack of hashes is left.
      have hno := hi.resolve_right id
      obtain ⟨fourth, rfl, hfourth⟩ := ihfalse List.cons_append.symm (by omega)
        (fun _ => List.cons_ne_nil _ _) (.inl hno)
      obtain ⟨third, rfl, hthird⟩ := ihtrue (List.append_assoc _ _ _).symm (by omega)
        (fun _ => by simp) (.inl hno)
      obtain ⟨second, rfl, hsecond⟩ := iht
        (List.append_assoc (⟨.mark .question, question⟩ :: third) _ back).symm (by omega)
        (fun _ => by simp) (.inl hno)
      obtain ⟨first, rfl, hfirst⟩ := ihs
        (List.append_assoc (⟨.mark .equals, equals⟩ :: second) _ back).symm (by omega)
        (fun _ => by simp) (.inl hno)
      refine ⟨first ++ ⟨.mark .equals, equals⟩ :: (second ++ ⟨.mark .question, question⟩ ::
        (third ++ (fourth ++ [⟨.mark .hash, closed⟩]))), by simp, ?_⟩
      simp only [List.append_assoc, List.cons_append] at hfirst hsecond hthird hfourth
      simpa using Reads.branching hfirst hsecond hthird hfourth
  | noOtherwise hb =>
      subst hr
      have hb' : behind? .colon (front ++ back') = none := behind?_append (hc rfl) hb
      exact ⟨[], rfl, .noOtherwise hb'⟩
  | @otherwise colon tokens nodes rest hn ihn =>
      rw [List.length_cons] at hl
      have hin : Phrase.Indifferent back back' (.nodes .whenFalse) nodes :=
        hi.imp_right False.elim
      obtain ⟨inner, rfl, hinner⟩ := ihn hr (by omega) hc hin
      exact ⟨⟨.mark .colon, colon⟩ :: inner, rfl, .otherwise hinner⟩

theorem spansRelayed (limit : Nat) : SpansRelayed limit := by
  induction limit with
  | zero =>
      intro stop' stop tokens front back back' node _ _ hl h
      have hle := h.length_le
      rw [List.length_append] at hle
      omega
  | succ limit ih =>
      intro stop' stop tokens front back back' node hb hb' hl h
      exact h.relay_of_spans ih rfl (by omega) nofun (.inl ⟨hb, hb'⟩)

-- A phrase that takes in the mark that ends it is read in front of anything, as far as that is
-- indifferent to it.
theorem Reads.relay {phrase : Phrase} {front rest : List Token} {value : phrase.Value} {m : Mark}
    (h : Reads stop phrase (front ++ back) value rest) (hm : phrase.closer? = some m)
    (hb : ∀ token ∈ back, token.lexeme ≠ .mark m) (hi : phrase.Indifferent back back' value) :
    ∃ left, rest = left ++ back ∧ Reads stop' phrase (front ++ back') value (left ++ back') := by
  obtain ⟨left, rfl⟩ := h.exists_front hm hb
  have hlength : (front ++ back).length ≤ front.length + back.length := by simp
  obtain ⟨consumed, he, hread⟩ :=
    h.relay_of_spans (spansRelayed front.length) rfl hlength (by simp [hm]) hi
  rw [← List.append_assoc] at he hread
  obtain rfl := List.append_cancel_right he
  exact ⟨left, rfl, hread⟩

end

end StoryGrammar.Template
