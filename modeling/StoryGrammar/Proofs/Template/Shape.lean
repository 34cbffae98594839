import StoryGrammar.Proofs.Template.Lookahead

namespace StoryGrammar.Template

open Node

section

variable {stop : Nat} {phrase : Phrase} {tokens rest : List Token} {value : phrase.Value}

-- Each run among the tokens has a letter, as all runs of a text have.
def Solid (tokens : List Token) : Prop := ∀ token ∈ tokens, token.lexeme ≠ .run []

theorem solid_ofText (text : String) : Solid (Token.ofText text) := by
  intro token ht he
  have hrun : .run [] ∈ (Token.ofText text).map Token.lexeme := List.mem_map.mpr ⟨token, ht, he⟩
  rw [Token.ofText, Token.map_lexeme_locate] at hrun
  exact Lexeme.run_nil_notMem_scan _ hrun

theorem Solid.tail {token : Token} (h : Solid (token :: rest)) : Solid rest :=
  (List.forall_mem_cons.mp h).2

-- Reading only takes tokens away.
theorem Reads.solid (h : Reads stop phrase tokens value rest) (hs : Solid tokens) : Solid rest := by
  obtain ⟨consumed, rfl, -⟩ := h.spelled
  exact fun token ht => hs token (List.mem_append_right consumed ht)

-- Where no node is read, no token is taken.
theorem Reads.eq_of_nil {place : Place} (h : Reads stop (.nodes place) tokens [] rest) :
    tokens = rest := by
  generalize hn : ([] : List Node) = nodes at h
  cases h with
  | finish | stop _ | close _ _ => rfl
  | hash _ _ _ | bracket _ _ _ => cases hn
  | text _ _ =>
      unfold consText at hn
      split at hn <;> cases hn

-- A single empty item is an enclosure that is closed at once.
theorem Reads.behind?_closer {enclosure : Enclosure}
    (h : Reads stop (.items enclosure) tokens [[]] rest) : behind? enclosure.closer tokens ≠ none := by
  cases h with
  | lastItem hn =>
      obtain rfl := hn.eq_of_nil
      simp
  | item _ hi => cases hi

end

namespace Node

variable {node : Node} {nodes : List Node} {text : String}

theorem canonical_nil : Canonical [] := ⟨tidySequence_nil, inside_nil⟩

theorem inside_cons {P : List Node → Prop} :
    Inside P (node :: nodes) ↔ Inside P [node] ∧ Inside P nodes := by
  have hsplit : Inside P ([node] ++ nodes) ↔ _ := inside_append
  rwa [List.singleton_append] at hsplit

theorem canonical_cons : Canonical (node :: nodes) ↔ node.Tidy ∧ Inside TidySequence [node] ∧
    (∀ next ∈ nodes.head?, Separate node next) ∧ Canonical nodes := by
  rw [Canonical, Throughout, tidySequence_cons, inside_cons, Canonical, Throughout]
  tauto

theorem separate_of_not_isLiteral (h : ¬node.IsLiteral) (next : Node) : Separate node next :=
  fun hboth => h hboth.1

-- Text in front of canonical nodes stays apart from them or merges with the literal at their head.
theorem canonical_consText (ht : text ≠ "") (h : Canonical nodes) :
    Canonical (consText text nodes) := by
  unfold consText
  split
  · rename_i next rest
    obtain ⟨-, -, hseparate, hrest⟩ := canonical_cons.mp h
    refine canonical_cons.mpr ⟨fun he => ht ?_, by simp, hseparate, hrest⟩
    exact (String.append_eq_empty_iff.mp he).1
  · rename_i hhead
    refine canonical_cons.mpr ⟨ht, by simp, fun next hn hboth => ?_, h⟩
    cases nodes with
    | nil => simp at hn
    | cons first rest =>
        obtain rfl := Option.some.inj hn
        cases first with
        | literal other => exact hhead other rest rfl
        | alternation _ | reference _ | conditional _ => exact hboth.2

theorem noAlternation_consText : NoAlternation (consText text nodes) ↔ NoAlternation nodes := by
  unfold consText
  split <;> simp [NoAlternation, IsAlternation]

end Node

-- The form in which a phrase is read. In an option an alternation cannot begin, and a hash opens
-- neither a literal nor an alternation.
def Phrase.Regular : (phrase : Phrase) → phrase.Value → Prop
  | .nodes place, sequence => Canonical sequence ∧ (place = .option → NoAlternation sequence)
  | .items enclosure, sequences => sequences ≠ [] ∧
      ∀ sequence ∈ sequences, Canonical sequence ∧ (enclosure = .options → NoAlternation sequence)
  | .arguments, sequences => sequences ≠ [[]] ∧ ∀ sequence ∈ sequences, Canonical sequence
  | .calls, modifiers =>
      ∀ call ∈ modifiers, call.Tidy ∧ ∀ argument ∈ call.arguments, Canonical argument
  | .reference, target => target.Tidy ∧ target.Inside TidySequence
  | .span, node => node.Tidy ∧ Inside TidySequence [node] ∧ ¬node.IsLiteral ∧ ¬node.IsAlternation
  | .branching _, compared =>
      compared.subject.Tidy ∧ Inside TidySequence [.conditional compared]
  | .otherwise, sequence => Canonical sequence

theorem Lexeme.text_ne_empty {l : Lexeme} (h : l ≠ .run []) : l.text ≠ "" := by
  intro he
  have hcontent : l.content = [] := by simpa [Lexeme.text] using he
  cases l with
  | mark m => cases hcontent
  | run letters => exact h (by simpa [Lexeme.content] using hcontent)

-- Whatever is read has the form, if no run is empty.
theorem Reads.regular {stop : Nat} {phrase : Phrase} {tokens rest : List Token}
    {value : phrase.Value} (h : Reads stop phrase tokens value rest) (hs : Solid tokens) :
    phrase.Regular value := by
  induction h with
  | finish | stop _ | close _ _ => exact ⟨canonical_nil, fun _ => by simp [NoAlternation]⟩
  | @hash place _ _ node _ nodes _ hspan _ _ ihs ihn =>
      obtain ⟨htidy, hinside, hliteral, halternation⟩ := ihs hs.tail
      obtain ⟨hnodes, hoption⟩ := ihn (hspan.solid hs.tail)
      refine ⟨canonical_cons.mpr ⟨htidy, hinside, ?_, hnodes⟩, fun hp => ?_⟩
      · exact fun next _ => separate_of_not_isLiteral hliteral next
      · exact List.forall_mem_cons.mpr ⟨halternation, hoption hp⟩
  | @bracket place _ _ options _ nodes _ hp ho _ iho ihn =>
      obtain ⟨hne, hoptions⟩ := iho hs.tail
      obtain ⟨hnodes, -⟩ := ihn (ho.solid hs.tail)
      have htidy : (Node.alternation options).Tidy := ⟨hne, fun option hm => (hoptions option hm).2 rfl⟩
      have hinside : Inside TidySequence [.alternation options] :=
        inside_alternation.mpr ⟨fun option hm => (hoptions option hm).1, inside_nil⟩
      refine ⟨canonical_cons.mpr ⟨htidy, hinside, ?_, hnodes⟩, fun he => absurd he hp⟩
      exact fun next _ => separate_of_not_isLiteral id next
  | @text place token _ nodes _ _ _ ihn =>
      obtain ⟨hnodes, hoption⟩ := ihn hs.tail
      have htext : token.lexeme.text ≠ "" := Lexeme.text_ne_empty (hs token (by simp))
      exact ⟨canonical_consText htext hnodes, fun hp => noAlternation_consText.mpr (hoption hp)⟩
  | @lastItem enclosure _ nodes _ _ _ ihn =>
      obtain ⟨hnodes, hoption⟩ := ihn hs
      refine ⟨by simp, List.forall_mem_singleton.mpr ⟨hnodes, fun he => hoption ?_⟩⟩
      rw [he, Enclosure.place]
  | @item enclosure _ nodes _ _ items _ hn _ ihn ihi =>
      obtain ⟨hnodes, hoption⟩ := ihn hs
      obtain ⟨-, hitems⟩ := ihi (hn.solid hs).tail
      refine ⟨by simp, List.forall_mem_cons.mpr ⟨⟨hnodes, fun he => hoption ?_⟩, hitems⟩⟩
      rw [he, Enclosure.place]
  | noArguments _ | emptyArguments => exact ⟨by simp, by simp⟩
  | arguments hb hi ihi =>
      obtain ⟨-, hitems⟩ := ihi hs.tail
      refine ⟨?_, fun item hm => (hitems item hm).1⟩
      rintro rfl
      exact hi.behind?_closer hb
  | noCalls _ => simp [Phrase.Regular]
  | @call _ letters _ _ arguments _ calls _ hname ha _ iha ihc =>
      obtain ⟨hne, harguments⟩ := iha hs.tail.tail
      have hcalls := ihc (ha.solid hs.tail.tail)
      have htidy : Call.Tidy ⟨String.ofList (letters.map Letter.char), arguments⟩ :=
        ⟨by rwa [String.toList_ofList], hne⟩
      exact List.forall_mem_cons.mpr ⟨⟨htidy, harguments⟩, hcalls⟩
  | @reference letters _ _ calls _ hname _ ihc =>
      have hcalls := ihc hs.tail
      refine ⟨⟨by rwa [String.toList_ofList], fun call hm => (hcalls call hm).1⟩, ?_⟩
      exact fun call hm => (hcalls call hm).2
  | referenceSpan _ ihr =>
      obtain ⟨htidy, hinside⟩ := ihr hs
      exact ⟨htidy, inside_reference.mpr ⟨hinside, inside_nil⟩, id, id⟩
  | conditionalSpan _ ihr =>
      obtain ⟨htidy, hinside⟩ := ihr hs.tail
      exact ⟨htidy, hinside, id, id⟩
  | branching hsubject htest htrue _ ihs iht ihtrue ihfalse =>
      have hinTest := (hsubject.solid hs).tail
      have hinTrue := (htest.solid hinTest).tail
      obtain ⟨htidy, hinside⟩ := ihs hs
      obtain ⟨htested, -⟩ := iht hinTest
      obtain ⟨hwhenTrue, -⟩ := ihtrue hinTrue
      have hwhenFalse := ihfalse (htrue.solid hinTrue)
      exact ⟨htidy,
        inside_conditional.mpr ⟨hinside, htested, hwhenTrue, hwhenFalse, inside_nil⟩⟩
  | noOtherwise _ => exact canonical_nil
  | otherwise _ ihn => exact (ihn hs.tail).1

-- A template is read into nodes in canonical form, at every depth: no literal is empty or stands
-- beside another one, names are names, an alternation has options and is not directly in an option,
-- and parentheses around nothing hold no argument.
theorem canonical_of_parse {text : String} {template : Template}
    (h : Template.parse text = .ok template) : Canonical template.nodes := by
  obtain ⟨nodes, hread, h⟩ := Except.bind_eq_ok_iff.mp h
  obtain rfl := Except.ok.inj h
  exact ((read_eq_ok_iff.mp hread).regular (solid_ofText text)).1

-- A bracket in an option and a colon out of place are text, as is a hash behind a backslash; in an
-- argument an alternation begins again.
def riddle : String := "so:[a[b|#who.as(,[x|y]).low()#\\#]#?who=me?#who#..:#"

theorem canonical_of_parse_riddle : ∃ template, Template.parse riddle = .ok template ∧
    template.nodes.length = 3 ∧ Canonical template.nodes := by
  have hparse : (Template.parse riddle).toOption.any
      (fun template => decide (template.nodes.length = 3)) = true := by decide +kernel
  obtain ⟨template, h, hlength⟩ := Except.exists_of_any_toOption hparse
  exact ⟨template, h, of_decide_eq_true hlength, canonical_of_parse h⟩

end StoryGrammar.Template
