import Mathlib.Data.String.Basic
import StoryGrammar.Proofs.Template.Lookahead
import StoryGrammar.Proofs.Template.Relocate

namespace StoryGrammar.Template

namespace Lexeme

-- Whether a text ends in a backslash that nothing takes out of its role.
def endsInBackslash : List Char → Bool
  | [] => false
  | ['\\'] => true
  | '\\' :: _ :: rest => endsInBackslash rest
  | _ :: rest => endsInBackslash rest

-- The lexemes of two texts side by side. Where a run meets another, the two become one.
def weld : List Lexeme → List Lexeme → List Lexeme
  | [], others => others
  | [.run letters], .run more :: rest => .run (letters ++ more) :: rest
  | l :: rest, others => l :: weld rest others

theorem weld_mark (m : Mark) (rest others : List Lexeme) :
    weld (.mark m :: rest) others = .mark m :: weld rest others := by
  rw [weld]
  simp

theorem weld_attach (l : Letter) (lexemes others : List Lexeme) :
    weld (attach l lexemes) others = attach l (weld lexemes others) := by
  match lexemes, others with
  | [], [] | [], .mark _ :: _ | [], .run _ :: _ => rfl
  | .mark m :: rest, others =>
      have hfirst : weld (attach l (.mark m :: rest)) others =
        .run [l] :: weld (.mark m :: rest) others := rfl
      rw [hfirst, weld_mark]
      rfl
  | [.run letters], [] | [.run letters], .mark _ :: _ | [.run letters], .run _ :: _ => rfl
  | .run letters :: next :: rest, others => rfl

theorem endsInBackslash_cons {c : Char} (hc : c ≠ '\\') (rest : List Char) :
    endsInBackslash (c :: rest) = endsInBackslash rest := by
  rw [endsInBackslash]
  · exact fun he => absurd he hc
  · exact fun _ _ he => absurd he hc

theorem scan_append {chars : List Char} (h : endsInBackslash chars = false) (others : List Char) :
    scan (chars ++ others) = weld (scan chars) (scan others) := by
  fun_induction scan chars with
  | case1 => rfl
  | case2 => cases h
  | case3 c rest ih =>
      rw [weld_attach, ← ih h]
      rfl
  | case4 c rest hend hescape m hm ih =>
      obtain rfl := Mark.char_of_ofChar? hm
      have hc : m.char ≠ '\\' := by cases m <;> decide
      rw [endsInBackslash_cons hc] at h
      rw [List.cons_append, scan_mark, weld_mark, ih h]
  | case5 c rest hend hescape hm ih =>
      have hc : c ≠ '\\' := ne_backslash hend hescape
      have hletter : (Letter.plain c).Legible := fun _ => ⟨hm, hc⟩
      rw [endsInBackslash_cons hc] at h
      rw [weld_attach, ← ih h]
      exact scan_letter hletter (rest ++ others)

-- What is left when the run at which two texts meet is set aside.
theorem weld_cases (lexemes others : List Lexeme) :
    weld lexemes others = lexemes ++ others ∨ ∃ front letters more rest,
      lexemes = front ++ [.run letters] ∧ others = .run more :: rest ∧
        weld lexemes others = front ++ .run (letters ++ more) :: rest := by
  fun_induction weld lexemes others with
  | case1 others => exact .inl rfl
  | case2 letters more rest => exact .inr ⟨[], letters, more, rest, rfl, rfl, rfl⟩
  | case3 l rest others _ ih =>
      rcases ih with ih | ⟨front, letters, more, behind, rfl, rfl, ih⟩
      · exact .inl (by rw [ih]; rfl)
      · exact .inr ⟨l :: front, letters, more, behind, rfl, rfl, by rw [ih]; rfl⟩

theorem width_eq (l : Lexeme) : l.width = String.utf8Len l.written := by
  unfold width
  induction l.written with
  | nil => rfl
  | cons c rest ih => rw [List.foldr_cons, ih, String.utf8Len_cons, Nat.add_comm]

theorem width_run_append (letters more : List Letter) :
    (run (letters ++ more)).width = (run letters).width + (run more).width := by
  simp only [width_eq, written, List.flatMap_append, String.utf8Len_append]

theorem text_run_append (letters more : List Letter) :
    (run (letters ++ more)).text = (run letters).text ++ (run more).text := by
  simp only [text, content, List.map_append, String.ofList_append]

end Lexeme

namespace Token

theorem locate_append (offset : Nat) (front back : List Lexeme) :
    locate offset (front ++ back) = locate offset front ++
      locate (offset + String.utf8Len (front.flatMap Lexeme.written)) back := by
  induction front generalizing offset with
  | nil => rfl
  | cons l rest ih =>
      rw [List.cons_append, locate, ih, locate, List.flatMap_cons, String.utf8Len_append,
        Lexeme.width_eq, Nat.add_assoc]
      rfl

end Token

namespace Node

-- The nodes of two templates side by side. A literal merges with one that follows it.
def join : List Node → List Node → List Node
  | [], others => others
  | [.literal text], others => consText text others
  | node :: rest, others => node :: join rest others

theorem join_cons {node : Node} (h : ¬node.IsLiteral) (rest others : List Node) :
    join (node :: rest) others = node :: join rest others := by
  cases node with
  | literal text => exact absurd trivial h
  | alternation _ | reference _ | conditional _ => rw [join]; simp

theorem consText_consText (text next : String) (nodes : List Node) :
    consText text (consText next nodes) = consText (text ++ next) nodes := by
  match nodes with
  | .literal other :: rest => simp [consText, String.append_assoc]
  | [] | .alternation _ :: _ | .reference _ :: _ | .conditional _ :: _ => rfl

theorem join_consText (text : String) (nodes others : List Node) :
    join (consText text nodes) others = consText text (join nodes others) := by
  match nodes with
  | [] => rfl
  | [.literal next] => exact (consText_consText text next others).symm
  | .literal next :: node :: rest => rfl
  | .alternation _ :: _ | .reference _ :: _ | .conditional _ :: _ => simp [consText, join]

theorem join_cons_of_ne_nil (node : Node) {rest : List Node} (h : rest ≠ []) (others : List Node) :
    join (node :: rest) others = node :: join rest others := by
  rw [join]
  rintro text rfl rfl
  exact h rfl

theorem join_nil (nodes : List Node) : join nodes [] = nodes := by
  induction nodes with
  | nil => rfl
  | cons node rest ih =>
      by_cases h : rest = []
      · subst h
        cases node <;> rfl
      · rw [join_cons_of_ne_nil node h, ih]

theorem join_append_singleton {node : Node} (h : ¬node.IsLiteral) (nodes others : List Node) :
    join (nodes ++ [node]) others = join nodes (node :: others) := by
  induction nodes with
  | nil => exact join_cons h [] others
  | cons first rest ih =>
      rw [List.cons_append, join_cons_of_ne_nil first (by simp), ih]
      by_cases hr : rest = []
      · subst hr
        cases first with
        | literal text =>
            cases node with
            | literal more => exact absurd trivial h
            | alternation _ | reference _ | conditional _ => rfl
        | alternation _ | reference _ | conditional _ => rfl
      · rw [join_cons_of_ne_nil first hr]

theorem join_join_literal (nodes : List Node) (text : String) (others : List Node) :
    join (join nodes [.literal text]) others = join nodes (consText text others) := by
  induction nodes with
  | nil => rfl
  | cons first rest ih =>
      by_cases hr : rest = []
      · subst hr
        cases first with
        | literal next => exact (consText_consText next text others).symm
        | alternation _ | reference _ | conditional _ => rfl
      · have hjoined : join rest [.literal text] ≠ [] := by
          obtain ⟨node, more, rfl⟩ := List.exists_cons_of_ne_nil hr
          cases more <;> cases node <;> simp [join, consText]
        rw [join_cons_of_ne_nil first hr, join_cons_of_ne_nil first hjoined, ih,
          join_cons_of_ne_nil first hr]

end Node

section

variable {stop : Nat} {rest more : List Token}

-- What all of the tokens are read as.
def readAll (stop : Nat) (tokens : List Token) : Except ParseError (List Node) :=
  (parseNodes stop .template tokens).map Parsed.value

theorem readAll_text {token : Token} (ht : Place.template.IsText token.lexeme) :
    readAll stop (token :: rest) =
      (readAll stop rest).map (Node.consText token.lexeme.text) := by
  obtain ⟨he, hh, hb⟩ := ht
  rw [readAll, parseNodes, if_neg (by simp [he]), if_neg hh, if_neg (fun h => h.2 (hb h.1)),
    readAll]
  cases parseNodes stop .template rest <;> rfl

theorem readAll_hash {node : Node} (h : Reads stop .span rest node more) (opened : Nat) :
    readAll stop (⟨.mark .hash, opened⟩ :: rest) = (readAll stop more).map (node :: ·) := by
  obtain ⟨hb, hp⟩ := h.parse opened
  simp only [parse?] at hp
  rw [readAll, parseNodes, if_neg (by simp), if_pos rfl, if_neg (by simp [Place.isBranch])]
  simp only [hp, Except.ok_bind, readAll]
  cases parseNodes stop .template more <;> rfl

theorem readAll_bracket {options : List (List Node)}
    (h : Reads stop (.items .options) rest options more) (opened : Nat) :
    readAll stop (⟨.mark .openBracket, opened⟩ :: rest) =
      (readAll stop more).map (.alternation options :: ·) := by
  obtain ⟨hb, hp⟩ := h.parse opened
  simp only [parse?] at hp
  rw [readAll, parseNodes, if_neg (by simp), if_neg (by simp), if_pos (by simp)]
  simp only [hp, Except.ok_bind, readAll]
  cases parseNodes stop .template more <;> rfl

theorem readAll_shift (bytes stop : Nat) (tokens : List Token) :
    readAll (bytes + stop) (tokens.map (Token.shift bytes)) =
      (readAll stop tokens).mapError (ParseError.shift bytes) :=
  (moved_parseNodes stop .template tokens).map_value

theorem Reads.not_isLiteral {node : Node} (h : Reads stop .span rest node more) :
    ¬node.IsLiteral := by
  cases h <;> exact id

-- A template is read up to a seam as it was read to its end, and what lies behind the seam as if it
-- stood alone. The run at the seam, if there is one, belongs to both sides.
theorem readAll_append {stop stop' : Nat} {back back' : List Token}
    {behind : Except ParseError (List Node)}
    (hback : ∀ token ∈ back, ∀ m, token.lexeme ≠ .mark m)
    (hseam : ∀ nodes, Reads stop (.nodes .template) back nodes [] →
      readAll stop' back' = behind.map (Node.join nodes))
    (front : List Token) {nodes : List Node}
    (h : Reads stop (.nodes .template) (front ++ back) nodes [])
    (hi : Phrase.Indifferent back back' (.nodes .template) nodes) :
    readAll stop' (front ++ back') = behind.map (Node.join nodes) := by
  match front with
  | [] => exact hseam nodes h
  | token :: front =>
      rw [List.cons_append] at h ⊢
      cases h with
      | @hash _ opened _ node _ nodes _ hs _ hn =>
          obtain ⟨his, hin⟩ := hi.of_cons
          obtain ⟨left, rfl, hspan⟩ := hs.relay rfl (fun token ht => hback token ht .hash) his
          have hle : left.length ≤ front.length := by simpa using hs.length_le
          have hrest := readAll_append hback hseam left hn hin
          have hjoin : Node.join (node :: nodes) = fun others => node :: Node.join nodes others :=
            funext fun others => Node.join_cons hs.not_isLiteral nodes others
          rw [readAll_hash hspan, hrest, Except.map_map, hjoin]
      | @bracket _ opened _ options _ nodes _ _ ho hn =>
          obtain ⟨hio, hin⟩ := hi.of_alternation
          obtain ⟨left, rfl, hitems⟩ :=
            ho.relay rfl (fun token ht => hback token ht .closeBracket) hio
          have hle : left.length ≤ front.length := by simpa using ho.length_le
          have hrest := readAll_append hback hseam left hn hin
          have hjoin : Node.join (.alternation options :: nodes) =
              fun others => .alternation options :: Node.join nodes others :=
            funext fun others => Node.join_cons (by exact id) nodes others
          rw [readAll_bracket hitems, hrest, Except.map_map, hjoin]
      | @text _ _ _ nodes _ ht hn =>
          have hin := hi.of_consText
          have hrest := readAll_append hback hseam front hn hin
          have hjoin : Node.join (Node.consText token.lexeme.text nodes) =
              fun others => Node.consText token.lexeme.text (Node.join nodes others) :=
            funext fun others => Node.join_consText _ nodes others
          rw [readAll_text ht, hrest, Except.map_map, hjoin]
termination_by front.length
decreasing_by all_goals (simp only [List.length_cons]; omega)

-- The tokens of two texts side by side. Those of the second text lie further on, and a run at the
-- end of the first text goes on in one at the start of the second.
inductive Seam (bytes : Nat) : List Token → List Token → List Token → Prop
  | apart {first second} : Seam bytes first second (first ++ second.map (Token.shift bytes))
  | merged {front letters offset more rest} :
      Seam bytes (front ++ [⟨.run letters, offset⟩]) (⟨.run more, 0⟩ :: rest)
        (front ++ ⟨.run (letters ++ more), offset⟩ :: rest.map (Token.shift bytes))

theorem seam_ofText {s : String} (h : Lexeme.endsInBackslash s.toList = false) (t : String) :
    Seam s.utf8ByteSize (Token.ofText s) (Token.ofText t) (Token.ofText (s ++ t)) := by
  have hsize : String.utf8Len ((Lexeme.scan s.toList).flatMap Lexeme.written) =
      s.utf8ByteSize := by
    rw [Lexeme.flatMap_written_scan, ← String.utf8ByteSize_ofList, String.ofList_toList]
  have hboth : Token.ofText (s ++ t) =
      Token.locate 0 (Lexeme.weld (Lexeme.scan s.toList) (Lexeme.scan t.toList)) := by
    rw [Token.ofText, String.toList_append, Lexeme.scan_append h]
  rcases Lexeme.weld_cases (Lexeme.scan s.toList) (Lexeme.scan t.toList) with
    hweld | ⟨front, letters, more, rest, hs, ht, hweld⟩
  · rw [hboth, hweld, Token.locate_append, hsize, Nat.add_comm, Token.locate_add]
    exact .apart
  · have hfirst : Token.ofText s = Token.locate 0 front ++
        [⟨.run letters, String.utf8Len (front.flatMap Lexeme.written)⟩] := by
      rw [Token.ofText, hs, Token.locate_append, Nat.zero_add]
      rfl
    have hsecond : Token.ofText t =
        ⟨.run more, 0⟩ :: Token.locate (Lexeme.run more).width rest := by
      rw [Token.ofText, ht, Token.locate, Nat.zero_add]
    have hbytes : String.utf8Len (front.flatMap Lexeme.written) +
        (Lexeme.run (letters ++ more)).width = s.utf8ByteSize + (Lexeme.run more).width := by
      rw [hs, List.flatMap_append, String.utf8Len_append, List.flatMap_singleton,
        ← Lexeme.width_eq] at hsize
      rw [Lexeme.width_run_append, ← Nat.add_assoc, hsize]
    rw [hboth, hweld, hfirst, hsecond, Token.locate_append, Nat.zero_add, Token.locate, hbytes,
      Token.locate_add]
    exact .merged

theorem Seam.readAll {bytes stop : Nat} {first second both : List Token} {nodes : List Node}
    (h : Seam bytes first second both) (hr : Reads stop (.nodes .template) first nodes [])
    (hi : Node.Throughout Node.NoConditional nodes ∨ hashAhead second = false) (stop' : Nat) :
    Template.readAll (bytes + stop') both =
      ((Template.readAll stop' second).mapError (ParseError.shift bytes)).map
        (Node.join nodes) := by
  cases h with
  | apart =>
      have hseam : ∀ nodes, Reads stop (.nodes .template) [] nodes [] →
          Template.readAll (bytes + stop') (second.map (Token.shift bytes)) =
            ((Template.readAll stop' second).mapError (ParseError.shift bytes)).map
              (Node.join nodes) := by
        intro nodes hn
        cases hn
        rw [readAll_shift]
        cases Template.readAll stop' second <;> rfl
      refine readAll_append (by simp) hseam first (by rwa [List.append_nil]) ?_
      rcases hi with hno | hno
      · exact .inr ⟨rfl, hno⟩
      · exact .inl ⟨rfl, by rwa [hashAhead_shift]⟩
  | @merged front letters offset more rest =>
      have hseam : ∀ nodes, Reads stop (.nodes .template) [⟨.run letters, offset⟩] nodes [] →
          Template.readAll (bytes + stop')
              (⟨.run (letters ++ more), offset⟩ :: rest.map (Token.shift bytes)) =
            ((Template.readAll stop' (⟨.run more, 0⟩ :: rest)).mapError
              (ParseError.shift bytes)).map (Node.join nodes) := by
        intro nodes hn
        cases hn with
        | text _ hn =>
            cases hn
            rw [readAll_text (Place.isText_run _ _), readAll_shift,
              readAll_text (Place.isText_run _ _), Except.mapError_map, Except.map_map]
            refine congrArg (Except.map · _) (funext fun nodes => ?_)
            rw [Lexeme.text_run_append, ← Node.consText_consText]
            rfl
      refine readAll_append (by simp) hseam front hr ?_
      rcases hi with hno | hno
      · exact .inr ⟨rfl, hno⟩
      · have hrest : hashAhead (rest.map (Token.shift bytes)) = false := by
          rw [hashAhead_shift]
          exact hno
        exact .inl ⟨rfl, hrest⟩

end

theorem parse_eq_map (text : String) :
    Template.parse text = (read text).map fun nodes => ⟨text, nodes⟩ := by
  rw [Template.parse]
  cases read text <;> rfl

-- A template in front of another text stays what it is, and so does the other text, its faults
-- included. If there is a conditional in the one, there may be no hash in the other, since a branch
-- looks for the hash that closes it as far as the text goes.
theorem parse_append {s t : String} {template : Template} (hs : Template.parse s = .ok template)
    (hend : Lexeme.endsInBackslash s.toList = false)
    (h : Node.Throughout Node.NoConditional template.nodes ∨
      .mark .hash ∉ Lexeme.scan t.toList) :
    (∀ other, Template.parse t = .ok other →
      Template.parse (s ++ t) = .ok ⟨s ++ t, Node.join template.nodes other.nodes⟩) ∧
    ∀ cause, Template.parse t = .error cause →
      Template.parse (s ++ t) = .error (cause.shift s.utf8ByteSize) := by
  rw [parse_eq_map] at hs
  obtain ⟨nodes, hreads, rfl⟩ := Except.map_eq_ok_iff.mp hs
  rw [read_eq_ok_iff] at hreads
  have hno : Node.Throughout Node.NoConditional nodes ∨ hashAhead (Token.ofText t) = false :=
    h.imp_right fun hno => hashAhead_eq_false (by rwa [Token.ofText, Token.map_lexeme_locate])
  have hread : read (s ++ t) =
      ((read t).mapError (ParseError.shift s.utf8ByteSize)).map (Node.join nodes) := by
    have hboth := (seam_ofText hend t).readAll hreads hno t.utf8ByteSize
    rw [← String.utf8ByteSize_append] at hboth
    exact hboth
  have hparse : Template.parse (s ++ t) =
      ((Template.parse t).mapError (ParseError.shift s.utf8ByteSize)).map
        fun other => ⟨s ++ t, Node.join nodes other.nodes⟩ := by
    rw [parse_eq_map, parse_eq_map, hread, Except.map_map, Except.mapError_map, Except.map_map]
  constructor
  · intro other ht
    rw [hparse, ht]
    rfl
  · intro cause ht
    rw [hparse, ht]
    rfl

-- A conditional in front of a text without hashes, and a text with a fault behind letters of more
-- than one byte.
def evening : String := "#?day=#night#?#moon#:sun# and "

def morning : String := "né [#night.low#|x]"

theorem parse_append_evening :
    (∃ template other, Template.parse evening = .ok template ∧
      Template.parse "so [on|\\#]" = .ok other ∧
      Template.parse (evening ++ "so [on|\\#]") =
        .ok ⟨evening ++ "so [on|\\#]", Node.join template.nodes other.nodes⟩) ∧
    Template.parse "#bit of#" = .error (.invalidName "bit of" 1) ∧
      Template.parse (morning ++ "#bit of#") = .error (.invalidName "bit of" 20) := by
  constructor
  · have hs : (Template.parse evening).toOption.any (fun _ => true) = true := by decide +kernel
    have ht : (Template.parse "so [on|\\#]").toOption.any (fun _ => true) = true := by
      decide +kernel
    obtain ⟨template, hs, -⟩ := Except.exists_of_any_toOption hs
    obtain ⟨other, ht, -⟩ := Except.exists_of_any_toOption ht
    obtain ⟨hboth, -⟩ := parse_append (t := "so [on|\\#]") hs (by decide) (.inr (by decide))
    exact ⟨template, other, hs, ht, hboth other ht⟩
  · have hs : (Template.parse morning).toOption.any
        (fun template => decide (Node.Throughout Node.NoConditional template.nodes)) = true := by
      decide +kernel
    have hfails : (Template.parse "#bit of#").map (fun _ => ()) =
      .error (.invalidName "bit of" 1) := by decide +kernel
    have ht := Except.map_eq_error_iff.mp hfails
    obtain ⟨template, hs, hno⟩ := Except.exists_of_any_toOption hs
    obtain ⟨-, hfault⟩ := parse_append (t := "#bit of#") hs (by decide)
      (.inl (of_decide_eq_true hno))
    exact ⟨ht, hfault _ ht⟩

end StoryGrammar.Template
