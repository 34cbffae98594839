import StoryGrammar.Proofs.Template.Concat

namespace StoryGrammar.Template

namespace Lexeme

-- A list that begins with a letter attached to something, cut behind its first lexeme or later.
theorem exists_of_attach_eq_append {letter : Letter} {lexemes front back : List Lexeme}
    {first l : Lexeme} (h : attach letter lexemes = first :: front ++ l :: back) :
    ∃ others, lexemes = others ++ l :: back ∧
      (first :: front).flatMap written = letter.written ++ others.flatMap written := by
  unfold attach at h
  split at h
  · rename_i letters rest
    obtain ⟨rfl, rfl⟩ := List.cons.inj h
    exact ⟨.run letters :: front, rfl, by simp [written]⟩
  · obtain ⟨rfl, rfl⟩ := List.cons.inj h
    exact ⟨front, rfl, by simp [written]⟩

-- No backslash is left open in front of a lexeme.
theorem endsInBackslash_of_scan {chars : List Char} {front back : List Lexeme} {l : Lexeme}
    (h : scan chars = front ++ l :: back) : endsInBackslash (front.flatMap written) = false := by
  fun_induction scan chars generalizing front with
  | case1 => simp at h
  | case2 =>
      cases front with
      | nil => rfl
      | cons first front => simp at h
  | case3 c rest ih =>
      cases front with
      | nil => rfl
      | cons first front =>
          obtain ⟨others, hrest, hwritten⟩ := exists_of_attach_eq_append h
          rw [hwritten]
          exact ih hrest
  | case4 c rest hend hescape m hm ih =>
      cases front with
      | nil => rfl
      | cons first front =>
          obtain ⟨rfl, hrest⟩ := List.cons.inj h
          have hm : m.char ≠ '\\' := by cases m <;> decide
          rw [List.flatMap_cons, written, List.singleton_append, endsInBackslash_cons hm]
          exact ih hrest
  | case5 c rest hend hescape _ ih =>
      cases front with
      | nil => rfl
      | cons first front =>
          obtain ⟨others, hrest, hwritten⟩ := exists_of_attach_eq_append h
          have hplain : Letter.written ⟨c, false⟩ = [c] := rfl
          rw [hwritten, hplain, List.singleton_append,
            endsInBackslash_cons (ne_backslash hend hescape)]
          exact ih hrest

end Lexeme

-- Part of a text that starts at a byte, where no backslash takes the first character of the part out
-- of its role.
def StartsAt (text : String) (part : List Char) (offset : Nat) : Prop :=
  ∃ front back, text.toList = front ++ part ++ back ∧ String.utf8Len front = offset ∧
    Lexeme.endsInBackslash front = false

section

variable {text : String} {part more : List Char} {offset : Nat}

theorem StartsAt.of_append (h : StartsAt text (part ++ more) offset) : StartsAt text part offset := by
  obtain ⟨front, back, htext, hoffset, hfront⟩ := h
  exact ⟨front, more ++ back, by simpa using htext, hoffset, hfront⟩

-- Where a part starts is a border between two characters of the text.
theorem StartsAt.isValid (h : StartsAt text part offset) :
    String.Pos.Raw.IsValid text ⟨offset⟩ := by
  obtain ⟨front, back, htext, rfl, -⟩ := h
  refine String.Pos.Raw.isValid_iff_exists_append.mpr
    ⟨String.ofList front, String.ofList (part ++ back), ?_, ?_⟩
  · rw [← String.ofList_append, ← List.append_assoc, ← htext, String.ofList_toList]
  · exact congrArg String.Pos.Raw.mk (String.utf8ByteSize_ofList front).symm

namespace Token

theorem of_locate_eq_append {start : Nat} {lexemes : List Lexeme} {front back : List Token}
    {token : Token} (h : locate start lexemes = front ++ token :: back) :
    lexemes = front.map lexeme ++ token.lexeme :: back.map lexeme ∧
      token.offset = start + String.utf8Len ((front.map lexeme).flatMap Lexeme.written) := by
  have hlexemes : lexemes = front.map lexeme ++ token.lexeme :: back.map lexeme := by
    have hmap := congrArg (List.map lexeme) h
    simpa using hmap
  refine ⟨hlexemes, ?_⟩
  rw [hlexemes, locate_append] at h
  have hlength : (locate start (front.map lexeme)).length = front.length := by
    rw [← List.length_map lexeme, map_lexeme_locate, List.length_map]
  obtain ⟨-, hback⟩ := List.append_inj h hlength
  obtain ⟨htoken, -⟩ := List.cons.inj hback
  exact (congrArg Token.offset htoken).symm

end Token

-- Tokens in a row stand in the text where the first of them says.
theorem startsAt_of_suffix {token : Token} {others rest : List Token}
    (h : token :: others ++ rest <:+ Token.ofText text) :
    StartsAt text ((token :: others).flatMap fun token => token.lexeme.written) token.offset := by
  obtain ⟨front, h⟩ := h
  obtain ⟨hscan, hoffset⟩ := Token.of_locate_eq_append h.symm
  refine ⟨(front.map Token.lexeme).flatMap Lexeme.written,
    (rest.map Token.lexeme).flatMap Lexeme.written, ?_, ?_, Lexeme.endsInBackslash_of_scan hscan⟩
  · have hwritten := Lexeme.flatMap_written_scan text.toList
    rw [hscan] at hwritten
    rw [← hwritten]
    simp [List.flatMap_map]
  · rw [hoffset, Nat.zero_add]

theorem startsAt_of_cons_suffix {token : Token} {rest : List Token}
    (h : token :: rest <:+ Token.ofText text) :
    StartsAt text token.lexeme.written token.offset := by
  have hrow : token :: [] ++ rest <:+ Token.ofText text := h
  simpa using startsAt_of_suffix hrow

end

end StoryGrammar.Template
