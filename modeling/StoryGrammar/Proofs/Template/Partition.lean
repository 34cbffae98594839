import Mathlib.Data.List.Chain
import Mathlib.Data.List.Forall2
import StoryGrammar.Proofs.Template.Slice

namespace StoryGrammar.Template

namespace Letter

-- The characters of a text, each with whether it is escaped. A backslash is dropped in favour of
-- the character after it, whatever that is. One with nothing after it stands for itself.
def decode : List Char → List Letter
  | [] => []
  | ['\\'] => [⟨'\\', false⟩]
  | '\\' :: c :: rest => ⟨c, true⟩ :: decode rest
  | c :: rest => ⟨c, false⟩ :: decode rest

-- The mark that a letter is, unless a backslash takes it out of its role.
def mark? (l : Letter) : Option Mark := if l.escaped then none else Mark.ofChar? l.char

theorem eq_of_mark? {l : Letter} {m : Mark} (h : l.mark? = some m) : l = ⟨m.char, false⟩ := by
  obtain ⟨c, escaped⟩ := l
  cases escaped with
  | true => simp [mark?] at h
  | false =>
      obtain rfl : m.char = c := Mark.char_of_ofChar? (by simpa [mark?] using h)
      rfl

theorem decode_cons {c : Char} (hc : c ≠ '\\') (rest : List Char) :
    decode (c :: rest) = ⟨c, false⟩ :: decode rest := by
  rw [decode]
  · exact fun he => absurd he hc
  · exact fun _ _ he => absurd he hc

theorem flatMap_written_decode (chars : List Char) : (decode chars).flatMap written = chars := by
  fun_induction decode chars with
  | case1 => rfl
  | case2 => decide
  | case3 c rest ih => simp [written, ih]
  | case4 c rest _ _ ih => simp [written, ih]

-- Letters that come out of the text in which they are written.
def Readable (letters : List Letter) : Prop := decode (letters.flatMap written) = letters

theorem readable_decode (chars : List Char) : Readable (decode chars) := by
  rw [Readable, flatMap_written_decode]

-- Only a backslash at the very end may lack one in front of it.
theorem readable_cons {l : Letter} {others : List Letter} :
    Readable (l :: others) ↔ (l = ⟨'\\', false⟩ → others = []) ∧ Readable others := by
  obtain ⟨c, escaped⟩ := l
  rw [Readable, List.flatMap_cons]
  cases escaped with
  | true => simp [written, decode, Readable]
  | false =>
      by_cases hc : c = '\\'
      · subst hc
        cases others with
        | nil => simp [written, decode, Readable]
        | cons next more =>
            obtain ⟨d, rest, hrest⟩ : ∃ d rest, (next :: more).flatMap written = d :: rest := by
              obtain ⟨d, escaped⟩ := next
              cases escaped <;> exact ⟨_, _, rfl⟩
            rw [hrest]
            simp [written, decode]
      · simp [written, decode_cons hc, hc, Readable]

theorem Readable.of_append {letters others : List Letter} (h : Readable (letters ++ others)) :
    Readable letters ∧ Readable others := by
  induction letters with
  | nil => exact ⟨rfl, h⟩
  | cons l rest ih =>
      obtain ⟨hl, h⟩ := readable_cons.mp h
      obtain ⟨hrest, hothers⟩ := ih h
      refine ⟨readable_cons.mpr ⟨fun he => ?_, hrest⟩, hothers⟩
      exact (List.append_eq_nil_iff.mp (hl he)).1

end Letter

namespace Lexeme

def letters : Lexeme → List Letter
  | .mark m => [⟨m.char, false⟩]
  | .run letters => letters

theorem flatMap_written_letters (l : Lexeme) : l.letters.flatMap Letter.written = l.written := by
  cases l <;> rfl

-- Lexemes that begin with a letter: it is a mark, or it joins the run that follows it.
def push (letter : Letter) (lexemes : List Lexeme) : List Lexeme :=
  match letter.mark? with
  | some m => .mark m :: lexemes
  | none => attach letter lexemes

theorem scan_eq_foldr (chars : List Char) : scan chars = (Letter.decode chars).foldr push [] := by
  fun_induction scan chars with
  | case1 | case2 => rfl
  | case3 c rest ih =>
      rw [ih]
      rfl
  | case4 c rest hend hescape m hm ih =>
      rw [Letter.decode_cons (ne_backslash hend hescape), ih]
      simp [push, Letter.mark?, hm]
  | case5 c rest hend hescape hm ih =>
      rw [Letter.decode_cons (ne_backslash hend hescape), ih]
      simp [push, Letter.mark?, hm]

-- What each letter keeps, the lexemes of a text have.
theorem scan_keeps {P : List Lexeme → Prop} (hnil : P [])
    (hpush : ∀ letter lexemes, P lexemes → P (push letter lexemes)) (chars : List Char) :
    P (scan chars) := by
  rw [scan_eq_foldr]
  induction Letter.decode chars with
  | nil => exact hnil
  | cons letter rest ih => exact hpush letter _ ih

theorem flatMap_letters_push (letter : Letter) (lexemes : List Lexeme) :
    (push letter lexemes).flatMap letters = letter :: lexemes.flatMap letters := by
  unfold push
  split
  · rename_i m hm
    rw [Letter.eq_of_mark? hm]
    rfl
  · unfold attach
    split <;> rfl

theorem flatMap_letters_scan (chars : List Char) :
    (scan chars).flatMap letters = Letter.decode chars := by
  rw [scan_eq_foldr]
  induction Letter.decode chars with
  | nil => rfl
  | cons letter rest ih => rw [List.foldr_cons, flatMap_letters_push, ih]

def IsRun : Lexeme → Prop
  | .mark _ => False
  | .run _ => True

-- No run goes on in another.
def Parted (lexemes : List Lexeme) : Prop := lexemes.IsChain fun l next => ¬(l.IsRun ∧ next.IsRun)

-- What the slice of a lexeme holds. For a mark this is its character and nothing else. For a run it
-- is something that decodes to the letters of the run, and none of them is a mark unless it is
-- escaped.
def Fills (slice : String) : Lexeme → Prop
  | .mark m => slice = String.singleton m.char
  | .run letters => letters ≠ [] ∧ Letter.decode slice.toList = letters ∧
      ∀ l ∈ letters, l.mark? = none

theorem parted_push {lexemes : List Lexeme} (h : Parted lexemes) (letter : Letter) :
    Parted (push letter lexemes) := by
  unfold push
  split
  · exact List.isChain_cons.mpr ⟨fun _ _ hboth => hboth.1, h⟩
  · unfold attach
    split
    · obtain ⟨hfirst, hrest⟩ := List.isChain_cons.mp h
      exact List.isChain_cons.mpr ⟨hfirst, hrest⟩
    · rename_i hhead
      refine List.isChain_cons.mpr ⟨fun next hn hboth => ?_, h⟩
      cases lexemes with
      | nil => simp at hn
      | cons first rest =>
          obtain rfl : first = next := by simpa using hn
          cases first with
          | mark m => exact hboth.2
          | run letters => exact hhead letters rest rfl

theorem parted_scan (chars : List Char) : Parted (scan chars) :=
  scan_keeps (P := Parted) .nil (fun letter _ h => parted_push h letter) chars

-- No letter of a run is a mark.
def Unmarked : Lexeme → Prop
  | .mark _ => True
  | .run letters => ∀ l ∈ letters, l.mark? = none

theorem unmarked_push {lexemes : List Lexeme} (h : ∀ l ∈ lexemes, l.Unmarked) (letter : Letter) :
    ∀ l ∈ push letter lexemes, l.Unmarked := by
  unfold push
  split
  · exact List.forall_mem_cons.mpr ⟨trivial, h⟩
  · rename_i hm
    unfold attach
    split
    · obtain ⟨hfirst, hrest⟩ := List.forall_mem_cons.mp h
      exact List.forall_mem_cons.mpr ⟨List.forall_mem_cons.mpr ⟨hm, hfirst⟩, hrest⟩
    · refine List.forall_mem_cons.mpr ⟨?_, h⟩
      simpa [Unmarked] using hm

theorem unmarked_scan (chars : List Char) : ∀ l ∈ scan chars, l.Unmarked :=
  scan_keeps (P := fun lexemes => ∀ l ∈ lexemes, l.Unmarked) (by simp)
    (fun letter _ h => unmarked_push h letter) chars

-- A lexeme of a text fills its slice, and with it the slice is read as it is in the text.
theorem fills_of_scan {chars : List Char} {l : Lexeme} (h : l ∈ scan chars) :
    l.Fills (String.ofList l.written) := by
  cases l with
  | mark m => exact String.singleton_eq_ofList.symm
  | run letters =>
      refine ⟨fun he => run_nil_notMem_scan chars (he ▸ h), ?_, unmarked_scan chars _ h⟩
      obtain ⟨front, back, hscan⟩ := List.append_of_mem h
      have hreadable := Letter.readable_decode chars
      rw [← flatMap_letters_scan, hscan, List.flatMap_append, List.flatMap_cons] at hreadable
      rw [String.toList_ofList]
      exact hreadable.of_append.2.of_append.1

-- Letters that are no marks become one run, unless a run follows them.
theorem foldr_push_run {lexemes : List Lexeme} (ha : Apart lexemes) {letters : List Letter}
    (hne : letters ≠ []) (hm : ∀ l ∈ letters, l.mark? = none) :
    letters.foldr push lexemes = .run letters :: lexemes := by
  induction letters with
  | nil => exact absurd rfl hne
  | cons l others ih =>
      obtain ⟨hl, hothers⟩ := List.forall_mem_cons.mp hm
      rw [List.foldr_cons]
      by_cases he : others = []
      · subst he
        simp [push, hl, attach_of_apart ha]
      · rw [ih he hothers]
        simp [push, hl, attach]

variable {slice : String} {l : Lexeme}

theorem Fills.decode (h : l.Fills slice) : Letter.decode slice.toList = l.letters := by
  cases l with
  | mark m =>
      obtain rfl : slice = String.singleton m.char := h
      rw [String.toList_singleton]
      cases m <;> rfl
  | run letters => exact h.2.1

theorem Fills.text_eq (h : l.Fills slice) :
    l.text = String.ofList ((Letter.decode slice.toList).map Letter.char) := by
  rw [h.decode]
  cases l <;> rfl

theorem Fills.eq_written (h : l.Fills slice) : slice = String.ofList l.written := by
  rw [← flatMap_written_letters, ← h.decode, Letter.flatMap_written_decode, String.ofList_toList]

theorem Fills.ne_empty (h : l.Fills slice) : slice ≠ "" := by
  intro he
  have hletters := h.decode
  subst he
  cases l with
  | mark m => simp [letters, Letter.decode] at hletters
  | run letters => exact h.1 hletters.symm

-- Letters that belong to lexemes which may stand side by side fall into these again.
theorem foldr_push_flatMap_letters {lexemes : List Lexeme}
    (hf : ∀ l ∈ lexemes, ∃ slice, l.Fills slice) (hp : Parted lexemes) :
    (lexemes.flatMap letters).foldr push [] = lexemes := by
  induction lexemes with
  | nil => rfl
  | cons first rest ih =>
      obtain ⟨⟨slice, hfirst⟩, hrest⟩ := List.forall_mem_cons.mp hf
      obtain ⟨hhead, htail⟩ := List.isChain_cons.mp hp
      rw [List.flatMap_cons, List.foldr_append, ih hrest htail]
      cases first with
      | mark m => simp [letters, push, Letter.mark?]
      | run letters =>
          have hapart : Apart rest := by
            rintro more others rfl
            exact hhead (.run more) rfl ⟨trivial, trivial⟩
          exact foldr_push_run hapart hfirst.1 hfirst.2.2

end Lexeme

open String (utf8Len utf8Len_append)

namespace Token

-- The parts of a text from the byte at which each token starts to the one at which the next token
-- starts, or the text ends.
def slices (text : String) : List Token → List String
  | [] => []
  | token :: rest =>
    String.Pos.Raw.extract text ⟨token.offset⟩ ⟨offsetOf text.utf8ByteSize rest⟩ :: slices text rest

-- Tokens that cut a text into its lexemes.
structure Partition (text : String) (tokens : List Token) : Prop where
  start : offsetOf text.utf8ByteSize tokens = 0
  border : ∀ token ∈ tokens, String.Pos.Raw.IsValid text ⟨token.offset⟩
  nonempty : ∀ slice ∈ slices text tokens, slice ≠ ""
  whole : String.join (slices text tokens) = text
  filled : List.Forall₂ (fun token slice => token.lexeme.Fills slice) tokens (slices text tokens)
  -- No slice ends between a backslash and its character, so that what is escaped in a slice is just
  -- what is escaped in the text.
  escapes : (slices text tokens).flatMap (fun slice => Letter.decode slice.toList) =
    Letter.decode text.toList
  -- A token's text is its slice without the backslashes that are dropped.
  texts : List.Forall₂ (fun token slice =>
    token.lexeme.text = String.ofList ((Letter.decode slice.toList).map Letter.char))
    tokens (slices text tokens)
  parted : Lexeme.Parted (tokens.map lexeme)

variable {text : String}

theorem extract_eq {front part back : List Char} (h : text.toList = front ++ part ++ back) :
    String.Pos.Raw.extract text ⟨utf8Len front⟩ ⟨utf8Len front + utf8Len part⟩ =
      String.ofList part := by
  have hpart := String.extract_of_valid front part back
  rwa [← h, String.ofList_toList] at hpart

theorem offsetOf_locate (start : Nat) (lexemes : List Lexeme) :
    offsetOf (start + utf8Len (lexemes.flatMap Lexeme.written)) (locate start lexemes) = start := by
  cases lexemes <;> rfl

-- The slices of lexemes that stand behind some part of a text are what is written there.
theorem slices_locate {front : List Char} {lexemes : List Lexeme}
    (h : text.toList = front ++ lexemes.flatMap Lexeme.written) :
    slices text (locate (utf8Len front) lexemes) =
      lexemes.map fun l => String.ofList l.written := by
  induction lexemes generalizing front with
  | nil => rfl
  | cons l rest ih =>
      rw [List.flatMap_cons, ← List.append_assoc] at h
      have hwidth : utf8Len front + l.width = utf8Len (front ++ l.written) := by
        rw [utf8Len_append, Lexeme.width_eq]
      have hnext : offsetOf text.utf8ByteSize (locate (utf8Len (front ++ l.written)) rest) =
          utf8Len front + utf8Len l.written := by
        rw [← String.utf8Len_toList, h, utf8Len_append, offsetOf_locate, utf8Len_append]
      rw [locate, slices, hwidth, hnext, extract_eq h, ih h, List.map_cons]

theorem slices_ofText (text : String) :
    slices text (ofText text) =
      (Lexeme.scan text.toList).map fun l => String.ofList l.written := by
  have hwhole : text.toList = [] ++ (Lexeme.scan text.toList).flatMap Lexeme.written := by
    rw [Lexeme.flatMap_written_scan, List.nil_append]
  exact slices_locate hwhole

theorem filled_ofText (text : String) :
    List.Forall₂ (fun token slice => token.lexeme.Fills slice) (ofText text)
      (slices text (ofText text)) := by
  have hfills : List.Forall₂ (fun l slice => l.Fills slice) (Lexeme.scan text.toList)
      ((Lexeme.scan text.toList).map fun l => String.ofList l.written) :=
    List.forall₂_map_right_iff.mpr (List.forall₂_same.mpr fun l => Lexeme.fills_of_scan)
  have hlexemes : (ofText text).map lexeme = Lexeme.scan text.toList :=
    map_lexeme_locate 0 (Lexeme.scan text.toList)
  rw [← slices_ofText, ← hlexemes] at hfills
  exact List.forall₂_map_left_iff.mp hfills

theorem partition_ofText (text : String) : Partition text (ofText text) where
  start := by
    have hwhole := Lexeme.flatMap_written_scan text.toList
    have hstart := offsetOf_locate 0 (Lexeme.scan text.toList)
    rwa [hwhole, Nat.zero_add, String.utf8Len_toList] at hstart
  border token ht := by
    obtain ⟨front, back, htokens⟩ := List.append_of_mem ht
    have hsuffix : token :: back <:+ ofText text := ⟨front, htokens.symm⟩
    exact (startsAt_of_cons_suffix hsuffix).isValid
  nonempty := by
    rw [slices_ofText]
    intro slice hs
    obtain ⟨l, hl, rfl⟩ := List.mem_map.mp hs
    exact (Lexeme.fills_of_scan hl).ne_empty
  whole := by
    rw [slices_ofText, ← String.toList_inj, String.toList_join, List.flatMap_map]
    simp only [String.toList_ofList]
    exact Lexeme.flatMap_written_scan text.toList
  filled := filled_ofText text
  escapes := by
    rw [slices_ofText, List.flatMap_map, ← Lexeme.flatMap_letters_scan]
    exact List.flatMap_congr fun l hl => (Lexeme.fills_of_scan hl).decode
  texts := (filled_ofText text).imp fun token slice h => h.text_eq
  parted := by
    rw [ofText, map_lexeme_locate]
    exact Lexeme.parted_scan text.toList

-- A slice that is not empty ends behind its own characters, not in front of where it starts.
theorem exists_part_of_extract {front more : List Char} {stop : Nat}
    (h : text.toList = front ++ more) (hv : String.Pos.Raw.IsValid text ⟨stop⟩)
    (hne : String.Pos.Raw.extract text ⟨utf8Len front⟩ ⟨stop⟩ ≠ "") :
    ∃ part, String.Pos.Raw.extract text ⟨utf8Len front⟩ ⟨stop⟩ = String.ofList part ∧
      stop = utf8Len front + utf8Len part := by
  obtain ⟨before, after, htext, hstop⟩ := String.Pos.Raw.isValid_iff_exists_append.mp hv
  obtain rfl : stop = utf8Len before.toList := by
    rw [String.utf8Len_toList]
    exact congrArg String.Pos.Raw.byteIdx hstop
  have hboth : text.toList = before.toList ++ after.toList := by rw [htext, String.toList_append]
  have hlt : utf8Len front < utf8Len before.toList := by
    by_contra hle
    apply hne
    rw [String.Pos.Raw.extract]
    exact if_pos (Nat.le_of_not_lt hle)
  have hprefix : front <+: before.toList := by
    have hfront : front <+: text.toList := ⟨more, h.symm⟩
    have hbefore : before.toList <+: text.toList := ⟨after.toList, hboth.symm⟩
    rcases List.prefix_or_prefix_of_prefix hfront hbefore with hp | hp
    · exact hp
    · have hle := String.utf8Len_le_of_prefix hp
      omega
  obtain ⟨part, hpart⟩ := hprefix
  rw [← hpart] at hboth ⊢
  rw [utf8Len_append]
  exact ⟨part, extract_eq hboth, rfl⟩

-- Where the slices are what lexemes are written as, each of these starts where the one before ends.
theorem eq_locate_of_slices {front : List Char} {tokens : List Token}
    (hstart : offsetOf text.utf8ByteSize tokens = utf8Len front)
    (htext : text.toList = front ++ (tokens.map lexeme).flatMap Lexeme.written)
    (hborder : ∀ token ∈ tokens, String.Pos.Raw.IsValid text ⟨token.offset⟩)
    (hne : ∀ slice ∈ slices text tokens, slice ≠ "")
    (hslices : slices text tokens = tokens.map fun token => String.ofList token.lexeme.written) :
    tokens = locate (utf8Len front) (tokens.map lexeme) := by
  induction tokens generalizing front with
  | nil => rfl
  | cons token rest ih =>
      obtain ⟨l, offset⟩ := token
      obtain rfl : offset = utf8Len front := hstart
      obtain ⟨-, hrest⟩ := List.forall_mem_cons.mp hborder
      obtain ⟨hfirst, hothers⟩ := List.forall_mem_cons.mp hne
      obtain ⟨hslice, hslices⟩ := List.cons.inj hslices
      have hvalid : String.Pos.Raw.IsValid text ⟨offsetOf text.utf8ByteSize rest⟩ := by
        cases rest with
        | nil => exact String.Pos.Raw.isValid_iff_exists_append.mpr ⟨text, "", by simp, rfl⟩
        | cons next more => exact hrest next (by simp)
      obtain ⟨part, hpart, hnext⟩ := exists_part_of_extract htext hvalid hfirst
      obtain rfl : part = l.written := String.ofList_injective (hpart.symm.trans hslice)
      rw [← utf8Len_append] at hnext
      rw [List.map_cons, List.flatMap_cons, ← List.append_assoc] at htext
      have htail := ih hnext htext hrest hothers hslices
      rw [List.map_cons, locate, Lexeme.width_eq, ← utf8Len_append, ← htail]

-- Only the lexemes of a text partition it.
theorem Partition.eq_ofText {tokens : List Token} (h : Partition text tokens) :
    tokens = ofText text := by
  have hslices : slices text tokens =
      tokens.map fun token => String.ofList token.lexeme.written := by
    have hwritten : List.Forall₂ (fun token slice => String.ofList token.lexeme.written = slice)
        tokens (slices text tokens) := h.filled.imp fun token slice hf => hf.eq_written.symm
    rw [← List.forall₂_map_left_iff (R := Eq), List.forall₂_eq_eq_eq] at hwritten
    exact hwritten.symm
  have hfills : ∀ token ∈ tokens, token.lexeme.Fills (String.ofList token.lexeme.written) := by
    have hfilled := h.filled
    rwa [hslices, List.forall₂_map_right_iff, List.forall₂_same] at hfilled
  have hletters : (tokens.map lexeme).flatMap Lexeme.letters = Letter.decode text.toList := by
    rw [← h.escapes, hslices, List.flatMap_map, List.flatMap_map]
    exact List.flatMap_congr fun token ht => (hfills token ht).decode.symm
  have hscan : Lexeme.scan text.toList = tokens.map lexeme := by
    rw [Lexeme.scan_eq_foldr, ← hletters]
    refine Lexeme.foldr_push_flatMap_letters (fun l hl => ?_) h.parted
    obtain ⟨token, ht, rfl⟩ := List.mem_map.mp hl
    exact ⟨_, hfills token ht⟩
  have hwhole : text.toList = [] ++ (tokens.map lexeme).flatMap Lexeme.written := by
    rw [← hscan, Lexeme.flatMap_written_scan, List.nil_append]
  rw [ofText, hscan]
  exact eq_locate_of_slices h.start hwhole h.border h.nonempty hslices

-- The lexemes of a text partition it, and nothing else does.
theorem partition_iff {tokens : List Token} : Partition text tokens ↔ tokens = ofText text := by
  constructor
  · exact Partition.eq_ofText
  · rintro rfl
    exact partition_ofText text

-- The first bracket is escaped and lies in a run, behind a character of two bytes.
example : slices "hé\\[[x\\" (ofText "hé\\[[x\\") = ["hé\\[", "[", "x\\"] := by decide +kernel

end Token
end StoryGrammar.Template
