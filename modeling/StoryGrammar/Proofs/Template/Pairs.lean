import StoryGrammar.Proofs.Template.Concat

namespace StoryGrammar.Template

-- The bytes at which the hashes of a text stand. One behind a backslash is no hash.
def hashes : Nat → List Char → List Nat
  | _, [] => []
  | offset, '\\' :: c :: rest => hashes (offset + 1 + c.utf8Size) rest
  | offset, c :: rest =>
    if c = '#' then offset :: hashes (offset + 1) rest else hashes (offset + c.utf8Size) rest

theorem hashes_cons {c : Char} (hc : c ≠ '\\') (offset : Nat) (rest : List Char) :
    hashes offset (c :: rest) =
      if c = '#' then offset :: hashes (offset + 1) rest
      else hashes (offset + c.utf8Size) rest := by
  rw [hashes]
  exact fun _ _ he => absurd he hc

theorem Lexeme.width_pos {l : Lexeme} (h : l ≠ .run []) : 0 < l.width := by
  cases l with
  | mark m => exact Char.utf8Size_pos m.char
  | run letters =>
      match letters with
      | [] => exact absurd rfl h
      | letter :: letters =>
          have hwritten : 0 < String.utf8Len letter.written := by
            unfold Letter.written
            split <;> simp [Char.utf8Size_pos]
          rw [width_eq, written, List.flatMap_cons, String.utf8Len_append]
          omega

namespace Token

-- The bytes at which hashes stand among tokens.
def hashes (tokens : List Token) : List Nat :=
  tokens.filterMap fun token => if token.lexeme = .mark .hash then some token.offset else none

variable {tokens others : List Token}

theorem hashes_append : hashes (tokens ++ others) = hashes tokens ++ hashes others :=
  List.filterMap_append

theorem hashes_hash (offset : Nat) : hashes (⟨.mark .hash, offset⟩ :: tokens) =
    offset :: hashes tokens := rfl

theorem hashes_cons {token : Token} (h : token.lexeme ≠ .mark .hash) :
    hashes (token :: tokens) = hashes tokens := by
  rw [hashes, List.filterMap_cons, if_neg h]
  rfl

theorem hashes_sublist : (hashes tokens).Sublist (tokens.map offset) := by
  induction tokens with
  | nil => exact .slnil
  | cons token tokens ih =>
      by_cases h : token.lexeme = .mark .hash
      · obtain ⟨lexeme, offset⟩ := token
        obtain rfl : lexeme = .mark .hash := h
        exact ih.cons_cons offset
      · rw [hashes_cons h]
        exact ih.cons _

theorem hashes_locate_attach (offset : Nat) (letter : Letter) (lexemes : List Lexeme) :
    hashes (locate offset (Lexeme.attach letter lexemes)) =
      hashes (locate (offset + String.utf8Len letter.written) lexemes) := by
  have hwidth (letters : List Letter) : (Lexeme.run (letter :: letters)).width =
      String.utf8Len letter.written + (Lexeme.run letters).width := by
    simp only [Lexeme.width_eq, Lexeme.written, List.flatMap_cons, String.utf8Len_append]
  unfold Lexeme.attach
  split
  · rename_i letters rest
    rw [locate, locate, hashes_cons (by simp), hashes_cons (by simp), hwidth, Nat.add_assoc]
  · rw [locate, hashes_cons (by simp), hwidth]
    rfl

-- The tokens have their hashes where the text has them.
theorem hashes_locate_scan (offset : Nat) (chars : List Char) :
    hashes (locate offset (Lexeme.scan chars)) = Template.hashes offset chars := by
  fun_induction Lexeme.scan chars generalizing offset with
  | case1 => rfl
  | case2 => rfl
  | case3 c rest ih =>
      have hbackslash : '\\'.utf8Size = 1 := by decide
      have hwritten : String.utf8Len (Letter.written ⟨c, true⟩) = 1 + c.utf8Size := by
        simp [Letter.written, Nat.add_comm, hbackslash]
      rw [hashes_locate_attach, ih, hwritten, Template.hashes, Nat.add_assoc]
  | case4 c rest hend hescape m hm ih =>
      obtain rfl := Mark.char_of_ofChar? hm
      have hc : m.char ≠ '\\' := by cases m <;> decide
      have hwidth : (Lexeme.mark m).width = m.char.utf8Size := rfl
      rw [Template.hashes_cons hc, locate, hwidth]
      by_cases h : m = .hash
      · subst h
        rw [if_pos (by decide), hashes_hash, ih]
        rfl
      · have hne : m.char ≠ '#' := by cases m <;> simp_all [Mark.char]
        rw [if_neg hne, hashes_cons (by simpa using h), ih]
  | case5 c rest hend hescape hm ih =>
      have hc : c ≠ '\\' := Lexeme.ne_backslash hend hescape
      have hne : c ≠ '#' := (Mark.ofChar?_eq_none_iff.mp hm .hash).symm
      have hwritten : String.utf8Len (Letter.written ⟨c, false⟩) = c.utf8Size := by
        simp [Letter.written]
      rw [hashes_locate_attach, ih, hwritten, Template.hashes_cons hc, if_neg hne]

-- Each token starts behind the one before it.
theorem pairwise_offset_locate (offset : Nat) {lexemes : List Lexeme} (h : .run [] ∉ lexemes) :
    ((locate offset lexemes).map Token.offset).Pairwise (· < ·) ∧
      ∀ start ∈ (locate offset lexemes).map Token.offset, offset ≤ start := by
  induction lexemes generalizing offset with
  | nil => simp [locate]
  | cons l lexemes ih =>
      obtain ⟨hl, hrest⟩ := not_or.mp fun ho => h (List.mem_cons.mpr ho)
      obtain ⟨hpairwise, hle⟩ := ih (offset + l.width) hrest
      have hwidth : 0 < l.width := Lexeme.width_pos (Ne.symm hl)
      rw [locate, List.map_cons]
      refine ⟨List.pairwise_cons.mpr ⟨fun start hs => ?_, hpairwise⟩, fun start hs => ?_⟩
      · have := hle start hs
        dsimp only
        omega
      · rcases List.mem_cons.mp hs with rfl | hs
        · exact Nat.le_refl _
        · have := hle start hs
          omega

end Token

-- The two hashes around a reference or a conditional, by the bytes at which they stand, and the
-- name behind the first one.
structure Tie where
  opened : Nat
  closed : Nat
  name : String

-- What may stand between the first hash and the name.
inductive Lead : List Token → Prop
  | none : Lead []
  | mark (comparison : Comparison) (offset : Nat) : Lead [⟨.mark comparison.mark, offset⟩]

-- All hashes among the tokens belong together in pairs, which lie inside or beside each other. They
-- are listed by their first hashes.
inductive Tied : List Token → List Tie → Prop
  | nil : Tied [] []
  | skip {token tokens ties} : token.lexeme ≠ .mark .hash → Tied tokens ties →
      Tied (token :: tokens) ties
  | tie {lead inner rest ties others} (opened closed : Nat) (letters : List Letter)
      (offset : Nat) : Lead lead → Tied inner ties → Tied rest others →
      Tied (⟨.mark .hash, opened⟩ :: (lead ++ ⟨.run letters, offset⟩ :: (inner ++
          ⟨.mark .hash, closed⟩ :: rest)))
        (⟨opened, closed, (Lexeme.run letters).text⟩ :: (ties ++ others))

-- Tokens with pairs of hashes in them, and the names behind the first hashes in order.
def Named (tokens : List Token) (names : List String) : Prop :=
  ∃ ties, Tied tokens ties ∧ ties.map Tie.name = names

-- A name in front of such tokens.
def Headed (name : String) (tokens : List Token) (names : List String) : Prop :=
  ∃ letters offset inner, tokens = ⟨.run letters, offset⟩ :: inner ∧
    (Lexeme.run letters).text = name ∧ Named inner names

section

variable {tokens others : List Token} {names more : List String} {name : String}

theorem Tied.append {ties behind : List Tie} (h : Tied tokens ties) (ho : Tied others behind) :
    Tied (tokens ++ others) (ties ++ behind) := by
  induction h with
  | nil => exact ho
  | skip hl _ ih => exact .skip hl ih
  | tie opened closed letters offset hl hi _ _ ih =>
      simpa using Tied.tie opened closed letters offset hl hi ih

theorem named_nil : Named [] [] := ⟨[], .nil, rfl⟩

theorem Named.skip (h : Named tokens names) {token : Token} (hl : token.lexeme ≠ .mark .hash) :
    Named (token :: tokens) names := by
  obtain ⟨ties, ht, hn⟩ := h
  exact ⟨ties, .skip hl ht, hn⟩

theorem Named.mark (h : Named tokens names) {m : Mark} (hm : m ≠ .hash) (offset : Nat) :
    Named (⟨.mark m, offset⟩ :: tokens) names :=
  h.skip (by simpa using hm)

theorem Named.append (h : Named tokens names) (ho : Named others more) :
    Named (tokens ++ others) (names ++ more) := by
  obtain ⟨ties, ht, rfl⟩ := h
  obtain ⟨behind, hb, rfl⟩ := ho
  exact ⟨ties ++ behind, ht.append hb, List.map_append⟩

theorem Headed.append (h : Headed name tokens names) (ho : Named others more) :
    Headed name (tokens ++ others) (names ++ more) := by
  obtain ⟨letters, offset, inner, rfl, hname, hi⟩ := h
  exact ⟨letters, offset, inner ++ others, rfl, hname, hi.append ho⟩

theorem Named.tie {lead front : List Token} (hl : Lead lead) (h : Headed name front names)
    (ho : Named others more) (opened closed : Nat) :
    Named (⟨.mark .hash, opened⟩ :: (lead ++ front ++ [⟨.mark .hash, closed⟩]) ++ others)
      (name :: names ++ more) := by
  obtain ⟨letters, offset, inner, rfl, rfl, ties, ht, rfl⟩ := h
  obtain ⟨behind, hb, rfl⟩ := ho
  exact ⟨_, by simpa using Tied.tie opened closed letters offset hl ht hb, by simp⟩

end

-- The names of the references in order.
def namesOf (targets : List Reference) : List String := targets.map Reference.name

-- How the hashes of a phrase belong together. The first one of a span lies in front of it.
def Phrase.Paired : (phrase : Phrase) → phrase.Value → List Token → Prop
  | .nodes _, value, tokens => Named tokens (namesOf (Node.references value))
  | .items _, value, tokens => Named tokens (namesOf (Node.referencesOfEach value))
  | .arguments, value, tokens => Named tokens (namesOf (Node.referencesOfEach value))
  | .calls, value, tokens => Named tokens (namesOf (Call.references value))
  | .reference, value, tokens => Headed value.name tokens (namesOf (Call.references value.calls))
  | .span, value, tokens => ∃ lead front closed name names, Lead lead ∧
      tokens = lead ++ front ++ [⟨.mark .hash, closed⟩] ∧ Headed name front names ∧
      namesOf (Node.references [value]) = name :: names
  | .branching _, value, tokens => ∃ front closed names, tokens = front ++ [⟨.mark .hash, closed⟩] ∧
      Headed value.subject.name front names ∧
      namesOf (Node.references [.conditional value]) = value.subject.name :: names
  | .otherwise, value, tokens => Named tokens (namesOf (Node.references value))

theorem references_consText (text : String) (nodes : List Node) :
    Node.references (Node.consText text nodes) = Node.references nodes := by
  unfold Node.consText
  split <;> simp [Node.references]

theorem references_cons (node : Node) (rest : List Node) :
    Node.references (node :: rest) = Node.references [node] ++ Node.references rest := by
  cases node with
  | literal text => simp [Node.references]
  | alternation options | reference target => simp [Node.references]
  | conditional branching =>
      obtain ⟨comparison, subject, test, whenTrue, whenFalse⟩ := branching
      simp [Node.references]

theorem Reference.references_eq (target : Reference) :
    target.references = target :: Call.references target.calls := by
  cases target
  rfl

theorem Place.IsText.ne_hash {place : Place} {l : Lexeme} (h : place.IsText l) :
    l ≠ .mark .hash := h.2.1

-- The hashes among the tokens that are gone belong together in the order of the references.
theorem Reads.paired {stop : Nat} {phrase : Phrase} {tokens rest : List Token}
    {value : phrase.Value} (h : Reads stop phrase tokens value rest) :
    ∃ consumed, tokens = consumed ++ rest ∧ phrase.Paired value consumed := by
  induction h with
  | finish | stop _ | close _ _ | noCalls _ | noArguments _ | noOtherwise _ =>
      exact ⟨[], rfl, named_nil⟩
  | @hash _ opened _ node _ nodes _ _ _ _ ihs ihn =>
      obtain ⟨span, rfl, lead, front, closed, name, names, hl, rfl, hf, hnode⟩ := ihs
      obtain ⟨others, rfl, hothers⟩ := ihn
      refine ⟨⟨.mark .hash, opened⟩ :: (lead ++ front ++ [⟨.mark .hash, closed⟩]) ++ others,
        by simp, ?_⟩
      have hnames : namesOf (Node.references (node :: nodes)) =
          name :: names ++ namesOf (Node.references nodes) := by
        rw [references_cons, namesOf, List.map_append, ← namesOf, hnode]
        rfl
      rw [Phrase.Paired, hnames]
      exact Named.tie hl hf hothers opened closed
  | @bracket _ opened _ options _ nodes _ _ _ _ iho ihn =>
      obtain ⟨inner, rfl, hinner⟩ := iho
      obtain ⟨others, rfl, hothers⟩ := ihn
      refine ⟨⟨.mark .openBracket, opened⟩ :: inner ++ others, by simp, ?_⟩
      rw [Phrase.Paired, Node.references, namesOf, List.map_append]
      exact (hinner.mark (by decide) opened).append hothers
  | @text place token _ _ _ ht _ ihn =>
      obtain ⟨others, rfl, hothers⟩ := ihn
      refine ⟨token :: others, rfl, ?_⟩
      rw [Phrase.Paired, references_consText]
      exact hothers.skip ht.ne_hash
  | @lastItem enclosure _ _ offset _ _ ihn =>
      obtain ⟨item, rfl, hitem⟩ := ihn
      refine ⟨item ++ [⟨.mark enclosure.closer, offset⟩], by simp, ?_⟩
      rw [Phrase.Paired, Node.referencesOfEach, namesOf, List.map_append]
      exact hitem.append (named_nil.mark (by cases enclosure <;> decide) offset)
  | @item enclosure _ _ offset _ items _ _ hi ihn ihi =>
      obtain ⟨item, rfl, hitem⟩ := ihn
      obtain ⟨others, rfl, hothers⟩ := ihi
      refine ⟨item ++ ⟨.mark enclosure.separator, offset⟩ :: others, by simp, ?_⟩
      rw [Phrase.Paired, Node.referencesOfEach, namesOf, List.map_append]
      exact hitem.append (hothers.mark (by cases enclosure <;> decide) offset)
  | @emptyArguments opened closed _ =>
      refine ⟨[⟨.mark .openParen, opened⟩, ⟨.mark .closeParen, closed⟩], rfl, ?_⟩
      exact (named_nil.mark (by decide) closed).mark (by decide) opened
  | @arguments opened _ _ _ _ _ ihi =>
      obtain ⟨inner, rfl, hinner⟩ := ihi
      exact ⟨⟨.mark .openParen, opened⟩ :: inner, rfl, Named.mark hinner (by decide) opened⟩
  | @call dot letters offset _ _ _ _ _ _ _ _ iha ihc =>
      obtain ⟨inner, rfl, hinner⟩ := iha
      obtain ⟨others, rfl, hothers⟩ := ihc
      refine ⟨⟨.mark .dot, dot⟩ :: ⟨.run letters, offset⟩ :: (inner ++ others), by simp, ?_⟩
      rw [Phrase.Paired, Call.references, namesOf, List.map_append]
      exact ((Named.append hinner hothers).skip (by simp)).mark (by decide) dot
  | @reference letters offset _ _ _ _ _ ihc =>
      obtain ⟨others, rfl, hothers⟩ := ihc
      exact ⟨⟨.run letters, offset⟩ :: others, rfl, letters, offset, others, rfl, rfl, hothers⟩
  | @referenceSpan _ target closed _ _ ihr =>
      obtain ⟨inner, rfl, hinner⟩ := ihr
      refine ⟨inner ++ [⟨.mark .hash, closed⟩], by simp, ?_⟩
      refine ⟨[], inner, closed, target.name, _, .none, rfl, hinner, ?_⟩
      simp [Node.references, Reference.references_eq, namesOf]
  | @conditionalSpan comparison offset _ branching _ _ ihr =>
      obtain ⟨inner, rfl, front, closed, names, rfl, hf, hnames⟩ := ihr
      exact ⟨⟨.mark comparison.mark, offset⟩ :: (front ++ [⟨.mark .hash, closed⟩]), rfl,
        [⟨.mark comparison.mark, offset⟩], front, closed, _, names, .mark comparison offset, rfl,
        hf, hnames⟩
  | @branching comparison _ target equals _ test question _ whenTrue _ whenFalse closed _ _ _ _ _
      ihs iht ihtrue ihfalse =>
      obtain ⟨subject, rfl, hsubject⟩ := ihs
      obtain ⟨inTest, rfl, htest⟩ := iht
      obtain ⟨inTrue, rfl, hwhenTrue⟩ := ihtrue
      obtain ⟨inFalse, rfl, hwhenFalse⟩ := ihfalse
      refine ⟨subject ++ ⟨.mark .equals, equals⟩ :: (inTest ++ ⟨.mark .question, question⟩ ::
        (inTrue ++ inFalse)) ++ [⟨.mark .hash, closed⟩], by simp, ?_⟩
      have hbranches : Named (⟨.mark .question, question⟩ :: (inTrue ++ inFalse)) _ :=
        (Named.append hwhenTrue hwhenFalse).mark (by decide) question
      have hcompared : Named (⟨.mark .equals, equals⟩ :: (inTest ++ _)) _ :=
        (Named.append htest hbranches).mark (by decide) equals
      refine ⟨_, closed, _, rfl, Headed.append hsubject hcompared, ?_⟩
      simp [Node.references, Reference.references_eq, namesOf]
  | @otherwise colon _ _ _ _ ihn =>
      obtain ⟨inner, rfl, hinner⟩ := ihn
      exact ⟨⟨.mark .colon, colon⟩ :: inner, rfl, Named.mark hinner (by decide) colon⟩

-- The name that stands behind a hash.
def headName : List Token → Option String
  | ⟨.run letters, _⟩ :: _ => some (Lexeme.run letters).text
  | ⟨.mark .question, _⟩ :: ⟨.run letters, _⟩ :: _ => some (Lexeme.run letters).text
  | ⟨.mark .bang, _⟩ :: ⟨.run letters, _⟩ :: _ => some (Lexeme.run letters).text
  | _ => none

-- The name behind the token that starts at a byte.
def nameBehind (start : Nat) : List Token → Option String
  | [] => none
  | token :: rest => if token.offset = start then headName rest else nameBehind start rest

section

variable {tokens : List Token} {ties : List Tie}

theorem headName_append {name : String} (h : headName tokens = some name) (more : List Token) :
    headName (tokens ++ more) = some name := by
  unfold headName at h
  split at h <;> first | exact h | cases h

theorem nameBehind_append {front : List Token} {start : Nat}
    (h : ∀ token ∈ front, token.offset ≠ start) (l : Lexeme) (rest : List Token) :
    nameBehind start (front ++ ⟨l, start⟩ :: rest) = headName rest := by
  induction front with
  | nil => exact if_pos rfl
  | cons token front ih =>
      obtain ⟨htoken, hfront⟩ := List.forall_mem_cons.mp h
      rw [List.cons_append, nameBehind, if_neg htoken, ih hfront]

theorem Lead.headName {lead : List Token} (h : Lead lead) (letters : List Letter) (offset : Nat)
    (rest : List Token) :
    headName (lead ++ ⟨.run letters, offset⟩ :: rest) = some (Lexeme.run letters).text := by
  cases h with
  | none => rfl
  | mark comparison _ => cases comparison <;> rfl

theorem Lead.hashes_append {lead : List Token} (h : Lead lead) (others : List Token) :
    Token.hashes (lead ++ others) = Token.hashes others := by
  cases h with
  | none => rfl
  | mark comparison _ => cases comparison <;> rfl

theorem hashes_tie {lead : List Token} (h : Lead lead) (opened closed : Nat)
    (letters : List Letter) (offset : Nat) (inner rest : List Token) :
    Token.hashes (⟨.mark .hash, opened⟩ :: (lead ++ ⟨.run letters, offset⟩ :: (inner ++
      ⟨.mark .hash, closed⟩ :: rest))) =
      opened :: (Token.hashes inner ++ closed :: Token.hashes rest) := by
  rw [Token.hashes_hash, h.hashes_append, Token.hashes_cons (by simp), Token.hashes_append,
    Token.hashes_hash]

theorem length_flatMap_ends (ties : List Tie) :
    (ties.flatMap fun tie => [tie.opened, tie.closed]).length = 2 * ties.length := by
  induction ties with
  | nil => rfl
  | cons tie ties ih =>
      rw [List.flatMap_cons, List.length_append, ih, List.length_cons, List.length_cons,
        List.length_cons, List.length_nil]
      omega

-- Each hash is the first or the second one of one pair.
theorem Tied.perm (h : Tied tokens ties) :
    (ties.flatMap fun tie => [tie.opened, tie.closed]).Perm (Token.hashes tokens) := by
  induction h with
  | nil => exact .nil
  | skip hl _ ih => rwa [Token.hashes_cons hl]
  | tie opened closed letters offset hl _ _ ihi ihr =>
      rw [hashes_tie hl, List.flatMap_cons, List.flatMap_append]
      refine .cons opened ?_
      exact ((ihi.append ihr).cons closed).trans List.perm_middle.symm

theorem Tied.mem_hashes (h : Tied tokens ties) {tie : Tie} (ht : tie ∈ ties) :
    tie.opened ∈ Token.hashes tokens ∧ tie.closed ∈ Token.hashes tokens := by
  have hmem (offset : Nat) (ho : offset ∈ [tie.opened, tie.closed]) :
      offset ∈ Token.hashes tokens :=
    h.perm.mem_iff.mp (List.mem_flatMap.mpr ⟨tie, ht, ho⟩)
  exact ⟨hmem _ (by simp), hmem _ (by simp)⟩

-- Pairs lie inside or beside each other, in the order of their first hashes.
def Tie.Before (tie other : Tie) : Prop :=
  tie.opened < other.opened ∧ (other.closed < tie.closed ∨ tie.closed < other.opened)

theorem Tied.ordered (h : Tied tokens ties) (hp : (Token.hashes tokens).Pairwise (· < ·)) :
    (∀ tie ∈ ties, tie.opened < tie.closed) ∧ ties.Pairwise Tie.Before := by
  induction h with
  | nil => simp
  | skip hl _ ih =>
      rw [Token.hashes_cons hl] at hp
      exact ih hp
  | @tie lead inner rest ties others opened closed letters offset hl hi hr ihi ihr =>
      rw [hashes_tie hl, List.pairwise_cons, List.pairwise_append, List.pairwise_cons] at hp
      obtain ⟨hopened, hinner, ⟨hclosed, hrest⟩, hsplit⟩ := hp
      obtain ⟨hinside, hpairs⟩ := ihi hinner
      obtain ⟨hbeside, hothers⟩ := ihr hrest
      have hfirst : opened < closed := hopened closed (by simp)
      have hwithin : ∀ tie ∈ ties, opened < tie.opened ∧ tie.closed < closed := by
        intro tie ht
        obtain ⟨ho, hc⟩ := hi.mem_hashes ht
        exact ⟨hopened _ (by simp [ho]), hsplit _ hc closed (by simp)⟩
      have hbehind : ∀ tie ∈ others, closed < tie.opened := fun tie ht =>
        hclosed _ (hr.mem_hashes ht).1
      constructor
      · intro tie ht
        rcases List.mem_cons.mp ht with rfl | ht
        · exact hfirst
        · rcases List.mem_append.mp ht with ht | ht
          · exact hinside tie ht
          · exact hbeside tie ht
      · refine List.pairwise_cons.mpr ⟨fun tie ht => ?_, List.pairwise_append.mpr
          ⟨hpairs, hothers, fun tie ht other ho => ?_⟩⟩
        · rcases List.mem_append.mp ht with ht | ht
          · exact ⟨(hwithin tie ht).1, .inl (hwithin tie ht).2⟩
          · exact ⟨hfirst.trans (hbehind tie ht), .inr (hbehind tie ht)⟩
        · have hapart : tie.closed < other.opened :=
            (hwithin tie ht).2.trans (hbehind other ho)
          exact ⟨(hinside tie ht).trans hapart, .inr hapart⟩

-- The first hash of a pair is followed by its name.
theorem Tied.exists_name (h : Tied tokens ties) {tie : Tie} (ht : tie ∈ ties) :
    ∃ front rest, tokens = front ++ ⟨.mark .hash, tie.opened⟩ :: rest ∧
      headName rest = some tie.name := by
  induction h with
  | nil => simp at ht
  | @skip token _ _ _ _ ih =>
      obtain ⟨front, rest, rfl, hname⟩ := ih ht
      exact ⟨token :: front, rest, rfl, hname⟩
  | @tie lead inner rest ties others opened closed letters offset hl _ _ ihi ihr =>
      rcases List.mem_cons.mp ht with rfl | ht
      · exact ⟨[], _, rfl, hl.headName letters offset _⟩
      · rcases List.mem_append.mp ht with ht | ht
        · obtain ⟨front, behind, rfl, hname⟩ := ihi ht
          exact ⟨⟨.mark .hash, opened⟩ :: (lead ++ ⟨.run letters, offset⟩ :: front),
            behind ++ ⟨.mark .hash, closed⟩ :: rest, by simp, headName_append hname _⟩
        · obtain ⟨front, behind, rfl, hname⟩ := ihr ht
          exact ⟨⟨.mark .hash, opened⟩ :: (lead ++ ⟨.run letters, offset⟩ :: (inner ++
            ⟨.mark .hash, closed⟩ :: front)), behind, by simp, hname⟩

end

theorem hashes_ofText (text : String) :
    Token.hashes (Token.ofText text) = hashes 0 text.toList :=
  Token.hashes_locate_scan 0 text.toList

theorem pairwise_offset_ofText (text : String) :
    ((Token.ofText text).map Token.offset).Pairwise (· < ·) :=
  (Token.pairwise_offset_locate 0 (Lexeme.run_nil_notMem_scan text.toList)).1

theorem Tied.nameBehind {text : String} {ties : List Tie} (h : Tied (Token.ofText text) ties)
    {tie : Tie} (ht : tie ∈ ties) :
    Template.nameBehind tie.opened (Token.ofText text) = some tie.name := by
  obtain ⟨front, rest, htokens, hname⟩ := h.exists_name ht
  have hpairwise := pairwise_offset_ofText text
  rw [htokens, List.map_append, List.pairwise_append] at hpairwise
  have hfront : ∀ token ∈ front, token.offset ≠ tie.opened := by
    intro token hm
    exact Nat.ne_of_lt (hpairwise.2.2 _ (List.mem_map_of_mem hm) tie.opened (by simp))
  rw [htokens, nameBehind_append hfront, hname]

-- The hashes of a template belong together in pairs, one pair for each reference. In the order of
-- their first hashes, which is that of the references, each pair is followed by the name that the
-- reference has.
theorem references_paired {text : String} {template : Template}
    (h : Template.parse text = .ok template) :
    (hashes 0 text.toList).length = 2 * template.references.length ∧
    ∃ pairs : List (Nat × Nat),
      (pairs.flatMap fun pair => [pair.1, pair.2]).Perm (hashes 0 text.toList) ∧
      (∀ pair ∈ pairs, pair.1 < pair.2) ∧
      pairs.Pairwise (fun pair other =>
        pair.1 < other.1 ∧ (other.2 < pair.2 ∨ pair.2 < other.1)) ∧
      pairs.map (fun pair => nameBehind pair.1 (Token.ofText text)) =
        template.references.map fun target => some target.name := by
  rw [parse_eq_map] at h
  obtain ⟨nodes, hread, rfl⟩ := Except.map_eq_ok_iff.mp h
  obtain ⟨consumed, htokens, ties, ht, hnames⟩ := (read_eq_ok_iff.mp hread).paired
  rw [List.append_nil] at htokens
  subst htokens
  have hlength : ties.length = (Template.references ⟨text, nodes⟩).length := by
    have hl := congrArg List.length hnames
    simpa [namesOf, Template.references] using hl
  have hperm := ht.perm
  rw [hashes_ofText] at hperm
  have hpairwise := (pairwise_offset_ofText text).sublist Token.hashes_sublist
  obtain ⟨hinside, hordered⟩ := ht.ordered hpairwise
  constructor
  · rw [← hperm.length_eq, length_flatMap_ends, hlength]
  · refine ⟨ties.map fun tie => (tie.opened, tie.closed), ?_, ?_, ?_, ?_⟩
    · rwa [List.flatMap_map]
    · simpa using hinside
    · exact List.pairwise_map.mpr hordered
    · have hbehind : ties.map (fun tie => nameBehind tie.opened (Token.ofText text)) =
          ties.map fun tie => some tie.name := List.map_congr_left fun tie hm => ht.nameBehind hm
      have hsome := congrArg (List.map some) hnames
      rw [namesOf, List.map_map, List.map_map] at hsome
      rw [List.map_map]
      exact hbehind.trans hsome

theorem references_paired_weather : ∃ (template : Template) (pairs : List (Nat × Nat)),
    Template.parse weather = .ok template ∧
    hashes 0 weather.toList = [0, 18, 24, 27, 49, 53, 57, 58] ∧
    pairs.length = 4 ∧
    (pairs.flatMap fun pair => [pair.1, pair.2]).Perm (hashes 0 weather.toList) ∧
    pairs.map (fun pair => nameBehind pair.1 (Token.ofText weather)) =
      [some "sky", some "cloud", some "rain", some "sun"] := by
  have hparse : (Template.parse weather).toOption.any (fun template => decide
      (template.references.map Reference.name = ["sky", "cloud", "rain", "sun"])) = true := by
    decide +kernel
  have hhashes : hashes 0 weather.toList = [0, 18, 24, 27, 49, 53, 57, 58] := by decide +kernel
  obtain ⟨template, h, hnames⟩ := Except.exists_of_any_toOption hparse
  obtain ⟨-, pairs, hperm, -, -, hbehind⟩ := references_paired h
  have hfour := congrArg (List.map some) (of_decide_eq_true hnames)
  rw [List.map_map] at hfour
  have hall := hbehind.trans hfour
  exact ⟨template, pairs, h, hhashes, by simpa using congrArg List.length hall, hperm, hall⟩

end StoryGrammar.Template
