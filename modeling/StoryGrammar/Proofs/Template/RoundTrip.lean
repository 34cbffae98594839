import StoryGrammar.Proofs.Template.Print

namespace StoryGrammar.Template

open Node

-- A sequence that is canonical by itself and has no conditional in it.
def Plain (sequence : List Node) : Prop := TidySequence sequence ∧ NoConditional sequence

section

variable {stop : Nat}

theorem exists_cons_of_map_lexeme {front : List Token} {l : Lexeme} {lexemes : List Lexeme}
    (h : front.map Token.lexeme = l :: lexemes) :
    ∃ offset others, front = ⟨l, offset⟩ :: others ∧ others.map Token.lexeme = lexemes := by
  obtain ⟨⟨lexeme, offset⟩, others, rfl, rfl, ho⟩ := List.map_eq_cons_iff.mp h
  exact ⟨offset, others, rfl, ho⟩

theorem hashAhead_append (tokens others : List Token) :
    hashAhead (tokens ++ others) = (hashAhead tokens || hashAhead others) :=
  List.any_append

theorem hashAhead_hash (offset : Nat) (tokens : List Token) :
    hashAhead (⟨.mark .hash, offset⟩ :: tokens) = true := by
  simp [hashAhead]

-- A span is closed by a hash.
theorem Reads.hashAhead {tokens rest : List Token} {node : Node}
    (h : Reads stop .span tokens node rest) : hashAhead tokens = true := by
  cases h with
  | referenceSpan hr =>
      obtain ⟨consumed, rfl, -⟩ := hr.spelled
      simp [hashAhead_append, hashAhead_hash]
  | conditionalSpan hr =>
      cases hr with
      | branching hs ht htrue hfalse =>
          obtain ⟨subject, rfl, -⟩ := hs.spelled
          obtain ⟨test, rfl, -⟩ := ht.spelled
          obtain ⟨whenTrue, rfl, -⟩ := htrue.spelled
          obtain ⟨whenFalse, rfl, -⟩ := hfalse.spelled
          simp [Template.hashAhead]

theorem consText_of_separate {text : String} {nodes : List Node}
    (h : ∀ next ∈ nodes.head?, Separate (.literal text) next) :
    consText text nodes = .literal text :: nodes := by
  unfold consText
  split
  · exact absurd ⟨trivial, trivial⟩ (h _ rfl)
  · rfl

theorem text_quote (text : String) : (Lexeme.run (text.toList.map .quote)).text = text := by
  simp [Lexeme.text, Lexeme.content, Letter.quote, Function.comp_def]

theorem content_plain (name : String) :
    (name.toList.map Letter.plain).map Letter.char = name.toList := by
  simp [Letter.plain, Function.comp_def]

theorem Place.isText_run (place : Place) (letters : List Letter) : place.IsText (.run letters) := by
  refine ⟨?_, by simp, by simp⟩
  cases place <;> simp [Place.endsAt, Place.terminators]

theorem reads_literal {place : Place} {text : String} {rest after : List Token} {nodes : List Node}
    (hs : ∀ next ∈ nodes.head?, Separate (.literal text) next)
    (h : Reads stop (.nodes place) rest nodes after) (offset : Nat) :
    Reads stop (.nodes place) (⟨.run (text.toList.map .quote), offset⟩ :: rest)
      (.literal text :: nodes) after := by
  have hread : Reads stop (.nodes place) (⟨.run (text.toList.map .quote), offset⟩ :: rest)
      (consText (Lexeme.run (text.toList.map .quote)).text nodes) after :=
    .text (Place.isText_run place _) h
  rwa [text_quote, consText_of_separate hs] at hread

theorem reads_name {name : String} {calls : List Call} {tokens rest : List Token}
    (hn : isName name.toList = true) (h : Reads stop .calls tokens calls rest) (offset : Nat) :
    Reads stop .reference (⟨.run (name.toList.map .plain), offset⟩ :: tokens)
      ⟨name, calls⟩ rest := by
  have hread : Reads stop .reference (⟨.run (name.toList.map .plain), offset⟩ :: tokens)
      ⟨String.ofList ((name.toList.map .plain).map Letter.char), calls⟩ rest :=
    .reference (by rwa [content_plain]) h
  rwa [content_plain, String.ofList_toList] at hread

theorem reads_call {name : String} {arguments : List (List Node)} {calls : List Call}
    {tokens more rest : List Token} (hn : isName name.toList = true)
    (ha : Reads stop .arguments tokens arguments more) (h : Reads stop .calls more calls rest)
    (dot offset : Nat) :
    Reads stop .calls (⟨.mark .dot, dot⟩ :: ⟨.run (name.toList.map .plain), offset⟩ :: tokens)
      (⟨name, arguments⟩ :: calls) rest := by
  have hread : Reads stop .calls
      (⟨.mark .dot, dot⟩ :: ⟨.run (name.toList.map .plain), offset⟩ :: tokens)
      (⟨String.ofList ((name.toList.map .plain).map Letter.char), arguments⟩ :: calls) rest :=
    .call (by rwa [content_plain]) ha h
  rwa [content_plain, String.ofList_toList] at hread

theorem Node.exists_lexemes_cons (node : Node) (rest : List Node) :
    ∃ l lexemes, Node.lexemes (node :: rest) = l :: lexemes ∧ l ≠ .mark .closeParen := by
  cases node with
  | literal text => exact ⟨_, _, rfl, by simp⟩
  | alternation options | reference target => exact ⟨_, _, rfl, by decide⟩
  | conditional branching =>
      obtain ⟨comparison, subject, test, whenTrue, whenFalse⟩ := branching
      exact ⟨_, _, rfl, by decide⟩

-- A printed list of arguments does not begin with its closing parenthesis.
theorem behind?_lexemesOfEach {arguments : List (List Node)} (hne : arguments ≠ [])
    (hsingle : arguments ≠ [[]]) {front rest : List Token}
    (hf : front.map Token.lexeme = Node.lexemesOfEach .comma arguments) :
    behind? .closeParen (front ++ rest) = none := by
  have hhead : ∃ l lexemes, Node.lexemesOfEach .comma arguments = l :: lexemes ∧
      l ≠ .mark .closeParen := by
    match arguments with
    | [] => exact absurd rfl hne
    | [[]] => exact absurd rfl hsingle
    | [node :: nodes] => exact Node.exists_lexemes_cons node nodes
    | [] :: next :: more => exact ⟨_, _, rfl, by decide⟩
    | (node :: nodes) :: next :: more =>
        obtain ⟨l, lexemes, hl, hne⟩ := Node.exists_lexemes_cons node nodes
        rw [Node.lexemesOfEach, hl]
        exact ⟨_, _, rfl, hne⟩
  obtain ⟨l, lexemes, hl, hne⟩ := hhead
  rw [hl] at hf
  obtain ⟨offset, others, rfl, -⟩ := exists_cons_of_map_lexeme hf
  exact behind?_cons_of_ne hne offset _

theorem behind?_calls {calls : List Call} {front rest : List Token}
    (hf : front.map Token.lexeme = Call.lexemes calls) (hp : behind? .openParen rest = none) :
    behind? .openParen (front ++ rest) = none := by
  cases calls with
  | nil =>
      obtain rfl := List.map_eq_nil_iff.mp hf
      exact hp
  | cons call others =>
      obtain ⟨name, arguments⟩ := call
      obtain ⟨dot, behind, rfl, -⟩ := exists_cons_of_map_lexeme hf
      exact behind?_cons_of_ne (by decide) dot _

theorem Enclosure.endsAt_separator (enclosure : Enclosure) :
    enclosure.place.endsAt (.mark enclosure.separator) = true := by
  cases enclosure <;> rfl

theorem Enclosure.endsAt_closer (enclosure : Enclosure) :
    enclosure.place.endsAt (.mark enclosure.closer) = true := by
  cases enclosure <;> rfl

theorem Enclosure.not_isBranch (enclosure : Enclosure) : enclosure.place.isBranch = false := by
  cases enclosure <;> rfl

-- Printed nodes are read in front of tokens that go on as `tail`. An option must not open a choice,
-- since no bracket opens one there. In a branch a hash has to be left behind the nodes, or the hash
-- of their last reference would be taken for the one that closes the conditional.

mutual

theorem Node.reads_lexemes (nodes : List Node) {place : Place} {tail : List Node}
    {front rest after : List Token} (hf : front.map Token.lexeme = Node.lexemes nodes)
    (ht : TidySequence (nodes ++ tail)) (hc : NoConditional nodes) (hi : Inside Plain nodes)
    (ho : place = .option → ∀ node ∈ nodes, ¬node.IsAlternation)
    (hb : place.isBranch = true → hashAhead rest = true)
    (h : Reads stop (.nodes place) rest tail after) :
    Reads stop (.nodes place) (front ++ rest) (nodes ++ tail) after := by
  match nodes with
  | [] =>
      obtain rfl := List.map_eq_nil_iff.mp hf
      exact h
  | .literal text :: others =>
      obtain ⟨offset, front, rfl, hfront⟩ := exists_cons_of_map_lexeme hf
      obtain ⟨-, hs, ht⟩ := tidySequence_cons.mp ht
      have hothers := Node.reads_lexemes others hfront ht (List.forall_mem_cons.mp hc).2
        (inside_literal.mp hi) (fun hp => (List.forall_mem_cons.mp (ho hp)).2) hb h
      exact reads_literal hs hothers offset
  | .alternation options :: others =>
      obtain ⟨opened, front, rfl, hfront⟩ := exists_cons_of_map_lexeme hf
      obtain ⟨inner, closing, rfl, hinner, hclosing⟩ := List.map_eq_append_iff.mp hfront
      obtain ⟨closed, behind, rfl, hbehind⟩ := exists_cons_of_map_lexeme hclosing
      obtain ⟨⟨hne, hflat⟩, -, ht⟩ := tidySequence_cons.mp ht
      obtain ⟨hoptions, hi⟩ := inside_alternation.mp hi
      have hp : place ≠ .option := fun hp => (List.forall_mem_cons.mp (ho hp)).1 trivial
      have hothers := Node.reads_lexemes others hbehind ht (List.forall_mem_cons.mp hc).2
        hi (fun hp => (List.forall_mem_cons.mp (ho hp)).2) hb h
      have hitems : Reads stop (.items .options)
          (inner ++ ⟨.mark .closeBracket, closed⟩ :: (behind ++ rest)) options (behind ++ rest) :=
        Node.reads_lexemesOfEach .options options closed hinner hne hoptions (fun _ => hflat)
      simpa using Reads.bracket hp hitems hothers
  | .reference target :: others =>
      obtain ⟨opened, front, rfl, hfront⟩ := exists_cons_of_map_lexeme hf
      obtain ⟨inner, closing, rfl, hinner, hclosing⟩ := List.map_eq_append_iff.mp hfront
      obtain ⟨closed, behind, rfl, hbehind⟩ := exists_cons_of_map_lexeme hclosing
      obtain ⟨htarget, -, ht⟩ := tidySequence_cons.mp ht
      obtain ⟨harguments, hi⟩ := inside_reference.mp hi
      have hothers := Node.reads_lexemes others hbehind ht (List.forall_mem_cons.mp hc).2
        hi (fun hp => (List.forall_mem_cons.mp (ho hp)).2) hb h
      have hspan : Reads stop .span (inner ++ ⟨.mark .hash, closed⟩ :: (behind ++ rest))
          (.reference target) (behind ++ rest) :=
        .referenceSpan (target.reads_lexemes hinner htarget harguments
          (behind?_cons_of_ne (by decide) _ _) (behind?_cons_of_ne (by decide) _ _))
      have hahead : place.isBranch = true → hashAhead (behind ++ rest) = true := by
        intro hp
        rw [hashAhead_append, hb hp, Bool.or_true]
      simpa using Reads.hash hspan hahead hothers
  | .conditional branching :: others => exact absurd trivial (hc (.conditional branching) (by simp))

theorem Node.reads_lexemesOfEach (enclosure : Enclosure) (items : List (List Node)) (closed : Nat)
    {front rest : List Token}
    (hf : front.map Token.lexeme = Node.lexemesOfEach enclosure.separator items) (hne : items ≠ [])
    (hi : ∀ item ∈ items, Throughout Plain item)
    (ho : enclosure = .options → ∀ item ∈ items, ∀ node ∈ item, ¬node.IsAlternation) :
    Reads stop (.items enclosure) (front ++ ⟨.mark enclosure.closer, closed⟩ :: rest) items
      rest := by
  have hbranch : enclosure.place.isBranch = true → hashAhead rest = true := by
    simp [enclosure.not_isBranch]
  have hflat : ∀ item ∈ items, enclosure.place = .option → ∀ node ∈ item, ¬node.IsAlternation := by
    cases enclosure with
    | options => exact fun item hm _ => ho rfl item hm
    | arguments => simp [Enclosure.place]
  match items with
  | [] => exact absurd rfl hne
  | [nodes] =>
      obtain ⟨⟨ht, hc⟩, hinside⟩ := hi nodes (by simp)
      have hend : Reads stop (.nodes enclosure.place) (⟨.mark enclosure.closer, closed⟩ :: rest) []
          (⟨.mark enclosure.closer, closed⟩ :: rest) := .stop enclosure.endsAt_closer
      have hnodes := Node.reads_lexemes nodes hf (by rwa [List.append_nil]) hc hinside
        (hflat nodes (by simp)) (by simp [enclosure.not_isBranch]) hend
      rw [List.append_nil] at hnodes
      exact .lastItem hnodes
  | nodes :: next :: more =>
      obtain ⟨⟨⟨ht, hc⟩, hinside⟩, hrest⟩ := List.forall_mem_cons.mp hi
      obtain ⟨first, behind, rfl, hfirst, hbehind⟩ := List.map_eq_append_iff.mp hf
      obtain ⟨offset, others, rfl, hothers⟩ := exists_cons_of_map_lexeme hbehind
      have hmore : Reads stop (.items enclosure)
          (others ++ ⟨.mark enclosure.closer, closed⟩ :: rest) (next :: more) rest :=
        Node.reads_lexemesOfEach enclosure (next :: more) closed hothers (by simp) hrest
          fun he => (List.forall_mem_cons.mp (ho he)).2
      have hend : Reads stop (.nodes enclosure.place) (⟨.mark enclosure.separator, offset⟩ ::
          (others ++ ⟨.mark enclosure.closer, closed⟩ :: rest)) [] _ :=
        .stop enclosure.endsAt_separator
      have hnodes := Node.reads_lexemes nodes hfirst (by rwa [List.append_nil]) hc hinside
        (hflat nodes (by simp)) (by simp [enclosure.not_isBranch]) hend
      rw [List.append_nil] at hnodes
      simpa using Reads.item hnodes hmore

theorem Reference.reads_lexemes (target : Reference) {front rest : List Token}
    (hf : front.map Token.lexeme = target.lexemes) (ht : target.Tidy) (hi : target.Inside Plain)
    (hd : behind? .dot rest = none) (hp : behind? .openParen rest = none) :
    Reads stop .reference (front ++ rest) target rest := by
  match target with
  | ⟨name, calls⟩ =>
      obtain ⟨offset, front, rfl, hfront⟩ := exists_cons_of_map_lexeme hf
      exact reads_name ht.1 (Call.reads_lexemes calls hfront ht.2 hi hd hp) offset

theorem Call.reads_lexemes (calls : List Call) {front rest : List Token}
    (hf : front.map Token.lexeme = Call.lexemes calls) (ht : ∀ call ∈ calls, call.Tidy)
    (hi : ∀ call ∈ calls, ∀ argument ∈ call.arguments, Throughout Plain argument)
    (hd : behind? .dot rest = none) (hp : behind? .openParen rest = none) :
    Reads stop .calls (front ++ rest) calls rest := by
  match calls with
  | [] =>
      obtain rfl := List.map_eq_nil_iff.mp hf
      exact .noCalls hd
  | ⟨name, arguments⟩ :: others =>
      obtain ⟨dot, named, rfl, hnamed⟩ := exists_cons_of_map_lexeme hf
      obtain ⟨offset, called, rfl, hcalled⟩ := exists_cons_of_map_lexeme hnamed
      obtain ⟨inner, behind, rfl, hinner, hothers⟩ := List.map_eq_append_iff.mp hcalled
      obtain ⟨⟨hname, hsingle⟩, ht⟩ := List.forall_mem_cons.mp ht
      obtain ⟨harguments, hi⟩ := List.forall_mem_cons.mp hi
      have hcalls := Call.reads_lexemes others hothers ht hi hd hp
      have hparen := behind?_calls hothers hp
      have hread :
          Reads stop .arguments (inner ++ (behind ++ rest)) arguments (behind ++ rest) := by
        by_cases hne : arguments = []
        · subst hne
          obtain rfl := List.map_eq_nil_iff.mp hinner
          exact .noArguments hparen
        · rw [if_neg (by simpa using hne)] at hinner
          obtain ⟨opened, enclosed, rfl, henclosed⟩ := exists_cons_of_map_lexeme hinner
          obtain ⟨items, closing, rfl, hitems, hclosing⟩ := List.map_eq_append_iff.mp henclosed
          obtain ⟨closed, nothing, rfl, hnothing⟩ := exists_cons_of_map_lexeme hclosing
          obtain rfl := List.map_eq_nil_iff.mp hnothing
          have hread : Reads stop (.items .arguments)
              (items ++ ⟨.mark .closeParen, closed⟩ :: (behind ++ rest)) arguments
              (behind ++ rest) :=
            Node.reads_lexemesOfEach .arguments arguments closed hitems hne harguments (by simp)
          simpa using Reads.arguments (behind?_lexemesOfEach hne hsingle hitems) hread
      simpa using reads_call hname hread hcalls dot offset

end

theorem hashAhead_eq_false {tokens : List Token} (h : .mark .hash ∉ tokens.map Token.lexeme) :
    hashAhead tokens = false := by
  simpa [hashAhead] using h

-- Where no hash is left behind it, a hash can only be the one that closes a branch.
theorem reads_close {place : Place} (hp : place.isBranch = true) {rest : List Token}
    (hr : hashAhead rest = false) (closed : Nat) :
    Reads stop (.nodes place) (⟨.mark .hash, closed⟩ :: rest) []
      (⟨.mark .hash, closed⟩ :: rest) := by
  refine .close hp fun node more _ hs => ?_
  have hahead := (reads_of_parseSpan hs).hashAhead
  rw [hr] at hahead
  cases hahead

theorem Node.reads_branch (nodes : List Node) {place : Place} {front rest : List Token}
    (hf : front.map Token.lexeme = Node.lexemes nodes) (hp : Throughout Plain nodes)
    (hplace : place ≠ .option) (hb : place.isBranch = true → hashAhead rest = true)
    (h : Reads stop (.nodes place) rest [] rest) :
    Reads stop (.nodes place) (front ++ rest) nodes rest := by
  obtain ⟨⟨ht, hc⟩, hi⟩ := hp
  have hread := Node.reads_lexemes nodes hf (by rwa [List.append_nil]) hc hi
    (fun he => absurd he hplace) hb h
  rwa [List.append_nil] at hread

-- The branch for a comparison that fails ends the other one, and so does its absence.
theorem reads_otherwise {nodes : List Node} {front rest : List Token}
    (hf : front.map Token.lexeme = if nodes.isEmpty then [] else .mark .colon :: Node.lexemes nodes)
    (hp : Throughout Plain nodes) (hr : hashAhead rest = false) (closed : Nat) :
    Reads stop .otherwise (front ++ ⟨.mark .hash, closed⟩ :: rest) nodes
        (⟨.mark .hash, closed⟩ :: rest) ∧
      Reads stop (.nodes .whenTrue) (front ++ ⟨.mark .hash, closed⟩ :: rest) []
        (front ++ ⟨.mark .hash, closed⟩ :: rest) := by
  cases nodes with
  | nil =>
      obtain rfl := List.map_eq_nil_iff.mp hf
      exact ⟨.noOtherwise (behind?_cons_of_ne (by decide) _ _), reads_close rfl hr closed⟩
  | cons node others =>
      obtain ⟨colon, behind, rfl, hbehind⟩ := exists_cons_of_map_lexeme hf
      have hnodes : Reads stop (.nodes .whenFalse) (behind ++ ⟨.mark .hash, closed⟩ :: rest)
          (node :: others) (⟨.mark .hash, closed⟩ :: rest) :=
        Node.reads_branch _ hbehind hp (by decide) (fun _ => hashAhead_hash closed rest)
          (reads_close rfl hr closed)
      exact ⟨.otherwise hnodes, .stop rfl⟩

-- A printed conditional is read as a span if no hash is printed behind it.
theorem reads_conditional {branching : Branching} {after : List Node} {front : List Token}
    (hf : front.map Token.lexeme = Node.lexemes (.conditional branching :: after))
    (ht : branching.subject.Tidy) (hi : Inside Plain [.conditional branching])
    (hno : .mark .hash ∉ Node.lexemes after) :
    ∃ opened behind rest, front = ⟨.mark .hash, opened⟩ :: behind ∧
      Reads stop .span behind (.conditional branching) rest ∧
      rest.map Token.lexeme = Node.lexemes after := by
  obtain ⟨comparison, subject, test, whenTrue, whenFalse⟩ := branching
  obtain ⟨hsubject, htest, htrue, hfalse, -⟩ := inside_conditional.mp hi
  obtain ⟨opened, _, rfl, h₁⟩ := exists_cons_of_map_lexeme hf
  obtain ⟨marked, _, rfl, h₂⟩ := exists_cons_of_map_lexeme h₁
  obtain ⟨name, _, rfl, hname, h₃⟩ := List.map_eq_append_iff.mp h₂
  obtain ⟨equals, _, rfl, h₄⟩ := exists_cons_of_map_lexeme h₃
  obtain ⟨compared, _, rfl, hcompared, h₅⟩ := List.map_eq_append_iff.mp h₄
  obtain ⟨question, _, rfl, h₆⟩ := exists_cons_of_map_lexeme h₅
  obtain ⟨first, _, rfl, hfirst, h₇⟩ := List.map_eq_append_iff.mp h₆
  obtain ⟨second, _, rfl, hsecond, h₈⟩ := List.map_eq_append_iff.mp h₇
  obtain ⟨closed, rest, rfl, hrest⟩ := exists_cons_of_map_lexeme h₈
  have hclosed : hashAhead rest = false := hashAhead_eq_false (hrest ▸ hno)
  obtain ⟨hotherwise, hend⟩ := reads_otherwise hsecond hfalse hclosed closed
  have hwhenTrue := Node.reads_branch whenTrue hfirst htrue (by decide)
    (fun _ => by simp [hashAhead_append, hashAhead_hash]) hend
  have hquestion : Reads stop (.nodes .test) (⟨.mark .question, question⟩ ::
      (first ++ (second ++ ⟨.mark .hash, closed⟩ :: rest))) [] _ := .stop rfl
  have htested := Node.reads_branch test hcompared htest (by decide) (by simp [Place.isBranch])
    hquestion
  have hequals {m : Mark} (hm : Mark.equals ≠ m) (tokens : List Token) :
      behind? m (⟨.mark .equals, equals⟩ :: tokens) = none :=
    behind?_cons_of_ne (by simpa using hm) _ _
  exact ⟨opened, _, rest, rfl, .conditionalSpan (.branching (subject.reads_lexemes hname ht hsubject
    (hequals (by decide) _) (hequals (by decide) _)) htested hwhenTrue hotherwise), hrest⟩

end

-- Only references and conditionals are printed with a hash that stands for itself.

mutual

theorem Node.hash_notMem_lexemes (nodes : List Node) (hc : Constant nodes)
    (hi : Inside Constant nodes) : .mark .hash ∉ Node.lexemes nodes := by
  match nodes with
  | [] => simp [Node.lexemes]
  | .literal text :: rest =>
      have hrest := Node.hash_notMem_lexemes rest hc.tail (inside_literal.mp hi)
      simp [Node.lexemes, hrest]
  | .alternation options :: rest =>
      obtain ⟨ho, hi⟩ := inside_alternation.mp hi
      have hrest := Node.hash_notMem_lexemes rest hc.tail hi
      have hoptions := Node.hash_notMem_lexemesOfEach options ho
      simp [Node.lexemes, hrest, hoptions]
  | .reference target :: rest => exact absurd trivial (hc (.reference target) (by simp)).1
  | .conditional branching :: rest => exact absurd trivial (hc (.conditional branching) (by simp)).2

theorem Node.hash_notMem_lexemesOfEach (items : List (List Node))
    (h : ∀ item ∈ items, Throughout Constant item) :
    .mark .hash ∉ Node.lexemesOfEach .bar items := by
  match items with
  | [] => simp [Node.lexemesOfEach]
  | [nodes] => exact Node.hash_notMem_lexemes nodes (h nodes (by simp)).1 (h nodes (by simp)).2
  | nodes :: next :: more =>
      obtain ⟨⟨hc, hi⟩, hmore⟩ := List.forall_mem_cons.mp h
      have hnodes := Node.hash_notMem_lexemes nodes hc hi
      have hothers := Node.hash_notMem_lexemesOfEach (next :: more) hmore
      simp [Node.lexemesOfEach, hnodes, hothers]

end

-- Nodes with no conditional in them, or with a single one. Behind it nothing may refer to a symbol,
-- as a hash could then open a reference in a branch in place of closing the conditional.
inductive SingleBranching : List Node → Prop
  | without {nodes} : Throughout NoConditional nodes → SingleBranching nodes
  | around {before branching after} : Throughout NoConditional before →
      Inside NoConditional [.conditional branching] → Throughout Constant after →
      SingleBranching (before ++ .conditional branching :: after)

theorem map_lexeme_ofText {nodes : List Node} (hc : Canonical nodes) :
    (Token.ofText (Node.print nodes)).map Token.lexeme = Node.lexemes nodes := by
  have hstable := Node.stable_lexemes nodes hc.1 hc.2 [] Lexeme.apart_nil
  rw [Token.ofText, Token.map_lexeme_locate, Node.print, String.toList_ofList]
  simpa [Lexeme.scan] using hstable

-- Canonical nodes are what their printed text is read as.
theorem parse_print {nodes : List Node} (hc : Canonical nodes) (hs : SingleBranching nodes) :
    Template.parse (Node.print nodes) = .ok ⟨Node.print nodes, nodes⟩ := by
  have hf := map_lexeme_ofText hc
  obtain ⟨ht, hi⟩ := hc
  have hread : read (Node.print nodes) = .ok nodes := by
    rw [read_eq_ok_iff]
    generalize Token.ofText (Node.print nodes) = front at hf ⊢
    generalize (Node.print nodes).utf8ByteSize = stop
    have hend : Reads stop (.nodes .template) [] [] [] := .finish
    cases hs with
    | without hno =>
        have h := Node.reads_branch nodes hf ⟨⟨ht, hno.1⟩, hi.and hno.2⟩ (by decide)
          (by simp [Place.isBranch]) hend
        rwa [List.append_nil] at h
    | @around before branching after hbefore hbranching hafter =>
        rw [Node.lexemes_append] at hf
        obtain ⟨first, behind, rfl, hfirst, hbehind⟩ := List.map_eq_append_iff.mp hf
        obtain ⟨hleft, hright⟩ := inside_append.mp hi
        have hright : Inside TidySequence ([.conditional branching] ++ after) := hright
        obtain ⟨hmiddle, hright⟩ := inside_append.mp hright
        obtain ⟨htidy, -, htafter⟩ := tidySequence_cons.mp ht.right
        obtain ⟨opened, span, rest, rfl, hspan, hrest⟩ := reads_conditional hbehind htidy
          (hmiddle.and hbranching) (Node.hash_notMem_lexemes after hafter.1 hafter.2)
        have hread := Node.reads_branch after hrest
          ⟨⟨htafter, hafter.1.noConditional⟩,
            hright.and (hafter.2.mono fun _ => Constant.noConditional)⟩
          (by decide) (by simp [Place.isBranch]) hend
        rw [List.append_nil] at hread
        exact Node.reads_lexemes before hfirst ht hbefore.1 (hleft.and hbefore.2) (by simp)
          (by simp [Place.isBranch]) (.hash hspan (by simp [Place.isBranch]) hread)
  unfold Template.parse
  rw [hread]
  rfl

-- Marks in literals, empty arguments, a choice within an argument within a choice, and hashes that
-- open references in front of the one that closes the conditional.
def forecast : List Node :=
  [.literal "No. #1: ",
    .conditional ⟨.notEqual, ⟨"day", [⟨"pick", [[.literal "a,b"], []]⟩, ⟨"low", []⟩]⟩,
      [.reference ⟨"night", []⟩],
      [.reference ⟨"moon", []⟩,
        .alternation [[], [.reference ⟨"sun", [⟨"cut", [[.alternation [[]]]]⟩]⟩]]],
      []⟩,
    .literal "?", .alternation [[.literal "x"], []]]

theorem canonical_forecast : Canonical forecast := by
  simp +decide [Canonical, forecast, Throughout, Reference.Inside, tidySequence_cons,
    tidySequence_nil, Tidy, Reference.Tidy, Call.Tidy, Separate, IsLiteral]

theorem singleBranching_forecast : SingleBranching forecast := by
  have hbefore : Throughout NoConditional [.literal "No. #1: "] := by
    simp [NoConditional, Throughout, IsConditional]
  refine SingleBranching.around hbefore ?_ ?_
  · simp [NoConditional, Throughout, Reference.Inside, IsConditional]
  · simp [Constant, Throughout, IsReference, IsConditional]

def printedForecast : String :=
  "No\\. \\#1\\: #!day.pick(a\\,b,).low=#night#?#moon#[|#sun.cut([])#]#\\?[x|]"

theorem parse_print_forecast : Canonical forecast ∧ SingleBranching forecast ∧
    Template.parse printedForecast = .ok ⟨printedForecast, forecast⟩ := by
  have hprint : Node.print forecast = printedForecast := by decide
  exact ⟨canonical_forecast, singleBranching_forecast,
    hprint ▸ parse_print canonical_forecast singleBranching_forecast⟩

end StoryGrammar.Template
