import StoryGrammar.Proofs.Template.Follows

namespace StoryGrammar.Template

-- The turns of a sequence, one for each way in which its next token is read.
section

variable {tokens start rest : List Token} {stop opened : Nat} {reference alternation : Walk Node}
variable {place : Place} {before : List Node} {l : Lexeme} {β : Type} {bound limit : Nat}
variable {view : β → List Node ⊕ List Node} {reading : Except ParseError (Parsed bound β)}

-- The end of a sequence. The parser has read no nodes there, the walk has all of them.
theorem follows_halt {h : start.length ≤ bound} :
    Follows tokens (fun nodes => .inr (Node.join before nodes))
      (pure (.inr before) : Walk (List Node ⊕ List Node)) start (.ok ⟨[], start, h⟩) := by
  have hpure : Follows tokens (fun nodes => .inr (Node.join before nodes))
      (pure (.inr (Node.join before [])) : Walk (List Node ⊕ List Node)) start
      (.ok ⟨[], start, h⟩) := .pure
  rwa [Node.join_nil] at hpure

theorem follows_turn_end (he : place.endsAt l = true)
    {h : (⟨l, opened⟩ :: rest : List Token).length ≤ bound} :
    Follows tokens (fun nodes => .inr (Node.join before nodes))
      (Walk.nodesTurn tokens reference alternation place before) (⟨l, opened⟩ :: rest)
      (.ok ⟨[], ⟨l, opened⟩ :: rest, h⟩) := by
  refine .peek ?_
  simp only [List.head?_cons, Option.map_some, if_pos he]
  exact follows_halt

-- In a branch it depends on the attempt how the turn goes on.
theorem follows_turn_branch (hp : place.isBranch = true)
    (h : Follows tokens view (Walk.attempt tokens reference >>= fun
      | some node => return .inl (before ++ [node])
      | none => return .inr before) (⟨.mark .hash, opened⟩ :: rest) reading) :
    Follows tokens view (Walk.nodesTurn tokens reference alternation place before)
      (⟨.mark .hash, opened⟩ :: rest) reading := by
  refine .peek ?_
  simp only [List.head?_cons, Option.map_some, Place.endsAt_hash, if_pos hp, ↓reduceIte,
    Bool.false_eq_true]
  exact h

theorem follows_turn_hash (hp : ¬place.isBranch = true)
    {part : Except ParseError (Parsed limit Node)}
    (hw : Follows tokens id reference (⟨.mark .hash, opened⟩ :: rest) part) :
    Follows tokens (fun node => .inl (before ++ [node]))
      (Walk.nodesTurn tokens reference alternation place before)
      (⟨.mark .hash, opened⟩ :: rest) part := by
  refine .peek ?_
  simp only [List.head?_cons, Option.map_some, Place.endsAt_hash, if_neg hp, ↓reduceIte,
    Bool.false_eq_true]
  exact hw.returning (k := fun node => Sum.inl (before ++ [node]))

theorem follows_turn_bracket (hp : place ≠ .option)
    {part : Except ParseError (Parsed limit (List (List Node)))}
    (hw : Follows tokens .alternation alternation (⟨.mark .openBracket, opened⟩ :: rest) part) :
    Follows tokens (fun options => .inl (before ++ [.alternation options]))
      (Walk.nodesTurn tokens reference alternation place before)
      (⟨.mark .openBracket, opened⟩ :: rest) part := by
  refine .peek ?_
  simp only [List.head?_cons, Option.map_some, Place.endsAt_openBracket, Bool.false_eq_true,
    if_false, Lexeme.mark.injEq, reduceCtorEq, true_and, if_pos hp]
  exact hw.returning (k := fun node => Sum.inl (before ++ [node]))

theorem follows_turn_text (ht : place.IsText l) :
    Follows tokens (fun _ => .inl (Node.join before [.literal l.text]))
      (Walk.nodesTurn tokens reference alternation place before) (⟨l, opened⟩ :: rest)
      (.ok ⟨(), rest, Nat.le_refl _⟩) := by
  obtain ⟨he, hh, hb⟩ := ht
  have hb : ¬(l = .mark .openBracket ∧ place ≠ .option) := fun h => h.2 (hb h.1)
  refine .peek ?_
  simp only [List.head?_cons, Option.map_some, he, if_neg hh, if_neg hb, Bool.false_eq_true,
    if_false]
  exact .skip .pure

-- The node that is read next comes behind those before it.
theorem Follows.push {node : Node} {walk : Walk (List Node)}
    {part : Except ParseError (Parsed limit (List Node))}
    {g : Parsed limit (List Node) → Except ParseError (Parsed bound (List Node))}
    (hw : Follows tokens (Node.join (before ++ [node])) walk start part) (hl : ¬node.IsLiteral)
    (hg : ∀ nodes rest h, ∃ h', g ⟨nodes, rest, h⟩ = .ok ⟨node :: nodes, rest, h'⟩) :
    Follows tokens (Node.join before) walk start (part >>= g) := by
  have hjoin : Node.join (before ++ [node]) = fun nodes => Node.join before (node :: nodes) :=
    funext fun nodes => Node.join_append_singleton hl before nodes
  rw [hjoin] at hw
  exact hw.map hg

theorem Follows.pushText {text : String} {walk : Walk (List Node)}
    {part : Except ParseError (Parsed limit (List Node))}
    {g : Parsed limit (List Node) → Except ParseError (Parsed bound (List Node))}
    (hw : Follows tokens (Node.join (Node.join before [.literal text])) walk start part)
    (hg : ∀ nodes rest h, ∃ h', g ⟨nodes, rest, h⟩ = .ok ⟨Node.consText text nodes, rest, h'⟩) :
    Follows tokens (Node.join before) walk start (part >>= g) := by
  have hjoin : Node.join (Node.join before [.literal text]) =
      fun nodes => Node.join before (Node.consText text nodes) :=
    funext fun nodes => Node.join_join_literal before text nodes
  rw [hjoin] at hw
  exact hw.map hg

end

-- The turns of an enclosure, one for each way in which its next item ends, and those of calls.
section

variable {tokens start rest more : List Token} {stop opened offset : Nat} {bound limit : Nat}
variable {nodes : Walk (List Node)} {enclosure : Enclosure} {before : List (List Node)}
variable {item : List Node} {hm : more.length ≤ limit}

theorem follows_turn_separator
    {h : (⟨.mark enclosure.separator, offset⟩ :: rest : List Token).length ≤ limit}
    (hi : Follows tokens id nodes start
      (.ok ⟨item, ⟨.mark enclosure.separator, offset⟩ :: rest, h⟩)) :
    Follows tokens (fun _ => .inl (before ++ [item]))
      (Walk.itemsTurn tokens nodes enclosure opened before) start
      (.ok ⟨(), rest, Nat.le_refl _⟩) := by
  refine hi.of_ok (.advance ?_)
  simp only [↓reduceIte]
  exact .pure

theorem follows_turn_closer
    {h : (⟨.mark enclosure.closer, offset⟩ :: rest : List Token).length ≤ limit}
    {h' : rest.length ≤ bound}
    (hi : Follows tokens id nodes start
      (.ok ⟨item, ⟨.mark enclosure.closer, offset⟩ :: rest, h⟩)) :
    Follows tokens (fun items => .inr (before ++ items))
      (Walk.itemsTurn tokens nodes enclosure opened before) start
      (.ok ⟨[item], rest, h'⟩) := by
  have hne : enclosure.closer ≠ enclosure.separator := by cases enclosure <;> decide
  refine hi.of_ok (.advance ?_)
  simp only [if_neg hne, ↓reduceIte]
  exact .pure

theorem follows_turn_unclosed {β : Type} {view : β → List (List Node) ⊕ List (List Node)}
    (hi : Follows tokens id nodes start (.ok ⟨item, more, hm⟩))
    (hs : behind? enclosure.separator more = none) (hc : behind? enclosure.closer more = none) :
    Follows tokens view (Walk.itemsTurn tokens nodes enclosure opened before) start
      (.error (enclosure.unclosed opened) : Except ParseError (Parsed bound β)) := by
  refine hi.of_ok ?_
  match more, hs, hc with
  | [], _, _ => exact .advance_nil .throw
  | ⟨.run letters, offset⟩ :: rest, _, _ => exact .advance .throw
  | ⟨.mark m, offset⟩ :: rest, hs, hc =>
      have hs : m ≠ enclosure.separator := by
        rintro rfl
        simp at hs
      have hc : m ≠ enclosure.closer := by
        rintro rfl
        simp at hc
      refine .advance ?_
      simp only [if_neg hs, if_neg hc]
      exact .throw

theorem follows_turn_noCall {arguments : Walk (List (List Node))} {before : List Call}
    (hb : behind? .dot start = none) {h : start.length ≤ bound} :
    Follows tokens (fun calls => .inr (before ++ calls))
      (Walk.callsTurn tokens stop arguments before) start (.ok ⟨[], start, h⟩) := by
  have hpure : Follows tokens (fun calls => .inr (before ++ calls))
      (pure (.inr (before ++ [])) : Walk (List Call ⊕ List Call)) start (.ok ⟨[], start, h⟩) :=
    .pure
  refine .peek ?_
  rw [if_neg (head?_ne_of_behind? hb)]
  rwa [List.append_nil] at hpure

end

section

variable {tokens : List Token} {stop : Nat}

-- Each function of the walk follows its parser. The induction is on the tokens that are left. At
-- most three functions are entered before one of them takes a token, and a loop takes one in each
-- turn, which is what the bounds on depth and turns say.
mutual

theorem follows_nodesLoop (place : Place) (start : List Token) (before : List Node)
    {depth turns : Nat} (hd : 3 * start.length + 1 ≤ depth) (ht : start.length < turns) :
    Follows tokens (Node.join before)
      (Walk.loop (Walk.nodesTurn tokens (Walk.reference tokens stop depth)
        (Walk.alternation tokens stop depth) place) turns before)
      start (parseNodes stop place start) := by
  match start, turns, hd, ht with
  | [], turns + 1, hd, ht =>
      rw [parseNodes]
      exact .loop_inr (.peek follows_halt)
  | ⟨l, opened⟩ :: rest, turns + 1, hd, ht =>
      rw [List.length_cons] at hd ht
      -- All that the recursion gives is stated here. Once the cases are split, the tokens that are
      -- left cannot be compared any more with those at the start.
      have hdepth : 3 * rest.length + 4 ≤ depth := by omega
      have hspan := follows_reference opened rest hdepth
      have hitems := follows_alternation opened rest hdepth
      have hbehind (nodes : List Node) (more : List Token) (hm : more.length ≤ rest.length) :
          Follows tokens (Node.join nodes) (Walk.loop _ turns nodes) more
            (parseNodes stop place more) :=
        follows_nodesLoop place more nodes (by omega : 3 * more.length + 1 ≤ depth) (by omega)
      rw [parseNodes]
      dsimp only
      by_cases he : place.endsAt l = true
      · rw [if_pos he]
        exact .loop_inr (follows_turn_end he)
      · rw [if_neg he]
        by_cases hh : l = .mark .hash
        · subst hh
          rw [if_pos rfl]
          by_cases hp : place.isBranch = true
          · rw [if_pos hp]
            rcases hs : parseSpan stop opened rest with cause | ⟨node, more, hm⟩
            · rw [hs] at hspan
              exact .loop_inr (follows_turn_branch hp (hspan.attempt_error.of_ok follows_halt))
            · rw [hs] at hspan
              dsimp only
              by_cases ha : hashAhead more = true
              · rw [if_pos ha]
                have hl : ¬node.IsLiteral := (reads_of_parseSpan hs).not_isLiteral
                refine .loop_inl (follows_turn_branch hp ((hspan.attempt_ok ha).of_ok .pure))
                  (Nat.lt_succ_of_le hm) ?_
                exact (hbehind _ more hm).push hl fun _ _ _ => ⟨_, rfl⟩
              · rw [if_neg ha]
                have hrefused := hspan.attempt_refused (by simpa using ha)
                exact .loop_inr (follows_turn_branch hp (hrefused.of_ok follows_halt))
          · rw [if_neg hp]
            refine .loop_bind (follows_turn_hash hp hspan) (Nat.lt_succ_self _) ?_
            intro node more hm hs
            have hl : ¬node.IsLiteral := (reads_of_parseSpan hs).not_isLiteral
            exact (hbehind _ more hm).push hl fun _ _ _ => ⟨_, rfl⟩
        · rw [if_neg hh]
          by_cases hb : l = .mark .openBracket ∧ place ≠ .option
          · rw [if_pos hb]
            obtain ⟨rfl, hp⟩ := hb
            refine .loop_bind (follows_turn_bracket hp hitems) (Nat.lt_succ_self _) ?_
            intro options more hm _
            have hl : ¬(Node.alternation options).IsLiteral := id
            exact (hbehind _ more hm).push hl fun _ _ _ => ⟨_, rfl⟩
          · rw [if_neg hb]
            have ht : place.IsText l := ⟨by simpa using he, hh, by simpa using hb⟩
            refine .loop_inl (follows_turn_text ht) (Nat.lt_succ_self _) ?_
            exact (hbehind _ rest (Nat.le_refl _)).pushText fun _ _ _ => ⟨_, rfl⟩
termination_by 8 * start.length
decreasing_by all_goals (simp only [List.length_cons]; omega)

theorem follows_nodes (place : Place) (start : List Token) {depth : Nat}
    (hd : 3 * start.length + 2 ≤ depth) :
    Follows tokens id (Walk.nodes tokens stop depth place) start (parseNodes stop place start) := by
  obtain ⟨depth, rfl⟩ := Nat.exists_eq_add_one_of_ne_zero (by omega : depth ≠ 0)
  rw [Walk.nodes]
  exact follows_nodesLoop place start [] (by omega) (by omega)
termination_by 8 * start.length + 1
decreasing_by all_goals omega

theorem follows_itemsLoop (enclosure : Enclosure) (opened : Nat) (start : List Token)
    (before : List (List Node)) {depth turns : Nat} (hd : 3 * start.length + 2 ≤ depth)
    (ht : start.length < turns) :
    Follows tokens (before ++ ·)
      (Walk.loop (Walk.itemsTurn tokens (Walk.nodes tokens stop depth enclosure.place) enclosure
        opened) turns before)
      start (parseItems stop enclosure opened start) := by
  match turns, ht with
  | turns + 1, ht =>
      have hnodes := follows_nodes enclosure.place start hd
      have hbehind (items : List (List Node)) (more : List Token)
          (hm : more.length < start.length) :
          Follows tokens (items ++ ·) (Walk.loop _ turns items) more
            (parseItems stop enclosure opened more) :=
        follows_itemsLoop enclosure opened more items (by omega : 3 * more.length + 2 ≤ depth)
          (by omega)
      rw [parseItems]
      rcases hi : parseNodes stop enclosure.place start with cause | ⟨item, more, hm⟩
      · rw [hi] at hnodes
        exact .loop_inr hnodes.of_error
      · rw [hi] at hnodes
        rw [Except.ok_bind]
        dsimp only
        rcases hs : behind? enclosure.separator more with _ | ⟨next, hn⟩
        · rcases hc : behind? enclosure.closer more with _ | ⟨after, ha⟩
          · exact .loop_inr (follows_turn_unclosed hnodes hs hc)
          · obtain ⟨offset, rfl⟩ := eq_cons_of_behind? hc
            exact .loop_inr (follows_turn_closer hnodes)
        · obtain ⟨offset, rfl⟩ := eq_cons_of_behind? hs
          refine .loop_inl (follows_turn_separator hnodes) (Nat.lt_of_lt_of_le hn hm) ?_
          refine Follows.map ?_ fun _ _ _ => ⟨_, rfl⟩
          have hitems := hbehind (before ++ [item]) next (Nat.lt_of_lt_of_le hn hm)
          simpa only [List.append_assoc, List.singleton_append] using hitems
termination_by 8 * start.length + 2
decreasing_by all_goals omega

theorem follows_items (enclosure : Enclosure) (opened : Nat) (start : List Token) {depth : Nat}
    (hd : 3 * start.length + 3 ≤ depth) :
    Follows tokens id (Walk.items tokens stop depth enclosure opened) start
      (parseItems stop enclosure opened start) := by
  obtain ⟨depth, rfl⟩ := Nat.exists_eq_add_one_of_ne_zero (by omega : depth ≠ 0)
  rw [Walk.items]
  exact follows_itemsLoop enclosure opened start [] (by omega) (by omega)
termination_by 8 * start.length + 3
decreasing_by all_goals omega

theorem follows_alternation (opened : Nat) (rest : List Token) {depth : Nat}
    (hd : 3 * rest.length + 4 ≤ depth) :
    Follows tokens Node.alternation (Walk.alternation tokens stop depth)
      (⟨.mark .openBracket, opened⟩ :: rest) (parseItems stop .options opened rest) := by
  obtain ⟨depth, rfl⟩ := Nat.exists_eq_add_one_of_ne_zero (by omega : depth ≠ 0)
  have hitems := follows_items .options opened rest (by omega : 3 * rest.length + 3 ≤ depth)
  rw [Walk.alternation]
  exact .offset (.skip hitems.returning)
termination_by 8 * rest.length + 4
decreasing_by all_goals omega

theorem follows_arguments (start : List Token) {depth : Nat} (hd : 3 * start.length + 1 ≤ depth) :
    Follows tokens id
      (Walk.optional tokens .openParen (Walk.arguments tokens stop depth))
      start (parseArguments stop start) := by
  obtain ⟨depth, rfl⟩ := Nat.exists_eq_add_one_of_ne_zero (by omega : depth ≠ 0)
  have hitems (inner : List Token) (hi : inner.length < start.length) :=
    follows_items .arguments (offsetOf stop start) inner (by omega : 3 * inner.length + 3 ≤ depth)
  rw [parseArguments]
  rcases hb : behind? .openParen start with _ | ⟨inner, hi⟩
  · exact follows_optional_of_none hb
  · have hinner := hitems inner hi
    obtain ⟨opened, rfl⟩ := eq_cons_of_behind? hb
    dsimp only
    refine follows_optional ?_
    rw [Walk.arguments]
    refine .offset (.skip (.peek ?_))
    rcases hc : behind? .closeParen inner with _ | ⟨after, ha⟩
    · rw [if_neg (head?_ne_of_behind? hc)]
      exact hinner.map fun _ _ _ => ⟨_, rfl⟩
    · obtain ⟨closed, rfl⟩ := eq_cons_of_behind? hc
      exact .skip .pure
termination_by 8 * start.length
decreasing_by all_goals omega

theorem follows_callsLoop (start : List Token) (before : List Call) {depth turns : Nat}
    (hd : 3 * start.length ≤ depth) (ht : start.length < turns) :
    Follows tokens (before ++ ·)
      (Walk.loop (Walk.callsTurn tokens stop (Walk.arguments tokens stop depth)) turns before)
      start (parseCalls stop start) := by
  match turns, ht with
  | turns + 1, ht =>
      have harguments (more : List Token) (hm : more.length < start.length) :=
        follows_arguments more (by omega : 3 * more.length + 1 ≤ depth)
      have hbehind (calls : List Call) (more : List Token) (hm : more.length < start.length) :
          Follows tokens (calls ++ ·) (Walk.loop _ turns calls) more (parseCalls stop more) :=
        follows_callsLoop more calls (by omega : 3 * more.length ≤ depth) (by omega)
      rw [parseCalls]
      rcases hb : behind? .dot start with _ | ⟨rest, hr⟩
      · exact .loop_inr (follows_turn_noCall hb)
      · obtain ⟨dot, rfl⟩ := eq_cons_of_behind? hb
        dsimp only
        have hname : Follows tokens id (Walk.name tokens stop) rest (parseName stop rest) :=
          follows_name rest
        rcases hn : parseName stop rest with cause | ⟨name, more, hm⟩
        · rw [hn] at hname
          exact .loop_inr (.peek (.skip hname.of_error))
        · rw [hn] at hname
          rw [Except.ok_bind]
          dsimp only
          have harguments := harguments more (by rw [List.length_cons]; omega)
          rcases ha : parseArguments stop more with cause | ⟨arguments, next, hx⟩
          · rw [ha] at harguments
            exact .loop_inr (.peek (.skip (hname.of_ok harguments.of_error)))
          · rw [ha] at harguments
            rw [Except.ok_bind]
            have hlt : next.length < (⟨.mark .dot, dot⟩ :: rest : List Token).length := by
              rw [List.length_cons]
              omega
            refine .loop_inl (.peek (.skip (hname.of_ok (harguments.of_ok .pure)))) hlt ?_
            refine Follows.map ?_ fun _ _ _ => ⟨_, rfl⟩
            have hcalls := hbehind (before ++ [⟨name, arguments⟩]) next hlt
            simpa only [id_eq, List.append_assoc, List.singleton_append] using hcalls
termination_by 8 * start.length
decreasing_by all_goals omega

theorem follows_target (start : List Token) {depth : Nat} (hd : 3 * start.length + 2 ≤ depth) :
    Follows tokens id (Walk.target tokens stop depth) start (parseReference stop start) := by
  obtain ⟨depth, rfl⟩ := Nat.exists_eq_add_one_of_ne_zero (by omega : depth ≠ 0)
  rw [Walk.target, parseReference]
  refine (follows_name start).bind fun name more hm => ?_
  refine (follows_callsLoop more [] (by omega) (by omega)).bind fun calls after ha => ?_
  exact .pure
termination_by 8 * start.length + 1
decreasing_by all_goals omega

theorem follows_reference (opened : Nat) (rest : List Token) {depth : Nat}
    (hd : 3 * rest.length + 4 ≤ depth) :
    Follows tokens id (Walk.reference tokens stop depth) (⟨.mark .hash, opened⟩ :: rest)
      (parseSpan stop opened rest) := by
  obtain ⟨depth, rfl⟩ := Nat.exists_eq_add_one_of_ne_zero (by omega : depth ≠ 0)
  have htarget := follows_target rest (by omega : 3 * rest.length + 2 ≤ depth)
  have hconditional (comparison : Comparison) (more : List Token)
      (hm : more.length < rest.length) :=
    follows_conditional comparison opened more (by omega : 3 * more.length + 3 ≤ depth)
  rw [Walk.reference, parseSpan]
  refine .offset (.skip (.peek ?_))
  match rest, htarget, hconditional with
  | [], _, _ => exact .throw
  | ⟨l, offset⟩ :: more, htarget, hconditional =>
      rw [if_neg (by simp)]
      rcases hq : behind? .question (⟨l, offset⟩ :: more) with _ | ⟨inner, hi⟩
      · rcases hb : behind? .bang (⟨l, offset⟩ :: more) with _ | ⟨inner, hi⟩
        · have hq := head?_ne_of_behind? hq
          have hb := head?_ne_of_behind? hb
          dsimp only
          split
          next he => exact absurd he hq
          next he => exact absurd he hb
          next =>
            refine htarget.bind fun target after ha => ?_
            exact (follows_close after).bind fun _ _ _ => .pure
          next he => cases he
        · have hconditional := hconditional .notEqual inner hi
          obtain ⟨bang, he⟩ := eq_cons_of_behind? hb
          cases he
          refine .skip ?_
          exact Follows.map (k := Node.conditional) hconditional fun _ _ _ => ⟨_, rfl⟩
      · have hconditional := hconditional .equal inner hi
        obtain ⟨question, he⟩ := eq_cons_of_behind? hq
        cases he
        refine .skip ?_
        exact Follows.map (k := Node.conditional) hconditional fun _ _ _ => ⟨_, rfl⟩
termination_by 8 * rest.length + 2
decreasing_by all_goals omega

theorem follows_conditional (comparison : Comparison) (opened : Nat) (start : List Token)
    {depth : Nat} (hd : 3 * start.length + 3 ≤ depth) :
    Follows tokens Node.conditional (Walk.conditional tokens stop depth comparison opened) start
      (parseBranching stop comparison opened start) := by
  obtain ⟨depth, rfl⟩ := Nat.exists_eq_add_one_of_ne_zero (by omega : depth ≠ 0)
  rw [Walk.conditional, parseBranching]
  refine (follows_target start (by omega)).bind fun subject more h₁ => ?_
  dsimp only
  rcases he : behind? .equals more with _ | ⟨inTest, h₂⟩
  · exact (follows_equalsSign_of_none he).of_error
  · obtain ⟨equals, rfl⟩ := eq_cons_of_behind? he
    refine follows_equalsSign.of_ok ?_
    refine (follows_nodes .test inTest (by omega)).bind fun test untested h₃ => ?_
    dsimp only
    rcases hq : behind? .question untested with _ | ⟨inTrue, h₄⟩
    · exact (follows_questionMark_of_none hq).of_error
    · obtain ⟨question, rfl⟩ := eq_cons_of_behind? hq
      refine follows_questionMark.of_ok ?_
      refine (follows_nodes .whenTrue inTrue (by omega)).bind fun whenTrue inFalse h₅ => ?_
      refine (follows_otherwise inFalse (by omega)).bind fun whenFalse closing h₆ => ?_
      refine (follows_close closing).bind fun _ after h₇ => ?_
      exact .pure
termination_by 8 * start.length + 2
decreasing_by all_goals omega

theorem follows_otherwise (start : List Token) {depth : Nat} (hd : 3 * start.length ≤ depth) :
    Follows tokens id
      (Walk.optional tokens .colon do
        Walk.skip tokens
        Walk.nodes tokens stop depth .whenFalse)
      start (parseOtherwise stop start) := by
  have hnodes (inner : List Token) (hi : inner.length < start.length) :=
    follows_nodes .whenFalse inner (by omega : 3 * inner.length + 2 ≤ depth)
  rw [parseOtherwise]
  rcases hb : behind? .colon start with _ | ⟨inner, hi⟩
  · exact follows_optional_of_none hb
  · have hinner := hnodes inner hi
    obtain ⟨opened, rfl⟩ := eq_cons_of_behind? hb
    exact follows_optional (.skip (hinner.map fun _ _ _ => ⟨_, rfl⟩))
termination_by 8 * start.length
decreasing_by all_goals omega

end

end

section

variable {tokens : List Token} {α β : Type} {bound : Nat} {view : β → α}
variable {outcome : Except Halt α × Cursor} {reading : Except ParseError (Parsed bound β)}

theorem Arrives.fst_eq (h : Arrives tokens view outcome reading) :
    outcome.1 = (reading.map fun parsed => view parsed.value).mapError Halt.fault := by
  cases h <;> rfl

theorem Arrives.exists_of_ok {outcome : Except Halt β × Cursor} {value : β}
    (h : Arrives tokens id outcome reading) (ho : outcome.1 = .ok value) :
    ∃ rest h, reading = .ok ⟨value, rest, h⟩ ∧ outcome.2.At tokens rest := by
  cases h with
  | ok hc =>
      cases ho
      exact ⟨_, _, rfl, hc⟩
  | fault _ => cases ho

theorem Arrives.sound (h : Arrives tokens view outcome reading) : outcome.2.Sound tokens := by
  cases h with
  | ok hr => exact hr.toSound
  | fault hs => exact hs

end

-- A sequence that no mark ends is read to the end of the tokens, so the assertion there holds.
theorem follows_template {tokens : List Token} {stop depth : Nat}
    (hd : 3 * tokens.length + 2 ≤ depth) :
    Follows tokens id (Walk.template tokens stop depth) tokens
      (parseNodes stop .template tokens) := by
  rw [← bind_pure (parseNodes stop .template tokens)]
  refine (follows_nodes .template tokens hd).bind_of_eq fun nodes rest h hp => ?_
  obtain rfl : rest = [] := (reads_of_parseNodes hp).rest_eq_nil rfl
  exact .peek .pure

-- A depth of three for each token, and two more, is enough: the walk does not crash, is not cut off
-- and comes to what the parser reads, with sound strides only. Wherever a sequence of a template is
-- started, it takes all tokens that are left.
theorem parse_stays_in_bounds (text : String) (spare : Nat) :
    let tokens := Token.ofText text
    let depth := 3 * tokens.length + 2 + spare
    let walked := Walk.runOn (Walk.parse text depth) ⟨0, []⟩
    walked.1 = (Template.parse text).mapError Halt.fault ∧ walked.2.Sound tokens ∧
      ∀ position ≤ tokens.length, ∀ nodes,
        let read := Walk.runOn (Walk.nodes tokens text.utf8ByteSize depth .template) ⟨position, []⟩
        read.1 = .ok nodes → read.2.position = tokens.length := by
  intro tokens depth walked
  have hdepth : 3 * tokens.length + 2 ≤ depth := by omega
  have hstart (position : Nat) (hp : position ≤ tokens.length) :
      (⟨position, []⟩ : Cursor).At tokens (tokens.drop position) :=
    ⟨⟨hp, by simp⟩, rfl⟩
  have hparse : Follows tokens (fun nodes => (⟨text, nodes⟩ : Template)) (Walk.parse text depth)
      tokens (parseNodes text.utf8ByteSize .template tokens) :=
    (follows_template hdepth).returning
  have harrives := hparse ⟨0, []⟩ (hstart 0 (Nat.zero_le _))
  refine ⟨?_, harrives.sound, ?_⟩
  · rw [harrives.fst_eq, parse_eq_map, read, Except.map_map]
  · intro position hp nodes read hread
    have hle : 3 * (tokens.drop position).length + 2 ≤ depth := by
      rw [List.length_drop]
      omega
    have hnodes : Follows tokens id _ (tokens.drop position)
        (parseNodes text.utf8ByteSize .template (tokens.drop position)) :=
      follows_nodes .template (tokens.drop position) hle
    obtain ⟨rest, h, hr, hcursor⟩ :=
      (hnodes ⟨position, []⟩ (hstart position hp)).exists_of_ok hread
    obtain rfl := (reads_of_parseNodes hr).rest_eq_nil rfl
    simpa using hcursor.position_add

-- A reference in a branch, and behind it the hash that closes the conditional.
def nested : String := "#?a=b?#c#d#"

-- The reference is read. What is tried at the last hash is given up.
theorem parse_stays_in_bounds_nested :
    let tokens := Token.ofText nested
    let depth := 3 * tokens.length + 2 + 0
    let walked := Walk.runOn (Walk.parse nested depth) ⟨0, []⟩
    let read := Walk.runOn (Walk.nodes tokens nested.utf8ByteSize depth .template) ⟨0, []⟩
    walked.2.Sound tokens ∧ .gaveUp 6 6 ∉ walked.2.strides ∧ .gaveUp 10 10 ∈ walked.2.strides ∧
      (∃ nodes, read.1 = .ok nodes) ∧ read.2.position = tokens.length := by
  obtain ⟨-, hsound, hend⟩ := parse_stays_in_bounds nested 0
  have hread : (Walk.runOn (Walk.nodes (Token.ofText nested) nested.utf8ByteSize
      (3 * (Token.ofText nested).length + 2 + 0) .template) ⟨0, []⟩).1.toOption.any
      (fun _ => true) = true := by decide +kernel
  obtain ⟨nodes, hnodes, -⟩ := Except.exists_of_any_toOption hread
  have hposition := hend 0 (Nat.zero_le _) nodes hnodes
  exact ⟨hsound, by decide +kernel, by decide +kernel, ⟨nodes, hnodes⟩, hposition⟩

end StoryGrammar.Template
