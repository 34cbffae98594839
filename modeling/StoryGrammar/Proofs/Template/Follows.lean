import StoryGrammar.Proofs.Except
import StoryGrammar.Proofs.Template.Walk

namespace StoryGrammar.Template

-- What may be said of a walk over these tokens.
def Stride.Sound (tokens : List Token) : Stride → Prop
  | .went position | .looked position => position ≤ tokens.length
  | .turned before after => before < after
  | .gaveUp hash position =>
      position = hash ∧ ∃ offset, tokens[hash]? = some ⟨.mark .hash, offset⟩

structure Cursor.Sound (tokens : List Token) (cursor : Cursor) : Prop where
  le_length : cursor.position ≤ tokens.length
  strides : ∀ stride ∈ cursor.strides, stride.Sound tokens

-- The walk has come to the point where these tokens are left.
structure Cursor.At (tokens rest : List Token) (cursor : Cursor) : Prop
    extends cursor.Sound tokens where
  drop_eq : tokens.drop cursor.position = rest

namespace Walk

def runOn {α : Type} (walk : Walk α) (cursor : Cursor) : Except Halt α × Cursor :=
  walk.run.run cursor

theorem runOn_bind {α β : Type} (walk : Walk α) (f : α → Walk β) (cursor : Cursor) :
    runOn (walk >>= f) cursor =
      match runOn walk cursor with
      | (.ok a, next) => runOn (f a) next
      | (.error halt, next) => (.error halt, next) := by
  rw [runOn, ExceptT.run_run_bind, ← runOn]
  rcases runOn walk cursor with ⟨_ | a, next⟩ <;> rfl

end Walk

section

variable {tokens start rest : List Token} {cursor : Cursor}

theorem Cursor.At.getElem?_eq (h : cursor.At tokens rest) :
    tokens[cursor.position]? = rest.head? := by
  rw [← h.drop_eq, List.head?_drop]

theorem Cursor.At.position_add (h : cursor.At tokens rest) :
    cursor.position + rest.length = tokens.length := by
  rw [← h.drop_eq, List.length_drop]
  exact Nat.add_sub_of_le h.le_length

theorem Cursor.At.tell (h : cursor.At tokens rest) {stride : Stride} (hs : stride.Sound tokens) :
    (⟨cursor.position, stride :: cursor.strides⟩ : Cursor).At tokens rest :=
  ⟨⟨h.le_length, List.forall_mem_cons.mpr ⟨hs, h.strides⟩⟩, h.drop_eq⟩

-- How a walk ends where the parser comes to this result. The view takes what the parser has read
-- to what the walk returns. There is no way to crash or to be cut off.
inductive Arrives (tokens : List Token) {α β : Type} {bound : Nat} (view : β → α) :
    Except Halt α × Cursor → Except ParseError (Parsed bound β) → Prop
  | ok {value rest h cursor} : cursor.At tokens rest →
      Arrives tokens view (.ok (view value), cursor) (.ok ⟨value, rest, h⟩)
  | fault {cause cursor} : cursor.Sound tokens →
      Arrives tokens view (.error (.fault cause), cursor) (.error cause)

-- From wherever these tokens are left, a walk does what the parser does with them.
def Follows (tokens : List Token) {α β : Type} {bound : Nat} (view : β → α) (walk : Walk α)
    (start : List Token) (reading : Except ParseError (Parsed bound β)) : Prop :=
  ∀ cursor : Cursor, cursor.At tokens start → Arrives tokens view (Walk.runOn walk cursor) reading

end

section

variable {tokens start rest more : List Token} {token : Token} {opened : Nat} {stop : Nat}
variable {α β γ δ : Type} {bound limit : Nat} {view : β → α} {inner : δ → γ}
variable {reading : Except ParseError (Parsed bound β)} {walk : Walk γ} {f : γ → Walk α}

theorem Follows.pure {value : β} {h : rest.length ≤ bound} :
    Follows tokens view (pure (view value)) rest (.ok ⟨value, rest, h⟩) :=
  fun _ hc => .ok hc

theorem Follows.throw {cause : ParseError} :
    Follows tokens view (throw (.fault cause)) start
      (.error cause : Except ParseError (Parsed bound β)) :=
  fun _ hc => .fault hc.toSound

-- What comes next has to follow only where the part can be read.
theorem Follows.bind_of_eq {part : Except ParseError (Parsed limit δ)}
    {g : Parsed limit δ → Except ParseError (Parsed bound β)}
    (hw : Follows tokens inner walk start part)
    (hf : ∀ value rest h, part = .ok ⟨value, rest, h⟩ →
      Follows tokens view (f (inner value)) rest (g ⟨value, rest, h⟩)) :
    Follows tokens view (walk >>= f) start (part >>= g) := by
  intro cursor hc
  have harrives := hw cursor hc
  rw [Walk.runOn_bind]
  generalize Walk.runOn walk cursor = outcome at harrives ⊢
  cases harrives with
  | ok hr => exact hf _ _ _ rfl _ hr
  | fault hs => exact .fault hs

theorem Follows.bind {part : Except ParseError (Parsed limit δ)}
    {g : Parsed limit δ → Except ParseError (Parsed bound β)}
    (hw : Follows tokens inner walk start part)
    (hf : ∀ value rest h, Follows tokens view (f (inner value)) rest (g ⟨value, rest, h⟩)) :
    Follows tokens view (walk >>= f) start (part >>= g) :=
  hw.bind_of_eq fun value rest h _ => hf value rest h

theorem Follows.of_ok {value : δ} {h : rest.length ≤ limit}
    (hw : Follows tokens inner walk start (.ok ⟨value, rest, h⟩))
    (hf : Follows tokens view (f (inner value)) rest reading) :
    Follows tokens view (walk >>= f) start reading := by
  refine hw.bind_of_eq (g := fun _ => reading) ?_
  rintro _ _ _ ⟨⟩
  exact hf

theorem Follows.of_error {cause : ParseError}
    (hw : Follows tokens inner walk start (.error cause : Except ParseError (Parsed limit δ))) :
    Follows tokens view (walk >>= f) start
      (.error cause : Except ParseError (Parsed bound β)) :=
  hw.bind_of_eq (g := fun _ => .error cause) nofun

theorem Follows.returning {part : Except ParseError (Parsed limit δ)} {k : γ → α}
    (hw : Follows tokens inner walk start part) :
    Follows tokens (fun value => k (inner value)) (walk >>= fun a => return k a) start part := by
  rw [← bind_pure part]
  exact hw.bind fun _ _ _ => .pure

-- What the parser makes of its part, the walk has made of it already.
theorem Follows.map {k : δ → β} {whole : Walk α} {part : Except ParseError (Parsed limit δ)}
    {g : Parsed limit δ → Except ParseError (Parsed bound β)}
    (hw : Follows tokens (fun value => view (k value)) whole start part)
    (hg : ∀ value rest h, ∃ h', g ⟨value, rest, h⟩ = .ok ⟨k value, rest, h'⟩) :
    Follows tokens view whole start (part >>= g) := by
  rw [← bind_pure whole]
  refine hw.bind fun value rest h => ?_
  obtain ⟨h', hk⟩ := hg value rest h
  rw [hk]
  exact .pure

theorem Cursor.At.runOn_peek {cursor : Cursor} (h : cursor.At tokens start) :
    Walk.runOn (Walk.peek tokens) cursor = (.ok (start.head?.map Token.lexeme), cursor) := by
  rw [← h.getElem?_eq]
  rfl

-- A step that only looks leaves the walk where it is.
theorem Follows.of_look {look : γ}
    (hlook : ∀ cursor : Cursor, cursor.At tokens start →
      Walk.runOn walk cursor = (.ok look, cursor))
    (h : Follows tokens view (f look) start reading) :
    Follows tokens view (walk >>= f) start reading := by
  intro cursor hc
  rw [Walk.runOn_bind, hlook cursor hc]
  exact h cursor hc

theorem Follows.peek {f : Option Lexeme → Walk α}
    (h : Follows tokens view (f (start.head?.map Token.lexeme)) start reading) :
    Follows tokens view (Walk.peek tokens >>= f) start reading :=
  .of_look (fun _ hc => hc.runOn_peek) h

theorem Follows.offset {f : Nat → Walk α}
    (h : Follows tokens view (f (offsetOf stop start)) start reading) :
    Follows tokens view (Walk.offset tokens stop >>= f) start reading := by
  refine .of_look (fun cursor hc => ?_) h
  have hrun : Walk.runOn (Walk.offset tokens stop) cursor =
      (.ok (tokens[cursor.position]?.elim stop Token.offset), cursor) := rfl
  rw [hrun, hc.getElem?_eq]
  cases start <;> rfl

theorem Follows.advance {f : Option Lexeme → Walk α}
    (h : Follows tokens view (f (some token.lexeme)) rest reading) :
    Follows tokens view (Walk.advance tokens >>= f) (token :: rest) reading := by
  intro cursor hc
  have hrun : Walk.runOn (Walk.advance tokens) cursor = (.ok (some token.lexeme),
      ⟨cursor.position + 1, .went (cursor.position + 1) :: cursor.strides⟩) := by
    rw [Walk.advance, Walk.runOn_bind, hc.runOn_peek]
    rfl
  have hposition := hc.position_add
  rw [List.length_cons] at hposition
  have hle : cursor.position + 1 ≤ tokens.length := by omega
  rw [Walk.runOn_bind, hrun]
  refine h _ ⟨⟨hle, List.forall_mem_cons.mpr ⟨hle, hc.strides⟩⟩, ?_⟩
  rw [← List.tail_drop, hc.drop_eq]
  rfl

theorem Follows.advance_nil {f : Option Lexeme → Walk α}
    (h : Follows tokens view (f none) [] reading) :
    Follows tokens view (Walk.advance tokens >>= f) [] reading := by
  refine .of_look (fun cursor hc => ?_) h
  rw [Walk.advance, Walk.runOn_bind, hc.runOn_peek]
  rfl

theorem Follows.skip {f : Unit → Walk α} (h : Follows tokens view (f ()) rest reading) :
    Follows tokens view (Walk.skip tokens >>= f) (token :: rest) reading := by
  rw [Walk.skip, bind_assoc]
  refine .advance ?_
  rwa [pure_bind]

theorem Walk.runOn_outcome (walk : Walk α) (cursor : Cursor) :
    runOn (outcome walk) cursor =
      match runOn walk cursor with
      | (.ok a, next) => (.ok (.ok a), next)
      | (.error (.fault cause), next) => (.ok (.error cause), next)
      | (.error halt, next) => (.error halt, next) := by
  rw [runOn, outcome, ExceptT.run_run_tryCatch, ExceptT.run_run_bind, ← runOn]
  rcases runOn walk cursor with ⟨halt | a, next⟩
  · cases halt <;> rfl
  · rfl

theorem Walk.runOn_hashAhead {cursor : Cursor} (h : cursor.At tokens start) :
    runOn (hashAhead tokens) cursor = (.ok (Template.hashAhead start),
      ⟨cursor.position, .looked cursor.position :: cursor.strides⟩) := by
  have hrun : runOn (hashAhead tokens) cursor =
      runOn (if cursor.position ≤ tokens.length then
          return Template.hashAhead (tokens.drop cursor.position)
        else throw .crash) ⟨cursor.position, .looked cursor.position :: cursor.strides⟩ := rfl
  rw [hrun, if_pos h.le_length, h.drop_eq]
  rfl

theorem Walk.runOn_attempt (walk : Walk α) (cursor : Cursor) :
    runOn (attempt tokens walk) cursor =
      match runOn walk cursor with
      | (.ok a, next) =>
        runOn (do if ← hashAhead tokens then return some a else giveUp cursor.position) next
      | (.error (.fault _), next) => runOn (giveUp cursor.position) next
      | (.error halt, next) => (.error halt, next) := by
  have hposition : runOn position cursor = (.ok cursor.position, cursor) := rfl
  rw [attempt, runOn_bind, hposition]
  dsimp only
  rw [runOn_bind, runOn_outcome]
  rcases runOn walk cursor with ⟨halt | a, next⟩
  · cases halt <;> rfl
  · rfl

-- Something that was tried from a hash is given up, and the walk is back at this hash.
theorem Cursor.At.giveUp {cursor next : Cursor}
    (h : cursor.At tokens (⟨.mark .hash, opened⟩ :: rest)) (hn : next.Sound tokens) :
    Arrives tokens (fun _ : Unit => none)
      (Walk.runOn (Walk.giveUp cursor.position : Walk (Option α)) next)
      (.ok ⟨(), ⟨.mark .hash, opened⟩ :: rest, Nat.le_refl _⟩) := by
  have hgone : (Stride.went cursor.position).Sound tokens := h.le_length
  have hhash : (Stride.gaveUp cursor.position cursor.position).Sound tokens :=
    ⟨rfl, opened, h.getElem?_eq⟩
  refine .ok ⟨⟨h.le_length, ?_⟩, h.drop_eq⟩
  exact List.forall_mem_cons.mpr ⟨hhash, List.forall_mem_cons.mpr ⟨hgone, hn.strides⟩⟩

theorem Follows.attempt_error {cause : ParseError}
    (hw : Follows tokens inner walk (⟨.mark .hash, opened⟩ :: rest)
      (.error cause : Except ParseError (Parsed limit δ))) :
    Follows tokens (fun _ : Unit => none) (Walk.attempt tokens walk)
      (⟨.mark .hash, opened⟩ :: rest)
      (.ok ⟨(), ⟨.mark .hash, opened⟩ :: rest, Nat.le_refl _⟩) := by
  intro cursor hc
  have harrives := hw cursor hc
  rw [Walk.runOn_attempt]
  generalize Walk.runOn walk cursor = outcome at harrives ⊢
  cases harrives with
  | fault hs => exact hc.giveUp hs

theorem Follows.attempt_refused {value : δ} {h : more.length ≤ limit}
    (hw : Follows tokens inner walk (⟨.mark .hash, opened⟩ :: rest) (.ok ⟨value, more, h⟩))
    (ha : hashAhead more = false) :
    Follows tokens (fun _ : Unit => none) (Walk.attempt tokens walk)
      (⟨.mark .hash, opened⟩ :: rest)
      (.ok ⟨(), ⟨.mark .hash, opened⟩ :: rest, Nat.le_refl _⟩) := by
  intro cursor hc
  have harrives := hw cursor hc
  rw [Walk.runOn_attempt]
  generalize Walk.runOn walk cursor = outcome at harrives ⊢
  cases harrives with
  | @ok _ _ _ next hr =>
      have hlooked : (Stride.looked next.position).Sound tokens := hr.le_length
      dsimp only
      rw [Walk.runOn_bind, Walk.runOn_hashAhead hr, ha]
      exact hc.giveUp (hr.tell hlooked).toSound

theorem Follows.attempt_ok {value : δ} {h : more.length ≤ limit}
    (hw : Follows tokens inner walk start (.ok ⟨value, more, h⟩)) (ha : hashAhead more = true) :
    Follows tokens (fun value => some (inner value)) (Walk.attempt tokens walk) start
      (.ok ⟨value, more, h⟩) := by
  intro cursor hc
  have harrives := hw cursor hc
  rw [Walk.runOn_attempt]
  generalize Walk.runOn walk cursor = outcome at harrives ⊢
  cases harrives with
  | @ok _ _ _ next hr =>
      have hlooked : (Stride.looked next.position).Sound tokens := hr.le_length
      dsimp only
      rw [Walk.runOn_bind, Walk.runOn_hashAhead hr, ha]
      exact .ok (hr.tell hlooked)

variable {σ : Type} {turn : σ → Walk (σ ⊕ α)} {turns : Nat} {state : σ}

theorem Walk.runOn_loop (turn : σ → Walk (σ ⊕ α)) (turns : Nat) (state : σ) (cursor : Cursor) :
    runOn (loop turn (turns + 1) state) cursor =
      match runOn (turn state) cursor with
      | (.ok (.inl next), after) =>
        runOn (loop turn turns next)
          ⟨after.position, .turned cursor.position after.position :: after.strides⟩
      | (.ok (.inr result), after) => (.ok result, after)
      | (.error halt, after) => (.error halt, after) := by
  have hposition : runOn position cursor = (.ok cursor.position, cursor) := rfl
  rw [loop, runOn_bind, hposition]
  dsimp only
  rw [runOn_bind]
  rcases runOn (turn state) cursor with ⟨halt | next | result, after⟩ <;> rfl

-- The turn is the last one.
theorem Follows.loop_inr
    (ht : Follows tokens (fun value => .inr (view value)) (turn state) start reading) :
    Follows tokens view (Walk.loop turn (turns + 1) state) start reading := by
  intro cursor hc
  have harrives := ht cursor hc
  rw [Walk.runOn_loop]
  generalize Walk.runOn (turn state) cursor = outcome at harrives ⊢
  cases harrives with
  | ok hr => exact .ok hr
  | fault hs => exact .fault hs

-- A turn that goes on takes at least one token, and the next one starts behind what it has read.
theorem Follows.loop_bind {next : δ → σ} {part : Except ParseError (Parsed limit δ)}
    {g : Parsed limit δ → Except ParseError (Parsed bound β)}
    (ht : Follows tokens (fun value => .inl (next value)) (turn state) start part)
    (hlt : limit < start.length)
    (hrest : ∀ value rest h, part = .ok ⟨value, rest, h⟩ →
      Follows tokens view (Walk.loop turn turns (next value)) rest (g ⟨value, rest, h⟩)) :
    Follows tokens view (Walk.loop turn (turns + 1) state) start (part >>= g) := by
  intro cursor hc
  have harrives := ht cursor hc
  rw [Walk.runOn_loop]
  generalize Walk.runOn (turn state) cursor = outcome at harrives ⊢
  cases harrives with
  | @ok _ _ h after hr =>
      have hbefore := hc.position_add
      have hafter := hr.position_add
      have hturned : (Stride.turned cursor.position after.position).Sound tokens := by
        rw [Stride.Sound]
        omega
      exact hrest _ _ _ rfl _ (hr.tell hturned)
  | fault hs => exact .fault hs

theorem Follows.loop_inl {next : σ}
    (ht : Follows tokens (fun _ => .inl next) (turn state) start
      (.ok ⟨(), rest, Nat.le_refl _⟩))
    (hlt : rest.length < start.length)
    (hrest : Follows tokens view (Walk.loop turn turns next) rest reading) :
    Follows tokens view (Walk.loop turn (turns + 1) state) start reading := by
  refine ht.loop_bind (g := fun _ => reading) hlt ?_
  rintro _ _ _ ⟨⟩
  exact hrest

end

section

variable {tokens start rest : List Token} {stop opened : Nat} {α β : Type} {bound : Nat}
variable {view : β → List α} {reading : Except ParseError (Parsed bound β)}

theorem follows_name (start : List Token) :
    Follows tokens id (Walk.name tokens stop) start (parseName stop start) := by
  match start with
  | [] => exact .peek (.offset .throw)
  | ⟨.mark m, offset⟩ :: rest => exact .peek (.offset .throw)
  | ⟨.run letters, offset⟩ :: rest =>
      refine .peek ?_
      simp only [parseName, List.head?_cons, Option.map_some]
      by_cases hn : isName (Lexeme.run letters).content = true
      · simp only [if_pos hn]
        exact .skip .pure
      · simp only [if_neg hn]
        exact .offset .throw

theorem follows_close (start : List Token) :
    Follows tokens id (Walk.close tokens stop opened) start (parseHash opened start) := by
  cases start with
  | nil => exact .offset (.advance_nil .throw)
  | cons token rest =>
      refine .offset (.advance ?_)
      simp only [parseHash]
      split
      · exact .pure
      · exact .throw

theorem follows_equalsSign {offset : Nat} :
    Follows tokens id (Walk.equalsSign tokens opened) (⟨.mark .equals, offset⟩ :: rest)
      (.ok ⟨(), rest, Nat.le_refl _⟩) :=
  .peek (.advance .pure)

theorem head?_ne_of_behind? {m : Mark} (hb : behind? m start = none) :
    start.head?.map Token.lexeme ≠ some (.mark m) := by
  cases start with
  | nil => simp
  | cons token rest =>
      intro he
      simp [behind?, Option.some.inj he] at hb

theorem follows_equalsSign_of_none (hb : behind? .equals start = none) :
    Follows tokens id (Walk.equalsSign tokens opened) start
      (.error (if start.isEmpty then .unclosedReference opened else .missingComparison opened) :
        Except ParseError (Parsed start.length Unit)) := by
  have hl := head?_ne_of_behind? hb
  cases start with
  | nil => exact .peek .throw
  | cons token rest =>
      have hl : token.lexeme ≠ .mark .equals := by simpa using hl
      refine .peek ?_
      simp only [List.head?_cons, Option.map_some, if_neg hl]
      exact .throw

theorem follows_questionMark {offset : Nat} :
    Follows tokens id (Walk.questionMark tokens opened) (⟨.mark .question, offset⟩ :: rest)
      (.ok ⟨(), rest, Nat.le_refl _⟩) :=
  .advance .pure

theorem follows_questionMark_of_none (hb : behind? .question start = none) :
    Follows tokens id (Walk.questionMark tokens opened) start
      (.error (.missingBranch opened) : Except ParseError (Parsed start.length Unit)) := by
  have hl := head?_ne_of_behind? hb
  cases start with
  | nil => exact .advance_nil .throw
  | cons token rest =>
      rw [List.head?_cons, Option.map_some] at hl
      refine .advance ?_
      rw [if_neg hl]
      exact .throw

theorem follows_optional {m : Mark} {walk : Walk (List α)} {offset : Nat}
    (hw : Follows tokens view walk (⟨.mark m, offset⟩ :: rest) reading) :
    Follows tokens view (Walk.optional tokens m walk) (⟨.mark m, offset⟩ :: rest) reading := by
  refine .peek ?_
  rw [List.head?_cons, Option.map_some, if_pos rfl]
  exact hw

theorem follows_optional_of_none {m : Mark} {walk : Walk (List α)} (hb : behind? m start = none)
    {h : start.length ≤ bound} :
    Follows tokens id (Walk.optional tokens m walk) start (.ok ⟨[], start, h⟩) := by
  refine .peek ?_
  rw [if_neg (head?_ne_of_behind? hb)]
  exact .pure

end

end StoryGrammar.Template
