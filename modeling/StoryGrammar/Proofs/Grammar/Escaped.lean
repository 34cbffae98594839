import StoryGrammar.Proofs.Grammar.Operation
import StoryGrammar.Proofs.Template.Concat
import StoryGrammar.Random.Script

namespace StoryGrammar

open Expansion

namespace Template

-- A way to write a text in which every character may have a backslash before it. Those that are
-- special have one.
inductive Escaped (special : List Char) : List Char → List Char → Prop
  | nil : Escaped special [] []
  | plain {c value written} : c ∉ special → Escaped special value written →
      Escaped special (c :: value) (c :: written)
  | quoted {c value written} : Escaped special value written →
      Escaped special (c :: value) ('\\' :: c :: written)

namespace Lexeme

-- A character without a backslash before it is a mark or a letter.
theorem scan_cons_cases {c : Char} (hc : c ≠ '\\') (chars : List Char) :
    (∃ m : Mark, m.char = c ∧ scan (c :: chars) = .mark m :: scan chars) ∨
      scan (c :: chars) = attach (.plain c) (scan chars) := by
  cases hm : Mark.ofChar? c with
  | some m =>
      obtain rfl := Mark.char_of_ofChar? hm
      exact .inl ⟨m, rfl, scan_mark m chars⟩
  | none => exact .inr (scan_letter (l := .plain c) (fun _ => ⟨hm, hc⟩) chars)

-- In front of a mark, a text is split as if it stood alone.
theorem scan_append_mark {chars : List Char} (h : endsInBackslash chars = false) (m : Mark)
    (rest : List Char) : scan (chars ++ m.char :: rest) = scan chars ++ .mark m :: scan rest := by
  rw [scan_append h, scan_mark]
  rcases weld_cases (scan chars) (.mark m :: scan rest) with hw | ⟨_, _, _, _, -, hr, -⟩
  · exact hw
  · simp at hr

end Lexeme

namespace Escaped

variable {special value written : List Char}

theorem endsInBackslash (h : Escaped special value written) (hs : '\\' ∈ special) :
    Lexeme.endsInBackslash written = false := by
  induction h with
  | nil => rfl
  | @plain c _ written hc _ ih =>
      have hne : c ≠ '\\' := (ne_of_mem_of_not_mem hs hc).symm
      rwa [Lexeme.endsInBackslash_cons hne written]
  | quoted _ ih => exact ih

theorem contents (h : Escaped special value written) (hs : '\\' ∈ special) :
    (Lexeme.scan written).flatMap Lexeme.content = value := by
  induction h with
  | nil => rfl
  | @plain c value written hc _ ih =>
      have hne : c ≠ '\\' := (ne_of_mem_of_not_mem hs hc).symm
      rcases Lexeme.scan_cons_cases hne written with ⟨m, rfl, hscan⟩ | hscan
      · rw [hscan, List.flatMap_cons, ih]
        rfl
      · rw [hscan, Lexeme.flatMap_content_attach, ih]
        rfl
  | quoted _ ih => rw [Lexeme.scan, Lexeme.flatMap_content_attach, ih]

-- A special character has lost its meaning.
theorem mark_notMem (h : Escaped special value written) (hs : '\\' ∈ special) {m : Mark}
    (hm : m.char ∈ special) : .mark m ∉ Lexeme.scan written := by
  induction h with
  | nil => simp [Lexeme.scan]
  | @plain c _ written hc _ ih =>
      have hne : c ≠ '\\' := (ne_of_mem_of_not_mem hs hc).symm
      rcases Lexeme.scan_cons_cases hne written with ⟨other, rfl, hscan⟩ | hscan
      · have hother : m ≠ other := by
          rintro rfl
          exact hc hm
        rw [hscan]
        simp [hother, ih]
      · rwa [hscan, Lexeme.mark_mem_attach]
  | quoted _ ih => rwa [Lexeme.scan, Lexeme.mark_mem_attach]

end Escaped

theorem Lexeme.content_ne_nil {l : Lexeme} (h : l ≠ .run []) : l.content ≠ [] := by
  cases l with
  | mark m => simp [content]
  | run letters =>
      intro he
      exact h (by rw [List.map_eq_nil_iff.mp he])

theorem verbatim_nodes {text : String} (h : text ≠ "") :
    (verbatim text).nodes = [.literal text] := by
  simp [verbatim, h]

theorem consText_verbatim {text : String} (h : text ≠ "") (more : String) :
    Node.consText text (verbatim more).nodes = (verbatim (text ++ more)).nodes := by
  have hne : text ++ more ≠ "" := by simp [h]
  rw [verbatim_nodes hne]
  by_cases hm : more = ""
  · subst hm
    rw [String.append_empty]
    rfl
  · rw [verbatim_nodes hm]
    rfl

section

variable {stop : Nat} {place : Place}

-- Tokens that are text where they stand are read as one literal.
theorem reads_verbatim {rest after : List Token} (h : Reads stop (.nodes place) rest [] after)
    (front : List Token) (ht : ∀ token ∈ front, place.IsText token.lexeme)
    (hne : ∀ token ∈ front, token.lexeme ≠ .run []) :
    Reads stop (.nodes place) (front ++ rest)
      (verbatim (String.ofList (Token.contents front))).nodes after := by
  induction front with
  | nil => exact h
  | cons token front ih =>
      obtain ⟨htoken, hfront⟩ := List.forall_mem_cons.mp ht
      obtain ⟨hfirst, hothers⟩ := List.forall_mem_cons.mp hne
      have hread := Reads.text htoken (ih hfront hothers)
      have htext : token.lexeme.text ≠ "" := by
        intro he
        rw [Lexeme.text, String.ofList_eq_empty_iff] at he
        exact Lexeme.content_ne_nil hfirst he
      rw [consText_verbatim htext, Lexeme.text, ← String.ofList_append] at hread
      exact hread

variable {special value written : List Char}

-- An escaped text is read as the text itself where only special characters have a role.
theorem Escaped.reads (h : Escaped special value written) (hs : '\\' ∈ special)
    (hp : ∀ l, (∀ m : Mark, m.char ∈ special → l ≠ .mark m) → place.IsText l)
    {front rest after : List Token} (hf : front.map Token.lexeme = Lexeme.scan written)
    (hr : Reads stop (.nodes place) rest [] after) :
    Reads stop (.nodes place) (front ++ rest) (verbatim (String.ofList value)).nodes after := by
  have hmem (token : Token) (ht : token ∈ front) : token.lexeme ∈ Lexeme.scan written :=
    hf ▸ List.mem_map_of_mem ht
  have htext : ∀ token ∈ front, place.IsText token.lexeme := by
    intro token ht
    refine hp _ fun m hm he => h.mark_notMem hs hm ?_
    exact he ▸ hmem token ht
  have hrun : ∀ token ∈ front, token.lexeme ≠ .run [] := fun token ht he =>
    Lexeme.run_nil_notMem_scan written (he ▸ hmem token ht)
  have hvalue : Token.contents front = value := by
    rw [← h.contents hs, ← hf, List.flatMap_map]
    rfl
  exact hvalue ▸ reads_verbatim hr front htext hrun

end

-- The characters that need a backslash in a text, and in an option of a choice.
def textMarks : List Char := ['#', '[', '\\']

def optionMarks : List Char := ['#', '[', '\\', '|', ']']

theorem isText_template {l : Lexeme} (h : ∀ m : Mark, m.char ∈ textMarks → l ≠ .mark m) :
    Place.template.IsText l :=
  ⟨rfl, h .hash (by decide), fun he => absurd he (h .openBracket (by decide))⟩

theorem isText_option {l : Lexeme} (h : ∀ m : Mark, m.char ∈ optionMarks → l ≠ .mark m) :
    Place.option.IsText l := by
  refine ⟨?_, h .hash (by decide), fun _ => rfl⟩
  have hbar : l ≠ .mark .bar := h .bar (by decide)
  have hbracket : l ≠ .mark .closeBracket := h .closeBracket (by decide)
  simp [Place.endsAt, Place.terminators, hbar, hbracket]

theorem parse_escaped {value text : String} (h : Escaped textMarks value.toList text.toList) :
    Template.parse text = .ok ⟨text, (verbatim value).nodes⟩ := by
  have hread : read text = .ok (verbatim value).nodes := by
    have hend : Reads text.utf8ByteSize (.nodes .template) [] [] [] := .finish
    have hr := h.reads (by decide) (fun _ => isText_template) (Token.map_lexeme_locate 0 _) hend
    rw [List.append_nil, String.ofList_toList] at hr
    exact read_eq_ok_iff.mpr hr
  rw [parse_eq_map, hread]
  rfl

-- The options of a choice between texts.
def verbatimOptions (values : List String) : List (List Node) :=
  values.map fun value => (verbatim value).nodes

-- Escaped texts between bars are read as options, up to the bracket that closes them.
theorem reads_options {stop : Nat} {values texts : List String}
    (h : List.Forall₂ (fun value text => Escaped optionMarks value.toList text.toList) values texts)
    (hne : values ≠ []) {front rest : List Token}
    (hf : front.map Token.lexeme =
      Lexeme.scan (['|'].intercalate (texts.map String.toList) ++ [']'])) :
    Reads stop (.items .options) (front ++ rest) (verbatimOptions values) rest := by
  induction h generalizing front with
  | nil => exact absurd rfl hne
  | @cons value text values texts hfirst hothers ih =>
      have hend := hfirst.endsInBackslash (by decide)
      have hoption {inner behind : List Token}
          (hi : inner.map Token.lexeme = Lexeme.scan text.toList)
          (hb : Reads stop (.nodes .option) behind [] behind) :
          Reads stop (.nodes .option) (inner ++ behind) (verbatim value).nodes behind := by
        have hr := hfirst.reads (by decide) (fun _ => isText_option) hi hb
        rwa [String.ofList_toList] at hr
      cases hothers with
      | nil =>
          have hscan : Lexeme.scan (text.toList ++ [']']) =
            Lexeme.scan text.toList ++ [.mark .closeBracket] :=
              Lexeme.scan_append_mark hend .closeBracket []
          rw [List.map_singleton, List.intercalate_singleton, hscan] at hf
          obtain ⟨inner, closing, rfl, hinner, hclosing⟩ := List.map_eq_append_iff.mp hf
          obtain ⟨closed, behind, rfl, hbehind⟩ := exists_cons_of_map_lexeme hclosing
          obtain rfl := List.map_eq_nil_iff.mp hbehind
          have hlast : Reads stop (.nodes Enclosure.options.place)
              (inner ++ ⟨.mark Enclosure.options.closer, closed⟩ :: rest) (verbatim value).nodes
              (⟨.mark Enclosure.options.closer, closed⟩ :: rest) := hoption hinner (.stop rfl)
          rw [List.append_assoc]
          exact .lastItem hlast
      | @cons next nextText values texts hnext hmore =>
          have hscan : Lexeme.scan (['|'].intercalate
              ((text :: nextText :: texts).map String.toList) ++ [']']) =
            Lexeme.scan text.toList ++ .mark .bar :: Lexeme.scan (['|'].intercalate
              ((nextText :: texts).map String.toList) ++ [']']) := by
            rw [List.map_cons, List.map_cons, List.intercalate_cons_cons, List.append_assoc,
              List.append_assoc]
            exact Lexeme.scan_append_mark hend .bar _
          rw [hscan] at hf
          obtain ⟨inner, behind, rfl, hinner, hbehind⟩ := List.map_eq_append_iff.mp hf
          obtain ⟨bar, others, rfl, hothers⟩ := exists_cons_of_map_lexeme hbehind
          have hitem : Reads stop (.nodes Enclosure.options.place)
              (inner ++ ⟨.mark Enclosure.options.separator, bar⟩ :: (others ++ rest))
              (verbatim value).nodes
              (⟨.mark Enclosure.options.separator, bar⟩ :: (others ++ rest)) :=
            hoption hinner (.stop rfl)
          rw [List.append_assoc]
          exact .item hitem (ih (by simp) hothers)

-- A choice between escaped texts.
def choiceText (texts : List String) : String := "[" ++ "|".intercalate texts ++ "]"

theorem parse_choiceText {values texts : List String}
    (h : List.Forall₂ (fun value text => Escaped optionMarks value.toList text.toList) values texts)
    (hne : values ≠ []) :
    Template.parse (choiceText texts) =
      .ok ⟨choiceText texts, [.alternation (verbatimOptions values)]⟩ := by
  have hchars : (choiceText texts).toList =
      '[' :: (['|'].intercalate (texts.map String.toList) ++ [']']) := by
    simp [choiceText, String.toList_intercalate]
  have hread : read (choiceText texts) = .ok [.alternation (verbatimOptions values)] := by
    have htokens : (Token.ofText (choiceText texts)).map Token.lexeme = .mark .openBracket ::
        Lexeme.scan (['|'].intercalate (texts.map String.toList) ++ [']']) := by
      rw [Token.ofText, Token.map_lexeme_locate, hchars]
      exact Lexeme.scan_mark .openBracket _
    obtain ⟨opened, inner, htext, hinner⟩ := exists_cons_of_map_lexeme htokens
    have hitems : Reads (choiceText texts).utf8ByteSize (.items .options) (inner ++ [])
        (verbatimOptions values) [] := reads_options h hne hinner
    rw [List.append_nil] at hitems
    rw [read_eq_ok_iff, htext]
    exact .bracket (by decide) hitems .finish
  rw [parse_eq_map, hread]
  rfl

end Template

open Template (verbatim verbatimOptions)

namespace Expansion

variable {σ : Type} [RandomSource σ] (modifiers : Modifiers) (lookUp : String → Expansion σ String)
  (world : World σ)

-- A literal text comes out as it is and leaves the world as it is.
theorem runOn_render_verbatim (value : String) :
    runOn (render modifiers lookUp (verbatim value).nodes) world = (.ok value, world) := by
  by_cases he : value = ""
  · subst he
    rfl
  · rw [Template.verbatim_nodes he]
    have hrender : runOn (render modifiers lookUp [.literal value]) world =
      (.ok (value ++ ""), world) := rfl
    rw [hrender, String.append_empty]

theorem runOn_renderOption_verbatim (values : List String) (index : Nat) :
    runOn (renderOption modifiers lookUp (verbatimOptions values) index) world =
      (.ok (values.getD index ""), world) := by
  induction values generalizing index with
  | nil => rfl
  | cons value values ih =>
      cases index with
      | zero => exact runOn_render_verbatim modifiers lookUp world value
      | succ index => exact ih index

-- A choice between literal texts asks the source once and changes nothing else.
theorem runOn_render_choice (values : List String) :
    let pick := (Roll.uniform values.length).run world.dice
    runOn (render modifiers lookUp [.alternation (verbatimOptions values)]) world =
      (.ok (values.getD pick.1 ""), { world with
        dice := pick.2
        journal := world.journal.push (.event (.alternation values.length pick.1)) }) := by
  intro pick
  let next : World σ := { world with
    dice := pick.2
    journal := world.journal.push (.event (.alternation values.length pick.1)) }
  have hchoose : runOn (choose [.alternation (verbatimOptions values)]) world =
      (.ok [pick.1], next) := by
    have hlength : (verbatimOptions values).length = values.length := List.length_map _
    simp only [choose, hlength]
    rfl
  rw [render, runOn_bind, hchoose]
  dsimp only
  rw [renderNodes, runOn_bind, List.headD_cons, runOn_renderOption_verbatim]
  have hend : runOn (renderNodes modifiers lookUp [] ([pick.1].tail)) next = (.ok "", next) := rfl
  dsimp only
  rw [runOn_bind, hend]
  dsimp only
  rw [runOn_pure, String.append_empty]

end Expansion

namespace Grammar

variable {σ : Type} [RandomSource σ] (grammar : Grammar σ)

-- An escaped text is the template of the text itself, whatever else is escaped in it: it comes out
-- without a question to the source and changes nothing. A choice between escaped texts asks for one
-- of them and gives it.
theorem evaluate_escaped :
    (∀ value text : String, Template.Escaped Template.textMarks value.toList text.toList →
      Template.parse text = .ok ⟨text, (verbatim value).nodes⟩ ∧
      grammar.evaluate text = { result := .ok value, grammar }) ∧
    ∀ values texts : List String, values ≠ [] →
      List.Forall₂ (fun value text =>
        Template.Escaped Template.optionMarks value.toList text.toList) values texts →
      let choice := "[" ++ "|".intercalate texts ++ "]"
      let pick := RandomSource.pickUniform grammar.source values.length
      Template.parse choice =
        .ok ⟨choice, [.alternation (values.map fun value => (verbatim value).nodes)]⟩ ∧
      grammar.evaluate choice = {
        result := .ok (values.getD pick.1 "")
        grammar := { grammar with source := pick.2 }
        requests := #[.uniform values.length]
        journal := #[.event (.alternation values.length pick.1)] } := by
  constructor
  · intro value text h
    have hp := Template.parse_escaped h
    refine ⟨hp, ?_⟩
    have hrun : runOn (Expansion.render grammar.modifiers (grammar.lookUp false)
        (verbatim value).nodes) grammar.world = (.ok value, grammar.world) :=
      runOn_render_verbatim _ _ _ value
    simp only [evaluate, hp, render, grammar.run_eq hrun]
    rfl
  · intro values texts hne h choice pick
    have hp := Template.parse_choiceText h hne
    refine ⟨hp, ?_⟩
    have hrun := runOn_render_choice grammar.modifiers (grammar.lookUp false) grammar.world values
    have hevaluate : grammar.evaluate choice =
        grammar.render ⟨choice, [.alternation (verbatimOptions values)]⟩ := by
      rw [evaluate, show choice = Template.choiceText texts from rfl, hp]
    rw [hevaluate, render, grammar.run_eq hrun]
    rfl

-- A text of marks and backslashes, and a choice in which one option is empty.
def blank : Grammar Script where
  symbols := ∅
  modifiers := .empty
  source := ⟨[5]⟩
  origin := "origin"
  maxDepth := 0

theorem evaluate_escaped_blank :
    (blank.evaluate "\\#\\1 \\[x]\\\\").result = .ok "#1 [x]\\" ∧
    (blank.evaluate "[\\|\\a||b.]").result = .ok "b." ∧
    (blank.evaluate "[\\|\\a||b.]").requests = #[.uniform 3] := by
  obtain ⟨htext, hchoice⟩ := evaluate_escaped blank
  have hescaped : Template.Escaped Template.textMarks "#1 [x]\\".toList
      "\\#\\1 \\[x]\\\\".toList :=
    .quoted (.quoted (.plain (by decide) (.quoted (.plain (by decide) (.plain (by decide)
      (.quoted .nil))))))
  have hoptions : List.Forall₂ (fun value text =>
      Template.Escaped Template.optionMarks value.toList text.toList) ["|a", "", "b."]
      ["\\|\\a", "", "b."] :=
    .cons (.quoted (.quoted .nil)) (.cons .nil
      (.cons (.plain (by decide) (.plain (by decide) .nil)) .nil))
  obtain ⟨-, hevaluate⟩ := hchoice _ _ (by simp) hoptions
  have hpicked : ["|a", "", "b."].getD (RandomSource.pickUniform blank.source 3).1 "" = "b." := by
    decide
  have hsource : "[" ++ "|".intercalate ["\\|\\a", "", "b."] ++ "]" = "[\\|\\a||b.]" := by decide
  rw [hsource] at hevaluate
  rw [(htext _ _ hescaped).2, hevaluate]
  exact ⟨rfl, congrArg Except.ok hpicked, rfl⟩

end Grammar

end StoryGrammar
