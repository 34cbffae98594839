import StoryGrammar.Proofs.Expansion.Related
import StoryGrammar.Proofs.Template.Reads

namespace StoryGrammar

open Expansion

namespace Template

-- Each alternation has at least one option to choose, at any depth.
abbrev HasOptions (nodes : List Node) : Prop := Node.Throughout (OffersIn (0 < ·)) nodes

namespace Node

variable {node : Node} {rest : List Node}

theorem hasOptions_nil : HasOptions [] := ⟨by simp [OffersIn], inside_nil⟩

theorem hasOptions_cons : HasOptions (node :: rest) ↔ HasOptions [node] ∧ HasOptions rest := by
  have hsplit : Inside (OffersIn (0 < ·)) ([node] ++ rest) ↔ _ := inside_append
  simp only [List.singleton_append] at hsplit
  simp only [HasOptions, Throughout, hsplit, OffersIn, List.mem_cons, List.not_mem_nil, or_false]
  constructor
  · rintro ⟨h, hnode, hrest⟩
    exact ⟨⟨fun options he => h options (.inl he), hnode⟩,
      fun options hm => h options (.inr hm), hrest⟩
  · rintro ⟨⟨h, hnode⟩, hmore, hrest⟩
    exact ⟨fun options he => he.elim (h options) (hmore options), hnode, hrest⟩

theorem hasOptions_literal (text : String) : HasOptions [.literal text] :=
  ⟨by simp [OffersIn], by simp⟩

theorem hasOptions_alternation {options : List (List Node)} :
    HasOptions [.alternation options] ↔ options ≠ [] ∧ ∀ option ∈ options, HasOptions option := by
  simp [HasOptions, Throughout, OffersIn, List.length_pos_iff]

theorem hasOptions_consText {text : String} {nodes : List Node} (h : HasOptions nodes) :
    HasOptions (consText text nodes) := by
  unfold consText
  split
  · exact hasOptions_cons.mpr ⟨hasOptions_literal _, (hasOptions_cons.mp h).2⟩
  · exact hasOptions_cons.mpr ⟨hasOptions_literal _, h⟩

end Node

-- What is read offers a choice wherever it has alternations.
def Phrase.Offers : (phrase : Phrase) → phrase.Value → Prop
  | .nodes _, sequence => HasOptions sequence
  | .items _, sequences => sequences ≠ [] ∧ ∀ sequence ∈ sequences, HasOptions sequence
  | .arguments, sequences => ∀ sequence ∈ sequences, HasOptions sequence
  | .calls, modifiers => ∀ call ∈ modifiers, ∀ argument ∈ call.arguments, HasOptions argument
  | .reference, target => target.Inside (OffersIn (0 < ·))
  | .span, node => HasOptions [node]
  | .branching _, compared => HasOptions [.conditional compared]
  | .otherwise, sequence => HasOptions sequence

open Node

theorem Reads.offers {stop : Nat} {phrase : Phrase} {tokens rest : List Token}
    {value : phrase.Value} (h : Reads stop phrase tokens value rest) : phrase.Offers value := by
  induction h with
  | finish | stop _ | close _ _ => exact hasOptions_nil
  | hash _ _ _ hnode hrest => exact hasOptions_cons.mpr ⟨hnode, hrest⟩
  | bracket _ _ _ hoptions hrest =>
      exact hasOptions_cons.mpr ⟨hasOptions_alternation.mpr hoptions, hrest⟩
  | text _ _ hrest => exact hasOptions_consText hrest
  | lastItem _ hitem => exact ⟨by simp, List.forall_mem_singleton.mpr hitem⟩
  | item _ _ hitem hitems => exact ⟨by simp, List.forall_mem_cons.mpr ⟨hitem, hitems.2⟩⟩
  | noArguments _ | emptyArguments => simp [Phrase.Offers]
  | arguments _ _ hitems => exact hitems.2
  | noCalls _ => simp [Phrase.Offers]
  | call _ _ _ harguments hcalls => exact List.forall_mem_cons.mpr ⟨harguments, hcalls⟩
  | reference _ _ hcalls => exact hcalls
  | referenceSpan _ htarget => exact ⟨by simp [OffersIn], inside_reference.mpr ⟨htarget, inside_nil⟩⟩
  | conditionalSpan _ hbranching => exact hbranching
  | branching _ _ _ _ hsubject htest htrue hfalse =>
      exact ⟨by simp [OffersIn],
        inside_conditional.mpr ⟨hsubject, htest, htrue, hfalse, inside_nil⟩⟩
  | noOtherwise _ => exact hasOptions_nil
  | otherwise _ hnodes => exact hnodes

theorem hasOptions_of_parse {text : String} {template : Template}
    (h : Template.parse text = .ok template) : HasOptions template.nodes := by
  obtain ⟨nodes, hread, h⟩ := Except.bind_eq_ok_iff.mp h
  obtain rfl := Except.ok.inj h
  exact (read_eq_ok_iff.mp hread).offers

theorem hasOptions_verbatim (text : String) : HasOptions (verbatim text).nodes := by
  unfold verbatim
  split
  · exact hasOptions_nil
  · exact hasOptions_literal text

end Template

end StoryGrammar
