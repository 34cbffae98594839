import Mathlib.Data.List.Chain
import Mathlib.Data.List.Nodup
import StoryGrammar.Lint

namespace StoryGrammar.Lint

open Relation

-- Where a search is: the names that it has not come to yet, and those that it looks at next.
structure Search where
  names : List String
  queue : List String

namespace Search

-- One step of a search. What a name leads to may join the queue in any order, and more than once.
inductive Step (next : String → List String) : Search → Search → Prop
  | visit {name : String} {names queue more : List String} : name ∈ names →
      (∀ target, target ∈ more ↔ target ∈ next name) →
      Step next ⟨names, name :: queue⟩ ⟨names.erase name, queue ++ more⟩
  | skip {name : String} {names queue : List String} : name ∉ names →
      Step next ⟨names, name :: queue⟩ ⟨names, queue⟩

variable {next : String → List String} {all : List String} {origin : String}

-- A search goes on as long as there is something in the queue.
theorem exists_step (next : String → List String) (search : Search) :
    (∃ later, Step next search later) ∨ search.queue = [] := by
  obtain ⟨names, queue⟩ := search
  cases queue with
  | nil => exact .inr rfl
  | cons name queue =>
      by_cases hm : name ∈ names
      · exact .inl ⟨_, .visit hm fun _ => Iff.rfl⟩
      · exact .inl ⟨_, .skip hm⟩

-- There are fewer names after a step, or as many names and a shorter queue.
theorem wellFounded_step (next : String → List String) :
    WellFounded fun later search => Step next search later := by
  refine Subrelation.wf (r := InvImage (Prod.Lex (· < ·) (· < ·)) fun search : Search =>
    (search.names.length, search.queue.length)) ?_ (InvImage.wf _ WellFoundedRelation.wf)
  intro later search hstep
  cases hstep with
  | visit hm _ =>
      refine Prod.Lex.left _ _ ?_
      rw [List.length_erase_of_mem hm]
      exact Nat.sub_lt (List.length_pos_of_mem hm) Nat.one_pos
  | skip _ => exact Prod.Lex.right _ (by simp)

-- A search has come to a name, or will look at it.
def Covers (search : Search) (name : String) : Prop :=
  name ∉ search.names ∨ name ∈ search.queue

-- What was covered stays covered.
theorem Covers.step {search later : Search} {name : String} (h : search.Covers name)
    (hn : search.names.Nodup) (hs : Step next search later) : later.Covers name := by
  cases hs with
  | visit _ _ =>
      rcases h with hout | hq
      · exact .inl fun he => hout (List.mem_of_mem_erase he)
      · rcases List.mem_cons.mp hq with rfl | hq
        · exact .inl hn.not_mem_erase
        · exact .inr (List.mem_append_left _ hq)
  | skip hm =>
      rcases h with hout | hq
      · exact .inl hout
      · rcases List.mem_cons.mp hq with rfl | hq
        · exact .inl hm
        · exact .inr hq

-- What is known in the course of a search that starts at the origin. The names are left in the order
-- in which they were.
structure Sound (next : String → List String) (all : List String) (origin : String)
    (search : Search) : Prop where
  kept : ∃ out : String → Bool, search.names = all.filter out
  visited : ∀ name ∈ all, name ∉ search.names →
    ReflTransGen (fun name target => target ∈ next name) origin name
  queued : ∀ name ∈ search.queue, ReflTransGen (fun name target => target ∈ next name) origin name
  started : search.Covers origin
  closed : ∀ name ∈ all, name ∉ search.names → ∀ target ∈ next name, search.Covers target

theorem sound_start (next : String → List String) (all : List String) (origin : String) :
    Sound next all origin ⟨all, [origin]⟩ where
  kept := ⟨fun _ => true, by simp⟩
  visited _ hm hn := absurd hm hn
  queued name hm := by
    rw [List.mem_singleton.mp hm]
  started := .inr (List.mem_singleton_self origin)
  closed _ hm hn := absurd hm hn

theorem Sound.nodup (hn : all.Nodup) {search : Search} (h : Sound next all origin search) :
    search.names.Nodup := by
  obtain ⟨out, hout⟩ := h.kept
  rw [hout]
  exact hn.filter out

theorem Sound.step (hn : all.Nodup) {search later : Search} (h : Sound next all origin search)
    (hs : Step next search later) : Sound next all origin later := by
  have hnodup : search.names.Nodup := h.nodup hn
  have hcovers {name : String} (hc : search.Covers name) : later.Covers name := hc.step hnodup hs
  cases hs with
  | @visit first names queue more hm hmore =>
      obtain ⟨out, hout⟩ := h.kept
      have hfirst := h.queued first List.mem_cons_self
      have hcases {name : String} (he : name ∉ names.erase first) : name = first ∨ name ∉ names :=
        or_iff_not_imp_left.mpr fun hne hmem => he ((List.mem_erase_of_ne hne).mpr hmem)
      refine ⟨⟨fun name => name != first && out name, ?_⟩, ?_, ?_, hcovers h.started, ?_⟩
      · rw [hnodup.erase_eq_filter, show names = all.filter out from hout, List.filter_filter]
      · intro name ha he
        rcases hcases he with rfl | hout
        · exact hfirst
        · exact h.visited name ha hout
      · intro name hq
        rcases List.mem_append.mp hq with hq | hq
        · exact h.queued name (List.mem_cons_of_mem _ hq)
        · exact hfirst.tail ((hmore name).mp hq)
      · -- what the name itself leads to waits in the queue from now on
        intro name ha he target ht
        rcases hcases he with rfl | hout
        · exact .inr (List.mem_append_right _ ((hmore target).mpr ht))
        · exact hcovers (h.closed name ha hout target ht)
  | skip hm =>
      exact ⟨h.kept, h.visited, fun name hq => h.queued name (List.mem_cons_of_mem _ hq),
        hcovers h.started, fun name ha hout target ht => hcovers (h.closed name ha hout target ht)⟩

theorem sound_of_steps (hn : all.Nodup) {search : Search}
    (h : ReflTransGen (Step next) ⟨all, [origin]⟩ search) : Sound next all origin search := by
  induction h with
  | refl => exact sound_start next all origin
  | tail _ hstep ih => exact ih.step hn hstep

open Classical in
-- Where a search ends, the names are left that no way leads to, whatever course it has taken.
theorem Sound.names_eq {search : Search} (h : Sound next all origin search)
    (hq : search.queue = []) (hnext : ∀ name, next name ≠ [] → name ∈ all) :
    search.names = all.filter fun name =>
      decide ¬ReflTransGen (fun name target => target ∈ next name) origin name := by
  have hleft {name : String} (hc : search.Covers name) : name ∉ search.names := by
    rcases hc with hout | hm
    · exact hout
    · rw [hq] at hm
      exact absurd hm List.not_mem_nil
  have hreached {name : String}
      (hr : ReflTransGen (fun name target => target ∈ next name) origin name) :
      name ∉ search.names := by
    induction hr with
    | refl => exact hleft h.started
    | @tail name target _ ht ih =>
        exact hleft (h.closed name (hnext name (List.ne_nil_of_mem ht)) ih target ht)
  obtain ⟨out, hout⟩ := h.kept
  rw [hout]
  refine List.filter_congr fun name ha => ?_
  have hmem : name ∈ search.names ↔ out name = true := by
    rw [hout, List.mem_filter]
    exact and_iff_right ha
  rw [Bool.eq_iff_iff, ← hmem, decide_eq_true_iff]
  exact ⟨fun hm hr => hreached hr hm, fun hn => not_not.mp fun hm => hn (h.visited name ha hm)⟩

end Search

-- The program takes one of these courses to its end.
theorem steps_unreached (next : String → List String) (names queue : List String) :
    ReflTransGen (Search.Step next) ⟨names, queue⟩ ⟨unreached next names queue, []⟩ := by
  fun_induction unreached next names queue with
  | case1 names => exact .refl
  | case2 names first queue hm ih => exact ih.head (.visit hm fun _ => Iff.rfl)
  | case3 names first queue hm ih => exact ih.head (.skip hm)

end StoryGrammar.Lint
