import StoryGrammar.Proofs.Grammar.Rollback

namespace StoryGrammar

open Expansion

namespace Expansion

variable {σ α β : Type} {limit limit' : Nat}

-- Whatever the first expansion comes to, the second does the same, unless it is the limit that ends
-- the first.
def Deepens (limit : Nat) (α : Type) (m m' : Expansion σ α) : Prop :=
  ∀ world, (∃ name, (runOn m world).1 = .error (.depthExceeded name limit)) ∨
    runOn m' world = runOn m world

theorem deepens_refl (m : Expansion σ α) : Deepens limit α m m := fun _ => .inr rfl

theorem deepens_bind {m m' : Expansion σ α} {f f' : α → Expansion σ β}
    (hm : Deepens limit α m m') (hf : ∀ a, Deepens limit β (f a) (f' a)) :
    Deepens limit β (m >>= f) (m' >>= f') := by
  intro world
  rw [runOn_bind, runOn_bind]
  rcases hr : runOn m world with ⟨cause | a, next⟩
  · rcases hm world with ⟨name, hname⟩ | hsame
    · rw [hr] at hname
      obtain rfl := Except.error.inj hname
      exact .inl ⟨name, rfl⟩
    · rw [hsame, hr]
      exact .inr rfl
  · rcases hm world with ⟨name, hname⟩ | hsame
    · rw [hr] at hname
      cases hname
    · rw [hsame, hr]
      exact hf a next

variable [RandomSource σ]

theorem deepens_relates : Relates (σ := σ) (Deepens limit) where
  pure a := deepens_refl (pure a)
  bind := deepens_bind
  record event := deepens_refl (record event)
  pick count := deepens_refl (roll (Roll.uniform count))

variable (modifiers : Modifiers)

omit [RandomSource σ] in
theorem deepens_asksIn {lookUp lookUp' : String → Expansion σ String}
    (h : ∀ name, Deepens limit String (lookUp name) (lookUp' name)) (nodes : List Template.Node) :
    AsksIn modifiers (fun name => Deepens limit String (lookUp name) (lookUp' name))
      (fun _ => True) (fun _ => True) nodes :=
  asksIn_of_refersIn fun target _ => ⟨h target.name, by simp⟩

theorem deepens_drawText {lookUp lookUp' : String → Expansion σ String}
    (h : ∀ name, Deepens limit String (lookUp name) (lookUp' name)) (name : String) :
    Deepens limit String (drawText modifiers lookUp name) (drawText modifiers lookUp' name) := by
  have hR : RelatesIn (fun _ => True) (fun _ => True) (Deepens (σ := σ) limit) :=
    deepens_relates.relatesIn
  unfold drawText
  refine deepens_bind (deepens_refl _) fun found => ?_
  cases found with
  | none => exact deepens_refl _
  | some symbol =>
      have heligible := eligibility_related modifiers hR symbol fun _ _ condition _ =>
        deepens_asksIn modifiers h condition.nodes
      refine deepens_bind heligible fun mask => ?_
      refine deepens_bind (deepens_refl (drawCandidate name mask)) fun drawn => ?_
      cases drawn with
      | none => exact deepens_refl _
      | some candidate =>
          refine deepens_bind (deepens_refl (templateOf candidate.body)) fun template => ?_
          exact render_related modifiers hR template.nodes (deepens_asksIn modifiers h _)

-- A larger budget only matters where the smaller one is used up.
theorem deepens_lookUp {budget budget' : Nat} (hb : budget ≤ budget') (active : List String)
    (force : Bool) (name : String) :
    Deepens (σ := σ) limit String (lookUp modifiers limit budget active force name)
      (lookUp modifiers limit' budget' active force name) := by
  intro world
  rw [runOn_lookUp, runOn_lookUp]
  cases world.symbols[name]? with
  | none => exact .inr rfl
  | some symbol =>
      dsimp only
      cases (if force then none else symbol.value) with
      | some value => exact .inr rfl
      | none =>
          by_cases ha : name ∈ active
          · simp only [ha, if_true]
            exact .inr trivial
          · simp only [ha, if_false]
            cases budget with
            | zero => exact .inl ⟨name, rfl⟩
            | succ budget =>
                obtain ⟨more, rfl⟩ : ∃ more, budget' = more + 1 := ⟨budget' - 1, by omega⟩
                have hdraw := deepens_drawText modifiers (fun other =>
                  deepens_lookUp (by omega : budget ≤ more) (active ++ [name]) false other) name
                exact deepens_bind (deepens_refl (note (.opened (active ++ [name])))) (fun _ =>
                  deepens_bind hdraw fun value => deepens_refl _) world
termination_by budget

end Expansion

namespace Grammar

variable {σ : Type}

def withMaxDepth (grammar : Grammar σ) (maxDepth : Nat) : Grammar σ := { grammar with maxDepth }

end Grammar

namespace Outcome

variable {σ α : Type}

def withMaxDepth (outcome : Outcome σ α) (maxDepth : Nat) : Outcome σ α :=
  { outcome with grammar := outcome.grammar.withMaxDepth maxDepth }

end Outcome

namespace Grammar

variable {σ : Type} (grammar : Grammar σ) {limit limit' : Nat}

-- Either the limit ends the first, or the second is the same but for its limit.
def Outlasts {α : Type} (limit limit' : Nat) (low high : Outcome σ α) : Prop :=
  (∃ name, low.result = .error (.depthExceeded name limit)) ∨ high = low.withMaxDepth limit'

theorem run_outlasts {α : Type} {m m' : Expansion σ α} (h : Deepens limit α m m') :
    Outlasts limit limit' ((grammar.withMaxDepth limit).run m)
      ((grammar.withMaxDepth limit').run m') := by
  rcases h grammar.world with hdeep | hsame
  · exact .inl hdeep
  · refine .inr ?_
    rw [(grammar.withMaxDepth limit').run_eq hsame]
    rfl

variable [RandomSource σ]

theorem resolve_outlasts (h : limit ≤ limit') (name : String) (force : Bool) :
    Outlasts limit limit' ((grammar.withMaxDepth limit).resolve name force)
      ((grammar.withMaxDepth limit').resolve name force) := by
  unfold resolve
  by_cases hc : grammar.contains name = true
  · have hlow : (grammar.withMaxDepth limit).contains name = true := hc
    have hhigh : (grammar.withMaxDepth limit').contains name = true := hc
    rw [if_pos hlow, if_pos hhigh]
    exact grammar.run_outlasts (deepens_lookUp grammar.modifiers h [] force name)
  · have hlow : ¬(grammar.withMaxDepth limit).contains name = true := hc
    have hhigh : ¬(grammar.withMaxDepth limit').contains name = true := hc
    rw [if_neg hlow, if_neg hhigh]
    exact .inr rfl

theorem expandSymbol_outlasts (h : limit ≤ limit') (name : String) (force : Bool) :
    Outlasts limit limit' ((grammar.withMaxDepth limit).expandSymbol name force)
      ((grammar.withMaxDepth limit').expandSymbol name force) := by
  rcases grammar.resolve_outlasts h name force with ⟨other, hdeep⟩ | hsame
  · refine .inl ⟨other, ?_⟩
    rw [expandSymbol_result, hdeep]
  · refine .inr ?_
    unfold expandSymbol
    rw [hsame]
    obtain ⟨result, changed, requests, journal⟩ := (grammar.withMaxDepth limit).resolve name force
    cases result <;> rfl

theorem answer_outlasts (h : limit ≤ limit') (query : Query) :
    Outlasts limit limit' ((grammar.withMaxDepth limit).answer query)
      ((grammar.withMaxDepth limit').answer query) := by
  cases query with
  | get name => exact grammar.resolve_outlasts h name false
  | expandSymbol name force => exact grammar.expandSymbol_outlasts h name force
  | expand => exact grammar.expandSymbol_outlasts h grammar.origin false
  | evaluate text =>
      simp only [answer, evaluate]
      cases Template.parse text with
      | error cause => exact .inr rfl
      | ok template =>
          have hlookUp (name : String) : Deepens (σ := σ) limit String
              (Expansion.lookUp grammar.modifiers limit limit [] false name)
              (Expansion.lookUp grammar.modifiers limit' limit' [] false name) :=
            deepens_lookUp grammar.modifiers h [] false name
          exact grammar.run_outlasts (render_related grammar.modifiers deepens_relates.relatesIn
            template.nodes (deepens_asksIn grammar.modifiers hlookUp _))

-- The depth limit shows in nothing but the failures that it is the cause of. Whatever an answer
-- comes to under a limit, other than such a failure, it comes to under every larger one, with the
-- same questions to the source, the same steps on the way and the same grammar afterwards.
theorem answer_of_raised_limit (h : limit ≤ limit') (query : Query)
    (hd : ∀ name deep, ((grammar.withMaxDepth limit).answer query).result ≠
      .error (.depthExceeded name deep)) :
    let low := (grammar.withMaxDepth limit).answer query
    let high := (grammar.withMaxDepth limit').answer query
    high.result = low.result ∧ high.requests = low.requests ∧ high.journal = low.journal ∧
      high.grammar = low.grammar.withMaxDepth limit' := by
  intro low high
  rcases grammar.answer_outlasts h query with ⟨name, hdeep⟩ | hsame
  · exact absurd hdeep (hd name limit)
  · have hhigh : high = low.withMaxDepth limit' := hsame
    rw [hhigh]
    exact ⟨rfl, rfl, rfl, rfl⟩

-- Two symbols deep, the tale goes round in a circle before the limit is reached.
theorem answer_of_raised_limit_tale :
    (∀ name deep, ((tale.withMaxDepth 2).answer (.expandSymbol "tale" true)).result ≠
      .error (.depthExceeded name deep)) ∧
    ((tale.withMaxDepth 1).answer (.expandSymbol "tale" true)).result =
      .error (.depthExceeded "hero" 1) ∧
    ((tale.withMaxDepth 9).answer (.expandSymbol "tale" true)).result =
      .error (.recursion "end" ["tale", "end", "end"]) := by
  have hlow : ((tale.withMaxDepth 2).answer (.expandSymbol "tale" true)).result =
      .error (.recursion "end" ["tale", "end", "end"]) := by decide +kernel
  have hdeep : ∀ name deep, ((tale.withMaxDepth 2).answer (.expandSymbol "tale" true)).result ≠
      .error (.depthExceeded name deep) := by simp [hlow]
  have hshallow : ((tale.withMaxDepth 1).answer (.expandSymbol "tale" true)).result =
      .error (.depthExceeded "hero" 1) := by decide +kernel
  obtain ⟨hsame, -⟩ := answer_of_raised_limit tale (by decide : 2 ≤ 9) _ hdeep
  exact ⟨hdeep, hshallow, hsame.trans hlow⟩

end Grammar

end StoryGrammar
