namespace Except

variable {ε α β : Type}

theorem ok_bind (a : α) (f : α → Except ε β) : (.ok a >>= f) = f a := rfl

theorem bind_eq_ok_iff {m : Except ε α} {f : α → Except ε β} {b : β} :
    m >>= f = .ok b ↔ ∃ a, m = .ok a ∧ f a = .ok b := by
  cases m with
  | error cause => simp [bind, Except.bind]
  | ok a => simp [bind, Except.bind]

theorem map_eq_ok_iff {m : Except ε α} {f : α → β} {b : β} :
    m.map f = .ok b ↔ ∃ a, m = .ok a ∧ f a = b := by
  cases m <;> simp [Except.map]

theorem map_eq_error_iff {m : Except ε α} {f : α → β} {cause : ε} :
    m.map f = .error cause ↔ m = .error cause := by
  cases m <;> simp [Except.map]

theorem mapError_eq_ok_iff {δ : Type} {m : Except ε α} {f : ε → δ} {a : α} :
    m.mapError f = .ok a ↔ m = .ok a := by
  cases m with
  | error cause => exact ⟨nofun, nofun⟩
  | ok b => exact ⟨fun h => congrArg ok (ok.inj h), fun h => congrArg ok (ok.inj h)⟩

theorem map_map {γ : Type} (m : Except ε α) (f : α → β) (g : β → γ) :
    (m.map f).map g = m.map (fun a => g (f a)) := by
  cases m <;> rfl

theorem mapError_map {δ : Type} (m : Except ε α) (f : α → β) (g : ε → δ) :
    (m.map f).mapError g = (m.mapError g).map f := by
  cases m <;> rfl

theorem exists_of_any_toOption {m : Except ε α} {p : α → Bool} (h : m.toOption.any p = true) :
    ∃ a, m = .ok a ∧ p a = true := by
  cases m with
  | error cause => cases h
  | ok a => exact ⟨a, rfl, h⟩

-- What comes out of a list was made from something in it.
theorem exists_of_mem_mapM {f : α → Except ε β} {items : List α} {results : List β}
    (h : items.mapM f = .ok results) {b : β} (hb : b ∈ results) : ∃ a ∈ items, f a = .ok b := by
  induction items generalizing results with
  | nil =>
      obtain rfl : results = [] := by simpa [pure, Except.pure] using h.symm
      simp at hb
  | cons a items ih =>
      rw [List.mapM_cons] at h
      obtain ⟨first, hf, h⟩ := bind_eq_ok_iff.mp h
      obtain ⟨rest, hr, h⟩ := bind_eq_ok_iff.mp h
      obtain rfl : results = first :: rest := by simpa [pure, Except.pure] using h.symm
      rcases List.mem_cons.mp hb with rfl | hb
      · exact ⟨a, by simp, hf⟩
      · obtain ⟨other, ho, hfo⟩ := ih hr hb
        exact ⟨other, by simp [ho], hfo⟩

theorem length_of_mapM {f : α → Except ε β} {items : List α} {results : List β}
    (h : items.mapM f = .ok results) : results.length = items.length := by
  induction items generalizing results with
  | nil =>
      obtain rfl := ok.inj h
      rfl
  | cons a items ih =>
      rw [List.mapM_cons] at h
      obtain ⟨first, -, h⟩ := bind_eq_ok_iff.mp h
      obtain ⟨rest, hr, h⟩ := bind_eq_ok_iff.mp h
      obtain rfl := ok.inj h
      rw [List.length_cons, List.length_cons, ih hr]

-- A loop of which each step succeeds comes to its end.
theorem exists_foldlM {f : β → α → Except ε β} {items : List α}
    (h : ∀ b, ∀ a ∈ items, ∃ next, f b a = .ok next) (b : β) :
    ∃ last, items.foldlM f b = .ok last := by
  induction items generalizing b with
  | nil => exact ⟨b, rfl⟩
  | cons a items ih =>
      obtain ⟨next, hn⟩ := h b a (by simp)
      rw [List.foldlM_cons, hn, ok_bind]
      exact ih (fun b other ho => h b other (by simp [ho])) next

-- What each step of a loop keeps, the loop keeps. It may speak of the items that are still to come.
theorem foldlM_keeps {f : β → α → Except ε β} {I : List α → β → Prop}
    (step : ∀ a rest b next, I (a :: rest) b → f b a = .ok next → I rest next) {items : List α}
    {b last : β} (hi : I items b) (h : items.foldlM f b = .ok last) : I [] last := by
  induction items generalizing b with
  | nil => exact ok.inj h ▸ hi
  | cons a items ih =>
      rw [List.foldlM_cons] at h
      obtain ⟨next, hn, h⟩ := bind_eq_ok_iff.mp h
      exact ih (step a items b next hi hn) h

-- A loop that fails does so at the first item that it cannot take.
theorem exists_of_foldlM_eq_error {f : β → α → Except ε β} {items : List α} {b : β} {cause : ε}
    (h : items.foldlM f b = .error cause) :
    ∃ front a back mid, items = front ++ a :: back ∧ front.foldlM f b = .ok mid ∧
      f mid a = .error cause := by
  induction items generalizing b with
  | nil => cases h
  | cons a items ih =>
      rw [List.foldlM_cons] at h
      cases hf : f b a with
      | error first =>
          rw [hf] at h
          exact ⟨[], a, items, b, rfl, rfl, hf.trans h⟩
      | ok next =>
          rw [hf, ok_bind] at h
          obtain ⟨front, other, back, mid, rfl, hm, hc⟩ := ih h
          refine ⟨a :: front, other, back, mid, rfl, ?_, hc⟩
          rw [List.foldlM_cons, hf, ok_bind, hm]

end Except

namespace ExceptT

variable {ε σ α β : Type}

-- A step that may fail, on a state. If it does, so does what it begins, in the state that it leaves.
theorem run_run_bind (m : ExceptT ε (StateM σ) α) (f : α → ExceptT ε (StateM σ) β) (s : σ) :
    (m >>= f).run.run s =
      match m.run.run s with
      | (.ok a, next) => (f a).run.run next
      | (.error cause, next) => (.error cause, next) := by
  change (m >>= f).run.run s = match m s with
    | (.ok a, next) => (f a).run.run next
    | (.error cause, next) => (.error cause, next)
  simp only [bind, ExceptT.bind, mk, run, StateT.bind, StateT.run, ExceptT.bindCont]
  rcases m s with ⟨_ | a, next⟩ <;> rfl

-- A handler goes on in the state in which the step has failed.
theorem run_run_tryCatch (m : ExceptT ε (StateM σ) α) (f : ε → ExceptT ε (StateM σ) α) (s : σ) :
    (tryCatch m f).run.run s =
      match m.run.run s with
      | (.ok a, next) => (.ok a, next)
      | (.error cause, next) => (f cause).run.run next := by
  change (tryCatch m f).run.run s = match m s with
    | (.ok a, next) => (.ok a, next)
    | (.error cause, next) => (f cause).run.run next
  simp only [tryCatch, tryCatchThe, MonadExceptOf.tryCatch, ExceptT.tryCatch, bind, mk, run,
    StateT.bind, StateT.run]
  rcases m s with ⟨_ | a, next⟩ <;> rfl

end ExceptT
