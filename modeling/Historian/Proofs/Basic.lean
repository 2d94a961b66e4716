namespace Historian

-- What it takes for a computation to succeed.

@[simp] theorem throw_eq_error : (throw e : Except ε α) = .error e :=
  rfl

@[simp] theorem pure_except {a : α} : (pure a : Except ε α) = .ok a :=
  rfl

@[simp] theorem error_bind {f : α → Except ε β} : (.error e >>= f) = .error e :=
  rfl

@[simp] theorem ok_bind {f : α → Except ε β} : (.ok a >>= f) = f a :=
  rfl

@[simp] theorem ok_mapError {f : ε → δ} : (.ok a : Except ε α).mapError f = .ok a :=
  rfl

@[simp] theorem error_mapError {f : ε → δ} : (.error e : Except ε α).mapError f = .error (f e) :=
  rfl

theorem bind_eq_ok {x : Except ε α} {f : α → Except ε β} :
    (x >>= f) = .ok b ↔ ∃ a, x = .ok a ∧ f a = .ok b := by
  cases x <;> simp [bind, Except.bind]

theorem bind_eq_error {x : Except ε α} {f : α → Except ε β} :
    (x >>= f) = .error e ↔ x = .error e ∨ ∃ a, x = .ok a ∧ f a = .error e := by
  cases x <;> simp

theorem bind_unit_eq_ok {x : Except ε PUnit} {f : PUnit → Except ε β} :
    (x >>= f) = .ok b ↔ x = .ok () ∧ f () = .ok b := by
  cases x <;> simp [bind, Except.bind]

theorem mapError_eq_ok {x : Except ε α} {f : ε → δ} : x.mapError f = .ok a ↔ x = .ok a := by
  cases x <;> simp

theorem toOption_eq_some {x : Except ε α} : x.toOption = some a ↔ x = .ok a := by
  cases x <;> simp [Except.toOption]

theorem pure_eq_ok {a b : α} : (pure a : Except ε α) = .ok b ↔ a = b := by
  simp [pure, Except.pure]

theorem forM_eq_ok {f : α → Except ε PUnit} {as : List α} :
    forM as f = .ok u ↔ ∀ a ∈ as, f a = .ok u := by
  induction as with
  | nil => simp
  | cons a as ih =>
    simp only [List.forM_cons, bind_eq_ok, ih, List.forall_mem_cons]
    exact ⟨fun ⟨_, h⟩ => h, fun h => ⟨_, h⟩⟩

theorem mem_of_mapM_eq_ok {f : α → Except ε β} {as : List α} (h : as.mapM f = .ok bs) :
    b ∈ bs ↔ ∃ a ∈ as, f a = .ok b := by
  induction as generalizing bs with
  | nil =>
    cases h
    simp
  | cons a as ih =>
    simp only [List.mapM_cons, bind_eq_ok, pure_eq_ok] at h
    obtain ⟨c, hc, cs, hcs, rfl⟩ := h
    simp [ih hcs, hc, eq_comm]

theorem exists_of_mapM_eq_ok {f : α → Except ε β} {as : List α} (h : as.mapM f = .ok bs)
    (ha : a ∈ as) : ∃ b, f a = .ok b := by
  induction as generalizing bs with
  | nil => cases ha
  | cons a' as ih =>
    simp only [List.mapM_cons, bind_eq_ok] at h
    obtain ⟨c, hc, cs, hcs, -⟩ := h
    rcases List.mem_cons.mp ha with rfl | ha
    · exact ⟨c, hc⟩
    · exact ih hcs ha

theorem mapM_map_eq_ok {f : α → Except ε β} {g : β → α} {bs : List β}
    (h : ∀ b ∈ bs, f (g b) = .ok b) : (bs.map g).mapM f = .ok bs := by
  induction bs with
  | nil => rfl
  | cons b bs ih =>
    rw [List.map_cons, List.mapM_cons, h b (.head _), ih fun b hb => h b (.tail _ hb)]
    rfl

theorem toString_text (s : String) : toString s = s :=
  rfl

end Historian
