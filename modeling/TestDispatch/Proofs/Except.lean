import Mathlib.Control.Monad.Basic
/-! The `Except` monad on known results. Readers and loaders of the library are written as `do`
blocks over `Except`; these rewrite a bind or a `pure` once the computation it opens has
produced its value or its error, so that proofs can run a block symbolically. -/
namespace TestDispatch

variable {ε α β : Type}

@[simp] theorem Except.ok_bind (a : α) (f : α → Except ε β) : (Except.ok a >>= f) = f a := rfl

@[simp] theorem Except.error_bind (e : ε) (f : α → Except ε β) :
    (Except.error e >>= f) = .error e := rfl

@[simp] theorem Except.pure_def (a : α) : (pure a : Except ε α) = .ok a := rfl

@[simp] theorem Except.throw_def (e : ε) : (throw e : Except ε α) = .error e := rfl

theorem Except.bind_eq_ok {x : Except ε α} {f : α → Except ε β} {b : β} :
    (x >>= f) = .ok b ↔ ∃ a, x = .ok a ∧ f a = .ok b := by
  cases x with
  | error e => simp
  | ok a => simp

theorem Except.bind_error {P : ε → Prop} {x : Except ε α} {f : α → Except ε β}
    (hx : ∀ e, x = .error e → P e) (hf : ∀ a e, f a = .error e → P e) :
    ∀ e, (x >>= f) = .error e → P e := by
  intro e h
  cases x with
  | error e' =>
    rw [Except.error_bind] at h
    cases h
    exact hx e rfl
  | ok a =>
    rw [Except.ok_bind] at h
    exact hf a e h

theorem Except.fmap_eq_ok {x : Except ε α} {f : α → β} {b : β} :
    (f <$> x) = .ok b ↔ ∃ a, x = .ok a ∧ f a = b := by
  cases x with
  | error e => simp
  | ok a => simp

theorem Except.map_eq_ok {x : Except ε α} {f : α → β} {b : β} :
    x.map f = .ok b ↔ ∃ a, x = .ok a ∧ f a = b := by
  cases x <;> simp [Except.map]

theorem Except.map_eq_error {x : Except ε α} {f : α → β} {e : ε} :
    x.map f = .error e ↔ x = .error e := by
  cases x <;> simp [Except.map]

theorem Except.mapError_eq_ok {ε' : Type} {x : Except ε α} {f : ε → ε'} {a : α} :
    x.mapError f = .ok a ↔ x = .ok a := by
  cases x <;> simp [Except.mapError]

theorem Except.mapError_eq_error {ε' : Type} {x : Except ε α} {f : ε → ε'} {e : ε'} :
    x.mapError f = .error e ↔ ∃ e₀, x = .error e₀ ∧ f e₀ = e := by
  cases x <;> simp [Except.mapError]

theorem Except.mapM_cons_eq_ok {f : α → Except ε β} {x : α} {xs : List α} {ys : List β} :
    (x :: xs).mapM f = .ok ys ↔ ∃ y ys', f x = .ok y ∧ xs.mapM f = .ok ys' ∧ ys = y :: ys' := by
  rw [List.mapM_cons]
  cases f x <;> cases xs.mapM f <;> simp [eq_comm]

theorem Except.mapM_cons_eq_error {f : α → Except ε β} {x : α} {xs : List α} {e : ε} :
    (x :: xs).mapM f = .error e ↔ f x = .error e ∨ ∃ y, f x = .ok y ∧ xs.mapM f = .error e := by
  rw [List.mapM_cons]
  cases f x <;> cases xs.mapM f <;> simp

theorem Except.exists_mapM_eq_ok {f : α → Except ε β} {xs : List α} :
    (∃ ys, xs.mapM f = .ok ys) ↔ ∀ x ∈ xs, ∃ y, f x = .ok y := by
  induction xs with
  | nil => simp
  | cons x xs ih =>
    simp only [Except.mapM_cons_eq_ok, List.forall_mem_cons, ← ih]
    constructor
    · rintro ⟨_, y, ys, hy, hys, -⟩
      exact ⟨⟨y, hy⟩, ys, hys⟩
    · rintro ⟨⟨y, hy⟩, ys, hys⟩
      exact ⟨_, y, ys, hy, hys, rfl⟩

/-- A `mapM` fails with the failure of the first element that fails. -/
theorem Except.mapM_eq_error {f : α → Except ε β} {xs : List α} {e : ε} :
    xs.mapM f = .error e ↔
      ∃ l x r, xs = l ++ x :: r ∧ (∀ y ∈ l, ∃ z, f y = .ok z) ∧ f x = .error e := by
  induction xs with
  | nil => simp
  | cons x xs ih =>
    rw [Except.mapM_cons_eq_error, ih]
    constructor
    · rintro (hx | ⟨y, hy, l, z, r, rfl, hl, hz⟩)
      · exact ⟨[], x, xs, rfl, by simp, hx⟩
      · refine ⟨x :: l, z, r, rfl, fun w hw => ?_, hz⟩
        rcases List.mem_cons.mp hw with rfl | hw
        · exact ⟨y, hy⟩
        · exact hl w hw
    · rintro ⟨_ | ⟨v, l⟩, z, r, h, hl, hz⟩
      · obtain ⟨rfl, rfl⟩ := List.cons.inj h
        exact .inl hz
      · obtain ⟨rfl, rfl⟩ := List.cons.inj h
        obtain ⟨y, hy⟩ := hl _ List.mem_cons_self
        exact .inr ⟨y, hy, l, z, r, rfl, fun w hw => hl w (List.mem_cons_of_mem _ hw), hz⟩

theorem Except.eq_ok_of_toOption {x : Except ε α} {a : α} (h : x.toOption = some a) :
    x = .ok a := by
  cases x <;> simp_all [Except.toOption]

/-- A computation whose value passes a test has succeeded with a value that passes it: an
evaluated check of a concrete run gives the run's result. -/
theorem Except.exists_ok_of_any {x : Except ε α} {p : α → Bool} (h : x.toOption.any p = true) :
    ∃ a, x = .ok a ∧ p a = true := by
  cases x with
  | error e => simp [Except.toOption] at h
  | ok a => exact ⟨a, rfl, by simpa [Except.toOption] using h⟩

/-- The rule of a fold: an invariant of the processed prefix that every successful step on an
element of the list keeps holds of what the fold returns. -/
theorem Except.foldlM_invariant {γ : Type} {l : List γ} {f : α → γ → Except ε α}
    (I : List γ → α → Prop)
    (hstep : ∀ p, ∀ x ∈ l, ∀ c c', I p c → f c x = .ok c' → I (p ++ [x]) c') {a b : α}
    (ha : I [] a) (h : l.foldlM f a = .ok b) : I l b := by
  -- run the fold from any split of the list, with the invariant of the part already done
  suffices H : ∀ (r pre : List γ) (c : α), pre ++ r = l → I pre c → r.foldlM f c = .ok b → I l b
    from H l [] a rfl ha h
  intro r
  induction r with
  | nil =>
    rintro pre c rfl hc h
    simp only [List.foldlM_nil, Except.pure_def, Except.ok.injEq] at h
    subst h
    simpa using hc
  | cons x r ih =>
    rintro pre c rfl hc h
    rw [List.foldlM_cons] at h
    obtain ⟨c', hc', h⟩ := Except.bind_eq_ok.mp h
    exact ih (pre ++ [x]) c' (by simp) (hstep pre x (by simp) c c' hc hc') h

theorem Except.foldlM_error {γ : Type} {P : ε → Prop} {f : α → γ → Except ε α}
    (hf : ∀ a c e, f a c = .error e → P e) :
    ∀ (l : List γ) (init : α) (e : ε), l.foldlM f init = .error e → P e
  | [], _, _, h => by cases h
  | c :: l, init, e, h => by
    rw [List.foldlM_cons] at h
    cases hc : f init c with
    | error e' =>
      rw [hc] at h
      cases h
      exact hf _ _ _ hc
    | ok a =>
      rw [hc] at h
      exact Except.foldlM_error hf l a e h

end TestDispatch
