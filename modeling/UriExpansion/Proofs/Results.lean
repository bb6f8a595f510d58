import Mathlib.Data.List.Forall2

/-!
# Computations that may fail

When a computation made of smaller ones succeeds, and with what.
-/

namespace UriExpansion

variable {ε α β : Type}

theorem bind_eq_ok_iff {e : Except ε α} {f : α → Except ε β} {y : β} :
    (e >>= f) = .ok y ↔ ∃ x, e = .ok x ∧ f x = .ok y := by
  cases e <;> simp [bind, Except.bind]

theorem map_eq_ok_iff {e : Except ε α} {f : α → β} {y : β} :
    e.map f = .ok y ↔ ∃ x, e = .ok x ∧ f x = y := by
  cases e <;> simp [Except.map]

theorem mapError_eq_ok_iff {δ : Type} {e : Except ε α} {f : ε → δ} {x : α} :
    e.mapError f = .ok x ↔ e = .ok x := by
  cases e <;> simp [Except.mapError]

theorem toOption_bind {e : Except ε α} {f : α → Except ε β} :
    (e >>= f).toOption = e.toOption.bind fun x => (f x).toOption := by
  cases e <;> rfl

theorem toOption_map {e : Except ε α} {f : α → β} : (e.map f).toOption = e.toOption.map f := by
  cases e <;> rfl

theorem toOption_mapError {δ : Type} {e : Except ε α} {f : ε → δ} :
    (e.mapError f).toOption = e.toOption := by
  cases e <;> rfl

theorem toOption_eq_some_iff {e : Except ε α} {x : α} : e.toOption = some x ↔ e = .ok x := by
  cases e <;> simp [Except.toOption]

theorem exists_map_eq_ok_iff {e : Except ε α} {f : α → β} :
    (∃ y, e.map f = .ok y) ↔ ∃ x, e = .ok x := by
  cases e <;> simp [Except.map]

theorem mapM_cons_eq_ok_iff {f : α → Except ε β} {x : α} {xs : List α} {ys : List β} :
    (x :: xs).mapM f = .ok ys ↔ ∃ y zs, f x = .ok y ∧ xs.mapM f = .ok zs ∧ ys = y :: zs := by
  rw [List.mapM_cons, bind_eq_ok_iff]
  simp only [bind_eq_ok_iff, pure, Except.pure, Except.ok.injEq, exists_and_left, @eq_comm _ ys]

theorem mapM_eq_ok_iff {f : α → Except ε β} {xs : List α} {ys : List β} :
    xs.mapM f = .ok ys ↔ List.Forall₂ (fun x y => f x = .ok y) xs ys := by
  induction xs generalizing ys with
  | nil => cases ys <;> simp [pure, Except.pure]
  | cons x xs ih =>
    rw [mapM_cons_eq_ok_iff, List.forall₂_cons_left_iff]
    simp only [ih]

theorem exists_mapM_eq_ok_iff {f : α → Except ε β} {xs : List α} :
    (∃ ys, xs.mapM f = .ok ys) ↔ ∀ x ∈ xs, ∃ y, f x = .ok y := by
  induction xs with
  | nil => simp [pure, Except.pure]
  | cons x xs ih =>
    rw [List.forall_mem_cons, ← ih]
    constructor
    · rintro ⟨ys, h⟩
      obtain ⟨y, zs, hy, hzs, -⟩ := mapM_cons_eq_ok_iff.1 h
      exact ⟨⟨y, hy⟩, zs, hzs⟩
    · rintro ⟨⟨y, hy⟩, zs, hzs⟩
      exact ⟨y :: zs, mapM_cons_eq_ok_iff.2 ⟨y, zs, hy, hzs, rfl⟩⟩

theorem map_eq_of_mapM_eq_ok {f : α → Except ε β} {g : α → β} {xs : List α} {ys : List β}
    (h : xs.mapM f = .ok ys) (hg : ∀ x ∈ xs, ∀ y, f x = .ok y → g x = y) : xs.map g = ys := by
  induction xs generalizing ys with
  | nil =>
    cases h
    rfl
  | cons x xs ih =>
    obtain ⟨y, zs, hy, hzs, rfl⟩ := mapM_cons_eq_ok_iff.1 h
    rw [List.map_cons, hg x List.mem_cons_self y hy,
      ih hzs fun z hz => hg z (List.mem_cons_of_mem x hz)]

end UriExpansion
