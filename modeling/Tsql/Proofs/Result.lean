import Mathlib.Data.List.Forall2
import Tsql.Error

/-!
# Results taken apart

What is known of the parts of a computation on `Result` that gave a value.
-/

namespace Tsql

theorem mem_of_forall₂ {α β : Type} {p : α → β → Prop} {xs : List α} {ys : List β}
    (h : List.Forall₂ p xs ys) {y : β} (hy : y ∈ ys) : ∃ x ∈ xs, p x y := by
  induction h with
  | nil => cases hy
  | cons hp _ ih =>
    rcases List.mem_cons.1 hy with rfl | hy
    · exact ⟨_, List.mem_cons_self, hp⟩
    · obtain ⟨x, hx, hp⟩ := ih hy
      exact ⟨x, List.mem_cons_of_mem _ hx, hp⟩

theorem exists_forall₂ {α β : Type} {R : α → β → Prop} {xs : List α} (h : ∀ a ∈ xs, ∃ b, R a b) :
    ∃ ys, List.Forall₂ R xs ys := by
  induction xs with
  | nil => exact ⟨[], .nil⟩
  | cons a rest ih =>
    obtain ⟨b, hb⟩ := h a (by simp)
    obtain ⟨ys, hys⟩ := ih fun c hc => h c (by simp [hc])
    exact ⟨b :: ys, .cons hb hys⟩

namespace Result

variable {α β : Type}

theorem bind_eq_ok {r : Result α} {f : α → Result β} {b : β} (h : r >>= f = .ok b) :
    ∃ a, r = .ok a ∧ f a = .ok b := by
  cases r with
  | error e => cases h
  | ok a => exact ⟨a, rfl, h⟩

theorem map_eq_ok {r : Result α} {f : α → β} {b : β} (h : r.map f = .ok b) :
    ∃ a, r = .ok a ∧ f a = b := by
  cases r with
  | error e => cases h
  | ok a => exact ⟨a, rfl, Except.ok.inj h⟩

/-- Items handled one by one: each gave the value at its place. -/
theorem mapM_eq_ok {f : α → Result β} {xs : List α} {ys : List β} (h : xs.mapM f = .ok ys) :
    List.Forall₂ (fun x y => f x = .ok y) xs ys := by
  induction xs generalizing ys with
  | nil =>
    cases h
    exact .nil
  | cons x xs ih =>
    rw [List.mapM_cons] at h
    obtain ⟨y, hy, h⟩ := bind_eq_ok h
    obtain ⟨ys, hys, h⟩ := bind_eq_ok h
    cases h
    exact .cons hy (ih hys)

theorem mapM_getElem? {f : α → Result β} {xs : List α} {ys : List β} (h : xs.mapM f = .ok ys)
    {k : Nat} {x : α} (hx : xs[k]? = some x) : ∃ y, ys[k]? = some y ∧ f x = .ok y := by
  have hall := mapM_eq_ok h
  obtain ⟨hk, rfl⟩ := List.getElem?_eq_some_iff.1 hx
  have hk' : k < ys.length := hall.length_eq ▸ hk
  exact ⟨ys[k], List.getElem?_eq_getElem hk', hall.get hk hk'⟩

theorem mapM_eq_error {f : α → Result β} {xs : List α} {err : Error} (h : xs.mapM f = .error err) :
    ∃ x ∈ xs, f x = .error err := by
  induction xs with
  | nil => cases h
  | cons x rest ih =>
    rw [List.mapM_cons] at h
    cases hx : f x with
    | error e =>
      rw [hx] at h
      cases h
      exact ⟨x, by simp, hx⟩
    | ok y =>
      rw [hx] at h
      replace h : (rest.mapM f >>= fun ys => pure (y :: ys)) = .error err := h
      cases hrest : rest.mapM f with
      | ok ys =>
        rw [hrest] at h
        cases h
      | error e =>
        rw [hrest] at h
        cases h
        obtain ⟨z, hz, hfz⟩ := ih hrest
        exact ⟨z, by simp [hz], hfz⟩

theorem mapM_of_forall₂ {f : α → Result β} {xs : List α} {ys : List β}
    (h : List.Forall₂ (fun x y => f x = .ok y) xs ys) : xs.mapM f = .ok ys := by
  induction h with
  | nil => rfl
  | cons hx _ ih => rw [List.mapM_cons, hx, ih]; rfl

/-- A step that succeeds at least where another one does gives the same values. -/
theorem foldlM_eq_ok {γ : Type} {f g : γ → α → Result γ}
    (hfg : ∀ acc x acc', f acc x = .ok acc' → g acc x = .ok acc') {xs : List α} {acc acc' : γ}
    (h : xs.foldlM f acc = .ok acc') : xs.foldlM g acc = .ok acc' := by
  induction xs generalizing acc with
  | nil => exact h
  | cons x xs ih =>
    rw [List.foldlM_cons] at h ⊢
    obtain ⟨acc₁, hx, h⟩ := bind_eq_ok h
    rw [hfg _ _ _ hx]
    exact ih h

/-- Corresponding items give corresponding values, one by one. -/
theorem mapM_map {γ δ : Type} {f : α → Result β} {f' : γ → Result δ} {g : α → γ} {k : β → δ}
    (hf : ∀ x, f' (g x) = (f x).map k) (xs : List α) :
    (xs.map g).mapM f' = (xs.mapM f).map (List.map k) := by
  induction xs with
  | nil => rfl
  | cons x xs ih =>
    rw [List.map_cons, List.mapM_cons, List.mapM_cons, hf, ih]
    cases f x with
    | error e => rfl
    | ok y => cases xs.mapM f <;> rfl

/-- Steps over corresponding items keep what is collected in correspondence. -/
theorem foldlM_map {γ δ : Type} {f : γ → α → Result γ} {f' : δ → β → Result δ} {g : α → β} {k : γ → δ}
    (hf : ∀ acc x, f' (k acc) (g x) = (f acc x).map k) (xs : List α) (acc : γ) :
    (xs.map g).foldlM f' (k acc) = (xs.foldlM f acc).map k := by
  induction xs generalizing acc with
  | nil => rfl
  | cons x xs ih =>
    rw [List.map_cons, List.foldlM_cons, List.foldlM_cons, hf]
    cases f acc x with
    | error e => rfl
    | ok acc' => exact ih acc'

end Result

def Error.kind : Error → Error
  | .argumentOutOfRange _ => .argumentOutOfRange ""
  | .configuration _ => .configuration ""
  | .notSupported _ => .notSupported ""
  | .invalidStatement _ => .invalidStatement ""
  | .transaction _ => .transaction ""
  | .database _ => .database ""
  | .cancelled => .cancelled
  | .serialization _ => .serialization ""
  | .inputOutput _ => .inputOutput ""

/-- Two computations come to the same: to values that correspond, or to errors of one kind. -/
inductive Result.Agrees {α β : Type} (g : α → β) : Result α → Result β → Prop where
  | ok (a : α) : Agrees g (.ok a) (.ok (g a))
  | error {e e' : Error} (h : e.kind = e'.kind) : Agrees g (.error e) (.error e')

theorem Result.Agrees.of_eq_map {α β : Type} {g : α → β} {r : Result α} {r' : Result β}
    (h : r' = r.map g) : Agrees g r r' := by
  subst h
  cases r with
  | error e => exact .error rfl
  | ok a => exact .ok a

theorem Result.Agrees.map {α β γ δ : Type} {g : α → β} {r : Result α} {r' : Result β} (h : Agrees g r r')
    {k : α → γ} {k' : β → δ} {l : γ → δ} (hk : ∀ a, k' (g a) = l (k a)) :
    Agrees l (r.map k) (r'.map k') := by
  cases h with
  | ok a => exact .of_eq_map (congrArg Except.ok (hk a))
  | error he => exact .error he

end Tsql
