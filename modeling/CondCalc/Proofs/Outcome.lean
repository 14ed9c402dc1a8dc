import Mathlib.Tactic.Common

/-! How a sequence of fallible steps ends: with a value only if every step has one, and with the
error of the first step that fails. Two sequences whose steps match one by one end alike. -/
namespace CondCalc

variable {ε ε' α α' β β' : Type}

@[simp] theorem bind_eq_ok_iff {x : Except ε α} {f : α → Except ε β} {b : β} :
    (x >>= f) = .ok b ↔ ∃ a, x = .ok a ∧ f a = .ok b := by
  cases x with
  | error e => simp [bind, Except.bind]
  | ok a => simp [bind, Except.bind]

@[simp] theorem bind_eq_error_iff {x : Except ε α} {f : α → Except ε β} {e : ε} :
    (x >>= f) = .error e ↔ x = .error e ∨ ∃ a, x = .ok a ∧ f a = .error e := by
  cases x with
  | error e => simp [bind, Except.bind]
  | ok a => simp [bind, Except.bind]

@[simp] theorem ok_bind (a : α) (f : α → Except ε β) : (Except.ok a >>= f) = f a := rfl

@[simp] theorem error_bind (e : ε) (f : α → Except ε β) :
    ((Except.error e : Except ε α) >>= f) = .error e := rfl

@[simp] theorem mapError_eq_ok_iff {f : ε → ε'} {x : Except ε α} {a : α} :
    x.mapError f = .ok a ↔ x = .ok a := by
  cases x <;> simp [Except.mapError]

@[simp] theorem mapError_eq_error_iff {f : ε → ε'} {x : Except ε α} {e : ε'} :
    x.mapError f = .error e ↔ ∃ e', x = .error e' ∧ f e' = e := by
  cases x <;> simp [Except.mapError]

@[simp] theorem map_eq_ok_iff {f : α → β} {x : Except ε α} {b : β} :
    x.map f = .ok b ↔ ∃ a, x = .ok a ∧ f a = b := by
  cases x <;> simp [Except.map]

@[simp] theorem map_eq_error_iff {f : α → β} {x : Except ε α} {e : ε} :
    x.map f = .error e ↔ x = .error e := by
  cases x <;> simp [Except.map]

/-- The end is a value with the one property or an error with the other. -/
def Ends (P : α → Prop) (E : ε → Prop) : Except ε α → Prop
  | .ok a => P a
  | .error e => E e

namespace Ends

variable {P : α → Prop} {Q : β → Prop} {E : ε → Prop} {x : Except ε α} {f : α → Except ε β}

theorem mono {P' : α → Prop} {E' : ε → Prop} (h : Ends P E x) (hp : ∀ a, P a → P' a)
    (he : ∀ e, E e → E' e) : Ends P' E' x := by
  cases x with
  | ok a => exact hp a h
  | error e => exact he e h

theorem bind (h : Ends P E x) (hf : ∀ a, P a → Ends Q E (f a)) : Ends Q E (x >>= f) := by
  cases x with
  | ok a => exact hf a h
  | error e => exact h

theorem of_ok {a : α} (h : Ends P E x) (eq : x = .ok a) : P a := by
  rwa [eq] at h

theorem of_error {e : ε} (h : Ends P E x) (eq : x = .error e) : E e := by
  rwa [eq] at h

end Ends

/-- Both end with values, which are related by `P`, or both with errors, related by `E`. -/
def Matches (P : α → α' → Prop) (E : ε → ε' → Prop) : Except ε α → Except ε' α' → Prop
  | .ok a, .ok a' => P a a'
  | .error e, .error e' => E e e'
  | _, _ => False

namespace Matches

variable {P : α → α' → Prop} {Q : β → β' → Prop} {E : ε → ε' → Prop} {x : Except ε α}
  {x' : Except ε' α'} {f : α → Except ε β} {f' : α' → Except ε' β'}

theorem cases (h : Matches P E x x') :
    (∃ a a', x = .ok a ∧ x' = .ok a' ∧ P a a') ∨
      ∃ e e', x = .error e ∧ x' = .error e' ∧ E e e' := by
  cases x with
  | ok a =>
    cases x' with
    | ok a' => exact .inl ⟨a, a', rfl, rfl, h⟩
    | error e' => exact h.elim
  | error e =>
    cases x' with
    | ok a' => exact h.elim
    | error e' => exact .inr ⟨e, e', rfl, rfl, h⟩

theorem mono {F : ε → ε' → Prop} (h : Matches P E x x') (he : ∀ e e', E e e' → F e e') :
    Matches P F x x' := by
  rcases h.cases with ⟨a, a', rfl, rfl, ha⟩ | ⟨e, e', rfl, rfl, hx⟩
  · exact ha
  · exact he e e' hx

theorem bind (h : Matches P E x x') (hf : ∀ a a', P a a' → Matches Q E (f a) (f' a')) :
    Matches Q E (x >>= f) (x' >>= f') := by
  rcases h.cases with ⟨a, a', rfl, rfl, ha⟩ | ⟨e, e', rfl, rfl, hx⟩
  · exact hf a a' ha
  · exact hx

theorem mapError {δ δ' : Type} {F : δ → δ' → Prop} {g : ε → δ} {g' : ε' → δ'}
    (h : Matches P E x x') (hg : ∀ e e', E e e' → F (g e) (g' e')) :
    Matches P F (x.mapError g) (x'.mapError g') := by
  rcases h.cases with ⟨a, a', rfl, rfl, ha⟩ | ⟨e, e', rfl, rfl, hx⟩
  · exact ha
  · exact hg e e' hx

theorem of_ok {a : α} (h : Matches P E x x') (eq : x = .ok a) : ∃ a', x' = .ok a' ∧ P a a' := by
  subst eq
  rcases h.cases with ⟨_, a', ⟨⟩, h', ha⟩ | ⟨e, e', ⟨⟩, -⟩
  exact ⟨a', h', ha⟩

theorem of_error {e : ε} (h : Matches P E x x') (eq : x = .error e) :
    ∃ e', x' = .error e' ∧ E e e' := by
  subst eq
  rcases h.cases with ⟨a, a', ⟨⟩, -⟩ | ⟨_, e', ⟨⟩, h', hx⟩
  exact ⟨e', h', hx⟩

end Matches

end CondCalc
