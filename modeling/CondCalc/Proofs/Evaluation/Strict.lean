import CondCalc.Expr.Eval
import CondCalc.Proofs.Outcome

/-! Evaluation with nothing left out: both operands of every operator and both branches of every
conditional. Where it comes to a value, a connective that its left operand decides has the same value
with the right one, so the evaluation that leaves operands out comes to this value too. It may still
come to a value where an operand that it leaves out fails. -/
namespace CondCalc

namespace Expr

/-- The evaluation of all operands and branches from left to right. -/
def evalStrict : Expr → Except EvalError Value
  | number n => .ok (.integer n)
  | not literal e => do
    match ← e.evalStrict with
    | .boolean b => .ok (.boolean !b)
    | .integer _ => .error (.typeMismatch literal .negated)
  | binary op literal l r => do
    let a ← l.evalStrict
    let b ← r.evalStrict
    op.apply literal a b
  | cond c t e => do
    let selector ← c.evalStrict
    let a ← t.evalStrict
    let b ← e.evalStrict
    match selector with
    | .boolean true => .ok a
    | .boolean false => .ok b
    | .integer _ => .error (.typeMismatch "if" .condition)

end Expr

theorem Operator.shortCircuit?_eq_of_apply {op : Operator} {literal : String} {a b v : Value}
    {result : Except EvalError Value} (settled : op.shortCircuit? literal a = some result)
    (h : op.apply literal a b = .ok v) : result = .ok v := by
  cases op with
  | and | or =>
    cases a with
    | integer n => cases h
    | boolean p =>
      cases b with
      | integer n => cases h
      | boolean q =>
        cases p <;> cases settled
        exact h
  | add | sub | mul | div | eq | neq | gt | gte | lt | lte => cases settled

theorem Expr.eval_of_evalStrict {e : Expr} {v : Value} (h : e.evalStrict = .ok v) :
    e.eval = .ok v := by
  induction e generalizing v with
  | number n => exact h
  | not literal e ih =>
    obtain ⟨a, ha, hv⟩ := bind_eq_ok_iff.1 h
    rw [eval, ih ha]
    exact hv
  | binary op literal l r ihl ihr =>
    obtain ⟨a, ha, h⟩ := bind_eq_ok_iff.1 h
    obtain ⟨b, hb, hv⟩ := bind_eq_ok_iff.1 h
    rw [eval, ihl ha, ok_bind]
    cases settled : op.shortCircuit? literal a with
    | some result => exact op.shortCircuit?_eq_of_apply settled hv
    | none => rwa [ihr hb]
  | cond c t e ihc iht ihe =>
    obtain ⟨selector, hc, h⟩ := bind_eq_ok_iff.1 h
    obtain ⟨a, ha, h⟩ := bind_eq_ok_iff.1 h
    obtain ⟨b, hb, hv⟩ := bind_eq_ok_iff.1 h
    rw [eval, ihc hc, ok_bind]
    cases selector with
    | integer n => cases hv
    | boolean p =>
      cases p with
      | true => exact (iht ha).trans hv
      | false => exact (ihe hb).trans hv

/-- Leaving operands and branches out costs no value and changes none: what strict evaluation comes
to, evaluation comes to, and it fails only where strict evaluation fails. -/
theorem eval_refines_strict (e : Expr) :
    (∀ v, e.evalStrict = .ok v → e.eval = .ok v) ∧
      ∀ x, e.eval = .error x → ∃ y, e.evalStrict = .error y := by
  refine ⟨fun v h => e.eval_of_evalStrict h, fun x h => ?_⟩
  cases hs : e.evalStrict with
  | error y => exact ⟨y, rfl⟩
  | ok v =>
    rw [e.eval_of_evalStrict hs] at h
    cases h

/-- In `if 1 == 2 && 3 == 3 then 4 else 5` an operand and a branch are left out, and both have values;
in `1 == 1 && 1 / 0 == 0` nothing is. -/
theorem eval_refines_strict_connectives :
    let e : Expr := .cond (.binary .and "&&" (.binary .eq "==" (.number 1) (.number 2))
      (.binary .eq "==" (.number 3) (.number 3))) (.number 4) (.number 5)
    let e' : Expr := .binary .and "&&" (.binary .eq "==" (.number 1) (.number 1))
      (.binary .eq "==" (.binary .div "/" (.number 1) (.number 0)) (.number 0))
    (e.evalStrict = .ok (.integer 5) ∧ e.eval = .ok (.integer 5)) ∧
      e'.eval = .error .divisionByZero ∧ ∃ y, e'.evalStrict = .error y := by
  intro e e'
  have value : e.evalStrict = .ok (.integer 5) := by decide
  have failure : e'.eval = .error .divisionByZero := by decide
  exact ⟨⟨value, (eval_refines_strict e).1 _ value⟩,
    failure, (eval_refines_strict e').2 _ failure⟩

/-- The other way round it does not hold: in `1 == 2 && 1 / 0 == 0` the quotient is left out. -/
example :
    let e : Expr := .binary .and "&&" (.binary .eq "==" (.number 1) (.number 2))
      (.binary .eq "==" (.binary .div "/" (.number 1) (.number 0)) (.number 0))
    e.eval = .ok (.boolean false) ∧ e.evalStrict = .error .divisionByZero := by decide

end CondCalc
