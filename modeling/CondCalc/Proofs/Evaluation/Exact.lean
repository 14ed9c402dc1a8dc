import CondCalc.Proofs.Outcome
import CondCalc.Value.Apply
import Mathlib.Algebra.Ring.Int.Defs
import Mathlib.Tactic.Common

/-! Values without a range, and what the operators make of them. An operator on values agrees with
the one on exact values as long as the types suit it, a divisor is not zero and the exact result
fits. -/
namespace CondCalc

/-- A value whose integers may have any size. -/
inductive Exact where
  | integer (n : Int)
  | boolean (b : Bool)
deriving DecidableEq

def Exact.ty : Exact → Ty
  | integer _ => .integer
  | boolean _ => .boolean

def Exact.Fits : Exact → Prop
  | integer n => CondCalc.Fits n
  | boolean _ => True

def Value.exact : Value → Exact
  | integer n => .integer n.toInt
  | boolean b => .boolean b

@[simp] theorem Value.exact_integer (n : Int64) : (integer n).exact = .integer n.toInt := rfl

@[simp] theorem Value.exact_boolean (b : Bool) : (boolean b).exact = .boolean b := rfl

@[simp] theorem Value.ty_exact (v : Value) : v.exact.ty = v.ty := by
  cases v <;> rfl

theorem Value.fits_exact (v : Value) : v.exact.Fits := by
  cases v with
  | integer n => exact fits_toInt n
  | boolean b => trivial

theorem fits_operands (vs : List Value) : ∀ x ∈ vs.map Value.exact, x.Fits := by
  intro x mem
  obtain ⟨v, -, rfl⟩ := List.mem_map.1 mem
  exact v.fits_exact

theorem Value.exact_injective {v w : Value} (h : v.exact = w.exact) : v = w := by
  cases v <;> cases w <;> simp_all [Int64.toInt_inj]

namespace Operator

/-- The exact result of arithmetic; the quotient is cut off toward zero. -/
def arithmetic? : Operator → Int → Int → Option Int
  | add, a, b => some (a + b)
  | sub, a, b => some (a - b)
  | mul, a, b => some (a * b)
  | div, a, b => if b = 0 then none else some (a.tdiv b)
  | _, _, _ => none

def comparison? : Operator → Int → Int → Option Bool
  | eq, a, b => some (a = b)
  | neq, a, b => some (a ≠ b)
  | gt, a, b => some (b < a)
  | gte, a, b => some (b ≤ a)
  | lt, a, b => some (a < b)
  | lte, a, b => some (a ≤ b)
  | _, _, _ => none

def connective? : Operator → Bool → Bool → Option Bool
  | and, p, q => some (p && q)
  | or, p, q => some (p || q)
  | eq, p, q => some (p = q)
  | neq, p, q => some (p ≠ q)
  | _, _, _ => none

def result? (op : Operator) : Exact → Exact → Option Exact
  | .integer a, .integer b =>
    ((op.arithmetic? a b).map .integer).or ((op.comparison? a b).map .boolean)
  | .boolean p, .boolean q => (op.connective? p q).map .boolean
  | _, _ => none

def Suits : Operator → Ty → Ty → Prop
  | add, s, t | sub, s, t | mul, s, t | div, s, t => s = .integer ∧ t = .integer
  | gt, s, t | gte, s, t | lt, s, t | lte, s, t => s = .integer ∧ t = .integer
  | and, s, t | or, s, t => s = .boolean ∧ t = .boolean
  | eq, s, t | neq, s, t => s = t

def mismatch : Operator → Ty → Ty → Mismatch
  | add | sub | mul | div | gt | gte | lt | lte => .notIntegers
  | and | or => .notBooleans
  | eq | neq => .differing

/-- Whether the left operand leaves nothing for the right one to decide: it decides a connective
itself, or does not suit it. -/
def settledBy : Operator → Exact → Bool
  | and, .boolean p => !p
  | or, .boolean p => p
  | and, .integer _ | or, .integer _ => true
  | _, _ => false

end Operator

theorem narrow_of_fits (literal : String) {n : Int} (h : Fits n) :
    ∃ v, narrow literal n = .ok v ∧ v.exact = .integer n := by
  refine ⟨.integer (.ofInt n), if_pos h, ?_⟩
  rw [Value.exact_integer, toInt_ofInt_of_fits h]

theorem narrow_ends (literal : String) (n : Int) :
    Ends (·.ty = .integer) (· = .overflow literal) (narrow literal n) := by
  unfold narrow
  split
  · rfl
  · rfl

namespace Operator

variable {op : Operator} {literal : String} {a b : Value} {m n : Int64} {k : Int} {p q c : Bool}

theorem suits_of_arithmetic? {x y : Int} (h : op.arithmetic? x y = some k) :
    op.Suits .integer .integer := by
  cases op with
  | add | sub | mul | div => exact ⟨rfl, rfl⟩
  | and | or | eq | neq | gt | gte | lt | lte => cases h

theorem suits_of_result? {x y z : Exact} (h : op.result? x y = some z) : op.Suits x.ty y.ty := by
  cases x <;> cases y <;> cases op <;>
    simp_all [result?, arithmetic?, comparison?, connective?, Suits, Exact.ty]

theorem apply_of_unsuited (h : ¬op.Suits a.ty b.ty) :
    op.apply literal a b = .error (.typeMismatch literal (op.mismatch a.ty b.ty)) := by
  cases op with
  | eq | neq =>
    have differ : a.ty ≠ b.ty := h
    simp [apply, areEqual, differ, Except.map, mismatch]
  | add | sub | mul | div | gt | gte | lt | lte | and | or =>
    cases a <;> cases b <;> first | rfl | exact absurd ⟨rfl, rfl⟩ h

theorem apply_of_arithmetic? (h : op.arithmetic? m.toInt n.toInt = some k) :
    op.apply literal (.integer m) (.integer n) = narrow literal k := by
  cases op with
  | add | sub | mul => cases h; rfl
  | div =>
    simp only [arithmetic?, Option.ite_none_left_eq_some] at h
    obtain ⟨nonzero, h⟩ := h
    cases h
    exact if_neg nonzero
  | and | or | eq | neq | gt | gte | lt | lte => cases h

theorem apply_of_comparison? (h : op.comparison? m.toInt n.toInt = some c) :
    op.apply literal (.integer m) (.integer n) = .ok (.boolean c) := by
  cases op with
  | eq | neq =>
    cases h
    simp [apply, areEqual, Except.map, Value.ty, Int64.toInt_inj]
  | gt | gte | lt | lte => cases h; rfl
  | add | sub | mul | div | and | or => cases h

theorem apply_of_connective? (h : op.connective? p q = some c) :
    op.apply literal (.boolean p) (.boolean q) = .ok (.boolean c) := by
  cases op with
  | eq | neq =>
    cases h
    simp [apply, areEqual, Except.map, Value.ty]
  | and | or => cases h; rfl
  | add | sub | mul | div | gt | gte | lt | lte => cases h

theorem eq_div_of_none {x y : Int} (suits : op.Suits .integer .integer)
    (ha : op.arithmetic? x y = none) (hc : op.comparison? x y = none) : op = .div ∧ y = 0 := by
  cases op <;> simp_all [Suits, arithmetic?, comparison?]

theorem exists_connective? (suits : op.Suits .boolean .boolean) (p q : Bool) :
    ∃ c, op.connective? p q = some c := by
  cases op with
  | and | or | eq | neq => exact ⟨_, rfl⟩
  | add | sub | mul | div | gt | gte | lt | lte => cases suits.1

theorem Suits.ty_eq {s t : Ty} (h : op.Suits s t) : s = t := by
  cases op with
  | eq | neq => exact h
  | add | sub | mul | div | and | or | gt | gte | lt | lte => exact h.1.trans h.2.symm

theorem settledBy_exact (op : Operator) (literal : String) (a : Value) :
    op.settledBy a.exact = (op.shortCircuit? literal a).isSome := by
  cases op <;> rcases a with n | b <;> first | rfl | cases b <;> rfl

end Operator

theorem quotient_out_of_range {a b : Int} (fits : CondCalc.Fits a) (nonzero : b ≠ 0)
    (out : ¬CondCalc.Fits (a.tdiv b)) : a = -2 ^ 63 ∧ b = -1 := by
  unfold CondCalc.Fits at fits out
  by_cases minusOne : b = -1
  · subst minusOne
    rw [Int.tdiv_neg, Int.tdiv_one] at out
    omega
  by_cases one : b = 1
  · subst one
    rw [Int.tdiv_one] at out
    omega
  have half : (a.tdiv b).natAbs ≤ a.natAbs / 2 := by
    rw [Int.natAbs_tdiv]
    exact Nat.div_le_div_left (by omega) (by decide)
  omega

end CondCalc
