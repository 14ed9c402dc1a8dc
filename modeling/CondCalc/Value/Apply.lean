import CondCalc.Operator
import CondCalc.Value.EvalError

/-! Operators on values. Arithmetic is exact: a result is computed among all integers and
refused where it does not fit. -/
namespace CondCalc

def narrow (operator : String) (n : Int) : Except EvalError Value :=
  if Fits n then .ok (.integer (.ofInt n)) else .error (.overflow operator)

def onIntegers (operator : String) (l r : Value) (f : Int → Int → Except EvalError Value) :
    Except EvalError Value :=
  match l, r with
  | .integer a, .integer b => f a.toInt b.toInt
  | _, _ => .error (.typeMismatch operator (.notIntegers l.ty r.ty))

def onBooleans (operator : String) (l r : Value) (f : Bool → Bool → Bool) :
    Except EvalError Value :=
  match l, r with
  | .boolean a, .boolean b => .ok (.boolean (f a b))
  | _, _ => .error (.typeMismatch operator (.notBooleans l.ty r.ty))

def areEqual (operator : String) (l r : Value) : Except EvalError Bool :=
  if l.ty = r.ty then .ok (l = r) else .error (.typeMismatch operator (.differing l.ty r.ty))

namespace Operator

/-- The operator on two values, written as `literal`. Division drops the fraction. -/
def apply (op : Operator) (literal : String) (l r : Value) : Except EvalError Value :=
  match op with
  | add => onIntegers literal l r fun a b => narrow literal (a + b)
  | sub => onIntegers literal l r fun a b => narrow literal (a - b)
  | mul => onIntegers literal l r fun a b => narrow literal (a * b)
  | div => onIntegers literal l r fun a b =>
    if b = 0 then .error .divisionByZero else narrow literal (a.tdiv b)
  | gt => onIntegers literal l r fun a b => .ok (.boolean (a > b))
  | gte => onIntegers literal l r fun a b => .ok (.boolean (a ≥ b))
  | lt => onIntegers literal l r fun a b => .ok (.boolean (a < b))
  | lte => onIntegers literal l r fun a b => .ok (.boolean (a ≤ b))
  | and => onBooleans literal l r (· && ·)
  | or => onBooleans literal l r (· || ·)
  | eq => (areEqual literal l r).map .boolean
  | neq => (areEqual literal l r).map fun same => .boolean !same

/-- The result of a connective where its left operand decides it alone. -/
def shortCircuit? (op : Operator) (literal : String) (l : Value) :
    Option (Except EvalError Value) :=
  match op, l with
  | and, .boolean false => some (.ok l)
  | or, .boolean true => some (.ok l)
  | and, .integer _ | or, .integer _ => some (.error (.typeMismatch literal .leftOperand))
  | _, _ => none

end Operator

end CondCalc
