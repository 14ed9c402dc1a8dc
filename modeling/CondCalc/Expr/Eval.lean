import CondCalc.Expr.Basic
import CondCalc.Value.Apply

/-! The value of an expression. Operands are computed from left to right, the right one of a
connective only where the left one leaves the result open, and of a conditional only the branch
that its condition selects. -/
namespace CondCalc.Expr

def eval : Expr → Except EvalError Value
  | number n => .ok (.integer n)
  | not literal e => do
    match ← e.eval with
    | .boolean b => .ok (.boolean !b)
    | .integer _ => .error (.typeMismatch literal .negated)
  | binary op literal l r => do
    let a ← l.eval
    match op.shortCircuit? literal a with
    | some result => result
    | none =>
      let b ← r.eval
      op.apply literal a b
  | cond c t e => do
    match ← c.eval with
    | .boolean true => t.eval
    | .boolean false => e.eval
    | .integer _ => .error (.typeMismatch "if" .condition)

end CondCalc.Expr
