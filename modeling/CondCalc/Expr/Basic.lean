import CondCalc.Operator
import CondCalc.Text.Decimal

/-! Expressions. An operator keeps the text that it was written with, which is shown and named
in errors but means nothing. -/
namespace CondCalc

inductive Expr where
  | number (n : Int64)
  | not (literal : String) (operand : Expr)
  | binary (op : Operator) (literal : String) (lhs rhs : Expr)
  | cond (condition thenBranch elseBranch : Expr)
deriving DecidableEq

namespace Expr

def children : Expr → List Expr
  | number _ => []
  | not _ e => [e]
  | binary _ _ l r => [l, r]
  | cond c t e => [c, t, e]

def label : Expr → String
  | number n => Decimal.text n.toInt
  | not literal _ => literal
  | binary _ literal _ _ => literal
  | cond .. => "IF"

def size : Expr → Nat
  | number _ => 1
  | not _ e => 1 + e.size
  | binary _ _ l r => 1 + l.size + r.size
  | cond c t e => 1 + c.size + t.size + e.size

def height : Expr → Nat
  | number _ => 1
  | not _ e => e.height + 1
  | binary _ _ l r => max l.height r.height + 1
  | cond c t e => max (max c.height t.height) e.height + 1

theorem height_pos (e : Expr) : 0 < e.height := by
  cases e <;> simp [height]

end Expr

end CondCalc
