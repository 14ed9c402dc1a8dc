import CondCalc.Expr.Basic

/-! A tree written on one line, every node but a number in parentheses with its operator first. -/
namespace CondCalc.Expr

def sexpr : Expr → String
  | number n => Decimal.text n.toInt
  | not literal e => "(" ++ literal ++ " " ++ e.sexpr ++ ")"
  | binary _ literal l r => "(" ++ literal ++ " " ++ l.sexpr ++ " " ++ r.sexpr ++ ")"
  | cond c t e => "(if " ++ c.sexpr ++ " " ++ t.sexpr ++ " " ++ e.sexpr ++ ")"

end CondCalc.Expr
