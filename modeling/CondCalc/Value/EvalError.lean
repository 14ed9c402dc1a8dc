import CondCalc.Value.Basic

/-! The ways in which a computation can fail. An operator is named by the text that it was
written with. -/
namespace CondCalc

/-- Operands that do not suit an operator: the one of `!`, the left one of a connective that
never looked at the right one, the condition of a conditional, or two together. -/
inductive Mismatch where
  | negated
  | leftOperand
  | condition
  | notIntegers (l r : Ty)
  | notBooleans (l r : Ty)
  | differing (l r : Ty)
deriving DecidableEq

namespace Mismatch

def expected : Mismatch → String
  | negated => "a boolean"
  | leftOperand => "booleans"
  | condition => "a boolean condition"
  | notIntegers .. => "integers"
  | notBooleans .. => "booleans"
  | differing .. => "operands of the same type"

def found : Mismatch → String
  | negated => Ty.integer.name
  | leftOperand => "an integer"
  | condition => "an integer"
  | notIntegers l r | notBooleans l r | differing l r => l.name ++ " and " ++ r.name

end Mismatch

inductive EvalError where
  | divisionByZero
  | overflow (operator : String)
  | typeMismatch (operator : String) (cause : Mismatch)
deriving DecidableEq

end CondCalc
