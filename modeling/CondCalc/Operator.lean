/-! The binary operators, their families and how tightly they bind. -/
namespace CondCalc

inductive Family where
  | arithmetic
  | logical
  | conditional
deriving DecidableEq

def Family.name : Family → String
  | .arithmetic => "arithmetic"
  | .logical => "logical"
  | .conditional => "conditional"

inductive Operator where
  | add
  | sub
  | mul
  | div
  | and
  | or
  | eq
  | neq
  | gt
  | gte
  | lt
  | lte
deriving DecidableEq

namespace Operator

def spelling : Operator → String
  | add => "+"
  | sub => "-"
  | mul => "*"
  | div => "/"
  | and => "&&"
  | or => "||"
  | eq => "=="
  | neq => "!="
  | gt => ">"
  | gte => ">="
  | lt => "<"
  | lte => "<="

def name : Operator → String
  | add => "ADD"
  | sub => "SUB"
  | mul => "MUL"
  | div => "DIV"
  | and => "AND"
  | or => "OR"
  | eq => "EQ"
  | neq => "NEQ"
  | gt => "GT"
  | gte => "GTE"
  | lt => "LT"
  | lte => "LTE"

/-- Comparisons and equality belong with the connectives: they yield booleans. -/
def family : Operator → Family
  | add | sub | mul | div => .arithmetic
  | and | or | eq | neq | gt | gte | lt | lte => .logical

/-- How tightly the operator binds, from `||` at 0 to the products at 5. -/
def level : Operator → Nat
  | or => 0
  | and => 1
  | eq | neq => 2
  | gt | gte | lt | lte => 3
  | add | sub => 4
  | mul | div => 5

theorem level_lt_six (o : Operator) : o.level < 6 := by
  cases o <;> decide

end Operator

end CondCalc
