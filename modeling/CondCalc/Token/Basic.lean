import CondCalc.Operator
import CondCalc.Text.Span
import CondCalc.Text.Decimal

/-! Tokens. The kind alone decides what a token means; its text and position are kept to show
it and to point at it, and nothing requires them to agree with the kind. -/
namespace CondCalc

inductive Kind where
  | number (n : Int64)
  | binary (o : Operator)
  | bang
  | leftParen
  | rightParen
  | ifWord
  | thenWord
  | elseWord
deriving DecidableEq

namespace Kind

def name : Kind → String
  | number _ => "NUMBER"
  | binary o => o.name
  | bang => "NOT"
  | leftParen => "LPAREN"
  | rightParen => "RPAREN"
  | ifWord => "IF"
  | thenWord => "THEN"
  | elseWord => "ELSE"

/-- The one way to write a token of the kind; a number has many. -/
def spelling? : Kind → Option String
  | number _ => none
  | binary o => some o.spelling
  | bang => some "!"
  | leftParen => some "("
  | rightParen => some ")"
  | ifWord => some "if"
  | thenWord => some "then"
  | elseWord => some "else"

def family? : Kind → Option Family
  | binary o => some o.family
  | bang => some .logical
  | ifWord | elseWord => some .conditional
  | number _ | leftParen | rightParen | thenWord => none

def operator? : Kind → Option Operator
  | binary o => some o
  | _ => none

end Kind

structure Token where
  kind : Kind
  literal : String
  /-- Where the literal starts, in bytes. In a text the offset plus the length of the literal stays
  below 2^64, so positions are numbers without a bound here. -/
  offset : Nat
deriving DecidableEq

namespace Token

def span (t : Token) : Span :=
  ⟨t.offset, t.literal.utf8ByteSize⟩

def display (t : Token) : String :=
  let value := match t.kind with
    | .number n => Decimal.text n.toInt
    | _ => "null"
  t.kind.name ++ " " ++ t.literal ++ " " ++ value

end Token

end CondCalc
