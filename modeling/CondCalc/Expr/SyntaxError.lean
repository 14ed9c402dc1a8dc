import CondCalc.Token.Basic

/-! What a list of tokens should have gone on with, and where it did not. -/
namespace CondCalc

inductive Expectation where
  | factor
  | thenWord
  | elseWord
  | closeParen
  | endOfInput
  | shallowerNesting
deriving DecidableEq

def Expectation.text : Expectation → String
  | factor => "a number, `!` or `(`"
  | thenWord => "`then`"
  | elseWord => "`else`"
  | closeParen => "`)`"
  | endOfInput => "end of input"
  | shallowerNesting => "shallower nesting"

/-- The tokens from the refused one on; there are none at the end. -/
structure Unexpected where
  expected : Expectation
  remaining : List Token
deriving DecidableEq

structure SyntaxError where
  expected : Expectation
  found : Option Token
  span : Span
deriving DecidableEq

/-- The position after the last token; for the tokens of a text it stays below 2^64. -/
def endOffset (ts : List Token) : Nat :=
  match ts.getLast? with
  | some t => t.span.stop
  | none => 0

/-- The error in a list of tokens: at the refused token, or empty and after the last one. -/
def Unexpected.locate (ts : List Token) (u : Unexpected) : SyntaxError :=
  match u.remaining with
  | t :: _ => ⟨u.expected, some t, t.span⟩
  | [] => ⟨u.expected, none, ⟨endOffset ts, 0⟩⟩

def SyntaxError.foundText (e : SyntaxError) : String :=
  match e.found with
  | some t => "`" ++ t.literal ++ "` (" ++ t.kind.name ++ ")"
  | none => "end of input"

end CondCalc
