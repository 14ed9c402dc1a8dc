import CondCalc.Calculation

/-! Errors in words: a message, a code that stays the same, advice, and the places in the text
that the error is about. -/
namespace CondCalc

structure Label where
  text : String
  span : Span
deriving DecidableEq

structure Report where
  message : String
  code : String
  help : Option String
  labels : List Label
deriving DecidableEq

def LexError.report (e : LexError) : Report :=
  match e with
  | .unexpectedCharacter c index =>
    { message := "Unexpected character '" ++ String.singleton c ++ "' at index "
        ++ Decimal.text index
      code := "lex::unexpected_character"
      help := some ("remove or correct the character: `" ++ String.singleton c ++ "`")
      labels := [⟨"this character", e.span⟩] }
  | .literalTooLarge literal _ =>
    { message := "Integer literal `" ++ literal ++ "` is too large"
      code := "lex::literal_too_large"
      help := some "integer literals must fit in a signed 64-bit integer"
      labels := [⟨"this numeric literal", e.span⟩] }

def SyntaxError.report (e : SyntaxError) : Report where
  message := "Expected " ++ e.expected.text ++ ", found " ++ e.foundText
  code := "parse::unexpected_token"
  help := some ("the parser needed " ++ e.expected.text ++ " at this point")
  labels := [⟨"here", e.span⟩]

def ModeError.report : ModeError → Report
  | .forbidden mode family token =>
    { message := family.name ++ " operator `" ++ token.literal ++ "` used in " ++ mode.name
        ++ " mode"
      code := "mode::forbidden_operator"
      help := some ("switch modes or remove the " ++ family.name ++ " operator")
      labels := [⟨"not allowed here", token.span⟩] }
  | .missingConditional =>
    { message := "no conditional keyword found in conditional mode"
      code := "mode::missing_conditional"
      help := some "write the expression as `if … then … else …`"
      labels := [] }

def EvalError.report : EvalError → Report
  | .divisionByZero =>
    { message := "Division by zero"
      code := "eval::division_by_zero"
      help := some "the right operand of `/` evaluated to 0"
      labels := [] }
  | .overflow operator =>
    { message := "Integer overflow in `" ++ operator ++ "`"
      code := "eval::overflow"
      help := some "results must fit in a signed 64-bit integer"
      labels := [] }
  | .typeMismatch operator cause =>
    { message := "`" ++ operator ++ "` expects " ++ cause.expected ++ ", found " ++ cause.found
      code := "eval::type_mismatch"
      help := none
      labels := [] }

def Error.report : Error → Report
  | .lexical e => e.report
  | .syntactic e => e.report
  | .mode e => e.report
  | .evaluation e => e.report

end CondCalc
