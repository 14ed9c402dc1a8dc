import CondCalc.Expr.Climb
import CondCalc.Expr.Eval
import CondCalc.Mode
import CondCalc.Token.Cursor

/-! From a text to its value. Each stage takes what the one before it made, and the first
failure is the answer. -/
namespace CondCalc

inductive Error where
  | lexical (e : LexError)
  | syntactic (e : SyntaxError)
  | mode (e : ModeError)
  | evaluation (e : EvalError)
deriving DecidableEq

structure Outcome where
  tokens : List Token
  tree : Expr
  value : Value
deriving DecidableEq

def tokensOf (text : String) : Except Error (List Token) :=
  (tokenize text).mapError .lexical

def treeOf (ts : List Token) : Except Error Expr :=
  (Expr.ofTokens ts).mapError .syntactic

def valueOf (tree : Expr) : Except Error Value :=
  tree.eval.mapError .evaluation

def checkMode (mode : Option Mode) (ts : List Token) : Except Error Unit :=
  match mode with
  | some m => (m.check ts).mapError .mode
  | none => .ok ()

/-- The mode is checked before the tokens are read as a tree. -/
def calculate (text : String) (mode : Option Mode) : Except Error Outcome := do
  let tokens ← tokensOf text
  checkMode mode tokens
  let tree ← treeOf tokens
  let value ← valueOf tree
  return ⟨tokens, tree, value⟩

end CondCalc
