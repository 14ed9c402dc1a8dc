import CondCalc.Expr.Basic
import CondCalc.Expr.SyntaxError

/-! Expressions from tokens, by climbing the levels of the operators. Two limits bound every
run: the `!` and `(` open at once, counted on the way down, and the height of the tree, counted
on the way up. Between two openings each call asks for a tighter level than its caller, so the
limits alone bound the recursion, whatever the tokens are. -/
namespace CondCalc

/-- The greatest height of a tree, and the most `!` and `(` that may be open at once. -/
def depthLimit : Nat := 256

namespace Climb

/-- A tree read from the front of a list of tokens, its height, and the tokens after it. -/
structure Parsed where
  expr : Expr
  height : Nat
  rest : List Token
deriving DecidableEq

def expect (kind : Kind) (expected : Expectation) : List Token → Except Unexpected (List Token)
  | [] => .error ⟨expected, []⟩
  | t :: ts => if t.kind = kind then .ok ts else .error ⟨expected, t :: ts⟩

/-- The height of a node over children of which the tallest is `tallest` high. The node's token
stands first in `ts` and is refused if the node would be too high. -/
def grow (tallest : Nat) (ts : List Token) : Except Unexpected Nat :=
  if tallest < depthLimit then .ok (tallest + 1) else .error ⟨.shallowerNesting, ts⟩

mutual

/-- Condition and branches hold no bare conditional: one in there stands in parentheses. -/
def conditional (nesting : Nat) (ts : List Token) : Except Unexpected Parsed :=
  match ts with
  | ⟨.ifWord, _, _⟩ :: rest => do
    let c ← within nesting 0 rest
    let rest ← expect .thenWord .thenWord c.rest
    let t ← within nesting 0 rest
    let rest ← expect .elseWord .elseWord t.rest
    let e ← within nesting 0 rest
    let height ← grow (max (max c.height t.height) e.height) ts
    return ⟨.cond c.expr t.expr e.expr, height, e.rest⟩
  | _ => within nesting 0 ts
termination_by (depthLimit - nesting, 100, 0)

/-- An expression whose operators, those in parentheses apart, have at least level `least`. -/
def within (nesting least : Nat) (ts : List Token) : Except Unexpected Parsed := do
  let lhs ← factor nesting ts
  chain nesting least lhs.expr lhs.height lhs.rest
termination_by (depthLimit - nesting, 2 * (7 - least) + 1, 0)

def chain (nesting least : Nat) (lhs : Expr) (height : Nat) (ts : List Token) :
    Except Unexpected Parsed :=
  match ts with
  | ⟨.binary op, literal, _⟩ :: rest =>
    if _h : least ≤ op.level then do
      let rhs ← within nesting (op.level + 1) rest
      if _g : max height rhs.height < depthLimit then
        chain nesting least (.binary op literal lhs rhs.expr) (max height rhs.height + 1) rhs.rest
      else
        .error ⟨.shallowerNesting, ts⟩
    else
      .ok ⟨lhs, height, ts⟩
  | _ => .ok ⟨lhs, height, ts⟩
termination_by (depthLimit - nesting, 2 * (7 - least), depthLimit - height)
decreasing_by
  · have := op.level_lt_six
    exact Prod.Lex.right _ (Prod.Lex.left _ _ (by omega))
  · exact Prod.Lex.right _ (Prod.Lex.right _ (by omega))

def factor (nesting : Nat) (ts : List Token) : Except Unexpected Parsed :=
  match ts with
  | ⟨.number n, _, _⟩ :: rest => .ok ⟨.number n, 1, rest⟩
  | ⟨.bang, literal, _⟩ :: rest =>
    if _h : nesting < depthLimit then do
      let x ← factor (nesting + 1) rest
      let height ← grow x.height ts
      return ⟨.not literal x.expr, height, x.rest⟩
    else
      .error ⟨.shallowerNesting, ts⟩
  | ⟨.leftParen, _, _⟩ :: rest =>
    if _h : nesting < depthLimit then do
      let x ← conditional (nesting + 1) rest
      let rest ← expect .rightParen .closeParen x.rest
      return ⟨x.expr, x.height, rest⟩
    else
      .error ⟨.shallowerNesting, ts⟩
  | _ => .error ⟨.factor, ts⟩
termination_by (depthLimit - nesting, 0, 0)

end

def whole (ts : List Token) : Except Unexpected Expr := do
  let p ← conditional 0 ts
  if p.rest.isEmpty then
    return p.expr
  else
    .error ⟨.endOfInput, p.rest⟩

end Climb

def Expr.ofTokens (ts : List Token) : Except SyntaxError Expr :=
  (Climb.whole ts).mapError (·.locate ts)

end CondCalc
