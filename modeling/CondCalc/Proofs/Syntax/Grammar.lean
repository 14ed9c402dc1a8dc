import CondCalc.Expr.Basic
import CondCalc.Token.Basic
import Mathlib.Tactic.Common

/-! The grammar of expressions, apart from any way of reading them. Each level of operators
associates to the left, so its left operand may use the level again and its right one may not;
`!` and parentheses are factors, which bind tighter than every operator. -/
namespace CondCalc

/-- The syntactic categories: a conditional or what may stand in its place, and for each level
the expressions whose operators outside parentheses have at least that level. -/
inductive Phrase where
  | conditional
  | level (l : Nat)
deriving DecidableEq

abbrev Phrase.factor : Phrase :=
  .level 6

/-- The tokens make up the tree, with at most `budget` of the openings `!` and `(` in force at
once. Parentheses leave no trace in the tree. -/
inductive Derives : Nat → Phrase → List Token → Expr → Prop where
  | number (budget : Nat) (n : Int64) (literal : String) (offset : Nat) :
      Derives budget .factor [⟨.number n, literal, offset⟩] (.number n)
  | not {budget : Nat} {ts : List Token} {e : Expr} (literal : String) (offset : Nat) :
      Derives budget .factor ts e →
      Derives (budget + 1) .factor (⟨.bang, literal, offset⟩ :: ts) (.not literal e)
  | paren {budget : Nat} {ts : List Token} {e : Expr} (l₁ l₂ : String) (o₁ o₂ : Nat) :
      Derives budget .conditional ts e →
      Derives (budget + 1) .factor (⟨.leftParen, l₁, o₁⟩ :: (ts ++ [⟨.rightParen, l₂, o₂⟩])) e
  | tighter {budget l : Nat} {ts : List Token} {e : Expr} :
      Derives budget (.level (l + 1)) ts e → Derives budget (.level l) ts e
  | binary {budget l : Nat} {ls rs : List Token} {lhs rhs : Expr} (op : Operator)
      (literal : String) (offset : Nat) :
      op.level = l → Derives budget (.level l) ls lhs → Derives budget (.level (l + 1)) rs rhs →
      Derives budget (.level l) (ls ++ ⟨.binary op, literal, offset⟩ :: rs)
        (.binary op literal lhs rhs)
  | plain {budget : Nat} {ts : List Token} {e : Expr} :
      Derives budget (.level 0) ts e → Derives budget .conditional ts e
  | cond {budget : Nat} {cs ts es : List Token} {c t e : Expr} (l₁ l₂ l₃ : String)
      (o₁ o₂ o₃ : Nat) :
      Derives budget (.level 0) cs c → Derives budget (.level 0) ts t →
      Derives budget (.level 0) es e →
      Derives budget .conditional
        (⟨.ifWord, l₁, o₁⟩ :: (cs ++ ⟨.thenWord, l₂, o₂⟩ :: (ts ++ ⟨.elseWord, l₃, o₃⟩ :: es)))
        (.cond c t e)

/-- The tokens can be the front of a phrase, however deeply it is nested. -/
def Begins (phrase : Phrase) (ts : List Token) : Prop :=
  ∃ budget us e, Derives budget phrase (ts ++ us) e

def Viable (ts : List Token) : Prop :=
  Begins .conditional ts

/-- The next token, if there is one, is no operator of at least the given level. -/
def Stops (least : Nat) (ts : List Token) : Prop :=
  ∀ op literal offset rest, ts = ⟨.binary op, literal, offset⟩ :: rest → op.level < least

theorem stops_nil (least : Nat) : Stops least [] := by
  intro op literal offset rest h
  cases h

theorem stops_six (ts : List Token) : Stops 6 ts :=
  fun op _ _ _ _ => op.level_lt_six

theorem stops_cons {least : Nat} {t : Token} {ts : List Token} (h : t.kind.operator? = none) :
    Stops least (t :: ts) := by
  intro op literal offset rest eq
  cases eq
  cases h

theorem stops_binary {least : Nat} {op : Operator} {literal : String} {offset : Nat}
    {ts : List Token} : Stops least (⟨.binary op, literal, offset⟩ :: ts) ↔ op.level < least := by
  constructor
  · intro h
    exact h op literal offset ts rfl
  · intro h op' literal' offset' rest eq
    cases eq
    exact h

theorem Stops.mono {l m : Nat} {ts : List Token} (h : Stops l ts) (le : l ≤ m) : Stops m ts :=
  fun op literal offset rest eq => Nat.lt_of_lt_of_le (h op literal offset rest eq) le

theorem Stops.swap_head {least : Nat} {rest us : List Token} {t : Token}
    (h : Stops least (t :: rest)) : Stops least (t :: us) := by
  intro op literal offset after eq
  cases eq
  exact h op literal offset rest rfl

theorem Stops.swap {least : Nat} {front rest us : List Token} {t : Token}
    (h : Stops least (front ++ t :: rest)) : Stops least (front ++ t :: us) := by
  cases front with
  | nil => exact h.swap_head
  | cons s front => exact h.swap_head

def Phrase.Stops : Phrase → List Token → Prop
  | conditional => CondCalc.Stops 0
  | level l => CondCalc.Stops l

namespace Derives

theorem ne_if_cons {budget l : Nat} {ts : List Token} {e : Expr}
    (h : Derives budget (.level l) ts e) (literal : String) (offset : Nat) (rest : List Token) :
    ts ≠ ⟨.ifWord, literal, offset⟩ :: rest := by
  generalize eq : Phrase.level l = phrase at h
  induction h generalizing l rest with
  | number | not | paren => simp
  | tighter _ ih => exact ih rest rfl
  | @binary _ _ ls _ _ _ _ _ _ _ _ _ ih _ =>
    intro front
    cases ls with
    | nil => cases front
    | cons t ls =>
      cases front
      exact ih ls rfl rfl
  | plain | cond => cases eq

theorem ne_nil {budget : Nat} {phrase : Phrase} {ts : List Token} {e : Expr}
    (h : Derives budget phrase ts e) : ts ≠ [] := by
  induction h with
  | tighter _ ih => exact ih
  | plain _ ih => exact ih
  | number | not | paren | binary | cond => simp

theorem mono {budget budget' : Nat} {phrase : Phrase} {ts : List Token} {e : Expr}
    (h : Derives budget phrase ts e) (le : budget ≤ budget') : Derives budget' phrase ts e := by
  induction h generalizing budget' with
  | number budget n literal offset => exact .number budget' n literal offset
  | not literal offset _ ih =>
    cases budget' with
    | zero => omega
    | succ b => exact .not literal offset (ih (by omega))
  | paren l₁ l₂ o₁ o₂ _ ih =>
    cases budget' with
    | zero => omega
    | succ b => exact .paren l₁ l₂ o₁ o₂ (ih (by omega))
  | tighter _ ih => exact .tighter (ih le)
  | binary op literal offset eq _ _ ihl ihr =>
    exact .binary op literal offset eq (ihl le) (ihr le)
  | plain _ ih => exact .plain (ih le)
  | cond l₁ l₂ l₃ o₁ o₂ o₃ _ _ _ ihc iht ihe =>
    exact .cond l₁ l₂ l₃ o₁ o₂ o₃ (ihc le) (iht le) (ihe le)

theorem loosen {budget l m : Nat} {ts : List Token} {e : Expr}
    (h : Derives budget (.level m) ts e) (le : l ≤ m) : Derives budget (.level l) ts e := by
  induction le with
  | refl => exact h
  | step _ ih => exact ih h.tighter

end Derives

end CondCalc
