import CondCalc.Expr.Basic
import CondCalc.Proofs.Evaluation.Exact

/-! The course of an evaluation among all integers: the nodes in the order in which they are
completed, each with the exact values that it is completed from. Only a wrong type or a zero
divisor ends it before its time; a value out of range does not. -/
namespace CondCalc

/-- A node and the values found for those of its operands that it needs, from the left. Of a
conditional this is its condition alone. -/
structure Visit where
  node : Expr
  operands : List Exact

namespace Visit

/-- The value of the node; for a conditional, whether its first branch is selected. -/
def result : Visit → Option Exact
  | ⟨.number n, []⟩ => some (.integer n.toInt)
  | ⟨.not _ _, [.boolean b]⟩ => some (.boolean !b)
  | ⟨.binary _ _ _ _, [.boolean b]⟩ => some (.boolean b)
  | ⟨.binary op _ _ _, [x, y]⟩ => op.result? x y
  | ⟨.cond _ _ _, [.boolean b]⟩ => some (.boolean b)
  | _ => none

theorem result_binary (op : Operator) (literal : String) (l r : Expr) (x y : Exact) :
    result ⟨.binary op literal l r, [x, y]⟩ = op.result? x y := by
  cases x <;> rfl

inductive Fails : Visit → EvalError → Prop where
  | divisionByZero (literal : String) (l r : Expr) (a : Int) :
      Fails ⟨.binary .div literal l r, [.integer a, .integer 0]⟩ .divisionByZero
  | overflow {op : Operator} {a b n : Int} (literal : String) (l r : Expr) :
      op.arithmetic? a b = some n → ¬CondCalc.Fits n →
      Fails ⟨.binary op literal l r, [.integer a, .integer b]⟩ (.overflow literal)
  | operands {op : Operator} {x y : Exact} (literal : String) (l r : Expr) :
      ¬op.Suits x.ty y.ty →
      Fails ⟨.binary op literal l r, [x, y]⟩ (.typeMismatch literal (op.mismatch x.ty y.ty))
  | leftOperand {op : Operator} (literal : String) (l r : Expr) (n : Int) :
      (∀ t, ¬op.Suits .integer t) →
      Fails ⟨.binary op literal l r, [.integer n]⟩ (.typeMismatch literal .leftOperand)
  | negated (literal : String) (e : Expr) (n : Int) :
      Fails ⟨.not literal e, [.integer n]⟩ (.typeMismatch literal .negated)
  | condition (c t e : Expr) (n : Int) :
      Fails ⟨.cond c t e, [.integer n]⟩ (.typeMismatch "if" .condition)

def Completes (n : Visit) : Prop :=
  ∀ x, ¬n.Fails x

def InRange : Visit → Prop
  | ⟨.binary op _ _ _, [.integer a, .integer b]⟩ =>
    ∀ n, op.arithmetic? a b = some n → CondCalc.Fits n
  | _ => True

end Visit

structure Course where
  visits : List Visit
  value : Option Exact

def Course.andThen (c : Course) (next : Exact → Course) : Course :=
  match c.value with
  | none => c
  | some x => ⟨c.visits ++ (next x).visits, (next x).value⟩

namespace Expr

def visit (node : Expr) (operands : List Exact) : Course :=
  ⟨[⟨node, operands⟩], Visit.result ⟨node, operands⟩⟩

/-- The evaluation from left to right, without regard to the range of values. -/
def course : Expr → Course
  | number n => (number n).visit []
  | not literal e => e.course.andThen fun x => (not literal e).visit [x]
  | binary op literal l r =>
    l.course.andThen fun x =>
      if op.settledBy x then (binary op literal l r).visit [x]
      else r.course.andThen fun y => (binary op literal l r).visit [x, y]
  | cond c t e =>
    c.course.andThen fun x =>
      ((cond c t e).visit [x]).andThen fun selected =>
        if selected = .boolean true then t.course else e.course

end Expr

/-- The first node that cannot be completed, and why. -/
def Course.FirstFails (c : Course) (n : Visit) (x : EvalError) : Prop :=
  ∃ before after, c.visits = before ++ n :: after ∧ (∀ m ∈ before, m.Completes) ∧ n.Fails x

namespace Visit

theorem completes_of_result {n : Visit} {z : Exact} (value : n.result = some z)
    (range : n.InRange) : n.Completes := by
  intro x fails
  cases fails with
  | divisionByZero => cases value
  | overflow literal l r eq out => exact out (range _ eq)
  | operands literal l r unsuited =>
    rw [result_binary] at value
    exact unsuited (Operator.suits_of_result? value)
  | leftOperand | negated | condition => cases value

theorem Completes.inRange {n : Visit} (h : n.Completes) : n.InRange := by
  unfold InRange
  split
  · intro k exact
    by_contra out
    exact h _ (.overflow _ _ _ exact out)
  · trivial

theorem Fails.unique {n : Visit} {x y : EvalError} (hx : n.Fails x) (hy : n.Fails y) : x = y := by
  cases hx with
  | divisionByZero literal l r a =>
    cases hy with
    | divisionByZero => rfl
    | overflow _ _ _ eq => cases eq
    | operands _ _ _ unsuited => exact absurd ⟨rfl, rfl⟩ unsuited
  | overflow literal l r eq out =>
    cases hy with
    | divisionByZero => cases eq
    | overflow => rfl
    | operands _ _ _ unsuited => exact absurd (Operator.suits_of_arithmetic? eq) unsuited
  | operands literal l r unsuited =>
    cases hy with
    | divisionByZero => exact absurd ⟨rfl, rfl⟩ unsuited
    | overflow _ _ _ eq => exact absurd (Operator.suits_of_arithmetic? eq) unsuited
    | operands => rfl
  | leftOperand | negated | condition => cases hy; rfl

end Visit

theorem Course.FirstFails.unique {c : Course} {n m : Visit} {x y : EvalError}
    (hn : c.FirstFails n x) (hm : c.FirstFails m y) : n = m ∧ x = y := by
  obtain ⟨before, after, eq, completes, fails⟩ := hn
  obtain ⟨before', after', eq', completes', fails'⟩ := hm
  have same : n = m := by
    rcases List.append_eq_append_iff.1 (eq.symm.trans eq') with ⟨us, hb, ha⟩ | ⟨us, hb, ha⟩
    · cases us with
      | nil => cases ha; rfl
      | cons u us =>
        cases ha
        exact absurd fails (completes' _ (by simp [hb]) x)
    · cases us with
      | nil => cases ha; rfl
      | cons u us =>
        cases ha
        exact absurd fails' (completes _ (by simp [hb]) y)
  subst same
  exact ⟨rfl, fails.unique fails'⟩

def Course.Resulting (c : Course) : Prop :=
  ∀ z, c.value = some z → ∀ n ∈ c.visits, ∃ y, n.result = some y

theorem Course.Resulting.andThen {c : Course} {next : Exact → Course} (h : c.Resulting)
    (hn : ∀ x, (next x).Resulting) : (c.andThen next).Resulting := by
  unfold Course.andThen
  cases hv : c.value with
  | none => exact h
  | some x =>
    intro z eq n mem
    rcases List.mem_append.1 mem with mem | mem
    · exact h x hv n mem
    · exact hn x z eq n mem

theorem Expr.visit_resulting (node : Expr) (operands : List Exact) :
    (node.visit operands).Resulting := by
  intro z eq n mem
  cases List.mem_singleton.1 mem
  exact ⟨z, eq⟩

theorem Expr.course_resulting (e : Expr) : e.course.Resulting := by
  induction e with
  | number n => exact visit_resulting _ _
  | not literal e ih => exact ih.andThen fun x => visit_resulting _ _
  | binary op literal l r ihl ihr =>
    refine ihl.andThen fun x => ?_
    split
    · exact visit_resulting _ _
    · exact ihr.andThen fun y => visit_resulting _ _
  | cond c t e ihc iht ihe =>
    refine ihc.andThen fun x => (visit_resulting _ _).andThen fun selected => ?_
    split
    · exact iht
    · exact ihe

end CondCalc
