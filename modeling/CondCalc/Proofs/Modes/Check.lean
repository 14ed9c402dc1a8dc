import CondCalc.Mode
import CondCalc.Proofs.Syntax.Nodes
import CondCalc.Proofs.Syntax.Reading

/-! What a mode accepts. The check sees only tokens, but every family that occurs among them
occurs among the nodes of the tree, and the other way round; so where the tokens are an
expression, the check judges its tree. -/
namespace CondCalc

namespace Mode

variable {m : Mode} {t : Token} {ts : List Token} {x : ModeError}

theorem objection?_eq_none_iff :
    m.objection? t = none ↔ ∀ f, t.kind.family? = some f → m.allows f := by
  unfold objection?
  split
  next f h => simp [h]
  next h => simp [h]

theorem objection?_eq_some_iff : m.objection? t = some x ↔
    ∃ f, t.kind.family? = some f ∧ ¬m.allows f ∧ x = .forbidden m f t := by
  unfold objection?
  split
  next f h => simp [h, eq_comm (a := x)]
  next h => simp [h]

theorem check_eq_ok_iff : m.check ts = .ok () ↔
    (∀ t ∈ ts, m.objection? t = none) ∧
      (m = conditional → ∃ t ∈ ts, t.kind.family? = some .conditional) := by
  unfold check
  split
  next x h =>
    obtain ⟨t, mem, objects⟩ := List.exists_of_findSome?_eq_some h
    simp only [reduceCtorEq, false_iff]
    intro accepted
    rw [accepted.1 t mem] at objects
    cases objects
  next h =>
    rw [List.findSome?_eq_none_iff] at h
    by_cases missing : m = conditional ∧ ∀ t ∈ ts, t.kind.family? ≠ some .conditional
    · rw [if_pos missing]
      simp only [reduceCtorEq, false_iff]
      rintro ⟨-, required⟩
      obtain ⟨t, mem, eq⟩ := required missing.1
      exact missing.2 t mem eq
    · rw [if_neg missing]
      refine iff_of_true rfl ⟨h, fun conditional => ?_⟩
      by_contra none
      exact missing ⟨conditional, fun t mem eq => none ⟨t, mem, eq⟩⟩

theorem check_eq_error_iff : m.check ts = .error x ↔
    (∃ before t after, ts = before ++ t :: after ∧ m.objection? t = some x ∧
      ∀ s ∈ before, m.objection? s = none) ∨
    ((∀ t ∈ ts, m.objection? t = none) ∧ m = conditional ∧
      (∀ t ∈ ts, t.kind.family? ≠ some .conditional) ∧ x = .missingConditional) := by
  unfold check
  split
  next y h =>
    rw [Except.error.injEq, ← Option.some.injEq, ← h, List.findSome?_eq_some_iff]
    refine (or_iff_left ?_).symm
    rintro ⟨accepted, -⟩
    rw [List.findSome?_eq_none_iff.2 accepted] at h
    cases h
  next h =>
    have none_some : ¬∃ before t after, ts = before ++ t :: after ∧ m.objection? t = some x ∧
        ∀ s ∈ before, m.objection? s = none := by
      rw [← List.findSome?_eq_some_iff, h]
      simp
    rw [List.findSome?_eq_none_iff] at h
    rw [or_iff_right none_some]
    by_cases missing : m = conditional ∧ ∀ t ∈ ts, t.kind.family? ≠ some .conditional
    · rw [if_pos missing, Except.error.injEq, eq_comm]
      exact ⟨fun eq => ⟨h, missing.1, missing.2, eq⟩, fun all => all.2.2.2⟩
    · rw [if_neg missing]
      simp only [reduceCtorEq, false_iff]
      rintro ⟨-, conditional, none, -⟩
      exact missing ⟨conditional, none⟩

end Mode

namespace Expr

def IsArithmetic : Expr → Prop
  | number _ => True
  | binary .add .. | binary .sub .. | binary .mul .. | binary .div .. => True
  | _ => False

def IsLogical : Expr → Prop
  | number _ => True
  | not .. => True
  | binary .and .. | binary .or .. | binary .eq .. | binary .neq .. => True
  | binary .gt .. | binary .gte .. | binary .lt .. | binary .lte .. => True
  | _ => False

def IsConditional : Expr → Prop
  | cond .. => True
  | _ => False

theorem isArithmetic_iff {e : Expr} :
    e.IsArithmetic ↔ ∀ f, e.family? = some f → Mode.arithmetic.allows f := by
  cases e with
  | number | not | cond => simp [IsArithmetic, family?, Mode.allows]
  | binary op => cases op <;> simp [IsArithmetic, family?, Operator.family, Mode.allows]

theorem isLogical_iff {e : Expr} :
    e.IsLogical ↔ ∀ f, e.family? = some f → Mode.logical.allows f := by
  cases e with
  | number | not | cond => simp [IsLogical, family?, Mode.allows]
  | binary op => cases op <;> simp [IsLogical, family?, Operator.family, Mode.allows]

theorem isConditional_iff {e : Expr} : e.IsConditional ↔ e.family? = some .conditional := by
  cases e with
  | number | not | cond => simp [IsConditional, family?]
  | binary op => cases op <;> simp [IsConditional, family?, Operator.family]

end Expr

/-- A mode objects to no token exactly if it allows the families of all nodes. -/
theorem Derives.objection?_eq_none_iff {budget : Nat} {phrase : Phrase} {ts : List Token}
    {e : Expr} (h : Derives budget phrase ts e) (m : Mode) :
    (∀ t ∈ ts, m.objection? t = none) ↔ ∀ n ∈ e.nodes, ∀ f, n.family? = some f → m.allows f := by
  simp only [Mode.objection?_eq_none_iff]
  constructor
  · intro allowed n mem f eq
    obtain ⟨t, mem, eq⟩ := (h.exists_family?_iff f).2 ⟨n, mem, eq⟩
    exact allowed t mem f eq
  · intro allowed t mem f eq
    obtain ⟨n, mem, eq⟩ := (h.exists_family?_iff f).1 ⟨t, mem, eq⟩
    exact allowed n mem f eq

section accepted

variable {ts : List Token} {e : Expr}

theorem check_arithmetic_iff (h : Expr.ofTokens ts = .ok e) :
    Mode.arithmetic.check ts = .ok () ↔ ∀ n ∈ e.nodes, n.IsArithmetic := by
  have derives := (Climb.reads_of_ofTokens h).derives
  simp [Mode.check_eq_ok_iff, derives.objection?_eq_none_iff, Expr.isArithmetic_iff]

theorem check_logical_iff (h : Expr.ofTokens ts = .ok e) :
    Mode.logical.check ts = .ok () ↔ ∀ n ∈ e.nodes, n.IsLogical := by
  have derives := (Climb.reads_of_ofTokens h).derives
  simp [Mode.check_eq_ok_iff, derives.objection?_eq_none_iff, Expr.isLogical_iff]

theorem check_conditional_iff (h : Expr.ofTokens ts = .ok e) :
    Mode.conditional.check ts = .ok () ↔ ∃ n ∈ e.nodes, n.IsConditional := by
  have derives := (Climb.reads_of_ofTokens h).derives
  simp [Mode.check_eq_ok_iff, derives.objection?_eq_none_iff, derives.exists_family?_iff,
    Expr.isConditional_iff, Mode.allows]

end accepted

/-- On the tokens of an expression a mode accepts what the nodes of its tree show: arithmetic
mode only arithmetic, logical mode only logic, conditional mode at least one conditional. -/
theorem check_iff_nodes (ts : List Token) (e : Expr) (h : Expr.ofTokens ts = .ok e) :
    (Mode.arithmetic.check ts = .ok () ↔ ∀ n ∈ e.nodes, n.IsArithmetic) ∧
      (Mode.logical.check ts = .ok () ↔ ∀ n ∈ e.nodes, n.IsLogical) ∧
      (Mode.conditional.check ts = .ok () ↔ ∃ n ∈ e.nodes, n.IsConditional) :=
  ⟨check_arithmetic_iff h, check_logical_iff h, check_conditional_iff h⟩

theorem check_iff_nodes_mixed :
    let ts : List Token := [⟨.ifWord, "if", 0⟩, ⟨.number 1, "1", 3⟩, ⟨.binary .lt, "<", 5⟩,
      ⟨.number 2, "2", 7⟩, ⟨.thenWord, "then", 9⟩, ⟨.leftParen, "(", 14⟩, ⟨.number 3, "3", 15⟩,
      ⟨.binary .add, "+", 17⟩, ⟨.number 4, "4", 19⟩, ⟨.rightParen, ")", 20⟩,
      ⟨.elseWord, "else", 22⟩, ⟨.number 5, "5", 27⟩]
    let e : Expr := .cond (.binary .lt "<" (.number 1) (.number 2))
      (.binary .add "+" (.number 3) (.number 4)) (.number 5)
    Expr.ofTokens ts = .ok e ∧
      (Mode.arithmetic.check ts = .ok () ↔ ∀ n ∈ e.nodes, n.IsArithmetic) ∧
      (Mode.logical.check ts = .ok () ↔ ∀ n ∈ e.nodes, n.IsLogical) ∧
      (Mode.conditional.check ts = .ok () ↔ ∃ n ∈ e.nodes, n.IsConditional) := by
  intro ts e
  have h : Expr.ofTokens ts = .ok e := by
    cbv
  exact ⟨h, check_iff_nodes ts e h⟩

end CondCalc
