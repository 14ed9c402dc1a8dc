import CondCalc.Mode
import CondCalc.Proofs.Evaluation.Relabelling

/-! Lists of tokens of the same kinds through all stages behind the tokenizer. What the tokens are
written as and where they stand changes nothing but what trees and errors quote. -/
namespace CondCalc

/-- The errors object to tokens at the same place in two lists, or miss the same in both. -/
inductive ModeError.Alike (ts ts' : List Token) : ModeError → ModeError → Prop where
  | forbidden {t t' : Token} (mode : Mode) (family : Family) (i : Nat) :
      ts[i]? = some t → ts'[i]? = some t' →
      Alike ts ts' (.forbidden mode family t) (.forbidden mode family t')
  | missingConditional : Alike ts ts' .missingConditional .missingConditional

theorem ModeError.Alike.cons {ts ts' : List Token} {x x' : ModeError}
    (h : ModeError.Alike ts ts' x x') (t t' : Token) :
    ModeError.Alike (t :: ts) (t' :: ts') x x' := by
  cases h with
  | forbidden mode family i ht ht' => exact .forbidden mode family (i + 1) ht ht'
  | missingConditional => exact .missingConditional

namespace Mode

variable {ts ts' : List Token}

theorem objections_alike (m : Mode) (same : SameKinds ts ts') :
    Option.Rel (ModeError.Alike ts ts') (ts.findSome? m.objection?)
      (ts'.findSome? m.objection?) := by
  induction same with
  | nil => exact .none
  | @cons t t' ts ts' eq _ ih =>
    have later : Option.Rel (ModeError.Alike (t :: ts) (t' :: ts')) (ts.findSome? m.objection?)
        (ts'.findSome? m.objection?) := by
      generalize ts.findSome? m.objection? = x at ih ⊢
      generalize ts'.findSome? m.objection? = x' at ih ⊢
      cases ih with
      | some alike => exact .some (alike.cons t t')
      | none => exact .none
    simp only [List.findSome?_cons, objection?, ← eq]
    cases t.kind.family? with
    | none => exact later
    | some f =>
      by_cases allowed : m.allows f
      · simp only [allowed, ↓reduceIte]
        exact later
      · simp only [allowed]
        exact .some (.forbidden m f 0 rfl rfl)

theorem check_alike (m : Mode) (same : SameKinds ts ts') :
    Matches (· = ·) (ModeError.Alike ts ts') (m.check ts) (m.check ts') := by
  have families : (∀ t ∈ ts, t.kind.family? ≠ some .conditional) ↔
      ∀ t ∈ ts', t.kind.family? ≠ some .conditional := by
    induction same with
    | nil => rfl
    | cons eq _ ih => rw [List.forall_mem_cons, List.forall_mem_cons, eq, ih]
  have objections := m.objections_alike same
  unfold check
  generalize ts.findSome? m.objection? = x at objections ⊢
  generalize ts'.findSome? m.objection? = x' at objections ⊢
  cases objections with
  | some alike => exact alike
  | none =>
    dsimp only
    split <;> rename_i missing
    · rw [if_pos ⟨missing.1, families.mp missing.2⟩]
      exact .missingConditional
    · rw [if_neg fun missing' => missing ⟨missing'.1, families.mpr missing'.2⟩]
      rfl

end Mode

/-- What the tokens are written as and where they stand has no influence. Lists of the same kinds
have trees that differ in the literals of operators, each of which is the one of its token; these
trees have the same value, or fail alike in the same place; or the same is expected at the same
place of both lists. And each mode takes both lists, or objects to tokens at the same place. -/
theorem labels_change_labels_only (ts ts' : List Token) (same : SameKinds ts ts') :
    (∀ e, Expr.ofTokens ts = .ok e ↔ e.literals = operatorLiterals ts ∧
      Expr.ofTokens ts' = .ok (e.relabel (operatorLiterals ts'))) ∧
    (∀ e e', Expr.ofTokens ts = .ok e → Expr.ofTokens ts' = .ok e' →
      Matches (· = ·) (e.BreakTogether e') e.eval e'.eval) ∧
    (∀ x, Expr.ofTokens ts = .error x →
      ∃ x', Expr.ofTokens ts' = .error x' ∧ SyntaxError.Alike ts ts' x x') ∧
    ∀ m : Mode, Matches (· = ·) (ModeError.Alike ts ts') (m.check ts) (m.check ts') := by
  refine ⟨fun e => ofTokens_eq_ok_iff_relabel same, ?_, ?_, fun m => m.check_alike same⟩
  · intro e e' h h'
    obtain ⟨e'', h'', alike⟩ := (ofTokens_alike same).of_ok h
    cases h'.symm.trans h''
    exact Expr.eval_together alike
  · intro x h
    exact (ofTokens_alike same).of_error h

theorem labels_change_labels_only_of_odd_texts :
    let ts : List Token := [⟨.number 9, "9", 0⟩, ⟨.binary .mul, "*", 1⟩, ⟨.bang, "!", 2⟩,
      ⟨.number 8, "8", 3⟩]
    let ts' : List Token := [⟨.number 9, "nine", 70⟩, ⟨.binary .mul, "times", 3⟩,
      ⟨.bang, "", 3⟩, ⟨.number 8, "0", 12⟩]
    SameKinds ts ts' ∧
      (∀ e, Expr.ofTokens ts = .ok e ↔ e.literals = operatorLiterals ts ∧
        Expr.ofTokens ts' = .ok (e.relabel (operatorLiterals ts'))) ∧
      (∀ e e', Expr.ofTokens ts = .ok e → Expr.ofTokens ts' = .ok e' →
        Matches (· = ·) (e.BreakTogether e') e.eval e'.eval) ∧
      (∀ x, Expr.ofTokens ts = .error x →
        ∃ x', Expr.ofTokens ts' = .error x' ∧ SyntaxError.Alike ts ts' x x') ∧
      ∀ m : Mode, Matches (· = ·) (ModeError.Alike ts ts') (m.check ts) (m.check ts') := by
  intro ts ts'
  have same : SameKinds ts ts' := .cons rfl (.cons rfl (.cons rfl (.cons rfl .nil)))
  exact ⟨same, labels_change_labels_only ts ts' same⟩

end CondCalc
