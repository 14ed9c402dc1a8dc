import CondCalc.Expr.Climb
import CondCalc.Proofs.Outcome

/-! What each of the climbing functions can do, said once: for every way it goes on, the calls it
made, and for every way it ends with an error, the call or the check that failed. -/
namespace CondCalc.Climb

theorem expect_eq_ok_iff {kind : Kind} {x : Expectation} {ts rest : List Token} :
    expect kind x ts = .ok rest ↔ ∃ literal offset, ts = ⟨kind, literal, offset⟩ :: rest := by
  cases ts with
  | nil => simp [expect]
  | cons t ts =>
    obtain ⟨k, literal, offset⟩ := t
    simp only [expect]
    split <;> simp_all

theorem expect_eq_error_iff {kind : Kind} {x : Expectation} {ts : List Token} {u : Unexpected} :
    expect kind x ts = .error u ↔ (∀ t ∈ ts.head?, t.kind ≠ kind) ∧ u = ⟨x, ts⟩ := by
  cases ts with
  | nil => simp [expect, eq_comm]
  | cons t ts =>
    simp only [expect]
    split <;> simp_all [eq_comm]

theorem grow_eq_ok_iff {tallest n : Nat} {ts : List Token} :
    grow tallest ts = .ok n ↔ tallest < depthLimit ∧ n = tallest + 1 := by
  by_cases lt : tallest < depthLimit
  · simp [grow, lt, eq_comm]
  · simp [grow, lt]

theorem grow_eq_error_iff {tallest : Nat} {ts : List Token} {u : Unexpected} :
    grow tallest ts = .error u ↔ ¬tallest < depthLimit ∧ u = ⟨.shallowerNesting, ts⟩ := by
  by_cases lt : tallest < depthLimit
  · simp [grow, lt]
  · simp [grow, lt, eq_comm]

variable {nesting least height : Nat} {l₁ : String} {o₁ : Nat} {ts : List Token} {lhs : Expr}
  {op : Operator} {p : Parsed} {u : Unexpected}

theorem conditional_eq_within (h : ∀ l o rest, ts ≠ ⟨.ifWord, l, o⟩ :: rest) :
    conditional nesting ts = within nesting 0 ts := by
  rw [conditional]
  exact h

theorem conditional_if_eq_ok_iff :
    conditional nesting (⟨.ifWord, l₁, o₁⟩ :: ts) = .ok p ↔
      ∃ c t e l₂ o₂ ts₂ l₃ o₃ ts₃,
        within nesting 0 ts = .ok c ∧ c.rest = ⟨.thenWord, l₂, o₂⟩ :: ts₂ ∧
        within nesting 0 ts₂ = .ok t ∧ t.rest = ⟨.elseWord, l₃, o₃⟩ :: ts₃ ∧
        within nesting 0 ts₃ = .ok e ∧ max (max c.height t.height) e.height < depthLimit ∧
        p = ⟨.cond c.expr t.expr e.expr, max (max c.height t.height) e.height + 1, e.rest⟩ := by
  rw [conditional]
  simp only [bind_eq_ok_iff, expect_eq_ok_iff, grow_eq_ok_iff, pure, Except.pure,
    Except.ok.injEq]
  constructor
  · rintro ⟨c, hc, ts₂, ⟨l₂, o₂, eq₂⟩, t, ht, ts₃, ⟨l₃, o₃, eq₃⟩, e, he, _, ⟨lt, rfl⟩, rfl⟩
    exact ⟨c, t, e, l₂, o₂, ts₂, l₃, o₃, ts₃, hc, eq₂, ht, eq₃, he, lt, rfl⟩
  · rintro ⟨c, t, e, l₂, o₂, ts₂, l₃, o₃, ts₃, hc, eq₂, ht, eq₃, he, lt, rfl⟩
    exact ⟨c, hc, ts₂, ⟨l₂, o₂, eq₂⟩, t, ht, ts₃, ⟨l₃, o₃, eq₃⟩, e, he, _, ⟨lt, rfl⟩, rfl⟩

theorem conditional_if_eq_error_iff :
    conditional nesting (⟨.ifWord, l₁, o₁⟩ :: ts) = .error u ↔
      within nesting 0 ts = .error u ∨ ∃ c, within nesting 0 ts = .ok c ∧
        (expect .thenWord .thenWord c.rest = .error u ∨
          ∃ l₂ o₂ ts₂, c.rest = ⟨.thenWord, l₂, o₂⟩ :: ts₂ ∧
        (within nesting 0 ts₂ = .error u ∨ ∃ t, within nesting 0 ts₂ = .ok t ∧
        (expect .elseWord .elseWord t.rest = .error u ∨
          ∃ l₃ o₃ ts₃, t.rest = ⟨.elseWord, l₃, o₃⟩ :: ts₃ ∧
        (within nesting 0 ts₃ = .error u ∨ ∃ e, within nesting 0 ts₃ = .ok e ∧
          ¬max (max c.height t.height) e.height < depthLimit ∧
          u = ⟨.shallowerNesting, ⟨.ifWord, l₁, o₁⟩ :: ts⟩)))) := by
  rw [conditional]
  simp only [bind_eq_error_iff, expect_eq_ok_iff, grow_eq_error_iff, pure, Except.pure,
    reduceCtorEq, and_false, exists_false, or_false]
  grind

theorem within_eq_ok_iff : within nesting least ts = .ok p ↔
    ∃ x, factor nesting ts = .ok x ∧ chain nesting least x.expr x.height x.rest = .ok p := by
  rw [within]
  exact bind_eq_ok_iff

theorem within_eq_error_iff : within nesting least ts = .error u ↔
    factor nesting ts = .error u ∨
      ∃ x, factor nesting ts = .ok x ∧ chain nesting least x.expr x.height x.rest = .error u := by
  rw [within]
  exact bind_eq_error_iff

theorem chain_binary_eq_ok_iff (le : least ≤ op.level) :
    chain nesting least lhs height (⟨.binary op, l₁, o₁⟩ :: ts) = .ok p ↔
      ∃ rhs, within nesting (op.level + 1) ts = .ok rhs ∧ max height rhs.height < depthLimit ∧
        chain nesting least (.binary op l₁ lhs rhs.expr) (max height rhs.height + 1) rhs.rest
          = .ok p := by
  rw [chain]
  simp only [le, dite_true, bind_eq_ok_iff]
  refine exists_congr fun rhs => and_congr_right fun _ => ?_
  by_cases lt : max height rhs.height < depthLimit
  · simp only [lt, dite_true, true_and]
  · simp only [lt, dite_false, false_and, reduceCtorEq]

theorem chain_binary_eq_error_iff (le : least ≤ op.level) :
    chain nesting least lhs height (⟨.binary op, l₁, o₁⟩ :: ts) = .error u ↔
      within nesting (op.level + 1) ts = .error u ∨
        ∃ rhs, within nesting (op.level + 1) ts = .ok rhs ∧
          (¬max height rhs.height < depthLimit ∧
              u = ⟨.shallowerNesting, ⟨.binary op, l₁, o₁⟩ :: ts⟩ ∨
            max height rhs.height < depthLimit ∧
              chain nesting least (.binary op l₁ lhs rhs.expr) (max height rhs.height + 1) rhs.rest
                = .error u) := by
  rw [chain]
  simp only [le, dite_true, bind_eq_error_iff]
  refine or_congr_right (exists_congr fun rhs => and_congr_right fun _ => ?_)
  by_cases lt : max height rhs.height < depthLimit
  · simp only [lt, dite_true, not_true, false_and, true_and, false_or]
  · simp only [lt, dite_false, not_false_eq_true, true_and, false_and, or_false,
      Except.error.injEq, eq_comm]

theorem factor_bang_eq_ok_iff : factor nesting (⟨.bang, l₁, o₁⟩ :: ts) = .ok p ↔
    nesting < depthLimit ∧ ∃ x, factor (nesting + 1) ts = .ok x ∧ x.height < depthLimit ∧
      p = ⟨.not l₁ x.expr, x.height + 1, x.rest⟩ := by
  rw [factor]
  by_cases lt : nesting < depthLimit
  · simp only [lt, dite_true, bind_eq_ok_iff, grow_eq_ok_iff, pure, Except.pure,
      Except.ok.injEq, true_and]
    grind
  · simp only [lt, dite_false, false_and, reduceCtorEq]

theorem factor_bang_eq_error_iff : factor nesting (⟨.bang, l₁, o₁⟩ :: ts) = .error u ↔
    ¬nesting < depthLimit ∧ u = ⟨.shallowerNesting, ⟨.bang, l₁, o₁⟩ :: ts⟩ ∨
      nesting < depthLimit ∧ (factor (nesting + 1) ts = .error u ∨
        ∃ x, factor (nesting + 1) ts = .ok x ∧ ¬x.height < depthLimit ∧
          u = ⟨.shallowerNesting, ⟨.bang, l₁, o₁⟩ :: ts⟩) := by
  rw [factor]
  by_cases lt : nesting < depthLimit
  · simp only [lt, dite_true, bind_eq_error_iff, grow_eq_error_iff, pure, Except.pure,
      reduceCtorEq, and_false, exists_false, or_false, not_true, false_and, true_and, false_or]
  · simp only [lt, dite_false, not_false_eq_true, true_and, false_and, or_false,
      Except.error.injEq, eq_comm]

theorem factor_paren_eq_ok_iff : factor nesting (⟨.leftParen, l₁, o₁⟩ :: ts) = .ok p ↔
    nesting < depthLimit ∧ ∃ x l₂ o₂ rest, conditional (nesting + 1) ts = .ok x ∧
      x.rest = ⟨.rightParen, l₂, o₂⟩ :: rest ∧ p = ⟨x.expr, x.height, rest⟩ := by
  rw [factor]
  by_cases lt : nesting < depthLimit
  · simp only [lt, dite_true, bind_eq_ok_iff, expect_eq_ok_iff, pure, Except.pure,
      Except.ok.injEq, true_and]
    grind
  · simp only [lt, dite_false, false_and, reduceCtorEq]

theorem factor_paren_eq_error_iff : factor nesting (⟨.leftParen, l₁, o₁⟩ :: ts) = .error u ↔
    ¬nesting < depthLimit ∧ u = ⟨.shallowerNesting, ⟨.leftParen, l₁, o₁⟩ :: ts⟩ ∨
      nesting < depthLimit ∧ (conditional (nesting + 1) ts = .error u ∨
        ∃ x, conditional (nesting + 1) ts = .ok x ∧
          expect .rightParen .closeParen x.rest = .error u) := by
  rw [factor]
  by_cases lt : nesting < depthLimit
  · simp only [lt, dite_true, bind_eq_error_iff, pure, Except.pure, reduceCtorEq, and_false,
      exists_false, or_false, not_true, false_and, true_and, false_or]
  · simp only [lt, dite_false, not_false_eq_true, true_and, false_and, or_false,
      Except.error.injEq, eq_comm]

theorem factor_eq_error_of_ne (number : ∀ n l o rest, ts ≠ ⟨.number n, l, o⟩ :: rest)
    (bang : ∀ l o rest, ts ≠ ⟨.bang, l, o⟩ :: rest)
    (paren : ∀ l o rest, ts ≠ ⟨.leftParen, l, o⟩ :: rest) :
    factor nesting ts = .error ⟨.factor, ts⟩ := by
  rw [factor]
  · exact number
  · exact bang
  · exact paren

theorem whole_eq_ok_iff {e : Expr} :
    whole ts = .ok e ↔ ∃ height, conditional 0 ts = .ok ⟨e, height, []⟩ := by
  rw [whole]
  simp only [bind_eq_ok_iff]
  constructor
  · rintro ⟨⟨x, height, rest⟩, h, eq⟩
    cases rest with
    | nil =>
      cases eq
      exact ⟨height, h⟩
    | cons t rest => cases eq
  · rintro ⟨height, h⟩
    exact ⟨_, h, rfl⟩

theorem whole_eq_error_iff : whole ts = .error u ↔
    conditional 0 ts = .error u ∨
      ∃ x, conditional 0 ts = .ok x ∧ x.rest ≠ [] ∧ u = ⟨.endOfInput, x.rest⟩ := by
  rw [whole]
  simp only [bind_eq_error_iff]
  refine or_congr_right (exists_congr fun x => and_congr_right fun _ => ?_)
  cases h : x.rest with
  | nil => simp [pure, Except.pure]
  | cons t rest => simp [eq_comm]

theorem factor_bangs {nesting n : Nat} (h : nesting + n = depthLimit) (literal : String)
    (offset : Nat) (rest : List Token) :
    factor nesting (List.replicate n ⟨.bang, literal, offset⟩ ++ ⟨.bang, literal, offset⟩ :: rest) =
      .error ⟨.shallowerNesting, ⟨.bang, literal, offset⟩ :: rest⟩ := by
  induction n generalizing nesting with
  | zero => exact factor_bang_eq_error_iff.2 (.inl ⟨by omega, rfl⟩)
  | succ n ih =>
    rw [List.replicate_succ, List.cons_append]
    exact factor_bang_eq_error_iff.2 (.inr ⟨by omega, .inl (ih (by omega))⟩)

theorem whole_bangs (literal : String) (offset : Nat) (rest : List Token) :
    whole (List.replicate depthLimit ⟨.bang, literal, offset⟩ ++
        ⟨.bang, literal, offset⟩ :: rest) =
      .error ⟨.shallowerNesting, ⟨.bang, literal, offset⟩ :: rest⟩ := by
  have refused : within 0 0 _ = _ :=
    within_eq_error_iff.2 (.inl (factor_bangs (Nat.zero_add depthLimit) literal offset rest))
  rw [whole, conditional_eq_within]
  · rw [refused]
    rfl
  · rintro l o rest' ⟨⟩

end CondCalc.Climb

namespace CondCalc

theorem Unexpected.locate_expected (u : Unexpected) (ts : List Token) :
    (u.locate ts).expected = u.expected := by
  rw [locate]
  split <;> rfl

theorem Unexpected.locate_found (u : Unexpected) (ts : List Token) :
    (u.locate ts).found = u.remaining.head? := by
  rw [locate]
  split
  next t rest eq => rw [eq, List.head?_cons]
  next eq => rw [eq, List.head?_nil]

namespace Expr

theorem ofTokens_eq_ok {ts : List Token} {e : Expr} :
    ofTokens ts = .ok e ↔ Climb.whole ts = .ok e := by
  rw [ofTokens, mapError_eq_ok_iff]

theorem ofTokens_eq_error {ts : List Token} {x : SyntaxError} :
    ofTokens ts = .error x ↔ ∃ u, Climb.whole ts = .error u ∧ x = u.locate ts := by
  rw [ofTokens, mapError_eq_error_iff]
  simp only [eq_comm]

end Expr

end CondCalc
