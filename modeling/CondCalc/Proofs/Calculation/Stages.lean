import CondCalc.Calculation
import CondCalc.Proofs.Lexis.Tiling
import CondCalc.Proofs.Syntax.Nodes
import CondCalc.Proofs.Syntax.Reading

/-! A calculation stage by stage: what each stage made if it comes to an end, and else the one stage
that failed, behind others that did not. -/
namespace CondCalc

variable {text : String} {mode : Option Mode} {ts : List Token}

theorem checkMode_eq_ok_iff {u : Unit} :
    checkMode mode ts = .ok u ↔ ∀ m ∈ mode, m.check ts = .ok () := by
  cases mode <;> simp [checkMode]

theorem checkMode_eq_error_iff {x : Error} : checkMode mode ts = .error x ↔
    ∃ m ∈ mode, ∃ e, m.check ts = .error e ∧ x = .mode e := by
  cases mode <;> simp [checkMode, eq_comm (a := x)]

theorem calculate_eq_ok_iff {o : Outcome} : calculate text mode = .ok o ↔
    tokenize text = .ok o.tokens ∧ (∀ m ∈ mode, m.check o.tokens = .ok ()) ∧
      Expr.ofTokens o.tokens = .ok o.tree ∧ o.tree.eval = .ok o.value := by
  rw [calculate]
  simp only [bind_eq_ok_iff, tokensOf, treeOf, valueOf, mapError_eq_ok_iff, checkMode_eq_ok_iff,
    pure, Except.pure, Except.ok.injEq]
  constructor
  · rintro ⟨ts, tokens, -, accepted, tree, read, value, evaluated, rfl⟩
    exact ⟨tokens, accepted, read, evaluated⟩
  · rintro ⟨tokens, accepted, read, evaluated⟩
    exact ⟨o.tokens, tokens, (), accepted, o.tree, read, o.value, evaluated, rfl⟩

theorem calculate_eq_error_iff {x : Error} : calculate text mode = .error x ↔
    (∃ e, tokenize text = .error e ∧ x = .lexical e) ∨
    ∃ ts, tokenize text = .ok ts ∧
      ((∃ m ∈ mode, ∃ e, m.check ts = .error e ∧ x = .mode e) ∨
      (∀ m ∈ mode, m.check ts = .ok ()) ∧
        ((∃ e, Expr.ofTokens ts = .error e ∧ x = .syntactic e) ∨
        ∃ tree, Expr.ofTokens ts = .ok tree ∧ ∃ e, tree.eval = .error e ∧ x = .evaluation e)) := by
  rw [calculate]
  simp only [bind_eq_error_iff, tokensOf, treeOf, valueOf, mapError_eq_ok_iff,
    mapError_eq_error_iff, checkMode_eq_ok_iff, checkMode_eq_error_iff, pure, Except.pure,
    reduceCtorEq, and_false, exists_false, or_false, exists_const, eq_comm (a := x)]

theorem calculate_eq_evaluation_iff {x : EvalError} :
    calculate text mode = .error (.evaluation x) ↔ ∃ ts tree, tokenize text = .ok ts ∧
      (∀ m ∈ mode, m.check ts = .ok ()) ∧ Expr.ofTokens ts = .ok tree ∧ tree.eval = .error x := by
  rw [calculate_eq_error_iff]
  constructor
  · rintro (⟨e, -, eq⟩ | ⟨ts, tokens, ⟨m, -, e, -, eq⟩ | ⟨accepted, ⟨e, -, eq⟩ |
      ⟨tree, read, e, evaluated, eq⟩⟩⟩)
    · cases eq
    · cases eq
    · cases eq
    · cases eq
      exact ⟨ts, tree, tokens, accepted, read, evaluated⟩
  · rintro ⟨ts, tree, tokens, accepted, read, evaluated⟩
    exact .inr ⟨ts, tokens, .inr ⟨accepted, .inr ⟨tree, read, x, evaluated, rfl⟩⟩⟩

theorem standard_of_tokenize {e : Expr} (tokens : tokenize text = .ok ts)
    (read : Expr.ofTokens ts = .ok e) : e.Standard :=
  (Climb.reads_of_ofTokens read).derives.standard (tiles_of_tokenize tokens).writes

end CondCalc
