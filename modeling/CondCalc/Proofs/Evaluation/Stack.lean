import CondCalc.Expr.Eval
import CondCalc.Proofs.Syntax.Stack

/-! How deeply the evaluation of a tree nests: never deeper than the tree is high. As no tree that is
read is higher than the limit, the limit bounds both reading and computing, for texts of any
length. -/
namespace CondCalc

namespace Expr

def evalBody (calls : Expr → Except (Halt EvalError) Value) : Expr → Except (Halt EvalError) Value
  | number n => .ok (.integer n)
  | not literal e => do
    match ← calls e with
    | .boolean b => .ok (.boolean !b)
    | .integer _ => .error (.failed (.typeMismatch literal .negated))
  | binary op literal l r => do
    let a ← calls l
    match op.shortCircuit? literal a with
    | some result => lift result
    | none =>
      let b ← calls r
      lift (op.apply literal a b)
  | cond c t e => do
    match ← calls c with
    | .boolean true => calls t
    | .boolean false => calls e
    | .integer _ => .error (.failed (.typeMismatch "if" .condition))

/-- As `eval`, with room for so many calls at once. -/
def evalOnStack : Nat → Expr → Except (Halt EvalError) Value :=
  onStack evalBody

theorem evalBody_eval (e : Expr) : evalBody (fun e => lift e.eval) e = lift e.eval := by
  cases e with
  | number n => rfl
  | not literal e =>
    rw [evalBody, eval, lift_bind]
    refine bind_congr fun v => ?_
    cases v <;> rfl
  | binary op literal l r =>
    rw [evalBody, eval, lift_bind]
    refine bind_congr fun a => ?_
    cases op.shortCircuit? literal a with
    | some result => rfl
    | none => rw [lift_bind]
  | cond c t e =>
    rw [evalBody, eval, lift_bind]
    refine bind_congr fun v => ?_
    cases v with
    | integer n => rfl
    | boolean b => cases b <;> rfl

theorem evalBody_descends : Descends evalBody height where
  need_pos := height_pos
  congr e calls calls' same := by
    cases e with
    | number n => rfl
    | not literal e => simp only [evalBody, same e (by simp [height])]
    | binary op literal l r =>
      simp only [evalBody, same l (by simp only [height]; omega),
        same r (by simp only [height]; omega)]
    | cond c t e =>
      simp only [evalBody, same c (by simp only [height]; omega),
        same t (by simp only [height]; omega), same e (by simp only [height]; omega)]

theorem evalOnStack_eq {e : Expr} {room : Nat} (enough : e.height ≤ room) :
    evalOnStack room e = lift e.eval :=
  evalBody_descends.onStack_eq evalBody_eval enough

def negated : Nat → Expr
  | 0 => number 0
  | n + 1 => not "!" (negated n)

theorem height_negated (n : Nat) : (negated n).height = n + 1 := by
  induction n with
  | zero => rfl
  | succ n ih => rw [negated, height, ih]

theorem evalOnStack_negated (n : Nat) : evalOnStack n (negated n) = .error .exhausted := by
  induction n with
  | zero => rfl
  | succ n ih =>
    rw [evalOnStack] at ih
    rw [evalOnStack, negated, onStack, evalBody, ih, error_bind]

theorem derives_negated (n : Nat) : Derives n .factor
    (List.replicate n ⟨.bang, "!", 0⟩ ++ [⟨.number 0, "0", 0⟩]) (negated n) := by
  induction n with
  | zero => exact .number 0 0 "0" 0
  | succ n ih => exact .not "!" 0 ih

theorem ofTokens_negated {n : Nat} (lt : n < depthLimit) : ofTokens
    (List.replicate n ⟨.bang, "!", 0⟩ ++ [⟨.number 0, "0", 0⟩]) = .ok (negated n) := by
  have fits : n ≤ depthLimit - 0 := Nat.le_of_lt lt
  have low : (negated n).height ≤ depthLimit := by
    rw [height_negated]
    exact lt
  apply Climb.Reads.ofTokens_eq
  exact ⟨.plain (((derives_negated n).mono fits).loosen (Nat.zero_le 6)), rfl, low⟩

end Expr

/-- However many tokens there are, at most 2313 calls are active at once while they are read, and
at most 256 while the tree that was read is computed: with room for no more, both end as they do on
a stack without limit. Neither would do with room for one call less. -/
theorem calls_bounded :
    (∀ ts, Expr.ofTokensOnStack (9 * (256 + 1)) ts = lift (Expr.ofTokens ts) ∧
      Expr.ofTokensOnStack (9 * (256 + 1)) ts ≠ .error .exhausted ∧
      ∀ e, Expr.ofTokens ts = .ok e → Expr.evalOnStack 256 e = lift e.eval ∧
        Expr.evalOnStack 256 e ≠ .error .exhausted) ∧
    (∃ ts, Expr.ofTokensOnStack (9 * (256 + 1) - 1) ts = .error .exhausted) ∧
    ∃ ts e, Expr.ofTokens ts = .ok e ∧ Expr.evalOnStack (256 - 1) e = .error .exhausted := by
  refine ⟨fun ts => ?_, ⟨_, Expr.ofTokensOnStack_tower⟩,
    ⟨_, _, Expr.ofTokens_negated (by decide), Expr.evalOnStack_negated 255⟩⟩
  have reading : Expr.ofTokensOnStack (9 * (256 + 1)) ts = lift (Expr.ofTokens ts) :=
    Expr.ofTokensOnStack_eq ts
  refine ⟨reading, reading ▸ lift_ne_exhausted _, fun e h => ?_⟩
  have computing : Expr.evalOnStack 256 e = lift e.eval :=
    Expr.evalOnStack_eq (Climb.reads_of_ofTokens h).height_le
  exact ⟨computing, computing ▸ lift_ne_exhausted _⟩

theorem calls_bounded_bangs :
    let ts : List Token := List.replicate 255 ⟨.bang, "!", 0⟩ ++ [⟨.number 0, "0", 0⟩]
    let e := Expr.negated 255
    Expr.ofTokens ts = .ok e ∧ Expr.evalOnStack 255 e = .error .exhausted ∧
      Expr.ofTokensOnStack (9 * (256 + 1)) ts = lift (Expr.ofTokens ts) ∧
      Expr.evalOnStack 256 e = lift e.eval ∧ Expr.evalOnStack 256 e ≠ .error .exhausted := by
  intro ts e
  have h : Expr.ofTokens ts = .ok e := Expr.ofTokens_negated (by decide)
  have bounded := calls_bounded.1 ts
  exact ⟨h, Expr.evalOnStack_negated 255, bounded.1, bounded.2.2 e h⟩

end CondCalc
