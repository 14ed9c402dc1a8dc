import CondCalc.Expr.Eval
import CondCalc.Proofs.Evaluation.Course
import CondCalc.Proofs.Outcome

/-! Evaluation follows its course: each operator does on values what its visit says, up to the
first node that cannot be completed. -/
namespace CondCalc

/-- The evaluation ends as its course does, with its value or with its first failure. Up to there
all values are within the range. -/
def Course.Follows (c : Course) : Except EvalError Value → Prop
  | .ok v => c.value = some v.exact ∧ ∀ n ∈ c.visits, n.Completes
  | .error x => ∃ n, c.FirstFails n x ∧ ∀ y ∈ n.operands, y.Fits

theorem Course.Follows.andThen {c : Course} {next : Exact → Course} {r : Except EvalError Value}
    {f : Value → Except EvalError Value} (h : c.Follows r)
    (hf : ∀ v, r = .ok v → (next v.exact).Follows (f v)) :
    (c.andThen next).Follows (r >>= f) := by
  cases r with
  | error x =>
    obtain ⟨n, ⟨before, after, eq, completes, fails⟩, fits⟩ := h
    unfold Course.andThen
    cases c.value with
    | none => exact ⟨n, ⟨before, after, eq, completes, fails⟩, fits⟩
    | some y =>
      refine ⟨n, ⟨before, after ++ (next y).visits, ?_, completes, fails⟩, fits⟩
      simp [eq]
  | ok v =>
    obtain ⟨value, completes⟩ := h
    have rest := hf v rfl
    simp only [Course.andThen, value, ok_bind]
    cases hr : f v with
    | ok w =>
      rw [hr] at rest
      refine ⟨rest.1, fun n mem => ?_⟩
      rcases List.mem_append.1 mem with mem | mem
      · exact completes n mem
      · exact rest.2 n mem
    | error x =>
      rw [hr] at rest
      obtain ⟨n, ⟨before, after, eq, completes', fails⟩, fits⟩ := rest
      refine ⟨n, ⟨c.visits ++ before, after, by simp [eq], fun m mem => ?_, fails⟩, fits⟩
      rcases List.mem_append.1 mem with mem | mem
      · exact completes m mem
      · exact completes' m mem

theorem visit_follows_ok {node : Expr} {operands : List Exact} {v : Value}
    (value : Visit.result ⟨node, operands⟩ = some v.exact)
    (range : Visit.InRange ⟨node, operands⟩) : (node.visit operands).Follows (.ok v) := by
  refine ⟨value, fun n mem => ?_⟩
  cases List.mem_singleton.1 mem
  exact Visit.completes_of_result value range

theorem visit_follows_error {node : Expr} {operands : List Exact} {x : EvalError}
    (fits : ∀ y ∈ operands, y.Fits) (fails : Visit.Fails ⟨node, operands⟩ x) :
    (node.visit operands).Follows (.error x) :=
  ⟨_, ⟨[], [], rfl, by simp, fails⟩, fits⟩

section binary

variable (op : Operator) (literal : String) (l r : Expr)

theorem integers_follow (suits : op.Suits .integer .integer) (m n : Int64) :
    ((Expr.binary op literal l r).visit [.integer m.toInt, .integer n.toInt]).Follows
      (op.apply literal (.integer m) (.integer n)) := by
  have fits : ∀ x ∈ [Exact.integer m.toInt, .integer n.toInt], x.Fits :=
    fits_operands [.integer m, .integer n]
  cases ha : op.arithmetic? m.toInt n.toInt with
  | some k =>
    rw [Operator.apply_of_arithmetic? ha]
    by_cases inRange : Fits k
    · obtain ⟨v, eq, exact⟩ := narrow_of_fits literal inRange
      rw [eq]
      refine visit_follows_ok ?_ ?_
      · simp [Visit.result_binary, Operator.result?, ha, exact]
      · intro k' ha'
        cases ha.symm.trans ha'
        exact inRange
    · rw [narrow, if_neg inRange]
      exact visit_follows_error fits (.overflow literal l r ha inRange)
  | none =>
    cases hc : op.comparison? m.toInt n.toInt with
    | some c =>
      rw [Operator.apply_of_comparison? hc]
      refine visit_follows_ok ?_ ?_
      · simp [Visit.result_binary, Operator.result?, ha, hc]
      · intro k ha'
        cases ha.symm.trans ha'
    | none =>
      obtain ⟨rfl, zero⟩ := Operator.eq_div_of_none suits ha hc
      rw [zero] at fits ⊢
      have undefined :
          Operator.div.apply literal (.integer m) (.integer n) = .error .divisionByZero :=
        if_pos zero
      rw [undefined]
      exact visit_follows_error fits (.divisionByZero literal l r m.toInt)

theorem booleans_follow (suits : op.Suits .boolean .boolean) (p q : Bool) :
    ((Expr.binary op literal l r).visit [.boolean p, .boolean q]).Follows
      (op.apply literal (.boolean p) (.boolean q)) := by
  obtain ⟨c, hc⟩ := Operator.exists_connective? suits p q
  rw [Operator.apply_of_connective? hc]
  refine visit_follows_ok ?_ trivial
  simp [Visit.result_binary, Operator.result?, hc]

theorem visit_binary_follows (a b : Value) :
    ((Expr.binary op literal l r).visit [a.exact, b.exact]).Follows (op.apply literal a b) := by
  by_cases suits : op.Suits a.ty b.ty
  · cases a with
    | integer m =>
      cases b with
      | integer n => exact integers_follow op literal l r suits m n
      | boolean q => cases suits.ty_eq
    | boolean p =>
      cases b with
      | integer n => cases suits.ty_eq
      | boolean q => exact booleans_follow op literal l r suits p q
  · rw [Operator.apply_of_unsuited suits]
    rw [← Value.ty_exact, ← Value.ty_exact] at suits ⊢
    exact visit_follows_error (fits_operands [a, b]) (.operands literal l r suits)

theorem shortCircuit_follows {a : Value} {result : Except EvalError Value}
    (h : op.shortCircuit? literal a = some result) :
    ((Expr.binary op literal l r).visit [a.exact]).Follows result := by
  cases a with
  | integer n =>
    cases op with
    | and | or =>
      cases h
      have unsuited (t : Ty) : ¬(Ty.integer = .boolean ∧ t = .boolean) := by simp
      exact visit_follows_error (fits_operands [.integer n])
        (.leftOperand literal l r n.toInt unsuited)
    | add | sub | mul | div | eq | neq | gt | gte | lt | lte => cases h
  | boolean b =>
    cases op with
    | and | or =>
      cases b <;> cases h
      exact visit_follows_ok rfl trivial
    | add | sub | mul | div | eq | neq | gt | gte | lt | lte => cases h

end binary

theorem Expr.eval_follows (e : Expr) : e.course.Follows e.eval := by
  induction e with
  | number n => exact visit_follows_ok rfl trivial
  | not literal e ih =>
    refine ih.andThen fun a _ => ?_
    cases a with
    | integer n =>
      exact visit_follows_error (fits_operands [.integer n]) (.negated literal e n.toInt)
    | boolean b => exact visit_follows_ok rfl trivial
  | binary op literal l r ihl ihr =>
    refine ihl.andThen fun a _ => ?_
    rw [op.settledBy_exact literal]
    cases h : op.shortCircuit? literal a with
    | some result => exact shortCircuit_follows op literal l r h
    | none => exact ihr.andThen fun b _ => visit_binary_follows op literal l r a b
  | cond c t e ihc iht ihe =>
    refine ihc.andThen fun a _ => ?_
    cases a with
    | integer n =>
      exact visit_follows_error (fits_operands [.integer n]) (.condition c t e n.toInt)
    | boolean b =>
      have selects : ((cond c t e).visit [.boolean b]).Follows (.ok (.boolean b)) :=
        visit_follows_ok rfl trivial
      cases b with
      | true =>
        refine selects.andThen (f := fun _ => t.eval) fun v eq => ?_
        cases eq
        exact iht
      | false =>
        refine selects.andThen (f := fun _ => e.eval) fun v eq => ?_
        cases eq
        exact ihe

theorem Expr.eval_eq_error_iff (e : Expr) (x : EvalError) :
    e.eval = .error x ↔ ∃ n, e.course.FirstFails n x := by
  have follows := e.eval_follows
  constructor
  · intro h
    rw [h] at follows
    obtain ⟨n, fails, -⟩ := follows
    exact ⟨n, fails⟩
  · rintro ⟨n, fails⟩
    cases h : e.eval with
    | error y =>
      rw [h] at follows
      obtain ⟨m, fails', -⟩ := follows
      rw [(fails.unique fails').2]
    | ok v =>
      rw [h] at follows
      obtain ⟨before, after, eq, -, fails⟩ := fails
      exact absurd fails (follows.2 n (by simp [eq]) x)

theorem Expr.eval_eq_ok_iff (e : Expr) (v : Value) :
    e.eval = .ok v ↔ e.course.value = some v.exact ∧ ∀ n ∈ e.course.visits, n.InRange := by
  have follows := e.eval_follows
  constructor
  · intro h
    rw [h] at follows
    exact ⟨follows.1, fun n mem => (follows.2 n mem).inRange⟩
  · rintro ⟨value, range⟩
    cases h : e.eval with
    | ok w =>
      rw [h] at follows
      rw [Value.exact_injective (Option.some.inj (value.symm.trans follows.1))]
    | error x =>
      rw [h] at follows
      obtain ⟨n, ⟨before, after, eq, -, fails⟩, -⟩ := follows
      have mem : n ∈ e.course.visits := by simp [eq]
      obtain ⟨y, result⟩ := e.course_resulting _ value n mem
      exact absurd fails (Visit.completes_of_result result (range n mem) x)

theorem Expr.quotient_of_firstFails {e l r : Expr} {literal : String} {a b : Int}
    (h : e.course.FirstFails ⟨.binary .div literal l r, [.integer a, .integer b]⟩
      (.overflow literal)) : a = -2 ^ 63 ∧ b = -1 := by
  have follows := e.eval_follows
  rw [(e.eval_eq_error_iff _).2 ⟨_, h⟩] at follows
  obtain ⟨n, fails, fits⟩ := follows
  obtain ⟨rfl, -⟩ := h.unique fails
  obtain ⟨_, _, -, -, fails⟩ := fails
  cases fails with
  | overflow _ _ _ eq out =>
    simp only [Operator.arithmetic?, Option.ite_none_left_eq_some] at eq
    obtain ⟨nonzero, eq⟩ := eq
    cases eq
    exact quotient_out_of_range (fits (.integer a) (by simp)) nonzero out

/-- Evaluation yields a value exactly if the course comes to it and no arithmetic on the way
leaves the range; else its error is that of the first node that cannot be completed. The only
quotient out of range is that of the least integer and `-1`. -/
theorem eval_follows_course (e : Expr) :
    (∀ v, e.eval = .ok v ↔ e.course.value = some v.exact ∧ ∀ n ∈ e.course.visits, n.InRange) ∧
      (∀ x, e.eval = .error x ↔ ∃ n, e.course.FirstFails n x) ∧
      ∀ literal l r a b,
        e.course.FirstFails ⟨.binary .div literal l r, [.integer a, .integer b]⟩
          (.overflow literal) → a = -2 ^ 63 ∧ b = -1 :=
  ⟨e.eval_eq_ok_iff, e.eval_eq_error_iff, fun _ _ _ _ _ h => Expr.quotient_of_firstFails h⟩

example : (Expr.binary .div "/" (.number (-9223372036854775808)) (.number (-1))).eval =
    .error (.overflow "/") := by decide

end CondCalc
