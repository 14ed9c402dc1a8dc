import CondCalc.Expr.Eval
import CondCalc.Proofs.Evaluation.Exact

/-! Types of trees, read off their nodes without computing anything. The evaluation of a tree that
has a type comes to a value of this type or to a failure of arithmetic: no operator in it meets an
operand that does not suit it. -/
namespace CondCalc

/-- The rules by which a tree has a type. What its operators are written as does not matter. -/
inductive Expr.HasType : Expr → Ty → Prop where
  | number (n : Int64) : HasType (.number n) .integer
  | arithmetic {op : Operator} {l r : Expr} (literal : String) :
      op ∈ [.add, .sub, .mul, .div] → HasType l .integer → HasType r .integer →
      HasType (.binary op literal l r) .integer
  | comparison {op : Operator} {l r : Expr} (literal : String) :
      op ∈ [.gt, .gte, .lt, .lte] → HasType l .integer → HasType r .integer →
      HasType (.binary op literal l r) .boolean
  | equality {op : Operator} {l r : Expr} {t : Ty} (literal : String) :
      op ∈ [.eq, .neq] → HasType l t → HasType r t → HasType (.binary op literal l r) .boolean
  | connective {op : Operator} {l r : Expr} (literal : String) :
      op ∈ [.and, .or] → HasType l .boolean → HasType r .boolean →
      HasType (.binary op literal l r) .boolean
  | not {e : Expr} (literal : String) : HasType e .boolean → HasType (.not literal e) .boolean
  | cond {c a b : Expr} {t : Ty} :
      HasType c .boolean → HasType a t → HasType b t → HasType (.cond c a b) t

/-- The end that a type promises: a value of the type, or a failure that types cannot exclude. -/
abbrev EndsIn (t : Ty) : Except EvalError Value → Prop :=
  Ends (·.ty = t) fun x => x = .divisionByZero ∨ ∃ operator, x = .overflow operator

namespace Operator

def resultTy : Operator → Ty
  | add | sub | mul | div => .integer
  | and | or | eq | neq | gt | gte | lt | lte => .boolean

variable {op : Operator} {literal : String} {a b : Value}

theorem resultTy_of_arithmetic? {m n k : Int} (h : op.arithmetic? m n = some k) :
    op.resultTy = .integer := by
  cases op with
  | add | sub | mul | div => rfl
  | and | or | eq | neq | gt | gte | lt | lte => cases h

theorem resultTy_of_comparison? {m n : Int} {c : Bool} (h : op.comparison? m n = some c) :
    op.resultTy = .boolean := by
  cases op with
  | eq | neq | gt | gte | lt | lte => rfl
  | add | sub | mul | div | and | or => cases h

theorem resultTy_of_connective? {p q c : Bool} (h : op.connective? p q = some c) :
    op.resultTy = .boolean := by
  cases op with
  | and | or | eq | neq => rfl
  | add | sub | mul | div | gt | gte | lt | lte => cases h

theorem apply_integers_endsIn (suits : op.Suits .integer .integer) (m n : Int64) :
    EndsIn op.resultTy (op.apply literal (.integer m) (.integer n)) := by
  cases ha : op.arithmetic? m.toInt n.toInt with
  | some k =>
    rw [apply_of_arithmetic? ha, resultTy_of_arithmetic? ha]
    exact (narrow_ends literal k).mono (fun _ integer => integer) fun _ eq => .inr ⟨literal, eq⟩
  | none =>
    cases hc : op.comparison? m.toInt n.toInt with
    | some c =>
      rw [apply_of_comparison? hc, resultTy_of_comparison? hc]
      rfl
    | none =>
      obtain ⟨rfl, zero⟩ := eq_div_of_none suits ha hc
      have undefined : div.apply literal (.integer m) (.integer n) = .error .divisionByZero :=
        if_pos zero
      rw [undefined]
      exact .inl rfl

theorem apply_booleans_endsIn (suits : op.Suits .boolean .boolean) (p q : Bool) :
    EndsIn op.resultTy (op.apply literal (.boolean p) (.boolean q)) := by
  obtain ⟨c, hc⟩ := exists_connective? suits p q
  rw [apply_of_connective? hc, resultTy_of_connective? hc]
  rfl

theorem apply_endsIn (suits : op.Suits a.ty b.ty) :
    EndsIn op.resultTy (op.apply literal a b) := by
  cases a with
  | integer m =>
    cases b with
    | integer n => exact apply_integers_endsIn suits m n
    | boolean q => cases suits.ty_eq
  | boolean p =>
    cases b with
    | integer n => cases suits.ty_eq
    | boolean q => exact apply_booleans_endsIn suits p q

theorem shortCircuit?_endsIn {t : Ty} {result : Except EvalError Value} (suits : op.Suits a.ty t)
    (h : op.shortCircuit? literal a = some result) : EndsIn op.resultTy result := by
  cases op with
  | and | or =>
    cases a with
    | integer n => cases suits.1
    | boolean p =>
      cases p <;> cases h
      rfl
  | add | sub | mul | div | eq | neq | gt | gte | lt | lte => cases h

end Operator

namespace Expr

theorem binary_endsIn {ops : List Operator} {op : Operator} {l r : Expr} {s t : Ty}
    (literal : String) (rule : ∀ o ∈ ops, o.Suits s s ∧ o.resultTy = t) (mem : op ∈ ops)
    (hl : EndsIn s l.eval) (hr : EndsIn s r.eval) : EndsIn t (binary op literal l r).eval := by
  obtain ⟨suits, rfl⟩ := rule op mem
  rw [eval]
  refine hl.bind fun a ha => ?_
  cases settled : op.shortCircuit? literal a with
  | some result =>
    rw [← ha] at suits
    exact Operator.shortCircuit?_endsIn suits settled
  | none =>
    refine hr.bind fun b hb => ?_
    exact Operator.apply_endsIn (by rwa [ha, hb])

theorem HasType.endsIn {e : Expr} {t : Ty} (h : e.HasType t) : EndsIn t e.eval := by
  induction h with
  | number n => rfl
  | arithmetic literal mem _ _ ihl ihr | comparison literal mem _ _ ihl ihr
  | equality literal mem _ _ ihl ihr | connective literal mem _ _ ihl ihr =>
    exact binary_endsIn literal (by simp [Operator.Suits, Operator.resultTy]) mem ihl ihr
  | not literal _ ih =>
    rw [eval]
    refine ih.bind fun a ha => ?_
    cases a with
    | integer n => cases ha
    | boolean b => rfl
  | cond _ _ _ ihc iha ihb =>
    rw [eval]
    refine ihc.bind fun c hc => ?_
    cases c with
    | integer n => cases hc
    | boolean p =>
      cases p with
      | true => exact iha
      | false => exact ihb

end Expr

/-- A tree that has a type comes to a value of this type, or a divisor in it is zero, or a result
in it leaves the range; never does an operand have the wrong type. -/
theorem eval_of_hasType (e : Expr) (t : Ty) (h : e.HasType t) :
    ((∃ v, e.eval = .ok v ∧ v.ty = t) ∨ e.eval = .error .divisionByZero ∨
      ∃ operator, e.eval = .error (.overflow operator)) ∧
      ∀ operator cause, e.eval ≠ .error (.typeMismatch operator cause) := by
  have ends := h.endsIn
  cases he : e.eval with
  | ok v =>
    refine ⟨.inl ⟨v, rfl, ends.of_ok he⟩, ?_⟩
    rintro operator cause ⟨⟩
  | error x =>
    rcases ends.of_error he with rfl | ⟨operator, rfl⟩
    · simp
    · simp

theorem eval_of_hasType_choice :
    let e : Expr := .cond
      (.binary .and "&&" (.not "!" (.binary .eq "==" (.number 1) (.number 2)))
        (.binary .lt "<" (.number 3) (.number 4)))
      (.binary .div "/" (.number 5) (.binary .sub "-" (.number 6) (.number 6))) (.number 7)
    e.HasType .integer ∧
      ((∃ v, e.eval = .ok v ∧ v.ty = .integer) ∨ e.eval = .error .divisionByZero ∨
        ∃ operator, e.eval = .error (.overflow operator)) ∧
        ∀ operator cause, e.eval ≠ .error (.typeMismatch operator cause) := by
  intro e
  have negation : (Expr.not "!" (.binary .eq "==" (.number 1) (.number 2))).HasType .boolean :=
    .not "!" (.equality "==" (by decide) (.number 1) (.number 2))
  have comparison : (Expr.binary .lt "<" (.number 3) (.number 4)).HasType .boolean :=
    .comparison "<" (by decide) (.number 3) (.number 4)
  have quotient : (Expr.binary .div "/" (.number 5)
      (.binary .sub "-" (.number 6) (.number 6))).HasType .integer :=
    .arithmetic "/" (by decide) (.number 5) (.arithmetic "-" (by decide) (.number 6) (.number 6))
  have typed : e.HasType .integer :=
    .cond (.connective "&&" (by decide) negation comparison) quotient (.number 7)
  exact ⟨typed, eval_of_hasType e .integer typed⟩

end CondCalc
