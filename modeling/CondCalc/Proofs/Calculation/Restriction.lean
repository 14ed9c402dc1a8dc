import CondCalc.Proofs.Calculation.Stages
import CondCalc.Proofs.Evaluation.Exact
import CondCalc.Proofs.Modes.Check

/-! What a calculation in a mode can come to. The mode holds the tokens to some families, these hold
the nodes of the tree to them, and operators of one family alone keep to one type: arithmetic never
meets a boolean, and logic never computes a number. -/
namespace CondCalc

/-- A failure of arithmetic on integers, with the operator in its own spelling. -/
def ArithmeticFault (x : EvalError) : Prop :=
  x = .divisionByZero ∨ ∃ o ∈ ["+", "-", "*", "/"], x = .overflow o

def IsMismatch (x : EvalError) : Prop :=
  ∃ operator cause, x = .typeMismatch operator cause

theorem onIntegers_ends {P : Value → Prop} (literal : String) (a b : Value)
    {f : Int → Int → Except EvalError Value} (h : ∀ m n, Ends P IsMismatch (f m n)) :
    Ends P IsMismatch (onIntegers literal a b f) := by
  cases a with
  | boolean p => exact ⟨_, _, rfl⟩
  | integer m =>
    cases b with
    | boolean q => exact ⟨_, _, rfl⟩
    | integer n => exact h m.toInt n.toInt

theorem onBooleans_ends (literal : String) (a b : Value) (f : Bool → Bool → Bool) :
    Ends (·.ty = .boolean) IsMismatch (onBooleans literal a b f) := by
  cases a with
  | integer m => exact ⟨_, _, rfl⟩
  | boolean p =>
    cases b with
    | integer n => exact ⟨_, _, rfl⟩
    | boolean q => rfl

namespace Operator

theorem apply_ends_arithmetic {op : Operator} (h : op.family = .arithmetic) (m n : Int64) :
    Ends (·.ty = .integer) ArithmeticFault
      (op.apply op.spelling (.integer m) (.integer n)) := by
  have overflows {o : String} (listed : o ∈ ["+", "-", "*", "/"]) (k : Int) :
      Ends (·.ty = .integer) ArithmeticFault (narrow o k) :=
    (narrow_ends o k).mono (fun _ integer => integer) fun _ eq => .inr ⟨o, listed, eq⟩
  cases op with
  | add | sub | mul => exact overflows (by decide) _
  | div =>
    by_cases zero : n.toInt = 0
    · simp only [apply, onIntegers, if_pos zero]
      exact .inl rfl
    · simp only [apply, onIntegers, if_neg zero]
      exact overflows (by decide) _
  | and | or | eq | neq | gt | gte | lt | lte => cases h

theorem apply_ends_logical {op : Operator} (h : op.family = .logical) (literal : String)
    (a b : Value) : Ends (·.ty = .boolean) IsMismatch (op.apply literal a b) := by
  cases op with
  | add | sub | mul | div => cases h
  | gt | gte | lt | lte =>
    rw [Operator.apply]
    exact onIntegers_ends literal a b fun _ _ => rfl
  | and | or => exact onBooleans_ends literal a b _
  | eq | neq =>
    by_cases same : a.ty = b.ty
    · simp only [apply, areEqual, if_pos same]
      exact rfl
    · simp only [apply, areEqual, if_neg same]
      exact ⟨_, _, rfl⟩

theorem shortCircuit?_ends {op : Operator} {literal : String} {a : Value}
    {result : Except EvalError Value} (h : op.shortCircuit? literal a = some result) :
    Ends (·.ty = .boolean) IsMismatch result := by
  cases op with
  | and | or =>
    cases a with
    | integer n =>
      cases h
      exact ⟨_, _, rfl⟩
    | boolean b =>
      cases b <;> cases h
      rfl
  | add | sub | mul | div | eq | neq | gt | gte | lt | lte => cases h

end Operator

namespace Expr

theorem IsArithmetic.family {op : Operator} {literal : String} {l r : Expr}
    (h : (binary op literal l r).IsArithmetic) : op.family = .arithmetic := by
  cases op with
  | add | sub | mul | div => rfl
  | and | or | eq | neq | gt | gte | lt | lte => cases h

theorem IsLogical.family {op : Operator} {literal : String} {l r : Expr}
    (h : (binary op literal l r).IsLogical) : op.family = .logical := by
  cases op with
  | add | sub | mul | div => cases h
  | and | or | eq | neq | gt | gte | lt | lte => rfl

theorem eval_ends_arithmetic {e : Expr} (standard : e.Standard)
    (arithmetic : ∀ n ∈ e.nodes, n.IsArithmetic) :
    Ends (·.ty = .integer) ArithmeticFault e.eval := by
  induction e with
  | number n => rfl
  | not literal e => cases arithmetic (not literal e) (by simp)
  | cond c t e => cases arithmetic (cond c t e) (by simp)
  | binary op literal l r ihl ihr =>
    obtain ⟨rfl, sl, sr⟩ := standard_binary.1 standard
    simp only [nodes_binary, List.forall_mem_cons, List.forall_mem_append] at arithmetic
    obtain ⟨own, al, ar⟩ := arithmetic
    rw [eval]
    refine (ihl sl al).bind fun a ha => ?_
    have strict : op.shortCircuit? op.spelling a = none := by
      cases op with
      | add | sub | mul | div => rfl
      | and | or | eq | neq | gt | gte | lt | lte => cases own
    simp only [strict]
    refine (ihr sr ar).bind fun b hb => ?_
    cases a with
    | boolean p => cases ha
    | integer m =>
      cases b with
      | boolean q => cases hb
      | integer n => exact Operator.apply_ends_arithmetic own.family m n

theorem eval_ends_logical {e : Expr} (logical : ∀ n ∈ e.nodes, n.IsLogical) :
    Ends (fun v => v.ty = .integer ↔ ∃ n, e = number n) IsMismatch e.eval := by
  induction e with
  | number n => exact iff_of_true rfl ⟨n, rfl⟩
  | cond c t e => cases logical (cond c t e) (by simp)
  | not literal e ih =>
    simp only [nodes_not, List.forall_mem_cons] at logical
    rw [eval]
    refine (ih logical.2).bind fun a _ => ?_
    cases a with
    | integer n => exact ⟨_, _, rfl⟩
    | boolean b => simp [Ends, Value.ty]
  | binary op literal l r ihl ihr =>
    simp only [nodes_binary, List.forall_mem_cons, List.forall_mem_append] at logical
    obtain ⟨own, ll, lr⟩ := logical
    have ends {x : Except EvalError Value} (h : Ends (·.ty = .boolean) IsMismatch x) :
        Ends (fun v => v.ty = .integer ↔ ∃ n, binary op literal l r = number n) IsMismatch x :=
      h.mono (fun _ boolean => by simp [boolean]) fun _ mismatch => mismatch
    rw [eval]
    refine (ihl ll).bind fun a _ => ?_
    cases decided : op.shortCircuit? literal a with
    | some result => exact ends (Operator.shortCircuit?_ends decided)
    | none =>
      refine (ihr lr).bind fun b _ => ?_
      exact ends (Operator.apply_ends_logical own.family literal a b)

end Expr

/-- In arithmetic mode a calculation comes to an integer or to a fault of arithmetic, in logical
mode to a boolean, a lone number or a mismatch; conditional mode asks for a conditional in the
tree; and a mode never changes what is calculated without it. -/
theorem calculate_in_mode (text : String) :
    (∀ o, calculate text (some .arithmetic) = .ok o → o.value.ty = .integer) ∧
    (∀ x, calculate text (some .arithmetic) = .error (.evaluation x) → ArithmeticFault x) ∧
    (∀ x, calculate text (some .logical) = .error (.evaluation x) → IsMismatch x) ∧
    (∀ o, calculate text (some .logical) = .ok o →
      (o.value.ty = .integer ↔ ∃ n, o.tree = .number n)) ∧
    (∀ o, calculate text (some .conditional) = .ok o → ∃ n ∈ o.tree.nodes, n.IsConditional) ∧
    (∀ m o, calculate text (some m) = .ok o → calculate text none = .ok o) := by
  refine ⟨?_, ?_, ?_, ?_, ?_, ?_⟩
  · intro o h
    obtain ⟨tokens, accepted, read, evaluated⟩ := calculate_eq_ok_iff.1 h
    have arithmetic := (check_arithmetic_iff read).1 (accepted _ rfl)
    exact (Expr.eval_ends_arithmetic (standard_of_tokenize tokens read) arithmetic).of_ok evaluated
  · intro x h
    obtain ⟨ts, tree, tokens, accepted, read, evaluated⟩ := calculate_eq_evaluation_iff.1 h
    have arithmetic := (check_arithmetic_iff read).1 (accepted _ rfl)
    exact (Expr.eval_ends_arithmetic (standard_of_tokenize tokens read) arithmetic).of_error
      evaluated
  · intro x h
    obtain ⟨ts, tree, tokens, accepted, read, evaluated⟩ := calculate_eq_evaluation_iff.1 h
    have logical := (check_logical_iff read).1 (accepted _ rfl)
    exact (Expr.eval_ends_logical logical).of_error evaluated
  · intro o h
    obtain ⟨tokens, accepted, read, evaluated⟩ := calculate_eq_ok_iff.1 h
    have logical := (check_logical_iff read).1 (accepted _ rfl)
    exact (Expr.eval_ends_logical logical).of_ok evaluated
  · intro o h
    obtain ⟨-, accepted, read, -⟩ := calculate_eq_ok_iff.1 h
    exact (check_conditional_iff read).1 (accepted _ rfl)
  · intro m o h
    obtain ⟨tokens, -, read, evaluated⟩ := calculate_eq_ok_iff.1 h
    exact calculate_eq_ok_iff.2 ⟨tokens, by simp, read, evaluated⟩

theorem calculate_in_mode_ends :
    let quotient : Outcome := ⟨[⟨.number 6, "6", 0⟩, ⟨.binary .div, "/", 1⟩, ⟨.number 4, "4", 2⟩],
      .binary .div "/" (.number 6) (.number 4), .integer 1⟩
    let lone : Outcome := ⟨[⟨.number 8, "8", 1⟩], .number 8, .integer 8⟩
    let choice : Outcome := ⟨[⟨.ifWord, "if", 0⟩, ⟨.number 1, "1", 2⟩, ⟨.binary .gt, ">", 3⟩,
        ⟨.number 0, "0", 4⟩, ⟨.thenWord, "then", 5⟩, ⟨.number 2, "2", 9⟩, ⟨.elseWord, "else", 10⟩,
        ⟨.number 3, "3", 14⟩],
      .cond (.binary .gt ">" (.number 1) (.number 0)) (.number 2) (.number 3), .integer 2⟩
    (calculate "6/4" (some .arithmetic) = .ok quotient ∧ quotient.value.ty = .integer) ∧
    (calculate "6/0" (some .arithmetic) = .error (.evaluation .divisionByZero) ∧
      ArithmeticFault .divisionByZero) ∧
    (calculate "!1" (some .logical) = .error (.evaluation (.typeMismatch "!" .negated)) ∧
      IsMismatch (.typeMismatch "!" .negated)) ∧
    (calculate "\t8" (some .logical) = .ok lone ∧
      (lone.value.ty = .integer ↔ ∃ n, lone.tree = .number n)) ∧
    (calculate "if1>0then2else3" (some .conditional) = .ok choice ∧
      (∃ n ∈ choice.tree.nodes, n.IsConditional) ∧
      calculate "if1>0then2else3" none = .ok choice) := by
  intro quotient lone choice
  have h₁ : calculate "6/4" (some .arithmetic) = .ok quotient :=
    calculate_eq_ok_iff.2 ⟨by decide +kernel, by decide, by cbv, by decide⟩
  have h₂ : calculate "6/0" (some .arithmetic) = .error (.evaluation .divisionByZero) :=
    calculate_eq_evaluation_iff.2
      ⟨[⟨.number 6, "6", 0⟩, ⟨.binary .div, "/", 1⟩, ⟨.number 0, "0", 2⟩],
        .binary .div "/" (.number 6) (.number 0),
        by decide +kernel, by decide, by cbv, by decide⟩
  have h₃ : calculate "!1" (some .logical) = .error (.evaluation (.typeMismatch "!" .negated)) :=
    calculate_eq_evaluation_iff.2
      ⟨[⟨.bang, "!", 0⟩, ⟨.number 1, "1", 1⟩], .not "!" (.number 1),
        by decide +kernel, by decide, by cbv, by decide⟩
  have h₄ : calculate "\t8" (some .logical) = .ok lone :=
    calculate_eq_ok_iff.2 ⟨by decide +kernel, by decide, by cbv, by decide⟩
  have h₅ : calculate "if1>0then2else3" (some .conditional) = .ok choice :=
    calculate_eq_ok_iff.2 ⟨by decide +kernel, by decide, by cbv, by decide⟩
  obtain ⟨integer, -⟩ := calculate_in_mode "6/4"
  obtain ⟨-, fault, -⟩ := calculate_in_mode "6/0"
  obtain ⟨-, -, mismatch, -⟩ := calculate_in_mode "!1"
  obtain ⟨-, -, -, number, -⟩ := calculate_in_mode "\t8"
  obtain ⟨-, -, -, -, conditional, unrestricted⟩ := calculate_in_mode "if1>0then2else3"
  exact ⟨⟨h₁, integer _ h₁⟩, ⟨h₂, fault _ h₂⟩, ⟨h₃, mismatch _ h₃⟩, ⟨h₄, number _ h₄⟩,
    ⟨h₅, conditional _ h₅, unrestricted _ _ h₅⟩⟩

end CondCalc
