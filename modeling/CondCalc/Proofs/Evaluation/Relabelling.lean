import CondCalc.Expr.Eval
import CondCalc.Proofs.Syntax.Relabelling

/-! Evaluation of trees that differ in the literals of their operators only. No step looks at a
literal but to name its node in an error, so both evaluations take the same steps to the same value,
or to the same error at the same node. -/
namespace CondCalc

/-- The errors differ at most in the operators that they name, and these are related. -/
inductive EvalError.Alike (R : String → String → Prop) : EvalError → EvalError → Prop where
  | divisionByZero : Alike R .divisionByZero .divisionByZero
  | overflow {operator operator' : String} :
      R operator operator' → Alike R (.overflow operator) (.overflow operator')
  | typeMismatch {operator operator' : String} (cause : Mismatch) :
      R operator operator' → Alike R (.typeMismatch operator cause) (.typeMismatch operator' cause)

abbrev EvalAlike (R : String → String → Prop) :
    Except EvalError Value → Except EvalError Value → Prop :=
  Matches (· = ·) (EvalError.Alike R)

section operators

variable {R : String → String → Prop} {literal literal' : String}

theorem narrow_alike (related : R literal literal') (n : Int) :
    EvalAlike R (narrow literal n) (narrow literal' n) := by
  unfold narrow
  split
  · rfl
  · exact .overflow related

theorem onIntegers_alike (related : R literal literal') (a b : Value)
    {f f' : Int → Int → Except EvalError Value} (hf : ∀ m n, EvalAlike R (f m n) (f' m n)) :
    EvalAlike R (onIntegers literal a b f) (onIntegers literal' a b f') := by
  cases a with
  | boolean p => exact .typeMismatch _ related
  | integer m =>
    cases b with
    | boolean q => exact .typeMismatch _ related
    | integer n => exact hf m.toInt n.toInt

theorem onBooleans_alike (related : R literal literal') (a b : Value) (f : Bool → Bool → Bool) :
    EvalAlike R (onBooleans literal a b f) (onBooleans literal' a b f) := by
  cases a with
  | integer m => exact .typeMismatch _ related
  | boolean p =>
    cases b with
    | integer n => exact .typeMismatch _ related
    | boolean q => rfl

theorem areEqual_alike (related : R literal literal') (a b : Value) (f : Bool → Value) :
    EvalAlike R ((areEqual literal a b).map f) ((areEqual literal' a b).map f) := by
  unfold areEqual
  split
  · rfl
  · exact .typeMismatch _ related

theorem Operator.apply_alike (related : R literal literal') (op : Operator) (a b : Value) :
    EvalAlike R (op.apply literal a b) (op.apply literal' a b) := by
  cases op with
  | add | sub | mul => exact onIntegers_alike related a b fun _ _ => narrow_alike related _
  | div =>
    rw [apply, apply]
    refine onIntegers_alike related a b fun m n => ?_
    split
    · exact .divisionByZero
    · exact narrow_alike related _
  | gt | gte | lt | lte =>
    rw [apply, apply]
    exact onIntegers_alike related a b fun _ _ => rfl
  | and | or => exact onBooleans_alike related a b _
  | eq | neq => exact areEqual_alike related a b _

theorem Operator.shortCircuit?_alike (related : R literal literal') (op : Operator) (a : Value) :
    Option.Rel (EvalAlike R) (op.shortCircuit? literal a) (op.shortCircuit? literal' a) := by
  cases op with
  | and =>
    cases a with
    | integer n => exact .some (.typeMismatch _ related)
    | boolean p =>
      cases p with
      | true => exact .none
      | false => exact .some rfl
  | or =>
    cases a with
    | integer n => exact .some (.typeMismatch _ related)
    | boolean p =>
      cases p with
      | true => exact .some rfl
      | false => exact .none
  | add | sub | mul | div | eq | neq | gt | gte | lt | lte => exact .none

end operators

namespace Expr

/-- How an error names the node. There are no errors at numbers. -/
def name? : Expr → Option String
  | number _ => none
  | not literal _ => some literal
  | binary _ literal _ _ => some literal
  | cond .. => some "if"

def Name (e e' : Expr) (text text' : String) : Prop :=
  e.name? = some text ∧ e'.name? = some text'

/-- The node that a path leads to, which numbers the children on its way. -/
def at? (e : Expr) : List Nat → Option Expr
  | [] => some e
  | k :: path => e.children[k]?.bind (·.at? path)

/-- The evaluation breaks off at the node that the path leads to: the operands that it computes
before have values, and they are not what the node needs. -/
inductive BreaksAt : Expr → List Nat → EvalError → Prop where
  | negated {e : Expr} {n : Int64} (literal : String) :
      e.eval = .ok (.integer n) → BreaksAt (.not literal e) [] (.typeMismatch literal .negated)
  | operand {e : Expr} {path : List Nat} {x : EvalError} (literal : String) :
      BreaksAt e path x → BreaksAt (.not literal e) (0 :: path) x
  | lhs {l r : Expr} {path : List Nat} {x : EvalError} (op : Operator) (literal : String) :
      BreaksAt l path x → BreaksAt (.binary op literal l r) (0 :: path) x
  | decided {l r : Expr} {a : Value} {x : EvalError} {op : Operator} {literal : String} :
      l.eval = .ok a → op.shortCircuit? literal a = some (.error x) →
      BreaksAt (.binary op literal l r) [] x
  | rhs {l r : Expr} {a : Value} {path : List Nat} {x : EvalError} {op : Operator}
      {literal : String} : l.eval = .ok a → op.shortCircuit? literal a = none →
      BreaksAt r path x → BreaksAt (.binary op literal l r) (1 :: path) x
  | apply {l r : Expr} {a b : Value} {x : EvalError} {op : Operator} {literal : String} :
      l.eval = .ok a → op.shortCircuit? literal a = none → r.eval = .ok b →
      op.apply literal a b = .error x → BreaksAt (.binary op literal l r) [] x
  | selector {c t e : Expr} {n : Int64} :
      c.eval = .ok (.integer n) → BreaksAt (.cond c t e) [] (.typeMismatch "if" .condition)
  | condition {c t e : Expr} {path : List Nat} {x : EvalError} :
      BreaksAt c path x → BreaksAt (.cond c t e) (0 :: path) x
  | thenBranch {c t e : Expr} {path : List Nat} {x : EvalError} :
      c.eval = .ok (.boolean true) → BreaksAt t path x → BreaksAt (.cond c t e) (1 :: path) x
  | elseBranch {c t e : Expr} {path : List Nat} {x : EvalError} :
      c.eval = .ok (.boolean false) → BreaksAt e path x → BreaksAt (.cond c t e) (2 :: path) x

theorem BreaksAt.eval_eq {e : Expr} {path : List Nat} {x : EvalError} (h : e.BreaksAt path x) :
    e.eval = .error x := by
  induction h with
  | negated _ h => simp [eval, h]
  | operand _ _ ih => simp [eval, ih]
  | lhs _ _ _ ih => simp [eval, ih]
  | decided h settled => simp [eval, h, settled]
  | rhs h open' _ ih => simp [eval, h, open', ih]
  | apply hl open' hr failed => simp [eval, hl, open', hr, failed]
  | selector h => simp [eval, h]
  | condition _ ih => simp [eval, ih]
  | thenBranch h _ ih => simp [eval, h, ih]
  | elseBranch h _ ih => simp [eval, h, ih]

/-- An evaluation breaks off in one place only. -/
theorem BreaksAt.unique {e : Expr} {path path' : List Nat} {x x' : EvalError}
    (h : e.BreaksAt path x) (h' : e.BreaksAt path' x') : path = path' := by
  induction h generalizing path' with
  | negated | operand | lhs | decided | rhs | apply | selector | condition | thenBranch
  | elseBranch => cases h' <;> grind [→ BreaksAt.eval_eq]

/-- The evaluations break off at nodes in the same place of two trees. The errors are the same,
except that each names its own node. -/
def BreakTogether (e e' : Expr) (x x' : EvalError) : Prop :=
  ∃ path n n', (e.BreaksAt path x ∧ e.at? path = some n) ∧
    (e'.BreaksAt path x' ∧ e'.at? path = some n') ∧
    EvalError.Alike (n.Name n') x x'

variable {c c' e e' : Expr} {x x' : EvalError} {y y' : Except EvalError Value}

theorem breakTogether_of_root (h : e.BreaksAt [] x) (h' : e'.BreaksAt [] x')
    (alike : EvalError.Alike (e.Name e') x x') : BreakTogether e e' x x' :=
  ⟨[], e, e', ⟨h, rfl⟩, ⟨h', rfl⟩, alike⟩

theorem BreakTogether.of_operand (h : BreakTogether c c' x x') (k : Nat)
    (child : e.children[k]? = some c) (child' : e'.children[k]? = some c')
    (up : ∀ path, c.BreaksAt path x → e.BreaksAt (k :: path) x)
    (up' : ∀ path, c'.BreaksAt path x' → e'.BreaksAt (k :: path) x') :
    BreakTogether e e' x x' := by
  obtain ⟨path, n, n', ⟨breaks, found⟩, ⟨breaks', found'⟩, alike⟩ := h
  refine ⟨k :: path, n, n', ⟨up path breaks, ?_⟩, ⟨up' path breaks', ?_⟩, alike⟩
  · rw [at?, child, Option.bind_some, found]
  · rw [at?, child', Option.bind_some, found']

abbrev EvalTogether (e e' : Expr) : Except EvalError Value → Except EvalError Value → Prop :=
  Matches (· = ·) (BreakTogether e e')

theorem evalTogether_of_root (h : EvalAlike (e.Name e') y y')
    (breaks : ∀ x, y = .error x → e.BreaksAt [] x)
    (breaks' : ∀ x, y' = .error x → e'.BreaksAt [] x) : EvalTogether e e' y y' := by
  rcases h.cases with ⟨a, a', rfl, rfl, eq⟩ | ⟨x, x', rfl, rfl, alike⟩
  · exact eq
  · exact breakTogether_of_root (breaks x rfl) (breaks' x' rfl) alike

theorem eval_together (h : e.Alike e') : EvalTogether e e' e.eval e'.eval := by
  induction h with
  | number n => rfl
  | not literal literal' _ ih =>
    rw [eval, eval]
    rcases ih.cases with ⟨a, _, ha, ha', rfl⟩ | ⟨x, x', hx, hx', together⟩
    · rw [ha, ha']
      cases a with
      | integer n =>
        exact breakTogether_of_root (.negated _ ha) (.negated _ ha') (.typeMismatch _ ⟨rfl, rfl⟩)
      | boolean b => rfl
    · rw [hx, hx']
      exact together.of_operand 0 rfl rfl (fun _ => .operand _) fun _ => .operand _
  | @binary l l' r r' op literal literal' _ _ ihl ihr =>
    have own : Name (binary op literal l r) (binary op literal' l' r') literal literal' :=
      ⟨rfl, rfl⟩
    rw [eval, eval]
    rcases ihl.cases with ⟨a, _, ha, ha', rfl⟩ | ⟨x, x', hx, hx', together⟩
    · rw [ha, ha', ok_bind, ok_bind]
      -- both connectives are settled by their left operand, or both need the right one
      have settled := op.shortCircuit?_alike own a
      generalize hs : op.shortCircuit? literal a = result at settled ⊢
      generalize hs' : op.shortCircuit? literal' a = result' at settled ⊢
      cases settled with
      | some alike =>
        refine evalTogether_of_root alike ?_ ?_
        · rintro x rfl
          exact .decided ha hs
        · rintro x rfl
          exact .decided ha' hs'
      | none =>
        rcases ihr.cases with ⟨b, _, hb, hb', rfl⟩ | ⟨x, x', hx, hx', together⟩
        · simp only [hb, hb', ok_bind]
          exact evalTogether_of_root (op.apply_alike own a b) (fun _ => .apply ha hs hb)
            fun _ => .apply ha' hs' hb'
        · simp only [hx, hx', error_bind]
          exact together.of_operand 1 rfl rfl (fun _ => .rhs ha hs) fun _ => .rhs ha' hs'
    · rw [hx, hx']
      exact together.of_operand 0 rfl rfl (fun _ => .lhs _ _) fun _ => .lhs _ _
  | @cond c c' t t' e e' _ _ _ ihc iht ihe =>
    rw [eval, eval]
    rcases ihc.cases with ⟨a, _, ha, ha', rfl⟩ | ⟨x, x', hx, hx', together⟩
    · rw [ha, ha']
      cases a with
      | integer n =>
        exact breakTogether_of_root (.selector ha) (.selector ha') (.typeMismatch _ ⟨rfl, rfl⟩)
      | boolean b =>
        cases b with
        | true =>
          refine iht.mono fun x x' together => ?_
          exact together.of_operand 1 rfl rfl (fun _ => .thenBranch ha) fun _ => .thenBranch ha'
        | false =>
          refine ihe.mono fun x x' together => ?_
          exact together.of_operand 2 rfl rfl (fun _ => .elseBranch ha) fun _ => .elseBranch ha'
    · rw [hx, hx']
      exact together.of_operand 0 rfl rfl (fun _ => .condition) fun _ => .condition

theorem eval_eq_error_iff_breaksAt : e.eval = .error x ↔ ∃ path, e.BreaksAt path x := by
  constructor
  · intro h
    obtain ⟨_, -, path, _, _, ⟨breaks, -⟩, -⟩ := (eval_together (Alike.refl e)).of_error h
    exact ⟨path, breaks⟩
  · rintro ⟨path, breaks⟩
    exact breaks.eval_eq

end Expr

end CondCalc
