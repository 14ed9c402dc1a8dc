import CondCalc.Proofs.Evaluation.Exact
import CondCalc.Proofs.Evaluation.Relabelling

/-! Negation moved inwards: through a connective it negates both operands and turns the connective
into its dual, through a comparison it turns the comparison into its opposite, and through a
conditional it negates both branches. The operands are evaluated in the same order, and the same ones
are left out, so the result stays the same and an operand that fails does so with the same error. -/
namespace CondCalc

inductive EvalError.SameVariant : EvalError → EvalError → Prop where
  | divisionByZero : SameVariant .divisionByZero .divisionByZero
  | overflow (operator operator' : String) : SameVariant (.overflow operator) (.overflow operator')
  | typeMismatch (operator operator' : String) (cause cause' : Mismatch) :
      SameVariant (.typeMismatch operator cause) (.typeMismatch operator' cause')

theorem EvalError.SameVariant.refl (x : EvalError) : x.SameVariant x := by
  cases x with
  | divisionByZero => exact .divisionByZero
  | overflow operator => exact .overflow operator operator
  | typeMismatch operator cause => exact .typeMismatch operator operator cause cause

abbrev EndsLike : Except EvalError Value → Except EvalError Value → Prop :=
  Matches (· = ·) EvalError.SameVariant

theorem EndsLike.refl (y : Except EvalError Value) : EndsLike y y := by
  cases y with
  | ok v => rfl
  | error x => exact EvalError.SameVariant.refl x

namespace Operator

/-- The connective that is decided by the other truth value. -/
def dual? : Operator → Option Operator
  | and => some or
  | or => some and
  | _ => none

/-- The comparison that holds where this one does not. -/
def opposite? : Operator → Option Operator
  | eq => some neq
  | neq => some eq
  | lt => some gte
  | gte => some lt
  | gt => some lte
  | lte => some gt
  | _ => none

variable {op op' : Operator} {literal literal' : String} {a b : Value}

theorem suits_opposite {s t : Ty} (h : op.opposite? = some op') :
    op'.Suits s t ↔ op.Suits s t := by
  cases op <;> cases h <;> rfl

theorem comparison?_opposite {m n : Int} (h : op.opposite? = some op') :
    ∃ c, op.comparison? m n = some c ∧ op'.comparison? m n = some !c := by
  cases op <;> cases h <;> refine ⟨_, rfl, congrArg some ?_⟩ <;> grind

theorem connective?_opposite {p q : Bool} (suits : op.Suits .boolean .boolean)
    (h : op.opposite? = some op') :
    ∃ c, op.connective? p q = some c ∧ op'.connective? p q = some !c := by
  cases op with
  | eq | neq => cases h; cases p <;> cases q <;> simp [connective?]
  | lt | lte | gt | gte => cases suits.1
  | add | sub | mul | div | and | or => cases h

theorem apply_opposite (literal literal' : String) (a b : Value) (h : op.opposite? = some op') :
    (∃ c, op.apply literal a b = .ok (.boolean c) ∧ op'.apply literal' a b = .ok (.boolean !c)) ∨
      ∃ cause cause', op.apply literal a b = .error (.typeMismatch literal cause) ∧
        op'.apply literal' a b = .error (.typeMismatch literal' cause') := by
  by_cases suits : op.Suits a.ty b.ty
  · left
    cases a with
    | integer m =>
      cases b with
      | integer n =>
        obtain ⟨c, hc, hc'⟩ := comparison?_opposite (m := m.toInt) (n := n.toInt) h
        exact ⟨c, apply_of_comparison? hc, apply_of_comparison? hc'⟩
      | boolean q => cases suits.ty_eq
    | boolean p =>
      cases b with
      | integer n => cases suits.ty_eq
      | boolean q =>
        obtain ⟨c, hc, hc'⟩ := connective?_opposite (p := p) (q := q) suits h
        exact ⟨c, apply_of_connective? hc, apply_of_connective? hc'⟩
  · right
    exact ⟨_, _, apply_of_unsuited suits, apply_of_unsuited (mt (suits_opposite h).1 suits)⟩

theorem opposite?_symm (h : op.opposite? = some op') : op'.opposite? = some op := by
  cases op <;> cases h <;> rfl

theorem shortCircuit?_of_opposite? (h : op.opposite? = some op') :
    op.shortCircuit? literal a = none := by
  cases op <;> cases h <;> rfl

end Operator

namespace Expr

/-- A tree that stands in two others, and its places there. -/
structure Shared where
  tree : Expr
  place : List Nat
  place' : List Nat

/-- Two trees over the same operands end alike. Where the evaluation of one of them breaks off inside
an operand, that of the other does so at the same node of this operand, with the same error. -/
structure EndsLikeOver (operands : List Shared) (e e' : Expr) : Prop where
  stands : ∀ s ∈ operands, e.at? s.place = some s.tree ∧ e'.at? s.place' = some s.tree
  inside : ∀ s ∈ operands, ∀ path x,
    e.BreaksAt (s.place ++ path) x ↔ e'.BreaksAt (s.place' ++ path) x
  ends : EndsLike e.eval e'.eval

/-- The operands of a node under `!`, and of one over their negations. -/
def negatedOperands (a b : Expr) : List Shared :=
  [⟨a, [0, 0], [0, 0]⟩, ⟨b, [0, 1], [1, 0]⟩]

def comparedOperands (a b : Expr) : List Shared :=
  [⟨a, [0, 0], [0]⟩, ⟨b, [0, 1], [1]⟩]

def branchOperands (c a b : Expr) : List Shared :=
  [⟨c, [0, 0], [0]⟩, ⟨a, [0, 1], [1, 0]⟩, ⟨b, [0, 2], [2, 0]⟩]

section breaks

variable {e l r c t : Expr} {op : Operator} {literal : String} {path : List Nat} {x : EvalError}

theorem breaksAt_operand_iff : (not literal e).BreaksAt (0 :: path) x ↔ e.BreaksAt path x := by
  constructor
  · rintro (_ | ⟨_, h⟩)
    exact h
  · exact .operand literal

theorem breaksAt_lhs_iff : (binary op literal l r).BreaksAt (0 :: path) x ↔ l.BreaksAt path x := by
  constructor
  · intro h
    cases h with
    | lhs _ _ h => exact h
  · exact .lhs op literal

theorem breaksAt_rhs_iff : (binary op literal l r).BreaksAt (1 :: path) x ↔
    (∃ a, l.eval = .ok a ∧ op.shortCircuit? literal a = none) ∧ r.BreaksAt path x := by
  constructor
  · intro h
    cases h with
    | rhs ha unsettled h => exact ⟨⟨_, ha, unsettled⟩, h⟩
  · rintro ⟨⟨a, ha, unsettled⟩, h⟩
    exact .rhs ha unsettled h

theorem breaksAt_condition_iff : (cond c t e).BreaksAt (0 :: path) x ↔ c.BreaksAt path x := by
  constructor
  · intro h
    cases h with
    | condition h => exact h
  · exact .condition

theorem breaksAt_thenBranch_iff : (cond c t e).BreaksAt (1 :: path) x ↔
    c.eval = .ok (.boolean true) ∧ t.BreaksAt path x := by
  constructor
  · intro h
    cases h with
    | thenBranch hc h => exact ⟨hc, h⟩
  · exact fun h => .thenBranch h.1 h.2

theorem breaksAt_elseBranch_iff : (cond c t e).BreaksAt (2 :: path) x ↔
    c.eval = .ok (.boolean false) ∧ e.BreaksAt path x := by
  constructor
  · intro h
    cases h with
    | elseBranch hc h => exact ⟨hc, h⟩
  · exact fun h => .elseBranch h.1 h.2

end breaks

theorem eval_not_eq_ok_iff {literal : String} {e : Expr} {v : Value} :
    (not literal e).eval = .ok v ↔ ∃ b, e.eval = .ok (.boolean b) ∧ v = .boolean !b := by
  rw [eval]
  rcases e.eval with x | n | b
  · simp
  · simp
  · simp [eq_comm]

section laws

variable {op op' : Operator} (a b c : Expr) (i j k l m : String)

theorem not_endsLike (e : Expr) : EndsLike (not i e).eval (not j e).eval := by
  rw [eval, eval]
  rcases e.eval with x | n | b
  · exact EvalError.SameVariant.refl x
  · exact .typeMismatch i j _ _
  · rfl

theorem unsettled_dual_iff (h : op.dual? = some op') :
    (∃ v, a.eval = .ok v ∧ op.shortCircuit? j v = none) ↔
      ∃ v, (not l a).eval = .ok v ∧ op'.shortCircuit? k v = none := by
  simp only [eval_not_eq_ok_iff]
  cases op <;> cases h <;> rcases a.eval with x | n | _ | _ <;> simp [Operator.shortCircuit?]

theorem not_connective_endsLike (h : op.dual? = some op') :
    EndsLikeOver (negatedOperands a b) (not i (binary op j a b))
      (binary op' k (not l a) (not m b)) where
  stands s mem := by
    rcases List.mem_pair.1 mem with rfl | rfl <;> exact ⟨rfl, rfl⟩
  inside s mem path x := by
    rcases List.mem_pair.1 mem with rfl | rfl
    · simp [breaksAt_operand_iff, breaksAt_lhs_iff]
    · simp [breaksAt_operand_iff, breaksAt_rhs_iff, unsettled_dual_iff a j k l h]
  ends := by
    rw [eval, eval]
    rcases ha : a.eval with x | n | p
    · simp only [eval, ha, error_bind]
      exact .refl (.error x)
    · simp only [eval, ha, ok_bind]
      cases op <;> cases h <;> exact .typeMismatch j l _ _
    · simp only [eval, ha, ok_bind]
      cases op <;> cases h <;> cases p
      case and.refl.false | or.refl.true => rfl
      case and.refl.true | or.refl.false =>
        rcases b.eval with x | n | q
        · exact .refl (.error x)
        · exact .typeMismatch j m _ _
        · rfl

theorem not_comparison_endsLike (h : op.opposite? = some op') :
    EndsLikeOver (comparedOperands a b) (not i (binary op j a b)) (binary op' k a b) where
  stands s mem := by
    rcases List.mem_pair.1 mem with rfl | rfl <;> exact ⟨rfl, rfl⟩
  inside s mem path x := by
    rcases List.mem_pair.1 mem with rfl | rfl
    · simp [breaksAt_operand_iff, breaksAt_lhs_iff]
    · simp [breaksAt_operand_iff, breaksAt_rhs_iff, Operator.shortCircuit?_of_opposite? h,
        Operator.shortCircuit?_of_opposite? (Operator.opposite?_symm h)]
  ends := by
    rw [eval, eval, eval]
    rcases a.eval with x | u
    · exact .refl (.error x)
    · simp only [ok_bind, Operator.shortCircuit?_of_opposite? h,
        Operator.shortCircuit?_of_opposite? (Operator.opposite?_symm h)]
      rcases b.eval with x | v
      · exact .refl (.error x)
      · simp only [ok_bind]
        rcases Operator.apply_opposite j k u v h with ⟨c, hc, hc'⟩ | ⟨cause, cause', hc, hc'⟩
        · rw [hc, hc']
          rfl
        · rw [hc, hc']
          exact .typeMismatch j k cause cause'

theorem not_cond_endsLike :
    EndsLikeOver (branchOperands c a b) (not i (cond c a b))
      (cond c (not j a) (not k b)) where
  stands s mem := by
    simp only [branchOperands, List.mem_cons, List.not_mem_nil, or_false] at mem
    rcases mem with rfl | rfl | rfl <;> exact ⟨rfl, rfl⟩
  inside s mem path x := by
    simp only [branchOperands, List.mem_cons, List.not_mem_nil, or_false] at mem
    rcases mem with rfl | rfl | rfl
    · simp [breaksAt_operand_iff, breaksAt_condition_iff]
    · simp [breaksAt_operand_iff, breaksAt_thenBranch_iff]
    · simp [breaksAt_operand_iff, breaksAt_elseBranch_iff]
  ends := by
    rw [eval, eval, eval]
    rcases c.eval with x | n | _ | _
    · exact .refl (.error x)
    · exact .refl (.error (.typeMismatch "if" .condition))
    · exact not_endsLike i k b
    · exact not_endsLike i j a

theorem eval_not_not {v : Value} :
    (not i (not j a)).eval = .ok v ↔ a.eval = .ok v ∧ v.ty = .boolean := by
  simp only [eval_not_eq_ok_iff]
  constructor
  · rintro ⟨_, ⟨p, ha, ⟨⟩⟩, rfl⟩
    simp [ha, Value.ty]
  · rintro ⟨ha, ty⟩
    cases v with
    | integer n => cases ty
    | boolean p => exact ⟨!p, ⟨p, ha, rfl⟩, by simp⟩

end laws

/-- Negation commutes with every construct on booleans: whatever the operands come to, the negated
node ends like the one with the negation further inside. And two negations leave a boolean as it is
and let nothing else pass. -/
theorem negation_commutes (a b c : Expr) (i j k l m : String) :
    EndsLikeOver (negatedOperands a b)
      (not i (binary .and j a b)) (binary .or k (not l a) (not m b)) ∧
    EndsLikeOver (negatedOperands a b)
      (not i (binary .or j a b)) (binary .and k (not l a) (not m b)) ∧
    EndsLikeOver (comparedOperands a b) (not i (binary .eq j a b)) (binary .neq k a b) ∧
    EndsLikeOver (comparedOperands a b) (not i (binary .neq j a b)) (binary .eq k a b) ∧
    EndsLikeOver (comparedOperands a b) (not i (binary .lt j a b)) (binary .gte k a b) ∧
    EndsLikeOver (comparedOperands a b) (not i (binary .lte j a b)) (binary .gt k a b) ∧
    EndsLikeOver (comparedOperands a b) (not i (binary .gt j a b)) (binary .lte k a b) ∧
    EndsLikeOver (comparedOperands a b) (not i (binary .gte j a b)) (binary .lt k a b) ∧
    EndsLikeOver (branchOperands c a b) (not i (cond c a b)) (cond c (not j a) (not k b)) ∧
    ∀ v, (not i (not j a)).eval = .ok v ↔ a.eval = .ok v ∧ v.ty = .boolean := by
  refine ⟨?_, ?_, ?_, ?_, ?_, ?_, ?_, ?_, ?_, ?_⟩
  · exact not_connective_endsLike a b i j k l m rfl
  · exact not_connective_endsLike a b i j k l m rfl
  · exact not_comparison_endsLike a b i j k rfl
  · exact not_comparison_endsLike a b i j k rfl
  · exact not_comparison_endsLike a b i j k rfl
  · exact not_comparison_endsLike a b i j k rfl
  · exact not_comparison_endsLike a b i j k rfl
  · exact not_comparison_endsLike a b i j k rfl
  · exact not_cond_endsLike a b c i j k
  · exact fun v => eval_not_not a i j

end Expr

end CondCalc
