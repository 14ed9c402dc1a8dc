import CondCalc.Proofs.Evaluation.Relabelling

/-! Subtrees that an evaluation leaves out. They can be replaced by any tree, and the result stays
the same with all that an error says. A subtree that is not left out can be replaced so that the
result changes. -/
namespace CondCalc.Expr

def withChild (e : Expr) (k : Nat) (r : Expr) : Expr :=
  match e, k with
  | not literal _, 0 => not literal r
  | binary op literal _ rhs, 0 => binary op literal r rhs
  | binary op literal lhs _, 1 => binary op literal lhs r
  | cond _ t e, 0 => cond r t e
  | cond c _ e, 1 => cond c r e
  | cond c t _, 2 => cond c t r
  | e, _ => e

/-- The tree with another subtree where the path leads to. -/
def replace (e : Expr) (path : List Nat) (r : Expr) : Expr :=
  match path with
  | [] => r
  | k :: path =>
    match e.children[k]? with
    | some c => e.withChild k (c.replace path r)
    | none => e

/-- The node is evaluated without its child of that number: the right operand of a connective that
the left one decides or does not suit, and of any operator if the left one fails, or a branch that
the condition does not select. -/
inductive Skips : Expr → Nat → Prop where
  | decidedAnd {l r : Expr} (literal : String) :
      l.eval = .ok (.boolean false) → Skips (.binary .and literal l r) 1
  | decidedOr {l r : Expr} (literal : String) :
      l.eval = .ok (.boolean true) → Skips (.binary .or literal l r) 1
  | unsuited {op : Operator} {l r : Expr} {n : Int64} (literal : String) :
      op ∈ [.and, .or] → l.eval = .ok (.integer n) → Skips (.binary op literal l r) 1
  | failed {l r : Expr} {x : EvalError} (op : Operator) (literal : String) :
      l.eval = .error x → Skips (.binary op literal l r) 1
  | thenBranch {c t e : Expr} : c.eval ≠ .ok (.boolean true) → Skips (.cond c t e) 1
  | elseBranch {c t e : Expr} : c.eval ≠ .ok (.boolean false) → Skips (.cond c t e) 2

/-- Somewhere on the path a node skips the child that the path goes on with. -/
def Skipped (e : Expr) (path : List Nat) : Prop :=
  ∃ front node k back, path = front ++ k :: back ∧ e.at? front = some node ∧ node.Skips k

section child

variable {e c c' r : Expr} {k : Nat} {x : EvalError}

theorem withChild_self (h : e.children[k]? = some c) : e.withChild k c = e := by
  cases e with
  | number n => rfl
  | not literal e => rcases k with _ | k <;> cases h; rfl
  | binary op literal lhs rhs => rcases k with _ | _ | k <;> cases h <;> rfl
  | cond c t e => rcases k with _ | _ | _ | k <;> cases h <;> rfl

theorem skips_rhs_iff {op : Operator} {literal : String} {l r : Expr} :
    (binary op literal l r).Skips 1 ↔ ∀ a, l.eval = .ok a → op.shortCircuit? literal a ≠ none := by
  constructor
  · intro h a ha
    cases h with
    | decidedAnd _ h | decidedOr _ h => cases h.symm.trans ha; simp [Operator.shortCircuit?]
    | unsuited _ mem h =>
      cases h.symm.trans ha
      rcases List.mem_pair.1 mem with rfl | rfl <;> simp [Operator.shortCircuit?]
    | failed _ _ h => cases h.symm.trans ha
  · intro h
    cases hl : l.eval with
    | error x => exact .failed op literal hl
    | ok a =>
      have settled := h a hl
      cases op with
      | and =>
        cases a with
        | integer n => exact .unsuited literal (by simp) hl
        | boolean b =>
          cases b with
          | true => exact absurd rfl settled
          | false => exact .decidedAnd literal hl
      | or =>
        cases a with
        | integer n => exact .unsuited literal (by simp) hl
        | boolean b =>
          cases b with
          | true => exact .decidedOr literal hl
          | false => exact absurd rfl settled
      | add | sub | mul | div | eq | neq | gt | gte | lt | lte => exact absurd rfl settled

theorem eval_withChild_congr (e : Expr) (k : Nat) (h : c.eval = c'.eval) :
    (e.withChild k c).eval = (e.withChild k c').eval := by
  cases e with
  | number n => rfl
  | not literal e => rcases k with _ | k <;> simp only [withChild, eval, h]
  | binary op literal lhs rhs => rcases k with _ | _ | k <;> simp only [withChild, eval, h]
  | cond c t e => rcases k with _ | _ | _ | k <;> simp only [withChild, eval, h]

theorem eval_withChild_of_skips (h : e.Skips k) (r : Expr) : (e.withChild k r).eval = e.eval := by
  cases e with
  | number n => rfl
  | not literal e => cases h
  | binary op literal lhs rhs =>
    obtain rfl : k = 1 := by cases h <;> rfl
    rw [skips_rhs_iff] at h
    rw [withChild, eval, eval]
    cases hl : lhs.eval with
    | error x => rfl
    | ok a =>
      cases settled : op.shortCircuit? literal a with
      | some result => simp only [ok_bind, settled]
      | none => exact absurd settled (h a hl)
  | cond c t e =>
    cases h with
    | thenBranch h =>
      rw [withChild, eval, eval]
      rcases hc : c.eval with x | n | _ | _
      · rfl
      · rfl
      · rfl
      · exact absurd hc h
    | elseBranch h =>
      rw [withChild, eval, eval]
      rcases hc : c.eval with x | n | _ | _
      · rfl
      · rfl
      · exact absurd hc h
      · rfl

theorem eval_withChild_of_error (h : ¬e.Skips k) (child : e.children[k]? = some c)
    (hr : r.eval = .error x) : (e.withChild k r).eval = .error x := by
  cases e with
  | number n => cases child
  | not literal e =>
    rcases k with _ | k
    · simp [withChild, eval, hr]
    · cases child
  | binary op literal lhs rhs =>
    rcases k with _ | _ | k
    · simp [withChild, eval, hr]
    · simp only [Nat.zero_add, skips_rhs_iff, not_forall, ne_eq, not_not] at h
      obtain ⟨a, ha, unsettled⟩ := h
      simp [withChild, eval, ha, unsettled, hr]
    · cases child
  | cond c t e =>
    rcases k with _ | _ | _ | k
    · simp [withChild, eval, hr]
    · have selected : c.eval = .ok (.boolean true) := by_contra fun other => h (.thenBranch other)
      simp [withChild, eval, selected, hr]
    · have selected : c.eval = .ok (.boolean false) := by_contra fun other => h (.elseBranch other)
      simp [withChild, eval, selected, hr]
    · cases child

end child

section path

variable {e s r : Expr} {k : Nat} {path : List Nat} {x : EvalError}

theorem not_skipped_nil (e : Expr) : ¬e.Skipped [] := by
  rintro ⟨front, node, k, back, eq, -⟩
  simp at eq

theorem skipped_cons_iff : e.Skipped (k :: path) ↔
    e.Skips k ∨ ∃ c, e.children[k]? = some c ∧ c.Skipped path := by
  constructor
  · rintro ⟨front, node, j, back, eq, found, skips⟩
    cases front with
    | nil =>
      cases eq
      cases found
      exact .inl skips
    | cons i front =>
      cases eq
      obtain ⟨c, child, found⟩ := Option.bind_eq_some_iff.1 found
      exact .inr ⟨c, child, front, node, j, back, rfl, found, skips⟩
  · rintro (skips | ⟨c, child, front, node, j, back, rfl, found, skips⟩)
    · exact ⟨[], e, k, path, rfl, rfl, skips⟩
    · exact ⟨k :: front, node, j, back, rfl, by rw [at?, child, Option.bind_some, found], skips⟩

theorem eval_replace_of_skipped (h : e.Skipped path) (r : Expr) :
    (e.replace path r).eval = e.eval := by
  induction path generalizing e with
  | nil => exact absurd h e.not_skipped_nil
  | cons k path ih =>
    rw [replace]
    cases child : e.children[k]? with
    | none => rfl
    | some c =>
      rcases skipped_cons_iff.1 h with skips | ⟨c', child', below⟩
      · exact eval_withChild_of_skips skips _
      · cases child.symm.trans child'
        have above := eval_withChild_congr e k (ih below)
        rwa [withChild_self child] at above

theorem eval_replace_of_error (h : ¬e.Skipped path) (place : e.at? path = some s)
    (hr : r.eval = .error x) : (e.replace path r).eval = .error x := by
  induction path generalizing e with
  | nil => exact hr
  | cons k path ih =>
    obtain ⟨c, child, below⟩ := Option.bind_eq_some_iff.1 place
    rw [skipped_cons_iff, not_or] at h
    rw [replace, child]
    exact eval_withChild_of_error h.1 child (ih (fun skipped => h.2 ⟨c, child, skipped⟩) below)

end path

/-- A subtree has no influence on the result exactly if a node above it skips the part that it
stands in: then any other tree in its place leaves the value, or the error, as it is. -/
theorem skipped_iff_eval_replace (e s : Expr) (path : List Nat) (place : e.at? path = some s) :
    e.Skipped path ↔ ∀ r, (e.replace path r).eval = e.eval := by
  constructor
  · exact fun skipped => eval_replace_of_skipped skipped
  · intro same
    by_contra evaluated
    -- two failures that differ cannot both be the result
    have fails (literal : String) : e.eval = .error (.typeMismatch literal .negated) := by
      rw [← same (not literal (number 0))]
      exact eval_replace_of_error evaluated place rfl
    have clash := (fails "a").symm.trans (fails "b")
    simp at clash

/-- In `if 1 == 2 then 1 / 0 else 4 || 5 / 0` the divisors are skipped, one in a branch and one
behind an operand of the wrong type; the condition is not. -/
theorem skipped_iff_eval_replace_divisors :
    let e : Expr := .cond (.binary .eq "==" (.number 1) (.number 2))
      (.binary .div "/" (.number 1) (.number 0))
      (.binary .or "||" (.number 4) (.binary .div "/" (.number 5) (.number 0)))
    e.eval = .error (.typeMismatch "||" .leftOperand) ∧
      (e.at? [1, 1] = some (.number 0) ∧ ∀ r, (e.replace [1, 1] r).eval = e.eval) ∧
      (e.at? [2, 1, 1] = some (.number 0) ∧ ∀ r, (e.replace [2, 1, 1] r).eval = e.eval) ∧
      e.at? [0, 1] = some (.number 2) ∧ ¬e.Skipped [0, 1] := by
  intro e
  have branch : e.Skipped [1, 1] := ⟨[], e, 1, [1], rfl, rfl, .thenBranch (by decide)⟩
  have operand : e.Skipped [2, 1, 1] :=
    ⟨[2], _, 1, [1], rfl, rfl, .unsuited "||" (n := 4) (by decide) rfl⟩
  refine ⟨by decide, ⟨rfl, (skipped_iff_eval_replace e _ _ rfl).1 branch⟩,
    ⟨rfl, (skipped_iff_eval_replace e _ _ rfl).1 operand⟩, rfl, fun skipped => ?_⟩
  have same := (skipped_iff_eval_replace e (.number 2) _ rfl).1 skipped (.number 1)
  revert same
  decide

end CondCalc.Expr
