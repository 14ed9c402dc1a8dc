import CondCalc.Expr.Outline
import CondCalc.Proofs.Lexis.Munch
import CondCalc.Proofs.Syntax.Grammar

/-! The nodes of a tree, and what a text says about them: each operator or keyword with a family
leaves a node of that family, and a node keeps the literal of its token. -/
namespace CondCalc.Expr

def nodes (e : Expr) : List Expr :=
  (e.walk 0).map Prod.snd

theorem map_snd_walk (depth : Nat) (e : Expr) : (e.walk depth).map Prod.snd = e.nodes := by
  unfold nodes
  generalize 0 = depth'
  induction e generalizing depth depth' with
  | number n => rfl
  | not literal e ih =>
    simp only [walk, List.map_cons]
    rw [ih (depth + 1) (depth' + 1)]
  | binary op literal l r ihl ihr =>
    simp only [walk, List.map_cons, List.map_append]
    rw [ihl (depth + 1) (depth' + 1), ihr (depth + 1) (depth' + 1)]
  | cond c t e ihc iht ihe =>
    simp only [walk, List.map_cons, List.map_append]
    rw [ihc (depth + 1) (depth' + 1), iht (depth + 1) (depth' + 1), ihe (depth + 1) (depth' + 1)]

@[simp] theorem nodes_number (n : Int64) : (number n).nodes = [number n] := rfl

@[simp] theorem nodes_not (literal : String) (e : Expr) :
    (not literal e).nodes = not literal e :: e.nodes := by
  rw [nodes, walk, List.map_cons, map_snd_walk]

@[simp] theorem nodes_binary (op : Operator) (literal : String) (l r : Expr) :
    (binary op literal l r).nodes = binary op literal l r :: (l.nodes ++ r.nodes) := by
  rw [nodes, walk, List.map_cons, List.map_append, map_snd_walk, map_snd_walk]

@[simp] theorem nodes_cond (c t e : Expr) :
    (cond c t e).nodes = cond c t e :: (c.nodes ++ (t.nodes ++ e.nodes)) := by
  rw [nodes, walk, List.map_cons, List.map_append, List.map_append, map_snd_walk, map_snd_walk,
    map_snd_walk]

def Spelled : Expr → Prop
  | not literal _ => literal = "!"
  | binary op literal _ _ => literal = op.spelling
  | number _ | cond .. => True

/-- Every operator of the tree is written in its own spelling. -/
def Standard (e : Expr) : Prop :=
  ∀ n ∈ e.nodes, n.Spelled

@[simp] theorem standard_number (n : Int64) : (number n).Standard := by
  simp [Standard, Spelled]

@[simp] theorem standard_not {literal : String} {e : Expr} :
    (not literal e).Standard ↔ literal = "!" ∧ e.Standard := by
  simp [Standard, Spelled]

@[simp] theorem standard_binary {op : Operator} {literal : String} {l r : Expr} :
    (binary op literal l r).Standard ↔ literal = op.spelling ∧ l.Standard ∧ r.Standard := by
  simp [Standard, Spelled, or_imp, forall_and]

@[simp] theorem standard_cond {c t e : Expr} :
    (cond c t e).Standard ↔ c.Standard ∧ t.Standard ∧ e.Standard := by
  simp [Standard, Spelled, or_imp, forall_and]

def family? : Expr → Option Family
  | number _ => none
  | not _ _ => some .logical
  | binary op _ _ _ => some op.family
  | cond .. => some .conditional

end CondCalc.Expr

namespace CondCalc.Derives

variable {budget : Nat} {phrase : Phrase} {ts : List Token} {e : Expr}

theorem exists_family?_iff (h : Derives budget phrase ts e) (f : Family) :
    (∃ t ∈ ts, t.kind.family? = some f) ↔ ∃ n ∈ e.nodes, n.family? = some f := by
  induction h with
  | number budget n literal offset => simp [Kind.family?, Expr.family?]
  | not literal offset _ ih =>
    rw [Expr.nodes_not]
    simp only [List.mem_cons, exists_eq_or_imp, ih]
    simp only [Kind.family?, Expr.family?]
  | paren l₁ l₂ o₁ o₂ _ ih =>
    rw [← ih]
    simp [Kind.family?, or_and_right, exists_or]
  | tighter _ ih => exact ih
  | binary op literal offset _ _ _ ihl ihr =>
    rw [Expr.nodes_binary]
    simp only [List.mem_cons, List.mem_append, or_and_right, exists_or, exists_eq_left, ihl, ihr]
    simp only [Kind.family?, Expr.family?]
    exact or_left_comm
  | plain _ ih => exact ih
  | cond l₁ l₂ l₃ o₁ o₂ o₃ _ _ _ ihc iht ihe =>
    rw [Expr.nodes_cond]
    simp only [List.mem_cons, List.mem_append, or_and_right, exists_or, exists_eq_left, ihc, iht,
      ihe]
    simp only [Kind.family?, Expr.family?, reduceCtorEq, false_or]
    grind

theorem standard (h : Derives budget phrase ts e) (writes : ∀ t ∈ ts, t.kind.Writes t.literal) :
    e.Standard := by
  induction h with
  | number budget n literal offset => exact Expr.standard_number n
  | not literal offset _ ih =>
    rw [List.forall_mem_cons] at writes
    have spelling : some "!" = some literal := writes.1
    exact Expr.standard_not.2 ⟨(Option.some.inj spelling).symm, ih writes.2⟩
  | paren l₁ l₂ o₁ o₂ _ ih =>
    exact ih fun t mem => writes t (by simp [mem])
  | tighter _ ih => exact ih writes
  | binary op literal offset _ _ _ ihl ihr =>
    rw [List.forall_mem_append, List.forall_mem_cons] at writes
    obtain ⟨left, own, right⟩ := writes
    have spelling : some op.spelling = some literal := own
    exact Expr.standard_binary.2 ⟨(Option.some.inj spelling).symm, ihl left, ihr right⟩
  | plain _ ih => exact ih writes
  | cond l₁ l₂ l₃ o₁ o₂ o₃ _ _ _ ihc iht ihe =>
    simp only [List.forall_mem_cons, List.forall_mem_append] at writes
    obtain ⟨-, condition, -, first, -, second⟩ := writes
    exact Expr.standard_cond.2 ⟨ihc condition, iht first, ihe second⟩

end CondCalc.Derives
