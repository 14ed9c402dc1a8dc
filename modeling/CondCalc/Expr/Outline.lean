import CondCalc.Expr.Basic

/-! A tree drawn as lines, one for each node, parents above their children and the depth shown
by the indentation. -/
namespace CondCalc.Expr

/-- The nodes in preorder, with the depths they have when the root is at the given one. -/
def walk (depth : Nat) : Expr → List (Nat × Expr)
  | number n => [(depth, number n)]
  | not literal e => (depth, not literal e) :: e.walk (depth + 1)
  | binary op literal l r =>
    (depth, binary op literal l r) :: (l.walk (depth + 1) ++ r.walk (depth + 1))
  | cond c t e =>
    (depth, cond c t e) :: (c.walk (depth + 1) ++ (t.walk (depth + 1) ++ e.walk (depth + 1)))

theorem walk_eq (depth : Nat) (e : Expr) :
    e.walk depth = (depth, e) :: e.children.flatMap (walk (depth + 1)) := by
  cases e <;> simp [walk, children]

theorem length_walk (depth : Nat) (e : Expr) : (e.walk depth).length = e.size := by
  induction e generalizing depth <;> simp_all [walk, size] <;> omega

def outlineLine (depth : Nat) (label : String) : String :=
  String.ofList (List.replicate (2 * depth) ' ') ++ label

def outline (e : Expr) : List String :=
  (e.walk 0).map fun (depth, node) => outlineLine depth node.label

end CondCalc.Expr
