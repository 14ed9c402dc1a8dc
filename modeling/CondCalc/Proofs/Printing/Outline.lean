import CondCalc.Proofs.Calculation.Stages
import CondCalc.Proofs.Printing.Roots

/-! Trees drawn as lines can be told apart. Depths and labels in the order of the lines say which
label stands in which place of the tree: the lines of a child go on as long as they are deeper than
its own, so it can be seen where the next child begins and where there is none left. Labels that
begin with a space or hold a line feed could hide this in the drawing; the spellings of the operators
do not. -/
namespace CondCalc

theorem map_eq_of_map_eq {ι α β : Type} {f : ι → α} {g : ι → β} {xs ys : List ι}
    (h : xs.map f = ys.map f) (imp : ∀ x ∈ xs, ∀ y ∈ ys, f x = f y → g x = g y) :
    xs.map g = ys.map g := by
  induction xs generalizing ys with
  | nil =>
    cases ys with
    | nil => rfl
    | cons y ys => cases h
  | cons x xs ih =>
    cases ys with
    | nil => cases h
    | cons y ys =>
      obtain ⟨head, tail⟩ := List.cons.inj h
      rw [List.map_cons, List.map_cons, imp x List.mem_cons_self y List.mem_cons_self head]
      rw [ih tail fun x' mem y' mem' =>
        imp x' (List.mem_cons_of_mem x mem) y' (List.mem_cons_of_mem y mem')]

theorem eq_of_map_eq {ι α : Type} {f : ι → α} {xs ys : List ι} (h : xs.map f = ys.map f)
    (inj : ∀ x ∈ xs, ∀ y ∈ ys, f x = f y → x = y) : xs = ys := by
  have same := map_eq_of_map_eq (g := id) h inj
  rwa [List.map_id, List.map_id] at same

section lines

variable {lines lines' : List String}

theorem toList_unlines_cons (line : String) (lines : List String) :
    (unlines (line :: lines)).toList = line.toList ++ '\n' :: (unlines lines).toList := by
  simp [unlines]

theorem unlines_cons_ne_nil (line : String) (lines : List String) :
    unlines (line :: lines) ≠ unlines [] := by
  intro h
  have texts := congrArg String.toList h
  rw [toList_unlines_cons] at texts
  simp [unlines] at texts

theorem count_unlines (whole : ∀ line ∈ lines, '\n' ∉ line.toList) :
    (unlines lines).toList.count '\n' = lines.length := by
  induction lines with
  | nil => rfl
  | cons line lines ih =>
    rw [List.forall_mem_cons] at whole
    rw [toList_unlines_cons, List.count_append, List.count_eq_zero.2 whole.1, List.count_cons_self,
      ih whole.2, Nat.zero_add, List.length_cons]

theorem unlines_inj (whole : ∀ line ∈ lines, '\n' ∉ line.toList)
    (whole' : ∀ line ∈ lines', '\n' ∉ line.toList) (h : unlines lines = unlines lines') :
    lines = lines' := by
  induction lines generalizing lines' with
  | nil =>
    cases lines' with
    | nil => rfl
    | cons line' lines' => exact absurd h.symm (unlines_cons_ne_nil line' lines')
  | cons line lines ih =>
    cases lines' with
    | nil => exact absurd h (unlines_cons_ne_nil line lines)
    | cons line' lines' =>
      rw [List.forall_mem_cons] at whole whole'
      have goes {l : String} (hl : '\n' ∉ l.toList) : ∀ c ∈ l.toList, c != '\n' := by
        rintro c mem
        exact bne_iff_ne.2 (by rintro rfl; exact hl mem)
      have texts := congrArg String.toList h
      rw [toList_unlines_cons, toList_unlines_cons] at texts
      obtain ⟨head, rest⟩ := append_inj_of_head (goes whole.1) (by simp) (goes whole'.1) (by simp)
        texts
      rw [String.toList_injective head,
        ih whole.2 whole'.2 (String.toList_injective (List.cons.inj rest).2)]

end lines

namespace Expr

/-- The depths and labels of the nodes in preorder, when the root is at the given depth. -/
def drawnFrom (depth : Nat) (e : Expr) : List (Nat × String) :=
  (e.walk depth).map fun (d, node) => (d, node.label)

def drawn (e : Expr) : List (Nat × String) :=
  e.drawnFrom 0

theorem drawnFrom_eq (depth : Nat) (e : Expr) :
    e.drawnFrom depth = (depth, e.label) :: e.children.flatMap (drawnFrom (depth + 1)) := by
  rw [drawnFrom, walk_eq, List.map_cons, List.map_flatMap]
  rfl

/-- The label of the node that a path leads to. A node's path goes through its parent and ends in
its place among the children there. -/
def labelAt (e : Expr) (path : List Nat) : Option String :=
  (e.at? path).map label

theorem labelAt_nil (e : Expr) : e.labelAt [] = some e.label := rfl

theorem labelAt_cons (e : Expr) (k : Nat) (path : List Nat) :
    e.labelAt (k :: path) = e.children[k]?.bind fun c => c.labelAt path := by
  rw [labelAt, at?, Option.map_bind]
  rfl

theorem labelAt_eq_iff {e e' : Expr} : e.labelAt = e'.labelAt ↔
    e.label = e'.label ∧ e.children.map labelAt = e'.children.map labelAt := by
  constructor
  · intro h
    refine ⟨Option.some.inj (congrFun h []), List.ext_getElem? fun k => ?_⟩
    have below : ∀ path, e.labelAt (k :: path) = e'.labelAt (k :: path) := fun path =>
      congrFun h (k :: path)
    simp only [labelAt_cons] at below
    rw [List.getElem?_map, List.getElem?_map]
    cases hc : e.children[k]? with
    | none =>
      cases hc' : e'.children[k]? with
      | none => rfl
      | some c' =>
        rw [hc, hc'] at below
        cases below []
    | some c =>
      cases hc' : e'.children[k]? with
      | none =>
        rw [hc, hc'] at below
        cases below []
      | some c' =>
        rw [hc, hc'] at below
        exact congrArg some (funext below)
  · rintro ⟨label, children⟩
    funext path
    cases path with
    | nil => rw [labelAt_nil, labelAt_nil, label]
    | cons k path =>
      have child (x : Expr) : x.labelAt (k :: path) =
          (x.children.map labelAt)[k]?.bind fun labels => labels path := by
        rw [labelAt_cons, List.getElem?_map]
        cases x.children[k]? <;> rfl
      rw [child, child, children]

def paths : Expr → List (List Nat)
  | number _ => [[]]
  | not _ e => [] :: e.paths.map (0 :: ·)
  | binary _ _ l r => [] :: (l.paths.map (0 :: ·) ++ r.paths.map (1 :: ·))
  | cond c t e =>
    [] :: (c.paths.map (0 :: ·) ++ (t.paths.map (1 :: ·) ++ e.paths.map (2 :: ·)))

theorem paths_eq (e : Expr) : e.paths =
    [] :: (e.children.map paths).zipIdx.flatMap fun (below, k) => below.map (k :: ·) := by
  cases e <;> simp [paths, children]

theorem drawnFrom_eq_map_paths (depth : Nat) (e : Expr) :
    (e.drawnFrom depth).map (Prod.map id some) =
      e.paths.map fun path => (depth + path.length, e.labelAt path) := by
  induction e generalizing depth with
  | number n => rfl
  | not literal e ih =>
    rw [drawnFrom_eq, paths]
    simp [labelAt_nil, labelAt_cons, children, ih, Function.comp_def, Nat.add_assoc,
      Nat.add_comm 1]
  | binary op literal l r ihl ihr =>
    rw [drawnFrom_eq, paths]
    simp [labelAt_nil, labelAt_cons, children, ihl, ihr, Function.comp_def, Nat.add_assoc,
      Nat.add_comm 1]
  | cond c t e ihc iht ihe =>
    rw [drawnFrom_eq, paths]
    simp [labelAt_nil, labelAt_cons, children, ihc, iht, ihe, Function.comp_def, Nat.add_assoc,
      Nat.add_comm 1]

theorem drawnFrom_eq_of_labelAt {e e' : Expr} (h : e.labelAt = e'.labelAt) (depth : Nat) :
    e.drawnFrom depth = e'.drawnFrom depth := by
  induction e using children_induction generalizing e' depth with
  | node e ih =>
    obtain ⟨label, children⟩ := labelAt_eq_iff.1 h
    rw [drawnFrom_eq, drawnFrom_eq, label, List.flatMap_def, List.flatMap_def]
    rw [map_eq_of_map_eq children fun c mem c' _ same => ih c mem same (depth + 1)]

theorem paths_eq_of_labelAt {e e' : Expr} (h : e.labelAt = e'.labelAt) : e.paths = e'.paths := by
  induction e using children_induction generalizing e' with
  | node e ih =>
    obtain ⟨-, children⟩ := labelAt_eq_iff.1 h
    rw [paths_eq, paths_eq, map_eq_of_map_eq children fun c mem c' _ same => ih c mem same]

/-- The lines that follow do not go on below a line at the given depth. -/
def Leaves (depth : Nat) (rest : List (Nat × String)) : Prop :=
  ∀ line ∈ rest.head?, line.1 ≤ depth

theorem leaves_drawnFrom (depth : Nat) (e : Expr) (rest : List (Nat × String)) :
    Leaves depth (e.drawnFrom depth ++ rest) := by
  simp [Leaves, drawnFrom_eq]

theorem Leaves.endsRow {depth : Nat} {rest : List (Nat × String)} (h : Leaves depth rest) :
    EndsRow (drawnFrom (depth + 1)) (Leaves (depth + 1)) rest := by
  refine ⟨fun line mem => Nat.le_succ_of_le (h line mem), fun e more eq => ?_⟩
  rw [eq, drawnFrom_eq] at h
  exact absurd (h _ rfl) (Nat.not_succ_le_self depth)

theorem outlined {e e' : Expr} {depth : Nat} {rest rest' : List (Nat × String)}
    (leaves : Leaves depth rest) (leaves' : Leaves depth rest')
    (h : e.drawnFrom depth ++ rest = e'.drawnFrom depth ++ rest') :
    e.labelAt = e'.labelAt ∧ rest = rest' := by
  induction e using children_induction generalizing e' depth rest rest' with
  | node e ih =>
    rw [drawnFrom_eq, drawnFrom_eq, List.cons_append, List.cons_append] at h
    obtain ⟨root, below⟩ := List.cons.inj h
    obtain ⟨children, same⟩ := flatMap_append_inj labelAt
      (fun c mem _ _ _ _ ends ends' eq => ih c mem ends ends' eq)
      (leaves_drawnFrom (depth + 1)) leaves.endsRow leaves'.endsRow below
    exact ⟨labelAt_eq_iff.2 ⟨congrArg Prod.snd root, children⟩, same⟩

theorem drawn_eq_iff {e e' : Expr} : e.drawn = e'.drawn ↔ e.labelAt = e'.labelAt := by
  constructor
  · intro h
    have ends : Leaves 0 [] := by simp [Leaves]
    exact (outlined ends ends (congrArg (· ++ []) h)).1
  · intro h
    exact drawnFrom_eq_of_labelAt h 0

theorem Standard.eq_of_labelAt {e e' : Expr} (h : e.Standard) (h' : e'.Standard)
    (labels : e.labelAt = e'.labelAt) : e = e' := by
  induction e using children_induction generalizing e' with
  | node e ih =>
    obtain ⟨label, children⟩ := labelAt_eq_iff.1 labels
    exact h.eq_of_root h' label (eq_of_map_eq children fun c mem c' mem' =>
      ih c mem (h.child mem) (h'.child mem'))

theorem toList_outlineLine (depth : Nat) (label : String) :
    (outlineLine depth label).toList = List.replicate (2 * depth) ' ' ++ label.toList := by
  simp [outlineLine]

theorem outlineLine_inj {d d' : Nat} {l l' : String} (visible : Visible l) (visible' : Visible l')
    (h : outlineLine d l = outlineLine d' l') : d = d' ∧ l = l' := by
  have spaces (n : Nat) : ∀ c ∈ List.replicate n ' ', c == ' ' := by
    intro c mem
    rw [List.eq_of_mem_replicate mem]
    decide
  have label {x : String} (hx : Visible x) : ∀ c ∈ x.toList.head?, ¬(c == ' ') := by
    intro c mem
    simpa using (hx c (List.mem_of_mem_head? mem)).1
  have texts := congrArg String.toList h
  rw [toList_outlineLine, toList_outlineLine] at texts
  obtain ⟨indents, labels⟩ :=
    append_inj_of_head (spaces _) (label visible) (spaces _) (label visible') texts
  have lengths := congrArg List.length indents
  rw [List.length_replicate, List.length_replicate] at lengths
  exact ⟨by omega, String.toList_injective labels⟩

theorem outline_eq (e : Expr) : e.outline = e.drawn.map fun (d, l) => outlineLine d l := by
  rw [outline, drawn, drawnFrom, List.map_map]
  rfl

theorem Standard.visible_drawn {e : Expr} (h : e.Standard) : ∀ line ∈ e.drawn, Visible line.2 := by
  intro line mem
  obtain ⟨⟨d, node⟩, walked, rfl⟩ := List.mem_map.1 mem
  exact (h node (List.mem_map_of_mem walked)).visible (.inl rfl)

theorem Standard.whole_outline {e : Expr} (h : e.Standard) :
    ∀ line ∈ e.outline, '\n' ∉ line.toList := by
  rw [outline_eq]
  intro text mem
  obtain ⟨⟨d, label⟩, drawn, rfl⟩ := List.mem_map.1 mem
  rw [toList_outlineLine, List.mem_append, List.mem_replicate]
  rintro (⟨-, no⟩ | broken)
  · exact absurd no (by decide)
  · exact (h.visible_drawn _ drawn _ broken).2 rfl

theorem Standard.outline_inj {e e' : Expr} (h : e.Standard) (h' : e'.Standard) :
    unlines e.outline = unlines e'.outline ↔ e = e' := by
  constructor
  · intro eq
    have lines := unlines_inj h.whole_outline h'.whole_outline eq
    rw [outline_eq, outline_eq] at lines
    have drawn := eq_of_map_eq lines fun line mem line' mem' same =>
      have both := outlineLine_inj (h.visible_drawn line mem) (h'.visible_drawn line' mem') same
      Prod.ext both.1 both.2
    exact h.eq_of_labelAt h' (drawn_eq_iff.1 drawn)
  · rintro rfl
    rfl

end Expr

theorem output_outline {s : Surroundings} {source : Source} {text : String} {ts : List Token}
    {e : Expr} (holds : source.read s = .ok text) (tokens : tokenize text = .ok ts)
    (read : Expr.ofTokens ts = .ok e) :
    (Command.run s (.parse source true)).output = unlines e.outline := by
  simp [Command.run, Command.onSource, holds, treeFindings_lines tokens read]

/-- The drawing says which tree it is. Where the operators have their own spelling it has a line for
each node, and trees are the same if they look the same; and what is drawn of an expression is such
a tree. Whatever the operators are written as, each line is as deep as the path to its node is long,
and the depths and labels of the lines say which path that is and what stands where in the tree. -/
theorem outline_faithful :
    (∀ e : Expr, e.Standard →
      e.outline.length = e.size ∧ (unlines e.outline).toList.count '\n' = e.size) ∧
    (∀ e e' : Expr, e.Standard → e'.Standard →
      (unlines e.outline = unlines e'.outline ↔ e = e')) ∧
    (∀ (s : Surroundings) (source : Source) (text : String) (ts : List Token) (e : Expr),
      source.read s = .ok text → tokenize text = .ok ts → Expr.ofTokens ts = .ok e →
      e.Standard ∧ (Command.run s (.parse source true)).output = unlines e.outline) ∧
    (∀ e : Expr, e.drawn.map (Prod.map id some) =
      e.paths.map fun path => (path.length, e.labelAt path)) ∧
    ∀ e e' : Expr, e.drawn = e'.drawn ↔
      e.paths = e'.paths ∧ ∀ path, e.labelAt path = e'.labelAt path := by
  refine ⟨fun e h => ?_, fun e e' h h' => h.outline_inj h', ?_, fun e => ?_, fun e e' => ?_⟩
  · have length : e.outline.length = e.size := by
      rw [Expr.outline, List.length_map, Expr.length_walk]
    exact ⟨length, (count_unlines h.whole_outline).trans length⟩
  · intro s source text ts e holds tokens read
    exact ⟨standard_of_tokenize tokens read, output_outline holds tokens read⟩
  · have paths := e.drawnFrom_eq_map_paths 0
    simp only [Nat.zero_add] at paths
    exact paths
  · rw [Expr.drawn_eq_iff, ← funext_iff]
    exact ⟨fun h => ⟨Expr.paths_eq_of_labelAt h, h⟩, And.right⟩

/-- `(1 - 2) - 3` and `1 - (2 - 3)` have the same labels on their lines, with other depths. -/
theorem outline_faithful_differences :
    let e : Expr := .binary .sub "-" (.binary .sub "-" (.number 1) (.number 2)) (.number 3)
    let e' : Expr := .binary .sub "-" (.number 1) (.binary .sub "-" (.number 2) (.number 3))
    let s : Surroundings := ⟨[], fun _ => .error .notFound, Report.plain⟩
    let ts : List Token := [⟨.number 1, "1", 0⟩, ⟨.binary .sub, "-", 1⟩, ⟨.number 2, "2", 2⟩,
      ⟨.binary .sub, "-", 3⟩, ⟨.number 3, "3", 4⟩]
    ((e.Standard ∧ e'.Standard) ∧ Source.read s (.text " 1-2-3 ") = .ok "1-2-3" ∧
      tokenize "1-2-3" = .ok ts ∧ Expr.ofTokens ts = .ok e) ∧
    (e.outline.length = e.size ∧ (unlines e.outline).toList.count '\n' = e.size) ∧
    (unlines e.outline = unlines e'.outline ↔ e = e') ∧
    (e.Standard ∧
      (Command.run s (.parse (.text " 1-2-3 ") true)).output = unlines e.outline) ∧
    (e.drawn.map (Prod.map id some) = e.paths.map fun path => (path.length, e.labelAt path)) ∧
    (e.drawn = e'.drawn ↔ e.paths = e'.paths ∧ ∀ path, e.labelAt path = e'.labelAt path) := by
  intro e e' s ts
  have standard : e.Standard := by simp [e, Operator.spelling]
  have standard' : e'.Standard := by simp [e', Operator.spelling]
  have holds : Source.read s (.text " 1-2-3 ") = .ok "1-2-3" := by decide +kernel
  have tokens : tokenize "1-2-3" = .ok ts := by decide +kernel
  have read : Expr.ofTokens ts = .ok e := by cbv
  obtain ⟨count, inj, output, paths, places⟩ := outline_faithful
  exact ⟨⟨⟨standard, standard'⟩, holds, tokens, read⟩, count e standard,
    inj e e' standard standard', output s _ _ ts e holds tokens read, paths e, places e e'⟩

end CondCalc
