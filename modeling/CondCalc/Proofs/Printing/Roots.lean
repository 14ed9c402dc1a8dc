import CondCalc.Command.Run
import CondCalc.Proofs.Evaluation.Relabelling
import CondCalc.Proofs.Lexis.Munch
import CondCalc.Proofs.Syntax.Nodes

/-! What a tree in print is put together from: the text at its root and its children in print. In a
tree whose operators have their own spelling the two say what the root is, because the spellings are
different words and a numeral is none of them. -/
namespace CondCalc

theorem append_inj_of_head {p : Char → Bool} {front front' rest rest' : List Char}
    (all : ∀ c ∈ front, p c) (ends : ∀ c ∈ rest.head?, ¬p c) (all' : ∀ c ∈ front', p c)
    (ends' : ∀ c ∈ rest'.head?, ¬p c) (h : front ++ rest = front' ++ rest') :
    front = front' ∧ rest = rest' := by
  obtain ⟨take, drop⟩ := takeWhile_append_of_head all ends
  obtain ⟨take', drop'⟩ := takeWhile_append_of_head all' ends'
  rw [h] at take drop
  exact ⟨take.symm.trans take', drop.symm.trans drop'⟩

namespace Decimal

def isNumeral (c : Char) : Bool :=
  c.isDigit || c == '-'

theorem isDigit_of_mem_toDigits {n : Nat} {c : Char} (mem : c ∈ Nat.toDigits 10 n) : c.isDigit :=
  Nat.isDigit_of_mem_toDigits (by decide) (by decide) mem

theorem isNumeral_of_mem_text {n : Int} {c : Char} (mem : c ∈ (text n).toList) : isNumeral c := by
  cases n with
  | ofNat n =>
    rw [text, String.toList_ofList] at mem
    simp [isNumeral, isDigit_of_mem_toDigits mem]
  | negSucc n =>
    rw [text, String.toList_ofList, List.mem_cons] at mem
    rcases mem with rfl | mem
    · decide
    · simp [isNumeral, isDigit_of_mem_toDigits mem]

theorem toList_text_ne_nil (n : Int) : (text n).toList ≠ [] := by
  cases n with
  | ofNat n =>
    rw [text, String.toList_ofList]
    exact Nat.toDigits_ne_nil
  | negSucc n =>
    rw [text, String.toList_ofList]
    exact List.cons_ne_nil _ _

theorem toDigits_injective {m n : Nat} (h : Nat.toDigits 10 m = Nat.toDigits 10 n) : m = n := by
  rw [← value_toDigits m, h, value_toDigits]

theorem toDigits_ne_minus (m : Nat) (ds : List Char) : Nat.toDigits 10 m ≠ '-' :: ds := by
  intro h
  have digit : '-'.isDigit := isDigit_of_mem_toDigits (n := m) (by rw [h]; exact List.mem_cons_self)
  exact absurd digit (by decide)

theorem text_injective {m n : Int} (h : text m = text n) : m = n := by
  cases m with
  | ofNat m =>
    cases n with
    | ofNat n => rw [toDigits_injective (String.ofList_injective h)]
    | negSucc n => exact absurd (String.ofList_injective h) (toDigits_ne_minus m _)
  | negSucc m =>
    cases n with
    | ofNat n => exact absurd (String.ofList_injective h).symm (toDigits_ne_minus n _)
    | negSucc n =>
      have := toDigits_injective (List.cons.inj (String.ofList_injective h)).2
      rw [Nat.succ.inj this]

end Decimal

theorem Operator.spelling_injective {o o' : Operator} (h : o.spelling = o'.spelling) : o = o' := by
  revert h
  cases o <;> cases o' <;> decide

def Visible (text : String) : Prop :=
  ∀ c ∈ text.toList, c ≠ ' ' ∧ c ≠ '\n'

theorem Decimal.visible_text (n : Int) : Visible (text n) := by
  intro c mem
  have numeral := isNumeral_of_mem_text mem
  constructor
  · rintro rfl
    exact absurd numeral (by decide)
  · rintro rfl
    exact absurd numeral (by decide)

theorem Operator.visible_spelling (o : Operator) : Visible o.spelling := by
  cases o <;> simp [Visible, spelling]

namespace Expr

theorem Spelled.visible {n : Expr} (h : n.Spelled) {word : String}
    (shown : word = n.label ∨ n.name? = some word) : Visible word := by
  cases n with
  | number n =>
    rcases shown with rfl | name
    · exact Decimal.visible_text n.toInt
    · cases name
  | not literal e =>
    cases h
    obtain rfl : word = "!" := shown.elim id fun name => (Option.some.inj name).symm
    simp [Visible]
  | binary op literal l r =>
    cases h
    obtain rfl : word = op.spelling := shown.elim id fun name => (Option.some.inj name).symm
    exact op.visible_spelling
  | cond c t e =>
    obtain rfl | rfl : word = "IF" ∨ word = "if" :=
      shown.imp id fun name => (Option.some.inj name).symm
    · simp [Visible]
    · simp [Visible]

theorem mem_nodes_self (e : Expr) : e ∈ e.nodes := by
  cases e <;> simp

/-- An induction in which all children of a node come together, however many they are. -/
@[elab_as_elim]
theorem children_induction {motive : Expr → Prop}
    (node : ∀ e : Expr, (∀ c ∈ e.children, motive c) → motive e) (e : Expr) : motive e := by
  induction e with
  | number n => exact node _ (by simp [children])
  | not literal e ih => exact node _ (by simpa [children] using ih)
  | binary op literal l r ihl ihr => exact node _ (by simpa [children] using ⟨ihl, ihr⟩)
  | cond c t e ihc iht ihe => exact node _ (by simpa [children] using ⟨ihc, iht, ihe⟩)

theorem Standard.child {c e : Expr} (h : e.Standard) (mem : c ∈ e.children) : c.Standard := by
  cases e with
  | number n => cases mem
  | not literal e =>
    cases List.mem_singleton.1 mem
    exact (standard_not.1 h).2
  | binary op literal l r =>
    obtain ⟨-, left, right⟩ := standard_binary.1 h
    simp only [children, List.mem_cons, List.not_mem_nil, or_false] at mem
    rcases mem with rfl | rfl
    · exact left
    · exact right
  | cond c t e =>
    obtain ⟨condition, first, second⟩ := standard_cond.1 h
    simp only [children, List.mem_cons, List.not_mem_nil, or_false] at mem
    rcases mem with rfl | rfl | rfl
    · exact condition
    · exact first
    · exact second

section rows

variable {α κ : Type} {write : Expr → List α} {Ends : List α → Prop}

/-- What stands behind the last of several trees in print: it may follow a tree, and it is none. -/
def EndsRow (write : Expr → List α) (Ends : List α → Prop) (rest : List α) : Prop :=
  Ends rest ∧ ∀ e more, rest ≠ write e ++ more

theorem EndsRow.flatMap_append {rest : List α} (last : EndsRow write Ends rest)
    (next : ∀ e more, Ends (write e ++ more)) (es : List Expr) :
    Ends (es.flatMap write ++ rest) := by
  cases es with
  | nil => exact last.1
  | cons e es =>
    rw [List.flatMap_cons, List.append_assoc]
    exact next e _

/-- If trees in print can be told apart one at a time, whatever may follow them, so can rows of
them. -/
theorem flatMap_append_inj (key : Expr → κ) {es es' : List Expr} {rest rest' : List α}
    (told : ∀ e ∈ es, ∀ e' ∈ es', ∀ more more', Ends more → Ends more' →
      write e ++ more = write e' ++ more' → key e = key e' ∧ more = more')
    (next : ∀ e more, Ends (write e ++ more)) (last : EndsRow write Ends rest)
    (last' : EndsRow write Ends rest')
    (h : es.flatMap write ++ rest = es'.flatMap write ++ rest') :
    es.map key = es'.map key ∧ rest = rest' := by
  induction es generalizing es' with
  | nil =>
    cases es' with
    | nil => exact ⟨rfl, h⟩
    | cons e' es' =>
      rw [List.flatMap_cons, List.append_assoc] at h
      exact absurd h (last.2 e' _)
  | cons e es ih =>
    cases es' with
    | nil =>
      rw [List.flatMap_cons, List.append_assoc] at h
      exact absurd h.symm (last'.2 e _)
    | cons e' es' =>
      simp only [List.flatMap_cons, List.append_assoc] at h
      obtain ⟨head, tail⟩ := told e List.mem_cons_self e' List.mem_cons_self _ _
        (last.flatMap_append next es) (last'.flatMap_append next es') h
      obtain ⟨others, same⟩ := ih
        (fun x mem x' mem' => told x (List.mem_cons_of_mem e mem) x' (List.mem_cons_of_mem e' mem'))
        tail
      exact ⟨by rw [List.map_cons, List.map_cons, head, others], same⟩

end rows

theorem Standard.eq_of_root {e e' : Expr} (h : e.Standard) (h' : e'.Standard)
    (label : e.label = e'.label) (same : e.children = e'.children) : e = e' := by
  cases e with
  | number m =>
    cases e' with
    | number n => rw [Int64.toInt_inj.1 (Decimal.text_injective label)]
    | not | binary | cond => cases same
  | not literal e =>
    cases e' with
    | not literal' e' =>
      cases label
      cases same
      rfl
    | number | binary | cond => cases same
  | binary op literal l r =>
    cases e' with
    | binary op' literal' l' r' =>
      cases label
      cases same
      have spelling := (standard_binary.1 h).1.symm.trans (standard_binary.1 h').1
      rw [Operator.spelling_injective spelling]
    | number | not | cond => cases same
  | cond c t e =>
    cases e' with
    | cond c' t' e' =>
      cases same
      rfl
    | number | not | binary => cases same

end Expr

theorem treeFindings_lines {text : String} {ts : List Token} {e : Expr}
    (tokens : tokenize text = .ok ts) (read : Expr.ofTokens ts = .ok e) (outline : Bool) :
    (treeFindings outline text).lines = .ok (if outline then e.outline else [e.sexpr]) := by
  simp [treeFindings, tokensOf, treeOf, tokens, read, Except.mapError, Except.map]

end CondCalc
