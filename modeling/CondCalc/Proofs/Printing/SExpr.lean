import CondCalc.Proofs.Calculation.Stages
import CondCalc.Proofs.Printing.Roots

/-! Trees on one line can be told apart. Each shows by itself where it ends, a number where its
numeral runs out and any other node at its closing parenthesis; so lines that are the same are made
up of the same trees, one after the other, and not only of the same characters. -/
namespace CondCalc

namespace Expr

def operandText (es : List Expr) : List Char :=
  es.flatMap fun e => ' ' :: e.sexpr.toList

theorem sexpr_of_name? {e : Expr} {word : String} (h : e.name? = some word) :
    e.sexpr.toList = '(' :: (word.toList ++ (operandText e.children ++ [')'])) := by
  cases e with
  | number n => cases h
  | not | binary | cond =>
    cases h
    simp [sexpr, operandText, children]

theorem number_of_name? {e : Expr} (h : e.name? = none) : ∃ n, e = number n := by
  cases e with
  | number n => exact ⟨n, rfl⟩
  | not | binary | cond => cases h

theorem space_of_name? {e : Expr} {word : String} (name : e.name? = some word)
    (rest : List Char) : ∀ c ∈ (operandText e.children ++ rest).head?, ¬(c != ' ') := by
  cases e with
  | number n => cases name
  | not | binary | cond => simp [operandText, children]

theorem Standard.heads_append_inj {e e' : Expr} {word word' : String} {rest rest' : List Char}
    (h : e.Standard) (h' : e'.Standard) (name : e.name? = some word)
    (name' : e'.name? = some word')
    (eq : word.toList ++ (operandText e.children ++ rest) =
      word'.toList ++ (operandText e'.children ++ rest')) :
    word = word' ∧ operandText e.children ++ rest = operandText e'.children ++ rest' := by
  have spaceless {x : Expr} {w : String} (hx : x.Standard) (named : x.name? = some w) :
      ∀ c ∈ w.toList, c != ' ' := fun c mem =>
    bne_iff_ne.2 ((hx x x.mem_nodes_self).visible (.inr named) c mem).1
  obtain ⟨words, operands⟩ := append_inj_of_head (spaceless h name) (space_of_name? name rest)
    (spaceless h' name') (space_of_name? name' rest') eq
  exact ⟨String.toList_injective words, operands⟩

theorem label_eq_of_name? {e e' : Expr} {word : String} (h : e.name? = some word)
    (h' : e'.name? = some word) (same : e.children = e'.children) : e.label = e'.label := by
  cases e with
  | number n => cases h
  | not | binary | cond =>
    cases e' <;> cases same
    simp_all [name?, label]

/-- What may stand behind a tree in print. -/
def Closes (rest : List Char) : Prop :=
  ∀ c ∈ rest.head?, c = ' ' ∨ c = ')'

theorem Closes.not_isNumeral {rest : List Char} (h : Closes rest) :
    ∀ c ∈ rest.head?, ¬Decimal.isNumeral c := by
  intro c mem
  rcases h c mem with rfl | rfl
  · decide
  · decide

theorem numeral_append_ne (n : Int) (rest rest' : List Char) :
    (Decimal.text n).toList ++ rest ≠ '(' :: rest' := by
  obtain ⟨c, cs, eq⟩ := List.exists_cons_of_ne_nil (Decimal.toList_text_ne_nil n)
  rw [eq, List.cons_append]
  rintro ⟨⟩
  have numeral : Decimal.isNumeral '(' :=
    Decimal.isNumeral_of_mem_text (n := n) (by rw [eq]; exact List.mem_cons_self)
  exact absurd numeral (by decide)

theorem number_append_inj {m n : Int64} {rest rest' : List Char} (closes : Closes rest)
    (closes' : Closes rest')
    (h : (number m).sexpr.toList ++ rest = (number n).sexpr.toList ++ rest') :
    number m = number n ∧ rest = rest' := by
  obtain ⟨text, rest_eq⟩ := append_inj_of_head (fun _ => Decimal.isNumeral_of_mem_text)
    closes.not_isNumeral (fun _ => Decimal.isNumeral_of_mem_text) closes'.not_isNumeral h
  have value := Decimal.text_injective (String.toList_injective text)
  exact ⟨congrArg number (Int64.toInt_inj.1 value), rest_eq⟩

/-- The tree is told from every other, wherever it stands in print. -/
def Recognized (e : Expr) : Prop :=
  ∀ e' : Expr, e'.Standard → ∀ rest rest', Closes rest → Closes rest' →
    e.sexpr.toList ++ rest = e'.sexpr.toList ++ rest' → e = e' ∧ rest = rest'

theorem operandText_append_inj {es es' : List Expr} {rest rest' : List Char}
    (recognized : ∀ e ∈ es, e.Recognized) (standard : ∀ e ∈ es', e.Standard)
    (h : operandText es ++ ')' :: rest = operandText es' ++ ')' :: rest') :
    es = es' ∧ rest = rest' := by
  have last (r : List Char) :
      EndsRow (fun e : Expr => ' ' :: e.sexpr.toList) Closes (')' :: r) := by
    simp [EndsRow, Closes]
  have told := flatMap_append_inj id
    (fun e mem e' mem' more more' ends ends' eq =>
      recognized e mem e' (standard e' mem') more more' ends ends' (List.cons.inj eq).2)
    (by simp [Closes]) (last rest) (last rest') h
  rw [List.map_id, List.map_id] at told
  exact ⟨told.1, (List.cons.inj told.2).2⟩

theorem Standard.recognized {e : Expr} (h : e.Standard) : e.Recognized := by
  induction e using children_induction with
  | node e ih =>
    intro e' h' rest rest' closes closes' eq
    cases name : e.name? with
    | none =>
      obtain ⟨m, rfl⟩ := number_of_name? name
      cases name' : e'.name? with
      | none =>
        obtain ⟨n, rfl⟩ := number_of_name? name'
        exact number_append_inj closes closes' eq
      | some word' =>
        rw [sexpr_of_name? name'] at eq
        exact absurd eq (numeral_append_ne _ _ _)
    | some word =>
      rw [sexpr_of_name? name] at eq
      cases name' : e'.name? with
      | none =>
        obtain ⟨n, rfl⟩ := number_of_name? name'
        exact absurd eq.symm (numeral_append_ne _ _ _)
      | some word' =>
        rw [sexpr_of_name? name'] at eq
        simp only [List.cons_append, List.append_assoc, List.nil_append, List.cons.injEq,
          true_and] at eq
        obtain ⟨rfl, operands⟩ := h.heads_append_inj h' name name' eq
        obtain ⟨children, rfl⟩ := operandText_append_inj (fun c mem => ih c mem (h.child mem))
          (fun c mem => h'.child mem) operands
        exact ⟨h.eq_of_root h' (label_eq_of_name? name name' children) children, rfl⟩

theorem Standard.sexpr_inj {e e' : Expr} (h : e.Standard) (h' : e'.Standard) :
    e.sexpr = e'.sexpr ↔ e = e' := by
  constructor
  · intro eq
    exact (h.recognized e' h' [] [] (by simp [Closes]) (by simp [Closes]) (by rw [eq])).1
  · rintro rfl
    rfl

end Expr

/-- The line says which tree it is. Trees with their operators in their own spelling are the same if
they are the same in print; so of two texts that are expressions the same line is shown exactly if
they have the same tree. -/
theorem sexpr_faithful :
    (∀ e e' : Expr, e.Standard → e'.Standard → (e.sexpr = e'.sexpr ↔ e = e')) ∧
      ∀ (text text' : String) (ts ts' : List Token) (e e' : Expr),
        tokenize text = .ok ts → Expr.ofTokens ts = .ok e →
        tokenize text' = .ok ts' → Expr.ofTokens ts' = .ok e' →
        ((treeFindings false text).lines = (treeFindings false text').lines ↔ e = e') := by
  refine ⟨fun e e' h h' => h.sexpr_inj h', ?_⟩
  intro text text' ts ts' e e' tokens read tokens' read'
  rw [treeFindings_lines tokens read, treeFindings_lines tokens' read']
  rw [← (standard_of_tokenize tokens read).sexpr_inj (standard_of_tokenize tokens' read')]
  simp

/-- `-` and `!` begin words of other kinds too: `(- -1 (! 2))` and `(- 1 (!= -2 3))` differ from the
second word on, `1-2-3` and `1 - (2 - 3)` are shown as `(- (- 1 2) 3)` and `(- 1 (- 2 3))`. -/
theorem sexpr_faithful_signs :
    let e : Expr := .binary .sub "-" (.number (-1)) (.not "!" (.number 2))
    let e' : Expr := .binary .sub "-" (.number 1)
      (.binary .neq "!=" (.number (-2)) (.number 3))
    let ts : List Token := [⟨.number 1, "1", 0⟩, ⟨.binary .sub, "-", 1⟩, ⟨.number 2, "2", 2⟩,
      ⟨.binary .sub, "-", 3⟩, ⟨.number 3, "3", 4⟩]
    let left : Expr :=
      .binary .sub "-" (.binary .sub "-" (.number 1) (.number 2)) (.number 3)
    let ts' : List Token := [⟨.number 1, "1", 0⟩, ⟨.binary .sub, "-", 2⟩, ⟨.leftParen, "(", 4⟩,
      ⟨.number 2, "2", 5⟩, ⟨.binary .sub, "-", 7⟩, ⟨.number 3, "3", 9⟩, ⟨.rightParen, ")", 10⟩]
    let right : Expr :=
      .binary .sub "-" (.number 1) (.binary .sub "-" (.number 2) (.number 3))
    ((e.Standard ∧ e'.Standard) ∧ (e.sexpr = e'.sexpr ↔ e = e')) ∧
      (tokenize "1-2-3" = .ok ts ∧ Expr.ofTokens ts = .ok left ∧
        tokenize "1 - (2 - 3)" = .ok ts' ∧ Expr.ofTokens ts' = .ok right) ∧
      ((treeFindings false "1-2-3").lines = (treeFindings false "1 - (2 - 3)").lines ↔
        left = right) := by
  intro e e' ts left ts' right
  have standard : e.Standard := by simp [e, Operator.spelling]
  have standard' : e'.Standard := by simp [e', Operator.spelling]
  have tokens : tokenize "1-2-3" = .ok ts := by decide +kernel
  have read : Expr.ofTokens ts = .ok left := by cbv
  have tokens' : tokenize "1 - (2 - 3)" = .ok ts' := by decide +kernel
  have read' : Expr.ofTokens ts' = .ok right := by cbv
  exact ⟨⟨⟨standard, standard'⟩, sexpr_faithful.1 e e' standard standard'⟩,
    ⟨tokens, read, tokens', read'⟩,
    sexpr_faithful.2 _ _ ts ts' left right tokens read tokens' read'⟩

end CondCalc
