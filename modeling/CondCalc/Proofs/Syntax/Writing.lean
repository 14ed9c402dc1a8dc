import CondCalc.Proofs.Lexis.Row
import CondCalc.Proofs.Syntax.Nodes
import CondCalc.Proofs.Syntax.Reading

/-! Trees in writing, with parentheses only where the tree would be read differently without them.
As an operand a tree belongs to the category that its root makes, or, in parentheses, to any; so
the row of its tokens derives it, and reading the row gives it back. -/
namespace CondCalc

def enclose (parens : Bool) (ks : List Kind) : List Kind :=
  if parens then .leftParen :: (ks ++ [.rightParen]) else ks

namespace Expr

/-- Whether the tree has to be put in parentheses where only operators of at least level `l` can
stand: a conditional always, an operator if it binds looser than that. -/
def needsParens (l : Nat) : Expr → Bool
  | number _ | not .. => false
  | binary op .. => op.level < l
  | cond .. => true

/-- The kinds of the tokens in writing. A right operand of the operator's own level would be
read as a left one; the operand of `!` is no operator at all. -/
def written : Expr → List Kind
  | number n => [.number n]
  | not _ e => .bang :: enclose (e.needsParens 6) e.written
  | binary op _ l r =>
    enclose (l.needsParens op.level) l.written ++
      .binary op :: enclose (r.needsParens (op.level + 1)) r.written
  | cond c t e =>
    .ifWord :: (enclose (c.needsParens 0) c.written ++
      .thenWord :: (enclose (t.needsParens 0) t.written ++
        .elseWord :: enclose (e.needsParens 0) e.written))

/-- The most `!` and `(` that are open at once in writing, a `!` up to the end of its operand and
a `(` up to its `)`. -/
def openings : Expr → Nat
  | number _ => 0
  | not _ e => 1 + (e.openings + (e.needsParens 6).toNat)
  | binary op _ l r =>
    max (l.openings + (l.needsParens op.level).toNat)
      (r.openings + (r.needsParens (op.level + 1)).toNat)
  | cond c t e =>
    max (max (c.openings + (c.needsParens 0).toNat) (t.openings + (t.needsParens 0).toNat))
      (e.openings + (e.needsParens 0).toNat)

/-- The tree in writing, one space between any two tokens. -/
def text (e : Expr) : String :=
  rowText e.written

def NonNegative (e : Expr) : Prop :=
  ∀ n, number n ∈ e.nodes → 0 ≤ n.toInt

def phrase : Expr → Phrase
  | number _ | not .. => .factor
  | binary op .. => .level op.level
  | cond .. => .conditional

theorem phrase_of_needsParens {l : Nat} {e : Expr} (h : e.needsParens l = false) (le : l ≤ 6) :
    ∃ m, l ≤ m ∧ e.phrase = .level m := by
  cases e with
  | number | not => exact ⟨6, le, rfl⟩
  | binary op => exact ⟨op.level, by simpa [needsParens] using h, rfl⟩
  | cond => cases h

end Expr

namespace Derives

theorem conditional_of_phrase {budget : Nat} {ts : List Token} {e : Expr}
    (h : Derives budget e.phrase ts e) : Derives budget .conditional ts e := by
  cases e with
  | number | not | binary => exact .plain (h.loosen (Nat.zero_le _))
  | cond => exact h

theorem enclose {budget l : Nat} {ks : List Kind} {e : Expr} (le : l ≤ 6)
    (h : ∀ offset, Derives budget e.phrase (row offset ks) e) (offset : Nat) :
    Derives (budget + (e.needsParens l).toNat) (.level l)
      (row offset (CondCalc.enclose (e.needsParens l) ks)) e := by
  cases parens : e.needsParens l with
  | false =>
    obtain ⟨m, lm, eq⟩ := Expr.phrase_of_needsParens parens le
    have := h offset
    rw [eq] at this
    exact this.loosen lm
  | true =>
    have inner := (h (offset + Kind.leftParen.text.utf8ByteSize + 1)).conditional_of_phrase
    rw [CondCalc.enclose, if_pos rfl, row, row_append]
    exact (Derives.paren "(" ")" offset _ inner).loosen le

end Derives

namespace Expr

theorem derives_written {e : Expr} (standard : e.Standard) (offset : Nat) :
    Derives e.openings e.phrase (row offset e.written) e := by
  induction e generalizing offset with
  | number n => exact .number 0 n _ offset
  | not literal e ih =>
    obtain ⟨rfl, operand⟩ := standard_not.1 standard
    rw [openings, Nat.add_comm 1]
    exact .not "!" offset (Derives.enclose (Nat.le_refl 6) (ih operand) _)
  | binary op literal l r ihl ihr =>
    obtain ⟨rfl, left, right⟩ := standard_binary.1 standard
    have le := op.level_lt_six
    rw [written, row_append, row]
    refine .binary op op.spelling _ rfl ?_ ?_
    · exact (Derives.enclose (Nat.le_of_lt le) (ihl left) offset).mono (Nat.le_max_left _ _)
    · exact (Derives.enclose le (ihr right) _).mono (Nat.le_max_right _ _)
  | cond c t e ihc iht ihe =>
    obtain ⟨condition, first, second⟩ := standard_cond.1 standard
    have zero : 0 ≤ 6 := Nat.zero_le 6
    rw [written, row, row_append, row, row_append, row]
    refine .cond "if" "then" "else" _ _ _ ?_ ?_ ?_
    · exact (Derives.enclose zero (ihc condition) _).mono (by rw [openings]; omega)
    · exact (Derives.enclose zero (iht first) _).mono (by rw [openings]; omega)
    · exact (Derives.enclose zero (ihe second) _).mono (by rw [openings]; omega)

theorem writable_enclose {parens : Bool} {ks : List Kind} (h : ∀ k ∈ ks, k.Writable) :
    ∀ k ∈ enclose parens ks, k.Writable := by
  cases parens with
  | false => exact h
  | true => simpa [enclose, or_imp, forall_and, Kind.Writable] using h

theorem writable_written {e : Expr} (h : e.NonNegative) : ∀ k ∈ e.written, k.Writable := by
  induction e with
  | number n => simpa [written, Kind.Writable, NonNegative] using h
  | not literal e ih =>
    have operand : e.NonNegative := fun n mem => h n (by simp [mem])
    rw [written, List.forall_mem_cons]
    exact ⟨trivial, writable_enclose (ih operand)⟩
  | binary op literal l r ihl ihr =>
    have left : l.NonNegative := fun n mem => h n (by simp [mem])
    have right : r.NonNegative := fun n mem => h n (by simp [mem])
    rw [written, List.forall_mem_append, List.forall_mem_cons]
    exact ⟨writable_enclose (ihl left), trivial, writable_enclose (ihr right)⟩
  | cond c t e ihc iht ihe =>
    have condition : c.NonNegative := fun n mem => h n (by simp [mem])
    have first : t.NonNegative := fun n mem => h n (by simp [mem])
    have second : e.NonNegative := fun n mem => h n (by simp [mem])
    simp only [written, List.forall_mem_cons, List.forall_mem_append]
    exact ⟨trivial, writable_enclose (ihc condition), trivial, writable_enclose (iht first),
      trivial, writable_enclose (ihe second)⟩

end Expr

/-- A tree in writing is read back as that tree, as long as the two limits allow it. -/
theorem text_reads_back (e : Expr) (standard : e.Standard) (nonNegative : e.NonNegative)
    (low : e.height ≤ 256) (shallow : e.openings ≤ 256) :
    ∃ ts, tokenize e.text = .ok ts ∧ Expr.ofTokens ts = .ok e := by
  have tiles := tiles_row (Expr.writable_written nonNegative) 0 (g := []) (by simp [Blank])
  have derives := (Expr.derives_written standard 0).conditional_of_phrase.mono shallow
  have reads : Climb.Reads .conditional 0 (row 0 e.written) e e.height := ⟨derives, rfl, low⟩
  exact ⟨row 0 e.written, Cursor.tokens_of_tiles tiles, reads.ofTokens_eq⟩

theorem text_reads_back_nested :
    let e : Expr := .binary .and "&&"
      (.not "!" (.binary .eq "=="
        (.binary .sub "-" (.number 1) (.binary .sub "-" (.number 2) (.number 3))) (.number 4)))
      (.binary .lt "<"
        (.cond (.number 5) (.cond (.number 6) (.number 7) (.number 8)) (.number 9)) (.number 10))
    e.text = "! ( 1 - ( 2 - 3 ) == 4 ) && ( if 5 then ( if 6 then 7 else 8 ) else 9 ) < 10" ∧
      (e.Standard ∧ e.NonNegative ∧ e.height ≤ 256 ∧ e.openings ≤ 256) ∧
      ∃ ts, tokenize e.text = .ok ts ∧ Expr.ofTokens ts = .ok e := by
  intro e
  have text : e.text =
      "! ( 1 - ( 2 - 3 ) == 4 ) && ( if 5 then ( if 6 then 7 else 8 ) else 9 ) < 10" := by
    cbv
  have standard : e.Standard := by
    simp [e, Operator.spelling]
  have nonNegative : e.NonNegative := by
    simp [Expr.NonNegative, e]
  have low : e.height ≤ 256 := by decide
  have shallow : e.openings ≤ 256 := by decide
  exact ⟨text, ⟨standard, nonNegative, low, shallow⟩,
    text_reads_back e standard nonNegative low shallow⟩

end CondCalc
