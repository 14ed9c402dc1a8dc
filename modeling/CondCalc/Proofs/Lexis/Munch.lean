import CondCalc.Token.Munch
import Mathlib.Algebra.Ring.Nat
import Mathlib.Data.List.Infix
import Mathlib.Data.List.TakeWhile
import Mathlib.Tactic.Common

/-! The token at the front of a text is the longest one. Only a spelling that stops short of an
`=` is the front of another spelling, and longer ones are tried first; a run of digits ends only
at another character. So a literal stands for itself wherever what follows cannot be added. -/
namespace CondCalc

/-- The kinds whose spelling goes on, with an `=`, to the spelling of another kind. -/
def Kind.takesEqual : Kind → Bool
  | .bang | .binary .gt | .binary .lt => true
  | _ => false

/-- The literal is a way to write the kind. -/
def Kind.Writes (k : Kind) (literal : String) : Prop :=
  match k with
  | .number n => literal.toList ≠ [] ∧ (∀ c ∈ literal.toList, c.isDigit) ∧
    Decimal.value literal.toList ≤ 2 ^ 63 - 1 ∧ n.toInt = Decimal.value literal.toList
  | k => k.spelling? = some literal

/-- No longer token stands in front of the rest of the text. -/
def Kind.EndsBefore (k : Kind) (rest : List Char) : Prop :=
  match k with
  | .number _ => ∀ c ∈ rest.head?, ¬c.isDigit
  | k => k.takesEqual → rest.head? ≠ some '='

theorem marks_pairwise : marks.Pairwise fun m m' => ¬m.1 <+: m'.1 := by
  decide

theorem eq_or_takesEqual_of_prefix : ∀ m ∈ marks, ∀ m' ∈ marks, m.1 <+: m'.1 →
    m = m' ∨ m.2.takesEqual ∧ m'.1 = m.1 ++ ['='] := by
  decide

theorem exists_mark_of_takesEqual :
    ∀ m ∈ marks, m.2.takesEqual → ∃ m' ∈ marks, m'.1 = m.1 ++ ['='] := by
  decide

theorem mark_no_digit {m : List Char × Kind} (mem : m ∈ marks) : ∀ c ∈ m.1, ¬c.isDigit := by
  have none : ∀ m ∈ marks, m.1.all fun c => !c.isDigit := by decide
  simpa using none m mem

theorem mem_marks_iff {cs : List Char} {k : Kind} :
    (cs, k) ∈ marks ↔ k.spelling? = some (String.ofList cs) := by
  simp only [marks, List.mem_filterMap, Option.map_eq_some_iff]
  constructor
  · rintro ⟨k', _, s, hs, eq⟩
    cases eq
    rw [hs, String.ofList_toList]
  · intro h
    refine ⟨k, ?_, _, h, by rw [String.toList_ofList]⟩
    cases k with
    | number n => cases h
    | binary o => cases o <;> decide
    | bang | leftParen | rightParen | ifWord | thenWord | elseWord => decide

theorem prefix_of_mark? {cs : List Char} {m m' : List Char × Kind} (h : mark? cs = some m)
    (mem : m' ∈ marks) (front : m'.1 <+: cs) : m'.1 <+: m.1 := by
  obtain ⟨-, front'⟩ := mem_marks_of_mark? h
  rcases List.prefix_or_prefix_of_prefix front front' with shorter | longer
  · exact shorter
  · obtain ⟨-, before, after, eq, misses⟩ := List.find?_eq_some_iff_append.1 h
    rw [eq, List.mem_append, List.mem_cons] at mem
    rcases mem with mem | rfl | mem
    · have := misses m' mem
      rw [List.isPrefixOf_iff_prefix.2 front] at this
      cases this
    · exact List.prefix_refl _
    · have pairwise := marks_pairwise
      rw [eq, List.pairwise_append] at pairwise
      exact absurd longer ((List.pairwise_cons.1 pairwise.2.1).1 m' mem)

theorem mark?_eq_some_iff {cs s : List Char} {k : Kind} : mark? cs = some (s, k) ↔
    (s, k) ∈ marks ∧ ∃ rest, cs = s ++ rest ∧ (k.takesEqual → rest.head? ≠ some '=') := by
  constructor
  · intro h
    obtain ⟨mem, rest, eq⟩ := mem_marks_of_mark? h
    refine ⟨mem, rest, eq.symm, fun takes head => ?_⟩
    obtain ⟨m', mem', eq'⟩ := exists_mark_of_takesEqual _ mem takes
    have longer : m'.1 <+: cs := by
      obtain ⟨after, rfl⟩ := List.head?_eq_some_iff.1 head
      exact ⟨after, by rw [eq', ← eq, List.append_assoc]; rfl⟩
    have := (prefix_of_mark? h mem' longer).length_le
    rw [eq', List.length_append, List.length_singleton] at this
    omega
  · rintro ⟨mem, rest, rfl, ends⟩
    have front : s <+: s ++ rest := List.prefix_append s rest
    cases h : mark? (s ++ rest) with
    | none =>
      have := List.find?_eq_none.1 h _ mem
      simp at this
    | some m =>
      obtain ⟨mem', front'⟩ := mem_marks_of_mark? h
      rcases eq_or_takesEqual_of_prefix _ mem m mem' (prefix_of_mark? h mem front) with
        rfl | ⟨takes, eq⟩
      · rfl
      · rw [eq, List.prefix_append_right_inj] at front'
        obtain ⟨after, rfl⟩ := front'
        exact absurd rfl (ends takes)

theorem mark?_eq_none_iff {cs : List Char} :
    mark? cs = none ↔ ∀ (k : Kind) (s : String), k.spelling? = some s → ¬s.toList <+: cs := by
  rw [mark?, List.find?_eq_none]
  constructor
  · intro h k s spelling front
    have mem : (s.toList, k) ∈ marks := mem_marks_iff.2 (by rw [String.ofList_toList, spelling])
    exact h _ mem (List.isPrefixOf_iff_prefix.2 front)
  · intro h m mem front
    refine h m.2 (String.ofList m.1) (mem_marks_iff.1 mem) ?_
    rw [String.toList_ofList]
    exact List.isPrefixOf_iff_prefix.1 front

theorem mark?_of_isDigit {c : Char} (h : c.isDigit) (cs : List Char) : mark? (c :: cs) = none := by
  cases hm : mark? (c :: cs) with
  | none => rfl
  | some m =>
    obtain ⟨mem, rest, eq⟩ := mem_marks_of_mark? hm
    obtain ⟨mark, k⟩ := m
    obtain ⟨d, ds, rfl⟩ := List.exists_cons_of_ne_nil (mark_ne_nil _ mem)
    cases eq
    exact absurd h (mark_no_digit mem c List.mem_cons_self)

theorem takeWhile_append_of_head {p : Char → Bool} {front rest : List Char}
    (all : ∀ c ∈ front, p c) (ends : ∀ c ∈ rest.head?, ¬p c) :
    (front ++ rest).takeWhile p = front ∧ (front ++ rest).dropWhile p = rest := by
  rw [List.takeWhile_append_of_pos all, List.dropWhile_append_of_pos all]
  cases rest with
  | nil => simp
  | cons c rest => simp [ends c rfl]

theorem toInt_ofNat_of_le {n : Nat} (h : n ≤ maxLiteral) : (Int64.ofNat n).toInt = n :=
  Int64.toInt_ofNat_of_lt (Nat.lt_of_le_of_lt h (by decide))

theorem value?_eq_some_iff {digits : List Char} {n : Nat} :
    Decimal.value? maxLiteral digits = some n ↔
      Decimal.value digits ≤ 2 ^ 63 - 1 ∧ n = Decimal.value digits := by
  rw [Decimal.value?_eq]
  by_cases le : Decimal.value digits ≤ maxLiteral
  · rw [if_pos le, Option.some.injEq, eq_comm]
    exact (and_iff_right le).symm
  · rw [if_neg le]
    exact ⟨fun h => (Option.some_ne_none n h.symm).elim, fun h => absurd h.1 le⟩

theorem value?_eq_none_iff {digits : List Char} :
    Decimal.value? maxLiteral digits = none ↔ 2 ^ 63 - 1 < Decimal.value digits := by
  rw [Option.eq_none_iff_forall_ne_some]
  constructor
  · intro h
    exact Nat.not_le.1 fun le => h _ (value?_eq_some_iff.2 ⟨le, rfl⟩)
  · intro lt n h
    exact Nat.not_le.2 lt (value?_eq_some_iff.1 h).1

theorem Kind.writes_and_endsBefore_iff {k : Kind} (h : ∀ n, k ≠ .number n) {literal : String}
    {rest : List Char} : k.Writes literal ∧ k.EndsBefore rest ↔
      (literal.toList, k) ∈ marks ∧ (k.takesEqual → rest.head? ≠ some '=') := by
  rw [mem_marks_iff, String.ofList_toList]
  cases k with
  | number n => exact absurd rfl (h n)
  | binary | bang | leftParen | rightParen | ifWord | thenWord | elseWord => exact Iff.rfl

theorem Kind.Writes.mem_marks {k : Kind} {literal : String} (h : k.Writes literal)
    (notNumber : ∀ n, k ≠ .number n) : (literal.toList, k) ∈ marks := by
  rw [mem_marks_iff, String.ofList_toList]
  cases k with
  | number n => exact absurd rfl (notNumber n)
  | binary | bang | leftParen | rightParen | ifWord | thenWord | elseWord => exact h

theorem munch_spelled {offset : Nat} {c : Char} {cs s : List Char} {k : Kind}
    (h : mark? (c :: cs) = some (s, k)) :
    munch offset c cs = .ok (⟨k, String.ofList s, offset⟩, (c :: cs).drop s.length) := by
  rw [munch, h]

theorem munch_number {offset n : Nat} {c : Char} {cs : List Char} (h : c.isDigit)
    (hn : Decimal.value? maxLiteral ((c :: cs).takeWhile Char.isDigit) = some n) :
    munch offset c cs =
      .ok (⟨.number (.ofNat n), String.ofList ((c :: cs).takeWhile Char.isDigit), offset⟩,
        (c :: cs).dropWhile Char.isDigit) := by
  simp only [munch, mark?_of_isDigit h, h, ↓reduceIte, hn]

theorem munch_large {offset : Nat} {c : Char} {cs : List Char} (h : c.isDigit)
    (hn : Decimal.value? maxLiteral ((c :: cs).takeWhile Char.isDigit) = none) :
    munch offset c cs =
      .error (.literalTooLarge (String.ofList ((c :: cs).takeWhile Char.isDigit)) offset) := by
  simp only [munch, mark?_of_isDigit h, h, ↓reduceIte, hn]

theorem munch_other {offset : Nat} {c : Char} {cs : List Char} (h : mark? (c :: cs) = none)
    (h' : ¬c.isDigit) : munch offset c cs = .error (.unexpectedCharacter c offset) := by
  rw [munch, h, if_neg h']

theorem munch_sound {offset : Nat} {c : Char} {cs rest : List Char} {t : Token}
    (h : munch offset c cs = .ok (t, rest)) :
    t.offset = offset ∧ t.kind.Writes t.literal ∧ t.kind.EndsBefore rest ∧
      c :: cs = t.literal.toList ++ rest := by
  cases hm : mark? (c :: cs) with
  | some m =>
    rw [munch_spelled hm] at h
    cases h
    obtain ⟨mem, rest, eq, ends⟩ := mark?_eq_some_iff.1 hm
    have notNumber : ∀ n, m.2 ≠ .number n := by
      intro n eq
      rw [eq, mem_marks_iff] at mem
      cases mem
    have written : ((String.ofList m.1).toList, m.2) ∈ marks := by rwa [String.toList_ofList]
    obtain ⟨writes, before⟩ := (Kind.writes_and_endsBefore_iff notNumber).2 ⟨written, ends⟩
    rw [eq, List.drop_left]
    exact ⟨rfl, writes, before, by rw [String.toList_ofList]⟩
  | none =>
    by_cases digit : c.isDigit
    · cases hn : Decimal.value? maxLiteral ((c :: cs).takeWhile Char.isDigit) with
      | some n =>
        rw [munch_number digit hn] at h
        cases h
        obtain ⟨le, rfl⟩ := value?_eq_some_iff.1 hn
        refine ⟨rfl, ⟨?_, ?_, ?_, ?_⟩, ?_, ?_⟩
        · simp [digit]
        · intro d mem
          rw [String.toList_ofList] at mem
          exact List.mem_takeWhile_imp mem
        · rwa [String.toList_ofList]
        · rw [String.toList_ofList]
          exact toInt_ofNat_of_le le
        · intro d mem
          have := List.head?_dropWhile_not Char.isDigit (c :: cs)
          rw [mem] at this
          simpa using this
        · rw [String.toList_ofList, List.takeWhile_append_dropWhile]
      | none =>
        rw [munch_large digit hn] at h
        cases h
    · rw [munch_other hm digit] at h
      cases h

theorem munch_numeral {offset : Nat} {c : Char} {cs rest : List Char} {n : Int64}
    {literal : String} (writes : (Kind.number n).Writes literal)
    (ends : (Kind.number n).EndsBefore rest) (eq : c :: cs = literal.toList ++ rest) :
    munch offset c cs = .ok (⟨.number n, literal, offset⟩, rest) := by
  obtain ⟨ne, digits, le, value⟩ := writes
  obtain ⟨take, drop⟩ := takeWhile_append_of_head digits ends
  have digit : c.isDigit := by
    obtain ⟨d, ds, hd⟩ := List.exists_cons_of_ne_nil ne
    rw [hd] at eq
    cases eq
    exact digits c (by rw [hd]; exact List.mem_cons_self)
  have same : n = Int64.ofNat (Decimal.value literal.toList) := by
    rw [← Int64.toInt_inj, value, toInt_ofNat_of_le le]
  have hn := value?_eq_some_iff.2 ⟨le, rfl⟩
  rw [← take, ← eq] at hn
  rw [munch_number digit hn, eq, take, drop, ← same, String.ofList_toList]

/-- One step takes the token that the front of the text writes, if it ends there. -/
theorem munch_eq_ok_iff {offset : Nat} {c : Char} {cs rest : List Char} {t : Token} :
    munch offset c cs = .ok (t, rest) ↔
      t.offset = offset ∧ t.kind.Writes t.literal ∧ t.kind.EndsBefore rest ∧
        c :: cs = t.literal.toList ++ rest := by
  constructor
  · exact munch_sound
  · obtain ⟨kind, literal, o⟩ := t
    rintro ⟨rfl, writes, ends, eq⟩
    by_cases number : ∃ n, kind = .number n
    · obtain ⟨n, rfl⟩ := number
      exact munch_numeral writes ends eq
    · have notNumber : ∀ n, kind ≠ .number n := fun n eq => number ⟨n, eq⟩
      obtain ⟨mem, notEqual⟩ := (Kind.writes_and_endsBefore_iff notNumber).1 ⟨writes, ends⟩
      rw [munch_spelled (mark?_eq_some_iff.2 ⟨mem, rest, eq, notEqual⟩)]
      rw [eq, List.drop_left, String.ofList_toList]

end CondCalc
