import CondCalc.Proofs.Lexis.Failure

/-! Texts with blanks between them. No token reaches into the blanks and none begins in them, so a
run over the first text is the same run when more follows, also the step that fails, and the second
text is run over as if it stood alone, each token and each error moved by the bytes in front. -/
namespace CondCalc

def LexError.shift (n : Nat) : LexError → LexError
  | unexpectedCharacter c index => .unexpectedCharacter c (n + index)
  | literalTooLarge literal offset => .literalTooLarge literal (n + offset)

theorem LexError.span_shift (n : Nat) (x : LexError) :
    (x.shift n).span = ⟨n + x.span.offset, x.span.length⟩ := by
  cases x <;> rfl

theorem Token.span_shift_stop (t : Token) (n : Nat) : (t.shift n).span.stop = n + t.span.stop := by
  simp [span, shift, Span.stop, Nat.add_assoc]

/-- There is something, and it begins with a blank. -/
def Parted (rest : List Char) : Prop :=
  ∃ b ∈ rest.head?, isBlank b

/-- There is nothing, or it begins with a character that no token has. -/
def Cut (rest : List Char) : Prop :=
  ∀ c ∈ rest.head?, ¬c.isDigit ∧ ∀ m ∈ marks, c ∉ m.1

theorem Cut.seam {rest : List Char} (h : Cut rest) : Seam rest := by
  have equals : (['=', '='], .binary .eq) ∈ marks := by decide
  refine fun c mem => ⟨(h c mem).1, ?_⟩
  rintro rfl
  exact (h '=' mem).2 _ equals List.mem_cons_self

theorem Parted.cut {rest : List Char} (h : Parted rest) : Cut rest := by
  obtain ⟨b, head, blank⟩ := h
  intro c mem
  cases head.symm.trans mem
  exact ⟨(isBlank_seam blank).1, fun m mem inside => mark_no_blank mem b inside blank⟩

theorem Parted.seam {rest : List Char} (h : Parted rest) : Seam rest :=
  h.cut.seam

theorem mark?_append_cut {cs rest : List Char} (h : mark? cs = none) (cut : Cut rest) :
    mark? (cs ++ rest) = none := by
  cases rest with
  | nil => rwa [List.append_nil]
  | cons b rest =>
    rw [mark?, List.find?_eq_none] at h ⊢
    intro m mem front
    have absent : b ∉ m.1 := (cut b rfl).2 m mem
    have front : m.1 <+: cs ++ b :: rest := List.isPrefixOf_iff_prefix.1 front
    have seam : cs ++ [b] <+: cs ++ b :: rest := ⟨rest, by simp⟩
    refine h m mem (List.isPrefixOf_iff_prefix.2 ?_)
    rcases List.prefix_or_prefix_of_prefix front seam with within | beyond
    · rcases List.prefix_concat_iff.1 within with eq | within
      · exact absurd (by simp [eq]) absent
      · exact within
    · exact absurd (beyond.subset (by simp)) absent

theorem takeWhile_isDigit_append {cs rest : List Char} (seam : Seam rest) :
    (cs ++ rest).takeWhile Char.isDigit = cs.takeWhile Char.isDigit := by
  have none : rest.takeWhile Char.isDigit = [] := by
    cases rest with
    | nil => rfl
    | cons b rest => exact List.takeWhile_cons_of_neg (seam b rfl).1
  rw [List.takeWhile_append, none, List.append_nil]
  split
  next all => exact (List.takeWhile_prefix _).eq_of_length all |>.symm
  next => rfl

theorem munch_error_append {offset : Nat} {c : Char} {cs rest : List Char} {x : LexError}
    (h : munch offset c cs = .error x) (cut : Cut rest) :
    munch offset c (cs ++ rest) = .error x := by
  rw [munch_eq_error_iff] at h ⊢
  rw [← List.cons_append, takeWhile_isDigit_append cut.seam]
  exact ⟨mark?_append_cut h.1 cut, h.2⟩

theorem munch_error_shift {offset : Nat} {c : Char} {cs : List Char} {x : LexError}
    (h : munch offset c cs = .error x) (n : Nat) :
    munch (n + offset) c cs = .error (x.shift n) := by
  rw [munch_eq_error_iff] at h ⊢
  rcases h with ⟨none, ⟨digit, large, rfl⟩ | ⟨other, rfl⟩⟩
  · exact ⟨none, .inl ⟨digit, large, rfl⟩⟩
  · exact ⟨none, .inr ⟨other, rfl⟩⟩

namespace Cursor

def shift (n : Nat) (k : Cursor) : Cursor :=
  ⟨k.rest, n + k.offset⟩

def extend (rest : List Char) (k : Cursor) : Cursor :=
  ⟨k.rest ++ rest, k.offset⟩

variable {k k' : Cursor} {t : Token} {ts : List Token} {x : LexError} {rest : List Char}

theorem next_shift (h : k.next = (some (.ok t), k')) (n : Nat) :
    (k.shift n).next = (some (.ok (t.shift n)), k'.shift n) := by
  obtain ⟨g, blank, eq, offset, writes, ends, stop⟩ := tile_of_next h
  have offset' : (t.shift n).offset = n + k.offset + utf8Length g := by
    rw [Token.shift, offset, Nat.add_assoc]
  have next := next_of_token (t := t.shift n) blank offset' writes ends
  rw [shift, shift, eq, stop, ← t.span_shift_stop]
  exact next

theorem next_extend (h : k.next = (some (.ok t), k')) (seam : Seam rest) :
    (k.extend rest).next = (some (.ok t), k'.extend rest) := by
  obtain ⟨g, blank, eq, offset, writes, ends, stop⟩ := tile_of_next h
  have next := next_of_token blank offset writes (ends.append seam)
  rw [extend, eq, extend, stop]
  rw [List.append_assoc, List.append_assoc]
  exact next

theorem FailsWith.shift (h : k.FailsWith x) (n : Nat) : (k.shift n).FailsWith (x.shift n) := by
  obtain ⟨g, c, cs, blank, eq, visible, munched⟩ := failsWith_iff.1 h
  have := munch_error_shift munched n
  rw [← Nat.add_assoc] at this
  exact failsWith_iff.2 ⟨g, c, cs, blank, eq, visible, this⟩

theorem FailsWith.extend (h : k.FailsWith x) (cut : Cut rest) :
    (k.extend rest).FailsWith x := by
  obtain ⟨g, c, cs, blank, eq, visible, munched⟩ := failsWith_iff.1 h
  exact failsWith_iff.2 ⟨g, c, cs ++ rest, blank, by simp [Cursor.extend, eq], visible,
    munch_error_append munched cut⟩

theorem Yields.shift (h : Yields k ts k') (n : Nat) :
    Yields (k.shift n) (ts.map (Token.shift n)) (k'.shift n) := by
  induction h with
  | done k => exact .done _
  | token next _ ih => exact .token (next_shift next n) ih

theorem Yields.extend (h : Yields k ts k') (seam : Seam rest) :
    Yields (k.extend rest) ts (k'.extend rest) := by
  induction h with
  | done k => exact .done _
  | token next _ ih => exact .token (next_extend next seam) ih

theorem tokens_shift_of_ok (h : k.tokens = .ok ts) (n : Nat) :
    (k.shift n).tokens = .ok (ts.map (Token.shift n)) :=
  tokens_of_tiles ((tiles_of_tokens h).shift n)

theorem tokens_shift_of_error (h : k.tokens = .error x) (n : Nat) :
    (k.shift n).tokens = .error (x.shift n) := by
  obtain ⟨ts, k', run, fails⟩ := Yields.exists_of_error h
  rw [(run.shift n).tokens_eq, (fails.shift n).tokens_eq]
  rfl

theorem tokens_error_of_cut (h : k.tokens = .error x) (cut : Cut rest) :
    (k.extend rest).tokens = .error x := by
  obtain ⟨ts, k', run, fails⟩ := Yields.exists_of_error h
  rw [(run.extend cut.seam).tokens_eq, (fails.extend cut).tokens_eq]
  rfl

theorem tokens_extend_of_error (h : k.tokens = .error x) (parted : Parted rest) :
    (k.extend rest).tokens = .error x :=
  tokens_error_of_cut h parted.cut

theorem tokens_behind_gap {g cs : List Char} {offset : Nat} (blank : Blank g) :
    tokens ⟨g ++ cs, offset⟩ = tokens ⟨cs, offset + utf8Length g⟩ := by
  have blanks : ∀ c ∈ g, isBlank c := fun c mem => isBlank_iff.2 (blank c mem)
  have skip : skipBlanks ⟨g ++ cs, offset⟩ = skipBlanks ⟨cs, offset + utf8Length g⟩ := by
    rw [skipBlanks, skipBlanks, List.dropWhile_append_of_pos blanks,
      List.takeWhile_append_of_pos blanks, utf8Length_append, Nat.add_assoc]
  have same : next ⟨g ++ cs, offset⟩ = next ⟨cs, offset + utf8Length g⟩ := by
    rw [next, next, skip]
  rcases h : next ⟨cs, offset + utf8Length g⟩ with ⟨_ | x | t, k'⟩
  · rw [tokens_of_none h, tokens_of_none (same.trans h)]
  · rw [tokens_of_error h, tokens_of_error (same.trans h)]
  · rw [tokens_of_ok h, tokens_of_ok (same.trans h)]

end Cursor

section tokenize

variable {a w b : String}

theorem tokenize_behind {ts : List Token} (h : tokenize a = .ok ts) (blank : Blank w.toList)
    (parted : Parted (w.toList ++ b.toList)) :
    tokenize (a ++ w ++ b) =
      ((Cursor.ofString b).shift (a ++ w).utf8ByteSize).tokens.map (ts ++ ·) := by
  have clear : EndsClear (0 + utf8Length a.toList) ts (w.toList ++ b.toList) :=
    fun t _ _ => parted.seam.endsBefore t.kind
  obtain ⟨g, ⟨rest, offset⟩, blank', eq, place, run⟩ := (tiles_of_tokenize h).yields clear
  have whole : Cursor.ofString (a ++ w ++ b) = ⟨a.toList ++ (w.toList ++ b.toList), 0⟩ := by
    simp [Cursor.ofString]
  have start : offset + utf8Length (g ++ w.toList) = (a ++ w).utf8ByteSize + 0 := by
    rw [utf8Length_append, ← Nat.add_assoc, place, utf8ByteSize_eq_utf8Length,
      String.toList_append, utf8Length_append, Nat.zero_add, Nat.add_zero]
  rw [tokenize, whole, run.tokens_eq]
  simp only at eq
  rw [eq, ← List.append_assoc, Cursor.tokens_behind_gap (blank'.append blank), start]
  rfl

end tokenize

/-- Blanks between two texts keep them apart. An error in the first one stays the error; without
one, the second is read as if it stood alone, at its place. -/
theorem tokenize_blank_separated (a w b : String) (blank : Blank w.toList) (ne : w ≠ "") :
    (∀ x, tokenize a = .error x → tokenize (a ++ w ++ b) = .error x) ∧
    (∀ ta tb, tokenize a = .ok ta → tokenize b = .ok tb →
      tokenize (a ++ w ++ b) = .ok (ta ++ tb.map (Token.shift (a ++ w).utf8ByteSize))) ∧
    (∀ ta x, tokenize a = .ok ta → tokenize b = .error x →
      tokenize (a ++ w ++ b) = .error (x.shift (a ++ w).utf8ByteSize) ∧
        (x.shift (a ++ w).utf8ByteSize).span =
          ⟨(a ++ w).utf8ByteSize + x.span.offset, x.span.length⟩) := by
  have parted : Parted (w.toList ++ b.toList) := by
    obtain ⟨c, cs, eq⟩ := List.exists_cons_of_ne_nil (mt String.toList_eq_nil_iff.1 ne)
    rw [eq] at blank ⊢
    exact ⟨c, rfl, isBlank_iff.2 (blank c List.mem_cons_self)⟩
  refine ⟨?_, ?_, ?_⟩
  · intro x ha
    have := Cursor.tokens_extend_of_error ha parted
    rw [← this]
    simp [tokenize, Cursor.ofString, Cursor.extend]
  · intro ta tb ha hb
    rw [tokenize_behind ha blank parted, Cursor.tokens_shift_of_ok hb]
    rfl
  · intro ta x ha hb
    rw [tokenize_behind ha blank parted, Cursor.tokens_shift_of_error hb]
    exact ⟨rfl, x.span_shift _⟩

theorem tokenize_blank_separated_halves :
    (Blank "\t ".toList ∧ "\t " ≠ "") ∧
    tokenize "if 7<" = .ok [⟨.ifWord, "if", 0⟩, ⟨.number 7, "7", 3⟩, ⟨.binary .lt, "<", 4⟩] ∧
    tokenize "= th" = .error (.unexpectedCharacter '=' 0) ∧
    tokenize "if 7<\t = th" = .error (.unexpectedCharacter '=' 7) ∧
    tokenize "= th\t if 7<" = .error (.unexpectedCharacter '=' 0) ∧
    tokenize "if 7<\t if 7<" = .ok [⟨.ifWord, "if", 0⟩, ⟨.number 7, "7", 3⟩, ⟨.binary .lt, "<", 4⟩,
      ⟨.ifWord, "if", 7⟩, ⟨.number 7, "7", 10⟩, ⟨.binary .lt, "<", 11⟩] := by
  have blank : Blank "\t ".toList := by simp [Blank]
  have ne : "\t " ≠ "" := by decide
  have good : tokenize "if 7<" =
      .ok [⟨.ifWord, "if", 0⟩, ⟨.number 7, "7", 3⟩, ⟨.binary .lt, "<", 4⟩] := by
    decide +kernel
  have bad : tokenize "= th" = .error (.unexpectedCharacter '=' 0) := by
    decide +kernel
  have behind := tokenize_blank_separated "if 7<" "\t " "= th" blank ne
  have before := tokenize_blank_separated "= th" "\t " "if 7<" blank ne
  have twice := tokenize_blank_separated "if 7<" "\t " "if 7<" blank ne
  exact ⟨⟨blank, ne⟩, good, bad, (behind.2.2 _ _ good bad).1, before.1 _ bad,
    twice.2.1 _ _ good good⟩

end CondCalc
