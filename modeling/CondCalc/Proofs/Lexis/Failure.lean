import CondCalc.Proofs.Lexis.Places
import CondCalc.Proofs.Lexis.Yielding

/-! Where a text has no token: at a character that begins none, or at a numeral that is too large.
The error names what stands there. -/
namespace CondCalc

theorem munch_eq_error_iff {offset : Nat} {c : Char} {cs : List Char} {x : LexError} :
    munch offset c cs = .error x ↔ mark? (c :: cs) = none ∧
      (c.isDigit ∧ Decimal.value? maxLiteral ((c :: cs).takeWhile Char.isDigit) = none ∧
          x = .literalTooLarge (String.ofList ((c :: cs).takeWhile Char.isDigit)) offset ∨
        ¬c.isDigit ∧ x = .unexpectedCharacter c offset) := by
  cases hm : mark? (c :: cs) with
  | some m => simp [munch_spelled hm]
  | none =>
    by_cases digit : c.isDigit
    · cases hn : Decimal.value? maxLiteral ((c :: cs).takeWhile Char.isDigit) with
      | some n => simp [munch_number digit hn, digit]
      | none => simp [munch_large digit hn, digit, eq_comm]
    · simp [munch_other hm digit, digit, eq_comm]

theorem Cursor.munch_of_tokens {k : Cursor} {x : LexError} (h : k.tokens = .error x) :
    ∃ front c cs, k.rest = front ++ c :: cs ∧
      munch (k.offset + utf8Length front) c cs = .error x := by
  obtain ⟨ts, k', run, fails⟩ := Yields.exists_of_error h
  obtain ⟨front, eq, offset, -⟩ := run.exists_front
  obtain ⟨g, c, cs, -, rest, -, munched⟩ := failsWith_iff.1 fails
  refine ⟨front ++ g, c, cs, by simp [eq, rest], ?_⟩
  rw [utf8Length_append, ← Nat.add_assoc, ← offset]
  exact munched

section tokenize

variable {text : String}

theorem munch_of_tokenize {x : LexError} (h : tokenize text = .error x) :
    ∃ front c cs, text.toList = front ++ c :: cs ∧ munch (utf8Length front) c cs = .error x := by
  obtain ⟨front, c, cs, eq, munched⟩ := Cursor.munch_of_tokens h
  refine ⟨front, c, cs, eq, ?_⟩
  rw [← munched]
  exact congrArg (munch · c cs) (Nat.zero_add _).symm

theorem unexpectedCharacter_covers {c : Char} {index : Nat}
    (h : tokenize text = .error (.unexpectedCharacter c index)) :
    Span.Covers ⟨index, c.utf8Size⟩ text (String.singleton c) ∧
      String.Pos.Raw.get text ⟨index⟩ = c := by
  obtain ⟨front, d, cs, eq, munched⟩ := munch_of_tokenize h
  rcases munch_eq_error_iff.1 munched with ⟨-, ⟨-, -, no⟩ | ⟨-, same⟩⟩
  · cases no
  · cases same
    have split : text.toList = front ++ ([c] ++ cs) := eq
    exact ⟨Span.covers_of_split split (List.cons_ne_nil c []), get_of_split eq⟩

theorem literalTooLarge_covers {literal : String} {offset : Nat}
    (h : tokenize text = .error (.literalTooLarge literal offset)) :
    Span.Covers ⟨offset, literal.utf8ByteSize⟩ text literal := by
  obtain ⟨front, c, cs, eq, munched⟩ := munch_of_tokenize h
  rcases munch_eq_error_iff.1 munched with ⟨-, ⟨digit, -, same⟩ | ⟨-, no⟩⟩
  · cases same
    rw [← List.takeWhile_append_dropWhile (p := Char.isDigit) (l := c :: cs)] at eq
    rw [utf8ByteSize_ofList]
    exact Span.covers_of_split eq (by simp [digit])
  · cases no

end tokenize

end CondCalc
