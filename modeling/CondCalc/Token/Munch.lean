import CondCalc.Token.Basic

/-! The token at the front of a text. Longer spellings stand before the ones they start with,
so the first match is the longest; a run of digits is taken whole. -/
namespace CondCalc

inductive LexError where
  | unexpectedCharacter (c : Char) (index : Nat)
  | literalTooLarge (literal : String) (offset : Nat)
deriving DecidableEq

def LexError.span : LexError → Span
  | .unexpectedCharacter c index => ⟨index, c.utf8Size⟩
  | .literalTooLarge literal offset => ⟨offset, literal.utf8ByteSize⟩

/-- The kinds with a spelling of their own, longer spellings before the ones they start with. -/
def spelledKinds : List Kind :=
  [.binary .and, .binary .or, .binary .eq, .binary .neq, .binary .gte, .binary .lte,
    .bang, .binary .gt, .binary .lt, .binary .add, .binary .sub, .binary .mul, .binary .div,
    .leftParen, .rightParen, .ifWord, .thenWord, .elseWord]

def marks : List (List Char × Kind) :=
  spelledKinds.filterMap fun k => k.spelling?.map fun s => (s.toList, k)

theorem mark_ne_nil : ∀ m ∈ marks, m.1 ≠ [] := by
  decide

/-- The first mark that a text starts with. A keyword may stand in front of other letters. -/
def mark? (cs : List Char) : Option (List Char × Kind) :=
  marks.find? fun m => m.1.isPrefixOf cs

def maxLiteral : Nat := 0x7FFF_FFFF_FFFF_FFFF

/-- The token at the front of `c :: cs`, which starts at the given offset, and what follows it. -/
def munch (offset : Nat) (c : Char) (cs : List Char) : Except LexError (Token × List Char) :=
  match mark? (c :: cs) with
  | some (spelling, kind) =>
    .ok (⟨kind, String.ofList spelling, offset⟩, (c :: cs).drop spelling.length)
  | none =>
    if c.isDigit then
      let digits := (c :: cs).takeWhile Char.isDigit
      match Decimal.value? maxLiteral digits with
      | some n =>
        .ok (⟨.number (.ofNat n), String.ofList digits, offset⟩,
          (c :: cs).dropWhile Char.isDigit)
      | none => .error (.literalTooLarge (String.ofList digits) offset)
    else
      .error (.unexpectedCharacter c offset)

theorem mem_marks_of_mark? {cs : List Char} {m : List Char × Kind} (h : mark? cs = some m) :
    m ∈ marks ∧ m.1 <+: cs := by
  refine ⟨List.mem_of_find?_eq_some h, ?_⟩
  have := List.find?_some h
  simpa using this

theorem munch_ok {offset : Nat} {c : Char} {cs rest : List Char} {t : Token}
    (h : munch offset c cs = .ok (t, rest)) :
    t.offset = offset ∧ t.literal.toList ≠ [] ∧ t.literal.toList ++ rest = c :: cs := by
  unfold munch at h
  split at h
  next spelling kind found =>
    obtain ⟨mem, front, eq⟩ := mem_marks_of_mark? found
    cases h
    exact ⟨rfl, by simpa using mark_ne_nil _ mem, by simp [← eq]⟩
  next =>
    split at h
    next digit =>
      dsimp only at h
      split at h <;> cases h
      refine ⟨rfl, ?_, ?_⟩
      · simp [digit]
      · rw [String.toList_ofList, List.takeWhile_append_dropWhile]
    next => cases h

theorem length_lt_of_munch_ok {offset : Nat} {c : Char} {cs rest : List Char} {t : Token}
    (h : munch offset c cs = .ok (t, rest)) : rest.length < (c :: cs).length := by
  obtain ⟨-, ne, eq⟩ := munch_ok h
  have := List.length_pos_iff.2 ne
  rw [← eq, List.length_append]
  omega

end CondCalc
