import CondCalc.Proofs.Lexis.Joining

/-! Kinds of token written in a row, with one space between any two. A space ends every token, so
the row is tiled by the tokens of these kinds and has no others. -/
namespace CondCalc

def Kind.text : Kind → String
  | number n => Decimal.text n.toInt
  | k => k.spelling?.getD ""

def Kind.Writable : Kind → Prop
  | number n => 0 ≤ n.toInt
  | _ => True

theorem Kind.Writable.writes {k : Kind} (h : k.Writable) : k.Writes k.text := by
  cases k with
  | number n =>
    obtain ⟨m, eq⟩ := Int.eq_ofNat_of_zero_le h
    have text_eq : (number n).text.toList = Nat.toDigits 10 m := by
      rw [text, eq]
      exact String.toList_ofList
    have value_eq : Decimal.value (Nat.toDigits 10 m) = m := Decimal.value_toDigits m
    have lt := n.toInt_lt
    rw [Writes, text_eq, value_eq]
    refine ⟨Nat.toDigits_ne_nil, fun c mem => ?_, by omega, eq⟩
    exact Nat.isDigit_of_mem_toDigits (by decide) (by decide) mem
  | binary | bang | leftParen | rightParen | ifWord | thenWord | elseWord => rfl

def rowText (ks : List Kind) : String :=
  " ".intercalate (ks.map Kind.text)

/-- The tokens of a row that stands behind `offset` bytes of text. -/
def row (offset : Nat) : List Kind → List Token
  | [] => []
  | k :: ks => ⟨k, k.text, offset⟩ :: row (offset + k.text.utf8ByteSize + 1) ks

def rowEnd (offset : Nat) : List Kind → Nat
  | [] => offset
  | k :: ks => rowEnd (offset + k.text.utf8ByteSize + 1) ks

theorem row_append (offset : Nat) (ks ls : List Kind) :
    row offset (ks ++ ls) = row offset ks ++ row (rowEnd offset ks) ls := by
  induction ks generalizing offset with
  | nil => rfl
  | cons k ks ih => rw [List.cons_append, row, ih, row, rowEnd, List.cons_append]

theorem tiles_row {ks : List Kind} (writable : ∀ k ∈ ks, k.Writable) (offset : Nat)
    {g : List Char} (blank : Blank g) :
    Tiles offset (g ++ (rowText ks).toList) (row (offset + utf8Length g) ks) := by
  induction ks generalizing offset g with
  | nil =>
    rw [rowText, List.map_nil, String.intercalate_nil, String.toList_empty, List.append_nil]
    exact .gap blank
  | cons k ks ih =>
    rw [List.forall_mem_cons] at writable
    cases ks with
    | nil =>
      have ends : k.EndsBefore [] := Kind.endsBefore_of_blank (by simp)
      have rest : Tiles (offset + utf8Length g + k.text.utf8ByteSize) [] [] :=
        .gap (by simp [Blank])
      have := Tiles.token (t := ⟨k, k.text, _⟩) blank rfl writable.1.writes ends rest
      simpa [rowText, row] using this
    | cons l ks =>
      have space : Blank [' '] := by simp [Blank]
      have size : ' '.utf8Size = 1 := rfl
      have ends : k.EndsBefore (' ' :: (rowText (l :: ks)).toList) :=
        Kind.endsBefore_of_blank (by simp [isBlank])
      have rest := ih writable.2 (offset + utf8Length g + k.text.utf8ByteSize) space
      have := Tiles.token (t := ⟨k, k.text, _⟩) blank rfl writable.1.writes ends rest
      simpa [rowText, row, String.toList_intercalate, size] using this

end CondCalc
