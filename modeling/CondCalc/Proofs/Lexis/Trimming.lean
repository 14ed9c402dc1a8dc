import CondCalc.Proofs.Lexis.Separation
import CondCalc.Proofs.Outcome
import CondCalc.Text.WhiteSpace

/-! A text with the white space around it and without. Only blanks are skipped between tokens, any
other white space is an error at its own place. So around a text that has tokens there are only
blanks, and an error that is not at the white space is one of the text without it. -/
namespace CondCalc

def trimmedBytes (text : String) : Nat :=
  utf8Length (text.toList.takeWhile isWhiteSpace)

def White (w : List Char) : Prop :=
  ∀ c ∈ w, isWhiteSpace c

theorem exists_trim_split (text : String) : ∃ w w', White w ∧ White w' ∧
    text.toList = w ++ ((trim text).toList ++ w') ∧ utf8Length w = trimmedBytes text := by
  refine ⟨text.toList.takeWhile isWhiteSpace,
    ((text.toList.dropWhile isWhiteSpace).reverse.takeWhile isWhiteSpace).reverse,
    fun c mem => List.mem_takeWhile_imp mem,
    fun c mem => List.mem_takeWhile_imp (List.mem_reverse.1 mem), ?_, rfl⟩
  rw [trim, String.toList_ofList, trimWhiteSpace, ← List.reverse_append,
    List.takeWhile_append_dropWhile, List.reverse_reverse, List.takeWhile_append_dropWhile]

theorem mark_no_whiteSpace {m : List Char × Kind} (mem : m ∈ marks) :
    ∀ c ∈ m.1, ¬isWhiteSpace c := by
  have none : ∀ m ∈ marks, m.1.all fun c => !isWhiteSpace c := by decide
  simpa using none m mem

theorem not_isDigit_of_isWhiteSpace {c : Char} (h : isWhiteSpace c) : ¬c.isDigit := by
  intro digit
  have digit : 48 ≤ c.toNat ∧ c.toNat ≤ 57 := by
    simpa [Char.isDigit, UInt32.le_iff_toNat_le] using digit
  simp only [isWhiteSpace, whiteSpaceRanges, List.any_cons, List.any_nil, Bool.or_false,
    Bool.or_eq_true, Bool.and_eq_true, decide_eq_true_eq] at h
  omega

theorem mark?_of_isWhiteSpace {c : Char} (h : isWhiteSpace c) (cs : List Char) :
    mark? (c :: cs) = none := by
  rw [mark?, List.find?_eq_none]
  intro m mem front
  obtain ⟨d, ds, eq⟩ := List.exists_cons_of_ne_nil (mark_ne_nil m mem)
  rw [eq, List.isPrefixOf_iff_prefix, List.cons_prefix_cons] at front
  obtain ⟨rfl, -⟩ := front
  exact mark_no_whiteSpace mem d (eq ▸ List.mem_cons_self) h

theorem White.cut {w : List Char} (white : White w) : Cut w := by
  intro c mem
  have white : isWhiteSpace c := white c (List.mem_of_mem_head? mem)
  exact ⟨not_isDigit_of_isWhiteSpace white,
    fun m mem inside => mark_no_whiteSpace mem c inside white⟩

theorem blank_or_exists_visible (cs : List Char) :
    Blank cs ∨ ∃ g c rest, Blank g ∧ cs = g ++ c :: rest ∧ ¬isBlank c := by
  have split := List.takeWhile_append_dropWhile (p := isBlank) (l := cs)
  have blank : Blank (cs.takeWhile isBlank) :=
    fun c mem => isBlank_iff.1 (List.mem_takeWhile_imp mem)
  have visible := List.head?_dropWhile_not isBlank cs
  cases dropped : cs.dropWhile isBlank with
  | nil =>
    rw [dropped, List.append_nil] at split
    exact .inl (split ▸ blank)
  | cons c rest =>
    rw [dropped] at split visible
    exact .inr ⟨_, c, rest, blank, split.symm, by simpa using visible⟩

namespace Cursor

variable {w cs rest : List Char} {offset : Nat} {ts : List Token}

theorem tokens_of_white (white : White w) (rest : List Char) (offset : Nat) :
    Blank w ∨ ∃ x, tokens ⟨w ++ rest, offset⟩ = .error x ∧ offset ≤ x.span.offset ∧
      x.span.offset < offset + utf8Length w := by
  rcases blank_or_exists_visible w with blank | ⟨g, c, cs, blank, rfl, visible⟩
  · exact .inl blank
  · have space : isWhiteSpace c := white c (by simp)
    have munched : munch (offset + utf8Length g) c (cs ++ rest) =
        .error (.unexpectedCharacter c (offset + utf8Length g)) :=
      munch_other (mark?_of_isWhiteSpace space _) (not_isDigit_of_isWhiteSpace space)
    have fails : FailsWith ⟨g ++ c :: cs ++ rest, offset⟩ _ :=
      failsWith_iff.2 ⟨g, c, cs ++ rest, blank, by simp, visible, munched⟩
    have pos := c.utf8Size_pos
    refine .inr ⟨_, fails.tokens_eq, Nat.le_add_right _ _, ?_⟩
    simp only [LexError.span, utf8Length_append, utf8Length_cons]
    omega

theorem tokens_append_of_error {x : LexError} (h : tokens ⟨cs, offset⟩ = .error x)
    (cut : Cut rest) : tokens ⟨cs ++ rest, offset⟩ = .error x :=
  tokens_error_of_cut h cut

theorem tokens_append_white (h : tokens ⟨cs, offset⟩ = .ok ts) (white : White w) :
    tokens ⟨cs ++ w, offset⟩ = .ok ts ∨ ∃ x, tokens ⟨cs ++ w, offset⟩ = .error x ∧
      offset + utf8Length cs ≤ x.span.offset := by
  have clear : EndsClear (offset + utf8Length cs) ts w :=
    fun t _ _ => white.cut.seam.endsBefore t.kind
  obtain ⟨g, ⟨rest, stop⟩, blank, rfl, place, run⟩ := (tiles_of_tokens h).yields clear
  rw [run.tokens_eq, tokens_behind_gap blank, place]
  rcases tokens_of_white white [] (offset + utf8Length cs) with blank | ⟨x, failed, le, -⟩
  · left
    rw [tokens_of_none (next_of_blank blank)]
    simp [Except.map]
  · rw [List.append_nil] at failed
    exact .inr ⟨x, by rw [failed]; rfl, le⟩

end Cursor

section tokenize

variable {text : String} {ts : List Token} {x : LexError}

/-- With the white space around it a text has the tokens or the error that it has without, as many
bytes later as there are in front; or else the error is at the white space. -/
theorem tokenize_trim (text : String) :
    Matches (fun ts us => ts = us.map (Token.shift (trimmedBytes text)))
        (fun x y => x = y.shift (trimmedBytes text)) (tokenize text) (tokenize (trim text)) ∨
      ∃ x, tokenize text = .error x ∧ (x.span.offset < trimmedBytes text ∨
        trimmedBytes text + (trim text).utf8ByteSize ≤ x.span.offset) := by
  obtain ⟨w, w', white, white', split, size⟩ := exists_trim_split text
  have whole : tokenize text = Cursor.tokens ⟨w ++ ((trim text).toList ++ w'), 0⟩ := by
    rw [tokenize, Cursor.ofString, split]
  rcases Cursor.tokens_of_white white ((trim text).toList ++ w') 0 with blank | ⟨x, failed, -, lt⟩
  · rw [Cursor.tokens_behind_gap blank, Nat.zero_add, size] at whole
    have place : (Cursor.ofString (trim text)).shift (trimmedBytes text) =
        ⟨(trim text).toList, trimmedBytes text⟩ := by
      simp only [Cursor.shift, Cursor.ofString, Nat.add_zero]
    cases alone : tokenize (trim text) with
    | ok us =>
      have moved := Cursor.tokens_shift_of_ok alone (trimmedBytes text)
      rw [place] at moved
      rcases Cursor.tokens_append_white moved white' with same | ⟨x, failed, le⟩
      · rw [whole, same]
        exact .inl rfl
      · rw [← utf8ByteSize_eq_utf8Length] at le
        exact .inr ⟨x, whole.trans failed, .inr le⟩
    | error y =>
      have moved := Cursor.tokens_shift_of_error alone (trimmedBytes text)
      rw [place] at moved
      rw [whole, Cursor.tokens_append_of_error moved white'.cut]
      exact .inl rfl
  · rw [Nat.zero_add, size] at lt
    exact .inr ⟨x, whole.trans failed, .inl lt⟩

theorem tokenize_trim_of_ok (h : tokenize text = .ok ts) :
    ∃ us, tokenize (trim text) = .ok us ∧ ts = us.map (Token.shift (trimmedBytes text)) := by
  rcases tokenize_trim text with same | ⟨x, failed, -⟩
  · exact same.of_ok h
  · cases h.symm.trans failed

theorem tokenize_trim_of_error (h : tokenize text = .error x)
    (behind : trimmedBytes text ≤ x.span.offset)
    (before : x.span.offset < trimmedBytes text + (trim text).utf8ByteSize) :
    ∃ y, tokenize (trim text) = .error y ∧ x = y.shift (trimmedBytes text) := by
  rcases tokenize_trim text with same | ⟨x', failed, place⟩
  · exact same.of_error h
  · cases h.symm.trans failed
    omega

end tokenize

end CondCalc
