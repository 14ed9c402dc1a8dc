import CondCalc.Proofs.Lexis.Failure

/-! The one place at which a text with an error has no token. Up to there it has tokens, none of
them goes on over the place, and what stands there begins none: a character that no spelling begins
with, or a numeral that is too large. As the error names the place, there is only one. -/
namespace CondCalc

/-- Behind the text `p`, at the character `c` and in front of the text `q`, there is no token, with
the error that says why. -/
inductive Impasse (p : String) (c : Char) (q : String) : LexError → Prop where
  | character {ts : List Token} :
      tokenize p = .ok ts →
      (c = '=' → ∀ t ∈ ts.getLast?, t.kind.takesEqual → t.span.stop ≠ p.utf8ByteSize) →
      ¬isBlank c → ¬c.isDigit →
      (∀ (k : Kind) (s : String), k.spelling? = some s → ¬s.toList <+: c :: q.toList) →
      Impasse p c q (.unexpectedCharacter c p.utf8ByteSize)
  | numeral {ts : List Token} {digits : List Char} :
      tokenize p = .ok ts →
      (∀ d ∈ p.toList.getLast?, ¬d.isDigit) →
      c.isDigit → digits = (c :: q.toList).takeWhile Char.isDigit →
      2 ^ 63 - 1 < Decimal.value digits →
      Impasse p c q (.literalTooLarge (String.ofList digits) p.utf8ByteSize)

theorem Kind.Writes.exists_number_iff {k : Kind} {literal : String} (h : k.Writes literal) :
    (∃ n, k = .number n) ↔ ∃ d ∈ literal.toList.getLast?, d.isDigit := by
  constructor
  · rintro ⟨n, rfl⟩
    obtain ⟨ne, digits, -⟩ := h
    exact ⟨_, List.getLast?_eq_some_getLast ne, digits _ (List.getLast_mem ne)⟩
  · rintro ⟨d, last, digit⟩
    by_contra number
    exact mark_no_digit (h.mem_marks fun n eq => number ⟨n, eq⟩) d
      (List.mem_of_getLast? last) digit

theorem utf8Length_eq_zero_iff {cs : List Char} : utf8Length cs = 0 ↔ cs = [] := by
  cases cs with
  | nil => simp
  | cons c cs =>
    have := c.utf8Size_pos
    simp
    omega

theorem append_inj_of_utf8Length {cs cs' rest rest' : List Char}
    (eq : cs ++ rest = cs' ++ rest') (size : utf8Length cs = utf8Length cs') :
    cs = cs' ∧ rest = rest' := by
  induction cs generalizing cs' with
  | nil =>
    cases utf8Length_eq_zero_iff.1 size.symm
    exact ⟨rfl, eq⟩
  | cons c cs ih =>
    cases cs' with
    | nil => cases utf8Length_eq_zero_iff.1 size
    | cons c' cs' =>
      obtain ⟨rfl, tail⟩ := List.cons.inj eq
      obtain ⟨rfl, same⟩ := ih tail (Nat.add_left_cancel size)
      exact ⟨rfl, same⟩

theorem Blank.seam {g : List Char} (blank : Blank g) : Seam g :=
  fun c mem => isBlank_seam (isBlank_iff.2 (blank c (List.mem_of_mem_head? mem)))

theorem Tiles.stop_le {offset : Nat} {cs : List Char} {ts : List Token} (h : Tiles offset cs ts) :
    ∀ t ∈ ts.getLast?, t.span.stop ≤ offset + utf8Length cs := by
  intro t mem
  obtain ⟨front, g, rfl, -, -, last⟩ := h.exists_end
  rw [last t mem, utf8Length_append]
  omega

theorem Blank.getLast?_not_digit {g : List Char} (blank : Blank g) :
    ¬∃ d ∈ g.getLast?, d.isDigit :=
  fun ⟨d, last, digit⟩ => not_isBlank_of_isDigit digit
    (isBlank_iff.2 (blank d (List.mem_of_getLast? last)))

theorem Tiles.exists_digit_iff {offset : Nat} {cs : List Char} {ts : List Token}
    (h : Tiles offset cs ts) : (∃ d ∈ cs.getLast?, d.isDigit) ↔
      ∃ t ∈ ts.getLast?, t.span.stop = offset + utf8Length cs ∧ ∃ n, t.kind = .number n := by
  rcases h.exists_last with ⟨rfl, blank⟩ | ⟨front, t, g, rfl, last, writes, blank, place⟩
  · refine iff_of_false blank.getLast?_not_digit ?_
    rintro ⟨t, mem, -⟩
    cases mem
  · have ne : t.literal.toList ≠ [] := by
      obtain ⟨c, cs, eq, -⟩ := writes.head
      simp [eq]
    have stop : t.span.stop + utf8Length g =
        offset + utf8Length (front ++ (t.literal.toList ++ g)) := t.stop_add place g
    rw [← stop, last]
    by_cases close : g = []
    · subst close
      rw [List.append_nil, List.getLast?_append_of_ne_nil _ ne, ← writes.exists_number_iff]
      simp
    · rw [List.getLast?_append_of_ne_nil _ (by simp [close]),
        List.getLast?_append_of_ne_nil _ close]
      refine iff_of_false blank.getLast?_not_digit ?_
      rintro ⟨t', ⟨⟩, short, -⟩
      exact close (utf8Length_eq_zero_iff.1 (by omega))

section seam

/-! Whether a token goes on over the place. Only a number goes on with a digit, and only a spelling
that is the front of a longer one goes on with an equals sign. -/

variable {c : Char} {cs : List Char} {stop : Nat} {ts : List Token}

theorem Kind.endsBefore_digit_iff {k : Kind} (digit : c.isDigit) :
    k.EndsBefore (c :: cs) ↔ ∀ n, k ≠ .number n := by
  have ne : c ≠ '=' := by
    rintro rfl
    revert digit
    decide
  cases k <;> simp [EndsBefore, digit, ne]

theorem Kind.endsBefore_other_iff {k : Kind} (other : ¬c.isDigit) :
    k.EndsBefore (c :: cs) ↔ (c = '=' → ¬k.takesEqual) := by
  cases k with
  | number n => simp [EndsBefore, other, takesEqual]
  | binary | bang | leftParen | rightParen | ifWord | thenWord | elseWord =>
    constructor
    · rintro h rfl takes
      exact h takes rfl
    · intro h takes eq
      exact h (Option.some.inj eq) takes

theorem endsClear_digit_iff (digit : c.isDigit) : EndsClear stop ts (c :: cs) ↔
    ¬∃ t ∈ ts.getLast?, t.span.stop = stop ∧ ∃ n, t.kind = .number n := by
  simp only [EndsClear, Kind.endsBefore_digit_iff digit, not_exists, not_and, ne_eq]

theorem endsClear_other_iff (other : ¬c.isDigit) : EndsClear stop ts (c :: cs) ↔
    (c = '=' → ∀ t ∈ ts.getLast?, t.kind.takesEqual → t.span.stop ≠ stop) := by
  simp only [EndsClear, Kind.endsBefore_other_iff other]
  constructor
  · intro h equal t last takes close
    exact h t last close equal takes
  · intro h t last close equal takes
    exact h equal t last takes close

end seam

variable {text p q : String} {c : Char} {x : LexError}

/-- The text up to the place has tokens of its own, none of which goes on over it, and there is no
token to take there. -/
theorem impasse_iff : Impasse p c q x ↔ ∃ ts, tokenize p = .ok ts ∧
    EndsClear p.utf8ByteSize ts (c :: q.toList) ∧ ¬isBlank c ∧
    munch p.utf8ByteSize c q.toList = .error x := by
  constructor
  · intro h
    cases h with
    | character tokens seam visible other none =>
      exact ⟨_, tokens, (endsClear_other_iff other).2 seam, visible,
        munch_eq_error_iff.2 ⟨mark?_eq_none_iff.2 none, .inr ⟨other, rfl⟩⟩⟩
    | @numeral ts digits tokens last digit run large =>
      subst run
      have tiles := tiles_of_tokenize tokens
      have clear : EndsClear p.utf8ByteSize ts (c :: q.toList) := by
        rw [endsClear_digit_iff digit, utf8ByteSize_eq_utf8Length,
          ← Nat.zero_add (utf8Length p.toList), ← tiles.exists_digit_iff]
        exact fun ⟨d, mem, isDigit⟩ => last d mem isDigit
      exact ⟨ts, tokens, clear, not_isBlank_of_isDigit digit, munch_eq_error_iff.2
        ⟨mark?_of_isDigit digit _, .inl ⟨digit, value?_eq_none_iff.2 large, rfl⟩⟩⟩
  · rintro ⟨ts, tokens, clear, visible, munched⟩
    rcases munch_eq_error_iff.1 munched with ⟨none, ⟨digit, large, rfl⟩ | ⟨other, rfl⟩⟩
    · have tiles := tiles_of_tokenize tokens
      rw [endsClear_digit_iff digit, utf8ByteSize_eq_utf8Length,
        ← Nat.zero_add (utf8Length p.toList), ← tiles.exists_digit_iff] at clear
      exact .numeral tokens (fun d mem isDigit => clear ⟨d, mem, isDigit⟩) digit rfl
        (value?_eq_none_iff.1 large)
    · exact .character tokens ((endsClear_other_iff other).1 clear) visible other
        (mark?_eq_none_iff.1 none)

theorem split_iff :
    text = p ++ String.singleton c ++ q ↔ text.toList = p.toList ++ c :: q.toList := by
  rw [← String.toList_inj]
  simp

theorem Impasse.exists_run (h : Impasse p c q x) (eq : text = p ++ String.singleton c ++ q) :
    ∃ ts k, tokenize p = .ok ts ∧ Cursor.Yields (Cursor.ofString text) ts k ∧ k.FailsWith x := by
  obtain ⟨ts, tokens, clear, visible, munched⟩ := impasse_iff.1 h
  rw [utf8ByteSize_eq_utf8Length, ← Nat.zero_add (utf8Length p.toList)] at clear munched
  obtain ⟨g, k, blank, rest, place, run⟩ := (tiles_of_tokenize tokens).yields clear
  refine ⟨ts, k, tokens, ?_, Cursor.failsWith_iff.2 ⟨g, c, q.toList, blank, rest, visible, ?_⟩⟩
  · rwa [Cursor.ofString, split_iff.1 eq]
  · rwa [place]

theorem exists_impasse (h : tokenize text = .error x) :
    ∃ p c q, text = p ++ String.singleton c ++ q ∧ Impasse p c q x := by
  obtain ⟨ts, k, run, fails⟩ := Cursor.Yields.exists_of_error h
  obtain ⟨front, eq, offset, tiles, last⟩ := run.exists_front
  obtain ⟨g, c, cs, blank, rest, visible, munched⟩ := Cursor.failsWith_iff.1 fails
  have size : (String.ofList (front ++ g)).utf8ByteSize = k.offset + utf8Length g := by
    rw [utf8ByteSize_ofList, utf8Length_append, offset]
    exact congrArg (· + _) (Nat.zero_add _).symm
  refine ⟨String.ofList (front ++ g), c, String.ofList cs, ?_,
    impasse_iff.2 ⟨ts, ?_, ?_, visible, ?_⟩⟩
  · rw [split_iff]
    simpa [Cursor.ofString, rest] using eq
  · have tiles' := tiles.append (.gap blank) blank.seam
    rw [List.append_nil] at tiles'
    exact Cursor.tokens_of_tiles (by rwa [String.toList_ofList])
  · intro t mem stop
    have before := tiles.stop_le t mem
    have none : utf8Length g = 0 := by omega
    rw [utf8Length_eq_zero_iff.1 none, List.nil_append] at rest
    rw [String.toList_ofList, ← rest]
    exact last t mem
  · rwa [size, String.toList_ofList]

theorem Impasse.tokenize_eq (h : Impasse p c q x) (eq : text = p ++ String.singleton c ++ q) :
    tokenize text = .error x := by
  obtain ⟨ts, k, -, run, fails⟩ := h.exists_run eq
  rw [tokenize, run.tokens_eq, fails.tokens_eq]
  rfl

theorem Impasse.answers_eq (h : Impasse p c q x) (eq : text = p ++ String.singleton c ++ q) :
    ∃ ts, tokenize p = .ok ts ∧ (Cursor.ofString text).answers (ts.length + 1) =
      ts.map (fun t => some (.ok t)) ++ [some (.error x)] := by
  obtain ⟨ts, k, tokens, run, fails⟩ := h.exists_run eq
  have failure : k.answers 1 = [some (.error x)] := congrArg ([·]) fails
  exact ⟨ts, tokens, by rw [run.answers_eq, failure]⟩

theorem Impasse.offset_eq (h : Impasse p c q x) : x.span.offset = p.utf8ByteSize := by
  cases h <;> rfl

theorem Impasse.unique {p' q' : String} {c' : Char} {x' : LexError}
    (eq : text = p ++ String.singleton c ++ q) (eq' : text = p' ++ String.singleton c' ++ q')
    (h : Impasse p c q x) (h' : Impasse p' c' q' x') : p = p' ∧ c = c' ∧ q = q' := by
  cases (h.tokenize_eq eq).symm.trans (h'.tokenize_eq eq')
  have size : utf8Length p.toList = utf8Length p'.toList := by
    rw [← utf8ByteSize_eq_utf8Length, ← utf8ByteSize_eq_utf8Length, ← h.offset_eq, h'.offset_eq]
  have same := (split_iff.1 eq).symm.trans (split_iff.1 eq')
  obtain ⟨front, rest⟩ := append_inj_of_utf8Length same size
  obtain ⟨middle, behind⟩ := List.cons.inj rest
  exact ⟨String.toList_inj.1 front, middle, String.toList_inj.1 behind⟩

/-- A text has an error exactly if it comes to an impasse, and the error is the one of that place.
There is no other such place in it; the tokens in front of it are given before the error, and the
error of a numeral covers all its digits. -/
theorem tokenize_eq_error_iff_impasse (text : String) :
    (∀ x, tokenize text = .error x ↔
      ∃ p c q, text = p ++ String.singleton c ++ q ∧ Impasse p c q x) ∧
    (∀ p c q x p' c' q' x', text = p ++ String.singleton c ++ q →
      text = p' ++ String.singleton c' ++ q' → Impasse p c q x → Impasse p' c' q' x' →
      p = p' ∧ c = c' ∧ q = q') ∧
    (∀ p c q x, text = p ++ String.singleton c ++ q → Impasse p c q x →
      ∃ ts, tokenize p = .ok ts ∧ (Cursor.ofString text).answers (ts.length + 1) =
        ts.map (fun t => some (.ok t)) ++ [some (.error x)]) ∧
    ∀ literal offset, tokenize text = .error (.literalTooLarge literal offset) →
      (LexError.literalTooLarge literal offset).span.Covers text literal := by
  refine ⟨fun x => ⟨exists_impasse, ?_⟩, ?_, ?_, ?_⟩
  · rintro ⟨p, c, q, eq, h⟩
    exact h.tokenize_eq eq
  · intro p c q x p' c' q' x' eq eq' h h'
    exact h.unique eq eq' h'
  · intro p c q x eq h
    exact h.answers_eq eq
  · intro literal offset h
    exact literalTooLarge_covers h

theorem tokenize_eq_error_iff_impasse_either :
    let equals : LexError := .unexpectedCharacter '=' 6
    let large : LexError := .literalTooLarge "9223372036854775808" 2
    (Impasse "then<=" '=' "1" equals ∧ tokenize "then<==1" = .error equals) ∧
    Impasse "if" '9' "223372036854775808)" large ∧
      tokenize "if9223372036854775808)" = .error large ∧
      large.span.Covers "if9223372036854775808)" "9223372036854775808" := by
  intro equals large
  have h₁ : Impasse "then<=" '=' "1" equals := impasse_iff.2
    ⟨[⟨.thenWord, "then", 0⟩, ⟨.binary .lte, "<=", 4⟩], by decide +kernel,
      (endsClear_other_iff (by decide)).2 (by simp [Kind.takesEqual]), by decide, by decide +kernel⟩
  have h₂ : Impasse "if" '9' "223372036854775808)" large := by
    have tokens : tokenize "if" = .ok [⟨.ifWord, "if", 0⟩] := by decide +kernel
    have run : "9223372036854775808".toList =
        ('9' :: "223372036854775808)".toList).takeWhile Char.isDigit := by decide +kernel
    exact .numeral tokens (by simp) (by decide) run (by decide +kernel)
  have t₁ := ((tokenize_eq_error_iff_impasse "then<==1").1 equals).2 ⟨_, _, _, by decide, h₁⟩
  have t₂ := ((tokenize_eq_error_iff_impasse "if9223372036854775808)").1 large).2
    ⟨_, _, _, by decide, h₂⟩
  exact ⟨⟨h₁, t₁⟩, h₂, t₂, (tokenize_eq_error_iff_impasse _).2.2.2 _ _ t₂⟩

end CondCalc
