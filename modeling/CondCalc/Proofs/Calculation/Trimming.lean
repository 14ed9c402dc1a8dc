import CondCalc.Command.Response
import CondCalc.Proofs.Calculation.Relabelling
import CondCalc.Proofs.Calculation.Stages
import CondCalc.Proofs.Lexis.Trimming

/-! The answer to a text with white space around it and without. Behind the tokenizer every stage
takes tokens to what it took them to where they stood before, with the same places moved, so the
whole answer moves with the tokens. Only the end of a text without any token stays where it is. -/
namespace CondCalc

/-! The same things `n` bytes later. -/

def Span.shift (n : Nat) (s : Span) : Span :=
  ⟨n + s.offset, s.length⟩

def ModeError.shift (n : Nat) : ModeError → ModeError
  | forbidden mode family token => .forbidden mode family (token.shift n)
  | missingConditional => .missingConditional

def SyntaxError.shift (n : Nat) (x : SyntaxError) : SyntaxError :=
  { x with found := x.found.map (Token.shift n), span := x.span.shift n }

def Error.shift (n : Nat) : Error → Error
  | lexical e => .lexical (e.shift n)
  | syntactic e => .syntactic (e.shift n)
  | mode e => .mode (e.shift n)
  | evaluation e => .evaluation e

def Outcome.shift (n : Nat) (o : Outcome) : Outcome :=
  { o with tokens := o.tokens.map (Token.shift n) }

def Report.shift (n : Nat) (r : Report) : Report :=
  { r with labels := r.labels.map fun l => { l with span := l.span.shift n } }

/-- The error is the other one `n` bytes later: of the same stage, and reported alike except that
every label has moved. -/
structure Error.Later (n : Nat) (x y : Error) : Prop where
  eq : x = y.shift n
  stage_eq : x.stage = y.stage
  report_eq : x.report = y.report.shift n

theorem Error.later_shift {y : Error} (h : ∀ e, y ≠ .lexical e) (n : Nat) :
    (y.shift n).Later n y := by
  cases y with
  | lexical e => exact absurd rfl (h e)
  | syntactic e =>
    obtain ⟨expected, found, span⟩ := e
    cases found <;> exact ⟨rfl, rfl, rfl⟩
  | mode e => cases e <;> exact ⟨rfl, rfl, rfl⟩
  | evaluation e => cases e <;> exact ⟨rfl, rfl, rfl⟩

theorem LexError.report_shift (n : Nat) (y : LexError) :
    (y.shift n).report = { y.report.shift n with message := (y.shift n).report.message } := by
  cases y <;> rfl

section stages

variable {n : Nat} {ts : List Token}

theorem sameKinds_shift (n : Nat) (ts : List Token) : SameKinds (ts.map (Token.shift n)) ts := by
  induction ts with
  | nil => exact .nil
  | cons t ts ih => exact .cons rfl ih

theorem operatorLiterals_shift (n : Nat) (ts : List Token) :
    operatorLiterals (ts.map (Token.shift n)) = operatorLiterals ts := by
  simp only [operatorLiterals, List.filter_map, List.map_map]
  rfl

theorem endOffset_shift (ne : ts ≠ []) : endOffset (ts.map (Token.shift n)) = n + endOffset ts := by
  rw [endOffset, endOffset, List.getLast?_map, List.getLast?_eq_some_getLast ne]
  exact Token.span_shift_stop _ n

namespace SyntaxError.StandsAt

variable {x y : SyntaxError} {i : Nat}

theorem eq_of_expected (h : x.StandsAt ts i) (h' : y.StandsAt ts i)
    (expected : x.expected = y.expected) : x = y := by
  have found : x.found = y.found := h.found_eq.trans h'.found_eq.symm
  have span : x.span = y.span := h.span_eq.trans h'.span_eq.symm
  cases x
  cases y
  simp_all

theorem shift (h : x.StandsAt ts i) (ne : ts ≠ []) :
    (x.shift n).StandsAt (ts.map (Token.shift n)) i where
  index_le := by
    rw [List.length_map]
    exact h.index_le
  found_eq := by
    rw [SyntaxError.shift, h.found_eq, List.getElem?_map]
  span_eq := by
    rw [SyntaxError.shift, h.span_eq, List.getElem?_map, endOffset_shift ne]
    cases ts[i]? <;> rfl

end SyntaxError.StandsAt

theorem Mode.check_shift (m : Mode) (n : Nat) (ts : List Token) :
    Matches (· = ·) (fun x y => x = y.shift n) (m.check (ts.map (Token.shift n))) (m.check ts) := by
  refine (m.check_alike (sameKinds_shift n ts)).mono fun x y alike => ?_
  cases alike with
  | @forbidden t t' mode family i at_t at_t' =>
    rw [List.getElem?_map, at_t'] at at_t
    cases at_t
    rfl
  | missingConditional => rfl

theorem checkMode_shift (mode : Option Mode) (n : Nat) (ts : List Token) :
    Matches (· = ·) (Error.Later n) (checkMode mode (ts.map (Token.shift n)))
      (checkMode mode ts) := by
  cases mode with
  | none => rfl
  | some m => exact (m.check_shift n ts).mapError fun _ y eq =>
      eq ▸ Error.later_shift (y := .mode y) (by simp) n

theorem ofTokens_shift (ne : ts ≠ []) : Matches (· = ·) (fun x y => x = y.shift n)
    (Expr.ofTokens (ts.map (Token.shift n))) (Expr.ofTokens ts) := by
  have alike := ofTokens_alike (sameKinds_shift n ts)
  rcases alike.cases with ⟨e, e', read, read', same⟩ | ⟨x, y, refused, refused', same⟩
  · rw [read, read']
    refine same.eq_of_literals ?_
    rw [literals_of_ofTokens read, literals_of_ofTokens read', operatorLiterals_shift]
  · rw [refused, refused']
    obtain ⟨expected, i, place, place'⟩ := same
    exact place.eq_of_expected (place'.shift ne) expected

theorem treeOf_shift (ne : ts ≠ []) :
    Matches (· = ·) (Error.Later n) (treeOf (ts.map (Token.shift n))) (treeOf ts) :=
  (ofTokens_shift ne).mapError fun _ y eq =>
    eq ▸ Error.later_shift (y := .syntactic y) (by simp) n

theorem valueOf_shift (tree : Expr) (n : Nat) :
    Matches (· = ·) (Error.Later n) (valueOf tree) (valueOf tree) := by
  rw [valueOf]
  cases tree.eval with
  | ok v => rfl
  | error e => exact Error.later_shift (y := .evaluation e) (by simp) n

end stages

section calculate

variable {text text' : String} {ts : List Token}

theorem calculate_shift {n : Nat} (tokens : tokenize text = .ok (ts.map (Token.shift n)))
    (tokens' : tokenize text' = .ok ts) (ne : ts ≠ []) (mode : Option Mode) :
    Matches (fun o o' => o = o'.shift n) (Error.Later n) (calculate text mode)
      (calculate text' mode) := by
  have start : tokensOf text = .ok (ts.map (Token.shift n)) := mapError_eq_ok_iff.2 tokens
  have start' : tokensOf text' = .ok ts := mapError_eq_ok_iff.2 tokens'
  rw [calculate, calculate, start, start', ok_bind, ok_bind]
  refine (checkMode_shift mode n ts).bind fun _ _ _ => ?_
  refine (treeOf_shift ne).bind fun tree tree' eq => ?_
  subst eq
  refine (valueOf_shift tree n).bind fun value value' eq => ?_
  subst eq
  rfl

theorem calculate_eq_of_tokenize_eq (h : tokenize text = tokenize text') (mode : Option Mode) :
    calculate text mode = calculate text' mode := by
  rw [calculate, calculate, tokensOf, tokensOf, h]

theorem span_of_tokenize_nil {mode : Option Mode} {x : SyntaxError} (none : tokenize text = .ok [])
    (h : calculate text mode = .error (.syntactic x)) : x.span = ⟨0, 0⟩ := by
  rcases calculate_eq_error_iff.1 h with ⟨e, -, eq⟩ | ⟨ts, tokens, ⟨m, -, e, -, eq⟩ |
    ⟨-, ⟨e, refused, eq⟩ | ⟨tree, -, e, -, eq⟩⟩⟩
  · cases eq
  · cases eq
  · cases eq
    cases none.symm.trans tokens
    rcases span_of_ofTokens_error refused with ⟨t, mem, -⟩ | ⟨-, span⟩
    · cases mem
    · exact span
  · cases eq

/-- White space around a text changes no answer. The answer to the text without it is that to the
whole text with all places as many bytes earlier as there were in front; where there is no token,
the same. And an error of the tokenizer that is not at the white space stays the error. -/
theorem calculate_trim (text : String) (mode : Option Mode) :
    (tokenize text = .ok [] → calculate (trim text) mode = calculate text mode ∧
      ∀ x, calculate text mode = .error (.syntactic x) → x.span = ⟨0, 0⟩) ∧
    (∀ ts, tokenize text = .ok ts → ts ≠ [] →
      Matches (fun o o' => o = o'.shift (trimmedBytes text)) (Error.Later (trimmedBytes text))
        (calculate text mode) (calculate (trim text) mode)) ∧
    ∀ x, tokenize text = .error x → trimmedBytes text ≤ x.span.offset →
      x.span.offset < trimmedBytes text + (trim text).utf8ByteSize →
      ∃ y, calculate (trim text) mode = .error (.lexical y) ∧ x = y.shift (trimmedBytes text) ∧
        x.report = { y.report.shift (trimmedBytes text) with message := x.report.message } := by
  refine ⟨fun none => ⟨?_, fun x failed => span_of_tokenize_nil none failed⟩, ?_, ?_⟩
  · obtain ⟨us, tokens, eq⟩ := tokenize_trim_of_ok none
    rw [List.nil_eq, List.map_eq_nil_iff] at eq
    exact calculate_eq_of_tokenize_eq (by rw [tokens, none, eq]) mode
  · intro ts tokens ne
    obtain ⟨us, tokens', rfl⟩ := tokenize_trim_of_ok tokens
    exact calculate_shift tokens tokens' (by simpa using ne) mode
  · intro x failed behind before
    obtain ⟨y, failed', rfl⟩ := tokenize_trim_of_error failed behind before
    exact ⟨y, calculate_eq_error_iff.2 (.inl ⟨y, failed', rfl⟩), rfl, y.report_shift _⟩

end calculate

theorem calculate_trim_at_ends :
    let open7 : List Token := [⟨.leftParen, "(", 2⟩, ⟨.number 7, "7", 3⟩]
    let half : LexError := .unexpectedCharacter '&' 2
    (tokenize " \t" = .ok [] ∧
      calculate (trim " \t") none = calculate " \t" none ∧
      ∀ x, calculate " \t" none = .error (.syntactic x) → x.span = ⟨0, 0⟩) ∧
    (tokenize "\t (7  " = .ok open7 ∧ open7 ≠ [] ∧
      Matches (fun o o' => o = o'.shift (trimmedBytes "\t (7  "))
        (Error.Later (trimmedBytes "\t (7  ")) (calculate "\t (7  " none)
        (calculate (trim "\t (7  ") none)) ∧
    (tokenize " 9&\n" = .error half ∧ trimmedBytes " 9&\n" ≤ half.span.offset ∧
      half.span.offset < trimmedBytes " 9&\n" + (trim " 9&\n").utf8ByteSize ∧
      ∃ y, calculate (trim " 9&\n") none = .error (.lexical y) ∧
        half = y.shift (trimmedBytes " 9&\n") ∧ half.report =
          { y.report.shift (trimmedBytes " 9&\n") with message := half.report.message }) := by
  intro open7 half
  have h₁ : tokenize " \t" = .ok [] := by decide +kernel
  have h₂ : tokenize "\t (7  " = .ok open7 := by decide +kernel
  have h₃ : tokenize " 9&\n" = .error half := by decide +kernel
  have behind : trimmedBytes " 9&\n" ≤ half.span.offset := by decide +kernel
  have before : half.span.offset < trimmedBytes " 9&\n" + (trim " 9&\n").utf8ByteSize := by
    decide +kernel
  obtain ⟨same, -⟩ := calculate_trim " \t" none
  obtain ⟨-, moved, -⟩ := calculate_trim "\t (7  " none
  obtain ⟨-, -, failed⟩ := calculate_trim " 9&\n" none
  exact ⟨⟨h₁, same h₁⟩, ⟨h₂, by simp [open7], moved _ h₂ (by simp [open7])⟩,
    h₃, behind, before, failed _ h₃ behind before⟩

end CondCalc
