import CondCalc.Proofs.Calculation.Stages
import CondCalc.Proofs.Lexis.Failure
import CondCalc.Proofs.Modes.Check
import CondCalc.Proofs.Syntax.Blame
import CondCalc.Report

/-! Where the labels of an error point. An error either stands at a character or numeral that is no
token, or it names a token of the text, or it stands at the end; and the span of each is its
place in the text. -/
namespace CondCalc

def Error.spans (x : Error) : List Span :=
  x.report.labels.map Label.span

/-- The one label of an error covers what the error names, or stands at the end of the last token
where it found none. An error that is about the whole text has no label. -/
def Error.PointsInto (text : String) (x : Error) : Prop :=
  match x with
  | .lexical (.unexpectedCharacter c index) =>
    x.spans = [⟨index, c.utf8Size⟩] ∧
      Span.Covers ⟨index, c.utf8Size⟩ text (String.singleton c) ∧
      String.Pos.Raw.get text ⟨index⟩ = c
  | .lexical (.literalTooLarge literal _) => ∃ s, x.spans = [s] ∧ s.Covers text literal
  | .mode (.forbidden _ _ t) => ∃ s, x.spans = [s] ∧ s.Covers text t.literal
  | .mode .missingConditional => x.spans = []
  | .syntactic ⟨_, some t, _⟩ => ∃ s, x.spans = [s] ∧ s.Covers text t.literal
  | .syntactic ⟨_, none, _⟩ => ∃ s ts, x.spans = [s] ∧ tokenize text = .ok ts ∧ s.Closes text ts
  | .evaluation _ => x.spans = []

variable {text : String} {ts : List Token}

theorem LexError.pointsInto {e : LexError} (h : tokenize text = .error e) :
    (Error.lexical e).PointsInto text := by
  cases e with
  | unexpectedCharacter c index => exact ⟨rfl, unexpectedCharacter_covers h⟩
  | literalTooLarge literal offset => exact ⟨_, rfl, literalTooLarge_covers h⟩

theorem ModeError.pointsInto {m : Mode} {e : ModeError} (tokens : tokenize text = .ok ts)
    (h : m.check ts = .error e) : (Error.mode e).PointsInto text := by
  rcases Mode.check_eq_error_iff.1 h with ⟨before, t, after, eq, objects, -⟩ | ⟨-, -, -, rfl⟩
  · obtain ⟨f, -, -, rfl⟩ := Mode.objection?_eq_some_iff.1 objects
    exact ⟨_, rfl, Token.span_covers tokens (by simp [eq])⟩
  · rfl

theorem SyntaxError.pointsInto {e : SyntaxError} (tokens : tokenize text = .ok ts)
    (h : Expr.ofTokens ts = .error e) : (Error.syntactic e).PointsInto text := by
  obtain ⟨expected, found, span⟩ := e
  rcases span_of_ofTokens_error h with ⟨t, mem, rfl, rfl⟩ | ⟨rfl, rfl⟩
  · exact ⟨_, rfl, Token.span_covers tokens mem⟩
  · exact ⟨_, ts, rfl, tokens, endOffset_closes tokens⟩

/-- Every label of an error shows the text that the error names. -/
theorem calculate_error_pointsInto (text : String) (mode : Option Mode) (x : Error)
    (h : calculate text mode = .error x) : x.PointsInto text := by
  rcases calculate_eq_error_iff.1 h with ⟨e, failed, rfl⟩ | ⟨ts, tokens,
    ⟨m, -, e, failed, rfl⟩ | ⟨-, ⟨e, failed, rfl⟩ | ⟨tree, -, e, -, rfl⟩⟩⟩
  · exact LexError.pointsInto failed
  · exact ModeError.pointsInto tokens failed
  · exact SyntaxError.pointsInto tokens failed
  · cases e <;> rfl

theorem calculate_error_pointsInto_either_end :
    let unexpected : Error := .lexical (.unexpectedCharacter 'é' 2)
    let unclosed : Error := .syntactic ⟨.closeParen, none, ⟨8, 0⟩⟩
    (calculate "1+é" (some .logical) = .error unexpected ∧ unexpected.PointsInto "1+é") ∧
      calculate "(7 <= 12 \t" none = .error unclosed ∧ unclosed.PointsInto "(7 <= 12 \t" := by
  intro unexpected unclosed
  have h₁ : calculate "1+é" (some .logical) = .error unexpected :=
    calculate_eq_error_iff.2 (.inl ⟨_, by decide +kernel, rfl⟩)
  have h₂ : calculate "(7 <= 12 \t" none = .error unclosed := by
    refine calculate_eq_error_iff.2 (.inr ⟨[⟨.leftParen, "(", 0⟩, ⟨.number 7, "7", 1⟩,
      ⟨.binary .lte, "<=", 3⟩, ⟨.number 12, "12", 6⟩], by decide +kernel, .inr ⟨by simp, .inl ?_⟩⟩)
    exact ⟨_, Expr.ofTokens_eq_error.2 ⟨⟨.closeParen, []⟩, by cbv, by decide⟩, rfl⟩
  exact ⟨⟨h₁, calculate_error_pointsInto _ _ _ h₁⟩, h₂, calculate_error_pointsInto _ _ _ h₂⟩

end CondCalc
