import CondCalc.Proofs.Syntax.Reading

/-! What a syntax error points at, also one about the nesting: the tokens from the refused one on
are an end of the list, so the refused token is one of the list and the error has its span. -/
namespace CondCalc

namespace Climb

theorem Takes.rest_suffix {phrase : Phrase} {nesting : Nat} {ts : List Token} {p : Parsed}
    (h : Takes phrase nesting ts p) : p.rest <:+ ts := by
  obtain ⟨front, eq, -⟩ := h
  exact ⟨front, eq.symm⟩

theorem Takes.after_suffix {phrase : Phrase} {nesting : Nat} {ts rest : List Token} {t : Token}
    {p : Parsed} (h : Takes phrase nesting ts p) (eq : p.rest = t :: rest) : rest <:+ ts := by
  have taken := h.rest_suffix
  rw [eq] at taken
  exact (List.suffix_cons t rest).trans taken

/-- One case for each branch, as for `takes_of_ok`; a call that succeeded before the failing one
has left an end of its tokens. -/
theorem remaining_suffix_of_error :
    (∀ nesting ts u, conditional nesting ts = .error u → u.remaining <:+ ts) ∧
    (∀ nesting least ts u, within nesting least ts = .error u → u.remaining <:+ ts) ∧
    (∀ nesting least lhs height ts u, chain nesting least lhs height ts = .error u →
      u.remaining <:+ ts) ∧
    (∀ nesting ts u, factor nesting ts = .error u → u.remaining <:+ ts) := by
  refine conditional.mutual_induct _ _ _ _ ?bare ?plain ?within ?operator ?looser ?other
    ?number ?bang ?bangDeep ?paren ?parenDeep ?neither
  case bare =>
    intro nesting l₁ o₁ ts ihc ih u h
    rcases conditional_if_eq_error_iff.1 h with hc | ⟨c, hc, hw | ⟨l₂, o₂, ts₂, eq₂, ht |
      ⟨b, hb, hw | ⟨l₃, o₃, ts₃, eq₃, he | ⟨e, -, -, rfl⟩⟩⟩⟩⟩
    · exact (ihc u hc).trans (List.suffix_cons _ _)
    · obtain ⟨-, rfl⟩ := expect_eq_error_iff.1 hw
      exact (within_takes (Nat.zero_le 6) hc).rest_suffix.trans (List.suffix_cons _ _)
    · have condition := (within_takes (Nat.zero_le 6) hc).after_suffix eq₂
      exact (ih ts₂ u ht).trans (condition.trans (List.suffix_cons _ _))
    · have condition := (within_takes (Nat.zero_le 6) hc).after_suffix eq₂
      obtain ⟨-, rfl⟩ := expect_eq_error_iff.1 hw
      exact (within_takes (Nat.zero_le 6) hb).rest_suffix.trans
        (condition.trans (List.suffix_cons _ _))
    · have condition := (within_takes (Nat.zero_le 6) hc).after_suffix eq₂
      have first := (within_takes (Nat.zero_le 6) hb).after_suffix eq₃
      exact (ih ts₃ u he).trans (first.trans (condition.trans (List.suffix_cons _ _)))
    · exact List.suffix_refl _
  case plain =>
    intro nesting ts noIf ih u h
    rw [conditional_eq_within noIf] at h
    exact ih u h
  case within =>
    intro nesting least ts ihf ihc u h
    rcases within_eq_error_iff.1 h with hf | ⟨x, hx, hc⟩
    · exact ihf u hf
    · exact (ihc x u hc).trans (factor_takes hx).rest_suffix
  case operator =>
    intro nesting least lhs height op literal offset ts le ihw ihc u h
    rcases (chain_binary_eq_error_iff le).1 h with hw | ⟨rhs, hr, ⟨-, rfl⟩ | ⟨lt, hc⟩⟩
    · exact (ihw u hw).trans (List.suffix_cons _ _)
    · exact List.suffix_refl _
    · exact (ihc rhs lt u hc).trans
        ((within_takes op.level_lt_six hr).rest_suffix.trans (List.suffix_cons _ _))
  case looser =>
    intro nesting least lhs height op literal offset ts lt u h
    rw [chain_of_stops (stops_binary.2 (Nat.not_le.1 lt))] at h
    cases h
  case other =>
    intro nesting least lhs height ts noOperator u h
    rw [chain_of_stops fun op l o rest eq => (noOperator op l o rest eq).elim] at h
    cases h
  case number =>
    intro nesting n literal offset ts u h
    rw [factor] at h
    cases h
  case bang =>
    intro nesting literal offset ts lt ih u h
    rcases factor_bang_eq_error_iff.1 h with ⟨-, rfl⟩ | ⟨-, hx | ⟨x, -, -, rfl⟩⟩
    · exact List.suffix_refl _
    · exact (ih u hx).trans (List.suffix_cons _ _)
    · exact List.suffix_refl _
  case bangDeep =>
    intro nesting literal offset ts deep u h
    rcases factor_bang_eq_error_iff.1 h with ⟨-, rfl⟩ | ⟨lt, -⟩
    · exact List.suffix_refl _
    · exact absurd lt deep
  case paren =>
    intro nesting literal offset ts lt ih u h
    rcases factor_paren_eq_error_iff.1 h with ⟨-, rfl⟩ | ⟨-, hx | ⟨x, hx, hw⟩⟩
    · exact List.suffix_refl _
    · exact (ih u hx).trans (List.suffix_cons _ _)
    · obtain ⟨-, rfl⟩ := expect_eq_error_iff.1 hw
      exact (conditional_takes hx).rest_suffix.trans (List.suffix_cons _ _)
  case parenDeep =>
    intro nesting literal offset ts deep u h
    rcases factor_paren_eq_error_iff.1 h with ⟨-, rfl⟩ | ⟨lt, -⟩
    · exact List.suffix_refl _
    · exact absurd lt deep
  case neither =>
    intro nesting ts notNumber notBang notParen u h
    rw [factor_eq_error_of_ne notNumber notBang notParen] at h
    cases h
    exact List.suffix_refl _

theorem whole_remaining_suffix {ts : List Token} {u : Unexpected} (h : whole ts = .error u) :
    u.remaining <:+ ts := by
  rcases whole_eq_error_iff.1 h with hc | ⟨x, hx, -, rfl⟩
  · exact remaining_suffix_of_error.1 0 ts u hc
  · exact (conditional_takes hx).rest_suffix

end Climb

/-- The error stands at the token with the index, or behind the last one if there is none. -/
structure SyntaxError.StandsAt (x : SyntaxError) (ts : List Token) (i : Nat) : Prop where
  index_le : i ≤ ts.length
  found_eq : x.found = ts[i]?
  span_eq : x.span = (ts[i]?.map Token.span).getD ⟨endOffset ts, 0⟩

theorem Unexpected.locate_standsAt {ts : List Token} {u : Unexpected} (h : u.remaining <:+ ts) :
    (u.locate ts).StandsAt ts (ts.length - u.remaining.length) := by
  have next : ts[ts.length - u.remaining.length]? = u.remaining.head? := by
    rw [← List.head?_drop, ← List.suffix_iff_eq_drop.1 h]
  refine ⟨Nat.sub_le _ _, ?_, ?_⟩
  · rw [next, u.locate_found]
  · rw [next, locate]
    cases u.remaining <;> rfl

theorem span_of_ofTokens_error {ts : List Token} {x : SyntaxError}
    (h : Expr.ofTokens ts = .error x) :
    (∃ t ∈ ts, x.found = some t ∧ x.span = t.span) ∨
      x.found = none ∧ x.span = ⟨endOffset ts, 0⟩ := by
  obtain ⟨u, hu, rfl⟩ := Expr.ofTokens_eq_error.1 h
  have suffix := Climb.whole_remaining_suffix hu
  unfold Unexpected.locate
  split
  next t rest eq =>
    rw [eq] at suffix
    exact .inl ⟨t, suffix.subset List.mem_cons_self, rfl, rfl⟩
  next => exact .inr ⟨rfl, rfl⟩

end CondCalc
