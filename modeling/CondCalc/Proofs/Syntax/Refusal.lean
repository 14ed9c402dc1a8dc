import CondCalc.Proofs.Syntax.Reading

/-! Where a list of tokens is refused. In front of the refused token everything can still become
a phrase, in particular by any token that was expected; and the refusal is final, for no other
tokens after the refused one would change it. A derivation would be read back, so nothing that
starts like this is derivable. Refusals of the nesting are no refusals by the grammar and stand
apart. -/
namespace CondCalc

/-- The kinds of token that an expectation asks for. -/
def Expectation.Admits : Expectation → Kind → Prop
  | factor, k => (∃ n, k = .number n) ∨ k = .bang ∨ k = .leftParen
  | thenWord, k => k = .thenWord
  | elseWord, k => k = .elseWord
  | closeParen, k => k = .rightParen
  | endOfInput, _ | shallowerNesting, _ => False

namespace Begins

theorem intro {budget : Nat} {phrase : Phrase} {ts : List Token} {e : Expr}
    (h : Derives budget phrase ts e) : Begins phrase ts :=
  ⟨budget, [], e, by rwa [List.append_nil]⟩

theorem of_append {phrase : Phrase} {ts us : List Token} (h : Begins phrase (ts ++ us)) :
    Begins phrase ts := by
  obtain ⟨budget, vs, e, d⟩ := h
  exact ⟨budget, us ++ vs, e, by rwa [← List.append_assoc]⟩

theorem loosen {l m : Nat} {ts : List Token} (h : Begins (.level m) ts) (le : l ≤ m) :
    Begins (.level l) ts := by
  obtain ⟨budget, us, e, d⟩ := h
  exact ⟨budget, us, e, d.loosen le⟩

theorem plain {ts : List Token} (h : Begins (.level 0) ts) : Begins .conditional ts := by
  obtain ⟨budget, us, e, d⟩ := h
  exact ⟨budget, us, e, .plain d⟩

theorem not {ts : List Token} (literal : String) (offset : Nat) (h : Begins .factor ts) :
    Begins .factor (⟨.bang, literal, offset⟩ :: ts) := by
  obtain ⟨budget, us, e, d⟩ := h
  exact ⟨budget + 1, us, .not literal e, .not literal offset d⟩

theorem paren {ts : List Token} (literal : String) (offset : Nat) (h : Begins .conditional ts) :
    Begins .factor (⟨.leftParen, literal, offset⟩ :: ts) := by
  obtain ⟨budget, us, e, d⟩ := h
  have := Derives.paren literal ")" offset 0 d
  rw [List.append_assoc] at this
  exact ⟨budget + 1, us ++ [⟨.rightParen, ")", 0⟩], e, this⟩

theorem rhs {budget l : Nat} {ls ts : List Token} {lhs : Expr} {op : Operator}
    (literal : String) (offset : Nat) (left : Derives budget (.level l) ls lhs)
    (le : op.level ≤ l) (h : Begins (.level (op.level + 1)) ts) :
    Begins (.level op.level) (ls ++ ⟨.binary op, literal, offset⟩ :: ts) := by
  obtain ⟨budget', us, e, d⟩ := h
  have := Derives.binary op literal offset rfl
    ((left.loosen le).mono (Nat.le_max_left budget budget')) (d.mono (Nat.le_max_right _ _))
  exact ⟨max budget budget', us, _, by rwa [List.append_assoc]⟩

theorem nil {l : Nat} (le : l ≤ 6) : Begins (.level l) [] :=
  ⟨0, [⟨.number 0, "0", 0⟩], .number 0, (Derives.number 0 0 "0" 0).loosen le⟩

theorem condition {ts : List Token} (literal : String) (offset : Nat) (h : Begins (.level 0) ts) :
    Begins .conditional (⟨.ifWord, literal, offset⟩ :: ts) := by
  obtain ⟨budget, us, e, d⟩ := h
  have zero : Derives budget (.level 0) [⟨.number 0, "0", 0⟩] (.number 0) :=
    (Derives.number budget 0 "0" 0).loosen (Nat.zero_le 6)
  have := Derives.cond literal "then" "else" offset 0 0 d zero zero
  rw [List.append_assoc] at this
  exact ⟨budget, _, _, this⟩

theorem thenBranch {budget : Nat} {cs ts : List Token} {c : Expr} (l₁ l₂ : String) (o₁ o₂ : Nat)
    (left : Derives budget (.level 0) cs c) (h : Begins (.level 0) ts) :
    Begins .conditional (⟨.ifWord, l₁, o₁⟩ :: (cs ++ ⟨.thenWord, l₂, o₂⟩ :: ts)) := by
  obtain ⟨budget', us, e, d⟩ := h
  have zero : Derives (max budget budget') (.level 0) [⟨.number 0, "0", 0⟩] (.number 0) :=
    (Derives.number _ 0 "0" 0).loosen (Nat.zero_le 6)
  have := Derives.cond l₁ l₂ "else" o₁ o₂ 0 (left.mono (Nat.le_max_left budget budget'))
    (d.mono (Nat.le_max_right _ _)) zero
  refine ⟨max budget budget', us ++ [⟨.elseWord, "else", 0⟩, ⟨.number 0, "0", 0⟩],
    .cond c e (.number 0), ?_⟩
  simpa using this

theorem elseBranch {budget budget' : Nat} {cs bs ts : List Token} {c b : Expr}
    (l₁ l₂ l₃ : String) (o₁ o₂ o₃ : Nat) (dc : Derives budget (.level 0) cs c)
    (db : Derives budget' (.level 0) bs b) (h : Begins (.level 0) ts) :
    Begins .conditional
      (⟨.ifWord, l₁, o₁⟩ :: (cs ++ ⟨.thenWord, l₂, o₂⟩ :: (bs ++ ⟨.elseWord, l₃, o₃⟩ :: ts))) := by
  obtain ⟨budget'', us, e, d⟩ := h
  have := Derives.cond l₁ l₂ l₃ o₁ o₂ o₃ (dc.mono (Nat.le_add_right budget (budget' + budget'')))
    (db.mono (by omega)) (d.mono (by omega))
  refine ⟨budget + (budget' + budget''), us, .cond c b e, ?_⟩
  simpa using this

theorem of_admits {t : Token} (h : Expectation.factor.Admits t.kind) : Begins .factor [t] := by
  obtain ⟨kind, literal, offset⟩ := t
  rcases h with ⟨n, rfl⟩ | rfl | rfl
  · exact intro (.number 0 n literal offset)
  · exact not literal offset (nil (Nat.le_refl 6))
  · exact paren literal offset (nil (Nat.zero_le 6)).plain

end Begins

namespace Climb

/-- The refusal depends on nothing after the refused token. -/
def Final (parse : List Token → Except Unexpected Parsed) (front : List Token)
    (u : Unexpected) : Prop :=
  ∀ t rest us, u.remaining = t :: rest → parse (front ++ t :: us) = .error ⟨u.expected, t :: us⟩

/-- The call refuses `ts` behind a front that, together with the tokens `before` it, can be
continued by whatever was expected, and something was. -/
def Refuses (phrase : Phrase) (before : List Token)
    (parse : List Token → Except Unexpected Parsed) (ts : List Token) (u : Unexpected) : Prop :=
  (∃ kind, u.expected.Admits kind) ∧ ∃ front, ts = front ++ u.remaining ∧ Final parse front u ∧
    ∀ t, u.expected.Admits t.kind → Begins phrase (before ++ (front ++ [t]))

namespace Refuses

variable {phrase phrase' : Phrase} {before before' ts : List Token}
  {parse inner : List Token → Except Unexpected Parsed} {u : Unexpected}

/-- A call refuses what a call inside it refuses; `wrap` puts the tokens in front that it has
read itself. -/
theorem of_inner (wrap : List Token → List Token)
    (append : ∀ xs ys, wrap xs ++ ys = wrap (xs ++ ys)) (h : Refuses phrase' before' inner ts u)
    (lift : ∀ front t rest us v, ts = front ++ t :: rest →
      inner (front ++ t :: us) = .error v → parse (wrap (front ++ t :: us)) = .error v)
    (begins : ∀ xs, Begins phrase' (before' ++ xs) → Begins phrase (before ++ wrap xs)) :
    Refuses phrase before parse (wrap ts) u := by
  obtain ⟨asked, front, eq, final, continues⟩ := h
  refine ⟨asked, wrap front, by rw [append, eq], ?_, ?_⟩
  · intro t rest us ht
    rw [append]
    exact lift front t rest us _ (by rw [eq, ht]) (final t rest us ht)
  · intro t admits
    rw [append]
    exact begins _ (continues t admits)

theorem of_expect (wrap : List Token → List Token)
    (append : ∀ xs ys, wrap xs ++ ys = wrap (xs ++ ys)) {kind : Kind} {x : Expectation}
    (h : expect kind x ts = .error u) (asked : x.Admits kind)
    (lift : ∀ t rest us v, ts = t :: rest →
      expect kind x (t :: us) = .error v → parse (wrap (t :: us)) = .error v)
    (begins : ∀ t, x.Admits t.kind → Begins phrase (before ++ wrap [t])) :
    Refuses phrase before parse (wrap ts) u := by
  obtain ⟨ne, rfl⟩ := expect_eq_error_iff.1 h
  refine ⟨⟨kind, asked⟩, wrap [], by rw [append]; rfl, ?_, ?_⟩
  · rintro t rest us rfl
    rw [append]
    exact lift t rest us _ rfl (expect_eq_error_iff.2 ⟨by simpa using ne, rfl⟩)
  · intro t admits
    rw [append]
    exact begins t admits

end Refuses

/-- Every error of the call is a refusal, unless it is about the nesting. -/
def Refusing (phrase : Phrase) (before : List Token)
    (parse : List Token → Except Unexpected Parsed) (ts : List Token) : Prop :=
  ∀ u, parse ts = .error u → u.expected ≠ .shallowerNesting → Refuses phrase before parse ts u

def ChainRefusing (nesting least : Nat) (lhs : Expr) (height : Nat) (ts : List Token) : Prop :=
  ∀ budget before l, least ≤ l → Stops (l + 1) ts → Derives budget (.level l) before lhs →
    Refusing (.level least) before (chain nesting least lhs height) ts

section cases

/-! One lemma for each kind of call. The calls inside it that succeeded before the refusal succeed
again in front of other tokens, because the next token, which ends them, is the same. -/

variable {nesting least height : Nat} {lhs : Expr} {op : Operator} {ts : List Token}
  (l₁ : String) (o₁ : Nat)

theorem refusing_conditional_if (refusing : ∀ ts, Refusing (.level 0) [] (within nesting 0) ts) :
    Refusing .conditional [] (conditional nesting) (⟨.ifWord, l₁, o₁⟩ :: ts) := by
  intro u h other
  rcases conditional_if_eq_error_iff.1 h with hc | ⟨c, hc, hw | ⟨l₂, o₂, ts₂, eq₂, ht |
    ⟨b, hb, hw | ⟨l₃, o₃, ts₃, eq₃, he | ⟨e, he, -, rfl⟩⟩⟩⟩⟩
  · refine .of_inner (fun xs => ⟨.ifWord, l₁, o₁⟩ :: xs) (by simp) (refusing ts u hc other) ?_ ?_
    · intro front t rest us v _ hv
      exact conditional_if_eq_error_iff.2 (.inl hv)
    · intro xs
      exact Begins.condition l₁ o₁
  · obtain ⟨cs, rfl, rc, sc⟩ := within_takes (Nat.zero_le 6) hc
    refine .of_expect (fun xs => ⟨.ifWord, l₁, o₁⟩ :: (cs ++ xs)) (by simp) hw rfl ?_ ?_
    · intro t rest us v eq hv
      rw [eq] at sc
      exact conditional_if_eq_error_iff.2
        (.inr ⟨_, rc.within_eq sc.swap_head, .inl hv⟩)
    · rintro ⟨kind, l₂, o₂⟩ admits
      cases admits
      exact Begins.thenBranch l₁ l₂ o₁ o₂ rc.derives (Begins.nil (by omega))
  · obtain ⟨cs, rfl, rc, -⟩ := within_takes (Nat.zero_le 6) hc
    rw [eq₂]
    refine .of_inner (fun xs => ⟨.ifWord, l₁, o₁⟩ :: (cs ++ ⟨.thenWord, l₂, o₂⟩ :: xs)) (by simp)
      (refusing ts₂ u ht other) ?_ ?_
    · intro front t rest us v _ hv
      exact conditional_if_eq_error_iff.2 (.inr ⟨_, rc.within_eq (stops_cons rfl),
        .inr ⟨l₂, o₂, _, rfl, .inl hv⟩⟩)
    · intro xs
      exact Begins.thenBranch l₁ l₂ o₁ o₂ rc.derives
  · obtain ⟨cs, rfl, rc, -⟩ := within_takes (Nat.zero_le 6) hc
    obtain ⟨bs, rfl, rb, sb⟩ := within_takes (Nat.zero_le 6) hb
    rw [eq₂]
    refine .of_expect
      (fun xs => ⟨.ifWord, l₁, o₁⟩ :: (cs ++ ⟨.thenWord, l₂, o₂⟩ :: (bs ++ xs))) (by simp)
      hw rfl ?_ ?_
    · intro t rest us v eq hv
      rw [eq] at sb
      exact conditional_if_eq_error_iff.2 (.inr ⟨_, rc.within_eq (stops_cons rfl),
        .inr ⟨l₂, o₂, _, rfl, .inr ⟨_, rb.within_eq sb.swap_head, .inl hv⟩⟩⟩)
    · rintro ⟨kind, l₃, o₃⟩ admits
      cases admits
      exact Begins.elseBranch l₁ l₂ l₃ o₁ o₂ o₃ rc.derives rb.derives (Begins.nil (by omega))
  · obtain ⟨cs, rfl, rc, -⟩ := within_takes (Nat.zero_le 6) hc
    obtain ⟨bs, rfl, rb, -⟩ := within_takes (Nat.zero_le 6) hb
    rw [eq₂, eq₃]
    refine .of_inner (fun xs => ⟨.ifWord, l₁, o₁⟩ ::
        (cs ++ ⟨.thenWord, l₂, o₂⟩ :: (bs ++ ⟨.elseWord, l₃, o₃⟩ :: xs))) (by simp)
      (refusing ts₃ u he other) ?_ ?_
    · intro front t rest us v _ hv
      exact conditional_if_eq_error_iff.2 (.inr ⟨_, rc.within_eq (stops_cons rfl),
        .inr ⟨l₂, o₂, _, rfl, .inr ⟨_, rb.within_eq (stops_cons rfl),
          .inr ⟨l₃, o₃, _, rfl, .inl hv⟩⟩⟩⟩)
    · intro xs
      exact Begins.elseBranch l₁ l₂ l₃ o₁ o₂ o₃ rc.derives rb.derives
  · exact absurd rfl other

theorem refusing_conditional (noIf : ∀ l o rest, ts ≠ ⟨.ifWord, l, o⟩ :: rest)
    (refusing : Refusing (.level 0) [] (within nesting 0) ts) :
    Refusing .conditional [] (conditional nesting) ts := by
  intro u h other
  rw [conditional_eq_within noIf] at h
  refine .of_inner id (by simp) (refusing u h other) ?_ ?_
  · intro front t rest us v eq hv
    rw [id, conditional_eq_within]
    · exact hv
    · intro l o rest' eq'
      obtain ⟨rest, eq⟩ : ∃ rest, ts = ⟨.ifWord, l, o⟩ :: rest := by
        cases front <;> cases eq' <;> exact ⟨_, eq⟩
      exact noIf l o rest eq
  · intro xs
    exact Begins.plain

theorem refusing_within (le : least ≤ 6) (factors : Refusing .factor [] (factor nesting) ts)
    (chains : ∀ x : Parsed, ChainRefusing nesting least x.expr x.height x.rest) :
    Refusing (.level least) [] (within nesting least) ts := by
  intro u h other
  rcases within_eq_error_iff.1 h with hf | ⟨x, hx, hc⟩
  · refine .of_inner id (by simp) (factors u hf other) ?_ ?_
    · intro front t rest us v _ hv
      exact within_eq_error_iff.2 (.inl hv)
    · intro xs begins
      exact begins.loosen le
  · obtain ⟨front, rfl, r, stops⟩ := factor_takes hx
    refine .of_inner (front ++ ·) (by simp)
      (chains x _ front 6 le (stops.mono (Nat.le_succ 6)) r.derives u hc other) ?_ ?_
    · intro after t rest us v _ hv
      exact within_eq_error_iff.2 (.inr ⟨_, r.factor_eq _, hv⟩)
    · intro xs begins
      exact begins

theorem refusing_chain_binary (le : least ≤ op.level)
    (refusing : Refusing (.level (op.level + 1)) [] (within nesting (op.level + 1)) ts)
    (chains : ∀ rhs : Parsed, max height rhs.height < depthLimit →
      ChainRefusing nesting least (.binary op l₁ lhs rhs.expr) (max height rhs.height + 1)
        rhs.rest) :
    ChainRefusing nesting least lhs height (⟨.binary op, l₁, o₁⟩ :: ts) := by
  intro budget before l least_le stops d u h other
  have op_le : op.level ≤ l := Nat.le_of_lt_succ (stops_binary.1 stops)
  rcases (chain_binary_eq_error_iff le).1 h with hw | ⟨rhs, hr, ⟨-, rfl⟩ | ⟨lt, hc⟩⟩
  · refine .of_inner (fun xs => ⟨.binary op, l₁, o₁⟩ :: xs) (by simp) (refusing u hw other) ?_ ?_
    · intro front t rest us v _ hv
      exact (chain_binary_eq_error_iff le).2 (.inl hv)
    · intro xs begins
      exact (Begins.rhs l₁ o₁ d op_le begins).loosen le
  · exact absurd rfl other
  · obtain ⟨rs, rfl, right, stops'⟩ := within_takes op.level_lt_six hr
    have d' : Derives (max budget (depthLimit - nesting)) (.level op.level)
        (before ++ ⟨.binary op, l₁, o₁⟩ :: rs) (.binary op l₁ lhs rhs.expr) :=
      .binary op l₁ o₁ rfl ((d.loosen op_le).mono (Nat.le_max_left _ _))
        (right.derives.mono (Nat.le_max_right _ _))
    refine .of_inner (fun xs => ⟨.binary op, l₁, o₁⟩ :: (rs ++ xs)) (by simp)
      (chains rhs lt _ _ op.level le stops' d' u hc other) ?_ ?_
    · intro front t rest us v eq hv
      rw [eq] at stops'
      exact (chain_binary_eq_error_iff le).2
        (.inr ⟨_, right.within_eq stops'.swap, .inr ⟨lt, hv⟩⟩)
    · intro xs begins
      simpa using begins

theorem refusing_chain_end (stops : Stops least ts) :
    ChainRefusing nesting least lhs height ts := by
  intro budget before l _ _ _ u h
  rw [chain_of_stops stops] at h
  cases h

theorem refusing_factor_bang
    (refusing : nesting < depthLimit → Refusing .factor [] (factor (nesting + 1)) ts) :
    Refusing .factor [] (factor nesting) (⟨.bang, l₁, o₁⟩ :: ts) := by
  intro u h other
  rcases factor_bang_eq_error_iff.1 h with ⟨-, rfl⟩ | ⟨lt, hx | ⟨x, -, -, rfl⟩⟩
  · exact absurd rfl other
  · refine .of_inner (fun xs => ⟨.bang, l₁, o₁⟩ :: xs) (by simp) (refusing lt u hx other) ?_ ?_
    · intro front t rest us v _ hv
      exact factor_bang_eq_error_iff.2 (.inr ⟨lt, .inl hv⟩)
    · intro xs
      exact Begins.not l₁ o₁
  · exact absurd rfl other

theorem refusing_factor_paren
    (refusing : nesting < depthLimit → Refusing .conditional [] (conditional (nesting + 1)) ts) :
    Refusing .factor [] (factor nesting) (⟨.leftParen, l₁, o₁⟩ :: ts) := by
  intro u h other
  rcases factor_paren_eq_error_iff.1 h with ⟨-, rfl⟩ | ⟨lt, hx | ⟨x, hx, hw⟩⟩
  · exact absurd rfl other
  · refine .of_inner (fun xs => ⟨.leftParen, l₁, o₁⟩ :: xs) (by simp)
      (refusing lt u hx other) ?_ ?_
    · intro front t rest us v _ hv
      exact factor_paren_eq_error_iff.2 (.inr ⟨lt, .inl hv⟩)
    · intro xs
      exact Begins.paren l₁ o₁
  · obtain ⟨front, rfl, r, stops⟩ := conditional_takes hx
    refine .of_expect (fun xs => ⟨.leftParen, l₁, o₁⟩ :: (front ++ xs)) (by simp) hw rfl ?_ ?_
    · intro t rest us v eq hv
      rw [eq] at stops
      exact factor_paren_eq_error_iff.2
        (.inr ⟨lt, .inr ⟨_, r.conditional_eq stops.swap_head, hv⟩⟩)
    · rintro ⟨kind, l₂, o₂⟩ admits
      cases admits
      exact Begins.intro (.paren l₁ l₂ o₁ o₂ r.derives)

theorem refusing_factor (notNumber : ∀ n l o rest, ts ≠ ⟨.number n, l, o⟩ :: rest)
    (notBang : ∀ l o rest, ts ≠ ⟨.bang, l, o⟩ :: rest)
    (notParen : ∀ l o rest, ts ≠ ⟨.leftParen, l, o⟩ :: rest) :
    Refusing .factor [] (factor nesting) ts := by
  intro u h other
  rw [factor_eq_error_of_ne notNumber notBang notParen] at h
  cases h
  refine ⟨⟨.bang, .inr (.inl rfl)⟩, [], rfl, ?_, fun t => Begins.of_admits⟩
  rintro t rest us rfl
  refine factor_eq_error_of_ne ?_ ?_ ?_
  · intro n l o rest' eq
    cases eq
    exact notNumber n l o rest rfl
  · intro l o rest' eq
    cases eq
    exact notBang l o rest rfl
  · intro l o rest' eq
    cases eq
    exact notParen l o rest rfl

end cases

theorem refusing :
    (∀ nesting ts, Refusing .conditional [] (conditional nesting) ts) ∧
    (∀ nesting least ts, least ≤ 6 → Refusing (.level least) [] (within nesting least) ts) ∧
    (∀ nesting least lhs height ts, ChainRefusing nesting least lhs height ts) ∧
    (∀ nesting ts, Refusing .factor [] (factor nesting) ts) := by
  refine conditional.mutual_induct _ _ _ _ ?bare ?plain ?within ?operator ?looser ?other
    ?number ?bang ?bangDeep ?paren ?parenDeep ?neither
  case bare =>
    intro nesting literal offset ts _ ih
    exact refusing_conditional_if literal offset fun ts' => ih ts' (by omega)
  case plain =>
    intro nesting ts noIf ih
    exact refusing_conditional noIf (ih (by omega))
  case within =>
    intro nesting least ts ihf ihc le
    exact refusing_within le ihf ihc
  case operator =>
    intro nesting least lhs height op literal offset ts le ihw ihc
    exact refusing_chain_binary literal offset le (ihw op.level_lt_six) ihc
  case looser =>
    intro nesting least lhs height op literal offset ts lt
    exact refusing_chain_end (stops_binary.2 (Nat.not_le.1 lt))
  case other =>
    intro nesting least lhs height ts noOperator
    exact refusing_chain_end fun op l o rest eq => (noOperator op l o rest eq).elim
  case number =>
    intro nesting n literal offset ts u h
    rw [factor] at h
    cases h
  case bang =>
    intro nesting literal offset ts _ ih
    exact refusing_factor_bang literal offset fun _ => ih
  case bangDeep =>
    intro nesting literal offset ts deep
    exact refusing_factor_bang literal offset fun lt => absurd lt deep
  case paren =>
    intro nesting literal offset ts _ ih
    exact refusing_factor_paren literal offset fun _ => ih
  case parenDeep =>
    intro nesting literal offset ts deep
    exact refusing_factor_paren literal offset fun lt => absurd lt deep
  case neither =>
    intro nesting ts notNumber notBang notParen
    exact refusing_factor notNumber notBang notParen

theorem whole_final {front rest : List Token} {t : Token} {x : Expectation}
    (h : whole (front ++ t :: rest) = .error ⟨x, t :: rest⟩) (other : x ≠ .shallowerNesting)
    (us : List Token) : whole (front ++ t :: us) = .error ⟨x, t :: us⟩ := by
  rcases whole_eq_error_iff.1 h with hc | ⟨p, hp, -, eq⟩
  · obtain ⟨-, front', eq, final, -⟩ := refusing.1 0 _ _ hc other
    obtain rfl := List.append_cancel_right eq
    exact whole_eq_error_iff.2 (.inl (final t rest us rfl))
  · injection eq with hx hr
    obtain ⟨front', eq, r, stops⟩ := conditional_takes hp
    rw [← hr] at eq stops
    obtain rfl := List.append_cancel_right eq
    subst hx
    refine whole_eq_error_iff.2 (.inr ⟨⟨p.expr, p.height, t :: us⟩, ?_, List.cons_ne_nil t us, rfl⟩)
    exact r.conditional_eq stops.swap_head

theorem not_viable_of_final {front : List Token} {t : Token} {x : Expectation}
    (other : x ≠ .shallowerNesting)
    (final : ∀ us, whole (front ++ t :: us) = .error ⟨x, t :: us⟩) :
    ¬Viable (front ++ [t]) := by
  rintro ⟨budget, us, e, d⟩
  rw [List.append_assoc, List.singleton_append] at d
  have := final us
  rw [whole] at this
  rcases readBack_of_derives d 0 [] (stops_nil 0) with eq | ⟨-, remaining, eq⟩
  · rw [List.append_nil] at eq
    rw [eq] at this
    cases this
  · rw [List.append_nil] at eq
    rw [eq] at this
    cases this
    exact other rfl

theorem whole_refuses {ts : List Token} {u : Unexpected} (h : whole ts = .error u)
    (other : u.expected ≠ .shallowerNesting) :
    ∃ front, ts = front ++ u.remaining ∧ Viable front ∧
      (∀ t rest, u.remaining = t :: rest → ¬Viable (front ++ [t])) ∧
      (∀ t, u.expected.Admits t.kind → Viable (front ++ [t])) ∧
      (u.expected = .endOfInput → ∃ e, whole front = .ok e) := by
  have last {front rest : List Token} {t : Token} (eq : ts = front ++ u.remaining)
      (ht : u.remaining = t :: rest) : ¬Viable (front ++ [t]) := by
    have refused : whole (front ++ t :: rest) = .error ⟨u.expected, t :: rest⟩ := by
      rw [← ht, ← eq]
      exact h
    exact not_viable_of_final other (whole_final refused other)
  rcases whole_eq_error_iff.1 h with hc | ⟨x, hx, ne, rfl⟩
  · obtain ⟨⟨kind, asked⟩, front, eq, -, begins⟩ := refusing.1 0 ts u hc other
    refine ⟨front, eq, ?_, fun t rest => last eq, begins, ?_⟩
    · have viable : Viable (front ++ [⟨kind, "", 0⟩]) := begins ⟨kind, "", 0⟩ asked
      exact Begins.of_append viable
    · intro atEnd
      rw [atEnd] at asked
      cases asked
  · obtain ⟨front, eq, r, -⟩ := conditional_takes hx
    refine ⟨front, eq, Begins.intro r.derives, fun t rest => last eq, ?_, ?_⟩
    · intro t admits
      cases admits
    · have := r.conditional_eq (stops_nil 0)
      rw [List.append_nil] at this
      exact fun _ => ⟨x.expr, whole_eq_ok_iff.2 ⟨_, this⟩⟩

end Climb

/-- A syntax error that is not about the nesting stands at the first token that no expression can
go on with, or at the end; and what it expected could have stood there. -/
theorem ofTokens_refuses_first (ts : List Token) (x : SyntaxError)
    (h : Expr.ofTokens ts = .error x) (other : x.expected ≠ .shallowerNesting) :
    ∃ i, i ≤ ts.length ∧ x.found = ts[i]? ∧ Viable (ts.take i) ∧
      (i < ts.length → ¬Viable (ts.take (i + 1))) ∧
      (∀ t : Token, x.expected.Admits t.kind → Viable (ts.take i ++ [t])) ∧
      (x.expected = .endOfInput → ∃ e, Expr.ofTokens (ts.take i) = .ok e) := by
  obtain ⟨u, hu, rfl⟩ := Expr.ofTokens_eq_error.1 h
  rw [u.locate_expected] at other ⊢
  rw [u.locate_found]
  obtain ⟨front, eq, viable, first, next, complete⟩ := Climb.whole_refuses hu other
  refine ⟨front.length, ?_, ?_, ?_, ?_, ?_, ?_⟩
  · rw [eq, List.length_append]
    omega
  · rw [eq, List.getElem?_append_right (Nat.le_refl _), Nat.sub_self, List.head?_eq_getElem?]
  · rwa [eq, List.take_left]
  · intro inside
    cases hr : u.remaining with
    | nil => simp [eq, hr] at inside
    | cons t rest =>
      rw [eq, hr, List.take_append, List.take_of_length_le (by omega), Nat.add_sub_cancel_left]
      exact first t rest hr
  · rwa [eq, List.take_left]
  · intro atEnd
    obtain ⟨e, he⟩ := complete atEnd
    exact ⟨e, by rwa [eq, List.take_left, Expr.ofTokens_eq_ok]⟩

theorem ofTokens_refuses_first_missing_then :
    let ts : List Token := [⟨.number 1, "1", 0⟩, ⟨.binary .mul, "*", 2⟩, ⟨.leftParen, "(", 4⟩,
      ⟨.ifWord, "if", 5⟩, ⟨.number 2, "2", 8⟩, ⟨.number 3, "3", 10⟩]
    let x : SyntaxError := ⟨.thenWord, some ⟨.number 3, "3", 10⟩, ⟨10, 1⟩⟩
    (Expr.ofTokens ts = .error x ∧ x.expected ≠ .shallowerNesting) ∧
    ∃ i, i ≤ ts.length ∧ x.found = ts[i]? ∧ Viable (ts.take i) ∧
      (i < ts.length → ¬Viable (ts.take (i + 1))) ∧
      (∀ t : Token, x.expected.Admits t.kind → Viable (ts.take i ++ [t])) ∧
      (x.expected = .endOfInput → ∃ e, Expr.ofTokens (ts.take i) = .ok e) := by
  intro ts x
  have refused : Climb.whole ts = .error ⟨.thenWord, [⟨.number 3, "3", 10⟩]⟩ := by
    cbv
  have h : Expr.ofTokens ts = .error x := Expr.ofTokens_eq_error.2 ⟨_, refused, rfl⟩
  have other : x.expected ≠ .shallowerNesting := by
    decide
  exact ⟨⟨h, other⟩, ofTokens_refuses_first ts x h other⟩

end CondCalc
