import CondCalc.Proofs.Syntax.Grammar
import CondCalc.Proofs.Syntax.Steps

/-! Climbing reads exactly the grammar. What a call has taken derives the tree it returns; and in
front of anything that cannot continue it a derivation is read back, unless it exceeds one of the
two limits. The left operand of an operator is followed by that operator, so for the levels this
is a statement about the chain that goes on from the operand. -/
namespace CondCalc.Climb

/-- The tokens `front` derive the tree within both limits, and `height` is its height. -/
structure Reads (phrase : Phrase) (nesting : Nat) (front : List Token) (e : Expr)
    (height : Nat) : Prop where
  derives : Derives (depthLimit - nesting) phrase front e
  height_eq : height = e.height
  height_le : height ≤ depthLimit

/-- What was parsed was read from the front of `ts`, and what follows cannot belong to it. -/
def Takes (phrase : Phrase) (nesting : Nat) (ts : List Token) (p : Parsed) : Prop :=
  ∃ front, ts = front ++ p.rest ∧ Reads phrase nesting front p.expr p.height ∧
    phrase.Stops p.rest

theorem Reads.loosen {nesting l m height : Nat} {front : List Token} {e : Expr}
    (h : Reads (.level m) nesting front e height) (le : l ≤ m) :
    Reads (.level l) nesting front e height :=
  ⟨h.derives.loosen le, h.height_eq, h.height_le⟩

theorem Reads.binary {nesting l hl hr : Nat} {ls rs : List Token} {lhs rhs : Expr} {op : Operator}
    (literal : String) (offset : Nat) (left : Reads (.level l) nesting ls lhs hl)
    (right : Reads (.level (op.level + 1)) nesting rs rhs hr) (le : op.level ≤ l)
    (lt : max hl hr < depthLimit) :
    Reads (.level op.level) nesting (ls ++ ⟨.binary op, literal, offset⟩ :: rs)
      (.binary op literal lhs rhs) (max hl hr + 1) where
  derives := .binary op literal offset rfl (left.derives.loosen le) right.derives
  height_eq := by rw [Expr.height, left.height_eq, right.height_eq]
  height_le := lt

theorem depthLimit_sub {nesting : Nat} (h : nesting < depthLimit) :
    depthLimit - nesting = depthLimit - (nesting + 1) + 1 := by
  omega

theorem chain_of_stops {nesting least height : Nat} {lhs : Expr} {ts : List Token}
    (h : Stops least ts) : chain nesting least lhs height ts = .ok ⟨lhs, height, ts⟩ := by
  rw [chain.eq_def]
  split
  next op literal offset rest =>
    have lt : ¬least ≤ op.level := Nat.not_le.2 (h op literal offset rest rfl)
    simp only [lt, dite_false]
  next => rfl

theorem within_six (nesting : Nat) (ts : List Token) : within nesting 6 ts = factor nesting ts := by
  rw [within]
  simp only [chain_of_stops (stops_six _)]
  cases factor nesting ts <;> rfl

/-- One case for each branch of the four functions. A chain carries the tokens of its left operand
along; their level `l` only falls, and the next operator is never tighter than `l`. -/
theorem takes_of_ok :
    (∀ nesting ts, ∀ p, conditional nesting ts = .ok p → Takes .conditional nesting ts p) ∧
    (∀ nesting least ts, least ≤ 6 → ∀ p, within nesting least ts = .ok p →
      Takes (.level least) nesting ts p) ∧
    (∀ nesting least lhs height ts, ∀ front l, least ≤ l → Stops (l + 1) ts →
      Reads (.level l) nesting front lhs height → ∀ p, chain nesting least lhs height ts = .ok p →
      Takes (.level least) nesting (front ++ ts) p) ∧
    (∀ nesting ts, ∀ p, factor nesting ts = .ok p → Takes .factor nesting ts p) := by
  refine conditional.mutual_induct _ _ _ _ ?bare ?plain ?within ?operator ?looser ?other
    ?number ?bang ?bangDeep ?paren ?parenDeep ?neither
  case bare =>
    intro nesting l₁ o₁ ts ihc ih p h
    obtain ⟨c, t, e, l₂, o₂, ts₂, l₃, o₃, ts₃, hc, eq₂, ht, eq₃, he, lt, rfl⟩ :=
      conditional_if_eq_ok_iff.1 h
    obtain ⟨cs, rfl, rc, -⟩ := ihc (by omega) c hc
    obtain ⟨bs, rfl, rt, -⟩ := ih ts₂ (by omega) t ht
    obtain ⟨es, rfl, re, stops⟩ := ih ts₃ (by omega) e he
    refine ⟨⟨.ifWord, l₁, o₁⟩ :: (cs ++ ⟨.thenWord, l₂, o₂⟩ :: (bs ++ ⟨.elseWord, l₃, o₃⟩ :: es)),
      ?_, ⟨?_, ?_, lt⟩, stops⟩
    · simp [eq₂, eq₃]
    · exact .cond l₁ l₂ l₃ o₁ o₂ o₃ rc.derives rt.derives re.derives
    · rw [Expr.height, rc.height_eq, rt.height_eq, re.height_eq]
  case plain =>
    intro nesting ts other ih p h
    rw [conditional_eq_within other] at h
    obtain ⟨front, eq, r, stops⟩ := ih (by omega) p h
    exact ⟨front, eq, ⟨.plain r.derives, r.height_eq, r.height_le⟩, stops⟩
  case within =>
    intro nesting least ts ihf ihc le p h
    obtain ⟨x, hx, hp⟩ := within_eq_ok_iff.1 h
    obtain ⟨front, rfl, r, stops⟩ := ihf x hx
    exact ihc x front 6 le (stops.mono (Nat.le_succ 6)) r p hp
  case operator =>
    intro nesting least lhs height op literal offset ts le ihw ihc front l least_le stops r p h
    obtain ⟨rhs, hr, lt, hp⟩ := (chain_binary_eq_ok_iff le).1 h
    have op_le : op.level ≤ l := Nat.le_of_lt_succ (stops_binary.1 stops)
    obtain ⟨rs, rfl, right, stops'⟩ := ihw op.level_lt_six rhs hr
    have := ihc rhs lt _ op.level le stops' (r.binary literal offset right op_le lt) p hp
    simpa using this
  case looser =>
    intro nesting least lhs height op literal offset ts lt front l least_le _ r p h
    have stops : Stops least (⟨.binary op, literal, offset⟩ :: ts) :=
      stops_binary.2 (Nat.not_le.1 lt)
    rw [chain_of_stops stops] at h
    cases h
    exact ⟨front, rfl, r.loosen least_le, stops⟩
  case other =>
    intro nesting least lhs height ts other front l least_le _ r p h
    have stops : Stops least ts := fun op literal offset rest eq =>
      (other op literal offset rest eq).elim
    rw [chain_of_stops stops] at h
    cases h
    exact ⟨front, rfl, r.loosen least_le, stops⟩
  case number =>
    intro nesting n literal offset ts p h
    rw [factor] at h
    cases h
    exact ⟨[⟨.number n, literal, offset⟩], rfl,
      ⟨.number _ n literal offset, rfl, by simp [depthLimit]⟩, stops_six _⟩
  case bang =>
    intro nesting literal offset ts lt ih p h
    obtain ⟨-, x, hx, height_lt, rfl⟩ := factor_bang_eq_ok_iff.1 h
    obtain ⟨front, rfl, r, stops⟩ := ih x hx
    refine ⟨⟨.bang, literal, offset⟩ :: front, rfl, ⟨?_, ?_, height_lt⟩, stops⟩
    · rw [depthLimit_sub lt]
      exact .not literal offset r.derives
    · rw [Expr.height, r.height_eq]
  case bangDeep =>
    intro nesting literal offset ts deep p h
    exact absurd (factor_bang_eq_ok_iff.1 h).1 deep
  case paren =>
    intro nesting l₁ o₁ ts lt ih p h
    obtain ⟨-, x, l₂, o₂, rest, hx, eq, rfl⟩ := factor_paren_eq_ok_iff.1 h
    obtain ⟨front, rfl, r, -⟩ := ih x hx
    refine ⟨⟨.leftParen, l₁, o₁⟩ :: (front ++ [⟨.rightParen, l₂, o₂⟩]), by simp [eq],
      ⟨?_, r.height_eq, r.height_le⟩, stops_six _⟩
    rw [depthLimit_sub lt]
    exact .paren l₁ l₂ o₁ o₂ r.derives
  case parenDeep =>
    intro nesting literal offset ts deep p h
    exact absurd (factor_paren_eq_ok_iff.1 h).1 deep
  case neither =>
    intro nesting ts notNumber notBang notParen p h
    rw [factor_eq_error_of_ne notNumber notBang notParen] at h
    cases h

theorem conditional_takes {nesting : Nat} {ts : List Token} {p : Parsed}
    (h : conditional nesting ts = .ok p) : Takes .conditional nesting ts p :=
  takes_of_ok.1 nesting ts p h

theorem within_takes {nesting least : Nat} {ts : List Token} {p : Parsed} (le : least ≤ 6)
    (h : within nesting least ts = .ok p) : Takes (.level least) nesting ts p :=
  takes_of_ok.2.1 nesting least ts le p h

theorem factor_takes {nesting : Nat} {ts : List Token} {p : Parsed}
    (h : factor nesting ts = .ok p) : Takes .factor nesting ts p :=
  takes_of_ok.2.2.2 nesting ts p h

/-- The answer is `r'`, unless something does not fit and the nesting is refused. -/
def Reaches {α : Type} (fits : Prop) (r r' : Except Unexpected α) : Prop :=
  r = r' ∨ ¬fits ∧ ∃ remaining, r = .error ⟨.shallowerNesting, remaining⟩

namespace Reaches

variable {α β : Type} {fits fits' : Prop}

theorem mono {r r' : Except Unexpected α} (h : Reaches fits r r') (imp : fits' → fits) :
    Reaches fits' r r' := by
  rcases h with eq | ⟨no, refused⟩
  · exact .inl eq
  · exact .inr ⟨fun yes => no (imp yes), refused⟩

theorem trans {r r' r'' : Except Unexpected α} (h : Reaches fits r r')
    (h' : Reaches fits r' r'') : Reaches fits r r'' := by
  rcases h with rfl | refused
  · exact h'
  · exact .inr refused

theorem bind {x : Except Unexpected α} {a : α} {f : α → Except Unexpected β}
    {r : Except Unexpected β} (h : Reaches fits x (.ok a)) (h' : Reaches fits (f a) r) :
    Reaches fits (x >>= f) r := by
  rcases h with rfl | ⟨no, remaining, rfl⟩
  · exact h'
  · exact .inr ⟨no, remaining, rfl⟩

theorem eq {r r' : Except Unexpected α} (h : Reaches fits r r') (yes : fits) : r = r' := by
  rcases h with eq | ⟨no, -⟩
  · exact eq
  · exact absurd yes no

theorem grow {tallest : Nat} (ts : List Token) (h : fits → tallest < depthLimit) :
    Reaches fits (Climb.grow tallest ts) (.ok (tallest + 1)) := by
  by_cases lt : tallest < depthLimit
  · exact .inl (grow_eq_ok_iff.2 ⟨lt, rfl⟩)
  · exact .inr ⟨fun yes => lt (h yes), ts, grow_eq_error_iff.2 ⟨lt, rfl⟩⟩

end Reaches

def Fits (budget nesting : Nat) (e : Expr) : Prop :=
  budget ≤ depthLimit - nesting ∧ e.height ≤ depthLimit

/-- The tokens are read as the tree wherever they stand as such a phrase. -/
def ReadBack (budget : Nat) (ts : List Token) (e : Expr) : Phrase → Prop
  | .conditional => ∀ nesting rest, Stops 0 rest →
    Reaches (Fits budget nesting e) (conditional nesting (ts ++ rest)) (.ok ⟨e, e.height, rest⟩)
  | .level l => ∀ nesting least rest, least ≤ l → Stops (l + 1) rest →
    Reaches (Fits budget nesting e) (within nesting least (ts ++ rest))
      (chain nesting least e e.height rest)

namespace ReadBack

variable {budget l nesting : Nat} {ts rest : List Token} {e : Expr}

theorem within (h : ReadBack budget ts e (.level l)) (stops : Stops l rest) :
    Reaches (Fits budget nesting e) (within nesting l (ts ++ rest)) (.ok ⟨e, e.height, rest⟩) := by
  have := h nesting l rest (Nat.le_refl l) (stops.mono (Nat.le_succ l))
  rwa [chain_of_stops stops] at this

theorem factor (h : ReadBack budget ts e .factor) (rest : List Token) :
    Reaches (Fits budget nesting e) (factor nesting (ts ++ rest)) (.ok ⟨e, e.height, rest⟩) := by
  rw [← within_six]
  exact h.within (stops_six rest)

theorem of_factor (h : ∀ nesting rest, Reaches (Fits budget nesting e)
    (Climb.factor nesting (ts ++ rest)) (.ok ⟨e, e.height, rest⟩)) :
    ReadBack budget ts e .factor := by
  intro nesting least rest _ _
  rw [Climb.within]
  exact (h nesting rest).bind (.inl rfl)

end ReadBack

theorem readBack_of_derives {budget : Nat} {phrase : Phrase} {ts : List Token} {e : Expr}
    (h : Derives budget phrase ts e) : ReadBack budget ts e phrase := by
  induction h with
  | number budget n literal offset =>
    apply ReadBack.of_factor
    intro nesting rest
    left
    simp [factor, Expr.height]
  | @not budget ts e literal offset _ ih =>
    apply ReadBack.of_factor
    intro nesting rest
    rw [List.cons_append, factor]
    by_cases lt : nesting < depthLimit
    · simp only [lt, dite_true]
      refine ((ih.factor rest).mono ?_).bind ((Reaches.grow _ ?_).bind (.inl rfl))
      · rintro ⟨room, low⟩
        rw [Expr.height] at low
        exact ⟨by omega, by omega⟩
      · exact fun fits => fits.2
    · simp only [lt, dite_false]
      exact .inr ⟨fun fits => by have := fits.1; omega, _, rfl⟩
  | @paren budget ts e l₁ l₂ o₁ o₂ _ ih =>
    apply ReadBack.of_factor
    intro nesting rest
    rw [List.cons_append, factor]
    by_cases lt : nesting < depthLimit
    · simp only [lt, dite_true, List.append_assoc, List.singleton_append]
      refine ((ih _ (⟨.rightParen, l₂, o₂⟩ :: rest) (stops_cons rfl)).mono ?_).bind ?_
      · rintro ⟨room, low⟩
        exact ⟨by omega, low⟩
      · left
        simp [expect, pure, Except.pure]
    · simp only [lt, dite_false]
      exact .inr ⟨fun fits => by have := fits.1; omega, _, rfl⟩
  | tighter _ ih =>
    intro nesting least rest le stops
    exact ih nesting least rest (by omega) (stops.mono (by omega))
  | @binary budget _ ls rs lhs rhs op literal offset eq _ _ ihl ihr =>
    subst eq
    intro nesting least rest le stops
    have fits {x : Expr} (low : x.height ≤ max lhs.height rhs.height)
        (h : Fits budget nesting (.binary op literal lhs rhs)) : Fits budget nesting x :=
      ⟨h.1, Nat.le_trans low (Nat.le_of_succ_le h.2)⟩
    rw [List.append_assoc, List.cons_append]
    have left := ihl nesting least (⟨.binary op, literal, offset⟩ :: (rs ++ rest)) le
      (stops_binary.2 (Nat.lt_succ_self _))
    refine (left.mono (fits (by omega))).trans ?_
    rw [chain]
    simp only [le, dite_true]
    refine ((ihr.within stops).mono (fits (by omega))).bind ?_
    by_cases lt : max lhs.height rhs.height < depthLimit
    · left
      simp only [lt, dite_true, Expr.height]
    · right
      refine ⟨fun fits => lt fits.2, ⟨.binary op, literal, offset⟩ :: (rs ++ rest), ?_⟩
      simp only [lt, dite_false]
  | plain d ih =>
    intro nesting rest stops
    rw [conditional_eq_within]
    · exact ih.within stops
    · intro l o rest' eq
      obtain ⟨t, ts, rfl⟩ := List.exists_cons_of_ne_nil d.ne_nil
      cases eq
      exact d.ne_if_cons l o ts rfl
  | @cond budget cs ts es c t e l₁ l₂ l₃ o₁ o₂ o₃ _ _ _ ihc iht ihe =>
    intro nesting rest stops
    have fits {x : Expr} (low : x.height ≤ max (max c.height t.height) e.height)
        (h : Fits budget nesting (.cond c t e)) : Fits budget nesting x :=
      ⟨h.1, Nat.le_trans low (Nat.le_of_succ_le h.2)⟩
    simp only [List.cons_append, List.append_assoc]
    rw [conditional]
    refine ((ihc.within (stops_cons rfl)).mono (fits (by omega))).bind ?_
    simp only [expect, ↓reduceIte, ok_bind]
    refine ((iht.within (stops_cons rfl)).mono (fits (by omega))).bind ?_
    simp only [↓reduceIte, ok_bind]
    refine ((ihe.within stops).mono (fits (by omega))).bind ?_
    exact (Reaches.grow _ fun fits => fits.2).bind (.inl rfl)

theorem Reads.fits {phrase : Phrase} {nesting height : Nat} {front : List Token} {e : Expr}
    (h : Reads phrase nesting front e height) : Fits (depthLimit - nesting) nesting e :=
  ⟨Nat.le_refl _, h.height_eq ▸ h.height_le⟩

theorem Reads.conditional_eq {nesting height : Nat} {front rest : List Token} {e : Expr}
    (h : Reads .conditional nesting front e height) (stops : Stops 0 rest) :
    conditional nesting (front ++ rest) = .ok ⟨e, height, rest⟩ := by
  rw [h.height_eq]
  exact (readBack_of_derives h.derives nesting rest stops).eq h.fits

theorem Reads.within_eq {l nesting height : Nat} {front rest : List Token} {e : Expr}
    (h : Reads (.level l) nesting front e height) (stops : Stops l rest) :
    within nesting l (front ++ rest) = .ok ⟨e, height, rest⟩ := by
  rw [h.height_eq]
  exact ((readBack_of_derives h.derives).within stops).eq h.fits

theorem Reads.factor_eq {nesting height : Nat} {front : List Token} {e : Expr}
    (h : Reads .factor nesting front e height) (rest : List Token) :
    factor nesting (front ++ rest) = .ok ⟨e, height, rest⟩ := by
  rw [← within_six]
  exact h.within_eq (stops_six rest)

theorem reads_of_ofTokens {ts : List Token} {e : Expr} (h : Expr.ofTokens ts = .ok e) :
    Reads .conditional 0 ts e e.height := by
  obtain ⟨height, hc⟩ := whole_eq_ok_iff.1 (Expr.ofTokens_eq_ok.1 h)
  obtain ⟨front, eq, reads, -⟩ := conditional_takes hc
  rw [List.append_nil] at eq
  rw [eq, ← reads.height_eq]
  exact reads

theorem Reads.ofTokens_eq {ts : List Token} {e : Expr}
    (h : Reads .conditional 0 ts e e.height) : Expr.ofTokens ts = .ok e := by
  have := h.conditional_eq (stops_nil 0)
  rw [List.append_nil] at this
  exact Expr.ofTokens_eq_ok.2 (whole_eq_ok_iff.2 ⟨_, this⟩)

end CondCalc.Climb

namespace CondCalc

/-- A list of tokens has a tree exactly if the grammar derives it from them with no more than 256
openings in force at once and it is no higher than 256. -/
theorem ofTokens_eq_ok_iff_derives (ts : List Token) (e : Expr) :
    Expr.ofTokens ts = .ok e ↔ Derives 256 .conditional ts e ∧ e.height ≤ 256 := by
  rw [Expr.ofTokens_eq_ok, Climb.whole_eq_ok_iff]
  constructor
  · rintro ⟨height, h⟩
    obtain ⟨front, eq, reads, -⟩ := Climb.conditional_takes h
    rw [List.append_nil] at eq
    subst eq
    exact ⟨reads.derives, reads.height_eq ▸ reads.height_le⟩
  · rintro ⟨d, low⟩
    have reads : Climb.Reads .conditional 0 ts e e.height := ⟨d, rfl, low⟩
    have := reads.conditional_eq (stops_nil 0)
    rw [List.append_nil] at this
    exact ⟨e.height, this⟩

end CondCalc
