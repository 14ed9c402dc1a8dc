import CondCalc.Proofs.Syntax.Reading

/-! Where a call stops. The level of a phrase can be told from its tokens: it is at most that of
every operator that stands in no parentheses. A call at a level takes such a phrase and leaves no
operator that could go on with it; and it takes the longest there is, for a longer one would go on
with the operator that it left. -/
namespace CondCalc

namespace Operator

/-- The powers with which the operator holds the operands on its left and on its right. -/
def powers : Operator → Nat × Nat
  | or => (1, 2)
  | and => (3, 4)
  | eq | neq => (5, 6)
  | gt | gte | lt | lte => (7, 8)
  | add | sub => (9, 10)
  | mul | div => (11, 12)

def leftPower (op : Operator) : Nat := op.powers.1

def rightPower (op : Operator) : Nat := op.powers.2

theorem powers_eq (op : Operator) : op.powers = (2 * op.level + 1, 2 * op.level + 2) := by
  cases op <;> rfl

theorem le_leftPower_iff {op : Operator} {power : Nat} :
    power ≤ op.leftPower ↔ power / 2 ≤ op.level := by
  rw [leftPower, powers_eq]
  omega

theorem half_rightPower (op : Operator) : op.rightPower / 2 = op.level + 1 := by
  rw [rightPower, powers_eq]
  omega

end Operator

/-- The tokens that stand in no parentheses, if `depth` of them are open in front. -/
def outside (depth : Nat) : List Token → List Token
  | [] => []
  | t :: ts =>
    match t.kind with
    | .leftParen => outside (depth + 1) ts
    | .rightParen => outside (depth - 1) ts
    | _ => if depth = 0 then t :: outside depth ts else outside depth ts

def LevelAtLeast (least : Nat) (ts : List Token) : Prop :=
  ∀ t ∈ outside 0 ts, ∀ op, t.kind = .binary op → least ≤ op.level

namespace Derives

variable {budget least l : Nat} {phrase : Phrase} {ts : List Token} {e : Expr}

theorem outside_append (h : Derives budget phrase ts e) (rest : List Token) :
    outside 0 (ts ++ rest) = outside 0 ts ++ outside 0 rest ∧
      ∀ depth, outside (depth + 1) (ts ++ rest) = outside (depth + 1) rest := by
  induction h generalizing rest with
  | number => simp [outside]
  | not _ _ _ ih => simp [outside, ih]
  | paren l₁ l₂ o₁ o₂ _ ih => simp [outside, ih]
  | tighter _ ih => exact ih rest
  | binary _ _ _ _ _ _ ihl ihr => simp [outside, ihl, ihr]
  | plain _ ih => exact ih rest
  | cond _ _ _ _ _ _ _ _ _ ihc iht ihe => simp [outside, ihc, iht, ihe]

theorem outside_binary {ls rs : List Token} {op : Operator} (h : Derives budget phrase ls e)
    (literal : String) (offset : Nat) :
    outside 0 (ls ++ ⟨.binary op, literal, offset⟩ :: rs) =
      outside 0 ls ++ ⟨.binary op, literal, offset⟩ :: outside 0 rs := by
  rw [(h.outside_append _).1]
  simp [outside]

theorem outside_paren (l₁ l₂ : String) (o₁ o₂ : Nat) (h : Derives budget phrase ts e) :
    outside 0 (⟨.leftParen, l₁, o₁⟩ :: (ts ++ [⟨.rightParen, l₂, o₂⟩])) = [] := by
  rw [outside]
  simp only [(h.outside_append _).2]
  simp [outside]

theorem levelAtLeast (h : Derives budget (.level l) ts e) : LevelAtLeast l ts := by
  generalize eq : Phrase.level l = phrase at h
  induction h generalizing l with
  | number => simp [LevelAtLeast, outside]
  | not _ _ _ ih => simpa [LevelAtLeast, outside] using ih eq
  | paren l₁ l₂ o₁ o₂ d _ => simp [LevelAtLeast, d.outside_paren]
  | tighter _ ih =>
    cases eq
    exact fun t mem op kind => Nat.le_of_succ_le (ih rfl t mem op kind)
  | binary op literal offset level dl _ ihl ihr =>
    cases eq
    intro t mem op' kind
    rw [dl.outside_binary, List.mem_append, List.mem_cons] at mem
    rcases mem with left | rfl | right
    · exact ihl rfl t left op' kind
    · cases kind
      exact Nat.le_of_eq level.symm
    · exact Nat.le_of_succ_le (ihr rfl t right op' kind)
  | plain | cond => cases eq

theorem tighten (h : Derives budget (.level l) ts e) (le : least ≤ 6)
    (tight : LevelAtLeast least ts) : Derives budget (.level least) ts e := by
  generalize eq : Phrase.level l = phrase at h
  induction h generalizing l with
  | number budget n literal offset => exact (Derives.number budget n literal offset).loosen le
  | not literal offset d _ => exact (Derives.not literal offset d).loosen le
  | paren l₁ l₂ o₁ o₂ d _ => exact (Derives.paren l₁ l₂ o₁ o₂ d).loosen le
  | tighter _ ih =>
    cases eq
    exact ih tight rfl
  | binary op literal offset level dl dr _ _ =>
    cases eq
    have own := tight ⟨.binary op, literal, offset⟩ (by simp [dl.outside_binary]) op rfl
    exact (Derives.binary op literal offset level dl dr).loosen (level ▸ own)
  | plain | cond => cases eq

theorem level_of_front {budget' : Nat} {front us : List Token} {e' : Expr}
    (h : Derives budget phrase (front ++ us) e) (d : Derives budget' (.level l) front e') :
    Derives budget (.level 0) (front ++ us) e := by
  cases phrase with
  | level m => exact h.loosen (Nat.zero_le m)
  | conditional =>
    generalize eq : front ++ us = longer at h ⊢
    cases h with
    | plain h => exact h
    | cond l₁ l₂ l₃ o₁ o₂ o₃ =>
      obtain ⟨t, rest, rfl⟩ := List.exists_cons_of_ne_nil d.ne_nil
      obtain ⟨rfl, -⟩ := List.cons.inj eq
      exact (d.ne_if_cons l₁ o₁ rest rfl).elim

end Derives

namespace Climb

variable {nesting least height : Nat} {ts front : List Token} {t : Token} {e : Expr} {p : Parsed}

theorem min_six_le_level_iff {op : Operator} : min least 6 ≤ op.level ↔ least ≤ op.level := by
  have := op.level_lt_six
  omega

theorem within_min_six (nesting least : Nat) (ts : List Token) :
    within nesting (min least 6) ts = within nesting least ts := by
  by_cases le : least ≤ 6
  · rw [Nat.min_eq_left le]
  · have tightest (ts' : List Token) : Stops least ts' :=
      (stops_six ts').mono (Nat.le_of_not_le le)
    rw [Nat.min_eq_right (Nat.le_of_not_le le), within_six, within]
    simp only [chain_of_stops (tightest _)]
    cases factor nesting ts <;> rfl

/-- No phrase of the level goes on from one with a token that the level cannot go on with: the call
would have taken it. -/
theorem Reads.not_derives {l budget : Nat} {more : List Token} {e' : Expr}
    (h : Reads (.level l) nesting front e height) (stops : Stops l (t :: more)) :
    ¬Derives budget (.level l) (front ++ t :: more) e' := by
  intro d
  have taken := h.within_eq stops
  have read : Reaches (Fits budget nesting e') (within nesting l (front ++ t :: more ++ []))
      (.ok ⟨e', e'.height, []⟩) := (readBack_of_derives d).within (stops_nil l)
  rw [List.append_nil, taken] at read
  rcases read with eq | ⟨-, remaining, eq⟩
  · cases eq
  · cases eq

end Climb

theorem exists_next_of_prefix {α : Type} {front rest longer : List α}
    (inside : longer <+: front ++ rest) (lt : front.length < longer.length) :
    ∃ t more, longer = front ++ t :: more ∧ t :: more <+: rest := by
  obtain ⟨us, rfl⟩ := List.prefix_of_prefix_length_le (List.prefix_append front rest) inside
    (Nat.le_of_lt lt)
  cases us with
  | nil => simp at lt
  | cons t more => exact ⟨t, more, rfl, (List.prefix_append_right_inj front).1 inside⟩

theorem Stops.of_prefix {least : Nat} {t : Token} {more rest : List Token} (h : Stops least rest)
    (front : t :: more <+: rest) : Stops least (t :: more) := by
  obtain ⟨us, rfl⟩ := front
  exact h.swap_head

/-- A call with some power takes a phrase all of whose operators outside parentheses hold their left
operand at least that strongly; the next token is no such operator; and no longer front of its
tokens is such a phrase. -/
theorem within_takes_longest (nesting power : Nat) (ts : List Token) (p : Climb.Parsed)
    (h : Climb.within nesting (power / 2) ts = .ok p) :
    ∃ front, ts = front ++ p.rest ∧ front ≠ [] ∧ Derives (256 - nesting) (.level 0) front p.expr ∧
      (∀ t ∈ outside 0 front, ∀ op, t.kind = .binary op → power ≤ op.leftPower) ∧
      (∀ t ∈ p.rest.head?, ∀ op, t.kind = .binary op → op.leftPower < power) ∧
      ∀ longer, longer <+: ts → front.length < longer.length → ∀ budget phrase e,
        Derives budget phrase longer e →
          ∃ t ∈ outside 0 longer, ∃ op, t.kind = .binary op ∧ op.leftPower < power := by
  -- phrases have levels up to six, while a call may ask for more
  rw [← Climb.within_min_six] at h
  obtain ⟨front, rfl, reads, stops⟩ := Climb.within_takes (Nat.min_le_right _ 6) h
  refine ⟨front, rfl, reads.derives.ne_nil, reads.derives.loosen (Nat.zero_le _), ?_, ?_, ?_⟩
  · intro t mem op kind
    rw [Operator.le_leftPower_iff, ← Climb.min_six_le_level_iff]
    exact reads.derives.levelAtLeast t mem op kind
  · rintro ⟨kind, literal, offset⟩ mem op rfl
    obtain ⟨rest, eq⟩ := List.head?_eq_some_iff.1 mem
    have looser := stops op literal offset rest eq
    rw [← Nat.not_le] at looser ⊢
    rwa [Operator.le_leftPower_iff, ← Climb.min_six_le_level_iff]
  · intro longer inside lt budget phrase e d
    obtain ⟨t, more, rfl, next⟩ := exists_next_of_prefix inside lt
    by_contra none
    -- as a phrase of the level it would have been read on
    refine reads.not_derives (stops.of_prefix next)
      ((d.level_of_front reads.derives).tighten (Nat.min_le_right _ 6) ?_)
    intro t' mem op kind
    rw [Climb.min_six_le_level_iff, ← Operator.le_leftPower_iff]
    exact Nat.not_lt.1 fun looser => none ⟨t', mem, op, kind, looser⟩

theorem within_takes_longest_sum :
    let ts : List Token := [⟨.leftParen, "(", 0⟩, ⟨.number 1, "1", 1⟩, ⟨.binary .or, "||", 3⟩,
      ⟨.number 2, "2", 6⟩, ⟨.rightParen, ")", 7⟩, ⟨.binary .add, "+", 9⟩, ⟨.number 3, "3", 11⟩,
      ⟨.binary .lt, "<", 13⟩, ⟨.number 4, "4", 15⟩]
    let p : Climb.Parsed := ⟨.binary .add "+" (.binary .or "||" (.number 1) (.number 2)) (.number 3),
      3, [⟨.binary .lt, "<", 13⟩, ⟨.number 4, "4", 15⟩]⟩
    Climb.within 0 (9 / 2) ts = .ok p ∧
    ∃ front, ts = front ++ p.rest ∧ front ≠ [] ∧ Derives (256 - 0) (.level 0) front p.expr ∧
      (∀ t ∈ outside 0 front, ∀ op, t.kind = .binary op → 9 ≤ op.leftPower) ∧
      (∀ t ∈ p.rest.head?, ∀ op, t.kind = .binary op → op.leftPower < 9) ∧
      ∀ longer, longer <+: ts → front.length < longer.length → ∀ budget phrase e,
        Derives budget phrase longer e →
          ∃ t ∈ outside 0 longer, ∃ op, t.kind = .binary op ∧ op.leftPower < 9 := by
  intro ts p
  have h : Climb.within 0 (9 / 2) ts = .ok p := by
    cbv
  exact ⟨h, within_takes_longest 0 9 ts p h⟩

end CondCalc
