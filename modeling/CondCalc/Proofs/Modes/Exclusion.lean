import CondCalc.Proofs.Modes.Check

/-! What a mode refuses, on any list of tokens. A refusal names the first token whose family the
mode does not allow, so it depends on nothing behind that token; and what conditional mode asks
for, the two other modes forbid. -/
namespace CondCalc

namespace Mode

/-- The token is of the family, which the mode does not allow. -/
def Forbids (m : Mode) (t : Token) (f : Family) : Prop :=
  t.kind.family? = some f ∧ ¬m.allows f

variable {m : Mode} {t : Token} {ts : List Token}

theorem objection?_eq_some_iff_forbids {x : ModeError} :
    m.objection? t = some x ↔ ∃ f, m.Forbids t f ∧ x = .forbidden m f t := by
  simp only [objection?_eq_some_iff, Forbids, and_assoc]

theorem objection?_eq_none_iff_forbids : m.objection? t = none ↔ ∀ f, ¬m.Forbids t f := by
  simp only [objection?_eq_none_iff, Forbids, not_and, Classical.not_not]

theorem check_eq_forbidden_iff {m' : Mode} {f : Family} :
    m.check ts = .error (.forbidden m' f t) ↔ m' = m ∧ ∃ before after,
      ts = before ++ t :: after ∧ m.Forbids t f ∧ ∀ s ∈ before, ∀ g, ¬m.Forbids s g := by
  simp only [check_eq_error_iff, objection?_eq_some_iff_forbids, objection?_eq_none_iff_forbids]
  constructor
  · rintro (⟨before, s, after, eq, ⟨g, forbids, same⟩, accepted⟩ | ⟨-, -, -, no⟩)
    · cases same
      exact ⟨rfl, before, after, eq, forbids, accepted⟩
    · cases no
  · rintro ⟨rfl, before, after, eq, forbids, accepted⟩
    exact .inl ⟨before, t, after, eq, ⟨f, forbids, rfl⟩, accepted⟩

theorem exists_check_eq_forbidden_iff :
    (∃ f t, m.check ts = .error (.forbidden m f t)) ↔ ∃ t ∈ ts, ∃ f, m.Forbids t f := by
  constructor
  · rintro ⟨f, t, h⟩
    obtain ⟨-, before, after, rfl, forbids, -⟩ := check_eq_forbidden_iff.1 h
    exact ⟨t, by simp, f, forbids⟩
  · rintro ⟨t, mem, f, forbids⟩
    obtain ⟨x, hx⟩ : ∃ x, ts.findSome? m.objection? = some x := by
      rw [← Option.isSome_iff_exists, List.findSome?_isSome_iff]
      exact ⟨t, mem, by simp [objection?_eq_some_iff_forbids.2 ⟨f, forbids, rfl⟩]⟩
    obtain ⟨before, s, after, -, objects, -⟩ := List.findSome?_eq_some_iff.1 hx
    obtain ⟨g, -, rfl⟩ := objection?_eq_some_iff_forbids.1 objects
    exact ⟨g, s, by rw [check, hx]⟩

theorem family?_eq_conditional_iff {k : Kind} :
    k.family? = some .conditional ↔ k = .ifWord ∨ k = .elseWord := by
  cases k with
  | binary op => cases op <;> simp [Kind.family?, Operator.family]
  | number | bang | leftParen | rightParen | ifWord | thenWord | elseWord => simp [Kind.family?]

theorem check_eq_missing_iff : m.check ts = .error .missingConditional ↔
    m = .conditional ∧ ∀ t ∈ ts, t.kind ≠ .ifWord ∧ t.kind ≠ .elseWord := by
  simp only [check_eq_error_iff, objection?_eq_some_iff_forbids, ← not_or,
    ← family?_eq_conditional_iff]
  constructor
  · rintro (⟨before, s, after, -, ⟨g, -, no⟩, -⟩ | ⟨-, mode, missing, -⟩)
    · cases no
    · exact ⟨mode, missing⟩
  · rintro ⟨rfl, missing⟩
    exact .inr ⟨fun t _ => objection?_eq_none_iff.2 fun f _ => rfl, rfl, missing, trivial⟩

theorem check_eq_ok_iff_forbids : m.check ts = .ok () ↔ (∀ t ∈ ts, ∀ f, ¬m.Forbids t f) ∧
    (m = .conditional → ∃ t ∈ ts, t.kind = .ifWord ∨ t.kind = .elseWord) := by
  simp only [check_eq_ok_iff, objection?_eq_none_iff_forbids, family?_eq_conditional_iff]

theorem exists_forbids_of_conditional (other : m ≠ .conditional)
    (h : Mode.conditional.check ts = .ok ()) : ∃ t ∈ ts, ∃ f, m.Forbids t f := by
  obtain ⟨t, mem, word⟩ := (check_eq_ok_iff_forbids.1 h).2 rfl
  refine ⟨t, mem, .conditional, family?_eq_conditional_iff.2 word, ?_⟩
  cases m with
  | arithmetic | logical => simp [allows]
  | conditional => exact absurd rfl other

end Mode

/-- The kinds without a family: they suit every mode. -/
def Kind.IsNeutral (k : Kind) : Prop :=
  (∃ n, k = .number n) ∨ k = .leftParen ∨ k = .rightParen ∨ k = .thenWord

theorem Kind.isNeutral_iff {k : Kind} : k.IsNeutral ↔ k.family? = none := by
  cases k <;> simp [IsNeutral, family?]

theorem isNeutral_iff_not_forbids {t : Token} : t.kind.IsNeutral ↔
    (∀ f, ¬Mode.arithmetic.Forbids t f) ∧ ∀ f, ¬Mode.logical.Forbids t f := by
  rw [Kind.isNeutral_iff]
  cases h : t.kind.family? with
  | none => simp [Mode.Forbids, h]
  | some f => cases f <;> simp [Mode.Forbids, h, Mode.allows]

/-- Whatever tokens it is given, a mode forbids exactly the first one that is of a family it does
not allow, names it whole, and looks no further; conditional mode misses its keywords exactly where
there is no `if` and no `else`; and there is no other refusal. So a list that satisfies conditional
mode is forbidden by the two others, and these agree only on what is of no family. -/
theorem check_forbids_first (ts : List Token) :
    (∀ m : Mode,
      ((∃ f t, m.check ts = .error (.forbidden m f t)) ↔ ∃ t ∈ ts, ∃ f, m.Forbids t f) ∧
      (∀ m' f t, m.check ts = .error (.forbidden m' f t) ↔ m' = m ∧ ∃ before after,
        ts = before ++ t :: after ∧ m.Forbids t f ∧ ∀ s ∈ before, ∀ g, ¬m.Forbids s g) ∧
      (m.check ts = .error .missingConditional ↔
        m = .conditional ∧ ∀ t ∈ ts, t.kind ≠ .ifWord ∧ t.kind ≠ .elseWord) ∧
      (m.check ts = .ok () ↔ (∀ t ∈ ts, ∀ f, ¬m.Forbids t f) ∧
        (m = .conditional → ∃ t ∈ ts, t.kind = .ifWord ∨ t.kind = .elseWord))) ∧
    (Mode.conditional.check ts = .ok () →
      (∃ f t, Mode.arithmetic.check ts = .error (.forbidden .arithmetic f t)) ∧
        ∃ f t, Mode.logical.check ts = .error (.forbidden .logical f t)) ∧
    (Mode.arithmetic.check ts = .ok () ∧ Mode.logical.check ts = .ok () ↔
      ∀ t ∈ ts, t.kind.IsNeutral) := by
  refine ⟨fun m => ⟨Mode.exists_check_eq_forbidden_iff, fun m' f t => Mode.check_eq_forbidden_iff,
    Mode.check_eq_missing_iff, Mode.check_eq_ok_iff_forbids⟩, fun h => ⟨?_, ?_⟩, ?_⟩
  · exact Mode.exists_check_eq_forbidden_iff.2
      (Mode.exists_forbids_of_conditional (by decide) h)
  · exact Mode.exists_check_eq_forbidden_iff.2
      (Mode.exists_forbids_of_conditional (by decide) h)
  · simp only [Mode.check_eq_ok_iff_forbids, isNeutral_iff_not_forbids, reduceCtorEq, false_implies,
      and_true, forall_and]

/-- The list `2 then * if <` is no expression, but it satisfies conditional mode. -/
theorem check_forbids_first_either :
    let ts : List Token := [⟨.number 2, "2", 0⟩, ⟨.thenWord, "then", 2⟩, ⟨.binary .mul, "*", 7⟩,
      ⟨.ifWord, "if", 9⟩, ⟨.binary .lt, "<", 12⟩]
    Mode.conditional.check ts = .ok () ∧
      (∃ f t, Mode.arithmetic.check ts = .error (.forbidden .arithmetic f t)) ∧
        ∃ f t, Mode.logical.check ts = .error (.forbidden .logical f t) := by
  intro ts
  have h : Mode.conditional.check ts = .ok () := by
    decide
  exact ⟨h, (check_forbids_first ts).2.1 h⟩

end CondCalc
