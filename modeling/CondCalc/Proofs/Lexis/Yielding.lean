import CondCalc.Proofs.Lexis.Joining

/-! Runs of `next` up to a cursor, whatever comes behind it. The text in front of that cursor is
tiled by the tokens of the run, and the last of them ends in front of what is left; so a run is
found again wherever the same text stands in front of something that cuts no token in two. -/
namespace CondCalc

theorem Kind.EndsBefore.swap_tail {k : Kind} {c : Char} {cs ds : List Char}
    (h : k.EndsBefore (c :: cs)) : k.EndsBefore (c :: ds) := by
  cases k with
  | number | binary | bang | leftParen | rightParen | ifWord | thenWord | elseWord => exact h

theorem Kind.EndsBefore.of_append {k : Kind} {cs rest : List Char} (h : k.EndsBefore (cs ++ rest)) :
    k.EndsBefore cs := by
  cases cs with
  | nil => cases k <;> simp [EndsBefore]
  | cons c cs => exact h.swap_tail

namespace Cursor

/-- Calls of `next` give the tokens one by one and leave the second cursor. -/
inductive Yields : Cursor → List Token → Cursor → Prop where
  | done (k : Cursor) : Yields k [] k
  | token {k k₁ k' : Cursor} {t : Token} {ts : List Token} :
      k.next = (some (.ok t), k₁) → Yields k₁ ts k' → Yields k (t :: ts) k'

def FailsWith (k : Cursor) (x : LexError) : Prop :=
  k.next.1 = some (.error x)

theorem FailsWith.tokens_eq {k : Cursor} {x : LexError} (h : k.FailsWith x) :
    k.tokens = .error x :=
  tokens_of_error (show k.next = (some (.error x), k.next.2) from Prod.ext h rfl)

theorem failsWith_iff {k : Cursor} {x : LexError} : k.FailsWith x ↔
    ∃ g c cs, Blank g ∧ k.rest = g ++ c :: cs ∧ ¬isBlank c ∧
      munch (k.offset + utf8Length g) c cs = .error x := by
  constructor
  · intro h
    obtain ⟨g, blank, eq, eq_offset⟩ := k.exists_gap
    have visible := List.head?_dropWhile_not isBlank k.rest
    unfold FailsWith next at h
    split at h
    next => cases h
    next c cs offset hs =>
      have drop : k.rest.dropWhile isBlank = c :: cs := congrArg Cursor.rest hs
      rw [hs] at eq eq_offset
      rw [drop] at visible
      split at h
      next => cases h
      next munched =>
        cases h
        exact ⟨g, c, cs, blank, eq, by simpa using visible, by rwa [← eq_offset]⟩
  · rintro ⟨g, c, cs, blank, eq, visible, munched⟩
    obtain ⟨rest, offset⟩ := k
    subst eq
    rw [FailsWith, next, skipBlanks_append blank (by simpa using visible)]
    simp only [munched]

namespace Yields

variable {k k' : Cursor} {ts : List Token}

theorem tokens_eq (h : Yields k ts k') : k.tokens = k'.tokens.map (ts ++ ·) := by
  induction h with
  | done k => cases h : k.tokens <;> rfl
  | @token _ _ k' _ _ next _ ih =>
    rw [tokens_of_ok next, ih]
    cases k'.tokens <;> rfl

theorem answers_eq (h : Yields k ts k') (n : Nat) :
    answers (ts.length + n) k = ts.map (fun t => some (.ok t)) ++ answers n k' := by
  induction h with
  | done k => simp
  | token next _ ih =>
    rw [List.length_cons, Nat.add_right_comm, answers, next, ih]
    rfl

theorem exists_of_error {x : LexError} (h : k.tokens = .error x) :
    ∃ ts k', Yields k ts k' ∧ k'.FailsWith x := by
  generalize size : k.rest.length = n
  induction n using Nat.strongRecOn generalizing k with
  | _ n ih =>
    match hn : k.next with
    | (none, _) =>
      rw [tokens_of_none hn] at h
      cases h
    | (some (.error y), _) =>
      rw [tokens_of_error hn] at h
      cases h
      exact ⟨[], k, .done k, congrArg Prod.fst hn⟩
    | (some (.ok t), k₁) =>
      have shorter := length_lt_of_next hn
      have failed : k₁.tokens = .error x := by
        rw [tokens_of_ok hn] at h
        cases hk : k₁.tokens with
        | error y =>
          rw [hk] at h
          exact h
        | ok ts =>
          rw [hk] at h
          cases h
      obtain ⟨ts, k', run, fails⟩ := ih _ (by omega) failed rfl
      exact ⟨t :: ts, k', .token hn run, fails⟩

/-- A run tiles the text between its cursors, and its last token ends in front of what is left. -/
theorem exists_front (h : Yields k ts k') :
    ∃ front, k.rest = front ++ k'.rest ∧ k'.offset = k.offset + utf8Length front ∧
      Tiles k.offset front ts ∧ ∀ t ∈ ts.getLast?, t.kind.EndsBefore k'.rest := by
  induction h with
  | done k => exact ⟨[], rfl, rfl, .gap (by simp [Blank]), by simp⟩
  | @token k k₁ k' t ts next run ih =>
    obtain ⟨front, eq, offset, tiles, last⟩ := ih
    obtain ⟨g, blank, eq₁, offset₁, writes, ends, stop⟩ := tile_of_next next
    refine ⟨g ++ (t.literal.toList ++ front), by simp [eq₁, eq], ?_, ?_, ?_⟩
    · rw [offset, stop]
      exact t.stop_add offset₁ front
    · rw [stop] at tiles
      rw [eq] at ends
      exact .token blank offset₁ writes ends.of_append tiles
    · cases run with
      | done => simpa using ends
      | token => simpa using last

end Yields

end Cursor

/-- The last token does not go on into the rest, if it ends right in front of it. -/
def EndsClear (stop : Nat) (ts : List Token) (rest : List Char) : Prop :=
  ∀ t ∈ ts.getLast?, t.span.stop = stop → t.kind.EndsBefore rest

theorem Tiles.eq_nil_of_nil {offset : Nat} {ts : List Token} (h : Tiles offset [] ts) :
    ts = [] := by
  generalize eq : ([] : List Char) = cs at h
  cases h with
  | gap => rfl
  | token _ _ writes =>
    obtain ⟨c, cs, literal, -⟩ := writes.head
    simp [literal] at eq

/-- In front of what cuts no token in two a tiled text is read as a run, up to its last gap. -/
theorem Tiles.yields {offset : Nat} {cs rest : List Char} {ts : List Token} (h : Tiles offset cs ts)
    (clear : EndsClear (offset + utf8Length cs) ts rest) :
    ∃ g k, Blank g ∧ k.rest = g ++ rest ∧ k.offset + utf8Length g = offset + utf8Length cs ∧
      Cursor.Yields ⟨cs ++ rest, offset⟩ ts k := by
  induction h with
  | @gap offset g blank => exact ⟨g, _, blank, rfl, rfl, .done _⟩
  | @token offset g cs t ts blank eq writes ends tiles ih =>
    rw [← t.stop_add eq] at clear ⊢
    have ends' : t.kind.EndsBefore (cs ++ rest) := by
      cases cs with
      | nil =>
        cases tiles.eq_nil_of_nil
        exact clear t rfl rfl
      | cons c cs => exact ends.swap_tail
    have clear' : EndsClear (t.offset + t.literal.utf8ByteSize + utf8Length cs) ts rest :=
      fun u mem => clear u (by simp_all [List.getLast?_cons])
    obtain ⟨g', k, blank', eq', offset', run⟩ := ih clear'
    refine ⟨g', k, blank', eq', offset', .token ?_ run⟩
    rw [List.append_assoc, List.append_assoc]
    exact Cursor.next_of_token blank eq writes ends'

end CondCalc
