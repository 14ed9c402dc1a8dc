import CondCalc.Proofs.Lexis.Munch
import CondCalc.Token.Cursor

/-! A text has tokens exactly if it can be tiled by them: blanks, a literal, blanks, a literal, and
so on to the end, each literal the longest in its place. The tiling says nothing of cursors; one
call of `next` lays one tile. -/
namespace CondCalc

def Blank (g : List Char) : Prop :=
  ∀ c ∈ g, c = ' ' ∨ c = '\t'

/-- The tokens cover the characters, which stand behind `offset` bytes of text, up to blanks. -/
inductive Tiles : Nat → List Char → List Token → Prop where
  | gap {offset : Nat} {g : List Char} : Blank g → Tiles offset g []
  | token {offset : Nat} {g rest : List Char} {t : Token} {ts : List Token} :
      Blank g → t.offset = offset + utf8Length g → t.kind.Writes t.literal →
      t.kind.EndsBefore rest → Tiles (t.offset + t.literal.utf8ByteSize) rest ts →
      Tiles offset (g ++ (t.literal.toList ++ rest)) (t :: ts)

theorem Token.stop_add {offset : Nat} {g : List Char} {t : Token}
    (eq : t.offset = offset + utf8Length g) (rest : List Char) :
    t.offset + t.literal.utf8ByteSize + utf8Length rest =
      offset + utf8Length (g ++ (t.literal.toList ++ rest)) := by
  rw [eq, utf8ByteSize_eq_utf8Length]
  simp only [utf8Length_append, Nat.add_assoc]

theorem Tiles.writes {offset : Nat} {cs : List Char} {ts : List Token} (h : Tiles offset cs ts) :
    ∀ t ∈ ts, t.kind.Writes t.literal := by
  induction h with
  | gap => simp
  | token _ _ writes _ _ ih => exact List.forall_mem_cons.2 ⟨writes, ih⟩

theorem isBlank_iff {c : Char} : isBlank c ↔ c = ' ' ∨ c = '\t' := by
  simp [isBlank]

theorem mark_no_blank {m : List Char × Kind} (mem : m ∈ marks) : ∀ c ∈ m.1, ¬isBlank c := by
  have none : ∀ m ∈ marks, m.1.all fun c => !isBlank c := by decide
  simpa using none m mem

theorem not_isBlank_of_isDigit {c : Char} (h : c.isDigit) : ¬isBlank c := by
  rw [isBlank_iff]
  rintro (rfl | rfl) <;> revert h <;> decide

theorem Kind.Writes.head {k : Kind} {literal : String} (h : k.Writes literal) :
    ∃ c cs, literal.toList = c :: cs ∧ ¬isBlank c := by
  by_cases number : ∃ n, k = .number n
  · obtain ⟨n, rfl⟩ := number
    obtain ⟨ne, digits, -⟩ := h
    obtain ⟨c, cs, eq⟩ := List.exists_cons_of_ne_nil ne
    exact ⟨c, cs, eq, not_isBlank_of_isDigit (digits c (by rw [eq]; exact List.mem_cons_self))⟩
  · have mem := h.mem_marks fun n eq => number ⟨n, eq⟩
    obtain ⟨c, cs, eq⟩ : ∃ c cs, literal.toList = c :: cs :=
      List.exists_cons_of_ne_nil (mark_ne_nil _ mem)
    rw [eq] at mem
    exact ⟨c, cs, eq, mark_no_blank mem c List.mem_cons_self⟩

namespace Cursor

theorem skipBlanks_append {g rest : List Char} {offset : Nat} (blank : Blank g)
    (ends : ∀ c ∈ rest.head?, ¬isBlank c) :
    skipBlanks ⟨g ++ rest, offset⟩ = ⟨rest, offset + utf8Length g⟩ := by
  obtain ⟨take, drop⟩ := takeWhile_append_of_head (fun c mem => isBlank_iff.2 (blank c mem)) ends
  rw [skipBlanks, take, drop]

theorem exists_gap (k : Cursor) : ∃ g, Blank g ∧ k.rest = g ++ k.skipBlanks.rest ∧
    k.skipBlanks.offset = k.offset + utf8Length g :=
  ⟨k.rest.takeWhile isBlank, fun _ mem => isBlank_iff.1 (List.mem_takeWhile_imp mem),
    List.takeWhile_append_dropWhile.symm, rfl⟩

theorem next_of_blank {g : List Char} {offset : Nat} (h : Blank g) :
    next ⟨g, offset⟩ = (none, ⟨[], offset + utf8Length g⟩) := by
  have : skipBlanks ⟨g ++ [], offset⟩ = ⟨[], offset + utf8Length g⟩ :=
    skipBlanks_append h (by simp)
  rw [List.append_nil] at this
  rw [next, this]

theorem next_of_token {g rest : List Char} {offset : Nat} {t : Token} (blank : Blank g)
    (eq : t.offset = offset + utf8Length g) (writes : t.kind.Writes t.literal)
    (ends : t.kind.EndsBefore rest) :
    next ⟨g ++ (t.literal.toList ++ rest), offset⟩ = (some (.ok t), ⟨rest, t.span.stop⟩) := by
  obtain ⟨c, cs, hc, visible⟩ := writes.head
  rw [hc, List.cons_append, next, skipBlanks_append blank (by simpa using visible)]
  have := munch_eq_ok_iff.2 ⟨eq, writes, ends, by rw [hc, List.cons_append]⟩
  simp only [this]

theorem blank_of_next {k : Cursor} (h : k.next.1 = none) : Blank k.rest := by
  obtain ⟨g, blank, eq, -⟩ := k.exists_gap
  unfold next at h
  split at h
  next offset hs =>
    rw [hs, List.append_nil] at eq
    rwa [eq]
  next c cs offset hs => split at h <;> cases h

theorem tile_of_next {k k' : Cursor} {t : Token} (h : k.next = (some (.ok t), k')) :
    ∃ g, Blank g ∧ k.rest = g ++ (t.literal.toList ++ k'.rest) ∧
      t.offset = k.offset + utf8Length g ∧ t.kind.Writes t.literal ∧ t.kind.EndsBefore k'.rest ∧
      k'.offset = t.span.stop := by
  obtain ⟨g, blank, eq, eq_offset⟩ := k.exists_gap
  unfold next at h
  split at h
  next => cases h
  next c cs offset hs =>
    split at h
    next munched =>
      cases h
      obtain ⟨ho, writes, ends, hm⟩ := munch_eq_ok_iff.1 munched
      rw [hs] at eq eq_offset
      exact ⟨g, blank, by rw [eq, ← hm], by rw [ho, ← eq_offset], writes, ends, rfl⟩
    next => cases h

theorem tokens_eq_ok_iff {k : Cursor} {ts : List Token} : k.tokens = .ok ts ↔
    (ts = [] ∧ k.next.1 = none) ∨
      ∃ t rest k', ts = t :: rest ∧ k.next = (some (.ok t), k') ∧ k'.tokens = .ok rest := by
  rcases h : k.next with ⟨_ | e | t, k'⟩
  · rw [tokens_of_none h]
    simp [eq_comm]
  · rw [tokens_of_error h]
    simp
  · rw [tokens_of_ok h]
    constructor
    · intro eq
      cases hk : k'.tokens with
      | error e =>
        rw [hk] at eq
        cases eq
      | ok rest =>
        rw [hk] at eq
        cases eq
        exact .inr ⟨t, rest, k', rfl, rfl, hk⟩
    · rintro (⟨-, no⟩ | ⟨t', rest, k'', rfl, eq, hk⟩)
      · cases no
      · cases eq
        rw [hk]
        rfl

theorem tiles_of_tokens {k : Cursor} {ts : List Token} (h : k.tokens = .ok ts) :
    Tiles k.offset k.rest ts := by
  induction ts generalizing k with
  | nil =>
    rcases tokens_eq_ok_iff.1 h with ⟨-, atEnd⟩ | ⟨t, rest, k', eq, -⟩
    · exact .gap (blank_of_next atEnd)
    · cases eq
  | cons t ts ih =>
    rcases tokens_eq_ok_iff.1 h with ⟨eq, -⟩ | ⟨t', ts', k', eq, next, tokens⟩
    · cases eq
    · cases eq
      obtain ⟨g, blank, eq, eq_offset, writes, ends, stop⟩ := tile_of_next next
      have tiles := ih tokens
      rw [stop] at tiles
      rw [eq]
      exact .token blank eq_offset writes ends tiles

theorem tokens_of_tiles {offset : Nat} {cs : List Char} {ts : List Token}
    (h : Tiles offset cs ts) : tokens ⟨cs, offset⟩ = .ok ts := by
  induction h with
  | gap blank => exact tokens_of_none (next_of_blank blank)
  | token blank eq writes ends _ ih =>
    rw [tokens_of_ok (next_of_token blank eq writes ends), Token.span, Span.stop, ih]
    rfl

end Cursor

theorem tiles_of_tokenize {text : String} {ts : List Token} (h : tokenize text = .ok ts) :
    Tiles 0 text.toList ts :=
  Cursor.tiles_of_tokens h

/-- The tokens of a text are those that tile it. -/
theorem tokenize_eq_ok_iff_tiles (text : String) (ts : List Token) :
    tokenize text = .ok ts ↔ Tiles 0 text.toList ts :=
  ⟨Cursor.tiles_of_tokens, Cursor.tokens_of_tiles⟩

end CondCalc
