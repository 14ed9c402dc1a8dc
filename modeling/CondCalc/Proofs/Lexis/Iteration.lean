import CondCalc.Proofs.Lexis.Impasse

/-! Any number of calls of `next`. The tokens of a text come first, one behind the other; then the
error, if there is one; and from then on nothing, for after an error and at the end there is no text
left. The tokens in front of an error are those of the text in front of it, whatever follows. -/
namespace CondCalc

theorem Kind.Writes.size_pos {k : Kind} {literal : String} (h : k.Writes literal) :
    0 < literal.utf8ByteSize := by
  obtain ⟨c, cs, eq, -⟩ := h.head
  rw [utf8ByteSize_eq_utf8Length, eq, utf8Length_cons]
  exact Nat.add_pos_left c.utf8Size_pos _

namespace Tiles

variable {offset : Nat} {cs : List Char} {t : Token} {ts : List Token}

theorem span_inside (h : Tiles offset cs ts) (mem : t ∈ ts) : offset ≤ t.span.offset ∧
    t.span.offset < t.span.stop ∧ t.span.stop ≤ offset + utf8Length cs := by
  obtain ⟨front, rest, rfl, place⟩ := h.exists_split mem
  have size := (h.writes t mem).size_pos
  have stop := t.stop_add place rest
  simp only [Token.span, Span.stop]
  omega

theorem spans_pairwise (h : Tiles offset cs ts) : ts.Pairwise fun t u =>
    t.span.offset < u.span.offset ∧ t.span.stop ≤ u.span.offset := by
  induction h with
  | gap => exact .nil
  | @token offset g rest t ts blank eq writes ends tiles ih =>
    refine List.pairwise_cons.2 ⟨fun u mem => ?_, ih⟩
    have after : t.span.stop ≤ u.span.offset := (tiles.span_inside mem).1
    have whole := Tiles.token blank eq writes ends tiles
    exact ⟨Nat.lt_of_lt_of_le (whole.span_inside List.mem_cons_self).2.1 after, after⟩

theorem length_le (h : Tiles offset cs ts) : ts.length ≤ utf8Length cs := by
  induction h with
  | gap => exact Nat.zero_le _
  | @token offset g rest t ts blank eq writes ends tiles ih =>
    have whole := Tiles.token blank eq writes ends tiles
    have inside := whole.span_inside List.mem_cons_self
    have stop := t.stop_add eq rest
    simp only [Token.span, Span.stop] at inside
    rw [List.length_cons]
    omega

end Tiles

namespace Cursor

/-- The calls of `next`, however many, give these answers and then none. -/
def Gives (k : Cursor) (as : List (Except LexError Token)) : Prop :=
  ∀ n, k.answers n = (as.map some ++ List.replicate n none).take n

theorem Gives.cons {k k' : Cursor} {a : Except LexError Token} {as : List (Except LexError Token)}
    (next : k.next = (some a, k')) (h : Gives k' as) : Gives k (a :: as) := by
  intro n
  cases n with
  | zero => rfl
  | succ n =>
    have enough : min (n - as.length) (n + 1) = min (n - as.length) n := by omega
    rw [answers, next, h n]
    simp [List.take_append, List.take_replicate, enough]

theorem gives_nil {k : Cursor} (blank : Blank k.rest) : Gives k [] := by
  intro n
  induction n generalizing k with
  | zero => rfl
  | succ n ih =>
    obtain ⟨rest, offset⟩ := k
    have none_left : Blank [] := by simp [Blank]
    rw [answers, next_of_blank blank, ih none_left]
    simp [List.replicate_succ]

theorem rest_of_next_error {k k' : Cursor} {x : LexError} (h : k.next = (some (.error x), k')) :
    k'.rest = [] := by
  unfold next at h
  split at h
  next => cases h
  next =>
    split at h
    next => cases h
    next =>
      cases h
      rfl

theorem FailsWith.gives {k : Cursor} {x : LexError} (h : k.FailsWith x) : Gives k [.error x] := by
  have next : k.next = (some (.error x), k.next.2) := Prod.ext h rfl
  refine (gives_nil ?_).cons next
  rw [rest_of_next_error next]
  simp [Blank]

theorem Yields.gives {k k' : Cursor} {ts : List Token} {as : List (Except LexError Token)}
    (run : Yields k ts k') (h : Gives k' as) : Gives k (ts.map .ok ++ as) := by
  induction run with
  | done => exact h
  | token next _ ih => exact (ih h).cons next

end Cursor

theorem Tiles.gives {offset : Nat} {cs : List Char} {ts : List Token} (h : Tiles offset cs ts) :
    Cursor.Gives ⟨cs, offset⟩ (ts.map .ok) := by
  have clear : EndsClear (offset + utf8Length cs) ts [] := fun t _ _ =>
    Kind.endsBefore_of_blank (by simp)
  obtain ⟨g, k, blank, rest, -, run⟩ := h.yields clear
  rw [List.append_nil] at rest run
  rw [← List.append_nil (ts.map _)]
  exact run.gives (Cursor.gives_nil (rest ▸ blank))

/-- The tokens stand one behind the other in a text of so many bytes. -/
structure LinedUp (size : Nat) (ts : List Token) : Prop where
  length_le : ts.length ≤ size
  inside : ∀ t ∈ ts, t.span.offset < t.span.stop ∧ t.span.stop ≤ size
  ordered : ts.Pairwise fun t u =>
    t.span.offset < u.span.offset ∧ t.span.stop ≤ u.span.offset

theorem LinedUp.mono {size size' : Nat} {ts : List Token} (h : LinedUp size ts)
    (le : size ≤ size') : LinedUp size' ts where
  length_le := Nat.le_trans h.length_le le
  inside := fun t mem => ⟨(h.inside t mem).1, Nat.le_trans (h.inside t mem).2 le⟩
  ordered := h.ordered

theorem linedUp_of_tokenize {text : String} {ts : List Token} (h : tokenize text = .ok ts) :
    LinedUp text.utf8ByteSize ts := by
  have tiles := tiles_of_tokenize h
  rw [utf8ByteSize_eq_utf8Length, ← Nat.zero_add (utf8Length _)]
  exact ⟨Nat.le_trans tiles.length_le (Nat.le_add_left _ 0), fun t mem => (tiles.span_inside mem).2,
    tiles.spans_pairwise⟩

/-- However often `next` is called on a text, it gives tokens, one behind the other and no more than
the text has bytes; then at most one error; and then nothing. These tokens, or this error, are the
tokens of the text, and the tokens in front of an error are those of the text up to it. -/
theorem next_gives_tokens (text : String) :
    ∃ ts, LinedUp text.utf8ByteSize ts ∧
      (tokenize text = .ok ts ∧ (Cursor.ofString text).Gives (ts.map .ok) ∨
        ∃ x p q, tokenize text = .error x ∧
          (Cursor.ofString text).Gives (ts.map .ok ++ [.error x]) ∧
          text = p ++ q ∧ p.utf8ByteSize = x.span.offset ∧ tokenize p = .ok ts) := by
  cases h : tokenize text with
  | ok ts => exact ⟨ts, linedUp_of_tokenize h, .inl ⟨rfl, (tiles_of_tokenize h).gives⟩⟩
  | error x =>
    obtain ⟨p, c, q, rfl, impasse⟩ := exists_impasse h
    obtain ⟨ts, k, tokens, run, fails⟩ := impasse.exists_run rfl
    have front : p.utf8ByteSize ≤ (p ++ String.singleton c ++ q).utf8ByteSize := by
      simp only [String.utf8ByteSize_append]
      omega
    exact ⟨ts, (linedUp_of_tokenize tokens).mono front, .inr ⟨x, p, String.singleton c ++ q, rfl,
      run.gives fails.gives, String.append_assoc .., impasse.offset_eq.symm, tokens⟩⟩

end CondCalc
