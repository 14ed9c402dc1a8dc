import CondCalc.Token.Munch

/-! Reading a text token by token. A cursor holds what is left of the text and the number of
bytes in front of it; a failure moves it to the end, so nothing is read after an error. -/
namespace CondCalc

def isBlank (c : Char) : Bool :=
  c == ' ' || c == '\t'

structure Cursor where
  rest : List Char
  /-- The bytes in front of `rest`. -/
  offset : Nat
deriving DecidableEq

namespace Cursor

def ofString (text : String) : Cursor :=
  ⟨text.toList, 0⟩

def skipBlanks (k : Cursor) : Cursor :=
  ⟨k.rest.dropWhile isBlank, k.offset + utf8Length (k.rest.takeWhile isBlank)⟩

def finish (k : Cursor) : Cursor :=
  ⟨[], k.offset + utf8Length k.rest⟩

/-- The next token or error, or nothing at the end; and the place after it. -/
def next (k : Cursor) : Option (Except LexError Token) × Cursor :=
  match k.skipBlanks with
  | ⟨[], offset⟩ => (none, ⟨[], offset⟩)
  | ⟨c :: cs, offset⟩ =>
    match munch offset c cs with
    | .ok (t, rest) => (some (.ok t), ⟨rest, t.span.stop⟩)
    | .error e => (some (.error e), finish ⟨c :: cs, offset⟩)

theorem length_lt_of_next {k k' : Cursor} {t : Token} (h : k.next = (some (.ok t), k')) :
    k'.rest.length < k.rest.length := by
  have le := (List.dropWhile_sublist (l := k.rest) isBlank).length_le
  unfold next skipBlanks at h
  split at h
  next => cases h
  next c cs offset eq =>
    split at h
    next munched =>
      cases h
      have lt := length_lt_of_munch_ok munched
      have := congrArg Cursor.rest eq
      simp only at this
      rw [← this] at lt
      exact Nat.lt_of_lt_of_le lt le
    next => cases h

/-- The tokens up to the end or the first error, behind the ones already found, the last of
them first. -/
def collect (k : Cursor) (found : List Token) : Except LexError (List Token) :=
  match _h : k.next with
  | (none, _) => .ok found.reverse
  | (some (.error e), _) => .error e
  | (some (.ok t), k') => k'.collect (t :: found)
termination_by k.rest.length
decreasing_by exact length_lt_of_next _h

def tokens (k : Cursor) : Except LexError (List Token) :=
  k.collect []

theorem collect_of_none {k k' : Cursor} (h : k.next = (none, k')) (found : List Token) :
    k.collect found = .ok found.reverse := by
  rw [collect]
  split <;> simp_all

theorem collect_of_error {k k' : Cursor} {e : LexError} (h : k.next = (some (.error e), k'))
    (found : List Token) : k.collect found = .error e := by
  rw [collect]
  split <;> simp_all

theorem collect_of_ok {k k' : Cursor} {t : Token} (h : k.next = (some (.ok t), k'))
    (found : List Token) : k.collect found = k'.collect (t :: found) := by
  rw [collect]
  split <;> simp_all

theorem collect_eq (k : Cursor) (found : List Token) :
    k.collect found = k.tokens.map (found.reverse ++ ·) := by
  unfold tokens
  generalize size : k.rest.length = n
  induction n using Nat.strongRecOn generalizing k found with
  | _ n ih =>
    match h : k.next with
    | (none, _) => simp [collect_of_none h, Except.map]
    | (some (.error e), _) => simp [collect_of_error h, Except.map]
    | (some (.ok t), k') =>
      have lt := length_lt_of_next h
      rw [collect_of_ok h, collect_of_ok h, ih _ (by omega) k' (t :: found) rfl,
        ih _ (by omega) k' [t] rfl]
      cases k'.collect [] <;> simp [Except.map]

theorem tokens_of_none {k k' : Cursor} (h : k.next = (none, k')) : k.tokens = .ok [] :=
  collect_of_none h []

theorem tokens_of_error {k k' : Cursor} {e : LexError} (h : k.next = (some (.error e), k')) :
    k.tokens = .error e :=
  collect_of_error h []

theorem tokens_of_ok {k k' : Cursor} {t : Token} (h : k.next = (some (.ok t), k')) :
    k.tokens = k'.tokens.map (t :: ·) := by
  rw [tokens, collect_of_ok h, collect_eq]
  rfl

def answers : Nat → Cursor → List (Option (Except LexError Token))
  | 0, _ => []
  | n + 1, k => k.next.1 :: answers n k.next.2

end Cursor

def tokenize (text : String) : Except LexError (List Token) :=
  (Cursor.ofString text).tokens

end CondCalc
