import CondCalc.Proofs.Lexis.Tiling

/-! Texts written one behind the other. The tokens of the later one move by the length of the
earlier one, and no token reaches over the seam if what comes there ends every token. Parentheses
are such seams: the tokens of what they enclose move as a whole, and nothing else happens to
them. -/
namespace CondCalc

/-- The token in a text that stands behind `n` bytes of another. -/
def Token.shift (n : Nat) (t : Token) : Token :=
  { t with offset := n + t.offset }

/-- No token goes on with the character at the front, if there is one. -/
def Seam (rest : List Char) : Prop :=
  ∀ c ∈ rest.head?, ¬c.isDigit ∧ c ≠ '='

theorem Seam.endsBefore {rest : List Char} (h : Seam rest) (k : Kind) : k.EndsBefore rest := by
  cases k with
  | number n => exact fun c mem => (h c mem).1
  | binary | bang | leftParen | rightParen | ifWord | thenWord | elseWord =>
    exact fun _ eq => (h '=' eq).2 rfl

theorem isBlank_seam {c : Char} (h : isBlank c) : ¬c.isDigit ∧ c ≠ '=' := by
  refine ⟨fun digit => not_isBlank_of_isDigit digit h, ?_⟩
  rintro rfl
  revert h
  decide

theorem Kind.endsBefore_of_blank {k : Kind} {rest : List Char}
    (h : ∀ c ∈ rest.head?, isBlank c) : k.EndsBefore rest :=
  Seam.endsBefore (fun c mem => isBlank_seam (h c mem)) k

theorem Kind.EndsBefore.append {k : Kind} {cs rest : List Char} (h : k.EndsBefore cs)
    (seam : Seam rest) : k.EndsBefore (cs ++ rest) := by
  cases cs with
  | nil => exact seam.endsBefore k
  | cons c cs =>
    cases k with
    | number | binary | bang | leftParen | rightParen | ifWord | thenWord | elseWord => exact h

theorem Blank.append {g g' : List Char} (h : Blank g) (h' : Blank g') : Blank (g ++ g') :=
  List.forall_mem_append.2 ⟨h, h'⟩

namespace Tiles

variable {offset : Nat} {cs rest : List Char} {ts us : List Token}

theorem shift (h : Tiles offset cs ts) (n : Nat) :
    Tiles (n + offset) cs (ts.map (Token.shift n)) := by
  induction h with
  | gap blank => exact .gap blank
  | @token offset g rest t ts blank eq writes ends _ ih =>
    rw [← Nat.add_assoc] at ih
    exact .token (t := t.shift n) blank (by rw [Token.shift, eq, Nat.add_assoc]) writes ends ih

theorem behind_gap {g : List Char} (blank : Blank g) (h : Tiles (offset + utf8Length g) cs ts) :
    Tiles offset (g ++ cs) ts := by
  generalize start : offset + utf8Length g = begin at h
  cases h with
  | gap blank' => exact .gap (blank.append blank')
  | token blank' eq writes ends tiles =>
    rw [← List.append_assoc]
    refine .token (blank.append blank') ?_ writes ends tiles
    rw [eq, ← start, utf8Length_append, Nat.add_assoc]

theorem append (h : Tiles offset cs ts) (h' : Tiles (offset + utf8Length cs) rest us)
    (seam : Seam rest) : Tiles offset (cs ++ rest) (ts ++ us) := by
  induction h with
  | gap blank => exact behind_gap blank h'
  | @token offset g cs t ts blank eq writes ends _ ih =>
    rw [← t.stop_add eq] at h'
    rw [List.append_assoc, List.append_assoc]
    exact .token blank eq writes (ends.append seam) (ih h')

theorem spelled {k : Kind} {s : String} (spelling : k.spelling? = some s)
    (ends : k.takesEqual → rest.head? ≠ some '=')
    (h : Tiles (offset + s.utf8ByteSize) rest ts) :
    Tiles offset (s.toList ++ rest) (⟨k, s, offset⟩ :: ts) := by
  have front : k.Writes s ∧ k.EndsBefore rest := by
    cases k with
    | number n => cases spelling
    | binary | bang | leftParen | rightParen | ifWord | thenWord | elseWord =>
      exact ⟨spelling, ends⟩
  exact .token (g := []) (t := ⟨k, s, offset⟩) (by simp [Blank]) rfl front.1 front.2 h

end Tiles

def inParens (text : String) : String :=
  "(" ++ text ++ ")"

def parenTokens (offset : Nat) (text : String) (ts : List Token) : List Token :=
  ⟨.leftParen, "(", offset⟩ :: (ts.map (Token.shift (offset + 1)) ++
    [⟨.rightParen, ")", offset + 1 + utf8Length text.toList⟩])

theorem toList_inParens (text : String) (rest : List Char) :
    (inParens text).toList ++ rest = "(".toList ++ (text.toList ++ (")".toList ++ rest)) := by
  simp [inParens]

theorem Tiles.inParens {text : String} {ts us : List Token} {rest : List Char} {offset : Nat}
    (h : Tiles 0 text.toList ts)
    (h' : Tiles (offset + 1 + utf8Length text.toList + 1) rest us) :
    Tiles offset ((inParens text).toList ++ rest) (parenTokens offset text ts ++ us) := by
  have closing : Tiles (offset + 1 + utf8Length text.toList) (")".toList ++ rest)
      (⟨.rightParen, ")", offset + 1 + utf8Length text.toList⟩ :: us) :=
    spelled rfl (by simp [Kind.takesEqual]) h'
  have seam : Seam (")".toList ++ rest) := by
    simp [Seam]
  have inside := (h.shift (offset + 1)).append closing seam
  rw [toList_inParens, parenTokens, List.cons_append, List.append_assoc, List.singleton_append]
  exact spelled rfl (by simp [Kind.takesEqual]) inside

end CondCalc
