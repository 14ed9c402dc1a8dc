import CondCalc.Proofs.Lexis.Iteration

/-! Reading a text by slices. A slicer keeps what is left of the text and, apart from that, a count
of the bytes in front of it. It knows from the first character what may begin there, and cuts pieces
off by their numbers of bytes; a cut that is out of bounds or goes through a character has no result.
The slicer never gets to such a cut: call by call it does what the cursor does, whose rest and offset
belong together by construction. -/
namespace CondCalc

/-- The piece of the text between two positions. There is none if they are not in order, not within
the text, or not between characters. -/
def slice? (text : String) (start stop : Nat) : Option String :=
  if start ≤ stop ∧ stop ≤ text.utf8ByteSize ∧
      String.Pos.Raw.IsValid text ⟨start⟩ ∧ String.Pos.Raw.IsValid text ⟨stop⟩ then
    some (String.Pos.Raw.extract text ⟨start⟩ ⟨stop⟩)
  else
    none

theorem slice?_of_split {text : String} {front piece rest : List Char}
    (eq : text.toList = front ++ (piece ++ rest)) :
    slice? text (utf8Length front) (utf8Length front + utf8Length piece) =
      some (String.ofList piece) := by
  have behind : text.toList = (front ++ piece) ++ rest := by rw [eq, List.append_assoc]
  have stop := isValid_of_split behind
  rw [utf8Length_append] at stop
  rw [slice?, if_pos ⟨Nat.le_add_right _ _, stop.le_rawEndPos, isValid_of_split eq, stop⟩,
    extract_of_split eq]

theorem slice?_front (piece rest : List Char) :
    slice? (String.ofList (piece ++ rest)) 0 (utf8Length piece) = some (String.ofList piece) := by
  have eq : (String.ofList (piece ++ rest)).toList = [] ++ (piece ++ rest) := String.toList_ofList
  have := slice?_of_split eq
  rwa [utf8Length_nil, Nat.zero_add] at this

theorem slice?_behind (piece rest : List Char) :
    slice? (String.ofList (piece ++ rest)) (utf8Length piece)
      (String.ofList (piece ++ rest)).utf8ByteSize = some (String.ofList rest) := by
  have eq : (String.ofList (piece ++ rest)).toList = piece ++ (rest ++ []) := by
    rw [String.toList_ofList, List.append_nil]
  rw [utf8ByteSize_ofList, utf8Length_append]
  exact slice?_of_split eq

example : slice? "é+" 2 3 = some "+" ∧ slice? "é+" 1 3 = none := by decide

/-- What may begin with a character that is no blank. -/
inductive Start where
  | single (kind : Kind)
  | doubled (second : Char) (kind : Kind)
  | orEqual (longer shorter : Kind)
  | keyword
  | number
  | nothing
deriving DecidableEq

def keywords : List (String × Kind) :=
  [("if", .ifWord), ("then", .thenWord), ("else", .elseWord)]

namespace Start

def of? (c : Char) : Option Start :=
  match c with
  | '(' => some (single .leftParen)
  | ')' => some (single .rightParen)
  | '+' => some (single (.binary .add))
  | '-' => some (single (.binary .sub))
  | '*' => some (single (.binary .mul))
  | '/' => some (single (.binary .div))
  | '&' => some (doubled '&' (.binary .and))
  | '|' => some (doubled '|' (.binary .or))
  | '=' => some (doubled '=' (.binary .eq))
  | '!' => some (orEqual (.binary .neq) .bang)
  | '>' => some (orEqual (.binary .gte) (.binary .gt))
  | '<' => some (orEqual (.binary .lte) (.binary .lt))
  | ' ' | '\t' => none
  | c => if c.isAlpha then some keyword else if c.isDigit then some number else some nothing

theorem of?_eq_none_iff {c : Char} : of? c = none ↔ isBlank c := by
  unfold of?
  split
  case h_15 => grind [isBlank_iff]
  all_goals decide

theorem not_isDigit_of_isAlpha {c : Char} (alpha : c.isAlpha) : ¬c.isDigit := by
  intro digit
  have le : c.val ≤ '9'.val := of_decide_eq_true (Bool.and_eq_true_iff.1 digit).2
  have ge : 'A'.val ≤ c.val := by
    rcases Bool.or_eq_true_iff.1 alpha with upper | lower
    · exact (of_decide_eq_true upper).1
    · exact UInt32.le_trans (by decide) (of_decide_eq_true (Bool.and_eq_true_iff.1 lower).1)
  exact absurd (UInt32.le_trans ge le) (by decide)

theorem of?_eq_number_iff {c : Char} : of? c = some number ↔ c.isDigit := by
  unfold of?
  split
  case h_15 => grind [not_isDigit_of_isAlpha]
  all_goals decide

def table (c : Char) : Start → List (List Char × Kind)
  | single kind => [([c], kind)]
  | doubled second kind => [([c, second], kind)]
  | orEqual longer shorter => [([c, '='], longer), ([c], shorter)]
  | keyword => keywords.map fun k => (k.1.toList, k.2)
  | number | nothing => []

theorem exists_table_of_mem_marks : ∀ m ∈ marks, ∀ c ∈ m.1.head?,
    ∃ start, of? c = some start ∧ m ∈ start.table c := by
  have checked : ∀ m ∈ marks,
      m.1.head?.all fun c => (of? c).any fun start => (start.table c).contains m := by
    decide
  simpa [Option.all_eq_true, Option.any_eq_true] using checked

theorem keyword_mem_marks : ∀ k ∈ keywords, (k.1.toList, k.2) ∈ marks := by
  decide

theorem keyword_not_takesEqual : ∀ k ∈ keywords, ¬k.2.takesEqual := by
  decide

theorem mem_marks_of_mem_table (c : Char) :
    ∀ start ∈ (of? c).toList, ∀ m ∈ start.table c, m ∈ marks := by
  unfold of?
  split
  case h_15 =>
    split
    next =>
      rw [Option.toList_some, List.forall_mem_singleton]
      exact List.forall_mem_map.2 keyword_mem_marks
    next => split <;> simp [table]
  all_goals decide

section start

variable {c : Char} {start : Start} (h : of? c = some start)
include h

theorem mem_table_of_mem_marks {m : List Char × Kind} (mem : m ∈ marks) (head : m.1.head? = some c) :
    m ∈ start.table c := by
  obtain ⟨start', known, here⟩ := exists_table_of_mem_marks m mem c head
  cases Option.some.inj (h.symm.trans known)
  exact here

theorem not_takesEqual {s : List Char} {k : Kind} (mem : (s, k) ∈ start.table c)
    (head : s.head? = some c) (alone : ∀ m ∈ start.table c, m.1 ≠ s ++ ['=']) :
    ¬k.takesEqual := by
  intro takes
  have mark := mem_marks_of_mem_table c start (by simp [h]) _ mem
  obtain ⟨m, mem', eq⟩ := exists_mark_of_takesEqual _ mark takes
  exact alone m (mem_table_of_mem_marks h mem' (by simp [eq, head])) eq

end start

end Start

/-- What is left of a text, and the bytes in front of it. -/
structure Slicer where
  whole : String
  rest : String
  byte : Nat
deriving DecidableEq

namespace Slicer

def ofString (text : String) : Slicer :=
  ⟨text, text, 0⟩

def behind (l : Slicer) (c : Char) (cs : List Char) : Slicer :=
  { l with rest := String.ofList cs, byte := l.byte + c.utf8Size }

def forward (l : Slicer) (bytes : Nat) : Option Slicer := do
  let rest ← slice? l.rest bytes l.rest.utf8ByteSize
  return { l with rest, byte := l.byte + bytes }

def pair (l ahead : Slicer) (c second : Char) (kind : Kind) :
    Option (Option (Except LexError Token) × Slicer) := do
  let after ← ahead.forward second.utf8Size
  let literal ← slice? l.rest 0 (c.utf8Size + second.utf8Size)
  return (some (.ok ⟨kind, literal, l.byte⟩), after)

/-- The literal of so many bytes at the front, and the place after it; `ahead` is the place behind
its first character. -/
def stretch (l ahead : Slicer) (c : Char) (bytes : Nat) : Option (String × Slicer) := do
  let literal ← slice? l.rest 0 bytes
  if c.utf8Size ≤ literal.utf8ByteSize then
    let after ← ahead.forward (literal.utf8ByteSize - c.utf8Size)
    return (literal, after)
  else
    none

def fail (l : Slicer) (x : LexError) : Option (Except LexError Token) × Slicer :=
  (some (.error x), { l with rest := "", byte := l.whole.utf8ByteSize })

/-- The token or error at the front, and the place after it. The first character is `c`, with the
characters `cs` behind it; `first` is its literal and `ahead` the place after it. -/
def token (l ahead : Slicer) (c : Char) (cs : List Char) (first : String) :
    Start → Option (Option (Except LexError Token) × Slicer)
  | .single kind => some (some (.ok ⟨kind, first, l.byte⟩), ahead)
  | .doubled second kind =>
    if cs.head? = some second then
      l.pair ahead c second kind
    else
      some (ahead.fail (.unexpectedCharacter c l.byte))
  | .orEqual longer shorter =>
    if cs.head? = some '=' then
      l.pair ahead c '=' longer
    else
      some (some (.ok ⟨shorter, first, l.byte⟩), ahead)
  | .keyword =>
    match keywords.find? fun k => k.1.toList.isPrefixOf (c :: cs) with
    | some (spelling, kind) => do
      let (literal, after) ← l.stretch ahead c spelling.utf8ByteSize
      return (some (.ok ⟨kind, literal, l.byte⟩), after)
    | none => some (ahead.fail (.unexpectedCharacter c l.byte))
  | .number => do
    let (literal, after) ← l.stretch ahead c (utf8Length ((c :: cs).takeWhile Char.isDigit))
    match Decimal.value? maxLiteral literal.toList with
    | some n => return (some (.ok ⟨.number (.ofNat n), literal, l.byte⟩), after)
    | none => return after.fail (.literalTooLarge literal l.byte)
  | .nothing => some (ahead.fail (.unexpectedCharacter c l.byte))

def next (l : Slicer) : Option (Option (Except LexError Token) × Slicer) :=
  match _h : l.rest.toList with
  | [] => some (none, l)
  | c :: cs => do
    let first ← slice? l.rest 0 c.utf8Size
    let ahead := l.behind c cs
    match Start.of? c with
    | some start => l.token ahead c cs first start
    | none => ahead.next
termination_by l.rest.toList.length
decreasing_by simp [behind, _h]

end Slicer

namespace Cursor

variable {c : Char} {cs : List Char} {offset : Nat} {start : Start}

def slicer (text : String) (k : Cursor) : Slicer :=
  ⟨text, String.ofList k.rest, k.offset⟩

theorem next_of_isBlank (h : isBlank c) :
    next ⟨c :: cs, offset⟩ = next ⟨cs, offset + c.utf8Size⟩ := by
  have skipped : skipBlanks ⟨c :: cs, offset⟩ = skipBlanks ⟨cs, offset + c.utf8Size⟩ := by
    simp only [skipBlanks, List.dropWhile_cons_of_pos h, List.takeWhile_cons_of_pos h,
      utf8Length_cons, Nat.add_assoc]
  rw [next, skipped, next]

theorem next_of_start (h : Start.of? c = some start) : next ⟨c :: cs, offset⟩ =
    match munch offset c cs with
    | .ok (t, rest) => (some (.ok t), ⟨rest, t.span.stop⟩)
    | .error x => (some (.error x), finish ⟨c :: cs, offset⟩) := by
  have visible : ¬isBlank c := by
    rw [← Start.of?_eq_none_iff, h]
    simp
  have skipped : skipBlanks ⟨c :: cs, offset⟩ = ⟨c :: cs, offset⟩ := by
    simp only [skipBlanks, List.dropWhile_cons_of_neg visible, List.takeWhile_cons_of_neg visible,
      utf8Length_nil, Nat.add_zero]
  unfold next
  split
  next h =>
    rw [skipped] at h
    cases h
  next h =>
    rw [skipped] at h
    cases h
    rfl

theorem next_of_mark {s rest : List Char} {k : Kind} (h : Start.of? c = some start)
    (mem : (s, k) ∈ start.table c) (eq : c :: cs = s ++ rest)
    (ends : k.takesEqual → rest.head? ≠ some '=') :
    next ⟨c :: cs, offset⟩ =
      (some (.ok ⟨k, String.ofList s, offset⟩), ⟨rest, offset + utf8Length s⟩) := by
  have mark := Start.mem_marks_of_mem_table c start (by simp [h]) _ mem
  have found := mark?_eq_some_iff.2 ⟨mark, rest, eq, ends⟩
  rw [next_of_start h, munch_spelled found, eq, List.drop_left]
  simp only [Token.span, Span.stop, utf8ByteSize_ofList]

theorem next_of_single {k : Kind} (h : Start.of? c = some start) (mem : ([c], k) ∈ start.table c)
    (ends : k.takesEqual → cs.head? ≠ some '=') :
    next ⟨c :: cs, offset⟩ =
      (some (.ok ⟨k, String.ofList [c], offset⟩), ⟨cs, offset + utf8Length [c]⟩) :=
  next_of_mark h mem rfl ends

theorem next_of_munch_error {text : String} {front : List Char} {x : LexError}
    (h : Start.of? c = some start) (eq : text.toList = front ++ c :: cs)
    (failed : munch (utf8Length front) c cs = .error x) :
    next ⟨c :: cs, utf8Length front⟩ = (some (.error x), ⟨[], text.utf8ByteSize⟩) := by
  rw [next_of_start h, failed, utf8ByteSize_eq_utf8Length, eq, utf8Length_append]
  rfl

theorem next_of_no_mark {text : String} {front : List Char} (h : Start.of? c = some start)
    (other : start ≠ .number) (eq : text.toList = front ++ c :: cs)
    (none : ∀ m ∈ start.table c, ¬m.1 <+: c :: cs) :
    next ⟨c :: cs, utf8Length front⟩ =
      (some (.error (.unexpectedCharacter c (utf8Length front))), ⟨[], text.utf8ByteSize⟩) := by
  have unmarked : mark? (c :: cs) = .none := by
    refine List.find?_eq_none.2 fun m mem found => ?_
    have front : m.1 <+: c :: cs := List.isPrefixOf_iff_prefix.1 found
    obtain ⟨d, ds, eq⟩ := List.exists_cons_of_ne_nil (mark_ne_nil m mem)
    have same : d = c := (List.cons_prefix_cons.1 (eq ▸ front)).1
    exact none m (Start.mem_table_of_mem_marks h mem (by simp [eq, same])) front
  have other' : ¬c.isDigit := by
    rw [← Start.of?_eq_number_iff, h]
    simpa using other
  exact next_of_munch_error h eq (munch_other unmarked other')

end Cursor

namespace Slicer

theorem forward_slicer (text : String) (piece rest : List Char) (offset : Nat) :
    (Cursor.slicer text ⟨piece ++ rest, offset⟩).forward (utf8Length piece) =
      some (Cursor.slicer text ⟨rest, offset + utf8Length piece⟩) := by
  simp only [forward, Cursor.slicer, slice?_behind]
  rfl

theorem pair_slicer {c d : Char} {k : Kind} {start : Start} (h : Start.of? c = some start)
    (mem : ([c, d], k) ∈ start.table c) (alone : ∀ m ∈ start.table c, m.1 ≠ [c, d, '='])
    (text : String) (rest : List Char) (offset : Nat) :
    (Cursor.slicer text ⟨c :: d :: rest, offset⟩).pair
        (Cursor.slicer text ⟨d :: rest, offset + c.utf8Size⟩) c d k =
      some ((Cursor.next ⟨c :: d :: rest, offset⟩).1,
        Cursor.slicer text (Cursor.next ⟨c :: d :: rest, offset⟩).2) := by
  have ends : ¬k.takesEqual := Start.not_takesEqual h mem rfl alone
  have taken : Cursor.next ⟨[c, d] ++ rest, offset⟩ = _ :=
    Cursor.next_of_mark h mem rfl (absurd · ends)
  have after : (Cursor.slicer text ⟨d :: rest, offset + c.utf8Size⟩).forward d.utf8Size =
      some (Cursor.slicer text ⟨rest, offset + c.utf8Size + d.utf8Size⟩) :=
    forward_slicer text [d] rest _
  have literal : slice? (Cursor.slicer text ⟨c :: d :: rest, offset⟩).rest 0
      (c.utf8Size + d.utf8Size) = some (String.ofList [c, d]) := slice?_front [c, d] rest
  rw [List.cons_append, List.singleton_append] at taken
  simp only [pair, after, literal, taken, Option.bind_eq_bind, Option.bind_some]
  rw [Nat.add_assoc]
  rfl

theorem stretch_slicer (text : String) (c : Char) (piece rest : List Char) (offset : Nat) :
    (Cursor.slicer text ⟨c :: (piece ++ rest), offset⟩).stretch
        (Cursor.slicer text ⟨piece ++ rest, offset + c.utf8Size⟩) c (utf8Length (c :: piece)) =
      some (String.ofList (c :: piece),
        Cursor.slicer text ⟨rest, offset + utf8Length (c :: piece)⟩) := by
  have after := forward_slicer text piece rest (offset + c.utf8Size)
  have literal : slice? (Cursor.slicer text ⟨c :: (piece ++ rest), offset⟩).rest 0
      (utf8Length (c :: piece)) = some (String.ofList (c :: piece)) := slice?_front (c :: piece) rest
  have extra : utf8Length (c :: piece) - c.utf8Size = utf8Length piece := Nat.add_sub_cancel_left ..
  have enough : c.utf8Size ≤ utf8Length (c :: piece) := Nat.le_add_right ..
  rw [Nat.add_assoc, ← utf8Length_cons] at after
  simp only [stretch, literal, after, Option.bind_eq_bind, Option.bind_some, utf8ByteSize_ofList,
    enough, if_true, extra]
  rfl

theorem fail_slicer (text : String) (k : Cursor) (x : LexError) :
    (Cursor.slicer text k).fail x =
      (some (.error x), Cursor.slicer text ⟨[], text.utf8ByteSize⟩) := by
  simp only [fail, Cursor.slicer, String.ofList_nil]

section front

variable {text : String} {front cs : List Char} {c : Char}

theorem keyword_slicer (h : Start.of? c = some .keyword) (eq : text.toList = front ++ c :: cs) :
    (Cursor.slicer text ⟨c :: cs, utf8Length front⟩).token
        (Cursor.slicer text ⟨cs, utf8Length front + c.utf8Size⟩) c cs (String.ofList [c]) .keyword =
      some ((Cursor.next ⟨c :: cs, utf8Length front⟩).1,
        Cursor.slicer text (Cursor.next ⟨c :: cs, utf8Length front⟩).2) := by
  rw [token]
  split
  next spelling kind found =>
    have mem : (spelling, kind) ∈ keywords := List.mem_of_find?_eq_some found
    have alone : ¬kind.takesEqual := Start.keyword_not_takesEqual _ mem
    obtain ⟨rest, cut⟩ : spelling.toList <+: c :: cs := by simpa using List.find?_some found
    obtain ⟨d, piece, chars⟩ : ∃ d piece, spelling.toList = d :: piece :=
      List.exists_cons_of_ne_nil (mark_ne_nil _ (Start.keyword_mem_marks _ mem))
    rw [chars, List.cons_append] at cut
    obtain ⟨rfl, rfl⟩ := List.cons.inj cut
    have entry : (d :: piece, kind) ∈ Start.keyword.table d :=
      List.mem_map.2 ⟨_, mem, by rw [chars]⟩
    have taken : Cursor.next ⟨d :: piece ++ rest, utf8Length front⟩ = _ :=
      Cursor.next_of_mark h entry rfl (absurd · alone)
    have literal := stretch_slicer text d piece rest (utf8Length front)
    rw [List.cons_append] at taken
    rw [← chars, ← utf8ByteSize_eq_utf8Length, String.ofList_toList] at literal taken
    simp only [literal, taken]
    rfl
  next none =>
    rw [fail_slicer, Cursor.next_of_no_mark h (by simp) eq]
    · rfl
    · rintro m mem front
      obtain ⟨k, keyword, rfl⟩ := List.mem_map.1 mem
      exact List.find?_eq_none.1 none k keyword (List.isPrefixOf_iff_prefix.2 front)

theorem number_slicer (h : Start.of? c = some .number) (eq : text.toList = front ++ c :: cs) :
    (Cursor.slicer text ⟨c :: cs, utf8Length front⟩).token
        (Cursor.slicer text ⟨cs, utf8Length front + c.utf8Size⟩) c cs (String.ofList [c]) .number =
      some ((Cursor.next ⟨c :: cs, utf8Length front⟩).1,
        Cursor.slicer text (Cursor.next ⟨c :: cs, utf8Length front⟩).2) := by
  have digit : c.isDigit := Start.of?_eq_number_iff.1 h
  have digits : (c :: cs).takeWhile Char.isDigit = c :: cs.takeWhile Char.isDigit :=
    List.takeWhile_cons_of_pos digit
  have rest : (c :: cs).dropWhile Char.isDigit = cs.dropWhile Char.isDigit :=
    List.dropWhile_cons_of_pos digit
  have literal := stretch_slicer text c (cs.takeWhile Char.isDigit) (cs.dropWhile Char.isDigit)
    (utf8Length front)
  rw [List.takeWhile_append_dropWhile, ← digits] at literal
  simp only [token, literal, Option.bind_eq_bind, Option.bind_some, String.toList_ofList]
  split
  next n hn =>
    rw [Cursor.next_of_start h, munch_number digit hn, rest]
    simp only [Token.span, Span.stop, utf8ByteSize_ofList]
    rfl
  next hn =>
    rw [Cursor.next_of_munch_error h eq (munch_large digit hn), fail_slicer]
    rfl

theorem token_slicer {start : Start} (h : Start.of? c = some start)
    (eq : text.toList = front ++ c :: cs) :
    (Cursor.slicer text ⟨c :: cs, utf8Length front⟩).token
        (Cursor.slicer text ⟨cs, utf8Length front + c.utf8Size⟩) c cs (String.ofList [c]) start =
      some ((Cursor.next ⟨c :: cs, utf8Length front⟩).1,
        Cursor.slicer text (Cursor.next ⟨c :: cs, utf8Length front⟩).2) := by
  cases start with
  | single kind =>
    have mem : ([c], kind) ∈ (Start.single kind).table c := List.mem_singleton_self _
    have alone : ¬kind.takesEqual := Start.not_takesEqual h mem rfl (by simp [Start.table])
    rw [Cursor.next_of_single h mem (absurd · alone)]
    rfl
  | doubled second kind =>
    rw [token]
    split
    next head =>
      obtain ⟨rest, rfl⟩ := List.head?_eq_some_iff.1 head
      exact pair_slicer h (List.mem_singleton_self _) (by simp [Start.table]) text rest _
    next no =>
      rw [fail_slicer, Cursor.next_of_no_mark h (by simp) eq]
      · rfl
      · rintro m mem ⟨rest, cut⟩
        cases List.mem_singleton.1 mem
        cases cut
        exact no rfl
  | orEqual longer shorter =>
    rw [token]
    split
    next head =>
      obtain ⟨rest, rfl⟩ := List.head?_eq_some_iff.1 head
      exact pair_slicer h List.mem_cons_self (by simp [Start.table]) text rest _
    next no =>
      rw [Cursor.next_of_single h (List.mem_cons_of_mem _ (List.mem_singleton_self _)) fun _ => no]
      rfl
  | keyword => exact keyword_slicer h eq
  | number => exact number_slicer h eq
  | nothing =>
    rw [token, fail_slicer, Cursor.next_of_no_mark h (by simp) eq (List.forall_mem_nil _)]
    rfl

/-- A call of the slicer is one of the cursor. -/
theorem next_slicer (eq : text.toList = front ++ cs) :
    (Cursor.slicer text ⟨cs, utf8Length front⟩).next =
      some ((Cursor.next ⟨cs, utf8Length front⟩).1,
        Cursor.slicer text (Cursor.next ⟨cs, utf8Length front⟩).2) := by
  induction cs generalizing front with
  | nil =>
    have none_left : Blank [] := by simp [Blank]
    rw [next, Cursor.next_of_blank none_left]
    rfl
  | cons c cs ih =>
    have chars : (Cursor.slicer text ⟨c :: cs, utf8Length front⟩).rest.toList = c :: cs :=
      String.toList_ofList
    have first : slice? (Cursor.slicer text ⟨c :: cs, utf8Length front⟩).rest 0 c.utf8Size =
        some (String.ofList [c]) := slice?_front [c] cs
    have behind : (Cursor.slicer text ⟨c :: cs, utf8Length front⟩).behind c cs =
        Cursor.slicer text ⟨cs, utf8Length front + c.utf8Size⟩ := rfl
    rw [next]
    split
    next h =>
      rw [chars] at h
      cases h
    next c' cs' h =>
      rw [chars] at h
      cases h
      simp only [first, behind, Option.bind_eq_bind, Option.bind_some]
      split
      next start h => exact token_slicer h eq
      next h =>
        have further : text.toList = (front ++ [c]) ++ cs := by rw [eq, List.append_assoc]; rfl
        have size : utf8Length (front ++ [c]) = utf8Length front + c.utf8Size := by simp
        rw [Cursor.next_of_isBlank (Start.of?_eq_none_iff.1 h), ← size]
        exact ih further

end front

def run : Nat → Slicer → Option (List (Option (Except LexError Token)) × Slicer)
  | 0, l => some ([], l)
  | n + 1, l => do
    let (answer, l') ← l.next
    let (answers, l'') ← l'.run n
    return (answer :: answers, l'')

end Slicer

namespace Cursor

def after : Nat → Cursor → Cursor
  | 0, k => k
  | n + 1, k => after n k.next.2

/-- What is left is the end of the text, and the offset counts what is in front of it. -/
def StandsIn (text : String) (k : Cursor) : Prop :=
  ∃ front, text.toList = front ++ k.rest ∧ k.offset = utf8Length front

theorem next_of_no_token {k : Cursor} (h : ∀ t, k.next.1 ≠ some (.ok t)) :
    k.next.2 = ⟨[], k.offset + utf8Length k.rest⟩ := by
  obtain ⟨g, -, eq, eq_offset⟩ := k.exists_gap
  rw [eq, utf8Length_append, ← Nat.add_assoc, ← eq_offset]
  unfold next at h ⊢
  split
  next offset hs => simp [hs]
  next c cs offset hs =>
    rw [hs] at h
    split
    next t rest munched => simp [munched] at h
    next => simp [hs, finish]

variable {text : String} {k : Cursor}

theorem StandsIn.isValid (h : StandsIn text k) : String.Pos.Raw.IsValid text ⟨k.offset⟩ := by
  obtain ⟨front, eq, offset⟩ := h
  rw [offset]
  exact isValid_of_split eq

theorem StandsIn.rest_eq (h : StandsIn text k) :
    String.ofList k.rest = String.Pos.Raw.extract text ⟨k.offset⟩ text.rawEndPos := by
  obtain ⟨front, eq, offset⟩ := h
  have split : text.toList = front ++ (k.rest ++ []) := by rw [eq, List.append_nil]
  rw [String.rawEndPos, utf8ByteSize_eq_utf8Length, eq, utf8Length_append, offset,
    extract_of_split split]

theorem StandsIn.next (h : StandsIn text k) : StandsIn text k.next.2 := by
  obtain ⟨front, eq, offset⟩ := h
  by_cases token : ∃ t, k.next.1 = some (.ok t)
  · obtain ⟨t, given⟩ := token
    obtain ⟨g, -, rest, place, -, -, stop⟩ := tile_of_next (Prod.ext given rfl)
    refine ⟨front ++ (g ++ t.literal.toList), by simp [eq, rest], ?_⟩
    rw [stop, Token.span, Span.stop, place, offset, utf8ByteSize_eq_utf8Length]
    simp only [utf8Length_append, Nat.add_assoc]
  · rw [next_of_no_token fun t given => token ⟨t, given⟩]
    exact ⟨text.toList, by simp, by rw [offset, eq, utf8Length_append]⟩

theorem StandsIn.slicer_next (h : StandsIn text k) :
    (k.slicer text).next = some (k.next.1, k.next.2.slicer text) := by
  obtain ⟨front, eq, offset⟩ := h
  obtain ⟨rest, _⟩ := k
  cases offset
  exact Slicer.next_slicer eq

theorem StandsIn.after (h : StandsIn text k) (n : Nat) : StandsIn text (k.after n) := by
  induction n generalizing k with
  | zero => exact h
  | succ n ih => exact ih h.next

theorem StandsIn.slicer_run (h : StandsIn text k) (n : Nat) :
    (k.slicer text).run n = some (k.answers n, (k.after n).slicer text) := by
  induction n generalizing k with
  | zero => rfl
  | succ n ih =>
    simp only [Slicer.run, h.slicer_next, ih h.next, Option.bind_eq_bind, Option.bind_some]
    rfl

theorem lt_offset_of_next {k' : Cursor} {t : Token} (h : k.next = (some (.ok t), k')) :
    k.offset < k'.offset := by
  obtain ⟨g, -, -, place, writes, -, stop⟩ := tile_of_next h
  have size := writes.size_pos
  have stop' : k'.offset = t.offset + t.literal.utf8ByteSize := stop
  omega

end Cursor

/-- However often a slicer is called, it cuts where it may, and gives what the cursor gives. Then its
byte lies in the text and between characters, its rest is the text from there on, and the next call
works as well; if that gives a token, the byte has grown. -/
theorem slices_in_step (text : String) (n : Nat) : ∃ l : Slicer,
    (Slicer.ofString text).run n = some ((Cursor.ofString text).answers n, l) ∧
    l = ((Cursor.ofString text).after n).slicer text ∧
    l.byte ≤ text.utf8ByteSize ∧ String.Pos.Raw.IsValid text ⟨l.byte⟩ ∧
    l.rest = String.Pos.Raw.extract text ⟨l.byte⟩ text.rawEndPos ∧
    ∃ answer l', l.next = some (answer, l') ∧
      ∀ t, answer = some (.ok t) → l.byte < l'.byte := by
  have start : (Cursor.ofString text).StandsIn text := ⟨[], rfl, rfl⟩
  have same : (Cursor.ofString text).slicer text = Slicer.ofString text := by
    rw [Cursor.slicer, Cursor.ofString, String.ofList_toList, Slicer.ofString]
  have stands := start.after n
  have run := start.slicer_run n
  rw [same] at run
  generalize (Cursor.ofString text).after n = k at stands run
  refine ⟨_, run, rfl, stands.isValid.le_rawEndPos, stands.isValid, stands.rest_eq, _, _,
    stands.slicer_next, ?_⟩
  intro t token
  exact Cursor.lt_offset_of_next (Prod.ext token rfl)

end CondCalc
