import CondCalc.Expr.SyntaxError
import CondCalc.Proofs.Lexis.Tiling
import Mathlib.Data.String.Basic

/-! Where tokens and errors stand in their text. An offset counts the bytes of the characters in
front of it, so it lies between characters, and the characters of a span are those of the text
at its place. -/
namespace CondCalc

/-- The span is not empty and covers the piece of the text: both of its ends lie between
characters. -/
structure Span.Covers (s : Span) (text piece : String) : Prop where
  length_pos : 0 < s.length
  stop_le : s.stop ≤ text.utf8ByteSize
  start_valid : String.Pos.Raw.IsValid text ⟨s.offset⟩
  stop_valid : String.Pos.Raw.IsValid text ⟨s.stop⟩
  extract_eq : String.Pos.Raw.extract text ⟨s.offset⟩ ⟨s.stop⟩ = piece

/-- The span is empty and stands at the end of the last token, behind which only blanks follow. -/
structure Span.Closes (s : Span) (text : String) (ts : List Token) : Prop where
  length_eq : s.length = 0
  offset_le : s.offset ≤ text.utf8ByteSize
  offset_nil : ts = [] → s.offset = 0
  offset_last : ∀ t ∈ ts.getLast?, s.offset = t.offset + t.literal.utf8ByteSize
  blank : Blank (String.Pos.Raw.extract text ⟨s.offset⟩ text.rawEndPos).toList

theorem utf8Len_eq (cs : List Char) : String.utf8Len cs = utf8Length cs := by
  induction cs with
  | nil => rfl
  | cons c cs ih => rw [String.utf8Len_cons, ih, utf8Length_cons, Nat.add_comm]

section split

variable {text : String} {front piece rest : List Char}

theorem isValid_of_split (eq : text.toList = front ++ rest) :
    String.Pos.Raw.IsValid text ⟨utf8Length front⟩ := by
  rw [String.Pos.Raw.isValid_iff_exists_append]
  refine ⟨String.ofList front, String.ofList rest, ?_, ?_⟩
  · rw [← String.ofList_append, ← eq, String.ofList_toList]
  · rw [String.rawEndPos, utf8ByteSize_ofList]

theorem extract_of_split (eq : text.toList = front ++ (piece ++ rest)) :
    String.Pos.Raw.extract text ⟨utf8Length front⟩ ⟨utf8Length front + utf8Length piece⟩ =
      String.ofList piece := by
  have := String.extract_of_valid front piece rest
  rwa [utf8Len_eq, utf8Len_eq, List.append_assoc, ← eq, String.ofList_toList] at this

theorem get_of_split {c : Char} (eq : text.toList = front ++ c :: rest) :
    String.Pos.Raw.get text ⟨utf8Length front⟩ = c := by
  have := String.get_of_valid front (c :: rest)
  rwa [utf8Len_eq, ← eq, String.ofList_toList] at this

theorem Span.covers_of_split (eq : text.toList = front ++ (piece ++ rest)) (ne : piece ≠ []) :
    Span.Covers ⟨utf8Length front, utf8Length piece⟩ text (String.ofList piece) where
  length_pos := by
    obtain ⟨c, cs, rfl⟩ := List.exists_cons_of_ne_nil ne
    exact Nat.add_pos_left c.utf8Size_pos _
  stop_le := by
    rw [utf8ByteSize_eq_utf8Length, eq, utf8Length_append, utf8Length_append]
    exact Nat.add_le_add_left (Nat.le_add_right _ _) _
  start_valid := isValid_of_split eq
  stop_valid := by
    rw [← List.append_assoc] at eq
    have := isValid_of_split eq
    rwa [utf8Length_append] at this
  extract_eq := extract_of_split eq

end split

section tokens

variable {offset : Nat} {cs : List Char} {t : Token} {ts : List Token}

theorem Tiles.exists_split (h : Tiles offset cs ts) (mem : t ∈ ts) :
    ∃ front rest, cs = front ++ (t.literal.toList ++ rest) ∧
      t.offset = offset + utf8Length front := by
  induction h with
  | gap => cases mem
  | @token offset g rest s ts _ eq _ _ _ ih =>
    cases mem with
    | head => exact ⟨g, rest, rfl, eq⟩
    | tail _ mem =>
      obtain ⟨front, after, rfl, eq'⟩ := ih mem
      exact ⟨g ++ (s.literal.toList ++ front), after, by simp, eq'.trans (s.stop_add eq front)⟩

theorem Tiles.exists_last (h : Tiles offset cs ts) :
    (ts = [] ∧ Blank cs) ∨ ∃ front t g, cs = front ++ (t.literal.toList ++ g) ∧
      ts.getLast? = some t ∧ t.kind.Writes t.literal ∧ Blank g ∧
      t.offset = offset + utf8Length front := by
  induction h with
  | gap blank => exact .inl ⟨rfl, blank⟩
  | @token offset g rest t ts blank eq writes ends tiles ih =>
    right
    rcases ih with ⟨rfl, blank'⟩ | ⟨front, u, g', rfl, last, writes', blank', eq'⟩
    · exact ⟨g, t, rest, rfl, rfl, writes, blank', eq⟩
    · refine ⟨g ++ (t.literal.toList ++ front), u, g', by simp, ?_, writes', blank',
        eq'.trans (t.stop_add eq front)⟩
      rw [List.getLast?_cons, last, Option.getD_some]

theorem Tiles.exists_end (h : Tiles offset cs ts) :
    ∃ front g, cs = front ++ g ∧ Blank g ∧ (ts = [] → front = []) ∧
      ∀ t ∈ ts.getLast?, t.span.stop = offset + utf8Length front := by
  rcases h.exists_last with ⟨rfl, blank⟩ | ⟨front, t, g, rfl, last, -, blank, eq⟩
  · exact ⟨[], cs, rfl, blank, fun _ => rfl, by simp⟩
  · refine ⟨front ++ t.literal.toList, g, by simp, blank, ?_, ?_⟩
    · rintro rfl
      cases last
    · intro u mem
      cases last.symm.trans mem
      have stop := t.stop_add eq []
      rw [List.append_nil] at stop
      exact stop

end tokens

section text

variable {text : String} {t : Token} {ts : List Token}

theorem Token.span_covers (h : tokenize text = .ok ts) (mem : t ∈ ts) :
    t.span.Covers text t.literal := by
  have tiles := tiles_of_tokenize h
  obtain ⟨front, rest, eq, offset⟩ := tiles.exists_split mem
  obtain ⟨c, cs, literal, -⟩ := (tiles.writes t mem).head
  have ne : t.literal.toList ≠ [] := by simp [literal]
  have covers := Span.covers_of_split eq ne
  rw [String.ofList_toList, ← utf8ByteSize_eq_utf8Length] at covers
  rwa [Token.span, offset, Nat.zero_add]

theorem endOffset_closes (h : tokenize text = .ok ts) :
    Span.Closes ⟨endOffset ts, 0⟩ text ts := by
  obtain ⟨front, g, eq, blank, empty, last⟩ := (tiles_of_tokenize h).exists_end
  have place : endOffset ts = utf8Length front := by
    unfold endOffset
    split
    next t hl => rw [last t hl, Nat.zero_add]
    next hl => rw [empty (List.getLast?_eq_none_iff.1 hl), utf8Length_nil]
  have size : text.utf8ByteSize = utf8Length front + utf8Length g := by
    rw [utf8ByteSize_eq_utf8Length, eq, utf8Length_append]
  refine ⟨rfl, ?_, ?_, ?_, ?_⟩
  · rw [place, size]
    exact Nat.le_add_right _ _
  · rintro rfl
    rfl
  · intro t mem
    rw [place, ← Nat.zero_add (utf8Length front), ← last t mem]
    rfl
  · have split : text.toList = front ++ (g ++ []) := by rw [List.append_nil, eq]
    have extracted := extract_of_split split
    rw [place, String.rawEndPos, size, extracted, String.toList_ofList]
    exact blank

end text

end CondCalc
