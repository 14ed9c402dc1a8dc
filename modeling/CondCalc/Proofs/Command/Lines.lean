import CondCalc.Command.Session
import Mathlib.Tactic.Common

/-! The lines of an input, byte by byte. Taking one line after the other off its front finds the
same ones, and behind a line that has ended the next lines are those that they would be alone. -/
namespace CondCalc

def Encodes (bytes : List UInt8) (text : String) : Prop :=
  bytes.toByteArray = text.toUTF8

def IsText (bytes : List UInt8) : Prop :=
  ∃ text, Encodes bytes text

theorem decodeText_eq_ok_iff {bytes : List UInt8} {text : String} :
    decodeText bytes = .ok text ↔ Encodes bytes text := by
  constructor
  · intro h
    unfold decodeText at h
    split at h
    next eq =>
      cases h
      unfold String.fromUTF8? at eq
      split at eq
      · cases eq
        rfl
      · cases eq
    next => cases h
  · intro h
    unfold decodeText String.fromUTF8?
    rw [h, String.toUTF8, dif_pos text.isValidUTF8]
    rfl

namespace Session

def lines : List UInt8 → List (List UInt8)
  | [] => []
  | b :: bytes =>
    if b = newline then [b] :: lines bytes
    else match lines bytes with
      | [] => [[b]]
      | line :: rest => (b :: line) :: rest

theorem splitLine_cons (b : UInt8) (bytes : List UInt8) : splitLine (b :: bytes) =
    if b = newline then ([b], bytes) else (b :: (splitLine bytes).1, (splitLine bytes).2) := by
  unfold splitLine
  by_cases ends : b = newline
  · simp [ends]
  · have goes : (b != newline) = true := by simpa using ends
    simp only [if_neg ends, List.dropWhile_cons, List.takeWhile_cons, goes, ↓reduceIte]
    cases bytes.dropWhile (· != newline) <;> rfl

theorem lines_eq_cons {bytes : List UInt8} (h : bytes ≠ []) :
    lines bytes = (splitLine bytes).1 :: lines (splitLine bytes).2 := by
  induction bytes with
  | nil => exact absurd rfl h
  | cons b bytes ih =>
    rw [splitLine_cons, lines]
    split
    · rfl
    · by_cases empty : bytes = []
      · subst empty
        rfl
      · rw [ih empty]

/-- The input has no line at its end that could go on. -/
def Ended (bytes : List UInt8) : Prop :=
  bytes = [] ∨ bytes.getLast? = some newline

theorem lines_append {x : List UInt8} (h : Ended x) (y : List UInt8) :
    lines (x ++ y) = lines x ++ lines y := by
  induction x with
  | nil => rfl
  | cons b bytes ih =>
    have last := h.resolve_left (List.cons_ne_nil b bytes)
    cases bytes with
    | nil =>
      cases last
      rfl
    | cons c bytes =>
      rw [List.getLast?_cons_cons] at last
      have eq := lines_eq_cons (List.cons_ne_nil c bytes)
      rw [List.cons_append, lines, lines, ih (.inr last), eq]
      split <;> rfl

example : lines ([49, 10, 10] ++ [50]) = [[49, 10], [10]] ++ [[50]] := by decide

/-- The bytes in the middle are one line, behind whole lines that are all texts and in front of
other lines. -/
structure LineAt (front line back : List UInt8) : Prop where
  ended : Ended front
  texts : ∀ l ∈ lines front, IsText l
  single : lines line = [line]
  last : Ended line ∨ back = []

theorem LineAt.lines_eq {front line back : List UInt8} (h : LineAt front line back) :
    lines (front ++ line ++ back) = lines front ++ line :: lines back := by
  have behind : lines (line ++ back) = line :: lines back := by
    rcases h.last with ended | rfl
    · rw [lines_append ended, h.single, List.singleton_append]
    · rw [List.append_nil, h.single, lines]
  rw [List.append_assoc, lines_append h.ended, behind]

end Session

end CondCalc
