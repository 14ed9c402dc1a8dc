import CondCalc.Proofs.Command.Sources
import Mathlib.Data.List.TakeWhile

/-! A line of a session and a file of the same bytes. Both are read as the same text, without the
white space around it, and calculated alike; so what the session shows can be told from the response
to the file, and the response from what the session shows. -/
namespace CondCalc

theorem trimWhiteSpace_eq_nil_iff {cs : List Char} :
    trimWhiteSpace cs = [] ↔ ∀ c ∈ cs, isWhiteSpace c := by
  rw [trimWhiteSpace, List.reverse_eq_nil_iff, List.dropWhile_eq_nil_iff]
  constructor
  · intro blank c mem
    rw [← List.takeWhile_append_dropWhile (p := isWhiteSpace) (l := cs), List.mem_append] at mem
    rcases mem with dropped | left
    · exact List.mem_takeWhile_imp dropped
    · exact blank c (List.mem_reverse.2 left)
  · intro blank c mem
    exact blank c ((List.dropWhile_sublist isWhiteSpace).subset (List.mem_reverse.1 mem))

theorem isEmpty_trim_iff {text : String} :
    (trim text).isEmpty ↔ ∀ c ∈ text.toList, isWhiteSpace c := by
  rw [← trimWhiteSpace_eq_nil_iff, trim]
  simp

theorem Error.status_eq (e : Error) : e.status = 65 ∨ e.status = 70 := by
  cases e <;> simp [status]

/-- What a session shows on a line is a reminder if the line is blank; otherwise it is the result
that the response to a file of the same bytes has, or nothing if that response has none. -/
structure Echoes (text shown : String) (r : Response) : Prop where
  blank : (∀ c ∈ text.toList, isWhiteSpace c) → shown = "Please enter an expression.\n"
  either : (∃ c ∈ text.toList, ¬isWhiteSpace c) →
    shown = "" ∨ ∃ v, shown = "Result: " ++ v ++ "\n"
  result : (∃ c ∈ text.toList, ¬isWhiteSpace c) → ∀ v, shown = "Result: " ++ v ++ "\n" ↔
    r.status = 0 ∧ r.output = v ++ "\n"
  nothing : (∃ c ∈ text.toList, ¬isWhiteSpace c) → (shown = "" ↔ r.status = 65 ∨ r.status = 70)

section echoes

variable {text v : String} {r : Response}

theorem Echoes.of_blank (blank : ∀ c ∈ text.toList, isWhiteSpace c) :
    Echoes text "Please enter an expression.\n" r where
  blank _ := rfl
  either := fun ⟨c, mem, visible⟩ => absurd (blank c mem) visible
  result := fun ⟨c, mem, visible⟩ => absurd (blank c mem) visible
  nothing := fun ⟨c, mem, visible⟩ => absurd (blank c mem) visible

theorem Echoes.of_result (visible : ∃ c ∈ text.toList, ¬isWhiteSpace c) (status : r.status = 0)
    (output : r.output = v ++ "\n") : Echoes text ("Result: " ++ v ++ "\n") r where
  blank blank := absurd blank (by simpa using visible)
  either _ := .inr ⟨v, rfl⟩
  result _ w := by
    rw [status, output, String.append_left_inj, String.append_right_inj, String.append_left_inj]
    simp
  nothing _ := by
    rw [status]
    simp

theorem Echoes.of_failure (visible : ∃ c ∈ text.toList, ¬isWhiteSpace c)
    (status : r.status = 65 ∨ r.status = 70) : Echoes text "" r where
  blank blank := absurd blank (by simpa using visible)
  either _ := .inl rfl
  result _ w := by
    have ne : r.status ≠ 0 := by omega
    simp [ne]
  nothing _ := iff_of_true rfl status

end echoes

namespace Session

theorem answer_echoes {s : Surroundings} {path text : String} {line : List UInt8}
    (render : Rendering) (mode : Option Mode) (file : s.file path = .ok line)
    (encodes : Encodes line text) :
    Echoes text (answer render mode text).output (Command.run s (.evaluate (.file path) mode)) := by
  have holds : Source.Holds s (.file path) text := .file file encodes
  have status : (Command.run s (.evaluate (.file path) mode)).status = _ :=
    Command.status_run rfl holds
  have output : (Command.run s (.evaluate (.file path) mode)).output = _ :=
    Command.output_run rfl holds
  have found := valueFindings_lines mode (trim text)
  by_cases blank : (trim text).isEmpty
  · simp only [answer, blank, ↓reduceIte]
    exact .of_blank (isEmpty_trim_iff.1 blank)
  · have visible : ∃ c ∈ text.toList, ¬isWhiteSpace c := by
      rw [isEmpty_trim_iff] at blank
      simpa using blank
    simp only [answer, blank]
    cases calculated : calculate (trim text) mode with
    | ok o =>
      rw [calculated] at found
      refine .of_result visible (status.trans (Findings.status_of_ok found)) ?_
      rw [output, Findings.output_of_ok found]
      simp [unlines]
    | error e =>
      rw [calculated] at found
      rw [Findings.status_of_error found] at status
      exact .of_failure visible (status ▸ e.status_eq)

end Session

end CondCalc
