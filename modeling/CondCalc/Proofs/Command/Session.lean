import CondCalc.Proofs.Command.Echo

/-! A session line by line. The response is that of one line after the other, and what a line that
is a text adds to it depends on this line only. So behind such lines a session goes on as it would
begin, whatever they came to. -/
namespace CondCalc

def Response.behind (r : Response) (output : String) (notes : List Note) : Response :=
  { r with output := output ++ r.output, notes := notes ++ r.notes }

theorem Response.behind_behind (r : Response) (output output' : String) (notes notes' : List Note) :
    (r.behind output' notes').behind output notes =
      r.behind (output ++ output') (notes ++ notes') := by
  simp [behind, String.append_assoc]

theorem Response.behind_nil (r : Response) : r.behind "" [] = r := by
  simp [behind]

namespace Session

variable {render : Rendering} {mode : Option Mode}

/-- The response to the lines of an input, apart from the opening. -/
def onLines (render : Rendering) (mode : Option Mode) : List (List UInt8) → Response
  | [] => ⟨0, prompt, []⟩
  | line :: rest =>
    match turn render mode line with
    | .ok t => (onLines render mode rest).behind (prompt ++ t.output) t.notes
    | .error e => ⟨1, prompt, [refusal e]⟩

theorem onLines_of_ok {line : List UInt8} {t : Turn} (h : turn render mode line = .ok t)
    (rest : List (List UInt8)) : onLines render mode (line :: rest) =
      (onLines render mode rest).behind (prompt ++ t.output) t.notes := by
  rw [onLines, h]

theorem onLines_of_error {line : List UInt8} {e : ReadError} (h : turn render mode line = .error e)
    (rest : List (List UInt8)) : onLines render mode (line :: rest) = ⟨1, prompt, [refusal e]⟩ := by
  rw [onLines, h]

def shown (taken : List Turn) : String :=
  String.join (taken.reverse.map fun t => prompt ++ t.output)

def noted (taken : List Turn) : List Note :=
  taken.reverse.flatMap Turn.notes

theorem shown_cons (t : Turn) (taken : List Turn) :
    shown (t :: taken) = shown taken ++ (prompt ++ t.output) := by
  simp [shown]

theorem noted_cons (t : Turn) (taken : List Turn) :
    noted (t :: taken) = noted taken ++ t.notes := by
  simp [noted]

theorem splitLine_ne_nil {bytes : List UInt8} (h : bytes ≠ []) : (splitLine bytes).1 ≠ [] := by
  obtain ⟨b, bytes, rfl⟩ := List.exists_cons_of_ne_nil h
  rw [splitLine_cons]
  split <;> exact List.cons_ne_nil _ _

theorem onLines_lines (input : List UInt8) : onLines render mode (lines input) =
    match step render mode (splitLine input).1 with
    | (t, some status) => ⟨status, prompt ++ t.output, t.notes⟩
    | (t, none) =>
      (onLines render mode (lines (splitLine input).2)).behind (prompt ++ t.output) t.notes := by
  by_cases none : input = []
  · subst none
    rfl
  · have line : (splitLine input).1.isEmpty = false := by simpa using splitLine_ne_nil none
    rw [lines_eq_cons none, onLines, step, line]
    cases turn render mode (splitLine input).1 with
    | ok t => rfl
    | error e => rfl

theorem turns_eq_onLines (input : List UInt8) (taken : List Turn) :
    ⟨(turns render mode input taken).2, shown (turns render mode input taken).1,
        noted (turns render mode input taken).1⟩ =
      (onLines render mode (lines input)).behind (shown taken) (noted taken) := by
  -- along the calls of `turns`, which carry the turns of the earlier lines
  induction input, taken using turns.induct render mode with
  | case1 input taken t status ends =>
    rw [onLines_lines, ends, turns, Response.behind]
    split
    next t' status' eq =>
      cases ends.symm.trans eq
      rw [shown_cons, noted_cons]
    next t' eq => cases ends.symm.trans eq
  | case2 input taken t goes ih =>
    rw [onLines_lines, goes, turns]
    split
    next t' status' eq => cases goes.symm.trans eq
    next t' eq =>
      cases goes.symm.trans eq
      rw [ih, shown_cons, noted_cons, Response.behind_behind]

section run

variable (render mode)

theorem run_eq_onLines (input : List UInt8) :
    run render mode input = (onLines render mode (lines input)).behind "" [opening mode] := by
  have eq : _ = (onLines render mode (lines input)).behind "" [] := turns_eq_onLines input []
  rw [Response.behind_nil] at eq
  rw [← eq, Response.behind]
  simp only [String.empty_append]
  rfl

theorem turn_of_encodes {line : List UInt8} {text : String} (h : Encodes line text) :
    turn render mode line = .ok (answer render mode text) := by
  rw [turn, decodeText_eq_ok_iff.2 h, Except.map]

theorem turn_of_not_isText {line : List UInt8} (h : ¬IsText line) :
    ∃ e, turn render mode line = .error e := by
  cases eq : decodeText line with
  | ok text => exact absurd ⟨text, decodeText_eq_ok_iff.1 eq⟩ h
  | error e => exact ⟨e, by rw [turn, eq, Except.map]⟩

theorem exists_behind {front : List (List UInt8)} (texts : ∀ l ∈ front, IsText l) :
    ∃ output notes, (onLines render mode front).output = output ++ prompt ∧ ∀ back,
      onLines render mode (front ++ back) = (onLines render mode back).behind output notes := by
  induction front with
  | nil => exact ⟨"", [], rfl, fun back => (Response.behind_nil _).symm⟩
  | cons line front ih =>
    rw [List.forall_mem_cons] at texts
    obtain ⟨⟨text, encodes⟩, texts⟩ := texts
    obtain ⟨output, notes, alone, eq⟩ := ih texts
    have first := onLines_of_ok (turn_of_encodes render mode encodes)
    refine ⟨prompt ++ (answer render mode text).output ++ output,
      (answer render mode text).notes ++ notes, ?_, ?_⟩
    · simp only [first, Response.behind, alone, String.append_assoc]
    · intro back
      rw [List.cons_append, first, eq, Response.behind_behind]

theorem output_run (input : List UInt8) :
    (run render mode input).output = (onLines render mode (lines input)).output := by
  rw [run_eq_onLines, Response.behind, String.empty_append]

theorem status_run (input : List UInt8) :
    (run render mode input).status = (onLines render mode (lines input)).status := by
  rw [run_eq_onLines, Response.behind]

theorem exists_prompt (ls : List (List UInt8)) :
    ∃ after, (onLines render mode ls).output = prompt ++ after := by
  cases ls with
  | nil => exact ⟨"", rfl⟩
  | cons line rest =>
    cases h : turn render mode line with
    | ok t =>
      rw [onLines_of_ok h]
      exact ⟨t.output ++ (onLines render mode rest).output, String.append_assoc ..⟩
    | error e =>
      rw [onLines_of_error h]
      exact ⟨"", rfl⟩

end run

/-- A session treats every line on its own, and only a line that is no text ends it before the input
ends. Behind whole lines that are texts it goes on as it would begin. What it shows on a text, from
one prompt to the next, echoes the evaluation of a file that holds the same bytes. -/
theorem run_line_by_line (render : Rendering) (mode : Option Mode) :
    (∀ x y, Ended x → (∀ l ∈ lines x, IsText l) → ∃ kept,
      (run render mode x).output = kept ++ prompt ∧
      (run render mode (x ++ y)).output = kept ++ (run render mode y).output ∧
      (run render mode (x ++ y)).status = (run render mode y).status) ∧
    (∀ front line back text, LineAt front line back → Encodes line text → ∃ before shown after,
      (run render mode front).output = before ++ prompt ∧
      (run render mode back).output = prompt ++ after ∧
      (run render mode (front ++ line ++ back)).output =
        before ++ prompt ++ shown ++ (prompt ++ after) ∧
      (run render mode (front ++ line ++ back)).status = (run render mode back).status ∧
      ∀ s path, Surroundings.file s path = .ok line →
        Echoes text shown (Command.run s (.evaluate (.file path) mode))) ∧
    ∀ front line back, LineAt front line back → ¬IsText line →
      (run render mode (front ++ line ++ back)).output = (run render mode front).output ∧
      (run render mode (front ++ line ++ back)).status = 1 := by
  simp only [output_run, status_run]
  refine ⟨?_, ?_, ?_⟩
  · intro x y ended texts
    obtain ⟨kept, notes, alone, eq⟩ := exists_behind render mode texts
    rw [lines_append ended, alone, eq]
    exact ⟨kept, rfl, rfl, rfl⟩
  · intro front line back text place encodes
    obtain ⟨before, notes, alone, eq⟩ := exists_behind render mode place.texts
    obtain ⟨after, later⟩ := exists_prompt render mode (lines back)
    rw [place.lines_eq, alone, eq, onLines_of_ok (turn_of_encodes render mode encodes)]
    refine ⟨before, (answer render mode text).output, after, rfl, later, ?_, rfl, ?_⟩
    · simp only [Response.behind, later, String.append_assoc]
    · exact fun s path file => answer_echoes render mode file encodes
  · intro front line back place noText
    obtain ⟨before, notes, alone, eq⟩ := exists_behind render mode place.texts
    obtain ⟨e, refused⟩ := turn_of_not_isText render mode noText
    rw [place.lines_eq, alone, eq, onLines_of_error refused]
    exact ⟨rfl, rfl⟩

/-- A line that fails, one with a result and one that is no text. -/
theorem run_line_by_line_of_mixed_input :
    let render := Report.plain
    let mode := some Mode.arithmetic
    let failing : List UInt8 := [49, 43, 10]
    let good : List UInt8 := [50, 47, 50, 10]
    let bad : List UInt8 := [195, 10]
    let s : Surroundings := ⟨[], fun _ => .ok good, render⟩
    ((Ended failing ∧ ∀ l ∈ lines failing, IsText l) ∧
      (LineAt failing good bad ∧ Encodes good "2/2\n" ∧ s.file "two" = .ok good) ∧
      LineAt failing bad good ∧ ¬IsText bad) ∧
    (∃ kept, (run render mode failing).output = kept ++ prompt ∧
      (run render mode (failing ++ good)).output = kept ++ (run render mode good).output ∧
      (run render mode (failing ++ good)).status = (run render mode good).status) ∧
    (∃ before shown after, (run render mode failing).output = before ++ prompt ∧
      (run render mode bad).output = prompt ++ after ∧
      (run render mode (failing ++ good ++ bad)).output =
        before ++ prompt ++ shown ++ (prompt ++ after) ∧
      (run render mode (failing ++ good ++ bad)).status = (run render mode bad).status ∧
      Echoes "2/2\n" shown (Command.run s (.evaluate (.file "two") mode))) ∧
    (run render mode (failing ++ bad ++ good)).output = (run render mode failing).output ∧
      (run render mode (failing ++ bad ++ good)).status = 1 := by
  intro render mode failing good bad s
  have ended : Ended failing := .inr rfl
  have text : Encodes failing "1+\n" := decodeText_eq_ok_iff.1 (by decide +kernel)
  have texts : ∀ l ∈ lines failing, IsText l := by
    simpa [failing, lines, newline] using ⟨"1+\n", text⟩
  have encodes : Encodes good "2/2\n" := decodeText_eq_ok_iff.1 (by decide +kernel)
  have file : s.file "two" = .ok good := rfl
  have first : LineAt failing good bad := ⟨ended, texts, by decide, .inl (.inr rfl)⟩
  have second : LineAt failing bad good := ⟨ended, texts, by decide, .inl (.inr rfl)⟩
  have noText : ¬IsText bad := by
    rintro ⟨text, h⟩
    have refused : decodeText bad = .error .notText := by decide +kernel
    rw [decodeText_eq_ok_iff.2 h] at refused
    cases refused
  obtain ⟨compose, echo, stop⟩ := run_line_by_line render mode
  obtain ⟨before, shown, after, h₁, h₂, h₃, h₄, echoes⟩ := echo failing good bad _ first encodes
  exact ⟨⟨⟨ended, texts⟩, ⟨first, encodes, file⟩, second, noText⟩,
    compose failing good ended texts,
    ⟨before, shown, after, h₁, h₂, h₃, h₄, echoes s "two" file⟩,
    stop failing bad good second noText⟩

end Session

end CondCalc
