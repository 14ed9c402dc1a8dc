import CondCalc.Command.Run
import CondCalc.Proofs.Command.Lines
import CondCalc.Proofs.Outcome

/-! Commands on an expression. Its text, without the white space around it, decides the status and
the output; which of the two ways it was given in shows only in the notes. -/
namespace CondCalc

/-- The source holds the text: it is the argument, or a file has it in UTF-8. -/
inductive Source.Holds (s : Surroundings) : Source → String → Prop where
  | text (expression : String) : Holds s (.text expression) expression
  | file {path text : String} {bytes : List UInt8} :
      s.file path = .ok bytes → Encodes bytes text → Holds s (.file path) text

theorem Source.Holds.read_eq {s : Surroundings} {source : Source} {text : String}
    (h : source.Holds s text) : source.read s = .ok (trim text) := by
  cases h with
  | text => rfl
  | file file encodes =>
    rw [Source.read, file, ok_bind, decodeText_eq_ok_iff.2 encodes]
    rfl

namespace Findings

def status (f : Findings) : Nat :=
  match f.lines with
  | .ok _ => 0
  | .error x => x.status

def output (f : Findings) : String :=
  match f.lines with
  | .ok lines => unlines lines
  | .error _ => ""

def notes (render : Rendering) (name text : String) (f : Findings) : List Note :=
  match f.lines with
  | .ok _ => f.messages
  | .error x => f.messages ++ x.notes render name text (x.stage ++ " error in " ++ name)

variable {f : Findings} {lines : List String} {x : Error}

theorem status_of_ok (h : f.lines = .ok lines) : f.status = 0 := by
  rw [status, h]

theorem output_of_ok (h : f.lines = .ok lines) : f.output = unlines lines := by
  rw [output, h]

theorem status_of_error (h : f.lines = .error x) : f.status = x.status := by
  rw [status, h]

theorem output_of_error (h : f.lines = .error x) : f.output = "" := by
  rw [output, h]

end Findings

theorem valueFindings_lines (mode : Option Mode) (text : String) :
    (valueFindings mode text).lines = (calculate text mode).map fun o => [o.value.text] := by
  rw [valueFindings]
  cases calculate text mode <;> rfl

namespace Command

def inquiry? : Command → Option (Source × (String → Findings))
  | tokenize source => some (source, tokenFindings)
  | parse source outline => some (source, treeFindings outline)
  | evaluate source mode => some (source, valueFindings mode)
  | version | session _ => none

variable {s : Surroundings} {command : Command} {source : Source} {find : String → Findings}
  {text : String}

theorem onSource_eq (holds : source.Holds s text) (activity : String → String) :
    onSource s source activity find = ⟨(find (trim text)).status, (find (trim text)).output,
      .log .debug (activity source.name) ::
        (find (trim text)).notes s.render source.name (trim text)⟩ := by
  simp only [onSource, holds.read_eq, Findings.status, Findings.output, Findings.notes]
  cases (find (trim text)).lines with
  | ok lines => rfl
  | error x => rfl

/-- All that is shown but the first message, which the log has before anything is computed. -/
theorem run_eq (asks : command.inquiry? = some (source, find)) (holds : source.Holds s text) :
    ∃ started, command.run s = ⟨(find (trim text)).status, (find (trim text)).output,
      .log .debug started :: (find (trim text)).notes s.render source.name (trim text)⟩ := by
  cases command with
  | tokenize | parse =>
    cases asks
    exact ⟨_, onSource_eq holds _⟩
  | evaluate _ mode =>
    cases asks
    exact ⟨_, onSource_eq holds fun name => "evaluating " ++ name ++ " in mode " ++ modeText mode⟩
  | version | session => cases asks

theorem status_run (asks : command.inquiry? = some (source, find))
    (holds : source.Holds s text) : (command.run s).status = (find (trim text)).status := by
  obtain ⟨started, eq⟩ := run_eq asks holds
  rw [eq]

theorem output_run (asks : command.inquiry? = some (source, find))
    (holds : source.Holds s text) : (command.run s).output = (find (trim text)).output := by
  obtain ⟨started, eq⟩ := run_eq asks holds
  rw [eq]

end Command

end CondCalc
