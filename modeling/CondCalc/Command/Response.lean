import CondCalc.Log.Filter
import CondCalc.Report

/-! What a command shows. Notes are kept apart from which of them are logged, so the log filter
cannot change the output or the exit status. -/
namespace CondCalc

/-- A line beside the output: one for the log, or one that is always shown. -/
inductive Note where
  | log (level : LogLevel) (text : String)
  | always (text : String)
deriving DecidableEq

def Note.shown? (filter : LogFilter) : Note → Option String
  | log level text =>
    if filter.shows level text then some (level.name ++ " " ++ text) else none
  | always text => some text

def unlines (lines : List String) : String :=
  String.join (lines.map (· ++ "\n"))

def shownNotes (filter : LogFilter) (notes : List Note) : String :=
  unlines (notes.filterMap (Note.shown? filter))

def complaint (text : String) : Note :=
  .always ("warning: " ++ text)

def modeText : Option Mode → String
  | none => "None"
  | some .arithmetic => "Some(Arithmetic)"
  | some .logical => "Some(Logical)"
  | some .conditional => "Some(Conditional)"

structure Response where
  status : Nat
  output : String
  notes : List Note
deriving DecidableEq

/-- What a response shows besides its output. Complaints about the log specification come before
anything else. -/
def Response.errorOutput (r : Response) (filter : LogFilter) : String :=
  shownNotes filter (filter.complaints.map complaint ++ r.notes)

/-- How reports on a text of a given name are drawn. -/
abbrev Rendering := String → String → Report → String

namespace Error

/-- The exit status: 65 for what is wrong with the text, 70 for what is wrong with its value. -/
def status : Error → Nat
  | lexical _ | syntactic _ | mode _ => 65
  | evaluation _ => 70

def stage : Error → String
  | lexical _ => "Lexical"
  | syntactic _ => "Syntactic"
  | mode _ => "Mode"
  | evaluation _ => "Evaluation"

def notes (render : Rendering) (name text message : String) (e : Error) : List Note :=
  [.log .warn message, .always (render name text e.report)]

end Error

end CondCalc
