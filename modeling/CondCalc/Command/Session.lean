import CondCalc.Command.Directory
import CondCalc.Command.Response
import CondCalc.Expr.SExpr
import CondCalc.Text.WhiteSpace

/-! A session answers expressions line by line. Each line is answered on its own, a bad expression
is only reported, and a line that is no text ends the session. -/
namespace CondCalc.Session

def prompt : String := "> "

structure Turn where
  output : String
  notes : List Note
deriving DecidableEq

variable (render : Rendering) (mode : Option Mode)

def answer (line : String) : Turn :=
  let expression := trim line
  if expression.isEmpty then
    ⟨"Please enter an expression.\n", []⟩
  else
    match calculate expression mode with
    | .ok o => ⟨"Result: " ++ o.value.text ++ "\n", [.log .trace ("ast: " ++ o.tree.sexpr)]⟩
    | .error e => ⟨"", e.notes render "<stdin>" expression (e.stage ++ " error")⟩

def turn (line : List UInt8) : Except ReadError Turn :=
  (decodeText line).map (answer render mode)

def opening : Note :=
  .log .debug ("repl started in mode " ++ modeText mode)

def refusal (e : ReadError) : Note :=
  .always ("reading failed: " ++ e.message)

def newline : UInt8 := 10

def splitLine (bytes : List UInt8) : List UInt8 × List UInt8 :=
  match bytes.dropWhile (· != newline) with
  | [] => (bytes, [])
  | e :: rest => (bytes.takeWhile (· != newline) ++ [e], rest)

theorem length_splitLine_lt {bytes : List UInt8} (h : bytes ≠ []) :
    (splitLine bytes).2.length < bytes.length := by
  have le := (List.dropWhile_sublist (l := bytes) (· != newline)).length_le
  unfold splitLine
  split
  next => exact List.length_pos_iff.2 h
  next e rest eq =>
    rw [eq] at le
    exact le

/-- One round of the session, after its prompt: what is shown on the line that has been read, and
the exit status if the session ends here. At the end of the input the line is empty. -/
def step (line : List UInt8) : Turn × Option Nat :=
  if line.isEmpty then
    (⟨"", []⟩, some 0)
  else
    match turn render mode line with
    | .ok t => (t, none)
    | .error e => (⟨"", [refusal e]⟩, some 1)

def turns (input : List UInt8) (taken : List Turn) : List Turn × Nat :=
  match _h : step render mode (splitLine input).1 with
  | (t, some status) => (t :: taken, status)
  | (t, none) => turns (splitLine input).2 (t :: taken)
termination_by input.length
decreasing_by
  refine length_splitLine_lt ?_
  rintro rfl
  cases _h

/-- Every turn starts with a prompt, the one that finds no more line included. -/
def run (input : List UInt8) : Response :=
  let (taken, status) := turns render mode input []
  let taken := taken.reverse
  { status
    output := String.join (taken.map fun t => prompt ++ t.output)
    notes := opening mode :: taken.flatMap Turn.notes }

end CondCalc.Session
