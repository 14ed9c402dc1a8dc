import CondCalc.Command.Run

/-! The program: it fetches what a command reads and shows the response. A session is answered
while it is being read, one line at a time. -/
namespace CondCalc

def logVariable : String := "RUST_LOG"

partial def readLine (input : IO.FS.Stream) (line : ByteArray) : IO ByteArray := do
  let next ← input.read 1
  let line := line ++ next
  if next.isEmpty || next.toList = [Session.newline] then
    return line
  else
    readLine input line

partial def converse (filter : LogFilter) (mode : Option Mode) : IO UInt32 := do
  IO.print Session.prompt
  (← IO.getStdout).flush
  let line ← readLine (← IO.getStdin) .empty
  let (turn, status?) := Session.step Report.plain mode line.toList
  IO.print turn.output
  IO.eprint (shownNotes filter turn.notes)
  match status? with
  | some status => return .ofNat status
  | none => converse filter mode

def readFile (path : String) : IO (Except ReadError (List UInt8)) := do
  try
    return .ok (← IO.FS.readBinFile path).toList
  catch _ =>
    return .error .notFound

end CondCalc

open CondCalc in
def main (args : List String) : IO UInt32 := do
  let filter := LogFilter.ofText ((← IO.getEnv logVariable).getD "")
  let respond (r : Response) : IO UInt32 := do
    IO.print r.output
    IO.eprint (r.errorOutput filter)
    return .ofNat r.status
  match Command.ofArgs args with
  | .ok (.session mode) =>
    IO.eprint (shownNotes filter (filter.complaints.map complaint ++ [Session.opening mode]))
    converse filter mode
  | .ok command =>
    let contents ← match command.path? with
      | some path => readFile path
      | none => pure (.error .notFound)
    respond (command.run ⟨[], fun _ => contents, Report.plain⟩)
  | .error e => respond (Command.misuse e)
