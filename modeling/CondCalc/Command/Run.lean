import CondCalc.Command.Session
import CondCalc.Command.Usage
import CondCalc.Expr.Outline
import CondCalc.Expr.SExpr
import CondCalc.Log.Specification

/-! Running commands. A command on an expression shows its whole output or none of it. -/
namespace CondCalc

/-- What commands depend on besides their arguments. -/
structure Surroundings where
  input : List UInt8
  file : String → Except ReadError (List UInt8)
  render : Rendering

/-- One rendering, for the program to run with. -/
def Report.plain : Rendering := fun name _ r =>
  let line (l : Label) := "  at " ++ name ++ ":" ++ Decimal.text l.span.offset ++ ": " ++ l.text
  let help := r.help.toList.map ("  help: " ++ ·)
  "\n".intercalate (("error " ++ r.code ++ ": " ++ r.message) :: r.labels.map line ++ help)

def Surroundings.ofDirectory (input : List UInt8) (d : Directory) : Surroundings where
  input := input
  file path := match deviceRead? input path with
    | some bytes => .ok bytes
    | none => d.read path
  render := Report.plain

def Source.name : Source → String
  | text _ => "<input>"
  | file path => path

def Source.read (s : Surroundings) : Source → Except ReadError String
  | text expression => .ok (trim expression)
  | file path => do
    let bytes ← s.file path
    return trim (← decodeText bytes)

structure Findings where
  messages : List Note
  lines : Except Error (List String)

def tokenFindings (text : String) : Findings :=
  ⟨[], (tokensOf text).map fun ts => ts.map Token.display ++ ["EOF  null"]⟩

def treeFindings (outline : Bool) (text : String) : Findings :=
  match tokensOf text with
  | .error e => ⟨[], .error e⟩
  | .ok ts =>
    ⟨[.log .trace (Decimal.text ts.length ++ " tokens")],
      (treeOf ts).map fun tree => if outline then tree.outline else [tree.sexpr]⟩

def valueFindings (mode : Option Mode) (text : String) : Findings :=
  match calculate text mode with
  | .error e => ⟨[], .error e⟩
  | .ok o =>
    ⟨[.log .trace ("ast: " ++ o.tree.sexpr ++ " (" ++ Decimal.text o.tree.size ++ " nodes)")],
      .ok [o.value.text]⟩

namespace Command

def versionText : String := programName ++ " 0.1.0"

/-- The response to an expression. The log says first what is done to it. -/
def onSource (s : Surroundings) (source : Source) (activity : String → String)
    (find : String → Findings) : Response :=
  match source.read s with
  | .error e => ⟨1, "", [.always ("reading `" ++ source.name ++ "` failed: " ++ e.message)]⟩
  | .ok text =>
    let found := find text
    let messages := .log .debug (activity source.name) :: found.messages
    match found.lines with
    | .ok lines => ⟨0, unlines lines, messages⟩
    | .error e =>
      let message := e.stage ++ " error in " ++ source.name
      ⟨e.status, "", messages ++ e.notes s.render source.name text message⟩

def run (s : Surroundings) : Command → Response
  | version => ⟨0, unlines [versionText], []⟩
  | tokenize source => onSource s source ("tokenizing " ++ ·) tokenFindings
  | parse source outline => onSource s source ("parsing " ++ ·) (treeFindings outline)
  | evaluate source mode =>
    onSource s source (fun name => "evaluating " ++ name ++ " in mode " ++ modeText mode)
      (valueFindings mode)
  | session mode => Session.run s.render mode s.input

def misuse (e : UsageError) : Response :=
  ⟨2, "", [.always ("error: " ++ e.message)]⟩

def respond (s : Surroundings) (args : List String) : Response :=
  match ofArgs args with
  | .ok command => command.run s
  | .error e => misuse e

end Command

end CondCalc
