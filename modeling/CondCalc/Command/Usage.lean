import CondCalc.Mode

/-! Commands and how they are written as arguments. An option's value follows it, or is attached
to it with or without `=`; after `--` nothing is an option. Every way to misuse a command is
refused before anything is read or computed. -/
namespace CondCalc

inductive Source where
  | text (expression : String)
  | file (path : String)
deriving DecidableEq

inductive Command where
  | version
  | tokenize (source : Source)
  | parse (source : Source) (outline : Bool)
  | evaluate (source : Source) (mode : Option Mode)
  | session (mode : Option Mode)
deriving DecidableEq

def Command.path? : Command → Option String
  | tokenize (.file path) | parse (.file path) _ | evaluate (.file path) _ => some path
  | _ => none

inductive Flag where
  | file
  | mode
  | tree
deriving DecidableEq

namespace Flag

def word : Flag → String
  | file => "file"
  | mode => "mode"
  | tree => "tree"

def letter? : Flag → Option Char
  | file => some 'f'
  | mode => some 'm'
  | tree => none

def takesValue : Flag → Bool
  | file | mode => true
  | tree => false

end Flag

inductive UsageError where
  | noCommand
  | unknownCommand (name : String)
  | unknownOption (arg : String)
  | missingValue (flag : Flag)
  | unexpectedValue (flag : Flag)
  | repeated (flag : Flag)
  | noExpression
  | twoSources
  | emptyPath
  | unexpectedOperand (arg : String)
  | unknownMode (e : UnknownMode)
deriving DecidableEq

def UsageError.message : UsageError → String
  | noCommand => "a command is required: tokenize, parse, evaluate or repl"
  | unknownCommand name => "unknown command `" ++ name ++ "`"
  | unknownOption arg => "unknown option `" ++ arg ++ "`"
  | missingValue flag => "option --" ++ flag.word ++ " needs a value"
  | unexpectedValue flag => "option --" ++ flag.word ++ " takes no value"
  | repeated flag => "option --" ++ flag.word ++ " is given twice"
  | noExpression => "an expression or --file is required"
  | twoSources => "an expression and --file exclude each other"
  | emptyPath => "the path of --file is empty"
  | unexpectedOperand arg => "unexpected argument `" ++ arg ++ "`"
  | unknownMode e => e.message

inductive Argument where
  | operand (text : String)
  | endOfOptions
  | option (flag : Flag) (value : Option String)
  | unknown
deriving DecidableEq

def attached? : List Char → Option String
  | [] => none
  | '=' :: value => some (String.ofList value)
  | value => some (String.ofList value)

/-- A lone `-` is an operand, and so is the empty argument. -/
def Argument.read (known : List Flag) (arg : String) : Argument :=
  match arg.toList with
  | ['-', '-'] => .endOfOptions
  | '-' :: '-' :: cs =>
    let value := cs.dropWhile (· != '=')
    match known.find? fun f => f.word.toList = cs.takeWhile (· != '=') with
    | some f => .option f (if value.isEmpty then none else some (String.ofList value.tail))
    | none => .unknown
  | '-' :: c :: cs =>
    match known.find? fun f => f.letter? = some c with
    | some f => .option f (attached? cs)
    | none => .unknown
  | _ => .operand arg

/-- Arguments with this form are never taken as the value of the option before them. -/
def startsOption (arg : String) : Bool :=
  match arg.toList with
  | '-' :: _ :: _ => true
  | _ => false

structure Given where
  operands : List String
  values : List (Flag × String)

namespace Given

def value? (g : Given) (flag : Flag) : Option String :=
  (g.values.find? fun entry => entry.1 = flag).map (·.2)

def addOperand (g : Given) (text : String) : Given :=
  { g with operands := g.operands ++ [text] }

def addValue (g : Given) (flag : Flag) (value : String) : Except UsageError Given :=
  if (g.value? flag).isSome then
    .error (.repeated flag)
  else
    .ok { g with values := (flag, value) :: g.values }

def scan (known : List Flag) (g : Given) : List String → Except UsageError Given
  | [] => .ok g
  | arg :: args =>
    match Argument.read known arg with
    | .operand text => scan known (g.addOperand text) args
    | .endOfOptions => .ok (args.foldl addOperand g)
    | .unknown => .error (.unknownOption arg)
    | .option flag (some v) =>
      if flag.takesValue then do
        let g ← g.addValue flag v
        scan known g args
      else
        .error (.unexpectedValue flag)
    | .option flag none =>
      if flag.takesValue then
        match args with
        | [] => .error (.missingValue flag)
        | v :: rest =>
          if startsOption v then
            .error (.missingValue flag)
          else do
            let g ← g.addValue flag v
            scan known g rest
      else do
        let g ← g.addValue flag ""
        scan known g args

def source (g : Given) : Except UsageError Source :=
  match g.operands, g.value? .file with
  | [], none => .error .noExpression
  | [], some "" => .error .emptyPath
  | [], some path => .ok (.file path)
  | [text], none => .ok (.text text)
  | _ :: extra :: _, none => .error (.unexpectedOperand extra)
  | _ :: _, some _ => .error .twoSources

def mode (g : Given) : Except UsageError (Option Mode) :=
  match g.value? .mode with
  | none => .ok none
  | some name => ((Mode.ofName name).mapError .unknownMode).map some

end Given

namespace Command

def tokenizeOf (args : List String) : Except UsageError Command := do
  let g ← Given.scan [.file] ⟨[], []⟩ args
  return tokenize (← g.source)

def parseOf (args : List String) : Except UsageError Command := do
  let g ← Given.scan [.file, .tree] ⟨[], []⟩ args
  return parse (← g.source) (g.value? .tree).isSome

def evaluateOf (args : List String) : Except UsageError Command := do
  let g ← Given.scan [.file, .mode] ⟨[], []⟩ args
  return evaluate (← g.source) (← g.mode)

def sessionOf (args : List String) : Except UsageError Command := do
  let g ← Given.scan [.mode] ⟨[], []⟩ args
  match g.operands with
  | [] => return session (← g.mode)
  | text :: _ => .error (.unexpectedOperand text)

/-- Asking for the version settles the matter, whatever follows. -/
def asksVersion (arg : String) : Bool :=
  arg = "--version" || ['-', 'V'].isPrefixOf arg.toList

/-- Asking for help (`--help`, `-h`) is left out; here these are unknown options or commands. -/
def ofArgs : List String → Except UsageError Command
  | [] => .error .noCommand
  | name :: args =>
    if asksVersion name then
      .ok version
    else
      match name with
      | "tokenize" => tokenizeOf args
      | "parse" => parseOf args
      | "evaluate" => evaluateOf args
      | "repl" => sessionOf args
      | _ => .error (.unknownCommand name)

end Command

end CondCalc
