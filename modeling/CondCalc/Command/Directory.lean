/-! Files held in memory, found by relative paths. -/
namespace CondCalc

inductive ReadError where
  | notFound
  | notText
deriving DecidableEq

def ReadError.message : ReadError → String
  | notFound => "there is no such file"
  | notText => "the contents are not valid UTF-8"

def decodeText (bytes : List UInt8) : Except ReadError String :=
  match String.fromUTF8? bytes.toByteArray with
  | some text => .ok text
  | none => .error .notText

structure Directory where
  entries : List (String × List UInt8)

/-- The names along a path; steps to where one already is are left out. -/
def pathNames (path : String) : List String :=
  (path.splitOn "/").filter fun name => name ≠ "" ∧ name ≠ "."

def endsInName (path : String) : Bool :=
  !path.endsWith "/" && !path.endsWith "/."

def Directory.read (d : Directory) (path : String) : Except ReadError (List UInt8) :=
  if endsInName path && !path.startsWith "/" then
    match d.entries.find? fun entry => pathNames entry.1 = pathNames path with
    | some (_, bytes) => .ok bytes
    | none => .error .notFound
  else
    .error .notFound

/-- What the files that every directory can reach hold: nothing, or the standard input. -/
def deviceRead? (input : List UInt8) (path : String) : Option (List UInt8) :=
  if endsInName path && path.startsWith "/" then
    match pathNames path with
    | ["dev", "null"] => some []
    | ["dev", "stdin"] => some input
    | _ => none
  else
    none

end CondCalc
