import CondCalc.Token.Basic

/-! Modes hold an expression to some families of operators. The check looks at tokens only, so
it also judges lists that are no expression. -/
namespace CondCalc

inductive Mode where
  | arithmetic
  | logical
  | conditional
deriving DecidableEq

structure UnknownMode where
  name : String
deriving DecidableEq

def UnknownMode.message (e : UnknownMode) : String :=
  "unknown mode `" ++ e.name ++ "`, expected arithmetic, logical or conditional"

inductive ModeError where
  | forbidden (mode : Mode) (family : Family) (token : Token)
  | missingConditional
deriving DecidableEq

namespace Mode

def name : Mode → String
  | arithmetic => "arithmetic"
  | logical => "logical"
  | conditional => "conditional"

/-- The mode of a name; ASCII letters may have either case. -/
def ofName (name : String) : Except UnknownMode Mode :=
  match name.toLower with
  | "arithmetic" => .ok arithmetic
  | "logical" => .ok logical
  | "conditional" => .ok conditional
  | _ => .error ⟨name⟩

def allows : Mode → Family → Bool
  | arithmetic, f => f = .arithmetic
  | logical, f => f = .logical
  | conditional, _ => true

def objection? (m : Mode) (t : Token) : Option ModeError :=
  match t.kind.family? with
  | some f => if m.allows f then none else some (.forbidden m f t)
  | none => none

/-- The first objection to a token; without one, conditional mode still asks for an `if` or
an `else`. -/
def check (m : Mode) (ts : List Token) : Except ModeError Unit :=
  match ts.findSome? m.objection? with
  | some e => .error e
  | none =>
    if m = conditional ∧ ∀ t ∈ ts, t.kind.family? ≠ some .conditional then
      .error .missingConditional
    else
      .ok ()

end Mode

end CondCalc
