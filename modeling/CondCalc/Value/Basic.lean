import CondCalc.Text.Decimal

/-! Values: 64-bit signed integers and booleans, and the range that integers have to fit in. -/
namespace CondCalc

inductive Ty where
  | integer
  | boolean
deriving DecidableEq

def Ty.name : Ty → String
  | integer => "integer"
  | boolean => "boolean"

inductive Value where
  | integer (n : Int64)
  | boolean (b : Bool)
deriving DecidableEq

namespace Value

def ty : Value → Ty
  | integer _ => .integer
  | boolean _ => .boolean

def text : Value → String
  | integer n => Decimal.text n.toInt
  | boolean true => "true"
  | boolean false => "false"

end Value

def Fits (n : Int) : Prop :=
  -0x8000_0000_0000_0000 ≤ n ∧ n ≤ 0x7FFF_FFFF_FFFF_FFFF

instance (n : Int) : Decidable (Fits n) :=
  inferInstanceAs (Decidable (_ ∧ _))

theorem fits_toInt (n : Int64) : Fits n.toInt :=
  ⟨n.le_toInt, Int.le_sub_one_of_lt n.toInt_lt⟩

theorem toInt_ofInt_of_fits {n : Int} (h : Fits n) : (Int64.ofInt n).toInt = n :=
  Int64.toInt_ofInt_of_le h.1 (Int.lt_of_le_sub_one h.2)

end CondCalc
