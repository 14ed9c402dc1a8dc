/-! Decimal numerals. Reading stops at the first value above a limit, so the cost of a
numeral grows with its length and not with its value; the law `value?_eq` says that this
is the plain value held against the limit. -/
namespace CondCalc.Decimal

def value (digits : List Char) : Nat :=
  Nat.ofDigitChars 10 digits 0

/-- Continues a value by more digits, as long as it stays within the limit. -/
def extend? (limit acc : Nat) : List Char → Option Nat
  | [] => if acc ≤ limit then some acc else none
  | d :: ds => if acc ≤ limit then extend? limit (10 * acc + (d.toNat - '0'.toNat)) ds else none

def value? (limit : Nat) (digits : List Char) : Option Nat :=
  extend? limit 0 digits

theorem le_ofDigitChars (digits : List Char) (acc : Nat) :
    acc ≤ Nat.ofDigitChars 10 digits acc := by
  induction digits generalizing acc with
  | nil => simp
  | cons d ds ih =>
    rw [Nat.ofDigitChars_cons]
    have := ih (10 * acc + (d.toNat - '0'.toNat))
    omega

theorem extend?_eq (limit acc : Nat) (digits : List Char) :
    extend? limit acc digits =
      if Nat.ofDigitChars 10 digits acc ≤ limit then some (Nat.ofDigitChars 10 digits acc)
      else none := by
  induction digits generalizing acc with
  | nil => simp [extend?]
  | cons d ds ih =>
    rw [extend?, ih, Nat.ofDigitChars_cons]
    have := le_ofDigitChars ds (10 * acc + (d.toNat - '0'.toNat))
    split <;> simp_all
    omega

theorem value?_eq (limit : Nat) (digits : List Char) :
    value? limit digits = if value digits ≤ limit then some (value digits) else none :=
  extend?_eq limit 0 digits

/-- The numeral of an integer: no leading zeros, and `-` in front of a negative one. -/
def text : Int → String
  | .ofNat n => String.ofList (Nat.toDigits 10 n)
  | .negSucc n => String.ofList ('-' :: Nat.toDigits 10 (n + 1))

theorem value_toDigits (n : Nat) : value (Nat.toDigits 10 n) = n :=
  Nat.ofDigitChars_toDigits (by decide) (by decide)

end CondCalc.Decimal
