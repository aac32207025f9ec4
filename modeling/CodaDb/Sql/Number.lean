import Mathlib.Algebra.Group.Int.Defs
import Mathlib.Algebra.Group.Nat.Defs
import Mathlib.Tactic.Lemma

/-!
# `sql_number`

The variant of a `sql_number` on an LP64 platform: null, one of the integral types with a value in
its range, or a floating point number kept as the exact value it stands for.
-/

namespace CodaDb

/-- The integral alternatives of `sql_number`. -/
inductive IntKind where
  | bool | char | uchar | wchar | short | ushort | int | uint | long | ulong | llong | ullong
deriving DecidableEq, Repr

namespace IntKind

def min : IntKind → Int
  | .char => -(2 ^ 7)
  | .short => -(2 ^ 15)
  | .wchar | .int => -(2 ^ 31)
  | .long | .llong => -(2 ^ 63)
  | .bool | .uchar | .ushort | .uint | .ulong | .ullong => 0

def max : IntKind → Int
  | .bool => 1
  | .char => 2 ^ 7 - 1
  | .uchar => 2 ^ 8 - 1
  | .short => 2 ^ 15 - 1
  | .ushort => 2 ^ 16 - 1
  | .wchar | .int => 2 ^ 31 - 1
  | .uint => 2 ^ 32 - 1
  | .long | .llong => 2 ^ 63 - 1
  | .ulong | .ullong => 2 ^ 64 - 1

end IntKind

/-- A value of an integral type, in its range. -/
abbrev CInt (k : IntKind) := { v : Int // k.min ≤ v ∧ v ≤ k.max }

inductive FloatKind where
  | float | double | longDouble
deriving DecidableEq, Repr

/-- A floating point value: `mantissa * 2 ^ exponent` with a sign, an infinity or a NaN. -/
inductive FloatValue where
  | finite (negative : Bool) (mantissa : Nat) (exponent : Int)
  | infinity (negative : Bool)
  | nan (negative : Bool)
deriving DecidableEq, Repr

inductive SqlNumber where
  | null
  | integral (k : IntKind) (v : CInt k)
  | floating (k : FloatKind) (v : FloatValue)
deriving DecidableEq, Repr

/-- `num / den` rounded to the nearest integer, ties to even. -/
def roundHalfEven (num den : Nat) : Nat :=
  let q := num / den
  let r := num % den
  if 2 * r < den then q
  else if den < 2 * r then q + 1
  else if q % 2 = 0 then q else q + 1

/-- The decimal digits of `n`, with leading zeros up to `width` characters. -/
def zeroPadded (width n : Nat) : String :=
  "".pushn '0' (width - (toString n).length) ++ toString n

namespace FloatValue

/-- `std::to_string` of a floating point value, which is `printf`'s `%f`. -/
def toString : FloatValue → String
  | .finite negative mantissa exponent =>
    let micros := match exponent with
      | .ofNat e => mantissa * 2 ^ e * 10 ^ 6
      | .negSucc e => roundHalfEven (mantissa * 10 ^ 6) (2 ^ (e + 1))
    (if negative then "-" else "") ++ ToString.toString (micros / 10 ^ 6) ++ "." ++
      zeroPadded 6 (micros % 10 ^ 6)
  | .infinity negative => if negative then "-inf" else "inf"
  | .nan negative => if negative then "-nan" else "nan"

end FloatValue

namespace SqlNumber

/-- `sql_number::to_string`: the visitor `as_sql_string`, where the integral alternatives go through
`std::to_string`. -/
def toString : SqlNumber → String
  | .null => "NULL"
  | .integral _ v => ToString.toString v.val
  | .floating _ v => v.toString

end SqlNumber

end CodaDb
