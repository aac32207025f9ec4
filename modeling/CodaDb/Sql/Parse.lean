import CodaDb.Sql.Convert
import CodaDb.Sql.Time
import Mathlib.Algebra.Group.Nat.Defs

/-!
# Numbers and times read from text

What `sql_number` and `sql_time` make of a string: the functions `strtod`, `strptime` and `timegm`
of the C library, and the order in which the two classes try them.
-/

namespace CodaDb

/-- What `strtof`, `strtod` and `strtold` read after the sign. -/
inductive RealNumeral where
  | quotient (num den : Nat)
  | infinity
  | nan
deriving DecidableEq, Repr

namespace RealNumeral

/-- `num * base ^ e` -/
def scaled (num base : Nat) (e : Int) : RealNumeral :=
  .quotient (num * base ^ e.toNat) (base ^ (-e).toNat)

/-- An exponent after one of two letters; `0` if there are no digits. -/
def exponent (lower upper : Char) : List Char → Int
  | c :: cs =>
    if c = lower ∨ c = upper then ((Numeral.scanSigned cs).map Numeral.signed).getD 0 else 0
  | [] => 0

/-- Digits in a base, with or without a point among them: their number and how many follow the
point. -/
def mantissa (isDigit : Char → Bool) (digit : Char → Nat) (base : Nat) (cs : List Char) :
    Option (Nat × Nat × List Char) :=
  let whole := cs.takeWhile isDigit
  let (fraction, rest) :=
    match cs.dropWhile isDigit with
    | '.' :: rest => (rest.takeWhile isDigit, rest.dropWhile isDigit)
    | rest => ([], rest)
  if whole ++ fraction = [] then none
  else some ((whole ++ fraction).foldl (fun n c => n * base + digit c) 0, fraction.length, rest)

def isHexDigit (c : Char) : Bool :=
  c.isDigit || 'a' ≤ c.toLower && c.toLower ≤ 'f'

def hexDigit (c : Char) : Nat :=
  if c.isDigit then c.toNat - '0'.toNat else c.toLower.toNat - 'a'.toNat + 10

def decimal (cs : List Char) : Option RealNumeral :=
  (mantissa Char.isDigit (fun c => c.toNat - '0'.toNat) 10 cs).map fun (n, places, rest) =>
    scaled n 10 (exponent 'e' 'E' rest - places)

def hexadecimal (cs : List Char) : Option RealNumeral :=
  (mantissa isHexDigit hexDigit 16 cs).map fun (n, places, rest) =>
    scaled n 2 (exponent 'p' 'P' rest - 4 * places)

/-- The longest numeral at the start of a text. -/
def scan (cs : List Char) : Option RealNumeral :=
  let lower := cs.map Char.toLower
  if ['i', 'n', 'f'].isPrefixOf lower then some .infinity
  else if ['n', 'a', 'n'].isPrefixOf lower then some .nan
  else if ['0', 'x'].isPrefixOf lower then (hexadecimal (cs.drop 2)).or (decimal cs)
  else decimal cs

end RealNumeral

/-- `std::stof`, `std::stod` and `std::stold`; `none` for an exception. They throw where the library
sets `ERANGE`: at an overflow, and at a tiny number that is not exact. What is tiny is decided as on
x86, whose `long double` this is. -/
def FloatKind.sto (k : FloatKind) (str : List Char) : Option FloatValue :=
  let (negative, rest) := Numeral.sign (str.dropWhile Numeral.isSpace)
  match RealNumeral.scan rest with
  | none => none
  | some .infinity => some (.infinity negative)
  | some .nan => some (.nan negative)
  | some (.quotient num den) =>
    match FloatValue.round k negative num den with
    | .finite negative m e =>
      let exact := m * 2 ^ e.toNat * den = num * 2 ^ (-e).toNat
      if FloatValue.Tiny k num den ∧ ¬exact then none else some (.finite negative m e)
    | .infinity _ | .nan _ => none

namespace Helper

/-- `equals`, which ignores case. -/
def equalsText (s1 s2 : List Char) : Bool := s1.map Char.toUpper = s2.map Char.toUpper

def isPositiveBool (value : List Char) : Bool :=
  equalsText value ['t', 'r', 'u', 'e'] || equalsText value ['y', 'e', 's'] || value = ['1']

def isNegativeBool (value : List Char) : Bool :=
  equalsText value ['f', 'a', 'l', 's', 'e'] || equalsText value ['n', 'o'] || value = ['0']

/-- `is_bool` -/
def isBool (value : List Char) : Int :=
  if isPositiveBool value then 1 else if isNegativeBool value then -1 else 0

end Helper

namespace SqlNumber

/-- `parse_bool` -/
def parseBool (value : List Char) : Option SqlNumber :=
  if Helper.isBool value ≠ 0 then
    some (.integral .bool (IntKind.bool.convert (if 0 < Helper.isBool value then 1 else 0)))
  else none

/-- `parse_floating` for the three types in turn. -/
def parseFloating (value : List Char) : Option SqlNumber :=
  ((FloatKind.float.sto value).map (.floating .float)).or <|
    ((FloatKind.double.sto value).map (.floating .double)).or <|
      (FloatKind.longDouble.sto value).map (.floating .longDouble)

/-- `parse_integral` for the five types in turn. -/
def parseIntegral (value : List Char) : Option SqlNumber :=
  ((IntKind.int.stoSigned value).map (.integral .int)).or <|
    ((IntKind.long.stoSigned value).map (.integral .long)).or <|
      ((IntKind.ulong.stoUnsigned value).map (.integral .ulong)).or <|
        ((IntKind.llong.stoSigned value).map (.integral .llong)).or <|
          (IntKind.ullong.stoUnsigned value).map (.integral .ullong)

/-- `parse`, and the constructors from a string, which throw a conversion error where it fails. -/
def parse (value : List Char) : Option SqlNumber :=
  if value.any Char.isDigit then
    if '.' ∈ value then parseFloating value else parseIntegral value
  else parseBool value

end SqlNumber

/-- The fields of a `struct tm` as `strptime` sets them: years count from 1900, months from 0. -/
structure RawTm where
  year : Int := 0
  mon : Int := 0
  mday : Int := 0
  hour : Int := 0
  min : Int := 0
  sec : Int := 0
deriving DecidableEq, Repr

/-- `timegm`, the inverse of `gmtime`, which takes months beyond the year into other years. -/
def timegm (tm : RawTm) : Int :=
  let month := tm.mon.fmod 12 + 1
  let year := tm.year + 1900 + tm.mon.fdiv 12 - (if month ≤ 2 then 1 else 0)
  let era := year.fdiv 400
  let yoe := year - era * 400
  let doy := (153 * (if month ≤ 2 then month + 9 else month - 3) + 2) / 5 + tm.mday - 1
  let days := era * 146097 + (yoe * 365 + yoe / 4 - yoe / 100 + doy) - 719468
  days * 86400 + tm.hour * 3600 + tm.min * 60 + tm.sec

example : timegm { year := 116, mon := 2, mday := 11, hour := 8 } = 1457683200 := by decide

/-- `strptime` -/
inductive TimeField where
  | year | month | day | hour | minute | second
  | space
  | char (c : Char)
deriving DecidableEq, Repr

namespace TimeField

/-- A number of at most `digits` digits. The reading stops before a digit that would lead beyond
the bound. -/
def getNumber (hi : Nat) : Nat → Nat → List Char → Nat × List Char
  | digits + 1, val, c :: cs =>
    if c.isDigit ∧ val * 10 ≤ hi then getNumber hi digits (val * 10 + (c.toNat - '0'.toNat)) cs
    else (val, c :: cs)
  | _, val, cs => (val, cs)

/-- White space and a number in a range. -/
def number (lo hi digits : Nat) (cs : List Char) : Option (Nat × List Char) :=
  match cs.dropWhile Numeral.isSpace with
  | c :: rest =>
    if c.isDigit then
      let (val, rest) := getNumber hi (digits - 1) (c.toNat - '0'.toNat) rest
      if lo ≤ val ∧ val ≤ hi then some (val, rest) else none
    else none
  | [] => none

/-- One directive or character of a format. -/
def read (tm : RawTm) (cs : List Char) : TimeField → Option (RawTm × List Char)
  | .year => (number 0 9999 4 cs).map fun r => ({ tm with year := (r.1 : Int) - 1900 }, r.2)
  | .month => (number 1 12 2 cs).map fun r => ({ tm with mon := (r.1 : Int) - 1 }, r.2)
  | .day => (number 1 31 2 cs).map fun r => ({ tm with mday := r.1 }, r.2)
  | .hour => (number 0 23 2 cs).map fun r => ({ tm with hour := r.1 }, r.2)
  | .minute => (number 0 59 2 cs).map fun r => ({ tm with min := r.1 }, r.2)
  | .second => (number 0 61 2 cs).map fun r => ({ tm with sec := r.1 }, r.2)
  | .space => some (tm, cs.dropWhile Numeral.isSpace)
  | .char c => if cs.head? = some c then some (tm, cs.tail) else none

/-- `strptime`: the fields, also where it fails, and whether it read the whole format. -/
def strptime (tm : RawTm) (cs : List Char) : List TimeField → RawTm × Bool
  | [] => (tm, true)
  | f :: fs =>
    match read tm cs f with
    | none => (tm, false)
    | some (tm, cs) => strptime tm cs fs

end TimeField

namespace SqlTime

/-- `%Y-%m-%d` -/
def dateFormat : List TimeField := [.year, .char '-', .month, .char '-', .day]

/-- `%H:%M:%S` -/
def timeFormat : List TimeField := [.hour, .char ':', .minute, .char ':', .second]

/-- `parse`, and the constructor from a string, which throws a conversion error where it fails. The
three calls of `strptime` share one `struct tm`. -/
def parse (value : List Char) : Option SqlTime :=
  if value = [] then none
  else
    let (tp, both) := TimeField.strptime {} value (dateFormat ++ .space :: timeFormat)
    if both then some ⟨timegm tp, .datetime⟩
    else
      let (tp, date) := TimeField.strptime tp value dateFormat
      if date then some ⟨timegm tp, .date⟩
      else
        let (tp, time) := TimeField.strptime tp value timeFormat
        if time then some ⟨timegm { tp with year := 70, mon := 0, mday := 1 }, .time⟩
        else (IntKind.ulong.stoUnsigned value).map fun v => ⟨IntKind.long.wrap v.val, .timestamp⟩

end SqlTime

end CodaDb
