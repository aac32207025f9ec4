import CodaDb.Bind.Bound
import CodaDb.Lib.CString
import CodaDb.Query.Statement
import CodaDb.Sql.Equality

/-!
# The texts of PostgreSQL

Parameters and columns are C strings with a type. Each C++ type has a conversion to text of its own,
and the decoder goes by the type code alone.
-/

namespace CodaDb.Postgres

/-- The codes of `pg_type.h` that the driver names, with `invalid` for 0 and `other` for the codes
that it does not name. -/
inductive Oid where
  | invalid | bytea | bool | char | int8 | int2 | int4 | timestamp | bit | float4 | float8 | unknown
  | varchar | text | date | time | uuid | other
deriving DecidableEq, Repr

/-- `data_mapper::to_value`, for a copy of a blob at an address: `none` where the value does not end
in its memory. `PQunescapeBytea` is the library's. -/
def toValue (unescapeBytea : List UInt8 → List UInt8) (type : Oid) (value : Option (List UInt8))
    (len : Int) (address : UInt64) : Option (Except DbException SqlValue) :=
  match value with
  | none => some (.ok .null)
  | some memory =>
    if len = 0 ∨ type = .unknown then some (.ok .null)
    else
      (CString.read memory).map fun bytes =>
        let text := CString.text bytes
        match type with
        | .bytea =>
          let data := unescapeBytea bytes
          .ok (.blob ⟨if data = [] then 0 else address, data⟩)
        | .bool | .char | .int8 | .int2 | .int4 | .timestamp | .bit =>
          match IntKind.long.stoSigned text.toList with
          | some v => .ok (.number (.integral .long v))
          | none => .error (.database ("invalid number: " ++ text))
        | .float4 =>
          match FloatKind.double.sto text.toList with
          | some x => .ok (.number (.floating .double x))
          | none => .error (.database ("invalid floating point: " ++ text))
        | .float8 =>
          match FloatKind.longDouble.sto text.toList with
          | some x => .ok (.number (.floating .longDouble x))
          | none => .error (.database ("invalid floating point: " ++ text))
        | .varchar | .text | .date | .time | .uuid | _ => .ok (.string text)

/-- A parameter: the memory of its text, and what the library is told of it. -/
structure Slot where
  value : Option (List UInt8)
  type : Oid
  length : Int
  format : Int
deriving DecidableEq, Repr

/-- The wide characters of the bytes in the locale of the process; those of ASCII are themselves,
and some of the others may have none. -/
structure Locale where
  btowc : UInt8 → Option Char
  ascii : ∀ b : UInt8, b.toNat < 128 → btowc b = some (Char.ofNat b.toNat)

/-- The locale of a program that sets none. -/
def Locale.posix : Locale where
  btowc b := if b.toNat < 128 then some (Char.ofNat b.toNat) else none
  ascii _ h := if_pos h

namespace Slot

/-- A slot after `clear_value`. -/
def cleared : Slot := ⟨none, .invalid, 0, 0⟩

/-- The text that an integral number is written as: `%c` of a `wchar_t` takes a byte of it, `%uc`
ends in a letter, and the other types but `char` go through `std::to_string`. -/
def numberText (locale : Locale) (k : IntKind) (v : Int) : Option (List UInt8) :=
  match k with
  | .wchar => (locale.btowc (UInt8.ofNat (v % 256).toNat)).map String.utf8EncodeChar
  | .uchar => some (CString.bytes (toString v ++ "c"))
  | .char => some [UInt8.ofNat (v % 256).toNat]
  | _ => some (CString.bytes (toString v))

/-- The type code and the length of an integral number. -/
def numberType : IntKind → Oid × Int
  | .wchar => (.int2, 4)
  | .uchar | .char => (.char, 1)
  | .bool => (.bool, 8)
  | .ullong | .llong => (.int8, 8)
  | .uint | .int => (.int4, 4)
  | .ulong | .long => (.int4, 8)
  | .short | .ushort => (.int2, 2)

/-- `data_mapper::from_number` -/
def fromNumber (locale : Locale) : SqlNumber → Encoded Slot
  | .null => .slot ⟨none, .unknown, 0, 0⟩
  | .integral k v =>
    match numberText locale k v with
    | none => .exception
    | some text =>
      .slot ⟨some (CString.duplicate text), (numberType k).1, (numberType k).2, 0⟩
  | .floating k v =>
    let text := some (CString.duplicate (CString.bytes v.toString))
    .slot <|
      match k with
      | .double => ⟨text, .float4, 8, 0⟩
      | .float => ⟨text, .float4, 4, 0⟩
      | .longDouble => ⟨text, .float8, 16, 0⟩

def timeType : TimeFormat → Oid
  | .date => .date
  | .time => .time
  | .datetime | .timestamp => .timestamp

/-- `static_cast<int>` of a size -/
def intSize (size : Nat) : Int := IntKind.int.wrap size

/-- `data_mapper::from_value` -/
def fromValue (locale : Locale) : SqlValue → Encoded Slot
  | .null => .slot ⟨none, .unknown, 0, 0⟩
  | .number value => fromNumber locale value
  | .time value =>
    match value.text with
    | none => .undefined
    | some text =>
      .slot ⟨some (CString.duplicate (CString.bytes text)), timeType value.format_, 8, 0⟩
  | .blob value =>
    let copy := if value.bytes = [] ∨ value.address = 0 then none else some value.bytes
    .slot ⟨copy, .bytea, intSize value.bytes.length, 1⟩
  | .string value =>
    .slot ⟨some (CString.duplicate (CString.bytes value)), .text, intSize value.length, 0⟩
  | .wstring value =>
    let temp := value.flatMap String.utf8EncodeChar
    .slot ⟨some (CString.duplicate temp), .text, intSize temp.length, 0⟩

/-- The slot of a value; `wstring_convert` throws for a character above all code points. -/
def encode (locale : Locale) : BoundValue → Encoded Slot
  | .value v => fromValue locale v
  | .wide value _ =>
    match Bindable.wideBytes value with
    | none => .exception
    | some temp => .slot ⟨some (CString.duplicate temp), .text, intSize temp.length, 0⟩

/-- Every value that is stored has a type. -/
lemma encode_type {locale : Locale} {v : BoundValue} {a : Slot} (h : encode locale v = .slot a) :
    a.type ≠ .invalid := by
  cases v with
  | wide s hs =>
    simp only [encode] at h
    split at h
    · cases h
    · cases h
      nofun
  | value v =>
    cases v with
    | null | blob | string | wstring =>
      cases h
      nofun
    | time t =>
      simp only [encode, fromValue] at h
      split at h
      · cases h
      · cases h
        cases t.format_ <;> nofun
    | number n =>
      cases n with
      | null =>
        cases h
        nofun
      | integral k v =>
        simp only [encode, fromValue, fromNumber] at h
        split at h
        · cases h
        · cases h
          cases k <;> nofun
      | floating k v =>
        cases h
        cases k <;> nofun

end Slot

end CodaDb.Postgres
