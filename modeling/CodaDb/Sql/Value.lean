import CodaDb.Sql.Time

/-!
# `sql_value`

The variant behind every column and parameter, and its rendering as text.
-/

namespace CodaDb

/-- A blob: the address of its copy of the data (`0` for the null pointer) and the bytes. -/
structure SqlBlob where
  address : UInt64
  bytes : List UInt8
deriving DecidableEq, Repr

inductive SqlValue where
  | null
  | number (value : SqlNumber)
  | string (value : String)
  | wstring (value : List Char)
  | time (value : SqlTime)
  | blob (value : SqlBlob)
deriving DecidableEq, Repr

namespace Helper

/-- `convert_string(const std::wstring &)`: the UTF-8 encoding, one character for each byte. -/
def convertString (buf : List Char) : String :=
  String.ofList ((buf.flatMap String.utf8EncodeChar).map fun b => Char.ofNat b.toNat)

end Helper

namespace SqlBlob

/-- The stream operator: the address in hexadecimal, or `NULL` for an empty blob. -/
def toString (b : SqlBlob) : String :=
  if b.bytes.length = 0 then "NULL" else String.ofList (Nat.toDigits 16 b.address.toNat)

end SqlBlob

namespace SqlValue

/-- `sql_value::to_string`, by the visitor `as_sql_string`. -/
def toString : SqlValue → String
  | .null => "NULL"
  | .number n => n.toString
  | .string s => s
  | .wstring s => Helper.convertString s
  | .time t => t.toString
  | .blob b => b.toString

/-- `to_string` is defined. -/
def HasText : SqlValue → Prop
  | .time t => t.HasYear
  | .null | .number _ | .string _ | .wstring _ | .blob _ => True

instance : (v : SqlValue) → Decidable v.HasText
  | .time t => inferInstanceAs (Decidable t.HasYear)
  | .null | .number _ | .string _ | .wstring _ | .blob _ => isTrue trivial

end SqlValue

namespace Helper

/-- `is_named`: the text starts with `@` or `:` (`val[0]` of an empty string is the terminator). -/
def isNamed (value : SqlValue) : Bool :=
  match value.toString.toList with
  | c :: _ => c == '@' || c == ':'
  | [] => false

/-- A text that does not start with the mark of a named parameter. -/
def Unmarked (s : String) : Prop := ∀ c ∈ s.toList.head?, c ≠ '@' ∧ c ≠ ':'

lemma isNamed_eq_false {value : SqlValue} (h : Unmarked value.toString) :
    isNamed value = false := by
  rw [isNamed]
  cases hl : value.toString.toList with
  | nil => rfl
  | cons c cs =>
    have hc := h c (by simp [hl])
    simp [hc]

lemma unmarked_append {s t : String} (hs : s ≠ "") (h : Unmarked s) : Unmarked (s ++ t) := by
  intro c hc
  apply h c
  cases hl : s.toList with
  | nil => simp [hs] at hl
  | cons d ds => simpa [hl] using hc

lemma unmarked_nat (n : Nat) : Unmarked (toString n) := by
  intro c hc
  have hmem : c ∈ Nat.toDigits 10 n := by
    simpa [Nat.toString_eq_repr] using List.mem_of_head? hc
  have hdigit := Nat.isDigit_of_mem_toDigits (by decide) (by decide) hmem
  constructor <;> rintro rfl <;> simp at hdigit

lemma unmarked_number (n : SqlNumber) : Unmarked n.toString := by
  have hminus : Unmarked "-" := by
    intro c hc
    obtain rfl := Option.some.inj hc
    decide
  cases n with
  | null => exact fun c hc => by obtain rfl := Option.some.inj hc; decide
  | integral k v =>
    simp only [SqlNumber.toString]
    cases v.val with
    | ofNat n => exact unmarked_nat n
    | negSucc n => exact unmarked_append (by decide) hminus
  | floating k v =>
    simp only [SqlNumber.toString]
    cases v with
    | finite negative mantissa exponent =>
      simp only [FloatValue.toString, String.append_assoc]
      cases negative with
      | true => exact unmarked_append (by decide) hminus
      | false =>
        simp only [Bool.false_eq_true, if_false, String.empty_append]
        exact unmarked_append (by simp [Nat.toString_eq_repr]) (unmarked_nat _)
    | infinity negative | nan negative =>
      cases negative <;>
        exact fun c hc => by obtain rfl := Option.some.inj hc; decide

/-- `is_named` is defined, and false. -/
def Unnamed (v : SqlValue) : Prop := v.HasText ∧ isNamed v = false

instance (v : SqlValue) : Decidable (Unnamed v) := inferInstanceAs (Decidable (_ ∧ _))

/-- The text of a number names no parameter. -/
lemma isNamed_number (n : SqlNumber) : isNamed (.number n) = false :=
  isNamed_eq_false (unmarked_number n)

lemma unnamed_number (n : SqlNumber) : Unnamed (.number n) := ⟨trivial, isNamed_number n⟩

end Helper

end CodaDb
