import CodaDb.Lib.Bytes
import CodaDb.Sql.Parse
import CodaDb.Sql.Value

/-!
# Reading the columns of MySQL

A result of the text protocol has a text for each column, and a result of a prepared statement a
buffer, whose size is taken from the display width of the column. Which integers the two decoders
return.
-/

namespace CodaDb

namespace Mysql

/-- `enum_field_types`, with `year` for those that no function names. -/
inductive FieldType where
  | decimal | tiny | short | long | float | double | null | timestamp | longlong | int24 | date
  | time | datetime | year | newdate | varchar | bit | newdecimal | enum | set | tinyBlob
  | mediumBlob | longBlob | blob | varString | string | geometry
deriving DecidableEq, Repr

structure Field where
  type : FieldType
  /-- `NOT_NULL_FLAG` -/
  notNull : Bool
  /-- `UNSIGNED_FLAG` -/
  isUnsigned : Bool
  /-- the display width -/
  length : Nat
deriving DecidableEq, Repr

/-- A `MYSQL_BIND`; the pointers are null or lead to these values. -/
structure Bind where
  bufferType : FieldType
  isNull : Option Bool
  isUnsigned : Bool
  length : Option Nat
  bufferLength : Nat
  buffer : Option (List UInt8)
deriving DecidableEq, Repr

/-- `sizeof(MYSQL_TIME)` -/
def sizeofTime : Nat := 40

/-- The size of the buffer for a field. -/
def bufferLengthOf (field : Field) : Nat :=
  match field.type with
  | .float => max field.length 4
  | .double | .tiny | .short | .long | .longlong => max field.length 8
  | .datetime | .date | .time | .timestamp => sizeofTime
  | _ => field.length

/-- `prepare_binding_from_field` -/
def prepareBindingFromField (field : Field) : Bind :=
  { bufferType := field.type
    isNull := if field.notNull then none else some false
    isUnsigned := field.isUnsigned
    length :=
      match field.type with
      | .string | .varString | .varchar | .blob | .tinyBlob | .mediumBlob | .longBlob => some 0
      | _ => none
    bufferLength := bufferLengthOf field
    buffer :=
      if 0 < bufferLengthOf field then some (List.replicate (bufferLengthOf field) 0) else none }

namespace Bind

/-- What `mysql_stmt_fetch` leaves when the column is an integer of `size` bytes. -/
def fetch (b : Bind) (size : Nat) (v : Int) : Bind :=
  { b with
    isNull := b.isNull.map fun _ => false
    buffer := b.buffer.map fun memory => Bytes.littleEndian size v ++ memory.drop size }

/-- `to_number` for a signed type and the unsigned type of the same size. -/
def toNumber (b : Bind) (signed unsigned : IntKind) : SqlNumber :=
  let k := if b.isUnsigned then unsigned else signed
  match b.buffer with
  | none => .null
  | some memory => .integral k (k.convert (Bytes.read (k.bits / 8) memory))

/-- `parse_time`, which reads the first six fields of a `MYSQL_TIME`. -/
def parseTime (b : Bind) (format : TimeFormat) : SqlValue :=
  match b.buffer with
  | none => .null
  | some memory =>
    let field (i : Nat) : Int := Bytes.read 4 (memory.drop (4 * i))
    -- the fields are unsigned and go to an `int` each
    let int (v : Int) : Int := IntKind.int.wrap v
    .time ⟨timegm {
      year := int (field 0 - 1900), mon := int (field 1 - 1), mday := int (field 2),
      hour := int (field 3), min := int (field 4), sec := int (field 5) }, format⟩

/-- The value with the bits of an IEEE number. -/
def ieee (k : FloatKind) (exponentBits : Nat) (bits : Nat) : FloatValue :=
  let fraction := bits % 2 ^ (k.precision - 1)
  let exponent := bits / 2 ^ (k.precision - 1) % 2 ^ exponentBits
  let negative := 2 ^ (k.precision - 1 + exponentBits) ≤ bits
  if exponent = 2 ^ exponentBits - 1 then
    if fraction = 0 then .infinity negative else .nan negative
  else if exponent = 0 then .finite negative fraction k.minExponent
  else .finite negative (2 ^ (k.precision - 1) + fraction) (k.minExponent + exponent - 1)

/-- A C string; `none` if it does not end in the buffer. -/
def cString (memory : List UInt8) : Option String :=
  if 0 ∈ memory then
    some (String.ofList ((memory.takeWhile (· ≠ 0)).map fun b => Char.ofNat b.toNat))
  else none

/-- `to_value(MYSQL_BIND *)`, for a copy of a blob at an address; `none` where the behaviour is not
defined. -/
def toValue (b : Bind) (address : UInt64) : Option SqlValue :=
  if b.isNull = some true then some .null
  else
    match b.bufferType with
    | .bit | .tiny | .short | .int24 | .long =>
      match b.bufferLength with
      | 1 => some (.number (b.toNumber .char .uchar))
      | 2 => some (.number (b.toNumber .short .ushort))
      | 8 => some (.number (b.toNumber .long .ulong))
      | _ => some (.number (b.toNumber .int .uint))
    | .longlong => some (.number (b.toNumber .llong .ullong))
    | .null => some .null
    | .time => some (b.parseTime .time)
    | .date => some (b.parseTime .date)
    | .timestamp => some (b.parseTime .timestamp)
    | .datetime => some (b.parseTime .datetime)
    | .float => b.buffer.map fun memory =>
      .number (.floating .float (ieee .float 8 (Bytes.read 4 memory)))
    | .double => b.buffer.map fun memory =>
      .number (.floating .double (ieee .double 11 (Bytes.read 8 memory)))
    | .tinyBlob | .mediumBlob | .longBlob | .blob =>
      match b.length with
      | some length => some (.blob ⟨address, (b.buffer.getD []).take length⟩)
      | none => some (.blob ⟨0, []⟩)
    | _ => (b.buffer.bind cString).map .string

end Bind

/-- `binding::to_value`, at an index in range. -/
def bindingToValue (b : Bind) (address : UInt64) : Option SqlValue :=
  if b.buffer = none then some .null else b.toValue address

/-- `value_conversion_error` -/
structure ValueConversionError where
  what : String
deriving DecidableEq, Repr

/-- `to_value(int, const char *, size_t)`, for a copy of a blob at an address. -/
def toValue (type : FieldType) (value : Option String) (length : Nat) (address : UInt64) :
    Except ValueConversionError SqlValue :=
  match value with
  | none => .ok .null
  | some value =>
    let str := value.toList.take length
    match type with
    | .bit | .tiny | .short | .int24 | .long =>
      match IntKind.int.stoSigned str with
      | some v => .ok (.number (.integral .int v))
      | none => .error ⟨"unable to get integer from value"⟩
    | .longlong =>
      match IntKind.llong.stoSigned str with
      | some v => .ok (.number (.integral .llong v))
      | none => .error ⟨"unable to get longlong from value"⟩
    | .newdate | .date | .datetime | .timestamp | .time =>
      match SqlTime.parse str with
      | some t => .ok (.time t)
      | none => .error ⟨"unable to get time format from value"⟩
    | .float =>
      match FloatKind.float.sto str with
      | some x => .ok (.number (.floating .float x))
      | none => .error ⟨"unable to get float from value"⟩
    | .double =>
      match FloatKind.double.sto str with
      | some x => .ok (.number (.floating .double x))
      | none => .error ⟨"unable to get double from value"⟩
    | .tinyBlob | .mediumBlob | .longBlob | .blob =>
      .ok (.blob ⟨address, str.map fun c => UInt8.ofNat c.toNat⟩)
    | .null => .ok .null
    | _ => .ok (.string (String.ofList str))

/-! ### Integer columns -/

inductive IntType where
  | tiny | short | int24 | long | longlong
deriving DecidableEq, Repr

namespace IntType

def fieldType : IntType → FieldType
  | .tiny => .tiny
  | .short => .short
  | .int24 => .int24
  | .long => .long
  | .longlong => .longlong

/-- The bytes that `mysql_stmt_fetch` stores. -/
def size : IntType → Nat
  | .tiny => 1
  | .short => 2
  | .int24 | .long => 4
  | .longlong => 8

def bits : IntType → Nat
  | .tiny => 8
  | .short => 16
  | .int24 => 24
  | .long => 32
  | .longlong => 64

/-- The values a column of the type can hold. -/
def Holds (t : IntType) (isUnsigned : Bool) (v : Int) : Prop :=
  if isUnsigned then 0 ≤ v ∧ v < 2 ^ t.bits else -2 ^ (t.bits - 1) ≤ v ∧ v < 2 ^ (t.bits - 1)

end IntType

/-- The value is a number of an integral type, and this is its integer. -/
def IsInteger (value : SqlValue) (v : Int) : Prop :=
  ∃ (k : IntKind) (w : CInt k), value = .number (.integral k w) ∧ w.val = v

/-- The text decoder returns the integer. -/
def TextDecodes (t : IntType) (v : Int) : Prop :=
  ∀ address, ∃ value,
    toValue t.fieldType (some (toString v)) (toString v).length address = .ok value ∧
    IsInteger value v

/-- The decoder of prepared statements returns the integer. -/
def StmtDecodes (t : IntType) (field : Field) (v : Int) : Prop :=
  ∀ address, ∃ value,
    bindingToValue ((prepareBindingFromField field).fetch t.size v) address = some value ∧
      IsInteger value v

/-- The integers for which both decoders are right: those of the types that the text decoder reads,
and those whose sign is not lost when more or fewer bytes are read than were stored. -/
def Decodable (t : IntType) (isUnsigned : Bool) (width : Nat) (v : Int) : Prop :=
  match t with
  | .tiny | .short => 0 ≤ v
  | .int24 =>
    match width with
    | 1 => if isUnsigned then v < 2 ^ 8 else -2 ^ 7 ≤ v ∧ v < 2 ^ 7
    | 2 => if isUnsigned then v < 2 ^ 16 else -2 ^ 15 ≤ v ∧ v < 2 ^ 15
    | 8 => 0 ≤ v
    | _ => True
  | .long => v < 2 ^ 31 ∧ (0 ≤ v ∨ 8 < width)
  | .longlong => v < 2 ^ 63

lemma isInteger_number {k : IntKind} (w : CInt k) (v : Int) :
    IsInteger (.number (.integral k w)) v ↔ w.val = v := by
  constructor
  · rintro ⟨k', w', heq, hv⟩
    cases heq
    exact hv
  · exact fun h => ⟨k, w, rfl, h⟩

/-- The type that the text decoder reads. -/
def IntType.textKind : IntType → IntKind
  | .longlong => .llong
  | .tiny | .short | .int24 | .long => .int

/-- The text of an integer column goes through `std::stoi` or `std::stoll`. -/
lemma toValue_integer (t : IntType) (value : String) (address : UInt64) :
    toValue t.fieldType (some value) value.length address =
      match t.textKind.stoSigned value.toList with
      | some w => .ok (.number (.integral t.textKind w))
      | none => .error
        (if t = .longlong then ⟨"unable to get longlong from value"⟩
          else ⟨"unable to get integer from value"⟩) := by
  have hread : value.toList.take value.length = value.toList := by
    rw [← String.length_toList, List.take_length]
  cases t with
  | longlong =>
    simp only [toValue, IntType.fieldType, hread, IntType.textKind]
    cases IntKind.llong.stoSigned value.toList <;> rfl
  | tiny | short | int24 | long =>
    simp only [toValue, IntType.fieldType, hread, IntType.textKind]
    cases IntKind.int.stoSigned value.toList <;> rfl

lemma textDecodes_iff (t : IntType) (v : Int) :
    TextDecodes t v ↔ t.textKind.min ≤ v ∧ v ≤ t.textKind.max := by
  simp only [TextDecodes, toValue_integer, IntKind.stoSigned_toString, IntKind.check]
  by_cases hin : t.textKind.min ≤ v ∧ v ≤ t.textKind.max
  · simp [hin, isInteger_number]
  · simp [hin]

/-- The signed and the unsigned type that the decoder of prepared statements reads. -/
def IntType.stmtKinds (t : IntType) (bufferLength : Nat) : IntKind × IntKind :=
  match t with
  | .longlong => (.llong, .ullong)
  | .tiny | .short | .int24 | .long =>
    match bufferLength with
    | 1 => (.char, .uchar)
    | 2 => (.short, .ushort)
    | 8 => (.long, .ulong)
    | _ => (.int, .uint)

def IntType.stmtKind (t : IntType) (isUnsigned : Bool) (bufferLength : Nat) : IntKind :=
  if isUnsigned then (t.stmtKinds bufferLength).2 else (t.stmtKinds bufferLength).1

lemma IntType.stmtKind_ne_bool (t : IntType) (isUnsigned : Bool) (bufferLength : Nat) :
    t.stmtKind isUnsigned bufferLength ≠ .bool := by
  cases t with
  | longlong => cases isUnsigned <;> nofun
  | tiny | short | int24 | long =>
    simp only [stmtKind, stmtKinds]
    split <;> split <;> nofun

lemma Bind.toValue_integer {b : Bind} {t : IntType} (htype : b.bufferType = t.fieldType)
    (hnull : b.isNull ≠ some true) (address : UInt64) :
    b.toValue address = some (.number
      (b.toNumber (t.stmtKinds b.bufferLength).1 (t.stmtKinds b.bufferLength).2)) := by
  rw [toValue, if_neg hnull, htype]
  cases t with
  | longlong => rfl
  | tiny | short | int24 | long =>
    simp only [IntType.fieldType, IntType.stmtKinds]
    split <;> rfl

/-- The decoder of prepared statements keeps the bytes that it reads and that were stored. -/
lemma bindingToValue_fetch {t : IntType} {field : Field} (htype : field.type = t.fieldType)
    (hlength : 0 < bufferLengthOf field) (v : Int) (address : UInt64) :
    let k := t.stmtKind field.isUnsigned (bufferLengthOf field)
    bindingToValue ((prepareBindingFromField field).fetch t.size v) address =
      some (.number (.integral k (k.convert (v % 256 ^ min (k.bits / 8) t.size)))) := by
  intro k
  have hbuffer : ((prepareBindingFromField field).fetch t.size v).buffer =
      some (Bytes.littleEndian t.size v ++
        List.replicate (bufferLengthOf field - t.size) 0) := by
    simp [Bind.fetch, prepareBindingFromField, hlength]
  have hnull : ((prepareBindingFromField field).fetch t.size v).isNull ≠ some true := by
    cases hnotNull : field.notNull <;> simp [Bind.fetch, prepareBindingFromField, hnotNull]
  rw [bindingToValue, if_neg (by simp [hbuffer]), Bind.toValue_integer htype hnull, Bind.toNumber,
    hbuffer]
  have hkind : (if ((prepareBindingFromField field).fetch t.size v).isUnsigned
      then (t.stmtKinds ((prepareBindingFromField field).fetch t.size v).bufferLength).2
      else (t.stmtKinds ((prepareBindingFromField field).fetch t.size v).bufferLength).1) = k := rfl
  rw [hkind]
  simp only [Bytes.read_memory]

lemma stmtDecodes_iff {t : IntType} {field : Field} (htype : field.type = t.fieldType)
    (hlength : 0 < bufferLengthOf field) (v : Int) {k : IntKind}
    (hk : t.stmtKind field.isUnsigned (bufferLengthOf field) = k) :
    StmtDecodes t field v ↔ k.wrap (v % 256 ^ min (k.bits / 8) t.size) = v := by
  subst hk
  simp only [StmtDecodes, bindingToValue_fetch htype hlength, Option.some.injEq, exists_eq_left',
    isInteger_number, IntKind.convert_val (t.stmtKind_ne_bool _ _), forall_const]

/-- The size of the buffer for an integer column. -/
lemma bufferLengthOf_integer {t : IntType} {field : Field} (htype : field.type = t.fieldType) :
    bufferLengthOf field = if t = .int24 then field.length else max field.length 8 := by
  rw [bufferLengthOf, htype]
  cases t <;> rfl

/-- An integer is read back if it fits the type that is read, and from a wider type if it is not
negative, as the bytes that were not stored are zero. -/
lemma wrap_stored {k : IntKind} (hk : k ≠ .bool) {size : Nat} {v : Int} (hv : v < 256 ^ size) :
    k.wrap (v % 256 ^ min (k.bits / 8) size) = v ↔
      (8 * size < k.bits → 0 ≤ v) ∧ (k.bits ≤ 8 * size → k.min ≤ v ∧ v ≤ k.max) := by
  have hbits : 8 * (k.bits / 8) = k.bits := by
    cases k with
    | bool => exact absurd rfl hk
    | _ => rfl
  have hpow : ∀ n : Nat, (256 : Int) ^ n = 2 ^ (8 * n) := by
    intro n
    rw [Int.pow_mul]
    rfl
  rcases Nat.lt_or_ge (8 * size) k.bits with hwider | hnarrower
  · have hpos : (0 : Int) < 256 ^ size := Int.pow_pos (by omega)
    have hlower := Int.emod_nonneg v (Int.ne_of_gt hpos)
    have hupper := Int.emod_lt_of_pos v hpos
    have hmem : k.min ≤ v % 256 ^ size ∧ v % 256 ^ size ≤ k.max := by
      have hbound : (256 : Int) ^ size ≤ 2 ^ (k.bits - 1) := by
        rw [hpow]
        have hnat : 2 ^ (8 * size) ≤ 2 ^ (k.bits - 1) := Nat.pow_le_pow_right (by omega) (by omega)
        exact_mod_cast hnat
      have hmax : (2 : Int) ^ (k.bits - 1) - 1 ≤ k.max := by cases k <;> decide
      have hmin : k.min ≤ 0 := by cases k <;> decide
      omega
    have hread : v % 256 ^ size = v ↔ 0 ≤ v := by
      constructor
      · omega
      · exact fun h => Int.emod_eq_of_lt h hv
    rw [Nat.min_eq_right (by omega), IntKind.wrap_of_mem hmem, hread]
    omega
  · rw [Nat.min_eq_left (by omega), hpow, hbits, IntKind.wrap_emod, IntKind.wrap_eq_self_iff]
    omega

/-- A size that is none of those the switch names is read as an `int`. -/
lemma IntType.stmtKind_default (t : IntType) (isUnsigned : Bool) {n : Nat}
    (hn : n ≠ 1 ∧ n ≠ 2 ∧ n ≠ 8) :
    t.stmtKind isUnsigned n =
      if t = .longlong then (if isUnsigned then .ullong else .llong)
      else if isUnsigned then .uint else .int := by
  obtain ⟨h1, h2, h8⟩ := hn
  cases t with
  | longlong => rfl
  | tiny | short | int24 | long => simp only [stmtKind, stmtKinds, reduceCtorEq, if_false]

lemma IntType.Holds.lt {t : IntType} {isUnsigned : Bool} {v : Int} (h : t.Holds isUnsigned v) :
    v < 256 ^ t.size := by
  have hhalf : (2 : Int) ^ (t.bits - 1) ≤ 256 ^ t.size ∧ (2 : Int) ^ t.bits ≤ 256 ^ t.size := by
    cases t <;> decide
  rw [Holds] at h
  split at h <;> omega

/-- Both decoders return the integer of a column exactly if it is decodable. -/
theorem decodes_iff {t : IntType} {field : Field} (htype : field.type = t.fieldType)
    (hwidth : 1 ≤ field.length) {v : Int} (hv : t.Holds field.isUnsigned v) :
    (TextDecodes t v ∧ StmtDecodes t field v) ↔
      Decodable t field.isUnsigned field.length v := by
  have hsize := bufferLengthOf_integer htype
  have hlength : 0 < bufferLengthOf field := by
    rw [hsize]
    split <;> omega
  rw [textDecodes_iff, stmtDecodes_iff htype hlength v rfl,
    wrap_stored (t.stmtKind_ne_bool _ _) hv.lt, hsize]
  generalize field.isUnsigned = u at hv ⊢
  generalize field.length = w at hwidth ⊢
  cases t with
  | tiny | short | long =>
    simp only [reduceCtorEq, if_false]
    rcases Nat.lt_or_ge 8 w with h8 | h8
    · rw [Nat.max_eq_left (Nat.le_of_lt h8), IntType.stmtKind_default _ u (n := w) (by omega)]
      cases u <;>
        simp only [reduceCtorEq, if_false, if_true, Bool.false_eq_true, IntType.Holds,
          IntType.bits, IntType.size, IntType.textKind, IntKind.min, IntKind.max, IntKind.bits,
          Decodable] at hv ⊢ <;>
        omega
    · rw [Nat.max_eq_right h8]
      cases u <;>
        simp only [if_false, if_true, Bool.false_eq_true, IntType.Holds,
          IntType.bits, IntType.size, IntType.textKind, IntType.stmtKind, IntType.stmtKinds,
          IntKind.min, IntKind.max, IntKind.bits, Decodable] at hv ⊢ <;>
        omega
  | int24 =>
    rw [if_pos rfl]
    by_cases hw : w = 1 ∨ w = 2 ∨ w = 8
    · rcases hw with rfl | rfl | rfl <;> cases u <;>
        simp only [if_false, if_true, Bool.false_eq_true, IntType.Holds, IntType.bits,
          IntType.size, IntType.textKind, IntType.stmtKind, IntType.stmtKinds, IntKind.min,
          IntKind.max, IntKind.bits, Decodable] at hv ⊢ <;>
        omega
    · simp only [not_or] at hw
      obtain ⟨h1, h2, h8⟩ := hw
      have hdecodable : Decodable .int24 u w v := by
        rw [Decodable]
        · trivial
        all_goals assumption
      rw [IntType.stmtKind_default _ u ⟨h1, h2, h8⟩, iff_true_right hdecodable]
      cases u <;>
        simp only [reduceCtorEq, if_false, if_true, Bool.false_eq_true, IntType.Holds,
          IntType.bits, IntType.size, IntType.textKind, IntKind.min, IntKind.max,
          IntKind.bits] at hv ⊢ <;>
        omega
  | longlong =>
    cases u <;>
      simp only [if_false, if_true, Bool.false_eq_true, IntType.Holds, IntType.bits, IntType.size,
        IntType.textKind, IntType.stmtKind, IntType.stmtKinds, IntKind.min, IntKind.max,
        IntKind.bits, Decodable] at hv ⊢ <;>
      omega

theorem decodes_iff_long :
    (TextDecodes .long 5 ∧
        StmtDecodes .long { type := .long, notNull := false, isUnsigned := true, length := 10 } 5) ↔
      Decodable .long true 10 5 :=
  decodes_iff (t := .long) rfl (by decide) (by simp [IntType.Holds, IntType.bits])

/-- A signed `TINYINT` of width 4 that holds -1 is read as 255 from a prepared statement. -/
theorem not_decodes_tiny :
    ¬∀ (t : IntType) (field : Field) (v : Int), field.type = t.fieldType →
      1 ≤ field.length ∧ field.length ≤ 20 → t.Holds field.isUnsigned v →
      TextDecodes t v ∧ StmtDecodes t field v := by
  intro h
  let field : Field := { type := .tiny, notNull := true, isUnsigned := false, length := 4 }
  have hholds : IntType.tiny.Holds field.isUnsigned (-1) := by
    simp [field, IntType.Holds, IntType.bits]
  have hstmt := (h .tiny field (-1) rfl (by decide) hholds).2
  rw [stmtDecodes_iff rfl (by decide) _ (k := .long) rfl, IntKind.wrap] at hstmt
  exact absurd hstmt (by decide)

end Mysql

end CodaDb
