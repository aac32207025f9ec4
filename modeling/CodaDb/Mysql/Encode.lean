import CodaDb.Bind.Bound
import CodaDb.Lib.CString
import CodaDb.Mysql.Decode
import CodaDb.Sql.Calendar

/-!
# Writing the parameters of MySQL

A value is written to a cleared `MYSQL_BIND`: its type, the memory it is copied to, and the length
of that memory. What the decoder of bindings makes of it.
-/

namespace CodaDb

/-- `sizeof` -/
def IntKind.size : IntKind → Nat
  | .bool | .char | .uchar => 1
  | .short | .ushort => 2
  | .wchar | .int | .uint => 4
  | .long | .ulong | .llong | .ullong => 8

namespace FloatKind

/-- `sizeof` -/
def size : FloatKind → Nat
  | .float => 4
  | .double => 8
  | .longDouble => 16

def exponentBits : FloatKind → Nat
  | .float => 8
  | .double => 11
  | .longDouble => 15

/-- The bits that store a significand; only a `long double` stores the leading one. -/
def fractionBits : FloatKind → Nat
  | .float => 23
  | .double => 52
  | .longDouble => 64

end FloatKind

/-- The bits of a floating point number in memory. -/
def FloatValue.bits (k : FloatKind) (x : FloatValue) : Nat :=
  let sign (negative : Bool) : Nat :=
    if negative then 2 ^ (k.exponentBits + k.fractionBits) else 0
  let infinity := (2 ^ k.exponentBits - 1) * 2 ^ k.fractionBits +
    if k = .longDouble then 2 ^ 63 else 0
  match x with
  | .infinity negative => sign negative + infinity
  | .nan negative => sign negative + infinity + 2 ^ (k.precision - 2)
  | .finite negative m e =>
    let shift := min ((k.precision : Int) - 1 - m.log2) (e - k.minExponent)
    let significand := m * 2 ^ shift.toNat / 2 ^ (-shift).toNat
    let exponent :=
      if significand < 2 ^ (k.precision - 1) then 0 else (e - shift - k.minExponent + 1).toNat
    sign negative + exponent * 2 ^ k.fractionBits + significand % 2 ^ k.fractionBits

namespace Mysql

/-- The type that an integral number is sent as. The overload for `int` takes the `wchar_t`. -/
def intTypeOf : IntKind → IntType
  | .bool | .char | .uchar => .tiny
  | .short | .ushort => .short
  | .wchar | .int | .uint | .long | .ulong => .long
  | .llong | .ullong => .longlong

/-- The overloads that set `is_unsigned`. -/
def setsUnsigned : IntKind → Bool
  | .uchar | .ushort | .uint | .ulong | .ullong => true
  | .bool | .char | .wchar | .short | .int | .long | .llong => false

namespace Bind

/-- A slot that `memset` cleared. -/
def cleared : Bind := ⟨.decimal, none, false, none, 0, none⟩

/-- `data_mapper::from_number` -/
def fromNumber (b : Bind) : SqlNumber → Bind
  | .null => { b with bufferType := .null }
  | .integral k v =>
    { b with
      bufferType := (intTypeOf k).fieldType
      buffer := some (Bytes.littleEndian k.size v)
      bufferLength := k.size
      isUnsigned := setsUnsigned k || b.isUnsigned }
  | .floating k v =>
    { b with
      bufferType := if k = .float then .float else .double
      buffer := some (Bytes.littleEndian k.size (v.bits k))
      bufferLength := k.size }

/-- The fields of a `MYSQL_TIME` that are set. -/
def timeFields (tm : Tm) : List Int := [tm.year, tm.month, tm.day, tm.hour, tm.minute, tm.second]

def timeType : TimeFormat → FieldType
  | .date => .date
  | .time => .time
  | .datetime => .datetime
  | .timestamp => .timestamp

/-- `set_time`; `none` where `gmtime` returns a null pointer, which is read, or where the sum of
`tm_year` and 1900 overflows. -/
def setTime (b : Bind) (value : SqlTime) : Option Bind :=
  let tm := gmtime value.value_
  if IntKind.int.min ≤ tm.year - 1900 ∧ tm.year ≤ IntKind.int.max then
    some { b with
      bufferType := timeType value.format_
      buffer := some ((timeFields tm).flatMap (Bytes.littleEndian 4) ++ List.replicate 16 0)
      bufferLength := sizeofTime }
  else none

/-- The bytes that are copied from a blob, if there is data. -/
def copyBlob (value : SqlBlob) : Option (List UInt8) :=
  if value.bytes = [] ∨ value.address = 0 then none else some value.bytes

/-- The UTF-8 encoding of a wide string. -/
def toBytes (value : List Char) : List UInt8 := value.flatMap String.utf8EncodeChar

/-- `data_mapper::from_value`; `none` where the behaviour is not defined. -/
def fromValue (b : Bind) : SqlValue → Option Bind
  | .null => some { b with bufferType := .null }
  | .number value => some (b.fromNumber value)
  | .time value => b.setTime value
  | .blob value =>
    some { b with
      bufferType := .blob
      buffer := copyBlob value
      bufferLength := value.bytes.length
      length := some value.bytes.length }
  | .string value =>
    some { b with
      bufferType := .string
      buffer := some (CString.duplicate (CString.bytes value))
      bufferLength := value.length
      length := some value.length }
  | .wstring value =>
    some { b with
      bufferType := .string
      buffer := some (CString.duplicate (toBytes value))
      bufferLength := value.length
      length := some value.length }

/-- The visitor on a slot; `wstring_convert` throws for a character above all code points. -/
def write (b : Bind) : BoundValue → Encoded Bind
  | .value v =>
    match b.fromValue v with
    | some b' => .slot b'
    | none => .undefined
  | .wide value _ =>
    match Bindable.wideBytes value with
    | none => .exception
    | some temp =>
      .slot { b with
        bufferType := .string
        buffer := some (CString.duplicate temp)
        bufferLength := value.length
        length := some value.length }

/-- The slot of a value. -/
def encode : BoundValue → Encoded Bind := cleared.write

end Bind

/-! ### Reading a written slot -/

/-- The type that the decoder reads for a written number. -/
def readKind : IntKind → IntKind
  | .bool => .char
  | .wchar => .int
  | k => k

lemma stmtKind_written (k : IntKind) :
    (intTypeOf k).stmtKind (setsUnsigned k) k.size = readKind k := by cases k <;> rfl

/-- The decoder reads as many bytes as were written, into a type that has the value. -/
lemma readKind_spec (k : IntKind) :
    (readKind k).bits = 8 * k.size ∧ (readKind k).min ≤ k.min ∧ k.max ≤ (readKind k).max := by
  cases k <;> decide

namespace Bind

lemma readKind_ne_bool (k : IntKind) : readKind k ≠ .bool := by cases k <;> decide

lemma bindingToValue_integer {k : IntKind} (v : CInt k) (address : UInt64) :
    ∃ w, bindingToValue (cleared.fromNumber (.integral k v)) address =
      some (.number (.integral (readKind k) w)) ∧ w.val = v.val := by
  obtain ⟨hbits, hmin, hmax⟩ := readKind_spec k
  have hsize : (readKind k).bits / 8 = k.size := by omega
  have hvalue : (cleared.fromNumber (.integral k v)).toValue address = _ :=
    toValue_integer rfl (by simp [fromNumber, cleared]) address
  have hbuffer : (cleared.fromNumber (.integral k v)).buffer ≠ none := Option.some_ne_none _
  rw [bindingToValue, if_neg hbuffer, hvalue, toNumber]
  have hkind : (if (cleared.fromNumber (.integral k v)).isUnsigned
      then ((intTypeOf k).stmtKinds k.size).2 else ((intTypeOf k).stmtKinds k.size).1) =
        readKind k := by
    rw [← stmtKind_written k, IntType.stmtKind]
    simp [fromNumber, cleared]
  simp only [fromNumber] at hkind ⊢
  rw [hkind, hsize]
  refine ⟨_, rfl, ?_⟩
  have hbool := readKind_ne_bool k
  have hpow : (256 : Int) ^ k.size = 2 ^ (readKind k).bits := by
    rw [hbits, Int.pow_mul]
    rfl
  rw [IntKind.convert_val hbool, Bytes.read_littleEndian (Nat.le_refl _), hpow, IntKind.wrap_emod]
  exact IntKind.wrap_of_mem ⟨Int.le_trans hmin v.property.1, Int.le_trans v.property.2 hmax⟩

/-- The `i`-th field of a `MYSQL_TIME`, modulo the range of an `unsigned`. -/
lemma read_fields {vs : List Int} {i : Nat} {v : Int} (h : vs[i]? = some v) (rest : List UInt8) :
    (Bytes.read 4 ((vs.flatMap (Bytes.littleEndian 4) ++ rest).drop (4 * i)) : Int) =
      v % 2 ^ 32 := by
  induction vs generalizing i with
  | nil => cases h
  | cons u us ih =>
    cases i with
    | zero =>
      obtain rfl := Option.some.inj h
      have hread := @Bytes.read_littleEndian 4 4 (Nat.le_refl 4) u
      rw [Bytes.read] at hread ⊢
      rw [Nat.mul_zero, List.drop_zero, List.flatMap_cons, List.append_assoc,
        List.take_append_of_le_length (by simp), hread]
      rfl
    | succ i =>
      have hdrop : 4 * (i + 1) = (Bytes.littleEndian 4 u).length + 4 * i := by
        rw [Bytes.length_littleEndian]
        omega
      rw [List.flatMap_cons, List.append_assoc, hdrop, List.drop_length_add_append, ih h]

/-- An `int` that went through an `unsigned`, with a difference taken off there. -/
lemma int_wrap_emod {v : Int} (h : -2 ^ 31 ≤ v ∧ v < 2 ^ 31) {u d : Int} (hu : u = v + d) :
    IntKind.int.wrap (u % 2 ^ 32 - d) = v := by
  have hrange : IntKind.int.min ≤ v ∧ v ≤ IntKind.int.max := by
    simp only [IntKind.min, IntKind.max]
    omega
  rw [IntKind.wrap_eq_iff hrange, IntKind.bits]
  omega

/-- The fields of a time with a year in range are read back. -/
lemma parseTime_timeFields {value : Int}
    (hyear : IntKind.int.min ≤ (gmtime value).year - 1900 ∧
      (gmtime value).year ≤ IntKind.int.max) {b : Bind} (rest : List UInt8)
    (hb : b.buffer = some ((timeFields (gmtime value)).flatMap (Bytes.littleEndian 4) ++ rest))
    (format : TimeFormat) : b.parseTime format = .time ⟨value, format⟩ := by
  have htm := gmtime_inRange value
  have hmonth := htm.month
  have hday := htm.day
  have hhour := htm.hour
  have hminute := htm.minute
  have hsecond := htm.second
  simp only [IntKind.min, IntKind.max] at hyear
  have hfields : timegm (gmtime value).raw = value := timegm_gmtime value
  have hread : ∀ {i : Nat} {v : Int}, (timeFields (gmtime value))[i]? = some v → _ :=
    fun h => read_fields h rest
  rw [parseTime, hb]
  simp only [hread (i := 0) rfl, hread (i := 1) rfl, hread (i := 2) rfl, hread (i := 3) rfl,
    hread (i := 4) rfl, hread (i := 5) rfl]
  have hplain : ∀ n : Nat, n < 2 ^ 31 → IntKind.int.wrap ((n : Int) % 2 ^ 32) = n := by
    intro n hn
    have hzero := @int_wrap_emod n (by omega) n 0 (Int.add_zero _).symm
    rwa [Int.sub_zero] at hzero
  rw [@int_wrap_emod ((gmtime value).year - 1900) (by omega) _ 1900 (by omega),
    @int_wrap_emod ((gmtime value).month - 1) (by omega) _ 1 (by omega), hplain _ (by omega),
    hplain _ (by omega), hplain _ (by omega), hplain _ (by omega)]
  exact congrArg (fun v => SqlValue.time ⟨v, format⟩) hfields

/-- The type tells the format. -/
lemma toValue_timeType {b : Bind} {format : TimeFormat} (htype : b.bufferType = timeType format)
    (hnull : b.isNull ≠ some true) (address : UInt64) :
    b.toValue address = some (b.parseTime format) := by
  rw [toValue, if_neg hnull, htype]
  cases format <;> rfl

/-- A time is read back if its year fits. -/
lemma bindingToValue_time {value : SqlTime} {b : Bind} (h : cleared.setTime value = some b)
    (address : UInt64) : bindingToValue b address = some (.time value) := by
  rw [setTime] at h
  split at h
  · next hyear =>
    have hbuffer : b.buffer ≠ none := Option.some.inj h ▸ Option.some_ne_none _
    obtain rfl := Option.some.inj h
    rw [bindingToValue, if_neg hbuffer, toValue_timeType rfl (by simp [cleared]),
      parseTime_timeFields hyear _ rfl]
  · cases h

lemma cString_eq (memory : List UInt8) :
    cString memory = (CString.read memory).map CString.text := by
  rw [cString, CString.read]
  split <;> rfl

/-- A string is read back up to its first NUL. -/
lemma bindingToValue_string {b : Bind} {bs : List UInt8} (htype : b.bufferType = .string)
    (hnull : b.isNull ≠ some true) (hb : b.buffer = some (CString.duplicate bs))
    (address : UInt64) :
    bindingToValue b address = some (.string (CString.text (CString.prefixOf bs))) := by
  rw [bindingToValue, if_neg (by simp [hb]), toValue, if_neg hnull, htype, hb]
  simp only [Option.bind_some, cString_eq, CString.read_duplicate, Option.map_some]

/-- A blob is read back as long as its length says. -/
lemma bindingToValue_blob {b : Bind} {bs : List UInt8} (htype : b.bufferType = .blob)
    (hnull : b.isNull ≠ some true) (hb : b.buffer = some bs) (hlength : b.length = some bs.length)
    (address : UInt64) : bindingToValue b address = some (.blob ⟨address, bs⟩) := by
  rw [bindingToValue, if_neg (by simp [hb]), toValue, if_neg hnull, htype, hb]
  simp only [hlength, Option.getD_some, List.take_length]

end Bind

end Mysql

end CodaDb
