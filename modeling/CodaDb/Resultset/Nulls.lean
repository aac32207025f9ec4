import CodaDb.Mysql.Decode
import CodaDb.Postgres.Encode
import CodaDb.Sqlite.Column

/-!
# Nulls of the three databases

Each driver is told of a null in its own way: by a flag, a null pointer, a type, or not at all. When
a decoder returns null for the nulls of the server and for nothing else.
-/

namespace CodaDb

/-- What a decoder does: it returns a value, throws, or has no defined behaviour. -/
inductive Decoded where
  | value (v : SqlValue)
  | exception
  | undefined
deriving DecidableEq, Repr

namespace Postgres

/-- A column of a result of `libpq`: its values are texts without a NUL whose length is an `int`. -/
structure ResultCell where
  type : Oid
  value : Option (List UInt8)
  noZero : ∀ text ∈ value, 0 ∉ text
  length_lt : ∀ text ∈ value, text.length < 2 ^ 31

namespace ResultCell

/-- `PQgetvalue`: the text with its NUL, and an empty one for null. -/
def getvalue (c : ResultCell) : List UInt8 := c.value.getD [] ++ [0]

/-- `PQgetlength` -/
def getlength (c : ResultCell) : Int := (c.value.getD []).length

/-- `column::to_value` -/
def decode (unescapeBytea : List UInt8 → List UInt8) (c : ResultCell) (address : UInt64) :
    Decoded :=
  match toValue unescapeBytea c.type (some c.getvalue) c.getlength address with
  | some (.ok v) => .value v
  | some (.error _) => .exception
  | none => .undefined

end ResultCell

end Postgres

namespace Mysql

/-- The types of character strings. -/
def FieldType.isText (t : FieldType) : Bool := t = .string ∨ t = .varString ∨ t = .varchar

/-- The types that the decoder of prepared statements reads as a C string. -/
def FieldType.isCString (t : FieldType) : Bool :=
  t.isText ∨ t = .decimal ∨ t = .newdecimal ∨ t = .year ∨ t = .newdate ∨ t = .enum ∨ t = .set ∨
    t = .geometry

/-- A column of a result of the text protocol. The null type has nulls only. -/
structure TextCell where
  type : FieldType
  value : Option String
  null : type = .null → value = none

/-- `column::to_value` -/
def TextCell.decode (c : TextCell) (address : UInt64) : Decoded :=
  match toValue c.type c.value (c.value.elim 0 String.length) address with
  | .ok v => .value v
  | .error _ => .exception

/-- A column of a result of a prepared statement, and the memory of its buffer after
`mysql_stmt_fetch`: a text that is shorter than the buffer ends with a NUL there. -/
structure StatementCell where
  field : Field
  value : Option (List UInt8)
  memory : List UInt8
  null : field.type = .null → value = none
  notNull : field.notNull = true → value ≠ none
  memory_length : memory.length = bufferLengthOf field
  stored : field.type.isText = true → ∀ text ∈ value, text.length < memory.length →
    text ++ [0] <+: memory

namespace StatementCell

/-- The binding that the library has filled. -/
def bind (c : StatementCell) : Bind :=
  let b := prepareBindingFromField c.field
  { b with
    isNull := b.isNull.map fun _ => c.value.isNone
    length := b.length.map fun _ => c.value.elim 0 List.length
    buffer := b.buffer.map fun _ => c.memory }

/-- `stmt_column::to_value` -/
def decode (c : StatementCell) (address : UInt64) : Decoded :=
  match bindingToValue c.bind address with
  | some v => .value v
  | none => .undefined

end StatementCell

end Mysql

/-- A column of a row of SQLite. -/
structure Sqlite.RowCell where
  row : List StoredValue
  column : Nat
  column_lt : column < row.length

/-- The value of the column. -/
def Sqlite.RowCell.value (c : RowCell) : StoredValue := c.row.get ⟨c.column, c.column_lt⟩

/-- A column of a result of one of the databases. -/
inductive ResultCell where
  | postgres (c : Postgres.ResultCell)
  | mysql (c : Mysql.TextCell)
  | mysqlStatement (c : Mysql.StatementCell)
  | sqlite (c : Sqlite.RowCell)

namespace ResultCell

/-- The decoder of the database. -/
def decode (unescapeBytea : List UInt8 → List UInt8) (address : UInt64) : ResultCell → Decoded
  | .postgres c => c.decode unescapeBytea address
  | .mysql c => c.decode address
  | .mysqlStatement c => c.decode address
  | .sqlite c => .value (Sqlite.toValue c.row c.column address)

/-- The value of the server is null. -/
def IsNull : ResultCell → Prop
  | .postgres c => c.value = none
  | .mysql c => c.value = none
  | .mysqlStatement c => c.value = none
  | .sqlite c => c.value = .null

/-- The value of the server is a text without characters. -/
def IsEmptyText : ResultCell → Prop
  | .postgres c => (c.type = .text ∨ c.type = .varchar) ∧ c.value = some []
  | .mysql c => c.type.isText = true ∧ c.value = some ""
  | .mysqlStatement c => c.field.type.isText = true ∧ c.value = some []
  | .sqlite c => c.value = .text []

/-- The decoder has a result, which is null exactly for a null, and the empty string for an empty
text. -/
structure TellsNull (unescapeBytea : List UInt8 → List UInt8) (address : UInt64) (c : ResultCell) :
    Prop where
  defined : c.decode unescapeBytea address ≠ .undefined
  null : c.decode unescapeBytea address = .value .null ↔ c.IsNull
  empty : c.IsEmptyText → c.decode unescapeBytea address = .value (.string "")

/-- PostgreSQL takes a length of 0, and the unknown type, for null. A prepared statement of MySQL
takes a buffer of no bytes for null, and reads the texts that fill their buffer beyond it. -/
def Distinct : ResultCell → Prop
  | .postgres c => c.value = none ∨ c.value ≠ some [] ∧ c.type ≠ .unknown
  | .mysql _ => True
  | .mysqlStatement c =>
    c.value = none ∨
      0 < Mysql.bufferLengthOf c.field ∧ (c.field.type.isCString = true → 0 ∈ c.memory)
  | .sqlite _ => True

variable {unescapeBytea : List UInt8 → List UInt8} {address : UInt64}

lemma not_isEmptyText {c : ResultCell} (h : c.IsNull) : ¬c.IsEmptyText := by
  intro hempty
  cases c with
  | postgres c | mysql c | mysqlStatement c => cases h.symm.trans hempty.2
  | sqlite c => cases h.symm.trans hempty

lemma number_ne_null (n : SqlNumber) : SqlValue.number n ≠ .null := nofun

lemma time_ne_null (t : SqlTime) : SqlValue.time t ≠ .null := nofun

lemma blob_ne_null (b : SqlBlob) : SqlValue.blob b ≠ .null := nofun

/-- Null is right for a null only. -/
lemma tellsNull_iff_isNull {c : ResultCell} (h : c.decode unescapeBytea address = .value .null) :
    c.TellsNull unescapeBytea address ↔ c.IsNull := by
  refine ⟨fun htells => htells.null.mp h, fun hnull => ⟨?_, iff_of_true h hnull, ?_⟩⟩
  · rw [h]
    nofun
  · exact fun hempty => absurd hempty (not_isEmptyText hnull)

/-- Another result is right for another value. -/
lemma tellsNull_of_ne {c : ResultCell} (hdefined : c.decode unescapeBytea address ≠ .undefined)
    (hne : c.decode unescapeBytea address ≠ .value .null) (hnull : ¬c.IsNull)
    (hempty : c.IsEmptyText → c.decode unescapeBytea address = .value (.string "")) :
    c.TellsNull unescapeBytea address :=
  ⟨hdefined, iff_of_false hne hnull, hempty⟩

/-! ### PostgreSQL -/

/-- A text that is not empty is no null, unless its type is not known. -/
lemma toValue_postgres {type : Postgres.Oid} {memory : List UInt8} {length : Int}
    (htype : type ≠ .unknown) (hlength : length ≠ 0) (hmemory : 0 ∈ memory) :
    ∃ r, Postgres.toValue unescapeBytea type (some memory) length address = some r ∧
      r ≠ .ok .null := by
  have hknown : ¬(length = 0 ∨ type = .unknown) := not_or.mpr ⟨hlength, htype⟩
  have hread : CString.read memory = some (CString.prefixOf memory) := if_pos hmemory
  rw [Postgres.toValue, if_neg hknown, hread, Option.map_some]
  refine ⟨_, rfl, ?_⟩
  cases type with
  | bool | char | int8 | int2 | int4 | timestamp | bit | float4 | float8 =>
    simp only
    split <;> nofun
  | invalid | bytea | unknown | varchar | text | date | time | uuid | other => nofun

lemma tellsNull_postgres (c : Postgres.ResultCell) :
    TellsNull unescapeBytea address (.postgres c) ↔ Distinct (.postgres c) := by
  have hdecode : decode unescapeBytea address (.postgres c) = c.decode unescapeBytea address := rfl
  by_cases hskipped : c.getlength = 0 ∨ c.type = .unknown
  · -- an empty text has length 0, and a value of the unknown type is not looked at
    have hvalue : c.decode unescapeBytea address = .value .null := by
      rw [Postgres.ResultCell.decode, Postgres.toValue, if_pos hskipped]
    rw [tellsNull_iff_isNull (hdecode.trans hvalue), Distinct]
    refine (or_iff_left_of_imp ?_).symm
    rintro ⟨hne, htype⟩
    have hzero := hskipped.resolve_right htype
    cases htext : c.value with
    | none => exact htext
    | some text =>
      rw [Postgres.ResultCell.getlength, htext, Option.getD_some] at hzero
      exact absurd (htext.trans (congrArg some (List.eq_nil_of_length_eq_zero (by omega)))) hne
  · obtain ⟨hlength, htype⟩ := not_or.mp hskipped
    have hempty : ∀ value, c.value = value → value.getD [] ≠ [] := by
      rintro value rfl hnil
      refine hlength ?_
      rw [Postgres.ResultCell.getlength, hnil]
      rfl
    have hmemory : 0 ∈ c.getvalue := List.mem_append_right _ (List.mem_singleton.mpr rfl)
    obtain ⟨r, hr, hne⟩ := @toValue_postgres unescapeBytea address _ _ _ htype hlength hmemory
    refine iff_of_true (tellsNull_of_ne ?_ ?_ ?_ ?_) (.inr ⟨?_, htype⟩)
    · rw [hdecode, Postgres.ResultCell.decode, hr]
      cases r <;> nofun
    · rw [hdecode, Postgres.ResultCell.decode, hr]
      cases r with
      | error e => nofun
      | ok v => exact fun heq => hne (congrArg Except.ok (Decoded.value.inj heq))
    · exact fun hnull => hempty _ hnull rfl
    · exact fun htext => absurd rfl (hempty _ htext.2)
    · exact fun htext => hempty _ htext rfl

/-! ### MySQL -/

/-- A text is no null, unless its type is that of nulls. -/
lemma toValue_mysql {type : Mysql.FieldType} (htype : type ≠ .null) (value : String)
    (length : Nat) : Mysql.toValue type (some value) length address ≠ .ok .null := by
  cases type with
  | null => exact absurd rfl htype
  | bit | tiny | short | int24 | long | longlong | newdate | date | datetime | timestamp | time
  | float | double =>
    simp only [Mysql.toValue]
    intro hnull
    split at hnull <;> cases hnull
  | decimal | year | varchar | newdecimal | enum | set | tinyBlob | mediumBlob | longBlob | blob
  | varString | string | geometry =>
    intro hnull
    cases hnull

lemma tellsNull_mysql (c : Mysql.TextCell) : TellsNull unescapeBytea address (.mysql c) := by
  have hdecode : decode unescapeBytea address (.mysql c) = c.decode address := rfl
  cases hvalue : c.value with
  | none =>
    refine (tellsNull_iff_isNull ?_).mpr hvalue
    rw [hdecode, Mysql.TextCell.decode, hvalue]
    rfl
  | some value =>
    have htype : c.type ≠ .null := fun h => absurd ((c.null h).symm.trans hvalue) nofun
    have hne := @toValue_mysql address c.type htype value value.length
    refine tellsNull_of_ne ?_ ?_ (fun hnull => absurd (hvalue.symm.trans hnull) nofun) ?_
    · rw [hdecode, Mysql.TextCell.decode]
      split <;> nofun
    · rw [hdecode, Mysql.TextCell.decode, hvalue]
      intro heq
      split at heq
      · next v hv =>
        obtain rfl := Decoded.value.inj heq
        exact hne hv
      · cases heq
    · rintro ⟨htext, hempty⟩
      have hcases : c.type = .string ∨ c.type = .varString ∨ c.type = .varchar := by
        simpa [Mysql.FieldType.isText] using htext
      rw [hdecode, Mysql.TextCell.decode, hempty]
      rcases hcases with htype | htype | htype <;> rw [htype] <;> rfl

section Statement

variable {b : Mysql.Bind}

lemma toValue_cString (hnull : b.isNull ≠ some true) (htype : b.bufferType.isCString = true) :
    b.toValue address = (b.buffer.bind Mysql.Bind.cString).map .string := by
  rw [Mysql.Bind.toValue, if_neg hnull]
  cases hb : b.bufferType with
  | decimal | year | varchar | newdecimal | enum | set | varString | string | geometry | newdate =>
    rfl
  | _ =>
    rw [hb] at htype
    cases htype

/-- The other types but that of nulls have values. -/
lemma toValue_other (hnull : b.isNull ≠ some true) {memory : List UInt8}
    (hbuffer : b.buffer = some memory) (htype : b.bufferType.isCString = false)
    (hne : b.bufferType ≠ .null) : ∃ v, b.toValue address = some v ∧ v ≠ .null := by
  rw [Mysql.Bind.toValue, if_neg hnull]
  cases hb : b.bufferType with
  | null => exact absurd hb hne
  | decimal | year | varchar | newdecimal | enum | set | varString | string | geometry | newdate =>
    rw [hb] at htype
    cases htype
  | bit | tiny | short | int24 | long =>
    simp only
    split <;> exact ⟨_, rfl, number_ne_null _⟩
  | longlong => exact ⟨_, rfl, number_ne_null _⟩
  | time | date | timestamp | datetime =>
    refine ⟨_, rfl, ?_⟩
    rw [Mysql.Bind.parseTime, hbuffer]
    exact time_ne_null _
  | float | double =>
    rw [hbuffer]
    exact ⟨_, rfl, number_ne_null _⟩
  | tinyBlob | mediumBlob | longBlob | blob =>
    simp only
    split <;> exact ⟨_, rfl, blob_ne_null _⟩

end Statement

/-- The buffer of a column whose size is not 0. -/
lemma buffer_bind {c : Mysql.StatementCell} :
    c.bind.buffer = if 0 < Mysql.bufferLengthOf c.field then some c.memory else none := by
  rw [Mysql.StatementCell.bind, Mysql.prepareBindingFromField]
  simp only
  split <;> rfl

/-- The flag of a column that may be null. -/
lemma isNull_bind {c : Mysql.StatementCell} : c.bind.isNull = some true ↔ c.value = none := by
  have hflag : c.bind.isNull = if c.field.notNull then none else some c.value.isNone := by
    rw [Mysql.StatementCell.bind, Mysql.prepareBindingFromField]
    simp only
    split <;> rfl
  rw [hflag]
  cases hnotNull : c.field.notNull with
  | true =>
    rw [if_pos rfl]
    exact iff_of_false (Option.some_ne_none true).symm (c.notNull hnotNull)
  | false => simp

section MysqlStatement

variable {c : Mysql.StatementCell}

lemma decode_mysqlStatement {r : Option SqlValue} (h : Mysql.bindingToValue c.bind address = r) :
    decode unescapeBytea address (.mysqlStatement c) = r.elim .undefined .value := by
  rw [decode, Mysql.StatementCell.decode, h]
  cases r <;> rfl

/-- With a buffer, a C string is read up to a NUL, if it has one. -/
lemma tellsNull_cString (hvalue : c.value ≠ none) (hlength : 0 < Mysql.bufferLengthOf c.field)
    (htype : c.field.type.isCString = true) :
    TellsNull unescapeBytea address (.mysqlStatement c) ↔ 0 ∈ c.memory := by
  have hbuffer : c.bind.buffer = some c.memory := buffer_bind.trans (if_pos hlength)
  have hread := @toValue_cString address c.bind (mt isNull_bind.mp hvalue) htype
  have hsome : Mysql.bindingToValue c.bind address = c.bind.toValue address :=
    if_neg (by rw [hbuffer]; exact Option.some_ne_none _)
  rw [hbuffer, Option.bind_some, Mysql.Bind.cString] at hread
  by_cases hzero : 0 ∈ c.memory
  · rw [if_pos hzero, Option.map_some] at hread
    have hresult := @decode_mysqlStatement unescapeBytea address c _ (hsome.trans hread)
    refine iff_of_true (tellsNull_of_ne ?_ ?_ hvalue fun hempty => ?_) hzero
    · intro hundefined
      cases hresult.symm.trans hundefined
    · intro hnull
      cases hresult.symm.trans hnull
    · obtain ⟨rest, hrest⟩ :=
        c.stored hempty.1 [] hempty.2 (by rw [c.memory_length]; exact hlength)
      rw [hresult, ← hrest]
      rfl
  · rw [if_neg hzero] at hread
    refine iff_of_false (fun h => ?_) hzero
    exact h.defined (decode_mysqlStatement (hsome.trans hread))

/-- With a buffer, a value of another type is no null. -/
lemma tellsNull_other (hvalue : c.value ≠ none) (hlength : 0 < Mysql.bufferLengthOf c.field)
    (htype : c.field.type.isCString = false) :
    TellsNull unescapeBytea address (.mysqlStatement c) := by
  have hbuffer : c.bind.buffer = some c.memory := buffer_bind.trans (if_pos hlength)
  have hsome : Mysql.bindingToValue c.bind address = c.bind.toValue address :=
    if_neg (by rw [hbuffer]; exact Option.some_ne_none _)
  obtain ⟨v, hv, hne⟩ := @toValue_other address c.bind (mt isNull_bind.mp hvalue) _ hbuffer htype
    (fun h => hvalue (c.null h))
  have hresult := @decode_mysqlStatement unescapeBytea address c _ (hsome.trans hv)
  refine tellsNull_of_ne ?_ ?_ hvalue fun hempty => ?_
  · intro hundefined
    cases hresult.symm.trans hundefined
  · rw [hresult]
    exact fun heq => hne (Decoded.value.inj heq)
  · have htext : c.field.type.isCString = true := by
      simp [Mysql.FieldType.isCString, hempty.1]
    cases htype.symm.trans htext

end MysqlStatement

lemma tellsNull_mysqlStatement (c : Mysql.StatementCell) :
    TellsNull unescapeBytea address (.mysqlStatement c) ↔ Distinct (.mysqlStatement c) := by
  rw [Distinct]
  by_cases hvalue : c.value = none
  · have hnull : Mysql.bindingToValue c.bind address = some .null := by
      rw [Mysql.bindingToValue, Mysql.Bind.toValue, if_pos (isNull_bind.mpr hvalue), ite_self]
    refine iff_of_true ?_ (.inl hvalue)
    exact (tellsNull_iff_isNull (decode_mysqlStatement hnull)).mpr hvalue
  rw [or_iff_right hvalue]
  by_cases hlength : 0 < Mysql.bufferLengthOf c.field
  · rw [and_iff_right hlength]
    cases htype : c.field.type.isCString with
    | true => rw [forall_prop_of_true rfl, tellsNull_cString hvalue hlength htype]
    | false => exact iff_of_true (tellsNull_other hvalue hlength htype) fun h => by cases h
  · -- without a buffer the value is taken for null
    have hnull : Mysql.bindingToValue c.bind address = some .null :=
      if_pos (buffer_bind.trans (if_neg hlength))
    rw [tellsNull_iff_isNull (decode_mysqlStatement hnull)]
    exact iff_of_false hvalue fun h => hlength h.1

/-! ### SQLite -/

lemma toValue_sqlite (c : Sqlite.RowCell) :
    (Sqlite.toValue c.row c.column address = .null ↔ c.value = .null) ∧
      (c.value = .text [] → Sqlite.toValue c.row c.column address = .string "") := by
  have hcolumn : ¬((c.column : Int) < 0 ∨ (c.row.length : Int) ≤ c.column) := by
    have hlt := c.column_lt
    omega
  have hvalue : c.row.getD c.column .null = c.value := List.getD_eq_getElem _ _ c.column_lt
  rw [Sqlite.toValue, if_neg hcolumn, Int.toNat_natCast, hvalue]
  cases c.value with
  | null => exact ⟨iff_of_true rfl rfl, nofun⟩
  | integer | float | blob => exact ⟨iff_of_false nofun nofun, nofun⟩
  | text bytes =>
    refine ⟨iff_of_false nofun nofun, fun h => ?_⟩
    obtain rfl := Sqlite.StoredValue.text.inj h
    rfl

lemma tellsNull_sqlite (c : Sqlite.RowCell) : TellsNull unescapeBytea address (.sqlite c) := by
  have hdecode : decode unescapeBytea address (.sqlite c) =
      .value (Sqlite.toValue c.row c.column address) := rfl
  obtain ⟨hnull, hempty⟩ := @toValue_sqlite address c
  refine ⟨?_, ?_, fun h => ?_⟩
  · rw [hdecode]
    nofun
  · rw [hdecode, Decoded.value.injEq, hnull]
    rfl
  · rw [hdecode, hempty h]

/-- A decoder tells the nulls of the server from its other values exactly for these columns. -/
theorem tellsNull_iff (unescapeBytea : List UInt8 → List UInt8) (address : UInt64)
    (c : ResultCell) : c.TellsNull unescapeBytea address ↔ c.Distinct := by
  cases c with
  | postgres c => exact tellsNull_postgres c
  | mysql c => exact iff_of_true (tellsNull_mysql c) trivial
  | mysqlStatement c => exact tellsNull_mysqlStatement c
  | sqlite c => exact iff_of_true (tellsNull_sqlite c) trivial

/-- An empty text of PostgreSQL is read as null. -/
theorem not_tellsNull_empty :
    ¬∀ (unescapeBytea : List UInt8 → List UInt8) (address : UInt64) (c : ResultCell),
      c.TellsNull unescapeBytea address := by
  intro h
  have hcell := h id 0 (.postgres ⟨.text, some [], by simp, by simp⟩)
  exact Option.some_ne_none _ (hcell.null.mp rfl)

end ResultCell

end CodaDb
