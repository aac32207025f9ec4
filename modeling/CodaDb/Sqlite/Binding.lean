import CodaDb.Query.Statement

/-!
# Binding values on SQLite

What the library is handed for a value that is bound to a statement, and the values that the driver
refuses.
-/

namespace CodaDb.Sqlite

/-- The arguments of the functions `sqlite3_bind_*`. -/
inductive Cell where
  | null
  | int64 (v : Int)
  | double (v : FloatValue)
  | text (v : String)
  | text16 (units : List Nat)
  | blob (bytes : List UInt8)
deriving DecidableEq, Repr

/-- The argument of `sqlite3_bind_int`, which is an `int`. -/
def bindInt (v : Int) : Cell := .int64 (v.bmod (2 ^ 32))

/-- The argument of `sqlite3_bind_int64`. -/
def bindInt64 (v : Int) : Cell := .int64 (v.bmod (2 ^ 64))

/-- A C string ends at its first NUL. -/
def cString (v : String) : String := String.ofList (v.toList.takeWhile (· ≠ '\x00'))

/-- `data_mapper::from_number`; `none` stands for `false`. The result of binding null is not
compared with `SQLITE_OK`, which is zero. -/
def fromNumber : SqlNumber → Option Cell
  | .null => none
  | .floating .longDouble _ => none
  | .floating .float v | .floating .double v => some (.double v)
  | .integral .ullong _ => none
  | .integral .llong v | .integral .uint v | .integral .ulong v => some (bindInt64 v)
  | .integral _ v => some (bindInt v)

/-- `data_mapper::from_value`. The characters of a wide string have 32 bits and are read as two
units of 16 bits. -/
def fromValue : SqlValue → Option Cell
  | .null => some .null
  | .number value => fromNumber value
  | .string value => some (.text (cString value))
  | .wstring value => some (.text16
      ((value.flatMap fun c => [c.toNat % 2 ^ 16, c.toNat / 2 ^ 16]).takeWhile (· ≠ 0)))
  | .time value => some (.text value.toString)
  | .blob value => some (if value.address = 0 then .null else .blob value.bytes)

/-- What a row holds in a column with the value. -/
def column : SqlValue → Option Cell
  | .number (.integral _ v) => some (.int64 v)
  | v => fromValue v

/-- `statement::bind`, where SQLite itself reports no error. -/
def driver : Driver where
  bind := fun _ value =>
    if (fromValue value).isNone then some (.binding "not an error") else none

/-- The driver takes exactly the parameters it has an argument for. -/
lemma driver_accepts {text : String} {params : List SqlValue} {named : NamedParams} :
    driver.Accepts text params named ↔ ∀ v ∈ params, (fromValue v).isSome = true := by
  have hbind : ∀ i v, driver.bind i v = none ↔ (fromValue v).isSome = true := by
    intro i v
    cases h : fromValue v <;> simp [driver, h]
  constructor
  · intro h v hv
    obtain ⟨i, hi⟩ := List.getElem?_of_mem hv
    exact (hbind _ v).mp (h.bind i v hi)
  · intro h
    exact ⟨rfl, fun i v hv => (hbind _ v).mpr (h v (List.mem_of_getElem? hv)), fun _ _ => rfl⟩

end CodaDb.Sqlite
