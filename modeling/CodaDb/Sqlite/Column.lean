import CodaDb.Lib.CString
import CodaDb.Sql.Value

/-!
# Reading the columns of SQLite

A column has the type of its value. The decoder asks for the type first, and for a text whatever the
type is that it does not know.
-/

namespace CodaDb.Sqlite

/-- A value as SQLite stores it. -/
inductive StoredValue where
  | integer (v : CInt .llong)
  | float (v : FloatValue)
  | text (bytes : List UInt8)
  | blob (bytes : List UInt8)
  | null
deriving DecidableEq, Repr

/-- `sqlite3_column_text`, which is asked for texts and nulls only. -/
def columnText : StoredValue → Option (List UInt8)
  | .text bytes => some bytes
  | _ => none

/-- `data_mapper::to_value`, for a copy of a blob at an address. -/
def toValue (row : List StoredValue) (column : Int) (address : UInt64) : SqlValue :=
  if column < 0 ∨ row.length ≤ column then .null
  else
    match row.getD column.toNat .null with
    | .integer v => .number (.integral .llong v)
    | .float v => .number (.floating .double v)
    -- `sqlite3_column_blob` is a null pointer for a blob without bytes
    | .blob bytes => .blob ⟨if bytes = [] then 0 else address, bytes⟩
    | value =>
      match columnText value with
      | some bytes => .string (CString.text (CString.prefixOf bytes))
      | none => .null

end CodaDb.Sqlite
