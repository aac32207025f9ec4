import Mathlib.Data.List.ProdSigma
import CodaDb.Schema.Factory
import CodaDb.Record.Save
import CodaDb.Sql.Truth

/-!
# Schemas from the catalog of a server

What the three drivers ask the database about the columns of a table, and the definitions that they
make of the answer. Two of them ask for the keys of the table first, by a join of the constraints
with the columns that are under any.
-/

namespace CodaDb

/-! ### The catalog -/

inductive KeyKind where
  | primary | unique | foreign
deriving DecidableEq, Repr

/-- A constraint that makes columns of a table keys. -/
structure KeyConstraint where
  kind : KeyKind
  columns : List String

/-- A column of a table. Each server says in its own way that it counts the values up. -/
structure CatalogColumn where
  name : String
  type : String
  /-- the text of the expression for the default -/
  default_ : Option String := none
  /-- MySQL -/
  extra : String := ""
  /-- PostgreSQL: the sequence of the column -/
  serial : Option String := none
  /-- SQLite: the column stands for the number of the row -/
  rowid : Bool := false

structure CatalogTable where
  schema : String
  name : String
  columns : List CatalogColumn
  keys : List KeyConstraint

/-- The tables of a server, and what it finds for a text that it reads as the name of a table. That
is up to the server: PostgreSQL folds a name without quotes to lower case and goes through its
search path, SQLite goes through its databases, and a text that is no name is an error. -/
structure Catalog where
  tables : List CatalogTable
  finds : String → Except DbException (Option CatalogTable)

namespace CatalogTable

/-- The columns of the primary key. -/
def primaryKey (t : CatalogTable) : List String :=
  (t.keys.filter fun k => k.kind = .primary).flatMap KeyConstraint.columns

/-- The columns under any constraint that makes them keys. -/
def keyColumns (t : CatalogTable) : List String := t.keys.flatMap KeyConstraint.columns

/-- The definitions of the columns, where the server counts up some. -/
def describe (t : CatalogTable) (counted : CatalogColumn → Bool) : List ColumnDefinition :=
  t.columns.map fun c =>
    ⟨c.name, c.name ∈ t.primaryKey, decide (c.name ∈ t.primaryKey) && counted c⟩

/-- The key of a record: the first column of the primary key that the server counts up. -/
def key (t : CatalogTable) (counted : CatalogColumn → Bool) : Option String :=
  (t.columns.find? fun c => decide (c.name ∈ t.primaryKey) && counted c).map CatalogColumn.name

end CatalogTable

namespace Catalog

/-- Tables differ by schema and name, columns of a table have different names, and constraints are
on some of them. -/
structure WellFormed (cat : Catalog) : Prop where
  tables : (cat.tables.map fun t => (t.schema, t.name)).Nodup
  names : ∀ t ∈ cat.tables, (t.columns.map CatalogColumn.name).Nodup
  name_ne : ∀ t ∈ cat.tables, ∀ c ∈ t.columns, c.name ≠ ""
  keys : ∀ t ∈ cat.tables, ∀ k ∈ t.keys, k.columns ≠ [] ∧
    ∀ name ∈ k.columns, name ∈ t.columns.map CatalogColumn.name

variable (cat : Catalog)

/-! ### `information_schema` -/

/-- `table_constraints`: schema, table and kind of each constraint. -/
def tableConstraints : List (String × String × KeyKind) :=
  cat.tables.flatMap fun t => t.keys.map fun k => (t.schema, t.name, k.kind)

/-- `key_column_usage`: schema, table and name of each column under a constraint. -/
def keyColumnUsage : List (String × String × String) :=
  cat.tables.flatMap fun t => t.keyColumns.map fun c => (t.schema, t.name, c)

/-- `columns` -/
def columnsView : List (String × String × CatalogColumn) :=
  cat.tables.flatMap fun t => t.columns.map fun c => (t.schema, t.name, c)

/-- The query for the primary keys of a table: the join is on the schema and the table, and not on
the constraint. -/
def primaryKeyRows (isAsked : String → String → Bool) : List String :=
  ((cat.tableConstraints ×ˢ cat.keyColumnUsage).filter fun (tc, kc) =>
    decide (kc.2.1 = tc.2.1 ∧ kc.1 = tc.1 ∧ tc.2.2 = .primary) && isAsked tc.1 tc.2.1).map
      fun (_, kc) => kc.2.2

/-- The query for the columns of a table. -/
def columnRows (isAsked : String → String → Bool) : List CatalogColumn :=
  (cat.columnsView.filter fun (schema, table, _) => isAsked schema table).map fun (_, _, c) => c

/-- `pg_get_serial_sequence`: its first argument is read as the name of a table and its second one
is taken literally. It fails for what is not a column of a table. -/
def serialSequence (tableName columnName : String) : Except DbException (Option String) :=
  match cat.finds tableName with
  | .error e => .error e
  | .ok none => .error (.database ("relation \"" ++ tableName ++ "\" does not exist"))
  | .ok (some t) =>
    match t.columns.find? fun c => c.name = columnName with
    | none => .error (.database ("column \"" ++ columnName ++ "\" does not exist"))
    | some c => .ok c.serial

end Catalog

/-! ### The drivers -/

/-- A `column_definition`. -/
structure ColumnRow extends ColumnDefinition where
  type : String
  default_value : String
deriving DecidableEq, Repr

/-- The definition of a row with the texts as the driver reads them, and the names that it takes for
those of a primary key; a column without a name is passed over. -/
def ColumnRow.ofTexts (textValue : Option String → SqlValue) (isKey : String → Bool)
    (counted : Bool) (c : CatalogColumn) : Option ColumnRow :=
  let name := (textValue (some c.name)).toString
  if name = "" then none
  else
    some
      { name := name
        pk := isKey name
        autoincrement := isKey name && counted
        type := (textValue (some c.type)).toString
        default_value := (textValue c.default_).toString }

namespace Mysql

/-- A text as the columns of a result give it. -/
def textValue (text : Option String) : SqlValue := text.elim .null .string

/-- `get_primary_keys` -/
def getPrimaryKeys (cat : Catalog) (dbName tableName : String) : List String :=
  (cat.primaryKeyRows fun schema table => table = tableName ∧ schema = dbName).map fun name =>
    (textValue (some name)).toString

/-- The definition of a row; `row["extra"]` is compared with a text. -/
def definition (primaryKeys : List String) (c : CatalogColumn) : Option ColumnRow :=
  ColumnRow.ofTexts textValue primaryKeys.contains
    ((textValue (some c.extra)).toString = "auto_increment") c

/-- `get_columns_for_schema` of an open session -/
def getColumnsForSchema (cat : Catalog) (dbName tableName : String) : List ColumnRow :=
  (cat.columnRows fun schema table => table = tableName ∧ schema = dbName).filterMap
    (definition (getPrimaryKeys cat dbName tableName))

end Mysql

namespace Postgres

/-- A text as the columns of a result give it, where an empty one is a null. -/
def textValue : Option String → SqlValue
  | none => .null
  | some s => if s = "" then .null else .string s

/-- The definition of a row with the sequence of its column. -/
def definition (primaryKeys : List String) (row : CatalogColumn × Option String) :
    Option ColumnRow :=
  ColumnRow.ofTexts textValue
    (fun name => primaryKeys.any fun key => (textValue (some key)).toString = name)
    ((textValue row.2).toString ≠ "") row.1

/-- `get_columns_for_schema` of an open session, which asks for the table in every schema. -/
def getColumnsForSchema (cat : Catalog) (tableName : String) :
    Except DbException (List ColumnRow) :=
  let primaryKeys := cat.primaryKeyRows fun _ table => table = tableName
  ((cat.columnRows fun _ table => table = tableName).mapM fun c =>
    (cat.serialSequence tableName c.name).map fun serial => (c, serial)).map fun rows =>
      rows.filterMap (definition primaryKeys)

end Postgres

namespace Sqlite

def textValue (text : Option String) : SqlValue := text.elim .null .string

/-- The place of a column in the primary key, from one on; zero for the others. -/
def primaryKeyIndex (t : CatalogTable) (c : CatalogColumn) : Nat :=
  if c.name ∈ t.primaryKey then t.primaryKey.idxOf c.name + 1 else 0

/-- The definition of a row of `pragma table_info`; `none` where reading a number as a boolean is
not defined. -/
def definition (t : CatalogTable) (c : CatalogColumn) : Option ColumnRow :=
  (SqlNumber.ofLlong (primaryKeyIndex t c)).toBool.map fun pk =>
    { name := (textValue (some c.name)).toString
      pk := pk
      autoincrement := pk
      type := (textValue (some c.type)).toString
      default_value := (textValue c.default_).toString }

/-- `get_columns_for_schema` of an open session. The name is put into the text of a pragma, where it
is read as the name of a table: it is an error where it would need quotes. The pragma of a table
that does not exist has no rows. -/
def getColumnsForSchema (cat : Catalog) (tableName : String) :
    Option (Except DbException (List ColumnRow)) :=
  if tableName = "" then some (.error (.database "no table name to query schema"))
  else
    match cat.finds tableName with
    | .error e => some (.error e)
    | .ok none => some (.ok [])
    | .ok (some t) => (t.columns.mapM (definition t)).map .ok

end Sqlite

end CodaDb
