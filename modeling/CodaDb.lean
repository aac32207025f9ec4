import CodaDb.Lib.Machine
import CodaDb.Lib.Prepared
import CodaDb.Lib.Tokens
import CodaDb.Lib.SelectGrammar
import CodaDb.Lib.Condition
import CodaDb.Sql.Text
import CodaDb.Sql.Value
import CodaDb.Session
import CodaDb.Where.Clause
import CodaDb.Where.Units
import CodaDb.Where.Meaning
import CodaDb.Where.Operator
import CodaDb.Where.Builder
import CodaDb.Where.Tagged
import CodaDb.Where.Conditions
import CodaDb.Query.Base
import CodaDb.Query.Select
import CodaDb.Query.SelectRun
import CodaDb.Query.SelectCount
import CodaDb.Query.Union
import CodaDb.Query.Current
import CodaDb.Query.References
import CodaDb.Query.Grammar
import CodaDb.Query.Modify
import CodaDb.Query.Copy
import CodaDb.Query.Assign
import CodaDb.Query.Binder
import CodaDb.Query.Update
import CodaDb.Query.Positional
import CodaDb.Query.Batch
import CodaDb.Query.Rounds
import CodaDb.Query.Calls
import CodaDb.Query.Retry
import CodaDb.Query.Pointers
import CodaDb.Query.Outcome
import CodaDb.Query.Returning
import CodaDb.Query.Sent
import CodaDb.Query.Loaded
import CodaDb.Sqlite.Binding
import CodaDb.Sqlite.Integers
import CodaDb.Record.Find
import CodaDb.Record.Save
import CodaDb.Record.Existing
import CodaDb.Transaction.Handle
import CodaDb.Transaction.Ended
import CodaDb.Transaction.Scope
import CodaDb.Lib.Cursor
import CodaDb.Resultset.Impl
import CodaDb.Resultset.Listed
import CodaDb.Resultset.RangeFor
import CodaDb.Lib.Bytes
import CodaDb.Lib.Calls
import CodaDb.Lib.CString
import CodaDb.Lib.SlotArray
import CodaDb.Lib.Numeral
import CodaDb.Lib.Decimal
import CodaDb.Lib.Cut
import CodaDb.Sql.Convert
import CodaDb.Sql.Parse
import CodaDb.Sql.Calendar
import CodaDb.Sql.Equality
import CodaDb.Sql.Shown
import CodaDb.Sql.Truth
import CodaDb.Sql.Numerals
import CodaDb.Sql.Wide
import CodaDb.Sql.Layout
import CodaDb.Sql.TimeText
import CodaDb.Sql.Accepted
import CodaDb.Sql.Alike
import CodaDb.Sql.Overloads
import CodaDb.Uri
import CodaDb.Uri.Positions
import CodaDb.Mysql.Decode
import CodaDb.Bind.Bound
import CodaDb.Mysql.Encode
import CodaDb.Mysql.Store
import CodaDb.Mysql.RoundTrip
import CodaDb.Resultset.Rows
import CodaDb.Resultset.Iterators
import CodaDb.Lib.Search
import CodaDb.Bind.Parameter
import CodaDb.Lib.Memory
import CodaDb.Bind.Alloc
import CodaDb.Bind.Realloc
import CodaDb.Bind.Mapping
import CodaDb.Bind.Target
import CodaDb.Mysql.Binding
import CodaDb.Mysql.Slots
import CodaDb.Postgres.Binding
import CodaDb.Postgres.Rewrite
import CodaDb.Postgres.Encode
import CodaDb.Postgres.Store
import CodaDb.Postgres.RoundTrip
import CodaDb.Postgres.Copy
import CodaDb.Sqlite.Column
import CodaDb.Resultset.Nulls
import CodaDb.Bind.Maps
import CodaDb.Schema.Factory
import CodaDb.Lib.Shared
import CodaDb.Sqlite.Objects
import CodaDb.Sqlite.Lifetime
import CodaDb.Sqlite.Connections
import CodaDb.Sqlite.Cycles
import CodaDb.Lib.Table
import CodaDb.Record.Commands
import CodaDb.Record.Results
import CodaDb.Record.OnTable
import CodaDb.Record.Served
import CodaDb.Record.System
import CodaDb.Record.Kept
import CodaDb.Schema.Catalog
import CodaDb.Schema.Describes
import CodaDb.Schema.Keys
