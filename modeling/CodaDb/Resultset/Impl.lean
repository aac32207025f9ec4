import CodaDb.Lib.Cursor
import CodaDb.Query.Statement

/-!
# The implementations of `resultset_impl`

Four cursors, each over an object of the library of its back end. What one execution returns is
fixed by an outcome; the calls of the libraries read it off.
-/

namespace CodaDb

/-- What the driver reports in one execution: rows, and then their end or an error. -/
structure DriverOutcome (ρ : Type*) where
  rows : List ρ
  failure : Option String := none

variable {ρ : Type*}

namespace Sqlite

/-- The result of `sqlite3_step`, or the initial value of `status_`. -/
inductive StepStatus where
  | unset | row | done | error
deriving DecidableEq, Repr

/-- A `sqlite3_stmt`: the rows stepped over, the current one, and the error of the last step. -/
structure Stmt (ρ : Type*) where
  outcome : DriverOutcome ρ
  stepped : Nat := 0
  current : Option ρ := none
  error : Option String := none

/-- `sqlite3_step`. After the end or an error the next step executes the statement again. -/
def Stmt.step (s : Stmt ρ) : Stmt ρ × StepStatus :=
  match s.outcome.rows[s.stepped]? with
  | some r => ({ s with stepped := s.stepped + 1, current := some r, error := none }, .row)
  | none =>
    ({ s with stepped := 0, current := none, error := s.outcome.failure },
      if s.outcome.failure.isNone then .done else .error)

/-- `sqlite3_reset`, which returns the error of the last step. -/
def Stmt.reset (s : Stmt ρ) : Stmt ρ × Option String :=
  ({ s with stepped := 0, current := none, error := none }, s.error)

structure Resultset (ρ : Type*) where
  stmt_ : Stmt ρ
  status_ : StepStatus := .unset

namespace Resultset

def next (r : Resultset ρ) : Resultset ρ × Except DbException Bool :=
  if r.status_ = .done then (r, .ok false)
  else ({ stmt_ := r.stmt_.step.1, status_ := r.stmt_.step.2 }, .ok (r.stmt_.step.2 = .row))

def reset (r : Resultset ρ) : Resultset ρ × Except DbException Unit :=
  match r.stmt_.reset with
  | (stmt, some e) => ({ r with stmt_ := stmt }, .error (.database e))
  | (stmt, none) => ({ stmt_ := stmt, status_ := .unset }, .ok ())

def row (r : Resultset ρ) : Option ρ := r.stmt_.current

end Resultset

end Sqlite

namespace Mysql

/-- A `MYSQL_STMT`, with what `mysql_stmt_reset`, `mysql_stmt_execute` and
`mysql_stmt_result_metadata` will return. -/
structure Stmt (ρ : Type*) where
  outcome : DriverOutcome ρ
  resetError : Option String := none
  executeError : Option String := none
  hasMetadata : Bool := true
  executed : Bool := false
  fetched : Nat := 0
  current : Option ρ := none

/-- `mysql_stmt_fetch` -/
def Stmt.fetch (s : Stmt ρ) : Stmt ρ × Except DbException Bool :=
  if s.executed then
    match s.outcome.rows[s.fetched]? with
    | some r => ({ s with fetched := s.fetched + 1, current := some r }, .ok true)
    | none =>
      match s.outcome.failure with
      | none => (s, .ok false)
      | some e => (s, .error (.database e))
  else (s, .error (.database "Commands out of sync; you can't run this command now"))

/-- What the driver reports from the reset on. -/
def Stmt.reported (s : Stmt ρ) : DriverOutcome ρ :=
  match s.resetError, s.executeError, s.hasMetadata with
  | some e, _, _ | none, some e, _ => { rows := [], failure := some e }
  | none, none, false => { rows := [], failure := some "No result data found." }
  | none, none, true => s.outcome

structure StmtResultset (ρ : Type*) where
  stmt_ : Stmt ρ
  status_ : Int := -1

namespace StmtResultset

/-- After a successful `mysql_stmt_execute`. -/
def executed (r : StmtResultset ρ) : StmtResultset ρ :=
  { stmt_ := { r.stmt_ with executed := true, fetched := 0 }, status_ := 0 }

def prepareResults (r : StmtResultset ρ) : StmtResultset ρ × Except DbException Unit :=
  if r.status_ ≠ -1 then (r, .ok ())
  else
    match r.stmt_.executeError with
    | some e => ({ r with status_ := 1 }, .error (.database e))
    | none =>
      if r.stmt_.hasMetadata then (r.executed, .ok ())
      else (r.executed, .error (.database "No result data found."))

def next (r : StmtResultset ρ) : StmtResultset ρ × Except DbException Bool :=
  match r.prepareResults with
  | (r', .error e) => (r', .error e)
  | (r', .ok ()) => ({ r' with stmt_ := r'.stmt_.fetch.1 }, r'.stmt_.fetch.2)

def reset (r : StmtResultset ρ) : StmtResultset ρ × Except DbException Unit :=
  match r.stmt_.resetError with
  | some e => ({ r with status_ := -1 }, .error (.database e))
  | none => ({ stmt_ := { r.stmt_ with executed := false }, status_ := -1 }, .ok ())

def row (r : StmtResultset ρ) : Option ρ := r.stmt_.current

end StmtResultset

/-- A `MYSQL_RES`. -/
structure Res (ρ : Type*) where
  outcome : DriverOutcome ρ
  fetched : Nat := 0

structure Resultset (ρ : Type*) where
  /-- null if the statement has no result -/
  res_ : Option (Res ρ)
  row_ : Option ρ := none
  /-- whether the session is open -/
  isOpen : Bool := true

namespace Resultset

/-- `mysql_fetch_row` returns a null pointer at the end and with an error. -/
def next (r : Resultset ρ) : Resultset ρ × Except DbException Bool :=
  match r.res_, r.isOpen with
  | none, _ | some _, false => (r, .ok false)
  | some res, true =>
    ({ r with
        res_ := some { res with fetched := res.fetched + 1 }
        row_ := res.outcome.rows[res.fetched]? },
      .ok res.outcome.rows[res.fetched]?.isSome)

/-- `mysql_data_seek` to the first row -/
def reset (r : Resultset ρ) : Resultset ρ × Except DbException Unit :=
  ({ r with res_ := r.res_.map fun res => { res with fetched := 0 } }, .ok ())

def row (r : Resultset ρ) : Option ρ := r.row_

end Resultset

end Mysql

namespace Postgres

/-- A `PGresult` has all rows; their number is an `int`. -/
structure Resultset (ρ : Type*) where
  rows : List ρ
  countable : rows.length < 2 ^ 31
  currentRow_ : Int := -1

namespace Resultset

def next (r : Resultset ρ) : Resultset ρ × Except DbException Bool :=
  ({ r with currentRow_ := r.currentRow_ + 1 }, .ok (r.currentRow_ + 1 < r.rows.length))

def reset (r : Resultset ρ) : Resultset ρ × Except DbException Unit :=
  ({ r with currentRow_ := -1 }, .ok ())

def row (r : Resultset ρ) : Option ρ :=
  if 0 ≤ r.currentRow_ then r.rows[r.currentRow_.toNat]? else none

end Resultset

end Postgres

/-- The four implementations behind a `resultset`. -/
inductive ResultsetImpl (ρ : Type*) where
  | sqlite (r : Sqlite.Resultset ρ)
  | mysqlStmt (r : Mysql.StmtResultset ρ)
  | mysql (r : Mysql.Resultset ρ)
  | postgres (r : Postgres.Resultset ρ)

namespace ResultsetImpl

def next : ResultsetImpl ρ → ResultsetImpl ρ × Except DbException Bool
  | .sqlite r => r.next.map .sqlite id
  | .mysqlStmt r => r.next.map .mysqlStmt id
  | .mysql r => r.next.map .mysql id
  | .postgres r => r.next.map .postgres id

def reset : ResultsetImpl ρ → ResultsetImpl ρ × Except DbException Unit
  | .sqlite r => r.reset.map .sqlite id
  | .mysqlStmt r => r.reset.map .mysqlStmt id
  | .mysql r => r.reset.map .mysql id
  | .postgres r => r.reset.map .postgres id

/-- The row that `current_row` reads. -/
def row : ResultsetImpl ρ → Option ρ
  | .sqlite r => r.row
  | .mysqlStmt r => r.row
  | .mysql r => r.row
  | .postgres r => r.row

/-- The virtual functions, as those of one cursor. -/
def cursor : Cursor (ResultsetImpl ρ) ρ DbException where
  reset := reset
  next := next
  row := row

/-- What the driver reports in the execution a pass makes, or in the result it has. -/
def outcome : ResultsetImpl ρ → DriverOutcome ρ
  | .sqlite r => r.stmt_.outcome
  | .mysqlStmt r => r.stmt_.reported
  | .mysql r => (r.res_.map Mysql.Res.outcome).getD { rows := [] }
  | .postgres r => { rows := r.rows }

end ResultsetImpl

end CodaDb
