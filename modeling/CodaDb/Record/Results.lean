import CodaDb.Record.Commands
import CodaDb.Resultset.RangeFor

/-!
# Records from rows

The functions that read records from the database and remove them: `init`, `refresh`, `remove`,
`find_one` and `find_by`. What the database answers depends on its state, which the statements that
modify it change.
-/

namespace CodaDb

/-- A row of a result: its columns, with what reading the value of each gives. -/
structure ResultRow where
  columns : List (String × Except DbException SqlValue)
  isValid : Bool := true

/-- `resultset_impl::is_valid` -/
def ResultsetImpl.isValid {ρ : Type*} : ResultsetImpl ρ → Bool
  | .sqlite _ | .mysqlStmt _ | .postgres _ => true
  | .mysql r => r.res_.isSome

/-- A database with states `τ` under the statements of queries: the exceptions of its driver, and
what the statements answer. -/
structure Backend (τ : Type*) where
  driver : Driver := {}
  count : τ → Statement → Except DbException Int
  query : τ → Statement → Except DbException (ResultsetImpl ResultRow)
  modify : τ → Statement → τ × Option (Nat × Int)
  reset : Statement → Outcome := fun _ => .ok ()

namespace Backend

variable {τ : Type*} (db : Backend τ) (s : τ)

def engine : Engine where
  execute stmt := (db.modify s stmt).2
  reset := db.reset

def answers : Answers where
  select := db.driver
  count := db.count s
  modify := db.driver
  engine := db.engine s

/-- The state after a statement, if one was run. -/
def after (stmt : Option Statement) : τ := stmt.elim s fun stmt => (db.modify s stmt).1

end Backend

variable {τ : Type*}

/-- `select_query::execute` with what `query` answers; `none` if there is no statement. -/
def SelectQuery.query (q : SelectQuery) (db : Backend τ) (s : τ) :
    Option (Except DbException (ResultsetImpl ResultRow)) :=
  match q.prepare db.driver with
  | (_, .error e) => some (.error e)
  | (q', .ok ()) => q'.stmt_.map (db.query s)

namespace Record

/-- The loop of `init`; an exception leaves the columns before it. -/
def initFrom (r : Record) : List (String × Except DbException SqlValue) → Record × Outcome
  | [] => (r, .ok ())
  | (_, .error e) :: _ => (r, .error e)
  | (name, .ok v) :: columns => (r.set name v).initFrom columns

/-- `init`, on the row of an iterator; `none` is a row without an implementation. -/
def init (r : Record) : Option ResultRow → Record × Outcome
  | none => (r, .ok ())
  | some row => if row.isValid then r.initFrom row.columns else (r, .ok ())

def unset (r : Record) (name : String) : Record := { r with values_ := r.values_.erase name }

def reset (r : Record) : Record := { r with values_ := ∅ }

def setId (r : Record) (value : SqlValue) : Except DbException Record :=
  r.schema_.primaryKey.map fun pk => r.set pk value

/-- `save` on a database in a state. -/
def saveOn (r : Record) (db : Backend τ) (s : τ) : Option (Record × τ × Except DbException Bool) :=
  (r.save (db.answers s)).map fun saved =>
    (saved.record, db.after s saved.statement, saved.result)

/-- The query of `refresh_by`, an object at `self`. -/
def refreshQuery (self : Addr) (r : Record) (name : String) : SelectQuery :=
  ((SelectQuery.ofSchema self r.schema_).append .reset
    (Op.equals (.string name) (r.get name))).limit "1"

def refreshBy (r : Record) (name : String) (db : Backend τ) (s : τ) :
    Option (Record × Except DbException Bool) :=
  if r.has name then
    ((r.refreshQuery 0 name).query db s).map fun
      | .error e => (r, .error e)
      | .ok result =>
        match Resultset.begin ResultsetImpl.cursor result with
        | (_, .error e) => (r, .error e)
        | (_, .ok it) =>
          if it.pos_ = -1 then (r, .ok false)
          else ((r.init it.value_).1, (r.init it.value_).2.map fun () => true)
  else some (r, .ok false)

def refresh (r : Record) (db : Backend τ) (s : τ) : Option (Record × Except DbException Bool) :=
  match r.schema_.primaryKey with
  | .error e => some (r, .error e)
  | .ok pk => r.refreshBy pk db s

/-- The query of `remove`, an object at `self`. -/
def removeQuery (self : Addr) (r : Record) (pk : String) : DeleteQuery :=
  (DeleteQuery.ofSession self r.schema_.session_ r.schema_.tableName_).append .reset
    (Op.equals (.string pk) (r.get pk))

/-- `remove`: the state afterwards and the result. -/
def remove (r : Record) (db : Backend τ) (s : τ) : Option (τ × Except DbException Bool) :=
  match r.schema_.primaryKey with
  | .error e => some (s, .error e)
  | .ok pk =>
    if r.has pk then
      ((r.removeQuery 0 pk).execute db.driver (db.engine s)).map fun (_, stmt, changes) =>
        (db.after s stmt, changes.map (· != 0))
    else some (s, .ok false)

/-- A new record of a schema. -/
def new (schema : Schema) : Record := { schema_ := schema, values_ := ∅ }

/-- The rows a range-for of `find_by` visits, with a record for each, until an exception. -/
def fromRows (schema : Schema) :
    List (Option ResultRow) → Cursor.Stop DbException → List Record × Cursor.Stop DbException
  | [], stop => ([], stop)
  | row :: rows, stop =>
    match (new schema).init row with
    | (_, .error e) => ([], .threw e)
    | (r, .ok ()) => (r :: (fromRows schema rows stop).1, (fromRows schema rows stop).2)

end Record

/-- `find_one`: the record the callback is called with, if it is. -/
def findOneOn (schema : Schema) (values : ColumnValues) (db : Backend τ) (s : τ) :
    Option (Except DbException (Option Record)) :=
  ((findOne 0 schema values).query db s).map fun
    | .error e => .error e
    | .ok result =>
      if result.isValid then
        match Resultset.begin ResultsetImpl.cursor result with
        | (_, .error e) => .error e
        | (_, .ok it) =>
          if it.pos_ = -1 then .ok none
          else ((Record.new schema).init it.value_).2.map fun () =>
            some ((Record.new schema).init it.value_).1
      else .ok none

/-- `find_by_id` -/
def findByIdOn (schema : Schema) (value : SqlValue) (db : Backend τ) (s : τ) :
    Option (Except DbException (Option Record)) :=
  match schema.primaryKey with
  | .error e => some (.error e)
  | .ok pk => findOneOn schema ⟨[(pk, value)], List.pairwise_singleton ..⟩ db s

/-- `find_by`: the records the callback is called with, and how the loop ends; `none` also if the
fuel does not suffice. -/
def findByOn (schema : Schema) (values : ColumnValues) (db : Backend τ) (s : τ) (fuel : Nat) :
    Option (List Record × Cursor.Stop DbException) :=
  ((findBy 0 schema values).query db s).bind fun
    | .error e => some ([], .threw e)
    | .ok result =>
      if result.isValid then
        (Resultset.rangeFor ResultsetImpl.cursor fuel result).map fun visited =>
          Record.fromRows schema visited.1 visited.2
      else some ([], .finished)

end CodaDb
