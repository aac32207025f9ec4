import CodaDb.Query.Base
import CodaDb.Where.Builder

/-!
# `insert_query`, `update_query` and `delete_query`

The fields of the queries that modify a table, their renderings, setters, executions and copies. A
rendering that follows a null pointer or does not come to an end is `none`. The calls of a where
builder are those of a query that is neither a copy nor moved from, which its own builder binds
into.
-/

namespace CodaDb

open SqlText

structure ModifyQuery extends Query where
  numChanges_ : Nat := 0

structure InsertQuery extends ModifyQuery where
  lastId_ : Int := 0
  columns_ : List String := []
  tableName_ : String := ""

structure UpdateQuery extends ModifyQuery where
  where_ : WhereBuilder
  columns_ : List String := []
  tableName_ : String := ""

structure DeleteQuery extends ModifyQuery where
  where_ : WhereBuilder
  tableName_ : String := ""

/-- `to_sql() const` for a rendering that may fail. -/
def Query.toSqlWith (q : Query) (generated : Option SqlText) : Option SqlText :=
  if q.sql_.empty then generated else some q.sql_

/-- What the executions of the three classes share, from `prepare(to_sql())` to `reset()`: the query
afterwards, the statement that was run, and what running it gave, or an exception. A prepared query
has a statement. -/
def Query.modify (q : Query) (d : Driver) (e : Engine) (sql : SqlText) :
    Query × Option Statement × Except DbException (Option (Nat × Int)) :=
  match prepare { q with sql_ := sql } d sql with
  | (q, .error ex) => (q, none, .error ex)
  | (q, .ok ()) =>
    match q.stmt_ with
    | none => (q, none, .ok none)
    | some stmt => (q.reset, some stmt, (e.reset stmt).map fun () => e.execute stmt)

/-- `num_changes` after a run of `execute` -/
def changesOf (answer : Option (Nat × Int)) : Nat := (answer.map Prod.fst).getD 0

/-- What `modify` can do: be refused the text, be refused a value, run the statement there is, or
load a new one and run it. Unless something is refused it ends with a `reset`. -/
inductive Query.Modifies (q : Query) (d : Driver) (e : Engine) (sql : SqlText) :
    Query × Option Statement × Except DbException (Option (Nat × Int)) → Prop where
  | refused (ex : DbException) (hstale : q.cache.stale = true)
      (hd : d.prepare sql.render = some ex) :
      Modifies q d e sql ({ q with sql_ := sql, stmt_ := some {} }, none, .error ex)
  | unbound (ex : DbException) (stmt : Statement) (hstale : q.cache.stale = true)
      (hprep : d.prepare sql.render = none)
      (hd : ¬d.Accepts sql.render q.params_ q.namedParams_) (hsql : stmt.sql = some sql) :
      Modifies q d e sql ({ q with sql_ := sql, stmt_ := some stmt }, none, .error ex)
  | kept (stmt : Statement) (hstale : q.cache.stale = false) (hstmt : q.stmt_ = some stmt) :
      Modifies q d e sql
        (reset { q with sql_ := sql, stmt_ := some stmt }, some stmt,
          (e.reset stmt).map fun () => e.execute stmt)
  | loaded (hstale : q.cache.stale = true) (hd : d.Accepts sql.render q.params_ q.namedParams_) :
      Modifies q d e sql
        (reset { q with sql_ := sql, stmt_ := some (q.statementFor sql) },
          some (q.statementFor sql),
          (e.reset (q.statementFor sql)).map fun () => e.execute (q.statementFor sql))

theorem Query.modify_spec (q : Query) (d : Driver) (e : Engine) (sql : SqlText) :
    Modifies q d e sql (q.modify d e sql) := by
  have hspec := Query.prepare_spec { q with sql_ := sql } d sql
  rw [modify]
  generalize Query.prepare { q with sql_ := sql } d sql = r at hspec ⊢
  cases hspec with
  | kept hstale =>
    cases hstmt : q.stmt_ with
    | none => cases hstale.symm.trans (stale_of_none hstmt)
    | some stmt => exact .kept stmt hstale hstmt
  | refused ex hstale hd => exact .refused ex hstale hd
  | unbound ex stmt hstale hprep hd hsql => exact .unbound ex stmt hstale hprep hd hsql
  | loaded hstale hd => exact .loaded hstale hd

/-- A stale query whose text and values the driver accepts runs the statement for them. -/
lemma Query.modify_stale {q : Query} (hstale : q.cache.stale = true) {d : Driver} {sql : SqlText}
    (hd : d.Accepts sql.render q.params_ q.namedParams_) (e : Engine) :
    q.modify d e sql =
      (reset { q with sql_ := sql, stmt_ := some (q.statementFor sql) },
        some (q.statementFor sql),
        (e.reset (q.statementFor sql)).map fun () => e.execute (q.statementFor sql)) := by
  have hspec := q.modify_spec d e sql
  generalize q.modify d e sql = r at hspec ⊢
  cases hspec with
  | refused ex _ hnot => simp [hd.prepare] at hnot
  | unbound ex stmt _ _ hnot => exact absurd hd hnot
  | kept stmt hkept => cases hstale.symm.trans hkept
  | loaded => rfl

/-- A stale query runs the statement for its text and values if the driver accepts them, and throws
otherwise. -/
lemma Query.modify_stale_cases {q : Query} (hstale : q.cache.stale = true) (d : Driver) (e : Engine)
    (sql : SqlText) :
    (d.Accepts sql.render q.params_ q.namedParams_ ∧
        ∃ base out, q.modify d e sql = (base, some (q.statementFor sql), out)) ∨
      ¬d.Accepts sql.render q.params_ q.namedParams_ ∧
        ∃ base ex, q.modify d e sql = (base, none, .error ex) := by
  have hspec := q.modify_spec d e sql
  generalize q.modify d e sql = r at hspec ⊢
  cases hspec with
  | refused ex _ hd =>
    refine .inr ⟨?_, _, ex, rfl⟩
    intro h
    simp [h.prepare] at hd
  | unbound ex stmt _ _ hd => exact .inr ⟨hd, _, ex, rfl⟩
  | kept stmt hkept => cases hstale.symm.trans hkept
  | loaded _ hd => exact .inl ⟨hd, _, _, rfl⟩

namespace InsertQuery

/-- The loop that lists the keys after `RETURNING`. Its body does not move the iterator, so it comes
to an end only if the first key is the last. -/
def returningSql : List String → Option SqlText
  | [] => some []
  | [key] => some (lit " RETURNING " ++ lit key)
  | _ :: _ :: _ => none

/-- `insert_query::generate_sql` -/
def generateSql (q : InsertQuery) : Option SqlText := do
  let session ← q.session_
  let returning ←
    if session.impl_.hasReturning then do
      let schema ← session.getSchema q.tableName_
      returningSql schema.primaryKeys
    else some []
  return lit "INSERT INTO " ++ lit q.tableName_ ++ lit "(" ++ lit (Helper.joinCsv q.columns_) ++
    lit ") VALUES(" ++ session.joinParams q.columns_ ++ lit ")" ++ returning ++ lit ";"

def toSql (q : InsertQuery) : Option SqlText := q.toSqlWith q.generateSql

def isValid (q : InsertQuery) : Bool := q.session_.isSome && q.tableName_ ≠ ""

def setModified (q : InsertQuery) : InsertQuery := { q with toQuery := q.toQuery.setModified }

/-- The constructors on a session and on a schema. -/
def ofSession (session : Session) (tableName : String := "") (columns : List String := []) :
    InsertQuery :=
  { session_ := some session, tableName_ := tableName, columns_ := columns }

def ofSchema (schema : Schema) (columns : List String) : InsertQuery :=
  ofSession schema.session_ schema.tableName_ columns

def columns (q : InsertQuery) (value : List String) : InsertQuery :=
  setModified { q with columns_ := value }

def into (q : InsertQuery) (value : String) : InsertQuery :=
  setModified { q with tableName_ := value }

/-- `bind(const std::vector<sql_value> &)` -/
def bindAll (q : InsertQuery) (value : List SqlValue) : InsertQuery :=
  { q with toQuery := (q.toQuery.bindAll value 1).1 }

/-- `values(const std::vector<sql_value> &)` -/
def values (q : InsertQuery) (value : List SqlValue) : InsertQuery :=
  setModified (q.bindAll value)

/-- `values(const std::unordered_map<std::string, sql_value> &)` -/
def valuesMap (q : InsertQuery) (value : NamedParams) : InsertQuery :=
  setModified { q with toQuery := q.toQuery.bindMap value }

/-- `value(const std::string &, const sql_value &)` -/
def valueNamed (q : InsertQuery) (name : String) (value : SqlValue) : InsertQuery :=
  setModified { q with toQuery := q.toQuery.bindNamed name value }

/-- `value(const sql_value &)` -/
def value (q : InsertQuery) (value : SqlValue) : InsertQuery :=
  setModified { q with toQuery := q.toQuery.bindNext value }

/-- `execute`: the query afterwards, the statement that was run, and the number of changes or an
exception; `none` if the rendering does not come to an end. -/
def execute (q : InsertQuery) (d : Driver) (e : Engine) :
    Option (InsertQuery × Option Statement × Except DbException Nat) :=
  if q.isValid then do
    let sql ← q.toSql
    match q.toQuery.modify d e sql with
    | (base, none, out) => return ({ q with toQuery := base }, none, out.map changesOf)
    | (base, some stmt, out) =>
      let answer := e.execute stmt
      return ({ q with
          toQuery := base
          numChanges_ := changesOf answer
          lastId_ := (answer.map Prod.snd).getD 0 },
        some stmt, out.map changesOf)
  else some (q, none, .error (.database "invalid insert query"))

/-- An execution of a valid query changes what they share, and what it tells of the insert. -/
lemma execute_eq {q : InsertQuery} (hvalid : q.isValid = true) {sql : SqlText}
    (hsql : q.toSql = some sql) (d : Driver) (e : Engine) :
    ∃ changes lastId, q.execute d e = some (
      { q with
        toQuery := (q.toQuery.modify d e sql).1
        numChanges_ := changes
        lastId_ := lastId },
      (q.toQuery.modify d e sql).2.1, (q.toQuery.modify d e sql).2.2.map changesOf) := by
  rw [execute, if_pos hvalid, hsql]
  simp only [Option.bind_eq_bind, Option.bind_some]
  obtain ⟨base, stmt, out⟩ := q.toQuery.modify d e sql
  cases stmt with
  | none => exact ⟨q.numChanges_, q.lastId_, rfl⟩
  | some stmt => exact ⟨_, _, rfl⟩

lemma execute_stale {q : InsertQuery} (hvalid : q.isValid = true) (hstale : q.cache.stale = true)
    {sql : SqlText} (hsql : q.toSql = some sql) (d : Driver) (e : Engine) :
    ∃ q' stmt out, q.execute d e = some (q', stmt, out) ∧
      (d.Accepts sql.render q.params_ q.namedParams_ ∧ stmt = some (q.statementFor sql) ∨
        ¬d.Accepts sql.render q.params_ q.namedParams_ ∧ stmt = none ∧ ∃ ex, out = .error ex) := by
  obtain ⟨changes, lastId, hexecute⟩ := execute_eq hvalid hsql d e
  rw [hexecute]
  rcases Query.modify_stale_cases hstale d e sql with ⟨hd, base, out, heq⟩ | ⟨hd, base, ex, heq⟩
  · rw [heq]
    exact ⟨_, _, _, rfl, .inl ⟨hd, rfl⟩⟩
  · rw [heq]
    exact ⟨_, _, _, rfl, .inr ⟨hd, rfl, ex, rfl⟩⟩

def copy (other : InsertQuery) : InsertQuery := { other with toQuery := other.toQuery.copy }

def assign (q other : InsertQuery) : InsertQuery :=
  { other with toQuery := q.toQuery.assign other.toQuery }

end InsertQuery

namespace UpdateQuery

/-- `update_query::generate_sql` -/
def generateSql (q : UpdateQuery) : Option SqlText := do
  let set ←
    if q.columns_.isEmpty then some []
    else q.session_.map fun session =>
      lit " SET " ++ session.joinParams q.columns_ OpType.eq.typeValue
  return lit "UPDATE " ++ lit q.tableName_ ++ set ++
    (if q.where_.empty then [] else lit " WHERE " ++ q.where_.toSql) ++ lit ";"

def toSql (q : UpdateQuery) : Option SqlText := q.toSqlWith q.generateSql

def isValid (q : UpdateQuery) : Bool := q.session_.isSome && q.tableName_ ≠ ""

def setModified (q : UpdateQuery) : UpdateQuery := { q with toQuery := q.toQuery.setModified }

/-- The constructors on a session; `self` is the address of the new object. -/
def ofSession (self : Addr) (session : Session) (tableName : String := "")
    (columns : List String := []) : UpdateQuery :=
  { session_ := some session
    where_ := { binder_ := self, session_ := session.impl_ }
    tableName_ := tableName
    columns_ := columns }

/-- The constructor on a schema and columns. -/
def ofSchema (self : Addr) (schema : Schema) (columns : List String) : UpdateQuery :=
  ofSession self schema.session_ schema.tableName_ columns

def table (q : UpdateQuery) (value : String) : UpdateQuery :=
  setModified { q with tableName_ := value }

/-- `columns(const std::vector<std::string> &)` -/
def columns (q : UpdateQuery) (value : List String) : UpdateQuery :=
  setModified { q with columns_ := value }

def column (q : UpdateQuery) (value : String) : UpdateQuery :=
  if value = "" then q else setModified { q with columns_ := q.columns_ ++ [value] }

lemma column_eq (q : UpdateQuery) {value : String} (hvalue : value ≠ "") :
    q.column value = setModified { q with columns_ := q.columns_ ++ [value] } :=
  if_neg hvalue

/-- `columns(const std::string &, const List &...)` -/
def columnList (q : UpdateQuery) (value : List String) : UpdateQuery := value.foldl column q

/-- `bind(const std::vector<sql_value> &)` -/
def bindAll (q : UpdateQuery) (value : List SqlValue) : UpdateQuery :=
  { q with toQuery := (q.toQuery.bindAll value 1).1 }

/-- `values`, with a vector or a list of arguments -/
def values (q : UpdateQuery) (value : List SqlValue) : UpdateQuery :=
  setModified (q.bindAll value)

/-- `values(const std::unordered_map<std::string, sql_value> &)` -/
def valuesMap (q : UpdateQuery) (value : NamedParams) : UpdateQuery :=
  setModified { q with toQuery := q.toQuery.bindMap value }

/-- `value(const std::string &, const sql_value &)` -/
def valueNamed (q : UpdateQuery) (name : String) (value : SqlValue) : UpdateQuery :=
  setModified { q with toQuery := q.toQuery.bindNamed name value }

/-- `value(const sql_value &)` -/
def value (q : UpdateQuery) (value : SqlValue) : UpdateQuery :=
  setModified { q with toQuery := q.toQuery.bindNext value }

/-- `where(op)` and `where() && op`. An append does not throw, see `WhereBuilder.append_eq`. -/
def append (how : Connective) (q : UpdateQuery) (o : SqlOperator) : UpdateQuery :=
  match q.where_.append how q.toQuery o with
  | .error _ => q
  | .ok (w, binder) =>
    let q' := { q with toQuery := binder, where_ := w }
    match how with
    | .reset => q'.setModified
    | .and | .or => q'

/-- `modify_query::execute`: the query afterwards, the statement that was run, and the number of
changes or an exception; `none` if the rendering fails. -/
def execute (q : UpdateQuery) (d : Driver) (e : Engine) :
    Option (UpdateQuery × Option Statement × Except DbException Nat) :=
  if q.isValid then do
    let sql ← q.toSql
    match q.toQuery.modify d e sql with
    | (base, none, out) => return ({ q with toQuery := base }, none, out.map changesOf)
    | (base, some stmt, out) =>
      return ({ q with toQuery := base, numChanges_ := changesOf (e.execute stmt) },
        some stmt, out.map changesOf)
  else some (q, none, .error (.database "Invalid modify query"))

lemma execute_eq {q : UpdateQuery} (hvalid : q.isValid = true) {sql : SqlText}
    (hsql : q.toSql = some sql) (d : Driver) (e : Engine) :
    ∃ changes, q.execute d e = some (
      { q with toQuery := (q.toQuery.modify d e sql).1, numChanges_ := changes },
      (q.toQuery.modify d e sql).2.1, (q.toQuery.modify d e sql).2.2.map changesOf) := by
  rw [execute, if_pos hvalid, hsql]
  simp only [Option.bind_eq_bind, Option.bind_some]
  obtain ⟨base, stmt, out⟩ := q.toQuery.modify d e sql
  cases stmt with
  | none => exact ⟨q.numChanges_, rfl⟩
  | some stmt => exact ⟨_, rfl⟩

lemma execute_stale {q : UpdateQuery} (hvalid : q.isValid = true) (hstale : q.cache.stale = true)
    {sql : SqlText} (hsql : q.toSql = some sql) (d : Driver) (e : Engine) :
    ∃ q' stmt out, q.execute d e = some (q', stmt, out) ∧
      (d.Accepts sql.render q.params_ q.namedParams_ ∧ stmt = some (q.statementFor sql) ∨
        ¬d.Accepts sql.render q.params_ q.namedParams_ ∧ stmt = none ∧ ∃ ex, out = .error ex) := by
  obtain ⟨changes, hexecute⟩ := execute_eq hvalid hsql d e
  rw [hexecute]
  rcases Query.modify_stale_cases hstale d e sql with ⟨hd, base, out, heq⟩ | ⟨hd, base, ex, heq⟩
  · rw [heq]
    exact ⟨_, _, _, rfl, .inl ⟨hd, rfl⟩⟩
  · rw [heq]
    exact ⟨_, _, _, rfl, .inr ⟨hd, rfl, ex, rfl⟩⟩

def copy (other : UpdateQuery) : UpdateQuery := { other with toQuery := other.toQuery.copy }

def assign (q other : UpdateQuery) : UpdateQuery :=
  { other with toQuery := q.toQuery.assign other.toQuery }

lemma generateSql_eq {q : UpdateQuery} {session : Session} (h : q.session_ = some session) :
    q.generateSql = some (lit "UPDATE " ++ lit q.tableName_ ++
      (if q.columns_.isEmpty then []
        else lit " SET " ++ session.joinParams q.columns_ OpType.eq.typeValue) ++
      (if q.where_.empty then [] else lit " WHERE " ++ q.where_.toSql) ++ lit ";") := by
  cases hcolumns : q.columns_ with
  | nil => simp [generateSql, hcolumns]
  | cons c cs => simp [generateSql, hcolumns, h]

/-- The values take the first places among the parameters. -/
lemma values_eq (q : UpdateQuery) (values : List SqlValue) :
    q.values values =
      setModified { q with params_ := values ++ q.params_.drop values.length } := by
  by_cases hvalues : values = []
  · subst hvalues
    rfl
  · have hbind := q.toQuery.bindAll_eq values (Nat.zero_le q.params_.length)
    rw [Nat.zero_add] at hbind
    simp [UpdateQuery.values, bindAll, hbind, hvalues, setModified, Query.setModified]

end UpdateQuery

namespace DeleteQuery

/-- `delete_query::generate_sql` -/
def generateSql (q : DeleteQuery) : SqlText :=
  lit "DELETE FROM " ++ lit q.tableName_ ++
    (if q.where_.empty then [] else lit " WHERE " ++ q.where_.toSql) ++ lit ";"

def toSql (q : DeleteQuery) : Option SqlText := q.toSqlWith (some q.generateSql)

def isValid (q : DeleteQuery) : Bool := q.session_.isSome && q.tableName_ ≠ ""

def setModified (q : DeleteQuery) : DeleteQuery := { q with toQuery := q.toQuery.setModified }

/-- The constructors on a session; `self` is the address of the new object. -/
def ofSession (self : Addr) (session : Session) (tableName : String := "") : DeleteQuery :=
  { session_ := some session
    where_ := { binder_ := self, session_ := session.impl_ }
    tableName_ := tableName }

def «from» (q : DeleteQuery) (value : String) : DeleteQuery :=
  setModified { q with tableName_ := value }

/-- `where(op)` and `where() && op`. An append does not throw, see `WhereBuilder.append_eq`. -/
def append (how : Connective) (q : DeleteQuery) (o : SqlOperator) : DeleteQuery :=
  match q.where_.append how q.toQuery o with
  | .error _ => q
  | .ok (w, binder) =>
    let q' := { q with toQuery := binder, where_ := w }
    match how with
    | .reset => q'.setModified
    | .and | .or => q'

/-- `modify_query::execute`: the query afterwards, the statement that was run, and the number of
changes or an exception; `none` if the rendering fails. -/
def execute (q : DeleteQuery) (d : Driver) (e : Engine) :
    Option (DeleteQuery × Option Statement × Except DbException Nat) :=
  if q.isValid then do
    let sql ← q.toSql
    match q.toQuery.modify d e sql with
    | (base, none, out) => return ({ q with toQuery := base }, none, out.map changesOf)
    | (base, some stmt, out) =>
      return ({ q with toQuery := base, numChanges_ := changesOf (e.execute stmt) },
        some stmt, out.map changesOf)
  else some (q, none, .error (.database "Invalid modify query"))

lemma execute_eq {q : DeleteQuery} (hvalid : q.isValid = true) {sql : SqlText}
    (hsql : q.toSql = some sql) (d : Driver) (e : Engine) :
    ∃ changes, q.execute d e = some (
      { q with toQuery := (q.toQuery.modify d e sql).1, numChanges_ := changes },
      (q.toQuery.modify d e sql).2.1, (q.toQuery.modify d e sql).2.2.map changesOf) := by
  rw [execute, if_pos hvalid, hsql]
  simp only [Option.bind_eq_bind, Option.bind_some]
  obtain ⟨base, stmt, out⟩ := q.toQuery.modify d e sql
  cases stmt with
  | none => exact ⟨q.numChanges_, rfl⟩
  | some stmt => exact ⟨_, rfl⟩

def copy (other : DeleteQuery) : DeleteQuery := { other with toQuery := other.toQuery.copy }

def assign (q other : DeleteQuery) : DeleteQuery :=
  { other with toQuery := q.toQuery.assign other.toQuery }

end DeleteQuery

end CodaDb
