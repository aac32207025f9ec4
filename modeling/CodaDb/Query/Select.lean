import CodaDb.Query.Base
import CodaDb.Where.Builder

/-!
# `select_query`

The fields of a select query, its rendering, and its operations. A query that is neither a copy nor
moved from is the object its own where builder binds into, so the operations that append a condition
bind into the query itself.
-/

namespace CodaDb

open SqlText

/-- `join::type` -/
inductive JoinType where
  | none | inner | left | right | natural | full | cross
deriving DecidableEq, Repr

/-- The words `generate_sql` starts a join with. -/
def JoinType.words : JoinType → String
  | .none => ""
  | .natural => " NATURAL"
  | .inner => " INNER"
  | .left => " LEFT"
  | .right => " RIGHT"
  | .full => " FULL OUTER"
  | .cross => " CROSS"

structure JoinClause where
  sql_ : SqlText := []
  tableName_ : String := ""
  type_ : JoinType := .none
  on_ : WhereClause := {}

namespace JoinClause

/-- `join_clause::generate_sql` -/
def generateSql (j : JoinClause) : SqlText :=
  lit j.type_.words ++ lit " JOIN " ++ lit j.tableName_ ++
    if j.type_ ≠ .cross ∧ j.type_ ≠ .natural then lit " ON " ++ j.on_.toSql else []

def toSql (j : JoinClause) : SqlText := if j.sql_.empty then j.generateSql else j.sql_

/-- The non-const `to_sql`, which keeps the text it returns. -/
def memoise (j : JoinClause) : JoinClause := { j with sql_ := j.toSql }

def setModified (j : JoinClause) : JoinClause := { j with sql_ := [] }

/-- `join_clause(const string &, join::type)` -/
def ofTable (tableName : String) (type : JoinType := .none) : JoinClause :=
  { tableName_ := tableName, type_ := type }

/-- `join_clause(const string &, const string &, join::type)` -/
def ofTableAlias (tableName «alias» : String) (type : JoinType := .none) : JoinClause :=
  ofTable (tableName ++ " as " ++ «alias») type

def table (j : JoinClause) (value : String) : JoinClause :=
  setModified { j with tableName_ := value }

def tableAlias (j : JoinClause) (value «alias» : String) : JoinClause :=
  setModified { j with tableName_ := value ++ " " ++ «alias» }

def type (j : JoinClause) (value : JoinType) : JoinClause := setModified { j with type_ := value }

/-- `on(const string &)` -/
def on (j : JoinClause) (value : String) : JoinClause :=
  setModified { j with on_ := .ofText (lit value) }

/-- `on(const where_clause &)` -/
def onClause (j : JoinClause) (value : WhereClause) : JoinClause :=
  setModified { j with on_ := value }

/-- `operator&&(const string &)` on the clause that `on` returned, which knows nothing of the
join. -/
def onAnd (j : JoinClause) (value : String) : JoinClause :=
  { j with on_ := j.on_.andText (lit value) }

/-- `operator||(const string &)` on the clause that `on` returned -/
def onOr (j : JoinClause) (value : String) : JoinClause :=
  { j with on_ := j.on_.orText (lit value) }

end JoinClause

/-- `union_op::type` -/
inductive UnionType where
  | none | all
deriving DecidableEq, Repr

mutual
structure SelectQuery extends Query where
  where_ : WhereBuilder
  join_ : List JoinClause := []
  limit_ : String := ""
  orderBy_ : String := ""
  groupBy_ : String := ""
  columns_ : List String := []
  tableName_ : String := ""
  union_ : Option UnionOperator := none

/-- The object behind `union_`. Its query is read by the non-const `to_sql`, which fills the memo;
that changes no text, as nothing modifies the query. -/
structure UnionOperator where
  query : SelectQuery
  type : UnionType
end

namespace SelectQuery

/-- `generate_sql` up to the union. -/
def coreSql (q : SelectQuery) : SqlText :=
  lit "SELECT " ++ lit (if q.columns_.isEmpty then "*" else Helper.joinCsv q.columns_) ++
    lit " FROM " ++ lit q.tableName_ ++ q.join_.flatMap JoinClause.toSql ++
    (if q.where_.empty then [] else lit " WHERE " ++ q.where_.toSql) ++
    (if q.orderBy_ = "" then [] else lit " ORDER BY " ++ lit q.orderBy_) ++
    (if q.limit_ = "" then [] else lit " LIMIT " ++ lit q.limit_) ++
    (if q.groupBy_ = "" then [] else lit " GROUP BY " ++ lit q.groupBy_)

mutual
/-- `select_query::generate_sql` -/
def generateSql : SelectQuery → SqlText
  | ⟨q, w, joins, limit, orderBy, groupBy, columns, tableName, union⟩ =>
    coreSql ⟨q, w, joins, limit, orderBy, groupBy, columns, tableName, union⟩ ++ unionSql union

/-- The end of the text: the other query, or a semicolon. -/
def unionSql : Option UnionOperator → SqlText
  | none => lit ";"
  | some u => unionOperatorSql u

def unionOperatorSql : UnionOperator → SqlText
  | ⟨query, type⟩ =>
    lit " UNION " ++ (if type = .all then lit "ALL " else []) ++
      if query.sql_.empty then query.generateSql else query.sql_
end

/-- `to_sql() const` -/
def toSql (q : SelectQuery) : SqlText := if q.sql_.empty then q.generateSql else q.sql_

/-- The non-const `to_sql`, which keeps the text it returns. -/
def memoise (q : SelectQuery) : SelectQuery := { q with sql_ := q.toSql }

def setModified (q : SelectQuery) : SelectQuery := { q with toQuery := q.toQuery.setModified }

/-! ### Constructors -/

/-- The constructors on a session; `self` is the address of the new object. -/
def ofSession (self : Addr) (session : Session) (columns : List String := [])
    (tableName : String := "") : SelectQuery :=
  { session_ := some session
    where_ := { binder_ := self, session_ := session.impl_ }
    columns_ := columns
    tableName_ := tableName }

/-- The constructor on a schema. -/
def ofSchema (self : Addr) (schema : Schema) : SelectQuery :=
  { ofSession self schema.session_ schema.columnNames with tableName_ := schema.tableName_ }

/-- `select_query(const select_query &)` -/
def copy (other : SelectQuery) : SelectQuery := { other with toQuery := other.toQuery.copy }

/-- `select_query(select_query &&)`: the new object -/
def move (other : SelectQuery) : SelectQuery := { other with toQuery := other.toQuery.move }

/-- `operator=(const select_query &)` -/
def assign (q other : SelectQuery) : SelectQuery :=
  { other with toQuery := q.toQuery.assign other.toQuery }

/-! ### Setters -/

def «from» (q : SelectQuery) (value : String) : SelectQuery :=
  setModified { q with tableName_ := value }

def fromAlias (q : SelectQuery) (value «alias» : String) : SelectQuery :=
  setModified { q with tableName_ := value ++ " " ++ «alias» }

def columns (q : SelectQuery) (value : List String) : SelectQuery :=
  setModified { q with columns_ := value }

def column (q : SelectQuery) (value : String) : SelectQuery :=
  if value = "" then q else setModified { q with columns_ := q.columns_ ++ [value] }

lemma column_eq (q : SelectQuery) {value : String} (hvalue : value ≠ "") :
    q.column value = setModified { q with columns_ := q.columns_ ++ [value] } :=
  if_neg hvalue

def limit (q : SelectQuery) (value : String) : SelectQuery := setModified { q with limit_ := value }

def orderBy (q : SelectQuery) (value : String) : SelectQuery :=
  setModified { q with orderBy_ := value }

def groupBy (q : SelectQuery) (value : String) : SelectQuery :=
  setModified { q with groupBy_ := value }

/-- `join(const join_clause &)` -/
def join (q : SelectQuery) (value : JoinClause) : SelectQuery :=
  setModified { q with join_ := q.join_ ++ [value] }

/-- `union_with`: the other query is copied into an argument and moved from there. -/
def unionWith (q query : SelectQuery) (type : UnionType := .none) : SelectQuery :=
  setModified { q with union_ := some { query := query.copy.move, type := type } }

/-- `where(op)`, `where() && op` and `where() || op` on a query its own builder binds into. An
append does not throw, see `WhereBuilder.append_eq`. -/
def append (how : Connective) (q : SelectQuery) (o : SqlOperator) : SelectQuery :=
  match q.where_.append how q.toQuery o with
  | .error _ => q
  | .ok (w, binder) =>
    let q' := { q with toQuery := binder, where_ := w }
    match how with
    | .reset => q'.setModified
    | .and | .or => q'

/-- `bind(const std::vector<sql_value> &, size_t)`; an exception leaves the bindings before it. -/
def bindAll (q : SelectQuery) (values : List SqlValue) (index : Nat := 1) : SelectQuery :=
  { q with toQuery := (q.toQuery.bindAll values index).1 }

/-- `bind(const std::unordered_map<std::string, sql_value> &)` -/
def bindMap (q : SelectQuery) (values : NamedParams) : SelectQuery :=
  { q with toQuery := q.toQuery.bindMap values }

/-! ### Execution -/

/-- `prepare(to_sql())` -/
def prepare (q : SelectQuery) (d : Driver) : SelectQuery × Outcome :=
  let r := q.memoise.toQuery.prepare d q.toSql
  ({ q with toQuery := r.1 }, r.2)

/-- `execute`: the query afterwards and the statement `query` was called on, unless an exception
came first. -/
def execute (q : SelectQuery) (d : Driver) : SelectQuery × Option Statement :=
  match q.prepare d with
  | (q', .ok ()) => (q', q'.stmt_)
  | (q', .error _) => (q', none)

/-- `reset`. The statement is dropped, unless its own `reset` throws. A null pointer is not followed
here; `reset` is for a query that was executed. -/
def reset (q : SelectQuery) (e : Engine) : SelectQuery :=
  match q.stmt_.map e.reset with
  | none | some (.error _) => { q with toQuery := q.toQuery.reset }
  | some (.ok ()) => { q with toQuery := { q.toQuery.reset with stmt_ := none } }

/-- `count`, where `answer` is the number the database gives for a statement, or an exception.
Besides the query and the result, the statement that was run. -/
def count (q : SelectQuery) (d : Driver) (answer : Statement → Except DbException Int) :
    SelectQuery × Option Statement × Int :=
  let cols := q.columns_
  match { q with columns_ := ["COUNT(*)"] }.prepare d with
  | (q, .error _) => ({ q with columns_ := cols }, none, -1)
  | (q, .ok ()) =>
    -- `execute_scalar` calls `execute`
    match q.execute d with
    | (q, none) => ({ q with columns_ := cols }, none, -1)
    | (q, some stmt) =>
      match answer stmt with
      | .error _ => ({ q with columns_ := cols }, some stmt, -1)
      | .ok n => ({ q with columns_ := cols }, some stmt, n)

/-! ### Rendering -/

/-- The structure is recursive, so this is no definitional equality. -/
@[simp] lemma with_toQuery (q : SelectQuery) : { q with toQuery := q.toQuery } = q := by
  obtain ⟨q, w, joins, limit, orderBy, groupBy, columns, tableName, union⟩ := q
  rfl

lemma generateSql_eq (q : SelectQuery) : q.generateSql = q.coreSql ++ unionSql q.union_ := by
  obtain ⟨q, w, joins, limit, orderBy, groupBy, columns, tableName, union⟩ := q
  simp only [generateSql]

@[simp] lemma unionSql_some (u : UnionOperator) :
    unionSql (some u) =
      lit " UNION " ++ (if u.type = .all then lit "ALL " else []) ++ u.query.toSql := by
  obtain ⟨query, type⟩ := u
  simp only [unionSql, unionOperatorSql, toSql]

/-- The rendering reads nothing of the base class. -/
@[simp] lemma generateSql_base (q : SelectQuery) (base : Query) :
    generateSql { q with toQuery := base } = q.generateSql := by
  rw [generateSql_eq, generateSql_eq]
  rfl

lemma generateSql_ne_empty (q : SelectQuery) : q.generateSql.render ≠ "" := by
  rw [generateSql_eq, coreSql]
  simp only [List.append_assoc]
  exact append_ne_empty (by simp)

lemma toSql_ne_empty (q : SelectQuery) : q.toSql.render ≠ "" := by
  rw [toSql]
  split
  · exact q.generateSql_ne_empty
  · next h => simpa using h

lemma toSql_of_memo {q : SelectQuery} (h : q.sql_.render ≠ "") : q.toSql = q.sql_ := by
  simp [toSql, h]

lemma toSql_of_empty {q : SelectQuery} (h : q.sql_.render = "") : q.toSql = q.generateSql := by
  simp [toSql, h]

lemma toSql_eq_text (q : SelectQuery) : q.toSql = q.cache.text q.generateSql := by
  simp only [toSql, Query.cache, Prepared.text]
  split <;> rfl

lemma cache_memoise (q : SelectQuery) : q.memoise.cache = q.cache.render q.generateSql := by
  have htext : (Query.cache { q.toQuery with sql_ := q.toSql }).memo = some q.toSql := by
    simp [Query.cache, q.toSql_ne_empty]
  simp only [Prepared.render, ← q.toSql_eq_text, ← htext]
  rfl

/-- Placeholders come from the joins and the where clause. -/
lemma placeholders_coreSql (q : SelectQuery) :
    q.coreSql.placeholders =
      SqlText.placeholders (q.join_.flatMap JoinClause.toSql) ++
        if q.where_.empty then [] else q.where_.toSql.placeholders := by
  simp [coreSql, apply_ite SqlText.placeholders]

/-! ### Preparing -/

/-- A `prepare` that throws nothing has rendered the query and built a stale statement again. -/
lemma prepare_ok {q : SelectQuery} {d : Driver} (h : (q.prepare d).2 = .ok ()) :
    (q.prepare d).1 =
      { q with
        toQuery :=
          if q.cache.stale then
            { q.memoise.toQuery with stmt_ := some (q.statementFor q.toSql), dirty_ := false }
          else q.memoise.toQuery } := by
  have hbase := Query.prepare_ok (show (q.memoise.toQuery.prepare d q.toSql).2 = .ok () from h)
  simp only [prepare, hbase]
  rfl

lemma prepare_driver_ok (q : SelectQuery) : (q.prepare .ok).2 = .ok () :=
  Query.prepare_driver_ok q.memoise.toQuery q.toSql

/-- `prepare` renders the query and brings its statement up to date. -/
lemma cache_prepare (q : SelectQuery) :
    (q.prepare .ok).1.cache = q.cache.refresh q.generateSql q.statementFor := by
  rw [prepare_ok q.prepare_driver_ok]
  rw [Prepared.refresh]
  split
  · have htext : (Query.cache { q.toQuery with sql_ := q.toSql }).memo = some q.toSql := by
      simp [Query.cache, q.toSql_ne_empty]
    rw [← q.toSql_eq_text, ← htext]
    rfl
  · exact q.cache_memoise

/-- `prepare` on a select query is `prepare` of its base on the rendered text. -/
lemma prepare_spec (q : SelectQuery) (d : Driver) :
    ∃ base, q.prepare d = ({ q with toQuery := base }, (q.prepare d).2) ∧
      Query.Prepares q.memoise.toQuery d q.toSql (base, (q.prepare d).2) :=
  ⟨_, rfl, Query.prepare_spec ..⟩

/-- A prepared query has nothing left to prepare. -/
lemma prepare_prepare {q : SelectQuery} {d : Driver} (h : (q.prepare d).2 = .ok ()) (d' : Driver) :
    (q.prepare d).1.prepare d' = ((q.prepare d).1, .ok ()) := by
  obtain ⟨base, heq, hbase⟩ := q.prepare_spec d
  rw [h] at heq hbase
  rw [heq]
  have hkept : base.cache.stale = false ∧ base.sql_ = q.toSql := by
    generalize hr : (base, Except.ok ()) = r at hbase
    cases hbase with
    | kept hstale => cases hr; exact ⟨hstale, rfl⟩
    | refused | unbound => cases hr
    | loaded => cases hr; exact ⟨rfl, rfl⟩
  have htext : ({ q with toQuery := base } : SelectQuery).toSql = base.sql_ :=
    toSql_of_memo (hkept.2 ▸ q.toSql_ne_empty)
  have hmemo : ({ q with toQuery := base } : SelectQuery).memoise = { q with toQuery := base } := by
    simp only [memoise, htext]
  rw [prepare]
  rw [hmemo]
  have hspec := Query.prepare_spec base d' ({ q with toQuery := base } : SelectQuery).toSql
  generalize base.prepare d' _ = r at hspec ⊢
  cases hspec with
  | kept => rfl
  | refused e hstale | unbound e stmt hstale | loaded hstale => simp [hkept.1] at hstale

/-! ### Executing -/

lemma execute_eq (q : SelectQuery) (d : Driver) :
    q.execute d =
      ((q.prepare d).1, if (q.prepare d).2 = .ok () then (q.prepare d).1.stmt_ else none) := by
  rw [execute]
  generalize q.prepare d = r
  obtain ⟨q', out⟩ := r
  cases out <;> rfl

/-- A query that is not stale runs the statement it has. -/
lemma execute_kept {q : SelectQuery} (h : q.cache.stale = false) (d : Driver) :
    (q.execute d).2 = q.stmt_ := by
  have hok : (q.prepare d).2 = .ok () :=
    (Query.prepare_ok_iff q.memoise.toQuery d q.toSql).mpr fun hstale => by
      rw [show q.memoise.toQuery.cache.stale = q.cache.stale from rfl, h] at hstale
      cases hstale
  rw [execute_eq, if_pos hok, prepare_ok hok, h]
  rfl

/-- A stale query runs the statement for its text and parameters, if the driver accepts them. -/
lemma execute_stale {q : SelectQuery} (h : q.cache.stale = true) (d : Driver) (s : Statement) :
    (q.execute d).2 = some s ↔
      d.Accepts q.toSql.render q.params_ q.namedParams_ ∧ s = q.statementFor q.toSql := by
  have hiff : (q.prepare d).2 = .ok () ↔ d.Accepts q.toSql.render q.params_ q.namedParams_ :=
    (Query.prepare_ok_iff q.memoise.toQuery d q.toSql).trans ⟨fun hd => hd h, fun hd _ => hd⟩
  rw [execute_eq]
  by_cases hok : (q.prepare d).2 = .ok ()
  · rw [if_pos hok, prepare_ok hok, h]
    simp [← hiff, hok, eq_comm]
  · simp [hok, ← hiff]

end SelectQuery

end CodaDb
