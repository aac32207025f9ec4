import CodaDb.Query.Batch
import CodaDb.Query.SelectCount
import CodaDb.Query.Update

/-!
# `record::save`

A record updates its row if a query counts it, and inserts a row otherwise. The queries are built
from one map of values, by functions that each select from it. What the statement that runs is bound
to, and when a row that exists is updated.
-/

namespace CodaDb

open SqlText

/-- `schema::primary_key`: the first key that the database increments. -/
def TableSchema.primaryKey (s : TableSchema) : Except DbException String :=
  match s.columns_.find? fun c => c.pk && c.autoincrement with
  | some c => .ok c.name
  | none => .error (.noPrimaryKey "no primary key found for schema")

/-- `sql_number(long long)` -/
def SqlNumber.ofLlong (value : Int) : SqlNumber :=
  .integral .llong ⟨value.bmod (2 ^ 64), by
    have hle := Int.le_bmod (x := value) (m := 2 ^ 64) (by decide)
    have hlt := Int.bmod_lt (x := value) (m := 2 ^ 64) (by decide)
    simp only [IntKind.min, IntKind.max]
    omega⟩

/-- A record of a table whose schema was initialized. -/
structure Record where
  schema_ : Schema
  values_ : AList fun _ : String => SqlValue

/-- The answers to the calls that `save` makes: of the driver and the database to the query that
counts, and to the statement that updates or inserts. -/
structure Answers where
  select : Driver := {}
  count : Statement → Except DbException Int
  modify : Driver := {}
  engine : Engine

/-- What `save` leaves: the record, the statement that was run, and its result or an exception. -/
structure Saved where
  record : Record
  statement : Option Statement
  result : Except DbException Bool

namespace Record

def has (r : Record) (name : String) : Bool :=
  name ≠ "" && !r.values_.entries.isEmpty && (r.values_.lookup name).isSome

/-- `get(const std::string &)` -/
def get (r : Record) (name : String) : SqlValue :=
  if r.has name then (r.values_.lookup name).getD .null else .null

/-- `get(const std::vector<std::string> &)` -/
def getAll (r : Record) (columns : List String) : List SqlValue :=
  (columns.filter r.has).map r.get

def set (r : Record) (name : String) (value : SqlValue) : Record :=
  { r with values_ := r.values_.insert name value }

def availableColumns (r : Record) («exists» : Bool) (pk : String) : List String :=
  r.schema_.columnNames.filter fun val => r.has val && («exists» || val ≠ pk)

/-- The query of `exists`, an object at `self`. -/
def existsQuery (self : Addr) (r : Record) (pk : String) : SelectQuery :=
  (SelectQuery.ofSchema self r.schema_).append .reset (Op.equals (.string pk) (r.get pk))

def «exists» (r : Record) (answers : Answers) : Except DbException Bool :=
  match r.schema_.primaryKey with
  | .error e => .error e
  | .ok pk =>
    if r.has pk then
      .ok (0 < ((r.existsQuery 0 pk).count answers.select answers.count).2.2)
    else .ok false

/-- The query of `save` for a row that exists, an object at `self`. -/
def updateQuery (self : Addr) (r : Record) (pk : String) : UpdateQuery :=
  ((UpdateQuery.ofSchema self r.schema_ (r.availableColumns true pk)).bindAll
    (r.getAll (r.availableColumns true pk))).append .reset (Op.equals (.string pk) (r.get pk))

/-- The query of `save` for a new row. -/
def insertQuery (r : Record) (pk : String) : InsertQuery :=
  (InsertQuery.ofSchema r.schema_ (r.availableColumns false pk)).bindAll
    (r.getAll (r.availableColumns false pk))

/-- `save`; `none` if the text of the query does not come to an end. -/
def save (r : Record) (answers : Answers) : Option Saved :=
  match r.exists answers, r.schema_.primaryKey with
  | .error e, _ | .ok _, .error e => some { record := r, statement := none, result := .error e }
  | .ok true, .ok pk =>
    ((r.updateQuery 0 pk).execute answers.modify answers.engine).map fun (_, stmt, changes) =>
      { record := r, statement := stmt, result := changes.map (· != 0) }
  | .ok false, .ok pk =>
    ((r.insertQuery pk).execute answers.modify answers.engine).map fun (query, stmt, changes) =>
      let result := changes.map (· != 0)
      { record :=
          match result with
          | .ok true => r.set pk (.number (.ofLlong query.lastId_))
          | .ok false | .error _ => r
        statement := stmt
        result := result }

/-- The statement updates all the columns that the record has where the key is its key. Its
placeholders are numbered in order and bound to the values of the record. -/
def Updates (r : Record) (pk : String) (stmt : Statement) : Prop :=
  ∃ columns text, columns = r.schema_.columnNames.filter r.has ∧ stmt.sql = some text ∧
    text.render = "UPDATE " ++ r.schema_.tableName_ ++ " SET " ++
      ",".intercalate (columns.zipWith
        (fun c n => c ++ "=" ++ r.schema_.session_.impl_.bindParamText n)
        (List.range' 1 columns.length)) ++
      " WHERE " ++ pk ++ " = " ++
      r.schema_.session_.impl_.bindParamText (columns.length + 1) ++ ";" ∧
    text.placeholders = List.range' 1 (columns.length + 1) ∧
    (∀ i c, columns[i]? = some c → stmt.bound (i + 1) = r.values_.lookup c) ∧
    stmt.bound (columns.length + 1) = r.values_.lookup pk

/-- The statement inserts the columns that the record has, without the key. -/
def Inserts (r : Record) (pk : String) (stmt : Statement) : Prop :=
  ∃ columns text returning,
    columns = r.schema_.columnNames.filter (fun c => r.has c && c ≠ pk) ∧ stmt.sql = some text ∧
    text.render = "INSERT INTO " ++ r.schema_.tableName_ ++ "(" ++ ",".intercalate columns ++
      ") VALUES(" ++ ",".intercalate
        ((List.range' 1 columns.length).map r.schema_.session_.impl_.bindParamText) ++ ")" ++
      returning ++ ";" ∧
    text.placeholders = List.range' 1 columns.length ∧
    ∀ i c, columns[i]? = some c → stmt.bound (i + 1) = r.values_.lookup c

/-- `save` comes to an end and runs the statement it should, unless an exception comes first. -/
def Saves (r : Record) (pk : String) (answers : Answers) : Prop :=
  ∃ saved, r.save answers = some saved ∧
    (saved.statement = none → ∃ e, saved.result = .error e) ∧
    ∀ stmt, saved.statement = some stmt →
      (r.exists answers = .ok true → r.Updates pk stmt) ∧
      (r.exists answers = .ok false → r.Inserts pk stmt)

/-- The statement of `exists`. -/
def existsStatement (r : Record) (pk : String) : Statement :=
  (r.existsQuery 0 pk).counting.statementFor (r.existsQuery 0 pk).counting.toSql

/-- The driver takes the text and the value of the query of `exists`. -/
def Asked (r : Record) (pk : String) (answers : Answers) : Prop :=
  answers.select.Accepts (r.existsQuery 0 pk).counting.toSql.render
    (r.existsQuery 0 pk).params_ (r.existsQuery 0 pk).namedParams_

/-- The record has a key, and a row is counted for it without an exception. -/
def Counted (r : Record) (pk : String) (answers : Answers) : Prop :=
  r.has pk = true ∧ r.Asked pk answers ∧ ∃ n, answers.count (r.existsStatement pk) = .ok n ∧ 0 < n

/-- The back end returns nothing from an insert, or one key at most. -/
def Returnable (r : Record) : Prop :=
  r.schema_.session_.impl_.hasReturning = true → ∀ schema,
    r.schema_.session_.getSchema r.schema_.tableName_ = some schema →
    schema.primaryKeys.length ≤ 1

/-! ### The values -/

variable {r : Record} {pk : String}

lemma lookup_of_has {c : String} (h : r.has c = true) : r.values_.lookup c = some (r.get c) := by
  have hsome : (r.values_.lookup c).isSome = true := by
    simp only [has, Bool.and_eq_true] at h
    exact h.2
  obtain ⟨v, hv⟩ := Option.isSome_iff_exists.mp hsome
  simp [get, h, hv]

lemma getAll_eq {columns : List String} (h : ∀ c ∈ columns, r.has c = true) :
    r.getAll columns = columns.map r.get := by
  rw [getAll, List.filter_eq_self.mpr h]

/-- The values of columns that the record has are found at the places of the columns. -/
lemma getElem_getAll {columns : List String} (h : ∀ c ∈ columns, r.has c = true) {i : Nat}
    {c : String} (hc : columns[i]? = some c) :
    (r.getAll columns)[i]? = r.values_.lookup c := by
  rw [getAll_eq h, List.getElem?_map, hc, lookup_of_has (h c (List.mem_of_getElem? hc))]
  rfl

lemma length_getAll {columns : List String} (h : ∀ c ∈ columns, r.has c = true) :
    (r.getAll columns).length = columns.length := by
  rw [getAll_eq h, List.length_map]

lemma availableColumns_has {update : Bool} {c : String}
    (hc : c ∈ r.availableColumns update pk) : r.has c = true := by
  simp only [availableColumns, List.mem_filter, Bool.and_eq_true] at hc
  exact hc.2.1

lemma availableColumns_true (r : Record) (pk : String) :
    r.availableColumns true pk = r.schema_.columnNames.filter r.has := by
  simp [availableColumns]

lemma availableColumns_false (r : Record) (pk : String) :
    r.availableColumns false pk =
      r.schema_.columnNames.filter fun c => r.has c && c ≠ pk := by
  simp [availableColumns]

/-- The primary key is one of the columns. -/
lemma mem_of_primaryKey (hpk : r.schema_.primaryKey = .ok pk) : pk ∈ r.schema_.columnNames := by
  rw [TableSchema.primaryKey] at hpk
  split at hpk
  · next c hc =>
    obtain rfl := Except.ok.inj hpk
    exact List.mem_map_of_mem (List.mem_of_find?_eq_some hc)
  · cases hpk

/-! ### The update -/

/-- `op::equals(pk, get(pk))` -/
def keyEquals (r : Record) (pk : String) (hkey : Helper.isNamed (r.get pk) = false) :
    UnnamedOperator :=
  ⟨Op.equals (.string pk) (r.get pk), ⟨nofun, nofun⟩, hkey⟩

lemma updateQuery_eq (self : Addr) (hkey : Helper.isNamed (r.get pk) = false) :
    r.updateQuery self pk =
      UpdateQuery.whereAt
        ((UpdateQuery.ofSchema self r.schema_ (r.availableColumns true pk)).bindAll
          (r.getAll (r.availableColumns true pk)))
        true ((r.availableColumns true pk).length + 1) (r.keyEquals pk hkey) := by
  have hquery : r.updateQuery self pk = UpdateQuery.append .reset
      ((UpdateQuery.ofSchema self r.schema_ (r.availableColumns true pk)).bindAll
        (r.getAll (r.availableColumns true pk))) (r.keyEquals pk hkey).1 := rfl
  have hbound : ((UpdateQuery.ofSchema self r.schema_ (r.availableColumns true pk)).bindAll
      (r.getAll (r.availableColumns true pk))).params_ = r.getAll (r.availableColumns true pk) :=
    Query.bindAll_params rfl _
  rw [hquery, UpdateQuery.append_reset, hbound, length_getAll fun c hc => availableColumns_has hc]

lemma setUp_updateQuery (self : Addr) (hkey : Helper.isNamed (r.get pk) = false) :
    UpdateQuery.SetUp
      (UpdateQuery.ofSchema self r.schema_ (r.availableColumns true pk))
      (r.availableColumns true pk) (r.keyEquals pk hkey)
      ((r.availableColumns true pk).length + 1)
      (r.getAll (r.availableColumns true pk) ++ [r.get pk]) (r.updateQuery self pk) := by
  rw [updateQuery_eq self hkey]
  refine ⟨rfl, rfl, (Query.bindAll_fields ..).1, rfl, rfl, rfl, ?_⟩
  simp only [UpdateQuery.whereAt, if_true, UpdateQuery.bindAll]
  exact congrArg (· ++ [r.get pk]) (Query.bindAll_params rfl _)

lemma updateQuery_session (r : Record) (pk : String) :
    (r.updateQuery 0 pk).session_ = some r.schema_.session_ := by
  simp only [updateQuery, UpdateQuery.append, WhereBuilder.append_eq, UpdateQuery.bindAll,
    UpdateQuery.setModified, Query.setModified, WhereBuilder.boundBy]
  split <;> exact (Query.bindAll_fields ..).1

lemma updateQuery_reset (r : Record) (pk : String) :
    (r.updateQuery 0 pk).dirty_ = true ∧ (r.updateQuery 0 pk).sql_ = [] ∧
      (r.updateQuery 0 pk).tableName_ = r.schema_.tableName_ := by
  simp only [updateQuery, UpdateQuery.append, WhereBuilder.append_eq]
  exact ⟨rfl, rfl, rfl⟩

lemma updateQuery_params (r : Record) (pk : String) :
    (r.updateQuery 0 pk).params_ = r.getAll (r.availableColumns true pk) ++
      (Op.equals (.string pk) (r.get pk)).boundValues := by
  have hbound : (r.updateQuery 0 pk).params_ =
      ((UpdateQuery.ofSchema 0 r.schema_ (r.availableColumns true pk)).bindAll
        (r.getAll (r.availableColumns true pk))).params_ ++
      (Op.equals (.string pk) (r.get pk)).boundValues := by
    simp only [updateQuery, UpdateQuery.append, WhereBuilder.append_eq, UpdateQuery.setModified,
      Query.setModified, WhereBuilder.boundBy_params]
  rw [hbound]
  exact congrArg (· ++ _) (Query.bindAll_params rfl _)

/-- The text of the update of a row. -/
lemma toSql_updateQuery (r : Record) (pk : String) :
    ∃ sql, (r.updateQuery 0 pk).toSql = some sql := by
  rw [UpdateQuery.toSql, Query.toSqlWith, (r.updateQuery_reset pk).2.1, if_pos (by rfl)]
  exact ⟨_, UpdateQuery.generateSql_eq (r.updateQuery_session pk)⟩

/-- The statement for the update lines up with the values of the record. -/
lemma updates_statementFor (hpk : r.schema_.primaryKey = .ok pk) (hhas : r.has pk = true)
    (hkey : Helper.isNamed (r.get pk) = false) {sql : SqlText}
    (hsql : (r.updateQuery 0 pk).toSql = some sql) :
    r.Updates pk ((r.updateQuery 0 pk).statementFor sql) := by
  have hset := setUp_updateQuery 0 hkey
  have hcolumns : r.availableColumns true pk ≠ [] := by
    apply List.ne_nil_of_mem (a := pk)
    rw [availableColumns_true]
    exact List.mem_filter.mpr ⟨mem_of_primaryKey hpk, hhas⟩
  have hall : ∀ c ∈ r.availableColumns true pk, r.has c = true := fun c => availableColumns_has
  have hlength := length_getAll hall
  obtain ⟨text, htext, hrender, hplaceholders⟩ := hset.toSql rfl
  obtain rfl := Option.some.inj (htext.symm.trans hsql)
  have hbound : ∀ i, ((r.updateQuery 0 pk).statementFor text).bound (i + 1) =
      (r.getAll (r.availableColumns true pk) ++ [r.get pk])[i]? := by
    intro i
    rw [← hset.params]
    rfl
  refine ⟨r.availableColumns true pk, text, availableColumns_true r pk, rfl, ?_, ?_, ?_, ?_⟩
  · rw [hrender hcolumns, hset.table, hset.impl]
    simp [keyEquals, Op.equals, OpType.typeValue, SqlValue.toString, UpdateQuery.ofSchema,
      UpdateQuery.ofSession, String.append_assoc]
  · rw [hplaceholders, List.range'_concat]
    simp [Nat.add_comm]
  · intro i c hc
    have hlt := (List.getElem?_eq_some_iff.mp hc).1
    rw [hbound, List.getElem?_append_left (by rwa [hlength])]
    exact getElem_getAll hall hc
  · rw [hbound, ← hlength, List.getElem?_concat_length, lookup_of_has hhas]

/-! ### The insert -/

/-- What an insert into the table of the record returns, if its text comes to an end. -/
def returning (r : Record) : Option SqlText :=
  InsertQuery.returning r.schema_.session_ r.schema_.tableName_

lemma toSql_insertQuery (r : Record) (pk : String) :
    (r.insertQuery pk).toSql = r.returning.map (InsertQuery.insertText r.schema_.session_
      r.schema_.tableName_ (r.availableColumns false pk)) := by
  have hmemo : (r.insertQuery pk).sql_ = [] := (Query.bindAll_fields ..).2.2.2 rfl
  rw [InsertQuery.toSql, Query.toSqlWith, hmemo, if_pos (by rfl)]
  exact InsertQuery.generateSql_eq (Query.bindAll_fields ..).1

lemma returning_isSome (htable : r.schema_.tableName_ ≠ "") (h : r.Returnable) :
    ∃ text, r.returning = some text ∧ text.placeholders = [] := by
  rw [returning]
  cases hreturning : r.schema_.session_.impl_.hasReturning with
  | false => exact ⟨[], by simp [InsertQuery.returning, hreturning], rfl⟩
  | true => exact InsertQuery.returning_isSome htable (h hreturning)

lemma returning_eq_none (h : ¬r.Returnable) : r.returning = none := by
  rw [Returnable] at h
  push Not at h
  obtain ⟨hreturning, schema, hschema, hkeys⟩ := h
  exact InsertQuery.returning_eq_none hreturning hschema hkeys

lemma isValid_insertQuery (htable : r.schema_.tableName_ ≠ "") :
    (r.insertQuery pk).isValid = true := by
  have hsession : (r.insertQuery pk).session_ = some r.schema_.session_ :=
    (Query.bindAll_fields ..).1
  have hname : (r.insertQuery pk).tableName_ = r.schema_.tableName_ := rfl
  simp [InsertQuery.isValid, hsession, hname, htable]

/-- The text of an insert comes to an end exactly if what it returns does. -/
lemma toSql_insertQuery_iff (htable : r.schema_.tableName_ ≠ "") :
    (∃ sql, (r.insertQuery pk).toSql = some sql) ↔ r.Returnable := by
  rw [toSql_insertQuery]
  constructor
  · rintro ⟨sql, hsql⟩
    by_contra h
    rw [returning_eq_none h] at hsql
    cases hsql
  · intro h
    obtain ⟨text, htext, -⟩ := returning_isSome htable h
    exact ⟨_, by rw [htext]; rfl⟩

/-- The statement for the insert lines up with the values of the record. -/
lemma inserts_statementFor (htable : r.schema_.tableName_ ≠ "") {sql : SqlText}
    (hsql : (r.insertQuery pk).toSql = some sql) :
    r.Inserts pk ((r.insertQuery pk).statementFor sql) := by
  obtain ⟨text, htext, hplaceholders⟩ :=
    returning_isSome htable ((toSql_insertQuery_iff htable).mp ⟨sql, hsql⟩)
  rw [toSql_insertQuery, htext] at hsql
  obtain rfl := Option.some.inj hsql
  refine ⟨r.availableColumns false pk, _, text.render, availableColumns_false r pk, rfl,
    InsertQuery.insertText_render .., InsertQuery.insertText_placeholders _ _ _ hplaceholders, ?_⟩
  intro i c hc
  have hparams : (r.insertQuery pk).params_ = r.getAll (r.availableColumns false pk) :=
    Query.bindAll_params rfl _
  have hbound : ∀ sql, ((r.insertQuery pk).statementFor sql).bound (i + 1) =
      (r.insertQuery pk).params_[i]? := fun sql => rfl
  rw [hbound, hparams]
  exact getElem_getAll (fun c => availableColumns_has) hc

/-! ### The existence -/

lemma stale_existsQuery (r : Record) (pk : String) :
    (r.existsQuery 0 pk).counting.cache.stale = true := by
  simp [SelectQuery.counting, existsQuery, SelectQuery.append, WhereBuilder.append_eq,
    SelectQuery.setModified, Query.setModified, Query.stale_eq]

/-- `exists` is true exactly if the row is counted; an exception is taken for its absence. -/
lemma exists_eq (hpk : r.schema_.primaryKey = .ok pk) (answers : Answers) :
    (r.Counted pk answers ∧ r.exists answers = .ok true) ∨
      (¬r.Counted pk answers ∧ r.exists answers = .ok false) := by
  have hexists : r.exists answers = .ok (r.has pk &&
      decide (0 < ((r.existsQuery 0 pk).count answers.select answers.count).2.2)) := by
    rw [Record.exists, hpk]
    cases hhas : r.has pk <;> simp [hhas]
  have hpositive := ((r.existsQuery 0 pk).count_eq answers.select answers.count).2.2
  have hran := SelectQuery.execute_stale (stale_existsQuery r pk) answers.select
  have hiff : r.Counted pk answers ↔ r.has pk = true ∧
      0 < ((r.existsQuery 0 pk).count answers.select answers.count).2.2 := by
    rw [hpositive]
    refine and_congr_right fun _ => ?_
    constructor
    · rintro ⟨hasked, n, hn, hpos⟩
      exact ⟨_, n, (hran _).mpr ⟨hasked, rfl⟩, hn, hpos⟩
    · rintro ⟨stmt, n, hstmt, hn, hpos⟩
      obtain ⟨hasked, rfl⟩ := (hran stmt).mp hstmt
      exact ⟨hasked, n, hn, hpos⟩
  rw [hexists]
  by_cases hcounted : r.Counted pk answers
  · have h := hiff.mp hcounted
    exact .inl ⟨hcounted, by simp [h.1, h.2]⟩
  · refine .inr ⟨hcounted, ?_⟩
    simpa [hiff] using hcounted

/-! ### Saving -/

/-- What a save that comes to this statement leaves: the statement was run, or the driver refused it
and an exception is reported. -/
def Comes (saved : Saved) (d : Driver) (q : Query) (sql : SqlText) : Prop :=
  d.Accepts sql.render q.params_ q.namedParams_ ∧ saved.statement = some (q.statementFor sql) ∨
    ¬d.Accepts sql.render q.params_ q.namedParams_ ∧ saved.statement = none ∧
      ∃ e, saved.result = .error e

lemma save_counted (hpk : r.schema_.primaryKey = .ok pk) (htable : r.schema_.tableName_ ≠ "")
    {answers : Answers} (hcounted : r.Counted pk answers) {sql : SqlText}
    (hsql : (r.updateQuery 0 pk).toSql = some sql) :
    ∃ saved, r.save answers = some saved ∧
      Comes saved answers.modify (r.updateQuery 0 pk).toQuery sql := by
  have hfound := (exists_eq hpk answers).resolve_right fun h => h.1 hcounted
  have hvalid : (r.updateQuery 0 pk).isValid = true := by
    simp [UpdateQuery.isValid, updateQuery_session, (r.updateQuery_reset pk).2.2, htable]
  have hstale : (r.updateQuery 0 pk).cache.stale = true :=
    Query.stale_of_dirty (r.updateQuery_reset pk).1
  obtain ⟨q, stmt, out, hexec, hcases⟩ :=
    UpdateQuery.execute_stale hvalid hstale hsql answers.modify answers.engine
  refine ⟨_, by simp only [save, hfound.2, hpk, hexec]; rfl, ?_⟩
  rcases hcases with ⟨hd, rfl⟩ | ⟨hd, rfl, e, rfl⟩
  · exact .inl ⟨hd, rfl⟩
  · exact .inr ⟨hd, rfl, e, rfl⟩

lemma save_uncounted (hpk : r.schema_.primaryKey = .ok pk) (htable : r.schema_.tableName_ ≠ "")
    {answers : Answers} (hcounted : ¬r.Counted pk answers) {sql : SqlText}
    (hsql : (r.insertQuery pk).toSql = some sql) :
    ∃ saved, r.save answers = some saved ∧
      Comes saved answers.modify (r.insertQuery pk).toQuery sql := by
  have hfound := (exists_eq hpk answers).resolve_left fun h => hcounted h.1
  have hfields := Query.bindAll_fields
    (InsertQuery.ofSchema r.schema_ (r.availableColumns false pk)).toQuery
    (r.getAll (r.availableColumns false pk)) 1
  have hstale : (r.insertQuery pk).cache.stale = true := Query.stale_of_none hfields.2.2.1
  obtain ⟨q, stmt, out, hexec, hcases⟩ := InsertQuery.execute_stale
    (isValid_insertQuery htable) hstale hsql answers.modify answers.engine
  refine ⟨_, by simp only [save, hfound.2, hpk, hexec]; rfl, ?_⟩
  rcases hcases with ⟨hd, rfl⟩ | ⟨hd, rfl, e, rfl⟩
  · exact .inl ⟨hd, rfl⟩
  · exact .inr ⟨hd, rfl, e, rfl⟩

/-- A new row whose insert has no text is not saved. -/
lemma save_eq_none (hpk : r.schema_.primaryKey = .ok pk) (htable : r.schema_.tableName_ ≠ "")
    {answers : Answers} (hcounted : ¬r.Counted pk answers) (h : ¬r.Returnable) :
    r.save answers = none := by
  have hfound := (exists_eq hpk answers).resolve_left fun h => hcounted h.1
  have hsql : (r.insertQuery pk).toSql = none := by
    rw [toSql_insertQuery, returning_eq_none h, Option.map_none]
  simp [save, hfound.2, hpk, InsertQuery.execute, isValid_insertQuery htable, hsql]

/-- What `save` runs lines up with the values of the record, and exactly a new row of a table with
several keys, on a back end that returns them, is never saved. -/
theorem saves_iff (hpk : r.schema_.primaryKey = .ok pk) (htable : r.schema_.tableName_ ≠ "")
    (hnumber : ∀ v, r.values_.lookup pk = some v → ∃ n, v = .number n) (answers : Answers) :
    r.Saves pk answers ↔ r.Counted pk answers ∨ r.Returnable := by
  have hfound := exists_eq hpk answers
  by_cases hcounted : r.Counted pk answers
  · have hkey : Helper.isNamed (r.get pk) = false := by
      obtain ⟨n, hn⟩ := hnumber _ (lookup_of_has hcounted.1)
      rw [hn]
      exact Helper.isNamed_number n
    have htrue := (hfound.resolve_right fun h => h.1 hcounted).2
    obtain ⟨sql, hsql⟩ := r.toSql_updateQuery pk
    obtain ⟨saved, hsaved, hcomes⟩ := save_counted hpk htable hcounted hsql
    refine iff_of_true ⟨saved, hsaved, ?_⟩ (.inl hcounted)
    rcases hcomes with ⟨-, hstmt⟩ | ⟨-, hstmt, hex⟩
    · rw [hstmt]
      refine ⟨nofun, fun s hs => ?_⟩
      obtain rfl := Option.some.inj hs
      exact ⟨fun _ => updates_statementFor hpk hcounted.1 hkey hsql,
        fun h => absurd (htrue.symm.trans h) nofun⟩
    · rw [hstmt]
      exact ⟨fun _ => hex, nofun⟩
  · have hfalse := (hfound.resolve_left fun h => hcounted h.1).2
    constructor
    · rintro ⟨saved, hsaved, -⟩
      by_contra h
      push Not at h
      cases hsaved.symm.trans (save_eq_none hpk htable hcounted h.2)
    · intro h
      obtain ⟨sql, hsql⟩ : ∃ sql, (r.insertQuery pk).toSql = some sql :=
        (toSql_insertQuery_iff htable).mpr (h.resolve_left hcounted)
      obtain ⟨saved, hsaved, hcomes⟩ := save_uncounted hpk htable hcounted hsql
      refine ⟨saved, hsaved, ?_⟩
      rcases hcomes with ⟨-, hstmt⟩ | ⟨-, hstmt, hex⟩
      · rw [hstmt]
        refine ⟨nofun, fun s hs => ?_⟩
        obtain rfl := Option.some.inj hs
        exact ⟨fun h => absurd (hfalse.symm.trans h) nofun,
          fun _ => inserts_statementFor htable hsql⟩
      · rw [hstmt]
        exact ⟨fun _ => hex, nofun⟩

/-- A record of a table with one key. -/
def user : Record where
  schema_ :=
    { tableName_ := "users"
      columns_ := [⟨"id", true, true⟩, ⟨"name", false, false⟩]
      session_ := InsertQuery.users }
  values_ := (AList.singleton "id" (.number (.ofLlong 5))).insert "name" (.string "bob")

/-- A database that counts one row and changes one. -/
def answering : Answers where
  count := fun _ => .ok 1
  engine := { execute := fun _ => some (1, 1) }

/-- The theorem at a record whose row exists. -/
theorem saves_user : user.Saves "id" answering := by
  refine (saves_iff rfl (by decide) ?_ answering).mpr (.inl ?_)
  · intro v hv
    exact ⟨_, (Option.some.inj hv).symm⟩
  · exact ⟨rfl, Driver.ok_accepts .., 1, rfl, by decide⟩

/-- A record of a table with two keys, on a back end that returns them. -/
def member : Record where
  schema_ :=
    { tableName_ := "members"
      columns_ := [⟨"id", true, true⟩, ⟨"team", true, false⟩]
      session_ :=
        { impl_ := .postgres
          schemaCache_ :=
            [("members", ⟨"members", [⟨"id", true, true⟩, ⟨"team", true, false⟩]⟩)] } }
  values_ := AList.singleton "team" (.string "red")

/-- A new row of a table with two keys is not saved. -/
theorem not_saves_member :
    member.schema_.columnNames.Nodup ∧ member.schema_.primaryKey = .ok "id" ∧
      member.values_.lookup "id" = none ∧ ¬member.Saves "id" answering := by
  refine ⟨by decide, rfl, rfl, ?_⟩
  rintro ⟨saved, hsaved, -⟩
  cases hsaved

end Record

end CodaDb
