import CodaDb.Lib.Machine
import CodaDb.Query.Modify

/-!
# Batches of inserts

One insert query is given row after row and executed after each. An execution ends with a `reset`
that leaves no parameter behind, so each row is inserted by a statement of its own.
-/

namespace CodaDb

open SqlText

/-- The two ways to give the values of a row: one after the other, or as a vector. -/
inductive Giving where
  | each | vector
deriving DecidableEq, Repr

/-- A row for a list of `n` columns. -/
structure Row (n : Nat) where
  how : Giving
  values : List SqlValue
  nonempty : values ≠ []
  fits : values.length ≤ n

namespace InsertQuery

/-- `value(v)` for each value, or `values(vector)` -/
def give (q : InsertQuery) : Giving → List SqlValue → InsertQuery
  | .each, row => row.foldl value q
  | .vector, row => q.values row

end InsertQuery

/-- An insert query that is given rows and executed after each. An execution that comes to an end
reports the statement it ran. -/
def batchMachine (n : Nat) (e : Engine) : Machine InsertQuery (Row n) (Option Statement) where
  step q row :=
    match (q.give row.how row.values).execute .ok e with
    | none => (q.give row.how row.values, [])
    | some (q', stmt, _) => (q', [stmt])

namespace InsertQuery

/-- A query into a table, with its columns and without values. -/
structure Ready (session : Session) (table : String) (columns : List String)
    (q : InsertQuery) : Prop where
  session : q.session_ = some session
  table : q.tableName_ = table
  columns : q.columns_ = columns
  params : q.params_ = []
  named : q.namedParams_ = ∅

/-- The end of the text, if it is rendered. -/
def returning (session : Session) (table : String) : Option SqlText :=
  if session.impl_.hasReturning then
    (session.getSchema table).bind fun schema => returningSql schema.primaryKeys
  else some []

/-- The text of an insert, with what it returns. -/
def insertText (session : Session) (table : String) (columns : List String)
    (returning : SqlText) : SqlText :=
  lit "INSERT INTO " ++ lit table ++ lit "(" ++ lit (Helper.joinCsv columns) ++ lit ") VALUES(" ++
    session.joinParams columns ++ lit ")" ++ returning ++ lit ";"

/-! ### Giving values -/

lemma value_eq (q : InsertQuery) (v : SqlValue) :
    q.value v = setModified { q with params_ := q.params_ ++ [v] } := by
  simp only [value, Query.bindNext_eq]
  rfl

/-- Values given one by one are appended. -/
lemma foldl_value (q : InsertQuery) {row : List SqlValue} (hrow : row ≠ []) :
    row.foldl value q = setModified { q with params_ := q.params_ ++ row } := by
  induction row generalizing q with
  | nil => exact absurd rfl hrow
  | cons v vs ih =>
    rw [List.foldl_cons, value_eq]
    by_cases hvs : vs = []
    · simp [hvs]
    · rw [ih _ hvs]
      simp [setModified, Query.setModified]

/-- Either way a query without values gets the row. -/
lemma give_eq {q : InsertQuery} (hq : q.params_ = []) (how : Giving) {row : List SqlValue}
    (hrow : row ≠ []) : q.give how row = setModified { q with params_ := row } := by
  cases how with
  | each => rw [give, foldl_value q hrow, hq, List.nil_append]
  | vector =>
    have hbind := q.toQuery.bindAll_eq row (Nat.zero_le q.params_.length)
    rw [Nat.zero_add] at hbind
    simp [give, values, bindAll, hbind, hrow, hq, setModified, Query.setModified]

/-! ### The text -/

/-- With one key at most the list behind `RETURNING` comes to an end. -/
lemma returning_isSome {session : Session} {table : String} (htable : table ≠ "")
    (hkeys : ∀ schema, session.getSchema table = some schema → schema.primaryKeys.length ≤ 1) :
    ∃ text, returning session table = some text ∧ text.placeholders = [] := by
  rw [returning]
  by_cases hreturning : session.impl_.hasReturning
  case neg => exact ⟨[], if_neg hreturning, rfl⟩
  rw [if_pos hreturning]
  have hschema : ∃ schema, session.getSchema table = some schema := by
    rw [Session.getSchema]
    cases session.schemaCache_.lookup table <;> simp [htable]
  obtain ⟨schema, hschema⟩ := hschema
  have hlength := hkeys schema hschema
  rw [hschema, Option.bind_some]
  cases hlist : schema.primaryKeys with
  | nil => exact ⟨[], rfl, rfl⟩
  | cons key keys =>
    obtain rfl : keys = [] := by simpa [hlist] using hlength
    exact ⟨_, rfl, rfl⟩

/-- With more keys the list behind `RETURNING` does not come to an end. -/
lemma returning_eq_none {session : Session} {table : String}
    (hreturning : session.impl_.hasReturning = true) {schema : TableSchema}
    (hschema : session.getSchema table = some schema) (hkeys : 1 < schema.primaryKeys.length) :
    returning session table = none := by
  rw [returning, if_pos hreturning, hschema, Option.bind_some]
  match hlist : schema.primaryKeys with
  | [] | [_] => simp [hlist] at hkeys
  | _ :: _ :: _ => rfl

variable {session : Session} {table : String} {columns : List String} {q : InsertQuery}

lemma generateSql_eq (hsession : q.session_ = some session) :
    q.generateSql =
      (returning session q.tableName_).map (insertText session q.tableName_ q.columns_) := by
  simp only [generateSql, hsession, returning, Option.bind_eq_bind, Option.bind_some,
    Option.map_eq_bind]
  split
  · rw [Option.bind_assoc]
    rfl
  · rfl

/-- The text lists the columns against the numbers from 1. -/
lemma insertText_render (session : Session) (table : String) (columns : List String)
    (text : SqlText) :
    (insertText session table columns text).render =
      "INSERT INTO " ++ table ++ "(" ++ ",".intercalate columns ++ ") VALUES(" ++
        ",".intercalate ((List.range' 1 columns.length).map session.impl_.bindParamText) ++ ")" ++
        text.render ++ ";" := by
  have hentries : columns.zipWith (session.paramText "") (List.range' 1 columns.length)
      = (List.range' 1 columns.length).map session.impl_.bindParamText := by
    apply List.ext_getElem
    · simp
    · intro i hi hi'
      simp [Session.paramText]
  simp [insertText, Session.joinParams_render, Helper.joinCsv_eq, hentries, String.append_assoc]

lemma insertText_placeholders (session : Session) (table : String) (columns : List String)
    {text : SqlText} (htext : text.placeholders = []) :
    (insertText session table columns text).placeholders = List.range' 1 columns.length := by
  simp [insertText, htext]

/-! ### Executing -/

/-- A row is inserted by a statement for the text and the row, and the query is ready again. -/
lemma Ready.execute (hq : Ready session table columns q) (htable : table ≠ "") {sql : SqlText}
    (hsql : q.generateSql = some sql) (how : Giving) {row : List SqlValue} (hrow : row ≠ [])
    (e : Engine) :
    ∃ q' out, (q.give how row).execute .ok e = some (q', some (.loaded sql row ∅), out) ∧
      Ready session table columns q' := by
  have hvalid : isValid (setModified { q with params_ := row }) = true := by
    simp [isValid, setModified, Query.setModified, hq.session, hq.table, htable]
  have htoSql : toSql (setModified { q with params_ := row }) = some sql := by
    rw [← hsql]
    rfl
  have hstale : (Query.setModified { q.toQuery with params_ := row }).cache.stale = true :=
    Query.stale_of_dirty rfl
  have hmodify := Query.modify_stale hstale (Driver.ok_accepts sql.render _ _) e
  have hstatement : (Query.setModified { q.toQuery with params_ := row }).statementFor sql
      = .loaded sql row ∅ := by
    simp [Query.statementFor, Query.setModified, hq.named]
  rw [hstatement] at hmodify
  rw [give_eq hq.params how hrow, InsertQuery.execute, if_pos hvalid, htoSql]
  simp only [setModified, hmodify, Option.bind_eq_bind, Option.bind_some]
  exact ⟨_, _, rfl, hq.session, hq.table, hq.columns, rfl, rfl⟩

/-- Every row of a batch is inserted by a statement that lists the columns against the numbers from
1 and to which exactly the values of the row are bound. -/
theorem batch_statements (hq : Ready session table columns q) (htable : table ≠ "")
    (hkeys : ∀ schema, session.getSchema table = some schema → schema.primaryKeys.length ≤ 1)
    (e : Engine) (rows : List (Row columns.length)) :
    ∃ sql returning, sql.render = "INSERT INTO " ++ table ++ "(" ++ ",".intercalate columns ++
        ") VALUES(" ++
        ",".intercalate ((List.range' 1 columns.length).map session.impl_.bindParamText) ++ ")" ++
        returning ++ ";" ∧
      sql.placeholders = List.range' 1 columns.length ∧
      ((batchMachine columns.length e).run q rows).2 =
        rows.map fun row => some (.loaded sql row.values ∅) := by
  obtain ⟨text, htext, hplaceholders⟩ := returning_isSome htable hkeys
  have hgenerate : ∀ {q}, Ready session table columns q →
      q.generateSql = some (insertText session table columns text) := by
    intro q hq
    rw [generateSql_eq hq.session, hq.table, hq.columns, htext, Option.map_some]
  refine ⟨_, text.render, insertText_render session table columns text,
    insertText_placeholders session table columns hplaceholders, ?_⟩
  refine (batchMachine columns.length e).run_map (Ready session table columns) _ ?_ ?_ hq rows
  · intro q row hq
    obtain ⟨q', out, hexecute, hready⟩ :=
      hq.execute htable (hgenerate hq) row.how row.nonempty e
    simp only [batchMachine, hexecute]
    exact hready
  · intro q row hq
    obtain ⟨q', out, hexecute, hready⟩ :=
      hq.execute htable (hgenerate hq) row.how row.nonempty e
    simp only [batchMachine, hexecute]

/-- A back end that returns the key of a new row, with the definition of a table. -/
def users : Session :=
  { impl_ := .postgres
    schemaCache_ := [("users", ⟨"users", [⟨"id", true, true⟩, ⟨"name", false, false⟩,
      ⟨"age", false, false⟩]⟩)] }

/-- The theorem at two rows given in the two ways. -/
theorem batch_statements_users :
    ∃ sql returning, sql.render = "INSERT INTO users(name,age) VALUES($1,$2)" ++ returning ++ ";" ∧
      sql.placeholders = [1, 2] ∧
      ((batchMachine 2 { execute := fun _ => some (1, 1) }).run
        (ofSession users "users" ["name", "age"])
        [⟨.each, [.string "bob", .string "20"], by decide, by decide⟩,
          ⟨.vector, [.string "alice"], by decide, by decide⟩]).2 =
        [some (.loaded sql [.string "bob", .string "20"] ∅),
          some (.loaded sql [.string "alice"] ∅)] := by
  have hready : Ready users "users" ["name", "age"] (ofSession users "users" ["name", "age"]) :=
    ⟨rfl, rfl, rfl, rfl, rfl⟩
  refine batch_statements hready (by decide) ?_ { execute := fun _ => some (1, 1) }
    [⟨.each, [.string "bob", .string "20"], by decide, by decide⟩,
      ⟨.vector, [.string "alice"], by decide, by decide⟩]
  intro schema hschema
  obtain rfl := Option.some.inj hschema
  decide

end InsertQuery

end CodaDb
