import CodaDb.Lib.Table
import CodaDb.Record.Existing
import CodaDb.Record.Results

/-!
# Records over a table

What the functions of a record are for: a record finds its row in a table by its key, writes to it,
reads it or removes it. A database serves a table if the statements of the functions do to it what
they say. Then each function does what it is for.
-/

namespace CodaDb

open SqlText

abbrev SqlTable := Table String SqlValue

abbrev SqlRules := TableRules String SqlValue

/-! ### The purpose -/

namespace Record

section Purpose

variable (R : SqlRules) (pk : String) (t : SqlTable)

/-- The row of the record is in the table. -/
def inTable (r : Record) : Bool := r.has pk && !(R.select t [(pk, r.get pk)]).isEmpty

/-- Write the columns of the record to its row, or else insert a row and take its key. -/
def saveTo (r : Record) : Record × SqlTable × Bool :=
  if r.inTable R pk t then
    match R.update t (r.entries r.schema_.columnNames) [(pk, r.get pk)] with
    | some (t', n) => (r, t', n != 0)
    | none => (r, t, false)
  else
    match R.insert t pk (r.entries (r.schema_.columnNames.filter (· ≠ pk))) with
    | some (t', k) => (r.set pk (R.key k), t', true)
    | none => (r, t, false)

/-- The record with the columns of a row. -/
def read (r : Record) (row : String → SqlValue) : Record :=
  r.schema_.columnNames.foldl (fun r c => r.set c (row c)) r

/-- Read the first row with the value of the record in a column. -/
def refreshFrom (name : String) (r : Record) : Record × Bool :=
  if r.has name then
    match (R.select t [(name, r.get name)]).head? with
    | some row => (r.read row, true)
    | none => (r, false)
  else (r, false)

/-- Delete the rows with the key of the record. -/
def removeFrom (r : Record) : SqlTable × Bool :=
  if r.has pk then
    match R.delete t [(pk, r.get pk)] with
    | some (t', n) => (t', n != 0)
    | none => (t, false)
  else (t, false)

/-- The records of the rows that meet the equations. -/
def search (schema : Schema) (eqs : List (String × SqlValue)) : List Record :=
  (R.select t eqs).map (new schema).read

end Purpose

end Record

/-! ### Databases that serve a table -/

/-- The row of a result for a row of a table. -/
def ResultRow.of (columns : List String) (row : String → SqlValue) : ResultRow where
  columns := columns.map fun c => (c, .ok (row c))

/-- A result with these rows, which can be iterated. -/
structure ResultsetImpl.Of (result : ResultsetImpl ResultRow) (rows : List ResultRow) : Prop where
  outcome : result.outcome = { rows := rows }
  sound : result.Sound
  isValid : result.isValid = true

section Databases

variable {τ : Type*} (db : Backend τ) (table : τ → SqlTable)

/-- A statement that updates or deletes rows succeeds with a number of changes, or fails and leaves
the table. -/
def Backend.Changes (s : τ) (stmt : Statement) (answer : Option (SqlTable × Nat)) : Prop :=
  (db.modify s stmt).2.map Prod.fst = answer.map Prod.snd ∧
    table (db.modify s stmt).1 = (answer.map Prod.fst).getD (table s)

/-- A statement that inserts a row succeeds with a key, or fails and leaves the table. -/
def Backend.Inserted (s : τ) (stmt : Statement) (answer : Option (SqlTable × Nat)) : Prop :=
  (db.modify s stmt).2 = answer.map (fun r => (1, (r.2 : Int))) ∧
    table (db.modify s stmt).1 = (answer.map Prod.fst).getD (table s)

/-- The states of a database have a table of values `V`, which its driver binds and which are not
taken for names of parameters. Its statements do not fail but for the constraints of the table, and
those that say a command on the columns of the table do it. -/
structure Backend.Serves (R : SqlRules) (schema : Schema) (pk : String) (V : SqlValue → Prop) :
    Prop where
  unnamed : ∀ v, V v → Helper.Unnamed v
  accepts : ∀ text params, (∀ v ∈ params, V v) → db.driver.Accepts text params ∅
  reset : ∀ stmt, db.reset stmt = .ok ()
  key : ∀ n, R.key n = .number (.ofLlong n)
  count : ∀ s stmt k, stmt.Says schema.session_.impl_ schema.tableName_ (.count [(pk, k)]) →
    db.count s stmt = .ok (R.select (table s) [(pk, k)]).length
  select : ∀ s stmt eqs, (table s).rows.length < 2 ^ 31 →
    (eqs.map Prod.fst).Nodup → (∀ e ∈ eqs, e.1 ∈ schema.columnNames) →
    stmt.Says schema.session_.impl_ schema.tableName_ (.select schema.columnNames eqs "") →
    ∃ result, db.query s stmt = .ok result ∧
      result.Of ((R.select (table s) eqs).map (.of schema.columnNames))
  selectOne : ∀ s stmt eqs, (eqs.map Prod.fst).Nodup → (∀ e ∈ eqs, e.1 ∈ schema.columnNames) →
    stmt.Says schema.session_.impl_ schema.tableName_ (.select schema.columnNames eqs "1") →
    ∃ result, db.query s stmt = .ok result ∧
      result.Of (((R.select (table s) eqs).take 1).map (.of schema.columnNames))
  update : ∀ s stmt values k, (values.map Prod.fst).Sublist schema.columnNames → values ≠ [] →
    stmt.Says schema.session_.impl_ schema.tableName_ (.update values [(pk, k)]) →
    db.Changes table s stmt (R.update (table s) values [(pk, k)])
  insert : ∀ s stmt values returning, (values.map Prod.fst).Sublist schema.columnNames →
    InsertQuery.returning schema.session_ schema.tableName_ = some returning →
    stmt.Says schema.session_.impl_ schema.tableName_ (.insert values returning.render) →
    db.Inserted table s stmt (R.insert (table s) pk values)
  delete : ∀ s stmt k, stmt.Says schema.session_.impl_ schema.tableName_ (.delete [(pk, k)]) →
    db.Changes table s stmt (R.delete (table s) [(pk, k)])

end Databases

/-- A table of values of a kind, with fewer rows than an iterator can count. -/
structure TableHolds (V : SqlValue → Prop) (t : SqlTable) : Prop where
  values : ∀ row ∈ t.rows, ∀ c, V (row c)
  small : t.rows.length < 2 ^ 31

/-- The values that a table keeps are of the kind of those that are written to it, and it does not
get too long. -/
structure SqlRules.Closed (R : SqlRules) (V : SqlValue → Prop) : Prop where
  stored : ∀ c v, V v → V (R.stored c v)
  initial : ∀ c, V (R.initial c)
  key : ∀ n, V (R.key n)
  small : ∀ rows, R.allowed rows = true → rows.length < 2 ^ 31

/-! ### What the queries run -/

lemma WhereBuilder.boundBy_named (binder : Query) (o : SqlOperator) :
    (boundBy binder o).namedParams_ = binder.namedParams_ := by
  rw [boundBy]
  split <;> rfl

lemma WhereBuilder.boundBy_session (binder : Query) (o : SqlOperator) :
    (boundBy binder o).session_ = binder.session_ := by
  rw [boundBy]
  split <;> rfl

namespace SelectQuery

lemma append_named (how : Connective) (q : SelectQuery) (o : SqlOperator) :
    (q.append how o).namedParams_ = q.namedParams_ := by
  simp only [append, WhereBuilder.append_eq]
  cases how <;> exact WhereBuilder.boundBy_named ..

lemma whereEquals_named (q : SelectQuery) (es : List (String × SqlValue)) :
    (q.whereEquals es).namedParams_ = q.namedParams_ := by
  induction es generalizing q with
  | nil => rfl
  | cons e es ih =>
    have htail := ih (q.append .and (Op.equals (.string e.1) e.2))
    rw [append_named] at htail
    exact htail

/-- A query without a statement whose text and values are accepted asks the database. -/
lemma query_eq {τ : Type*} {q : SelectQuery} (hstmt : q.stmt_ = none) {db : Backend τ}
    (hd : db.driver.Accepts q.toSql.render q.params_ q.namedParams_) (s : τ) :
    q.query db s = some (db.query s (q.statementFor q.toSql)) := by
  have hrun := (execute_stale (Query.stale_of_none hstmt) db.driver _).mpr ⟨hd, rfl⟩
  rw [execute_eq] at hrun
  rw [query]
  generalize q.prepare db.driver = r at hrun ⊢
  obtain ⟨q', out⟩ := r
  cases out with
  | error e => simp at hrun
  | ok =>
    rw [if_pos rfl] at hrun
    have hran : q'.stmt_ = some (q.statementFor q.toSql) := hrun
    simp only [hran, Option.map_some]

end SelectQuery

/-- An accepted insert tells what the database answers. -/
lemma InsertQuery.execute_accepted {q : InsertQuery} (hvalid : q.isValid = true)
    (hstale : q.cache.stale = true) {sql : SqlText} (hsql : q.toSql = some sql) {d : Driver}
    (hd : d.Accepts sql.render q.params_ q.namedParams_) {e : Engine}
    (hreset : ∀ stmt, e.reset stmt = .ok ()) :
    ∃ q', q.execute d e = some (q', some (q.statementFor sql),
        .ok (changesOf (e.execute (q.statementFor sql)))) ∧
      q'.lastId_ = ((e.execute (q.statementFor sql)).map Prod.snd).getD 0 := by
  rw [execute, if_pos hvalid, hsql]
  simp only [Option.bind_eq_bind, Option.bind_some, Query.modify_stale hstale hd, hreset]
  exact ⟨_, rfl, rfl⟩

lemma UpdateQuery.execute_accepted {q : UpdateQuery} (hvalid : q.isValid = true)
    (hstale : q.cache.stale = true) {sql : SqlText} (hsql : q.toSql = some sql) {d : Driver}
    (hd : d.Accepts sql.render q.params_ q.namedParams_) {e : Engine}
    (hreset : ∀ stmt, e.reset stmt = .ok ()) :
    ∃ q', q.execute d e = some (q', some (q.statementFor sql),
      .ok (changesOf (e.execute (q.statementFor sql)))) := by
  rw [execute, if_pos hvalid, hsql]
  simp only [Option.bind_eq_bind, Option.bind_some, Query.modify_stale hstale hd, hreset]
  exact ⟨_, rfl⟩

lemma DeleteQuery.execute_accepted {q : DeleteQuery} (hvalid : q.isValid = true)
    (hstale : q.cache.stale = true) {sql : SqlText} (hsql : q.toSql = some sql) {d : Driver}
    (hd : d.Accepts sql.render q.params_ q.namedParams_) {e : Engine}
    (hreset : ∀ stmt, e.reset stmt = .ok ()) :
    ∃ q', q.execute d e = some (q', some (q.statementFor sql),
      .ok (changesOf (e.execute (q.statementFor sql)))) := by
  rw [execute, if_pos hvalid, hsql]
  simp only [Option.bind_eq_bind, Option.bind_some, Query.modify_stale hstale hd, hreset]
  exact ⟨_, rfl⟩

/-! ### Results -/

namespace ResultsetImpl.Of

variable {result : ResultsetImpl ResultRow} {rows : List ResultRow}

lemma rangeFor (h : result.Of rows) {fuel : Nat} (hfuel : rows.length < fuel) :
    Resultset.rangeFor cursor fuel result = some (rows.map some, .finished) := by
  obtain ⟨stop, hrun, htells⟩ := (iterates_iff result).mpr h.sound fuel (by rwa [h.outcome])
  rw [h.outcome] at hrun htells
  cases stop with
  | finished => exact hrun
  | threw e => exact htells.elim
  | overrun => exact htells.elim

/-- The first iterator is at the first row, or at the end if there is none. -/
lemma begin (h : result.Of rows) :
    ∃ s it, Resultset.begin cursor result = (s, .ok it) ∧
      match (motive := List ResultRow → Prop) rows with
      | [] => it.pos_ = -1
      | row :: _ => it.pos_ ≠ -1 ∧ it.value_ = some row := by
  have hrun := h.rangeFor (Nat.lt_succ_self rows.length)
  rw [Resultset.rangeFor] at hrun
  generalize Resultset.begin cursor result = first at hrun ⊢
  obtain ⟨s, out⟩ := first
  cases out with
  | error e => simp at hrun
  | ok it =>
    refine ⟨s, it, rfl, ?_⟩
    simp only [Resultset.loop] at hrun
    by_cases hpos : it.pos_ = -1
    · rw [if_pos hpos] at hrun
      have hnil := (Prod.mk.inj (Option.some.inj hrun)).1
      rw [List.map_eq_nil_iff.mp hnil.symm]
      exact hpos
    · rw [if_neg hpos] at hrun
      cases rows with
      | nil => split at hrun <;> simp at hrun
      | cons row rest =>
        refine ⟨hpos, ?_⟩
        split at hrun
        · exact (List.cons.inj (Prod.mk.inj (Option.some.inj hrun)).1).1
        · exact (List.cons.inj (Prod.mk.inj (Option.some.inj hrun)).1).1
        · obtain ⟨rest', -, hrest⟩ := Option.map_eq_some_iff.mp hrun
          exact (List.cons.inj (Prod.mk.inj hrest).1).1

end ResultsetImpl.Of

/-! ### What the functions of a record do -/

lemma ColumnValues.nodup (values : ColumnValues) : (values.entries.map Prod.fst).Nodup := by
  refine List.pairwise_map.mpr (values.sorted.imp fun {a b} h => ?_)
  intro heq
  rw [heq] at h
  exact String.lt_irrefl _ h

namespace Record

/-- A record of a schema with values of a kind. -/
structure Holds (r : Record) (schema : Schema) (V : SqlValue → Prop) : Prop where
  schema : r.schema_ = schema
  values : ∀ c v, r.values_.lookup c = some v → V v

lemma removeQuery_fields (r : Record) (pk : String) :
    (r.schema_.tableName_ ≠ "" → (r.removeQuery 0 pk).isValid = true) ∧
      (r.removeQuery 0 pk).dirty_ = true ∧ (r.removeQuery 0 pk).sql_ = [] ∧
      (r.removeQuery 0 pk).params_ = (Op.equals (.string pk) (r.get pk)).boundValues ∧
      (r.removeQuery 0 pk).namedParams_ = ∅ := by
  simp only [removeQuery, DeleteQuery.append, WhereBuilder.append_eq]
  refine ⟨fun htable => ?_, rfl, rfl, WhereBuilder.boundBy_params .., WhereBuilder.boundBy_named ..⟩
  simp [DeleteQuery.isValid, DeleteQuery.setModified, Query.setModified,
    WhereBuilder.boundBy_session, DeleteQuery.ofSession, htable]

/-- The query of `remove` deletes the rows with the key. -/
lemma says_remove {r : Record} {pk : String} (hkey : Helper.isNamed (r.get pk) = false) :
    ((r.removeQuery 0 pk).statementFor (r.removeQuery 0 pk).generateSql).Says
      r.schema_.session_.impl_ r.schema_.tableName_ (.delete [(pk, r.get pk)]) := by
  have hclause : (r.removeQuery 0 pk).where_.toWhereClause = WhereClause.resetText {}
      (WhereBuilder.toSqlOp { binder_ := 0, session_ := r.schema_.session_.impl_ } 1
        (Op.equals (.string pk) (r.get pk))) := by
    simp only [removeQuery, DeleteQuery.append, WhereBuilder.append_eq]
    rfl
  have htable : (r.removeQuery 0 pk).tableName_ = r.schema_.tableName_ := by
    simp only [removeQuery, DeleteQuery.append, WhereBuilder.append_eq]
    rfl
  have hconj := WhereClause.conjunction_resetText {} (WhereBuilder.toSqlOp_ne_empty
    { binder_ := 0, session_ := r.schema_.session_.impl_ } 1 (Op.equals (.string pk) (r.get pk)))
  have hempty : (r.removeQuery 0 pk).where_.empty = false := by
    rw [hclause, hconj.empty_eq]
    simp
  have htext : (r.removeQuery 0 pk).where_.toSql.render =
      pk ++ " = " ++ r.schema_.session_.impl_.bindParamText 1 := by
    rw [hclause, hconj.toSql_eq, hconj.text]
    simp [WhereBuilder.toSqlOp_render, Op.equals, OpType.typeValue, SqlValue.toString,
      String.append_assoc]
  have hplaceholders : (r.removeQuery 0 pk).where_.toSql.placeholders = [1] := by
    rw [hclause, hconj.toSql_eq, hconj.placeholders]
    simp
  refine ⟨_, rfl, ?_, ?_, fun i hi => ?_⟩
  · simp only [RowCommand.text]
    unfold RowCommand.deleteText
    rw [DeleteQuery.generateSql, hempty, if_neg (by simp), htable, RowCommand.whereText_singleton]
    simp [htext, String.append_assoc]
  · rw [DeleteQuery.generateSql, hempty, if_neg (by simp)]
    simp [hplaceholders, RowCommand.operands]
  · obtain ⟨-, -, -, hparams, -⟩ := removeQuery_fields r pk
    simp [Query.statementFor, Statement.loaded, hparams, RowCommand.operands,
      SqlOperator.boundValues, Op.equals, hkey]

section Serves

variable {τ : Type*} {db : Backend τ} {table : τ → SqlTable} {R : SqlRules} {schema : Schema}
  {pk : String} {V : SqlValue → Prop} {r : Record}

lemma Holds.get (h : r.Holds schema V) {c : String} (hhas : r.has c = true) : V (r.get c) :=
  h.values c _ (lookup_of_has hhas)

lemma Holds.getAll (h : r.Holds schema V) (columns : List String) :
    ∀ v ∈ r.getAll columns, V v := by
  intro v hv
  obtain ⟨c, hc, rfl⟩ := List.mem_map.mp hv
  exact h.get (List.mem_filter.mp hc).2

lemma boundValues_equals {c : String} {v : SqlValue} (h : Helper.isNamed v = false) :
    (Op.equals (.string c) v).boundValues = [v] := by
  simp [SqlOperator.boundValues, Op.equals, h]

lemma mem_entries {c : String} (hc : c ∈ r.schema_.columnNames) (hhas : r.has c = true) :
    (c, r.get c) ∈ r.entries r.schema_.columnNames :=
  List.mem_map.mpr ⟨c, List.mem_filter.mpr ⟨hc, hhas⟩, rfl⟩

lemma updateQuery_named (r : Record) (pk : String) : (r.updateQuery 0 pk).namedParams_ = ∅ := by
  simp only [updateQuery, UpdateQuery.append, WhereBuilder.append_eq, UpdateQuery.bindAll]
  exact (WhereBuilder.boundBy_named ..).trans (Query.bindAll_fields ..).2.1

lemma initFrom_of (r : Record) (row : String → SqlValue) (columns : List String) :
    r.initFrom (columns.map fun c => (c, .ok (row c))) =
      (columns.foldl (fun r c => r.set c (row c)) r, .ok ()) := by
  induction columns generalizing r with
  | nil => rfl
  | cons c columns ih => exact ih (r.set c (row c))

lemma init_of (hr : r.schema_ = schema) (row : String → SqlValue) :
    r.init (some (.of schema.columnNames row)) = (r.read row, .ok ()) := by
  subst hr
  exact initFrom_of r row r.schema_.columnNames

lemma init_new (schema : Schema) (row : String → SqlValue) :
    (new schema).init (some (.of schema.columnNames row)) = ((new schema).read row, .ok ()) :=
  init_of rfl row

variable (hserves : db.Serves table R schema pk V)

include hserves

/-- A search asks the database for the rows with its values. -/
lemma query_says {q : SelectQuery} {es : List (String × SqlValue)}
    (h : SelectQuery.Equated (.ofSchema 0 schema) es q) (hes : ∀ e ∈ es, V e.2)
    (hnamed : q.namedParams_ = ∅) (horder : q.orderBy_ = "") (hgroup : q.groupBy_ = "") (s : τ) :
    ∃ stmt, q.query db s = some (db.query s stmt) ∧
      stmt.Says schema.session_.impl_ q.tableName_ (.select q.columns_ es q.limit_) := by
  have hunnamed : ∀ e ∈ es, Helper.isNamed e.2 = false := fun e he =>
    (hserves.unnamed _ (hes e he)).2
  have hparams : q.params_ = es.map Prod.snd :=
    h.params.trans (SelectQuery.boundOf_of_unnamed hunnamed)
  have htext : q.toSql = q.generateSql := SelectQuery.toSql_of_empty (by rw [h.memo rfl]; rfl)
  refine ⟨_, SelectQuery.query_eq h.stmt ?_ s, htext ▸ h.tells hunnamed horder hgroup⟩
  rw [hnamed, hparams]
  refine hserves.accepts _ _ fun v hv => ?_
  obtain ⟨e, he, rfl⟩ := List.mem_map.mp hv
  exact hes e he

/-- A search that is limited to one row. -/
lemma query_one {q : SelectQuery} {es : List (String × SqlValue)} {base : Query}
    {builder : WhereBuilder} (h : SelectQuery.Equated (.ofSchema 0 schema) es q)
    (hes : ∀ e ∈ es, V e.2) (hnodup : (es.map Prod.fst).Nodup)
    (hcolumns : ∀ e ∈ es, e.1 ∈ schema.columnNames) (hnamed : q.namedParams_ = ∅)
    (hq : q = SelectQuery.limit
      { SelectQuery.ofSchema 0 schema with toQuery := base, where_ := builder } "1") (s : τ) :
    ∃ result, q.query db s = some (.ok result) ∧
      result.Of (((R.select (table s) es).take 1).map (.of schema.columnNames)) := by
  obtain ⟨stmt, hrun, hsays⟩ :=
    query_says hserves h hes hnamed (by rw [hq]; rfl) (by rw [hq]; rfl) s
  obtain ⟨result, hresult, hof⟩ := hserves.selectOne s stmt es hnodup hcolumns
    (by rw [hq] at hsays; exact hsays)
  exact ⟨result, by rw [hrun, hresult], hof⟩

variable (hr : r.Holds schema V)

include hr

/-- `exists` counts the row of the record exactly if it is in the table. -/
lemma counted_iff (s : τ) : r.Counted pk (db.answers s) ↔ r.inTable R pk (table s) = true := by
  rw [inTable, Bool.and_eq_true, Counted]
  refine and_congr_right fun hhas => ?_
  have hV := hr.get hhas
  have hunnamed := (hserves.unnamed _ hV).2
  have hasked : r.Asked pk (db.answers s) := by
    have hparams : (r.existsQuery 0 pk).params_ = [r.get pk] := by
      rw [existsQuery_params, boundValues_equals hunnamed]
    have hnamed : (r.existsQuery 0 pk).namedParams_ = ∅ := SelectQuery.append_named ..
    rw [Asked, hparams, hnamed]
    exact hserves.accepts _ _ (by simpa using hV)
  have hsays := says_exists hunnamed
  rw [hr.schema] at hsays
  have hcount : (db.answers s).count (r.existsStatement pk) =
      .ok (R.select (table s) [(pk, r.get pk)]).length := hserves.count s _ _ hsays
  rw [hcount]
  simp [hasked, List.length_pos_iff]

lemma exists_onTable (hpk : schema.primaryKey = .ok pk) (s : τ) :
    r.exists (db.answers s) = .ok (r.inTable R pk (table s)) := by
  have hkey : r.schema_.primaryKey = .ok pk := hr.schema ▸ hpk
  have hiff := counted_iff hserves hr s
  rcases exists_eq hkey (db.answers s) with ⟨hcounted, heq⟩ | ⟨hcounted, heq⟩
  · rw [heq, hiff.mp hcounted]
  · rw [heq, Bool.eq_false_iff.mpr fun h => hcounted (hiff.mpr h)]

/-- A save of a record whose row is in the table. -/
lemma save_update (hpk : schema.primaryKey = .ok pk) (htable : schema.tableName_ ≠ "")
    (s : τ) (hin : r.inTable R pk (table s) = true) :
    ∃ s', r.saveOn db s = some ((r.saveTo R pk (table s)).1, s',
        .ok (r.saveTo R pk (table s)).2.2) ∧
      table s' = (r.saveTo R pk (table s)).2.1 := by
  have hkey : r.schema_.primaryKey = .ok pk := hr.schema ▸ hpk
  have hname : r.schema_.tableName_ ≠ "" := hr.schema ▸ htable
  have hhas : r.has pk = true := (Bool.and_eq_true _ _ ▸ hin).1
  have hunnamed := (hserves.unnamed _ (hr.get hhas)).2
  obtain ⟨sql, hsql⟩ := r.toSql_updateQuery pk
  have hparams : (r.updateQuery 0 pk).params_ =
      r.getAll (r.availableColumns true pk) ++ [r.get pk] := by
    rw [updateQuery_params, boundValues_equals hunnamed]
  have hd : db.driver.Accepts sql.render (r.updateQuery 0 pk).params_
      (r.updateQuery 0 pk).namedParams_ := by
    rw [updateQuery_named, hparams]
    refine hserves.accepts _ _ fun v hv => ?_
    rcases List.mem_append.mp hv with hv | hv
    · exact hr.getAll _ v hv
    · exact List.mem_singleton.mp hv ▸ hr.get hhas
  have hvalid : (r.updateQuery 0 pk).isValid = true := by
    simp [UpdateQuery.isValid, updateQuery_session, (r.updateQuery_reset pk).2.2, hname]
  obtain ⟨q, hexecute⟩ := UpdateQuery.execute_accepted hvalid
    (Query.stale_of_dirty (r.updateQuery_reset pk).1) hsql hd (e := db.engine s) hserves.reset
  have hsays := (updates_statementFor hkey hhas hunnamed hsql).tells hhas
  rw [hr.schema] at hsays
  obtain ⟨hanswer, htable'⟩ := hserves.update s _ _ _
    (by rw [entries_fst]; exact List.filter_sublist)
    (List.ne_nil_of_mem (hr.schema ▸ mem_entries (mem_of_primaryKey hkey) hhas)) hsays
  have hsave : r.saveOn db s = some (r, (db.modify s ((r.updateQuery 0 pk).statementFor sql)).1,
      .ok (changesOf (db.modify s ((r.updateQuery 0 pk).statementFor sql)).2 != 0)) := by
    rw [saveOn, save, exists_onTable hserves hr hpk, hin, hkey]
    simp only [Backend.answers, hexecute]
    rfl
  refine ⟨_, hsave.trans ?_, htable'.trans ?_⟩ <;>
    rw [saveTo, if_pos hin, hr.schema]
  · rw [changesOf, hanswer]
    cases R.update (table s) (r.entries schema.columnNames) [(pk, r.get pk)] <;> rfl
  · cases R.update (table s) (r.entries schema.columnNames) [(pk, r.get pk)] <;> rfl

/-- A save of a record whose row is not in the table. -/
lemma save_insert (hpk : schema.primaryKey = .ok pk) (htable : schema.tableName_ ≠ "")
    (hreturnable : r.Returnable) (s : τ)
    (hin : r.inTable R pk (table s) = false) :
    ∃ s', r.saveOn db s = some ((r.saveTo R pk (table s)).1, s',
        .ok (r.saveTo R pk (table s)).2.2) ∧
      table s' = (r.saveTo R pk (table s)).2.1 := by
  have hkey : r.schema_.primaryKey = .ok pk := hr.schema ▸ hpk
  have hname : r.schema_.tableName_ ≠ "" := hr.schema ▸ htable
  obtain ⟨sql, hsql⟩ : ∃ sql, (r.insertQuery pk).toSql = some sql :=
    (toSql_insertQuery_iff hname).mpr hreturnable
  have hfields := Query.bindAll_fields
    (InsertQuery.ofSchema r.schema_ (r.availableColumns false pk)).toQuery
    (r.getAll (r.availableColumns false pk)) 1
  have hnamed : (r.insertQuery pk).namedParams_ = ∅ := hfields.2.1
  have hparams : (r.insertQuery pk).params_ = r.getAll (r.availableColumns false pk) :=
    Query.bindAll_params rfl _
  have hd : db.driver.Accepts sql.render (r.insertQuery pk).params_
      (r.insertQuery pk).namedParams_ := by
    rw [hnamed, hparams]
    exact hserves.accepts _ _ (hr.getAll _)
  obtain ⟨q, hexecute, hlast⟩ := InsertQuery.execute_accepted (isValid_insertQuery hname)
    (Query.stale_of_none hfields.2.2.1) hsql hd (e := db.engine s) hserves.reset
  obtain ⟨text, htext, hsays⟩ := says_insert hname hsql
  change InsertQuery.returning r.schema_.session_ r.schema_.tableName_ = some text at htext
  rw [hr.schema] at htext hsays
  obtain ⟨hanswer, htable'⟩ := hserves.insert s _ _ _
    (by rw [entries_fst]; exact List.filter_sublist.trans List.filter_sublist) htext hsays
  have hexists := exists_onTable hserves hr hpk s
  rw [hin] at hexists
  rw [saveTo, if_neg (by simp [hin]), hr.schema]
  rw [show (db.engine s).execute = fun stmt => (db.modify s stmt).2 from rfl] at hexecute hlast
  simp only [hanswer] at hexecute hlast
  rw [saveOn, save, hexists, hkey]
  simp only [Backend.answers, hexecute, Option.map_some, Backend.after, Option.elim_some]
  cases hinsert : R.insert (table s) pk (r.entries (schema.columnNames.filter (· ≠ pk))) with
  | none =>
    rw [hinsert] at htable'
    exact ⟨_, rfl, htable'⟩
  | some answer =>
    rw [hinsert] at htable' hlast
    refine ⟨_, ?_, htable'⟩
    have hlast' : q.lastId_ = (answer.2 : Int) := hlast
    simp only [hlast', ← hserves.key]
    rfl

/-- `save` does what it is for. -/
lemma save_onTable (hpk : schema.primaryKey = .ok pk) (htable : schema.tableName_ ≠ "")
    (hreturnable : r.Returnable) (s : τ) :
    ∃ s', r.saveOn db s = some ((r.saveTo R pk (table s)).1, s',
        .ok (r.saveTo R pk (table s)).2.2) ∧
      table s' = (r.saveTo R pk (table s)).2.1 := by
  cases hin : r.inTable R pk (table s) with
  | true => exact save_update hserves hr hpk htable s hin
  | false => exact save_insert hserves hr hpk htable hreturnable s hin

lemma remove_onTable (hpk : schema.primaryKey = .ok pk) (htable : schema.tableName_ ≠ "") (s : τ) :
    ∃ s', r.remove db s = some (s', .ok (r.removeFrom R pk (table s)).2) ∧
      table s' = (r.removeFrom R pk (table s)).1 := by
  have hkey : r.schema_.primaryKey = .ok pk := hr.schema ▸ hpk
  rw [remove, hkey, removeFrom]
  by_cases hhas : r.has pk = true
  · have hunnamed := (hserves.unnamed _ (hr.get hhas)).2
    obtain ⟨hvalid, hdirty, hmemo, hparams, hnamed⟩ := removeQuery_fields r pk
    have hd : db.driver.Accepts (r.removeQuery 0 pk).generateSql.render
        (r.removeQuery 0 pk).params_ (r.removeQuery 0 pk).namedParams_ := by
      rw [hnamed, hparams, boundValues_equals hunnamed]
      exact hserves.accepts _ _ (by simpa using hr.get hhas)
    have hsql : (r.removeQuery 0 pk).toSql = some (r.removeQuery 0 pk).generateSql := by
      simp [DeleteQuery.toSql, Query.toSqlWith, hmemo]
    obtain ⟨q, hexecute⟩ := DeleteQuery.execute_accepted (hvalid (hr.schema ▸ htable))
      (Query.stale_of_dirty hdirty) hsql hd (e := db.engine s) hserves.reset
    have hsays := says_remove hunnamed
    rw [hr.schema] at hsays
    obtain ⟨hanswer, htable'⟩ := hserves.delete s _ _ hsays
    rw [show (db.engine s).execute = fun stmt => (db.modify s stmt).2 from rfl] at hexecute
    simp only [hhas, if_true, hexecute, Option.map_some, changesOf, hanswer]
    refine ⟨(db.modify s _).1, ?_, htable'.trans ?_⟩ <;>
      cases R.delete (table s) [(pk, r.get pk)] <;> rfl
  · simp only [hhas, Bool.false_eq_true, if_false]
    exact ⟨s, rfl, rfl⟩

lemma refresh_onTable {name : String} (hname : name ∈ schema.columnNames) (s : τ) :
    r.refreshBy name db s =
      some ((r.refreshFrom R (table s) name).1, .ok (r.refreshFrom R (table s) name).2) := by
  rw [refreshBy, refreshFrom]
  by_cases hhas : r.has name = true
  · have hreset := SelectQuery.equated_reset 0 schema name (r.get name)
    obtain ⟨base, builder, hfields⟩ := SelectQuery.append_fields .reset
      (SelectQuery.ofSchema 0 schema) (Op.equals (.string name) (r.get name))
    have hquery : r.refreshQuery 0 name = SelectQuery.limit
        { SelectQuery.ofSchema 0 schema with toQuery := base, where_ := builder } "1" := by
      rw [refreshQuery, hr.schema, hfields]
    have hequated : SelectQuery.Equated (.ofSchema 0 schema) [(name, r.get name)]
        (r.refreshQuery 0 name) := by
      rw [refreshQuery, hr.schema]
      exact ⟨hreset.join, hreset.union, hreset.stmt, fun _ => rfl, hreset.session, hreset.params,
        hreset.clause⟩
    have hnamed : (r.refreshQuery 0 name).namedParams_ = ∅ := SelectQuery.append_named ..
    obtain ⟨result, hrun, hof⟩ :=
      query_one hserves hequated (by simpa using hr.get hhas) (List.nodup_singleton name)
        (by simpa using hname) hnamed hquery s
    obtain ⟨s', it, hbegin, hit⟩ := hof.begin
    simp only [hhas, if_true, hrun, Option.map_some, hbegin]
    cases hrows : R.select (table s) [(name, r.get name)] with
    | nil =>
      rw [hrows] at hit
      have hpos : it.pos_ = -1 := hit
      simp only [hpos, if_true]
      rfl
    | cons row rows =>
      rw [hrows] at hit
      obtain ⟨hpos, hvalue⟩ := hit
      simp only [hpos, if_false, hvalue, init_of hr.schema]
      rfl
  · simp only [hhas, Bool.false_eq_true, if_false]

omit hr in
lemma findOne_onTable (values : ColumnValues) (hvalues : ∀ e ∈ values.entries, V e.2)
    (hcolumns : ∀ e ∈ values.entries, e.1 ∈ schema.columnNames) (s : τ) :
    findOneOn schema values db s = some (.ok (search R (table s) schema values.entries).head?) := by
  obtain ⟨base, builder, hfields⟩ :=
    SelectQuery.whereEquals_fields (SelectQuery.ofSchema 0 schema) values.entries
  have hquery : findOne 0 schema values = SelectQuery.limit
      { SelectQuery.ofSchema 0 schema with toQuery := base, where_ := builder } "1" := by
    rw [findOne, hfields]
  have hnamed : (findOne 0 schema values).namedParams_ = ∅ := SelectQuery.whereEquals_named ..
  obtain ⟨result, hrun, hof⟩ := query_one hserves (SelectQuery.equated_findOne 0 schema values)
    hvalues values.nodup hcolumns hnamed hquery s
  obtain ⟨s', it, hbegin, hit⟩ := hof.begin
  simp only [findOneOn, hrun, Option.map_some, hof.isValid, if_true, hbegin, search]
  cases hrows : R.select (table s) values.entries with
  | nil =>
    rw [hrows] at hit
    have hpos : it.pos_ = -1 := hit
    simp only [hpos, if_true]
    rfl
  | cons row rows =>
    rw [hrows] at hit
    obtain ⟨hpos, hvalue⟩ := hit
    simp only [hpos, if_false, hvalue, init_new]
    rfl

omit hr in
lemma findBy_onTable {values : ColumnValues} (hvalues : ∀ e ∈ values.entries, V e.2)
    (hcolumns : ∀ e ∈ values.entries, e.1 ∈ schema.columnNames) {s : τ}
    (hsmall : (table s).rows.length < 2 ^ 31) {fuel : Nat}
    (hfuel : (table s).rows.length < fuel) :
    findByOn schema values db s fuel =
      some (search R (table s) schema values.entries, .finished) := by
  obtain ⟨base, builder, hfields⟩ :=
    SelectQuery.whereEquals_fields (SelectQuery.ofSchema 0 schema) values.entries
  have hquery : findBy 0 schema values =
      { SelectQuery.ofSchema 0 schema with toQuery := base, where_ := builder } := hfields
  obtain ⟨stmt, hrun, hsays⟩ := query_says hserves (SelectQuery.equated_findBy 0 schema values)
    hvalues (SelectQuery.whereEquals_named ..) (by rw [hquery]; rfl) (by rw [hquery]; rfl) s
  obtain ⟨result, hresult, hof⟩ := hserves.select s stmt _ hsmall values.nodup hcolumns
    (by rw [hquery] at hsays; exact hsays)
  have hlength : ((R.select (table s) values.entries).map
      (ResultRow.of schema.columnNames)).length < fuel := by
    rw [List.length_map]
    exact (List.length_filter_le ..).trans_lt hfuel
  simp only [findByOn, hrun, hresult, Option.bind_some, hof.isValid, if_true,
    hof.rangeFor hlength, Option.map_some, search]
  congr 1
  induction R.select (table s) values.entries with
  | nil => rfl
  | cons row rows ih =>
    simp only [List.map_cons, fromRows, init_new, ih]

end Serves

end Record

end CodaDb
