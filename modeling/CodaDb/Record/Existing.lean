import CodaDb.Record.Save
import CodaDb.Sqlite.Binding

/-!
# Saving a record whose row exists

`count` answers -1 for every exception, `exists` takes this for the absence of the row, and `save`
goes on to insert one. When it does not, and what the driver has to do with it.
-/

namespace CodaDb

open SqlText

/-- The statement inserts rows. -/
def Statement.IsInsert (stmt : Statement) : Prop :=
  ∃ text, stmt.sql = some text ∧ "INSERT".toList <+: text.render.toList

instance : DecidablePred Statement.IsInsert := fun stmt =>
  match hsql : stmt.sql with
  | some text => decidable_of_iff ("INSERT".toList <+: text.render.toList)
      ⟨fun h => ⟨text, hsql, h⟩,
        fun ⟨_, h, hprefix⟩ => Option.some.inj (hsql.symm.trans h) ▸ hprefix⟩
  | none => isFalse fun ⟨_, h, _⟩ => nomatch hsql.symm.trans h

namespace Record

section Keys

-- What the database is handed for a bound value, what it keeps in a row for a value, and by how
-- many rows a statement changes the table.
variable {κ : Type*} (sent stored : SqlValue → κ) (growth : Statement → Int)

/-- `save` comes to an end without an insert: it updates the row with the key of the record or
reports failure, and the table keeps its number of rows. -/
def KeepsRow (r : Record) (pk : String) (answers : Answers) : Prop :=
  ∃ saved, r.save answers = some saved ∧
    (saved.statement = none → ∃ e, saved.result = .error e) ∧
    ∀ stmt, saved.statement = some stmt → ¬stmt.IsInsert ∧ r.Updates pk stmt ∧
      (stmt.bound ((r.schema_.columnNames.filter r.has).length + 1)).map sent =
        some (stored (r.get pk)) ∧
      growth stmt = 0

/-- The query of `exists` hands the database the key of the row. -/
def SendsKey (r : Record) (pk : String) : Prop :=
  ((r.existsStatement pk).bound 1).map sent = some (stored (r.get pk))

/-- The driver refuses the statement that `save` goes on to, and the text of it comes to an end. -/
def Refused (r : Record) (pk : String) (answers : Answers) : Prop :=
  (r.Counted pk answers → ∀ sql, (r.updateQuery 0 pk).toSql = some sql →
    ¬answers.modify.Accepts sql.render (r.updateQuery 0 pk).params_
      (r.updateQuery 0 pk).namedParams_) ∧
  (¬r.Counted pk answers → r.Returnable ∧ ∀ sql, (r.insertQuery pk).toSql = some sql →
    ¬answers.modify.Accepts sql.render (r.insertQuery pk).params_ (r.insertQuery pk).namedParams_)

variable {sent stored growth} {r : Record} {pk : String} {answers : Answers}

lemma Inserts.isInsert {stmt : Statement} (h : r.Inserts pk stmt) : stmt.IsInsert := by
  obtain ⟨columns, text, returning, -, hsql, hrender, -, -⟩ := h
  refine ⟨text, hsql, ?_⟩
  rw [hrender]
  simp [String.toList_append]

lemma Updates.not_isInsert {stmt : Statement} (h : r.Updates pk stmt) : ¬stmt.IsInsert := by
  obtain ⟨columns, text, -, hsql, hrender, -⟩ := h
  rintro ⟨text', hsql', hinsert⟩
  obtain rfl := Option.some.inj (hsql.symm.trans hsql')
  rw [hrender] at hinsert
  simp [String.toList_append] at hinsert

lemma existsQuery_params (r : Record) (pk : String) :
    (r.existsQuery 0 pk).params_ = (Op.equals (.string pk) (r.get pk)).boundValues := by
  simp only [existsQuery, SelectQuery.append, WhereBuilder.append_eq, SelectQuery.setModified,
    Query.setModified, WhereBuilder.boundBy_params]
  rfl

lemma existsStatement_bound (r : Record) (pk : String) :
    (r.existsStatement pk).bound 1 = (Op.equals (.string pk) (r.get pk)).boundValues[0]? := by
  have hexists : (r.existsStatement pk).bound 1 = (r.existsQuery 0 pk).params_[0]? := rfl
  rw [hexists, existsQuery_params]

/-- The query of `exists` and the update bind the key to their last placeholders, or both do not. -/
lemma updateStatement_bound (r : Record) (pk : String) (sql : SqlText) :
    ((r.updateQuery 0 pk).statementFor sql).bound
        ((r.schema_.columnNames.filter r.has).length + 1) =
      (r.existsStatement pk).bound 1 := by
  have hlength : (r.schema_.columnNames.filter r.has).length =
      (r.getAll (r.availableColumns true pk)).length := by
    rw [length_getAll fun c => availableColumns_has, availableColumns_true]
  have hupdate : ∀ i, ((r.updateQuery 0 pk).statementFor sql).bound (i + 1) =
      (r.updateQuery 0 pk).params_[i]? := fun i => rfl
  rw [hupdate, existsStatement_bound, updateQuery_params, hlength,
    List.getElem?_append_right (le_refl _), Nat.sub_self]

/-- A key that is handed over is not the name of a parameter. -/
lemma SendsKey.unnamed (h : SendsKey sent stored r pk) : Helper.isNamed (r.get pk) = false := by
  by_contra hnamed
  rw [SendsKey, existsStatement_bound] at h
  simp [Op.equals, SqlOperator.boundValues, hnamed] at h

/-- A save that comes to the update. -/
lemma keepsRow_counted (hpk : r.schema_.primaryKey = .ok pk) (htable : r.schema_.tableName_ ≠ "")
    (hgrowth : ∀ stmt, r.Updates pk stmt → growth stmt = 0) (hcounted : r.Counted pk answers) :
    KeepsRow sent stored growth r pk answers ↔
      SendsKey sent stored r pk ∨ r.Refused pk answers := by
  obtain ⟨sql, hsql⟩ := r.toSql_updateQuery pk
  obtain ⟨saved, hsaved, hcomes⟩ := save_counted hpk htable hcounted hsql
  rcases hcomes with ⟨hd, hstmt⟩ | ⟨hd, hstmt, hex⟩
  · constructor
    · rintro ⟨saved', hsaved', -, hkeeps⟩
      obtain rfl := Option.some.inj (hsaved.symm.trans hsaved')
      have hkey := (hkeeps _ hstmt).2.2.1
      rw [updateStatement_bound] at hkey
      exact .inl hkey
    · rintro (hkey | hrefused)
      · refine ⟨saved, hsaved, fun h => absurd (hstmt.symm.trans h) nofun, fun stmt h => ?_⟩
        obtain rfl := Option.some.inj (hstmt.symm.trans h)
        have hupdates := updates_statementFor hpk hcounted.1 hkey.unnamed hsql
        refine ⟨hupdates.not_isInsert, hupdates, ?_, hgrowth _ hupdates⟩
        rw [updateStatement_bound]
        exact hkey
      · exact absurd hd (hrefused.1 hcounted sql hsql)
  · refine iff_of_true ⟨saved, hsaved, fun _ => hex, ?_⟩ (.inr ⟨fun _ sql' hsql' => ?_, ?_⟩)
    · exact fun stmt h => absurd (hstmt.symm.trans h) nofun
    · obtain rfl := Option.some.inj (hsql.symm.trans hsql')
      exact hd
    · exact fun h => absurd hcounted h

/-- A save that comes to the insert. -/
lemma keepsRow_uncounted (hpk : r.schema_.primaryKey = .ok pk) (htable : r.schema_.tableName_ ≠ "")
    (hcounted : ¬r.Counted pk answers) :
    KeepsRow sent stored growth r pk answers ↔ r.Refused pk answers := by
  by_cases hreturnable : r.Returnable
  case neg =>
    refine iff_of_false ?_ fun h => hreturnable (h.2 hcounted).1
    rintro ⟨saved, hsaved, -⟩
    cases hsaved.symm.trans (save_eq_none hpk htable hcounted hreturnable)
  obtain ⟨sql, hsql⟩ : ∃ sql, (r.insertQuery pk).toSql = some sql :=
    (toSql_insertQuery_iff htable).mpr hreturnable
  obtain ⟨saved, hsaved, hcomes⟩ := save_uncounted hpk htable hcounted hsql
  rcases hcomes with ⟨hd, hstmt⟩ | ⟨hd, hstmt, hex⟩
  · refine iff_of_false ?_ fun h => (h.2 hcounted).2 sql hsql hd
    rintro ⟨saved', hsaved', -, hkeeps⟩
    obtain rfl := Option.some.inj (hsaved.symm.trans hsaved')
    exact (hkeeps _ hstmt).1 (inserts_statementFor htable hsql).isInsert
  · refine iff_of_true ⟨saved, hsaved, fun _ => hex, ?_⟩ ⟨fun h => absurd h hcounted, ?_⟩
    · exact fun stmt h => absurd (hstmt.symm.trans h) nofun
    · refine fun _ => ⟨hreturnable, fun sql' hsql' => ?_⟩
      obtain rfl := Option.some.inj (hsql.symm.trans hsql')
      exact hd

/-- With its row in the table, a record is saved without an insert exactly if the query of `exists`
hands over its key and nothing is thrown, or if the driver refuses the statement `save` goes on
to. -/
theorem keepsRow_iff (hpk : r.schema_.primaryKey = .ok pk) (htable : r.schema_.tableName_ ≠ "")
    (hset : r.has pk = true)
    (hrow : SendsKey sent stored r pk → ∀ n, answers.count (r.existsStatement pk) = .ok n → 0 < n)
    (hgrowth : ∀ stmt, r.Updates pk stmt → growth stmt = 0) :
    KeepsRow sent stored growth r pk answers ↔
      SendsKey sent stored r pk ∧ r.Asked pk answers ∧
          (∃ n, answers.count (r.existsStatement pk) = .ok n) ∨
        r.Refused pk answers := by
  by_cases hcounted : r.Counted pk answers
  · rw [keepsRow_counted hpk htable hgrowth hcounted]
    obtain ⟨-, hasked, n, hn, -⟩ := hcounted
    exact or_congr_left ⟨fun h => ⟨h, hasked, n, hn⟩, fun h => h.1⟩
  · rw [keepsRow_uncounted hpk htable hcounted]
    refine ⟨.inr, fun h => h.resolve_left ?_⟩
    rintro ⟨hkey, hasked, n, hn⟩
    exact hcounted ⟨hset, hasked, n, hn, hrow hkey n hn⟩

end Keys

/-- A record of a table on SQLite, with a number for the key. -/
def sqliteUser (id : SqlNumber) : Record where
  schema_ :=
    { tableName_ := "users"
      columns_ := [⟨"id", true, true⟩, ⟨"name", false, false⟩]
      session_ := { impl_ := .sqlite } }
  values_ := (AList.singleton "id" (.number id)).insert "name" (.string "bob")

/-- The driver of SQLite and a table with the row 5. -/
def rowFive : Answers where
  select := Sqlite.driver
  count := fun stmt =>
    .ok (if (stmt.bound 1).map Sqlite.fromValue = some (some (.int64 5)) then 1 else 0)
  modify := Sqlite.driver
  engine := { execute := fun _ => some (1, 6) }

/-- An insert adds a row. -/
def growth (stmt : Statement) : Int := if stmt.IsInsert then 1 else 0

lemma equals_sqliteUser (id : SqlNumber) :
    (Op.equals (.string "id") ((sqliteUser id).get "id")).boundValues = [.number id] := by
  have hget : (sqliteUser id).get "id" = .number id := rfl
  simp [hget, Op.equals, SqlOperator.boundValues, Helper.isNamed_number]

/-- The driver takes the query of `exists` if it takes the key. -/
lemma asked_sqliteUser {id : SqlNumber} :
    (sqliteUser id).Asked "id" rowFive ↔ (Sqlite.fromNumber id).isSome = true := by
  refine Sqlite.driver_accepts.trans ?_
  rw [existsQuery_params, equals_sqliteUser, List.forall_mem_singleton]
  rfl

/-- The theorem at a key that SQLite is handed as it is. -/
theorem keepsRow_five :
    KeepsRow Sqlite.fromValue Sqlite.column growth (sqliteUser (.ofLlong 5)) "id" rowFive := by
  have hbound : ((sqliteUser (.ofLlong 5)).existsStatement "id").bound 1 =
      some (.number (.ofLlong 5)) := by
    rw [existsStatement_bound, equals_sqliteUser]
    rfl
  have hcell : Sqlite.fromValue (.number (.ofLlong 5)) = some (.int64 5) := by decide
  have hcount : rowFive.count ((sqliteUser (.ofLlong 5)).existsStatement "id") = .ok 1 := by
    simp [rowFive, hbound, hcell]
  have hkey : SendsKey Sqlite.fromValue Sqlite.column (sqliteUser (.ofLlong 5)) "id" := by
    rw [SendsKey, hbound, Option.map_some, hcell]
    rfl
  refine (keepsRow_iff rfl (by decide) rfl ?_ ?_).mpr
    (.inl ⟨hkey, asked_sqliteUser.mpr (by decide), 1, hcount⟩)
  · intro _ n hn
    obtain rfl := Except.ok.inj (hcount.symm.trans hn)
    decide
  · intro stmt hstmt
    simp [growth, hstmt.not_isInsert]

/-- An `unsigned long long` is not bound, and the row is inserted again. -/
theorem not_keepsRow_five :
    ¬KeepsRow Sqlite.fromValue Sqlite.column growth
      (sqliteUser (.integral .ullong ⟨5, by decide⟩)) "id" rowFive := by
  have hasked : ¬(sqliteUser (.integral .ullong ⟨5, by decide⟩)).Asked "id" rowFive := by
    rw [asked_sqliteUser]
    decide
  have hcounted : ¬(sqliteUser (.integral .ullong ⟨5, by decide⟩)).Counted "id" rowFive :=
    fun h => hasked h.2.1
  rw [keepsRow_uncounted rfl (by decide) hcounted]
  intro hrefused
  have hparams : ((sqliteUser (.integral .ullong ⟨5, by decide⟩)).insertQuery "id").params_ =
      [.string "bob"] := by
    have hcolumns : (sqliteUser (.integral .ullong ⟨5, by decide⟩)).availableColumns false "id" =
        ["name"] := by decide
    refine (Query.bindAll_params rfl _).trans ?_
    rw [hcolumns]
    rfl
  refine (hrefused.2 hcounted).2 _ rfl (Sqlite.driver_accepts.mpr ?_)
  rw [hparams]
  decide

end Record

end CodaDb
