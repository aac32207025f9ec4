import CodaDb.Record.Find
import CodaDb.Record.Save

/-!
# What the statements of a record say

The functions of a record write five kinds of statements. Each is the text of a command on the rows
of a table, with the values of the command bound in the order in which they are written.
-/

namespace CodaDb

open SqlText

/-- A command on the rows of a table that are found by equations between columns and values. -/
inductive RowCommand where
  | select (columns : List String) (eqs : List (String × SqlValue)) (limit : String)
  | update (values eqs : List (String × SqlValue))
  | insert (values : List (String × SqlValue)) (returning : String)
  | delete (eqs : List (String × SqlValue))

namespace RowCommand

/-- Columns with placeholders, numbered from `n` on. -/
def assigned (impl : SessionImpl) (op : String) (n : Nat) (es : List (String × SqlValue)) :
    List String :=
  es.zipWith (fun e i => e.1 ++ op ++ impl.bindParamText i) (List.range' n es.length)

def whereText (impl : SessionImpl) (n : Nat) (eqs : List (String × SqlValue)) : String :=
  if eqs.isEmpty then "" else " WHERE " ++ " AND ".intercalate (assigned impl " = " n eqs)

section Texts

variable (impl : SessionImpl) (table : String)

def selectText (columns : List String) (eqs : List (String × SqlValue)) (limit : String) : String :=
  "SELECT " ++ (if columns.isEmpty then "*" else Helper.joinCsv columns) ++ " FROM " ++ table ++
    whereText impl 1 eqs ++ (if limit = "" then "" else " LIMIT " ++ limit) ++ ";"

def updateText (values eqs : List (String × SqlValue)) : String :=
  "UPDATE " ++ table ++ " SET " ++ ",".intercalate (assigned impl "=" 1 values) ++
    whereText impl (values.length + 1) eqs ++ ";"

def insertText (values : List (String × SqlValue)) (returning : String) : String :=
  "INSERT INTO " ++ table ++ "(" ++ ",".intercalate (values.map Prod.fst) ++ ") VALUES(" ++
    ",".intercalate ((List.range' 1 values.length).map impl.bindParamText) ++ ")" ++ returning ++
    ";"

def deleteText (eqs : List (String × SqlValue)) : String :=
  "DELETE FROM " ++ table ++ whereText impl 1 eqs ++ ";"

def text : RowCommand → String
  | .select columns eqs limit => selectText impl table columns eqs limit
  | .update values eqs => updateText impl table values eqs
  | .insert values returning => insertText impl table values returning
  | .delete eqs => deleteText impl table eqs

end Texts

/-- The values of the placeholders. -/
def operands : RowCommand → List SqlValue
  | .select _ eqs _ | .delete eqs => eqs.map Prod.snd
  | .update values eqs => values.map Prod.snd ++ eqs.map Prod.snd
  | .insert values _ => values.map Prod.snd

/-- The command that counts rows. -/
def count (eqs : List (String × SqlValue)) : RowCommand := .select ["COUNT(*)"] eqs ""

end RowCommand

/-- The statement has the text of a command, and its values at the placeholders, which are numbered
in order. -/
def Statement.Says (stmt : Statement) (impl : SessionImpl) (table : String) (c : RowCommand) :
    Prop :=
  ∃ text, stmt.sql = some text ∧ text.render = c.text impl table ∧
    text.placeholders = List.range' 1 c.operands.length ∧
    ∀ i < c.operands.length, stmt.bound (i + 1) = c.operands[i]?

lemma RowCommand.whereText_singleton (impl : SessionImpl) (n : Nat) (c : String) (v : SqlValue) :
    whereText impl n [(c, v)] = " WHERE " ++ c ++ " = " ++ impl.bindParamText n := by
  simp [whereText, assigned, String.append_assoc]

/-! ### Searches -/

namespace SelectQuery

variable {self : Addr} {schema : Schema} {es : List (String × SqlValue)} {q : SelectQuery}

/-- The query with one condition, as the functions of a record build it. -/
lemma equated_reset (self : Addr) (schema : Schema) (c : String) (v : SqlValue) :
    Equated (ofSchema self schema) [(c, v)]
      ((ofSchema self schema).append .reset (Op.equals (.string c) v)) := by
  have hvalues : (Op.equals (.string c) v).boundValues = boundOf [(c, v)] := by
    cases hnamed : Helper.isNamed v <;>
      simp [SqlOperator.boundValues, Op.equals, boundOf, hnamed]
  simp only [append, WhereBuilder.append_eq, WhereBuilder.extend]
  refine ⟨rfl, rfl, by simp [setModified, Query.setModified], fun _ => rfl, rfl,
    by simp [setModified, Query.setModified, hvalues], fun ts hts => ?_⟩
  have hnil : ts = [] := by
    by_contra h
    exact hts.value h rfl
  subst hnil
  exact WhereClause.conjunction_resetText _ (WhereBuilder.condition_ne_empty _ _ _)

/-- An append changes the base of the query and its condition only. -/
lemma append_fields (how : Connective) (q : SelectQuery) (o : SqlOperator) :
    ∃ base builder, q.append how o = { q with toQuery := base, where_ := builder } := by
  simp only [append, WhereBuilder.append_eq]
  cases how <;> exact ⟨_, _, rfl⟩

lemma whereEquals_fields (q : SelectQuery) (es : List (String × SqlValue)) :
    ∃ base builder, q.whereEquals es = { q with toQuery := base, where_ := builder } := by
  induction es generalizing q with
  | nil => exact ⟨q.toQuery, q.where_, by simp [whereEquals]⟩
  | cons e es ih =>
    obtain ⟨base, builder, h⟩ := ih (q.append .and (Op.equals (.string e.1) e.2))
    obtain ⟨base', builder', h'⟩ := q.append_fields .and (Op.equals (.string e.1) e.2)
    exact ⟨base, builder, h.trans (by rw [h'])⟩

/-- The text of a search that neither orders nor groups its rows. -/
lemma Equated.render (h : Equated (ofSchema self schema) es q)
    (hes : ∀ e ∈ es, Helper.isNamed e.2 = false) (horder : q.orderBy_ = "")
    (hgroup : q.groupBy_ = "") :
    q.generateSql.render =
      RowCommand.selectText schema.session_.impl_ q.tableName_ q.columns_ es q.limit_ := by
  have himpl : q.where_.session_ = schema.session_.impl_ := h.session
  have hempty : q.where_.empty = decide (es = []) := by
    rw [h.conjunction.empty_eq]
    cases es <;> simp [numbersFrom]
  have hwhere : SqlText.render (if q.where_.empty then [] else lit " WHERE " ++ q.where_.toSql) =
      RowCommand.whereText schema.session_.impl_ 1 es := by
    rw [hempty, RowCommand.whereText]
    cases es with
    | nil => rfl
    | cons e es =>
      rw [if_neg (by simp), if_neg (by simp), render_append, h.text, numbersFrom_of_unnamed hes,
        himpl]
      rfl
  rw [generateSql_eq, coreSql, h.union, h.join]
  unfold RowCommand.selectText
  simp only [render_append, hwhere, horder, hgroup, if_true]
  simp [ofSchema, ofSession, unionSql, apply_ite SqlText.render, String.append_assoc]

/-- What a search runs says so. -/
lemma Equated.tells (h : Equated (ofSchema self schema) es q)
    (hes : ∀ e ∈ es, Helper.isNamed e.2 = false) (horder : q.orderBy_ = "")
    (hgroup : q.groupBy_ = "") :
    (q.statementFor q.generateSql).Says schema.session_.impl_ q.tableName_
      (.select q.columns_ es q.limit_) := by
  have hparams : q.params_ = es.map Prod.snd := by
    rw [h.params, boundOf_of_unnamed hes]
    rfl
  refine ⟨q.generateSql, rfl, h.render hes horder hgroup, ?_, fun i hi => ?_⟩
  · rw [h.placeholders, numbersFrom_of_unnamed hes]
    simp [RowCommand.operands]
  · simp [Query.statementFor, Statement.loaded, hparams, RowCommand.operands]

end SelectQuery

namespace Record

variable {r : Record} {pk : String}

/-- The columns that the record has, with their values. -/
def entries (r : Record) (columns : List String) : List (String × SqlValue) :=
  (columns.filter r.has).map fun c => (c, r.get c)

lemma entries_fst (r : Record) (columns : List String) :
    (r.entries columns).map Prod.fst = columns.filter r.has := by
  simp [entries, Function.comp_def]

lemma getElem_entries {columns : List String} {i : Nat} {c : String}
    (h : (columns.filter r.has)[i]? = some c) :
    ((r.entries columns).map Prod.snd)[i]? = r.values_.lookup c := by
  have hhas : r.has c = true := (List.mem_filter.mp (List.mem_of_getElem? h)).2
  rw [entries, List.map_map, List.getElem?_map, h, lookup_of_has hhas]
  rfl

/-! ### What a record runs -/

/-- The query of `exists` counts the rows with the key. -/
lemma says_exists (hkey : Helper.isNamed (r.get pk) = false) :
    (r.existsStatement pk).Says r.schema_.session_.impl_ r.schema_.tableName_
      (.count [(pk, r.get pk)]) := by
  have hreset := SelectQuery.equated_reset 0 r.schema_ pk (r.get pk)
  have h : SelectQuery.Equated (.ofSchema 0 r.schema_) [(pk, r.get pk)]
      (r.existsQuery 0 pk).counting :=
    ⟨hreset.join, hreset.union, hreset.stmt, hreset.memo, hreset.session, hreset.params,
      hreset.clause⟩
  obtain ⟨base, builder, hfields⟩ := SelectQuery.append_fields .reset
    (SelectQuery.ofSchema 0 r.schema_) (Op.equals (.string pk) (r.get pk))
  have hcounting : (r.existsQuery 0 pk).counting =
      { SelectQuery.ofSchema 0 r.schema_ with
        toQuery := base, where_ := builder, columns_ := ["COUNT(*)"] } := by
    rw [existsQuery, hfields]
    rfl
  have htext : (r.existsQuery 0 pk).counting.toSql = (r.existsQuery 0 pk).counting.generateSql :=
    SelectQuery.toSql_of_empty (by rw [h.memo rfl]; rfl)
  have hsays := h.tells (by simpa using hkey) (by rw [hcounting]; rfl) (by rw [hcounting]; rfl)
  rw [existsStatement, htext]
  rw [hcounting] at hsays ⊢
  exact hsays

/-- An update writes the values of the record to the rows with the key. -/
lemma Updates.tells {stmt : Statement} (h : r.Updates pk stmt) (hhas : r.has pk = true) :
    stmt.Says r.schema_.session_.impl_ r.schema_.tableName_
      (.update (r.entries r.schema_.columnNames) [(pk, r.get pk)]) := by
  obtain ⟨columns, text, rfl, hsql, hrender, hplaceholders, hbound, hkey⟩ := h
  have hlength : (r.entries r.schema_.columnNames).length =
      (r.schema_.columnNames.filter r.has).length := by
    simp [entries]
  refine ⟨text, hsql, ?_, ?_, fun i hi => ?_⟩
  · simp only [RowCommand.text]
    unfold RowCommand.updateText
    rw [hrender, RowCommand.whereText_singleton, hlength]
    simp [RowCommand.assigned, entries, List.zipWith_map_left, String.append_assoc]
  · rw [hplaceholders]
    simp [RowCommand.operands, hlength]
  · rw [RowCommand.operands] at hi ⊢
    rcases Nat.lt_or_ge i (r.schema_.columnNames.filter r.has).length with hlt | hge
    · rw [List.getElem?_append_left (by simpa [hlength] using hlt),
        getElem_entries (List.getElem?_eq_getElem hlt),
        hbound i _ (List.getElem?_eq_getElem hlt)]
    · have hi' : i = (r.schema_.columnNames.filter r.has).length := by
        simp [hlength] at hi
        omega
      subst hi'
      rw [hkey, List.getElem?_append_right (by simp [hlength])]
      simp [hlength, lookup_of_has hhas]

/-- An insert has the values of the record but for the key. -/
lemma says_insert (htable : r.schema_.tableName_ ≠ "") {sql : SqlText}
    (hsql : (r.insertQuery pk).toSql = some sql) :
    ∃ returning, r.returning = some returning ∧
      ((r.insertQuery pk).statementFor sql).Says r.schema_.session_.impl_ r.schema_.tableName_
        (.insert (r.entries (r.schema_.columnNames.filter (· ≠ pk))) returning.render) := by
  obtain ⟨returning, hreturning, hplaceholders⟩ :=
    returning_isSome htable ((toSql_insertQuery_iff htable).mp ⟨sql, hsql⟩)
  rw [toSql_insertQuery, hreturning] at hsql
  obtain rfl := Option.some.inj hsql
  have hcolumns : r.availableColumns false pk =
      (r.schema_.columnNames.filter (· ≠ pk)).filter r.has := by
    rw [availableColumns_false, List.filter_filter]
  have hlength : (r.entries (r.schema_.columnNames.filter (· ≠ pk))).length =
      (r.availableColumns false pk).length := by
    rw [hcolumns]
    simp [entries]
  refine ⟨returning, hreturning, _, rfl, ?_, ?_, fun i hi => ?_⟩
  · simp only [RowCommand.text]
    unfold RowCommand.insertText
    rw [InsertQuery.insertText_render, entries_fst, hlength, hcolumns]
  · rw [InsertQuery.insertText_placeholders _ _ _ hplaceholders, RowCommand.operands,
      List.length_map, hlength]
  · have hparams : (r.insertQuery pk).params_ = r.getAll (r.availableColumns false pk) :=
      Query.bindAll_params rfl _
    have hbound : ∀ sql, ((r.insertQuery pk).statementFor sql).bound (i + 1) =
        (r.insertQuery pk).params_[i]? := fun sql => rfl
    rw [hbound, hparams, hcolumns, getAll, List.filter_filter, RowCommand.operands, entries,
      List.map_map]
    simp only [Bool.and_self]
    rfl

end Record

end CodaDb
