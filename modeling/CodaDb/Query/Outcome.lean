import CodaDb.Query.Modify
import CodaDb.Sql.Convert

/-!
# What an execution returns

The queries that modify a table step their statement and then reset it. Each back end asks its
client library for the number of changes and for the reset in its own way; here is which outcomes of
the step an execution passes on.
-/

namespace CodaDb

/-- What stepping a statement came to: a number of changes and the id of the last insert, or an
error with its text. -/
inductive StepOutcome where
  | done (changes : Nat) (lastId : Int)
  | failed (error : String)
deriving DecidableEq, Repr

/-- What an execution is to return: the number of changes, or 0 on an error. -/
def StepOutcome.promised : StepOutcome → Nat
  | .done changes _ => changes
  | .failed _ => 0

/-- The `int` that `sqlite3_changes` answers, which is the number of changes if that is one. -/
structure Sqlite.Counter where
  changes : Nat → CInt .int
  exact : ∀ n : Nat, (n : Int) ≤ IntKind.int.max → (changes n).val = n

/-- `sqlite::session::last_number_of_changes`, with the cast of the `int` -/
def Sqlite.lastNumberOfChanges (changes : CInt .int) : Nat :=
  (IntKind.ullong.wrap changes.val).toNat

/-- `postgres::statement::last_number_of_changes` of the text of `PQcmdTuples` -/
def Postgres.lastNumberOfChanges (changes : List Char) : Nat :=
  if changes = [] then 0
  else
    match IntKind.int.stoSigned changes with
    | none => 0
    | some v => (IntKind.ullong.wrap v.val).toNat

/-- The answers of the client libraries: what stepping a statement came to, how SQLite counts, and
the error that `mysql_stmt_reset` reports. -/
structure Client where
  step : Statement → StepOutcome
  counter : Sqlite.Counter
  resetError : Statement → Option String := fun _ => none

/-- The statements of the back ends over their client libraries. `sqlite3_reset` returns the error
of a step that failed. -/
def Client.engine (c : Client) : SessionImpl → Engine
  | .sqlite =>
    { execute := fun stmt =>
        match c.step stmt with
        | .done changes lastId =>
          some (Sqlite.lastNumberOfChanges (c.counter.changes changes), lastId)
        | .failed _ => none
      reset := fun stmt =>
        match c.step stmt with
        | .done _ _ => .ok ()
        | .failed error => .error (.database error) }
  | .mysql =>
    { execute := fun stmt =>
        match c.step stmt with
        | .done changes lastId => some (changes, lastId)
        | .failed _ => none
      reset := fun stmt =>
        match c.resetError stmt with
        | none => .ok ()
        | some error => .error (.database error) }
  | .postgres =>
    { execute := fun stmt =>
        match c.step stmt with
        | .done changes lastId =>
          some (Postgres.lastNumberOfChanges (toString (changes : Int)).toList, lastId)
        | .failed _ => none
      reset := fun _ => .ok () }

/-- The outcomes that an execution passes on: SQLite's if the step did not fail and the number of
changes is an `int`, PostgreSQL's if the number is one, and MySQL's if its reset reports no
error. -/
def Client.Reports (c : Client) (impl : SessionImpl) (stmt : Statement) : Prop :=
  match impl with
  | .sqlite => ∃ changes lastId, c.step stmt = .done changes lastId ∧ changes < 2 ^ 31
  | .mysql => c.resetError stmt = none
  | .postgres => ∀ changes lastId, c.step stmt = .done changes lastId → changes < 2 ^ 31

/-- The queries that modify a table. -/
inductive ModifyingQuery where
  | insert (q : InsertQuery)
  | update (q : UpdateQuery)
  | delete (q : DeleteQuery)

namespace ModifyingQuery

def base : ModifyingQuery → Query
  | .insert q => q.toQuery
  | .update q => q.toQuery
  | .delete q => q.toQuery

def toSql : ModifyingQuery → Option SqlText
  | .insert q => q.toSql
  | .update q => q.toSql
  | .delete q => q.toSql

def isValid : ModifyingQuery → Bool
  | .insert q => q.isValid
  | .update q => q.isValid
  | .delete q => q.isValid

/-- `execute`: the query afterwards, the statement that was run, and the number of changes or an
exception; `none` if the rendering fails. -/
def execute (d : Driver) (e : Engine) :
    ModifyingQuery → Option (ModifyingQuery × Option Statement × Except DbException Nat)
  | .insert q => (q.execute d e).map fun r => (.insert r.1, r.2)
  | .update q => (q.execute d e).map fun r => (.update r.1, r.2)
  | .delete q => (q.execute d e).map fun r => (.delete r.1, r.2)

/-- The statement is prepared and bound: it is the one the query has, or the driver accepts its text
and the parameters. -/
structure Prepared (q : ModifyingQuery) (d : Driver) (stmt : Statement) : Prop where
  valid : q.isValid = true
  ready : ∃ sql, q.toSql = some sql ∧
    (q.base.cache.stale = false ∧ q.base.stmt_ = some stmt ∨
      q.base.cache.stale = true ∧ d.Accepts sql.render q.base.params_ q.base.namedParams_ ∧
        stmt = q.base.statementFor sql)

/-- An execution returns what is promised of the outcome of the step, and leaves no parameters. -/
def Completes (q : ModifyingQuery) (d : Driver) (e : Engine) (stmt : Statement)
    (outcome : StepOutcome) : Prop :=
  ∃ q', q.execute d e = some (q', some stmt, .ok outcome.promised) ∧ q'.base.params_ = [] ∧
    q'.base.namedParams_ = ∅

end ModifyingQuery

/-- A query with a statement that is prepared and bound runs it and leaves no parameters. -/
lemma Query.modify_prepared {q : Query} {d : Driver} {sql : SqlText} {stmt : Statement}
    (h : q.cache.stale = false ∧ q.stmt_ = some stmt ∨
      q.cache.stale = true ∧ d.Accepts sql.render q.params_ q.namedParams_ ∧
        stmt = q.statementFor sql) (e : Engine) :
    ∃ base, q.modify d e sql = (base, some stmt, (e.reset stmt).map fun () => e.execute stmt) ∧
      base.params_ = [] ∧ base.namedParams_ = ∅ := by
  obtain ⟨hstale, hstmt⟩ | ⟨hstale, hd, rfl⟩ := h
  · have hspec := q.modify_spec d e sql
    generalize q.modify d e sql = r at hspec ⊢
    cases hspec with
    | refused _ hnot => cases hstale.symm.trans hnot
    | unbound _ _ hnot => cases hstale.symm.trans hnot
    | loaded hnot => cases hstale.symm.trans hnot
    | kept stmt' _ hstmt' =>
      obtain rfl := Option.some.inj (hstmt.symm.trans hstmt')
      exact ⟨_, rfl, rfl, rfl⟩
  · exact ⟨_, Query.modify_stale hstale hd e, rfl, rfl⟩

namespace ModifyingQuery

variable {q : ModifyingQuery} {d : Driver} {stmt : Statement}

/-- The three classes execute what they share. -/
lemma execute_eq (hvalid : q.isValid = true) {sql : SqlText} (hsql : q.toSql = some sql)
    (d : Driver) (e : Engine) :
    ∃ q', q.execute d e = some (q', (q.base.modify d e sql).2.1,
        (q.base.modify d e sql).2.2.map changesOf) ∧
      q'.base = (q.base.modify d e sql).1 := by
  cases q with
  | insert q =>
    obtain ⟨changes, lastId, hexecute⟩ := InsertQuery.execute_eq hvalid hsql d e
    rw [execute, hexecute]
    exact ⟨.insert _, rfl, rfl⟩
  | update q =>
    obtain ⟨changes, hexecute⟩ := UpdateQuery.execute_eq hvalid hsql d e
    rw [execute, hexecute]
    exact ⟨.update _, rfl, rfl⟩
  | delete q =>
    obtain ⟨changes, hexecute⟩ := DeleteQuery.execute_eq hvalid hsql d e
    rw [execute, hexecute]
    exact ⟨.delete _, rfl, rfl⟩

/-- An execution runs the prepared statement, and leaves no parameters even if its reset throws. -/
lemma Prepared.execute (h : q.Prepared d stmt) (e : Engine) :
    ∃ q', q.execute d e = some (q', some stmt,
        (e.reset stmt).map fun () => changesOf (e.execute stmt)) ∧
      q'.base.params_ = [] ∧ q'.base.namedParams_ = ∅ := by
  obtain ⟨hvalid, sql, hsql, hready⟩ := h
  obtain ⟨base, hmodify, hparams, hnamed⟩ := Query.modify_prepared hready e
  obtain ⟨q', hexecute, hbase⟩ := execute_eq hvalid hsql d e
  rw [hmodify] at hexecute hbase
  refine ⟨q', ?_, hbase ▸ hparams, hbase ▸ hnamed⟩
  rw [hexecute]
  cases e.reset stmt with
  | error ex => rfl
  | ok => rfl

lemma Prepared.completes_iff (h : q.Prepared d stmt) (e : Engine) (outcome : StepOutcome) :
    q.Completes d e stmt outcome ↔
      e.reset stmt = .ok () ∧ changesOf (e.execute stmt) = outcome.promised := by
  obtain ⟨q', hexecute, hparams, hnamed⟩ := h.execute e
  constructor
  · rintro ⟨q'', hexecute', -⟩
    have hout := (Prod.mk.inj (Prod.mk.inj
      (Option.some.inj (hexecute.symm.trans hexecute'))).2).2
    cases hreset : e.reset stmt with
    | error ex =>
      rw [hreset] at hout
      cases hout
    | ok =>
      rw [hreset] at hout
      exact ⟨rfl, Except.ok.inj hout⟩
  · rintro ⟨hreset, hchanges⟩
    rw [hreset] at hexecute
    exact ⟨q', hchanges ▸ hexecute, hparams, hnamed⟩

end ModifyingQuery

/-! ### The number of changes -/

/-- A nonnegative number keeps its value as an `unsigned long long`, a negative one becomes
large. -/
lemma IntKind.wrap_ullong {v : Int} (h : IntKind.int.min ≤ v ∧ v ≤ IntKind.int.max) :
    IntKind.ullong.wrap v = if 0 ≤ v then v else v + 2 ^ 64 := by
  simp only [IntKind.min, IntKind.max] at h
  split
  · exact IntKind.wrap_of_mem ⟨by simp only [IntKind.min]; omega, by simp only [IntKind.max]; omega⟩
  · have hmem : IntKind.ullong.min ≤ v + 2 ^ 64 ∧ v + 2 ^ 64 ≤ IntKind.ullong.max := by
      simp only [IntKind.min, IntKind.max]
      omega
    rw [IntKind.wrap_eq_iff hmem]
    exact ⟨-1, by simp only [IntKind.bits]; omega⟩

/-- SQLite's number is right if it is an `int`; the cast of another one is no number of changes. -/
lemma Sqlite.lastNumberOfChanges_iff (c : Sqlite.Counter) {n : Nat} (hn : n < 2 ^ 63) :
    Sqlite.lastNumberOfChanges (c.changes n) = n ↔ n < 2 ^ 31 := by
  have hexact : n < 2 ^ 31 → (c.changes n).val = n := fun hlt =>
    c.exact n (by simp only [IntKind.max]; omega)
  have hrange := (c.changes n).2
  rw [Sqlite.lastNumberOfChanges, IntKind.wrap_ullong hrange]
  simp only [IntKind.min, IntKind.max] at hrange
  constructor
  · split <;> omega
  · intro hlt
    rw [hexact hlt, if_pos (Int.natCast_nonneg n), Int.toNat_natCast]

/-- PostgreSQL's number is right if `std::stoi` can read it, and 0 otherwise. -/
lemma Postgres.lastNumberOfChanges_iff (n : Nat) :
    Postgres.lastNumberOfChanges (toString (n : Int)).toList = n ↔ n < 2 ^ 31 := by
  have hne : (toString (n : Int)).toList ≠ [] := by
    rw [Numeral.toList_toString]
    exact List.append_ne_nil_of_right_ne_nil _ Nat.toDigits_ne_nil
  rw [Postgres.lastNumberOfChanges, if_neg hne, IntKind.stoSigned_toString, IntKind.check]
  split
  · next hnone =>
    have hrange : ¬(IntKind.int.min ≤ (n : Int) ∧ (n : Int) ≤ IntKind.int.max) := by
      by_contra hmem
      rw [dif_pos hmem] at hnone
      cases hnone
    simp only [IntKind.min, IntKind.max] at hrange
    omega
  · next v hsome =>
    obtain ⟨hmem, hv⟩ := Option.dite_none_right_eq_some.mp hsome
    obtain rfl := Option.some.inj hv
    rw [IntKind.wrap_ullong hmem, if_pos (Int.natCast_nonneg n), Int.toNat_natCast]
    simp only [IntKind.min, IntKind.max] at hmem
    omega

/-- What a back end makes of the outcome of a step. SQLite counts in 64 bits. -/
lemma Client.reports_iff (c : Client) {impl : SessionImpl} {stmt : Statement}
    (hcount : impl = .sqlite → ∀ changes lastId, c.step stmt = .done changes lastId →
      changes < 2 ^ 63) :
    (c.engine impl).reset stmt = .ok () ∧
        changesOf ((c.engine impl).execute stmt) = (c.step stmt).promised ↔
      c.Reports impl stmt := by
  cases impl with
  | sqlite =>
    simp only [engine, Reports]
    cases hstep : c.step stmt with
    | failed error => exact iff_of_false nofun nofun
    | done changes lastId =>
      have hiff := Sqlite.lastNumberOfChanges_iff c.counter (hcount rfl changes lastId hstep)
      refine (and_iff_right rfl).trans (hiff.trans ?_)
      constructor
      · exact fun hlt => ⟨changes, lastId, rfl, hlt⟩
      · rintro ⟨changes', lastId', hdone, hlt⟩
        obtain ⟨rfl, rfl⟩ := StepOutcome.done.inj hdone
        exact hlt
  | mysql =>
    simp only [engine, Reports]
    have hchanges : changesOf (match c.step stmt with
        | .done changes lastId => some (changes, lastId)
        | .failed _ => none) = (c.step stmt).promised := by
      cases c.step stmt <;> rfl
    rw [and_iff_left hchanges]
    cases c.resetError stmt with
    | none => exact iff_of_true rfl rfl
    | some error => exact iff_of_false nofun nofun
  | postgres =>
    simp only [engine, Reports]
    cases hstep : c.step stmt with
    | failed error => exact iff_of_true ⟨trivial, rfl⟩ nofun
    | done changes lastId =>
      refine (and_iff_right trivial).trans ((Postgres.lastNumberOfChanges_iff changes).trans ?_)
      constructor
      · intro hlt changes' lastId' hdone
        obtain ⟨rfl, rfl⟩ := StepOutcome.done.inj hdone
        exact hlt
      · exact fun h => h changes lastId rfl

namespace ModifyingQuery

/-- A prepared query returns what is promised exactly for the outcomes that the back end passes
on. -/
theorem completes_engine_iff {q : ModifyingQuery} {d : Driver} {stmt : Statement}
    (h : q.Prepared d stmt) (c : Client) (impl : SessionImpl)
    (hcount : impl = .sqlite → ∀ changes lastId, c.step stmt = .done changes lastId →
      changes < 2 ^ 63) :
    q.Completes d (c.engine impl) stmt (c.step stmt) ↔ c.Reports impl stmt :=
  (h.completes_iff _ _).trans (c.reports_iff hcount)

/-- A delete query that has not been executed. -/
def users : DeleteQuery := .ofSession 0 { impl_ := .sqlite } "users"

def usersStatement : Statement := users.statementFor users.generateSql

lemma users_prepared : (delete users).Prepared .ok usersStatement :=
  ⟨rfl, users.generateSql, rfl, .inr ⟨rfl, Driver.ok_accepts .., rfl⟩⟩

/-- A library whose steps all come to the same. -/
def client (outcome : StepOutcome) : Client where
  step _ := outcome
  counter :=
    { changes := fun n => IntKind.int.convert n
      exact := fun n hn => by
        have hrange : IntKind.int.min ≤ (n : Int) ∧ (n : Int) ≤ IntKind.int.max :=
          ⟨Int.le_trans (by decide) (Int.natCast_nonneg n), hn⟩
        exact (IntKind.convert_val (k := .int) nofun n).trans (IntKind.wrap_of_mem hrange) }

/-- The theorem at a deletion of two rows. -/
theorem completes_engine_iff_users :
    (delete users).Completes .ok ((client (.done 2 0)).engine .sqlite) usersStatement (.done 2 0) ↔
      (client (.done 2 0)).Reports .sqlite usersStatement :=
  completes_engine_iff users_prepared (client (.done 2 0)) .sqlite fun _ changes lastId hstep => by
    obtain ⟨rfl, rfl⟩ := StepOutcome.done.inj hstep
    decide

/-- A constraint that fails makes an execution on SQLite throw. -/
theorem not_completes_failed :
    ¬(delete users).Completes .ok
      ((client (.failed "FOREIGN KEY constraint failed")).engine .sqlite) usersStatement
      (.failed "FOREIGN KEY constraint failed") := by
  rw [users_prepared.completes_iff]
  rintro ⟨hreset, -⟩
  cases hreset

end ModifyingQuery

end CodaDb
