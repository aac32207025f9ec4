import CodaDb.Query.Select

/-!
# `count`

`count` replaces the column list while it prepares and executes, and puts it back at the end. The
memo of the text and the prepared statement stay what they became in between.
-/

namespace CodaDb

open SqlText

namespace SelectQuery

/-- The query with the column list `count` uses. -/
def counting (q : SelectQuery) : SelectQuery := { q with columns_ := ["COUNT(*)"] }

/-- The text of the current fields with the column list replaced by `COUNT(*)`. -/
def countSql (q : SelectQuery) : SqlText := q.counting.generateSql

/-- The SQL of the statement an `execute` runs. -/
def executedSql (q : SelectQuery) (d : Driver) : Option String :=
  (q.execute d).2.bind fun stmt => stmt.sql.map render

/-- `count` runs the counting text and nothing but this text, and afterwards, whatever the driver
and the database answered, the text of the query and the SQL its next `execute` runs are what they
would have been. -/
structure CountsAside (q : SelectQuery) : Prop where
  runs : ∀ answer, (q.count .ok answer).2.1.isSome = true
  counts : ∀ d answer stmt, (q.count d answer).2.1 = some stmt →
    stmt.sql.map render = some q.countSql.render
  toSql : ∀ d answer, (q.count d answer).1.toSql.render = q.toSql.render
  execute : ∀ d answer d' text, q.executedSql d' = some text →
    (q.count d answer).1.executedSql d' = some text

/-- The text and the statement are those `count` needs already: the query is modified and its text
is the counting text, or it is not, it has a statement for the counting text, and it either keeps a
memo or generates the counting text itself. -/
def CountReady (q : SelectQuery) : Prop :=
  if q.dirty_ then q.toSql.render = q.countSql.render
  else q.stmt_.bind (fun stmt => stmt.sql.map render) = some q.countSql.render ∧
    (q.sql_.render ≠ "" ∨ q.generateSql.render = q.countSql.render)

/-! ### What `count` does -/

/-- `count` prepares and runs what `execute` would with the counting columns, and restores the
columns. It is positive only if nothing was thrown and the database answers a positive number. -/
lemma count_eq (q : SelectQuery) (d : Driver) (answer : Statement → Except DbException Int) :
    (q.count d answer).1 = { (q.counting.prepare d).1 with columns_ := q.columns_ } ∧
      (q.count d answer).2.1 = (q.counting.execute d).2 ∧
      (0 < (q.count d answer).2.2 ↔
        ∃ stmt n, (q.counting.execute d).2 = some stmt ∧ answer stmt = .ok n ∧ 0 < n) := by
  rw [execute_eq]
  cases hok : (q.counting.prepare d).2 with
  | error e =>
    have hprepare : SelectQuery.prepare { q with columns_ := ["COUNT(*)"] } d =
        ((q.counting.prepare d).1, .error e) := Prod.ext rfl hok
    simp [count, hprepare]
  | ok =>
    have hprepare : SelectQuery.prepare { q with columns_ := ["COUNT(*)"] } d =
        ((q.counting.prepare d).1, .ok ()) := Prod.ext rfl hok
    have hagain : (q.counting.prepare d).1.execute d =
        ((q.counting.prepare d).1, (q.counting.prepare d).1.stmt_) := by
      rw [execute_eq, prepare_prepare hok]
      rfl
    simp only [count, hprepare, hagain, if_true]
    cases hstmt : (q.counting.prepare d).1.stmt_ with
    | none => simp
    | some stmt =>
      dsimp only
      cases hanswer : answer stmt <;> simp [hanswer]

/-- After `count` only the base of the query is different, as `prepare` left it. -/
lemma count_query (q : SelectQuery) (d : Driver) (answer : Statement → Except DbException Int) :
    ∃ base out, (q.count d answer).1 = { q with toQuery := base } ∧
      Query.Prepares q.counting.memoise.toQuery d q.counting.toSql (base, out) := by
  obtain ⟨base, heq, hbase⟩ := q.counting.prepare_spec d
  refine ⟨base, _, ?_, hbase⟩
  rw [(q.count_eq d answer).1, heq]
  rfl

lemma counting_toSql (q : SelectQuery) :
    q.counting.toSql = if q.sql_.empty then q.countSql else q.sql_ := rfl

/-- The text `count` leaves is the one it prepared or would have prepared. -/
lemma count_toSql (q : SelectQuery) (d : Driver) (answer : Statement → Except DbException Int) :
    (q.count d answer).1.toSql = q.counting.toSql := by
  obtain ⟨base, out, heq, hbase⟩ := q.count_query d answer
  have hsql : base.sql_ = q.counting.toSql := hbase.memo
  rw [heq, ← hsql]
  exact toSql_of_memo (hsql ▸ q.counting.toSql_ne_empty)

/-- The text is kept if there is a memo, or if the generated text is the counting text anyway. -/
lemma counting_toSql_eq_iff (q : SelectQuery) :
    q.counting.toSql.render = q.toSql.render ↔
      q.sql_.render ≠ "" ∨ q.generateSql.render = q.countSql.render := by
  by_cases hmemo : q.sql_.render = ""
  · rw [counting_toSql, toSql_of_empty hmemo, if_pos (empty_eq_true.mpr hmemo)]
    exact ⟨fun h => .inr h.symm, fun h => (h.resolve_left (absurd hmemo)).symm⟩
  · rw [counting_toSql, toSql_of_memo hmemo]
    simp [hmemo]

/-- With the text of the query already the counting text, both are what `count` prepares. -/
lemma counting_toSql_of_eq {q : SelectQuery} (h : q.toSql.render = q.countSql.render) :
    q.counting.toSql.render = q.toSql.render := by
  rw [counting_toSql_eq_iff]
  by_cases hmemo : q.sql_.render = ""
  · exact .inr (by rwa [toSql_of_empty hmemo] at h)
  · exact .inl hmemo

/-! ### When it is an aside -/

lemma executedSql_kept {q : SelectQuery} (h : q.cache.stale = false) (d : Driver) :
    q.executedSql d = q.stmt_.bind fun stmt => stmt.sql.map render := by
  rw [executedSql, execute_kept h]

lemma executedSql_stale {q : SelectQuery} (h : q.cache.stale = true) (d : Driver) (text : String) :
    q.executedSql d = some text ↔
      d.Accepts q.toSql.render q.params_ q.namedParams_ ∧ q.toSql.render = text := by
  simp only [executedSql, Option.bind_eq_some_iff, execute_stale h]
  constructor
  · rintro ⟨stmt, ⟨hd, rfl⟩, htext⟩
    exact ⟨hd, Option.some.inj htext⟩
  · rintro ⟨hd, rfl⟩
    exact ⟨_, ⟨hd, rfl⟩, rfl⟩

lemma executedSql_driver_ok {q : SelectQuery} (h : q.cache.stale = true) :
    q.executedSql .ok = some q.toSql.render :=
  (executedSql_stale h .ok _).mpr ⟨Driver.ok_accepts .., rfl⟩

/-- A modified query whose text is the counting text: `count` prepares that text again, and so does
the next `execute`, if `count` failed to. -/
lemma countsAside_of_dirty {q : SelectQuery} (hdirty : q.dirty_ = true)
    (htext : q.toSql.render = q.countSql.render) : CountsAside q := by
  have hstale : q.counting.cache.stale = true := Query.stale_of_dirty hdirty
  have hsame := counting_toSql_of_eq htext
  constructor
  case runs =>
    intro answer
    rw [(q.count_eq .ok answer).2.1, Option.isSome_iff_exists]
    exact ⟨_, (execute_stale hstale .ok _).mpr ⟨Driver.ok_accepts .., rfl⟩⟩
  case counts =>
    intro d answer stmt hran
    rw [(q.count_eq d answer).2.1] at hran
    obtain ⟨-, rfl⟩ := (execute_stale hstale d stmt).mp hran
    exact congrArg some (hsame.trans htext)
  case toSql =>
    intro d answer
    rw [count_toSql, hsame]
  case execute =>
    intro d answer d' text hexec
    obtain ⟨hd, rfl⟩ := (executedSql_stale (q := q) hstale d' text).mp hexec
    have htoSql := q.count_toSql d answer
    obtain ⟨base, out, heq, hbase⟩ := q.count_query d answer
    rw [heq] at htoSql ⊢
    generalize hr : (base, out) = r at hbase
    cases hbase with
    | kept hkept => cases hstale.symm.trans hkept
    | refused | unbound =>
      cases hr
      refine (executedSql_stale (Query.stale_of_dirty ?_) d' _).mpr ⟨?_, ?_⟩
      · exact hdirty
      · rw [htoSql, hsame]
        exact hd
      · rw [htoSql, hsame]
    | loaded =>
      cases hr
      rw [executedSql_kept rfl]
      exact congrArg some hsame

/-- A query with an up to date statement for the counting text: `count` prepares nothing. -/
lemma countsAside_of_kept {q : SelectQuery} (hdirty : q.dirty_ = false)
    (hstmt : q.stmt_.bind (fun stmt => stmt.sql.map render) = some q.countSql.render)
    (htext : q.sql_.render ≠ "" ∨ q.generateSql.render = q.countSql.render) : CountsAside q := by
  obtain ⟨stmt, hsome, hsql⟩ := Option.bind_eq_some_iff.mp hstmt
  have hkept : q.counting.cache.stale = false := Query.kept_of_clean hdirty hsome
  constructor
  case runs =>
    intro answer
    rw [(q.count_eq .ok answer).2.1, execute_kept hkept]
    exact Option.isSome_iff_exists.mpr ⟨stmt, hsome⟩
  case counts =>
    intro d answer stmt' hran
    rw [(q.count_eq d answer).2.1, execute_kept hkept] at hran
    obtain rfl := Option.some.inj (hsome.symm.trans hran)
    exact hsql
  case toSql =>
    intro d answer
    rw [count_toSql, q.counting_toSql_eq_iff.mpr htext]
  case execute =>
    intro d answer d' text hexec
    obtain ⟨base, out, heq, hbase⟩ := q.count_query d answer
    rw [executedSql_kept (q := q) hkept] at hexec
    rw [heq]
    generalize hr : (base, out) = r at hbase
    cases hbase with
    | kept =>
      cases hr
      exact (executedSql_kept (by exact hkept) d').trans hexec
    | refused e hstale | unbound e stmt hstale | loaded hstale =>
      cases hkept.symm.trans hstale

/-- A driver that refuses every text. -/
def refusing : Driver := { prepare := fun _ => some (.database "no such table") }

/-- A query that was never modified nor executed: if `count` fails, the statement it leaves behind
was never prepared, and the next `execute` takes it for prepared. -/
lemma not_countsAside_of_new {q : SelectQuery} (hdirty : q.dirty_ = false)
    (hstmt : q.stmt_ = none) : ¬CountsAside q := by
  intro h
  have hstale : q.cache.stale = true := Query.stale_of_none hstmt
  have hnext := h.execute refusing (fun _ => .ok 0) .ok _ (executedSql_driver_ok hstale)
  obtain ⟨base, out, heq, hbase⟩ := q.count_query refusing fun _ => .ok 0
  rw [heq] at hnext
  generalize hr : (base, out) = r at hbase
  cases hbase with
  | kept hkept => cases hstale.symm.trans hkept
  | refused =>
    cases hr
    have hkept :
        (Query.cache { q.counting.memoise.toQuery with stmt_ := some {} }).stale = false :=
      Query.kept_of_clean hdirty rfl
    rw [executedSql_kept (by exact hkept)] at hnext
    cases hnext
  | unbound e stmt _ hprep => cases hprep
  | loaded _ hd => exact absurd hd.prepare (by simp [refusing])

/-- `count` is an aside exactly for the queries that are ready for it. -/
theorem countsAside_iff (q : SelectQuery) : CountsAside q ↔ CountReady q := by
  rw [CountReady]
  constructor
  · intro h
    have htoSql := h.toSql .ok fun _ => .ok 0
    rw [count_toSql] at htoSql
    obtain ⟨stmt, hran⟩ := Option.isSome_iff_exists.mp (h.runs fun _ => .ok 0)
    have hsql := h.counts .ok (fun _ => .ok 0) stmt hran
    rw [(q.count_eq .ok _).2.1] at hran
    cases hdirty : q.dirty_ with
    | true =>
      obtain ⟨-, rfl⟩ :=
        (execute_stale (q := q.counting) (Query.stale_of_dirty hdirty) .ok stmt).mp hran
      simpa [← htoSql] using Option.some.inj hsql
    | false =>
      cases hstmt : q.stmt_ with
      | none => exact absurd h (not_countsAside_of_new hdirty hstmt)
      | some stmt' =>
        have hkept : q.counting.cache.stale = false := Query.kept_of_clean hdirty hstmt
        rw [execute_kept hkept] at hran
        obtain rfl := Option.some.inj (hstmt.symm.trans hran)
        exact ⟨hsql, q.counting_toSql_eq_iff.mp htoSql⟩
  · intro h
    cases hdirty : q.dirty_ with
    | true => exact countsAside_of_dirty hdirty (by simpa [hdirty] using h)
    | false =>
      simp only [hdirty] at h
      exact countsAside_of_kept hdirty h.1 h.2

/-- After a successful `count` the query goes on selecting the count. -/
theorem count_not_aside_users :
    ¬CountsAside (ofSession 0 { impl_ := .sqlite } [] "users") := by
  intro h
  have htoSql := h.toSql .ok fun _ => .ok 3
  exact absurd htoSql (by decide)

end SelectQuery

end CodaDb
