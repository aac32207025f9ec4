import CodaDb.Query.Select

/-!
# Copies of queries

What the first execution of a copy or of a moved query runs.
-/

namespace CodaDb

open SqlText

namespace Statement

/-- Two statements with the same SQL text and the same bound values. -/
def Same (s s' : Statement) : Prop :=
  s.sql.map render = s'.sql.map render ∧ s.bound = s'.bound ∧ s.namedBound = s'.namedBound

lemma Same.refl (s : Statement) : s.Same s := ⟨rfl, rfl, rfl⟩

end Statement

/-- The two ways to construct a query from another one. -/
inductive Construction where
  | copy | move
deriving DecidableEq, Repr

def Construction.apply : Construction → SelectQuery → SelectQuery
  | .copy, q => q.copy
  | .move, q => q.move

namespace SelectQuery

/-- Whatever statement `q` would run, an execution of `c` runs the same. -/
def RunsAs (c q : SelectQuery) : Prop :=
  ∀ d stmt, (q.execute d).2 = some stmt → ∃ stmt', (c.execute d).2 = some stmt' ∧ stmt'.Same stmt

/-- A construction is harmless if the query has no statement yet (and a moved query no memo that is
out of step with its fields), or is not modified, or was modified back to what its statement is. -/
def Constructible (how : Construction) (q : SelectQuery) : Prop :=
  match q.stmt_ with
  | none => how = .copy ∨ q.toSql.render = q.generateSql.render
  | some stmt => q.dirty_ = false ∨ stmt.Same (q.statementFor q.toSql)

/-- The text of a new object: a copy has the memo, a moved one generates its text. -/
lemma apply_toSql (how : Construction) (q : SelectQuery) :
    (how.apply q).toSql = if how = .copy then q.toSql else q.generateSql := by
  cases how with
  | copy => simp [Construction.apply, copy, toSql, Query.copy]
  | move => simp [Construction.apply, move, toSql, Query.move]

lemma apply_stmt (how : Construction) (q : SelectQuery) : (how.apply q).stmt_ = q.stmt_ := by
  cases how <;> rfl

lemma apply_statementFor (how : Construction) (q : SelectQuery) :
    (how.apply q).statementFor = q.statementFor := by
  cases how <;> rfl

/-- A new object is not marked modified: it is stale only without a statement. -/
lemma apply_stale (how : Construction) (q : SelectQuery) :
    (how.apply q).cache.stale = q.stmt_.isNone := by
  cases how <;> simp [Construction.apply, copy, move, Query.copy, Query.move, Query.stale_eq]

/-- A stale query and a stale new object of it run the same if they have the same text, and only
then. -/
lemma runsAs_iff_of_stale {how : Construction} {q : SelectQuery} (hstmt : q.stmt_ = none) :
    (how.apply q).RunsAs q ↔ (how.apply q).toSql.render = q.toSql.render := by
  have hstale : q.cache.stale = true := Query.stale_of_none hstmt
  have hstale' : (how.apply q).cache.stale = true := by simp [apply_stale, hstmt]
  have hparams : (how.apply q).params_ = q.params_ ∧
      (how.apply q).namedParams_ = q.namedParams_ := by
    cases how <;> exact ⟨rfl, rfl⟩
  constructor
  · intro h
    obtain ⟨stmt', hrun, hsql, -⟩ := h .ok _ ((execute_stale hstale .ok _).mpr
      ⟨Driver.ok_accepts .., rfl⟩)
    obtain ⟨-, rfl⟩ := (execute_stale hstale' .ok stmt').mp hrun
    exact Option.some.inj hsql
  · intro htext d stmt hrun
    obtain ⟨hd, rfl⟩ := (execute_stale hstale d stmt).mp hrun
    refine ⟨_, (execute_stale hstale' d _).mpr ⟨?_, rfl⟩, ?_⟩
    · rwa [htext, hparams.1, hparams.2]
    · rw [apply_statementFor]
      exact ⟨congrArg some htext, rfl, rfl⟩

/-- A new object with a statement runs that statement as it is. -/
lemma execute_apply_of_some {how : Construction} {q : SelectQuery} {stmt : Statement}
    (hstmt : q.stmt_ = some stmt) (d : Driver) : ((how.apply q).execute d).2 = some stmt := by
  rw [execute_kept (by simp [apply_stale, hstmt]), apply_stmt, hstmt]

/-- The first execution of a copy or of a moved query runs what the original would have run exactly
if the construction is harmless. -/
theorem construct_runsAs_iff (how : Construction) (q : SelectQuery) :
    (how.apply q).RunsAs q ↔ Constructible how q := by
  rw [Constructible]
  cases hstmt : q.stmt_ with
  | none =>
    rw [runsAs_iff_of_stale hstmt, apply_toSql]
    cases how <;> simp [eq_comm]
  | some stmt =>
    cases hdirty : q.dirty_ with
    | false =>
      have hkept : q.cache.stale = false := Query.kept_of_clean hdirty hstmt
      refine iff_of_true (fun d stmt' hrun => ?_) (.inl rfl)
      rw [execute_kept hkept, hstmt] at hrun
      obtain rfl := Option.some.inj hrun
      exact ⟨stmt, execute_apply_of_some hstmt d, .refl stmt⟩
    | true =>
      have hstale : q.cache.stale = true := Query.stale_of_dirty hdirty
      constructor
      · intro h
        obtain ⟨stmt', hrun, hsame⟩ := h .ok _ ((execute_stale hstale .ok _).mpr
          ⟨Driver.ok_accepts .., rfl⟩)
        obtain rfl := Option.some.inj ((execute_apply_of_some hstmt .ok).symm.trans hrun)
        exact .inr hsame
      · intro h d stmt' hrun
        obtain ⟨-, rfl⟩ := (execute_stale hstale d stmt').mp hrun
        exact ⟨stmt, execute_apply_of_some hstmt d, h.resolve_left (by decide)⟩

/-- A query that was executed and then given a condition: the copy still selects every row. -/
theorem copy_not_runsAs_users :
    ¬(Construction.copy.apply
        (((ofSession 0 { impl_ := .sqlite } [] "users").execute .ok).1.append .reset
          (Op.equals (.string "name") (.string "bob")))).RunsAs
      (((ofSession 0 { impl_ := .sqlite } [] "users").execute .ok).1.append .reset
        (Op.equals (.string "name") (.string "bob"))) := by
  intro h
  obtain ⟨stmt, hrun, hsql, -⟩ := h .ok _ rfl
  obtain rfl := Option.some.inj hrun
  exact absurd hsql (by decide)

end SelectQuery

end CodaDb
