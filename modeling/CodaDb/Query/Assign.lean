import CodaDb.Query.Modify
import CodaDb.Query.Select

/-!
# Assignment between queries

The four classes of queries as one type, copy construction and copy assignment on it, and when an
assigned query renders the text of its source.
-/

namespace CodaDb

open SqlText

/-- The queries with a where builder. -/
inductive WhereQuery where
  | select (q : SelectQuery)
  | update (q : UpdateQuery)
  | delete (q : DeleteQuery)

namespace WhereQuery

def base : WhereQuery → Query
  | .select q => q.toQuery
  | .update q => q.toQuery
  | .delete q => q.toQuery

def where_ : WhereQuery → WhereBuilder
  | .select q => q.where_
  | .update q => q.where_
  | .delete q => q.where_

/-- The same object with its base changed. -/
def withBase (base : Query) : WhereQuery → WhereQuery
  | .select q => .select { q with toQuery := base }
  | .update q => .update { q with toQuery := base }
  | .delete q => .delete { q with toQuery := base }

/-- The same object with its where builder changed. -/
def withWhere (w : WhereBuilder) : WhereQuery → WhereQuery
  | .select q => .select { q with where_ := w }
  | .update q => .update { q with where_ := w }
  | .delete q => .delete { q with where_ := w }

def generateSql : WhereQuery → Option SqlText
  | .select q => some q.generateSql
  | .update q => q.generateSql
  | .delete q => some q.generateSql

/-- `to_sql() const` -/
def toSql (q : WhereQuery) : Option SqlText := q.base.toSqlWith q.generateSql

/-- The copy constructor of the class. -/
def copy : WhereQuery → WhereQuery
  | .select other => .select other.copy
  | .update other => .update other.copy
  | .delete other => .delete other.copy

/-- `operator=` of the class of the two queries; queries of two classes are not assigned. -/
def assign : WhereQuery → WhereQuery → Option WhereQuery
  | .select q, .select other => some (.select (q.assign other))
  | .update q, .update other => some (.update (q.assign other))
  | .delete q, .delete other => some (.delete (q.assign other))
  | _, _ => none

@[simp] lemma base_withBase (b : Query) (q : WhereQuery) : (q.withBase b).base = b := by
  cases q <;> rfl

@[simp] lemma base_withWhere (w : WhereBuilder) (q : WhereQuery) :
    (q.withWhere w).base = q.base := by
  cases q <;> rfl

@[simp] lemma where_withBase (b : Query) (q : WhereQuery) : (q.withBase b).where_ = q.where_ := by
  cases q <;> rfl

@[simp] lemma where_withWhere (w : WhereBuilder) (q : WhereQuery) : (q.withWhere w).where_ = w := by
  cases q <;> rfl

/-- Of the base, a rendering reads the session at most. -/
lemma generateSql_withBase {b : Query} {q : WhereQuery} (h : b.session_ = q.base.session_) :
    (q.withBase b).generateSql = q.generateSql := by
  cases q with
  | select q => exact congrArg some (q.generateSql_base b)
  | update q =>
    simp only [base] at h
    simp only [withBase, generateSql, UpdateQuery.generateSql, h]
  | delete q => rfl

/-- A copy has the members of the original, the pointer of the where builder with them. -/
lemma copy_eq (other : WhereQuery) : other.copy = other.withBase other.base.copy := by
  cases other <;> rfl

/-- Assignment takes everything from the source except the memo. -/
lemma assign_eq {q other r : WhereQuery} (h : q.assign other = some r) :
    r = other.withBase (q.base.assign other.base) := by
  cases q <;> cases other <;> cases h <;> rfl

end WhereQuery

/-- A query of any class. -/
inductive AnyQuery where
  | insert (q : InsertQuery)
  | «where» (q : WhereQuery)

namespace AnyQuery

def base : AnyQuery → Query
  | .insert q => q.toQuery
  | .where q => q.base

def generateSql : AnyQuery → Option SqlText
  | .insert q => q.generateSql
  | .where q => q.generateSql

/-- `to_sql() const` -/
def toSql (q : AnyQuery) : Option SqlText := q.base.toSqlWith q.generateSql

/-- `operator=` of the class of the two queries; queries of two classes are not assigned. -/
def assign : AnyQuery → AnyQuery → Option AnyQuery
  | .insert q, .insert other => some (.insert (q.assign other))
  | .where q, .where other => (q.assign other).map .where
  | _, _ => none

/-- The characters of the text, if there is one. -/
def rendered (q : AnyQuery) : Option String := q.toSql.map render

/-- The memo of the destination does no harm: it is empty, and the source has no memo that is out of
step with its fields, or it is the text of the source. -/
def Assignable (q other : AnyQuery) : Prop :=
  if q.base.sql_.empty then other.rendered = other.generateSql.map render
  else some q.base.sql_.render = other.rendered

lemma base_assign {q other r : AnyQuery} (h : q.assign other = some r) :
    r.base = q.base.assign other.base := by
  cases q <;> cases other
  case insert.insert => cases h; rfl
  case where.where q other =>
    obtain ⟨r', hr, rfl⟩ := Option.map_eq_some_iff.mp h
    rw [WhereQuery.assign_eq hr]
    simp [base]
  all_goals cases h

lemma generateSql_assign {q other r : AnyQuery} (h : q.assign other = some r) :
    r.generateSql = other.generateSql := by
  cases q <;> cases other
  case insert.insert => cases h; rfl
  case where.where q other =>
    obtain ⟨r', hr, rfl⟩ := Option.map_eq_some_iff.mp h
    rw [WhereQuery.assign_eq hr]
    exact WhereQuery.generateSql_withBase rfl
  all_goals cases h

/-- An assigned query renders the text of its source exactly if the memo of the destination does no
harm. -/
theorem assign_rendered_iff {q other r : AnyQuery} (h : q.assign other = some r) :
    r.rendered = other.rendered ↔ Assignable q other := by
  have hr : r.rendered = if q.base.sql_.empty then other.generateSql.map render
      else some q.base.sql_.render := by
    simp only [rendered, toSql, Query.toSqlWith, base_assign h, generateSql_assign h, Query.assign]
    split <;> rfl
  rw [Assignable]
  rw [hr]
  split
  · exact eq_comm
  · rfl

/-- The theorem at a destination that was never rendered. -/
theorem assign_rendered_new :
    ∃ r, (AnyQuery.where (.select (.ofSession 0 { impl_ := .sqlite }))).assign
        (.where (.select (.ofSession 1 { impl_ := .sqlite } [] "posts"))) = some r ∧
      (r.rendered
          = rendered (.where (.select (.ofSession 1 { impl_ := .sqlite } [] "posts"))) ↔
        Assignable (.where (.select (.ofSession 0 { impl_ := .sqlite })))
          (.where (.select (.ofSession 1 { impl_ := .sqlite } [] "posts")))) :=
  ⟨_, rfl, assign_rendered_iff rfl⟩

/-- A destination that was rendered before keeps its old text. -/
theorem assign_rendered_stale :
    ∃ r, (AnyQuery.where
        (.select (SelectQuery.ofSession 0 { impl_ := .sqlite } [] "users").memoise)).assign
        (.where (.select (.ofSession 1 { impl_ := .sqlite } [] "posts"))) = some r ∧
      r.rendered ≠ rendered (.where (.select (.ofSession 1 { impl_ := .sqlite } [] "posts"))) :=
  ⟨_, rfl, by decide⟩

end AnyQuery

end CodaDb
