import CodaDb.Query.Base
import CodaDb.Where.Clause
import CodaDb.Where.Operator

/-!
# `where_builder`

A where clause that renders operators into condition texts and binds their operands into the query
its pointer `binder_` leads to. The pointer is an address; the operations take the query it leads to
and return it with the new bindings.
-/

namespace CodaDb

open SqlText

abbrev Addr := Nat

/-- The three ways to hand an operator to a builder: `reset`, `operator&&` and `operator||`. -/
inductive Connective where
  | reset | and | or
deriving DecidableEq, Repr

structure WhereBuilder extends WhereClause where
  binder_ : Addr
  session_ : SessionImpl

namespace SqlOperator

/-- The values `where_builder::bind` sends to consecutive new indexes. Both ends of a range go to
one index, where the second replaces the first. -/
def boundValues : SqlOperator → List SqlValue
  | ⟨_, _, .in_, vs⟩ => vs
  | ⟨_, _, .between, (_, high)⟩ => [high]
  | ⟨_, _, .eq, v⟩ | ⟨_, _, .like, v⟩ | ⟨_, _, .isnull, v⟩ | ⟨_, _, .greater, v⟩
  | ⟨_, _, .lesser, v⟩ | ⟨_, _, .eqGreater, v⟩ | ⟨_, _, .eqLesser, v⟩ =>
    if Helper.isNamed v then [] else [v]

lemma boundValues_eq (o : UnnamedOperator) : o.1.boundValues = [o.operand] := by
  obtain ⟨⟨neg, col, t, v⟩, ⟨hin, hbetween⟩, hnamed⟩ := o
  cases t with
  | in_ => exact absurd rfl hin
  | between => exact absurd rfl hbetween
  | _ =>
    have hv : Helper.isNamed v = false := hnamed
    simp [boundValues, hv, UnnamedOperator.operand]

end SqlOperator

namespace WhereBuilder

/-- The loop over `rvalues_` in `where_builder::bind`. -/
def bindFrom (binder : Query) (index : Nat) : List SqlValue → Except DbException Query
  | [] => .ok binder
  | v :: vs => do
    let binder ← binder.bind index v
    bindFrom binder (index + 1) vs

/-- `where_builder::bind(size_t, const sql_operator &)`, on the query behind `binder_` -/
def bindOp (binder : Query) (index : Nat) : SqlOperator → Except DbException Query
  | ⟨_, _, .in_, vs⟩ => bindFrom binder index vs
  | ⟨_, _, .between, (low, high)⟩ => do
    let binder ← binder.bind index low
    binder.bind index high
  | ⟨_, _, .eq, v⟩ | ⟨_, _, .like, v⟩ | ⟨_, _, .isnull, v⟩ | ⟨_, _, .greater, v⟩
  | ⟨_, _, .lesser, v⟩ | ⟨_, _, .eqGreater, v⟩ | ⟨_, _, .eqLesser, v⟩ =>
    if Helper.isNamed v then .ok binder else binder.bind index v

/-- `where_builder::to_sql(size_t, const sql_operator &)` -/
def toSqlOp (w : WhereBuilder) (index : Nat) (o : SqlOperator) : SqlText :=
  lit o.lvalue_.toString ++ lit " " ++
    lit (if o.not_ then o.type_.notTypeValue else o.type_.typeValue) ++ lit " " ++
    w.session_.bindParam index

/-- `reset(const sql_operator &)` -/
def resetOp (w : WhereBuilder) (binder : Query) (o : SqlOperator) :
    Except DbException (WhereBuilder × Query) := do
  let index := binder.numOfBindings + 1
  let w' := { w with toWhereClause := w.toWhereClause.resetText (w.toSqlOp index o) }
  return (w', ← bindOp binder index o)

/-- `operator&&(const sql_operator &)` -/
def andOp (w : WhereBuilder) (binder : Query) (o : SqlOperator) :
    Except DbException (WhereBuilder × Query) := do
  let index := binder.numOfBindings + 1
  let w' := { w with toWhereClause := w.toWhereClause.andText (w.toSqlOp index o) }
  return (w', ← bindOp binder index o)

/-- `operator||(const sql_operator &)`, which appends with `where_clause::operator&&` as well -/
def orOp (w : WhereBuilder) (binder : Query) (o : SqlOperator) :
    Except DbException (WhereBuilder × Query) := do
  let index := binder.numOfBindings + 1
  let w' := { w with toWhereClause := w.toWhereClause.andText (w.toSqlOp index o) }
  return (w', ← bindOp binder index o)

def append (how : Connective) (w : WhereBuilder) (binder : Query) (o : SqlOperator) :
    Except DbException (WhereBuilder × Query) :=
  match how with
  | .reset => w.resetOp binder o
  | .and => w.andOp binder o
  | .or => w.orOp binder o

section Spec

/-- The query after the operands of `o` were bound behind its last parameter. -/
def boundBy (binder : Query) (o : SqlOperator) : Query :=
  if o.boundValues = [] then binder
  else Query.setModified { binder with params_ := binder.params_ ++ o.boundValues }

/-- The condition text an append renders: for the index after the last parameter. -/
def condition (w : WhereBuilder) (binder : Query) (o : SqlOperator) : SqlText :=
  w.toSqlOp (binder.params_.length + 1) o

/-- What an append does to the clause of a builder, given the condition text. -/
def extend (how : Connective) (clause : WhereClause) (condition : SqlText) : WhereClause :=
  match how with
  | .reset => clause.resetText condition
  | .and | .or => clause.andText condition

lemma bindFrom_next (binder : Query) (vs : List SqlValue) :
    bindFrom binder (binder.params_.length + 1) vs =
      .ok (if vs = [] then binder
        else Query.setModified { binder with params_ := binder.params_ ++ vs }) := by
  induction vs generalizing binder with
  | nil => rfl
  | cons v vs ih =>
    have hlen : binder.params_.length + 1 + 1
        = (Query.setModified { binder with params_ := binder.params_ ++ [v] }).params_.length + 1 :=
      by simp
    simp only [bindFrom, Query.bind_next, Bind.bind, Except.bind]
    rw [hlen, ih]
    by_cases hvs : vs = []
    · simp [hvs]
    · simp [hvs, Query.setModified]

/-- The bindings of an operator, at the index its placeholder was rendered for. -/
lemma bindOp_next (binder : Query) (o : SqlOperator) :
    bindOp binder (binder.numOfBindings + 1) o = .ok (boundBy binder o) := by
  obtain ⟨neg, col, t, v⟩ := o
  cases t with
  | in_ => exact bindFrom_next binder v
  | between =>
    obtain ⟨low, high⟩ := v
    have hlast := Query.bind_last
      (Query.setModified { binder with params_ := binder.params_ ++ [low] })
      binder.params_ low high rfl
    simp only [bindOp, Query.numOfBindings, Query.bind_next, Bind.bind, Except.bind, hlast]
    simp [boundBy, SqlOperator.boundValues, Query.setModified]
  | _ =>
    simp only [bindOp, Query.numOfBindings, boundBy, SqlOperator.boundValues, Query.bind_next]
    split <;> rfl

/-- No append throws; it extends the clause by the condition for the next index and binds the
operands into the query behind the pointer. -/
theorem append_eq (how : Connective) (w : WhereBuilder) (binder : Query) (o : SqlOperator) :
    w.append how binder o =
      .ok ({ w with toWhereClause := extend how w.toWhereClause (w.condition binder o) },
        boundBy binder o) := by
  cases how <;>
    simp only [append, resetOp, andOp, orOp, bindOp_next] <;>
    rfl

@[simp] lemma boundBy_params (binder : Query) (o : SqlOperator) :
    (boundBy binder o).params_ = binder.params_ ++ o.boundValues := by
  rw [boundBy]
  split
  · next h => simp [h]
  · rfl

@[simp] lemma boundBy_stmt (binder : Query) (o : SqlOperator) :
    (boundBy binder o).stmt_ = binder.stmt_ := by
  rw [boundBy]; split <;> rfl

lemma boundBy_unnamed (binder : Query) (o : UnnamedOperator) :
    boundBy binder o.1 =
      Query.setModified { binder with params_ := binder.params_ ++ [o.operand] } := by
  simp [boundBy, SqlOperator.boundValues_eq]

lemma toSqlOp_render (w : WhereBuilder) (index : Nat) (o : SqlOperator) :
    (w.toSqlOp index o).render = o.lvalue_.toString ++ " " ++
      (if o.not_ then o.type_.notTypeValue else o.type_.typeValue) ++ " " ++
      w.session_.bindParamText index := by
  simp [toSqlOp, lit, SessionImpl.bindParam, String.append_assoc]

@[simp] lemma toSqlOp_placeholders (w : WhereBuilder) (index : Nat) (o : SqlOperator) :
    (w.toSqlOp index o).placeholders = [index] := by
  simp [toSqlOp]

/-- A rendered condition is never empty. -/
lemma toSqlOp_ne_empty (w : WhereBuilder) (index : Nat) (o : SqlOperator) :
    (w.toSqlOp index o).render ≠ "" := by
  rw [toSqlOp_render]
  intro h
  exact w.session_.bindParamText_ne_empty index (String.append_eq_empty_iff.mp h).2

lemma condition_ne_empty (w : WhereBuilder) (binder : Query) (o : SqlOperator) :
    (w.condition binder o).render ≠ "" :=
  w.toSqlOp_ne_empty _ o

@[simp] lemma condition_placeholders (w : WhereBuilder) (binder : Query) (o : SqlOperator) :
    (w.condition binder o).placeholders = [binder.params_.length + 1] :=
  w.toSqlOp_placeholders _ o

end Spec

end WhereBuilder

end CodaDb
