import CodaDb.Query.SelectRun

/-!
# Unions

The text of a union is the text of the first query followed by the text of the second, and its
statement is prepared with the parameters of the first. When each placeholder nevertheless gets the
value that its own query holds for it.
-/

namespace CodaDb

open SqlText

namespace SelectQuery

/-- The numbers of the placeholders of a query before its union, with the values it holds for
them. -/
def coreOwned (q : SelectQuery) : List (Nat × Option SqlValue) :=
  q.coreSql.placeholders.map fun n => (n, q.held n)

mutual
/-- The numbers of all placeholders from left to right, each with the value that the query holds
for it to whose part it belongs. -/
def owned : SelectQuery → List (Nat × Option SqlValue)
  | ⟨q, w, joins, limit, orderBy, groupBy, columns, tableName, union⟩ =>
    coreOwned ⟨q, w, joins, limit, orderBy, groupBy, columns, tableName, union⟩ ++
      unionOwned union

def unionOwned : Option UnionOperator → List (Nat × Option SqlValue)
  | none => []
  | some u => operatorOwned u

def operatorOwned : UnionOperator → List (Nat × Option SqlValue)
  | ⟨query, _⟩ => query.owned
end

/-- The select queries that the calls of a client can build, from queries built in the same way. -/
inductive Built : SelectQuery → Prop where
  | build (c : SelectConstructor) : Built c.build
  | step {q : SelectQuery} (hq : Built q) (op : SelectOp)
      (hop : ∀ query type, op = .edit (.unionWith query type) → Built query) :
      Built (selectMachine.step q op).1

/-- Each statement that an execution of the query runs has the placeholders of its parts, and at
each of them the back end reads the value that the query of that part holds. -/
def RunsOwnValues (q : SelectQuery) : Prop :=
  ∀ d stmt, (q.execute d).2 = some stmt → ∃ text, stmt.sql = some text ∧
    text.placeholders = q.owned.map Prod.fst ∧
    ∀ (i n : Nat) v, q.owned[i]? = some (n, v) → stmt.bound (q.where_.session_.slot i n) = v

/-- By number, the first query holds what the queries of the second part hold; for a back end that
goes by position, the parameters of the first query are the values of both parts in their order. -/
def Agree (q1 q2 : SelectQuery) : Prop :=
  match q1.where_.session_ with
  | .mysql => ∀ (i n : Nat) v, (q1.coreOwned ++ q2.owned)[i]? = some (n, v) → q1.params_[i]? = v
  | .sqlite | .postgres => ∀ n v, (n, v) ∈ q2.owned → q1.held n = v

/-! ### The placeholders of a union -/

lemma owned_eq (q : SelectQuery) : q.owned = q.coreOwned ++ unionOwned q.union_ := by
  obtain ⟨q, w, joins, limit, orderBy, groupBy, columns, tableName, union⟩ := q
  simp only [owned]

@[simp] lemma unionOwned_some (u : UnionOperator) : unionOwned (some u) = u.query.owned := by
  obtain ⟨query, type⟩ := u
  simp only [unionOwned, operatorOwned]

/-- What a query owns depends on its parameters, not on what it keeps. -/
lemma owned_copy_move (q : SelectQuery) : q.copy.move.owned = q.owned := by
  rw [owned_eq, owned_eq q]
  rfl

/-- The query behind `union_`, if there is one, has the placeholders of its parts. -/
def UnionOwned (q : SelectQuery) : Prop :=
  ∀ u, q.union_ = some u → u.query.toSql.placeholders = u.query.owned.map Prod.fst

lemma UnionOwned.placeholders {q : SelectQuery} (h : q.UnionOwned) :
    q.generateSql.placeholders = q.owned.map Prod.fst := by
  have hcore : q.coreOwned.map Prod.fst = q.coreSql.placeholders := by
    simp [coreOwned, Function.comp_def]
  rw [generateSql_eq, owned_eq, placeholders_append, List.map_append, hcore]
  congr 1
  cases hunion : q.union_ with
  | none => rfl
  | some u =>
    rw [unionSql_some, unionOwned_some, placeholders_append, placeholders_append, h u hunion]
    split <;> simp

lemma UnionOwned.unionWith {query : SelectQuery} (h : query.UnionOwned) (q : SelectQuery)
    (type : UnionType) : (q.unionWith query type).UnionOwned := by
  intro u hu
  obtain rfl := Option.some.inj hu
  rw [toSql_of_empty (q := query.copy.move) rfl, owned_copy_move]
  exact (generateSql_base query query.copy.move.toQuery).symm ▸ h.placeholders

/-- Only `union_with` changes the union. -/
lemma edit_union {e : SelectEdit} (he : ∀ query type, e ≠ .unionWith query type) (q : SelectQuery) :
    (e.apply q).union_ = q.union_ := by
  cases e with
  | unionWith query type => exact absurd rfl (he query type)
  | column value =>
    simp only [SelectEdit.apply, column]
    split <;> rfl
  | «where» how o =>
    simp only [SelectEdit.apply, append, WhereBuilder.append_eq]
    cases how <;> rfl
  | _ => rfl

/-- What holds of no union, and of a union with a copy of any query whose own union has it, holds of
the unions of all built queries. -/
lemma Built.union_induction {P : Option UnionOperator → Prop} (hnone : P none)
    (hwith : ∀ (query : SelectQuery) type, P query.union_ →
      P (some { query := query.copy.move, type := type }))
    {q : SelectQuery} (h : Built q) : P q.union_ := by
  induction h with
  | build c => cases c <;> exact hnone
  | @step q hq op hop ih ihop =>
    have hkept (hsame : (selectMachine.step q op).1.union_ = q.union_) :
        P (selectMachine.step q op).1.union_ := hsame ▸ ih
    cases op with
    | edit e =>
      by_cases he : ∀ query type, e ≠ .unionWith query type
      · exact hkept (edit_union he q)
      · push Not at he
        obtain ⟨query, type, rfl⟩ := he
        exact hwith query type (ihop query type rfl)
    | toSql => exact hkept rfl
    | execute =>
      refine hkept ?_
      simp only [selectMachine, execute_eq]
      rfl

lemma Built.unionOwned {q : SelectQuery} (h : Built q) : q.UnionOwned := by
  refine h.union_induction (P := fun union => ∀ u, union = some u →
    u.query.toSql.placeholders = u.query.owned.map Prod.fst) nofun fun query type hquery => ?_
  exact UnionOwned.unionWith hquery query type

/-! ### Executing a union -/

/-- The statement of a union is prepared with the text of both and the parameters of the first. -/
lemma unionWith_runsOwnValues {q1 q2 : SelectQuery} (h2 : q2.UnionOwned) (type : UnionType) :
    (q1.unionWith q2 type).RunsOwnValues ↔
      ∀ (i n : Nat) v, (q1.coreOwned ++ q2.owned)[i]? = some (n, v) →
        q1.held (q1.where_.session_.slot i n) = v := by
  have hstale : (q1.unionWith q2 type).cache.stale = true := Query.stale_of_dirty rfl
  have howned : (q1.unionWith q2 type).owned = q1.coreOwned ++ q2.owned := by
    rw [← owned_copy_move q2, owned_eq]
    exact congrArg _ (unionOwned_some _)
  have htext : (q1.unionWith q2 type).toSql.placeholders
      = (q1.unionWith q2 type).owned.map Prod.fst := by
    rw [toSql_of_empty rfl]
    exact (h2.unionWith q1 type).placeholders
  constructor
  · intro h
    obtain ⟨text, -, -, hbound⟩ := h .ok _ ((execute_stale hstale .ok _).mpr
      ⟨Driver.ok_accepts .., rfl⟩)
    rwa [howned] at hbound
  · intro h d stmt hrun
    obtain ⟨-, rfl⟩ := (execute_stale hstale d stmt).mp hrun
    refine ⟨_, rfl, htext, ?_⟩
    rw [howned]
    exact h

/-- A union runs every part with the values of its own query exactly if the parameters of the first
query agree with them. -/
theorem union_runsOwnValues_iff (q1 : SelectQuery) {q2 : SelectQuery} (h2 : Built q2)
    (type : UnionType) : (q1.unionWith q2 type).RunsOwnValues ↔ Agree q1 q2 := by
  rw [unionWith_runsOwnValues h2.unionOwned]
  -- by number, the first query's own placeholders always get its values
  have hnumber : (∀ (i n : Nat) v, (q1.coreOwned ++ q2.owned)[i]? = some (n, v) → q1.held n = v) ↔
      ∀ n v, (n, v) ∈ q2.owned → q1.held n = v := by
    constructor
    · intro h n v hmem
      obtain ⟨i, hi⟩ := List.mem_iff_getElem?.mp (List.mem_append_right q1.coreOwned hmem)
      exact h i n v hi
    · intro h i n v hi
      rcases List.mem_append.mp (List.mem_iff_getElem?.mpr ⟨i, hi⟩) with hmem | hmem
      · simp only [coreOwned, List.mem_map, Prod.mk.injEq] at hmem
        obtain ⟨m, -, rfl, rfl⟩ := hmem
        rfl
      · exact h n v hmem
  rw [Agree]
  cases q1.where_.session_ with
  | mysql => rfl
  | sqlite | postgres => exact hnumber

/-- The theorem at two queries that compare with the same value. -/
theorem union_runsOwnValues_same :
    (((ofSession 0 { impl_ := .postgres } [] "users").append .reset
        (Op.equals (.string "name") (.string "bob"))).unionWith
      ((ofSession 1 { impl_ := .postgres } [] "admins").append .reset
        (Op.equals (.string "name") (.string "bob"))) .all).RunsOwnValues := by
  have hbuilt : Built ((ofSession 1 { impl_ := .postgres } [] "admins").append .reset
      (Op.equals (.string "name") (.string "bob"))) :=
    .step (.build (.table 1 { impl_ := .postgres } [] "admins"))
      (.edit (.where .reset ⟨Op.equals (.string "name") (.string "bob"), by decide⟩))
      (fun _ _ h => by cases h)
  refine (union_runsOwnValues_iff _ hbuilt .all).mpr ?_
  intro n v hmem
  obtain ⟨rfl, rfl⟩ := Prod.mk.inj (List.mem_singleton.mp hmem)
  rfl

/-- The condition of the second query runs with the value of the first. -/
theorem union_not_runsOwnValues_users :
    ¬(((ofSession 0 { impl_ := .postgres } [] "users").append .reset
        (Op.equals (.string "name") (.string "bob"))).unionWith
      ((ofSession 1 { impl_ := .postgres } [] "admins").append .reset
        (Op.equals (.string "name") (.string "alice")))).RunsOwnValues := by
  intro h
  obtain ⟨text, -, -, hbound⟩ := h .ok _ rfl
  exact absurd (hbound 1 1 (some (.string "alice")) rfl) (by decide)

end SelectQuery

end CodaDb
