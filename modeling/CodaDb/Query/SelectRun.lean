import CodaDb.Lib.Machine
import CodaDb.Query.Select

/-!
# Runs of a select query

The calls made on one select query from its construction on, when it is neither copied nor moved
and the driver does not fail. Every execution uses a statement that belongs to the query as it is
then: each call that changes what the text or the parameters are invalidates the memo of the text
and the statement. So the query refines one that keeps neither.
-/

namespace CodaDb

/-- The constructors of `select_query`; `self` is the address of the object. -/
inductive SelectConstructor where
  | session (self : Addr) (s : Session)
  | columns (self : Addr) (s : Session) (columns : List String)
  | table (self : Addr) (s : Session) (columns : List String) (tableName : String)
  | schema (self : Addr) (s : Schema)

def SelectConstructor.build : SelectConstructor → SelectQuery
  | .session self s => .ofSession self s
  | .columns self s cols => .ofSession self s cols
  | .table self s cols tableName => .ofSession self s cols tableName
  | .schema self s => .ofSchema self s

/-- The calls that change what a select query selects. -/
inductive SelectEdit where
  | from (value : String)
  | fromAlias (value «alias» : String)
  | columns (value : List String)
  | column (value : String)
  | limit (value : String)
  | orderBy (value : String)
  | groupBy (value : String)
  | join (value : JoinClause)
  | unionWith (query : SelectQuery) (type : UnionType)
  | where (how : Connective) (o : UnnamedOperator)
  | bindAll (values : List SqlValue) (index : Nat)
  | bindMap (values : NamedParams)

def SelectEdit.apply : SelectEdit → SelectQuery → SelectQuery
  | .from value, q => q.from value
  | .fromAlias value «alias», q => q.fromAlias value «alias»
  | .columns value, q => q.columns value
  | .column value, q => q.column value
  | .limit value, q => q.limit value
  | .orderBy value, q => q.orderBy value
  | .groupBy value, q => q.groupBy value
  | .join value, q => q.join value
  | .unionWith query type, q => q.unionWith query type
  | .where how o, q => q.append how o
  | .bindAll values index, q => q.bindAll values index
  | .bindMap values, q => q.bindMap values

inductive SelectOp where
  | edit (e : SelectEdit)
  | toSql
  | execute

/-- A select query under its calls. An `execute` reports the query it was called on and the
statement that ran, if one did. -/
def selectMachine : Machine SelectQuery SelectOp (SelectQuery × Option Statement) where
  step
    | q, .edit e => (e.apply q, [])
    | q, .toSql => (q.memoise, [])
    | q, .execute => ((q.execute .ok).1, [(q, (q.execute .ok).2)])

namespace SelectQuery

/-- A select query without what it keeps. -/
def contents (q : SelectQuery) : SelectQuery := { q with toQuery := q.toQuery.contents }

end SelectQuery

/-- The purpose of a select query: its calls on an object that keeps nothing, so that every
execution renders it and prepares a statement anew. -/
def plainMachine : Machine SelectQuery SelectOp Statement where
  step
    | q, .edit e => ((e.apply q).contents, [])
    | q, .toSql => (q, [])
    | q, .execute => (q, [.loaded q.generateSql q.params_ q.namedParams_])

namespace SelectQuery

/-- What the query keeps belongs to what it selects now. -/
def Coherent (q : SelectQuery) : Prop := q.cache.Coherent q.generateSql q.statementFor

lemma coherent_build (c : SelectConstructor) : c.build.Coherent := by
  have hcache : c.build.cache = {} := by
    cases c <;> simp [SelectConstructor.build, ofSession, ofSchema, Query.cache]
  rw [Coherent, hcache]
  exact Prepared.coherent_new _ _

lemma coherent_setModified (q : SelectQuery) : q.setModified.Coherent :=
  Prepared.coherent_invalidate _ _ q.cache

/-- Appending a condition marks the query modified, through the builder's pointer if not by the
setter itself. -/
lemma append_modified (how : Connective) (q : SelectQuery) (o : UnnamedOperator) :
    ∃ q', q.append how o = setModified q' := by
  simp only [append, WhereBuilder.append_eq,
    WhereBuilder.boundBy_unnamed]
  cases how <;> exact ⟨{ q with toQuery := _, where_ := _ }, rfl⟩

lemma edit_cases (e : SelectEdit) (q : SelectQuery) :
    e.apply q = q ∨ ∃ q', e.apply q = setModified q' := by
  cases e with
  | column value =>
    by_cases h : value = ""
    · exact .inl (if_pos h)
    · exact .inr ⟨_, if_neg h⟩
  | «where» how o => exact .inr (append_modified how q o)
  | bindAll values index =>
    simp only [SelectEdit.apply, bindAll]
    rcases q.toQuery.bindAll_cases values index with h | ⟨params, h⟩
    · exact .inl (by rw [h, with_toQuery])
    · exact .inr ⟨{ q with params_ := params }, by rw [h]; rfl⟩
  | bindMap values =>
    simp only [SelectEdit.apply, bindMap]
    rcases q.toQuery.bindMap_cases values with h | ⟨named, h⟩
    · exact .inl (by rw [h, with_toQuery])
    · exact .inr ⟨{ q with namedParams_ := named }, by rw [h]; rfl⟩
  | _ => exact .inr ⟨_, rfl⟩

lemma execute_driver_ok (q : SelectQuery) :
    q.execute .ok = ((q.prepare .ok).1, (q.prepare .ok).1.stmt_) := by
  have hok := q.prepare_driver_ok
  rw [execute]
  generalize q.prepare .ok = r at hok ⊢
  obtain ⟨q', out⟩ := r
  subst hok
  rfl

/-- A prepared query is coherent, with the same contents as before. -/
lemma coherent_prepare {q : SelectQuery} (h : q.Coherent) : (q.prepare .ok).1.Coherent := by
  have hcache := Prepared.Coherent.refresh h
  rw [← cache_prepare] at hcache
  suffices hsame : (q.prepare .ok).1.generateSql = q.generateSql ∧
      (q.prepare .ok).1.statementFor = q.statementFor by
    rwa [Coherent, hsame.1, hsame.2]
  rw [prepare_ok q.prepare_driver_ok]
  exact ⟨generateSql_base q _, by split <;> rfl⟩

lemma coherent_step (q : SelectQuery) (op : SelectOp) (h : q.Coherent) :
    (selectMachine.step q op).1.Coherent := by
  cases op with
  | edit e =>
    rcases edit_cases e q with hsame | ⟨q', hmod⟩
    · simpa only [selectMachine, hsame] using h
    · simpa only [selectMachine, hmod] using q'.coherent_setModified
  | toSql =>
    have hcache := Prepared.Coherent.render h
    rw [← cache_memoise] at hcache
    rwa [← generateSql_base q q.memoise.toQuery] at hcache
  | execute =>
    simpa only [selectMachine, execute_driver_ok] using coherent_prepare h

/-- The statement a coherent query runs. -/
lemma execute_of_coherent {q : SelectQuery} (h : q.Coherent) :
    (q.execute .ok).2 = some (.loaded q.generateSql q.params_ q.namedParams_) := by
  have hheld := Prepared.Coherent.held_refresh h
  rw [← cache_prepare] at hheld
  rw [execute_driver_ok]
  exact hheld

/-- An edit changes what the query selects in a way that does not depend on what it keeps. -/
lemma contents_apply (e : SelectEdit) (q : SelectQuery) :
    (e.apply q.contents).contents = (e.apply q).contents := by
  cases e with
  | column value =>
    simp only [SelectEdit.apply, column]
    split <;> rfl
  | «where» how o =>
    simp only [SelectEdit.apply, append, WhereBuilder.append_eq, WhereBuilder.boundBy_unnamed]
    cases how <;> rfl
  | bindAll values index =>
    have hbase := Query.bindAll_contents (q := q.toQuery.contents) (r := q.toQuery) rfl values index
    simp only [SelectEdit.apply, bindAll, contents, hbase]
  | bindMap values =>
    have hbase := Query.bindMap_contents (q := q.toQuery.contents) (r := q.toQuery) rfl values
    simp only [SelectEdit.apply, bindMap, contents, hbase]
  | _ => rfl

lemma contents_prepare (q : SelectQuery) : (q.prepare .ok).1.contents = q.contents := by
  rw [prepare_ok q.prepare_driver_ok]
  split <;> rfl

/-- One call on a coherent query is the same call on its contents. -/
lemma step_refines (q : SelectQuery) (op : SelectOp) (h : q.Coherent) :
    (selectMachine.step q op).1.contents = (plainMachine.step q.contents op).1 ∧
      List.Forall₂ (fun e s => e.2 = some s) (selectMachine.step q op).2
        (plainMachine.step q.contents op).2 := by
  cases op with
  | edit e => exact ⟨(contents_apply e q).symm, .nil⟩
  | toSql => exact ⟨rfl, .nil⟩
  | execute =>
    constructor
    · simp only [selectMachine, execute_driver_ok]
      exact q.contents_prepare
    · refine .cons ?_ .nil
      rw [execute_of_coherent h, contents, generateSql_base]
      rfl

/-- A select query with its memo and its statement is as good as one that keeps nothing: the same
calls leave the same contents, and the executions run the same statements in the same order. -/
theorem run_refines (c : SelectConstructor) (ops : List SelectOp) :
    (selectMachine.run c.build ops).1.contents = (plainMachine.run c.build.contents ops).1 ∧
      List.Forall₂ (fun e s => e.2 = some s) (selectMachine.run c.build ops).2
        (plainMachine.run c.build.contents ops).2 := by
  have hstep : ∀ q t op, q.Coherent ∧ q.contents = t →
      ((selectMachine.step q op).1.Coherent ∧
        (selectMachine.step q op).1.contents = (plainMachine.step t op).1) ∧
      List.Forall₂ (fun e s => e.2 = some s) (selectMachine.step q op).2
        (plainMachine.step t op).2 := by
    rintro q _ op ⟨hq, rfl⟩
    obtain ⟨hnext, hout⟩ := step_refines q op hq
    exact ⟨⟨coherent_step q op hq, hnext⟩, hout⟩
  obtain ⟨⟨-, hend⟩, hout⟩ :=
    selectMachine.run_simulation plainMachine _ _ hstep ⟨coherent_build c, rfl⟩ ops
  exact ⟨hend, hout⟩

/-- After every run the text handed out is the rendering of the query as it is then. -/
theorem run_toSql (c : SelectConstructor) (ops : List SelectOp) :
    (selectMachine.run c.build ops).1.toSql = (selectMachine.run c.build ops).1.generateSql := by
  rw [toSql_eq_text]
  exact (selectMachine.run_invariant Coherent coherent_step (coherent_build c) ops).text_eq

/-- In every run of a select query, each execution runs a statement prepared with the text of the
query at that moment, to which exactly its parameters are bound. -/
theorem run_executes_current (c : SelectConstructor) (ops : List SelectOp) :
    ∀ e ∈ (selectMachine.run c.build ops).2,
      e.2 = some (.loaded e.1.generateSql e.1.params_ e.1.namedParams_) := by
  refine selectMachine.run_outputs Coherent _ coherent_step ?_ (coherent_build c) ops
  intro q op h e he
  cases op with
  | edit | toSql => cases he
  | execute =>
    obtain rfl := List.mem_singleton.mp he
    exact execute_of_coherent h

/-- The theorem at a run that renders the query before its condition is set and then executes. -/
theorem run_executes_current_users :
    ∃ e, (selectMachine.run (SelectConstructor.session 0 { impl_ := .sqlite }).build
        [.edit (.from "users"), .toSql,
          .edit (.where .reset ⟨Op.equals (.string "name") (.string "bob"), by decide⟩),
          .execute]).2 = [e] ∧
      e.2 = some (.loaded e.1.generateSql e.1.params_ e.1.namedParams_) := by
  have h := run_executes_current (.session 0 { impl_ := .sqlite })
    [.edit (.from "users"), .toSql,
      .edit (.where .reset ⟨Op.equals (.string "name") (.string "bob"), by decide⟩),
      .execute]
  exact ⟨_, rfl, h _ (List.mem_singleton.mpr rfl)⟩

end SelectQuery

end CodaDb
