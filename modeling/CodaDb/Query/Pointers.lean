import CodaDb.Query.Retry

/-!
# The statement pointer

The values that `stmt_` has where `prepare`, the executions and `reset` dereference it. The first
two see to it that there is a statement; `reset` does not, and a record of the calls tells on which
queries it may be called.
-/

namespace CodaDb

namespace Query

/-- The pointer where `prepare` uses it: the new statement, which it prepares and binds to. -/
def preparing (q : Query) (d : Driver) (sql : SqlText) : List (Option Statement) :=
  if q.cache.stale then [(q.prepare d sql).1.stmt_] else []

/-- The pointer where `prepare` uses it, and behind it the caller, unless an exception came
first. -/
def executing (q : Query) (d : Driver) (sql : SqlText) : List (Option Statement) :=
  match q.prepare d sql with
  | (_, .error _) => q.preparing d sql
  | (q', .ok ()) => q.preparing d sql ++ [q'.stmt_]

/-- `prepare` leaves a statement. -/
lemma prepare_isSome (q : Query) (d : Driver) (sql : SqlText) :
    (q.prepare d sql).1.stmt_.isSome = true := by
  have hspec := q.prepare_spec d sql
  generalize q.prepare d sql = r at hspec ⊢
  cases hspec with
  | kept hstale =>
    cases hstmt : q.stmt_ with
    | none => cases hstale.symm.trans (stale_of_none hstmt)
    | some stmt => rfl
  | refused | unbound | loaded => rfl

lemma preparing_isSome (q : Query) (d : Driver) (sql : SqlText) :
    ∀ p ∈ q.preparing d sql, p.isSome = true := by
  intro p hp
  rw [preparing] at hp
  split at hp
  · rw [List.mem_singleton.mp hp]
    exact q.prepare_isSome d sql
  · cases hp

lemma executing_isSome (q : Query) (d : Driver) (sql : SqlText) :
    ∀ p ∈ q.executing d sql, p.isSome = true := by
  intro p hp
  have hprepare := q.prepare_isSome d sql
  rw [executing] at hp
  split at hp
  · exact q.preparing_isSome d sql p hp
  · next q' heq =>
    rw [heq] at hprepare
    rcases List.mem_append.mp hp with hp | hp
    · exact q.preparing_isSome d sql p hp
    · rw [List.mem_singleton.mp hp]
      exact hprepare

end Query

/-- The pointer in `count`, which prepares and then executes. -/
def SelectQuery.countPointers (q : SelectQuery) (d : Driver) : List (Option Statement) :=
  q.counting.memoise.toQuery.preparing d q.counting.toSql ++
    match q.counting.prepare d with
    | (_, .error _) => []
    | (q', .ok ()) => q'.memoise.toQuery.executing d q'.toSql

lemma SelectQuery.countPointers_isSome (q : SelectQuery) (d : Driver) :
    ∀ p ∈ q.countPointers d, p.isSome = true := by
  intro p hp
  rw [countPointers] at hp
  rcases List.mem_append.mp hp with hp | hp
  · exact Query.preparing_isSome _ d _ p hp
  · split at hp
    · cases hp
    · exact Query.executing_isSome _ d _ p hp

namespace AnyQuery

/-- The pointer in `execute`. That of the queries that modify a table ends with their `reset`. -/
def executePointers (q : AnyQuery) (d : Driver) : List (Option Statement) :=
  if q.checked then
    match q.toSql with
    | none => []
    | some sql => q.base.executing d sql
  else []

/-- Only a query that is ready and has a text runs a statement. -/
lemma ready_of_execute {q q' : AnyQuery} {d : Driver} {e : Engine} {stmt : Statement}
    (h : q.execute d e = some (q', some stmt)) :
    q.checked = true ∧ ∃ sql, q.toSql = some sql := by
  cases q with
  | insert q =>
    rw [execute, InsertQuery.execute] at h
    split at h
    · next hvalid =>
      cases hsql : q.toSql with
      | none => simp [hsql] at h
      | some sql => exact ⟨hvalid, sql, hsql⟩
    · cases h
  | «where» q =>
    cases q with
    | select q => exact ⟨rfl, q.toSql, toSql_select q⟩
    | update q =>
      rw [execute, UpdateQuery.execute] at h
      split at h
      · next hvalid =>
        cases hsql : q.toSql with
        | none => simp [hsql] at h
        | some sql => exact ⟨hvalid, sql, hsql⟩
      · cases h
    | delete q =>
      rw [execute, DeleteQuery.execute] at h
      split at h
      · next hvalid =>
        cases hsql : q.toSql with
        | none => simp [hsql] at h
        | some sql => exact ⟨hvalid, sql, hsql⟩
      · cases h

/-- The statement that an execution runs is the one the pointer leads to. -/
theorem mem_executePointers {q q' : AnyQuery} {d : Driver} {e : Engine} {stmt : Statement}
    (h : q.execute d e = some (q', some stmt)) : some stmt ∈ q.executePointers d := by
  obtain ⟨hchecked, sql, hsql⟩ := ready_of_execute h
  have hspec := q.execute_spec d e
  have hprepare := q.base.prepare_spec d sql
  rw [h] at hspec
  rw [executePointers, if_pos hchecked, hsql]
  simp only [Query.executing]
  generalize q.base.prepare d sql = r at hprepare ⊢
  cases hspec with
  | kept hstale hstmt hstmt' =>
    cases hprepare with
    | kept => simp [hstmt]
    | refused _ hstale' | unbound _ _ hstale' | loaded hstale' => cases hstale.symm.trans hstale'
  | loaded hprepares hsql' hd hstmt' =>
    obtain rfl := Option.some.inj (hsql.symm.trans hsql')
    obtain ⟨-, hstale⟩ := Bool.and_eq_true_iff.mp hprepares
    cases hprepare with
    | kept hkept => cases hkept.symm.trans hstale
    | refused _ _ hrefused => cases hd.prepare.symm.trans hrefused
    | unbound _ _ _ _ hrefused => exact absurd hd hrefused
    | loaded => simp

/-- A select query without a session cannot create a statement: its null session is dereferenced
before `stmt_` is. -/
def lacksSession : AnyQuery → Bool
  | .where (.select q) => q.session_.isNone && q.cache.stale
  | _ => false

/-- `reset` drops the statement. -/
def drops (e : Engine) : AnyQuery → Bool
  | .where (.select q) =>
    match q.stmt_.map e.reset with
    | some (.ok ()) => true
    | none | some (.error _) => false
  | _ => false

lemma drops_iff {q : AnyQuery} {e : Engine} : q.drops e = true ↔ q.Drops e := by
  have hselect : (∀ q', q ≠ .where (.select q')) → ¬q.Drops e := by
    rintro h ⟨q', -, hq', -⟩
    exact h q' hq'
  cases q with
  | insert q => exact iff_of_false nofun (hselect nofun)
  | «where» q =>
    cases q with
    | update | delete => exact iff_of_false nofun (hselect nofun)
    | select q =>
      rw [drops]
      constructor
      · intro h
        split at h
        · next hreset =>
          obtain ⟨stmt, hstmt, hok⟩ := Option.map_eq_some_iff.mp hreset
          exact ⟨q, stmt, rfl, hstmt, hok⟩
        · cases h
        · cases h
      · rintro ⟨q', stmt, hq', hstmt, hok⟩
        cases hq'
        simp only [hstmt, Option.map_some, hok]

end AnyQuery

namespace Queries

/-- The pointer where a call uses it. -/
def pointers (s : Queries) : QueryOp → List (Option Statement)
  | .execute a d _ => (s.query a).executePointers d
  | .count a d _ =>
    match s.query a with
    | .where (.select q) => q.countPointers d
    | _ => []
  | .reset a _ => [(s.query a).base.stmt_]
  | _ => []

/-- A call on a select query that cannot create a statement. -/
def breaks (s : Queries) : QueryOp → Bool
  | .execute a _ _ | .count a _ _ => (s.query a).lacksSession
  | _ => false

/-- Which of the queries were executed or counted, or are copies of such, and were not moved from
nor, where they are select queries, reset since then. -/
def record (s : Queries) (executed : Addr → Bool) : QueryOp → Addr → Bool
  | .construct a _ => Function.update executed a false
  | .execute a _ _ =>
    if (s.query a).checked && (s.query a).toSql.isSome then Function.update executed a true
    else executed
  | .count a _ _ =>
    match s.query a with
    | .where (.select _) => Function.update executed a true
    | _ => executed
  | .reset a e =>
    if (s.query a).drops e then Function.update executed a false else executed
  | .copy a b => Function.update executed a (executed b)
  | .move a b _ => Function.update (Function.update executed b false) a (executed b)
  | .assign a b =>
    match (s.query a).assign (s.query b) with
    | none => executed
    | some _ => Function.update executed a (executed b)
  | .moveAssign a b _ =>
    match (s.query a).assign (s.query b) with
    | none => executed
    | some _ =>
      let executed := Function.update executed a (executed b)
      if (s.query b).emptied then Function.update executed b false else executed
  | _ => executed

end Queries

/-- The queries of a program with the record of its calls. -/
structure Recorded where
  queries : Queries
  executed : Addr → Bool

/-- A program that tells where it uses `stmt_`. It has no state behind a call that dereferences a
null pointer. -/
def pointerMachine : Machine (Option Recorded) QueryOp (Option Statement) where
  step
    | none, _ => (none, [])
    | some s, op =>
      if s.queries.breaks op then (none, [])
      else if (s.queries.pointers op).all Option.isSome then
        (some ⟨(queryMachine.step s.queries op).1, s.queries.record s.executed op⟩,
          s.queries.pointers op)
      else (none, s.queries.pointers op)

namespace Queries

/-- The record tells which queries have a statement. -/
def Right (s : Queries) (executed : Addr → Bool) : Prop :=
  ∀ a, (s.query a).base.stmt_.isSome = executed a

variable {s : Queries} {executed : Addr → Bool} {a b : Addr} {q : AnyQuery} {loaded had : Bool}

lemma right_putLoaded (h : s.Right executed) (hq : q.base.stmt_.isSome = had) :
    (s.putLoaded a q loaded).Right (Function.update executed a had) := by
  intro x
  simp only [putLoaded_query, Function.update_apply]
  split
  · exact hq
  · exact h x

lemma right_put (h : s.Right executed) (hq : q.base.stmt_.isSome = had) :
    (s.put a q).Right (Function.update executed a had) := by
  rw [put_eq]
  exact right_putLoaded h hq

lemma right_edited (h : s.Right executed) {s' : Queries}
    (hquery : ∀ x, Query.Edited (s.query x).base (s'.query x).base) : s'.Right executed := by
  intro x
  rw [← h x]
  exact congrArg Option.isSome (hquery x).1

/-- An execution that gets past its checks leaves a statement. -/
lemma right_execute (h : s.Right executed) (a : Addr) (d : Driver) (e : Engine) :
    (queryMachine.step s (.execute a d e)).1.Right (s.record executed (.execute a d e)) := by
  have hspec := (s.query a).execute_spec d e
  simp only [queryMachine, record]
  generalize (s.query a).execute d e = r at hspec ⊢
  cases hspec with
  | diverges hsql =>
    rw [hsql, Option.isSome_none, Bool.and_false, if_neg Bool.false_ne_true]
    exact h
  | invalid hchecked hq' =>
    have hprepares : (s.query a).prepares = false := by
      rw [AnyQuery.prepares, hchecked]
      rfl
    simp only [hprepares, hchecked, Bool.false_and, Bool.false_eq_true, if_false]
    exact right_edited h (edited_put (hq' ▸ .refl _))
  | refused hd hchecked' hsql' hq' =>
    obtain ⟨hprepares, sql, hsql, -⟩ := hd
    obtain ⟨hchecked, -⟩ := Bool.and_eq_true_iff.mp hprepares
    simp only [hprepares, hchecked, hsql, Option.isSome_some, Bool.and_self, if_true]
    exact right_putLoaded h (by rw [hq']; rfl)
  | kept hstale hstmt hstmt' =>
    have hprepares : (s.query a).prepares = false := by
      rw [AnyQuery.prepares, hstale, Bool.and_false]
    have hexecuted : executed a = true := by
      rw [← h a, hstmt]
      rfl
    have hrecord : Function.update executed a true = executed := by
      rw [← hexecuted, Function.update_eq_self]
    simp only [hprepares, Bool.false_eq_true, if_false, hrecord, ite_self]
    rw [← hrecord]
    exact right_put h (by rw [hstmt']; rfl)
  | loaded hprepares hsql hd hstmt' =>
    obtain ⟨hchecked, -⟩ := Bool.and_eq_true_iff.mp hprepares
    simp only [hprepares, hchecked, hsql, Option.isSome_some, Bool.and_self, if_true]
    exact right_putLoaded h (by rw [hstmt']; rfl)

/-- A count leaves a statement, whatever the driver answers. -/
lemma right_count (h : s.Right executed) (a : Addr) (d : Driver)
    (answer : Statement → Except DbException Int) :
    (queryMachine.step s (.count a d answer)).1.Right (s.record executed (.count a d answer)) := by
  simp only [queryMachine, record]
  cases hquery : s.query a with
  | insert q => exact h
  | «where» q =>
    cases q with
    | update | delete => exact h
    | select q =>
      obtain ⟨q', hspec, hbase⟩ := executes_count q d answer
      have hstmt : (AnyQuery.where (.select (q.count d answer).1)).base.stmt_.isSome = true := by
        rw [hbase]
        generalize (q.count d answer).2.1 = stmt at hspec
        cases hspec with
        | invalid hchecked => cases hchecked
        | refused hd hchecked hsql hq' => rw [hq']; rfl
        | kept hstale hstmt hstmt' => rw [hstmt']; rfl
        | loaded hprepares hsql hd hstmt' => rw [hstmt']; rfl
      dsimp only
      split
      · exact right_putLoaded h hstmt
      · exact right_put h hstmt

lemma right_reset (h : s.Right executed) (a : Addr) (e : Engine) :
    (queryMachine.step s (.reset a e)).1.Right (s.record executed (.reset a e)) := by
  obtain ⟨-, hstmt⟩ := (s.query a).reset_spec e
  rw [← AnyQuery.drops_iff] at hstmt
  simp only [queryMachine, record]
  split
  · next hdrops =>
    refine right_put h (Bool.eq_false_iff.mpr fun hsome => ?_)
    exact (hstmt.mp hsome).2 hdrops
  · next hdrops =>
    have hkept := Bool.eq_iff_iff.mpr (hstmt.trans (and_iff_left hdrops))
    have hput := @right_put s executed a _ _ h (hkept.trans (h a))
    rwa [Function.update_eq_self] at hput

/-- The source of a move has no statement any more, or is as it was. -/
lemma right_moveAssign (h : s.Right executed) (a b : Addr) (rest : AnyQuery) :
    (queryMachine.step s (.moveAssign a b rest)).1.Right
      (s.record executed (.moveAssign a b rest)) := by
  simp only [queryMachine, record]
  cases hassign : (s.query a).assign (s.query b) with
  | none => exact h
  | some q =>
    have hstmt : q.base.stmt_.isSome = executed b := by
      rw [AnyQuery.base_assign hassign]
      exact h b
    have hassigned := @right_putLoaded s executed a q (s.loaded b) (executed b) h hstmt
    dsimp only
    rw [AnyQuery.moveAssigned]
    split
    · refine right_put hassigned ?_
      rw [AnyQuery.moved, AnyQuery.base_withBase]
      rfl
    · have hkept : Function.update executed a (executed b) b = executed b := by
        rw [Function.update_apply, ite_self]
      rw [← Function.update_eq_self b (Function.update executed a (executed b)), hkept]
      refine right_put hassigned ?_
      rw [AnyQuery.base_withBase]
      exact h b

/-- The record stays right. -/
lemma right_step (h : s.Right executed) (op : QueryOp) :
    (queryMachine.step s op).1.Right (s.record executed op) := by
  cases op with
  | construct a q => exact right_put h (by rw [q.2.stmt]; rfl)
  | edit a e => exact right_edited h (edited_put (e.edited _))
  | append a how o => exact right_edited h fun x => edited_append s a x how o
  | refer a rest =>
    refine right_edited h (edited_put ?_)
    rw [AnyQuery.base_withBase]
    exact .refl _
  | toSql a => exact right_edited h (edited_put (s.query a).edited_memoise)
  | execute a d e => exact right_execute h a d e
  | count a d answer => exact right_count h a d answer
  | reset a e => exact right_reset h a e
  | copy a b =>
    refine right_putLoaded h ?_
    rw [AnyQuery.base_copy]
    exact h b
  | move a b rest =>
    have hmoved : rest.moved.base.stmt_.isSome = false := by
      rw [AnyQuery.moved, AnyQuery.base_withBase]
      rfl
    refine right_putLoaded (right_put h hmoved) ?_
    rw [AnyQuery.move, AnyQuery.base_withBase]
    exact h b
  | assign a b =>
    simp only [queryMachine, record]
    cases hassign : (s.query a).assign (s.query b) with
    | none => exact h
    | some q =>
      refine right_putLoaded h ?_
      rw [AnyQuery.base_assign hassign]
      exact h b
  | moveAssign a b rest => exact right_moveAssign h a b rest

end Queries

namespace Recorded

/-- A call resets only a query that was executed. -/
def Resettable : Option Recorded → QueryOp → Prop
  | some s, .reset a _ => s.executed a = true
  | _, _ => True

/-- The record is right, as long as there is a state. -/
def Right : Option Recorded → Prop
  | none => True
  | some s => s.queries.Right s.executed

/-- Only `reset` can use a null pointer. -/
lemma pointers_isSome {s : Recorded} (h : Right (some s)) (op : QueryOp) :
    Resettable (some s) op ↔ ∀ p ∈ s.queries.pointers op, p.isSome = true := by
  cases op with
  | reset a e =>
    rw [Queries.pointers, List.forall_mem_singleton, h a]
    rfl
  | execute a d e =>
    refine iff_of_true trivial ?_
    rw [Queries.pointers, AnyQuery.executePointers]
    split
    · cases (s.queries.query a).toSql with
      | none => exact List.forall_mem_nil _
      | some sql => exact Query.executing_isSome _ d sql
    · exact List.forall_mem_nil _
  | count a d answer =>
    refine iff_of_true trivial ?_
    rw [Queries.pointers]
    split
    · next q _ => exact q.countPointers_isSome d
    · exact List.forall_mem_nil _
  | _ => exact iff_of_true trivial (List.forall_mem_nil _)

/-- A call keeps the record, and uses no null pointer exactly if it resets what was executed. -/
lemma resettable_iff {s : Option Recorded} (h : Right s) (op : QueryOp) :
    Right (pointerMachine.step s op).1 ∧
      (Resettable s op ↔ ∀ p ∈ (pointerMachine.step s op).2, p.isSome = true) := by
  cases s with
  | none => exact ⟨trivial, iff_of_true trivial (List.forall_mem_nil _)⟩
  | some s =>
    simp only [pointerMachine]
    by_cases hbreaks : s.queries.breaks op = true
    · rw [if_pos hbreaks]
      refine ⟨trivial, iff_of_true ?_ (List.forall_mem_nil _)⟩
      cases op with
      | reset a e => cases hbreaks
      | _ => trivial
    · rw [if_neg hbreaks]
      have hpointers := pointers_isSome h op
      split
      · exact ⟨Queries.right_step h op, hpointers⟩
      · exact ⟨trivial, hpointers⟩

end Recorded

namespace Queries

/-- The queries at the start of a program, none of which was executed. -/
def start (s : Queries) : Option Recorded := some ⟨s, fun _ => false⟩

/-- `stmt_` is never null where it is used exactly in the runs that reset only queries that were
executed. -/
theorem pointers_isSome_iff {s : Queries} (h : s.Constructed) (ops : List QueryOp) :
    (∀ p ∈ (pointerMachine.run s.start ops).2, p.isSome = true) ↔
      pointerMachine.Along Recorded.Resettable s.start ops := by
  have hstart : Recorded.Right s.start := fun a => by
    rw [(h a).stmt]
    rfl
  have hrun := pointerMachine.along_iff_of_possible (fun _ _ => True) Recorded.Resettable
    Recorded.Right (fun _ => True) (fun p => p.isSome = true) (fun _ _ => trivial)
    (fun s op hs _ _ => (Recorded.resettable_iff hs op).1)
    (fun s op hs _ => (Recorded.resettable_iff hs op).2.trans (and_iff_right trivial).symm) hstart
    (@Machine.along_of_forall _ _ _ pointerMachine _ (fun _ _ => trivial) s.start ops)
  rw [hrun]
  exact (and_iff_right fun _ => trivial).symm

/-- The theorem where a query is executed before it is reset. -/
theorem pointers_isSome_iff_users :
    (∀ p ∈ (pointerMachine.run users.start
      [.execute 0 .ok { execute := fun _ => none },
        .reset 0 { execute := fun _ => none }]).2, p.isSome = true) ↔
      pointerMachine.Along Recorded.Resettable users.start
        [.execute 0 .ok { execute := fun _ => none }, .reset 0 { execute := fun _ => none }] :=
  pointers_isSome_iff users_constructed _

/-- A query that was only constructed is reset. -/
theorem not_pointers_isSome :
    ¬∀ s : Queries, s.Constructed → ∀ ops, ∀ p ∈ (pointerMachine.run s.start ops).2,
      p.isSome = true := by
  intro h
  have hnull := h users users_constructed [.reset 0 { execute := fun _ => none }] none
    (List.mem_singleton_self _)
  cases hnull

end Queries

end CodaDb
