import CodaDb.Query.Batch
import CodaDb.Query.Calls
import CodaDb.Query.SelectCount

/-!
# After a refused execution

Where the driver refuses the text of a query or a value, `prepare` leaves a statement behind that
cannot be run. The flag `dirty_`, as it was before, then decides whether the next execution prepares
another one.
-/

namespace CodaDb

open SqlText

namespace AnyQuery

/-- An execution gets as far as to create a statement, and the driver refuses the text or a
value. -/
def Refuses (q : AnyQuery) (d : Driver) : Prop :=
  q.prepares = true ∧
    ∃ sql, q.toSql = some sql ∧ ¬d.Accepts sql.render q.base.params_ q.base.namedParams_

/-- The next execution prepares the SQL of the query and binds its parameters, whatever the driver
answers by then. -/
def Retries (q : AnyQuery) : Prop :=
  ∃ sql, q.toSql = some sql ∧ ∀ d e, ∃ q' stmt, q.execute d e = some (q', stmt) ∧
    (d.Accepts sql.render q.base.params_ q.base.namedParams_ ∧
        stmt = some (q.base.statementFor sql) ∨
      ¬d.Accepts sql.render q.base.params_ q.base.namedParams_ ∧ stmt = none)

/-- `reset` drops the statement: it is that of a select query, and the statement's own `reset`
throws nothing. -/
def Drops (q : AnyQuery) (e : Engine) : Prop :=
  ∃ q' stmt, q = .where (.select q') ∧ q'.stmt_ = some stmt ∧ e.reset stmt = .ok ()

end AnyQuery

namespace Queries

/-- The statement of the query was not prepared and bound. -/
def Dead (s : Queries) (a : Addr) : Prop :=
  (s.query a).base.stmt_.isSome = true ∧ s.loaded a = false

/-- No query has a statement that was not prepared and bound and is taken for one that was. -/
def Sound (s : Queries) : Prop := ∀ a, (s.query a).base.dirty_ = false → ¬s.Dead a

/-- An execution and a count that the driver refuses are those of a query that is marked modified,
and what has a dead statement is not copied or moved, and not reset unless that drops it. -/
def Careful (s : Queries) : QueryOp → Prop
  | .execute a d _ => (s.query a).Refuses d → (s.query a).base.dirty_ = true
  | .count a d _ => ∀ q, s.query a = .where (.select q) →
      (AnyQuery.where (.select q.counting)).Refuses d → q.dirty_ = true
  | .reset a e => s.Dead a → (s.query a).Drops e
  | .copy _ b | .move _ b _ => ¬s.Dead b
  | _ => True

end Queries

namespace AnyQuery

/-- What an execution can do: not come to an end, be turned away, be refused by the driver, or run
the statement the query has or a new one. -/
inductive Executes (q : AnyQuery) (d : Driver) : Option (AnyQuery × Option Statement) → Prop where
  | diverges (hsql : q.toSql = none) : Executes q d none
  | invalid {q'} (hchecked : q.checked = false) (hq' : q'.base = q.base) :
      Executes q d (some (q', none))
  | refused {q' sql stmt} (hd : q.Refuses d) (hchecked : q'.checked = true)
      (hsql : q'.toSql = some sql)
      (hq' : q'.base = { q.base with sql_ := sql, stmt_ := some stmt }) :
      Executes q d (some (q', none))
  | kept {q' stmt} (hstale : q.base.cache.stale = false) (hstmt : q.base.stmt_ = some stmt)
      (hstmt' : q'.base.stmt_ = some stmt) : Executes q d (some (q', some stmt))
  | loaded {q' sql} (hprepares : q.prepares = true) (hsql : q.toSql = some sql)
      (hd : d.Accepts sql.render q.base.params_ q.base.namedParams_)
      (hstmt' : q'.base.stmt_ = some (q.base.statementFor sql)) :
      Executes q d (some (q', some (q.base.statementFor sql)))

variable {q q' : AnyQuery} {d : Driver} {sql : SqlText}

lemma generateSql_ne_empty (h : q.generateSql = some sql) : sql.render ≠ "" := by
  cases q with
  | insert q =>
    cases hsession : q.session_ with
    | none =>
      rw [generateSql, InsertQuery.generateSql, hsession] at h
      cases h
    | some session =>
      rw [generateSql, InsertQuery.generateSql_eq hsession] at h
      obtain ⟨returning, -, rfl⟩ := Option.map_eq_some_iff.mp h
      simp only [InsertQuery.insertText, List.append_assoc]
      exact append_ne_empty (by simp)
  | «where» q =>
    cases q with
    | select q => exact Option.some.inj h ▸ q.generateSql_ne_empty
    | update q =>
      have hset : ∃ set, some (lit "UPDATE " ++ lit q.tableName_ ++ set ++
          (if q.where_.empty then [] else lit " WHERE " ++ q.where_.toSql) ++ lit ";") =
            some sql := by
        rw [generateSql, WhereQuery.generateSql, UpdateQuery.generateSql] at h
        split at h
        · exact ⟨_, h⟩
        · obtain ⟨set, -, hsql⟩ := Option.bind_eq_some_iff.mp h
          exact ⟨set, hsql⟩
      obtain ⟨set, hset⟩ := hset
      obtain rfl := Option.some.inj hset
      simp only [List.append_assoc]
      exact append_ne_empty (by simp)
    | delete q =>
      obtain rfl := Option.some.inj h
      simp only [DeleteQuery.generateSql, List.append_assoc]
      exact append_ne_empty (by simp)

lemma toSql_ne_empty (h : q.toSql = some sql) : sql.render ≠ "" := by
  rw [toSql, Query.toSqlWith] at h
  split at h
  · exact generateSql_ne_empty h
  · next hempty =>
    obtain rfl := Option.some.inj h
    simpa using hempty

/-- A query renders the text it keeps. -/
lemma toSql_of_memo (h : q.base.sql_ = sql) (hsql : sql.render ≠ "") : q.toSql = some sql := by
  rw [toSql, Query.toSqlWith, h, if_neg (by simpa using hsql)]

/-- The executions of the three classes that modify a table are alike. -/
lemma executes_of_modifies (hchecked : q.checked = true) (hsql : q.toSql = some sql) {e : Engine}
    {base : Query} {stmt : Option Statement} {out : Except DbException (Option (Nat × Int))}
    (hr : q.base.Modifies d e sql (base, stmt, out)) (hbase : q'.base = base)
    (hchecked' : base.session_ = q.base.session_ → q'.checked = true) :
    Executes q d (some (q', stmt)) := by
  have hne := toSql_ne_empty hsql
  have hprepares (hstale : q.base.cache.stale = true) : q.prepares = true := by
    rw [prepares, hchecked, hstale]
    rfl
  cases hr with
  | refused ex hstale hd =>
    refine .refused ⟨hprepares hstale, sql, hsql, fun h => ?_⟩ (hchecked' rfl)
      (toSql_of_memo (by rw [hbase]) hne) hbase
    cases h.prepare.symm.trans hd
  | unbound ex stmt hstale hprep hd =>
    exact .refused ⟨hprepares hstale, sql, hsql, hd⟩ (hchecked' rfl)
      (toSql_of_memo (by rw [hbase]) hne) hbase
  | kept stmt hstale hstmt => exact .kept hstale hstmt (by rw [hbase]; rfl)
  | loaded hstale hd => exact .loaded (hprepares hstale) hsql hd (by rw [hbase]; rfl)

lemma executes_insert (q : InsertQuery) (d : Driver) (e : Engine) :
    Executes (.insert q) d (execute d e (.insert q)) := by
  by_cases hvalid : q.isValid = true
  case neg =>
    rw [execute, InsertQuery.execute, if_neg hvalid]
    exact .invalid (Bool.eq_false_iff.mpr hvalid) rfl
  have hchecked : (AnyQuery.insert q).checked = true := hvalid
  cases hsql : q.toSql with
  | none =>
    rw [execute, InsertQuery.execute, if_pos hvalid, hsql]
    exact .diverges hsql
  | some sql =>
    obtain ⟨changes, lastId, hexecute⟩ := InsertQuery.execute_eq hvalid hsql d e
    rw [execute, hexecute]
    refine executes_of_modifies hchecked hsql (q.toQuery.modify_spec d e sql) rfl fun hsession => ?_
    have hsession' : (q.toQuery.modify d e sql).1.session_ = q.session_ := hsession
    simpa [checked, InsertQuery.isValid, hsession'] using hvalid

lemma executes_update (q : UpdateQuery) (d : Driver) (e : Engine) :
    Executes (.where (.update q)) d (execute d e (.where (.update q))) := by
  by_cases hvalid : q.isValid = true
  case neg =>
    rw [execute, UpdateQuery.execute, if_neg hvalid]
    exact .invalid (Bool.eq_false_iff.mpr hvalid) rfl
  have hchecked : (AnyQuery.where (.update q)).checked = true := hvalid
  cases hsql : q.toSql with
  | none =>
    rw [execute, UpdateQuery.execute, if_pos hvalid, hsql]
    exact .diverges hsql
  | some sql =>
    obtain ⟨changes, hexecute⟩ := UpdateQuery.execute_eq hvalid hsql d e
    rw [execute, hexecute]
    refine executes_of_modifies hchecked hsql (q.toQuery.modify_spec d e sql) rfl fun hsession => ?_
    have hsession' : (q.toQuery.modify d e sql).1.session_ = q.session_ := hsession
    simpa [checked, UpdateQuery.isValid, hsession'] using hvalid

lemma executes_delete (q : DeleteQuery) (d : Driver) (e : Engine) :
    Executes (.where (.delete q)) d (execute d e (.where (.delete q))) := by
  by_cases hvalid : q.isValid = true
  case neg =>
    rw [execute, DeleteQuery.execute, if_neg hvalid]
    exact .invalid (Bool.eq_false_iff.mpr hvalid) rfl
  have hchecked : (AnyQuery.where (.delete q)).checked = true := hvalid
  cases hsql : q.toSql with
  | none =>
    rw [execute, DeleteQuery.execute, if_pos hvalid, hsql]
    exact .diverges hsql
  | some sql =>
    obtain ⟨changes, hexecute⟩ := DeleteQuery.execute_eq hvalid hsql d e
    rw [execute, hexecute]
    refine executes_of_modifies hchecked hsql (q.toQuery.modify_spec d e sql) rfl fun hsession => ?_
    have hsession' : (q.toQuery.modify d e sql).1.session_ = q.session_ := hsession
    simpa [checked, DeleteQuery.isValid, hsession'] using hvalid

lemma toSql_select (q : SelectQuery) : (AnyQuery.where (.select q)).toSql = some q.toSql := by
  rw [toSql, Query.toSqlWith, SelectQuery.toSql]
  exact (apply_ite some _ _ _).symm

lemma executes_select (q : SelectQuery) (d : Driver) (e : Engine) :
    Executes (.where (.select q)) d (execute d e (.where (.select q))) := by
  have hsql := toSql_select q
  obtain ⟨base, heq, hspec⟩ := q.prepare_spec d
  rw [execute, SelectQuery.execute_eq, heq]
  have hprepares : q.cache.stale = true → (AnyQuery.where (.select q)).prepares = true := id
  generalize (q.prepare d).2 = out at hspec
  generalize hr : (base, out) = r at hspec
  have hne := toSql_ne_empty hsql
  cases hspec with
  | kept hstale =>
    obtain ⟨rfl, rfl⟩ := Prod.mk.inj hr
    cases hstmt : q.stmt_ with
    | none => cases hstale.symm.trans (Query.stale_of_none hstmt)
    | some stmt =>
      have hran : q.memoise.stmt_ = some stmt := hstmt
      rw [if_pos rfl, hran]
      exact .kept hstale hstmt hran
  | refused ex hstale hd =>
    obtain ⟨rfl, rfl⟩ := Prod.mk.inj hr
    refine .refused ⟨hprepares hstale, _, hsql, fun h => ?_⟩ rfl (toSql_of_memo rfl hne) rfl
    cases h.prepare.symm.trans hd
  | unbound ex stmt hstale hprep hd =>
    obtain ⟨rfl, rfl⟩ := Prod.mk.inj hr
    exact .refused ⟨hprepares hstale, _, hsql, hd⟩ rfl (toSql_of_memo rfl hne) rfl
  | loaded hstale hd =>
    obtain ⟨rfl, rfl⟩ := Prod.mk.inj hr
    rw [if_pos rfl]
    exact .loaded (hprepares hstale) hsql hd rfl

theorem execute_spec (q : AnyQuery) (d : Driver) (e : Engine) : Executes q d (q.execute d e) := by
  cases q with
  | insert q => exact executes_insert q d e
  | «where» q =>
    cases q with
    | select q => exact executes_select q d e
    | update q => exact executes_update q d e
    | delete q => exact executes_delete q d e

/-- A query that is marked modified prepares its SQL when it is executed. -/
lemma retries_of_dirty (hchecked : q.checked = true) (hdirty : q.base.dirty_ = true)
    (hsql : q.toSql = some sql) : q.Retries := by
  refine ⟨sql, hsql, fun d e => ?_⟩
  have hstale : q.base.cache.stale = true := Query.stale_of_dirty hdirty
  have hspec := q.execute_spec d e
  generalize q.execute d e = r at hspec ⊢
  cases hspec with
  | diverges hnone => cases hnone.symm.trans hsql
  | invalid hinvalid => cases hinvalid.symm.trans hchecked
  | refused hd =>
    obtain ⟨-, sql', hsql', hd⟩ := hd
    obtain rfl := Option.some.inj (hsql'.symm.trans hsql)
    exact ⟨_, _, rfl, .inr ⟨hd, rfl⟩⟩
  | kept hkept => cases hkept.symm.trans hstale
  | loaded _ hsql' hd =>
    obtain rfl := Option.some.inj (hsql'.symm.trans hsql)
    exact ⟨_, _, rfl, .inl ⟨hd, rfl⟩⟩

end AnyQuery

namespace Queries

open Query

variable {s s' : Queries} {a : Addr} {q : AnyQuery} {loaded : Bool}

lemma sound_putLoaded_iff (hs : s.Sound) :
    (s.putLoaded a q loaded).Sound ↔
      (q.base.dirty_ = false → q.base.stmt_.isSome = true → loaded = true) := by
  constructor
  · intro h hdirty hstmt
    by_contra hloaded
    refine h a ?_ ⟨?_, ?_⟩
    · rw [putLoaded_query, if_pos rfl]
      exact hdirty
    · rw [putLoaded_query, if_pos rfl]
      exact hstmt
    · rw [putLoaded_loaded, if_pos rfl]
      exact Bool.eq_false_iff.mpr hloaded
  · intro h x hdirty hdead
    rw [Dead, putLoaded_query, putLoaded_loaded] at hdead
    rw [putLoaded_query] at hdirty
    split at hdirty
    · next hx =>
      rw [if_pos hx, if_pos hx] at hdead
      cases hdead.2.symm.trans (h hdirty hdead.1)
    · next hx =>
      rw [if_neg hx, if_neg hx] at hdead
      exact hs x hdirty hdead

lemma put_eq (s : Queries) (a : Addr) (q : AnyQuery) :
    s.put a q = s.putLoaded a q (s.loaded a) := by
  rw [put, putLoaded, Function.update_eq_self]

lemma sound_put_iff (hs : s.Sound) :
    (s.put a q).Sound ↔
      (q.base.dirty_ = false → q.base.stmt_.isSome = true → s.loaded a = true) := by
  rw [put_eq]
  exact sound_putLoaded_iff hs

/-- Setters leave no dead statement to be taken for another. -/
lemma sound_edited (hs : s.Sound) (hquery : ∀ x, Edited (s.query x).base (s'.query x).base)
    (hloaded : s'.loaded = s.loaded) : s'.Sound := by
  intro x hdirty hdead
  obtain ⟨hstmt, hmodified⟩ := hquery x
  refine hs x ?_ ⟨hstmt ▸ hdead.1, hloaded ▸ hdead.2⟩
  exact Bool.eq_false_iff.mpr fun h => Bool.false_ne_true (hdirty.symm.trans (hmodified h))

lemma sound_moved (hs : s.Sound) (rest : AnyQuery) : (s.put a rest.moved).Sound := by
  rw [sound_put_iff hs, AnyQuery.moved, AnyQuery.base_withBase]
  exact nofun

lemma not_dead_iff : ¬s.Dead a ↔ ((s.query a).base.stmt_.isSome = true → s.loaded a = true) := by
  rw [Dead, not_and, Bool.not_eq_false]

/-- An execution keeps the statements sound, and can be tried again, exactly if the driver does not
refuse it or the query was marked modified. -/
lemma careful_execute (hs : s.Sound) (a : Addr) (d : Driver) (e : Engine) :
    s.Careful (.execute a d e) ↔ (queryMachine.step s (.execute a d e)).1.Sound ∧
      ∀ q ∈ (queryMachine.step s (.execute a d e)).2, q.Retries := by
  have hspec := (s.query a).execute_spec d e
  simp only [queryMachine, Careful]
  generalize (s.query a).execute d e = r at hspec ⊢
  cases hspec with
  | diverges hsql =>
    refine iff_of_true ?_ ⟨hs, List.forall_mem_nil _⟩
    rintro ⟨-, sql, hsql', -⟩
    cases hsql.symm.trans hsql'
  | invalid hchecked hq' =>
    have hprepares : (s.query a).prepares = false := by
      rw [AnyQuery.prepares, hchecked]
      rfl
    simp only [hprepares, Bool.false_eq_true, if_false]
    refine iff_of_true ?_ ⟨sound_edited hs (edited_put (hq' ▸ .refl _)) rfl, List.forall_mem_nil _⟩
    rintro ⟨hprepares', -⟩
    cases hprepares.symm.trans hprepares'
  | @refused q' sql stmt hd hchecked hsql hq' =>
    simp only [hd.1, if_true, Option.isNone_none]
    rw [sound_putLoaded_iff hs, hq']
    constructor
    · intro hcareful
      have hdirty : (s.query a).base.dirty_ = true := hcareful hd
      refine ⟨fun hclean => ?_, fun q hq => ?_⟩
      · cases hclean.symm.trans hdirty
      · obtain rfl := List.mem_singleton.mp hq
        exact AnyQuery.retries_of_dirty hchecked (by rw [hq']; exact hdirty) hsql
    · rintro ⟨hsound, -⟩ -
      by_contra hclean
      cases hsound (Bool.eq_false_iff.mpr hclean) rfl
  | @kept q' stmt hstale hstmt hstmt' =>
    have hprepares : (s.query a).prepares = false := by
      rw [AnyQuery.prepares, hstale, Bool.and_false]
    simp only [hprepares, Bool.false_eq_true, if_false]
    refine iff_of_true ?_ ⟨?_, List.forall_mem_nil _⟩
    · rintro ⟨hprepares', -⟩
      cases hprepares.symm.trans hprepares'
    · -- the query was not marked modified, so its statement was prepared and bound
      rw [sound_put_iff hs]
      intro _ _
      have hclean : (s.query a).base.dirty_ = false := by
        rw [Query.stale_eq, hstmt] at hstale
        exact hstale
      exact not_dead_iff.mp (hs a hclean) (by rw [hstmt]; rfl)
  | loaded hprepares hsql hd hstmt' =>
    simp only [hprepares, if_true, Option.isNone_some]
    refine iff_of_true ?_ ⟨?_, List.forall_mem_nil _⟩
    · rintro ⟨-, sql', hsql', hd'⟩
      obtain rfl := Option.some.inj (hsql.symm.trans hsql')
      exact absurd hd hd'
    · rw [sound_putLoaded_iff hs]
      exact fun _ _ => rfl

/-- `count` does to the base what an execution with its own columns would do. -/
lemma executes_count (q : SelectQuery) (d : Driver) (answer : Statement → Except DbException Int) :
    ∃ q' : AnyQuery, AnyQuery.Executes (.where (.select q.counting)) d
        (some (q', (q.count d answer).2.1)) ∧
      (AnyQuery.where (.select (q.count d answer).1)).base = q'.base := by
  obtain ⟨hquery, hstmt, -⟩ := q.count_eq d answer
  have hspec := AnyQuery.executes_select q.counting d { execute := fun _ => none }
  refine ⟨.where (.select (q.counting.execute d).1), hstmt ▸ hspec, ?_⟩
  rw [hquery, SelectQuery.execute_eq]
  rfl

lemma careful_count (hs : s.Sound) (a : Addr) (d : Driver)
    (answer : Statement → Except DbException Int) :
    s.Careful (.count a d answer) ↔ (queryMachine.step s (.count a d answer)).1.Sound := by
  simp only [queryMachine, Careful]
  cases hquery : s.query a with
  | insert q => exact iff_of_true nofun hs
  | «where» q =>
    cases q with
    | update | delete => exact iff_of_true nofun hs
    | select q =>
      have hcareful : (∀ q', AnyQuery.where (.select q) = .where (.select q') →
          (AnyQuery.where (.select q'.counting)).Refuses d → q'.dirty_ = true) ↔
          ((AnyQuery.where (.select q.counting)).Refuses d → q.dirty_ = true) := by
        refine ⟨fun h => h q rfl, fun h q' hq' => ?_⟩
        cases hq'
        exact h
      rw [hcareful]
      obtain ⟨q', hspec, hbase⟩ := executes_count q d answer
      dsimp only
      generalize (q.count d answer).2.1 = stmt at hspec ⊢
      generalize AnyQuery.where (.select (q.count d answer).1) = q'' at hbase ⊢
      cases hspec with
      | invalid hchecked => cases hchecked
      | @refused _ sql stmt hd hchecked hsql hq' =>
        have hstale : q.cache.stale = true := hd.1
        rw [if_pos hstale, sound_putLoaded_iff hs, hbase, hq']
        constructor
        · intro hcareful hclean
          cases hclean.symm.trans (hcareful hd)
        · intro hsound _
          by_contra hclean
          cases hsound (Bool.eq_false_iff.mpr hclean) rfl
      | @kept _ stmt hstale hstmt hstmt' =>
        have hkept : q.cache.stale = false := hstale
        rw [if_neg (by rw [hkept]; exact Bool.false_ne_true)]
        refine iff_of_true ?_ ?_
        · rintro ⟨hprepares, -⟩
          cases hkept.symm.trans hprepares
        · rw [sound_put_iff hs]
          intro _ _
          have hnot : (s.query a).base.dirty_ = false := by
            rw [hquery]
            rw [Query.stale_eq, Bool.or_eq_false_iff] at hkept
            exact hkept.2
          have hsome : (s.query a).base.stmt_.isSome = true := by
            rw [hquery]
            exact Option.isSome_of_eq_some hstmt
          exact not_dead_iff.mp (hs a hnot) hsome
      | loaded hprepares hsql hd hstmt' =>
        have hstale : q.cache.stale = true := hprepares
        rw [if_pos hstale]
        refine iff_of_true ?_ ?_
        · rintro ⟨-, sql', hsql', hd'⟩
          obtain rfl := Option.some.inj (hsql.symm.trans hsql')
          exact absurd hd hd'
        · rw [sound_putLoaded_iff hs]
          exact fun _ _ => rfl

end Queries

namespace AnyQuery

lemma reset_select (q : SelectQuery) (e : Engine) :
    (q.reset e).dirty_ = false ∧
      ((q.reset e).stmt_.isSome = true ↔
        q.stmt_.isSome = true ∧ ¬Drops (.where (.select q)) e) := by
  have hdrops : ∀ stmt, q.stmt_ = some stmt →
      (Drops (.where (.select q)) e ↔ e.reset stmt = .ok ()) := by
    intro stmt hstmt
    refine ⟨?_, fun h => ⟨q, stmt, rfl, hstmt, h⟩⟩
    rintro ⟨q', stmt', hq', hstmt', hok⟩
    cases hq'
    obtain rfl := Option.some.inj (hstmt.symm.trans hstmt')
    exact hok
  rw [SelectQuery.reset]
  cases hstmt : q.stmt_ with
  | none => exact ⟨rfl, by simp [Query.reset, hstmt]⟩
  | some stmt =>
    rw [hdrops stmt hstmt, Option.map_some]
    cases hreset : e.reset stmt with
    | error ex => exact ⟨rfl, by simp [Query.reset, hstmt]⟩
    | ok => exact ⟨rfl, by simp⟩

/-- `reset` clears the flag. -/
lemma reset_spec (q : AnyQuery) (e : Engine) :
    (q.reset e).base.dirty_ = false ∧
      ((q.reset e).base.stmt_.isSome = true ↔ q.base.stmt_.isSome = true ∧ ¬q.Drops e) := by
  have hkept : (∀ q', q ≠ .where (.select q')) → ¬q.Drops e := by
    rintro h ⟨q', -, hq', -⟩
    exact h q' hq'
  cases q with
  | insert q => exact ⟨rfl, (and_iff_left (hkept nofun)).symm⟩
  | «where» q =>
    cases q with
    | select q => exact reset_select q e
    | update q => exact ⟨rfl, (and_iff_left (hkept nofun)).symm⟩
    | delete q => exact ⟨rfl, (and_iff_left (hkept nofun)).symm⟩

end AnyQuery

namespace Queries

open Query

variable {s : Queries} {a b : Addr}

lemma careful_reset (hs : s.Sound) (a : Addr) (e : Engine) :
    s.Careful (.reset a e) ↔ (queryMachine.step s (.reset a e)).1.Sound := by
  obtain ⟨hclean, hstmt⟩ := (s.query a).reset_spec e
  simp only [queryMachine, Careful]
  rw [sound_put_iff hs, hstmt, Dead]
  constructor
  · rintro hcareful - ⟨hsome, hdrops⟩
    by_contra hloaded
    exact hdrops (hcareful ⟨hsome, Bool.eq_false_iff.mpr hloaded⟩)
  · rintro hsound ⟨hsome, hloaded⟩
    by_contra hdrops
    cases hloaded.symm.trans (hsound hclean ⟨hsome, hdrops⟩)

/-- A new object is not marked modified, whatever statement it gets. -/
lemma sound_construct_iff {s' : Queries} (hs' : s'.Sound) {q : AnyQuery}
    (hdirty : q.base.dirty_ = false) (hstmt : q.base.stmt_ = (s.query b).base.stmt_) :
    (s'.putLoaded a q (s.loaded b)).Sound ↔ ¬s.Dead b := by
  rw [sound_putLoaded_iff hs', not_dead_iff, hstmt]
  exact ⟨fun h => h hdirty, fun h _ => h⟩

/-- An assigned query has the flag and the statement of its source. -/
lemma sound_assign (hs : s.Sound) {q : AnyQuery}
    (hq : (s.query a).assign (s.query b) = some q) : (s.putLoaded a q (s.loaded b)).Sound := by
  rw [sound_putLoaded_iff hs, AnyQuery.base_assign hq]
  exact fun hdirty hstmt => not_dead_iff.mp (hs b hdirty) hstmt

lemma sound_moveAssigned (hs : s.Sound) {q : AnyQuery}
    (hq : (s.query a).assign (s.query b) = some q) (rest : AnyQuery) :
    ((s.putLoaded a q (s.loaded b)).put b ((s.query b).moveAssigned rest)).Sound := by
  have hassigned := sound_assign hs hq
  rw [AnyQuery.moveAssigned]
  split
  · exact sound_moved hassigned rest
  · rw [sound_put_iff hassigned, AnyQuery.base_withBase, putLoaded_loaded]
    intro hclean hstmt
    rw [ite_self]
    exact not_dead_iff.mp (hs b hclean) hstmt

lemma sound_memoise (hs : s.Sound) (a : Addr) : (s.put a (s.query a).memoise).Sound :=
  sound_edited hs (edited_put (s.query a).edited_memoise) rfl

/-- A call keeps the statements sound, and leaves a query that can be tried again, exactly if it is
a careful one. -/
theorem careful_iff (hs : s.Sound) (op : QueryOp) :
    s.Careful op ↔ (queryMachine.step s op).1.Sound ∧
      ∀ q ∈ (queryMachine.step s op).2, q.Retries := by
  cases op with
  | construct a q =>
    refine iff_of_true trivial ⟨(sound_put_iff hs).mpr fun _ hstmt => ?_, List.forall_mem_nil _⟩
    rw [q.2.stmt] at hstmt
    cases hstmt
  | edit a e =>
    exact iff_of_true trivial
      ⟨sound_edited hs (edited_put (e.edited _)) rfl, List.forall_mem_nil _⟩
  | append a how o =>
    exact iff_of_true trivial
      ⟨sound_edited hs (fun x => edited_append s a x how o) (append_loaded s a how o),
        List.forall_mem_nil _⟩
  | refer a rest =>
    refine iff_of_true trivial ⟨sound_edited hs (edited_put ?_) rfl, List.forall_mem_nil _⟩
    rw [AnyQuery.base_withBase]
    exact .refl _
  | toSql a => exact iff_of_true trivial ⟨sound_memoise hs a, List.forall_mem_nil _⟩
  | execute a d e => exact careful_execute hs a d e
  | count a d answer =>
    rw [careful_count hs]
    refine (and_iff_left ?_).symm
    simp only [queryMachine]
    split
    · split <;> exact List.forall_mem_nil _
    · exact List.forall_mem_nil _
  | reset a e => exact (careful_reset hs a e).trans (and_iff_left (List.forall_mem_nil _)).symm
  | copy a b =>
    have hstmt : (s.query b).copy.base.stmt_ = (s.query b).base.stmt_ := by
      rw [AnyQuery.base_copy]
      rfl
    have hdirty : (s.query b).copy.base.dirty_ = false := by
      rw [AnyQuery.base_copy]
      rfl
    exact (sound_construct_iff hs hdirty hstmt).symm.trans
      (and_iff_left (List.forall_mem_nil _)).symm
  | move a b rest =>
    have hstmt : (s.query b).move.base.stmt_ = (s.query b).base.stmt_ := by
      rw [AnyQuery.move, AnyQuery.base_withBase]
      rfl
    have hdirty : (s.query b).move.base.dirty_ = false := by
      rw [AnyQuery.move, AnyQuery.base_withBase]
      rfl
    exact (sound_construct_iff (sound_moved hs rest) hdirty hstmt).symm.trans
      (and_iff_left (List.forall_mem_nil _)).symm
  | assign a b =>
    simp only [queryMachine]
    cases hassign : (s.query a).assign (s.query b) with
    | none => exact iff_of_true trivial ⟨hs, List.forall_mem_nil _⟩
    | some q => exact iff_of_true trivial ⟨sound_assign hs hassign, List.forall_mem_nil _⟩
  | moveAssign a b rest =>
    simp only [queryMachine]
    cases hassign : (s.query a).assign (s.query b) with
    | none => exact iff_of_true trivial ⟨hs, List.forall_mem_nil _⟩
    | some q =>
      exact iff_of_true trivial ⟨sound_moveAssigned hs hassign rest, List.forall_mem_nil _⟩

/-- All queries are as the constructors build them. -/
def Constructed (s : Queries) : Prop := ∀ a, (s.query a).Constructed

lemma Constructed.sound (h : s.Constructed) : s.Sound := by
  rintro a - ⟨hstmt, -⟩
  rw [(h a).stmt] at hstmt
  cases hstmt

/-- In the runs whose calls are all careful, and in no others, no query is ever left with a dead
statement that it takes for its own, and each refused execution can be tried again. -/
theorem recovers_iff (h : s.Constructed) (ops : List QueryOp) :
    ((∀ n, (queryMachine.run s (ops.take n)).1.Sound) ∧
      ∀ q ∈ (queryMachine.run s ops).2, q.Retries) ↔ queryMachine.Along Careful s ops :=
  (queryMachine.along_iff Careful Sound AnyQuery.Retries (fun _ op hs => careful_iff hs op)
    h.sound ops).symm

/-- Select queries at all addresses. -/
def users : Queries :=
  { query := fun a => .where (.select (.ofSession a { impl_ := .sqlite } [] "users"))
    loaded := fun _ => false }

lemma users_constructed : users.Constructed := fun a =>
  .where (.select (.table a { impl_ := .sqlite } [] "users"))

/-- A driver that knows no table. -/
def refusing : Driver := { prepare := fun _ => some (.database "no such table: users") }

/-- An execution that is refused, after a condition was set. -/
def conditionThenExecute : List QueryOp :=
  [.append 0 .reset (Op.equals (.string "name") (.string "bob")),
    .execute 0 refusing { execute := fun _ => none }]

/-- The theorem at these calls. -/
theorem recovers_iff_users :
    ((∀ n, (queryMachine.run users (conditionThenExecute.take n)).1.Sound) ∧
      ∀ q ∈ (queryMachine.run users conditionThenExecute).2, q.Retries) ↔
      queryMachine.Along Careful users conditionThenExecute :=
  recovers_iff users_constructed conditionThenExecute

/-- An execution that is refused, without any call before it. -/
def executeAlone : List QueryOp := [.execute 0 refusing { execute := fun _ => none }]

/-- A query from a constructor alone is left with a statement that cannot be run, and takes it for
one that can. -/
theorem not_recovers_users :
    ¬((∀ n, (queryMachine.run users (executeAlone.take n)).1.Sound) ∧
      ∀ q ∈ (queryMachine.run users executeAlone).2, q.Retries) := by
  rintro ⟨hsound, -⟩
  have hquery : ((queryMachine.run users (executeAlone.take 1)).1.query 0).base =
      { session_ := some { impl_ := .sqlite }
        sql_ := SelectQuery.toSql (.ofSession 0 { impl_ := .sqlite } [] "users")
        stmt_ := some {} } := rfl
  refine hsound 1 0 ?_ ⟨?_, rfl⟩
  · rw [hquery]
  · rw [hquery]
    rfl

end Queries

end CodaDb
