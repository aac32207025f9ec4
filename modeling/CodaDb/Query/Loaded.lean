import CodaDb.Query.Sent
import CodaDb.Query.Statement

/-!
# Queries on the drivers

A query makes a new statement for a text, binds its parameters from 1 on, and may execute and reset
the statement many times. What the drivers send is then the statement of the query.
-/

namespace CodaDb

open SlotArray

namespace StatementCall

/-- The loop over `params_` in `query::prepare`, from index `i` on. -/
def bindsFrom : Nat → List SqlValue → List StatementCall
  | _, [] => []
  | i, v :: vs => .bind i (.value v) :: bindsFrom (i + 1) vs

/-- The calls of `query::prepare` on a new statement, without named parameters. -/
def loading (sql : SqlText) (params : List SqlValue) : List StatementCall :=
  .prepare sql.render :: bindsFrom 1 params

end StatementCall

/-- What is known of a statement of a driver is what the query takes it for. -/
structure Prepared.Models (p : Prepared) (st : Statement) : Prop where
  sql : p.sql = st.sql.map SqlText.render
  value : ∀ i, p.values.value i = (st.bound i).map .value
  since : ∀ i, p.since i = (st.bound i).isSome

namespace Prepared.Models

variable {p : Prepared} {st : Statement}

lemma fresh (h : p.Models st) : p.Fresh := by
  intro i hi
  rwa [h.value, Option.isSome_map, ← h.since] at hi

lemma bound (h : p.Models st) (i : Nat) : p.bound i = (st.bound i).map .value := by
  rw [h.fresh.bound_eq, h.value]

lemma prepare (sql : SqlText) :
    Models { sql := some sql.render } { sql := some sql } :=
  ⟨rfl, fun _ => rfl, fun _ => rfl⟩

/-- A value that has a slot. -/
lemma bind {σ : Type} {encode : BoundValue → Encoded σ} (h : p.Models st) (keeps : Bool) {i : Nat}
    (hi : i ≠ 0) {v : SqlValue} {a : σ} (hv : encode (.value v) = .slot a) :
    ∃ p', p.step encode keeps (.bind i (.value v)) = some p' ∧ p'.Models (st.bind i v) := by
  refine ⟨{ p with values := p.values.set i (some (.value v))
                   since := Function.update p.since i true }, ?_, h.sql, fun j => ?_, fun j => ?_⟩
  · rw [step, Contents.bind, if_neg hi, hv]
    rfl
  · by_cases hj : j = i
    · subst hj
      simp [Statement.bind]
    · simp [Statement.bind, hj, h.value j]
  · by_cases hj : j = i
    · subst hj
      simp [Statement.bind]
    · simp [Statement.bind, hj, h.since j]

/-- The parameters of a query are bound to the numbers from 1 on. -/
lemma bound_loaded {sql : SqlText} {params : List SqlValue} {named : NamedParams}
    (h : p.Models (.loaded sql params named)) (i : Nat) :
    (p.bound i).isSome = true ↔ 1 ≤ i ∧ i ≤ params.length := by
  rw [h.bound, Option.isSome_map, Statement.loaded]
  by_cases hi : i = 0
  · simp [hi]
  · have hlt : i - 1 < params.length ↔ 1 ≤ i ∧ i ≤ params.length := by omega
    simp [hi, ← hlt]

lemma contiguous {sql : SqlText} {params : List SqlValue} {named : NamedParams}
    (h : p.Models (.loaded sql params named)) : p.Contiguous :=
  ⟨params.length, fun i => by rw [← h.fresh.bound_eq]; exact h.bound_loaded i⟩

end Prepared.Models

namespace StatementKind

variable {τ σ : Type} {kind : StatementKind τ σ} {encode : BoundValue → Encoded σ} {keeps : Bool}
  {R : τ → Prepared → Prop}

/-- A call that both take leads on, and emits nothing unless it executes. -/
lemma step_eq
    (hstep : ∀ s p call, R s p → Option.Rel R (kind.step s call) (p.step encode keeps call))
    {s : τ} {p p' : Prepared} (hs : R s p) {call : StatementCall}
    (hcall : p.step encode keeps call = some p') (hexecute : call ≠ .execute) :
    ∃ s', R s' p' ∧ (kind.machine encode keeps).step (some (s, p)) call = (some (s', p'), []) := by
  have hrel := hstep s p call hs
  rw [hcall] at hrel
  generalize hnext : kind.step s call = next at hrel
  cases hrel with
  | some hR =>
    next s' =>
    refine ⟨s', hR, ?_⟩
    cases call with
    | execute => exact absurd rfl hexecute
    | _ => simp only [machine, Option.bind_some, hnext, hcall, Option.map_some]

/-- The loop over the parameters, which a driver and the statement of the query go through alike. -/
lemma run_bindsFrom
    (hstep : ∀ s p call, R s p → Option.Rel R (kind.step s call) (p.step encode keeps call))
    {params : List SqlValue} (hslot : ∀ v ∈ params, ∃ a, encode (.value v) = .slot a) {i : Nat}
    (hi : i ≠ 0) {s : τ} {p : Prepared} {st : Statement} (hs : R s p) (hst : p.Models st) :
    ∃ s' p', (kind.machine encode keeps).run (some (s, p)) (StatementCall.bindsFrom i params) =
        (some (s', p'), []) ∧ R s' p' ∧ p'.Models (st.bindParams .ok i params).1 := by
  induction params generalizing i s p st with
  | nil => exact ⟨s, p, rfl, hs, hst⟩
  | cons v params ih =>
    obtain ⟨⟨a, ha⟩, hparams⟩ := List.forall_mem_cons.mp hslot
    obtain ⟨known, hknown, hmodels⟩ := hst.bind keeps hi ha
    obtain ⟨next, hnext, hfirst⟩ := step_eq hstep hs hknown nofun
    obtain ⟨s', p', hrun, hs', hp'⟩ := ih hparams (Nat.succ_ne_zero i) hnext hmodels
    refine ⟨s', p', ?_, hs', hp'⟩
    rw [StatementCall.bindsFrom, Machine.run_cons, hfirst, hrun]
    rfl

/-- Of a new statement the query and the driver agree when it has been prepared. -/
lemma run_loading
    (hstep : ∀ s p call, R s p → Option.Rel R (kind.step s call) (p.step encode keeps call))
    {s : τ} (hs : R s {}) (sql : SqlText) {params : List SqlValue}
    (hslot : ∀ v ∈ params, ∃ a, encode (.value v) = .slot a) :
    ∃ s' p', (kind.machine encode keeps).run (some (s, {})) (StatementCall.loading sql params) =
        (some (s', p'), []) ∧ R s' p' ∧ p'.Models (.loaded sql params ∅) := by
  have hprepare : Prepared.step encode keeps {} (.prepare sql.render) =
      some { sql := some sql.render } := rfl
  obtain ⟨next, hnext, hfirst⟩ := step_eq hstep hs hprepare nofun
  obtain ⟨s', p', hrun, hs', hp'⟩ :=
    run_bindsFrom hstep hslot one_ne_zero hnext (Prepared.Models.prepare sql)
  refine ⟨s', p', ?_, hs', ?_⟩
  · rw [StatementCall.loading, Machine.run_cons, hfirst, hrun]
    rfl
  · have hok := (Statement.bindParams_ok_iff .ok { sql := some sql } 1 params).mpr fun _ _ _ => rfl
    have hloaded : (Statement.bindNamedParams .ok
        (Statement.bindParams .ok { sql := some sql } 1 params).1 (∅ : NamedParams).entries).1 =
          .loaded sql params ∅ := Statement.bindNamedParams_bindParams hok rfl
    exact hloaded ▸ hp'

/-- After that the statement is executed and reset. -/
lemma executions_loaded
    (hstep : ∀ s p call, R s p → Option.Rel R (kind.step s call) (p.step encode keeps call))
    {s : τ} (hs : R s {}) (sql : SqlText) {params : List SqlValue}
    (hslot : ∀ v ∈ params, ∃ a, encode (.value v) = .slot a) {calls : List StatementCall}
    (hcalls : ∀ call ∈ calls, call = .execute ∨ call = .reset) {P : Execution σ × Prepared → Prop}
    (hout : ∀ s p, R s p → p.Models (.loaded sql params ∅) → P (kind.execute s, p)) :
    ∀ e ∈ ((kind.machine encode keeps).run (some (s, {}))
      (StatementCall.loading sql params ++ calls)).2, P e := by
  obtain ⟨s', p', hrun, hs', hp'⟩ := run_loading hstep hs sql hslot
  rw [Machine.run_append, hrun, List.nil_append]
  have halong : (kind.machine encode keeps).Along (fun _ call => call = .execute ∨ call = .reset)
      (some (s', p')) calls := Machine.along_iff_forall.mpr hcalls
  refine Machine.run_outputs_along _ _
    (Tracks fun t p => R t p ∧ p.Models (.loaded sql params ∅)) P ?_ ?_ ?_ halong
  · rintro s call h hcall r hr
    have htracks := tracks_step hstep s call (fun r hr => (h r hr).1) r hr
    refine ⟨htracks, ?_⟩
    obtain ⟨⟨t, p⟩, rfl, hboth⟩ := Option.bind_eq_some_iff.mp hr
    obtain ⟨next, -, hmap⟩ := Option.bind_eq_some_iff.mp hboth
    obtain ⟨known, hknown, rfl⟩ := Option.map_eq_some_iff.mp hmap
    obtain rfl | rfl := hcall
    · cases hknown
      exact (h _ rfl).2
    · cases hknown
      exact (h _ rfl).2
  · rintro s call h hcall e he
    cases s with
    | none => cases he
    | some r =>
      obtain rfl | rfl := hcall
      · obtain rfl := List.mem_singleton.mp he
        exact hout r.1 r.2 (h r rfl).1 (h r rfl).2
      · cases he
  · intro r hr
    cases hr
    exact ⟨hs', hp'⟩

end StatementKind

/-- An execution sends a statement of a query. -/
def Execution.SendsStatement {σ : Type} (zero : σ) (encode : BoundValue → Encoded σ)
    (e : Execution σ) (st : Statement) : Prop :=
  ∃ sql arguments, st.sql = some sql ∧ e = .sent sql.render arguments ∧
    ∀ i, arguments[i]? = (st.bound (i + 1)).map fun v => slotOf zero encode (some (.value v))

lemma Execution.Sends.sendsStatement {σ : Type} {zero : σ} {encode : BoundValue → Encoded σ}
    {e : Execution σ} {p : Prepared} (h : e.Sends zero encode p) {sql : SqlText}
    {params : List SqlValue} (hp : p.Models (.loaded sql params ∅)) :
    e.SendsStatement zero encode (.loaded sql params ∅) := by
  obtain ⟨text, arguments, rfl, hsql, harguments⟩ := h
  obtain rfl : sql.render = text := Option.some.inj (hp.sql.symm.trans hsql)
  refine ⟨sql, arguments, rfl, rfl, fun i => ?_⟩
  rw [harguments, hp.bound, Option.map_map]
  rfl

/-- Whenever the statement of a query is executed, PostgreSQL is sent its text with its
parameters, if every one of these can be stored. -/
theorem Postgres.sends_loaded (locale : Locale) (sql : SqlText) {params : List SqlValue}
    (hslot : ∀ v ∈ params, ∃ a, Slot.encode locale (.value v) = .slot a)
    {calls : List StatementCall} (hcalls : ∀ call ∈ calls, call = .execute ∨ call = .reset) :
    ∀ e ∈ (((DriverStatement.kind locale).machine (Slot.encode locale) true).run
        (some ({}, {})) (StatementCall.loading sql params ++ calls)).2,
      e.1.SendsStatement .cleared (Slot.encode locale) (.loaded sql params ∅) := by
  refine StatementKind.executions_loaded (R := DriverStatement.InStep locale)
    (DriverStatement.inStep_step locale) ⟨(Store.refines locale).construct 10, rfl⟩ sql hslot
    hcalls fun s p hs hp => ?_
  have hsql : p.sql.isSome = true := by
    rw [hp.sql]
    rfl
  exact ((DriverStatement.sends_iff hs).mpr ⟨hsql, hp.fresh, hp.contiguous⟩).sendsStatement hp

/-- The values of a name and of a number. -/
def namedSeven : List SqlValue := [.string "bob", .number (.integral .int ⟨7, by decide⟩)]

/-- A statement that is executed twice. -/
def updatingTwice (text : String) : List StatementCall :=
  StatementCall.loading (.lit text) namedSeven ++ [.execute, .reset, .execute]

theorem Postgres.sends_loaded_twice :
    (((DriverStatement.kind .posix).machine (Slot.encode .posix) true).run
        (some ({}, {})) (updatingTwice "UPDATE users SET name = $1 WHERE id = $2")).2.length = 2 ∧
      ∀ e ∈ (((DriverStatement.kind .posix).machine (Slot.encode .posix) true).run
          (some ({}, {})) (updatingTwice "UPDATE users SET name = $1 WHERE id = $2")).2,
        e.1.SendsStatement .cleared (Slot.encode .posix)
          (.loaded (.lit "UPDATE users SET name = $1 WHERE id = $2") namedSeven ∅) :=
  ⟨rfl, sends_loaded .posix _
    (List.forall_mem_cons.mpr ⟨⟨_, rfl⟩, List.forall_mem_singleton.mpr ⟨_, rfl⟩⟩) (by simp)⟩

/-- The same is true for MySQL if the server counts as many parameters in the text. -/
theorem Mysql.sends_counted (count : String → Nat) (sql : SqlText) {params : List SqlValue}
    (hcount : count sql.render = params.length)
    (hslot : ∀ v ∈ params, ∃ a, Bind.encode (.value v) = .slot a)
    {calls : List StatementCall} (hcalls : ∀ call ∈ calls, call = .execute ∨ call = .reset) :
    ∀ e ∈ (((DriverStatement.kind count).machine Bind.encode false).run
        (some ({}, {})) (StatementCall.loading sql params ++ calls)).2,
      e.1.SendsStatement .cleared Bind.encode (.loaded sql params ∅) := by
  refine StatementKind.executions_loaded (R := DriverStatement.InStep)
    DriverStatement.inStep_step ⟨Store.refines.construct 10, rfl⟩ sql hslot
    hcalls fun s p hs hp => ?_
  have hsends : (s.execute count).Sends .cleared Bind.encode p :=
    (DriverStatement.sends_iff hs).mpr
      ⟨sql.render, hp.sql, fun i => by rw [hcount]; exact hp.bound_loaded i⟩
  exact hsends.sendsStatement hp

theorem Mysql.sends_counted_twice :
    (((DriverStatement.kind fun sql => sql.toList.count '?').machine Bind.encode false).run
        (some ({}, {})) (updatingTwice "UPDATE users SET name = ? WHERE id = ?")).2.length = 2 ∧
      ∀ e ∈ (((DriverStatement.kind fun sql => sql.toList.count '?').machine Bind.encode
          false).run (some ({}, {})) (updatingTwice "UPDATE users SET name = ? WHERE id = ?")).2,
        e.1.SendsStatement .cleared Bind.encode
          (.loaded (.lit "UPDATE users SET name = ? WHERE id = ?") namedSeven ∅) :=
  ⟨rfl, sends_counted _ _ (by decide)
    (List.forall_mem_cons.mpr ⟨⟨_, rfl⟩, List.forall_mem_singleton.mpr ⟨_, rfl⟩⟩) (by simp)⟩

end CodaDb
