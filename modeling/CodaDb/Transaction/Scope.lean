import CodaDb.Transaction.Handle

/-!
# The scope of a transaction handle

One handle begins a transaction, statements run, and the destructor ends the transaction. It asks
the back end whether there is one, and PostgreSQL answers no after a statement that failed. SQLite
and MySQL may have ended it before, and then the statements that follow commit their own changes.
-/

namespace CodaDb

/-- What happens between `start` and the destructor. -/
inductive ScopeEvent where
  | statement (commits : Bool) (result : StatementResult)
  | setSuccessful (value : Bool)
deriving DecidableEq, Repr

/-- The result aborts the open transaction. -/
def StatementResult.aborts (b : SessionImpl) : StatementResult → Bool
  | .ok _ => false
  | .failed => b = .postgres
  | .rolledBack => true

namespace ScopeEvent

def step (h : Nat) : ScopeEvent → TransactionStep
  | .statement commits result => .statement commits result
  | .setSuccessful value => .setSuccessful h value

/-- The flag of the handle afterwards. -/
def successful (value : Bool) : ScopeEvent → Bool
  | .statement _ _ => value
  | .setSuccessful value => value

end ScopeEvent

/-- The argument of the last `set_successful`. -/
def lastSuccessful (events : List ScopeEvent) : Bool := events.foldl ScopeEvent.successful false

/-- A statement aborted the transaction. There is none left after a statement that commits it. -/
def transactionAborted (b : SessionImpl) : List ScopeEvent → Bool
  | [] => false
  | .setSuccessful _ :: events => transactionAborted b events
  | .statement commits result :: events =>
    !(b = .mysql && commits) && (result.aborts b || transactionAborted b events)

/-- The work of the scope is to be committed. -/
def toCommit (b : SessionImpl) (events : List ScopeEvent) : Bool :=
  lastSuccessful events && !transactionAborted b events

/-- The steps from the creation of a handle to its destructor. -/
def scope (h : Nat) (events : List ScopeEvent) : List TransactionStep :=
  [.create h, .start h .ok] ++ (events.map (ScopeEvent.step h) ++ [.destroy h .ok])

/-- After the destructor the connection is in no transaction, and the work was committed exactly if
the last `set_successful` said so and no statement aborted the transaction: the transaction ended
that way, and where it did not commit, no change was committed outside it. -/
def Settles (b : SessionImpl) (c : Connection) (h : Nat) (events : List ScopeEvent) : Prop :=
  ∃ c', ((transactionMachine b).run (some c) (scope h events)).1 = some c' ∧ c'.current = none ∧
    ((transactionMachine b).run (some c) (scope h events)).2.map Ending.committed =
      [toCommit b events] ∧
    (toCommit b events = false → c'.autocommitted = c.autocommitted)

/-- No statement commits the open transaction, and none changes data after one with which the
database rolled it back. -/
def Confined (b : SessionImpl) : List ScopeEvent → Prop
  | [] => True
  | .setSuccessful _ :: events => Confined b events
  | .statement commits result :: events =>
    (b = .mysql → commits = false) ∧
      if result = .rolledBack then ∀ commits', .statement commits' (.ok true) ∉ events
      else Confined b events

/-! ### The transaction of a scope -/

/-- What the database made of the transaction of a scope. -/
inductive ScopePhase where
  | opened
  | aborted
  | ended (committed : Bool)
deriving DecidableEq, Repr

namespace ScopePhase

/-- The transaction of the connection. -/
def current (impl : Nat) : ScopePhase → Option OpenTransaction
  | .opened => some ⟨impl, false⟩
  | .aborted => some ⟨impl, true⟩
  | .ended _ => none

/-- How the transaction ended. -/
def endings : ScopePhase → List Bool
  | .opened | .aborted => []
  | .ended committed => [committed]

def after (b : SessionImpl) : ScopePhase → ScopeEvent → ScopePhase
  | .opened, .statement commits result =>
    if b = .mysql ∧ commits = true then .ended true
    else if result.aborts b then if b = .postgres then .aborted else .ended false
    else .opened
  | p, _ => p

/-- The changes that an event commits at once. -/
def changes (b : SessionImpl) (p : ScopePhase) : ScopeEvent → Nat
  | .statement commits (.ok true) =>
    match p with
    | .opened => if b = .mysql ∧ commits = true then 1 else 0
    | .aborted => 0
    | .ended _ => 1
  | .statement _ _ | .setSuccessful _ => 0

/-- The changes that a list of events commits at once. -/
def allChanges (b : SessionImpl) : ScopePhase → List ScopeEvent → Nat
  | _, [] => 0
  | p, e :: events => p.changes b e + allChanges b (p.after b e) events

variable {b : SessionImpl}

/-- A transaction that ended stays so. -/
lemma foldl_after_ended (v : Bool) (events : List ScopeEvent) :
    events.foldl (after b) (.ended v) = .ended v := by
  induction events with
  | nil => rfl
  | cons e events ih => exact ih

lemma foldl_after_aborted (events : List ScopeEvent) :
    events.foldl (after b) .aborted = .aborted := by
  induction events with
  | nil => rfl
  | cons e events ih => exact ih

/-- In no transaction every change is committed. -/
lemma allChanges_ended_eq_zero {v : Bool} {events : List ScopeEvent} :
    allChanges b (.ended v) events = 0 ↔ ∀ commits, .statement commits (.ok true) ∉ events := by
  induction events with
  | nil => simp [allChanges]
  | cons e events ih =>
    have hafter : after b (.ended v) e = .ended v := rfl
    rw [allChanges, hafter, Nat.add_eq_zero_iff, ih]
    rcases e with ⟨commits, (_ | _) | _ | _⟩ | value
    case statement.ok.true =>
      exact iff_of_false (fun h => by simp [changes] at h) fun h => h commits List.mem_cons_self
    all_goals simp [changes]

lemma endings_eq_nil {p : ScopePhase} {events : List ScopeEvent}
    (h : (events.foldl (after b) p).endings = []) : p.endings = [] := by
  cases p with
  | opened | aborted => rfl
  | ended v =>
    rw [foldl_after_ended] at h
    cases h

lemma changes_eq_zero {p : ScopePhase} {e : ScopeEvent} (h : (p.after b e).endings = []) :
    p.changes b e = 0 := by
  rcases e with ⟨commits, (_ | _) | _ | _⟩ | value <;> try rfl
  cases p with
  | opened =>
    by_cases hcommits : b = .mysql ∧ commits = true
    · simp [after, hcommits, endings] at h
    · exact if_neg hcommits
  | aborted => rfl
  | ended v => cases h

/-- No change is committed at once while the transaction is there. -/
lemma allChanges_eq_zero {p : ScopePhase} {events : List ScopeEvent}
    (h : (events.foldl (after b) p).endings = []) : allChanges b p events = 0 := by
  induction events generalizing p with
  | nil => rfl
  | cons e events ih => rw [allChanges, ih h, changes_eq_zero (endings_eq_nil h)]

lemma foldl_after_ne_aborted (hb : b ≠ .postgres) (events : List ScopeEvent) :
    events.foldl (after b) .opened ≠ .aborted := by
  induction events with
  | nil => exact nofun
  | cons e events ih =>
    rw [List.foldl_cons]
    cases e with
    | setSuccessful value => exact ih
    | statement commits result =>
      rw [after, if_neg hb]
      split
      · simp [foldl_after_ended]
      · split
        · simp [foldl_after_ended]
        · exact ih

/-- The transaction was aborted exactly if the database aborted it or rolled it back. -/
lemma transactionAborted_iff {events : List ScopeEvent} :
    transactionAborted b events = true ↔
      events.foldl (after b) .opened = .aborted ∨
        events.foldl (after b) .opened = .ended false := by
  induction events with
  | nil => simp [transactionAborted]
  | cons e events ih =>
    cases e with
    | setSuccessful value => exact ih
    | statement commits result =>
      rw [List.foldl_cons, transactionAborted, after]
      by_cases hcommits : b = .mysql ∧ commits = true
      · simp [hcommits, foldl_after_ended]
      · have hkeeps : (!(decide (b = .mysql) && commits)) = true := by grind
        rw [if_neg hcommits, hkeeps, Bool.true_and]
        by_cases haborts : result.aborts b = true
        · rw [if_pos haborts, haborts]
          split <;> simp [foldl_after_aborted, foldl_after_ended]
        · simpa [haborts] using ih

/-- PostgreSQL leaves the transaction open or aborted. -/
lemma foldl_after_postgres {events : List ScopeEvent} :
    events.foldl (after .postgres) .opened =
      if transactionAborted .postgres events then .aborted else .opened := by
  induction events with
  | nil => rfl
  | cons e events ih =>
    cases e with
    | setSuccessful value => exact ih
    | statement commits result =>
      cases haborts : result.aborts .postgres with
      | false => simpa [after, transactionAborted, haborts] using ih
      | true => simp [after, transactionAborted, haborts, foldl_after_aborted]

/-- On PostgreSQL every statement that fails aborts the transaction. -/
lemma transactionAborted_postgres {events : List ScopeEvent} :
    transactionAborted .postgres events = false ↔
      ∀ commits result, .statement commits result ∈ events → ∃ changes, result = .ok changes := by
  induction events with
  | nil => simp [transactionAborted]
  | cons e events ih =>
    cases e with
    | setSuccessful value => simpa [transactionAborted] using ih
    | statement commits result =>
      have hok : result.aborts .postgres = false ↔ ∃ changes, result = .ok changes := by
        cases result <;> simp [StatementResult.aborts]
      have hand : transactionAborted .postgres (.statement commits result :: events) = false ↔
          result.aborts .postgres = false ∧ transactionAborted .postgres events = false := by
        simp [transactionAborted]
      rw [hand, hok, ih]
      constructor
      · rintro ⟨h, hevents⟩ commits' result' hmem
        rcases List.mem_cons.mp hmem with heq | hmem
        · obtain ⟨-, rfl⟩ := ScopeEvent.statement.inj heq
          exact h
        · exact hevents commits' result' hmem
      · intro h
        exact ⟨h commits result List.mem_cons_self,
          fun commits' result' hmem => h commits' result' (List.mem_cons_of_mem _ hmem)⟩

/-- The other databases keep the work in the transaction exactly in a confined scope. -/
lemma confined_iff (hb : b ≠ .postgres) {events : List ScopeEvent} :
    Confined b events ↔
      events.foldl (after b) .opened ≠ .ended true ∧ allChanges b .opened events = 0 := by
  induction events with
  | nil => simp [Confined, allChanges]
  | cons e events ih =>
    cases e with
    | setSuccessful value => simpa [Confined, allChanges, changes, after] using ih
    | statement commits result =>
      rw [List.foldl_cons, Confined, allChanges, after]
      by_cases hcommits : b = .mysql ∧ commits = true
      · simp [hcommits, foldl_after_ended]
      · have hkeeps : b = .mysql → commits = false := by simpa using hcommits
        have hnone : changes b .opened (.statement commits result) = 0 := by
          rcases result with (_ | _) | _ | _ <;> simp [changes]
          exact hkeeps
        rw [if_neg hcommits, hnone, Nat.zero_add, and_iff_right hkeeps]
        cases result with
        | ok changes | failed => simpa [StatementResult.aborts, hb] using ih
        | rolledBack =>
          simp [StatementResult.aborts, hb, foldl_after_ended, allChanges_ended_eq_zero]

end ScopePhase

namespace Connection

/-- The connection inside the scope of a handle. -/
structure Scoped (b : SessionImpl) (h impl : Nat) (value : Bool) (p : ScopePhase)
    (c : Connection) : Prop where
  handle : c.handles h = some ⟨some impl, value⟩
  active : b = .mysql → c.active_ impl = true
  current : c.current = p.current impl
  aborted : p = .aborted → b = .postgres

variable {b : SessionImpl} {h impl : Nat} {value : Bool} {p : ScopePhase} {c : Connection}

/-- A statement inside the scope. -/
lemma runStatement_scoped (hcurrent : c.current = p.current impl)
    (hpostgres : p = .aborted → b = .postgres) (commits : Bool) (result : StatementResult) :
    (c.runStatement b commits result).1.current =
        (p.after b (.statement commits result)).current impl ∧
      p.endings ++ (c.runStatement b commits result).2.map Ending.committed =
        (p.after b (.statement commits result)).endings ∧
      (c.runStatement b commits result).1.autocommitted =
        c.autocommitted + p.changes b (.statement commits result) := by
  rcases p with - | - | v
  · cases b <;> cases commits <;> rcases result with (- | -) | - | - <;>
      simp [hcurrent, runStatement, answer, leave, abort, ScopePhase.after, ScopePhase.current,
        ScopePhase.endings, ScopePhase.changes, StatementResult.aborts]
  · obtain rfl := hpostgres rfl
    rcases result with (- | -) | - | - <;>
      simp [hcurrent, runStatement, answer, abort, ScopePhase.after, ScopePhase.current,
        ScopePhase.endings, ScopePhase.changes]
  · cases b <;> cases commits <;> rcases result with (- | -) | - | - <;>
      simp [hcurrent, runStatement, answer, leave, abort, ScopePhase.after, ScopePhase.current,
        ScopePhase.endings, ScopePhase.changes]

lemma after_aborted (hpostgres : p = .aborted → b = .postgres) (e : ScopeEvent)
    (h : p.after b e = .aborted) : b = .postgres := by
  cases e with
  | setSuccessful value =>
    exact hpostgres (by cases p <;> exact h)
  | statement commits result =>
    cases p with
    | opened =>
      simp only [ScopePhase.after] at h
      grind
    | aborted => exact hpostgres rfl
    | ended v => cases h

lemma Scoped.step (hc : Scoped b h impl value p c) (e : ScopeEvent) :
    ∃ c' endings, c.step b (e.step h) = (some c', endings) ∧
      Scoped b h impl (e.successful value) (p.after b e) c' ∧
      p.endings ++ endings.map Ending.committed = (p.after b e).endings ∧
      c'.autocommitted = c.autocommitted + p.changes b e := by
  obtain ⟨hhandle, hactive, hcurrent, hpostgres⟩ := hc
  cases e with
  | setSuccessful value' =>
    have hafter : p.after b (.setSuccessful value') = p := by cases p <;> rfl
    refine ⟨c.setHandle h (some ⟨some impl, value'⟩), [], ?_, ⟨?_, hactive, ?_, ?_⟩, ?_, rfl⟩
    · simp [ScopeEvent.step, Connection.step, withHandle, hhandle]
    · simp [ScopeEvent.successful]
    · simpa [hafter] using hcurrent
    · exact after_aborted hpostgres _
    · simp [hafter]
  | statement commits result =>
    obtain ⟨hhandles, hflags⟩ := c.runStatement_handles b commits result
    obtain ⟨hnext, hendings, hchanges⟩ := runStatement_scoped hcurrent hpostgres commits result
    refine ⟨(c.runStatement b commits result).1, (c.runStatement b commits result).2, rfl,
      ⟨?_, ?_, hnext, after_aborted hpostgres _⟩, hendings, hchanges⟩
    · rw [hhandles]
      exact hhandle
    · rw [hflags]
      exact hactive

/-- The connection with a new handle. -/
def created (c : Connection) (h : Nat) : Connection :=
  { c.setHandle h (some { impl_ := some c.impls }) with
    impls := c.impls + 1
    active_ := Function.update c.active_ c.impls false }

/-- A handle that is created and begins a transaction. -/
lemma scoped_open (hfree : c.handles h = none) (hidle : c.current = none) :
    ∃ c', (transactionMachine b).run (some c) [.create h, .start h .ok] = (some c', []) ∧
      Scoped b h c.impls false .opened c' ∧ c'.autocommitted = c.autocommitted := by
  have hrun : (transactionMachine b).run (some c) [.create h, .start h .ok] =
      ((Connection.startImpl b (created c h) c.impls .ok).map some id) := by
    have hcreate : (transactionMachine b).step (some c) (.create h) = (some (created c h), []) := by
      simp [transactionMachine, Connection.step, hfree, created]
    have hhandle : (created c h).handles h = some ⟨some c.impls, false⟩ := setHandle_self ..
    rw [Machine.run_cons, hcreate, Machine.run_cons, Machine.run_nil]
    simp only [transactionMachine, Connection.step, withImpl, withHandle, hhandle]
    simp
    rfl
  have hcurrent : (created c h).current = none := hidle
  rw [hrun]
  refine ⟨(Connection.startImpl b (created c h) c.impls .ok).1, ?_, ?_, by cases b <;> rfl⟩
  · cases b <;> simp [startImpl, leave, hcurrent]
  · cases b with
    | sqlite | postgres =>
      exact ⟨setHandle_self .., nofun, by simp [startImpl, hcurrent, ScopePhase.current], nofun⟩
    | mysql => exact ⟨setHandle_self .., fun _ => Function.update_self .., rfl, nofun⟩

/-- The events of a scope one after the other. -/
lemma Scoped.run (hc : Scoped b h impl value p c) (events : List ScopeEvent) :
    ∃ c' endings,
      (transactionMachine b).run (some c) (events.map (ScopeEvent.step h)) = (some c', endings) ∧
      Scoped b h impl (events.foldl ScopeEvent.successful value)
        (events.foldl (ScopePhase.after b) p) c' ∧
      p.endings ++ endings.map Ending.committed =
        (events.foldl (ScopePhase.after b) p).endings ∧
      c'.autocommitted = c.autocommitted + p.allChanges b events := by
  induction events generalizing value p c with
  | nil => exact ⟨c, [], rfl, hc, by simp, rfl⟩
  | cons e es ih =>
    obtain ⟨c', endings, hstep, hc', hendings, hchanges⟩ := hc.step e
    obtain ⟨c'', endings', hrun, hc'', hendings', hchanges'⟩ := ih hc'
    refine ⟨c'', endings ++ endings', ?_, hc'', ?_, ?_⟩
    · have hmachine : (transactionMachine b).step (some c) (e.step h) = (some c', endings) := hstep
      rw [List.map_cons, Machine.run_cons, hmachine]
      simp only [hrun]
    · rw [List.map_append, ← List.append_assoc, hendings, hendings', List.foldl_cons]
    · rw [hchanges', hchanges, ScopePhase.allChanges, Nat.add_assoc]

/-- How a transaction ends with the destructor of its handle, whose flag is `value`. -/
def ended (value : Bool) : ScopePhase → List Bool
  | .opened => [value]
  | .aborted => []
  | .ended committed => [committed]

/-- The destructor at the end of a scope. -/
lemma Scoped.destroy (hc : Scoped b h impl value p c) :
    ∃ c' endings, c.step b (.destroy h .ok) = (some c', endings) ∧
      (c'.current = none ↔ p ≠ .aborted) ∧
      p.endings ++ endings.map Ending.committed = ended value p ∧
      c'.autocommitted = c.autocommitted := by
  obtain ⟨hhandle, hactive, hcurrent, hpostgres⟩ := hc
  have hdestroy : c.step b (.destroy h .ok) = c.destruct b h .ok ⟨some impl, value⟩ := by
    simp [Connection.step, withHandle, hhandle]
  have himpl : c.isActive b h = c.implActive b impl := by simp [isActive, implOf, hhandle]
  have hcases : c.isActive b h = true ∧ p ≠ .aborted ∨ c.isActive b h = false ∧ p ≠ .opened := by
    rw [himpl]
    cases p with
    | opened => cases b <;> simp [implActive, hcurrent, hactive, ScopePhase.current]
    | aborted =>
      obtain rfl := hpostgres rfl
      simp [implActive, hcurrent, ScopePhase.current]
    | ended v => cases b <;> simp [implActive, hcurrent, hactive, ScopePhase.current]
  rw [hdestroy]
  rcases hcases with ⟨htrue, hopen⟩ | ⟨hfalse, hended⟩
  · refine ⟨((c.setHandle h none).leave fun t => value && !t.aborted).1,
      ((c.setHandle h none).leave fun t => value && !t.aborted).2,
      by simp only [destruct, if_pos htrue]; rfl, iff_of_true rfl hopen, ?_, rfl⟩
    cases p with
    | opened => simp [leave, hcurrent, ScopePhase.current, ScopePhase.endings, ended]
    | aborted => exact absurd rfl hopen
    | ended v => simp [leave, hcurrent, ScopePhase.current, ScopePhase.endings, ended]
  · refine ⟨c.setHandle h none, [], by simp only [destruct, hfalse]; rfl, ?_, ?_, rfl⟩
    · cases p with
      | opened => exact absurd rfl hended
      | aborted | ended => simp [hcurrent, ScopePhase.current]
    · cases p with
      | opened => exact absurd rfl hended
      | aborted | ended => simp [ScopePhase.endings, ended]

/-- The scope of a handle on a connection that is in no transaction. -/
lemma settles_iff_phase (hfree : c.handles h = none) (hidle : c.current = none)
    (events : List ScopeEvent) :
    Settles b c h events ↔
      events.foldl (ScopePhase.after b) .opened ≠ .aborted ∧
        ended (lastSuccessful events) (events.foldl (ScopePhase.after b) .opened) =
          [toCommit b events] ∧
        (toCommit b events = false → ScopePhase.allChanges b .opened events = 0) := by
  obtain ⟨c₀, hopen, hc₀, hchanges₀⟩ := Connection.scoped_open (b := b) hfree hidle
  obtain ⟨c₁, endings, hrun, hc₁, hendings, hchanges₁⟩ := hc₀.run events
  obtain ⟨c₂, endings', hdestroy, hcurrent, hendings', hchanges₂⟩ := hc₁.destroy
  have hlast : (transactionMachine b).run (some c₁) [.destroy h .ok] = (some c₂, endings') := by
    have hstep : (transactionMachine b).step (some c₁) (.destroy h .ok) = (some c₂, endings') :=
      hdestroy
    rw [Machine.run_cons, hstep, Machine.run_nil, List.append_nil]
  have hall : (endings ++ endings').map Ending.committed =
      ended (lastSuccessful events) (events.foldl (ScopePhase.after b) .opened) := by
    rw [List.map_append, lastSuccessful, ← hendings', ← hendings]
    rfl
  rw [Settles, scope, Machine.run_append, hopen, Machine.run_append, hrun, hlast]
  simp only [List.nil_append, hall, Option.some.injEq, exists_eq_left', hcurrent, hchanges₂,
    hchanges₁, hchanges₀, Nat.add_eq_left]

end Connection

/-- What the databases other than PostgreSQL make of the work of a scope. -/
lemma Connection.settled_iff_confined {b : SessionImpl} (hb : b ≠ .postgres)
    (events : List ScopeEvent) :
    (events.foldl (ScopePhase.after b) .opened ≠ .aborted ∧
      Connection.ended (lastSuccessful events) (events.foldl (ScopePhase.after b) .opened) =
        [toCommit b events] ∧
      (toCommit b events = false → ScopePhase.allChanges b .opened events = 0)) ↔
      toCommit b events = true ∨ Confined b events := by
  have haborted : transactionAborted b events = true ↔ _ := ScopePhase.transactionAborted_iff
  have hconfined : Confined b events ↔ _ := ScopePhase.confined_iff hb
  have hnot := ScopePhase.foldl_after_ne_aborted hb events
  cases hphase : events.foldl (ScopePhase.after b) .opened with
  | opened =>
    have hno : transactionAborted b events = false := by simpa [hphase] using haborted
    have hzero := ScopePhase.allChanges_eq_zero (congrArg ScopePhase.endings hphase)
    simp [hconfined, hphase, Connection.ended, toCommit, hno, hzero]
  | aborted => exact absurd hphase hnot
  | ended v =>
    cases v with
    | false =>
      have hyes : transactionAborted b events = true := haborted.mpr (.inr hphase)
      simp [hconfined, hphase, Connection.ended, toCommit, hyes]
    | true =>
      have hno : transactionAborted b events = false := by simpa [hphase] using haborted
      cases hlast : lastSuccessful events <;>
        simp [hconfined, hphase, Connection.ended, toCommit, hno, hlast]

/-- On PostgreSQL a scope is settled exactly if no statement fails. The others settle it if its work
is to be committed, and else exactly if it is confined. -/
theorem settles_iff {b : SessionImpl} {c : Connection} {h : Nat} (hfree : c.handles h = none)
    (hidle : c.current = none) (events : List ScopeEvent) :
    Settles b c h events ↔
      match b with
      | .postgres =>
        ∀ commits result, .statement commits result ∈ events → ∃ changes, result = .ok changes
      | .sqlite | .mysql => toCommit b events = true ∨ Confined b events := by
  rw [Connection.settles_iff_phase hfree hidle]
  cases b with
  | postgres =>
    rw [ScopePhase.foldl_after_postgres, ← ScopePhase.transactionAborted_postgres]
    cases haborted : transactionAborted .postgres events with
    | true => simp
    | false =>
      have hopened : events.foldl (ScopePhase.after .postgres) .opened = .opened := by
        rw [ScopePhase.foldl_after_postgres, haborted]
        rfl
      have hzero := ScopePhase.allChanges_eq_zero (congrArg ScopePhase.endings hopened)
      simp [Connection.ended, toCommit, haborted, hzero]
  | sqlite | mysql =>
    exact Connection.settled_iff_confined (by decide) events

/-- The theorem at a statement that fails on MySQL. -/
theorem settles_mysql : Settles .mysql {} 0 [.statement false .failed, .setSuccessful true] :=
  (settles_iff rfl rfl _).mpr (.inl rfl)

/-- The connection is left in the aborted transaction. -/
theorem not_settles_postgres :
    ¬Settles .postgres {} 0 [.statement false .failed, .setSuccessful true] := by
  rintro ⟨c', hrun, hcurrent, -⟩
  obtain rfl := Option.some.inj hrun
  cases hcurrent

end CodaDb
