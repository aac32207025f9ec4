import CodaDb.Lib.Machine
import CodaDb.Session
import Mathlib.Logic.Function.Basic

/-!
# Transaction handles

Objects of class `transaction` on one connection, which share their implementations when they are
copied. The destructor of a handle ends the transaction that the back end takes for the one of its
implementation: SQLite and PostgreSQL ask the connection, MySQL a flag that `start` sets.
-/

namespace CodaDb

/-- The answer of the database to a command; with an error the open transaction may be lost. -/
inductive Reply where
  | ok | refused | lost
deriving DecidableEq, Repr

/-- The result of a statement; the database may roll the whole transaction back with an error. -/
inductive StatementResult where
  /-- with a change of the data or without one -/
  | ok (changes : Bool)
  | failed
  | rolledBack
deriving DecidableEq, Repr

/-- The transaction of a connection: the implementation whose `start` began it, and whether it
accepts nothing but its end any more. -/
structure OpenTransaction where
  starter : Nat
  aborted : Bool := false
deriving DecidableEq, Repr

structure Ending where
  transaction : OpenTransaction
  committed : Bool
deriving DecidableEq, Repr

/-- An object of class `transaction`; a move leaves null pointers behind. -/
structure TransactionHandle where
  impl_ : Option Nat
  successful_ : Bool := false
deriving DecidableEq, Repr

structure Connection where
  handles : Nat → Option TransactionHandle := fun _ => none
  /-- the number of implementations created so far -/
  impls : Nat := 0
  /-- `mysql::transaction::active_` of an implementation -/
  active_ : Nat → Bool := fun _ => false
  /-- the transaction of the connection, as `sqlite3_get_autocommit` and `PQtransactionStatus`
  report it -/
  current : Option OpenTransaction := none
  /-- the number of changes that were committed at once, in no transaction -/
  autocommitted : Nat := 0

/-- The steps of a program with its transaction handles, with the answers of the database. -/
inductive TransactionStep where
  | create (h : Nat)
  | start (h : Nat) (reply : Reply)
  | commit (h : Nat) (reply : Reply)
  | rollback (h : Nat) (reply : Reply)
  | setSuccessful (h : Nat) (value : Bool)
  | copy (other h : Nat)
  | move (other h : Nat)
  | assign (h other : Nat)
  | moveAssign (h other : Nat)
  | destroy (h : Nat) (reply : Reply)
  /-- a statement that is no command for a transaction; there are some that commit, such as the
  definitions of tables on MySQL -/
  | statement (commits : Bool) (result : StatementResult)
deriving DecidableEq, Repr

namespace Connection

/-- The implementation of a handle. -/
def implOf (c : Connection) (h : Nat) : Option Nat :=
  (c.handles h).bind TransactionHandle.impl_

/-- `is_active` of an implementation. -/
def implActive (b : SessionImpl) (c : Connection) (impl : Nat) : Bool :=
  match b with
  | .sqlite => c.current.isSome
  | .mysql => c.active_ impl
  | .postgres => c.current.any fun t => !t.aborted

/-- `transaction::is_active` -/
def isActive (b : SessionImpl) (c : Connection) (h : Nat) : Bool :=
  (c.implOf h).any (c.implActive b)

def setHandle (c : Connection) (h : Nat) (handle : Option TransactionHandle) : Connection :=
  { c with handles := Function.update c.handles h handle }

@[simp] lemma setHandle_current (c : Connection) (h : Nat) (handle : Option TransactionHandle) :
    (c.setHandle h handle).current = c.current := rfl

@[simp] lemma setHandle_self (c : Connection) (h : Nat) (handle : Option TransactionHandle) :
    (c.setHandle h handle).handles h = handle := by
  simp [setHandle]

/-- The connection leaves its transaction, if it is in one. -/
def leave (c : Connection) (committed : OpenTransaction → Bool) : Connection × List Ending :=
  ({ c with current := none }, c.current.toList.map fun t => ⟨t, committed t⟩)

/-- The database runs `COMMIT` or `ROLLBACK`. -/
def finish (c : Connection) (commit : Bool) : Reply → Connection × List Ending
  | .ok => c.leave fun t => commit && !t.aborted
  | .lost => c.leave fun _ => false
  | .refused => (c, [])

/-- The database aborts its transaction, which then waits for its end. -/
def abort (c : Connection) : Connection :=
  { c with current := c.current.map fun t => { t with aborted := true } }

/-- `transaction_impl::start`. In a transaction SQLite answers with an error, PostgreSQL with a
warning, and MySQL commits it first. -/
def startImpl (b : SessionImpl) (c : Connection) (impl : Nat) (reply : Reply) :
    Connection × List Ending :=
  match b, reply with
  | .sqlite, .ok => ({ c with current := c.current.or (some ⟨impl, false⟩) }, [])
  | .sqlite, .refused | .sqlite, .lost => (c, [])
  | .postgres, .ok => ({ c with current := c.current.or (some ⟨impl, false⟩) }, [])
  | .postgres, .refused | .postgres, .lost => (c.abort, [])
  | .mysql, .ok =>
    ({ c with current := some ⟨impl, false⟩, active_ := Function.update c.active_ impl true },
      (c.leave fun _ => true).2)
  | .mysql, .lost => c.leave fun _ => true
  | .mysql, .refused => (c, [])

/-- The answer to a statement. In no transaction a change is committed at once. -/
def answer (b : SessionImpl) (c : Connection) (result : StatementResult) :
    Connection × List Ending :=
  match b, result with
  | _, .ok changes =>
    (if changes && c.current.isNone then { c with autocommitted := c.autocommitted + 1 } else c, [])
  | .postgres, .failed | .postgres, .rolledBack => (c.abort, [])
  | .sqlite, .failed | .mysql, .failed => (c, [])
  | .sqlite, .rolledBack | .mysql, .rolledBack => c.leave fun _ => false

/-- The database runs a statement. MySQL commits the open transaction before some of them, also
where these then fail. -/
def runStatement (b : SessionImpl) (c : Connection) (commits : Bool) (result : StatementResult) :
    Connection × List Ending :=
  if b = .mysql ∧ commits = true then
    let first := c.leave fun _ => true
    let rest := first.1.answer b result
    (rest.1, first.2 ++ rest.2)
  else c.answer b result

/-- A statement is no matter of the handles. -/
lemma answer_handles (b : SessionImpl) (c : Connection) (result : StatementResult) :
    (c.answer b result).1.handles = c.handles ∧ (c.answer b result).1.active_ = c.active_ := by
  cases result with
  | ok changes =>
    rw [answer]
    split <;> exact ⟨rfl, rfl⟩
  | failed | rolledBack => cases b <;> exact ⟨rfl, rfl⟩

lemma runStatement_handles (b : SessionImpl) (c : Connection) (commits : Bool)
    (result : StatementResult) :
    (c.runStatement b commits result).1.handles = c.handles ∧
      (c.runStatement b commits result).1.active_ = c.active_ := by
  rw [runStatement]
  split
  · exact answer_handles b (c.leave fun _ => true).1 result
  · exact answer_handles b c result

/-- A step of a handle, if it is there. -/
def withHandle (c : Connection) (h : Nat)
    (f : TransactionHandle → Option Connection × List Ending) : Option Connection × List Ending :=
  match c.handles h with
  | none => (some c, [])
  | some handle => f handle

/-- A command through the pointers of a handle. -/
def withImpl (c : Connection) (h : Nat) (f : Nat → Connection × List Ending) :
    Option Connection × List Ending :=
  c.withHandle h fun handle =>
    match handle.impl_ with
    | none => (none, [])
    | some impl => (f impl).map some id

/-- `~transaction`. It lets no exception out: the program terminates if the command fails. -/
def destruct (b : SessionImpl) (c : Connection) (h : Nat) (reply : Reply)
    (handle : TransactionHandle) : Option Connection × List Ending :=
  if c.isActive b h then
    match reply with
    | .ok => ((c.setHandle h none).finish handle.successful_ .ok).map some id
    | .refused | .lost => (none, [])
  else (some (c.setHandle h none), [])

/-- The move of the pointers of `other` to `h`. -/
def moveTo (c : Connection) (h other : Nat) (handle : TransactionHandle) : Connection :=
  (c.setHandle other (some { handle with impl_ := none })).setHandle h (some handle)

/-- One step; `none` is a program that terminated, or that called a function of a null pointer. A
step of a handle that is not there, or that makes one that is, changes nothing. -/
def step (b : SessionImpl) (c : Connection) : TransactionStep → Option Connection × List Ending
  | .create h =>
    if (c.handles h).isSome then (some c, [])
    else
      (some { c.setHandle h (some { impl_ := some c.impls }) with
        impls := c.impls + 1
        active_ := Function.update c.active_ c.impls false }, [])
  | .start h reply => c.withImpl h fun impl => c.startImpl b impl reply
  | .commit h reply => c.withImpl h fun _ => c.finish true reply
  | .rollback h reply => c.withImpl h fun _ => c.finish false reply
  | .setSuccessful h value => c.withHandle h fun handle =>
    (some (c.setHandle h (some { handle with successful_ := value })), [])
  | .copy other h =>
    if (c.handles h).isSome then (some c, [])
    else c.withHandle other fun handle => (some (c.setHandle h (some handle)), [])
  | .move other h =>
    if (c.handles h).isSome then (some c, [])
    else c.withHandle other fun handle => (some (c.moveTo h other handle), [])
  | .assign h other => c.withHandle h fun _ =>
    c.withHandle other fun handle => (some (c.setHandle h (some handle)), [])
  | .moveAssign h other => c.withHandle h fun _ =>
    c.withHandle other fun handle => (some (c.moveTo h other handle), [])
  | .destroy h reply => c.withHandle h (c.destruct b h reply)
  | .statement commits result => (c.runStatement b commits result).map some id

end Connection

/-- A program on a connection; it emits the transactions that ended. -/
def transactionMachine (b : SessionImpl) :
    Machine (Option Connection) TransactionStep Ending where
  step
    | none, _ => (none, [])
    | some c, step => c.step b step

end CodaDb
