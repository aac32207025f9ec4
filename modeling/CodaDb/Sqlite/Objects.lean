import CodaDb.Lib.Machine
import CodaDb.Lib.Shared

/-!
# The objects of the SQLite back end

What `std::shared_ptr` keeps alive: connections and compiled statements of the library, and the
objects of the classes that hold them, in the order in which their members are destroyed (the
reverse of their declarations). `sqlite3_close` refuses a connection with statements that are not
finalized, and nobody tries again.
-/

namespace CodaDb.Sqlite

open Shared

/-- What the library knows: which connections are allocated, and for the statements that are not
finalized the connection they were compiled on. As its documentation says, a connection is allocated
by `sqlite3_open_v2` also where that fails, unless there is no memory for it, and `sqlite3_close`
refuses it with `SQLITE_BUSY` while it has statements; no statement may be used after
`sqlite3_finalize`, and no connection after it was closed. -/
structure Library where
  connections : List Bool := []
  statements : List (Option Nat) := []

namespace Library

/-- The connection is allocated. -/
def Allocated (l : Library) (db : Nat) : Prop := l.connections[db]? = some true

instance (l : Library) (db : Nat) : Decidable (l.Allocated db) :=
  inferInstanceAs (Decidable (_ = _))

/-- The connection of a statement that is not finalized. -/
def compiledOn (l : Library) (stmt : Nat) : Option Nat := l.statements[stmt]?.join

/-- `sqlite3_open_v2`, which allocates a connection also when it fails -/
def sqliteOpen (l : Library) : Nat × Library :=
  (l.connections.length, { l with connections := l.connections ++ [true] })

/-- `sqlite3_close` -/
def sqliteClose (l : Library) (db : Nat) : Option Library :=
  if l.Allocated db then
    -- SQLITE_BUSY
    if some db ∈ l.statements then some l
    else some { l with connections := l.connections.set db false }
  else none

/-- `sqlite3_prepare_v2` of a text that compiles -/
def prepare (l : Library) (db : Nat) : Nat × Library :=
  (l.statements.length, { l with statements := l.statements ++ [some db] })

/-- `sqlite3_finalize` -/
def finalize (l : Library) (stmt : Nat) : Option Library :=
  (l.compiledOn stmt).bind fun db =>
    if l.Allocated db then some { l with statements := l.statements.set stmt none } else none

/-- `sqlite3_errmsg` and the other calls on a connection -/
def useConnection (l : Library) (db : Nat) : Option Unit :=
  if l.Allocated db then some () else none

/-- `sqlite3_step` and the other calls on a statement -/
def useStatement (l : Library) (stmt : Nat) : Option Unit :=
  (l.compiledOn stmt).bind l.useConnection

end Library

/-- The classes of the objects. -/
inductive ObjectClass where
  | connection | compiled | sessionImpl | session | schema | statement | resultset | row | column
  | transaction
deriving DecidableEq

/-- An object behind a `std::shared_ptr`. -/
inductive Object where
  /-- `sqlite3` -/
  | connection (db : Nat)
  /-- `sqlite3_stmt` -/
  | compiled (stmt : Nat)
  /-- `sqlite::session` -/
  | sessionImpl (db : Option Nat)
  /-- `db::session`, with the schemas in the cache of its `schema_factory_` -/
  | session (impl : Nat) (schemaCache : List (String × Nat))
  | schema (sess : Nat)
  /-- `sqlite::statement` -/
  | statement (sess : Nat) (stmt : Option Nat)
  /-- `sqlite::resultset` -/
  | resultset (stmt sess : Nat)
  /-- `sqlite::row` -/
  | row (stmt sess : Nat)
  /-- `sqlite::column` -/
  | column (stmt : Nat)
  /-- `sqlite::transaction`. The pointers that the program has to it are those in its handles, which
  are copied and destroyed with them. -/
  | transaction (db : Option Nat)

namespace Object

def objectClass : Object → ObjectClass
  | .connection _ => .connection
  | .compiled _ => .compiled
  | .sessionImpl _ => .sessionImpl
  | .session .. => .session
  | .schema _ => .schema
  | .statement .. => .statement
  | .resultset .. => .resultset
  | .row .. => .row
  | .column _ => .column
  | .transaction _ => .transaction

/-- The members that are pointers with the classes they point to, the last member first. -/
def members : Object → List (ObjectClass × Nat)
  | .connection _ => []
  | .compiled _ => []
  | .sessionImpl db => db.toList.map (ObjectClass.connection, ·)
  | .session impl schemaCache =>
    schemaCache.map (fun e => (ObjectClass.schema, e.2)) ++ [(.sessionImpl, impl)]
  | .schema sess => [(.session, sess)]
  | .statement sess stmt => stmt.toList.map (ObjectClass.compiled, ·) ++ [(.sessionImpl, sess)]
  | .resultset stmt sess => [(.sessionImpl, sess), (.compiled, stmt)]
  | .row stmt sess => [(.sessionImpl, sess), (.compiled, stmt)]
  | .column stmt => [(.compiled, stmt)]
  | .transaction db => db.toList.map (ObjectClass.connection, ·)

instance : Holder Object := ⟨fun b => b.members.map Prod.snd⟩

/-- What the destructor does besides releasing members: the deleters `close_db` and
`stmt_delete`. -/
def destroy : Object → Library → Option Library
  | .connection db, l => l.sqliteClose db
  | .compiled stmt, l => l.finalize stmt
  | _, l => some l

end Object

/-- The objects, the library and the pointers that the program holds. -/
structure Program where
  heap : Heap Object := ⟨[]⟩
  library : Library := {}
  held : List Nat := []

/-- The result of `sqlite3_open_v2`. -/
inductive Opened where
  | ok | error | noMemory
deriving DecidableEq

/-- The result of `sqlite3_prepare_v2`; there is no statement for a text without a command. -/
inductive Compiled where
  | ok | empty | error
deriving DecidableEq

/-- The calls on an object, with the results of the library. -/
inductive Call where
  | openSession (result : Opened)
  | closeSession
  | getSchema (tableName : String)
  | clearSchema (tableName : String)
  | createStatement
  | prepare (result : Compiled)
  | finish
  | query
  | sessionQuery (result : Compiled)
  | sessionExecute (result : Compiled)
  | currentRow
  | column
  | createTransaction
  /-- a call that uses the connection or the statement: `is_active`, `start`, `next`, `reset`,
  `bind`, `to_value`, `last_error` and the like -/
  | access
  /-- `impl` of a session, `get_session` of a schema -/
  | follow
  | copy
  | drop

/-- What a program does: it makes a session, as `open_session` begins, or calls something of an
object that it has a pointer to. -/
inductive ObjectOp where
  | createSession
  | call (p : Nat) (c : Call)

namespace Program

/-- The object behind a pointer that the program holds. -/
def object (s : Program) (p : Nat) : Option Object :=
  if p ∈ s.held then s.heap.body p else none

/-- Release pointers that are not among those of the program. -/
def release (s : Program) (ps : List Nat) : Option Program :=
  (Shared.release Object.destroy s.heap s.library ps).map fun r =>
    { s with heap := r.1, library := r.2 }

/-- The program gets the pointer to a new object. -/
def make (s : Program) (b : Object) : Program :=
  { s with heap := (s.heap.allocate b).2, held := (s.heap.allocate b).1 :: s.held }

/-- A pointer is copied into a member of an object to be made. -/
def retain (s : Program) (p : Nat) : Program := { s with heap := s.heap.retain p }

/-- The program gets a copy of a pointer. -/
def share (s : Program) (p : Nat) : Program := { s.retain p with held := p :: s.held }

/-- The connection that `db_` of an implementation points to. -/
def connectionOf (s : Program) (impl : Nat) : Option Nat :=
  match s.heap.body impl with
  | some (.sessionImpl (some q)) =>
    match s.heap.body q with
    | some (.connection db) => some db
    | _ => none
  | _ => none

/-- A statement compiled on a connection, and the pointer to it. -/
def compile (s : Program) (db : Nat) : Nat × Program :=
  let r := s.library.prepare db
  ((s.heap.allocate (.compiled r.1)).1,
    { s with heap := (s.heap.allocate (.compiled r.1)).2, library := r.2 })

/-- `sqlite::session::open` -/
def openSession (s : Program) (impl : Nat) (result : Opened) : Program :=
  match s.heap.body impl, result with
  | some (.sessionImpl none), .ok =>
    let r := s.library.sqliteOpen
    let c := s.heap.allocate (.connection r.1)
    { s with heap := c.2.modify impl (.sessionImpl (some c.1)), library := r.2 }
  -- nothing points to what was allocated
  | some (.sessionImpl none), .error => { s with library := s.library.sqliteOpen.2 }
  | _, _ => s

/-- `sqlite::session::close` -/
def closeSession (s : Program) (impl : Nat) : Option Program :=
  match s.heap.body impl with
  | some (.sessionImpl (some q)) =>
    { s with heap := s.heap.modify impl (.sessionImpl none) }.release [q]
  | _ => some s

/-- `schema_factory::get`; the constructor of `schema` refuses an empty name. -/
def getSchema (s : Program) (p impl : Nat) (schemaCache : List (String × Nat))
    (tableName : String) : Program :=
  match schemaCache.lookup tableName with
  | some q => s.share q
  | none =>
    if tableName = "" then s
    else
      let c := (s.heap.retain p).allocate (.schema p)
      { s with
        heap := (c.2.retain c.1).modify p (.session impl ((tableName, c.1) :: schemaCache))
        held := c.1 :: s.held }

/-- `schema_factory::clear` -/
def clearSchema (s : Program) (p impl : Nat) (schemaCache : List (String × Nat))
    (tableName : String) : Option Program :=
  let kept := schemaCache.filter fun e => e.1 ≠ tableName
  let erased := schemaCache.filter fun e => e.1 = tableName
  { s with heap := s.heap.modify p (.session impl kept) }.release (erased.map Prod.snd)

/-- `sqlite::statement::prepare`: a statement that is prepared keeps the text it has. -/
def prepare (s : Program) (p sess : Nat) (stmt : Option Nat) (result : Compiled) :
    Option Program :=
  match s.connectionOf sess, stmt with
  | none, _ => some s
  | some _, some _ => some s
  | some db, none =>
    if s.library.Allocated db then
      if result = .ok then
        let c := s.compile db
        some { c.2 with heap := c.2.heap.modify p (.statement sess (some c.1)) }
      else some s
    else none

/-- `sqlite::session::query`; the constructor of `resultset` refuses a null statement. -/
def sessionQuery (s : Program) (impl : Nat) (result : Compiled) : Option Program :=
  match s.connectionOf impl with
  | none => some s
  | some db =>
    if s.library.Allocated db then
      if result = .ok then
        let c := s.compile db
        some ((c.2.retain impl).make (.resultset c.1 impl))
      else some s
    else none

/-- `sqlite::session::execute` -/
def sessionExecute (s : Program) (impl : Nat) (result : Compiled) : Option Program :=
  match s.connectionOf impl with
  | none => some s
  | some db =>
    if s.library.Allocated db then
      if result = .ok then
        let r := s.library.prepare db
        (r.2.finalize r.1).map fun library => { s with library }
      else some s
    else none

/-- `sqlite::session::create_transaction` and the handle that the session makes of it. -/
def createTransaction (s : Program) (p impl : Nat) : Program :=
  match s.heap.body impl with
  | some (.sessionImpl db) => ((db.elim s s.retain).make (.transaction db)).share p
  | _ => s

/-- The library is called with the statement behind a pointer. -/
def useCompiled (s : Program) (q : Nat) : Option Unit :=
  match s.heap.body q with
  | some (.compiled stmt) => s.library.useStatement stmt
  | _ => none

/-- The library is called with the connection behind a pointer. -/
def useDb (s : Program) (q : Nat) : Option Unit :=
  match s.heap.body q with
  | some (.connection db) => s.library.useConnection db
  | _ => none

/-- A call that uses the connection or the statement of an object. -/
def access (s : Program) : Object → Option Unit
  | .statement _ (some q) | .resultset q _ | .row q _ | .column q => s.useCompiled q
  | .session impl _ => (s.connectionOf impl).elim (some ()) s.library.useConnection
  | .sessionImpl (some q) | .transaction (some q) => s.useDb q
  -- `sqlite3_get_autocommit` of a null pointer
  | .transaction none => none
  | _ => some ()

/-- `~transaction` of a handle, which asks `is_active` first. -/
def leave (s : Program) : Object → Option Unit
  | .transaction db => s.access (.transaction db)
  | _ => some ()

/-- A call on an object and a pointer to it. -/
def perform (s : Program) (p : Nat) : Call → Object → Option Program
  | .openSession result, .session impl _ => some (s.openSession impl result)
  | .openSession result, .sessionImpl _ => some (s.openSession p result)
  | .closeSession, .session impl _ => s.closeSession impl
  | .closeSession, .sessionImpl _ => s.closeSession p
  | .getSchema tableName, .session impl schemaCache =>
    some (s.getSchema p impl schemaCache tableName)
  | .clearSchema tableName, .session impl schemaCache =>
    s.clearSchema p impl schemaCache tableName
  | .createStatement, .session impl _ => some ((s.retain impl).make (.statement impl none))
  | .createStatement, .sessionImpl _ => some ((s.retain p).make (.statement p none))
  | .prepare result, .statement sess stmt => s.prepare p sess stmt result
  | .finish, .statement sess (some q) =>
    { s with heap := s.heap.modify p (.statement sess none) }.release [q]
  | .query, .statement sess (some q) =>
    some (((s.retain q).retain sess).make (.resultset q sess))
  | .sessionQuery result, .session impl _ => s.sessionQuery impl result
  | .sessionQuery result, .sessionImpl _ => s.sessionQuery p result
  | .sessionExecute result, .session impl _ => s.sessionExecute impl result
  | .sessionExecute result, .sessionImpl _ => s.sessionExecute p result
  | .currentRow, .resultset q sess => some (((s.retain q).retain sess).make (.row q sess))
  | .column, .row q _ => some ((s.retain q).make (.column q))
  | .createTransaction, .session impl _ => some (s.createTransaction p impl)
  | .access, b => (s.access b).map fun _ => s
  | .follow, .session impl _ => some (s.share impl)
  | .follow, .schema sess => some (s.share sess)
  | .copy, _ => some (s.share p)
  | .drop, b => (s.leave b).bind fun _ => { s with held := s.held.erase p }.release [p]
  | _, _ => some s

/-- `factory::create` and a session of it. -/
def createSession (s : Program) : Program :=
  let c := s.heap.allocate (.sessionImpl none)
  { s with heap := c.2 }.make (.session c.1 [])

/-- The program does something. -/
def step? (s : Program) : ObjectOp → Option Program
  | .createSession => some s.createSession
  | .call p c =>
    match s.object p with
    | none => some s
    | some b => s.perform p c b

end Program

/-- Behaviour that C++ or the library leaves undefined. -/
inductive Fault where
  | undefined

/-- A program that uses the SQLite back end. Nothing is said of what follows undefined
behaviour. -/
def objectMachine : Machine Program ObjectOp Fault where
  step s op :=
    match s.step? op with
    | some s' => (s', [])
    | none => (s, [.undefined])

end CodaDb.Sqlite
