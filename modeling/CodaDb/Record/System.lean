import CodaDb.Lib.Machine
import CodaDb.Record.Served

/-!
# Records and a table

A program that works with records of one schema: it sets and drops their columns, saves, refreshes
and removes them, and searches for others, in any order, while other clients change the table. On a
database that serves the table it does what the same calls do on the table itself.
-/

namespace CodaDb

/-- The records of a program, and the state of the database. -/
structure Records (τ : Type*) where
  record : Nat → Record
  state : τ

/-- The calls of a program with records, and a change of the database by others. -/
inductive RecordOp (τ : Type*) where
  | set (i : Nat) (name : String) (value : SqlValue)
  | setId (i : Nat) (value : SqlValue)
  | unset (i : Nat) (name : String)
  | reset (i : Nat)
  | assign (i other : Nat)
  | exists (i : Nat)
  | save (i : Nat)
  | refreshBy (i : Nat) (name : String)
  | refresh (i : Nat)
  | remove (i : Nat)
  | findOne (i : Nat) (values : ColumnValues)
  | findById (i : Nat) (value : SqlValue)
  | findBy (values : ColumnValues)
  | others (state : τ)

/-- What a call reports. -/
inductive RecordReport where
  | flag (out : Except DbException Bool)
  | found (out : Except DbException (Option Record))
  | records (rs : List Record) (stop : Cursor.Stop DbException)
  /-- no end, or a null pointer -/
  | stuck

namespace Records

variable {τ : Type*}

def put (s : Records τ) (i : Nat) (r : Record) : Records τ :=
  { s with record := Function.update s.record i r }

/-- A record that was found is put to a place. -/
def putFound (s : Records τ) (i : Nat) :
    Option (Except DbException (Option Record)) → Records τ × List RecordReport
  | none => (s, [.stuck])
  | some (.ok (some r)) => (s.put i r, [.found (.ok (some r))])
  | some out => (s, [.found out])

end Records

/-- A program with records on a database. A range-for is stopped by its counter before it runs out
of fuel. -/
def recordMachine {τ : Type*} (db : Backend τ) (schema : Schema) :
    Machine (Records τ) (RecordOp τ) RecordReport where
  step s
    | .set i name value => (s.put i ((s.record i).set name value), [])
    | .setId i value =>
      match (s.record i).setId value with
      | .error e => (s, [.flag (.error e)])
      | .ok r => (s.put i r, [])
    | .unset i name => (s.put i ((s.record i).unset name), [])
    | .reset i => (s.put i (s.record i).reset, [])
    | .assign i other => (s.put i (s.record other), [])
    | .exists i => (s, [.flag ((s.record i).exists (db.answers s.state))])
    | .save i =>
      match (s.record i).saveOn db s.state with
      | none => (s, [.stuck])
      | some (r, state, out) => ({ s.put i r with state := state }, [.flag out])
    | .refreshBy i name =>
      match (s.record i).refreshBy name db s.state with
      | none => (s, [.stuck])
      | some (r, out) => (s.put i r, [.flag out])
    | .refresh i =>
      match (s.record i).refresh db s.state with
      | none => (s, [.stuck])
      | some (r, out) => (s.put i r, [.flag out])
    | .remove i =>
      match (s.record i).remove db s.state with
      | none => (s, [.stuck])
      | some (state, out) => ({ s with state := state }, [.flag out])
    | .findOne i values => s.putFound i (findOneOn schema values db s.state)
    | .findById i value => s.putFound i (findByIdOn schema value db s.state)
    | .findBy values =>
      match findByOn schema values db s.state (2 ^ 31 + 1) with
      | none => (s, [.stuck])
      | some (rs, stop) => (s, [.records rs stop])
    | .others state => ({ s with state := state }, [])

/-- What the program is for: the same calls on the table. -/
def tableMachine {τ : Type*} (table : τ → SqlTable) (R : SqlRules) (schema : Schema)
    (pk : String) : Machine (Records SqlTable) (RecordOp τ) RecordReport where
  step s
    | .set i name value => (s.put i ((s.record i).set name value), [])
    | .setId i value => (s.put i ((s.record i).set pk value), [])
    | .unset i name => (s.put i ((s.record i).unset name), [])
    | .reset i => (s.put i (s.record i).reset, [])
    | .assign i other => (s.put i (s.record other), [])
    | .exists i => (s, [.flag (.ok ((s.record i).inTable R pk s.state))])
    | .save i =>
      let saved := (s.record i).saveTo R pk s.state
      ({ s.put i saved.1 with state := saved.2.1 }, [.flag (.ok saved.2.2)])
    | .refreshBy i name =>
      let read := (s.record i).refreshFrom R s.state name
      (s.put i read.1, [.flag (.ok read.2)])
    | .refresh i =>
      let read := (s.record i).refreshFrom R s.state pk
      (s.put i read.1, [.flag (.ok read.2)])
    | .remove i =>
      let removed := (s.record i).removeFrom R pk s.state
      ({ s with state := removed.1 }, [.flag (.ok removed.2)])
    | .findOne i values =>
      s.putFound i (some (.ok (Record.search R s.state schema values.entries).head?))
    | .findById i value =>
      s.putFound i (some (.ok (Record.search R s.state schema [(pk, value)]).head?))
    | .findBy values => (s, [.records (Record.search R s.state schema values.entries) .finished])
    | .others state => ({ s with state := table state }, [])

/-! ### Values -/

namespace SqlRules.Closed

variable {R : SqlRules} {V : SqlValue → Prop} {t t' : SqlTable}
  {values eqs : List (String × SqlValue)} {pk : String} {n : Nat}

lemma write (hR : R.Closed V) (hvalues : ∀ e ∈ values, V e.2) {row : String → SqlValue}
    (hrow : ∀ c, V (row c)) (c : String) : V (R.write values row c) := by
  cases hlookup : values.lookup c with
  | none =>
    rw [TableRules.write_of_none hlookup]
    exact hrow c
  | some v =>
    obtain ⟨before, after, rfl, -⟩ := List.lookup_eq_some_iff.mp hlookup
    rw [TableRules.write_of_some hlookup]
    exact hR.stored c v (hvalues (c, v) (by simp))

lemma update (hR : R.Closed V) (ht : TableHolds V t) (hvalues : ∀ e ∈ values, V e.2)
    (h : R.update t values eqs = some (t', n)) : TableHolds V t' := by
  obtain ⟨rfl, hallowed, -⟩ := TableRules.update_cases h
  refine ⟨fun row' hrow' c => ?_, hR.small _ hallowed⟩
  obtain ⟨row, hrow, rfl⟩ := List.mem_map.mp hrow'
  rw [TableRules.writeWhere]
  split
  · exact hR.write hvalues (ht.values row hrow) c
  · exact ht.values row hrow c

lemma insert (hR : R.Closed V) (ht : TableHolds V t) (hvalues : ∀ e ∈ values, V e.2)
    (h : R.insert t pk values = some (t', n)) : TableHolds V t' := by
  obtain ⟨rfl, hallowed, -, -⟩ := TableRules.insert_cases h
  refine ⟨fun row hrow c => ?_, hR.small _ hallowed⟩
  rcases List.mem_append.mp hrow with hrow | hrow
  · exact ht.values row hrow c
  · obtain rfl := List.mem_singleton.mp hrow
    refine hR.write hvalues (fun c => ?_) c
    rw [Function.update_apply]
    split
    · exact hR.stored pk _ (hR.key _)
    · exact hR.initial c

end SqlRules.Closed

lemma TableHolds.delete {R : SqlRules} {V : SqlValue → Prop} {t t' : SqlTable}
    {eqs : List (String × SqlValue)} {n : Nat} (ht : TableHolds V t)
    (h : R.delete t eqs = some (t', n)) : TableHolds V t' := by
  obtain ⟨rfl, -, -⟩ := TableRules.delete_cases h
  exact ⟨fun row hrow => ht.values row (List.mem_of_mem_filter hrow),
    (List.length_filter_le ..).trans_lt ht.small⟩

namespace Record.Holds

variable {R : SqlRules} {V : SqlValue → Prop} {schema : Schema} {t : SqlTable} {pk : String}
  {r : Record}

lemma new (schema : Schema) (V : SqlValue → Prop) : (Record.new schema).Holds schema V :=
  ⟨rfl, fun c v h => by simp [Record.new] at h⟩

lemma set (hr : r.Holds schema V) (name : String) {value : SqlValue} (hvalue : V value) :
    (r.set name value).Holds schema V := by
  refine ⟨hr.schema, fun c v h => ?_⟩
  by_cases hc : c = name
  · subst hc
    rw [Record.set, AList.lookup_insert] at h
    exact Option.some.inj h ▸ hvalue
  · rw [Record.set, AList.lookup_insert_ne hc] at h
    exact hr.values c v h

lemma unset (hr : r.Holds schema V) (name : String) : (r.unset name).Holds schema V := by
  refine ⟨hr.schema, fun c v h => ?_⟩
  by_cases hc : c = name
  · subst hc
    simp [Record.unset] at h
  · rw [Record.unset, AList.lookup_erase_ne hc] at h
    exact hr.values c v h

lemma entries (hr : r.Holds schema V) (columns : List String) :
    ∀ e ∈ r.entries columns, V e.2 := by
  intro e he
  obtain ⟨c, hc, rfl⟩ := List.mem_map.mp he
  exact hr.get (List.mem_filter.mp hc).2

lemma read (hr : r.Holds schema V) {row : String → SqlValue} (hrow : ∀ c, V (row c)) :
    (r.read row).Holds schema V := by
  rw [Record.read]
  generalize r.schema_.columnNames = columns
  induction columns generalizing r with
  | nil => exact hr
  | cons c columns ih => exact ih (hr.set c (hrow c))

end Record.Holds

/-! ### The calls -/

/-- The records and the table have values of a kind. -/
structure Records.Hold (s : Records SqlTable) (schema : Schema) (V : SqlValue → Prop) : Prop where
  records : ∀ i, (s.record i).Holds schema V
  table : TableHolds V s.state

section Calls

variable {τ : Type*} {table : τ → SqlTable} {R : SqlRules} {schema : Schema} {pk : String}
  {V : SqlValue → Prop} {s : Records SqlTable} {r : Record}

/-- The values of a call are of a kind, and so are those of a table that others leave. Rows are
looked for by the columns of the table. -/
def RecordOp.Holds (table : τ → SqlTable) (schema : Schema) (V : SqlValue → Prop) :
    RecordOp τ → Prop
  | .set _ _ value | .setId _ value | .findById _ value => V value
  | .refreshBy _ name => name ∈ schema.columnNames
  | .findOne _ values | .findBy values =>
    ∀ e ∈ values.entries, V e.2 ∧ e.1 ∈ schema.columnNames
  | .others state => TableHolds V (table state)
  | .unset .. | .reset .. | .assign .. | .exists .. | .save .. | .refresh .. | .remove .. => True

namespace Records.Hold

lemma put (hs : s.Hold schema V) (i : Nat) (hr : r.Holds schema V) : (s.put i r).Hold schema V := by
  refine ⟨fun j => ?_, hs.table⟩
  simp only [Records.put, Function.update_apply]
  split
  · exact hr
  · exact hs.records j

lemma withState (hs : s.Hold schema V) {t : SqlTable} (ht : TableHolds V t) :
    Records.Hold { s with state := t } schema V :=
  ⟨hs.records, ht⟩

lemma putFound (hs : s.Hold schema V) (i : Nat) (eqs : List (String × SqlValue)) :
    (s.putFound i (some (.ok (Record.search R s.state schema eqs).head?))).1.Hold schema V := by
  rw [Record.search]
  cases hrows : R.select s.state eqs with
  | nil => exact hs
  | cons row rows =>
    have hrow := hs.table.values row (TableRules.mem_of_select hrows)
    exact hs.put i ((Record.Holds.new schema V).read hrow)

end Records.Hold

namespace Record

variable {t : SqlTable}

lemma saveTo_holds (hR : R.Closed V) (hr : r.Holds schema V) (ht : TableHolds V t) :
    (r.saveTo R pk t).1.Holds schema V ∧ TableHolds V (r.saveTo R pk t).2.1 := by
  rw [saveTo]
  split
  · cases hupdate : R.update t (r.entries r.schema_.columnNames) [(pk, r.get pk)] with
    | none => exact ⟨hr, ht⟩
    | some answer => exact ⟨hr, hR.update ht (hr.entries _) hupdate⟩
  · cases hinsert : R.insert t pk (r.entries (r.schema_.columnNames.filter (· ≠ pk))) with
    | none => exact ⟨hr, ht⟩
    | some answer => exact ⟨hr.set pk (hR.key _), hR.insert ht (hr.entries _) hinsert⟩

lemma refreshFrom_holds (hr : r.Holds schema V) (ht : TableHolds V t) (name : String) :
    (r.refreshFrom R t name).1.Holds schema V := by
  rw [refreshFrom]
  split
  · cases hrows : R.select t [(name, r.get name)] with
    | nil => exact hr
    | cons row rows => exact hr.read (ht.values row (TableRules.mem_of_select hrows))
  · exact hr

lemma removeFrom_holds (ht : TableHolds V t) : TableHolds V (r.removeFrom R pk t).1 := by
  rw [removeFrom]
  split
  · cases hdelete : R.delete t [(pk, r.get pk)] with
    | none => exact ht
    | some answer => exact ht.delete hdelete
  · exact ht

end Record

/-- The calls on the table keep the kind of values. -/
lemma tableMachine_holds (hR : R.Closed V) (hs : s.Hold schema V) {op : RecordOp τ}
    (hop : op.Holds table schema V) :
    ((tableMachine table R schema pk).step s op).1.Hold schema V := by
  cases op with
  | set i name value => exact hs.put i ((hs.records i).set name hop)
  | setId i value => exact hs.put i ((hs.records i).set pk hop)
  | unset i name => exact hs.put i ((hs.records i).unset name)
  | reset i =>
    have hschema := (hs.records i).schema
    exact hs.put i ⟨hschema, fun c v h => by simp [Record.reset] at h⟩
  | assign i other => exact hs.put i (hs.records other)
  | «exists» i => exact hs
  | save i =>
    obtain ⟨hr, ht⟩ : ((s.record i).saveTo R pk s.state).1.Holds schema V ∧
        TableHolds V ((s.record i).saveTo R pk s.state).2.1 :=
      Record.saveTo_holds hR (hs.records i) hs.table
    exact (hs.put i hr).withState ht
  | refreshBy i name => exact hs.put i (Record.refreshFrom_holds (hs.records i) hs.table name)
  | refresh i => exact hs.put i (Record.refreshFrom_holds (hs.records i) hs.table pk)
  | remove i => exact hs.withState (Record.removeFrom_holds hs.table)
  | findOne i values => exact hs.putFound i values.entries
  | findById i value => exact hs.putFound i [(pk, value)]
  | findBy values => exact hs
  | others state => exact hs.withState hop

/-- The records of a program on a database, over the table of the database. -/
def Records.onTable (table : τ → SqlTable) (s : Records τ) : Records SqlTable where
  record := s.record
  state := table s.state

lemma Records.onTable_putFound (table : τ → SqlTable) (s : Records τ) (i : Nat)
    (found : Option (Except DbException (Option Record))) :
    ((s.putFound i found).1.onTable table, (s.putFound i found).2) =
      (s.onTable table).putFound i found := by
  rcases found with _ | (e | (_ | r)) <;> rfl

/-- One call on the database does what it does on the table. -/
lemma step_onTable {db : Backend τ} (hserves : db.Serves table R schema pk V)
    (hpk : schema.primaryKey = .ok pk) (htable : schema.tableName_ ≠ "")
    (hreturnable : (Record.new schema).Returnable)
    {s : Records τ} (hs : (s.onTable table).Hold schema V) (op : RecordOp τ)
    (hop : op.Holds table schema V) :
    (((recordMachine db schema).step s op).1.onTable table,
        ((recordMachine db schema).step s op).2) =
      (tableMachine table R schema pk).step (s.onTable table) op := by
  have hrecords : ∀ i, (s.record i).Holds schema V := hs.records
  have hkey : ∀ i, (s.record i).schema_.primaryKey = .ok pk := fun i =>
    (hrecords i).schema ▸ hpk
  have hcolumn : pk ∈ schema.columnNames :=
    Record.mem_of_primaryKey (r := Record.new schema) hpk
  cases op with
  | setId i value =>
    simp only [recordMachine, tableMachine, Record.setId, hkey, Except.map]
    rfl
  | «exists» i =>
    have hexists := Record.exists_onTable hserves (hrecords i) hpk s.state
    simp only [recordMachine, tableMachine, hexists]
    rfl
  | save i =>
    have hreturn : (s.record i).Returnable := by
      rw [Record.Returnable, (hrecords i).schema]
      exact hreturnable
    obtain ⟨state, hsave, hstate⟩ := Record.save_onTable hserves (hrecords i) hpk htable
      hreturn s.state
    have hsave' : (s.record i).saveOn db s.state = some (_, state, _) := hsave
    simp only [recordMachine, tableMachine, hsave']
    simp only [Records.onTable, Records.put, hstate]
  | refreshBy i name =>
    have hrefresh := Record.refresh_onTable hserves (hrecords i) hop s.state
    have hrefresh' : (s.record i).refreshBy name db s.state = some (_, _) := hrefresh
    simp only [recordMachine, tableMachine, hrefresh']
    rfl
  | refresh i =>
    have hrefresh := Record.refresh_onTable hserves (hrecords i) hcolumn s.state
    have hrefresh' : (s.record i).refreshBy pk db s.state = some (_, _) := hrefresh
    simp only [recordMachine, tableMachine, Record.refresh, hkey, hrefresh']
    rfl
  | remove i =>
    obtain ⟨state, hremove, hstate⟩ := Record.remove_onTable hserves (hrecords i) hpk htable
      s.state
    have hremove' : (s.record i).remove db s.state = some (state, _) := hremove
    simp only [recordMachine, tableMachine, hremove']
    simp only [Records.onTable, hstate]
  | findOne i values =>
    have hfind := Record.findOne_onTable hserves values (fun e he => (hop e he).1)
      (fun e he => (hop e he).2) s.state
    simp only [recordMachine, tableMachine, hfind]
    exact s.onTable_putFound table i _
  | findById i value =>
    have hvalue : V value := hop
    have hfind := Record.findOne_onTable hserves ⟨[(pk, value)], List.pairwise_singleton ..⟩
      (by simpa using hvalue) (by simpa using hcolumn) s.state
    simp only [recordMachine, tableMachine, findByIdOn, hpk, hfind]
    exact s.onTable_putFound table i _
  | findBy values =>
    have hsmall : (table s.state).rows.length < 2 ^ 31 := hs.table.small
    have hfind := Record.findBy_onTable hserves (fun e he => (hop e he).1)
      (fun e he => (hop e he).2) hsmall (Nat.lt_succ_of_lt hsmall)
    simp only [recordMachine, tableMachine, hfind]
    rfl
  | _ => rfl

/-- A program with no records of its own, on an empty table of users. -/
def startOfUsers : Records SqlTable where
  record _ := .new Sqlite.usersSchema
  state := { rows := [], next := 1 }

lemma startOfUsers_hold :
    (startOfUsers.onTable id).Hold Sqlite.usersSchema Helper.Unnamed where
  records _ := Record.Holds.new ..
  table := ⟨by simp [startOfUsers, Records.onTable], by decide⟩

/-- Two users are saved. One is changed, found by its name and removed. -/
def twoUsers : List (RecordOp SqlTable) :=
  [.set 0 "name" (.string "bob"), .save 0, .set 1 "name" (.string "ann"), .save 1,
    .set 0 "name" (.string "rob"), .save 0, .findOne 2 ⟨[("name", .string "rob")], by simp⟩,
    .remove 2, .refresh 0, .exists 1, .findById 3 (.number (.ofLlong 1))]

end Calls

end CodaDb
