import CodaDb.Lib.Machine
import CodaDb.Query.Batch

/-!
# The schemas of a session

A session hands out one schema object for each table, which has no columns until it is initialised.
Some operations initialise it and others do not, and an insert reads the keys of the object as it
is. Here are the histories of a session, and when two of them lead to the same text of an insert.
-/

namespace CodaDb

/-- The columns of the tables, as `get_columns_for_schema` reads them. -/
abbrev Database := String → List ColumnDefinition

/-- `schema_factory`: the schema objects made so far, and for the names in `schema_cache_` which of
them it is. -/
structure SchemaFactory where
  schemas : List TableSchema := []
  cache : List (String × Nat) := []

namespace SchemaFactory

/-- A new object; the constructor of `schema` refuses an empty name. -/
def construct (f : SchemaFactory) (tableName : String) : SchemaFactory :=
  if tableName = "" then f
  else { f with schemas := f.schemas ++ [{ tableName_ := tableName, columns_ := [] }] }

/-- `schema_factory::create` -/
def create (f : SchemaFactory) (tableName : String) : SchemaFactory :=
  if tableName = "" then f
  else { f.construct tableName with cache := (tableName, f.schemas.length) :: f.cache }

/-- `schema_factory::get` -/
def get (f : SchemaFactory) (tableName : String) : SchemaFactory :=
  match f.cache.lookup tableName with
  | none => f.create tableName
  | some _ => f

/-- `schema_factory::clear`; who has the object keeps it. -/
def clear (f : SchemaFactory) (tableName : String) : SchemaFactory :=
  { f with cache := f.cache.filter fun e => e.1 ≠ tableName }

/-- `schema::init` on an object of a session that is open -/
def init (db : Database) (f : SchemaFactory) (i : Nat) : SchemaFactory :=
  { f with schemas := f.schemas.modify i fun s => { s with columns_ := db s.tableName_ } }

/-- `record::schema`, which everything a record does begins with -/
def recordSchema (db : Database) (f : SchemaFactory) (i : Nat) : SchemaFactory :=
  match f.schemas[i]? with
  | none => f
  | some schema => if schema.columns_ = [] then f.init db i else f

/-- The session with the schemas as they are. -/
def session (f : SchemaFactory) (impl : SessionImpl) : Session :=
  { impl_ := impl
    schemaCache_ := f.cache.map fun e =>
      (e.1, f.schemas.getD e.2 { tableName_ := e.1, columns_ := [] }) }

/-- The cached schema of a table is initialised. -/
def Initialised (f : SchemaFactory) (tableName : String) : Prop :=
  ∃ i schema, f.cache.lookup tableName = some i ∧ f.schemas[i]? = some schema ∧
    schema.columns_ ≠ []

end SchemaFactory

inductive SchemaOp where
  | construct (tableName : String)
  | getSchema (tableName : String)
  | clearSchema (tableName : String)
  | init (i : Nat)
  | record (i : Nat)
  | insert (tableName : String) (columns : List String)

/-- A session over its schemas. An insert asks for the schema and reports its text, if that comes to
an end. -/
def schemaMachine (db : Database) (impl : SessionImpl) :
    Machine SchemaFactory SchemaOp (Option SqlText) where
  step
    | f, .construct tableName => (f.construct tableName, [])
    | f, .getSchema tableName => (f.get tableName, [])
    | f, .clearSchema tableName => (f.clear tableName, [])
    | f, .init i => (f.init db i, [])
    | f, .record i => (f.recordSchema db i, [])
    | f, .insert tableName columns =>
      (if impl.hasReturning then f.get tableName else f,
        [(InsertQuery.ofSession (f.session impl) tableName columns).generateSql])

/-- The session after a history. -/
def after (db : Database) (impl : SessionImpl) (history : List SchemaOp) : SchemaFactory :=
  ((schemaMachine db impl).run {} history).1

/-- The text of an insert after a history, if it comes to an end. -/
def insertAfter (db : Database) (impl : SessionImpl) (history : List SchemaOp) (tableName : String)
    (columns : List String) : Option String :=
  (InsertQuery.ofSession ((after db impl history).session impl) tableName columns).generateSql.map
    SqlText.render

namespace SchemaFactory

/-- The objects are those of the cached names, and have no columns or those of their table. -/
structure Faithful (db : Database) (f : SchemaFactory) : Prop where
  schemas : ∀ s ∈ f.schemas, s.columns_ = [] ∨ s.columns_ = db s.tableName_
  cache : ∀ e ∈ f.cache, ∃ s, f.schemas[e.2]? = some s ∧ s.tableName_ = e.1

variable {db : Database} {f : SchemaFactory}

lemma faithful_empty (db : Database) : Faithful db {} :=
  ⟨fun _ hs => absurd hs List.not_mem_nil, fun _ he => absurd he List.not_mem_nil⟩

lemma Faithful.construct (h : Faithful db f) (tableName : String) :
    Faithful db (f.construct tableName) := by
  rw [SchemaFactory.construct]
  split
  · exact h
  refine ⟨fun s hs => ?_, fun e he => ?_⟩
  · obtain hs | hs := List.mem_append.mp hs
    · exact h.schemas s hs
    · exact .inl (List.mem_singleton.mp hs ▸ rfl)
  · obtain ⟨s, hs, hname⟩ := h.cache e he
    exact ⟨s, List.getElem?_append_left (List.getElem?_eq_some_iff.mp hs).1 ▸ hs, hname⟩

lemma Faithful.create (h : Faithful db f) (tableName : String) :
    Faithful db (f.create tableName) := by
  have hconstruct := h.construct tableName
  rw [SchemaFactory.create]
  split
  · exact h
  next hname =>
  refine ⟨hconstruct.schemas, fun e he => ?_⟩
  obtain rfl | he := List.mem_cons.mp he
  · refine ⟨{ tableName_ := tableName, columns_ := [] }, ?_, rfl⟩
    rw [SchemaFactory.construct, if_neg hname]
    exact List.getElem?_concat_length
  · rw [SchemaFactory.construct, if_neg hname] at hconstruct ⊢
    exact hconstruct.cache e he

lemma Faithful.get (h : Faithful db f) (tableName : String) : Faithful db (f.get tableName) := by
  rw [SchemaFactory.get]
  cases f.cache.lookup tableName with
  | none => exact h.create tableName
  | some i => exact h

lemma Faithful.clear (h : Faithful db f) (tableName : String) :
    Faithful db (f.clear tableName) :=
  ⟨h.schemas, fun e he => h.cache e (List.mem_of_mem_filter he)⟩

lemma Faithful.init (h : Faithful db f) (i : Nat) : Faithful db (f.init db i) := by
  have hget : ∀ j : Nat, (f.init db i).schemas[j]? =
      f.schemas[j]?.map fun s => if i = j then { s with columns_ := db s.tableName_ } else s :=
    fun j => List.getElem?_modify ..
  refine ⟨fun s hs => ?_, fun e he => ?_⟩
  · obtain ⟨j, hj⟩ := List.getElem?_of_mem hs
    rw [hget] at hj
    obtain ⟨s', hs', rfl⟩ := Option.map_eq_some_iff.mp hj
    by_cases hij : i = j
    · rw [if_pos hij]
      exact .inr rfl
    · rw [if_neg hij]
      exact h.schemas s' (List.mem_of_getElem? hs')
  · obtain ⟨s, hs, hname⟩ := h.cache e he
    rw [hget, hs, Option.map_some]
    refine ⟨_, rfl, ?_⟩
    split <;> exact hname

lemma Faithful.recordSchema (h : Faithful db f) (i : Nat) : Faithful db (f.recordSchema db i) := by
  rw [SchemaFactory.recordSchema]
  cases f.schemas[i]? with
  | none => exact h
  | some schema =>
    dsimp only
    split
    · exact h.init i
    · exact h

/-- Every operation keeps the objects faithful. -/
lemma Faithful.step (h : Faithful db f) (impl : SessionImpl) (op : SchemaOp) :
    Faithful db ((schemaMachine db impl).step f op).1 := by
  cases op with
  | construct tableName => exact h.construct tableName
  | getSchema tableName => exact h.get tableName
  | clearSchema tableName => exact h.clear tableName
  | init i => exact h.init i
  | record i => exact h.recordSchema i
  | insert tableName columns =>
    simp only [schemaMachine]
    split
    · exact h.get tableName
    · exact h

lemma faithful_after (db : Database) (impl : SessionImpl) (history : List SchemaOp) :
    Faithful db (after db impl history) :=
  (schemaMachine db impl).run_invariant (Faithful db) (fun _ op h => h.step impl op)
    (faithful_empty db) history

/-! ### The cached schema -/

lemma lookup_session (f : SchemaFactory) (impl : SessionImpl) (tableName : String) :
    (f.session impl).schemaCache_.lookup tableName =
      (f.cache.lookup tableName).map fun i =>
        f.schemas.getD i { tableName_ := tableName, columns_ := [] } := by
  rw [session]
  induction f.cache with
  | nil => rfl
  | cons e es ih =>
    obtain ⟨name, i⟩ := e
    rw [List.map_cons, List.lookup_cons, List.lookup_cons]
    by_cases hname : tableName = name
    · subst hname
      simp
    · have hbeq : (tableName == name) = false := beq_false_of_ne hname
      rw [hbeq]
      exact ih

lemma mem_of_lookup {es : List (String × Nat)} {name : String} {i : Nat}
    (h : es.lookup name = some i) : (name, i) ∈ es := by
  induction es with
  | nil => cases h
  | cons e es ih =>
    obtain ⟨name', i'⟩ := e
    rw [List.lookup_cons] at h
    by_cases hname : name = name'
    · subst hname
      rw [beq_self_eq_true] at h
      obtain rfl := Option.some.inj h
      exact List.mem_cons_self ..
    · rw [beq_false_of_ne hname] at h
      exact List.mem_cons_of_mem _ (ih h)

/-- The schema that a session hands out has the columns of the table if it is initialised, and none
otherwise. -/
lemma Faithful.getSchema (h : Faithful db f) (impl : SessionImpl) {tableName : String}
    (htable : tableName ≠ "") :
    ∃ schema, (f.session impl).getSchema tableName = some schema ∧
      (f.Initialised tableName → schema.columns_ = db tableName) ∧
      (¬f.Initialised tableName → schema.columns_ = []) := by
  rw [Session.getSchema, lookup_session]
  cases hlookup : f.cache.lookup tableName with
  | none =>
    refine ⟨_, if_neg htable, ?_, fun _ => rfl⟩
    rintro ⟨i, -, hlookup', -⟩
    cases hlookup.symm.trans hlookup'
  | some i =>
    obtain ⟨schema, hschema, hname⟩ := h.cache _ (mem_of_lookup hlookup)
    have hget : f.schemas.getD i { tableName_ := tableName, columns_ := [] } = schema := by
      rw [List.getD_eq_getElem?_getD, hschema, Option.getD_some]
    refine ⟨schema, congrArg some hget, ?_, fun hnot => ?_⟩
    · rintro ⟨j, schema', hlookup', hschema', hcolumns⟩
      obtain rfl := Option.some.inj (hlookup.symm.trans hlookup')
      obtain rfl := Option.some.inj (hschema.symm.trans hschema')
      have hread := (h.schemas schema (List.mem_of_getElem? hschema)).resolve_left hcolumns
      rw [hread, hname]
    · by_contra hcolumns
      exact hnot ⟨i, schema, hlookup, hschema, hcolumns⟩

end SchemaFactory

/-! ### The text of an insert -/

/-- The keys of a table. -/
def Database.keys (db : Database) (tableName : String) : List String :=
  TableSchema.primaryKeys { tableName_ := tableName, columns_ := db tableName }

/-- The text of an insert that ends so. -/
def insertEnding (impl : SessionImpl) (tableName : String) (columns : List String)
    (ending : String) : String :=
  "INSERT INTO " ++ tableName ++ "(" ++ ",".intercalate columns ++ ") VALUES(" ++
    ",".intercalate ((List.range' 1 columns.length).map impl.bindParamText) ++ ")" ++ ending ++ ";"

/-- Both histories lead to a text of the insert, and to the same. -/
def SameText (db : Database) (impl : SessionImpl) (tableName : String) (columns : List String)
    (history history' : List SchemaOp) : Prop :=
  ∃ text, insertAfter db impl history tableName columns = some text ∧
    insertAfter db impl history' tableName columns = some text

/-- The schema of the table is initialised after neither history, or after both and the table has
one key. -/
def Alike (db : Database) (impl : SessionImpl) (tableName : String)
    (history history' : List SchemaOp) : Prop :=
  ¬(after db impl history).Initialised tableName ∧
      ¬(after db impl history').Initialised tableName ∨
    ((after db impl history).Initialised tableName ∧
      (after db impl history').Initialised tableName) ∧ (db.keys tableName).length = 1

variable {db : Database} {impl : SessionImpl} {tableName : String}

lemma insertAfter_eq (db : Database) (hreturning : impl.hasReturning = true)
    (htable : tableName ≠ "") (history : List SchemaOp) (columns : List String) :
    ∃ keys : List String, ((after db impl history).Initialised tableName →
        keys = db.keys tableName) ∧
      (¬(after db impl history).Initialised tableName → keys = []) ∧
      insertAfter db impl history tableName columns =
        (InsertQuery.returningSql keys).map fun text =>
          insertEnding impl tableName columns text.render := by
  obtain ⟨schema, hschema, hinit, hnot⟩ :=
    (SchemaFactory.faithful_after db impl history).getSchema impl htable
  refine ⟨schema.primaryKeys, fun h => ?_, fun h => ?_, ?_⟩
  · rw [TableSchema.primaryKeys, hinit h]
    rfl
  · rw [TableSchema.primaryKeys, hnot h]
    rfl
  · have htext : (InsertQuery.ofSession ((after db impl history).session impl) tableName
          columns).generateSql =
        (InsertQuery.returningSql schema.primaryKeys).map
          (InsertQuery.insertText ((after db impl history).session impl) tableName columns) := by
      rw [InsertQuery.generateSql_eq rfl]
      refine congrArg (Option.map _) ((if_pos hreturning).trans ?_)
      exact congrArg (fun o => Option.bind o _) hschema
    rw [insertAfter, htext, Option.map_map]
    congr 1
    funext text
    exact InsertQuery.insertText_render ..

lemma insertAfter_uninitialised (hreturning : impl.hasReturning = true) (htable : tableName ≠ "")
    {history : List SchemaOp} (columns : List String)
    (h : ¬(after db impl history).Initialised tableName) :
    insertAfter db impl history tableName columns =
      some (insertEnding impl tableName columns "") := by
  obtain ⟨keys, -, hnot, htext⟩ := insertAfter_eq db hreturning htable history columns
  rw [htext, hnot h]
  rfl

/-- With an initialised schema the text comes to an end if there is one key, and shows it. -/
lemma insertAfter_initialised (hreturning : impl.hasReturning = true) (htable : tableName ≠ "")
    (hkeys : db.keys tableName ≠ []) {history : List SchemaOp} {columns : List String}
    (h : (after db impl history).Initialised tableName) (text : String) :
    insertAfter db impl history tableName columns = some text ↔
      ∃ key, db.keys tableName = [key] ∧
        insertEnding impl tableName columns (" RETURNING " ++ key) = text := by
  obtain ⟨keys, hinit, -, htext⟩ := insertAfter_eq db hreturning htable history columns
  rw [htext, hinit h]
  match hdb : db.keys tableName with
  | [] => exact absurd hdb hkeys
  | [key] => simp [InsertQuery.returningSql]
  | key :: key' :: keys => simp [InsertQuery.returningSql]

lemma insertEnding_ne (impl : SessionImpl) (tableName : String) (columns : List String)
    (key : String) :
    insertEnding impl tableName columns (" RETURNING " ++ key) ≠
      insertEnding impl tableName columns "" := by
  intro h
  have hreturning : " RETURNING " ++ key = "" :=
    (String.append_right_inj _).mp ((String.append_left_inj _).mp h)
  have hlength := congrArg String.length hreturning
  rw [String.length_append, show " RETURNING ".length = 11 from rfl, String.length_empty] at hlength
  omega

/-- With the schema initialised after one history only, one text shows a key and one does not. -/
lemma not_sameText (hreturning : impl.hasReturning = true) (htable : tableName ≠ "")
    (hkeys : db.keys tableName ≠ []) {columns : List String} {history history' : List SchemaOp}
    (h : (after db impl history).Initialised tableName)
    (h' : ¬(after db impl history').Initialised tableName) :
    ¬SameText db impl tableName columns history history' := by
  rintro ⟨text, htext, htext'⟩
  obtain ⟨key, -, hkey⟩ := (insertAfter_initialised hreturning htable hkeys h text).mp htext
  rw [insertAfter_uninitialised hreturning htable columns h'] at htext'
  exact insertEnding_ne impl tableName columns key (hkey.trans (Option.some.inj htext').symm)

lemma SameText.symm {columns : List String} {history history' : List SchemaOp}
    (h : SameText db impl tableName columns history history') :
    SameText db impl tableName columns history' history :=
  h.imp fun _ => And.symm

/-- Two histories lead to the same text exactly if they leave the schema of the table alike. -/
theorem sameText_iff (hreturning : impl.hasReturning = true) (htable : tableName ≠ "")
    (hkeys : db.keys tableName ≠ []) (columns : List String) (history history' : List SchemaOp) :
    SameText db impl tableName columns history history' ↔
      Alike db impl tableName history history' := by
  by_cases h : (after db impl history).Initialised tableName <;>
    by_cases h' : (after db impl history').Initialised tableName
  · simp only [SameText, insertAfter_initialised hreturning htable hkeys h,
      insertAfter_initialised hreturning htable hkeys h']
    constructor
    · rintro ⟨_, ⟨key, hkey, -⟩, -⟩
      exact .inr ⟨⟨h, h'⟩, by rw [hkey]; rfl⟩
    · rintro (⟨hneither, -⟩ | ⟨-, hlength⟩)
      · exact absurd h hneither
      · obtain ⟨key, hkey⟩ := List.length_eq_one_iff.mp hlength
        exact ⟨_, ⟨key, hkey, rfl⟩, ⟨key, hkey, rfl⟩⟩
  · refine iff_of_false (not_sameText hreturning htable hkeys h h') ?_
    rintro (⟨hneither, -⟩ | ⟨⟨-, hboth⟩, -⟩)
    · exact hneither h
    · exact h' hboth
  · refine iff_of_false (fun hsame => not_sameText hreturning htable hkeys h' h hsame.symm) ?_
    rintro (⟨-, hneither⟩ | ⟨⟨hboth, -⟩, -⟩)
    · exact hneither h'
    · exact h hboth
  · refine iff_of_true ?_ (.inl ⟨h, h'⟩)
    exact ⟨_, insertAfter_uninitialised hreturning htable columns h,
      insertAfter_uninitialised hreturning htable columns h'⟩

/-- Tables whose only key is `id`. -/
def keyed : Database := fun _ => [⟨"id", true, true⟩, ⟨"name", false, false⟩]

/-- The schema of a table, and a record that uses it. -/
def recordUsed : List SchemaOp := [.getSchema "users", .record 0]

/-- The same record used twice. -/
def recordReused : List SchemaOp := recordUsed ++ [.record 0]

lemma keyed_keys_ne (tableName : String) : keyed.keys tableName ≠ [] := nofun

/-- The theorem at a record that is used again. -/
theorem sameText_iff_users :
    SameText keyed .postgres "users" ["name"] recordUsed recordReused ↔
      Alike keyed .postgres "users" recordUsed recordReused :=
  sameText_iff rfl (by decide) (keyed_keys_ne "users") ["name"] recordUsed
    recordReused

/-- An insert returns the key only if a record has been used before. -/
theorem not_sameText_users : ¬SameText keyed .postgres "users" ["name"] [] recordUsed := by
  have hinit : (after keyed .postgres recordUsed).Initialised "users" :=
    ⟨0, _, rfl, rfl, nofun⟩
  intro h
  refine not_sameText rfl (by decide) (keyed_keys_ne "users") hinit ?_ h.symm
  rintro ⟨_, _, hlookup, -⟩
  cases hlookup

end CodaDb
