import CodaDb.Schema.Describes

/-!
# Keys of tables with several constraints

What follows for a session from the columns that the drivers take for a primary key: the key that a
record goes by, and inserts into a table of PostgreSQL that do not come to an end.
-/

namespace CodaDb

/-! ### The key of a record -/

namespace SessionImpl

/-- How the server says that it counts the values of a column up. -/
def counts : SessionImpl → CatalogColumn → Bool
  | .sqlite, c => c.rowid
  | .mysql, c => c.extra = "auto_increment"
  | .postgres, c => c.serial.isSome

/-- The columns that the driver takes for a key that is counted up. -/
def takes : SessionImpl → CatalogTable → CatalogColumn → Bool
  | .sqlite, t, c => c.name ∈ t.primaryKey
  | .mysql, t, c => decide (t.Flagged c.name) && decide (c.extra = "auto_increment")
  | .postgres, t, c => t.Flagged c.name

/-- `session::get_columns_for_schema` of an open session on a database, as far as the keys go. -/
def getColumnsForSchema (impl : SessionImpl) (cat : Catalog) (dbName tableName : String) :
    Option (Except DbException (List ColumnDefinition)) :=
  match impl with
  | .sqlite => (Sqlite.getColumnsForSchema cat tableName).map
      (Except.map (List.map ColumnRow.toColumnDefinition))
  | .mysql => some (.ok ((Mysql.getColumnsForSchema cat dbName tableName).map
      ColumnRow.toColumnDefinition))
  | .postgres => some ((Postgres.getColumnsForSchema cat tableName).map
      (List.map ColumnRow.toColumnDefinition))

end SessionImpl

/-- The key that a record of a table should go by, or the exception that there is none. -/
def CatalogTable.recordKey (t : CatalogTable) (counted : CatalogColumn → Bool) :
    Except DbException String :=
  (t.key counted).elim (.error (.noPrimaryKey "no primary key found for schema")) .ok

/-- The driver reads the columns of the table when it is asked for its name. -/
def SessionImpl.Reads (impl : SessionImpl) (cat : Catalog) (t : CatalogTable) : Prop :=
  match impl with
  | .sqlite => t.name ≠ "" ∧ cat.finds t.name = .ok (some t) ∧ t.primaryKey.length < 2 ^ 32
  | .mysql => True
  | .postgres => cat.Only t

section Keys

variable {cat : Catalog} {t : CatalogTable} {impl : SessionImpl}

lemma primaryKey_columns (tableName : String) (pk counted : CatalogColumn → Bool)
    (columns : List CatalogColumn) :
    TableSchema.primaryKey
        { tableName_ := tableName
          columns_ := columns.map fun c => ⟨c.name, pk c, pk c && counted c⟩ } =
      ((columns.find? fun c => pk c && counted c).map CatalogColumn.name).elim
        (.error (.noPrimaryKey "no primary key found for schema")) .ok := by
  rw [TableSchema.primaryKey, List.find?_map]
  have hsame : ((fun c : ColumnDefinition => c.pk && c.autoincrement) ∘ fun c : CatalogColumn =>
      ⟨c.name, pk c, pk c && counted c⟩) = fun c => pk c && counted c := by
    funext c
    cases hpk : pk c <;> simp [hpk]
  rw [hsame]
  cases columns.find? fun c => pk c && counted c <;> rfl

/-- The key of a schema that was initialised: the first column that the driver takes for one. -/
lemma primaryKey_getColumns (hcat : cat.WellFormed) (ht : t ∈ cat.tables)
    (hreads : impl.Reads cat t) :
    ∃ defs, impl.getColumnsForSchema cat t.schema t.name = some (.ok defs) ∧
      TableSchema.primaryKey { tableName_ := t.name, columns_ := defs } =
        ((t.columns.find? (impl.takes t)).map CatalogColumn.name).elim
          (.error (.noPrimaryKey "no primary key found for schema")) .ok := by
  cases impl with
  | sqlite =>
    obtain ⟨hname, hfinds, hsmall⟩ := hreads
    refine ⟨_, Sqlite.columns_eq hname hfinds hsmall, ?_⟩
    refine (primaryKey_columns t.name (fun c => c.name ∈ t.primaryKey) (fun _ => true) _).trans ?_
    simp only [Bool.and_true]
    rfl
  | mysql =>
    refine ⟨t.reported (·.extra = "auto_increment"), ?_, ?_⟩
    · rw [SessionImpl.getColumnsForSchema, Mysql.columns_eq hcat ht]
    · exact primaryKey_columns t.name (fun c => t.Flagged c.name)
        (fun c => c.extra = "auto_increment") _
  | postgres =>
    refine ⟨_, congrArg some (Postgres.columns_eq hcat ht hreads), ?_⟩
    refine (primaryKey_columns t.name (fun c => t.Flagged c.name) (fun _ => true) _).trans ?_
    simp only [Bool.and_true]
    rfl

/-- A narrower condition finds the same unless what is found first fails it. -/
lemma find?_eq_find?_iff {α : Type*} {p q : α → Bool} (hqp : ∀ x, q x = true → p x = true)
    (xs : List α) : xs.find? p = xs.find? q ↔ ∀ x, xs.find? p = some x → q x = true := by
  constructor
  · intro h x hx
    exact List.find?_some (h ▸ hx)
  · intro h
    cases hfind : xs.find? p with
    | none =>
      rw [List.find?_eq_none] at hfind
      exact (List.find?_eq_none.mpr fun x hx hq => hfind x hx (hqp x hq)).symm
    | some x =>
      obtain ⟨hp, before, after, hxs, hbefore⟩ := List.find?_eq_some_iff_append.mp hfind
      refine (List.find?_eq_some_iff_append.mpr ⟨h x hfind, before, after, hxs, ?_⟩).symm
      intro y hy
      have hnot := hbefore y hy
      rw [Bool.not_eq_true'] at hnot ⊢
      by_contra hq
      rw [Bool.not_eq_false] at hq
      exact absurd (hqp y hq) (by simp [hnot])

/-- On every back end the key that records of a table go by is the one that they should go by
exactly if the first column that the driver takes for it is in the primary key and counted up. -/
theorem primaryKey_iff (hcat : cat.WellFormed) (ht : t ∈ cat.tables)
    (hreads : impl.Reads cat t) :
    ∃ defs, impl.getColumnsForSchema cat t.schema t.name = some (.ok defs) ∧
      (TableSchema.primaryKey { tableName_ := t.name, columns_ := defs } =
          t.recordKey impl.counts ↔
        ∀ c, t.columns.find? (impl.takes t) = some c →
          c.name ∈ t.primaryKey ∧ impl.counts c = true) := by
  obtain ⟨defs, hdefs, hkey⟩ := primaryKey_getColumns hcat ht hreads
  refine ⟨defs, hdefs, ?_⟩
  have htakes : ∀ c, (decide (c.name ∈ t.primaryKey) && impl.counts c) = true →
      impl.takes t c = true := by
    intro c hc
    obtain ⟨hname, hcounts⟩ := by simpa using hc
    cases impl <;> simp_all [SessionImpl.takes, SessionImpl.counts, CatalogTable.flagged_of_mem]
  have helim : ∀ a b : Option String,
      a.elim (.error (DbException.noPrimaryKey "no primary key found for schema")) Except.ok =
          b.elim (.error (.noPrimaryKey "no primary key found for schema")) .ok ↔ a = b := by
    intro a b
    cases a <;> cases b <;> simp
  rw [hkey, CatalogTable.recordKey, CatalogTable.key, helim]
  have hmap : (t.columns.find? (impl.takes t)).map CatalogColumn.name =
        (t.columns.find? fun c => decide (c.name ∈ t.primaryKey) && impl.counts c).map
          CatalogColumn.name ↔
      t.columns.find? (impl.takes t) =
        t.columns.find? fun c => decide (c.name ∈ t.primaryKey) && impl.counts c := by
    refine ⟨fun h => ?_, congrArg _⟩
    cases htaken : t.columns.find? (impl.takes t) <;>
      cases hright : t.columns.find? (fun c => decide (c.name ∈ t.primaryKey) && impl.counts c) <;>
      rw [htaken, hright] at h
    · cases h
    · cases h
    · exact congrArg some (List.inj_on_of_nodup_map (hcat.names t ht)
        (List.mem_of_find?_eq_some htaken) (List.mem_of_find?_eq_some hright)
        (Option.some.inj h))
  rw [hmap, find?_eq_find?_iff htakes]
  simp only [Bool.and_eq_true, decide_eq_true_eq]

lemma settings_only : settingsCatalog.Only settings where
  other _ ht _ hne := absurd (List.mem_singleton.mp ht) hne
  found _ hc := ⟨settings, rfl, List.mem_map_of_mem hc⟩

/-- Records of the settings go by the user on PostgreSQL. -/
theorem primaryKey_settings :
    ∃ defs, SessionImpl.postgres.getColumnsForSchema settingsCatalog "public" "user_settings" =
        some (.ok defs) ∧
      TableSchema.primaryKey { tableName_ := "user_settings", columns_ := defs } ≠
        settings.recordKey SessionImpl.postgres.counts := by
  obtain ⟨defs, hdefs, hiff⟩ :=
    primaryKey_iff settingsCatalog_wellFormed settings_mem
      (show SessionImpl.postgres.Reads settingsCatalog settings from settings_only)
  refine ⟨defs, hdefs, fun h => ?_⟩
  have huser := hiff.mp h { name := "user_id", type := "integer" } rfl
  exact absurd huser.1 (by decide)

/-! ### Inserts -/

/-- The columns of the tables of PostgreSQL, as a schema holds them after `init`; where the driver
fails it keeps none. -/
def Postgres.database (cat : Catalog) : Database := fun tableName =>
  match getColumnsForSchema cat tableName with
  | .ok rows => rows.map ColumnRow.toColumnDefinition
  | .error _ => []

lemma Postgres.keys_database (hcat : cat.WellFormed) (ht : t ∈ cat.tables) (honly : cat.Only t) :
    ((database cat).keys t.name).length =
      (t.columns.filter fun c => t.Flagged c.name).length := by
  have hcolumns := columns_eq hcat ht honly
  have hdatabase : database cat t.name = t.reported fun _ => true := by
    rw [database]
    cases hrows : getColumnsForSchema cat t.name with
    | error e =>
      rw [hrows] at hcolumns
      cases hcolumns
    | ok rows =>
      rw [hrows] at hcolumns
      exact Except.ok.inj hcolumns
  rw [Database.keys, TableSchema.primaryKeys, List.length_map, hdatabase, CatalogTable.reported,
    List.filter_map, List.length_map]
  rfl

lemma InsertQuery.returningSql_isSome_iff (keys : List String) :
    (returningSql keys).isSome = true ↔ keys.length ≤ 1 := by
  match keys with
  | [] => simp [returningSql]
  | [key] => simp [returningSql]
  | key :: key' :: keys => simp [returningSql]

/-- After any history of a session on PostgreSQL, the text of an insert into a table that its name
stands for comes to an end exactly if the session has not read the columns of the table, the table
has no primary key, or one column at most is under any constraint. -/
theorem Postgres.insert_ends_iff (hcat : cat.WellFormed) (ht : t ∈ cat.tables) (hname : t.name ≠ "")
    (honly : cat.Only t) (history : List SchemaOp) (columns : List String) :
    (insertAfter (database cat) .postgres history t.name columns).isSome = true ↔
      ¬(after (database cat) .postgres history).Initialised t.name ∨ t.primaryKey = [] ∨
        (t.columns.filter fun c => c.name ∈ t.keyColumns).length ≤ 1 := by
  obtain ⟨keys, hinit, hnot, htext⟩ :=
    insertAfter_eq (database cat) (rfl : SessionImpl.postgres.hasReturning = true) hname
      history columns
  rw [htext, Option.isSome_map, InsertQuery.returningSql_isSome_iff]
  by_cases h : (after (database cat) .postgres history).Initialised t.name
  · have hlength := keys_database hcat ht honly
    rw [← hinit h] at hlength
    rw [hlength]
    by_cases hkey : t.primaryKey = []
    · simp [CatalogTable.Flagged, hkey]
    · simp [CatalogTable.Flagged, hkey, h]
  · simp [hnot h, h]

/-- A session that has read the columns of the settings. -/
def settingsRead : List SchemaOp := [.getSchema "user_settings", .init 0]

/-- The text of an insert into the settings does not come to an end. -/
theorem Postgres.not_insert_ends_settings :
    (insertAfter (database settingsCatalog) .postgres settingsRead "user_settings"
      ["user_id"]).isSome = false := by
  have hinit : (after (database settingsCatalog) .postgres settingsRead).Initialised
      "user_settings" := ⟨0, _, rfl, rfl, by decide⟩
  rw [Bool.eq_false_iff]
  intro h
  rcases (insert_ends_iff settingsCatalog_wellFormed settings_mem (by decide) settings_only
    _ _).mp h with hnot | hkey | hlen
  · exact hnot hinit
  · exact absurd hkey (by decide)
  · exact absurd hlen (by decide)

end Keys

end CodaDb
