import CodaDb.Lib.Table
import CodaDb.Schema.Catalog

/-!
# What the drivers tell of a table

A definition should show the columns of a table, which of them are in the primary key, and which of
these the server counts up. The drivers for MySQL and PostgreSQL take every column under a
constraint for one of the primary key, as soon as the table has one.
-/

namespace CodaDb

/-! ### The answers of the catalog -/

namespace Catalog

variable {cat : Catalog} {t : CatalogTable} {isAsked : String → String → Bool}

lemma WellFormed.eq_of_name (hcat : cat.WellFormed) {t' : CatalogTable} (ht : t ∈ cat.tables)
    (ht' : t' ∈ cat.tables) (hschema : t.schema = t'.schema) (hname : t.name = t'.name) : t = t' :=
  List.inj_on_of_nodup_map hcat.tables ht ht' (Prod.ext hschema hname)

lemma primaryKey_ne_nil (hcat : cat.WellFormed) (ht : t ∈ cat.tables) :
    t.primaryKey ≠ [] ↔ ∃ k ∈ t.keys, k.kind = .primary := by
  constructor
  · intro hne
    obtain ⟨name, hname⟩ := List.exists_mem_of_ne_nil _ hne
    obtain ⟨k, hk, -⟩ := List.mem_flatMap.mp hname
    exact ⟨k, (List.mem_filter.mp hk).1, by simpa using (List.mem_filter.mp hk).2⟩
  · rintro ⟨k, hk, hkind⟩
    obtain ⟨name, hname⟩ := List.exists_mem_of_ne_nil _ (hcat.keys t ht k hk).1
    exact List.ne_nil_of_mem
      (List.mem_flatMap.mpr ⟨k, List.mem_filter.mpr ⟨hk, by simpa using hkind⟩, hname⟩)

lemma mem_tableConstraints {row : String × String × KeyKind} :
    row ∈ cat.tableConstraints ↔
      ∃ t ∈ cat.tables, ∃ k ∈ t.keys, (t.schema, t.name, k.kind) = row := by
  simp [tableConstraints]

lemma mem_keyColumnUsage {row : String × String × String} :
    row ∈ cat.keyColumnUsage ↔
      ∃ t ∈ cat.tables, ∃ c ∈ t.keyColumns, (t.schema, t.name, c) = row := by
  simp [keyColumnUsage]

/-- The names in the answer: every column under a constraint of a table with a primary key. -/
lemma mem_primaryKeyRows (hcat : cat.WellFormed) {name : String} :
    name ∈ cat.primaryKeyRows isAsked ↔
      ∃ t ∈ cat.tables, isAsked t.schema t.name = true ∧ t.primaryKey ≠ [] ∧
        name ∈ t.keyColumns := by
  rw [primaryKeyRows, List.mem_map]
  constructor
  · rintro ⟨⟨tc, kc⟩, hrow, rfl⟩
    obtain ⟨hpair, hwhere⟩ := List.mem_filter.mp hrow
    obtain ⟨htc, hkc⟩ := List.mem_product.mp hpair
    obtain ⟨t, ht, k, hk, rfl⟩ := mem_tableConstraints.mp htc
    obtain ⟨t', ht', name, hname, rfl⟩ := mem_keyColumnUsage.mp hkc
    obtain ⟨⟨hsame, hschema, hkind⟩, hasked⟩ := by simpa using hwhere
    obtain rfl := hcat.eq_of_name ht' ht hschema hsame
    exact ⟨t', ht', hasked, (primaryKey_ne_nil hcat ht').mpr ⟨k, hk, hkind⟩, hname⟩
  · rintro ⟨t, ht, hasked, hkey, hname⟩
    obtain ⟨k, hk, hkind⟩ := (primaryKey_ne_nil hcat ht).mp hkey
    refine ⟨((t.schema, t.name, k.kind), (t.schema, t.name, name)), List.mem_filter.mpr
      ⟨List.mem_product.mpr ⟨mem_tableConstraints.mpr ⟨t, ht, k, hk, rfl⟩,
        mem_keyColumnUsage.mpr ⟨t, ht, name, hname, rfl⟩⟩, ?_⟩, rfl⟩
    simp [hkind, hasked]

lemma columnRows_eq (cat : Catalog) (isAsked : String → String → Bool) :
    cat.columnRows isAsked =
      (cat.tables.filter fun t => isAsked t.schema t.name).flatMap CatalogTable.columns := by
  rw [columnRows, columnsView]
  induction cat.tables with
  | nil => rfl
  | cons t tables ih =>
    rw [List.flatMap_cons, List.filter_append, List.map_append, ih, List.filter_cons]
    split <;> simp_all [Function.comp_def, List.filter_map]

/-- The rows are the columns of a table if the others that are asked for have none. -/
lemma columnRows_of_unique (hcat : cat.WellFormed) (ht : t ∈ cat.tables)
    (hasked : isAsked t.schema t.name = true)
    (hother : ∀ t' ∈ cat.tables, isAsked t'.schema t'.name = true → t' ≠ t → t'.columns = []) :
    cat.columnRows isAsked = t.columns := by
  obtain ⟨before, after, hsplit⟩ := List.append_of_mem ht
  have hnodup : (before ++ t :: after).Nodup := hsplit ▸ hcat.tables.of_map
  have hnone : ∀ ts : List CatalogTable, (∀ t' ∈ ts, t' ∈ cat.tables ∧ t' ≠ t) →
      (ts.filter fun t => isAsked t.schema t.name).flatMap CatalogTable.columns = [] := by
    intro ts hts
    rw [List.flatMap_eq_nil_iff]
    intro t' ht'
    obtain ⟨hmem, hasked'⟩ := List.mem_filter.mp ht'
    exact hother t' (hts t' hmem).1 hasked' (hts t' hmem).2
  have hbefore := hnone before fun t' ht' => ⟨hsplit ▸ List.mem_append_left _ ht', by
    rintro rfl
    exact (List.disjoint_of_nodup_append hnodup) ht' List.mem_cons_self⟩
  have hafter := hnone after fun t' ht' =>
    ⟨hsplit ▸ List.mem_append_right _ (List.mem_cons_of_mem _ ht'), by
      rintro rfl
      exact (List.nodup_cons.mp (List.nodup_append.mp hnodup).2.1).1 ht'⟩
  rw [columnRows_eq, hsplit, List.filter_append, List.flatMap_append, hbefore, List.filter_cons,
    if_pos hasked, List.flatMap_cons, hafter, List.nil_append, List.append_nil]

/-- With as many rows as a table has columns, the others that are asked for have none. -/
lemma other_of_length (ht : t ∈ cat.tables) (hasked : isAsked t.schema t.name = true)
    (hlength : (cat.columnRows isAsked).length = t.columns.length) {t' : CatalogTable}
    (ht' : t' ∈ cat.tables) (hasked' : isAsked t'.schema t'.name = true) (hne : t' ≠ t) :
    t'.columns = [] := by
  obtain ⟨before, after, hsplit⟩ := List.append_of_mem ht
  rw [columnRows_eq, hsplit, List.filter_append, List.flatMap_append, List.filter_cons,
    if_pos hasked, List.flatMap_cons, List.length_append, List.length_append] at hlength
  have hnone : ∀ ts : List CatalogTable, ((ts.filter fun t => isAsked t.schema t.name).flatMap
      CatalogTable.columns).length = 0 → t' ∈ ts → t'.columns = [] := by
    intro ts hts hmem
    rw [List.length_eq_zero_iff, List.flatMap_eq_nil_iff] at hts
    exact hts t' (List.mem_filter.mpr ⟨hmem, hasked'⟩)
  rw [hsplit, List.mem_append, List.mem_cons] at ht'
  rcases ht' with hbefore | rfl | hafter
  · exact hnone before (by omega) hbefore
  · exact absurd rfl hne
  · exact hnone after (by omega) hafter

lemma mem_columnRows {c : CatalogColumn} :
    c ∈ cat.columnRows isAsked ↔
      ∃ t ∈ cat.tables, isAsked t.schema t.name = true ∧ c ∈ t.columns := by
  rw [columnRows_eq, List.mem_flatMap]
  simp only [List.mem_filter, and_assoc]

/-- A name stands for a table: no other one with the name has columns, and what the server finds for
the name has the columns of the table. -/
structure Only (cat : Catalog) (t : CatalogTable) : Prop where
  other : ∀ t' ∈ cat.tables, t'.name = t.name → t' ≠ t → t'.columns = []
  found : ∀ c ∈ t.columns, ∃ t', cat.finds t.name = .ok (some t') ∧
    c.name ∈ t'.columns.map CatalogColumn.name

lemma serialSequence_ok_iff {name column : String} :
    (∃ serial, cat.serialSequence name column = .ok serial) ↔
      ∃ t, cat.finds name = .ok (some t) ∧ column ∈ t.columns.map CatalogColumn.name := by
  rw [serialSequence]
  cases hfinds : cat.finds name with
  | error e => simp
  | ok found =>
    cases found with
    | none => simp
    | some t =>
      cases hcolumn : t.columns.find? fun c => c.name = column with
      | none =>
        have hnone : ∀ c ∈ t.columns, c.name ≠ column := by simpa using hcolumn
        simpa [hcolumn] using hnone
      | some c =>
        have hc : ∃ c ∈ t.columns, c.name = column :=
          ⟨c, List.mem_of_find?_eq_some hcolumn, by simpa using List.find?_some hcolumn⟩
        simpa [hcolumn] using hc

end Catalog

namespace CatalogTable

variable {t : CatalogTable} {counted counted' : CatalogColumn → Bool}

/-- A driver takes a column for one of the primary key. -/
def Flagged (t : CatalogTable) (name : String) : Prop := t.primaryKey ≠ [] ∧ name ∈ t.keyColumns

instance (t : CatalogTable) (name : String) : Decidable (t.Flagged name) :=
  inferInstanceAs (Decidable (_ ∧ _))

/-- The definitions with these columns for the primary key. -/
def reported (t : CatalogTable) (counted : CatalogColumn → Bool) : List ColumnDefinition :=
  t.columns.map fun c => ⟨c.name, t.Flagged c.name, decide (t.Flagged c.name) && counted c⟩

lemma flagged_of_mem {name : String} (h : name ∈ t.primaryKey) : t.Flagged name := by
  obtain ⟨k, hk, hname⟩ := List.mem_flatMap.mp h
  exact ⟨List.ne_nil_of_mem h, List.mem_flatMap.mpr ⟨k, (List.mem_filter.mp hk).1, hname⟩⟩

/-- No constraint but the primary key is on other columns. -/
def KeysArePrimary (t : CatalogTable) : Prop :=
  t.primaryKey = [] ∨ ∀ name ∈ t.keyColumns, name ∈ t.primaryKey

lemma reported_eq_describe_iff (hkeys : ∀ name ∈ t.keyColumns, name ∈ t.columns.map (·.name)) :
    t.reported counted = t.describe counted' ↔
      t.KeysArePrimary ∧ ∀ c ∈ t.columns, c.name ∈ t.primaryKey → counted c = counted' c := by
  rw [reported, describe, List.map_inj_left]
  constructor
  · intro h
    refine ⟨?_, fun c hc hname => ?_⟩
    · rw [KeysArePrimary, or_iff_not_imp_left]
      intro hkey name hname
      obtain ⟨c, hc, rfl⟩ := List.mem_map.mp (hkeys name hname)
      have hpk := congrArg ColumnDefinition.pk (h c hc)
      simpa [Flagged, hkey, hname] using hpk
    · have hcounted := congrArg ColumnDefinition.autoincrement (h c hc)
      simpa [hname, flagged_of_mem hname] using hcounted
  · rintro ⟨hprimary, hcounted⟩ c hc
    have hiff : t.Flagged c.name ↔ c.name ∈ t.primaryKey := by
      refine ⟨fun hflagged => ?_, flagged_of_mem⟩
      exact (hprimary.resolve_left hflagged.1) _ hflagged.2
    by_cases hname : c.name ∈ t.primaryKey
    · simp [hiff, hname, hcounted c hc hname]
    · simp [hiff, hname]

end CatalogTable

/-! ### The drivers -/

section Drivers

variable {cat : Catalog} {t : CatalogTable} (hcat : cat.WellFormed) (ht : t ∈ cat.tables)

lemma filterMap_eq_map {α β : Type*} {f : α → Option β} {g : α → β} {xs : List α}
    (h : ∀ x ∈ xs, f x = some (g x)) : xs.filterMap f = xs.map g := by
  rw [List.filterMap_congr h, List.filterMap_eq_map']

include hcat ht

/-- What the driver for MySQL makes of a table. -/
lemma Mysql.columns_eq :
    (getColumnsForSchema cat t.schema t.name).map ColumnRow.toColumnDefinition =
      t.reported (·.extra = "auto_increment") := by
  have hkeys : ∀ name, name ∈ getPrimaryKeys cat t.schema t.name ↔ t.Flagged name := by
    intro name
    have hsame : getPrimaryKeys cat t.schema t.name =
        cat.primaryKeyRows fun schema table => table = t.name ∧ schema = t.schema := by
      rw [getPrimaryKeys]
      exact List.map_id _
    rw [hsame, Catalog.mem_primaryKeyRows hcat]
    constructor
    · rintro ⟨t', ht', hasked, hflagged⟩
      obtain ⟨hname, hschema⟩ := by simpa using hasked
      obtain rfl := hcat.eq_of_name ht' ht hschema hname
      exact hflagged
    · exact fun hflagged => ⟨t, ht, by simp, hflagged⟩
  have hrows : cat.columnRows (fun schema table => table = t.name ∧ schema = t.schema) =
      t.columns := by
    refine Catalog.columnRows_of_unique hcat ht (by simp) fun t' ht' hasked hne => ?_
    obtain ⟨hname, hschema⟩ := by simpa using hasked
    exact absurd (hcat.eq_of_name ht' ht hschema hname) hne
  rw [getColumnsForSchema, hrows, List.map_filterMap, CatalogTable.reported]
  refine filterMap_eq_map fun c hc => ?_
  have hname : (textValue (some c.name)).toString ≠ "" := hcat.name_ne t ht c hc
  rw [definition, ColumnRow.ofTexts, if_neg hname, Option.map_some]
  have hpk : (getPrimaryKeys cat t.schema t.name).contains c.name = decide (t.Flagged c.name) := by
    rw [Bool.eq_iff_iff, List.contains_iff_mem, hkeys, decide_eq_true_iff]
  exact congrArg some (by simp only [← hpk]; rfl)

omit hcat ht

lemma mapM_eq_ok_iff {α β ε : Type*} {f : α → Except ε β} {xs : List α} {ys : List β} :
    xs.mapM f = .ok ys ↔ xs.map f = ys.map .ok := by
  induction xs generalizing ys with
  | nil => simp [pure, Except.pure, eq_comm]
  | cons x xs ih =>
    rw [List.mapM_cons, List.map_cons]
    constructor
    · intro h
      cases hx : f x with
      | error e =>
        rw [hx] at h
        cases h
      | ok y =>
        cases hxs : xs.mapM f with
        | error e =>
          rw [hx, hxs] at h
          cases h
        | ok zs =>
          rw [hx, hxs] at h
          cases h
          rw [List.map_cons, ih.mp hxs]
    · intro h
      obtain ⟨y, zs, rfl, hy, hzs⟩ := List.map_eq_cons_iff.mp h.symm
      rw [← hy, ih.mpr hzs.symm]
      rfl

lemma mapM_pair_ok {α β ε : Type*} {g : α → Except ε β} {xs : List α} {ys : List (α × β)}
    (h : xs.mapM (fun x => (g x).map fun y => (x, y)) = .ok ys) :
    ys.map Prod.fst = xs ∧ ∀ y ∈ ys, g y.1 = .ok y.2 := by
  rw [mapM_eq_ok_iff] at h
  induction ys generalizing xs with
  | nil =>
    obtain rfl := List.map_eq_nil_iff.mp h
    exact ⟨rfl, by simp⟩
  | cons y ys ih =>
    obtain ⟨x, xs, rfl, hx, hxs⟩ := List.map_eq_cons_iff.mp h
    obtain ⟨hfst, hall⟩ := ih hxs
    cases hg : g x with
    | error e =>
      rw [hg] at hx
      cases hx
    | ok z =>
      rw [hg] at hx
      obtain rfl : (x, z) = y := Except.ok.inj hx
      exact ⟨by rw [List.map_cons, hfst], List.forall_mem_cons.mpr ⟨hg, hall⟩⟩

lemma exists_mapM_pair {α β ε : Type*} {g : α → Except ε β} {xs : List α}
    (h : ∀ x ∈ xs, ∃ y, g x = .ok y) :
    ∃ ys, xs.mapM (fun x => (g x).map fun y => (x, y)) = .ok ys := by
  induction xs with
  | nil => exact ⟨[], rfl⟩
  | cons x xs ih =>
    obtain ⟨⟨y, hy⟩, hxs⟩ := List.forall_mem_cons.mp h
    obtain ⟨ys, hys⟩ := ih hxs
    refine ⟨(x, y) :: ys, ?_⟩
    rw [List.mapM_cons, hy, hys]
    rfl

lemma Postgres.toString_textValue {s : String} (hs : s ≠ "") :
    (textValue (some s)).toString = s := by
  rw [textValue, if_neg hs, SqlValue.toString]

/-- A null is read as a text with characters. -/
lemma Postgres.toString_textValue_ne (text : Option String) : (textValue text).toString ≠ "" := by
  cases text with
  | none => decide
  | some s =>
    by_cases hs : s = ""
    · rw [textValue, if_pos hs]
      decide
    · rwa [toString_textValue hs]

include hcat ht

/-- What the driver for PostgreSQL makes of a table that its name stands for. It takes every column
of the primary key for one that is counted up. -/
lemma Postgres.columns_eq (honly : cat.Only t) :
    (getColumnsForSchema cat t.name).map (List.map ColumnRow.toColumnDefinition) =
      .ok (t.reported fun _ => true) := by
  have hrows : cat.columnRows (fun _ table => table = t.name) = t.columns :=
    Catalog.columnRows_of_unique hcat ht (by simp) fun t' ht' hasked hne =>
      honly.other t' ht' (by simpa using hasked) hne
  have hkeys : ∀ c ∈ t.columns, (cat.primaryKeyRows fun _ table => table = t.name).any
      (fun key => (textValue (some key)).toString = c.name) = decide (t.Flagged c.name) := by
    intro c hc
    rw [Bool.eq_iff_iff, List.any_eq_true, decide_eq_true_iff]
    simp only [Catalog.mem_primaryKeyRows hcat, decide_eq_true_iff]
    constructor
    · rintro ⟨name, ⟨t', ht', hasked, hflagged⟩, hname⟩
      obtain ⟨k, hk, hmem⟩ := List.mem_flatMap.mp hflagged.2
      obtain ⟨c', hc', rfl⟩ := List.mem_map.mp ((hcat.keys t' ht' k hk).2 _ hmem)
      have heq : t' = t := by
        by_contra hne
        simp [honly.other t' ht' hasked hne] at hc'
      subst heq
      rw [toString_textValue (hcat.name_ne t' ht' c' hc')] at hname
      exact hname ▸ hflagged
    · intro hflagged
      exact ⟨c.name, ⟨t, ht, rfl, hflagged⟩, toString_textValue (hcat.name_ne t ht c hc)⟩
  obtain ⟨rows, hserial⟩ := exists_mapM_pair fun c hc =>
    Catalog.serialSequence_ok_iff.mpr (honly.found c hc)
  have hfst := (mapM_pair_ok hserial).1
  rw [getColumnsForSchema, hrows, hserial, CatalogTable.reported]
  simp only [Except.map, Except.ok.injEq, List.map_filterMap]
  rw [← hfst, List.map_map]
  refine filterMap_eq_map fun row hrow => ?_
  have hc : row.1 ∈ t.columns := hfst ▸ List.mem_map_of_mem hrow
  have hname := toString_textValue (hcat.name_ne t ht row.1 hc)
  have hcounted := toString_textValue_ne row.2
  rw [definition, ColumnRow.ofTexts, hname, if_neg (hcat.name_ne t ht row.1 hc), Option.map_some,
    hkeys row.1 hc]
  simp [hcounted]

omit ht in
/-- The driver has a definition for every row, unless it fails. -/
lemma Postgres.rows_of_ok {tableName : String} {rows : List ColumnRow}
    (h : getColumnsForSchema cat tableName = .ok rows) :
    rows.length = (cat.columnRows fun _ table => table = tableName).length ∧
      ∀ c ∈ cat.columnRows fun _ table => table = tableName,
        ∃ serial, cat.serialSequence tableName c.name = .ok serial := by
  rw [getColumnsForSchema] at h
  cases hmapM : (cat.columnRows fun _ table => table = tableName).mapM (fun c =>
      (cat.serialSequence tableName c.name).map fun serial => (c, serial)) with
  | error e =>
    rw [hmapM] at h
    cases h
  | ok found =>
    rw [hmapM] at h
    obtain ⟨hfst, hserial⟩ := mapM_pair_ok hmapM
    refine ⟨?_, fun c hc => ?_⟩
    · rw [← Except.ok.inj h, ← hfst, List.length_map, List.filterMap_length_eq_length]
      intro row hrow
      obtain ⟨t', ht', -, hc⟩ := Catalog.mem_columnRows.mp (hfst ▸ List.mem_map_of_mem hrow)
      have hname := hcat.name_ne t' ht' _ hc
      rw [definition, ColumnRow.ofTexts, toString_textValue hname, if_neg hname]
      rfl
    · rw [← hfst] at hc
      obtain ⟨row, hrow, rfl⟩ := List.mem_map.mp hc
      exact ⟨row.2, hserial row hrow⟩

/-- A definition with as many columns as a table is that of the table alone. -/
lemma Postgres.only_of_length {rows : List ColumnRow}
    (h : getColumnsForSchema cat t.name = .ok rows) (hlength : rows.length = t.columns.length) :
    cat.Only t := by
  obtain ⟨hrows, hserial⟩ := rows_of_ok hcat h
  have hother : ∀ t' ∈ cat.tables, t'.name = t.name → t' ≠ t → t'.columns = [] :=
    fun t' ht' hname hne => Catalog.other_of_length ht (decide_eq_true rfl)
      (hrows.symm.trans hlength) ht' (decide_eq_true hname) hne
  exact ⟨hother, fun c hc => Catalog.serialSequence_ok_iff.mp
    (hserial c (Catalog.mem_columnRows.mpr ⟨t, ht, by simp, hc⟩))⟩

omit hcat ht

lemma mapM_eq_some {α β : Type*} {f : α → Option β} {g : α → β} {xs : List α}
    (h : ∀ x ∈ xs, f x = some (g x)) : xs.mapM f = some (xs.map g) := by
  induction xs with
  | nil => rfl
  | cons x xs ih =>
    obtain ⟨hx, hxs⟩ := List.forall_mem_cons.mp h
    rw [List.mapM_cons, hx, ih hxs]
    rfl

lemma SqlNumber.toBool_ofLlong {n : Nat} (hn : n < 2 ^ 32) :
    (SqlNumber.ofLlong n).toBool = some (decide (n ≠ 0)) := by
  have hbmod : (n : Int).bmod (2 ^ 64) = n := by
    refine Int.bmod_eq_of_le_mul_two ?_ ?_ <;> omega
  simp only [SqlNumber.ofLlong, SqlNumber.toBool_integral, hbmod, Option.some.injEq,
    decide_eq_decide]
  omega

/-- The place of a column in the primary key is read as `true`. -/
lemma Sqlite.toBool_primaryKeyIndex (hsmall : t.primaryKey.length < 2 ^ 32) (c : CatalogColumn) :
    (SqlNumber.ofLlong (primaryKeyIndex t c)).toBool = some (decide (c.name ∈ t.primaryKey)) := by
  rw [primaryKeyIndex]
  split
  · next hname =>
    have hlt := List.idxOf_lt_length_iff.mpr hname
    rw [SqlNumber.toBool_ofLlong (by omega)]
    simp [hname]
  · next hname =>
    rw [SqlNumber.toBool_ofLlong (by omega)]
    simp [hname]

/-- What the driver for SQLite makes of a table that the server finds by its name. It takes every
column of the primary key for one that is counted up. -/
lemma Sqlite.columns_eq (hname : t.name ≠ "") (hfinds : cat.finds t.name = .ok (some t))
    (hsmall : t.primaryKey.length < 2 ^ 32) :
    (getColumnsForSchema cat t.name).map (Except.map (List.map ColumnRow.toColumnDefinition)) =
      some (.ok (t.describe fun _ => true)) := by
  have hrows : t.columns.mapM (definition t) = some (t.columns.map fun c =>
      { name := c.name
        pk := decide (c.name ∈ t.primaryKey)
        autoincrement := decide (c.name ∈ t.primaryKey)
        type := c.type
        default_value := (textValue c.default_).toString }) := by
    refine mapM_eq_some fun c _ => ?_
    rw [definition, toBool_primaryKeyIndex hsmall]
    rfl
  rw [getColumnsForSchema, if_neg hname, hfinds]
  simp only [hrows, Option.map_some, Except.map, List.map_map, CatalogTable.describe,
    Bool.and_true]
  rfl

end Drivers

/-! ### Definitions that are right -/

section Describes

variable {cat : Catalog} {t : CatalogTable}

lemma Catalog.WellFormed.keyColumns (hcat : cat.WellFormed) (ht : t ∈ cat.tables) :
    ∀ name ∈ t.keyColumns, name ∈ t.columns.map (·.name) := by
  intro name hname
  obtain ⟨k, hk, hmem⟩ := List.mem_flatMap.mp hname
  exact (hcat.keys t ht k hk).2 name hmem

/-- A table of settings with a number, each of a user. -/
def settings : CatalogTable where
  schema := "public"
  name := "user_settings"
  columns :=
    [{ name := "user_id", type := "integer" },
      { name := "id", type := "integer", extra := "auto_increment",
        serial := some "user_settings_id_seq", rowid := true }]
  keys := [⟨.primary, ["id"]⟩, ⟨.foreign, ["user_id"]⟩]

def settingsCatalog : Catalog where
  tables := [settings]
  finds name := .ok (if name = "user_settings" then some settings else none)

lemma settingsCatalog_wellFormed : settingsCatalog.WellFormed where
  tables := by decide
  names := by decide
  name_ne := by decide
  keys := by decide

lemma settings_mem : settings ∈ settingsCatalog.tables := List.mem_singleton_self settings

lemma not_keysArePrimary_settings : ¬settings.KeysArePrimary := by
  rw [CatalogTable.KeysArePrimary]
  decide

/-- The definition that the driver for MySQL gives of a table is right exactly if the table has no
primary key, or no other constraint is on columns that are not in it. -/
theorem Mysql.describes_keys_iff (hcat : cat.WellFormed) (ht : t ∈ cat.tables) :
    (getColumnsForSchema cat t.schema t.name).map ColumnRow.toColumnDefinition =
      t.describe (·.extra = "auto_increment") ↔ t.KeysArePrimary := by
  rw [columns_eq hcat ht, CatalogTable.reported_eq_describe_iff (hcat.keyColumns ht)]
  exact and_iff_left fun c _ _ => rfl

/-- The user is taken for a primary key. -/
theorem Mysql.not_describes_keys_settings :
    (getColumnsForSchema settingsCatalog "public" "user_settings").map
      ColumnRow.toColumnDefinition ≠ settings.describe (·.extra = "auto_increment") := fun h =>
  not_keysArePrimary_settings
    ((describes_keys_iff settingsCatalog_wellFormed settings_mem).mp h)

/-- That of the driver for PostgreSQL is right exactly if moreover the name stands for this table
alone, and every column of its primary key has a sequence. -/
theorem Postgres.describes_only_iff (hcat : cat.WellFormed) (ht : t ∈ cat.tables) :
    (getColumnsForSchema cat t.name).map (List.map ColumnRow.toColumnDefinition) =
        .ok (t.describe (·.serial.isSome)) ↔
      cat.Only t ∧ t.KeysArePrimary ∧
        ∀ c ∈ t.columns, c.name ∈ t.primaryKey → c.serial.isSome = true := by
  have hiff : cat.Only t → ((getColumnsForSchema cat t.name).map
      (List.map ColumnRow.toColumnDefinition) = .ok (t.describe (·.serial.isSome)) ↔
        t.KeysArePrimary ∧ ∀ c ∈ t.columns, c.name ∈ t.primaryKey → c.serial.isSome = true) := by
    intro honly
    rw [columns_eq hcat ht honly, Except.ok.injEq,
      CatalogTable.reported_eq_describe_iff (hcat.keyColumns ht)]
    simp only [eq_comm]
  constructor
  · intro h
    have honly : cat.Only t := by
      cases hrows : getColumnsForSchema cat t.name with
      | error e =>
        rw [hrows] at h
        cases h
      | ok rows =>
        rw [hrows] at h
        refine only_of_length hcat ht hrows ?_
        have hlength := congrArg List.length (Except.ok.inj h)
        simpa [CatalogTable.describe] using hlength
    exact ⟨honly, (hiff honly).mp h⟩
  · rintro ⟨honly, h⟩
    exact (hiff honly).mpr h

/-- The user is taken for a primary key. -/
theorem Postgres.not_describes_only_settings :
    (getColumnsForSchema settingsCatalog "user_settings").map
      (List.map ColumnRow.toColumnDefinition) ≠
        .ok (settings.describe (·.serial.isSome)) := fun h =>
  not_keysArePrimary_settings
    ((describes_only_iff settingsCatalog_wellFormed settings_mem).mp h).2.1

/-- That of the driver for SQLite, of a table that it finds by its name without quotes, is right
exactly if every column of the primary key stands for the number of the row. -/
theorem Sqlite.describes_rowid_iff (hname : t.name ≠ "") (hfinds : cat.finds t.name = .ok (some t))
    (hsmall : t.primaryKey.length < 2 ^ 32) :
    (getColumnsForSchema cat t.name).map (Except.map (List.map ColumnRow.toColumnDefinition)) =
        some (.ok (t.describe (·.rowid))) ↔
      ∀ c ∈ t.columns, c.name ∈ t.primaryKey → c.rowid = true := by
  rw [columns_eq hname hfinds hsmall, Option.some.injEq, Except.ok.injEq,
    CatalogTable.describe, CatalogTable.describe, List.map_inj_left]
  refine forall₂_congr fun c _ => ?_
  by_cases hkey : c.name ∈ t.primaryKey
  · simp [hkey]
  · simp [hkey]

/-- The user is not taken for a primary key. -/
theorem Sqlite.describes_rowid_settings :
    (getColumnsForSchema settingsCatalog "user_settings").map
        (Except.map (List.map ColumnRow.toColumnDefinition)) =
      some (.ok (settings.describe (·.rowid))) :=
  (describes_rowid_iff (t := settings) (by decide) rfl (by decide)).mpr (by decide)

end Describes

end CodaDb
