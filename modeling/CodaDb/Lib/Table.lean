import Mathlib.Data.List.Nodup
import Mathlib.Logic.Function.Basic
import Mathlib.Tactic.Lemma

/-!
# Tables with generated keys

The rows of a table under the statements that select, update, insert and delete rows by equations
between columns and values. Which values are the same, what a column keeps of a value and which
tables are allowed is up to the rules of a database.
-/

universe u v

/-- An entry is found by its key if no other has the same. -/
lemma List.find?_of_nodup_map {α : Type u} {β : Type v} [DecidableEq β] {f : α → β} {xs : List α}
    (hnodup : (xs.map f).Nodup) {x : α} (hx : x ∈ xs) {y : β} (hy : f x = y) :
    xs.find? (fun x => f x = y) = some x := by
  have hsome : (xs.find? fun x => f x = y).isSome = true :=
    List.find?_isSome.mpr ⟨x, hx, by simpa using hy⟩
  obtain ⟨found, hfound⟩ := Option.isSome_iff_exists.mp hsome
  have heq : f found = y := by simpa using List.find?_some hfound
  rw [hfound, List.inj_on_of_nodup_map hnodup (List.mem_of_find?_eq_some hfound) hx
    (heq.trans hy.symm)]

/-- The rules of a database for a table with columns `C` and values `V`. -/
structure TableRules (C : Type u) (V : Type v) where
  /-- the comparison of a column with a value -/
  same : V → V → Bool
  /-- what a column keeps of a value -/
  stored : C → V → V
  initial : C → V
  /-- the value of a generated key -/
  key : Nat → V
  lastKey : Nat
  /-- the constraints on the rows of the table -/
  allowed : List (C → V) → Bool
  /-- whether a row that became another one is counted as a change -/
  counted : (C → V) → (C → V) → Bool
  /-- whether a row can be inserted without values -/
  insertsNothing : Bool

/-- A table: its rows, and the next key to be generated. -/
structure Table (C : Type u) (V : Type v) where
  rows : List (C → V)
  next : Nat

namespace TableRules

variable {C : Type u} {V : Type v} (R : TableRules C V)

/-- A row meets a conjunction of equations. -/
def holds (eqs : List (C × V)) (row : C → V) : Bool := eqs.all fun e => R.same (row e.1) e.2

/-- The rows that meet the equations, in the order of the table. -/
def select (t : Table C V) (eqs : List (C × V)) : List (C → V) := t.rows.filter (R.holds eqs)

/-- Delete the rows that meet the equations. Besides the table, their number; `none` if the table
would not be allowed. -/
def delete (t : Table C V) (eqs : List (C × V)) : Option (Table C V × Nat) :=
  let rows := t.rows.filter fun row => !R.holds eqs row
  if R.allowed rows then some ({ t with rows := rows }, (R.select t eqs).length) else none

/-- The rules make a column a key: what it keeps of a value is the same as the value, and different
generated keys are not. -/
structure Keys (pk : C) : Prop where
  symm : ∀ v w, R.same v w = true → R.same w v = true
  trans : ∀ u v w, R.same u v = true → R.same v w = true → R.same u w = true
  stored : ∀ v, R.same v v = true → R.same (R.stored pk v) v = true
  key : ∀ n ≤ R.lastKey, R.same (R.key n) (R.key n) = true
  distinct : ∀ m ≤ R.lastKey, ∀ n ≤ R.lastKey, R.same (R.key m) (R.key n) = true → m = n

/-- No row has a key that is still to be generated. -/
def Fresh (pk : C) (t : Table C V) : Prop :=
  ∀ row ∈ t.rows, ∀ n, t.next ≤ n → n ≤ R.lastKey → R.same (row pk) (R.key n) = false

section Delete

variable {R} {pk : C} {t t' : Table C V} {eqs : List (C × V)} {k : V} {n : Nat}

@[simp] lemma holds_nil (row : C → V) : R.holds [] row = true := rfl

@[simp] lemma holds_singleton (row : C → V) : R.holds [(pk, k)] row = R.same (row pk) k := by
  simp [holds]

lemma mem_select {row : C → V} :
    row ∈ R.select t [(pk, k)] ↔ row ∈ t.rows ∧ R.same (row pk) k = true := by
  rw [select, List.mem_filter, holds_singleton]

lemma mem_of_select {row : C → V} {rows : List (C → V)} (h : R.select t eqs = row :: rows) :
    row ∈ t.rows := by
  have hmem : row ∈ R.select t eqs := h ▸ List.mem_cons_self
  exact List.mem_of_mem_filter hmem

lemma delete_cases (h : R.delete t eqs = some (t', n)) :
    t' = { t with rows := t.rows.filter fun row => !R.holds eqs row } ∧
      R.allowed t'.rows = true ∧ n = (R.select t eqs).length := by
  rw [delete] at h
  split at h
  · next hallowed =>
    obtain ⟨rfl, rfl⟩ := Prod.mk.inj (Option.some.inj h)
    exact ⟨rfl, hallowed, rfl⟩
  · cases h

lemma fresh_delete (hfresh : R.Fresh pk t) (h : R.delete t eqs = some (t', n)) :
    R.Fresh pk t' := by
  obtain ⟨rfl, -, -⟩ := delete_cases h
  exact fun row hrow => hfresh row (List.mem_of_mem_filter hrow)

/-- A delete by a key leaves the rows with other ones. -/
lemma Keys.kept_delete (hR : R.Keys pk) {k' : V} (hspared : R.same k k' = false)
    (h : R.delete t [(pk, k')] = some (t', n)) (hk : R.select t [(pk, k)] ≠ []) :
    R.select t' [(pk, k)] ≠ [] := by
  obtain ⟨rfl, -, -⟩ := delete_cases h
  obtain ⟨row, hrow⟩ := List.exists_mem_of_ne_nil _ hk
  obtain ⟨hrow, hsame⟩ := mem_select.mp hrow
  refine List.ne_nil_of_mem (a := row) (mem_select.mpr ⟨List.mem_filter.mpr ⟨hrow, ?_⟩, hsame⟩)
  rw [holds_singleton, Bool.not_eq_true', ← Bool.not_eq_true]
  intro hdeleted
  exact absurd (hR.trans _ _ _ (hR.symm _ _ hsame) hdeleted) (by simp [hspared])

end Delete

variable [DecidableEq C]

/-- A row with values written to some of its columns. -/
def write (values : List (C × V)) (row : C → V) : C → V := fun c =>
  ((values.lookup c).map (R.stored c)).getD (row c)

/-- A row with values written to it if it meets the equations. -/
def writeWhere (values eqs : List (C × V)) (row : C → V) : C → V :=
  if R.holds eqs row then R.write values row else row

/-- Write to the rows that meet the equations. Besides the table, the number of changes; `none` if
the table would not be allowed. -/
def update (t : Table C V) (values eqs : List (C × V)) : Option (Table C V × Nat) :=
  let rows := t.rows.map (R.writeWhere values eqs)
  if R.allowed rows then
    some ({ t with rows := rows },
      (R.select t eqs).countP fun row => R.counted row (R.write values row))
  else none

/-- Insert a row with a generated key in a column. Besides the table, the key. -/
def insert (t : Table C V) (pk : C) (values : List (C × V)) : Option (Table C V × Nat) :=
  let rows := t.rows ++
    [R.write values (Function.update R.initial pk (R.stored pk (R.key t.next)))]
  if R.allowed rows ∧ t.next ≤ R.lastKey ∧ (values = [] → R.insertsNothing = true) then
    some ({ rows := rows, next := t.next + 1 }, t.next)
  else none

variable {R} {pk : C} {t t' : Table C V} {values eqs : List (C × V)} {k : V} {n : Nat}

lemma write_of_none {c : C} (h : values.lookup c = none) (row : C → V) :
    R.write values row c = row c := by
  simp [write, h]

lemma write_of_some {c : C} {v : V} (h : values.lookup c = some v) (row : C → V) :
    R.write values row c = R.stored c v := by
  simp [write, h]

/-! ### What the statements do -/

lemma update_cases (h : R.update t values eqs = some (t', n)) :
    t' = { t with rows := t.rows.map (R.writeWhere values eqs) } ∧ R.allowed t'.rows = true ∧
    n = (R.select t eqs).countP fun row => R.counted row (R.write values row) := by
  rw [update] at h
  split at h
  · next hallowed =>
    obtain ⟨rfl, rfl⟩ := Prod.mk.inj (Option.some.inj h)
    exact ⟨rfl, hallowed, rfl⟩
  · cases h

lemma insert_cases (h : R.insert t pk values = some (t', n)) :
    t' = { rows := t.rows ++
        [R.write values (Function.update R.initial pk (R.stored pk (R.key t.next)))]
           next := t.next + 1 } ∧ R.allowed t'.rows = true ∧ n = t.next ∧ t.next ≤ R.lastKey := by
  rw [insert] at h
  split at h
  · next hallowed =>
    obtain ⟨rfl, rfl⟩ := Prod.mk.inj (Option.some.inj h)
    exact ⟨rfl, hallowed.1, rfl, hallowed.2.1⟩
  · cases h

/-! ### Keys -/

namespace Keys

variable (hR : R.Keys pk)

include hR

/-- A row that is written to keeps what its key is the same as, if the value for the key is the same
as the key. -/
lemma same_write {row : C → V} (hrow : R.same (row pk) k = true)
    (hvalues : ∀ v, values.lookup pk = some v → R.same v k = true) :
    R.same (R.write values row pk) (row pk) = true := by
  have hself := hR.trans _ _ _ hrow (hR.symm _ _ hrow)
  cases hlookup : values.lookup pk with
  | none => rwa [write_of_none hlookup]
  | some v =>
    rw [write_of_some hlookup]
    have hv := hvalues v hlookup
    have hstored := hR.stored v (hR.trans _ _ _ hv (hR.symm _ _ hv))
    exact hR.trans _ _ _ hstored (hR.trans _ _ _ hv (hR.symm _ _ hrow))

/-- After an update the rows with the key are those that were written to. -/
lemma select_update (hvalues : ∀ v, values.lookup pk = some v → R.same v k = true)
    (h : R.update t values [(pk, k)] = some (t', n)) :
    R.select t' [(pk, k)] = (R.select t [(pk, k)]).map (R.write values) := by
  obtain ⟨rfl, -, -⟩ := update_cases h
  simp only [select]
  induction t.rows with
  | nil => rfl
  | cons row rows ih =>
    simp only [List.map_cons, List.filter_cons, holds_singleton, writeWhere] at ih ⊢
    by_cases hrow : R.same (row pk) k = true
    · have hwrite := hR.trans _ _ _ (hR.same_write hrow hvalues) hrow
      simp only [hrow, if_true, hwrite, List.map_cons, ih]
    · simp only [hrow, Bool.false_eq_true, if_false, ih]

lemma fresh_update (hvalues : ∀ v, values.lookup pk = some v → R.same v k = true)
    (hfresh : R.Fresh pk t) (h : R.update t values [(pk, k)] = some (t', n)) :
    R.Fresh pk t' := by
  obtain ⟨rfl, -, -⟩ := update_cases h
  intro row hrow m hm hlast
  obtain ⟨row', hrow', rfl⟩ := List.mem_map.mp hrow
  have hnot := hfresh row' hrow' m hm hlast
  rw [writeWhere]
  split
  · next hholds =>
    rw [holds_singleton] at hholds
    by_contra hsame
    rw [Bool.not_eq_false] at hsame
    have hback := hR.symm _ _ (hR.same_write hholds hvalues)
    exact absurd (hR.trans _ _ _ hback hsame) (by simp [hnot])
  · exact hnot

/-- An update by one key leaves a row with another. -/
lemma kept_update {k' : V} (hvalues : ∀ v, values.lookup pk = some v → R.same v k' = true)
    (h : R.update t values [(pk, k')] = some (t', n)) (hk : R.select t [(pk, k)] ≠ []) :
    R.select t' [(pk, k)] ≠ [] := by
  obtain ⟨rfl, -, -⟩ := update_cases h
  obtain ⟨row, hrow⟩ := List.exists_mem_of_ne_nil _ hk
  obtain ⟨hrow, hsame⟩ := mem_select.mp hrow
  refine List.ne_nil_of_mem (a := R.writeWhere values [(pk, k')] row)
    (mem_select.mpr ⟨List.mem_map_of_mem hrow, ?_⟩)
  rw [writeWhere]
  split
  · next hholds =>
    rw [holds_singleton] at hholds
    exact hR.trans _ _ _ (hR.same_write hholds hvalues) hsame
  · exact hsame

/-- After an insert the row with the generated key is the new one. -/
lemma select_insert (hvalues : values.lookup pk = none) (hfresh : R.Fresh pk t)
    (h : R.insert t pk values = some (t', n)) :
    R.select t' [(pk, R.key n)] =
      [R.write values (Function.update R.initial pk (R.stored pk (R.key n)))] := by
  obtain ⟨rfl, -, rfl, hlast⟩ := insert_cases h
  have hold : t.rows.filter (R.holds [(pk, R.key t.next)]) = [] := by
    rw [List.filter_eq_nil_iff]
    intro row hrow
    simp [hfresh row hrow t.next (Nat.le_refl _) hlast]
  have hnew : R.same (R.write values
      (Function.update R.initial pk (R.stored pk (R.key t.next))) pk) (R.key t.next) = true := by
    rw [write_of_none hvalues, Function.update_self]
    exact hR.stored _ (hR.key _ hlast)
  simp only [select, List.filter_append, hold, List.nil_append, List.filter_cons, holds_singleton,
    hnew, if_true, List.filter_nil]

lemma fresh_insert (hvalues : values.lookup pk = none) (hfresh : R.Fresh pk t)
    (h : R.insert t pk values = some (t', n)) : R.Fresh pk t' := by
  obtain ⟨rfl, -, rfl, hlast⟩ := insert_cases h
  intro row hrow m hm hm'
  rcases List.mem_append.mp hrow with hrow | hrow
  · exact hfresh row hrow m (Nat.le_of_succ_le hm) hm'
  · obtain rfl := List.mem_singleton.mp hrow
    rw [write_of_none hvalues, Function.update_self]
    by_contra hsame
    rw [Bool.not_eq_false] at hsame
    have hstored := hR.symm _ _ (hR.stored _ (hR.key _ hlast))
    have heq := hR.distinct _ hlast _ hm' (hR.trans _ _ _ hstored hsame)
    simp only at hm
    omega

end Keys

lemma kept_insert (h : R.insert t pk values = some (t', n)) (hk : R.select t eqs ≠ []) :
    R.select t' eqs ≠ [] := by
  obtain ⟨rfl, -, -, -⟩ := insert_cases h
  simp only [select, List.filter_append]
  exact List.append_ne_nil_of_left_ne_nil hk _

end TableRules
