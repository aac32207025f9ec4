import CodaDb.Bind.Target
import CodaDb.Query.Statement

/-!
# `mysql::binding` with parameter mapping

MySQL knows only question marks, which have one slot each. `prepare` replaces the parameters of a
text by question marks and notes the slots of the numbers; `bind` fills the slots of a number, or of
the numbers of a name.
-/

namespace CodaDb

namespace Mysql

structure Binding where
  mappings_ : BindMapping := fun _ => none
  indexes_ : Nat → List Nat := fun _ => []
  /-- the values of the slots, which are numbered from 1 -/
  value_ : Nat → Option SqlValue := fun _ => none

namespace Binding

def getIndexes (b : Binding) (index : Nat) : List Nat :=
  if (b.indexes_ index).isEmpty then [index] else b.indexes_ index

/-- The loop of `bind`, which stops at the slot 0: `reallocate_value` refuses it. -/
def store (value : SqlValue) : List Nat → (Nat → Option SqlValue) → Nat → Option SqlValue
  | [], slots => slots
  | i :: is, slots =>
    if i = 0 then slots else store value is (Function.update slots i (some value))

def bind (b : Binding) (index : Nat) (value : SqlValue) : Binding :=
  { b with
    indexes_ := Function.update b.indexes_ index (b.getIndexes index)
    value_ := store value (b.getIndexes index) b.value_ }

/-- `bind_mapping::bind` -/
def bindName (b : Binding) (name : String) (value : SqlValue) : Except DbException Binding :=
  match b.mappings_ name with
  | none => .error (.binding ("No parameter named '" ++ name ++ "' found"))
  | some indexes => .ok (indexes.foldl (fun b index => b.bind index value) b)

/-- The loop of `prepare` over the matches, whose counter is an `unsigned`; `none` if `std::stol`
throws. -/
def addIndexes : List String → Nat → (Nat → List Nat) → Option (Nat × (Nat → List Nat))
  | [], index, indexes => some (index, indexes)
  | str :: strs, index, indexes =>
    match str.toList with
    | '?' :: _ => addIndexes strs ((index + 1) % 2 ^ 32) indexes
    | '$' :: digits =>
      match IntKind.long.stoSigned digits with
      | none => none
      | some pos =>
        addIndexes strs ((index + 1) % 2 ^ 32) (Function.update indexes pos.val.toNat
          (insertIndex ((index + 1) % 2 ^ 32) (indexes pos.val.toNat)))
    | _ => addIndexes strs index indexes

/-- The binding and the text for MySQL. -/
def prepare (b : Binding) (sql : String) : Option (Binding × String) :=
  (addIndexes (Bindable.matchesOf Bindable.indexRegex sql) 0 fun _ => []).map fun r =>
    ({ b with mappings_ := .prepare sql r.1, indexes_ := r.2 },
      String.ofList (Search.replaceAll Bindable.paramRegex ['?'] sql.toList))

/-- Bind the values of these targets one after another. -/
def bindAll (b : Binding) (values : BindTarget → SqlValue) :
    List BindTarget → Except DbException Binding
  | [] => .ok b
  | .index i :: ts => bindAll (b.bind i (values (.index i))) values ts
  | .name s :: ts =>
    match b.bindName s (values (.name s)) with
    | .error e => .error e
    | .ok b' => bindAll b' values ts

/-! ### The slots that are written -/

/-- The slots of a number. -/
def slotsOf (b : Binding) (index : Nat) : List Nat := (b.getIndexes index).takeWhile (· ≠ 0)

/-- Whether a value that is bound to the target is stored in the slot. -/
def Writes (b : Binding) (slot : Nat) : BindTarget → Prop
  | .index i => slot ∈ b.slotsOf i
  | .name s => ∃ i ∈ (b.mappings_ s).getD [], slot ∈ b.slotsOf i

/-- Whether the target is a number or a name that the text has. -/
def Bindable (b : Binding) : BindTarget → Prop
  | .index _ => True
  | .name s => (b.mappings_ s).isSome = true

/-- Two bindings with the same slots. -/
structure Alike (b b' : Binding) : Prop where
  mappings : b'.mappings_ = b.mappings_
  getIndexes : ∀ i, b'.getIndexes i = b.getIndexes i

variable {b b' b'' : Binding}

lemma Alike.trans (h : Alike b b') (h' : Alike b' b'') : Alike b b'' :=
  ⟨h'.mappings.trans h.mappings, fun i => (h'.getIndexes i).trans (h.getIndexes i)⟩

lemma Alike.slotsOf (h : Alike b b') (i : Nat) : b'.slotsOf i = b.slotsOf i := by
  rw [Binding.slotsOf, h.getIndexes]
  rfl

lemma Alike.writes (h : Alike b b') (slot : Nat) (t : BindTarget) :
    b'.Writes slot t ↔ b.Writes slot t := by
  cases t with
  | index i => rw [Writes, Writes, h.slotsOf]
  | name s => simp only [Writes, h.mappings, h.slotsOf]

lemma Alike.bindable (h : Alike b b') (t : BindTarget) : b'.Bindable t ↔ b.Bindable t := by
  cases t with
  | index i => exact Iff.rfl
  | name s => rw [Bindable, Bindable, h.mappings]

lemma store_apply (value : SqlValue) (is : List Nat) (slots : Nat → Option SqlValue) (x : Nat) :
    store value is slots x = if x ∈ is.takeWhile (· ≠ 0) then some value else slots x := by
  induction is generalizing slots with
  | nil => rfl
  | cons i is ih =>
    rw [store]
    by_cases hi : i = 0
    · rw [if_pos hi, List.takeWhile_cons_of_neg (by simpa using hi)]
      rfl
    · rw [if_neg hi, ih, List.takeWhile_cons_of_pos (by simpa using hi)]
      by_cases hx : x = i
      · subst hx
        rw [if_pos (List.mem_cons_self ..), Function.update_self, ite_self]
      · rw [Function.update_of_ne hx]
        simp only [List.mem_cons, hx, false_or]

lemma bind_value (b : Binding) (i : Nat) (value : SqlValue) (x : Nat) :
    (b.bind i value).value_ x = if x ∈ b.slotsOf i then some value else b.value_ x :=
  store_apply value _ _ x

lemma bind_alike (b : Binding) (i : Nat) (value : SqlValue) : Alike b (b.bind i value) := by
  refine ⟨rfl, fun j => ?_⟩
  by_cases hj : j = i
  · subst hj
    have hne : (b.getIndexes j).isEmpty = false := by
      rw [getIndexes]
      split
      · rfl
      · next h => exact Bool.eq_false_of_not_eq_true h
    have hself : (b.bind j value).indexes_ j = b.getIndexes j := Function.update_self ..
    rw [getIndexes, hself, hne]
    rfl
  · have hother : (b.bind i value).indexes_ j = b.indexes_ j := Function.update_of_ne hj _ _
    rw [getIndexes, hother]
    rfl

lemma foldl_bind (value : SqlValue) (indexes : List Nat) (b : Binding) :
    Alike b (indexes.foldl (fun b index => b.bind index value) b) ∧
      ∀ x, ((∃ i ∈ indexes, x ∈ b.slotsOf i) →
          (indexes.foldl (fun b index => b.bind index value) b).value_ x = some value) ∧
        ((¬∃ i ∈ indexes, x ∈ b.slotsOf i) →
          (indexes.foldl (fun b index => b.bind index value) b).value_ x = b.value_ x) := by
  induction indexes generalizing b with
  | nil =>
    exact ⟨⟨rfl, fun _ => rfl⟩,
      fun x => ⟨fun ⟨_, hi, _⟩ => absurd hi List.not_mem_nil, fun _ => rfl⟩⟩
  | cons i indexes ih =>
    have halike := bind_alike b i value
    obtain ⟨htail, hvalues⟩ := ih (b.bind i value)
    refine ⟨halike.trans htail, fun x => ?_⟩
    obtain ⟨hwritten, hkept⟩ := hvalues x
    simp only [halike.slotsOf] at hwritten hkept
    have hbind := bind_value b i value x
    rw [List.foldl_cons]
    by_cases hlater : ∃ i ∈ indexes, x ∈ b.slotsOf i
    · refine ⟨fun _ => hwritten hlater, fun hnone => absurd ?_ hnone⟩
      obtain ⟨j, hj, hx⟩ := hlater
      exact ⟨j, List.mem_cons_of_mem i hj, hx⟩
    · rw [hkept hlater, hbind]
      constructor
      · rintro ⟨j, hj, hx⟩
        obtain rfl | hj := List.mem_cons.mp hj
        · exact if_pos hx
        · exact absurd ⟨j, hj, hx⟩ hlater
      · intro hnone
        exact if_neg fun hx => hnone ⟨i, List.mem_cons_self .., hx⟩

/-- What the binds of some targets store in a slot: the value of one that writes to it, and that of
the last if it does. -/
lemma bindAll_spec (values : BindTarget → SqlValue) {ts : List BindTarget}
    (hts : ∀ t ∈ ts, b.Bindable t) :
    ∃ b', b.bindAll values ts = .ok b' ∧ Alike b b' ∧ ∀ x,
      ((∃ t ∈ ts, b.Writes x t) → ∃ t ∈ ts, b.Writes x t ∧ b'.value_ x = some (values t)) ∧
        ((¬∃ t ∈ ts, b.Writes x t) → b'.value_ x = b.value_ x) ∧
        ∀ t, ts.getLast? = some t → b.Writes x t → b'.value_ x = some (values t) := by
  induction ts generalizing b with
  | nil =>
    exact ⟨b, rfl, ⟨rfl, fun _ => rfl⟩, fun x =>
      ⟨fun ⟨_, ht, _⟩ => absurd ht List.not_mem_nil, fun _ => rfl, nofun⟩⟩
  | cons t ts ih =>
    -- the first target
    obtain ⟨b₁, hbind, halike, hfirst⟩ : ∃ b₁, b.bindAll values (t :: ts) = b₁.bindAll values ts ∧
        Alike b b₁ ∧ ∀ x, (b.Writes x t → b₁.value_ x = some (values t)) ∧
          (¬b.Writes x t → b₁.value_ x = b.value_ x) := by
      cases t with
      | index i =>
        refine ⟨b.bind i (values (.index i)), rfl, bind_alike b i _, fun x => ?_⟩
        rw [bind_value]
        exact ⟨fun hx => if_pos hx, fun hx => if_neg hx⟩
      | name s =>
        obtain ⟨indexes, hindexes⟩ :=
          Option.isSome_iff_exists.mp (hts (.name s) (List.mem_cons_self ..))
        obtain ⟨halike, hvalues⟩ := foldl_bind (values (.name s)) indexes b
        refine ⟨_, ?_, halike, fun x => ?_⟩
        · rw [bindAll, bindName, hindexes]
        · rw [Writes, hindexes, Option.getD_some]
          exact hvalues x
    have hts' : ∀ t ∈ ts, b₁.Bindable t :=
      fun t ht => (halike.bindable t).mpr (hts t (List.mem_cons_of_mem _ ht))
    obtain ⟨b', hrest, halike', hvalues⟩ := ih hts'
    simp only [halike.writes] at hvalues
    refine ⟨b', hbind.trans hrest, halike.trans halike', fun x => ?_⟩
    obtain ⟨hwritten, hkept, hlast⟩ := hvalues x
    by_cases hlater : ∃ t ∈ ts, b.Writes x t
    · obtain ⟨t', ht', hx, hvalue⟩ := hwritten hlater
      refine ⟨fun _ => ⟨t', List.mem_cons_of_mem t ht', hx, hvalue⟩,
        fun hnone => absurd ⟨t', List.mem_cons_of_mem t ht', hx⟩ hnone, fun t'' ht'' hx'' => ?_⟩
      have hne : ts ≠ [] := List.ne_nil_of_mem ht'
      rw [List.getLast?_cons, List.getLast?_eq_some_getLast hne] at ht''
      exact hlast t'' ((List.getLast?_eq_some_getLast hne).trans ht'') hx''
    · have hkept' := hkept hlater
      refine ⟨?_, fun hnone => ?_, fun t' ht' hx => ?_⟩
      · rintro ⟨t', ht', hx⟩
        obtain rfl | ht' := List.mem_cons.mp ht'
        · exact ⟨t', List.mem_cons_self .., hx, hkept'.trans ((hfirst x).1 hx)⟩
        · exact absurd ⟨t', ht', hx⟩ hlater
      · exact hkept'.trans ((hfirst x).2 fun hx => hnone ⟨t, List.mem_cons_self .., hx⟩)
      · obtain rfl | hmem := List.mem_cons.mp (List.mem_of_getLast? ht')
        · exact hkept'.trans ((hfirst x).1 hx)
        · exact absurd ⟨t', hmem, hx⟩ hlater

end Binding

end Mysql

end CodaDb
