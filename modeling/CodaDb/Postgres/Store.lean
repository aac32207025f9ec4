import CodaDb.Postgres.Encode

/-!
# The slots of `postgres::binding`

The slots of PostgreSQL are four arrays, one for each field, which are cleared and grown together.
-/

namespace CodaDb.Postgres

/-- A `postgres::binding`. The arrays are null pointers where the size is 0. -/
structure Store where
  values_ : List (Option (List UInt8))
  types_ : List Oid
  lengths_ : List Int
  formats_ : List Int
  size_ : Nat
  values_length : values_.length = size_
  types_length : types_.length = size_
  lengths_length : lengths_.length = size_
  formats_length : formats_.length = size_

namespace Store

/-- `binding(size_t)`. The default constructor passes the size 10. -/
def construct (size : Nat) : Store where
  values_ := List.replicate size none
  types_ := List.replicate size .invalid
  lengths_ := List.replicate size 0
  formats_ := List.replicate size 0
  size_ := size
  values_length := List.length_replicate
  types_length := List.length_replicate
  lengths_length := List.length_replicate
  formats_length := List.length_replicate

/-- The store with null pointers. -/
def null : Store := construct 0

/-- The four fields of a slot, which the visitor and `clear_value(size_t)` set. -/
def write (s : Store) (i : Nat) (slot : Slot) : Store where
  values_ := s.values_.set i slot.value
  types_ := s.types_.set i slot.type
  lengths_ := s.lengths_.set i slot.length
  formats_ := s.formats_.set i slot.format
  size_ := s.size_
  values_length := by rw [List.length_set, s.values_length]
  types_length := by rw [List.length_set, s.types_length]
  lengths_length := by rw [List.length_set, s.lengths_length]
  formats_length := by rw [List.length_set, s.formats_length]

/-- The arrays with zeros behind them, up to a greater size. -/
def grow (s : Store) (size : Nat) (h : s.size_ ≤ size) : Store where
  values_ := s.values_ ++ List.replicate (size - s.size_) none
  types_ := s.types_ ++ List.replicate (size - s.size_) .invalid
  lengths_ := s.lengths_ ++ List.replicate (size - s.size_) 0
  formats_ := s.formats_ ++ List.replicate (size - s.size_) 0
  size_ := size
  values_length := by rw [List.length_append, List.length_replicate, s.values_length]; omega
  types_length := by rw [List.length_append, List.length_replicate, s.types_length]; omega
  lengths_length := by rw [List.length_append, List.length_replicate, s.lengths_length]; omega
  formats_length := by rw [List.length_append, List.length_replicate, s.formats_length]; omega

/-- `reallocate_value`; `none` stands for `false`. -/
def reallocateValue (s : Store) (index : Nat) : Option Store :=
  if index = 0 then none
  else if h : index ≤ s.size_ then some (s.write (index - 1) .cleared)
  else some (s.grow (index + Bindable.preallocIncrement) (by omega))

/-- `bind`; `none` where the behaviour is not defined. -/
def bind (locale : Locale) (s : Store) (index : Nat) (value : BoundValue) : Option Store :=
  match s.reallocateValue index with
  | none => some s
  | some s =>
    match Slot.encode locale value with
    | .slot slot => some (s.write (index - 1) slot)
    | .exception => some s
    | .undefined => none

/-- `binding::to_value` -/
def toValue (unescapeBytea : List UInt8 → List UInt8) (s : Store) (index : Nat)
    (address : UInt64) : Option (Except DbException SqlValue) :=
  match s.values_[index]?.join with
  | none => some (.ok .null)
  | some memory =>
    Postgres.toValue unescapeBytea (s.types_.getD index .invalid) (some memory)
      (s.lengths_.getD index 0) address

def capacity (s : Store) : Nat := s.size_

/-- `num_of_bindings` -/
def numOfBindings (s : Store) : Nat := s.types_.countP (· ≠ .invalid)

/-- The moves take the four arrays and the size, and leave null pointers. -/
def ops (locale : Locale) : Stores.Ops Store BoundValue where
  construct := construct
  bind := bind locale
  moveConstruct s := (s, null)
  moveAssign _ source := (source, null)
  moveSelf _ := null
  reset _ := null

/-- The fields of a slot. -/
def slot (s : Store) (i : Nat) : Slot where
  value := s.values_.getD i none
  type := s.types_.getD i .invalid
  length := s.lengths_.getD i 0
  format := s.formats_.getD i 0

/-- The slots of the arrays. -/
def slots (s : Store) : List Slot := (List.range s.size_).map s.slot

@[simp] lemma length_slots (s : Store) : s.slots.length = s.size_ := by
  rw [slots, List.length_map, List.length_range]

lemma getElem?_slots (s : Store) (i : Nat) :
    s.slots[i]? = if i < s.size_ then some (s.slot i) else none := by
  rw [slots, List.getElem?_map]
  split
  · next h => rw [List.getElem?_range h, Option.map_some]
  · next h => rw [List.getElem?_eq_none (by simpa using h), Option.map_none]

lemma slot_construct (size i : Nat) : (construct size).slot i = .cleared := by
  have hgetD : ∀ {α : Type} (d : α), (List.replicate size d).getD i d = d :=
    fun d => SlotArray.getD_append_replicate [] size i d
  simp only [slot, construct, hgetD]
  rfl

lemma slot_write (s : Store) (i : Nat) (x : Slot) (j : Nat) :
    (s.write i x).slot j = if j = i ∧ i < s.size_ then x else s.slot j := by
  simp only [slot, write, SlotArray.getD_set, s.values_length, s.types_length, s.lengths_length,
    s.formats_length]
  split <;> rfl

lemma slot_grow (s : Store) {size : Nat} (h : s.size_ ≤ size) (i : Nat) :
    (s.grow size h).slot i = s.slot i := by
  simp only [slot, grow, SlotArray.getD_append_replicate]

/-- There is nothing behind the arrays. -/
lemma slot_of_ge (s : Store) {i : Nat} (h : s.size_ ≤ i) : s.slot i = .cleared := by
  rw [slot, List.getD_eq_default _ _ (by rwa [s.values_length]),
    List.getD_eq_default _ _ (by rwa [s.types_length]),
    List.getD_eq_default _ _ (by rwa [s.lengths_length]),
    List.getD_eq_default _ _ (by rwa [s.formats_length])]
  rfl

lemma slots_construct (size : Nat) : (construct size).slots = List.replicate size .cleared := by
  rw [slots, List.map_congr_left fun i _ => slot_construct size i, List.map_const',
    List.length_range]
  rfl

lemma slots_write (s : Store) (i : Nat) (x : Slot) : (s.write i x).slots = s.slots.set i x := by
  refine List.ext_getElem? fun j => ?_
  rw [List.getElem?_set, getElem?_slots, getElem?_slots, slot_write, length_slots]
  have hsize : (s.write i x).size_ = s.size_ := rfl
  rw [hsize]
  by_cases hj : i = j
  · subst hj
    by_cases hi : i < s.size_
    · rw [if_pos rfl, if_pos hi, if_pos ⟨rfl, hi⟩, if_pos hi]
    · rw [if_pos rfl, if_neg hi, if_neg hi]
  · have hother : ¬(j = i ∧ i < s.size_) := fun h => hj h.1.symm
    rw [if_neg hj, if_neg hother]

lemma slots_grow (s : Store) {size : Nat} (h : s.size_ ≤ size) :
    (s.grow size h).slots = s.slots ++ List.replicate (size - s.size_) .cleared := by
  refine List.ext_getElem? fun j => ?_
  rw [getElem?_slots, slot_grow, List.getElem?_append, length_slots, getElem?_slots]
  have hsize : (s.grow size h).size_ = size := rfl
  rw [hsize]
  by_cases hj : j < s.size_
  · rw [if_pos hj, if_pos hj, if_pos (Nat.lt_of_lt_of_le hj h)]
  · rw [if_neg hj, List.getElem?_replicate, slot_of_ge s (Nat.le_of_not_lt hj)]
    exact if_congr (by omega) rfl rfl

/-- The slot of an index is cleared, or new. -/
lemma exists_reallocateValue (s : Store) (i : Nat) :
    ∃ t, s.reallocateValue (i + 1) = some t ∧ i < t.size_ ∧ t.slot i = .cleared := by
  rw [reallocateValue, if_neg (Nat.succ_ne_zero i)]
  by_cases h : i + 1 ≤ s.size_
  · refine ⟨_, dif_pos h, h, ?_⟩
    rw [Nat.add_sub_cancel, slot_write, if_pos ⟨rfl, h⟩]
  · refine ⟨_, dif_neg h, Nat.lt_of_lt_of_le (Nat.lt_succ_self i) (Nat.le_add_right _ _), ?_⟩
    rw [slot_grow, slot_of_ge s (by omega)]

section Bind

variable {locale : Locale} {value : BoundValue}

/-- A value has its slot. -/
lemma exists_bind {x : Slot} (h : Slot.encode locale value = .slot x) (s : Store) (i : Nat) :
    ∃ s', s.bind locale (i + 1) value = some s' ∧ s'.slot i = x := by
  obtain ⟨t, ht, hlt, -⟩ := s.exists_reallocateValue i
  refine ⟨t.write i x, by rw [bind, ht, h]; rfl, ?_⟩
  rw [slot_write, if_pos ⟨rfl, hlt⟩]

/-- A value that throws leaves its slot cleared. -/
lemma exists_bind_of_exception (h : Slot.encode locale value = .exception) (s : Store) (i : Nat) :
    ∃ s', s.bind locale (i + 1) value = some s' ∧ s'.slot i = .cleared := by
  obtain ⟨t, ht, -, hslot⟩ := s.exists_reallocateValue i
  exact ⟨t, by rw [bind, ht, h], hslot⟩

lemma bind_of_undefined (h : Slot.encode locale value = .undefined) (s : Store) (i : Nat) :
    s.bind locale (i + 1) value = none := by
  obtain ⟨t, ht, -, -⟩ := s.exists_reallocateValue i
  rw [bind, ht, h]

end Bind

/-- The four arrays together do what one array of slots does. -/
lemma bind_slots (locale : Locale) (s : Store) (index : Nat) (value : BoundValue) :
    (s.bind locale index value).map slots =
      SlotArray.bind .cleared Bindable.preallocIncrement (Slot.encode locale) s.slots index
        value := by
  rw [bind, SlotArray.bind]
  by_cases hindex : index = 0
  · rw [if_pos hindex, reallocateValue, if_pos hindex]
    rfl
  obtain ⟨t, ht, hslots⟩ : ∃ t, s.reallocateValue index = some t ∧
      t.slots = SlotArray.reallocate .cleared Bindable.preallocIncrement s.slots index := by
    rw [reallocateValue, if_neg hindex, SlotArray.reallocate, length_slots]
    by_cases hsize : index ≤ s.size_
    · exact ⟨_, dif_pos hsize, by rw [if_pos hsize, slots_write]⟩
    · exact ⟨_, dif_neg hsize, by rw [if_neg hsize, slots_grow]⟩
  rw [if_neg hindex, ht, ← hslots]
  cases hencode : Slot.encode locale value with
  | slot x => simp only [Option.map_some, slots_write]
  | exception => rfl
  | undefined => rfl

lemma toValue_eq (unescapeBytea : List UInt8 → List UInt8) (s : Store) (i : Nat)
    (address : UInt64) :
    s.toValue unescapeBytea i address =
      Postgres.toValue unescapeBytea (s.slot i).type (s.slot i).value (s.slot i).length
        address := by
  have hvalue : s.values_[i]?.join = (s.slot i).value := by
    rw [slot, List.getD_eq_getElem?_getD]
    cases s.values_[i]? <;> rfl
  rw [toValue, hvalue]
  cases hslot : (s.slot i).value with
  | none => rfl
  | some memory => rfl

lemma numOfBindings_eq (s : Store) :
    s.numOfBindings = s.slots.countP fun x => x.type ≠ .invalid := by
  have htypes : s.types_ = s.slots.map Slot.type := by
    refine List.ext_getElem? fun i => ?_
    rw [List.getElem?_map, getElem?_slots]
    by_cases hi : i < s.size_
    · have htype : s.types_[i]? = some (s.slot i).type := by
        have hlt : i < s.types_.length := by rwa [s.types_length]
        rw [List.getElem?_eq_getElem hlt]
        exact congrArg some (List.getD_eq_getElem _ _ hlt).symm
      rw [if_pos hi, htype, Option.map_some]
    · rw [if_neg hi, List.getElem?_eq_none (by rw [s.types_length]; omega)]
      rfl
  rw [numOfBindings, htypes, List.countP_map]
  rfl

/-- The arrays hold the values that are bound. -/
def Holds (locale : Locale) (s : Store) (c : SlotArray.Contents BoundValue) : Prop :=
  SlotArray.Represents .cleared (Slot.encode locale) s.slots c

/-- The slots of such a store are those of the values, or clear. -/
lemma Holds.slot_eq {locale : Locale} {s : Store} {c : SlotArray.Contents BoundValue}
    (h : s.Holds locale c) (i : Nat) :
    s.slot i = SlotArray.slotOf .cleared (Slot.encode locale) (c.value (i + 1)) := by
  rw [← h.slot i, List.getD_eq_getElem?_getD, getElem?_slots]
  split
  · rfl
  · next hi => exact s.slot_of_ge (Nat.le_of_not_lt hi)

lemma null_holds (locale : Locale) : null.Holds locale {} := by
  rw [Holds, null, slots_construct]
  exact SlotArray.represents_nil

/-- The store does what finite maps do. -/
theorem refines (locale : Locale) :
    Stores.Refines (ops locale) (SlotArray.Contents.ops (Slot.encode locale)) (Holds locale) where
  construct size := by
    rw [ops, Holds, slots_construct]
    exact SlotArray.represents_replicate size
  bind s c index value h := by
    have hbind := @SlotArray.Represents.bind Slot BoundValue .cleared Bindable.preallocIncrement
      (Slot.encode locale) s.slots c h index value
    rw [← bind_slots] at hbind
    rw [ops, SlotArray.Contents.ops]
    simp only
    generalize s.bind locale index value = t at hbind ⊢
    generalize c.bind _ _ _ = contents at hbind ⊢
    cases t with
    | none =>
      cases hbind with
      | none => exact .none
    | some t =>
      cases hbind with
      | some h => exact .some h
  moveConstruct s c h := ⟨h, null_holds locale⟩
  moveAssign s c source source' h hsource := ⟨hsource, null_holds locale⟩
  moveSelf s c h := null_holds locale
  reset s c h := null_holds locale

end Store

end CodaDb.Postgres
