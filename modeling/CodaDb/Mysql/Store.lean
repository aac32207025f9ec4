import CodaDb.Mysql.Encode

/-!
# The slots of `mysql::binding`

Without parameter mapping the slots of MySQL are an array of `MYSQL_BIND` that `bind` grows, and
every number has the slot of its own.
-/

namespace CodaDb.Mysql

/-- A `mysql::binding`. The array is a null pointer where it has no slots. -/
structure Store where
  value_ : List Bind := []
  indexes_ : Nat → List Nat := fun _ => []

namespace Store

/-- `binding(size_t)`. The default constructor passes the size 10. -/
def construct (size : Nat) : Store := { value_ := List.replicate size .cleared }

/-- `reallocate_value`; `none` stands for `false`. -/
def reallocateValue (values : List Bind) (index : Nat) : Option (List Bind) :=
  if index = 0 then none
  else if index ≤ values.length then some (values.set (index - 1) .cleared)
  else some (values ++
    List.replicate (index + Bindable.preallocIncrement - values.length) .cleared)

/-- `get_indexes` -/
def getIndexes (s : Store) (index : Nat) : List Nat :=
  if (s.indexes_ index).isEmpty then [index] else s.indexes_ index

/-- The loop of `bind`, which an exception leaves; `none` where the behaviour is not defined. -/
def bindSlots (value : BoundValue) : List Nat → List Bind → Option (List Bind)
  | [], values => some values
  | i :: is, values =>
    match reallocateValue values i with
    | none => some values
    | some values =>
      match (values.getD (i - 1) .cleared).write value with
      | .slot b => bindSlots value is (values.set (i - 1) b)
      | .exception => some values
      | .undefined => none

/-- `bind` -/
def bind (s : Store) (index : Nat) (value : BoundValue) : Option Store :=
  (bindSlots value (s.getIndexes index) s.value_).map fun values =>
    { value_ := values, indexes_ := Function.update s.indexes_ index (s.getIndexes index) }

/-- `to_value` -/
def toValue (s : Store) (index : Nat) (address : UInt64) : Option SqlValue :=
  match s.value_[index]? with
  | none => some .null
  | some b => bindingToValue b address

def capacity (s : Store) : Nat := s.value_.length

/-- `reset`, and what a move leaves of its source. -/
def reset (s : Store) : Store := { s with value_ := [] }

/-- The moves take the array alone. -/
def ops : Stores.Ops Store BoundValue where
  construct := construct
  bind := bind
  moveConstruct s := ({ value_ := s.value_ }, s.reset)
  moveAssign s source := ({ s with value_ := source.value_ }, source.reset)
  moveSelf := reset
  reset := reset

/-- No number has another slot than its own. -/
def Unmapped (s : Store) : Prop := ∀ index, s.indexes_ index = [] ∨ s.indexes_ index = [index]

lemma Unmapped.getIndexes {s : Store} (h : s.Unmapped) (index : Nat) :
    s.getIndexes index = [index] := by
  rw [Store.getIndexes]
  rcases h index with hnil | hown
  · rw [hnil]
    rfl
  · rw [hown]
    rfl

lemma unmapped_of_indexes_nil (values : List Bind) : Unmapped { value_ := values } :=
  fun _ => .inl rfl

lemma Unmapped.update {s : Store} (h : s.Unmapped) (values : List Bind) (index : Nat) :
    Unmapped { value_ := values
               indexes_ := Function.update s.indexes_ index (s.getIndexes index) } := by
  intro i
  by_cases hi : i = index
  · subst hi
    exact .inr ((Function.update_self ..).trans (h.getIndexes i))
  · have hother := Function.update_of_ne hi (s.getIndexes index) s.indexes_
    exact (h i).imp hother.trans hother.trans

/-- A value goes to the slot of its number, which was cleared before. -/
lemma bindSlots_singleton (value : BoundValue) (index : Nat) (values : List Bind) :
    bindSlots value [index] values =
      SlotArray.bind .cleared Bindable.preallocIncrement Bind.encode values index value := by
  rw [bindSlots, SlotArray.bind]
  by_cases hindex : index = 0
  · rw [if_pos hindex, reallocateValue, if_pos hindex]
  have hreallocate : reallocateValue values index =
      some (SlotArray.reallocate .cleared Bindable.preallocIncrement values index) := by
    rw [reallocateValue, if_neg hindex, SlotArray.reallocate]
    split <;> rfl
  have hcleared : (SlotArray.reallocate Bind.cleared Bindable.preallocIncrement values index).getD
      (index - 1) .cleared = .cleared := by
    rw [SlotArray.getD_reallocate hindex, if_pos (by omega)]
  rw [if_neg hindex, hreallocate]
  simp only [hcleared]
  rw [Bind.encode]
  cases Bind.cleared.write value <;> rfl

lemma bind_eq {s : Store} (h : s.Unmapped) (index : Nat) (value : BoundValue) :
    s.bind index value =
      (SlotArray.bind .cleared Bindable.preallocIncrement Bind.encode s.value_ index value).map
        fun values =>
          { value_ := values
            indexes_ := Function.update s.indexes_ index (s.getIndexes index) } := by
  rw [bind, h.getIndexes index, bindSlots_singleton]

/-- The array holds the values that are bound. -/
def Holds (s : Store) (c : SlotArray.Contents BoundValue) : Prop :=
  SlotArray.Represents .cleared Bind.encode s.value_ c

/-- The store does what finite maps do. -/
theorem refines :
    Stores.Refines ops (SlotArray.Contents.ops Bind.encode) fun s c => s.Holds c ∧ s.Unmapped where
  construct size := ⟨SlotArray.represents_replicate size, unmapped_of_indexes_nil _⟩
  bind s c index value h := by
    obtain ⟨hholds, hunmapped⟩ := h
    have hbind := @SlotArray.Represents.bind Bind BoundValue .cleared Bindable.preallocIncrement
      Bind.encode s.value_ c hholds index value
    rw [ops, SlotArray.Contents.ops]
    simp only [bind_eq hunmapped]
    generalize SlotArray.bind _ _ _ _ _ _ = values at hbind ⊢
    generalize c.bind _ _ _ = contents at hbind ⊢
    cases hbind with
    | none => exact .none
    | some h => exact .some ⟨h, hunmapped.update _ index⟩
  moveConstruct s c h :=
    ⟨⟨h.1, unmapped_of_indexes_nil _⟩, SlotArray.represents_nil, h.2⟩
  moveAssign s c source source' h hsource :=
    ⟨⟨hsource.1, h.2⟩, SlotArray.represents_nil, hsource.2⟩
  moveSelf s c h := ⟨SlotArray.represents_nil, h.2⟩
  reset s c h := ⟨SlotArray.represents_nil, h.2⟩

lemma unmapped_of_reached {s : Store} (h : Stores.Reached ops s) : s.Unmapped := by
  obtain ⟨c, hc⟩ := refines.exists_of_reached h
  exact hc.2

/-- The slot of a value that was bound. -/
lemma exists_bind {s : Store} (hs : Stores.Reached ops s) {value : BoundValue} {b : Bind}
    (h : Bind.encode value = .slot b) (i : Nat) :
    ∃ s', s.bind (i + 1) value = some s' ∧ s'.value_[i]? = some b := by
  obtain ⟨values, hvalues, hb⟩ :=
    @SlotArray.getElem?_bind Bind BoundValue .cleared Bindable.preallocIncrement _ _ _ h s.value_ i
  have hbind := bind_eq (unmapped_of_reached hs) (i + 1) value
  rw [hvalues, Option.map_some] at hbind
  exact ⟨_, hbind, hb⟩

/-- A value without a defined encoding cannot be bound. -/
lemma bind_of_undefined {s : Store} (hs : Stores.Reached ops s) {value : BoundValue}
    (h : Bind.encode value = .undefined) (i : Nat) : s.bind (i + 1) value = none := by
  rw [bind_eq (unmapped_of_reached hs), SlotArray.bind, if_neg (Nat.succ_ne_zero i), h]
  rfl

end Store

end CodaDb.Mysql
