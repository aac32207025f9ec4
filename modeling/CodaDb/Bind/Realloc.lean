import CodaDb.Bind.Alloc
import CodaDb.Mysql.Store
import CodaDb.Postgres.Store

/-!
# `reallocate_value`

The arrays of the bindings grow to an index and some slots more, all modulo 2^64. The size wraps
unnoticed where the index is near 2^64 and the arrays are small, and so does the number of bytes of
an array that is reallocated.
-/

universe u

namespace CodaDb

open Memory

/-- `true` comes with a size that covers the index and with arrays of that size; otherwise the
object is as it was. -/
def Effect.Sound {S : Type u} (size_ : S → UInt64) (Covered : S → Prop) (s : S) (index : UInt64) :
    Effect S Bool → Prop
  | .returned true s' => index ≤ size_ s' ∧ Covered s'
  | .returned false s' => s' = s
  | .threw s' => s' = s
  | .undefined => False

/-- The increment as a `size_t`. -/
def preallocIncrement : UInt64 := .ofNat Bindable.preallocIncrement

/-- The new size is not the index itself, so that it is greater or has wrapped. -/
lemma le_add_preallocIncrement {index : UInt64} :
    index ≤ index + preallocIncrement ↔ index < index + preallocIncrement := by
  have hincrement : preallocIncrement.toNat = 5 := rfl
  have hlt := UInt64.toNat_lt index
  rw [UInt64.le_iff_toNat_le, UInt64.lt_iff_toNat_lt, UInt64.toNat_add, hincrement]
  omega

lemma toNat_add_preallocIncrement {index : UInt64}
    (h : index.toNat + Bindable.preallocIncrement < 2 ^ 64) :
    (index + preallocIncrement).toNat = index.toNat + Bindable.preallocIncrement := by
  have hincrement : preallocIncrement.toNat = Bindable.preallocIncrement := rfl
  rw [UInt64.toNat_add, hincrement, Nat.mod_eq_of_lt h]

/-- Where the sum does not wrap the arrays grow. -/
lemma lt_add_preallocIncrement {index : UInt64}
    (h : index.toNat + Bindable.preallocIncrement < 2 ^ 64) :
    index < index + preallocIncrement := by
  rw [UInt64.lt_iff_toNat_lt, toNat_add_preallocIncrement h]
  exact Nat.lt_add_of_pos_right (by decide)

lemma pred_lt_of_le {index size : UInt64} (hindex : index ≠ 0) (h : index ≤ size) :
    (index - 1).toNat + 1 = index.toNat ∧ ¬index - 1 ≥ size := by
  have hone : (1 : UInt64).toNat = 1 := rfl
  have hne : index.toNat ≠ 0 := fun hzero => hindex (UInt64.toNat_inj.mp hzero)
  have hpos : 1 ≤ index := by
    rw [UInt64.le_iff_toNat_le, hone]
    omega
  rw [ge_iff_le, UInt64.le_iff_toNat_le, UInt64.toNat_sub_of_le _ _ hpos, hone]
  rw [UInt64.le_iff_toNat_le] at h
  omega

/-- `reallocate_value` of both bindings, with what clears a slot and what enlarges the arrays. -/
def reallocate {S : Type u} (size_ : S → UInt64) (clearValue : UInt64 → Effect S Unit)
    (grow : UInt64 → Effect S Bool) (s : S) (index : UInt64) : Effect S Bool :=
  if index = 0 then .returned false s
  else if index ≤ size_ s then
    (clearValue (index - 1)).andThen fun s => .returned true s
  else
    let index := index + preallocIncrement
    if index < size_ s then .threw s
    else grow index

section reallocate

variable {S : Type u} {size_ : S → UInt64} {clearValue : UInt64 → Effect S Unit}
  {grow : UInt64 → Effect S Bool} {s : S} {index : UInt64}

lemma reallocate_of_le (hindex : index ≠ 0) (hle : index ≤ size_ s) :
    reallocate size_ clearValue grow s index =
      (clearValue (index - 1)).andThen fun s => .returned true s := by
  rw [reallocate, if_neg hindex, if_pos hle]

lemma reallocate_of_lt (hlt : size_ s < index) (hwrap : ¬index + preallocIncrement < size_ s) :
    reallocate size_ clearValue grow s index = grow (index + preallocIncrement) := by
  rw [reallocate, if_neg (ne_zero_of_lt hlt), if_neg (UInt64.not_le.mpr hlt)]
  exact if_neg hwrap

/-- A call is sound if what it does to the slots is, or if it does nothing. -/
lemma reallocate_sound {Covered : S → Prop} {Clears Grows : Prop}
    (hclear : index ≠ 0 → index ≤ size_ s →
      (((clearValue (index - 1)).andThen fun s => .returned true s).Sound size_ Covered s index ↔
        Clears))
    (hgrow : size_ s < index →
      ((grow (index + preallocIncrement)).Sound size_ Covered s index ↔ Grows)) :
    (reallocate size_ clearValue grow s index).Sound size_ Covered s index ↔
      index = 0 ∨
        if index ≤ size_ s then Clears else index + preallocIncrement < size_ s ∨ Grows := by
  by_cases hindex : index = 0
  · rw [reallocate, if_pos hindex]
    exact iff_of_true rfl (.inl hindex)
  rw [or_iff_right hindex]
  by_cases hle : index ≤ size_ s
  · rw [reallocate_of_le hindex hle, if_pos hle]
    exact hclear hindex hle
  have hlt := UInt64.not_le.mp hle
  rw [if_neg hle]
  by_cases hwrap : index + preallocIncrement < size_ s
  · rw [reallocate, if_neg hindex, if_neg hle]
    simp only [hwrap, if_true, true_or, iff_true]
    rfl
  · rw [reallocate_of_lt hlt hwrap, or_iff_right hwrap]
    exact hgrow hlt

end reallocate

namespace Mysql

/-- The members of a `mysql::binding` that hold its array. -/
structure Arrays where
  value_ : Option (Block Bind)
  size_ : UInt64

namespace Arrays

/-- `clear_value(i)` -/
def clearValue (size : ElementSize) (s : Arrays) (i : UInt64) : Effect Arrays Unit :=
  if i ≥ s.size_ then .threw s
  else
    match overwrite size s.value_ i.toNat .cleared with
    | none => .undefined
    | some p => .returned () { s with value_ := p }

/-- The dynamic array of parameter values, as `reallocate_value` allocates it. -/
def allocate (size : ElementSize) (granted : Bool) (s : Arrays) (index : UInt64) : Allocated Bind :=
  match s.value_ with
  | none => cAlloc granted .cleared size index
  | some value => cAllocValue granted .cleared size (some value) index s.size_

/-- The array and its new size. -/
def grow (size : ElementSize) (granted : Bool) (s : Arrays) (index : UInt64) :
    Effect Arrays Bool :=
  ((s.allocate size granted index).assign s fun p => { s with value_ := p }).andThen fun s =>
    .returned true { s with size_ := index }

/-- `reallocate_value`, where an element has the given size and the allocator grants the request or
refuses it. -/
def reallocateValue (size : ElementSize) (granted : Bool) (s : Arrays) (index : UInt64) :
    Effect Arrays Bool :=
  reallocate Arrays.size_ (s.clearValue size) (s.grow size granted) s index

/-- The array is allocated for its size. -/
def Covered (size : ElementSize) (s : Arrays) : Prop := Room size s.value_ s.size_

/-- The new size is greater than the index and the array can be that large, or nothing is done. -/
def Grows (size : ElementSize) (granted : Bool) (s : Arrays) (index : UInt64) : Prop :=
  let num := index + preallocIncrement
  let bytes := size.bytes.toNat * num.toNat
  (index < num ∧ (s.value_ = none ∨ bytes < 2 ^ 64)) ∨
    num ≠ 0 ∧ (granted = false ∨ s.value_ = none ∧ 2 ^ 64 ≤ bytes)

/-- A slot that there is can be cleared, and another one can be added, unless it is seen that the
new size wrapped. -/
def Reallocates (size : ElementSize) (granted : Bool) (s : Arrays) (index : UInt64) : Prop :=
  index = 0 ∨
    if index ≤ s.size_ then
      s.Covered size ∧ (s.value_.bind (·.read size (index - 1).toNat)).isSome
    else index + preallocIncrement < s.size_ ∨ s.Grows size granted index

lemma clearValue_sound {size : ElementSize} {s : Arrays} {index : UInt64} (hindex : index ≠ 0)
    (h : index ≤ s.size_) :
    ((s.clearValue size (index - 1)).andThen fun s => .returned true s).Sound Arrays.size_
      (Covered size) s index ↔
        s.Covered size ∧ (s.value_.bind (·.read size (index - 1).toNat)).isSome := by
  rw [clearValue, if_neg (pred_lt_of_le hindex h).2,
    ← @overwrite_isSome _ size s.value_ (index - 1).toNat Bind.cleared]
  cases hwrite : overwrite size s.value_ (index - 1).toNat Bind.cleared with
  | none => simp [Effect.andThen, Effect.Sound]
  | some p => simp [Effect.andThen, Effect.Sound, h, Covered, room_overwrite hwrite]

/-- The size and the array after the allocation. -/
lemma assign_sound {size : ElementSize} {s : Arrays} {index num : UInt64} (o : Allocated Bind) :
    ((o.assign s fun p => { s with value_ := p }).andThen fun s =>
      .returned true { s with size_ := num }).Sound Arrays.size_ (Covered size) s index ↔
        o = .badAlloc ∨ ∃ p, o = .pointer p ∧ index ≤ num ∧ Room size p num := by
  cases o with
  | pointer p => simp [Allocated.assign, Effect.andThen, Effect.Sound, Covered]
  | badAlloc => simp [Allocated.assign, Effect.andThen, Effect.Sound]
  | undefined => simp [Allocated.assign, Effect.andThen, Effect.Sound]

/-- The size of a first array in bytes is checked, the size of one that is reallocated is not. -/
lemma allocate_sound {size : ElementSize} {granted : Bool} {s : Arrays} {index num : UInt64}
    (hindex : s.size_ < index) :
    (s.allocate size granted num = .badAlloc ∨
      ∃ p, s.allocate size granted num = .pointer p ∧ index ≤ num ∧ Room size p num) ↔
        (index ≤ num ∧ (s.value_ = none ∨ size.bytes.toNat * num.toNat < 2 ^ 64)) ∨
          num ≠ 0 ∧ (granted = false ∨
            s.value_ = none ∧ 2 ^ 64 ≤ size.bytes.toNat * num.toNat) := by
  rw [allocate]
  cases hvalue : s.value_ with
  | none =>
    have hrefused := @cAlloc_eq_badAlloc_iff _ granted Bind.cleared size num
    simp only [true_and, true_or, and_true, ← hrefused]
    by_cases halloc : cAlloc granted Bind.cleared size num = .badAlloc
    · exact iff_of_true (.inl halloc) (.inr halloc)
    · obtain ⟨p, hp, hroom⟩ := exists_room_cAlloc halloc
      simp [hp, hroom]
  | some value =>
    simp only [reduceCtorEq, false_or, false_and, or_false, cAllocValue_eq_badAlloc_iff]
    by_cases hle : index ≤ num
    · have hold := UInt64.lt_of_lt_of_le hindex hle
      have hroom := @exists_room_cAllocValue_iff _ granted Bind.cleared size (some value) _ _ hold
      simp only [hle, true_and, hroom]
      cases granted with
      | false => simp [ne_zero_of_lt hold]
      | true => simp
    · simp [hle]

/-- A call is sound if and only if it reallocates. -/
theorem reallocateValue_sound {size : ElementSize} {granted : Bool} {s : Arrays} {index : UInt64} :
    (s.reallocateValue size granted index).Sound Arrays.size_ (Covered size) s index ↔
      s.Reallocates size granted index := by
  refine reallocate_sound clearValue_sound fun hlt => ?_
  rw [grow, assign_sound, allocate_sound hlt, le_add_preallocIncrement, Grows]

/-- The slots of a store, in memory. -/
structure Holds (size : ElementSize) (s : Arrays) (values : List Bind) : Prop where
  length : values.length = s.size_.toNat
  elements : Elements size s.value_ values

lemma Holds.allocate {size : ElementSize} {s : Arrays} {values : List Bind}
    (h : s.Holds size values) {num : UInt64} (hold : s.size_ < num)
    (hbytes : size.bytes.toNat * num.toNat < 2 ^ 64) :
    ∃ p, s.allocate size true num = .pointer p ∧
      Elements size p (values ++ List.replicate (num.toNat - values.length) .cleared) := by
  have helements := h.elements
  rw [Arrays.allocate]
  cases hvalue : s.value_ with
  | none =>
    rw [hvalue] at helements
    rw [helements.eq_nil]
    exact elements_cAlloc (ne_zero_of_lt hold) hbytes
  | some value =>
    rw [hvalue] at helements
    rw [h.length]
    exact elements_cAllocValue helements h.length hold hbytes

/-- An array that the allocator grants is the one of the store. -/
theorem reallocateValue_holds {size : ElementSize} {s : Arrays} {values : List Bind}
    (h : s.Holds size values) {index : UInt64} (hindex : index ≠ 0)
    (hnum : index.toNat + Bindable.preallocIncrement < 2 ^ 64)
    (hbytes : size.bytes.toNat * (index.toNat + Bindable.preallocIncrement) < 2 ^ 64) :
    ∃ s' values', s.reallocateValue size true index = .returned true s' ∧
      Store.reallocateValue values index.toNat = some values' ∧ s'.Holds size values' := by
  have hzero : index.toNat ≠ 0 := fun hzero => hindex (UInt64.toNat_inj.mp hzero)
  rw [reallocateValue, Store.reallocateValue, if_neg hzero, h.length]
  by_cases hle : index ≤ s.size_
  · obtain ⟨hpred, hi⟩ := pred_lt_of_le hindex hle
    rw [reallocate_of_le hindex hle, if_pos (UInt64.le_iff_toNat_le.mp hle), clearValue, if_neg hi,
      ← hpred, Nat.add_sub_cancel]
    rw [ge_iff_le, UInt64.not_le, UInt64.lt_iff_toNat_lt, ← h.length] at hi
    obtain ⟨p, hp⟩ := Option.isSome_iff_exists.mp (h.elements.overwrite_isSome hi)
    rw [hp]
    exact ⟨_, _, rfl, rfl, List.length_set.trans h.length, h.elements.overwrite hp⟩
  · have hlt := UInt64.not_le.mp hle
    have hold := UInt64.lt_trans hlt (lt_add_preallocIncrement hnum)
    have hsum := toNat_add_preallocIncrement hnum
    rw [← hsum] at hbytes
    obtain ⟨p, hp, helements⟩ := h.allocate hold hbytes
    rw [reallocate_of_lt hlt (UInt64.lt_asymm hold), grow, hp,
      if_neg (by rwa [← UInt64.le_iff_toNat_le]), ← hsum, ← h.length]
    refine ⟨_, _, rfl, rfl, ?_, helements⟩
    rw [UInt64.lt_iff_toNat_lt, ← h.length] at hold
    rw [List.length_append, List.length_replicate]
    exact Nat.add_sub_cancel' (Nat.le_of_lt hold)

end Arrays

end Mysql

namespace Postgres

/-- `sizeof(char *)` -/
def sizeofPointer : ElementSize := ⟨8, rfl⟩

/-- `sizeof(int)` and `sizeof(Oid)` -/
def sizeofInt : ElementSize := ⟨4, rfl⟩

/-- Which of the four requests the allocator grants. -/
structure Granted where
  values : Bool
  types : Bool
  lengths : Bool
  formats : Bool

/-- The members of a `postgres::binding` that hold its arrays. -/
structure Arrays where
  values_ : Option (Block (Option (List UInt8)))
  types_ : Option (Block Oid)
  lengths_ : Option (Block Int)
  formats_ : Option (Block Int)
  size_ : UInt64

namespace Arrays

/-- `clear_value(i)` -/
def clearValue (s : Arrays) (i : UInt64) : Effect Arrays Unit :=
  if i ≥ s.size_ then .threw s
  else
    match overwrite sizeofPointer s.values_ i.toNat none,
      store sizeofInt s.types_ i.toNat .invalid, store sizeofInt s.lengths_ i.toNat 0,
      store sizeofInt s.formats_ i.toNat 0 with
    | some values, some types, some lengths, some formats =>
      .returned () {
        values_ := values
        types_ := types
        lengths_ := lengths
        formats_ := formats
        size_ := s.size_ }
    | _, _, _, _ => .undefined

/-- The three arrays that `reallocate_value` reallocates after the values, and the new size. -/
def growRest (granted : Granted) (s : Arrays) (index : UInt64) : Effect Arrays Bool :=
  ((cAllocValue granted.types .invalid sizeofInt s.types_ index s.size_).assign s fun p =>
    { s with types_ := p }).andThen fun s =>
  ((cAllocValue granted.lengths 0 sizeofInt s.lengths_ index s.size_).assign s fun p =>
    { s with lengths_ := p }).andThen fun s =>
  ((cAllocValue granted.formats 0 sizeofInt s.formats_ index s.size_).assign s fun p =>
    { s with formats_ := p }).andThen fun s =>
  .returned true { s with size_ := index }

/-- The four arrays and their new size. -/
def grow (granted : Granted) (s : Arrays) (index : UInt64) : Effect Arrays Bool :=
  ((cAllocValue granted.values none sizeofPointer s.values_ index s.size_).assign s fun p =>
    { s with values_ := p }).andThen fun s => s.growRest granted index

/-- `reallocate_value` -/
def reallocateValue (granted : Granted) (s : Arrays) (index : UInt64) : Effect Arrays Bool :=
  reallocate Arrays.size_ s.clearValue (s.grow granted) s index

/-- The four arrays are allocated for their size. -/
structure Covered (s : Arrays) : Prop where
  values : Room sizeofPointer s.values_ s.size_
  types : Room sizeofInt s.types_ s.size_
  lengths : Room sizeofInt s.lengths_ s.size_
  formats : Room sizeofInt s.formats_ s.size_

/-- The new size is greater than the index and all four arrays are made that large, or nothing is
done. -/
def Grows (granted : Granted) (index : UInt64) : Prop :=
  let num := index + preallocIncrement
  (index < num ∧ sizeofPointer.bytes.toNat * num.toNat < 2 ^ 64 ∧
    granted.values = true ∧ granted.types = true ∧ granted.lengths = true ∧
      granted.formats = true) ∨
    num ≠ 0 ∧ granted.values = false

/-- A slot that there is can be cleared, and another one can be added, unless it is seen that the
new size wrapped. -/
def Reallocates (granted : Granted) (s : Arrays) (index : UInt64) : Prop :=
  index = 0 ∨
    if index ≤ s.size_ then
      s.Covered ∧ (s.values_.bind (·.read sizeofPointer (index - 1).toNat)).isSome
    else index + preallocIncrement < s.size_ ∨ Grows granted index

/-- A slot of an array of integers is in the array. -/
lemma store_int_isSome {σ : Type} {p : Option (Block σ)} {i size : UInt64} {a : σ}
    (hi : ¬i ≥ size) (h : Room sizeofInt p size) : (store sizeofInt p i.toNat a).isSome := by
  rw [ge_iff_le, UInt64.not_le, UInt64.lt_iff_toNat_lt] at hi
  exact store_isSome (by decide) (Nat.le_trans (Nat.mul_le_mul_right _ hi) h)

lemma clearValue_sound {s : Arrays} {index : UInt64} (hindex : index ≠ 0) (h : index ≤ s.size_) :
    ((s.clearValue (index - 1)).andThen fun s => .returned true s).Sound Arrays.size_ Covered s
      index ↔ s.Covered ∧ (s.values_.bind (·.read sizeofPointer (index - 1).toNat)).isSome := by
  obtain ⟨-, hi⟩ := pred_lt_of_le hindex h
  rw [clearValue, if_neg hi,
    ← @overwrite_isSome _ sizeofPointer s.values_ (index - 1).toNat none]
  constructor
  · intro hsound
    split at hsound
    · next values types lengths formats hvalues htypes hlengths hformats =>
      obtain ⟨-, hcovered⟩ := hsound
      refine ⟨⟨?_, ?_, ?_, ?_⟩, by rw [hvalues]; rfl⟩
      · exact (room_overwrite hvalues).mp hcovered.values
      · exact (room_store htypes).mp hcovered.types
      · exact (room_store hlengths).mp hcovered.lengths
      · exact (room_store hformats).mp hcovered.formats
    · exact hsound.elim
  · rintro ⟨hcovered, hread⟩
    obtain ⟨values, hvalues⟩ := Option.isSome_iff_exists.mp hread
    obtain ⟨types, htypes⟩ := Option.isSome_iff_exists.mp
      (@store_int_isSome _ _ _ _ Oid.invalid hi hcovered.types)
    obtain ⟨lengths, hlengths⟩ := Option.isSome_iff_exists.mp
      (@store_int_isSome _ _ _ _ (0 : Int) hi hcovered.lengths)
    obtain ⟨formats, hformats⟩ := Option.isSome_iff_exists.mp
      (@store_int_isSome _ _ _ _ (0 : Int) hi hcovered.formats)
    rw [hvalues, htypes, hlengths, hformats]
    refine ⟨h, ?_, ?_, ?_, ?_⟩
    · exact (room_overwrite hvalues).mpr hcovered.values
    · exact (room_store htypes).mpr hcovered.types
    · exact (room_store hlengths).mpr hcovered.lengths
    · exact (room_store hformats).mpr hcovered.formats

/-- An array that is not granted after the values leaves the object changed. -/
lemma growRest_sound {granted : Granted} {s s' : Arrays} {index num : UInt64}
    (hvalues : s'.values_ ≠ s.values_) :
    (s'.growRest granted num).Sound Arrays.size_ Covered s index ↔
      index ≤ num ∧ Room sizeofPointer s'.values_ num ∧
        (∃ p, cAllocValue granted.types .invalid sizeofInt s'.types_ num s'.size_ = .pointer p ∧
          Room sizeofInt p num) ∧
        (∃ p, cAllocValue granted.lengths 0 sizeofInt s'.lengths_ num s'.size_ = .pointer p ∧
          Room sizeofInt p num) ∧
        ∃ p, cAllocValue granted.formats 0 sizeofInt s'.formats_ num s'.size_ = .pointer p ∧
          Room sizeofInt p num := by
  have hchanged : ∀ t : Arrays, t.values_ = s'.values_ → t ≠ s := by
    rintro t ht rfl
    exact hvalues ht.symm
  rw [growRest]
  cases cAllocValue granted.types Oid.invalid sizeofInt s'.types_ num s'.size_ with
  | undefined => simp [Allocated.assign, Effect.andThen, Effect.Sound]
  | badAlloc => simp [Allocated.assign, Effect.andThen, Effect.Sound, hchanged]
  | pointer types =>
    simp only [Allocated.assign, Effect.andThen]
    cases cAllocValue granted.lengths 0 sizeofInt s'.lengths_ num s'.size_ with
    | undefined => simp [Effect.Sound]
    | badAlloc => simp [Effect.Sound, hchanged]
    | pointer lengths =>
      simp only
      cases cAllocValue granted.formats 0 sizeofInt s'.formats_ num s'.size_ with
      | undefined => simp [Effect.Sound]
      | badAlloc => simp [Effect.Sound, hchanged]
      | pointer formats =>
        simp only [Effect.Sound, Allocated.pointer.injEq, exists_eq_left']
        refine and_congr_right' ⟨?_, ?_⟩
        · intro h
          exact ⟨h.values, h.types, h.lengths, h.formats⟩
        · rintro ⟨hvalues, htypes, hlengths, hformats⟩
          exact ⟨hvalues, htypes, hlengths, hformats⟩

/-- Once the first request is granted, the arrays must all be. -/
lemma grow_granted {granted : Granted} {s : Arrays} {index num : UInt64} (hnum : num ≠ 0)
    (hgranted : granted.values = true) :
    (s.grow granted num).Sound Arrays.size_ Covered s index ↔
      index ≤ num ∧
        (∃ p, cAllocValue true none sizeofPointer s.values_ num s.size_ = .pointer p ∧
          Room sizeofPointer p num) ∧
        (∃ p, cAllocValue granted.types .invalid sizeofInt s.types_ num s.size_ = .pointer p ∧
          Room sizeofInt p num) ∧
        (∃ p, cAllocValue granted.lengths 0 sizeofInt s.lengths_ num s.size_ = .pointer p ∧
          Room sizeofInt p num) ∧
        ∃ p, cAllocValue granted.formats 0 sizeofInt s.formats_ num s.size_ = .pointer p ∧
          Room sizeofInt p num := by
  rw [grow, hgranted]
  cases hvalues : cAllocValue true none sizeofPointer s.values_ num s.size_ with
  | badAlloc => cases (cAllocValue_eq_badAlloc_iff.mp hvalues).2
  | undefined => simp [Allocated.assign, Effect.andThen, Effect.Sound]
  | pointer p =>
    simp only [Allocated.assign, Effect.andThen, Allocated.pointer.injEq, exists_eq_left']
    rw [growRest_sound (cAllocValue_ne hnum hvalues)]

/-- The growth, where the new size did not wrap below the old one. -/
lemma grow_sound {granted : Granted} {s : Arrays} {index num : UInt64} (hindex : s.size_ < index) :
    (s.grow granted num).Sound Arrays.size_ Covered s index ↔
      (index ≤ num ∧ sizeofPointer.bytes.toNat * num.toNat < 2 ^ 64 ∧
        granted.values = true ∧ granted.types = true ∧ granted.lengths = true ∧
          granted.formats = true) ∨ num ≠ 0 ∧ granted.values = false := by
  by_cases hnum : num = 0
  · -- no array is reallocated, and the size is 0
    have hle : ¬index ≤ 0 := by
      rw [UInt64.not_le]
      exact UInt64.pos_iff_ne_zero.mpr (ne_zero_of_lt hindex)
    simp [hnum, grow, growRest, cAllocValue_zero, Allocated.assign, Effect.andThen, Effect.Sound,
      hle]
  cases hgranted : granted.values with
  | false =>
    rw [grow, hgranted, cAllocValue_eq_badAlloc_iff.mpr ⟨hnum, rfl⟩]
    exact iff_of_true rfl (.inr ⟨hnum, rfl⟩)
  | true =>
    simp only [true_and, reduceCtorEq, and_false, or_false]
    rw [grow_granted hnum hgranted]
    refine and_congr_right fun hle => ?_
    have hold := UInt64.lt_of_lt_of_le hindex hle
    simp only [exists_room_cAllocValue_iff hold, true_and]
    constructor
    · rintro ⟨hbytes, ⟨htypes, -⟩, ⟨hlengths, -⟩, hformats, -⟩
      exact ⟨hbytes, htypes, hlengths, hformats⟩
    · rintro ⟨hbytes, htypes, hlengths, hformats⟩
      have hint : sizeofInt.bytes.toNat * num.toNat < 2 ^ 64 :=
        Nat.lt_of_le_of_lt (Nat.mul_le_mul_right num.toNat (by decide)) hbytes
      exact ⟨hbytes, ⟨htypes, hint⟩, ⟨hlengths, hint⟩, hformats, hint⟩

/-- A call is sound if and only if it reallocates. -/
theorem reallocateValue_sound {granted : Granted} {s : Arrays} {index : UInt64} :
    (s.reallocateValue granted index).Sound Arrays.size_ Covered s index ↔
      s.Reallocates granted index := by
  refine reallocate_sound clearValue_sound fun hlt => ?_
  rw [grow_sound hlt, le_add_preallocIncrement, Grows]

/-- The slots of a store, in memory. -/
structure Holds (s : Arrays) (t : Store) : Prop where
  size : t.size_ = s.size_.toNat
  values : Elements sizeofPointer s.values_ t.values_
  types : Elements sizeofInt s.types_ t.types_
  lengths : Elements sizeofInt s.lengths_ t.lengths_
  formats : Elements sizeofInt s.formats_ t.formats_

lemma Holds.clearValue {s : Arrays} {t : Store} (h : s.Holds t) {i : UInt64} (hi : i < s.size_) :
    ∃ s', s.clearValue i = .returned () s' ∧ s'.Holds (t.write i.toNat .cleared) := by
  have hlt : i.toNat < t.size_ := by
    rw [h.size]
    exact UInt64.lt_iff_toNat_lt.mp hi
  obtain ⟨values, hvalues⟩ := Option.isSome_iff_exists.mp
    (@Elements.overwrite_isSome _ _ _ _ none _ h.values (by rwa [t.values_length]))
  obtain ⟨types, htypes⟩ := Option.isSome_iff_exists.mp
    (@Elements.store_isSome _ _ _ _ Oid.invalid _ h.types (by rwa [t.types_length]))
  obtain ⟨lengths, hlengths⟩ := Option.isSome_iff_exists.mp
    (@Elements.store_isSome _ _ _ _ (0 : Int) _ h.lengths (by rwa [t.lengths_length]))
  obtain ⟨formats, hformats⟩ := Option.isSome_iff_exists.mp
    (@Elements.store_isSome _ _ _ _ (0 : Int) _ h.formats (by rwa [t.formats_length]))
  rw [Arrays.clearValue, if_neg (UInt64.not_le.mpr hi), hvalues, htypes, hlengths, hformats]
  exact ⟨_, rfl, h.size, h.values.overwrite hvalues, h.types.store htypes,
    h.lengths.store hlengths, h.formats.store hformats⟩

lemma Holds.grow {s : Arrays} {t : Store} (h : s.Holds t) {num : UInt64} {size : Nat}
    (hsize : num.toNat = size) (hold : s.size_ < num) (hle : t.size_ ≤ size)
    (hbytes : sizeofPointer.bytes.toNat * num.toNat < 2 ^ 64) :
    ∃ s', s.grow ⟨true, true, true, true⟩ num = .returned true s' ∧
      s'.Holds (t.grow size hle) := by
  subst hsize
  have hint : sizeofInt.bytes.toNat * num.toNat < 2 ^ 64 :=
    Nat.lt_of_le_of_lt (Nat.mul_le_mul_right _ (by decide)) hbytes
  obtain ⟨values, hvalues, evalues⟩ := @elements_cAllocValue _ none _ _ _ _ _ h.values
    (t.values_length.trans h.size) hold hbytes
  obtain ⟨types, htypes, etypes⟩ := @elements_cAllocValue _ Oid.invalid _ _ _ _ _ h.types
    (t.types_length.trans h.size) hold hint
  obtain ⟨lengths, hlengths, elengths⟩ := @elements_cAllocValue _ (0 : Int) _ _ _ _ _ h.lengths
    (t.lengths_length.trans h.size) hold hint
  obtain ⟨formats, hformats, eformats⟩ := @elements_cAllocValue _ (0 : Int) _ _ _ _ _ h.formats
    (t.formats_length.trans h.size) hold hint
  rw [← h.size] at evalues etypes elengths eformats
  simp only [Arrays.grow, hvalues, Allocated.assign, Effect.andThen, growRest, htypes, hlengths,
    hformats]
  exact ⟨_, rfl, rfl, evalues, etypes, elengths, eformats⟩

/-- Arrays that the allocator grants are those of the store. -/
theorem reallocateValue_holds {s : Arrays} {t : Store} (h : s.Holds t) {index : UInt64}
    (hindex : index ≠ 0) (hnum : index.toNat + Bindable.preallocIncrement < 2 ^ 64)
    (hbytes : sizeofPointer.bytes.toNat * (index.toNat + Bindable.preallocIncrement) < 2 ^ 64) :
    ∃ s' t', s.reallocateValue ⟨true, true, true, true⟩ index = .returned true s' ∧
      t.reallocateValue index.toNat = some t' ∧ s'.Holds t' := by
  have hzero : index.toNat ≠ 0 := fun hzero => hindex (UInt64.toNat_inj.mp hzero)
  rw [reallocateValue, Store.reallocateValue, if_neg hzero]
  by_cases hle : index ≤ s.size_
  · obtain ⟨hpred, hi⟩ := pred_lt_of_le hindex hle
    obtain ⟨s', hclear, hholds⟩ := h.clearValue (UInt64.not_le.mp hi)
    rw [reallocate_of_le hindex hle, dif_pos (by rwa [h.size, ← UInt64.le_iff_toNat_le]), hclear,
      ← hpred, Nat.add_sub_cancel]
    exact ⟨_, _, rfl, rfl, hholds⟩
  · have hlt := UInt64.not_le.mp hle
    have hold := UInt64.lt_trans hlt (lt_add_preallocIncrement hnum)
    have hsum := toNat_add_preallocIncrement hnum
    have hgrown : ¬index.toNat ≤ t.size_ := by rwa [h.size, ← UInt64.le_iff_toNat_le]
    obtain ⟨s', hgrow, hholds⟩ := h.grow hsum hold (by omega) (by rwa [hsum])
    rw [reallocate_of_lt hlt (UInt64.lt_asymm hold), dif_neg hgrown]
    exact ⟨s', _, hgrow, rfl, hholds⟩

end Arrays

end Postgres

/-- Both bindings do what is asked of them if and only if neither the size nor the number of bytes
wraps unnoticed, the slots that there are have memory, and PostgreSQL is granted all of its requests
or not the first one. -/
theorem reallocateValue_sound_iff (size : ElementSize) (allocates : Bool) (s : Mysql.Arrays)
    (granted : Postgres.Granted) (t : Postgres.Arrays) (index : UInt64) :
    ((s.reallocateValue size allocates index).Sound Mysql.Arrays.size_ (Mysql.Arrays.Covered size) s
      index ↔ s.Reallocates size allocates index) ∧
    ((t.reallocateValue granted index).Sound Postgres.Arrays.size_ Postgres.Arrays.Covered t
      index ↔ t.Reallocates granted index) :=
  ⟨Mysql.Arrays.reallocateValue_sound, Postgres.Arrays.reallocateValue_sound⟩

/-- After a reset the greatest index makes the size 4. -/
theorem not_reallocateValue_sound :
    ¬((∀ size granted (s : Mysql.Arrays) index, s.Covered size →
      (s.reallocateValue size granted index).Sound Mysql.Arrays.size_ (Mysql.Arrays.Covered size) s
        index) ∧
    ∀ granted (s : Postgres.Arrays) index, s.Covered →
      (s.reallocateValue granted index).Sound Postgres.Arrays.size_ Postgres.Arrays.Covered s
        index) := by
  rintro ⟨h, -⟩
  have hsound := h ⟨112, rfl⟩ true ⟨none, 0⟩ 18446744073709551615 (Nat.zero_le _)
  exact absurd hsound.1 (by decide)

end CodaDb
