import CodaDb.Lib.Machine
import Mathlib.Data.List.GetD
import Mathlib.Logic.Function.Basic

/-!
# Arrays of slots that grow

A store keeps the encodings of values in an array of slots, which are numbered from 1. Before a
value is stored its slot is cleared, or the array grows beyond it. Such a store holds a finite map
from indexes to values, through any history of calls on any number of stores.
-/

universe u v w x

/-- What an encoder makes of a value: a slot, an exception, or nothing that is defined. -/
inductive Encoded (σ : Type u) where
  | slot (a : σ)
  | exception
  | undefined

namespace SlotArray

variable {σ : Type u} {ν : Type v}

lemma getD_set (l : List σ) (i : Nat) (a : σ) (j : Nat) (d : σ) :
    (l.set i a).getD j d = if j = i ∧ i < l.length then a else l.getD j d := by
  rw [List.getD_eq_getElem?_getD, List.getD_eq_getElem?_getD, List.getElem?_set]
  by_cases hj : i = j
  · subst hj
    by_cases hi : i < l.length
    · rw [if_pos rfl, if_pos hi, if_pos ⟨rfl, hi⟩, Option.getD_some]
    · have hnone := List.getElem?_eq_none (Nat.le_of_not_lt hi)
      rw [if_pos rfl, if_neg hi, if_neg fun h => hi h.2, hnone]
  · rw [if_neg hj, if_neg fun h => hj h.1.symm]

lemma getD_append_replicate (l : List σ) (n j : Nat) (d : σ) :
    (l ++ List.replicate n d).getD j d = l.getD j d := by
  rcases Nat.lt_or_ge j l.length with hj | hj
  · exact List.getD_append _ _ _ _ hj
  · rw [List.getD_append_right _ _ _ _ hj, List.getD_eq_default _ _ hj,
      List.getD_eq_getElem?_getD, List.getElem?_replicate]
    split <;> rfl

/-- Clear the slot of an index, or grow by some slots more than it needs. -/
def reallocate (zero : σ) (increment : Nat) (slots : List σ) (index : Nat) : List σ :=
  if index ≤ slots.length then slots.set (index - 1) zero
  else slots ++ List.replicate (index + increment - slots.length) zero

/-- Store a value at an index, or leave the slot cleared if the encoder throws. -/
def bind (zero : σ) (increment : Nat) (encode : ν → Encoded σ) (slots : List σ) (index : Nat)
    (value : ν) : Option (List σ) :=
  if index = 0 then some slots
  else
    match encode value with
    | .slot a => some ((reallocate zero increment slots index).set (index - 1) a)
    | .exception => some (reallocate zero increment slots index)
    | .undefined => none

/-- The slot of a value that was bound. -/
lemma getElem?_bind {zero : σ} {increment : Nat} {encode : ν → Encoded σ} {value : ν} {a : σ}
    (h : encode value = .slot a) (slots : List σ) (i : Nat) :
    ∃ slots', bind zero increment encode slots (i + 1) value = some slots' ∧
      slots'[i]? = some a := by
  refine ⟨_, by rw [bind, if_neg (Nat.succ_ne_zero i), h], ?_⟩
  rw [Nat.add_sub_cancel, List.getElem?_set_self]
  rw [reallocate]
  split
  · rw [List.length_set]
    omega
  · rw [List.length_append, List.length_replicate]
    omega

/-- A finite map from indexes to values, with the greatest index that was used. -/
structure Contents (ν : Type v) where
  value : Nat → Option ν := fun _ => none
  top : Nat := 0

/-- Another value, or none, for an index. -/
def Contents.set (c : Contents ν) (index : Nat) (value : Option ν) : Contents ν :=
  ⟨fun i => if i = index then value else c.value i, max c.top index⟩

@[simp] lemma Contents.value_set (c : Contents ν) (index : Nat) (value : Option ν) (i : Nat) :
    (c.set index value).value i = if i = index then value else c.value i := rfl

@[simp] lemma Contents.top_set (c : Contents ν) (index : Nat) (value : Option ν) :
    (c.set index value).top = max c.top index := rfl

/-- A value that throws leaves its index without a value. -/
def Contents.bind (encode : ν → Encoded σ) (c : Contents ν) (index : Nat) (v : ν) :
    Option (Contents ν) :=
  if index = 0 then some c
  else
    match encode v with
    | .slot _ => some (c.set index (some v))
    | .exception => some (c.set index none)
    | .undefined => none

/-- The slot of an index that has this value. -/
def slotOf (zero : σ) (encode : ν → Encoded σ) (value : Option ν) : σ :=
  match value.map encode with
  | some (.slot a) => a
  | _ => zero

/-- The array holds the map: each slot is the encoding of the value of its index, the other slots
are clear, and every index that was used has a slot. -/
structure Represents (zero : σ) (encode : ν → Encoded σ) (slots : List σ) (c : Contents ν) :
    Prop where
  slot : ∀ i, slots.getD i zero = slotOf zero encode (c.value (i + 1))
  capacity : c.top ≤ slots.length
  used : ∀ i v, c.value i = some v → i ≠ 0 ∧ i ≤ c.top ∧ ∃ a, encode v = .slot a

section Represents

variable {zero : σ} {increment : Nat} {encode : ν → Encoded σ} {slots : List σ} {c : Contents ν}

lemma represents_replicate (size : Nat) :
    Represents zero encode (List.replicate size zero) ({} : Contents ν) :=
  ⟨fun i => by simp [slotOf], Nat.zero_le _, nofun⟩

lemma le_length_reallocate (slots : List σ) (index : Nat) :
    index ≤ (reallocate zero increment slots index).length ∧
      slots.length ≤ (reallocate zero increment slots index).length := by
  rw [reallocate]
  split
  · next h => simpa using h
  · next h =>
    rw [List.length_append, List.length_replicate]
    omega

/-- No other slot is touched by clearing or growing. -/
lemma getD_reallocate {index : Nat} (hindex : index ≠ 0) (slots : List σ) (i : Nat) :
    (reallocate zero increment slots index).getD i zero =
      if i + 1 = index then zero else slots.getD i zero := by
  rw [reallocate]
  split
  · next h =>
    rw [getD_set]
    exact if_congr (by omega) rfl rfl
  · next h =>
    rw [getD_append_replicate]
    by_cases hi : i + 1 = index
    · rw [if_pos hi, List.getD_eq_default _ _ (by omega)]
    · rw [if_neg hi]

lemma Represents.reallocate (h : Represents zero encode slots c) {index : Nat}
    (hindex : index ≠ 0) :
    Represents zero encode (reallocate zero increment slots index) (c.set index none) := by
  obtain ⟨hgrown, hkept⟩ := @le_length_reallocate σ zero increment slots index
  refine ⟨fun i => ?_, ?_, fun i v hv => ?_⟩
  · rw [getD_reallocate hindex, Contents.value_set]
    by_cases hi : i + 1 = index
    · rw [if_pos hi, if_pos hi]
      rfl
    · rw [if_neg hi, if_neg hi, h.slot]
  · exact Nat.max_le.mpr ⟨Nat.le_trans h.capacity hkept, hgrown⟩
  · rw [Contents.value_set] at hv
    by_cases hi : i = index
    · rw [if_pos hi] at hv
      cases hv
    · rw [if_neg hi] at hv
      obtain ⟨hzero, htop, hslot⟩ := h.used i v hv
      exact ⟨hzero, Nat.le_trans htop (Nat.le_max_left ..), hslot⟩

/-- Storing a value in the array stores it in the map. -/
theorem Represents.bind (h : Represents zero encode slots c) (index : Nat) (v : ν) :
    Option.Rel (Represents zero encode) (SlotArray.bind zero increment encode slots index v)
      (c.bind encode index v) := by
  rw [SlotArray.bind, Contents.bind]
  by_cases hindex : index = 0
  · rw [if_pos hindex, if_pos hindex]
    exact .some h
  rw [if_neg hindex, if_neg hindex]
  have hclear := @Represents.reallocate σ ν zero increment encode slots c h index hindex
  cases hv : encode v with
  | undefined => exact .none
  | exception => exact .some hclear
  | slot a =>
    obtain ⟨hgrown, -⟩ := @le_length_reallocate σ zero increment slots index
    refine .some ⟨fun i => ?_, ?_, fun i w hw => ?_⟩
    · rw [getD_set, Contents.value_set]
      by_cases hi : i + 1 = index
      · rw [if_pos (by omega), if_pos hi, slotOf, Option.map_some, hv]
      · rw [if_neg (by omega), if_neg hi, hclear.slot, Contents.value_set, if_neg hi]
    · rw [List.length_set]
      exact hclear.capacity
    · rw [Contents.value_set] at hw
      by_cases hi : i = index
      · rw [if_pos hi] at hw
        obtain rfl := Option.some.inj hw
        exact ⟨hi ▸ hindex, hi ▸ Nat.le_max_right .., a, hv⟩
      · rw [if_neg hi] at hw
        exact hclear.used i w (by rwa [Contents.value_set, if_neg hi])

/-- Slots that can be told from clear ones are as many as the indexes that have a value. -/
theorem Represents.countP (h : Represents zero encode slots c) {p : σ → Bool}
    (hzero : p zero = false) (hslot : ∀ v a, encode v = .slot a → p a = true) :
    ∃ indexes : List Nat, indexes.Nodup ∧ (∀ i, i ∈ indexes ↔ (c.value i).isSome = true) ∧
      slots.countP p = indexes.length := by
  have hp : ∀ i, p (slots.getD i zero) = (c.value (i + 1)).isSome := by
    intro i
    rw [h.slot]
    cases hv : c.value (i + 1) with
    | none => exact hzero
    | some v =>
      obtain ⟨-, -, a, ha⟩ := h.used _ v hv
      rw [slotOf, Option.map_some, ha]
      exact hslot v a ha
  have hcount : slots.countP p =
      (List.range slots.length).countP fun i => (c.value (i + 1)).isSome := by
    have hslots : slots = (List.range slots.length).map fun i => slots.getD i zero := by
      refine List.ext_getElem (by simp) fun i hi _ => ?_
      simp [List.getElem?_eq_getElem hi]
    conv_lhs => rw [hslots, List.countP_map]
    exact List.countP_congr fun i _ => by rw [Function.comp_apply, hp]
  refine ⟨((List.range slots.length).filter fun i => (c.value (i + 1)).isSome).map (· + 1),
    List.Pairwise.map _ (fun _ _ hne heq => hne (Nat.succ.inj heq)) (List.nodup_range.filter _),
    fun i => ?_, ?_⟩
  · rw [List.mem_map]
    constructor
    · rintro ⟨j, hj, rfl⟩
      exact (List.mem_filter.mp hj).2
    · intro hi
      obtain ⟨v, hv⟩ := Option.isSome_iff_exists.mp hi
      obtain ⟨hne, htop, -⟩ := h.used i v hv
      have hcapacity := h.capacity
      refine ⟨i - 1, List.mem_filter.mpr ⟨List.mem_range.mpr (by omega), ?_⟩, by omega⟩
      rwa [Nat.sub_add_cancel (Nat.pos_of_ne_zero hne)]
  · rw [hcount, List.countP_eq_length_filter, List.length_map]

end Represents

end SlotArray

/-! ### Stores -/

namespace Stores

variable {τ : Type u} {τ' : Type w} {ν : Type v}

/-- The operations of a kind of store. Moves give the destination and what is left of the source. -/
structure Ops (τ : Type u) (ν : Type v) where
  construct : Nat → τ
  bind : τ → Nat → ν → Option τ
  moveConstruct : τ → τ × τ
  moveAssign : τ → τ → τ × τ
  moveSelf : τ → τ
  reset : τ → τ

/-- Calls on stores, which are named by numbers. -/
inductive Call (ν : Type v) where
  | construct (store size : Nat)
  | bind (store index : Nat) (value : ν)
  | moveConstruct (store source : Nat)
  | moveAssign (store source : Nat)
  | reset (store : Nat)

/-- One call, on stores that are still defined. -/
def call (ops : Ops τ ν) (stores : Nat → τ) : Call ν → Option (Nat → τ)
  | .construct n size => some (Function.update stores n (ops.construct size))
  | .bind n index value => (ops.bind (stores n) index value).map (Function.update stores n)
  | .moveConstruct n source =>
    let r := ops.moveConstruct (stores source)
    some (Function.update (Function.update stores source r.2) n r.1)
  | .moveAssign n source =>
    if n = source then some (Function.update stores n (ops.moveSelf (stores n)))
    else
      let r := ops.moveAssign (stores n) (stores source)
      some (Function.update (Function.update stores n r.1) source r.2)
  | .reset n => some (Function.update stores n (ops.reset (stores n)))

/-- Histories of calls; nothing comes after a call that is not defined. -/
def machine (ops : Ops τ ν) : Machine (Option (Nat → τ)) (Call ν) Empty where
  step stores c := (stores.bind fun stores => call ops stores c, [])

/-- The stores after a history, from stores of this size. -/
def history (ops : Ops τ ν) (size : Nat) (calls : List (Call ν)) : Option (Nat → τ) :=
  ((machine ops).run (some fun _ => ops.construct size) calls).1

/-- The operations of one kind of store do to its stores what those of the other do to theirs. -/
structure Refines (ops : Ops τ ν) (ops' : Ops τ' ν) (R : τ → τ' → Prop) : Prop where
  construct : ∀ size, R (ops.construct size) (ops'.construct size)
  bind : ∀ s t index value, R s t → Option.Rel R (ops.bind s index value) (ops'.bind t index value)
  moveConstruct : ∀ s t, R s t →
    R (ops.moveConstruct s).1 (ops'.moveConstruct t).1 ∧
      R (ops.moveConstruct s).2 (ops'.moveConstruct t).2
  moveAssign : ∀ s t source source', R s t → R source source' →
    R (ops.moveAssign s source).1 (ops'.moveAssign t source').1 ∧
      R (ops.moveAssign s source).2 (ops'.moveAssign t source').2
  moveSelf : ∀ s t, R s t → R (ops.moveSelf s) (ops'.moveSelf t)
  reset : ∀ s t, R s t → R (ops.reset s) (ops'.reset t)

variable {ops : Ops τ ν} {ops' : Ops τ' ν} {R : τ → τ' → Prop}

/-- All stores of both kinds correspond. -/
def Related (R : τ → τ' → Prop) (stores : Nat → τ) (stores' : Nat → τ') : Prop :=
  ∀ n, R (stores n) (stores' n)

lemma Related.update {stores : Nat → τ} {stores' : Nat → τ'} (h : Related R stores stores')
    (n : Nat) {s : τ} {t : τ'} (hst : R s t) :
    Related R (Function.update stores n s) (Function.update stores' n t) := by
  intro m
  by_cases hm : m = n
  · subst hm
    rwa [Function.update_self, Function.update_self]
  · rw [Function.update_of_ne hm, Function.update_of_ne hm]
    exact h m

lemma Refines.call (h : Refines ops ops' R) {stores : Nat → τ} {stores' : Nat → τ'}
    (hstores : Related R stores stores') (c : Call ν) :
    Option.Rel (Related R) (Stores.call ops stores c) (Stores.call ops' stores' c) := by
  cases c with
  | construct n size => exact .some (hstores.update n (h.construct size))
  | bind n index value =>
    have hbind := h.bind _ _ index value (hstores n)
    rw [Stores.call, Stores.call]
    generalize ops.bind (stores n) index value = s at hbind
    generalize ops'.bind (stores' n) index value = t at hbind
    cases hbind with
    | none => exact .none
    | some hst => exact .some (hstores.update n hst)
  | moveConstruct n source =>
    obtain ⟨hnew, hleft⟩ := h.moveConstruct _ _ (hstores source)
    exact .some ((hstores.update source hleft).update n hnew)
  | moveAssign n source =>
    rw [Stores.call, Stores.call]
    by_cases hself : n = source
    · rw [if_pos hself, if_pos hself]
      exact .some (hstores.update n (h.moveSelf _ _ (hstores n)))
    · rw [if_neg hself, if_neg hself]
      obtain ⟨hnew, hleft⟩ := h.moveAssign _ _ _ _ (hstores n) (hstores source)
      exact .some ((hstores.update n hnew).update source hleft)
  | reset n => exact .some (hstores.update n (h.reset _ _ (hstores n)))

/-- Stores of both kinds correspond after any history. -/
theorem Refines.history (h : Refines ops ops' R) (size : Nat) (calls : List (Call ν)) :
    Option.Rel (Related R) (Stores.history ops size calls) (Stores.history ops' size calls) := by
  have hstep : ∀ stores stores' c, Option.Rel (Related R) stores stores' →
      Option.Rel (Related R) ((machine ops).step stores c).1 ((machine ops').step stores' c).1 ∧
        List.Forall₂ (fun _ _ : Empty => True) ((machine ops).step stores c).2
          ((machine ops').step stores' c).2 := by
    intro stores stores' c hrel
    refine ⟨?_, .nil⟩
    cases hrel with
    | none => exact .none
    | some hstores => exact h.call hstores c
  exact (Machine.run_simulation _ _ _ _ hstep (.some fun _ => h.construct size) calls).1

/-- A store that some history leads to. -/
def Reached (ops : Ops τ ν) (s : τ) : Prop :=
  ∃ size calls stores n, history ops size calls = some stores ∧ stores n = s

/-- Every store that is reached has a counterpart. -/
lemma Refines.exists_of_reached (h : Refines ops ops' R) {s : τ} (hs : Reached ops s) :
    ∃ t, R s t := by
  obtain ⟨size, calls, stores, n, hhistory, rfl⟩ := hs
  have hrel := h.history size calls
  rw [hhistory] at hrel
  generalize Stores.history ops' size calls = stores' at hrel
  cases hrel with
  | some hstores => exact ⟨_, hstores n⟩

/-- Some history constructs a store of any size. -/
lemma reached_construct (ops : Ops τ ν) (size : Nat) : Reached ops (ops.construct size) :=
  ⟨size, [], fun _ => ops.construct size, 0, rfl, rfl⟩

end Stores

namespace SlotArray

variable {σ : Type u} {ν : Type v}

/-- Finite maps as stores: a move empties its source. -/
def Contents.ops (encode : ν → Encoded σ) : Stores.Ops (Contents ν) ν where
  construct _ := {}
  bind := Contents.bind encode
  moveConstruct c := (c, {})
  moveAssign _ source := (source, {})
  moveSelf _ := {}
  reset _ := {}

/-- An empty array holds the empty map. -/
lemma represents_nil {zero : σ} {encode : ν → Encoded σ} :
    Represents zero encode [] ({} : Contents ν) :=
  represents_replicate 0

end SlotArray
