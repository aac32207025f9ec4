import CodaDb.Lib.Memory
import CodaDb.Bind.Bound

/-!
# `c_alloc` and the growth of arrays

The two templates that allocate the arrays of a binding. `calloc` refuses a product that does not
fit in 64 bits; the size that is passed to `realloc` is computed modulo 2^64.
-/

universe u v w

namespace CodaDb

open Memory

/-- What a call does to the state of an object: it returns, throws, or its behaviour is not
defined. -/
inductive Effect (S : Type u) (α : Type v) where
  | returned (result : α) (s : S)
  | threw (s : S)
  | undefined

/-- A call after another one. -/
def Effect.andThen {S : Type u} {α : Type v} (o : Effect S Unit) (next : S → Effect S α) :
    Effect S α :=
  match o with
  | .returned () s => next s
  | .threw s => .threw s
  | .undefined => .undefined

/-- A pointer to memory, `std::bad_alloc`, or nothing that is defined. -/
inductive Allocated (σ : Type u) where
  | pointer (p : Option (Block σ))
  | badAlloc
  | undefined

/-- The pointer is assigned to a member of an object. -/
def Allocated.assign {S : Type u} {σ : Type v} (o : Allocated σ) (s : S)
    (set : Option (Block σ) → S) : Effect S Unit :=
  match o with
  | .pointer p => .returned () (set p)
  | .badAlloc => .threw s
  | .undefined => .undefined

/-- An array has room for a number of elements. -/
def Room {σ : Type u} (size : ElementSize) (p : Option (Block σ)) (num : UInt64) : Prop :=
  num.toNat * size.bytes.toNat ≤ allocation p

section Room

variable {σ : Type u} {size size' : ElementSize} {p p' : Option (Block σ)} {i : Nat} {a : σ}
  {num : UInt64}

/-- There is as much room as before when an element was written. -/
lemma room_store (h : store size p i a = some p') : Room size' p' num ↔ Room size' p num := by
  rw [Room, Room, allocation_store h]

lemma room_overwrite (h : overwrite size p i a = some p') :
    Room size' p' num ↔ Room size' p num := by
  rw [Room, Room, allocation_overwrite h]

end Room

/-- `c_alloc(num)` -/
def cAlloc {σ : Type u} (granted : Bool) (zero : σ) (size : ElementSize) (num : UInt64) :
    Allocated σ :=
  if num = 0 then .pointer none
  else
    match calloc granted zero num size with
    | none => .badAlloc
    | some mem => .pointer (some mem)

/-- `c_alloc(value, num, oldSize)` -/
def cAllocValue {σ : Type u} (granted : Bool) (zero : σ) (size : ElementSize)
    (value : Option (Block σ)) (num oldSize : UInt64) : Allocated σ :=
  if num = 0 then .pointer value
  else
    match realloc granted size value (size.bytes * num + 1) with
    | none => .badAlloc
    | some mem =>
      -- the new values are initialized
      match mem.fill size zero oldSize.toNat (num.toNat - oldSize.toNat) with
      | none => .undefined
      | some val => .pointer (some val)

lemma ne_zero_of_lt {num oldSize : UInt64} (h : oldSize < num) : num ≠ 0 := by
  rintro rfl
  exact UInt64.not_lt_zero h

section cAlloc

variable {σ : Type u} {granted : Bool} {zero : σ} {size : ElementSize} {num : UInt64}

/-- The product is checked with the request. -/
lemma cAlloc_eq_badAlloc_iff : cAlloc granted zero size num = .badAlloc ↔
    num ≠ 0 ∧ (granted = false ∨ 2 ^ 64 ≤ size.bytes.toNat * num.toNat) := by
  rw [cAlloc, calloc, Nat.mul_comm]
  by_cases hnum : num = 0
  · simp [hnum]
  · rw [if_neg hnum]
    by_cases hgranted : granted = true ∧ size.bytes.toNat * num.toNat < 2 ^ 64
    · rw [if_pos hgranted]
      refine iff_of_false nofun ?_
      rintro ⟨-, hrefused | hbytes⟩
      · exact absurd hgranted.1 (Bool.eq_false_iff.mp hrefused)
      · exact Nat.not_lt_of_le hbytes hgranted.2
    · rw [if_neg hgranted]
      refine iff_of_true rfl ⟨hnum, ?_⟩
      rwa [not_and_or, Bool.not_eq_true, Nat.not_lt] at hgranted

lemma exists_room_cAlloc (h : cAlloc granted zero size num ≠ .badAlloc) :
    ∃ p, cAlloc granted zero size num = .pointer p ∧ Room size p num := by
  rw [cAlloc] at h ⊢
  split
  · next hnum => exact ⟨none, rfl, by simp [Room, hnum]⟩
  · next hnum =>
    rw [if_neg hnum] at h
    split at h
    · exact absurd rfl h
    · next mem hmem =>
      refine ⟨some mem, rfl, ?_⟩
      rw [calloc] at hmem
      split at hmem
      · cases hmem
        exact Nat.le_refl _
      · cases hmem

/-- The elements of a new array. -/
lemma elements_cAlloc (hnum : num ≠ 0) (hbytes : size.bytes.toNat * num.toNat < 2 ^ 64) :
    ∃ p, cAlloc true zero size num = .pointer p ∧
      Elements size p (List.replicate num.toNat zero) := by
  rw [cAlloc, if_neg hnum, calloc, Nat.mul_comm, if_pos ⟨rfl, hbytes⟩]
  refine ⟨_, rfl, fun i a hi => ?_⟩
  obtain ⟨hlt, rfl⟩ := List.getElem?_eq_some_iff.mp hi
  rw [List.length_replicate] at hlt
  have hin : (i + 1) * size.bytes.toNat ≤ size.bytes.toNat * num.toNat := by
    rw [Nat.mul_comm]
    exact Nat.mul_le_mul_left _ hlt
  simp [Block.read, hin, hlt]

end cAlloc

section cAllocValue

variable {σ : Type u} {granted : Bool} {zero : σ} {size : ElementSize} {value : Option (Block σ)}
  {num oldSize : UInt64}

lemma cAllocValue_zero (hnum : num = 0) :
    cAllocValue granted zero size value num oldSize = .pointer value := if_pos hnum

lemma cAllocValue_eq_badAlloc_iff :
    cAllocValue granted zero size value num oldSize = .badAlloc ↔ num ≠ 0 ∧ granted = false := by
  rw [cAllocValue, realloc]
  by_cases hnum : num = 0
  · simp [hnum]
  · cases granted with
    | false => simp [hnum]
    | true =>
      rw [if_neg hnum, if_pos rfl]
      simp only
      split <;> simp

/-- The size is even, so that a byte more does not wrap either. -/
lemma toNat_bytes (h : size.bytes.toNat * num.toNat < 2 ^ 64) :
    (size.bytes * num + 1).toNat = size.bytes.toNat * num.toNat + 1 := by
  have heven : size.bytes.toNat * num.toNat % 2 = 0 := by
    rw [Nat.mul_mod, size.even, Nat.zero_mul]
  have hone : (1 : UInt64).toNat = 1 := rfl
  rw [UInt64.toNat_add, UInt64.toNat_mul, hone, Nat.mod_eq_of_lt h]
  omega

/-- The elements of a block that was enlarged. -/
lemma cAllocValue_granted (hold : oldSize < num) (h : size.bytes.toNat * num.toNat < 2 ^ 64) :
    cAllocValue true zero size value num oldSize = .pointer (some {
      bytes := size.bytes.toNat * num.toNat + 1
      object := value.elim 0 (·.object + 1)
      cells := fun i =>
        if oldSize.toNat ≤ i ∧ i < num.toNat then some zero
        else if (i + 1) * size.bytes.toNat ≤ size.bytes.toNat * num.toNat + 1 then
          value.bind (·.read size i)
        else none }) := by
  have hnum : num ≠ 0 := ne_zero_of_lt hold
  rw [UInt64.lt_iff_toNat_lt] at hold
  have hcount : oldSize.toNat + (num.toNat - oldSize.toNat) = num.toNat := by omega
  rw [cAllocValue, if_neg hnum, realloc, if_pos rfl]
  simp only [toNat_bytes h]
  rw [Block.fill_eq_some, hcount]
  rw [hcount, Nat.mul_comm]
  exact Nat.le_succ _

/-- Not all of the new elements are in a block whose size wrapped. -/
lemma cAllocValue_wrapped (hold : oldSize < num) (h : 2 ^ 64 ≤ size.bytes.toNat * num.toNat) :
    cAllocValue true zero size value num oldSize = .undefined := by
  have hnum : num ≠ 0 := ne_zero_of_lt hold
  rw [UInt64.lt_iff_toNat_lt] at hold
  obtain ⟨n, hn⟩ := Nat.exists_eq_add_of_lt hold
  have hcount : num.toNat - oldSize.toNat = n + 1 := by omega
  have hbytes := UInt64.toNat_lt (size.bytes * num + 1)
  rw [cAllocValue, if_neg hnum, realloc, if_pos rfl]
  simp only [hcount]
  rw [Block.fill_eq_none]
  rw [← Nat.add_assoc, ← hn, Nat.mul_comm]
  exact Nat.lt_of_lt_of_le hbytes h

/-- The array has room for its elements where their size in bytes did not wrap. -/
lemma exists_room_cAllocValue_iff (hold : oldSize < num) :
    (∃ p, cAllocValue granted zero size value num oldSize = .pointer p ∧ Room size p num) ↔
      granted = true ∧ size.bytes.toNat * num.toNat < 2 ^ 64 := by
  have hnum : num ≠ 0 := ne_zero_of_lt hold
  cases granted with
  | false => simp [cAllocValue_eq_badAlloc_iff.mpr ⟨hnum, rfl⟩]
  | true =>
    by_cases hbytes : size.bytes.toNat * num.toNat < 2 ^ 64
    · refine iff_of_true ⟨_, cAllocValue_granted hold hbytes, ?_⟩ ⟨rfl, hbytes⟩
      rw [Room, Nat.mul_comm]
      exact Nat.le_succ _
    · rw [cAllocValue_wrapped hold (Nat.le_of_not_lt hbytes)]
      refine iff_of_false ?_ fun h => hbytes h.2
      rintro ⟨p, hp, -⟩
      cases hp

/-- A block that is reallocated is not the block that was there. -/
lemma cAllocValue_ne {p : Option (Block σ)} (hnum : num ≠ 0)
    (h : cAllocValue true zero size value num oldSize = .pointer p) : p ≠ value := by
  rw [cAllocValue, if_neg hnum, realloc, if_pos rfl] at h
  split at h
  · cases h
  · next mem hmem =>
    cases hmem
    split at h
    · cases h
    · next val hfill =>
      cases h
      have hobject := Block.fill_object hfill
      rintro rfl
      exact Nat.succ_ne_self val.object hobject.symm

/-- The elements of an array stay, with zeros behind them. -/
lemma elements_cAllocValue {xs : List σ} (h : Elements size value xs)
    (hlength : xs.length = oldSize.toNat) (hold : oldSize < num)
    (hbytes : size.bytes.toNat * num.toNat < 2 ^ 64) :
    ∃ p, cAllocValue true zero size value num oldSize = .pointer p ∧
      Elements size p (xs ++ List.replicate (num.toNat - oldSize.toNat) zero) := by
  refine ⟨_, cAllocValue_granted hold hbytes, fun i a hi => ?_⟩
  rw [UInt64.lt_iff_toNat_lt] at hold
  obtain ⟨hlt, -⟩ := List.getElem?_eq_some_iff.mp hi
  rw [List.length_append, List.length_replicate, hlength] at hlt
  have hin : (i + 1) * size.bytes.toNat ≤ size.bytes.toNat * num.toNat + 1 := by
    have hle := Nat.mul_le_mul_left size.bytes.toNat (show i + 1 ≤ num.toNat by omega)
    rw [Nat.mul_comm]
    exact Nat.le_succ_of_le hle
  rw [Option.bind_some, Block.read, if_pos hin]
  simp only
  rcases Nat.lt_or_ge i oldSize.toNat with hi' | hi'
  · rw [List.getElem?_append_left (by omega)] at hi
    rw [if_neg fun hnew => Nat.not_lt_of_le hnew.1 hi', if_pos hin, h i a hi]
  · rw [List.getElem?_append_right (by omega)] at hi
    obtain ⟨-, rfl⟩ := List.getElem?_eq_some_iff.mp hi
    rw [if_pos ⟨hi', by omega⟩, List.getElem_replicate]

end cAllocValue

end CodaDb
