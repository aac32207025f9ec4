import Mathlib.Algebra.Group.Nat.Defs
import Mathlib.Logic.Function.Basic
import Mathlib.Tactic.Lemma

/-!
# Blocks of memory

The blocks that `calloc` and `realloc` return, as arrays of elements of one size. An element is
written and read inside the block only. The allocator may refuse any request.
-/

universe u

namespace Memory

variable {σ : Type u}

/-- The size of a type in bytes, which its alignment makes even. -/
structure ElementSize where
  bytes : UInt64
  even : bytes.toNat % 2 = 0

/-- A block of memory. When it is reallocated it is another object, also at the same address. -/
structure Block (σ : Type u) where
  bytes : Nat
  object : Nat
  cells : Nat → Option σ

/-- The number of bytes behind a pointer. -/
def allocation (p : Option (Block σ)) : Nat := p.elim 0 Block.bytes

namespace Block

/-- Write an element, if it is in the block. -/
def write (size : ElementSize) (b : Block σ) (i : Nat) (a : σ) : Option (Block σ) :=
  if (i + 1) * size.bytes.toNat ≤ b.bytes then
    some { b with cells := Function.update b.cells i (some a) }
  else none

/-- Read an element, if it is in the block and was written. -/
def read (size : ElementSize) (b : Block σ) (i : Nat) : Option σ :=
  if (i + 1) * size.bytes.toNat ≤ b.bytes then b.cells i else none

/-- Write the same element a number of times, from one position on. -/
def fill (size : ElementSize) (a : σ) (b : Block σ) (i : Nat) : Nat → Option (Block σ)
  | 0 => some b
  | n + 1 => (b.write size i a).bind fun b => b.fill size a (i + 1) n

variable {size : ElementSize} {a : σ}

/-- An element that is written is read; the others stay. -/
lemma read_write {b b' : Block σ} {i : Nat} (h : b.write size i a = some b') (j : Nat) :
    b'.read size j = if j = i then some a else b.read size j := by
  rw [write] at h
  split at h
  · next hin =>
    cases h
    simp only [read, Function.update_apply]
    by_cases hj : j = i
    · simp [hj, hin]
    · simp [hj]
  · cases h

lemma fill_eq_some {n : Nat} {b : Block σ} {i : Nat}
    (h : (i + n) * size.bytes.toNat ≤ b.bytes) :
    b.fill size a i n =
      some { b with cells := fun j => if i ≤ j ∧ j < i + n then some a else b.cells j } := by
  induction n generalizing b i with
  | zero =>
    have hcells : (fun j => if i ≤ j ∧ j < i + 0 then some a else b.cells j) = b.cells := by
      funext j
      rw [if_neg]
      omega
    rw [fill, hcells]
  | succ n ih =>
    have hle : i + 1 ≤ i + (n + 1) := by omega
    have hwrite := Nat.le_trans (Nat.mul_le_mul_right size.bytes.toNat hle) h
    have hrest : (i + 1 + n) * size.bytes.toNat ≤ b.bytes := by
      rwa [Nat.add_assoc, Nat.add_comm 1 n]
    rw [fill, write, if_pos hwrite, Option.bind_some, ih]
    · simp only [Option.some.injEq, Block.mk.injEq, true_and]
      funext j
      by_cases hj : j = i
      · subst hj
        rw [if_neg, Function.update_self, if_pos]
        · omega
        · omega
      · rw [Function.update_of_ne hj]
        refine if_congr ?_ rfl rfl
        omega
    · exact hrest

/-- The last element is not in the block. -/
lemma fill_eq_none {n : Nat} {b : Block σ} {i : Nat}
    (h : b.bytes < (i + (n + 1)) * size.bytes.toNat) : b.fill size a i (n + 1) = none := by
  induction n generalizing b i with
  | zero => rw [fill, write, if_neg (Nat.not_le_of_lt h), Option.bind_none]
  | succ n ih =>
    rw [fill, write]
    split
    · refine ih ?_
      rwa [Nat.add_assoc, Nat.add_comm 1 (n + 1)]
    · rfl

/-- A block that is written to is still the same object. -/
lemma fill_object {n : Nat} {b b' : Block σ} {i : Nat} (h : b.fill size a i n = some b') :
    b'.object = b.object := by
  induction n generalizing b i with
  | zero =>
    cases h
    rfl
  | succ n ih =>
    rw [fill, write] at h
    split at h
    · have hrest := ih h
      exact hrest
    · cases h

end Block

/-- Write an element behind a pointer. -/
def store (size : ElementSize) (p : Option (Block σ)) (i : Nat) (a : σ) :
    Option (Option (Block σ)) :=
  p.bind fun b => (b.write size i a).map some

/-- Write an element behind a pointer after the old one was read. -/
def overwrite (size : ElementSize) (p : Option (Block σ)) (i : Nat) (a : σ) :
    Option (Option (Block σ)) :=
  (p.bind (·.read size i)).bind fun _ => store size p i a

section store

variable {size : ElementSize} {p p' : Option (Block σ)} {i : Nat} {a : σ}

/-- Nothing is allocated or freed. -/
lemma allocation_store (h : store size p i a = some p') : allocation p' = allocation p := by
  rw [store, Option.bind_eq_some_iff] at h
  obtain ⟨b, rfl, h⟩ := h
  rw [Block.write] at h
  split at h
  · cases h
    rfl
  · cases h

lemma allocation_overwrite (h : overwrite size p i a = some p') : allocation p' = allocation p := by
  rw [overwrite, Option.bind_eq_some_iff] at h
  obtain ⟨-, -, h⟩ := h
  exact allocation_store h

lemma store_isSome (hsize : 0 < size.bytes.toNat)
    (h : (i + 1) * size.bytes.toNat ≤ allocation p) : (store size p i a).isSome := by
  cases p with
  | none => exact absurd h (Nat.not_le_of_lt (Nat.mul_pos (Nat.succ_pos i) hsize))
  | some b =>
    have hin : (i + 1) * size.bytes.toNat ≤ b.bytes := h
    rw [store, Option.bind_some, Block.write, if_pos hin]
    rfl

/-- What was read can be overwritten. -/
lemma overwrite_isSome :
    (overwrite size p i a).isSome ↔ (p.bind (·.read size i)).isSome := by
  cases p with
  | none => simp [overwrite]
  | some b =>
    simp only [overwrite, store, Option.bind_some, Block.read, Block.write]
    split
    · cases b.cells i <;> simp
    · simp

/-- The elements behind a pointer. -/
def Elements (size : ElementSize) (p : Option (Block σ)) (xs : List σ) : Prop :=
  ∀ i a, xs[i]? = some a → p.bind (·.read size i) = some a

/-- There are no elements behind a null pointer. -/
lemma Elements.eq_nil {xs : List σ} (h : Elements size none xs) : xs = [] := by
  cases xs with
  | nil => rfl
  | cons x xs => cases h 0 x rfl

/-- An element that there is can be written. -/
lemma Elements.store_isSome {xs : List σ} (h : Elements size p xs) (hi : i < xs.length) :
    (store size p i a).isSome := by
  have hread := h i _ (List.getElem?_eq_getElem hi)
  rw [Option.bind_eq_some_iff] at hread
  obtain ⟨b, rfl, hread⟩ := hread
  rw [Block.read] at hread
  split at hread
  · next hin =>
    rw [Memory.store, Option.bind_some, Block.write, if_pos hin]
    rfl
  · cases hread

/-- An element that there is can be overwritten. -/
lemma Elements.overwrite_isSome {xs : List σ} (h : Elements size p xs) (hi : i < xs.length) :
    (overwrite size p i a).isSome := by
  rw [Memory.overwrite_isSome, h i _ (List.getElem?_eq_getElem hi)]
  rfl

lemma Elements.store {xs : List σ} (h : Elements size p xs) (hstore : store size p i a = some p') :
    Elements size p' (xs.set i a) := by
  rw [Memory.store, Option.bind_eq_some_iff] at hstore
  obtain ⟨b, rfl, hwrite⟩ := hstore
  rw [Option.map_eq_some_iff] at hwrite
  obtain ⟨b', hwrite, rfl⟩ := hwrite
  intro j c hj
  rw [Option.bind_some, Block.read_write hwrite]
  by_cases hij : i = j
  · subst hij
    obtain ⟨hlt, rfl⟩ := List.getElem?_eq_some_iff.mp hj
    rw [if_pos rfl, List.getElem_set_self]
  · rw [List.getElem?_set_ne hij] at hj
    rw [if_neg (Ne.symm hij)]
    exact h j c hj

lemma Elements.overwrite {xs : List σ} (h : Elements size p xs)
    (hwrite : overwrite size p i a = some p') : Elements size p' (xs.set i a) := by
  rw [Memory.overwrite, Option.bind_eq_some_iff] at hwrite
  obtain ⟨-, -, hstore⟩ := hwrite
  exact h.store hstore

end store

/-- `calloc` checks the product of its arguments. -/
def calloc (granted : Bool) (zero : σ) (num : UInt64) (size : ElementSize) : Option (Block σ) :=
  if granted ∧ num.toNat * size.bytes.toNat < 2 ^ 64 then
    some {
      bytes := num.toNat * size.bytes.toNat
      object := 0
      cells := fun i => if i < num.toNat then some zero else none }
  else none

/-- `realloc` keeps the elements that are in the new block too. -/
def realloc (granted : Bool) (size : ElementSize) (p : Option (Block σ)) (bytes : UInt64) :
    Option (Block σ) :=
  if granted then
    some {
      bytes := bytes.toNat
      object := p.elim 0 (·.object + 1)
      cells := fun i =>
        if (i + 1) * size.bytes.toNat ≤ bytes.toNat then p.bind (·.read size i) else none }
  else none

end Memory
