import Mathlib.Data.List.Perm.Basic
import Mathlib.Logic.Function.Basic
import Mathlib.Tactic.Lemma

/-!
# Shared pointers

Objects that are held by counted pointers. The last pointer to an object destroys it, and its
destructor releases the pointers that the object holds, one after the other. The rules below say
that no pointer dangles as long as the counts are right, and what a release leaves of an invariant.
-/

universe u v

/-- A type of objects that hold counted pointers. -/
class Holder (κ : Type u) where
  /-- The pointers of an object, in the order in which its destructor releases them. -/
  pointers : κ → List Nat

namespace Shared

open Holder (pointers)

/-- An object and the number of pointers that lead to it. -/
structure Cell (κ : Type u) where
  count : Nat
  body : κ

/-- The objects by their addresses; the address of a destroyed one is not used again. -/
structure Heap (κ : Type u) where
  cells : List (Option (Cell κ))

namespace Heap

variable {κ : Type u}

def find (h : Heap κ) (p : Nat) : Option (Cell κ) := h.cells[p]?.join

/-- The object behind a pointer. -/
def body (h : Heap κ) (p : Nat) : Option κ := (h.find p).map Cell.body

def put (h : Heap κ) (p : Nat) (c : Option (Cell κ)) : Heap κ := ⟨h.cells.set p c⟩

/-- A new object and the first pointer to it. -/
def allocate (h : Heap κ) (b : κ) : Nat × Heap κ :=
  (h.cells.length, ⟨h.cells ++ [some { count := 1, body := b }]⟩)

/-- A copy of a pointer. -/
def retain (h : Heap κ) (p : Nat) : Heap κ :=
  match h.find p with
  | none => h
  | some c => h.put p (some { c with count := c.count + 1 })

/-- An object changes in place. -/
def modify (h : Heap κ) (p : Nat) (b : κ) : Heap κ :=
  match h.find p with
  | none => h
  | some c => h.put p (some { c with body := b })

variable {h : Heap κ} {p q : Nat} {c : Cell κ}

lemma find_eq_some_iff : h.find p = some c ↔ h.cells[p]? = some (some c) := by
  simp [find, Option.join_eq_some_iff]

lemma find_put (hp : (h.find p).isSome) (o : Option (Cell κ)) (q : Nat) :
    (h.put p o).find q = if q = p then o else h.find q := by
  obtain ⟨c, hc⟩ := Option.isSome_iff_exists.mp hp
  obtain ⟨hlt, -⟩ := List.getElem?_eq_some_iff.mp (find_eq_some_iff.mp hc)
  rw [find, put, List.getElem?_set]
  by_cases hq : q = p
  · simp [hq, hlt]
  · rw [if_neg (Ne.symm hq), if_neg hq, find]

lemma find_allocate (h : Heap κ) (b : κ) (q : Nat) :
    (h.allocate b).2.find q =
      if q = (h.allocate b).1 then some { count := 1, body := b } else h.find q := by
  rw [find, allocate, List.getElem?_append]
  by_cases hq : q < h.cells.length
  · rw [if_pos hq, if_neg (Nat.ne_of_lt hq), find]
  · rw [if_neg hq]
    by_cases heq : q = h.cells.length
    · simp [heq]
    · have hout : h.cells.length < q := Nat.lt_of_le_of_ne (Nat.not_lt.mp hq) (Ne.symm heq)
      rw [if_neg heq, find, List.getElem?_eq_none (Nat.not_lt.mp hq), List.getElem?_eq_none]
      exact Nat.sub_pos_of_lt hout

lemma find_allocate_fst (h : Heap κ) (b : κ) : h.find (h.allocate b).1 = none := by
  rw [find, allocate, List.getElem?_eq_none (Nat.le_refl _)]
  rfl

lemma retain_eq (hc : h.find p = some c) :
    h.retain p = h.put p (some { c with count := c.count + 1 }) := by
  simp only [retain, hc]

lemma modify_eq (hc : h.find p = some c) (b : κ) :
    h.modify p b = h.put p (some { c with body := b }) := by
  simp only [modify, hc]

/-! ### The objects alone -/

lemma body_eq_some_iff {b : κ} : h.body p = some b ↔ ∃ c, h.find p = some c ∧ c.body = b :=
  Option.map_eq_some_iff

lemma body_put (hp : (h.find p).isSome) (o : Option (Cell κ)) :
    (h.put p o).body = Function.update h.body p (o.map Cell.body) := by
  funext q
  rw [body, find_put hp, Function.update_apply]
  split
  · rfl
  · rfl

lemma body_allocate (h : Heap κ) (b : κ) :
    (h.allocate b).2.body = Function.update h.body (h.allocate b).1 (some b) := by
  funext q
  rw [body, find_allocate, Function.update_apply]
  split
  · rfl
  · rfl

lemma body_allocate_fst (h : Heap κ) (b : κ) : h.body (h.allocate b).1 = none := by
  rw [body, find_allocate_fst, Option.map_none]

/-- The count of an object is not part of it. -/
lemma body_put_count (hc : h.find p = some c) (n : Nat) :
    (h.put p (some { c with count := n })).body = h.body := by
  have hbody : h.body p = some c.body := by rw [body, hc, Option.map_some]
  rw [body_put (by simp [hc]), Option.map_some, ← hbody, Function.update_eq_self]

@[simp] lemma body_retain (h : Heap κ) (p : Nat) : (h.retain p).body = h.body := by
  cases hc : h.find p with
  | none => simp only [retain, hc]
  | some c => rw [retain_eq hc, body_put_count hc]

lemma body_modify {b b' : κ} (hb : h.body p = some b) :
    (h.modify p b').body = Function.update h.body p (some b') := by
  obtain ⟨c, hc, -⟩ := body_eq_some_iff.mp hb
  rw [modify_eq hc, body_put (by simp [hc])]
  rfl

lemma body_put_none (hc : h.find p = some c) :
    (h.put p none).body = Function.update h.body p none := by
  rw [body_put (by simp [hc]), Option.map_none]

/-- The ranks of the objects are bounded. -/
lemma exists_bound (h : Heap κ) (rank : κ → Nat) :
    ∃ n, ∀ p b, h.body p = some b → rank b < n := by
  have hcells : ∀ l : List (Option (Cell κ)), ∃ n, ∀ c, some c ∈ l → rank c.body < n := by
    intro l
    induction l with
    | nil => exact ⟨0, nofun⟩
    | cons o l ih =>
      obtain ⟨n, hn⟩ := ih
      refine ⟨n + (o.elim 0 fun c => rank c.body + 1), fun c hc => ?_⟩
      obtain rfl | hc := List.mem_cons.mp hc
      · rw [Option.elim_some]
        omega
      · exact Nat.lt_add_right _ (hn c hc)
  obtain ⟨n, hn⟩ := hcells h.cells
  refine ⟨n, fun p b hb => ?_⟩
  obtain ⟨c, hc, rfl⟩ := body_eq_some_iff.mp hb
  exact hn c (List.mem_of_getElem? (find_eq_some_iff.mp hc))

end Heap

/-! ### Counts -/

section Counts

variable {κ : Type u} [Holder κ]

/-- The pointers a cell holds. -/
def pointersOf (o : Option (Cell κ)) : List Nat := o.elim [] fun c => pointers c.body

/-- The pointers that the objects hold. -/
def Heap.held (h : Heap κ) : List Nat := h.cells.flatMap pointersOf

lemma flatMap_set_perm {α : Type u} (f : α → List Nat) {a : α} (b : α) :
    ∀ {l : List α} {i : Nat}, l[i]? = some a →
      (f a ++ (l.set i b).flatMap f).Perm (f b ++ l.flatMap f)
  | [], i, h => by simp at h
  | c :: l, 0, h => by
    obtain rfl : c = a := by simpa using h
    simp only [List.set_cons_zero, List.flatMap_cons, ← List.append_assoc]
    exact List.Perm.append_right _ List.perm_append_comm
  | c :: l, i + 1, h => by
    have ih := flatMap_set_perm f b (l := l) (i := i) (by simpa using h)
    simp only [List.set_cons_succ, List.flatMap_cons]
    calc f a ++ (f c ++ (l.set i b).flatMap f)
        |>.Perm (f c ++ (f a ++ (l.set i b).flatMap f)) := by
          simp only [← List.append_assoc]
          exact List.Perm.append_right _ List.perm_append_comm
      _ |>.Perm (f c ++ (f b ++ l.flatMap f)) := ih.append_left _
      _ |>.Perm (f b ++ (f c ++ l.flatMap f)) := by
          simp only [← List.append_assoc]
          exact List.Perm.append_right _ List.perm_append_comm

variable {h : Heap κ} {p : Nat} {c : Cell κ} {ext : List Nat}

/-- What an object holds is exchanged for what stands in its place. -/
lemma Heap.held_put (hc : h.find p = some c) (o : Option (Cell κ)) :
    (pointers c.body ++ (h.put p o).held).Perm (pointersOf o ++ h.held) :=
  flatMap_set_perm pointersOf o (Heap.find_eq_some_iff.mp hc)

lemma Heap.held_allocate (h : Heap κ) (b : κ) :
    (h.allocate b).2.held = h.held ++ pointers b := by
  simp [Heap.held, Heap.allocate, pointersOf]

lemma Heap.pointers_subset_held (hc : h.find p = some c) : pointers c.body ⊆ h.held := by
  intro q hq
  exact List.mem_flatMap.mpr ⟨some c, List.mem_of_getElem? (Heap.find_eq_some_iff.mp hc), hq⟩

lemma Heap.exists_of_mem_held (hp : p ∈ h.held) :
    ∃ q c, h.find q = some c ∧ p ∈ pointers c.body := by
  obtain ⟨o, ho, hmem⟩ := List.mem_flatMap.mp hp
  obtain ⟨q, hq⟩ := List.getElem?_of_mem ho
  cases o with
  | none => simp [pointersOf] at hmem
  | some c => exact ⟨q, c, Heap.find_eq_some_iff.mpr hq, hmem⟩

/-- Each count is the number of the pointers to the object, those that the objects hold and those
from outside; every pointer leads to an object, and to every object there is one. -/
structure Counted (h : Heap κ) (ext : List Nat) : Prop where
  count : ∀ p c, h.find p = some c → c.count = (h.held ++ ext).count p
  live : ∀ p ∈ h.held ++ ext, (h.find p).isSome
  used : ∀ p c, h.find p = some c → 0 < c.count

namespace Counted

lemma perm {ext' : List Nat} (hc : Counted h ext) (hperm : ext.Perm ext') : Counted h ext' := by
  refine ⟨fun p c hp => ?_, fun p hp => ?_, hc.used⟩
  · rw [hc.count p c hp]
    exact (hperm.append_left _).count_eq _
  · exact hc.live p ((hperm.append_left _).mem_iff.mpr hp)

lemma find_isSome (hcounted : Counted h (p :: ext)) : ∃ c, h.find p = some c :=
  Option.isSome_iff_exists.mp (hcounted.live p (by simp))

/-- An object changes, and the pointers to the other objects stay as many as they were. -/
lemma put (hcounted : Counted h ext) (hc : h.find p = some c) {c' : Cell κ} {ext' : List Nat}
    (hself : c'.count = ((h.put p (some c')).held ++ ext').count p) (hpos : 0 < c'.count)
    (hother : ∀ q ≠ p, ((h.put p (some c')).held ++ ext').count q = (h.held ++ ext).count q) :
    Counted (h.put p (some c')) ext' := by
  have hp : (h.find p).isSome := by simp [hc]
  refine ⟨fun q d hd => ?_, fun q hq => ?_, fun q d hd => ?_⟩
  · rw [Heap.find_put hp] at hd
    by_cases hqp : q = p
    · rw [if_pos hqp] at hd
      cases hd
      rw [hself, hqp]
    · rw [if_neg hqp] at hd
      rw [hother q hqp]
      exact hcounted.count q d hd
  · rw [Heap.find_put hp]
    by_cases hqp : q = p
    · simp [hqp]
    · rw [if_neg hqp]
      have hcount := List.count_pos_iff.mpr hq
      rw [hother q hqp] at hcount
      exact hcounted.live q (List.count_pos_iff.mp hcount)
  · rw [Heap.find_put hp] at hd
    by_cases hqp : q = p
    · rw [if_pos hqp] at hd
      cases hd
      exact hpos
    · rw [if_neg hqp] at hd
      exact hcounted.used q d hd

/-- One of several pointers to an object goes. -/
lemma decrement (hcounted : Counted h (p :: ext)) (hc : h.find p = some c) (hne : c.count ≠ 1) :
    Counted (h.put p (some { c with count := c.count - 1 })) ext := by
  have hheld := (List.perm_append_left_iff _).mp (Heap.held_put hc (some { c with
    count := c.count - 1 }))
  have hcount := hcounted.count p c hc
  have hpos := hcounted.used p c hc
  rw [List.count_append, List.count_cons_self] at hcount
  refine hcounted.put hc ?_ ?_ fun q hq => ?_
  · rw [List.count_append, hheld.count_eq]
    show c.count - 1 = _
    omega
  · show 0 < c.count - 1
    omega
  · rw [List.count_append, List.count_append, hheld.count_eq, List.count_cons_of_ne (Ne.symm hq)]

/-- A pointer is copied. -/
lemma retain (hcounted : Counted h ext) (hp : (h.find p).isSome) :
    Counted (h.retain p) (p :: ext) := by
  obtain ⟨c, hc⟩ := Option.isSome_iff_exists.mp hp
  have hheld := (List.perm_append_left_iff _).mp (Heap.held_put hc (some { c with
    count := c.count + 1 }))
  rw [Heap.retain_eq hc]
  refine hcounted.put hc ?_ (Nat.succ_pos _) fun q hq => ?_
  · rw [List.count_append, hheld.count_eq, List.count_cons_self, ← Nat.add_assoc,
      ← List.count_append, ← hcounted.count p c hc]
  · rw [List.count_append, List.count_append, hheld.count_eq, List.count_cons_of_ne (Ne.symm hq)]

/-- An object takes pointers from outside and gives others away. -/
lemma modify (hcounted : Counted h ext) {b b' : κ} (hb : h.body p = some b) {ext' : List Nat}
    (hperm : (pointers b' ++ ext').Perm (pointers b ++ ext)) : Counted (h.modify p b') ext' := by
  obtain ⟨c, hc, rfl⟩ := Heap.body_eq_some_iff.mp hb
  have hheld := Heap.held_put hc (some { c with body := b' })
  have htotal : ((h.put p (some { c with body := b' })).held ++ ext').Perm (h.held ++ ext) := by
    refine (List.perm_append_left_iff (pointers c.body)).mp ?_
    calc pointers c.body ++ ((h.put p (some { c with body := b' })).held ++ ext')
        |>.Perm (pointers b' ++ h.held ++ ext') := by
          rw [← List.append_assoc]
          exact hheld.append_right _
      _ |>.Perm (h.held ++ (pointers b' ++ ext')) := by
          rw [← List.append_assoc]
          exact List.perm_append_comm.append_right _
      _ |>.Perm (h.held ++ (pointers c.body ++ ext)) := hperm.append_left _
      _ |>.Perm (pointers c.body ++ (h.held ++ ext)) := by
          simp only [← List.append_assoc]
          exact List.perm_append_comm.append_right _
  rw [Heap.modify_eq hc]
  refine hcounted.put hc ?_ (hcounted.used p c hc) fun q _ => htotal.count_eq q
  rw [htotal.count_eq]
  exact hcounted.count p c hc

/-- An object is made of pointers from outside. -/
lemma allocate {b : κ} (hcounted : Counted h (pointers b ++ ext)) :
    Counted (h.allocate b).2 ((h.allocate b).1 :: ext) := by
  have hnew : (h.allocate b).1 ∉ h.held ++ (pointers b ++ ext) := fun hmem => by
    have hlive := hcounted.live _ hmem
    simp [Heap.find_allocate_fst] at hlive
  have htotal : ((h.allocate b).2.held ++ (h.allocate b).1 :: ext).Perm
      ((h.allocate b).1 :: (h.held ++ (pointers b ++ ext))) := by
    rw [Heap.held_allocate, ← List.append_assoc]
    exact List.perm_middle
  refine ⟨fun q d hd => ?_, fun q hq => ?_, fun q d hd => ?_⟩
  · rw [htotal.count_eq]
    rw [Heap.find_allocate] at hd
    by_cases hq : q = (h.allocate b).1
    · rw [if_pos hq] at hd
      cases hd
      rw [hq, List.count_cons_self, List.count_eq_zero_of_not_mem hnew]
    · rw [if_neg hq] at hd
      rw [List.count_cons_of_ne (Ne.symm hq)]
      exact hcounted.count q d hd
  · rw [Heap.find_allocate]
    by_cases heq : q = (h.allocate b).1
    · simp [heq]
    · rw [if_neg heq]
      exact hcounted.live q ((List.mem_cons.mp (htotal.mem_iff.mp hq)).resolve_left heq)
  · rw [Heap.find_allocate] at hd
    by_cases hq : q = (h.allocate b).1
    · rw [if_pos hq] at hd
      cases hd
      exact Nat.one_pos
    · rw [if_neg hq] at hd
      exact hcounted.used q d hd

/-- An object that another pointer leads to is not the one whose last pointer goes. -/
lemma ne_of_last (hcounted : Counted h (p :: ext)) (hc : h.find p = some c)
    (hlast : c.count = 1) {q : Nat} (hq : q ∈ h.held ++ ext) : q ≠ p := by
  rintro rfl
  have hcount := hcounted.count q c hc
  rw [hlast, List.count_append, List.count_cons_self, ← Nat.add_assoc,
    ← List.count_append] at hcount
  have hpos := List.count_pos_iff.mpr hq
  omega

/-- The last pointer to an object goes, and the object with it. -/
lemma destroy (hcounted : Counted h (p :: ext)) (hc : h.find p = some c) (hlast : c.count = 1) :
    Counted (h.put p none) (pointers c.body ++ ext) := by
  have htotal : ((h.put p none).held ++ (pointers c.body ++ ext)).Perm (h.held ++ ext) := by
    rw [← List.append_assoc]
    exact (List.perm_append_comm.trans (Heap.held_put hc none)).append_right _
  have hp : (h.find p).isSome := by simp [hc]
  refine ⟨fun q d hd => ?_, fun q hq => ?_, fun q d hd => ?_⟩
  · rw [Heap.find_put hp] at hd
    split at hd
    · cases hd
    · next hq =>
      rw [htotal.count_eq, hcounted.count q d hd, List.count_append, List.count_append,
        List.count_cons_of_ne (Ne.symm hq)]
  · have hmem := htotal.mem_iff.mp hq
    rw [Heap.find_put hp, if_neg (hcounted.ne_of_last hc hlast hmem)]
    refine hcounted.live q ?_
    rw [List.mem_append, List.mem_cons]
    exact (List.mem_append.mp hmem).imp_right .inr
  · rw [Heap.find_put hp] at hd
    split at hd
    · cases hd
    · exact hcounted.used q d hd

end Counted

end Counts

/-! ### Releases -/

section Release

variable {κ : Type u} {σ : Type v} [Holder κ]

/-- Release pointers one after the other, in at most a number of steps. What a destructor does
besides releasing pointers may be undefined, and so is a pointer that leads nowhere. -/
def releaseWithin (destroy : κ → σ → Option σ) :
    Nat → Heap κ → σ → List Nat → Option (Heap κ × σ)
  | _, h, s, [] => some (h, s)
  | 0, _, _, _ :: _ => none
  | n + 1, h, s, p :: ps =>
    match h.find p with
    | none => none
    | some c =>
      if c.count = 1 then
        (destroy c.body s).bind fun s =>
          releaseWithin destroy n (h.put p none) s (pointers c.body ++ ps)
      else releaseWithin destroy n (h.put p (some { c with count := c.count - 1 })) s ps

/-- Release pointers. Each step takes one pointer from those that there are. -/
def release (destroy : κ → σ → Option σ) (h : Heap κ) (s : σ) (ps : List Nat) :
    Option (Heap κ × σ) :=
  releaseWithin destroy (ps.length + h.held.length) h s ps

variable {destroy : κ → σ → Option σ} {h : Heap κ} {s : σ} {p : Nat} {ps : List Nat} {c : Cell κ}

@[simp] lemma release_nil : release destroy h s [] = some (h, s) := by
  rw [release, releaseWithin]

lemma release_cons_gone (hp : h.find p = none) : release destroy h s (p :: ps) = none := by
  rw [release, List.length_cons, Nat.succ_add, releaseWithin, hp]

/-- The last pointer to an object: the object is destroyed, its pointers are released next. -/
lemma release_cons_last (hc : h.find p = some c) (hlast : c.count = 1) :
    release destroy h s (p :: ps) =
      (destroy c.body s).bind fun s =>
        release destroy (h.put p none) s (pointers c.body ++ ps) := by
  have hlength := (Heap.held_put hc none).length_eq
  have hsteps : ps.length + h.held.length =
      (pointers c.body ++ ps).length + (h.put p none).held.length := by
    simp only [List.length_append, pointersOf, Option.elim_none, List.length_nil] at hlength ⊢
    omega
  simp only [release, List.length_cons, Nat.succ_add, releaseWithin, hc, if_pos hlast, hsteps]

/-- One of several pointers to an object. -/
lemma release_cons_shared (hc : h.find p = some c) (hne : c.count ≠ 1) :
    release destroy h s (p :: ps) =
      release destroy (h.put p (some { c with count := c.count - 1 })) s ps := by
  have hlength := (Heap.held_put hc (some { c with count := c.count - 1 })).length_eq
  have hsteps : ps.length + h.held.length =
      ps.length + (h.put p (some { c with count := c.count - 1 })).held.length := by
    simp only [List.length_append, pointersOf, Option.elim_some] at hlength
    omega
  simp only [release, List.length_cons, Nat.succ_add, releaseWithin, hc, if_neg hne, hsteps]

/-- A release follows the steps of the pointers: what holds of them all with a shorter way to go
holds of each. -/
theorem release_induction {motive : Heap κ → σ → List Nat → Prop}
    (nil : ∀ h s, motive h s [])
    (gone : ∀ h s p ps, h.find p = none → motive h s (p :: ps))
    (shared : ∀ h s p ps c, h.find p = some c → c.count ≠ 1 →
      motive (h.put p (some { c with count := c.count - 1 })) s ps → motive h s (p :: ps))
    (last : ∀ h s p ps c, h.find p = some c → c.count = 1 →
      (∀ s', motive (h.put p none) s' (pointers c.body ++ ps)) → motive h s (p :: ps))
    (h : Heap κ) (s : σ) (ps : List Nat) : motive h s ps := by
  generalize hn : ps.length + h.held.length = n
  induction n generalizing h s ps with
  | zero =>
    obtain rfl := List.length_eq_zero_iff.mp (Nat.eq_zero_of_add_eq_zero_right hn)
    exact nil h s
  | succ n ih =>
    cases ps with
    | nil => exact nil h s
    | cons p ps =>
      cases hc : h.find p with
      | none => exact gone h s p ps hc
      | some c =>
        by_cases hlast : c.count = 1
        · have hlength := (Heap.held_put hc none).length_eq
          refine last h s p ps c hc hlast fun s' => ih _ _ _ ?_
          simp only [List.length_append, List.length_cons, pointersOf, Option.elim_none,
            List.length_nil] at hlength hn ⊢
          omega
        · have hlength := (Heap.held_put hc (some { c with count := c.count - 1 })).length_eq
          refine shared h s p ps c hc hlast (ih _ _ _ ?_)
          simp only [List.length_append, List.length_cons, pointersOf, Option.elim_some]
            at hlength hn
          omega

/-- Pointers are released in their order. -/
theorem release_append (h : Heap κ) (s : σ) (ps qs : List Nat) :
    release destroy h s (ps ++ qs) =
      (release destroy h s ps).bind fun r => release destroy r.1 r.2 qs := by
  induction h, s, ps using release_induction with
  | nil h s => rw [List.nil_append, release_nil, Option.bind_some]
  | gone h s p ps hp => rw [List.cons_append, release_cons_gone hp, release_cons_gone hp,
      Option.bind_none]
  | shared h s p ps c hc hne ih =>
    rw [List.cons_append, release_cons_shared hc hne, release_cons_shared hc hne, ih]
  | last h s p ps c hc hlast ih =>
    rw [List.cons_append, release_cons_last hc hlast, release_cons_last hc hlast, Option.bind_assoc]
    refine Option.bind_congr fun s' _ => ?_
    rw [← List.append_assoc, ih]

variable (destroy) in
/-- What every step of a release keeps holds after it, and the release is defined. -/
theorem release_rule (I : Heap κ → σ → List Nat → Prop) {ext : List Nat}
    (hshared : ∀ h s p ps c, Counted h (p :: ps ++ ext) → I h s (p :: ps) → h.find p = some c →
      c.count ≠ 1 → I (h.put p (some { c with count := c.count - 1 })) s ps)
    (hlast : ∀ h s p ps c, Counted h (p :: ps ++ ext) → I h s (p :: ps) → h.find p = some c →
      c.count = 1 → ∃ s', destroy c.body s = some s' ∧ I (h.put p none) s' (pointers c.body ++ ps))
    (hcounted : Counted h (ps ++ ext)) (hI : I h s ps) :
    ∃ h' s', release destroy h s ps = some (h', s') ∧ Counted h' ext ∧ I h' s' [] := by
  induction h, s, ps using release_induction with
  | nil h s => exact ⟨h, s, release_nil, hcounted, hI⟩
  | gone h s p ps hp =>
    obtain ⟨c, hc⟩ := hcounted.find_isSome
    rw [hp] at hc
    cases hc
  | shared h s p ps c hc hne ih =>
    rw [release_cons_shared hc hne]
    exact ih (hcounted.decrement hc hne) (hshared h s p ps c hcounted hI hc hne)
  | last h s p ps c hc hcount ih =>
    obtain ⟨s', hs', hI'⟩ := hlast h s p ps c hcounted hI hc hcount
    rw [release_cons_last hc hcount, hs', Option.bind_some]
    refine ih s' ?_ hI'
    rw [List.append_assoc]
    exact hcounted.destroy hc hcount

end Release

/-! ### Cycles -/

section Ranks

variable {κ : Type u} [Holder κ] {h : Heap κ}

/-- When there is no pointer from outside, each object is held by an object. -/
lemma Counted.exists_holder (hcounted : Counted h []) {p : Nat} {b : κ} (hb : h.body p = some b) :
    ∃ q b', h.body q = some b' ∧ p ∈ pointers b' := by
  obtain ⟨c, hc, -⟩ := Heap.body_eq_some_iff.mp hb
  have hpos := hcounted.used p c hc
  rw [hcounted.count p c hc, List.append_nil] at hpos
  obtain ⟨q, d, hd, hmem⟩ := Heap.exists_of_mem_held (List.count_pos_iff.mp hpos)
  exact ⟨q, d.body, Heap.body_eq_some_iff.mpr ⟨d, hd, rfl⟩, hmem⟩

/-- Where each object holds only objects of a lower rank, none is left without a pointer from
outside. -/
theorem Counted.body_eq_none (hcounted : Counted h []) (rank : κ → Nat)
    (hrank : ∀ q b', h.body q = some b' → ∀ p ∈ pointers b', ∀ b, h.body p = some b →
      rank b < rank b') (p : Nat) : h.body p = none := by
  -- from an object the holders lead to objects of any rank
  have hclimb : ∀ n p b, h.body p = some b → ∃ q b', h.body q = some b' ∧ n ≤ rank b' := by
    intro n
    induction n with
    | zero => exact fun p b hb => ⟨p, b, hb, Nat.zero_le _⟩
    | succ n ih =>
      intro p b hb
      obtain ⟨q, b', hb', hle⟩ := ih p b hb
      obtain ⟨r, b'', hb'', hmem⟩ := hcounted.exists_holder hb'
      exact ⟨r, b'', hb'', Nat.lt_of_le_of_lt hle (hrank r b'' hb'' q hmem b' hb')⟩
  obtain ⟨n, hn⟩ := h.exists_bound rank
  cases hb : h.body p with
  | none => rfl
  | some b =>
    obtain ⟨q, b', hb', hle⟩ := hclimb n p b hb
    exact absurd (hn q b' hb') (Nat.not_lt_of_le hle)

end Ranks

end Shared
