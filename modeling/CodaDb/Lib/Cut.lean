import Mathlib.Data.List.Basic
import Mathlib.Tactic.Lemma

/-!
# Positions in a text

Searches for a letter or a word from one position of a text to another, and the letters between two
positions. A search that finds nothing ends at the end of its range. The positions are those that
cut the text around the letters that are found.
-/

universe u

namespace Cut

variable {α : Type u}

/-- The letters between two positions, where these are in order and in the text. -/
def range (xs : List α) (first last : Nat) : Option (List α) :=
  if first ≤ last ∧ last ≤ xs.length then some ((xs.take last).drop first) else none

lemma take_drop_append {xs pre mid post : List α} (h : xs = pre ++ (mid ++ post)) :
    (xs.take (pre.length + mid.length)).drop pre.length = mid := by
  rw [h, ← List.append_assoc, ← List.length_append, List.take_left, List.drop_left]

lemma range_append {xs pre mid post : List α} (h : xs = pre ++ (mid ++ post)) {first last : Nat}
    (hfirst : first = pre.length) (hlast : last = pre.length + mid.length) :
    range xs first last = some mid := by
  subst hfirst hlast
  rw [range, take_drop_append h, if_pos]
  simp only [h, List.length_append]
  omega

lemma exists_range {xs : List α} {first last : Nat} (h : first ≤ last) (hlast : last ≤ xs.length) :
    ∃ mid, range xs first last = some mid := ⟨_, if_pos ⟨h, hlast⟩⟩

/-- The first occurrence of a letter is not behind another one. -/
lemma length_le_of_notMem {a : α} {xs ys xs' ys' : List α} (ha : a ∉ xs)
    (h : xs ++ a :: ys = xs' ++ a :: ys') : xs.length ≤ xs'.length := by
  induction xs generalizing xs' with
  | nil => exact Nat.zero_le _
  | cons x xs ih =>
    rw [List.mem_cons, not_or] at ha
    cases xs' with
    | nil => exact absurd (List.cons.inj h).1.symm ha.1
    | cons x' xs' => exact Nat.succ_le_succ (ih ha.2 (List.cons.inj h).2)

variable [DecidableEq α]

/-- The first position between two others with this letter, or the last one. -/
def find (xs : List α) (first last : Nat) (a : α) : Nat :=
  first + ((xs.take last).drop first).idxOf a

/-- The first position where a word begins, or the end of the text. -/
def search (word : List α) : List α → Nat
  | [] => 0
  | x :: xs => if word.isPrefixOf (x :: xs) then 0 else search word xs + 1

/-- What follows the first occurrence of a word, if there is one. -/
def after (word : List α) : List α → Option (List α)
  | [] => none
  | x :: xs => if word <+: x :: xs then some ((x :: xs).drop word.length) else after word xs

lemma le_find {xs : List α} {first last : Nat} {a : α} : first ≤ find xs first last a :=
  Nat.le_add_right ..

lemma find_le {xs : List α} {first last : Nat} {a : α} (h : first ≤ last) :
    find xs first last a ≤ last := by
  have hlength : ((xs.take last).drop first).length ≤ last - first := by
    rw [List.length_drop, List.length_take]
    omega
  have hidx : ((xs.take last).drop first).idxOf a ≤ ((xs.take last).drop first).length :=
    List.idxOf_le_length
  rw [find]
  omega

lemma find_self {xs : List α} {first : Nat} {a : α} : find xs first first a = first :=
  Nat.le_antisymm (find_le (Nat.le_refl first)) le_find

lemma idxOf_append_cons {a : α} {ys : List α} (ha : a ∉ ys) (zs : List α) :
    (ys ++ a :: zs).idxOf a = ys.length := by
  rw [List.idxOf_append_of_notMem ha, List.idxOf_cons_self, Nat.add_zero]

/-- A letter that does not occur before is found. -/
lemma find_append {a : α} {xs pre mid post : List α} (h : xs = pre ++ (mid ++ a :: post))
    (ha : a ∉ mid) {first last : Nat} (hfirst : first = pre.length)
    (hlast : pre.length + mid.length < last) : find xs first last a = pre.length + mid.length := by
  have hlength : (pre ++ mid).length < last := by rwa [List.length_append]
  obtain ⟨n, hn⟩ := Nat.exists_eq_add_of_lt hlength
  have htake : xs.take last = pre ++ (mid ++ a :: post.take n) := by
    rw [h, ← List.append_assoc, hn, Nat.add_assoc, List.take_length_add_append,
      List.take_succ_cons, List.append_assoc]
  rw [find, htake, hfirst, List.drop_left, idxOf_append_cons ha]

/-- A letter that does not occur in the range is not found. -/
lemma find_last {a : α} {xs pre mid post : List α} (h : xs = pre ++ (mid ++ post)) (ha : a ∉ mid)
    {first last : Nat} (hfirst : first = pre.length) (hlast : last = pre.length + mid.length) :
    find xs first last a = last := by
  subst hfirst hlast
  rw [find, take_drop_append h, List.idxOf_eq_length ha]

/-! ### Words -/

/-- Nothing is found before the first place where the word begins. -/
lemma search_append {word pre post : List α}
    (h : ∀ u v, pre = u ++ v → v ≠ [] → ¬word <+: v ++ (word ++ post)) (hword : word ≠ []) :
    search word (pre ++ (word ++ post)) = pre.length := by
  induction pre with
  | nil =>
    obtain ⟨x, xs, rfl⟩ := List.exists_cons_of_ne_nil hword
    have hprefix : (x :: xs).isPrefixOf (x :: (xs ++ post)) = true :=
      List.isPrefixOf_iff_prefix.mpr ⟨post, rfl⟩
    rw [List.nil_append, List.cons_append, search, if_pos hprefix]
    rfl
  | cons x pre ih =>
    have hprefix : ¬word.isPrefixOf (x :: (pre ++ (word ++ post))) = true := by
      rw [List.isPrefixOf_iff_prefix]
      exact h [] (x :: pre) rfl (List.cons_ne_nil x pre)
    rw [List.cons_append, search, if_neg hprefix, ih, List.length_cons]
    intro u v huv
    exact h (x :: u) v (by rw [huv, List.cons_append])

/-- A word that occurs is found, not behind that place. -/
lemma exists_search_eq {word xs pre post : List α} (hword : word ≠ [])
    (h : xs = pre ++ (word ++ post)) :
    ∃ pre' post', xs = pre' ++ (word ++ post') ∧ search word xs = pre'.length ∧
      pre'.length ≤ pre.length := by
  subst h
  induction pre with
  | nil =>
    refine ⟨[], post, rfl, search_append ?_ hword, Nat.le_refl 0⟩
    intro u v huv hv
    exact absurd (List.append_eq_nil_iff.mp huv.symm).2 hv
  | cons x pre ih =>
    rw [List.cons_append, search]
    split
    · next hprefix =>
      obtain ⟨post', hpost⟩ := List.isPrefixOf_iff_prefix.mp hprefix
      exact ⟨[], post', hpost.symm, rfl, Nat.zero_le _⟩
    · obtain ⟨pre', post', hxs, hsearch, hle⟩ := ih
      refine ⟨x :: pre', post', ?_, ?_, ?_⟩
      · rw [hxs, List.cons_append]
      · rw [hsearch, List.length_cons]
      · rw [List.length_cons, List.length_cons]
        omega

lemma search_of_after_eq_none {word xs : List α} (h : after word xs = none) :
    search word xs = xs.length := by
  induction xs with
  | nil => rfl
  | cons x xs ih =>
    rw [after] at h
    split at h
    · cases h
    · next hword =>
      rw [search, if_neg (by rwa [List.isPrefixOf_iff_prefix]), ih h, List.length_cons]

lemma search_of_after_eq_some {word xs post : List α} (h : after word xs = some post) :
    ∃ pre, xs = pre ++ (word ++ post) ∧ search word xs = pre.length := by
  induction xs with
  | nil => cases h
  | cons x xs ih =>
    rw [after] at h
    split at h
    · next hword =>
      obtain ⟨rest, hrest⟩ := hword
      rw [← hrest, List.drop_left] at h
      cases h
      refine ⟨[], hrest.symm, ?_⟩
      rw [search, if_pos (by rw [List.isPrefixOf_iff_prefix, ← hrest]; exact ⟨post, rfl⟩)]
      rfl
    · next hword =>
      obtain ⟨pre, rfl, hsearch⟩ := ih h
      refine ⟨x :: pre, rfl, ?_⟩
      rw [search, if_neg (by rwa [List.isPrefixOf_iff_prefix]), hsearch, List.length_cons]

/-- A word of one letter. -/
lemma after_singleton_eq_some {a : α} {xs post : List α} (h : after [a] xs = some post) :
    ∃ pre, xs = pre ++ a :: post ∧ a ∉ pre := by
  induction xs with
  | nil => cases h
  | cons x xs ih =>
    rw [after] at h
    split at h
    · next hword =>
      obtain ⟨rest, hrest⟩ := hword
      rw [← hrest, List.drop_left] at h
      cases h
      exact ⟨[], hrest.symm, List.not_mem_nil⟩
    · next hword =>
      obtain ⟨pre, rfl, hpre⟩ := ih h
      refine ⟨x :: pre, rfl, ?_⟩
      rw [List.mem_cons, not_or]
      refine ⟨?_, hpre⟩
      rintro rfl
      exact hword ⟨_, rfl⟩

lemma after_singleton_eq_none {a : α} {xs : List α} (h : after [a] xs = none) : a ∉ xs := by
  induction xs with
  | nil => exact List.not_mem_nil
  | cons x xs ih =>
    rw [after] at h
    split at h
    · cases h
    · next hword =>
      rw [List.mem_cons, not_or]
      refine ⟨?_, ih h⟩
      rintro rfl
      exact hword ⟨xs, rfl⟩

end Cut
