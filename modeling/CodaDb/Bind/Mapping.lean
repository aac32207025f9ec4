import CodaDb.Bind.Parameter
import CodaDb.Sql.Convert
import Mathlib.Data.List.Sort
import Mathlib.Logic.Function.Basic

/-!
# `bind_mapping`

The names of a text, each mapped to the numbers of its occurrences, which follow those of the other
parameters.
-/

namespace CodaDb

namespace Bindable

/-- What a `std::sregex_iterator` goes through. -/
def matchesOf (regex : Search.Matcher Char) (sql : String) : List String :=
  (Search.findAll regex sql.toList).map String.ofList

end Bindable

/-- Insert a number into a `std::set`. -/
def insertIndex (i : Nat) (s : List Nat) : List Nat :=
  if i ∈ s then s else s.orderedInsert (· ≤ ·) i

lemma mem_insertIndex {i x : Nat} {s : List Nat} : x ∈ insertIndex i s ↔ x = i ∨ x ∈ s := by
  rw [insertIndex]
  split
  · next hi => exact ⟨.inr, fun h => h.elim (fun hx => hx ▸ hi) id⟩
  · rw [List.mem_orderedInsert]

/-- A number that is greater than all others is the last one. -/
lemma insertIndex_of_lt {i : Nat} {s : List Nat} (h : ∀ x ∈ s, x < i) :
    insertIndex i s = s ++ [i] := by
  have hi : i ∉ s := fun hi => Nat.lt_irrefl i (h i hi)
  rw [insertIndex, if_neg hi]
  clear hi
  induction s with
  | nil => rfl
  | cons x s ih =>
    have hx : ¬i ≤ x := Nat.not_le_of_lt (h x (List.mem_cons_self ..))
    rw [List.orderedInsert_cons, if_neg hx, ih fun y hy => h y (List.mem_cons_of_mem x hy)]
    rfl

/-- `mappings_`; a name that is not there maps to `none`. -/
abbrev BindMapping := String → Option (List Nat)

namespace BindMapping

def addNamedParam (mappings : BindMapping) (name : String) (index : Nat) : BindMapping :=
  if name.isEmpty then mappings
  else Function.update mappings name (some (insertIndex index ((mappings name).getD [])))

/-- The loop of `prepare` over the matches. -/
def addAll (mappings : BindMapping) : Nat → List String → BindMapping
  | _, [] => mappings
  | maxIndex, name :: names =>
    addAll (mappings.addNamedParam name (maxIndex + 1)) (maxIndex + 1) names

/-- `bind_mapping::prepare` -/
def prepare (sql : String) (maxIndex : Nat) : BindMapping :=
  addAll (fun _ => none) maxIndex (Bindable.matchesOf Bindable.namedRegex sql)

/-- The numbers of a name among the names that are numbered from here on. -/
def numbers (name : String) : Nat → List String → List Nat
  | _, [] => []
  | maxIndex, other :: names =>
    if other = name then (maxIndex + 1) :: numbers name (maxIndex + 1) names
    else numbers name (maxIndex + 1) names

lemma mem_numbers {name : String} {maxIndex x : Nat} {names : List String} :
    x ∈ numbers name maxIndex names ↔ ∃ l : Nat, names[l]? = some name ∧ x = maxIndex + l + 1 := by
  induction names generalizing maxIndex with
  | nil => simp [numbers]
  | cons other names ih =>
    have hsplit : (∃ l : Nat, (other :: names)[l]? = some name ∧ x = maxIndex + l + 1) ↔
        other = name ∧ x = maxIndex + 1 ∨
          ∃ l : Nat, names[l]? = some name ∧ x = maxIndex + 1 + l + 1 := by
      constructor
      · rintro ⟨l, hl, rfl⟩
        cases l with
        | zero => exact .inl ⟨Option.some.inj hl, rfl⟩
        | succ l => exact .inr ⟨l, hl, by omega⟩
      · rintro (⟨rfl, rfl⟩ | ⟨l, hl, rfl⟩)
        · exact ⟨0, rfl, rfl⟩
        · exact ⟨l + 1, hl, by omega⟩
    rw [hsplit, numbers]
    split
    · next h => rw [List.mem_cons, ih, and_iff_right h]
    · next h => rw [ih, or_iff_right fun h' => h h'.1]

/-- The first number of a name is that of its first occurrence. -/
lemma head_numbers {name : String} {names : List String} (h : name ∈ names) (maxIndex : Nat) :
    (numbers name maxIndex names).head? = some (maxIndex + names.idxOf name + 1) := by
  induction names generalizing maxIndex with
  | nil => cases h
  | cons other names ih =>
    rw [numbers]
    split
    · next hname => rw [hname, List.idxOf_cons_self, List.head?_cons]
    · next hname =>
      have hmem := (List.mem_cons.mp h).resolve_left fun heq => hname heq.symm
      rw [ih hmem, List.idxOf_cons_ne _ hname]
      congr 1
      omega

lemma addAll_apply {mappings : BindMapping} {maxIndex : Nat} {names : List String} {name : String}
    (hnames : ∀ n ∈ names, n.isEmpty = false)
    (hle : ∀ x ∈ (mappings name).getD [], x ≤ maxIndex) :
    (mappings.addAll maxIndex names) name =
      if name ∈ names then some ((mappings name).getD [] ++ numbers name maxIndex names)
      else mappings name := by
  induction names generalizing mappings maxIndex with
  | nil => rfl
  | cons other names ih =>
    have htail : ∀ n ∈ names, n.isEmpty = false := fun n hn => hnames n (List.mem_cons_of_mem _ hn)
    have hadd : mappings.addNamedParam other (maxIndex + 1) = Function.update mappings other
        (some (insertIndex (maxIndex + 1) ((mappings other).getD []))) := by
      rw [addNamedParam, hnames other (List.mem_cons_self ..)]
      rfl
    rw [addAll, hadd]
    by_cases hother : other = name
    · subst hother
      have hlast : insertIndex (maxIndex + 1) ((mappings other).getD []) =
          (mappings other).getD [] ++ [maxIndex + 1] :=
        insertIndex_of_lt fun x hx => Nat.lt_succ_of_le (hle x hx)
      have hrec := @ih (Function.update mappings other
        (some ((mappings other).getD [] ++ [maxIndex + 1]))) (maxIndex + 1) htail (by
          rw [Function.update_self, Option.getD_some]
          intro x hx
          obtain hx | hx := List.mem_append.mp hx
          · exact Nat.le_succ_of_le (hle x hx)
          · exact Nat.le_of_eq (List.mem_singleton.mp hx))
      rw [hlast, hrec, Function.update_self, Option.getD_some, if_pos (List.mem_cons_self ..),
        numbers, if_pos rfl]
      split
      · rw [List.append_assoc, List.singleton_append]
      · next hnot =>
        have hnone : numbers other (maxIndex + 1) names = [] := by
          refine List.eq_nil_iff_forall_not_mem.mpr fun x hx => ?_
          obtain ⟨l, hl, -⟩ := mem_numbers.mp hx
          exact hnot (List.mem_of_getElem? hl)
        rw [hnone]
    · have hsame : Function.update mappings other
          (some (insertIndex (maxIndex + 1) ((mappings other).getD []))) name = mappings name :=
        Function.update_of_ne (Ne.symm hother) _ _
      rw [ih htail (by rw [hsame]; exact fun x hx => Nat.le_succ_of_le (hle x hx)), hsame, numbers,
        if_neg hother]
      have hmem : name ∈ other :: names ↔ name ∈ names := by
        rw [List.mem_cons, or_iff_right (Ne.symm hother)]
      simp only [hmem]

/-- What a name is mapped to. -/
lemma prepare_apply {sql : String} {names : List String}
    (hnames : Bindable.matchesOf Bindable.namedRegex sql = names)
    (hempty : ∀ n ∈ names, n.isEmpty = false) (maxIndex : Nat) (name : String) :
    (prepare sql maxIndex) name =
      if name ∈ names then some (numbers name maxIndex names) else none := by
  rw [prepare, hnames, addAll_apply hempty fun x hx => absurd hx List.not_mem_nil]
  rfl

end BindMapping

end CodaDb
