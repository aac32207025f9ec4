import CodaDb.Bind.Mapping

/-!
# What the parameters stand for

A number or a name, which a value is bound to. The matches of the regular expressions are the
parameters of a text, and `std::stol` reads the numbers of those that have one.
-/

namespace CodaDb

namespace SqlParam

/-- The number that `std::stol` reads. -/
def number (ds : Digits) : Nat := Nat.ofDigitChars 10 ds 0

/-- The name of a parameter, as the text has it. -/
def nameOf (n : ParamName) : String := String.ofList (SqlParam.name n).text

/-- The names of a text as they come. -/
def names (ps : List SqlParam) : List String :=
  (ps.filter isName).map fun p => String.ofList p.text

/-- The parameters of a text that have a number. -/
def indexed (ps : List SqlParam) : List SqlParam := ps.filter isIndex

def isQuestion : SqlParam → Bool
  | .question => true
  | .dollar _ | .name _ => false

/-- The parameters whose numbers `std::stol` can read. -/
def Readable (ps : List SqlParam) : Prop :=
  ∀ ds, SqlParam.dollar ds ∈ ps → number ds < 2 ^ 63

end SqlParam

/-- What a value is bound to. -/
inductive BindTarget where
  | index (i : Nat)
  | name (s : String)
deriving DecidableEq, Repr

namespace BindTarget

/-- What the parameters stand for, after so many question marks: the next question mark for the
next number. -/
def ofParams : Nat → List SqlParam → List BindTarget
  | _, [] => []
  | count, .question :: ps => index (count + 1) :: ofParams (count + 1) ps
  | count, .dollar ds :: ps => index (SqlParam.number ds) :: ofParams count ps
  | count, .name n :: ps => name (SqlParam.nameOf n) :: ofParams count ps

end BindTarget

namespace SqlParam

lemma stol_digits (ds : Digits) :
    IntKind.long.stoSigned ds.val = IntKind.long.check (number ds) :=
  IntKind.stoSigned_digits .long ds.2.1 ds.2.2

lemma check_long {n : Nat} (h : n < 2 ^ 63) : ∃ v, IntKind.long.check n = some v ∧ v.val = n := by
  have hrange : IntKind.long.min ≤ (n : Int) ∧ (n : Int) ≤ IntKind.long.max := by
    simp only [IntKind.min, IntKind.max]
    omega
  exact ⟨⟨n, hrange⟩, dif_pos hrange, rfl⟩

lemma check_long_eq_none {n : Nat} (h : ¬n < 2 ^ 63) : IntKind.long.check n = none := by
  refine dif_neg fun hrange => ?_
  simp only [IntKind.min, IntKind.max] at hrange
  omega

lemma matchesOf_paramRegex {ps : SqlParts} (h : ps.Reads) :
    Bindable.matchesOf Bindable.paramRegex (String.ofList ps.text) =
      ps.params.map fun p => String.ofList p.text := by
  rw [Bindable.matchesOf, String.toList_ofList, SqlParts.findAll_text h, List.map_map]
  rfl

lemma matchesOf_indexRegex {ps : SqlParts} (h : ps.Reads) :
    Bindable.matchesOf Bindable.indexRegex (String.ofList ps.text) =
      (indexed ps.params).map fun p => String.ofList p.text := by
  rw [Bindable.matchesOf, String.toList_ofList, SqlParts.findAll_indexRegex_text h,
    List.map_map]
  rfl

lemma matchesOf_namedRegex {ps : SqlParts} (h : ps.Reads) :
    Bindable.matchesOf Bindable.namedRegex (String.ofList ps.text) =
      names ps.params := by
  rw [Bindable.matchesOf, String.toList_ofList, SqlParts.findAll_namedRegex_text h,
    List.map_map]
  rfl

lemma isEmpty_of_mem_names {ps : List SqlParam} {s : String} (h : s ∈ names ps) :
    s.isEmpty = false := by
  obtain ⟨p, -, rfl⟩ := List.mem_map.mp h
  have hne : p.text ≠ [] := by cases p <;> nofun
  simpa [String.isEmpty_iff] using hne

lemma name_mem_ofParams {ps : List SqlParam} {s : String} (count : Nat) :
    BindTarget.name s ∈ BindTarget.ofParams count ps ↔ s ∈ names ps := by
  induction ps generalizing count with
  | nil => exact ⟨nofun, nofun⟩
  | cons p ps ih =>
    cases p with
    | question => rw [BindTarget.ofParams, List.mem_cons, or_iff_right nofun, ih]; rfl
    | dollar d => rw [BindTarget.ofParams, List.mem_cons, or_iff_right nofun, ih]; rfl
    | name n =>
      rw [BindTarget.ofParams, List.mem_cons, ih, BindTarget.name.injEq]
      exact List.mem_cons.symm

end SqlParam

end CodaDb
