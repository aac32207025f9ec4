import CodaDb.Bind.Target

/-!
# `postgres::binding` with parameter mapping

PostgreSQL knows only numbers. `prepare` replaces the question marks and the names of a text by
numbers, each at the first place where the text as it is by then has the same characters.
-/

namespace CodaDb.Postgres

open Search SqlParam

namespace Binding

/-- `"$" + std::to_string(pos)` -/
def label (pos : Nat) : List Char := '$' :: Nat.toDigits 10 pos

/-- The loop that collects `indexes` and `max_index`; `none` if `std::stol` throws. -/
def countIndexes : List String → List Nat → Nat → Option (List Nat × Nat)
  | [], indexes, maxIndex => some (indexes, maxIndex)
  | str :: strs, indexes, maxIndex =>
    match str.toList with
    | '$' :: digits =>
      match IntKind.long.stoSigned digits with
      | none => none
      | some pos =>
        if pos.val.toNat < maxIndex then countIndexes strs indexes maxIndex
        else countIndexes strs indexes (maxIndex + 1)
    | _ => countIndexes strs (indexes ++ [indexes.length + 1]) (maxIndex + 1)

/-- The loop that replaces the matches; `none` if `std::string::replace` throws, or at the back of
an empty vector. -/
def replaceParams (mappings : BindMapping) :
    List String → List Nat → List Char → Option (List Char)
  | [], _, formatted => some formatted
  | str :: strs, indexes, formatted =>
    if Bindable.isNamedMatch str.toList then
      match (mappings str).getD [] with
      | [] => replaceParams mappings strs indexes formatted
      | pos :: _ =>
        (replaceFirst str.toList (label pos) formatted).bind
          (replaceParams mappings strs indexes)
    else if str.toList.head? = some '?' then
      match indexes.getLast? with
      | none => none
      | some pos =>
        (replaceFirst str.toList (label pos) formatted).bind
          (replaceParams mappings strs indexes.dropLast)
    else replaceParams mappings strs indexes formatted

/-- The mapping of the names and the text for PostgreSQL. -/
def prepare (sql : String) : Option (BindMapping × String) :=
  (countIndexes (Bindable.matchesOf Bindable.indexRegex sql) [] 0).bind fun r =>
    (replaceParams (.prepare sql r.2) (Bindable.matchesOf Bindable.paramRegex sql) r.1
      sql.toList).map fun formatted => (.prepare sql r.2, String.ofList formatted)

/-! ### The numbers -/

/-- `max_index` after these parameters. -/
def maxIndex : Nat → List SqlParam → Nat
  | n, [] => n
  | n, .question :: ps => maxIndex (n + 1) ps
  | n, .dollar ds :: ps => maxIndex (if number ds < n then n else n + 1) ps
  | n, .name _ :: ps => maxIndex n ps

lemma countIndexes_question (strs : List String) (indexes : List Nat) (n : Nat) :
    countIndexes (String.ofList (text .question) :: strs) indexes n =
      countIndexes strs (indexes ++ [indexes.length + 1]) (n + 1) := by
  rw [countIndexes, String.toList_ofList]
  rfl

lemma countIndexes_dollar (ds : Digits) (strs : List String) (indexes : List Nat) (n : Nat)
    (h : number ds < 2 ^ 63) :
    countIndexes (String.ofList (text (.dollar ds)) :: strs) indexes n =
      countIndexes strs indexes (if number ds < n then n else n + 1) := by
  obtain ⟨v, hv, hval⟩ := check_long h
  have hnat : v.val.toNat = number ds := by rw [hval, Int.toNat_natCast]
  rw [countIndexes, String.toList_ofList]
  simp only [text, stol_digits, hv, hnat]
  split <;> rfl

lemma countIndexes_dollar_none (ds : Digits) (strs : List String) (indexes : List Nat) (n : Nat)
    (h : ¬number ds < 2 ^ 63) :
    countIndexes (String.ofList (text (.dollar ds)) :: strs) indexes n = none := by
  rw [countIndexes, String.toList_ofList]
  simp only [text, stol_digits, check_long_eq_none h]

lemma countIndexes_spec {ps : List SqlParam} (hread : Readable ps) (count n : Nat) :
    countIndexes ((indexed ps).map fun p => String.ofList p.text) (List.range' 1 count) n =
      some (List.range' 1 (count + ps.countP isQuestion), maxIndex n ps) := by
  induction ps generalizing count n with
  | nil => rfl
  | cons p ps ih =>
    have hread' : Readable ps := fun ds hds => hread ds (List.mem_cons_of_mem p hds)
    cases p with
    | question =>
      have hpush : List.range' 1 count ++ [(List.range' 1 count).length + 1] =
          List.range' 1 (count + 1) := by
        rw [List.length_range', List.range'_concat, Nat.one_mul, Nat.add_comm 1]
      have hcount : count + 1 + ps.countP isQuestion = count + (ps.countP isQuestion + 1) := by
        omega
      have hfilter : indexed (.question :: ps) = .question :: indexed ps := rfl
      rw [hfilter, List.map_cons, countIndexes_question, hpush, ih hread', hcount,
        List.countP_cons_of_pos rfl, maxIndex]
    | dollar ds =>
      have hfilter : indexed (.dollar ds :: ps) = .dollar ds :: indexed ps := rfl
      rw [hfilter, List.map_cons, countIndexes_dollar _ _ _ _ (hread ds (List.mem_cons_self ..)),
        ih hread', List.countP_cons_of_neg Bool.false_ne_true, maxIndex]
    | name m =>
      have hfilter : indexed (.name m :: ps) = indexed ps := rfl
      rw [hfilter, ih hread', List.countP_cons_of_neg Bool.false_ne_true, maxIndex]

lemma readable_of_countIndexes {ps : List SqlParam} {indexes : List Nat} {n : Nat}
    (h : (countIndexes ((indexed ps).map fun p => String.ofList p.text) indexes n).isSome = true) :
    Readable ps := by
  induction ps generalizing indexes n with
  | nil => exact nofun
  | cons p ps ih =>
    intro ds hds
    cases p with
    | question =>
      have hfilter : indexed (.question :: ps) = .question :: indexed ps := rfl
      rw [hfilter, List.map_cons, countIndexes_question] at h
      exact ih h ds ((List.mem_cons.mp hds).resolve_left nofun)
    | dollar ds' =>
      have hfilter : indexed (.dollar ds' :: ps) = .dollar ds' :: indexed ps := rfl
      rw [hfilter, List.map_cons] at h
      by_cases hsmall : number ds' < 2 ^ 63
      · rw [countIndexes_dollar _ _ _ _ hsmall] at h
        obtain heq | hds := List.mem_cons.mp hds
        · exact SqlParam.dollar.inj heq ▸ hsmall
        · exact ih h ds hds
      · rw [countIndexes_dollar_none _ _ _ _ hsmall] at h
        cases h
    | name m => exact ih h ds ((List.mem_cons.mp hds).resolve_left nofun)

end Binding

end CodaDb.Postgres
