import CodaDb.Mysql.Binding
import Mathlib.Data.List.TakeWhile
import Mathlib.Data.Nat.Find

/-!
# The slots of the parameters

`prepare` numbers the question marks and the numbers first and the names after them, while MySQL
numbers its question marks as they come. The values reach the slots of their parameters exactly if
the question marks come first, the numbers next and the names last, and no number is one that a
question mark or a name has.
-/

namespace CodaDb

namespace Mysql.Binding

open SqlParam

/-- The binding knows the slots of these parameters. -/
structure Knows (ps : List SqlParam) (b : Binding) : Prop where
  mappings : ∀ s, b.mappings_ s = if s ∈ names ps then
    some (BindMapping.numbers s ((indexed ps).length % 2 ^ 32) (names ps)) else none
  indexes : ∀ n x, x ∈ b.indexes_ n ↔ ∃ (j : Nat) (ds : Digits),
    (indexed ps)[j]? = some (.dollar ds) ∧ number ds = n ∧ x = (j + 1) % 2 ^ 32

/-! ### What `prepare` knows -/

lemma addIndexes_question (strs : List String) (index : Nat) (indexes : Nat → List Nat) :
    addIndexes (String.ofList (text .question) :: strs) index indexes =
      addIndexes strs ((index + 1) % 2 ^ 32) indexes := by
  rw [addIndexes, String.toList_ofList]
  rfl

lemma addIndexes_dollar (ds : Digits) (strs : List String) (index : Nat)
    (indexes : Nat → List Nat) (h : number ds < 2 ^ 63) :
    addIndexes (String.ofList (text (.dollar ds)) :: strs) index indexes =
      addIndexes strs ((index + 1) % 2 ^ 32) (Function.update indexes (number ds)
        (insertIndex ((index + 1) % 2 ^ 32) (indexes (number ds)))) := by
  obtain ⟨v, hv, hval⟩ := check_long h
  have hnat : v.val.toNat = number ds := by rw [hval, Int.toNat_natCast]
  rw [addIndexes, String.toList_ofList]
  simp only [text, stol_digits, hv, hnat]

lemma addIndexes_dollar_none (ds : Digits) (strs : List String) (index : Nat)
    (indexes : Nat → List Nat) (h : ¬number ds < 2 ^ 63) :
    addIndexes (String.ofList (text (.dollar ds)) :: strs) index indexes = none := by
  rw [addIndexes, String.toList_ofList]
  simp only [text, stol_digits, check_long_eq_none h]

lemma addIndexes_spec {qs : List SqlParam} (hqs : ∀ p ∈ qs, p.isIndex = true) (hread : Readable qs)
    (c : Nat) (indexes : Nat → List Nat) :
    ∃ indexes', addIndexes (qs.map fun p => String.ofList p.text) (c % 2 ^ 32) indexes =
        some ((c + qs.length) % 2 ^ 32, indexes') ∧
      ∀ n x, x ∈ indexes' n ↔ x ∈ indexes n ∨ ∃ (j : Nat) (ds : Digits),
        qs[j]? = some (.dollar ds) ∧ number ds = n ∧ x = (c + j + 1) % 2 ^ 32 := by
  induction qs generalizing c indexes with
  | nil => exact ⟨indexes, rfl, by simp⟩
  | cons p qs ih =>
    have hqs' : ∀ p ∈ qs, p.isIndex = true := fun p hp => hqs p (List.mem_cons_of_mem _ hp)
    have hread' : Readable qs := fun ds hds => hread ds (List.mem_cons_of_mem _ hds)
    have hnext : (c % 2 ^ 32 + 1) % 2 ^ 32 = (c + 1) % 2 ^ 32 := Nat.mod_add_mod c (2 ^ 32) 1
    have hcount : (c + 1 + qs.length) % 2 ^ 32 = (c + (p :: qs).length) % 2 ^ 32 := by
      rw [List.length_cons, Nat.add_assoc, Nat.add_comm 1]
    -- a place after the first parameter
    have hshift : ∀ n x, (∃ (j : Nat) (ds : Digits), qs[j]? = some (.dollar ds) ∧ number ds = n ∧
        x = (c + 1 + j + 1) % 2 ^ 32) ↔ ∃ (j : Nat) (ds : Digits), 0 < j ∧
          (p :: qs)[j]? = some (.dollar ds) ∧ number ds = n ∧ x = (c + j + 1) % 2 ^ 32 := by
      intro n x
      constructor
      · rintro ⟨j, ds, hj, hn, rfl⟩
        exact ⟨j + 1, ds, Nat.succ_pos j, hj, hn, by rw [Nat.add_assoc c 1 j, Nat.add_comm 1 j]⟩
      · rintro ⟨j, ds, hpos, hj, hn, rfl⟩
        obtain ⟨j, rfl⟩ := Nat.exists_eq_add_one_of_ne_zero (Nat.ne_of_gt hpos)
        exact ⟨j, ds, hj, hn, by rw [Nat.add_assoc c 1 j, Nat.add_comm 1 j]⟩
    rw [List.map_cons]
    cases p with
    | question =>
      obtain ⟨indexes', hrun, hmem⟩ := ih hqs' hread' (c + 1) indexes
      refine ⟨indexes', ?_, fun n x => ?_⟩
      · rw [addIndexes_question, hnext, hrun, hcount]
      · rw [hmem, hshift]
        refine or_congr_right ⟨?_, ?_⟩
        · rintro ⟨j, ds, -, h⟩
          exact ⟨j, ds, h⟩
        · rintro ⟨j, ds, hj, h⟩
          cases j with
          | zero => cases hj
          | succ j => exact ⟨j + 1, ds, Nat.succ_pos j, hj, h⟩
    | dollar ds =>
      have hsmall := hread ds (List.mem_cons_self ..)
      obtain ⟨indexes', hrun, hmem⟩ := ih hqs' hread' (c + 1) (Function.update indexes (number ds)
        (insertIndex ((c + 1) % 2 ^ 32) (indexes (number ds))))
      refine ⟨indexes', ?_, fun n x => ?_⟩
      · rw [addIndexes_dollar ds _ _ _ hsmall, hnext, hrun, hcount]
      · have hfirst : x ∈ Function.update indexes (number ds)
            (insertIndex ((c + 1) % 2 ^ 32) (indexes (number ds))) n ↔
              x ∈ indexes n ∨ number ds = n ∧ x = (c + 1) % 2 ^ 32 := by
          by_cases hn : n = number ds
          · subst hn
            rw [Function.update_self, mem_insertIndex, or_comm, and_iff_right rfl]
          · rw [Function.update_of_ne hn, iff_self_or]
            exact fun h => absurd h.1.symm hn
        rw [hmem, hfirst, hshift, or_assoc]
        refine or_congr_right ⟨?_, ?_⟩
        · rintro (⟨hn, hx⟩ | ⟨j, ds', -, h⟩)
          · exact ⟨0, ds, rfl, hn, hx⟩
          · exact ⟨j, ds', h⟩
        · rintro ⟨j, ds', hj, hn, hx⟩
          cases j with
          | zero =>
            obtain rfl := SqlParam.dollar.inj (Option.some.inj hj)
            exact .inl ⟨hn, hx⟩
          | succ j => exact .inr ⟨j + 1, ds', Nat.succ_pos j, hj, hn, hx⟩
    | name n => exact absurd (hqs _ (List.mem_cons_self ..)) Bool.false_ne_true

lemma readable_of_addIndexes {qs : List SqlParam} (hqs : ∀ p ∈ qs, p.isIndex = true) {c : Nat}
    {indexes : Nat → List Nat}
    (h : (addIndexes (qs.map fun p => String.ofList p.text) c indexes).isSome = true) :
    Readable qs := by
  induction qs generalizing c indexes with
  | nil => exact nofun
  | cons p qs ih =>
    have hqs' : ∀ p ∈ qs, p.isIndex = true := fun p hp => hqs p (List.mem_cons_of_mem _ hp)
    rw [List.map_cons] at h
    intro ds hds
    cases p with
    | question =>
      rw [addIndexes_question] at h
      exact ih hqs' h ds ((List.mem_cons.mp hds).resolve_left nofun)
    | dollar ds' =>
      by_cases hsmall : number ds' < 2 ^ 63
      · rw [addIndexes_dollar ds' _ _ _ hsmall] at h
        obtain heq | hds := List.mem_cons.mp hds
        · exact SqlParam.dollar.inj heq ▸ hsmall
        · exact ih hqs' h ds hds
      · rw [addIndexes_dollar_none ds' _ _ _ hsmall] at h
        cases h
    | name n => exact absurd (hqs _ (List.mem_cons_self ..)) Bool.false_ne_true

/-- The text in which the parameters are question marks. -/
def rewritten (ps : SqlParts) : String :=
  String.ofList (Search.replaceAll CodaDb.Bindable.paramRegex ['?'] ps.text)

/-- A text that can be prepared is, with the slots of its parameters. -/
lemma prepare_spec {ps : SqlParts} (h : ps.Reads) (hread : Readable ps.params) (b : Binding) :
    ∃ b', b.prepare (String.ofList ps.text) = some (b', rewritten ps) ∧ Knows ps.params b' ∧
      b'.value_ = b.value_ := by
  have hqs : ∀ p ∈ indexed ps.params, p.isIndex = true := fun p hp => (List.mem_filter.mp hp).2
  have hread' : Readable (indexed ps.params) := fun ds hds => hread ds (List.mem_filter.mp hds).1
  obtain ⟨indexes, hrun, hmem⟩ := addIndexes_spec hqs hread' 0 fun _ => []
  rw [Nat.zero_mod, Nat.zero_add] at hrun
  refine ⟨{ b with
    mappings_ := .prepare (String.ofList ps.text) ((indexed ps.params).length % 2 ^ 32)
    indexes_ := indexes }, ?_, ⟨fun s => ?_, fun n x => ?_⟩, rfl⟩
  · rw [prepare, matchesOf_indexRegex h, hrun, Option.map_some, String.toList_ofList]
    rfl
  · exact BindMapping.prepare_apply (matchesOf_namedRegex h) (fun _ => isEmpty_of_mem_names) _ s
  · simp only [hmem, List.not_mem_nil, false_or, Nat.zero_add]

lemma readable_of_prepare {ps : SqlParts} (h : ps.Reads) {b : Binding} {r : Binding × String}
    (hprepare : b.prepare (String.ofList ps.text) = some r) : Readable ps.params := by
  rw [prepare, matchesOf_indexRegex h] at hprepare
  obtain ⟨r', hrun, -⟩ := Option.map_eq_some_iff.mp hprepare
  intro ds hds
  have hqs : ∀ p ∈ indexed ps.params, p.isIndex = true := fun p hp => (List.mem_filter.mp hp).2
  exact readable_of_addIndexes hqs (Option.isSome_of_eq_some hrun) ds
    (List.mem_filter.mpr ⟨hds, rfl⟩)

/-! ### Which slots are written -/

variable {ps : List SqlParam} {b : Binding} {x n : Nat}

/-- Whether the number is one of a `$`. -/
def Numbered (ps : List SqlParam) (n : Nat) : Prop := ∃ ds, SqlParam.dollar ds ∈ ps ∧ number ds = n

lemma numbered_iff : Numbered ps n ↔
    ∃ (j : Nat) (ds : Digits), (indexed ps)[j]? = some (.dollar ds) ∧ number ds = n := by
  constructor
  · rintro ⟨ds, hds, hn⟩
    obtain ⟨j, hj⟩ := List.getElem?_of_mem (List.mem_filter.mpr ⟨hds, rfl⟩ : _ ∈ indexed ps)
    exact ⟨j, ds, hj, hn⟩
  · rintro ⟨j, ds, hj, hn⟩
    exact ⟨ds, (List.mem_filter.mp (List.mem_of_getElem? hj)).1, hn⟩

/-- A number that no `$` has is its own slot. -/
lemma Knows.slotsOf_of_not (h : Knows ps b) (hn : ¬Numbered ps n) (hpos : 0 < n) :
    b.slotsOf n = [n] := by
  have hnone : b.indexes_ n = [] := by
    refine List.eq_nil_iff_forall_not_mem.mpr fun x hx => hn ?_
    obtain ⟨j, ds, hj, hnumber, -⟩ := (h.indexes n x).mp hx
    exact numbered_iff.mpr ⟨j, ds, hj, hnumber⟩
  have hne : n ≠ 0 := by omega
  rw [slotsOf, getIndexes, hnone]
  simp [hne]

lemma Knows.getIndexes_of_numbered (h : Knows ps b) (hn : Numbered ps n) :
    b.getIndexes n = b.indexes_ n := by
  obtain ⟨j, ds, hj, hnumber⟩ := numbered_iff.mp hn
  have hne := List.ne_nil_of_mem ((h.indexes n _).mpr ⟨j, ds, hj, hnumber, rfl⟩)
  exact if_neg (by rwa [List.isEmpty_iff])

/-- The slots of a number that a `$` has are those of its occurrences. -/
lemma Knows.mem_slotsOf (h : Knows ps b) (hn : Numbered ps n) (hx : x ∈ b.slotsOf n) :
    ∃ (j : Nat) (ds : Digits), (indexed ps)[j]? = some (.dollar ds) ∧ number ds = n ∧
      x = (j + 1) % 2 ^ 32 := by
  rw [slotsOf, h.getIndexes_of_numbered hn] at hx
  exact (h.indexes n x).mp (List.takeWhile_subset _ hx)

/-- As long as the counter does not overflow. -/
lemma Knows.mem_slotsOf_iff (h : Knows ps b) (hn : Numbered ps n)
    (hsmall : (indexed ps).length < 2 ^ 32) :
    x ∈ b.slotsOf n ↔ ∃ (j : Nat) (ds : Digits), (indexed ps)[j]? = some (.dollar ds) ∧
      number ds = n ∧ x = j + 1 := by
  have hnowrap : ∀ {j : Nat} {p : SqlParam}, (indexed ps)[j]? = some p →
      (j + 1) % 2 ^ 32 = j + 1 := by
    intro j p hj
    have hlt := (List.getElem?_eq_some_iff.mp hj).1
    exact Nat.mod_eq_of_lt (by omega)
  have hall : b.slotsOf n = b.indexes_ n := by
    rw [slotsOf, h.getIndexes_of_numbered hn]
    refine List.takeWhile_eq_self_iff.mpr fun x hx => ?_
    obtain ⟨j, ds, hj, -, rfl⟩ := (h.indexes n x).mp hx
    rw [hnowrap hj]
    exact decide_eq_true (Nat.succ_ne_zero j)
  rw [hall, h.indexes]
  refine exists_congr fun j => exists_congr fun ds => and_congr_right fun hj => ?_
  rw [hnowrap hj]

/-! ### Question marks, numbers and names -/

variable {q : Nat} {ds : List Digits} {ns : List ParamName} {s : String} {t : BindTarget} {k : Nat}

/-- First so many question marks, then these numbers, then these names. -/
def shape (q : Nat) (ds : List Digits) (ns : List ParamName) : List SqlParam :=
  List.replicate q .question ++ (ds.map .dollar ++ ns.map .name)

lemma indexed_shape : indexed (shape q ds ns) = List.replicate q .question ++ ds.map .dollar := by
  have hquestions :
      (List.replicate q SqlParam.question).filter isIndex = List.replicate q .question :=
    List.filter_eq_self.mpr fun p hp => by rw [List.eq_of_mem_replicate hp]; rfl
  have hdollars : (ds.map SqlParam.dollar).filter isIndex = ds.map .dollar :=
    List.filter_eq_self.mpr fun p hp => by obtain ⟨d, -, rfl⟩ := List.mem_map.mp hp; rfl
  have hnames : (ns.map SqlParam.name).filter isIndex = [] :=
    List.filter_eq_nil_iff.mpr fun p hp => by obtain ⟨n, -, rfl⟩ := List.mem_map.mp hp; nofun
  rw [indexed, shape, List.filter_append, List.filter_append, hquestions, hdollars, hnames,
    List.append_nil]

lemma length_indexed_shape (q : Nat) (ds : List Digits) (ns : List ParamName) :
    (indexed (shape q ds ns)).length = q + ds.length := by
  rw [indexed_shape, List.length_append, List.length_replicate, List.length_map]

lemma names_shape : names (shape q ds ns) = ns.map nameOf := by
  have hquestions : (List.replicate q SqlParam.question).filter isName = [] :=
    List.filter_eq_nil_iff.mpr fun p hp => by rw [List.eq_of_mem_replicate hp]; nofun
  have hdollars : (ds.map SqlParam.dollar).filter isName = [] :=
    List.filter_eq_nil_iff.mpr fun p hp => by obtain ⟨d, -, rfl⟩ := List.mem_map.mp hp; nofun
  have hnames : (ns.map SqlParam.name).filter isName = ns.map .name :=
    List.filter_eq_self.mpr fun p hp => by obtain ⟨n, -, rfl⟩ := List.mem_map.mp hp; rfl
  rw [names, shape, List.filter_append, List.filter_append, hquestions, hdollars, hnames,
    List.nil_append, List.nil_append, List.map_map]
  rfl

lemma numbered_shape : Numbered (shape q ds ns) n ↔ ∃ d ∈ ds, number d = n := by
  simp [Numbered, shape]

/-- The place of a number among the parameters that have one. -/
lemma indexed_shape_getElem {j : Nat} {d : Digits} :
    (indexed (shape q ds ns))[j]? = some (.dollar d) ↔ ∃ i, ds[i]? = some d ∧ j = q + i := by
  rw [indexed_shape, List.getElem?_append, List.length_replicate]
  constructor
  · intro h
    split at h
    · have hmem := List.mem_of_getElem? h
      rw [List.mem_replicate] at hmem
      cases hmem.2
    · rw [List.getElem?_map] at h
      obtain ⟨d', hd', heq⟩ := Option.map_eq_some_iff.mp h
      exact ⟨j - q, SqlParam.dollar.inj heq ▸ hd', by omega⟩
  · rintro ⟨i, hi, rfl⟩
    rw [if_neg (by omega), Nat.add_sub_cancel_left, List.getElem?_map, hi]
    rfl

lemma ofParams_replicate (count : Nat) (rest : List SqlParam) :
    BindTarget.ofParams count (List.replicate q .question ++ rest) =
      (List.range' (count + 1) q).map .index ++ BindTarget.ofParams (count + q) rest := by
  induction q generalizing count with
  | zero => rfl
  | succ q ih =>
    have hsum : count + 1 + q = count + (q + 1) := by omega
    rw [List.replicate_succ, List.cons_append, BindTarget.ofParams, ih, List.range'_succ, hsum]
    rfl

lemma ofParams_dollars (count : Nat) : BindTarget.ofParams count (ds.map .dollar ++ ns.map .name) =
    ds.map (fun d => .index (number d)) ++ ns.map fun n => .name (nameOf n) := by
  induction ds with
  | nil =>
    induction ns with
    | nil => rfl
    | cons n ns ih => exact congrArg (BindTarget.name (nameOf n) :: ·) ih
  | cons d ds ih => exact congrArg (BindTarget.index (number d) :: ·) ih

/-- What the parameters of this shape stand for. -/
lemma ofParams_shape_getElem : (BindTarget.ofParams 0 (shape q ds ns))[k]? = some t ↔
    k < q ∧ t = .index (k + 1) ∨
      (∃ i d, ds[i]? = some d ∧ k = q + i ∧ t = .index (number d)) ∨
        ∃ l n, ns[l]? = some n ∧ k = q + ds.length + l ∧ t = .name (nameOf n) := by
  rw [shape, ofParams_replicate, ofParams_dollars, List.getElem?_append, List.length_map,
    List.length_range']
  by_cases hq : k < q
  · rw [if_pos hq, List.getElem?_map, List.getElem?_range' hq]
    simp only [Option.map_some, Option.some.injEq, hq, true_and]
    constructor
    · rintro rfl
      exact .inl (by rw [Nat.zero_add, Nat.one_mul, Nat.add_comm])
    · rintro (rfl | ⟨i, d, -, hk, -⟩ | ⟨l, n, -, hk, -⟩)
      · rw [Nat.zero_add, Nat.one_mul, Nat.add_comm]
      · omega
      · omega
  · rw [if_neg hq, List.getElem?_append, List.length_map]
    by_cases hd : k - q < ds.length
    · rw [if_pos hd, List.getElem?_map]
      constructor
      · intro h
        obtain ⟨d, hd', rfl⟩ := Option.map_eq_some_iff.mp h
        exact .inr (.inl ⟨k - q, d, hd', by omega, rfl⟩)
      · rintro (⟨hk, -⟩ | ⟨i, d, hi, rfl, rfl⟩ | ⟨l, n, -, hk, -⟩)
        · exact absurd hk hq
        · rw [Nat.add_sub_cancel_left, hi]
          rfl
        · omega
    · rw [if_neg hd, List.getElem?_map]
      constructor
      · intro h
        obtain ⟨n, hn, rfl⟩ := Option.map_eq_some_iff.mp h
        exact .inr (.inr ⟨k - q - ds.length, n, hn, by omega, rfl⟩)
      · rintro (⟨hk, -⟩ | ⟨i, d, hi, rfl, -⟩ | ⟨l, n, hl, rfl, rfl⟩)
        · exact absurd hk hq
        · have hlt := (List.getElem?_eq_some_iff.mp hi).1
          omega
        · have hl' : q + ds.length + l - q - ds.length = l := by omega
          rw [hl', hl]
          rfl

/-- The numbers are no numbers of question marks or names, and the counter does not overflow before
them. -/
structure Apart (q : Nat) (ds : List Digits) (ns : List ParamName) : Prop where
  small : ds ≠ [] ∨ ns ≠ [] → q + ds.length < 2 ^ 32
  above : ∀ d ∈ ds, q < number d ∧
    ¬(q + ds.length < number d ∧ number d ≤ q + ds.length + ns.length)

/-- Each parameter, and no other, is stored in its slot. -/
def Fills (ps : List SqlParam) (b : Binding) : Prop :=
  ∀ k t, (BindTarget.ofParams 0 ps)[k]? = some t →
    ∀ p ∈ BindTarget.ofParams 0 ps, (b.Writes (k + 1) p ↔ p = t)

section

variable (h : Knows (shape q ds ns) b)

include h

/-- The slot of a question mark. -/
lemma writes_question (hn : ∀ d ∈ ds, number d ≠ n) (hpos : 0 < n) :
    b.Writes x (.index n) ↔ x = n := by
  have hnot : ¬Numbered (shape q ds ns) n := by
    rw [numbered_shape]
    rintro ⟨d, hd, hdn⟩
    exact hn d hd hdn
  rw [Writes, h.slotsOf_of_not hnot hpos, List.mem_singleton]

/-- The slots of a number. -/
lemma writes_dollar {d : Digits} (hd : d ∈ ds) (hsmall : q + ds.length < 2 ^ 32) :
    b.Writes x (.index (number d)) ↔
      ∃ i d', ds[i]? = some d' ∧ number d' = number d ∧ x = q + i + 1 := by
  rw [← length_indexed_shape q ds ns] at hsmall
  rw [Writes, h.mem_slotsOf_iff (numbered_shape.mpr ⟨d, hd, rfl⟩) hsmall]
  constructor
  · rintro ⟨j, d', hj, hnumber, rfl⟩
    obtain ⟨i, hi, rfl⟩ := indexed_shape_getElem.mp hj
    exact ⟨i, d', hi, hnumber, rfl⟩
  · rintro ⟨i, d', hi, hnumber, rfl⟩
    exact ⟨q + i, d', indexed_shape_getElem.mpr ⟨i, hi, rfl⟩, hnumber, rfl⟩

/-- The numbers of a name. -/
lemma writes_name : b.Writes x (.name s) ↔ ∃ l n, ns[l]? = some n ∧ nameOf n = s ∧
    x ∈ b.slotsOf ((q + ds.length) % 2 ^ 32 + l + 1) := by
  rw [Writes, h.mappings, names_shape, length_indexed_shape]
  constructor
  · rintro ⟨i, hi, hx⟩
    split at hi
    · obtain ⟨l, hl, rfl⟩ := BindMapping.mem_numbers.mp hi
      rw [List.getElem?_map] at hl
      obtain ⟨n, hn, hname⟩ := Option.map_eq_some_iff.mp hl
      exact ⟨l, n, hn, hname, hx⟩
    · exact absurd hi List.not_mem_nil
  · rintro ⟨l, n, hl, rfl, hx⟩
    have hget : (ns.map nameOf)[l]? = some (nameOf n) := by rw [List.getElem?_map, hl]; rfl
    rw [if_pos (List.mem_of_getElem? hget), Option.getD_some]
    exact ⟨_, BindMapping.mem_numbers.mpr ⟨l, hget, rfl⟩, hx⟩

lemma writes_name_of_apart (hapart : Apart q ds ns) :
    b.Writes x (.name s) ↔ ∃ l n, ns[l]? = some n ∧ nameOf n = s ∧ x = q + ds.length + l + 1 := by
  rw [writes_name h]
  refine exists_congr fun l => exists_congr fun n => and_congr_right fun hl =>
    and_congr_right fun _ => ?_
  have hlt := (List.getElem?_eq_some_iff.mp hl).1
  have hsmall := hapart.small (.inr (List.ne_nil_of_mem (List.mem_of_getElem? hl)))
  rw [Nat.mod_eq_of_lt hsmall]
  refine writes_question h (fun d hd heq => (hapart.above d hd).2 ?_) (Nat.succ_pos _)
  omega

/-- Parameters in this order reach their slots. -/
lemma Apart.fills (hapart : Apart q ds ns) : Fills (shape q ds ns) b := by
  intro k t ht p hp
  obtain ⟨k', hk'⟩ := List.getElem?_of_mem hp
  have hlow : ∀ d ∈ ds, ∀ i < q, number d ≠ i + 1 := fun d hd i hi =>
    Nat.ne_of_gt (Nat.lt_of_le_of_lt hi (hapart.above d hd).1)
  have hlength : ∀ {i : Nat} {d : Digits}, ds[i]? = some d → i < ds.length :=
    fun hi => (List.getElem?_eq_some_iff.mp hi).1
  obtain ⟨hk₂, rfl⟩ | ⟨i, d, hi, rfl, rfl⟩ | ⟨l, n, hl, rfl, rfl⟩ := ofParams_shape_getElem.mp hk'
  · rw [writes_question h (fun d hd => hlow d hd k' hk₂) (Nat.succ_pos k')]
    obtain ⟨hk, rfl⟩ | ⟨i, d, hi, rfl, rfl⟩ | ⟨l, n, hl, rfl, rfl⟩ := ofParams_shape_getElem.mp ht
    · rw [BindTarget.index.injEq, eq_comm]
    · have habove := hlow d (List.mem_of_getElem? hi) k' hk₂
      rw [BindTarget.index.injEq]
      omega
    · simp only [reduceCtorEq, iff_false]
      omega
  · have hd := List.mem_of_getElem? hi
    rw [writes_dollar h hd (hapart.small (.inl (List.ne_nil_of_mem hd)))]
    obtain ⟨hk, rfl⟩ | ⟨i', d', hi', rfl, rfl⟩ | ⟨l, n, hl, rfl, rfl⟩ :=
      ofParams_shape_getElem.mp ht
    · have hne := hlow d hd k hk
      rw [BindTarget.index.injEq]
      refine ⟨?_, fun heq => absurd heq hne⟩
      rintro ⟨i', d', -, -, hx⟩
      omega
    · rw [BindTarget.index.injEq]
      constructor
      · rintro ⟨i'', d'', hi'', hnumber, hx⟩
        obtain rfl : i'' = i' := by omega
        obtain rfl := Option.some.inj (hi''.symm.trans hi')
        exact hnumber.symm
      · intro hnumber
        exact ⟨i', d', hi', hnumber.symm, rfl⟩
    · simp only [reduceCtorEq, iff_false]
      rintro ⟨i', d', hi', -, hx⟩
      have hlt := hlength hi'
      omega
  · rw [writes_name_of_apart h hapart]
    obtain ⟨hk, rfl⟩ | ⟨i, d, hi, rfl, rfl⟩ | ⟨l', n', hl', rfl, rfl⟩ :=
      ofParams_shape_getElem.mp ht
    · simp only [reduceCtorEq, iff_false]
      rintro ⟨l', n', -, -, hx⟩
      omega
    · simp only [reduceCtorEq, iff_false]
      rintro ⟨l', n', -, -, hx⟩
      have hlt := hlength hi
      omega
    · rw [BindTarget.name.injEq]
      constructor
      · rintro ⟨l'', n'', hl'', hname, hx⟩
        obtain rfl : l'' = l' := by omega
        obtain rfl := Option.some.inj (hl''.symm.trans hl')
        exact hname.symm
      · intro hname
        exact ⟨l', n', hl', hname.symm, rfl⟩

/-- A slot of a number is one of a place. -/
lemma place_of_mem_slotsOf {n x : Nat} (hn : ∃ d ∈ ds, number d = n) (hx : x ∈ b.slotsOf n) :
    ∃ i < ds.length, x = (q + i + 1) % 2 ^ 32 := by
  obtain ⟨j, d, hj, -, rfl⟩ := h.mem_slotsOf (numbered_shape.mpr hn) hx
  obtain ⟨i, hi, rfl⟩ := indexed_shape_getElem.mp hj
  exact ⟨i, (List.getElem?_eq_some_iff.mp hi).1, rfl⟩

section

variable (hfills : Fills (shape q ds ns) b)

include hfills

omit h in
lemma Fills.writes {k : Nat} {t : BindTarget}
    (ht : (BindTarget.ofParams 0 (shape q ds ns))[k]? = some t) : b.Writes (k + 1) t :=
  (hfills _ _ ht _ (List.mem_of_getElem? ht)).mpr rfl

lemma Fills.dollars_small (hne : ds ≠ []) : q + ds.length < 2 ^ 32 := by
  have hlength := List.length_pos_of_ne_nil hne
  have hlast : ds[ds.length - 1]? = some (ds.getLast hne) := by
    rw [List.getLast_eq_getElem, List.getElem?_eq_getElem]
  have hwrites := hfills.writes (ofParams_shape_getElem.mpr
    (.inr (.inl ⟨_, _, hlast, rfl, rfl⟩)))
  obtain ⟨i, hi, hx⟩ := place_of_mem_slotsOf h ⟨_, List.getLast_mem hne, rfl⟩ hwrites
  have hle := Nat.mod_le (q + i + 1) (2 ^ 32)
  have hlt := Nat.mod_lt (q + i + 1) (Nat.two_pow_pos 32)
  omega

/-- A number is none of a question mark, which would be stored in a place of the numbers. -/
lemma Fills.lt_number {d : Digits} (hd : d ∈ ds) (hpos : 0 < number d) : q < number d := by
  by_contra hle
  have hsmall := hfills.dollars_small h (List.ne_nil_of_mem hd)
  have hwrites := hfills.writes (ofParams_shape_getElem.mpr
    (.inl ⟨show number d - 1 < q by omega, rfl⟩))
  rw [Nat.sub_add_cancel hpos] at hwrites
  obtain ⟨i, hi, hx⟩ := place_of_mem_slotsOf h ⟨d, hd, rfl⟩ hwrites
  rw [Nat.mod_eq_of_lt (by omega)] at hx
  omega

/-- The slot of a name is its number. -/
lemma Fills.name_place {l : Nat} {n : ParamName} (hl : ns[l]? = some n) :
    ∃ l' < ns.length, q + ds.length + l = (q + ds.length) % 2 ^ 32 + l' ∧
      ¬∃ d ∈ ds, number d = (q + ds.length) % 2 ^ 32 + l' + 1 := by
  have hwrites := hfills.writes (ofParams_shape_getElem.mpr (.inr (.inr ⟨l, n, hl, rfl, rfl⟩)))
  obtain ⟨l', n', hl', -, hx⟩ := (writes_name h).mp hwrites
  have hnot : ¬∃ d ∈ ds, number d = (q + ds.length) % 2 ^ 32 + l' + 1 := by
    intro hnumbered
    obtain ⟨i, hi, hx⟩ := place_of_mem_slotsOf h hnumbered hx
    have hle := Nat.mod_le (q + i + 1) (2 ^ 32)
    omega
  rw [h.slotsOf_of_not (fun hn => hnot (numbered_shape.mp hn)) (Nat.succ_pos _),
    List.mem_singleton] at hx
  exact ⟨l', (List.getElem?_eq_some_iff.mp hl').1, by omega, hnot⟩

lemma Fills.names_small (hne : ns ≠ []) : q + ds.length < 2 ^ 32 := by
  have hlength := List.length_pos_of_ne_nil hne
  have hlast : ns[ns.length - 1]? = some (ns.getLast hne) := by
    rw [List.getLast_eq_getElem, List.getElem?_eq_getElem]
  obtain ⟨l', hl', hx, -⟩ := hfills.name_place h hlast
  have hlt := Nat.mod_lt (q + ds.length) (Nat.two_pow_pos 32)
  omega

/-- Parameters of this shape that reach their slots are apart. -/
lemma Fills.apart (hpos : ∀ d ∈ ds, 0 < number d) : Apart q ds ns := by
  refine ⟨fun hne => hne.elim (hfills.dollars_small h) (hfills.names_small h), fun d hd =>
    ⟨hfills.lt_number h hd (hpos d hd), fun ⟨hlow, hhigh⟩ => ?_⟩⟩
  -- the number would be that of a name
  have hl : number d - (q + ds.length) - 1 < ns.length := by omega
  obtain ⟨l', -, hx, hnot⟩ := hfills.name_place h (List.getElem?_eq_getElem hl)
  rw [Nat.mod_eq_of_lt (hfills.dollars_small h (List.ne_nil_of_mem hd))] at hx hnot
  exact hnot ⟨d, hd, by omega⟩

end

end

/-! ### The order of the parameters -/

/-- Where an element of a filtered list was. -/
lemma exists_place {α : Type*} {p : α → Bool} {l : List α} {j : Nat} {a : α}
    (h : (l.filter p)[j]? = some a) : ∃ k, l[k]? = some a ∧ (l.take k).countP p = j := by
  induction l generalizing j with
  | nil => cases h
  | cons c l ih =>
    by_cases hc : p c = true
    · rw [List.filter_cons_of_pos hc] at h
      cases j with
      | zero => exact ⟨0, h, rfl⟩
      | succ j =>
        obtain ⟨k, hk, hj⟩ := ih h
        exact ⟨k + 1, hk, by rw [List.take_succ_cons, List.countP_cons_of_pos hc, hj]⟩
    · rw [List.filter_cons_of_neg hc] at h
      obtain ⟨k, hk, hj⟩ := ih h
      exact ⟨k + 1, hk, by rw [List.take_succ_cons, List.countP_cons_of_neg hc, hj]⟩

lemma countP_take_le {α : Type*} (p : α → Bool) (l : List α) (k : Nat) :
    (l.take k).countP p ≤ k :=
  Nat.le_trans List.countP_le_length (List.length_take_le k l)

/-- Elements that are all counted. -/
lemma forall_of_countP_take {α : Type*} {p : α → Bool} {l : List α} {k i : Nat} {a : α}
    (h : (l.take k).countP p = k) (hi : i < k) (ha : l[i]? = some a) : p a = true := by
  have hlength : (l.take k).length = k := Nat.le_antisymm (List.length_take_le k l)
    (Nat.le_trans (Nat.le_of_eq h.symm) List.countP_le_length)
  have hall := List.countP_eq_length.mp (h.trans hlength.symm)
  exact hall a (List.mem_of_getElem? ((List.getElem?_take_of_lt hi).trans ha))

/-- What a parameter stands for, after so many question marks. -/
def targetOf (count : Nat) : SqlParam → BindTarget
  | .question => .index (count + 1)
  | .dollar ds => .index (number ds)
  | .name n => .name (nameOf n)

lemma ofParams_getElem {p : SqlParam} (h : ps[k]? = some p) (count : Nat) :
    (BindTarget.ofParams count ps)[k]? =
      some (targetOf (count + (ps.take k).countP isQuestion) p) := by
  induction ps generalizing count k with
  | nil => cases h
  | cons p' ps ih =>
    cases k with
    | zero =>
      obtain rfl := Option.some.inj h
      cases p' <;> rfl
    | succ k =>
      have hrest := ih (k := k) h
      cases p' with
      | question =>
        rw [BindTarget.ofParams, List.getElem?_cons_succ, hrest, List.take_succ_cons,
          List.countP_cons_of_pos rfl, Nat.add_assoc, Nat.add_comm 1]
      | dollar ds =>
        rw [BindTarget.ofParams, List.getElem?_cons_succ, hrest, List.take_succ_cons,
          List.countP_cons_of_neg Bool.false_ne_true]
      | name n =>
        rw [BindTarget.ofParams, List.getElem?_cons_succ, hrest, List.take_succ_cons,
          List.countP_cons_of_neg Bool.false_ne_true]

lemma exists_last {P : Nat → Prop} (bound : Nat) (hbound : ∀ k, P k → k < bound)
    (hk : P k) : ∃ last, P last ∧ ∀ i, P i → i ≤ last := by
  classical
  refine ⟨Nat.findGreatest P bound, Nat.findGreatest_spec (Nat.le_of_lt (hbound k hk)) hk,
    fun i hi => ?_⟩
  exact Nat.le_findGreatest (Nat.le_of_lt (hbound i hi)) hi

/-- Before a number that reaches its slot there are no names. -/
lemma Fills.before_dollar (hfills : Fills ps b) (h : Knows ps b) {d : Digits}
    (hk : ps[k]? = some (.dollar d)) :
    k + 1 < 2 ^ 32 ∧ ∀ i < k, ∀ p, ps[i]? = some p → p.isIndex = true := by
  obtain ⟨last, ⟨d', hlast⟩, hmax⟩ := exists_last (P := fun k => ∃ d, ps[k]? = some (.dollar d))
    ps.length (fun k ⟨_, hk⟩ => (List.getElem?_eq_some_iff.mp hk).1) ⟨d, hk⟩
  have htarget := ofParams_getElem hlast 0
  have hwrites := (hfills last _ htarget _ (List.mem_of_getElem? htarget)).mpr rfl
  obtain ⟨j, d'', hj, -, hx⟩ :=
    h.mem_slotsOf ⟨d', List.mem_of_getElem? hlast, rfl⟩ hwrites
  obtain ⟨k', hk', hcount⟩ := exists_place hj
  have hle : (ps.take k').countP isIndex ≤ (ps.take last).countP isIndex :=
    (List.take_sublist_take_left (hmax k' ⟨d'', hk'⟩)).countP_le
  have hrank := countP_take_le isIndex ps last
  have hmod := Nat.mod_le (j + 1) (2 ^ 32)
  have hlt := Nat.mod_lt (j + 1) (Nat.two_pow_pos 32)
  have hkle := hmax k ⟨d, hk⟩
  refine ⟨by omega, fun i hi p hp => ?_⟩
  exact forall_of_countP_take (k := last) (by omega) (by omega) hp

/-- Before a question mark that reaches its slot there are question marks only. -/
lemma Fills.before_question (hfills : Fills ps b) (h : Knows ps b)
    (hk : ps[k]? = some .question) : ∀ i < k, ∀ p, ps[i]? = some p → p = .question := by
  obtain ⟨last, hlast, hmax⟩ := exists_last (P := fun k => ps[k]? = some .question)
    ps.length (fun k hk => (List.getElem?_eq_some_iff.mp hk).1) hk
  have htarget := ofParams_getElem hlast 0
  have hwrites := (hfills last _ htarget _ (List.mem_of_getElem? htarget)).mpr rfl
  rw [Nat.zero_add, targetOf, Writes] at hwrites
  have hrank := countP_take_le isQuestion ps last
  have hcount : (ps.take last).countP isQuestion = last := by
    by_cases hnumbered : Numbered ps ((ps.take last).countP isQuestion + 1)
    · -- the slot is that of a number, which stands elsewhere
      obtain ⟨j, d, hj, -, hx⟩ := h.mem_slotsOf hnumbered hwrites
      obtain ⟨k', hk', hplace⟩ := exists_place hj
      obtain ⟨hsmall, hbefore⟩ := hfills.before_dollar h hk'
      have hall : (ps.take k').countP isIndex = k' := by
        have hlt := (List.getElem?_eq_some_iff.mp hk').1
        have hlength : (ps.take k').length = k' := List.length_take_of_le (Nat.le_of_lt hlt)
        refine (List.countP_eq_length.mpr fun p hp => ?_).trans hlength
        obtain ⟨i, hi⟩ := List.getElem?_of_mem hp
        have hik : i < k' := hlength ▸ (List.getElem?_eq_some_iff.mp hi).1
        exact hbefore i hik p ((List.getElem?_take_of_lt hik).symm.trans hi)
      rw [Nat.mod_eq_of_lt (by omega)] at hx
      obtain rfl : last = k' := by omega
      cases hlast.symm.trans hk'
    · rw [h.slotsOf_of_not hnumbered (Nat.succ_pos _), List.mem_singleton] at hwrites
      omega
  intro i hi p hp
  have hkle := hmax k hk
  have hquestion := forall_of_countP_take hcount (by omega) hp
  cases p with
  | question => rfl
  | dollar d => cases hquestion
  | name n => cases hquestion

/-- Parameters that stand like this have the shape. -/
lemma exists_shape
    (hquestion : ∀ k : Nat, ps[k]? = some .question → ∀ i < k, ∀ p, ps[i]? = some p → p = .question)
    (hdollar : ∀ (k : Nat) (d : Digits), ps[k]? = some (.dollar d) →
      ∀ i < k, ∀ p, ps[i]? = some p → p.isIndex = true) :
    ∃ q ds ns, ps = shape q ds ns := by
  induction ps with
  | nil => exact ⟨0, [], [], rfl⟩
  | cons p ps ih =>
    obtain ⟨q, ds, ns, rfl⟩ := ih
      (fun k hk i hi => hquestion (k + 1) hk (i + 1) (Nat.succ_lt_succ hi))
      (fun k d hk i hi => hdollar (k + 1) d hk (i + 1) (Nat.succ_lt_succ hi))
    -- a question mark comes after question marks only
    have hnone : p ≠ .question → q = 0 := by
      intro hp
      cases q with
      | zero => rfl
      | succ q => exact absurd (hquestion 1 rfl 0 Nat.one_pos p rfl) hp
    cases p with
    | question => exact ⟨q + 1, ds, ns, rfl⟩
    | dollar d =>
      obtain rfl := hnone nofun
      exact ⟨0, d :: ds, ns, rfl⟩
    | name n =>
      obtain rfl := hnone nofun
      cases ds with
      | nil => exact ⟨0, [], n :: ns, rfl⟩
      | cons d ds => exact absurd (hdollar 1 d rfl 0 Nat.one_pos _ rfl) Bool.false_ne_true

/-- Question marks, then numbers, then names, which are apart and can be read. -/
def Ordered (ps : List SqlParam) : Prop :=
  Readable ps ∧ ∃ q ds ns, ps = shape q ds ns ∧ Apart q ds ns

lemma fills_iff (h : Knows ps b) (hpos : ∀ d, SqlParam.dollar d ∈ ps → 0 < number d) :
    Fills ps b ↔ ∃ q ds ns, ps = shape q ds ns ∧ Apart q ds ns := by
  constructor
  · intro hfills
    obtain ⟨q, ds, ns, rfl⟩ := exists_shape (fun k hk => hfills.before_question h hk)
      (fun k d hk => (hfills.before_dollar h hk).2)
    exact ⟨q, ds, ns, rfl, hfills.apart h fun d hd => hpos d (by simp [shape, hd])⟩
  · rintro ⟨q, ds, ns, rfl, hapart⟩
    exact hapart.fills h

/-! ### The values -/

/-- The text that MySQL gets has a question mark for each parameter, and after all numbers and names
of the text are bound, in any order, the slots hold the values of the parameters. -/
def BindsParameters (ps : SqlParts) : Prop :=
  ∀ b : Binding, ∃ b' text, b.prepare (String.ofList ps.text) = some (b', text) ∧
    text.toList.count '?' = ps.params.length ∧
    ∀ (values : BindTarget → SqlValue) (ts : List BindTarget),
      (∀ t, t ∈ ts ↔ t ∈ BindTarget.ofParams 0 ps.params) →
        ∃ b'', b'.bindAll values ts = .ok b'' ∧
          ∀ k t, (BindTarget.ofParams 0 ps.params)[k]? = some t →
            b''.value_ (k + 1) = some (values t)

/-- A text has no other question marks than its parameters. -/
lemma count_rewritten {parts : SqlParts} (h : parts.Reads)
    (hliteral : ∀ cs, SqlPart.literal cs ∉ parts) :
    (rewritten parts).toList.count '?' = parts.params.length := by
  rw [rewritten, String.toList_ofList, SqlParts.replaceAll_text h]
  induction parts with
  | nil => rfl
  | cons part parts ih =>
    have htail : ∀ cs, SqlPart.literal cs ∉ parts :=
      fun cs hcs => hliteral cs (List.mem_cons_of_mem _ hcs)
    rw [List.flatMap_cons, List.count_append]
    cases part with
    | plain c =>
      obtain ⟨-, hc, -, -, hparts⟩ := h
      have hplain : [c].count '?' = 0 := List.count_eq_zero.mpr fun heq =>
        hc (List.mem_singleton.mp heq).symm
      rw [ih hparts htail]
      exact (congrArg (· + (SqlParts.params parts).length) hplain).trans (Nat.zero_add _)
    | literal cs => exact absurd (List.mem_cons_self ..) (hliteral cs)
    | param p =>
      rw [ih h.2 htail, Nat.add_comm]
      rfl

/-- The numbers and names of a text can be bound. -/
lemma Knows.bindable (h : Knows ps b) (ht : t ∈ BindTarget.ofParams 0 ps) : b.Bindable t := by
  cases t with
  | index i => trivial
  | name s => rw [Bindable, h.mappings, if_pos ((name_mem_ofParams 0).mp ht), Option.isSome_some]

variable {parts : SqlParts}

/-- Two targets can be told by their values. -/
lemma exists_values (t : BindTarget) :
    ∃ values : BindTarget → SqlValue, ∀ p, p ≠ t → values p ≠ values t := by
  refine ⟨fun p => if p = t then .null else .string "", fun p hp => ?_⟩
  simp [hp]

lemma BindsParameters.fills (hreads : parts.Reads) (hbinds : BindsParameters parts) :
    Readable parts.params ∧ ∃ b, Knows parts.params b ∧ Fills parts.params b := by
  obtain ⟨b, text, hprepare, -, hbind⟩ := hbinds {}
  have hread := readable_of_prepare hreads hprepare
  obtain ⟨b', hprepare', hknows, hvalue⟩ := prepare_spec hreads hread {}
  obtain rfl : b' = b := (Prod.mk.inj (Option.some.inj (hprepare'.symm.trans hprepare))).1
  refine ⟨hread, b', hknows, fun k t ht p hp => ⟨fun hwrites => ?_, ?_⟩⟩
  · -- bound last, another target would show
    by_contra hne
    obtain ⟨values, hvalues⟩ := exists_values t
    have hmem : ∀ t, t ∈ BindTarget.ofParams 0 parts.params ++ [p] ↔
        t ∈ BindTarget.ofParams 0 parts.params := by
      intro t'
      rw [List.mem_append, List.mem_singleton, or_iff_left_of_imp fun h => h ▸ hp]
    obtain ⟨b'', hall, hslots⟩ := hbind values _ hmem
    obtain ⟨b₁, hall', -, hspec⟩ := bindAll_spec (b := b') values
      fun t' ht' => hknows.bindable ((hmem t').mp ht')
    obtain rfl : b₁ = b'' := Except.ok.inj (hall'.symm.trans hall)
    have hlast := (hspec (k + 1)).2.2 p List.getLast?_concat hwrites
    exact hvalues p hne (Option.some.inj (hlast.symm.trans (hslots k t ht)))
  · rintro rfl
    by_contra hwrites
    obtain ⟨values, hvalues⟩ := exists_values p
    obtain ⟨b'', hall, hslots⟩ := hbind values _ fun _ => Iff.rfl
    obtain ⟨b₁, hall', -, hspec⟩ := bindAll_spec (b := b') values fun t' ht' => hknows.bindable ht'
    obtain rfl : b₁ = b'' := Except.ok.inj (hall'.symm.trans hall)
    obtain ⟨hwritten, hkept, -⟩ := hspec (k + 1)
    by_cases hother : ∃ t ∈ BindTarget.ofParams 0 parts.params, b'.Writes (k + 1) t
    · obtain ⟨t', -, hwrites', hvalue'⟩ := hwritten hother
      have hne : t' ≠ p := fun heq => hwrites (heq ▸ hwrites')
      exact hvalues t' hne (Option.some.inj (hvalue'.symm.trans (hslots k p ht)))
    · have hnone := (hkept hother).symm.trans (hslots k p ht)
      rw [hvalue] at hnone
      cases hnone

/-- The values of a text without quotes reach their slots exactly if its parameters are ordered. -/
theorem bindsParameters_iff (hreads : parts.Reads) (hliteral : ∀ cs, SqlPart.literal cs ∉ parts)
    (hpos : ∀ d, SqlParam.dollar d ∈ parts.params → 0 < number d) :
    BindsParameters parts ↔ Ordered parts.params := by
  constructor
  · intro hbinds
    obtain ⟨hread, b, hknows, hfills⟩ := hbinds.fills hreads
    exact ⟨hread, (fills_iff hknows hpos).mp hfills⟩
  · rintro ⟨hread, hshape⟩ b
    obtain ⟨b', hprepare, hknows, -⟩ := prepare_spec hreads hread b
    have hfills := (fills_iff hknows hpos).mpr hshape
    refine ⟨b', _, hprepare, count_rewritten hreads hliteral, fun values ts hts => ?_⟩
    obtain ⟨b'', hall, -, hspec⟩ := bindAll_spec (b := b') values
      fun t ht => hknows.bindable ((hts t).mp ht)
    refine ⟨b'', hall, fun k t ht => ?_⟩
    have hmem := List.mem_of_getElem? ht
    have hwriter := (hfills k t ht t hmem).mpr rfl
    obtain ⟨t', ht', hwrites, hvalue⟩ := (hspec (k + 1)).1 ⟨t, (hts t).mpr hmem, hwriter⟩
    obtain rfl := (hfills k t ht t' ((hts t').mp ht')).mp hwrites
    exact hvalue

/-- One digit. -/
def digit (c : Char) (h : c.isDigit = true) : Digits :=
  ⟨[c], List.cons_ne_nil c [], fun _ hd => List.mem_singleton.mp hd ▸ h⟩

/-- `@name` -/
def atName : ParamName where
  sigil := '@'
  word := ['n', 'a', 'm', 'e']
  hsigil := ParamName.sigil_at
  hword := ⟨List.cons_ne_nil _ _, List.all_eq_true.mp rfl⟩

/-- `?, $2, @name` -/
def orderedParts : SqlParts :=
  [.param .question, .plain ',', .param (.dollar (digit '2' rfl)), .plain ',',
    .param (.name atName)]

/-- A text with a parameter of each kind. -/
theorem bindsParameters_iff_ordered :
    BindsParameters orderedParts ↔ Ordered orderedParts.params :=
  bindsParameters_iff (by decide) (fun cs hcs => by simp [orderedParts] at hcs) (by
    intro d hd
    obtain rfl : digit '2' rfl = d := by simpa [orderedParts, SqlParts.params, SqlPart.param?,
      eq_comm] using hd
    decide)

/-- `?, $2, @name, $3` -/
def mixedParts : SqlParts :=
  [.param .question, .plain ',', .param (.dollar (digit '2' rfl)), .plain ',',
    .param (.name atName), .plain ',',
    .param (.dollar (digit '3' rfl))]

/-- The slot of the name is that of the last number. -/
theorem not_bindsParameters_mixed : ¬BindsParameters mixedParts := by
  intro hbinds
  have hreads : mixedParts.Reads := by decide
  obtain ⟨-, b, hknows, hfills⟩ := hbinds.fills hreads
  have hbefore := (hfills.before_dollar hknows (k := 3) rfl).2 2 (by decide) _ rfl
  exact Bool.false_ne_true hbefore

end Mysql.Binding

end CodaDb
