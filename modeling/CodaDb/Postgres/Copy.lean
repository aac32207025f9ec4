import CodaDb.Postgres.Store
import Mathlib.Tactic.ByContra

/-!
# Copies of a `postgres::binding`

A copy duplicates every value as a C string, also the blobs, which have a length of their own. The
destination is cleared first, and may be the source.
-/

namespace CodaDb.Postgres

/-- What a slot stands for: the bytes of its length in the binary format, or else its C string. The
inner `none` stands for bytes that are not in its memory. -/
def Slot.data (x : Slot) : Option (Option (List UInt8)) :=
  x.value.map fun memory =>
    if x.format = 1 then
      if x.length.toNat ≤ memory.length then some (memory.take x.length.toNat) else none
    else CString.read memory

namespace Store

/-- Every value ends in its memory. -/
def terminated (s : Store) : Bool :=
  s.values_.all fun value => value.all fun memory => memory.contains 0

/-- New arrays with the fields of a store, and its values up to their first NUL. -/
def duplicated (value : Store) : Store :=
  { value with
    values_ := value.values_.map (Option.map CString.duplicate)
    values_length := by rw [List.length_map, value.values_length] }

/-- The loop of `copy_value`; `none` where `strdup` reads beyond the memory of a value. -/
def duplicate (value : Store) : Option Store :=
  if value.terminated then some value.duplicated else none

end Store

/-- `copy_value(const binding &)`, among the stores of a program. -/
def copyValue (stores : Nat → Store) (n source : Nat) : Option (Nat → Store) :=
  let stores := Function.update stores n .null
  (stores source).duplicate.map fun s => Function.update stores n s

/-- The two ways to copy a store. -/
inductive Copy where
  | construct | assign
deriving DecidableEq, Repr

/-- `binding(const binding &)`, for a new store, and `operator=(const binding &)`. -/
def copy (stores : Nat → Store) (n source : Nat) : Copy → Option (Nat → Store)
  | .construct => copyValue (Function.update stores n .null) n source
  | .assign => copyValue stores n source

/-- One store has the fields of another, and values that stand for the same. -/
structure SameContents (s d : Store) : Prop where
  capacity : d.capacity = s.capacity
  types : d.types_ = s.types_
  lengths : d.lengths_ = s.lengths_
  formats : d.formats_ = s.formats_
  data : ∀ i < s.size_, (d.slot i).data = (s.slot i).data

/-- After the copy the destination has what the source had, which is unchanged if it is another
store. -/
def Copies (stores : Nat → Store) (n source : Nat) (c : Copy) : Prop :=
  ∃ after, copy stores n source c = some after ∧ SameContents (stores source) (after n) ∧
    (n ≠ source → after source = stores source)

/-- The first NUL of each blob is the last of its bytes. -/
def Store.Duplicable (s : Store) : Prop :=
  ∀ i memory, (s.slot i).format = 1 → (s.slot i).value = some memory →
    0 ∈ memory ∧ (s.slot i).length.toNat ≤ (CString.prefixOf memory).length + 1

/-! ### The slots of a store -/

/-- Texts end in their memory, and blobs have the bytes of their length. -/
structure Slot.WellFormed (x : Slot) : Prop where
  text : x.format ≠ 1 → ∀ memory ∈ x.value, 0 ∈ memory
  binary : x.format = 1 → ∀ memory ∈ x.value, x.length.toNat ≤ memory.length

namespace Slot

/-- A slot without a value. -/
lemma wellFormed_none (type : Oid) (length format : Int) :
    (Slot.mk none type length format).WellFormed :=
  ⟨fun _ _ hmemory => (Option.not_mem_none _ hmemory).elim,
    fun _ _ hmemory => (Option.not_mem_none _ hmemory).elim⟩

lemma wellFormed_cleared : cleared.WellFormed := wellFormed_none ..

lemma wellFormed_duplicate (bytes : List UInt8) (type : Oid) (length : Int) :
    (Slot.mk (some (CString.duplicate bytes)) type length 0).WellFormed := by
  refine ⟨?_, nofun⟩
  rintro - memory hmemory
  obtain rfl := Option.some.inj hmemory
  simp [CString.duplicate]

lemma toNat_intSize_le (n : Nat) : (intSize n).toNat ≤ n := by
  have hmin : IntKind.int.min = -(2 ^ 31) := rfl
  have hbits : (2 : Int) ^ IntKind.int.bits = 4294967296 := rfl
  rw [intSize, IntKind.wrap, hmin, hbits]
  omega

lemma wellFormed_encode {locale : Locale} {v : BoundValue} {x : Slot}
    (h : encode locale v = .slot x) : x.WellFormed := by
  cases v with
  | wide s hs =>
    rw [encode] at h
    cases hbytes : Bindable.wideBytes s with
    | none =>
      rw [hbytes] at h
      cases h
    | some bytes =>
      rw [hbytes] at h
      cases h
      exact wellFormed_duplicate _ _ _
  | value v =>
    cases v with
    | null =>
      cases h
      exact wellFormed_none ..
    | string | wstring =>
      cases h
      exact wellFormed_duplicate _ _ _
    | blob b =>
      cases h
      refine ⟨absurd rfl, ?_⟩
      rintro - memory hmemory
      split at hmemory
      · cases hmemory
      · obtain rfl := Option.some.inj hmemory
        exact toNat_intSize_le _
    | time t =>
      rw [encode, fromValue] at h
      cases htext : t.text with
      | none =>
        rw [htext] at h
        cases h
      | some text =>
        rw [htext] at h
        cases h
        exact wellFormed_duplicate _ _ _
    | number n =>
      cases n with
      | null =>
        cases h
        exact wellFormed_none ..
      | integral k v =>
        rw [encode, fromValue, fromNumber] at h
        cases htext : numberText locale k v with
        | none =>
          rw [htext] at h
          cases h
        | some text =>
          rw [htext] at h
          cases h
          exact wellFormed_duplicate _ _ _
      | floating k v =>
        cases h
        cases k <;> exact wellFormed_duplicate _ _ _

end Slot

namespace Store

variable {locale : Locale} {s d : Store}

/-- So are the slots of every store that is reached. -/
lemma wellFormed_slot (hs : Stores.Reached (ops locale) s) (i : Nat) : (s.slot i).WellFormed := by
  obtain ⟨c, hc⟩ := (refines locale).exists_of_reached hs
  rw [Holds.slot_eq hc, SlotArray.slotOf]
  cases c.value (i + 1) with
  | none => exact Slot.wellFormed_cleared
  | some v =>
    rw [Option.map_some]
    cases hv : Slot.encode locale v with
    | slot x => exact Slot.wellFormed_encode hv
    | exception | undefined => exact Slot.wellFormed_cleared

/-- The values of the slots are those of the array. -/
lemma terminated_iff : s.terminated = true ↔ ∀ i, ∀ memory ∈ (s.slot i).value, 0 ∈ memory := by
  have hall : s.terminated = true ↔ ∀ value ∈ s.values_, ∀ memory ∈ value, 0 ∈ memory := by
    simp [terminated, Option.all_eq_true]
  rw [hall]
  constructor
  · intro h i memory hmemory
    refine h (some memory) ?_ memory rfl
    rw [slot, List.getD_eq_getElem?_getD] at hmemory
    cases hvalue : s.values_[i]? with
    | none =>
      rw [hvalue] at hmemory
      cases hmemory
    | some value =>
      rw [hvalue] at hmemory
      obtain rfl := Option.mem_def.mp hmemory
      exact List.mem_of_getElem? hvalue
  · intro h value hvalue memory hmemory
    obtain ⟨i, hi⟩ := List.mem_iff_getElem?.mp hvalue
    refine h i memory ?_
    rw [slot, List.getD_eq_getElem?_getD, hi]
    exact hmemory

lemma slot_duplicated (s : Store) (i : Nat) :
    s.duplicated.slot i =
      { s.slot i with value := (s.slot i).value.map CString.duplicate } := by
  have hvalue := @List.getD_map _ _ s.values_ none i (Option.map CString.duplicate)
  rw [slot, duplicated, slot]
  exact congrArg (fun value => Slot.mk value _ _ _) hvalue

/-- An empty store has nothing but its size. -/
lemma sameContents_of_size_eq_zero (hs : s.size_ = 0) (hd : d.size_ = 0) : SameContents s d where
  capacity := hd.trans hs.symm
  types := by
    rw [List.eq_nil_of_length_eq_zero (s.types_length.trans hs),
      List.eq_nil_of_length_eq_zero (d.types_length.trans hd)]
  lengths := by
    rw [List.eq_nil_of_length_eq_zero (s.lengths_length.trans hs),
      List.eq_nil_of_length_eq_zero (d.lengths_length.trans hd)]
  formats := by
    rw [List.eq_nil_of_length_eq_zero (s.formats_length.trans hs),
      List.eq_nil_of_length_eq_zero (d.formats_length.trans hd)]
  data i hi := absurd hi (by omega)

end Store

/-- The C string of a text is duplicated with it, and the bytes of a blob up to the first NUL. -/
lemma Slot.data_duplicate {x : Slot} (h : x.WellFormed) (hzero : ∀ memory ∈ x.value, 0 ∈ memory) :
    { x with value := x.value.map CString.duplicate }.data = x.data ↔
      ∀ memory, x.format = 1 → x.value = some memory →
        x.length.toNat ≤ (CString.prefixOf memory).length + 1 := by
  obtain ⟨value, type, length, format⟩ := x
  cases value with
  | none => exact iff_of_true rfl fun memory _ hnone => absurd hnone.symm (Option.some_ne_none _)
  | some memory =>
    simp only [Slot.data, Option.map_some, Option.some_inj]
    have hmem := hzero memory rfl
    by_cases hformat : format = 1
    · have hlength := h.binary hformat memory rfl
      obtain ⟨rest, hrest⟩ := CString.exists_append_zero hmem
      have hsize : (CString.duplicate memory).length = (CString.prefixOf memory).length + 1 := by
        rw [CString.duplicate, List.length_append, List.length_singleton]
      rw [if_pos hformat, if_pos hformat, if_pos hlength, hsize]
      by_cases hle : length.toNat ≤ (CString.prefixOf memory).length + 1
      · rw [if_pos hle]
        refine iff_of_true ?_ fun m _ hm => hm ▸ hle
        have hsplit : memory = CString.duplicate memory ++ rest := by
          rw [CString.duplicate, List.append_assoc]
          exact hrest
        rw [Option.some_inj]
        conv_rhs => rw [hsplit]
        rw [List.take_append_of_le_length (hsize ▸ hle)]
      · rw [if_neg hle]
        exact iff_of_false (Option.some_ne_none _).symm fun hall => hle (hall memory hformat rfl)
    · rw [if_neg hformat, if_neg hformat, CString.read_duplicate, CString.read, if_pos hmem]
      exact iff_of_true rfl fun m hm => absurd hm hformat

/-! ### Copies -/

/-- Both copies clear the destination and duplicate what is the source then. -/
lemma copies_iff_duplicate {stores : Nat → Store} {n source : Nat} {c : Copy} :
    Copies stores n source c ↔
      ∃ s, (Function.update stores n .null source).duplicate = some s ∧
        SameContents (stores source) s := by
  have hcopy : copy stores n source c =
      (Function.update stores n .null source).duplicate.map fun s =>
        Function.update stores n s := by
    cases c <;> simp only [copy, copyValue, Function.update_idem]
  rw [Copies, hcopy]
  constructor
  · rintro ⟨after, hafter, hsame, -⟩
    obtain ⟨s, hs, rfl⟩ := Option.map_eq_some_iff.mp hafter
    rw [Function.update_self] at hsame
    exact ⟨s, hs, hsame⟩
  · rintro ⟨s, hs, hsame⟩
    refine ⟨Function.update stores n s, by rw [hs, Option.map_some], ?_, fun hn => ?_⟩
    · rwa [Function.update_self]
    · rw [Function.update_of_ne hn.symm]

/-- Another store has the same contents exactly if the blobs end with their only NUL. -/
lemma Store.duplicates_iff {s : Store} (hs : ∀ i, (s.slot i).WellFormed) :
    (∃ d, s.duplicate = some d ∧ SameContents s d) ↔ s.Duplicable := by
  constructor
  · rintro ⟨d, hd, hsame⟩ i memory hformat hmemory
    obtain ⟨hterminated, rfl⟩ := Option.ite_some_none_eq_some.mp hd
    rw [Store.terminated_iff] at hterminated
    refine ⟨hterminated i memory hmemory, ?_⟩
    have hi : i < s.size_ := by
      by_contra hi
      rw [Store.slot_of_ge s (Nat.le_of_not_lt hi)] at hmemory
      cases hmemory
    have hdata := hsame.data i hi
    rw [Store.slot_duplicated, Slot.data_duplicate (hs i) (hterminated i)] at hdata
    exact hdata memory hformat hmemory
  · intro h
    have hterminated : ∀ i, ∀ memory ∈ (s.slot i).value, 0 ∈ memory := by
      intro i memory hmemory
      by_cases hformat : (s.slot i).format = 1
      · exact (h i memory hformat hmemory).1
      · exact (hs i).text hformat memory hmemory
    refine ⟨_, if_pos (Store.terminated_iff.mpr hterminated), rfl, rfl, rfl, rfl, fun i _ => ?_⟩
    rw [Store.slot_duplicated, Slot.data_duplicate (hs i) (hterminated i)]
    exact fun memory hformat hmemory => (h i memory hformat hmemory).2

/-- A store that is reached is copied to another one exactly if its blobs can be duplicated as C
strings, and to itself only if it has no slots. -/
theorem copies_iff {locale : Locale} {stores : Nat → Store} {source : Nat}
    (hs : Stores.Reached (Store.ops locale) (stores source)) (n : Nat) (c : Copy) :
    Copies stores n source c ↔
      (n = source ∧ (stores source).capacity = 0) ∨
        (n ≠ source ∧ (stores source).Duplicable) := by
  rw [copies_iff_duplicate]
  by_cases hn : n = source
  · subst hn
    rw [Function.update_self]
    have hduplicate : Store.null.duplicate = some Store.null.duplicated := if_pos (by decide)
    rw [hduplicate, and_iff_right rfl, or_iff_left fun h => h.1 rfl]
    constructor
    · rintro ⟨s, hs, hsame⟩
      obtain rfl := Option.some.inj hs
      exact hsame.capacity.symm
    · exact fun hcapacity => ⟨_, rfl, Store.sameContents_of_size_eq_zero hcapacity rfl⟩
  · rw [Function.update_of_ne (Ne.symm hn), or_iff_right fun h => hn h.1, and_iff_right hn]
    exact Store.duplicates_iff (Store.wellFormed_slot hs)

theorem copies_iff_empty :
    Copies (fun _ => Store.construct 10) 1 0 .construct ↔
      (1 = 0 ∧ (Store.construct 10).capacity = 0) ∨ (1 ≠ 0 ∧ (Store.construct 10).Duplicable) :=
  @copies_iff .posix (fun _ => Store.construct 10) 0
    (Stores.reached_construct (Store.ops .posix) 10) 1 .construct

/-- Of a blob of a NUL and another byte the copy has the NUL only. -/
theorem not_copies_blob :
    ¬∀ (locale : Locale) (stores : Nat → Store) (n source : Nat) (c : Copy),
      Stores.Reached (Store.ops locale) (stores source) → Copies stores n source c := by
  intro h
  obtain ⟨t, ht, hslot⟩ := @Store.exists_bind .posix (.value (.blob ⟨1, [0, 1]⟩)) _ rfl
    (Store.construct 10) 0
  have hhistory : Stores.history (Store.ops .posix) 10 [.bind 0 1 (.value (.blob ⟨1, [0, 1]⟩))] =
      some (Function.update (fun _ => Store.construct 10) 0 t) :=
    congrArg (Option.map (Function.update (fun _ => Store.construct 10) 0)) ht
  have hreached : Stores.Reached (Store.ops .posix) t :=
    ⟨10, _, _, 0, hhistory, Function.update_self ..⟩
  have hcopies := h .posix (fun _ => t) 1 0 .construct hreached
  rw [copies_iff_duplicate, Function.update_of_ne (by decide),
    Store.duplicates_iff (Store.wellFormed_slot hreached)] at hcopies
  have hblob := (hcopies 0 [0, 1] (by rw [hslot]) (by rw [hslot]; rfl)).2
  rw [hslot] at hblob
  exact absurd hblob (by decide)

end CodaDb.Postgres
