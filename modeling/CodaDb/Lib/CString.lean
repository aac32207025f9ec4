import Mathlib.Data.List.TakeWhile
import Mathlib.Tactic.Lemma

/-!
# C strings

Blocks of memory that are read up to their first NUL, and the texts of bytes, with one character
for each byte.
-/

namespace CString

/-- The bytes before the first NUL. -/
def prefixOf (bytes : List UInt8) : List UInt8 := bytes.takeWhile (· ≠ 0)

/-- The block that `strdup` allocates: the bytes before the first NUL, and a NUL. -/
def duplicate (bytes : List UInt8) : List UInt8 := prefixOf bytes ++ [0]

/-- The string that starts a block; `none` if it does not end in the block. -/
def read (memory : List UInt8) : Option (List UInt8) :=
  if 0 ∈ memory then some (prefixOf memory) else none

/-- The text with these bytes. -/
def text (bytes : List UInt8) : String := String.ofList (bytes.map fun b => Char.ofNat b.toNat)

/-- The bytes of a text. -/
def bytes (s : String) : List UInt8 := s.toList.map fun c => UInt8.ofNat c.toNat

lemma zero_notMem_prefixOf (bs : List UInt8) : 0 ∉ prefixOf bs := by
  intro hmem
  simpa using List.mem_takeWhile_imp hmem

lemma prefixOf_eq_self {bs : List UInt8} (h : 0 ∉ bs) : prefixOf bs = bs := by
  refine List.takeWhile_eq_self_iff.mpr ?_
  intro b hb
  simpa using fun heq : b = 0 => h (heq ▸ hb)

/-- A string ends at the first NUL. -/
lemma prefixOf_append_zero {bs : List UInt8} (h : 0 ∉ bs) (rest : List UInt8) :
    prefixOf (bs ++ 0 :: rest) = bs := by
  have hall : ∀ b ∈ bs, decide (b ≠ 0) = true := by
    intro b hb
    simpa using fun heq : b = 0 => h (heq ▸ hb)
  rw [prefixOf, List.takeWhile_append_of_pos hall, List.takeWhile_cons_of_neg (by simp),
    List.append_nil]

lemma duplicate_of_notMem {bs : List UInt8} (h : 0 ∉ bs) : duplicate bs = bs ++ [0] := by
  rw [duplicate, prefixOf_eq_self h]

@[simp] lemma read_duplicate (bs : List UInt8) : read (duplicate bs) = some (prefixOf bs) := by
  rw [read, if_pos (by simp [duplicate]), duplicate,
    prefixOf_append_zero (zero_notMem_prefixOf bs)]

/-- A block with a NUL is its string and what follows the NUL. -/
lemma exists_append_zero {bs : List UInt8} (h : 0 ∈ bs) :
    ∃ rest, bs = prefixOf bs ++ 0 :: rest := by
  obtain ⟨ds, rest, rfl, hds⟩ := List.eq_append_cons_of_mem h
  exact ⟨rest, by rw [prefixOf_append_zero hds]⟩

/-- The copy of a block holds as many bytes, and the same, exactly if no NUL comes before the last
one. -/
lemma take_duplicate_iff (bs : List UInt8) :
    bs.length ≤ (duplicate bs).length ∧ (duplicate bs).take bs.length = bs ↔
      0 ∉ bs.dropLast := by
  by_cases hmem : 0 ∈ bs
  · obtain ⟨rest, hrest⟩ := exists_append_zero hmem
    have hprefix := zero_notMem_prefixOf bs
    rw [duplicate]
    generalize prefixOf bs = ds at hrest hprefix
    subst hrest
    cases rest with
    | nil =>
      rw [List.dropLast_concat, List.take_length]
      exact iff_of_true ⟨Nat.le_refl _, rfl⟩ hprefix
    | cons b rest =>
      refine iff_of_false ?_ ?_
      · rintro ⟨hlength, -⟩
        simp only [List.length_append, List.length_cons, List.length_nil] at hlength
        omega
      · rw [List.dropLast_append_of_ne_nil (List.cons_ne_nil _ _), not_not, List.dropLast_cons_cons]
        exact List.mem_append_right _ (List.mem_cons_self ..)
  · refine iff_of_true ?_ fun h => hmem (List.dropLast_subset _ h)
    simp [duplicate_of_notMem hmem]

lemma toNat_ofNat_byte (b : UInt8) : (Char.ofNat b.toNat).toNat = b.toNat := by
  have hvalid : b.toNat.isValidChar := .inl (Nat.lt_of_lt_of_le b.toNat_lt (by decide))
  rw [Char.ofNat, dif_pos hvalid]
  rfl

/-- A byte as a character and back. -/
lemma bytes_text (bs : List UInt8) : bytes (text bs) = bs := by
  have hbyte : ∀ b : UInt8, UInt8.ofNat (Char.ofNat b.toNat).toNat = b := by
    intro b
    rw [toNat_ofNat_byte, UInt8.ofNat_toNat]
  rw [bytes, text, String.toList_ofList, List.map_map]
  exact (List.map_congr_left fun b _ => hbyte b).trans (List.map_id bs)

/-- A text without a NUL, of which each character is a byte. -/
def Plain (s : String) : Prop := ∀ c ∈ s.toList, c.toNat ≠ 0 ∧ c.toNat < 256

lemma Plain.append {s t : String} (hs : Plain s) (ht : Plain t) : Plain (s ++ t) := by
  intro c hc
  rw [String.toList_append, List.mem_append] at hc
  exact hc.elim (hs c) (ht c)

lemma zero_notMem_bytes {s : String} (h : Plain s) : 0 ∉ bytes s := by
  intro hmem
  obtain ⟨c, hc, hzero⟩ := List.mem_map.mp hmem
  obtain ⟨hne, hlt⟩ := h c hc
  refine hne ?_
  rw [← UInt8.toNat_ofNat_of_lt' hlt, hzero]
  rfl

lemma text_bytes {s : String} (h : Plain s) : text (bytes s) = s := by
  have hchar : ∀ c ∈ s.toList, Char.ofNat (UInt8.ofNat c.toNat).toNat = c := by
    intro c hc
    rw [UInt8.toNat_ofNat_of_lt' (h c hc).2, Char.ofNat_toNat]
  have hmap := (List.map_congr_left hchar).trans (List.map_id' s.toList)
  rw [text, bytes, List.map_map]
  exact (congrArg String.ofList hmap).trans String.ofList_toList

/-- Such a text ends at no NUL before its end. -/
lemma text_prefixOf_bytes {s : String} (h : Plain s) : text (prefixOf (bytes s)) = s := by
  rw [prefixOf_eq_self (zero_notMem_bytes h), text_bytes h]

lemma length_bytes (s : String) : (bytes s).length = s.length := by
  rw [bytes, List.length_map, String.length_toList]

end CString
