import CodaDb.Lib.CString
import CodaDb.Sql.Truth

/-!
# Narrow and wide strings

A wide string is encoded as UTF-8, while a string is widened byte by byte. The two conversions undo
each other for ASCII texts only.
-/

namespace CodaDb

namespace Helper

/-- A `wchar_t` that is a Unicode code point. -/
def IsCodePoint (c : Int) : Prop := 0 ≤ c ∧ c.toNat.isValidChar

instance : DecidablePred IsCodePoint := fun c => inferInstanceAs (Decidable (0 ≤ c ∧ _))

/-- `convert_string(const std::wstring &)` of any wide string; `none` where `to_bytes` throws. -/
def narrow (buf : List Int) : Option String :=
  if ∀ c ∈ buf, IsCodePoint c then some (convertString (buf.map fun c => Char.ofNat c.toNat))
  else none

lemma narrow_wide (w : List Char) : narrow (wide w) = some (convertString w) := by
  have hvalid : ∀ c ∈ wide w, IsCodePoint c := by
    intro c hc
    obtain ⟨d, -, rfl⟩ := List.mem_map.mp hc
    exact ⟨Int.natCast_nonneg _, d.valid⟩
  have hchars : (wide w).map (fun c => Char.ofNat c.toNat) = w := by
    rw [wide, List.map_map]
    refine (List.map_congr_left fun c _ => ?_).trans (List.map_id w)
    exact Char.ofNat_toNat c
  rw [narrow, if_pos hvalid, hchars]

/-- A `char` from 128 on is widened to no code point. -/
lemma narrow_widen_eq_none {s : String} {c : Char} (hc : c ∈ s.toList) (h : 128 ≤ c.toNat) :
    narrow (widen s) = none := by
  refine if_neg fun hall => ?_
  have hmem : Int.negSucc (255 - c.toNat) ∈ widen s :=
    List.mem_map.mpr ⟨c, hc, if_neg (Nat.not_lt.mpr h)⟩
  exact absurd (hall _ hmem).1 (Int.negSucc_not_nonneg _).mp

lemma exists_byte_ge {c : Char} (h : 128 ≤ c.toNat) :
    ∃ b ∈ String.utf8EncodeChar c, 128 ≤ b.toNat := by
  have hlast : 128 ≤ (UInt8.ofNat (c.val.toNat % 64 + 128)).toNat := by
    rw [UInt8.toNat_ofNat']
    omega
  refine ⟨_, ?_, hlast⟩
  have hascii : ¬c.val.toNat ≤ 127 := Nat.not_le.mpr h
  simp only [String.utf8EncodeChar, if_neg hascii]
  split
  · exact List.mem_cons_of_mem _ (List.mem_cons_self ..)
  · split <;> simp

/-- A text that is not ASCII has a byte from 128 on. -/
lemma exists_mem_convertString {w : List Char} {c : Char} (hc : c ∈ w) (h : 128 ≤ c.toNat) :
    ∃ d ∈ (convertString w).toList, 128 ≤ d.toNat := by
  obtain ⟨b, hb, hge⟩ := exists_byte_ge h
  refine ⟨Char.ofNat b.toNat, ?_, by rwa [CString.toNat_ofNat_byte]⟩
  rw [convertString, String.toList_ofList]
  exact List.mem_map.mpr ⟨b, List.mem_flatMap.mpr ⟨c, hc, hb⟩, rfl⟩

end Helper

namespace SqlValue

/-- `sql_value(s).as<sql_wstring>()` followed by `sql_value(that).as<sql_string>()` returns `s`. -/
def NarrowTrips (s : String) : Prop :=
  (SqlValue.string s).asSqlWstring.bind Helper.narrow = some s

/-- `sql_value(w).as<sql_string>()` followed by `sql_value(that).as<sql_wstring>()` returns `w`. -/
def WideTrips (w : List Char) : Prop :=
  (SqlValue.wstring w).asSqlString.bind (fun s => (SqlValue.string s).asSqlWstring) =
    some (Helper.wide w)

/-- Of the texts with these code points the string and the wide string are returned exactly if they
are ASCII. -/
theorem trips_iff (w : List Char) :
    (NarrowTrips (Helper.convertString w) ↔ ∀ c ∈ w, c.toNat < 128) ∧
      (WideTrips w ↔ ∀ c ∈ w, c.toNat < 128) := by
  constructor
  · constructor
    · intro h c hc
      by_cases hascii : c.toNat < 128
      · exact hascii
      · obtain ⟨d, hd, hge⟩ := Helper.exists_mem_convertString hc (Nat.le_of_not_lt hascii)
        have hnone := Helper.narrow_widen_eq_none hd hge
        exact absurd (hnone.symm.trans h) (Option.some_ne_none _).symm
    · intro h
      have hwiden : Helper.widen (Helper.convertString w) = Helper.wide w := by
        rw [convertString_ascii h, widen_eq_wide]
        exact ⟨String.toList_ofList, h⟩
      rw [NarrowTrips, asSqlWstring, Option.bind_some, hwiden, Helper.narrow_wide]
  · have hwide : WideTrips w ↔ Helper.widen (Helper.convertString w) = Helper.wide w :=
      Option.some_inj
    rw [hwide, widen_eq_wide]
    refine and_iff_right_of_imp fun h => ?_
    rw [convertString_ascii h, String.toList_ofList]

/-- The text `é` is returned in neither direction. -/
theorem not_trips :
    ¬(∀ w, NarrowTrips (Helper.convertString w)) ∧ ¬∀ w, WideTrips w := by
  constructor
  · intro h
    have htrips := h ['é']
    rw [NarrowTrips] at htrips
    exact absurd htrips (by decide)
  · intro h
    have htrips := h ['é']
    rw [WideTrips] at htrips
    exact absurd htrips (by decide)

end SqlValue

end CodaDb
