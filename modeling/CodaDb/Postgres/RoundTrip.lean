import CodaDb.Postgres.Store
import CodaDb.Sql.Shown

/-!
# What PostgreSQL keeps of a value

Which values `to_value` gives back after `bind`. The type code of a slot decides how its text is
read, whatever type the value had.
-/

namespace CodaDb.Postgres

/-- The values that a slot is expected to keep: integers, strings without a NUL, and times. -/
inductive Storable : SqlValue → Prop where
  | integer {k : IntKind} (v : CInt k) : Storable (.number (.integral k v))
  | string {s : String} (h : CString.Plain s) : Storable (.string s)
  | time (t : SqlTime) : Storable (.time t)

/-- The second time has the day, the time of day or the instant of the first, by its format. -/
def SameMoment (t u : SqlTime) : Prop :=
  match t.format_ with
  | .date => u.value_.fdiv 86400 = t.value_.fdiv 86400
  | .time => u.value_.fmod 86400 = t.value_.fmod 86400
  | .timestamp | .datetime => u.value_ = t.value_

/-- The second value is the first one, as a number or as a time where the first one is that. -/
def SameValue : SqlValue → SqlValue → Prop
  | .number (.integral _ v), w => ∃ k, ∃ u : CInt k, w.asSqlNumber = some (.integral k u) ∧
      u.val = v.val
  | .time t, w => ∃ u, w.asSqlTime = some (some u) ∧ SameMoment t u
  | v, w => w = v

/-- `bind` and then `to_value` give the value back. -/
def Restores (locale : Locale) (unescapeBytea : List UInt8 → List UInt8) (s : Store) (i : Nat)
    (address : UInt64) (v : SqlValue) : Prop :=
  ∃ s' w, s.bind locale (i + 1) (.value v) = some s' ∧
    s'.toValue unescapeBytea i address = some (.ok w) ∧ SameValue v w

/-- The values that are given back. Both `char` types are written as characters, `stol` has the
range of a `long`, a length that is 0 as an `int` stands for null, `gmtime` has the years of an
`int` and `strptime` those of four digits, and of a time stamp only the year is read. -/
def Restorable : SqlValue → Prop
  | .number (.integral k v) => k ≠ .char ∧ k ≠ .wchar ∧ v.val ≤ IntKind.long.max
  | .string s => ¬2 ^ 32 ∣ s.length
  | .time t =>
    match t.format_ with
    | .date => 0 ≤ (gmtime t.value_).year ∧ (gmtime t.value_).year ≤ 9999
    | .time => IntKind.int.min ≤ (gmtime t.value_).year - 1900 ∧
        (gmtime t.value_).year - 1900 ≤ IntKind.int.max
    | .timestamp | .datetime => t.value_ = 1970
  | _ => True

variable {locale : Locale} {unescapeBytea : List UInt8 → List UInt8} {s : Store} {i : Nat}
  {address : UInt64} {v : SqlValue}

/-- A value that has a slot is given back if the slot gives it back. -/
lemma restores_iff_slot {x : Slot} (h : Slot.encode locale (.value v) = .slot x) :
    Restores locale unescapeBytea s i address v ↔
      ∃ w, toValue unescapeBytea x.type x.value x.length address = some (.ok w) ∧
        SameValue v w := by
  obtain ⟨t, ht, hslot⟩ := Store.exists_bind h s i
  rw [← hslot, ← Store.toValue_eq]
  constructor
  · rintro ⟨s', w, hbind, hvalue, hsame⟩
    obtain rfl := Option.some.inj (ht.symm.trans hbind)
    exact ⟨w, hvalue, hsame⟩
  · rintro ⟨w, hvalue, hsame⟩
    exact ⟨t, w, ht, hvalue, hsame⟩

/-- An undefined `bind` gives nothing back. -/
lemma not_restores_of_undefined (h : Slot.encode locale (.value v) = .undefined) :
    ¬Restores locale unescapeBytea s i address v := by
  rintro ⟨s', w, hbind, -, -⟩
  rw [Store.bind_of_undefined h] at hbind
  cases hbind

/-! ### Texts in a slot -/

section Text

variable {bytes : List UInt8} {type : Oid} {length : Int}

/-- The types of integers and of time stamps are read as a `long`. -/
lemma toValue_long (hlength : length ≠ 0)
    (htype : type = .bool ∨ type = .char ∨ type = .int8 ∨ type = .int2 ∨ type = .int4 ∨
      type = .timestamp) (w : SqlValue) :
    toValue unescapeBytea type (some (CString.duplicate bytes)) length address = some (.ok w) ↔
      ∃ v, IntKind.long.stoSigned (CString.text (CString.prefixOf bytes)).toList = some v ∧
        w = .number (.integral .long v) := by
  have hknown : ¬(length = 0 ∨ type = .unknown) := by
    rintro (hzero | hunknown)
    · exact hlength hzero
    · rcases htype with rfl | rfl | rfl | rfl | rfl | rfl <;> cases hunknown
  rw [toValue, if_neg hknown, CString.read_duplicate, Option.map_some]
  cases hnumber : IntKind.long.stoSigned (CString.text (CString.prefixOf bytes)).toList with
  | none => rcases htype with rfl | rfl | rfl | rfl | rfl | rfl <;> simp [hnumber]
  | some v => rcases htype with rfl | rfl | rfl | rfl | rfl | rfl <;> simp [hnumber, eq_comm]

/-- Dates, times of day and texts are read as texts. -/
lemma toValue_text (hlength : length ≠ 0) (htype : type = .date ∨ type = .time ∨ type = .text) :
    toValue unescapeBytea type (some (CString.duplicate bytes)) length address =
      some (.ok (.string (CString.text (CString.prefixOf bytes)))) := by
  have hknown : ¬(length = 0 ∨ type = .unknown) := by
    rintro (hzero | hunknown)
    · exact hlength hzero
    · rcases htype with rfl | rfl | rfl <;> cases hunknown
  rw [toValue, if_neg hknown, CString.read_duplicate, Option.map_some]
  rcases htype with rfl | rfl | rfl <;> rfl

end Text

/-! ### Integers -/

/-- The types but the two of characters write the digits, and an `unsigned char` a letter after
them. -/
lemma exists_numberText {k : IntKind} (hchar : k ≠ .char) (hwchar : k ≠ .wchar) (v : Int) :
    ∃ suffix, CString.Plain suffix ∧ (∀ c ∈ suffix.toList.head?, c.isDigit = false) ∧
      Slot.numberText locale k v = some (CString.bytes (toString v ++ suffix)) := by
  have hnone : (toString v) = toString v ++ "" := String.append_empty.symm
  cases k with
  | char => exact absurd rfl hchar
  | wchar => exact absurd rfl hwchar
  | uchar =>
    refine ⟨"c", SqlTime.plain_of_toList rfl (by decide), ?_, rfl⟩
    intro c hc
    obtain rfl := Option.some.inj hc
    rfl
  | bool | short | ushort | int | uint | long | ulong | llong | ullong =>
    exact ⟨"", nofun, nofun, congrArg (fun s => some (CString.bytes s)) hnone⟩

lemma numberType_long (k : IntKind) :
    (Slot.numberType k).2 ≠ 0 ∧
      ((Slot.numberType k).1 = .bool ∨ (Slot.numberType k).1 = .char ∨
        (Slot.numberType k).1 = .int8 ∨ (Slot.numberType k).1 = .int2 ∨
        (Slot.numberType k).1 = .int4 ∨ (Slot.numberType k).1 = .timestamp) := by
  cases k <;> decide

/-- An integer is given back if it is written in digits and is in the range of a `long`. -/
lemma restores_integer {k : IntKind} (hchar : k ≠ .char) (hwchar : k ≠ .wchar) (v : CInt k) :
    Restores locale unescapeBytea s i address (.number (.integral k v)) ↔
      v.val ≤ IntKind.long.max := by
  obtain ⟨suffix, hplain, hdigit, htext⟩ := @exists_numberText locale k hchar hwchar v.val
  obtain ⟨hlength, htype⟩ := numberType_long k
  have hencode : Slot.encode locale (.value (.number (.integral k v))) =
      .slot ⟨some (CString.duplicate (CString.bytes (toString v.val ++ suffix))),
        (Slot.numberType k).1, (Slot.numberType k).2, 0⟩ := by
    simp only [Slot.encode, Slot.fromValue, Slot.fromNumber, htext]
  have hread : IntKind.long.stoSigned (CString.text (CString.prefixOf
      (CString.bytes (toString v.val ++ suffix)))).toList = IntKind.long.check v.val := by
    rw [CString.text_prefixOf_bytes ((SqlTime.plain_int v.val).append hplain), IntKind.stoSigned,
      String.toList_append, Numeral.scan_toString _ _ hdigit, Option.bind_some,
      Numeral.signed_natAbs]
  have hmin : IntKind.long.min ≤ v.val := by
    refine Int.le_trans ?_ v.property.1
    cases k <;> decide
  rw [restores_iff_slot hencode]
  simp only [toValue_long hlength htype, hread]
  constructor
  · rintro ⟨w, ⟨u, hu, rfl⟩, -⟩
    by_contra hmax
    rw [IntKind.check, dif_neg fun h => hmax h.2] at hu
    cases hu
  · intro hmax
    exact ⟨_, ⟨⟨v.val, hmin, hmax⟩, dif_pos ⟨hmin, hmax⟩, rfl⟩, .long, _, rfl, rfl⟩

/-- One byte is read as its digit, if it is one, and bytes beyond ASCII as no number. -/
lemma digit_of_scan {b : UInt8} {bs : List UInt8} (h : bs = [] ∨ 128 ≤ b.toNat) {r : Bool × Nat}
    (hr : Numeral.scan (CString.text (CString.prefixOf (b :: bs))).toList = some r) :
    ∃ d ≤ 9, b.toNat = 48 + d ∧ r = (false, d) := by
  by_cases hzero : b = 0
  · rw [CString.prefixOf, List.takeWhile_cons_of_neg (by simpa using hzero)] at hr
    cases hr
  rw [CString.prefixOf, List.takeWhile_cons_of_pos (by simpa using hzero), CString.text,
    String.toList_ofList, List.map_cons] at hr
  rcases h with rfl | h
  · have hdigit := Numeral.scan_singleton hr
    rwa [CString.toNat_ofNat_byte] at hdigit
  · have hchar := CString.toNat_ofNat_byte b
    generalize Char.ofNat b.toNat = c at hr hchar
    have hspace : Numeral.isSpace c = false := by
      simp only [Numeral.isSpace, Bool.or_eq_false_iff, Bool.and_eq_false_iff,
        decide_eq_false_iff_not]
      omega
    have hdigit : c.isDigit = false := by
      rw [← Bool.not_eq_true, Char.isDigit_iff_toNat]
      simp only [Char.reduceToNat]
      omega
    have hsign : ∀ sign : Char, sign.toNat < 128 → c ≠ sign := by
      rintro sign hsign rfl
      omega
    rw [Numeral.scan_eq_none hspace hdigit (hsign '-' (by decide)) (hsign '+' (by decide))] at hr
    cases hr

/-- A character is never read as its number. -/
lemma not_restores_character {k : IntKind} (v : CInt k) {b : UInt8} {bs : List UInt8}
    (htext : Slot.numberText locale k v.val = some (b :: bs))
    (hb : bs = [] ∧ (v.val % 256 < 128 → (b.toNat : Int) = v.val % 256) ∨ 128 ≤ b.toNat) :
    ¬Restores locale unescapeBytea s i address (.number (.integral k v)) := by
  obtain ⟨hlength, htype⟩ := numberType_long k
  have hencode : Slot.encode locale (.value (.number (.integral k v))) =
      .slot
        ⟨some (CString.duplicate (b :: bs)), (Slot.numberType k).1, (Slot.numberType k).2, 0⟩ := by
    simp only [Slot.encode, Slot.fromValue, Slot.fromNumber, htext]
  rw [restores_iff_slot hencode]
  simp only [toValue_long hlength htype]
  rintro ⟨w, ⟨u, hu, rfl⟩, k', u', hnumber, hval⟩
  obtain ⟨r, hscan, hcheck⟩ := Option.bind_eq_some_iff.mp hu
  obtain ⟨d, hd, hbyte, rfl⟩ := digit_of_scan (hb.imp_left And.left) hscan
  obtain ⟨rfl, heq⟩ := SqlNumber.integral.inj (Option.some.inj hnumber)
  obtain rfl := eq_of_heq heq
  rw [IntKind.check] at hcheck
  split at hcheck
  · obtain rfl := Option.some.inj hcheck
    have hdigit : (d : Int) = v.val := hval
    rcases hb with ⟨-, hb⟩ | hb
    · omega
    · omega
  · cases hcheck

lemma toNat_ofNat {n : Nat} (h : n < 256) : (UInt8.ofNat n).toNat = n :=
  UInt8.toNat_ofNat_of_lt' h

/-- The first byte of an encoding is an ASCII character, or no ASCII byte. -/
lemma exists_utf8EncodeChar (c : Char) : ∃ b bs, String.utf8EncodeChar c = b :: bs ∧
    (bs = [] ∧ b.toNat = c.toNat ∨ 128 ≤ b.toNat) := by
  have hval : c.val.toNat = c.toNat := rfl
  rw [String.utf8EncodeChar]
  split
  · exact ⟨_, _, rfl, .inl ⟨rfl, by rw [toNat_ofNat (by omega), hval]⟩⟩
  · split
    · exact ⟨_, _, rfl, .inr (by rw [toNat_ofNat (by omega)]; omega)⟩
    · split
      · exact ⟨_, _, rfl, .inr (by rw [toNat_ofNat (by omega)]; omega)⟩
      · exact ⟨_, _, rfl, .inr (by rw [toNat_ofNat (by omega)]; omega)⟩

lemma not_restores_char (v : CInt .char) :
    ¬Restores locale unescapeBytea s i address (.number (.integral .char v)) := by
  refine not_restores_character v rfl (.inl ⟨rfl, fun _ => ?_⟩)
  rw [toNat_ofNat (by omega)]
  omega

lemma not_restores_wchar (v : CInt .wchar) :
    ¬Restores locale unescapeBytea s i address (.number (.integral .wchar v)) := by
  have hbyte : (UInt8.ofNat (v.val % 256).toNat).toNat = (v.val % 256).toNat :=
    toNat_ofNat (by omega)
  cases hchar : locale.btowc (UInt8.ofNat (v.val % 256).toNat) with
  | none =>
    have hencode : Slot.encode locale (.value (.number (.integral .wchar v))) = .exception := by
      simp only [Slot.encode, Slot.fromValue, Slot.fromNumber, Slot.numberText, hchar,
        Option.map_none]
    obtain ⟨t, ht, hslot⟩ := Store.exists_bind_of_exception hencode s i
    rintro ⟨s', w, hbind, hvalue, hsame⟩
    obtain rfl := Option.some.inj (ht.symm.trans hbind)
    rw [Store.toValue_eq, hslot] at hvalue
    cases hvalue
    obtain ⟨k, u, hnumber, -⟩ := hsame
    cases hnumber
  | some c =>
    obtain ⟨b, bs, hencode, hb⟩ := exists_utf8EncodeChar c
    have htext : Slot.numberText locale .wchar v.val = some (b :: bs) := by
      rw [Slot.numberText, hchar, Option.map_some, hencode]
    refine not_restores_character v htext (hb.imp_left fun h => ⟨h.1, fun hascii => ?_⟩)
    have hsame := locale.ascii (UInt8.ofNat (v.val % 256).toNat) (by omega)
    obtain rfl := Option.some.inj (hchar.symm.trans hsame)
    rw [h.2, CString.toNat_ofNat_byte]
    omega

/-! ### Strings and times -/

/-- A string is given back if its length is not taken for that of a null. -/
lemma restores_string {text : String} (h : CString.Plain text) :
    Restores locale unescapeBytea s i address (.string text) ↔ ¬2 ^ 32 ∣ text.length := by
  have hzero : Slot.intSize text.length = 0 ↔ 2 ^ 32 ∣ text.length := by
    rw [Slot.intSize, IntKind.wrap_eq_iff (by decide), Int.sub_zero]
    exact Int.natCast_dvd_natCast
  rw [@restores_iff_slot locale unescapeBytea s i address (.string text) _ rfl, ← hzero]
  constructor
  · rintro ⟨w, hvalue, rfl⟩ hzero
    rw [toValue, if_pos (.inl hzero)] at hvalue
    cases hvalue
  · intro hlength
    refine ⟨_, toValue_text hlength (.inr (.inr rfl)), ?_⟩
    rw [CString.text_prefixOf_bytes h]
    rfl

/-- A time has the text of its format if the year, counted from 1900, is an `int`. -/
lemma text_eq_some_iff {t : SqlTime} {text : String} :
    t.text = some text ↔ (IntKind.int.min ≤ (gmtime t.value_).year - 1900 ∧
      (gmtime t.value_).year - 1900 ≤ IntKind.int.max) ∧ t.toString = text := by
  rw [SqlTime.text]
  split
  · next hyear =>
    rw [Option.some_inj]
    exact (and_iff_right hyear).symm
  · next hyear => exact iff_of_false nofun fun h => hyear h.1

/-- The slot of a time that has a text. -/
lemma encode_time {t : SqlTime} {text : String} (h : t.text = some text) :
    Slot.encode locale (.value (.time t)) =
      .slot ⟨some (CString.duplicate (CString.bytes text)), Slot.timeType t.format_, 8, 0⟩ := by
  simp only [Slot.encode, Slot.fromValue, h]

lemma not_restores_of_text {t : SqlTime} (h : t.text = none) :
    ¬Restores locale unescapeBytea s i address (.time t) := by
  refine not_restores_of_undefined ?_
  simp only [Slot.encode, Slot.fromValue, h]

/-- Dates and times of day are parsed again. -/
lemma restores_time_iff {t : SqlTime} {text : String} (h : t.text = some text)
    (htype : Slot.timeType t.format_ = .date ∨ Slot.timeType t.format_ = .time) :
    Restores locale unescapeBytea s i address (.time t) ↔
      ∃ u, SqlTime.parse text.toList = some u ∧ SameMoment t u := by
  have hplain : CString.Plain text := (text_eq_some_iff.mp h).2 ▸ SqlTime.plain_toString t
  have hread := @toValue_text unescapeBytea address (CString.bytes text) _ 8 (by decide)
    (htype.imp_right .inl)
  rw [CString.text_prefixOf_bytes hplain] at hread
  rw [restores_iff_slot (encode_time h)]
  simp only [hread]
  constructor
  · rintro ⟨w, hw, u, hu, hsame⟩
    cases hw
    exact ⟨u, Option.some.inj hu, hsame⟩
  · rintro ⟨u, hu, hsame⟩
    exact ⟨_, rfl, u, congrArg some hu, hsame⟩

lemma restores_date {t : SqlTime} (h : t.format_ = .date) :
    Restores locale unescapeBytea s i address (.time t) ↔
      0 ≤ (gmtime t.value_).year ∧ (gmtime t.value_).year ≤ 9999 := by
  have hmin : IntKind.int.min = -(2 ^ 31) := rfl
  have hmax : IntKind.int.max = 2 ^ 31 - 1 := rfl
  have hlongMin : IntKind.long.min = -(2 ^ 63) := rfl
  have hlongMax : IntKind.long.max = 2 ^ 63 - 1 := rfl
  have hshown : t.toString = SqlTime.dateText (gmtime t.value_) := by rw [SqlTime.toString, h]
  cases htext : t.text with
  | none =>
    refine iff_of_false (not_restores_of_text htext) fun hyear => ?_
    rw [text_eq_some_iff.mpr ⟨by omega, rfl⟩] at htext
    cases htext
  | some text =>
    obtain ⟨hyear, rfl⟩ := text_eq_some_iff.mp htext
    rw [restores_time_iff htext (.inl (by rw [h]; rfl)), hshown]
    simp only [SameMoment, h]
    by_cases hfour : 0 ≤ (gmtime t.value_).year ∧ (gmtime t.value_).year ≤ 9999
    · refine iff_of_true ⟨_, SqlTime.parse_dateText (gmtime_inRange _) hfour.1 hfour.2, ?_⟩ hfour
      rw [timegm_date]
      exact Int.mul_fdiv_cancel _ (by decide)
    · refine iff_of_false ?_ hfour
      rintro ⟨u, hu, hsame⟩
      rw [SqlTime.parse_dateText_of_not hfour (by omega) (by omega)] at hu
      obtain rfl := Option.some.inj hu
      exact fdiv_year_ne hfour hsame

lemma restores_timeOfDay {t : SqlTime} (h : t.format_ = .time) :
    Restores locale unescapeBytea s i address (.time t) ↔
      IntKind.int.min ≤ (gmtime t.value_).year - 1900 ∧
        (gmtime t.value_).year - 1900 ≤ IntKind.int.max := by
  cases htext : t.text with
  | none =>
    refine iff_of_false (not_restores_of_text htext) fun hyear => ?_
    rw [text_eq_some_iff.mpr ⟨hyear, rfl⟩] at htext
    cases htext
  | some text =>
    obtain ⟨hyear, rfl⟩ := text_eq_some_iff.mp htext
    have hshown : t.toString = SqlTime.timeText (gmtime t.value_) := by rw [SqlTime.toString, h]
    have hsame : ∀ u, SameMoment t u ↔ u.value_.fmod 86400 = t.value_.fmod 86400 := by
      intro u
      rw [SameMoment, h]
    rw [restores_time_iff htext (.inr (by rw [h]; rfl)), hshown]
    refine iff_of_true ⟨_, SqlTime.parse_timeText (gmtime_inRange _), (hsame _).mpr ?_⟩ hyear
    have hsecond : ((gmtime t.value_).hour * 3600 + (gmtime t.value_).minute * 60 +
        (gmtime t.value_).second : Int) = t.value_.fmod 86400 := by
      rw [← secondOfDay_gmtime, Tm.secondOfDay]
      omega
    rw [hsecond]
    exact Int.fmod_fmod _ _

/-- The text of a time stamp begins with its year, which is all that `stol` reads. -/
lemma exists_stoSigned_timestamp {t : SqlTime} (h : t.format_ = .timestamp ∨ t.format_ = .datetime)
    (hmin : IntKind.int.min ≤ (gmtime t.value_).year)
    (hmax : (gmtime t.value_).year ≤ IntKind.int.max + 1900) :
    ∃ hfits, IntKind.long.stoSigned t.toString.toList =
      some ⟨(gmtime t.value_).year, hfits⟩ := by
  have hintMax : IntKind.int.max = 2 ^ 31 - 1 := rfl
  have hintMin : IntKind.int.min = -(2 ^ 31) := rfl
  have hlongMax : IntKind.long.max = 2 ^ 63 - 1 := rfl
  have hlongMin : IntKind.long.min = -(2 ^ 63) := rfl
  have hshown : t.toString = SqlTime.dateText (gmtime t.value_) ++ " " ++
      SqlTime.timeText (gmtime t.value_) := by
    rcases h with h | h <;> rw [SqlTime.toString, h]
  obtain ⟨rest, hlist⟩ : ∃ rest,
      t.toString.toList = (toString (gmtime t.value_).year).toList ++ '-' :: rest := by
    refine ⟨(zeroPadded 2 (gmtime t.value_).month ++ "-" ++ zeroPadded 2 (gmtime t.value_).day ++
      " " ++ SqlTime.timeText (gmtime t.value_)).toList, ?_⟩
    rw [hshown]
    simp [SqlTime.dateText]
  have hfits : IntKind.long.min ≤ (gmtime t.value_).year ∧
      (gmtime t.value_).year ≤ IntKind.long.max := by omega
  refine ⟨hfits, ?_⟩
  rw [IntKind.stoSigned, hlist, Numeral.scan_toString _ _ (by simp), Option.bind_some,
    Numeral.signed_natAbs, IntKind.check, dif_pos hfits]

/-- Of a time stamp the year is read as a number of seconds. -/
lemma restores_timestamp {t : SqlTime} (h : t.format_ = .timestamp ∨ t.format_ = .datetime) :
    Restores locale unescapeBytea s i address (.time t) ↔ t.value_ = 1970 := by
  have hmax : IntKind.int.max = 2 ^ 31 - 1 := rfl
  have hmin : IntKind.int.min = -(2 ^ 31) := rfl
  have htype : Slot.timeType t.format_ = .timestamp := by
    rcases h with h | h <;> rw [h] <;> rfl
  have hsame : ∀ u, SameMoment t u ↔ u.value_ = t.value_ := by
    intro u
    rcases h with h | h <;> rw [SameMoment, h]
  cases htext : t.text with
  | none =>
    refine iff_of_false (not_restores_of_text htext) fun hvalue => ?_
    have hyear := (gmtime_year_eq_self_iff t.value_).mpr hvalue
    rw [text_eq_some_iff.mpr ⟨by omega, rfl⟩] at htext
    cases htext
  | some text =>
    obtain ⟨hyear, rfl⟩ := text_eq_some_iff.mp htext
    obtain ⟨hfits, hread⟩ := exists_stoSigned_timestamp h (by omega) (by omega)
    have hmoment : (SqlValue.number (.integral .long ⟨_, hfits⟩)).asSqlTime =
        some (some ⟨(gmtime t.value_).year, .timestamp⟩) := by
      rw [SqlValue.asSqlTime, SqlValue.timeOf, SqlNumber.asIntegral, Option.map_some,
        IntKind.convert_val (by decide), IntKind.wrap_of_mem hfits]
      rfl
    rw [restores_iff_slot (encode_time htext)]
    simp only [toValue_long (show (8 : Int) ≠ 0 by decide) (.inr (.inr (.inr (.inr (.inr htype))))),
      CString.text_prefixOf_bytes (SqlTime.plain_toString t), hread]
    rw [← gmtime_year_eq_self_iff]
    constructor
    · rintro ⟨w, ⟨v, hv, rfl⟩, u, hu, hu'⟩
      obtain rfl := Option.some.inj hv
      obtain rfl := Option.some.inj (Option.some.inj (hmoment.symm.trans hu))
      exact (hsame _).mp hu'
    · intro hyear
      exact ⟨_, ⟨_, rfl, rfl⟩, _, hmoment, (hsame _).mpr hyear⟩

/-- A value is given back exactly if it is restorable. -/
theorem restores_iff (locale : Locale) (unescapeBytea : List UInt8 → List UInt8) (s : Store)
    (i : Nat) (address : UInt64) {v : SqlValue} (h : Storable v) :
    Restores locale unescapeBytea s i address v ↔ Restorable v := by
  cases h with
  | @integer k v =>
    rw [Restorable]
    by_cases hchar : k = .char
    · subst hchar
      exact iff_of_false (not_restores_char v) fun h => h.1 rfl
    by_cases hwchar : k = .wchar
    · subst hwchar
      exact iff_of_false (not_restores_wchar v) fun h => h.2.1 rfl
    rw [restores_integer hchar hwchar, and_iff_right hchar, and_iff_right hwchar]
  | string h => exact restores_string h
  | time t =>
    rw [Restorable]
    cases hformat : t.format_ with
    | date => exact restores_date hformat
    | time => exact restores_timeOfDay hformat
    | timestamp => exact restores_timestamp (.inl hformat)
    | datetime => exact restores_timestamp (.inr hformat)

theorem restores_iff_seven :
    Restores .posix id (Store.construct 10) 0 0 (.number (.integral .int ⟨7, by decide⟩)) ↔
      Restorable (.number (.integral .int ⟨7, by decide⟩)) :=
  restores_iff .posix id (Store.construct 10) 0 0 (.integer ⟨7, by decide⟩)

/-- The empty string has length 0, and is read as null. -/
theorem not_restores_empty :
    ¬∀ (locale : Locale) (unescapeBytea : List UInt8 → List UInt8) (s : Store) (i : Nat)
      (address : UInt64) (v : SqlValue), Storable v →
      Restores locale unescapeBytea s i address v := by
  intro h
  have hplain : CString.Plain "" := nofun
  have hrestores := h .posix id (Store.construct 10) 0 0 (.string "") (.string hplain)
  exact (restores_string hplain).mp hrestores (by decide)

end CodaDb.Postgres
