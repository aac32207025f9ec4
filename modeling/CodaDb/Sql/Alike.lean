import CodaDb.Sql.Accepted
import CodaDb.Sql.Wide

/-!
# The conversions of a narrow and a wide text

An ASCII text is converted alike as a string and as a wide string, but for the conversion to a time:
a wide string is read as a number first.
-/

namespace CodaDb

/-! ### Texts without a digit -/

lemma TimeField.any_of_number {lo hi digits : Nat} {cs : List Char} {r : Nat × List Char}
    (h : number lo hi digits cs = some r) : cs.any Char.isDigit = true := by
  rw [number] at h
  split at h
  · next c rest hdrop =>
    split at h
    · next hdigit => exact Numeral.any_of_mem_dropWhile (hdrop ▸ List.mem_cons_self ..) hdigit
    · cases h
  · cases h

namespace SqlTime

open TimeField

/-- A text that is accepted has a digit. -/
lemma any_of_fits {s : List Char} {f : TimeFormat} (h : Fits s f) : s.any Char.isDigit = true := by
  have hyear : ∀ {fs : List TimeField} {r : List Char}, rest s (.year :: fs) = some r →
      s.any Char.isDigit = true := by
    intro fs r hr
    rw [rest, Option.bind_eq_some_iff] at hr
    obtain ⟨x, hx, -⟩ := hr
    obtain ⟨n, hn, -⟩ := Option.map_eq_some_iff.mp hx
    exact any_of_number hn
  cases h with
  | @datetime r hboth => exact @hyear _ r hboth
  | @date r hboth hdate => exact @hyear _ r hdate
  | time hboth hdate htime =>
    rw [timeFormat, rest, Option.bind_eq_some_iff] at htime
    obtain ⟨x, hx, -⟩ := htime
    obtain ⟨n, hn, -⟩ := Option.map_eq_some_iff.mp hx
    exact any_of_number hn
  | timestamp hboth hdate htime hv =>
    rw [IntKind.stoUnsigned, Option.bind_eq_some_iff] at hv
    obtain ⟨r, hr, -⟩ := hv
    exact Numeral.any_of_scan hr

end SqlTime

/-! ### Integers -/

namespace SqlValue

/-- An integer at the start of a text is the same time stamp, whether `std::stoul` reads it or the
functions that `sql_number` tries. -/
lemma timeOf_parseIntegral (s : List Char) :
    (SqlNumber.parseIntegral s).map timeOf =
      (IntKind.ulong.stoUnsigned s).map fun v => some ⟨IntKind.long.wrap v.val, .timestamp⟩ := by
  cases hscan : Numeral.scan s with
  | none =>
    rw [SqlNumber.parseIntegral_of_scan_none hscan, IntKind.stoUnsigned, hscan]
    rfl
  | some r =>
    have hsign := SqlNumber.signed_cases r
    have hulong : IntKind.long.wrap (IntKind.ulong.convert (Numeral.signed r)).val =
        IntKind.long.wrap (Numeral.signed r) := by
      rw [IntKind.convert_val (by decide), @IntKind.wrap_wrap .long .ulong rfl]
    have htime : ∀ {k : IntKind} (w : CInt k), timeOf (.integral k w) =
        some ⟨IntKind.long.wrap w.val, .timestamp⟩ := fun w => by
      rw [timeOf, SqlNumber.asIntegral, Option.map_some, IntKind.convert_val (by decide)]
    rw [SqlNumber.parseIntegral_of_scan hscan, IntKind.stoUnsigned, hscan, Option.bind_some]
    by_cases hlarge : (r.2 : Int) ≤ IntKind.ulong.max
    · rw [if_pos hlarge, if_pos hlarge, Option.map_some, hulong]
      by_cases hint : IntKind.int.min ≤ Numeral.signed r ∧ Numeral.signed r ≤ IntKind.int.max
      · rw [IntKind.check, dif_pos hint]
        exact congrArg some (htime _)
      rw [IntKind.check, dif_neg hint, Option.map_none, Option.none_or]
      by_cases hlong : IntKind.long.min ≤ Numeral.signed r ∧ Numeral.signed r ≤ IntKind.long.max
      · rw [IntKind.check, dif_pos hlong]
        exact congrArg some (htime _)
      rw [IntKind.check, dif_neg hlong, Option.map_none, Option.none_or, Option.map_some, htime,
        hulong]
    · have hint : ¬(IntKind.int.min ≤ Numeral.signed r ∧ Numeral.signed r ≤ IntKind.int.max) := by
        simp only [IntKind.min, IntKind.max] at hlarge ⊢
        omega
      have hlong : ¬(IntKind.long.min ≤ Numeral.signed r ∧
          Numeral.signed r ≤ IntKind.long.max) := by
        simp only [IntKind.min, IntKind.max] at hlarge ⊢
        omega
      rw [if_neg hlarge, if_neg hlarge, IntKind.check, dif_neg hint, IntKind.check, dif_neg hlong]
      rfl

end SqlValue

/-! ### Numbers with a point -/

namespace SqlNumber

open FloatKind

/-- The first type that holds the number is taken. -/
lemma parseFloating_eq_some_iff {value : List Char} {n : SqlNumber} :
    parseFloating value = some n ↔ ∃ k x, n = .floating k x ∧ k.sto value = some x ∧
      ∀ k' : FloatKind, k'.precision < k.precision → k'.sto value = none := by
  rw [parseFloating]
  constructor
  · intro h
    cases hfloat : float.sto value with
    | some x =>
      rw [hfloat] at h
      refine ⟨.float, x, (Option.some.inj h).symm, hfloat, fun k' hk => ?_⟩
      cases k' <;> exact absurd hk (by decide)
    | none =>
      cases hdouble : double.sto value with
      | some x =>
        rw [hfloat, hdouble] at h
        refine ⟨.double, x, (Option.some.inj h).symm, hdouble, fun k' hk => ?_⟩
        cases k' with
        | float => exact hfloat
        | double | longDouble => exact absurd hk (by decide)
      | none =>
        rw [hfloat, hdouble] at h
        obtain ⟨x, hx, rfl⟩ := Option.map_eq_some_iff.mp h
        refine ⟨.longDouble, x, rfl, hx, fun k' hk => ?_⟩
        cases k' with
        | float => exact hfloat
        | double => exact hdouble
        | longDouble => exact absurd hk (by decide)
  · rintro ⟨k, x, rfl, hx, hless⟩
    cases k with
    | float => rw [hx]; rfl
    | double => rw [hless .float (by decide), hx]; rfl
    | longDouble => rw [hless .float (by decide), hless .double (by decide), hx]; rfl

end SqlNumber

/-- Cutting the fraction off does not turn the sign. -/
lemma FloatKind.trunc_nearest {k : FloatKind} {negative : Bool} {q : RealNumeral} {t : Int}
    (h : (k.nearest negative q).trunc = some t) : if negative then t ≤ 0 else 0 ≤ t := by
  cases q with
  | infinity | nan => cases h
  | quotient num den =>
    rcases FloatValue.round_cases k num den with hround | ⟨m, e, hround⟩
    · rw [nearest, hround] at h
      cases h
    · rw [nearest, hround, FloatValue.trunc] at h
      obtain rfl := Option.some.inj h
      cases negative with
      | false => exact Int.natCast_nonneg _
      | true => exact Int.neg_nonpos_of_nonneg (Int.natCast_nonneg _)

lemma FloatKind.eq_of_first {k k' : FloatKind} {q : RealNumeral} (hk : k.Holds q)
    (hk' : k'.Holds q)
    (hfirst : ∀ k' : FloatKind, k'.precision < k.precision → ¬k'.Holds q)
    (hfirst' : ∀ k : FloatKind, k.precision < k'.precision → ¬k.Holds q) : k = k' := by
  have hle : k.precision ≤ k'.precision := Nat.le_of_not_lt fun h => hfirst k' h hk'
  have hge : k'.precision ≤ k.precision := Nat.le_of_not_lt fun h => hfirst' k h hk
  exact FloatKind.eq_of_precision_eq (Nat.le_antisymm hle hge)

namespace SqlValue

/-- The text starts with an integer that `unsigned long` holds, but for its sign. -/
def StartsWithInteger (s : List Char) : Prop :=
  ∃ r, Numeral.scan s = some r ∧ (r.2 : Int) ≤ IntKind.ulong.max

/-- The number at the start of the text, in the first type that holds it and without its fraction,
is the integer there, and `long` holds it. -/
def CutsToInteger (s : List Char) : Prop :=
  ∃ r q k, Numeral.scan s = some r ∧
    RealNumeral.scan (Numeral.sign (s.dropWhile Numeral.isSpace)).2 = some q ∧
    FloatKind.Holds k q ∧ (∀ k' : FloatKind, k'.precision < k.precision → ¬k'.Holds q) ∧
    (k.nearest r.1 q).trunc = some (Numeral.signed r) ∧
    IntKind.long.min ≤ Numeral.signed r ∧ Numeral.signed r ≤ IntKind.long.max

/-- An integer within `unsigned long` wraps around to another sign or not at all. -/
lemma wrap_signed_iff {r : Bool × Nat} {t : Int} (hr : (r.2 : Int) ≤ IntKind.ulong.max)
    (ht : IntKind.long.min ≤ t ∧ t ≤ IntKind.long.max) (hsign : if r.1 then t ≤ 0 else 0 ≤ t) :
    IntKind.long.wrap (Numeral.signed r) = t ↔ Numeral.signed r = t := by
  constructor
  · intro h
    have hdvd := (IntKind.wrap_eq_iff ht _).mp h
    obtain ⟨negative, m⟩ := r
    have hbits : (2 : Int) ^ IntKind.long.bits = 18446744073709551616 := rfl
    have hmax : IntKind.ulong.max = 18446744073709551615 := rfl
    have hmin : IntKind.long.min = -9223372036854775808 := rfl
    have hmax' : IntKind.long.max = 9223372036854775807 := rfl
    rw [hbits] at hdvd
    rw [hmax] at hr
    rw [hmin, hmax'] at ht
    cases negative with
    | false =>
      replace hsign : 0 ≤ t := hsign
      rw [Numeral.signed] at hdvd ⊢
      dsimp only at hr
      omega
    | true =>
      replace hsign : t ≤ 0 := hsign
      rw [Numeral.signed] at hdvd ⊢
      dsimp only at hr
      omega
  · intro h
    rw [h]
    exact IntKind.wrap_of_mem ht

lemma stoUnsigned_isSome_iff {s : List Char} :
    (IntKind.ulong.stoUnsigned s).isSome ↔ StartsWithInteger s := by
  rw [IntKind.stoUnsigned_eq, StartsWithInteger]
  cases Numeral.scan s with
  | none => simp
  | some r => simp [Option.filter]

lemma timeOf_floating_iff {s : List Char} {q : RealNumeral} {k : FloatKind}
    (hq : RealNumeral.scan (Numeral.sign (s.dropWhile Numeral.isSpace)).2 = some q)
    (hk : k.Holds q) (hfirst : ∀ k' : FloatKind, k'.precision < k.precision → ¬k'.Holds q) :
    (timeOf (.floating k (k.nearest (Numeral.sign (s.dropWhile Numeral.isSpace)).1 q))).map some =
        some ((IntKind.ulong.stoUnsigned s).map fun v => ⟨IntKind.long.wrap v.val, .timestamp⟩) ↔
      CutsToInteger s := by
  have hlong : ∀ v : Int, IntKind.long.wrap (IntKind.ulong.convert v).val = IntKind.long.wrap v :=
    fun v => by rw [IntKind.convert_val (by decide), @IntKind.wrap_wrap .long .ulong rfl]
  constructor
  · intro h
    obtain ⟨u, hu, htime⟩ := Option.map_eq_some_iff.mp h
    obtain ⟨w, hw, rfl⟩ := Option.map_eq_some_iff.mp hu
    obtain ⟨t, ht, hcheck⟩ := Option.bind_eq_some_iff.mp hw
    obtain ⟨v, hv, heq⟩ := Option.map_eq_some_iff.mp htime.symm
    rw [IntKind.stoUnsigned_eq] at hv
    obtain ⟨r, hr, rfl⟩ := Option.map_eq_some_iff.mp hv
    obtain ⟨hscan, hmax⟩ := Option.filter_eq_some_iff.mp hr
    have hmax : (r.2 : Int) ≤ IntKind.ulong.max := of_decide_eq_true hmax
    rw [← Numeral.scan_sign hscan] at ht
    have hwt : w.val = t := by
      rw [IntKind.check] at hcheck
      split at hcheck
      · exact Option.some.inj hcheck ▸ rfl
      · cases hcheck
    have hrange : IntKind.long.min ≤ t ∧ t ≤ IntKind.long.max := hwt ▸ w.property
    have hwrap : IntKind.long.wrap (Numeral.signed r) = t := by
      rw [← hlong, ← hwt]
      exact (SqlTime.mk.inj heq).1
    have hsigned := (wrap_signed_iff hmax hrange (FloatKind.trunc_nearest ht)).mp hwrap
    rw [← hsigned] at ht hrange
    exact ⟨r, q, k, hscan, hq, hk, hfirst, ht, hrange⟩
  · rintro ⟨r, q', k', hscan, hq', hk', hfirst', ht, hrange⟩
    obtain rfl := Option.some.inj (hq.symm.trans hq')
    obtain rfl := FloatKind.eq_of_first hk hk' hfirst hfirst'
    have hmax : (r.2 : Int) ≤ IntKind.ulong.max := by
      have hsign := SqlNumber.signed_cases r
      simp only [IntKind.min, IntKind.max] at hrange ⊢
      omega
    rw [IntKind.stoUnsigned_eq, hscan, Option.filter_some, if_pos (decide_eq_true hmax),
      Option.map_some, Option.map_some, hlong, IntKind.wrap_of_mem hrange, timeOf,
      SqlNumber.asIntegral, if_neg (by decide), ← Numeral.scan_sign hscan, ht, Option.bind_some,
      IntKind.check, dif_pos hrange]
    rfl

/-- The time that a text with a point gives as a wide text is the one that its integer gives. -/
lemma timeOf_parseFloating_iff {s : List Char} (hpoint : '.' ∈ s) :
    ((SqlNumber.parseFloating s).map timeOf).elim (some none) (Option.map some) =
        some ((IntKind.ulong.stoUnsigned s).map fun v => ⟨IntKind.long.wrap v.val, .timestamp⟩) ↔
      ¬SqlNumber.StartsInRange s ∧ ¬StartsWithInteger s ∨ CutsToInteger s := by
  have hstarts := (SqlNumber.parseFloating_isSome_iff hpoint).symm
  have hcuts : CutsToInteger s → (SqlNumber.parseFloating s).isSome := by
    rintro ⟨r, q, k, -, hq, hk, -⟩
    rw [← hstarts, SqlNumber.StartsInRange, if_pos hpoint]
    exact ⟨q, hq, k, hk⟩
  cases hfloat : SqlNumber.parseFloating s with
  | none =>
    rw [hfloat] at hstarts hcuts
    have hlong : (IntKind.ulong.stoUnsigned s) = none ↔ ¬StartsWithInteger s := by
      rw [← stoUnsigned_isSome_iff, Option.not_isSome_iff_eq_none]
    simp only [Option.map_none, Option.elim_none, Option.some.injEq, hstarts, Option.isSome_none,
      Bool.false_eq_true, not_false_eq_true, true_and, ← hlong]
    rw [or_iff_left fun h => absurd (hcuts h) (by simp), eq_comm, Option.map_eq_none_iff]
  | some n =>
    rw [hfloat] at hstarts
    rw [or_iff_right fun h => h.1 (hstarts.mpr rfl)]
    obtain ⟨k, x, rfl, hx, hless⟩ := SqlNumber.parseFloating_eq_some_iff.mp hfloat
    obtain ⟨q, hq, hk, rfl⟩ := FloatKind.sto_eq_some_iff.mp hx
    have hfirst : ∀ k' : FloatKind, k'.precision < k.precision → ¬k'.Holds q := by
      intro k' hlt hk'
      have hnone := hless k' hlt
      rw [FloatKind.sto_eq_some_iff.mpr ⟨q, hq, hk', rfl⟩] at hnone
      cases hnone
    exact timeOf_floating_iff hq hk hfirst

/-! ### The four conversions -/

/-- The text is converted alike as a string and as a wide string. -/
structure ConvertAlike (s : List Char) : Prop where
  number : (string (String.ofList s)).asSqlNumber = (wstring s).asSqlNumber
  bool : (string (String.ofList s)).asBool = (wstring s).asBool
  time : (string (String.ofList s)).asSqlTime = (wstring s).asSqlTime
  string : (string (String.ofList s)).asSqlString = (wstring s).asSqlString

/-- A text without a digit is no word for a boolean. One with a digit starts with neither a date
nor a time of day, and where it has a point it starts with no number at all, or with one that is cut
to the integer there. -/
def TimesAlike (s : List Char) : Prop :=
  if s.any Char.isDigit = true then
    TimeField.rest s SqlTime.dateFormat = none ∧ TimeField.rest s SqlTime.timeFormat = none ∧
      ('.' ∈ s → ¬SqlNumber.StartsInRange s ∧ ¬StartsWithInteger s ∨ CutsToInteger s)
  else Helper.isBool s = 0

lemma format_of_timeOf {n : SqlNumber} {u : SqlTime} (h : timeOf n = some u) :
    u.format_ = .timestamp := by
  obtain ⟨v, -, rfl⟩ := Option.map_eq_some_iff.mp h
  rfl

/-- A number that is read as a time is a time stamp. -/
lemma format_of_wide {s : List Char} {t : SqlTime} (h : (wstring s).asSqlTime = some (some t)) :
    t.format_ = .timestamp := by
  rw [asSqlTime] at h
  cases hparse : SqlNumber.parse s with
  | none =>
    rw [hparse] at h
    cases h
  | some n =>
    rw [hparse] at h
    obtain ⟨u, hu, heq⟩ := Option.map_eq_some_iff.mp h
    obtain rfl := Option.some.inj heq
    exact format_of_timeOf hu

/-- A text that starts with a date or a time of day is no time stamp. -/
lemma exists_parse_of_rest {s : List Char} (h : TimeField.rest s SqlTime.dateFormat ≠ none ∨
    TimeField.rest s SqlTime.timeFormat ≠ none) :
    ∃ t, SqlTime.parse s = some t ∧ t.format_ ≠ .timestamp := by
  cases hboth : TimeField.rest s SqlTime.dateTimeFormat with
  | some r =>
    obtain ⟨t, ht, hformat⟩ := SqlTime.parse_of_datetime hboth
    exact ⟨t, ht, by rw [hformat]; decide⟩
  | none =>
    cases hdate : TimeField.rest s SqlTime.dateFormat with
    | some r =>
      obtain ⟨year, mon, mday, ht⟩ := SqlTime.parse_of_date hboth hdate
      exact ⟨_, ht, TimeFormat.noConfusion⟩
    | none =>
      obtain ⟨r, htime⟩ := Option.ne_none_iff_exists'.mp (h.resolve_left fun h => h hdate)
      obtain ⟨tm, -, ht⟩ := SqlTime.parse_of_time hboth hdate htime
      exact ⟨_, ht, TimeFormat.noConfusion⟩

lemma time_alike_iff (s : List Char) :
    (string (String.ofList s)).asSqlTime = (wstring s).asSqlTime ↔ TimesAlike s := by
  have hnarrow : (string (String.ofList s)).asSqlTime = some (SqlTime.parse s) := by
    rw [asSqlTime, String.toList_ofList]
  rw [hnarrow, TimesAlike]
  by_cases hdigit : s.any Char.isDigit = true
  · rw [if_pos hdigit]
    by_cases hlayout : TimeField.rest s SqlTime.dateFormat ≠ none ∨
        TimeField.rest s SqlTime.timeFormat ≠ none
    · obtain ⟨t, ht, hformat⟩ := exists_parse_of_rest hlayout
      rw [ht]
      constructor
      · intro h
        exact absurd (format_of_wide h.symm) hformat
      · rintro ⟨hdate, htime, -⟩
        exact absurd hlayout (by simp [hdate, htime])
    · rw [not_or, not_not, not_not] at hlayout
      obtain ⟨hdate, htime⟩ := hlayout
      have hboth : TimeField.rest s SqlTime.dateTimeFormat = none := by
        rw [SqlTime.dateTimeFormat, TimeField.rest_append, hdate, Option.bind_none]
      rw [SqlTime.parse_of_timestamp hboth hdate htime, asSqlTime, SqlNumber.parse, if_pos hdigit,
        and_iff_right hdate, and_iff_right htime]
      by_cases hpoint : '.' ∈ s
      · rw [if_pos hpoint, eq_comm, timeOf_parseFloating_iff hpoint]
        exact ⟨fun h _ => h, fun h => h hpoint⟩
      · rw [if_neg hpoint, timeOf_parseIntegral]
        refine iff_of_true ?_ fun h => absurd h hpoint
        cases IntKind.ulong.stoUnsigned s <;> rfl
  · rw [if_neg hdigit]
    have hnone : SqlTime.parse s = none := by
      cases hparse : SqlTime.parse s with
      | none => rfl
      | some t => exact absurd (SqlTime.any_of_fits (SqlTime.fits_of_parse hparse).1) hdigit
    rw [hnone, asSqlTime, SqlNumber.parse, if_neg hdigit, SqlNumber.parseBool]
    split
    · next hbool => exact iff_of_false (by simp [timeOf, SqlNumber.asIntegral]) hbool
    · next hbool => exact iff_of_true rfl (not_not.mp hbool)

/-- The ASCII texts. -/
structure AsciiText where
  chars : List Char
  ascii : ∀ c ∈ chars, c.toNat < 128

/-- An ASCII text is converted alike exactly if it is the same time. -/
theorem convertAlike_iff (s : AsciiText) : ConvertAlike s.chars ↔ TimesAlike s.chars := by
  constructor
  · intro h
    exact (time_alike_iff s.chars).mp h.time
  · intro h
    refine ⟨?_, ?_, (time_alike_iff s.chars).mpr h, ?_⟩
    · rw [asSqlNumber, asSqlNumber, String.toList_ofList]
    · rw [asBool, asBool, String.toList_ofList]
    · exact congrArg some (convertString_ascii s.ascii).symm

/-- A date and a time of day, whose year is the time stamp that the wide text gives. -/
theorem not_convertAlike : ¬∀ s : AsciiText, ConvertAlike s.chars := by
  intro h
  have htime := (h ⟨"2016-06-12 10:32:23".toList, by simp⟩).time
  exact absurd htime (by decide)

end SqlValue

end CodaDb
