import CodaDb.Lib.Decimal
import CodaDb.Sql.Layout
import CodaDb.Sql.Numerals

/-!
# The texts that are accepted

The functions of the C library read a number or a time at the start of a text. Which texts are
accepted, and which of them are read whole.
-/

namespace CodaDb

/-! ### Numbers -/

/-- The type holds the number: it does not overflow, and it is exact if it is tiny. -/
def FloatKind.Holds (k : FloatKind) : RealNumeral → Prop
  | .infinity | .nan => True
  | .quotient num den =>
    match FloatValue.round k false num den with
    | .finite _ m e => FloatValue.Tiny k num den → m * 2 ^ e.toNat * den = num * 2 ^ (-e).toNat
    | .infinity _ | .nan _ => False

/-- The sign has no part in the rounding. -/
lemma FloatValue.round_cases (k : FloatKind) (num den : Nat) :
    (∀ negative, round k negative num den = .infinity negative) ∨
      ∃ m e, ∀ negative, round k negative num den = .finite negative m e := by
  by_cases hover : num ≠ 0 ∧
      2 ^ (k.maxExponent - max (ilog2 num den - (k.precision - 1)) k.minExponent).toNat ≤
        roundHalfEven (num * 2 ^ (-max (ilog2 num den - (k.precision - 1)) k.minExponent).toNat)
          (den * 2 ^ (max (ilog2 num den - (k.precision - 1)) k.minExponent).toNat)
  · exact .inl fun negative => if_pos hover
  · exact .inr ⟨_, _, fun negative => if_neg hover⟩

/-- The value of the type that is nearest to a number. -/
def FloatKind.nearest (k : FloatKind) (negative : Bool) : RealNumeral → FloatValue
  | .infinity => .infinity negative
  | .nan => .nan negative
  | .quotient num den => .round k negative num den

lemma FloatKind.sto_eq_some_iff {k : FloatKind} {str : List Char} {x : FloatValue} :
    k.sto str = some x ↔
      ∃ q, RealNumeral.scan (Numeral.sign (str.dropWhile Numeral.isSpace)).2 = some q ∧
        k.Holds q ∧ k.nearest (Numeral.sign (str.dropWhile Numeral.isSpace)).1 q = x := by
  rw [FloatKind.sto]
  generalize Numeral.sign (str.dropWhile Numeral.isSpace) = signed
  obtain ⟨negative, body⟩ := signed
  cases hscan : RealNumeral.scan body with
  | none => simp [hscan]
  | some q =>
    simp only [hscan, Option.some.injEq, exists_eq_left', FloatKind.Holds, FloatKind.nearest]
    cases q with
    | infinity | nan => simp
    | quotient num den =>
      rcases FloatValue.round_cases k num den with hround | ⟨m, e, hround⟩
      · simp [hround]
      · simp [hround]

lemma FloatKind.sto_isSome_iff (k : FloatKind) (str : List Char) :
    (k.sto str).isSome ↔
      ∃ q, RealNumeral.scan (Numeral.sign (str.dropWhile Numeral.isSpace)).2 = some q ∧
        k.Holds q := by
  simp only [Option.isSome_iff_exists, sto_eq_some_iff]
  constructor
  · rintro ⟨x, q, hq, hk, -⟩
    exact ⟨q, hq, hk⟩
  · rintro ⟨q, hq, hk⟩
    exact ⟨_, q, hq, hk, rfl⟩

lemma IntKind.check_isSome_iff {k : IntKind} {v : Int} :
    (k.check v).isSome ↔ k.min ≤ v ∧ v ≤ k.max := by
  by_cases h : k.min ≤ v ∧ v ≤ k.max
  · simp [IntKind.check, h]
  · simp [IntKind.check, h]

lemma IntKind.stoUnsigned_eq (k : IntKind) (str : List Char) :
    k.stoUnsigned str = ((Numeral.scan str).filter fun r => (r.2 : Int) ≤ k.max).map
      fun r => k.convert (Numeral.signed r) := by
  rw [stoUnsigned]
  cases Numeral.scan str with
  | none => rfl
  | some r =>
    rw [Option.bind_some, Option.filter]
    simp only [decide_eq_true_eq]
    split <;> rfl

namespace SqlNumber

/-- A number that one of the types holds stands at the start of the text. -/
def StartsInRange (value : List Char) : Prop :=
  if '.' ∈ value then
    ∃ q, RealNumeral.scan (Numeral.sign (value.dropWhile Numeral.isSpace)).2 = some q ∧
      ∃ k : FloatKind, k.Holds q
  else ∃ r, Numeral.scan value = some r ∧ (r.2 : Int) ≤ IntKind.ulong.max

lemma parseFloating_isSome_iff {value : List Char} (h : '.' ∈ value) :
    (parseFloating value).isSome ↔ StartsInRange value := by
  have hkind : (parseFloating value).isSome ↔ ∃ k : FloatKind, (k.sto value).isSome := by
    simp only [parseFloating, Option.isSome_or, Option.isSome_map, Bool.or_eq_true]
    constructor
    · rintro (h | h | h)
      · exact ⟨.float, h⟩
      · exact ⟨.double, h⟩
      · exact ⟨.longDouble, h⟩
    · rintro ⟨k, h⟩
      cases k with
      | float => exact .inl h
      | double => exact .inr (.inl h)
      | longDouble => exact .inr (.inr h)
  rw [hkind, StartsInRange, if_pos h]
  simp only [FloatKind.sto_isSome_iff]
  constructor
  · rintro ⟨k, q, hq, hk⟩
    exact ⟨q, hq, k, hk⟩
  · rintro ⟨q, hq, k, hk⟩
    exact ⟨k, q, hq, hk⟩

lemma parseIntegral_isSome_iff (value : List Char) :
    (parseIntegral value).isSome ↔
      ∃ r, Numeral.scan value = some r ∧ (r.2 : Int) ≤ IntKind.ulong.max := by
  cases hscan : Numeral.scan value with
  | none => simp [parseIntegral_of_scan_none hscan]
  | some r =>
    simp only [parseIntegral_of_scan hscan, Option.isSome_or, Option.isSome_map, Bool.or_eq_true,
      Option.some.injEq, exists_eq_left', IntKind.check_isSome_iff]
    have hsome : (if (r.2 : Int) ≤ IntKind.ulong.max then
        some (integral .ulong (IntKind.ulong.convert (Numeral.signed r))) else none).isSome ↔
          (r.2 : Int) ≤ IntKind.ulong.max := by
      split <;> simp_all
    rw [hsome]
    have hsign := signed_cases r
    simp only [IntKind.min, IntKind.max]
    omega

/-- A text with a digit is accepted exactly if it starts with a number in range. -/
theorem parse_isSome_iff {value : List Char} (h : value.any Char.isDigit = true) :
    (parse value).isSome ↔ StartsInRange value := by
  rw [parse, if_pos h]
  by_cases hpoint : '.' ∈ value
  · rw [if_pos hpoint, parseFloating_isSome_iff hpoint]
  · rw [if_neg hpoint, StartsInRange, if_neg hpoint, parseIntegral_isSome_iff]

/-- Of a text with a digit that is accepted the whole is a decimal numeral. -/
def Whole (value : List Char) : Prop :=
  ∀ n, parse value = some n → value.any Char.isDigit = true → Numeral.IsDecimal value

lemma whole_iff (value : List Char) : Whole value ↔
    (value.any Char.isDigit = true → StartsInRange value →
      ∃ r, Numeral.afterMantissa value = some r ∧ Numeral.IsExponent r) := by
  constructor
  · intro h hdigit hstarts
    obtain ⟨n, hn⟩ := Option.isSome_iff_exists.mp ((parse_isSome_iff hdigit).mpr hstarts)
    exact (Numeral.isDecimal_iff value).mp (h n hn hdigit)
  · intro h n hn hdigit
    refine (Numeral.isDecimal_iff value).mpr (h hdigit ((parse_isSome_iff hdigit).mp ?_))
    rw [hn]
    rfl

end SqlNumber

/-! ### Times -/

namespace SqlTime

open TimeField

/-- The whole text is in the layout of a format. -/
def IsIn (s : List Char) : TimeFormat → Prop
  | .datetime => rest s dateTimeFormat = some []
  | .date => rest s dateFormat = some []
  | .time => rest s timeFormat = some []
  | .timestamp => Numeral.IsInteger s

/-- The whole of a text that is accepted is in the layout of its format. -/
def Whole (s : List Char) : Prop := ∀ t, parse s = some t → IsIn s t.format_

/-- What the first layout that fits the start of a text leaves of it. The last one is an integer in
the range of `unsigned long`. -/
def leftover (s : List Char) : Option (List Char) :=
  (rest s dateTimeFormat).or <| (rest s dateFormat).or <| (rest s timeFormat).or <|
    ((Numeral.scan s).filter fun r => (r.2 : Int) ≤ IntKind.ulong.max).map
      fun _ => Numeral.afterInteger s

/-- A text is accepted if something fits its start. -/
lemma parse_isSome (s : List Char) : (parse s).isSome = (leftover s).isSome := by
  cases hboth : rest s dateTimeFormat with
  | some r =>
    obtain ⟨t, ht, -⟩ := parse_of_datetime hboth
    rw [ht, leftover, hboth]
    rfl
  | none =>
    cases hdate : rest s dateFormat with
    | some r =>
      obtain ⟨year, mon, mday, ht⟩ := parse_of_date hboth hdate
      rw [ht, leftover, hboth, hdate]
      rfl
    | none =>
      cases htime : rest s timeFormat with
      | some r =>
        obtain ⟨tm, -, ht⟩ := parse_of_time hboth hdate htime
        rw [ht, leftover, hboth, hdate, htime]
        rfl
      | none =>
        rw [parse_of_timestamp hboth hdate htime, leftover, hboth, hdate, htime,
          IntKind.stoUnsigned_eq]
        simp

/-- The text is in the layout of its format if nothing of it is left. -/
lemma leftover_of_fits {s : List Char} {f : TimeFormat} (h : Fits s f) :
    ∃ r, leftover s = some r ∧ (IsIn s f ↔ r = []) := by
  cases h with
  | @datetime r hboth =>
    refine ⟨r, by rw [leftover, hboth]; rfl, ?_⟩
    rw [IsIn, hboth, Option.some.injEq]
  | @date r hboth hdate =>
    refine ⟨r, by rw [leftover, hboth, hdate]; rfl, ?_⟩
    rw [IsIn, hdate, Option.some.injEq]
  | @time r hboth hdate htime =>
    refine ⟨r, by rw [leftover, hboth, hdate, htime]; rfl, ?_⟩
    rw [IsIn, htime, Option.some.injEq]
  | timestamp hboth hdate htime hv =>
    rw [IntKind.stoUnsigned_eq, Option.map_eq_some_iff] at hv
    obtain ⟨r, hr, -⟩ := hv
    refine ⟨Numeral.afterInteger s, by rw [leftover, hboth, hdate, htime, hr]; rfl, ?_⟩
    exact Numeral.isInteger_iff (Option.filter_eq_some_iff.mp hr).1

lemma whole_iff (s : List Char) : Whole s ↔ ∀ r, leftover s = some r → r = [] := by
  constructor
  · intro h r hr
    obtain ⟨t, ht⟩ : ∃ t, parse s = some t := by
      rw [← Option.isSome_iff_exists, parse_isSome, hr]
      rfl
    obtain ⟨r', hr', hin⟩ := leftover_of_fits (fits_of_parse ht).1
    obtain rfl := Option.some.inj (hr.symm.trans hr')
    exact hin.mp (h t ht)
  · intro h t ht
    obtain ⟨r, hr, hin⟩ := leftover_of_fits (fits_of_parse ht).1
    exact hin.mpr (h r hr)

end SqlTime

/-- Numbers and times are read from whole texts only where nothing stands behind the number or the
layout at the start of the text. -/
theorem accepted_whole_iff (s : List Char) :
    (SqlNumber.Whole s ∧ SqlTime.Whole s) ↔
      (s.any Char.isDigit = true → SqlNumber.StartsInRange s →
        ∃ r, Numeral.afterMantissa s = some r ∧ Numeral.IsExponent r) ∧
      ∀ r, SqlTime.leftover s = some r → r = [] := by
  rw [SqlNumber.whole_iff, SqlTime.whole_iff]

/-- The text `12abc` is read as the number 12, and the text `2016-03-11T08:15` as a date. -/
theorem not_accepted_whole : (¬∀ s, SqlNumber.Whole s) ∧ ¬∀ s, SqlTime.Whole s := by
  constructor
  · intro h
    have hread : SqlNumber.parse "12abc".toList = some (.integral .int ⟨12, by decide⟩) := by decide
    obtain ⟨r, hr, hexponent⟩ := (Numeral.isDecimal_iff _).mp (h _ _ hread (by decide))
    have hafter : Numeral.afterMantissa "12abc".toList = some "abc".toList := by decide
    obtain rfl := Option.some.inj (hr.symm.trans hafter)
    exact absurd hexponent.1 (by decide)
  · intro h
    have hread : SqlTime.parse "2016-03-11T08:15".toList = some ⟨1457654400, .date⟩ := by decide
    have hin : TimeField.rest "2016-03-11T08:15".toList SqlTime.dateFormat = some [] := h _ _ hread
    exact absurd hin (by decide)

end CodaDb
