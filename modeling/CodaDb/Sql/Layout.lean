import CodaDb.Sql.Calendar
import CodaDb.Sql.Equality
import Mathlib.Data.List.DropRight

/-!
# Texts in a layout

What `strptime` reads of a text and what it leaves in its `struct tm`, also where the text does not
fit the whole format.
-/

namespace CodaDb

/-! ### The fields that are read -/

/-- The fields are in the ranges of the directives. -/
structure RawTm.Bounded (tm : RawTm) : Prop where
  year : -1900 ≤ tm.year ∧ tm.year ≤ 8099
  mon : 0 ≤ tm.mon ∧ tm.mon ≤ 11
  mday : 0 ≤ tm.mday ∧ tm.mday ≤ 31
  hour : 0 ≤ tm.hour ∧ tm.hour ≤ 23
  min : 0 ≤ tm.min ∧ tm.min ≤ 59
  sec : 0 ≤ tm.sec ∧ tm.sec ≤ 61

lemma RawTm.bounded_default : RawTm.Bounded {} := by
  constructor <;> decide

/-- The time of such fields is in the range of `time_t`. -/
lemma timegm_mem {tm : RawTm} (h : tm.Bounded) :
    IntKind.long.min ≤ timegm tm ∧ timegm tm ≤ IntKind.long.max := by
  obtain ⟨hyear, hmon, hmday, hhour, hmin, hsec⟩ := h
  have hmod : tm.mon.fmod 12 = tm.mon := by
    rw [Int.fmod_eq_emod_of_nonneg _ (by omega)]
    omega
  have hdiv : tm.mon.fdiv 12 = 0 := by
    rw [Int.fdiv_eq_ediv_of_nonneg _ (by omega)]
    omega
  have hlo : IntKind.long.min = -(2 ^ 63) := rfl
  have hhi : IntKind.long.max = 2 ^ 63 - 1 := rfl
  simp only [timegm, hmod, hdiv]
  rw [Int.fdiv_eq_ediv_of_nonneg _ (by omega)]
  split
  · omega
  · omega

namespace TimeField

lemma number_mem {lo hi digits : Nat} {cs : List Char} {r : Nat × List Char}
    (h : number lo hi digits cs = some r) : lo ≤ r.1 ∧ r.1 ≤ hi := by
  rw [number] at h
  split at h
  · split at h
    · next c rest _ _ =>
      dsimp only at h
      split at h
      · next hmem =>
        cases h
        exact hmem
      · cases h
    · cases h
  · cases h

/-- A directive keeps the fields in their ranges. -/
lemma read_bounded {tm tm' : RawTm} {cs cs' : List Char} {f : TimeField} (hb : tm.Bounded)
    (h : read tm cs f = some (tm', cs')) : tm'.Bounded := by
  cases f with
  | space =>
    cases h
    exact hb
  | char c =>
    rw [read] at h
    split at h
    · cases h
      exact hb
    · cases h
  | year | month | day | hour | minute | second =>
    obtain ⟨r, hr, heq⟩ := Option.map_eq_some_iff.mp h
    cases heq
    have hmem := number_mem hr
    obtain ⟨hyear, hmon, hmday, hhour, hmin, hsec⟩ := hb
    constructor <;> dsimp only <;> omega

/-- So does a format, whether the text fits it or not. -/
theorem strptime_bounded {tm : RawTm} (hb : tm.Bounded) (cs : List Char) (fs : List TimeField) :
    (strptime tm cs fs).1.Bounded := by
  induction fs generalizing tm cs with
  | nil => exact hb
  | cons f fs ih =>
    rw [strptime]
    split
    · exact hb
    · next hread => exact ih (read_bounded hb hread) _

/-! ### The text that is read -/

/-- What a format leaves of a text that fits it. -/
def rest : List Char → List TimeField → Option (List Char)
  | cs, [] => some cs
  | cs, f :: fs => (read {} cs f).bind fun r => rest r.2 fs

lemma rest_append (cs : List Char) (fs gs : List TimeField) :
    rest cs (fs ++ gs) = (rest cs fs).bind fun r => rest r gs := by
  induction fs generalizing cs with
  | nil => rfl
  | cons f fs ih =>
    rw [List.cons_append, rest, rest, Option.bind_assoc]
    exact congrArg _ (funext fun r => ih r.2)

/-- The fields do not influence what a directive reads. -/
lemma read_rest (tm : RawTm) (cs : List Char) (f : TimeField) :
    (read tm cs f).map Prod.snd = (read {} cs f).map Prod.snd := by
  cases f with
  | space => rfl
  | char c =>
    rw [read, read]
    split <;> rfl
  | year | month | day | hour | minute | second =>
    rw [read, read, Option.map_map, Option.map_map]
    rfl

lemma strptime_snd (tm : RawTm) (cs : List Char) (fs : List TimeField) :
    (strptime tm cs fs).2 = (rest cs fs).isSome := by
  induction fs generalizing tm cs with
  | nil => rfl
  | cons f fs ih =>
    have hrest := read_rest tm cs f
    rw [strptime, rest]
    cases htm : read tm cs f with
    | none =>
      rw [htm, Option.map_none, eq_comm, Option.map_eq_none_iff] at hrest
      rw [hrest]
      rfl
    | some r =>
      rw [htm, Option.map_some, eq_comm, Option.map_eq_some_iff] at hrest
      obtain ⟨r', hr', heq⟩ := hrest
      rw [hr', Option.bind_some, heq]
      exact ih r.1 r.2

/-- After one format the next one is read, of what the first leaves. -/
lemma strptime_append (tm : RawTm) {cs r : List Char} {fs : List TimeField}
    (h : rest cs fs = some r) (gs : List TimeField) :
    strptime tm cs (fs ++ gs) = strptime (strptime tm cs fs).1 r gs := by
  induction fs generalizing tm cs with
  | nil =>
    obtain rfl := Option.some.inj h
    rfl
  | cons f fs ih =>
    rw [rest, Option.bind_eq_some_iff] at h
    obtain ⟨r', hr', hrest⟩ := h
    have hread := read_rest tm cs f
    rw [hr', Option.map_some, Option.map_eq_some_iff] at hread
    obtain ⟨r'', hr'', heq⟩ := hread
    rw [List.cons_append, strptime, strptime, hr'']
    exact ih r''.1 (heq ▸ hrest)

/-- White space in front of a number is skipped again. -/
lemma number_dropWhile (lo hi digits : Nat) (cs : List Char) :
    number lo hi digits (cs.dropWhile Numeral.isSpace) = number lo hi digits cs := by
  rw [number, number, List.dropWhile_idempotent]

end TimeField

namespace SqlTime

open TimeField

/-- The fields that a date sets. -/
lemma exists_strptime_date {cs r : List Char} (h : rest cs dateFormat = some r) :
    ∃ year mon mday, ∀ tp : RawTm, (strptime tp cs dateFormat).1 =
      { tp with year := year, mon := mon, mday := mday } := by
  simp only [dateFormat, rest, TimeField.read, Option.bind_map, Option.bind_eq_some_iff] at h
  obtain ⟨y, hy, h⟩ := h
  simp only [Function.comp_apply, Option.bind_eq_some_iff, Option.ite_none_right_eq_some] at h
  obtain ⟨_, ⟨hdash, heq⟩, m, hm, h⟩ := h
  obtain rfl := Option.some.inj heq
  obtain ⟨_, ⟨hdash', heq⟩, d, hd, -⟩ := h
  obtain rfl := Option.some.inj heq
  refine ⟨(y.1 : Int) - 1900, (m.1 : Int) - 1, d.1, ?_⟩
  intro tp
  simp only [dateFormat, strptime, TimeField.read, hy, Option.map_some, hdash, if_true, hm, hdash',
    hd]

/-- The fields that a time of day sets. -/
lemma exists_strptime_time {cs r : List Char} (h : rest cs timeFormat = some r) :
    ∃ hour min sec, ∀ tp : RawTm, (strptime tp cs timeFormat).1 =
      { tp with hour := hour, min := min, sec := sec } := by
  simp only [timeFormat, rest, TimeField.read, Option.bind_map, Option.bind_eq_some_iff] at h
  obtain ⟨y, hy, h⟩ := h
  simp only [Function.comp_apply, Option.bind_eq_some_iff, Option.ite_none_right_eq_some] at h
  obtain ⟨_, ⟨hcolon, heq⟩, m, hm, h⟩ := h
  obtain rfl := Option.some.inj heq
  obtain ⟨_, ⟨hcolon', heq⟩, d, hd, -⟩ := h
  obtain rfl := Option.some.inj heq
  refine ⟨y.1, m.1, d.1, ?_⟩
  intro tp
  simp only [timeFormat, strptime, TimeField.read, hy, Option.map_some, hcolon, if_true, hm,
    hcolon', hd]

/-! ### Which format reads a text -/

/-- `%Y-%m-%d %H:%M:%S` -/
abbrev dateTimeFormat : List TimeField := dateFormat ++ .space :: timeFormat

lemma exists_strptime (tm : RawTm) (cs : List Char) (fs : List TimeField) :
    ∃ tp, tp = (strptime tm cs fs).1 ∧ strptime tm cs fs = (tp, (rest cs fs).isSome) :=
  ⟨_, rfl, Prod.ext rfl (strptime_snd tm cs fs)⟩

/-- The formats are tried in turn, on the fields that the earlier ones leave. -/
lemma parse_eq (s : List Char) : ∃ both date time,
    both = (strptime {} s dateTimeFormat).1 ∧ date = (strptime both s dateFormat).1 ∧
      time = (strptime date s timeFormat).1 ∧
      parse s =
        if (rest s dateTimeFormat).isSome then some ⟨timegm both, .datetime⟩
        else if (rest s dateFormat).isSome then some ⟨timegm date, .date⟩
        else if (rest s timeFormat).isSome then
          some ⟨timegm { time with year := 70, mon := 0, mday := 1 }, .time⟩
        else (IntKind.ulong.stoUnsigned s).map fun v => ⟨IntKind.long.wrap v.val, .timestamp⟩ := by
  obtain ⟨both, hboth, hboth'⟩ := exists_strptime {} s dateTimeFormat
  obtain ⟨date, hdate, hdate'⟩ := exists_strptime both s dateFormat
  obtain ⟨time, htime, htime'⟩ := exists_strptime date s timeFormat
  refine ⟨both, date, time, hboth, hdate, htime, ?_⟩
  by_cases hne : s = []
  · subst hne
    rfl
  · simp only [parse, if_neg hne, hboth', hdate', htime']

/-- The format in which a text is read, and the formats that do not fit it. -/
inductive Fits (s : List Char) : TimeFormat → Prop where
  | datetime {r : List Char} (h : rest s dateTimeFormat = some r) : Fits s .datetime
  | date {r : List Char} (hboth : rest s dateTimeFormat = none) (h : rest s dateFormat = some r) :
    Fits s .date
  | time {r : List Char} (hboth : rest s dateTimeFormat = none) (hdate : rest s dateFormat = none)
    (h : rest s timeFormat = some r) : Fits s .time
  | timestamp {v : CInt .ulong} (hboth : rest s dateTimeFormat = none)
    (hdate : rest s dateFormat = none) (htime : rest s timeFormat = none)
    (h : IntKind.ulong.stoUnsigned s = some v) : Fits s .timestamp

/-- A time that is read has the format that fits, and its value is a `time_t`. -/
lemma fits_of_parse {s : List Char} {t : SqlTime} (h : parse s = some t) :
    Fits s t.format_ ∧ t.value.val = t.value_ := by
  obtain ⟨both, date, time, hboth, hdate, htime, heq⟩ := parse_eq s
  have hvalue : ∀ {v : Int} {f : TimeFormat}, IntKind.long.min ≤ v ∧ v ≤ IntKind.long.max →
      (SqlTime.mk v f).value.val = v := fun hv =>
    (IntKind.convert_val (by decide) _).trans (IntKind.wrap_of_mem hv)
  have hbounded : both.Bounded := hboth ▸ strptime_bounded RawTm.bounded_default _ _
  have hbounded' : date.Bounded := hdate ▸ strptime_bounded hbounded _ _
  have hbounded'' : time.Bounded := htime ▸ strptime_bounded hbounded' _ _
  rw [heq] at h
  split at h
  · next hsome =>
    cases h
    obtain ⟨r, hr⟩ := Option.isSome_iff_exists.mp hsome
    exact ⟨.datetime hr, hvalue (timegm_mem hbounded)⟩
  · next hnone =>
    rw [Option.not_isSome_iff_eq_none] at hnone
    split at h
    · next hsome =>
      cases h
      obtain ⟨r, hr⟩ := Option.isSome_iff_exists.mp hsome
      exact ⟨.date hnone hr, hvalue (timegm_mem hbounded')⟩
    · next hnone' =>
      rw [Option.not_isSome_iff_eq_none] at hnone'
      split at h
      · next hsome =>
        cases h
        obtain ⟨r, hr⟩ := Option.isSome_iff_exists.mp hsome
        refine ⟨.time hnone hnone' hr, hvalue (timegm_mem ?_)⟩
        exact { hbounded'' with
          year := by dsimp only; decide
          mon := by dsimp only; decide
          mday := by dsimp only; decide }
      · next hnone'' =>
        rw [Option.not_isSome_iff_eq_none] at hnone''
        obtain ⟨v, hv, rfl⟩ := Option.map_eq_some_iff.mp h
        exact ⟨.timestamp hnone hnone' hnone'' hv, hvalue (IntKind.long.wrap_mem _)⟩

lemma parse_of_datetime {s r : List Char} (h : rest s dateTimeFormat = some r) :
    ∃ t, parse s = some t ∧ t.format_ = .datetime := by
  obtain ⟨both, date, time, -, -, -, heq⟩ := parse_eq s
  exact ⟨_, heq.trans (if_pos (by rw [h]; rfl)), rfl⟩

lemma parse_of_timestamp {s : List Char} (hboth : rest s dateTimeFormat = none)
    (hdate : rest s dateFormat = none) (htime : rest s timeFormat = none) :
    parse s =
      (IntKind.ulong.stoUnsigned s).map fun v => ⟨IntKind.long.wrap v.val, .timestamp⟩ := by
  obtain ⟨both, date, time, -, -, -, heq⟩ := parse_eq s
  rw [heq, hboth, hdate, htime]
  rfl

/-- The hour at the start of the text behind a date, if there is one. -/
def leftHour (r : List Char) : Nat := ((number 0 23 2 r).map Prod.fst).getD 0

/-- The minute behind that hour and a colon. -/
def leftMinute (r : List Char) : Nat :=
  match number 0 23 2 r with
  | some (_, ':' :: cs) => ((number 0 59 2 cs).map Prod.fst).getD 0
  | _ => 0

/-- The first format, where it fails behind the date, leaves an hour and a minute. -/
lemma strptime_left {tp : RawTm} {r : List Char} (hhour : tp.hour = 0) (hmin : tp.min = 0)
    (h : rest r (.space :: timeFormat) = none) :
    (strptime tp r (.space :: timeFormat)).1 =
      { tp with hour := leftHour r, min := leftMinute r } := by
  obtain ⟨year, mon, mday, hour, min, sec⟩ := tp
  obtain rfl : hour = 0 := hhour
  obtain rfl : min = 0 := hmin
  simp only [timeFormat, rest, strptime, TimeField.read, Option.bind_some, number_dropWhile] at h ⊢
  rw [leftHour, leftMinute]
  cases hread : number 0 23 2 r with
  | none => rfl
  | some x =>
    obtain ⟨hour, cs⟩ := x
    rw [hread] at h
    cases cs with
    | nil => rfl
    | cons c cs =>
      by_cases hc : c = ':'
      · subst hc
        cases hread' : number 0 59 2 cs with
        | none => simp [hread']
        | some y =>
          obtain ⟨min, cs'⟩ := y
          by_cases hc : cs'.head? = some ':'
          · -- a second behind them would make the format fit
            cases hread'' : number 0 61 2 cs'.tail with
            | none => simp [hread', hc, hread'']
            | some z => simp [hread', hc, hread''] at h
          · simp [hread', hc]
      · simp [hc]

/-- So a date is read with a time of day. -/
lemma parse_of_date {s r : List Char} (hboth : rest s dateTimeFormat = none)
    (hdate : rest s dateFormat = some r) : ∃ year mon mday,
      parse s = some ⟨timegm ⟨year, mon, mday, leftHour r, leftMinute r, 0⟩, .date⟩ := by
  obtain ⟨both, date, time, hboth', hdate', -, heq⟩ := parse_eq s
  obtain ⟨year, mon, mday, hset⟩ := exists_strptime_date hdate
  have hleft : rest r (.space :: timeFormat) = none := by
    have hfails := strptime_snd {} s dateTimeFormat
    rw [strptime_append {} hdate, strptime_snd, hboth] at hfails
    exact Option.not_isSome_iff_eq_none.mp (by simp [hfails])
  rw [strptime_append {} hdate, hset, strptime_left rfl rfl hleft] at hboth'
  rw [hboth', hset] at hdate'
  refine ⟨year, mon, mday, ?_⟩
  rw [heq, hboth, hdate, hdate']
  rfl

/-- A time of day is set again whole. -/
lemma parse_of_time {s r : List Char} (hboth : rest s dateTimeFormat = none)
    (hdate : rest s dateFormat = none) (htime : rest s timeFormat = some r) :
    ∃ tm, strptime {} s timeFormat = (tm, true) ∧
      parse s = some ⟨3600 * tm.hour + 60 * tm.min + tm.sec, .time⟩ := by
  obtain ⟨both, date, time, -, -, htime', heq⟩ := parse_eq s
  obtain ⟨hour, min, sec, hset⟩ := exists_strptime_time htime
  obtain ⟨tm, htm, htm'⟩ := exists_strptime {} s timeFormat
  rw [htime] at htm'
  rw [hset] at htm htime'
  refine ⟨tm, htm', ?_⟩
  have hepoch : timegm { time with year := 70, mon := 0, mday := 1 } =
      3600 * tm.hour + 60 * tm.min + tm.sec := by
    rw [htm, htime', timegm_epoch]
    dsimp only
    omega
  rw [heq, hboth, hdate, htime, hepoch]
  rfl

end SqlTime

end CodaDb
