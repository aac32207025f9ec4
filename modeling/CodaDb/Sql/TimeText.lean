import CodaDb.Sql.Layout
import CodaDb.Sql.Shown

/-!
# Times and their texts

Which times are read back from their own text, and what a text with a date or a time of day says
about the time that is read from it.
-/

namespace CodaDb

namespace SqlTime

open TimeField

/-! ### From a time to its text and back -/

/-- A date and a time of day, with the space between them, set all the fields. -/
lemma parse_dateTimeText {tm : Tm} (h : tm.InRange) (hlo : 0 ≤ tm.year) (hhi : tm.year ≤ 9999) :
    parse (dateText tm ++ " " ++ timeText tm).toList = some ⟨timegm tm.raw, .datetime⟩ := by
  have hlist : (dateText tm ++ " " ++ timeText tm).toList =
      (dateText tm).toList ++ ' ' :: (timeText tm).toList := by simp
  have hne : (dateText tm).toList ++ ' ' :: (timeText tm).toList ≠ [] := by simp
  have hskip : (' ' :: (timeText tm).toList).dropWhile Numeral.isSpace = (timeText tm).toList := by
    obtain ⟨ds, hds, hlength, hdigit, -⟩ :=
      @exists_zeroPadded tm.hour (Nat.lt_of_le_of_lt h.hour (by decide))
    obtain ⟨d, ds, rfl⟩ :=
      List.exists_cons_of_length_pos (Nat.lt_of_lt_of_eq (by decide) hlength.symm)
    have htime : (timeText tm).toList = d :: (ds ++ (':' :: ((zeroPadded 2 tm.minute).toList ++
        ':' :: (zeroPadded 2 tm.second).toList))) := by
      simp [timeText, hds]
    have hd := Numeral.isSpace_of_isDigit (hdigit d (List.mem_cons_self ..))
    rw [List.dropWhile_cons_of_pos rfl, htime, List.dropWhile_cons_of_neg (by simp [hd])]
  have hread : strptime {} ((dateText tm).toList ++ ' ' :: (timeText tm).toList)
      (dateFormat ++ .space :: timeFormat) = (tm.raw, true) := by
    rw [strptime_date h hlo hhi, strptime, TimeField.read]
    dsimp only
    rw [hskip, strptime_time h]
  rw [hlist]
  simp only [parse, if_neg hne, hread, if_true]

/-- The format that the text of a time is read in: a time stamp is shown as a date and a time. -/
def formatRead : TimeFormat → TimeFormat
  | .timestamp => .datetime
  | f => f

/-- The times whose text has all of their value. -/
structure Shown (t : SqlTime) : Prop where
  year : 1000 ≤ (gmtime t.value_).year ∧ (gmtime t.value_).year ≤ 9999
  date : t.format_ = .date → 86400 ∣ t.value_
  time : t.format_ = .time → 0 ≤ t.value_ ∧ t.value_ < 86400

/-- The text of a time is read back as a time that equals it, but for the format of a time stamp. -/
theorem parse_shown {t : SqlTime} (h : t.Shown) :
    ∃ text u, t.text = some text ∧ parse text.toList = some u ∧
      u.equals { t with format_ := formatRead t.format_ } = true := by
  obtain ⟨hlo, hhi⟩ := h.year
  have hrange := gmtime_inRange t.value_
  have hyear : IntKind.int.min ≤ (gmtime t.value_).year - 1900 ∧
      (gmtime t.value_).year - 1900 ≤ IntKind.int.max := by
    have hmin : IntKind.int.min = -(2 ^ 31) := rfl
    have hmax : IntKind.int.max = 2 ^ 31 - 1 := rfl
    omega
  refine ⟨t.toString, { t with format_ := formatRead t.format_ }, if_pos hyear, ?_, ?_⟩
  · cases hformat : t.format_ with
    | datetime | timestamp =>
      have htext : t.toString =
          dateText (gmtime t.value_) ++ " " ++ timeText (gmtime t.value_) := by
        rw [SqlTime.toString, hformat]
      rw [htext, parse_dateTimeText hrange (by omega) hhi, timegm_gmtime]
      rfl
    | date =>
      have htext : t.toString = dateText (gmtime t.value_) := by rw [SqlTime.toString, hformat]
      have hday : t.value_.fdiv 86400 * 86400 = t.value_ :=
        Int.fdiv_mul_cancel (h.date hformat)
      rw [htext, parse_dateText hrange (by omega) hhi, timegm_date, hday]
      rfl
    | time =>
      have htext : t.toString = timeText (gmtime t.value_) := by rw [SqlTime.toString, hformat]
      obtain ⟨hnonneg, hlt⟩ := h.time hformat
      have hsecs := secondOfDay_gmtime t.value_
      rw [Int.fmod_eq_emod_of_nonneg _ (by omega), Int.emod_eq_of_lt hnonneg hlt,
        Tm.secondOfDay] at hsecs
      have hvalue : ((gmtime t.value_).hour * 3600 + (gmtime t.value_).minute * 60 +
          (gmtime t.value_).second : Int) = t.value_ := by
        omega
      rw [htext, parse_timeText hrange, hvalue]
      rfl
  · simp [SqlTime.equals]

theorem parse_shown_timestamp : ∃ text u, SqlTime.text ⟨1457684130, .timestamp⟩ = some text ∧
    parse text.toList = some u ∧ u.equals ⟨1457684130, .datetime⟩ = true :=
  @parse_shown ⟨1457684130, .timestamp⟩
    { year := by decide
      date := by decide
      time := by decide }

/-- A time stamp is not read back as a time stamp. -/
theorem not_parse_shown : ¬∀ t : SqlTime, t.Shown →
    ∃ text u, t.text = some text ∧ parse text.toList = some u ∧ u.equals t = true := by
  intro h
  obtain ⟨text, u, htext, hu, hequals⟩ := h ⟨0, .timestamp⟩
    { year := by decide
      date := by decide
      time := by decide }
  have htext' : SqlTime.text ⟨0, .timestamp⟩ = some "1970-01-01 00:00:00" := by decide
  obtain rfl := Option.some.inj (htext.symm.trans htext')
  have hread : parse "1970-01-01 00:00:00".toList = some ⟨0, .datetime⟩ := by decide
  obtain rfl := Option.some.inj (hu.symm.trans hread)
  exact absurd hequals (by decide)

/-! ### From a text to its time -/

/-- The time read from a text is what its format says: a date is midnight, and a time of day has the
seconds of the fields that its format matches. -/
structure AsFormat (s : List Char) : Prop where
  date : ∀ t, parse s = some t → t.format_ = .date → 86400 ∣ t.value.val
  time : ∀ t, parse s = some t → t.format_ = .time →
    ∃ tm, strptime {} s timeFormat = (tm, true) ∧
      t.value.val = 3600 * tm.hour + 60 * tm.min + tm.sec

lemma leftHour_le (r : List Char) : leftHour r ≤ 23 := by
  rw [leftHour]
  cases hread : number 0 23 2 r with
  | none => exact Nat.zero_le _
  | some x => exact (number_mem hread).2

lemma leftMinute_le (r : List Char) : leftMinute r ≤ 59 := by
  rw [leftMinute]
  split
  · next cs _ =>
    cases hread : number 0 59 2 cs with
    | none => exact Nat.zero_le _
    | some x => exact (number_mem hread).2
  · exact Nat.zero_le _

/-- A time of day is always read as its seconds. A date is midnight exactly if no hour and no minute
but zero follow it where the format of a date and a time fails. -/
theorem asFormat_iff (s : List Char) : AsFormat s ↔
    ∀ r, rest s dateFormat = some r → rest s dateTimeFormat = none →
      leftHour r = 0 ∧ leftMinute r = 0 := by
  constructor
  · intro h r hdate hboth
    obtain ⟨year, mon, mday, hparse⟩ := parse_of_date hboth hdate
    have hdvd := h.date _ hparse rfl
    rw [(fits_of_parse hparse).2] at hdvd
    have hhour := leftHour_le r
    have hminute := leftMinute_le r
    simp only [timegm] at hdvd
    omega
  · intro h
    constructor
    · intro t hparse hformat
      obtain ⟨hfits, hvalue⟩ := fits_of_parse hparse
      rw [hformat] at hfits
      rw [hvalue]
      cases hfits with
      | date hboth hdate =>
        obtain ⟨hhour, hminute⟩ := h _ hdate hboth
        obtain ⟨year, mon, mday, hread⟩ := parse_of_date hboth hdate
        obtain rfl := Option.some.inj (hparse.symm.trans hread)
        simp only [timegm, hhour, hminute]
        omega
    · intro t hparse hformat
      obtain ⟨hfits, hvalue⟩ := fits_of_parse hparse
      rw [hformat] at hfits
      rw [hvalue]
      cases hfits with
      | time hboth hdate htime =>
        obtain ⟨tm, htm, hread⟩ := parse_of_time hboth hdate htime
        obtain rfl := Option.some.inj (hparse.symm.trans hread)
        exact ⟨tm, htm, rfl⟩

/-- The date `2016-03-11 08` is read as eight hours after midnight. -/
theorem not_asFormat : ¬∀ s, AsFormat s := by
  intro h
  have hread : parse "2016-03-11 08".toList = some ⟨1457683200, .date⟩ := by decide
  exact absurd ((h _).date _ hread rfl) (by decide)

end SqlTime

end CodaDb
