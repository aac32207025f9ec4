import CodaDb.Sql.Parse

/-!
# The calendar

`timegm` gives back the time that `gmtime` broke down. The years of an era are counted through its
centuries and their four-year groups.
-/

namespace CodaDb

/-- The fields as the C library has them: years count from 1900, months from 0. -/
def Tm.raw (tm : Tm) : RawTm where
  year := tm.year - 1900
  mon := (tm.month : Int) - 1
  mday := tm.day
  hour := tm.hour
  min := tm.minute
  sec := tm.second

/-- The fields are those of a date and a time of day. -/
structure Tm.InRange (tm : Tm) : Prop where
  month : 1 ≤ tm.month ∧ tm.month ≤ 12
  day : 1 ≤ tm.day ∧ tm.day ≤ 31
  hour : tm.hour ≤ 23
  minute : tm.minute ≤ 59
  second : tm.second ≤ 59

/-- Day `t` of the `q`-th four-year group of a century, by the formula that takes the leap days out
of the day of the era. -/
lemma yearOfEra_eq {c q t : Nat} (hc : c ≤ 3) (hq : q ≤ 24) (ht : t ≤ 1460) {doe : Nat}
    (hdoe : doe = 36524 * c + 1461 * q + t) (hlt : 1461 * q + t < 36524) :
    ∃ k, k ≤ 3 ∧ 365 * k ≤ t ∧ t ≤ 365 * k + 365 ∧
      (doe - doe / 1460 + doe / 36524 - doe / 146096) / 365 = 100 * c + 4 * q + k := by
  have hcentury : doe / 36524 = c := by
    rw [Nat.div_eq_iff (by omega)]
    omega
  have hera : doe / 146096 = 0 := Nat.div_eq_of_lt (by omega)
  by_cases hleap : 24 * c + q + t < 1460
  · have hgroup : doe / 1460 = 25 * c + q := by
      rw [Nat.div_eq_iff (by omega)]
      omega
    refine ⟨t / 365, by omega, by omega, by omega, ?_⟩
    have hk := Nat.div_add_mod t 365
    have hr := Nat.mod_lt t (show 365 > 0 by omega)
    rw [hcentury, hera, hgroup, Nat.div_eq_iff (by omega)]
    omega
  · -- the last day of the group counts one leap day more
    have hgroup : doe / 1460 = 25 * c + q + 1 := by
      rw [Nat.div_eq_iff (by omega)]
      omega
    refine ⟨(t - 1) / 365, by omega, by omega, by omega, ?_⟩
    have hk := Nat.div_add_mod (t - 1) 365
    have hr := Nat.mod_lt (t - 1) (show 365 > 0 by omega)
    rw [hcentury, hera, hgroup, Nat.div_eq_iff (by omega)]
    omega

/-- A day of an era falls into one of its 400 years. -/
lemma exists_yearOfEra {doe : Nat} (h : doe ≤ 146096) :
    ∃ yoe, (doe - doe / 1460 + doe / 36524 - doe / 146096) / 365 = yoe ∧ yoe ≤ 399 ∧
      365 * yoe + yoe / 4 - yoe / 100 ≤ doe ∧ doe ≤ 365 * yoe + yoe / 4 - yoe / 100 + 365 := by
  by_cases hlast : doe = 146096
  · subst hlast
    exact ⟨399, by decide, by decide, by decide, by decide⟩
  obtain ⟨c, q, t, hc, hq, ht, hdoe, hlt⟩ : ∃ c q t, c ≤ 3 ∧ q ≤ 24 ∧ t ≤ 1460 ∧
      doe = 36524 * c + 1461 * q + t ∧ 1461 * q + t < 36524 := by
    have hcentury := Nat.mod_lt doe (show 36524 > 0 by omega)
    have hdoe := Nat.div_add_mod doe 36524
    have hgroup := Nat.mod_lt (doe % 36524) (show 1461 > 0 by omega)
    have hday := Nat.div_add_mod (doe % 36524) 1461
    exact ⟨doe / 36524, doe % 36524 / 1461, doe % 36524 % 1461, by omega, by omega, by omega,
      by omega, by omega⟩
  obtain ⟨k, hk, hle, hge, hyoe⟩ := yearOfEra_eq hc hq ht hdoe hlt
  have hgroup : (100 * c + 4 * q + k) / 4 = 25 * c + q := by
    rw [Nat.div_eq_iff (by omega)]
    omega
  have hcentury : (100 * c + 4 * q + k) / 100 = c := by
    rw [Nat.div_eq_iff (by omega)]
    omega
  refine ⟨_, hyoe, by omega, ?_, ?_⟩
  · rw [hgroup, hcentury]
    omega
  · rw [hgroup, hcentury]
    omega

/-- The months of a year that begins in March have 31 days at most. -/
lemma monthDay {doy : Nat} (h : doy ≤ 365) :
    (5 * doy + 2) / 153 ≤ 11 ∧ (153 * ((5 * doy + 2) / 153) + 2) / 5 ≤ doy ∧
      doy < (153 * ((5 * doy + 2) / 153) + 2) / 5 + 31 := by
  omega

/-- The date of a day in a year of an era. -/
def civil (era : Int) (yoe doy hour minute second : Nat) : Tm :=
  let mp := (5 * doy + 2) / 153
  let month := if mp < 10 then mp + 3 else mp - 9
  { year := yoe + era * 400 + (if month ≤ 2 then 1 else 0)
    month := month
    day := doy - (153 * mp + 2) / 5 + 1
    hour := hour
    minute := minute
    second := second }

/-- `gmtime` finds a year of an era and a day of that year. -/
lemma exists_gmtime_eq (value : Int) : ∃ (era : Int) (yoe doy : Nat), yoe ≤ 399 ∧ doy ≤ 365 ∧
    (era * 146097 + (yoe * 365 + yoe / 4 - yoe / 100 + doy) - 719468) * 86400 +
      (value.fmod 86400).toNat = value ∧
    gmtime value = civil era yoe doy ((value.fmod 86400).toNat / 3600)
      ((value.fmod 86400).toNat % 3600 / 60) ((value.fmod 86400).toNat % 60) := by
  have hnonneg := Int.fmod_nonneg_of_pos value (show (0 : Int) < 86400 by omega)
  have hvalue := Int.mul_fdiv_add_fmod value 86400
  have hdays := Int.mul_fdiv_add_fmod (value.fdiv 86400 + 719468) 146097
  have hlt := Int.fmod_lt_of_pos (value.fdiv 86400 + 719468) (show (0 : Int) < 146097 by omega)
  have hge := Int.fmod_nonneg_of_pos (value.fdiv 86400 + 719468) (show (0 : Int) < 146097 by omega)
  generalize hdoe : ((value.fdiv 86400 + 719468).fmod 146097).toNat = doe
  obtain ⟨yoe, hyoe, hyear, hle, hday⟩ := @exists_yearOfEra doe (by omega)
  refine ⟨(value.fdiv 86400 + 719468).fdiv 146097, yoe,
    doe - (365 * yoe + yoe / 4 - yoe / 100), hyear, by omega, by omega, ?_⟩
  simp only [gmtime, civil, hdoe, hyoe]

lemma gmtime_inRange (value : Int) : (gmtime value).InRange := by
  obtain ⟨era, yoe, doy, -, hday, -, heq⟩ := exists_gmtime_eq value
  have hsecs := Int.fmod_lt_of_pos value (show (0 : Int) < 86400 by omega)
  have hmonth := monthDay hday
  rw [heq]
  constructor
  · simp only [civil]
    split <;> omega
  · simp only [civil]
    omega
  · simp only [civil]
    omega
  · simp only [civil]
    omega
  · simp only [civil]
    omega

/-- The months of a year are counted from January again. -/
lemma timegm_civil (era : Int) {yoe doy : Nat} (hyoe : yoe ≤ 399) (hdoy : doy ≤ 365)
    (hour minute second : Nat) :
    timegm (civil era yoe doy hour minute second).raw =
      (era * 146097 + (yoe * 365 + yoe / 4 - yoe / 100 + doy) - 719468) * 86400 + hour * 3600 +
        minute * 60 + second := by
  obtain ⟨hmp, hle, -⟩ := monthDay hdoy
  generalize hm : (5 * doy + 2) / 153 = mp at hmp hle
  have hera : (↑yoe + era * 400).fdiv 400 = era := by
    rw [Int.fdiv_eq_ediv_of_nonneg _ (by omega)]
    omega
  by_cases hlate : mp < 10
  · have hmonth : ¬mp + 3 ≤ 2 := by omega
    have hmod : ((mp + 3 : Nat) - 1 : Int).fmod 12 = mp + 2 := by
      rw [Int.fmod_eq_emod_of_nonneg _ (by omega)]
      omega
    have hdiv : ((mp + 3 : Nat) - 1 : Int).fdiv 12 = 0 := by
      rw [Int.fdiv_eq_ediv_of_nonneg _ (by omega)]
      omega
    simp only [timegm, civil, Tm.raw, hm, if_pos hlate, if_neg hmonth, hmod, hdiv]
    rw [if_neg (by omega), if_neg (by omega)]
    have hyear : (↑yoe + era * 400 + 0 - 1900 + 1900 + 0 - 0 : Int) = yoe + era * 400 := by omega
    rw [hyear, hera]
    omega
  · -- January and February belong to the next year
    have hmonth : mp - 9 ≤ 2 := by omega
    have hmod : ((mp - 9 : Nat) - 1 : Int).fmod 12 = mp - 10 := by
      rw [Int.fmod_eq_emod_of_nonneg _ (by omega)]
      omega
    have hdiv : ((mp - 9 : Nat) - 1 : Int).fdiv 12 = 0 := by
      rw [Int.fdiv_eq_ediv_of_nonneg _ (by omega)]
      omega
    simp only [timegm, civil, Tm.raw, hm, if_neg hlate, if_pos hmonth, hmod, hdiv]
    rw [if_pos (by omega), if_pos (by omega)]
    have hyear : (↑yoe + era * 400 + 1 - 1900 + 1900 + 0 - 1 : Int) = yoe + era * 400 := by omega
    rw [hyear, hera]
    omega

/-- `timegm` inverts `gmtime`. -/
theorem timegm_gmtime (value : Int) : timegm (gmtime value).raw = value := by
  obtain ⟨era, yoe, doy, hyear, hday, hvalue, heq⟩ := exists_gmtime_eq value
  rw [heq, timegm_civil era hyear hday]
  omega

/-! ### Days and times of day -/

/-- The time of day in seconds. -/
def Tm.secondOfDay (tm : Tm) : Nat := tm.hour * 3600 + tm.minute * 60 + tm.second

lemma secondOfDay_gmtime (value : Int) :
    ((gmtime value).secondOfDay : Int) = value.fmod 86400 := by
  have hnonneg := Int.fmod_nonneg_of_pos value (show (0 : Int) < 86400 by omega)
  have hfields : (gmtime value).secondOfDay = (value.fmod 86400).toNat / 3600 * 3600 +
      (value.fmod 86400).toNat % 3600 / 60 * 60 + (value.fmod 86400).toNat % 60 := rfl
  rw [hfields]
  omega

/-- The first second of a day. -/
lemma timegm_date (value : Int) :
    timegm { (gmtime value).raw with hour := 0, min := 0, sec := 0 } =
      value.fdiv 86400 * 86400 := by
  have hvalue := Int.mul_fdiv_add_fmod value 86400
  have hday := secondOfDay_gmtime value
  have hsplit : timegm (gmtime value).raw =
      timegm { (gmtime value).raw with hour := 0, min := 0, sec := 0 } +
        (gmtime value).secondOfDay := by
    simp only [timegm, Tm.raw, Tm.secondOfDay]
    omega
  rw [timegm_gmtime] at hsplit
  omega

/-- Seconds are counted from the first of January 1970. -/
lemma timegm_epoch (hour min sec : Int) :
    timegm ⟨70, 0, 1, hour, min, sec⟩ = hour * 3600 + min * 60 + sec := by
  simp [timegm]

/-- A year has at least 365 days. -/
lemma gmtime_year_bounds (value : Int) : ∃ year leap : Int, 0 ≤ leap ∧ leap ≤ 1 ∧
    (gmtime value).year = year + leap ∧
    365 * year + 97 * year.fdiv 400 - 719468 ≤ value.fdiv 86400 ∧
    value.fdiv 86400 ≤ 365 * year + 97 * year.fdiv 400 + 99 + 365 - 719468 := by
  obtain ⟨era, yoe, doy, hyear, hday, hvalue, heq⟩ := exists_gmtime_eq value
  have hnonneg := Int.fmod_nonneg_of_pos value (show (0 : Int) < 86400 by omega)
  have hsecs := Int.mul_fdiv_add_fmod value 86400
  have hera : (yoe + era * 400 : Int).fdiv 400 = era := by
    rw [Int.fdiv_eq_ediv_of_nonneg _ (by omega)]
    omega
  refine ⟨yoe + era * 400, if (civil era yoe doy 0 0 0).month ≤ 2 then 1 else 0, ?_, ?_, ?_, ?_, ?_⟩
  · split <;> omega
  · split <;> omega
  · rw [heq]
    rfl
  · rw [hera]
    omega
  · rw [hera]
    omega

/-- Only in 1970 a second has the number of its year. -/
lemma gmtime_year_eq_self_iff (value : Int) : (gmtime value).year = value ↔ value = 1970 := by
  constructor
  · intro h
    obtain ⟨year, leap, hleap, hleap', heq, hlo, hhi⟩ := gmtime_year_bounds value
    have hvalue := Int.mul_fdiv_add_fmod value 86400
    have hnonneg := Int.fmod_nonneg_of_pos value (show (0 : Int) < 86400 by omega)
    have hlt := Int.fmod_lt_of_pos value (show (0 : Int) < 86400 by omega)
    rw [Int.fdiv_eq_ediv_of_nonneg year (by omega)] at hlo hhi
    have hnear : value = 1969 ∨ value = 1970 ∨ value = 1971 := by omega
    rcases hnear with rfl | rfl | rfl
    · exact absurd h (by decide)
    · rfl
    · exact absurd h (by decide)
  · rintro rfl
    decide

/-- Beyond four digits the number of a year is a second of another day than those of the year. -/
lemma fdiv_year_ne {value : Int} (h : ¬(0 ≤ (gmtime value).year ∧ (gmtime value).year ≤ 9999)) :
    (gmtime value).year.fdiv 86400 ≠ value.fdiv 86400 := by
  obtain ⟨year, leap, hleap, hleap', heq, hlo, hhi⟩ := gmtime_year_bounds value
  rw [Int.fdiv_eq_ediv_of_nonneg year (by omega)] at hlo hhi
  rw [Int.fdiv_eq_ediv_of_nonneg (gmtime value).year (by omega)]
  omega

end CodaDb
