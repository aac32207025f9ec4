import CodaDb.Lib.CString
import CodaDb.Sql.Calendar
import CodaDb.Sql.Equality

/-!
# Times read from the texts that show them

`parse` tries the formats that `to_string` writes. A date and a time of day are read back, up to the
four digits that `strptime` takes for a year; beyond them a number is read.
-/

namespace CodaDb

/-! ### Numbers of a format -/

lemma le_ofDigitChars (ds : List Char) (val : Nat) : val ≤ Nat.ofDigitChars 10 ds val := by
  rw [Nat.ofDigitChars_eq_ofDigitChars_zero]
  exact Nat.le_trans (Nat.le_mul_of_pos_left val (Nat.pow_pos (by decide))) (Nat.le_add_right _ _)

namespace TimeField

/-- Digits are read up to another character, or as many as the field has. -/
lemma getNumber_digits {hi : Nat} {ds rest : List Char} (hdigit : ∀ c ∈ ds, c.isDigit = true)
    {digits val : Nat} (hlength : ds.length ≤ digits)
    (hend : ds.length = digits ∨ ∀ c ∈ rest.head?, c.isDigit = false)
    (hhi : Nat.ofDigitChars 10 ds val ≤ hi) :
    getNumber hi digits val (ds ++ rest) = (Nat.ofDigitChars 10 ds val, rest) := by
  induction ds generalizing digits val with
  | nil =>
    cases digits with
    | zero => rfl
    | succ digits =>
      cases rest with
      | nil => rfl
      | cons c rest =>
        have hc : c.isDigit = false := hend.elim nofun fun h => h c rfl
        rw [List.nil_append, getNumber, if_neg (by simp [hc])]
        rfl
  | cons d ds ih =>
    cases digits with
    | zero => cases hlength
    | succ digits =>
      rw [Nat.ofDigitChars_cons, Nat.mul_comm] at hhi ⊢
      rw [List.forall_mem_cons] at hdigit
      have hle : val * 10 ≤ hi :=
        Nat.le_trans (Nat.le_trans (Nat.le_add_right _ _) (le_ofDigitChars ds _)) hhi
      rw [List.cons_append, getNumber, if_pos ⟨hdigit.1, hle⟩]
      exact ih hdigit.2 (Nat.le_of_succ_le_succ hlength) (hend.imp Nat.succ.inj id) hhi

/-- A number starts at the first digit. -/
lemma number_cons {d : Char} (hd : d.isDigit = true) (lo hi digits : Nat) (cs : List Char) :
    number lo hi digits (d :: cs) =
      if lo ≤ (getNumber hi (digits - 1) (d.toNat - '0'.toNat) cs).1 ∧
          (getNumber hi (digits - 1) (d.toNat - '0'.toNat) cs).1 ≤ hi then
        some (getNumber hi (digits - 1) (d.toNat - '0'.toNat) cs)
      else none := by
  rw [number, List.dropWhile_cons_of_neg (by simp [Numeral.isSpace_of_isDigit hd])]
  simp only [hd, if_true]

lemma number_digits {lo hi digits : Nat} {ds rest : List Char} (hne : ds ≠ [])
    (hdigit : ∀ c ∈ ds, c.isDigit = true) (hlength : ds.length ≤ digits)
    (hend : ds.length = digits ∨ ∀ c ∈ rest.head?, c.isDigit = false)
    (hlo : lo ≤ Nat.ofDigitChars 10 ds 0) (hhi : Nat.ofDigitChars 10 ds 0 ≤ hi) :
    number lo hi digits (ds ++ rest) = some (Nat.ofDigitChars 10 ds 0, rest) := by
  obtain ⟨d, ds, rfl⟩ := List.exists_cons_of_ne_nil hne
  rw [List.forall_mem_cons] at hdigit
  have hvalue : Nat.ofDigitChars 10 (d :: ds) 0 = Nat.ofDigitChars 10 ds (d.toNat - '0'.toNat) := by
    rw [Nat.ofDigitChars_cons, Nat.mul_zero, Nat.zero_add]
  have hread : getNumber hi (digits - 1) (d.toNat - '0'.toNat) (ds ++ rest) =
      (Nat.ofDigitChars 10 (d :: ds) 0, rest) := by
    rw [hvalue] at hhi ⊢
    rw [List.length_cons] at hlength hend
    exact getNumber_digits hdigit.2 (by omega) (hend.imp_left (by omega)) hhi
  rw [List.cons_append, number_cons hdigit.1, hread, if_pos ⟨hlo, hhi⟩]

/-- A field leaves a digit of a run that is longer than it. -/
lemma getNumber_rest {hi : Nat} {ds rest : List Char} (hdigit : ∀ c ∈ ds, c.isDigit = true)
    {digits val : Nat} (hlength : digits < ds.length) :
    ∃ c ∈ (getNumber hi digits val (ds ++ rest)).2.head?, c.isDigit = true := by
  induction ds generalizing digits val with
  | nil => cases hlength
  | cons d ds ih =>
    rw [List.forall_mem_cons] at hdigit
    cases digits with
    | zero => exact ⟨d, rfl, hdigit.1⟩
    | succ digits =>
      rw [List.cons_append, getNumber]
      split
      · exact ih hdigit.2 (Nat.lt_of_succ_lt_succ hlength)
      · exact ⟨d, rfl, hdigit.1⟩

lemma number_rest {lo hi digits : Nat} {ds rest : List Char} (hdigit : ∀ c ∈ ds, c.isDigit = true)
    (hpos : 0 < digits) (hlength : digits < ds.length) {r : Nat × List Char}
    (h : number lo hi digits (ds ++ rest) = some r) : ∃ c ∈ r.2.head?, c.isDigit = true := by
  obtain ⟨d, ds, rfl⟩ := List.exists_cons_of_length_pos (Nat.zero_lt_of_lt hlength)
  rw [List.forall_mem_cons] at hdigit
  rw [List.cons_append, number_cons hdigit.1] at h
  split at h
  · cases h
    rw [List.length_cons] at hlength
    exact getNumber_rest hdigit.2 (by omega)
  · cases h

end TimeField

lemma toList_pushn (c : Char) (n : Nat) : ("".pushn c n).toList = List.replicate n c := by
  induction n with
  | zero => rfl
  | succ n ih =>
    have hpush : "".pushn c (n + 1) = ("".pushn c n).push c := rfl
    rw [hpush, String.toList_push, ih, List.replicate_succ']

lemma toList_zeroPadded (n : Nat) : (zeroPadded 2 n).toList =
    List.replicate (2 - (Nat.toDigits 10 n).length) '0' ++ Nat.toDigits 10 n := by
  have hsize : (toString n).length = (Nat.toDigits 10 n).length := by
    rw [← String.length_toList, Nat.toString_eq_repr, Nat.toList_repr]
  rw [zeroPadded, hsize, String.toList_append, toList_pushn, Nat.toString_eq_repr, Nat.toList_repr]

lemma isDigit_of_mem_zeroPadded {n : Nat} : ∀ c ∈ (zeroPadded 2 n).toList, c.isDigit = true := by
  intro c hc
  rw [toList_zeroPadded] at hc
  rcases List.mem_append.mp hc with hc | hc
  · rw [(List.mem_replicate.mp hc).2]
    rfl
  · exact Nat.isDigit_of_mem_toDigits (by decide) (by decide) hc

/-- A number of two digits is padded to them. -/
lemma exists_zeroPadded {n : Nat} (h : n < 100) :
    ∃ ds : List Char, (zeroPadded 2 n).toList = ds ∧ ds.length = 2 ∧ (∀ c ∈ ds, c.isDigit = true) ∧
      Nat.ofDigitChars 10 ds 0 = n := by
  have hlength : (Nat.toDigits 10 n).length ≤ 2 :=
    (Nat.length_toDigits_le_iff (by decide) (by decide)).mpr h
  refine ⟨_, rfl, ?_, isDigit_of_mem_zeroPadded, ?_⟩
  · rw [toList_zeroPadded, List.length_append, List.length_replicate]
    omega
  · rw [toList_zeroPadded, Nat.ofDigitChars_append, Nat.ofDigitChars_replicate_zero, Nat.mul_zero,
      Nat.ofDigitChars_ten_toDigits]

namespace TimeField

lemma number_zeroPadded {lo hi digits n : Nat} (hlo : lo ≤ n) (hhi : n ≤ hi) (h : n < 100)
    (hdigits : 2 ≤ digits) {rest : List Char}
    (hend : 2 = digits ∨ ∀ c ∈ rest.head?, c.isDigit = false) :
    number lo hi digits ((zeroPadded 2 n).toList ++ rest) = some (n, rest) := by
  obtain ⟨ds, hds, hlength, hdigit, hvalue⟩ := exists_zeroPadded h
  have hne : ds ≠ [] := by
    rintro rfl
    cases hlength
  rw [← hlength] at hdigits hend
  rw [hds, number_digits hne hdigit hdigits hend (by omega) (by omega), hvalue]

/-- A year of four digits at most is read, whatever character follows it. -/
lemma number_year {year : Int} (hlo : 0 ≤ year) (hhi : year ≤ 9999) {c : Char}
    (hc : c.isDigit = false) (rest : List Char) :
    number 0 9999 4 ((ToString.toString year).toList ++ c :: rest) =
      some (year.toNat, c :: rest) := by
  have hlist : (ToString.toString year).toList = Nat.toDigits 10 year.toNat := by
    rw [Numeral.toList_toString, if_neg (by omega), List.nil_append]
    congr 1
    omega
  have hlength : (Nat.toDigits 10 year.toNat).length ≤ 4 :=
    (Nat.length_toDigits_le_iff (by decide) (by decide)).mpr (by omega)
  have hread := @number_digits 0 9999 4 _ (c :: rest) Nat.toDigits_ne_nil
    (fun _ hd => Nat.isDigit_of_mem_toDigits (b := 10) (n := year.toNat) (by decide) (by decide) hd)
    hlength (.inr fun _ hd => Option.some.inj hd ▸ hc)
  rw [Nat.ofDigitChars_ten_toDigits] at hread
  rw [hlist]
  exact hread (by omega) (by omega)

/-- Of any other year a number leaves a digit, if there is one. -/
lemma number_rest_year {year : Int} (h : ¬(0 ≤ year ∧ year ≤ 9999)) {lo hi digits : Nat}
    (hpos : 0 < digits) (hle : digits ≤ 4) {rest : List Char} {r : Nat × List Char}
    (hr : number lo hi digits ((ToString.toString year).toList ++ rest) = some r) :
    ∃ c ∈ r.2.head?, c.isDigit = true := by
  rw [Numeral.toList_toString] at hr
  by_cases hneg : year < 0
  · rw [if_pos hneg] at hr
    cases hr
  · rw [if_neg hneg, List.nil_append] at hr
    refine number_rest ?_ hpos ?_ hr
    · intro c hc
      exact Nat.isDigit_of_mem_toDigits (b := 10) (by decide) (by decide) hc
    · refine Nat.lt_of_le_of_lt hle (Nat.lt_of_not_le ?_)
      rw [Nat.length_toDigits_le_iff (by decide) (by decide)]
      omega

/-- A format fails where another character follows the number of its first field. -/
lemma strptime_fails {tp : RawTm} {cs : List Char} {f : TimeField} {c : Char}
    (h : ∀ r, read tp cs f = some r → r.2.head? ≠ some c) (fs : List TimeField) :
    (strptime tp cs (f :: .char c :: fs)).2 = false := by
  rw [strptime]
  cases hread : read tp cs f with
  | none => rfl
  | some r =>
    have hchar : read r.1 r.2 (.char c) = none := if_neg (h r hread)
    simp only [strptime, hchar]

end TimeField

namespace SqlTime

open TimeField

/-- A date sets the three fields, whatever follows it. -/
lemma strptime_date {tm : Tm} (h : tm.InRange) (hlo : 0 ≤ tm.year) (hhi : tm.year ≤ 9999)
    (tp : RawTm) (rest : List Char) (fs : List TimeField) :
    strptime tp ((dateText tm).toList ++ rest) (dateFormat ++ fs) =
      strptime { tp with year := tm.raw.year, mon := tm.raw.mon, mday := tm.raw.mday } rest fs := by
  obtain ⟨hmonth, hday, -⟩ := h
  have hlist : (dateText tm).toList ++ rest = (ToString.toString tm.year).toList ++
      '-' :: ((zeroPadded 2 tm.month).toList ++ '-' :: ((zeroPadded 2 tm.day).toList ++ rest)) := by
    simp [dateText]
  rw [hlist]
  simp only [dateFormat, List.cons_append, List.nil_append, strptime, TimeField.read]
  rw [number_year hlo hhi rfl]
  simp only [Option.map_some, List.head?_cons, if_true, List.tail_cons]
  rw [number_zeroPadded hmonth.1 hmonth.2 (by omega) (Nat.le_refl 2) (.inl rfl)]
  simp only [Option.map_some, List.head?_cons, if_true, List.tail_cons]
  rw [number_zeroPadded hday.1 hday.2 (by omega) (Nat.le_refl 2) (.inl rfl)]
  simp only [Option.map_some, Tm.raw, Int.toNat_of_nonneg hlo]

/-- A time of day sets the other three. -/
lemma strptime_time {tm : Tm} (h : tm.InRange) (tp : RawTm) :
    strptime tp (timeText tm).toList timeFormat =
      ({ tp with hour := tm.raw.hour, min := tm.raw.min, sec := tm.raw.sec }, true) := by
  obtain ⟨-, -, hhour, hminute, hsecond⟩ := h
  have hlist : (timeText tm).toList = (zeroPadded 2 tm.hour).toList ++
      ':' :: ((zeroPadded 2 tm.minute).toList ++
        ':' :: ((zeroPadded 2 tm.second).toList ++ [])) := by
    simp [timeText]
  rw [hlist]
  simp only [timeFormat, strptime, TimeField.read]
  rw [number_zeroPadded (Nat.zero_le _) hhour (by omega) (Nat.le_refl 2) (.inl rfl)]
  simp only [Option.map_some, List.head?_cons, if_true, List.tail_cons]
  rw [number_zeroPadded (Nat.zero_le _) hminute (by omega) (Nat.le_refl 2) (.inl rfl)]
  simp only [Option.map_some, List.head?_cons, if_true, List.tail_cons]
  rw [number_zeroPadded (Nat.zero_le _) (by omega) (by omega) (Nat.le_refl 2) (.inl rfl)]
  rfl

/-- A date is read back as its first second. -/
lemma parse_dateText {tm : Tm} (h : tm.InRange) (hlo : 0 ≤ tm.year) (hhi : tm.year ≤ 9999) :
    parse (dateText tm).toList =
      some ⟨timegm { tm.raw with hour := 0, min := 0, sec := 0 }, .date⟩ := by
  have hne : (dateText tm).toList ≠ [] := by simp [dateText]
  have hread := fun tp fs => strptime_date h hlo hhi tp [] fs
  simp only [List.append_nil] at hread
  have hdate : ∀ tp, strptime tp (dateText tm).toList dateFormat = (_, true) :=
    fun tp => hread tp []
  have hboth : strptime {} (dateText tm).toList (dateFormat ++ .space :: timeFormat) = (_, false) :=
    hread {} _
  simp only [parse, if_neg hne, hboth, hdate, Bool.false_eq_true, if_false, if_true]

/-- So is a time of day. The year that the date formats take from it is set again. -/
lemma parse_timeText {tm : Tm} (h : tm.InRange) :
    parse (timeText tm).toList =
      some ⟨tm.hour * 3600 + tm.minute * 60 + tm.second, .time⟩ := by
  have hne : (timeText tm).toList ≠ [] := by simp [timeText]
  obtain ⟨rest, hlist⟩ :
      ∃ rest, (timeText tm).toList = (zeroPadded 2 tm.hour).toList ++ ':' :: rest :=
    ⟨(zeroPadded 2 tm.minute).toList ++ ':' :: (zeroPadded 2 tm.second).toList, by simp [timeText]⟩
  have hhour := h.hour
  have hnumber : number 0 9999 4 (timeText tm).toList = some (tm.hour, ':' :: rest) := by
    rw [hlist]
    refine number_zeroPadded (Nat.zero_le _) (by omega) (by omega) (by decide) (.inr ?_)
    intro c hc
    obtain rfl := Option.some.inj hc
    rfl
  have hdate : ∀ tp fs, (strptime tp (timeText tm).toList (dateFormat ++ fs)).2 = false := by
    intro tp fs
    refine strptime_fails ?_ _
    intro r hr
    rw [TimeField.read, hnumber] at hr
    cases hr
    nofun
  have honly := fun tp => hdate tp []
  rw [List.append_nil] at honly
  simp only [parse, if_neg hne, hdate, honly, strptime_time h, Bool.false_eq_true, if_false,
    if_true]
  rw [timegm_epoch]
  rfl

/-- A text that fits no format is read as a number of seconds. -/
lemma parse_of_fails {value : List Char} (hne : value ≠ [])
    (hdate : ∀ tp fs, (strptime tp value (dateFormat ++ fs)).2 = false)
    (htime : ∀ tp, (strptime tp value timeFormat).2 = false) :
    parse value =
      (IntKind.ulong.stoUnsigned value).map fun v => ⟨IntKind.long.wrap v.val, .timestamp⟩ := by
  have honly := fun tp => hdate tp []
  rw [List.append_nil] at honly
  simp only [parse, if_neg hne, hdate, honly, htime, Bool.false_eq_true, if_false]

/-- Beyond four digits, the year of a date is read as a number of seconds. -/
lemma parse_dateText_of_not {tm : Tm} (h : ¬(0 ≤ tm.year ∧ tm.year ≤ 9999))
    (hlo : IntKind.long.min ≤ tm.year) (hhi : tm.year ≤ IntKind.long.max) :
    parse (dateText tm).toList = some ⟨tm.year, .timestamp⟩ := by
  have hne : (dateText tm).toList ≠ [] := by simp [dateText]
  have hlist : (dateText tm).toList = (ToString.toString tm.year).toList ++
      '-' :: ((zeroPadded 2 tm.month).toList ++ '-' :: (zeroPadded 2 tm.day).toList) := by
    simp [dateText]
  have hdigit : ∀ {r : List Char} {c : Char}, (∃ d ∈ r.head?, d.isDigit = true) →
      c.isDigit = false → r.head? ≠ some c := by
    rintro r c ⟨d, hd, hdigit⟩ hc heq
    obtain rfl := Option.some.inj (Option.mem_def.mp hd ▸ heq)
    exact absurd (hdigit.symm.trans hc) nofun
  rw [parse_of_fails hne]
  · rw [IntKind.stoUnsigned, hlist, Numeral.scan_toString _ _ (by simp), Option.bind_some,
      Numeral.signed_natAbs]
    have hmin : IntKind.long.min = -(2 ^ 63) := rfl
    have hmax : IntKind.long.max = 2 ^ 63 - 1 := rfl
    have hulong : ((tm.year.natAbs : Nat) : Int) ≤ IntKind.ulong.max := by
      have hvalue : IntKind.ulong.max = 2 ^ 64 - 1 := rfl
      omega
    have hwrap : IntKind.long.wrap (IntKind.ulong.wrap tm.year) = tm.year :=
      (@IntKind.wrap_wrap .long .ulong rfl _).trans (IntKind.wrap_of_mem ⟨hlo, hhi⟩)
    rw [if_pos hulong, Option.map_some, IntKind.convert_val (by decide), hwrap]
  · intro tp fs
    refine strptime_fails ?_ _
    intro r hr
    obtain ⟨n, hn, rfl⟩ := Option.map_eq_some_iff.mp hr
    rw [hlist] at hn
    exact hdigit (number_rest_year h (by decide) (by decide) hn) rfl
  · intro tp
    refine strptime_fails ?_ _
    intro r hr
    obtain ⟨n, hn, rfl⟩ := Option.map_eq_some_iff.mp hr
    rw [hlist] at hn
    exact hdigit (number_rest_year h (by decide) (by decide) hn) rfl

/-! ### The texts as C strings -/

lemma plain_of_isDigit {s : String} (h : ∀ c ∈ s.toList, c.isDigit = true) : CString.Plain s := by
  intro c hc
  have hdigit := Char.isDigit_iff_toNat.mp (h c hc)
  simp only [Char.reduceToNat] at hdigit
  omega

lemma plain_of_toList {s : String} {c : Char} (hs : s.toList = [c])
    (h : c.toNat ≠ 0 ∧ c.toNat < 256) : CString.Plain s := by
  intro d hd
  rw [hs, List.mem_singleton] at hd
  rwa [hd]

/-- The text of an integer. -/
lemma plain_int (v : Int) : CString.Plain (ToString.toString v) := by
  intro c hc
  rw [Numeral.toList_toString, List.mem_append] at hc
  rcases hc with hc | hc
  · split at hc
    · obtain rfl := List.mem_singleton.mp hc
      decide
    · cases hc
  · have hdigit := Char.isDigit_iff_toNat.mp
      (Nat.isDigit_of_mem_toDigits (b := 10) (n := v.natAbs) (by decide) (by decide) hc)
    simp only [Char.reduceToNat] at hdigit
    omega

lemma plain_dateText (tm : Tm) : CString.Plain (dateText tm) := by
  have hminus : CString.Plain "-" := plain_of_toList rfl (by decide)
  have htwo : ∀ n, CString.Plain (zeroPadded 2 n) := fun n =>
    plain_of_isDigit isDigit_of_mem_zeroPadded
  exact ((((plain_int _).append hminus).append (htwo _)).append hminus).append (htwo _)

lemma plain_timeText (tm : Tm) : CString.Plain (timeText tm) := by
  have hcolon : CString.Plain ":" := plain_of_toList rfl (by decide)
  have htwo : ∀ n, CString.Plain (zeroPadded 2 n) := fun n =>
    plain_of_isDigit isDigit_of_mem_zeroPadded
  exact ((((htwo _).append hcolon).append (htwo _)).append hcolon).append (htwo _)

/-- The text of a time in any format. -/
lemma plain_toString (t : SqlTime) : CString.Plain t.toString := by
  have hspace : CString.Plain " " := plain_of_toList rfl (by decide)
  have hboth := ((plain_dateText (gmtime t.value_)).append hspace).append
    (plain_timeText (gmtime t.value_))
  rw [SqlTime.toString]
  cases t.format_ with
  | date => exact plain_dateText _
  | time => exact plain_timeText _
  | timestamp => exact hboth
  | datetime => exact hboth

end SqlTime

end CodaDb
