import CodaDb.Sql.Parse
import CodaDb.Sql.Value
import Mathlib.Data.List.Basic

/-!
# The equality of two values

`a == b` converts `b` to the kind of `a` and compares there, so the two directions of a comparison
make different conversions. When they agree.
-/

namespace CodaDb

/-- The `time_t` of a time. -/
def SqlTime.value (t : SqlTime) : CInt .long := IntKind.long.convert t.value_

def SqlTime.equals (t other : SqlTime) : Bool :=
  t.value = other.value && t.format_ = other.format_

namespace Helper

/-- The characters of a wide string. -/
def wide (s : List Char) : List Int := s.map fun c => c.toNat

/-- `convert_string(const std::string &)`: each `char` as a `wchar_t`, where a byte from 128 on is
negative. -/
def widen (buf : String) : List Int :=
  buf.toList.map fun c => if c.toNat < 128 then c.toNat else .negSucc (255 - c.toNat)

end Helper

namespace SqlValue

/-- The visitor `as_sql_string`; `none` where it is not defined. -/
def asSqlString : SqlValue → Option String
  | .time t => t.text
  | v => some v.toString

/-- The visitor `as_sql_wstring`. -/
def asSqlWstring : SqlValue → Option (List Int)
  | .string s => some (Helper.widen s)
  | .wstring w => some (Helper.wide w)
  | .time t => t.text.map fun s => Helper.wide s.toList
  | v => some (Helper.wide v.toString.toList)

/-- The visitor `as_sql_number`; `none` for a conversion error. -/
def asSqlNumber : SqlValue → Option SqlNumber
  | .null => some .null
  | .number n => some n
  | .string s => SqlNumber.parse s.toList
  | .wstring w => SqlNumber.parse w
  | .time t => some (.integral .long t.value)
  | .blob _ => none

/-- The conversion of a `sql_number` to a `sql_time`, through `as<long>`. -/
def timeOf (n : SqlNumber) : Option SqlTime :=
  (n.asIntegral .long).map fun v => ⟨v.val, .timestamp⟩

/-- The visitor `as_sql_time`: undefined, a conversion error, or a time. -/
def asSqlTime : SqlValue → Option (Option SqlTime)
  | .null | .blob _ => some none
  | .number n => (timeOf n).map some
  | .string s => some (SqlTime.parse s.toList)
  | .wstring w => ((SqlNumber.parse w).map timeOf).elim (some none) (Option.map some)
  | .time t => some (some t)

/-- `operator==(const sql_value &)`, which visits the left value; a conversion error is no equality.
`none` where a conversion is not defined, and for a blob that is compared with a value that converts
to a blob, which calls itself for ever. -/
def equals : SqlValue → SqlValue → Option Bool
  | .null, b => some (b = .null)
  | .number n, b => (b.asSqlNumber).elim (some false) fun m => m.equals n
  | .string s, b => b.asSqlString.map fun t => t = s
  | .wstring w, b => b.asSqlWstring.map fun v => v = Helper.wide w
  | .time t, b => b.asSqlTime.map fun r => r.elim false fun u => u.equals t
  | .blob _, .number _ | .blob _, .time _ => some false
  | .blob _, _ => none

/-- The two directions of a comparison give the same result. -/
def Symmetric (a b : SqlValue) : Prop := ∃ r, a.equals b = some r ∧ b.equals a = some r

end SqlValue

/-! ### When the two directions agree -/

/-- Two numbers of different types equal each other after both conversions or after neither. -/
def SqlNumber.Agree : SqlNumber → SqlNumber → Prop
  | .null, .null => True
  | .null, .integral _ v | .integral _ v, .null => v.val ≠ 0
  | .null, .floating _ x | .floating _ x, .null => x.isZero = false
  | .integral k v, .integral k' w => k.convert w.val = v ↔ k'.convert v.val = w
  | .integral k v, .floating k' x | .floating k' x, .integral k v =>
    ∃ w, (SqlNumber.floating k' x).asIntegral k = some w ∧
      (w = v ↔ (FloatValue.round k' (v.val < 0) v.val.natAbs 1).eq x = true)
  | .floating k x, .floating k' y =>
    k.precision < k'.precision ∧ ((y.narrow k).eq x = true ↔ x.eq y = true) ∨
      k'.precision < k.precision ∧ ((x.narrow k').eq y = true ↔ y.eq x = true) ∨
      k = k'

/-- A text is read as a number that equals this one. -/
def SqlNumber.ReadFrom (n : SqlNumber) (text : List Char) : Prop :=
  ∃ m, SqlNumber.parse text = some m ∧ m.equals n = some true

/-- The text of a number is its own text, or it is read as another number. -/
def SqlNumber.AgreeText (n : SqlNumber) (text : List Char) : Prop :=
  match n with
  | .null => text ≠ ['N', 'U', 'L', 'L'] ∧ ¬n.ReadFrom text
  | .integral _ _ => n.ReadFrom text → n.toString.toList = text
  | .floating _ _ =>
    (∀ m, SqlNumber.parse text = some m → (m.equals n).isSome) ∧
      (n.ReadFrom text ↔ n.toString.toList = text)

namespace SqlValue

/-- The pairs of values that are compared alike in both directions. -/
def Agree : SqlValue → SqlValue → Prop
  | .null, .null | .null, .time _ | .time _, .null => True
  | .null, .number n | .number n, .null => n ≠ .null
  | .null, .string s | .string s, .null => s ≠ "NULL"
  | .null, .wstring w | .wstring w, .null => w ≠ ['N', 'U', 'L', 'L']
  | .number m, .number n => m.Agree n
  | .number n, .string s | .string s, .number n => n.AgreeText s.toList
  | .number n, .wstring w | .wstring w, .number n => n.AgreeText w
  | .number n, .time t | .time t, .number n =>
    ∃ v, n.asIntegral .long = some v ∧ (v = t.value → t.format_ = .timestamp)
  | .string _, .string _ | .wstring _, .wstring _ | .time _, .time _ => True
  | .string s, .wstring w | .wstring w, .string s =>
    Helper.convertString w = s → ∀ c ∈ w, c.toNat < 128
  | .string s, .time t | .time t, .string s =>
    ∃ text, t.text = some text ∧
      (text = s ↔ ∃ u, SqlTime.parse s.toList = some u ∧ u.equals t = true)
  | .wstring w, .time t | .time t, .wstring w =>
    ∃ text, t.text = some text ∧
      match SqlNumber.parse w with
      | none => text.toList ≠ w
      | some n => ∃ v, n.asIntegral .long = some v ∧
        (text.toList = w ↔ v = t.value ∧ t.format_ = .timestamp)
  | .blob _, .number _ | .number _, .blob _ | .blob _, .time _ | .time _, .blob _ => True
  | .blob _, _ | _, .blob _ => False

lemma symmetric_comm (a b : SqlValue) : Symmetric a b ↔ Symmetric b a := by
  simp only [Symmetric, and_comm]

/-- Two directions with results agree if these are the same. -/
lemma symmetric_iff_eq {a b : SqlValue} {p q : Bool} (ha : a.equals b = some p)
    (hb : b.equals a = some q) : Symmetric a b ↔ p = q := by
  simp [Symmetric, ha, hb, eq_comm]

/-- Where a direction has no result, they do not agree. -/
lemma not_symmetric {a b : SqlValue} (h : a.equals b = none) : ¬Symmetric a b := by
  simp [Symmetric, h]

end SqlValue

/-! ### Numbers -/

namespace SqlNumber

lemma equals_of_val_eq {k k' : IntKind} (hk : k ≠ .bool) {w : CInt k} {v : CInt k'}
    (h : w.val = v.val) : equals (.integral k w) (.integral k' v) = some true := by
  rw [equals_integral hk, h]
  simp

/-- The numeral of an integer in the range of some type is read as a number of that value. -/
lemma parseIntegral_toString {k : IntKind} (v : CInt k) :
    ∃ k', k' ≠ .bool ∧ ∃ w : CInt k', w.val = v.val ∧
      parseIntegral (ToString.toString v.val).toList = some (.integral k' w) := by
  rw [parseIntegral, IntKind.stoSigned_toString, IntKind.stoSigned_toString]
  by_cases hint : IntKind.int.min ≤ v.val ∧ v.val ≤ IntKind.int.max
  · refine ⟨.int, nofun, ⟨v.val, hint⟩, rfl, ?_⟩
    rw [IntKind.check, dif_pos hint]
    rfl
  by_cases hlong : IntKind.long.min ≤ v.val ∧ v.val ≤ IntKind.long.max
  · refine ⟨.long, nofun, ⟨v.val, hlong⟩, rfl, ?_⟩
    rw [IntKind.check, dif_neg hint, IntKind.check, dif_pos hlong]
    rfl
  -- what is no `long` lies above it and is an `unsigned long`
  have hulong : IntKind.ulong.min ≤ v.val ∧ v.val ≤ IntKind.ulong.max := by
    have hmin : IntKind.long.min ≤ k.min := by cases k <;> decide
    have hmax : k.max ≤ IntKind.ulong.max := by cases k <;> decide
    have hzero : IntKind.ulong.min ≤ IntKind.long.max := by decide
    have hv := v.property
    omega
  refine ⟨.ulong, nofun, IntKind.ulong.convert v.val, ?_, ?_⟩
  · exact (IntKind.convert_val (by decide) v.val).trans (IntKind.wrap_of_mem hulong)
  · rw [IntKind.check, dif_neg hint, IntKind.check, dif_neg hlong,
      IntKind.stoUnsigned_toString _ hulong.1, if_pos hulong.2]
    rfl

/-- A numeral has digits and no point. -/
lemma parse_written (w : Numeral.Written) : parse w.text = parseIntegral w.text := by
  rw [parse, if_pos (Numeral.any_isDigit_text w), if_neg (Numeral.point_notMem_text w)]

lemma parse_integral_toString {k : IntKind} (v : CInt k) :
    parse (integral k v).toString.toList =
      parseIntegral (ToString.toString v.val).toList := by
  have htext : (integral k v).toString.toList = (ToString.toString v.val).toList := rfl
  rw [htext, ← Numeral.text_ofInt, parse_written]

/-- The text of an integral number is read as a number that equals it. -/
lemma readFrom_toString {k : IntKind} (v : CInt k) :
    (integral k v).ReadFrom (integral k v).toString.toList := by
  obtain ⟨k', hk', w, hw, hparse⟩ := parseIntegral_toString v
  exact ⟨.integral k' w, (parse_integral_toString v).trans hparse, equals_of_val_eq hk' hw⟩

/-- Comparing anything with a number that is no floating point number is defined. -/
lemma equals_isSome {m n : SqlNumber} (h : ∀ k x, n ≠ .floating k x) : (m.equals n).isSome := by
  cases m with
  | null => rfl
  | floating k x => rfl
  | integral k v =>
    cases n with
    | null | integral => rfl
    | floating k' x => exact absurd rfl (h k' x)

end SqlNumber

namespace FloatValue

lemma eq_comm (x y : FloatValue) : x.eq y = y.eq x := by
  cases x with
  | finite negative m e =>
    cases y with
    | finite negative' m' e' =>
      rw [eq, eq, Int.min_comm e' e]
      by_cases hscaled : m * 2 ^ (e - min e e').toNat = m' * 2 ^ (e' - min e e').toNat
      · simp [hscaled, Eq.comm]
      · simp [hscaled, Ne.symm hscaled]
    | infinity | nan => rfl
  | infinity negative =>
    cases y with
    | infinity negative' => simp [eq, Eq.comm]
    | finite | nan => rfl
  | nan => cases y <;> rfl

lemma zero_eq (x : FloatValue) : (finite false 0 0).eq x = x.isZero := by
  cases x with
  | finite negative m e =>
    have hzero : 0 = m * 2 ^ (e - min 0 e).toNat ↔ m = 0 := by
      rw [Eq.comm, Nat.mul_eq_zero]
      exact or_iff_left (Nat.pow_pos (by omega)).ne'
    simp [eq, isZero, hzero]
  | infinity | nan => rfl

end FloatValue

lemma FloatKind.eq_of_precision_eq {k k' : FloatKind} (h : k.precision = k'.precision) :
    k = k' := by
  cases k <;> cases k' <;> first | rfl | exact absurd h (by decide)

lemma IntKind.convert_zero (k : IntKind) : (k.convert 0).val = 0 := by cases k <;> rfl

namespace SqlValue

lemma symmetric_null_integral {k : IntKind} (v : CInt k) :
    Symmetric (.number .null) (.number (.integral k v)) ↔ v.val ≠ 0 := by
  rw [symmetric_iff_eq rfl rfl]
  simp [Subtype.ext_iff, IntKind.convert_zero, Eq.comm]

lemma symmetric_null_floating (k : FloatKind) (x : FloatValue) :
    Symmetric (.number .null) (.number (.floating k x)) ↔ x.isZero = false := by
  rw [symmetric_iff_eq rfl rfl]
  simp [SqlNumber.asFloating, FloatValue.zero_eq]

lemma symmetric_integral_floating {k : IntKind} (v : CInt k) (k' : FloatKind) (x : FloatValue) :
    Symmetric (.number (.integral k v)) (.number (.floating k' x)) ↔
      ∃ w, (SqlNumber.floating k' x).asIntegral k = some w ∧
        (w = v ↔ (FloatValue.round k' (v.val < 0) v.val.natAbs 1).eq x = true) := by
  have hleft : equals (.number (.integral k v)) (.number (.floating k' x)) =
      some ((FloatValue.round k' (v.val < 0) v.val.natAbs 1).eq x) := rfl
  have hright : equals (.number (.floating k' x)) (.number (.integral k v)) =
      ((SqlNumber.floating k' x).asIntegral k).map fun w => decide (w = v) := rfl
  cases hw : (SqlNumber.floating k' x).asIntegral k with
  | none =>
    rw [hw] at hright
    simp [symmetric_comm, not_symmetric hright]
  | some w =>
    rw [hw] at hright
    rw [symmetric_iff_eq hleft hright, Bool.eq_iff_iff]
    simp only [decide_eq_true_eq, Option.some.injEq, exists_eq_left']
    exact Iff.comm

lemma symmetric_floating {k k' : FloatKind} (x y : FloatValue) (h : k.precision < k'.precision) :
    Symmetric (.number (.floating k x)) (.number (.floating k' y)) ↔
      ((y.narrow k).eq x = true ↔ x.eq y = true) := by
  rw [symmetric_iff_eq rfl rfl]
  simp only [SqlNumber.asFloating, if_pos (Nat.le_of_lt h), if_neg (Nat.not_le_of_lt h)]
  rw [Bool.eq_iff_iff]
  exact Iff.comm

lemma symmetric_number (m n : SqlNumber) : Symmetric (.number m) (.number n) ↔ m.Agree n := by
  cases m with
  | null =>
    cases n with
    | null => exact iff_of_true ⟨true, rfl, rfl⟩ trivial
    | integral k v => exact symmetric_null_integral v
    | floating k x => exact symmetric_null_floating k x
  | integral k v =>
    cases n with
    | null => exact (symmetric_comm _ _).trans (symmetric_null_integral v)
    | integral k' w =>
      rw [symmetric_iff_eq rfl rfl, SqlNumber.Agree]
      simp [Iff.comm]
    | floating k' x => exact symmetric_integral_floating v k' x
  | floating k x =>
    cases n with
    | null => exact (symmetric_comm _ _).trans (symmetric_null_floating k x)
    | integral k' w => exact (symmetric_comm _ _).trans (symmetric_integral_floating w k x)
    | floating k' y =>
      rw [SqlNumber.Agree]
      rcases Nat.lt_trichotomy k.precision k'.precision with h | h | h
      · have hne : k ≠ k' := fun heq => Nat.ne_of_lt h (congrArg _ heq)
        simp [symmetric_floating x y h, h, Nat.not_lt_of_lt h, hne]
      · obtain rfl := FloatKind.eq_of_precision_eq h
        have hsame : Symmetric (.number (.floating k x)) (.number (.floating k y)) := by
          rw [symmetric_iff_eq rfl rfl]
          simp only [SqlNumber.asFloating, if_pos (Nat.le_refl _), FloatValue.eq_comm x y]
        simp [hsame]
      · have hne : k ≠ k' := fun heq => Nat.ne_of_gt h (congrArg _ heq)
        rw [symmetric_comm]
        simp [symmetric_floating y x h, h, Nat.not_lt_of_lt h, hne]

/-! ### Numbers, texts and times -/

/-- A number and a text, of either kind of string. -/
lemma symmetric_number_text (n : SqlNumber) {b : SqlValue} {text : List Char}
    (hread : b.asSqlNumber = SqlNumber.parse text)
    (hwrite : b.equals (.number n) = some (decide (n.toString.toList = text))) :
    Symmetric (.number n) b ↔ n.AgreeText text := by
  have hequals : equals (.number n) b =
      (SqlNumber.parse text).elim (some false) fun m => m.equals n := by
    rw [equals, hread]
  -- where the comparison is defined it tells whether the number is read from the text
  have hdefined : (∀ m, SqlNumber.parse text = some m → (m.equals n).isSome) →
      (Symmetric (.number n) b ↔ (n.ReadFrom text ↔ n.toString.toList = text)) := by
    intro hsome
    cases hparse : SqlNumber.parse text with
    | none =>
      rw [hparse] at hequals
      rw [symmetric_iff_eq hequals hwrite]
      simp [SqlNumber.ReadFrom, hparse]
    | some m =>
      obtain ⟨r, hr⟩ := Option.isSome_iff_exists.mp (hsome m hparse)
      rw [hparse] at hequals
      rw [symmetric_iff_eq (hequals.trans hr) hwrite, Bool.eq_iff_iff]
      simp [SqlNumber.ReadFrom, hparse, hr]
  cases n with
  | null =>
    rw [hdefined fun m _ => SqlNumber.equals_isSome nofun, SqlNumber.AgreeText]
    have hnull : SqlNumber.null.ReadFrom text → text ≠ ['N', 'U', 'L', 'L'] := by
      rintro ⟨m, hparse, -⟩ rfl
      cases hparse
    have htext : SqlNumber.null.toString.toList = text ↔ text = ['N', 'U', 'L', 'L'] := by
      rw [Eq.comm]
      rfl
    rw [htext]
    constructor
    · exact fun h => ⟨fun ht => hnull (h.mpr ht) ht, fun hr => hnull hr (h.mp hr)⟩
    · exact fun h => iff_of_false h.2 h.1
  | integral k v =>
    rw [hdefined fun m _ => SqlNumber.equals_isSome nofun, SqlNumber.AgreeText]
    refine ⟨Iff.mp, fun h => ⟨h, ?_⟩⟩
    rintro rfl
    exact SqlNumber.readFrom_toString v
  | floating k x =>
    rw [SqlNumber.AgreeText]
    by_cases hsome : ∀ m, SqlNumber.parse text = some m → (m.equals (.floating k x)).isSome
    · rw [hdefined hsome, and_iff_right hsome]
    · refine iff_of_false ?_ fun h => hsome h.1
      push Not at hsome
      obtain ⟨m, hparse, hnone⟩ := hsome
      refine not_symmetric ?_
      rw [hequals, hparse]
      simpa using hnone

lemma value_of (v : CInt .long) : SqlTime.value ⟨v.val, .timestamp⟩ = v :=
  Subtype.ext ((IntKind.convert_val (by decide) v.val).trans (IntKind.wrap_of_mem v.property))

lemma symmetric_number_time (n : SqlNumber) (t : SqlTime) :
    Symmetric (.number n) (.time t) ↔
      ∃ v, n.asIntegral .long = some v ∧ (v = t.value → t.format_ = .timestamp) := by
  have hleft : equals (.number n) (.time t) =
      (n.asIntegral .long).map fun v => decide (v = t.value) :=
    rfl
  have hright : equals (.time t) (.number n) =
      ((timeOf n).map some).map fun r => r.elim false fun u => u.equals t := rfl
  cases hv : n.asIntegral .long with
  | none =>
    rw [hv] at hleft
    simp [not_symmetric hleft]
  | some v =>
    rw [hv] at hleft
    rw [timeOf, hv] at hright
    rw [symmetric_iff_eq hleft hright, Bool.eq_iff_iff]
    simp [SqlTime.equals, value_of, eq_comm (a := TimeFormat.timestamp)]

lemma wide_inj {v w : List Char} : Helper.wide v = Helper.wide w ↔ v = w :=
  (List.map_injective_iff.mpr fun _ _ h => Char.toNat_inj.mp (Int.natCast_inj.mp h)).eq_iff

/-- Each `char` is widened to the character of the wide string if this is an ASCII string. -/
lemma widen_eq_wide {s : String} {w : List Char} :
    Helper.widen s = Helper.wide w ↔ s.toList = w ∧ ∀ c ∈ w, c.toNat < 128 := by
  rw [Helper.widen, Helper.wide]
  induction s.toList generalizing w with
  | nil => cases w <;> simp
  | cons c cs ih =>
    cases w with
    | nil => simp
    | cons d ds =>
      have hchar : (if c.toNat < 128 then (c.toNat : Int) else .negSucc (255 - c.toNat)) = d.toNat ↔
          c = d ∧ d.toNat < 128 := by
        by_cases hc : c.toNat < 128
        · rw [if_pos hc, Int.natCast_inj, Char.toNat_inj]
          exact ⟨fun h => ⟨h, h ▸ hc⟩, And.left⟩
        · rw [if_neg hc]
          exact iff_of_false nofun fun h => hc (h.1 ▸ h.2)
      simp only [List.map_cons, List.cons.injEq, hchar, ih, List.forall_mem_cons]
      exact and_and_and_comm

lemma convertString_ascii {w : List Char} (h : ∀ c ∈ w, c.toNat < 128) :
    Helper.convertString w = String.ofList w := by
  have hchar : ∀ c : Char, c.toNat < 128 →
      (String.utf8EncodeChar c).map (fun b => Char.ofNat b.toNat) = [c] := by
    intro c hc
    have hsize : c.utf8Size = 1 := by
      rw [Char.utf8Size_eq_one_iff, UInt32.le_iff_toNat_le, Char.toNat_val]
      exact Nat.le_of_lt_succ hc
    have hbyte : c.val.toUInt8.toNat = c.toNat := by
      rw [UInt32.toNat_toUInt8, Char.toNat_val]
      omega
    rw [String.utf8EncodeChar_eq_singleton hsize, List.map_singleton, hbyte, Char.ofNat_toNat]
  rw [Helper.convertString, List.map_flatMap]
  congr 1
  induction w with
  | nil => rfl
  | cons c cs ih =>
    rw [List.forall_mem_cons] at h
    rw [List.flatMap_cons, hchar c h.1, ih h.2, List.singleton_append]

lemma symmetric_string_wstring (s : String) (w : List Char) :
    Symmetric (.string s) (.wstring w) ↔
      (Helper.convertString w = s → ∀ c ∈ w, c.toNat < 128) := by
  have hleft : equals (.string s) (.wstring w) = some (decide (Helper.convertString w = s)) := rfl
  have hright : equals (.wstring w) (.string s) =
      some (decide (Helper.widen s = Helper.wide w)) := rfl
  rw [symmetric_iff_eq hleft hright, decide_eq_decide, widen_eq_wide]
  constructor
  · exact fun h hs => (h.mp hs).2
  · intro h
    constructor
    · intro hs
      have hw := h hs
      rw [convertString_ascii hw] at hs
      exact ⟨by rw [← hs]; simp, hw⟩
    · rintro ⟨rfl, hw⟩
      rw [convertString_ascii hw]
      simp

lemma symmetric_string_time (s : String) (t : SqlTime) :
    Symmetric (.string s) (.time t) ↔
      ∃ text, t.text = some text ∧
        (text = s ↔ ∃ u, SqlTime.parse s.toList = some u ∧ u.equals t = true) := by
  have hleft : equals (.string s) (.time t) = t.text.map fun text => decide (text = s) := rfl
  have hright : equals (.time t) (.string s) =
      some ((SqlTime.parse s.toList).elim false fun u => u.equals t) := rfl
  cases htext : t.text with
  | none =>
    rw [htext] at hleft
    simp [not_symmetric hleft]
  | some text =>
    rw [htext] at hleft
    rw [symmetric_iff_eq hleft hright, Bool.eq_iff_iff]
    cases SqlTime.parse s.toList <;> simp

lemma symmetric_wstring_time (w : List Char) (t : SqlTime) :
    Symmetric (.wstring w) (.time t) ↔
      ∃ text, t.text = some text ∧
        match SqlNumber.parse w with
        | none => text.toList ≠ w
        | some n => ∃ v, n.asIntegral .long = some v ∧
          (text.toList = w ↔ v = t.value ∧ t.format_ = .timestamp) := by
  have hleft : equals (.wstring w) (.time t) =
      t.text.map fun text => decide (text.toList = w) := by
    simp [equals, asSqlWstring, Function.comp_def, wide_inj]
  cases htext : t.text with
  | none =>
    rw [htext] at hleft
    simp [not_symmetric hleft]
  | some text =>
    rw [htext] at hleft
    cases hparse : SqlNumber.parse w with
    | none =>
      have hright : equals (.time t) (.wstring w) = some false := by
        simp [equals, asSqlTime, hparse]
      rw [symmetric_iff_eq hleft hright]
      simp
    | some n =>
      have hright : equals (.time t) (.wstring w) =
          (timeOf n).map fun u => u.equals t := by
        simp [equals, asSqlTime, hparse, Function.comp_def]
      cases hv : n.asIntegral .long with
      | none =>
        rw [timeOf, hv] at hright
        rw [symmetric_comm]
        simp [not_symmetric hright, hv]
      | some v =>
        rw [timeOf, hv] at hright
        rw [symmetric_iff_eq hleft hright, Bool.eq_iff_iff]
        simp [SqlTime.equals, value_of, hv, eq_comm (a := TimeFormat.timestamp)]

/-- Null, which converts to a number, and to the texts that say so. -/
lemma symmetric_null (b : SqlValue) : Symmetric .null b ↔ Agree .null b := by
  cases b with
  | null => exact iff_of_true ⟨true, rfl, rfl⟩ trivial
  | number n =>
    rw [symmetric_iff_eq rfl rfl, Agree]
    simp
  | string s =>
    have hright : equals (.string s) .null = some (decide ("NULL" = s)) := rfl
    rw [symmetric_iff_eq rfl hright, Agree]
    simp [eq_comm (a := s)]
  | wstring w =>
    have hright : equals (.wstring w) .null =
        some (decide (Helper.wide ['N', 'U', 'L', 'L'] = Helper.wide w)) := rfl
    rw [symmetric_iff_eq rfl hright, Agree]
    simp [wide_inj, eq_comm (a := w)]
  | time t => exact iff_of_true ⟨false, rfl, rfl⟩ trivial
  | blob b => exact iff_of_false (fun h => not_symmetric rfl ((symmetric_comm _ _).mp h)) id

/-- A blob converts to no number and no time, and its comparison with what converts to a blob does
not return. -/
lemma symmetric_blob (b : SqlBlob) (v : SqlValue) : Symmetric (.blob b) v ↔ Agree (.blob b) v := by
  cases v with
  | number n => exact iff_of_true ⟨false, rfl, rfl⟩ trivial
  | time t => exact iff_of_true ⟨false, rfl, rfl⟩ trivial
  | null | string | wstring | blob => exact iff_of_false (not_symmetric rfl) id

lemma symmetric_number_string (n : SqlNumber) (s : String) :
    Symmetric (.number n) (.string s) ↔ n.AgreeText s.toList :=
  symmetric_number_text n rfl (congrArg some (decide_eq_decide.mpr String.toList_inj.symm))

lemma symmetric_number_wstring (n : SqlNumber) (w : List Char) :
    Symmetric (.number n) (.wstring w) ↔ n.AgreeText w :=
  symmetric_number_text n rfl (congrArg some (decide_eq_decide.mpr wide_inj))

end SqlValue

end CodaDb
