import CodaDb.Sql.Equality

/-!
# Numbers read as booleans

Four ways to ask whether a number is not zero. Some of them convert it to an `int` on the way, which
keeps the residue only.
-/

namespace CodaDb

namespace SqlNumber

/-- `as<bool>`, a conversion of the alternative. -/
def asBool (n : SqlNumber) : Option Bool := (n.asIntegral .bool).map fun v => v.val ≠ 0

/-- `operator bool`, which asks `as<int>`; `none` where that is not defined. -/
def toBool (n : SqlNumber) : Option Bool := (n.asIntegral .int).map fun v => v.val ≠ 0

/-- `operator==(const bool &)` -/
def equalsBool (n : SqlNumber) (value : Bool) : Option Bool := n.asBool.map fun b => b = value

end SqlNumber

namespace SqlValue

/-- `as<bool>`, by the visitor `as_number<bool>`: undefined, a conversion error, or a boolean. -/
def asBool : SqlValue → Option (Option Bool)
  | .null => some (some false)
  | .number n => n.toBool.map some
  | .string s => (SqlNumber.parse s.toList).elim (some none) fun n => n.toBool.map some
  | .wstring w => (SqlNumber.parse w).elim (some none) fun n => n.toBool.map some
  | .time t => (SqlNumber.integral .long t.value).toBool.map some
  | .blob _ => some none

/-- `operator==(const bool &)`, where a value that is no number equals `false`. -/
def equalsBool (v : SqlValue) (value : Bool) : Option Bool :=
  v.asSqlNumber.elim (some (value = false)) fun n => n.equalsBool value

end SqlValue

namespace SqlNumber

/-- All four readings of a number give this boolean: `n.as<bool>()`, `static_cast<bool>(n)`,
`sql_value(n).as<bool>()` and `sql_value(n) == true`. -/
structure ReadAs (n : SqlNumber) (b : Bool) : Prop where
  as_bool : n.asBool = some b
  cast : n.toBool = some b
  value_as_bool : (SqlValue.number n).asBool = some (some b)
  value_equals : (SqlValue.number n).equalsBool true = some b

lemma asBool_integral {k : IntKind} (v : CInt k) :
    (integral k v).asBool = some (decide (v.val ≠ 0)) := by
  by_cases hv : v.val = 0
  · simp [asBool, asIntegral, IntKind.convert, hv]
  · simp [asBool, asIntegral, IntKind.convert, hv]

lemma wrap_int_eq_zero_iff (v : Int) : IntKind.int.wrap v = 0 ↔ (2 ^ 32 : Int) ∣ v := by
  have hzero := @IntKind.wrap_eq_iff .int 0 (by decide) v
  rwa [Int.sub_zero] at hzero

lemma toBool_integral {k : IntKind} (v : CInt k) :
    (integral k v).toBool = some (decide ¬(2 ^ 32 : Int) ∣ v.val) := by
  rw [toBool, asIntegral, Option.map_some, IntKind.convert_val (by decide), Option.some.injEq,
    decide_eq_decide, Ne, wrap_int_eq_zero_iff]

/-- The two readings that convert to an `int` find zero in every multiple of the number of its
values. -/
theorem readAs_integral_iff {k : IntKind} (v : CInt k) :
    (integral k v).ReadAs (decide (v.val ≠ 0)) ↔ v.val = 0 ∨ ¬(2 ^ 32 : Int) ∣ v.val := by
  constructor
  · intro h
    have hcast := (toBool_integral v).symm.trans h.cast
    rw [Option.some.injEq, decide_eq_decide] at hcast
    by_cases hv : v.val = 0
    · exact .inl hv
    · exact .inr (hcast.mpr hv)
  · intro h
    have hcast : (integral k v).toBool = some (decide (v.val ≠ 0)) := by
      rw [toBool_integral, Option.some.injEq, decide_eq_decide]
      constructor
      · rintro hdvd hzero
        exact hdvd (hzero ▸ Int.dvd_zero _)
      · exact fun hv => h.resolve_left hv
    constructor
    · exact asBool_integral v
    · exact hcast
    · rw [SqlValue.asBool, hcast, Option.map_some]
    · have hequals : (SqlValue.number (integral k v)).equalsBool true =
          (integral k v).asBool.map fun b => decide (b = true) := rfl
      rw [hequals, asBool_integral, Option.map_some]
      simp

/-- The number 2^32 is cast to `false`. -/
theorem not_readAs_integral :
    ¬∀ (k : IntKind) (v : CInt k), (integral k v).ReadAs (decide (v.val ≠ 0)) := by
  intro h
  exact absurd (h .ulong ⟨2 ^ 32, by decide⟩).cast (by decide)

end SqlNumber

end CodaDb
