import CodaDb.Sql.Equality

/-!
# Integers read from text

The functions that `parse` hands an integer to, one after the other, and the integer that the number
then holds.
-/

namespace CodaDb

namespace SqlNumber

/-- The number holds an integral alternative of this value. -/
def Holds (n : SqlNumber) (v : Int) : Prop :=
  ∃ (k : IntKind) (w : CInt k), n = integral k w ∧ w.val = v

lemma holds_integral_iff {k : IntKind} {w : CInt k} {v : Int} :
    (integral k w).Holds v ↔ w.val = v := by
  constructor
  · rintro ⟨k', w', heq, rfl⟩
    cases heq
    rfl
  · exact fun h => ⟨k, w, rfl, h⟩

/-- No function reads a text without an integer at its start. -/
lemma parseIntegral_of_scan_none {value : List Char} (h : Numeral.scan value = none) :
    parseIntegral value = none := by
  simp only [parseIntegral, IntKind.stoSigned, IntKind.stoUnsigned, h]
  rfl

/-- What is neither an `int` nor a `long` is left to `std::stoul`, which reads the magnitude. -/
lemma parseIntegral_of_scan {value : List Char} {r : Bool × Nat}
    (h : Numeral.scan value = some r) :
    parseIntegral value =
      ((IntKind.int.check (Numeral.signed r)).map (integral .int)).or
        (((IntKind.long.check (Numeral.signed r)).map (integral .long)).or
          (if r.2 ≤ IntKind.ulong.max then
            some (integral .ulong (IntKind.ulong.convert (Numeral.signed r))) else none)) := by
  have hmax : IntKind.ullong.max = IntKind.ulong.max := rfl
  have hmin : IntKind.llong.check (Numeral.signed r) = none ∨
      (IntKind.long.check (Numeral.signed r)).isSome := by
    by_cases hlong : IntKind.long.min ≤ Numeral.signed r ∧ Numeral.signed r ≤ IntKind.long.max
    · exact .inr (by rw [IntKind.check, dif_pos hlong]; rfl)
    · exact .inl (dif_neg hlong)
  simp only [parseIntegral, IntKind.stoSigned, IntKind.stoUnsigned, h, Option.bind_some, hmax]
  -- the last two functions have the ranges of the two before them
  congr 1
  rcases hmin with hnone | hsome
  · rw [hnone]
    split <;> rfl
  · obtain ⟨w, hw⟩ := Option.isSome_iff_exists.mp hsome
    rw [hw]
    rfl

lemma signed_cases (r : Bool × Nat) : Numeral.signed r = r.2 ∨ Numeral.signed r = -r.2 := by
  obtain ⟨negative, m⟩ := r
  cases negative
  · exact .inl rfl
  · exact .inr rfl

/-- A written integer is read exactly or refused, unless it lies below the range of `long` and its
magnitude is in the range of `unsigned long`: then `std::stoul` negates it. -/
theorem parse_written_iff (w : Numeral.Written) :
    (∀ n, parse w.text = some n → n.Holds w.value) ↔
      (w.value < -(2 ^ 64 - 1) ∨ -(2 ^ 63) ≤ w.value) := by
  have hlongMin : IntKind.long.min = -(2 ^ 63) := rfl
  have hlongMax : IntKind.long.max = 2 ^ 63 - 1 := rfl
  have hulongMin : IntKind.ulong.min = 0 := rfl
  have hulongMax : IntKind.ulong.max = 2 ^ 64 - 1 := rfl
  have hintMin : IntKind.int.min = -(2 ^ 31) := rfl
  have hsign := signed_cases (decide (w.sign = .minus), w.magnitude)
  rw [parse_written, parseIntegral_of_scan (Numeral.scan_text w)]
  rw [← Numeral.Written.value] at hsign ⊢
  by_cases hint : IntKind.int.min ≤ w.value ∧ w.value ≤ IntKind.int.max
  · rw [IntKind.check, dif_pos hint]
    refine iff_of_true ?_ (.inr (by omega))
    rintro n hn
    cases hn
    exact ⟨_, _, rfl, rfl⟩
  rw [IntKind.check, dif_neg hint, Option.map_none, Option.none_or]
  by_cases hlong : IntKind.long.min ≤ w.value ∧ w.value ≤ IntKind.long.max
  · rw [IntKind.check, dif_pos hlong]
    refine iff_of_true ?_ (.inr (by omega))
    rintro n hn
    cases hn
    exact ⟨_, _, rfl, rfl⟩
  rw [IntKind.check, dif_neg hlong, Option.map_none, Option.none_or]
  by_cases hulong : (w.magnitude : Int) ≤ IntKind.ulong.max
  · -- only what is not negative is in the range of the type that reads it
    have hheld : (∀ n, some (integral .ulong (IntKind.ulong.convert w.value)) = some n →
        n.Holds w.value) ↔ IntKind.ulong.wrap w.value = w.value := by
      simp only [Option.some.injEq, forall_eq', holds_integral_iff,
        IntKind.convert_val (show IntKind.ulong ≠ .bool by decide)]
    rw [if_pos hulong, hheld, IntKind.wrap_eq_self_iff]
    omega
  · rw [if_neg hulong]
    refine iff_of_true ?_ (by omega)
    rintro n hn
    cases hn

/-- The text of -2^63 - 1 is read as a positive number. -/
theorem not_parse_written :
    ¬∀ (w : Numeral.Written) (n : SqlNumber), parse w.text = some n → n.Holds w.value := by
  intro h
  obtain ⟨k, v, heq, hv⟩ := h ⟨.minus, "9223372036854775809".toList, by decide, by simp⟩
    (integral .ulong ⟨9223372036854775807, by decide⟩) (by decide)
  cases heq
  exact absurd hv (by decide)

/-- The text of an integral number is read as the same integer. -/
theorem parse_toString {k : IntKind} (v : CInt k) :
    ∃ n, parse (integral k v).toString.toList = some n ∧ n.Holds v.val := by
  obtain ⟨k', -, w, hw, hparse⟩ := parseIntegral_toString v
  exact ⟨integral k' w, (parse_integral_toString v).trans hparse, k', w, rfl, hw⟩

end SqlNumber

end CodaDb
