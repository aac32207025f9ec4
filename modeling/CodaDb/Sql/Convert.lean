import CodaDb.Lib.Numeral
import CodaDb.Sql.Number
import Mathlib.Algebra.Order.Group.Unbundled.Int

/-!
# Conversions of a `sql_number`

The conversions of C++ between the arithmetic types of an LP64 platform, and the equality of two
numbers, which converts one of them to the type of the other. Integers wrap around; a floating
point number that does not fit an integral type has no defined conversion.
-/

namespace CodaDb

namespace IntKind

/-- The width in bits; a `bool` has two values. -/
def bits : IntKind → Nat
  | .bool => 1
  | .char | .uchar => 8
  | .short | .ushort => 16
  | .wchar | .int | .uint => 32
  | .long | .ulong | .llong | .ullong => 64

lemma max_eq (k : IntKind) : k.max = k.min + 2 ^ k.bits - 1 := by cases k <;> rfl

/-- The residue of an integer in the range of the type. -/
def wrap (k : IntKind) (v : Int) : Int := (v - k.min) % 2 ^ k.bits + k.min

lemma wrap_mem (k : IntKind) (v : Int) : k.min ≤ k.wrap v ∧ k.wrap v ≤ k.max := by
  have hpos : (0 : Int) < 2 ^ k.bits := Int.pow_pos (by omega)
  have hlower := Int.emod_nonneg (v - k.min) (Int.ne_of_gt hpos)
  have hupper := Int.emod_lt_of_pos (v - k.min) hpos
  rw [max_eq, wrap]
  omega

lemma wrap_eq_iff {k : IntKind} {u : Int} (hu : k.min ≤ u ∧ u ≤ k.max) (v : Int) :
    k.wrap v = u ↔ (2 ^ k.bits : Int) ∣ v - u := by
  rw [max_eq] at hu
  have hsmall : (u - k.min) % 2 ^ k.bits = u - k.min :=
    Int.emod_eq_of_lt (by omega) (by omega)
  have hsub : v - k.min - (u - k.min) = v - u := by omega
  calc k.wrap v = u
      ↔ (v - k.min) % 2 ^ k.bits = (u - k.min) % 2 ^ k.bits := by
        rw [wrap, hsmall]
        omega
    _ ↔ (2 ^ k.bits : Int) ∣ v - u := by
        rw [Int.emod_eq_emod_iff_emod_sub_eq_zero, ← Int.dvd_iff_emod_eq_zero, hsub]

lemma wrap_of_mem {k : IntKind} {v : Int} (h : k.min ≤ v ∧ v ≤ k.max) : k.wrap v = v :=
  (wrap_eq_iff h v).mpr (by simp)

lemma wrap_eq_self_iff {k : IntKind} {v : Int} : k.wrap v = v ↔ k.min ≤ v ∧ v ≤ k.max := by
  refine ⟨?_, wrap_of_mem⟩
  intro h
  rw [← h]
  exact k.wrap_mem v

/-- The type keeps nothing but the residue. -/
lemma wrap_emod (k : IntKind) (v : Int) : k.wrap (v % 2 ^ k.bits) = k.wrap v := by
  rw [wrap_eq_iff (k.wrap_mem v)]
  have hwrap := (wrap_eq_iff (k.wrap_mem v) v).mp rfl
  have hemod : (2 ^ k.bits : Int) ∣ v - v % 2 ^ k.bits := Int.dvd_self_sub_emod
  have hsub : v % 2 ^ k.bits - k.wrap v = v - k.wrap v - (v - v % 2 ^ k.bits) := by omega
  rw [hsub]
  exact Int.dvd_sub hwrap hemod

/-- Two types of one width have the same residues. -/
lemma wrap_wrap {k k' : IntKind} (h : k.bits = k'.bits) (v : Int) :
    k.wrap (k'.wrap v) = k.wrap v := by
  rw [wrap_eq_iff (k.wrap_mem v)]
  have hinner := (wrap_eq_iff (k'.wrap_mem v) v).mp rfl
  have houter := (wrap_eq_iff (k.wrap_mem v) v).mp rfl
  rw [← h] at hinner
  have hsub : k'.wrap v - k.wrap v = v - k.wrap v - (v - k'.wrap v) := by omega
  rw [hsub]
  exact Int.dvd_sub houter hinner

/-- The conversion of an integer: to `bool` whether it is not zero, else its residue. -/
def convert (k : IntKind) (v : Int) : CInt k :=
  ⟨if k = .bool then if v = 0 then 0 else 1 else k.wrap v, by
    split
    · next hk =>
      subst hk
      split <;> decide
    · exact k.wrap_mem v⟩

lemma convert_val {k : IntKind} (hk : k ≠ .bool) (v : Int) : (k.convert v).val = k.wrap v :=
  if_neg hk

/-- The integer, if it is in the range of the type. -/
def check (k : IntKind) (v : Int) : Option (CInt k) :=
  if h : k.min ≤ v ∧ v ≤ k.max then some ⟨v, h⟩ else none

/-- `std::stoi`, `std::stol` and `std::stoll`; `none` for an exception. -/
def stoSigned (k : IntKind) (str : List Char) : Option (CInt k) :=
  (Numeral.scan str).bind fun r => k.check (Numeral.signed r)

/-- `std::stoul` and `std::stoull`, which negate the number after a minus sign. -/
def stoUnsigned (k : IntKind) (str : List Char) : Option (CInt k) :=
  (Numeral.scan str).bind fun r =>
    if r.2 ≤ k.max then some (k.convert (Numeral.signed r)) else none

/-- The text of an integer is read if the type can hold it. -/
lemma stoSigned_toString (k : IntKind) (v : Int) :
    k.stoSigned (toString v).toList = k.check v := by
  have hscan := Numeral.scan_toString v [] (by simp)
  rw [List.append_nil] at hscan
  rw [stoSigned, hscan, Option.bind_some, Numeral.signed_natAbs]

/-- The digits of a number are read if the type can hold it. -/
lemma stoSigned_digits (k : IntKind) {ds : List Char} (hne : ds ≠ [])
    (h : ∀ c ∈ ds, c.isDigit = true) : k.stoSigned ds = k.check (Nat.ofDigitChars 10 ds 0) := by
  rw [stoSigned, Numeral.scan_digits hne h, Option.bind_some, Numeral.signed]

lemma stoUnsigned_toString (k : IntKind) {v : Int} (hv : 0 ≤ v) :
    k.stoUnsigned (toString v).toList = if v ≤ k.max then some (k.convert v) else none := by
  have hscan := Numeral.scan_toString v [] (by simp)
  rw [List.append_nil] at hscan
  rw [stoUnsigned, hscan, Option.bind_some, Numeral.signed_natAbs, Int.natAbs_of_nonneg hv]

end IntKind

namespace FloatKind

/-- The number of bits of a significand. -/
def precision : FloatKind → Nat
  | .float => 24
  | .double => 53
  | .longDouble => 64

/-- The exponent of the least positive value. -/
def minExponent : FloatKind → Int
  | .float => -149
  | .double => -1074
  | .longDouble => -16445

/-- The exponent of the least power of two beyond the range. -/
def maxExponent : FloatKind → Int
  | .float => 128
  | .double => 1024
  | .longDouble => 16384

end FloatKind

namespace FloatValue

/-- The exponent of the greatest power of two that is at most `num / den`. -/
def ilog2 (num den : Nat) : Int :=
  let e : Int := (Nat.log2 num : Int) - Nat.log2 den
  if num * 2 ^ (-e).toNat < den * 2 ^ e.toNat then e - 1 else e

/-- `num / den`, rounded to the nearest value of the type. -/
def round (k : FloatKind) (negative : Bool) (num den : Nat) : FloatValue :=
  let e := max (ilog2 num den - (k.precision - 1)) k.minExponent
  let m := roundHalfEven (num * 2 ^ (-e).toNat) (den * 2 ^ e.toNat)
  if num ≠ 0 ∧ 2 ^ (k.maxExponent - e).toNat ≤ m then .infinity negative else .finite negative m e

/-- Rounded with no bound on its exponent, the number is below the normal ones of the type. -/
def Tiny (k : FloatKind) (num den : Nat) : Prop :=
  let e := ilog2 num den - (k.precision - 1)
  let least := k.minExponent + (k.precision - 1)
  roundHalfEven (num * 2 ^ (-e).toNat) (den * 2 ^ e.toNat) * 2 ^ (e - least).toNat <
    2 ^ (least - e).toNat

instance (k : FloatKind) (num den : Nat) : Decidable (Tiny k num den) :=
  inferInstanceAs (Decidable (_ < _))

/-- The comparison of C++: a zero equals the negative zero, and a NaN nothing. -/
def eq : FloatValue → FloatValue → Bool
  | .finite negative m e, .finite negative' m' e' =>
    let least := min e e'
    let scaled := m * 2 ^ (e - least).toNat
    scaled = m' * 2 ^ (e' - least).toNat && (scaled = 0 || negative = negative')
  | .infinity negative, .infinity negative' => negative = negative'
  | _, _ => false

def isZero : FloatValue → Bool
  | .finite _ m _ => m = 0
  | .infinity _ | .nan _ => false

/-- The value without its fraction, if it is finite. -/
def trunc : FloatValue → Option Int
  | .finite negative m e =>
    let magnitude : Int := (m * 2 ^ e.toNat / 2 ^ (-e).toNat : Nat)
    some (if negative then -magnitude else magnitude)
  | .infinity _ | .nan _ => none

/-- The conversion to a type of less precision. -/
def narrow (k : FloatKind) : FloatValue → FloatValue
  | .finite negative m e => round k negative (m * 2 ^ e.toNat) (2 ^ (-e).toNat)
  | x => x

end FloatValue

namespace SqlNumber

/-- `as<T>` for an integral type; `none` where the conversion is not defined. -/
def asIntegral (k : IntKind) : SqlNumber → Option (CInt k)
  | .null => some (k.convert 0)
  | .integral _ v => some (k.convert v.val)
  | .floating _ x =>
    if k = .bool then some (k.convert (if x.isZero then 0 else 1)) else x.trunc.bind k.check

/-- `as<T>` for a floating point type. -/
def asFloating (k : FloatKind) : SqlNumber → FloatValue
  | .null => .finite false 0 0
  | .integral _ v => .round k (v.val < 0) v.val.natAbs 1
  | .floating k' x => if k'.precision ≤ k.precision then x else x.narrow k

/-- `operator==(const sql_number &)`, which visits the left number and converts the right one;
`none` where the conversion is not defined. -/
def equals : SqlNumber → SqlNumber → Option Bool
  | .null, b => some (b = .null)
  | .integral k v, b => (b.asIntegral k).map fun w => w = v
  | .floating k x, b => some ((b.asFloating k).eq x)

/-- Two integral numbers are found equal if the right one wraps around to the left one. -/
lemma equals_integral {k : IntKind} (hk : k ≠ .bool) (v : CInt k) {k' : IntKind} (w : CInt k') :
    equals (.integral k v) (.integral k' w) = some true ↔ (2 ^ k.bits : Int) ∣ w.val - v.val := by
  rw [← IntKind.wrap_eq_iff v.property, ← IntKind.convert_val hk]
  simp [equals, asIntegral, Subtype.ext_iff]

/-- Two integral numbers are compared as integers exactly if they are equal or do not differ by a
multiple of the number of values of the left type. -/
theorem equals_integral_iff {k : IntKind} (hk : k ≠ .bool) (v : CInt k) {k' : IntKind}
    (w : CInt k') :
    (equals (.integral k v) (.integral k' w) = some true ↔ v.val = w.val) ↔
      (v.val = w.val ∨ ¬(2 ^ k.bits : Int) ∣ w.val - v.val) := by
  rw [equals_integral hk]
  constructor
  · intro h
    by_cases hdvd : (2 ^ k.bits : Int) ∣ w.val - v.val
    · exact .inl (h.mp hdvd)
    · exact .inr hdvd
  · rintro (heq | hdvd)
    · simp [heq]
    · refine ⟨fun h => absurd h hdvd, ?_⟩
      intro heq
      simp [heq] at hdvd

theorem equals_integral_iff_char :
    (equals (.integral .char ⟨5, by decide⟩) (.integral .int ⟨261, by decide⟩) = some true ↔
        (5 : Int) = 261) ↔
      ((5 : Int) = 261 ∨ ¬(2 ^ IntKind.char.bits : Int) ∣ 261 - 5) :=
  @equals_integral_iff .char nofun ⟨5, by decide⟩ .int ⟨261, by decide⟩

/-- The character 0 and the integer 256 are found equal. -/
theorem not_equals_integral :
    ¬∀ (k k' : IntKind) (v : CInt k) (w : CInt k'), k ≠ .bool → k' ≠ .bool →
      (equals (.integral k v) (.integral k' w) = some true ↔ v.val = w.val) := by
  intro h
  have heq : equals (.integral .char ⟨0, by decide⟩) (.integral .int ⟨256, by decide⟩) =
      some true := rfl
  exact absurd ((h .char .int ⟨0, by decide⟩ ⟨256, by decide⟩ nofun nofun).mp heq) (by decide)

end SqlNumber

end CodaDb
