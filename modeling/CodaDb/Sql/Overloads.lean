import CodaDb.Lib.Bytes
import CodaDb.Lib.Calls
import CodaDb.Sql.Equality

/-!
# The calls behind `==`

`operator==` of two values is a set of overloads that call each other. Overload resolution is that
of C++: a `sql_blob` has no `operator==` of its own, so two blobs are compared by the operator for a
blob and a value. Which comparisons come to an end.
-/

namespace CodaDb

namespace SqlValue

/-- The visitor `as_sql_blob`, for a copy at an address; `none` for a conversion error. The size of
a wide string is its number of characters, of four bytes each. -/
def asSqlBlob (address : UInt64) : SqlValue → Option SqlBlob
  | .null => some ⟨0, []⟩
  | .number _ | .time _ => none
  | .blob b => some b
  | .string s => some (copyOf (s.toList.map fun c => UInt8.ofNat c.toNat))
  | .wstring w => some (copyOf ((w.flatMap fun c => Bytes.littleEndian 4 c.toNat).take w.length))
where
  /-- The constructor copies the data if there are any. -/
  copyOf (bytes : List UInt8) : SqlBlob := ⟨if bytes = [] then 0 else address, bytes⟩

/-- The calls of the overloads; the first argument is the one that the overload is a member of. -/
inductive EqualsCall where
  /-- `sql_value::operator==(const sql_value &)` -/
  | values (a b : SqlValue)
  /-- `sql_value::operator==(const sql_null_type &)` -/
  | null (b : SqlValue)
  /-- `sql_value::operator==(const sql_number &)` -/
  | number (b : SqlValue) (value : SqlNumber)
  /-- `sql_value::operator==(const sql_string &)` -/
  | string (b : SqlValue) (value : String)
  /-- `sql_value::operator==(const sql_wstring &)` -/
  | wstring (b : SqlValue) (value : List Char)
  /-- `sql_value::operator==(const sql_time &)` -/
  | time (b : SqlValue) (value : SqlTime)
  /-- `sql_value::operator==(const sql_blob &)` -/
  | blob (b : SqlValue) (value : SqlBlob)
  /-- the free `operator==(const sql_blob &, const sql_value &)` -/
  | blobValue (other : SqlBlob) (value : SqlValue)

namespace EqualsCall

/-- The visitor `value_equality`, which chooses an overload by the kind of the left value. -/
def valueEquality (value : SqlValue) : SqlValue → EqualsCall
  | .null => .null value
  | .number n => .number value n
  | .string s => .string value s
  | .wstring w => .wstring value w
  | .time t => .time value t
  | .blob x => .blob value x

/-- The call that the body of an overload makes, or its result: `none` where a conversion that it
makes is not defined. -/
def next (address : UInt64) : EqualsCall → EqualsCall ⊕ Option Bool
  | .values a b => .inl (valueEquality b a)
  | .null b => .inr (some (b = .null))
  | .number b value => .inr ((b.asSqlNumber).elim (some false) fun m => m.equals value)
  | .string b value => .inr (b.asSqlString.map fun s => s = value)
  | .wstring b value => .inr (b.asSqlWstring.map fun v => v = Helper.wide value)
  | .time b value => .inr (b.asSqlTime.map fun r => r.elim false fun u => u.equals value)
  -- `as<sql_blob>() == value` converts the right blob to a value
  | .blob b value =>
    match b.asSqlBlob address with
    | none => .inr (some false)
    | some x => .inl (.blobValue x (.blob value))
  | .blobValue other value => .inl (.blob value other)

lemma returns_values_iff {address : UInt64} {a b : SqlValue} {r : Option Bool} :
    Calls.Returns (EqualsCall.next address) (.values a b) r ↔
      Calls.Returns (EqualsCall.next address) (valueEquality b a) r := by
  have hnext : EqualsCall.next address (.values a b) = .inl (valueEquality b a) := rfl
  exact Calls.returns_of_call hnext

/-- Two blobs that are on the way of being compared with each other. -/
inductive OfBlobs : EqualsCall → Prop where
  | blob (x y : SqlBlob) : OfBlobs (.blob (.blob x) y)
  | blobValue (x y : SqlBlob) : OfBlobs (.blobValue x (.blob y))

lemma OfBlobs.next {c : EqualsCall} (h : c.OfBlobs) (address : UInt64) :
    ∃ c', c.next address = .inl c' ∧ c'.OfBlobs := by
  cases h with
  | blob x y => exact ⟨_, rfl, .blobValue x y⟩
  | blobValue x y => exact ⟨_, rfl, .blob y x⟩

/-- The comparison of two blobs calls itself with the sides exchanged. -/
lemma not_returns_ofBlobs {c : EqualsCall} (h : c.OfBlobs) (address : UInt64) (r : Option Bool) :
    ¬Calls.Returns (EqualsCall.next address) c r :=
  Calls.not_returns OfBlobs (fun _ hc => hc.next address) h r

/-- Comparing a value with a blob returns only where the value is no blob and does not convert to
one. -/
lemma returns_blob (address : UInt64) (b : SqlValue) (value : SqlBlob) (r : Option Bool) :
    Calls.Returns (EqualsCall.next address) (.blob b value) r ↔
      b.asSqlBlob address = none ∧ r = some false := by
  cases hblob : b.asSqlBlob address with
  | none =>
    have hnext : EqualsCall.next address (.blob b value) = .inr (some false) := by
      simp only [EqualsCall.next, hblob]
    rw [Calls.returns_of_result hnext, and_iff_right rfl]
  | some x =>
    have hnext : EqualsCall.next address (.blob b value) = .inl (.blobValue x (.blob value)) := by
      simp only [EqualsCall.next, hblob]
    rw [Calls.returns_of_call hnext]
    exact iff_of_false (not_returns_ofBlobs (.blobValue x value) address r) nofun

end EqualsCall

/-- A comparison of values of other kinds returns what `equals` says. -/
lemma returns_values {a : SqlValue} (ha : ∀ x, a ≠ .blob x) (address : UInt64) (b : SqlValue)
    (r : Option Bool) :
    Calls.Returns (EqualsCall.next address) (.values a b) r ↔ r = a.equals b := by
  have hnext : EqualsCall.next address (EqualsCall.valueEquality b a) = .inr (a.equals b) := by
    cases a with
    | blob x => exact absurd rfl (ha x)
    | null | number | string | wstring | time => rfl
  rw [EqualsCall.returns_values_iff, Calls.returns_of_result hnext]

lemma asSqlBlob_eq_none_iff (address : UInt64) (b : SqlValue) :
    b.asSqlBlob address = none ↔ (∃ n, b = .number n) ∨ ∃ t, b = .time t := by
  cases b <;> simp [asSqlBlob]

end SqlValue

/-! ### The conversions that a comparison makes -/

/-- The conversion to an integral type is defined: a floating point number is in the range of the
type without its fraction. -/
def SqlNumber.Fits (k : IntKind) : SqlNumber → Prop
  | .null | .integral _ _ => True
  | .floating _ x => k = .bool ∨ ∃ i, x.trunc = some i ∧ k.min ≤ i ∧ i ≤ k.max

lemma SqlNumber.isSome_asIntegral_iff {k : IntKind} {n : SqlNumber} :
    (n.asIntegral k).isSome = true ↔ n.Fits k := by
  cases n with
  | null => exact iff_of_true rfl trivial
  | integral k' v => exact iff_of_true rfl trivial
  | floating k' x =>
    rw [asIntegral, Fits]
    by_cases hk : k = .bool
    · simp [hk]
    · rw [if_neg hk, or_iff_right hk]
      cases htrunc : x.trunc with
      | none => simp
      | some i =>
        by_cases hrange : k.min ≤ i ∧ i ≤ k.max
        · simp [IntKind.check, hrange]
        · simp [IntKind.check, hrange]

/-- A number is compared with one that was converted to its type. -/
lemma SqlNumber.isSome_equals_iff {m n : SqlNumber} :
    (m.equals n).isSome = true ↔ ∀ k v, m = .integral k v → n.Fits k := by
  cases m with
  | null => simp [equals]
  | floating k x => simp [equals]
  | integral k v =>
    rw [equals, Option.isSome_map, isSome_asIntegral_iff]
    refine ⟨fun h k' v' heq => ?_, fun h => h k v rfl⟩
    cases heq
    exact h

lemma SqlTime.isSome_text_iff {t : SqlTime} : t.text.isSome = true ↔ t.HasYear := by
  rw [text]
  split
  · next h => exact iff_of_true rfl h
  · next h => exact iff_of_false nofun h

namespace SqlValue

/-- The conversion of the right value is defined, and a blob is on the left only where the right
value has no conversion to one. -/
def Comparable : SqlValue → SqlValue → Prop
  | .number n, b => ∀ k v, b.asSqlNumber = some (.integral k v) → n.Fits k
  | .string _, .time t | .wstring _, .time t => t.HasYear
  | .time _, .number n => n.Fits .long
  | .time _, .wstring w => ∀ n, SqlNumber.parse w = some n → n.Fits .long
  | .blob _, b => (∃ n, b = .number n) ∨ ∃ t, b = .time t
  | _, _ => True

/-- A comparison of other values than blobs has a result if the conversion is defined. -/
lemma isSome_equals_iff {a : SqlValue} (ha : ∀ x, a ≠ .blob x) (b : SqlValue) :
    (a.equals b).isSome = true ↔ a.Comparable b := by
  cases a with
  | blob x => exact absurd rfl (ha x)
  | null => exact iff_of_true rfl (by cases b <;> exact trivial)
  | number n =>
    have hequals : SqlValue.equals (.number n) b =
        b.asSqlNumber.elim (some false) fun m => m.equals n := rfl
    have hcomparable : Comparable (.number n) b ↔
        ∀ k v, b.asSqlNumber = some (.integral k v) → n.Fits k := by
      cases b <;> exact Iff.rfl
    rw [hequals, hcomparable]
    cases b.asSqlNumber with
    | none => simp
    | some m => simpa using SqlNumber.isSome_equals_iff
  | string s =>
    have hequals : SqlValue.equals (.string s) b = b.asSqlString.map fun t => decide (t = s) := rfl
    rw [hequals, Option.isSome_map]
    cases b with
    | time t => exact SqlTime.isSome_text_iff
    | null | number | string | wstring | blob => exact iff_of_true rfl trivial
  | wstring w =>
    have hequals : SqlValue.equals (.wstring w) b =
        b.asSqlWstring.map fun v => decide (v = Helper.wide w) := rfl
    rw [hequals, Option.isSome_map]
    cases b with
    | time t =>
      rw [asSqlWstring, Option.isSome_map]
      exact SqlTime.isSome_text_iff
    | null | number | string | wstring | blob => exact iff_of_true rfl trivial
  | time t =>
    have hequals : SqlValue.equals (.time t) b =
        b.asSqlTime.map fun r => r.elim false fun u => u.equals t := rfl
    rw [hequals, Option.isSome_map]
    cases b with
    | number n =>
      rw [asSqlTime, timeOf, Option.isSome_map, Option.isSome_map]
      exact SqlNumber.isSome_asIntegral_iff
    | wstring w =>
      rw [asSqlTime, Comparable]
      cases SqlNumber.parse w with
      | none => simp
      | some n =>
        simp only [Option.map_some, Option.elim_some, timeOf, Option.isSome_map,
          SqlNumber.isSome_asIntegral_iff, Option.some.injEq, forall_eq']
    | null | string | time | blob => exact iff_of_true rfl trivial

/-- `a == b` returns, and where both are blobs it tells whether the bytes are the same. -/
def Compared (address : UInt64) (a b : SqlValue) : Prop :=
  ∃ r, Calls.Returns (EqualsCall.next address) (.values a b) (some r) ∧
    ∀ x y, a = .blob x → b = .blob y → r = decide (x.bytes = y.bytes)

/-- A comparison comes to an end exactly if the conversion of the right value is defined, where the
left one is no blob, and the right value is a number or a time, which do not convert to a blob,
where it is one. -/
theorem compared_iff (address : UInt64) (a b : SqlValue) :
    Compared address a b ↔ a.Comparable b := by
  cases a with
  | blob x =>
    have hreturns : ∀ r, Calls.Returns (EqualsCall.next address) (.values (.blob x) b) r ↔
        b.asSqlBlob address = none ∧ r = some false := by
      intro r
      rw [EqualsCall.returns_values_iff, EqualsCall.valueEquality, EqualsCall.returns_blob]
    have hcomparable : Comparable (.blob x) b ↔ b.asSqlBlob address = none := by
      rw [asSqlBlob_eq_none_iff address b]
      cases b <;> exact Iff.rfl
    rw [Compared, hcomparable]
    constructor
    · rintro ⟨r, hr, -⟩
      exact ((hreturns _).mp hr).1
    · intro hnone
      refine ⟨false, (hreturns _).mpr ⟨hnone, rfl⟩, ?_⟩
      rintro x y - rfl
      cases hnone
  | null | number | string | wstring | time =>
    rw [← isSome_equals_iff (by simp) b, Compared, Option.isSome_iff_exists]
    refine exists_congr fun r => ?_
    rw [returns_values (by simp) address b, eq_comm]
    exact and_iff_left (by simp)

/-- Two empty blobs are compared for ever. -/
theorem not_compared_blobs : ¬∀ address a b, Compared address a b := by
  intro h
  obtain ⟨r, hr, -⟩ := h 0 (.blob ⟨0, []⟩) (.blob ⟨0, []⟩)
  rw [EqualsCall.returns_values_iff] at hr
  exact EqualsCall.not_returns_ofBlobs (.blob _ _) 0 r hr

end SqlValue

end CodaDb
