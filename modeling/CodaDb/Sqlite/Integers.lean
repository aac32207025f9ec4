import CodaDb.Sqlite.Binding

/-!
# Integers on SQLite

`data_mapper::from_number` sends the integral types to two functions of the library, one with an
`int` argument and one with a 64 bit argument. Which integers arrive.
-/

namespace CodaDb.Sqlite

/-- A statement with what the library answers to the functions `sqlite3_bind_*` at an index. -/
structure BoundStatement where
  isValid : Bool
  answer : Nat → Cell → Int
  lastError : String

/-- `SQLITE_OK` -/
def sqliteOk : Int := 0

/-- The argument of the function that is called, if there is a call. -/
def passed : SqlValue → Option Cell
  | .number .null => some .null
  | value => fromValue value

/-- What the visitor returns. The code of binding a null number is returned as it is. -/
def BoundStatement.returned (s : BoundStatement) (index : Nat) : SqlValue → Bool
  | .number .null => s.answer index .null ≠ 0
  | value => (fromValue value).any fun c => s.answer index c = sqliteOk

/-- `statement::bind`: an exception, or the argument that the library was called with. -/
def BoundStatement.bind (s : BoundStatement) (index : Nat) (value : SqlValue) :
    Except DbException (Option Cell) :=
  if ¬s.isValid then .error (.binding "statement invalid")
  else if s.returned index value then .ok (passed value)
  else .error (.binding s.lastError)

/-- The integer arrives, or the call throws. -/
def BoundStatement.Exact (s : BoundStatement) (index : Nat) {k : IntKind} (v : CInt k) : Prop :=
  (∃ what, s.bind index (.number (.integral k v)) = .error (.binding what)) ∨
    s.bind index (.number (.integral k v)) = .ok (some (.int64 v.val))

/-- A number that is passed on is exact if the library takes it, and else the call throws. -/
lemma exact_iff_of_fromNumber {k : IntKind} {v : CInt k} {c : Cell}
    (h : fromNumber (.integral k v) = some c) :
    (∀ (s : BoundStatement) (index : Nat), s.Exact index v) ↔ c = .int64 v.val := by
  have hbind : ∀ (s : BoundStatement) (index : Nat), s.bind index (.number (.integral k v)) =
      if ¬s.isValid then .error (.binding "statement invalid")
      else if s.answer index c = sqliteOk then .ok (some c)
      else .error (.binding s.lastError) := by
    intro s index
    simp [BoundStatement.bind, BoundStatement.returned, passed, fromValue, h]
  constructor
  · intro hexact
    obtain ⟨what, hthrow⟩ | hok := hexact ⟨true, fun _ _ => sqliteOk, ""⟩ 1
    · rw [hbind] at hthrow
      cases hthrow
    · rw [hbind] at hok
      simpa using hok
  · intro hc s index
    rw [BoundStatement.Exact, hbind, hc]
    by_cases hvalid : s.isValid = true
    · by_cases hanswer : s.answer index (.int64 v.val) = sqliteOk
      · exact .inr (by simp [hvalid, hanswer])
      · exact .inl ⟨s.lastError, by simp [hvalid, hanswer]⟩
    · exact .inl ⟨"statement invalid", by simp [hvalid]⟩

/-- A conversion to `n + 1` bits with a sign keeps the integers of that many bits. -/
lemma bmod_eq_self_iff (n : Nat) (v : Int) :
    v.bmod (2 ^ (n + 1)) = v ↔ -2 ^ n ≤ v ∧ v < 2 ^ n := by
  have hhalf : ((2 ^ (n + 1) : Nat) : Int) = 2 * 2 ^ n := by
    rw [Nat.pow_succ]
    push_cast
    omega
  have hlower := @Int.le_bmod v (2 ^ (n + 1)) (Nat.pow_pos (by omega))
  have hupper := @Int.bmod_lt v (2 ^ (n + 1)) (Nat.pow_pos (by omega))
  rw [hhalf] at hlower hupper
  refine ⟨fun h => by omega, fun h => Int.bmod_eq_of_le ?_ ?_⟩
  · rw [hhalf]
    omega
  · rw [hhalf]
    omega

lemma bindInt_eq_iff (v : Int) : bindInt v = .int64 v ↔ -2 ^ 31 ≤ v ∧ v < 2 ^ 31 := by
  rw [bindInt, Cell.int64.injEq]
  exact bmod_eq_self_iff 31 v

lemma bindInt64_eq_iff (v : Int) : bindInt64 v = .int64 v ↔ -2 ^ 63 ≤ v ∧ v < 2 ^ 63 := by
  rw [bindInt64, Cell.int64.injEq]
  exact bmod_eq_self_iff 63 v

/-- An integer arrives unless it is a `long`, which goes through the `int` function, beyond the
range of an `int`, or an `unsigned long` beyond that of 64 bits with a sign. -/
theorem exact_iff (k : IntKind) (v : CInt k) :
    (∀ (s : BoundStatement) (index : Nat), s.Exact index v) ↔
      (k = .long → -2 ^ 31 ≤ v.val ∧ v.val < 2 ^ 31) ∧ (k = .ulong → v.val < 2 ^ 63) := by
  have hmem := v.property
  cases k with
  | ullong =>
    -- refused for every value
    refine iff_of_true ?_ ⟨nofun, nofun⟩
    intro s index
    left
    cases hvalid : s.isValid with
    | false => exact ⟨"statement invalid", by simp [BoundStatement.bind, hvalid]⟩
    | true =>
      exact ⟨s.lastError, by
        simp [BoundStatement.bind, BoundStatement.returned, fromValue, fromNumber, hvalid]⟩
  | long =>
    rw [exact_iff_of_fromNumber rfl, bindInt_eq_iff]
    simp
  | ulong =>
    rw [exact_iff_of_fromNumber rfl, bindInt64_eq_iff]
    simp only [reduceCtorEq, false_implies, forall_const, true_and]
    exact and_iff_right (Int.le_trans (by decide) hmem.1)
  | uint | llong =>
    simp only [IntKind.min, IntKind.max] at hmem
    rw [exact_iff_of_fromNumber rfl, bindInt64_eq_iff]
    refine iff_of_true (by omega) ⟨nofun, nofun⟩
  | bool | char | uchar | wchar | short | ushort | int =>
    simp only [IntKind.min, IntKind.max] at hmem
    rw [exact_iff_of_fromNumber rfl, bindInt_eq_iff]
    refine iff_of_true (by omega) ⟨nofun, nofun⟩

/-- The `long` 2147483648 is stored as -2147483648. -/
theorem not_exact_long :
    ¬∀ (k : IntKind) (v : CInt k) (s : BoundStatement) (index : Nat), s.Exact index v := by
  intro h
  have hall := (exact_iff_of_fromNumber rfl).mp (h .long ⟨2 ^ 31, by decide⟩)
  exact absurd hall (by decide)

end CodaDb.Sqlite
