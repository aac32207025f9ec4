import Mathlib.Algebra.Ring.Int.Defs
import Mathlib.Algebra.Ring.Nat
import Mathlib.Data.List.Basic
import Mathlib.Tactic.Lemma

/-!
# Integers in memory

The little-endian bytes of an integer in two's complement, and the number read back from some of
the bytes at the start of a memory that is zero behind them.
-/

namespace Bytes

/-- The `n` lowest bytes of an integer. -/
def littleEndian : Nat → Int → List UInt8
  | 0, _ => []
  | n + 1, v => UInt8.ofNat (v % 256).toNat :: littleEndian n (v / 256)

/-- The number with these bytes. -/
def toNat : List UInt8 → Nat
  | [] => 0
  | b :: bs => b.toNat + 256 * toNat bs

/-- The number in the first `n` bytes. -/
def read (n : Nat) (memory : List UInt8) : Nat := toNat (memory.take n)

@[simp] lemma length_littleEndian (n : Nat) (v : Int) : (littleEndian n v).length = n := by
  induction n generalizing v with
  | zero => rfl
  | succ n ih => simp [littleEndian, ih]

lemma toNat_replicate_zero (n : Nat) : toNat (List.replicate n 0) = 0 := by
  induction n with
  | zero => rfl
  | succ n ih => simp [List.replicate_succ, toNat, ih]

/-- A residue is the lowest byte and the residue of what is above it. -/
lemma emod_byte_mul (v : Int) {b : Int} (hb : 0 < b) :
    v % (256 * b) = v % 256 + 256 * (v / 256 % b) := by
  have hlow := Int.emod_nonneg (v / 256) (Int.ne_of_gt hb)
  have hhigh := Int.emod_lt_of_pos (v / 256) hb
  have hv : v % 256 + 256 * (v / 256 % b) + 256 * b * (v / 256 / b) = v := by
    rw [Int.add_assoc, Int.mul_assoc, ← Int.mul_add, Int.emod_add_mul_ediv, Int.emod_add_mul_ediv]
  exact ((Int.ediv_emod_unique (by omega)).mpr ⟨hv, by omega, by omega⟩).2

/-- The bytes of an integer hold its residue. -/
lemma read_littleEndian {k n : Nat} (h : k ≤ n) (v : Int) :
    (read k (littleEndian n v) : Int) = v % 256 ^ k := by
  rw [read]
  induction k generalizing n v with
  | zero =>
    rw [pow_zero, Int.emod_one]
    rfl
  | succ k ih =>
    obtain ⟨n, rfl⟩ := Nat.exists_eq_add_one_of_ne_zero (Nat.ne_of_gt (Nat.lt_of_lt_of_le
      (Nat.succ_pos k) h))
    have hrest := ih (Nat.le_of_succ_le_succ h) (v / 256)
    have hbyte : (v % 256).toNat < 256 := by omega
    simp only [littleEndian, List.take_succ_cons, toNat, UInt8.toNat_ofNat', Nat.mod_eq_of_lt hbyte]
    have hsplit : v % 256 ^ (k + 1) = v % 256 + 256 * (v / 256 % 256 ^ k) := by
      rw [Int.pow_succ, Int.mul_comm (256 ^ k) 256]
      exact emod_byte_mul v (Int.pow_pos (by omega))
    omega

lemma toNat_append (bs cs : List UInt8) :
    toNat (bs ++ cs) = toNat bs + 256 ^ bs.length * toNat cs := by
  induction bs with
  | nil => rw [List.nil_append, toNat, List.length_nil, Nat.pow_zero, Nat.one_mul, Nat.zero_add]
  | cons b bs ih =>
    rw [List.cons_append, toNat, toNat, ih, List.length_cons, Nat.pow_succ]
    simp only [Nat.mul_add, Nat.add_assoc, Nat.mul_comm (256 ^ bs.length) 256, Nat.mul_assoc]

/-- Bytes read beyond the integer are zero. -/
theorem read_memory (k n zeros : Nat) (v : Int) :
    (read k (littleEndian n v ++ List.replicate zeros 0) : Int) = v % 256 ^ min k n := by
  rcases Nat.le_total k n with h | h
  · rw [Nat.min_eq_left h, ← read_littleEndian h, read, read,
      List.take_append_of_le_length (by simpa using h)]
  · have hzeros : (List.replicate zeros (0 : UInt8)).take (k - n)
        = List.replicate (min (k - n) zeros) 0 := List.take_replicate
    rw [Nat.min_eq_right h, ← read_littleEndian (Nat.le_refl n), read, read, List.take_append,
      length_littleEndian, hzeros, List.take_of_length_le (by simpa using h),
      List.take_of_length_le (by simp), toNat_append, toNat_replicate_zero, Nat.mul_zero,
      Nat.add_zero]

end Bytes
