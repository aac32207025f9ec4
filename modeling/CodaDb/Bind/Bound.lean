import CodaDb.Lib.SlotArray
import CodaDb.Sql.Value

/-!
# Values for the slots of a binding

MySQL and PostgreSQL keep the values that are bound to a statement in slots. What can be bound, and
the sizes of the arrays of slots.
-/

namespace CodaDb

/-- What `bind` is called with: a value, or a wide string with a surrogate or a character above all
code points, which the values of the model do not have. -/
inductive BoundValue where
  | value (v : SqlValue)
  | wide (s : List UInt32) (h : ∃ c ∈ s, ¬c.isValidChar)

namespace Bindable

/-- `prealloc_increment` -/
def preallocIncrement : Nat := 5

/-- What `codecvt_utf8` writes for a character: three bytes for a surrogate, too, and an error for
what is above all code points. -/
def charBytes (c : UInt32) : Option (List UInt8) :=
  if h : c.isValidChar then some (String.utf8EncodeChar ⟨c, h⟩)
  else if c ≤ 0x10FFFF then
    let v := c.toNat
    some [UInt8.ofNat (v / 4096 % 16 + 224), UInt8.ofNat (v / 64 % 64 + 128),
      UInt8.ofNat (v % 64 + 128)]
  else none

/-- `wstring_convert::to_bytes`; `none` where it throws. -/
def wideBytes : List UInt32 → Option (List UInt8)
  | [] => some []
  | c :: cs => (charBytes c).bind fun bytes => (wideBytes cs).map (bytes ++ ·)

lemma charBytes_eq_none_iff {c : UInt32} : charBytes c = none ↔ 0x10FFFF < c := by
  rw [charBytes]
  split
  · next h =>
    have hle : ¬0x10FFFF < c := by
      simp only [UInt32.isValidChar, Nat.isValidChar] at h
      rw [UInt32.lt_iff_toNat_lt, show (0x10FFFF : UInt32).toNat = 0x10FFFF from rfl]
      omega
    simpa using hle
  · simp

/-- It throws exactly for a character above all code points. -/
lemma wideBytes_eq_none_iff {s : List UInt32} : wideBytes s = none ↔ ∃ c ∈ s, 0x10FFFF < c := by
  induction s with
  | nil => simp [wideBytes]
  | cons c cs ih =>
    rw [wideBytes, List.exists_mem_cons_iff, ← ih, ← charBytes_eq_none_iff]
    cases charBytes c <;> simp

end Bindable

end CodaDb
