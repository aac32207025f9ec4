import CodaDb.Mysql.Store

/-!
# What MySQL keeps of a value

Which values `to_value` gives back after `bind`, and which texts `mysql_stmt_bind_param` sends
whole.
-/

namespace CodaDb.Mysql

/-! ### Back from the slot -/

/-- The values that a slot is expected to keep: integers, times, strings without a NUL, and blobs
that are not empty. -/
inductive Storable : SqlValue → Prop where
  | integer {k : IntKind} (v : CInt k) : Storable (.number (.integral k v))
  | time (t : SqlTime) : Storable (.time t)
  | string {bytes : List UInt8} (h : 0 ∉ bytes) : Storable (.string (CString.text bytes))
  | blob {b : SqlBlob} (hbytes : b.bytes ≠ []) : Storable (.blob b)

/-- The same integer, the same bytes, or else the same value. -/
def SameValue : SqlValue → SqlValue → Prop
  | .number (.integral _ v), w => IsInteger w v
  | .blob b, w => ∃ address, w = .blob ⟨address, b.bytes⟩
  | v, w => w = v

/-- `bind` and then `to_value` give the value back. -/
def RoundTrips (s : Store) (i : Nat) (address : UInt64) (v : SqlValue) : Prop :=
  ∃ s' w, s.bind (i + 1) (.value v) = some s' ∧ s'.toValue i address = some w ∧ SameValue v w

/-- The year of a time, and the year counted from 1900, are in the range of an `int`. -/
def YearFits (t : SqlTime) : Prop :=
  IntKind.int.min ≤ (gmtime t.value_).year - 1900 ∧ (gmtime t.value_).year ≤ IntKind.int.max

instance (t : SqlTime) : Decidable (YearFits t) := inferInstanceAs (Decidable (_ ∧ _))

/-- For the other times `set_time` is not defined. -/
lemma encode_time {t : SqlTime} (h : ¬YearFits t) :
    Bind.encode (.value (.time t)) = .undefined := by
  have hnone : Bind.cleared.setTime t = none := if_neg h
  rw [Bind.encode, Bind.write, Bind.fromValue, hnone]

variable {s : Store} {i : Nat} {address : UInt64}

/-- A value that has a slot is given back if the slot gives it back. -/
lemma roundTrips_of_slot (hs : Stores.Reached Store.ops s) {v w : SqlValue} {b : Bind}
    (hb : Bind.cleared.fromValue v = some b) (hw : bindingToValue b address = some w)
    (hsame : SameValue v w) : RoundTrips s i address v := by
  have hencode : Bind.encode (.value v) = .slot b := by
    rw [Bind.encode, Bind.write, hb]
  obtain ⟨s', hs', hslot⟩ := Store.exists_bind hs hencode i
  refine ⟨s', w, hs', ?_, hsame⟩
  rw [Store.toValue, hslot]
  exact hw

lemma roundTrips_string (hs : Stores.Reached Store.ops s) {bytes : List UInt8} (h : 0 ∉ bytes) :
    RoundTrips s i address (.string (CString.text bytes)) := by
  refine roundTrips_of_slot hs rfl (Bind.bindingToValue_string rfl
    (Option.some_ne_none true).symm rfl address) ?_
  rw [CString.bytes_text, CString.prefixOf_eq_self h]
  rfl

/-- A blob without data leaves a null pointer. -/
lemma roundTrips_blob (hs : Stores.Reached Store.ops s) {b : SqlBlob} (hbytes : b.bytes ≠ []) :
    RoundTrips s i address (.blob b) ↔ b.address ≠ 0 := by
  constructor
  · rintro ⟨s', w, hbind, hvalue, address', rfl⟩ haddress
    have hcopy : Bind.copyBlob b = none := if_pos (.inr haddress)
    obtain ⟨t, ht, hslot⟩ := @Store.exists_bind s hs (.value (.blob b)) _ rfl i
    obtain rfl := Option.some.inj (hbind.symm.trans ht)
    rw [Store.toValue, hslot] at hvalue
    simp [bindingToValue, hcopy] at hvalue
  · intro haddress
    have hcopy : Bind.copyBlob b = some b.bytes := if_neg (not_or.mpr ⟨hbytes, haddress⟩)
    exact roundTrips_of_slot hs rfl (Bind.bindingToValue_blob rfl
      (Option.some_ne_none true).symm hcopy rfl address) ⟨address, rfl⟩

/-- Every such value is given back, except for the times that `gmtime` has no year for and for the
blobs without data. -/
theorem roundTrips_iff (hs : Stores.Reached Store.ops s) (i : Nat) (address : UInt64)
    {v : SqlValue} (h : Storable v) :
    RoundTrips s i address v ↔
      (∀ t, v = .time t → YearFits t) ∧ ∀ b, v = .blob b → b.address ≠ 0 := by
  cases h with
  | integer v =>
    obtain ⟨w, hw, hval⟩ := Bind.bindingToValue_integer v address
    refine iff_of_true (roundTrips_of_slot hs rfl hw ⟨_, w, rfl, hval⟩) ⟨nofun, nofun⟩
  | string h => exact iff_of_true (roundTrips_string hs h) ⟨nofun, nofun⟩
  | @blob b hbytes =>
    rw [roundTrips_blob hs hbytes]
    exact ⟨fun h => ⟨nofun, fun _ hb => SqlValue.blob.inj hb ▸ h⟩, fun h => h.2 b rfl⟩
  | time t =>
    rw [and_iff_left (by nofun)]
    constructor
    · rintro ⟨s', w, hbind, -, -⟩ u hu
      obtain rfl := SqlValue.time.inj hu
      by_contra hyear
      rw [Store.bind_of_undefined hs (encode_time hyear)] at hbind
      cases hbind
    · intro hyear
      obtain ⟨b, hb⟩ : ∃ b, Bind.cleared.setTime t = some b := ⟨_, if_pos (hyear t rfl)⟩
      exact roundTrips_of_slot hs hb (Bind.bindingToValue_time hb address) rfl

theorem roundTrips_iff_time :
    RoundTrips (Store.construct 10) 0 0 (.time ⟨1457683200, .datetime⟩) ↔
      (∀ t, SqlValue.time ⟨1457683200, .datetime⟩ = .time t → YearFits t) ∧
        ∀ b, SqlValue.time ⟨1457683200, .datetime⟩ = .blob b → b.address ≠ 0 :=
  roundTrips_iff (Stores.reached_construct Store.ops 10) 0 0 (.time ⟨1457683200, .datetime⟩)

/-- The last second of a `time_t` is no year of an `int`, and `set_time` reads a null pointer. -/
theorem not_roundTrips_time :
    ¬∀ (s : Store) (i : Nat) (address : UInt64) (v : SqlValue), Stores.Reached Store.ops s →
      Storable v → RoundTrips s i address v := by
  intro h
  have hreached := Stores.reached_construct Store.ops 10
  obtain ⟨s', w, hbind, -, -⟩ := h _ 0 0 (.time ⟨2 ^ 63 - 1, .timestamp⟩) hreached (.time _)
  rw [Store.bind_of_undefined hreached (encode_time (by decide))] at hbind
  cases hbind

/-! ### To the server -/

/-- A text, of either kind of string. -/
inductive TextValue where
  | string (s : String)
  | wstring (s : List Char)

namespace TextValue

def value : TextValue → SqlValue
  | .string s => .string s
  | .wstring s => .wstring s

/-- The bytes of a string, or the UTF-8 encoding of a wide string. -/
def bytes : TextValue → List UInt8
  | .string s => CString.bytes s
  | .wstring s => Bind.toBytes s

/-- No NUL comes before the last byte, and wide characters have one byte each. -/
def Sendable : TextValue → Prop
  | .string s => 0 ∉ (CString.bytes s).dropLast
  | .wstring s => (∀ c ∈ s, c.toNat < 128) ∧ 0 ∉ (Bind.toBytes s).dropLast

end TextValue

/-- After `bind` both lengths of the slot are the same, the buffer has as many bytes, and they are
the text. -/
def Sent (s : Store) (i : Nat) (t : TextValue) : Prop :=
  ∃ s' b memory length, s.bind (i + 1) (.value t.value) = some s' ∧ s'.value_[i]? = some b ∧
    b.buffer = some memory ∧ b.length = some length ∧ length = b.bufferLength ∧
    length ≤ memory.length ∧ memory.take length = t.bytes

/-- What is sent is the start of the slot's buffer. -/
lemma sent_iff_slot (hs : Stores.Reached Store.ops s) (i : Nat) (t : TextValue) {b : Bind}
    {memory : List UInt8} {length : Nat} (hb : Bind.cleared.fromValue t.value = some b)
    (hmemory : b.buffer = some memory) (hlength : b.length = some length)
    (hsame : length = b.bufferLength) :
    Sent s i t ↔ length ≤ memory.length ∧ memory.take length = t.bytes := by
  have hencode : Bind.encode (.value t.value) = .slot b := by
    rw [Bind.encode, Bind.write, hb]
  obtain ⟨s', hs', hslot⟩ := Store.exists_bind hs hencode i
  constructor
  · rintro ⟨u, c, memory', length', hu, hc, hmemory', hlength', -, hle, htake⟩
    obtain rfl := Option.some.inj (hs'.symm.trans hu)
    obtain rfl := Option.some.inj (hslot.symm.trans hc)
    obtain rfl := Option.some.inj (hmemory.symm.trans hmemory')
    obtain rfl := Option.some.inj (hlength.symm.trans hlength')
    exact ⟨hle, htake⟩
  · rintro ⟨hle, htake⟩
    exact ⟨s', b, memory, length, hs', hslot, hmemory, hlength, hsame, hle, htake⟩

/-- A character has one byte exactly if it is ASCII. -/
lemma one_byte_iff (c : Char) : (String.utf8EncodeChar c).length = 1 ↔ c.toNat < 128 := by
  rw [String.length_utf8EncodeChar, Char.utf8Size_eq_one_iff, UInt32.le_iff_toNat_le,
    Char.toNat_val]
  exact Nat.lt_succ_iff.symm

/-- An encoding has as many bytes as there are characters only if all are ASCII. -/
lemma length_toBytes (w : List Char) :
    w.length ≤ (Bind.toBytes w).length ∧
      ((Bind.toBytes w).length = w.length ↔ ∀ c ∈ w, c.toNat < 128) := by
  induction w with
  | nil => exact ⟨Nat.le_refl _, iff_of_true rfl nofun⟩
  | cons c w ih =>
    obtain ⟨hle, hall⟩ := ih
    have hpos : 0 < (String.utf8EncodeChar c).length := by
      rw [String.length_utf8EncodeChar]
      exact c.utf8Size_pos
    have hcons : (Bind.toBytes (c :: w)).length =
        (String.utf8EncodeChar c).length + (Bind.toBytes w).length := by
      rw [Bind.toBytes, List.flatMap_cons, List.length_append]
      rfl
    rw [List.forall_mem_cons, ← one_byte_iff, ← hall, hcons, List.length_cons]
    omega

/-- A text is sent whole exactly if it has no NUL before its end and, if it is wide, only ASCII
characters, as its length is their number. -/
theorem sent_iff (hs : Stores.Reached Store.ops s) (i : Nat) (t : TextValue) :
    Sent s i t ↔ t.Sendable := by
  cases t with
  | string text =>
    rw [sent_iff_slot hs i _ rfl rfl rfl rfl, TextValue.Sendable, ← CString.take_duplicate_iff,
      CString.length_bytes]
    rfl
  | wstring w =>
    obtain ⟨-, hall⟩ := length_toBytes w
    rw [sent_iff_slot hs i _ rfl rfl rfl rfl, TextValue.Sendable, ← CString.take_duplicate_iff,
      ← hall]
    constructor
    · rintro ⟨hle, htake⟩
      have hlength : (Bind.toBytes w).length = w.length := by
        have htaken := congrArg List.length htake
        rw [List.length_take, Nat.min_eq_left hle] at htaken
        exact htaken.symm
      rw [hlength]
      exact ⟨rfl, hle, htake⟩
    · rintro ⟨hlength, hle, htake⟩
      rw [hlength] at hle htake
      exact ⟨hle, htake⟩

theorem sent_iff_name :
    Sent (Store.construct 10) 0 (.string "name") ↔ (TextValue.string "name").Sendable :=
  sent_iff (Stores.reached_construct Store.ops 10) 0 (.string "name")

/-- Of the wide string `é` only the first of its two bytes is sent. -/
theorem not_sent_wide :
    ¬∀ (s : Store) (i : Nat) (t : TextValue), Stores.Reached Store.ops s → Sent s i t := by
  intro h
  have hreached := Stores.reached_construct Store.ops 10
  have hsent := h _ 0 (.wstring ['é']) hreached
  rw [sent_iff_slot hreached 0 _ rfl rfl rfl rfl] at hsent
  exact absurd hsent (by decide)

end CodaDb.Mysql
