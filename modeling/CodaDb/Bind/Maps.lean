import CodaDb.Mysql.Store
import CodaDb.Postgres.Store

/-!
# Bindings as maps

Through any history of constructions, binds, moves and resets the stores of MySQL and PostgreSQL
hold finite maps from numbers to values.
-/

namespace CodaDb

open SlotArray

/-- Each slot is the encoding of the value of its number, or clear, and there are slots for all the
numbers that have a value. -/
structure Mysql.Store.IsMap (s : Mysql.Store) (c : Contents BoundValue) : Prop where
  slot : ∀ i, s.value_.getD i .cleared = slotOf .cleared Mysql.Bind.encode (c.value (i + 1))
  capacity : ∀ i v, c.value i = some v → i ≤ s.capacity

/-- The same of the four arrays; and the count of the bindings is that of the numbers that have a
value. -/
structure Postgres.Store.IsMap (locale : Postgres.Locale) (s : Postgres.Store)
    (c : Contents BoundValue) : Prop where
  slot : ∀ i, s.slot i = slotOf .cleared (Postgres.Slot.encode locale) (c.value (i + 1))
  capacity : ∀ i v, c.value i = some v → i ≤ s.capacity
  count : ∃ indexes : List Nat, indexes.Nodup ∧
    (∀ i, i ∈ indexes ↔ (c.value i).isSome = true) ∧ s.numOfBindings = indexes.length

lemma Mysql.Store.Holds.isMap {s : Mysql.Store} {c : Contents BoundValue} (h : s.Holds c) :
    s.IsMap c where
  slot := h.slot
  capacity i v hv := Nat.le_trans (h.used i v hv).2.1 h.capacity

lemma Postgres.Store.Holds.isMap {locale : Postgres.Locale} {s : Postgres.Store}
    {c : Contents BoundValue} (h : s.Holds locale c) : s.IsMap locale c where
  slot := h.slot_eq
  capacity i v hv := by
    rw [capacity, ← length_slots]
    exact Nat.le_trans (h.used i v hv).2.1 h.capacity
  count := by
    rw [numOfBindings_eq]
    refine h.countP (by decide) fun v a ha => ?_
    simpa using Postgres.Slot.encode_type ha

/-- In both bindings a wide string throws exactly for a character above all code points. -/
theorem encode_wide_iff (locale : Postgres.Locale) {s : List UInt32}
    (hs : ∃ c ∈ s, ¬c.isValidChar) :
    (Mysql.Bind.encode (.wide s hs) = .exception ↔ ∃ c ∈ s, 0x10FFFF < c) ∧
      (Postgres.Slot.encode locale (.wide s hs) = .exception ↔ ∃ c ∈ s, 0x10FFFF < c) := by
  rw [← Bindable.wideBytes_eq_none_iff, Mysql.Bind.encode, Mysql.Bind.write, Postgres.Slot.encode]
  cases Bindable.wideBytes s <;> simp

lemma Option.Rel.imp {α β : Type*} {R S : α → β → Prop} (h : ∀ a b, R a b → S a b) {a : Option α}
    {b : Option β} (hab : Option.Rel R a b) : Option.Rel S a b := by
  cases hab with
  | none => exact .none
  | some hab => exact .some (h _ _ hab)

/-- After any history the stores of both drivers are finite maps, where a value whose conversion
throws leaves its number without a value; a history that is not defined for the maps is not defined
for the stores either. -/
theorem stores_are_maps (locale : Postgres.Locale) (size : Nat)
    (calls : List (Stores.Call BoundValue)) :
    Option.Rel (Stores.Related Mysql.Store.IsMap) (Stores.history Mysql.Store.ops size calls)
        (Stores.history (Contents.ops Mysql.Bind.encode) size calls) ∧
      Option.Rel (Stores.Related (Postgres.Store.IsMap locale))
        (Stores.history (Postgres.Store.ops locale) size calls)
        (Stores.history (Contents.ops (Postgres.Slot.encode locale)) size calls) := by
  constructor
  · exact Option.Rel.imp (fun _ _ h n => (h n).1.isMap) (Mysql.Store.refines.history size calls)
  · exact Option.Rel.imp (fun _ _ h n => (h n).isMap)
      ((Postgres.Store.refines locale).history size calls)

/-- Maps in which a number keeps its value when the next one throws. -/
def keepingOps {σ : Type} (encode : BoundValue → Encoded σ) :
    Stores.Ops (Contents BoundValue) BoundValue :=
  { Contents.ops encode with
    bind := fun c index v =>
      match encode v with
      | .exception => some c
      | _ => c.bind encode index v }

/-- A number that has a value, and is then bound to a wide string that cannot be converted. -/
def rebindInvalid : List (Stores.Call BoundValue) :=
  [.bind 0 1 (.value (.number (.integral .int ⟨5, by decide⟩))),
    .bind 0 1 (.wide [0x110000] (by decide))]

/-- The slot is cleared before the conversion throws. -/
theorem not_stores_are_maps_keeping :
    ¬∀ size calls, Option.Rel (Stores.Related Mysql.Store.IsMap)
      (Stores.history Mysql.Store.ops size calls)
      (Stores.history (keepingOps Mysql.Bind.encode) size calls) := by
  intro h
  cases h 10 rebindInvalid with
  | some hstores => exact absurd ((hstores 0).slot 0) (by decide)

end CodaDb
