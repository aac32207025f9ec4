import CodaDb.Bind.Maps
import Mathlib.Order.Interval.Finset.Nat

/-!
# What the drivers send

A statement of MySQL or PostgreSQL keeps its text, and a slot for each number that a value was bound
to, and sends both when it is executed. Nothing ties the values to the text: which executions send
the values that were bound to the text, and only these.
-/

namespace CodaDb

open SlotArray

/-- The calls on a statement. The texts are ones that the server takes. For PostgreSQL `execute`
stands for `query` too, which sends the same; the `query` of MySQL is not among the calls, as it
leaves the execution to the first move of its result. -/
inductive StatementCall where
  | prepare (sql : String)
  | bind (index : Nat) (value : BoundValue)
  | execute
  | reset
  | finish

/-- What comes of an execution: the statement is sent, or refused by the client library, or the
library reads behind the end of the slots. -/
inductive Execution (σ : Type) where
  | sent (text : String) (arguments : List σ)
  | refused
  | outOfBounds

/-- What is known of a statement: its text, the values of the numbers, and the numbers that a value
was bound to since the text. -/
structure Prepared where
  sql : Option String := none
  values : Contents BoundValue := {}
  since : Nat → Bool := fun _ => false

namespace Prepared

/-- The values that were bound since the text. -/
def bound (p : Prepared) (index : Nat) : Option BoundValue :=
  if p.since index then p.values.value index else none

/-- The calls; `none` where the behaviour is not defined. A driver may keep the values when the
statement is finished. -/
def step {σ : Type} (encode : BoundValue → Encoded σ) (keeps : Bool) (p : Prepared) :
    StatementCall → Option Prepared
  | .prepare sql => some { p with sql := some sql, since := fun _ => false }
  | .bind index value => (p.values.bind encode index value).map fun values =>
      { p with values := values, since := Function.update p.since index true }
  | .execute | .reset => some p
  | .finish => some (if keeps then { p with sql := none, since := fun _ => false } else {})

/-- The values of the numbers are those of the numbers from 1 to some number. -/
def Contiguous (p : Prepared) : Prop :=
  ∃ n, ∀ i, (p.values.value i).isSome = true ↔ 1 ≤ i ∧ i ≤ n

/-- No value is left from before the text. -/
def Fresh (p : Prepared) : Prop := ∀ i, (p.values.value i).isSome = true → p.since i = true

lemma bound_eq_of_isSome {p : Prepared} {i : Nat} (h : (p.bound i).isSome = true) :
    p.bound i = p.values.value i := by
  rw [bound] at h ⊢
  split
  · rfl
  · next hsince =>
    rw [if_neg hsince] at h
    cases h

lemma Fresh.bound_eq {p : Prepared} (h : p.Fresh) (i : Nat) : p.bound i = p.values.value i := by
  rw [bound]
  split
  · rfl
  · next hsince =>
    cases hv : p.values.value i with
    | none => rfl
    | some v => exact absurd (h i (by rw [hv]; rfl)) hsince

end Prepared

/-- An execution sends the text with the values that were bound to it, each in its place. -/
def Execution.Sends {σ : Type} (zero : σ) (encode : BoundValue → Encoded σ) (e : Execution σ)
    (p : Prepared) : Prop :=
  ∃ text arguments, e = .sent text arguments ∧ p.sql = some text ∧
    ∀ i, arguments[i]? = (p.bound (i + 1)).map fun v => slotOf zero encode (some v)

/-- A kind of statement. -/
structure StatementKind (τ σ : Type) where
  step : τ → StatementCall → Option τ
  execute : τ → Execution σ

/-- The statement, with what is known of it, until a call is not defined. Each execution is emitted
with what was known. -/
def StatementKind.machine {τ σ : Type} (kind : StatementKind τ σ)
    (encode : BoundValue → Encoded σ) (keeps : Bool) :
    Machine (Option (τ × Prepared)) StatementCall (Execution σ × Prepared) where
  step s call :=
    (s.bind fun r => (kind.step r.1 call).bind fun next =>
        (r.2.step encode keeps call).map fun known => (next, known),
      match s, call with
      | some r, .execute => [(kind.execute r.1, r.2)]
      | _, _ => [])

/-- The statement is in step with what is known of it. -/
def Tracks {τ : Type} (R : τ → Prepared → Prop) (s : Option (τ × Prepared)) : Prop :=
  ∀ r ∈ s, R r.1 r.2

namespace StatementKind

variable {τ σ : Type} {kind : StatementKind τ σ} {encode : BoundValue → Encoded σ} {keeps : Bool}
  {R : τ → Prepared → Prop}

lemma tracks_step
    (hstep : ∀ s p call, R s p → Option.Rel R (kind.step s call) (p.step encode keeps call))
    (s : Option (τ × Prepared)) (call : StatementCall) (hs : Tracks R s) :
    Tracks R ((kind.machine encode keeps).step s call).1 := by
  intro r hr
  obtain ⟨⟨t, p⟩, rfl, hboth⟩ := Option.bind_eq_some_iff.mp hr
  obtain ⟨next, hnext, hmap⟩ := Option.bind_eq_some_iff.mp hboth
  obtain ⟨known, hknown, rfl⟩ := Option.map_eq_some_iff.mp hmap
  have hrel := hstep t p call (hs _ rfl)
  simp only at hnext hknown
  rw [hnext, hknown] at hrel
  cases hrel with
  | some h => exact h

/-- What holds of the executions of statements that are in step holds of those of every run. -/
theorem executions
    (hstep : ∀ s p call, R s p → Option.Rel R (kind.step s call) (p.step encode keeps call))
    {P : Execution σ × Prepared → Prop} (hout : ∀ s p, R s p → P (kind.execute s, p)) {s : τ}
    {p : Prepared} (hs : R s p) (calls : List StatementCall) :
    ∀ e ∈ ((kind.machine encode keeps).run (some (s, p)) calls).2, P e := by
  refine Machine.run_outputs _ (Tracks R) P (tracks_step hstep) ?_ (s := some (s, p)) ?_ calls
  · intro s call hs e he
    cases s with
    | none => cases he
    | some r =>
      cases call with
      | execute =>
        obtain rfl := List.mem_singleton.mp he
        exact hout r.1 r.2 (hs r rfl)
      | _ => cases he
  · intro r hr
    cases hr
    exact hs

end StatementKind

lemma Option.Rel.map {α β α' β' : Type*} {R : α → β → Prop} {S : α' → β' → Prop} {f : α → α'}
    {g : β → β'} (h : ∀ a b, R a b → S (f a) (g b)) {a : Option α} {b : Option β}
    (hab : Option.Rel R a b) : Option.Rel S (a.map f) (b.map g) := by
  cases hab with
  | none => exact .none
  | some hab => exact .some (h _ _ hab)

lemma length_of_mem_iff {indexes : List Nat} (hnodup : indexes.Nodup) {n : Nat}
    (hmem : ∀ i, i ∈ indexes ↔ 1 ≤ i ∧ i ≤ n) : indexes.length = n := by
  have heq : indexes.toFinset = Finset.Icc 1 n := by
    ext i
    rw [List.mem_toFinset, Finset.mem_Icc, hmem]
  rw [← List.toFinset_card_of_nodup hnodup, heq, Nat.card_Icc, Nat.add_sub_cancel]

/-- As many numbers as there are, if they contain all these, are no others. -/
lemma le_length_of_mem {indexes : List Nat} (hnodup : indexes.Nodup)
    (hsub : ∀ i, 1 ≤ i → i ≤ indexes.length → i ∈ indexes) {i : Nat} (hi : i ∈ indexes) :
    1 ≤ i ∧ i ≤ indexes.length := by
  have hsubset : Finset.Icc 1 indexes.length ⊆ indexes.toFinset := by
    intro j hj
    obtain ⟨hle, hge⟩ := Finset.mem_Icc.mp hj
    exact List.mem_toFinset.mpr (hsub j hle hge)
  have heq := Finset.eq_of_subset_of_card_le hsubset (by
    rw [List.toFinset_card_of_nodup hnodup, Nat.card_Icc, Nat.add_sub_cancel])
  rwa [← List.mem_toFinset, ← heq, Finset.mem_Icc] at hi

/-! ### PostgreSQL -/

namespace Postgres

/-- A `postgres::statement`. It has no prepared statement of the library. -/
structure DriverStatement where
  sql_ : String := ""
  bindings_ : Store := .construct 10

namespace DriverStatement

/-- The calls on a statement of an open session, in the build without `ENABLE_PARAMETER_MAPPING`,
where `prepare` keeps the text as it is. `finish` clears the text alone. -/
def step (locale : Locale) (s : DriverStatement) : StatementCall → Option DriverStatement
  | .prepare sql => some { s with sql_ := sql }
  | .bind index value =>
    (s.bindings_.bind locale index value).map fun b => { s with bindings_ := b }
  | .execute | .reset => some s
  | .finish => some { s with sql_ := "" }

/-- The arguments of `PQexecParams`, which `execute` does not check the statement for. -/
def execute (s : DriverStatement) : Execution Slot :=
  .sent s.sql_ (s.bindings_.slots.take s.bindings_.numOfBindings)

def kind (locale : Locale) : StatementKind DriverStatement Slot := ⟨step locale, execute⟩

/-- The slots hold the values, and the text is the one that is known. -/
def InStep (locale : Locale) (s : DriverStatement) (p : Prepared) : Prop :=
  s.bindings_.Holds locale p.values ∧ s.sql_ = p.sql.getD ""

lemma inStep_step (locale : Locale) (s : DriverStatement) (p : Prepared) (call : StatementCall)
    (h : InStep locale s p) : Option.Rel (InStep locale) (s.step locale call)
      (p.step (Slot.encode locale) true call) := by
  cases call with
  | prepare sql => exact .some ⟨h.1, rfl⟩
  | bind index value =>
    exact Option.Rel.map (fun b c hbc => ⟨hbc, h.2⟩)
      ((Store.refines locale).bind s.bindings_ p.values index value h.1)
  | execute => exact .some h
  | reset => exact .some h
  | finish => exact .some ⟨h.1, rfl⟩

lemma getElem?_arguments (s : DriverStatement) (i : Nat) :
    (s.bindings_.slots.take s.bindings_.numOfBindings)[i]? =
      if i < s.bindings_.numOfBindings then some (s.bindings_.slot i) else none := by
  have hle : s.bindings_.numOfBindings ≤ s.bindings_.size_ := by
    rw [Store.numOfBindings_eq, ← Store.length_slots]
    exact List.countP_le_length
  rw [List.getElem?_take, Store.getElem?_slots]
  split
  · next hi => rw [if_pos (Nat.lt_of_lt_of_le hi hle)]
  · rfl

lemma sends_iff {locale : Locale} {s : DriverStatement} {p : Prepared} (h : InStep locale s p) :
    s.execute.Sends .cleared (Slot.encode locale) p ↔
      p.sql.isSome = true ∧ p.Fresh ∧ p.Contiguous := by
  obtain ⟨indexes, hnodup, hmem, hcount⟩ := h.1.isMap.count
  constructor
  · rintro ⟨text, arguments, heq, hsql, harguments⟩
    cases heq
    have hdom : ∀ i, (p.bound (i + 1)).isSome = true ↔ i < indexes.length := by
      intro i
      have hsome := congrArg Option.isSome (harguments i)
      rw [getElem?_arguments, Option.isSome_map] at hsome
      rw [← hsome, ← hcount]
      split <;> simp_all
    have hbound : ∀ i, 1 ≤ i → i ≤ indexes.length → (p.bound i).isSome = true := by
      intro i hone hle
      have hi := (hdom (i - 1)).mpr (by omega)
      rwa [Nat.sub_add_cancel hone] at hi
    have hsub : ∀ i, 1 ≤ i → i ≤ indexes.length → i ∈ indexes := by
      intro i hone hle
      have hi := hbound i hone hle
      exact (hmem i).mpr (Prepared.bound_eq_of_isSome hi ▸ hi)
    refine ⟨by rw [hsql]; rfl, fun i hi => ?_, indexes.length, fun i => ?_⟩
    · obtain ⟨hone, hle⟩ := le_length_of_mem hnodup hsub ((hmem i).mpr hi)
      have hbound := hbound i hone hle
      rw [Prepared.bound] at hbound
      by_contra hsince
      rw [if_neg hsince] at hbound
      cases hbound
    · rw [← hmem]
      exact ⟨le_length_of_mem hnodup hsub, fun hi => hsub i hi.1 hi.2⟩
  · rintro ⟨hsql, hfresh, n, hn⟩
    obtain ⟨text, htext⟩ := Option.isSome_iff_exists.mp hsql
    have hlength := length_of_mem_iff hnodup fun i => (hmem i).trans (hn i)
    refine ⟨text, _, by rw [execute, h.2, htext]; rfl, htext, fun i => ?_⟩
    rw [getElem?_arguments, hcount, hlength, hfresh.bound_eq, h.1.slot_eq]
    split
    · next hi =>
      obtain ⟨v, hv⟩ := Option.isSome_iff_exists.mp ((hn (i + 1)).mpr ⟨by omega, by omega⟩)
      rw [hv, Option.map_some]
    · next hi =>
      have hnone : ¬(p.values.value (i + 1)).isSome = true := fun hsome =>
        hi (by have := ((hn (i + 1)).mp hsome).2; omega)
      rw [Option.not_isSome_iff_eq_none.mp hnone]
      rfl

end DriverStatement

/-- In every run an execution sends the values that were bound to its text exactly if there is a
text, none of the values is from before it, and their numbers are those from 1 on. -/
theorem executions_send_iff (locale : Locale) (calls : List StatementCall) :
    ∀ e ∈ (((DriverStatement.kind locale).machine (Slot.encode locale) true).run
        (some ({}, {})) calls).2,
      e.1.Sends .cleared (Slot.encode locale) e.2 ↔
        e.2.sql.isSome = true ∧ e.2.Fresh ∧ e.2.Contiguous :=
  StatementKind.executions (R := DriverStatement.InStep locale)
    (DriverStatement.inStep_step locale) (fun _ _ h => DriverStatement.sends_iff h)
    ⟨(Store.refines locale).construct 10, rfl⟩ calls

/-- The second of two values is not sent without a value between them. -/
def skipping : List StatementCall :=
  [.prepare "UPDATE users SET email = $3 WHERE id = $1", .bind 1 (.value .null),
    .bind 3 (.value .null), .execute]

theorem not_executions_send_skipping :
    (((DriverStatement.kind .posix).machine (Slot.encode .posix) true).run
        (some ({}, {})) skipping).2.length = 1 ∧
      ∀ e ∈ (((DriverStatement.kind .posix).machine (Slot.encode .posix) true).run
        (some ({}, {})) skipping).2, ¬e.1.Sends .cleared (Slot.encode .posix) e.2 := by
  refine ⟨rfl, fun e he => ?_⟩
  rw [executions_send_iff .posix skipping e he]
  rintro ⟨-, -, n, hn⟩
  obtain rfl := List.mem_singleton.mp he
  have hthree := ((hn 3).mp rfl).2
  exact absurd ((hn 2).mpr ⟨by omega, by omega⟩) (by decide)

end Postgres

/-! ### MySQL -/

namespace Mysql

/-- A `mysql::statement`, with the text of its `MYSQL_STMT`. -/
structure DriverStatement where
  stmt_ : Option String := none
  bindings_ : Store := .construct 10

namespace DriverStatement

/-- The calls on a statement of an open session, in the build without `ENABLE_PARAMETER_MAPPING`.
`prepare` keeps the text as it is, and the slots. -/
def step (s : DriverStatement) : StatementCall → Option DriverStatement
  | .prepare sql => some { s with stmt_ := some sql }
  | .bind index value => (s.bindings_.bind index value).map fun b => { s with bindings_ := b }
  | .execute | .reset => some s
  | .finish => some ⟨none, s.bindings_.reset⟩

/-- `bind_params` and `mysql_stmt_execute`. The library takes a slot for each of the parameters that
the server has counted in the text, and refuses a text with parameters if it was given no slots. -/
def execute (count : String → Nat) (s : DriverStatement) : Execution Bind :=
  match s.stmt_ with
  | none => .refused
  | some text =>
    if s.bindings_.capacity = 0 then if count text = 0 then .sent text [] else .refused
    else if s.bindings_.capacity < count text then .outOfBounds
    else .sent text (s.bindings_.value_.take (count text))

def kind (count : String → Nat) : StatementKind DriverStatement Bind := ⟨step, execute count⟩

/-- The slots hold the values, and the text is the one that is known. -/
def InStep (s : DriverStatement) (p : Prepared) : Prop :=
  (s.bindings_.Holds p.values ∧ s.bindings_.Unmapped) ∧ s.stmt_ = p.sql

lemma inStep_step (s : DriverStatement) (p : Prepared) (call : StatementCall) (h : InStep s p) :
    Option.Rel InStep (s.step call) (p.step Bind.encode false call) := by
  cases call with
  | prepare sql => exact .some ⟨h.1, rfl⟩
  | bind index value =>
    exact Option.Rel.map (fun b c hbc => ⟨hbc, h.2⟩)
      (Store.refines.bind s.bindings_ p.values index value h.1)
  | execute => exact .some h
  | reset => exact .some h
  | finish => exact .some ⟨Store.refines.reset s.bindings_ p.values h.1, rfl⟩

lemma execute_of_sent {count : String → Nat} {s : DriverStatement} {text : String}
    {arguments : List Bind} (h : s.execute count = .sent text arguments) :
    s.stmt_ = some text ∧ count text ≤ s.bindings_.capacity ∧
      arguments = s.bindings_.value_.take (count text) := by
  rw [execute] at h
  cases hstmt : s.stmt_ with
  | none =>
    rw [hstmt] at h
    cases h
  | some sql =>
    simp only [hstmt] at h
    split at h
    · next hnone =>
      split at h
      · next hcount =>
        cases h
        exact ⟨rfl, by omega, by rw [hcount, List.take_zero]⟩
      · cases h
    · split at h
      · cases h
      · next hle =>
        cases h
        exact ⟨rfl, Nat.le_of_not_lt hle, rfl⟩

lemma execute_eq {count : String → Nat} {s : DriverStatement} {text : String}
    (hstmt : s.stmt_ = some text) (hle : count text ≤ s.bindings_.capacity) :
    s.execute count = .sent text (s.bindings_.value_.take (count text)) := by
  rw [execute, hstmt]
  simp only
  split
  · next hnone =>
    have hcount : count text = 0 := by omega
    rw [if_pos hcount, hcount, List.take_zero]
  · rw [if_neg (Nat.not_lt.mpr hle)]

lemma getElem?_arguments {s : DriverStatement} {n : Nat} (hle : n ≤ s.bindings_.capacity)
    (i : Nat) : (s.bindings_.value_.take n)[i]? =
      if i < n then some (s.bindings_.value_.getD i .cleared) else none := by
  rw [List.getElem?_take]
  split
  · next hi =>
    have hlt : i < s.bindings_.value_.length := Nat.lt_of_lt_of_le hi hle
    rw [List.getElem?_eq_getElem hlt, List.getD_eq_getElem _ _ hlt]
  · rfl

lemma sends_iff {count : String → Nat} {s : DriverStatement} {p : Prepared} (h : InStep s p) :
    (s.execute count).Sends .cleared Bind.encode p ↔
      ∃ text, p.sql = some text ∧
        ∀ i, (p.bound i).isSome = true ↔ 1 ≤ i ∧ i ≤ count text := by
  constructor
  · rintro ⟨text, arguments, heq, hsql, harguments⟩
    obtain ⟨-, hle, rfl⟩ := execute_of_sent heq
    refine ⟨text, hsql, fun i => ?_⟩
    cases i with
    | zero =>
      refine iff_of_false (fun hsome => ?_) (by omega)
      obtain ⟨v, hv⟩ := Option.isSome_iff_exists.mp
        (Prepared.bound_eq_of_isSome hsome ▸ hsome : (p.values.value 0).isSome = true)
      exact (h.1.1.used 0 v hv).1 rfl
    | succ i =>
      have hsome := congrArg Option.isSome (harguments i)
      rw [getElem?_arguments hle, Option.isSome_map] at hsome
      rw [← hsome]
      split
      · exact iff_of_true rfl ⟨by omega, by omega⟩
      · exact iff_of_false nofun (by omega)
  · rintro ⟨text, hsql, hbound⟩
    have hle : count text ≤ s.bindings_.capacity := by
      rcases Nat.eq_zero_or_pos (count text) with hzero | hpos
      · omega
      · have hsome := (hbound (count text)).mpr ⟨hpos, le_rfl⟩
        obtain ⟨v, hv⟩ := Option.isSome_iff_exists.mp
          (Prepared.bound_eq_of_isSome hsome ▸ hsome :
            (p.values.value (count text)).isSome = true)
        exact h.1.1.isMap.capacity _ v hv
    refine ⟨text, _, execute_eq (h.2.trans hsql) hle, hsql, fun i => ?_⟩
    rw [getElem?_arguments hle, h.1.1.isMap.slot]
    split
    · next hi =>
      have hsome := (hbound (i + 1)).mpr ⟨by omega, by omega⟩
      rw [← Prepared.bound_eq_of_isSome hsome]
      obtain ⟨v, hv⟩ := Option.isSome_iff_exists.mp hsome
      rw [hv, Option.map_some]
    · next hi =>
      have hnone : ¬(p.bound (i + 1)).isSome = true := fun hsome =>
        hi (by have := ((hbound (i + 1)).mp hsome).2; omega)
      rw [Option.not_isSome_iff_eq_none.mp hnone]
      rfl

end DriverStatement

/-- In every run an `execute` sends the values that were bound to its text exactly if there is a
text, and their numbers are those of its parameters. -/
theorem executions_sends_iff (count : String → Nat) (calls : List StatementCall) :
    ∀ e ∈ (((DriverStatement.kind count).machine Bind.encode false).run
        (some ({}, {})) calls).2,
      e.1.Sends .cleared Bind.encode e.2 ↔
        ∃ text, e.2.sql = some text ∧
          ∀ i, (e.2.bound i).isSome = true ↔ 1 ≤ i ∧ i ≤ count text :=
  StatementKind.executions (R := DriverStatement.InStep) DriverStatement.inStep_step
    (fun _ _ h => DriverStatement.sends_iff h) ⟨Store.refines.construct 10, rfl⟩ calls

/-- The second text is prepared on a statement that has a value for the first. -/
def preparedAgain : List StatementCall :=
  [.prepare "DELETE FROM users WHERE id = ?", .bind 1 (.value .null),
    .prepare "DELETE FROM users WHERE parent_id = ?", .execute]

/-- The value of the first text is sent with the second. -/
theorem not_executions_sends_again :
    (((DriverStatement.kind fun sql => sql.toList.count '?').machine Bind.encode false).run
        (some ({}, {})) preparedAgain).2.length = 1 ∧
      ∀ e ∈ (((DriverStatement.kind fun sql => sql.toList.count '?').machine Bind.encode
        false).run (some ({}, {})) preparedAgain).2, ¬e.1.Sends .cleared Bind.encode e.2 := by
  refine ⟨rfl, fun e he => ?_⟩
  rw [executions_sends_iff _ preparedAgain e he]
  rintro ⟨text, htext, hbound⟩
  obtain rfl := List.mem_singleton.mp he
  cases htext
  exact absurd ((hbound 1).mpr ⟨le_rfl, by decide⟩) (by decide)

end Mysql

end CodaDb
