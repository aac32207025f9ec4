import CodaDb.Transaction.Handle

/-!
# Whose transaction a step ends

A transaction belongs to the implementation that began it. Which steps of a program end it for
another one: a handle is destroyed on its own, but whether it is active is asked of the connection,
or of a flag that its copies share and that nothing clears.
-/

namespace CodaDb

namespace Connection

/-- A call of `commit` or `rollback` on a handle of its implementation may end the transaction, and
so may the destructor of the last of these handles. -/
def MayEnd (c : Connection) (t : OpenTransaction) : TransactionStep → Prop
  | .commit h _ | .rollback h _ => c.implOf h = some t.starter
  | .destroy h _ => c.implOf h = some t.starter ∧ ∀ g, g ≠ h → c.implOf g ≠ some t.starter
  | .create _ | .start _ _ | .setSuccessful _ _ | .copy _ _ | .move _ _ | .assign _ _
  | .moveAssign _ _ | .statement _ _ => False

/-- The step leaves the transaction to its handles. -/
def Respects (b : SessionImpl) (c : Connection) (t : OpenTransaction) : TransactionStep → Prop
  | .start h reply => b = .mysql → reply = .refused ∨ c.implOf h = none
  | .commit h reply | .rollback h reply =>
    reply = .refused ∨ c.implOf h = none ∨ c.implOf h = some t.starter
  | .destroy h reply => c.isActive b h = true → reply = .ok →
    c.implOf h = some t.starter ∧ ∀ g, g ≠ h → c.implOf g ≠ some t.starter
  | .statement commits result =>
    (b = .mysql → commits = false) ∧ (result = .rolledBack → b = .postgres)
  | .create _ | .setSuccessful _ _ | .copy _ _ | .move _ _ | .assign _ _ | .moveAssign _ _ => True

end Connection

/-- The transactions that end in the step may end in it. -/
def EndsOwn (b : SessionImpl) (s : Option Connection) (step : TransactionStep) : Prop :=
  ∀ c, s = some c → ∀ e ∈ (c.step b step).2, c.MayEnd e.transaction step

/-- The step leaves the open transaction to its handles. -/
def LeavesOpen (b : SessionImpl) (s : Option Connection) (step : TransactionStep) : Prop :=
  ∀ c t, s = some c → c.current = some t → c.Respects b t step

namespace Connection

variable {b : SessionImpl} {c : Connection} {h : Nat}

/-! ### What a step ends -/

/-- The step sends a command after which no transaction is left. -/
def Ends (b : SessionImpl) (c : Connection) : TransactionStep → Prop
  | .start h reply => b = .mysql ∧ reply ≠ .refused ∧ c.implOf h ≠ none
  | .commit h reply | .rollback h reply => reply ≠ .refused ∧ c.implOf h ≠ none
  | .destroy h reply => c.isActive b h = true ∧ reply = .ok
  | .statement commits result => b = .mysql ∧ commits = true ∨ result = .rolledBack ∧ b ≠ .postgres
  | .create _ | .setSuccessful _ _ | .copy _ _ | .move _ _ | .assign _ _ | .moveAssign _ _ => False

/-- The endings are those of the open transaction if `p`, and none otherwise. -/
def EndedIf (c : Connection) (p : Prop) (endings : List Ending) : Prop :=
  (p → endings.map Ending.transaction = c.current.toList) ∧ (¬p → endings = [])

lemma endedIf_false {endings : List Ending} {p : Prop} (hp : ¬p) (h : endings = []) :
    c.EndedIf p endings :=
  ⟨fun hp' => absurd hp' hp, fun _ => h⟩

lemma endedIf_leave {p : Prop} (hp : p) (committed : OpenTransaction → Bool) :
    c.EndedIf p (c.leave committed).2 := by
  refine ⟨fun _ => ?_, fun h => absurd hp h⟩
  rw [leave]
  cases c.current <;> rfl

lemma endedIf_finish (c : Connection) (commit : Bool) (reply : Reply) :
    c.EndedIf (reply ≠ .refused) (c.finish commit reply).2 := by
  cases reply with
  | ok | lost => exact endedIf_leave nofun _
  | refused => exact endedIf_false (by simp) rfl

lemma endedIf_startImpl (b : SessionImpl) (c : Connection) (impl : Nat) (reply : Reply) :
    c.EndedIf (b = .mysql ∧ reply ≠ .refused) (c.startImpl b impl reply).2 := by
  cases b with
  | sqlite | postgres => cases reply <;> exact endedIf_false (by simp) rfl
  | mysql =>
    cases reply with
    | ok | lost => exact endedIf_leave (by simp) _
    | refused => exact endedIf_false (by simp) rfl

lemma endedIf_answer (b : SessionImpl) (c : Connection) (result : StatementResult) :
    c.EndedIf (result = .rolledBack ∧ b ≠ .postgres) (c.answer b result).2 := by
  cases result with
  | ok changes => exact endedIf_false (by simp) rfl
  | failed => cases b <;> exact endedIf_false (by simp) rfl
  | rolledBack =>
    cases b with
    | sqlite | mysql => exact endedIf_leave (by simp) _
    | postgres => exact endedIf_false (by simp) rfl

/-- What a statement commits is not there any more for its error to roll back. -/
lemma endedIf_runStatement (b : SessionImpl) (c : Connection) (commits : Bool)
    (result : StatementResult) :
    c.EndedIf (b = .mysql ∧ commits = true ∨ result = .rolledBack ∧ b ≠ .postgres)
      (c.runStatement b commits result).2 := by
  rw [runStatement]
  split
  · next hcommits =>
    obtain ⟨rfl, rfl⟩ := hcommits
    have hrest : ((c.leave fun _ => true).1.answer .mysql result).2 = [] := by
      cases result <;> rfl
    simp only [hrest, List.append_nil]
    exact endedIf_leave (by simp) _
  · next hcommits =>
    have hanswer := endedIf_answer b c result
    simpa only [hcommits, false_or] using hanswer

/-- A command through null pointers ends nothing. -/
lemma endedIf_withImpl {p : Prop} {f : Nat → Connection × List Ending}
    (hf : ∀ impl, c.EndedIf p (f impl).2) :
    c.EndedIf (p ∧ c.implOf h ≠ none) (c.withImpl h f).2 := by
  rw [withImpl, withHandle, implOf]
  cases c.handles h with
  | none => exact endedIf_false (by simp) rfl
  | some handle =>
    simp only [Option.bind_some]
    cases handle.impl_ with
    | none => exact endedIf_false (by simp) rfl
    | some impl => simpa using hf impl

lemma withHandle_nil {f : TransactionHandle → Option Connection × List Ending}
    (hf : ∀ handle, (f handle).2 = []) : (c.withHandle h f).2 = [] := by
  rw [withHandle]
  split
  · rfl
  · exact hf _

lemma endedIf_destruct (b : SessionImpl) (c : Connection) (h : Nat) (reply : Reply) :
    c.EndedIf (c.isActive b h = true ∧ reply = .ok) (c.withHandle h (c.destruct b h reply)).2 := by
  rw [withHandle]
  split
  · next hnone => exact endedIf_false (by simp [isActive, implOf, hnone]) rfl
  · next handle _ =>
    by_cases hactive : c.isActive b h = true
    · cases reply with
      | ok =>
        simp only [destruct, if_pos hactive]
        exact endedIf_leave (by simp [hactive]) _
      | refused | lost =>
        simp only [destruct, if_pos hactive]
        exact endedIf_false (by simp) rfl
    · simp only [destruct, if_neg hactive]
      exact endedIf_false (fun h => hactive h.1) rfl

/-- What a step ends is the open transaction, or nothing. -/
theorem endedIf_step (b : SessionImpl) (c : Connection) (step : TransactionStep) :
    c.EndedIf (c.Ends b step) (c.step b step).2 := by
  cases step with
  | start h reply =>
    have hstart := endedIf_withImpl (h := h) fun impl => c.endedIf_startImpl b impl reply
    simpa [Ends, Connection.step, and_assoc] using hstart
  | commit h reply => exact endedIf_withImpl fun _ => c.endedIf_finish true reply
  | rollback h reply => exact endedIf_withImpl fun _ => c.endedIf_finish false reply
  | destroy h reply => exact endedIf_destruct b c h reply
  | statement commits result => exact endedIf_runStatement b c commits result
  | create h | copy other h | move other h =>
    refine endedIf_false id ?_
    rw [Connection.step]
    split
    · rfl
    · first
      | rfl
      | exact withHandle_nil fun _ => rfl
  | setSuccessful h value => exact endedIf_false id (withHandle_nil fun _ => rfl)
  | assign h other | moveAssign h other =>
    exact endedIf_false id (withHandle_nil fun _ => withHandle_nil fun _ => rfl)

/-- A step that ends a transaction may do so exactly if it leaves it to its handles. -/
lemma mayEnd_iff (b : SessionImpl) (c : Connection) (t : OpenTransaction) (step : TransactionStep) :
    (c.Ends b step → c.MayEnd t step) ↔ c.Respects b t step := by
  cases step with
  | start h reply =>
    simp only [Ends, MayEnd, Respects]
    grind
  | commit h reply | rollback h reply =>
    simp only [Ends, MayEnd, Respects]
    grind
  | destroy h reply => simp [Ends, MayEnd, Respects]
  | statement commits result =>
    simp only [Ends, MayEnd, Respects]
    grind
  | create | copy | move | setSuccessful | assign | moveAssign => simp [Ends, Respects]

end Connection

/-- In a run, every transaction is ended by a `commit` or `rollback` on a handle of the
implementation that began it, or by the destructor of the last of these handles, exactly if every
step leaves the open transaction to its handles. -/
theorem endsOwn_iff (b : SessionImpl) (s : Option Connection) (steps : List TransactionStep) :
    (transactionMachine b).Along (EndsOwn b) s steps ↔
      (transactionMachine b).Along (LeavesOpen b) s steps := by
  refine Machine.along_congr fun s step => forall_congr' fun c => ?_
  have hstep := c.endedIf_step b step
  constructor
  · intro h t hs ht
    refine (Connection.mayEnd_iff b c t step).mp fun hends => ?_
    have hendings := hstep.1 hends
    rw [ht] at hendings
    obtain ⟨e, he, rfl⟩ : ∃ e ∈ (c.step b step).2, e.transaction = t := by
      rw [← List.mem_map, hendings]
      exact List.mem_singleton_self t
    exact h hs e he
  · intro h hs e he
    have hends : c.Ends b step := by
      by_contra hnot
      simp [hstep.2 hnot] at he
    have hmem := List.mem_map_of_mem (f := Ending.transaction) he
    rw [hstep.1 hends, Option.mem_toList] at hmem
    exact (Connection.mayEnd_iff b c _ step).mpr (h _ hs hmem) hends

/-- A copy is destroyed, and the transaction of the handle that is left is rolled back. -/
theorem not_endsOwn_copy :
    ¬(transactionMachine .sqlite).Along (EndsOwn .sqlite) (some {})
      [.create 0, .start 0 .ok, .copy 0 1, .destroy 1 .ok] := by
  rintro ⟨-, -, -, hdestroy, -⟩
  have hmay := hdestroy _ rfl ⟨⟨0, false⟩, false⟩ (List.mem_singleton_self _)
  exact hmay.2 0 (by decide) rfl

end CodaDb
