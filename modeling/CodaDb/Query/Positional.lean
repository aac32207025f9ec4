import CodaDb.Query.Binder

/-!
# Numbered and positional placeholders

MySQL gives the parameters to the question marks in their order, the other back ends by the number
in the placeholder. When the calls that set the conditions of a query leave them numbered from left
to right without a gap, so that both readings are the same.
-/

namespace CodaDb

open SqlText

namespace WhereQuery

/-- The placeholders of the conditions are numbered from 1 to the number of parameters, and every
back end reads the parameters in this order. -/
structure InOrder (q : WhereQuery) : Prop where
  numbers : q.where_.toSql.placeholders = List.range' 1 q.base.params_.length
  reads : ∀ (impl : SessionImpl) (i n : Nat), q.where_.toSql.placeholders[i]? = some n →
    q.base.held (impl.slot i n) = q.base.params_[i]?

/-- Placeholders that are numbered in order are read in order. -/
lemma inOrder_iff (q : WhereQuery) :
    q.InOrder ↔ q.where_.toSql.placeholders = List.range' 1 q.base.params_.length := by
  constructor
  · intro h
    exact h.numbers
  · intro hnumbers
    refine ⟨hnumbers, ?_⟩
    intro impl i n hn
    rw [hnumbers] at hn
    obtain ⟨hi, rfl⟩ := List.getElem?_eq_some_iff.mp hn
    cases impl <;> simp [SessionImpl.slot, Query.held, Nat.add_comm 1]

end WhereQuery

/-- A call that sets or adds a condition with one operand. -/
abbrev ConditionCall := Connective × UnnamedOperator

namespace Heap

/-- The object at `c` after a sequence of calls. -/
def setConditions (h : Heap) (c : Addr) (calls : List ConditionCall) : Heap :=
  ((callMachine c).run h (calls.map fun call => (call.1, call.2.1))).1

/-- The conditions of the object at `c` are a conjunction that is numbered in order, as it is when
there is none yet. -/
def Numbered (h : Heap) (c : Addr) : Prop :=
  ∃ ts, (h c).where_.Conjunction ts ∧
    ts.flatMap placeholders = List.range' 1 (h c).base.params_.length

/-- The call at a place of the sequence is `where(op)`, which drops the conditions before it. -/
def ResetsAt (calls : List ConditionCall) (i : Nat) : Prop := ∃ o, calls[i]? = some (.reset, o)

/-- The object binds into itself and the conditions are set anew only as long as there are none; or
no call is made; or the values, which go elsewhere, would have been as many as the parameters. -/
def KeepsOrder (h : Heap) (c : Addr) (calls : List ConditionCall) : Prop :=
  if h.binder c = c then ∀ i, ResetsAt calls i → i = 0 ∧ (h c).base.params_ = []
  else
    calls = [] ∨ (h (h.binder c)).base.params_ = [] ∧
      calls.length = (h c).base.params_.length ∧ ∀ i, ResetsAt calls i ↔ i = 0

/-! ### The numbers -/

lemma resetsAt_zero (how : Connective) (o : UnnamedOperator) (calls : List ConditionCall) :
    ResetsAt ((how, o) :: calls) 0 ↔ how = .reset := by
  simp [ResetsAt]

lemma resetsAt_succ (call : ConditionCall) (calls : List ConditionCall) (i : Nat) :
    ResetsAt (call :: calls) (i + 1) ↔ ResetsAt calls i := by
  simp [ResetsAt]

lemma ResetsAt.lt_length {calls : List ConditionCall} {i : Nat} (hi : ResetsAt calls i) :
    i < calls.length := by
  obtain ⟨o, ho⟩ := hi
  exact (List.getElem?_eq_some_iff.mp ho).1

/-- The numbers of the placeholders after a sequence of calls, from the numbers there were and the
number of parameters of the query the calls bind into. -/
def numbersAfter : List Nat → Nat → List ConditionCall → List Nat
  | numbers, _, [] => numbers
  | _, k, (.reset, _) :: calls => numbersAfter [k + 1] (k + 1) calls
  | numbers, k, (.and, _) :: calls | numbers, k, (.or, _) :: calls =>
    numbersAfter (numbers ++ [k + 1]) (k + 1) calls

/-- Without `where(op)` the new numbers follow the old ones. -/
lemma numbersAfter_of_no_reset (numbers : List Nat) (k : Nat) {calls : List ConditionCall}
    (hcalls : ∀ i, ¬ResetsAt calls i) :
    numbersAfter numbers k calls = numbers ++ List.range' (k + 1) calls.length := by
  induction calls generalizing numbers k with
  | nil => simp [numbersAfter]
  | cons call calls ih =>
    obtain ⟨how, o⟩ := call
    have htail : ∀ i, ¬ResetsAt calls i := fun i => hcalls (i + 1)
    cases how with
    | reset => exact absurd ⟨o, rfl⟩ (hcalls 0)
    | and | or => simp [numbersAfter, ih _ _ htail, List.range'_succ]

/-- The last `where(op)` drops the numbers before it. -/
lemma numbersAfter_of_reset (numbers : List Nat) (k : Nat) {calls : List ConditionCall}
    (hcalls : ∃ i, ResetsAt calls i) :
    ∃ j, ResetsAt calls j ∧ (∀ i, ResetsAt calls i → i ≤ j) ∧
      numbersAfter numbers k calls = List.range' (k + j + 1) (calls.length - j) := by
  induction calls generalizing numbers k with
  | nil => simp [ResetsAt] at hcalls
  | cons call calls ih =>
    obtain ⟨how, o⟩ := call
    by_cases htail : ∃ i, ResetsAt calls i
    · have hstep : ∃ numbers', numbersAfter numbers k ((how, o) :: calls)
          = numbersAfter numbers' (k + 1) calls := by
        cases how <;> exact ⟨_, rfl⟩
      obtain ⟨numbers', hnumbers⟩ := hstep
      obtain ⟨j, hj, hlast, hrange⟩ := ih numbers' (k + 1) htail
      refine ⟨j + 1, (resetsAt_succ ..).mpr hj, ?_, ?_⟩
      · intro i hi
        cases i with
        | zero => exact Nat.zero_le _
        | succ i => exact Nat.succ_le_succ (hlast i ((resetsAt_succ ..).mp hi))
      · have hadd : k + (j + 1) + 1 = k + 1 + j + 1 := by omega
        rw [hnumbers, hrange, hadd, List.length_cons, Nat.add_sub_add_right]
    · -- the first call is the last `where(op)`
      push Not at htail
      obtain ⟨i, hi⟩ := hcalls
      cases i with
      | succ i => exact absurd ((resetsAt_succ ..).mp hi) (htail i)
      | zero =>
        obtain rfl := (resetsAt_zero ..).mp hi
        refine ⟨0, hi, ?_, ?_⟩
        · intro i hi
          cases i with
          | zero => exact Nat.le_refl 0
          | succ i => exact absurd ((resetsAt_succ ..).mp hi) (htail i)
        · simp [numbersAfter, numbersAfter_of_no_reset _ _ htail, List.range'_succ]

/-! ### The conditions -/

variable {h : Heap} {c : Addr} {ts : List SqlText} {calls : List ConditionCall}

lemma append_where (h : Heap) (c : Addr) (how : Connective) (o : SqlOperator) :
    (h.append c how o c).where_.toWhereClause =
      WhereBuilder.extend how (h c).where_.toWhereClause
        ((h c).where_.condition (h (h.binder c)).base o) := by
  rw [append_eq]
  cases how <;> simp

/-- A conjunction stays one; the new condition has the number behind the parameters. -/
lemma append_conjunction (hts : (h c).where_.Conjunction ts) (call : ConditionCall) :
    ∃ ts', (h.append c call.1 call.2.1 c).where_.Conjunction ts' ∧
      ts'.flatMap placeholders =
        numbersAfter (ts.flatMap placeholders) (h (h.binder c)).base.params_.length [call] := by
  obtain ⟨how, o⟩ := call
  have hne := (h c).where_.condition_ne_empty (h (h.binder c)).base o.1
  rw [append_where]
  cases how with
  | reset => exact ⟨_, WhereClause.conjunction_resetText _ hne, by simp [numbersAfter]⟩
  | and | or => exact ⟨_, hts.andText hne, by simp [numbersAfter]⟩

lemma setConditions_conjunction (hts : (h c).where_.Conjunction ts) (calls : List ConditionCall) :
    ∃ ts', (h.setConditions c calls c).where_.Conjunction ts' ∧
      ts'.flatMap placeholders =
        numbersAfter (ts.flatMap placeholders) (h (h.binder c)).base.params_.length calls := by
  induction calls generalizing h ts with
  | nil => exact ⟨ts, hts, rfl⟩
  | cons call calls ih =>
    obtain ⟨ts₁, hts₁, hnumbers₁⟩ := append_conjunction hts call
    obtain ⟨ts₂, hts₂, hnumbers₂⟩ := ih hts₁
    refine ⟨ts₂, hts₂, ?_⟩
    rw [hnumbers₂, hnumbers₁, append_binder, append_params, if_pos rfl, List.length_append,
      SqlOperator.boundValues_eq]
    obtain ⟨how, o⟩ := call
    cases how <;> rfl

lemma valuesOf_unnamed (calls : List ConditionCall) :
    valuesOf (calls.map fun call => (call.1, call.2.1)) =
      calls.map fun call => call.2.operand := by
  rw [valuesOf, List.flatMap_map, List.map_eq_flatMap]
  simp only [SqlOperator.boundValues_eq]

/-- Each call binds one value. -/
lemma setConditions_params (h : Heap) (c : Addr) (calls : List ConditionCall) :
    (h.setConditions c calls c).base.params_.length =
      (h c).base.params_.length + if h.binder c = c then calls.length else 0 := by
  rw [setConditions, run_params, valuesOf_unnamed]
  by_cases hself : h.binder c = c
  · simp [hself]
  · simp [hself, Ne.symm hself]

/-- After a sequence of calls the conditions are read in order exactly if the sequence keeps the
order. -/
theorem setConditions_inOrder_iff (hstart : h.Numbered c) (calls : List ConditionCall) :
    (h.setConditions c calls c).InOrder ↔ h.KeepsOrder c calls := by
  obtain ⟨ts, hts, hnumbers⟩ := hstart
  obtain ⟨ts', hts', hnumbers'⟩ := setConditions_conjunction hts calls
  rw [WhereQuery.inOrder_iff, hts'.toSql_eq, hts'.placeholders, hnumbers', setConditions_params,
    hnumbers, KeepsOrder]
  by_cases hreset : ∃ i, ResetsAt calls i
  · obtain ⟨j, hj, hlast, hrange⟩ := numbersAfter_of_reset
      (List.range' 1 (h c).base.params_.length) (h (h.binder c)).base.params_.length hreset
    have hlt := hj.lt_length
    rw [hrange, List.range'_inj]
    by_cases hself : h.binder c = c
    · simp only [hself, if_true]
      constructor
      · rintro ⟨hlength, hfirst⟩ i hi
        have hle := hlast i hi
        refine ⟨by omega, List.eq_nil_of_length_eq_zero (by omega)⟩
      · intro hall
        obtain ⟨rfl, hparams⟩ := hall j hj
        simp [hparams]
    · simp only [if_neg hself]
      constructor
      · rintro ⟨hlength, hfirst⟩
        have hzero : j = 0 := by omega
        refine .inr ⟨List.eq_nil_of_length_eq_zero (by omega), by omega, ?_⟩
        intro i
        constructor
        · intro hi
          have hle := hlast i hi
          omega
        · rintro rfl
          rwa [hzero] at hj
      · rintro (rfl | ⟨hbinding, hlength, hzero⟩)
        · simp at hlt
        · obtain rfl := (hzero j).mp hj
          simp [hbinding, hlength]
  · push Not at hreset
    rw [numbersAfter_of_no_reset _ _ hreset]
    by_cases hself : h.binder c = c
    · simp only [hself, if_true, Nat.add_comm _ 1, List.range'_append_1]
      exact iff_of_true trivial fun i hi => absurd hi (hreset i)
    · simp only [if_neg hself]
      constructor
      · intro heq
        have hlength := congrArg List.length heq
        simp only [List.length_append, List.length_range'] at hlength
        exact .inl (List.eq_nil_of_length_eq_zero (by omega))
      · rintro (rfl | ⟨-, -, hzero⟩)
        · simp
        · exact absurd ((hzero 0).mpr rfl) (hreset 0)

/-- The theorem at a query that was just constructed. -/
theorem setConditions_inOrder_users :
    (usersAndCopy.setConditions 0
        [(.reset, ⟨Op.equals (.string "name") (.string "bob"), by decide⟩),
          (.or, ⟨Op.equals (.string "name") (.string "alice"), by decide⟩)] 0).InOrder ↔
      usersAndCopy.KeepsOrder 0
        [(.reset, ⟨Op.equals (.string "name") (.string "bob"), by decide⟩),
          (.or, ⟨Op.equals (.string "name") (.string "alice"), by decide⟩)] :=
  setConditions_inOrder_iff (h := usersAndCopy) (c := 0) ⟨[], WhereClause.conjunction_nil, rfl⟩ _

/-- A condition that replaces the first one has the number 2: MySQL gives it the value of the
first. -/
theorem setConditions_not_inOrder_users :
    ¬(usersAndCopy.setConditions 0
      [(.reset, ⟨Op.equals (.string "name") (.string "bob"), by decide⟩),
        (.reset, ⟨Op.equals (.string "name") (.string "alice"), by decide⟩)] 0).InOrder := by
  intro h
  exact absurd h.numbers (by decide)

end Heap

end CodaDb
