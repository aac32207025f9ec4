import CodaDb.Lib.Machine
import CodaDb.Query.Assign

/-!
# The pointer of a where builder

A where builder binds through a raw pointer. Here the queries live in a heap and the calls go
through the pointers, so that a copy, which has the pointer of its original, can be told from an
object that binds into itself.
-/

namespace CodaDb

open SqlText

/-- The objects at their addresses. The pointers of live objects are taken to lead to live ones. -/
abbrev Heap := Addr → WhereQuery

namespace Heap

/-- The object the where builder of `c` binds into. -/
def binder (h : Heap) (c : Addr) : Addr := (h c).where_.binder_

/-- `where(op)`, `where() && op` and `where() || op` on the object at `c`. -/
def append (h : Heap) (c : Addr) (how : Connective) (o : SqlOperator) : Heap :=
  match (h c).where_.append how (h (h.binder c)).base o with
  | .error _ => h
  | .ok (w, binder) =>
    let h := Function.update h (h.binder c) ((h (h.binder c)).withBase binder)
    let h := Function.update h c ((h c).withWhere w)
    match how with
    | .reset => Function.update h c ((h c).withBase (h c).base.setModified)
    | .and | .or => h

/-- A sequence of calls on the object at `c`. Each reports the placeholder it adds to the SQL and
the value that belongs to it. -/
def callMachine (c : Addr) : Machine Heap (Connective × SqlOperator) (Nat × Option SqlValue) where
  step h call :=
    (h.append c call.1 call.2,
      ((h c).where_.condition (h (h.binder c)).base call.2).placeholders.map
        fun n => (n, call.2.boundValues.head?))

lemma append_eq (h : Heap) (c : Addr) (how : Connective) (o : SqlOperator) :
    h.append c how o =
      let w := (h c).where_
      let clause := WhereBuilder.extend how w.toWhereClause (w.condition (h (h.binder c)).base o)
      let bound := Function.update h (h.binder c)
        ((h (h.binder c)).withBase (WhereBuilder.boundBy (h (h.binder c)).base o))
      let appended :=
        Function.update bound c ((bound c).withWhere { w with toWhereClause := clause })
      match how with
      | .reset => Function.update appended c ((appended c).withBase (appended c).base.setModified)
      | .and | .or => appended := by
  rw [append]
  rw [WhereBuilder.append_eq]

/-- A call changes nothing but the object and the one it binds into. -/
lemma append_of_ne {h : Heap} {c x : Addr} (hc : x ≠ c) (hb : x ≠ h.binder c) (how : Connective)
    (o : SqlOperator) : h.append c how o x = h x := by
  rw [append_eq]
  cases how <;> simp [hc, hb]

/-- A call keeps the pointer. -/
lemma append_binder (h : Heap) (c : Addr) (how : Connective) (o : SqlOperator) :
    (h.append c how o).binder c = h.binder c := by
  rw [append_eq]
  cases how <;> simp [binder]

/-- The values go to the parameters of the object the pointer leads to. -/
lemma append_params (h : Heap) (c x : Addr) (how : Connective) (o : SqlOperator) :
    (h.append c how o x).base.params_ =
      if x = h.binder c then (h x).base.params_ ++ o.boundValues else (h x).base.params_ := by
  have hbound : ∀ x, (Function.update h (h.binder c)
      ((h (h.binder c)).withBase (WhereBuilder.boundBy (h (h.binder c)).base o)) x).base.params_ =
      if x = h.binder c then (h x).base.params_ ++ o.boundValues else (h x).base.params_ := by
    intro x
    by_cases hx : x = h.binder c
    · subst hx
      simp
    · simp [hx]
  rw [append_eq, ← hbound x]
  by_cases hx : x = c
  · subst hx
    cases how <;> simp
  · cases how <;> simp [hx]

/-! ### Sequences of calls -/

/-- What a sequence of calls on an object reports when the query it binds into starts with `n`
parameters. -/
def placed : Nat → List (Connective × SqlOperator) → List (Nat × Option SqlValue)
  | _, [] => []
  | n, (_, o) :: calls => (n + 1, o.boundValues.head?) :: placed (n + o.boundValues.length) calls

/-- The values a sequence of calls binds. -/
def valuesOf (calls : List (Connective × SqlOperator)) : List SqlValue :=
  calls.flatMap fun call => call.2.boundValues

lemma run_of_ne {h : Heap} {c x : Addr} (hc : x ≠ c) (hb : x ≠ h.binder c)
    (calls : List (Connective × SqlOperator)) : ((callMachine c).run h calls).1 x = h x := by
  induction calls generalizing h with
  | nil => rfl
  | cons call calls ih =>
    rw [Machine.run_cons]
    exact (ih (h := h.append c call.1 call.2) (by rwa [append_binder])).trans
      (append_of_ne hc hb call.1 call.2)

lemma run_params (h : Heap) (c x : Addr) (calls : List (Connective × SqlOperator)) :
    (((callMachine c).run h calls).1 x).base.params_ =
      if x = h.binder c then (h x).base.params_ ++ valuesOf calls else (h x).base.params_ := by
  induction calls generalizing h with
  | nil => simp [valuesOf]
  | cons call calls ih =>
    rw [Machine.run_cons]
    change (((callMachine c).run (h.append c call.1 call.2) calls).1 x).base.params_ = _
    rw [ih, append_binder, append_params]
    split
    · simp [valuesOf]
    · rfl

lemma run_placed (h : Heap) (c : Addr) (calls : List (Connective × SqlOperator)) :
    ((callMachine c).run h calls).2 = placed (h (h.binder c)).base.params_.length calls := by
  induction calls generalizing h with
  | nil => rfl
  | cons call calls ih =>
    obtain ⟨how, o⟩ := call
    rw [Machine.run_cons]
    change _ ++ ((callMachine c).run (h.append c how o) calls).2 = _
    rw [ih, append_binder, append_params, if_pos rfl, List.length_append]
    simp [callMachine, placed]

/-- The first value of each call lies in the list of all values at the number of its placeholder. -/
lemma getElem_of_placed {params : List SqlValue} {calls : List (Connective × SqlOperator)}
    {p : Nat × Option SqlValue} {v : SqlValue} (hp : p ∈ placed params.length calls)
    (hv : p.2 = some v) : (params ++ valuesOf calls)[p.1 - 1]? = some v := by
  induction calls generalizing params with
  | nil => cases hp
  | cons call calls ih =>
    obtain ⟨how, o⟩ := call
    have hsplit : params ++ valuesOf ((how, o) :: calls)
        = (params ++ o.boundValues) ++ valuesOf calls := by
      simp [valuesOf]
    rw [hsplit]
    rcases List.mem_cons.mp hp with rfl | hp
    · obtain ⟨vs, hvs⟩ := List.head?_eq_some_iff.mp hv
      simp [hvs]
    · exact ih (by rwa [List.length_append])

/-! ### Copies -/

/-- `c` is a query as it is after it was copy constructed from `q` or assigned from `q`. -/
inductive IsCopy : WhereQuery → WhereQuery → Prop where
  | construct (q : WhereQuery) : IsCopy q q.copy
  | assign {dst q c : WhereQuery} (h : dst.assign q = some c) : IsCopy q c

/-- A copy binds where its original binds. -/
lemma IsCopy.binder {q c : WhereQuery} (h : IsCopy q c) : c.where_.binder_ = q.where_.binder_ := by
  cases h with
  | construct => rw [WhereQuery.copy_eq, WhereQuery.where_withBase]
  | assign h => rw [WhereQuery.assign_eq h, WhereQuery.where_withBase]

/-- The calls on `c` leave the parameters, the flag and the SQL of `q` alone, and each placeholder
they add has its value among the parameters of `c`. -/
structure Separate (h : Heap) (q c : Addr) (calls : List (Connective × SqlOperator)) : Prop where
  params : (((callMachine c).run h calls).1 q).base.params_ = (h q).base.params_
  dirty : (((callMachine c).run h calls).1 q).base.dirty_ = (h q).base.dirty_
  text : (((callMachine c).run h calls).1 q).toSql.map render = (h q).toSql.map render
  values : ∀ p ∈ ((callMachine c).run h calls).2, ∃ v, p.2 = some v ∧
    (((callMachine c).run h calls).1 c).base.params_[p.1 - 1]? = some v

/-- No call is made, or `q` does not bind into itself (it is a copy already) and each operator has a
value, which goes to `c` or, if `q` binds into a third object, is in the right place of the
parameters of `c` by chance. -/
def Separable (h : Heap) (q c : Addr) (calls : List (Connective × SqlOperator)) : Prop :=
  calls = [] ∨ h.binder q ≠ q ∧
    ∀ p ∈ placed (h (h.binder q)).base.params_.length calls, ∃ v, p.2 = some v ∧
      (h.binder q ≠ c → (h c).base.params_[p.1 - 1]? = some v)

/-- Calls on a copy stay with the copy exactly if there are none, or the original is no object that
binds into itself and the values are there. -/
theorem copy_separate_iff {h : Heap} {q c : Addr} (hne : q ≠ c) (hcopy : IsCopy (h q) (h c))
    (calls : List (Connective × SqlOperator)) : Separate h q c calls ↔ Separable h q c calls := by
  have hbinder : h.binder c = h.binder q := hcopy.binder
  have hparams := run_params h c c calls
  rw [hbinder] at hparams
  rw [Separable]
  constructor
  · intro hsep
    rw [or_iff_not_imp_left]
    intro hcalls
    have hvalues := hsep.values
    rw [run_placed, hbinder] at hvalues
    constructor
    · -- the values of all calls would have gone to `q`, so no call had one
      intro hself
      have hsame := (run_params h c q calls).symm.trans hsep.params
      rw [hbinder, if_pos hself.symm, List.append_right_eq_self] at hsame
      obtain ⟨⟨how, o⟩, calls, rfl⟩ := List.exists_cons_of_ne_nil hcalls
      obtain ⟨v, hv, -⟩ := hvalues _ (List.mem_cons_self ..)
      have hnone : o.boundValues = [] := (List.append_eq_nil_iff.mp hsame).1
      simp [hnone] at hv
    · intro p hp
      obtain ⟨v, hv, hget⟩ := hvalues p hp
      refine ⟨v, hv, ?_⟩
      intro hc
      rwa [hparams, if_neg (Ne.symm hc)] at hget
  · rintro (rfl | ⟨hself, hplaced⟩)
    · exact ⟨rfl, rfl, rfl, by simp⟩
    · have hq := run_of_ne hne (hbinder ▸ Ne.symm hself) calls
      refine ⟨by rw [hq], by rw [hq], by rw [hq], ?_⟩
      rw [run_placed, hbinder]
      intro p hp
      obtain ⟨v, hv, hget⟩ := hplaced p hp
      refine ⟨v, hv, ?_⟩
      rw [hparams]
      by_cases hc : c = h.binder q
      · rw [if_pos hc]
        rw [← hc] at hp
        exact getElem_of_placed hp hv
      · rw [if_neg hc]
        exact hget (Ne.symm hc)

/-- A select query at its address and a copy of it at any other. -/
def usersAndCopy : Heap := fun a =>
  if a = 0 then .select (.ofSession 0 { impl_ := .sqlite } [] "users")
  else (WhereQuery.select (.ofSession 0 { impl_ := .sqlite } [] "users")).copy

/-- The theorem at a call on a fresh copy. -/
theorem copy_separate_users :
    Separate usersAndCopy 0 1 [(.reset, Op.equals (.string "name") (.string "bob"))] ↔
      Separable usersAndCopy 0 1 [(.reset, Op.equals (.string "name") (.string "bob"))] :=
  copy_separate_iff (by decide) (.construct _) _

/-- A condition set on a copy binds its value into the original. -/
theorem copy_not_separate_users :
    ¬Separate usersAndCopy 0 1 [(.reset, Op.equals (.string "name") (.string "bob"))] := by
  intro h
  exact absurd (congrArg List.length h.params) (by decide)

end Heap

end CodaDb
