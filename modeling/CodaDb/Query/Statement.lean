import CodaDb.Sql.Text
import CodaDb.Sql.Value
import Mathlib.Data.List.AList
import Mathlib.Logic.Function.Basic

/-!
# Prepared statements and the driver

A statement remembers the text it was prepared with and the values bound to it. Which of the calls
into the database succeed is up to a `Driver`.
-/

namespace CodaDb

inductive DbException where
  | database (what : String)
  | binding (what : String)
  | noPrimaryKey (what : String)
deriving DecidableEq, Repr

abbrev Outcome := Except DbException Unit

abbrev NamedParams := AList fun _ : String => SqlValue

structure Statement where
  /-- the text of the last successful `prepare` -/
  sql : Option SqlText := none
  bound : Nat → Option SqlValue := fun _ => none
  namedBound : String → Option SqlValue := fun _ => none

/-- The exceptions the driver throws for the calls made to it, if any. -/
structure Driver where
  prepare : String → Option DbException := fun _ => none
  bind : Nat → SqlValue → Option DbException := fun _ _ => none
  bindNamed : String → SqlValue → Option DbException := fun _ _ => none

/-- A driver whose calls all succeed. -/
def Driver.ok : Driver := {}

/-- The answers of the database to the calls that run a statement: the number of changes and the id
of the last insert if `execute` succeeds, and the exception `reset` throws, if any. -/
structure Engine where
  execute : Statement → Option (Nat × Int)
  reset : Statement → Outcome := fun _ => .ok ()

/-- No call throws that prepares a statement with this text and binds these parameters to it. -/
structure Driver.Accepts (d : Driver) (text : String) (params : List SqlValue)
    (named : NamedParams) : Prop where
  prepare : d.prepare text = none
  bind : ∀ i v, params[i]? = some v → d.bind (i + 1) v = none
  bindNamed : ∀ e ∈ named.entries, d.bindNamed e.1 e.2 = none

lemma Driver.ok_accepts (text : String) (params : List SqlValue) (named : NamedParams) :
    Driver.ok.Accepts text params named :=
  ⟨rfl, fun _ _ _ => rfl, fun _ _ => rfl⟩

namespace Statement

def bind (s : Statement) (index : Nat) (value : SqlValue) : Statement :=
  { s with bound := Function.update s.bound index (some value) }

def bindNamed (s : Statement) (name : String) (value : SqlValue) : Statement :=
  { s with namedBound := Function.update s.namedBound name (some value) }

/-- The loop over `params_` in `query::prepare`, from index `i` on. -/
def bindParams (d : Driver) (s : Statement) : Nat → List SqlValue → Statement × Outcome
  | _, [] => (s, .ok ())
  | i, v :: vs =>
    match d.bind i v with
    | some e => (s, .error e)
    | none => (s.bind i v).bindParams d (i + 1) vs

/-- The loop over `named_params_` in `query::prepare`. -/
def bindNamedParams (d : Driver) (s : Statement) :
    List (Sigma fun _ : String => SqlValue) → Statement × Outcome
  | [] => (s, .ok ())
  | ⟨name, v⟩ :: rest =>
    match d.bindNamed name v with
    | some e => (s, .error e)
    | none => (s.bindNamed name v).bindNamedParams d rest

/-- The statement prepared with `sql` to which exactly these parameters are bound. -/
def loaded (sql : SqlText) (params : List SqlValue) (named : NamedParams) : Statement :=
  { sql := some sql
    bound := fun i => if i = 0 then none else params[i - 1]?
    namedBound := fun name => named.lookup name }

lemma bindParams_ok {d : Driver} {s : Statement} {i : Nat} {vs : List SqlValue}
    (h : (s.bindParams d i vs).2 = .ok ()) :
    (s.bindParams d i vs).1 =
      { s with bound := fun j => if i ≤ j ∧ j < i + vs.length then vs[j - i]? else s.bound j } := by
  induction vs generalizing s i with
  | nil =>
    have hnone : ∀ j, ¬(i ≤ j ∧ j < i + ([] : List SqlValue).length) := fun j => by simp
    simp only [bindParams, if_neg (hnone _)]
  | cons v vs ih =>
    rw [bindParams] at h ⊢
    split at h
    · cases h
    · rw [ih h]
      simp only [bind, Statement.mk.injEq, and_true, true_and]
      funext j
      by_cases hj : j = i
      · subst hj
        rw [if_neg (by omega), if_pos (by simp)]
        simp
      · by_cases hlt : i + 1 ≤ j ∧ j < i + 1 + vs.length
        · have hsub : j - i = (j - (i + 1)) + 1 := by omega
          rw [if_pos hlt, if_pos (by simp only [List.length_cons]; omega), hsub,
            List.getElem?_cons_succ]
        · rw [if_neg hlt, if_neg (by simp only [List.length_cons]; omega),
            Function.update_of_ne hj]

lemma bindNamedParams_ok {d : Driver} {s : Statement}
    {es : List (Sigma fun _ : String => SqlValue)} (hes : es.NodupKeys)
    (h : (s.bindNamedParams d es).2 = .ok ()) :
    (s.bindNamedParams d es).1 =
      { s with namedBound := fun name => (es.dlookup name).or (s.namedBound name) } := by
  induction es generalizing s with
  | nil => rfl
  | cons e es ih =>
    obtain ⟨name, v⟩ := e
    obtain ⟨hname, hes⟩ := List.nodupKeys_cons.mp hes
    rw [bindNamedParams] at h ⊢
    split at h
    · cases h
    · rw [ih hes h]
      simp only [bindNamed, Statement.mk.injEq, true_and]
      funext n
      by_cases hn : n = name
      · subst hn
        have hnone : es.dlookup n = none := List.dlookup_eq_none.mpr hname
        simp [hnone]
      · rw [Function.update_of_ne hn,
          List.dlookup_cons_ne es (⟨name, v⟩ : Sigma fun _ : String => SqlValue) hn]

lemma bindParams_ok_iff (d : Driver) (s : Statement) (i : Nat) (vs : List SqlValue) :
    (s.bindParams d i vs).2 = .ok () ↔ ∀ k v, vs[k]? = some v → d.bind (i + k) v = none := by
  induction vs generalizing s i with
  | nil => simp [bindParams]
  | cons v vs ih =>
    rw [bindParams]
    constructor
    · intro h
      cases hv : d.bind i v with
      | some e => simp [hv] at h
      | none =>
        simp only [hv, ih] at h
        intro k w hw
        cases k with
        | zero => simpa [← Option.some.inj hw] using hv
        | succ k => simpa [Nat.add_assoc, Nat.add_comm 1] using h k w hw
    · intro h
      have hv : d.bind i v = none := h 0 v rfl
      simp only [hv, ih]
      intro k w hw
      simpa [Nat.add_assoc, Nat.add_comm 1] using h (k + 1) w hw

lemma bindNamedParams_ok_iff (d : Driver) (s : Statement)
    (es : List (Sigma fun _ : String => SqlValue)) :
    (s.bindNamedParams d es).2 = .ok () ↔ ∀ e ∈ es, d.bindNamed e.1 e.2 = none := by
  induction es generalizing s with
  | nil => simp [bindNamedParams]
  | cons e es ih =>
    obtain ⟨name, v⟩ := e
    rw [bindNamedParams]
    cases hv : d.bindNamed name v with
    | some e => simp [hv]
    | none => simp [ih, hv]

lemma bindParams_sql (d : Driver) (s : Statement) (i : Nat) (vs : List SqlValue) :
    (s.bindParams d i vs).1.sql = s.sql := by
  induction vs generalizing s i with
  | nil => rfl
  | cons v vs ih =>
    rw [bindParams]
    split
    · rfl
    · exact ih _ _

lemma bindNamedParams_sql (d : Driver) (s : Statement)
    (es : List (Sigma fun _ : String => SqlValue)) : (s.bindNamedParams d es).1.sql = s.sql := by
  induction es generalizing s with
  | nil => rfl
  | cons e es ih =>
    rw [bindNamedParams]
    split
    · rfl
    · exact ih _

/-- A fresh statement through which both loops ran without an exception is loaded. -/
lemma bindNamedParams_bindParams {d : Driver} {sql : SqlText} {params : List SqlValue}
    {named : NamedParams}
    (hp : (bindParams d { sql := some sql } 1 params).2 = .ok ())
    (hn : (bindNamedParams d (bindParams d { sql := some sql } 1 params).1 named.entries).2
      = .ok ()) :
    (bindNamedParams d (bindParams d { sql := some sql } 1 params).1 named.entries).1
      = loaded sql params named := by
  rw [bindNamedParams_ok named.nodupKeys hn, bindParams_ok hp]
  simp only [loaded, Statement.mk.injEq, true_and]
  constructor
  · funext j
    by_cases hj : j = 0
    · simp [hj]
    · rw [if_neg hj]
      by_cases hlt : 1 ≤ j ∧ j < 1 + params.length
      · rw [if_pos hlt]
      · rw [if_neg hlt]
        exact (List.getElem?_eq_none (by omega)).symm
  · funext n
    simp [AList.lookup]

end Statement

end CodaDb
