import CodaDb.Lib.Prepared
import CodaDb.Query.Statement
import CodaDb.Session

/-!
# `query`

The state every query shares: the memo of its SQL, the flag `dirty_`, the prepared statement and
the parameters. `stmt_` is a `shared_ptr`, but a statement is written only by the `prepare` that
created it, so the pointer is modelled by the statement it points to.
-/

namespace CodaDb

structure Query where
  /-- the memo of `sql_generator` -/
  sql_ : SqlText := []
  dirty_ : Bool := false
  /-- null after the query was moved from -/
  session_ : Option Session
  stmt_ : Option Statement := none
  params_ : List SqlValue := []
  namedParams_ : NamedParams := ∅

namespace Query

/-- `set_modified` -/
def setModified (q : Query) : Query := { q with dirty_ := true, sql_ := [] }

def numOfBindings (q : Query) : Nat := q.params_.length

/-- `std::vector::resize` to a size that is not smaller. -/
def grow (params : List SqlValue) (size : Nat) : List SqlValue :=
  params ++ List.replicate (size - params.length) .null

/-- `assert_binding_index`: the slot of a parameter index, after making room for it. -/
def assertBindingIndex (q : Query) (index : Nat) : Except DbException (Query × Nat) :=
  if index = 0 then .error (.binding "parameter index must be greater than zero")
  else if index > q.params_.length then
    .ok ({ q with params_ := grow q.params_ index, dirty_ := true }, index - 1)
  else .ok (q, index - 1)

/-- `bind(size_t, const sql_value &)` -/
def bind (q : Query) (index : Nat) (value : SqlValue) : Except DbException Query := do
  let (q, slot) ← q.assertBindingIndex index
  return setModified { q with params_ := q.params_.set slot value }

/-- `bind(const std::string &, const sql_value &)` -/
def bindNamed (q : Query) (name : String) (value : SqlValue) : Query :=
  setModified { q with namedParams_ := q.namedParams_.insert name value }

/-- `bindable::bind(const std::vector<sql_value> &, size_t)`. An exception leaves the bindings made
before it. -/
def bindAll (q : Query) : List SqlValue → Nat → Query × Outcome
  | [], _ => (q, .ok ())
  | v :: vs, index =>
    match q.bind index v with
    | .error e => (q, .error e)
    | .ok q' => q'.bindAll vs (index + 1)

/-- `bindable::bind(const std::unordered_map<std::string, sql_value> &)` -/
def bindMap (q : Query) (values : NamedParams) : Query :=
  values.entries.foldl (fun q e => q.bindNamed e.1 e.2) q

/-- `prepare` -/
def prepare (q : Query) (d : Driver) (sql : SqlText) : Query × Outcome :=
  if q.stmt_.isNone || q.dirty_ then
    match d.prepare sql.render with
    | some e => ({ q with stmt_ := some {} }, .error e)
    | none =>
      let (stmt, out) := Statement.bindParams d { sql := some sql } 1 q.params_
      match out with
      | .error e => ({ q with stmt_ := some stmt }, .error e)
      | .ok () =>
        let (stmt, out) := stmt.bindNamedParams d q.namedParams_.entries
        match out with
        | .error e => ({ q with stmt_ := some stmt }, .error e)
        | .ok () => ({ q with stmt_ := some stmt, dirty_ := false }, .ok ())
  else (q, .ok ())

/-- `reset`. The statement stays as it is; what its own `reset` throws is left to the callers. -/
def reset (q : Query) : Query := { q with params_ := [], namedParams_ := ∅, dirty_ := false }

/-- `bind(num_of_bindings() + 1, value)`, which does not throw, see `bindNext_eq`. -/
def bindNext (q : Query) (value : SqlValue) : Query :=
  match q.bind (q.numOfBindings + 1) value with
  | .error _ => q
  | .ok q' => q'

/-- `query(const query &)` -/
def copy (other : Query) : Query := { other with dirty_ := false }

/-- `query(query &&)`: the new object. The memo is not moved. -/
def move (other : Query) : Query := { other with dirty_ := false, sql_ := [] }

/-- `operator=(const query &)`, which does not assign the memo. -/
def assign (q other : Query) : Query := { other with sql_ := q.sql_ }

/-- The statement that belongs to the current parameters and a text. -/
def statementFor (q : Query) (sql : SqlText) : Statement :=
  .loaded sql q.params_ q.namedParams_

/-- The value a query holds for the parameter of a number. -/
def held (q : Query) (n : Nat) : Option SqlValue := if n = 0 then none else q.params_[n - 1]?

/-- The session and the parameters: what a query has besides the things it keeps. -/
def contents (q : Query) : Query :=
  { session_ := q.session_, params_ := q.params_, namedParams_ := q.namedParams_ }

/-- The memo, the flag and the statement of a query, as the things derived from its contents. -/
def cache (q : Query) : Prepared SqlText Statement :=
  { memo := if q.sql_.empty then none else some q.sql_, dirty := q.dirty_, held := q.stmt_ }

/-- A query is stale if it has no statement or was modified after it got one. -/
lemma stale_eq (q : Query) : q.cache.stale = (q.stmt_.isNone || q.dirty_) := rfl

lemma stale_of_dirty {q : Query} (h : q.dirty_ = true) : q.cache.stale = true := by
  simp [stale_eq, h]

lemma stale_of_none {q : Query} (h : q.stmt_ = none) : q.cache.stale = true := by
  simp [stale_eq, h]

lemma kept_of_clean {q : Query} (hdirty : q.dirty_ = false) {stmt : Statement}
    (hstmt : q.stmt_ = some stmt) : q.cache.stale = false := by
  simp [stale_eq, hdirty, hstmt]

section Bind

@[simp] lemma setModified_params (q : Query) : q.setModified.params_ = q.params_ := rfl

/-- `bind` refuses the index 0, else it makes room for the value and puts it there. -/
lemma bind_eq (q : Query) (index : Nat) (value : SqlValue) :
    q.bind index value =
      if index = 0 then .error (.binding "parameter index must be greater than zero")
      else
        .ok (setModified { q with params_ := (grow q.params_ index).set (index - 1) value }) := by
  simp only [bind, assertBindingIndex]
  split
  · rfl
  · split
    · rfl
    · next hle =>
      have hgrow : grow q.params_ index = q.params_ := by
        simp [grow, Nat.sub_eq_zero_of_le (Nat.le_of_not_lt hle)]
      rw [hgrow]
      rfl

/-- Binding the index after the last one appends the value. -/
lemma bind_next (q : Query) (value : SqlValue) :
    q.bind (q.params_.length + 1) value
      = .ok (setModified { q with params_ := q.params_ ++ [value] }) := by
  simp [bind_eq, grow]

/-- Binding the last index replaces the value there. -/
lemma bind_last (q : Query) (params : List SqlValue) (old value : SqlValue)
    (h : q.params_ = params ++ [old]) :
    q.bind (params.length + 1) value
      = .ok (setModified { q with params_ := params ++ [value] }) := by
  simp [bind_eq, grow, h]

lemma bindNext_eq (q : Query) (value : SqlValue) :
    q.bindNext value = setModified { q with params_ := q.params_ ++ [value] } := by
  simp only [bindNext, numOfBindings, bind_next]

lemma set_grow (params : List SqlValue) {k : Nat} (hk : k ≤ params.length) (v : SqlValue) :
    (grow params (k + 1)).set k v = params.take k ++ v :: params.drop (k + 1) := by
  rcases Nat.lt_or_eq_of_le hk with hlt | rfl
  · have hgrow : grow params (k + 1) = params := by
      simp [grow, Nat.sub_eq_zero_of_le hlt]
    rw [hgrow, List.set_eq_take_append_cons_drop, if_pos hlt]
  · simp [grow]

/-- Binding values from an index on that leaves no gap replaces the parameters there. -/
lemma bindAll_eq (q : Query) (values : List SqlValue) {k : Nat} (hk : k ≤ q.params_.length) :
    q.bindAll values (k + 1) =
      (if values = [] then q
        else setModified
          { q with
            params_ := q.params_.take k ++ values ++ q.params_.drop (k + values.length) },
        .ok ()) := by
  induction values generalizing q k with
  | nil => rfl
  | cons v vs ih =>
    simp only [bindAll, bind_eq, Nat.add_one_ne_zero, if_false, Nat.add_sub_cancel, set_grow _ hk]
    rw [ih _ (by simp; omega)]
    have htake : (q.params_.take k ++ v :: q.params_.drop (k + 1)).take (k + 1)
        = q.params_.take k ++ [v] := by
      simp [List.take_append, Nat.min_eq_left hk, List.take_take]
    have hdrop : (q.params_.take k ++ v :: q.params_.drop (k + 1)).drop (k + (vs.length + 1))
        = q.params_.drop (k + (vs.length + 1)) := by
      have hnone : (q.params_.take k).drop (k + (vs.length + 1)) = [] := by
        apply List.drop_eq_nil_of_le
        rw [List.length_take]
        omega
      have hrest : k + (vs.length + 1) - k = vs.length + 1 := by omega
      rw [List.drop_append, hnone, List.length_take, Nat.min_eq_left hk, hrest]
      simp [Nat.add_assoc, Nat.add_comm 1]
    by_cases hvs : vs = []
    · simp [hvs]
    · simp [hvs, setModified, htake, hdrop, Nat.add_assoc, Nat.add_comm 1]

/-- A binding that does not throw changes the parameters and marks the query modified. -/
lemma bind_ok {q q' : Query} {index : Nat} {value : SqlValue} (h : q.bind index value = .ok q') :
    ∃ params, q' = setModified { q with params_ := params } := by
  rw [bind_eq] at h
  split at h
  · cases h
  · exact ⟨_, (Except.ok.inj h).symm⟩

/-- Binding values leaves the query as it is or with other parameters and marked modified. -/
lemma bindAll_cases (q : Query) (values : List SqlValue) (index : Nat) :
    (q.bindAll values index).1 = q ∨
      ∃ params, (q.bindAll values index).1 = setModified { q with params_ := params } := by
  induction values generalizing q index with
  | nil => exact .inl rfl
  | cons v vs ih =>
    rw [bindAll]
    cases hbind : q.bind index v with
    | error e => exact .inl rfl
    | ok q' =>
      obtain ⟨params, rfl⟩ := bind_ok hbind
      rcases ih (setModified { q with params_ := params }) (index + 1) with h | ⟨params', h⟩
      · exact .inr ⟨params, h⟩
      · exact .inr ⟨params', h⟩

/-- What binding leaves alone, and the memo it may only clear. -/
lemma bindAll_fields (q : Query) (values : List SqlValue) (index : Nat) :
    (q.bindAll values index).1.session_ = q.session_ ∧
      (q.bindAll values index).1.namedParams_ = q.namedParams_ ∧
      (q.bindAll values index).1.stmt_ = q.stmt_ ∧
      (q.sql_ = [] → (q.bindAll values index).1.sql_ = []) := by
  rcases q.bindAll_cases values index with h | ⟨params, h⟩
  · rw [h]
    exact ⟨rfl, rfl, rfl, id⟩
  · rw [h]
    exact ⟨rfl, rfl, rfl, fun _ => rfl⟩

/-- A query without parameters gets the values as its parameters. -/
lemma bindAll_params {q : Query} (h : q.params_ = []) (values : List SqlValue) :
    (q.bindAll values 1).1.params_ = values := by
  have hbind := q.bindAll_eq values (Nat.zero_le q.params_.length)
  rw [Nat.zero_add] at hbind
  rw [hbind]
  by_cases hvalues : values = []
  · simp [hvalues, h]
  · simp [hvalues, h]

lemma bindMap_cases (q : Query) (values : NamedParams) :
    q.bindMap values = q ∨
      ∃ named, q.bindMap values = setModified { q with namedParams_ := named } := by
  rw [bindMap]
  induction values.entries generalizing q with
  | nil => exact .inl rfl
  | cons e es ih =>
    rw [List.foldl_cons]
    rcases ih (q.bindNamed e.1 e.2) with h | ⟨named, h⟩
    · exact .inr ⟨_, h⟩
    · exact .inr ⟨named, h⟩

lemma contents_eq_iff {q r : Query} :
    q.contents = r.contents ↔
      q.session_ = r.session_ ∧ q.params_ = r.params_ ∧ q.namedParams_ = r.namedParams_ := by
  simp [contents]

/-- What bindings leave behind depends on nothing the query keeps. -/
lemma bindAll_contents {q r : Query} (h : q.contents = r.contents) (values : List SqlValue)
    (index : Nat) : (q.bindAll values index).1.contents = (r.bindAll values index).1.contents := by
  induction values generalizing q r index with
  | nil => exact h
  | cons v vs ih =>
    obtain ⟨hsession, hparams, hnamed⟩ := contents_eq_iff.mp h
    simp only [bindAll, bind_eq, hparams]
    by_cases hindex : index = 0
    · simp only [if_pos hindex, h]
    · simp only [if_neg hindex]
      apply ih
      rw [contents_eq_iff]
      exact ⟨hsession, rfl, hnamed⟩

lemma bindMap_contents {q r : Query} (h : q.contents = r.contents) (values : NamedParams) :
    (q.bindMap values).contents = (r.bindMap values).contents := by
  simp only [bindMap]
  induction values.entries generalizing q r with
  | nil => exact h
  | cons e es ih =>
    obtain ⟨hsession, hparams, hnamed⟩ := contents_eq_iff.mp h
    exact ih (contents_eq_iff.mpr ⟨hsession, hparams, congrArg (·.insert e.1 e.2) hnamed⟩)

end Bind

section Prepare

/-- What `prepare` can do: keep a statement that is not stale, be refused the text, be refused a
value, or load a new statement. After an exception the flag is as it was. -/
inductive Prepares (q : Query) (d : Driver) (sql : SqlText) : Query × Outcome → Prop where
  | kept (hstale : q.cache.stale = false) : Prepares q d sql (q, .ok ())
  | refused (e : DbException) (hstale : q.cache.stale = true)
      (hd : d.prepare sql.render = some e) :
      Prepares q d sql ({ q with stmt_ := some {} }, .error e)
  | unbound (e : DbException) (stmt : Statement) (hstale : q.cache.stale = true)
      (hprep : d.prepare sql.render = none)
      (hd : ¬d.Accepts sql.render q.params_ q.namedParams_) (hsql : stmt.sql = some sql) :
      Prepares q d sql ({ q with stmt_ := some stmt }, .error e)
  | loaded (hstale : q.cache.stale = true)
      (hd : d.Accepts sql.render q.params_ q.namedParams_) :
      Prepares q d sql
        ({ q with stmt_ := some (q.statementFor sql), dirty_ := false }, .ok ())

theorem prepare_spec (q : Query) (d : Driver) (sql : SqlText) :
    Prepares q d sql (q.prepare d sql) := by
  rw [prepare]
  by_cases hstale : (q.stmt_.isNone || q.dirty_) = true
  case neg =>
    rw [if_neg hstale]
    exact .kept (Bool.eq_false_iff.mpr hstale)
  rw [if_pos hstale]
  cases hprep : d.prepare sql.render with
  | some e => exact .refused e hstale hprep
  | none =>
    have hbind := Statement.bindParams_ok_iff d { sql := some sql } 1 q.params_
    cases hp : (Statement.bindParams d { sql := some sql } 1 q.params_).2 with
    | error e =>
      simp only [hp]
      refine .unbound e _ hstale hprep ?_ (Statement.bindParams_sql ..)
      intro h
      exact absurd (hbind.mpr fun k v hk => Nat.add_comm 1 k ▸ h.bind k v hk) (by simp [hp])
    | ok =>
      have hnamed := Statement.bindNamedParams_ok_iff d
        (Statement.bindParams d { sql := some sql } 1 q.params_).1 q.namedParams_.entries
      cases hn : (Statement.bindNamedParams d
          (Statement.bindParams d { sql := some sql } 1 q.params_).1 q.namedParams_.entries).2 with
      | error e =>
        simp only [hp, hn]
        refine .unbound e _ hstale hprep ?_
          ((Statement.bindNamedParams_sql ..).trans (Statement.bindParams_sql ..))
        intro h
        exact absurd (hnamed.mpr h.bindNamed) (by simp [hn])
      | ok =>
        simp only [hp, hn, Statement.bindNamedParams_bindParams hp hn]
        exact .loaded hstale
          ⟨hprep, fun k v hk => Nat.add_comm 1 k ▸ hbind.mp hp k v hk, hnamed.mp hn⟩

/-- `prepare` gets the text from the query, whose memo it leaves alone. -/
lemma Prepares.memo {q : Query} {d : Driver} {sql : SqlText} {r : Query × Outcome}
    (h : Prepares q d sql r) : r.1.sql_ = q.sql_ := by
  cases h <;> rfl

/-- `prepare` throws nothing if there is nothing to do or the driver accepts it all. -/
lemma prepare_ok_iff (q : Query) (d : Driver) (sql : SqlText) :
    (q.prepare d sql).2 = .ok () ↔
      (q.cache.stale = true → d.Accepts sql.render q.params_ q.namedParams_) := by
  have hspec := q.prepare_spec d sql
  generalize q.prepare d sql = r at hspec ⊢
  cases hspec with
  | kept hstale => simp [hstale]
  | refused e hstale hd =>
    have hnot : ¬d.Accepts sql.render q.params_ q.namedParams_ := fun h => by
      simp [h.prepare] at hd
    simp [hstale, hnot]
  | unbound e stmt hstale hprep hd => simp [hstale, hd]
  | loaded hstale hd => simp [hd]

/-- A `prepare` that throws nothing leaves the statement for its text and the parameters, or the
statement the query had, if that was not stale. -/
lemma prepare_ok {q : Query} {d : Driver} {sql : SqlText} (h : (q.prepare d sql).2 = .ok ()) :
    (q.prepare d sql).1 =
      if q.cache.stale then { q with stmt_ := some (q.statementFor sql), dirty_ := false }
      else q := by
  have hspec := q.prepare_spec d sql
  generalize q.prepare d sql = r at hspec h ⊢
  cases hspec with
  | kept hstale => simp [hstale]
  | refused | unbound => cases h
  | loaded hstale hd => simp [hstale]

/-- With a driver that never fails `prepare` does not throw. -/
lemma prepare_driver_ok (q : Query) (sql : SqlText) : (q.prepare .ok sql).2 = .ok () :=
  (q.prepare_ok_iff .ok sql).mpr fun _ => Driver.ok_accepts ..

end Prepare

end Query

end CodaDb
