import CodaDb.Query.Current

/-!
# Edits through references

`where()`, `join(table)` and `on(text)` return references to parts of a query, by which a part can
be changed while its owner keeps a text. An edit reaches the text of its owner if it goes by a
setter of the owner, or by the parameters, which are the owner's. Which runs of such edits leave no
outdated text behind.
-/

namespace CodaDb

open SqlText

/-- What the pointer of a query's where builder leads to: the query, another one, as in a copy, or
an object that is gone. -/
inductive Behind where
  | self
  | other (binder : Query)
  | gone

/-- A reference to a join: to an object of the client's own, or to an element of a query's
vector. -/
inductive JoinReference where
  | own
  | member (i : Nat)
deriving DecidableEq

/-- A query and a join clause of its client, with what tells which references are still good. -/
structure References where
  query : SelectQuery
  behind : Behind := .self
  /-- the capacity of the vector `join_` -/
  capacity : Nat := 0
  /-- the number of elements when the vector last moved them; references to these dangle -/
  moved : Nat := 0
  own : JoinClause := {}

/-- The edits of a join. The clause that `on` returns is a part of the join and lives as long. -/
inductive JoinEdit where
  | type (value : JoinType)
  | table (value : String)
  | tableAlias (value «alias» : String)
  | on (value : String)
  | onClause (value : { w : WhereClause // w.Reachable })
  | onAnd (value : String)
  | onOr (value : String)

def JoinEdit.apply : JoinEdit → JoinClause → JoinClause
  | .type value, j => j.type value
  | .table value, j => j.table value
  | .tableAlias value «alias», j => j.tableAlias value «alias»
  | .on value, j => j.on value
  | .onClause value, j => j.onClause value
  | .onAnd value, j => j.onAnd value
  | .onOr value, j => j.onOr value

inductive ReferenceCall where
  | where (how : Connective) (o : SqlOperator)
  | join (tableName : String) (type : JoinType)
  | joinAlias (tableName «alias» : String) (type : JoinType)
  | edit (r : JoinReference) (e : JoinEdit)
  | joinToSql (r : JoinReference)
  | toSql
  | execute (d : Driver)

/-- A text that `to_sql` returned, and the text of the object as it was then. -/
structure RenderedText where
  returned : SqlText
  current : SqlText

def RenderedText.Right (t : RenderedText) : Prop := t.returned.render = t.current.render

instance (t : RenderedText) : Decidable t.Right := inferInstanceAs (Decidable (_ = _))

namespace References

/-- `where(op)`, `where() && op` and `where() || op` -/
def append (s : References) (how : Connective) (o : SqlOperator) : Option References :=
  match s.behind with
  | .self => some { s with query := s.query.append how o }
  | .other binder =>
    match s.query.where_.append how binder o with
    | .error _ => some s
    | .ok (w, binder) =>
      let q := { s.query with where_ := w }
      match how with
      | .reset => some { s with query := q.setModified, behind := .other binder }
      | .and | .or => some { s with query := q, behind := .other binder }
  | .gone => none

/-- `join(tableName, type)` and its overload with an alias. A vector that is full moves its elements
to new memory; how much it allocates is up to the library. -/
def join (grow : Nat → Nat) (s : References) (value : JoinClause) : References :=
  let size := s.query.join_.length
  if size < s.capacity then { s with query := s.query.join value }
  else
    { s with query := s.query.join value, capacity := max (size + 1) (grow size), moved := size }

/-- The join behind a reference that does not dangle. -/
def joinAt (s : References) : JoinReference → Option JoinClause
  | .own => some s.own
  | .member i => if s.moved ≤ i then s.query.join_[i]? else none

def setJoin (s : References) (r : JoinReference) (value : JoinClause) : References :=
  match r with
  | .own => { s with own := value }
  | .member i => { s with query := { s.query with join_ := s.query.join_.set i value } }

/-- One call: the state it leaves, unless it follows a pointer to nothing, and the texts that
`to_sql` returns in it. -/
def step (grow : Nat → Nat) (s : References) : ReferenceCall → Option References × List RenderedText
  | .where how o => (s.append how o, [])
  | .join tableName type => (some (s.join grow (.ofTable tableName type)), [])
  | .joinAlias tableName «alias» type =>
    (some (s.join grow (.ofTableAlias tableName «alias» type)), [])
  | .edit r e => ((s.joinAt r).map fun j => s.setJoin r (e.apply j), [])
  | .joinToSql r =>
    match s.joinAt r with
    | none => (none, [])
    | some j => (some (s.setJoin r j.memoise), [⟨j.toSql, j.current⟩])
  | .toSql => (some { s with query := s.query.memoise }, [⟨s.query.toSql, s.query.current⟩])
  | .execute d =>
    (some { s with query := (s.query.execute d).1 }, [⟨s.query.toSql, s.query.current⟩])

end References

/-- Runs of calls; there is no state after a pointer to nothing was followed. -/
def referenceMachine (grow : Nat → Nat) :
    Machine (Option References) ReferenceCall RenderedText where
  step
    | none, _ => (none, [])
    | some s, call => s.step grow call

/-- The edits after which the join renders as before. -/
def JoinEdit.Idle (j : JoinClause) : JoinEdit → Prop
  | .type value => value = j.type_
  | .table value => value = j.tableName_
  | .tableAlias value «alias» => value ++ " " ++ «alias» = j.tableName_
  | .on value => j.HasOn → value = j.on_.toSql.render
  | .onClause value => j.HasOn → value.val.toSql.render = j.on_.toSql.render
  | .onAnd value | .onOr value => j.HasOn → value = ""

/-- The edits by a setter of the join. -/
def JoinEdit.IsSetter : JoinEdit → Prop
  | .type _ | .table _ | .tableAlias _ _ | .on _ | .onClause _ => True
  | .onAnd _ | .onOr _ => False

namespace JoinEdit

/-- The second letter of a join tells its type. -/
def letter : JoinType → Char
  | .none => 'J'
  | .natural => 'N'
  | .inner => 'I'
  | .left => 'L'
  | .right => 'R'
  | .full => 'F'
  | .cross => 'C'

lemma letter_current (j : JoinClause) : j.current.render.toList[1]? = some (letter j.type_) := by
  rw [JoinClause.current_eq]
  simp only [render_append, render_lit, String.toList_append]
  cases j.type_ <;> rfl

lemma current_type (j : JoinClause) (value : JoinType) :
    (j.type value).current.render = j.current.render ↔ value = j.type_ := by
  constructor
  · intro htext
    have hletter := letter_current (j.type value)
    rw [htext, letter_current, Option.some.injEq] at hletter
    have hinj : ∀ t t', letter t = letter t' → t' = t := by
      intro t t'
      cases t <;> cases t' <;> decide
    exact hinj _ _ hletter
  · rintro rfl
    rfl

lemma current_table (j : JoinClause) (value : String) :
    (j.table value).current.render = j.current.render ↔ value = j.tableName_ := by
  have hpart : (j.table value).onPart = j.onPart := rfl
  have hname : (j.table value).tableName_ = value := rfl
  have htype : (j.table value).type_ = j.type_ := rfl
  rw [JoinClause.current_eq, JoinClause.current_eq, hpart, hname, htype]
  simp only [render_append, render_lit]
  rw [String.append_left_inj, String.append_right_inj]

lemma current_on (j : JoinClause) (w : WhereClause) :
    (JoinClause.current { j with on_ := w }).render = j.current.render ↔
      (j.HasOn → w.current.render = j.on_.current.render) := by
  have hon : JoinClause.HasOn { j with on_ := w } ↔ j.HasOn := Iff.rfl
  rw [JoinClause.current_eq, JoinClause.current_eq]
  simp only [render_append]
  rw [String.append_right_inj, JoinClause.onPart, JoinClause.onPart]
  by_cases h : j.HasOn
  · rw [if_pos h, if_pos (hon.mpr h), render_append, render_append, String.append_right_inj]
    exact ⟨fun htext _ => htext, fun htext => htext h⟩
  · rw [if_neg h, if_neg (mt hon.mp h)]
    exact iff_of_true rfl fun hhas => absurd hhas h

/-- An edit shows in the text of the join unless it is idle. -/
lemma current_apply {j : JoinClause} (h : j.on_.Reachable) (e : JoinEdit) :
    (e.apply j).current.render = j.current.render ↔ e.Idle j := by
  cases e with
  | type value => exact current_type j value
  | table value => exact current_table j value
  | tableAlias value «alias» => exact current_table j (value ++ " " ++ «alias»)
  | on value =>
    have htext : (WhereClause.ofText (lit value)).current.render = value := by
      rw [← (WhereClause.Reachable.text _).toSql_eq, WhereClause.toSql_ofText, render_lit]
    refine (current_on j (.ofText (lit value))).trans ?_
    rw [htext, ← h.toSql_eq]
    rfl
  | onClause value =>
    refine (current_on j value.val).trans ?_
    rw [← value.property.toSql_eq, ← h.toSql_eq]
    rfl
  | onAnd value =>
    refine (current_on j _).trans (forall_congr' fun _ => ?_)
    rw [← (h.andText _).settled.generateSql, ← h.settled.generateSql]
    exact j.on_.generateSql_andText value
  | onOr value =>
    refine (current_on j _).trans (forall_congr' fun _ => ?_)
    rw [← (h.orText _).settled.generateSql, ← h.settled.generateSql]
    exact j.on_.generateSql_orText value

lemma reachable_apply {j : JoinClause} (h : j.on_.Reachable) (e : JoinEdit) :
    (e.apply j).on_.Reachable := by
  cases e with
  | type | table | tableAlias => exact h
  | on value => exact .text (lit value)
  | onClause value => exact value.property
  | onAnd value => exact h.andText (lit value)
  | onOr value => exact h.orText (lit value)

lemma apply_memo (e : JoinEdit) (j : JoinClause) :
    e.IsSetter ∧ (e.apply j).sql_ = [] ∨ ¬e.IsSetter ∧ (e.apply j).sql_ = j.sql_ := by
  cases e with
  | onAnd | onOr => exact .inr ⟨id, rfl⟩
  | type | table | tableAlias | on | onClause => exact .inl ⟨trivial, rfl⟩

/-- A join keeps an outdated text exactly after an edit of its clause that shows. -/
lemma settled_apply {j : JoinClause} (h : j.Settled) (e : JoinEdit) :
    (e.apply j).Settled ↔ e.Idle j ∨ e.IsSetter ∨ j.sql_.render = "" := by
  have hon := reachable_apply h.on e
  rcases e.apply_memo j with ⟨hsetter, hmemo⟩ | ⟨hsetter, hmemo⟩
  · exact iff_of_true (JoinClause.settled_of_empty hon (by rw [hmemo, render_nil]))
      (.inr (.inl hsetter))
  · have hgenerated := congrArg render (JoinClause.generateSql_eq_current hon)
    rw [or_iff_right hsetter, or_comm, ← current_apply h.on, ← kept_iff h.text hgenerated, ← hmemo]
    exact ⟨fun hsettled => hsettled.text, fun htext => ⟨hon, htext⟩⟩

end JoinEdit

namespace SelectQuery

lemma settled_append {q : SelectQuery} (h : q.Settled) (how : Connective) (o : SqlOperator) :
    (q.append how o).Settled ↔ how = .reset ∨ o.boundValues ≠ [] ∨ q.sql_.render = "" := by
  have hclause := h.where.extend how (q.where_.condition q.toQuery o)
  rw [append, WhereBuilder.append_eq]
  cases how with
  | reset => exact iff_of_true (PartsSettled.setModified ⟨hclause, h.joins, h.union⟩) (.inl rfl)
  | and | or =>
    rw [or_iff_right (by decide)]
    by_cases hvalues : o.boundValues = []
    · have hbase : WhereBuilder.boundBy q.toQuery o = q.toQuery := if_pos hvalues
      rw [or_iff_right (not_not_intro hvalues),
        ← settled_andText h (q.where_.condition_ne_empty q.toQuery o), hbase]
      rfl
    · have hmemo : (WhereBuilder.boundBy q.toQuery o).sql_ = [] := by
        rw [WhereBuilder.boundBy, if_neg hvalues]
        rfl
      refine iff_of_true ?_ (.inl hvalues)
      exact PartsSettled.settled_of_empty ⟨hclause, h.joins, h.union⟩ (congrArg render hmemo)

end SelectQuery

namespace References

/-- No object keeps a text it would not render now. -/
structure Settled (s : References) : Prop where
  query : s.query.Settled
  own : s.own.Settled

/-- A call that leaves no outdated text: its reference is good, and an edit that changes a text
either goes by what clears it, or no text is kept. -/
def Reaches (s : References) : ReferenceCall → Prop
  | .where how o =>
    match s.behind with
    | .self => how = .reset ∨ o.boundValues ≠ [] ∨ s.query.sql_.render = ""
    | .other _ => how = .reset ∨ s.query.sql_.render = ""
    | .gone => False
  | .edit r e =>
    ∃ j, s.joinAt r = some j ∧ (e.Idle j ∨
      (e.IsSetter ∨ j.sql_.render = "") ∧ (r = .own ∨ s.query.sql_.render = ""))
  | .joinToSql r => (s.joinAt r).isSome
  | .join _ _ | .joinAlias _ _ _ | .toSql | .execute _ => True

/-- A run may go on, and no `to_sql` in this state would return anything but the current text. -/
def SettledState : Option References → Prop
  | none => False
  | some s => s.Settled

variable {s : References}

lemma settled_append (h : s.Settled) (how : Connective) (o : SqlOperator) :
    s.Reaches (.where how o) ↔ SettledState (s.append how o) := by
  have hwith : ∀ {q : SelectQuery} {behind : Behind},
      SettledState (some { s with query := q, behind := behind }) ↔ q.Settled := fun {q behind} =>
    ⟨fun hs => hs.query, fun hq => ⟨hq, h.own⟩⟩
  rw [append]
  cases hbehind : s.behind with
  | gone =>
    simp only [Reaches, hbehind]
    rfl
  | self =>
    simp only [Reaches, hbehind]
    rw [← SelectQuery.settled_append h.query how o]
    exact ⟨fun hq => ⟨hq, h.own⟩, fun hs => hs.query⟩
  | other binder =>
    have hclause := h.query.where.extend how (s.query.where_.condition binder o)
    simp only [Reaches, hbehind, WhereBuilder.append_eq]
    cases how with
    | reset =>
      rw [hwith]
      refine iff_of_true (.inl rfl) ?_
      exact SelectQuery.PartsSettled.setModified ⟨hclause, h.query.joins, h.query.union⟩
    | and | or =>
      rw [or_iff_right (by decide), hwith]
      exact (SelectQuery.settled_andText h.query (s.query.where_.condition_ne_empty binder o)).symm

lemma settled_join (h : s.Settled) (grow : Nat → Nat) {value : JoinClause}
    (hvalue : value.Settled) : (s.join grow value).Settled := by
  have hquery : (s.query.join value).Settled := h.query.edit (.join value) hvalue
  rw [join]
  split
  · exact ⟨hquery, h.own⟩
  · exact ⟨hquery, h.own⟩

/-- What is written through a good reference settles with the join, and with the query if it is one
of its joins. -/
lemma settled_setJoin (h : s.Settled) {r : JoinReference} {j : JoinClause}
    (hj : s.joinAt r = some j) (j' : JoinClause) :
    (s.setJoin r j').Settled ↔ j'.Settled ∧
      (r = .own ∨ s.query.sql_.render = "" ∨ j'.current.render = j.current.render) := by
  cases r with
  | own => exact ⟨fun hs => ⟨hs.own, .inl rfl⟩, fun hj' => ⟨h.query, hj'.1⟩⟩
  | member i =>
    have hi : s.query.join_[i]? = some j := by
      rw [joinAt] at hj
      exact (Option.ite_none_right_eq_some.mp hj).2
    have hmember : JoinReference.member i ≠ .own := JoinReference.noConfusion
    rw [or_iff_right hmember, ← SelectQuery.settled_setJoin h.query hi]
    exact ⟨fun hs => hs.query, fun hq => ⟨hq, h.own⟩⟩

/-- The join behind a good reference is settled with the rest. -/
lemma Settled.joinAt (h : s.Settled) {r : JoinReference} {j : JoinClause}
    (hj : s.joinAt r = some j) : j.Settled := by
  cases r with
  | own =>
    obtain rfl := Option.some.inj hj
    exact h.own
  | member i =>
    rw [References.joinAt] at hj
    exact h.query.joins j (List.mem_of_getElem? (Option.ite_none_right_eq_some.mp hj).2)

lemma settled_edit (h : s.Settled) (r : JoinReference) (e : JoinEdit) :
    s.Reaches (.edit r e) ↔ SettledState ((s.joinAt r).map fun j => s.setJoin r (e.apply j)) := by
  rw [Reaches]
  cases hj : s.joinAt r with
  | none => exact iff_of_false (fun ⟨j, hsome, _⟩ => nomatch hsome) id
  | some j =>
    have hsettled := h.joinAt hj
    rw [Option.map_some, SettledState, settled_setJoin h hj, JoinEdit.settled_apply hsettled,
      JoinEdit.current_apply hsettled.on]
    constructor
    · rintro ⟨j, hsome, hidle⟩
      obtain rfl := Option.some.inj hsome
      tauto
    · intro hedit
      exact ⟨j, rfl, by tauto⟩

/-- A call leaves no outdated text exactly if it reaches all that keep one. -/
theorem settled_step (h : s.Settled) (grow : Nat → Nat) (call : ReferenceCall) :
    s.Reaches call ↔
      SettledState (s.step grow call).1 ∧ ∀ t ∈ (s.step grow call).2, t.Right := by
  cases call with
  | «where» how o =>
    rw [step, and_iff_left (List.forall_mem_nil _)]
    exact settled_append h how o
  | join tableName type =>
    rw [step, and_iff_left (List.forall_mem_nil _)]
    exact iff_of_true trivial (settled_join h grow (JoinClause.settled_ofTable ..))
  | joinAlias tableName «alias» type =>
    rw [step, and_iff_left (List.forall_mem_nil _)]
    exact iff_of_true trivial (settled_join h grow (JoinClause.settled_ofTable ..))
  | edit r e =>
    rw [step, and_iff_left (List.forall_mem_nil _)]
    exact settled_edit h r e
  | joinToSql r =>
    rw [step, Reaches]
    cases hj : s.joinAt r with
    | none => exact iff_of_false Bool.false_ne_true fun hs => hs.1
    | some j =>
      have hsettled := h.joinAt hj
      refine iff_of_true rfl ⟨?_, fun t ht => ?_⟩
      · exact (settled_setJoin h hj _).mpr ⟨hsettled.memoise, .inr (.inr rfl)⟩
      · obtain rfl := List.mem_singleton.mp ht
        exact hsettled.text
  | toSql =>
    refine iff_of_true trivial ⟨⟨h.query.memoise, h.own⟩, fun t ht => ?_⟩
    obtain rfl := List.mem_singleton.mp ht
    exact h.query.text
  | execute d =>
    refine iff_of_true trivial ⟨⟨h.query.execute d, h.own⟩, fun t ht => ?_⟩
    obtain rfl := List.mem_singleton.mp ht
    exact h.query.text

/-- The runs whose calls all reach are those in which every text is current: in each state on the
way no object keeps an outdated one, and each `to_sql` returns what would be rendered anew. -/
theorem reaches_iff_current (grow : Nat → Nat) (s : References) (h : s.Settled)
    (calls : List ReferenceCall) :
    (referenceMachine grow).Along (fun state call => ∀ s, state = some s → s.Reaches call) (some s)
        calls ↔
      (∀ n, SettledState ((referenceMachine grow).run (some s) (calls.take n)).1) ∧
        ∀ t ∈ ((referenceMachine grow).run (some s) calls).2, t.Right := by
  have hs : SettledState (some s) := h
  refine Machine.along_iff _ _ SettledState RenderedText.Right ?_ hs calls
  intro state call hstate
  cases state with
  | none => exact hstate.elim
  | some s =>
    refine Iff.trans ?_ (settled_step hstate grow call)
    exact ⟨fun hreach => hreach s rfl, fun hreach s' hs' => Option.some.inj hs' ▸ hreach⟩

/-- The theorem at a run that edits a join before the query renders it, and a condition after. -/
theorem reaches_iff_current_orders :
    SettledState ((referenceMachine id).run
        (some { query := (SelectConstructor.session 0 { impl_ := .sqlite }).build })
        [.join "orders" .inner, .edit (.member 0) (.on "a = b"), .toSql,
          .where .and (Op.equals (.string "name") (.string "bob")), .toSql]).1 ∧
      ∀ t ∈ ((referenceMachine id).run
        (some { query := (SelectConstructor.session 0 { impl_ := .sqlite }).build })
        [.join "orders" .inner, .edit (.member 0) (.on "a = b"), .toSql,
          .where .and (Op.equals (.string "name") (.string "bob")), .toSql]).2, t.Right := by
  refine And.imp_left (fun hstates => hstates 5) ((reaches_iff_current id
    { query := (SelectConstructor.session 0 { impl_ := .sqlite }).build }
    ⟨SelectQuery.settled_build (.session 0 { impl_ := .sqlite }),
      JoinClause.settled_of_empty .default rfl⟩ _).mp ?_)
  refine ⟨?_, ?_, ?_, ?_, ?_, trivial⟩ <;> rintro s ⟨rfl⟩
  · exact trivial
  · exact ⟨_, rfl, .inr ⟨.inl trivial, .inr rfl⟩⟩
  · exact trivial
  · exact .inr (.inl (by decide))
  · exact trivial

/-- `type` clears the text of the join only: the query returns the text it has kept. -/
theorem not_current_left :
    ¬∀ (grow : Nat → Nat) (s : References), s.Settled → ∀ calls,
      ∀ t ∈ ((referenceMachine grow).run (some s) calls).2, t.Right := by
  intro h
  have hright := h id { query := (SelectConstructor.session 0 { impl_ := .sqlite }).build }
    ⟨SelectQuery.settled_build (.session 0 { impl_ := .sqlite }),
      JoinClause.settled_of_empty .default rfl⟩
    [.join "orders" .inner, .toSql, .edit (.member 0) (.type .left), .toSql]
  exact absurd (hright _ (.tail _ (.head _))) (by decide)

end References

end CodaDb
