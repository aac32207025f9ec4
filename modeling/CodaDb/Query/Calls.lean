import CodaDb.Query.Rounds

/-!
# The calls of a program on its queries

The queries of all four classes at their addresses, and what a program does with them: it
constructs, sets, executes, resets, copies, moves and assigns them. A record tells which of the
statements they have were prepared and bound without an exception.
-/

namespace CodaDb

inductive InsertEdit where
  | columns (value : List String)
  | into (value : String)
  | values (value : List SqlValue)
  | valuesMap (value : NamedParams)
  | value (value : SqlValue)
  | valueNamed (name : String) (value : SqlValue)

def InsertEdit.apply : InsertEdit → InsertQuery → InsertQuery
  | .columns v, q => q.columns v
  | .into v, q => q.into v
  | .values v, q => q.values v
  | .valuesMap v, q => q.valuesMap v
  | .value v, q => q.value v
  | .valueNamed name v, q => q.valueNamed name v

inductive UpdateEdit where
  | table (value : String)
  | columns (value : List String)
  | column (value : String)
  | values (value : List SqlValue)
  | valuesMap (value : NamedParams)
  | value (value : SqlValue)
  | valueNamed (name : String) (value : SqlValue)

def UpdateEdit.apply : UpdateEdit → UpdateQuery → UpdateQuery
  | .table v, q => q.table v
  | .columns v, q => q.columns v
  | .column v, q => q.column v
  | .values v, q => q.values v
  | .valuesMap v, q => q.valuesMap v
  | .value v, q => q.value v
  | .valueNamed name v, q => q.valueNamed name v

namespace WhereQuery

/-- `where(const where_clause &)` -/
def whereClause (q : WhereQuery) (value : WhereClause) : WhereQuery :=
  (q.withWhere { q.where_ with toWhereClause := value }).withBase q.base.setModified

end WhereQuery

namespace AnyQuery

def withBase (base : Query) : AnyQuery → AnyQuery
  | .insert q => .insert { q with toQuery := base }
  | .where q => .where (q.withBase base)

/-- The queries that the constructors build. -/
inductive Constructed : AnyQuery → Prop where
  | insert (s : Session) (tableName : String) (columns : List String) :
      Constructed (.insert (.ofSession s tableName columns))
  | «where» {q : WhereQuery} (h : q.Constructed) : Constructed (.where q)

/-- The non-const `to_sql`, which keeps the text it returns. -/
def memoise (q : AnyQuery) : AnyQuery :=
  match q.toSql with
  | none => q
  | some sql => q.withBase { q.base with sql_ := sql }

/-- `bind(const std::vector<sql_value> &, size_t)` -/
def bindAll (q : AnyQuery) (values : List SqlValue) (index : Nat) : AnyQuery :=
  q.withBase (q.base.bindAll values index).1

/-- `bind(const std::unordered_map<std::string, sql_value> &)` -/
def bindMap (q : AnyQuery) (values : NamedParams) : AnyQuery :=
  q.withBase (q.base.bindMap values)

/-- The copy constructor of the class. -/
def copy : AnyQuery → AnyQuery
  | .insert q => .insert q.copy
  | .where q => .where q.copy

/-- The move constructor of the class: the new object. -/
def move (q : AnyQuery) : AnyQuery := q.withBase q.base.move

/-- A moved object has no session and no statement, whatever is left of it. -/
def moved (rest : AnyQuery) : AnyQuery :=
  rest.withBase { rest.base with session_ := none, stmt_ := none }

/-- The move assignments of the insert and the delete query pass the source on by its name, so that
what all queries have is copied. -/
def emptied : AnyQuery → Bool
  | .insert _ | .where (.delete _) => false
  | .where (.select _) | .where (.update _) => true

/-- What a move assignment leaves of its source. -/
def moveAssigned (source rest : AnyQuery) : AnyQuery :=
  if source.emptied then rest.moved else rest.withBase source.base

/-- `reset` -/
def reset (e : Engine) : AnyQuery → AnyQuery
  | .where (.select q) => .where (.select (q.reset e))
  | q => q.withBase q.base.reset

/-- What `execute` asks of the query before it does anything; a select query is not asked. -/
def checked : AnyQuery → Bool
  | .insert q => q.isValid
  | .where (.select _) => true
  | .where (.update q) => q.isValid
  | .where (.delete q) => q.isValid

/-- `execute`: the query afterwards and the statement that was run, unless an exception came first;
`none` if the rendering fails. -/
def execute (d : Driver) (e : Engine) : AnyQuery → Option (AnyQuery × Option Statement)
  | .insert q => (q.execute d e).map fun r => (.insert r.1, r.2.1)
  | .where (.select q) => some (.where (.select (q.execute d).1), (q.execute d).2)
  | .where (.update q) => (q.execute d e).map fun r => (.where (.update r.1), r.2.1)
  | .where (.delete q) => (q.execute d e).map fun r => (.where (.delete r.1), r.2.1)

/-- An execution gets as far as to create a statement. -/
def prepares (q : AnyQuery) : Bool := q.checked && q.base.cache.stale

end AnyQuery

/-- The setters; those of another class are not called. -/
inductive QueryEdit where
  | select (e : SelectEdit)
  | insert (e : InsertEdit)
  | update (e : UpdateEdit)
  | from (value : String)
  | whereClause (value : WhereClause)
  | bindAll (values : List SqlValue) (index : Nat)
  | bindMap (values : NamedParams)

def QueryEdit.apply : QueryEdit → AnyQuery → AnyQuery
  | .select e, .where (.select q) => .where (.select (e.apply q))
  | .insert e, .insert q => .insert (e.apply q)
  | .update e, .where (.update q) => .where (.update (e.apply q))
  | .from value, .where (.delete q) => .where (.delete (q.from value))
  | .whereClause value, .where q => .where (q.whereClause value)
  | .bindAll values index, q => q.bindAll values index
  | .bindMap values, q => q.bindMap values
  | _, q => q

/-- The queries at their addresses, and which of them have a statement that was prepared and
bound. -/
structure Queries where
  query : Addr → AnyQuery
  loaded : Addr → Bool

namespace Queries

/-- Another query at an address, with the same statement. -/
def put (s : Queries) (a : Addr) (q : AnyQuery) : Queries :=
  { s with query := Function.update s.query a q }

/-- Another query at an address, with a statement that was prepared and bound or not. -/
def putLoaded (s : Queries) (a : Addr) (q : AnyQuery) (loaded : Bool) : Queries :=
  { query := Function.update s.query a q, loaded := Function.update s.loaded a loaded }

/-- `where(op)`, `where() && op` and `where() || op` on the object at `c`, which binds through the
pointer of its where builder. -/
def append (s : Queries) (c : Addr) (how : Connective) (o : SqlOperator) : Queries :=
  match s.query c with
  | .insert _ => s
  | .where q =>
    let binder := s.query q.where_.binder_
    match q.where_.append how binder.base o with
    | .error _ => s
    | .ok (w, base) =>
      let s := s.put q.where_.binder_ (binder.withBase base)
      match s.query c with
      | .insert _ => s
      | .where q =>
        let q := q.withWhere w
        match how with
        | .reset => s.put c (.where (q.withBase q.base.setModified))
        | .and | .or => s.put c (.where q)

end Queries

inductive QueryOp where
  | construct (a : Addr) (q : { q : AnyQuery // q.Constructed })
  | edit (a : Addr) (e : QueryEdit)
  | append (a : Addr) (how : Connective) (o : SqlOperator)
  /-- what is done through the references that `where()` and `join()` return -/
  | refer (a : Addr) (rest : AnyQuery)
  | toSql (a : Addr)
  | execute (a : Addr) (d : Driver) (e : Engine)
  | count (a : Addr) (d : Driver) (answer : Statement → Except DbException Int)
  | reset (a : Addr) (e : Engine)
  | copy (a b : Addr)
  | move (a b : Addr) (rest : AnyQuery)
  | assign (a b : Addr)
  | moveAssign (a b : Addr) (rest : AnyQuery)

/-- A program on its queries. An execution that the driver refuses reports the query that is
left. -/
def queryMachine : Machine Queries QueryOp AnyQuery where
  step
    | s, .construct a q => (s.put a q, [])
    | s, .edit a e => (s.put a (e.apply (s.query a)), [])
    | s, .append a how o => (s.append a how o, [])
    | s, .refer a rest => (s.put a (rest.withBase (s.query a).base), [])
    | s, .toSql a => (s.put a (s.query a).memoise, [])
    | s, .execute a d e =>
      match (s.query a).execute d e with
      | none => (s, [])
      | some (q, stmt) =>
        if (s.query a).prepares then
          (s.putLoaded a q stmt.isSome, if stmt.isNone then [q] else [])
        else (s.put a q, [])
    | s, .count a d answer =>
      match s.query a with
      | .where (.select q) =>
        let r := q.count d answer
        if q.cache.stale then (s.putLoaded a (.where (.select r.1)) r.2.1.isSome, [])
        else (s.put a (.where (.select r.1)), [])
      | _ => (s, [])
    | s, .reset a e => (s.put a ((s.query a).reset e), [])
    | s, .copy a b => (s.putLoaded a (s.query b).copy (s.loaded b), [])
    | s, .move a b rest =>
      ((s.put b rest.moved).putLoaded a (s.query b).move (s.loaded b), [])
    | s, .assign a b =>
      match (s.query a).assign (s.query b) with
      | none => (s, [])
      | some q => (s.putLoaded a q (s.loaded b), [])
    | s, .moveAssign a b rest =>
      match (s.query a).assign (s.query b) with
      | none => (s, [])
      -- the source is emptied last, also when it is the target
      | some q =>
        ((s.putLoaded a q (s.loaded b)).put b ((s.query b).moveAssigned rest), [])

namespace Query

/-- A setter keeps the statement and at most marks the query modified. -/
def Edited (q q' : Query) : Prop := q'.stmt_ = q.stmt_ ∧ (q.dirty_ = true → q'.dirty_ = true)

lemma Edited.refl (q : Query) : Edited q q := ⟨rfl, id⟩

lemma Edited.trans {q q' q'' : Query} (h : Edited q q') (h' : Edited q' q'') : Edited q q'' :=
  ⟨h'.1.trans h.1, fun hdirty => h'.2 (h.2 hdirty)⟩

lemma edited_setModified (q : Query) : Edited q q.setModified := ⟨rfl, fun _ => rfl⟩

lemma edited_bindAll (q : Query) (values : List SqlValue) (index : Nat) :
    Edited q (q.bindAll values index).1 := by
  rcases q.bindAll_cases values index with h | ⟨params, h⟩
  · rw [h]
    exact .refl q
  · rw [h]
    exact ⟨rfl, fun _ => rfl⟩

lemma edited_bindMap (q : Query) (values : NamedParams) : Edited q (q.bindMap values) := by
  rcases q.bindMap_cases values with h | ⟨named, h⟩
  · rw [h]
    exact .refl q
  · rw [h]
    exact ⟨rfl, fun _ => rfl⟩

lemma edited_bindNext (q : Query) (value : SqlValue) : Edited q (q.bindNext value) := by
  rw [bindNext_eq]
  exact ⟨rfl, fun _ => rfl⟩

lemma edited_boundBy (q : Query) (o : SqlOperator) : Edited q (WhereBuilder.boundBy q o) := by
  rw [WhereBuilder.boundBy]
  split
  · exact .refl q
  · exact ⟨rfl, fun _ => rfl⟩

end Query

open Query

namespace AnyQuery

@[simp] lemma base_withBase (b : Query) (q : AnyQuery) : (q.withBase b).base = b := by
  cases q with
  | insert q => rfl
  | «where» q => exact WhereQuery.base_withBase b q

@[simp] lemma base_copy (q : AnyQuery) : q.copy.base = q.base.copy := by
  cases q with
  | insert q => rfl
  | «where» q => cases q <;> rfl

/-- A rendering is kept, and nothing else changes. -/
lemma edited_memoise (q : AnyQuery) : Edited q.base q.memoise.base := by
  rw [memoise]
  cases q.toSql with
  | none => exact .refl _
  | some sql =>
    dsimp only
    rw [base_withBase]
    exact ⟨rfl, id⟩

lemma Constructed.stmt {q : AnyQuery} (h : q.Constructed) : q.base.stmt_ = none := by
  cases h with
  | insert => rfl
  | «where» h =>
    cases h with
    | select c => cases c <;> rfl
    | update | updateSchema | delete => rfl

end AnyQuery

lemma SelectEdit.edited (e : SelectEdit) (q : SelectQuery) :
    Edited q.toQuery (e.apply q).toQuery := by
  cases e with
  | column value =>
    rw [apply, SelectQuery.column]
    split
    · exact .refl _
    · exact edited_setModified _
  | «where» how o =>
    rw [apply, SelectQuery.append, WhereBuilder.append_eq]
    have hbound := edited_boundBy q.toQuery o.1
    cases how with
    | reset => exact hbound.trans (edited_setModified _)
    | and | or => exact hbound
  | bindAll values index => exact edited_bindAll q.toQuery values index
  | bindMap values => exact edited_bindMap q.toQuery values
  | _ => exact edited_setModified _

lemma InsertEdit.edited (e : InsertEdit) (q : InsertQuery) :
    Edited q.toQuery (e.apply q).toQuery := by
  cases e with
  | columns | into => exact edited_setModified _
  | values value => exact (edited_bindAll q.toQuery value 1).trans (edited_setModified _)
  | valuesMap value => exact (edited_bindMap q.toQuery value).trans (edited_setModified _)
  | value value => exact (edited_bindNext q.toQuery value).trans (edited_setModified _)
  | valueNamed name value => exact ⟨rfl, fun _ => rfl⟩

lemma UpdateEdit.edited (e : UpdateEdit) (q : UpdateQuery) :
    Edited q.toQuery (e.apply q).toQuery := by
  cases e with
  | table | columns => exact edited_setModified _
  | column value =>
    rw [apply, UpdateQuery.column]
    split
    · exact .refl _
    · exact edited_setModified _
  | values value => exact (edited_bindAll q.toQuery value 1).trans (edited_setModified _)
  | valuesMap value => exact (edited_bindMap q.toQuery value).trans (edited_setModified _)
  | value value => exact (edited_bindNext q.toQuery value).trans (edited_setModified _)
  | valueNamed name value => exact ⟨rfl, fun _ => rfl⟩

lemma QueryEdit.edited (e : QueryEdit) (q : AnyQuery) : Edited q.base (e.apply q).base := by
  cases e with
  | select e =>
    cases q with
    | insert q => exact .refl _
    | «where» q =>
      cases q with
      | select q => exact e.edited q
      | update | delete => exact .refl _
  | insert e =>
    cases q with
    | insert q => exact e.edited q
    | «where» q => exact .refl _
  | update e =>
    cases q with
    | insert q => exact .refl _
    | «where» q =>
      cases q with
      | update q => exact e.edited q
      | select | delete => exact .refl _
  | «from» value =>
    cases q with
    | insert q => exact .refl _
    | «where» q =>
      cases q with
      | delete q => exact edited_setModified _
      | select | update => exact .refl _
  | whereClause value =>
    cases q with
    | insert q => exact .refl _
    | «where» q =>
      cases q <;> exact edited_setModified _
  | bindAll values index =>
    rw [apply, AnyQuery.bindAll, AnyQuery.base_withBase]
    exact edited_bindAll q.base values index
  | bindMap values =>
    rw [apply, AnyQuery.bindMap, AnyQuery.base_withBase]
    exact edited_bindMap q.base values

namespace Queries

lemma put_query (s : Queries) (a x : Addr) (q : AnyQuery) :
    (s.put a q).query x = if x = a then q else s.query x := Function.update_apply ..

lemma putLoaded_query (s : Queries) (a x : Addr) (q : AnyQuery) (loaded : Bool) :
    (s.putLoaded a q loaded).query x = if x = a then q else s.query x := Function.update_apply ..

lemma putLoaded_loaded (s : Queries) (a x : Addr) (q : AnyQuery) (loaded : Bool) :
    (s.putLoaded a q loaded).loaded x = if x = a then loaded else s.loaded x :=
  Function.update_apply ..

lemma edited_put {s : Queries} {a : Addr} {q : AnyQuery} (h : Edited (s.query a).base q.base)
    (x : Addr) : Edited (s.query x).base ((s.put a q).query x).base := by
  rw [put_query]
  split
  · next hx => exact hx ▸ h
  · exact .refl _

/-- An append edits the query it binds into and the one it is called on. -/
lemma edited_append (s : Queries) (c x : Addr) (how : Connective) (o : SqlOperator) :
    Edited (s.query x).base ((s.append c how o).query x).base := by
  rw [append]
  cases hq : s.query c with
  | insert q => exact .refl _
  | «where» q =>
    simp only [WhereBuilder.append_eq]
    have hbound : ∀ x, Edited (s.query x).base ((s.put q.where_.binder_
        ((s.query q.where_.binder_).withBase
          (WhereBuilder.boundBy (s.query q.where_.binder_).base o))).query x).base :=
      edited_put (by rw [AnyQuery.base_withBase]; exact edited_boundBy _ o)
    generalize s.put q.where_.binder_ _ = s' at hbound ⊢
    cases hq' : s'.query c with
    | insert q' => exact hbound x
    | «where» q' =>
      have hbase : ∀ b : Query, Edited q'.base b → Edited (s'.query c).base b := by
        intro b hb
        rw [hq']
        exact hb
      cases how with
      | reset =>
        refine (hbound x).trans (edited_put (hbase _ ?_) x)
        simp only [AnyQuery.base, WhereQuery.base_withBase, WhereQuery.base_withWhere]
        exact edited_setModified _
      | and | or =>
        refine (hbound x).trans (edited_put (hbase _ ?_) x)
        simp only [AnyQuery.base, WhereQuery.base_withWhere]
        exact .refl _

/-- An append leaves the record alone. -/
lemma append_loaded (s : Queries) (c : Addr) (how : Connective) (o : SqlOperator) :
    (s.append c how o).loaded = s.loaded := by
  rw [append]
  cases s.query c with
  | insert q => rfl
  | «where» q =>
    simp only [WhereBuilder.append_eq]
    generalize hs : s.put q.where_.binder_ _ = s'
    have hloaded : s'.loaded = s.loaded := hs ▸ rfl
    cases s'.query c with
    | insert q' => exact hloaded
    | «where» q' => cases how <;> exact hloaded

end Queries

end CodaDb
