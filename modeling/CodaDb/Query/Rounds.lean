import CodaDb.Query.SelectRun
import CodaDb.Query.Assign

/-!
# Rounds of one query

A query is set up, executed, set up again and executed again. An execution clears the parameters but
not the conditions, whose placeholders keep their numbers. Here is the run of such rounds on a query
that is neither a copy nor moved from, with a record of what each placeholder was rendered for, and
a condition on the rounds under which each of them is bound to that. MySQL does not read the numbers
but counts the placeholders, so there they also have to be numbered in their order.
-/

namespace CodaDb

open SqlText

/-- The calls that set up a query between two executions. -/
inductive RoundCall where
  | columns (value : List String)
  /-- one of the names that `columns` appends; it skips the empty ones -/
  | column (value : String) (hvalue : value ≠ "")
  | values (value : List SqlValue)
  | where (o : UnnamedOperator)
  | and (o : UnnamedOperator)

namespace RoundCall

def isValues : RoundCall → Bool
  | .values _ => true
  | .columns _ | .column _ _ | .where _ | .and _ => false

def isCondition : RoundCall → Bool
  | .where _ | .and _ => true
  | .columns _ | .column _ _ | .values _ => false

end RoundCall

namespace WhereQuery

/-- `columns`, which a delete query does not have. -/
def columns (value : List String) : WhereQuery → WhereQuery
  | .select q => .select (q.columns value)
  | .update q => .update (q.columns value)
  | .delete q => .delete q

def column (value : String) : WhereQuery → WhereQuery
  | .select q => .select (q.column value)
  | .update q => .update (q.column value)
  | .delete q => .delete q

/-- `values`, which only an update query has. -/
def values (value : List SqlValue) : WhereQuery → WhereQuery
  | .select q => .select q
  | .update q => .update (q.values value)
  | .delete q => .delete q

/-- `where(op)` and `where() && op` on a query its own builder binds into. -/
def append (how : Connective) (o : SqlOperator) : WhereQuery → WhereQuery
  | .select q => .select (q.append how o)
  | .update q => .update (q.append how o)
  | .delete q => .delete (q.append how o)

def call (q : WhereQuery) : RoundCall → WhereQuery
  | .columns value => q.columns value
  | .column value _ => q.column value
  | .values value => q.values value
  | .where o => q.append .reset o
  | .and o => q.append .and o

/-- `execute`, and for a select query `reset` behind it: the query afterwards and the statement that
was run, unless an exception came first. -/
def executeRound (d : Driver) (e : Engine) : WhereQuery → Option (WhereQuery × Option Statement)
  | .select q =>
    match q.execute d with
    | (q, none) => some (.select q, none)
    | (q, some stmt) => some (.select (q.reset e), some stmt)
  | .update q => (q.execute d e).map fun r => (.update r.1, r.2.1)
  | .delete q => (q.execute d e).map fun r => (.delete r.1, r.2.1)

/-- The number of columns that are assigned to. -/
def assigned : WhereQuery → Nat
  | .update q => q.columns_.length
  | .select _ | .delete _ => 0

/-- An update query. -/
def IsUpdate : WhereQuery → Prop
  | .update _ => True
  | .select _ | .delete _ => False

/-- A query that was not moved from, and for a select query one without joins and a union, which the
calls of a round keep so. -/
def Plain (q : WhereQuery) : Prop :=
  (∃ session, q.base.session_ = some session) ∧
    match q with
    | .select q => q.join_ = [] ∧ q.union_ = none
    | .update _ | .delete _ => True

/-- On MySQL the placeholders of the conditions are numbered in their order, behind those of the
columns. -/
def Counted (q : WhereQuery) : Prop :=
  ∀ session, q.base.session_ = some session → session.impl_ = .mysql →
    q.where_.toSql.placeholders =
      List.range' (q.assigned + 1) q.where_.toSql.placeholders.length

/-- The queries that the constructors build. -/
inductive Constructed : WhereQuery → Prop where
  | select (c : SelectConstructor) : Constructed (.select c.build)
  | update (self : Addr) (s : Session) (tableName : String) (columns : List String) :
      Constructed (.update (.ofSession self s tableName columns))
  | updateSchema (self : Addr) (s : Schema) (columns : List String) :
      Constructed (.update (.ofSchema self s columns))
  | delete (self : Addr) (s : Session) (tableName : String) :
      Constructed (.delete (.ofSession self s tableName))

end WhereQuery

/-- What the placeholders of a query were rendered for: the values given for the columns, in their
order, and each number in the conditions with the operand of its condition. -/
structure Rendered where
  columns : List SqlValue := []
  conditions : List (Nat × SqlValue) := []

namespace Rendered

/-- The values given for the columns are forgotten when the query is set up again after its
parameters were cleared. -/
def start (g : Rendered) (q : WhereQuery) (calls : List RoundCall) : Rendered :=
  if calls ≠ [] ∧ q.base.params_ = [] then { g with columns := [] } else g

/-- The placeholder of the condition that an append to `q` renders, with the operand. -/
def condition (q : WhereQuery) (o : UnnamedOperator) : List (Nat × SqlValue) :=
  (q.where_.condition q.base o.1).placeholders.map fun n => (n, o.operand)

/-- The record after a call on `q`. -/
def call (g : Rendered) (q : WhereQuery) : RoundCall → Rendered
  | .columns _ | .column _ _ => g
  | .values value =>
    match q with
    | .update _ => { g with columns := value ++ g.columns.drop value.length }
    | .select _ | .delete _ => g
  | .where o => { g with conditions := condition q o }
  | .and o => { g with conditions := g.conditions ++ condition q o }

end Rendered

/-- No values behind a condition. -/
def Ordered (calls : List RoundCall) : Prop :=
  calls.Pairwise fun a b => a.isCondition = true → b.isValues = false

/-- A round: calls with no values behind a condition, and the answers of the driver and the
database to the execution. -/
structure Round where
  calls : List RoundCall
  ordered : Ordered calls
  driver : Driver := {}
  engine : Engine

/-- A call on a query, with the record of what it renders. -/
def callWith (s : WhereQuery × Rendered) (call : RoundCall) : WhereQuery × Rendered :=
  (s.1.call call, s.2.call s.1 call)

def setUpBy (s : WhereQuery × Rendered) (calls : List RoundCall) : WhereQuery × Rendered :=
  calls.foldl callWith (s.1, s.2.start s.1 calls)

/-- Rounds on a query. An execution reports the query it was called on, with the record, and the
statement it ran. -/
def roundMachine :
    Machine (WhereQuery × Rendered) Round ((WhereQuery × Rendered) × Statement) where
  step s round :=
    let s' := setUpBy s round.calls
    match s'.1.executeRound round.driver round.engine with
    | none => (s', [])
    | some (q, none) => ((q, s'.2), [])
    | some (q, some stmt) => ((q, s'.2), [(s', stmt)])

/-- Each placeholder of the SQL of a statement is the one of a column or of a condition, leads the
back end to one of the bound parameters, and this is what it was rendered for. -/
structure BindsRendered (impl : SessionImpl) (q : WhereQuery) (g : Rendered) (stmt : Statement)
    (text : SqlText) : Prop where
  placeholders : text.placeholders = List.range' 1 q.assigned ++ g.conditions.map Prod.fst
  columns : ∀ i < q.assigned, ∃ v, g.columns[i]? = some v ∧
    stmt.bound (impl.slot i (i + 1)) = some v
  conditions : ∀ (i : Nat) p, g.conditions[i]? = some p →
    stmt.bound (impl.slot (q.assigned + i) p.1) = some p.2
  count : ∃ m, (∀ i, (stmt.bound i).isSome ↔ 1 ≤ i ∧ i ≤ m) ∧
    ∀ (i : Nat) n, text.placeholders[i]? = some n → impl.slot i n ≤ m

/-- A statement with SQL binds what was rendered, as the back end of the query reads it. -/
def Binds (q : WhereQuery) (g : Rendered) (stmt : Statement) : Prop :=
  ∃ session, q.base.session_ = some session ∧
    ∀ text, stmt.sql = some text → BindsRendered session.impl_ q g stmt text

/-- The round runs a statement again that is up to date; or it sets the conditions anew, or it
starts with the parameters of all conditions and its values do not reach them, as many values were
given as columns are assigned to, and on MySQL the conditions are numbered in their order. -/
def Renews (s : WhereQuery × Rendered) (round : Round) : Prop :=
  round.calls = [] ∧ s.1.base.cache.stale = false ∨
    ((∃ o, .where o ∈ round.calls) ∨
      ∀ n ∈ s.1.where_.toSql.placeholders, n ≤ s.1.base.params_.length ∧
        ∀ value, .values value ∈ round.calls → value.length < n) ∧
    (setUpBy s round.calls).1.assigned ≤ (setUpBy s round.calls).2.columns.length ∧
    (setUpBy s round.calls).1.Counted

namespace WhereQuery

/-! ### Setting up -/

variable {q : WhereQuery} {g : Rendered}

/-- An append extends the conditions and binds the operand. -/
lemma append_unnamed (how : Connective) (o : UnnamedOperator) (q : WhereQuery) :
    q.append how o.1 =
      (q.withWhere { q.where_ with
        toWhereClause := WhereBuilder.extend how q.where_.toWhereClause
          (q.where_.condition q.base o.1) }).withBase
        (Query.setModified { q.base with params_ := q.base.params_ ++ [o.operand] }) := by
  cases q with
  | select q =>
    simp only [append, SelectQuery.append, WhereBuilder.append_eq, WhereBuilder.boundBy_unnamed]
    cases how <;> rfl
  | update q =>
    simp only [append, UpdateQuery.append, WhereBuilder.append_eq, WhereBuilder.boundBy_unnamed]
    cases how <;> rfl
  | delete q =>
    simp only [append, DeleteQuery.append, WhereBuilder.append_eq, WhereBuilder.boundBy_unnamed]
    cases how <;> rfl

/-- A rendering has the placeholders of the columns and those of the conditions. -/
lemma Plain.placeholders (hq : q.Plain) :
    ∃ text, q.generateSql = some text ∧ text.placeholders =
      List.range' 1 q.assigned ++ if q.where_.empty then [] else q.where_.toSql.placeholders := by
  cases q with
  | select q =>
    have hwhere : where_ (.select q) = q.where_ := rfl
    refine ⟨_, rfl, ?_⟩
    rw [SelectQuery.generateSql_eq, placeholders_append, SelectQuery.placeholders_coreSql, hq.2.1,
      hq.2.2, hwhere]
    simp [assigned, SelectQuery.unionSql]
  | update q =>
    obtain ⟨⟨session, hsession⟩, -⟩ := hq
    have hwhere : where_ (.update q) = q.where_ := rfl
    refine ⟨_, UpdateQuery.generateSql_eq hsession, ?_⟩
    rw [hwhere]
    cases hcolumns : q.columns_ <;>
      simp [assigned, hcolumns, apply_ite SqlText.placeholders]
  | delete q =>
    have hwhere : where_ (.delete q) = q.where_ := rfl
    refine ⟨_, rfl, ?_⟩
    rw [hwhere]
    simp [assigned, DeleteQuery.generateSql, apply_ite SqlText.placeholders]

/-- What the calls of a round keep. -/
structure Sound (q : WhereQuery) (g : Rendered) : Prop where
  plain : q.Plain
  memo : q.base.sql_.render = "" ∨ q.generateSql = some q.base.sql_
  named : q.base.namedParams_ = ∅
  clean : q.base.dirty_ = false → q.base.params_ = []
  clause : ∃ ts, q.where_.Conjunction ts ∧ ts.flatMap placeholders = g.conditions.map Prod.fst
  positive : ∀ p ∈ g.conditions, 1 ≤ p.1
  others : ¬q.IsUpdate → g.columns = []

/-- The first parameters are the values given for the columns. -/
def HoldsColumns (q : WhereQuery) (g : Rendered) : Prop :=
  ∀ (i : Nat) v, g.columns[i]? = some v → q.base.params_[i]? = some v

/-- The parameters are the operands of the conditions, at their numbers. -/
def HoldsConditions (q : WhereQuery) (g : Rendered) : Prop :=
  ∀ p ∈ g.conditions, q.base.params_[p.1 - 1]? = some p.2

lemma Sound.of_modified (hs : Sound q g) {q' : WhereQuery} {g' : Rendered}
    {params : List SqlValue}
    (hbase : q'.base = Query.setModified { q.base with params_ := params }) (hplain : q'.Plain)
    (hwhere : q'.where_ = q.where_) (hupdate : q'.IsUpdate ↔ q.IsUpdate)
    (hconditions : g'.conditions = g.conditions) (hcolumns : ¬q.IsUpdate → g'.columns = []) :
    Sound q' g' := by
  refine ⟨hplain, .inl ?_, ?_, ?_, ?_, ?_, fun h => hcolumns (hupdate.not.mp h)⟩
  · rw [hbase]
    rfl
  · rw [hbase]
    exact hs.named
  · simp [hbase, Query.setModified]
  · rw [hwhere, hconditions]
    exact hs.clause
  · rw [hconditions]
    exact hs.positive

/-- A call marks the query modified, unless it is one the query does not have. -/
lemma call_modified (q : WhereQuery) (g : Rendered) (call : RoundCall) :
    (q.call call = q ∧ g.call q call = g ∧ ¬q.IsUpdate) ∨ (q.call call).base.dirty_ = true := by
  cases call with
  | columns value =>
    cases q with
    | select q => exact .inr rfl
    | update q => exact .inr rfl
    | delete q => exact .inl ⟨rfl, rfl, id⟩
  | column value hvalue =>
    cases q with
    | select q => exact .inr (by rw [WhereQuery.call, column, SelectQuery.column_eq q hvalue]; rfl)
    | update q => exact .inr (by rw [WhereQuery.call, column, UpdateQuery.column_eq q hvalue]; rfl)
    | delete q => exact .inl ⟨rfl, rfl, id⟩
  | values value =>
    cases q with
    | select q => exact .inl ⟨rfl, rfl, id⟩
    | update q => exact .inr rfl
    | delete q => exact .inl ⟨rfl, rfl, id⟩
  | «where» o | and o =>
    refine .inr ?_
    rw [WhereQuery.call, append_unnamed, base_withBase]
    rfl

lemma condition_eq (q : WhereQuery) (o : UnnamedOperator) :
    Rendered.condition q o = [(q.base.params_.length + 1, o.operand)] := by
  simp [Rendered.condition]

lemma Sound.append (hs : Sound q g) (how : Connective) (o : UnnamedOperator) {g' : Rendered}
    (hcolumns : g'.columns = g.columns)
    (hconditions : g'.conditions =
      match how with
      | .reset => Rendered.condition q o
      | .and | .or => g.conditions ++ Rendered.condition q o) :
    Sound (q.append how o.1) g' := by
  obtain ⟨ts, hts, hnumbers⟩ := hs.clause
  have hne := q.where_.condition_ne_empty q.base o.1
  have hplain : (q.append how o.1).Plain := by
    rw [append_unnamed]
    cases q <;> exact hs.plain
  have hupdate : (q.append how o.1).IsUpdate ↔ q.IsUpdate := by
    rw [append_unnamed]
    cases q <;> rfl
  refine ⟨hplain, .inl ?_, ?_, ?_, ?_, ?_, ?_⟩
  · rw [append_unnamed, base_withBase]
    rfl
  · rw [append_unnamed, base_withBase]
    exact hs.named
  · simp [append_unnamed, Query.setModified]
  · rw [append_unnamed, where_withBase, where_withWhere, hconditions]
    cases how with
    | reset => exact ⟨_, WhereClause.conjunction_resetText _ hne, by simp [Rendered.condition]⟩
    | and | or => exact ⟨_, hts.andText hne, by simp [hnumbers, Rendered.condition]⟩
  · rw [hconditions]
    cases how with
    | reset => simp [Rendered.condition]
    | and | or =>
      intro p hp
      rcases List.mem_append.mp hp with hp | hp
      · exact hs.positive p hp
      · rw [condition_eq, List.mem_singleton] at hp
        simp [hp]
  · rw [hcolumns, hupdate]
    exact hs.others

lemma Sound.call (hs : Sound q g) (call : RoundCall) : Sound (q.call call) (g.call q call) := by
  cases call with
  | columns value =>
    cases q with
    | select q =>
      have hsame : (q.columns value).toQuery = Query.setModified q.toQuery := rfl
      exact hs.of_modified hsame hs.plain rfl .rfl rfl hs.others
    | update q =>
      have hsame : (q.columns value).toQuery = Query.setModified q.toQuery := rfl
      exact hs.of_modified hsame hs.plain rfl .rfl rfl hs.others
    | delete q => exact hs
  | column value hvalue =>
    cases q with
    | select q =>
      rw [WhereQuery.call, column, SelectQuery.column_eq q hvalue]
      have hsame : q.toQuery.setModified =
          Query.setModified { q.toQuery with params_ := q.params_ } := rfl
      exact hs.of_modified hsame hs.plain rfl .rfl rfl hs.others
    | update q =>
      rw [WhereQuery.call, column, UpdateQuery.column_eq q hvalue]
      have hsame : q.toQuery.setModified =
          Query.setModified { q.toQuery with params_ := q.params_ } := rfl
      exact hs.of_modified hsame hs.plain rfl .rfl rfl hs.others
    | delete q => exact hs
  | values value =>
    cases q with
    | select q => exact hs
    | update q =>
      have hvalues : (q.values value).toQuery = Query.setModified
          { q.toQuery with params_ := value ++ q.params_.drop value.length } := by
        rw [UpdateQuery.values_eq]
        rfl
      obtain ⟨⟨session, hsession⟩, -⟩ := hs.plain
      have hkept : (q.values value).session_ = some session := by
        rw [hvalues]
        exact hsession
      exact hs.of_modified hvalues ⟨⟨session, hkept⟩, trivial⟩ rfl .rfl rfl (absurd trivial)
    | delete q => exact hs
  | «where» o => exact hs.append .reset o rfl rfl
  | and o => exact hs.append .and o rfl rfl

/-- The parameters after a call. -/
def paramsAfter (q : WhereQuery) : RoundCall → List SqlValue
  | .columns _ | .column _ _ => q.base.params_
  | .values value =>
    match q with
    | .update _ => value ++ q.base.params_.drop value.length
    | .select _ | .delete _ => q.base.params_
  | .where o | .and o => q.base.params_ ++ [o.operand]

lemma call_params (q : WhereQuery) (call : RoundCall) :
    (q.call call).base.params_ = q.paramsAfter call := by
  cases call with
  | columns value => cases q <;> rfl
  | column value hvalue =>
    cases q with
    | select q =>
      rw [WhereQuery.call, column, SelectQuery.column_eq q hvalue]
      rfl
    | update q =>
      rw [WhereQuery.call, column, UpdateQuery.column_eq q hvalue]
      rfl
    | delete q => rfl
  | values value =>
    cases q with
    | update q =>
      change (q.values value).params_ = _
      rw [UpdateQuery.values_eq]
      rfl
    | select | delete => rfl
  | «where» o | and o =>
    rw [WhereQuery.call, append_unnamed, base_withBase]
    rfl

lemma HoldsColumns.call (hc : HoldsColumns q g) (call : RoundCall) :
    HoldsColumns (q.call call) (g.call q call) := by
  rw [HoldsColumns, call_params]
  cases call with
  | columns | column => exact hc
  | values value =>
    cases q with
    | update q =>
      intro i v hv
      simp only [Rendered.call, paramsAfter] at hv ⊢
      by_cases hi : i < value.length
      · rwa [List.getElem?_append_left hi] at hv ⊢
      · rw [List.getElem?_append_right (Nat.le_of_not_lt hi), List.getElem?_drop] at hv ⊢
        exact hc _ v hv
    | select | delete => exact hc
  | «where» o | and o =>
    intro i v hv
    have hget := hc i v hv
    simp only [paramsAfter]
    rw [List.getElem?_append_left (List.getElem?_eq_some_iff.mp hget).1]
    exact hget

/-- A condition that is set anew is the only one, and its operand is bound behind the others. -/
lemma holdsConditions_where (q : WhereQuery) (g : Rendered) (o : UnnamedOperator) :
    HoldsConditions (q.call (.where o)) (g.call q (.where o)) := by
  rw [HoldsConditions, call_params]
  simp [Rendered.call, condition_eq, paramsAfter]

/-- The conditions keep their operands when the values do not reach them. -/
lemma HoldsConditions.call (hc : HoldsConditions q g) {call : RoundCall}
    (hcall : ∀ value, call = .values value → ∀ p ∈ g.conditions, value.length < p.1) :
    HoldsConditions (q.call call) (g.call q call) := by
  rw [HoldsConditions, call_params]
  cases call with
  | columns | column => exact hc
  | values value =>
    cases q with
    | update q =>
      intro p hp
      have hlt := hcall value rfl p hp
      simp only [paramsAfter]
      rw [List.getElem?_append_right (by omega), List.getElem?_drop]
      have hsub : value.length + (p.1 - 1 - value.length) = p.1 - 1 := by omega
      rw [hsub]
      exact hc p hp
    | select | delete => exact hc
  | «where» o =>
    rw [← call_params]
    exact holdsConditions_where q g o
  | and o =>
    intro p hp
    simp only [paramsAfter]
    rcases List.mem_append.mp hp with hp | hp
    · have hget := hc p hp
      rw [List.getElem?_append_left (List.getElem?_eq_some_iff.mp hget).1]
      exact hget
    · rw [condition_eq, List.mem_singleton] at hp
      simp [hp]

end WhereQuery

/-! ### Sequences of calls -/

section Calls

variable {s : WhereQuery × Rendered} {calls : List RoundCall}

lemma sound_calls (hs : s.1.Sound s.2) (calls : List RoundCall) :
    (calls.foldl callWith s).1.Sound (calls.foldl callWith s).2 := by
  induction calls generalizing s with
  | nil => exact hs
  | cons call calls ih => exact ih (s := callWith s call) (hs.call call)

lemma holdsColumns_calls (hc : s.1.HoldsColumns s.2) (calls : List RoundCall) :
    (calls.foldl callWith s).1.HoldsColumns (calls.foldl callWith s).2 := by
  induction calls generalizing s with
  | nil => exact hc
  | cons call calls ih => exact ih (s := callWith s call) (hc.call call)

/-- Conditions with numbers that no values reach keep their operands, and new ones get them. -/
lemma holdsConditions_calls (hc : s.1.HoldsConditions s.2) (hordered : Ordered calls)
    (hcalls : ∀ value, .values value ∈ calls → ∀ p ∈ s.2.conditions, value.length < p.1) :
    (calls.foldl callWith s).1.HoldsConditions (calls.foldl callWith s).2 := by
  induction calls generalizing s with
  | nil => exact hc
  | cons call calls ih =>
    obtain ⟨hfirst, hordered⟩ := List.pairwise_cons.mp hordered
    have hnext : (callWith s call).1.HoldsConditions (callWith s call).2 := by
      refine hc.call ?_
      rintro value rfl
      exact hcalls value (by simp)
    refine ih hnext hordered ?_
    intro value hvalue p hp
    have hnot : call.isCondition ≠ true := by
      intro hcondition
      have hvalues := hfirst _ hvalue hcondition
      simp [RoundCall.isValues] at hvalues
    have hsame : (callWith s call).2.conditions = s.2.conditions := by
      obtain ⟨q, g⟩ := s
      cases call with
      | columns | column => rfl
      | values value => cases q <;> rfl
      | «where» o | and o => exact absurd rfl hnot
    rw [hsame] at hp
    exact hcalls value (by simp [hvalue]) p hp

/-- Once the conditions were set anew all of them have their operands. -/
lemma holdsConditions_calls_where (hcalls : ∃ o, .where o ∈ calls) (hordered : Ordered calls) :
    (calls.foldl callWith s).1.HoldsConditions (calls.foldl callWith s).2 := by
  induction calls generalizing s with
  | nil => simp at hcalls
  | cons call calls ih =>
    obtain ⟨hfirst, htail⟩ := List.pairwise_cons.mp hordered
    obtain ⟨o, ho⟩ := hcalls
    rcases List.mem_cons.mp ho with rfl | ho
    · refine holdsConditions_calls (s := callWith s (.where o))
        (WhereQuery.holdsConditions_where s.1 s.2 o) htail ?_
      intro value hvalue
      have hvalues := hfirst _ hvalue rfl
      simp [RoundCall.isValues] at hvalues
    · exact ih ⟨o, ho⟩ htail

/-- Calls leave a query modified, unless there are none that it has. -/
lemma modified_calls (s : WhereQuery × Rendered) (calls : List RoundCall) :
    (calls.foldl callWith s = s ∧ (calls = [] ∨ ¬s.1.IsUpdate)) ∨
      (calls.foldl callWith s).1.base.dirty_ = true := by
  induction calls generalizing s with
  | nil => exact .inl ⟨rfl, .inl rfl⟩
  | cons call calls ih =>
    rcases ih (callWith s call) with ⟨hsame, -⟩ | hdirty
    · rw [List.foldl_cons, hsame]
      rcases WhereQuery.call_modified s.1 s.2 call with ⟨hquery, hrecord, hupdate⟩ | hdirty
      · exact .inl ⟨Prod.ext hquery hrecord, .inr hupdate⟩
      · exact .inr hdirty
    · exact .inr hdirty

end Calls

/-! ### The invariant -/

/-- What holds between rounds that renew what they run. -/
structure Invariant (s : WhereQuery × Rendered) : Prop where
  sound : s.1.Sound s.2
  columns : s.1.base.cache.stale = true → s.1.HoldsColumns s.2
  conditions : ∀ p ∈ s.2.conditions, p.1 ≤ s.1.base.params_.length →
    s.1.base.params_[p.1 - 1]? = some p.2
  kept : s.1.base.cache.stale = false → ∀ stmt, s.1.base.stmt_ = some stmt → Binds s.1 s.2 stmt

section Invariant

variable {s : WhereQuery × Rendered} {calls : List RoundCall}

lemma start_conditions (g : Rendered) (q : WhereQuery) (calls : List RoundCall) :
    (g.start q calls).conditions = g.conditions := by
  rw [Rendered.start]
  split <;> rfl

lemma Invariant.start (hs : Invariant s) (calls : List RoundCall) :
    s.1.Sound (s.2.start s.1 calls) := by
  refine ⟨hs.sound.plain, hs.sound.memo, hs.sound.named, hs.sound.clean, ?_, ?_, ?_⟩
  · rw [start_conditions]
    exact hs.sound.clause
  · rw [start_conditions]
    exact hs.sound.positive
  · intro hupdate
    rw [Rendered.start]
    split
    · rfl
    · exact hs.sound.others hupdate

/-- When a query is set up, its parameters hold the values given for its columns. -/
lemma Invariant.startColumns (hs : Invariant s) (hcalls : calls ≠ []) :
    s.1.HoldsColumns (s.2.start s.1 calls) := by
  rw [Rendered.start]
  split
  · simp [WhereQuery.HoldsColumns]
  · next hkept =>
    have hparams : s.1.base.params_ ≠ [] := fun h => hkept ⟨hcalls, h⟩
    have hdirty : s.1.base.dirty_ = true := by
      by_contra hclean
      exact hparams (hs.sound.clean (by simpa using hclean))
    exact hs.columns (Query.stale_of_dirty hdirty)

/-- A query that is set up is as it was, or is modified and holds the values for its columns. -/
lemma Invariant.setUp_cases (hs : Invariant s) (calls : List RoundCall) :
    setUpBy s calls = s ∨
      (setUpBy s calls).1.base.dirty_ = true ∧
        (setUpBy s calls).1.HoldsColumns (setUpBy s calls).2 := by
  by_cases hcalls : calls = []
  · subst hcalls
    refine .inl (Prod.ext rfl ?_)
    simp [setUpBy, Rendered.start]
  · rcases modified_calls (s.1, s.2.start s.1 calls) calls with ⟨hsame, hupdate⟩ | hdirty
    · refine .inl (hsame.trans (Prod.ext rfl ?_))
      have hother := hs.sound.others (hupdate.resolve_left hcalls)
      simp only [Rendered.start]
      split
      · rw [← hother]
      · rfl
    · exact .inr ⟨hdirty, holdsColumns_calls (hs.startColumns hcalls) calls⟩

lemma WhereQuery.Sound.placeholders {q : WhereQuery} {g : Rendered} (hs : q.Sound g) :
    q.where_.toSql.placeholders = g.conditions.map Prod.fst := by
  obtain ⟨ts, hts, hnumbers⟩ := hs.clause
  rw [hts.toSql_eq, hts.placeholders, hnumbers]

/-- A round that renews what it runs starts its execution with the parameters for all of it. -/
lemma Invariant.setUp (hs : Invariant s) {round : Round} (hround : Renews s round) :
    Invariant (setUpBy s round.calls) ∧
      ((setUpBy s round.calls).1.base.cache.stale = true →
        (setUpBy s round.calls).1.HoldsConditions (setUpBy s round.calls).2 ∧
        (setUpBy s round.calls).1.assigned ≤ (setUpBy s round.calls).2.columns.length ∧
        (setUpBy s round.calls).1.Counted) := by
  rcases hround with ⟨hcalls, hkept⟩ | ⟨hconditions, hcolumns⟩
  · have hsame : setUpBy s round.calls = s := by
      rw [hcalls]
      exact Prod.ext rfl (by simp [setUpBy, Rendered.start])
    rw [hsame]
    refine ⟨hs, ?_⟩
    intro hstale
    cases hkept.symm.trans hstale
  · have hholds : (setUpBy s round.calls).1.HoldsConditions (setUpBy s round.calls).2 := by
      rcases hconditions with hwhere | hreach
      · exact holdsConditions_calls_where hwhere round.ordered
      · have hmem : ∀ p ∈ s.2.conditions, p.1 ∈ s.1.where_.toSql.placeholders := by
          intro p hp
          rw [hs.sound.placeholders]
          exact List.mem_map_of_mem hp
        refine holdsConditions_calls ?_ round.ordered ?_
        · intro p hp
          rw [start_conditions] at hp
          exact hs.conditions p hp (hreach p.1 (hmem p hp)).1
        · intro value hvalue p hp
          rw [start_conditions] at hp
          exact (hreach p.1 (hmem p hp)).2 value hvalue
    refine ⟨⟨sound_calls (hs.start round.calls) round.calls, ?_, fun p hp _ => hholds p hp, ?_⟩,
      fun _ => ⟨hholds, hcolumns⟩⟩
    · rcases hs.setUp_cases round.calls with hsame | ⟨-, hheld⟩
      · rw [hsame]
        exact hs.columns
      · exact fun _ => hheld
    · rcases hs.setUp_cases round.calls with hsame | ⟨hdirty, -⟩
      · rw [hsame]
        exact hs.kept
      · intro hkept
        cases hkept.symm.trans (Query.stale_of_dirty hdirty)

end Invariant

/-! ### Executing -/

namespace WhereQuery

/-- The same query but for its base and what an execution counts. -/
structure SameBut (q q' : WhereQuery) : Prop where
  clause : q'.where_ = q.where_
  assigned : q'.assigned = q.assigned
  text : q'.generateSql = q.generateSql
  plain : q.Plain → q'.Plain
  update : q'.IsUpdate ↔ q.IsUpdate

/-- What `execute` can do to a query in a round: nothing, as it has no text or is not valid; fail to
prepare a statement; or run the statement there is or a new one and clear the parameters. -/
inductive Executes (q : WhereQuery) : Option (WhereQuery × Option Statement) → Prop where
  | unrendered : Executes q none
  | invalid : Executes q (some (q, none))
  | failed (q' : WhereQuery) (stmt : Statement) (text : SqlText) (hsame : SameBut q q')
      (htext : q.toSql = some text) (hstale : q.base.cache.stale = true)
      (hbase : q'.base = { q.base with sql_ := text, stmt_ := some stmt })
      (hstmt : stmt.sql = none ∨ q.base.params_ ≠ [] ∨ q.base.namedParams_ ≠ ∅) :
      Executes q (some (q', none))
  | ran (q' : WhereQuery) (stmt : Statement) (text : SqlText) (hsame : SameBut q q')
      (htext : q.toSql = some text)
      (hstmt : q.base.cache.stale = false ∧ q.base.stmt_ = some stmt ∨
        q.base.cache.stale = true ∧ stmt = q.base.statementFor text)
      (hreset : ∃ kept, q'.base =
        Query.reset { q.base with sql_ := text, stmt_ := kept } ∧
          (kept = some stmt ∨ kept = none ∧ ¬q.IsUpdate)) :
      Executes q (some (q', some stmt))

/-- A driver that accepts a text refuses a parameter at most. -/
lemma params_of_not_accepts {d : Driver} {text : String} {params : List SqlValue}
    {named : NamedParams} (hprep : d.prepare text = none) (hd : ¬d.Accepts text params named) :
    params ≠ [] ∨ named ≠ ∅ := by
  by_contra hnone
  push Not at hnone
  obtain ⟨rfl, rfl⟩ := hnone
  exact hd ⟨hprep, by simp, fun e he => by cases he⟩

lemma sameBut_select (q : SelectQuery) {base : Query} (h : base.session_ = q.session_) :
    SameBut (.select q) (.select { q with toQuery := base }) := by
  refine ⟨rfl, rfl, congrArg some (q.generateSql_base base), ?_, .rfl⟩
  rintro ⟨⟨session, hsession⟩, hjoins⟩
  exact ⟨⟨session, h.trans hsession⟩, hjoins⟩

lemma sameBut_update (q : UpdateQuery) {base : Query} (h : base.session_ = q.session_)
    (changes : Nat) :
    SameBut (.update q) (.update { q with toQuery := base, numChanges_ := changes }) := by
  refine ⟨rfl, rfl, ?_, ?_, .rfl⟩
  · simp only [generateSql, UpdateQuery.generateSql, h]
  · rintro ⟨⟨session, hsession⟩, -⟩
    exact ⟨⟨session, h.trans hsession⟩, trivial⟩

lemma sameBut_delete (q : DeleteQuery) {base : Query} (h : base.session_ = q.session_)
    (changes : Nat) :
    SameBut (.delete q) (.delete { q with toQuery := base, numChanges_ := changes }) := by
  refine ⟨rfl, rfl, rfl, ?_, .rfl⟩
  rintro ⟨⟨session, hsession⟩, -⟩
  exact ⟨⟨session, h.trans hsession⟩, trivial⟩

lemma Executes.update (q : UpdateQuery) (d : Driver) (e : Engine) :
    Executes (.update q) ((WhereQuery.update q).executeRound d e) := by
  by_cases hvalid : q.isValid = true
  case neg =>
    rw [executeRound, UpdateQuery.execute, if_neg hvalid]
    exact .invalid
  cases htext : q.toSql with
  | none =>
    rw [executeRound, UpdateQuery.execute, if_pos hvalid, htext]
    exact .unrendered
  | some text =>
    obtain ⟨changes, hexecute⟩ := UpdateQuery.execute_eq hvalid htext d e
    have hspec := q.toQuery.modify_spec d e text
    rw [executeRound, hexecute]
    generalize q.toQuery.modify d e text = r at hspec ⊢
    cases hspec with
    | refused ex hstale hd =>
      exact .failed _ {} text (sameBut_update q (by rfl) _) htext hstale rfl (.inl rfl)
    | unbound ex stmt hstale hprep hd hsql =>
      exact .failed _ stmt text (sameBut_update q (by rfl) _) htext hstale rfl
        (.inr (params_of_not_accepts hprep hd))
    | kept stmt hstale hstmt =>
      exact .ran _ stmt text (sameBut_update q (by rfl) _) htext (.inl ⟨hstale, hstmt⟩)
        ⟨_, rfl, .inl rfl⟩
    | loaded hstale hd =>
      exact .ran _ _ text (sameBut_update q (by rfl) _) htext (.inr ⟨hstale, rfl⟩)
        ⟨_, rfl, .inl rfl⟩

lemma Executes.delete (q : DeleteQuery) (d : Driver) (e : Engine) :
    Executes (.delete q) ((WhereQuery.delete q).executeRound d e) := by
  by_cases hvalid : q.isValid = true
  case neg =>
    rw [executeRound, DeleteQuery.execute, if_neg hvalid]
    exact .invalid
  cases htext : q.toSql with
  | none =>
    rw [executeRound, DeleteQuery.execute, if_pos hvalid, htext]
    exact .unrendered
  | some text =>
    obtain ⟨changes, hexecute⟩ := DeleteQuery.execute_eq hvalid htext d e
    have hspec := q.toQuery.modify_spec d e text
    rw [executeRound, hexecute]
    generalize q.toQuery.modify d e text = r at hspec ⊢
    cases hspec with
    | refused ex hstale hd =>
      exact .failed _ {} text (sameBut_delete q (by rfl) _) htext hstale rfl (.inl rfl)
    | unbound ex stmt hstale hprep hd hsql =>
      exact .failed _ stmt text (sameBut_delete q (by rfl) _) htext hstale rfl
        (.inr (params_of_not_accepts hprep hd))
    | kept stmt hstale hstmt =>
      exact .ran _ stmt text (sameBut_delete q (by rfl) _) htext (.inl ⟨hstale, hstmt⟩)
        ⟨_, rfl, .inl rfl⟩
    | loaded hstale hd =>
      exact .ran _ _ text (sameBut_delete q (by rfl) _) htext (.inr ⟨hstale, rfl⟩)
        ⟨_, rfl, .inl rfl⟩

/-- `reset` behind an execution drops the statement, unless the statement's own `reset` throws. -/
lemma select_reset (q : SelectQuery) (e : Engine) :
    ∃ kept, q.reset e = { q with toQuery := Query.reset { q.toQuery with stmt_ := kept } } ∧
      (kept = q.stmt_ ∨ kept = none) := by
  rw [SelectQuery.reset]
  split
  · exact ⟨_, rfl, .inl rfl⟩
  · exact ⟨_, rfl, .inl rfl⟩
  · exact ⟨none, rfl, .inr rfl⟩

/-- A select query that is prepared runs its statement. -/
lemma Executes.ofPrepare {q : SelectQuery} {d : Driver} {base : Query}
    (heq : q.prepare d = ({ q with toQuery := base }, .ok ())) {stmt : Statement}
    (hbase : base = { q.toQuery with sql_ := q.toSql, stmt_ := some stmt, dirty_ := base.dirty_ })
    (htext : (WhereQuery.select q).toSql = some q.toSql)
    (hstmt : q.cache.stale = false ∧ q.stmt_ = some stmt ∨
      q.cache.stale = true ∧ stmt = q.statementFor q.toSql) (e : Engine) :
    Executes (.select q) ((WhereQuery.select q).executeRound d e) := by
  have hround : (WhereQuery.select q).executeRound d e =
      some (.select (SelectQuery.reset { q with toQuery := base } e), some stmt) := by
    rw [hbase] at heq
    rw [executeRound, SelectQuery.execute, heq, hbase]
  obtain ⟨kept, hreset, hkept⟩ := select_reset { q with toQuery := base } e
  rw [hround, hreset]
  refine .ran _ stmt q.toSql (sameBut_select q (by rw [hbase]; rfl)) htext hstmt ⟨kept, ?_, ?_⟩
  · rw [hbase]
    rfl
  · rcases hkept with hkept | hkept
    · left
      rw [hkept, hbase]
    · exact .inr ⟨hkept, id⟩

lemma Executes.select (q : SelectQuery) (d : Driver) (e : Engine) :
    Executes (.select q) ((WhereQuery.select q).executeRound d e) := by
  have htext : (WhereQuery.select q).toSql = some q.toSql := by
    simp only [toSql, Query.toSqlWith, SelectQuery.toSql, apply_ite some]
    rfl
  obtain ⟨base, heq, hspec⟩ := q.prepare_spec d
  generalize (q.prepare d).2 = out at heq hspec
  generalize hr : (base, out) = r at hspec
  cases hspec with
  | kept hstale =>
    cases hr
    cases hstmt : q.stmt_ with
    | none =>
      cases hstale.symm.trans (Query.stale_of_none hstmt)
    | some stmt =>
      refine .ofPrepare heq ?_ htext (.inl ⟨hstale, hstmt⟩) e
      rw [← hstmt]
      rfl
  | refused ex hstale hd =>
    cases hr
    rw [executeRound, SelectQuery.execute, heq]
    exact .failed _ {} q.toSql (sameBut_select q (by rfl)) htext hstale rfl (.inl rfl)
  | unbound ex stmt hstale hprep hd hsql =>
    cases hr
    rw [executeRound, SelectQuery.execute, heq]
    exact .failed _ stmt q.toSql (sameBut_select q (by rfl)) htext hstale rfl
      (.inr (params_of_not_accepts hprep hd))
  | loaded hstale hd =>
    cases hr
    exact .ofPrepare heq rfl htext (.inr ⟨hstale, rfl⟩) e

lemma executeRound_spec (q : WhereQuery) (d : Driver) (e : Engine) :
    Executes q (q.executeRound d e) := by
  cases q with
  | select q => exact .select q d e
  | update q => exact .update q d e
  | delete q => exact .delete q d e

/-- The text of a query whose memo is not out of step. -/
lemma Sound.toSql {q : WhereQuery} {g : Rendered} (hs : q.Sound g) {text : SqlText}
    (htext : q.toSql = some text) :
    q.generateSql = some text ∧
      text.placeholders = List.range' 1 q.assigned ++ g.conditions.map Prod.fst := by
  have hgenerate : q.generateSql = some text := by
    rw [WhereQuery.toSql, Query.toSqlWith] at htext
    split at htext
    · exact htext
    · next hmemo =>
      rw [hs.memo.resolve_left (by simpa using hmemo), htext]
  refine ⟨hgenerate, ?_⟩
  obtain ⟨text', htext', hplaceholders⟩ := hs.plain.placeholders
  obtain rfl := Option.some.inj (hgenerate.symm.trans htext')
  rw [hplaceholders, hs.placeholders]
  split
  · next hempty =>
    obtain ⟨ts, hts, hnumbers⟩ := hs.clause
    rw [hts.empty_eq, decide_eq_true_eq] at hempty
    rw [← hnumbers, hempty, List.flatMap_nil]
  · rfl

/-- An execution leaves the text as the memo. -/
lemma Sound.executed {q q' : WhereQuery} {g : Rendered} (hs : q.Sound g) (hsame : SameBut q q')
    {text : SqlText} (htext : q.toSql = some text) (hsql : q'.base.sql_ = text)
    (hnamed : q'.base.namedParams_ = ∅) (hclean : q'.base.dirty_ = false → q'.base.params_ = []) :
    q'.Sound g := by
  refine ⟨hsame.plain hs.plain, .inr ?_, hnamed, hclean, ?_, hs.positive, ?_⟩
  · rw [hsame.text, hsql, (hs.toSql htext).1]
  · rw [hsame.clause]
    exact hs.clause
  · rw [hsame.update]
    exact hs.others

/-- Numbers that lead the back end of a query to what they say. -/
lemma Counted.slot_eq {q : WhereQuery} {g : Rendered} (hs : q.Sound g) (hcounted : q.Counted)
    {session : Session} (hsession : q.base.session_ = some session) {i : Nat} {p : Nat × SqlValue}
    (hp : g.conditions[i]? = some p) : session.impl_.slot (q.assigned + i) p.1 = p.1 := by
  cases himpl : session.impl_ with
  | sqlite | postgres => rfl
  | mysql =>
    have hnumber : (g.conditions.map Prod.fst)[i]? = some p.1 := by
      rw [List.getElem?_map, hp]
      rfl
    have hnumbers := hcounted session hsession himpl
    rw [hs.placeholders] at hnumbers
    rw [hnumbers] at hnumber
    obtain ⟨hi, hnumber⟩ := List.getElem?_eq_some_iff.mp hnumber
    rw [List.getElem_range'] at hnumber
    rw [SessionImpl.slot]
    omega

/-- A new statement for a query with the parameters for all it renders. -/
lemma Sound.binds {q : WhereQuery} {g : Rendered} (hs : q.Sound g) (hcolumns : q.HoldsColumns g)
    (hconditions : q.HoldsConditions g) (hassigned : q.assigned ≤ g.columns.length)
    (hcounted : q.Counted) {text : SqlText} (htext : q.toSql = some text) :
    Binds q g (q.base.statementFor text) := by
  obtain ⟨session, hsession⟩ := hs.plain.1
  refine ⟨session, hsession, fun text' htext' => ?_⟩
  obtain rfl := Option.some.inj htext'
  have hplaceholders := (hs.toSql htext).2
  have hbound : ∀ i, (q.base.statementFor text).bound (i + 1) = q.base.params_[i]? := fun i => rfl
  have hslot : ∀ i, session.impl_.slot i (i + 1) = i + 1 := by
    intro i
    cases session.impl_ <;> rfl
  have hcols : ∀ i < q.assigned, ∃ v, g.columns[i]? = some v ∧
      (q.base.statementFor text).bound (session.impl_.slot i (i + 1)) = some v := by
    intro i hi
    have hget := List.getElem?_eq_getElem (Nat.lt_of_lt_of_le hi hassigned)
    refine ⟨_, hget, ?_⟩
    rw [hslot]
    exact (hbound i).trans (hcolumns i _ hget)
  have hnumber : ∀ p ∈ g.conditions, 1 ≤ p.1 ∧ p.1 ≤ q.base.params_.length := by
    intro p hp
    have hpos := hs.positive p hp
    have hlt := (List.getElem?_eq_some_iff.mp (hconditions p hp)).1
    exact ⟨hpos, by omega⟩
  have hconds : ∀ (i : Nat) p, g.conditions[i]? = some p →
      (q.base.statementFor text).bound (session.impl_.slot (q.assigned + i) p.1) = some p.2 := by
    intro i p hp
    have hmem := List.mem_of_getElem? hp
    have hpos := hs.positive p hmem
    have hsucc : p.1 = p.1 - 1 + 1 := by omega
    rw [hcounted.slot_eq hs hsession hp, hsucc, hbound]
    exact hconditions p hmem
  refine ⟨hplaceholders, hcols, hconds, q.base.params_.length, ?_, ?_⟩
  · intro i
    cases i with
    | zero => simp [Query.statementFor, Statement.loaded]
    | succ i =>
      rw [hbound, isSome_getElem?]
      exact ⟨fun h => ⟨Nat.succ_pos i, h⟩, fun h => h.2⟩
  · intro i n hn
    rw [hplaceholders] at hn
    by_cases hi : i < q.assigned
    · rw [List.getElem?_append_left (by simpa using hi)] at hn
      obtain ⟨-, rfl⟩ := List.getElem?_eq_some_iff.mp hn
      obtain ⟨v, hv, -⟩ := hcols i hi
      have hlt := (List.getElem?_eq_some_iff.mp (hcolumns i v hv)).1
      rw [List.getElem_range', Nat.one_mul, Nat.add_comm, hslot]
      exact hlt
    · rw [List.getElem?_append_right (by simpa using hi), List.length_range',
        List.getElem?_map, Option.map_eq_some_iff] at hn
      obtain ⟨p, hp, rfl⟩ := hn
      have hslot' := hcounted.slot_eq hs hsession hp
      rw [Nat.add_sub_cancel' (Nat.le_of_not_lt hi)] at hslot'
      rw [hslot']
      exact (hnumber p (List.mem_of_getElem? hp)).2

end WhereQuery

lemma Binds.congr {q q' : WhereQuery} {g : Rendered} {stmt : Statement} (h : Binds q g stmt)
    (hassigned : q'.assigned = q.assigned) (hsession : q'.base.session_ = q.base.session_) :
    Binds q' g stmt := by
  obtain ⟨session, hsome, hbinds⟩ := h
  refine ⟨session, hsession.trans hsome, fun text htext => ?_⟩
  obtain ⟨hplaceholders, hcolumns, hconditions, hcount⟩ := hbinds text htext
  exact ⟨by rwa [hassigned], by rwa [hassigned], by rwa [hassigned], hcount⟩

/-- Without parameters only the text is refused, and then the statement left behind has no SQL. -/
lemma Invariant.failed {s : WhereQuery × Rendered} (hs : Invariant s) {q : WhereQuery}
    {stmt : Statement} {text : SqlText} (hsame : s.1.SameBut q) (htext : s.1.toSql = some text)
    (hstale : s.1.base.cache.stale = true)
    (hbase : q.base = { s.1.base with sql_ := text, stmt_ := some stmt })
    (hstmt : stmt.sql = none ∨ s.1.base.params_ ≠ [] ∨ s.1.base.namedParams_ ≠ ∅) :
    Invariant (q, s.2) where
  sound := by
    apply hs.sound.executed hsame htext
    · rw [hbase]
    · rw [hbase]
      exact hs.sound.named
    · rw [hbase]
      exact hs.sound.clean
  columns _ := by
    rw [WhereQuery.HoldsColumns, hbase]
    exact hs.columns hstale
  conditions := by
    rw [hbase]
    exact hs.conditions
  kept := by
    intro hkept stmt' hstmt'
    rw [hbase] at hkept hstmt'
    obtain rfl := Option.some.inj hstmt'
    obtain ⟨session, hsession⟩ := hs.sound.plain.1
    refine ⟨session, by rw [hbase]; exact hsession, fun text' htext' => ?_⟩
    have hdirty : s.1.base.dirty_ = false := by
      simpa [Query.stale_eq] using hkept
    rcases hstmt with hstmt | hstmt | hstmt
    · cases hstmt.symm.trans htext'
    · exact absurd (hs.sound.clean hdirty) hstmt
    · exact absurd hs.sound.named hstmt

/-- The statement that was run is kept, or the query has no columns to assign to. -/
lemma Invariant.ran {s : WhereQuery × Rendered} (hs : Invariant s) {q : WhereQuery}
    {stmt : Statement} {text : SqlText} (hsame : s.1.SameBut q) (htext : s.1.toSql = some text)
    (hbinds : Binds s.1 s.2 stmt) {kept : Option Statement}
    (hbase : q.base = Query.reset { s.1.base with sql_ := text, stmt_ := kept })
    (hkept : kept = some stmt ∨ kept = none ∧ ¬s.1.IsUpdate) : Invariant (q, s.2) where
  sound := by
    apply hs.sound.executed hsame htext
    · rw [hbase]
      rfl
    · rw [hbase]
      rfl
    · rw [hbase]
      exact fun _ => rfl
  columns := by
    intro hstale
    rw [hbase] at hstale
    rcases hkept with rfl | ⟨rfl, hupdate⟩
    · cases hstale
    · simp [WhereQuery.HoldsColumns, hs.sound.others hupdate]
  conditions := by
    intro p hp hle
    have hpos := hs.sound.positive p hp
    rw [hbase] at hle
    exact absurd (Nat.le_trans hpos hle) (Nat.not_succ_le_zero 0)
  kept := by
    intro _ stmt' hstmt'
    rw [hbase] at hstmt'
    rcases hkept with rfl | ⟨rfl, -⟩
    · obtain rfl := Option.some.inj hstmt'
      exact hbinds.congr hsame.assigned (by rw [hbase]; rfl)
    · cases hstmt'

/-- An execution keeps the invariant, and the statement it runs binds what was rendered. -/
lemma Invariant.execute {s : WhereQuery × Rendered} (hs : Invariant s)
    (hready : s.1.base.cache.stale = true →
      s.1.HoldsConditions s.2 ∧ s.1.assigned ≤ s.2.columns.length ∧ s.1.Counted)
    {q : WhereQuery} {out : Option Statement} (hexec : s.1.Executes (some (q, out))) :
    Invariant (q, s.2) ∧ ∀ stmt, out = some stmt → Binds s.1 s.2 stmt := by
  generalize hr : some (q, out) = r at hexec
  cases hexec with
  | unrendered => cases hr
  | invalid =>
    cases hr
    exact ⟨hs, nofun⟩
  | failed q' stmt text hsame htext hstale hbase hstmt =>
    cases hr
    exact ⟨hs.failed hsame htext hstale hbase hstmt, nofun⟩
  | ran q' stmt text hsame htext hstmt hreset =>
    cases hr
    obtain ⟨kept, hbase, hkept⟩ := hreset
    have hbinds : Binds s.1 s.2 stmt := by
      rcases hstmt with ⟨hstale, hstmt⟩ | ⟨hstale, rfl⟩
      · exact hs.kept hstale stmt hstmt
      · obtain ⟨hconditions, hassigned, hcounted⟩ := hready hstale
        exact hs.sound.binds (hs.columns hstale) hconditions hassigned hcounted htext
    refine ⟨hs.ran hsame htext hbinds hbase hkept, ?_⟩
    rintro stmt' hstmt'
    obtain rfl := Option.some.inj hstmt'
    exact hbinds

/-! ### Runs -/

lemma Invariant.constructed {q : WhereQuery} (hq : q.Constructed) : Invariant (q, {}) := by
  have hbase : ∃ session, q.base = { session_ := some session } := by
    cases hq with
    | select c => cases c <;> exact ⟨_, rfl⟩
    | update | updateSchema | delete => exact ⟨_, rfl⟩
  obtain ⟨session, hbase⟩ := hbase
  have hwhere : q.where_.toWhereClause = {} := by
    cases hq with
    | select c => cases c <;> rfl
    | update | updateSchema | delete => rfl
  have hplain : q.Plain := by
    cases hq with
    | select c => cases c <;> exact ⟨⟨_, rfl⟩, rfl, rfl⟩
    | update | updateSchema | delete => exact ⟨⟨_, rfl⟩, trivial⟩
  refine ⟨⟨hplain, .inl (by rw [hbase]; rfl), by rw [hbase], fun _ => by rw [hbase],
    ⟨[], hwhere ▸ WhereClause.conjunction_nil, rfl⟩, by simp, fun _ => rfl⟩, ?_, by simp, ?_⟩
  · simp [WhereQuery.HoldsColumns]
  · simp [hbase, Query.stale_eq]

/-- One round on a query. -/
lemma Invariant.step {s : WhereQuery × Rendered} (hs : Invariant s) {round : Round}
    (hround : Renews s round) :
    Invariant (roundMachine.step s round).1 ∧
      ∀ o ∈ (roundMachine.step s round).2, Binds o.1.1 o.1.2 o.2 := by
  obtain ⟨hsetUp, hready⟩ := hs.setUp hround
  have hspec := (setUpBy s round.calls).1.executeRound_spec round.driver round.engine
  simp only [roundMachine]
  generalize (setUpBy s round.calls).1.executeRound round.driver round.engine = r at hspec ⊢
  cases r with
  | none => exact ⟨hsetUp, by simp⟩
  | some r =>
    obtain ⟨q, out⟩ := r
    obtain ⟨hnext, hout⟩ := hsetUp.execute hready hspec
    cases out with
    | none => exact ⟨hnext, by simp⟩
    | some stmt =>
      refine ⟨hnext, ?_⟩
      intro o ho
      obtain rfl := List.mem_singleton.mp ho
      exact hout stmt rfl

/-- In every run whose rounds renew what they run, each statement that is run has the placeholders
of the columns and the conditions of the query, and they are bound to what they were rendered
for. -/
theorem rounds_bind {q : WhereQuery} (hq : q.Constructed) {rounds : List Round}
    (hrounds : roundMachine.Along Renews (q, {}) rounds) :
    ∀ o ∈ (roundMachine.run (q, {}) rounds).2, Binds o.1.1 o.1.2 o.2 :=
  roundMachine.run_outputs_along Renews Invariant _ (fun _ _ hs hround => (hs.step hround).1)
    (fun _ _ hs hround => (hs.step hround).2) (.constructed hq) hrounds

/-- A round that makes one call and selects nothing. -/
def Round.single (call : RoundCall) : Round :=
  { calls := [call], ordered := List.pairwise_singleton .., engine := { execute := fun _ => none } }

/-- The theorem at two rounds that set their conditions anew. -/
theorem rounds_bind_users :
    (roundMachine.run (.select (.ofSession 0 { impl_ := .sqlite } [] "users"), {})
      [.single (.where ⟨Op.equals (.string "name") (.string "bob"), by decide⟩),
        .single (.where ⟨Op.equals (.string "name") (.string "alice"), by decide⟩)]).2.Forall
      fun o => Binds o.1.1 o.1.2 o.2 := by
  apply List.forall_iff_forall_mem.mpr
  apply rounds_bind (.select (.table 0 { impl_ := .sqlite } [] "users"))
  refine ⟨?_, ?_, trivial⟩
  · exact .inr ⟨.inl ⟨_, List.mem_singleton.mpr rfl⟩, Nat.zero_le _, fun _ _ _ => rfl⟩
  · exact .inr ⟨.inl ⟨_, List.mem_singleton.mpr rfl⟩, Nat.zero_le _, fun _ _ _ => rfl⟩

/-- A condition added in the second round has the number of the first one. -/
theorem rounds_not_bind_users :
    ¬∀ o ∈ (roundMachine.run (.select (.ofSession 0 { impl_ := .sqlite } [] "users"), {})
      [.single (.where ⟨Op.equals (.string "name") (.string "bob"), by decide⟩),
        .single (.and ⟨Op.equals (.string "age") (.string "20"), by decide⟩)]).2,
      Binds o.1.1 o.1.2 o.2 := by
  intro h
  obtain ⟨session, hsession, hbinds⟩ := h _ (List.mem_of_getElem? (i := 1) rfl)
  obtain rfl := Option.some.inj hsession
  exact absurd ((hbinds _ rfl).conditions 0 (1, .string "bob") rfl) (by decide)

end CodaDb
