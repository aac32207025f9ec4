import CodaDb.Query.Binder
import Mathlib.Data.List.Permutation

/-!
# Setting up an update

The columns, the values and the condition of an update query are set by three calls. The
placeholders of the columns are numbered when the query is rendered, the one of the condition when
`where` is called; here is when both numbers lead to the values that were given.
-/

namespace CodaDb

open SqlText

inductive UpdateCall where
  /-- a vector, or the names as arguments, which are appended to the columns -/
  | columns (appends : Bool) (value : List String)
  | values (value : List SqlValue)
  | where (o : UnnamedOperator)

namespace UpdateCall

/-- Of the calls that bind, the one with the values comes first. -/
def valuesFirst : List UpdateCall → Bool
  | .values _ :: _ => true
  | .where _ :: _ => false
  | .columns _ _ :: calls => valuesFirst calls
  | [] => false

end UpdateCall

/-- One of the two functions `columns`. -/
def UpdateQuery.setColumns (q : UpdateQuery) (appends : Bool) (value : List String) : UpdateQuery :=
  if appends then q.columnList value else q.columns value

namespace Heap

/-- A call on the update query at `c`. -/
def callUpdate (c : Addr) (h : Heap) : UpdateCall → Heap
  | .columns appends value =>
    match h c with
    | .update q => Function.update h c (.update (q.setColumns appends value))
    | .select _ | .delete _ => h
  | .values value =>
    match h c with
    | .update q => Function.update h c (.update (q.values value))
    | .select _ | .delete _ => h
  | .where o => h.append c .reset o

end Heap

namespace UpdateQuery

/-- The query renders an assignment to each column and one condition, and its back end reads the
values at the placeholders of the columns behind the former ones, and the operand at the one of the
condition. -/
def Assigns (q : UpdateQuery) (former columns : List String) (values : List SqlValue)
    (o : UnnamedOperator) : Prop :=
  ∃ session text numbers number, q.session_ = some session ∧ q.toSql = some text ∧
    text.render = "UPDATE " ++ q.tableName_ ++ " SET " ++
      ",".intercalate ((former ++ columns).zipWith
        (fun c n => c ++ "=" ++ session.impl_.bindParamText n) numbers) ++
      " WHERE " ++ o.1.lvalue_.toString ++ " " ++
      (if o.1.not_ then o.1.type_.notTypeValue else o.1.type_.typeValue) ++ " " ++
      q.where_.session_.bindParamText number ++ ";" ∧
    text.placeholders = numbers ++ [number] ∧
    numbers.length = former.length + columns.length ∧
    (∀ i n v, numbers[former.length + i]? = some n → values[i]? = some v →
      q.held (session.impl_.slot (former.length + i) n) = some v) ∧
    q.held (session.impl_.slot (former.length + columns.length) number) = some o.operand

/-- The columns that stay when some are given. -/
def former (q : UpdateQuery) (appends : Bool) : List String := if appends then q.columns_ else []

/-- The parameters after the values and the operand were bound, which is into the query itself if
`self`, and the values first if `first`. -/
def paramsAt (self first : Bool) (params values : List SqlValue) (operand : SqlValue) :
    List SqlValue :=
  if !self then values ++ params.drop values.length
  else if first then values ++ params.drop values.length ++ [operand]
  else values ++ (params ++ [operand]).drop values.length

/-- The values are there also as many places behind as there are `former` columns. -/
def Repeats (former : Nat) (values params : List SqlValue) : Prop :=
  ∀ i < values.length, params[former + i]? = values[i]?

/-- The numbers and the parameters that three calls lead to agree. -/
def Agrees (h : Heap) (c : Addr) (impl : SessionImpl) (former : Nat) (values : List SqlValue)
    (o : UnnamedOperator) (calls : List UpdateCall) : Prop :=
  let params := (h c).base.params_
  let binding := (h (h.binder c)).base.params_
  let first := UpdateCall.valuesFirst calls
  Repeats former values (paramsAt (h.binder c = c) first params values o.operand) ∧
  match impl with
  | .sqlite | .postgres =>
    if h.binder c = c then
      first = true ∨ values.length ≤ params.length ∨ values[params.length]? = some o.operand
    else (values ++ params.drop values.length)[binding.length]? = some o.operand
  | .mysql =>
    if h.binder c = c then
      if first then (params.drop values.length ++ [o.operand])[former]? = some o.operand
      else (params ++ [o.operand])[former + values.length]? = some o.operand
    else params[former + values.length]? = some o.operand

/-! ### The calls -/

/-- The columns given one by one are appended, except for the empty names. -/
lemma columnList_eq (q : UpdateQuery) (value : List String) :
    q.columnList value =
      if value.filter (· ≠ "") = [] then q
      else setModified { q with columns_ := q.columns_ ++ value.filter (· ≠ "") } := by
  induction value generalizing q with
  | nil => rfl
  | cons c cs ih =>
    have hstep : q.columnList (c :: cs) = (q.column c).columnList cs := rfl
    rw [hstep, ih]
    by_cases hc : c = ""
    · simp [UpdateQuery.column, hc]
    · by_cases hcs : cs.filter (· ≠ "") = []
      · rw [if_pos hcs, List.filter_cons_of_pos (by simpa using hc), hcs]
        simp [UpdateQuery.column, hc]
      · rw [if_neg hcs, List.filter_cons_of_pos (by simpa using hc)]
        simp [UpdateQuery.column, hc, setModified, Query.setModified]

/-- What the calls of `columns` leave of a query. -/
structure Names (q : UpdateQuery) (appends : Bool) (value : List String) (q' : UpdateQuery) :
    Prop where
  columns : q'.columns_ = (if appends then q.columns_ ++ value.filter (· ≠ "") else value)
  table : q'.tableName_ = q.tableName_
  session : q'.session_ = q.session_
  builder : q'.where_ = q.where_
  params : q'.params_ = q.params_
  memo : q.sql_ = [] → q'.sql_ = []

lemma setColumns_names (q : UpdateQuery) (appends : Bool) (value : List String) :
    Names q appends value (q.setColumns appends value) := by
  cases appends with
  | false => exact ⟨rfl, rfl, rfl, rfl, rfl, fun _ => rfl⟩
  | true =>
    have hlist : q.setColumns true value = q.columnList value := rfl
    rw [hlist, columnList_eq]
    split
    · next hempty =>
      exact ⟨by rw [hempty, List.append_nil, if_pos rfl], rfl, rfl, rfl, rfl, id⟩
    · exact ⟨rfl, rfl, rfl, rfl, rfl, fun _ => rfl⟩

/-- What `where(op)` leaves of a query, its condition having the placeholder `number`, when its
builder binds into a query, which is this one if `self`. -/
def whereAt (q : UpdateQuery) (self : Bool) (number : Nat) (o : UnnamedOperator) : UpdateQuery :=
  setModified
    { q with
      where_ := { q.where_ with
        toWhereClause := q.where_.resetText (q.where_.toSqlOp number o) }
      params_ := if self then q.params_ ++ [o.operand] else q.params_ }

/-- On a query that its own builder binds into. -/
lemma append_reset (q : UpdateQuery) (o : UnnamedOperator) :
    q.append .reset o.1 = q.whereAt true (q.params_.length + 1) o := by
  simp only [append, WhereBuilder.append_eq, WhereBuilder.boundBy_unnamed]
  rfl

/-- The query at `c`, whose builder binds into the query at `b`, which has `k` parameters. -/
structure View (h : Heap) (c b : Addr) (q : UpdateQuery) (k : Nat) : Prop where
  query : h c = .update q
  binder : q.where_.binder_ = b
  count : (h b).base.params_.length = k

variable {h : Heap} {c b : Addr} {q : UpdateQuery} {k : Nat}

lemma View.columns (hv : View h c b q k) (appends : Bool) (value : List String) :
    View (h.callUpdate c (.columns appends value)) c b (q.setColumns appends value) k := by
  have hcall : h.callUpdate c (.columns appends value)
      = Function.update h c (.update (q.setColumns appends value)) := by
    simp only [Heap.callUpdate, hv.query]
  have hnames := setColumns_names q appends value
  rw [hcall]
  refine ⟨Function.update_self .., hnames.builder ▸ hv.binder, ?_⟩
  rw [← hv.count]
  by_cases hb : b = c
  · rw [hb, Function.update_self, hv.query]
    exact congrArg List.length hnames.params
  · rw [Function.update_of_ne hb]

lemma View.values (hv : View h c b q k) (value : List SqlValue) :
    View (h.callUpdate c (.values value)) c b (q.values value)
      (if b = c then (q.values value).params_.length else k) := by
  have hcall : h.callUpdate c (.values value)
      = Function.update h c (.update (q.values value)) := by
    simp only [Heap.callUpdate, hv.query]
  rw [hcall]
  refine ⟨Function.update_self .., hv.binder, ?_⟩
  by_cases hb : b = c
  · rw [hb, Function.update_self, if_pos rfl]
    rfl
  · rw [Function.update_of_ne hb, if_neg hb, hv.count]

lemma View.whereAt (hv : View h c b q k) (o : UnnamedOperator) :
    View (h.callUpdate c (.where o)) c b (q.whereAt (b = c) (k + 1) o) (k + 1) := by
  have hbinder : h.binder c = b := by
    rw [Heap.binder, hv.query]
    exact hv.binder
  refine ⟨?_, hv.binder, ?_⟩
  · rw [Heap.callUpdate, Heap.append_eq]
    by_cases hb : b = c
    · subst hb
      simp [hbinder, hv.query, WhereQuery.where_, WhereQuery.base, WhereQuery.withBase,
        WhereQuery.withWhere, WhereBuilder.boundBy_unnamed, WhereBuilder.extend,
        WhereBuilder.condition, ← hv.count, UpdateQuery.whereAt, setModified, Query.setModified]
    · simp [hbinder, hv.query, hb, Ne.symm hb, WhereQuery.where_, WhereQuery.base,
        WhereQuery.withBase, WhereQuery.withWhere, WhereBuilder.extend,
        WhereBuilder.condition, ← hv.count, UpdateQuery.whereAt, setModified, Query.setModified]
  · rw [Heap.callUpdate, Heap.append_params, if_pos hbinder.symm, SqlOperator.boundValues_eq]
    simp [hv.count]

/-! ### The query that is set up -/

/-- The number of the condition's placeholder, when the query it is bound into is the updated one
if `self`, with these parameters, or else has `k` parameters. -/
def numberAt (self first : Bool) (k : Nat) (params values : List SqlValue) : Nat :=
  if self && first then (values ++ params.drop values.length).length + 1 else k + 1

structure SetUp (q : UpdateQuery) (named : List String) (o : UnnamedOperator) (number : Nat)
    (params : List SqlValue) (q' : UpdateQuery) : Prop where
  columns : q'.columns_ = named
  table : q'.tableName_ = q.tableName_
  session : q'.session_ = q.session_
  impl : q'.where_.session_ = q.where_.session_
  clause : q'.where_.toWhereClause = q.where_.resetText (q.where_.toSqlOp number o)
  memo : q'.sql_ = []
  params : q'.params_ = params

/-- The names that one of the functions `columns` leaves. -/
def namesAfter (q : UpdateQuery) (appends : Bool) (value : List String) : List String :=
  if appends then q.columns_ ++ value.filter (· ≠ "") else value

/-- The three calls set up the query, in any order. -/
lemma setUp_of_perm (hq : h c = .update q) {appends : Bool} {columns : List String}
    {values : List SqlValue} {o : UnnamedOperator} {calls : List UpdateCall}
    (hcalls : calls.Perm [.columns appends columns, .values values, .where o]) :
    ∃ q', calls.foldl (Heap.callUpdate c) h c = .update q' ∧
      SetUp q (q.namesAfter appends columns) o
        (numberAt (h.binder c = c) (UpdateCall.valuesFirst calls)
          (h (h.binder c)).base.params_.length q.params_ values)
        (paramsAt (h.binder c = c) (UpdateCall.valuesFirst calls) q.params_ values o.operand)
        q' := by
  have hbinder : q.where_.binder_ = h.binder c := by
    rw [Heap.binder, hq]
    rfl
  have hv : View h c (h.binder c) q (h (h.binder c)).base.params_.length := ⟨hq, hbinder, rfl⟩
  have hnames : ∀ q, (setColumns q appends columns).columns_ = q.namesAfter appends columns :=
    fun q => (setColumns_names q appends columns).columns
  have htable : ∀ q, (setColumns q appends columns).tableName_ = q.tableName_ :=
    fun q => (setColumns_names q appends columns).table
  have hsession : ∀ q, (setColumns q appends columns).session_ = q.session_ :=
    fun q => (setColumns_names q appends columns).session
  have hwhere : ∀ q, (setColumns q appends columns).where_ = q.where_ :=
    fun q => (setColumns_names q appends columns).builder
  have hparams : ∀ q, (setColumns q appends columns).params_ = q.params_ :=
    fun q => (setColumns_names q appends columns).params
  have hmemo : ∀ q, q.sql_ = [] → (setColumns q appends columns).sql_ = [] :=
    fun q => (setColumns_names q appends columns).memo
  have horders := List.mem_permutations'.mpr hcalls
  simp at horders
  rcases horders with rfl | rfl | rfl | rfl | rfl | rfl
  on_goal 1 => refine ⟨_, (((hv.columns appends columns).values values).whereAt o).query, ?_⟩
  on_goal 2 => refine ⟨_, (((hv.values values).columns appends columns).whereAt o).query, ?_⟩
  on_goal 3 => refine ⟨_, (((hv.values values).whereAt o).columns appends columns).query, ?_⟩
  on_goal 4 => refine ⟨_, (((hv.columns appends columns).whereAt o).values values).query, ?_⟩
  on_goal 5 => refine ⟨_, (((hv.whereAt o).columns appends columns).values values).query, ?_⟩
  on_goal 6 => refine ⟨_, (((hv.whereAt o).values values).columns appends columns).query, ?_⟩
  all_goals
    constructor <;> by_cases hb : h.binder c = c <;>
      simp [hb, whereAt, values_eq, setModified, Query.setModified, hnames, htable, hsession,
        hwhere, hparams, hmemo, namesAfter, numberAt, paramsAt, UpdateCall.valuesFirst,
        WhereQuery.base]

variable {former columns named : List String} {values params : List SqlValue}
  {o : UnnamedOperator} {number : Nat} {q' : UpdateQuery}

/-- The text of a query that is set up. -/
lemma SetUp.toSql (hset : SetUp q named o number params q') {session : Session}
    (hsession : q.session_ = some session) :
    ∃ text, q'.toSql = some text ∧
      (named ≠ [] → text.render = "UPDATE " ++ q'.tableName_ ++ " SET " ++
        ",".intercalate (named.zipWith (fun c n => c ++ "=" ++ session.impl_.bindParamText n)
          (List.range' 1 named.length)) ++
        " WHERE " ++ o.1.lvalue_.toString ++ " " ++
        (if o.1.not_ then o.1.type_.notTypeValue else o.1.type_.typeValue) ++ " " ++
        q'.where_.session_.bindParamText number ++ ";") ∧
      text.placeholders = List.range' 1 named.length ++ [number] := by
  have hconj := hset.clause ▸
    q.where_.conjunction_resetText (q.where_.toSqlOp_ne_empty number o.1)
  have hempty : q'.where_.empty = false := by simp [hconj.empty_eq]
  have hgenerate : q'.generateSql = some (lit "UPDATE " ++ lit q'.tableName_ ++
      (if named.isEmpty then [] else lit " SET " ++ session.joinParams named "=") ++
      (lit " WHERE " ++ q'.where_.andPart) ++ lit ";") := by
    simp [generateSql_eq (hset.session.trans hsession), hset.columns, hempty, hconj.toSql_eq,
      OpType.typeValue]
  have hmemo : q'.toSql = q'.generateSql := by
    simp [UpdateQuery.toSql, Query.toSqlWith, hset.memo]
  have hwhere := hconj.text
  have hparam : session.paramText "=" = fun c n => c ++ "=" ++ session.impl_.bindParamText n := by
    funext c n
    simp [Session.paramText]
  refine ⟨_, hmemo.trans hgenerate, fun hnamed => ?_, ?_⟩
  · have hnamed' : named.isEmpty = false := by simpa using hnamed
    simp [hnamed', Session.joinParams_render, hwhere, hparam, WhereBuilder.toSqlOp_render,
      hset.impl, String.append_assoc]
  · cases named <;> simp [hconj.placeholders]

/-- Of a query that is set up, the placeholders of the columns lead to the parameters behind the
former columns. -/
lemma SetUp.assigns_spec (hset : SetUp q named o number params q') (hcolumns : columns ≠ [])
    (hlength : values.length = columns.length)
    (hnamed : named.length = former.length + columns.length → named = former ++ columns) :
    q'.Assigns former columns values o ↔ ∃ session, q.session_ = some session ∧
      named = former ++ columns ∧ Repeats former.length values params ∧
      q'.held (session.impl_.slot (former.length + columns.length) number) = some o.operand := by
  have hslot : ∀ (impl : SessionImpl) i, impl.slot i (i + 1) = i + 1 := by
    intro impl i
    cases impl <;> rfl
  constructor
  · rintro ⟨session, text, numbers, number', hsession, htext, -, hplaceholders, hcount, hvalues,
      hheld⟩
    rw [hset.session] at hsession
    obtain ⟨text', htext', -, hplaceholders'⟩ := hset.toSql hsession
    obtain rfl := Option.some.inj (htext.symm.trans htext')
    obtain ⟨rfl, hnumber⟩ := List.append_inj' (hplaceholders.symm.trans hplaceholders') rfl
    obtain rfl := List.singleton_injective hnumber
    rw [List.length_range'] at hcount
    refine ⟨session, hsession, hnamed hcount, fun i hi => ?_, hheld⟩
    have hn : (List.range' 1 named.length)[former.length + i]? = some (former.length + i + 1) := by
      rw [List.getElem?_range' (by omega), Nat.one_mul, Nat.add_comm]
    have hvalue := hvalues i _ _ hn (List.getElem?_eq_getElem hi)
    rw [hslot] at hvalue
    rw [List.getElem?_eq_getElem hi, ← hvalue, ← hset.params]
    rfl
  · rintro ⟨session, hsession, rfl, hrepeats, hheld⟩
    obtain ⟨text, htext, hrender, hplaceholders⟩ := hset.toSql hsession
    refine ⟨session, text, List.range' 1 (former ++ columns).length, number,
      hset.session.trans hsession, htext, hrender (by simp [hcolumns]), hplaceholders, by simp,
      ?_, hheld⟩
    intro i n v hn hv
    obtain ⟨hi, hn⟩ := List.getElem?_eq_some_iff.mp hn
    obtain rfl : n = former.length + i + 1 := by
      rw [← hn, List.getElem_range']
      omega
    have hvalue := hrepeats i (List.getElem?_eq_some_iff.mp hv).1
    rw [hslot, Query.held, hset.params, ← hv, ← hvalue]
    rfl

/-- What lies behind the values. -/
lemma getElem_append_behind (values rest : List SqlValue) (m : Nat) :
    (values ++ rest)[m + values.length]? = rest[m]? := by
  rw [List.getElem?_append_right (Nat.le_add_left ..), Nat.add_sub_cancel]

/-- The operand keeps its place behind the former parameters if the values do not reach it, or is
one of the values. -/
lemma getElem_append_concat_drop (values params : List SqlValue) (operand : SqlValue) :
    (values ++ (params ++ [operand]).drop values.length)[params.length]? = some operand ↔
      values.length ≤ params.length ∨ values[params.length]? = some operand := by
  by_cases hle : values.length ≤ params.length
  · have hsum : values.length + (params.length - values.length) = params.length := by omega
    rw [List.getElem?_append_right hle, List.getElem?_drop, hsum]
    simp [hle]
  · rw [List.getElem?_append_left (Nat.lt_of_not_le hle)]
    simp [hle]

/-- The columns are those that were given exactly if no name was left out. -/
lemma namesAfter_eq_iff (q : UpdateQuery) (appends : Bool) (columns : List String) :
    q.namesAfter appends columns = q.former appends ++ columns ↔
      (appends = true → "" ∉ columns) := by
  cases appends with
  | false => simp [namesAfter, UpdateQuery.former]
  | true =>
    have hnames : (∀ c ∈ columns, c ≠ "") ↔ "" ∉ columns :=
      ⟨fun h hmem => h "" hmem rfl, fun h c hc heq => h (heq ▸ hc)⟩
    simpa [namesAfter, UpdateQuery.former, List.filter_eq_self] using hnames

lemma namesAfter_eq_of_length {q : UpdateQuery} {appends : Bool} {columns : List String}
    (h : (q.namesAfter appends columns).length = (q.former appends).length + columns.length) :
    q.namesAfter appends columns = q.former appends ++ columns := by
  cases appends with
  | false => rfl
  | true =>
    have hlength : (columns.filter (· ≠ "")).length = columns.length := by
      simpa only [namesAfter, UpdateQuery.former, if_true, List.length_append,
        Nat.add_left_cancel_iff] using h
    have hfilter := List.filter_sublist.eq_of_length hlength
    simp only [namesAfter, UpdateQuery.former, if_true, hfilter]

/-- After `columns`, `values` and `where`, in any order, the query assigns the values to the columns
and searches for the operand exactly if it has a session, no name that it appends is empty, and the
numbers and the parameters agree. -/
theorem assigns_iff (hq : h c = .update q) (hcolumns : columns ≠ [])
    (hlength : values.length = columns.length) {appends : Bool} {calls : List UpdateCall}
    (hcalls : calls.Perm [.columns appends columns, .values values, .where o]) :
    (∃ q', calls.foldl (Heap.callUpdate c) h c = .update q' ∧
        q'.Assigns (q.former appends) columns values o) ↔
      ∃ session, q.session_ = some session ∧ (appends = true → "" ∉ columns) ∧
        Agrees h c session.impl_ (q.former appends).length values o calls := by
  obtain ⟨q', hq', hset⟩ := setUp_of_perm hq hcalls
  have hparams : (h c).base.params_ = q.params_ := by
    rw [hq]
    rfl
  have hagrees : ∀ impl : SessionImpl, ∀ m,
      (Repeats m values (paramsAt (h.binder c = c) (UpdateCall.valuesFirst calls) q.params_ values
          o.operand) ∧
        q'.held (impl.slot (m + columns.length)
          (numberAt (h.binder c = c) (UpdateCall.valuesFirst calls)
            (h (h.binder c)).base.params_.length q.params_ values)) = some o.operand) ↔
        Agrees h c impl m values o calls := by
    intro impl m
    unfold Agrees
    rw [hparams, Query.held, hset.params, ← hlength]
    refine and_congr_right fun _ => ?_
    by_cases hself : h.binder c = c
    case neg =>
      cases impl <;>
        simp [hself, numberAt, paramsAt, SessionImpl.slot, getElem_append_behind, Nat.add_comm]
    cases hfirst : UpdateCall.valuesFirst calls with
    | true =>
      cases impl with
      | mysql => simp [hself, paramsAt, SessionImpl.slot, getElem_append_behind]
      | sqlite | postgres => simp [hself, numberAt, paramsAt, SessionImpl.slot]
    | false =>
      cases impl with
      | mysql =>
        simp [hself, paramsAt, SessionImpl.slot, getElem_append_behind, Nat.add_comm]
      | sqlite | postgres =>
        simpa [hself, hparams, numberAt, paramsAt, SessionImpl.slot]
          using getElem_append_concat_drop values q.params_ o.operand
  constructor
  · rintro ⟨q'', hq'', hassigns⟩
    obtain rfl := WhereQuery.update.inj (hq'.symm.trans hq'')
    obtain ⟨session, hsession, hnames, hrest⟩ :=
      (hset.assigns_spec hcolumns hlength namesAfter_eq_of_length).mp hassigns
    exact ⟨session, hsession, (namesAfter_eq_iff ..).mp hnames, (hagrees ..).mp hrest⟩
  · rintro ⟨session, hsession, hnames, hrest⟩
    exact ⟨q', hq', (hset.assigns_spec hcolumns hlength namesAfter_eq_of_length).mpr
      ⟨session, hsession, (namesAfter_eq_iff ..).mpr hnames, (hagrees ..).mpr hrest⟩⟩

/-- An update query at its address. -/
def users : UpdateQuery := .ofSession 0 { impl_ := .sqlite } "users"

def usersHeap : Heap := fun _ => .update users

/-- The theorem at calls in the order of the text. -/
theorem assigns_users :
    (∃ q', [.columns true ["name"], .values [.string "bob"],
        .where ⟨Op.equals (.string "name") (.string "alice"), by decide⟩].foldl
          (Heap.callUpdate 0) usersHeap 0 = .update q' ∧
      q'.Assigns (users.former true) ["name"] [.string "bob"]
        ⟨Op.equals (.string "name") (.string "alice"), by decide⟩) ↔
      ∃ session, users.session_ = some session ∧ (true = true → "" ∉ ["name"]) ∧
        Agrees usersHeap 0 session.impl_ (users.former true).length [.string "bob"]
          ⟨Op.equals (.string "name") (.string "alice"), by decide⟩
          [.columns true ["name"], .values [.string "bob"],
            .where ⟨Op.equals (.string "name") (.string "alice"), by decide⟩] :=
  assigns_iff (show usersHeap 0 = .update users from rfl) (by decide) rfl (.refl _)

/-- With the condition before the values, the row to update is looked up by the new name. -/
theorem not_assigns_users :
    ¬∃ q', [.columns true ["name"],
        .where ⟨Op.equals (.string "name") (.string "alice"), by decide⟩,
        .values [.string "bob"]].foldl (Heap.callUpdate 0) usersHeap 0 = .update q' ∧
      q'.Assigns (users.former true) ["name"] [.string "bob"]
        ⟨Op.equals (.string "name") (.string "alice"), by decide⟩ := by
  rintro ⟨q', hq', session, text, numbers, number, hsession, htext, -, hplaceholders, -, -, hheld⟩
  obtain rfl := WhereQuery.update.inj hq'
  obtain rfl := Option.some.inj hsession
  obtain rfl := Option.some.inj htext
  obtain ⟨-, hnumber⟩ :=
    List.append_inj' (show [1] ++ [1] = numbers ++ [number] from hplaceholders) rfl
  obtain rfl := List.singleton_injective hnumber
  exact absurd hheld (by decide)

end UpdateQuery

end CodaDb
