import CodaDb.Query.Select

/-!
# `find_by` and `find_one`

The query these functions build from a schema and a map of column values, and when it selects the
records with these values.
-/

namespace CodaDb

open SqlText

/-- `std::map<std::string, sql_value>`: its entries in the order of the keys. -/
structure ColumnValues where
  entries : List (String × SqlValue)
  sorted : entries.Pairwise fun a b => a.1 < b.1

/-- The loop over the entries: `query.where() and op::equals(it.first, it.second)`. -/
def SelectQuery.whereEquals (q : SelectQuery) (entries : List (String × SqlValue)) : SelectQuery :=
  entries.foldl (fun q e => q.append .and (Op.equals (.string e.1) e.2)) q

/-- The query of `find_by`. -/
def findBy (self : Addr) (schema : Schema) (values : ColumnValues) : SelectQuery :=
  (SelectQuery.ofSchema self schema).whereEquals values.entries

/-- The query of `find_one`. -/
def findOne (self : Addr) (schema : Schema) (values : ColumnValues) : SelectQuery :=
  ((SelectQuery.ofSchema self schema).whereEquals values.entries).limit "1"

namespace SelectQuery

/-- The statement that runs has the placeholders of a conjunction of one equation for each entry, in
their order; different entries have different placeholders, and at each of them the back end reads
the value of the entry. The query is made if the texts that `is_named` reads are defined. -/
def SearchesFor (q : SelectQuery) (entries : List (String × SqlValue)) : Prop :=
  (∀ e ∈ entries, e.2.HasText) ∧
  ∀ d stmt, (q.execute d).2 = some stmt → ∃ numbers : List Nat,
    numbers.length = entries.length ∧
    q.where_.toSql.render = " AND ".intercalate
      (entries.zipWith (fun e n => e.1 ++ " = " ++ q.where_.session_.bindParamText n) numbers) ∧
    stmt.sql = some q.generateSql ∧ q.generateSql.placeholders = numbers ∧
    (numbers.mapIdx q.where_.session_.slot).Nodup ∧
    ∀ (i : Nat) e n, entries[i]? = some e → numbers[i]? = some n →
      stmt.bound (q.where_.session_.slot i n) = some e.2

/-! ### The loop -/

/-- The condition for an entry, with the placeholder of a number. -/
def equation (impl : SessionImpl) (e : String × SqlValue) (n : Nat) : SqlText :=
  lit e.1 ++ lit " " ++ lit "=" ++ lit " " ++ impl.bindParam n

/-- The numbers of the placeholders when `n` parameters are bound already: a named value is given a
placeholder but no parameter. -/
def numbersFrom : Nat → List (String × SqlValue) → List Nat
  | _, [] => []
  | n, (_, v) :: es => (n + 1) :: numbersFrom (n + if Helper.isNamed v then 0 else 1) es

/-- The values that become parameters. -/
def boundOf (es : List (String × SqlValue)) : List SqlValue :=
  (es.map Prod.snd).filter fun v => !Helper.isNamed v

/-- What the loop over the entries makes of a query. -/
structure Equated (q : SelectQuery) (es : List (String × SqlValue)) (q' : SelectQuery) : Prop where
  join : q'.join_ = q.join_
  union : q'.union_ = q.union_
  stmt : q'.stmt_ = q.stmt_
  memo : q.sql_ = [] → q'.sql_ = []
  session : q'.where_.session_ = q.where_.session_
  params : q'.params_ = q.params_ ++ boundOf es
  clause : ∀ ts, q.where_.Conjunction ts → q'.where_.Conjunction
    (ts ++ es.zipWith (equation q.where_.session_) (numbersFrom q.params_.length es))

lemma append_and (q : SelectQuery) (o : SqlOperator) :
    q.append .and o =
      { q with
        toQuery := WhereBuilder.boundBy q.toQuery o
        where_ := { q.where_ with
          toWhereClause := q.where_.andText (q.where_.condition q.toQuery o) } } := by
  simp only [append, WhereBuilder.append_eq, WhereBuilder.extend]

/-- One round of the loop. -/
lemma equated_append (q : SelectQuery) (e : String × SqlValue) :
    Equated q [e] (q.append .and (Op.equals (.string e.1) e.2)) := by
  have hvalues : (Op.equals (.string e.1) e.2).boundValues = boundOf [e] := by
    cases hnamed : Helper.isNamed e.2 <;>
      simp [SqlOperator.boundValues, Op.equals, boundOf, hnamed]
  rw [append_and]
  refine ⟨rfl, rfl, by simp, fun hmemo => ?_, rfl, by simp [hvalues], fun ts hts => ?_⟩
  · rw [WhereBuilder.boundBy]
    split
    · exact hmemo
    · rfl
  · exact hts.andText (q.where_.condition_ne_empty q.toQuery _)

lemma Equated.trans {q q' q'' : SelectQuery} {e : String × SqlValue}
    {es : List (String × SqlValue)} (h : Equated q [e] q') (h' : Equated q' es q'') :
    Equated q (e :: es) q'' := by
  have hlength : q'.params_.length
      = q.params_.length + if Helper.isNamed e.2 then 0 else 1 := by
    rw [h.params]
    cases hnamed : Helper.isNamed e.2 <;> simp [boundOf, hnamed]
  refine ⟨h'.join.trans h.join, h'.union.trans h.union, h'.stmt.trans h.stmt,
    fun hmemo => h'.memo (h.memo hmemo), h'.session.trans h.session, ?_, fun ts hts => ?_⟩
  · rw [h'.params, h.params, List.append_assoc]
    simp only [boundOf, List.map_cons, List.map_nil, ← List.filter_append, List.singleton_append]
  · have hclause := h'.clause _ (h.clause ts hts)
    rw [h.session, hlength] at hclause
    simpa [numbersFrom, List.append_assoc] using hclause

lemma equated_whereEquals (q : SelectQuery) (es : List (String × SqlValue)) :
    Equated q es (q.whereEquals es) := by
  induction es generalizing q with
  | nil =>
    exact ⟨rfl, rfl, rfl, id, rfl, by simp [whereEquals, boundOf],
      fun ts hts => by simpa [whereEquals] using hts⟩
  | cons e es ih => exact (equated_append q e).trans (ih _)

/-! ### The numbers -/

lemma numbersFrom_length (n : Nat) (es : List (String × SqlValue)) :
    (numbersFrom n es).length = es.length := by
  induction es generalizing n with
  | nil => rfl
  | cons e es ih => simp [numbersFrom, ih]

/-- Without named values the placeholders are numbered one after the other. -/
lemma numbersFrom_of_unnamed {es : List (String × SqlValue)}
    (h : ∀ e ∈ es, Helper.isNamed e.2 = false) (n : Nat) :
    numbersFrom n es = List.range' (n + 1) es.length := by
  induction es generalizing n with
  | nil => rfl
  | cons e es ih =>
    have hnamed : Helper.isNamed e.2 = false := h e (by simp)
    simp only [numbersFrom, hnamed, List.length_cons, List.range'_succ,
      ih fun e he => h e (by simp [he])]
    rfl

lemma boundOf_of_unnamed {es : List (String × SqlValue)}
    (h : ∀ e ∈ es, Helper.isNamed e.2 = false) : boundOf es = es.map Prod.snd := by
  rw [boundOf, List.filter_eq_self]
  intro v hv
  obtain ⟨e, he, rfl⟩ := List.mem_map.mp hv
  simp [h e he]

/-- As many values are bound as there are entries only if none is named. -/
lemma unnamed_of_length {es : List (String × SqlValue)} (h : es.length ≤ (boundOf es).length) :
    ∀ e ∈ es, Helper.isNamed e.2 = false := by
  have hall := (List.length_filter_eq_length_iff (l := es.map Prod.snd)
    (p := fun v => !Helper.isNamed v)).mp
      (le_antisymm (List.length_filter_le ..) (by simpa [boundOf] using h))
  intro e he
  simpa using hall e.2 (List.mem_map_of_mem he)

lemma placeholders_equations (impl : SessionImpl) (n : Nat) (es : List (String × SqlValue)) :
    (es.zipWith (equation impl) (numbersFrom n es)).flatMap placeholders = numbersFrom n es := by
  induction es generalizing n with
  | nil => rfl
  | cons e es ih => simp [numbersFrom, equation, ih]

/-! ### The queries of `find_by` and `find_one` -/

lemma equated_findBy (self : Addr) (schema : Schema) (values : ColumnValues) :
    Equated (ofSchema self schema) values.entries (findBy self schema values) :=
  equated_whereEquals _ _

lemma equated_findOne (self : Addr) (schema : Schema) (values : ColumnValues) :
    Equated (ofSchema self schema) values.entries (findOne self schema values) := by
  have h := equated_findBy self schema values
  exact ⟨h.join, h.union, h.stmt, fun _ => rfl, h.session, h.params, h.clause⟩

section Searching

variable {self : Addr} {schema : Schema} {es : List (String × SqlValue)} {q : SelectQuery}

lemma Equated.conjunction (h : Equated (ofSchema self schema) es q) :
    q.where_.Conjunction (es.zipWith (equation q.where_.session_) (numbersFrom 0 es)) := by
  rw [h.session]
  exact h.clause [] WhereClause.conjunction_nil

/-- The placeholders of the text are those of the conditions. -/
lemma Equated.placeholders (h : Equated (ofSchema self schema) es q) :
    q.generateSql.placeholders = numbersFrom 0 es := by
  have hwhere : q.where_.toSql.placeholders = numbersFrom 0 es := by
    rw [h.conjunction.toSql_eq, h.conjunction.placeholders, placeholders_equations]
  have hempty : q.where_.empty = true → q.where_.toSql.placeholders = [] := by
    intro hempty
    have hvalue : q.where_.value_.render = "" := by
      simp only [WhereClause.empty, Bool.and_eq_true, empty_eq_true] at hempty
      exact hempty.1.1
    have hnil := not_imp_comm.mp h.conjunction.value (by simp [hvalue])
    rw [h.conjunction.toSql_eq, h.conjunction.placeholders, hnil]
    rfl
  rw [generateSql_eq, placeholders_append, placeholders_coreSql, h.union, h.join, ← hwhere]
  change [] ++ _ ++ [] = _
  rw [List.nil_append, List.append_nil]
  split
  · next hw => exact (hempty hw).symm
  · rfl

lemma Equated.text (h : Equated (ofSchema self schema) es q) :
    q.where_.toSql.render = " AND ".intercalate
      (es.zipWith (fun e n => e.1 ++ " = " ++ q.where_.session_.bindParamText n)
        (numbersFrom 0 es)) := by
  rw [h.conjunction.toSql_eq, h.conjunction.text, List.map_zipWith]
  congr 2
  funext e n
  have hequals : " = " = " " ++ "=" ++ " " := rfl
  simp only [equation, render_append, render_lit, SessionImpl.render_bindParam, hequals,
    String.append_assoc]

/-- The query runs the statement for its text and the values that are not named. -/
lemma Equated.execute_iff (h : Equated (ofSchema self schema) es q) (d : Driver)
    (stmt : Statement) :
    (q.execute d).2 = some stmt ↔ d.Accepts q.generateSql.render q.params_ q.namedParams_ ∧
      stmt = .loaded q.generateSql (boundOf es) q.namedParams_ := by
  have hstale : q.cache.stale = true := Query.stale_of_none h.stmt
  have htext : q.toSql = q.generateSql := toSql_of_empty (by rw [h.memo rfl]; rfl)
  have hparams : q.params_ = boundOf es := h.params
  rw [execute_stale hstale, htext, Query.statementFor, hparams]

/-- If distinct placeholders all have a value, there are as many values as placeholders. -/
lemma length_le_of_bound (text : SqlText) (params : List SqlValue) (named : NamedParams)
    {slots : List Nat} (hnodup : slots.Nodup)
    (hbound : ∀ s ∈ slots, ((Statement.loaded text params named).bound s).isSome) :
    slots.length ≤ params.length := by
  have hsub : slots ⊆ List.range' 1 params.length := by
    intro s hs
    have hsome := hbound s hs
    by_cases hzero : s = 0
    · simp [Statement.loaded, hzero] at hsome
    · have hlt : s - 1 < params.length := by simpa [Statement.loaded, hzero] using hsome
      rw [List.mem_range'_1]
      omega
  simpa using (List.subperm_of_subset hnodup hsub).length_le

/-- A placeholder numbered by its position is its own slot on every back end. -/
lemma slot_succ (impl : SessionImpl) (i : Nat) : impl.slot i (i + 1) = i + 1 := by
  cases impl <;> rfl

lemma mapIdx_slot (impl : SessionImpl) (m : Nat) :
    (List.range' 1 m).mapIdx impl.slot = List.range' 1 m := by
  refine List.ext_getElem (by simp) fun i _ _ => ?_
  rw [List.getElem_mapIdx, List.getElem_range', Nat.one_mul, Nat.add_comm 1 i, slot_succ]

/-- The statement that runs is a search for the entries exactly if all of them have a text and none
is taken for the name of a parameter. -/
lemma Equated.searchesFor_iff (h : Equated (ofSchema self schema) es q) :
    q.SearchesFor es ↔ ∀ e ∈ es, Helper.Unnamed e.2 := by
  simp only [SearchesFor, Helper.Unnamed, forall₂_and]
  refine and_congr_right fun _ => ⟨?_, ?_⟩
  · intro hsearch
    obtain ⟨numbers, hlength, -, -, -, hnodup, hbound⟩ :=
      hsearch .ok _ ((h.execute_iff .ok _).mpr ⟨Driver.ok_accepts .., rfl⟩)
    refine unnamed_of_length ?_
    rw [← hlength, ← List.length_mapIdx (f := q.where_.session_.slot)]
    refine length_le_of_bound q.generateSql _ q.namedParams_ hnodup fun s hs => ?_
    obtain ⟨i, hi, rfl⟩ := List.mem_mapIdx.mp hs
    have hentry : es[i]? = some es[i] := List.getElem?_eq_getElem (by omega)
    rw [hbound i _ _ hentry (List.getElem?_eq_getElem hi)]
    rfl
  · intro hunnamed d stmt hrun
    obtain ⟨-, rfl⟩ := (h.execute_iff d stmt).mp hrun
    have hnumbers := numbersFrom_of_unnamed hunnamed 0
    refine ⟨numbersFrom 0 es, numbersFrom_length 0 es, h.text, rfl, h.placeholders, ?_, ?_⟩
    · rw [hnumbers, Nat.zero_add, mapIdx_slot]
      exact List.nodup_range'
    · intro i e n hentry hn
      have hlt : i < es.length := (List.getElem?_eq_some_iff.mp hentry).1
      rw [hnumbers, Nat.zero_add, List.getElem?_range' hlt, Nat.one_mul, Nat.add_comm 1 i] at hn
      obtain rfl := Option.some.inj hn
      rw [slot_succ]
      simp [Statement.loaded, boundOf_of_unnamed hunnamed, hentry]

end Searching

/-- The queries of `find_by` and `find_one` search for the entries exactly if every value has a text
and none of these starts with `@` or `:`. -/
theorem find_searchesFor_iff (self : Addr) (schema : Schema) (values : ColumnValues) :
    ((findBy self schema values).SearchesFor values.entries ↔
        ∀ e ∈ values.entries, Helper.Unnamed e.2) ∧
      ((findOne self schema values).SearchesFor values.entries ↔
        ∀ e ∈ values.entries, Helper.Unnamed e.2) :=
  ⟨(equated_findBy self schema values).searchesFor_iff,
    (equated_findOne self schema values).searchesFor_iff⟩

/-- A value that starts with `@` leaves its placeholder without a parameter, and the next entry gets
the same placeholder. -/
theorem findBy_not_searchesFor :
    ¬(findBy 0 { tableName_ := "users", columns_ := [], session_ := { impl_ := .sqlite } }
        ⟨[("a", .string "@x"), ("b", .string "5")], by decide⟩).SearchesFor
      [("a", .string "@x"), ("b", .string "5")] := by
  rintro ⟨-, h⟩
  obtain ⟨numbers, -, -, -, hplace, hnodup, -⟩ := h .ok _ rfl
  rw [← hplace] at hnodup
  exact absurd hnodup (by decide)

end SelectQuery

end CodaDb
