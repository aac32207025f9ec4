import CodaDb.Query.SelectRun
import CodaDb.Where.Units

/-!
# The current text of a query

The parts of a select query keep the texts they rendered, each for itself. A query is settled if
none of them keeps a text it would not render now.
-/

namespace CodaDb

open SqlText

namespace WhereClause

mutual
/-- The clause with no text kept, in its parts neither. -/
def forget : WhereClause → WhereClause
  | ⟨_, value_, and_, or_⟩ => ⟨[], value_, forgetAll and_, forgetAll or_⟩

def forgetAll : List WhereClause → List WhereClause
  | [] => []
  | w :: ws => w.forget :: forgetAll ws
end

/-- The text of the clause as it is now: what `generate_sql` renders if nothing is kept. -/
def current (w : WhereClause) : SqlText := w.forget.generateSql

lemma forgetAll_eq (ws : List WhereClause) : forgetAll ws = ws.map forget := by
  induction ws with
  | nil => rw [forgetAll, List.map_nil]
  | cons w ws ih => rw [forgetAll, ih, List.map_cons]

lemma forget_eq (w : WhereClause) :
    w.forget = { value_ := w.value_, and_ := w.and_.map forget, or_ := w.or_.map forget } := by
  obtain ⟨sql, value, ands, ors⟩ := w
  rw [forget, forgetAll_eq, forgetAll_eq]

lemma toSql_forget (w : WhereClause) : w.forget.toSql = w.current := by
  rw [toSql_of_empty, current]
  rw [forget_eq]
  rfl

lemma empty_forget (w : WhereClause) : w.forget.empty = w.empty := by
  rw [forget_eq, empty, empty, List.isEmpty_map, List.isEmpty_map]

/-- The loop over parts that render what they are now. -/
lemma joinSql_forget {ws : List WhereClause} (h : ∀ p ∈ ws, p.toSql = p.current)
    (connective : String) : joinSql connective (ws.map forget) = joinSql connective ws := by
  induction ws with
  | nil => rfl
  | cons w ws ih =>
    have hrest := ih fun p hp => h p (List.mem_cons_of_mem w hp)
    rw [List.map_cons, joinSql_cons, joinSql_cons, toSql_forget, ← h w List.mem_cons_self, hrest,
      List.isEmpty_map]

/-- A part is never edited, so it renders what it is now; the clause itself may still change. -/
structure Settled (w : WhereClause) : Prop where
  coherent : w.Coherent
  parts : ∀ p ∈ w.and_ ++ w.or_, p.toSql = p.current

namespace Settled

variable {w value : WhereClause}

lemma generateSql (h : w.Settled) : w.generateSql = w.current := by
  have hand := joinSql_forget (fun p hp => h.parts p (List.mem_append_left w.or_ hp)) " AND "
  have hor := joinSql_forget (fun p hp => h.parts p (List.mem_append_right w.and_ hp)) " OR "
  rw [current, forget_eq, generateSql_eq, generateSql_eq]
  simp only [andPart, orPart, List.isEmpty_map, hand, hor]

lemma toSql (h : w.Settled) : w.toSql = w.current :=
  (toSql_of_coherent h.coherent).trans h.generateSql

/-- A new part settles as it was before. -/
lemma mem_concat {ws : List WhereClause} (hws : ∀ p ∈ ws, p.toSql = p.current)
    (hvalue : value.Settled) : ∀ p ∈ ws ++ [value], p.toSql = p.current := by
  intro p hp
  rcases List.mem_append.mp hp with hp | hp
  · exact hws p hp
  · rw [List.mem_singleton.mp hp]
    exact hvalue.toSql

/-- A clause that has only a value. -/
lemma ofText (value : SqlText) : (ofText value).Settled :=
  ⟨.inl rfl, fun _ hp => absurd hp List.not_mem_nil⟩

lemma replaceValue (h : w.Settled) (value : SqlText) :
    (WhereClause.setModified { w with value_ := value }).Settled :=
  ⟨.inl rfl, h.parts⟩

lemma addAnd (h : w.Settled) (hvalue : value.Settled) :
    (WhereClause.setModified { w with and_ := w.and_ ++ [value] }).Settled := by
  refine ⟨.inl rfl, fun p hp => ?_⟩
  rcases List.mem_append.mp hp with hp | hp
  · exact mem_concat (fun p hp => h.parts p (List.mem_append_left w.or_ hp)) hvalue p hp
  · exact h.parts p (List.mem_append_right w.and_ hp)

lemma addOr (h : w.Settled) (hvalue : value.Settled) :
    (WhereClause.setModified { w with or_ := w.or_ ++ [value] }).Settled := by
  refine ⟨.inl rfl, fun p hp => ?_⟩
  rcases List.mem_append.mp hp with hp | hp
  · exact h.parts p (List.mem_append_left w.or_ hp)
  · exact mem_concat (fun p hp => h.parts p (List.mem_append_right w.and_ hp)) hvalue p hp

end Settled

/-- Every clause that can be built is settled. -/
lemma Reachable.settled {w : WhereClause} (h : w.Reachable) : w.Settled := by
  induction h with
  | default => exact .ofText []
  | text value => exact .ofText value
  | and _ _ ih ihvalue =>
    rw [WhereClause.and]
    split
    · exact ih.replaceValue _
    · exact ih.addAnd ihvalue
  | andText value _ ih =>
    rw [WhereClause.andText]
    split_ifs
    · exact ih
    · exact ih.replaceValue value
    · exact ih.addAnd (.ofText value)
  | or _ _ ih ihvalue =>
    rw [WhereClause.or]
    split_ifs
    · exact ih
    · exact ih.replaceValue _
    · exact ih.addOr ihvalue
  | orText value _ ih =>
    rw [WhereClause.orText]
    split_ifs
    · exact ih
    · exact ih.replaceValue value
    · exact ih.addOr (.ofText value)
  | reset _ _ => exact .ofText []
  | resetText value _ _ => exact .ofText value
  | toSql _ ih => exact ⟨coherent_memoise ih.coherent, ih.parts⟩

lemma Reachable.toSql_eq {w : WhereClause} (h : w.Reachable) : w.toSql = w.current :=
  h.settled.toSql

section Growth

variable (w : WhereClause) {value : SqlText}

lemma lt_length_replaceValue (hempty : w.value_.render = "") (hvalue : value.render ≠ "") :
    w.generateSql.render.length <
      (generateSql { w with sql_ := [], value_ := value }).render.length := by
  have hpos : 0 < value.render.length :=
    Nat.pos_of_ne_zero (mt String.length_eq_zero_iff.mp hvalue)
  rw [generateSql_eq, generateSql_eq]
  simp only [andPart, orPart]
  split_ifs <;> simp [hempty] <;> omega

lemma lt_length_addAnd (v : WhereClause) :
    w.generateSql.render.length <
      (generateSql { w with sql_ := [], and_ := w.and_ ++ [v] }).render.length := by
  have hpart : w.andPart.render.length <
      (andPart { w with sql_ := [], and_ := w.and_ ++ [v] }).render.length := by
    have hword : " AND ".length = 5 := rfl
    rw [andPart_concat]
    simp only [render_append, String.length_append, render_lit]
    omega
  rw [generateSql_eq, generateSql_eq]
  by_cases hor : w.or_ = []
  · simpa [hor] using hpart
  · by_cases hand : w.and_ = []
    · have hbefore : " OR ".length = 4 := rfl
      have hafter : " OR (".length = 5 := rfl
      simp only [hor, hand, orPart, List.isEmpty_iff, if_false, if_true, render_append,
        String.length_append, render_lit, List.nil_append, List.cons_ne_nil] at hpart ⊢
      omega
    · simp only [hor, hand, orPart, List.isEmpty_iff, if_false, render_append,
        String.length_append, List.append_eq_nil_iff, false_and] at hpart ⊢
      omega

lemma lt_length_addOr (v : WhereClause) :
    w.generateSql.render.length <
      (generateSql { w with sql_ := [], or_ := w.or_ ++ [v] }).render.length := by
  have hword : " OR ".length = 4 := rfl
  have hopen : " OR (".length = 5 := rfl
  rw [generateSql_eq, generateSql_eq]
  by_cases hor : w.or_ = []
  · by_cases hand : w.and_ = []
    · simp [hor, hand, andPart, orPart]
      omega
    · simp [hor, hand, andPart, orPart]
      omega
  · have hpart : w.orPart.render.length <
        (orPart { w with sql_ := [], or_ := w.or_ ++ [v] }).render.length := by
      rw [orPart, orPart, joinSql_concat " OR " hor]
      simp only [render_append, String.length_append, render_lit]
      omega
    have hand : andPart { w with sql_ := [], or_ := w.or_ ++ [v] } = w.andPart := rfl
    simp only [hor, hand, List.isEmpty_iff, List.append_eq_nil_iff, false_and, if_false]
    split_ifs <;> simp only [render_append, String.length_append] <;> omega

/-- A text that is appended shows. -/
lemma lt_length_andText (hvalue : value.render ≠ "") :
    w.generateSql.render.length < (w.andText value).generateSql.render.length := by
  rw [andText, if_neg (by simpa using hvalue)]
  split
  · next hempty =>
    exact w.lt_length_replaceValue (empty_eq_true.mp hempty) hvalue
  · exact w.lt_length_addAnd (ofText value)

lemma lt_length_orText (hvalue : value.render ≠ "") :
    w.generateSql.render.length < (w.orText value).generateSql.render.length := by
  rw [orText, if_neg (by simpa using hvalue)]
  split
  · next hempty =>
    exact w.lt_length_replaceValue (empty_eq_true.mp hempty) hvalue
  · exact w.lt_length_addOr (ofText value)

/-- Only an empty text leaves a clause as it is. -/
lemma generateSql_same_iff {w w' : WhereClause} {value : String} (hempty : value = "" → w' = w)
    (hgrows : value ≠ "" → w.generateSql.render.length < w'.generateSql.render.length) :
    w'.generateSql.render = w.generateSql.render ↔ value = "" := by
  constructor
  · intro htext
    by_contra hvalue
    exact absurd (congrArg String.length htext) (Nat.ne_of_gt (hgrows hvalue))
  · intro hvalue
    rw [hempty hvalue]

lemma generateSql_andText (value : String) :
    (w.andText (lit value)).generateSql.render = w.generateSql.render ↔ value = "" := by
  refine generateSql_same_iff ?_ fun hvalue => w.lt_length_andText (by rwa [render_lit])
  rintro rfl
  exact if_pos (by simp)

lemma generateSql_orText (value : String) :
    (w.orText (lit value)).generateSql.render = w.generateSql.render ↔ value = "" := by
  refine generateSql_same_iff ?_ fun hvalue => w.lt_length_orText (by rwa [render_lit])
  rintro rfl
  exact if_pos (by simp)

end Growth

end WhereClause

/-- A kept text that was right stays right exactly if there is none or nothing changed. -/
lemma kept_iff {memo before after : SqlText} {old new : String}
    (hbefore : (if memo.empty then before else memo).render = old) (hafter : after.render = new) :
    (if memo.empty then after else memo).render = new ↔ memo.render = "" ∨ new = old := by
  by_cases hmemo : memo.render = ""
  · rw [if_pos (empty_eq_true.mpr hmemo)]
    exact iff_of_true hafter (.inl hmemo)
  · rw [if_neg (mt empty_eq_true.mp hmemo)] at hbefore ⊢
    rw [or_iff_right hmemo, hbefore]
    exact eq_comm

/-- The text that was kept is the text from then on. -/
lemma kept_memoise (memo generated : SqlText) :
    (if (if memo.empty then generated else memo).empty then generated
      else if memo.empty then generated else memo) = if memo.empty then generated else memo := by
  by_cases hmemo : memo.empty = true
  · rw [if_pos hmemo, ite_self]
  · rw [if_neg hmemo, if_neg hmemo]

namespace JoinClause

/-- The join with no text kept, in its clause neither. -/
def forget (j : JoinClause) : JoinClause := { j with sql_ := [], on_ := j.on_.forget }

/-- The text of the join as it is now. -/
def current (j : JoinClause) : SqlText := j.forget.generateSql

/-- The types of join that have no clause. -/
def HasOn (j : JoinClause) : Prop := j.type_ ≠ .cross ∧ j.type_ ≠ .natural

instance (j : JoinClause) : Decidable j.HasOn := inferInstanceAs (Decidable (_ ∧ _))

/-- The part of a join's text that comes from its clause. -/
def onPart (j : JoinClause) : SqlText := if j.HasOn then lit " ON " ++ j.on_.current else []

lemma current_eq (j : JoinClause) :
    j.current = lit j.type_.words ++ lit " JOIN " ++ lit j.tableName_ ++ j.onPart := by
  rw [current, generateSql, onPart, ← WhereClause.toSql_forget]
  rfl

lemma generateSql_eq_current {j : JoinClause} (h : j.on_.Reachable) :
    j.generateSql = j.current := by
  rw [current_eq, onPart, generateSql, h.toSql_eq]
  rfl

structure Settled (j : JoinClause) : Prop where
  on : j.on_.Reachable
  text : j.toSql.render = j.current.render

lemma settled_of_empty {j : JoinClause} (hon : j.on_.Reachable) (hmemo : j.sql_.render = "") :
    j.Settled := by
  refine ⟨hon, ?_⟩
  rw [toSql, if_pos (empty_eq_true.mpr hmemo), generateSql_eq_current hon]

lemma settled_ofTable (tableName : String) (type : JoinType) : (ofTable tableName type).Settled :=
  settled_of_empty .default rfl

lemma Settled.memoise {j : JoinClause} (h : j.Settled) : j.memoise.Settled :=
  ⟨h.on, (congrArg render (kept_memoise j.sql_ j.generateSql)).trans h.text⟩

end JoinClause

lemma WhereClause.Reachable.extend {w : WhereClause} (h : w.Reachable) (how : Connective)
    (condition : SqlText) : (WhereBuilder.extend how w condition).Reachable := by
  cases how with
  | reset => exact h.resetText condition
  | and | or => exact h.andText condition

namespace WhereBuilder

/-- The part of a query's text that comes from its where builder. -/
def currentPart (w : WhereBuilder) : SqlText :=
  if w.empty then [] else lit " WHERE " ++ w.toWhereClause.current

/-- A condition that is appended shows in the text. -/
lemma currentPart_andText {w : WhereBuilder} (hw : w.toWhereClause.Reachable) {condition : SqlText}
    (hcondition : condition.render ≠ "") :
    (currentPart { w with
      toWhereClause := w.toWhereClause.andText condition }).render ≠ w.currentPart.render := by
  intro heq
  have hgrows := w.toWhereClause.lt_length_andText hcondition
  rw [(hw.andText condition).settled.generateSql, hw.settled.generateSql] at hgrows
  have hempty : (w.toWhereClause.andText condition).empty = false := by
    rw [Bool.eq_false_iff]
    intro hempty
    have htext := ((hw.andText condition).wellFormed.empty_iff_text).mp hempty
    rw [(hw.andText condition).toSql_eq] at htext
    rw [htext] at hgrows
    exact absurd hgrows (Nat.not_lt_zero _)
  have hword : " WHERE ".length = 7 := rfl
  have hlength := congrArg String.length heq
  rw [currentPart, currentPart, if_neg (by simp [hempty])] at hlength
  split at hlength <;>
    simp only [render_append, render_lit, render_nil, String.length_append, String.length_empty]
      at hlength <;>
    omega

end WhereBuilder

namespace SelectQuery

mutual
/-- The query with no text kept, in its parts neither. -/
def forget : SelectQuery → SelectQuery
  | ⟨q, w, joins, limit, orderBy, groupBy, columns, tableName, union⟩ =>
    ⟨{ q with sql_ := [] }, { w with toWhereClause := w.toWhereClause.forget },
      joins.map JoinClause.forget, limit, orderBy, groupBy, columns, tableName, forgetUnion union⟩

def forgetUnion : Option UnionOperator → Option UnionOperator
  | none => none
  | some u => some (forgetOperator u)

def forgetOperator : UnionOperator → UnionOperator
  | ⟨query, type⟩ => ⟨query.forget, type⟩
end

/-- The text of the query as it is now: what `generate_sql` renders if nothing is kept. -/
def current (q : SelectQuery) : SqlText := q.forget.generateSql

/-- The text before the joins. -/
def front (q : SelectQuery) : SqlText :=
  lit "SELECT " ++ lit (if q.columns_.isEmpty then "*" else Helper.joinCsv q.columns_) ++
    lit " FROM " ++ lit q.tableName_

/-- The text between the where clause and the union. -/
def back (q : SelectQuery) : SqlText :=
  (if q.orderBy_ = "" then [] else lit " ORDER BY " ++ lit q.orderBy_) ++
    (if q.limit_ = "" then [] else lit " LIMIT " ++ lit q.limit_) ++
    (if q.groupBy_ = "" then [] else lit " GROUP BY " ++ lit q.groupBy_)

lemma generateSql_parts (q : SelectQuery) :
    q.generateSql = q.front ++ q.join_.flatMap JoinClause.toSql ++
      (if q.where_.empty then [] else lit " WHERE " ++ q.where_.toSql) ++ q.back ++
        unionSql q.union_ := by
  rw [generateSql_eq, coreSql, front, back]
  simp only [List.append_assoc]

lemma current_eq (q : SelectQuery) :
    q.current = q.front ++ q.join_.flatMap JoinClause.current ++ q.where_.currentPart ++ q.back ++
      unionSql (forgetUnion q.union_) := by
  obtain ⟨q, w, joins, limit, orderBy, groupBy, columns, tableName, union⟩ := q
  have hjoins : (joins.map JoinClause.forget).flatMap JoinClause.toSql =
      joins.flatMap JoinClause.current := List.flatMap_map ..
  rw [current, forget, generateSql_parts, WhereBuilder.currentPart,
    ← WhereClause.empty_forget w.toWhereClause, ← WhereClause.toSql_forget]
  simp only [hjoins]
  rfl

/-- What the calls through references leave right: the clauses are ones that can be built, and no
join and no union keeps an outdated text. -/
structure PartsSettled (q : SelectQuery) : Prop where
  «where» : q.where_.toWhereClause.Reachable
  joins : ∀ j ∈ q.join_, j.Settled
  union : (unionSql q.union_).render = (unionSql (forgetUnion q.union_)).render

/-- Nor does the query. -/
structure Settled (q : SelectQuery) : Prop extends PartsSettled q where
  text : q.toSql.render = q.current.render

lemma PartsSettled.generateSql {q : SelectQuery} (h : q.PartsSettled) :
    q.generateSql.render = q.current.render := by
  have hjoins : ∀ joins : List JoinClause, (∀ j ∈ joins, j.Settled) →
      SqlText.render (joins.flatMap JoinClause.toSql) =
        SqlText.render (joins.flatMap JoinClause.current) := by
    intro joins hjoins
    induction joins with
    | nil => rfl
    | cons j joins ih =>
      have hrest := ih fun j hj => hjoins j (List.mem_cons_of_mem _ hj)
      rw [List.flatMap_cons, List.flatMap_cons, render_append, render_append, hrest,
        (hjoins j List.mem_cons_self).text]
  rw [generateSql_parts, current_eq, WhereBuilder.currentPart, h.where.toSql_eq]
  simp only [render_append, hjoins q.join_ h.joins, h.union]

lemma PartsSettled.settled_of_empty {q : SelectQuery} (h : q.PartsSettled)
    (hmemo : q.sql_.render = "") : q.Settled := by
  refine ⟨h, ?_⟩
  rw [toSql_of_empty hmemo, h.generateSql]

/-- Whether the query still renders what it is depends on the text kept, if its parts are right. -/
lemma PartsSettled.settled_iff {q before : SelectQuery} (h : q.PartsSettled)
    (hbefore : before.Settled) (hmemo : q.sql_ = before.sql_) :
    q.Settled ↔ before.sql_.render = "" ∨ q.current.render = before.current.render := by
  have hkept := kept_iff hbefore.text h.generateSql
  rw [← hkept, ← hmemo]
  exact ⟨fun hq => hq.text, fun htext => ⟨h, htext⟩⟩

/-- The text does not depend on what the base class keeps. -/
@[simp] lemma current_base (q : SelectQuery) (base : Query) :
    current { q with toQuery := base } = q.current := by
  rw [current_eq, current_eq]
  rfl

lemma PartsSettled.base {q : SelectQuery} (h : q.PartsSettled) (base : Query) :
    PartsSettled { q with toQuery := base } :=
  ⟨h.where, h.joins, h.union⟩

lemma Settled.base {q : SelectQuery} (h : q.Settled) {base : Query} (hmemo : base.sql_ = q.sql_) :
    Settled { q with toQuery := base } := by
  refine ((h.toPartsSettled.base base).settled_iff h hmemo).mpr (.inr ?_)
  rw [current_base]

lemma PartsSettled.setModified {q : SelectQuery} (h : q.PartsSettled) : q.setModified.Settled :=
  (h.base _).settled_of_empty rfl

lemma Settled.memoise {q : SelectQuery} (h : q.Settled) : q.memoise.Settled := by
  refine ⟨h.toPartsSettled.base _, ?_⟩
  have htext : q.memoise.toSql = q.toSql := by
    rw [toSql, SelectQuery.memoise, generateSql_base, toSql]
    exact kept_memoise q.sql_ q.generateSql
  rw [htext, h.text, SelectQuery.memoise, current_base]

lemma Settled.execute {q : SelectQuery} (h : q.Settled) (d : Driver) : (q.execute d).1.Settled := by
  obtain ⟨base, heq, hbase⟩ := q.prepare_spec d
  rw [execute_eq, heq]
  exact h.memoise.base hbase.memo

/-! ### Queries that are built without references -/

lemma settled_build (c : SelectConstructor) : c.build.Settled := by
  refine PartsSettled.settled_of_empty ?_ ?_
  · cases c <;> exact ⟨.default, fun _ hj => absurd hj List.not_mem_nil, rfl⟩
  · cases c <;> rfl

lemma Settled.unionWith {q query : SelectQuery} (h : q.Settled) (hquery : query.Settled)
    (type : UnionType) : (q.unionWith query type).Settled := by
  have hother : query.copy.move.PartsSettled :=
    (hquery.toPartsSettled.base query.toQuery.copy).base query.copy.toQuery.move
  refine PartsSettled.setModified ⟨h.where, h.joins, ?_⟩
  rw [forgetUnion, forgetOperator, unionSql_some, unionSql_some]
  simp only [render_append]
  rw [toSql_of_empty (q := query.copy.move) rfl, hother.generateSql, current]
  refine congrArg _ ?_
  rw [toSql_of_empty]
  obtain ⟨q, w, joins, limit, orderBy, groupBy, columns, tableName, union⟩ := query
  rfl

/-- What an edit hands over keeps no outdated text. -/
def SettledEdit : SelectEdit → Prop
  | .join value => value.Settled
  | .unionWith query _ => query.Settled
  | _ => True

/-- The setters keep a query settled, and so do joins and unions with parts that are. -/
lemma Settled.edit {q : SelectQuery} (h : q.Settled) (e : SelectEdit) (he : SettledEdit e) :
    (e.apply q).Settled := by
  cases e with
  | column value =>
    rw [SelectEdit.apply, column]
    split
    · exact h
    · exact PartsSettled.setModified ⟨h.where, h.joins, h.union⟩
  | join value =>
    refine PartsSettled.setModified ⟨h.where, fun j hj => ?_, h.union⟩
    rcases List.mem_append.mp hj with hj | hj
    · exact h.joins j hj
    · exact (List.mem_singleton.mp hj).symm ▸ he
  | unionWith query type => exact h.unionWith he type
  | «where» how o =>
    have hclause := h.where.extend how (q.where_.condition q.toQuery o.1)
    simp only [SelectEdit.apply, append, WhereBuilder.append_eq, WhereBuilder.boundBy_unnamed]
    cases how <;> exact PartsSettled.settled_of_empty ⟨hclause, h.joins, h.union⟩ rfl
  | bindAll values index =>
    rw [SelectEdit.apply, bindAll]
    rcases q.toQuery.bindAll_cases values index with hsame | ⟨params, hmod⟩
    · exact h.base (congrArg Query.sql_ hsame)
    · rw [hmod]
      exact (h.toPartsSettled.base _).settled_of_empty rfl
  | bindMap values =>
    rw [SelectEdit.apply, bindMap]
    rcases q.toQuery.bindMap_cases values with hsame | ⟨named, hmod⟩
    · exact h.base (congrArg Query.sql_ hsame)
    · rw [hmod]
      exact (h.toPartsSettled.base _).settled_of_empty rfl
  | _ => exact PartsSettled.setModified ⟨h.where, h.joins, h.union⟩

/-! ### Changes of one part -/

lemma current_withWhere (q : SelectQuery) (w : WhereBuilder) :
    (current { q with where_ := w }).render = q.current.render ↔
      w.currentPart.render = q.where_.currentPart.render := by
  have hfront : front { q with where_ := w } = q.front := rfl
  have hback : back { q with where_ := w } = q.back := rfl
  rw [current_eq, current_eq, hfront, hback]
  simp only [render_append]
  rw [String.append_left_inj, String.append_left_inj]
  exact String.append_right_inj _

lemma settled_withWhere {q : SelectQuery} (h : q.Settled) {w : WhereBuilder}
    (hw : w.toWhereClause.Reachable) :
    Settled { q with where_ := w } ↔
      q.sql_.render = "" ∨ w.currentPart.render = q.where_.currentPart.render := by
  have hparts : PartsSettled { q with where_ := w } := ⟨hw, h.joins, h.union⟩
  rw [← current_withWhere]
  exact hparts.settled_iff h rfl

/-- A condition that nothing is bound for stays unseen if the query keeps a text. -/
lemma settled_andText {q : SelectQuery} (h : q.Settled) {condition : SqlText}
    (hcondition : condition.render ≠ "") :
    Settled { q with where_ := { q.where_ with
      toWhereClause := q.where_.toWhereClause.andText condition } } ↔ q.sql_.render = "" := by
  have hpart := WhereBuilder.currentPart_andText h.where hcondition
  exact (settled_withWhere h (h.where.andText condition)).trans (or_iff_left hpart)

lemma exists_set {α : Type} {l : List α} {i : Nat} {a : α} (h : l[i]? = some a) :
    ∃ before after, l = before ++ a :: after ∧ ∀ b, l.set i b = before ++ b :: after := by
  obtain ⟨hi, rfl⟩ := List.getElem?_eq_some_iff.mp h
  refine ⟨l.take i, l.drop (i + 1), ?_, fun b => ?_⟩
  · rw [← List.drop_eq_getElem_cons hi, List.take_append_drop]
  · rw [List.set_eq_take_append_cons_drop, if_pos hi]

/-- The text of a query shows the text of each of its joins. -/
lemma current_setJoin {q : SelectQuery} {i : Nat} {j : JoinClause} (hj : q.join_[i]? = some j)
    (j' : JoinClause) :
    (current { q with join_ := q.join_.set i j' }).render = q.current.render ↔
      j'.current.render = j.current.render := by
  obtain ⟨before, after, hjoins, hset⟩ := exists_set hj
  have hfront : front { q with join_ := q.join_.set i j' } = q.front := rfl
  have hback : back { q with join_ := q.join_.set i j' } = q.back := rfl
  rw [current_eq, current_eq, hfront, hback, hset, hjoins]
  simp only [List.flatMap_append, List.flatMap_cons, render_append]
  rw [String.append_left_inj, String.append_left_inj, String.append_left_inj]
  refine (String.append_right_inj _).trans ((String.append_right_inj _).trans ?_)
  exact String.append_left_inj _

lemma settled_setJoin {q : SelectQuery} (h : q.Settled) {i : Nat} {j : JoinClause}
    (hj : q.join_[i]? = some j) (j' : JoinClause) :
    Settled { q with join_ := q.join_.set i j' } ↔
      j'.Settled ∧ (q.sql_.render = "" ∨ j'.current.render = j.current.render) := by
  rw [← current_setJoin hj]
  constructor
  · intro hq
    have hmem : j' ∈ q.join_.set i j' := by
      obtain ⟨before, after, -, hset⟩ := exists_set hj
      simp [hset]
    exact ⟨hq.joins j' hmem, (hq.toPartsSettled.settled_iff h rfl).mp hq⟩
  · rintro ⟨hj', htext⟩
    have hparts : PartsSettled { q with join_ := q.join_.set i j' } := by
      refine ⟨h.where, fun k hk => ?_, h.union⟩
      rcases List.mem_or_eq_of_mem_set hk with hk | rfl
      · exact h.joins k hk
      · exact hj'
    exact (hparts.settled_iff h rfl).mpr htext

end SelectQuery

end CodaDb
