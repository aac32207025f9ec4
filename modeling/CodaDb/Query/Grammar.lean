import CodaDb.Lib.SelectGrammar
import CodaDb.Query.Union

/-!
# Select queries and the grammar of select statements

A query whose parts are fragments renders a text with the language `SelectQuery.language`: the
clauses in the order in which `generate_sql` appends them, `GROUP BY` last, and behind them the
query it is united with. This is a compound of the grammar exactly if no clause for the whole
compound stands before a union or a `GROUP BY`, and no join keeps a text from before its condition.
-/

namespace CodaDb

open SqlText Token SelectGrammar
open scoped Computability

section WellFormed

variable (reserved : Set String)

/-- A condition whose texts are fragments; a kept text is the one the clause renders. -/
inductive WhereClause.Formed : WhereClause → Prop where
  | mk {w : WhereClause} (kept : w.toSql = w.generateSql)
      (value_ : Fragment reserved w.value_.render) (and_ : ∀ v ∈ w.and_, Formed v)
      (or_ : ∀ v ∈ w.or_, Formed v) : Formed w

/-- A condition without any text. -/
structure WhereClause.Blank (w : WhereClause) : Prop where
  sql_ : w.sql_.render = ""
  value_ : w.value_.render = ""
  and_ : w.and_ = []
  or_ : w.or_ = []

namespace JoinClause

/-- A join with a table, and a condition where its type needs one; a kept text is one that the join
rendered with this condition or an earlier one, or with none. -/
structure Formed (j : JoinClause) : Prop where
  tableName_ : Fragment reserved j.tableName_
  on_ : j.type_ ≠ .cross ∧ j.type_ ≠ .natural → Fragment reserved j.on_.toSql.render
  kept : j.sql_.render = "" ∨ ∃ on : WhereClause,
    (on.toSql.render = "" ∨ Fragment reserved on.toSql.render) ∧
      j.sql_ = generateSql { j with on_ := on }

/-- The joins that calls with fragments make. -/
inductive Written : JoinClause → Prop where
  | ofTable {tableName : String} (h : Fragment reserved tableName) (type : JoinType) :
      Written (ofTable tableName type)
  | table {j : JoinClause} (hj : Written j) {value : String} (h : Fragment reserved value) :
      Written (j.table value)
  | type {j : JoinClause} (hj : Written j) (value : JoinType) : Written (j.type value)
  | on {j : JoinClause} (hj : Written j) {value : String}
      (h : value = "" ∨ Fragment reserved value) : Written (j.on value)
  | onClause {j : JoinClause} (hj : Written j) {value : WhereClause}
      (h : value.Blank ∨ value.Formed reserved) : Written (j.onClause value)
  | onAnd {j : JoinClause} (hj : Written j) {value : String}
      (h : value = "" ∨ Fragment reserved value) : Written (j.onAnd value)
  | onOr {j : JoinClause} (hj : Written j) {value : String}
      (h : value = "" ∨ Fragment reserved value) : Written (j.onOr value)
  | memoise {j : JoinClause} (hj : Written j) : Written j.memoise

/-- The join needs a condition, and keeps a text without it. -/
def Lacks (j : JoinClause) : Prop :=
  (j.type_ ≠ .cross ∧ j.type_ ≠ .natural) ∧
    j.sql_.render = (generateSql { j with on_ := {} }).render

instance (j : JoinClause) : Decidable j.Lacks := inferInstanceAs (Decidable (_ ∧ _))

end JoinClause

namespace SelectQuery

/-- The texts of the query itself are fragments. -/
structure Fragments (q : SelectQuery) : Prop where
  columns_ : ∀ c ∈ q.columns_, Fragment reserved c
  tableName_ : Fragment reserved q.tableName_
  join_ : ∀ j ∈ q.join_, j.Formed reserved
  where_ : q.where_.empty = false → Fragment reserved q.where_.toSql.render
  orderBy_ : q.orderBy_ ≠ "" → Fragment reserved q.orderBy_
  limit_ : q.limit_ ≠ "" → Fragment reserved q.limit_
  groupBy_ : q.groupBy_ ≠ "" → Fragment reserved q.groupBy_

/-- So are those of the queries it is united with; a text such a query keeps is the one it
renders. -/
inductive Formed : SelectQuery → Prop where
  | mk {q : SelectQuery} (fragments : q.Fragments reserved)
      (kept : ∀ u, q.union_ = some u → u.query.toSql = u.query.generateSql)
      (union_ : ∀ u, q.union_ = some u → Formed u.query) : Formed q

end SelectQuery

end WellFormed

section Condition

variable {reserved : Set String}

lemma WhereClause.fragment_joinSql {connective : String} {ts : List Token}
    (hconnective : Separates connective ts) (hts : ∀ t ∈ ts, Plain reserved t)
    {ws : List WhereClause} (hne : ws ≠ []) (hws : ∀ w ∈ ws, Fragment reserved w.toSql.render) :
    Fragment reserved (joinSql connective ws).render := by
  induction ws with
  | nil => exact absurd rfl hne
  | cons w ws ih =>
    rw [List.forall_mem_cons] at hws
    rw [joinSql_cons]
    by_cases hlast : ws = []
    · simpa [hlast] using hws.1
    · have hrest := fragment_append hws.1 hconnective hts (ih hlast hws.2)
      simpa [hlast, String.append_assoc] using hrest

/-- A condition whose texts are fragments renders a fragment. -/
lemma WhereClause.Formed.fragment (hand : "AND" ∉ reserved) (hor : "OR" ∉ reserved)
    {w : WhereClause} (h : w.Formed reserved) : Fragment reserved w.toSql.render := by
  have hsepAnd : Separates " AND " [.word "AND"] := by decide
  have hsepOr : Separates " OR " [.word "OR"] := by decide
  have hplainAnd : ∀ t ∈ [Token.word "AND"], Plain reserved t := by simpa [Plain] using hand
  have hplainOr : ∀ t ∈ [Token.word "OR"], Plain reserved t := by simpa [Plain] using hor
  induction h with
  | @mk w hkept hvalue _ _ ihand ihor =>
    have handPart : Fragment reserved w.andPart.render := by
      rw [andPart]
      by_cases hempty : w.and_ = []
      · simpa [hempty] using hvalue
      · have hall := fragment_append hvalue hsepAnd hplainAnd
          (fragment_joinSql hsepAnd hplainAnd hempty ihand)
        simpa [hempty, String.append_assoc] using hall
    rw [hkept, generateSql_eq]
    by_cases hempty : w.or_ = []
    · simpa [hempty] using handPart
    have horPart : Fragment reserved w.orPart.render :=
      fragment_joinSql hsepOr hplainOr hempty ihor
    by_cases hsingle : w.and_ = []
    · have hall := fragment_append handPart hsepOr hplainOr horPart
      simpa [hempty, hsingle, String.append_assoc] using hall
    · have hall := fragment_append (fragment_group handPart) hsepOr hplainOr
        (fragment_group horPart)
      have hopen : " OR (" = " OR " ++ "(" := by decide
      simp only [List.isEmpty_iff, hempty, hsingle, if_false, render_append, render_lit, hopen]
      simpa only [String.append_assoc] using hall

lemma WhereClause.Blank.toSql {w : WhereClause} (h : w.Blank) : w.toSql.render = "" := by
  rw [toSql_of_empty h.sql_, generateSql_eq]
  simp [andPart, h.value_, h.and_, h.or_]

lemma fragment_ne_empty {text : String} (h : Fragment reserved text) : text ≠ "" := by
  rintro rfl
  exact h.2.1 rfl

lemma WhereClause.formed_ofText {text : String} (h : Fragment reserved text) :
    (ofText (lit text)).Formed reserved :=
  .mk (toSql_of_empty rfl) (by simpa [ofText] using h) nofun nofun

lemma WhereClause.formed_concat {ws : List WhereClause} {w : WhereClause}
    (hws : ∀ v ∈ ws, v.Formed reserved) (hw : w.Formed reserved) :
    ∀ v ∈ ws ++ [w], v.Formed reserved :=
  List.forall_mem_append.mpr ⟨hws, List.forall_mem_singleton.mpr hw⟩

/-- The first text of a condition. -/
lemma WhereClause.Blank.formed {w : WhereClause} (hw : w.Blank) {text : String}
    (h : Fragment reserved text) : Formed reserved { w with sql_ := [], value_ := lit text } :=
  .mk (toSql_of_empty rfl) (by simpa using h) (by simp [hw.and_]) (by simp [hw.or_])

/-- A text that is appended to a condition with fragments, or to none. -/
lemma WhereClause.formed_andText {w : WhereClause} (hw : w.Blank ∨ w.Formed reserved)
    {text : String} (h : text = "" ∨ Fragment reserved text) :
    (w.andText (lit text)).Blank ∨ (w.andText (lit text)).Formed reserved := by
  rcases h with rfl | h
  · simpa [andText] using hw
  have hne := fragment_ne_empty h
  right
  rcases hw with hw | @⟨_, -, hvalue, hand, hor⟩
  · have hfirst : w.andText (lit text) = { w with sql_ := [], value_ := lit text } := by
      simp [andText, hne, hw.value_, setModified]
    rw [hfirst]
    exact hw.formed h
  · rw [andText_of_value (fragment_ne_empty hvalue) (by simpa using hne)]
    exact .mk (toSql_of_empty rfl) hvalue (formed_concat hand (formed_ofText h)) hor

lemma WhereClause.formed_orText {w : WhereClause} (hw : w.Blank ∨ w.Formed reserved)
    {text : String} (h : text = "" ∨ Fragment reserved text) :
    (w.orText (lit text)).Blank ∨ (w.orText (lit text)).Formed reserved := by
  rcases h with rfl | h
  · simpa [orText] using hw
  have hne := fragment_ne_empty h
  right
  rcases hw with hw | @⟨_, -, hvalue, hand, hor⟩
  · have hfirst : w.orText (lit text) = { w with sql_ := [], value_ := lit text } := by
      simp [orText, hne, hw.value_, setModified]
    rw [hfirst]
    exact hw.formed h
  · have hlater :
        w.orText (lit text) = { w with sql_ := [], or_ := w.or_ ++ [ofText (lit text)] } := by
      simp [orText, fragment_ne_empty hvalue, hne, setModified]
    rw [hlater]
    exact .mk (toSql_of_empty rfl) hvalue hand (formed_concat hor (formed_ofText h))

end Condition

namespace JoinClause

variable {reserved : Set String} {j : JoinClause}

/-- What the calls on a join keep. -/
lemma Written.parts (h : j.Written reserved) :
    Fragment reserved j.tableName_ ∧ (j.on_.Blank ∨ j.on_.Formed reserved) ∧
      (j.sql_.render = "" ∨ ∃ on : WhereClause, (on.Blank ∨ on.Formed reserved) ∧
        j.sql_ = generateSql { j with on_ := on }) := by
  induction h with
  | ofTable h type => exact ⟨h, .inl ⟨rfl, rfl, rfl, rfl⟩, .inl rfl⟩
  | table hj h ih => exact ⟨h, ih.2.1, .inl rfl⟩
  | type hj value ih => exact ⟨ih.1, ih.2.1, .inl rfl⟩
  | on hj h ih =>
    refine ⟨ih.1, ?_, .inl rfl⟩
    rcases h with rfl | h
    · exact .inl ⟨rfl, by simp [JoinClause.on, setModified, WhereClause.ofText], rfl, rfl⟩
    · exact .inr (WhereClause.formed_ofText h)
  | onClause hj h ih => exact ⟨ih.1, h, .inl rfl⟩
  | onAnd hj h ih => exact ⟨ih.1, WhereClause.formed_andText ih.2.1 h, ih.2.2⟩
  | onOr hj h ih => exact ⟨ih.1, WhereClause.formed_orText ih.2.1 h, ih.2.2⟩
  | @memoise j hj ih =>
    obtain ⟨htable, hon, hkept⟩ := ih
    refine ⟨htable, hon, ?_⟩
    by_cases hempty : j.sql_.render = ""
    · exact .inr ⟨j.on_, hon, by simp [JoinClause.memoise, toSql, hempty]; rfl⟩
    · obtain ⟨on, hon', hsql⟩ := hkept.resolve_left hempty
      refine .inr ⟨on, hon', ?_⟩
      have hmemo : j.memoise.sql_ = j.sql_ := by simp [JoinClause.memoise, toSql, hempty]
      rw [hmemo, hsql]
      rfl

/-- A join that calls with fragments made is formed once its condition has a text. -/
lemma Written.formed (hand : "AND" ∉ reserved) (hor : "OR" ∉ reserved) (h : j.Written reserved)
    (hon : j.type_ ≠ .cross ∧ j.type_ ≠ .natural → j.on_.toSql.render ≠ "") :
    j.Formed reserved := by
  obtain ⟨htable, hcondition, hkept⟩ := h.parts
  refine ⟨htable, fun htype => ?_, ?_⟩
  · rcases hcondition with hblank | hformed
    · exact absurd hblank.toSql (hon htype)
    · exact hformed.fragment hand hor
  · rcases hkept with hempty | ⟨on, hon, hsql⟩
    · exact .inl hempty
    · exact .inr ⟨on, hon.imp WhereClause.Blank.toSql (·.fragment hand hor), hsql⟩

lemma generateSql_render (j : JoinClause) :
    j.generateSql.render = j.type_.words ++ " JOIN " ++ j.tableName_ ++
      if j.type_ ≠ .cross ∧ j.type_ ≠ .natural then " ON " ++ j.on_.toSql.render else "" := by
  simp [generateSql, apply_ite render, String.append_assoc]

lemma generateSql_render_ne_empty (j : JoinClause) : j.generateSql.render ≠ "" := by
  intro h
  have hlength := congrArg String.length h
  rw [generateSql_render] at hlength
  simp only [String.length_append] at hlength
  have hjoin : " JOIN ".length = 6 := by decide
  have hempty : "".length = 0 := by decide
  omega

/-- A join that lacks its condition ends with `ON`. -/
lemma Lacks.toSql (h : j.Lacks) : j.toSql.render = (generateSql { j with on_ := {} }).render := by
  have hne : j.sql_.render ≠ "" := h.2 ▸ generateSql_render_ne_empty _
  have hkept : j.toSql = j.sql_ := by simp [JoinClause.toSql, hne]
  rw [hkept, h.2]

/-- The text of any other join has a condition where its type needs one. -/
lemma Formed.toSql (h : j.Formed reserved) (hlacks : ¬j.Lacks) :
    ∃ on : WhereClause,
      (j.type_ ≠ .cross ∧ j.type_ ≠ .natural → Fragment reserved on.toSql.render) ∧
        j.toSql.render = (generateSql { j with on_ := on }).render := by
  by_cases hempty : j.sql_.render = ""
  · exact ⟨j.on_, h.on_, by simp [JoinClause.toSql, hempty]⟩
  · obtain ⟨on, hon, hsql⟩ := h.kept.resolve_left hempty
    refine ⟨on, fun htype => hon.resolve_left fun hblank => hlacks ⟨htype, ?_⟩, ?_⟩
    · rw [hsql, generateSql_render, generateSql_render, hblank]
      rfl
    · simp [JoinClause.toSql, hempty, ← hsql]

variable (reserved)

/-- The language of the text of a join. -/
def language (j : JoinClause) : Language Token :=
  if j.Lacks then joinKind * keyword "JOIN" * phrase reserved * keyword "ON"
  else crossed reserved + joinedOn reserved

/-- The language of the texts of joins one after the other. -/
def languages (joins : List JoinClause) : Language Token :=
  (joins.map (language reserved)).prod

variable {reserved}

@[simp] lemma languages_cons (j : JoinClause) (joins : List JoinClause) :
    languages reserved (j :: joins) = j.language reserved * languages reserved joins :=
  List.prod_cons

/-- Joins with their conditions are joins of the grammar. -/
lemma languages_le {joins : List JoinClause} (h : ∀ j ∈ joins, ¬j.Lacks) :
    languages reserved joins ≤ (crossed reserved + joinedOn reserved)∗ := by
  induction joins with
  | nil => exact one_le_kstar
  | cons j joins ih =>
    rw [List.forall_mem_cons] at h
    rw [languages_cons, language, if_neg h.1]
    exact (mul_le_mul_right (ih h.2) _).trans mul_kstar_le_kstar

/-- A join begins with one of its words. -/
lemma languages_headed (hwords : joinWords ⊆ reserved) (joins : List JoinClause) :
    languages reserved joins ≤ Headed reserved := by
  have hs : Stable (Headed reserved) := headed_stable
  have hkind : joinKind ≤ Headed reserved :=
    hs.optional_le (sup_le (sup_le (sup_le (keyword_headed (hwords (by simp [joinWords])))
      (keyword_headed (hwords (by simp [joinWords]))))
      (keyword_headed (hwords (by simp [joinWords]))))
      (keyword_mul_headed (hwords (by simp [joinWords]))))
  have hjoin {l : Language Token} : keyword "JOIN" * l ≤ Headed reserved :=
    keyword_mul_headed (hwords (by simp [joinWords]))
  have hcrossed : crossed reserved ≤ Headed reserved := by
    rw [crossed, mul_assoc]
    exact hs.mul_le (sup_le (keyword_headed (hwords (by simp [joinWords])))
      (keyword_headed (hwords (by simp [joinWords])))) hjoin
  have hjoinedOn : joinedOn reserved ≤ Headed reserved := by
    simp only [joinedOn, mul_assoc]
    exact hs.mul_le hkind hjoin
  induction joins with
  | nil => exact hs.one
  | cons j joins ih =>
    rw [languages_cons]
    refine hs.mul_le ?_ ih
    rw [language]
    split
    · simp only [mul_assoc]
      exact hs.mul_le hkind hjoin
    · exact sup_le hcrossed hjoinedOn

/-- Where a phrase follows every `ON` no join lacks its condition. -/
lemma not_lacks_of_conditioned (hwords : joinWords ⊆ reserved) {joins : List JoinClause}
    {as bs es : List Token} (hbs : bs ∈ languages reserved joins) (hes : es ∈ Headed reserved)
    (h : as ++ (bs ++ es) ∈ Conditioned reserved) : ∀ j ∈ joins, ¬j.Lacks := by
  induction joins generalizing as bs with
  | nil => exact nofun
  | cons j joins ih =>
    rw [languages_cons] at hbs
    obtain ⟨cs, hcs, ds, hds, rfl⟩ := Language.mem_mul.mp hbs
    rw [List.append_assoc] at h
    have hbehind : ds ++ es ∈ Headed reserved :=
      headed_stable.mul (Language.append_mem_mul (languages_headed hwords joins hds) hes)
    rw [List.forall_mem_cons]
    have htail : as ++ cs ++ (ds ++ es) ∈ Conditioned reserved := by simpa using h
    refine ⟨fun hlacks => ?_, ih hds htail⟩
    rw [language, if_pos hlacks] at hcs
    obtain ⟨fs, -, _, rfl, rfl⟩ := Language.mem_mul.mp hcs
    have hlast : as ++ fs ++ .word "ON" :: (ds ++ es) ∈ Conditioned reserved := by simpa using h
    exact not_conditioned hbehind hlast

end JoinClause

namespace SelectQuery

mutual
/-- The query and the queries it is united with. -/
def chain : SelectQuery → List SelectQuery
  | ⟨q, w, joins, limit, orderBy, groupBy, columns, tableName, union⟩ =>
    ⟨q, w, joins, limit, orderBy, groupBy, columns, tableName, union⟩ :: unionChain union

def unionChain : Option UnionOperator → List SelectQuery
  | none => []
  | some u => operatorChain u

def operatorChain : UnionOperator → List SelectQuery
  | ⟨query, _⟩ => query.chain
end

/-- The query has no clause for the whole compound, or it ends the compound and has no `GROUP BY`
behind these clauses. -/
def Placed (q : SelectQuery) : Prop :=
  (q.orderBy_ = "" ∧ q.limit_ = "") ∨ (q.union_ = none ∧ q.groupBy_ = "")

/-- The language of a clause that is left out when its text is empty. -/
def given (value : String) (l : Language Token) : Language Token := if value = "" then 1 else l

section Language

variable (reserved : Set String)

/-- The text up to the condition. -/
def selected (q : SelectQuery) : Language Token :=
  keyword "SELECT" * phrase reserved * keyword "FROM" * phrase reserved *
    JoinClause.languages reserved q.join_ * optional (keyword "WHERE" * phrase reserved)

/-- The clauses of a query as `generate_sql` appends them. -/
def clauses (q : SelectQuery) : Language Token :=
  q.selected reserved * given q.orderBy_ (ordering reserved) * given q.limit_ (limiting reserved) *
    given q.groupBy_ (grouping reserved)

mutual
def language : SelectQuery → Language Token
  | ⟨q, w, joins, limit, orderBy, groupBy, columns, tableName, union⟩ =>
    clauses reserved ⟨q, w, joins, limit, orderBy, groupBy, columns, tableName, union⟩ *
      unionLanguage union

def unionLanguage : Option UnionOperator → Language Token
  | none => {[.mark ';']}
  | some u => operatorLanguage u

def operatorLanguage : UnionOperator → Language Token
  | ⟨query, _⟩ => keyword "UNION" * optional (keyword "ALL") * query.language
end

end Language

variable {reserved : Set String} {q : SelectQuery}

lemma chain_eq (q : SelectQuery) : q.chain = q :: unionChain q.union_ := by
  obtain ⟨q, w, joins, limit, orderBy, groupBy, columns, tableName, union⟩ := q
  simp only [chain]

@[simp] lemma unionChain_some (u : UnionOperator) : unionChain (some u) = u.query.chain := by
  obtain ⟨query, type⟩ := u
  simp only [unionChain, operatorChain]

lemma language_eq (q : SelectQuery) :
    q.language reserved = q.clauses reserved * unionLanguage reserved q.union_ := by
  obtain ⟨q, w, joins, limit, orderBy, groupBy, columns, tableName, union⟩ := q
  simp only [language]

@[simp] lemma unionLanguage_some (u : UnionOperator) :
    unionLanguage reserved (some u) =
      keyword "UNION" * optional (keyword "ALL") * u.query.language reserved := by
  obtain ⟨query, type⟩ := u
  simp only [unionLanguage, operatorLanguage]

/-- The queries that clients build keep nothing of a union that is not its text. -/
lemma Built.formed (h : Built q) (hfragments : ∀ p ∈ q.chain, p.Fragments reserved) :
    q.Formed reserved := by
  have hunion : (∀ p ∈ unionChain q.union_, p.Fragments reserved) → ∀ u, q.union_ = some u →
      u.query.toSql = u.query.generateSql ∧ u.query.Formed reserved := by
    refine h.union_induction (P := fun union => (∀ p ∈ unionChain union, p.Fragments reserved) →
      ∀ u, union = some u → u.query.toSql = u.query.generateSql ∧ u.query.Formed reserved)
      (fun _ => nofun) ?_
    intro query type ih hchain u hu
    obtain rfl := Option.some.inj hu
    rw [unionChain_some, chain_eq, List.forall_mem_cons] at hchain
    have hquery := ih hchain.2
    exact ⟨toSql_of_empty rfl,
      .mk hchain.1 (fun u hu => (hquery u hu).1) fun u hu => (hquery u hu).2⟩
  rw [chain_eq, List.forall_mem_cons] at hfragments
  have hq := hunion hfragments.2
  exact .mk hfragments.1 (fun u hu => (hq u hu).1) fun u hu => (hq u hu).2

/-! ### The language of a query -/

@[simp] lemma given_empty (l : Language Token) : given "" l = 1 := if_pos rfl

lemma given_le_optional (value : String) (l : Language Token) : given value l ≤ optional l := by
  rw [given]
  split
  · exact one_le_optional l
  · exact le_optional l

/-- With their conditions the joins leave a selection. -/
lemma selected_le (h : ∀ j ∈ q.join_, ¬j.Lacks) : q.selected reserved ≤ selection reserved := by
  rw [selected, selection]
  gcongr
  exact JoinClause.languages_le h

/-- Without a clause for the compound what stands before a union is a core. -/
lemma clauses_le_core (hjoins : ∀ j ∈ q.join_, ¬j.Lacks) (horder : q.orderBy_ = "")
    (hlimit : q.limit_ = "") : q.clauses reserved ≤ core reserved := by
  simp only [clauses, horder, hlimit, given_empty, mul_one]
  exact mul_le_mul' (selected_le hjoins) (given_le_optional q.groupBy_ (grouping reserved))

lemma language_le_compound (h : q.Formed reserved)
    (hplaced : ∀ p ∈ q.chain, p.Placed ∧ ∀ j ∈ p.join_, ¬j.Lacks) :
    q.language reserved ≤ compound reserved := by
  induction h with
  | @mk q hfragments hkept hunion ih =>
    rw [chain_eq, List.forall_mem_cons] at hplaced
    obtain ⟨⟨hq, hjoins⟩, hrest⟩ := hplaced
    rw [language_eq]
    cases hu : q.union_ with
    | some u =>
      obtain ⟨horder, hlimit⟩ | ⟨hnone, -⟩ := hq
      · rw [hu, unionChain_some] at hrest
        rw [unionLanguage_some, ← mul_assoc]
        calc q.clauses reserved * (keyword "UNION" * optional (keyword "ALL")) *
              u.query.language reserved
            ≤ core reserved * (keyword "UNION" * optional (keyword "ALL")) * compound reserved := by
              gcongr
              · exact clauses_le_core hjoins horder hlimit
              · exact ih u hu hrest
          _ ≤ compound reserved := core_union_le
      · rw [hu] at hnone
        cases hnone
    | none =>
      simp only [unionLanguage]
      refine le_trans ?_ core_ended_le
      gcongr
      obtain ⟨horder, hlimit⟩ | ⟨-, hgroup⟩ := hq
      · calc q.clauses reserved ≤ core reserved := clauses_le_core hjoins horder hlimit
          _ ≤ core reserved * optional (ordering reserved) :=
            le_mul_of_one_le_right' (one_le_optional _)
          _ ≤ core reserved * optional (ordering reserved) * optional (limiting reserved) :=
            le_mul_of_one_le_right' (one_le_optional _)
      · rw [clauses, hgroup, given_empty, mul_one]
        gcongr
        · exact (selected_le hjoins).trans core_of_selection
        · exact given_le_optional ..
        · exact given_le_optional ..

lemma mem_given_mul {value : String} {w : String} {l : Language Token} {k : Nat} {ts : List Token}
    (hvalue : value ≠ "") (h : ts ∈ given value (keyword w * l)) (hw : rank (.word w) = some k) :
    k ∈ ranks ts := by
  rw [given, if_neg hvalue] at h
  exact mem_ranks_keyword h hw

/-- If `GROUP BY` and a union follow nothing of a later place, nothing of a later place is there, or
they are not. -/
lemma placed_of_ranks {os ls gs es : List Token}
    (hos : os ∈ given q.orderBy_ (ordering reserved))
    (hls : ls ∈ given q.limit_ (limiting reserved))
    (hgs : gs ∈ given q.groupBy_ (grouping reserved)) (hes : es ∈ unionLanguage reserved q.union_)
    (hle : ∀ r ∈ ranks os ++ ranks ls, ∀ r' ∈ ranks gs ++ ranks es, r ≤ r') : q.Placed := by
  by_cases hfront : q.orderBy_ = "" ∧ q.limit_ = ""
  · exact .inl hfront
  have hzero : 0 ∉ ranks gs ++ ranks es := by
    intro hmem
    obtain horder | hlimit := not_and_or.mp hfront
    · rw [ordering, mul_assoc] at hos
      have hone : 1 ∈ ranks os := mem_given_mul horder hos rfl
      exact Nat.not_succ_le_zero 0 (hle 1 (List.mem_append_left _ hone) 0 hmem)
    · have htwo : 2 ∈ ranks ls := mem_given_mul hlimit hls rfl
      exact Nat.not_succ_le_zero 1 (hle 2 (List.mem_append_right _ htwo) 0 hmem)
  refine .inr ⟨?_, ?_⟩
  · cases hu : q.union_ with
    | none => rfl
    | some u =>
      rw [hu, unionLanguage_some, mul_assoc] at hes
      exact absurd (List.mem_append_right _ (mem_ranks_keyword hes rfl)) hzero
  · by_contra hgroup
    rw [grouping, mul_assoc] at hgs
    exact hzero (List.mem_append_left _ (mem_given_mul hgroup hgs rfl))

lemma placed_of_sorted (h : q.Formed reserved) {ts : List Token} (hts : ts ∈ q.language reserved)
    (hsorted : (ranks ts).Pairwise (· ≤ ·)) : ∀ p ∈ q.chain, p.Placed := by
  induction h generalizing ts with
  | @mk q hfragments hkept hunion ih =>
    rw [language_eq, clauses] at hts
    obtain ⟨_, ⟨_, ⟨_, ⟨as, -, os, hos, rfl⟩, ls, hls, rfl⟩, gs, hgs, rfl⟩, es, hes, rfl⟩ := hts
    simp only [ranks_append, List.append_assoc] at hsorted
    rw [← List.append_assoc (ranks os)] at hsorted
    obtain ⟨-, hbehind, -⟩ := List.pairwise_append.mp hsorted
    obtain ⟨-, htail, hle⟩ := List.pairwise_append.mp hbehind
    rw [chain_eq, List.forall_mem_cons]
    refine ⟨placed_of_ranks hos hls hgs hes hle, ?_⟩
    cases hu : q.union_ with
    | none => simp [unionChain]
    | some u =>
      rw [hu, unionLanguage_some] at hes
      obtain ⟨us, -, rest, hrest, rfl⟩ := Language.mem_mul.mp hes
      rw [ranks_append] at htail
      have hsorted : (ranks rest).Pairwise (· ≤ ·) :=
        (List.pairwise_append.mp (List.pairwise_append.mp htail).2.1).2.1
      rw [unionChain_some]
      exact ih u hu hrest hsorted

/-- Behind the joins comes a word that begins no phrase, or the end. -/
lemma behind_headed (hreserved : clauseWords ⊆ reserved) (hwords : joinWords ⊆ reserved)
    (q : SelectQuery) :
    optional (keyword "WHERE" * phrase reserved) * given q.orderBy_ (ordering reserved) *
        given q.limit_ (limiting reserved) * given q.groupBy_ (grouping reserved) *
        unionLanguage reserved q.union_ ≤ Headed reserved := by
  have hs : Stable (Headed reserved) := headed_stable
  have hgiven {value : String} {l : Language Token} (hl : l ≤ Headed reserved) :
      given value l ≤ Headed reserved := (given_le_optional value l).trans (hs.optional_le hl)
  have hclause {v w : String} (hv : v ∈ clauseWords) :
      keyword v * keyword w * phrase reserved ≤ Headed reserved := by
    rw [mul_assoc]
    exact keyword_mul_headed (hreserved hv)
  have hunion : unionLanguage reserved q.union_ ≤ Headed reserved := by
    cases q.union_ with
    | none =>
      rintro _ rfl t ht
      obtain rfl := Option.some.inj ht
      simp [Plain]
    | some u =>
      rw [unionLanguage_some, mul_assoc]
      exact keyword_mul_headed (hreserved (by simp [clauseWords]))
  exact hs.mul_le (hs.mul_le (hs.mul_le (hs.mul_le
    (hs.optional_le (keyword_mul_headed (hwords (by simp [joinWords]))))
    (hgiven (hclause (by simp [clauseWords]))))
    (hgiven (keyword_mul_headed (hreserved (by simp [clauseWords])))))
    (hgiven (hclause (by simp [clauseWords])))) hunion

lemma not_lacks_of_conditioned (hreserved : clauseWords ⊆ reserved) (hwords : joinWords ⊆ reserved)
    (h : q.Formed reserved) {ts : List Token} (hts : ts ∈ q.language reserved)
    (hconditioned : ts ∈ Conditioned reserved) : ∀ p ∈ q.chain, ∀ j ∈ p.join_, ¬j.Lacks := by
  induction h generalizing ts with
  | @mk q hfragments hkept hunion ih =>
    rw [language_eq] at hts
    rw [chain_eq, List.forall_mem_cons]
    constructor
    · have hsplit : q.clauses reserved * unionLanguage reserved q.union_ =
          keyword "SELECT" * phrase reserved * keyword "FROM" * phrase reserved *
            (JoinClause.languages reserved q.join_ *
              (optional (keyword "WHERE" * phrase reserved) * given q.orderBy_ (ordering reserved) *
                given q.limit_ (limiting reserved) * given q.groupBy_ (grouping reserved) *
                unionLanguage reserved q.union_)) := by
        simp only [clauses, selected, mul_assoc]
      rw [hsplit] at hts
      obtain ⟨as, -, _, ⟨bs, hbs, es, hes, rfl⟩, rfl⟩ := hts
      exact JoinClause.not_lacks_of_conditioned hwords hbs (behind_headed hreserved hwords q hes)
        hconditioned
    · cases hu : q.union_ with
      | none => simp [unionChain]
      | some u =>
        rw [hu, unionLanguage_some, ← mul_assoc] at hts
        obtain ⟨as, -, rest, hrest, rfl⟩ := Language.mem_mul.mp hts
        rw [unionChain_some]
        exact ih u hu hrest (conditioned_behind hconditioned)

/-! ### The text of a query -/

/-- The text up to the condition. -/
def selectText (q : SelectQuery) : String :=
  "SELECT " ++ (if q.columns_.isEmpty then "*" else Helper.joinCsv q.columns_) ++ " FROM " ++
    q.tableName_ ++ render (q.join_.flatMap JoinClause.toSql) ++
    if q.where_.empty then "" else " WHERE " ++ q.where_.toSql.render

/-- A clause that is left out when its text is empty. -/
def clauseText (start value : String) : String := if value = "" then "" else start ++ value

lemma coreSql_render (q : SelectQuery) :
    q.coreSql.render =
      q.selectText ++ clauseText " ORDER BY " q.orderBy_ ++ clauseText " LIMIT " q.limit_ ++
        clauseText " GROUP BY " q.groupBy_ := by
  simp [coreSql, selectText, clauseText, apply_ite render, String.append_assoc]

lemma derives_clauseText {l m : Language Token} {text start value : String} {ts : List Token}
    (h : Derives l text) (hstart : Separates start ts) (hts : ts ∈ m)
    (hvalue : value ≠ "" → Fragment reserved value) :
    Derives (l * given value (m * phrase reserved)) (text ++ clauseText start value) := by
  rw [given, clauseText]
  split
  · simpa using h
  · next hne =>
    rw [← mul_assoc, ← String.append_assoc]
    exact h.append hstart hts (hvalue hne)

/-- A column list of fragments is a fragment. -/
lemma fragment_joinCsv {columns : List String} (hne : columns ≠ [])
    (h : ∀ c ∈ columns, Fragment reserved c) : Fragment reserved (Helper.joinCsv columns) := by
  induction columns with
  | nil => exact absurd rfl hne
  | cons c cs ih =>
    rw [List.forall_mem_cons] at h
    cases cs with
    | nil => exact h.1
    | cons d ds =>
      exact fragment_append h.1 (by decide : Separates "," [.mark ',']) (by simp [Plain])
        (ih (by simp) h.2)

lemma fragment_star : Fragment reserved "*" := by
  refine ⟨by decide, ?_⟩
  rw [show tokens "*" = [.mark '*'] by decide]
  exact ⟨by simp, by simp [Plain]⟩

/-- The tokens of the words that start a join. -/
def joinTokens : JoinType → List Token
  | .none => []
  | .natural => [.word "NATURAL"]
  | .inner => [.word "INNER"]
  | .left => [.word "LEFT"]
  | .right => [.word "RIGHT"]
  | .full => [.word "FULL", .word "OUTER"]
  | .cross => [.word "CROSS"]

lemma separates_join (type : JoinType) :
    Separates (type.words ++ " JOIN ") (joinTokens type ++ [.word "JOIN"]) := by
  cases type <;> decide

lemma joinTokens_joinKind {type : JoinType} (htype : type ≠ .cross ∧ type ≠ .natural) :
    joinTokens type ∈ joinKind := by
  cases type with
  | none => exact Or.inl rfl
  | inner => exact Or.inr (Or.inl (Or.inl (Or.inl rfl)))
  | left => exact Or.inr (Or.inl (Or.inl (Or.inr rfl)))
  | right => exact Or.inr (Or.inl (Or.inr rfl))
  | full =>
    have hfull : [.word "FULL"] ++ [.word "OUTER"] ∈ keyword "FULL" * keyword "OUTER" :=
      Language.append_mem_mul rfl rfl
    exact Or.inr (Or.inr hfull)
  | cross => exact absurd rfl htype.1
  | natural => exact absurd rfl htype.2

lemma joinTokens_crossed {type : JoinType} (htype : ¬(type ≠ .cross ∧ type ≠ .natural)) :
    joinTokens type ∈ keyword "NATURAL" + keyword "CROSS" := by
  cases type with
  | natural => exact Or.inl rfl
  | cross => exact Or.inr rfl
  | none | inner | left | right | full => exact absurd ⟨nofun, nofun⟩ htype

lemma derives_join {l : Language Token} {text : String} (h : Derives l text) {j : JoinClause}
    (hj : j.Formed reserved) :
    Derives (l * j.language reserved) (text ++ j.toSql.render) := by
  have htable {kind : Language Token} (hkind : joinTokens j.type_ ∈ kind) :
      Derives (l * (kind * keyword "JOIN") * phrase reserved)
        (text ++ (j.type_.words ++ " JOIN ") ++ j.tableName_) :=
    h.append (separates_join j.type_) (Language.append_mem_mul hkind rfl) hj.tableName_
  have hsep : Separates " ON " [.word "ON"] := by decide
  rw [JoinClause.language]
  split
  · next hlacks =>
    have hon := (htable (joinTokens_joinKind hlacks.1)).separated hsep (m := keyword _) rfl
    have hblank : (WhereClause.toSql {}).render = "" := rfl
    rw [hlacks.toSql, JoinClause.generateSql_render]
    simpa [hlacks.1, hblank, String.append_assoc, mul_assoc] using hon
  · next hlacks =>
    obtain ⟨on, hon, htext⟩ := hj.toSql hlacks
    rw [htext, JoinClause.generateSql_render]
    by_cases htype : j.type_ ≠ .cross ∧ j.type_ ≠ .natural
    · have hall := (htable (joinTokens_joinKind htype)).append hsep (m := keyword _) rfl (hon htype)
      have hle : l * (joinKind * keyword "JOIN") * phrase reserved * keyword "ON" *
          phrase reserved ≤ l * (crossed reserved + joinedOn reserved) := by
        simp only [mul_assoc, joinedOn]
        gcongr
        exact le_sup_right
      simpa [htype, String.append_assoc] using hall.mono hle
    · have hle : l * ((keyword "NATURAL" + keyword "CROSS") * keyword "JOIN") * phrase reserved ≤
          l * (crossed reserved + joinedOn reserved) := by
        rw [mul_assoc]
        gcongr
        exact le_sup_left
      simpa [htype, String.append_assoc] using (htable (joinTokens_crossed htype)).mono hle

lemma derives_joins {l : Language Token} {text : String} (h : Derives l text)
    {joins : List JoinClause} (hjoins : ∀ j ∈ joins, j.Formed reserved) :
    Derives (l * JoinClause.languages reserved joins)
      (text ++ render (joins.flatMap JoinClause.toSql)) := by
  induction joins generalizing l text with
  | nil => simpa [JoinClause.languages] using h
  | cons j joins ih =>
    rw [List.forall_mem_cons] at hjoins
    rw [List.flatMap_cons, render_append, ← String.append_assoc, JoinClause.languages_cons,
      ← mul_assoc]
    exact ih (derives_join h hjoins.1) hjoins.2

lemma derives_selectText (h : q.Fragments reserved) :
    Derives (q.selected reserved) q.selectText := by
  have hcolumns :
      Fragment reserved (if q.columns_.isEmpty then "*" else Helper.joinCsv q.columns_) := by
    split
    · exact fragment_star
    · next hne => exact fragment_joinCsv (by simpa using hne) h.columns_
  have hselect : Derives (keyword "SELECT") "SELECT" := derives_keyword (by decide) (by decide)
  have hfrom := (hselect.append (by decide : Separates " " []) Language.nil_mem_one hcolumns).append
    (by decide : Separates " FROM " [.word "FROM"]) (m := keyword _) rfl h.tableName_
  have hjoins := derives_joins hfrom h.join_
  rw [mul_one] at hjoins
  have hstart : "SELECT" ++ " " = "SELECT " := by decide
  rw [selectText, selected, ← hstart]
  by_cases hwhere : q.where_.empty
  · rw [if_pos hwhere, String.append_empty]
    exact hjoins.mono (le_mul_of_one_le_right' (one_le_optional _))
  · have hall := hjoins.append (by decide : Separates " WHERE " [.word "WHERE"]) (m := keyword _)
      rfl (h.where_ (by simpa using hwhere))
    rw [mul_assoc] at hall
    rw [if_neg hwhere, ← String.append_assoc]
    exact hall.mono (mul_le_mul_right (le_optional _) _)

lemma derives_language (h : q.Formed reserved) :
    Derives (q.language reserved) q.generateSql.render := by
  induction h with
  | @mk q hfragments hkept _ ih =>
    have hcore : Derives (q.clauses reserved) q.coreSql.render := by
      rw [coreSql_render]
      have horder := derives_clauseText (derives_selectText hfragments)
        (by decide : Separates " ORDER BY " [.word "ORDER", .word "BY"])
        (Language.append_mem_mul (l := keyword _) (m := keyword _) rfl rfl) hfragments.orderBy_
      have hlimit := derives_clauseText horder
        (by decide : Separates " LIMIT " [.word "LIMIT"]) (m := keyword _) rfl hfragments.limit_
      exact derives_clauseText hlimit
        (by decide : Separates " GROUP BY " [.word "GROUP", .word "BY"])
        (Language.append_mem_mul (l := keyword _) (m := keyword _) rfl rfl) hfragments.groupBy_
    rw [generateSql_eq, render_append, language_eq]
    cases hu : q.union_ with
    | none =>
      simp only [unionSql, unionLanguage]
      exact hcore.separated (by decide : Separates ";" [.mark ';']) rfl
    | some u =>
      have hquery : Derives (u.query.language reserved) u.query.toSql.render :=
        hkept u hu ▸ ih u hu
      rw [unionSql_some, unionLanguage_some, render_append, ← String.append_assoc, ← mul_assoc]
      by_cases hall : u.type = .all
      · have hmem : [.word "UNION"] ++ [.word "ALL"] ∈ keyword "UNION" * optional (keyword "ALL") :=
          Language.append_mem_mul rfl (Or.inr rfl)
        have hsep : Separates (" UNION " ++ "ALL ") ([.word "UNION"] ++ [.word "ALL"]) := by decide
        simpa [hall] using hcore.append hsep hmem hquery
      · have hmem : [.word "UNION"] ++ [] ∈ keyword "UNION" * optional (keyword "ALL") :=
          Language.append_mem_mul rfl (Or.inl rfl)
        have hsep : Separates " UNION " ([.word "UNION"] ++ []) := by decide
        simpa [hall] using hcore.append hsep hmem hquery

/-- A well-formed query renders a statement of the grammar exactly if each query of its union that
orders or limits is the last of them and does not group, and no join of them lacks its condition. -/
theorem derives_iff_placed (hreserved : clauseWords ⊆ reserved) (h : q.Formed reserved)
    (hwords : ∀ p ∈ q.chain, ∀ j ∈ p.join_, j.Lacks → joinWords ⊆ reserved) :
    Derives (compound reserved) q.generateSql.render ↔
      ∀ p ∈ q.chain, p.Placed ∧ ∀ j ∈ p.join_, ¬j.Lacks := by
  constructor
  · intro hderives p hp
    have hlanguage := (derives_language h).2
    refine ⟨placed_of_sorted h hlanguage (compound_sorted hreserved hderives.2) p hp, ?_⟩
    intro j hj hlacks
    have hjoin := hwords p hp j hj hlacks
    have hconditioned := compound_conditioned (hjoin (by simp [joinWords])) hderives.2
    exact not_lacks_of_conditioned hreserved hjoin h hlanguage hconditioned p hp j hj hlacks
  · intro hplaced
    exact (derives_language h).mono (language_le_compound h hplaced)

/-- A query on a table without joins and condition. -/
lemma fragments_table {q : SelectQuery} (hcolumns : q.columns_ = []) (hjoin : q.join_ = [])
    (hwhere : q.where_.empty = true) (htable : Fragment reserved q.tableName_)
    (horder : q.orderBy_ ≠ "" → Fragment reserved q.orderBy_) (hlimit : q.limit_ = "")
    (hgroup : q.groupBy_ ≠ "" → Fragment reserved q.groupBy_) : q.Fragments reserved where
  columns_ := by simp [hcolumns]
  tableName_ := htable
  join_ := by simp [hjoin]
  where_ := by simp [hwhere]
  orderBy_ := horder
  limit_ := by simp [hlimit]
  groupBy_ := hgroup

section Users

lemma fragment_users : Fragment clauseWords "users" :=
  fragment_word (w := "USERS") (by decide) (by simp [clauseWords])

lemma fragment_age : Fragment clauseWords "age" :=
  fragment_word (w := "AGE") (by decide) (by simp [clauseWords])

lemma fragment_name : Fragment clauseWords "name" :=
  fragment_word (w := "NAME") (by decide) (by simp [clauseWords])

/-- A join with its condition that was rendered. -/
def posts : JoinClause := ((JoinClause.ofTable "posts" .left).on "author").memoise

lemma posts_formed : posts.Formed clauseWords := by
  have hposts : Fragment clauseWords "posts" :=
    fragment_word (w := "POSTS") (by decide) (by simp [clauseWords])
  have hauthor : Fragment clauseWords "author" :=
    fragment_word (w := "AUTHOR") (by decide) (by simp [clauseWords])
  exact ((JoinClause.Written.ofTable hposts .left).on (.inr hauthor)).memoise.formed
    (by simp [clauseWords]) (by simp [clauseWords]) (fun _ => by decide)

/-- The first of two queries, which joins and groups, and the second, which orders. -/
def grouped : SelectQuery :=
  ((ofSession 0 { impl_ := .sqlite } [] "users").join posts).groupBy "age"

def ordered : SelectQuery := (ofSession 1 { impl_ := .sqlite } [] "users").orderBy "name"

/-- The theorem at the union of the two. -/
theorem derives_users :
    Derives (compound clauseWords) (grouped.unionWith ordered).generateSql.render := by
  have hbuilt : Built (grouped.unionWith ordered) := by
    have hordered : Built ordered :=
      .step (.build (.table 1 { impl_ := .sqlite } [] "users")) (.edit (.orderBy "name")) nofun
    have hjoined : Built ((ofSession 0 { impl_ := .sqlite } [] "users").join posts) :=
      .step (.build (.table 0 { impl_ := .sqlite } [] "users")) (.edit (.join posts)) nofun
    have hgrouped : Built grouped := .step hjoined (.edit (.groupBy "age")) nofun
    refine .step hgrouped (.edit (.unionWith ordered .none)) fun query type hop => ?_
    cases hop
    exact hordered
  have hchain : ∀ p ∈ (grouped.unionWith ordered).chain,
      p.Fragments clauseWords ∧ p.Placed ∧ ∀ j ∈ p.join_, ¬j.Lacks := by
    intro p hp
    rw [chain_eq, List.mem_cons] at hp
    obtain rfl | hp := hp
    · refine ⟨⟨nofun, fragment_users, ?_, nofun, (absurd rfl ·), (absurd rfl ·),
        fun _ => fragment_age⟩, .inl ⟨rfl, rfl⟩, ?_⟩
      · exact List.forall_mem_singleton.mpr posts_formed
      · exact List.forall_mem_singleton.mpr (by decide)
    · rw [unionWith, setModified, unionChain_some, chain_eq] at hp
      obtain rfl := List.mem_singleton.mp hp
      exact ⟨⟨nofun, fragment_users, nofun, nofun, fun _ => fragment_name, (absurd rfl ·),
        (absurd rfl ·)⟩, .inr ⟨rfl, rfl⟩, nofun⟩
  refine (derives_iff_placed le_rfl (hbuilt.formed fun p hp => (hchain p hp).1) ?_).mpr
    fun p hp => (hchain p hp).2
  exact fun p hp j hj hlacks => absurd hlacks ((hchain p hp).2.2 j hj)

/-- `GROUP BY` comes behind `ORDER BY`. -/
theorem not_derives_users :
    Formed clauseWords
        (((ofSession 0 { impl_ := .sqlite } [] "users").orderBy "name").groupBy "age") ∧
      ¬Derives (compound clauseWords)
        (((ofSession 0 { impl_ := .sqlite } [] "users").orderBy "name").groupBy
          "age").generateSql.render := by
  refine ⟨.mk (fragments_table rfl rfl rfl fragment_users (fun _ => fragment_name) rfl
    fun _ => fragment_age) nofun nofun, fun h => ?_⟩
  have hsorted := compound_sorted le_rfl h.2
  have hranks : ranks (tokens "SELECT * FROM users ORDER BY name GROUP BY age;") = [1, 0] := by
    decide
  have htext : (((ofSession 0 { impl_ := .sqlite } [] "users").orderBy "name").groupBy
      "age").generateSql.render = "SELECT * FROM users ORDER BY name GROUP BY age;" := by
    decide
  rw [htext, hranks] at hsorted
  exact absurd hsorted (by decide)

end Users

end SelectQuery

end CodaDb
