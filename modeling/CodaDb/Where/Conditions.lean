import CodaDb.Lib.Machine
import CodaDb.Where.Builder
import Mathlib.Tactic.FinCases

/-!
# The conditions a builder renders

Which operators come out as one of the SQL forms of a condition, with their operands bound to its
placeholders, and when a chain of appends gives the clause that `where_clause` itself would give.
-/

namespace CodaDb

open SqlText

/-- A condition on the column `col` as SQL has it, over the given placeholders. -/
inductive SqlCondition (col : String) : List String → String → Prop where
  | comparison {key : String} (p : String) (h : key ∈ ["=", "!=", "<", "<=", ">", ">="]) :
      SqlCondition col [p] (col ++ " " ++ key ++ " " ++ p)
  | like {key : String} (p : String) (h : key ∈ ["LIKE", "NOT LIKE"]) :
      SqlCondition col [p] (col ++ " " ++ key ++ " " ++ p)
  | membership {key : String} (ps : List String) (h : key ∈ ["IN", "NOT IN"]) (hps : ps ≠ []) :
      SqlCondition col ps (col ++ " " ++ key ++ " (" ++ ",".intercalate ps ++ ")")
  | range {key : String} (p q : String) (h : key ∈ ["BETWEEN", "NOT BETWEEN"]) :
      SqlCondition col [p, q] (col ++ " " ++ key ++ " " ++ p ++ " AND " ++ q)
  | null {key : String} (h : key ∈ ["IS NULL", "IS NOT NULL"]) :
      SqlCondition col [] (col ++ " " ++ key)

namespace WhereBuilder

/-- Appending `o` adds one condition in SQL form to the clause of the builder, whose placeholders
carry on the numbering of the parameters of the query behind it, and binds exactly the operands to
them. -/
def RendersCondition (how : Connective) (w : WhereBuilder) (binder : Query) (o : SqlOperator) :
    Prop :=
  ∃ w' binder',
    w.append how binder o = .ok (w', binder') ∧
    w'.toWhereClause = extend how w.toWhereClause (w.condition binder o) ∧
    SqlCondition o.lvalue_.toString
      ((List.range' (binder.params_.length + 1) o.operands.length).map w.session_.bindParamText)
      (w.condition binder o).render ∧
    (w.condition binder o).placeholders
      = List.range' (binder.params_.length + 1) o.operands.length ∧
    binder'.params_ = binder.params_ ++ o.operands

/-- The operators whose rendering is a condition. `IN`, `BETWEEN` and `IS NULL` are rendered with
one bare placeholder whatever their operands, and `!>` and `!<` are not SQL comparisons. -/
def Renderable (o : SqlOperator) : Prop :=
  o.type_ ∈ [.eq, .like, .eqGreater, .eqLesser] ∨
    o.type_ ∈ [.greater, .lesser] ∧ o.not_ = false

instance (o : SqlOperator) : Decidable (Renderable o) :=
  inferInstanceAs (Decidable (_ ∨ _ ∧ _))

/-- The keyword a condition is rendered with. -/
def keyword (o : SqlOperator) : String :=
  if o.not_ then o.type_.notTypeValue else o.type_.typeValue

lemma condition_render (w : WhereBuilder) (binder : Query) (o : SqlOperator) :
    (w.condition binder o).render = o.lvalue_.toString ++ " " ++ keyword o ++ " " ++
      w.session_.bindParamText (binder.params_.length + 1) :=
  w.toSqlOp_render _ o

/-- None of these keywords makes a condition with one bare placeholder: `IN` needs parentheses. -/
lemma not_sqlCondition_single {col key p : String} (hkey : key ∈ ["IN", "NOT IN", "!>", "!<"]) :
    ¬SqlCondition col [p] (col ++ " " ++ key ++ " " ++ p) := by
  have hcancel : ∀ {key' : String}, col ++ " " ++ key ++ " " ++ p = col ++ " " ++ key' ++ " " ++ p →
      key = key' := by
    intro key' h
    simpa only [String.append_left_inj, String.append_right_inj] using h
  generalize htext : col ++ " " ++ key ++ " " ++ p = text
  intro h
  cases h with
  | comparison _ hcmp =>
    rw [← hcancel htext] at hcmp
    revert hcmp
    fin_cases hkey <;> decide
  | like _ hlike =>
    rw [← hcancel htext] at hlike
    revert hlike
    fin_cases hkey <;> decide
  | @membership key' _ hin hps =>
    -- both keywords of a list are followed by a parenthesis, which makes the text longer
    have hlength := congrArg String.length htext
    simp only [String.length_append, String.intercalate_singleton] at hlength
    revert hlength
    fin_cases hkey <;> fin_cases hin <;>
      simp only [show "IN".length = 2 from rfl, show "NOT IN".length = 6 from rfl,
        show "!>".length = 2 from rfl, show "!<".length = 2 from rfl, show " ".length = 1 from rfl,
        show " (".length = 2 from rfl, show ")".length = 1 from rfl] <;>
      omega

/-- The keywords that stand between a column and one placeholder. -/
def singleKeywords : List String := ["=", "!=", "<", "<=", ">", ">=", "LIKE", "NOT LIKE"]

lemma sqlCondition_single {col key p : String} (hkey : key ∈ singleKeywords) :
    SqlCondition col [p] (col ++ " " ++ key ++ " " ++ p) := by
  by_cases hcmp : key ∈ ["=", "!=", "<", "<=", ">", ">="]
  · exact .comparison p hcmp
  · refine .like p ?_
    simp only [singleKeywords, List.mem_cons, List.not_mem_nil, or_false] at hkey hcmp ⊢
    tauto

/-- With one operand the property of an append comes down to its keyword. -/
lemma rendersCondition_single {how : Connective} {w : WhereBuilder} {binder : Query}
    {o : SqlOperator} {v : SqlValue} (hops : o.operands = [v]) (hbound : o.boundValues = [v])
    (hkey : keyword o ∈ singleKeywords ∨ keyword o ∈ ["IN", "NOT IN", "!>", "!<"]) :
    RendersCondition how w binder o ↔ keyword o ∈ singleKeywords := by
  rw [RendersCondition, condition_render, hops]
  constructor
  · rintro ⟨w', binder', -, -, hcond, -, -⟩
    exact hkey.resolve_right fun hbad => not_sqlCondition_single hbad hcond
  · intro hgood
    exact ⟨_, _, append_eq how w binder o, rfl, by simpa using sqlCondition_single hgood,
      by simp [condition], by rw [boundBy_params, hbound]⟩

/-- An append renders a condition with all its operands only if it has exactly one operand, since
`to_sql` writes one placeholder. -/
lemma operands_length_of_rendersCondition {how : Connective} {w : WhereBuilder} {binder : Query}
    {o : SqlOperator} (h : RendersCondition how w binder o) : o.operands.length = 1 := by
  obtain ⟨w', binder', -, -, -, hplace, -⟩ := h
  simpa [condition] using (congrArg List.length hplace).symm

/-- An append through a builder renders one of the SQL forms, with one placeholder for each operand
bound to it, exactly for the comparison and `LIKE` operators whose keyword SQL knows. -/
theorem append_renders_iff (how : Connective) (w : WhereBuilder) (binder : Query) (o : SqlOperator)
    (hnamed : ∀ v ∈ o.operands, Helper.isNamed v = false)
    (hin : o.type_ = .in_ → o.operands ≠ []) :
    RendersCondition how w binder o ↔ Renderable o := by
  obtain ⟨neg, col, t, v⟩ := o
  cases t with
  | in_ =>
    constructor
    · intro h
      obtain ⟨x, hx⟩ := List.length_eq_one_iff.mp (operands_length_of_rendersCondition h)
      rw [rendersCondition_single hx hx (by cases neg <;> simp [keyword, OpType.typeValue,
        OpType.notTypeValue])] at h
      cases neg <;> simp [keyword, singleKeywords, OpType.typeValue, OpType.notTypeValue] at h
    · intro h
      simp [Renderable] at h
  | between =>
    constructor
    · intro h
      simpa [SqlOperator.operands] using operands_length_of_rendersCondition h
    · intro h
      simp [Renderable] at h
  | isnull =>
    constructor
    · intro h
      simpa [SqlOperator.operands] using operands_length_of_rendersCondition h
    · intro h
      simp [Renderable] at h
  | _ =>
    have hv : Helper.isNamed v = false := hnamed v (List.mem_singleton_self v)
    rw [rendersCondition_single (v := v) rfl (by simp [SqlOperator.boundValues, hv])
      (by cases neg <;> simp [keyword, singleKeywords, OpType.typeValue, OpType.notTypeValue])]
    cases neg <;>
      simp [keyword, singleKeywords, Renderable, OpType.typeValue, OpType.notTypeValue]

/-- The theorem at a `startswith` appended with `&&` behind one parameter. -/
theorem append_renders_startswith :
    RendersCondition .and { binder_ := 0, session_ := .postgres }
      { session_ := some { impl_ := .postgres }, params_ := [.string "x"] }
      (Op.startswith (.string "param3") "abc") :=
  (append_renders_iff .and _ _ (Op.startswith (.string "param3") "abc")
    (by decide) (by decide)).mpr (by decide)

/-- `IS NULL` is rendered with a placeholder behind it. -/
theorem reset_isNull_not_rendered :
    ¬RendersCondition .reset { binder_ := 0, session_ := .postgres }
      { session_ := some { impl_ := .postgres } } (Op.isNull (.string "param3")) := by
  intro h
  exact absurd (operands_length_of_rendersCondition h) (by decide)

/-! ### Chains of appends -/

/-- The connectives a chain is written with. -/
inductive Junction where
  | and | or
deriving DecidableEq, Repr

def Junction.connective : Junction → Connective
  | .and => .and
  | .or => .or

/-- `builder && o` or `builder || o`, which renders the text it emits and appends it. -/
def chain : Machine (WhereBuilder × Query) (Junction × SingleOperator) (Junction × SqlText) where
  step s c :=
    match s.1.append c.1.connective s.2 c.2 with
    | .ok s' => (s', [(c.1, s.1.condition s.2 c.2)])
    | .error _ => (s, [])

/-- The same appends on a plain clause, by the operators of `where_clause`. -/
def plainChain (w : WhereClause) : List (Junction × SqlText) → WhereClause
  | [] => w
  | (.and, t) :: rest => plainChain (w.andText t) rest
  | (.or, t) :: rest => plainChain (w.orText t) rest

/-- Two clauses with the same value, `AND` parts and `OR` parts. -/
def SameParts (w v : WhereClause) : Prop :=
  w.value_ = v.value_ ∧ w.and_ = v.and_ ∧ w.or_ = v.or_

lemma chain_cons (s : WhereBuilder × Query) (j : Junction) (o : SingleOperator)
    (calls : List (Junction × SingleOperator)) :
    chain.run s ((j, o) :: calls) =
      let s' := ({ s.1 with toWhereClause := s.1.toWhereClause.andText (s.1.condition s.2 o) },
        boundBy s.2 o)
      ((chain.run s' calls).1, (j, s.1.condition s.2 o) :: (chain.run s' calls).2) := by
  simp only [Machine.run_cons, chain, append_eq]
  cases j <;> rfl

/-- A builder never adds to its `OR` parts. -/
lemma chain_or (s : WhereBuilder × Query) (calls : List (Junction × SingleOperator)) :
    (chain.run s calls).1.1.or_ = s.1.or_ := by
  induction calls generalizing s with
  | nil => rfl
  | cons c calls ih =>
    obtain ⟨j, o⟩ := c
    rw [chain_cons, ih]
    exact WhereClause.andText_or s.1.toWhereClause (s.1.condition s.2 o)

/-- A plain clause adds one `OR` part for every `||` once it has a value. -/
lemma plainChain_or_length (s : WhereBuilder × Query) (w : WhereClause)
    (hw : w.value_.render ≠ "") (calls : List (Junction × SingleOperator)) :
    (plainChain w (chain.run s calls).2).or_.length
      = w.or_.length + (calls.filter fun c => c.1 = .or).length := by
  induction calls generalizing s w with
  | nil => simp [plainChain]
  | cons c calls ih =>
    obtain ⟨j, o⟩ := c
    have ht := s.1.condition_ne_empty s.2 o
    rw [chain_cons]
    cases j with
    | and =>
      rw [plainChain, ih _ (w.andText _) (by rwa [WhereClause.andText_value hw]),
        WhereClause.andText_or]
      simp
    | or =>
      rw [plainChain, ih _ (w.orText _) (by rwa [WhereClause.orText_value hw]),
        WhereClause.orText_or hw ht]
      simp
      omega

lemma plainChain_of_and (s : WhereBuilder × Query) (calls : List (Junction × SingleOperator))
    (h : ∀ c ∈ calls, c.1 = .and) :
    plainChain s.1.toWhereClause (chain.run s calls).2 = (chain.run s calls).1.1.toWhereClause := by
  induction calls generalizing s with
  | nil => rfl
  | cons c calls ih =>
    obtain ⟨j, o⟩ := c
    have hj : j = .and := h (j, o) (by simp)
    subst hj
    rw [chain_cons, plainChain]
    exact ih ({ s.1 with toWhereClause := s.1.toWhereClause.andText (s.1.condition s.2 o) },
      boundBy s.2 o) (fun c hc => h c (by simp [hc]))

/-- Once a builder has a value, a chain on it is the plain chain exactly if it uses no `||`. -/
lemma chain_of_value (s : WhereBuilder × Query) (hs : s.1.value_.render ≠ "")
    (calls : List (Junction × SingleOperator)) :
    SameParts (chain.run s calls).1.1.toWhereClause
        (plainChain s.1.toWhereClause (chain.run s calls).2) ↔
      ∀ c ∈ calls, c.1 = .and := by
  constructor
  · rintro ⟨-, -, hor⟩ c hc
    have hlength := congrArg List.length hor
    rw [chain_or, plainChain_or_length s _ hs] at hlength
    have hnone : calls.filter (fun c => c.1 = .or) = [] := by
      rw [← List.length_eq_zero_iff]; omega
    cases hj : c.1 with
    | and => rfl
    | or => simpa [hj] using List.filter_eq_nil_iff.mp hnone c hc
  · intro h
    rw [plainChain_of_and s calls h]
    exact ⟨rfl, rfl, rfl⟩

/-- A chain of `&&` and `||` on a builder gives the clause the plain operators give exactly if no
`||` meets a non-empty value: `operator||` of the builder appends to the `AND` parts. -/
theorem chain_eq_plainChain_iff (w : WhereBuilder) (binder : Query)
    (calls : List (Junction × SingleOperator)) :
    SameParts (chain.run (w, binder) calls).1.1.toWhereClause
        (plainChain w.toWhereClause (chain.run (w, binder) calls).2) ↔
      ∀ c ∈ (if w.value_.empty then calls.tail else calls), c.1 = .and := by
  cases hv : w.value_.empty with
  | false =>
    simpa using chain_of_value (w, binder) (empty_eq_false.mp hv) calls
  | true =>
    cases calls with
    | nil => simp [plainChain, SameParts]
    | cons c calls =>
      obtain ⟨j, o⟩ := c
      have ht := w.condition_ne_empty binder o
      have hv' := empty_eq_true.mp hv
      have hfirst : ∀ j, (match j with
          | Junction.and => w.toWhereClause.andText (w.condition binder o)
          | Junction.or => w.toWhereClause.orText (w.condition binder o))
          = w.toWhereClause.andText (w.condition binder o) := by
        intro j
        cases j
        · rfl
        · simp [WhereClause.andText, WhereClause.orText, hv']
      have hvalue : (w.toWhereClause.andText (w.condition binder o)).value_.render ≠ "" := by
        simp [WhereClause.andText, hv', ht, WhereClause.setModified]
      have hrest := chain_of_value
        ({ w with toWhereClause := w.toWhereClause.andText (w.condition binder o) },
          boundBy binder o) hvalue calls
      rw [chain_cons]
      cases j with
      | and => simpa [plainChain] using hrest
      | or => simpa [plainChain, hfirst .or] using hrest

/-- The second condition of a README chain is appended with `AND`. -/
theorem chain_or_not_plain :
    ¬SameParts
      (chain.run ({ binder_ := 0, session_ := .postgres }, { session_ := none })
        [(.and, ⟨Op.equals (.string "last_name") (.string "Jenkins"), by decide⟩),
         (.or, ⟨Op.equals (.string "first_name") (.string "Harry"), by decide⟩)]).1.1.toWhereClause
      (plainChain {} (chain.run ({ binder_ := 0, session_ := .postgres }, { session_ := none })
        [(.and, ⟨Op.equals (.string "last_name") (.string "Jenkins"), by decide⟩),
         (.or, ⟨Op.equals (.string "first_name") (.string "Harry"), by decide⟩)]).2) := by
  rintro ⟨-, -, hor⟩
  exact absurd (congrArg List.length hor) (by decide)

end WhereBuilder

end CodaDb
