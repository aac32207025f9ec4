import CodaDb.Sql.Text

/-!
# `where_clause`

A tree of condition texts with a list of `AND` parts and a list of `OR` parts at each node, and a
memo of its rendering (`sql_`, from the base class `sql_generator`).
-/

namespace CodaDb

open SqlText

structure WhereClause where
  sql_ : SqlText := []
  value_ : SqlText := []
  and_ : List WhereClause := []
  or_ : List WhereClause := []

namespace WhereClause

mutual
/-- `where_clause::generate_sql` -/
def generateSql : WhereClause → SqlText
  | ⟨_, value_, and_, or_⟩ =>
    (if !and_.isEmpty && !or_.isEmpty then lit "(" else []) ++ value_ ++
      (if and_.isEmpty then []
        else lit " AND " ++ joinSql " AND " and_ ++ (if or_.isEmpty then [] else lit ")")) ++
      (if or_.isEmpty then []
        else (if and_.isEmpty then lit " OR " else lit " OR (") ++ joinSql " OR " or_ ++
          (if and_.isEmpty then [] else lit ")"))

/-- The loop over `and_` or `or_`: the texts of the parts with a connective between them. -/
def joinSql (connective : String) : List WhereClause → SqlText
  | [] => []
  | [w] => if w.sql_.empty then w.generateSql else w.sql_
  | w :: ws =>
    (if w.sql_.empty then w.generateSql else w.sql_) ++ lit connective ++ joinSql connective ws
end

/-- `to_sql() const` -/
def toSql (w : WhereClause) : SqlText := if w.sql_.empty then w.generateSql else w.sql_

/-- The non-const `to_sql`, which keeps the text it returns. -/
def memoise (w : WhereClause) : WhereClause := { w with sql_ := w.toSql }

def setModified (w : WhereClause) : WhereClause := { w with sql_ := [] }

/-- `where_clause(const std::string &)` -/
def ofText (value : SqlText) : WhereClause := { value_ := value }

def empty (w : WhereClause) : Bool := w.value_.empty && w.and_.isEmpty && w.or_.isEmpty

/-- `operator&&(const where_clause &)` -/
def and (w value : WhereClause) : WhereClause :=
  if w.value_.empty then setModified { w with value_ := value.toSql }
  else setModified { w with and_ := w.and_ ++ [value] }

/-- `operator&&(const std::string &)` -/
def andText (w : WhereClause) (value : SqlText) : WhereClause :=
  if value.empty then w
  else if w.value_.empty then setModified { w with value_ := value }
  else setModified { w with and_ := w.and_ ++ [ofText value] }

/-- `operator||(const where_clause &)` -/
def or (w value : WhereClause) : WhereClause :=
  if value.empty then w
  else if w.value_.empty then setModified { w with value_ := value.toSql }
  else setModified { w with or_ := w.or_ ++ [value] }

/-- `operator||(const std::string &)` -/
def orText (w : WhereClause) (value : SqlText) : WhereClause :=
  if value.empty then w
  else if w.value_.empty then setModified { w with value_ := value }
  else setModified { w with or_ := w.or_ ++ [ofText value] }

/-- `reset()` -/
def reset (_ : WhereClause) : WhereClause := {}

/-- `reset(const std::string &)` -/
def resetText (w : WhereClause) (value : SqlText) : WhereClause := { w.reset with value_ := value }

lemma joinSql_cons (c : String) (w : WhereClause) (ws : List WhereClause) :
    joinSql c (w :: ws) = if ws.isEmpty then w.toSql else w.toSql ++ lit c ++ joinSql c ws := by
  cases ws <;> rfl

@[simp] lemma joinSql_singleton (c : String) (w : WhereClause) : joinSql c [w] = w.toSql := rfl

/-- Appending a part to a non-empty list adds the connective and the text of the part. -/
lemma joinSql_concat (c : String) {ws : List WhereClause} (h : ws ≠ []) (w : WhereClause) :
    joinSql c (ws ++ [w]) = joinSql c ws ++ lit c ++ w.toSql := by
  induction ws with
  | nil => exact absurd rfl h
  | cons v vs ih =>
    cases vs with
    | nil => rfl
    | cons u us =>
      have hstep : ∀ vs', vs' ≠ [] → joinSql c (v :: vs') = v.toSql ++ lit c ++ joinSql c vs' := by
        intro vs' hvs'
        simp [joinSql_cons, hvs']
      rw [List.cons_append, hstep _ (by simp), ih (by simp), hstep _ (by simp)]
      simp only [List.append_assoc]

section Append

variable {w : WhereClause} {t : SqlText}

/-- Once a clause has a value, appending keeps it. -/
lemma andText_value (hw : w.value_.render ≠ "") : (w.andText t).value_ = w.value_ := by
  rw [andText]
  split
  · rfl
  · simp [hw, setModified]

lemma orText_value (hw : w.value_.render ≠ "") : (w.orText t).value_ = w.value_ := by
  rw [orText]
  split
  · rfl
  · simp [hw, setModified]

lemma andText_or (w : WhereClause) (t : SqlText) : (w.andText t).or_ = w.or_ := by
  rw [andText]
  split
  · rfl
  · split <;> rfl

/-- Later texts become parts. -/
lemma andText_of_value (hw : w.value_.render ≠ "") (ht : t.render ≠ "") :
    w.andText t = { w with sql_ := [], and_ := w.and_ ++ [ofText t] } := by
  simp [andText, hw, ht, setModified]

lemma orText_or (hw : w.value_.render ≠ "") (ht : t.render ≠ "") :
    (w.orText t).or_ = w.or_ ++ [ofText t] := by
  simp [orText, hw, ht, setModified]

end Append

/-- The text before the `OR` parts: the value and the `AND` parts. -/
def andPart (w : WhereClause) : SqlText :=
  w.value_ ++ if w.and_.isEmpty then [] else lit " AND " ++ joinSql " AND " w.and_

/-- The text of the `OR` parts. -/
def orPart (w : WhereClause) : SqlText := joinSql " OR " w.or_

/-- The three shapes of a rendering; parentheses appear only around two non-empty lists. -/
lemma generateSql_eq (w : WhereClause) :
    w.generateSql =
      if w.or_.isEmpty then w.andPart
      else if w.and_.isEmpty then w.andPart ++ lit " OR " ++ w.orPart
      else lit "(" ++ w.andPart ++ lit ")" ++ (lit " OR (" ++ w.orPart ++ lit ")") := by
  obtain ⟨sql, value, ands, ors⟩ := w
  cases ands <;> cases ors <;> simp [generateSql, andPart, orPart]

lemma toSql_of_empty {w : WhereClause} (h : w.sql_.render = "") : w.toSql = w.generateSql := by
  simp [toSql, h]

/-- The rendering does not read the memo. -/
@[simp] lemma generateSql_memo (w : WhereClause) (t : SqlText) :
    generateSql { w with sql_ := t } = w.generateSql := by
  obtain ⟨sql, value, ands, ors⟩ := w
  simp only [generateSql]

@[simp] lemma toSql_ofText (value : SqlText) : (ofText value).toSql = value := by
  simp [ofText, toSql, generateSql]

/-- The memo is empty or the text of the current parts. -/
def Coherent (w : WhereClause) : Prop := w.sql_.render = "" ∨ w.sql_ = w.generateSql

lemma toSql_of_coherent {w : WhereClause} (h : w.Coherent) : w.toSql = w.generateSql := by
  rcases h with h | h
  · exact toSql_of_empty h
  · simp only [toSql, ← h, ite_self]

lemma coherent_memoise {w : WhereClause} (h : w.Coherent) : w.memoise.Coherent :=
  .inr ((toSql_of_coherent h).trans (generateSql_memo w _).symm)

/-! ### Conjunctions -/

/-- A clause that was empty when the conditions `ts` were appended to it with `&&`. -/
structure Conjunction (w : WhereClause) (ts : List SqlText) : Prop where
  memo : w.sql_ = []
  or : w.or_ = []
  empty : ts = [] → w.value_ = [] ∧ w.and_ = []
  value : ts ≠ [] → w.value_.render ≠ ""
  text : w.andPart.render = " AND ".intercalate (ts.map render)
  placeholders : w.andPart.placeholders = ts.flatMap SqlText.placeholders

lemma conjunction_nil : Conjunction {} [] :=
  ⟨rfl, rfl, fun _ => ⟨rfl, rfl⟩, fun h => absurd rfl h, by simp [andPart], by simp [andPart]⟩

lemma conjunction_resetText (w : WhereClause) {t : SqlText} (ht : t.render ≠ "") :
    Conjunction (w.resetText t) [t] :=
  ⟨rfl, rfl, by simp, fun _ => ht, by simp [andPart, resetText, reset],
    by simp [andPart, resetText, reset]⟩

/-- The `AND` part grows by a connective and the text of the new part, as it is. -/
lemma andPart_concat (w v : WhereClause) :
    andPart { w with sql_ := [], and_ := w.and_ ++ [v] } = w.andPart ++ lit " AND " ++ v.toSql := by
  simp only [andPart]
  cases hand : w.and_ with
  | nil => simp
  | cons u us =>
    rw [joinSql_concat " AND " (by simp)]
    simp

lemma andPart_andText {w : WhereClause} {t : SqlText} (hw : w.value_.render ≠ "")
    (ht : t.render ≠ "") : (w.andText t).andPart = w.andPart ++ lit " AND " ++ t := by
  rw [andText_of_value hw ht, andPart_concat, toSql_ofText]

lemma Conjunction.andText {w : WhereClause} {ts : List SqlText} (h : Conjunction w ts)
    {t : SqlText} (ht : t.render ≠ "") : Conjunction (w.andText t) (ts ++ [t]) := by
  cases ts with
  | nil =>
    obtain ⟨hvalue, hand⟩ := h.empty rfl
    have hnew : w.andText t = { sql_ := [], value_ := t, and_ := [], or_ := [] } := by
      simp [WhereClause.andText, ht, hvalue, hand, h.or, setModified]
    rw [hnew]
    exact ⟨rfl, rfl, by simp, fun _ => ht, by simp [andPart], by simp [andPart]⟩
  | cons u us =>
    have hvalue := h.value (by simp)
    refine ⟨?_, ?_, by simp, fun _ => ?_, ?_, ?_⟩
    · simp [WhereClause.andText, ht, hvalue, setModified]
    · rw [andText_or, h.or]
    · rwa [andText_value hvalue]
    · rw [andPart_andText hvalue ht, List.map_append,
        String.intercalate_append_of_ne_nil (by simp) (by simp), ← h.text]
      simp [String.append_assoc]
    · rw [andPart_andText hvalue ht]
      simp [h.placeholders]

lemma Conjunction.empty_eq {w : WhereClause} {ts : List SqlText} (h : Conjunction w ts) :
    w.empty = decide (ts = []) := by
  by_cases hts : ts = []
  · obtain ⟨hvalue, hand⟩ := h.empty hts
    simp [WhereClause.empty, hvalue, hand, h.or, hts]
  · have hvalue := h.value hts
    simp [WhereClause.empty, hvalue, hts]

/-- A conjunction renders its `AND` part and needs no parentheses. -/
lemma Conjunction.toSql_eq {w : WhereClause} {ts : List SqlText} (h : Conjunction w ts) :
    w.toSql = w.andPart := by
  rw [toSql_of_empty (by simp [h.memo]), generateSql_eq]
  simp [h.or]

end WhereClause

end CodaDb
