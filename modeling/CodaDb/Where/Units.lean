import CodaDb.Where.Clause
import Mathlib.Tactic.ByContra
import Mathlib.Tactic.SplitIfs

/-!
# The empty clause as a unit

A filter that may be empty is joined with others by `&&` and `||`. Which of these joins leave the
text as it is, for the clauses that can be built.
-/

namespace CodaDb.WhereClause

open SqlText

/-- The clauses that constructors, the operators, `reset` and `to_sql` lead to. -/
inductive Reachable : WhereClause → Prop where
  | default : Reachable {}
  | text (value : SqlText) : Reachable (ofText value)
  | and {w value : WhereClause} : Reachable w → Reachable value → Reachable (w.and value)
  | andText {w : WhereClause} (value : SqlText) : Reachable w → Reachable (w.andText value)
  | or {w value : WhereClause} : Reachable w → Reachable value → Reachable (w.or value)
  | orText {w : WhereClause} (value : SqlText) : Reachable w → Reachable (w.orText value)
  | reset {w : WhereClause} : Reachable w → Reachable w.reset
  | resetText {w : WhereClause} (value : SqlText) : Reachable w → Reachable (w.resetText value)
  | toSql {w : WhereClause} : Reachable w → Reachable w.memoise

/-- The memo agrees with the parts, and a clause without a value has no parts. -/
structure WellFormed (w : WhereClause) : Prop where
  coherent : w.Coherent
  parts : w.value_.render = "" → w.and_ = [] ∧ w.or_ = []

namespace WellFormed

variable {w e : WhereClause}

lemma setModified (h : w.value_.render = "" → w.and_ = [] ∧ w.or_ = []) :
    w.setModified.WellFormed :=
  ⟨.inl rfl, h⟩

/-- A new value in a clause that had none. -/
lemma replaceValue (h : w.WellFormed) (hvalue : w.value_.render = "") (value : SqlText) :
    (WhereClause.setModified { w with value_ := value }).WellFormed :=
  setModified fun _ => h.parts hvalue

/-- A new part in a clause that has a value. -/
lemma addPart (hvalue : w.value_.render ≠ "") (ands ors : List WhereClause) :
    (WhereClause.setModified { w with and_ := ands, or_ := ors }).WellFormed :=
  setModified fun h => absurd h hvalue

lemma and (h : w.WellFormed) (value : WhereClause) : (w.and value).WellFormed := by
  rw [WhereClause.and]
  split_ifs with hvalue
  · exact h.replaceValue (empty_eq_true.mp hvalue) _
  · exact addPart (mt empty_eq_true.mpr hvalue) _ _

lemma andText (h : w.WellFormed) (value : SqlText) : (w.andText value).WellFormed := by
  rw [WhereClause.andText]
  split_ifs with hempty hvalue
  · exact h
  · exact h.replaceValue (empty_eq_true.mp hvalue) _
  · exact addPart (mt empty_eq_true.mpr hvalue) _ _

lemma or (h : w.WellFormed) (value : WhereClause) : (w.or value).WellFormed := by
  rw [WhereClause.or]
  split_ifs with hempty hvalue
  · exact h
  · exact h.replaceValue (empty_eq_true.mp hvalue) _
  · exact addPart (mt empty_eq_true.mpr hvalue) _ _

lemma orText (h : w.WellFormed) (value : SqlText) : (w.orText value).WellFormed := by
  rw [WhereClause.orText]
  split_ifs with hempty hvalue
  · exact h
  · exact h.replaceValue (empty_eq_true.mp hvalue) _
  · exact addPart (mt empty_eq_true.mpr hvalue) _ _

/-- Without a value there is nothing to render. -/
lemma generateSql_of_empty (h : w.WellFormed) (hvalue : w.value_.render = "") :
    w.generateSql.render = "" := by
  obtain ⟨hand, hor⟩ := h.parts hvalue
  rw [generateSql_eq, hor, andPart, hand]
  simp [hvalue]

end WellFormed

/-- A value shows in the text. -/
lemma generateSql_ne_empty {w : WhereClause} (hvalue : w.value_.render ≠ "") :
    w.generateSql.render ≠ "" := by
  have hand : w.andPart.render ≠ "" := by
    rw [andPart]
    exact append_ne_empty hvalue
  rw [generateSql_eq]
  split_ifs with hor hands
  · exact hand
  · rw [List.append_assoc]
    exact append_ne_empty hand
  · rw [List.append_assoc, List.append_assoc]
    exact append_ne_empty (by simp)

lemma Reachable.wellFormed {w : WhereClause} (h : w.Reachable) : w.WellFormed := by
  induction h with
  | default => exact ⟨.inl rfl, fun _ => ⟨rfl, rfl⟩⟩
  | text value => exact ⟨.inl rfl, fun _ => ⟨rfl, rfl⟩⟩
  | and _ _ ih _ => exact ih.and _
  | andText value _ ih => exact ih.andText value
  | or _ _ ih _ => exact ih.or _
  | orText value _ ih => exact ih.orText value
  | reset _ _ => exact ⟨.inl rfl, fun _ => ⟨rfl, rfl⟩⟩
  | resetText value _ _ => exact ⟨.inl rfl, fun _ => ⟨rfl, rfl⟩⟩
  | toSql _ ih => exact ⟨coherent_memoise ih.coherent, ih.parts⟩

namespace WellFormed

variable {w e : WhereClause}

lemma empty_iff (h : w.WellFormed) : w.empty = true ↔ w.value_.render = "" := by
  rw [empty, Bool.and_eq_true, Bool.and_eq_true, empty_eq_true]
  constructor
  · exact fun hempty => hempty.1.1
  · intro hvalue
    obtain ⟨hand, hor⟩ := h.parts hvalue
    simp [hvalue, hand, hor]

/-- `empty` tells whether there is a text. -/
lemma empty_iff_text (h : w.WellFormed) : w.empty = true ↔ w.toSql.render = "" := by
  rw [h.empty_iff, toSql_of_coherent h.coherent]
  constructor
  · exact h.generateSql_of_empty
  · intro htext
    by_contra hvalue
    exact generateSql_ne_empty hvalue htext

lemma toSql_of_empty (h : e.WellFormed) (hempty : e.empty = true) : e.toSql.render = "" :=
  h.empty_iff_text.mp hempty

end WellFormed

/-- A clause that has only a value renders it. -/
lemma toSql_value {w : WhereClause} (value : SqlText) (hand : w.and_ = []) (hor : w.or_ = []) :
    (setModified { w with value_ := value }).toSql = value := by
  rw [WhereClause.toSql_of_empty rfl, generateSql_eq, setModified, hor, andPart, hand]
  simp

/-- The ways to join a clause with an empty one or an empty string. -/
inductive UnitLaw where
  | and | andText (s : { s : SqlText // s.render = "" })
  | or | orText (s : { s : SqlText // s.render = "" })
  | leftAnd | leftOr

/-- The clause that is rendered after the operator. -/
def UnitLaw.join (w e : WhereClause) : UnitLaw → WhereClause
  | .and => w.and e
  | .andText s => w.andText s.val
  | .or => w.or e
  | .orText s => w.orText s.val
  | .leftAnd => e.and w
  | .leftOr => e.or w

/-- The join renders the text of `w`, and `w` is empty exactly if it has no text. -/
def UnitLaw.Holds (w e : WhereClause) (law : UnitLaw) : Prop :=
  (law.join w e).toSql.render = w.toSql.render ∧ (w.empty = true ↔ w.toSql.render = "")

section Joins

variable {w e : WhereClause} (he : e.WellFormed) (hempty : e.empty = true)
include he hempty

/-- An empty clause on the left takes the text on the right as its value. -/
lemma toSql_empty_and : (e.and w).toSql.render = w.toSql.render := by
  have hvalue := he.empty_iff.mp hempty
  obtain ⟨hand, hor⟩ := he.parts hvalue
  rw [WhereClause.and, if_pos (empty_eq_true.mpr hvalue), toSql_value _ hand hor]

lemma toSql_empty_or (hw : w.WellFormed) : (e.or w).toSql.render = w.toSql.render := by
  have hvalue := he.empty_iff.mp hempty
  obtain ⟨hand, hor⟩ := he.parts hvalue
  rw [WhereClause.or]
  split_ifs with hwempty hevalue
  · rw [he.toSql_of_empty hempty, hw.toSql_of_empty hwempty]
  · rw [toSql_value _ hand hor]
  · exact absurd (empty_eq_true.mpr hvalue) hevalue

/-- `&&` has no test for an empty clause on the right: it becomes a part, which shows as a
connective without an operand. -/
lemma toSql_and_empty (hw : w.WellFormed) :
    (w.and e).toSql.render = w.toSql.render ↔ w.empty = true := by
  rw [hw.empty_iff]
  by_cases hvalue : w.value_.render = ""
  · obtain ⟨hand, hor⟩ := hw.parts hvalue
    rw [WhereClause.and, if_pos (empty_eq_true.mpr hvalue), toSql_value _ hand hor,
      he.toSql_of_empty hempty, hw.toSql_of_empty (hw.empty_iff.mpr hvalue)]
    simp [hvalue]
  · rw [WhereClause.and, if_neg (mt empty_eq_true.mp hvalue), setModified,
      WhereClause.toSql_of_empty rfl, toSql_of_coherent hw.coherent, generateSql_eq,
      generateSql_eq]
    refine iff_of_false ?_ hvalue
    intro htext
    have hlength := congrArg String.length htext
    simp only [andPart_concat] at hlength
    by_cases hor : w.or_ = []
    · simp [hor, he.toSql_of_empty hempty] at hlength
    · by_cases hand : w.and_ = []
      · have hbefore : " OR ".length = 4 := rfl
        have hafter : " OR (".length = 5 := rfl
        simp [hor, hand, orPart, he.toSql_of_empty hempty] at hlength
        omega
      · simp [hor, hand, orPart, he.toSql_of_empty hempty] at hlength

end Joins

/-- An empty clause or string on either side leaves the text as it is, except for an empty clause
on the right of `&&` when the left clause is not empty. -/
theorem unitLaw_iff {w e : WhereClause} (hw : w.Reachable) (he : e.Reachable)
    (hempty : e.empty = true) (law : UnitLaw) :
    law.Holds w e ↔ (law = .and → w.empty = true) := by
  have hw := hw.wellFormed
  have he := he.wellFormed
  rw [UnitLaw.Holds, and_iff_left hw.empty_iff_text]
  cases law with
  | and =>
    rw [UnitLaw.join, toSql_and_empty he hempty hw]
    exact ⟨fun h _ => h, fun h => h rfl⟩
  | andText s =>
    refine iff_of_true ?_ fun hand => by cases hand
    rw [UnitLaw.join, andText, if_pos (empty_eq_true.mpr s.property)]
  | or =>
    refine iff_of_true ?_ fun hand => by cases hand
    rw [UnitLaw.join, WhereClause.or, if_pos hempty]
  | orText s =>
    refine iff_of_true ?_ fun hand => by cases hand
    rw [UnitLaw.join, orText, if_pos (empty_eq_true.mpr s.property)]
  | leftAnd => exact iff_of_true (toSql_empty_and he hempty) fun hand => by cases hand
  | leftOr => exact iff_of_true (toSql_empty_or he hempty hw) fun hand => by cases hand

theorem unitLaw_iff_condition :
    (UnitLaw.and.Holds (ofText (lit "a = 1")) {} ↔
      (UnitLaw.and = UnitLaw.and → (ofText (lit "a = 1")).empty = true)) ∧
    (UnitLaw.leftAnd.Holds (ofText (lit "a = 1")) {} ↔
      (UnitLaw.leftAnd = UnitLaw.and → (ofText (lit "a = 1")).empty = true)) :=
  ⟨unitLaw_iff (.text _) .default rfl .and, unitLaw_iff (.text _) .default rfl .leftAnd⟩

/-- `a = 1` joined with an empty clause is `a = 1 AND `. -/
theorem not_unitLaw_condition :
    ¬∀ w e : WhereClause, w.Reachable → e.Reachable → e.empty = true →
      ∀ law : UnitLaw, law.Holds w e := by
  intro h
  have htext := (h (ofText (lit "a = 1")) {} (.text _) .default rfl .and).1
  exact absurd htext (by decide)

end CodaDb.WhereClause
