import CodaDb.Lib.Condition
import CodaDb.Where.Clause

/-!
# What a where clause means

Clauses built from atomic conditions, read with the precedence of SQL: when the rendering of
`w && v` is true exactly if `w` and `v` are, and the rendering of `w || v` exactly if one of them
is.
-/

namespace CodaDb

open SqlText Condition

namespace WhereClause

/-- The clauses built from atomic condition texts by any sequence of the operators, rendered in
between or not. An empty clause is no right operand of `&&`. -/
inductive Built : WhereClause → Prop where
  | empty : Built {}
  | text {t : SqlText} (ht : Atomic t.render) : Built (ofText t)
  | andText {w : WhereClause} {t : SqlText} (hw : Built w) (ht : t.render = "" ∨ Atomic t.render) :
      Built (w.andText t)
  | orText {w : WhereClause} {t : SqlText} (hw : Built w) (ht : t.render = "" ∨ Atomic t.render) :
      Built (w.orText t)
  | and {w v : WhereClause} (hw : Built w) (hv : Built v) (hne : v.empty = false) :
      Built (w.and v)
  | or {w v : WhereClause} (hw : Built w) (hv : Built v) : Built (w.or v)
  | memoise {w : WhereClause} (hw : Built w) : Built w.memoise

/-- The renderings of `w && v` and `w || v` mean the conjunction and the disjunction of what `w` and
`v` mean. -/
def Combines (w v : WhereClause) : Prop :=
  ∀ σ, ∃ a b, Means σ w.toSql.render a ∧ Means σ v.toSql.render b ∧
    Means σ (w.and v).toSql.render (a && b) ∧ Means σ (w.or v).toSql.render (a || b)

/-- A text is true: one of its alternatives is. -/
def holds (σ : String → Bool) (t : SqlText) : Bool := (alternatives σ t.render).any id

/-- An `AND` written behind the `AND` part of `w` takes only the last alternative there, and the
first of `v`, and it is not a part of what follows: the other alternatives must not matter. -/
def Combinable (w v : WhereClause) : Prop :=
  ∀ σ, ((alternatives σ w.andPart.render).dropLast.any id = true → holds σ v.toSql = true) ∧
    (holds σ w.orPart = true → holds σ v.toSql = true) ∧
    ((alternatives σ v.toSql.render).tail.any id = true → holds σ w.toSql = true)

/-! ### Texts as clauses -/

/-- A text is appended as the clause that consists of it. -/
lemma andText_eq_and (w : WhereClause) {t : SqlText} (ht : t.render ≠ "") :
    w.andText t = w.and (ofText t) := by
  simp [WhereClause.andText, WhereClause.and, ht]

lemma orText_eq_or (w : WhereClause) {t : SqlText} (ht : t.render ≠ "") :
    w.orText t = w.or (ofText t) := by
  have hne : (ofText t).empty = false := by simp [WhereClause.empty, ofText, ht]
  simp only [WhereClause.orText, WhereClause.or, hne, empty_eq_false.mpr ht, toSql_ofText]

/-! ### The parts of a combination -/

section Parts

variable {w v : WhereClause}

lemma and_of_value_empty (hw : w.value_.render = "") :
    w.and v = { w with sql_ := [], value_ := v.toSql } := by
  simp [WhereClause.and, hw, setModified]

lemma or_of_value_empty (hw : w.value_.render = "") (hne : v.empty = false) :
    w.or v = { w with sql_ := [], value_ := v.toSql } := by
  simp [WhereClause.or, hw, hne, setModified]

lemma and_of_value (hw : w.value_.render ≠ "") :
    w.and v = { w with sql_ := [], and_ := w.and_ ++ [v] } := by
  simp [WhereClause.and, hw, setModified]

lemma or_of_value (hw : w.value_.render ≠ "") (hne : v.empty = false) :
    w.or v = { w with sql_ := [], or_ := w.or_ ++ [v] } := by
  simp [WhereClause.or, hw, hne, setModified]

lemma and_empty (hw : w.value_.render ≠ "") : (w.and v).empty = false := by
  rw [and_of_value hw]
  simp [WhereClause.empty, hw]

lemma or_empty (hw : w.value_.render ≠ "") (hne : v.empty = false) : (w.or v).empty = false := by
  rw [or_of_value hw hne]
  simp [WhereClause.empty, hw]

/-- The `OR` part grows like the `AND` part. -/
lemma orPart_concat (hor : w.or_ ≠ []) (v : WhereClause) :
    orPart { w with sql_ := [], or_ := w.or_ ++ [v] } = w.orPart ++ lit " OR " ++ v.toSql :=
  joinSql_concat " OR " hor v

end Parts

/-! ### Built clauses are readable -/

/-- Memo and parts of a clause are in order and its parts can be read. -/
structure Sound (w : WhereClause) : Prop where
  coherent : w.Coherent
  empty : w.value_.render = "" → w.and_ = [] ∧ w.or_ = []
  andPart : w.value_.render ≠ "" → Readable w.andPart.render
  orPart : w.or_ ≠ [] → Readable w.orPart.render

namespace Sound

variable {w v : WhereClause}

lemma value_ne_empty (h : Sound w) (hne : w.empty = false) : w.value_.render ≠ "" := by
  intro hvalue
  obtain ⟨hand, hor⟩ := h.empty hvalue
  simp [WhereClause.empty, hvalue, hand, hor] at hne

/-- A non-empty clause can be read, and it is true if its `AND` part or its `OR` part is. -/
lemma toSql (h : Sound w) (hne : w.empty = false) :
    Readable w.toSql.render ∧
      ∀ σ, holds σ w.toSql = (holds σ w.andPart || holds σ w.orPart) := by
  have hand := h.andPart (h.value_ne_empty hne)
  rw [toSql_of_coherent h.coherent, generateSql_eq]
  by_cases hor : w.or_ = []
  · have horPart : ∀ σ, holds σ w.orPart = false := fun σ => by
      rw [WhereClause.orPart, hor]
      rfl
    simp only [hor, List.isEmpty_nil, if_true]
    exact ⟨hand, fun σ => by rw [horPart, Bool.or_false]⟩
  · have horPart := h.orPart hor
    by_cases hands : w.and_ = []
    · have htext : (w.andPart ++ lit " OR " ++ w.orPart).render
          = w.andPart.render ++ " OR " ++ w.orPart.render := by
        simp only [render_append, render_lit]
      simp only [hor, hands, List.isEmpty_iff, if_true, if_false, holds, htext]
      exact ⟨hand.or horPart, fun σ => by rw [hand.alternatives_or horPart, List.any_append]⟩
    · have htext : (lit "(" ++ w.andPart ++ lit ")" ++ (lit " OR (" ++ w.orPart ++ lit ")")).render
          = "(" ++ w.andPart.render ++ ")" ++ " OR " ++ ("(" ++ w.orPart.render ++ ")") := by
        have hopen : " OR (" = " OR " ++ "(" := rfl
        simp only [render_append, render_lit, hopen, String.append_assoc]
      simp only [hor, hands, List.isEmpty_iff, if_false, holds, htext]
      refine ⟨hand.group.or horPart.group, fun σ => ?_⟩
      rw [hand.group.alternatives_or horPart.group, hand.alternatives_group,
        horPart.alternatives_group]
      simp

lemma nil : Sound {} :=
  ⟨.inl rfl, fun _ => ⟨rfl, rfl⟩, fun h => absurd rfl h, fun h => absurd rfl h⟩

/-- A clause that is a single text. -/
lemma ofValue {t : SqlText} (ht : Readable t.render) : Sound { value_ := t } := by
  refine ⟨.inl rfl, fun _ => ⟨rfl, rfl⟩, fun _ => ?_, fun h => absurd rfl h⟩
  simpa [WhereClause.andPart] using ht

/-- The first clause appended becomes the value. -/
lemma first (hw : Sound w) (hvalue : w.value_.render = "") {t : SqlText} (ht : Readable t.render) :
    Sound { w with sql_ := [], value_ := t } := by
  obtain ⟨hand, hor⟩ := hw.empty hvalue
  rw [hand, hor]
  exact ofValue ht

lemma and (hw : Sound w) (hv : Sound v) (hne : v.empty = false) : Sound (w.and v) := by
  have hread := (hv.toSql hne).1
  by_cases hvalue : w.value_.render = ""
  · rw [and_of_value_empty hvalue]
    exact hw.first hvalue hread
  · rw [and_of_value hvalue]
    refine ⟨.inl rfl, fun h => absurd h hvalue, fun _ => ?_, hw.orPart⟩
    rw [andPart_concat, render_append, render_append, render_lit]
    exact (hw.andPart hvalue).and hread

lemma or (hw : Sound w) (hv : Sound v) : Sound (w.or v) := by
  cases hne : v.empty with
  | true => simpa [WhereClause.or, hne] using hw
  | false =>
    have hread := (hv.toSql hne).1
    by_cases hvalue : w.value_.render = ""
    · rw [or_of_value_empty hvalue hne]
      exact hw.first hvalue hread
    · rw [or_of_value hvalue hne]
      refine ⟨.inl rfl, fun h => absurd h hvalue, fun _ => hw.andPart hvalue, fun _ => ?_⟩
      by_cases hor : w.or_ = []
      · simpa [WhereClause.orPart, hor] using hread
      · rw [orPart_concat hor, render_append, render_append, render_lit]
        exact (hw.orPart hor).or hread

end Sound

lemma Built.sound {w : WhereClause} (h : Built w) : Sound w := by
  induction h with
  | empty => exact .nil
  | text ht => exact .ofValue ht.readable
  | @andText w t hw ht ih =>
    rcases ht with ht | ht
    · simpa [WhereClause.andText, ht] using ih
    · have hne := ht.readable.ne_empty
      rw [andText_eq_and w hne]
      exact ih.and (.ofValue ht.readable) (by simp [WhereClause.empty, ofText, hne])
  | @orText w t hw ht ih =>
    rcases ht with ht | ht
    · simpa [WhereClause.orText, ht] using ih
    · rw [orText_eq_or w ht.readable.ne_empty]
      exact ih.or (.ofValue ht.readable)
  | and hw hv hne ihw ihv => exact ihw.and ihv hne
  | or hw hv ihw ihv => exact ihw.or ihv
  | memoise hw ih => exact ⟨coherent_memoise ih.coherent, ih.empty, ih.andPart, ih.orPart⟩

/-! ### Combining two clauses -/

section Combination

variable {w v : WhereClause}

/-- Without `OR` parts the text of these parts is never true. -/
lemma holds_orPart_nil (hor : w.or_ = []) (σ : String → Bool) : holds σ w.orPart = false := by
  rw [orPart, hor]
  rfl

/-- The disjunction is always read as one. -/
lemma holds_or (hw : Sound w) (hv : Sound v) (hwne : w.empty = false) (hvne : v.empty = false)
    (σ : String → Bool) : holds σ (w.or v).toSql = (holds σ w.toSql || holds σ v.toSql) := by
  have hvalue := hw.value_ne_empty hwne
  have horPart : holds σ (w.or v).orPart = (holds σ w.orPart || holds σ v.toSql) := by
    rw [or_of_value hvalue hvne]
    by_cases hor : w.or_ = []
    · rw [holds_orPart_nil hor, Bool.false_or]
      simp only [orPart, hor, List.nil_append, joinSql_singleton]
    · rw [orPart_concat hor, holds, render_append, render_append, render_lit,
        (hw.orPart hor).alternatives_or (hv.toSql hvne).1, List.any_append]
      rfl
  have handPart : (w.or v).andPart = w.andPart := by
    rw [or_of_value hvalue hvne]
    rfl
  rw [((hw.or hv).toSql (or_empty hvalue hvne)).2, (hw.toSql hwne).2, horPart, handPart,
    Bool.or_assoc]

/-- The conjunction takes the last alternative of the `AND` part and the first of `v` only. -/
lemma holds_and (hw : Sound w) (hv : Sound v) (hwne : w.empty = false) (hvne : v.empty = false)
    (σ : String → Bool) :
    holds σ (w.and v).toSql = ((conjoin (alternatives σ w.andPart.render)
      (alternatives σ v.toSql.render)).any id || holds σ w.orPart) := by
  have hvalue := hw.value_ne_empty hwne
  have handPart : (w.and v).andPart = w.andPart ++ lit " AND " ++ v.toSql := by
    rw [and_of_value hvalue, andPart_concat]
  have horPart : (w.and v).orPart = w.orPart := by
    rw [and_of_value hvalue]
    rfl
  rw [((hw.and hv hvne).toSql (and_empty hvalue)).2, horPart, handPart, holds, render_append,
    render_append, render_lit, (hw.andPart hvalue).alternatives_and (hv.toSql hvne).1]

/-- When a conjunction that takes one alternative of each side is the conjunction of both sides. -/
lemma any_conjoin_eq_iff {as bs : List Bool} (ha : as ≠ []) (hb : bs ≠ []) (o : Bool) :
    ((conjoin as bs).any id || o) = ((as.any id || o) && bs.any id) ↔
      (as.dropLast.any id = true → bs.any id = true) ∧ (o = true → bs.any id = true) ∧
        (bs.tail.any id = true → (as.any id || o) = true) := by
  obtain ⟨init, last, rfl⟩ := (List.eq_nil_or_concat as).resolve_left ha
  obtain ⟨first, rest, rfl⟩ := List.exists_cons_of_ne_nil hb
  rw [List.concat_eq_append, conjoin_concat, List.dropLast_concat]
  simp only [List.any_append, List.any_cons, List.any_nil, List.tail_cons, id, Bool.or_false]
  clear ha hb
  generalize init.any id = i, rest.any id = r
  revert i r o last first
  decide

/-- `&&` and `||` combine two built clauses as they should exactly if the alternatives that an `AND`
without parentheses passes over do not matter. -/
theorem combines_iff (hw : Built w) (hv : Built v) (hwne : w.empty = false)
    (hvne : v.empty = false) : Combines w v ↔ Combinable w v := by
  have hws := hw.sound
  have hvs := hv.sound
  have hvalue := hws.value_ne_empty hwne
  have hwread := (hws.toSql hwne).1
  have hvread := (hvs.toSql hvne).1
  have handread := ((hws.and hvs hvne).toSql (and_empty hvalue)).1
  have horread := ((hws.or hvs).toSql (or_empty hvalue hvne)).1
  rw [Combines, Combinable]
  refine forall_congr' fun σ => ?_
  have hand : holds σ (w.and v).toSql = (holds σ w.toSql && holds σ v.toSql) ↔
      ((alternatives σ w.andPart.render).dropLast.any id = true → holds σ v.toSql = true) ∧
        (holds σ w.orPart = true → holds σ v.toSql = true) ∧
        ((alternatives σ v.toSql.render).tail.any id = true → holds σ w.toSql = true) := by
    rw [holds_and hws hvs hwne hvne, (hws.toSql hwne).2]
    exact any_conjoin_eq_iff ((hws.andPart hvalue).alternatives_ne_nil σ)
      (hvread.alternatives_ne_nil σ) (holds σ w.orPart)
  rw [← hand]
  simp only [hwread.means_iff, hvread.means_iff, handread.means_iff, horread.means_iff]
  constructor
  · rintro ⟨a, b, rfl, rfl, h, -⟩
    exact h
  · intro h
    exact ⟨_, _, rfl, rfl, h, holds_or hws hvs hwne hvne σ⟩

end Combination

/-- The theorem at two atoms. -/
theorem combines_atoms : Combines (ofText (lit "a = 1")) (ofText (lit "b = 2")) := by
  refine (combines_iff (.text ⟨by decide, by decide⟩) (.text ⟨by decide, by decide⟩) rfl rfl).mpr ?_
  intro σ
  exact ⟨fun h => Bool.noConfusion h, fun h => Bool.noConfusion h, fun h => Bool.noConfusion h⟩

/-- The second alternative of `v` escapes the conjunction: `a = 1 AND b = 2 OR c = 3`. -/
theorem not_combines_or :
    ¬Combines (ofText (lit "a = 1")) ((ofText (lit "b = 2")).or (ofText (lit "c = 3"))) := by
  intro h
  obtain ⟨a, b, ha, hb, hand, -⟩ := h fun atom => atom == "c = 3"
  have hvalue := hand.eq
  rw [← ha.eq, ← hb.eq] at hvalue
  exact absurd hvalue (by decide)

end WhereClause

end CodaDb
