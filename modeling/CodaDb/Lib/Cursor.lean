import Mathlib.Data.Nat.Init
import Mathlib.Tactic.Lemma

/-!
# Cursors over rows

A cursor is reset, moves to its next row until there is none, and may fail at any of these calls. A
pass over its rows is compared along a simulation, in the end with the cursor of a list.
-/

universe u v w x

/-- The calls of a cursor with states `σ`, rows `ρ` and errors `ε`. -/
structure Cursor (σ : Type u) (ρ : Type v) (ε : Type w) where
  reset : σ → σ × Except ε Unit
  next : σ → σ × Except ε Bool
  row : σ → Option ρ

namespace Cursor

variable {σ : Type u} {ρ : Type v} {ε : Type w} {τ : Type x}

/-- How a pass over the rows stops. -/
inductive Stop (ε : Type w) where
  | finished
  | threw (e : ε)
  /-- there are more rows than the pass can count -/
  | overrun

/-- Move through the rows that are left, of which `budget` can be counted. -/
def drain (C : Cursor σ ρ ε) : Nat → Nat → σ → Option (List (Option ρ) × Stop ε)
  | 0, _, _ => none
  | fuel + 1, budget, s =>
    match C.next s with
    | (_, .error e) => some ([], .threw e)
    | (_, .ok false) => some ([], .finished)
    | (s', .ok true) =>
      match budget with
      | 0 => some ([], .overrun)
      | budget + 1 => (C.drain fuel budget s').map fun r => (C.row s' :: r.1, r.2)

/-- Reset, and move through the rows. -/
def pass (C : Cursor σ ρ ε) (fuel budget : Nat) (s : σ) : Option (List (Option ρ) × Stop ε) :=
  match C.reset s with
  | (_, .error e) => some ([], .threw e)
  | (s', .ok ()) => C.drain fuel budget s'

/-! ### Simulation -/

/-- Two moves fail alike, find no more rows, or lead to related states with the same row. -/
inductive Moves (C : Cursor σ ρ ε) (D : Cursor τ ρ ε) (R : σ → τ → Prop) :
    σ × Except ε Bool → τ × Except ε Bool → Prop where
  | threw (s : σ) (t : τ) (e : ε) : Moves C D R (s, .error e) (t, .error e)
  | finished (s : σ) (t : τ) : Moves C D R (s, .ok false) (t, .ok false)
  | moved {s : σ} {t : τ} (h : R s t) (hrow : C.row s = D.row t) :
      Moves C D R (s, .ok true) (t, .ok true)

/-- From related states two cursors move alike. -/
def Simulates (C : Cursor σ ρ ε) (D : Cursor τ ρ ε) (R : σ → τ → Prop) : Prop :=
  ∀ s t, R s t → Moves C D R (C.next s) (D.next t)

variable {C : Cursor σ ρ ε} {D : Cursor τ ρ ε} {R : σ → τ → Prop} {s s' : σ} {t t' : τ}

lemma Simulates.drain (hsim : Simulates C D R) (hst : R s t) (fuel budget : Nat) :
    C.drain fuel budget s = D.drain fuel budget t := by
  induction fuel generalizing budget s t with
  | zero => rfl
  | succ fuel ih =>
    have hnext := hsim s t hst
    simp only [Cursor.drain]
    generalize C.next s = rs at hnext ⊢
    generalize D.next t = rt at hnext ⊢
    cases hnext with
    | threw s' t' e => rfl
    | finished s' t' => rfl
    | moved hst' hrow =>
      cases budget with
      | zero => rfl
      | succ budget => simp only [ih hst', hrow]

/-- States from which a reset leads to related ones are passed over alike. -/
theorem Simulates.pass (hsim : Simulates C D R) (hs : C.reset s = (s', .ok ()))
    (ht : D.reset t = (t', .ok ())) (hst : R s' t') (fuel budget : Nat) :
    C.pass fuel budget s = D.pass fuel budget t := by
  simp only [Cursor.pass, hs, ht]
  exact hsim.drain hst fuel budget

/-! ### The cursor of a list -/

/-- The rows before, at and after the current one. -/
structure Position (ρ : Type v) where
  current : Option ρ := none
  rest : List ρ

/-- The cursor over a list of rows, which fails after the last one if there is an error. -/
def ofList (rows : List ρ) (failure : Option ε) : Cursor (Position ρ) ρ ε where
  reset _ := ({ rest := rows }, .ok ())
  next p :=
    match p.rest, failure with
    | r :: rest, _ => ({ current := some r, rest := rest }, .ok true)
    | [], none => ({ rest := [] }, .ok false)
    | [], some e => ({ rest := [] }, .error e)
  row p := p.current

/-- How a pass over a whole list stops. -/
def Stop.after : Option ε → Stop ε
  | none => .finished
  | some e => .threw e

variable {rows : List ρ} {failure : Option ε}

/-- The moves of a cursor that has passed `n` rows of the list. -/
lemma ofList_next_some {p : Position ρ} {n : Nat} {r : ρ} (hrest : rows.drop n = p.rest)
    (hr : rows[n]? = some r) :
    (ofList rows failure).next p =
      ({ current := some r, rest := rows.drop (n + 1) }, .ok true) := by
  obtain ⟨hn, rfl⟩ := List.getElem?_eq_some_iff.mp hr
  rw [List.drop_eq_getElem_cons hn] at hrest
  simp only [ofList, ← hrest]

lemma ofList_next_none {p : Position ρ} {n : Nat} (hrest : rows.drop n = p.rest)
    (hr : rows[n]? = none) :
    (ofList rows (none : Option ε)).next p = ({ rest := [] }, .ok false) := by
  rw [List.drop_eq_nil_of_le (List.getElem?_eq_none_iff.mp hr)] at hrest
  simp only [ofList, ← hrest]

lemma ofList_next_error {p : Position ρ} {n : Nat} {e : ε} (hrest : rows.drop n = p.rest)
    (hr : rows[n]? = none) : (ofList rows (some e)).next p = ({ rest := [] }, .error e) := by
  rw [List.drop_eq_nil_of_le (List.getElem?_eq_none_iff.mp hr)] at hrest
  simp only [ofList, ← hrest]

lemma drain_ofList {fuel : Nat} {budget : Nat} {p : Position ρ} (hfuel : p.rest.length < fuel)
    (hbudget : p.rest.length ≤ budget) :
    (ofList rows failure).drain fuel budget p = some (p.rest.map some, .after failure) := by
  obtain ⟨current, rest⟩ := p
  induction rest generalizing fuel budget current with
  | nil =>
    obtain ⟨fuel, rfl⟩ := Nat.exists_eq_add_one_of_ne_zero (Nat.ne_of_gt hfuel)
    cases failure <;> rfl
  | cons r rest ih =>
    obtain ⟨fuel, rfl⟩ := Nat.exists_eq_add_one_of_ne_zero (Nat.ne_of_gt (Nat.zero_lt_of_lt hfuel))
    obtain ⟨budget, rfl⟩ :=
      Nat.exists_eq_add_one_of_ne_zero (Nat.ne_of_gt (Nat.zero_lt_of_lt hbudget))
    have hrest := ih (some r) (Nat.lt_of_succ_lt_succ hfuel) (Nat.le_of_succ_le_succ hbudget)
    have hrow : (ofList rows failure).row { current := some r, rest := rest } = some r := rfl
    have hnext : (ofList rows failure).next { current := current, rest := r :: rest } =
        ({ current := some r, rest := rest }, .ok true) := rfl
    simp only [drain, hnext, hrest, hrow, Option.map_some, List.map_cons]

/-- A pass visits the rows of the list once each and in order. -/
theorem pass_ofList {fuel budget : Nat} (hfuel : rows.length < fuel)
    (hbudget : rows.length ≤ budget) (p : Position ρ) :
    (ofList rows failure).pass fuel budget p = some (rows.map some, .after failure) :=
  drain_ofList (p := { rest := rows }) hfuel hbudget

/-- A list that is too long is not passed over. -/
lemma drain_ofList_overrun {fuel : Nat} {budget : Nat} {p : Position ρ}
    (hfuel : budget < fuel) (hbudget : budget < p.rest.length) :
    ∃ visited, (ofList rows failure).drain fuel budget p = some (visited, .overrun) := by
  obtain ⟨current, rest⟩ := p
  induction rest generalizing fuel budget current with
  | nil => simp at hbudget
  | cons r rest ih =>
    obtain ⟨fuel, rfl⟩ := Nat.exists_eq_add_one_of_ne_zero (Nat.ne_of_gt (Nat.zero_lt_of_lt hfuel))
    have hnext : (ofList rows failure).next { current := current, rest := r :: rest } =
        ({ current := some r, rest := rest }, .ok true) := rfl
    have hrow : (ofList rows failure).row { current := some r, rest := rest } = some r := rfl
    cases budget with
    | zero => exact ⟨[], by simp only [drain, hnext]⟩
    | succ budget =>
      obtain ⟨visited, hrest⟩ :=
        ih (Nat.lt_of_succ_lt_succ hfuel) (some r) (Nat.lt_of_succ_lt_succ hbudget)
      exact ⟨some r :: visited, by simp only [drain, hnext, hrest, hrow, Option.map_some]⟩

lemma pass_ofList_overrun {fuel : Nat} {budget : Nat} (hfuel : budget < fuel)
    (hbudget : budget < rows.length) (p : Position ρ) :
    ∃ visited, (ofList rows failure).pass fuel budget p = some (visited, .overrun) :=
  drain_ofList_overrun (p := { rest := rows }) hfuel hbudget

end Cursor
