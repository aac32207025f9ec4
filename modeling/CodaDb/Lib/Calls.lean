import Mathlib.Tactic.Lemma

/-!
# Functions that call each other

Functions whose last act is to call one another, as a transition function on the pending call: it
gives the next call or a result. Which calls return, and with what.
-/

universe u v

namespace Calls

variable {κ : Type u} {ρ : Type v} {next : κ → κ ⊕ ρ}

/-- The call returns this result after finitely many others. -/
inductive Returns (next : κ → κ ⊕ ρ) : κ → ρ → Prop where
  | result {c : κ} {r : ρ} : next c = .inr r → Returns next c r
  | call {c c' : κ} {r : ρ} : next c = .inl c' → Returns next c' r → Returns next c r

lemma returns_of_result {c : κ} {r : ρ} (h : next c = .inr r) {r' : ρ} :
    Returns next c r' ↔ r' = r := by
  constructor
  · intro hr
    cases hr with
    | result h' => exact Sum.inr.inj (h'.symm.trans h)
    | call h' _ => cases h'.symm.trans h
  · rintro rfl
    exact .result h

lemma returns_of_call {c c' : κ} (h : next c = .inl c') {r : ρ} :
    Returns next c r ↔ Returns next c' r := by
  constructor
  · intro hr
    cases hr with
    | result h' => cases h'.symm.trans h
    | call h' hr => rwa [← Sum.inl.inj (h'.symm.trans h)]
  · exact .call h

/-- Calls that only lead to calls of their kind never return. -/
theorem not_returns (I : κ → Prop) (hstep : ∀ c, I c → ∃ c', next c = .inl c' ∧ I c') {c : κ}
    (hc : I c) (r : ρ) : ¬Returns next c r := by
  intro hr
  induction hr with
  | result h =>
    obtain ⟨c', hnext, -⟩ := hstep _ hc
    cases hnext.symm.trans h
  | call h _ ih =>
    obtain ⟨c', hnext, hc'⟩ := hstep _ hc
    rw [Sum.inl.inj (hnext.symm.trans h)] at hc'
    exact ih hc'

end Calls
