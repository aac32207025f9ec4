import Mathlib.Data.List.Forall2
import Mathlib.Tactic.Lemma

/-!
# Machines with outputs

A machine reads inputs one at a time; each step moves to a next state and emits a list of outputs.
The rules below turn facts about one step into facts about whole runs: an invariant of the states,
a property of everything emitted, and the simulation of one machine by another.
-/

universe u v w x y

/-- A deterministic machine over states `σ`, inputs `ι` and outputs `ω`. -/
structure Machine (σ : Type u) (ι : Type v) (ω : Type w) where
  step : σ → ι → σ × List ω

namespace Machine

variable {σ : Type u} {τ : Type x} {ι : Type v} {ω : Type w} {υ : Type y}

/-- Feed a list of inputs to the machine, collecting the outputs in order. -/
def run (M : Machine σ ι ω) : σ → List ι → σ × List ω
  | s, []      => (s, [])
  | s, i :: is =>
    let r := M.run (M.step s i).1 is
    (r.1, (M.step s i).2 ++ r.2)

@[simp] lemma run_nil (M : Machine σ ι ω) (s : σ) : M.run s [] = (s, []) := rfl

lemma run_cons (M : Machine σ ι ω) (s : σ) (i : ι) (is : List ι) :
    M.run s (i :: is) =
      ((M.run (M.step s i).1 is).1, (M.step s i).2 ++ (M.run (M.step s i).1 is).2) := rfl

lemma run_append (M : Machine σ ι ω) (s : σ) (is js : List ι) :
    M.run s (is ++ js) =
      ((M.run (M.run s is).1 js).1, (M.run s is).2 ++ (M.run (M.run s is).1 js).2) := by
  induction is generalizing s with
  | nil => rfl
  | cons i is ih => rw [List.cons_append, run_cons, run_cons, ih, List.append_assoc]

/-- Every step of a run meets a condition on the state before it and on its input. -/
def Along (M : Machine σ ι ω) (C : σ → ι → Prop) : σ → List ι → Prop
  | _, []      => True
  | s, i :: is => C s i ∧ M.Along C (M.step s i).1 is

lemma along_congr {M : Machine σ ι ω} {C D : σ → ι → Prop} (h : ∀ s i, C s i ↔ D s i) {s : σ}
    {is : List ι} : M.Along C s is ↔ M.Along D s is := by
  induction is generalizing s with
  | nil => exact Iff.rfl
  | cons i is ih => exact and_congr (h s i) ih

/-- An invariant kept by the steps that meet a condition holds at the end of the runs whose steps
all meet it. -/
theorem run_invariant_along (M : Machine σ ι ω) (C : σ → ι → Prop) (I : σ → Prop)
    (hstep : ∀ s i, I s → C s i → I (M.step s i).1) {s : σ} (hs : I s) {is : List ι}
    (his : M.Along C s is) : I (M.run s is).1 := by
  induction is generalizing s with
  | nil => exact hs
  | cons i is ih => exact ih (hstep s i hs his.1) his.2

/-- If the steps that meet a condition keep an invariant and emit only outputs in `P`, so do the
runs whose steps all meet it. -/
theorem run_outputs_along (M : Machine σ ι ω) (C : σ → ι → Prop) (I : σ → Prop) (P : ω → Prop)
    (hstep : ∀ s i, I s → C s i → I (M.step s i).1)
    (hout : ∀ s i, I s → C s i → ∀ o ∈ (M.step s i).2, P o)
    {s : σ} (hs : I s) {is : List ι} (his : M.Along C s is) : ∀ o ∈ (M.run s is).2, P o := by
  induction is generalizing s with
  | nil => simp
  | cons i is ih =>
    obtain ⟨hi, his⟩ := his
    intro o ho
    rw [run_cons, List.mem_append] at ho
    rcases ho with ho | ho
    · exact hout s i hs hi o ho
    · exact ih (hstep s i hs hi) his o ho

lemma along_of_forall {M : Machine σ ι ω} {C : σ → ι → Prop} (h : ∀ s i, C s i) {s : σ}
    {is : List ι} : M.Along C s is := by
  induction is generalizing s with
  | nil => trivial
  | cons i is ih => exact ⟨h s i, ih⟩

/-- An invariant kept by every step holds at the end of every run. -/
theorem run_invariant (M : Machine σ ι ω) (I : σ → Prop)
    (hstep : ∀ s i, I s → I (M.step s i).1) {s : σ} (hs : I s) (is : List ι) :
    I (M.run s is).1 :=
  M.run_invariant_along (fun _ _ => True) I (fun s i hs _ => hstep s i hs) hs
    (along_of_forall fun _ _ => trivial)

/-- If under an invariant every step emits only outputs in `P`, so does every run. -/
theorem run_outputs (M : Machine σ ι ω) (I : σ → Prop) (P : ω → Prop)
    (hstep : ∀ s i, I s → I (M.step s i).1) (hout : ∀ s i, I s → ∀ o ∈ (M.step s i).2, P o)
    {s : σ} (hs : I s) (is : List ι) : ∀ o ∈ (M.run s is).2, P o :=
  M.run_outputs_along (fun _ _ => True) I P (fun s i hs _ => hstep s i hs)
    (fun s i hs _ => hout s i hs) hs (along_of_forall fun _ _ => trivial)

/-- A condition on the inputs alone. -/
lemma along_iff_forall {M : Machine σ ι ω} {C : ι → Prop} {s : σ} {is : List ι} :
    M.Along (fun _ i => C i) s is ↔ ∀ i ∈ is, C i := by
  induction is generalizing s with
  | nil => simp [Along]
  | cons i is ih => rw [Along, ih, List.forall_mem_cons]

/-- In the runs whose steps are possible: if under an invariant the steps that meet a condition keep
it, and are those that keep a weaker property and emit only outputs in `P`, the runs whose steps all
meet the condition are those that keep the weaker property and emit only outputs in `P`. -/
theorem along_iff_of_possible (M : Machine σ ι ω) (A C : σ → ι → Prop) (I J : σ → Prop)
    (P : ω → Prop) (hJ : ∀ s, I s → J s)
    (hkeep : ∀ s i, I s → A s i → C s i → I (M.step s i).1)
    (hstep : ∀ s i, I s → A s i → (C s i ↔ J (M.step s i).1 ∧ ∀ o ∈ (M.step s i).2, P o))
    {s : σ} (hs : I s) {is : List ι} (his : M.Along A s is) :
    M.Along C s is ↔ (∀ n, J (M.run s (is.take n)).1) ∧ ∀ o ∈ (M.run s is).2, P o := by
  induction is generalizing s with
  | nil =>
    exact ⟨fun _ => ⟨fun n => by rw [List.take_nil]; exact hJ s hs, nofun⟩, fun _ => trivial⟩
  | cons i is ih =>
    obtain ⟨hpossible, his⟩ := his
    constructor
    · rintro ⟨hi, hrest⟩
      obtain ⟨-, hout⟩ := (hstep s i hs hpossible).mp hi
      obtain ⟨hstates, houts⟩ := (ih (hkeep s i hs hpossible hi) his).mp hrest
      refine ⟨fun n => ?_, fun o ho => ?_⟩
      · cases n with
        | zero => exact hJ s hs
        | succ n => exact hstates n
      · exact (List.mem_append.mp ho).elim (hout o) (houts o)
    · rintro ⟨hstates, houts⟩
      have hi : C s i := (hstep s i hs hpossible).mpr
        ⟨hstates 1, fun o ho => houts o (List.mem_append_left _ ho)⟩
      refine ⟨hi, (ih (hkeep s i hs hpossible hi) his).mpr ⟨fun n => hstates (n + 1), ?_⟩⟩
      exact fun o ho => houts o (List.mem_append_right _ ho)

/-- If under an invariant the steps that meet a condition are those that keep the invariant and emit
only outputs in `P`, the runs whose steps all meet it are those that stay in the invariant and emit
only outputs in `P`. -/
theorem along_iff (M : Machine σ ι ω) (C : σ → ι → Prop) (I : σ → Prop) (P : ω → Prop)
    (hstep : ∀ s i, I s → (C s i ↔ I (M.step s i).1 ∧ ∀ o ∈ (M.step s i).2, P o))
    {s : σ} (hs : I s) (is : List ι) :
    M.Along C s is ↔ (∀ n, I (M.run s (is.take n)).1) ∧ ∀ o ∈ (M.run s is).2, P o :=
  M.along_iff_of_possible (fun _ _ => True) C I I P (fun _ => id)
    (fun s i hs _ hi => ((hstep s i hs).mp hi).1) (fun s i hs _ => hstep s i hs) hs
    (along_of_forall fun _ _ => trivial)

/-- If under an invariant every step emits one output, which depends on the input alone, a run emits
the outputs of its inputs in their order. -/
theorem run_map (M : Machine σ ι ω) (I : σ → Prop) (f : ι → ω)
    (hstep : ∀ s i, I s → I (M.step s i).1) (hout : ∀ s i, I s → (M.step s i).2 = [f i])
    {s : σ} (hs : I s) (is : List ι) : (M.run s is).2 = is.map f := by
  induction is generalizing s with
  | nil => rfl
  | cons i is ih =>
    rw [run_cons, hout s i hs, ih (hstep s i hs), List.map_cons, List.singleton_append]

/-- Forward simulation in the runs whose inputs all meet a condition. -/
theorem run_simulation_of (M : Machine σ ι ω) (N : Machine τ ι υ) (C : ι → Prop) (R : σ → τ → Prop)
    (Q : ω → υ → Prop)
    (hstep : ∀ s t i, R s t → C i →
      R (M.step s i).1 (N.step t i).1 ∧ List.Forall₂ Q (M.step s i).2 (N.step t i).2)
    {s : σ} {t : τ} (hst : R s t) {is : List ι} (his : ∀ i ∈ is, C i) :
    R (M.run s is).1 (N.run t is).1 ∧ List.Forall₂ Q (M.run s is).2 (N.run t is).2 := by
  induction is generalizing s t with
  | nil => exact ⟨hst, .nil⟩
  | cons i is ih =>
    obtain ⟨hi, his⟩ := List.forall_mem_cons.mp his
    obtain ⟨hnext, hout⟩ := hstep s t i hst hi
    obtain ⟨hend, hrest⟩ := ih hnext his
    rw [run_cons, run_cons]
    exact ⟨hend, List.rel_append hout hrest⟩

/-- Forward simulation: related states step to related states and emit related outputs, so related
runs end related and emit related outputs, one for one. -/
theorem run_simulation (M : Machine σ ι ω) (N : Machine τ ι υ) (R : σ → τ → Prop) (Q : ω → υ → Prop)
    (hstep : ∀ s t i, R s t →
      R (M.step s i).1 (N.step t i).1 ∧ List.Forall₂ Q (M.step s i).2 (N.step t i).2)
    {s : σ} {t : τ} (hst : R s t) (is : List ι) :
    R (M.run s is).1 (N.run t is).1 ∧ List.Forall₂ Q (M.run s is).2 (N.run t is).2 :=
  M.run_simulation_of N (fun _ => True) R Q (fun s t i hst _ => hstep s t i hst) hst
    fun _ _ => trivial

end Machine
