import CodaDb.Resultset.Listed

/-!
# A range-for over a resultset

The loop goes from `begin` to `end` by iterators that count their position. It is a pass of the
cursor behind them, and for three of the four cursors, and in part for the fourth, a pass over the
list of rows that the driver returns.
-/

namespace CodaDb

universe u v w

variable {σ : Type u} {ρ : Type v} {ε : Type w}

/-- A `resultset_iterator`, without the implementation that all iterators of a resultset share. -/
structure ResultsetIterator (ρ : Type v) where
  pos_ : Int
  value_ : Option ρ

namespace ResultsetIterator

def «end» : ResultsetIterator ρ := { pos_ := -1, value_ := none }

/-- `operator++`; `none` if `pos_` overflows. -/
def increment (it : ResultsetIterator ρ) (C : Cursor σ ρ ε) (s : σ) :
    Option (σ × Except ε (ResultsetIterator ρ)) :=
  if it.pos_ = -1 then some (s, .ok it)
  else
    match C.next s with
    | (s', .error e) => some (s', .error e)
    | (s', .ok true) =>
      if it.pos_ = 2 ^ 31 - 1 then none
      else some (s', .ok { pos_ := it.pos_ + 1, value_ := C.row s' })
    | (s', .ok false) => some (s', .ok .end)

end ResultsetIterator

namespace Resultset

/-- `resultset::begin` -/
def begin (C : Cursor σ ρ ε) (s : σ) : σ × Except ε (ResultsetIterator ρ) :=
  match C.reset s with
  | (s', .error e) => (s', .error e)
  | (s', .ok ()) =>
    match C.next s' with
    | (s'', .error e) => (s'', .error e)
    | (s'', .ok true) => (s'', .ok { pos_ := 0, value_ := C.row s'' })
    | (s'', .ok false) => (s'', .ok .end)

/-- The loop of a range-for, from an iterator on: the values it visits and how it stops; `none` if
the fuel does not suffice. -/
def loop (C : Cursor σ ρ ε) :
    Nat → σ → ResultsetIterator ρ → Option (List (Option ρ) × Cursor.Stop ε)
  | 0, _, _ => none
  | fuel + 1, s, it =>
    if it.pos_ = -1 then some ([], .finished)
    else
      match it.increment C s with
      | none => some ([it.value_], .overrun)
      | some (_, .error e) => some ([it.value_], .threw e)
      | some (s', .ok it') => (loop C fuel s' it').map fun r => (it.value_ :: r.1, r.2)

/-- `for (auto &row : rs)` -/
def rangeFor (C : Cursor σ ρ ε) (fuel : Nat) (s : σ) :
    Option (List (Option ρ) × Cursor.Stop ε) :=
  match begin C s with
  | (_, .error e) => some ([], .threw e)
  | (s', .ok it) => loop C fuel s' it

/-! ### The loop as a pass -/

variable {C : Cursor σ ρ ε}

/-- At position `n` the loop visits the value of the iterator, and then what is left for a cursor
that can count the positions above. -/
lemma loop_of_drain {fuel budget n : Nat} (hbudget : n + budget = 2 ^ 31 - 1) {s : σ}
    {value : Option ρ} {r : List (Option ρ) × Cursor.Stop ε} (h : C.drain fuel budget s = some r) :
    loop C (fuel + 1) s { pos_ := n, value_ := value } = some (value :: r.1, r.2) := by
  induction fuel generalizing budget n s value r with
  | zero => cases h
  | succ fuel ih =>
    have hpos : (n : Int) ≠ -1 := by omega
    rw [Cursor.drain] at h
    rw [loop]
    simp only [hpos, if_false, ResultsetIterator.increment]
    generalize C.next s = moved at h ⊢
    obtain ⟨s', out⟩ := moved
    cases out with
    | error e =>
      obtain rfl := Option.some.inj h
      rfl
    | ok more =>
      cases more with
      | false =>
        obtain rfl := Option.some.inj h
        rfl
      | true =>
        cases budget with
        | zero =>
          obtain rfl := Option.some.inj h
          have hmax : (n : Int) = 2 ^ 31 - 1 := by omega
          simp [hmax]
        | succ budget =>
          have hmax : (n : Int) ≠ 2 ^ 31 - 1 := by omega
          obtain ⟨r', hr', rfl⟩ := Option.map_eq_some_iff.mp h
          have hloop := @ih budget (n + 1) (by omega) s' (C.row s') r' hr'
          simp only [hmax, if_false]
          have hcast : ((n + 1 : Nat) : Int) = n + 1 := by omega
          rw [hcast] at hloop
          rw [hloop]
          rfl

/-- A range-for is a pass of the cursor that can count `2 ^ 31` rows. -/
lemma rangeFor_of_pass {fuel : Nat} {s : σ} {r : List (Option ρ) × Cursor.Stop ε}
    (h : C.pass fuel (2 ^ 31) s = some r) : rangeFor C fuel s = some r := by
  rw [Cursor.pass] at h
  rw [rangeFor, begin]
  generalize C.reset s = reset at h ⊢
  obtain ⟨s', out⟩ := reset
  cases out with
  | error e => exact h
  | ok =>
    cases fuel with
    | zero => cases h
    | succ fuel =>
      simp only [Cursor.drain] at h
      dsimp only
      generalize C.next s' = moved at h ⊢
      obtain ⟨s'', out⟩ := moved
      cases out with
      | error e => exact h
      | ok more =>
        cases more with
        | false => exact h
        | true =>
          obtain ⟨r', hr', rfl⟩ := Option.map_eq_some_iff.mp h
          exact loop_of_drain (n := 0) rfl hr'

/-- The loop stops normally at the end of the rows, and throws after an error. -/
def Tells : Cursor.Stop ε → Option String → Prop
  | .finished, none | .threw _, some _ => True
  | .finished, some _ | .threw _, none | .overrun, _ => False

lemma tells_after {told reported : Option String} (f : String → ε) :
    Tells (.after (told.map f)) reported ↔ (told = none ↔ reported = none) := by
  cases told <;> cases reported <;> simp [Cursor.Stop.after, Tells]

end Resultset

namespace ResultsetImpl

/-- A range-for visits the rows of the driver once each and in order, and then stops normally or
throws as the driver reported the end or an error. -/
def Iterates (s : ResultsetImpl ρ) : Prop :=
  ∀ fuel, s.outcome.rows.length < fuel → ∃ stop : Cursor.Stop DbException,
    Resultset.rangeFor cursor fuel s = some (s.outcome.rows.map some, stop) ∧
      Resultset.Tells stop s.outcome.failure

/-- The positions of an iterator suffice, and SQLite's and the stored results of MySQL report no
error; or SQLite reports the error of the last pass where it should report one. -/
def Sound (s : ResultsetImpl ρ) : Prop :=
  s.outcome.rows.length ≤ 2 ^ 31 ∧
    match s with
    | .sqlite r =>
      if r.stmt_.error = none then s.outcome.failure = none
      else s.outcome.rows = [] ∧ s.outcome.failure ≠ none
    | .mysql r => s.outcome.failure = none ∧ (r.isOpen = true ∨ s.outcome.rows = [])
    | .mysqlStmt _ | .postgres _ => True

/-- A range-for whose reset does not fail. -/
lemma iterates_iff_told {s : ResultsetImpl ρ} (h : s.resetError = none) :
    s.Iterates ↔ s.outcome.rows.length ≤ 2 ^ 31 ∧ s.told.rows = s.outcome.rows ∧
      (s.told.failure = none ↔ s.outcome.failure = none) := by
  constructor
  · intro hiterates
    obtain ⟨stop, hrun, htells⟩ :=
      hiterates (s.outcome.rows.length + s.told.rows.length + 2 ^ 31 + 1) (by omega)
    by_cases hlength : s.told.rows.length ≤ 2 ^ 31
    · have hpass := (pass_eq h (s.outcome.rows.length + s.told.rows.length + 2 ^ 31 + 1) (2 ^ 31)
        { rest := [] }).trans (Cursor.pass_ofList (by omega) hlength _)
      have hsame := Option.some.inj (hrun.symm.trans (Resultset.rangeFor_of_pass hpass))
      obtain ⟨hrows, rfl⟩ := Prod.mk.inj hsame
      have hrows' := List.map_injective_iff.mpr (fun _ _ => Option.some.inj) hrows
      exact ⟨hrows' ▸ hlength, hrows'.symm, (Resultset.tells_after _).mp htells⟩
    · obtain ⟨visited, hlist⟩ : ∃ visited,
          (Cursor.ofList s.told.rows (s.told.failure.map DbException.database)).pass
            (s.outcome.rows.length + s.told.rows.length + 2 ^ 31 + 1) (2 ^ 31) { rest := [] } =
              some (visited, .overrun) :=
        Cursor.pass_ofList_overrun (by omega) (Nat.lt_of_not_le hlength) _
      have hpass := (pass_eq h (s.outcome.rows.length + s.told.rows.length + 2 ^ 31 + 1) (2 ^ 31)
        { rest := [] }).trans hlist
      have hsame := Option.some.inj (hrun.symm.trans (Resultset.rangeFor_of_pass hpass))
      obtain ⟨-, rfl⟩ := Prod.mk.inj hsame
      exact htells.elim
  · rintro ⟨hlength, hrows, hfailure⟩ fuel hfuel
    have hpass := (pass_eq h fuel (2 ^ 31) { rest := [] }).trans
      (Cursor.pass_ofList (by rwa [hrows]) (by rwa [hrows]) _)
    rw [hrows] at hpass
    exact ⟨_, Resultset.rangeFor_of_pass hpass, (Resultset.tells_after _).mpr hfailure⟩

/-- A range-for whose reset fails. -/
lemma iterates_iff_error {s : ResultsetImpl ρ} {e : String} (h : s.resetError = some e) :
    s.Iterates ↔ s.outcome.rows = [] ∧ s.outcome.failure ≠ none := by
  have hrun : ∀ fuel, Resultset.rangeFor cursor fuel s = some ([], .threw (.database e)) :=
    fun fuel => Resultset.rangeFor_of_pass (pass_eq_error h fuel (2 ^ 31))
  have htells : Resultset.Tells (.threw (DbException.database e)) s.outcome.failure ↔
      s.outcome.failure ≠ none := by
    cases s.outcome.failure <;> simp [Resultset.Tells]
  constructor
  · intro hiterates
    obtain ⟨stop, hstop, hfailure⟩ := hiterates (s.outcome.rows.length + 1) (Nat.lt_succ_self _)
    obtain ⟨hrows, rfl⟩ := Prod.mk.inj (Option.some.inj ((hrun _).symm.trans hstop))
    exact ⟨List.map_eq_nil_iff.mp hrows.symm, htells.mp hfailure⟩
  · rintro ⟨hrows, hfailure⟩ fuel -
    exact ⟨_, by rw [hrun, hrows]; rfl, htells.mpr hfailure⟩

/-- Range-fors over the four implementations agree with the driver exactly if they are sound. -/
theorem iterates_iff (s : ResultsetImpl ρ) : s.Iterates ↔ s.Sound := by
  cases s with
  | sqlite r =>
    cases herror : r.stmt_.error with
    | none =>
      rw [iterates_iff_told (s := .sqlite r) herror]
      simp [Sound, told, outcome, herror]
    | some e =>
      rw [iterates_iff_error (s := .sqlite r) herror]
      simp +contextual [Sound, herror]
  | mysqlStmt r =>
    cases herror : r.stmt_.resetError with
    | none =>
      rw [iterates_iff_told (s := .mysqlStmt r) herror]
      simp [Sound, told, outcome]
    | some e =>
      rw [iterates_iff_error (s := .mysqlStmt r) herror]
      simp [Sound, outcome, Mysql.Stmt.reported, herror]
  | mysql r =>
    rw [iterates_iff_told (s := .mysql r) rfl]
    cases hopen : r.isOpen <;> cases hres : r.res_ <;>
      simp [Sound, told, outcome, hopen, hres, and_comm]
  | postgres r =>
    rw [iterates_iff_told (s := .postgres r) rfl]
    simp [Sound, told, outcome]

/-- On SQLite an error after a row is taken for the end. -/
theorem not_iterates_sqlite :
    ¬Iterates (.sqlite { stmt_ := { outcome := ⟨["bob"], some "disk I/O error"⟩ } }) := by
  rw [iterates_iff_told rfl]
  simp [told, outcome]

end ResultsetImpl

end CodaDb
