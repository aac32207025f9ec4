import CodaDb.Resultset.Impl

/-!
# The implementations as cursors of a list

After a reset each implementation moves like the cursor over the rows of the driver. It does not
tell all that the driver reports: SQLite's and the stored results of MySQL end without an error.
-/

namespace CodaDb

variable {ρ : Type*}

namespace ResultsetImpl

/-- The error of the reset that begins a pass: SQLite reports the one of the last step again. -/
def resetError : ResultsetImpl ρ → Option String
  | .sqlite r => r.stmt_.error
  | .mysqlStmt r => r.stmt_.resetError
  | .mysql _ | .postgres _ => none

/-- The rows and the error that the moves after a reset tell. -/
def told : ResultsetImpl ρ → DriverOutcome ρ
  | .sqlite r => { rows := r.stmt_.outcome.rows }
  | .mysqlStmt r => r.stmt_.reported
  | .mysql r =>
    if r.isOpen then { rows := (r.res_.map Mysql.Res.outcome).elim [] DriverOutcome.rows }
    else { rows := [] }
  | .postgres r => { rows := r.rows }

/-- The cursor of a list with these rows, and the error after them. -/
def listCursor (o : DriverOutcome ρ) : Cursor (Cursor.Position ρ) ρ DbException :=
  .ofList o.rows (o.failure.map .database)

/-- The implementation is at a position in a list of what its moves tell. -/
def Follows (o : DriverOutcome ρ) : ResultsetImpl ρ → Cursor.Position ρ → Prop
  | .sqlite r, p =>
    o = { rows := r.stmt_.outcome.rows } ∧ r.status_ ≠ .done ∧
      o.rows.drop r.stmt_.stepped = p.rest
  | .mysqlStmt r, p =>
    o = r.stmt_.reported ∧ r.stmt_.resetError = none ∧
      (r.status_ = -1 ∧ o.rows = p.rest ∨
        r.status_ = 0 ∧ r.stmt_.executed = true ∧ o = r.stmt_.outcome ∧
          o.rows.drop r.stmt_.fetched = p.rest)
  | .mysql r, p =>
    o.failure = none ∧
      if r.isOpen then
        o.rows = (r.res_.map Mysql.Res.outcome).elim [] DriverOutcome.rows ∧
          o.rows.drop ((r.res_.map Mysql.Res.fetched).getD 0) = p.rest
      else p.rest = []
  | .postgres r, p =>
    o = { rows := r.rows } ∧ -1 ≤ r.currentRow_ ∧ o.rows.drop (r.currentRow_ + 1).toNat = p.rest

variable {o : DriverOutcome ρ} {p : Cursor.Position ρ}

lemma Follows.sqlite {r : Sqlite.Resultset ρ} (h : Follows o (.sqlite r) p) :
    Cursor.Moves cursor (listCursor o) (Follows o) (next (.sqlite r)) ((listCursor o).next p) := by
  obtain ⟨rfl, hdone, hrest⟩ := h
  simp only [next, Sqlite.Resultset.next, if_neg hdone]
  cases hrow : r.stmt_.outcome.rows[r.stmt_.stepped]? with
  | some row =>
    have hstep : r.stmt_.step = ({ r.stmt_ with
        stepped := r.stmt_.stepped + 1, current := some row, error := none }, .row) := by
      simp only [Sqlite.Stmt.step, hrow]
    rw [listCursor, Cursor.ofList_next_some hrest hrow, hstep]
    exact .moved ⟨rfl, nofun, rfl⟩ rfl
  | none =>
    have hstep : r.stmt_.step.2 ≠ .row := by
      simp only [Sqlite.Stmt.step, hrow]
      split <;> nofun
    rw [listCursor, Option.map_none, Cursor.ofList_next_none hrest hrow, decide_eq_false hstep]
    exact .finished _ _

/-- A fetch from an executed statement. -/
lemma moves_fetch {r : Mysql.StmtResultset ρ} (ho : o = r.stmt_.reported)
    (hreset : r.stmt_.resetError = none) (hstatus : r.status_ = 0)
    (hexecuted : r.stmt_.executed = true) (houtcome : o = r.stmt_.outcome)
    (hrest : o.rows.drop r.stmt_.fetched = p.rest) :
    Cursor.Moves cursor (listCursor o) (Follows o)
      (.mysqlStmt { r with stmt_ := r.stmt_.fetch.1 }, r.stmt_.fetch.2)
      ((listCursor o).next p) := by
  subst houtcome
  rw [Mysql.Stmt.fetch, if_pos hexecuted, listCursor]
  cases hrow : r.stmt_.outcome.rows[r.stmt_.fetched]? with
  | some row =>
    rw [Cursor.ofList_next_some hrest hrow]
    exact .moved ⟨ho, hreset, .inr ⟨hstatus, hexecuted, rfl, rfl⟩⟩ rfl
  | none =>
    cases hfailure : r.stmt_.outcome.failure with
    | none =>
      rw [Option.map_none, Cursor.ofList_next_none hrest hrow]
      exact .finished _ _
    | some e =>
      rw [Option.map_some, Cursor.ofList_next_error hrest hrow]
      exact .threw _ _ _

lemma Follows.mysqlStmt {r : Mysql.StmtResultset ρ} (h : Follows o (.mysqlStmt r) p) :
    Cursor.Moves cursor (listCursor o) (Follows o) (next (.mysqlStmt r))
      ((listCursor o).next p) := by
  obtain ⟨ho, hreset, ⟨hstatus, hrest⟩ | ⟨hstatus, hexecuted, houtcome, hrest⟩⟩ := h
  · -- the first move executes the statement
    have hempty : ∀ e, r.stmt_.reported = { rows := [], failure := some e } →
        (listCursor o).next p = ({ rest := [] }, .error (.database e)) := by
      rintro e he
      rw [ho, he] at hrest ⊢
      exact Cursor.ofList_next_error (n := 0) hrest rfl
    have hinvalid : ¬r.status_ ≠ -1 := not_not.mpr hstatus
    cases hexecute : r.stmt_.executeError with
    | some e =>
      have hprepare : r.prepareResults = ({ r with status_ := 1 }, .error (.database e)) := by
        rw [Mysql.StmtResultset.prepareResults, if_neg hinvalid, hexecute]
      rw [hempty e (by simp only [Mysql.Stmt.reported, hreset, hexecute])]
      simp only [next, Mysql.StmtResultset.next, hprepare]
      exact .threw _ _ _
    | none =>
      cases hmetadata : r.stmt_.hasMetadata with
      | false =>
        have hprepare : r.prepareResults =
            (r.executed, .error (.database "No result data found.")) := by
          rw [Mysql.StmtResultset.prepareResults, if_neg hinvalid, hexecute]
          simp [hmetadata]
        rw [hempty "No result data found."
          (by simp only [Mysql.Stmt.reported, hreset, hexecute, hmetadata])]
        simp only [next, Mysql.StmtResultset.next, hprepare]
        exact .threw _ _ _
      | true =>
        have hprepare : r.prepareResults = (r.executed, .ok ()) := by
          rw [Mysql.StmtResultset.prepareResults, if_neg hinvalid, hexecute]
          simp [hmetadata]
        have houtcome : o = r.stmt_.outcome := by
          simp only [ho, Mysql.Stmt.reported, hreset, hexecute, hmetadata]
        simp only [next, Mysql.StmtResultset.next, hprepare]
        exact moves_fetch (r := r.executed) ho hreset rfl rfl houtcome hrest
  · have hprepare : r.prepareResults = (r, .ok ()) := if_pos (by simp [hstatus])
    simp only [next, Mysql.StmtResultset.next, hprepare]
    exact moves_fetch ho hreset hstatus hexecuted houtcome hrest

lemma Follows.mysql {r : Mysql.Resultset ρ} (h : Follows o (.mysql r) p) :
    Cursor.Moves cursor (listCursor o) (Follows o) (next (.mysql r)) ((listCursor o).next p) := by
  obtain ⟨hfailure, hrest⟩ := h
  simp only [next, Mysql.Resultset.next]
  cases hopen : r.isOpen with
  | false =>
    have hnil : p.rest = [] := by simpa [hopen] using hrest
    rw [listCursor, hfailure, Option.map_none,
      Cursor.ofList_next_none (n := o.rows.length) (by simp [hnil]) (by simp)]
    cases r.res_ <;> exact .finished _ _
  | true =>
    simp only [hopen, if_true] at hrest
    cases hres : r.res_ with
    | none =>
      simp only [hres, Option.map_none, Option.elim_none] at hrest
      rw [listCursor, hfailure, Option.map_none,
        Cursor.ofList_next_none hrest.2 (by simp [hrest.1])]
      exact .finished _ _
    | some res =>
      simp only [hres, Option.map_some, Option.elim_some, Option.getD_some] at hrest
      obtain ⟨hrows, hrest⟩ := hrest
      dsimp only
      rw [listCursor, hfailure, Option.map_none, ← hrows]
      cases hrow : o.rows[res.fetched]? with
      | some row =>
        rw [Cursor.ofList_next_some hrest hrow]
        exact .moved ⟨hfailure, by simp [hrows]⟩ rfl
      | none =>
        rw [Cursor.ofList_next_none hrest hrow]
        exact .finished _ _

lemma Follows.postgres {r : Postgres.Resultset ρ} (h : Follows o (.postgres r) p) :
    Cursor.Moves cursor (listCursor o) (Follows o) (next (.postgres r))
      ((listCursor o).next p) := by
  obtain ⟨rfl, hlower, hrest⟩ := h
  simp only [next, Postgres.Resultset.next]
  cases hrow : r.rows[(r.currentRow_ + 1).toNat]? with
  | some row =>
    have hlt := (List.getElem?_eq_some_iff.mp hrow).1
    have hmore : decide (r.currentRow_ + 1 < r.rows.length) = true := by
      simp only [decide_eq_true_eq]
      omega
    rw [listCursor, Cursor.ofList_next_some hrest hrow, hmore]
    refine .moved ⟨rfl, ?_, ?_⟩ ?_
    · dsimp only
      omega
    · have hnat : (r.currentRow_ + 1 + 1).toNat = (r.currentRow_ + 1).toNat + 1 := by omega
      dsimp only
      rw [hnat]
    · have hpos : 0 ≤ r.currentRow_ + 1 := by omega
      exact (if_pos hpos).trans hrow
  | none =>
    have hge := List.getElem?_eq_none_iff.mp hrow
    have hmore : decide (r.currentRow_ + 1 < r.rows.length) = false := by
      simp only [decide_eq_false_iff_not]
      omega
    rw [listCursor, Option.map_none, Cursor.ofList_next_none hrest hrow, hmore]
    exact .finished _ _

/-- Each implementation simulates the cursor of a list. -/
theorem simulates (o : DriverOutcome ρ) :
    Cursor.Simulates cursor (listCursor o) (Follows o) := by
  intro s p h
  cases s with
  | sqlite r => exact h.sqlite
  | mysqlStmt r => exact h.mysqlStmt
  | mysql r => exact h.mysql
  | postgres r => exact h.postgres

lemma reset_error {s : ResultsetImpl ρ} {e : String} (h : s.resetError = some e) :
    ∃ s', s.reset = (s', .error (.database e)) := by
  cases s with
  | sqlite r =>
    have hreset : r.reset = ({ r with stmt_ := r.stmt_.reset.1 }, .error (.database e)) := by
      simp only [resetError] at h
      simp only [Sqlite.Resultset.reset, Sqlite.Stmt.reset, h]
    exact ⟨_, by rw [reset, hreset]; rfl⟩
  | mysqlStmt r =>
    have hreset : r.reset = ({ r with status_ := -1 }, .error (.database e)) := by
      simp only [resetError] at h
      simp only [Mysql.StmtResultset.reset, h]
    exact ⟨_, by rw [reset, hreset]; rfl⟩
  | mysql r => cases h
  | postgres r => cases h

/-- A reset goes back before the first row. -/
lemma reset_follows {s : ResultsetImpl ρ} (h : s.resetError = none) :
    ∃ s', s.reset = (s', .ok ()) ∧ Follows s.told s' { rest := s.told.rows } := by
  cases s with
  | sqlite r =>
    simp only [resetError] at h
    have hreset : r.reset = ({ stmt_ := r.stmt_.reset.1, status_ := .unset }, .ok ()) := by
      simp only [Sqlite.Resultset.reset, Sqlite.Stmt.reset, h]
    refine ⟨.sqlite { stmt_ := r.stmt_.reset.1, status_ := .unset }, ?_, rfl, nofun, rfl⟩
    rw [reset, hreset]
    rfl
  | mysqlStmt r =>
    simp only [resetError] at h
    have hreset : r.reset =
        ({ stmt_ := { r.stmt_ with executed := false }, status_ := -1 }, .ok ()) := by
      simp only [Mysql.StmtResultset.reset, h]
    refine ⟨.mysqlStmt { stmt_ := { r.stmt_ with executed := false }, status_ := -1 }, ?_,
      rfl, h, .inl ⟨rfl, rfl⟩⟩
    rw [reset, hreset]
    rfl
  | mysql r =>
    refine ⟨_, rfl, ?_, ?_⟩
    · simp only [told]
      split <;> rfl
    · cases hopen : r.isOpen <;> cases hres : r.res_ <;> simp [told, hopen, hres]
  | postgres r => exact ⟨_, rfl, rfl, Int.le_refl _, rfl⟩

/-- A pass whose reset does not fail is a pass over the list of what the moves tell. -/
theorem pass_eq {s : ResultsetImpl ρ} (h : s.resetError = none) (fuel budget : Nat)
    (p : Cursor.Position ρ) :
    cursor.pass fuel budget s = (listCursor s.told).pass fuel budget p := by
  obtain ⟨s', hreset, hfollows⟩ := reset_follows h
  exact (simulates s.told).pass hreset rfl hfollows fuel budget

lemma pass_eq_error {s : ResultsetImpl ρ} {e : String} (h : s.resetError = some e)
    (fuel budget : Nat) : cursor.pass fuel budget s = some ([], .threw (.database e)) := by
  obtain ⟨s', hreset⟩ := reset_error h
  have hcursor : cursor.reset s = (s', .error (.database e)) := hreset
  rw [Cursor.pass, hcursor]

end ResultsetImpl

end CodaDb
