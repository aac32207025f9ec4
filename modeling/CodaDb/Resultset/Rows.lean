import CodaDb.Resultset.Impl

/-!
# The rows that `current_row` returns

A `row` does not copy the values of its columns. SQLite's reads the statement and that of a MySQL
statement the buffers it fetches into; a stored result has a pointer to the row and takes the
lengths of the current one; only PostgreSQL's knows its number. What such a row shows after the
resultset has moved on.
-/

namespace CodaDb

/-- A row as the texts of its columns, `none` for a null. -/
abbrev RowTexts := List (Option String)

/-- A `row_impl`. -/
inductive RowImpl where
  | sqlite
  /-- the number of a `mysql::binding` object -/
  | mysqlStmt (fields : Nat)
  /-- a `MYSQL_ROW` -/
  | mysql (row : Option RowTexts)
  | postgres (row : Int)
deriving DecidableEq, Repr

/-- A `resultset_impl`, with the `mysql::binding` objects it made, and the row that was last fetched
into each. -/
structure Results where
  impl_ : ResultsetImpl RowTexts
  bindings_ : List (Option RowTexts) := []

/-- The columns of a stored row, cut at the lengths of the row where the result is. -/
def RowTexts.cut (row : RowTexts) (current : Option RowTexts) : RowTexts :=
  row.mapIdx fun i text => text.map fun t =>
    String.ofList (t.toList.take (((current.getD []).getD i none).getD "").length)

namespace Results

/-- Whether the next move of a MySQL statement executes it, and makes a `mysql::binding`. -/
def binds (r : Mysql.StmtResultset RowTexts) : Bool :=
  r.status_ = -1 && r.stmt_.executeError.isNone && r.stmt_.hasMetadata

/-- The `mysql::binding` objects after a move, which fetches into the last one. -/
def fetchInto (bindings : List (Option RowTexts)) (r : Mysql.StmtResultset RowTexts)
    (row : Option RowTexts) : List (Option RowTexts) :=
  let bindings := if binds r then bindings ++ [none] else bindings
  match row with
  | some row => bindings.set (bindings.length - 1) (some row)
  | none => bindings

def next (s : Results) : Results × Except DbException Bool :=
  match s.impl_, s.impl_.next with
  | .mysqlStmt r, (impl, .ok true) =>
    ({ impl_ := impl, bindings_ := fetchInto s.bindings_ r impl.row }, .ok true)
  | .mysqlStmt r, (impl, out) =>
    ({ impl_ := impl, bindings_ := fetchInto s.bindings_ r none }, out)
  | _, (impl, out) => ({ s with impl_ := impl }, out)

def reset (s : Results) : Results × Except DbException Unit :=
  let (impl, out) := s.impl_.reset
  ({ s with impl_ := impl }, out)

def currentRow (s : Results) : RowImpl :=
  match s.impl_ with
  | .sqlite _ => .sqlite
  | .mysqlStmt _ => .mysqlStmt (s.bindings_.length - 1)
  | .mysql r => .mysql r.row_
  | .postgres r => .postgres r.currentRow_

/-- What the columns of a row show; `none` where there is no row to read. -/
def read (s : Results) : RowImpl → Option RowTexts
  | .sqlite => s.impl_.row
  | .mysqlStmt fields => (s.bindings_[fields]?).join
  | .mysql row => row.map fun r => r.cut s.impl_.row
  | .postgres row =>
    match s.impl_ with
    | .postgres r => if 0 ≤ row then r.rows[row.toNat]? else none
    | _ => none

/-- The virtual functions, as those of one cursor. -/
def cursor : Cursor Results RowImpl DbException where
  reset := reset
  next := next
  row s := some s.currentRow

/-! ### Where a resultset is -/

/-- How many rows the driver has passed. -/
def place (s : Results) : Nat :=
  match s.impl_ with
  | .sqlite r => r.stmt_.stepped
  | .mysqlStmt r => if r.status_ = -1 then 0 else r.stmt_.fetched
  | .mysql r => (r.res_.map Mysql.Res.fetched).getD 0
  | .postgres r => (r.currentRow_ + 1).toNat

/-- Whether a row shows something else than what the driver is at. -/
def detached (s : Results) : Bool :=
  match s.impl_ with
  | .sqlite _ | .mysql _ => false
  | .mysqlStmt _ | .postgres _ => true

/-- Whether the next move fetches another row into the `mysql::binding` of this one. -/
def overwrites (s : Results) (row : RowImpl) : Bool :=
  match s.impl_, row with
  | .mysqlStmt r, .mysqlStmt fields =>
    r.status_ ≠ -1 && fields + 1 = s.bindings_.length &&
      r.stmt_.fetched < r.stmt_.outcome.rows.length
  | _, _ => false

/-- The row before the place, after `n` rows have been passed. -/
def rowAt (rows : List RowTexts) : Nat → Option RowTexts
  | 0 => none
  | n + 1 => rows[n]?

/-- A resultset that reports these rows and then their end. -/
def Reports (rows : List RowTexts) (s : Results) : Prop :=
  match s.impl_ with
  | .sqlite r => r.stmt_.outcome = { rows := rows } ∧ r.stmt_.error = none
  | .mysqlStmt r =>
    r.stmt_.outcome = { rows := rows } ∧ r.stmt_.resetError = none ∧ r.stmt_.executeError = none ∧
      r.stmt_.hasMetadata = true
  | .mysql r => r.isOpen = true ∧ ∃ n, r.res_ = some { outcome := { rows := rows }, fetched := n }
  | .postgres r => r.rows = rows

/-- So many rows have been passed since the last reset. -/
def Passed (rows : List RowTexts) (s : Results) (n : Nat) : Prop :=
  match s.impl_ with
  | .sqlite r => r.status_ ≠ .done ∧ r.stmt_.stepped = n ∧ r.stmt_.current = rowAt rows n
  | .mysqlStmt r =>
    r.status_ = -1 ∧ n = 0 ∨
      r.status_ = 0 ∧ r.stmt_.executed = true ∧ r.stmt_.fetched = n ∧ s.bindings_ ≠ []
  | .mysql r =>
    r.res_ = some { outcome := { rows := rows }, fetched := n } ∧ (0 < n → r.row_ = rowAt rows n)
  | .postgres r => r.currentRow_ + 1 = n

/-- A row that was made for the row `k`, as long as a reader of the driver is at its place. -/
def Fits (rows : List RowTexts) (s : Results) (row : RowImpl) (k : Nat) : Prop :=
  match s.impl_, row with
  | .sqlite _, .sqlite => True
  | .mysqlStmt _, .mysqlStmt fields => s.bindings_[fields]? = some rows[k]?
  | .mysql _, .mysql row => row = rows[k]?
  | .postgres _, .postgres row => row = k
  | _, _ => False

variable {rows : List RowTexts} {s s' : Results} {row : RowImpl} {n k : Nat}

lemma Passed.place (h : Passed rows s n) : s.place = n := by
  obtain ⟨impl, bindings⟩ := s
  cases impl with
  | sqlite r => exact h.2.1
  | mysqlStmt r =>
    obtain ⟨hstatus, rfl⟩ | ⟨hstatus, -, hfetched, -⟩ := h
    · exact if_pos hstatus
    · exact (if_neg (by rw [hstatus]; decide)).trans hfetched
  | mysql r => exact (congrArg (fun res => (res.map Mysql.Res.fetched).getD 0) h.1).trans rfl
  | postgres r => exact (congrArg Int.toNat h).trans (Int.toNat_natCast n)

/-- The lengths of a row cut nothing off it. -/
lemma cut_self (row : RowTexts) : row.cut (some row) = row := by
  refine List.ext_getElem? fun i => ?_
  rw [RowTexts.cut, List.getElem?_mapIdx]
  cases hi : row[i]? with
  | none => rfl
  | some text => cases text <;> simp [hi, List.getD_eq_getElem?_getD, String.length]

/-- What a row shows that was made for the row `k`. -/
lemma Fits.read (hfits : Fits rows s row k) (hs : Reports rows s)
    (hplace : s.detached = false → Passed rows s (k + 1)) : s.read row = rows[k]? := by
  obtain ⟨impl, bindings⟩ := s
  cases impl with
  | sqlite r =>
    cases row <;> try exact hfits.elim
    exact (hplace rfl).2.2
  | mysqlStmt r =>
    cases row <;> try exact hfits.elim
    exact congrArg Option.join hfits
  | mysql r =>
    cases row <;> try exact hfits.elim
    obtain rfl : _ = rows[k]? := hfits
    have hrow : r.row_ = rows[k]? := (hplace rfl).2 (Nat.succ_pos k)
    simp only [Results.read, ResultsetImpl.row, Mysql.Resultset.row, hrow]
    cases rows[k]? with
    | none => rfl
    | some row => exact congrArg some (cut_self row)
  | postgres r =>
    cases row <;> try exact hfits.elim
    obtain rfl : _ = (k : Int) := hfits
    obtain rfl : r.rows = rows := hs
    simp [Results.read]

/-! ### The moves -/

/-- A move keeps what these rows show, and the next one does not overwrite them either. -/
structure Keeps (rows : List RowTexts) (C : RowImpl → Prop) (s s' : Results) : Prop where
  reports : Reports rows s'
  detached : s'.detached = s.detached
  fits : ∀ row k, Fits rows s row k → C row → Fits rows s' row k ∧ s'.overwrites row = false

/-- The rows that the next move does not overwrite. -/
def Untouched (s : Results) (row : RowImpl) : Prop :=
  s.overwrites row = false

variable {C : RowImpl → Prop}

lemma Keeps.refl (h : Reports rows s) : Keeps rows s.Untouched s s :=
  ⟨h, rfl, fun _ _ hfits hrow => ⟨hfits, hrow⟩⟩

lemma Keeps.trans {s'' : Results} (h : Keeps rows C s s') (h' : Keeps rows s'.Untouched s' s'') :
    Keeps rows C s s'' where
  reports := h'.reports
  detached := h'.detached.trans h.detached
  fits row k hfits hrow :=
    have hkept := h.fits row k hfits hrow
    h'.fits row k hkept.1 hkept.2

lemma reset_spec (hs : Reports rows s) :
    ∃ s', s.reset = (s', .ok ()) ∧ Passed rows s' 0 ∧ Keeps rows (fun _ => True) s s' := by
  obtain ⟨impl, bindings⟩ := s
  cases impl with
  | sqlite r =>
    obtain ⟨houtcome, herror⟩ := hs
    have hreset : r.reset = ({ stmt_ := r.stmt_.reset.1, status_ := .unset }, .ok ()) := by
      simp only [Sqlite.Resultset.reset, Sqlite.Stmt.reset, herror]
    refine ⟨⟨.sqlite { stmt_ := r.stmt_.reset.1, status_ := .unset }, bindings⟩, ?_,
      ⟨nofun, rfl, rfl⟩, ⟨houtcome, rfl⟩, rfl, ?_⟩
    · simp only [Results.reset, ResultsetImpl.reset, hreset, Prod.map, id_eq]
    · rintro (_ | _ | _ | _) k hfits - <;> exact ⟨hfits, rfl⟩
  | mysqlStmt r =>
    obtain ⟨houtcome, hreset', hexecute, hmetadata⟩ := hs
    have hreset : r.reset =
        ({ stmt_ := { r.stmt_ with executed := false }, status_ := -1 }, .ok ()) := by
      simp only [Mysql.StmtResultset.reset, hreset']
    refine ⟨⟨.mysqlStmt ⟨{ r.stmt_ with executed := false }, -1⟩, bindings⟩, ?_,
      .inl ⟨rfl, rfl⟩, ⟨houtcome, hreset', hexecute, hmetadata⟩, rfl, ?_⟩
    · simp only [Results.reset, ResultsetImpl.reset, hreset, Prod.map, id_eq]
    · rintro (_ | _ | _ | _) k hfits - <;> exact ⟨hfits, rfl⟩
  | mysql r =>
    obtain ⟨hopen, n, hres⟩ := hs
    refine ⟨_, rfl, ⟨?_, nofun⟩, ⟨hopen, 0, ?_⟩, rfl, ?_⟩
    · simp only [hres, Option.map_some]
    · simp only [hres, Option.map_some]
    · rintro (_ | _ | _ | _) k hfits - <;> exact ⟨hfits, rfl⟩
  | postgres r =>
    refine ⟨_, rfl, rfl, hs, rfl, ?_⟩
    rintro (_ | _ | _ | _) k hfits - <;> exact ⟨hfits, rfl⟩

/-- Before a fetch a MySQL statement is executed, if it is not yet. -/
lemma prepareResults_spec {r : Mysql.StmtResultset RowTexts} {bs : List (Option RowTexts)}
    (hs : Reports rows ⟨.mysqlStmt r, bs⟩) (hn : Passed rows ⟨.mysqlStmt r, bs⟩ n) :
    ∃ (r' : Mysql.StmtResultset RowTexts) (bs' : List (Option RowTexts)),
      r.prepareResults = (r', .ok ()) ∧ r'.status_ = 0 ∧ r'.stmt_.executed = true ∧
        r'.stmt_.fetched = n ∧ bs' ≠ [] ∧ Reports rows ⟨.mysqlStmt r', bs'⟩ ∧
        fetchInto bs r none = bs' ∧
        (∀ row, fetchInto bs r (some row) = bs'.set (bs'.length - 1) (some row)) ∧
        ∀ f row, bs[f]? = some row → overwrites ⟨.mysqlStmt r, bs⟩ (.mysqlStmt f) = false →
          bs'[f]? = some row ∧ (n < rows.length → f + 1 ≠ bs'.length) := by
  obtain ⟨houtcome, hreset, hexecute, hmetadata⟩ := hs
  obtain ⟨hstatus, rfl⟩ | ⟨hstatus, hexecuted, hfetched, hbs⟩ := hn
  · have hbinds : binds r = true := by simp [binds, hstatus, hexecute, hmetadata]
    refine ⟨r.executed, bs ++ [none], ?_, rfl, rfl, rfl, by simp,
      ⟨houtcome, hreset, hexecute, hmetadata⟩, if_pos hbinds, fun row => ?_, ?_⟩
    · simp [Mysql.StmtResultset.prepareResults, hstatus, hexecute, hmetadata]
    · simp only [fetchInto, hbinds, if_true]
    · rintro f row hf -
      obtain ⟨hlt, -⟩ := List.getElem?_eq_some_iff.mp hf
      refine ⟨by rw [List.getElem?_append_left hlt, hf], fun _ => ?_⟩
      rw [List.length_append, List.length_singleton]
      omega
  · have hbinds : binds r = false := by simp [binds, hstatus]
    refine ⟨r, bs, if_pos (by rw [hstatus]; decide), hstatus, hexecuted, hfetched, hbs,
      ⟨houtcome, hreset, hexecute, hmetadata⟩, by simp [fetchInto, hbinds], fun row => ?_, ?_⟩
    · simp only [fetchInto, hbinds, Bool.false_eq_true, if_false]
    · rintro f row hf hrow
      refine ⟨hf, fun hn heq => ?_⟩
      simp [overwrites, hstatus, heq, hfetched, houtcome, Nat.not_le_of_lt hn] at hrow

lemma next_some (hs : Reports rows s) (hn : Passed rows s n) (h : n < rows.length) :
    ∃ s', s.next = (s', .ok true) ∧ Passed rows s' (n + 1) ∧ Fits rows s' s'.currentRow n ∧
      Keeps rows s.Untouched s s' := by
  have hrow : rows[n]? = some rows[n] := List.getElem?_eq_getElem h
  obtain ⟨impl, bs⟩ := s
  cases impl with
  | sqlite r =>
    obtain ⟨houtcome, herror⟩ := hs
    obtain ⟨hdone, rfl, -⟩ := hn
    have hstep : r.stmt_.step = ({ r.stmt_ with
        stepped := r.stmt_.stepped + 1, current := some rows[r.stmt_.stepped], error := none },
        .row) := by
      simp only [Sqlite.Stmt.step, houtcome, hrow]
    refine ⟨⟨.sqlite { stmt_ := r.stmt_.step.1, status_ := r.stmt_.step.2 }, bs⟩, ?_, ?_,
      trivial, ?_, rfl, ?_⟩
    · simp only [Results.next, ResultsetImpl.next, Sqlite.Resultset.next, if_neg hdone, hstep,
        Prod.map, decide_true, id_eq]
    · rw [hstep]
      exact ⟨nofun, rfl, hrow.symm⟩
    · rw [hstep]
      exact ⟨houtcome, rfl⟩
    · rintro (_ | _ | _ | _) k hfits - <;> exact ⟨hfits, rfl⟩
  | mysqlStmt r =>
    obtain ⟨r', bs', hprepare, hstatus, hexecuted, rfl, hbs, hreports, -, hinto, hkept⟩ :=
      prepareResults_spec hs hn
    have hfetch : r'.stmt_.fetch = ({ r'.stmt_ with
        fetched := r'.stmt_.fetched + 1, current := some rows[r'.stmt_.fetched] }, .ok true) := by
      simp only [Mysql.Stmt.fetch, hexecuted, if_true, hreports.1, hrow]
    refine ⟨⟨.mysqlStmt { r' with stmt_ := r'.stmt_.fetch.1 },
      bs'.set (bs'.length - 1) (some rows[r'.stmt_.fetched])⟩, ?_, .inr ⟨hstatus, ?_, ?_, ?_⟩,
      ?_, ?_, rfl, ?_⟩
    · simp only [Results.next, ResultsetImpl.next, Mysql.StmtResultset.next, hprepare, hfetch,
        Prod.map, id_eq, ResultsetImpl.row, Mysql.StmtResultset.row, hinto]
    · rw [hfetch]
      exact hexecuted
    · rw [hfetch]
    · simpa using hbs
    · have hpos := List.length_pos_of_ne_nil hbs
      simp only [Fits, currentRow, List.length_set]
      rw [List.getElem?_set_self (by omega), hrow]
    · rw [hfetch]
      exact hreports
    · rintro (_ | f | _ | _) k hfits hrow' <;> try exact hfits.elim
      obtain ⟨hf, hlast⟩ := hkept f _ hfits hrow'
      have hne := hlast h
      have hset : bs'.length - 1 ≠ f := by
        have hpos := List.length_pos_of_ne_nil hbs
        omega
      refine ⟨(List.getElem?_set_ne hset).trans hf, ?_⟩
      simp [overwrites, hne]
  | mysql r =>
    obtain ⟨hopen, -⟩ := hs
    obtain ⟨hres, -⟩ := hn
    refine ⟨⟨.mysql { r with res_ := some ⟨{ rows := rows }, n + 1⟩, row_ := rows[n]? }, bs⟩, ?_,
      ⟨rfl, fun _ => rfl⟩, rfl, ⟨hopen, n + 1, rfl⟩, rfl, ?_⟩
    · simp only [Results.next, ResultsetImpl.next, Mysql.Resultset.next, hres, hopen, hrow,
        Prod.map, id_eq, Option.isSome_some]
    · rintro (_ | _ | _ | _) k hfits - <;> exact ⟨hfits, rfl⟩
  | postgres r =>
    obtain rfl : r.rows = rows := hs
    have hpassed : r.currentRow_ + 1 = n := hn
    refine ⟨⟨.postgres { r with currentRow_ := r.currentRow_ + 1 }, bs⟩, ?_, ?_, hpassed, rfl, rfl,
      ?_⟩
    · have hmore : r.currentRow_ + 1 < r.rows.length := by omega
      simp only [Results.next, ResultsetImpl.next, Postgres.Resultset.next, hmore, Prod.map,
        decide_true, id_eq]
    · exact congrArg (· + 1) hpassed
    · rintro (_ | _ | _ | _) k hfits - <;> exact ⟨hfits, rfl⟩

lemma next_none (hs : Reports rows s) (hn : Passed rows s n) (h : rows.length ≤ n) :
    ∃ s', s.next = (s', .ok false) ∧ Keeps rows s.Untouched s s' ∧
      (s.detached = true → ∃ n', rows.length ≤ n' ∧ Passed rows s' n') := by
  have hrow : rows[n]? = none := List.getElem?_eq_none h
  obtain ⟨impl, bs⟩ := s
  cases impl with
  | sqlite r =>
    obtain ⟨houtcome, herror⟩ := hs
    obtain ⟨hdone, rfl, -⟩ := hn
    have hstep : r.stmt_.step = ({ r.stmt_ with stepped := 0, current := none, error := none },
        .done) := by
      simp [Sqlite.Stmt.step, houtcome, hrow]
    refine ⟨⟨.sqlite { stmt_ := r.stmt_.step.1, status_ := r.stmt_.step.2 }, bs⟩, ?_,
      ⟨?_, rfl, ?_⟩, nofun⟩
    · simp [Results.next, ResultsetImpl.next, Sqlite.Resultset.next, if_neg hdone, hstep]
    · rw [hstep]
      exact ⟨houtcome, rfl⟩
    · rintro (_ | _ | _ | _) k hfits - <;> exact ⟨hfits, rfl⟩
  | mysqlStmt r =>
    obtain ⟨r', bs', hprepare, hstatus, hexecuted, rfl, hbs, hreports, hinto, -, hkept⟩ :=
      prepareResults_spec hs hn
    have hfetch : r'.stmt_.fetch = (r'.stmt_, .ok false) := by
      simp [Mysql.Stmt.fetch, hexecuted, hreports.1, hrow]
    refine ⟨⟨.mysqlStmt r', bs'⟩, ?_, ⟨hreports, rfl, ?_⟩,
      fun _ => ⟨_, h, .inr ⟨hstatus, hexecuted, rfl, hbs⟩⟩⟩
    · simp only [Results.next, ResultsetImpl.next, Mysql.StmtResultset.next, hprepare, hfetch,
        Prod.map, id_eq, hinto]
    · rintro (_ | f | _ | _) k hfits hrow' <;> try exact hfits.elim
      refine ⟨(hkept f _ hfits hrow').1, ?_⟩
      simp [overwrites, hreports.1, h]
  | mysql r =>
    obtain ⟨hopen, -⟩ := hs
    obtain ⟨hres, -⟩ := hn
    refine ⟨⟨.mysql { r with res_ := some ⟨{ rows := rows }, n + 1⟩, row_ := rows[n]? }, bs⟩, ?_,
      ⟨⟨hopen, n + 1, rfl⟩, rfl, ?_⟩, nofun⟩
    · simp only [Results.next, ResultsetImpl.next, Mysql.Resultset.next, hres, hopen, hrow,
        Prod.map, id_eq, Option.isSome_none]
    · rintro (_ | _ | _ | _) k hfits - <;> exact ⟨hfits, rfl⟩
  | postgres r =>
    obtain rfl : r.rows = rows := hs
    have hpassed : r.currentRow_ + 1 = n := hn
    refine ⟨⟨.postgres { r with currentRow_ := r.currentRow_ + 1 }, bs⟩, ?_, ⟨rfl, rfl, ?_⟩,
      fun _ => ⟨n + 1, by omega, congrArg (· + 1) hpassed⟩⟩
    · have hmore : ¬r.currentRow_ + 1 < r.rows.length := by omega
      simp only [Results.next, ResultsetImpl.next, Postgres.Resultset.next, hmore, Prod.map,
        decide_false, id_eq]
    · rintro (_ | _ | _ | _) k hfits - <;> exact ⟨hfits, rfl⟩

end Results

end CodaDb
