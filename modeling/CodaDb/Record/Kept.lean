import CodaDb.Record.System

/-!
# Records that were saved

A record that `save` reports saved is found by its id, with the values that the table keeps of its
own, and its row stays in the table until a record with the same key is removed.
-/

namespace CodaDb

namespace Record

variable {R : SqlRules} {pk : String} {t : SqlTable} {r : Record}

lemma has_iff {c : String} : r.has c = true ↔ c ≠ "" ∧ (r.values_.lookup c).isSome = true := by
  have hne : (r.values_.lookup c).isSome = true → r.values_.entries ≠ [] := by
    intro hsome hnil
    have hempty : r.values_ = ∅ := AList.ext hnil
    simp [hempty] at hsome
  simp only [has, Bool.and_eq_true, decide_eq_true_eq, Bool.not_eq_true', List.isEmpty_eq_false_iff]
  exact ⟨fun h => ⟨h.1.1, h.2⟩, fun h => ⟨⟨h.1, hne h.2⟩, h.2⟩⟩

lemma get_of_lookup {c : String} (hc : c ≠ "") {v : SqlValue} (h : r.values_.lookup c = some v) :
    r.get c = v := by
  rw [get, if_pos (has_iff.mpr ⟨hc, by simp [h]⟩), h]
  rfl

lemma lookup_set (name c : String) (v : SqlValue) :
    (r.set name v).values_.lookup c = if c = name then some v else r.values_.lookup c := by
  rw [set]
  split
  · next h => rw [h, AList.lookup_insert]
  · next h => rw [AList.lookup_insert_ne h]

/-- A record that is read has the columns of the row. -/
lemma get_read {c : String} (hc : c ∈ r.schema_.columnNames) (hne : c ≠ "")
    (row : String → SqlValue) : (r.read row).get c = row c := by
  refine get_of_lookup hne ?_
  have hfold : ∀ (columns : List String) (r : Record), (columns.foldl (fun r c => r.set c (row c))
      r).values_.lookup c = if c ∈ columns then some (row c) else r.values_.lookup c := by
    intro columns
    induction columns with
    | nil => intro r; rfl
    | cons d columns ih =>
      intro r
      rw [List.foldl_cons, ih, lookup_set]
      by_cases hd : c = d <;> simp [hd]
  rw [read, hfold, if_pos hc]

lemma lookup_entries {columns : List String} {c : String} :
    (r.entries columns).lookup c = if c ∈ columns ∧ r.has c then some (r.get c) else none := by
  induction columns with
  | nil => simp [entries]
  | cons d columns ih =>
    rw [entries] at ih ⊢
    by_cases hd : c = d
    · subst hd
      by_cases hhas : r.has c = true
      · simp [hhas]
      · rw [List.filter_cons_of_neg hhas, ih]
        simp [hhas]
    · rw [List.filter_cons]
      split
      · rw [List.map_cons, List.lookup_cons, beq_false_of_ne hd, ih]
        simp [hd]
      · rw [ih]
        simp [hd]

lemma lookup_entries_key {columns : List String}
    (hsame : R.same (r.get pk) (r.get pk) = true) :
    ∀ v, (r.entries columns).lookup pk = some v → R.same v (r.get pk) = true := by
  intro v hv
  rw [lookup_entries] at hv
  split at hv
  · exact Option.some.inj hv ▸ hsame
  · cases hv

/-- A row that is in the table has a key that is the same as itself. -/
lemma same_of_inTable (hR : R.Keys pk) (h : r.inTable R pk t = true) :
    r.has pk = true ∧ R.same (r.get pk) (r.get pk) = true := by
  rw [inTable, Bool.and_eq_true, Bool.not_eq_true', List.isEmpty_eq_false_iff] at h
  obtain ⟨row, hrow⟩ := List.exists_mem_of_ne_nil _ h.2
  have hsame := (TableRules.mem_select.mp hrow).2
  exact ⟨h.1, hR.trans _ _ _ (hR.symm _ _ hsame) hsame⟩

/-- The table keeps the columns of the record, but for its key, in the first row with its key. -/
def KeptIn (R : SqlRules) (pk : String) (r saved : Record) (t : SqlTable) : Prop :=
  saved.has pk = true ∧ ∃ row, (R.select t [(pk, saved.get pk)]).head? = some row ∧
    ∀ c ∈ r.schema_.columnNames, c ≠ pk → r.has c = true → row c = R.stored c (r.get c)

/-- A record that was saved is kept in the table. -/
lemma saveTo_kept (hR : R.Keys pk) (hpk : pk ≠ "") (hfresh : R.Fresh pk t)
    (hsaved : (r.saveTo R pk t).2.2 = true) :
    KeptIn R pk r (r.saveTo R pk t).1 (r.saveTo R pk t).2.1 := by
  have hwrite : ∀ (columns : List String) (row : String → SqlValue) (c : String), c ∈ columns →
      r.has c = true → R.write (r.entries columns) row c = R.stored c (r.get c) := by
    intro columns row c hc hhas
    exact TableRules.write_of_some (by rw [lookup_entries, if_pos ⟨hc, hhas⟩]) row
  rw [saveTo] at hsaved ⊢
  by_cases hin : r.inTable R pk t = true
  · rw [if_pos hin] at hsaved ⊢
    obtain ⟨hhas, hsame⟩ := same_of_inTable hR hin
    cases hupdate : R.update t (r.entries r.schema_.columnNames) [(pk, r.get pk)] with
    | none =>
      rw [hupdate] at hsaved
      cases hsaved
    | some answer =>
      have hselect := hR.select_update (lookup_entries_key hsame) hupdate
      rw [inTable, Bool.and_eq_true, Bool.not_eq_true', List.isEmpty_eq_false_iff] at hin
      obtain ⟨row, rows, hrows⟩ := List.exists_cons_of_ne_nil hin.2
      rw [hrows] at hselect
      refine ⟨hhas, R.write (r.entries r.schema_.columnNames) row, by rw [hselect]; rfl, ?_⟩
      exact fun c hc _ hhas => hwrite _ row c hc hhas
  · rw [if_neg hin] at hsaved ⊢
    cases hinsert : R.insert t pk (r.entries (r.schema_.columnNames.filter (· ≠ pk))) with
    | none =>
      rw [hinsert] at hsaved
      cases hsaved
    | some answer =>
      have hlookup : (r.entries (r.schema_.columnNames.filter (· ≠ pk))).lookup pk = none := by
        rw [lookup_entries, if_neg]
        simp
      have hget : (r.set pk (R.key answer.2)).get pk = R.key answer.2 :=
        get_of_lookup hpk (by rw [lookup_set, if_pos rfl])
      have hselect := hR.select_insert hlookup hfresh hinsert
      refine ⟨has_iff.mpr ⟨hpk, by simp [lookup_set]⟩, _, by rw [hget, hselect]; rfl, ?_⟩
      exact fun c hc hne hhas =>
        hwrite _ _ c (List.mem_filter.mpr ⟨hc, by simpa using hne⟩) hhas

/-- Saving keeps the keys that are still to be generated. -/
lemma saveTo_fresh (hR : R.Keys pk) (hfresh : R.Fresh pk t) :
    R.Fresh pk (r.saveTo R pk t).2.1 := by
  rw [saveTo]
  split
  · next hin =>
    obtain ⟨-, hsame⟩ := same_of_inTable hR hin
    cases hupdate : R.update t (r.entries r.schema_.columnNames) [(pk, r.get pk)] with
    | none => exact hfresh
    | some answer => exact hR.fresh_update (lookup_entries_key hsame) hfresh hupdate
  · cases hinsert : R.insert t pk (r.entries (r.schema_.columnNames.filter (· ≠ pk))) with
    | none => exact hfresh
    | some answer => exact hR.fresh_insert (by rw [lookup_entries, if_neg]; simp) hfresh hinsert

/-- Saving a record keeps the rows with any key. -/
lemma saveTo_stays (hR : R.Keys pk) {k : SqlValue} (hk : R.select t [(pk, k)] ≠ []) :
    R.select (r.saveTo R pk t).2.1 [(pk, k)] ≠ [] := by
  rw [saveTo]
  split
  · next hin =>
    obtain ⟨-, hsame⟩ := same_of_inTable hR hin
    cases hupdate : R.update t (r.entries r.schema_.columnNames) [(pk, r.get pk)] with
    | none => exact hk
    | some answer => exact hR.kept_update (lookup_entries_key hsame) hupdate hk
  · cases hinsert : R.insert t pk (r.entries (r.schema_.columnNames.filter (· ≠ pk))) with
    | none => exact hk
    | some answer => exact TableRules.kept_insert hinsert hk

end Record

/-! ### Runs -/

section Runs

variable {τ : Type*} {db : Backend τ} {table : τ → SqlTable} {R : SqlRules} {schema : Schema}
  {pk : String} {V : SqlValue → Prop}

lemma Records.putFound_state (s : Records τ) (i : Nat)
    (found : Option (Except DbException (Option Record))) :
    (s.putFound i found).1.state = s.state := by
  rcases found with _ | (e | (_ | r)) <;> rfl

/-- Others leave a table without keys that are still to be generated. -/
def RecordOp.LeavesFresh (table : τ → SqlTable) (R : SqlRules) (pk : String) : RecordOp τ → Prop
  | .others state => R.Fresh pk (table state)
  | _ => True

/-- The call neither removes a row with the key nor lets others do so. -/
def RecordOp.Spares (table : τ → SqlTable) (R : SqlRules) (pk : String) (k : SqlValue)
    (s : Records τ) : RecordOp τ → Prop
  | .remove i => (s.record i).has pk = true → R.same k ((s.record i).get pk) = false
  | .others state => R.select (table state) [(pk, k)] ≠ []
  | _ => True

lemma tableMachine_fresh (hR : R.Keys pk) {s : Records SqlTable} (hfresh : R.Fresh pk s.state)
    {op : RecordOp τ} (hop : op.LeavesFresh table R pk) :
    R.Fresh pk ((tableMachine table R schema pk).step s op).1.state := by
  cases op with
  | save i => exact Record.saveTo_fresh hR hfresh
  | remove i =>
    simp only [tableMachine, Record.removeFrom]
    split
    · cases hdelete : R.delete s.state [(pk, (s.record i).get pk)] with
      | none => exact hfresh
      | some answer => exact TableRules.fresh_delete hfresh hdelete
    · exact hfresh
  | findOne i values =>
    simp only [tableMachine, Records.putFound_state]
    exact hfresh
  | findById i value =>
    simp only [tableMachine, Records.putFound_state]
    exact hfresh
  | others state => exact hop
  | _ => exact hfresh

lemma tableMachine_stays (hR : R.Keys pk) {k : SqlValue} {s : Records SqlTable}
    (hk : R.select s.state [(pk, k)] ≠ []) (s' : Records τ) (hs' : s'.record = s.record)
    {op : RecordOp τ} (hop : op.Spares table R pk k s') :
    R.select ((tableMachine table R schema pk).step s op).1.state [(pk, k)] ≠ [] := by
  cases op with
  | save i => exact Record.saveTo_stays hR hk
  | remove i =>
    simp only [tableMachine, Record.removeFrom]
    split
    · next hhas =>
      cases hdelete : R.delete s.state [(pk, (s.record i).get pk)] with
      | none => exact hk
      | some answer =>
        have hspared := hop (by rw [hs']; exact hhas)
        rw [hs'] at hspared
        exact hR.kept_delete hspared hdelete hk
    · exact hk
  | findOne i values =>
    simp only [tableMachine, Records.putFound_state]
    exact hk
  | findById i value =>
    simp only [tableMachine, Records.putFound_state]
    exact hk
  | others state => exact hop
  | _ => exact hk

variable (hserves : db.Serves table R schema pk V) (hclosed : R.Closed V) (hR : R.Keys pk)
  (hpk : schema.primaryKey = .ok pk) (htable : schema.tableName_ ≠ "")
  (hreturnable : (Record.new schema).Returnable)

include hserves hclosed hpk htable hreturnable

lemma step_holds {s : Records τ} (hs : (s.onTable table).Hold schema V) (op : RecordOp τ)
    (hop : op.Holds table schema V) :
    (((recordMachine db schema).step s op).1.onTable table).Hold schema V := by
  have hstep := step_onTable hserves hpk htable hreturnable hs op hop
  rw [(Prod.mk.inj hstep).1]
  exact tableMachine_holds hclosed hs hop

include hR

lemma run_fresh {s : Records τ} (hs : (s.onTable table).Hold schema V)
    (hfresh : R.Fresh pk (table s.state)) {ops : List (RecordOp τ)}
    (hops : ∀ op ∈ ops, op.Holds table schema V ∧ op.LeavesFresh table R pk) :
    (((recordMachine db schema).run s ops).1.onTable table).Hold schema V ∧
      R.Fresh pk (table ((recordMachine db schema).run s ops).1.state) := by
  refine (recordMachine db schema).run_invariant_along
    (fun _ op => op.Holds table schema V ∧ op.LeavesFresh table R pk)
    (fun s => (s.onTable table).Hold schema V ∧ R.Fresh pk (table s.state)) ?_ ⟨hs, hfresh⟩
    (Machine.along_iff_forall.mpr hops)
  intro s op h hop
  refine ⟨step_holds hserves hclosed hpk htable hreturnable h.1 op hop.1, ?_⟩
  have hstep := step_onTable hserves hpk htable hreturnable h.1 op hop.1
  have hstate := congrArg Records.state (Prod.mk.inj hstep).1
  rw [show table ((recordMachine db schema).step s op).1.state = _ from hstate]
  exact tableMachine_fresh hR h.2 hop.2

/-- A table with one user. -/
def oneUser : Records SqlTable where
  record _ := .new Sqlite.usersSchema
  state := { rows := [fun _ => .number (.ofLlong 1)], next := 2 }

end Runs

end CodaDb
