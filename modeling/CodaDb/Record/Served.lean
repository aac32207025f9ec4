import Mathlib.Data.List.Permutation
import Mathlib.Data.List.Sublists
import CodaDb.Record.OnTable

/-!
# A database of commands

A database that knows the commands of the functions of a record on a table serves it: it finds the
command of a statement by its text, takes the values that are bound and does the command.
-/

namespace CodaDb

open SqlText

namespace RowCommand

/-- The columns of equations with other values. -/
def refillWith (es : List (String × SqlValue)) (vs : List SqlValue) : List (String × SqlValue) :=
  (es.map Prod.fst).zip vs

/-- The command with other values. -/
def refill : RowCommand → List SqlValue → RowCommand
  | .select columns eqs limit, vs => .select columns (refillWith eqs vs) limit
  | .update values eqs, vs =>
    .update (refillWith values (vs.take values.length)) (refillWith eqs (vs.drop values.length))
  | .insert values returning, vs => .insert (refillWith values vs) returning
  | .delete eqs, vs => .delete (refillWith eqs vs)

/-- Columns without values. -/
def blanks (columns : List String) : List (String × SqlValue) := columns.map (·, .null)

/-- The command without its values. -/
def blank : RowCommand → RowCommand
  | .select columns eqs limit => .select columns (blanks (eqs.map Prod.fst)) limit
  | .update values eqs => .update (blanks (values.map Prod.fst)) (blanks (eqs.map Prod.fst))
  | .insert values returning => .insert (blanks (values.map Prod.fst)) returning
  | .delete eqs => .delete (blanks (eqs.map Prod.fst))

lemma refillWith_blanks (es : List (String × SqlValue)) :
    refillWith (blanks (es.map Prod.fst)) (es.map Prod.snd) = es := by
  simp [refillWith, blanks, Function.comp_def, List.zip_map']

lemma length_blanks (es : List (String × SqlValue)) :
    (blanks (es.map Prod.fst)).length = es.length := by
  simp [blanks]

@[simp] lemma length_operands_blank (c : RowCommand) :
    c.blank.operands.length = c.operands.length := by
  cases c <;> simp [blank, operands, blanks]

lemma refill_blank (c : RowCommand) : c.blank.refill c.operands = c := by
  cases c with
  | select columns eqs limit => simp only [blank, refill, operands, refillWith_blanks]
  | update values eqs =>
    have htake : (values.map Prod.snd ++ eqs.map Prod.snd).take values.length =
        values.map Prod.snd := by
      rw [List.take_left' (List.length_map ..)]
    have hdrop : (values.map Prod.snd ++ eqs.map Prod.snd).drop values.length =
        eqs.map Prod.snd := by
      rw [List.drop_left' (List.length_map ..)]
    simp only [blank, refill, operands, length_blanks, htake, hdrop, refillWith_blanks]
  | insert values returning => simp only [blank, refill, operands, refillWith_blanks]
  | delete eqs => simp only [blank, refill, operands, refillWith_blanks]

lemma assigned_blanks (impl : SessionImpl) (op : String) (n : Nat)
    (es : List (String × SqlValue)) :
    assigned impl op n (blanks (es.map Prod.fst)) = assigned impl op n es := by
  simp [assigned, blanks, List.zipWith_map_left]

lemma whereText_blanks (impl : SessionImpl) (n : Nat) (es : List (String × SqlValue)) :
    whereText impl n (blanks (es.map Prod.fst)) = whereText impl n es := by
  rw [whereText, whereText, assigned_blanks]
  cases es <;> rfl

/-- The text does not depend on the values. -/
lemma text_blank (impl : SessionImpl) (table : String) (c : RowCommand) :
    c.blank.text impl table = c.text impl table := by
  cases c with
  | select columns eqs limit =>
    simp only [blank, text]
    unfold selectText
    rw [whereText_blanks]
  | update values eqs =>
    simp only [blank, text]
    unfold updateText
    rw [assigned_blanks, length_blanks, whereText_blanks]
  | insert values returning =>
    simp only [blank, text]
    unfold insertText
    rw [length_blanks]
    simp [blanks, Function.comp_def]
  | delete eqs =>
    simp only [blank, text]
    unfold deleteText
    rw [whereText_blanks]

/-- The command, of these, that a statement says. -/
def find (commands : List RowCommand) (impl : SessionImpl) (table : String) (stmt : Statement) :
    Option RowCommand :=
  stmt.sql.bind fun sql =>
    (commands.find? fun c => c.text impl table = sql.render).map fun c =>
      c.refill ((List.range c.operands.length).map fun i => (stmt.bound (i + 1)).getD .null)

/-- Commands with different texts are told apart. -/
lemma find_of_says {commands : List RowCommand} {impl : SessionImpl} {table : String}
    (hnodup : (commands.map (text impl table)).Nodup) {stmt : Statement} {c : RowCommand}
    (hc : c.blank ∈ commands) (h : stmt.Says impl table c) :
    find commands impl table stmt = some c := by
  obtain ⟨sql, hsql, htext, -, hbound⟩ := h
  have hfind : commands.find? (fun c => c.text impl table = sql.render) = some c.blank :=
    List.find?_of_nodup_map hnodup hc ((text_blank impl table c).trans htext.symm)
  have hvalues : (List.range c.operands.length).map
      (fun i => (stmt.bound (i + 1)).getD .null) = c.operands := by
    refine List.ext_getElem (by simp) fun i hi hi' => ?_
    simp [hbound i hi', List.getElem?_eq_getElem hi']
  rw [find, hsql, Option.bind_some, hfind, Option.map_some, length_operands_blank, hvalues,
    refill_blank]

/-- The commands of the functions of a record of a schema. -/
def ofSchema (schema : Schema) (pk returning : String) : List RowCommand :=
  let parts := schema.columnNames.sublists'
  let equated := parts.flatMap List.permutations'
  [count (blanks [pk]), .delete (blanks [pk])] ++
    parts.map (fun columns => .update (blanks columns) (blanks [pk])) ++
    parts.map (fun columns => .insert (blanks columns) returning) ++
    equated.map (fun columns => .select schema.columnNames (blanks columns) "") ++
    equated.map (fun columns => .select schema.columnNames (blanks columns) "1")

section Schema

variable {schema : Schema} {pk returning : String}

lemma mem_equated {columns : List String} (hnodup : columns.Nodup)
    (hcolumns : ∀ c ∈ columns, c ∈ schema.columnNames) :
    columns ∈ schema.columnNames.sublists'.flatMap List.permutations' := by
  obtain ⟨part, hperm, hpart⟩ := List.subperm_of_subset hnodup hcolumns
  exact List.mem_flatMap.mpr
    ⟨part, List.mem_sublists'.mpr hpart, List.mem_permutations'.mpr hperm.symm⟩

lemma select_mem {eqs : List (String × SqlValue)} (hnodup : (eqs.map Prod.fst).Nodup)
    (hcolumns : ∀ e ∈ eqs, e.1 ∈ schema.columnNames) {limit : String}
    (hlimit : limit = "" ∨ limit = "1") :
    (RowCommand.select schema.columnNames eqs limit).blank ∈ ofSchema schema pk returning := by
  have hmem : eqs.map Prod.fst ∈ schema.columnNames.sublists'.flatMap List.permutations' :=
    mem_equated hnodup (by simpa using hcolumns)
  rw [ofSchema, List.mem_append, List.mem_append]
  rcases hlimit with rfl | rfl
  · exact .inl (.inr (List.mem_map.mpr ⟨_, hmem, rfl⟩))
  · exact .inr (List.mem_map.mpr ⟨_, hmem, rfl⟩)

lemma update_mem {values : List (String × SqlValue)} {k : SqlValue}
    (hvalues : (values.map Prod.fst).Sublist schema.columnNames) :
    (RowCommand.update values [(pk, k)]).blank ∈ ofSchema schema pk returning := by
  simp only [ofSchema, List.mem_append]
  exact .inl (.inl (.inl (.inr (List.mem_map.mpr ⟨_, List.mem_sublists'.mpr hvalues, rfl⟩))))

lemma insert_mem {values : List (String × SqlValue)}
    (hvalues : (values.map Prod.fst).Sublist schema.columnNames) :
    (RowCommand.insert values returning).blank ∈ ofSchema schema pk returning := by
  simp only [ofSchema, List.mem_append]
  exact .inl (.inl (.inr (List.mem_map.mpr ⟨_, List.mem_sublists'.mpr hvalues, rfl⟩)))

end Schema

end RowCommand

/-- A table under the statements of the functions of a record; other statements fail. -/
def Backend.ofCommands (R : SqlRules) (schema : Schema) (pk returning : String) :
    Backend SqlTable :=
  let find := RowCommand.find (RowCommand.ofSchema schema pk returning) schema.session_.impl_
    schema.tableName_
  { count := fun t stmt =>
      match find stmt with
      | some (.select _ eqs _) => .ok (R.select t eqs).length
      | _ => .error (.database "no such command")
    query := fun t stmt =>
      match find stmt with
      | some (.select columns eqs limit) =>
        let rows := if limit = "" then R.select t eqs else (R.select t eqs).take 1
        .ok (.sqlite { stmt_ := { outcome := { rows := rows.map (.of columns) } } })
      | _ => .error (.database "no such command")
    modify := fun t stmt =>
      match find stmt with
      | some (.update values eqs) =>
        ((R.update t values eqs).elim t Prod.fst, (R.update t values eqs).map fun r => (r.2, 0))
      | some (.insert values _) =>
        ((R.insert t pk values).elim t Prod.fst, (R.insert t pk values).map fun r => (1, r.2))
      | some (.delete eqs) =>
        ((R.delete t eqs).elim t Prod.fst, (R.delete t eqs).map fun r => (r.2, 0))
      | _ => (t, none) }

/-- A result of the SQLite driver that steps through rows. -/
lemma ResultsetImpl.Of.sqlite {rows : List ResultRow} (h : rows.length ≤ 2 ^ 31) :
    (ResultsetImpl.sqlite { stmt_ := { outcome := { rows := rows } } }).Of rows :=
  ⟨rfl, ⟨h, rfl⟩, rfl⟩

/-- If the texts of the commands differ, the database serves its table. -/
lemma Backend.serves_ofCommands {R : SqlRules} {schema : Schema} {pk returning : String}
    (hkey : ∀ n, R.key n = .number (.ofLlong n))
    (hreturning : ∀ text, InsertQuery.returning schema.session_ schema.tableName_ = some text →
      text.render = returning)
    (hnodup : ((RowCommand.ofSchema schema pk returning).map
      (RowCommand.text schema.session_.impl_ schema.tableName_)).Nodup) :
    (ofCommands R schema pk returning).Serves id R schema pk Helper.Unnamed := by
  have hfind : ∀ (stmt : Statement) (c : RowCommand),
      c.blank ∈ RowCommand.ofSchema schema pk returning →
      stmt.Says schema.session_.impl_ schema.tableName_ c →
      RowCommand.find (RowCommand.ofSchema schema pk returning) schema.session_.impl_
        schema.tableName_ stmt = some c := fun _ _ => RowCommand.find_of_says hnodup
  have hcount : ∀ k, (RowCommand.count [(pk, k)]).blank ∈ RowCommand.ofSchema schema pk returning :=
    fun k => List.mem_cons_self
  have hdelete : ∀ k, (RowCommand.delete [(pk, k)]).blank ∈
      RowCommand.ofSchema schema pk returning := fun k => List.mem_cons_of_mem _ List.mem_cons_self
  refine ⟨fun v hv => hv, fun text params _ => Driver.ok_accepts .., fun stmt => rfl, hkey,
    ?_, ?_, ?_, ?_, ?_, ?_⟩
  · intro t stmt k hsays
    simp only [ofCommands, hfind stmt _ (hcount k) hsays, RowCommand.count, id_eq]
  · intro t stmt eqs hsmall hnodup hcolumns hsays
    have hle : (R.select t eqs).length ≤ 2 ^ 31 := (List.length_filter_le ..).trans hsmall.le
    refine ⟨_, ?_, .sqlite (by rwa [List.length_map])⟩
    simp only [ofCommands, hfind stmt _ (RowCommand.select_mem hnodup hcolumns (.inl rfl)) hsays]
    rfl
  · intro t stmt eqs hnodup hcolumns hsays
    have hle : ((R.select t eqs).take 1).length ≤ 2 ^ 31 := (List.length_take_le ..).trans (by simp)
    refine ⟨_, ?_, .sqlite (by rwa [List.length_map])⟩
    simp only [ofCommands, hfind stmt _ (RowCommand.select_mem hnodup hcolumns (.inr rfl)) hsays]
    rfl
  · intro t stmt values k hvalues _ hsays
    simp only [Changes, id_eq, ofCommands, hfind stmt _ (RowCommand.update_mem hvalues) hsays]
    cases R.update t values [(pk, k)] <;> simp
  · intro t stmt values text hvalues htext hsays
    rw [hreturning text htext] at hsays
    simp only [Inserted, id_eq, ofCommands, hfind stmt _ (RowCommand.insert_mem hvalues) hsays]
    cases R.insert t pk values <;> simp
  · intro t stmt k hsays
    simp only [Changes, id_eq, ofCommands, hfind stmt _ (hdelete k) hsays]
    cases R.delete t [(pk, k)] <;> simp

/-! ### A table of users -/

namespace Sqlite

/-- What a value is compared by: integers by value and texts by their characters. -/
def compared : SqlValue → Option (Int ⊕ String)
  | .number (.integral _ v) => some (.inl v.val)
  | .string s => some (.inr s)
  | _ => none

/-- A table without constraints, but for its length, whose columns keep values as they are. -/
def plainRules : SqlRules where
  same v w := (compared v).isSome && compared v = compared w
  stored _ v := v
  initial _ := .null
  key n := .number (.ofLlong n)
  lastKey := 2 ^ 63 - 1
  allowed rows := rows.length < 2 ^ 31
  counted _ _ := true
  insertsNothing := false

lemma plainRules_same {v w : SqlValue} :
    plainRules.same v w = true ↔ (compared v).isSome = true ∧ compared v = compared w := by
  simp [plainRules]

lemma compared_key {n : Nat} (hn : n ≤ plainRules.lastKey) :
    compared (plainRules.key n) = some (.inl (n : Int)) := by
  have hbmod : (n : Int).bmod (2 ^ 64) = n := by
    refine Int.bmod_eq_of_le_mul_two ?_ ?_ <;> simp only [plainRules] at hn <;> omega
  simp only [plainRules, compared, SqlNumber.ofLlong, hbmod]

lemma plainRules_keys (pk : String) : plainRules.Keys pk where
  symm v w h := by
    obtain ⟨hv, heq⟩ := plainRules_same.mp h
    exact plainRules_same.mpr ⟨heq ▸ hv, heq.symm⟩
  trans u v w huv hvw := by
    obtain ⟨hu, heq⟩ := plainRules_same.mp huv
    exact plainRules_same.mpr ⟨hu, heq.trans (plainRules_same.mp hvw).2⟩
  stored v h := h
  key n hn := plainRules_same.mpr ⟨by rw [compared_key hn]; rfl, rfl⟩
  distinct m hm n hn h := by
    have heq := (plainRules_same.mp h).2
    rw [compared_key hm, compared_key hn] at heq
    exact Int.ofNat.inj (Sum.inl.inj (Option.some.inj heq))

lemma plainRules_closed : SqlRules.Closed plainRules Helper.Unnamed where
  stored c v hv := hv
  initial c := show Helper.Unnamed .null by decide
  key n := Helper.unnamed_number _
  small rows h := by simpa [plainRules] using h

/-- A table with a generated key. -/
def usersSchema : Schema where
  tableName_ := "users"
  columns_ := [⟨"id", true, true⟩, ⟨"name", false, false⟩]
  session_ := { impl_ := .sqlite }

lemma usersSchema_returnable : (Record.new usersSchema).Returnable := by
  intro h
  cases h

def usersBackend : Backend SqlTable := .ofCommands plainRules usersSchema "id" ""

lemma usersBackend_serves :
    usersBackend.Serves id plainRules usersSchema "id" Helper.Unnamed := by
  refine Backend.serves_ofCommands (fun n => rfl) ?_ (by decide +kernel)
  intro text htext
  have hnone : InsertQuery.returning usersSchema.session_ usersSchema.tableName_ = some [] := rfl
  rw [hnone] at htext
  exact Option.some.inj htext ▸ rfl

end Sqlite

end CodaDb
