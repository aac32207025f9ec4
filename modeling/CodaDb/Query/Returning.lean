import CodaDb.Query.Batch

/-!
# `RETURNING`

On a back end that returns the keys of a new row, the text of an insert lists the keys of the table.
The list is written by a loop over an iterator that its body does not move.
-/

namespace CodaDb

open SqlText

namespace InsertQuery

/-- `while (it < keys.end() - 1)`, for so many passes at most: where the iterator is at the end, and
the text by then. -/
def returningLoop (keys : List String) : Nat → Nat → SqlText → Option (Nat × SqlText)
  | 0, _, _ => none
  | passes + 1, it, buf =>
    if it < keys.length - 1 then
      returningLoop keys passes it (buf ++ lit (keys.getD it "") ++ lit ",")
    else some (it, buf)

/-- The end of the text for these keys, if the loop makes so many passes at most. -/
def returningWithin (passes : Nat) (keys : List String) : Option SqlText :=
  if keys = [] then some []
  else
    (returningLoop keys passes 0 (lit " RETURNING ")).map fun r => r.2 ++ lit (keys.getD r.1 "")

/-- `generate_sql`, if its loop makes so many passes at most. -/
def generateWithin (passes : Nat) (q : InsertQuery) : Option SqlText := do
  let session ← q.session_
  let returning ←
    if session.impl_.hasReturning then do
      let schema ← session.getSchema q.tableName_
      returningWithin passes schema.primaryKeys
    else some []
  return lit "INSERT INTO " ++ lit q.tableName_ ++ lit "(" ++ lit (Helper.joinCsv q.columns_) ++
    lit ") VALUES(" ++ session.joinParams q.columns_ ++ lit ")" ++ returning ++ lit ";"

/-- `generate_sql` comes to an end, with a text that lists the keys behind `RETURNING` if there are
any. -/
def Lists (q : InsertQuery) (keys : List String) : Prop :=
  ∃ passes sql session, q.generateWithin passes = some sql ∧ q.session_ = some session ∧
    sql.render = "INSERT INTO " ++ q.tableName_ ++ "(" ++ ",".intercalate q.columns_ ++
      ") VALUES(" ++
      ",".intercalate ((List.range' 1 q.columns_.length).map session.impl_.bindParamText) ++ ")" ++
      (if keys = [] then "" else " RETURNING " ++ ",".intercalate keys) ++ ";"

/-! ### The loop -/

/-- The loop comes to an end only if the iterator is at the last key from the start. -/
lemma returningLoop_eq (keys : List String) (passes it : Nat) (buf : SqlText) :
    returningLoop keys passes it buf =
      if passes = 0 ∨ it < keys.length - 1 then none else some (it, buf) := by
  induction passes generalizing buf with
  | zero => rfl
  | succ passes ih =>
    rw [returningLoop, ih]
    by_cases hit : it < keys.length - 1
    · rw [if_pos hit, if_pos (.inr hit), if_pos (.inr hit)]
    · rw [if_neg hit, if_neg (not_or.mpr ⟨Nat.succ_ne_zero passes, hit⟩)]

/-- What the loop writes if it comes to an end. -/
lemma returningSql_iff (keys : List String) (text : SqlText) :
    returningSql keys = some text ↔ ∃ passes, returningWithin passes keys = some text := by
  simp only [returningWithin, returningLoop_eq]
  match keys with
  | [] => exact ⟨fun h => ⟨0, h⟩, fun ⟨_, h⟩ => h⟩
  | [key] =>
    constructor
    · exact fun h => ⟨1, h⟩
    · rintro ⟨passes, h⟩
      cases passes with
      | zero => cases h
      | succ passes => exact h
  | key :: key' :: keys =>
    refine iff_of_false nofun ?_
    rintro ⟨passes, h⟩
    rw [if_neg nofun, if_pos (.inr (Nat.succ_pos _))] at h
    cases h

variable {session : Session} {q : InsertQuery}

lemma generateWithin_eq (hsession : q.session_ = some session)
    (hreturning : session.impl_.hasReturning = true) {schema : TableSchema}
    (hschema : session.getSchema q.tableName_ = some schema) (passes : Nat) :
    q.generateWithin passes = (returningWithin passes schema.primaryKeys).map
      (insertText session q.tableName_ q.columns_) := by
  simp only [generateWithin, hsession, hschema, hreturning, if_true, Option.bind_eq_bind,
    Option.bind_some, Option.map_eq_bind]
  rfl

/-- The text of an insert is the one that the loop comes to an end with. -/
theorem generateSql_iff (q : InsertQuery) (sql : SqlText) :
    q.generateSql = some sql ↔ ∃ passes, q.generateWithin passes = some sql := by
  cases hsession : q.session_ with
  | none => simp [generateSql, generateWithin, hsession]
  | some session =>
    by_cases hreturning : session.impl_.hasReturning = true
    case neg => simp [generateSql, generateWithin, hsession, hreturning]
    cases hschema : session.getSchema q.tableName_ with
    | none => simp [generateSql, generateWithin, hsession, hreturning, hschema]
    | some schema =>
      simp only [generateWithin_eq hsession hreturning hschema, generateSql_eq hsession, returning,
        if_pos hreturning, hschema, Option.bind_some, Option.map_eq_some_iff, returningSql_iff]
      constructor
      · rintro ⟨text, ⟨passes, htext⟩, hsql⟩
        exact ⟨passes, text, htext, hsql⟩
      · rintro ⟨passes, text, htext, hsql⟩
        exact ⟨text, ⟨passes, htext⟩, hsql⟩

/-- The text comes to an end with the list of the keys exactly if there is at most one. -/
theorem lists_iff (hsession : q.session_ = some session)
    (hreturning : session.impl_.hasReturning = true) {schema : TableSchema}
    (hschema : session.getSchema q.tableName_ = some schema) :
    q.Lists schema.primaryKeys ↔ schema.primaryKeys.length ≤ 1 := by
  constructor
  · rintro ⟨passes, sql, session', hgenerate, -⟩
    by_contra hlt
    rw [generateWithin_eq hsession hreturning hschema, returningWithin, returningLoop_eq,
      if_neg (fun hnil => hlt (by rw [hnil]; exact Nat.zero_le 1)),
      if_pos (.inr (by omega))] at hgenerate
    cases hgenerate
  · intro hlength
    have hwithin : ∀ keys : List String, keys.length ≤ 1 → ∃ text : SqlText,
        returningWithin 1 keys = some text ∧
          text.render = if keys = [] then "" else " RETURNING " ++ ",".intercalate keys := by
      intro keys hkeys
      match keys with
      | [] => exact ⟨[], rfl, rfl⟩
      | [key] =>
        refine ⟨lit " RETURNING " ++ lit key, rfl, ?_⟩
        simp
      | _ :: _ :: _ => simp at hkeys
    obtain ⟨text, htext, hrender⟩ := hwithin schema.primaryKeys hlength
    refine ⟨1, insertText session q.tableName_ q.columns_ text, session, ?_, hsession, ?_⟩
    · rw [generateWithin_eq hsession hreturning hschema, htext, Option.map_some]
    · rw [insertText_render, hrender]

/-- A session that knows a table with these columns. -/
def sessionWith (columns : List ColumnDefinition) : Session :=
  { impl_ := .postgres, schemaCache_ := [("users", ⟨"users", columns⟩)] }

/-- The theorem at a table with one key. -/
theorem lists_iff_users :
    (ofSession (sessionWith [⟨"id", true, true⟩, ⟨"name", false, false⟩]) "users" ["name"]).Lists
        (TableSchema.primaryKeys ⟨"users", [⟨"id", true, true⟩, ⟨"name", false, false⟩]⟩) ↔
      (TableSchema.primaryKeys
        ⟨"users", [⟨"id", true, true⟩, ⟨"name", false, false⟩]⟩).length ≤ 1 :=
  lists_iff rfl rfl rfl

/-- With two keys the iterator never gets to the last one. -/
theorem not_lists_memberships :
    ¬(ofSession (sessionWith [⟨"user_id", true, false⟩, ⟨"group_id", true, false⟩]) "users"
        ["user_id", "group_id"]).Lists
      (TableSchema.primaryKeys
        ⟨"users", [⟨"user_id", true, false⟩, ⟨"group_id", true, false⟩]⟩) := by
  rintro ⟨passes, sql, session', hgenerate, -⟩
  rw [generateWithin_eq rfl rfl rfl, returningWithin, returningLoop_eq, if_neg nofun,
    if_pos (.inr Nat.zero_lt_one)] at hgenerate
  cases hgenerate

end InsertQuery

end CodaDb
