import CodaDb.Sql.Text
import CodaDb.Sql.Value

/-!
# Sessions, back ends and schemas

What the queries use of a session: how its back end writes a placeholder and which parameter the
back end reads there, its features, and the cache of table schemas.
-/

namespace CodaDb

/-- The three implementations of `session_impl`. -/
inductive SessionImpl where
  | sqlite | mysql | postgres
deriving DecidableEq, Repr

namespace SessionImpl

/-- `bind_param`: the characters of a placeholder. -/
def bindParamText : SessionImpl → Nat → String
  | .sqlite, index => "?" ++ toString index
  | .mysql, _ => "?"
  | .postgres, index => "$" ++ toString index

/-- `bind_param`, remembering the index it was called with. -/
def bindParam (impl : SessionImpl) (index : Nat) : SqlText :=
  [{ str := impl.bindParamText index, param := some index }]

/-- The parameter the back end reads at the placeholder in position `pos` (from zero) of a text,
rendered for `index`: MySQL counts the question marks, the others go by the number. -/
def slot : SessionImpl → Nat → Nat → Nat
  | .mysql, pos, _ => pos + 1
  | .sqlite, _, index | .postgres, _, index => index

/-- `has_feature(FEATURE_RETURNING)` -/
def hasReturning : SessionImpl → Bool
  | .postgres => true
  | .sqlite | .mysql => false

@[simp] lemma render_bindParam (impl : SessionImpl) (index : Nat) :
    (impl.bindParam index).render = impl.bindParamText index := by
  simp [bindParam, SqlText.render]

@[simp] lemma placeholders_bindParam (impl : SessionImpl) (index : Nat) :
    (impl.bindParam index).placeholders = [index] := rfl

lemma bindParamText_ne_empty (impl : SessionImpl) (index : Nat) :
    impl.bindParamText index ≠ "" := by
  cases impl <;> simp [bindParamText]

end SessionImpl

/-- The fields of a `column_definition` that the queries read. -/
structure ColumnDefinition where
  name : String
  pk : Bool
  autoincrement : Bool
deriving DecidableEq, Repr

/-- A table definition as cached by the session; it has no columns before `init`. -/
structure TableSchema where
  tableName_ : String
  columns_ : List ColumnDefinition
deriving DecidableEq, Repr

structure Session where
  impl_ : SessionImpl
  /-- `schema_factory_`: the schemas asked for so far -/
  schemaCache_ : List (String × TableSchema) := []
deriving DecidableEq, Repr

/-- A schema object holds its session. -/
structure Schema extends TableSchema where
  session_ : Session
deriving DecidableEq, Repr

namespace TableSchema

def columnNames (s : TableSchema) : List String := s.columns_.map ColumnDefinition.name

def primaryKeys (s : TableSchema) : List String :=
  (s.columns_.filter ColumnDefinition.pk).map ColumnDefinition.name

end TableSchema

namespace Helper

/-- `join_csv` -/
def joinCsv : List String → String
  | [] => ""
  | [c] => c
  | c :: cs => c ++ "," ++ joinCsv cs

lemma joinCsv_eq (columns : List String) : joinCsv columns = ",".intercalate columns := by
  induction columns with
  | nil => rfl
  | cons c cs ih =>
    cases cs with
    | nil => simp [joinCsv]
    | cons d ds =>
      have hstep : joinCsv (c :: d :: ds) = c ++ "," ++ joinCsv (d :: ds) := rfl
      rw [hstep, ih, String.intercalate_cons_cons]

end Helper

namespace Session

/-- `get_schema`: the cached schema, or a new one without columns; the constructor of `schema`
refuses an empty table name. -/
def getSchema (s : Session) (tableName : String) : Option TableSchema :=
  match s.schemaCache_.lookup tableName with
  | some schema => some schema
  | none => if tableName = "" then none else some { tableName_ := tableName, columns_ := [] }

/-- The loop of `join_params`, at the column of index `i`. -/
def joinParamsFrom (s : Session) (op : String) : Nat → List String → SqlText
  | _, [] => []
  | i, c :: cs =>
    (if op = "" then [] else SqlText.lit c ++ SqlText.lit op) ++ s.impl_.bindParam (i + 1) ++
      (if cs = [] then [] else SqlText.lit ",") ++ s.joinParamsFrom op (i + 1) cs

/-- `join_params` -/
def joinParams (s : Session) (columns : List String) (op : String := "") : SqlText :=
  s.joinParamsFrom op 0 columns

/-- One entry of `join_params`: the column with the operator, if there is one, and a placeholder. -/
def paramText (s : Session) (op c : String) (n : Nat) : String :=
  (if op = "" then "" else c ++ op) ++ s.impl_.bindParamText n

lemma joinParamsFrom_render (s : Session) (op : String) (i : Nat) (columns : List String) :
    (s.joinParamsFrom op i columns).render =
      ",".intercalate (columns.zipWith (s.paramText op) (List.range' (i + 1) columns.length)) := by
  induction columns generalizing i with
  | nil => simp [joinParamsFrom]
  | cons c cs ih =>
    have hentry : SqlText.render (if op = "" then [] else SqlText.lit c ++ SqlText.lit op)
        = if op = "" then "" else c ++ op := by
      split <;> simp
    by_cases hcs : cs = []
    · simp [joinParamsFrom, hcs, paramText, hentry]
    · have hrest : cs.zipWith (s.paramText op) (List.range' (i + 1 + 1) cs.length) ≠ [] := by
        simp [hcs]
      rw [joinParamsFrom, List.length_cons, List.range'_succ, List.zipWith_cons_cons,
        String.intercalate_cons_of_ne_nil hrest]
      simp [hcs, paramText, hentry, ih, String.append_assoc]

/-- The placeholders of a list of columns are numbered from left to right. -/
lemma joinParamsFrom_placeholders (s : Session) (op : String) (i : Nat) (columns : List String) :
    (s.joinParamsFrom op i columns).placeholders = List.range' (i + 1) columns.length := by
  induction columns generalizing i with
  | nil => rfl
  | cons c cs ih =>
    have hentry :
        SqlText.placeholders (if op = "" then [] else SqlText.lit c ++ SqlText.lit op) = [] := by
      split <;> simp
    have hcomma : SqlText.placeholders (if cs = [] then [] else SqlText.lit ",") = [] := by
      split <;> simp
    simp [joinParamsFrom, hentry, hcomma, ih, List.range'_succ]

lemma joinParams_render (s : Session) (columns : List String) (op : String) :
    (s.joinParams columns op).render =
      ",".intercalate (columns.zipWith (s.paramText op) (List.range' 1 columns.length)) :=
  s.joinParamsFrom_render op 0 columns

@[simp] lemma joinParams_placeholders (s : Session) (columns : List String) (op : String) :
    (s.joinParams columns op).placeholders = List.range' 1 columns.length :=
  s.joinParamsFrom_placeholders op 0 columns

end Session

end CodaDb
