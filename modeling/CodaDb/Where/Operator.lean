import CodaDb.Sql.Value

/-!
# `sql_operator`

A condition on one column, before it is rendered: the kind of comparison, a negation flag, the
column and the operands. The union of operand representations is a type that depends on the kind.
-/

namespace CodaDb

/-- `op::type`, in the order of the enumeration. -/
inductive OpType where
  | eq | like | in_ | between | isnull | greater | lesser | eqGreater | eqLesser
deriving DecidableEq, Repr

namespace OpType

/-- `op::type_values` -/
def typeValue : OpType → String
  | .eq => "="
  | .like => "LIKE"
  | .in_ => "IN"
  | .between => "BETWEEN"
  | .isnull => "IS NULL"
  | .greater => ">"
  | .lesser => "<"
  | .eqGreater => ">="
  | .eqLesser => "<="

/-- `op::not_type_values` -/
def notTypeValue : OpType → String
  | .eq => "!="
  | .like => "NOT LIKE"
  | .in_ => "NOT IN"
  | .between => "NOT BETWEEN"
  | .isnull => "IS NOT NULL"
  | .greater => "!>"
  | .lesser => "!<"
  | .eqGreater => "<"
  | .eqLesser => ">"

/-- The member of the union that is alive for a kind: `rvalues_`, `rrange_` or `rvalue_`. -/
@[reducible] def Rvalue : OpType → Type
  | .in_ => List SqlValue
  | .between => SqlValue × SqlValue
  | .eq | .like | .isnull | .greater | .lesser | .eqGreater | .eqLesser => SqlValue

end OpType

structure SqlOperator where
  not_ : Bool := false
  lvalue_ : SqlValue
  type_ : OpType
  rvalue_ : type_.Rvalue

namespace SqlOperator

/-- `operator!` -/
def negate (o : SqlOperator) : SqlOperator := { o with not_ := !o.not_ }

/-- `sql_operator::is_named` -/
def isNamed : SqlOperator → Bool
  | ⟨_, _, .in_, _⟩ | ⟨_, _, .between, _⟩ => false
  | ⟨_, _, .eq, v⟩ | ⟨_, _, .like, v⟩ | ⟨_, _, .isnull, v⟩ | ⟨_, _, .greater, v⟩
  | ⟨_, _, .lesser, v⟩ | ⟨_, _, .eqGreater, v⟩ | ⟨_, _, .eqLesser, v⟩ => Helper.isNamed v

/-- The operands a condition of this kind compares the column with. -/
def operands : SqlOperator → List SqlValue
  | ⟨_, _, .in_, vs⟩ => vs
  | ⟨_, _, .between, (low, high)⟩ => [low, high]
  | ⟨_, _, .isnull, _⟩ => []
  | ⟨_, _, .eq, v⟩ | ⟨_, _, .like, v⟩ | ⟨_, _, .greater, v⟩ | ⟨_, _, .lesser, v⟩
  | ⟨_, _, .eqGreater, v⟩ | ⟨_, _, .eqLesser, v⟩ => [v]

/-- An operator that compares with one value: neither `IN` nor `BETWEEN`. -/
def IsSingle (o : SqlOperator) : Prop := o.type_ ≠ .in_ ∧ o.type_ ≠ .between

instance (o : SqlOperator) : Decidable o.IsSingle := inferInstanceAs (Decidable (_ ∧ _))

end SqlOperator

abbrev SingleOperator := { o : SqlOperator // o.IsSingle }

/-- A single operator whose operand does not start with `@` or `:`. -/
abbrev UnnamedOperator := { o : SqlOperator // o.IsSingle ∧ o.isNamed = false }

/-- The value an operator compares with. -/
def UnnamedOperator.operand : UnnamedOperator → SqlValue
  | ⟨⟨_, _, .in_, _⟩, h⟩ => absurd rfl h.1.1
  | ⟨⟨_, _, .between, _⟩, h⟩ => absurd rfl h.1.2
  | ⟨⟨_, _, .eq, v⟩, _⟩ | ⟨⟨_, _, .like, v⟩, _⟩ | ⟨⟨_, _, .isnull, v⟩, _⟩
  | ⟨⟨_, _, .greater, v⟩, _⟩ | ⟨⟨_, _, .lesser, v⟩, _⟩ | ⟨⟨_, _, .eqGreater, v⟩, _⟩
  | ⟨⟨_, _, .eqLesser, v⟩, _⟩ => v

/-! `op::in` and `op::between` assign a member of the union that was never constructed and give no
operator; they are among the factories of `CodaDb.Where.Tagged`. -/

namespace Op

def equals (lvalue rvalue : SqlValue) : SqlOperator :=
  { lvalue_ := lvalue, type_ := .eq, rvalue_ := rvalue }

def greater (lvalue rvalue : SqlValue) : SqlOperator :=
  { lvalue_ := lvalue, type_ := .greater, rvalue_ := rvalue }

def lesser (lvalue rvalue : SqlValue) : SqlOperator :=
  { lvalue_ := lvalue, type_ := .lesser, rvalue_ := rvalue }

def equalsGreater (lvalue rvalue : SqlValue) : SqlOperator :=
  { lvalue_ := lvalue, type_ := .eqGreater, rvalue_ := rvalue }

def equalsLesser (lvalue rvalue : SqlValue) : SqlOperator :=
  { lvalue_ := lvalue, type_ := .eqLesser, rvalue_ := rvalue }

def like (lvalue : SqlValue) (rvalue : String) : SqlOperator :=
  { lvalue_ := lvalue, type_ := .like, rvalue_ := SqlValue.string rvalue }

def startswith (lvalue : SqlValue) (rvalue : String) : SqlOperator := like lvalue (rvalue ++ "%")

def endswith (lvalue : SqlValue) (rvalue : String) : SqlOperator := like lvalue ("%" ++ rvalue)

def contains (lvalue : SqlValue) (rvalue : String) : SqlOperator :=
  like lvalue ("%" ++ rvalue ++ "%")

def isNull (lvalue : SqlValue) : SqlOperator :=
  { lvalue_ := lvalue, type_ := .isnull, rvalue_ := SqlValue.null }

end Op

end CodaDb
