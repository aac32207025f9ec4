import CodaDb.Lib.Machine
import CodaDb.Where.Builder

/-!
# The union of `sql_operator`

An operator whose union is a value with a tag, the member that was constructed last, next to the
field `type_` that tells the special members which one to use. The default constructor always
constructs `rvalue_`, and only the copies and moves construct another member.
-/

namespace CodaDb

/-- The members of the union. -/
inductive MemberTag where
  | rvalue | rvalues | rrange
deriving DecidableEq, Repr

/-- A member of the union with its value. -/
inductive Member where
  | rvalue_ (v : SqlValue)
  | rvalues_ (vs : List SqlValue)
  | rrange_ (p : SqlValue × SqlValue)

namespace Member

def tag : Member → MemberTag
  | .rvalue_ _ => .rvalue
  | .rvalues_ _ => .rvalues
  | .rrange_ _ => .rrange

@[simp] lemma tag_rvalue (v : SqlValue) : (rvalue_ v).tag = .rvalue := rfl
@[simp] lemma tag_rvalues (vs : List SqlValue) : (rvalues_ vs).tag = .rvalues := rfl
@[simp] lemma tag_rrange (p : SqlValue × SqlValue) : (rrange_ p).tag = .rrange := rfl

end Member

/-- The member that the `switch` statements use for a type. -/
def OpType.member : OpType → MemberTag
  | .eq | .like | .isnull | .greater | .lesser | .eqGreater | .eqLesser => .rvalue
  | .in_ => .rvalues
  | .between => .rrange

/-- What the values of an operator hold after it was moved from; a vector is empty then. -/
structure Leftover where
  lvalue_ : SqlValue
  rvalue_ : SqlValue
  rrange_ : SqlValue × SqlValue

def Leftover.member (left : Leftover) : Member → Member
  | .rvalue_ _ => .rvalue_ left.rvalue_
  | .rvalues_ _ => .rvalues_ []
  | .rrange_ _ => .rrange_ left.rrange_

@[simp] lemma Leftover.tag_member (left : Leftover) (m : Member) :
    (left.member m).tag = m.tag := by
  cases m <;> rfl

/-- A member that is assigned, read or destroyed, next to the one that is current. -/
structure Access where
  member : MemberTag
  current : Option MemberTag
deriving DecidableEq, Repr

def Access.Current (x : Access) : Prop := x.current = some x.member

/-- A `sql_operator`. The union has no member before one is constructed, and `type_` is `none` where
the memory holds no enumerator. -/
structure TaggedOperator where
  not_ : Bool
  lvalue_ : SqlValue
  union_ : Option Member
  type_ : Option OpType

namespace TaggedOperator

/-- The member that was constructed last. -/
def tag (o : TaggedOperator) : Option MemberTag := o.union_.map Member.tag

def access (o : TaggedOperator) (t : MemberTag) : Access := ⟨t, o.tag⟩

/-- Assign a member. Nothing is constructed, and what another member than the current one then holds
is not defined. -/
def assign (o : TaggedOperator) (m : Member) : TaggedOperator :=
  if o.tag = some m.tag then { o with union_ := some m } else o

@[simp] lemma tag_assign (o : TaggedOperator) (m : Member) : (o.assign m).tag = o.tag := by
  rw [assign]
  split
  · next h => exact h.symm
  · rfl

@[simp] lemma type_assign (o : TaggedOperator) (m : Member) : (o.assign m).type_ = o.type_ := by
  rw [assign]
  split <;> rfl

/-- The value that a member is read as; for another member than the current one it is not
defined. -/
def read (o : TaggedOperator) (t : MemberTag) : Member :=
  match t, o.union_ with
  | .rvalue, some (.rvalue_ v) => .rvalue_ v
  | .rvalue, _ => .rvalue_ .null
  | .rvalues, some (.rvalues_ vs) => .rvalues_ vs
  | .rvalues, _ => .rvalues_ []
  | .rrange, some (.rrange_ p) => .rrange_ p
  | .rrange, _ => .rrange_ (.null, .null)

/-- The member that a `switch` over `type_` uses. -/
def switched (o : TaggedOperator) : List Access :=
  match o.type_ with
  | none => []
  | some t => [o.access t.member]

/-- `sql_operator()`, which leaves `type_` as the memory was. -/
def construct (memory : Option OpType) : TaggedOperator where
  not_ := false
  lvalue_ := .null
  union_ := some (.rvalue_ .null)
  type_ := memory

/-- The memory of an operator that is constructed from another one. -/
def raw : TaggedOperator := ⟨false, .null, none, none⟩

/-- `copy`, which the copy constructor and the copy assignment call. -/
def copy (o other : TaggedOperator) : TaggedOperator × List Access :=
  ({ not_ := other.not_
     lvalue_ := other.lvalue_
     type_ := other.type_
     union_ :=
       match other.type_ with
       | none => o.union_
       | some t => some (other.read t.member) }, other.switched)

/-- What `move` leaves of the other operator. -/
def movedFrom (other : TaggedOperator) (left : Leftover) : TaggedOperator :=
  { other with
    lvalue_ := left.lvalue_
    union_ :=
      match other.type_ with
      | none => other.union_
      | some _ => other.union_.map left.member }

/-- `move`, which the move constructor and the move assignment call: it reads and constructs the
members that `copy` does. -/
def move (o other : TaggedOperator) (left : Leftover) :
    TaggedOperator × TaggedOperator × List Access :=
  let (o, log) := o.copy other
  (o, other.movedFrom left, log)

/-- `~sql_operator()` -/
def destroy (o : TaggedOperator) : List Access := o.switched

/-- `operator!` -/
def negate (o : TaggedOperator) : TaggedOperator := { o with not_ := !o.not_ }

/-- `rvalue(visitor)` -/
def rvalue (o : TaggedOperator) : List Access := o.switched

/-- `is_named`, which reads a single value only. -/
def isNamed (o : TaggedOperator) : List Access :=
  match o.type_ with
  | none | some .in_ | some .between => []
  | some .eq | some .like | some .isnull | some .greater | some .lesser | some .eqGreater
  | some .eqLesser => [o.access .rvalue]

/-- `where_builder::bind(size_t, const sql_operator &)` -/
def bind (o : TaggedOperator) : List Access := o.switched

end TaggedOperator

open TaggedOperator

/-- The functions of `op`. -/
inductive Factory where
  | equals (lvalue rvalue : SqlValue)
  | greater (lvalue rvalue : SqlValue)
  | lesser (lvalue rvalue : SqlValue)
  | equalsGreater (lvalue rvalue : SqlValue)
  | equalsLesser (lvalue rvalue : SqlValue)
  | like (lvalue : SqlValue) (rvalue : String)
  | startswith (lvalue : SqlValue) (rvalue : String)
  | endswith (lvalue : SqlValue) (rvalue : String)
  | contains (lvalue : SqlValue) (rvalue : String)
  | in_ (lvalue : SqlValue) (rvalue : List SqlValue)
  | between (lvalue rvalue1 rvalue2 : SqlValue)
  | isNull (lvalue : SqlValue)

namespace Factory

/-- The two operands and then the type are assigned to a new operator. -/
def make (memory : Option OpType) (lvalue : SqlValue) (m : Member) (t : OpType) :
    TaggedOperator × List Access :=
  let op := { construct memory with lvalue_ := lvalue }
  ({ op.assign m with type_ := some t }, [op.access m.tag])

/-- The local operator that the function returns. -/
def run (memory : Option OpType) : Factory → TaggedOperator × List Access
  | .equals lvalue rvalue => make memory lvalue (.rvalue_ rvalue) .eq
  | .greater lvalue rvalue => make memory lvalue (.rvalue_ rvalue) .greater
  | .lesser lvalue rvalue => make memory lvalue (.rvalue_ rvalue) .lesser
  | .equalsGreater lvalue rvalue => make memory lvalue (.rvalue_ rvalue) .eqGreater
  | .equalsLesser lvalue rvalue => make memory lvalue (.rvalue_ rvalue) .eqLesser
  | .like lvalue rvalue => make memory lvalue (.rvalue_ (.string rvalue)) .like
  | .startswith lvalue rvalue => make memory lvalue (.rvalue_ (.string (rvalue ++ "%"))) .like
  | .endswith lvalue rvalue => make memory lvalue (.rvalue_ (.string ("%" ++ rvalue))) .like
  | .contains lvalue rvalue =>
    make memory lvalue (.rvalue_ (.string ("%" ++ rvalue ++ "%"))) .like
  | .in_ lvalue rvalue => make memory lvalue (.rvalues_ rvalue) .in_
  | .between lvalue rvalue1 rvalue2 => make memory lvalue (.rrange_ (rvalue1, rvalue2)) .between
  | .isNull lvalue =>
    -- the type comes before the operand here
    let op := { construct memory with lvalue_ := lvalue, type_ := some .isnull }
    (op.assign (.rvalue_ .null), [op.access .rvalue])

/-- The member that is assigned. -/
def assigned : Factory → MemberTag
  | .in_ _ _ => .rvalues
  | .between _ _ _ => .rrange
  | _ => .rvalue

/-- The member is assigned to an operator whose `rvalue_` is current. -/
lemma run_spec (f : Factory) (memory : Option OpType) :
    (f.run memory).2 = [⟨f.assigned, some .rvalue⟩] ∧ (f.run memory).1.tag = some .rvalue ∧
      ∃ t, (f.run memory).1.type_ = some t ∧ t.member = f.assigned := by
  cases f <;> exact ⟨rfl, rfl, _, rfl, rfl⟩

end Factory

/-- The operators of `sql_operator_builder`. -/
inductive BuilderCall where
  | equals (rvalue : SqlValue)
  | nequals (rvalue : SqlValue)
  | like (rvalue : String)
  | equalsLesser (rvalue : SqlValue)
  | equalsGreater (rvalue : SqlValue)
  | lesser (rvalue : SqlValue)
  | greater (rvalue : SqlValue)
  | contains (rvalue : String)
  | in_ (values : List SqlValue)
  | between (values : SqlValue × SqlValue)
  | is_
  | isNot

namespace BuilderCall

/-- The type and then the operand are assigned. -/
def set (o : TaggedOperator) (t : OpType) (m : Member) : TaggedOperator × List Access :=
  let o := { o with type_ := some t }
  (o.assign m, [o.access m.tag])

def run (o : TaggedOperator) : BuilderCall → TaggedOperator × List Access
  | .equals rvalue => set o .eq (.rvalue_ rvalue)
  | .nequals rvalue => set { o with not_ := true } .eq (.rvalue_ rvalue)
  | .like rvalue => set o .like (.rvalue_ (.string rvalue))
  | .equalsLesser rvalue => set o .eqLesser (.rvalue_ rvalue)
  | .equalsGreater rvalue => set o .eqGreater (.rvalue_ rvalue)
  | .lesser rvalue => set o .lesser (.rvalue_ rvalue)
  | .greater rvalue => set o .greater (.rvalue_ rvalue)
  | .contains rvalue => set o .like (.rvalue_ (.string ("%" ++ rvalue ++ "%")))
  | .in_ values => set o .in_ (.rvalues_ values)
  | .between values => set o .between (.rrange_ values)
  | .is_ => set o .isnull (.rvalue_ .null)
  | .isNot => set { o with not_ := true } .isnull (.rvalue_ .null)

/-- The member that is assigned. -/
def assigned : BuilderCall → MemberTag
  | .in_ _ => .rvalues
  | .between _ => .rrange
  | _ => .rvalue

/-- The member is assigned to the operator as it is. -/
lemma run_spec (c : BuilderCall) (o : TaggedOperator) :
    (c.run o).2 = [⟨c.assigned, o.tag⟩] ∧ (c.run o).1.tag = o.tag ∧
      ∃ t, (c.run o).1.type_ = some t ∧ t.member = c.assigned := by
  cases c <;> exact ⟨rfl, tag_assign _ _, _, type_assign _ _, rfl⟩

end BuilderCall

/-! ### Runs -/

/-- The operators at their addresses. -/
abbrev Operators := Addr → Option TaggedOperator

/-- A call on operators. A new operator gets the type that its memory holds; the result of a factory
is its local operator, or one that is moved from it and leaves it in some state. -/
inductive OperatorCall where
  | factory (a : Addr) (f : Factory) (memory : Option OpType) (returned : Option Leftover)
  | build (a : Addr) (lvalue : SqlValue) (memory : Option OpType)
  | builder (a : Addr) (c : BuilderCall)
  | copyConstruct (a source : Addr)
  | moveConstruct (a source : Addr) (left : Leftover)
  | copyAssign (a source : Addr)
  | moveAssign (a source : Addr) (left : Leftover)
  | negate (a : Addr)
  | rvalue (a : Addr)
  | isNamed (a : Addr)
  | bind (a : Addr)
  | destroy (a : Addr)

namespace OperatorCall

/-- The result of a factory. -/
def result (f : Factory) (memory : Option OpType) :
    Option Leftover → TaggedOperator × List Access
  | none => f.run memory
  | some left =>
    let (op, log) := f.run memory
    let (o, op, moved) := raw.move op left
    (o, log ++ (moved ++ op.destroy))

/-- An operator that is copied to an address where there is one or not. -/
def copyTo (s : Operators) (a source : Addr) (o : TaggedOperator) : Operators × List Access :=
  match s source with
  | none => (s, [])
  | some other =>
    let (o, log) := o.copy other
    (Function.update s a (some o), log)

def moveTo (s : Operators) (a source : Addr) (o : TaggedOperator) (left : Leftover) :
    Operators × List Access :=
  match s source with
  | none => (s, [])
  | some other =>
    let (o, other, log) := o.move other left
    (Function.update (Function.update s source (some other)) a (some o), log)

def step (s : Operators) : OperatorCall → Operators × List Access
  | .factory a f memory returned =>
    let (o, log) := result f memory returned
    (Function.update s a (some o), log)
  | .build a lvalue memory =>
    (Function.update s a (some { construct memory with lvalue_ := lvalue }), [])
  | .builder a c =>
    match s a with
    | none => (s, [])
    | some o =>
      let (o, log) := c.run o
      (Function.update s a (some o), log)
  | .copyConstruct a source => copyTo s a source raw
  | .moveConstruct a source left => moveTo s a source raw left
  | .copyAssign a source =>
    match s a with
    | none => (s, [])
    | some o => copyTo s a source o
  | .moveAssign a source left =>
    match s a with
    | none => (s, [])
    | some o => moveTo s a source o left
  | .negate a => (Function.update s a ((s a).map TaggedOperator.negate), [])
  | .rvalue a => (s, (s a).elim [] TaggedOperator.rvalue)
  | .isNamed a => (s, (s a).elim [] TaggedOperator.isNamed)
  | .bind a => (s, (s a).elim [] TaggedOperator.bind)
  | .destroy a => (Function.update s a none, (s a).elim [] TaggedOperator.destroy)

/-- The operators that a call uses exist, and a new one gets memory of its own. -/
def Possible (s : Operators) : OperatorCall → Prop
  | .factory a _ _ _ | .build a _ _ => s a = none
  | .copyConstruct a source | .moveConstruct a source _ => s a = none ∧ (s source).isSome
  | .copyAssign a source | .moveAssign a source _ => (s a).isSome ∧ (s source).isSome
  | .builder a _ | .negate a | .rvalue a | .isNamed a | .bind a | .destroy a => (s a).isSome

/-- The call does not assign a vector or a pair, and the memory of a new builder holds a type with a
single value. -/
def Single : OperatorCall → Prop
  | .factory _ f _ _ => f.assigned = .rvalue
  | .build _ _ memory => ∃ t ∈ memory, t.member = .rvalue
  | .builder _ c => c.assigned = .rvalue
  | _ => True

end OperatorCall

def operatorMachine : Machine Operators OperatorCall Access where
  step := OperatorCall.step

/-- A sequence of calls on operators, from the start of the program. -/
structure OperatorProgram where
  calls : List OperatorCall
  possible : operatorMachine.Along OperatorCall.Possible (fun _ => none) calls

namespace TaggedOperator

/-- The tag is the one of the type. -/
def Corresponds (o : TaggedOperator) : Prop := ∃ t ∈ o.type_, o.tag = some t.member

/-- An operator with a single value. -/
def Single (o : TaggedOperator) : Prop := o.Corresponds ∧ o.tag = some .rvalue

/-- The member that is used for the type is the current one. -/
lemma Corresponds.switched {o : TaggedOperator} (h : o.Corresponds) :
    ∀ x ∈ o.switched, x.Current := by
  obtain ⟨t, ht, htag⟩ := h
  intro x hx
  rw [TaggedOperator.switched, ht, List.mem_singleton] at hx
  rw [hx]
  exact htag

lemma Corresponds.isNamed {o : TaggedOperator} (h : o.Corresponds) :
    ∀ x ∈ o.isNamed, x.Current := by
  intro x hx
  refine h.switched x ?_
  rw [TaggedOperator.isNamed] at hx
  rw [TaggedOperator.switched]
  cases htype : o.type_ with
  | none =>
    rw [htype] at hx
    exact hx
  | some t =>
    rw [htype] at hx
    cases t with
    | in_ => cases hx
    | between => cases hx
    | _ => exact hx

/-- The current member is read as it is. -/
lemma read_tag {o : TaggedOperator} {m : Member} (h : o.union_ = some m) : o.read m.tag = m := by
  cases m <;> simp [read, h]

/-- A copy is the same operator. -/
lemma Corresponds.copy {other : TaggedOperator} (h : other.Corresponds) (o : TaggedOperator) :
    (o.copy other).1 = other := by
  obtain ⟨t, ht, htag⟩ := h
  obtain ⟨m, hm, hmember⟩ := Option.map_eq_some_iff.mp htag
  have hread : other.read t.member = m := hmember ▸ read_tag hm
  rw [Option.mem_def] at ht
  rw [TaggedOperator.copy, ht]
  simp only [hread, ← hm, ← ht]

lemma single_iff {o : TaggedOperator} :
    o.Single ↔ o.tag = some .rvalue ∧ ∃ t ∈ o.type_, t.member = .rvalue := by
  rw [Single, Corresponds]
  constructor
  · rintro ⟨⟨t, ht, htag⟩, hvalue⟩
    rw [htag] at hvalue
    exact ⟨htag.trans hvalue, t, ht, Option.some.inj hvalue⟩
  · rintro ⟨hvalue, t, ht, hmember⟩
    exact ⟨⟨t, ht, by rw [hvalue, hmember]⟩, hvalue⟩

lemma Single.copy {other : TaggedOperator} (h : other.Single) (o : TaggedOperator) :
    (o.copy other).1.Single := by
  rw [h.1.copy o]
  exact h

lemma Single.movedFrom {o : TaggedOperator} (h : o.Single) (left : Leftover) :
    (o.movedFrom left).Single := by
  obtain ⟨hvalue, t, ht, hmember⟩ := single_iff.mp h
  refine single_iff.mpr ⟨?_, t, ht, hmember⟩
  rw [TaggedOperator.movedFrom, tag, Option.mem_def.mp ht]
  simpa [tag] using hvalue

end TaggedOperator

/-- The operators that there are have a property. -/
def Operators.All (P : TaggedOperator → Prop) (s : Operators) : Prop := ∀ a o, s a = some o → P o

lemma Operators.All.update {P : TaggedOperator → Prop} {s : Operators} (h : s.All P) (a : Addr)
    {o : Option TaggedOperator} (ho : ∀ o' ∈ o, P o') : All P (Function.update s a o) := by
  intro b o' hb
  by_cases hba : b = a
  · subst hba
    rw [Function.update_self] at hb
    exact ho o' hb
  · rw [Function.update_of_ne hba] at hb
    exact h b o' hb

lemma Operators.All.update_some {P : TaggedOperator → Prop} {s : Operators} (h : s.All P) (a : Addr)
    {o : TaggedOperator} (ho : P o) : All P (Function.update s a (some o)) :=
  h.update a fun _ ho' => Option.some.inj (Option.mem_def.mp ho') ▸ ho

namespace OperatorCall

/-- The operators are single after a call, which used current members only. -/
def Keeps (r : Operators × List Access) : Prop :=
  r.1.All TaggedOperator.Single ∧ ∀ x ∈ r.2, x.Current

section Keeps

variable {s : Operators} (h : s.All TaggedOperator.Single) (a source : Addr) (o : TaggedOperator)
include h

lemma keeps_copyTo : Keeps (copyTo s a source o) := by
  rw [copyTo]
  cases hsource : s source with
  | none => exact ⟨h, nofun⟩
  | some other =>
    have hother := h source other hsource
    exact ⟨h.update_some a (hother.copy o), hother.1.switched⟩

lemma keeps_moveTo (left : Leftover) : Keeps (moveTo s a source o left) := by
  rw [moveTo]
  cases hsource : s source with
  | none => exact ⟨h, nofun⟩
  | some other =>
    have hother := h source other hsource
    exact ⟨(h.update_some source (hother.movedFrom left)).update_some a (hother.copy o),
      hother.1.switched⟩

lemma keeps_factory {f : Factory} (hf : f.assigned = .rvalue) (memory : Option OpType)
    (returned : Option Leftover) : Keeps (step s (.factory a f memory returned)) := by
  obtain ⟨hlog, htag, t, ht, hmember⟩ := f.run_spec memory
  have hsingle : (f.run memory).1.Single := single_iff.mpr ⟨htag, t, ht, hmember.trans hf⟩
  have hcurrent : ∀ x ∈ (f.run memory).2, x.Current := by
    rw [hlog, hf]
    simp [Access.Current]
  cases returned with
  | none => exact ⟨h.update_some a hsingle, hcurrent⟩
  | some left =>
    refine ⟨h.update_some a (hsingle.copy raw), ?_⟩
    intro x hx
    rw [step, result] at hx
    simp only [List.mem_append] at hx
    rcases hx with hx | hx | hx
    · exact hcurrent x hx
    · exact hsingle.1.switched x hx
    · exact (hsingle.movedFrom left).1.switched x hx

lemma keeps_builder {c : BuilderCall} (hc : c.assigned = .rvalue) :
    Keeps (step s (.builder a c)) := by
  rw [step]
  cases ho : s a with
  | none => exact ⟨h, nofun⟩
  | some o =>
    obtain ⟨hlog, htag, t, ht, hmember⟩ := c.run_spec o
    have hvalue := (h a o ho).2
    refine ⟨h.update_some a (single_iff.mpr ⟨htag.trans hvalue, t, ht, hmember.trans hc⟩), ?_⟩
    intro x hx
    rw [hlog, List.mem_singleton] at hx
    rw [hx, Access.Current, hc]
    exact hvalue

/-- A read of the operator at an address. -/
lemma keeps_read {f : TaggedOperator → List Access}
    (hf : ∀ o, o.Corresponds → ∀ x ∈ f o, x.Current) : Keeps (s, (s a).elim [] f) := by
  refine ⟨h, ?_⟩
  cases ho : s a with
  | none => exact nofun
  | some o => exact hf o (h a o ho).1

/-- A call with single values keeps the operators single. -/
lemma keeps_of_single {call : OperatorCall} (hcall : call.Single) : Keeps (step s call) := by
  cases call with
  | factory a f memory returned => exact keeps_factory h a hcall memory returned
  | build a lvalue memory => exact ⟨h.update_some a (single_iff.mpr ⟨rfl, hcall⟩), nofun⟩
  | builder a c => exact keeps_builder h a hcall
  | copyConstruct a source => exact keeps_copyTo h a source raw
  | moveConstruct a source left => exact keeps_moveTo h a source raw left
  | copyAssign a source =>
    rw [step]
    cases s a with
    | none => exact ⟨h, nofun⟩
    | some o => exact keeps_copyTo h a source o
  | moveAssign a source left =>
    rw [step]
    cases s a with
    | none => exact ⟨h, nofun⟩
    | some o => exact keeps_moveTo h a source o left
  | negate a =>
    refine ⟨h.update a ?_, nofun⟩
    intro o ho
    obtain ⟨other, hother, rfl⟩ := Option.map_eq_some_iff.mp (Option.mem_def.mp ho)
    exact h a other hother
  | rvalue a => exact keeps_read h a fun _ ho => ho.switched
  | isNamed a => exact keeps_read h a fun _ ho => ho.isNamed
  | bind a => exact keeps_read h a fun _ ho => ho.switched
  | destroy a =>
    exact ⟨h.update a fun o ho => absurd ho (Option.not_mem_none o),
      (keeps_read h a fun _ ho => ho.switched).2⟩

/-- Another call uses a member that is not current or leaves an operator whose tag is not the one of
its type. -/
lemma single_of_corresponds {call : OperatorCall} (hpossible : call.Possible s)
    (hnext : (step s call).1.All Corresponds) (hlog : ∀ x ∈ (step s call).2, x.Current) :
    call.Single := by
  cases call with
  | factory a f memory returned =>
    obtain ⟨hrun, -, -⟩ := f.run_spec memory
    have hmem : (⟨f.assigned, some .rvalue⟩ : Access) ∈ (result f memory returned).2 := by
      cases returned with
      | none => simp [result, hrun]
      | some left => simp [result, hrun]
    exact (Option.some.inj (hlog _ hmem)).symm
  | build a lvalue memory =>
    obtain ⟨t, ht, htag⟩ := hnext a _ (Function.update_self ..)
    exact ⟨t, ht, (Option.some.inj htag).symm⟩
  | builder a c =>
    obtain ⟨o, ho⟩ := Option.isSome_iff_exists.mp hpossible
    obtain ⟨hrun, -, -⟩ := c.run_spec o
    have hmem : (⟨c.assigned, o.tag⟩ : Access) ∈ (step s (.builder a c)).2 := by
      simp [step, ho, hrun]
    have hcurrent := hlog _ hmem
    rw [Access.Current, (h a o ho).2] at hcurrent
    exact (Option.some.inj hcurrent).symm
  | _ => trivial

end Keeps

end OperatorCall

/-- A run uses the current members only and leaves every operator with the tag of its type, if and
only if it makes no operator with a vector or a pair, and finds a type with a single value in the
memory of every builder. -/
theorem OperatorProgram.uses_current_iff (p : OperatorProgram) :
    (∀ call ∈ p.calls, call.Single) ↔
      (∀ n, (operatorMachine.run (fun _ => none) (p.calls.take n)).1.All
        TaggedOperator.Corresponds) ∧
        ∀ x ∈ (operatorMachine.run (fun _ => none) p.calls).2, x.Current := by
  rw [← Machine.along_iff_forall (M := operatorMachine) (s := fun _ => none)]
  refine operatorMachine.along_iff_of_possible OperatorCall.Possible _
    (Operators.All TaggedOperator.Single) (Operators.All TaggedOperator.Corresponds)
    Access.Current (fun s hs a o ho => (hs a o ho).1)
    (fun s call hs _ hcall => (OperatorCall.keeps_of_single hs hcall).1) ?_ ?_ p.possible
  · intro s call hs hpossible
    constructor
    · intro hcall
      obtain ⟨hnext, hlog⟩ := OperatorCall.keeps_of_single hs hcall
      exact ⟨fun a o ho => (hnext a o ho).1, hlog⟩
    · rintro ⟨hnext, hlog⟩
      exact OperatorCall.single_of_corresponds hs hpossible hnext hlog
  · intro a o ho
    cases ho

/-- `op::in` assigns `rvalues_` where `rvalue_` was constructed. -/
theorem OperatorProgram.not_uses_current :
    ¬∀ p : OperatorProgram,
      (∀ n, (operatorMachine.run (fun _ => none) (p.calls.take n)).1.All
        TaggedOperator.Corresponds) ∧
        ∀ x ∈ (operatorMachine.run (fun _ => none) p.calls).2, x.Current := by
  intro h
  obtain ⟨-, hlog⟩ := h {
    calls := [.factory 0 (.in_ (.string "a") [.null]) none none]
    possible := ⟨rfl, trivial⟩ }
  have hcurrent := hlog ⟨.rvalues, some .rvalue⟩ (List.mem_singleton_self _)
  cases hcurrent

/-! ### The operators that the clauses are built from -/

/-- A member as the operand of a type. -/
def OpType.operand : (t : OpType) → Member → Option t.Rvalue
  | .in_, .rvalues_ vs => some vs
  | .between, .rrange_ p => some p
  | .eq, .rvalue_ v | .like, .rvalue_ v | .isnull, .rvalue_ v | .greater, .rvalue_ v
  | .lesser, .rvalue_ v | .eqGreater, .rvalue_ v | .eqLesser, .rvalue_ v => some v
  | _, _ => none

lemma OpType.operand_isSome {t : OpType} {m : Member} :
    (t.operand m).isSome ↔ m.tag = t.member := by
  cases t <;> cases m <;> simp [operand, OpType.member]

namespace TaggedOperator

/-- The operator whose operand is the current member, where this is the one of the type. -/
def view (o : TaggedOperator) : Option SqlOperator :=
  o.type_.bind fun t => o.union_.bind fun m =>
    (t.operand m).map fun r => { not_ := o.not_, lvalue_ := o.lvalue_, type_ := t, rvalue_ := r }

theorem view_isSome_iff (o : TaggedOperator) : o.view.isSome ↔ o.Corresponds := by
  rw [view, Corresponds]
  cases ht : o.type_ with
  | none => simp
  | some t =>
    cases hm : o.union_ with
    | none => simp [tag, hm]
    | some m => simp [tag, hm, OpType.operand_isSome]

end TaggedOperator

/-- The operator that a factory makes in the other modules; `op::in` and `op::between` make none. -/
def Factory.operator : Factory → Option SqlOperator
  | .equals lvalue rvalue => some (Op.equals lvalue rvalue)
  | .greater lvalue rvalue => some (Op.greater lvalue rvalue)
  | .lesser lvalue rvalue => some (Op.lesser lvalue rvalue)
  | .equalsGreater lvalue rvalue => some (Op.equalsGreater lvalue rvalue)
  | .equalsLesser lvalue rvalue => some (Op.equalsLesser lvalue rvalue)
  | .like lvalue rvalue => some (Op.like lvalue rvalue)
  | .startswith lvalue rvalue => some (Op.startswith lvalue rvalue)
  | .endswith lvalue rvalue => some (Op.endswith lvalue rvalue)
  | .contains lvalue rvalue => some (Op.contains lvalue rvalue)
  | .isNull lvalue => some (Op.isNull lvalue)
  | .in_ _ _ | .between _ _ _ => none

/-- The result of a factory is seen as that operator, or as none. -/
theorem Factory.view_run (f : Factory) (memory : Option OpType) :
    (f.run memory).1.view = f.operator := by
  cases f <;> rfl

end CodaDb
