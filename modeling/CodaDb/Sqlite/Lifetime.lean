import CodaDb.Sqlite.Objects

/-!
# Lifetimes in the SQLite back end

The counts of the objects are right in every state that a program can reach, and no compiled
statement outlives its connection. So no call reaches an object that is gone, except through a
transaction that was made without a connection: its handles ask for the connection when they are
destroyed.
-/

namespace CodaDb.Sqlite

open Shared Holder

namespace Library

variable {l l' : Library} {db db' stmt stmt' : Nat}

lemma allocated_sqliteOpen :
    l.sqliteOpen.2.Allocated db ↔ l.Allocated db ∨ db = l.sqliteOpen.1 := by
  simp only [Allocated, sqliteOpen, List.getElem?_append]
  split
  · next hlt => exact (or_iff_left (Nat.ne_of_lt hlt)).symm
  · next hge =>
    rw [List.getElem?_eq_none (Nat.not_lt.mp hge)]
    simp only [List.getElem?_singleton]
    constructor
    · intro h
      split at h
      · next heq => exact .inr (by omega)
      · cases h
    · rintro (h | rfl)
      · cases h
      · simp

lemma not_allocated_sqliteOpen_fst : ¬l.Allocated l.sqliteOpen.1 := by
  simp [Allocated, sqliteOpen]

@[simp] lemma compiledOn_sqliteOpen : l.sqliteOpen.2.compiledOn stmt = l.compiledOn stmt := rfl

lemma compiledOn_prepare : (l.prepare db).2.compiledOn stmt =
    if stmt = (l.prepare db).1 then some db else l.compiledOn stmt := by
  rw [compiledOn, prepare, List.getElem?_append, compiledOn]
  by_cases hlt : stmt < l.statements.length
  · rw [if_pos hlt, if_neg (Nat.ne_of_lt hlt)]
  · rw [if_neg hlt]
    by_cases heq : stmt = l.statements.length
    · simp [heq]
    · have hout : l.statements.length < stmt :=
        Nat.lt_of_le_of_ne (Nat.not_lt.mp hlt) (Ne.symm heq)
      rw [if_neg heq, List.getElem?_eq_none (Nat.not_lt.mp hlt), List.getElem?_eq_none]
      exact Nat.sub_pos_of_lt hout

lemma compiledOn_prepare_fst : l.compiledOn (l.prepare db).1 = none := by
  simp [compiledOn, prepare]

@[simp] lemma allocated_prepare : (l.prepare db).2.Allocated db' ↔ l.Allocated db' := Iff.rfl

lemma mem_statements_iff : some db ∈ l.statements ↔ ∃ stmt, l.compiledOn stmt = some db := by
  rw [List.mem_iff_getElem?]
  simp [compiledOn, Option.join_eq_some_iff]

/-- A connection is closed when no statement of it is left, and else stays as it is. -/
lemma sqliteClose_eq (hdb : l.Allocated db) :
    (∃ stmt, l.compiledOn stmt = some db) ∧ l.sqliteClose db = some l ∨
      (∀ stmt, l.compiledOn stmt ≠ some db) ∧
        l.sqliteClose db = some { l with connections := l.connections.set db false } := by
  rw [sqliteClose, if_pos hdb]
  by_cases hbusy : some db ∈ l.statements
  · rw [if_pos hbusy]
    exact .inl ⟨mem_statements_iff.mp hbusy, rfl⟩
  · rw [if_neg hbusy]
    exact .inr ⟨fun stmt h => hbusy (mem_statements_iff.mpr ⟨stmt, h⟩), rfl⟩

lemma allocated_close (hdb : l.Allocated db) :
    ({ l with connections := l.connections.set db false } : Library).Allocated db' ↔
      l.Allocated db' ∧ db' ≠ db := by
  obtain ⟨hlt, -⟩ := List.getElem?_eq_some_iff.mp hdb
  simp only [Allocated, List.getElem?_set]
  by_cases heq : db = db'
  · subst heq
    simp [hlt]
  · simp [heq, Ne.symm heq]

lemma finalize_eq (hstmt : l.compiledOn stmt = some db) (hdb : l.Allocated db) :
    l.finalize stmt = some { l with statements := l.statements.set stmt none } := by
  rw [finalize, hstmt, Option.bind_some, if_pos hdb]

/-- No destructor allocates a connection. -/
lemma allocated_of_destroy {b : Object} (hdestroy : b.destroy l = some l')
    (hdb : l'.Allocated db) : l.Allocated db := by
  cases b with
  | connection db' =>
    simp only [Object.destroy, sqliteClose] at hdestroy
    split at hdestroy
    · next hdb' =>
      split at hdestroy
      · cases hdestroy
        exact hdb
      · cases hdestroy
        exact ((allocated_close hdb').mp hdb).1
    · cases hdestroy
  | compiled stmt =>
    simp only [Object.destroy, finalize, Option.bind_eq_some_iff] at hdestroy
    obtain ⟨db', -, hset⟩ := hdestroy
    split at hset
    · cases hset
      exact hdb
    · cases hset
  | _ =>
    cases hdestroy
    exact hdb

lemma compiledOn_finalize (hstmt : l.compiledOn stmt = some db) :
    ({ l with statements := l.statements.set stmt none } : Library).compiledOn stmt' =
      if stmt' = stmt then none else l.compiledOn stmt' := by
  have hlt : stmt < l.statements.length := by
    obtain ⟨hlt, -⟩ := List.getElem?_eq_some_iff.mp (Option.join_eq_some_iff.mp hstmt)
    exact hlt
  simp only [compiledOn, List.getElem?_set]
  by_cases heq : stmt = stmt'
  · subst heq
    simp [hlt]
  · simp [heq, Ne.symm heq]

end Library

/-- The objects and the library agree: the connections and statements that objects stand for are
there, each for one object, no statement is forgotten and none outlives its connection. Members
point to objects of their class. -/
structure WellFormed (B : Nat → Option Object) (l : Library) : Prop where
  allocated : ∀ stmt db, l.compiledOn stmt = some db → l.Allocated db
  connection : ∀ p db, B p = some (.connection db) → l.Allocated db
  compiled : ∀ p stmt, B p = some (.compiled stmt) → (l.compiledOn stmt).isSome
  connectionOnce : ∀ p q db, B p = some (.connection db) → B q = some (.connection db) → p = q
  compiledOnce : ∀ p q stmt, B p = some (.compiled stmt) → B q = some (.compiled stmt) → p = q
  owned : ∀ stmt db, l.compiledOn stmt = some db → ∃ p, B p = some (.compiled stmt)
  typed : ∀ p b, B p = some b → ∀ m ∈ b.members, ∀ b', B m.2 = some b' → b'.objectClass = m.1

/-- An object that is neither a connection nor a compiled statement. -/
def Object.Plain (b : Object) : Prop := (∀ db, b ≠ .connection db) ∧ ∀ stmt, b ≠ .compiled stmt

namespace WellFormed

variable {B : Nat → Option Object} {l l' : Library} {p : Nat} {b : Object}

/-- The statement of a plain place of memory is not asked for. -/
lemma update_eq_some_iff {o : Option Object} {b' : Object} (hold : B p ≠ some b')
    (hnew : o ≠ some b') (q : Nat) : Function.update B p o q = some b' ↔ B q = some b' := by
  rw [Function.update_apply]
  split
  · next hq => exact iff_of_false hnew (hq ▸ hold)
  · exact Iff.rfl

/-- A change of plain objects. -/
lemma update (hw : WellFormed B l) {o : Option Object} (hold : ∀ b, B p = some b → b.Plain)
    (hnew : ∀ b, o = some b → b.Plain)
    (htyped : ∀ q b, Function.update B p o q = some b → ∀ m ∈ b.members, ∀ b',
      Function.update B p o m.2 = some b' → b'.objectClass = m.1) :
    WellFormed (Function.update B p o) l := by
  have hconnection : ∀ db q, Function.update B p o q = some (.connection db) ↔
      B q = some (.connection db) := fun db q =>
    update_eq_some_iff (fun h => (hold _ h).1 db rfl) (fun h => (hnew _ h).1 db rfl) q
  have hcompiled : ∀ stmt q, Function.update B p o q = some (.compiled stmt) ↔
      B q = some (.compiled stmt) := fun stmt q =>
    update_eq_some_iff (fun h => (hold _ h).2 stmt rfl) (fun h => (hnew _ h).2 stmt rfl) q
  refine ⟨hw.allocated, ?_, ?_, ?_, ?_, ?_, htyped⟩
  · exact fun q db hq => hw.connection q db ((hconnection db q).mp hq)
  · exact fun q stmt hq => hw.compiled q stmt ((hcompiled stmt q).mp hq)
  · exact fun q r db hq hr =>
      hw.connectionOnce q r db ((hconnection db q).mp hq) ((hconnection db r).mp hr)
  · exact fun q r stmt hq hr =>
      hw.compiledOnce q r stmt ((hcompiled stmt q).mp hq) ((hcompiled stmt r).mp hr)
  · intro stmt db hstmt
    obtain ⟨q, hq⟩ := hw.owned stmt db hstmt
    exact ⟨q, (hcompiled stmt q).mpr hq⟩

lemma eq_of_update_none {q : Nat} (h : Function.update B p none q = some b) :
    q ≠ p ∧ B q = some b := by
  rw [Function.update_apply] at h
  split at h
  · cases h
  · next hq => exact ⟨hq, h⟩

/-- Two libraries with the same connections and statements. -/
lemma congr (hw : WellFormed B l) (hstmt : ∀ stmt, l'.compiledOn stmt = l.compiledOn stmt)
    (hdb : ∀ db, l'.Allocated db ↔ l.Allocated db) : WellFormed B l' := by
  refine ⟨fun stmt db h => ?_, fun p db hp => (hdb db).mpr (hw.connection p db hp),
    fun p stmt hp => ?_, hw.connectionOnce, hw.compiledOnce, fun stmt db h => ?_, hw.typed⟩
  · rw [hstmt] at h
    exact (hdb db).mpr (hw.allocated stmt db h)
  · rw [hstmt]
    exact hw.compiled p stmt hp
  · rw [hstmt] at h
    exact hw.owned stmt db h

lemma typed_none (hw : WellFormed B l) : ∀ q b, Function.update B p none q = some b →
    ∀ m ∈ b.members, ∀ b', Function.update B p none m.2 = some b' → b'.objectClass = m.1 :=
  fun q b hq m hm b' hb' =>
    hw.typed q b (eq_of_update_none hq).2 m hm b' (eq_of_update_none hb').2

lemma destroy_connection (hw : WellFormed B l) {db : Nat} (hb : B p = some (.connection db)) :
    ∃ l', l.sqliteClose db = some l' ∧ WellFormed (Function.update B p none) l' := by
  have hdb := hw.connection p db hb
  have hcompiled : ∀ {q stmt}, Function.update B p none q = some (.compiled stmt) ↔
      B q = some (.compiled stmt) := by
    intro q stmt
    refine update_eq_some_iff ?_ (Option.some_ne_none _).symm q
    rw [hb]
    nofun
  have howned : ∀ stmt db, l.compiledOn stmt = some db →
      ∃ q, Function.update B p none q = some (.compiled stmt) := fun stmt db' hstmt => by
    obtain ⟨q, hq⟩ := hw.owned stmt db' hstmt
    exact ⟨q, hcompiled.mpr hq⟩
  have honce : ∀ q r db', Function.update B p none q = some (.connection db') →
      Function.update B p none r = some (.connection db') → q = r := fun q r db' hq hr =>
    hw.connectionOnce q r db' (eq_of_update_none hq).2 (eq_of_update_none hr).2
  have hcompiledOnce : ∀ q r stmt, Function.update B p none q = some (.compiled stmt) →
      Function.update B p none r = some (.compiled stmt) → q = r := fun q r stmt hq hr =>
    hw.compiledOnce q r stmt (hcompiled.mp hq) (hcompiled.mp hr)
  obtain ⟨-, hclose⟩ | ⟨hidle, hclose⟩ := Library.sqliteClose_eq hdb
  · exact ⟨l, hclose, hw.allocated, fun q db' hq => hw.connection q db' (eq_of_update_none hq).2,
      fun q stmt hq => hw.compiled q stmt (hcompiled.mp hq), honce, hcompiledOnce, howned,
      hw.typed_none⟩
  · refine ⟨_, hclose, fun stmt db' hstmt => ?_, fun q db' hq => ?_,
      fun q stmt hq => hw.compiled q stmt (hcompiled.mp hq), honce, hcompiledOnce, howned,
      hw.typed_none⟩
    · refine (Library.allocated_close hdb).mpr ⟨hw.allocated stmt db' hstmt, ?_⟩
      rintro rfl
      exact hidle stmt hstmt
    · obtain ⟨hne, hq⟩ := eq_of_update_none hq
      refine (Library.allocated_close hdb).mpr ⟨hw.connection q db' hq, ?_⟩
      rintro rfl
      exact hne (hw.connectionOnce q p db' hq hb)

lemma destroy_compiled (hw : WellFormed B l) {stmt : Nat} (hb : B p = some (.compiled stmt)) :
    ∃ l', l.finalize stmt = some l' ∧ WellFormed (Function.update B p none) l' := by
  obtain ⟨db, hstmt⟩ := Option.isSome_iff_exists.mp (hw.compiled p stmt hb)
  refine ⟨_, Library.finalize_eq hstmt (hw.allocated stmt db hstmt), fun stmt' db' h => ?_,
    fun q db' hq => hw.connection q db' (eq_of_update_none hq).2, fun q stmt' hq => ?_,
    fun q r db' hq hr =>
      hw.connectionOnce q r db' (eq_of_update_none hq).2 (eq_of_update_none hr).2,
    fun q r stmt' hq hr =>
      hw.compiledOnce q r stmt' (eq_of_update_none hq).2 (eq_of_update_none hr).2,
    fun stmt' db' h => ?_, hw.typed_none⟩
  · rw [Library.compiledOn_finalize hstmt] at h
    split at h
    · cases h
    · exact hw.allocated stmt' db' h
  · obtain ⟨hne, hq⟩ := eq_of_update_none hq
    rw [Library.compiledOn_finalize hstmt, if_neg]
    · exact hw.compiled q stmt' hq
    · rintro rfl
      exact hne (hw.compiledOnce q p stmt' hq hb)
  · rw [Library.compiledOn_finalize hstmt] at h
    split at h
    · cases h
    · next hne =>
      obtain ⟨q, hq⟩ := hw.owned stmt' db' h
      refine ⟨q, (update_eq_some_iff ?_ (Option.some_ne_none _).symm q).mpr hq⟩
      rw [hb]
      rintro ⟨⟩
      exact hne rfl

/-- The destructor of an object is defined. -/
lemma destroy (hw : WellFormed B l) (hb : B p = some b) :
    ∃ l', b.destroy l = some l' ∧ WellFormed (Function.update B p none) l' := by
  have hplain (h : b.Plain) : WellFormed (Function.update B p none) l := by
    refine hw.update (fun b' hb' => ?_) (fun _ h => nomatch h) hw.typed_none
    rw [hb] at hb'
    cases hb'
    exact h
  cases b with
  | connection db => exact hw.destroy_connection hb
  | compiled stmt => exact hw.destroy_compiled hb
  | _ => exact ⟨l, rfl, hplain ⟨nofun, nofun⟩⟩

end WellFormed

/-- The counts are right and the library agrees, when certain pointers are held besides those of
the objects. -/
structure Holds (h : Heap Object) (l : Library) (ext : List Nat) : Prop where
  counted : Counted h ext
  wellFormed : WellFormed h.body l

namespace Holds

variable {h : Heap Object} {l : Library} {ext ext' : List Nat} {p : Nat} {b : Object}

lemma perm (hs : Holds h l ext) (hperm : ext.Perm ext') : Holds h l ext' :=
  ⟨hs.counted.perm hperm, hs.wellFormed⟩

/-- A pointer from outside leads to an object. -/
lemma exists_body (hs : Holds h l ext) (hp : p ∈ ext) : ∃ b, h.body p = some b := by
  obtain ⟨c, hc⟩ := Option.isSome_iff_exists.mp (hs.counted.live p (List.mem_append_right _ hp))
  exact ⟨c.body, Heap.body_eq_some_iff.mpr ⟨c, hc, rfl⟩⟩

/-- A member leads to an object of its class. -/
lemma exists_member (hs : Holds h l ext) (hb : h.body p = some b) {m : ObjectClass × Nat}
    (hm : m ∈ b.members) : ∃ b', h.body m.2 = some b' ∧ b'.objectClass = m.1 := by
  obtain ⟨c, hc, rfl⟩ := Heap.body_eq_some_iff.mp hb
  have hheld : m.2 ∈ h.held := Heap.pointers_subset_held hc (List.mem_map_of_mem hm)
  obtain ⟨c', hc'⟩ := Option.isSome_iff_exists.mp
    (hs.counted.live m.2 (List.mem_append_left _ hheld))
  have hb' := Heap.body_eq_some_iff.mpr ⟨c', hc', rfl⟩
  exact ⟨c'.body, hb', hs.wellFormed.typed p c.body hb m hm _ hb'⟩

lemma find_isSome (hb : h.body p = some b) : (h.find p).isSome := by
  obtain ⟨c, hc, -⟩ := Heap.body_eq_some_iff.mp hb
  simp [hc]

lemma retain (hs : Holds h l ext) (hb : h.body p = some b) : Holds (h.retain p) l (p :: ext) :=
  ⟨hs.counted.retain (find_isSome hb), by rw [Heap.body_retain]; exact hs.wellFormed⟩

/-- No member points to an object that is yet to be made. -/
lemma member_ne_allocate (hs : Holds h l ext) {q : Nat} {b b' : Object} (hb' : h.body q = some b')
    {m : ObjectClass × Nat} (hm : m ∈ b'.members) : m.2 ≠ (h.allocate b).1 := by
  intro heq
  obtain ⟨d, hd, -⟩ := hs.exists_member hb' hm
  rw [heq, Heap.body_allocate_fst] at hd
  cases hd

/-- The members of an object point to objects of their class. -/
def Fitting (h : Heap Object) (b : Object) : Prop :=
  ∀ m ∈ b.members, ∃ b', h.body m.2 = some b' ∧ b'.objectClass = m.1

lemma Fitting.eq (hfitting : Fitting h b) {m : ObjectClass × Nat} (hm : m ∈ b.members)
    {b' : Object} (hb' : h.body m.2 = some b') : b'.objectClass = m.1 := by
  obtain ⟨d, hd, hclass⟩ := hfitting m hm
  rw [hd] at hb'
  cases hb'
  exact hclass

lemma Fitting.mono (hfitting : Fitting h b) {b' : Object} (hsub : b'.members ⊆ b.members) :
    Fitting h b' := fun m hm => hfitting m (hsub hm)

lemma Fitting.retain (hfitting : Fitting h b) (q : Nat) : Fitting (h.retain q) b := by
  rwa [Fitting, Heap.body_retain]

lemma fitting (hs : Holds h l ext) (hb : h.body p = some b) : Fitting h b :=
  fun _ hm => hs.exists_member hb hm

/-- The implementation of a session. -/
lemma exists_impl (hs : Holds h l ext) {impl : Nat} {schemaCache : List (String × Nat)}
    (hb : h.body p = some (.session impl schemaCache)) :
    ∃ db, h.body impl = some (.sessionImpl db) := by
  obtain ⟨b, hb, hclass⟩ :=
    hs.exists_member hb (m := (.sessionImpl, impl)) (by simp [Object.members])
  cases b with
  | sessionImpl db => exact ⟨db, hb⟩
  | _ => cases hclass

/-- The connection of an implementation. -/
lemma exists_connection (hs : Holds h l ext) {q : Nat}
    (hm : (ObjectClass.connection, q) ∈ b.members) (hb : h.body p = some b) :
    ∃ db, h.body q = some (.connection db) := by
  obtain ⟨b, hb, hclass⟩ := hs.exists_member hb hm
  cases b with
  | connection db => exact ⟨db, hb⟩
  | _ => cases hclass

lemma exists_compiled (hs : Holds h l ext) {q : Nat}
    (hm : (ObjectClass.compiled, q) ∈ b.members) (hb : h.body p = some b) :
    ∃ stmt, h.body q = some (.compiled stmt) := by
  obtain ⟨b, hb, hclass⟩ := hs.exists_member hb hm
  cases b with
  | compiled stmt => exact ⟨stmt, hb⟩
  | _ => cases hclass

/-- A new object that is neither a connection nor a compiled statement. -/
lemma allocate (hs : Holds h l (Holder.pointers b ++ ext)) (hplain : b.Plain)
    (hfitting : Fitting h b) : Holds (h.allocate b).2 l ((h.allocate b).1 :: ext) := by
  refine ⟨hs.counted.allocate, ?_⟩
  rw [Heap.body_allocate]
  refine hs.wellFormed.update (fun b' hb' => ?_) (fun b' hb' => ?_) fun q b' hq m hm d hd => ?_
  · rw [Heap.body_allocate_fst] at hb'
    cases hb'
  · cases hb'
    exact hplain
  · have hne : m.2 ≠ (h.allocate b).1 := by
      rw [Function.update_apply] at hq
      split at hq
      · cases hq
        intro heq
        obtain ⟨d, hd⟩ := hs.exists_body
          (List.mem_append_left _ (List.mem_map_of_mem hm))
        rw [heq, Heap.body_allocate_fst] at hd
        cases hd
      · exact hs.member_ne_allocate hq hm
    rw [Function.update_of_ne hne] at hd
    rw [Function.update_apply] at hq
    split at hq
    · cases hq
      exact hfitting.eq hm hd
    · exact hs.wellFormed.typed q b' hq m hm d hd

/-- A plain object changes its members. -/
lemma modify (hs : Holds h l ext) (hb : h.body p = some b) {b' : Object} (hplain : b.Plain)
    (hplain' : b'.Plain) (hclass : b'.objectClass = b.objectClass) (hfitting : Fitting h b')
    (hperm : (Holder.pointers b' ++ ext').Perm (Holder.pointers b ++ ext)) :
    Holds (h.modify p b') l ext' := by
  refine ⟨hs.counted.modify hb hperm, ?_⟩
  rw [Heap.body_modify hb]
  refine hs.wellFormed.update (fun d hd => ?_) (fun d hd => ?_) fun q d hq m hm e he => ?_
  · rw [hb] at hd
    cases hd
    exact hplain
  · cases hd
    exact hplain'
  · -- the class of an object stays, so that a pointer to it still fits
    have hsame : ∃ e', h.body m.2 = some e' ∧ e.objectClass = e'.objectClass := by
      rw [Function.update_apply] at he
      split at he
      · next heq =>
        cases he
        exact ⟨b, heq ▸ hb, hclass⟩
      · exact ⟨e, he, rfl⟩
    obtain ⟨e', he', hclass'⟩ := hsame
    rw [hclass']
    rw [Function.update_apply] at hq
    split at hq
    · cases hq
      exact hfitting.eq hm he'
    · exact hs.wellFormed.typed q d hq m hm e' he'

/-- A release is defined, objects only disappear and no connection is allocated. -/
lemma release {ps : List Nat} (hs : Holds h l (ps ++ ext)) :
    ∃ h' l', Shared.release Object.destroy h l ps = some (h', l') ∧ Holds h' l' ext ∧
      (∀ p, h'.body p = h.body p ∨ h'.body p = none) ∧
      ∀ db, l'.Allocated db → l.Allocated db := by
  have hrule := release_rule Object.destroy
    (fun h' l' _ => WellFormed h'.body l' ∧ (∀ p, h'.body p = h.body p ∨ h'.body p = none) ∧
      ∀ db, l'.Allocated db → l.Allocated db)
    (fun h' l' p ps c _ hI hc _ => by rwa [Heap.body_put_count hc])
    (fun h' l' p ps c _ hI hc _ => ?_) hs.counted
    ⟨hs.wellFormed, fun _ => .inl rfl, fun _ => id⟩
  · obtain ⟨h', l', hrelease, hcounted, hwell, hbody⟩ := hrule
    exact ⟨h', l', hrelease, ⟨hcounted, hwell⟩, hbody⟩
  · obtain ⟨hwell, hbody, hallocated⟩ := hI
    obtain ⟨l'', hdestroy, hwell'⟩ := hwell.destroy (Heap.body_eq_some_iff.mpr ⟨c, hc, rfl⟩)
    refine ⟨l'', hdestroy, ?_, fun q => ?_,
      fun db hdb => hallocated db (Library.allocated_of_destroy hdestroy hdb)⟩
    · rwa [Heap.body_put_none hc]
    · rw [Heap.body_put_none hc, Function.update_apply]
      split
      · exact .inr rfl
      · exact hbody q

lemma body_allocate_eq_some {q : Nat} {b' : Object} (h' : (h.allocate b).2.body q = some b') :
    q = (h.allocate b).1 ∧ b' = b ∨ q ≠ (h.allocate b).1 ∧ h.body q = some b' := by
  rw [Heap.body_allocate, Function.update_apply] at h'
  split at h'
  · next hq => exact .inl ⟨hq, (Option.some.inj h').symm⟩
  · next hq => exact .inr ⟨hq, h'⟩

lemma body_allocate_of {q : Nat} {b' : Object} (h' : h.body q = some b') :
    (h.allocate b).2.body q = some b' := by
  rw [Heap.body_allocate, Function.update_of_ne, h']
  rintro rfl
  rw [Heap.body_allocate_fst] at h'
  cases h'

lemma typed_allocate (hs : Holds h l ext) (hmembers : b.members = []) :
    ∀ q b', (h.allocate b).2.body q = some b' → ∀ m ∈ b'.members, ∀ d,
      (h.allocate b).2.body m.2 = some d → d.objectClass = m.1 := by
  intro q b' hq m hm d hd
  obtain ⟨-, rfl⟩ | ⟨-, hq⟩ := body_allocate_eq_some hq
  · rw [hmembers] at hm
    cases hm
  · obtain ⟨heq, -⟩ | ⟨-, hd⟩ := body_allocate_eq_some hd
    · exact absurd heq (hs.member_ne_allocate hq hm)
    · exact hs.wellFormed.typed q b' hq m hm d hd

/-- A connection is opened, and an object made that stands for it. -/
lemma openConnection (hs : Holds h l ext) :
    Holds (h.allocate (.connection l.sqliteOpen.1)).2 l.sqliteOpen.2
      ((h.allocate (.connection l.sqliteOpen.1)).1 :: ext) := by
  have hw := hs.wellFormed
  refine ⟨hs.counted.allocate, fun stmt db hstmt => ?_, fun p db hp => ?_, fun p stmt hp => ?_,
    fun p q db hp hq => ?_, fun p q stmt hp hq => ?_, fun stmt db hstmt => ?_,
    hs.typed_allocate rfl⟩
  · exact Library.allocated_sqliteOpen.mpr (.inl (hw.allocated stmt db hstmt))
  · obtain ⟨-, heq⟩ | ⟨-, hp⟩ := body_allocate_eq_some hp
    · cases heq
      exact Library.allocated_sqliteOpen.mpr (.inr rfl)
    · exact Library.allocated_sqliteOpen.mpr (.inl (hw.connection p db hp))
  · obtain ⟨-, heq⟩ | ⟨-, hp⟩ := body_allocate_eq_some hp
    · cases heq
    · exact hw.compiled p stmt hp
  · -- the new connection is not one of those before
    obtain ⟨rfl, heq⟩ | ⟨-, hp⟩ := body_allocate_eq_some hp
    · cases heq
      obtain ⟨rfl, -⟩ | ⟨-, hq⟩ := body_allocate_eq_some hq
      · rfl
      · exact absurd (hw.connection q _ hq) Library.not_allocated_sqliteOpen_fst
    · obtain ⟨rfl, heq⟩ | ⟨-, hq⟩ := body_allocate_eq_some hq
      · cases heq
        exact absurd (hw.connection p _ hp) Library.not_allocated_sqliteOpen_fst
      · exact hw.connectionOnce p q db hp hq
  · obtain ⟨-, heq⟩ | ⟨-, hp⟩ := body_allocate_eq_some hp
    · cases heq
    · obtain ⟨-, heq⟩ | ⟨-, hq⟩ := body_allocate_eq_some hq
      · cases heq
      · exact hw.compiledOnce p q stmt hp hq
  · obtain ⟨p, hp⟩ := hw.owned stmt db hstmt
    exact ⟨p, body_allocate_of hp⟩

/-- A connection that nothing points to. -/
lemma sqliteOpen (hs : Holds h l ext) : Holds h l.sqliteOpen.2 ext := by
  refine ⟨hs.counted, fun stmt db hstmt => ?_, fun p db hp => ?_, hs.wellFormed.compiled,
    hs.wellFormed.connectionOnce, hs.wellFormed.compiledOnce, hs.wellFormed.owned,
    hs.wellFormed.typed⟩
  · exact Library.allocated_sqliteOpen.mpr (.inl (hs.wellFormed.allocated stmt db hstmt))
  · exact Library.allocated_sqliteOpen.mpr (.inl (hs.wellFormed.connection p db hp))

/-- A statement is compiled, and an object made that stands for it. -/
lemma compile {db : Nat} (hs : Holds h l ext) (hdb : l.Allocated db) :
    Holds (h.allocate (.compiled (l.prepare db).1)).2 (l.prepare db).2
      ((h.allocate (.compiled (l.prepare db).1)).1 :: ext) := by
  have hw := hs.wellFormed
  have hnew : ∀ p, h.body p ≠ some (.compiled (l.prepare db).1) := fun p hp => by
    have hsome := hw.compiled p _ hp
    rw [Library.compiledOn_prepare_fst] at hsome
    cases hsome
  refine ⟨hs.counted.allocate, fun stmt db' hstmt => ?_, fun p db' hp => ?_, fun p stmt hp => ?_,
    fun p q db' hp hq => ?_, fun p q stmt hp hq => ?_, fun stmt db' hstmt => ?_,
    hs.typed_allocate rfl⟩
  · rw [Library.compiledOn_prepare] at hstmt
    split at hstmt
    · cases hstmt
      exact hdb
    · exact hw.allocated stmt db' hstmt
  · obtain ⟨-, heq⟩ | ⟨-, hp⟩ := body_allocate_eq_some hp
    · cases heq
    · exact hw.connection p db' hp
  · rw [Library.compiledOn_prepare]
    split
    · rfl
    · next hne =>
      obtain ⟨-, heq⟩ | ⟨-, hp⟩ := body_allocate_eq_some hp
      · cases heq
        exact absurd rfl hne
      · exact hw.compiled p stmt hp
  · obtain ⟨-, heq⟩ | ⟨-, hp⟩ := body_allocate_eq_some hp
    · cases heq
    · obtain ⟨-, heq⟩ | ⟨-, hq⟩ := body_allocate_eq_some hq
      · cases heq
      · exact hw.connectionOnce p q db' hp hq
  · obtain ⟨rfl, heq⟩ | ⟨-, hp⟩ := body_allocate_eq_some hp
    · cases heq
      obtain ⟨rfl, -⟩ | ⟨-, hq⟩ := body_allocate_eq_some hq
      · rfl
      · exact absurd hq (hnew q)
    · obtain ⟨rfl, heq⟩ | ⟨-, hq⟩ := body_allocate_eq_some hq
      · cases heq
        exact absurd hp (hnew p)
      · exact hw.compiledOnce p q stmt hp hq
  · rw [Library.compiledOn_prepare] at hstmt
    split at hstmt
    · next heq =>
      exact ⟨(h.allocate (.compiled (l.prepare db).1)).1, by
        rw [heq, Heap.body_allocate, Function.update_self]⟩
    · obtain ⟨p, hp⟩ := hw.owned stmt db' hstmt
      exact ⟨p, body_allocate_of hp⟩

end Holds

/-- A program with the right counts. -/
def Program.Sound (s : Program) : Prop := Holds s.heap s.library s.held

namespace Program

variable {s : Program} {p : Nat} {b : Object} {c : Call}

lemma object_eq_some_iff : s.object p = some b ↔ p ∈ s.held ∧ s.heap.body p = some b := by
  rw [object]
  split
  · next hp => exact (and_iff_right hp).symm
  · next hp => exact iff_of_false nofun fun h => hp h.1

lemma share_sound (hs : s.Sound) (hb : s.heap.body p = some b) : (s.share p).Sound :=
  Holds.retain hs hb

lemma make_sound (hs : Holds s.heap s.library (Holder.pointers b ++ s.held)) (hplain : b.Plain)
    (hfitting : Holds.Fitting s.heap b) : (s.make b).Sound :=
  hs.allocate hplain hfitting

lemma release_sound {ps : List Nat} (hs : Holds s.heap s.library (ps ++ s.held)) :
    ∃ s', s.release ps = some s' ∧ s'.Sound := by
  obtain ⟨h, l, hrelease, hholds, -⟩ := hs.release
  refine ⟨{ s with heap := h, library := l }, ?_, hholds⟩
  rw [Program.release, hrelease, Option.map_some]

variable {impl : Nat} {db : Option Nat}

lemma openSession_sound (hs : s.Sound) (result : Opened) : (s.openSession impl result).Sound := by
  fun_cases Program.openSession s impl result
  · next hb r c =>
    refine (Holds.openConnection hs).modify (b := .sessionImpl none) ?_ ⟨nofun, nofun⟩
      ⟨nofun, nofun⟩ rfl ?_ (List.Perm.refl _)
    · exact Holds.body_allocate_of hb
    · intro m hm
      obtain rfl : m = (.connection, c.1) := by simpa [Object.members] using hm
      exact ⟨_, by rw [Heap.body_allocate, Function.update_self], rfl⟩
  · exact Holds.sqliteOpen hs
  · exact hs

lemma closeSession_holds (hs : s.Sound) {q : Nat}
    (hb : s.heap.body impl = some (.sessionImpl (some q))) :
    Holds (s.heap.modify impl (.sessionImpl none)) s.library ([q] ++ s.held) :=
  Holds.modify hs hb ⟨nofun, nofun⟩ ⟨nofun, nofun⟩ rfl (fun _ hm => nomatch hm) (List.Perm.refl _)

lemma closeSession_sound (hs : s.Sound) : ∃ s', s.closeSession impl = some s' ∧ s'.Sound := by
  fun_cases Program.closeSession s impl
  · next q hb => exact release_sound (s := { s with heap := _ }) (closeSession_holds hs hb)
  · exact ⟨s, rfl, hs⟩

lemma getSchema_sound {schemaCache : List (String × Nat)} (hs : s.Sound)
    (hb : s.heap.body p = some (.session impl schemaCache)) (tableName : String) :
    (s.getSchema p impl schemaCache tableName).Sound := by
  have hfitting := Holds.fitting hs hb
  fun_cases Program.getSchema s p impl schemaCache tableName
  · next q hlookup =>
    have hm : (ObjectClass.schema, q) ∈ (Object.session impl schemaCache).members := by
      obtain ⟨before, after, rfl, -⟩ := List.lookup_eq_some_iff.mp hlookup
      simp [Object.members]
    obtain ⟨b, hq, -⟩ := hfitting _ hm
    exact share_sound hs hq
  · exact hs
  · next c =>
    -- the schema takes a copy of the pointer to the session, the cache one of that to the schema
    have hretain := Holds.retain hs hb
    have hallocate : Holds c.2 s.library (c.1 :: s.held) := by
      refine Holds.allocate (b := .schema p) hretain ⟨nofun, nofun⟩ fun m hm => ?_
      obtain rfl : m = (.session, p) := by simpa [Object.members] using hm
      exact ⟨_, by rw [Heap.body_retain]; exact hb, rfl⟩
    have hschema : c.2.body c.1 = some (.schema p) := by
      rw [Heap.body_allocate, Function.update_self]
    have hsession : c.2.body p = some (.session impl schemaCache) :=
      Holds.body_allocate_of (by rw [Heap.body_retain]; exact hb)
    refine (hallocate.retain hschema).modify (b := .session impl schemaCache) ?_ ⟨nofun, nofun⟩
      ⟨nofun, nofun⟩ rfl (fun m hm => ?_) ?_
    · rw [Heap.body_retain]
      exact hsession
    · rw [Heap.body_retain]
      obtain rfl | hm := List.mem_cons.mp hm
      · exact ⟨_, hschema, rfl⟩
      · exact hallocate.fitting hsession m hm
    · exact List.perm_middle.symm

lemma pointers_session (impl : Nat) (schemaCache : List (String × Nat)) :
    Holder.pointers (Object.session impl schemaCache) = schemaCache.map Prod.snd ++ [impl] := by
  simp [Holder.pointers, Object.members, Function.comp_def]

/-- What is erased of a cache goes from the session to the outside. -/
lemma perm_clear (impl : Nat) (schemaCache : List (String × Nat)) (tableName : String)
    (held : List Nat) :
    (Holder.pointers (Object.session impl (schemaCache.filter fun e => e.1 ≠ tableName)) ++
      ((schemaCache.filter fun e => e.1 = tableName).map Prod.snd ++ held)).Perm
    (Holder.pointers (Object.session impl schemaCache) ++ held) := by
  have hsplit := (List.filter_append_perm (fun e => decide (e.1 = tableName)) schemaCache).map
    Prod.snd
  refine List.perm_iff_count.mpr fun q => ?_
  have hcount := hsplit.count_eq q
  simp only [pointers_session, List.map_append, List.count_append, decide_not] at hcount ⊢
  omega

lemma clearSchema_holds {schemaCache : List (String × Nat)} (hs : s.Sound)
    (hb : s.heap.body p = some (.session impl schemaCache)) (tableName : String) :
    Holds (s.heap.modify p (.session impl (schemaCache.filter fun e => e.1 ≠ tableName))) s.library
      ((schemaCache.filter fun e => e.1 = tableName).map Prod.snd ++ s.held) := by
  refine Holds.modify hs hb ⟨nofun, nofun⟩ ⟨nofun, nofun⟩ rfl ?_ ?_
  · refine (Holds.fitting hs hb).mono fun m hm => ?_
    simp only [Object.members, List.mem_append, List.mem_map, List.mem_filter] at hm ⊢
    obtain ⟨e, ⟨he, -⟩, rfl⟩ | hm := hm
    · exact .inl ⟨e, he, rfl⟩
    · exact .inr hm
  · exact perm_clear impl schemaCache _ s.held

lemma connectionOf_eq_some_iff {c : Nat} : s.connectionOf impl = some c ↔
    ∃ q, s.heap.body impl = some (.sessionImpl (some q)) ∧
      s.heap.body q = some (.connection c) := by
  rw [Program.connectionOf]
  split
  · next q hq =>
    constructor
    · intro h
      split at h
      · next db hdb =>
        cases h
        exact ⟨q, hq, hdb⟩
      · cases h
    · rintro ⟨q', hq', hc⟩
      rw [hq] at hq'
      cases hq'
      rw [hc]
  · next hnone => exact iff_of_false nofun fun ⟨q, hq, _⟩ => hnone q hq

lemma connectionOf_allocated (hs : s.Sound) {c : Nat} (hc : s.connectionOf impl = some c) :
    s.library.Allocated c := by
  obtain ⟨q, -, hq⟩ := connectionOf_eq_some_iff.mp hc
  exact hs.wellFormed.connection q c hq

lemma compile_holds (hs : s.Sound) {c : Nat} (hc : s.library.Allocated c) :
    Holds (s.compile c).2.heap (s.compile c).2.library ((s.compile c).1 :: s.held) :=
  Holds.compile hs hc

lemma body_compile (s : Program) (c : Nat) :
    (s.compile c).2.heap.body (s.compile c).1 = some (.compiled (s.library.prepare c).1) := by
  rw [Program.compile, Heap.body_allocate, Function.update_self]

lemma body_compile_of {c q : Nat} (hq : s.heap.body q = some b) :
    (s.compile c).2.heap.body q = some b :=
  Holds.body_allocate_of hq

lemma prepare_sound {sess : Nat} {stmt : Option Nat} (hs : s.Sound)
    (hb : s.heap.body p = some (.statement sess stmt)) (result : Compiled) :
    ∃ s', s.prepare p sess stmt result = some s' ∧ s'.Sound := by
  fun_cases Program.prepare s p sess stmt result
  · exact ⟨s, rfl, hs⟩
  · exact ⟨s, rfl, hs⟩
  · next db hconnection hdb _ c =>
    have hcompile := compile_holds hs hdb
    refine ⟨_, rfl, hcompile.modify (body_compile_of hb) ⟨nofun, nofun⟩ ⟨nofun, nofun⟩ rfl
      (fun m hm => ?_) ?_⟩
    · obtain rfl | hm := List.mem_cons.mp hm
      · exact ⟨_, body_compile s db, rfl⟩
      · exact hcompile.fitting (body_compile_of hb) m hm
    · exact List.perm_middle.symm
  · exact ⟨s, rfl, hs⟩
  · next hconnection hnot => exact absurd (connectionOf_allocated hs hconnection) hnot

lemma sessionQuery_sound (hs : s.Sound) (result : Compiled) :
    ∃ s', s.sessionQuery impl result = some s' ∧ s'.Sound := by
  fun_cases Program.sessionQuery s impl result
  · exact ⟨s, rfl, hs⟩
  · next db hconnection hdb _ c =>
    obtain ⟨q, himpl, -⟩ := connectionOf_eq_some_iff.mp hconnection
    have hretain := (compile_holds hs hdb).retain (body_compile_of himpl)
    refine ⟨_, rfl, make_sound (s := c.2.retain impl) hretain ⟨nofun, nofun⟩ fun m hm => ?_⟩
    rw [Program.retain, Heap.body_retain]
    obtain rfl | rfl : m = (.sessionImpl, impl) ∨ m = (.compiled, c.1) := by
      simpa [Object.members] using hm
    · exact ⟨_, body_compile_of himpl, rfl⟩
    · exact ⟨_, body_compile s db, rfl⟩
  · exact ⟨s, rfl, hs⟩
  · next hconnection hnot => exact absurd (connectionOf_allocated hs hconnection) hnot

lemma sessionExecute_sound (hs : s.Sound) (result : Compiled) :
    ∃ s', s.sessionExecute impl result = some s' ∧ s'.Sound := by
  fun_cases Program.sessionExecute s impl result
  · exact ⟨s, rfl, hs⟩
  · next db hconnection hdb _ r =>
    have hcompiled : r.2.compiledOn r.1 = some db := by
      rw [Library.compiledOn_prepare, if_pos rfl]
    rw [Library.finalize_eq hcompiled hdb, Option.map_some]
    refine ⟨_, rfl, hs.counted, hs.wellFormed.congr (fun stmt => ?_) fun _ => Iff.rfl⟩
    -- the statement is there only for the call
    rw [Library.compiledOn_finalize hcompiled]
    split
    · next heq => rw [heq, Library.compiledOn_prepare_fst]
    · next hne => rw [Library.compiledOn_prepare, if_neg hne]
  · exact ⟨s, rfl, hs⟩
  · next hconnection hnot => exact absurd (connectionOf_allocated hs hconnection) hnot

lemma createTransaction_sound (hs : s.Sound) {schemaCache : List (String × Nat)}
    (hb : s.heap.body p = some (.session impl schemaCache)) :
    (s.createTransaction p impl).Sound := by
  fun_cases Program.createTransaction s p impl
  · next db himpl =>
    have hfitting := Holds.fitting hs himpl
    cases db with
    | none =>
      have hmake := make_sound (b := .transaction none) hs ⟨nofun, nofun⟩ (fun _ hm => nomatch hm)
      exact share_sound hmake (Holds.body_allocate_of hb)
    | some q =>
      obtain ⟨c, hc⟩ := Holds.exists_connection hs (q := q) (by simp [Object.members]) himpl
      have hretain := Holds.retain hs hc
      have hmake := make_sound (s := s.retain q) (b := .transaction (some q)) hretain
        ⟨nofun, nofun⟩ (hfitting.retain q)
      have hsession : (s.retain q).heap.body p = some (.session impl schemaCache) := by
        rw [Program.retain, Heap.body_retain]
        exact hb
      exact share_sound hmake (Holds.body_allocate_of hsession)
  · exact hs

lemma useCompiled_eq (hs : s.Sound) (hb : s.heap.body p = some b) {q : Nat}
    (hm : (ObjectClass.compiled, q) ∈ b.members) : s.useCompiled q = some () := by
  obtain ⟨stmt, hq⟩ := Holds.exists_compiled hs hm hb
  obtain ⟨db, hdb⟩ := Option.isSome_iff_exists.mp (hs.wellFormed.compiled q stmt hq)
  simp only [Program.useCompiled, hq, Library.useStatement, hdb, Option.bind_some]
  exact if_pos (hs.wellFormed.allocated stmt db hdb)

lemma useDb_eq (hs : s.Sound) (hb : s.heap.body p = some b) {q : Nat}
    (hm : (ObjectClass.connection, q) ∈ b.members) : s.useDb q = some () := by
  obtain ⟨db, hq⟩ := Holds.exists_connection hs hm hb
  simp only [Program.useDb, hq]
  exact if_pos (hs.wellFormed.connection q db hq)

/-- A call on an object finds what it uses, unless it is a transaction without a connection. -/
lemma access_eq (hs : s.Sound) (hb : s.heap.body p = some b) (hne : b ≠ .transaction none) :
    s.access b = some () := by
  fun_cases Program.access s b
  · exact useCompiled_eq hs hb (by simp [Object.members])
  · exact useCompiled_eq hs hb (by simp [Object.members])
  · exact useCompiled_eq hs hb (by simp [Object.members])
  · exact useCompiled_eq hs hb (by simp [Object.members])
  · next impl _ =>
    cases hc : s.connectionOf impl with
    | none => rfl
    | some db => exact if_pos (connectionOf_allocated hs hc)
  · exact useDb_eq hs hb (by simp [Object.members])
  · exact useDb_eq hs hb (by simp [Object.members])
  · exact absurd rfl hne
  · rfl

lemma createSession_sound (hs : s.Sound) : s.createSession.Sound := by
  have himpl : Holds (s.heap.allocate (.sessionImpl none)).2 s.library
      ((s.heap.allocate (.sessionImpl none)).1 :: s.held) :=
    Holds.allocate hs ⟨nofun, nofun⟩ fun _ hm => nomatch hm
  refine himpl.allocate (b := .session _ []) ⟨nofun, nofun⟩ fun m hm => ?_
  obtain rfl : m = (.sessionImpl, (s.heap.allocate (.sessionImpl none)).1) := by
    simpa [Object.members] using hm
  exact ⟨_, by rw [Heap.body_allocate, Function.update_self], rfl⟩

/-- A statement of an object is taken over by an object that holds it with the session. -/
lemma make_results_sound (hs : s.Sound) (hb : s.heap.body p = some b) {b' : Object} {q sess : Nat}
    (hmembers : b'.members = [(.sessionImpl, sess), (.compiled, q)]) (hplain : b'.Plain)
    (hsub : b'.members ⊆ b.members) : (((s.retain q).retain sess).make b').Sound := by
  have hfitting := (Holds.fitting hs hb).mono hsub
  obtain ⟨d, hq, -⟩ := hfitting (.compiled, q) (by simp [hmembers])
  obtain ⟨e, hsess, -⟩ := hfitting (.sessionImpl, sess) (by simp [hmembers])
  have hretain := (Holds.retain hs hq).retain (by rw [Heap.body_retain]; exact hsess)
  refine make_sound ?_ hplain ((hfitting.retain q).retain sess)
  rw [show Holder.pointers b' = [sess, q] by simp [Holder.pointers, hmembers]]
  exact hretain

lemma createStatement_sound (hs : s.Sound) (himpl : s.heap.body impl = some (.sessionImpl db)) :
    ((s.retain impl).make (.statement impl none)).Sound := by
  refine make_sound (s := s.retain impl) (Holds.retain hs himpl) ⟨nofun, nofun⟩ fun m hm => ?_
  obtain rfl : m = (.sessionImpl, impl) := by simpa [Object.members] using hm
  exact ⟨_, by rw [Program.retain, Heap.body_retain]; exact himpl, rfl⟩

lemma finish_holds {sess q : Nat} (hs : s.Sound)
    (hb : s.heap.body p = some (.statement sess (some q))) :
    Holds (s.heap.modify p (.statement sess none)) s.library ([q] ++ s.held) := by
  refine Holds.modify hs hb ⟨nofun, nofun⟩ ⟨nofun, nofun⟩ rfl ((Holds.fitting hs hb).mono ?_) ?_
  · simp [Object.members]
  · exact List.perm_middle

lemma drop_holds (hs : s.Sound) (hp : p ∈ s.held) :
    Holds s.heap s.library ([p] ++ s.held.erase p) :=
  Holds.perm hs (List.perm_cons_erase hp)

/-- A handle finds the connection that it asks, unless it has none. -/
lemma leave_eq (hs : s.Sound) (hb : s.heap.body p = some b) (hne : b ≠ .transaction none) :
    s.leave b = some () := by
  cases b with
  | transaction db => exact access_eq hs hb hne
  | _ => rfl

lemma perform_sound (hs : s.Sound) (hb : s.object p = some b)
    (hc : ¬((c = .access ∨ c = .drop) ∧ b = .transaction none)) :
    ∃ s', s.perform p c b = some s' ∧ s'.Sound := by
  obtain ⟨hp, hb⟩ := object_eq_some_iff.mp hb
  fun_cases Program.perform s p c b
  · exact ⟨_, rfl, openSession_sound hs _⟩
  · exact ⟨_, rfl, openSession_sound hs _⟩
  · exact closeSession_sound hs
  · exact closeSession_sound hs
  · exact ⟨_, rfl, getSchema_sound hs hb _⟩
  · exact release_sound (s := { s with heap := _ }) (clearSchema_holds hs hb _)
  · obtain ⟨db, himpl⟩ := Holds.exists_impl hs hb
    exact ⟨_, rfl, createStatement_sound hs himpl⟩
  · exact ⟨_, rfl, createStatement_sound hs hb⟩
  · exact prepare_sound hs hb _
  · exact release_sound (s := { s with heap := _ }) (finish_holds hs hb)
  · exact ⟨_, rfl, make_results_sound hs hb rfl ⟨nofun, nofun⟩ (by simp [Object.members])⟩
  · exact sessionQuery_sound hs _
  · exact sessionQuery_sound hs _
  · exact sessionExecute_sound hs _
  · exact sessionExecute_sound hs _
  · exact ⟨_, rfl, make_results_sound hs hb rfl ⟨nofun, nofun⟩ (by simp [Object.members])⟩
  · next q sess _ =>
    obtain ⟨b, hq, -⟩ := Holds.exists_member hs hb (m := (.compiled, q)) (by simp [Object.members])
    have hfitting : Holds.Fitting s.heap (.column q) :=
      (Holds.fitting hs hb).mono (by simp [Object.members])
    exact ⟨_, rfl, make_sound (s := s.retain q) (b := .column q) (Holds.retain hs hq)
      ⟨nofun, nofun⟩ (hfitting.retain q)⟩
  · exact ⟨_, rfl, createTransaction_sound hs hb⟩
  · rw [access_eq hs hb fun heq => hc ⟨.inl rfl, heq⟩]
    exact ⟨s, rfl, hs⟩
  · obtain ⟨db, himpl⟩ := Holds.exists_impl hs hb
    exact ⟨_, rfl, share_sound hs himpl⟩
  · next sess _ =>
    obtain ⟨b, hq, -⟩ := Holds.exists_member hs hb (m := (.session, sess))
      (by simp [Object.members])
    exact ⟨_, rfl, share_sound hs hq⟩
  · exact ⟨_, rfl, share_sound hs hb⟩
  · rw [leave_eq hs hb fun heq => hc ⟨.inr rfl, heq⟩, Option.bind_some]
    exact release_sound (s := { s with held := s.held.erase p }) (drop_holds hs hp)
  · exact ⟨s, rfl, hs⟩

@[simp] lemma body_empty (p : Nat) : (⟨[]⟩ : Heap Object).body p = none := by
  simp [Heap.body, Heap.find]

lemma sound_empty : Program.Sound {} := by
  have hfind : ∀ p, (⟨[]⟩ : Heap Object).find p = none := fun p => by simp [Heap.find]
  refine ⟨⟨fun p c hp => ?_, fun p hp => by simp [Heap.held] at hp, fun p c hp => ?_⟩,
    fun stmt db h => ?_,
    ?_, ?_, ?_, ?_, fun stmt db h => ?_, ?_⟩
  · rw [hfind] at hp
    cases hp
  · rw [hfind] at hp
    cases hp
  · simp [Library.compiledOn] at h
  · simp
  · simp
  · simp
  · simp
  · simp [Library.compiledOn] at h
  · simp

end Program

/-- A transaction that was made on a closed session is used, or a handle of it destroyed. -/
def UsesNullConnection (s : Program) (op : ObjectOp) : Prop :=
  ∃ p c, op = .call p c ∧ (c = .access ∨ c = .drop) ∧ s.object p = some (.transaction none)

/-- Everything a program does is defined, but for that. -/
lemma step?_sound {s : Program} {op : ObjectOp} (hs : s.Sound) (hop : ¬UsesNullConnection s op) :
    ∃ s', s.step? op = some s' ∧ s'.Sound := by
  fun_cases Program.step? s op
  · exact ⟨_, rfl, Program.createSession_sound hs⟩
  · exact ⟨s, rfl, hs⟩
  · next p c b hb =>
    refine Program.perform_sound hs hb ?_
    rintro ⟨hc, rfl⟩
    exact hop ⟨p, c, rfl, hc, hb⟩

lemma step?_eq_none {s : Program} {op : ObjectOp} (hop : UsesNullConnection s op) :
    s.step? op = none := by
  obtain ⟨p, c, rfl, rfl | rfl, hb⟩ := hop
  · simp only [Program.step?, hb]
    rfl
  · simp only [Program.step?, hb]
    rfl

/-- The counts are right after every step. -/
lemma step_sound (s : Program) (op : ObjectOp) (hs : s.Sound) :
    (objectMachine.step s op).1.Sound := by
  by_cases hop : UsesNullConnection s op
  · simp only [objectMachine, step?_eq_none hop]
    exact hs
  · obtain ⟨s', hs', hsound⟩ := step?_sound hs hop
    simp only [objectMachine, hs']
    exact hsound

/-- The counts are right in every state of a run. -/
lemma run_sound (ops : List ObjectOp) : (objectMachine.run {} ops).1.Sound :=
  objectMachine.run_invariant Program.Sound step_sound Program.sound_empty ops

/-- In every run every call finds the objects it uses, no object is destroyed twice and no statement
is finalized after its connection, as long as no transaction that was made on a closed session is
used and no handle of one destroyed; with one the behaviour is undefined. -/
theorem runs_defined_iff (ops : List ObjectOp) :
    (objectMachine.run {} ops).2 = [] ↔
      objectMachine.Along (fun s op => ¬UsesNullConnection s op) {} ops := by
  have hiff := objectMachine.along_iff (fun s op => ¬UsesNullConnection s op) Program.Sound
    (fun _ => False) (fun s op hs => ?_) Program.sound_empty ops
  · rw [hiff, List.eq_nil_iff_forall_not_mem]
    exact (and_iff_right fun n => run_sound _).symm
  · constructor
    · intro hop
      obtain ⟨s', hs', hsound⟩ := step?_sound hs hop
      simp only [objectMachine, hs']
      exact ⟨hsound, fun _ h => nomatch h⟩
    · rintro ⟨-, hnone⟩ hop
      simp only [objectMachine, step?_eq_none hop] at hnone
      exact hnone .undefined (List.mem_singleton_self _)

end CodaDb.Sqlite
