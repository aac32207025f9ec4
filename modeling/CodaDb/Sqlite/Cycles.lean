import CodaDb.Sqlite.Connections

/-!
# Sessions that are never destroyed

A schema points to its session, and the session keeps the schemas it handed out. So a session with a
schema in its cache holds itself, whatever the program lets go of.
-/

namespace CodaDb.Sqlite

open Shared Holder

/-- The classes in the order in which they hold each other, but for the cached schemas. -/
def ObjectClass.rank : ObjectClass → Nat
  | .connection => 0
  | .compiled => 0
  | .sessionImpl => 1
  | .transaction => 1
  | .column => 1
  | .session => 2
  | .statement => 2
  | .resultset => 2
  | .row => 2
  | .schema => 3

/-- A session has a schema in its cache. -/
def Object.Caches (b : Object) : Prop := ∃ impl schemaCache, b = .session impl schemaCache ∧
  schemaCache ≠ []

lemma Object.rank_lt {b : Object} (hb : ¬b.Caches) {m : ObjectClass × Nat} (hm : m ∈ b.members) :
    m.1.rank < b.objectClass.rank := by
  cases b with
  | connection db => cases hm
  | compiled stmt => cases hm
  | sessionImpl db =>
    obtain ⟨q, -, rfl⟩ := List.mem_map.mp hm
    exact Nat.zero_lt_one
  | session impl schemaCache =>
    have hnil : schemaCache = [] := by
      by_contra hne
      exact hb ⟨impl, schemaCache, rfl, hne⟩
    subst hnil
    rw [List.mem_singleton.mp hm]
    exact Nat.one_lt_two
  | schema sess =>
    rw [List.mem_singleton.mp hm]
    exact Nat.lt_succ_self 2
  | statement sess stmt =>
    obtain hm | hm := List.mem_append.mp hm
    · obtain ⟨q, -, rfl⟩ := List.mem_map.mp hm
      exact Nat.zero_lt_two
    · rw [List.mem_singleton.mp hm]
      exact Nat.one_lt_two
  | column r =>
    rw [List.mem_singleton.mp hm]
    exact Nat.zero_lt_one
  | transaction db =>
    obtain ⟨q, -, rfl⟩ := List.mem_map.mp hm
    exact Nat.zero_lt_one
  | resultset r sess =>
    obtain rfl | hm := List.mem_cons.mp hm
    · exact Nat.one_lt_two
    · rw [List.mem_singleton.mp hm]
      exact Nat.zero_lt_two
  | row r sess =>
    obtain rfl | hm := List.mem_cons.mp hm
    · exact Nat.one_lt_two
    · rw [List.mem_singleton.mp hm]
      exact Nat.zero_lt_two

/-- When the program has let go of all its pointers, everything is destroyed and every statement
finalized, unless a session has a schema in its cache. -/
theorem released_iff (ops : List ObjectOp) (hheld : (objectMachine.run {} ops).1.held = []) :
    ((∀ p, (objectMachine.run {} ops).1.heap.body p = none) ∧
        ∀ stmt, (objectMachine.run {} ops).1.library.compiledOn stmt = none) ↔
      ∀ p b, (objectMachine.run {} ops).1.heap.body p = some b → ¬b.Caches := by
  have hs := run_sound ops
  constructor
  · rintro ⟨hnone, -⟩ p b hb
    rw [hnone p] at hb
    cases hb
  · intro hcaches
    have hcounted := hs.counted
    rw [hheld] at hcounted
    have hnone := hcounted.body_eq_none (fun b => b.objectClass.rank) fun q b' hq p hp b hb => by
      obtain ⟨m, hm, rfl⟩ := List.mem_map.mp hp
      rw [hs.wellFormed.typed q b' hq m hm b hb]
      exact Object.rank_lt (hcaches q b' hq) hm
    refine ⟨hnone, fun stmt => ?_⟩
    cases hstmt : (objectMachine.run {} ops).1.library.compiledOn stmt with
    | none => rfl
    | some db =>
      obtain ⟨p, hp⟩ := hs.wellFormed.owned stmt db hstmt
      rw [hnone p] at hp
      cases hp

/-- A program that makes a session and a result set and lets go of both. -/
def lettingGo : List ObjectOp :=
  [.createSession, .call 1 (.openSession .ok), .call 1 (.sessionQuery .ok), .call 1 .drop,
    .call 4 .drop]

theorem released_lettingGo :
    (objectMachine.run {} lettingGo).1.held = [] ∧
      (((∀ p, (objectMachine.run {} lettingGo).1.heap.body p = none) ∧
          ∀ stmt, (objectMachine.run {} lettingGo).1.library.compiledOn stmt = none) ↔
        ∀ p b, (objectMachine.run {} lettingGo).1.heap.body p = some b → ¬b.Caches) :=
  ⟨by decide, released_iff lettingGo (by decide)⟩

/-- The cached schemas of a session point to it. -/
def OwnSchemas (B : Nat → Option Object) : Prop :=
  ∀ p impl schemaCache, B p = some (.session impl schemaCache) → ∀ e ∈ schemaCache,
    B e.2 = some (.schema p)

/-- A session holds itself through the schema in its cache. -/
def HoldsItself (B : Nat → Option Object) (p q : Nat) (tableName : String) : Prop :=
  ∃ impl schemaCache, B p = some (.session impl schemaCache) ∧
    schemaCache.lookup tableName = some q ∧ B q = some (.schema p)

/-- A session or a schema. -/
def Object.InCycle (b : Object) : Prop := b.objectClass = .session ∨ b.objectClass = .schema

lemma Object.InCycle.lasting {b : Object} (hb : b.InCycle) : b.Lasting := .inr (.inr hb)

lemma Object.InCycle.ne {b d : Object} (hd : d.InCycle) (hb : ¬b.InCycle) : b ≠ d := by
  rintro rfl
  exact hb hd

namespace HoldsItself

variable {B B' : Nat → Option Object} {p q : Nat} {tableName : String}

lemma of_forall (h : HoldsItself B p q tableName)
    (hsame : ∀ r d, d.InCycle → B r = some d → B' r = some d) :
    HoldsItself B' p q tableName := by
  obtain ⟨impl, schemaCache, hp, hlookup, hq⟩ := h
  exact ⟨impl, schemaCache, hsame p _ (.inl rfl) hp, hlookup, hsame q _ (.inr rfl) hq⟩

end HoldsItself

namespace Holds

variable {h h' : Heap Object} {l l' : Library} {ext ps : List Nat} {p q : Nat}
  {tableName : String}

lemma mem_held (hb : h.body p = some b) (hq : q ∈ Holder.pointers b) : q ∈ h.held := by
  obtain ⟨c, hc, rfl⟩ := Heap.body_eq_some_iff.mp hb
  exact Heap.pointers_subset_held hc hq

/-- Nothing that is released takes such a session with it. -/
lemma release_holdsItself (hs : Holds h l (ps ++ ext)) (hself : HoldsItself h.body p q tableName)
    (hrelease : Shared.release Object.destroy h l ps = some (h', l')) :
    HoldsItself h'.body p q tableName := by
  obtain ⟨h₁, l₁, hrelease₁, -, -, hself⟩ := release_rule Object.destroy
    (fun h' l' _ => WellFormed h'.body l' ∧ HoldsItself h'.body p q tableName)
    (fun h' l' r ps c _ hI hc _ => by rwa [Heap.body_put_count hc])
    (fun h' l' r ps c hcounted hI hc hlast => by
      obtain ⟨hwell, hself⟩ := hI
      obtain ⟨l'', hdestroy, hwell'⟩ := hwell.destroy (Heap.body_eq_some_iff.mpr ⟨c, hc, rfl⟩)
      refine ⟨l'', hdestroy, by rwa [Heap.body_put_none hc], ?_⟩
      obtain ⟨impl, schemaCache, hp, hlookup, hq⟩ := hself
      -- the schema holds the session, the session the schema
      have hpheld : p ∈ h'.held := mem_held hq (by simp [Holder.pointers, Object.members])
      have hqheld : q ∈ h'.held := by
        obtain ⟨before, after, rfl, -⟩ := List.lookup_eq_some_iff.mp hlookup
        exact mem_held hp (by simp [Program.pointers_session])
      have hpr := hcounted.ne_of_last hc hlast (List.mem_append_left _ hpheld)
      have hqr := hcounted.ne_of_last hc hlast (List.mem_append_left _ hqheld)
      rw [Heap.body_put_none hc]
      exact ⟨impl, schemaCache, by rwa [Function.update_of_ne hpr], hlookup,
        by rwa [Function.update_of_ne hqr]⟩)
    hs.counted ⟨hs.wellFormed, hself⟩
  rw [hrelease] at hrelease₁
  cases hrelease₁
  exact hself

end Holds

namespace Program

variable {s s' : Program} {p q impl : Nat} {b : Object} {c : Call} {tableName : String}

lemma ownSchemas_of_back (hs' : s'.Sound) {B : Nat → Option Object} (hown : OwnSchemas B)
    (hback : ∀ q d, d.InCycle → s'.heap.body q = some d → B q = some d) :
    OwnSchemas s'.heap.body := by
  intro p impl schemaCache hp e he
  have hq := hown p impl schemaCache (hback p _ (.inl rfl) hp) e he
  have hm : (ObjectClass.schema, e.2) ∈ (Object.session impl schemaCache).members :=
    List.mem_append_left _ (List.mem_map.mpr ⟨e, he, rfl⟩)
  obtain ⟨d, hd, hclass⟩ := Holds.exists_member hs' hp hm
  have hd' := hback e.2 d (.inr hclass) hd
  rw [hq] at hd'
  cases hd'
  exact hd

lemma openSession_body {result : Opened} {d : Object} (hd : d.InCycle) :
    (s.openSession impl result).heap.body q = some d ↔ s.heap.body q = some d := by
  fun_cases Program.openSession s impl result
  · next himpl r c =>
    have himpl' : c.2.body impl = some (.sessionImpl none) := Holds.body_allocate_of himpl
    refine (Holds.body_modify_iff himpl' (hd.ne ?_) (hd.ne ?_)).trans
      (Holds.body_allocate_iff (hd.ne ?_))
    all_goals simp [Object.InCycle, Object.objectClass]
  · rfl
  · rfl

lemma release_back {t : Program} {ps : List Nat} (ht : Holds t.heap t.library (ps ++ t.held))
    (hrelease : t.release ps = some s') {d : Object} (hd : s'.heap.body q = some d) :
    t.heap.body q = some d := by
  obtain ⟨h, l, hrelease', -, hremains, -⟩ := ht.release
  rw [Program.release, hrelease', Option.map_some] at hrelease
  cases hrelease
  obtain heq | hnone := hremains q
  · rwa [← heq]
  · rw [hnone] at hd
    cases hd

lemma release_holdsItself {t : Program} {ps : List Nat} {q : Nat}
    (ht : Holds t.heap t.library (ps ++ t.held)) (hrelease : t.release ps = some s')
    (hself : HoldsItself t.heap.body p q tableName) : HoldsItself s'.heap.body p q tableName := by
  obtain ⟨⟨h, l⟩, hrelease', rfl⟩ := Option.map_eq_some_iff.mp hrelease
  exact ht.release_holdsItself hself hrelease'

/-- An object that is neither a session nor a schema changes, then pointers are released. -/
lemma closeSession_cases (hclose : s.closeSession impl = some s') :
    s' = s ∨ ∃ q, s.heap.body impl = some (.sessionImpl (some q)) ∧
      Program.release { s with heap := s.heap.modify impl (.sessionImpl none) } [q] = some s' := by
  revert hclose
  fun_cases Program.closeSession s impl
  · next q himpl => exact fun hrelease => .inr ⟨q, himpl, hrelease⟩
  · exact fun heq => .inl (Option.some.inj heq).symm

lemma modify_body {d b' : Object} (hb : s.heap.body p = some b) (hne : ¬b.InCycle)
    (hne' : ¬b'.InCycle) (hd : d.InCycle) :
    (s.heap.modify p b').body q = some d ↔ s.heap.body q = some d :=
  Holds.body_modify_iff hb (hd.ne hne) (hd.ne hne')

lemma not_inCycle_sessionImpl (db : Option Nat) : ¬(Object.sessionImpl db).InCycle := by
  simp [Object.InCycle, Object.objectClass]

lemma not_inCycle_statement (sess : Nat) (stmt : Option Nat) :
    ¬(Object.statement sess stmt).InCycle := by
  simp [Object.InCycle, Object.objectClass]

/-- A schema is there already, or one is made for the session and cached. -/
lemma getSchema_body {schemaCache : List (String × Nat)}
    (hb : s.heap.body p = some (.session impl schemaCache)) (tableName : String) :
    (s.getSchema p impl schemaCache tableName).heap.body = s.heap.body ∨
      schemaCache.lookup tableName = none ∧ ∃ a, s.heap.body a = none ∧
        (s.getSchema p impl schemaCache tableName).heap.body =
          Function.update (Function.update s.heap.body a (some (.schema p))) p
            (some (.session impl ((tableName, a) :: schemaCache))) := by
  fun_cases Program.getSchema s p impl schemaCache tableName
  · exact .inl (Heap.body_retain _ _)
  · exact .inl rfl
  · next hlookup _ c =>
    have hsession : (c.2.retain c.1).body p = some (.session impl schemaCache) := by
      rw [Heap.body_retain]
      exact Holds.body_allocate_of (by rw [Heap.body_retain]; exact hb)
    refine .inr ⟨hlookup, c.1, ?_, ?_⟩
    · rw [← Heap.body_retain s.heap p, Heap.body_allocate_fst]
    · rw [Heap.body_modify hsession, Heap.body_retain, Heap.body_allocate, Heap.body_retain]

lemma update_schema {B : Nat → Option Object} {a r x : Nat} {d e : Object} (ha : B a = none)
    (hb : B p = some b) (hne : ∀ r, b ≠ .schema r) (hx : B x = some (.schema r)) :
    Function.update (Function.update B a (some d)) p (some e) x = some (.schema r) := by
  rw [Function.update_of_ne, Function.update_of_ne, hx]
  · rintro rfl
    rw [ha] at hx
    cases hx
  · rintro rfl
    rw [hb] at hx
    exact hne r (Option.some.inj hx)

lemma getSchema_ownSchemas {schemaCache : List (String × Nat)}
    (hb : s.heap.body p = some (.session impl schemaCache)) (hown : OwnSchemas s.heap.body) :
    OwnSchemas (s.getSchema p impl schemaCache tableName).heap.body := by
  obtain hbody | ⟨-, a, ha, hbody⟩ := getSchema_body hb tableName
  · rwa [hbody]
  rw [hbody]
  intro r impl' schemaCache' hr e he
  have hap : a ≠ p := by
    rintro rfl
    rw [ha] at hb
    cases hb
  rw [Function.update_apply] at hr
  split at hr
  · next heq =>
    cases hr
    subst heq
    obtain rfl | he := List.mem_cons.mp he
    · rw [Function.update_of_ne hap, Function.update_self]
    · exact update_schema ha hb (by nofun) (hown r _ schemaCache hb e he)
  · rw [Function.update_apply] at hr
    split at hr
    · cases hr
    · exact update_schema ha hb (by nofun) (hown r impl' schemaCache' hr e he)

lemma clearSchema_ownSchemas {schemaCache : List (String × Nat)}
    (hb : s.heap.body p = some (.session impl schemaCache)) (hown : OwnSchemas s.heap.body) :
    OwnSchemas (s.heap.modify p (.session impl
      (schemaCache.filter fun e => e.1 ≠ tableName))).body := by
  rw [Heap.body_modify hb]
  intro r impl' schemaCache' hr e he
  have hold : ∃ schemaCache'', s.heap.body r = some (.session impl' schemaCache'') ∧
      e ∈ schemaCache'' := by
    rw [Function.update_apply] at hr
    split at hr
    · next heq =>
      cases hr
      exact ⟨schemaCache, heq ▸ hb, List.mem_of_mem_filter he⟩
    · exact ⟨schemaCache', hr, he⟩
  obtain ⟨schemaCache'', hr', he'⟩ := hold
  have hschema := hown r impl' schemaCache'' hr' e he'
  rw [Function.update_of_ne, hschema]
  rintro heq
  rw [heq, hb] at hschema
  cases hschema

lemma perform_ownSchemas (hs : s.Sound) (hb : s.object p = some b)
    (hs' : s.perform p c b = some s') (hsound : s'.Sound) (hown : OwnSchemas s.heap.body) :
    OwnSchemas s'.heap.body := by
  obtain ⟨hp, hbody⟩ := object_eq_some_iff.mp hb
  cases performed hbody hs' with
  | quiet hquiet =>
    exact ownSchemas_of_back hsound hown fun q d hd => (hquiet.body q d hd.lasting).mp
  | openSession impl _ =>
    exact ownSchemas_of_back hsound hown fun q d hd => (openSession_body hd).mp
  | closeSession impl hclose =>
    obtain rfl | ⟨r, himpl, hrelease⟩ := closeSession_cases hclose
    · exact hown
    · exact ownSchemas_of_back hsound hown fun q d hd hq =>
        (modify_body himpl (not_inCycle_sessionImpl _) (not_inCycle_sessionImpl _) hd).mp
          (release_back (closeSession_holds hs himpl) hrelease hq)
  | getSchema => exact getSchema_ownSchemas hbody hown
  | clearSchema hclear =>
    exact ownSchemas_of_back hsound (clearSchema_ownSchemas hbody hown) fun q d _ =>
      release_back (clearSchema_holds hs hbody _) hclear
  | finish hfinish =>
    exact ownSchemas_of_back hsound hown fun q d hd hq =>
      (modify_body hbody (not_inCycle_statement _ _) (not_inCycle_statement _ _) hd).mp
        (release_back (finish_holds hs hbody) hfinish hq)
  | drop hdrop =>
    exact ownSchemas_of_back hsound hown fun q d _ => release_back (drop_holds hs hp) hdrop

lemma getSchema_holdsItself {schemaCache : List (String × Nat)} {r : Nat} {name : String}
    (hb : s.heap.body p = some (.session impl schemaCache))
    (hself : HoldsItself s.heap.body q r tableName) :
    HoldsItself (s.getSchema p impl schemaCache name).heap.body q r tableName := by
  obtain hbody | ⟨hnone, a, ha, hbody⟩ := getSchema_body hb name
  · rwa [hbody]
  rw [hbody]
  obtain ⟨impl', schemaCache', hq, hlookup, hr⟩ := hself
  have hr' := update_schema (d := .schema p) (e := .session impl ((name, a) :: schemaCache)) ha hb
    (by nofun) hr
  by_cases hqp : q = p
  · subst hqp
    rw [hb] at hq
    cases hq
    refine ⟨impl, (name, a) :: schemaCache, Function.update_self .., ?_, hr'⟩
    have hne : tableName ≠ name := by
      rintro rfl
      rw [hnone] at hlookup
      cases hlookup
    rw [List.lookup_cons, beq_false_of_ne hne, hlookup]
  · refine ⟨impl', schemaCache', ?_, hlookup, hr'⟩
    rw [Function.update_of_ne hqp, Function.update_of_ne, hq]
    rintro rfl
    rw [ha] at hq
    cases hq

lemma lookup_filter {name : String} (hne : tableName ≠ name) (l : List (String × Nat)) :
    (l.filter fun e => e.1 ≠ name).lookup tableName = l.lookup tableName := by
  induction l with
  | nil => rfl
  | cons e l ih =>
    by_cases he : e.1 = name
    · have hlookup : (tableName == e.1) = false := beq_false_of_ne (he ▸ hne)
      rw [List.filter_cons_of_neg (by simp [he]), ih, List.lookup_cons, hlookup]
    · rw [List.filter_cons_of_pos (by simp [he]), List.lookup_cons, List.lookup_cons, ih]

lemma clearSchema_holdsItself {schemaCache : List (String × Nat)} {r : Nat} {name : String}
    (hb : s.heap.body p = some (.session impl schemaCache))
    (hself : HoldsItself s.heap.body q r tableName) (hne : ¬(p = q ∧ name = tableName)) :
    HoldsItself (s.heap.modify p (.session impl
      (schemaCache.filter fun e => e.1 ≠ name))).body q r tableName := by
  obtain ⟨impl', schemaCache', hq, hlookup, hr⟩ := hself
  rw [Heap.body_modify hb]
  have hr' : Function.update s.heap.body p (some (.session impl
      (schemaCache.filter fun e => e.1 ≠ name))) r = some (.schema q) := by
    rw [Function.update_of_ne, hr]
    rintro rfl
    rw [hb] at hr
    cases hr
  by_cases hqp : q = p
  · subst hqp
    rw [hb] at hq
    cases hq
    have hname : tableName ≠ name := fun heq => hne ⟨rfl, heq.symm⟩
    exact ⟨impl, _, Function.update_self .., by rw [lookup_filter hname, hlookup], hr'⟩
  · exact ⟨impl', schemaCache', by rw [Function.update_of_ne hqp, hq], hlookup, hr'⟩

lemma perform_holdsItself {r : Nat} (hs : s.Sound) (hb : s.object p = some b)
    (hs' : s.perform p c b = some s') (hclear : ¬(p = q ∧ c = .clearSchema tableName))
    (hself : HoldsItself s.heap.body q r tableName) : HoldsItself s'.heap.body q r tableName := by
  obtain ⟨hp, hbody⟩ := object_eq_some_iff.mp hb
  cases performed hbody hs' with
  | quiet hquiet => exact hself.of_forall fun q d hd => (hquiet.body q d hd.lasting).mpr
  | openSession impl _ => exact hself.of_forall fun q d hd => (openSession_body hd).mpr
  | closeSession impl hclose =>
    obtain rfl | ⟨r, himpl, hrelease⟩ := closeSession_cases hclose
    · exact hself
    · exact release_holdsItself (closeSession_holds hs himpl) hrelease (hself.of_forall
        fun q d hd => (modify_body himpl (not_inCycle_sessionImpl _)
          (not_inCycle_sessionImpl _) hd).mpr)
  | getSchema => exact getSchema_holdsItself hbody hself
  | clearSchema hclear' =>
    refine release_holdsItself (clearSchema_holds hs hbody _) hclear'
      (clearSchema_holdsItself hbody hself ?_)
    rintro ⟨rfl, rfl⟩
    exact hclear ⟨rfl, rfl⟩
  | finish hfinish =>
    exact release_holdsItself (finish_holds hs hbody) hfinish (hself.of_forall
      fun q d hd => (modify_body hbody (not_inCycle_statement _ _) (not_inCycle_statement _ _)
        hd).mpr)
  | drop hdrop => exact release_holdsItself (drop_holds hs hp) hdrop hself

end Program

variable {s : Program} {op : ObjectOp} {p q : Nat} {tableName : String}

lemma createSession_ownSchemas (hown : OwnSchemas s.heap.body) :
    OwnSchemas s.createSession.heap.body := by
  intro r impl schemaCache hr e he
  obtain ⟨-, heq⟩ | ⟨-, hr⟩ := Holds.body_allocate_eq_some hr
  · cases heq
    cases he
  · obtain ⟨-, heq⟩ | ⟨-, hr⟩ := Holds.body_allocate_eq_some hr
    · cases heq
    · exact Holds.body_allocate_of (Holds.body_allocate_of (hown r impl schemaCache hr e he))

lemma step_ownSchemas (hs : s.Sound) (hown : OwnSchemas s.heap.body) :
    OwnSchemas (objectMachine.step s op).1.heap.body := by
  cases hs' : s.step? op with
  | none =>
    simp only [objectMachine, hs']
    exact hown
  | some s' =>
    have hsound := step_sound s op hs
    rw [step_eq hs'] at hsound ⊢
    revert hs'
    fun_cases Program.step? s op
    · rintro ⟨⟩
      exact createSession_ownSchemas hown
    · rintro ⟨⟩
      exact hown
    · next hb => exact fun hs' => Program.perform_ownSchemas hs hb hs' hsound hown

lemma step_holdsItself (hs : s.Sound) (hop : op ≠ .call p (.clearSchema tableName))
    (hself : HoldsItself s.heap.body p q tableName) :
    HoldsItself (objectMachine.step s op).1.heap.body p q tableName := by
  cases hs' : s.step? op with
  | none =>
    simp only [objectMachine, hs']
    exact hself
  | some s' =>
    rw [step_eq hs']
    revert hs'
    fun_cases Program.step? s op
    · rintro ⟨⟩
      exact hself.of_forall fun r d _ hr => Holds.body_allocate_of (Holds.body_allocate_of hr)
    · rintro ⟨⟩
      exact hself
    · next hb =>
      refine fun hs' => Program.perform_holdsItself hs hb hs' ?_ hself
      rintro ⟨rfl, rfl⟩
      exact hop rfl

lemma run_ownSchemas (ops : List ObjectOp) :
    OwnSchemas (objectMachine.run {} ops).1.heap.body := by
  have hrun := objectMachine.run_invariant (fun s => s.Sound ∧ OwnSchemas s.heap.body)
    (fun s op hs => ⟨step_sound s op hs.1, step_ownSchemas hs.1 hs.2⟩) (s := {})
    ⟨Program.sound_empty, fun p impl schemaCache hp => by simp at hp⟩ ops
  exact hrun.2

/-- A session with a schema in its cache stays with that schema, whatever the program does and lets
go of, until the schema is cleared. -/
theorem cached_holdsItself (ops later : List ObjectOp) (p q impl : Nat) (tableName : String)
    (schemaCache : List (String × Nat))
    (hp : (objectMachine.run {} ops).1.heap.body p = some (.session impl schemaCache))
    (hlookup : schemaCache.lookup tableName = some q)
    (hlater : ObjectOp.call p (.clearSchema tableName) ∉ later) :
    HoldsItself (objectMachine.run {} (ops ++ later)).1.heap.body p q tableName := by
  have hself : HoldsItself (objectMachine.run {} ops).1.heap.body p q tableName := by
    obtain ⟨before, after, rfl, -⟩ := List.lookup_eq_some_iff.mp hlookup
    exact ⟨impl, _, hp, hlookup, run_ownSchemas ops p impl _ hp (tableName, q) (by simp)⟩
  rw [Machine.run_append]
  have hrun := objectMachine.run_invariant_along
    (fun _ op => op ≠ .call p (.clearSchema tableName))
    (fun s => s.Sound ∧ HoldsItself s.heap.body p q tableName)
    (fun s op hs hop => ⟨step_sound s op hs.1, step_holdsItself hs.1 hop hs.2⟩)
    ⟨run_sound ops, hself⟩ (Machine.along_iff_forall.mpr fun op hop heq => hlater (heq ▸ hop))
  exact hrun.2

theorem cached_afterDrops :
    HoldsItself (objectMachine.run {} ([.createSession, .call 1 (.getSchema "users")] ++
      [.call 2 .drop, .call 1 .drop])).1.heap.body 1 2 "users" :=
  cached_holdsItself _ _ 1 2 0 "users" [("users", 2)] rfl rfl (by simp)

end CodaDb.Sqlite
