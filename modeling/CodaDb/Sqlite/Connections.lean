import CodaDb.Sqlite.Lifetime

/-!
# Connections that are never closed

`sqlite3_close` refuses a connection while statements of it are left, and its deleter runs once. The
order in which an object releases its members decides whether a statement of it is still there when
the session goes.
-/

namespace CodaDb.Sqlite

open Shared Holder

/-- An object that leads to connections and to no statement. -/
def Object.Upper (b : Object) : Prop :=
  b.objectClass = .connection ∨ b.objectClass = .sessionImpl ∨ b.objectClass = .session ∨
    b.objectClass = .schema ∨ b.objectClass = .transaction

lemma Object.Upper.members {b : Object} (hb : b.Upper) {m : ObjectClass × Nat}
    (hm : m ∈ b.members) : m.1 = .connection ∨ m.1 = .sessionImpl ∨ m.1 = .session ∨
      m.1 = .schema ∨ m.1 = .transaction := by
  cases b with
  | connection db => cases hm
  | sessionImpl db =>
    obtain ⟨q, -, rfl⟩ := List.mem_map.mp hm
    exact .inl rfl
  | session impl schemaCache =>
    obtain hm | hm := List.mem_append.mp hm
    · obtain ⟨e, -, rfl⟩ := List.mem_map.mp hm
      simp
    · rw [List.mem_singleton.mp hm]
      simp
  | schema sess =>
    rw [List.mem_singleton.mp hm]
    simp
  | transaction db =>
    obtain ⟨q, -, rfl⟩ := List.mem_map.mp hm
    exact .inl rfl
  | _ => simp [Object.Upper, Object.objectClass] at hb

/-- What a release of connections, sessions and the like leaves: every statement, and the
connections that go while statements of them are left. -/
structure Closed (h : Heap Object) (l : Library) (h' : Heap Object) (l' : Library) : Prop where
  remains : ∀ q, h'.body q = h.body q ∨ h'.body q = none
  compiled : ∀ q stmt, h.body q = some (.compiled stmt) → h'.body q = some (.compiled stmt)
  compiledOn : ∀ stmt, l'.compiledOn stmt = l.compiledOn stmt
  gone : ∀ q db, h.body q = some (.connection db) → h'.body q = none →
    (l'.Allocated db ↔ ∃ stmt, l.compiledOn stmt = some db)
  others : ∀ db, (∀ q, h.body q ≠ some (.connection db)) → (l'.Allocated db ↔ l.Allocated db)

namespace Closed

variable {h h₁ h₂ : Heap Object} {l l₁ l₂ : Library} {p : Nat} {c : Shared.Cell Object}

lemma refl (h : Heap Object) (l : Library) : Closed h l h l := by
  refine ⟨fun _ => .inl rfl, fun _ _ => id, fun _ => rfl, fun q db hq hnone => ?_,
    fun _ _ => Iff.rfl⟩
  rw [hq] at hnone
  cases hnone

lemma trans (hw : WellFormed h.body l) (h₁' : Closed h l h₁ l₁) (h₂' : Closed h₁ l₁ h₂ l₂) :
    Closed h l h₂ l₂ := by
  have hback : ∀ q b, h₁.body q = some b → h.body q = some b := fun q b hq => by
    obtain heq | hnone := h₁'.remains q
    · rwa [← heq]
    · rw [hq] at hnone
      cases hnone
  refine ⟨fun q => ?_, fun q stmt hq => h₂'.compiled q stmt (h₁'.compiled q stmt hq),
    fun stmt => (h₂'.compiledOn stmt).trans (h₁'.compiledOn stmt), fun q db hq hnone => ?_,
    fun db hdb => ?_⟩
  · obtain heq | hnone := h₂'.remains q
    · rw [heq]
      exact h₁'.remains q
    · exact .inr hnone
  · obtain heq | hgone := h₁'.remains q
    · rw [h₂'.gone q db (heq.trans hq) hnone]
      simp only [h₁'.compiledOn]
    · -- no other object stands for the connection
      rw [h₂'.others db fun r hr => ?_, h₁'.gone q db hq hgone]
      obtain rfl := hw.connectionOnce r q db (hback r _ hr) hq
      rw [hr] at hgone
      cases hgone
  · rw [h₂'.others db fun q hq => hdb q (hback q _ hq), h₁'.others db hdb]

/-- A decremented count. -/
lemma decrement (hc : h.find p = some c) (n : Nat) :
    Closed h l (h.put p (some { c with count := n })) l := by
  have hbody := Heap.body_put_count hc n
  have hrefl := refl h l
  exact ⟨hbody ▸ hrefl.remains, hbody ▸ hrefl.compiled, hrefl.compiledOn, hbody ▸ hrefl.gone,
    hrefl.others⟩

/-- A destroyed object. -/
lemma destroy (hw : WellFormed h.body l) (hc : h.find p = some c) (hupper : c.body.Upper) :
    ∃ l', c.body.destroy l = some l' ∧ Closed h l (h.put p none) l' := by
  have hbody : h.body p = some c.body := Heap.body_eq_some_iff.mpr ⟨c, hc, rfl⟩
  have hremains : ∀ q, (h.put p none).body q = h.body q ∨ (h.put p none).body q = none :=
    fun q => by
      rw [Heap.body_put_none hc, Function.update_apply]
      split
      · exact .inr rfl
      · exact .inl rfl
  have hcompiled : ∀ q stmt, h.body q = some (.compiled stmt) →
      (h.put p none).body q = some (.compiled stmt) := fun q stmt hq => by
    rw [Heap.body_put_none hc, Function.update_of_ne, hq]
    rintro rfl
    rw [hbody] at hq
    rw [Option.some.inj hq] at hupper
    simp [Object.Upper, Object.objectClass] at hupper
  have hgone : ∀ q b, h.body q = some b → (h.put p none).body q = none → b = c.body :=
    fun q b hq hnone => by
      rw [Heap.body_put_none hc, Function.update_apply] at hnone
      split at hnone
      · next heq =>
        rw [heq, hbody] at hq
        exact (Option.some.inj hq).symm
      · rw [hq] at hnone
        cases hnone
  have hplain (hne : ∀ db, c.body ≠ .connection db) : Closed h l (h.put p none) l :=
    ⟨hremains, hcompiled, fun _ => rfl,
      fun q db hq hnone => absurd (hgone q _ hq hnone).symm (hne db), fun _ _ => Iff.rfl⟩
  cases hcb : c.body with
  | connection db =>
    have hdb := hw.connection p db (hcb ▸ hbody)
    have hsame : ∀ q db', h.body q = some (.connection db') → (h.put p none).body q = none →
        db' = db := fun q db' hq hnone => by
      have heq := hgone q _ hq hnone
      rw [hcb] at heq
      cases heq
      rfl
    obtain ⟨hbusy, hclose⟩ | ⟨hidle, hclose⟩ := Library.sqliteClose_eq hdb
    · refine ⟨l, hclose, hremains, hcompiled, fun _ => rfl, fun q db' hq hnone => ?_,
        fun _ _ => Iff.rfl⟩
      obtain rfl := hsame q db' hq hnone
      exact iff_of_true hdb hbusy
    · refine ⟨_, hclose, hremains, hcompiled, fun _ => rfl, fun q db' hq hnone => ?_,
        fun db' hdb' => ?_⟩
      · obtain rfl := hsame q db' hq hnone
        rw [Library.allocated_close hdb]
        exact iff_of_false (fun h => h.2 rfl) fun ⟨stmt, h⟩ => hidle stmt h
      · rw [Library.allocated_close hdb]
        refine and_iff_left ?_
        rintro rfl
        exact hdb' p (hcb ▸ hbody)
  | compiled stmt =>
    rw [hcb] at hupper
    simp [Object.Upper, Object.objectClass] at hupper
  | _ => exact ⟨l, rfl, hplain (by rw [hcb]; nofun)⟩

end Closed

namespace Holds

variable {h : Heap Object} {l : Library} {ext : List Nat} {p : Nat} {b : Object}

/-- Releasing what leads to connections only. -/
lemma release_upper {ps : List Nat} (hs : Holds h l (ps ++ ext))
    (hps : ∀ p ∈ ps, ∀ b, h.body p = some b → b.Upper) :
    ∃ h' l', Shared.release Object.destroy h l ps = some (h', l') ∧ Holds h' l' ext ∧
      Closed h l h' l' := by
  have hrule := release_rule Object.destroy
    (fun h' l' ps => WellFormed h'.body l' ∧ (∀ p ∈ ps, ∀ b, h'.body p = some b → b.Upper) ∧
      Closed h l h' l')
    (fun h' l' p ps c _ hI hc _ => ?_) (fun h' l' p ps c hcounted hI hc hlast => ?_) hs.counted
    ⟨hs.wellFormed, hps, Closed.refl h l⟩
  · obtain ⟨h', l', hrelease, hcounted, hwell, -, hclosed⟩ := hrule
    exact ⟨h', l', hrelease, ⟨hcounted, hwell⟩, hclosed⟩
  · obtain ⟨hwell, hupper, hclosed⟩ := hI
    have hbody := Heap.body_put_count hc (c.count - 1)
    refine ⟨by rwa [hbody], fun q hq b hb => ?_,
      hclosed.trans hs.wellFormed (Closed.decrement hc _)⟩
    rw [hbody] at hb
    exact hupper q (List.mem_cons_of_mem p hq) b hb
  · obtain ⟨hwell, hupper, hclosed⟩ := hI
    have hbody : h'.body p = some c.body := Heap.body_eq_some_iff.mpr ⟨c, hc, rfl⟩
    obtain ⟨l₁, hdestroy, hclosed'⟩ := Closed.destroy hwell hc
      (hupper p List.mem_cons_self _ hbody)
    obtain ⟨l₂, hdestroy', hwell'⟩ := hwell.destroy hbody
    obtain rfl : l₁ = l₂ := Option.some.inj (hdestroy.symm.trans hdestroy')
    refine ⟨l₁, hdestroy, by rwa [Heap.body_put_none hc], fun q hq b hb => ?_,
      hclosed.trans hs.wellFormed hclosed'⟩
    rw [Heap.body_put_none hc] at hb
    obtain ⟨-, hb⟩ := WellFormed.eq_of_update_none hb
    obtain hq | hq := List.mem_append.mp hq
    · obtain ⟨m, hm, rfl⟩ := List.mem_map.mp hq
      have hclass := hwell.typed p c.body hbody m hm b hb
      rw [Object.Upper, hclass]
      exact (hupper p List.mem_cons_self _ hbody).members hm
    · exact hupper q (List.mem_cons_of_mem p hq) b hb

/-- Releasing a pointer to a compiled statement. -/
lemma release_compiled {r stmt : Nat} (hs : Holds h l (r :: ext))
    (hr : h.body r = some (.compiled stmt)) :
    ∃ h' l', Shared.release Object.destroy h l [r] = some (h', l') ∧ Holds h' l' ext ∧
      (∀ q, q ≠ r → h'.body q = h.body q) ∧ (∀ db, l'.Allocated db ↔ l.Allocated db) ∧
      ∀ stmt', stmt' ≠ stmt → l'.compiledOn stmt' = l.compiledOn stmt' := by
  obtain ⟨c, hc, hbody⟩ := Heap.body_eq_some_iff.mp hr
  by_cases hlast : c.count = 1
  · obtain ⟨db, hstmt⟩ := Option.isSome_iff_exists.mp (hs.wellFormed.compiled r stmt hr)
    have hfinalize := Library.finalize_eq hstmt (hs.wellFormed.allocated stmt db hstmt)
    obtain ⟨l', hdestroy, hwell⟩ := hs.wellFormed.destroy_compiled hr
    obtain rfl := Option.some.inj (hfinalize.symm.trans hdestroy)
    refine ⟨h.put r none, { l with statements := l.statements.set stmt none }, ?_,
      ⟨?_, by rwa [Heap.body_put_none hc]⟩, fun q hq => ?_, fun _ => Iff.rfl, fun stmt' hne => ?_⟩
    · rw [release_cons_last hc hlast, hbody]
      simp only [Object.destroy, hfinalize, Option.bind_some]
      exact release_nil
    · have hcounted := hs.counted.destroy hc hlast
      rwa [hbody] at hcounted
    · rw [Heap.body_put_none hc, Function.update_of_ne hq]
    · rw [Library.compiledOn_finalize hstmt, if_neg hne]
  · have hsame := Heap.body_put_count hc (c.count - 1)
    refine ⟨_, l, ?_, ⟨hs.counted.decrement hc hlast, by rw [hsame]; exact hs.wellFormed⟩,
      fun q _ => by rw [hsame], fun _ => Iff.rfl, fun _ _ => rfl⟩
    rw [release_cons_shared hc hlast, release_nil]

/-- Releasing a pointer: it was one of several, or its object is destroyed and the members are
released. -/
lemma release_cases {c : Shared.Cell Object} (hs : Holds h l (p :: ext)) (hc : h.find p = some c) :
    c.count ≠ 1 ∧ Shared.release Object.destroy h l [p] =
        some (h.put p (some { c with count := c.count - 1 }), l) ∨
      ∃ l', c.body.destroy l = some l' ∧
        Shared.release Object.destroy h l [p] =
          Shared.release Object.destroy (h.put p none) l' (Holder.pointers c.body) ∧
        Holds (h.put p none) l' (Holder.pointers c.body ++ ext) := by
  by_cases hlast : c.count = 1
  · obtain ⟨l', hdestroy, hwell⟩ :=
      hs.wellFormed.destroy (Heap.body_eq_some_iff.mpr ⟨c, hc, rfl⟩)
    refine .inr ⟨l', hdestroy, ?_, hs.counted.destroy hc hlast, by rwa [Heap.body_put_none hc]⟩
    rw [release_cons_last hc hlast, hdestroy, Option.bind_some, List.append_nil]
  · refine .inl ⟨hlast, ?_⟩
    rw [release_cons_shared hc hlast, release_nil]

end Holds

/-- The object takes the session down before its own statement of the connection. -/
def TakesDown (h : Heap Object) (l : Library) (db : Nat) (b : Object) : Prop :=
  ∃ r sess stmt, (b = .resultset r sess ∨ b = .row r sess) ∧
    h.body r = some (.compiled stmt) ∧ l.compiledOn stmt = some db

lemma takesDown_iff {h : Heap Object} {l : Library} {db r sess stmt : Nat} {b : Object}
    (hb : b = .resultset r sess ∨ b = .row r sess) (hr : h.body r = some (.compiled stmt)) :
    TakesDown h l db b ↔ l.compiledOn stmt = some db := by
  constructor
  · rintro ⟨r', sess', stmt', heq, hr', hstmt⟩
    obtain rfl : r = r' := by
      obtain rfl | rfl := hb
      · obtain heq | heq := heq
        · cases heq
          rfl
        · cases heq
      · obtain heq | heq := heq
        · cases heq
        · cases heq
          rfl
    rw [hr] at hr'
    cases hr'
    exact hstmt
  · exact fun hstmt => ⟨r, sess, stmt, hb, hr, hstmt⟩

namespace Holds

variable {h h' : Heap Object} {l l' : Library} {ext : List Nat} {p : Nat} {b : Object}

/-- Connections stay with what is destroyed otherwise. -/
lemma eq_of_update {o : Option Object} {q db : Nat} (hb : h.body p = some b)
    (hne : b ≠ .connection db) (hq : h.body q = some (.connection db)) :
    Function.update h.body p o q = some (.connection db) := by
  rw [Function.update_of_ne, hq]
  rintro rfl
  rw [hb] at hq
  exact hne (Option.some.inj hq)

lemma allocated_release_upper (hs : Holds h l (p :: ext)) (hb : h.body p = some b)
    (hupper : b.Upper) (hrelease : Shared.release Object.destroy h l [p] = some (h', l'))
    {q db : Nat} (hq : h.body q = some (.connection db)) (hgone : h'.body q = none) :
    l'.Allocated db ↔ ∃ stmt, l'.compiledOn stmt = some db := by
  have hps : ∀ p' ∈ [p], ∀ b', h.body p' = some b' → b'.Upper := by
    intro p' hp' b' hb'
    rw [List.mem_singleton.mp hp', hb] at hb'
    cases hb'
    exact hupper
  obtain ⟨h₁, l₁, hrelease₁, -, hclosed⟩ := release_upper (show Holds h l ([p] ++ ext) from hs) hps
  rw [hrelease] at hrelease₁
  cases hrelease₁
  simp only [hclosed.gone q db hq hgone, hclosed.compiledOn]

/-- The session is released before the statement: a connection that goes keeps all its
statements. -/
lemma allocated_release_results {sess r stmt : Nat} (hs : Holds h l ([sess, r] ++ ext))
    (hsess : ∀ b, h.body sess = some b → b.Upper) (hr : h.body r = some (.compiled stmt))
    (hrelease : Shared.release Object.destroy h l [sess, r] = some (h', l')) {q db : Nat}
    (hq : h.body q = some (.connection db)) (hgone : h'.body q = none) :
    l'.Allocated db ↔ (∃ stmt, l'.compiledOn stmt = some db) ∨ l.compiledOn stmt = some db := by
  have hps : ∀ p' ∈ [sess], ∀ b', h.body p' = some b' → b'.Upper := by
    intro p' hp' b' hb'
    rw [List.mem_singleton.mp hp'] at hb'
    exact hsess b' hb'
  obtain ⟨h₁, l₁, hrelease₁, hs₁, hclosed⟩ :=
    release_upper (show Holds h l ([sess] ++ ([r] ++ ext)) from hs) hps
  have hr₁ := hclosed.compiled r stmt hr
  obtain ⟨h₂, l₂, hrelease₂, hs₂, hbody, hallocated, hcompiledOn⟩ := release_compiled hs₁ hr₁
  have hsplit : Shared.release Object.destroy h l ([sess] ++ [r]) = _ :=
    release_append h l [sess] [r]
  rw [hrelease₁, Option.bind_some, hrelease₂, List.singleton_append, hrelease] at hsplit
  cases hsplit
  have hne : q ≠ r := by
    rintro rfl
    rw [hq] at hr
    cases hr
  rw [hbody q hne] at hgone
  rw [hallocated, hclosed.gone q db hq hgone]
  constructor
  · rintro ⟨stmt', hstmt'⟩
    by_cases heq : stmt' = stmt
    · exact .inr (heq ▸ hstmt')
    · exact .inl ⟨stmt', by rw [hcompiledOn stmt' heq, hclosed.compiledOn, hstmt']⟩
  · rintro (⟨stmt', hstmt'⟩ | hstmt)
    · have hdb := hs₂.wellFormed.allocated stmt' db hstmt'
      rwa [hallocated, hclosed.gone q db hq hgone] at hdb
    · exact ⟨stmt, hstmt⟩

/-- The statement is released before the session. -/
lemma allocated_release_statement {sess : Nat} {stmt : Option Nat}
    (hs : Holds h l (stmt.toList ++ [sess] ++ ext))
    (hsess : ∀ b, h.body sess = some b → b.Upper)
    (hstmt : ∀ r ∈ stmt, ∃ stmt, h.body r = some (.compiled stmt))
    (hrelease : Shared.release Object.destroy h l (stmt.toList ++ [sess]) = some (h', l'))
    {q db : Nat} (hq : h.body q = some (.connection db)) (hgone : h'.body q = none) :
    l'.Allocated db ↔ ∃ stmt, l'.compiledOn stmt = some db := by
  obtain ⟨b, hb⟩ : ∃ b, h.body sess = some b := hs.exists_body (by simp)
  cases stmt with
  | none => exact allocated_release_upper hs hb (hsess b hb) hrelease hq hgone
  | some r =>
    obtain ⟨stmt, hr⟩ := hstmt r rfl
    obtain ⟨h₁, l₁, hrelease₁, hs₁, hbody, -, -⟩ := release_compiled hs hr
    have hsplit : Shared.release Object.destroy h l ([r] ++ [sess]) = _ :=
      release_append h l [r] [sess]
    rw [hrelease₁, Option.bind_some, ← Option.toList_some, hrelease] at hsplit
    have hne : q ≠ r := by
      rintro rfl
      rw [hq] at hr
      cases hr
    have hne' : sess ≠ r := by
      rintro rfl
      rw [hb] at hr
      cases hr
      simpa [Object.Upper, Object.objectClass] using hsess _ hb
    exact allocated_release_upper hs₁ (by rw [hbody sess hne', hb]) (hsess b hb) hsplit.symm
      (by rw [hbody q hne, hq]) hgone

/-- A connection that goes with a pointer stays allocated if a statement of it is left, or if the
object behind the pointer had one. -/
lemma allocated_release_iff (hs : Holds h l (p :: ext)) (hb : h.body p = some b)
    (hrelease : Shared.release Object.destroy h l [p] = some (h', l')) {q db : Nat}
    (hq : h.body q = some (.connection db)) (hgone : h'.body q = none) :
    l'.Allocated db ↔ (∃ stmt, l'.compiledOn stmt = some db) ∨
      h'.body p = none ∧ TakesDown h l db b := by
  obtain ⟨c, hc, rfl⟩ := Heap.body_eq_some_iff.mp hb
  obtain ⟨-, hshared⟩ | ⟨l₁, hdestroy, hnext, hs₁⟩ := hs.release_cases hc
  · -- nothing goes with one of several pointers
    rw [hrelease] at hshared
    cases hshared
    rw [Heap.body_put_count hc, hq] at hgone
    cases hgone
  by_cases hupper : c.body.Upper
  · rw [hs.allocated_release_upper hb hupper hrelease hq hgone]
    refine (or_iff_left ?_).symm
    rintro ⟨-, r, sess, stmt, heq | heq, -⟩
    · simp [heq, Object.Upper, Object.objectClass] at hupper
    · simp [heq, Object.Upper, Object.objectClass] at hupper
  rw [hrelease] at hnext
  have hq₁ : (h.put p none).body q = some (.connection db) := by
    rw [Heap.body_put_none hc]
    refine eq_of_update hb (fun heq => hupper ?_) hq
    rw [heq]
    exact .inl rfl
  have htyped : ∀ m ∈ c.body.members, ∀ b', (h.put p none).body m.2 = some b' →
      b'.objectClass = m.1 := fun m hm b' hb' => by
    rw [Heap.body_put_none hc] at hb'
    exact hs.wellFormed.typed p c.body hb m hm b' (WellFormed.eq_of_update_none hb').2
  have hsess {sess : Nat} (hm : (ObjectClass.sessionImpl, sess) ∈ c.body.members) :
      ∀ b', (h.put p none).body sess = some b' → b'.Upper :=
    fun b' hb' => .inr (.inl (htyped _ hm b' hb'))
  have hcompiled {r : Nat} (hm : (ObjectClass.compiled, r) ∈ c.body.members) :
      ∃ stmt, (h.put p none).body r = some (.compiled stmt) := by
    obtain ⟨b', hb'⟩ := hs₁.exists_body (List.mem_append_left _ (List.mem_map_of_mem hm))
    have hclass := htyped _ hm b' hb'
    cases b' with
    | compiled stmt => exact ⟨stmt, hb'⟩
    | _ => cases hclass
  have hresults {sess r : Nat} (hl : l₁ = l)
      (hmembers : c.body.members = [(.sessionImpl, sess), (.compiled, r)])
      (htakes : ∀ stmt, h.body r = some (.compiled stmt) →
        (TakesDown h l db c.body ↔ l.compiledOn stmt = some db)) :
      l'.Allocated db ↔ (∃ stmt, l'.compiledOn stmt = some db) ∨
        h'.body p = none ∧ TakesDown h l db c.body := by
    subst hl
    have hpointers : Holder.pointers c.body = [sess, r] := by simp [Holder.pointers, hmembers]
    obtain ⟨stmt, hr⟩ := hcompiled (r := r) (by simp [hmembers])
    rw [hpointers] at hnext hs₁
    have hp : h'.body p = none := by
      obtain ⟨h₂, l₂, hrelease₂, -, hremains, -⟩ := hs₁.release
      rw [← hnext] at hrelease₂
      cases hrelease₂
      obtain heq | hnone := hremains p
      · rw [heq, Heap.body_put_none hc, Function.update_self]
      · exact hnone
    rw [Heap.body_put_none hc] at hr
    rw [htakes stmt (WellFormed.eq_of_update_none hr).2, and_iff_right hp]
    rw [← Heap.body_put_none hc] at hr
    exact hs₁.allocated_release_results (hsess (by simp [hmembers])) hr hnext.symm hq₁ hgone
  cases hcb : c.body with
  | statement sess stmt =>
    rw [hcb] at hdestroy hnext hs₁ hsess hcompiled
    cases hdestroy
    have hpointers : Holder.pointers (Object.statement sess stmt) = stmt.toList ++ [sess] := by
      simp [Holder.pointers, Object.members, Function.comp_def]
    rw [hpointers] at hnext hs₁
    have hstmt : ∀ r ∈ stmt, ∃ stmt, (h.put p none).body r = some (.compiled stmt) :=
      fun r hr => hcompiled (by simpa [Object.members] using hr)
    rw [hs₁.allocated_release_statement (hsess (by simp [Object.members])) hstmt hnext.symm hq₁
      hgone]
    refine (or_iff_left ?_).symm
    rintro ⟨-, r, sess', stmt', heq | heq, -⟩
    · cases heq
    · cases heq
  | resultset r sess =>
    rw [hcb] at hdestroy
    rw [← hcb]
    exact hresults (Option.some.inj hdestroy).symm (by rw [hcb]; rfl) fun stmt hr =>
      takesDown_iff (.inl hcb) hr
  | row r sess =>
    rw [hcb] at hdestroy
    rw [← hcb]
    exact hresults (Option.some.inj hdestroy).symm (by rw [hcb]; rfl) fun stmt hr =>
      takesDown_iff (.inr hcb) hr
  | column r =>
    rw [hcb] at hdestroy hnext hs₁ hcompiled
    cases hdestroy
    obtain ⟨stmt, hr⟩ := hcompiled (r := r) (by simp [Object.members])
    obtain ⟨h₂, l₂, hrelease₂, -, hbody, -, -⟩ := release_compiled hs₁ hr
    have heq := hnext.trans hrelease₂
    cases heq
    have hne : q ≠ r := by
      rintro rfl
      rw [hq₁] at hr
      cases hr
    rw [hbody q hne, hq₁] at hgone
    cases hgone
  | compiled stmt =>
    rw [hcb] at hnext
    have heq := hnext.trans release_nil
    cases heq
    rw [hq₁] at hgone
    cases hgone
  | _ => exact absurd (by rw [hcb]; simp [Object.Upper, Object.objectClass]) hupper

end Holds

/-- An object that stands for a connection, or through which the program comes to one. -/
def Object.Lasting (b : Object) : Prop :=
  b.objectClass = .connection ∨ b.objectClass = .sessionImpl ∨ b.objectClass = .session ∨
    b.objectClass = .schema

namespace Holds

variable {h : Heap Object} {p q : Nat} {b b' d : Object}

lemma body_retain_iff : (h.retain p).body q = some d ↔ h.body q = some d := by
  rw [Heap.body_retain]

lemma body_allocate_iff (hne : b ≠ d) : (h.allocate b).2.body q = some d ↔ h.body q = some d := by
  rw [Heap.body_allocate]
  refine WellFormed.update_eq_some_iff ?_ ?_ q
  · rw [Heap.body_allocate_fst]
    simp
  · exact fun heq => hne (Option.some.inj heq)

lemma body_modify_iff (hb : h.body p = some b) (hne : b ≠ d) (hne' : b' ≠ d) :
    (h.modify p b').body q = some d ↔ h.body q = some d := by
  rw [Heap.body_modify hb]
  refine WellFormed.update_eq_some_iff ?_ ?_ q
  · rw [hb]
    exact fun heq => hne (Option.some.inj heq)
  · exact fun heq => hne' (Option.some.inj heq)

end Holds

lemma Object.Lasting.ne {b d : Object} (hd : d.Lasting) (hb : ¬b.Lasting) : b ≠ d := by
  rintro rfl
  exact hb hd

/-- A step that leaves connections, sessions and schemas as they are. -/
structure Quiet (s s' : Program) : Prop where
  body : ∀ q d, d.Lasting → (s'.heap.body q = some d ↔ s.heap.body q = some d)
  allocated : ∀ db, s'.library.Allocated db ↔ s.library.Allocated db

namespace Quiet

variable {s s' : Program} {p q r impl : Nat} {b : Object}

lemma refl (s : Program) : Quiet s s := ⟨fun _ _ _ => Iff.rfl, fun _ => Iff.rfl⟩

lemma share (p : Nat) : Quiet s (s.share p) :=
  ⟨fun _ _ _ => Holds.body_retain_iff, fun _ => Iff.rfl⟩

/-- An object is made of copied pointers. -/
lemma make_one (hb : ¬b.Lasting) : Quiet s ((s.retain q).make b) :=
  ⟨fun _ _ hd => (Holds.body_allocate_iff (hd.ne hb)).trans Holds.body_retain_iff,
    fun _ => Iff.rfl⟩

lemma make_two (hb : ¬b.Lasting) : Quiet s (((s.retain q).retain r).make b) :=
  ⟨fun _ _ hd => (Holds.body_allocate_iff (hd.ne hb)).trans
    (Holds.body_retain_iff.trans Holds.body_retain_iff), fun _ => Iff.rfl⟩

lemma body_compile_iff {db : Nat} {d : Object} (hd : d.Lasting) :
    (s.compile db).2.heap.body q = some d ↔ s.heap.body q = some d :=
  Holds.body_allocate_iff (hd.ne (by simp [Object.Lasting, Object.objectClass]))

lemma prepare {sess : Nat} {stmt : Option Nat} {result : Compiled}
    (hb : s.heap.body p = some (.statement sess stmt))
    (hs' : s.prepare p sess stmt result = some s') : Quiet s s' := by
  revert hs'
  fun_cases Program.prepare s p sess stmt result
  · rintro ⟨⟩
    exact refl s
  · rintro ⟨⟩
    exact refl s
  · rintro ⟨⟩
    refine ⟨fun q d hd => ?_, fun _ => Iff.rfl⟩
    refine (Holds.body_modify_iff (Program.body_compile_of hb) (hd.ne ?_) (hd.ne ?_)).trans
      (body_compile_iff hd)
    · simp [Object.Lasting, Object.objectClass]
    · simp [Object.Lasting, Object.objectClass]
  · rintro ⟨⟩
    exact refl s
  · simp

lemma sessionQuery {result : Compiled} (hs' : s.sessionQuery impl result = some s') :
    Quiet s s' := by
  revert hs'
  fun_cases Program.sessionQuery s impl result
  · rintro ⟨⟩
    exact refl s
  · rintro ⟨⟩
    refine ⟨fun q d hd => (Holds.body_allocate_iff (hd.ne ?_)).trans
      (Holds.body_retain_iff.trans (body_compile_iff hd)), fun _ => Iff.rfl⟩
    simp [Object.Lasting, Object.objectClass]
  · rintro ⟨⟩
    exact refl s
  · simp

lemma sessionExecute {result : Compiled} (hs' : s.sessionExecute impl result = some s') :
    Quiet s s' := by
  revert hs'
  fun_cases Program.sessionExecute s impl result
  · rintro ⟨⟩
    exact refl s
  · next db _ hdb _ r =>
    have hcompiled : r.2.compiledOn r.1 = some db := by
      rw [Library.compiledOn_prepare, if_pos rfl]
    rw [Library.finalize_eq hcompiled hdb]
    rintro ⟨⟩
    exact ⟨fun _ _ _ => Iff.rfl, fun _ => Iff.rfl⟩
  · rintro ⟨⟩
    exact refl s
  · simp

lemma createTransaction : Quiet s (s.createTransaction p impl) := by
  fun_cases Program.createTransaction s p impl
  · next db _ =>
    refine ⟨fun q d hd => ?_, fun c => ?_⟩
    · refine Holds.body_retain_iff.trans ((Holds.body_allocate_iff (hd.ne ?_)).trans ?_)
      · simp [Object.Lasting, Object.objectClass]
      · cases db with
        | none => rfl
        | some r => exact Holds.body_retain_iff
    · cases db with
      | none => rfl
      | some r => rfl
  · exact refl s

end Quiet

/-- What a call does: it leaves connections, sessions and schemas as they are, or is one of six. -/
inductive Performed (s : Program) (p : Nat) : Call → Object → Program → Prop where
  | quiet {c b s'} : Quiet s s' → Performed s p c b s'
  | openSession {result b} (impl : Nat) :
    (∃ schemaCache, b = .session impl schemaCache) ∨ (impl = p ∧ ∃ db, b = .sessionImpl db) →
    Performed s p (.openSession result) b (s.openSession impl result)
  | closeSession {b s'} (impl : Nat) :
    s.closeSession impl = some s' → Performed s p .closeSession b s'
  | getSchema {tableName impl schemaCache} :
    Performed s p (.getSchema tableName) (.session impl schemaCache)
      (s.getSchema p impl schemaCache tableName)
  | clearSchema {tableName impl schemaCache s'} :
    s.clearSchema p impl schemaCache tableName = some s' →
    Performed s p (.clearSchema tableName) (.session impl schemaCache) s'
  | finish {sess q s'} :
    Program.release { s with heap := s.heap.modify p (.statement sess none) } [q] = some s' →
    Performed s p .finish (.statement sess (some q)) s'
  | drop {b s'} :
    Program.release { s with held := s.held.erase p } [p] = some s' → Performed s p .drop b s'

lemma Program.performed {s s' : Program} {p : Nat} {c : Call} {b : Object}
    (hb : s.heap.body p = some b) (hs' : s.perform p c b = some s') : Performed s p c b s' := by
  revert hs'
  fun_cases Program.perform s p c b
  · rintro ⟨⟩
    exact .openSession _ (.inl ⟨_, rfl⟩)
  · rintro ⟨⟩
    exact .openSession _ (.inr ⟨rfl, _, rfl⟩)
  · exact .closeSession _
  · exact .closeSession _
  · rintro ⟨⟩
    exact .getSchema
  · exact .clearSchema
  · rintro ⟨⟩
    exact .quiet (Quiet.make_one (by simp [Object.Lasting, Object.objectClass]))
  · rintro ⟨⟩
    exact .quiet (Quiet.make_one (by simp [Object.Lasting, Object.objectClass]))
  · exact fun hs' => .quiet (Quiet.prepare hb hs')
  · exact .finish
  · rintro ⟨⟩
    exact .quiet (Quiet.make_two (by simp [Object.Lasting, Object.objectClass]))
  · exact fun hs' => .quiet (Quiet.sessionQuery hs')
  · exact fun hs' => .quiet (Quiet.sessionQuery hs')
  · exact fun hs' => .quiet (Quiet.sessionExecute hs')
  · exact fun hs' => .quiet (Quiet.sessionExecute hs')
  · rintro ⟨⟩
    exact .quiet (Quiet.make_two (by simp [Object.Lasting, Object.objectClass]))
  · rintro ⟨⟩
    exact .quiet (Quiet.make_one (by simp [Object.Lasting, Object.objectClass]))
  · rintro ⟨⟩
    exact .quiet Quiet.createTransaction
  · intro hs'
    obtain ⟨-, -, rfl⟩ := Option.map_eq_some_iff.mp hs'
    exact .quiet (Quiet.refl s)
  · rintro ⟨⟩
    exact .quiet (Quiet.share _)
  · rintro ⟨⟩
    exact .quiet (Quiet.share _)
  · rintro ⟨⟩
    exact .quiet (Quiet.share _)
  · intro hs'
    obtain ⟨-, -, hdrop⟩ := Option.bind_eq_some_iff.mp hs'
    exact .drop hdrop
  · rintro ⟨⟩
    exact .quiet (Quiet.refl s)

/-- What becomes of the connections in a step: new ones have objects that stand for them, and one
that loses its object is closed unless a statement of it is left or the step takes it down. -/
structure Fate (s s' : Program) (takesDown : Nat → Prop) : Prop where
  allocated : ∀ db, s'.library.Allocated db →
    s.library.Allocated db ∨ ∃ q, s'.heap.body q = some (.connection db)
  connection : ∀ q db, s'.heap.body q = some (.connection db) →
    s.heap.body q = some (.connection db) ∨ ¬s.library.Allocated db
  gone : ∀ q db, s.heap.body q = some (.connection db) →
    s'.heap.body q = some (.connection db) ∨ s'.heap.body q = none ∧
      (s'.library.Allocated db ↔ (∃ stmt, s'.library.compiledOn stmt = some db) ∨ takesDown db)

namespace Fate

variable {s s' : Program} {takesDown : Nat → Prop} {p : Nat} {b : Object}

/-- Nothing happens to connections. -/
lemma of_same (hbody : ∀ q db, s'.heap.body q = some (.connection db) ↔
      s.heap.body q = some (.connection db))
    (hallocated : ∀ db, s'.library.Allocated db ↔ s.library.Allocated db) :
    Fate s s' takesDown :=
  ⟨fun db hdb => .inl ((hallocated db).mp hdb), fun q db hq => .inl ((hbody q db).mp hq),
    fun q db hq => .inl ((hbody q db).mpr hq)⟩

lemma refl (s : Program) : Fate s s takesDown := of_same (fun _ _ => Iff.rfl) fun _ => Iff.rfl

/-- Pointers are released after an object that is no connection has changed. -/
lemma release {t : Program} {ps : List Nat} (hlibrary : t.library = s.library)
    (hsame : ∀ q db, t.heap.body q = some (.connection db) ↔
      s.heap.body q = some (.connection db))
    (ht : Holds t.heap t.library (ps ++ t.held)) (hs' : t.release ps = some s')
    (hgone : ∀ h' l', Shared.release Object.destroy t.heap t.library ps = some (h', l') →
      ∀ q db, t.heap.body q = some (.connection db) → h'.body q = none →
      (l'.Allocated db ↔ (∃ stmt, l'.compiledOn stmt = some db) ∨ takesDown db)) :
    Fate s s' takesDown := by
  obtain ⟨h', l', hrelease, -, hremains, hallocated⟩ := ht.release
  rw [Program.release, hrelease, Option.map_some] at hs'
  cases hs'
  rw [hlibrary] at hallocated
  refine ⟨fun db hdb => .inl (hallocated db hdb), fun q db hq => ?_, fun q db hq => ?_⟩
  · obtain heq | hnone := hremains q
    · exact .inl ((hsame q db).mp (heq ▸ hq))
    · rw [hnone] at hq
      cases hq
  · have hq₀ := (hsame q db).mpr hq
    obtain heq | hnone := hremains q
    · exact .inl (heq.trans hq₀)
    · exact .inr ⟨hnone, hgone h' l' hrelease q db hq₀ hnone⟩

end Fate

/-- A connection that is allocated and that no object stands for. -/
def Lost (s : Program) (db : Nat) : Prop :=
  s.library.Allocated db ∧ ∀ p, s.heap.body p ≠ some (.connection db)

/-- A connection cannot be opened. -/
def FailsToOpen (s : Program) (op : ObjectOp) : Prop :=
  ∃ p impl, op = .call p (.openSession .error) ∧ s.heap.body impl = some (.sessionImpl none) ∧
    ((∃ schemaCache, s.object p = some (.session impl schemaCache)) ∨
      impl = p ∧ s.object p = some (.sessionImpl none))

/-- A connection is lost in a step: it could not be opened, or it goes while a statement compiled on
it is left, or together with the last pointer to a result set or a row of it. -/
def Loses (s : Program) (op : ObjectOp) : Prop :=
  FailsToOpen s op ∨
  ∃ q db, s.heap.body q = some (.connection db) ∧
    (objectMachine.step s op).1.heap.body q = none ∧
    ((∃ r stmt, (objectMachine.step s op).1.heap.body r = some (.compiled stmt) ∧
        (objectMachine.step s op).1.library.compiledOn stmt = some db) ∨
      ∃ p b, op = .call p .drop ∧ s.object p = some b ∧
        (objectMachine.step s op).1.heap.body p = none ∧ TakesDown s.heap s.library db b)

namespace Program

variable {s s' : Program} {p impl : Nat} {b : Object} {c : Call}

lemma openSession_fate {result : Opened}
    (hop : ¬(result = .error ∧ s.heap.body impl = some (.sessionImpl none)))
    (takesDown : Nat → Prop) : Fate s (s.openSession impl result) takesDown := by
  fun_cases Program.openSession s impl result
  · next himpl r c =>
    have himpl' : c.2.body impl = some (.sessionImpl none) := Holds.body_allocate_of himpl
    have hbody : ∀ q db, (c.2.modify impl (.sessionImpl (some c.1))).body q =
        some (.connection db) ↔ c.2.body q = some (.connection db) := fun q db =>
      Holds.body_modify_iff himpl' (by simp) (by simp)
    refine ⟨fun db hdb => ?_, fun q db hq => ?_, fun q db hq => .inl ?_⟩
    · obtain hdb | rfl := Library.allocated_sqliteOpen.mp hdb
      · exact .inl hdb
      · refine .inr ⟨c.1, (hbody _ _).mpr ?_⟩
        rw [Heap.body_allocate, Function.update_self]
    · obtain ⟨-, heq⟩ | ⟨-, hq⟩ := Holds.body_allocate_eq_some ((hbody q db).mp hq)
      · cases heq
        exact .inr Library.not_allocated_sqliteOpen_fst
      · exact .inl hq
    · exact (hbody q db).mpr (Holds.body_allocate_of hq)
  · next himpl => exact absurd ⟨rfl, himpl⟩ hop
  · exact Fate.refl s

lemma closeSession_fate (hs : s.Sound) (hs' : s.closeSession impl = some s')
    (takesDown : Nat → Prop) (hnone : ∀ db, ¬takesDown db) : Fate s s' takesDown := by
  revert hs'
  fun_cases Program.closeSession s impl
  · next q himpl =>
    intro hs'
    obtain ⟨db, hq⟩ := Holds.exists_connection hs (q := q) (by simp [Object.members]) himpl
    have hsame : ∀ q db, (s.heap.modify impl (.sessionImpl none)).body q =
        some (.connection db) ↔ s.heap.body q = some (.connection db) := fun q db =>
      Holds.body_modify_iff himpl (by simp) (by simp)
    have hmodify := closeSession_holds hs himpl
    refine Fate.release (t := { s with heap := s.heap.modify impl (.sessionImpl none) }) rfl hsame
      hmodify hs' fun h' l' hrelease r db' hr hgone => ?_
    rw [or_iff_left (hnone db')]
    exact Holds.allocated_release_upper hmodify ((hsame q db).mpr hq) (.inl rfl) hrelease hr hgone
  · rintro ⟨⟩
    exact Fate.refl s

lemma clearSchema_fate {schemaCache : List (String × Nat)} {tableName : String} (hs : s.Sound)
    (hb : s.heap.body p = some (.session impl schemaCache))
    (hs' : s.clearSchema p impl schemaCache tableName = some s') (takesDown : Nat → Prop)
    (hnone : ∀ db, ¬takesDown db) : Fate s s' takesDown := by
  have hmodify := clearSchema_holds hs hb tableName
  have hsame : ∀ q db, (s.heap.modify p (.session impl
      (schemaCache.filter fun e => e.1 ≠ tableName))).body q = some (.connection db) ↔
        s.heap.body q = some (.connection db) := fun q db =>
    Holds.body_modify_iff hb (by simp) (by simp)
  refine Fate.release (t := { s with heap := s.heap.modify p (.session impl
    (schemaCache.filter fun e => e.1 ≠ tableName)) }) rfl hsame hmodify hs'
    fun h' l' hrelease r db hr hgone => ?_
  have hupper : ∀ q ∈ (schemaCache.filter fun e => e.1 = tableName).map Prod.snd, ∀ b,
      (s.heap.modify p (.session impl (schemaCache.filter fun e => e.1 ≠ tableName))).body q =
        some b → b.Upper := by
    intro q hq b hb'
    obtain ⟨e, he, rfl⟩ := List.mem_map.mp hq
    have hm : (ObjectClass.schema, e.2) ∈ (Object.session impl schemaCache).members :=
      List.mem_append_left _ (List.mem_map.mpr ⟨e, (List.mem_filter.mp he).1, rfl⟩)
    rw [Heap.body_modify hb, Function.update_apply] at hb'
    split at hb'
    · cases hb'
      simp [Object.Upper, Object.objectClass]
    · rw [Object.Upper, hs.wellFormed.typed p _ hb _ hm b hb']
      simp
  obtain ⟨h₁, l₁, hrelease₁, -, hclosed⟩ := Holds.release_upper hmodify hupper
  rw [hrelease₁] at hrelease
  cases hrelease
  rw [or_iff_left (hnone db), hclosed.gone r db hr hgone]
  simp only [hclosed.compiledOn]

lemma finish_fate {sess q : Nat} (hs : s.Sound)
    (hb : s.heap.body p = some (.statement sess (some q)))
    (hs' : Program.release { s with heap := s.heap.modify p (.statement sess none) } [q] = some s')
    (takesDown : Nat → Prop) : Fate s s' takesDown := by
  have hmodify := finish_holds hs hb
  have hsame : ∀ q db, (s.heap.modify p (.statement sess none)).body q = some (.connection db) ↔
      s.heap.body q = some (.connection db) := fun q db =>
    Holds.body_modify_iff hb (by simp) (by simp)
  obtain ⟨stmt, hq⟩ := Holds.exists_compiled hs (q := q) (by simp [Object.members]) hb
  refine Fate.release (t := { s with heap := s.heap.modify p (.statement sess none) }) rfl hsame
    hmodify hs' fun h' l' hrelease r db hr hgone => ?_
  have hq' : (s.heap.modify p (.statement sess none)).body q = some (.compiled stmt) := by
    rw [Heap.body_modify hb, Function.update_of_ne, hq]
    rintro rfl
    rw [hb] at hq
    cases hq
  obtain ⟨h₁, l₁, hrelease₁, -, hbody, -⟩ := hmodify.release_compiled hq'
  rw [hrelease₁] at hrelease
  cases hrelease
  -- the connections stay
  have hne : r ≠ q := by
    rintro rfl
    cases hr.symm.trans hq'
  cases (hr.symm.trans (hbody r hne).symm).trans hgone

lemma drop_fate (hs : s.Sound) (hp : p ∈ s.held) (hb : s.heap.body p = some b)
    (hs' : Program.release { s with held := s.held.erase p } [p] = some s') :
    Fate s s' fun db => s'.heap.body p = none ∧ TakesDown s.heap s.library db b := by
  refine Fate.release (t := { s with held := s.held.erase p }) rfl (fun _ _ => Iff.rfl)
    (drop_holds hs hp) hs' fun h' l' hrelease r db hr hgone => ?_
  rw [Program.release, hrelease, Option.map_some] at hs'
  cases hs'
  exact Holds.allocated_release_iff (drop_holds hs hp) hb hrelease hr hgone

lemma getSchema_fate {schemaCache : List (String × Nat)} {tableName : String}
    (hb : s.heap.body p = some (.session impl schemaCache)) (takesDown : Nat → Prop) :
    Fate s (s.getSchema p impl schemaCache tableName) takesDown := by
  fun_cases Program.getSchema s p impl schemaCache tableName
  · exact Fate.of_same (fun _ _ => Holds.body_retain_iff) fun _ => Iff.rfl
  · exact Fate.refl s
  · next c =>
    have hsession : (c.2.retain c.1).body p = some (.session impl schemaCache) := by
      rw [Heap.body_retain]
      exact Holds.body_allocate_of (by rw [Heap.body_retain]; exact hb)
    refine Fate.of_same (fun q db => ?_) fun _ => Iff.rfl
    refine (Holds.body_modify_iff hsession (by simp) (by simp)).trans
      (Holds.body_retain_iff.trans ?_)
    exact (Holds.body_allocate_iff (by simp)).trans Holds.body_retain_iff

lemma perform_fate (hs : s.Sound) (hb : s.object p = some b) (hs' : s.perform p c b = some s')
    (hop : ¬FailsToOpen s (.call p c)) :
    Fate s s' fun db => c = .drop ∧ s'.heap.body p = none ∧ TakesDown s.heap s.library db b := by
  obtain ⟨hp, hbody⟩ := object_eq_some_iff.mp hb
  cases performed hbody hs' with
  | quiet hquiet =>
    exact Fate.of_same (fun q db => hquiet.body q _ (.inl rfl)) hquiet.allocated
  | openSession impl hobject =>
    refine openSession_fate ?_ _
    rintro ⟨rfl, himpl⟩
    obtain ⟨schemaCache, rfl⟩ | ⟨rfl, db, rfl⟩ := hobject
    · exact hop ⟨p, impl, rfl, himpl, .inl ⟨schemaCache, hb⟩⟩
    · rw [hbody] at himpl
      cases himpl
      exact hop ⟨impl, impl, rfl, hbody, .inr ⟨rfl, hb⟩⟩
  | closeSession impl hclose => exact closeSession_fate hs hclose _ (by simp)
  | getSchema => exact getSchema_fate hbody _
  | clearSchema hclear => exact clearSchema_fate hs hbody hclear _ (by simp)
  | finish hfinish => exact finish_fate hs hbody hfinish _
  | drop hdrop => simpa using drop_fate hs hp hbody hdrop

lemma createSession_fate (takesDown : Nat → Prop) : Fate s s.createSession takesDown :=
  Fate.of_same (fun _ _ => (Holds.body_allocate_iff (by simp)).trans
    (Holds.body_allocate_iff (by simp))) fun _ => Iff.rfl

/-- Nothing points to a connection that could not be opened. -/
lemma openSession_lost (hs : s.Sound) (himpl : s.heap.body impl = some (.sessionImpl none)) :
    Lost (s.openSession impl .error) s.library.sqliteOpen.1 := by
  simp only [Program.openSession, himpl]
  refine ⟨Library.allocated_sqliteOpen.mpr (.inr rfl), fun q hq => ?_⟩
  exact Library.not_allocated_sqliteOpen_fst (hs.wellFormed.connection q _ hq)

end Program

variable {s : Program} {op : ObjectOp}

lemma step_eq {s' : Program} (hs' : s.step? op = some s') : (objectMachine.step s op).1 = s' := by
  simp only [objectMachine, hs']

lemma failsToOpen_lost (hs : s.Sound) (hop : FailsToOpen s op) :
    Lost (objectMachine.step s op).1 s.library.sqliteOpen.1 := by
  obtain ⟨p, impl, rfl, himpl, ⟨schemaCache, hb⟩ | ⟨rfl, hb⟩⟩ := hop
  · have hstep : s.step? (.call p (.openSession .error)) = some (s.openSession impl .error) := by
      simp only [Program.step?, hb]
      rfl
    rw [step_eq hstep]
    exact Program.openSession_lost hs himpl
  · have hstep : s.step? (.call impl (.openSession .error)) = some (s.openSession impl .error) := by
      simp only [Program.step?, hb]
      rfl
    rw [step_eq hstep]
    exact Program.openSession_lost hs himpl

lemma step_fate (hs : s.Sound) (hop : ¬FailsToOpen s op) :
    Fate s (objectMachine.step s op).1 fun db => ∃ p b, op = .call p .drop ∧ s.object p = some b ∧
      (objectMachine.step s op).1.heap.body p = none ∧ TakesDown s.heap s.library db b := by
  cases hs' : s.step? op with
  | none =>
    simp only [objectMachine, hs']
    exact Fate.refl s
  | some s' =>
    rw [step_eq hs']
    revert hs'
    fun_cases Program.step? s op
    · rintro ⟨⟩
      exact Program.createSession_fate _
    · rintro ⟨⟩
      exact Fate.refl s
    · next p c b hb =>
      intro hs'
      have hfate := Program.perform_fate hs hb hs' hop
      refine ⟨hfate.allocated, hfate.connection, fun q db hq => ?_⟩
      refine (hfate.gone q db hq).imp_right (And.imp_right fun hiff => hiff.trans ?_)
      refine or_congr_right ⟨fun h => ⟨p, b, by rw [h.1], hb, h.2⟩, ?_⟩
      rintro ⟨p', b', heq, hb', h⟩
      cases heq
      rw [hb] at hb'
      cases hb'
      exact ⟨rfl, h⟩

/-- The steps that lose a connection are those after which one is lost. -/
lemma not_loses_iff (hs : s.Sound) (hlost : ∀ db, ¬Lost s db) :
    ¬Loses s op ↔ ∀ db, ¬Lost (objectMachine.step s op).1 db := by
  have hs' := step_sound s op hs
  by_cases hop : FailsToOpen s op
  · exact iff_of_false (fun h => h (.inl hop)) fun h => h _ (failsToOpen_lost hs hop)
  have hfate := step_fate hs hop
  constructor
  · intro hnot db hdb
    obtain hold | ⟨q, hq⟩ := hfate.allocated db hdb.1
    · obtain ⟨q, hq⟩ := not_forall_not.mp fun hnone => hlost db ⟨hold, hnone⟩
      obtain hq' | ⟨hgone, hiff⟩ := hfate.gone q db hq
      · exact hdb.2 q hq'
      · refine hnot (.inr ⟨q, db, hq, hgone, (hiff.mp hdb.1).imp_left ?_⟩)
        rintro ⟨stmt, hstmt⟩
        obtain ⟨r, hr⟩ := hs'.wellFormed.owned stmt db hstmt
        exact ⟨r, stmt, hr, hstmt⟩
    · exact hdb.2 q hq
  · rintro hnone (hfails | ⟨q, db, hq, hgone, hleft⟩)
    · exact hop hfails
    · obtain hq' | ⟨-, hiff⟩ := hfate.gone q db hq
      · rw [hgone] at hq'
        cases hq'
      · refine hnone db ⟨hiff.mpr (hleft.imp_left fun ⟨r, stmt, _, hstmt⟩ => ⟨stmt, hstmt⟩), ?_⟩
        -- no other object stands for it
        intro r hr
        obtain hr' | hnew := hfate.connection r db hr
        · obtain rfl := hs.wellFormed.connectionOnce r q db hr' hq
          rw [hgone] at hr
          cases hr
        · exact hnew (hs.wellFormed.connection q db hq)

/-- Every connection of a run is closed with its last pointer exactly when all could be opened, none
went while a statement of it was left, and none with a result set or a row of it. -/
theorem losesNothing_iff (ops : List ObjectOp) :
    objectMachine.Along (fun s op => ¬Loses s op) {} ops ↔
      ∀ n db, ¬Lost (objectMachine.run {} (ops.take n)).1 db := by
  have hiff := objectMachine.along_iff (fun s op => ¬Loses s op)
    (fun s => s.Sound ∧ ∀ db, ¬Lost s db) (fun _ => True) (fun s op hs => ?_)
    (s := {}) ⟨Program.sound_empty, fun db hdb => ?_⟩ ops
  · rw [hiff]
    constructor
    · exact fun h n => (h.1 n).2
    · exact fun h => ⟨fun n => ⟨run_sound _, h n⟩, fun _ _ => trivial⟩
  · rw [not_loses_iff hs.1 hs.2]
    exact ⟨fun h => ⟨⟨step_sound s op hs.1, h⟩, fun _ _ => trivial⟩, fun h => h.1.2⟩
  · exact absurd hdb.1 (by simp [Library.Allocated])

end CodaDb.Sqlite
