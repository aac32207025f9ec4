import CodaDb.Postgres.Binding

/-!
# The text with numbers

The text that `postgres::binding::prepare` makes has the right numbers at the right places exactly
if there is at most one question mark, no literal before a question mark or a name looks like it,
and the numbers of the names are not taken. The dollar signs within literals tell whether a
replacement went to a wrong place.
-/

namespace CodaDb

/-- A question mark or a name. -/
def SqlParam.isReplaced : SqlParam → Bool
  | .question | .name _ => true
  | .dollar _ => false

namespace Postgres.Binding

open Search SqlParam Bindable

/-- The text with a number for each name and each question mark, after so many of these. -/
def render (index : Nat → SqlParam → Nat) : Nat → SqlParts → List Char
  | _, [] => []
  | count, .plain c :: ps => c :: render index count ps
  | count, .literal cs :: ps => (SqlPart.literal cs).text ++ render index count ps
  | count, .param (.dollar ds) :: ps => SqlParam.text (.dollar ds) ++ render index count ps
  | count, .param .question :: ps => label (index count .question) ++ render index (count + 1) ps
  | count, .param (.name n) :: ps => label (index count (.name n)) ++ render index count ps

/-- The replacements of the parameters one after another. -/
def substitute (index : Nat → SqlParam → Nat) :
    Nat → List SqlParam → List Char → Option (List Char)
  | _, [], formatted => some formatted
  | count, .dollar _ :: ps, formatted => substitute index count ps formatted
  | count, .question :: ps, formatted =>
    (replaceFirst (text .question) (label (index count .question)) formatted).bind
      (substitute index (count + 1) ps)
  | count, .name n :: ps, formatted =>
    (replaceFirst (text (.name n)) (label (index count (.name n))) formatted).bind
      (substitute index count ps)

def questions (ps : SqlParts) : Nat := ps.params.countP isQuestion

variable {index index' : Nat → SqlParam → Nat} {ps ps₁ ps₂ : SqlParts} {count i : Nat}
  {p : SqlParam} {cs : List Char}

lemma render_append (index : Nat → SqlParam → Nat) (count : Nat) (ps₁ ps₂ : SqlParts) :
    render index count (ps₁ ++ ps₂) =
      render index count ps₁ ++ render index (count + questions ps₁) ps₂ := by
  induction ps₁ generalizing count with
  | nil => rfl
  | cons part ps ih =>
    rw [List.cons_append]
    cases part with
    | plain c => exact congrArg (c :: ·) (ih count)
    | literal cs => rw [render, render, ih, List.append_assoc]; rfl
    | param p =>
      cases p with
      | question =>
        have hcount : count + questions (.param .question :: ps) = count + 1 + questions ps := by
          rw [questions, SqlParts.params, List.filterMap_cons_some (by rfl),
            List.countP_cons_of_pos rfl]
          exact (Nat.add_right_comm count 1 _).symm
        rw [render, render, ih, List.append_assoc, hcount]
      | dollar ds => rw [render, render, ih, List.append_assoc]; rfl
      | name n => rw [render, render, ih, List.append_assoc]; rfl

/-- The characters of a label are neither quotes nor do they begin a question mark or a name. -/
lemma label_chars {c : Char} (hc : c ∈ label i) :
    isQuote c = false ∧ c ≠ '?' ∧ ¬(c = '@' ∨ c = ':') := by
  obtain rfl | hc := List.mem_cons.mp hc
  · decide
  · have hword := isWord_of_isDigit (Nat.isDigit_of_mem_toDigits (by decide) (by decide) hc)
    refine ⟨isQuote_of_isWord hword, ?_, ?_⟩
    · rintro rfl
      exact absurd hword (by decide)
    · rintro (rfl | rfl) <;> exact absurd hword (by decide)

lemma dollar_chars {ds : Digits} {c : Char} (hc : c ∈ text (.dollar ds)) :
    isQuote c = false ∧ c ≠ '?' ∧ ¬(c = '@' ∨ c = ':') := by
  refine ⟨SqlParts.isQuote_of_text hc, ?_⟩
  obtain rfl | hc := List.mem_cons.mp hc
  · decide
  · have hword := isWord_of_isDigit (ds.2.2 c hc)
    refine ⟨?_, ?_⟩
    · rintro rfl
      exact absurd hword (by decide)
    · rintro (rfl | rfl) <;> exact absurd hword (by decide)

/-! ### Dollar signs in literals -/

/-- Whether the text after this one is quoted. -/
def quotedAfter : Bool → List Char → Bool
  | quoted, [] => quoted
  | quoted, c :: cs => quotedAfter (quoted != isQuote c) cs

/-- The number of dollar signs in quotes. -/
def dollars : Bool → List Char → Nat
  | _, [] => 0
  | quoted, c :: cs => (if quoted && c = '$' then 1 else 0) + dollars (quoted != isQuote c) cs

lemma quotedAfter_append (quoted : Bool) (us vs : List Char) :
    quotedAfter quoted (us ++ vs) = quotedAfter (quotedAfter quoted us) vs := by
  induction us generalizing quoted with
  | nil => rfl
  | cons c us ih => exact ih _

lemma dollars_append (quoted : Bool) (us vs : List Char) :
    dollars quoted (us ++ vs) = dollars quoted us + dollars (quotedAfter quoted us) vs := by
  induction us generalizing quoted with
  | nil => exact (Nat.zero_add _).symm
  | cons c us ih => rw [List.cons_append, dollars, ih, dollars, quotedAfter, Nat.add_assoc]

lemma quotedAfter_of_not {us : List Char} (h : ∀ c ∈ us, isQuote c = false) (quoted : Bool) :
    quotedAfter quoted us = quoted := by
  induction us with
  | nil => rfl
  | cons c us ih =>
    rw [quotedAfter, h c (List.mem_cons_self ..), Bool.bne_false]
    exact ih fun d hd => h d (List.mem_cons_of_mem c hd)

lemma dollars_of_not {us : List Char} (h : ∀ c ∈ us, isQuote c = false) (quoted : Bool) :
    dollars quoted us = if quoted then us.count '$' else 0 := by
  induction us with
  | nil => cases quoted <;> rfl
  | cons c us ih =>
    rw [dollars, h c (List.mem_cons_self ..), Bool.bne_false,
      ih fun d hd => h d (List.mem_cons_of_mem c hd), List.count_cons]
    cases quoted
    · rfl
    · simp [Nat.add_comm]

/-- Outside of literals dollar signs do not count. -/
lemma dollars_block {us : List Char} (h : ∀ c ∈ us, isQuote c = false) (vs : List Char) :
    dollars false (us ++ vs) = dollars false vs := by
  rw [dollars_append, dollars_of_not h, quotedAfter_of_not h]
  exact Nat.zero_add _

/-- A literal is closed. -/
lemma quotedAfter_literal (hcs : ∀ c ∈ cs, isQuote c = false) :
    quotedAfter false (SqlPart.text (.literal cs)) = false := by
  have hopen : quotedAfter false (SqlPart.text (.literal cs)) =
      quotedAfter true (cs ++ [apostrophe]) := rfl
  rw [hopen, quotedAfter_append, quotedAfter_of_not hcs]
  rfl

/-- A part whose quotes are those around a literal. -/
def Quoted : SqlPart → Prop
  | .plain c => isQuote c = false
  | .literal cs => ∀ c ∈ cs, isQuote c = false
  | .param _ => True

lemma quoted_of_reads (h : ps.Reads) : ∀ part ∈ ps, Quoted part := by
  induction ps with
  | nil => exact fun part hpart => absurd hpart List.not_mem_nil
  | cons part ps ih =>
    intro part' hpart'
    obtain rfl | hrest := List.mem_cons.mp hpart'
    · cases part' with
      | plain c => exact h.1
      | literal cs => exact h.1
      | param p => trivial
    · cases part with
      | plain c => exact ih h.2.2.2.2 part' hrest
      | literal cs => exact ih h.2 part' hrest
      | param p => exact ih h.2 part' hrest

/-- The numbers of a rendered text do not count. -/
lemma dollars_render (h : ∀ part ∈ ps, Quoted part) (index : Nat → SqlParam → Nat) (count : Nat)
    (vs : List Char) :
    dollars false (render index count ps ++ vs) = dollars false (ps.text ++ vs) := by
  induction ps generalizing count with
  | nil => rfl
  | cons part ps ih =>
    have hpart := h part (List.mem_cons_self ..)
    have hrest := ih fun part' hpart' => h part' (List.mem_cons_of_mem part hpart')
    rw [SqlParts.text_cons, List.append_assoc]
    cases part with
    | plain c =>
      have hplain : ∀ d ∈ [c], isQuote d = false := fun d hd => List.mem_singleton.mp hd ▸ hpart
      rw [SqlPart.text, dollars_block hplain, ← hrest count]
      exact dollars_block hplain _
    | literal cs =>
      rw [render, List.append_assoc, dollars_append, quotedAfter_literal hpart, hrest,
        dollars_append false _ (SqlParts.text ps ++ vs), quotedAfter_literal hpart]
    | param p =>
      rw [SqlPart.text, dollars_block fun c => SqlParts.isQuote_of_text]
      cases p with
      | question =>
        rw [render, List.append_assoc, dollars_block fun c hc => (label_chars hc).1, hrest]
      | dollar ds =>
        rw [render, List.append_assoc, dollars_block fun c => SqlParts.isQuote_of_text, hrest]
      | name n =>
        rw [render, List.append_assoc, dollars_block fun c hc => (label_chars hc).1, hrest]

lemma dollars_label (quoted : Bool) (i : Nat) :
    dollars quoted (label i) = if quoted then 1 else 0 := by
  have hdigits : (Nat.toDigits 10 i).count '$' = 0 := by
    refine List.count_eq_zero.mpr fun hmem => ?_
    exact absurd (Nat.isDigit_of_mem_toDigits (b := 10) (by decide) (by decide) hmem) (by decide)
  rw [dollars_of_not (fun c hc => (label_chars hc).1) quoted, label, List.count_cons_self, hdigits]

/-- A replacement adds a dollar sign where it is made. -/
lemma dollars_replace (hp : p.isReplaced = true) (us vs : List Char) (i : Nat) :
    dollars false (us ++ (label i ++ vs)) =
      dollars false (us ++ (p.text ++ vs)) + if quotedAfter false us then 1 else 0 := by
  have hnone : p.text.count '$' = 0 := by
    refine List.count_eq_zero.mpr fun hmem => ?_
    cases p with
    | question => exact absurd hmem (by decide)
    | dollar ds => cases hp
    | name n =>
      obtain h | hmem := List.mem_cons.mp hmem
      · obtain hsigil | hsigil := n.hsigil <;> rw [hsigil] at h <;> exact absurd h (by decide)
      · exact absurd (n.hword.2 _ hmem) (by decide)
  have hquotes : ∀ c ∈ p.text, isQuote c = false := fun c => SqlParts.isQuote_of_text
  have hlabel : ∀ c ∈ label i, isQuote c = false := fun c hc => (label_chars hc).1
  rw [dollars_append, dollars_append, dollars_append false us, dollars_append _ p.text,
    quotedAfter_of_not hlabel, quotedAfter_of_not hquotes, dollars_label, dollars_of_not hquotes,
    hnone, ite_self]
  omega

lemma dollars_le_substitute {params : List SqlParam} {cs cs' : List Char}
    (h : substitute index count params cs = some cs') : dollars false cs ≤ dollars false cs' := by
  induction params generalizing count cs with
  | nil => exact Nat.le_of_eq (congrArg (dollars false) (Option.some.inj h))
  | cons p params ih =>
    cases p with
    | dollar ds => exact ih h
    | question =>
      obtain ⟨cs₁, hreplace, hrest⟩ := Option.bind_eq_some_iff.mp h
      obtain ⟨u, v, rfl, rfl, -⟩ := replaceFirst_eq_some hreplace
      refine Nat.le_trans ?_ (ih hrest)
      rw [dollars_replace (p := .question) rfl]
      exact Nat.le_add_right _ _
    | name n =>
      obtain ⟨cs₁, hreplace, hrest⟩ := Option.bind_eq_some_iff.mp h
      obtain ⟨u, v, rfl, rfl, -⟩ := replaceFirst_eq_some hreplace
      refine Nat.le_trans ?_ (ih hrest)
      rw [dollars_replace (p := .name n) rfl]
      exact Nat.le_add_right _ _

/-! ### The first place that looks like a parameter -/

/-- The characters of a question mark or a name. -/
lemma exists_text (hp : p.isReplaced = true) : ∃ c word, p.text = c :: word ∧
    (c = '?' ∨ (c = '@' ∨ c = ':') ∧ ∃ d ∈ word.head?, isWord d = true) := by
  cases p with
  | question => exact ⟨'?', [], rfl, .inl rfl⟩
  | dollar ds => cases hp
  | name n =>
    obtain ⟨d, word, hword⟩ := List.exists_cons_of_ne_nil n.hword.1
    refine ⟨n.sigil, n.word, rfl, .inr ⟨n.hsigil, d, ?_, n.hword.2 d ?_⟩⟩
    · rw [hword]
      rfl
    · rw [hword]
      exact List.mem_cons_self ..

/-- A place within a block or after it. -/
lemma append_cases {us vs as bs : List Char} (h : us ++ vs = as ++ bs) :
    (∃ us', us = as ++ us' ∧ us' ≠ [] ∧ bs = us' ++ vs) ∨
      ∃ as', as = us ++ as' ∧ vs = as' ++ bs := by
  obtain ⟨as', rfl, rfl⟩ | ⟨us', rfl, rfl⟩ := List.append_eq_append_iff.mp h
  · exact .inr ⟨as', rfl, rfl⟩
  · cases us' with
    | nil => exact .inr ⟨[], by rw [List.append_nil, List.append_nil], rfl⟩
    | cons u us' => exact .inl ⟨u :: us', rfl, List.cons_ne_nil u us', rfl⟩

/-- After a replacement a text begins with a word character only if it did before. -/
lemma head_render {q : Char → Bool} (hq : q '$' = false)
    (h : ∀ d ∈ (SqlParts.text (ps₁ ++ ps₂)).head?, q d = false) (index : Nat → SqlParam → Nat)
    (count : Nat) : ∀ d ∈ (render index count ps₁ ++ SqlParts.text ps₂).head?, q d = false := by
  have hdollar : ∀ {us : List Char}, ∀ d ∈ (('$' :: us) : List Char).head?, q d = false :=
    fun d hd => Option.some.inj hd ▸ hq
  cases ps₁ with
  | nil => exact h
  | cons part ps =>
    cases part with
    | plain c => exact h
    | literal cs => exact h
    | param p => cases p <;> exact hdollar

/-- A word that begins within a literal, and has no quotes, is in it. -/
lemma infix_of_literal {us cs' word rest vs : List Char} (hcs : ∀ c ∈ cs, isQuote c = false)
    (hword : ∀ c ∈ word, isQuote c = false) (hne : word ≠ [])
    (hsplit : SqlPart.text (.literal cs) = us ++ cs') (hcs' : cs' ≠ [])
    (hoccurs : word ++ vs = cs' ++ rest) : quotedAfter false us = true ∧ word <:+: cs := by
  cases us with
  | nil =>
    obtain ⟨c, word, rfl⟩ := List.exists_cons_of_ne_nil hne
    have hhead : c :: (word ++ vs) = apostrophe :: (cs ++ [apostrophe] ++ rest) := by
      rw [← List.cons_append, hoccurs, ← List.cons_append]
      exact congrArg (· ++ rest) hsplit.symm
    obtain ⟨rfl, -⟩ := List.cons.inj hhead
    exact absurd (hword apostrophe (List.mem_cons_self ..)) (by decide)
  | cons u us =>
    have hhead : apostrophe :: (cs ++ [apostrophe]) = u :: (us ++ cs') := hsplit
    obtain ⟨rfl, hrest⟩ := List.cons.inj hhead
    obtain rfl | ⟨cs'', x, rfl⟩ := List.eq_nil_or_concat cs'
    · exact absurd rfl hcs'
    rw [List.concat_eq_append, ← List.append_assoc] at hrest
    obtain ⟨rfl, hx⟩ := List.append_inj' hrest rfl
    obtain rfl := (List.cons.inj hx).1
    have hopen : quotedAfter false (apostrophe :: us) = quotedAfter true us := rfl
    refine ⟨hopen.trans (quotedAfter_of_not (fun c hc => hcs c (List.mem_append_left _ hc)) true),
      ?_⟩
    -- the word ends before the quote
    rw [List.concat_eq_append, List.append_assoc, List.singleton_append] at hoccurs
    obtain ⟨tail, rfl, -⟩ | ⟨tail, rfl, htail⟩ := List.append_eq_append_iff.mp hoccurs
    · exact ⟨us, tail, by rw [List.append_assoc]⟩
    · cases tail with
      | nil => exact ⟨us, [], by rw [List.append_nil, List.append_nil]⟩
      | cons c tail =>
        obtain ⟨rfl, -⟩ := List.cons.inj htail
        exact absurd (hword apostrophe (by simp)) (by decide)

/-- In a block without quotes nothing looks like a replaced parameter. -/
lemma after_block {block rest us vs : List Char} (hp : p.isReplaced = true)
    (hchars : ∀ d ∈ block, isQuote d = false ∧ d ≠ '?' ∧ ¬(d = '@' ∨ d = ':'))
    (hoccurs : block ++ rest = us ++ (p.text ++ vs)) :
    ∃ us', us = block ++ us' ∧ rest = us' ++ (p.text ++ vs) ∧
      quotedAfter false us = quotedAfter false us' := by
  obtain ⟨c, word, htext, hc⟩ := exists_text hp
  obtain ⟨block', rfl, hne, hbs⟩ | ⟨us', rfl, hrest⟩ := append_cases hoccurs
  · obtain ⟨d, block', rfl⟩ := List.exists_cons_of_ne_nil hne
    rw [htext, List.cons_append, List.cons_append] at hbs
    obtain ⟨rfl, -⟩ := List.cons.inj hbs
    obtain ⟨-, hquestion, hsigil⟩ := hchars c (by simp)
    exact absurd hc (not_or.mpr ⟨hquestion, fun h => hsigil h.1⟩)
  · refine ⟨us', rfl, hrest, ?_⟩
    rw [quotedAfter_append, quotedAfter_of_not fun d hd => (hchars d hd).1]

/-- A plain character begins no replaced parameter. -/
lemma plain_begins_none {d : Char} {vs : List Char} (hp : p.isReplaced = true)
    (hquestion : d ≠ '?')
    (hsigil : d = '@' ∨ d = ':' →
      ∀ x ∈ (SqlParts.text (ps₁ ++ ps₂)).head?, Bindable.isWord x = false) :
    d :: (render index count ps₁ ++ SqlParts.text ps₂) ≠ p.text ++ vs := by
  intro hoccurs
  obtain ⟨c, word, htext, hc⟩ := exists_text hp
  rw [htext] at hoccurs
  obtain ⟨rfl, hrest⟩ := List.cons.inj hoccurs
  obtain hc | ⟨hc, x, hx, hxword⟩ := hc
  · exact hquestion hc
  · have hhead := head_render (by decide) (hsigil hc) index count x (by
      rw [hrest]
      cases word with
      | nil => cases hx
      | cons y word => exact hx)
    cases hxword.symm.trans hhead

/-- Where a replaced part of a text looks like a parameter that follows, a literal has it. -/
lemma masked_of_occurs (h : SqlParts.Reads (ps₁ ++ .param p :: ps₂)) (hp : p.isReplaced = true)
    {us vs : List Char}
    (hoccurs : render index count ps₁ ++ SqlParts.text (.param p :: ps₂) = us ++ (p.text ++ vs))
    (hlt : us.length < (render index count ps₁).length) :
    quotedAfter false us = true ∧ ∃ cs, SqlPart.literal cs ∈ ps₁ ∧ p.text <:+: cs := by
  obtain ⟨c, word, htext, -⟩ := exists_text hp
  have hquotes : ∀ c ∈ p.text, isQuote c = false := fun c => SqlParts.isQuote_of_text
  have hne : p.text ≠ [] := by simp [htext]
  induction ps₁ generalizing count us with
  | nil => cases hlt
  | cons part ps ih =>
    -- the place is after the first part
    have hnext : ∀ (block us' : List Char) {count' : Nat},
        SqlParts.Reads (ps ++ .param p :: ps₂) →
        render index count (part :: ps) = block ++ render index count' ps → us = block ++ us' →
        quotedAfter false us = quotedAfter false us' →
        render index count' ps ++ SqlParts.text (.param p :: ps₂) = us' ++ (p.text ++ vs) →
          quotedAfter false us = true ∧
            ∃ cs, SqlPart.literal cs ∈ part :: ps ∧ p.text <:+: cs := by
      intro block us' count' hreads hrender hus hquoted hrest
      rw [hrender, hus, List.length_append, List.length_append] at hlt
      obtain ⟨hquoted', cs, hcs, hinside⟩ := ih hreads hrest (by omega)
      exact ⟨hquoted.trans hquoted', cs, List.mem_cons_of_mem part hcs, hinside⟩
    cases part with
    | plain d =>
      obtain ⟨hd, hquestion, -, hsigil, hreads⟩ := h
      cases us with
      | nil =>
        exact absurd hoccurs (plain_begins_none hp hquestion hsigil)
      | cons u us =>
        have hhead : d :: (render index count ps ++ SqlParts.text (.param p :: ps₂)) =
            u :: (us ++ (p.text ++ vs)) := hoccurs
        obtain ⟨rfl, hrest⟩ := List.cons.inj hhead
        refine hnext [d] us hreads rfl rfl ?_ hrest
        rw [quotedAfter, hd]
        rfl
    | literal cs =>
      obtain ⟨hcs, hreads⟩ := h
      rw [render, List.append_assoc] at hoccurs
      obtain ⟨cs', hsplit, hcs', hbs⟩ | ⟨us', rfl, hrest⟩ := append_cases hoccurs
      · obtain ⟨hquoted, hinside⟩ := infix_of_literal hcs hquotes hne hsplit hcs' hbs
        exact ⟨hquoted, cs, List.mem_cons_self .., hinside⟩
      · refine hnext _ us' hreads rfl rfl ?_ hrest
        rw [quotedAfter_append, quotedAfter_literal hcs]
    | param p' =>
      obtain ⟨-, hreads⟩ := h
      cases p' with
      | question =>
        rw [render, List.append_assoc] at hoccurs
        obtain ⟨us', hus, hrest, hquoted⟩ := after_block hp (fun d => label_chars) hoccurs
        exact hnext _ us' hreads rfl hus hquoted hrest
      | dollar ds =>
        rw [render, List.append_assoc] at hoccurs
        obtain ⟨us', hus, hrest, hquoted⟩ := after_block hp (fun d => dollar_chars) hoccurs
        exact hnext _ us' hreads rfl hus hquoted hrest
      | name n =>
        rw [render, List.append_assoc] at hoccurs
        obtain ⟨us', hus, hrest, hquoted⟩ := after_block hp (fun d => label_chars) hoccurs
        exact hnext _ us' hreads rfl hus hquoted hrest

/-- A literal that has the characters of a parameter is such a place. -/
lemma occurs_of_masked {word : List Char} (hcs : SqlPart.literal cs ∈ ps₁) (hinside : word <:+: cs)
    (index : Nat → SqlParam → Nat) (count : Nat) (rest : List Char) :
    ∃ us vs, render index count ps₁ ++ rest = us ++ (word ++ vs) ∧
      us.length < (render index count ps₁).length := by
  obtain ⟨before, after, rfl⟩ := List.append_of_mem hcs
  obtain ⟨us, vs, rfl⟩ := hinside
  rw [render_append, render]
  refine ⟨render index count before ++ apostrophe :: us, vs ++ apostrophe ::
    (render index (count + questions before) after ++ rest), ?_, ?_⟩
  · simp [SqlPart.text]
  · simp [SqlPart.text]
    omega

/-! ### The replacements -/

/-- No literal before a question mark or a name has its characters. -/
def Unmasked (ps : SqlParts) : Prop :=
  ∀ before p after, ps = before ++ .param p :: after → p.isReplaced = true →
    ∀ cs, SqlPart.literal cs ∈ before → ¬p.text <:+: cs

lemma questions_append (ps₁ ps₂ : SqlParts) :
    questions (ps₁ ++ ps₂) = questions ps₁ + questions ps₂ := by
  rw [questions, SqlParts.params, List.filterMap_append, List.countP_append]
  rfl

/-- A part that is not replaced. -/
lemma substitute_kept (index : Nat → SqlParam → Nat) (count : Nat) (ps₂ : SqlParts)
    (cs : List Char) {part : SqlPart} (hpart : ∀ p, part = .param p → p.isReplaced = false) :
    questions [part] = 0 ∧ render index count [part] = part.text ∧
      substitute index count (SqlParts.params (part :: ps₂)) cs =
        substitute index count (SqlParts.params ps₂) cs := by
  cases part with
  | plain c => exact ⟨rfl, rfl, rfl⟩
  | literal cs => exact ⟨rfl, List.append_nil _, rfl⟩
  | param p =>
    cases p with
    | question => cases hpart _ rfl
    | dollar ds => exact ⟨rfl, List.append_nil _, rfl⟩
    | name n => cases hpart _ rfl

lemma substitute_replaced (index : Nat → SqlParam → Nat) (count : Nat) (ps₂ : SqlParts)
    (cs : List Char) (hp : p.isReplaced = true) :
    render index count [.param p] = label (index count p) ∧
      substitute index count (SqlParts.params (.param p :: ps₂)) cs =
        (replaceFirst p.text (label (index count p)) cs).bind
          (substitute index (count + questions [.param p]) (SqlParts.params ps₂)) := by
  cases p with
  | question => exact ⟨List.append_nil _, rfl⟩
  | dollar ds => cases hp
  | name n => exact ⟨List.append_nil _, rfl⟩

/-- Without look-alikes each replacement is made at the place of the parameter. -/
lemma substitute_of_unmasked (h : SqlParts.Reads (ps₁ ++ ps₂)) (hun : Unmasked (ps₁ ++ ps₂)) :
    substitute index (questions ps₁) (SqlParts.params ps₂)
      (render index 0 ps₁ ++ SqlParts.text ps₂) = some (render index 0 (ps₁ ++ ps₂)) := by
  induction ps₂ generalizing ps₁ with
  | nil => rw [List.append_nil]; exact congrArg some (List.append_nil _)
  | cons part ps₂ ih =>
    have happend : ps₁ ++ part :: ps₂ = (ps₁ ++ [part]) ++ ps₂ := by
      rw [List.append_assoc, List.singleton_append]
    have hrest := ih (happend ▸ h) (happend ▸ hun)
    rw [← happend, questions_append, render_append, Nat.zero_add] at hrest
    rw [SqlParts.text_cons]
    by_cases hpart : ∀ p, part = .param p → p.isReplaced = false
    · obtain ⟨hquestions, hrender, hsub⟩ := substitute_kept index (questions ps₁) ps₂
        (render index 0 ps₁ ++ (part.text ++ SqlParts.text ps₂)) hpart
      rw [hquestions, hrender, List.append_assoc] at hrest
      rw [hsub]
      exact hrest
    · push Not at hpart
      obtain ⟨p, rfl, hp⟩ := hpart
      replace hp : p.isReplaced = true := Bool.eq_true_of_not_eq_false hp
      obtain ⟨hrender, hsub⟩ := substitute_replaced index (questions ps₁) ps₂
        (render index 0 ps₁ ++ (p.text ++ SqlParts.text ps₂)) hp
      rw [hrender, List.append_assoc] at hrest
      rw [SqlPart.text, hsub, replaceFirst_append, Option.bind_some, hrest]
      intro us vs hoccurs
      by_contra hlt
      obtain ⟨-, cs, hcs, hinside⟩ := masked_of_occurs h hp hoccurs (Nat.lt_of_not_le hlt)
      exact hun ps₁ p ps₂ rfl hp cs hcs hinside

/-- If the dollar signs in literals are as many as before, a replacement was made at the place of
its parameter. -/
lemma replaced_in_place {us vs : List Char} {number count' : Nat}
    (h : SqlParts.Reads (ps₁ ++ .param p :: ps₂)) (hp : p.isReplaced = true)
    (hoccurs : render index 0 ps₁ ++ (p.text ++ SqlParts.text ps₂) = us ++ (p.text ++ vs))
    (hle : us.length ≤ (render index 0 ps₁).length)
    (hrun : substitute index count' (SqlParts.params ps₂) (us ++ (label number ++ vs)) = some cs)
    (hdollars : dollars false cs = dollars false (SqlParts.text (ps₁ ++ .param p :: ps₂))) :
    us = render index 0 ps₁ ∧ vs = SqlParts.text ps₂ := by
  have hlength : us.length = (render index 0 ps₁).length := by
    by_contra hne
    obtain ⟨hquoted, -⟩ := masked_of_occurs h hp hoccurs (by omega)
    have hmono := dollars_le_substitute hrun
    have hsame : dollars false (us ++ (p.text ++ vs)) =
        dollars false (SqlParts.text (ps₁ ++ .param p :: ps₂)) := by
      rw [← hoccurs, dollars_render fun part hpart =>
        quoted_of_reads h part (List.mem_append_left _ hpart), SqlParts.text_append]
      rfl
    rw [dollars_replace hp, hquoted, if_pos rfl, hsame, ← hdollars] at hmono
    omega
  obtain ⟨rfl, hrest⟩ := List.append_inj hoccurs hlength.symm
  exact ⟨rfl, (List.append_cancel_left hrest).symm⟩

/-- If the dollar signs in literals are as many as before, each replacement was made at the place
of the parameter. -/
lemma unmasked_of_substitute (h : SqlParts.Reads (ps₁ ++ ps₂))
    (hsub : substitute index (questions ps₁) (SqlParts.params ps₂)
      (render index 0 ps₁ ++ SqlParts.text ps₂) = some cs)
    (hdollars : dollars false cs = dollars false (SqlParts.text (ps₁ ++ ps₂))) :
    cs = render index 0 (ps₁ ++ ps₂) ∧
      ∀ before p after, ps₂ = before ++ .param p :: after → p.isReplaced = true →
        ∀ cs, SqlPart.literal cs ∈ ps₁ ++ before → ¬p.text <:+: cs := by
  induction ps₂ generalizing ps₁ with
  | nil =>
    refine ⟨?_, fun before p after heq => ?_⟩
    · rw [List.append_nil]
      exact ((Option.some.inj hsub).symm.trans (List.append_nil _))
    · exact absurd heq.symm (by simp)
  | cons part ps₂ ih =>
    have happend : ps₁ ++ part :: ps₂ = (ps₁ ++ [part]) ++ ps₂ := by
      rw [List.append_assoc, List.singleton_append]
    have hstep : ∀ {piece : List Char}, render index (questions ps₁) [part] = piece →
        substitute index (questions ps₁ + questions [part]) (SqlParts.params ps₂)
          (render index 0 ps₁ ++ (piece ++ SqlParts.text ps₂)) = some cs →
        cs = render index 0 (ps₁ ++ part :: ps₂) ∧
          ∀ before p after, ps₂ = before ++ .param p :: after → p.isReplaced = true →
            ∀ cs, SqlPart.literal cs ∈ ps₁ ++ [part] ++ before → ¬p.text <:+: cs := by
      intro piece hpiece hrun
      rw [happend]
      refine ih (happend ▸ h) ?_ (happend ▸ hdollars)
      rw [questions_append, render_append, Nat.zero_add, hpiece, List.append_assoc]
      exact hrun
    -- the places of the parameters after the first part
    have hlater : (∀ p, part = .param p → p.isReplaced = true →
        ∀ cs, SqlPart.literal cs ∈ ps₁ → ¬p.text <:+: cs) →
        (∀ before p after, ps₂ = before ++ .param p :: after → p.isReplaced = true →
          ∀ cs, SqlPart.literal cs ∈ ps₁ ++ [part] ++ before → ¬p.text <:+: cs) →
        ∀ before p after, part :: ps₂ = before ++ .param p :: after → p.isReplaced = true →
          ∀ cs, SqlPart.literal cs ∈ ps₁ ++ before → ¬p.text <:+: cs := by
      intro hfirst hrest before p after heq hp cs' hcs'
      cases before with
      | nil =>
        obtain ⟨rfl, -⟩ := List.cons.inj heq
        rw [List.append_nil] at hcs'
        exact hfirst p rfl hp cs' hcs'
      | cons part' before =>
        obtain ⟨rfl, heq'⟩ := List.cons.inj heq
        refine hrest before p after heq' hp cs' ?_
        rwa [List.append_assoc, List.singleton_append]
    rw [SqlParts.text_cons] at hsub
    by_cases hpart : ∀ p, part = .param p → p.isReplaced = false
    · obtain ⟨hquestions, hrender, hsub'⟩ := substitute_kept index (questions ps₁) ps₂
        (render index 0 ps₁ ++ (part.text ++ SqlParts.text ps₂)) hpart
      obtain ⟨hcs, hrest⟩ := hstep hrender (by rw [hquestions]; exact hsub'.symm.trans hsub)
      refine ⟨hcs, hlater (fun p hp hreplaced => ?_) hrest⟩
      exact absurd hreplaced (by simp [hpart p hp])
    · push Not at hpart
      obtain ⟨p, rfl, hp⟩ := hpart
      replace hp : p.isReplaced = true := Bool.eq_true_of_not_eq_false hp
      obtain ⟨hrender, hsub'⟩ := substitute_replaced index (questions ps₁) ps₂
        (render index 0 ps₁ ++ (p.text ++ SqlParts.text ps₂)) hp
      rw [SqlPart.text, hsub'] at hsub
      obtain ⟨cs₁, hreplace, hrun⟩ := Option.bind_eq_some_iff.mp hsub
      obtain ⟨us, vs, hoccurs, rfl, hfirst⟩ := replaceFirst_eq_some hreplace
      obtain ⟨rfl, rfl⟩ := replaced_in_place h hp hoccurs (hfirst _ _ rfl) hrun hdollars
      obtain ⟨hcs, hrest⟩ := hstep hrender hrun
      refine ⟨hcs, hlater (fun p' heq _ cs' hcs' hinside => ?_) hrest⟩
      obtain rfl := SqlPart.param.inj heq
      obtain ⟨us', vs', hoccurs', hlt⟩ :=
        occurs_of_masked hcs' hinside index 0 (p.text ++ SqlParts.text ps₂)
      exact absurd (hfirst us' vs' hoccurs') (Nat.not_le_of_lt hlt)

/-! ### Reading the numbers off a text -/

/-- The digits at the start of a text do not depend on its numbers. -/
lemma takeWhile_render (index index' : Nat → SqlParam → Nat) (count count' : Nat) (ps : SqlParts) :
    (render index count ps).takeWhile Char.isDigit =
      (render index' count' ps).takeWhile Char.isDigit := by
  induction ps with
  | nil => rfl
  | cons part ps ih =>
    cases part with
    | plain c =>
      by_cases hc : c.isDigit = true
      · rw [render, render, List.takeWhile_cons_of_pos hc, List.takeWhile_cons_of_pos hc, ih]
      · rw [render, render, List.takeWhile_cons_of_neg hc, List.takeWhile_cons_of_neg hc]
    | literal cs => rfl
    | param p => cases p <;> rfl

lemma label_injective {i j : Nat} {us vs : List Char}
    (hrun : us.takeWhile Char.isDigit = vs.takeWhile Char.isDigit)
    (h : label i ++ us = label j ++ vs) : i = j ∧ us = vs := by
  have hdigits : Nat.toDigits 10 i ++ us = Nat.toDigits 10 j ++ vs := (List.cons.inj h).2
  have hall : ∀ n, ∀ c ∈ Nat.toDigits 10 n, c.isDigit = true :=
    fun n c hc => Nat.isDigit_of_mem_toDigits (by decide) (by decide) hc
  have htake := congrArg (List.takeWhile Char.isDigit) hdigits
  rw [List.takeWhile_append_of_pos (hall i), List.takeWhile_append_of_pos (hall j), hrun] at htake
  have hsame := List.append_cancel_right htake
  refine ⟨?_, List.append_cancel_left (hsame ▸ hdigits)⟩
  rw [← Nat.ofDigitChars_ten_toDigits (n := i), hsame, Nat.ofDigitChars_ten_toDigits]

/-- Texts that are the same have the same numbers. -/
lemma render_injective (h : render index count ps = render index' count ps) :
    (∀ k < questions ps, index (count + k) .question = index' (count + k) .question) ∧
      ∀ n, SqlParam.name n ∈ ps.params →
        ∃ count', index count' (.name n) = index' count' (.name n) := by
  induction ps generalizing count with
  | nil => exact ⟨nofun, fun n hn => absurd hn List.not_mem_nil⟩
  | cons part ps ih =>
    cases part with
    | plain c => exact ih (List.cons.inj h).2
    | literal cs => exact ih (List.append_cancel_left h)
    | param p =>
      cases p with
      | question =>
        obtain ⟨hfirst, hrest⟩ := label_injective (takeWhile_render index index' _ _ ps) h
        obtain ⟨hquestions, hnames⟩ := ih hrest
        refine ⟨fun k hk => ?_, fun n hn => ?_⟩
        · cases k with
          | zero => exact hfirst
          | succ k =>
            have hcount : questions (.param .question :: ps) = questions ps + 1 :=
              List.countP_cons_of_pos rfl
            have hk' := hquestions k (by omega)
            rwa [Nat.add_assoc, Nat.add_comm 1] at hk'
        · exact hnames n ((List.mem_cons.mp hn).resolve_left nofun)
      | dollar ds =>
        obtain ⟨hquestions, hnames⟩ := ih (List.append_cancel_left h)
        exact ⟨hquestions, fun n hn => hnames n ((List.mem_cons.mp hn).resolve_left nofun)⟩
      | name m =>
        obtain ⟨hfirst, hrest⟩ := label_injective (takeWhile_render index index' _ _ ps) h
        obtain ⟨hquestions, hnames⟩ := ih hrest
        refine ⟨hquestions, fun n hn => ?_⟩
        obtain heq | hn := List.mem_cons.mp hn
        · exact ⟨count, heq ▸ hfirst⟩
        · exact hnames n hn

lemma render_congr
    (hquestions : ∀ k < questions ps, index (count + k) .question = index' (count + k) .question)
    (hnames : ∀ n, SqlParam.name n ∈ ps.params →
      ∀ count', index count' (.name n) = index' count' (.name n)) :
    render index count ps = render index' count ps := by
  induction ps generalizing count with
  | nil => rfl
  | cons part ps ih =>
    cases part with
    | plain c => exact congrArg (c :: ·) (ih hquestions hnames)
    | literal cs => exact congrArg (_ ++ ·) (ih hquestions hnames)
    | param p =>
      have hnames' : ∀ n, SqlParam.name n ∈ SqlParts.params ps →
          ∀ count', index count' (.name n) = index' count' (.name n) :=
        fun n hn => hnames n (List.mem_cons_of_mem p hn)
      cases p with
      | question =>
        have hcount : questions (.param .question :: ps) = questions ps + 1 :=
          List.countP_cons_of_pos rfl
        have hrest := @ih (count + 1) (fun k hk => by
          have hk' := hquestions (k + 1) (by omega)
          rwa [Nat.add_comm k, ← Nat.add_assoc] at hk') hnames'
        have hfirst : index count .question = index' count .question := hquestions 0 (by omega)
        rw [render, render, hrest, hfirst]
      | dollar ds => exact congrArg (_ ++ ·) (ih hquestions hnames')
      | name n =>
        rw [render, render, ih hquestions hnames', hnames n (List.mem_cons_self ..)]

/-! ### The text of `prepare` -/

/-- The numbers that `prepare` gives: the question marks from the back of the vector, a name the
number of its first occurrence. -/
def codeIndex (ps : List SqlParam) : Nat → SqlParam → Nat
  | _, .name n => maxIndex 0 ps + (names ps).idxOf (nameOf n) + 1
  | count, _ => ps.countP isQuestion - count

/-- The numbers that are documented, with these ones for the names. -/
def wantedIndex (nameIndex : String → Nat) : Nat → SqlParam → Nat
  | _, .name n => nameIndex (nameOf n)
  | count, _ => count + 1

lemma replaceParams_eq {mappings : BindMapping} {all params : List SqlParam}
    (hcount : all.countP isQuestion = count + params.countP isQuestion)
    (hmappings : ∀ n, SqlParam.name n ∈ params →
      ((mappings (nameOf n)).getD []).head? = some (codeIndex all count (.name n)))
    (cs : List Char) :
    replaceParams mappings (params.map fun p => String.ofList p.text)
        (List.range' 1 (params.countP isQuestion)) cs =
      substitute (codeIndex all) count params cs := by
  induction params generalizing count cs with
  | nil => rfl
  | cons p params ih =>
    have hmappings' : ∀ n, SqlParam.name n ∈ params →
        ((mappings (nameOf n)).getD []).head? = some (codeIndex all count (.name n)) :=
      fun n hn => hmappings n (List.mem_cons_of_mem p hn)
    rw [List.map_cons, replaceParams, String.toList_ofList, isNamedMatch_text]
    cases p with
    | question =>
      rw [List.countP_cons_of_pos rfl] at hcount ⊢
      have hback : codeIndex all count .question = params.countP isQuestion + 1 := by
        rw [codeIndex, hcount]
        omega
        nofun
      have hrange : List.range' 1 (params.countP isQuestion + 1) =
          List.range' 1 (params.countP isQuestion) ++ [params.countP isQuestion + 1] := by
        rw [List.range'_concat, Nat.one_mul, Nat.add_comm 1]
      have hcount' : all.countP isQuestion = count + 1 + params.countP isQuestion := by omega
      have hrest : replaceParams mappings (params.map fun p => String.ofList p.text)
          (List.range' 1 (params.countP isQuestion)) =
            substitute (codeIndex all) (count + 1) params :=
        funext fun cs' => ih hcount' hmappings' cs'
      have hname : isName .question = false := rfl
      have hquestion : (text .question).head? = some '?' := rfl
      rw [hname, if_neg Bool.false_ne_true, hquestion, if_pos rfl, hrange, List.getLast?_concat,
        List.dropLast_concat]
      simp only [hrest, substitute, hback]
    | dollar ds =>
      rw [List.countP_cons_of_neg Bool.false_ne_true] at hcount ⊢
      exact ih hcount hmappings' cs
    | name n =>
      rw [List.countP_cons_of_neg Bool.false_ne_true] at hcount ⊢
      have hhead := hmappings n (List.mem_cons_self ..)
      have hname : mappings (String.ofList (text (.name n))) = mappings (nameOf n) := rfl
      have hrest : replaceParams mappings (params.map fun p => String.ofList p.text)
          (List.range' 1 (params.countP isQuestion)) =
            substitute (codeIndex all) count params :=
        funext fun cs' => ih hcount hmappings' cs'
      have hisName : isName (.name n) = true := rfl
      rw [hisName, if_pos rfl, hname]
      cases hnumbers : (mappings (nameOf n)).getD [] with
      | nil =>
        rw [hnumbers] at hhead
        cases hhead
      | cons pos numbers =>
        rw [hnumbers] at hhead
        have hpos : pos = codeIndex all count (.name n) := Option.some.inj hhead
        simp only [hrest, substitute, hpos]

/-- `prepare` of a text that `std::stol` can read. -/
lemma prepare_eq (h : ps.Reads) (hread : Readable ps.params) :
    prepare (String.ofList ps.text) =
      (substitute (codeIndex ps.params) 0 ps.params ps.text).map fun cs =>
        (.prepare (String.ofList ps.text) (maxIndex 0 ps.params), String.ofList cs) := by
  have hcount := countIndexes_spec hread 0 0
  rw [Nat.zero_add] at hcount
  have hmappings : ∀ n, SqlParam.name n ∈ ps.params →
      ((BindMapping.prepare (String.ofList ps.text) (maxIndex 0 ps.params)
        (nameOf n)).getD []).head? = some (codeIndex ps.params 0 (.name n)) := by
    intro n hn
    have hmem : nameOf n ∈ names ps.params :=
      List.mem_map.mpr ⟨.name n, List.mem_filter.mpr ⟨hn, rfl⟩, rfl⟩
    rw [BindMapping.prepare_apply (matchesOf_namedRegex h) (fun _ => isEmpty_of_mem_names),
      if_pos hmem, Option.getD_some, BindMapping.head_numbers hmem]
    rfl
  rw [prepare, matchesOf_indexRegex h, matchesOf_paramRegex h]
  have hempty : List.range' 1 0 = ([] : List Nat) := rfl
  rw [← hempty, hcount, Option.bind_some, String.toList_ofList,
    replaceParams_eq (Nat.zero_add _).symm hmappings]

lemma readable_of_prepare (h : ps.Reads) {r : BindMapping × String}
    (hprepare : prepare (String.ofList ps.text) = some r) : Readable ps.params := by
  rw [prepare, matchesOf_indexRegex h] at hprepare
  obtain ⟨r', hcount, -⟩ := Option.bind_eq_some_iff.mp hprepare
  exact readable_of_countIndexes (Option.isSome_of_eq_some hcount)

/-- The text has `$i` for the `i`th question mark, and for each name a number that a bind of the
name fills and that is no other one's. -/
def Rewrites (ps : SqlParts) : Prop :=
  ∃ (mappings : BindMapping) (text : String) (nameIndex : String → Nat),
    prepare (String.ofList ps.text) = some (mappings, text) ∧
      text = String.ofList (render (wantedIndex nameIndex) 0 ps) ∧
      ∀ s ∈ names ps.params, nameIndex s ∈ (mappings s).getD [] ∧
        BindTarget.index (nameIndex s) ∉ BindTarget.ofParams 0 ps.params ∧
        ∀ s' ∈ names ps.params, nameIndex s' = nameIndex s → s' = s

/-- `std::stol` can read the numbers, there is at most one question mark, no literal looks like a
question mark or a name after it, and the numbers for the names are not taken. -/
structure Unambiguous (ps : SqlParts) : Prop where
  readable : Readable ps.params
  questions : questions ps ≤ 1
  unmasked : Unmasked ps
  free : ∀ s ∈ names ps.params,
    BindTarget.index (maxIndex 0 ps.params + (names ps.params).idxOf s + 1) ∉
      BindTarget.ofParams 0 ps.params

/-- The text of `prepare` is the one with the numbers of `codeIndex`, unless a replacement was made
in a literal. -/
lemma Rewrites.render_eq (h : ps.Reads) (hps : Rewrites ps) :
    ∃ nameIndex : String → Nat, Readable ps.params ∧ Unmasked ps ∧
      render (codeIndex ps.params) 0 ps = render (wantedIndex nameIndex) 0 ps ∧
      ∀ s ∈ names ps.params, BindTarget.index (nameIndex s) ∉ BindTarget.ofParams 0 ps.params := by
  obtain ⟨mappings, text, nameIndex, hprepare, htext, hnames⟩ := hps
  have hread := readable_of_prepare h hprepare
  rw [prepare_eq h hread] at hprepare
  obtain ⟨cs, hsub, hcs⟩ := Option.map_eq_some_iff.mp hprepare
  obtain rfl : cs = render (wantedIndex nameIndex) 0 ps :=
    String.ofList_injective ((Prod.mk.inj hcs).2.trans htext)
  have hdollars := dollars_render (quoted_of_reads h) (wantedIndex nameIndex) 0 []
  rw [List.append_nil, List.append_nil] at hdollars
  obtain ⟨hrender, hun⟩ :=
    unmasked_of_substitute (show SqlParts.Reads ([] ++ ps) from h) hsub hdollars
  exact ⟨nameIndex, hread, hun, hrender.symm, fun s hs => (hnames s hs).2.1⟩

lemma Rewrites.questions_le (h : ps.Reads) (hps : Rewrites ps) : questions ps ≤ 1 := by
  obtain ⟨nameIndex, -, -, hrender, -⟩ := hps.render_eq h
  by_contra hlt
  -- the first question mark has the last number
  have hfirst : questions ps - 0 = 0 + 1 := (render_injective hrender).1 0 (by omega)
  omega

/-- The text for PostgreSQL is the right one exactly if the text is unambiguous. -/
theorem rewrites_iff (h : ps.Reads) : Rewrites ps ↔ Unambiguous ps := by
  constructor
  · intro hps
    obtain ⟨nameIndex, hread, hun, hrender, hfree⟩ := hps.render_eq h
    refine ⟨hread, hps.questions_le h, hun, fun s hs => ?_⟩
    obtain ⟨p, hp, rfl⟩ := List.mem_map.mp hs
    obtain ⟨hp, hname⟩ := List.mem_filter.mp hp
    cases p with
    | question => cases hname
    | dollar ds => cases hname
    | name n =>
      obtain ⟨count, hindex⟩ := (render_injective hrender).2 n hp
      have hnumber : maxIndex 0 ps.params + (names ps.params).idxOf (nameOf n) + 1 =
          nameIndex (nameOf n) := hindex
      exact hnumber ▸ hfree _ hs
  · rintro ⟨hread, hquestions, hun, hfree⟩
    have hsub : substitute (codeIndex ps.params) 0 ps.params ps.text =
        some (render (codeIndex ps.params) 0 ps) :=
      substitute_of_unmasked (show SqlParts.Reads ([] ++ ps) from h) hun
    have hprepare := prepare_eq h hread
    rw [hsub, Option.map_some] at hprepare
    refine ⟨_, _, fun s => maxIndex 0 ps.params + (names ps.params).idxOf s + 1, hprepare,
      congrArg String.ofList (render_congr (fun k hk => ?_) fun n hn count => rfl),
      fun s hs => ⟨?_, hfree s hs, fun s' hs' hindex => ?_⟩⟩
    · -- there is only one question mark
      have hone : codeIndex ps.params (0 + k) .question = questions ps - (0 + k) := rfl
      have hwanted : ∀ f, wantedIndex f (0 + k) .question = 0 + k + 1 := fun _ => rfl
      rw [hone, hwanted]
      omega
    · rw [BindMapping.prepare_apply (matchesOf_namedRegex h) fun _ => isEmpty_of_mem_names,
        if_pos hs, Option.getD_some]
      exact List.mem_of_head? (BindMapping.head_numbers hs _)
    · have hsame : maxIndex 0 ps.params + (names ps.params).idxOf s' + 1 =
          maxIndex 0 ps.params + (names ps.params).idxOf s + 1 := hindex
      have hidx : (names ps.params).idxOf s' = (names ps.params).idxOf s := by omega
      exact (List.idxOf_inj hs').mp hidx

/-- `@id` -/
def atId : ParamName where
  sigil := '@'
  word := ['i', 'd']
  hsigil := ParamName.sigil_at
  hword := ⟨List.cons_ne_nil _ _, List.all_eq_true.mp rfl⟩

/-- `'a', ?, @id` -/
def mixedParts : SqlParts :=
  [.literal ['a'], .plain ',', .param .question, .plain ',',
    .param (.name atId)]

/-- A text with a literal and two kinds of parameters. -/
theorem rewrites_iff_mixed : Rewrites mixedParts ↔ Unambiguous mixedParts :=
  rewrites_iff (by decide)

/-- `?, ?` -/
def twoQuestions : SqlParts := [.param .question, .plain ',', .param .question]

/-- The first of two question marks gets the number of the second one. -/
theorem not_rewrites_two : ¬Rewrites twoQuestions := fun hps =>
  absurd (hps.questions_le (by decide)) (by decide)

end Postgres.Binding

end CodaDb
