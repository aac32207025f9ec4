import CodaDb.Lib.Numeral

/-!
# Decimal numerals

The grammar of a decimal numeral with an optional sign, fraction and exponent, and the scanner that
finds where its digits end.
-/

namespace Numeral

/-! ### The grammar -/

/-- White space, a sign and digits, with or without a point among them. -/
structure Mantissa where
  blanks : List Char
  sign : Sign
  whole : List Char
  fraction : Option (List Char)
  isSpace : ∀ c ∈ blanks, isSpace c = true
  isDigit : ∀ c ∈ whole ++ fraction.getD [], c.isDigit = true
  ne_nil : whole ++ fraction.getD [] ≠ []

namespace Mantissa

/-- The point and the digits behind it. -/
def fractionText (m : Mantissa) : List Char :=
  match m.fraction with
  | none => []
  | some digits => '.' :: digits

def text (m : Mantissa) : List Char := m.blanks ++ (m.sign.text ++ (m.whole ++ m.fractionText))

end Mantissa

/-- Nothing, or an `e` and an integer. -/
def IsExponent : List Char → Prop
  | [] => True
  | c :: cs => (c = 'e' ∨ c = 'E') ∧ ∃ w : Written, w.text = cs

/-- The whole text is a decimal numeral. -/
def IsDecimal (cs : List Char) : Prop :=
  ∃ (m : Mantissa) (r : List Char), cs = m.text ++ r ∧ IsExponent r

/-! ### The scanner -/

/-- What follows the digits and the point at the start of a text, if there is a digit. -/
def afterDigits (cs : List Char) : Option (List Char) :=
  match cs.dropWhile Char.isDigit with
  | '.' :: fraction =>
    if cs.takeWhile Char.isDigit ++ fraction.takeWhile Char.isDigit = [] then none
    else some (fraction.dropWhile Char.isDigit)
  | rest => if cs.takeWhile Char.isDigit = [] then none else some rest

/-- What follows white space, a sign and digits. -/
def afterMantissa (cs : List Char) : Option (List Char) :=
  afterDigits (sign (cs.dropWhile isSpace)).2

/-- The digits of a numeral end where its text does. -/
lemma afterDigits_append (m : Mantissa) {r : List Char}
    (hdigit : ∀ c ∈ r.head?, c.isDigit = false) (hpoint : ∀ c ∈ r.head?, c ≠ '.') :
    afterDigits (m.whole ++ (m.fractionText ++ r)) = some r := by
  have hwhole : ∀ c ∈ m.whole, c.isDigit = true := fun c hc =>
    m.isDigit c (List.mem_append_left _ hc)
  have hne := m.ne_nil
  cases hfraction : m.fraction with
  | none =>
    rw [hfraction, Option.getD_none, List.append_nil] at hne
    obtain ⟨htake, hdrop⟩ := span_append hwhole hdigit
    rw [Mantissa.fractionText, hfraction, List.nil_append, afterDigits, htake, hdrop]
    split
    · exact absurd rfl (hpoint '.' rfl)
    · rw [if_neg hne]
  | some digits =>
    rw [hfraction, Option.getD_some] at hne
    have hdigits : ∀ c ∈ digits, c.isDigit = true := fun c hc =>
      m.isDigit c (List.mem_append_right _ (by rwa [hfraction]))
    have hpoint : ∀ c ∈ ('.' :: (digits ++ r)).head?, c.isDigit = false := by simp
    obtain ⟨htake, hdrop⟩ := span_append hwhole hpoint
    obtain ⟨htake', hdrop'⟩ := span_append hdigits hdigit
    rw [Mantissa.fractionText, hfraction, List.cons_append, afterDigits, htake, hdrop]
    simp only [htake', hdrop', if_neg hne]

/-- White space and a sign are skipped in front of them. -/
lemma afterMantissa_append (m : Mantissa) {r : List Char}
    (hdigit : ∀ c ∈ r.head?, c.isDigit = false) (hpoint : ∀ c ∈ r.head?, c ≠ '.') :
    afterMantissa (m.text ++ r) = some r := by
  obtain ⟨c, cs, hbody, hc⟩ : ∃ c cs, m.whole ++ (m.fractionText ++ r) = c :: cs ∧
      (c.isDigit = true ∨ c = '.') := by
    cases hwhole : m.whole with
    | cons c whole =>
      exact ⟨c, whole ++ (m.fractionText ++ r), rfl, .inl (m.isDigit c (by simp [hwhole]))⟩
    | nil =>
      cases hfraction : m.fraction with
      | none => exact absurd (by rw [hwhole, hfraction]; rfl) m.ne_nil
      | some digits =>
        exact ⟨'.', digits ++ r, by simp [Mantissa.fractionText, hfraction], .inr rfl⟩
  have hspace : isSpace c = false := by
    rcases hc with hc | rfl
    · exact isSpace_of_isDigit hc
    · rfl
  have hsign : c ≠ '-' ∧ c ≠ '+' := by
    rcases hc with hc | rfl
    · exact ne_sign_of_isDigit hc
    · decide
  have htext : m.text ++ r = m.blanks ++ (m.sign.text ++ (c :: cs)) := by
    simp [Mantissa.text, ← hbody]
  have hhead : ∀ d ∈ (c :: cs).head?, d ≠ '-' ∧ d ≠ '+' := fun d hd =>
    Option.some.inj hd ▸ hsign
  obtain ⟨-, hdrop⟩ := span_append m.isSpace (isSpace_head_sign m.sign c cs hspace)
  have hread := sign_text m.sign hhead
  rw [afterMantissa, htext, hdrop, hread, ← hbody]
  exact afterDigits_append m hdigit hpoint

lemma exists_sign (cs : List Char) : ∃ s : Sign, cs = s.text ++ (sign cs).2 := by
  unfold sign
  split
  · exact ⟨.minus, rfl⟩
  · exact ⟨.plus, rfl⟩
  · exact ⟨.none, rfl⟩

/-- What is read is white space, a sign and digits. -/
lemma exists_mantissa {cs r : List Char} (h : afterMantissa cs = some r) :
    ∃ m : Mantissa, cs = m.text ++ r := by
  have hblanks : ∀ c ∈ cs.takeWhile isSpace, isSpace c = true := fun _ => List.mem_takeWhile_imp
  obtain ⟨s, hs⟩ := exists_sign (cs.dropWhile isSpace)
  rw [afterMantissa] at h
  generalize (sign (cs.dropWhile isSpace)).2 = body at h hs
  have hcs : cs = cs.takeWhile isSpace ++ (s.text ++ body) := by
    rw [← hs, List.takeWhile_append_dropWhile]
  have hwhole : ∀ c ∈ body.takeWhile Char.isDigit, c.isDigit = true :=
    fun _ => List.mem_takeWhile_imp
  rw [afterDigits] at h
  split at h
  · next fraction hdrop =>
    split at h
    · cases h
    · next hne =>
      obtain rfl := Option.some.inj h
      have hfraction : ∀ c ∈ fraction.takeWhile Char.isDigit, c.isDigit = true :=
        fun _ => List.mem_takeWhile_imp
      refine ⟨⟨cs.takeWhile isSpace, s, body.takeWhile Char.isDigit,
        some (fraction.takeWhile Char.isDigit), hblanks, ?_, hne⟩, ?_⟩
      · exact fun c hc => (List.mem_append.mp hc).elim (hwhole c) (hfraction c)
      · have hbody : body = body.takeWhile Char.isDigit ++
            ('.' :: (fraction.takeWhile Char.isDigit ++ fraction.dropWhile Char.isDigit)) := by
          rw [List.takeWhile_append_dropWhile, ← hdrop, List.takeWhile_append_dropWhile]
        rw [hbody] at hcs
        simpa [Mantissa.text, Mantissa.fractionText] using hcs
  · split at h
    · cases h
    · next hne =>
      obtain rfl := Option.some.inj h
      refine ⟨⟨cs.takeWhile isSpace, s, body.takeWhile Char.isDigit, none, hblanks, ?_, ?_⟩, ?_⟩
      · simpa using hwhole
      · simpa using hne
      · rw [← List.takeWhile_append_dropWhile (p := Char.isDigit) (l := body)] at hcs
        simpa [Mantissa.text, Mantissa.fractionText] using hcs

/-- The scanner finds the numerals of the grammar. -/
theorem isDecimal_iff (cs : List Char) :
    IsDecimal cs ↔ ∃ r, afterMantissa cs = some r ∧ IsExponent r := by
  constructor
  · rintro ⟨m, r, rfl, hr⟩
    have hletter : ∀ c ∈ r.head?, c = 'e' ∨ c = 'E' := by
      cases r with
      | nil => exact fun c hc => by cases hc
      | cons d r => exact fun c hc => Option.some.inj hc ▸ hr.1
    refine ⟨r, afterMantissa_append m ?_ ?_, hr⟩
    · intro c hc
      rcases hletter c hc with rfl | rfl <;> rfl
    · intro c hc
      rcases hletter c hc with rfl | rfl <;> decide
  · rintro ⟨r, h, hr⟩
    obtain ⟨m, rfl⟩ := exists_mantissa h
    exact ⟨m, r, rfl, hr⟩

lemma any_of_mem_dropWhile {p q : Char → Bool} {cs : List Char} {c : Char}
    (hc : c ∈ cs.dropWhile p) (h : q c = true) : cs.any q = true :=
  List.any_eq_true.mpr ⟨c, (List.dropWhile_sublist p).subset hc, h⟩

lemma any_of_scan {cs : List Char} {r : Bool × Nat} (h : scan cs = some r) :
    cs.any Char.isDigit = true := by
  rw [scan, scanSigned] at h
  obtain ⟨s, hs⟩ := exists_sign (cs.dropWhile isSpace)
  generalize sign (cs.dropWhile isSpace) = body at h hs
  obtain ⟨negative, ds⟩ := body
  have hne : digits ds ≠ [] := by
    intro hnil
    dsimp only at h
    rw [if_pos hnil] at h
    cases h
  obtain ⟨c, hc⟩ := List.exists_mem_of_ne_nil _ hne
  refine any_of_mem_dropWhile (p := isSpace) (c := c) ?_ (List.mem_takeWhile_imp hc)
  rw [hs]
  exact List.mem_append_right _ ((List.takeWhile_sublist _).subset hc)

/-! ### Integers -/

/-- The whole text is an integer, behind white space. -/
def IsInteger (cs : List Char) : Prop :=
  ∃ (blanks : List Char) (w : Written), (∀ c ∈ blanks, isSpace c = true) ∧ cs = blanks ++ w.text

/-- What follows white space, a sign and the digits of an integer. -/
def afterInteger (cs : List Char) : List Char :=
  (sign (cs.dropWhile isSpace)).2.dropWhile Char.isDigit

/-- Of a text that starts with an integer the whole is one if nothing follows it. -/
theorem isInteger_iff {cs : List Char} {r : Bool × Nat} (h : scan cs = some r) :
    IsInteger cs ↔ afterInteger cs = [] := by
  constructor
  · rintro ⟨blanks, w, hblanks, rfl⟩
    have hhead := isSpace_head_text w []
    have hread := sign_append_text w []
    rw [List.append_nil] at hhead hread
    obtain ⟨-, hdrop⟩ := span_append hblanks hhead
    rw [afterInteger, hdrop, hread, List.append_nil]
    exact List.dropWhile_eq_nil_iff.mpr w.isDigit
  · intro hnil
    obtain ⟨s, hs⟩ := exists_sign (cs.dropWhile isSpace)
    rw [scan, scanSigned] at h
    rw [afterInteger] at hnil
    generalize hbody : sign (cs.dropWhile isSpace) = body at h hnil hs
    obtain ⟨negative, ds⟩ := body
    have hall : ∀ c ∈ ds, c.isDigit = true := List.dropWhile_eq_nil_iff.mp hnil
    have hne : ds ≠ [] := by
      rintro rfl
      cases h
    refine ⟨cs.takeWhile isSpace, ⟨s, ds, hne, hall⟩, fun _ => List.mem_takeWhile_imp, ?_⟩
    rw [Written.text, ← hs, List.takeWhile_append_dropWhile]

end Numeral
