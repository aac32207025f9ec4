import Mathlib.Algebra.Group.Int.Defs
import Mathlib.Data.List.TakeWhile
import Mathlib.Tactic.Lemma

/-!
# Reading a decimal integer

What `strtol` and its relatives read with base 10 at the start of a text: white space, a sign and
the longest run of digits. A numeral that was printed reads as its integer.
-/

namespace Numeral

/-- `isspace` in the C locale -/
def isSpace (c : Char) : Bool := c.toNat = 32 || 9 ≤ c.toNat && c.toNat ≤ 13

/-- An optional sign: whether it is negative, and the rest. -/
def sign : List Char → Bool × List Char
  | '-' :: cs => (true, cs)
  | '+' :: cs => (false, cs)
  | cs => (false, cs)

/-- The digits at the start of a text. -/
def digits (cs : List Char) : List Char := cs.takeWhile Char.isDigit

/-- A sign and the magnitude of the digits after it, if there are any. -/
def scanSigned (cs : List Char) : Option (Bool × Nat) :=
  let (negative, rest) := sign cs
  if digits rest = [] then none else some (negative, Nat.ofDigitChars 10 (digits rest) 0)

/-- The sign and the magnitude of the integer at the start of a text. -/
def scan (cs : List Char) : Option (Bool × Nat) := scanSigned (cs.dropWhile isSpace)

lemma scan_sign {cs : List Char} {r : Bool × Nat} (h : scan cs = some r) :
    r.1 = (sign (cs.dropWhile isSpace)).1 := by
  rw [scan, scanSigned] at h
  generalize sign (cs.dropWhile isSpace) = body at h
  obtain ⟨negative, ds⟩ := body
  dsimp only at h
  split at h
  · cases h
  · exact Option.some.inj h ▸ rfl

/-- The integer that a sign and a magnitude stand for. -/
def signed : Bool × Nat → Int
  | (true, m) => -m
  | (false, m) => m

lemma isSpace_of_isDigit {c : Char} (h : c.isDigit = true) : isSpace c = false := by
  rw [Char.isDigit_iff_toNat, show '0'.toNat = 48 from rfl] at h
  simp only [isSpace, Bool.or_eq_false_iff, Bool.and_eq_false_iff, decide_eq_false_iff_not]
  omega

lemma ne_sign_of_isDigit {c : Char} (h : c.isDigit = true) : c ≠ '-' ∧ c ≠ '+' := by
  constructor
  · rintro rfl
    simp at h
  · rintro rfl
    simp at h

lemma dropWhile_of_head {p : Char → Bool} {ys : List Char} (h : ∀ c ∈ ys.head?, p c = false) :
    ys.dropWhile p = ys := by
  cases ys with
  | nil => rfl
  | cons c ys => exact List.dropWhile_cons_of_neg (by simp [h c rfl])

lemma span_append {p : Char → Bool} {xs ys : List Char} (hxs : ∀ c ∈ xs, p c = true)
    (hys : ∀ c ∈ ys.head?, p c = false) :
    (xs ++ ys).takeWhile p = xs ∧ (xs ++ ys).dropWhile p = ys := by
  rw [List.takeWhile_append_of_pos hxs, List.dropWhile_append_of_pos hxs, dropWhile_of_head hys]
  refine ⟨?_, rfl⟩
  cases ys with
  | nil => exact List.append_nil xs
  | cons c ys => rw [List.takeWhile_cons_of_neg (by simp [hys c rfl]), List.append_nil]

/-! ### Numerals as they are written -/

/-- The sign in front of a number. -/
inductive Sign where
  | none | plus | minus
deriving DecidableEq, Repr

namespace Sign

def text : Sign → List Char
  | .none => []
  | .plus => ['+']
  | .minus => ['-']

end Sign

/-- A sign is read, unless another one follows. -/
lemma sign_text (s : Sign) {cs : List Char} (h : ∀ c ∈ cs.head?, c ≠ '-' ∧ c ≠ '+') :
    sign (s.text ++ cs) = (decide (s = .minus), cs) := by
  cases s with
  | plus | minus => rfl
  | none =>
    cases cs with
    | nil => rfl
    | cons c cs =>
      have hc := h c rfl
      rw [Sign.text, List.nil_append, sign]
      · rfl
      · rintro rest hrest
        exact hc.1 (List.cons.inj hrest).1
      · rintro rest hrest
        exact hc.2 (List.cons.inj hrest).1

lemma isSpace_head_sign (s : Sign) (c : Char) (cs : List Char) (hc : isSpace c = false) :
    ∀ d ∈ (s.text ++ c :: cs).head?, isSpace d = false := by
  intro d hd
  cases s with
  | none => exact Option.some.inj hd ▸ hc
  | plus | minus => exact Option.some.inj hd ▸ rfl

/-- The text of an integer: an optional sign and one or more digits. -/
structure Written where
  sign : Sign
  digits : List Char
  ne_nil : digits ≠ []
  isDigit : ∀ c ∈ digits, c.isDigit = true

namespace Written

def text (w : Written) : List Char := w.sign.text ++ w.digits

def magnitude (w : Written) : Nat := Nat.ofDigitChars 10 w.digits 0

def value (w : Written) : Int := signed (decide (w.sign = .minus), w.magnitude)

end Written

lemma isSpace_head_text (w : Written) (cs : List Char) :
    ∀ c ∈ (w.text ++ cs).head?, isSpace c = false := by
  obtain ⟨d, ds, hds⟩ := List.exists_cons_of_ne_nil w.ne_nil
  have hd : d.isDigit = true := w.isDigit d (by simp [hds])
  rw [Written.text, hds, List.append_assoc]
  exact isSpace_head_sign w.sign d (ds ++ cs) (isSpace_of_isDigit hd)

lemma sign_append_text (w : Written) (cs : List Char) :
    sign (w.text ++ cs) = (decide (w.sign = .minus), w.digits ++ cs) := by
  obtain ⟨d, ds, hds⟩ := List.exists_cons_of_ne_nil w.ne_nil
  rw [Written.text, List.append_assoc]
  refine sign_text w.sign fun c hc => ?_
  rw [hds] at hc
  exact Option.some.inj hc ▸ ne_sign_of_isDigit (w.isDigit d (by simp [hds]))

/-- A numeral is read up to the first character that is no digit. -/
theorem scan_append (w : Written) {cs : List Char} (h : ∀ c ∈ cs.head?, c.isDigit = false) :
    scan (w.text ++ cs) = some (decide (w.sign = .minus), w.magnitude) := by
  have hdigits : digits (w.digits ++ cs) = w.digits := (span_append w.isDigit h).1
  rw [scan, dropWhile_of_head (isSpace_head_text w cs), scanSigned, sign_append_text]
  simp only [hdigits, w.ne_nil, if_false, Written.magnitude]

/-- The whole text is read. -/
lemma scan_text (w : Written) : scan w.text = some (decide (w.sign = .minus), w.magnitude) := by
  have hscan := @scan_append w [] (by simp)
  rwa [List.append_nil] at hscan

/-- Digits are read as their value. -/
lemma scan_digits {ds : List Char} (hne : ds ≠ []) (h : ∀ c ∈ ds, c.isDigit = true) :
    scan ds = some (false, Nat.ofDigitChars 10 ds 0) :=
  scan_text ⟨.none, ds, hne, h⟩

lemma any_isDigit_text (w : Written) : w.text.any Char.isDigit = true := by
  obtain ⟨d, hd⟩ := List.exists_mem_of_ne_nil _ w.ne_nil
  rw [Written.text, List.any_append, Bool.or_eq_true]
  exact .inr (List.any_eq_true.mpr ⟨d, hd, w.isDigit d hd⟩)

/-- A numeral has no point. -/
lemma point_notMem_text (w : Written) : '.' ∉ w.text := by
  rw [Written.text, List.mem_append, not_or]
  constructor
  · cases w.sign <;> simp [Sign.text]
  · intro hmem
    exact absurd (w.isDigit _ hmem) (by decide)

/-! ### Other texts -/

/-- Another character than a space, a sign or a digit starts no number. -/
lemma scan_eq_none {c : Char} (hspace : isSpace c = false) (hdigit : c.isDigit = false)
    (hminus : c ≠ '-') (hplus : c ≠ '+') (cs : List Char) : scan (c :: cs) = none := by
  have hsign : sign (c :: cs) = (false, c :: cs) := by
    rw [sign]
    · rintro rest hrest
      exact hminus (List.cons.inj hrest).1
    · rintro rest hrest
      exact hplus (List.cons.inj hrest).1
  have hdigits : digits (c :: cs) = [] := List.takeWhile_cons_of_neg (by simp [hdigit])
  rw [scan, List.dropWhile_cons_of_neg (by simp [hspace]), scanSigned, hsign]
  simp only [hdigits, if_true]

/-- A single character that is a number is a digit. -/
lemma scan_singleton {c : Char} {r : Bool × Nat} (h : scan [c] = some r) :
    ∃ d ≤ 9, c.toNat = 48 + d ∧ r = (false, d) := by
  by_cases hdigit : c.isDigit = true
  · rw [scan_digits (List.cons_ne_nil _ _) (by simpa using hdigit), Nat.ofDigitChars_cons,
      Nat.ofDigitChars_nil, Nat.mul_zero, Nat.zero_add] at h
    have hrange := Char.isDigit_iff_toNat.mp hdigit
    simp only [Char.reduceToNat] at hrange h
    exact ⟨c.toNat - 48, by omega, by omega, (Option.some.inj h).symm⟩
  · rw [Bool.not_eq_true] at hdigit
    by_cases hspace : isSpace c = true
    · rw [scan, List.dropWhile_cons_of_pos hspace] at h
      cases h
    · rw [Bool.not_eq_true] at hspace
      by_cases hminus : c = '-'
      · subst hminus
        cases h
      by_cases hplus : c = '+'
      · subst hplus
        cases h
      rw [scan_eq_none hspace hdigit hminus hplus] at h
      cases h

/-! ### Printed integers -/

/-- The characters of a printed integer. -/
lemma toList_toString (v : Int) :
    (toString v).toList = (if v < 0 then ['-'] else []) ++ Nat.toDigits 10 v.natAbs := by
  cases v with
  | ofNat n => simp [Int.toString_eq_repr, Int.repr]
  | negSucc n => simp [Int.toString_eq_repr, Int.repr]

/-- A printed integer as a numeral. -/
def Written.ofInt (v : Int) : Written where
  sign := if v < 0 then .minus else .none
  digits := Nat.toDigits 10 v.natAbs
  ne_nil := Nat.toDigits_ne_nil
  isDigit := fun _ hc => Nat.isDigit_of_mem_toDigits (by omega) (by omega) hc

lemma text_ofInt (v : Int) : (Written.ofInt v).text = (toString v).toList := by
  rw [toList_toString, Written.text, Written.ofInt]
  split <;> rfl

/-- A printed integer is read as its sign and its magnitude, whatever follows it that does not start
with a digit. -/
theorem scan_toString (v : Int) (cs : List Char) (h : ∀ c ∈ cs.head?, c.isDigit = false) :
    scan ((toString v).toList ++ cs) = some (decide (v < 0), v.natAbs) := by
  rw [← text_ofInt, scan_append _ h, Written.magnitude, Written.ofInt,
    Nat.ofDigitChars_ten_toDigits]
  by_cases hneg : v < 0
  · simp [hneg]
  · simp [hneg]

lemma signed_natAbs (v : Int) : signed (decide (v < 0), v.natAbs) = v := by
  by_cases h : v < 0
  · simp only [h, decide_true, signed]
    omega
  · simp only [h, decide_false, signed]
    omega

end Numeral
