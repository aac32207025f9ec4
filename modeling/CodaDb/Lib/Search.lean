import Mathlib.Data.List.Basic
import Mathlib.Tactic.Lemma

/-!
# Searching a text

The successive matches of a pattern in a text, from left to right and without overlaps, and the
replacement of the first occurrence of a word.
-/

universe u

namespace Search

variable {α : Type u}

/-- The length of what a pattern matches at the start of a text, zero if it does not match. -/
abbrev Matcher (α : Type u) := List α → Nat

/-- The matches in a text, after so many letters of the last one. -/
def findFrom (m : Matcher α) : Nat → List α → List (List α)
  | _, [] => []
  | skip + 1, _ :: cs => findFrom m skip cs
  | 0, c :: cs =>
    match m (c :: cs) with
    | 0 => findFrom m 0 cs
    | n + 1 => (c :: cs).take (n + 1) :: findFrom m n cs

/-- The matches in a text. -/
def findAll (m : Matcher α) (cs : List α) : List (List α) := findFrom m 0 cs

/-- Replace the matches in a text, after so many letters of the last one. -/
def replaceFrom (m : Matcher α) (new : List α) : Nat → List α → List α
  | _, [] => []
  | skip + 1, _ :: cs => replaceFrom m new skip cs
  | 0, c :: cs =>
    match m (c :: cs) with
    | 0 => c :: replaceFrom m new 0 cs
    | n + 1 => new ++ replaceFrom m new n cs

/-- Replace the matches in a text. -/
def replaceAll (m : Matcher α) (new cs : List α) : List α := replaceFrom m new 0 cs

variable {m m' : Matcher α} {new : List α}

lemma findFrom_skip (m : Matcher α) (word cs : List α) :
    findFrom m word.length (word ++ cs) = findAll m cs := by
  induction word with
  | nil => rfl
  | cons c word ih => exact ih

lemma replaceFrom_skip (m : Matcher α) (new word cs : List α) :
    replaceFrom m new word.length (word ++ cs) = replaceAll m new cs := by
  induction word with
  | nil => rfl
  | cons c word ih => exact ih

lemma findAll_cons_other {c : α} {cs : List α} (h : m (c :: cs) = 0) :
    findAll m (c :: cs) = findAll m cs := by
  rw [findAll, findFrom]
  split
  · rfl
  · next hn => cases h.symm.trans hn

lemma replaceAll_cons_other {c : α} {cs : List α} (h : m (c :: cs) = 0) :
    replaceAll m new (c :: cs) = c :: replaceAll m new cs := by
  rw [replaceAll, replaceFrom]
  split
  · rfl
  · next hn => cases h.symm.trans hn

lemma findAll_match {word cs : List α} (hword : word ≠ []) (h : m (word ++ cs) = word.length) :
    findAll m (word ++ cs) = word :: findAll m cs := by
  obtain ⟨c, word, rfl⟩ := List.exists_cons_of_ne_nil hword
  rw [List.cons_append] at h ⊢
  rw [findAll, findFrom]
  split
  · next hn => cases h.symm.trans hn
  · next n hn =>
    obtain rfl : word.length = n := Nat.succ.inj (h.symm.trans hn)
    rw [findFrom_skip, List.take_succ_cons, List.take_left]

lemma replaceAll_match {word cs : List α} (hword : word ≠ []) (h : m (word ++ cs) = word.length) :
    replaceAll m new (word ++ cs) = new ++ replaceAll m new cs := by
  obtain ⟨c, word, rfl⟩ := List.exists_cons_of_ne_nil hword
  rw [List.cons_append] at h ⊢
  rw [replaceAll, replaceFrom]
  split
  · next hn => cases h.symm.trans hn
  · next n hn =>
    obtain rfl : word.length = n := Nat.succ.inj (h.symm.trans hn)
    rw [replaceFrom_skip]

/-- Letters at which nothing is found. -/
lemma findAll_append_other {word cs : List α}
    (h : ∀ u v, word = u ++ v → v ≠ [] → m (v ++ cs) = 0) :
    findAll m (word ++ cs) = findAll m cs := by
  induction word with
  | nil => rfl
  | cons c word ih =>
    have hhead := h [] (c :: word) rfl (List.cons_ne_nil c word)
    refine (findAll_cons_other hhead).trans (ih fun u v huv hv => h (c :: u) v ?_ hv)
    rw [huv, List.cons_append]

lemma replaceAll_append_other {word cs : List α}
    (h : ∀ u v, word = u ++ v → v ≠ [] → m (v ++ cs) = 0) :
    replaceAll m new (word ++ cs) = word ++ replaceAll m new cs := by
  induction word with
  | nil => rfl
  | cons c word ih =>
    have hhead := h [] (c :: word) rfl (List.cons_ne_nil c word)
    refine (replaceAll_cons_other hhead).trans (congrArg (c :: ·) (ih fun u v huv hv => ?_))
    exact h (c :: u) v (by rw [huv, List.cons_append]) hv

/-! ### One kind of matches -/

/-- No match starts within another one. -/
def Isolated (m : Matcher α) : Prop :=
  ∀ cs i, 0 < i → i < m cs → m (cs.drop i) = 0

/-- A pattern that matches some of the words of another one. -/
def Restricts (m m' : Matcher α) (p : List α → Bool) : Prop :=
  ∀ cs, m' cs = if p (cs.take (m cs)) then m cs else 0

lemma Restricts.findFrom {p : List α → Bool} (h : Restricts m m' p) (hm : Isolated m)
    {skip skip' : Nat} {cs : List α}
    (hskip : skip' = skip ∨ skip' = 0 ∧ ∀ i < skip, m (cs.drop i) = 0) :
    findFrom m' skip' cs = (findFrom m skip cs).filter p := by
  induction cs generalizing skip skip' with
  | nil => rfl
  | cons c cs ih =>
    cases skip with
    | succ skip =>
      obtain rfl | ⟨rfl, hnone⟩ := hskip
      · exact ih (.inl rfl)
      · have hzero : m (c :: cs) = 0 := hnone 0 (Nat.succ_pos skip)
        have hzero' : m' (c :: cs) = 0 := by rw [h, hzero, ite_self]
        have htail := @ih skip 0 (.inr ⟨rfl, fun i hi => hnone (i + 1) (by omega)⟩)
        exact (findAll_cons_other hzero').trans htail
    | zero =>
      obtain rfl : skip' = 0 := by
        obtain hskip | hskip := hskip
        · exact hskip
        · exact hskip.1
      cases hmatch : m (c :: cs) with
      | zero =>
        have hzero' : m' (c :: cs) = 0 := by rw [h, hmatch, ite_self]
        calc findAll m' (c :: cs)
            = findAll m' cs := findAll_cons_other hzero'
          _ = (findAll m cs).filter p := ih (.inl rfl)
          _ = (findAll m (c :: cs)).filter p := by rw [findAll_cons_other hmatch]
      | succ n =>
        have hfind : Search.findFrom m 0 (c :: cs) =
            (c :: cs).take (n + 1) :: Search.findFrom m n cs := by
          rw [Search.findFrom, hmatch]
        rw [hfind]
        by_cases hp : p ((c :: cs).take (n + 1)) = true
        · have hmatch' : m' (c :: cs) = n + 1 := by rw [h, hmatch, if_pos hp]
          have hfind' : Search.findFrom m' 0 (c :: cs) =
              (c :: cs).take (n + 1) :: Search.findFrom m' n cs := by
            rw [Search.findFrom, hmatch']
          rw [hfind', List.filter_cons_of_pos hp, ih (.inl rfl)]
        · have hzero' : m' (c :: cs) = 0 := by rw [h, hmatch, if_neg hp]
          rw [List.filter_cons_of_neg hp]
          refine (findAll_cons_other hzero').trans (ih (.inr ⟨rfl, fun i hi => ?_⟩))
          exact hm (c :: cs) (i + 1) (Nat.succ_pos i) (by omega)

/-- The matches of the one are those of the other of its kind. -/
theorem Restricts.findAll {p : List α → Bool} (h : Restricts m m' p) (hm : Isolated m)
    (cs : List α) : findAll m' cs = (findAll m cs).filter p :=
  h.findFrom hm (.inl rfl)

/-! ### The first occurrence of a word -/

variable [DecidableEq α]

/-- Replace the first occurrence of a word, if there is one. -/
def replaceFirst (word new : List α) : List α → Option (List α)
  | [] => if word = [] then some new else none
  | c :: cs =>
    if word <+: c :: cs then some (new ++ (c :: cs).drop word.length)
    else (replaceFirst word new cs).map (c :: ·)

/-- The replacement is at the first place where the word is. -/
lemma replaceFirst_eq_some {word new cs cs' : List α} (h : replaceFirst word new cs = some cs') :
    ∃ u v, cs = u ++ (word ++ v) ∧ cs' = u ++ (new ++ v) ∧
      ∀ u' v', cs = u' ++ (word ++ v') → u.length ≤ u'.length := by
  induction cs generalizing cs' with
  | nil =>
    rw [replaceFirst] at h
    split at h
    · next hword =>
      subst hword
      obtain rfl := Option.some.inj h
      exact ⟨[], [], rfl, (List.append_nil new).symm, fun _ _ _ => Nat.zero_le _⟩
    · cases h
  | cons c cs ih =>
    rw [replaceFirst] at h
    split at h
    · next hprefix =>
      obtain ⟨v, hv⟩ := hprefix
      obtain rfl := Option.some.inj h
      refine ⟨[], v, hv.symm, ?_, fun _ _ _ => Nat.zero_le _⟩
      rw [← hv, List.drop_left, List.nil_append]
    · next hprefix =>
      obtain ⟨cs'', hcs'', rfl⟩ := Option.map_eq_some_iff.mp h
      obtain ⟨u, v, rfl, rfl, hfirst⟩ := ih hcs''
      refine ⟨c :: u, v, rfl, rfl, fun u' v' huv => ?_⟩
      cases u' with
      | nil => exact absurd ⟨v', huv.symm⟩ hprefix
      | cons c' u' => exact Nat.succ_le_succ (hfirst u' v' (List.cons.inj huv).2)

/-- A word that is not found before is replaced. -/
lemma replaceFirst_append {word new u v : List α}
    (h : ∀ u' v', u ++ (word ++ v) = u' ++ (word ++ v') → u.length ≤ u'.length) :
    replaceFirst word new (u ++ (word ++ v)) = some (u ++ (new ++ v)) := by
  induction u with
  | nil =>
    rw [List.nil_append, List.nil_append]
    cases hword : word ++ v with
    | nil =>
      obtain ⟨rfl, rfl⟩ := List.append_eq_nil_iff.mp hword
      rw [replaceFirst, if_pos rfl, List.append_nil]
    | cons c cs =>
      rw [replaceFirst, ← hword, if_pos (List.prefix_append word v), List.drop_left]
  | cons c u ih =>
    have hprefix : ¬word <+: c :: (u ++ (word ++ v)) := by
      rintro ⟨v', hv'⟩
      exact absurd (h [] v' hv'.symm) (by simp)
    rw [List.cons_append, replaceFirst, if_neg hprefix, ih fun u' v' huv => ?_]
    · rfl
    · exact Nat.le_of_succ_le_succ (h (c :: u') v' (congrArg (c :: ·) huv))

end Search
