import Mathlib.Tactic.Lemma

/-!
# SQL text under construction

The queries append to a `std::string`. Here that string is kept as the list of pieces appended, so
that the pieces `session_impl::bind_param` rendered can be told from raw text: `render` is the
string itself, `placeholders` the numbers `bind_param` was called with, from left to right.

A `std::string` is a `String` with one character for each of its bytes.
-/

namespace CodaDb

/-- One appended piece: its characters and, for a placeholder, the index it was rendered for. -/
structure Frag where
  str : String
  param : Option Nat := none
deriving DecidableEq, Repr

abbrev SqlText := List Frag

namespace SqlText

/-- A raw string. -/
def lit (s : String) : SqlText := [{ str := s }]

/-- The characters of the text. -/
def render (t : SqlText) : String := (t.map Frag.str).foldr (· ++ ·) ""

/-- The numbers of the placeholders, from left to right. -/
def placeholders (t : SqlText) : List Nat := t.filterMap Frag.param

/-- `std::string::empty`. -/
def empty (t : SqlText) : Bool := t.render == ""

@[simp] lemma render_nil : render [] = "" := rfl

@[simp] lemma render_cons (f : Frag) (t : SqlText) : render (f :: t) = f.str ++ render t := rfl

@[simp] lemma render_append (s t : SqlText) : render (s ++ t) = render s ++ render t := by
  induction s with
  | nil => simp
  | cons f s ih => simp [ih, String.append_assoc]

@[simp] lemma render_lit (s : String) : render (lit s) = s := by simp [lit]

@[simp] lemma placeholders_nil : placeholders [] = [] := rfl

@[simp] lemma placeholders_append (s t : SqlText) :
    placeholders (s ++ t) = placeholders s ++ placeholders t := by
  simp [placeholders]

@[simp] lemma placeholders_lit (s : String) : placeholders (lit s) = [] := rfl

@[simp] lemma empty_eq_true {t : SqlText} : t.empty = true ↔ t.render = "" := by
  simp [empty]

@[simp] lemma empty_eq_false {t : SqlText} : t.empty = false ↔ t.render ≠ "" := by
  simp [empty]

/-- A text with a non-empty prefix is not empty. -/
lemma append_ne_empty {s t : SqlText} (h : s.render ≠ "") : (s ++ t).render ≠ "" := by
  rw [render_append]
  intro happ
  exact h (String.append_eq_empty_iff.mp happ).1

end SqlText

end CodaDb
