import CodaDb.Lib.Machine

/-!
# The top-level tokens of a text

A scanner that splits a text of a query language into the tokens it has outside of parentheses. What
stands in parentheses is one token, and so is a quoted text; words are compared in upper case.
The scanner knows no comments and no escape characters.
-/

inductive Token where
  | word (w : String)
  | mark (c : Char)
  | literal
  | group
deriving DecidableEq, Repr

namespace Token

/-- Where the scanner is: how many parentheses are open, the quote that is open, and the word read
so far. -/
structure Scan where
  depth : Nat := 0
  quote : Option Char := none
  word : List Char := []
deriving DecidableEq, Repr

def isWordChar (c : Char) : Bool :=
  c.isAlphanum || "_.$@:?".toList.contains c || decide (128 ≤ c.toNat)

def isQuote (c : Char) : Bool := "'\"`".toList.contains c

/-- The characters that only end a word. -/
def isBreak (c : Char) : Bool := !isWordChar c && c != '(' && !isQuote c

/-- The token of a character between words; a blank is none. -/
def marks (c : Char) : List Token := if c.isWhitespace then [] else [.mark c]

/-- The token of the word read so far. -/
def flush (w : List Char) : List Token := if w = [] then [] else [.word (String.ofList w)]

/-- One character outside of quotes and parentheses. -/
def scanTop (w : List Char) (c : Char) : Scan × List Token :=
  if c = '(' then ({ depth := 1 }, flush w)
  else if isQuote c then ({ quote := some c }, flush w)
  else if isWordChar c then ({ word := w ++ [c.toUpper] }, [])
  else ({}, flush w ++ marks c)

/-- One character inside of `d + 1` parentheses. -/
def scanNested (d : Nat) (c : Char) : Scan × List Token :=
  if c = '(' then ({ depth := d + 2 }, [])
  else if c = ')' then ({ depth := d }, if d = 0 then [.group] else [])
  else if isQuote c then ({ depth := d + 1, quote := some c }, [])
  else ({ depth := d + 1 }, [])

def scanner : Machine Scan Char Token where
  step
    | ⟨d, some q, _⟩, c =>
      if c = q then ({ depth := d }, if d = 0 then [.literal] else [])
      else ({ depth := d, quote := some q }, [])
    | ⟨d + 1, none, _⟩, c => scanNested d c
    | ⟨0, none, w⟩, c => scanTop w c

def scan (text : String) : Scan × List Token := scanner.run {} text.toList

/-- A text that leaves no parenthesis and no quote open. -/
def Closed (text : String) : Prop := (scan text).1.depth = 0 ∧ (scan text).1.quote = none
deriving Decidable

def tokens (text : String) : List Token := (scan text).2 ++ flush (scan text).1.word

/-- A text that ends the word before it and starts none, and itself stands for `ts`. -/
def Separates (text : String) (ts : List Token) : Prop :=
  text.toList.head?.any isBreak ∧ scan text = ({}, ts)
deriving Decidable

lemma scanTop_break {c : Char} (h : isBreak c) (w : List Char) :
    scanTop w c = ({}, flush w ++ marks c) := by
  obtain ⟨⟨hword, hopen⟩, hquote⟩ : (isWordChar c = false ∧ c ≠ '(') ∧ isQuote c = false := by
    simpa [isBreak] using h
  simp [scanTop, hword, hopen, hquote]

/-- A separator does to a word read so far what the end of the text would do. -/
lemma Separates.run {text : String} {ts : List Token} (h : Separates text ts) (w : List Char) :
    scanner.run { word := w } text.toList = ({}, flush w ++ ts) := by
  obtain ⟨hhead, hscan⟩ := h
  rw [scan] at hscan
  cases hcs : text.toList with
  | nil => simp [hcs] at hhead
  | cons c cs =>
    have hc : isBreak c := by simpa [hcs] using hhead
    have hstep (w : List Char) : scanner.step { word := w } c = ({}, flush w ++ marks c) :=
      scanTop_break hc w
    rw [hcs, Machine.run_cons, hstep] at hscan
    obtain ⟨hend, hout⟩ := Prod.mk.inj hscan
    rw [Machine.run_cons, hstep, hend, ← hout]
    simp only [flush, if_true, List.nil_append, List.append_assoc]

lemma Closed.scan_eq {text : String} (h : Closed text) :
    scan text = ({ word := (scan text).1.word }, (scan text).2) := by
  obtain ⟨hdepth, hquote⟩ := h
  generalize scan text = r at hdepth hquote ⊢
  obtain ⟨⟨d, quote, w⟩, ts⟩ := r
  obtain rfl : d = 0 := hdepth
  obtain rfl : quote = none := hquote
  rfl

/-- Behind a closed text and a separator the scanner starts afresh. -/
lemma scan_separated {text sep : String} {ts : List Token} (h : Closed text)
    (hsep : Separates sep ts) (rest : String) :
    scan (text ++ sep ++ rest) = ((scan rest).1, tokens text ++ ts ++ (scan rest).2) := by
  have htext : scanner.run {} text.toList = _ := h.scan_eq
  rw [scan, String.toList_append, String.toList_append, Machine.run_append, Machine.run_append,
    htext, hsep.run]
  simp only [tokens, scan, List.append_assoc]

lemma Closed.append {text sep rest : String} {ts : List Token} (h : Closed text)
    (hsep : Separates sep ts) (hrest : Closed rest) : Closed (text ++ sep ++ rest) := by
  rw [Closed, scan_separated h hsep]
  exact hrest

lemma tokens_append {text sep : String} {ts : List Token} (h : Closed text)
    (hsep : Separates sep ts) (rest : String) :
    tokens (text ++ sep ++ rest) = tokens text ++ ts ++ tokens rest := by
  simp only [tokens, scan_separated h hsep, List.append_assoc]

example : tokens "f(a, b) = 'x' or c" =
    [.word "F", .group, .mark '=', .literal, .word "OR", .word "C"] := by decide

/-! ### Parentheses -/

/-- The same place inside of one more pair of parentheses. -/
def Scan.nest (s : Scan) : Scan := { depth := s.depth + 1, quote := s.quote }

/-- In parentheses the scanner goes its way without a token, unless one of them is closed. -/
lemma step_nest {s : Scan} {c : Char} (h : .mark ')' ∉ (scanner.step s c).2) :
    scanner.step s.nest c = ((scanner.step s c).1.nest, []) := by
  obtain ⟨d, quote, w⟩ := s
  cases quote with
  | some q =>
    simp only [scanner, Scan.nest]
    split <;> rfl
  | none =>
    cases d with
    | succ d =>
      by_cases hopen : c = '('
      · simp [scanner, Scan.nest, scanNested, hopen]
      by_cases hclose : c = ')'
      · simp [scanner, Scan.nest, scanNested, hclose]
      by_cases hquote : isQuote c <;>
        simp [scanner, Scan.nest, scanNested, hopen, hclose, hquote]
    | zero =>
      have hclose : c ≠ ')' := by
        rintro rfl
        exact h (List.mem_append_right _ (by decide))
      by_cases hopen : c = '('
      · simp [scanner, Scan.nest, scanNested, scanTop, hopen]
      by_cases hquote : isQuote c
      · simp [scanner, Scan.nest, scanNested, scanTop, hopen, hclose, hquote]
      by_cases hword : isWordChar c <;>
        simp [scanner, Scan.nest, scanNested, scanTop, hopen, hclose, hquote, hword]

lemma run_nest {cs : List Char} {s : Scan} (h : .mark ')' ∉ (scanner.run s cs).2) :
    scanner.run s.nest cs = ((scanner.run s cs).1.nest, []) := by
  induction cs generalizing s with
  | nil => rfl
  | cons c cs ih =>
    rw [Machine.run_cons, List.mem_append, not_or] at h
    rw [Machine.run_cons, step_nest h.1, ih h.2, Machine.run_cons]
    rfl

/-- A closed text in parentheses is one token. -/
lemma scan_group {text : String} (h : Closed text) (hclose : .mark ')' ∉ tokens text) :
    scan ("(" ++ text ++ ")") = ({}, [.group]) := by
  have hscan : .mark ')' ∉ (scan text).2 := fun hmem => hclose (List.mem_append_left _ hmem)
  have hnest : scanner.run { depth := 1 } text.toList = ({ depth := 1 }, []) := by
    rw [show ({ depth := 1 } : Scan) = Scan.nest {} from rfl, run_nest hscan]
    rw [show (scanner.run {} text.toList).1 = _ from congrArg Prod.fst h.scan_eq]
    rfl
  rw [scan, String.toList_append, String.toList_append, Machine.run_append, Machine.run_append,
    show scanner.run {} "(".toList = ({ depth := 1 }, []) by decide, hnest]
  rfl

end Token
