import Mathlib.Tactic.Lemma
import Mathlib.Data.List.DropRight

/-!
# Conditions as text

How a text with `AND`, `OR` and parentheses is read: the keywords are found among the words, what
lies between them are atoms, and `AND` binds tighter than `OR`. Below are the lexer, the grammar and
an evaluator which shows that a text has no two readings, and how readings of two texts combine when
the texts are joined by a connective or put in parentheses.
-/

namespace Condition

/-! ### Words and blanks -/

inductive Lexeme where
  | lparen | rparen
  | blank (c : Char)
  | word (cs : List Char)
deriving DecidableEq, Repr

def isBlank (c : Char) : Bool := c.isWhitespace

/-- Neither a blank nor a parenthesis. -/
def isWordChar (c : Char) : Bool := !isBlank c && c != '(' && c != ')'

/-- Put a character of a word before lexemes. -/
def consWord (c : Char) : List Lexeme → List Lexeme
  | .word cs :: ls => .word (c :: cs) :: ls
  | ls => .word [c] :: ls

/-- Cut a text into parentheses, blanks and words. -/
def lexemes : List Char → List Lexeme
  | [] => []
  | c :: cs =>
    if c = '(' then .lparen :: lexemes cs
    else if c = ')' then .rparen :: lexemes cs
    else if isBlank c then .blank c :: lexemes cs
    else consWord c (lexemes cs)

lemma lexemes_cons (c : Char) (cs : List Char) :
    lexemes (c :: cs) =
      if c = '(' then .lparen :: lexemes cs
      else if c = ')' then .rparen :: lexemes cs
      else if isBlank c then .blank c :: lexemes cs
      else consWord c (lexemes cs) := rfl

def Lexeme.chars : Lexeme → List Char
  | .lparen => ['(']
  | .rparen => [')']
  | .blank c => [c]
  | .word cs => cs

lemma chars_consWord (c : Char) (ls : List Lexeme) :
    (consWord c ls).flatMap Lexeme.chars = c :: ls.flatMap Lexeme.chars := by
  cases ls with
  | nil => rfl
  | cons l ls => cases l <;> rfl

/-- No character is lost. -/
lemma flatMap_chars_lexemes (cs : List Char) : (lexemes cs).flatMap Lexeme.chars = cs := by
  induction cs with
  | nil => rfl
  | cons c cs ih =>
    rw [lexemes]
    split_ifs with hl hr hb
    · simp [ih, Lexeme.chars, hl]
    · simp [ih, Lexeme.chars, hr]
    · simp [ih, Lexeme.chars]
    · rw [chars_consWord, ih]

lemma consWord_append (c : Char) (ls : List Lexeme) {ms : List Lexeme}
    (h : ∀ cs ms', ms ≠ .word cs :: ms') : consWord c (ls ++ ms) = consWord c ls ++ ms := by
  cases ls with
  | nil =>
    cases ms with
    | nil => rfl
    | cons m ms =>
      cases m with
      | word cs => exact absurd rfl (h cs ms)
      | _ => rfl
  | cons l ls => cases l <;> rfl

/-- A text whose first character belongs to no word can be cut off. -/
lemma lexemes_append (cs ds : List Char) (h : ∀ d ds', ds = d :: ds' → isWordChar d = false) :
    lexemes (cs ++ ds) = lexemes cs ++ lexemes ds := by
  have hnoword : ∀ ws ms, lexemes ds ≠ .word ws :: ms := by
    intro ws ms
    cases ds with
    | nil => simp [lexemes]
    | cons d ds =>
      have hd := h d ds rfl
      simp only [isWordChar, Bool.and_eq_false_iff, Bool.not_eq_eq_eq_not, Bool.not_false,
        bne_eq_false_iff_eq] at hd
      rw [lexemes]
      split_ifs <;> simp_all
  induction cs with
  | nil => rfl
  | cons c cs ih =>
    rw [List.cons_append, lexemes_cons, lexemes_cons, ih]
    split_ifs
    · rfl
    · rfl
    · rfl
    · exact consWord_append c (lexemes cs) hnoword

/-! ### Tokens -/

inductive Token where
  | lparen | rparen | and | or
  | atom (text : String)
deriving DecidableEq, Repr

/-- The token of a parenthesis or of a keyword, in any case of letters. -/
def keyword : Lexeme → Option Token
  | .lparen => some .lparen
  | .rparen => some .rparen
  | .blank _ => none
  | .word cs =>
    if cs.map Char.toLower = ['a', 'n', 'd'] then some .and
    else if cs.map Char.toLower = ['o', 'r'] then some .or
    else none

/-- Drop the blanks at both ends. -/
def trim (cs : List Char) : List Char := (cs.dropWhile isBlank).rdropWhile isBlank

/-- The atom between two keywords, unless there is nothing but blanks. -/
def flush (cs : List Char) : List Token :=
  if trim cs = [] then [] else [.atom (String.ofList (trim cs))]

/-- The tokens of a text, when the characters `cs` of an atom were read already. -/
def tokensFrom (cs : List Char) : List Lexeme → List Token
  | [] => flush cs
  | l :: ls =>
    match keyword l with
    | some t => flush cs ++ t :: tokensFrom [] ls
    | none => tokensFrom (cs ++ l.chars) ls

def tokens (text : String) : List Token := tokensFrom [] (lexemes text.toList)

/-- A text without parentheses and without the words `AND` and `OR`, but not blank. -/
structure Atomic (text : String) : Prop where
  noKeyword : ∀ l ∈ lexemes text.toList, keyword l = none
  notBlank : trim text.toList ≠ []

lemma tokensFrom_of_noKeyword (cs : List Char) {ls : List Lexeme} (h : ∀ l ∈ ls, keyword l = none) :
    tokensFrom cs ls = flush (cs ++ ls.flatMap Lexeme.chars) := by
  induction ls generalizing cs with
  | nil => simp [tokensFrom]
  | cons l ls ih =>
    have hl : keyword l = none := h l (by simp)
    rw [tokensFrom, hl]
    simp only [ih (cs ++ l.chars) fun l hl => h l (by simp [hl]), List.flatMap_cons,
      List.append_assoc]

/-- An atomic text is one token. -/
lemma Atomic.tokens_eq {text : String} (h : Atomic text) :
    tokens text = [.atom (String.ofList (trim text.toList))] := by
  rw [tokens, tokensFrom_of_noKeyword [] h.noKeyword, List.nil_append,
    flatMap_chars_lexemes, flush, if_neg h.notBlank]

/-- A keyword separates what is before it from what is behind it. -/
lemma tokensFrom_append (cs : List Char) (ls : List Lexeme) {k : Lexeme} {t : Token}
    (hk : keyword k = some t) (ms : List Lexeme) :
    tokensFrom cs (ls ++ k :: ms) = tokensFrom cs ls ++ t :: tokensFrom [] ms := by
  induction ls generalizing cs with
  | nil => simp [tokensFrom, hk]
  | cons l ls ih =>
    rw [List.cons_append, tokensFrom, tokensFrom]
    cases keyword l with
    | none => exact ih _
    | some u => simp [ih]

lemma flush_blank_cons {c : Char} (hc : isBlank c = true) (cs : List Char) :
    flush (c :: cs) = flush cs := by
  simp [flush, trim, hc]

lemma flush_append_blank {c : Char} (hc : isBlank c = true) (cs : List Char) :
    flush (cs ++ [c]) = flush cs := by
  have htrim : trim (cs ++ [c]) = trim cs := by
    simp only [trim]
    by_cases hall : cs.dropWhile isBlank = []
    · rw [List.dropWhile_append, hall]
      simp [hc]
    · rw [List.dropWhile_append]
      simp [hall, hc]
  simp [flush, htrim]

/-- Blanks before a text do not matter. -/
lemma tokensFrom_blank_cons {c : Char} (hc : isBlank c = true) (cs : List Char) (ls : List Lexeme) :
    tokensFrom (c :: cs) ls = tokensFrom cs ls := by
  induction ls generalizing cs with
  | nil => exact flush_blank_cons hc cs
  | cons l ls ih =>
    rw [tokensFrom, tokensFrom]
    cases keyword l with
    | none => exact ih (cs ++ l.chars)
    | some t => simp only [flush_blank_cons hc]

/-- Blanks behind a text do not matter. -/
lemma tokensFrom_append_blank {c : Char} (hc : isBlank c = true) (cs : List Char)
    (ls : List Lexeme) : tokensFrom cs (ls ++ [.blank c]) = tokensFrom cs ls := by
  induction ls generalizing cs with
  | nil => exact flush_append_blank hc cs
  | cons l ls ih =>
    rw [List.cons_append, tokensFrom, tokensFrom]
    cases keyword l with
    | none => exact ih _
    | some t => simp only [ih]

/-! ### Joining texts -/

lemma lexemes_blank (cs ds : List Char) :
    lexemes (cs ++ ' ' :: ds) = lexemes cs ++ .blank ' ' :: lexemes ds := by
  rw [lexemes_append cs (' ' :: ds) fun d ds' h => by rw [← (List.cons.inj h).1]; decide]
  rfl

/-- A keyword between blanks separates two texts. -/
lemma tokensFrom_lexemes_join {kw : List Char} {k : Lexeme} {t : Token} (hkw : lexemes kw = [k])
    (hk : keyword k = some t) (x y : List Char) :
    tokensFrom [] (lexemes (x ++ ' ' :: (kw ++ ' ' :: y))) =
      tokensFrom [] (lexemes x) ++ t :: tokensFrom [] (lexemes y) := by
  have hcut : lexemes (x ++ ' ' :: (kw ++ ' ' :: y))
      = (lexemes x ++ [.blank ' ']) ++ k :: .blank ' ' :: lexemes y := by
    rw [lexemes_blank, lexemes_blank, hkw]
    simp
  have hafter : tokensFrom [] (.blank ' ' :: lexemes y) = tokensFrom [] (lexemes y) :=
    tokensFrom_blank_cons (by decide) [] (lexemes y)
  rw [hcut, tokensFrom_append [] _ hk, tokensFrom_append_blank (by decide), hafter]

lemma tokens_and (x y : String) : tokens (x ++ " AND " ++ y) = tokens x ++ .and :: tokens y := by
  have hlist : (x ++ " AND " ++ y).toList
      = x.toList ++ ' ' :: (['A', 'N', 'D'] ++ ' ' :: y.toList) := by simp
  rw [tokens, hlist]
  exact tokensFrom_lexemes_join rfl rfl x.toList y.toList

lemma tokens_or (x y : String) : tokens (x ++ " OR " ++ y) = tokens x ++ .or :: tokens y := by
  have hlist : (x ++ " OR " ++ y).toList
      = x.toList ++ ' ' :: (['O', 'R'] ++ ' ' :: y.toList) := by simp
  rw [tokens, hlist]
  exact tokensFrom_lexemes_join rfl rfl x.toList y.toList

lemma tokens_group (x : String) : tokens ("(" ++ x ++ ")") = .lparen :: tokens x ++ [.rparen] := by
  have hlist : ("(" ++ x ++ ")").toList = '(' :: (x.toList ++ [')']) := by simp
  have hcut : lexemes ('(' :: (x.toList ++ [')']))
      = .lparen :: (lexemes x.toList ++ [.rparen]) := by
    rw [lexemes_cons, if_pos rfl,
      lexemes_append x.toList [')'] fun d ds' h => by rw [← (List.cons.inj h).1]; decide]
    rfl
  rw [tokens, hlist, hcut]
  exact congrArg (Token.lparen :: ·) (tokensFrom_append [] (lexemes x.toList) rfl [])

/-! ### Readings -/

inductive Level where
  | primary | term | expression
deriving DecidableEq, Repr

/-- The readings of tokens under a truth assignment to the atoms. An expression is read as the truth
values of its alternatives, a term or a primary as a single value. -/
inductive Reads (σ : String → Bool) : Level → List Token → List Bool → Prop where
  | atom (text : String) : Reads σ .primary [.atom text] [σ text]
  | group {ts : List Token} {bs : List Bool} (h : Reads σ .expression ts bs) :
      Reads σ .primary (.lparen :: ts ++ [.rparen]) [bs.any id]
  | factor {ts : List Token} {bs : List Bool} (h : Reads σ .primary ts bs) : Reads σ .term ts bs
  | and {ts us : List Token} {a b : Bool} (ht : Reads σ .term ts [a])
      (hu : Reads σ .primary us [b]) : Reads σ .term (ts ++ .and :: us) [a && b]
  | alternative {ts : List Token} {bs : List Bool} (h : Reads σ .term ts bs) :
      Reads σ .expression ts bs
  | or {ts us : List Token} {as : List Bool} {b : Bool} (ht : Reads σ .expression ts as)
      (hu : Reads σ .term us [b]) : Reads σ .expression (ts ++ .or :: us) (as ++ [b])

variable {σ : String → Bool} {ts us : List Token} {as bs : List Bool}

/-- Below an expression there is one alternative. -/
lemma Reads.single {l : Level} (h : Reads σ l ts bs) (hl : l ≠ .expression) : ∃ b, bs = [b] := by
  induction h with
  | atom text => exact ⟨_, rfl⟩
  | group h ih => exact ⟨_, rfl⟩
  | factor h ih => exact ih nofun
  | and ht hu => exact ⟨_, rfl⟩
  | alternative | or => exact absurd rfl hl

lemma Reads.ne_nil {l : Level} (h : Reads σ l ts bs) : bs ≠ [] := by
  induction h with
  | atom | group | and => simp
  | factor h ih | alternative h ih => exact ih
  | or => simp

/-! ### The evaluator -/

/-- The open parentheses, each with the alternatives read so far, the last first, and whether an
operand is expected next. -/
structure State where
  operand : Bool
  frames : List (List Bool)
deriving DecidableEq, Repr

/-- Read one token. -/
def step (σ : String → Bool) : State → Token → Option State
  | ⟨true, (c :: done) :: frames⟩, .atom text => some ⟨false, ((c && σ text) :: done) :: frames⟩
  | ⟨true, frames⟩, .lparen => some ⟨true, [true] :: frames⟩
  | ⟨false, frames⟩, .and => some ⟨true, frames⟩
  | ⟨false, frame :: frames⟩, .or => some ⟨true, (true :: frame) :: frames⟩
  | ⟨false, frame :: (c :: done) :: frames⟩, .rparen =>
    some ⟨false, ((c && frame.any id) :: done) :: frames⟩
  | _, _ => none

def run (σ : String → Bool) : State → List Token → Option State
  | s, [] => some s
  | s, t :: ts => (step σ s t).bind fun s => run σ s ts

/-- The alternatives of a text, none if it has no reading. -/
def alternatives (σ : String → Bool) (text : String) : List Bool :=
  match run σ ⟨true, [[true]]⟩ (tokens text) with
  | some ⟨false, [frame]⟩ => frame.reverse
  | _ => []

lemma run_append (s : State) (ts us : List Token) :
    run σ s (ts ++ us) = (run σ s ts).bind fun s => run σ s us := by
  induction ts generalizing s with
  | nil => rfl
  | cons t ts ih =>
    rw [List.cons_append, run, run]
    cases step σ s t with
    | none => rfl
    | some s' => exact ih s'

/-- What the evaluator does on tokens that have a reading: it multiplies an operand into the last
alternative, and it collects the alternatives of a new expression. -/
def Runs (σ : String → Bool) (ts : List Token) (bs : List Bool) : Level → Prop
  | .primary | .term => ∀ b, bs = [b] → ∀ c done frames,
      run σ ⟨true, (c :: done) :: frames⟩ ts = some ⟨false, ((c && b) :: done) :: frames⟩
  | .expression => ∀ frames,
      run σ ⟨true, [true] :: frames⟩ ts = some ⟨false, bs.reverse :: frames⟩

lemma Reads.runs {l : Level} (h : Reads σ l ts bs) : Runs σ ts bs l := by
  induction h with
  | atom text =>
    rintro b hb c done frames
    obtain rfl := List.singleton_injective hb
    rfl
  | @group ts bs h ih =>
    rintro b hb c done frames
    obtain rfl := List.singleton_injective hb
    rw [List.cons_append, run]
    change run σ ⟨true, [true] :: (c :: done) :: frames⟩ (ts ++ [.rparen]) = _
    rw [run_append, ih]
    simp [run, step]
  | factor h ih => exact ih
  | @and ts us a b ht hu iht ihu =>
    rintro b' hb c done frames
    obtain rfl := List.singleton_injective hb
    rw [run_append, iht a rfl c done frames]
    change run σ ⟨true, ((c && a) :: done) :: frames⟩ us = _
    rw [ihu b rfl, Bool.and_assoc]
  | @alternative ts bs h ih =>
    intro frames
    obtain ⟨b, rfl⟩ := h.single nofun
    simpa using ih b rfl true [] frames
  | @or ts us as b ht hu iht ihu =>
    intro frames
    rw [run_append, iht]
    change run σ ⟨true, (true :: as.reverse) :: frames⟩ us = _
    rw [ihu b rfl]
    simp

/-- The evaluator finds every reading, so there is at most one. -/
theorem Reads.alternatives_eq {text : String} (h : Reads σ .expression (tokens text) bs) :
    alternatives σ text = bs := by
  simp [alternatives, h.runs []]

/-! ### Combining readings -/

/-- The alternatives of two expressions joined by `AND`: the connective takes the last alternative
of the first and the first alternative of the second. -/
def conjoin : List Bool → List Bool → List Bool
  | [a], b :: bs => (a && b) :: bs
  | a :: as, bs => a :: conjoin as bs
  | [], bs => bs

lemma conjoin_cons (a : Bool) {as : List Bool} (h : as ≠ []) (bs : List Bool) :
    conjoin (a :: as) bs = a :: conjoin as bs := by
  cases as with
  | nil => exact absurd rfl h
  | cons a' as => rfl

lemma conjoin_concat (as : List Bool) (a b : Bool) (bs : List Bool) :
    conjoin (as ++ [a]) (b :: bs) = as ++ (a && b) :: bs := by
  induction as with
  | nil => rfl
  | cons a' as ih => rw [List.cons_append, conjoin_cons a' (by simp), ih, List.cons_append]

lemma conjoin_append (as : List Bool) {bs : List Bool} (h : bs ≠ []) (cs : List Bool) :
    conjoin as (bs ++ cs) = conjoin as bs ++ cs := by
  induction as with
  | nil => rfl
  | cons a as ih =>
    cases as with
    | nil =>
      cases bs with
      | nil => exact absurd rfl h
      | cons b bs => rfl
    | cons a' as => rw [conjoin_cons a (by simp), conjoin_cons a (by simp), ih, List.cons_append]

lemma Reads.and_term {a b : Bool} (ht : Reads σ .term ts [a]) (hu : Reads σ .term us [b]) :
    Reads σ .term (ts ++ .and :: us) [a && b] := by
  generalize hl : Level.term = l at hu
  generalize hb : [b] = bs at hu
  induction hu generalizing b with
  | factor h =>
    subst hb
    exact .and ht h
  | @and us vs b' c hu hv ih =>
    obtain rfl := List.singleton_injective hb
    rw [← Bool.and_assoc, ← List.cons_append, ← List.append_assoc]
    exact .and (ih rfl rfl) hv
  | atom | group | alternative | or => cases hl

lemma Reads.and_expression {b : Bool} (ht : Reads σ .expression ts as) (hu : Reads σ .term us [b]) :
    Reads σ .expression (ts ++ .and :: us) (conjoin as [b]) := by
  cases ht with
  | alternative h =>
    obtain ⟨a, rfl⟩ := h.single nofun
    exact .alternative (h.and_term hu)
  | or ht hv =>
    rw [conjoin_concat, List.append_assoc, List.cons_append]
    exact .or ht (hv.and_term hu)

/-- Two readings joined by `AND`. -/
theorem Reads.conjoin (ht : Reads σ .expression ts as) (hu : Reads σ .expression us bs) :
    Reads σ .expression (ts ++ .and :: us) (conjoin as bs) := by
  generalize hl : Level.expression = l at hu
  induction hu with
  | alternative h =>
    obtain ⟨b, rfl⟩ := h.single nofun
    exact ht.and_expression h
  | or hu hv ih =>
    rw [conjoin_append as hu.ne_nil, ← List.cons_append, ← List.append_assoc]
    exact .or (ih rfl) hv
  | atom | group | factor | and => cases hl

/-- Two readings joined by `OR`. -/
theorem Reads.disjoin (ht : Reads σ .expression ts as) (hu : Reads σ .expression us bs) :
    Reads σ .expression (ts ++ .or :: us) (as ++ bs) := by
  generalize hl : Level.expression = l at hu
  induction hu with
  | alternative h =>
    obtain ⟨b, rfl⟩ := h.single nofun
    exact .or ht h
  | or hu hv ih =>
    rw [← List.cons_append, ← List.append_assoc, ← List.append_assoc]
    exact .or (ih rfl) hv
  | atom | group | factor | and => cases hl

/-! ### Readable texts -/

/-- The text has a reading under every truth assignment. -/
def Readable (text : String) : Prop := ∀ σ, Reads σ .expression (tokens text) (alternatives σ text)

/-- The truth value a text is read as. -/
def Means (σ : String → Bool) (text : String) (b : Bool) : Prop :=
  ∃ bs, Reads σ .expression (tokens text) bs ∧ bs.any id = b

lemma readable_of_reads {text : String} {f : (String → Bool) → List Bool}
    (h : ∀ σ, Reads σ .expression (tokens text) (f σ)) : Readable text := by
  intro σ
  rw [(h σ).alternatives_eq]
  exact h σ

lemma alternatives_empty (σ : String → Bool) : alternatives σ "" = [] := rfl

lemma Readable.alternatives_ne_nil {text : String} (h : Readable text) (σ : String → Bool) :
    alternatives σ text ≠ [] :=
  (h σ).ne_nil

lemma Readable.ne_empty {text : String} (h : Readable text) : text ≠ "" := by
  rintro rfl
  exact h.alternatives_ne_nil (fun _ => true) (alternatives_empty _)

/-- A text means what its alternatives say, and nothing else. -/
lemma Means.eq {text : String} {b : Bool} (h : Means σ text b) :
    (alternatives σ text).any id = b := by
  obtain ⟨bs, hbs, rfl⟩ := h
  rw [hbs.alternatives_eq]

lemma Readable.means_iff {text : String} (h : Readable text) {b : Bool} :
    Means σ text b ↔ (alternatives σ text).any id = b :=
  ⟨Means.eq, fun hb => ⟨_, h σ, hb⟩⟩

section Join

variable {x y : String}

lemma Atomic.reads (h : Atomic x) (σ : String → Bool) :
    Reads σ .expression (tokens x) [σ (String.ofList (trim x.toList))] := by
  rw [h.tokens_eq]
  exact .alternative (.factor (.atom _))

lemma Atomic.readable (h : Atomic x) : Readable x := readable_of_reads h.reads

lemma Readable.reads_and (hx : Readable x) (hy : Readable y) (σ : String → Bool) :
    Reads σ .expression (tokens (x ++ " AND " ++ y))
      (Condition.conjoin (alternatives σ x) (alternatives σ y)) := by
  rw [tokens_and]
  exact (hx σ).conjoin (hy σ)

lemma Readable.and (hx : Readable x) (hy : Readable y) : Readable (x ++ " AND " ++ y) :=
  readable_of_reads (hx.reads_and hy)

lemma Readable.alternatives_and (hx : Readable x) (hy : Readable y) (σ : String → Bool) :
    alternatives σ (x ++ " AND " ++ y) =
      Condition.conjoin (alternatives σ x) (alternatives σ y) :=
  (hx.reads_and hy σ).alternatives_eq

lemma Readable.reads_or (hx : Readable x) (hy : Readable y) (σ : String → Bool) :
    Reads σ .expression (tokens (x ++ " OR " ++ y)) (alternatives σ x ++ alternatives σ y) := by
  rw [tokens_or]
  exact (hx σ).disjoin (hy σ)

lemma Readable.or (hx : Readable x) (hy : Readable y) : Readable (x ++ " OR " ++ y) :=
  readable_of_reads (hx.reads_or hy)

lemma Readable.alternatives_or (hx : Readable x) (hy : Readable y) (σ : String → Bool) :
    alternatives σ (x ++ " OR " ++ y) = alternatives σ x ++ alternatives σ y :=
  (hx.reads_or hy σ).alternatives_eq

lemma Readable.reads_group (hx : Readable x) (σ : String → Bool) :
    Reads σ .expression (tokens ("(" ++ x ++ ")")) [(alternatives σ x).any id] := by
  rw [tokens_group]
  exact .alternative (.factor (.group (hx σ)))

lemma Readable.group (hx : Readable x) : Readable ("(" ++ x ++ ")") :=
  readable_of_reads hx.reads_group

lemma Readable.alternatives_group (hx : Readable x) (σ : String → Bool) :
    alternatives σ ("(" ++ x ++ ")") = [(alternatives σ x).any id] :=
  (hx.reads_group σ).alternatives_eq

end Join

end Condition
