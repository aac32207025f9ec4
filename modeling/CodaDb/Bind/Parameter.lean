import CodaDb.Lib.Search

/-!
# The parameters of a text

With `ENABLE_PARAMETER_MAPPING` three regular expressions look for the parameters of a text that are
not in quotes: `?`, `$` and a number, or a name after `@` or `:`.
-/

namespace CodaDb

namespace Bindable

open Search

/-- `\\w` in the C locale -/
def isWord (c : Char) : Bool := c.isAlphanum || c = '_'

def apostrophe : Char := Char.ofNat 39

def isQuote (c : Char) : Bool := c = '"' || c = apostrophe

/-- `(?:[^"']|["'][^"']*["'])*$`, in quotes or not -/
def closes : Bool → List Char → Bool
  | quoted, [] => !quoted
  | quoted, c :: cs => closes (quoted != isQuote c) cs

/-- `[@:]\\w+`, as far as it goes -/
def namedLength : List Char → Nat
  | [] => 0
  | c :: cs =>
    if (c = '@' ∨ c = ':') ∧ cs.takeWhile isWord ≠ [] then (cs.takeWhile isWord).length + 1 else 0

/-- `\\$([0-9]+)|\\?`, as far as it goes -/
def indexLength : List Char → Nat
  | [] => 0
  | c :: cs =>
    if c = '$' ∧ cs.takeWhile Char.isDigit ≠ [] then (cs.takeWhile Char.isDigit).length + 1
    else if c = '?' then 1
    else 0

/-- The pattern and the lookahead that it ends outside of quotes. A shorter match would leave the
same quotes. -/
def lookahead (length : List Char → Nat) : Matcher Char :=
  fun cs => if closes false (cs.drop (length cs)) then length cs else 0

def paramLength (cs : List Char) : Nat :=
  if namedLength cs = 0 then indexLength cs else namedLength cs

def paramRegex : Matcher Char := lookahead paramLength

def indexRegex : Matcher Char := lookahead indexLength

def namedRegex : Matcher Char := lookahead namedLength

/-- A match of `index_regex` starts so. -/
def isIndexMatch (cs : List Char) : Bool := cs.head?.any fun c => c = '$' || c = '?'

/-- A match of `named_regex` starts so. -/
def isNamedMatch (cs : List Char) : Bool := cs.head?.any fun c => c = '@' || c = ':'

/-! ### The three patterns -/

lemma isWord_of_isDigit {c : Char} (h : c.isDigit = true) : isWord c = true := by
  simp [isWord, Char.isAlphanum, h]

lemma not_isWord {c : Char} (h : c = '@' ∨ c = ':' ∨ c = '$' ∨ c = '?') : isWord c = false := by
  obtain rfl | rfl | rfl | rfl := h <;> decide

lemma isQuote_of_isWord {c : Char} (h : isWord c = true) : isQuote c = false := by
  by_contra hquote
  rw [Bool.not_eq_false, isQuote, Bool.or_eq_true, decide_eq_true_eq, decide_eq_true_eq] at hquote
  obtain rfl | rfl := hquote <;> exact absurd h (by decide)

/-- Nothing is matched from a word character on. -/
lemma paramLength_isWord {c : Char} (h : isWord c = true) (cs : List Char) :
    paramLength (c :: cs) = 0 := by
  have hsigil : ¬(c = '@' ∨ c = ':') := fun hc =>
    absurd (not_isWord (hc.elim .inl fun hc => .inr (.inl hc))) (by simp [h])
  have hdollar : c ≠ '$' := fun hc => absurd (not_isWord (.inr (.inr (.inl hc)))) (by simp [h])
  have hquestion : c ≠ '?' := fun hc => absurd (not_isWord (.inr (.inr (.inr hc)))) (by simp [h])
  simp [paramLength, namedLength, indexLength, hsigil, hdollar, hquestion]

lemma namedLength_of_not {c : Char} (h : ¬(c = '@' ∨ c = ':')) (cs : List Char) :
    namedLength (c :: cs) = 0 :=
  if_neg fun hc => h hc.1

lemma indexLength_of_sigil {c : Char} (h : c = '@' ∨ c = ':') (cs : List Char) :
    indexLength (c :: cs) = 0 := by
  obtain rfl | rfl := h <;> rfl

lemma paramLength_of_sigil {c : Char} (h : c = '@' ∨ c = ':') (cs : List Char) :
    paramLength (c :: cs) = namedLength (c :: cs) := by
  rw [paramLength, indexLength_of_sigil h]
  split
  · next hzero => exact hzero.symm
  · rfl

lemma paramLength_of_not {c : Char} (h : ¬(c = '@' ∨ c = ':')) (cs : List Char) :
    paramLength (c :: cs) = indexLength (c :: cs) :=
  if_pos (namedLength_of_not h cs)

/-- After the first character there are word characters. -/
lemma isWord_of_paramLength {cs : List Char} {i : Nat} (hi : 0 < i) (hlt : i < paramLength cs) :
    ∃ c rest, cs.drop i = c :: rest ∧ isWord c = true := by
  have hrun : ∀ (p : Char → Bool) (cs : List Char) (i : Nat), i < (cs.takeWhile p).length →
      ∃ c rest, cs.drop i = c :: rest ∧ p c = true := by
    intro p cs
    induction cs with
    | nil => intro i hi; cases hi
    | cons c cs ih =>
      intro i hi
      by_cases hc : p c = true
      · cases i with
        | zero => exact ⟨c, cs, rfl, hc⟩
        | succ i =>
          rw [List.takeWhile_cons_of_pos hc] at hi
          exact ih i (Nat.lt_of_succ_lt_succ hi)
      · rw [List.takeWhile_cons_of_neg hc] at hi
        cases hi
  obtain ⟨i, rfl⟩ := Nat.exists_eq_add_one_of_ne_zero (Nat.ne_of_gt hi)
  cases cs with
  | nil => cases hlt
  | cons c cs =>
    rw [List.drop_succ_cons]
    by_cases hc : c = '@' ∨ c = ':'
    · rw [paramLength_of_sigil hc, namedLength] at hlt
      split at hlt
      · exact hrun isWord cs i (Nat.lt_of_succ_lt_succ hlt)
      · cases hlt
    · rw [paramLength_of_not hc, indexLength] at hlt
      split at hlt
      · obtain ⟨d, rest, hdrop, hd⟩ := hrun Char.isDigit cs i (Nat.lt_of_succ_lt_succ hlt)
        exact ⟨d, rest, hdrop, isWord_of_isDigit hd⟩
      · split at hlt <;> omega

lemma lookahead_le (length : List Char → Nat) (cs : List Char) :
    lookahead length cs ≤ length cs := by
  rw [lookahead]
  split
  · exact Nat.le_refl _
  · exact Nat.zero_le _

lemma lookahead_eq_zero {length : List Char → Nat} {cs : List Char} (h : length cs = 0) :
    lookahead length cs = 0 :=
  Nat.eq_zero_of_le_zero (h ▸ lookahead_le length cs)

lemma lookahead_congr {length length' : List Char → Nat} {cs : List Char}
    (h : length cs = length' cs) : lookahead length cs = lookahead length' cs := by
  rw [lookahead, lookahead, h]

lemma isolated_paramRegex : Isolated paramRegex := by
  intro cs i hi hlt
  obtain ⟨c, rest, hdrop, hc⟩ :=
    isWord_of_paramLength hi (Nat.lt_of_lt_of_le hlt (lookahead_le paramLength cs))
  rw [hdrop]
  exact lookahead_eq_zero (paramLength_isWord hc rest)

lemma head_of_indexLength {c : Char} {cs : List Char} (h : indexLength (c :: cs) ≠ 0) :
    c = '$' ∨ c = '?' := by
  by_contra hc
  rw [not_or] at hc
  exact h (by simp [indexLength, hc.1, hc.2])

lemma restricts_namedRegex : Restricts paramRegex namedRegex isNamedMatch := by
  intro cs
  cases cs with
  | nil => rfl
  | cons c cs =>
    by_cases hc : c = '@' ∨ c = ':'
    · have hsame : paramRegex (c :: cs) = namedRegex (c :: cs) :=
        lookahead_congr (paramLength_of_sigil hc cs)
      rw [hsame]
      cases namedRegex (c :: cs) with
      | zero => rfl
      | succ n => exact (if_pos (by simpa [isNamedMatch] using hc)).symm
    · have hnone : namedRegex (c :: cs) = 0 := lookahead_eq_zero (namedLength_of_not hc cs)
      rw [hnone]
      cases paramRegex (c :: cs) with
      | zero => rfl
      | succ n => exact (if_neg (by simpa [isNamedMatch] using hc)).symm

lemma restricts_indexRegex : Restricts paramRegex indexRegex isIndexMatch := by
  intro cs
  cases cs with
  | nil => rfl
  | cons c cs =>
    by_cases hc : c = '@' ∨ c = ':'
    · have hnone : indexRegex (c :: cs) = 0 := lookahead_eq_zero (indexLength_of_sigil hc cs)
      rw [hnone]
      cases paramRegex (c :: cs) with
      | zero => rfl
      | succ n => exact (if_neg (by obtain rfl | rfl := hc <;> simp [isIndexMatch])).symm
    · have hsame : paramRegex (c :: cs) = indexRegex (c :: cs) :=
        lookahead_congr (paramLength_of_not hc cs)
      rw [hsame]
      cases hn : indexRegex (c :: cs) with
      | zero => rfl
      | succ n =>
        have hle : indexRegex (c :: cs) ≤ indexLength (c :: cs) := lookahead_le _ _
        have hindex : indexLength (c :: cs) ≠ 0 := by omega
        have hhead := head_of_indexLength hindex
        exact (if_pos (by simpa [isIndexMatch] using hhead)).symm

/-- The matches of the three expressions are those of the first. -/
lemma findAll_namedRegex (sql : List Char) :
    findAll namedRegex sql = (findAll paramRegex sql).filter isNamedMatch :=
  restricts_namedRegex.findAll isolated_paramRegex sql

lemma findAll_indexRegex (sql : List Char) :
    findAll indexRegex sql = (findAll paramRegex sql).filter isIndexMatch :=
  restricts_indexRegex.findAll isolated_paramRegex sql

end Bindable

/-! ### Texts made of parameters, literals and other characters -/

/-- `[0-9]+` -/
abbrev Digits := { ds : List Char // ds ≠ [] ∧ ∀ c ∈ ds, c.isDigit = true }

/-- `[@:]\w+` -/
structure ParamName where
  sigil : Char
  word : List Char
  hsigil : sigil = '@' ∨ sigil = ':'
  hword : word ≠ [] ∧ ∀ c ∈ word, Bindable.isWord c = true
deriving DecidableEq

/-- One of the two characters a name may start with. -/
lemma ParamName.sigil_at : '@' = '@' ∨ '@' = ':' := .inl rfl

inductive SqlParam where
  | question
  | dollar (digits : Digits)
  | name (name : ParamName)
deriving DecidableEq

inductive SqlPart where
  | plain (c : Char)
  | literal (cs : List Char)
  | param (p : SqlParam)
deriving DecidableEq

namespace SqlParam

def text : SqlParam → List Char
  | .question => ['?']
  | .dollar ds => '$' :: ds
  | .name n => n.sigil :: n.word

/-- What follows a parameter does not belong to it. -/
def Ends : SqlParam → List Char → Prop
  | .question, _ => True
  | .dollar _, cs => ∀ c ∈ cs.head?, c.isDigit = false
  | .name _, cs => ∀ c ∈ cs.head?, Bindable.isWord c = false

instance decidableHead (p : Char → Bool) (c? : Option Char) : Decidable (∀ c ∈ c?, p c = false) :=
  Option.decidableForallMem c?

instance decidableChars (p : Char → Bool) (cs : List Char) : Decidable (∀ c ∈ cs, p c = false) :=
  List.decidableBAll _ cs

instance (p : SqlParam) (cs : List Char) : Decidable (p.Ends cs) :=
  match p with
  | .question => .isTrue trivial
  | .dollar _ => inferInstanceAs (Decidable (∀ c ∈ cs.head?, c.isDigit = false))
  | .name _ => inferInstanceAs (Decidable (∀ c ∈ cs.head?, Bindable.isWord c = false))

end SqlParam

namespace SqlPart

def text : SqlPart → List Char
  | .plain c => [c]
  | .literal cs => Bindable.apostrophe :: (cs ++ [Bindable.apostrophe])
  | .param p => p.text

def param? : SqlPart → Option SqlParam
  | .plain _ | .literal _ => none
  | .param p => some p

end SqlPart

abbrev SqlParts := List SqlPart

namespace SqlParts

open Bindable Search

def text (ps : SqlParts) : List Char := ps.flatMap SqlPart.text

def params (ps : SqlParts) : List SqlParam := ps.filterMap SqlPart.param?

/-- The plain characters are not quotes and begin no parameter, the literals have no quotes in them,
and the parameters are as long as they can be. -/
def Reads : SqlParts → Prop
  | [] => True
  | .plain c :: ps =>
    isQuote c = false ∧ c ≠ '?' ∧ (c = '$' → ∀ d ∈ (text ps).head?, d.isDigit = false) ∧
      (c = '@' ∨ c = ':' → ∀ d ∈ (text ps).head?, isWord d = false) ∧ Reads ps
  | .literal cs :: ps => (∀ c ∈ cs, isQuote c = false) ∧ Reads ps
  | .param p :: ps => p.Ends (text ps) ∧ Reads ps

instance decidableReads : (ps : SqlParts) → Decidable ps.Reads
  | [] => .isTrue trivial
  | .plain c :: ps =>
    have := decidableReads ps
    inferInstanceAs (Decidable (isQuote c = false ∧ c ≠ '?' ∧
      (c = '$' → ∀ d ∈ (text ps).head?, d.isDigit = false) ∧
        (c = '@' ∨ c = ':' → ∀ d ∈ (text ps).head?, isWord d = false) ∧ Reads ps))
  | .literal cs :: ps =>
    have := decidableReads ps
    inferInstanceAs (Decidable ((∀ c ∈ cs, isQuote c = false) ∧ Reads ps))
  | .param p :: ps =>
    have := decidableReads ps
    inferInstanceAs (Decidable (p.Ends (text ps) ∧ Reads ps))

@[simp] lemma text_cons (part : SqlPart) (ps : SqlParts) :
    text (part :: ps) = part.text ++ text ps := List.flatMap_cons

lemma text_append (ps₁ ps₂ : SqlParts) : text (ps₁ ++ ps₂) = text ps₁ ++ text ps₂ :=
  List.flatMap_append

lemma closes_append {quoted : Bool} {word : List Char} (h : ∀ c ∈ word, isQuote c = false)
    (cs : List Char) : closes quoted (word ++ cs) = closes quoted cs := by
  induction word with
  | nil => rfl
  | cons c word ih =>
    rw [List.cons_append, closes, h c (List.mem_cons_self ..), Bool.bne_false]
    exact ih fun d hd => h d (List.mem_cons_of_mem c hd)

lemma closes_not (quoted : Bool) (cs : List Char) : closes (!quoted) cs = !closes quoted cs := by
  induction cs generalizing quoted with
  | nil => rfl
  | cons c cs ih =>
    rw [closes, closes, ← ih]
    cases quoted <;> cases isQuote c <;> rfl

lemma isQuote_of_text {p : SqlParam} {c : Char} (hc : c ∈ p.text) : isQuote c = false := by
  cases p with
  | question =>
    obtain rfl := List.mem_singleton.mp hc
    decide
  | dollar ds =>
    obtain rfl | hc := List.mem_cons.mp hc
    · decide
    · exact isQuote_of_isWord (isWord_of_isDigit (ds.2.2 c hc))
  | name n =>
    obtain rfl | hc := List.mem_cons.mp hc
    · obtain hsigil | hsigil := n.hsigil <;> rw [hsigil] <;> decide
    · exact isQuote_of_isWord (n.hword.2 c hc)

/-- The literals of a text are complete. -/
lemma Reads.closes {ps : SqlParts} (h : Reads ps) : closes false (text ps) = true := by
  induction ps with
  | nil => rfl
  | cons part ps ih =>
    rw [text_cons]
    cases part with
    | plain c =>
      obtain ⟨hc, -, -, -, hps⟩ := h
      rw [closes_append (by simpa [SqlPart.text] using hc), ih hps]
    | literal cs =>
      obtain ⟨hcs, hps⟩ := h
      have hquote : ∀ quoted rest, Bindable.closes quoted (apostrophe :: rest) =
          Bindable.closes (!quoted) rest := by
        intro quoted rest
        cases quoted <;> rfl
      rw [SqlPart.text, List.cons_append, List.append_assoc, hquote, closes_append hcs,
        List.singleton_append, hquote]
      exact ih hps
    | param p =>
      rw [SqlPart.text, closes_append fun c => isQuote_of_text, ih h.2]

lemma takeWhile_run {p : Char → Bool} {word cs : List Char} (hword : ∀ c ∈ word, p c = true)
    (hcs : ∀ c ∈ cs.head?, p c = false) : (word ++ cs).takeWhile p = word := by
  rw [List.takeWhile_append_of_pos hword]
  cases cs with
  | nil => exact List.append_nil word
  | cons c cs => rw [List.takeWhile_cons_of_neg (by simp [hcs c rfl]), List.append_nil]

/-- A parameter is matched as a whole. -/
lemma paramRegex_text {p : SqlParam} {cs : List Char} (hends : p.Ends cs)
    (hcloses : Bindable.closes false cs = true) : paramRegex (p.text ++ cs) = p.text.length := by
  have hlength : paramLength (p.text ++ cs) = p.text.length := by
    cases p with
    | question => rfl
    | dollar ds =>
      have hrun : (ds.val ++ cs).takeWhile Char.isDigit = ds.val := takeWhile_run ds.2.2 hends
      rw [SqlParam.text, List.cons_append, paramLength_of_not (by decide), indexLength, hrun,
        if_pos ⟨rfl, ds.2.1⟩, List.length_cons]
    | name n =>
      have hrun : (n.word ++ cs).takeWhile isWord = n.word := takeWhile_run n.hword.2 hends
      rw [SqlParam.text, List.cons_append, paramLength_of_sigil n.hsigil, namedLength, hrun,
        if_pos ⟨n.hsigil, n.hword.1⟩, List.length_cons]
  rw [paramRegex, lookahead, hlength, List.drop_left, if_pos hcloses]

/-- Within a literal nothing is matched. -/
lemma paramRegex_quoted {word cs : List Char} (hword : ∀ c ∈ word, isQuote c = false)
    (hcs : Bindable.closes false cs = true) : paramRegex (word ++ apostrophe :: cs) = 0 := by
  have hle : paramLength (word ++ apostrophe :: cs) ≤ word.length := by
    by_contra hlt
    rw [Nat.not_le] at hlt
    rcases Nat.eq_zero_or_pos word.length with hzero | hpos
    · obtain rfl := List.eq_nil_of_length_eq_zero hzero
      cases hlt
    · obtain ⟨c, rest, hdrop, hc⟩ := isWord_of_paramLength hpos hlt
      rw [List.drop_left] at hdrop
      obtain ⟨rfl, -⟩ := List.cons.inj hdrop
      exact absurd hc (by decide)
  have hquote : Bindable.closes false (apostrophe :: cs) = false := by
    have hnot := closes_not false cs
    rw [hcs] at hnot
    exact hnot
  have hrest : Bindable.closes false
      ((word ++ apostrophe :: cs).drop (paramLength (word ++ apostrophe :: cs))) = false := by
    rw [List.drop_append_of_le_length hle,
      closes_append fun c hc => hword c (List.mem_of_mem_drop hc),
      hquote]
  rw [paramRegex, lookahead, hrest]
  rfl

/-- At a character that begins no parameter nothing is matched. -/
lemma paramRegex_plain {c : Char} {ps : SqlParts} (h : Reads (.plain c :: ps)) :
    paramRegex (c :: text ps) = 0 := by
  obtain ⟨-, hquestion, hdollar, hsigil, -⟩ := h
  have hnone : ∀ (p : Char → Bool) (cs : List Char), (∀ d ∈ cs.head?, p d = false) →
      cs.takeWhile p = [] := fun p cs h => @takeWhile_run p [] cs nofun h
  refine lookahead_eq_zero ?_
  by_cases hc : c = '@' ∨ c = ':'
  · rw [paramLength_of_sigil hc, namedLength, hnone isWord _ (hsigil hc)]
    exact if_neg fun h => h.2 rfl
  · rw [paramLength_of_not hc, indexLength, if_neg fun h => h.2 (hnone _ _ (hdollar h.1)),
      if_neg hquestion]

/-- What is left of a literal from a place in it. -/
lemma paramRegex_literal {cs : List Char} {ps : SqlParts} (h : Reads (.literal cs :: ps))
    {u v : List Char} (huv : (SqlPart.literal cs).text = u ++ v) (hv : v ≠ []) :
    paramRegex (v ++ text ps) = 0 := by
  obtain ⟨hcs, hps⟩ := h
  cases u with
  | nil =>
    rw [List.nil_append] at huv
    rw [← huv]
    exact lookahead_eq_zero rfl
  | cons c u =>
    obtain ⟨-, huv⟩ := List.cons.inj huv
    obtain rfl | ⟨w, x, rfl⟩ := List.eq_nil_or_concat v
    · exact absurd rfl hv
    · have hsplit : cs ++ [apostrophe] = (u ++ w) ++ [x] := by
        rw [List.append_assoc, ← @List.concat_eq_append _ w]
        exact huv
      obtain ⟨rfl, hx⟩ := List.append_inj' hsplit rfl
      obtain rfl := (List.cons.inj hx).1
      rw [List.concat_eq_append, List.append_assoc, List.singleton_append]
      exact paramRegex_quoted (fun c hc => hcs c (List.mem_append_right u hc)) hps.closes

/-- The matches in a text are its parameters. -/
theorem findAll_text {ps : SqlParts} (h : Reads ps) :
    findAll paramRegex (text ps) = (params ps).map SqlParam.text := by
  induction ps with
  | nil => rfl
  | cons part ps ih =>
    rw [text_cons]
    cases part with
    | plain c => exact (findAll_cons_other (paramRegex_plain h)).trans (ih h.2.2.2.2)
    | literal cs =>
      rw [findAll_append_other fun u v huv hv => paramRegex_literal h huv hv]
      exact ih h.2
    | param p =>
      have hp : p.text ≠ [] := by cases p <;> nofun
      rw [SqlPart.text, findAll_match hp (paramRegex_text h.1 h.2.closes), ih h.2]
      rfl

theorem replaceAll_text {ps : SqlParts} (h : Reads ps) (new : List Char) :
    replaceAll paramRegex new (text ps) =
      ps.flatMap fun part => if part.param?.isSome then new else part.text := by
  induction ps with
  | nil => rfl
  | cons part ps ih =>
    rw [text_cons, List.flatMap_cons]
    cases part with
    | plain c =>
      exact (replaceAll_cons_other (paramRegex_plain h)).trans (congrArg (c :: ·) (ih h.2.2.2.2))
    | literal cs =>
      rw [replaceAll_append_other fun u v huv hv => paramRegex_literal h huv hv, ih h.2]
      rfl
    | param p =>
      have hp : p.text ≠ [] := by cases p <;> nofun
      rw [SqlPart.text, replaceAll_match hp (paramRegex_text h.1 h.2.closes), ih h.2]
      rfl

/-! ### Which texts are so made -/

lemma exists_literal {cs : List Char} (hcs : '"' ∉ cs) (h : Bindable.closes true cs = true) :
    ∃ word rest, cs = word ++ apostrophe :: rest ∧ (∀ c ∈ word, isQuote c = false) ∧
      Bindable.closes false rest = true := by
  induction cs with
  | nil => cases h
  | cons c cs ih =>
    rw [List.mem_cons, not_or] at hcs
    by_cases hc : isQuote c = true
    · have hquote : c = '"' ∨ c = apostrophe := by simpa [isQuote] using hc
      obtain rfl := hquote.resolve_left (Ne.symm hcs.1)
      exact ⟨[], cs, rfl, nofun, h⟩
    · rw [Bool.not_eq_true] at hc
      rw [Bindable.closes, hc] at h
      obtain ⟨word, rest, rfl, hword, hrest⟩ := ih hcs.2 h
      refine ⟨c :: word, rest, rfl, fun d hd => ?_, hrest⟩
      obtain rfl | hd := List.mem_cons.mp hd
      · exact hc
      · exact hword d hd

/-- A run of characters, as long as it can be. -/
lemma exists_run (p : Char → Bool) (cs : List Char) :
    ∃ word rest, cs = word ++ rest ∧ (∀ c ∈ word, p c = true) ∧ ∀ c ∈ rest.head?, p c = false := by
  refine ⟨cs.takeWhile p, cs.dropWhile p, List.takeWhile_append_dropWhile.symm,
    List.all_eq_true.mp List.all_takeWhile, fun c hc => ?_⟩
  have hhead := List.head?_dropWhile_not p cs
  rw [Option.mem_def.mp hc] at hhead
  simpa using hhead

/-- Every text with complete literals and no double quotes is made of such parts. -/
theorem exists_parts {cs : List Char} (hcs : '"' ∉ cs) (h : Bindable.closes false cs = true) :
    ∃ ps : SqlParts, ps.Reads ∧ ps.text = cs := by
  cases cs with
  | nil => exact ⟨[], trivial, rfl⟩
  | cons c cs =>
    rw [List.mem_cons, not_or] at hcs
    obtain ⟨hc, hcs⟩ := hcs
    by_cases hquote : c = apostrophe
    · subst hquote
      obtain ⟨word, rest, rfl, hword, hrest⟩ := exists_literal hcs h
      obtain ⟨ps, hps, rfl⟩ := exists_parts
        (fun hmem => hcs (List.mem_append_right _ (List.mem_cons_of_mem _ hmem))) hrest
      exact ⟨.literal word :: ps, ⟨hword, hps⟩, by simp [SqlPart.text]⟩
    have hplain : isQuote c = false := by simpa [isQuote] using ⟨Ne.symm hc, hquote⟩
    rw [Bindable.closes, hplain] at h
    -- a parameter that starts with this character
    have hparam : ∀ (p : SqlParam) (word rest : List Char), cs = word ++ rest → p.text = c :: word →
        p.Ends rest → ∃ ps : SqlParts, ps.Reads ∧ ps.text = c :: cs := by
      rintro p word rest rfl htext hends
      have hword : ∀ d ∈ word, isQuote d = false := fun d hd =>
        isQuote_of_text (p := p) (htext ▸ List.mem_cons_of_mem c hd)
      obtain ⟨ps, hps, rfl⟩ := exists_parts (fun hmem => hcs (List.mem_append_right _ hmem))
        ((closes_append hword rest).symm.trans h)
      exact ⟨.param p :: ps, ⟨hends, hps⟩, by simp [SqlPart.text, htext]⟩
    by_cases hquestion : c = '?'
    · exact hparam .question [] cs rfl (hquestion ▸ rfl) trivial
    obtain ⟨digits, rest, hdigits, hall, hends⟩ := exists_run Char.isDigit cs
    by_cases hdollar : c = '$' ∧ digits ≠ []
    · exact hparam (.dollar ⟨digits, hdollar.2, hall⟩) digits rest hdigits
        (congrArg (· :: digits) hdollar.1.symm) hends
    obtain ⟨word, rest', hword, hall', hends'⟩ := exists_run isWord cs
    by_cases hsigil : (c = '@' ∨ c = ':') ∧ word ≠ []
    · exact hparam (.name ⟨c, word, hsigil.1, hsigil.2, hall'⟩) word rest' hword rfl hends'
    obtain ⟨ps, hps, rfl⟩ := exists_parts hcs h
    refine ⟨.plain c :: ps, ⟨hplain, hquestion, fun hc => ?_, fun hc => ?_, hps⟩, rfl⟩
    · obtain rfl : digits = [] := not_not.mp fun hne => hdollar ⟨hc, hne⟩
      rw [hdigits]
      exact hends
    · obtain rfl : word = [] := not_not.mp fun hne => hsigil ⟨hc, hne⟩
      rw [hword]
      exact hends'
termination_by cs.length
decreasing_by all_goals simp_all <;> omega

end SqlParts

namespace SqlParam

/-- A parameter by number. -/
def isIndex : SqlParam → Bool
  | .question | .dollar _ => true
  | .name _ => false

def isName : SqlParam → Bool
  | .name _ => true
  | .question | .dollar _ => false

lemma isIndexMatch_text (p : SqlParam) : Bindable.isIndexMatch p.text = p.isIndex := by
  cases p with
  | question => rfl
  | dollar ds => rfl
  | name n => obtain h | h := n.hsigil <;> simp [Bindable.isIndexMatch, text, h, isIndex]

lemma isNamedMatch_text (p : SqlParam) : Bindable.isNamedMatch p.text = p.isName := by
  cases p with
  | question => rfl
  | dollar ds => rfl
  | name n => obtain h | h := n.hsigil <;> simp [Bindable.isNamedMatch, text, h, isName]

end SqlParam

namespace SqlParts

open Bindable Search

lemma findAll_indexRegex_text {ps : SqlParts} (h : Reads ps) :
    findAll indexRegex (text ps) = ((params ps).filter SqlParam.isIndex).map SqlParam.text := by
  rw [findAll_indexRegex, findAll_text h, List.filter_map]
  congr 1
  exact List.filter_congr fun p _ => p.isIndexMatch_text

lemma findAll_namedRegex_text {ps : SqlParts} (h : Reads ps) :
    findAll namedRegex (text ps) = ((params ps).filter SqlParam.isName).map SqlParam.text := by
  rw [findAll_namedRegex, findAll_text h, List.filter_map]
  congr 1
  exact List.filter_congr fun p _ => p.isNamedMatch_text

end SqlParts

end CodaDb
