import CodaDb.Lib.Tokens
import Mathlib.Computability.Language
import Mathlib.Order.CompletePartialOrder
import Mathlib.Tactic.GCongr

/-!
# The grammar of select statements

The languages below are over the top-level tokens of a text. A phrase is a column list, a table, a
condition or another part that the grammar does not look into; which words no phrase may hold is a
parameter.
-/

open Token
open scoped Computability

namespace SelectGrammar

def keyword (w : String) : Language Token := {[.word w]}

def optional (l : Language Token) : Language Token := 1 + l

def joinKind : Language Token :=
  optional (keyword "INNER" + keyword "LEFT" + keyword "RIGHT" + keyword "FULL" * keyword "OUTER")

/-- The text leaves nothing open and its tokens are in the language. -/
def Derives (l : Language Token) (text : String) : Prop := Closed text ∧ tokens text ∈ l

section Grammar

variable (reserved : Set String)

/-- The tokens a phrase may hold. -/
def Plain : Token → Prop
  | .word w => w ∉ reserved
  | .mark c => c ≠ ';' ∧ c ≠ ')'
  | .literal | .group => True

def phrase : Language Token := {ts | ts ≠ [] ∧ ∀ t ∈ ts, Plain reserved t}

abbrev Fragment (text : String) : Prop := Derives (phrase reserved) text

/-- The joins that take no condition. -/
def crossed : Language Token :=
  (keyword "NATURAL" + keyword "CROSS") * keyword "JOIN" * phrase reserved

def joinedOn : Language Token :=
  joinKind * keyword "JOIN" * phrase reserved * keyword "ON" * phrase reserved

/-- The start of a select, up to its condition. -/
def selection : Language Token :=
  keyword "SELECT" * phrase reserved * keyword "FROM" * phrase reserved *
    (crossed reserved + joinedOn reserved)∗ * optional (keyword "WHERE" * phrase reserved)

def grouping : Language Token := keyword "GROUP" * keyword "BY" * phrase reserved

def core : Language Token := selection reserved * optional (grouping reserved)

def united : Language Token := keyword "UNION" * optional (keyword "ALL") * core reserved

def ordering : Language Token := keyword "ORDER" * keyword "BY" * phrase reserved

def limiting : Language Token := keyword "LIMIT" * phrase reserved

def compound : Language Token :=
  core reserved * (united reserved)∗ * optional (ordering reserved) * optional (limiting reserved) *
    {[.mark ';']}

end Grammar

/-! ### Derivations -/

section Derives

variable {l m n : Language Token} {text sep rest : String}

lemma Derives.mono (h : Derives l text) (hle : l ≤ m) : Derives m text := ⟨h.1, hle h.2⟩

lemma Derives.append (h : Derives l text) {ts : List Token} (hsep : Separates sep ts)
    (hts : ts ∈ m) (hrest : Derives n rest) : Derives (l * m * n) (text ++ sep ++ rest) := by
  refine ⟨h.1.append hsep hrest.1, ?_⟩
  rw [tokens_append h.1 hsep]
  exact Language.append_mem_mul (Language.append_mem_mul h.2 hts) hrest.2

lemma derives_keyword {w : String} (hclosed : Closed w) (h : tokens w = [.word w]) :
    Derives (keyword w) w := ⟨hclosed, h⟩

lemma one_le_optional (l : Language Token) : 1 ≤ optional l := le_sup_left

lemma le_optional (l : Language Token) : l ≤ optional l := le_sup_right

variable {reserved : Set String}

lemma Derives.separated (h : Derives l text) {ts : List Token} (hsep : Separates sep ts)
    (hts : ts ∈ m) : Derives (l * m) (text ++ sep) := by
  have hempty : Derives 1 "" := ⟨by decide, rfl⟩
  simpa using h.append hsep hts hempty

lemma core_of_selection : selection reserved ≤ core reserved := by
  rw [core]
  exact le_mul_of_one_le_right' (one_le_optional _)

/-- A compound of one select. -/
lemma core_ended_le :
    core reserved * optional (ordering reserved) * optional (limiting reserved) * {[.mark ';']} ≤
      compound reserved := by
  rw [compound]
  gcongr
  exact le_mul_of_one_le_right' one_le_kstar

lemma phrase_append {as ts bs : List Token} (has : as ∈ phrase reserved)
    (hts : ∀ t ∈ ts, Plain reserved t) (hbs : bs ∈ phrase reserved) :
    as ++ ts ++ bs ∈ phrase reserved := by
  refine ⟨by simp [has.1], fun t ht => ?_⟩
  rw [List.mem_append, List.mem_append] at ht
  exact ht.elim (fun ht => ht.elim (has.2 t) (hts t)) (hbs.2 t)

/-- Fragments with a plain separator between them are a fragment. -/
lemma fragment_append (h : Fragment reserved text) {ts : List Token} (hsep : Separates sep ts)
    (hts : ∀ t ∈ ts, Plain reserved t) (hrest : Fragment reserved rest) :
    Fragment reserved (text ++ sep ++ rest) := by
  refine ⟨h.1.append hsep hrest.1, ?_⟩
  rw [tokens_append h.1 hsep]
  exact phrase_append h.2 hts hrest.2

lemma fragment_group (h : Fragment reserved text) : Fragment reserved ("(" ++ text ++ ")") := by
  have hclose : .mark ')' ∉ tokens text := fun hmem => (h.2.2 _ hmem).2 rfl
  have hscan := scan_group h.1 hclose
  have htokens : tokens ("(" ++ text ++ ")") = [.group] := by
    rw [tokens, hscan]
    rfl
  refine ⟨by simp [Closed, hscan], ?_⟩
  rw [htokens]
  exact ⟨by simp, by simp [Plain]⟩

lemma fragment_word {text w : String} (h : Closed text ∧ tokens text = [.word w])
    (hw : w ∉ reserved) : Fragment reserved text := by
  refine ⟨h.1, ?_⟩
  rw [h.2]
  exact ⟨by simp, by simpa [Plain] using hw⟩

/-- A select with its union before a compound is a compound. -/
lemma core_union_le :
    core reserved * (keyword "UNION" * optional (keyword "ALL")) * compound reserved ≤
      compound reserved := by
  calc core reserved * (keyword "UNION" * optional (keyword "ALL")) * compound reserved
      = core reserved * (united reserved * (united reserved)∗) * optional (ordering reserved) *
          optional (limiting reserved) * {[.mark ';']} := by
        simp only [compound, united, mul_assoc]
    _ ≤ compound reserved := by
        rw [compound]
        gcongr
        exact mul_kstar_le_kstar

end Derives

/-! ### Languages of all statements -/

/-- A language that concatenation does not leave. -/
structure Stable (s : Language Token) : Prop where
  one : 1 ≤ s
  mul : s * s ≤ s

namespace Stable

variable {s l m : Language Token} {reserved : Set String}

lemma mul_le (hs : Stable s) (hl : l ≤ s) (hm : m ≤ s) : l * m ≤ s :=
  (mul_le_mul' hl hm).trans hs.mul

lemma optional_le (hs : Stable s) (hl : l ≤ s) : optional l ≤ s := sup_le hs.one hl

lemma kstar_le (hs : Stable s) (hl : l ≤ s) : l∗ ≤ s :=
  kstar_le_of_mul_le_left hs.one (hs.mul_le le_rfl hl)

lemma joinKind_le (hs : Stable s)
    (h : ∀ w ∈ ["INNER", "LEFT", "RIGHT", "FULL", "OUTER"], keyword w ≤ s) : joinKind ≤ s :=
  hs.optional_le (sup_le (sup_le (sup_le (h _ (by simp)) (h _ (by simp))) (h _ (by simp)))
    (hs.mul_le (h _ (by simp)) (h _ (by simp))))

/-- The words in front of the phrases of a selection, but for the one of the conditions of joins. -/
def selectionWords : List String :=
  ["SELECT", "FROM", "JOIN", "WHERE", "NATURAL", "CROSS", "INNER", "LEFT", "RIGHT", "FULL", "OUTER"]

lemma selection_le (hs : Stable s) (hphrase : phrase reserved ≤ s)
    (hkeyword : ∀ w ∈ selectionWords, keyword w ≤ s)
    (hon : keyword "ON" * phrase reserved ≤ s) : selection reserved ≤ s := by
  have hcrossed : crossed reserved ≤ s :=
    hs.mul_le (hs.mul_le (sup_le (hkeyword _ (by simp [selectionWords]))
      (hkeyword _ (by simp [selectionWords]))) (hkeyword _ (by simp [selectionWords]))) hphrase
  have hkind : joinKind ≤ s := hs.joinKind_le fun w hw => hkeyword w (by
    simp only [selectionWords, List.mem_cons] at hw ⊢
    tauto)
  have hjoinedOn : joinedOn reserved ≤ s := by
    rw [joinedOn, mul_assoc]
    exact hs.mul_le
      (hs.mul_le (hs.mul_le hkind (hkeyword _ (by simp [selectionWords]))) hphrase) hon
  have hfrom : keyword "SELECT" * phrase reserved * keyword "FROM" * phrase reserved ≤ s :=
    hs.mul_le (hs.mul_le (hs.mul_le (hkeyword _ (by simp [selectionWords])) hphrase)
      (hkeyword _ (by simp [selectionWords]))) hphrase
  exact hs.mul_le (hs.mul_le hfrom (hs.kstar_le (sup_le hcrossed hjoinedOn)))
    (hs.optional_le (hs.mul_le (hkeyword _ (by simp [selectionWords])) hphrase))

end Stable

/-! ### The order of the clauses -/

/-- The words that start what comes behind a selection. -/
def clauseWords : Set String := {"GROUP", "UNION", "ORDER", "LIMIT"}

/-- The place of these words in a compound. -/
def rank : Token → Option Nat
  | .word w =>
    if w = "GROUP" ∨ w = "UNION" then some 0
    else if w = "ORDER" then some 1
    else if w = "LIMIT" then some 2
    else none
  | .mark _ | .literal | .group => none

def ranks (ts : List Token) : List Nat := ts.filterMap rank

@[simp] lemma ranks_append (ts us : List Token) : ranks (ts ++ us) = ranks ts ++ ranks us :=
  List.filterMap_append

/-- The tokens in which only words of the place `k` start a clause. -/
def Ranked (k : Nat) : Language Token := {ts | ∀ r ∈ ranks ts, r = k}

section Ranked

variable {k : Nat} {l : Language Token} {ts : List Token}

/-- A clause begins with its word. -/
lemma mem_ranks_keyword {w : String} (h : ts ∈ keyword w * l) (hw : rank (.word w) = some k) :
    k ∈ ranks ts := by
  obtain ⟨_, rfl, bs, -, rfl⟩ := Language.mem_mul.mp h
  simp [ranks, hw]

lemma le_ranked : l ≤ Ranked k ↔ ∀ ts ∈ l, ∀ r ∈ ranks ts, r = k := Iff.rfl

lemma ranked_stable (k : Nat) : Stable (Ranked k) where
  one := by
    refine le_ranked.mpr fun ts hts => ?_
    rw [(Language.mem_one ts).mp hts]
    simp [ranks]
  mul := by
    refine le_ranked.mpr fun ts hts r hr => ?_
    obtain ⟨as, has, bs, hbs, rfl⟩ := Language.mem_mul.mp hts
    rw [ranks_append, List.mem_append] at hr
    exact hr.elim (has r) (hbs r)

lemma keyword_ranked {w : String} (h : rank (.word w) = none ∨ rank (.word w) = some k) :
    keyword w ≤ Ranked k := by
  refine le_ranked.mpr fun ts hts => ?_
  obtain rfl : ts = [.word w] := hts
  intro r hr
  rw [ranks, List.mem_filterMap] at hr
  obtain ⟨t, ht, hr⟩ := hr
  rw [List.mem_singleton.mp ht] at hr
  obtain h | h := h
  · cases h.symm.trans hr
  · exact (Option.some.inj (h.symm.trans hr)).symm

variable {reserved : Set String}

/-- No phrase starts a clause. -/
lemma ranks_phrase (hreserved : clauseWords ⊆ reserved) (h : ts ∈ phrase reserved) :
    ranks ts = [] := by
  refine List.filterMap_eq_nil_iff.mpr fun t ht => ?_
  have hplain := h.2 t ht
  cases t with
  | word w =>
    have hw : w ∉ clauseWords := fun hmem => hplain (hreserved hmem)
    simp_all [clauseWords, rank]
  | mark c | literal | group => rfl

lemma phrase_ranked (hreserved : clauseWords ⊆ reserved) : phrase reserved ≤ Ranked k := by
  refine le_ranked.mpr fun ts hts => ?_
  simp [ranks_phrase hreserved hts]

/-- Nor does a part of a selection. -/
lemma selection_ranked (hreserved : clauseWords ⊆ reserved) : selection reserved ≤ Ranked k := by
  have hphrase : phrase reserved ≤ Ranked k := phrase_ranked hreserved
  refine (ranked_stable k).selection_le hphrase (fun w hw => keyword_ranked (.inl ?_))
    ((ranked_stable k).mul_le (keyword_ranked (.inl rfl)) hphrase)
  simp only [Stable.selectionWords, List.mem_cons, List.not_mem_nil, or_false] at hw
  rcases hw with rfl | rfl | rfl | rfl | rfl | rfl | rfl | rfl | rfl | rfl | rfl <;> rfl

lemma core_ranked (hreserved : clauseWords ⊆ reserved) : core reserved ≤ Ranked 0 :=
  (ranked_stable 0).mul_le (selection_ranked hreserved) ((ranked_stable 0).optional_le
    ((ranked_stable 0).mul_le
      ((ranked_stable 0).mul_le (keyword_ranked (.inr rfl)) (keyword_ranked (.inl rfl)))
      (phrase_ranked hreserved)))

lemma united_ranked (hreserved : clauseWords ⊆ reserved) : united reserved ≤ Ranked 0 :=
  (ranked_stable 0).mul_le ((ranked_stable 0).mul_le (keyword_ranked (.inr rfl))
    ((ranked_stable 0).optional_le (keyword_ranked (.inl rfl)))) (core_ranked hreserved)

lemma ordering_ranked (hreserved : clauseWords ⊆ reserved) : ordering reserved ≤ Ranked 1 :=
  (ranked_stable 1).mul_le
    ((ranked_stable 1).mul_le (keyword_ranked (.inr rfl)) (keyword_ranked (.inl rfl)))
    (phrase_ranked hreserved)

lemma limiting_ranked (hreserved : clauseWords ⊆ reserved) : limiting reserved ≤ Ranked 2 :=
  (ranked_stable 2).mul_le (keyword_ranked (.inr rfl)) (phrase_ranked hreserved)

/-- In a compound the words that start a clause stand in the order of their places. -/
theorem compound_sorted (hreserved : clauseWords ⊆ reserved) (h : ts ∈ compound reserved) :
    (ranks ts).Pairwise (· ≤ ·) := by
  obtain ⟨_, ⟨_, ⟨_, ⟨as, has, bs, hbs, rfl⟩, os, hos, rfl⟩, ls, hls, rfl⟩, _, rfl, rfl⟩ := h
  have hcores : ∀ r ∈ ranks (as ++ bs), r = 0 :=
    (ranked_stable 0).mul_le (core_ranked hreserved)
      ((ranked_stable 0).kstar_le (united_ranked hreserved)) (Language.append_mem_mul has hbs)
  have hordering : ∀ r ∈ ranks os, r = 1 :=
    (ranked_stable 1).optional_le (ordering_ranked hreserved) hos
  have hlimiting : ∀ r ∈ ranks ls, r = 2 :=
    (ranked_stable 2).optional_le (limiting_ranked hreserved) hls
  have hconst {k : Nat} {rs : List Nat} (hrs : ∀ r ∈ rs, r = k) : rs.Pairwise (· ≤ ·) :=
    List.pairwise_of_forall_mem_list fun r hr r' hr' => (hrs r hr).trans_le (hrs r' hr').ge
  have hends : ranks [.mark ';'] = [] := rfl
  rw [ranks_append, ranks_append, ranks_append, hends, List.append_nil, List.append_assoc]
  refine List.pairwise_append.mpr ⟨hconst hcores, List.pairwise_append.mpr
    ⟨hconst hordering, hconst hlimiting, ?_⟩, ?_⟩
  · intro r hr r' hr'
    rw [hordering r hr, hlimiting r' hr']
    decide
  · intro r hr r' _
    rw [hcores r hr]
    exact Nat.zero_le r'

end Ranked

/-! ### The conditions of joins -/

/-- The words that start a join, its condition or the one behind the joins. -/
def joinWords : Set String :=
  {"JOIN", "NATURAL", "CROSS", "INNER", "LEFT", "RIGHT", "FULL", "ON", "WHERE"}

section Conditions

variable (reserved : Set String)

/-- The tokens in which a phrase follows every `ON`. -/
def Conditioned : Language Token :=
  {ts | ∀ as bs, ts = as ++ .word "ON" :: bs → ∃ t, bs.head? = some t ∧ Plain reserved t}

/-- The tokens that do not begin with a phrase. -/
def Headed : Language Token := {ts | ∀ t, ts.head? = some t → ¬Plain reserved t}

variable {reserved} {l : Language Token} {ts us : List Token} {w : String}

lemma conditioned_stable : Stable (Conditioned reserved) where
  one := by
    intro ts hts as bs heq
    rw [(Language.mem_one ts).mp hts] at heq
    simp at heq
  mul := by
    rintro _ ⟨ts, hts, us, hus, rfl⟩ as bs heq
    obtain ⟨cs, rfl, hbehind⟩ | ⟨cs, rfl, hbehind⟩ := List.append_eq_append_iff.mp heq
    · exact hus cs bs hbehind
    · cases cs with
      | nil => exact hus [] bs (by simpa using hbehind.symm)
      | cons c cs =>
        obtain ⟨rfl, rfl⟩ := List.cons.inj hbehind
        obtain ⟨t, ht, hplain⟩ := hts as cs rfl
        exact ⟨t, by simp [List.head?_append, ht], hplain⟩

/-- A part without `ON` has every phrase it needs. -/
lemma conditioned_of_not_mem (h : .word "ON" ∉ ts) : ts ∈ Conditioned reserved := by
  rintro as bs rfl
  simp at h

lemma keyword_conditioned (h : w ≠ "ON") : keyword w ≤ Conditioned reserved := by
  rintro ts (rfl : ts = [.word w])
  exact conditioned_of_not_mem (by simpa using h.symm)

lemma phrase_conditioned (hreserved : "ON" ∈ reserved) :
    phrase reserved ≤ Conditioned reserved :=
  fun _ hts => conditioned_of_not_mem fun hmem => hts.2 _ hmem hreserved

/-- In a compound a phrase follows every `ON`. -/
theorem compound_conditioned (hreserved : "ON" ∈ reserved) :
    compound reserved ≤ Conditioned reserved := by
  have hs : Stable (Conditioned reserved) := conditioned_stable
  have hphrase := phrase_conditioned hreserved
  have hon : keyword "ON" * phrase reserved ≤ Conditioned reserved := by
    rintro _ ⟨_, rfl, ps, hps, rfl⟩ as bs heq
    cases as with
    | nil =>
      obtain rfl : ps = bs := by simpa using heq
      obtain ⟨t, ts, rfl⟩ := List.exists_cons_of_ne_nil hps.1
      exact ⟨t, rfl, hps.2 t List.mem_cons_self⟩
    | cons a as =>
      obtain rfl : ps = as ++ .word "ON" :: bs := by simpa using (List.cons.inj heq).2
      exact absurd hreserved (hps.2 (.word "ON") (by simp))
  have hselection := hs.selection_le hphrase
    (fun w hw => keyword_conditioned fun h => by simp [h, Stable.selectionWords] at hw) hon
  have hclause {v w : String} (hv : v ≠ "ON") (hw : w ≠ "ON") :
      keyword v * keyword w * phrase reserved ≤ Conditioned reserved :=
    hs.mul_le (hs.mul_le (keyword_conditioned hv) (keyword_conditioned hw)) hphrase
  have hcore : core reserved ≤ Conditioned reserved :=
    hs.mul_le hselection (hs.optional_le (hclause (by decide) (by decide)))
  have hunited : united reserved ≤ Conditioned reserved :=
    hs.mul_le (hs.mul_le (keyword_conditioned (by decide))
      (hs.optional_le (keyword_conditioned (by decide)))) hcore
  have hlimiting : limiting reserved ≤ Conditioned reserved :=
    hs.mul_le (keyword_conditioned (by decide)) hphrase
  have hend : {[.mark ';']} ≤ Conditioned reserved := by
    rintro _ rfl
    exact conditioned_of_not_mem (by simp)
  exact hs.mul_le (hs.mul_le (hs.mul_le (hs.mul_le hcore (hs.kstar_le hunited))
    (hs.optional_le (hclause (by decide) (by decide)))) (hs.optional_le hlimiting)) hend

/-- What follows a part keeps its phrases. -/
lemma conditioned_behind (h : ts ++ us ∈ Conditioned reserved) : us ∈ Conditioned reserved := by
  rintro as bs rfl
  exact h (ts ++ as) bs (by simp)

/-- No `ON` stands before what does not begin with a phrase. -/
lemma not_conditioned (h : us ∈ Headed reserved) :
    ts ++ .word "ON" :: us ∉ Conditioned reserved := by
  intro hconditioned
  obtain ⟨t, ht, hplain⟩ := hconditioned ts us rfl
  exact h t ht hplain

lemma headed_stable : Stable (Headed reserved) where
  one := by
    intro ts hts t ht
    rw [(Language.mem_one ts).mp hts] at ht
    cases ht
  mul := by
    rintro _ ⟨ts, hts, us, hus, rfl⟩ t ht
    cases ts with
    | nil => exact hus t ht
    | cons => exact hts t ht

/-- A clause begins with its word. -/
lemma keyword_mul_headed (h : w ∈ reserved) : keyword w * l ≤ Headed reserved := by
  rintro _ ⟨_, rfl, us, -, rfl⟩ t ht
  obtain rfl := Option.some.inj ht
  exact fun hplain => hplain h

lemma keyword_headed (h : w ∈ reserved) : keyword w ≤ Headed reserved := by
  simpa using keyword_mul_headed (l := 1) h

end Conditions

end SelectGrammar
