import CodaDb.Uri

/-!
# Positions of the URL parser

Which URLs are parsed without a look at the end of the string and without a copy of a reversed
range. The searches for the slash and for the port end where the path is then looked for, also when
there is nothing left of the URL.
-/

namespace CodaDb

namespace Uri

/-- What follows the first `@`, if there is one. -/
def behindUser (xs : List Char) : List Char := (Cut.after ['@'] xs).getD xs

/-- What follows the protocol and the user has a slash, or a letter of the host in front. -/
def Located (url_s : List Char) : Prop :=
  ∀ xs ∈ Cut.after protEnd url_s,
    '/' ∈ behindUser xs ∨ ∃ c ∈ (behindUser xs).head?, c ≠ ':'

/-- The user is read from any URL, and the position after it is in the URL. -/
lemma parseUser_behindUser {url_s pre xs : List Char} (h : url_s = pre ++ xs) {pos_i : Nat}
    (hpos : pos_i = pre.length) : ∃ user password pre', url_s = pre' ++ behindUser xs ∧
      parseUser url_s pos_i = some (user, password, pre'.length) := by
  cases hat : Cut.after ['@'] xs with
  | none =>
    refine ⟨[], [], pre, ?_, ?_⟩
    · rw [behindUser, hat]
      exact h
    · rw [parseUser_of_notMem h (Cut.after_singleton_eq_none hat) hpos, hpos]
  | some rest =>
    obtain ⟨info, rfl, hinfo⟩ := Cut.after_singleton_eq_some hat
    obtain ⟨user, password, rfl, hcolon⟩ := exists_behind ':' info
    have htext : url_s = pre ++ (user ++ (behind ':' password ++ '@' :: rest)) := by
      rw [h, List.append_assoc]
    refine ⟨user, password.getD [], pre ++ (user ++ behind ':' password ++ ['@']), ?_, ?_⟩
    · rw [behindUser, hat]
      simp [h]
    · rw [parseUser_append htext hinfo hcolon hpos]
      simp [Nat.add_assoc]

lemma findPath_of_notMem {url_s pre rest : List Char} (h : url_s = pre ++ rest)
    (hslash : '/' ∉ rest) {pos_i : Nat} (hpos : pos_i = pre.length) :
    findPath url_s pos_i = pos_i := by
  have htext : url_s = pre ++ (rest ++ []) := by rw [h, List.append_nil]
  have hfind : Cut.find url_s pos_i url_s.length '/' = url_s.length :=
    Cut.find_last htext hslash hpos (by rw [h, List.length_append])
  simp only [findPath, hfind, if_true]

/-- Without a slash the host and the port are both empty, and the port would begin after a colon
that is behind their end. -/
lemma parseHost_self_isSome {url_s : List Char} {pos_i : Nat} {c : Char}
    (hc : url_s[pos_i]? = some c) : (parseHost url_s pos_i pos_i).isSome ↔ c ≠ ':' := by
  have hlt : pos_i < url_s.length := (List.getElem?_eq_some_iff.mp hc).1
  obtain ⟨host, hhost⟩ := Cut.exists_range (Nat.le_refl pos_i) (Nat.le_of_lt hlt)
  simp only [parseHost, Cut.find_self, ne_eq, Nat.ne_of_lt hlt, not_false_eq_true, if_true, hc,
    hhost, Option.bind_eq_bind, Option.bind_some]
  by_cases hcolon : c = ':'
  · have hrange : Cut.range url_s (pos_i + 1) pos_i = none :=
      if_neg fun h => Nat.not_succ_le_self pos_i h.1
    simp [hcolon, hrange]
  · simp [hcolon, hhost]

/-- In front of the end the path is read, up to the question mark or to the end. -/
lemma parsePath_isSome {url_s : List Char} {path_i : Nat} {c : Char}
    (hc : url_s[path_i]? = some c) (hslash : c ≠ '/') : (parsePath url_s path_i).isSome := by
  have hlt : path_i < url_s.length := (List.getElem?_eq_some_iff.mp hc).1
  have hle := @Cut.find_le _ _ url_s path_i url_s.length '?' (Nat.le_of_lt hlt)
  obtain ⟨path, hpath⟩ := Cut.exists_range Cut.le_find hle
  have hquery_i : (if Cut.find url_s path_i url_s.length '?' ≠ url_s.length then
      Cut.find url_s path_i url_s.length '?' + 1 else
      Cut.find url_s path_i url_s.length '?') ≤ url_s.length := by
    split
    · next hend => exact Nat.lt_of_le_of_ne hle hend
    · exact hle
  obtain ⟨query, hquery⟩ := Cut.exists_range hquery_i (Nat.le_refl _)
  simp only [parsePath, hc, hslash, if_false, hpath, hquery, Option.bind_eq_bind,
    Option.bind_some]
  rfl

/-- There is no letter to compare with a slash at the end. -/
lemma parsePath_length (url_s : List Char) : parsePath url_s url_s.length = none := by
  simp [parsePath]

/-- A slash ends the host and the port, and begins the path. -/
lemma parse_slash {url_s pre rest : List Char} (h : url_s = pre ++ rest) (hslash : '/' ∈ rest)
    {pos_i : Nat} (hpos : pos_i = pre.length) :
    (parseHost url_s pos_i (findPath url_s pos_i)).isSome ∧
      (parsePath url_s (findPath url_s pos_i)).isSome := by
  obtain ⟨authority, tail, rfl, hauthority⟩ := List.eq_append_cons_of_mem hslash
  obtain ⟨host, port, rfl, hcolon⟩ := exists_behind ':' authority
  obtain ⟨path, query, rfl, hquestion⟩ := exists_behind '?' tail
  have hfind := findPath_append h hauthority hpos
  have htext : url_s = pre ++ (host ++ (behind ':' port ++ '/' :: (path ++ behind '?' query))) := by
    rw [h, List.append_assoc]
  have hhost := parseHost_append htext hcolon hpos (hfind.trans (congrArg _ List.length_append))
  have htail : url_s = (pre ++ (host ++ behind ':' port)) ++
      ('/' :: (path ++ behind '?' query)) := by
    rw [h, List.append_assoc pre]
  have hpath := parsePath_append htail hquestion (hfind.trans List.length_append.symm)
  rw [hhost, hpath]
  exact ⟨rfl, rfl⟩

/-- What follows the user is taken apart when it has a slash or a letter of the host in front. -/
lemma parse_rest {url_s pre rest : List Char} (h : url_s = pre ++ rest) {pos_i : Nat}
    (hpos : pos_i = pre.length) :
    ((parseHost url_s pos_i (findPath url_s pos_i)).isSome ∧
      (parsePath url_s (findPath url_s pos_i)).isSome) ↔
        '/' ∈ rest ∨ ∃ c ∈ rest.head?, c ≠ ':' := by
  by_cases hslash : '/' ∈ rest
  · exact iff_of_true (parse_slash h hslash hpos) (.inl hslash)
  · rw [findPath_of_notMem h hslash hpos]
    cases rest with
    | nil =>
      have hend : pos_i = url_s.length := by rw [hpos, h, List.append_nil]
      rw [hend, parsePath_length]
      simp
    | cons c rest =>
      have hc : url_s[pos_i]? = some c := by simp [h, hpos]
      have hne : c ≠ '/' := fun hc => hslash (hc ▸ List.mem_cons_self)
      rw [parseHost_self_isSome hc]
      simpa [hslash] using fun _ => parsePath_isSome hc hne

/-- Behind its protocol a URL is parsed when its host, its port, its path and its query are. -/
lemma parse_isSome_iff {url_s user password : List Char} {pos_i : Nat}
    (hsearch : Cut.search protEnd url_s < url_s.length)
    (huser : parseUser url_s (Cut.search protEnd url_s + protEnd.length) =
      some (user, password, pos_i)) :
    (parse url_s).isSome ↔ (parseHost url_s pos_i (findPath url_s pos_i)).isSome ∧
      (parsePath url_s (findPath url_s pos_i)).isSome := by
  obtain ⟨protocol, hprotocol⟩ := Cut.exists_range (Nat.zero_le _) (Nat.le_of_lt hsearch)
  simp only [parse, hprotocol, Nat.ne_of_lt hsearch, if_false, huser, Option.bind_eq_bind,
    Option.bind_some]
  cases parseHost url_s pos_i (findPath url_s pos_i) with
  | none => simp
  | some _ => cases parsePath url_s (findPath url_s pos_i) <;> simp

/-- Every position that is looked at is in the URL and every range that is copied is in order, if
and only if a slash or a letter of the host follows the protocol and the user. -/
theorem parse_isSome_iff_located (url_s : List Char) : (parse url_s).isSome ↔ Located url_s := by
  cases hafter : Cut.after protEnd url_s with
  | none =>
    have hsearch := Cut.search_of_after_eq_none hafter
    obtain ⟨protocol, hprotocol⟩ := Cut.exists_range (Nat.zero_le _) (Nat.le_refl url_s.length)
    have hlocated : Located url_s := by simp [Located, hafter]
    simp [parse, hsearch, hprotocol, hlocated]
  | some xs =>
    obtain ⟨pre, hurl, hsearch⟩ := Cut.search_of_after_eq_some hafter
    have hlt : Cut.search protEnd url_s < url_s.length := by
      rw [hsearch, hurl]
      simp [protEnd]
    have htext : url_s = (pre ++ protEnd) ++ xs := by rw [hurl, List.append_assoc]
    have hpos : Cut.search protEnd url_s + protEnd.length = (pre ++ protEnd).length := by
      rw [hsearch, List.length_append]
    obtain ⟨user, password, pre', hrest, huser⟩ := parseUser_behindUser htext hpos
    rw [parse_isSome_iff hlt huser, parse_rest hrest rfl, Located, hafter]
    simp only [Option.mem_def, Option.some.injEq, forall_eq']

/-- Nothing follows the protocol, and the end of the URL is compared with a slash. -/
theorem not_parse_isSome : ¬∀ url_s, (parse url_s).isSome := by
  intro h
  exact absurd (h "p://".toList) (by decide)

/-- Without a host the port begins behind the colon and ends in front of it. -/
example : parse "p://:1".toList = none := by decide

end Uri

end CodaDb
