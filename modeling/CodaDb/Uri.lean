import CodaDb.Lib.Cut

/-!
# `uri_type`

The parser of a URL. Iterators into the URL are positions in it; dereferencing the end and copying a
range that ends before it begins have no result.
-/

namespace CodaDb

structure Uri where
  protocol : List Char := []
  user : List Char := []
  password : List Char := []
  host : List Char := []
  port : List Char := []
  path : List Char := []
  query : List Char := []
  value : List Char := []
deriving DecidableEq, Repr

namespace Uri

/-- `prot_end` -/
def protEnd : List Char := [':', '/', '/']

/-- The user and the password before the first `@`, if there is one, and the position after it. -/
def parseUser (url_s : List Char) (pos_i : Nat) : Option (List Char × List Char × Nat) :=
  let user_i := Cut.find url_s pos_i url_s.length '@'
  if user_i ≠ url_s.length then
    let pwd_i := Cut.find url_s pos_i user_i ':'
    if pwd_i ≠ user_i then do
      let password ← Cut.range url_s (pwd_i + 1) user_i
      let user ← Cut.range url_s pos_i pwd_i
      return (user, password, user_i + 1)
    else do
      let user ← Cut.range url_s pos_i user_i
      return (user, [], user_i + 1)
  else some ([], [], pos_i)

/-- `path_i`: the first slash, or the position where the search for it begins. -/
def findPath (url_s : List Char) (pos_i : Nat) : Nat :=
  let path_i := Cut.find url_s pos_i url_s.length '/'
  if path_i = url_s.length then pos_i else path_i

/-- The host and the port. -/
def parseHost (url_s : List Char) (pos_i path_i : Nat) : Option (List Char × List Char) :=
  let port_i := Cut.find url_s pos_i path_i ':'
  if port_i ≠ url_s.length then do
    let c ← url_s[port_i]?
    let port ← Cut.range url_s (if c = ':' then port_i + 1 else port_i) path_i
    let host ← Cut.range url_s pos_i port_i
    return (host.map Char.toLower, port)
  else do
    let host ← Cut.range url_s pos_i path_i
    return (host.map Char.toLower, [])

/-- The path and the query. -/
def parsePath (url_s : List Char) (path_i : Nat) : Option (List Char × List Char) := do
  let query_i := Cut.find url_s path_i url_s.length '?'
  let c ← url_s[path_i]?
  let path ← Cut.range url_s (if c = '/' then path_i + 1 else path_i) query_i
  let query ← Cut.range url_s (if query_i ≠ url_s.length then query_i + 1 else query_i) url_s.length
  return (path, query)

/-- `parse`, which the constructor calls. -/
def parse (url_s : List Char) : Option Uri := do
  let pos_i := Cut.search protEnd url_s
  let protocol ← Cut.range url_s 0 pos_i
  if pos_i = url_s.length then
    some { protocol := protocol.map Char.toLower, value := url_s }
  else do
    let (user, password, pos_i) ← parseUser url_s (pos_i + protEnd.length)
    let path_i := findPath url_s pos_i
    let (host, port) ← parseHost url_s pos_i path_i
    let (path, query) ← parsePath url_s path_i
    return {
      protocol := protocol.map Char.toLower
      user := user
      password := password
      host := host
      port := port
      path := path
      query := query
      value := url_s }

/-! ### Where the delimiters are -/

/-- A part that may be absent, behind the letter that introduces it. -/
def behind (c : Char) : Option (List Char) → List Char
  | none => []
  | some part => c :: part

/-- An authority is cut at its first colon. -/
lemma parseHost_append {url_s pre host tail : List Char} {port : Option (List Char)}
    (h : url_s = pre ++ (host ++ (behind ':' port ++ '/' :: tail))) (hhost : ':' ∉ host)
    {pos_i path_i : Nat} (hpos : pos_i = pre.length)
    (hpath : path_i = pre.length + (host.length + (behind ':' port).length)) :
    parseHost url_s pos_i path_i = some (host.map Char.toLower, port.getD []) := by
  have hlength : pre.length + host.length < url_s.length := by
    simp only [h, List.length_append, List.length_cons]
    omega
  have hrange : Cut.range url_s pos_i (pre.length + host.length) = some host :=
    Cut.range_append h hpos rfl
  cases port with
  | none =>
    have hfind : Cut.find url_s pos_i path_i ':' = pre.length + host.length :=
      (Cut.find_last h hhost hpos hpath).trans hpath
    have hchar : url_s[pre.length + host.length]? = some '/' := by
      simp [h, behind]
    have htext : url_s = (pre ++ host) ++ ([] ++ '/' :: tail) := by simp [h, behind]
    have hport : Cut.range url_s (pre.length + host.length) path_i = some [] :=
      Cut.range_append htext (by simp) (by simp [hpath, behind])
    simp only [parseHost, hfind, ne_eq, Nat.ne_of_lt hlength, not_false_eq_true, if_true, hchar]
    simp [hrange, hport]
  | some port =>
    rw [behind, List.length_cons] at hpath
    rw [behind, List.cons_append] at h
    have hfind : Cut.find url_s pos_i path_i ':' = pre.length + host.length :=
      Cut.find_append h hhost hpos (by omega)
    have hchar : url_s[pre.length + host.length]? = some ':' := by
      simp [h]
    have htext : url_s = (pre ++ (host ++ [':'])) ++ (port ++ '/' :: tail) := by simp [h]
    have hport : Cut.range url_s (pre.length + host.length + 1) path_i = some port := by
      refine Cut.range_append htext ?_ ?_
      · simp only [List.length_append, List.length_singleton]
        omega
      · simp only [List.length_append, List.length_singleton]
        omega
    simp only [parseHost, hfind, ne_eq, Nat.ne_of_lt hlength, not_false_eq_true, if_true, hchar]
    simp [hrange, hport]

/-- There is no user in front of a text without an `@`. -/
lemma parseUser_of_notMem {url_s pre rest : List Char} (h : url_s = pre ++ rest) (hat : '@' ∉ rest)
    {pos_i : Nat} (hpos : pos_i = pre.length) : parseUser url_s pos_i = some ([], [], pos_i) := by
  have htext : url_s = pre ++ (rest ++ []) := by rw [h, List.append_nil]
  have hfind : Cut.find url_s pos_i url_s.length '@' = url_s.length :=
    Cut.find_last htext hat hpos (by rw [h, List.length_append])
  simp [parseUser, hfind]

/-- A user is cut at its first colon. -/
lemma parseUser_append {url_s pre user rest : List Char} {password : Option (List Char)}
    (h : url_s = pre ++ (user ++ (behind ':' password ++ '@' :: rest)))
    (hat : '@' ∉ user ++ behind ':' password) (hcolon : ':' ∉ user) {pos_i : Nat}
    (hpos : pos_i = pre.length) :
    parseUser url_s pos_i = some (user, password.getD [],
      pre.length + (user ++ behind ':' password).length + 1) := by
  have hinfo : url_s = pre ++ ((user ++ behind ':' password) ++ '@' :: rest) := by
    rw [h, List.append_assoc]
  have hlength : pre.length + (user ++ behind ':' password).length < url_s.length := by
    simp only [hinfo, List.length_append, List.length_cons]
    omega
  have hfind : Cut.find url_s pos_i url_s.length '@' =
      pre.length + (user ++ behind ':' password).length :=
    Cut.find_append hinfo hat hpos hlength
  simp only [parseUser, hfind, ne_eq, Nat.ne_of_lt hlength, not_false_eq_true, if_true]
  cases password with
  | none =>
    rw [behind, List.append_nil]
    have hcolon : Cut.find url_s pos_i (pre.length + user.length) ':' =
        pre.length + user.length := Cut.find_last h hcolon hpos rfl
    have huser : Cut.range url_s pos_i (pre.length + user.length) = some user :=
      Cut.range_append h hpos rfl
    simp [hcolon, huser]
  | some password =>
    rw [behind, List.cons_append] at h
    have hbehind : pre.length + (user ++ behind ':' (some password)).length =
        pre.length + user.length + 1 + password.length := by
      simp only [behind, List.length_append, List.length_cons]
      omega
    have hne : pre.length + user.length ≠ pre.length + user.length + 1 + password.length := by
      omega
    have hcolon : Cut.find url_s pos_i (pre.length + user.length + 1 + password.length) ':' =
        pre.length + user.length := Cut.find_append h hcolon hpos (by omega)
    have huser : Cut.range url_s pos_i (pre.length + user.length) = some user :=
      Cut.range_append h hpos rfl
    have hpassword : Cut.range url_s (pre.length + user.length + 1)
        (pre.length + user.length + 1 + password.length) = some password := by
      have htext : url_s = (pre ++ (user ++ [':'])) ++ (password ++ '@' :: rest) := by simp [h]
      refine Cut.range_append htext ?_ ?_
      · simp only [List.length_append, List.length_singleton]
        omega
      · simp only [List.length_append, List.length_singleton]
        omega
    rw [hbehind]
    simp [hcolon, hne, huser, hpassword]

lemma findPath_append {url_s pre authority tail : List Char}
    (h : url_s = pre ++ (authority ++ '/' :: tail)) (hslash : '/' ∉ authority) {pos_i : Nat}
    (hpos : pos_i = pre.length) : findPath url_s pos_i = pre.length + authority.length := by
  have hlength : pre.length + authority.length < url_s.length := by
    simp only [h, List.length_append, List.length_cons]
    omega
  have hfind : Cut.find url_s pos_i url_s.length '/' = pre.length + authority.length :=
    Cut.find_append h hslash hpos hlength
  simp only [findPath, hfind, Nat.ne_of_lt hlength, if_false]

/-- What follows the slash is cut at its first question mark. -/
lemma parsePath_append {url_s pre path : List Char} {query : Option (List Char)}
    (h : url_s = pre ++ ('/' :: (path ++ behind '?' query))) (hquestion : '?' ∉ path) {path_i : Nat}
    (hpath : path_i = pre.length) : parsePath url_s path_i = some (path, query.getD []) := by
  have hslash : '?' ∉ '/' :: path := by simp [hquestion]
  have hchar : url_s[path_i]? = some '/' := by simp [h, hpath]
  have hlength : url_s.length = pre.length + (path.length + (behind '?' query).length + 1) := by
    simp [h]
  have hcopy : Cut.range url_s (path_i + 1) (pre.length + (path.length + 1)) = some path := by
    have htext : url_s = (pre ++ ['/']) ++ (path ++ behind '?' query) := by simp [h]
    refine Cut.range_append htext ?_ ?_
    · rw [hpath, List.length_append, List.length_singleton]
    · simp only [List.length_append, List.length_singleton]
      omega
  cases query with
  | none =>
    rw [behind, List.length_nil, Nat.add_zero] at hlength
    rw [behind, List.append_nil] at h
    have htext : url_s = pre ++ (('/' :: path) ++ []) := by rw [h, List.append_nil]
    have hend : url_s = url_s ++ ([] ++ []) := by rw [List.append_nil, List.append_nil]
    have hfind : Cut.find url_s path_i url_s.length '?' = url_s.length :=
      Cut.find_last htext hslash hpath (by simp [hlength])
    have hquery : Cut.range url_s url_s.length url_s.length = some [] :=
      Cut.range_append hend rfl rfl
    rw [← hlength] at hcopy
    simp [parsePath, hfind, hchar, hcopy, hquery]
  | some query =>
    rw [behind, ← List.cons_append] at h
    rw [behind, List.length_cons] at hlength
    have hfind : Cut.find url_s path_i url_s.length '?' = pre.length + (path.length + 1) :=
      Cut.find_append h hslash hpath (by rw [hlength, List.length_cons]; omega)
    have hne : pre.length + (path.length + 1) ≠ url_s.length := by omega
    have hquery : Cut.range url_s (pre.length + (path.length + 1) + 1) url_s.length =
        some query := by
      have htext : url_s = (pre ++ ('/' :: path ++ ['?'])) ++ (query ++ []) := by simp [h]
      refine Cut.range_append htext ?_ ?_
      · simp only [List.length_append, List.length_cons, List.length_nil]
        omega
      · simp only [List.length_append, List.length_cons, List.length_nil]
        omega
    simp only [parsePath, hfind, hchar, ne_eq, hne, not_false_eq_true, if_true]
    simp [hcopy, hquery]

/-! ### URLs in parts -/

/-- The parts of a URL, some of which may be absent. -/
structure Parts where
  protocol : List Char
  user : Option (List Char × Option (List Char))
  host : List Char
  port : Option (List Char)
  path : List Char
  query : Option (List Char)

namespace Parts

/-- The user and the password, with the `@` that ends them. -/
def userText (p : Parts) : List Char :=
  match p.user with
  | none => []
  | some (user, password) => user ++ (behind ':' password ++ ['@'])

/-- What follows the user. -/
def hostText (p : Parts) : List Char :=
  p.host ++ (behind ':' p.port ++ '/' :: (p.path ++ behind '?' p.query))

/-- protocol `://` [user [`:` password] `@`] host [`:` port] `/` path [`?` query] -/
def text (p : Parts) : List Char := p.protocol ++ (protEnd ++ (p.userText ++ p.hostText))

/-- The fields of a URL, where an absent part is empty. -/
def fields (p : Parts) : Uri where
  protocol := p.protocol
  user := (p.user.map Prod.fst).getD []
  password := (p.user.bind Prod.snd).getD []
  host := p.host
  port := p.port.getD []
  path := p.path
  query := p.query.getD []
  value := p.text

/-- Each delimiter of the URL is the first of its kind in what is searched for it. -/
structure Delimited (p : Parts) : Prop where
  protocol : Cut.search protEnd p.text = p.protocol.length
  no_user : p.user = none → '@' ∉ p.hostText
  user : ∀ u ∈ p.user, ':' ∉ u.1 ∧ '@' ∉ u.1 ++ behind ':' u.2
  host : ':' ∉ p.host
  authority : '/' ∉ p.host ++ behind ':' p.port
  path : '?' ∉ p.path

/-- Such a URL is taken apart, with its protocol and its host in lower case. -/
theorem parse_of_delimited {p : Parts} (h : p.Delimited) :
    parse p.text = some { p.fields with
      protocol := p.protocol.map Char.toLower
      host := p.host.map Char.toLower } := by
  have hprotocol : Cut.range p.text 0 p.protocol.length = some p.protocol :=
    Cut.range_append (List.nil_append p.text).symm rfl (Nat.zero_add _).symm
  have hne : p.protocol.length ≠ p.text.length := by simp [text, protEnd]
  have hpre : p.protocol.length + protEnd.length = (p.protocol ++ protEnd).length := by
    rw [List.length_append]
  have huser : parseUser p.text (p.protocol.length + protEnd.length) =
      some (p.fields.user, p.fields.password, (p.protocol ++ (protEnd ++ p.userText)).length) := by
    cases hu : p.user with
    | none =>
      have htext : p.text = (p.protocol ++ protEnd) ++ p.hostText := by simp [text, userText, hu]
      rw [parseUser_of_notMem htext (h.no_user hu) hpre]
      simp [fields, userText, hu]
    | some u =>
      obtain ⟨hcolon, hat⟩ := h.user u hu
      have htext : p.text =
          (p.protocol ++ protEnd) ++ (u.1 ++ (behind ':' u.2 ++ '@' :: p.hostText)) := by
        simp [text, userText, hu]
      rw [parseUser_append htext hat hcolon hpre]
      simp [fields, userText, hu, Nat.add_assoc]
  have htext : p.text = (p.protocol ++ (protEnd ++ p.userText)) ++ p.hostText := by simp [text]
  have hauthority : p.text = (p.protocol ++ (protEnd ++ p.userText)) ++
      ((p.host ++ behind ':' p.port) ++ '/' :: (p.path ++ behind '?' p.query)) := by
    rw [htext, hostText, List.append_assoc p.host]
  have hslash := findPath_append hauthority h.authority rfl
  have hhost := parseHost_append htext h.host rfl
    (hslash.trans (congrArg _ List.length_append))
  rw [← List.append_assoc] at hauthority
  have hpath := parsePath_append hauthority h.path (hslash.trans List.length_append.symm)
  simp only [parse, h.protocol, hprotocol, hne, if_false, huser, Option.bind_eq_bind,
    Option.bind_some, hhost, hpath]
  rfl

/-- The parts a URL can be put together from: no part holds the delimiter that ends it. -/
structure Separable (p : Parts) : Prop where
  protocol : ¬protEnd <:+: p.protocol
  protocol_lower : ∀ c ∈ p.protocol, c.toLower = c
  user : ∀ u ∈ p.user, ':' ∉ u.1 ∧ '@' ∉ u.1
  password : ∀ u ∈ p.user, ∀ password ∈ u.2, '@' ∉ password
  host : ':' ∉ p.host ∧ '/' ∉ p.host ∧ '@' ∉ p.host
  host_lower : ∀ c ∈ p.host, c.toLower = c
  port : ∀ port ∈ p.port, '/' ∉ port ∧ '@' ∉ port
  path : '?' ∉ p.path ∧ '@' ∉ p.path
  query : ∀ query ∈ p.query, '@' ∉ query

end Parts

/-- `://` does not overlap itself. -/
lemma search_protEnd {protocol rest : List Char} (h : ¬protEnd <:+: protocol) :
    Cut.search protEnd (protocol ++ (protEnd ++ rest)) = protocol.length := by
  refine Cut.search_append ?_ (List.cons_ne_nil ':' _)
  rintro u v rfl hv ⟨tail, htail⟩
  match v with
  | [c] => simp [protEnd] at htail
  | [c, d] => simp [protEnd] at htail
  | c :: d :: e :: v =>
    simp only [protEnd, List.cons_append, List.nil_append, List.cons.injEq] at htail
    obtain ⟨rfl, rfl, rfl, -⟩ := htail
    exact h ⟨u, v, by simp [protEnd]⟩

lemma notMem_behind {c d : Char} (h : d ≠ c) {part : Option (List Char)}
    (hpart : ∀ xs ∈ part, d ∉ xs) : d ∉ behind c part := by
  cases part with
  | none => exact List.not_mem_nil
  | some xs => exact List.not_mem_cons_of_ne_of_not_mem h (hpart xs rfl)

namespace Parts

lemma Separable.delimited {p : Parts} (h : p.Separable) : p.Delimited := by
  have hport : ∀ port ∈ p.port, '@' ∉ port := fun port hp => (h.port port hp).2
  constructor
  · exact search_protEnd h.protocol
  · intro _
    simp only [hostText, List.mem_append, List.mem_cons, not_or]
    exact ⟨h.host.2.2, notMem_behind (by decide) hport, by decide, h.path.2,
      notMem_behind (by decide) h.query⟩
  · intro u hu
    refine ⟨(h.user u hu).1, ?_⟩
    rw [List.mem_append, not_or]
    exact ⟨(h.user u hu).2, notMem_behind (by decide) (h.password u hu)⟩
  · exact h.host.1
  · rw [List.mem_append, not_or]
    exact ⟨h.host.2.1, notMem_behind (by decide) fun port hp => (h.port port hp).1⟩
  · exact h.path.1

/-- A URL that is put together from its parts is taken apart into them. -/
theorem parse_text {p : Parts} (h : p.Separable) : parse p.text = some p.fields := by
  have hlower : ∀ xs : List Char, (∀ c ∈ xs, c.toLower = c) → xs.map Char.toLower = xs :=
    fun xs hxs => (List.map_congr_left hxs).trans (List.map_id' xs)
  rw [parse_of_delimited h.delimited, hlower _ h.protocol_lower, hlower _ h.host_lower]
  rfl

theorem parse_text_mysql :
    parse "mysql://me:pw@localhost:3306/db/x?a=b".toList =
      some {
        protocol := "mysql".toList
        user := "me".toList
        password := "pw".toList
        host := "localhost".toList
        port := "3306".toList
        path := "db/x".toList
        query := "a=b".toList
        value := "mysql://me:pw@localhost:3306/db/x?a=b".toList } :=
  @parse_text ⟨"mysql".toList, some ("me".toList, some "pw".toList), "localhost".toList,
    some "3306".toList, "db/x".toList, some "a=b".toList⟩
    { protocol := by decide
      protocol_lower := by simp
      user := by decide
      password := by decide
      host := by decide
      host_lower := by simp
      port := by decide
      path := by decide
      query := by decide }

end Parts

/-! ### An `@` behind the authority -/

lemma exists_behind (c : Char) (xs : List Char) :
    ∃ part other, xs = part ++ behind c other ∧ c ∉ part := by
  by_cases hc : c ∈ xs
  · obtain ⟨part, other, rfl, hpart⟩ := List.eq_append_cons_of_mem hc
    exact ⟨part, some other, rfl, hpart⟩
  · exact ⟨xs, none, (List.append_nil xs).symm, hc⟩

lemma length_behind (c : Char) (part : Option (List Char)) :
    (part.getD []).length ≤ (behind c part).length ∧
      (behind c part).length ≤ (part.getD []).length + 1 := by
  cases part <;> simp [behind]

/-- What the user and the path of a URL are read from. -/
lemma parse_eq_some {url_s : List Char} {u : Uri} (h : parse url_s = some u)
    (hsearch : Cut.search protEnd url_s ≠ url_s.length) :
    ∃ pos_i, parseUser url_s (Cut.search protEnd url_s + protEnd.length) =
        some (u.user, u.password, pos_i) ∧
      parsePath url_s (findPath url_s pos_i) = some (u.path, u.query) := by
  simp only [parse, hsearch, if_false, Option.bind_eq_bind, Option.bind_eq_some_iff] at h
  obtain ⟨protocol, -, ⟨user, password, pos_i⟩, huser, host, -, path, hpath, hu⟩ := h
  cases hu
  exact ⟨pos_i, huser, hpath⟩

/-- The path begins after the first slash, so that what is behind a slash is part of it or of the
query. -/
lemma length_parsePath {url_s pre xs ys path query : List Char}
    (h : url_s = pre ++ (xs ++ '/' :: ys)) {pos_i : Nat} (hpos : pos_i = pre.length)
    (hread : parsePath url_s (findPath url_s pos_i) = some (path, query)) :
    ys.length ≤ path.length + query.length + 1 := by
  obtain ⟨authority, tail, htail, hauthority⟩ :=
    List.eq_append_cons_of_mem (show '/' ∈ xs ++ '/' :: ys by simp)
  have hle := Cut.length_le_of_notMem hauthority htail.symm
  have hlength := congrArg List.length htail
  simp only [List.length_append, List.length_cons] at hlength
  obtain ⟨part, other, rfl, hquestion⟩ := exists_behind '?' tail
  rw [htail] at h
  have hfind := findPath_append h hauthority hpos
  rw [← List.append_assoc] at h
  rw [parsePath_append h hquestion (hfind.trans List.length_append.symm)] at hread
  obtain ⟨rfl, rfl⟩ : part = path ∧ other.getD [] = query := by
    simpa only [Option.some.injEq, Prod.mk.injEq] using hread
  have hbehind := (length_behind '?' other).2
  rw [List.length_append] at hlength
  omega

/-- Of an `@` and a slash one comes first. -/
lemma slash_mem_or {info rest xs ys : List Char} (h : info ++ '@' :: rest = xs ++ '/' :: ys) :
    '/' ∈ info ∨ ∃ between, xs = info ++ '@' :: between ∧ rest = between ++ '/' :: ys := by
  rcases List.append_eq_append_iff.mp h with ⟨between, hxs, hrest⟩ | ⟨between, hinfo, hrest⟩
  · cases between with
    | nil => exact absurd (List.cons.inj hrest).1 (by decide)
    | cons c between =>
      obtain ⟨rfl, htail⟩ := List.cons.inj hrest
      exact .inr ⟨between, hxs, htail⟩
  · cases between with
    | nil => exact absurd (List.cons.inj hrest).1 (by decide)
    | cons c between =>
      obtain ⟨rfl, -⟩ := List.cons.inj hrest
      exact .inl (by simp [hinfo])

/-- Behind its protocol a URL has an `@`: what is before it is taken for a user, and the path begins
after the first slash that follows. -/
lemma parse_at {url_s pre info rest xs ys : List Char} {u : Uri} (h : parse url_s = some u)
    (hurl : url_s = pre ++ (protEnd ++ (info ++ '@' :: rest)))
    (hsearch : Cut.search protEnd url_s = pre.length) (hat : '@' ∉ info)
    (hslash : info ++ '@' :: rest = xs ++ '/' :: ys) :
    u.user ≠ [] ∨ u.password ≠ [] ∨
      (∃ between, xs = info ++ '@' :: between) ∧
        ys.length ≤ u.path.length + u.query.length + 1 := by
  have hne : Cut.search protEnd url_s ≠ url_s.length := by
    rw [hsearch, hurl]
    simp [protEnd]
  obtain ⟨pos_i, huser, hpath⟩ := parse_eq_some h hne
  obtain ⟨user, password, rfl, hcolon⟩ := exists_behind ':' info
  have hurl' : url_s = (pre ++ protEnd) ++ (user ++ (behind ':' password ++ '@' :: rest)) := by
    simp [hurl]
  have hread := parseUser_append hurl' hat hcolon List.length_append.symm
  rw [← hsearch, huser] at hread
  obtain ⟨huser, hpassword, hpos⟩ : u.user = user ∧ u.password = password.getD [] ∧ _ := by
    simpa only [Option.some.injEq, Prod.mk.injEq] using hread
  rcases slash_mem_or hslash with hmem | ⟨between, hxs, rfl⟩
  · -- the slash is part of the user or of the password
    rw [List.mem_append] at hmem
    rcases hmem with hmem | hmem
    · exact .inl (huser ▸ List.ne_nil_of_mem hmem)
    · cases password with
      | none => cases hmem
      | some password =>
        refine .inr (.inl ?_)
        have hmem := (List.mem_cons.mp hmem).resolve_left (by decide)
        exact hpassword ▸ List.ne_nil_of_mem hmem
  · refine .inr (.inr ⟨⟨between, hxs⟩, ?_⟩)
    have hpre : url_s = (pre ++ protEnd ++ (user ++ behind ':' password ++ ['@'])) ++
        (between ++ '/' :: ys) := by
      simp [hurl]
    exact length_parsePath hpre (hpos.trans (by simp [Nat.add_assoc])) hpath

/-- The `://` that is found is the given one or has some of the protocol behind it. -/
lemma exists_own {url_s protocol rest : List Char} (h : url_s = protocol ++ (protEnd ++ rest)) :
    ∃ pre own post, url_s = pre ++ (protEnd ++ post) ∧ Cut.search protEnd url_s = pre.length ∧
      protEnd ++ post = own ++ (protEnd ++ rest) := by
  obtain ⟨pre, post, hurl, hsearch, hle⟩ := Cut.exists_search_eq (List.cons_ne_nil ':' _) h
  rcases List.append_eq_append_iff.mp (hurl.symm.trans h) with ⟨own, -, hpost⟩ | ⟨own, hown, hpost⟩
  · exact ⟨pre, own, post, hurl, hsearch, hpost⟩
  · obtain rfl : own = [] := by
      rw [hown, List.length_append] at hle
      exact List.eq_nil_of_length_eq_zero (by omega)
    exact ⟨pre, [], post, hurl, hsearch, hpost.symm⟩

namespace Parts

/-- A URL without a user and with an `@` behind its authority. -/
structure LateAt (p : Parts) : Prop where
  no_user : p.user = none
  host : ∀ c ∈ p.host, c ≠ ':' ∧ c ≠ '/' ∧ c ≠ '@'
  port : ∀ port ∈ p.port, ∀ c ∈ port, c ≠ ':' ∧ c ≠ '/' ∧ c ≠ '@'
  path : '?' ∉ p.path
  at_behind : '@' ∈ p.path ∨ ∃ query ∈ p.query, '@' ∈ query

/-- The URL yields its host, port, path and query and no user. -/
def YieldsNoUser (p : Parts) : Prop :=
  ∃ u, parse p.text = some u ∧ u.user = [] ∧ u.password = [] ∧ u.host = p.host ∧
    u.port = p.port.getD [] ∧ u.path = p.path ∧ u.query = p.query.getD []

/-- The `@` is behind the first slash, or the protocol has a `://` of its own and a slash is in
front of the host. -/
lemma LateAt.exists_slash {p : Parts} (h : p.LateAt) : ∃ pre post xs ys,
    p.text = pre ++ (protEnd ++ post) ∧ Cut.search protEnd p.text = pre.length ∧ '@' ∈ post ∧
      post = xs ++ '/' :: ys ∧
        ('@' ∉ xs ∨ p.path.length + (p.query.getD []).length + 1 < ys.length) := by
  have hat : '@' ∈ p.path ++ behind '?' p.query := by
    rw [List.mem_append]
    rcases h.at_behind with hat | ⟨query, hquery, hat⟩
    · exact .inl hat
    · rw [Option.mem_def.mp hquery]
      exact .inr (List.mem_cons_of_mem _ hat)
  have hhost : p.hostText =
      (p.host ++ behind ':' p.port) ++ '/' :: (p.path ++ behind '?' p.query) :=
    (List.append_assoc ..).symm
  have htext : p.text = p.protocol ++ (protEnd ++ p.hostText) := by simp [text, userText, h.no_user]
  obtain ⟨pre, own, post, hurl, hsearch, hpost⟩ := exists_own htext
  refine ⟨pre, post, ?_⟩
  match own with
  | [] =>
    obtain rfl : post = p.hostText := List.append_cancel_left hpost
    refine ⟨p.host ++ behind ':' p.port, _, hurl, hsearch, ?_, hhost, .inl ?_⟩
    · rw [hhost]
      exact List.mem_append_right _ (List.mem_cons_of_mem _ hat)
    · rw [List.mem_append, not_or]
      refine ⟨fun hmem => (h.host _ hmem).2.2 rfl, notMem_behind (by decide) ?_⟩
      exact fun port hport hmem => (h.port port hport _ hmem).2.2 rfl
  | [c] => simp [protEnd] at hpost
  | [c, d] => simp [protEnd] at hpost
  | c :: d :: e :: own =>
    simp only [protEnd, List.cons_append, List.nil_append, List.cons.injEq] at hpost
    obtain ⟨-, -, -, rfl⟩ := hpost
    refine ⟨own ++ [':'], '/' :: p.hostText, hurl, hsearch, ?_, by simp, .inr ?_⟩
    · simp [hhost, hat]
    · have hbehind := (length_behind '?' p.query).1
      simp only [hostText, List.length_append, List.length_cons]
      omega

/-- Such a URL never yields its own parts: text is moved to the user or the password. -/
theorem not_yieldsNoUser {p : Parts} (h : p.LateAt) : ¬p.YieldsNoUser := by
  rintro ⟨u, hparse, huser, hpassword, -, -, hpath, hquery⟩
  obtain ⟨pre, post, xs, ys, hurl, hsearch, hmem, hslash, hxs⟩ := h.exists_slash
  obtain ⟨info, rest, rfl, hat⟩ := List.eq_append_cons_of_mem hmem
  rcases parse_at hparse hurl hsearch hat hslash with hne | hne | ⟨⟨between, rfl⟩, hlength⟩
  · exact hne huser
  · exact hne hpassword
  · rcases hxs with hxs | hxs
    · simp at hxs
    · rw [hpath, hquery] at hlength
      omega

theorem not_yieldsNoUser_path :
    ¬(⟨"p".toList, none, "h".toList, none, "a@b".toList, none⟩ : Parts).YieldsNoUser :=
  not_yieldsNoUser {
    no_user := rfl
    host := by simp
    port := by decide
    path := by decide
    at_behind := by decide }

/-- The host and the path up to an `@` are taken for the user. -/
theorem not_lateAt_yields : ¬∀ p : Parts, p.LateAt → p.YieldsNoUser := by
  intro h
  obtain ⟨u, hparse, huser, -⟩ := h ⟨"p".toList, none, "h".toList, none, "a@b".toList, none⟩
    { no_user := rfl
      host := by simp
      port := by decide
      path := by decide
      at_behind := by decide }
  have hfields : parse "p://h/a@b".toList = some {
      protocol := "p".toList
      user := "h/a".toList
      path := "b".toList
      value := "p://h/a@b".toList } := by decide
  cases hparse.symm.trans hfields
  cases huser

end Parts

end Uri

end CodaDb
