import TrinoGoway.Go.Url

/-! URLs of a scheme and a host, with a path and a query behind them: printed and read again. -/
namespace Go.Url

open Go Http

/-! ### Bytes -/

def isPathByte (c : UInt8) : Bool := !isCTLByte c && c != Byte.question && c != Byte.hash

def isAuthorityByte (c : UInt8) : Bool := isPathByte c && c != Byte.slash

theorem isPathByte_upperhex {n : UInt8} (h : n.toNat < 16) : isPathByte (upperhex n) = true := by
  have hall : ∀ m < 16, isPathByte (upperhex (.ofNat m)) = true := by decide
  simpa using hall n.toNat h

theorem isPathByte_of_not_shouldEscape {c : UInt8} (h : shouldEscape c .path = false) :
    isPathByte c = true := by
  have hall : ∀ c : UInt8, shouldEscape c .path = false → isPathByte c = true :=
    Byte.forall_of_ofNat (by decide +kernel)
  exact hall c h

theorem isPathByte_of_mem_escape {s : GoString} {c : UInt8} (h : c ∈ escape s .path) :
    isPathByte c = true := by
  obtain ⟨b, -, hb⟩ := List.mem_flatMap.mp h
  have hlt : b.toNat < 256 := b.toNat_lt
  unfold escapeByte at hb
  rw [if_neg (by simp)] at hb
  split at hb
  · have hhigh := isPathByte_upperhex (n := b / 16) (by simp; omega)
    have hlow := isPathByte_upperhex (n := b % 16) (by simp; omega)
    simp only [List.mem_cons, List.not_mem_nil, or_false] at hb
    rcases hb with rfl | rfl | rfl
    · decide
    · exact hhigh
    · exact hlow
  · rename_i hesc
    obtain rfl : c = b := by simpa using hb
    exact isPathByte_of_not_shouldEscape (by simpa using hesc)

theorem setPath_escape (u : URL) (path : GoString) :
    setPath u (escape path .path) = .ok { u with path, rawPath := [] } := by
  unfold setPath
  rw [unescape_escape]
  show Except.ok _ = _
  rw [if_pos rfl]

/-! ### Sites -/

/-- A scheme, and an authority without user information that is read as `host`. -/
structure Site (auth : Authority) (scheme authority host : GoString) : Prop where
  scheme_alpha : ∃ c s, scheme = c :: s ∧ Byte.isAlpha c = true
  scheme_bytes : ∀ c ∈ scheme, isSchemeByte c = true
  authority_bytes : ∀ c ∈ authority, isAuthorityByte c = true
  parse : auth.parse (scheme.map Byte.toLower) authority = .ok ([], host)
  host_ne_nil : host ≠ []

def queryText (query : Option GoString) : GoString := (query.map (Byte.question :: ·)).getD []

theorem getScheme_append {scheme : GoString}
    (halpha : ∃ c s, scheme = c :: s ∧ Byte.isAlpha c = true)
    (hbytes : ∀ c ∈ scheme, isSchemeByte c = true) (rest : GoString) :
    getScheme (scheme ++ Byte.colon :: rest) = .ok (scheme, rest) := by
  obtain ⟨c, s, rfl, hc⟩ := halpha
  have hcolon : isSchemeByte Byte.colon = false := by decide
  unfold getScheme
  rw [List.span_eq_takeWhile_dropWhile, List.takeWhile_append_of_pos hbytes,
    List.dropWhile_append_of_pos hbytes, List.takeWhile_cons_of_neg (by simp [hcolon]),
    List.dropWhile_cons_of_neg (by simp [hcolon]), List.append_nil]
  show Except.ok (if _ then _ else _) = _
  rw [if_pos hc]

theorem cutQuery_append {l : GoString} (h : ∀ c ∈ l, isPathByte c = true)
    (query : Option GoString) :
    cutQuery (l ++ queryText query) = (l, query.any List.isEmpty, query.getD []) := by
  have hmem : Byte.question ∉ l := fun hc => absurd (h _ hc) (by decide)
  unfold cutQuery
  cases query with
  | none => 
    rw [queryText, Option.map_none, Option.getD_none, List.append_nil, cut_of_not_mem hmem]
    rfl
  | some q =>
    rw [queryText, Option.map_some, Option.getD_some, cut_append hmem, cut_cons_self,
      List.append_nil]
    rfl

theorem isPathByte_of_isAuthorityByte {c : UInt8} (h : isAuthorityByte c = true) :
    isPathByte c = true := by
  unfold isAuthorityByte at h
  grind

theorem isPathByte_of_isSchemeByte {c : UInt8} (h : isSchemeByte c = true) :
    isPathByte c = true := by
  have hall : ∀ c : UInt8, isSchemeByte c = true → isPathByte c = true :=
    Byte.forall_of_ofNat (by decide +kernel)
  exact hall c h

/-- What is printed for a host is an authority that is read as the host. -/
structure Reprints (auth : Authority) (scheme host : GoString) : Prop where
  bytes : ∀ c ∈ auth.printHost host, isAuthorityByte c = true
  parse : auth.parse scheme (auth.printHost host) = .ok ([], host)

theorem isSchemeByte_toLower : ∀ c : UInt8,
    (Byte.isAlpha c = true → Byte.isAlpha (Byte.toLower c) = true) ∧
      (isSchemeByte c = true → isSchemeByte (Byte.toLower c) = true) ∧
      Byte.toLower (Byte.toLower c) = Byte.toLower c :=
  Byte.forall_of_ofNat (by decide +kernel)

/-- The site as it is printed, its scheme in lower case. -/
theorem Site.reprint {auth : Authority} {scheme authority host : GoString}
    (h : Site auth scheme authority host) (hprint : Reprints auth (scheme.map Byte.toLower) host) :
    Site auth (scheme.map Byte.toLower) (auth.printHost host) host where
  scheme_alpha := by
    obtain ⟨c, s, rfl, hc⟩ := h.scheme_alpha
    exact ⟨Byte.toLower c, s.map Byte.toLower, rfl, (isSchemeByte_toLower c).1 hc⟩
  scheme_bytes := by
    intro c hc
    obtain ⟨b, hb, rfl⟩ := List.mem_map.mp hc
    exact (isSchemeByte_toLower b).2.1 (h.scheme_bytes b hb)
  authority_bytes := hprint.bytes
  parse := by
    have hlower : (scheme.map Byte.toLower).map Byte.toLower = scheme.map Byte.toLower := by
      rw [List.map_map]
      exact List.map_congr_left fun c _ => (isSchemeByte_toLower c).2.2
    rw [hlower]
    exact hprint.parse
  host_ne_nil := h.host_ne_nil

def siteText (scheme authority path : GoString) : GoString :=
  scheme ++ Byte.colon :: Byte.slash :: Byte.slash :: (authority ++ path)

section Parse

variable {auth : Authority} {scheme authority host path : GoString}

theorem isPathByte_of_mem_siteText (h : Site auth scheme authority host)
    (hpath : ∀ c ∈ path, isPathByte c = true) {c : UInt8}
    (hc : c ∈ siteText scheme authority path) : isPathByte c = true := by
  simp only [siteText, List.mem_append, List.mem_cons] at hc
  rcases hc with hc | rfl | rfl | rfl | hc | hc
  · exact isPathByte_of_isSchemeByte (h.scheme_bytes c hc)
  · decide
  · decide
  · decide
  · exact isPathByte_of_isAuthorityByte (h.authority_bytes c hc)
  · exact hpath c hc

theorem parseHierarchy_site (h : Site auth scheme authority host)
    (hslash : path = [] ∨ path.head? = some Byte.slash) {u : URL}
    (hu : u.scheme = scheme.map Byte.toLower) (huser : u.user = []) :
    parseHierarchy auth false u (Byte.slash :: Byte.slash :: (authority ++ path)) =
      setPath { u with host := host } path := by
  have hscheme : u.scheme ≠ [] := by
    obtain ⟨c, s, rfl, -⟩ := h.scheme_alpha
    simp [hu]
  have hall : ∀ c ∈ authority, decide (c ≠ Byte.slash) = true := by
    intro c hc
    have hbyte := h.authority_bytes c hc
    unfold isAuthorityByte at hbyte
    simp only [Bool.and_eq_true, bne_iff_ne] at hbyte
    exact decide_eq_true hbyte.2
  have htake : path.takeWhile (· ≠ Byte.slash) = [] ∧ path.dropWhile (· ≠ Byte.slash) = path := by
    cases path with
    | nil => exact ⟨rfl, rfl⟩
    | cons c t =>
      obtain rfl : c = Byte.slash := by simpa using hslash
      simp
  have hslashes : str "//" = [Byte.slash, Byte.slash] := by decide
  have hdrop : (Byte.slash :: Byte.slash :: (authority ++ path)).drop 2 = authority ++ path := rfl
  unfold parseHierarchy
  rw [if_pos ⟨Or.inl hscheme, by simp [hasPrefix, hslashes]⟩]
  rw [hdrop, List.takeWhile_append_of_pos hall, htake.1, List.append_nil, hu]
  dsimp only
  rw [h.parse]
  show setPath _ ((authority ++ path).dropWhile _) = _
  rw [List.dropWhile_append_of_pos hall, htake.2, ← huser]

/-- A site with a path and a query is read as that. -/
theorem parseURL_site (h : Site auth scheme authority host) (path : GoString)
    (query : Option GoString) (hslash : path = [] ∨ path.head? = some Byte.slash)
    (hpath : ∀ c ∈ path, isPathByte c = true)
    (hquery : ∀ q ∈ query, ∀ c ∈ q, isCTLByte c = false) :
    parseURL auth false (siteText scheme authority path ++ queryText query) =
      setPath { empty with
        scheme := scheme.map Byte.toLower
        host
        forceQuery := query.any List.isEmpty
        rawQuery := query.getD [] } path := by
  have hctl : (siteText scheme authority path ++ queryText query).any isCTLByte = false := by
    rw [List.any_eq_false]
    intro c hc
    rcases List.mem_append.mp hc with hc | hc
    · have hbyte := isPathByte_of_mem_siteText h hpath hc
      unfold isPathByte at hbyte
      grind
    · cases query with
      | none => cases hc
      | some q =>
        rcases List.mem_cons.mp hc with rfl | hc
        · decide
        · simp [hquery q rfl c hc]
  have hne : siteText scheme authority path ++ queryText query ≠ str "*" := by
    obtain ⟨c, s, rfl, hc⟩ := h.scheme_alpha
    have hstar : str "*" = [42] := by decide
    intro heq
    rw [hstar, siteText, List.append_assoc, List.cons_append, List.cons.injEq] at heq
    rw [heq.1] at hc
    exact absurd hc (by decide)
  have hrest : ∀ c ∈ Byte.slash :: Byte.slash :: (authority ++ path), isPathByte c = true := by
    intro c hc
    exact isPathByte_of_mem_siteText h hpath (by
      rw [siteText]
      exact List.mem_append_right _ (List.mem_cons_of_mem _ hc))
  have hscheme : getScheme (siteText scheme authority path ++ queryText query) =
      .ok (scheme, Byte.slash :: Byte.slash :: (authority ++ path) ++ queryText query) := by
    rw [siteText, List.append_assoc]
    exact getScheme_append h.scheme_alpha h.scheme_bytes _
  unfold parseURL
  rw [hctl, if_neg (by simp), if_neg (by simp), if_neg hne, hscheme]
  simp only
  rw [cutQuery_append hrest]
  simp only
  rw [if_pos (by simp [hasPrefix]), parseHierarchy_site h hslash rfl rfl]

theorem parse_of_parseURL {rawURL : GoString} {u : URL} (hhash : Byte.hash ∉ rawURL)
    (h : parseURL auth false rawURL = .ok u) : parse auth rawURL = .ok u := by
  unfold parse
  rw [cut_of_not_mem hhash]
  simp only
  rw [h]
  rfl

/-- The fragment is read apart from the rest of the URL. -/
theorem parseURL_of_parse {rawURL : GoString} {u : URL} (h : parse auth rawURL = .ok u) :
    ∃ u₀, parseURL auth false (cut Byte.hash rawURL).1 = .ok u₀ ∧ u.path = u₀.path ∧
      u.rawPath = u₀.rawPath ∧ u.rawQuery = u₀.rawQuery := by
  unfold parse at h
  simp only at h
  cases hurl : parseURL auth false (cut Byte.hash rawURL).1 with
  | error e =>
    rw [hurl] at h
    cases h
  | ok u₀ =>
    rw [hurl] at h
    refine ⟨u₀, rfl, ?_⟩
    cases hfrag : (cut Byte.hash rawURL).2.getD [] with
    | nil =>
      simp only [hfrag, Except.ok.injEq] at h
      rw [h]
      exact ⟨rfl, rfl, rfl⟩
    | cons c f =>
      simp only [hfrag, setFragment] at h
      cases hdec : unescape .fragment (c :: f) with
      | error e =>
        rw [hdec] at h
        cases h
      | ok fragment =>
        rw [hdec] at h
        cases h
        exact ⟨rfl, rfl, rfl⟩

theorem parse_site (h : Site auth scheme authority host) :
    parse auth (siteText scheme authority []) =
      .ok { empty with scheme := scheme.map Byte.toLower, host } := by
  have hhash : Byte.hash ∉ siteText scheme authority [] := fun hc =>
    absurd (isPathByte_of_mem_siteText h (by simp) hc) (by decide)
  have hparse := parseURL_site h [] none (Or.inl rfl) (by simp) (by simp)
  rw [queryText, Option.map_none, Option.getD_none, List.append_nil] at hparse
  exact parse_of_parseURL hhash hparse

def pathText (path : GoString) : GoString :=
  if path = str "*" then str "/*" else escape path .path

theorem printHierarchy_host {u : URL} (hopaq : u.opaquePart = []) (huser : u.user = [])
    (hscheme : u.scheme ≠ []) (hhost : u.host ≠ []) :
    printHierarchy auth u = siteText u.scheme (auth.printHost u.host)
      ((if escapedPath u ≠ [] ∧ (escapedPath u).head? ≠ some Byte.slash then [Byte.slash]
        else []) ++ escapedPath u) := by
  have hslashes : str "//" = [Byte.slash, Byte.slash] := by decide
  have hauth : printAuthority auth u =
      u.scheme ++ Byte.colon :: Byte.slash :: Byte.slash :: auth.printHost u.host := by
    simp [printAuthority, huser, hscheme, hhost, hslashes]
  unfold printHierarchy
  rw [if_neg (by simp [hopaq])]
  simp [hauth, siteText, hhost]

theorem print_site {path rawQuery : GoString} (hscheme : scheme ≠ []) (hhost : host ≠ [])
    (hslash : path = [] ∨ path = str "*" ∨ path.head? = some Byte.slash) :
    print auth { empty with scheme, host, path, rawQuery } =
      siteText scheme (auth.printHost host) (pathText path) ++
        queryText (if rawQuery = [] then none else some rawQuery) := by
  have hescaped : escapedPath { empty with scheme, host, path, rawQuery } =
      if path = str "*" then str "*" else escape path .path := by
    simp [escapedPath, empty]
  have hpath : (if escapedPath { empty with scheme, host, path, rawQuery } ≠ [] ∧
        (escapedPath { empty with scheme, host, path, rawQuery }).head? ≠ some Byte.slash
        then [Byte.slash] else []) ++
      escapedPath { empty with scheme, host, path, rawQuery } = pathText path := by
    rw [hescaped, pathText]
    split
    · decide
    · rename_i hstar
      rw [if_neg, List.nil_append]
      rintro ⟨hne, hhead⟩
      rcases hslash with rfl | rfl | hs
      · exact hne rfl
      · exact hstar rfl
      · obtain ⟨t, rfl⟩ := List.head?_eq_some_iff.mp hs
        exact hhead rfl
  unfold print
  rw [printHierarchy_host rfl rfl hscheme hhost, hpath]
  by_cases hquery : rawQuery = []
  · simp [hquery, empty, queryText]
  · simp [hquery, empty, queryText]

theorem pathText_bytes {c : UInt8} (h : c ∈ pathText path) : isPathByte c = true := by
  unfold pathText at h
  split at h
  · have hall : (str "/*").all isPathByte = true := by decide
    exact List.all_eq_true.mp hall c h
  · exact isPathByte_of_mem_escape h

theorem pathText_slash (hslash : path = [] ∨ path = str "*" ∨ path.head? = some Byte.slash) :
    pathText path = [] ∨ (pathText path).head? = some Byte.slash := by
  unfold pathText
  split
  · exact Or.inr (by decide)
  · rename_i hstar
    rcases hslash with rfl | rfl | hs
    · exact Or.inl rfl
    · exact absurd rfl hstar
    · obtain ⟨t, rfl⟩ := List.head?_eq_some_iff.mp hs
      exact Or.inr rfl

/-- A bare `*` becomes the path `/*`; every other path is read back from its default encoding. -/
theorem setPath_pathText (u : URL) (path : GoString) :
    setPath u (pathText path) = .ok { u with
      path := if path = str "*" then str "/*" else path
      rawPath := if path = str "*" then str "/*" else [] } := by
  unfold pathText
  split
  · have hdec : unescape .path (str "/*") = .ok (str "/*") := by decide
    have hesc : str "/*" ≠ escape (str "/*") .path := by decide
    unfold setPath
    rw [hdec]
    show Except.ok _ = _
    rw [if_neg hesc]
  · exact setPath_escape u path

theorem cut_siteText (h : Site auth scheme authority host) (rawQuery : GoString) :
    (cut Byte.hash (siteText scheme authority (pathText path) ++
      queryText (if rawQuery = [] then none else some rawQuery))).1 =
    siteText scheme authority (pathText path) ++
      queryText (if rawQuery = [] then none else some (cut Byte.hash rawQuery).1) := by
  have hsite : Byte.hash ∉ siteText scheme authority (pathText path) := fun hc =>
    absurd (isPathByte_of_mem_siteText h (fun _ => pathText_bytes) hc) (by decide)
  by_cases hne : rawQuery = []
  · rw [if_pos hne, if_pos hne, queryText, Option.map_none, Option.getD_none, List.append_nil,
      cut_of_not_mem hsite]
  have hcut : cut Byte.hash (Byte.question :: rawQuery) =
      (Byte.question :: (cut Byte.hash rawQuery).1, (cut Byte.hash rawQuery).2) :=
    cut_append (l := [Byte.question]) (by decide) rawQuery
  rw [if_neg hne, if_neg hne, cut_append hsite]
  show siteText _ _ _ ++ (cut Byte.hash (Byte.question :: rawQuery)).1 = _
  rw [hcut]
  rfl

section Reprint

variable {rawQuery : GoString} (h : Site auth scheme (auth.printHost host) host)
  (hslash : path = [] ∨ path = str "*" ∨ path.head? = some Byte.slash)
  (hquery : ∀ c ∈ rawQuery, isCTLByte c = false)
include h hslash hquery

/-- The URL of a site with another path and query, printed and read again up to the fragment. -/
theorem parseURL_print_site :
    ∃ u, parseURL auth false
        (cut Byte.hash (print auth { empty with scheme, host, path, rawQuery })).1 = .ok u ∧
      u.path = (if path = str "*" then str "/*" else path) ∧
      u.rawPath = (if path = str "*" then str "/*" else []) ∧
      u.rawQuery = (cut Byte.hash rawQuery).1 := by
  have hscheme : scheme ≠ [] := by
    obtain ⟨c, s, rfl, -⟩ := h.scheme_alpha
    simp
  have hbefore : ∀ c ∈ (cut Byte.hash rawQuery).1, isCTLByte c = false := by
    intro c hc
    rw [cut_fst] at hc
    exact hquery c ((List.takeWhile_sublist _).mem hc)
  rw [print_site hscheme h.host_ne_nil hslash, cut_siteText h,
    parseURL_site h _ _ (pathText_slash hslash) (fun _ => pathText_bytes), setPath_pathText]
  · refine ⟨_, rfl, rfl, rfl, ?_⟩
    by_cases hne : rawQuery = []
    · subst hne
      rfl
    · rw [if_neg hne]
      rfl
  · intro q hq
    split at hq
    · cases hq
    · cases hq
      exact hbefore

theorem parse_print_site {u : URL}
    (hu : parse auth (print auth { empty with scheme, host, path, rawQuery }) = .ok u) :
    u.path = (if path = str "*" then str "/*" else path) ∧
      u.rawPath = (if path = str "*" then str "/*" else []) ∧
      u.rawQuery = (cut Byte.hash rawQuery).1 := by
  obtain ⟨u₀, hu₀, hpath, hraw, hq⟩ := parseURL_of_parse hu
  obtain ⟨u₁, hu₁, hpath', hraw', hq'⟩ := parseURL_print_site h hslash hquery
  obtain rfl : u₀ = u₁ := Except.ok.inj (hu₀.symm.trans hu₁)
  exact ⟨hpath.trans hpath', hraw.trans hraw', hq.trans hq'⟩

theorem parse_print_site_ok (hhash : Byte.hash ∉ rawQuery) :
    ∃ u, parse auth (print auth { empty with scheme, host, path, rawQuery }) = .ok u := by
  have hscheme : scheme ≠ [] := by
    obtain ⟨c, s, rfl, -⟩ := h.scheme_alpha
    simp
  have hprint : Byte.hash ∉ print auth { empty with scheme, host, path, rawQuery } := by
    rw [print_site hscheme h.host_ne_nil hslash, List.mem_append, not_or]
    refine ⟨fun hc => absurd (isPathByte_of_mem_siteText h (fun _ => pathText_bytes) hc)
      (by decide), ?_⟩
    split
    · simp [queryText]
    · have hne : Byte.hash ≠ Byte.question := by decide
      simp [queryText, hne, hhash]
  obtain ⟨u, hu, -⟩ := parseURL_print_site h hslash hquery
  rw [cut_of_not_mem hprint] at hu
  exact ⟨u, parse_of_parseURL hprint hu⟩

end Reprint

end Parse

/-! ### Targets of requests -/

/-- What the target of a request is read as: the path is kept in its own encoding only where that
is not the default one. -/
structure IsTarget (u : URL) : Prop where
  path : u.path = [] ∨ u.path = str "*" ∨ u.path.head? = some Byte.slash
  rawPath : u.rawPath ≠ [] → unescape .path u.rawPath = .ok u.path ∧
    u.rawPath ≠ escape u.path .path ∧ u.path ≠ str "*"
  rawQuery : ∀ c ∈ u.rawQuery, isCTLByte c = false

theorem setPath_eq_ok {u v : URL} {p : GoString} (h : setPath u p = .ok v) :
    unescape .path p = .ok v.path ∧
      v = { u with path := v.path, rawPath := if p = escape v.path .path then [] else p } := by
  unfold setPath at h
  cases hdec : unescape .path p with
  | error e =>
    rw [hdec] at h
    cases h
  | ok path =>
    rw [hdec] at h
    cases h
    exact ⟨rfl, rfl⟩

theorem unescape_slash {s t : GoString} (h : unescape .path (Byte.slash :: s) = .ok t) :
    t.head? = some Byte.slash := by
  have hslash : Byte.slash ≠ Byte.percent := by decide
  rw [unescape_cons_of_ne hslash, if_neg (by decide)] at h
  cases hs : unescape .path s with
  | error e =>
    rw [hs] at h
    cases h
  | ok t' =>
    rw [hs] at h
    cases h
    rfl

theorem isTarget_of_setPath {u v : URL} {p : GoString} (hp : p = [] ∨ p.head? = some Byte.slash)
    (hquery : ∀ c ∈ u.rawQuery, isCTLByte c = false) (h : setPath u p = .ok v) : IsTarget v := by
  obtain ⟨hdec, hv⟩ := setPath_eq_ok h
  have hpath : v.path = [] ∨ v.path.head? = some Byte.slash := by
    rcases hp with rfl | hp
    · exact Or.inl (Except.ok.inj hdec).symm
    · obtain ⟨t, rfl⟩ := List.head?_eq_some_iff.mp hp
      exact Or.inr (unescape_slash hdec)
  have hstar : v.path ≠ str "*" := by
    rintro heq
    rw [heq] at hpath
    exact absurd hpath (by decide)
  refine ⟨?_, ?_, ?_⟩
  · exact hpath.imp_right Or.inr
  · rw [hv]
    simp only
    split
    · exact fun hne => absurd rfl hne
    · rename_i hne
      exact fun _ => ⟨hdec, hne, hstar⟩
  · rw [hv]
    exact hquery

theorem isTarget_of_parseHierarchy {auth : Authority} {viaRequest : Bool} {u v : URL}
    {rest : GoString} (hslash : hasPrefix rest [Byte.slash] = true)
    (hquery : ∀ c ∈ u.rawQuery, isCTLByte c = false)
    (h : parseHierarchy auth viaRequest u rest = .ok v) : IsTarget v := by
  unfold parseHierarchy at h
  split at h
  · have hdrop : (rest.drop 2).dropWhile (· ≠ Byte.slash) = [] ∨
        ((rest.drop 2).dropWhile (· ≠ Byte.slash)).head? = some Byte.slash := by
      cases hd : (rest.drop 2).dropWhile (· ≠ Byte.slash) with
      | nil => exact Or.inl rfl
      | cons c t =>
        have hne : (rest.drop 2).dropWhile (· ≠ Byte.slash) ≠ [] := by
          rw [hd]
          exact List.cons_ne_nil c t
        have hc := List.head_dropWhile_not (· ≠ Byte.slash) hne
        simp only [hd, List.head_cons, decide_eq_false_iff_not, not_not] at hc
        exact Or.inr (congrArg some hc)
    simp only at h
    cases hauth : auth.parse u.scheme ((rest.drop 2).takeWhile (· ≠ Byte.slash)) with
    | error e =>
      rw [hauth] at h
      cases h
    | ok parts =>
      rw [hauth] at h
      exact isTarget_of_setPath hdrop (by exact hquery) h
  · have hhead : rest.head? = some Byte.slash := by
      cases rest with
      | nil => cases hslash
      | cons c t =>
        have hc : Byte.slash = c := by simpa [hasPrefix] using hslash
        exact congrArg some hc.symm
    exact isTarget_of_setPath (Or.inr hhead) (by exact hquery) h

theorem mem_of_getScheme {rawURL scheme rest : GoString} (h : getScheme rawURL = .ok (scheme, rest))
    {c : UInt8} (hc : c ∈ rest) : c ∈ rawURL := by
  unfold getScheme at h
  rw [List.span_eq_takeWhile_dropWhile] at h
  have hdrop : ∀ {d : UInt8} {t : GoString}, rawURL.dropWhile isSchemeByte = d :: t →
      ∀ c ∈ t, c ∈ rawURL := by
    intro d t ht c hc
    have hmem : c ∈ rawURL.dropWhile isSchemeByte := by
      rw [ht]
      exact List.mem_cons_of_mem d hc
    exact (List.dropWhile_sublist _).mem hmem
  split at h
  · cases h
  · rename_i heq
    rw [Prod.mk.injEq] at heq
    split at h
    · cases h
      exact hdrop heq.2 c hc
    · cases h
      exact hc
  · cases h
    exact hc

theorem mem_of_cutQuery {rest : GoString} {c : UInt8} (h : c ∈ (cutQuery rest).2.2) : c ∈ rest := by
  unfold cutQuery at h
  cases hcut : cut Byte.question rest with
  | mk l r =>
    rw [hcut] at h
    cases r with
    | none => cases h
    | some q =>
      rw [eq_append_of_cut hcut]
      exact List.mem_append_right _ (List.mem_cons_of_mem _ h)

theorem isTarget_of_parseRequestURI {auth : Authority} {target : GoString} {u : URL}
    (h : parseRequestURI auth target = .ok u) : IsTarget u := by
  have hurl : parseURL auth true target = .ok u := by
    unfold parseRequestURI at h
    cases hp : parseURL auth true target with
    | error e =>
      rw [hp] at h
      cases h
    | ok v =>
      rw [hp] at h
      cases h
      rfl
  unfold parseURL at hurl
  split at hurl
  · cases hurl
  rename_i hctl
  have hctl : ∀ c ∈ target, isCTLByte c = false := by simpa using hctl
  split at hurl
  · cases hurl
  split at hurl
  · cases hurl
    exact ⟨Or.inr (Or.inl rfl), fun hne => absurd rfl hne, by simp [empty]⟩
  cases hscheme : getScheme target with
  | error e =>
    rw [hscheme] at hurl
    cases hurl
  | ok parts =>
    obtain ⟨scheme, rest⟩ := parts
    rw [hscheme] at hurl
    have hquery : ∀ c ∈ (cutQuery rest).2.2, isCTLByte c = false := by
      intro c hc
      exact hctl c (mem_of_getScheme hscheme (mem_of_cutQuery hc))
    simp only at hurl
    split at hurl
    · rename_i hslash
      exact isTarget_of_parseHierarchy hslash hquery hurl
    · split at hurl
      · cases hurl
        exact ⟨Or.inl rfl, fun hne => absurd rfl hne, hquery⟩
      · simp at hurl

end Go.Url
