import TrinoGoway.DiffHarness.Normalize

/-! Golden files: a normalised response of the Java gateway written to a file, read back and
compared with a response of the Go gateway, beside the comparison of the two responses. -/
namespace TrinoGoway.DiffHarness

open Go Go.Http Go.Json Go.JsonText

def goldenFileVersion : ℤ := 1

structure Golden where
  version : ℤ
  scenario : GoString
  statusCode : ℤ
  headers : Header
  /-- a `json.RawMessage` -/
  body : GoString

namespace Golden

def zero : Golden := ⟨0, [], 0, .empty, []⟩

def toResponse (g : Golden) : Response where
  statusCode := g.statusCode
  headers := g.headers
  body := if g.body = [] ∨ g.body = str "null" then [] else g.body

end Golden

def newGolden (scenario : GoString) (r : Response) : Golden where
  version := goldenFileVersion
  scenario := scenario
  statusCode := r.statusCode
  headers := r.headers
  body :=
    if r.body = [] then str "null"
    else if valid r.body then r.body
    else marshalString r.body

/-! ### Writing -/

/-- A slice without elements is nil here. -/
def valuesTree (vs : List GoString) : JTree :=
  if vs = [] then .literal (str "null")
  else .node .array (vs.map fun v => ([], .literal (marshalString v)))

def headerTree (e : GoString × List GoString) : GoString × JTree :=
  (marshalString e.1, valuesTree e.2)

namespace Golden

/-- The keys of a map in the order in which `json.Marshal` writes them. -/
def sortedHeaders (g : Golden) : List (GoString × List GoString) :=
  g.headers.entries.insertionSort fun e e' => e.1 ≤ e'.1

/-- The body of a `json.RawMessage`, which is checked, and `null` if it is nil. -/
def bodyTree (g : Golden) : Option JTree :=
  if g.body = [] then some (.literal (str "null")) else readText g.body

def members (g : Golden) (body : JTree) : List (GoString × JTree) :=
  [(marshalString (str "version"), .literal (formatInt g.version)),
    (marshalString (str "scenario"), .literal (marshalString g.scenario)),
    (marshalString (str "statusCode"), .literal (formatInt g.statusCode)),
    (marshalString (str "headers"), .node .object (g.sortedHeaders.map headerTree)),
    (marshalString (str "body"), body.escape)]

end Golden

/-- The bytes that `WriteGolden` writes, unless `json.MarshalIndent` refuses the body. -/
def writeGolden (g : Golden) : Option GoString :=
  g.bodyTree.map fun body =>
    (JTree.node .object (g.members body)).print indented 0 ++ [Byte.newline]

/-! ### Reading -/

def decodeInt (old : ℤ) : JTree → Option ℤ
  | .literal raw => if raw = str "null" then some old else parseInt raw
  | .node _ _ => none

def decodeString (old : GoString) : JTree → Option GoString
  | .literal raw =>
    if raw = str "null" then some old
    else if raw.head? = some Byte.doubleQuote then some (literalString raw)
    else none
  | .node _ _ => none

def decodeStrings : JTree → Option (List GoString)
  | .literal raw => if raw = str "null" then some [] else none
  | .node .array cs => cs.mapM fun c => decodeString [] c.2
  | .node .object _ => none

def decodeHeaders (old : Header) : JTree → Option Header
  | .literal raw => if raw = str "null" then some .empty else none
  | .node .array _ => none
  | .node .object cs =>
    cs.foldlM (fun h c => (decodeStrings c.2).map (GoMap.set h (literalString c.1))) old

/-- One member of the file, with the text of its value. Other names are ignored. -/
def Golden.assign (g : Golden) (m : GoString × GoString) : Option Golden :=
  let key := literalString m.1
  if keyMatches (str "body") key then some { g with body := m.2 }
  else
    match readText m.2 with
    | none => none
    | some s =>
      if keyMatches (str "version") key then
        (decodeInt g.version s).map fun v => { g with version := v }
      else if keyMatches (str "scenario") key then
        (decodeString g.scenario s).map fun v => { g with scenario := v }
      else if keyMatches (str "statusCode") key then
        (decodeInt g.statusCode s).map fun v => { g with statusCode := v }
      else if keyMatches (str "headers") key then
        (decodeHeaders g.headers s).map fun v => { g with headers := v }
      else some g

def unmarshalGolden (text : GoString) : Option Golden :=
  match readText text with
  | none => none
  | some (.literal raw) => if raw = str "null" then some .zero else none
  | some (.node .array _) => none
  | some (.node .object _) => (rawMembers text).bind (List.foldlM Golden.assign .zero)

inductive ReadError
  | parse
  | version (v : ℤ)

def readGolden (text : GoString) : Except ReadError Golden :=
  match unmarshalGolden text with
  | none => .error .parse
  | some g => if g.version ≠ goldenFileVersion then .error (.version g.version) else .ok g

/-! ### The round trip -/

theorem wf_valuesTree (vs : List GoString) : (valuesTree vs).WF := by
  unfold valuesTree
  split
  · exact .literal isLiteral_null
  · refine .node (List.forall_mem_map.mpr fun v _ => rfl) (List.forall_mem_map.mpr fun v _ => ?_)
    exact .literal (isString_marshalString v).1

theorem wf_headers (es : List (GoString × List GoString)) :
    (JTree.node .object (es.map headerTree)).WF :=
  .node (List.forall_mem_map.mpr fun e _ => isString_marshalString e.1)
    (List.forall_mem_map.mpr fun e _ => wf_valuesTree e.2)

theorem Golden.wf_members (g : Golden) {body : JTree} (hbody : body.escape.WF) :
    (JTree.node .object (g.members body)).WF := by
  refine .node ?_ ?_
  · simp [Golden.members, NameOk, isString_marshalString]
  · simp only [Golden.members, List.forall_mem_cons]
    exact ⟨.literal (isLiteral_formatInt _), .literal (isString_marshalString _).1,
      .literal (isLiteral_formatInt _), wf_headers _, hbody, fun c hc => absurd hc List.not_mem_nil⟩

theorem decodeString_marshalString {s old : GoString} (h : validString s) :
    decodeString old (.literal (marshalString s)) = some s := by
  have hne : marshalString s ≠ str "null" := by
    intro heq
    have hhead := (isString_marshalString s).2
    rw [heq] at hhead
    exact absurd hhead (by decide)
  rw [decodeString, if_neg hne, if_pos (isString_marshalString s).2, literalString_marshalString h]

theorem decodeInt_formatInt (old i : ℤ) : decodeInt old (.literal (formatInt i)) = some i := by
  have hne : formatInt i ≠ str "null" := by
    intro heq
    have hparse := parseInt_formatInt i
    have hnone : parseInt (str "null") = none := by decide
    rw [heq, hnone] at hparse
    cases hparse
  rw [decodeInt, if_neg hne, parseInt_formatInt]

theorem decodeStrings_valuesTree {vs : List GoString} (h : ∀ v ∈ vs, validString v) :
    decodeStrings (valuesTree vs) = some vs := by
  unfold valuesTree
  split
  · rename_i hnil
    rw [hnil]
    rfl
  · rw [decodeStrings]
    clear * - h
    induction vs with
    | nil => rfl
    | cons v vs ih =>
      obtain ⟨hv, hvs⟩ := List.forall_mem_cons.mp h
      rw [List.map_cons, List.mapM_cons, decodeString_marshalString hv, ih hvs]
      rfl

theorem decodeHeaders_headerTree {es : List (GoString × List GoString)}
    (h : ∀ e ∈ es, validString e.1 ∧ ∀ v ∈ e.2, validString v) (old : Header) :
    decodeHeaders old (.node .object (es.map headerTree)) =
      some (es.foldl (fun m e => GoMap.set m e.1 e.2) old) := by
  rw [decodeHeaders]
  induction es generalizing old with
  | nil => rfl
  | cons e es ih =>
    obtain ⟨⟨hname, hvalues⟩, hes⟩ := List.forall_mem_cons.mp h
    rw [List.map_cons, List.foldlM_cons, headerTree, decodeStrings_valuesTree hvalues,
      literalString_marshalString hname, List.foldl_cons]
    exact ih hes _

/-- The entries of a map written one after the other, in any order, give the map. -/
theorem get?_foldl_set_entries {h : Header} {es : List (GoString × List GoString)}
    (hes : es.Perm h.entries) (k : GoString) :
    (es.foldl (fun m e => GoMap.set m e.1 e.2) .empty).get? k = h.get? k := by
  have hnodup : (es.map Prod.fst).Nodup := (hes.map Prod.fst).nodup_iff.mpr h.nodup
  cases hk : h.get? k with
  | none =>
    have hne : ∀ e ∈ es, e.1 ≠ k := by
      intro e he hek
      exact GoMap.get?_ne_none.mpr ⟨e, hes.mem_iff.mp he, hek⟩ hk
    exact GoMap.get?_foldl_set_of_ne (f := id) (g := id) hne
  | some vs =>
    have hmem : (k, vs) ∈ es := hes.mem_iff.mpr (GoMap.get?_eq_some.mp hk)
    refine GoMap.get?_foldl_set_of_mem (f := id) (g := id) (e := (k, vs)) hmem ?_
    intro e he hek
    exact List.inj_on_of_nodup_map hnodup he hmem hek

namespace Golden

variable (g : Golden)

theorem assign_of_read {name : GoString} (hname : validString name)
    (hbody : keyMatches (str "body") name = false) {s : JTree} (hs : s.WF) :
    g.assign (marshalString name, s.print indented 1) =
      if keyMatches (str "version") name then
        (decodeInt g.version s).map fun v => { g with version := v }
      else if keyMatches (str "scenario") name then
        (decodeString g.scenario s).map fun v => { g with scenario := v }
      else if keyMatches (str "statusCode") name then
        (decodeInt g.statusCode s).map fun v => { g with statusCode := v }
      else if keyMatches (str "headers") name then
        (decodeHeaders g.headers s).map fun v => { g with headers := v }
      else some g := by
  unfold assign
  simp only [literalString_marshalString hname, hbody, readText_print_self indented hs 1]
  rw [if_neg Bool.false_ne_true]

theorem assign_version (v : ℤ) :
    g.assign (marshalString (str "version"), (JTree.literal (formatInt v)).print indented 1) =
      some { g with version := v } := by
  have hwf : (JTree.literal (formatInt v)).WF := .literal (isLiteral_formatInt v)
  rw [g.assign_of_read (by decide +kernel) (by decide) hwf, if_pos (by decide),
    decodeInt_formatInt, Option.map_some]

theorem assign_scenario {name : GoString} (hname : validString name) :
    g.assign (marshalString (str "scenario"), (JTree.literal (marshalString name)).print indented 1)
      = some { g with scenario := name } := by
  have hwf : (JTree.literal (marshalString name)).WF := .literal (isString_marshalString name).1
  rw [g.assign_of_read (by decide +kernel) (by decide) hwf, if_neg (by decide), if_pos (by decide),
    decodeString_marshalString hname, Option.map_some]

theorem assign_statusCode (v : ℤ) :
    g.assign (marshalString (str "statusCode"), (JTree.literal (formatInt v)).print indented 1) =
      some { g with statusCode := v } := by
  have hwf : (JTree.literal (formatInt v)).WF := .literal (isLiteral_formatInt v)
  rw [g.assign_of_read (by decide +kernel) (by decide) hwf, if_neg (by decide), if_neg (by decide),
    if_pos (by decide), decodeInt_formatInt, Option.map_some]

theorem assign_headers {es : List (GoString × List GoString)}
    (hes : ∀ e ∈ es, validString e.1 ∧ ∀ v ∈ e.2, validString v) :
    g.assign (marshalString (str "headers"),
        (JTree.node .object (es.map headerTree)).print indented 1) =
      some { g with headers := es.foldl (fun m e => GoMap.set m e.1 e.2) g.headers } := by
  rw [g.assign_of_read (by decide +kernel) (by decide) (wf_headers es), if_neg (by decide),
    if_neg (by decide), if_neg (by decide), if_pos (by decide), decodeHeaders_headerTree hes,
    Option.map_some]

theorem assign_body (text : GoString) :
    g.assign (marshalString (str "body"), text) = some { g with body := text } := by
  have hkey : literalString (marshalString (str "body")) = str "body" :=
    literalString_marshalString (by decide +kernel)
  unfold assign
  rw [hkey, if_pos (by decide)]

theorem unmarshalGolden_members {body : JTree} (hwf : body.escape.WF)
    (hscenario : validString g.scenario)
    (hheaders : ∀ e ∈ g.sortedHeaders, validString e.1 ∧ ∀ v ∈ e.2, validString v) :
    unmarshalGolden ((JTree.node .object (g.members body)).print indented 0 ++ [Byte.newline]) =
      some { g with
        headers := g.sortedHeaders.foldl (fun m e => GoMap.set m e.1 e.2) .empty
        body := body.escape.print indented 1 } := by
  have htree := g.wf_members hwf
  have hspaces : Spaces [Byte.newline] := fun c hc => by
    rw [List.mem_singleton.mp hc]
    rfl
  unfold unmarshalGolden
  rw [readText_print indented htree 0 hspaces]
  dsimp only
  rw [rawMembers_print indented htree 0 [Byte.newline], Option.bind_some]
  simp only [members, Nat.zero_add, List.map_cons, List.map_nil, List.foldlM_cons, List.foldlM_nil,
    assign_version, assign_scenario _ hscenario, assign_statusCode, assign_headers _ hheaders,
    assign_body, Option.bind_eq_bind, Option.bind_some]
  rfl

/-- What is read back from the file: the headers are the same map, and the body has the layout of
the file. -/
theorem readGolden_writeGolden {body : JTree} (hbody : g.bodyTree = some body)
    (hwf : body.escape.WF) (hversion : g.version = goldenFileVersion)
    (hscenario : validString g.scenario) (hheaders : HeadersAreText g.headers) :
    ∃ text h, writeGolden g = some text ∧
      readGolden text = .ok { g with headers := h, body := body.escape.print indented 1 } ∧
      ∀ k, h.get? k = g.headers.get? k := by
  have hperm : g.sortedHeaders.Perm g.headers.entries := List.perm_insertionSort _ _
  have hsorted : ∀ e ∈ g.sortedHeaders, validString e.1 ∧ ∀ v ∈ e.2, validString v :=
    fun e he => hheaders e (hperm.mem_iff.mp he)
  refine ⟨(JTree.node .object (g.members body)).print indented 0 ++ [Byte.newline],
    g.sortedHeaders.foldl (fun m e => GoMap.set m e.1 e.2) .empty, ?_, ?_,
    get?_foldl_set_entries hperm⟩
  · rw [writeGolden, hbody, Option.map_some]
  · rw [readGolden, g.unmarshalGolden_members hwf hscenario hsorted]
    simp only [hversion, ne_eq, not_true_eq_false, if_false]

end Golden

end TrinoGoway.DiffHarness
