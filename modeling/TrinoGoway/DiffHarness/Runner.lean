import TrinoGoway.DiffHarness.Golden

/-! `diffharness.Runner`: scenarios run live against both gateways, or against the Go gateway and
what was recorded of the Java gateway, and where the two verdicts agree. -/
namespace TrinoGoway.DiffHarness

open Go Go.Http Go.Json Go.JsonText

/-- A scenario, without the steps that lead to the responses. -/
structure Scenario where
  name : GoString
  diff : DiffPolicy

section Runner

variable {ν : Type} (F : Floats ν)

def recordScenario (s : Scenario) (javaHost : GoString) (java : Except GoError Response) :
    Except GoError Golden :=
  match java with
  | .error e => .error e
  | .ok resp => .ok (newGolden s.name (normalize F resp s.diff javaHost))

variable [Setoid (Doc ν)] (cmp : Cmp (Doc ν))

def runScenario (s : Scenario) (javaHost goHost : GoString)
    (java goSide : Except GoError Response) : Result :=
  match java, goSide with
  | .error j, .error g =>
    { scenario := s.name, verdict := .error
      reason := str "both sides errored: java=" ++ j.message ++ str "; go=" ++ g.message }
  | .error j, .ok _ =>
    { scenario := s.name, verdict := .error, reason := str "java errored: " ++ j.message }
  | .ok _, .error g =>
    { scenario := s.name, verdict := .error, reason := str "go errored: " ++ g.message }
  | .ok jResp, .ok gResp =>
    let jNorm := normalize F jResp s.diff javaHost
    let gNorm := normalize F gResp s.diff goHost
    { diff (unmarshal F) cmp jNorm gNorm s.diff with scenario := s.name }

def replayScenario (s : Scenario) (golden : Golden) (goHost : GoString)
    (goSide : Except GoError Response) : Result :=
  if golden.scenario ≠ s.name then
    { scenario := s.name, verdict := .error
      reason := str "golden scenario " ++ quoted golden.scenario ++
        str " does not match requested scenario " ++ quoted s.name }
  else
    match goSide with
    | .error e =>
      { scenario := s.name, verdict := .error, reason := str "go errored: " ++ e.message }
    | .ok resp =>
      let gNorm := normalize F resp s.diff goHost
      { diff (unmarshal F) cmp golden.toResponse gNorm s.diff with scenario := s.name }

/-! ### Bodies in the file -/

/-- The text is JSON for a value equal to `x`. -/
def ReadsAs (t : GoString) (x : Doc ν) : Prop := ∃ y, unmarshal F t = some y ∧ x ≈ y

def laidOut (t : GoString) : GoString :=
  match readText t with
  | none => t
  | some s => s.escape.print indented 1

/-- A body of the Java gateway that a golden file does not keep, with a body of the Go gateway for
which this shows: JSON null, which is read back as no body; what is not JSON, which is read back as
a JSON string; JSON with a number that `json.Unmarshal` refuses, which is compared by its bytes and
read back in another layout. -/
def Confused (b g : GoString) : Prop :=
  (unmarshal F b = some .null ∧ (g = [] ∨ ReadsAs F g .null)) ∨
  (b ≠ [] ∧ ¬valid b ∧ (g = b ∨ ReadsAs F g (.string b))) ∨
  (valid b ∧ unmarshal F b = none ∧ b ≠ laidOut b ∧ (g = b ∨ g = laidOut b))

variable {F}

theorem sameBody_of_some {b : GoString} {x : Doc ν} (hb : unmarshal F b = some x) (g : GoString) :
    SameBody (unmarshal F) b g ↔ ReadsAs F g x := by
  constructor
  · rintro (rfl | ⟨x', y, hx', hy, heq⟩)
    · exact ⟨x, hb, Setoid.refl x⟩
    · obtain rfl : x = x' := Option.some.inj (hb.symm.trans hx')
      exact ⟨y, hy, heq⟩
  · rintro ⟨y, hy, heq⟩
    exact .inr ⟨x, y, hb, hy, heq⟩

theorem sameBody_of_none {b : GoString} (hb : unmarshal F b = none) (g : GoString) :
    SameBody (unmarshal F) b g ↔ b = g := by
  constructor
  · rintro (h | ⟨x, y, hx, -, -⟩)
    · exact h
    · rw [hb] at hx
      cases hx
  · exact .inl

theorem ReadsAs.unmarshal_ne_none {g : GoString} {x : Doc ν} (h : ReadsAs F g x) :
    unmarshal F g ≠ none := by
  obtain ⟨y, hy, -⟩ := h
  rw [hy]
  exact Option.some_ne_none y

/-- The text that a response of the file has for a body in the file. -/
def replayedBody (body : JTree) : GoString :=
  if body.escape.print indented 1 = [] ∨ body.escape.print indented 1 = str "null" then []
  else body.escape.print indented 1

theorem replayedBody_null : replayedBody (.literal (str "null")) = [] := by
  rw [replayedBody, JTree.escape, JTree.print, if_pos (.inr (by decide))]

omit [Setoid (Doc ν)] in
theorem replayedBody_eq {body : JTree} (hwf : body.WF) (hdoc : body.doc F ≠ some .null) :
    replayedBody body = body.escape.print indented 1 := by
  have hread := readText_print_self indented (hwf.escape F).1 1
  refine if_neg ?_
  rintro (h | h)
  · rw [h, readText_nil] at hread
    cases hread
  · rw [h, readText_literal isLiteral_null] at hread
    have hnull := (hwf.escape F).2
    rw [← Option.some.inj hread, doc_null] at hnull
    exact hdoc hnull.symm

/-- The three kinds of bodies in a new golden: none, JSON, and a JSON string for anything else. -/
theorem bodyTree_newGolden (name : GoString) (r : Response) :
    ∃ body, (newGolden name r).bodyTree = some body ∧ body.WF ∧
      ((r.body = [] ∧ body = .literal (str "null")) ∨ readText r.body = some body ∨
        (r.body ≠ [] ∧ ¬valid r.body ∧ body = .literal (marshalString r.body))) := by
  unfold newGolden Golden.bodyTree
  dsimp only
  by_cases hnil : r.body = []
  · refine ⟨.literal (str "null"), ?_, .literal isLiteral_null, .inl ⟨hnil, rfl⟩⟩
    rw [if_pos hnil, if_neg (by decide), readText_literal isLiteral_null]
  rw [if_neg hnil]
  by_cases hvalid : valid r.body = true
  · obtain ⟨body, hbody⟩ := Option.isSome_iff_exists.mp hvalid
    rw [if_pos hvalid, if_neg hnil]
    exact ⟨body, hbody, wf_of_readText hbody, .inr (.inl hbody)⟩
  · have hliteral := (isString_marshalString r.body).1
    have hne : marshalString r.body ≠ [] := List.cons_ne_nil _ _
    rw [if_neg hvalid, if_neg hne, readText_literal hliteral]
    exact ⟨_, rfl, .literal hliteral, .inr (.inr ⟨hnil, hvalid, rfl⟩)⟩

/-- The response that a written and read golden stands for. -/
theorem readGolden_newGolden {name : GoString} (hname : validString name) {r : Response}
    (hheaders : HeadersAreText r.headers) {body : JTree}
    (hbody : (newGolden name r).bodyTree = some body) (hwf : body.escape.WF) :
    ∃ text golden, writeGolden (newGolden name r) = some text ∧ readGolden text = .ok golden ∧
      golden.scenario = name ∧ golden.toResponse.statusCode = r.statusCode ∧
      (∀ k, golden.toResponse.headers.get? k = r.headers.get? k) ∧
      golden.toResponse.body = replayedBody body := by
  obtain ⟨text, h, hwrite, hread, hsame⟩ :=
    (newGolden name r).readGolden_writeGolden hbody hwf rfl hname hheaders
  exact ⟨text, _, hwrite, hread, rfl, rfl, hsame, rfl⟩

/-! ### Where the verdicts agree -/

theorem iff_of_exclusive {p q : Prop} (h : p → ¬q) : (p ↔ q) ↔ ¬(p ∨ q) := by
  constructor
  · rintro hiff (hp | hq)
    · exact h hp (hiff.mp hp)
    · exact h (hiff.mpr hq) hq
  · intro hnone
    exact iff_of_false (fun hp => hnone (.inl hp)) fun hq => hnone (.inr hq)

section Bodies

variable {b g : GoString} {body : JTree}

omit [Setoid (Doc ν)] in
theorem unmarshal_nil : unmarshal F [] = none := by
  rw [unmarshal, readText_nil, Option.bind_none]

/-- JSON null is read back as no body, and no body is equal to both. -/
theorem sameBody_null_iff (hb : unmarshal F b = some .null) (hvalid : valid b = true) :
    (SameBody (unmarshal F) [] g ↔ SameBody (unmarshal F) b g) ↔ ¬Confused F b g := by
  have hexcl : [] = g → ¬ReadsAs F g .null := by
    rintro rfl hg
    exact hg.unmarshal_ne_none unmarshal_nil
  rw [sameBody_of_none unmarshal_nil, sameBody_of_some hb, iff_of_exclusive hexcl]
  simp [Confused, hb, hvalid, eq_comm]

/-- What is not JSON is read back as a string, and no body is equal to both. -/
theorem sameBody_text_iff (hne : b ≠ []) (hvalid : ¬valid b = true) {t : GoString}
    (ht : unmarshal F t = some (.string b)) :
    (SameBody (unmarshal F) t g ↔ SameBody (unmarshal F) b g) ↔ ¬Confused F b g := by
  have hb : unmarshal F b = none := unmarshal_of_not_valid F hvalid
  have hexcl : ReadsAs F g (.string b) → ¬b = g := by
    rintro hg rfl
    exact hg.unmarshal_ne_none hb
  rw [sameBody_of_some ht, sameBody_of_none hb, iff_of_exclusive hexcl]
  simp [Confused, hb, hne, hvalid, eq_comm, or_comm]

theorem sameBody_unread_iff (hb : unmarshal F b = none) (hvalid : valid b = true)
    (ht : unmarshal F (laidOut b) = none) :
    (SameBody (unmarshal F) (laidOut b) g ↔ SameBody (unmarshal F) b g) ↔ ¬Confused F b g := by
  have hconfused : Confused F b g ↔ b ≠ laidOut b ∧ (g = b ∨ g = laidOut b) := by
    simp [Confused, hb, hvalid]
  rw [sameBody_of_none ht, sameBody_of_none hb, hconfused]
  by_cases hlaid : b = laidOut b
  · rw [← hlaid]
    simp
  · have hexcl : laidOut b = g → ¬b = g := by
      rintro rfl
      exact hlaid
    rw [iff_of_exclusive hexcl]
    simp [hlaid, eq_comm, or_comm]

theorem sameBody_json_iff {x : Doc ν} (hb : unmarshal F b = some x) (hx : x ≠ .null)
    (hvalid : valid b = true) (ht : unmarshal F (laidOut b) = some x) :
    (SameBody (unmarshal F) (laidOut b) g ↔ SameBody (unmarshal F) b g) ↔ ¬Confused F b g := by
  rw [sameBody_of_some ht, sameBody_of_some hb]
  simp [Confused, hb, hvalid, hx]

variable (F) in
/-- The body that is read back compares as the body that was recorded, unless it is one of those
that the file does not keep. -/
theorem sameBody_replayed_iff (hwf : body.WF) (htext : validString b ∨ valid b = true)
    (hbody : (b = [] ∧ body = .literal (str "null")) ∨ readText b = some body ∨
      (b ≠ [] ∧ ¬valid b ∧ body = .literal (marshalString b))) :
    (SameBody (unmarshal F) (replayedBody body) g ↔ SameBody (unmarshal F) b g) ↔
      ¬Confused F b g := by
  have hrecorded := unmarshal_escape_print F indented 1 hwf
  rcases hbody with ⟨rfl, rfl⟩ | hread | ⟨hne, hvalid, rfl⟩
  · have hinvalid : ¬valid [] = true := by
      rw [valid, readText_nil]
      exact Bool.false_ne_true
    rw [replayedBody_null]
    simp [Confused, unmarshal_nil, hinvalid]
  · have hdoc : unmarshal F b = body.doc F := unmarshal_eq_doc F hread
    have hvalid : valid b = true := by rw [valid, hread, Option.isSome_some]
    have hlaid : body.escape.print indented 1 = laidOut b := by rw [laidOut, hread]
    by_cases hnull : body.doc F = some .null
    · rw [eq_null_of_doc F hnull, replayedBody_null]
      exact sameBody_null_iff (hdoc.trans hnull) hvalid
    · rw [replayedBody_eq hwf hnull, hlaid]
      rw [hlaid] at hrecorded
      cases hx : body.doc F with
      | none => exact sameBody_unread_iff (hdoc.trans hx) hvalid (hrecorded.trans hx)
      | some x =>
        have hne : x ≠ .null := fun h => hnull (hx.trans (congrArg some h))
        exact sameBody_json_iff (hdoc.trans hx) hne hvalid (hrecorded.trans hx)
  · have hstring : (JTree.literal (marshalString b)).doc F = some (.string b) := by
      rw [JTree.doc, literalDoc_marshalString F (htext.resolve_right hvalid)]
    have hnull : (JTree.literal (marshalString b)).doc F ≠ some .null := by
      rw [hstring]
      intro h
      cases h
    rw [replayedBody_eq hwf hnull]
    exact sameBody_text_iff hne hvalid (hrecorded.trans hstring)

end Bodies

variable (F)

theorem verdict_runScenario (s : Scenario) (javaHost goHost : GoString) (java goResp : Response) :
    (runScenario F cmp s javaHost goHost (.ok java) (.ok goResp)).verdict = .pass ↔
      SameResponse (unmarshal F) (normalize F java s.diff javaHost)
        (normalize F goResp s.diff goHost) := by
  rw [runScenario, ← verdict_diff_eq_pass (unmarshal F) cmp]

theorem verdict_replayScenario {s : Scenario} {golden : Golden} (hname : golden.scenario = s.name)
    (goHost : GoString) (goResp : Response) :
    (replayScenario F cmp s golden goHost (.ok goResp)).verdict = .pass ↔
      SameResponse (unmarshal F) golden.toResponse (normalize F goResp s.diff goHost) := by
  rw [replayScenario, if_neg (not_not.mpr hname), ← verdict_diff_eq_pass (unmarshal F) cmp]

end Runner

/-! ### Two answers -/

/-- Documents are equal if they are written alike. -/
instance : Setoid (Doc ℤ) := Setoid.comap (marshal integers) ⟨Eq, eq_equivalence⟩

def plainCmp : Cmp (Doc ℤ) where
  texts s t := if s = t then [] else str "differ"
  docs x y := if marshal integers x = marshal integers y then [] else str "differ"
  texts_eq_nil s t := by
    rw [ite_eq_left_iff, not_imp_comm]
    exact ⟨fun h => h (by decide), fun h _ => h⟩
  docs_eq_nil x y := by
    rw [ite_eq_left_iff, not_imp_comm]
    exact ⟨fun h => h (by decide), fun h _ => h⟩

def infoScenario : Scenario := ⟨str "info", {}⟩

def jsonResponse : Response := ⟨200, .empty, str "[1]"⟩

def plainResponse : Response := ⟨200, .empty, str "ok"⟩

theorem not_confused_json : ¬Confused integers (str "[1]") (str "[1]") := by
  have hdoc : unmarshal integers (str "[1]") = some (.array [.number 1]) := rfl
  have hvalid : valid (str "[1]") = true := rfl
  simp [Confused, hdoc, hvalid]

/-- Recording the Java response, writing it, reading it back and replaying it against the Go
response passes exactly when the live comparison does, unless the normalised responses agree in
status and headers and the Java body is one that the file does not keep. -/
theorem replay_agrees_iff {ν : Type} (F : Floats ν) [Setoid (Doc ν)] (cmp : Cmp (Doc ν))
    (s : Scenario) (hname : validString s.name) (javaHost goHost : GoString)
    (hhost : s.diff.rewriteHostPort → validString javaHost) (java goResp : Response)
    (hjava : java.IsText) :
    ∃ golden text golden', recordScenario F s javaHost (.ok java) = .ok golden ∧
      writeGolden golden = some text ∧ readGolden text = .ok golden' ∧
      (((replayScenario F cmp s golden' goHost (.ok goResp)).verdict = .pass ↔
          (runScenario F cmp s javaHost goHost (.ok java) (.ok goResp)).verdict = .pass) ↔
        ¬((normalize F java s.diff javaHost).statusCode =
            (normalize F goResp s.diff goHost).statusCode ∧
          SameHeaders (normalize F java s.diff javaHost).headers
            (normalize F goResp s.diff goHost).headers ∧
          Confused F (normalize F java s.diff javaHost).body
            (normalize F goResp s.diff goHost).body)) := by
  obtain ⟨hheaders, hbody⟩ := normalize_isText F hjava hhost
  rw [verdict_runScenario]
  generalize hj : normalize F java s.diff javaHost = j at hheaders hbody ⊢
  obtain ⟨body, htree, hwf, hkind⟩ := bodyTree_newGolden s.name j
  obtain ⟨text, golden, hwrite, hread, hscenario, hstatus, hsame, hreplayed⟩ :=
    readGolden_newGolden hname hheaders htree (hwf.escape F).1
  refine ⟨newGolden s.name j, text, golden, ?_, hwrite, hread, ?_⟩
  · rw [recordScenario, hj]
  rw [verdict_replayScenario F cmp hscenario]
  generalize normalize F goResp s.diff goHost = g
  have hheads : SameHeaders golden.toResponse.headers g.headers ↔
      SameHeaders j.headers g.headers := by
    unfold SameHeaders
    simp only [hsame]
  rw [SameResponse, SameResponse, hstatus, hheads, hreplayed, and_congr_right_iff,
    and_congr_right_iff, sameBody_replayed_iff F hwf hbody hkind, not_and, not_and]

/-- Two gateways that answer the same JSON pass in the replay as they do live. -/
theorem replay_agrees_json :
    validString infoScenario.name ∧ jsonResponse.IsText ∧
      ∃ golden text golden',
        recordScenario integers infoScenario [] (.ok jsonResponse) = .ok golden ∧
        writeGolden golden = some text ∧ readGolden text = .ok golden' ∧
        ((replayScenario integers plainCmp infoScenario golden' [] (.ok jsonResponse)).verdict =
            .pass ↔
          (runScenario integers plainCmp infoScenario [] [] (.ok jsonResponse)
            (.ok jsonResponse)).verdict = .pass) := by
  have hname : validString infoScenario.name := by decide
  have htext : jsonResponse.IsText :=
    ⟨fun e he => absurd he List.not_mem_nil, by decide⟩
  refine ⟨hname, htext, ?_⟩
  obtain ⟨golden, text, golden', hrecord, hwrite, hread, hiff⟩ :=
    replay_agrees_iff integers plainCmp infoScenario hname [] []
      (fun h => absurd h Bool.false_ne_true) jsonResponse jsonResponse htext
  refine ⟨golden, text, golden', hrecord, hwrite, hread, hiff.mpr ?_⟩
  rintro ⟨-, -, hconfused⟩
  exact not_confused_json hconfused

/-- Two gateways that answer the plain text `ok` pass live and do not pass in the replay: the file
has a JSON string, and what the Go gateway answers is no JSON. -/
theorem plain_text_replay_fails :
    ∃ golden text golden',
      recordScenario integers infoScenario [] (.ok plainResponse) = .ok golden ∧
      writeGolden golden = some text ∧ readGolden text = .ok golden' ∧
      (runScenario integers plainCmp infoScenario [] [] (.ok plainResponse)
        (.ok plainResponse)).verdict = .pass ∧
      (replayScenario integers plainCmp infoScenario golden' []
        (.ok plainResponse)).verdict ≠ .pass := by
  have hnorm : normalize integers plainResponse infoScenario.diff [] = plainResponse := rfl
  have hheaders : HeadersAreText plainResponse.headers := fun e he => absurd he List.not_mem_nil
  have hname : validString infoScenario.name := by decide
  obtain ⟨body, htree, hwf, hkind⟩ := bodyTree_newGolden infoScenario.name plainResponse
  obtain ⟨text, golden, hwrite, hread, hscenario, -, -, hreplayed⟩ :=
    readGolden_newGolden hname hheaders htree (hwf.escape integers).1
  refine ⟨_, text, golden, ?_, hwrite, hread, ?_, ?_⟩
  · rw [recordScenario, hnorm]
  · rw [verdict_runScenario, hnorm]
    exact (equivalence_sameResponse _).refl plainResponse
  · rw [ne_eq, verdict_replayScenario integers plainCmp hscenario, hnorm]
    rintro ⟨-, -, hbody⟩
    rw [hreplayed] at hbody
    have hconfused : Confused integers plainResponse.body plainResponse.body :=
      .inr (.inl ⟨by decide, by decide, .inl rfl⟩)
    have hagree := sameBody_replayed_iff integers (g := plainResponse.body) hwf
      (.inl (by decide)) hkind
    exact hagree.mp ⟨fun _ => .inl rfl, fun _ => hbody⟩ hconfused

end TrinoGoway.DiffHarness
