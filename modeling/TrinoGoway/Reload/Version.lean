import TrinoGoway.Reload.LastGood

/-! The version that a reload reports, against writes to the configuration file while the attempt
is going. -/
namespace TrinoGoway.Reload

open Go Engine Service Prog

variable {M : Type} {env : Env}

abbrev File := Except GoError GoString

/-- A step of an attempt, or a change of the file by someone else. -/
inductive Move (M : Type)
  | write (file : File)
  | event (e : Event (Ret (M := M)))

/-- The steps of a program from its start to its end, in between writes: a read answers with what
the file holds. -/
inductive Attempt : File → Code M Unit → List (Move M) → Prop
  | returned (f : File) : Attempt f (.ret ()) []
  | write {f f' : File} {p : Code M Unit} {l : List (Move M)} (h : Attempt f' p l) :
      Attempt f p (.write f' :: l)
  | read {f : File} {k : File → Code M Unit} {l : List (Move M)} (h : Attempt f (k f) l) :
      Attempt f (.call .readFile k) (.event ⟨.readFile, f⟩ :: l)
  | other {f : File} {o : Op M} {k : Ret o → Code M Unit} {r : Ret o} {l : List (Move M)}
      (ho : o ≠ .readFile) (h : Attempt f (k r) l) :
      Attempt f (.call o k) (.event ⟨o, r⟩ :: l)

def events (l : List (Move M)) : List (Event (Ret (M := M))) :=
  l.filterMap fun
    | .write _ => none
    | .event e => some e

def fileAfter : File → List (Move M) → File
  | f, [] => f
  | _, .write f :: l => fileAfter f l
  | f, .event _ :: l => fileAfter f l

theorem fileAfter_append (f : File) (l l' : List (Move M)) :
    fileAfter f (l ++ l') = fileAfter (fileAfter f l) l' := by
  induction l generalizing f with
  | nil => rfl
  | cons m l ih =>
    cases m with
    | write f' => exact ih f'
    | event e => exact ih f

theorem events_split {l : List (Move M)} {h₁ h₂ : List (Event (Ret (M := M)))}
    {e : Event (Ret (M := M))} (h : events l = h₁ ++ e :: h₂) :
    ∃ u v, l = u ++ .event e :: v ∧ events u = h₁ ∧ events v = h₂ := by
  obtain ⟨u, w, rfl, hu, hw⟩ := List.filterMap_eq_append_iff.mp h
  obtain ⟨w₁, m, v, rfl, hw₁, hm, hv⟩ := List.filterMap_eq_cons_iff.mp hw
  cases m with
  | write f => cases hm
  | event e' =>
    obtain rfl := Option.some.inj hm
    refine ⟨u ++ w₁, v, by simp, ?_, hv⟩
    unfold events
    rw [List.filterMap_append, List.filterMap_eq_nil_iff.mpr hw₁, List.append_nil, hu]

section Attempt

variable {f : File} {p : Code M Unit} {l : List (Move M)}

theorem Attempt.runs (h : Attempt f p l) : Runs p (events l) () := by
  induction h with
  | returned f => exact .nil _
  | write h ih => exact ih
  | read h ih => exact .cons _ ih
  | other ho h ih => exact .cons _ ih

theorem Attempt.read_eq {r : File} {u v : List (Move M)}
    (h : Attempt f p (u ++ .event ⟨.readFile, r⟩ :: v)) : r = fileAfter f u := by
  induction u generalizing f p with
  | nil =>
    cases h with
    | read h => rfl
    | other ho h => exact absurd rfl ho
  | cons m u ih =>
    cases m with
    | write f' =>
      cases h with
      | write h => exact ih h
    | event e =>
      cases h with
      | read h => exact ih h
      | other ho h => exact ih h

end Attempt

/-- A hash that the attempt stores, reports in its audit event or publishes. -/
def Reports (hash : GoString) : Event (Ret (M := M)) → Prop
  | ⟨.storeHash h, _⟩ => hash = h
  | ⟨.audit a, _⟩ => hash = a.newHash
  | ⟨.setConfigVersion h, _⟩ => hash = h
  | _ => False

def BuiltFrom (env : Env) (content : GoString) (l : List (Move M)) (ms : List M) : Prop :=
  ∃ cfg h, load env.unmarshal env.path (.ok content) = .ok cfg ∧ Built cfg.methods h ms ∧
    h.Sublist (events l)

theorem not_reports_of_isInput {e : Event (Ret (M := M))} (he : e.op.isInput) (hash : GoString) :
    ¬Reports hash e := by
  obtain ⟨o, r⟩ := e
  cases o <;> first | exact id | cases he

theorem not_isInput_swap (ms : List M) : ¬(Op.swap ms).isInput := by simp [Op.isInput]

/-- An attempt that swaps: its two reads, and the only hash that it reports. -/
theorem reports_of_swap {a : List (Event (Ret (M := M)))} (hr : Runs (reload env) a ())
    {ms : List M} (hswap : ⟨.swap ms, ()⟩ ∈ a) :
    ∃ old data content cfg h rest,
      a = [⟨.loadHash, old⟩] ++ ⟨.readFile, .ok data⟩ :: ([] ++ ⟨.readFile, .ok content⟩ ::
        (h ++ rest)) ∧
      load env.unmarshal env.path (.ok content) = .ok cfg ∧ Built cfg.methods h ms ∧
      ⟨.storeHash (env.hashBytes data), ()⟩ ∈ a ∧
      ∀ hash, ∀ e ∈ a, Reports hash e → hash = env.hashBytes data := by
  rcases runs_reload hr with ⟨old, h, data, ms', x, hval, hx, hin, ha⟩ | ⟨-, old, h, x, hin, rfl⟩
  · have hms : ms = ms' := by
      simp only [ha, List.mem_cons, List.mem_append, List.not_mem_nil, or_false] at hswap
      rcases hswap with hswap | hswap | hswap
      · cases hswap
      · exact absurd (hin _ hswap) (not_isInput_swap ms)
      · simpa using hswap
    subst hms
    have hreports : ∀ hash, ∀ e ∈ a, Reports hash e → hash = env.hashBytes data := by
      intro hash e he hrep
      rw [ha] at he
      rcases List.mem_cons.mp he with rfl | he
      · exact hrep.elim
      · rcases List.mem_append.mp he with he | he
        · exact absurd hrep (not_reports_of_isInput (hin e he) hash)
        · simp only [List.mem_cons, List.not_mem_nil, or_false] at he
          rcases he with rfl | rfl | rfl | rfl | rfl | rfl
          · exact hrep.elim
          · exact hrep
          · exact hrep.elim
          · exact hrep.trans hx
          · exact hrep
          · exact hrep.elim
    have hstore : ⟨.storeHash (env.hashBytes data), ()⟩ ∈ a := by simp [ha]
    obtain ⟨hload, hbuilt⟩ := hval
    exact ⟨old, data, _, _, _, _, ha, hload, hbuilt, hstore, hreports⟩
  · simp only [List.mem_cons, List.mem_append, List.not_mem_nil, or_false] at hswap
    rcases hswap with hswap | hswap | hswap
    · cases hswap
    · exact absurd (hin _ hswap) (not_isInput_swap ms)
    · simp at hswap

/-- An attempt that swaps in the methods `ms` has read the file twice: for the hash, and for the
methods. The hash is that of the bytes of `ms` exactly if the writes in between, if any, have left
the hash of the file as it was. -/
theorem version_matches_iff {f : File} {l : List (Move M)} (h : Attempt f (reload env) l)
    {ms : List M} (hswap : .event ⟨.swap ms, ()⟩ ∈ l) :
    ∃ u w v data content,
      l = u ++ .event ⟨.readFile, .ok data⟩ :: (w ++ .event ⟨.readFile, .ok content⟩ :: v) ∧
        fileAfter f u = .ok data ∧ fileAfter (.ok data) w = .ok content ∧
        BuiltFrom env content v ms ∧
        ((∀ hash, ∀ e ∈ events l, Reports hash e → hash = env.hashBytes content) ↔
          env.hashBytes data = env.hashBytes content) := by
  have hmem : ⟨.swap ms, ()⟩ ∈ events l := List.mem_filterMap.mpr ⟨_, hswap, rfl⟩
  obtain ⟨old, data, content, cfg, h', rest, ha, hload, hbuilt, hstore, hreports⟩ :=
    reports_of_swap h.runs hmem
  obtain ⟨u, v', hl, -, hv'⟩ := events_split ha
  obtain ⟨w, v, rfl, -, hv⟩ := events_split hv'
  have hfirst : fileAfter f u = .ok data := (Attempt.read_eq (hl ▸ h)).symm
  have hsecond : fileAfter (.ok data) w = .ok content := by
    have hcut : l = (u ++ .event ⟨.readFile, .ok data⟩ :: w) ++
        .event ⟨.readFile, .ok content⟩ :: v := by
      rw [hl, List.append_assoc, List.cons_append]
    have hread := Attempt.read_eq (hcut ▸ h)
    rw [fileAfter_append, hfirst] at hread
    exact hread.symm
  refine ⟨u, w, v, data, content, hl, hfirst, hsecond, ⟨cfg, h', hload, hbuilt, ?_⟩, ?_⟩
  · rw [hv]
    exact List.sublist_append_left h' rest
  · constructor
    · intro hall
      exact hall _ _ hstore rfl
    · intro heq hash e he hrep
      rw [← heq]
      exact hreports hash e he hrep

/-- A file whose bytes are the program of one method, and a hash that tells all files apart. -/
def programFile : Env where
  path := str "config.yaml"
  unmarshal content cfg := .ok { cfg with
    defaultRoutingGroup := str "adhoc"
    methods := [{ type := str "expr", program := content }] }
  hashBytes := id

def overtaken (before after : GoString) : List (Move Numbered) :=
  [.event ⟨.loadHash, none⟩, .event ⟨.readFile, .ok before⟩, .write (.ok after),
    .event ⟨.readFile, .ok after⟩,
    .event ⟨.loadConfig (str "expr")
      (methodConfigBytes { type := str "expr", program := after }), .ok ⟨1, str "expr"⟩⟩,
    .event ⟨.swap [⟨1, str "expr"⟩], ()⟩, .event ⟨.storeHash before, ()⟩,
    .event ⟨.addSuccess, ()⟩,
    .event ⟨.audit ⟨true, [], before, str "1 method(s)", []⟩, ()⟩,
    .event ⟨.setConfigVersion before, ()⟩, .event ⟨.addCount, ()⟩]

theorem attempt_overtaken :
    Attempt (.ok (str "a")) (reload programFile) (overtaken (str "a") (str "b")) :=
  .other (by simp) <| .read <| .write <| .read <| .other (by simp) <| .other (by simp) <|
    .other (by simp) <| .other (by simp) <| .other (by simp) <| .other (by simp) <|
      .other (by simp) <| .returned _

theorem version_matches_iff_overtaken :
    Attempt (.ok (str "a")) (reload programFile) (overtaken (str "a") (str "b")) ∧
    ∃ u w v data content,
      overtaken (str "a") (str "b") =
          u ++ .event ⟨.readFile, .ok data⟩ :: (w ++ .event ⟨.readFile, .ok content⟩ :: v) ∧
        fileAfter (.ok (str "a")) u = .ok data ∧ fileAfter (.ok data) w = .ok content ∧
        BuiltFrom programFile content v [⟨1, str "expr"⟩] ∧
        ((∀ hash, ∀ e ∈ events (overtaken (str "a") (str "b")),
            Reports hash e → hash = programFile.hashBytes content) ↔
          programFile.hashBytes data = programFile.hashBytes content) :=
  ⟨attempt_overtaken, version_matches_iff attempt_overtaken (by simp [overtaken])⟩

/-- The methods of `b` run under the version of `a`. -/
theorem overtaken_version_mismatch :
    Attempt (.ok (str "a")) (reload programFile) (overtaken (str "a") (str "b")) ∧
      BuiltFrom programFile (str "b") (overtaken (str "a") (str "b")) [⟨1, str "expr"⟩] ∧
      ⟨.swap [⟨1, str "expr"⟩], ()⟩ ∈ events (overtaken (str "a") (str "b")) ∧
      ⟨.setConfigVersion (programFile.hashBytes (str "a")), ()⟩ ∈
        events (overtaken (str "a") (str "b")) ∧
      programFile.hashBytes (str "a") ≠ programFile.hashBytes (str "b") := by
  refine ⟨attempt_overtaken, ⟨_, _, rfl, .cons (by decide) .nil, ?_⟩, ?_, ?_, by decide⟩
  · simp [overtaken, events]
  · simp [overtaken, events]
  · simp [overtaken, events, programFile]

end TrinoGoway.Reload
