import TrinoGoway.Engine.Registry
import TrinoGoway.Lib.Prog

/-! How the providers get their program back out of the text that the registry writes. -/
namespace TrinoGoway.Engine

open Go Service

/-! ### The reader -/

/-- The loop of `splitLines`; `line` is what has been read since the last newline. -/
def splitLinesFrom (line : GoString) : GoString → List GoString
  | [] => if line = [] then [] else [line]
  | b :: s =>
    if b = Byte.newline then line :: splitLinesFrom [] s else splitLinesFrom (line ++ [b]) s

def splitLines (s : GoString) : List GoString := splitLinesFrom [] s

def joinLines (lines : List GoString) : GoString := join lines [Byte.newline]

/-- The key and the value of a line, both empty if it has no colon. One space behind the colon is
dropped. -/
def parseYAMLLine (line : GoString) : GoString × GoString :=
  match cut Byte.colon line with
  | (_, none) => ([], [])
  | (key, some val) => (key, if val.head? = some Byte.space then val.tail else val)

structure SourceState where
  program : GoString := []
  file : GoString := []
  inBlock : Bool := false
  blockLines : List GoString := []

namespace SourceState

/-- A line outside of a block. -/
def key (st : SourceState) (line : GoString) : SourceState :=
  let (key, val) := parseYAMLLine line
  if key = str "program" then
    if val = str "|" then { st with inBlock := true, blockLines := [] }
    else { st with program := val }
  else if key = str "file" then { st with file := val }
  else st

def next (st : SourceState) (line : GoString) : SourceState :=
  if st.inBlock then
    if hasPrefix line (str "  ") then { st with blockLines := st.blockLines ++ [line.drop 2] }
    else { st with inBlock := false, program := joinLines st.blockLines }.key line
  else st.key line

/-- The program when the lines are at their end. -/
def source (st : SourceState) : GoString :=
  if st.inBlock then joinLines st.blockLines else st.program

end SourceState

abbrev FileProg := Prog fun _ : GoString => Except GoError GoString

def readFile (path : GoString) : FileProg (Except GoError GoString) := Prog.perform path

/-- The body of both functions `extractSource`. -/
def sourceOf (raw : GoString) : FileProg (Except GoError GoString) :=
  let st := (splitLines raw).foldl SourceState.next {}
  if st.source ≠ [] then pure (.ok st.source)
  else if st.file ≠ [] then do
    let src ← readFile st.file
    pure (src.mapError fun e => ⟨str "read file " ++ quoted st.file ++ str ": " ++ e.message⟩)
  else pure (.error ⟨str "config must specify program or file"⟩)

inductive Provider
  | expr
  | script

namespace Provider

def typeName : Provider → GoString
  | expr => str "expr"
  | script => str "script"

def extractSource : Provider → GoString → FileProg (Except GoError GoString)
  | expr => sourceOf
  | script => sourceOf

end Provider

/-! ### Lines -/

theorem splitLinesFrom_append {l : GoString} (h : Byte.newline ∉ l) (line s : GoString) :
    splitLinesFrom line (l ++ s) = splitLinesFrom (line ++ l) s := by
  induction l generalizing line with
  | nil => rw [List.nil_append, List.append_nil]
  | cons b l ih =>
    rw [List.mem_cons, not_or] at h
    rw [List.cons_append, splitLinesFrom, if_neg (Ne.symm h.1), ih h.2, List.append_assoc]
    rfl

theorem splitLines_line {l : GoString} (h : Byte.newline ∉ l) (s : GoString) :
    splitLines (l ++ Byte.newline :: s) = l :: splitLines s := by
  unfold splitLines
  rw [splitLinesFrom_append h, splitLinesFrom, if_pos rfl]
  rfl

def chomp (s : GoString) : GoString := if s.getLast? = some Byte.newline then s.dropLast else s

theorem chomp_cons {b : UInt8} {s : GoString} (h : s ≠ []) : chomp (b :: s) = b :: chomp s := by
  unfold chomp
  rw [List.getLast?_cons_of_ne_nil h, List.dropLast_cons_of_ne_nil h]
  split <;> rfl

theorem joinLines_cons (l : GoString) {ls : List GoString} (h : ls ≠ []) :
    joinLines (l :: ls) = l ++ Byte.newline :: joinLines ls := by
  cases ls with
  | nil => exact absurd rfl h
  | cons l' ls => simp [joinLines, join]

theorem splitLinesFrom_ne_nil {line s : GoString} (h : line ≠ [] ∨ s ≠ []) :
    splitLinesFrom line s ≠ [] := by
  induction s generalizing line with
  | nil => simp [splitLinesFrom, h.resolve_right (fun h' => h' rfl)]
  | cons b s ih =>
    rw [splitLinesFrom]
    split
    · simp
    · exact ih (.inl (by simp))

/-- Splitting and joining loses one newline at the end. -/
theorem joinLines_splitLinesFrom (line s : GoString) :
    joinLines (splitLinesFrom line s) = line ++ chomp s := by
  induction s generalizing line with
  | nil =>
    rw [splitLinesFrom]
    split
    · rename_i hline
      rw [hline]
      rfl
    · simp [joinLines, join, chomp]
  | cons b s ih =>
    rw [splitLinesFrom]
    split
    · rename_i hb
      subst hb
      by_cases hs : s = []
      · subst hs
        simp [splitLinesFrom, joinLines, join, chomp]
      · rw [joinLines_cons line (splitLinesFrom_ne_nil (.inr hs)), ih, chomp_cons hs]
        rfl
    · rename_i hb
      rw [ih]
      by_cases hs : s = []
      · subst hs
        simp [chomp, hb]
      · rw [chomp_cons hs, List.append_assoc]
        rfl

theorem joinLines_splitLines (s : GoString) : joinLines (splitLines s) = chomp s :=
  joinLines_splitLinesFrom [] s

/-! ### The block -/

def indent (line : GoString) : GoString := str "  " ++ line

/-- The block holds the lines of the program, indented. By induction on the program, from the start
of a line and from inside of one. -/
theorem splitLines_blockLines (val rest : GoString) :
    splitLines (blockLines true val ++ rest) = (splitLines val).map indent ++ splitLines rest ∧
      ∀ line, line ≠ [] → splitLinesFrom (indent line) (blockLines false val ++ rest) =
        (splitLinesFrom line val).map indent ++ splitLines rest := by
  induction val with
  | nil =>
    refine ⟨rfl, ?_⟩
    intro line hline
    rw [splitLinesFrom, if_neg hline]
    rfl
  | cons b val ih =>
    obtain ⟨hstart, hinside⟩ := ih
    have hbyte : ∀ line, splitLinesFrom (indent line) (b :: (blockLines (b = Byte.newline) val ++
        rest)) = (splitLinesFrom line (b :: val)).map indent ++ splitLines rest := by
      intro line
      rw [splitLinesFrom, splitLinesFrom]
      by_cases hb : b = Byte.newline
      · rw [if_pos hb, if_pos hb, decide_eq_true hb]
        exact congrArg (indent line :: ·) hstart
      · rw [if_neg hb, if_neg hb, decide_eq_false hb]
        exact hinside (line ++ [b]) (by simp)
    constructor
    · have hspaces : Byte.newline ∉ str "  " := by decide
      have hsplit : blockLines true (b :: val) ++ rest =
          str "  " ++ b :: (blockLines (b = Byte.newline) val ++ rest) := by
        simp [blockLines]
      unfold splitLines
      rw [hsplit, splitLinesFrom_append hspaces]
      exact hbyte []
    · intro line _
      exact hbyte line

theorem foldl_next_block (lines : List GoString) (st : SourceState) (h : st.inBlock = true) :
    (lines.map indent).foldl SourceState.next st =
      { st with blockLines := st.blockLines ++ lines } := by
  induction lines generalizing st with
  | nil =>
    rw [List.append_nil]
    rfl
  | cons l lines ih =>
    have hnext : st.next (indent l) = { st with blockLines := st.blockLines ++ [l] } := by
      unfold SourceState.next
      rw [if_pos h]
      exact if_pos rfl
    rw [List.map_cons, List.foldl_cons, hnext]
    refine (ih { st with blockLines := st.blockLines ++ [l] } h).trans ?_
    simp

/-! ### The round trip -/

def yamlLine (key : String) (val : GoString) : GoString := str key ++ str ": " ++ val

theorem splitLines_yamlLine {key : String} {val : GoString} (hkey : Byte.newline ∉ str key)
    (hval : Byte.newline ∉ val) (s : GoString) :
    splitLines (appendYAMLStr [] key val ++ s) = yamlLine key val :: splitLines s := by
  have hline : Byte.newline ∉ yamlLine key val := by
    have hcolon : Byte.newline ∉ str ": " := by decide
    simp only [yamlLine, List.mem_append, hkey, hcolon, hval, or_self, not_false_eq_true]
  rw [← splitLines_line hline]
  simp [appendYAMLStr, yamlLine]

theorem parseYAMLLine_yamlLine {key : String} (hkey : Byte.colon ∉ str key) (val : GoString) :
    parseYAMLLine (yamlLine key val) = (str key, val) := by
  have hsplit : yamlLine key val = str key ++ Byte.colon :: Byte.space :: val := by
    unfold yamlLine
    rw [List.append_assoc]
    rfl
  unfold parseYAMLLine
  rw [hsplit, cut_append hkey, cut_cons_self]
  simp

/-- A line of the registry other than the program's leaves the program as it is. -/
theorem next_yamlLine (st : SourceState) {key : String} (hkey : Byte.colon ∉ str key)
    (hindent : ∀ val, hasPrefix (yamlLine key val) (str "  ") = false)
    (hprogram : str key ≠ str "program") (val : GoString) :
    (st.next (yamlLine key val)).source = st.source ∧
      (st.next (yamlLine key val)).file = if str key = str "file" then val else st.file := by
  have hkeyed : ∀ st : SourceState, st.key (yamlLine key val) =
      if str key = str "file" then { st with file := val } else st := by
    intro st
    unfold SourceState.key
    rw [parseYAMLLine_yamlLine hkey]
    exact if_neg hprogram
  unfold SourceState.next
  cases hblock : st.inBlock with
  | true =>
    rw [if_pos rfl, hindent val, if_neg (by simp), hkeyed]
    unfold SourceState.source
    rw [hblock]
    split <;> exact ⟨rfl, rfl⟩
  | false =>
    rw [if_neg (by simp), hkeyed]
    unfold SourceState.source
    split
    · rw [hblock]
      exact ⟨rfl, rfl⟩
    · exact ⟨rfl, rfl⟩

theorem hasPrefix_yamlLine {key : String} {b : UInt8} {k : GoString} (h : str key = b :: k)
    (hb : b ≠ Byte.space) (val : GoString) : hasPrefix (yamlLine key val) (str "  ") = false := by
  unfold yamlLine hasPrefix
  rw [h]
  have hspaces : str "  " = [Byte.space, Byte.space] := rfl
  rw [hspaces]
  simp [List.isPrefixOf, Ne.symm hb]

section RoundTrip

variable (cfg : MethodConfig)

def programLines : List GoString :=
  if cfg.program ≠ [] then yamlLine "program" (str "|") :: (splitLines cfg.program).map indent
  else []

def fileLines : List GoString := if cfg.file ≠ [] then [yamlLine "file" cfg.file] else []

def refreshLines : List GoString :=
  if 0 < cfg.refresh then [yamlLine "refresh" (durationString cfg.refresh)] else []

theorem splitLines_methodConfigBytes (htype : Byte.newline ∉ cfg.type)
    (hfile : Byte.newline ∉ cfg.file) :
    splitLines (methodConfigBytes cfg) =
      yamlLine "type" cfg.type :: (programLines cfg ++ (fileLines cfg ++ refreshLines cfg)) := by
  have hbytes : methodConfigBytes cfg = appendYAMLStr [] "type" cfg.type ++
      ((if cfg.program ≠ [] then appendYAMLBlock [] "program" cfg.program else []) ++
        ((if cfg.file ≠ [] then appendYAMLStr [] "file" cfg.file else []) ++
          (if 0 < cfg.refresh then appendYAMLStr [] "refresh" (durationString cfg.refresh)
            else []))) := by
    unfold methodConfigBytes
    dsimp only
    split <;> split <;> split <;> simp [appendYAMLStr, appendYAMLBlock]
  have hrefresh : splitLines (if 0 < cfg.refresh then
      appendYAMLStr [] "refresh" (durationString cfg.refresh) else []) = refreshLines cfg := by
    unfold refreshLines
    split
    · have hline := splitLines_yamlLine (show Byte.newline ∉ str "refresh" by decide)
        (not_mem_durationString cfg.refresh) []
      rw [List.append_nil] at hline
      exact hline
    · rfl
  have hfiles : ∀ s, splitLines ((if cfg.file ≠ [] then appendYAMLStr [] "file" cfg.file else []) ++
      s) = fileLines cfg ++ splitLines s := by
    intro s
    unfold fileLines
    split
    · exact splitLines_yamlLine (by decide) hfile s
    · rfl
  have hprogram : ∀ s, splitLines
      ((if cfg.program ≠ [] then appendYAMLBlock [] "program" cfg.program else []) ++ s) =
        programLines cfg ++ splitLines s := by
    intro s
    unfold programLines
    split
    · have hline : Byte.newline ∉ yamlLine "program" (str "|") := by decide
      have hsplit : appendYAMLBlock [] "program" cfg.program ++ s =
          yamlLine "program" (str "|") ++ Byte.newline :: (blockLines true cfg.program ++ s) := by
        simp [appendYAMLBlock, yamlLine]
        rfl
      rw [hsplit, splitLines_line hline, (splitLines_blockLines _ _).1]
      rfl
    · rfl
  rw [hbytes, splitLines_yamlLine (by decide) htype, hprogram, hfiles, hrefresh]

theorem foldl_programLines :
    ((programLines cfg).foldl SourceState.next {}).source = chomp cfg.program ∧
      ((programLines cfg).foldl SourceState.next {}).file = [] := by
  unfold programLines
  split
  · have hblock := foldl_next_block (splitLines cfg.program) { inBlock := true } rfl
    have hopen : SourceState.next {} (yamlLine "program" (str "|")) = { inBlock := true } := rfl
    rw [List.foldl_cons, hopen, hblock]
    exact ⟨joinLines_splitLines cfg.program, rfl⟩
  · rename_i hprogram
    rw [not_not] at hprogram
    rw [hprogram]
    exact ⟨rfl, rfl⟩

theorem source_methodConfigBytes (htype : Byte.newline ∉ cfg.type)
    (hfile : Byte.newline ∉ cfg.file) :
    let st := (splitLines (methodConfigBytes cfg)).foldl SourceState.next {}
    st.source = chomp cfg.program ∧ st.file = cfg.file := by
  have hstart : SourceState.next {} (yamlLine "type" cfg.type) = {} := by
    unfold SourceState.next SourceState.key
    rw [parseYAMLLine_yamlLine (by decide)]
    rfl
  obtain ⟨hsource, hnone⟩ := foldl_programLines cfg
  have hfiles : ∀ st : SourceState, st.file = [] →
      ((fileLines cfg).foldl SourceState.next st).source = st.source ∧
        ((fileLines cfg).foldl SourceState.next st).file = cfg.file := by
    intro st hst
    unfold fileLines
    split
    · exact next_yamlLine st (by decide) (hasPrefix_yamlLine rfl (by decide)) (by decide) cfg.file
    · rename_i hempty
      rw [not_not] at hempty
      exact ⟨rfl, hst.trans hempty.symm⟩
  have hrefresh : ∀ st : SourceState,
      ((refreshLines cfg).foldl SourceState.next st).source = st.source ∧
        ((refreshLines cfg).foldl SourceState.next st).file = st.file := by
    intro st
    unfold refreshLines
    split
    · exact next_yamlLine st (by decide) (hasPrefix_yamlLine rfl (by decide)) (by decide) _
    · exact ⟨rfl, rfl⟩
  rw [splitLines_methodConfigBytes cfg htype hfile, List.foldl_cons, hstart, List.foldl_append,
    List.foldl_append]
  obtain ⟨hsource', hfile'⟩ := hfiles _ hnone
  obtain ⟨hsource'', hfile''⟩ := hrefresh ((fileLines cfg).foldl SourceState.next
    ((programLines cfg).foldl SourceState.next {}))
  exact ⟨hsource''.trans (hsource'.trans hsource), hfile''.trans hfile'⟩

end RoundTrip

theorem chomp_eq_nil {s : GoString} : chomp s = [] ↔ s = [] ∨ s = [Byte.newline] := by
  cases s with
  | nil => simp [chomp]
  | cons b s =>
    by_cases hs : s = []
    · subst hs
      by_cases hb : b = Byte.newline <;> simp [chomp, hb]
    · rw [chomp_cons hs]
      simp [hs]

def FileProg.run {α : Type} (files : GoString → Except GoError GoString) (p : FileProg α) :
    List GoString × α :=
  let r := Prog.run (fun _ => files) p []
  (r.1.map (·.op), r.2)

theorem run_readFile {α : Type} (files : GoString → Except GoError GoString) (path : GoString)
    (f : Except GoError GoString → α) :
    FileProg.run files (do let r ← readFile path; pure (f r)) = ([path], f (files path)) := rfl

/-- **The way of a program to its provider.** For every program, file path without newlines and
refresh interval, either provider gets back the program without one newline at its end; if nothing
is left of it, the content of the file, and only that file is read; and an error exactly if there
is no file either or it cannot be read. -/
theorem extractSource_methodConfigBytes (p : Provider) (program : GoString) {file : GoString}
    (hfile : Byte.newline ∉ file) (refresh : Duration)
    (files : GoString → Except GoError GoString) :
    let r := (p.extractSource (methodConfigBytes
      { type := p.typeName, program, file, refresh })).run files
    (chomp program ≠ [] → r = ([], .ok (chomp program))) ∧
    (program = [] ∨ program = [Byte.newline] → file ≠ [] → r.1 = [file] ∧
      ∀ src, r.2 = .ok src ↔ files file = .ok src) ∧
    ((∃ e, r.2 = .error e) ↔
      (program = [] ∨ program = [Byte.newline]) ∧ (file = [] ∨ ∃ e, files file = .error e)) := by
  have htype : Byte.newline ∉ p.typeName := by cases p <;> decide
  have hextract : ∀ raw, p.extractSource raw = sourceOf raw := by
    intro raw
    cases p <;> rfl
  obtain ⟨hsource, hpath⟩ := source_methodConfigBytes
    { type := p.typeName, program, file, refresh } htype hfile
  rw [hextract, sourceOf, hsource, hpath, ← chomp_eq_nil]
  dsimp only
  by_cases hprogram : chomp program = []
  · rw [if_neg (not_not.mpr hprogram)]
    by_cases hempty : file = []
    · rw [if_neg (not_not.mpr hempty)]
      exact ⟨fun h => absurd hprogram h, fun _ h => absurd hempty h,
        fun _ => ⟨hprogram, .inl hempty⟩, fun _ => ⟨_, rfl⟩⟩
    · rw [if_pos hempty]
      rw [run_readFile]
      refine ⟨fun h => absurd hprogram h, ?_, ?_⟩
      · intro _ _
        cases files file <;> simp [Except.mapError]
      · cases files file <;> simp [Except.mapError, hprogram, hempty]
  · rw [if_pos hprogram]
    refine ⟨fun _ => rfl, fun h => absurd h hprogram, ?_, fun h => absurd h.1 hprogram⟩
    rintro ⟨e, he⟩
    cases he

theorem extractSource_methodConfigBytes_inline :
    let r := (Provider.expr.extractSource (methodConfigBytes
      { type := str "expr", program := str "a\n\n  file: x\n", file := str "/p",
        refresh := 30000000000 })).run fun _ => .error ⟨[]⟩
    r = ([], .ok (str "a\n\n  file: x")) := by
  have hfile : Byte.newline ∉ str "/p" := by decide
  exact (extractSource_methodConfigBytes .expr (str "a\n\n  file: x\n") hfile 30000000000
    fun _ => .error ⟨[]⟩).1 (by decide)

end TrinoGoway.Engine
