import TrinoGoway.Lib.Machine
import TrinoGoway.Lib.Sync
import TrinoGoway.Routing.Router

/-! `headProbeFanOut` with its goroutines: the caller, one probe for each backend, and the closer,
over a buffered channel and a wait group. -/
namespace TrinoGoway.Routing.Probes

open Go Sync

/-! ### One probe -/

def probeURL (baseURL queryID : GoString) : GoString := baseURL ++ str "/v1/query/" ++ queryID

/-- `net/url` takes the letters, digits and signs before the first colon for the scheme. -/
def getScheme (rawURL : GoString) : GoString :=
  match cut Byte.colon rawURL with
  | (scheme, some _) =>
    if (scheme.head?.any Byte.isAlpha) &&
        scheme.all fun c => Byte.isAlpha c || Byte.isDigit c || (str "+-.").contains c then scheme
    else []
  | (_, none) => []

def sendable (baseURL queryID : GoString) : Bool := getScheme (probeURL baseURL queryID) ≠ []

theorem ne_nil_of_sendable {baseURL queryID : GoString} (h : sendable baseURL queryID) :
    baseURL ≠ [] := by
  rintro rfl
  have hslash : ∃ rest, probeURL [] queryID = Byte.slash :: rest := ⟨_, rfl⟩
  obtain ⟨rest, hrest⟩ := hslash
  have hcut : ∃ l r, cut Byte.colon (Byte.slash :: rest) = (Byte.slash :: l, r) := by
    unfold cut
    rw [List.span_eq_takeWhile_dropWhile]
    have htake : List.takeWhile (· != Byte.colon) (Byte.slash :: rest) =
        Byte.slash :: List.takeWhile (· != Byte.colon) rest :=
      List.takeWhile_cons_of_pos (by decide)
    rw [htake]
    split
    · rename_i l hl
      exact ⟨_, _, by rw [← (Prod.mk.inj hl).1]⟩
    · rename_i l c r hl
      exact ⟨_, _, by rw [← (Prod.mk.inj hl).1]⟩
  obtain ⟨l, r, hcut⟩ := hcut
  have hletter : Byte.isAlpha Byte.slash = false := by decide
  unfold sendable getScheme at h
  rw [hrest, hcut] at h
  cases r with
  | none => simp at h
  | some r => simp [hletter] at h

/-! ### The goroutines -/

/-- Where the caller is: before `wg.Add(1)` or `go` in the loop over the backends, before `go` for
the closer, in the loop over the channel, or returned. -/
inductive Main
  | adding (i : ℕ)
  | starting (i : ℕ)
  | closing
  | receiving
  | returned (url : GoString)

/-- Where a probe is; at the end it is known whether it has sent its URL. -/
inductive Probe
  | unborn
  | probing
  | sending
  /-- before the deferred `wg.Done()` -/
  | finishing (sent : Bool)
  | exited (sent : Bool)

inductive Closer
  | unborn
  | waiting
  | closing
  | exited
  deriving DecidableEq

structure State where
  main : Main
  probe : ℕ → Probe
  closer : Closer
  wg : ℕ
  ch : Chan GoString
  panicked : Bool

inductive Action
  | main
  /-- `probeOne` returns; it does once its context is done, and may at any time before -/
  | outcome (i : ℕ) (ok : Bool)
  | probe (i : ℕ)
  | closer

def init (urls : List GoString) : State :=
  ⟨.adding 0, fun _ => .unborn, .unborn, 0, .make urls.length, false⟩

def stepMain (urls : List GoString) (s : State) : Option State :=
  match s.main with
  | .adding i =>
    if i < urls.length then some { s with main := .starting i, wg := s.wg + 1 }
    else some { s with main := .closing }
  | .starting i =>
    some { s with main := .adding (i + 1), probe := Function.update s.probe i .probing }
  | .closing => some { s with main := .receiving, closer := .waiting }
  | .receiving =>
    match s.ch.recv with
    | .ok (some url, ch) =>
      if url ≠ [] then some { s with main := .returned url, ch } else some { s with ch }
    | .ok (none, ch) => some { s with main := .returned [], ch }
    | .blocked => none
    | .panic => some { s with panicked := true }
  | .returned _ => none

def stepOutcome (urls : List GoString) (queryID : GoString) (s : State) (i : ℕ) (ok : Bool) :
    Option State :=
  match s.probe i, urls[i]? with
  | .probing, some url =>
    if ok then
      if sendable url queryID then some { s with probe := Function.update s.probe i .sending }
      else none
    else some { s with probe := Function.update s.probe i (.finishing false) }
  | _, _ => none

def stepProbe (urls : List GoString) (s : State) (i : ℕ) : Option State :=
  match s.probe i, urls[i]? with
  | .sending, some url =>
    match s.ch.send url with
    | .ok ch => some { s with ch, probe := Function.update s.probe i (.finishing true) }
    | .blocked => none
    | .panic => some { s with panicked := true }
  | .finishing sent, some _ =>
    match s.wg with
    | 0 => some { s with panicked := true }
    | wg + 1 => some { s with wg, probe := Function.update s.probe i (.exited sent) }
  | _, _ => none

def stepCloser (s : State) : Option State :=
  match s.closer with
  | .waiting => if s.wg = 0 then some { s with closer := .closing } else none
  | .closing =>
    match s.ch.close with
    | .ok ch => some { s with ch, closer := .exited }
    | .blocked => none
    | .panic => some { s with panicked := true }
  | _ => none

def step (urls : List GoString) (queryID : GoString) (s : State) (a : Action) : Option State :=
  if s.panicked then none
  else
    match a with
    | .main => stepMain urls s
    | .outcome i ok => stepOutcome urls queryID s i ok
    | .probe i => stepProbe urls s i
    | .closer => stepCloser s

/-! ### Counts -/

def Main.started (n : ℕ) : Main → ℕ
  | adding i | starting i => i
  | _ => n

def Main.ahead : Main → ℕ
  | starting _ => 1
  | _ => 0

def Main.taken : Main → ℕ
  | returned url => if url = [] then 0 else 1
  | _ => 0

def Main.past : Main → Bool
  | receiving | returned _ => true
  | _ => false

def Probe.running : Probe → ℕ
  | probing | sending | finishing _ => 1
  | _ => 0

def Probe.sent : Probe → ℕ
  | finishing true | exited true => 1
  | _ => 0

def Probe.succeeded : Probe → Bool
  | sending | finishing true | exited true => true
  | _ => false

structure Inv (urls : List GoString) (s : State) : Prop where
  alive : s.panicked = false
  loop : s.main.started urls.length + s.main.ahead ≤ urls.length
  unborn : ∀ i, s.probe i = .unborn ↔ s.main.started urls.length ≤ i
  wg : s.wg = tally urls.length Probe.running s.probe + s.main.ahead
  closer : s.closer = .unborn ↔ s.main.past = false
  idle : s.closer = .closing ∨ s.closer = .exited → s.wg = 0
  closed : s.ch.closed = true ↔ s.closer = .exited
  cap : s.ch.cap = urls.length
  sent : s.ch.buf.length + s.main.taken = tally urls.length Probe.sent s.probe
  url : ∀ i, (s.probe i).succeeded → ∃ url, urls[i]? = some url ∧ url ≠ []
  buf : ∀ url ∈ s.ch.buf, ∃ i, (s.probe i).succeeded ∧ urls[i]? = some url
  empty : s.main = .returned [] → s.ch.buf = [] ∧ s.closer = .exited
  found : ∀ url, s.main = .returned url → url ≠ [] →
    ∃ i, (s.probe i).succeeded ∧ urls[i]? = some url

theorem inv_init (urls : List GoString) : Inv urls (init urls) := by
  have hzero : ∀ weight : Probe → ℕ, weight .unborn = 0 →
      tally urls.length weight (init urls).probe = 0 :=
    fun weight h => tally_eq_zero_iff.mpr fun _ _ => h
  constructor
  all_goals simp [init, Main.started, Main.ahead, Main.past, Main.taken, Chan.make]
  · exact (hzero _ rfl).symm
  · exact (hzero _ rfl).symm
  · simp [Probe.succeeded]

section Steps

variable {urls : List GoString} {queryID : GoString} {s s' : State} {i : ℕ}

theorem Inv.started_le (hs : Inv urls s) : s.main.started urls.length ≤ urls.length := by
  have hloop := hs.loop
  omega

theorem Inv.lt_length (hs : Inv urls s) (h : s.probe i ≠ .unborn) : i < urls.length := by
  have hstarted := hs.started_le
  have hborn := mt (hs.unborn i).mpr h
  omega

theorem Inv.wg_closer (hs : Inv urls s) (h : s.main.past = false) :
    ¬ (s.closer = .closing ∨ s.closer = .exited) := by
  rw [hs.closer.mpr h]
  simp

theorem Inv.advance (hs : Inv urls s) {main : Main} {wg : ℕ} (hpast : s.main.past = false)
    (hpast' : main.past = false) (hloop : main.started urls.length + main.ahead ≤ urls.length)
    (hstarted : main.started urls.length = s.main.started urls.length)
    (hwg : wg + s.main.ahead = s.wg + main.ahead) : Inv urls { s with main, wg } := by
  have htaken : ∀ m : Main, m.past = false → m.taken = 0 := by
    intro m hm
    cases m <;> first | rfl | cases hm
  have hnot : ∀ url, main ≠ .returned url := by
    rintro url rfl
    cases hpast'
  have hcount := hs.wg
  have hsent := hs.sent
  rw [htaken _ hpast] at hsent
  exact { hs with
    loop := hloop
    unborn := by rw [hstarted]; exact hs.unborn
    wg := by
      change wg = tally urls.length Probe.running s.probe + main.ahead
      omega
    closer := ⟨fun _ => hpast', fun _ => hs.closer.mpr hpast⟩
    idle := fun hc => absurd hc (hs.wg_closer hpast)
    sent := by rw [htaken _ hpast']; exact hsent
    empty := fun hmain => absurd hmain (hnot _)
    found := fun url hmain => absurd hmain (hnot url) }

theorem succeeded_update {p : Probe} (hmono : (s.probe i).succeeded → p.succeeded) {j : ℕ}
    (h : (s.probe j).succeeded) : (Function.update s.probe i p j).succeeded := by
  by_cases hj : j = i
  · subst hj
    rw [Function.update_self]
    exact hmono h
  · rw [Function.update_of_ne hj]
    exact h

/-- While a probe runs, the closer waits and the channel is open. -/
theorem Inv.open_of_running (hs : Inv urls s) (hrun : (s.probe i).running ≠ 0) :
    s.wg ≠ 0 ∧ ¬ (s.closer = .closing ∨ s.closer = .exited) ∧ s.ch.closed = false := by
  have hi : i < urls.length := by
    apply hs.lt_length
    intro hunborn
    rw [hunborn] at hrun
    exact hrun rfl
  have htally : tally urls.length Probe.running s.probe ≠ 0 :=
    fun hzero => hrun (tally_eq_zero_iff.mp hzero i hi)
  have hcount := hs.wg
  have hwg : s.wg ≠ 0 := by omega
  have hcloser := mt hs.idle hwg
  refine ⟨hwg, hcloser, ?_⟩
  rw [Bool.eq_false_iff, Ne, hs.closed]
  exact fun hexited => hcloser (Or.inr hexited)

theorem Inv.move (hs : Inv urls s) (p : Probe) (wg : ℕ) (ch : Chan GoString)
    (hrun : (s.probe i).running = 1) (hp : p ≠ .unborn) (hwg : wg + 1 = s.wg + p.running)
    (hcap : ch.cap = s.ch.cap) (hclosed : ch.closed = s.ch.closed)
    (hsent : ch.buf.length + (s.probe i).sent = s.ch.buf.length + p.sent)
    (hmono : (s.probe i).succeeded → p.succeeded)
    (hurl : p.succeeded → ∃ url, urls[i]? = some url ∧ url ≠ [])
    (hbuf : ∀ url ∈ ch.buf, url ∈ s.ch.buf ∨ (p.succeeded ∧ urls[i]? = some url)) :
    Inv urls { s with probe := Function.update s.probe i p, wg, ch } := by
  obtain ⟨-, hcloser, -⟩ := hs.open_of_running (i := i) (by omega)
  have hborn : s.probe i ≠ .unborn := by
    intro hunborn
    rw [hunborn] at hrun
    cases hrun
  have hi := hs.lt_length hborn
  have hrunning : _ + (s.probe i).running = _ := tally_update Probe.running hi p
  have hcount : _ + (s.probe i).sent = _ := tally_update Probe.sent hi p
  have hold := hs.wg
  have holdSent := hs.sent
  exact { hs with
    unborn := fun j => by
      by_cases hj : j = i
      · subst hj
        have hstarted := mt (hs.unborn j).mpr hborn
        simp only [Function.update_self]
        exact ⟨fun h => absurd h hp, fun h => absurd h hstarted⟩
      · simp only [Function.update_of_ne hj]
        exact hs.unborn j
    wg := by
      change wg = tally urls.length Probe.running (Function.update s.probe i p) + s.main.ahead
      omega
    idle := fun hc => absurd hc hcloser
    closed := by rw [hclosed]; exact hs.closed
    cap := by rw [hcap]; exact hs.cap
    sent := by
      change ch.buf.length + s.main.taken =
        tally urls.length Probe.sent (Function.update s.probe i p)
      omega
    url := fun j hj => by
      by_cases hji : j = i
      · subst hji
        simp only [Function.update_self] at hj
        exact hurl hj
      · simp only [Function.update_of_ne hji] at hj
        exact hs.url j hj
    buf := fun url hmem => by
      rcases hbuf url hmem with hmem | ⟨hsucc, hat⟩
      · obtain ⟨j, hj, hat⟩ := hs.buf url hmem
        exact ⟨j, succeeded_update hmono hj, hat⟩
      · exact ⟨i, by simpa using hsucc, hat⟩
    empty := fun hmain => absurd (Or.inr (hs.empty hmain).2) hcloser
    found := fun url hmain hne => by
      obtain ⟨j, hj, hat⟩ := hs.found url hmain hne
      exact ⟨j, succeeded_update hmono hj, hat⟩ }

/-- A send goes through: the buffer has room for every probe. -/
theorem Inv.send_ok (hs : Inv urls s) (hprobe : s.probe i = .sending) (url : GoString) :
    s.ch.send url = .ok { s.ch with buf := s.ch.buf ++ [url] } := by
  obtain ⟨-, -, hopen⟩ := hs.open_of_running (i := i) (by rw [hprobe]; exact Nat.one_ne_zero)
  have hi := hs.lt_length (i := i) (by rw [hprobe]; nofun)
  have hle : ∀ p : Probe, p.sent ≤ 1 := by
    intro p
    unfold Probe.sent
    split <;> omega
  have hzero : (s.probe i).sent = 0 := by rw [hprobe]; rfl
  have hroom := tally_lt hi hle hzero
  have hsent := hs.sent
  refine Chan.send_eq_ok hopen ?_ url
  rw [hs.cap]
  omega

theorem Inv.not_closed (hs : Inv urls s) (h : s.closer ≠ .exited) : s.ch.closed = false := by
  rw [Bool.eq_false_iff, Ne, hs.closed]
  exact h

theorem Inv.ne_nil_of_mem (hs : Inv urls s) {url : GoString} (h : url ∈ s.ch.buf) : url ≠ [] := by
  obtain ⟨j, hj, hat⟩ := hs.buf url h
  obtain ⟨u, hu, hne⟩ := hs.url j hj
  rw [hat] at hu
  rw [Option.some.inj hu]
  exact hne

/-! ### What a step can do -/

inductive Does (urls : List GoString) (queryID : GoString) (s : State) : Action → State → Prop
  | add {i : ℕ} (hmain : s.main = .adding i) (hi : i < urls.length) :
      Does urls queryID s .main { s with main := .starting i, wg := s.wg + 1 }
  | endLoop (hmain : s.main = .adding urls.length) :
      Does urls queryID s .main { s with main := .closing }
  | start {i : ℕ} (hmain : s.main = .starting i) :
      Does urls queryID s .main
        { s with main := .adding (i + 1), probe := Function.update s.probe i .probing }
  | startCloser (hmain : s.main = .closing) :
      Does urls queryID s .main { s with main := .receiving, closer := .waiting }
  | take {url : GoString} {rest : List GoString} (hmain : s.main = .receiving)
      (hbuf : s.ch.buf = url :: rest) :
      Does urls queryID s .main { s with main := .returned url, ch := { s.ch with buf := rest } }
  | leave (hmain : s.main = .receiving) (hbuf : s.ch.buf = []) (hclosed : s.ch.closed) :
      Does urls queryID s .main { s with main := .returned [] }
  | succeed {i : ℕ} {url : GoString} (hprobe : s.probe i = .probing) (hat : urls[i]? = some url)
      (hsend : sendable url queryID) :
      Does urls queryID s (.outcome i true)
        { s with probe := Function.update s.probe i .sending }
  | fail {i : ℕ} (hprobe : s.probe i = .probing) :
      Does urls queryID s (.outcome i false)
        { s with probe := Function.update s.probe i (.finishing false) }
  | send {i : ℕ} {url : GoString} (hprobe : s.probe i = .sending) (hat : urls[i]? = some url) :
      Does urls queryID s (.probe i)
        { s with
          ch := { s.ch with buf := s.ch.buf ++ [url] }
          probe := Function.update s.probe i (.finishing true) }
  | done {i wg : ℕ} {sent : Bool} (hprobe : s.probe i = .finishing sent) (hwg : s.wg = wg + 1) :
      Does urls queryID s (.probe i)
        { s with wg, probe := Function.update s.probe i (.exited sent) }
  | wake (hcloser : s.closer = .waiting) (hwg : s.wg = 0) :
      Does urls queryID s .closer { s with closer := .closing }
  | close (hcloser : s.closer = .closing) :
      Does urls queryID s .closer { s with ch := { s.ch with closed := true }, closer := .exited }

theorem does_stepMain (hs : Inv urls s) (h : stepMain urls s = some s') :
    Does urls queryID s .main s' := by
  unfold stepMain at h
  split at h
  · rename_i i hmain
    have hloop := hs.loop
    rw [hmain] at hloop
    simp only [Main.started, Main.ahead] at hloop
    split at h
    · obtain rfl := Option.some.inj h
      exact .add hmain (by assumption)
    · obtain rfl := Option.some.inj h
      obtain rfl : i = urls.length := by omega
      exact .endLoop hmain
  · rename_i i hmain
    obtain rfl := Option.some.inj h
    exact .start hmain
  · rename_i hmain
    obtain rfl := Option.some.inj h
    exact .startCloser hmain
  · rename_i hmain
    unfold Chan.recv at h
    cases hbuf : s.ch.buf with
    | cons url rest =>
      have hmem : url ∈ s.ch.buf := by rw [hbuf]; exact List.mem_cons_self
      have hne := hs.ne_nil_of_mem hmem
      simp only [hbuf, if_pos hne] at h
      obtain rfl := Option.some.inj h
      exact .take hmain hbuf
    | nil =>
      cases hclosed : s.ch.closed with
      | true =>
        simp only [hbuf, hclosed] at h
        obtain rfl := Option.some.inj h
        exact .leave hmain hbuf hclosed
      | false => simp [hbuf, hclosed] at h
  · cases h

theorem does_stepOutcome {ok : Bool} (h : stepOutcome urls queryID s i ok = some s') :
    Does urls queryID s (.outcome i ok) s' := by
  unfold stepOutcome at h
  split at h
  · rename_i url hprobe hat
    cases ok with
    | true =>
      obtain ⟨hsend, h⟩ := Option.ite_none_right_eq_some.mp h
      obtain rfl := Option.some.inj h
      exact .succeed hprobe hat hsend
    | false =>
      obtain rfl := Option.some.inj h
      exact .fail hprobe
  · cases h

theorem does_stepProbe (hs : Inv urls s) (h : stepProbe urls s i = some s') :
    Does urls queryID s (.probe i) s' := by
  unfold stepProbe at h
  split at h
  · rename_i url hprobe hat
    rw [hs.send_ok hprobe url] at h
    obtain rfl := Option.some.inj h
    exact .send hprobe hat
  · rename_i sent url hprobe hat
    obtain ⟨hwg, -, -⟩ := hs.open_of_running (i := i) (by rw [hprobe]; exact Nat.one_ne_zero)
    split at h
    · rename_i hzero
      exact absurd hzero hwg
    · rename_i wg hsucc
      obtain rfl := Option.some.inj h
      exact .done hprobe hsucc
  · cases h

theorem does_stepCloser (hs : Inv urls s) (h : stepCloser s = some s') :
    Does urls queryID s .closer s' := by
  unfold stepCloser at h
  split at h
  · rename_i hcloser
    obtain ⟨hzero, h⟩ := Option.ite_none_right_eq_some.mp h
    obtain rfl := Option.some.inj h
    exact .wake hcloser hzero
  · rename_i hcloser
    rw [Chan.close_eq_ok (hs.not_closed (by rw [hcloser]; nofun))] at h
    obtain rfl := Option.some.inj h
    exact .close hcloser
  · cases h

theorem does_step {a : Action} (hs : Inv urls s) (h : step urls queryID s a = some s') :
    Does urls queryID s a s' := by
  unfold step at h
  rw [hs.alive] at h
  cases a with
  | main => exact does_stepMain hs h
  | outcome i ok => exact does_stepOutcome h
  | probe i => exact does_stepProbe hs h
  | closer => exact does_stepCloser hs h

/-! ### The invariant -/

theorem Inv.start (hs : Inv urls s) (hmain : s.main = .starting i) :
    Inv urls { s with main := .adding (i + 1), probe := Function.update s.probe i .probing } := by
  have hloop := hs.loop
  have hwg := hs.wg
  have hsent := hs.sent
  have hunborn : s.probe i = .unborn := (hs.unborn i).mpr (by rw [hmain]; exact Nat.le_refl i)
  have hpast : s.main.past = false := by rw [hmain]; rfl
  rw [hmain] at hloop hwg hsent
  simp only [Main.started, Main.ahead, Main.taken] at hloop hwg hsent
  have hi : i < urls.length := by omega
  have hrunning : _ + (s.probe i).running = _ := tally_update Probe.running hi .probing
  have hcount : _ + (s.probe i).sent = _ := tally_update Probe.sent hi .probing
  rw [hunborn] at hrunning hcount
  simp only [Probe.running, Probe.sent] at hrunning hcount
  have hmono : (s.probe i).succeeded → Probe.probing.succeeded := by
    rw [hunborn]
    exact nofun
  exact { hs with
    loop := by
      change i + 1 + 0 ≤ urls.length
      omega
    unborn := fun j => by
      change Function.update s.probe i .probing j = .unborn ↔ i + 1 ≤ j
      by_cases hj : j = i
      · subst hj
        rw [Function.update_self]
        simp
      · rw [Function.update_of_ne hj, hs.unborn j, hmain]
        change i ≤ j ↔ i + 1 ≤ j
        omega
    wg := by
      change s.wg = tally urls.length Probe.running (Function.update s.probe i .probing) + 0
      omega
    closer := ⟨fun _ => rfl, fun _ => hs.closer.mpr hpast⟩
    sent := by
      change s.ch.buf.length + 0 = tally urls.length Probe.sent (Function.update s.probe i .probing)
      omega
    url := fun j hj => by
      by_cases hji : j = i
      · subst hji
        simp only [Function.update_self] at hj
        cases hj
      · simp only [Function.update_of_ne hji] at hj
        exact hs.url j hj
    buf := fun url hmem => by
      obtain ⟨j, hj, hat⟩ := hs.buf url hmem
      exact ⟨j, succeeded_update hmono hj, hat⟩
    empty := nofun
    found := nofun }

theorem Inv.take (hs : Inv urls s) (hmain : s.main = .receiving) {url : GoString}
    {rest : List GoString} (hbuf : s.ch.buf = url :: rest) :
    Inv urls { s with main := .returned url, ch := { s.ch with buf := rest } } := by
  have hmem : url ∈ s.ch.buf := by rw [hbuf]; exact List.mem_cons_self
  have hne := hs.ne_nil_of_mem hmem
  obtain ⟨j, hj, hat⟩ := hs.buf url hmem
  have hsent := hs.sent
  rw [hbuf, hmain] at hsent
  exact { hs with
    loop := Nat.le_refl _
    unborn := fun k => by rw [hs.unborn k, hmain]; rfl
    wg := by rw [hs.wg, hmain]; rfl
    closer := by rw [hs.closer, hmain]; rfl
    sent := by
      change rest.length + (if url = [] then 0 else 1) = _
      rw [if_neg hne]
      exact hsent
    buf := fun v hv => hs.buf v (by rw [hbuf]; exact List.mem_cons_of_mem _ hv)
    empty := fun h => absurd (Main.returned.inj h) hne
    found := fun v hv _ => ⟨j, hj, by rw [← Main.returned.inj hv]; exact hat⟩ }

theorem Inv.leave (hs : Inv urls s) (hmain : s.main = .receiving) (hbuf : s.ch.buf = [])
    (hclosed : s.ch.closed) : Inv urls { s with main := .returned [] } := by
  have hsent := hs.sent
  rw [hmain] at hsent
  exact { hs with
    loop := Nat.le_refl _
    unborn := fun k => by rw [hs.unborn k, hmain]; rfl
    wg := by rw [hs.wg, hmain]; rfl
    closer := by rw [hs.closer, hmain]; rfl
    sent := hsent
    empty := fun _ => ⟨hbuf, hs.closed.mp hclosed⟩
    found := fun v hv hne => absurd (Main.returned.inj hv).symm hne }

theorem Inv.startCloser (hs : Inv urls s) (hmain : s.main = .closing) :
    Inv urls { s with main := .receiving, closer := .waiting } := by
  have hsent := hs.sent
  have hopen : s.closer = .unborn := hs.closer.mpr (by rw [hmain]; rfl)
  rw [hmain] at hsent
  exact { hs with
    loop := Nat.le_refl _
    unborn := fun k => by rw [hs.unborn k, hmain]; rfl
    wg := by rw [hs.wg, hmain]; rfl
    closer := ⟨nofun, nofun⟩
    idle := nofun
    closed := by rw [hs.closed, hopen]; exact ⟨nofun, nofun⟩
    sent := hsent
    empty := nofun
    found := nofun }

theorem Inv.wake (hs : Inv urls s) (hcloser : s.closer = .waiting) (hwg : s.wg = 0) :
    Inv urls { s with closer := .closing } := by
  have hpast : s.main.past ≠ false := by
    rw [Ne, ← hs.closer, hcloser]
    nofun
  exact { hs with
    closer := ⟨nofun, fun hp => absurd hp hpast⟩
    idle := fun _ => hwg
    closed := by rw [hs.not_closed (by rw [hcloser]; nofun)]; exact ⟨nofun, nofun⟩
    empty := fun hmain => by
      have hexited := (hs.empty hmain).2
      rw [hcloser] at hexited
      cases hexited }

theorem Inv.close (hs : Inv urls s) (hcloser : s.closer = .closing) :
    Inv urls { s with ch := { s.ch with closed := true }, closer := .exited } := by
  have hpast : s.main.past ≠ false := by
    rw [Ne, ← hs.closer, hcloser]
    nofun
  exact { hs with
    closer := ⟨nofun, fun hp => absurd hp hpast⟩
    idle := fun _ => hs.idle (Or.inl hcloser)
    closed := ⟨fun _ => rfl, fun _ => rfl⟩
    empty := fun hmain => ⟨(hs.empty hmain).1, rfl⟩ }

theorem Inv.send (hs : Inv urls s) (hprobe : s.probe i = .sending) {url : GoString}
    (hat : urls[i]? = some url) :
    Inv urls { s with
      ch := { s.ch with buf := s.ch.buf ++ [url] }
      probe := Function.update s.probe i (.finishing true) } := by
  have hsucc : (s.probe i).succeeded := by rw [hprobe]; rfl
  refine hs.move (.finishing true) s.wg _ (by rw [hprobe]; rfl) nofun rfl rfl rfl ?_
    (fun _ => rfl) (fun _ => hs.url i hsucc) ?_
  · rw [hprobe, List.length_append]
    rfl
  · intro u hu
    rcases List.mem_append.mp hu with hu | hu
    · exact Or.inl hu
    · rw [List.mem_singleton.mp hu]
      exact Or.inr ⟨rfl, hat⟩

theorem Inv.done (hs : Inv urls s) {wg : ℕ} {sent : Bool} (hprobe : s.probe i = .finishing sent)
    (hwg : s.wg = wg + 1) :
    Inv urls { s with wg, probe := Function.update s.probe i (.exited sent) } := by
  have hsame : ∀ b : Bool, (Probe.exited b).sent = (Probe.finishing b).sent ∧
      (Probe.exited b).succeeded = (Probe.finishing b).succeeded := by
    intro b
    cases b <;> exact ⟨rfl, rfl⟩
  refine hs.move (.exited sent) wg s.ch (by rw [hprobe]; rfl) nofun ?_ rfl rfl ?_ ?_ ?_ ?_
  · rw [hwg]
    rfl
  · rw [hprobe, (hsame sent).1]
  · rw [hprobe, (hsame sent).2]
    exact id
  · rw [(hsame sent).2, ← hprobe]
    exact hs.url i
  · exact fun u hu => Or.inl hu

theorem inv_step {a : Action} (hs : Inv urls s) (h : step urls queryID s a = some s') :
    Inv urls s' := by
  cases does_step hs h with
  | add hmain hi =>
    refine hs.advance (by rw [hmain]; rfl) rfl ?_ (by rw [hmain]; rfl) (by rw [hmain]; rfl)
    simp only [Main.started, Main.ahead]
    omega
  | endLoop hmain =>
    refine hs.advance (by rw [hmain]; rfl) rfl ?_ ?_ (by rw [hmain]; rfl)
    · exact Nat.le_refl _
    · rw [hmain]
      rfl
  | start hmain => exact hs.start hmain
  | startCloser hmain => exact hs.startCloser hmain
  | take hmain hbuf => exact hs.take hmain hbuf
  | leave hmain hbuf hclosed => exact hs.leave hmain hbuf hclosed
  | @succeed i url hprobe hat hsend =>
    refine hs.move .sending s.wg s.ch (by rw [hprobe]; rfl) nofun rfl rfl rfl
      (by rw [hprobe]; rfl) (fun _ => rfl) ?_ ?_
    · exact fun _ => ⟨url, hat, ne_nil_of_sendable hsend⟩
    · exact fun u hu => Or.inl hu
  | @fail i hprobe =>
    refine hs.move (.finishing false) s.wg s.ch (by rw [hprobe]; rfl) nofun rfl rfl rfl
      (by rw [hprobe]; rfl) ?_ nofun ?_
    · rw [hprobe]
      exact nofun
    · exact fun u hu => Or.inl hu
  | send hprobe hat => exact hs.send hprobe hat
  | done hprobe hwg => exact hs.done hprobe hwg
  | wake hcloser hwg => exact hs.wake hcloser hwg
  | close hcloser => exact hs.close hcloser

theorem inv_run {as : List Action}
    (h : Machine.run (step urls queryID) (init urls) as = some s) : Inv urls s :=
  Machine.run_invariant (fun _ _ _ => inv_step) (inv_init urls) h

/-! ### What has happened, and what is left -/

def Main.rank (n : ℕ) : Main → ℕ
  | adding i => 2 * (n - i) + 3
  | starting i => 2 * (n - i) + 2
  | closing => 2
  | receiving => 1
  | returned _ => 0

def Probe.rank : Probe → ℕ
  | unborn | probing => 3
  | sending => 2
  | finishing _ => 1
  | exited _ => 0

def Closer.rank : Closer → ℕ
  | unborn | waiting => 2
  | closing => 1
  | exited => 0

def State.rank (n : ℕ) (s : State) : ℕ :=
  s.main.rank n + tally n Probe.rank s.probe + s.closer.rank

/-- A step brings the end nearer, and a probe succeeds by the outcome of its request alone. -/
structure Progress (n : ℕ) (s : State) (a : Action) (s' : State) : Prop where
  rank : s'.rank n < s.rank n
  succeeded : ∀ i, (s'.probe i).succeeded ↔ (s.probe i).succeeded ∨ a = .outcome i true

theorem Progress.of_probe_eq {n : ℕ} {a : Action} (hprobe : s'.probe = s.probe)
    (hrank : s'.main.rank n + s'.closer.rank < s.main.rank n + s.closer.rank)
    (ha : ∀ i ok, a ≠ .outcome i ok) : Progress n s a s' where
  rank := by
    unfold State.rank
    rw [hprobe]
    omega
  succeeded j := by simp [hprobe, ha]

theorem Progress.of_update {n : ℕ} {a : Action} {p : Probe} (hi : i < n)
    (hprobe : s'.probe = Function.update s.probe i p)
    (hrank : s'.main.rank n + p.rank + s'.closer.rank <
      s.main.rank n + (s.probe i).rank + s.closer.rank)
    (hat : p.succeeded ↔ (s.probe i).succeeded ∨ a = .outcome i true)
    (ha : ∀ j ok, a = .outcome j ok → j = i) : Progress n s a s' where
  rank := by
    have htally : _ + (s.probe i).rank = _ := tally_update Probe.rank hi p
    unfold State.rank
    rw [hprobe]
    omega
  succeeded j := by
    rw [hprobe]
    by_cases hj : j = i
    · subst hj
      rw [Function.update_self]
      exact hat
    · rw [Function.update_of_ne hj]
      have hother : a ≠ .outcome j true := fun h => hj (ha j true h)
      simp [hother]

theorem progress_step {a : Action} (hs : Inv urls s) (h : step urls queryID s a = some s') :
    Progress urls.length s a s' := by
  have hborn : ∀ j, s.probe j ≠ .unborn → j < urls.length := fun j => hs.lt_length
  cases does_step hs h with
  | add hmain hi =>
    refine .of_probe_eq rfl ?_ nofun
    simp only [hmain, Main.rank]
    omega
  | endLoop hmain =>
    refine .of_probe_eq rfl ?_ nofun
    simp only [hmain, Main.rank]
    omega
  | @start i hmain =>
    have hloop := hs.loop
    rw [hmain] at hloop
    simp only [Main.started, Main.ahead] at hloop
    have hunborn : s.probe i = .unborn := (hs.unborn i).mpr (by rw [hmain]; exact Nat.le_refl i)
    refine .of_update (i := i) (by omega) rfl ?_ ?_ nofun
    · simp only [hmain, hunborn, Main.rank, Probe.rank]
      omega
    · simp [hunborn, Probe.succeeded]
  | startCloser hmain =>
    have hopen : s.closer = .unborn := hs.closer.mpr (by rw [hmain]; rfl)
    refine .of_probe_eq rfl ?_ nofun
    simp only [hmain, hopen, Main.rank, Closer.rank]
    omega
  | take hmain hbuf =>
    refine .of_probe_eq rfl ?_ nofun
    simp only [hmain, Main.rank]
    omega
  | leave hmain hbuf hclosed =>
    refine .of_probe_eq rfl ?_ nofun
    simp only [hmain, Main.rank]
    omega
  | succeed hprobe hat hsend =>
    refine .of_update (hborn _ (by rw [hprobe]; nofun)) rfl ?_ (by simp [Probe.succeeded])
      fun _ _ h => (Action.outcome.inj h).1.symm
    simp only [hprobe, Probe.rank]
    omega
  | fail hprobe =>
    refine .of_update (hborn _ (by rw [hprobe]; nofun)) rfl ?_
      (by simp [hprobe, Probe.succeeded]) fun _ _ h => (Action.outcome.inj h).1.symm
    simp only [hprobe, Probe.rank]
    omega
  | send hprobe hat =>
    refine .of_update (hborn _ (by rw [hprobe]; nofun)) rfl ?_
      (by simp [hprobe, Probe.succeeded]) nofun
    simp only [hprobe, Probe.rank]
    omega
  | @done i wg sent hprobe hwg =>
    refine .of_update (hborn _ (by rw [hprobe]; nofun)) rfl ?_
      (by cases sent <;> simp [hprobe, Probe.succeeded]) nofun
    simp only [hprobe, Probe.rank]
    omega
  | wake hcloser hwg =>
    refine .of_probe_eq rfl ?_ nofun
    simp only [hcloser, Closer.rank]
    omega
  | close hcloser =>
    refine .of_probe_eq rfl ?_ nofun
    simp only [hcloser, Closer.rank]
    omega

/-! ### Runs -/

/-- The probes that have succeeded are those whose request got its answer in this run. -/
theorem succeeded_run {as : List Action}
    (h : Machine.run (step urls queryID) (init urls) as = some s) :
    (s.probe i).succeeded ↔ .outcome i true ∈ as := by
  induction as using List.reverseRecOn generalizing s with
  | nil =>
    obtain rfl := Option.some.inj h
    simp [init, Probe.succeeded]
  | append_singleton as a ih =>
    obtain ⟨s₁, hrun, hstep⟩ := Machine.run_snoc_eq_some.mp h
    rw [(progress_step (inv_run hrun) hstep).succeeded i, ih hrun]
    simp [eq_comm]

/-- A run of the call with `n` probes has at most `5 * n + 5` steps. -/
theorem length_run {as : List Action}
    (h : Machine.run (step urls queryID) (init urls) as = some s) :
    as.length + s.rank urls.length ≤ 5 * urls.length + 5 := by
  induction as using List.reverseRecOn generalizing s with
  | nil =>
    obtain rfl := Option.some.inj h
    have hprobes : tally urls.length Probe.rank (fun _ => .unborn) ≤ urls.length * 3 :=
      tally_le fun p => by cases p <;> simp [Probe.rank]
    simp only [init, State.rank, Main.rank, Closer.rank, List.length_nil]
    omega
  | append_singleton as a ih =>
    obtain ⟨s₁, hrun, hstep⟩ := Machine.run_snoc_eq_some.mp h
    have hrank := (progress_step (inv_run hrun) hstep).rank
    have hlen := ih hrun
    rw [List.length_append, List.length_singleton]
    omega

structure Ended (n : ℕ) (s : State) : Prop where
  main : ∃ url, s.main = .returned url
  probe : ∀ i < n, ∃ sent, s.probe i = .exited sent
  closer : s.closer = .exited

theorem exists_step_of_not_past (hs : Inv urls s) (h : s.main.past = false) :
    ∃ a s', step urls queryID s a = some s' := by
  refine ⟨.main, ?_⟩
  simp only [step, hs.alive, stepMain]
  cases hmain : s.main with
  | adding i => by_cases hi : i < urls.length <;> simp [hi]
  | starting i => simp
  | closing => simp
  | receiving | returned _ =>
    rw [hmain] at h
    cases h

theorem exists_step_of_running (hs : Inv urls s) (h : (s.probe i).running ≠ 0) :
    ∃ a s', step urls queryID s a = some s' := by
  have hi : i < urls.length := by
    apply hs.lt_length
    intro hunborn
    rw [hunborn] at h
    exact h rfl
  have hat : urls[i]? = some urls[i] := List.getElem?_eq_getElem hi
  cases hprobe : s.probe i with
  | probing => exact ⟨.outcome i false, by simp [step, hs.alive, stepOutcome, hprobe, hat]⟩
  | sending => exact ⟨.probe i, by simp [step, hs.alive, stepProbe, hprobe, hat, hs.send_ok hprobe]⟩
  | finishing sent =>
    obtain ⟨hwg, -, -⟩ := hs.open_of_running h
    obtain ⟨wg, hwg⟩ := Nat.exists_eq_succ_of_ne_zero hwg
    exact ⟨.probe i, by simp [step, hs.alive, stepProbe, hprobe, hat, hwg]⟩
  | unborn | exited _ =>
    rw [hprobe] at h
    exact absurd rfl h

/-- As long as a goroutine has not ended, some goroutine can make a step. -/
theorem exists_step (hs : Inv urls s) (h : ¬ Ended urls.length s) :
    ∃ a s', step urls queryID s a = some s' := by
  cases hpast : s.main.past with
  | false => exact exists_step_of_not_past hs hpast
  | true =>
    by_cases hrunning : ∃ i, (s.probe i).running ≠ 0
    · obtain ⟨i, hi⟩ := hrunning
      exact exists_step_of_running hs hi
    · have hidle : ∀ i, (s.probe i).running = 0 := fun i => by
        by_contra hi
        exact hrunning ⟨i, hi⟩
      have hmain : s.main.ahead = 0 ∧ s.main.started urls.length = urls.length := by
        cases hm : s.main <;> rw [hm] at hpast <;> first | exact ⟨rfl, rfl⟩ | cases hpast
      have hwg : s.wg = 0 := by
        rw [hs.wg, hmain.1, tally_eq_zero_iff.mpr fun i _ => hidle i]
      cases hcloser : s.closer with
      | unborn =>
        rw [hs.closer.mp hcloser] at hpast
        cases hpast
      | waiting => exact ⟨.closer, by simp [step, hs.alive, stepCloser, hcloser, hwg]⟩
      | closing =>
        have hopen : s.ch.closed = false := by
          rw [Bool.eq_false_iff, Ne, hs.closed, hcloser]
          nofun
        exact ⟨.closer, by simp [step, hs.alive, stepCloser, hcloser, Chan.close_eq_ok hopen]⟩
      | exited =>
        have hclosed := hs.closed.mpr hcloser
        cases hm : s.main with
        | receiving =>
          refine ⟨.main, ?_⟩
          cases hbuf : s.ch.buf with
          | nil => simp [step, hs.alive, stepMain, hm, Chan.recv, hbuf, hclosed]
          | cons url rest =>
            have hmem : url ∈ s.ch.buf := by rw [hbuf]; exact List.mem_cons_self
            have hne := hs.ne_nil_of_mem hmem
            simp [step, hs.alive, stepMain, hm, Chan.recv, hbuf, hne]
        | returned url =>
          refine absurd ⟨⟨url, hm⟩, fun i hi => ?_, hcloser⟩ h
          have hborn : s.probe i ≠ .unborn := by
            rw [Ne, hs.unborn, hmain.2]
            omega
          have hi0 := hidle i
          cases hprobe : s.probe i with
          | exited sent => exact ⟨sent, rfl⟩
          | unborn => exact absurd hprobe hborn
          | probing | sending | finishing _ =>
            rw [hprobe] at hi0
            cases hi0
        | adding i | starting i | closing =>
          rw [hm] at hpast
          cases hpast

theorem Inv.not_succeeded (hs : Inv urls s) (hmain : s.main = .returned []) :
    (s.probe i).succeeded = false := by
  obtain ⟨hbuf, hcloser⟩ := hs.empty hmain
  have hwg := hs.idle (Or.inr hcloser)
  have hcount := hs.wg
  have hsent := hs.sent
  rw [hbuf, hmain] at hsent
  have hrunning : tally urls.length Probe.running s.probe = 0 := by omega
  have hnone : tally urls.length Probe.sent s.probe = 0 := hsent.symm
  by_cases hi : i < urls.length
  · -- it has ended, and has not sent
    have hidle := tally_eq_zero_iff.mp hrunning i hi
    have hquiet := tally_eq_zero_iff.mp hnone i hi
    cases hprobe : s.probe i with
    | exited sent =>
      rw [hprobe] at hquiet
      cases sent with
      | true => cases hquiet
      | false => rfl
    | unborn => rfl
    | probing | sending | finishing _ =>
      rw [hprobe] at hidle
      cases hidle
  · have hunborn : s.probe i = .unborn := (hs.unborn i).mpr (by have := hs.started_le; omega)
    rw [hunborn]
    rfl

end Steps

/-- What the call returns in a run is what `headProbeFanOut` returns for some probes that answer. -/
theorem headProbeFanOut_runs (backends : List ActiveBackend) (queryID : GoString)
    {as : List Action} {s : State} {url : GoString}
    (h : Machine.run (step (backends.map (·.url)) queryID) (init (backends.map (·.url))) as =
      some s)
    (hmain : s.main = .returned url) :
    ∃ arrived, arrived.Subperm (backends.map (·.url)) ∧
      Prog.Runs (headProbeFanOut queryID backends)
        [⟨.headProbes (backends.map fun b => (b.url, probeURL b.url queryID)), arrived⟩] url := by
  by_cases hne : url = []
  · subst hne
    exact ⟨[], List.nil_subperm, .cons _ (.nil _)⟩
  · obtain ⟨i, -, hat⟩ := (inv_run h).found url hmain hne
    refine ⟨[url], List.singleton_subperm_iff.mpr (List.mem_of_getElem? hat), ?_⟩
    have hfind : ([url].find? (· ≠ [])).getD [] = url := by simp [hne]
    nth_rewrite 2 [← hfind]
    exact .cons _ (.nil _)

/-- **The fan-out of the probes.** In every run, for any backends and in any order and with any
outcome of the requests: nothing panics; the caller returns the URL of a backend whose request
succeeded in this call, and the empty string exactly if none did; no send blocks; as long as the
caller, a probe or the closer has not ended, one of them can make a step; and there are at most
`5 * n + 5` steps for `n` backends. -/
theorem fanOut_sound (urls : List GoString) (queryID : GoString) {as : List Action} {s : State}
    (h : Machine.run (step urls queryID) (init urls) as = some s) :
    s.panicked = false ∧
    (∀ url, s.main = .returned url → url ≠ [] →
      ∃ i, .outcome i true ∈ as ∧ urls[i]? = some url) ∧
    (∀ url, s.main = .returned url → (url = [] ↔ ∀ i, .outcome i true ∉ as)) ∧
    (∀ i, s.probe i = .sending → ∃ s', step urls queryID s (.probe i) = some s') ∧
    (¬ Ended urls.length s → ∃ a s', step urls queryID s a = some s') ∧
    as.length ≤ 5 * urls.length + 5 := by
  have hs := inv_run h
  refine ⟨hs.alive, ?_, ?_, ?_, exists_step hs, ?_⟩
  · intro url hmain hne
    obtain ⟨i, hi, hat⟩ := hs.found url hmain hne
    exact ⟨i, (succeeded_run h).mp hi, hat⟩
  · intro url hmain
    constructor
    · rintro rfl i hi
      have hnot := hs.not_succeeded (i := i) hmain
      rw [(succeeded_run h).mpr hi] at hnot
      cases hnot
    · intro hnone
      by_contra hne
      obtain ⟨i, hi, -⟩ := hs.found url hmain hne
      exact hnone i ((succeeded_run h).mp hi)
  · intro i hprobe
    have hi : i < urls.length := hs.lt_length (by rw [hprobe]; nofun)
    have hat : urls[i]? = some urls[i] := List.getElem?_eq_getElem hi
    exact ⟨_, by simp [step, hs.alive, stepProbe, hprobe, hat, hs.send_ok hprobe]; rfl⟩
  · have hlen := length_run h
    omega

/-- The second backend answers first, and the call returns; the first one answers after that. -/
theorem fanOut_sound_second :
    ∃ s, Machine.run (step [str "http://a", str "http://b"] (str "q"))
        (init [str "http://a", str "http://b"])
        [.main, .main, .main, .main, .main, .main, .outcome 1 true, .probe 1, .main, .probe 1,
          .outcome 0 true, .probe 0, .probe 0, .closer, .closer] = some s ∧
      s.main = .returned (str "http://b") ∧ Ended 2 s ∧ s.panicked = false := by
  have hrun : ∃ s, Machine.run (step [str "http://a", str "http://b"] (str "q"))
      (init [str "http://a", str "http://b"])
      [.main, .main, .main, .main, .main, .main, .outcome 1 true, .probe 1, .main, .probe 1,
        .outcome 0 true, .probe 0, .probe 0, .closer, .closer] = some s ∧
      s.main = .returned (str "http://b") ∧ s.probe 0 = .exited true ∧ s.probe 1 = .exited true ∧
      s.closer = .exited := ⟨_, rfl, rfl, rfl, rfl, rfl⟩
  obtain ⟨s, hs, hmain, hfirst, hsecond, hcloser⟩ := hrun
  refine ⟨s, hs, hmain, ⟨⟨_, hmain⟩, ?_, hcloser⟩, (fanOut_sound _ _ hs).1⟩
  intro i hi
  obtain rfl | rfl : i = 0 ∨ i = 1 := by omega
  · exact ⟨true, hfirst⟩
  · exact ⟨true, hsecond⟩

end TrinoGoway.Routing.Probes
