import TrinoGoway.ClusterStats.UiApi

/-! Whose session a request goes out with. The login is made for one backend and kept for all, so
a backend gets its own session as long as the calls that share one are for it, and nobody is on
the way with it when it is dropped. -/
namespace TrinoGoway.UiApi

open Go
open Monitor (Backend)

variable {retries : ℤ} {s s' : State} {k : ℕ} {c : Call} {url : GoString} {jar : Jar}
  {log : List Event} {e : Event}

/-- The login form has been posted to a backend since the last drop. -/
def Posted (url : GoString) (jar : Jar) : List Event → Prop
  | [] | .drop :: _ => False
  | e :: log => e = .post url jar ∨ Posted url jar log

/-- A login posted to a backend since the last drop has been answered, into this jar. -/
def LoggedIn (url : GoString) (jar : Jar) : List Event → Prop
  | [] | .drop :: _ => False
  | e :: log => e = .login url jar ∧ Posted url jar log ∨ LoggedIn url jar log

/-- Each GET has gone out with the jar of a login to its backend, made since the last drop. -/
def Authentic : List Event → Prop
  | [] => True
  | .get url _ jar :: log => (∃ j, jar = some j ∧ LoggedIn url j log) ∧ Authentic log
  | _ :: log => Authentic log

theorem Posted.cons (h : Posted url jar log) (he : e ≠ .drop) : Posted url jar (e :: log) := by
  cases e with
  | drop => exact absurd rfl he
  | _ => exact Or.inr h

theorem LoggedIn.cons (h : LoggedIn url jar log) (he : e ≠ .drop) :
    LoggedIn url jar (e :: log) := by
  cases e with
  | drop => exact absurd rfl he
  | _ => exact Or.inr h

def Phase.MayGet : Phase → Prop
  | .fetching _ | .sending _ _ _ | .awaiting _ _ _ | .answered .stats _ => True
  | _ => False

/-- A call that finds a session is for the backend it was made for; and when an answer drops the
session, its own call has no further GET to send, and no other call has. -/
def Undivided (s : State) : Action → Prop
  | .ensureLogin k _ => ∀ c jar, s.calls[k]? = some c → s.jar = some jar →
      jar.host = c.backend.url
  | .settle k => ∀ c target answer, s.calls[k]? = some c → c.phase = .answered target answer →
      answer.status = 401 → (target = .stats → answer.stats = none) ∧
        ∀ j d, j ≠ k → s.calls[j]? = some d → ¬ d.phase.MayGet
  | _ => True

/-- What a call has, by its phase, of the session it goes out with. -/
def Phase.Fits (session : Option Jar) (url : GoString) : Phase → Prop
  | .loggingIn jar => session = none ∧ jar.host = url
  | .fetching _ | .answered .stats _ => ∃ jar, session = some jar ∧ jar.host = url
  | .sending _ jar _ | .awaiting _ jar _ =>
    jar = session ∧ ∃ jar, session = some jar ∧ jar.host = url
  | .entered | .answered .queued _ | .returned => True

theorem Phase.Fits.answered {session : Option Jar} {target : Target} {answer : Answer}
    (h : ∃ jar, session = some jar ∧ jar.host = url) :
    (Phase.answered target answer).Fits session url := by
  cases target with
  | stats => exact h
  | queued => trivial

theorem Phase.Fits.not_mayGet {phase : Phase} (h : phase.Fits none url) : ¬ phase.MayGet := by
  intro hmay
  cases phase with
  | entered | loggingIn | returned => cases hmay
  | fetching | sending | awaiting => simp [Phase.Fits] at h
  | answered target =>
    cases target with
    | stats => simp [Phase.Fits] at h
    | queued => cases hmay

theorem Phase.fits_of_not_mayGet {phase : Phase} {session : Option Jar} (h : ¬ phase.MayGet)
    (hlogging : ∀ jar, phase ≠ .loggingIn jar) : phase.Fits session url := by
  cases phase with
  | loggingIn jar => exact absurd rfl (hlogging jar)
  | entered | returned => trivial
  | fetching | sending | awaiting => exact absurd trivial h
  | answered target =>
    cases target with
    | stats => exact absurd trivial h
    | queued => trivial

structure Inv (s : State) : Prop where
  both : s.loggedIn = s.jar.isSome
  session : ∀ jar, s.jar = some jar → LoggedIn jar.host jar s.log
  fits : ∀ (k : ℕ) (c : Call), s.calls[k]? = some c → c.phase.Fits s.jar c.backend.url
  logging : ∀ (k : ℕ) (c : Call) (jar : Jar), s.calls[k]? = some c → c.phase = .loggingIn jar →
    s.mu = some k ∧ Posted c.backend.url jar s.log
  authentic : Authentic s.log

theorem inv_init : Inv init := by
  constructor
  · rfl
  · intro jar hjar
    cases hjar
  · intro k c hc
    simp [init] at hc
  · intro k c jar hc
    simp [init] at hc
  · trivial

theorem Inv.fits_of_phase {phase : Phase} (h : Inv s) (hc : s.calls[k]? = some c)
    (hphase : c.phase = phase) : phase.Fits s.jar c.backend.url :=
  hphase ▸ h.fits k c hc

/-- Only the holder of the mutex is logging in. -/
theorem Inv.not_logging (h : Inv s) (hmu : s.mu ≠ some k) (hc : s.calls[k]? = some c)
    (jar : Jar) : c.phase ≠ .loggingIn jar := by
  intro hlogging
  exact hmu (h.logging k c jar hc hlogging).1

theorem Inv.enter {phase : Phase} (h : Inv s) (hc : s.calls[k]? = some c) {c' : Call}
    (hbackend : c'.backend = c.backend) (hfits : phase.Fits s.jar c.backend.url)
    (hphase : ∀ jar, phase ≠ .loggingIn jar) : Inv (s.enter k c' phase) := by
  constructor
  · exact h.both
  · exact h.session
  · intro j d hd
    cases Machine.getElem?_set_eq_some hc hd with
    | inl hj =>
      rw [hj.2]
      show phase.Fits s.jar c'.backend.url
      rw [hbackend]
      exact hfits
    | inr hj => exact h.fits j d hj.2
  · intro j d jar hd hlogging
    cases Machine.getElem?_set_eq_some hc hd with
    | inl hj =>
      rw [hj.2] at hlogging
      exact absurd hlogging (hphase jar)
    | inr hj => exact h.logging j d jar hj.2 hlogging
  · exact h.authentic

theorem Inv.record (h : Inv s) (he : e ≠ .drop) (hauthentic : Authentic (e :: s.log)) :
    Inv { s with log := e :: s.log } := by
  constructor
  · exact h.both
  · intro jar hjar
    exact (h.session jar hjar).cons he
  · exact h.fits
  · intro k c jar hc hlogging
    obtain ⟨hmu, hposted⟩ := h.logging k c jar hc hlogging
    exact ⟨hmu, hposted.cons he⟩
  · exact hauthentic

theorem Inv.collect (h : Inv s) (b : Backend) :
    Inv { s with calls := s.calls ++ [⟨b, statsBuilder b, .entered⟩] } := by
  constructor
  · exact h.both
  · exact h.session
  · intro j d hd
    cases Machine.getElem?_snoc_eq_some hd with
    | inl hd => exact h.fits j d hd
    | inr hd =>
      rw [hd]
      trivial
  · intro j d jar hd hlogging
    cases Machine.getElem?_snoc_eq_some hd with
    | inl hd => exact h.logging j d jar hd hlogging
    | inr hd =>
      rw [hd] at hlogging
      cases hlogging
  · exact h.authentic

theorem Inv.jar_eq_none (h : Inv s) (hnone : ¬ (s.loggedIn ∧ s.jar ≠ none)) : s.jar = none := by
  by_contra hjar
  have hlogged : s.loggedIn = true := by
    rw [h.both, Option.isSome_iff_ne_none]
    exact hjar
  exact hnone ⟨hlogged, hjar⟩

theorem Inv.post (h : Inv s) (hc : s.calls[k]? = some c) (hmu : s.mu = none)
    (hjar : s.jar = none) (n : ℕ) :
    Inv { s.enter k c (.loggingIn ⟨n, c.backend.url⟩) with
      mu := some k, jars := n + 1, log := .post c.backend.url ⟨n, c.backend.url⟩ :: s.log } := by
  constructor
  · exact h.both
  · intro jar hsome
    exact (h.session jar hsome).cons (by simp)
  · intro j d hd
    cases Machine.getElem?_set_eq_some hc hd with
    | inl hj =>
      rw [hj.2]
      exact ⟨hjar, rfl⟩
    | inr hj => exact h.fits j d hj.2
  · intro j d jar hd hlogging
    cases Machine.getElem?_set_eq_some hc hd with
    | inl hj =>
      rw [hj.2] at hlogging ⊢
      obtain rfl := Phase.loggingIn.inj hlogging
      exact ⟨congrArg some hj.1.symm, Or.inl rfl⟩
    | inr hj => exact absurd hlogging (h.not_logging (by simp [hmu]) hj.2 jar)
  · exact h.authentic

theorem Inv.login (h : Inv s) (hc : s.calls[k]? = some c) (hphase : c.phase = .loggingIn jar) :
    Inv { s.enter k c (.fetching .stats) with
      mu := none, jar := some jar, loggedIn := true,
      log := .login c.backend.url jar :: s.log } := by
  obtain ⟨hnone, hhost⟩ := h.fits_of_phase hc hphase
  obtain ⟨hmu, hposted⟩ := h.logging k c jar hc hphase
  have hheld : ∀ j ≠ k, s.mu ≠ some j := by
    intro j hj heq
    exact hj (Option.some.inj (heq.symm.trans hmu))
  constructor
  · rfl
  · intro jar' hsome
    obtain rfl := Option.some.inj hsome
    rw [hhost]
    exact Or.inl ⟨rfl, hposted⟩
  · intro j d hd
    cases Machine.getElem?_set_eq_some hc hd with
    | inl hj =>
      rw [hj.2]
      exact ⟨jar, rfl, hhost⟩
    | inr hj =>
      have hidle : ¬ d.phase.MayGet := Phase.Fits.not_mayGet (hnone ▸ h.fits j d hj.2)
      exact Phase.fits_of_not_mayGet hidle (h.not_logging (hheld j hj.1) hj.2)
  · intro j d jar' hd hlogging
    cases Machine.getElem?_set_eq_some hc hd with
    | inl hj =>
      rw [hj.2] at hlogging
      cases hlogging
    | inr hj => exact absurd hlogging (h.not_logging (hheld j hj.1) hj.2 jar')
  · exact h.authentic

theorem Inv.loginFailed (h : Inv s) (hc : s.calls[k]? = some c)
    (hphase : c.phase = .loggingIn jar) : Inv { s.enter k c .returned with mu := none } := by
  have hmu := (h.logging k c jar hc hphase).1
  have henter : Inv (s.enter k c .returned) := h.enter hc rfl trivial (by simp)
  constructor
  · exact henter.both
  · exact henter.session
  · exact henter.fits
  · intro j d jar' hd hlogging
    cases Machine.getElem?_set_eq_some hc hd with
    | inl hj =>
      rw [hj.2] at hlogging
      cases hlogging
    | inr hj =>
      have hheld := (h.logging j d jar' hj.2 hlogging).1
      exact absurd (Option.some.inj (hheld.symm.trans hmu)) hj.1
  · exact henter.authentic

theorem Inv.send {target : Target} {jar : Option Jar} {attempt : ℕ} (h : Inv s)
    (hc : s.calls[k]? = some c) (hphase : c.phase = .sending target jar attempt) :
    Inv { s.enter k c (.awaiting target jar attempt) with
      log := .get c.backend.url target jar :: s.log } := by
  have hfits := h.fits_of_phase hc hphase
  have henter : Inv (s.enter k c (.awaiting target jar attempt)) :=
    h.enter hc rfl hfits (by simp)
  obtain ⟨hsession, j, hj, hhost⟩ := hfits
  have hauthentic : Authentic (.get c.backend.url target jar :: s.log) := by
    refine ⟨⟨j, hsession.trans hj, ?_⟩, h.authentic⟩
    rw [← hhost]
    exact h.session j hj
  exact henter.record (by simp) hauthentic

theorem Inv.drop (h : Inv s) (hc : s.calls[k]? = some c) (hmu : s.mu = none)
    (hothers : ∀ (j : ℕ) (d : Call), j ≠ k → s.calls[j]? = some d → ¬ d.phase.MayGet)
    (c' : Call) : Inv (s.invalidateSession.enter k c' .returned) := by
  constructor
  · rfl
  · intro jar hsome
    cases hsome
  · intro j d hd
    cases Machine.getElem?_set_eq_some hc hd with
    | inl hj =>
      rw [hj.2]
      trivial
    | inr hj =>
      exact Phase.fits_of_not_mayGet (hothers j d hj.1 hj.2) (h.not_logging (by simp [hmu]) hj.2)
  · intro j d jar hd hlogging
    cases Machine.getElem?_set_eq_some hc hd with
    | inl hj =>
      rw [hj.2] at hlogging
      cases hlogging
    | inr hj => exact absurd hlogging (h.not_logging (by simp [hmu]) hj.2 jar)
  · exact h.authentic

theorem Inv.proceed {target : Target} {answer : Answer} (h : Inv s) (hc : s.calls[k]? = some c)
    (hphase : c.phase = .answered target answer) : Inv (s.proceed k c answer target) := by
  have hfits := h.fits_of_phase hc hphase
  cases target with
  | stats =>
    cases hstats : answer.stats with
    | some stats =>
      simp only [State.proceed, hstats]
      exact h.enter hc rfl hfits (by simp)
    | none =>
      simp only [State.proceed, hstats]
      exact h.enter hc rfl trivial (by simp)
  | queued =>
    simp only [State.proceed]
    split
    · exact h.enter hc rfl trivial (by simp)
    · exact h.enter hc rfl trivial (by simp)

/-- A call that has no further GET to send returns. -/
theorem proceed_eq_returned {target : Target} {answer : Answer}
    (h : target = .stats → answer.stats = none) :
    ∃ c', s.proceed k c answer target = s.enter k c' .returned := by
  cases target with
  | stats =>
    simp only [State.proceed, h rfl]
    exact ⟨c, rfl⟩
  | queued =>
    simp only [State.proceed]
    split
    · exact ⟨_, rfl⟩
    · exact ⟨_, rfl⟩

theorem inv_step {a : Action} (h : Inv s) (hok : Undivided s a)
    (hstep : step retries s a = some s') : Inv s' := by
  cases does_of_step hstep with
  | collect b => exact h.collect b
  | reuse made hc hjar =>
    obtain ⟨jar, hjar⟩ := Option.ne_none_iff_exists'.mp hjar
    exact h.enter hc rfl ⟨jar, hjar, hok _ jar hc hjar⟩ (by simp)
  | post hc hmu hnone => exact h.post hc hmu (h.jar_eq_none hnone) s.jars
  | unmade hc => exact h.enter hc rfl trivial (by simp)
  | login hc hphase => exact h.login hc hphase
  | loginFailed hc hphase => exact h.loginFailed hc hphase
  | load hc hphase => exact h.enter hc rfl ⟨rfl, h.fits_of_phase hc hphase⟩ (by simp)
  | send hc hphase => exact h.send hc hphase
  | retry waited hc hphase =>
    have hfits := h.fits_of_phase hc hphase
    exact h.enter hc rfl hfits (by simp)
  | giveUp made hc hphase | failed waited hc hphase | answer answer hc hphase =>
    exact h.enter hc rfl (.answered (h.fits_of_phase hc hphase).2) (by simp)
  | proceed hc hphase => exact h.proceed hc hphase
  | unauthorized hc hphase hstatus hmu =>
    obtain ⟨hlast, hothers⟩ := hok _ _ _ hc hphase hstatus
    obtain ⟨c', hreturned⟩ := proceed_eq_returned hlast
    rw [hreturned]
    exact h.drop hc hmu hothers c'

/-- Along a run in which the calls that share a session are for one backend, and a drop finds no
call that has a GET to send, every GET goes out with a session of its own backend. -/
theorem sessions_belong {as : List Action}
    (hok : Machine.Meets (step retries) Undivided init as)
    (hrun : Machine.run (step retries) init as = some s) : Authentic s.log := by
  have h : Inv s := Machine.run_invariant_of_meets (fun _ _ _ => inv_step) inv_init hok hrun
  exact h.authentic

def clusterA : Backend := ⟨str "a", str "http://a", [], str "adhoc"⟩
def clusterB : Backend := ⟨str "b", str "http://b", [], str "adhoc"⟩

def jarA : Jar := ⟨0, clusterA.url⟩

def jarB : Jar := ⟨1, clusterB.url⟩

/-- A call is told that its session has expired, then two calls for another backend share one. -/
def twoSessions : List Action :=
  [.collect clusterA, .ensureLogin 0 true, .loginDone 0 true, .load 0, .send 0 true,
    .answer 0 ⟨401, none, none⟩, .settle 0, .collect clusterB, .collect clusterB,
    .ensureLogin 1 true, .loginDone 1 true, .ensureLogin 2 true, .load 2, .load 1, .send 1 true,
    .send 2 true]

def twoSessionsLog : List Event :=
  [.get clusterB.url .stats (some jarB), .get clusterB.url .stats (some jarB),
    .login clusterB.url jarB, .post clusterB.url jarB, .drop, .get clusterA.url .stats (some jarA),
    .login clusterA.url jarA, .post clusterA.url jarA]

def afterTwoSessions : State :=
  ⟨none, some jarB, true, 2,
    [⟨clusterA, statsBuilder clusterA, .returned⟩,
      ⟨clusterB, statsBuilder clusterB, .awaiting .stats (some jarB) 0⟩,
      ⟨clusterB, statsBuilder clusterB, .awaiting .stats (some jarB) 0⟩], twoSessionsLog⟩

theorem sessions_belong_two_sessions :
    Machine.run (step 0) init twoSessions = some afterTwoSessions ∧ Authentic twoSessionsLog := by
  have hrun : Machine.run (step 0) init twoSessions = some afterTwoSessions := by decide
  have hnone {s : State} {k : ℕ} {made : Bool} (h : s.jar = none) :
      Undivided s (.ensureLogin k made) := by
    intro c jar _ hjar
    rw [h] at hjar
    cases hjar
  have hok : Machine.Meets (step 0) Undivided init twoSessions := by
    refine Machine.meets_cons trivial rfl (Machine.meets_cons (hnone rfl) rfl ?_)
    refine Machine.meets_cons trivial rfl (Machine.meets_cons trivial rfl ?_)
    refine Machine.meets_cons trivial rfl (Machine.meets_cons trivial rfl ?_)
    refine Machine.meets_cons ?_ rfl (Machine.meets_cons trivial rfl ?_)
    · -- the answer that drops the session of the first call
      intro c target answer hc hphase _
      obtain rfl := Option.some.inj hc
      cases hphase
      refine ⟨fun _ => rfl, ?_⟩
      intro j d hj hd
      obtain ⟨i, rfl⟩ := Nat.exists_eq_succ_of_ne_zero hj
      cases hd
    refine Machine.meets_cons trivial rfl (Machine.meets_cons (hnone rfl) rfl ?_)
    refine Machine.meets_cons trivial rfl (Machine.meets_cons ?_ rfl ?_)
    · -- the second call for the other backend finds the session of the first
      intro c jar hc hjar
      obtain rfl := Option.some.inj hc
      obtain rfl := Option.some.inj hjar
      rfl
    exact Machine.meets_of_forall_mem (by simp [Undivided])
  exact ⟨hrun, sessions_belong hok hrun⟩

/-- A call for another backend finds the session of the first. -/
def secondBackend : List Action :=
  [.collect clusterA, .ensureLogin 0 true, .loginDone 0 true,
    .collect clusterB, .ensureLogin 1 true, .load 1, .send 1 true]

def secondBackendLog : List Event :=
  [.get clusterB.url .stats (some jarA), .login clusterA.url jarA, .post clusterA.url jarA]

/-- It sends its GET without a login, with a jar that has nothing for it. -/
theorem second_backend_without_login :
    (Machine.run (step 0) init secondBackend).map State.log = some secondBackendLog ∧
      ¬ Authentic secondBackendLog := by
  refine ⟨by decide, ?_⟩
  rintro ⟨⟨jar, hjar, hlogin⟩, _⟩
  have hnever : clusterA.url ≠ clusterB.url := by decide
  simp [LoggedIn, hnever] at hlogin

end TrinoGoway.UiApi
