import TrinoGoway.Gateway.System
import TrinoGoway.Proxy.Calls

/-! What one statement request does, in order. -/
namespace TrinoGoway

open Go Go.Http Routing Prog

def Responded (h : List GwEvent) : Prop := ∃ e ∈ h, e.op.isResponse

/-- In the events `h` of the statement request `r`, backend `b` was selected and answered with a
body of permitted size that carries the query id `q`: a JSON object whose last text named `id` is
`q`, and in which every member named `id` or `nextUri` is a text or null. -/
def Exchanged (p : Proxy) (r : Request) (h : List GwEvent) (b q : GoString) : Prop :=
  Proxy.isStatement r = true ∧
    ∃ reqBody h₁ result upReq wire h₂ buf,
      r.body = .ok reqBody ∧
      h = h₁ ++ ⟨.roundTrip upReq, .ok wire⟩ :: h₂ ∧
      Runs (p.router.route (newRouteInput r reqBody)) h₁ (.ok result) ∧
      result.backendURL = b ∧
      Proxy.readLimited p.cfg.responseSize (Proxy.receive p.gunzip upReq wire).body = .ok buf ∧
      buf.length ≤ p.cfg.responseSize ∧
      Proxy.NamesID buf q

section Serve

variable (p : Proxy) (r : Request)

theorem serveHTTP_eq : p.serveHTTP r = p.dispatch r ∨
    ∃ msg, p.serveHTTP r = do Auth.writeUnauthorized msg; return .done := by
  unfold Proxy.serveHTTP
  cases p.auth with
  | none => exact Or.inl rfl
  | some a =>
    cases h : a.authenticate r with
    | error msg => exact Or.inr ⟨msg, by simp only [h]⟩
    | ok principal => exact Or.inl (by simp only [h])

theorem serveHTTP_authenticated
    (h : ∀ a, p.auth = some a → ∃ principal, a.authenticate r = .ok principal) :
    p.serveHTTP r = p.dispatch r := by
  unfold Proxy.serveHTTP
  cases ha : p.auth with
  | none => rfl
  | some a =>
    obtain ⟨principal, hprincipal⟩ := h a ha
    simp only [hprincipal]

theorem dispatch_statement (h : Proxy.isStatement r = true) :
    p.dispatch r = p.handleStatement r := by
  have hm : r.method = str "POST" := by
    unfold Proxy.isStatement at h
    simp only [Bool.and_eq_true, decide_eq_true_eq] at h
    exact h.1
  have hk : Proxy.knownMethods.contains r.method = true := by
    rw [hm]
    decide
  unfold Proxy.dispatch
  simp only [hk, h, Bool.not_true, Bool.false_eq_true, if_false, if_true]

end Serve

section Statement

variable {p : Proxy} {r : Request} {h h' : List GwEvent} {P' : Gw Served} {b q : GoString}

private theorem not_roundTrip {prog : Gw Served} (hresp : prog.Performs (·.isResponse))
    {upReq : UpstreamRequest} {ans : Except GoError Response} {t : List GwEvent}
    (hp : Path prog (⟨.roundTrip upReq, ans⟩ :: t) P') : False := by
  have h := (hresp.path hp).1 _ List.mem_cons_self
  simp [Op.isResponse] at h

/-- A forwarded statement is sent upstream, and after the round trip the response is buffered. -/
private theorem forwardStatement_path {reqBody : GoString} {result : RouteResult}
    {upReq : UpstreamRequest} {wire : Response} {t : List GwEvent}
    (hp : Path (p.forwardStatement r reqBody result) (⟨.roundTrip upReq, .ok wire⟩ :: t) P') :
    p.upstreamRequest r (.ok reqBody) result = some upReq ∧
      Path (p.bufferStatement r result (Proxy.receive p.gunzip upReq wire)) t P' := by
  unfold Proxy.forwardStatement at hp
  split at hp
  · exact (not_roundTrip (httpError_performs _ _ _) hp).elim
  · cases hup : p.upstreamRequest r (.ok reqBody) result with
    | none =>
      simp only [hup] at hp
      cases hp
    | some upReq' =>
      simp only [hup, Proxy.roundTrip, perform_bind, call_bind] at hp
      cases hp with
      | cons ans ht => exact ⟨rfl, ht⟩

/-- Up to the round trip a statement request only routes, and after it the response is buffered. -/
theorem serveHTTP_buffers {reqBody : GoString} {h₁ h₂ : List GwEvent} {result : RouteResult}
    {upReq : UpstreamRequest} {wire : Response} (hst : Proxy.isStatement r = true)
    (hbody : r.body = .ok reqBody)
    (hroute : Runs (p.router.route (newRouteInput r reqBody)) h₁ (.ok result))
    (hp : Path (p.serveHTTP r) (h₁ ++ ⟨.roundTrip upReq, .ok wire⟩ :: h₂) P') :
    (∀ e ∈ h₁, e.op.isRouting) ∧ result.backendURL ≠ [] ∧
      p.upstreamRequest r (.ok reqBody) result = some upReq ∧
      Path (p.bufferStatement r result (Proxy.receive p.gunzip upReq wire)) h₂ P' := by
  refine ⟨route_routing _ _ hroute, ?_⟩
  have hserve : p.serveHTTP r = p.handleStatement r := by
    obtain hs | ⟨msg, hs⟩ := serveHTTP_eq p r
    · rw [hs, dispatch_statement p r hst]
    · rw [hs] at hp
      have hresp : (do Auth.writeUnauthorized msg; return Served.done : Gw Served).Performs
          (·.isResponse) := (writeUnauthorized_performs msg).bind (by simp)
      have := (hresp.path hp).1 ⟨.roundTrip upReq, .ok wire⟩ (by simp)
      simp [Op.isResponse] at this
  rw [hserve] at hp
  unfold Proxy.handleStatement at hp
  simp only [hbody] at hp
  have hrest := (hroute.bind _).unique_continuation hp
  rw [ret_bind] at hrest
  dsimp only at hrest
  split at hrest
  · exact (not_roundTrip (httpError_performs _ _ _) hrest).elim
  · next hb => exact ⟨hb, forwardStatement_path hrest⟩

theorem bufferStatement_eq {result : RouteResult} {resp : Response} {buf : GoString}
    (hread : Proxy.readLimited p.cfg.responseSize resp.body = .ok buf)
    (hlimit : buf.length ≤ p.cfg.responseSize) :
    p.bufferStatement r result resp = p.relayStatement r result resp buf := by
  unfold Proxy.bufferStatement
  simp only [hread, if_neg (Nat.not_lt.mpr hlimit)]

theorem relayStatement_eq {result : RouteResult} {resp : Response} {buf : GoString}
    (hq : Proxy.extractQueryIDFromBody buf ≠ []) :
    p.relayStatement r result resp buf =
      call (.cacheAdd (Proxy.extractQueryIDFromBody buf) result.backendURL) fun _ =>
        p.recordHistory r result.backendURL (Proxy.extractQueryIDFromBody buf) >>= fun _ =>
          p.relay r result.backendURL resp buf := by
  unfold Proxy.relayStatement
  simp only [ne_eq, hq, not_false_eq_true, if_true, Router.writeCache, perform_bind]

theorem record_relay_performs (b q : GoString) (resp : Response) (buf : GoString) :
    (p.recordHistory r b q >>= fun _ => p.relay r b resp buf).Performs (·.isRelay) :=
  ((recordHistory_performs p r b q).mono fun _ => Op.isRelay_of_isRecording).bind
    fun _ => relay_performs p r b resp buf

/-- After the round trip of an exchange comes the cache write, and only then the history record
and the response. -/
theorem Exchanged.split (hx : Exchanged p r h b q) (hq : q ≠ [])
    (hp : Path (p.serveHTTP r) (h ++ h') P') :
    ∃ h₁ upReq wire h₂ buf, h = h₁ ++ ⟨.roundTrip upReq, .ok wire⟩ :: h₂ ∧
      (∀ e ∈ h₁, e.op.isRouting) ∧ b ≠ [] ∧
      Path (call (.cacheAdd q b) fun _ => p.recordHistory r b q >>= fun _ =>
        p.relay r b (Proxy.receive p.gunzip upReq wire) buf) (h₂ ++ h') P' := by
  obtain ⟨hst, reqBody, h₁, result, upReq, wire, h₂, buf, hbody, rfl, hroute, rfl, hread, hlimit,
    hname⟩ := hx
  obtain rfl := (Proxy.extractQueryIDFromBody_eq_iff hq).mpr hname
  rw [List.append_assoc, List.cons_append] at hp
  obtain ⟨hrouting, hb, -, hbuffer⟩ := serveHTTP_buffers hst hbody hroute hp
  rw [bufferStatement_eq hread hlimit, relayStatement_eq hq] at hbuffer
  exact ⟨h₁, upReq, wire, h₂, buf, rfl, hrouting, hb, hbuffer⟩

theorem Exchanged.backend_ne_nil (hx : Exchanged p r h b q) (hq : q ≠ [])
    (hp : Path (p.serveHTTP r) (h ++ h') P') : b ≠ [] := by
  obtain ⟨_, _, _, _, _, _, _, hb, _⟩ := hx.split hq hp
  exact hb

private theorem Exchanged.recorded (hx : Exchanged p r h b q) (hq : q ≠ [])
    (hp : Path (p.serveHTTP r) (h ++ h') P') (hr : Responded h) :
    ∃ l₁ l₂ resp buf, h = l₁ ++ ⟨.cacheAdd q b, ()⟩ :: l₂ ∧ Responded l₂ ∧
      Path (p.recordHistory r b q >>= fun _ => p.relay r b resp buf) (l₂ ++ h') P' := by
  obtain ⟨h₁, upReq, wire, h₂, buf, rfl, hrouting, -, hrest⟩ := hx.split hq hp
  obtain ⟨e, he, hresp⟩ := hr
  have heq : e ∈ h₂ := by
    rcases List.mem_append.mp he with he | he
    · rw [Op.not_isResponse_of_isRouting (hrouting e he)] at hresp
      cases hresp
    · rcases List.mem_cons.mp he with rfl | he
      · simp [Op.isResponse] at hresp
      · exact he
  cases h₂ with
  | nil => simp at heq
  | cons f h₂ =>
    rw [List.cons_append] at hrest
    cases hrest with
    | cons a ht =>
      refine ⟨h₁ ++ [⟨.roundTrip upReq, .ok wire⟩], h₂, Proxy.receive p.gunzip upReq wire, buf,
        by simp, ⟨e, ?_, hresp⟩, ht⟩
      rcases List.mem_cons.mp heq with rfl | heq
      · simp [Op.isResponse] at hresp
      · exact heq

theorem Exchanged.cacheAdd_of_responded (hx : Exchanged p r h b q) (hq : q ≠ [])
    (hp : Path (p.serveHTTP r) (h ++ h') P') (hr : Responded h) :
    ∃ l₁ l₂, h = l₁ ++ ⟨.cacheAdd q b, ()⟩ :: l₂ ∧ ∀ e ∈ l₂ ++ h', e.op.isRelay := by
  obtain ⟨l₁, l₂, resp, buf, rfl, -, hpath⟩ := hx.recorded hq hp hr
  exact ⟨l₁, l₂, rfl, ((record_relay_performs b q resp buf).path hpath).1⟩

theorem Exchanged.insert_of_responded (hx : Exchanged p r h b q) (hq : q ≠ [])
    (hp : Path (p.serveHTTP r) (h ++ h') P') (hr : Responded h) (hwired : p.history = true) :
    ∃ row ans, row.queryID = q ∧ row.backendURL = b ∧ ⟨.insertHistory row, ans⟩ ∈ h := by
  obtain ⟨l₁, l₂, resp, buf, rfl, hresp, hpath⟩ := hx.recorded hq hp hr
  obtain ⟨prog, hpre, -⟩ := hpath.of_append
  obtain ⟨prog', hin, -⟩ | ⟨k₁, k₂, u, rfl, hdone, -⟩ := hpre.of_bind
  · -- the history is not recorded yet, so nothing was sent
    obtain ⟨e, he, hres⟩ := hresp
    have hrecord := ((recordHistory_performs p r b q).path hin).1 e he
    rw [Op.not_isResponse_of_isRecording hrecord] at hres
    cases hres
  · unfold Proxy.recordHistory at hdone
    rw [if_pos hwired] at hdone
    obtain ⟨i₁, i₂, res, rfl, hins, -⟩ := hdone.runs_bind
    obtain ⟨ans, externalURL, ans', rfl⟩ := historyAdapterInsert_runs hins
    exact ⟨_, ans', rfl, rfl, by simp⟩

end Statement

end TrinoGoway
