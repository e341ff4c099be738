import TrinoGoway.Proxy.Forward
import TrinoGoway.Routing.Calls

/-! Which operations a handler performs. -/
namespace TrinoGoway

open Go Go.Http Routing Prog

def Op.isResponse : Op → Bool
  | writeHeader _ _ | write _ => true
  | _ => false

/-- Operations of recording a query in the history: no record gets a creation time. -/
def Op.isRecording : Op → Bool
  | selectExternalURL _ => true
  | insertHistory row => row.createdAt = 0
  | _ => false

def Op.isRelay : Op → Bool
  | now | writeHeader _ _ | write _ => true
  | o => o.isRecording

def Op.isAnswering (backendURL : GoString) : Op → Bool
  | cacheAdd _ url => url = backendURL
  | o => o.isRelay

def Op.isServing (backendURL : GoString) : Op → Bool
  | roundTrip _ => true
  | cacheAdd _ url => url = backendURL
  | o => o.isRelay

theorem Op.isRelay_of_isResponse {o : Op} (h : o.isResponse) : o.isRelay := by
  cases o <;> simp_all [Op.isResponse, Op.isRelay]

theorem Op.isRelay_of_isRecording {o : Op} (h : o.isRecording) : o.isRelay := by
  cases o <;> simp_all [Op.isRecording, Op.isRelay]

theorem Op.not_isResponse_of_isRecording {o : Op} (h : o.isRecording) :
    o.isResponse = false := by
  cases o <;> simp_all [Op.isRecording, Op.isResponse]

theorem Op.not_cache_of_isRelay {o : Op} (h : o.isRelay) :
    (∀ q, o ≠ .cacheGet q) ∧ ∀ q b, o ≠ .cacheAdd q b := by
  constructor
  · rintro q rfl
    cases h
  · rintro q b rfl
    cases h

theorem Op.isAnswering_of_isRelay {o : Op} (h : o.isRelay) (b : GoString) : o.isAnswering b := by
  cases o <;> simp_all [Op.isAnswering, Op.isRelay, Op.isRecording]

theorem Op.isServing_of_isAnswering {o : Op} {b : GoString} (h : o.isAnswering b) :
    o.isServing b := by
  cases o <;> simp_all [Op.isServing, Op.isAnswering, Op.isRelay, Op.isRecording]

theorem Op.isServing_of_isRelay {o : Op} (h : o.isRelay) (b : GoString) : o.isServing b :=
  Op.isServing_of_isAnswering (Op.isAnswering_of_isRelay h b)

theorem Op.not_isResponse_of_isRouting {o : Op} (h : o.isRouting) : o.isResponse = false := by
  cases o <;> simp_all [Op.isResponse, Op.isRouting, Op.isLookup, Op.isAsking, Op.isExternal]

section Performs

variable (p : Proxy) (r : Request)

theorem httpError_performs (h : Header) (msg : GoString) (code : ℕ) :
    (Proxy.httpError h msg code).Performs (·.isResponse) := by
  simp [Proxy.httpError, Op.isResponse]

theorem writeUnauthorized_performs (msg : GoString) :
    (Auth.writeUnauthorized msg).Performs (·.isResponse) := by
  simp [Auth.writeUnauthorized, Op.isResponse]

theorem historyAdapterInsert_performs (q b u src : GoString) :
    (historyAdapterInsert q b u src).Performs (·.isRecording) := by
  unfold historyAdapterInsert Persistence.BackendDAO.lookupExternalURL Persistence.HistoryDAO.insert
  refine Performs.bind (Performs.bind (by simp [Op.isRecording]) ?_) ?_
  · rintro (e | _ | u) <;> simp
  · rintro (e | u)
    · refine Performs.bind (by simp [Op.isRecording]) ?_
      rintro (e | ⟨⟩) <;> simp
    · refine Performs.bind (by simp [Op.isRecording]) ?_
      rintro (e | ⟨⟩) <;> simp

theorem recordHistory_performs (b q : GoString) :
    (p.recordHistory r b q).Performs (·.isRecording) := by
  unfold Proxy.recordHistory
  split
  · exact Performs.bind (historyAdapterInsert_performs _ _ _ _) (by simp)
  · simp

/-- Recording a query looks up the external URL and makes one insert, at the zero instant. -/
theorem historyAdapterInsert_runs {q b u src : GoString} {h : List (Event Op.Ret)}
    {res : Except GoError Unit} (hruns : Runs (historyAdapterInsert q b u src) h res) :
    ∃ ans externalURL ans', h = [⟨.selectExternalURL b, ans⟩,
      ⟨.insertHistory ⟨q, b, externalURL, u, src, [], [], 0⟩, ans'⟩] := by
  have hinsert : ∀ {row h}, Runs (Persistence.HistoryDAO.insert row) h res →
      ∃ ans', h = [⟨.insertHistory row, ans'⟩] := by
    intro row h hins
    unfold Persistence.HistoryDAO.insert at hins
    rw [perform_bind] at hins
    cases hins with
    | cons ans' ht =>
      rcases ans' with e | ⟨⟩
      · obtain ⟨rfl, -⟩ := ht.of_ret
        exact ⟨_, rfl⟩
      · obtain ⟨rfl, -⟩ := ht.of_ret
        exact ⟨_, rfl⟩
  unfold historyAdapterInsert Persistence.BackendDAO.lookupExternalURL at hruns
  simp only [perform_bind, call_bind] at hruns
  cases hruns with
  | cons ans ht =>
    rcases ans with e | _ | url
    all_goals
      obtain ⟨ans', rfl⟩ := hinsert ht
      exact ⟨_, _, ans', rfl⟩

theorem applyCookies_performs (h : Header) (b : GoString) :
    (Proxy.applyCookies p.codec p.cookie h r b).Performs (· = .now) := by
  unfold Proxy.applyCookies
  split
  · exact performs_pure _
  · split
    · refine Performs.bind ((performs_perform _).mpr rfl) fun now => ?_
      split
      · exact performs_pure _
      · exact performs_pure _
      · split <;> exact performs_pure _
    · split
      · exact ⟨rfl, fun _ => trivial⟩
      · exact performs_pure _

theorem writeResponse_performs {P : Op → Prop} {code : ℕ} {h : Header} {body : GoString}
    (hheader : P (.writeHeader code h)) (hbody : P (.write body)) :
    (Proxy.writeResponse code h body).Performs P := by
  unfold Proxy.writeResponse
  split
  · exact ⟨hheader, fun _ => ⟨hbody, fun _ => trivial⟩⟩
  · exact performs_pure _

theorem relay_performs (b : GoString) (resp : Response) (body : GoString) :
    (p.relay r b resp body).Performs (·.isRelay) := by
  unfold Proxy.relay
  refine Performs.bind ((applyCookies_performs p r _ b).mono ?_) ?_
  · rintro o rfl
    rfl
  · rintro (_ | h')
    · exact (httpError_performs _ _ _).mono fun _ => Op.isRelay_of_isResponse
    · exact writeResponse_performs rfl rfl

theorem httpError_answers (h : Header) (msg : GoString) (code : ℕ) (b : GoString) :
    (Proxy.httpError h msg code).Performs (·.isAnswering b) :=
  (httpError_performs h msg code).mono fun _ ho =>
    Op.isAnswering_of_isRelay (Op.isRelay_of_isResponse ho) b

theorem relay_answers (b : GoString) (resp : Response) (body : GoString) :
    (p.relay r b resp body).Performs (·.isAnswering b) :=
  (relay_performs p r b resp body).mono fun _ ho => Op.isAnswering_of_isRelay ho b

/-- What `handleStatement` performs once it has a response, from what the parts of that perform. -/
theorem bufferStatement_performs {P : Op → Prop} (result : RouteResult) (resp : Response)
    (herror : ∀ msg, (Proxy.httpError .empty msg 502).Performs P)
    (hcache : ∀ q, P (.cacheAdd q result.backendURL)) (hrecord : ∀ o : Op, o.isRecording → P o)
    (hrelay : ∀ body, (p.relay r result.backendURL resp body).Performs P) :
    (p.bufferStatement r result resp).Performs P := by
  unfold Proxy.bufferStatement
  split
  · exact herror _
  · split
    · exact herror _
    · unfold Proxy.relayStatement Router.writeCache
      dsimp only
      split
      · refine ((performs_perform _).mpr (hcache _)).bind fun _ => Performs.bind ?_ fun _ => ?_
        · exact (recordHistory_performs p r _ _).mono hrecord
        · exact hrelay _
      · exact hrelay _

theorem bufferStatement_answers (result : RouteResult) (resp : Response) :
    (p.bufferStatement r result resp).Performs (·.isAnswering result.backendURL) := by
  refine bufferStatement_performs p r result resp ?_ ?_ ?_ ?_
  · exact fun _ => httpError_answers _ _ _ _
  · simp [Op.isAnswering]
  · exact fun _ ho => Op.isAnswering_of_isRelay (Op.isRelay_of_isRecording ho) _
  · exact relay_answers p r _ _

theorem roundTrip_serves (upReq : UpstreamRequest) {b : GoString}
    {f : Except GoError Response → Gw Served} (hf : ∀ res, (f res).Performs (·.isAnswering b)) :
    (p.roundTrip upReq >>= f).Performs (·.isServing b) := by
  refine Performs.bind ?_ fun res => (hf res).mono fun _ => Op.isServing_of_isAnswering
  unfold Proxy.roundTrip
  refine Performs.bind (by simp [Op.isServing]) ?_
  rintro (e | wire) <;> simp

theorem httpError_serves (h : Header) (msg : GoString) (code : ℕ) (b : GoString) :
    (Proxy.httpError h msg code).Performs (·.isServing b) :=
  (httpError_answers h msg code b).mono fun _ => Op.isServing_of_isAnswering

theorem statementReceived_answers (result : RouteResult) (res : Except GoError Response) :
    (match res with
      | .error _ => Proxy.httpError .empty (str "upstream error") 502
      | .ok resp => p.bufferStatement r result resp : Gw Served).Performs
        (·.isAnswering result.backendURL) := by
  cases res with
  | error e => exact httpError_answers _ _ _ _
  | ok resp => exact bufferStatement_answers p r result resp

theorem streamReceived_answers (result : RouteResult) (res : Except GoError Response) :
    (match res with
      | .error _ => Proxy.httpError .empty (str "upstream error") 502
      | .ok resp => p.relay r result.backendURL resp resp.body.bytes : Gw Served).Performs
        (·.isAnswering result.backendURL) := by
  cases res with
  | error e => exact httpError_answers _ _ _ _
  | ok resp => exact relay_answers p r _ _ _

theorem forwardStatement_serves (reqBody : GoString) (result : RouteResult) :
    (p.forwardStatement r reqBody result).Performs (·.isServing result.backendURL) := by
  unfold Proxy.forwardStatement
  split
  · exact httpError_serves _ _ _ _
  · split
    · simp
    · exact roundTrip_serves p _ (statementReceived_answers p r result)

theorem forwardStream_serves (result : RouteResult) :
    (p.forwardStream r result).Performs (·.isServing result.backendURL) := by
  unfold Proxy.forwardStream
  split
  · simp
  · exact roundTrip_serves p _ (streamReceived_answers p r result)

end Performs

/-- Behind the authenticator a request makes at most one decision, and then forwards or answers. -/
theorem dispatch_emits {T : List (Event Op.Ret) → Prop} (p : Proxy) (r : Request)
    (happend : ∀ h h', T h → T h' → T (h ++ h'))
    (hroute : ∀ body, (p.router.route (newRouteInput r body)).Emits T)
    (herror : ∀ msg code, code ≠ 401 → (Proxy.httpError .empty msg code).Emits T)
    (hmethod : (do
      perform (.writeHeader 405 .empty)
      perform (.write [])
      return .done : Gw Served).Emits T)
    (hstatement : ∀ reqBody result, result.backendURL ≠ [] →
      (p.forwardStatement r reqBody result).Emits T)
    (hstream : ∀ result, result.backendURL ≠ [] → (p.forwardStream r result).Emits T) :
    (p.dispatch r).Emits T := by
  unfold Proxy.dispatch
  split
  · exact hmethod
  split
  · unfold Proxy.handleStatement
    split
    · exact herror _ _ (by decide)
    · refine Emits.bind happend (hroute _) ?_
      rintro (e | result)
      · exact herror _ _ (by decide)
      · dsimp only
        split
        · exact herror _ _ (by decide)
        · next hb => exact hstatement _ _ hb
  split
  · unfold Proxy.handleStream
    refine Emits.bind happend (hroute _) ?_
    rintro (e | result)
    · exact herror _ _ (by decide)
    · dsimp only
      split
      · exact herror _ _ (by decide)
      · next hb => exact hstream _ hb
  · exact herror _ _ (by decide)

section Emits

variable {T : List (Event Op.Ret) → Prop} (hask : ∀ h, (∀ e ∈ h, e.op.isAsking) → T h)
  (happend : ∀ h h', T h → T h' → T (h ++ h'))
  (hflight : ∀ q, (singleFlight q (Persistence.HistoryDAO.lookupByQueryID q)).Emits T)
  (hexternal : ∀ h, (∀ e ∈ h, e.op.isExternal) → T h)
  (hserve : ∀ b ≠ [], ∀ h, (∀ e ∈ h, e.op.isServing b) → T h)

include hask happend hflight hexternal hserve

/-- A request makes one routing decision and then only serves. -/
theorem serveHTTP_emits (p : Proxy) (r : Request) : (p.serveHTTP r).Emits T := by
  have hrelay (prog : Gw Served) (hprog : prog.Performs (·.isRelay)) : prog.Emits T :=
    (hprog.mono fun _ ho => Op.isServing_of_isRelay ho [Byte.slash]).emits (hserve _ (by simp))
  have hdispatch : (p.dispatch r).Emits T := by
    refine dispatch_emits p r happend (fun body => route_emits hask happend hflight
      ((callExternal_performs p.router (newRouteInput r body)).emits hexternal)) ?_ ?_ ?_ ?_
    · exact fun msg code _ =>
        hrelay _ ((httpError_performs _ msg code).mono fun _ => Op.isRelay_of_isResponse)
    · exact hrelay _ (by simp [Op.isRelay])
    · exact fun _ _ hb => (forwardStatement_serves p r _ _).emits (hserve _ hb)
    · exact fun _ hb => (forwardStream_serves p r _).emits (hserve _ hb)
  unfold Proxy.serveHTTP
  split
  · exact hdispatch
  · split
    · refine hrelay _ (Performs.bind ?_ fun _ => performs_pure _)
      exact (writeUnauthorized_performs _).mono fun _ => Op.isRelay_of_isResponse
    · exact hdispatch

end Emits

theorem serveHTTP_inserts (p : Proxy) (r : Request) :
    (p.serveHTTP r).Emits fun h =>
      ∀ row ans, ⟨.insertHistory row, ans⟩ ∈ h → row.createdAt = 0 := by
  have hnone {P : Op → Bool} (hP : ∀ row, P (.insertHistory row) = false) (h : List (Event Op.Ret))
      (hh : ∀ e ∈ h, P e.op) (row : Persistence.QueryRecord) (ans : Except GoError Unit)
      (hmem : ⟨.insertHistory row, ans⟩ ∈ h) : row.createdAt = 0 := by
    have hop := hh _ hmem
    rw [hP] at hop
    cases hop
  refine serveHTTP_emits (hnone fun _ => rfl) ?_ ?_ (hnone fun _ => rfl) ?_ p r
  · intro h h' hh hh' row ans hmem
    exact (List.mem_append.mp hmem).elim (hh row ans) (hh' row ans)
  · exact fun q => (singleFlight_performs q).emits (hnone fun _ => rfl)
  · intro b _ h hh row ans hmem
    simpa [Op.isServing, Op.isRelay, Op.isRecording] using hh _ hmem

end TrinoGoway
