import TrinoGoway.Admin.Backends
import TrinoGoway.Gateway.Pinning
import TrinoGoway.Gateway.Target

/-! What becomes of a request whose backend URL was stored through the admin endpoints. -/
namespace TrinoGoway

open Go Go.Http Routing Prog

def Completes (prog : Gw Served) : Prop :=
  ∀ ⦃h : List GwEvent⦄ ⦃served : Served⦄, Runs prog h served → served = .done ∧ Responded h

section Completes

theorem Completes.bind {α : Type} {prog : Gw α} {f : α → Gw Served} (hf : ∀ a, Completes (f a)) :
    Completes (prog >>= f) := by
  intro h served hruns
  obtain ⟨h₁, h₂, a, rfl, -, hrest⟩ := hruns.runs_bind
  obtain ⟨hdone, e, he, hresp⟩ := hf a hrest
  exact ⟨hdone, e, List.mem_append_right h₁ he, hresp⟩

theorem completes_writeHeader (status : ℕ) (header : Header) (data : GoString) :
    Completes (do
      perform (.writeHeader status header)
      perform (.write data)
      return .done) := by
  intro h served hruns
  obtain ⟨-, hq⟩ | ⟨u, t, rfl, ht⟩ := hruns.of_call
  · cases hq
  obtain ⟨-, hq⟩ | ⟨u', t', rfl, ht'⟩ := ht.of_call
  · cases hq
  obtain ⟨-, hret⟩ := ht'.of_ret
  cases hret
  exact ⟨rfl, _, List.mem_cons_self, rfl⟩

theorem completes_writeResponse {code : ℕ} (hcode : Proxy.writableStatus code = true)
    (header : Header) (body : GoString) : Completes (Proxy.writeResponse code header body) := by
  unfold Proxy.writeResponse
  rw [if_pos hcode]
  exact completes_writeHeader _ _ _

theorem completes_httpError (header : Header) (msg : GoString) (code : ℕ) :
    Completes (Proxy.httpError header msg code) :=
  completes_writeHeader _ _ _

variable (p : Proxy) (r : Request)

theorem completes_relay {resp : Response} (hstatus : Proxy.writableStatus resp.status = true)
    (backendURL body : GoString) : Completes (p.relay r backendURL resp body) := by
  unfold Proxy.relay
  apply Completes.bind
  intro header
  cases header with
  | none => exact completes_httpError _ _ _
  | some header => exact completes_writeResponse hstatus _ _

theorem completes_bufferStatement {resp : Response}
    (hstatus : Proxy.writableStatus resp.status = true) (result : RouteResult) :
    Completes (p.bufferStatement r result resp) := by
  unfold Proxy.bufferStatement
  split
  · exact completes_httpError _ _ _
  · split
    · exact completes_httpError _ _ _
    · unfold Proxy.relayStatement
      dsimp only
      split
      · apply Completes.bind
        intro _
        apply Completes.bind
        intro _
        exact completes_relay p r hstatus _ _
      · exact completes_relay p r hstatus _ _

end Completes

def AnswersTransportErrors (h : List GwEvent) : Prop :=
  ∀ upReq e, ⟨.roundTrip upReq, .error e⟩ ∈ h → ∃ header, ⟨.writeHeader 502 header, ()⟩ ∈ h

/-- The status of a backend's answer, if the event is one, can be written to the client. -/
def statusWritable : GwEvent → Bool
  | ⟨.roundTrip _, .ok wire⟩ => Proxy.writableStatus wire.status
  | _ => true

def IsRoutingBody (r : Request) (body : GoString) : Prop :=
  Proxy.isStatement r = true ∧ r.body = .ok body ∨
    Proxy.isStatement r = false ∧ hasPrefix (Proxy.routePath r) [Byte.slash] = true ∧ body = []

/-- In the events `h` the request gets as far as the router, which returns `result`. -/
structure RoutedTo (p : Proxy) (r : Request) (h : List GwEvent) (result : RouteResult) : Prop where
  authenticated : ∀ a, p.auth = some a → ∃ principal, a.authenticate r = .ok principal
  known : Proxy.knownMethods.contains r.method = true
  decided : ∃ body h₁ h₂, IsRoutingBody r body ∧ h = h₁ ++ h₂ ∧
    Runs (p.router.route (newRouteInput r body)) h₁ (.ok result)

def AnsweredLocally (p : Proxy) (r : Request) (result : RouteResult) : Prop :=
  result.backendURL = [] ∨
    Proxy.isStatement r = true ∧ p.cfg.propagateErrors = true ∧ result.errors ≠ []

/-- The backend URL parses, and so does the one printed with the path and query of the request. -/
def Usable (auth : Url.Authority) (backendURL : GoString) (r : Request) : Prop :=
  ∃ target url, Url.parse auth backendURL = .ok target ∧
    Url.parse auth (Url.print auth { target with path := r.path, rawQuery := r.rawQuery }) = .ok url

theorem isSome_upstreamRequest_iff {auth : Url.Authority} {p : Proxy} {r : Request}
    {result : RouteResult} (hurls : p.router.urls = Url.codec auth)
    (hmethod : isToken r.method = true) (body : Except GoError GoString) :
    (p.upstreamRequest r body result).isSome ↔ Usable auth result.backendURL r := by
  unfold Proxy.upstreamRequest Proxy.buildUpstreamRequest Usable
  rw [hurls, Option.isSome_map]
  simp only [Url.codec]
  cases Url.parse auth result.backendURL with
  | error e => simp
  | ok target =>
    simp only [Except.ok.injEq]
    cases hurl : Url.parse auth
        (Url.print auth { target with path := r.path, rawQuery := r.rawQuery }) with
    | error e => simp [hurl]
    | ok url => simp [hurl, hmethod]

/-- A scheme and a host are usable for every request without a number sign in its query. -/
theorem usable_of_site {auth : Url.Authority} {r : Request} {scheme authority host : GoString}
    (hr : Received auth r) (hsite : Url.Site auth scheme authority host)
    (hprint : Url.Reprints auth (scheme.map Byte.toLower) host) (hhash : Byte.hash ∉ r.rawQuery) :
    Usable auth (Url.siteText scheme authority []) r := by
  obtain ⟨url, hurl⟩ := Url.parse_print_site_ok (hsite.reprint hprint) hr.isTarget.path
    hr.isTarget.rawQuery hhash
  exact ⟨_, url, Url.parse_site hsite, hurl⟩

section Send

variable {p : Proxy} {h : List GwEvent} {served : Served}

theorem receive_status (gunzip : Stream → Stream) (upReq : UpstreamRequest) (wire : Response) :
    (Proxy.receive gunzip upReq wire).status = wire.status := by
  unfold Proxy.receive
  split <;> rfl

theorem send_completes {upReq : UpstreamRequest} {f : Except GoError Response → Gw Served}
    {b : GoString}
    (hok : ∀ resp, Proxy.writableStatus resp.status = true → Completes (f (.ok resp)))
    (hf : ∀ res, (f res).Performs (·.isAnswering b))
    (herror : ∀ e, f (.error e) = Proxy.httpError .empty (str "upstream error") 502)
    (hstatuses : ∀ e ∈ h, statusWritable e = true)
    (hruns : Runs (p.roundTrip upReq >>= f) h served) :
    served = .done ∧ Responded h ∧ AnswersTransportErrors h := by
  rw [roundTrip_bind] at hruns
  obtain ⟨-, hq⟩ | ⟨ans, t, rfl, ht⟩ := hruns.of_call
  · cases hq
  cases ans with
  | error e =>
    have herr : Runs (f (.error e)) t served := ht
    rw [herror] at herr
    obtain ⟨-, hq⟩ | ⟨u, t', rfl, -⟩ := Path.of_call herr
    · cases hq
    obtain ⟨hdone, -⟩ := completes_httpError _ _ _ herr
    refine ⟨hdone, ⟨_, List.mem_cons_of_mem _ List.mem_cons_self, rfl⟩, ?_⟩
    exact fun _ _ _ => ⟨_, List.mem_cons_of_mem _ List.mem_cons_self⟩
  | ok wire =>
    have hstatus : Proxy.writableStatus (Proxy.receive p.gunzip upReq wire).status = true := by
      rw [receive_status]
      exact hstatuses _ List.mem_cons_self
    obtain ⟨hdone, e, he, hresp⟩ := hok _ hstatus ht
    refine ⟨hdone, ⟨e, List.mem_cons_of_mem _ he, hresp⟩, ?_⟩
    intro upReq' e' hmem
    rcases List.mem_cons.mp hmem with heq | hmem
    · cases heq
    · have hop := ((hf _).path ht).1 _ hmem
      cases hop

theorem httpError_runs {header : Header} {msg : GoString} {code : ℕ}
    (hruns : Runs (Proxy.httpError header msg code) h served) :
    served = .done ∧ Responded h ∧ AnswersTransportErrors h := by
  obtain ⟨hdone, hresp⟩ := completes_httpError _ _ _ hruns
  refine ⟨hdone, hresp, ?_⟩
  intro upReq e hmem
  have hop := ((httpError_performs _ _ _).path hruns).1 _ hmem
  cases hop

variable {r : Request} {result : RouteResult}

theorem forwardStream_runs (hstatuses : ∀ e ∈ h, statusWritable e = true)
    (hruns : Runs (p.forwardStream r result) h served) :
    (p.upstreamRequest r r.body result = none ∧ served = .panicked) ∨
      ((p.upstreamRequest r r.body result).isSome ∧ served = .done ∧ Responded h ∧
        AnswersTransportErrors h) := by
  unfold Proxy.forwardStream at hruns
  cases hup : p.upstreamRequest r r.body result with
  | none =>
    rw [hup] at hruns
    obtain ⟨-, hret⟩ := hruns.of_ret
    cases hret
    exact Or.inl ⟨rfl, rfl⟩
  | some upReq =>
    rw [hup] at hruns
    exact Or.inr ⟨rfl, send_completes (fun _ hstatus => completes_relay p r hstatus _ _)
      (streamReceived_answers p r result) (fun _ => rfl) hstatuses hruns⟩

theorem forwardStatement_runs {reqBody : GoString}
    (hlocal : ¬(p.cfg.propagateErrors = true ∧ result.errors ≠ []))
    (hstatuses : ∀ e ∈ h, statusWritable e = true)
    (hruns : Runs (p.forwardStatement r reqBody result) h served) :
    (p.upstreamRequest r (.ok reqBody) result = none ∧ served = .panicked) ∨
      ((p.upstreamRequest r (.ok reqBody) result).isSome ∧ served = .done ∧ Responded h ∧
        AnswersTransportErrors h) := by
  unfold Proxy.forwardStatement at hruns
  split at hruns
  · rename_i hprop herrors
    rw [hprop, herrors] at hlocal
    exact absurd ⟨rfl, List.cons_ne_nil _ _⟩ hlocal
  · cases hup : p.upstreamRequest r (.ok reqBody) result with
    | none =>
      rw [hup] at hruns
      obtain ⟨-, hret⟩ := hruns.of_ret
      cases hret
      exact Or.inl ⟨rfl, rfl⟩
    | some upReq =>
      rw [hup] at hruns
      exact Or.inr ⟨rfl,
        send_completes (fun _ hstatus => completes_bufferStatement p r hstatus _)
          (statementReceived_answers p r result) (fun _ => rfl) hstatuses hruns⟩

end Send

section Stored

variable {p : Proxy} {r : Request} {h : List GwEvent} {served : Served} {result : RouteResult}

/-- A routed request is served by one of the two handlers, the decision behind it. -/
theorem RoutedTo.continues (hrouted : RoutedTo p r h result)
    (hruns : Runs (p.serveHTTP r) h served) :
    ∃ body h₁ h₂, IsRoutingBody r body ∧ h = h₁ ++ h₂ ∧ (∀ e ∈ h₁, e.op.isRouting) ∧
      Runs (if result.backendURL = [] then
          Proxy.httpError .empty (str "no backend available") 502
        else if Proxy.isStatement r then p.forwardStatement r body result
        else p.forwardStream r result) h₂ served := by
  obtain ⟨body, h₁, h₂, hbody, rfl, hroute⟩ := hrouted.decided
  refine ⟨body, h₁, h₂, hbody, rfl, route_routing _ _ hroute, ?_⟩
  rcases hbody with ⟨hst, hbody⟩ | ⟨hst, hslash, rfl⟩
  · rw [serveHTTP_authenticated p r hrouted.authenticated, dispatch_statement p r hst] at hruns
    unfold Proxy.handleStatement at hruns
    rw [hbody] at hruns
    rw [if_pos hst]
    exact (hroute.bind _).unique_continuation hruns
  · rw [serveHTTP_streamed ⟨hrouted.authenticated, hrouted.known, hst, hslash⟩] at hruns
    have hnot : ¬Proxy.isStatement r = true := by simp [hst]
    rw [if_neg hnot]
    exact (hroute.bind _).unique_continuation hruns

/-- A routed request is answered exactly when the handler answers it itself, or the backend URL
parses, by itself and with the path and query of the request. `WriteHeader` panics on a status that
is not one whatever the backend URL is, so the backends are taken to answer with ones that are. -/
theorem completes_iff_usable {auth : Url.Authority} (hurls : p.router.urls = Url.codec auth)
    (hruns : Runs (p.serveHTTP r) h served) (hstatuses : ∀ e ∈ h, statusWritable e = true)
    (hrouted : RoutedTo p r h result) :
    (served = .done ∧ Responded h ∧ AnswersTransportErrors h) ↔
      AnsweredLocally p r result ∨ Usable auth result.backendURL r := by
  have htoken : isToken r.method = true := by
    have hall : ∀ m ∈ Proxy.knownMethods, isToken m = true := by decide
    exact hall r.method (List.contains_iff_mem.mp hrouted.known)
  obtain ⟨body, h₁, h₂, hbody, rfl, hrouting, hrest⟩ := hrouted.continues hruns
  have hstatuses₂ : ∀ e ∈ h₂, statusWritable e = true :=
    fun e he => hstatuses e (List.mem_append_right h₁ he)
  -- routing neither answers the client nor sends anything upstream
  have hsuffix : served = .done ∧ Responded h₂ ∧ AnswersTransportErrors h₂ →
      served = .done ∧ Responded (h₁ ++ h₂) ∧ AnswersTransportErrors (h₁ ++ h₂) := by
    rintro ⟨hdone, ⟨e, he, hresp⟩, herrors⟩
    refine ⟨hdone, ⟨e, List.mem_append_right h₁ he, hresp⟩, ?_⟩
    intro upReq err hmem
    rcases List.mem_append.mp hmem with hmem | hmem
    · have hop := hrouting _ hmem
      cases hop
    · obtain ⟨header, hheader⟩ := herrors upReq err hmem
      exact ⟨header, List.mem_append_right h₁ hheader⟩
  have hsent : ∀ {body' : Except GoError GoString},
      (p.upstreamRequest r body' result = none ∧ served = .panicked) ∨
        ((p.upstreamRequest r body' result).isSome ∧ served = .done ∧ Responded h₂ ∧
          AnswersTransportErrors h₂) → ¬AnsweredLocally p r result →
      ((served = .done ∧ Responded (h₁ ++ h₂) ∧ AnswersTransportErrors (h₁ ++ h₂)) ↔
        AnsweredLocally p r result ∨ Usable auth result.backendURL r) := by
    intro body' hcases hlocal
    have husable : (p.upstreamRequest r body' result).isSome ↔ Usable auth result.backendURL r :=
      isSome_upstreamRequest_iff hurls htoken body'
    rcases hcases with ⟨hnone, hpanicked⟩ | ⟨hsome, hanswered⟩
    · refine iff_of_false ?_ (not_or.mpr ⟨hlocal, ?_⟩)
      · rintro ⟨hdone, -⟩
        rw [hpanicked] at hdone
        cases hdone
      · rw [← husable, hnone]
        simp
    · exact iff_of_true (hsuffix hanswered) (Or.inr (husable.mp hsome))
  by_cases hnil : result.backendURL = []
  · rw [if_pos hnil] at hrest
    exact iff_of_true (hsuffix (httpError_runs hrest)) (Or.inl (Or.inl hnil))
  rw [if_neg hnil] at hrest
  by_cases hst : Proxy.isStatement r = true
  · rw [if_pos hst] at hrest
    by_cases hprop : p.cfg.propagateErrors = true ∧ result.errors ≠ []
    · refine iff_of_true (hsuffix ?_) (Or.inl (Or.inr ⟨hst, hprop⟩))
      obtain ⟨e, errors, herrors⟩ := List.exists_cons_of_ne_nil hprop.2
      unfold Proxy.forwardStatement at hrest
      rw [hprop.1, herrors] at hrest
      exact httpError_runs hrest
    · refine hsent (forwardStatement_runs hprop hstatuses₂ hrest) ?_
      rintro (h | ⟨-, h⟩)
      · exact hnil h
      · exact hprop h
  · rw [if_neg hst] at hrest
    refine hsent (forwardStream_runs hstatuses₂ hrest) ?_
    rintro (h | ⟨h, -⟩)
    · exact hnil h
    · exact hst h

end Stored

section Samples

private def storedHosts : Url.Authority := ⟨fun _ authority => .ok ([], authority), id⟩

private def storedProxy : Proxy :=
  { sampleProxy false with
    router := { (sampleProxy false).router with urls := Url.codec storedHosts } }

private def storedRequest : Request := sampleRequest "GET" "/v1/info" ""

private def storedBackend (proxyTo : String) : Admin.ProxyBackend :=
  ⟨str "b", str proxyTo, [], true, str "adhoc"⟩

private def stored (proxyTo : String) : Admin.BackendReply × Persistence.BackendTable :=
  Admin.addBackend ⟨[], List.nodup_nil⟩ 0 none (some (storedBackend proxyTo))

private def storedAnswers (proxyTo : String) : (o : Op) → o.Ret :=
  World.answers { active := .ok (stored proxyTo).2.listActive } (.init [])

private def storedResult (proxyTo : String) : RouteResult :=
  ⟨str proxyTo, str "adhoc", none, [], .fallback⟩

private theorem storedRequest_routed {proxyTo : String}
    (hroute : (storedProxy.router.route (newRouteInput storedRequest [])).eval
      (storedAnswers proxyTo) = .ok (storedResult proxyTo)) :
    RoutedTo storedProxy storedRequest
      ((storedProxy.serveHTTP storedRequest).trace (storedAnswers proxyTo))
      (storedResult proxyTo) := by
  have hstreamed : Streamed storedProxy storedRequest := by
    refine ⟨?_, by decide, by decide, by decide⟩
    rintro a ⟨⟩
  have hruns : Runs (storedProxy.router.route (newRouteInput storedRequest [])) _
      (.ok (storedResult proxyTo)) := hroute ▸ runs_trace (storedAnswers proxyTo) _
  have htrace : ∃ h₂, (storedProxy.serveHTTP storedRequest).trace (storedAnswers proxyTo) =
      (storedProxy.router.route (newRouteInput storedRequest [])).trace (storedAnswers proxyTo) ++
        h₂ := by
    rw [serveHTTP_streamed hstreamed]
    unfold Proxy.handleStream
    exact ⟨_, trace_bind _ _ _⟩
  obtain ⟨h₂, hh₂⟩ := htrace
  exact ⟨hstreamed.1, hstreamed.2.1, [], _, h₂,
    Or.inr ⟨hstreamed.2.2.1, hstreamed.2.2.2, rfl⟩, hh₂, hruns⟩

theorem completes_iff_usable_sample :
    (storedProxy.serveHTTP storedRequest).eval (storedAnswers "http://b") = .done ∧
      Responded ((storedProxy.serveHTTP storedRequest).trace (storedAnswers "http://b")) ∧
      AnswersTransportErrors
        ((storedProxy.serveHTTP storedRequest).trace (storedAnswers "http://b")) :=
  (completes_iff_usable rfl (runs_trace _ _) (by decide)
    (storedRequest_routed (by decide))).mpr
    (Or.inr ⟨_, _, by rfl, by rfl⟩)

/-- A host and port without a scheme is accepted as a backend, and the next request that is routed
to it panics. -/
theorem stored_host_port_panics :
    (stored "10.0.0.1:8080").1 = .saved (storedBackend "10.0.0.1:8080") ∧
      RoutedTo storedProxy storedRequest
        ((storedProxy.serveHTTP storedRequest).trace (storedAnswers "10.0.0.1:8080"))
        (storedResult "10.0.0.1:8080") ∧
      (storedProxy.serveHTTP storedRequest).eval (storedAnswers "10.0.0.1:8080") = .panicked :=
  ⟨by decide, storedRequest_routed (by decide), by decide⟩

end Samples

end TrinoGoway
