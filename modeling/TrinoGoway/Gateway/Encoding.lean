import TrinoGoway.Gateway.Exchange
import TrinoGoway.Gateway.World

/-! Which query ids are in the cache when the response to a statement begins. -/
namespace TrinoGoway

open Go Go.Http Routing Prog Interleave

section Response

variable {p : Proxy} {r : Request} {h : List GwEvent} {q : GoString} {result : RouteResult}
  {resp : Response} {buf : GoString} {o : Op} {k : o.Ret → Gw Served}

/-- Between the buffered response and the first part of the answer there is at most one write to
the cache, that of the query id in the buffer. -/
private theorem relayStatement_cacheAdd
    (hp : Path (p.relayStatement r result resp buf) h (call o k))
    (hfirst : o.isResponse) :
    (Proxy.extractQueryIDFromBody buf = [] ∧ ∀ e ∈ h, e.op.isRelay) ∨
      ∃ t, h = ⟨.cacheAdd (Proxy.extractQueryIDFromBody buf) result.backendURL, ()⟩ :: t ∧
        ∀ e ∈ t, e.op.isRelay := by
  by_cases hid : Proxy.extractQueryIDFromBody buf = []
  · left
    have hrelay : p.relayStatement r result resp buf = p.relay r result.backendURL resp buf := by
      unfold Proxy.relayStatement
      simp [hid]
    rw [hrelay] at hp
    exact ⟨hid, ((relay_performs p r _ resp buf).path hp).1⟩
  · right
    rw [relayStatement_eq hid] at hp
    obtain ⟨-, heq⟩ | ⟨ans, t, rfl, ht⟩ := hp.of_call
    · obtain ⟨rfl, -⟩ := Prog.call.inj heq
      cases hfirst
    · exact ⟨t, rfl, ((record_relay_performs _ _ resp buf).path ht).1⟩

private theorem only_extracted_written {h₁ h₂ : List GwEvent} {upReq : UpstreamRequest}
    {ans : Except GoError Response} (hrouting : ∀ e ∈ h₁, e.op.isRouting)
    (hp : Path (p.relayStatement r result resp buf) h₂ (call o k)) (hfirst : o.isResponse)
    {e : GwEvent} (he : e ∈ h₁ ++ ⟨.roundTrip upReq, ans⟩ :: h₂) {b : GoString}
    (heq : e.op = .cacheAdd q b) : Proxy.extractQueryIDFromBody buf = q := by
  rcases List.mem_append.mp he with he | he
  · have hop := hrouting e he
    rw [heq] at hop
    cases hop
  rcases List.mem_cons.mp he with rfl | he
  · cases heq
  obtain ⟨-, hrelay⟩ | ⟨t, rfl, hrelay⟩ := relayStatement_cacheAdd hp hfirst
  · exact absurd heq ((Op.not_cache_of_isRelay (hrelay e he)).2 q b)
  · rcases List.mem_cons.mp he with rfl | he
    · exact (Op.cacheAdd.inj heq).1
    · exact absurd heq ((Op.not_cache_of_isRelay (hrelay e he)).2 q b)

/-- When the first part of the answer to a statement is due, a query id that was not cached for
the backend before is so exactly when it is found in the buffered body. -/
private theorem cached_iff_extracted {reqBody buf : GoString} {h₁ h₂ : List GwEvent}
    {upReq : UpstreamRequest} {wire : Response} {s s' : Shared}
    (hst : Proxy.isStatement r = true) (hbody : r.body = .ok reqBody)
    (hroute : Runs (p.router.route (newRouteInput r reqBody)) h₁ (.ok result))
    (hp : Path (p.serveHTTP r) (h₁ ++ ⟨.roundTrip upReq, .ok wire⟩ :: h₂) (call o k))
    (hfirst : o.isResponse)
    (heffect : Effect exec s (h₁ ++ ⟨.roundTrip upReq, .ok wire⟩ :: h₂) s')
    (hread : (Proxy.receive p.gunzip upReq wire).body = ⟨buf, none⟩)
    (hlimit : buf.length ≤ p.cfg.responseSize) (hq : q ≠ [])
    (hnew : s.cache.lookup q ≠ some result.backendURL) :
    s'.cache.lookup q = some result.backendURL ↔ Proxy.extractQueryIDFromBody buf = q := by
  obtain ⟨hrouting, -, -, hbuffer⟩ := serveHTTP_buffers hst hbody hroute hp
  have hlimited : Proxy.readLimited p.cfg.responseSize
      (Proxy.receive p.gunzip upReq wire).body = .ok buf := by
    rw [hread]
    unfold Proxy.readLimited
    rw [if_neg (Nat.not_lt.mpr hlimit)]
  rw [bufferStatement_eq hlimited hlimit] at hbuffer
  constructor
  · intro hcached
    by_contra hne
    exact hnew (lookup_run heffect
      (fun e he heq => hne (only_extracted_written hrouting hbuffer hfirst he heq)) hcached)
  · rintro rfl
    obtain ⟨hnil, -⟩ | ⟨t, rfl, hrelay⟩ := relayStatement_cacheAdd hbuffer hfirst
    · exact absurd hnil hq
    rw [← List.singleton_append, ← List.append_assoc] at heffect
    obtain ⟨s₁, s₂, -, hadd, hafter⟩ := heffect.of_append_cons
    have hcache : s'.cache = s₂.cache :=
      cache_unchanged hafter fun e he => Op.not_cache_of_isRelay (hrelay e he)
    obtain rfl : s₂ = _ := hadd
    rw [hcache]
    exact Lru.Cache.lookup_add_self _ _ _ (by decide)

end Response

/-- The content codings: what a body decodes to under each of them. `plain` and `empty` are about
bodies that are not coded, `gzip` is the reader of the standard library. -/
structure Codings (gunzip : Stream → Stream) where
  decode : (coding bytes : GoString) → Option GoString
  plain : ∀ bytes, decode [] bytes = some bytes
  empty : ∀ coding text, decode coding [] = some text → text = []
  gzip : ∀ coding bytes text, equalFold coding (str "gzip") = true →
    decode coding bytes = some text → bytes ≠ [] → gunzip ⟨bytes, none⟩ = ⟨text, none⟩

def contentEncoding (wire : Response) : GoString := wire.header.get (str "Content-Encoding")

/-- The transport undoes a gzip coding: neither the client nor the routing service sent an
`Accept-Encoding` or a `Range`. -/
def undone (p : Proxy) (r : Request) (reqBody : GoString) (result : RouteResult)
    (wire : Response) : Bool :=
  equalFold (contentEncoding wire) (str "gzip") &&
    (p.upstreamRequest r (.ok reqBody) result).any Proxy.transparentGzip

/-- What a handler gets of the body `bytes` on the wire, which decodes to `text`. -/
def delivered (p : Proxy) (r : Request) (reqBody : GoString) (result : RouteResult)
    (wire : Response) (bytes text : GoString) : GoString :=
  if contentEncoding wire = [] || undone p r reqBody result wire then text else bytes

private theorem receive_body {p : Proxy} {r : Request} {reqBody bytes text : GoString}
    {result : RouteResult} {upReq : UpstreamRequest} {wire : Response}
    (codings : Codings p.gunzip) (hup : p.upstreamRequest r (.ok reqBody) result = some upReq)
    (hwire : wire.body = ⟨bytes, none⟩)
    (htext : codings.decode (contentEncoding wire) bytes = some text) :
    (Proxy.receive p.gunzip upReq wire).body =
      ⟨delivered p r reqBody result wire bytes text, none⟩ := by
  unfold Proxy.receive delivered undone
  rw [hup, Option.any_some, hwire]
  change (if Proxy.transparentGzip upReq && equalFold (contentEncoding wire) (str "gzip") &&
    _ then _ else _ : Response).body = _
  by_cases hce : contentEncoding wire = []
  · -- no coding: the text is the body itself
    rw [hce, codings.plain, Option.some.injEq] at htext
    have hgzip : equalFold [] (str "gzip") = false := by decide
    simp [hce, hgzip, hwire, htext]
  · cases hgzip : equalFold (contentEncoding wire) (str "gzip") with
    | false => simp [hce, hwire]
    | true =>
      cases htransparent : Proxy.transparentGzip upReq with
      | false => simp [hce, hwire]
      | true =>
        by_cases hbytes : bytes = []
        · subst hbytes
          simp [hwire, codings.empty _ _ htext]
        · simp [hbytes, codings.gzip _ _ _ hgzip htext hbytes]

/-- When the first part of the answer to a statement is due, a query id that was not cached for
the backend before is so exactly when the body that the handler got names it. -/
theorem cached_before_response_iff (p : Proxy) (codings : Codings p.gunzip) (r : Request)
    {reqBody bytes text q : GoString} {h₁ h₂ : List GwEvent} {result : RouteResult}
    {upReq : UpstreamRequest} {wire : Response} {o : Op} {k : o.Ret → Gw Served} {s s' : Shared}
    (hst : Proxy.isStatement r = true) (hbody : r.body = .ok reqBody)
    (hroute : Runs (p.router.route (newRouteInput r reqBody)) h₁ (.ok result))
    (hp : Path (p.serveHTTP r) (h₁ ++ ⟨.roundTrip upReq, .ok wire⟩ :: h₂) (call o k))
    (hfirst : o.isResponse)
    (heffect : Effect exec s (h₁ ++ ⟨.roundTrip upReq, .ok wire⟩ :: h₂) s')
    (hwire : wire.body = ⟨bytes, none⟩)
    (htext : codings.decode (contentEncoding wire) bytes = some text)
    (hlimit : (delivered p r reqBody result wire bytes text).length ≤ p.cfg.responseSize)
    (hq : q ≠ []) (hnew : s.cache.lookup q ≠ some result.backendURL) :
    s'.cache.lookup q = some result.backendURL ↔
      Proxy.NamesID (delivered p r reqBody result wire bytes text) q := by
  obtain ⟨-, -, hup, -⟩ := serveHTTP_buffers hst hbody hroute hp
  have hread := receive_body codings hup hwire htext
  rw [cached_iff_extracted hst hbody hroute hp hfirst heffect hread hlimit hq hnew]
  exact Proxy.extractQueryIDFromBody_eq_iff hq

section Samples

private def encodedJSON : GoString := str "\x7b\"id\":\"1_2_3_x\"\x7d"

private def encodedGzip : GoString :=
  [31, 139, 8, 0, 0, 0, 0, 0, 0, 255, 1, 16, 0, 239, 255] ++ encodedJSON ++
    [4, 141, 128, 1, 16, 0, 0, 0]

private def encodedProxy : Proxy :=
  { sampleProxy false with
    gunzip := fun s => if s = ⟨encodedGzip, none⟩ then ⟨encodedJSON, none⟩ else ⟨[], some ⟨[]⟩⟩ }

private def encodedCodings : Codings encodedProxy.gunzip where
  decode coding bytes :=
    if coding = [] then some bytes
    else if equalFold coding (str "gzip") && bytes = encodedGzip then some encodedJSON
    else none
  plain bytes := rfl
  empty coding text h := by
    split at h
    · exact (Option.some.inj h).symm
    · have hne : ([] : GoString) ≠ encodedGzip := by decide
      simp [hne] at h
  gzip coding bytes text hgzip h _ := by
    have hcoding : coding ≠ [] := by
      rintro rfl
      exact absurd hgzip (by decide)
    rw [if_neg hcoding, hgzip, Bool.true_and] at h
    split at h
    · next hbytes =>
      obtain rfl := of_decide_eq_true hbytes
      obtain rfl := Option.some.inj h
      decide
    · cases h

private theorem encodedJSON_names : Proxy.NamesID encodedJSON (str "1_2_3_x") :=
  (Proxy.extractQueryIDFromBody_eq_iff (by decide)).mp (by decide +kernel)

private def encodedRequest : Request :=
  let r := sampleRequest "POST" "/v1/statement" "SELECT 1"
  { r with header := r.header.set (str "Accept-Encoding") (str "gzip") }

private def encodedResponse : Response :=
  ⟨200, Header.set .empty (str "Content-Encoding") (str "gzip"), ⟨encodedGzip, none⟩⟩

private def encodedRun (r : Request) (wire : Response) (steps : ℕ) :=
  playAll
    { active := .ok [sampleBackend "http://a" "adhoc"], upstream := fun _ => .ok wire : World }.step
    (.init []) (fun _ : Unit => encodedProxy.serveHTTP r) (.replicate steps ())

private theorem encodedRun_steps (r : Request) (wire : Response) (steps : ℕ) :
    Steps exec (.init []) (fun _ : Unit => encodedProxy.serveHTTP r) (encodedRun r wire steps).1
      (encodedRun r wire steps).2.1 (encodedRun r wire steps).2.2 :=
  steps_playAll (World.exec_of_step _) _ _ _

private def plainRequest : Request := sampleRequest "POST" "/v1/statement" "SELECT 1"

private def plainResponse : Response := ⟨200, .empty, ⟨encodedJSON, none⟩⟩

theorem cached_before_response_sample :
    (encodedRun plainRequest plainResponse 3).2.1.cache.lookup (str "1_2_3_x") =
      some (str "http://a") := by
  have hsteps := encodedRun_steps plainRequest plainResponse 3
  have hroute : Runs (encodedProxy.router.route (newRouteInput plainRequest (str "SELECT 1")))
      [⟨.selectActive, .ok [sampleBackend "http://a" "adhoc"]⟩]
      (.ok ⟨str "http://a", str "adhoc", none, [], .fallback⟩) := .cons _ (.nil _)
  have htext : encodedCodings.decode (contentEncoding plainResponse) encodedJSON =
      some encodedJSON := rfl
  refine (cached_before_response_iff encodedProxy encodedCodings plainRequest (by decide) rfl
    hroute (hsteps.path ()) rfl hsteps.effect rfl htext (by decide) (by decide) (by decide)).mpr ?_
  exact encodedJSON_names

/-- The client offered gzip, the backend used it, and the id in the text is not cached when the
response begins. -/
theorem gzip_id_not_cached :
    let run := encodedRun encodedRequest encodedResponse 2
    Steps exec (.init []) (fun _ : Unit => encodedProxy.serveHTTP encodedRequest) run.1 run.2.1
        run.2.2 ∧
      encodedRequest.header.get (str "Accept-Encoding") = str "gzip" ∧
      contentEncoding encodedResponse = str "gzip" ∧
      encodedResponse.body = ⟨encodedGzip, none⟩ ∧
      encodedGzip.length ≤ encodedProxy.cfg.responseSize ∧
      encodedCodings.decode (contentEncoding encodedResponse) encodedGzip = some encodedJSON ∧
      Proxy.NamesID encodedJSON (str "1_2_3_x") ∧
      (∃ upReq, run.1.getLast? = some ((), ⟨.roundTrip upReq, .ok encodedResponse⟩)) ∧
      (∃ status header k, run.2.2 () = call (.writeHeader status header) k) ∧
      run.2.1.cache.lookup (str "1_2_3_x") = none := by
  refine ⟨encodedRun_steps _ _ _, by decide, by decide, rfl, by decide, by decide,
    encodedJSON_names, ⟨_, rfl⟩, ⟨_, _, _, rfl⟩, by decide⟩

end Samples

end TrinoGoway
