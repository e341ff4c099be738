import TrinoGoway.Gateway.Exchange
import TrinoGoway.Gateway.World

/-! Sticky routing: once a client can know a query id, requests for it go to its backend. -/
namespace TrinoGoway

open Go Go.Http Routing Prog Interleave

/-- The streaming handler of `r` made a complete `Route` call, with result `res`. -/
def StreamRouted (p : Proxy) (r : Request) (h : List GwEvent)
    (res : Except GoError RouteResult) : Prop :=
  Proxy.isStatement r = false ∧
    ∃ h₁ h₂, h = h₁ ++ h₂ ∧ Runs (p.router.route (newRouteInput r [])) h₁ res

/-- A request without a statement body first asks the cache for the query in its path. -/
theorem route_stream {r : Router} {req : RouteInput} {q : GoString} {h : List GwEvent}
    {res : Except GoError RouteResult} (hbody : req.body = []) (hq : extractQueryID req = q)
    (hne : q ≠ []) (hruns : Runs (r.route req) h res) :
    ∃ a t, h = ⟨.cacheGet q, a⟩ :: t ∧
      ∀ url, a = some url → res = .ok { backendURL := url, outcome := .ok } := by
  subst hq
  have hkill : Router.routeKill req = pure none := by
    unfold Router.routeKill
    rw [hbody, if_pos (by rfl)]
  unfold Router.route at hruns
  rw [hkill, pure_bind'] at hruns
  simp only [Router.routeCached, if_neg hne, perform_bind, call_bind] at hruns
  cases hruns with
  | cons a ht =>
    refine ⟨a, _, rfl, ?_⟩
    rintro url rfl
    obtain ⟨-, hres⟩ := Path.of_ret ht
    injection hres

section Run

variable {ι : Type}

def NoOtherWrite (e : ι) (q : GoString) (u : List (ι × GwEvent)) : Prop :=
  ∀ u₁ u₂ b, u = u₁ ++ (e, ⟨.cacheAdd q b, ()⟩) :: u₂ →
    ∀ i b', (i, ⟨.cacheAdd q b', ()⟩) ∈ u₂ → i = e

theorem noOtherWrite_of_alone {e : ι} {q : GoString} {u : List (ι × GwEvent)}
    (h : ∀ x ∈ u, x.1 = e) : NoOtherWrite e q u := by
  rintro u₁ u₂ b rfl i b' hi
  exact h _ (List.mem_append_right _ (List.mem_cons_of_mem _ hi))

variable [DecidableEq ι]

theorem lastWrite_of_exchanged {p : Proxy} {reqs : ι → Request} {s₀ s : Shared}
    {P' : ι → Gw Served} {t u v : List (ι × GwEvent)} {e : ι} {b q : GoString}
    (hrun : Steps exec s₀ (fun i => p.serveHTTP (reqs i)) (t ++ u ++ v) s P') (hq : q ≠ [])
    (hx : Exchanged p (reqs e) (localTrace e t) b q) (hresp : Responded (localTrace e t))
    (hown : NoOtherWrite e q (t ++ u)) :
    Lru.lastWrite q (cacheUses ((t ++ u).map Prod.snd)) = some b := by
  have hpath := hrun.path e
  rw [List.append_assoc, localTrace_append] at hpath
  obtain ⟨l₁, l₂, hl, hafter⟩ := hx.cacheAdd_of_responded hq hpath hresp
  obtain ⟨w₁, w₂, rfl, -, rfl⟩ := localTrace_split hl
  -- `w₁` comes before the cache write of `e`, `w₂ ++ u` after it
  have hsplit : w₁ ++ (e, ⟨.cacheAdd q b, ()⟩) :: w₂ ++ u =
      w₁ ++ (e, ⟨.cacheAdd q b, ()⟩) :: (w₂ ++ u) := by simp
  rw [hsplit] at hown ⊢
  rw [List.map_append, List.map_cons, cacheUses_append]
  refine Lru.lastWrite_append_write q b _ _ ?_
  intro b' hb'
  have hmem := write_mem_cacheUses.mp hb'
  obtain ⟨⟨i, ev⟩, hi, rfl⟩ := List.mem_map.mp hmem
  obtain rfl : i = e := hown w₁ (w₂ ++ u) b rfl i b' hi
  have hlocal : (⟨.cacheAdd q b', ()⟩ : GwEvent) ∈ localTrace i w₂ ++ localTrace i (u ++ v) := by
    rw [localTrace_append, ← List.append_assoc, ← localTrace_append]
    exact List.mem_append_left _ (mem_localTrace.mpr hi)
  exact (Op.not_cache_of_isRelay (hafter _ hlocal)).2 q b' rfl

/-- Once a part of the response of an exchange is out, `Route` calls that streaming requests for
its query begin later return its backend, while nobody else writes the query id and it stays
among the recently used ones. -/
theorem sticky_routing (p : Proxy) (reqs : ι → Request) (history : List Persistence.QueryRecord)
    {t₁ t₂ : List (ι × GwEvent)} {s : Shared} {P' : ι → Gw Served}
    (hrun : Steps exec (.init history) (fun i => p.serveHTTP (reqs i)) (t₁ ++ t₂) s P')
    {e : ι} {b q : GoString} (hq : q ≠ []) (hword : ∀ c ∈ q, Byte.isWord c)
    (hx : Exchanged p (reqs e) (localTrace e t₁) b q) (hresp : Responded (localTrace e t₁))
    {j : ι} (huri : QueryURI q (reqs j).requestURI)
    {res : Except GoError RouteResult} (hroute : StreamRouted p (reqs j) (localTrace j t₂) res)
    (hkept : ∀ u a v, t₁ ++ t₂ = u ++ (j, ⟨.cacheGet q, a⟩) :: v →
      NoOtherWrite e q u ∧
        (Lru.recent q (cacheUses (u.map Prod.snd))).card < defaultCacheSize) :
    ∃ result, res = .ok result ∧ result.backendURL = b := by
  obtain ⟨-, h₁, h₂, hj, hruns⟩ := hroute
  have hid : extractQueryID (newRouteInput (reqs j) []) = q :=
    extractQueryID_of_queryURI hq (fun c hc => not_separator_of_isWord (hword c hc)) huri
  obtain ⟨a, t, rfl, hres⟩ := route_stream rfl hid hq hruns
  have hget : localTrace j t₂ = [] ++ ⟨.cacheGet q, a⟩ :: (t ++ h₂) := hj
  obtain ⟨u, v, rfl, -, -⟩ := localTrace_split hget
  obtain ⟨hown, hrecent⟩ := hkept (t₁ ++ u) a v (by simp)
  rw [← List.append_assoc] at hrun
  have hlast := lastWrite_of_exchanged hrun hq hx hresp hown
  -- the state in which the lookup happens
  have heffect := hrun.effect
  rw [List.map_append, List.map_cons] at heffect
  obtain ⟨s₁, s₂, hbefore, hread, -⟩ := heffect.of_append_cons
  have hcache := cache_run hbefore
  have ha : a = some b := hread.1.trans (hcache.lookup_complete hlast hrecent)
  exact ⟨_, hres b ha, rfl⟩

end Run

private def stickyWorld : World where
  active := .ok [sampleBackend "http://a" "adhoc"]
  upstream := fun _ => .ok (sampleResponse "\x7b\"id\":\"1_2_3_x\"\x7d")

private def stickyRequests : Bool → Request
  | true => sampleRequest "POST" "/v1/statement" "SELECT 1"
  | false => sampleRequest "GET" "/v1/query/1_2_3_x" ""

private def stickyRun (schedule : List Bool) :=
  playAll stickyWorld.step (.init [])
    (fun i => (sampleProxy false).serveHTTP (stickyRequests i)) schedule

private def stickyExchange : List (Bool × GwEvent) := (stickyRun (.replicate 5 true)).1

private def stickySchedule : List Bool := [true, true, true, true, true, false]

private def stickyLookup : GwEvent := ⟨.cacheGet (str "1_2_3_x"), some (str "http://a")⟩

private theorem stickyExchange_exchanged :
    Exchanged (sampleProxy false) (stickyRequests true) (localTrace true stickyExchange)
      (str "http://a") (str "1_2_3_x") := by
  refine ⟨by decide, str "SELECT 1", [⟨.selectActive, stickyWorld.active⟩],
    ⟨str "http://a", str "adhoc", none, [], .fallback⟩, _, _, _, _, rfl, rfl,
    .cons _ (.nil _), rfl, rfl, by decide,
      (Proxy.extractQueryIDFromBody_eq_iff (by decide)).mp (by decide +kernel)⟩

theorem sticky_routing_sample : ∃ result,
    (.ok ⟨str "http://a", [], none, [], .ok⟩ : Except GoError RouteResult) = .ok result ∧
      result.backendURL = str "http://a" := by
  have hrun : Steps exec (.init []) (fun i => (sampleProxy false).serveHTTP (stickyRequests i))
      (stickyExchange ++ [(false, stickyLookup)]) (stickyRun stickySchedule).2.1
      (stickyRun stickySchedule).2.2 :=
    steps_playAll stickyWorld.exec_of_step _ _ stickySchedule
  have hresp : Responded (localTrace true stickyExchange) :=
    ⟨⟨.write (str "\x7b\"id\":\"1_2_3_x\"\x7d"), ()⟩, List.mem_of_getElem? (i := 4) rfl, rfl⟩
  have huri : QueryURI (str "1_2_3_x") (stickyRequests false).requestURI := Or.inl (by decide)
  have hroute : StreamRouted (sampleProxy false) (stickyRequests false)
      (localTrace false [(false, stickyLookup)]) (.ok ⟨str "http://a", [], none, [], .ok⟩) :=
    ⟨by decide, [stickyLookup], [], rfl, .cons _ (.nil _)⟩
  have hword : ∀ c ∈ str "1_2_3_x", Byte.isWord c := List.all_eq_true.mp (by decide)
  refine sticky_routing (sampleProxy false) stickyRequests [] hrun (by decide) hword
    stickyExchange_exchanged hresp huri hroute fun u a v h => ?_
  obtain rfl := eq_of_cut_at_last rfl h
  constructor
  · have halone : ∀ x ∈ stickyExchange, x.1 = true := by decide
    exact noOtherWrite_of_alone halone
  · have huse : cacheUses (stickyExchange.map Prod.snd) =
        [.write (str "1_2_3_x") (str "http://a")] := rfl
    rw [huse]
    decide

end TrinoGoway
