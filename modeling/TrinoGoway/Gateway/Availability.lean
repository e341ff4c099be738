import TrinoGoway.Gateway.World
import TrinoGoway.Proxy.Calls

/-! `Route` finds a backend as long as one is active, whatever else fails. -/
namespace TrinoGoway

open Go Go.Http Routing Prog Interleave

/-- The surroundings of one `Route` call. The active backends and the cache stay as they are; the
history store, the lookups in flight, the probes and the external routers may do anything, but
what a lookup finds is `stored`, and only probed backends answer probes. -/
def Permitted (active : List Persistence.Backend) (cached : GoString → Option GoString)
    (stored : GoString → GoString → Prop) : GwEvent → Prop
  | ⟨.selectActive, ans⟩ => ans = .ok active
  | ⟨.cacheGet queryID, ans⟩ => ans = cached queryID
  | ⟨.headProbes probes, ans⟩ => ans ⊆ probes.map Prod.fst
  | ⟨.selectHistory queryID, ans⟩ => ∀ url, ans = .ok (some url) → stored queryID url
  | ⟨.enterFlight key, ans⟩ => ∀ c, ans = .join c → c.key = key
  | ⟨.awaitFlight c, ans⟩ => ∀ url, ans = .ok url → url = [] ∨ stored c.key url
  | _ => True

def Known (active : List Persistence.Backend) (cached : GoString → Option GoString)
    (stored : GoString → GoString → Prop) (req : RouteInput) (url : GoString) : Prop :=
  (∃ b ∈ active, b.url = url) ∨
    (extractQueryID req ≠ [] ∧
      (cached (extractQueryID req) = some url ∨ stored (extractQueryID req) url)) ∨
    (extractKillQueryID req.body ≠ [] ∧ stored (extractKillQueryID req.body) url)

section Route

variable {active : List Persistence.Backend} {cached : GoString → Option GoString}
  {stored : GoString → GoString → Prop}

theorem listActive_wp :
    listActive.wp (Permitted active cached stored)
      fun res => res = .ok (active.map toActiveBackend) := by
  unfold listActive Persistence.BackendDAO.listActive
  simp only [wp_bind, wp_perform]
  rintro _ rfl
  rfl

theorem headProbeFanOut_wp (queryID : GoString) (backends : List ActiveBackend) :
    (headProbeFanOut queryID backends).wp (Permitted active cached stored)
      fun url => url = [] ∨ ∃ b ∈ backends, b.url = url := by
  unfold headProbeFanOut
  simp only [wp_bind, wp_perform, wp_pure]
  intro arrived harrived
  cases hfind : arrived.find? (· ≠ []) with
  | none => exact Or.inl rfl
  | some url =>
    have hmem := harrived (List.mem_of_find?_eq_some hfind)
    right
    simpa using hmem

theorem recoverFromHistory_wp (queryID : GoString) :
    (recoverFromHistory queryID).wp (Permitted active cached stored)
      fun url => url = [] ∨ stored queryID url := by
  have hlookup : (Persistence.HistoryDAO.lookupByQueryID queryID).wp
      (Permitted active cached stored) fun res => ∀ url, res = .ok url →
        url = [] ∨ stored queryID url := by
    unfold Persistence.HistoryDAO.lookupByQueryID
    simp only [wp_bind, wp_perform]
    rintro (e | _ | url) hans
    · simp
    · simp
    · simpa using Or.inr (hans url rfl)
  have hflight : (singleFlight queryID (Persistence.HistoryDAO.lookupByQueryID queryID)).wp
      (Permitted active cached stored) fun res => ∀ url, res = .ok url →
        url = [] ∨ stored queryID url := by
    unfold singleFlight
    rw [wp_bind, wp_perform]
    rintro (c | c) hentry
    · refine hlookup.bind fun res hres => ?_
      exact fun _ _ _ _ => hres
    · intro res hres url hurl
      rw [← hentry c rfl]
      exact hres url hurl
  unfold recoverFromHistory
  refine hflight.bind ?_
  rintro (e | url) hres
  · exact Or.inl rfl
  · exact hres url rfl

variable (hne : active ≠ []) (hurls : ∀ b ∈ active, b.url ≠ [])

include hne hurls

theorem recoverFromActive_wp (queryID : GoString) :
    (recoverFromActive queryID).wp (Permitted active cached stored)
      fun url => url ≠ [] ∧ ∃ b ∈ active, b.url = url := by
  obtain ⟨b, bs, rfl⟩ := List.exists_cons_of_ne_nil hne
  unfold recoverFromActive
  refine listActive_wp.bind ?_
  rintro _ rfl
  refine (headProbeFanOut_wp queryID _).bind fun url hurl => ?_
  rw [wp_pure]
  split
  · next hnil =>
    obtain ⟨x, hx, rfl⟩ := hurl.resolve_left hnil
    rw [← List.map_cons] at hx
    obtain ⟨y, hy, rfl⟩ := List.mem_map.mp hx
    exact ⟨hnil, y, hy, rfl⟩
  · exact ⟨hurls b List.mem_cons_self, b, List.mem_cons_self, rfl⟩

theorem recoverBackend_wp (queryID : GoString) :
    (recoverBackend queryID).wp (Permitted active cached stored)
      fun url => url ≠ [] ∧ ((∃ b ∈ active, b.url = url) ∨ stored queryID url) := by
  unfold recoverBackend
  refine (recoverFromHistory_wp queryID).bind fun url hurl => ?_
  split
  · next hnil => exact ⟨hnil, Or.inr (hurl.resolve_left hnil)⟩
  · refine (recoverFromActive_wp hne hurls queryID).mono ?_
    rintro url ⟨hnil, hmem⟩
    exact ⟨hnil, Or.inl hmem⟩

theorem firstActiveBackend_wp :
    firstActiveBackend.wp (Permitted active cached stored)
      fun url => url ≠ [] ∧ ∃ b ∈ active, b.url = url := by
  obtain ⟨b, bs, rfl⟩ := List.exists_cons_of_ne_nil hne
  unfold firstActiveBackend
  refine listActive_wp.bind ?_
  rintro _ rfl
  exact ⟨hurls b List.mem_cons_self, b, List.mem_cons_self, rfl⟩

omit hne hurls in
theorem resolveGroup_wp (group : GoString) :
    (resolveGroup group).wp (Permitted active cached stored)
      fun res => ∃ url, res = .ok url ∧ (url = [] ∨ ∃ b ∈ active, b.url = url) := by
  unfold resolveGroup
  refine listActive_wp.bind ?_
  rintro _ rfl
  dsimp only
  cases hfind : (active.map toActiveBackend).find? fun b => b.routingGroup = group with
  | none => exact ⟨[], rfl, Or.inl rfl⟩
  | some x =>
    obtain ⟨b, hb, rfl⟩ := List.mem_map.mp (List.mem_of_find?_eq_some hfind)
    exact ⟨b.url, rfl, Or.inr ⟨b, hb, rfl⟩⟩

variable (req : RouteInput)

theorem routeKill_wp :
    (Router.routeKill req).wp (Permitted active cached stored) fun res =>
      ∀ result, res = some result →
        result.backendURL ≠ [] ∧ Known active cached stored req result.backendURL := by
  unfold Router.routeKill
  split
  · simp
  · next hkill =>
    refine (recoverBackend_wp hne hurls _).bind ?_
    rintro url ⟨hnil, hurl⟩
    rw [if_neg hnil]
    rintro _ ⟨rfl⟩
    exact ⟨hnil, hurl.imp_right fun h => Or.inr ⟨hkill, h⟩⟩

omit hne hurls in
theorem routeCached_wp (hcached : ∀ q url, cached q = some url → url ≠ []) :
    (Router.routeCached req).wp (Permitted active cached stored) fun res =>
      ∀ result, res = some result →
        result.backendURL ≠ [] ∧ Known active cached stored req result.backendURL := by
  unfold Router.routeCached
  split
  · simp
  · next hid =>
    rw [wp_bind, wp_perform]
    rintro (_ | url) hans
    · simp
    · have hurl : cached (extractQueryID req) = some url := hans.symm
      rintro _ ⟨rfl⟩
      exact ⟨hcached _ _ hurl, Or.inr (Or.inl ⟨hid, Or.inl hurl⟩)⟩

theorem routeRecovered_wp (group : GoString) (sel : Selection) :
    (Router.routeRecovered req group sel).wp (Permitted active cached stored) fun result =>
      result.backendURL ≠ [] ∧ Known active cached stored req result.backendURL := by
  have hpath : (Router.recoverPath req).wp (Permitted active cached stored)
      fun url => url = [] ∨ Known active cached stored req url := by
    unfold Router.recoverPath
    split
    · exact Or.inl rfl
    · next hid =>
      refine (recoverBackend_wp hne hurls _).mono ?_
      rintro url ⟨-, hurl⟩
      exact Or.inr (hurl.imp_right fun h => Or.inl ⟨hid, Or.inr h⟩)
  unfold Router.routeRecovered
  refine hpath.bind fun url hurl => ?_
  split
  · next hnil => exact ⟨hnil, hurl.resolve_left hnil⟩
  · refine (firstActiveBackend_wp hne hurls).bind ?_
    rintro first ⟨hnil, hmem⟩
    exact ⟨hnil, Or.inl hmem⟩

theorem routeGroup_wp (r : Router) :
    (r.routeGroup req).wp (Permitted active cached stored) fun result =>
      result.backendURL ≠ [] ∧ Known active cached stored req result.backendURL := by
  unfold Router.routeGroup
  -- any answer of the external router will do
  refine (wp_true (r.callExternal req)).bind ?_
  rintro ⟨sel, err⟩ -
  refine (resolveGroup_wp _).bind ?_
  rintro _ ⟨url, rfl, hurl⟩
  cases url with
  | nil => exact routeRecovered_wp hne hurls req _ sel
  | cons c url => exact ⟨by simp, Or.inl (hurl.resolve_left (by simp))⟩

theorem route_wp (r : Router) (hcached : ∀ q url, cached q = some url → url ≠ []) :
    (r.route req).wp (Permitted active cached stored) fun res => ∃ result, res = .ok result ∧
      result.backendURL ≠ [] ∧ Known active cached stored req result.backendURL := by
  unfold Router.route
  refine (routeKill_wp hne hurls req).bind ?_
  rintro (_ | result) hkill
  · refine (routeCached_wp req hcached).bind ?_
    rintro (_ | result) hcache
    · refine (routeGroup_wp hne hurls req r).bind fun result hresult => ?_
      exact ⟨result, rfl, hresult⟩
    · exact ⟨result, rfl, hcache result rfl⟩
  · exact ⟨result, rfl, hkill result rfl⟩

end Route

theorem cacheAdd_ne_nil (p : Proxy) (r : Request) :
    (p.serveHTTP r).Emits fun h => ∀ q b, ⟨.cacheAdd q b, ()⟩ ∈ h → b ≠ [] := by
  have hnone {P : Op → Bool} (hP : ∀ q b, P (.cacheAdd q b) = false) (h : List GwEvent)
      (hh : ∀ e ∈ h, P e.op) (q b : GoString) (hmem : ⟨.cacheAdd q b, ()⟩ ∈ h) : b ≠ [] := by
    have hop := hh _ hmem
    rw [hP] at hop
    cases hop
  refine serveHTTP_emits (hnone fun _ _ => rfl) ?_ ?_ (hnone fun _ _ => rfl) ?_ p r
  · intro h h' hh hh' q b hmem
    exact (List.mem_append.mp hmem).elim (hh q b) (hh' q b)
  · exact fun q => (singleFlight_performs q).emits (hnone fun _ _ => rfl)
  · intro backendURL hne h hh q b hmem
    have hop : b = backendURL := by simpa [Op.isServing] using hh _ hmem
    rw [hop]
    exact hne

theorem cached_ne_nil {ι : Type} [DecidableEq ι] (p : Proxy) (reqs : ι → Request)
    {history : List Persistence.QueryRecord} {t : List (ι × GwEvent)} {s : Shared}
    {P' : ι → Gw Served}
    (hrun : Steps exec (.init history) (fun i => p.serveHTTP (reqs i)) t s P')
    {q url : GoString} (h : s.cache.lookup q = some url) : url ≠ [] := by
  have hlast := (cache_run hrun.effect).lookup_sound h
  have hmem := write_mem_cacheUses.mp (Lru.write_mem_of_lastWrite hlast)
  obtain ⟨⟨i, e⟩, he, rfl⟩ := List.mem_map.mp hmem
  exact cacheAdd_ne_nil p (reqs i) (hrun.path i) q url (mem_localTrace.mpr he)

/-- While some backend is active and all active ones have URLs, `Route` returns a backend that is
active, cached or recorded, however its surroundings behave. -/
theorem route_available {ι : Type} [DecidableEq ι] (p : Proxy) (reqs : ι → Request)
    {history : List Persistence.QueryRecord} {t : List (ι × GwEvent)} {s : Shared}
    {P' : ι → Gw Served}
    (hrun : Steps exec (.init history) (fun i => p.serveHTTP (reqs i)) t s P')
    (req : RouteInput) (active : List Persistence.Backend)
    (stored : GoString → GoString → Prop) (ora : Oracle Op.Ret) (h : List GwEvent)
    (hora : ∀ h o, Permitted active s.cache.lookup stored ⟨o, ora h o⟩)
    (hne : active ≠ []) (hurls : ∀ b ∈ active, b.url ≠ []) :
    ∃ result, ((p.router.route req).run ora h).2 = .ok result ∧ result.backendURL ≠ [] ∧
      Known active s.cache.lookup stored req result.backendURL :=
  (route_wp hne hurls req p.router fun _ _ => cached_ne_nil p reqs hrun).run hora h

private def availableWorld : World where
  active := .ok [sampleBackend "http://a" "etl"]

/-- Nothing is recorded or cached, and no probe and no external router answers. -/
private theorem availableWorld_permitted (h : List GwEvent) (o : Op) :
    Permitted [sampleBackend "http://a" "etl"] (Shared.init []).cache.lookup (fun _ _ => False)
      ⟨o, (fun _ o => availableWorld.answers (.init []) o : Oracle Op.Ret) h o⟩ := by
  cases o with
  | headProbes probes => exact List.filter_sublist.subset
  | selectActive => rfl
  | cacheGet q => rfl
  | selectHistory q => rintro url ⟨⟩
  | enterFlight key => rintro c ⟨⟩
  | awaitFlight c => rintro url ⟨⟩
  | _ => trivial

theorem route_available_sample :
    let req := newRouteInput (sampleRequest "GET" "/v1/query/1_2_3_x" "") []
    let ora : Oracle Op.Ret := fun _ o => availableWorld.answers (.init []) o
    ∃ result, (((sampleProxy true).router.route req).run ora []).2 = .ok result ∧
      result.backendURL ≠ [] ∧
      Known [sampleBackend "http://a" "etl"] (Shared.init []).cache.lookup (fun _ _ => False) req
        result.backendURL :=
  route_available (sampleProxy true) (fun _ : Unit => sampleRequest "GET" "/" "") .start _ _ _ _ []
    availableWorld_permitted (by simp) (by decide)

end TrinoGoway
