import TrinoGoway.Gateway.Upstream
import TrinoGoway.Lib.Heap

/-! Header maps in memory. The upstream map is a new one, but its values are the slices of the
inbound map, so the two share their arrays; a `Set` puts a new array under its name. -/
namespace TrinoGoway

open Go Go.Http Routing Prog Heap

/-- The arrays of header values and the header maps; a map holds slices of allocated arrays. -/
structure Memory where
  arrays : Heap (List GoString)
  maps : Heap (GoMap Slice)
  allocated : ∀ slices ∈ maps.cells, ∀ e ∈ slices.entries, e.2.cell < arrays.size

namespace Memory

variable (m : Memory)

def slices (ref : ℕ) : GoMap Slice := (m.maps.load ref).getD .empty

def header (ref : ℕ) : Header := (m.slices ref).mapVals m.arrays.read

theorem slices_allocated (ref : ℕ) : ∀ e ∈ (m.slices ref).entries, e.2.cell < m.arrays.size := by
  unfold slices
  cases hload : m.maps.load ref with
  | none =>
    intro e he
    cases he
  | some slices => exact m.allocated slices (mem_of_load _ hload)

def set (ref : ℕ) (name value : GoString) : Memory where
  arrays := m.arrays.alloc [value]
  maps := m.maps.store ref
    ((m.slices ref).set (canonicalHeaderKey name) (m.arrays.fresh [value]))
  allocated := by
    refine forall_store _ ?_ ?_ ref
    · intro slices hmem e he
      have hlt := m.allocated slices hmem e he
      rw [size_alloc]
      omega
    · intro e he
      rw [size_alloc]
      rcases List.mem_cons.mp he with rfl | he
      · exact Nat.lt_succ_self _
      · have hlt := m.slices_allocated ref e (List.mem_of_mem_filter he)
        omega

/-- The map of a new upstream request: the inbound slices, except the hop-by-hop ones. -/
def buildUpstreamRequest (inbound : ℕ) : Memory where
  arrays := m.arrays
  maps := m.maps.alloc ((m.slices inbound).filterKeys fun k => !Proxy.isHopByHop k)
  allocated := by
    refine forall_alloc _ m.allocated ?_
    intro e he
    exact m.slices_allocated inbound e (List.mem_of_mem_filter he)

def injectHeaders (up : ℕ) (r : Request) (externalHeaders : Option (GoMap GoString)) : Memory :=
  let existing := (m.header up).get (str "X-Forwarded-For")
  let ip := Proxy.clientIP r.remoteAddr
  let proto := if r.tls then str "https" else str "http"
  let m := m.set up (str "X-Forwarded-For")
    (if existing ≠ [] then existing ++ str ", " ++ ip else ip)
  let m := m.set up (str "X-Forwarded-Proto") proto
  let m := m.set up (str "X-Forwarded-Host") (Proxy.hostOnly r.host)
  let m := m.set up (str "X-Forwarded-Port") (Proxy.forwardedPort r.host proto)
  (externalHeaders.getD .empty).entries.foldl (fun m e => m.set up e.1 e.2) m

/-- The memory once the upstream request is built and its headers are injected. The map of the
upstream request is named by the old number of maps. -/
def forward (inbound : ℕ) (r : Request) (externalHeaders : Option (GoMap GoString)) : Memory :=
  (m.buildUpstreamRequest inbound).injectHeaders m.maps.size r externalHeaders

/-! ### Reading the maps -/

theorem mapVals_read_alloc {slices : GoMap Slice} {arrays : Heap (List GoString)}
    (h : ∀ e ∈ slices.entries, e.2.cell < arrays.size) (xs : List GoString) :
    slices.mapVals (arrays.alloc xs).read = slices.mapVals arrays.read := by
  unfold GoMap.mapVals
  congr 1
  refine List.map_congr_left fun e he => ?_
  rw [read_alloc_of_lt (h e he)]

theorem header_set_of_ne {ref ref' : ℕ} (hne : ref' ≠ ref) (name value : GoString) :
    (m.set ref name value).header ref' = m.header ref' := by
  have hslices : (m.set ref name value).slices ref' = m.slices ref' := by
    unfold slices set
    rw [load_store_of_ne _ hne]
  unfold header
  rw [hslices]
  exact mapVals_read_alloc (m.slices_allocated ref') [value]

theorem header_set_self {ref : ℕ} (href : ref < m.maps.size) (name value : GoString) :
    (m.set ref name value).header ref = (m.header ref).set name value := by
  have hslices : (m.set ref name value).slices ref =
      (m.slices ref).set (canonicalHeaderKey name) (m.arrays.fresh [value]) := by
    unfold slices
    change ((m.maps.store ref _).load ref).getD _ = _
    rw [load_store_self _ href]
    rfl
  unfold header
  rw [hslices]
  change ((m.slices ref).set _ _).mapVals (m.arrays.alloc [value]).read = _
  rw [GoMap.mapVals_set, mapVals_read_alloc (m.slices_allocated ref), read_alloc_fresh]
  rfl

theorem size_maps_set (ref : ℕ) (name value : GoString) :
    (m.set ref name value).maps.size = m.maps.size := size_store _ _ _

theorem header_buildUpstreamRequest {inbound : ℕ} :
    (m.buildUpstreamRequest inbound).header m.maps.size =
      (m.header inbound).filterKeys fun k => !Proxy.isHopByHop k := by
  unfold header
  rw [← GoMap.mapVals_filterKeys]
  unfold slices
  change GoMap.mapVals (((m.maps.alloc _).load _).getD _) _ = _
  rw [load_alloc_self]
  rfl

theorem header_buildUpstreamRequest_of_lt {inbound ref : ℕ} (href : ref < m.maps.size) :
    (m.buildUpstreamRequest inbound).header ref = m.header ref := by
  unfold header slices
  change GoMap.mapVals (((m.maps.alloc _).load _).getD _) _ = _
  rw [load_alloc_of_lt _ href]
  rfl

/-! ### The injected headers -/

theorem header_foldl_set {up : ℕ} (hup : up < m.maps.size) (es : List (GoString × GoString)) :
    (es.foldl (fun m e => m.set up e.1 e.2) m).header up =
        es.foldl (fun h e => Header.set h e.1 e.2) (m.header up) ∧
      ∀ ref ≠ up, (es.foldl (fun m e => m.set up e.1 e.2) m).header ref = m.header ref := by
  induction es generalizing m with
  | nil => exact ⟨rfl, fun _ _ => rfl⟩
  | cons e es ih =>
    have hup' : up < (m.set up e.1 e.2).maps.size := by
      rw [size_maps_set]
      exact hup
    obtain ⟨hself, hother⟩ := ih (m.set up e.1 e.2) hup'
    rw [List.foldl_cons, List.foldl_cons]
    constructor
    · rw [hself, header_set_self m hup]
    · intro ref hne
      rw [hother ref hne, header_set_of_ne m hne]

/-- In memory the upstream map is as `Proxy.injectHeaders` computes it, and no other map changes. -/
theorem header_injectHeaders {up : ℕ} (hup : up < m.maps.size) (r : Request)
    (externalHeaders : Option (GoMap GoString)) :
    (m.injectHeaders up r externalHeaders).header up =
        Proxy.injectHeaders (m.header up) r externalHeaders ∧
      ∀ ref ≠ up, (m.injectHeaders up r externalHeaders).header ref = m.header ref := by
  -- all of them are calls of `Set`, the forwarded ones first
  exact header_foldl_set m hup
    ((str "X-Forwarded-For",
        if (m.header up).get (str "X-Forwarded-For") ≠ [] then
          (m.header up).get (str "X-Forwarded-For") ++ str ", " ++ Proxy.clientIP r.remoteAddr
        else Proxy.clientIP r.remoteAddr) ::
      (str "X-Forwarded-Proto", if r.tls then str "https" else str "http") ::
      (str "X-Forwarded-Host", Proxy.hostOnly r.host) ::
      (str "X-Forwarded-Port",
        Proxy.forwardedPort r.host (if r.tls then str "https" else str "http")) ::
      (externalHeaders.getD .empty).entries)

/-- **Refinement.** The upstream map is the one that the gateway's model computes from what the
inbound map holds, and the maps that were there before hold what they held. -/
theorem header_forward {inbound : ℕ} (r : Request) (externalHeaders : Option (GoMap GoString)) :
    (m.forward inbound r externalHeaders).header m.maps.size =
        Proxy.injectHeaders ((m.header inbound).filterKeys fun k => !Proxy.isHopByHop k) r
          externalHeaders ∧
      ∀ ref < m.maps.size, (m.forward inbound r externalHeaders).header ref = m.header ref := by
  have hup : m.maps.size < (m.buildUpstreamRequest inbound).maps.size := by
    change m.maps.size < (m.maps.alloc _).size
    rw [size_alloc]
    omega
  obtain ⟨hself, hother⟩ := header_injectHeaders (m.buildUpstreamRequest inbound) hup r
    externalHeaders
  constructor
  · rw [← header_buildUpstreamRequest]
    exact hself
  · intro ref href
    rw [← header_buildUpstreamRequest_of_lt m href]
    exact hother ref (by omega)

end Memory

/-! ### The router's headers -/

def CanonicalNames (h : Header) : Prop := ∀ k, (h.get? k).isSome → canonicalHeaderKey k = k

theorem CanonicalNames.filterKeys {h : Header} (hh : CanonicalNames h) (p : GoString → Bool) :
    CanonicalNames (h.filterKeys p) := by
  intro k hk
  rw [GoMap.get?_filterKeys] at hk
  split at hk
  · exact hh k hk
  · cases hk

theorem CanonicalNames.set {h : Header} (hh : CanonicalNames h) (name value : GoString) :
    CanonicalNames (h.set name value) := by
  intro k hk
  rw [Header.get?_set] at hk
  split at hk
  · rename_i heq
    rw [heq, canonicalHeaderKey_canonicalHeaderKey]
  · exact hh k hk

theorem CanonicalNames.foldl_set {h : Header} (hh : CanonicalNames h)
    (es : List (GoString × GoString)) :
    CanonicalNames (es.foldl (fun h e => Header.set h e.1 e.2) h) := by
  induction es generalizing h with
  | nil => exact hh
  | cons e es ih => exact ih (hh.set e.1 e.2)

theorem canonicalNames_injectHeaders {header : Header} (hh : CanonicalNames header) (r : Request)
    (externalHeaders : Option (GoMap GoString)) :
    CanonicalNames (Proxy.injectHeaders header r externalHeaders) := by
  unfold Proxy.injectHeaders
  apply CanonicalNames.foldl_set
  exact (((hh.set _ _).set _ _).set _ _).set _ _

def Named (headers : List GoString) (k : GoString) : Prop := ∃ e ∈ headers, equalFold e k = true

theorem named_of_isExcluded {headers : List GoString} {k : GoString}
    (h : isExcluded headers k = true) : Named headers k := by
  unfold isExcluded at h
  obtain ⟨e, he, heq⟩ := List.mem_map.mp (List.contains_iff_mem.mp h)
  exact ⟨e, he, equalFold_of_canonicalHeaderKey_eq heq⟩

theorem isExcluded_of_named {headers : List GoString} {k : GoString} (hk : k.all isTokenByte)
    (h : Named headers k) : isExcluded headers k = true := by
  obtain ⟨e, he, heq⟩ := h
  unfold isExcluded
  rw [List.contains_iff_mem, List.mem_map]
  refine ⟨e, he, ?_⟩
  symm
  rw [canonicalHeaderKey_eq_iff hk]
  rw [equalFold_iff] at heq ⊢
  exact heq.symm

/-- What a routing decision passes on of the router's headers is what is not on the list. -/
theorem mem_passedOn {router : Router} {headers : GoMap GoString} {e : GoString × GoString} :
    e ∈ (router.passedOn headers).entries ↔
      e ∈ headers.entries ∧ isExcluded router.cfg.external.excludeHeaders e.1 = false := by
  unfold Router.passedOn GoMap.filterKeys
  rw [List.mem_filter]
  simp

section Names

variable {headers : GoMap GoString} {router : Router} {header : Header} {r : Request}
    (hdistinct : ∀ k k', (headers.get? k).isSome → (headers.get? k').isSome →
      equalFold k k' = true → k = k')
    (htoken : ∀ k, (headers.get? k).isSome → k.all isTokenByte)

include hdistinct in
/-- A header of the router that is not on the exclude list replaces what was there. -/
theorem get?_injectHeaders_passedOn {k v : GoString} (hk : headers.get? k = some v)
    (hnamed : ¬ Named router.cfg.external.excludeHeaders k) :
    (Proxy.injectHeaders header r (some (router.passedOn headers))).get? (canonicalHeaderKey k) =
      some [v] := by
  have hmem : (k, v) ∈ (router.passedOn headers).entries := by
    rw [mem_passedOn]
    refine ⟨GoMap.get?_eq_some.mp hk, ?_⟩
    cases hex : isExcluded router.cfg.external.excludeHeaders k with
    | true => exact absurd (named_of_isExcluded hex) hnamed
    | false => rfl
  rw [Proxy.injectHeaders_some]
  refine GoMap.get?_foldl_set_of_mem (f := canonicalHeaderKey) (g := fun v : GoString => [v])
    hmem ?_
  rintro ⟨k', v'⟩ he heq
  have hk' : headers.get? k' = some v' := GoMap.get?_eq_some.mpr (mem_passedOn.mp he).1
  have hsame : k' = k := hdistinct k' k (by rw [hk']; rfl) (by rw [hk]; rfl)
    (equalFold_of_canonicalHeaderKey_eq heq)
  subst hsame
  rw [hk] at hk'
  obtain rfl := Option.some.inj hk'
  rfl

include htoken in
/-- A name on the exclude list, or one that the router did not return, keeps its values. -/
theorem get?_injectHeaders_framed {k : GoString}
    (hk : Named router.cfg.external.excludeHeaders k ∨
      ∀ k', (headers.get? k').isSome → equalFold k' k = false) :
    (Proxy.injectHeaders header r (some (router.passedOn headers))).get? k =
      (Proxy.injectHeaders header r none).get? k := by
  rw [Proxy.injectHeaders_some]
  refine GoMap.get?_foldl_set_of_ne (f := canonicalHeaderKey) (g := fun v : GoString => [v]) ?_
  rintro ⟨k', v'⟩ he rfl
  obtain ⟨hin, hkept⟩ := mem_passedOn.mp he
  have hsome : (headers.get? k').isSome := by
    rw [GoMap.get?_eq_some.mpr hin]
    rfl
  have hfold : equalFold k' (canonicalHeaderKey k') = true :=
    equalFold_of_canonicalHeaderKey_eq (canonicalHeaderKey_canonicalHeaderKey k').symm
  rcases hk with ⟨e, heq, hek⟩ | hk
  · have hnamed : Named router.cfg.external.excludeHeaders k' := by
      refine ⟨e, heq, ?_⟩
      rw [equalFold_iff] at hek hfold ⊢
      rw [hek, hfold]
    rw [isExcluded_of_named (htoken k' hsome) hnamed] at hkept
    cases hkept
  · rw [hk k' hsome] at hfold
    cases hfold

end Names

/-- **Router headers replace, the rest is framed.** In every run of a routing decision, with header
names of the router that are valid and differ pairwise ignoring case, and an inbound map with
canonical names: each header of the router that is not named in the exclude list has exactly the
router's value upstream, under one spelling; a name on the list, and one that the router did not
return, has the values it has without the router; and the inbound map holds what it held. -/
theorem upstream_headers_framed (router : Router) (req : RouteInput) {h : List GwEvent}
    {result : RouteResult} (hroute : Runs (router.route req) h (.ok result))
    (hdistinct : ∀ k k', ((routerHeaders h).get? k).isSome → ((routerHeaders h).get? k').isSome →
      equalFold k k' = true → k = k')
    (htoken : ∀ k, ((routerHeaders h).get? k).isSome → k.all isTokenByte)
    (m : Memory) {inbound : ℕ} (hin : inbound < m.maps.size)
    (hcanonical : CanonicalNames (m.header inbound)) (r : Request) :
    let m' := m.forward inbound r result.externalHeaders
    let upstream := m'.header m.maps.size
    (∀ k v, (routerHeaders h).get? k = some v →
        ¬ Named router.cfg.external.excludeHeaders k →
        upstream.get? (canonicalHeaderKey k) = some [v] ∧
          ∀ k', equalFold k' k = true → (upstream.get? k').isSome → k' = canonicalHeaderKey k) ∧
      (∀ k, (Named router.cfg.external.excludeHeaders k ∨
          ∀ k', ((routerHeaders h).get? k').isSome → equalFold k' k = false) →
        upstream.get? k = ((m.forward inbound r none).header m.maps.size).get? k) ∧
      m'.header inbound = m.header inbound := by
  have hext : ∀ header, Proxy.injectHeaders header r result.externalHeaders =
      Proxy.injectHeaders header r (some (router.passedOn (routerHeaders h))) := by
    intro header
    rw [← route_headers hroute]
    rfl
  intro m' upstream
  have hup : upstream = Proxy.injectHeaders
      ((m.header inbound).filterKeys fun k => !Proxy.isHopByHop k) r
      (some (router.passedOn (routerHeaders h))) :=
    (m.header_forward r result.externalHeaders).1.trans (hext _)
  have hnames : CanonicalNames upstream := by
    rw [hup]
    exact canonicalNames_injectHeaders (hcanonical.filterKeys _) r _
  refine ⟨?_, ?_, (m.header_forward r result.externalHeaders).2 inbound hin⟩
  · intro k v hk hnamed
    constructor
    · rw [hup]
      exact get?_injectHeaders_passedOn hdistinct hk hnamed
    · intro k' hfold hsome
      have htok : k.all isTokenByte := htoken k (by rw [hk]; rfl)
      have heq : canonicalHeaderKey k = canonicalHeaderKey k' := by
        rw [canonicalHeaderKey_eq_iff htok]
        rw [equalFold_iff] at hfold ⊢
        exact hfold.symm
      rw [heq]
      exact (hnames k' hsome).symm
  · intro k hk
    rw [hup, (m.header_forward r none).1]
    exact get?_injectHeaders_framed htoken hk

section Samples

def sampleMemory : Memory where
  arrays := ⟨[[str "alice"], [str "s1"]]⟩
  maps := ⟨[(GoMap.set .empty (str "X-Trino-User") ⟨0, 0, 1⟩).set (str "X-Secret") ⟨1, 0, 1⟩]⟩
  allocated := by
    intro slices hmem
    obtain rfl := List.mem_singleton.mp hmem
    intro e he
    change e.2.cell < 2
    rcases List.mem_cons.mp he with rfl | he
    · decide
    · obtain rfl := List.mem_singleton.mp he
      decide

def sampleRouterHeaders : GoMap GoString :=
  (GoMap.set .empty (str "x-trino-user") (str "etl")).set (str "x-secret") (str "leak")

def routedDecision (exclude : List GoString) : Gw (Except GoError RouteResult) :=
  (routedProxy exclude).router.route (newRouteInput (sampleRequest "GET" "/v1/info" "") [])

def routedAnswers (headers : GoMap GoString) : ∀ o : Op, o.Ret :=
  World.answers
    { active := .ok [sampleBackend "http://a" "adhoc"]
      http := fun _ => .ok ⟨200, .ok ⟨some (str "adhoc"), [], some headers⟩⟩ } (.init [])

def routedResult (headers : GoMap GoString) : RouteResult :=
  ⟨str "http://a", str "adhoc", some headers, [], .ok⟩

end Samples

theorem upstream_headers_framed_sample :
    let h := (routedDecision [str "X-SECRET"]).trace (routedAnswers sampleRouterHeaders)
    let result := routedResult (GoMap.set .empty (str "x-trino-user") (str "etl"))
    let m' := sampleMemory.forward 0 (sampleRequest "GET" "/v1/info" "") result.externalHeaders
    Runs (routedDecision [str "X-SECRET"]) h (.ok result) ∧
      (m'.header 1).get? (str "X-Trino-User") = some [str "etl"] ∧
      (m'.header 1).get? (str "X-Secret") = some [str "s1"] ∧
      m'.header 0 = sampleMemory.header 0 := by
  intro h result m'
  have hroute : Runs (routedDecision [str "X-SECRET"]) h (.ok result) := by
    have heval : (routedDecision [str "X-SECRET"]).eval (routedAnswers sampleRouterHeaders) =
        .ok result := by decide +kernel
    rw [← heval]
    exact runs_trace _ _
  have hheaders : routerHeaders h = sampleRouterHeaders := by decide +kernel
  have hnames : ∀ k, (sampleRouterHeaders.get? k).isSome →
      k = str "x-secret" ∨ k = str "x-trino-user" := by
    intro k hk
    obtain ⟨v, hv⟩ := Option.isSome_iff_exists.mp hk
    rcases List.mem_cons.mp (GoMap.get?_eq_some.mp hv) with heq | hmem
    · exact Or.inl (Prod.mk.inj heq).1
    · exact Or.inr (Prod.mk.inj (List.mem_singleton.mp hmem)).1
  have hcanonical : CanonicalNames (sampleMemory.header 0) := by
    intro k hk
    obtain ⟨v, hv⟩ := Option.isSome_iff_exists.mp hk
    rcases List.mem_cons.mp (GoMap.get?_eq_some.mp hv) with heq | hmem
    · rw [(Prod.mk.inj heq).1]
      decide
    · rw [(Prod.mk.inj (List.mem_singleton.mp hmem)).1]
      decide
  have hframed := upstream_headers_framed (routedProxy [str "X-SECRET"]).router
    (newRouteInput (sampleRequest "GET" "/v1/info" "") []) hroute
    (by
      rw [hheaders]
      intro k k' hk hk'
      rcases hnames k hk with rfl | rfl <;> rcases hnames k' hk' with rfl | rfl <;> decide)
    (by
      rw [hheaders]
      intro k hk
      rcases hnames k hk with rfl | rfl <;> decide)
    sampleMemory (by decide) hcanonical (sampleRequest "GET" "/v1/info" "")
  obtain ⟨hreplaced, hkept, hinbound⟩ := hframed
  refine ⟨hroute, ?_, ?_, hinbound⟩
  · refine (hreplaced (str "x-trino-user") (str "etl") (by rw [hheaders]; decide) ?_).1
    rintro ⟨e, he, heq⟩
    obtain rfl := List.mem_singleton.mp he
    exact absurd heq (by decide)
  · refine (hkept (str "X-Secret") (Or.inl ⟨str "X-SECRET", ?_, by decide⟩)).trans ?_
    · exact List.mem_singleton.mpr rfl
    · decide +kernel

/-- The exclude list holds `x secret`, and the router returns `X Secret`: with a blank in it a name
has no canonical form, so the two are taken for different names and the header goes upstream. -/
theorem invalid_name_not_excluded :
    let exclude := [str "x secret"]
    let headers := GoMap.set .empty (str "X Secret") (str "leak")
    let h := (routedDecision exclude).trace (routedAnswers headers)
    let result := routedResult headers
    let forwarded := fun ext =>
      (sampleMemory.forward 0 (sampleRequest "GET" "/v1/info" "") ext).header 1
    Runs (routedDecision exclude) h (.ok result) ∧ routerHeaders h = headers ∧
      Named exclude (str "X Secret") ∧
      (forwarded result.externalHeaders).get? (str "X Secret") = some [str "leak"] ∧
      (forwarded none).get? (str "X Secret") = none := by
  intro exclude headers h result forwarded
  refine ⟨?_, by decide +kernel, ⟨str "x secret", List.mem_singleton.mpr rfl, by decide⟩,
    by decide +kernel, by decide +kernel⟩
  have heval : (routedDecision exclude).eval (routedAnswers headers) = .ok result := by
    decide +kernel
  rw [← heval]
  exact runs_trace _ _

end TrinoGoway
