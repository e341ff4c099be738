import TrinoGoway.Routing.Calls

/-! The headers that a routing decision carries: those of the external router's answer, without the
excluded ones. -/
namespace TrinoGoway

open Go Go.Http Routing Prog

def answeredHeaders : Event Op.Ret → Option (GoMap GoString)
  | ⟨.grpcRoute _ _, .ok resp⟩ => some (resp.externalHeaders.getD .empty)
  | ⟨.httpRoute _, .ok ⟨200, .ok result⟩⟩ => some (result.externalHeaders.getD .empty)
  | _ => none

def routerHeaders (h : List (Event Op.Ret)) : GoMap GoString :=
  (h.findSome? answeredHeaders).getD .empty

def Routing.Router.passedOn (r : Router) (headers : GoMap GoString) : GoMap GoString :=
  headers.filterKeys fun k => !isExcluded r.cfg.external.excludeHeaders k

theorem answeredHeaders_of_not_isExternal {e : Event Op.Ret} (h : e.op.isExternal = false) :
    answeredHeaders e = none := by
  obtain ⟨o, ans⟩ := e
  cases o with
  | grpcRoute timeout req => cases h
  | httpRoute req => cases h
  | _ => rfl

theorem findSome?_of_not_isExternal {h : List (Event Op.Ret)}
    (hno : ∀ e ∈ h, e.op.isExternal = false) : h.findSome? answeredHeaders = none := by
  rw [List.findSome?_eq_none_iff]
  intro e he
  exact answeredHeaders_of_not_isExternal (hno e he)

theorem routerHeaders_append_right {h h' : List (Event Op.Ret)}
    (hno : ∀ e ∈ h', e.op.isExternal = false) : routerHeaders (h ++ h') = routerHeaders h := by
  unfold routerHeaders
  rw [List.findSome?_append, findSome?_of_not_isExternal hno, Option.or_none]

theorem routerHeaders_append_left {h h' : List (Event Op.Ret)}
    (hno : ∀ e ∈ h, e.op.isExternal = false) : routerHeaders (h ++ h') = routerHeaders h' := by
  unfold routerHeaders
  rw [List.findSome?_append, findSome?_of_not_isExternal hno, Option.none_or]

section Decision

variable {r : Router} {req : RouteInput} {h : List (Event Op.Ret)}

theorem filterExcludedHeaders_getD (headers : Option (GoMap GoString)) :
    (r.filterExcludedHeaders headers).getD .empty = r.passedOn (headers.getD .empty) := by
  unfold Router.filterExcludedHeaders Router.passedOn
  split
  · rename_i hnil
    have hkeep : ∀ k, (!isExcluded r.cfg.external.excludeHeaders k) = true := by
      intro k
      rw [hnil]
      rfl
    simp [GoMap.filterKeys, hkeep]
  · rfl

/-- What a transport selected carries the headers of its answer; after a failure there are none. -/
def Carries (h : List (Event Op.Ret)) : Except GoError Selection → Prop
  | .ok sel => sel.headers.getD .empty = routerHeaders h
  | .error _ => h.findSome? answeredHeaders = none

theorem selectGroupHTTP_carries {urls : URLCodec} {cfg : ExternalConfig}
    {res : Except GoError Selection} (hruns : Runs (selectGroupHTTP urls cfg req) h res) :
    Carries h res := by
  unfold selectGroupHTTP at hruns
  split at hruns
  · obtain ⟨rfl, rfl⟩ := hruns.runs_ret
    rfl
  · cases hparse : urls.parse cfg.url with
    | error e =>
      rw [hparse] at hruns
      obtain ⟨rfl, rfl⟩ := hruns.runs_ret
      rfl
    | ok u =>
      rw [hparse, perform_bind] at hruns
      cases hruns with
      | cons ans ht =>
        match ans, ht with
        | .error e, ht =>
          obtain ⟨rfl, rfl⟩ := ht.runs_ret
          rfl
        | .ok ⟨status, decoded⟩, ht =>
          dsimp only at ht
          split at ht
          · rename_i hstatus
            obtain ⟨rfl, rfl⟩ := ht.runs_ret
            have hnone : answeredHeaders ⟨.httpRoute (routerRequest cfg req),
                .ok ⟨status, decoded⟩⟩ = none := by
              unfold answeredHeaders
              split
              · rename_i heq
                cases heq
              · rename_i heq
                cases heq
                exact absurd rfl hstatus
              · rfl
            change List.findSome? _ _ = none
            rw [List.findSome?_cons, hnone]
            rfl
          · rename_i hstatus
            rw [ne_eq, not_not] at hstatus
            subst hstatus
            cases decoded with
            | error e =>
              obtain ⟨rfl, rfl⟩ := ht.runs_ret
              rfl
            | ok result =>
              obtain ⟨rfl, rfl⟩ := ht.runs_ret
              rfl

theorem selectGroupGRPC_carries {cfg : ExternalConfig} {res : Except GoError Selection}
    (hruns : Runs (selectGroupGRPC cfg req) h res) : Carries h res := by
  unfold selectGroupGRPC at hruns
  rw [perform_bind] at hruns
  cases hruns with
  | cons ans ht =>
    cases ans with
    | error e =>
      obtain ⟨rfl, rfl⟩ := ht.runs_ret
      rfl
    | ok resp =>
      obtain ⟨rfl, rfl⟩ := ht.runs_ret
      rfl

theorem callHTTP_headers {sel : Selection} {err : Option GoError}
    (hruns : Runs (r.callHTTP req) h (sel, err)) :
    sel.headers.getD .empty = r.passedOn (routerHeaders h) := by
  unfold Router.callHTTP at hruns
  obtain ⟨h₁, h₂, res, rfl, h₁r, h₂r⟩ := hruns.runs_bind
  have hcarries := selectGroupHTTP_carries h₁r
  cases res with
  | ok sel' =>
    obtain ⟨rfl, hres⟩ := h₂r.runs_ret
    obtain ⟨rfl, -⟩ := Prod.mk.inj hres
    rw [List.append_nil, filterExcludedHeaders_getD]
    congr 1
  | error e =>
    obtain ⟨rfl, hres⟩ := h₂r.runs_ret
    obtain ⟨rfl, -⟩ := Prod.mk.inj hres
    have hnone : h₁.findSome? answeredHeaders = none := hcarries
    rw [List.append_nil, filterExcludedHeaders_getD, routerHeaders, hnone]

theorem callExternal_headers {sel : Selection} {err : Option GoError}
    (hruns : Runs (r.callExternal req) h (sel, err)) :
    sel.headers.getD .empty = r.passedOn (routerHeaders h) := by
  unfold Router.callExternal at hruns
  split at hruns
  · exact callHTTP_headers hruns
  · obtain ⟨h₁, h₂, res, rfl, h₁r, h₂r⟩ := hruns.runs_bind
    have hcarries := selectGroupGRPC_carries h₁r
    cases res with
    | ok sel' =>
      obtain ⟨rfl, hres⟩ := h₂r.runs_ret
      obtain ⟨rfl, -⟩ := Prod.mk.inj hres
      rw [List.append_nil, filterExcludedHeaders_getD]
      congr 1
    | error e =>
      have hnone : h₁.findSome? answeredHeaders = none := hcarries
      have hrest : routerHeaders (h₁ ++ h₂) = routerHeaders h₂ := by
        unfold routerHeaders
        rw [List.findSome?_append, hnone, Option.none_or]
      rw [hrest]
      exact callHTTP_headers h₂r

def NotAsked (h : List (Event Op.Ret)) : Prop := ∀ e ∈ h, e.op.isExternal = false

theorem NotAsked.of_isAsking (h : List (Event Op.Ret)) (hh : ∀ e ∈ h, e.op.isAsking) :
    NotAsked h :=
  fun e he => Op.not_isExternal_of_isAsking (hh e he)

theorem NotAsked.append (h h' : List (Event Op.Ret)) (hh : NotAsked h) (hh' : NotAsked h') :
    NotAsked (h ++ h') :=
  fun e he => (List.mem_append.mp he).elim (hh e) (hh' e)

theorem NotAsked.singleFlight (q : GoString) :
    (singleFlight q (Persistence.HistoryDAO.lookupByQueryID q)).Emits NotAsked :=
  (singleFlight_performs q).emits fun _ hh e he => Op.not_isExternal_of_isLookup (hh e he)

/-- The headers of a decision are those that the router returned, without the excluded ones. -/
theorem routeGroup_headers {result : RouteResult} (hruns : Runs (r.routeGroup req) h result) :
    result.externalHeaders.getD .empty = r.passedOn (routerHeaders h) := by
  unfold Router.routeGroup at hruns
  obtain ⟨h₁, h₂, ⟨sel, err⟩, rfl, h₁r, h₂r⟩ := hruns.runs_bind
  obtain ⟨h₃, h₄, url, rfl, h₃r, h₄r⟩ := h₂r.runs_bind
  have hsel := callExternal_headers h₁r
  have hresolve : NotAsked h₃ := (resolveGroup_performs _).emits NotAsked.of_isAsking h₃r
  have hrecovered : ∀ {group h result}, Runs (Router.routeRecovered req group sel) h result →
      NotAsked h ∧ result.externalHeaders = sel.headers := by
    intro group h result hrec
    refine ⟨routeRecovered_emits NotAsked.of_isAsking NotAsked.append NotAsked.singleFlight
      req group sel hrec, ?_⟩
    unfold Router.routeRecovered at hrec
    obtain ⟨h₅, h₆, url, rfl, -, h₆r⟩ := hrec.runs_bind
    split at h₆r
    · obtain ⟨-, rfl⟩ := h₆r.runs_ret
      rfl
    · obtain ⟨h₇, h₈, first, rfl, -, h₈r⟩ := h₆r.runs_bind
      obtain ⟨-, rfl⟩ := h₈r.runs_ret
      rfl
  have hrest : NotAsked h₄ ∧ result.externalHeaders = sel.headers := by
    match url, h₄r with
    | .error e, h₄r => exact hrecovered h₄r
    | .ok [], h₄r => exact hrecovered h₄r
    | .ok (c :: url), h₄r =>
      obtain ⟨rfl, rfl⟩ := h₄r.runs_ret
      exact ⟨List.forall_mem_nil _, rfl⟩
  rw [routerHeaders_append_right (NotAsked.append _ _ hresolve hrest.1), hrest.2, hsel]

theorem routeKill_headers {result : RouteResult}
    (hruns : Runs (Router.routeKill req) h (some result)) : result.externalHeaders = none := by
  unfold Router.routeKill at hruns
  split at hruns
  · obtain ⟨-, hres⟩ := hruns.runs_ret
    cases hres
  · obtain ⟨h₁, h₂, url, rfl, -, h₂r⟩ := hruns.runs_bind
    split at h₂r
    · obtain ⟨-, hres⟩ := h₂r.runs_ret
      cases hres
    · obtain ⟨-, hres⟩ := h₂r.runs_ret
      obtain rfl := Option.some.inj hres
      rfl

theorem routeCached_headers {result : RouteResult}
    (hruns : Runs (Router.routeCached req) h (some result)) : result.externalHeaders = none := by
  unfold Router.routeCached at hruns
  split at hruns
  · obtain ⟨-, hres⟩ := hruns.runs_ret
    cases hres
  · obtain ⟨h₁, h₂, url, rfl, -, h₂r⟩ := hruns.runs_bind
    cases url with
    | none =>
      obtain ⟨-, hres⟩ := h₂r.runs_ret
      cases hres
    | some url =>
      obtain ⟨-, hres⟩ := h₂r.runs_ret
      obtain rfl := Option.some.inj hres
      rfl

theorem route_headers {result : RouteResult} (hruns : Runs (r.route req) h (.ok result)) :
    result.externalHeaders.getD .empty = r.passedOn (routerHeaders h) := by
  unfold Router.route at hruns
  obtain ⟨h₁, h₂, killed, rfl, h₁r, h₂r⟩ := hruns.runs_bind
  have hkill : NotAsked h₁ :=
    routeKill_emits NotAsked.of_isAsking NotAsked.append NotAsked.singleFlight req h₁r
  rw [routerHeaders_append_left hkill]
  cases killed with
  | some result' =>
    obtain ⟨rfl, hres⟩ := h₂r.runs_ret
    obtain rfl := Except.ok.inj hres
    rw [routeKill_headers h₁r]
    rfl
  | none =>
    obtain ⟨h₃, h₄, cached, rfl, h₃r, h₄r⟩ := Path.runs_bind h₂r
    have hcached : NotAsked h₃ := (routeCached_performs req).emits NotAsked.of_isAsking h₃r
    rw [routerHeaders_append_left hcached]
    cases cached with
    | some result' =>
      obtain ⟨rfl, hres⟩ := h₄r.runs_ret
      obtain rfl := Except.ok.inj hres
      rw [routeCached_headers h₃r]
      rfl
    | none =>
      obtain ⟨h₅, h₆, result', rfl, h₅r, h₆r⟩ := Path.runs_bind h₄r
      obtain ⟨rfl, hres⟩ := h₆r.runs_ret
      obtain rfl := Except.ok.inj hres
      rw [List.append_nil]
      exact routeGroup_headers h₅r

end Decision

end TrinoGoway
