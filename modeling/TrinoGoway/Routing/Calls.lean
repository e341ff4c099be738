import TrinoGoway.Routing.Router

/-! Which operations a routing decision performs. -/
namespace TrinoGoway

open Go Routing Prog

def Op.isAsking : Op → Bool
  | selectActive | cacheGet _ | headProbes _ => true
  | _ => false

def Op.isExternal : Op → Bool
  | grpcRoute _ _ | httpRoute _ => true
  | _ => false

def Op.asks (cfg : ExternalConfig) (req : RouteInput) : Op → Prop
  | grpcRoute timeout req' => timeout = externalTimeout cfg ∧ req' = buildProtoRequest req
  | httpRoute req' => req' = routerRequest cfg req
  | _ => False

theorem Op.isExternal_of_asks {cfg : ExternalConfig} {req : RouteInput} {o : Op}
    (h : o.asks cfg req) : o.isExternal = true := by
  cases o with
  | grpcRoute timeout req' => rfl
  | httpRoute req' => rfl
  | _ => cases h

def Op.isLookup : Op → Bool
  | enterFlight _ | awaitFlight _ | finishFlight _ _ | leaveFlight _ | selectHistory _ => true
  | _ => false

/-- A class of operations without the questions to the external router. -/
theorem Op.not_isExternal_of {P : Op → Bool}
    (hgrpc : ∀ timeout req, P (grpcRoute timeout req) = false)
    (hhttp : ∀ req, P (httpRoute req) = false) {o : Op} (h : P o = true) :
    o.isExternal = false := by
  cases o with
  | grpcRoute timeout req => exact absurd h (by simp [hgrpc])
  | httpRoute req => exact absurd h (by simp [hhttp])
  | _ => rfl

theorem Op.not_isExternal_of_isAsking {o : Op} (h : o.isAsking) : o.isExternal = false :=
  Op.not_isExternal_of (fun _ _ => rfl) (fun _ => rfl) h

theorem Op.not_isExternal_of_isLookup {o : Op} (h : o.isLookup) : o.isExternal = false :=
  Op.not_isExternal_of (fun _ _ => rfl) (fun _ => rfl) h

def Op.isRouting (o : Op) : Bool := o.isLookup || o.isAsking || o.isExternal

namespace Routing

section Performs

theorem listActive_performs : listActive.Performs (·.isAsking) := by
  unfold listActive Persistence.BackendDAO.listActive
  refine Performs.bind (Performs.bind (by simp [Op.isAsking]) ?_) ?_
  · rintro (e | bs) <;> simp
  · rintro (e | bs) <;> simp

theorem recoverFromActive_performs (queryID : GoString) :
    (recoverFromActive queryID).Performs (·.isAsking) := by
  unfold recoverFromActive headProbeFanOut
  refine Performs.bind listActive_performs ?_
  rintro (e | _ | ⟨b, bs⟩) <;> simp [Op.isAsking]

theorem callExternal_asks (r : Router) (req : RouteInput) :
    (r.callExternal req).Performs (·.asks r.cfg.external req) := by
  have hhttp : (selectGroupHTTP r.urls r.cfg.external req).Performs
      (·.asks r.cfg.external req) := by
    unfold selectGroupHTTP
    split
    · simp
    · cases r.urls.parse r.cfg.external.url with
      | error e => simp
      | ok u =>
        refine Performs.bind (by simp [Op.asks]) ?_
        rintro (e | resp)
        · simp
        · dsimp only
          split
          · simp
          · cases resp.decoded <;> simp
  have hcall : (r.callHTTP req).Performs (·.asks r.cfg.external req) := by
    unfold Router.callHTTP
    refine Performs.bind hhttp ?_
    rintro (e | sel) <;> simp
  unfold Router.callExternal
  split
  · exact hcall
  · unfold selectGroupGRPC
    refine Performs.bind (Performs.bind (by simp [Op.asks]) ?_) ?_
    · rintro (e | resp) <;> simp
    · rintro (e | sel)
      · exact hcall
      · simp

theorem callExternal_performs (r : Router) (req : RouteInput) :
    (r.callExternal req).Performs (·.isExternal) :=
  (callExternal_asks r req).mono fun _ => Op.isExternal_of_asks

theorem routeCached_performs (req : RouteInput) :
    (Router.routeCached req).Performs (·.isAsking) := by
  unfold Router.routeCached
  split
  · simp
  · refine Performs.bind (by simp [Op.isAsking]) ?_
    rintro (_ | url) <;> simp

theorem resolveGroup_performs (group : GoString) : (resolveGroup group).Performs (·.isAsking) := by
  unfold resolveGroup
  refine Performs.bind listActive_performs ?_
  rintro (e | bs)
  · simp
  · dsimp only
    split <;> simp

theorem firstActiveBackend_performs : firstActiveBackend.Performs (·.isAsking) := by
  unfold firstActiveBackend
  refine Performs.bind listActive_performs ?_
  rintro (e | _ | ⟨b, bs⟩) <;> simp

end Performs

section Emits

variable {T : List (Event Op.Ret) → Prop} (hask : ∀ h, (∀ e ∈ h, e.op.isAsking) → T h)

include hask

private theorem pure_emits {α : Type} (a : α) : (pure a : Gw α).Emits T := by
  have h : (pure a : Gw α).Performs (·.isAsking) := performs_pure a
  exact h.emits hask

-- a property of traces that asking keeps, and that the history lookup has
variable (happend : ∀ h h', T h → T h' → T (h ++ h'))
  (hflight : ∀ q, (singleFlight q (Persistence.HistoryDAO.lookupByQueryID q)).Emits T)

include happend hflight

theorem recoverBackend_emits (queryID : GoString) : (recoverBackend queryID).Emits T := by
  have hhistory : (recoverFromHistory queryID).Emits T := by
    unfold recoverFromHistory
    refine Emits.bind happend (hflight queryID) ?_
    rintro (e | url)
    · exact pure_emits hask _
    · exact pure_emits hask _
  unfold recoverBackend
  refine Emits.bind happend hhistory fun url => ?_
  split
  · exact pure_emits hask _
  · exact (recoverFromActive_performs queryID).emits hask

theorem routeKill_emits (req : RouteInput) : (Router.routeKill req).Emits T := by
  unfold Router.routeKill
  split
  · exact pure_emits hask _
  · refine Emits.bind happend (recoverBackend_emits hask happend hflight _) fun url => ?_
    split
    · exact pure_emits hask _
    · exact pure_emits hask _

theorem routeRecovered_emits (req : RouteInput) (group : GoString) (sel : Selection) :
    (Router.routeRecovered req group sel).Emits T := by
  have hpath : (Router.recoverPath req).Emits T := by
    unfold Router.recoverPath
    split
    · exact pure_emits hask _
    · exact recoverBackend_emits hask happend hflight _
  unfold Router.routeRecovered
  refine Emits.bind happend hpath fun url => ?_
  split
  · exact pure_emits hask _
  · exact (firstActiveBackend_performs.bind (by simp)).emits hask

variable {r : Router} {req : RouteInput} (hexternal : (r.callExternal req).Emits T)

include hexternal

theorem routeGroup_emits : (r.routeGroup req).Emits T := by
  unfold Router.routeGroup
  refine Emits.bind happend hexternal fun x => ?_
  refine Emits.bind happend ((resolveGroup_performs _).emits hask) ?_
  rintro (e | _ | ⟨b, bs⟩)
  · exact routeRecovered_emits hask happend hflight _ _ _
  · exact routeRecovered_emits hask happend hflight _ _ _
  · exact pure_emits hask _

theorem route_emits : (r.route req).Emits T := by
  unfold Router.route
  refine Emits.bind happend (routeKill_emits hask happend hflight req) ?_
  rintro (_ | result)
  · refine Emits.bind happend ((routeCached_performs req).emits hask) ?_
    rintro (_ | result)
    · exact Emits.bind happend (routeGroup_emits hask happend hflight hexternal) fun _ =>
        pure_emits hask _
    · exact pure_emits hask _
  · exact pure_emits hask _

end Emits

theorem singleFlight_performs (q : GoString) :
    (singleFlight q (Persistence.HistoryDAO.lookupByQueryID q)).Performs (·.isLookup) := by
  unfold singleFlight Persistence.HistoryDAO.lookupByQueryID
  refine Performs.bind (by simp [Op.isLookup]) ?_
  rintro (c | c)
  · refine Performs.bind (Performs.bind (by simp [Op.isLookup]) ?_) fun res => ?_
    · rintro (e | _ | url) <;> simp
    · simp [Op.isLookup]
  · simp [Op.isLookup]

theorem route_routing (r : Router) (req : RouteInput) :
    (r.route req).Emits fun h => ∀ e ∈ h, e.op.isRouting := by
  refine route_emits ?_ ?_ (fun q => (singleFlight_performs q).emits ?_)
    ((callExternal_performs r req).emits ?_)
  · exact fun h hh e he => by simp [Op.isRouting, hh e he]
  · exact fun h h' hh hh' e he => (List.mem_append.mp he).elim (hh e) (hh' e)
  · exact fun h hh e he => by simp [Op.isRouting, hh e he]
  · exact fun h hh e he => by simp [Op.isRouting, hh e he]

end Routing

end TrinoGoway
