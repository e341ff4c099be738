import TrinoGoway.Gateway.System
import TrinoGoway.Proxy.Forward

/-! A computable environment: every outside service gives fixed answers. -/
namespace TrinoGoway

open Go Go.Http Persistence Routing Interleave

structure World where
  active : Except GoError (List Backend)
  externalURL : GoString → Except GoError (Option GoString) := fun _ => .ok none
  lookupFault : Option GoError := none
  insertFault : Option GoError := none
  /-- the base URLs whose probes succeed -/
  alive : GoString → Bool := fun _ => false
  grpc : RouteRequest → Except GoError RouteResponse := fun _ => .error ⟨[]⟩
  http : RouterRequest → Except GoError RouterAnswer := fun _ => .error ⟨[]⟩
  upstream : UpstreamRequest → Except GoError Response := fun _ => .error ⟨[]⟩
  clock : Time := 0

namespace World

def blocked : Op → Shared → Bool
  | .awaitFlight c, s => (s.results c).isNone
  | _, _ => false

def answer (w : World) : (o : Op) → Shared → o.Ret × Shared
  | .enterFlight key, s =>
    match s.inflight key with
    | some c => (.join c, s)
    | none =>
      (.lead ⟨key, s.calls⟩,
        { s with
          inflight := Function.update s.inflight key (some ⟨key, s.calls⟩)
          calls := s.calls + 1 })
  | .awaitFlight c, s => ((s.results c).getD (.error ⟨[]⟩), s)
  | .finishFlight c res, s => ((), { s with results := Function.update s.results c (some res) })
  | .leaveFlight key, s => ((), { s with inflight := Function.update s.inflight key none })
  | .selectHistory queryID, s =>
    (match w.lookupFault with
      | some e => .error e
      | none => .ok (Shared.backendOf s.history queryID), s)
  | .insertHistory r, s =>
    match w.insertFault with
    | some e => (.error e, s)
    | none => (.ok (), { s with history := Shared.insertRow s.history r })
  | .selectActive, s => (w.active, s)
  | .selectExternalURL url, s => (w.externalURL url, s)
  | .cacheGet queryID, s => (s.cache.lookup queryID, { s with cache := s.cache.touch queryID })
  | .cacheAdd queryID backendURL, s => ((), { s with cache := s.cache.add queryID backendURL })
  | .headProbes probes, s => ((probes.map Prod.fst).filter w.alive, s)
  | .grpcRoute _ req, s => (w.grpc req, s)
  | .httpRoute req, s => (w.http req, s)
  | .roundTrip req, s => (w.upstream req, s)
  | .now, s => (w.clock, s)
  | .writeHeader _ _, s => ((), s)
  | .write _, s => ((), s)

def step (w : World) (o : Op) (s : Shared) : Option (o.Ret × Shared) :=
  if blocked o s then none else some (w.answer o s)

theorem exec_answer (w : World) {o : Op} {s : Shared} (h : blocked o s = false) :
    exec o s (w.answer o s).1 (w.answer o s).2 := by
  cases o with
  | enterFlight key =>
    unfold answer
    cases hk : s.inflight key with
    | none => simp [exec, hk]
    | some c => simp [exec, hk]
  | awaitFlight c =>
    obtain ⟨res, hres⟩ : ∃ res, s.results c = some res := by
      rw [← Option.isSome_iff_exists]
      simpa [blocked] using h
    refine ⟨?_, rfl⟩
    simp [answer, hres]
  | selectHistory q =>
    refine ⟨fun row hrow => ?_, rfl⟩
    unfold answer at hrow
    cases hf : w.lookupFault with
    | none =>
      simp only [hf, Except.ok.injEq] at hrow
      exact hrow.symm
    | some e => simp [hf] at hrow
  | insertHistory r =>
    unfold answer
    cases w.insertFault with
    | none => exact Or.inl rfl
    | some e => exact Or.inr ⟨rfl, by simp⟩
  | cacheGet q => exact ⟨rfl, rfl⟩
  | headProbes probes => exact ⟨List.filter_sublist.subperm, rfl⟩
  | _ => rfl

theorem exec_of_step (w : World) (o : Op) (s : Shared) (r : o.Ret) (s' : Shared)
    (h : w.step o s = some (r, s')) : exec o s r s' := by
  unfold step at h
  split at h
  · cases h
  · next hb =>
    have heq : w.answer o s = (r, s') := Option.some.inj h
    have hexec := w.exec_answer (Bool.eq_false_iff.mpr hb)
    rw [heq] at hexec
    exact hexec

def answers (w : World) (s : Shared) (o : Op) : o.Ret := (w.answer o s).1

end World

section Sample

/-- A gateway with default group `adhoc`, no external router and no cookies. -/
def sampleProxy (history : Bool) : Proxy where
  cfg := ⟨1000, false⟩
  cookie := ⟨[], 0, false⟩
  router := ⟨⟨str "adhoc", ⟨[], [], 0, []⟩⟩,
    ⟨fun s => .ok ⟨[], [], s, [], [], [], [], [], false, false, []⟩, fun u => u.host⟩⟩
  history := history
  auth := none
  codec := ⟨fun _ _ => [], fun _ _ => [], fun _ _ => none, fun _ _ => [], fun _ => 0⟩
  gunzip := id

def sampleRequest (method path body : String) : Request where
  method := str method
  path := str path
  rawPath := []
  rawQuery := []
  requestURI := str path
  header := .empty
  remoteAddr := str "10.0.0.1:5000"
  host := str "gateway"
  tls := false
  form := none
  body := .ok (str body)

def sampleBackend (url group : String) : Backend :=
  ⟨str url, str url, [], str group, true, 0, 0⟩

def sampleResponse (body : String) : Response := ⟨200, .empty, ⟨str body, none⟩⟩

end Sample

end TrinoGoway
