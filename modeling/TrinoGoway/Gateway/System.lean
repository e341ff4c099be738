import TrinoGoway.Gateway.Effects
import TrinoGoway.Lib.Interleave
import TrinoGoway.Lib.Lru

/-! What requests share: the query cache, the history table and the lookups in flight. Every
other service may answer in any way at any time. -/
namespace TrinoGoway

open Go Persistence Interleave

def defaultCacheSize : ℕ := 4096

abbrev QueryCache := Lru.Cache GoString GoString defaultCacheSize

structure Shared where
  cache : QueryCache
  history : List QueryRecord
  /-- the call registered under a key -/
  inflight : GoString → Option CallRef
  /-- the results of finished calls -/
  results : CallRef → Option (Except GoError GoString)
  /-- how many calls have been started -/
  calls : ℕ

namespace Shared

/-- A freshly started gateway over an existing history table. -/
def init (history : List QueryRecord) : Shared := ⟨.empty, history, fun _ => none, fun _ => none, 0⟩

def backendOf (history : List QueryRecord) (queryID : GoString) : Option GoString :=
  (history.find? fun r => r.queryID = queryID).map (·.backendURL)

/-- A row is only added under a new query id. -/
def insertRow (history : List QueryRecord) (r : QueryRecord) : List QueryRecord :=
  if history.any fun r' => r'.queryID = r.queryID then history else history ++ [r]

end Shared

/-- One operation on the shared state. A failed insert may have stored its row. -/
def exec : (o : Op) → Shared → o.Ret → Shared → Prop
  | .enterFlight key, s, ans, s' =>
    match s.inflight key with
    | some c => ans = .join c ∧ s' = s
    | none =>
      ans = .lead ⟨key, s.calls⟩ ∧
        s' = { s with
                inflight := Function.update s.inflight key (some ⟨key, s.calls⟩)
                calls := s.calls + 1 }
  | .awaitFlight c, s, ans, s' => s.results c = some ans ∧ s' = s
  | .finishFlight c res, s, _, s' =>
    s' = { s with results := Function.update s.results c (some res) }
  | .leaveFlight key, s, _, s' =>
    s' = { s with inflight := Function.update s.inflight key none }
  | .selectHistory queryID, s, ans, s' =>
    (∀ row, ans = .ok row → row = Shared.backendOf s.history queryID) ∧ s' = s
  | .insertHistory r, s, ans, s' =>
    s' = { s with history := Shared.insertRow s.history r } ∨ s' = s ∧ ans ≠ .ok ()
  | .cacheGet queryID, s, ans, s' =>
    ans = s.cache.lookup queryID ∧ s' = { s with cache := s.cache.touch queryID }
  | .cacheAdd queryID backendURL, s, _, s' =>
    s' = { s with cache := s.cache.add queryID backendURL }
  | .headProbes probes, s, ans, s' => ans.Subperm (probes.map Prod.fst) ∧ s' = s
  | .selectActive, s, _, s' | .selectExternalURL _, s, _, s' | .grpcRoute _ _, s, _, s'
  | .httpRoute _, s, _, s' | .roundTrip _, s, _, s' | .now, s, _, s' | .writeHeader _ _, s, _, s'
  | .write _, s, _, s' => s' = s

abbrev GwEvent := Prog.Event Op.Ret

def cacheUse : GwEvent → Option (Lru.Use GoString GoString)
  | ⟨.cacheAdd queryID backendURL, _⟩ => some (.write queryID backendURL)
  | ⟨.cacheGet queryID, some _⟩ => some (.hit queryID)
  | _ => none

def cacheUses (l : List GwEvent) : List (Lru.Use GoString GoString) := l.filterMap cacheUse

@[simp] theorem cacheUses_append (l l' : List GwEvent) :
    cacheUses (l ++ l') = cacheUses l ++ cacheUses l' := by
  simp [cacheUses]

theorem write_mem_cacheUses {l : List GwEvent} {q b : GoString} :
    .write q b ∈ cacheUses l ↔ ⟨.cacheAdd q b, ()⟩ ∈ l := by
  unfold cacheUses
  rw [List.mem_filterMap]
  constructor
  · rintro ⟨e, he, hu⟩
    obtain ⟨o, ans⟩ := e
    cases o <;> simp [cacheUse] at hu
    · cases ans <;> simp at hu
    · obtain ⟨rfl, rfl⟩ := hu
      exact he
  · intro h
    exact ⟨_, h, rfl⟩

theorem exec_enterFlight {key : GoString} {s s' : Shared} {ans : Entry}
    (he : exec (.enterFlight key) s ans s') :
    (∃ c, s.inflight key = some c ∧ ans = .join c ∧ s' = s) ∨
      s.inflight key = none ∧ ans = .lead ⟨key, s.calls⟩ ∧
        s' = { s with
                inflight := Function.update s.inflight key (some ⟨key, s.calls⟩)
                calls := s.calls + 1 } := by
  cases hk : s.inflight key with
  | some c =>
    simp only [exec, hk] at he
    exact Or.inl ⟨c, rfl, he⟩
  | none =>
    simp only [exec, hk] at he
    exact Or.inr ⟨rfl, he⟩

/-- Everything an operation can do to the shared state. -/
theorem exec_change {o : Op} {s s' : Shared} {ans : o.Ret} (he : exec o s ans s') :
    s' = s ∨
      (∃ key, o = .enterFlight key ∧
        s' = { s with
                inflight := Function.update s.inflight key (some ⟨key, s.calls⟩)
                calls := s.calls + 1 }) ∨
      (∃ c res, o = .finishFlight c res ∧
        s' = { s with results := Function.update s.results c (some res) }) ∨
      (∃ key, o = .leaveFlight key ∧
        s' = { s with inflight := Function.update s.inflight key none }) ∨
      (∃ r, o = .insertHistory r ∧ s' = { s with history := Shared.insertRow s.history r }) ∨
      (∃ q, o = .cacheGet q ∧ s' = { s with cache := s.cache.touch q }) ∨
      ∃ q b, o = .cacheAdd q b ∧ s' = { s with cache := s.cache.add q b } := by
  cases o with
  | enterFlight key =>
    obtain ⟨c, -, -, rfl⟩ | ⟨-, -, rfl⟩ := exec_enterFlight he
    · exact Or.inl rfl
    · exact Or.inr (Or.inl ⟨key, rfl, rfl⟩)
  | finishFlight c res => exact Or.inr (Or.inr (Or.inl ⟨c, res, rfl, he⟩))
  | leaveFlight key => exact Or.inr (Or.inr (Or.inr (Or.inl ⟨key, rfl, he⟩)))
  | insertHistory r =>
    obtain rfl | ⟨rfl, -⟩ := he
    · exact Or.inr (Or.inr (Or.inr (Or.inr (Or.inl ⟨r, rfl, rfl⟩))))
    · exact Or.inl rfl
  | cacheGet q => exact Or.inr (Or.inr (Or.inr (Or.inr (Or.inr (Or.inl ⟨q, rfl, he.2⟩)))))
  | cacheAdd q b => exact Or.inr (Or.inr (Or.inr (Or.inr (Or.inr (Or.inr ⟨q, b, rfl, he⟩)))))
  | awaitFlight c => exact Or.inl he.2
  | selectHistory q => exact Or.inl he.2
  | headProbes ps => exact Or.inl he.2
  | _ => exact Or.inl he

theorem exec_cache {o : Op} {s s' : Shared} {ans : o.Ret} (he : exec o s ans s')
    (hget : ∀ q, o ≠ .cacheGet q) (hadd : ∀ q b, o ≠ .cacheAdd q b) : s'.cache = s.cache := by
  obtain rfl | ⟨_, _, rfl⟩ | ⟨_, _, _, rfl⟩ | ⟨_, _, rfl⟩ | ⟨_, _, rfl⟩ | ⟨q, rfl, -⟩ |
    ⟨q, b, rfl, -⟩ := exec_change he
  iterate 5 rfl
  · exact absurd rfl (hget q)
  · exact absurd rfl (hadd q b)

theorem cache_step {e : GwEvent} {s s' : Shared} {l : List (Lru.Use GoString GoString)}
    (he : exec e.op s e.ans s') (hl : Lru.After GoString GoString defaultCacheSize l s.cache) :
    Lru.After GoString GoString defaultCacheSize (l ++ (cacheUse e).toList) s'.cache := by
  obtain ⟨o, ans⟩ := e
  by_cases hadd : ∃ q b, o = .cacheAdd q b
  · obtain ⟨q, b, rfl⟩ := hadd
    obtain rfl : s' = _ := he
    exact hl.write q b
  by_cases hget : ∃ q, o = .cacheGet q
  · obtain ⟨q, rfl⟩ := hget
    obtain ⟨rfl, rfl⟩ := he
    cases hq : s.cache.lookup q with
    | none =>
      rw [show (cacheUse ⟨.cacheGet q, none⟩).toList = [] from rfl, List.append_nil,
        Lru.Cache.touch_of_none hq]
      exact hl
    | some v => exact hl.hit hq
  push Not at hadd hget
  have huse : cacheUse ⟨o, ans⟩ = none := by
    cases o <;> first | rfl | exact absurd rfl (hget _) | exact absurd rfl (hadd _ _)
  rw [exec_cache he hget hadd, huse, Option.toList_none, List.append_nil]
  exact hl

theorem cache_run {history : List QueryRecord} {l : List GwEvent} {s : Shared}
    (h : Effect exec (.init history) l s) :
    Lru.After GoString GoString defaultCacheSize (cacheUses l) s.cache := by
  generalize hs₀ : Shared.init history = s₀ at h
  induction h with
  | nil =>
    subst hs₀
    exact .empty
  | @snoc s₁ s₂ l e h' he ih =>
    have hstep := cache_step he ih
    rw [cacheUses_append]
    convert hstep using 2
    cases hu : cacheUse e with
    | none => simp [cacheUses, hu]
    | some u => simp [cacheUses, hu]

theorem cache_unchanged {l : List GwEvent} {s s' : Shared} (h : Effect exec s l s')
    (hno : ∀ e ∈ l, (∀ q, e.op ≠ .cacheGet q) ∧ ∀ q b, e.op ≠ .cacheAdd q b) :
    s'.cache = s.cache := by
  refine h.invariant (I := fun s₁ => s₁.cache = s.cache) rfl ?_
  intro e he s₁ s₂ hs₁ hexec
  rw [exec_cache hexec (hno e he).1 (hno e he).2]
  exact hs₁

theorem lookup_run {l : List GwEvent} {s s' : Shared} (h : Effect exec s l s') {q b : GoString}
    (hno : ∀ e ∈ l, e.op ≠ .cacheAdd q b) (hb : s'.cache.lookup q = some b) :
    s.cache.lookup q = some b := by
  by_contra hs
  refine h.invariant (I := fun s => s.cache.lookup q ≠ some b) hs ?_ hb
  intro e he s₁ s₂ hs₁ hexec hs₂
  refine hs₁ ?_
  obtain rfl | ⟨_, _, rfl⟩ | ⟨_, _, _, rfl⟩ | ⟨_, _, rfl⟩ | ⟨_, _, rfl⟩ | ⟨q', -, rfl⟩ |
    ⟨q', b', heq, rfl⟩ := exec_change hexec
  iterate 5 exact hs₂
  · exact Lru.Cache.lookup_of_lookup_touch hs₂
  · by_cases hq : q = q'
    · subst hq
      dsimp only at hs₂
      rw [Lru.Cache.lookup_add_self _ _ _ (by decide)] at hs₂
      obtain rfl := Option.some.inj hs₂
      exact absurd heq (hno e he)
    · exact Lru.Cache.lookup_of_lookup_add hq hs₂

end TrinoGoway
