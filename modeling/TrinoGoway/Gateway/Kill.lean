import TrinoGoway.Gateway.Flight
import TrinoGoway.Gateway.HistoryTable
import TrinoGoway.Gateway.World
import TrinoGoway.Routing.KillStatement

/-! Cancellation: where a `KILL QUERY` statement is sent. -/
namespace TrinoGoway

open Go Go.Http Routing Persistence Prog Interleave

/-- The statement handler of `r` made a complete `Route` call for `body`, with result `res`. -/
def StatementRouted (p : Proxy) (r : Request) (body : GoString) (h : List GwEvent)
    (res : Except GoError RouteResult) : Prop :=
  Proxy.isStatement r = true ∧ r.body = .ok body ∧
    ∃ h₁ h₂, h = h₁ ++ h₂ ∧ Runs (p.router.route (newRouteInput r body)) h₁ res

section Route

variable {r : Router} {req : RouteInput} {q : GoString} {h : List GwEvent}

theorem singleFlight_runs {res : Except GoError GoString}
    (hruns : Runs (singleFlight q (HistoryDAO.lookupByQueryID q)) h res) :
    (∃ c, h = [⟨.enterFlight q, .join c⟩, ⟨.awaitFlight c, res⟩]) ∨
      ∃ c ans, res = lookupResult ans ∧
        h = [⟨.enterFlight q, .lead c⟩, ⟨.selectHistory q, ans⟩,
          ⟨.finishFlight c (lookupResult ans), ()⟩, ⟨.leaveFlight q, ()⟩] := by
  rw [singleFlight_lookup] at hruns
  obtain ⟨-, hcall⟩ | ⟨x, t, rfl, hx⟩ := hruns.of_call
  · cases hcall
  cases x with
  | join c =>
    obtain ⟨-, hcall⟩ | ⟨res', t, rfl, ht⟩ := hx.of_call
    · cases hcall
    obtain ⟨rfl, hres⟩ := ht.of_ret
    obtain rfl : res = res' := by injection hres
    exact Or.inl ⟨c, rfl⟩
  | lead c =>
    cases hx with
    | cons ans hans =>
      cases hans with
      | cons u hfin =>
        cases hfin with
        | cons u' hleave =>
          obtain ⟨rfl, hres⟩ := hleave.of_ret
          obtain rfl : res = lookupResult ans := by injection hres
          exact Or.inr ⟨c, ans, rfl, rfl⟩

/-- A kill statement asks the history first, and takes its answer if there is one. -/
theorem route_kill {res : Except GoError RouteResult} (hid : extractKillQueryID req.body = q)
    (hq : q ≠ []) (hruns : Runs (r.route req) h res) :
    ∃ h₁ h₂ found, h = h₁ ++ h₂ ∧
      Runs (singleFlight q (HistoryDAO.lookupByQueryID q)) h₁ found ∧
      ∀ b, b ≠ [] → found = .ok b → res = .ok { backendURL := b, outcome := .killQuery } := by
  unfold Router.route at hruns
  obtain ⟨k₁, k₂, kill, rfl, hkill, hrest⟩ := hruns.runs_bind
  unfold Router.routeKill at hkill
  rw [hid, if_neg hq] at hkill
  obtain ⟨b₁, b₂, url, rfl, hback, hkilled⟩ := hkill.runs_bind
  unfold recoverBackend at hback
  obtain ⟨c₁, c₂, url', rfl, hhist, htaken⟩ := hback.runs_bind
  unfold recoverFromHistory at hhist
  obtain ⟨d₁, d₂, found, rfl, hflight, hfound⟩ := hhist.runs_bind
  refine ⟨d₁, d₂ ++ (c₂ ++ (b₂ ++ k₂)), found, by simp, hflight, ?_⟩
  rintro b hb rfl
  obtain ⟨-, hurl'⟩ := hfound.of_ret
  obtain rfl : url' = b := by injection hurl'
  rw [if_pos hb] at htaken
  obtain ⟨-, hurl⟩ := htaken.of_ret
  obtain rfl : url = url' := by injection hurl
  rw [if_neg hb] at hkilled
  obtain ⟨-, hsome⟩ := hkilled.of_ret
  obtain rfl : kill = some { backendURL := url, outcome := .killQuery } := by injection hsome
  obtain ⟨-, hres⟩ := hrest.of_ret
  injection hres

end Route

/-- The row of `q` is stored, and every call for `q` from number `n` on finds it. -/
structure Settled (q b : GoString) (n : ℕ) (s : Shared) : Prop where
  row : Shared.backendOf s.history q = some b
  started : n ≤ s.calls
  joined : ∀ c, s.inflight q = some c → c.key = q ∧ n ≤ c.id
  finished : ∀ c res, c.key = q → n ≤ c.id → s.results c = some res → res = .ok b

theorem Settled.step {q b : GoString} {n : ℕ} {o : Op} {s s' : Shared} {ans : o.Ret}
    (hs : Settled q b n s) (he : exec o s ans s')
    (hfin : ∀ c res, o = .finishFlight c res → c.key = q → n ≤ c.id → res = .ok b) :
    Settled q b n s' := by
  have hrow := (row_step he q).1 b hs.row
  obtain rfl | ⟨key, -, rfl⟩ | ⟨c', res', rfl, rfl⟩ | ⟨key, -, rfl⟩ | ⟨_, -, rfl⟩ | ⟨_, -, rfl⟩ |
    ⟨_, _, -, rfl⟩ := exec_change he
  · exact hs
  · refine ⟨hrow, Nat.le_succ_of_le hs.started, fun c hc => ?_, hs.finished⟩
    dsimp only at hc
    by_cases hkey : q = key
    · subst hkey
      rw [Function.update_self] at hc
      obtain rfl := Option.some.inj hc
      exact ⟨rfl, hs.started⟩
    · rw [Function.update_of_ne hkey] at hc
      exact hs.joined c hc
  · refine ⟨hrow, hs.started, hs.joined, fun c res hkey hn hres => ?_⟩
    dsimp only at hres
    by_cases hc : c = c'
    · subst hc
      rw [Function.update_self] at hres
      obtain rfl := Option.some.inj hres
      exact hfin c res' rfl hkey hn
    · rw [Function.update_of_ne hc] at hres
      exact hs.finished c res hkey hn hres
  · refine ⟨hrow, hs.started, fun c hc => ?_, hs.finished⟩
    dsimp only at hc
    by_cases hkey : q = key
    · subst hkey
      rw [Function.update_self] at hc
      cases hc
    · rw [Function.update_of_ne hkey] at hc
      exact hs.joined c hc
  iterate 3 exact ⟨hrow, hs.started, hs.joined, hs.finished⟩

section Run

variable {ι : Type} [DecidableEq ι] {p : Proxy} {reqs : ι → Request} {history : List QueryRecord}
  {t₁ t₂ : List (ι × GwEvent)} {s₁ s : Shared} {P₁ P' : ι → Gw Served} {b q : GoString}

theorem finish_led {t u v : List (ι × GwEvent)} {s₀ : Shared} {i : ι} {c : CallRef}
    {res : Except GoError GoString}
    (hrun : Steps exec s₀ (fun i => p.serveHTTP (reqs i)) t s P')
    (ht : t = u ++ (i, ⟨.finishFlight c res, ()⟩) :: v) :
    ∃ h₀ key ans, localTrace i u = h₀ ++ [⟨.enterFlight key, .lead c⟩, ⟨.selectHistory key, ans⟩] ∧
      res = lookupResult ans := by
  have htrace := serveHTTP_flightTrace p (reqs i) (hrun.path i)
  rw [ht, localTrace_append, localTrace_cons_self] at htrace
  exact htrace _ c res _ rfl

theorem finish_id_lt (hrun : Steps exec (.init history) (fun i => p.serveHTTP (reqs i)) t₁ s₁ P₁)
    {c : CallRef} {res : Except GoError GoString} (hres : s₁.results c = some res) :
    c.id < s₁.calls := by
  obtain ⟨⟨i, e⟩, hmem, rfl⟩ := List.mem_map.mp (results_run hrun.effect hres)
  obtain ⟨u, v, ht⟩ := List.append_of_mem hmem
  obtain ⟨h₀, key, ans, hled, -⟩ := finish_led hrun ht
  have hlead : (i, (⟨.enterFlight key, .lead c⟩ : GwEvent)) ∈ t₁ := by
    rw [ht]
    exact List.mem_append_left _ (mem_localTrace.mp (by rw [hled]; simp))
  exact ((calls_run hrun.effect).2 key c (List.mem_map_of_mem hlead)).2

private theorem last_mem {α : Type} {l₁ l₂ l : List α} {x y : α} (h : l₁ ++ l₂ = l ++ [x, y])
    (hne : l₂ ≠ []) : y ∈ l₂ := by
  have hlast : (l₁ ++ l₂).getLast? = some y := by
    rw [h]
    simp
  rw [List.getLast?_append_of_ne_nil _ hne] at hlast
  exact List.mem_of_getLast? hlast

/-- From the moment the row is stored and no lookup of `q` is in flight, every later one that
does not fail finds the row. -/
theorem settled_run
    (hrun₁ : Steps exec (.init history) (fun i => p.serveHTTP (reqs i)) t₁ s₁ P₁)
    (hrow : Shared.backendOf s₁.history q = some b) (hidle : s₁.inflight q = none)
    (hrun₂ : Steps exec s₁ P₁ t₂ s P')
    (hlookup : ∀ i e, (i, ⟨.selectHistory q, .error e⟩) ∉ t₂) :
    Settled q b s₁.calls s ∧
      ∀ i ans, (i, ⟨.selectHistory q, ans⟩) ∈ t₂ → ans = .ok (some b) := by
  induction hrun₂ with
  | start =>
    refine ⟨⟨hrow, le_rfl, fun c hc => ?_, fun c res _ hn hres => ?_⟩, by simp⟩
    · rw [hidle] at hc
      cases hc
    · have := finish_id_lt hrun₁ hres
      omega
  | @step u s₂ s₃ P₂ i o k r hrun hi he ih =>
    obtain ⟨hsettled, hans⟩ := ih fun j e hmem => hlookup j e (List.mem_append_left _ hmem)
    refine ⟨hsettled.step he fun c res ho hkey hn => ?_, fun j ans hmem => ?_⟩
    · subst ho
      have hall := hrun₁.append (hrun.step hi he)
      obtain ⟨h₀, key, ans, hled, rfl⟩ := finish_led hall (List.append_assoc t₁ u _).symm
      have hkey' : c.key = key := by
        have hlead : (⟨.enterFlight key, .lead c⟩ : GwEvent) ∈ (t₁ ++ u).map Prod.snd :=
          List.mem_map_of_mem (mem_localTrace.mp (by rw [hled]; simp))
        exact ((calls_run (hrun₁.append hrun).effect).2 key c hlead).1
      obtain rfl : key = q := hkey'.symm.trans hkey
      rw [localTrace_append] at hled
      have hlater : localTrace i u ≠ [] := by
        -- otherwise the call was started before, and has a smaller number
        intro hnil
        rw [hnil, List.append_nil] at hled
        have hlead : (⟨.enterFlight key, .lead c⟩ : GwEvent) ∈ t₁.map Prod.snd :=
          List.mem_map_of_mem (mem_localTrace.mp (by rw [hled]; simp))
        have := ((calls_run hrun₁.effect).2 key c hlead).2
        omega
      rw [hans i ans (mem_localTrace.mp (last_mem hled hlater))]
      rfl
    · rcases List.mem_append.mp hmem with hmem | hmem
      · exact hans j ans hmem
      · obtain ⟨rfl, heq⟩ := Prod.mk.inj (List.mem_singleton.mp hmem)
        cases heq
        cases ans with
        | error e => exact absurd (by simp) (hlookup j e)
        | ok row =>
          rw [he.1 row rfl, hsettled.row]

/-- A lookup that begins and ends after the row is settled gives the recorded backend. -/
theorem singleFlight_settled
    (hrun₁ : Steps exec (.init history) (fun i => p.serveHTTP (reqs i)) t₁ s₁ P₁)
    (hrow : Shared.backendOf s₁.history q = some b) (hidle : s₁.inflight q = none)
    (hrun₂ : Steps exec s₁ P₁ t₂ s P')
    (hlookup : ∀ i e, (i, ⟨.selectHistory q, .error e⟩) ∉ t₂)
    {j : ι} {h h' : List GwEvent} (hj : localTrace j t₂ = h ++ h') {res : Except GoError GoString}
    (hruns : Runs (singleFlight q (HistoryDAO.lookupByQueryID q)) h res) : res = .ok b := by
  -- the state of the table and of the calls at any point of the second part
  have hpoint : ∀ {u v : List (ι × GwEvent)} {x : ι × GwEvent}, t₂ = u ++ x :: v →
      ∃ s₂ s₃, Settled q b s₁.calls s₂ ∧ exec x.2.op s₂ x.2.ans s₃ := by
    rintro u v x rfl
    obtain ⟨s₂, P₂, s₃, hpre, hx⟩ := hrun₂.of_append_cons
    have hpre' := settled_run hrun₁ hrow hidle hpre fun i e hmem =>
      hlookup i e (List.mem_append_left _ hmem)
    exact ⟨s₂, s₃, hpre'.1, hx⟩
  obtain ⟨c, rfl⟩ | ⟨c, ans, rfl, rfl⟩ := singleFlight_runs hruns
  · have hentered : localTrace j t₂ =
        [] ++ ⟨.enterFlight q, .join c⟩ :: (⟨.awaitFlight c, res⟩ :: h') :=
      hj
    obtain ⟨u, v, hu, -, hv⟩ := localTrace_split hentered
    obtain ⟨s₂, s₃, hset, henter⟩ := hpoint hu
    obtain ⟨c', hin, hjoin, -⟩ | ⟨-, hlead, -⟩ := exec_enterFlight henter
    · obtain rfl := Entry.join.inj hjoin
      obtain ⟨hkey, hn⟩ := hset.joined c hin
      have hawaited : localTrace j v = [] ++ ⟨.awaitFlight c, res⟩ :: h' := hv
      obtain ⟨u', v', rfl, -, -⟩ := localTrace_split hawaited
      rw [← List.cons_append, ← List.append_assoc] at hu
      obtain ⟨s₄, s₅, hset', hawait⟩ := hpoint hu
      exact hset'.finished c res hkey hn hawait.1
    · cases hlead
  · have hmem : (j, (⟨.selectHistory q, ans⟩ : GwEvent)) ∈ t₂ :=
      mem_localTrace.mp (by rw [hj]; simp)
    rw [(settled_run hrun₁ hrow hidle hrun₂ hlookup).2 j ans hmem]
    rfl

/-- Once an exchange has recorded its query in the history and responded, and no lookup of the
query is in flight, every later kill statement for it goes to its backend, in every run in which
no later lookup of the query fails. -/
theorem kill_reaches_owner (p : Proxy) (reqs : ι → Request) (history : List QueryRecord)
    (hrun₁ : Steps exec (.init history) (fun i => p.serveHTTP (reqs i)) t₁ s₁ P₁)
    (hrun₂ : Steps exec s₁ P₁ t₂ s P') {e : ι} (hid : KillID q)
    (hx : Exchanged p (reqs e) (localTrace e t₁) b q) (hresp : Responded (localTrace e t₁))
    (hold : ∀ b', Shared.backendOf history q = some b' → b' = b)
    (hown : ∀ i row ans, (i, ⟨.insertHistory row, ans⟩) ∈ t₁ → row.queryID = q → row.backendURL = b)
    (hwired : p.history = true)
    (hinsert : ∀ row ans, (e, ⟨.insertHistory row, ans⟩) ∈ t₁ → ans = .ok ())
    (hidle : s₁.inflight q = none) (hlookup : ∀ i err, (i, ⟨.selectHistory q, .error err⟩) ∉ t₂)
    {j : ι} {body : GoString} (hkill : KillStatement q body) {res : Except GoError RouteResult}
    (hroute : StatementRouted p (reqs j) body (localTrace j t₂) res) :
    ∃ result, res = .ok result ∧ result.backendURL = b := by
  have hq : q ≠ [] := by
    obtain ⟨d₁, d₂, d₃, w, h₁, -, -, -, rfl⟩ := hid
    simp
  have hpath := hrun₁.path e
  rw [← List.append_nil (localTrace e t₁)] at hpath
  have hb : b ≠ [] := hx.backend_ne_nil hq hpath
  have hrow : Shared.backendOf s₁.history q = some b := by
    obtain ⟨row, ans, hrowq, -, hmem⟩ := hx.insert_of_responded hq hpath hresp hwired
    have hmem' := mem_localTrace.mp hmem
    obtain rfl := hinsert row ans hmem'
    obtain ⟨b', hb'⟩ := row_of_insert hrun₁.effect (List.mem_map_of_mem (f := Prod.snd) hmem')
    rw [hrowq] at hb'
    rw [hb', row_only hrun₁.effect hold ?_ b' hb']
    intro row' ans' hrow'
    obtain ⟨⟨i, ev⟩, hi, rfl⟩ := List.mem_map.mp hrow'
    exact hown i row' ans' hi
  obtain ⟨-, -, h₁, h₂, hj, hruns⟩ := hroute
  have hbody : extractKillQueryID (newRouteInput (reqs j) body).body = q :=
    extractKillQueryID_of_killStatement hid hkill
  obtain ⟨k₁, k₂, found, rfl, hflight, hres⟩ := route_kill hbody hq hruns
  rw [List.append_assoc] at hj
  have hfound := singleFlight_settled hrun₁ hrow hidle hrun₂ hlookup hj hflight
  exact ⟨_, hres b hb hfound, rfl⟩

end Run

section Sample

private def killedQuery : GoString := str "1_2_3_x"

private def killRequests : Bool → Request
  | true => sampleRequest "POST" "/v1/statement" "SELECT 1"
  | false => sampleRequest "POST" "/v1/statement" "KILL QUERY '1_2_3_x'"

private def killWorld (insertFault : Option GoError) : World where
  active := .ok [sampleBackend "http://etl" "etl", sampleBackend "http://adhoc" "adhoc"]
  upstream := fun _ => .ok (sampleResponse "\x7b\"id\":\"1_2_3_x\"\x7d")
  insertFault := insertFault

private def killExchange (insertFault : Option GoError) :=
  playAll (killWorld insertFault).step (.init [])
    (fun i => (sampleProxy true).serveHTTP (killRequests i)) (.replicate 7 true)

private def killLater (insertFault : Option GoError) (n : ℕ) :=
  playAll (killWorld insertFault).step (killExchange insertFault).2.1
    (killExchange insertFault).2.2 (.replicate n false)

private theorem killExchange_exchanged (insertFault : Option GoError) :
    Exchanged (sampleProxy true) (killRequests true) (localTrace true (killExchange insertFault).1)
      (str "http://adhoc") killedQuery := by
  cases insertFault
  all_goals
    exact ⟨by decide, str "SELECT 1", [⟨.selectActive, (killWorld none).active⟩],
      ⟨str "http://adhoc", str "adhoc", none, [], .fallback⟩, _, _, _, _, rfl, rfl,
      .cons _ (.nil _), rfl, rfl, by decide,
      (Proxy.extractQueryIDFromBody_eq_iff (by decide)).mp (by decide +kernel)⟩

private theorem killExchange_responded (insertFault : Option GoError) :
    Responded (localTrace true (killExchange insertFault).1) := by
  cases insertFault
  all_goals exact ⟨⟨.write _, ()⟩, List.mem_of_getElem? (i := 6) rfl, rfl⟩

private theorem killedQuery_id : KillID killedQuery :=
  ⟨str "1", str "2", str "3", str "x", ⟨by decide, List.all_eq_true.mp (by decide)⟩,
    ⟨by decide, List.all_eq_true.mp (by decide)⟩, ⟨by decide, List.all_eq_true.mp (by decide)⟩,
    ⟨by decide, List.all_eq_true.mp (by decide)⟩, by decide⟩

private theorem killRequests_kill : KillStatement killedQuery (str "KILL QUERY '1_2_3_x'") :=
  ⟨[], str "KILL", str " ", str "QUERY", str " ", [], List.forall_mem_nil _, by decide,
    ⟨by decide, List.all_eq_true.mp (by decide)⟩, by decide,
    ⟨by decide, List.all_eq_true.mp (by decide)⟩, by decide⟩

theorem kill_reaches_owner_sample : ∃ result,
    (.ok { backendURL := str "http://adhoc", outcome := .killQuery } : Except GoError RouteResult) =
      .ok result ∧ result.backendURL = str "http://adhoc" := by
  have hrun₁ : Steps exec (.init []) (fun i => (sampleProxy true).serveHTTP (killRequests i))
      (killExchange none).1 (killExchange none).2.1 (killExchange none).2.2 :=
    steps_playAll (killWorld none).exec_of_step _ _ _
  have hrun₂ : Steps exec (killExchange none).2.1 (killExchange none).2.2 (killLater none 4).1
      (killLater none 4).2.1 (killLater none 4).2.2 :=
    steps_playAll (killWorld none).exec_of_step _ _ _
  have hrows : ((killExchange none).1.all fun x => match x.2 with
      | ⟨.insertHistory row, .ok ()⟩ => row.backendURL == str "http://adhoc"
      | ⟨.insertHistory _, .error _⟩ => false
      | _ => true) = true := by decide +kernel
  have hlookups : ((killLater none 4).1.all fun x => match x.2 with
      | ⟨.selectHistory _, .error _⟩ => false
      | _ => true) = true := by decide +kernel
  have hroute : StatementRouted (sampleProxy true) (killRequests false)
      (str "KILL QUERY '1_2_3_x'") (localTrace false (killLater none 4).1)
      (.ok { backendURL := str "http://adhoc", outcome := .killQuery }) :=
    ⟨by decide, rfl, _, [], (List.append_nil _).symm,
      .cons _ (.cons _ (.cons _ (.cons _ (.nil _))))⟩
  refine kill_reaches_owner (sampleProxy true) killRequests [] hrun₁ hrun₂ killedQuery_id
    (killExchange_exchanged none) (killExchange_responded none) ?_ ?_ rfl ?_ rfl ?_
    killRequests_kill hroute
  · intro b' hb'
    cases hb'
  · intro i row ans hmem _
    have hrow := List.all_eq_true.mp hrows _ hmem
    cases ans with
    | error e => cases hrow
    | ok u => exact eq_of_beq hrow
  · intro row ans hmem
    have hrow := List.all_eq_true.mp hrows _ hmem
    cases ans with
    | error e => cases hrow
    | ok u => rfl
  · intro i err hmem
    cases List.all_eq_true.mp hlookups _ hmem

/-- The insert failed: the cache still knows the owner, but the kill statement goes elsewhere. -/
theorem kill_misses_owner :
    ∃ (t₁ t₂ : List (Bool × GwEvent)) (s₁ s : Shared) (P₁ P' : Bool → Gw Served)
      (res : Except GoError RouteResult),
      Steps exec (.init []) (fun i => (sampleProxy true).serveHTTP (killRequests i)) t₁ s₁ P₁ ∧
      Steps exec s₁ P₁ t₂ s P' ∧
      Exchanged (sampleProxy true) (killRequests true) (localTrace true t₁) (str "http://adhoc")
        killedQuery ∧
      Responded (localTrace true t₁) ∧ s.cache.lookup killedQuery = some (str "http://adhoc") ∧
      KillID killedQuery ∧ KillStatement killedQuery (str "KILL QUERY '1_2_3_x'") ∧
      StatementRouted (sampleProxy true) (killRequests false) (str "KILL QUERY '1_2_3_x'")
        (localTrace false t₂) res ∧
      ¬∃ result, res = .ok result ∧ result.backendURL = str "http://adhoc" := by
  refine ⟨_, _, _, _, _, _, .ok { backendURL := str "http://etl", outcome := .killQuery },
    steps_playAll (killWorld (some ⟨[]⟩)).exec_of_step _ _ (.replicate 7 true),
    steps_playAll (killWorld (some ⟨[]⟩)).exec_of_step _ _ (.replicate 6 false),
    killExchange_exchanged _, killExchange_responded _, rfl, killedQuery_id, killRequests_kill,
    ⟨by decide, rfl, _, [], (List.append_nil _).symm, ?_⟩, ?_⟩
  · exact .cons _ (.cons _ (.cons _ (.cons _ (.cons _ (.cons _ (.nil _))))))
  · rintro ⟨result, heq, hurl⟩
    obtain rfl := Except.ok.inj heq
    exact absurd hurl (by decide)

end Sample

end TrinoGoway
