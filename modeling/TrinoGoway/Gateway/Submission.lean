import TrinoGoway.Gateway.Exchange
import TrinoGoway.Gateway.HistoryTable
import TrinoGoway.Gateway.World
import TrinoGoway.Persistence.History

/-! The times at which statements were submitted, and what the history shows of them. -/
namespace TrinoGoway

open Go Go.Http Persistence Routing Prog Interleave

variable {ι : Type}

section Times

variable (es : List ι) (q : ι → GoString) (τ : ι → Time)

def LatestFirst (rows : List QueryRecord) : Prop :=
  rows.Pairwise fun a b => ∀ i ∈ es, ∀ j ∈ es, q i = a.queryID → q j = b.queryID → τ j ≤ τ i

def ListsSubmissions (matching records : List QueryRecord) (limit offset : ℤ) : Prop :=
  ∃ rows, rows.Perm matching ∧ LatestFirst es q τ rows ∧
    records = ((rows.drop offset.toNat).take limit.toNat).map QueryRecord.columns

/-- The history queries answer by the times `τ` of the exchanges `es` with query ids `q`. -/
structure KeepsSubmissionTime (s : HistoryStore) : Prop where
  recent : ∀ limit records, s.listRecent limit = .ok records →
    ListsSubmissions es q τ s.rows records (if limit ≤ 0 then 10 else limit) 0
  filtered : ∀ f records total, s.findByFilter f = .ok (records, total) →
    ListsSubmissions es q τ (s.rows.filter f.accepts) records f.limit f.offset
  counted : ∀ since buckets, s.findDistribution since = .ok buckets →
    (buckets.map (·.queryCount)).sum = (es.filter fun i => since ≤ τ i).length

variable {es q τ}

theorem lists_of_select {s : HistoryStore} {p : QueryRecord → Bool} {limit offset : ℤ}
    {records : List QueryRecord} (hτ : ∀ i ∈ es, τ i = 0)
    (h : s.select p limit offset = .ok records) :
    ListsSubmissions es q τ (s.rows.filter p) records limit offset := by
  unfold HistoryStore.select at h
  split at h
  · cases h
  · split at h
    · cases h
    · refine ⟨_, s.order.perm _, ?_, (Except.ok.inj h).symm⟩
      refine List.pairwise_of_forall fun a b i hi j hj _ _ => ?_
      rw [hτ i hi, hτ j hj]

private theorem length_filter_zero {α : Type} {l : List α} {time : α → Time}
    (hzero : ∀ x ∈ l, time x = 0) (since : Time) :
    (l.filter fun x => since ≤ time x).length = if since ≤ 0 then l.length else 0 := by
  split
  · next hs =>
    rw [List.filter_eq_self.mpr]
    intro x hx
    simpa [hzero x hx] using hs
  · next hs =>
    rw [List.length_eq_zero_iff, List.filter_eq_nil_iff]
    intro x hx
    simpa [hzero x hx] using hs

/-- As many rows as exchanges, all of the zero instant, answer for exchanges of the zero
instant only. -/
theorem keeps_iff_of_zero {order : RowOrder} {d : Driver} {rows : List QueryRecord}
    (hzero : ∀ row ∈ rows, row.createdAt = 0) (hlen : rows.length = es.length) :
    KeepsSubmissionTime es q τ ⟨order, rows, none, none, d⟩ ↔ ∀ i ∈ es, τ i = 0 := by
  constructor
  · intro hkeeps i hi
    have htotal (since : Time) :
        (if since ≤ 0 then es.length else 0) = (es.filter fun i => since ≤ τ i).length := by
      obtain ⟨buckets, hbuckets⟩ : ∃ buckets,
          (HistoryStore.mk order rows none none d).findDistribution since = .ok buckets := ⟨_, rfl⟩
      rw [← hkeeps.counted since buckets hbuckets, findDistribution_total hbuckets,
        length_filter_zero hzero, hlen]
    -- a positive time is missed by its own count, a negative one is counted since zero
    rcases Int.lt_trichotomy (τ i) 0 with hneg | hz | hpos
    · have hall : (es.filter fun i => (0 : Time) ≤ τ i).length = es.length := by
        simpa using (htotal 0).symm
      have hle := List.length_filter_eq_length_iff.mp hall i hi
      exact absurd (of_decide_eq_true hle) (Int.not_le.mpr hneg)
    · exact hz
    · have hnil : (es.filter fun j => τ i ≤ τ j).length = 0 := by
        rw [← htotal, if_neg (Int.not_le.mpr hpos)]
      rw [List.length_eq_zero_iff, List.filter_eq_nil_iff] at hnil
      exact absurd (decide_eq_true (Int.le_refl (τ i))) (hnil i hi)
  · intro hτ
    refine ⟨fun limit records h => ?_, fun f records total h => ?_, fun since buckets h => ?_⟩
    · unfold HistoryStore.listRecent at h
      split at h
      · cases h
      · next hsel =>
        cases h
        simpa using lists_of_select hτ hsel
    · rw [findByFilter_eq] at h
      dsimp only at h
      split at h
      · cases h
      · next hsel =>
        cases h
        exact lists_of_select hτ hsel
    · rw [findDistribution_total h, length_filter_zero hzero, length_filter_zero hτ, hlen]

end Times

section Run

variable [DecidableEq ι]

/-- The exchanges `es` of a run are over, their query ids are distinct and the history has
exactly their records. -/
structure Submitted (p : Proxy) (reqs : ι → Request) (t : List (ι × GwEvent)) (es : List ι)
    (b q : ι → GoString) : Prop where
  exchanged : ∀ i ∈ es, q i ≠ [] ∧ Exchanged p (reqs i) (localTrace i t) (b i) (q i) ∧
    Responded (localTrace i t)
  distinct : (es.map q).Nodup
  inserted : ∀ i row ans, (i, ⟨.insertHistory row, ans⟩) ∈ t →
    ans = .ok () ∧ row.queryID ∈ es.map q

variable {p : Proxy} {reqs : ι → Request} {t : List (ι × GwEvent)} {s : Shared}
  {P' : ι → Gw Served} {es : List ι} {b q : ι → GoString}

private theorem inserted_of_row
    (hrun : Steps exec (.init []) (fun i => p.serveHTTP (reqs i)) t s P') {row : QueryRecord}
    (hrow : row ∈ s.history) : ∃ i ans, (i, ⟨.insertHistory row, ans⟩) ∈ t := by
  obtain hold | ⟨ans, hans⟩ := (rows_run hrun.effect List.nodup_nil).2 row hrow
  · cases hold
  · obtain ⟨⟨i, e⟩, hi, rfl⟩ := List.mem_map.mp hans
    exact ⟨i, ans, hi⟩

theorem createdAt_of_run
    (hrun : Steps exec (.init []) (fun i => p.serveHTTP (reqs i)) t s P') :
    ∀ row ∈ s.history, row.createdAt = 0 := by
  intro row hrow
  obtain ⟨i, ans, hi⟩ := inserted_of_row hrun hrow
  exact serveHTTP_inserts p (reqs i) (hrun.path i) row ans (mem_localTrace.mpr hi)

theorem Submitted.length_history (h : Submitted p reqs t es b q)
    (hrun : Steps exec (.init []) (fun i => p.serveHTTP (reqs i)) t s P')
    (hwired : p.history = true) : s.history.length = es.length := by
  have hperm : (s.history.map (·.queryID)).Perm (es.map q) := by
    refine (List.perm_ext_iff_of_nodup (rows_run hrun.effect List.nodup_nil).1 h.distinct).mpr ?_
    intro id
    constructor
    · intro hid
      obtain ⟨row, hrow, rfl⟩ := List.mem_map.mp hid
      obtain ⟨i, ans, hi⟩ := inserted_of_row hrun hrow
      exact (h.inserted i row ans hi).2
    · intro hid
      obtain ⟨i, hi, rfl⟩ := List.mem_map.mp hid
      obtain ⟨hq, hx, hresp⟩ := h.exchanged i hi
      have hpath : Path (p.serveHTTP (reqs i)) (localTrace i t ++ []) (P' i) := by
        simpa using hrun.path i
      obtain ⟨row, ans, hid, -, hmem⟩ := hx.insert_of_responded hq hpath hresp hwired
      have hmem := mem_localTrace.mp hmem
      obtain rfl := (h.inserted i row ans hmem).1
      obtain ⟨b', hb'⟩ := row_of_insert hrun.effect (List.mem_map_of_mem (f := Prod.snd) hmem)
      obtain ⟨row', hfind, -⟩ := Option.map_eq_some_iff.mp hb'
      have heq : row'.queryID = row.queryID := by simpa using List.find?_some hfind
      exact List.mem_map.mpr ⟨row', List.mem_of_find?_eq_some hfind, heq.trans hid⟩
  simpa using hperm.length_eq

/-- After any run with the exchanges `es` at the times `τ`, the history answers by these times
exactly if all of them are the zero instant. -/
theorem keeps_submission_time_iff (p : Proxy) (hwired : p.history = true) (reqs : ι → Request)
    {t : List (ι × GwEvent)} {s : Shared} {P' : ι → Gw Served}
    (hrun : Steps exec (.init []) (fun i => p.serveHTTP (reqs i)) t s P')
    {es : List ι} {b q : ι → GoString} (h : Submitted p reqs t es b q) (τ : ι → Time)
    (order : RowOrder) (d : Driver) :
    KeepsSubmissionTime es q τ ⟨order, s.history, none, none, d⟩ ↔ ∀ i ∈ es, τ i = 0 :=
  keeps_iff_of_zero (createdAt_of_run hrun) (h.length_history hrun hwired)

end Run

private def submissionWorld : World where
  active := .ok [sampleBackend "http://a" "adhoc"]
  upstream := fun req =>
    match req.body with
    | .error e => .error e
    | .ok body =>
      if body = str "SELECT 1" then .ok (sampleResponse "\x7b\"id\":\"1_2_3_x\"\x7d")
      else .ok (sampleResponse "\x7b\"id\":\"1_2_4_x\"\x7d")

private def submissionRequests : Bool → Request
  | true => sampleRequest "POST" "/v1/statement" "SELECT 1"
  | false => sampleRequest "POST" "/v1/statement" "SELECT 2"

private def submissionID : Bool → GoString
  | true => str "1_2_3_x"
  | false => str "1_2_4_x"

private def submissionTime : Bool → Time
  | true => 63839664000000000000
  | false => 63839664001000000000

private def submissionRun :=
  playAll submissionWorld.step (.init [])
    (fun i => (sampleProxy true).serveHTTP (submissionRequests i))
    (.replicate 7 true ++ .replicate 7 false)

private def insertsSubmission : GwEvent → Bool
  | ⟨.insertHistory row, .ok ()⟩ => row.queryID ∈ [true, false].map submissionID
  | ⟨.insertHistory _, .error _⟩ => false
  | _ => true

private theorem submissionRun_steps : Steps exec (.init [])
    (fun i => (sampleProxy true).serveHTTP (submissionRequests i))
    submissionRun.1 submissionRun.2.1 submissionRun.2.2 :=
  steps_playAll submissionWorld.exec_of_step _ _ _

private theorem submissionRun_submitted : Submitted (sampleProxy true) submissionRequests
    submissionRun.1 [true, false] (fun _ => str "http://a") submissionID := by
  refine ⟨?_, by decide, ?_⟩
  · intro i hi
    cases i with
    | true =>
      refine ⟨by decide, ⟨by decide, str "SELECT 1", [⟨.selectActive, submissionWorld.active⟩],
        ⟨str "http://a", str "adhoc", none, [], .fallback⟩, _, _, _, _, rfl, rfl,
        .cons _ (.nil _), rfl, rfl, by decide,
        (Proxy.extractQueryIDFromBody_eq_iff (by decide)).mp (by decide +kernel)⟩, ?_⟩
      exact ⟨⟨.write (str "\x7b\"id\":\"1_2_3_x\"\x7d"), ()⟩,
        List.mem_of_getElem? (i := 6) rfl, rfl⟩
    | false =>
      refine ⟨by decide, ⟨by decide, str "SELECT 2", [⟨.selectActive, submissionWorld.active⟩],
        ⟨str "http://a", str "adhoc", none, [], .fallback⟩, _, _, _, _, rfl, rfl,
        .cons _ (.nil _), rfl, rfl, by decide,
        (Proxy.extractQueryIDFromBody_eq_iff (by decide)).mp (by decide +kernel)⟩, ?_⟩
      exact ⟨⟨.write (str "\x7b\"id\":\"1_2_4_x\"\x7d"), ()⟩,
        List.mem_of_getElem? (i := 6) rfl, rfl⟩
  · have hcheck : ∀ x ∈ submissionRun.1, insertsSubmission x.2 := by decide
    intro i row ans hmem
    have hrow := hcheck _ hmem
    rcases ans with e | ⟨⟩
    · cases hrow
    · exact ⟨rfl, of_decide_eq_true hrow⟩

theorem keeps_submission_time_sample : KeepsSubmissionTime [true, false] submissionID (fun _ => 0)
    ⟨.arbitrary, submissionRun.2.1.history, none, none, .postgres⟩ :=
  (keeps_submission_time_iff (sampleProxy true) rfl submissionRequests submissionRun_steps
    submissionRun_submitted (fun _ => 0) .arbitrary .postgres).mpr fun _ _ => rfl

/-- Two statements of 2024, and no query since then. -/
theorem submission_time_lost :
    Steps exec (.init []) (fun i => (sampleProxy true).serveHTTP (submissionRequests i))
      submissionRun.1 submissionRun.2.1 submissionRun.2.2 ∧
    Submitted (sampleProxy true) submissionRequests submissionRun.1 [true, false]
      (fun _ => str "http://a") submissionID ∧
    submissionTime true ≤ submissionTime false ∧
    (HistoryStore.mk .arbitrary submissionRun.2.1.history none none .postgres).findDistribution
      (submissionTime true) = .ok [] ∧
    ¬ KeepsSubmissionTime [true, false] submissionID submissionTime
      ⟨.arbitrary, submissionRun.2.1.history, none, none, .postgres⟩ := by
  have hrows :
      (submissionRun.2.1.history.filter fun r => submissionTime true ≤ r.createdAt) = [] := by
    decide
  have hempty : (HistoryStore.mk .arbitrary submissionRun.2.1.history none none
      .postgres).findDistribution (submissionTime true) = .ok [] := by
    unfold HistoryStore.findDistribution
    simp [hrows]
  refine ⟨submissionRun_steps, submissionRun_submitted, by decide, hempty, fun hkeeps => ?_⟩
  have hcount := hkeeps.counted _ _ hempty
  exact absurd hcount (by decide)

end TrinoGoway
