import Mathlib.Algebra.GroupWithZero.Nat
import TrinoGoway.Admin.History
import TrinoGoway.Monitor.Status

/-! How queries are distributed over the backends, as the dashboard and the legacy endpoint tell it
from the latest rows of the history. -/
namespace TrinoGoway.Admin

open Go Auth Persistence
open Monitor (Snapshot)

structure DistributionRequest where
  latestHour : ℤ := 0

structure ChartPoint where
  backendURL : GoString
  name : GoString
  queryCount : ℕ
  deriving DecidableEq

structure TimePoint where
  epochMillis : ℤ
  backendURL : GoString
  name : GoString
  queryCount : ℕ
  deriving DecidableEq

structure DistributionResponse where
  totalBackendCount : ℕ
  onlineBackendCount : ℕ
  offlineBackendCount : ℕ
  healthyBackendCount : ℕ
  unhealthyBackendCount : ℕ
  totalQueryCount : ℕ
  distributionChart : List ChartPoint
  lineChart : GoMap (List TimePoint)
  deriving DecidableEq

structure Summary where
  total : ℕ := 0
  online : ℕ := 0
  offline : ℕ := 0
  healthy : ℕ := 0
  unhealthy : ℕ := 0
  dist : GoMap ℕ := .empty
  chart : List ChartPoint := []
  urlToName : GoMap GoString := .empty

def Summary.add (statuses : Snapshot) (s : Summary) (b : Backend) : Summary where
  total := s.total + 1
  online := if b.active then s.online + 1 else s.online
  offline := if b.active then s.offline else s.offline + 1
  healthy := if statuses.status b.url = .healthy then s.healthy + 1 else s.healthy
  unhealthy := if statuses.status b.url = .healthy then s.unhealthy else s.unhealthy + 1
  dist := s.dist.set b.url 0
  chart := s.chart ++ [⟨b.url, b.name, 0⟩]
  urlToName := s.urlToName.set b.url b.name

/-- Rows of backends that are not registered do not count. -/
def countRecord (dist : GoMap ℕ) (rec : QueryRecord) : GoMap ℕ :=
  match dist.get? rec.backendURL with
  | some n => dist.set rec.backendURL (n + 1)
  | none => dist

/-- One bucket of the line chart, under the name of its backend if that still exists. -/
def addBucket (urlToName : GoMap GoString) (lineChart : GoMap (List TimePoint))
    (b : DistributionBucket) : GoMap (List TimePoint) :=
  match urlToName.get? b.backendURL with
  | none => lineChart
  | some name =>
    lineChart.set name ((lineChart.get? name).getD [] ++
      [⟨b.minuteStart.unixMilli, b.backendURL, name, b.queryCount⟩])

def hour : ℤ := 3600000000000

/-- The buckets of the last hours; the multiplication with `time.Hour` may overflow. -/
def buildLineChart (store : HistoryStore) (now : Time) (latestHour : ℤ)
    (urlToName : GoMap GoString) : GoMap (List TimePoint) :=
  match store.findDistribution (now + (-latestHour * hour).bmod (2 ^ 64)) with
  | .error _ => .empty
  | .ok buckets => buckets.foldl (addBucket urlToName) .empty

/-- `req` is what the body decodes to, with defaults for what does not decode; `now` is the time of
the request. An error is the message of a failed result. -/
def webappGetDistribution (statuses : Snapshot) (now : Time)
    (backends : Except GoError (List Backend)) (store : HistoryStore) (req : DistributionRequest) :
    Except GoString DistributionResponse :=
  let latestHour := if req.latestHour ≤ 0 then 1 else req.latestHour
  match backends with
  | .error _ => .error (str "failed to list backends")
  | .ok backends =>
    let s := backends.foldl (Summary.add statuses) {}
    let (dist, chart) : GoMap ℕ × List ChartPoint :=
      match store.findByFilter { pageSize := 10000, page := 1 } with
      | .error _ => (s.dist, s.chart)
      | .ok (records, _) =>
        let dist := records.foldl countRecord s.dist
        (dist, s.chart.map fun c => { c with queryCount := (dist.get? c.backendURL).getD 0 })
    .ok
      { totalBackendCount := s.total
        onlineBackendCount := s.online
        offlineBackendCount := s.offline
        healthyBackendCount := s.healthy
        unhealthyBackendCount := s.unhealthy
        totalQueryCount := (dist.entries.map Prod.snd).sum
        distributionChart := chart
        lineChart := buildLineChart store now latestHour s.urlToName }

def queriesOf (rows : List QueryRecord) (url : GoString) : ℕ :=
  rows.countP fun r => r.backendURL = url

section Counting

variable {rows : List QueryRecord} {dist : GoMap ℕ} {url : GoString}

theorem queriesOf_cons (r : QueryRecord) :
    queriesOf (r :: rows) url = queriesOf rows url + if r.backendURL = url then 1 else 0 := by
  simp [queriesOf, List.countP_cons]

theorem queriesOf_columns : queriesOf (rows.map QueryRecord.columns) url = queriesOf rows url := by
  rw [queriesOf, List.countP_map]
  rfl

theorem get?_countRecord (r : QueryRecord) :
    (countRecord dist r).get? url =
      (dist.get? url).map (· + if r.backendURL = url then 1 else 0) := by
  unfold countRecord
  by_cases hurl : r.backendURL = url
  · subst hurl
    cases hget : dist.get? r.backendURL with
    | none => simp [hget]
    | some n => simp [GoMap.get?_set]
  · cases hget : dist.get? r.backendURL with
    | none => simp [hurl]
    | some n => simp [GoMap.get?_set, hurl, Ne.symm hurl]

/-- The loop over the records adds to every count the records of its backend. -/
theorem get?_foldl_countRecord :
    (rows.foldl countRecord dist).get? url = (dist.get? url).map (· + queriesOf rows url) := by
  induction rows generalizing dist with
  | nil => simp [queriesOf]
  | cons r rows ih =>
    rw [List.foldl_cons, ih, get?_countRecord, Option.map_map, queriesOf_cons]
    congr 1
    funext n
    simp only [Function.comp_apply]
    omega

/-- The legacy endpoint counts under every URL that it meets. -/
theorem getD_foldl_set :
    ((rows.foldl (fun dist rec =>
        dist.set rec.backendURL ((dist.get? rec.backendURL).getD 0 + 1)) dist).get? url).getD 0 =
      (dist.get? url).getD 0 + queriesOf rows url := by
  induction rows generalizing dist with
  | nil => simp [queriesOf]
  | cons r rows ih =>
    rw [List.foldl_cons, ih, GoMap.get?_set, queriesOf_cons]
    by_cases hurl : url = r.backendURL
    · subst hurl
      simp only [if_true, Option.getD_some]
      omega
    · simp [hurl, Ne.symm hurl]

/-- A page has all rows with a URL if the rest has none. -/
theorem queriesOf_take_eq_iff {all : List QueryRecord} (h : rows.Perm all) (n : ℕ) :
    queriesOf (rows.take n) url = queriesOf all url ↔
      ∀ r ∈ rows.drop n, r.backendURL ≠ url := by
  have hsplit : queriesOf all url = queriesOf (rows.take n) url + queriesOf (rows.drop n) url := by
    unfold queriesOf
    rw [← List.countP_append, List.take_append_drop, h.countP_eq]
  rw [hsplit]
  constructor
  · intro heq
    have hzero : queriesOf (rows.drop n) url = 0 := by omega
    intro r hr
    simpa using List.countP_eq_zero.mp hzero r hr
  · intro hnone
    have hzero : queriesOf (rows.drop n) url = 0 := by
      refine List.countP_eq_zero.mpr ?_
      intro r hr
      simpa using hnone r hr
    omega

end Counting

/-! ### The backends -/

section Backends

variable {statuses : Snapshot} {s : Summary} {backends : List Backend} {url : GoString}

theorem chart_foldl :
    (backends.foldl (Summary.add statuses) s).chart =
      s.chart ++ backends.map fun b => ⟨b.url, b.name, 0⟩ := by
  induction backends generalizing s with
  | nil => simp
  | cons b backends ih =>
    rw [List.foldl_cons, ih]
    simp [Summary.add]

theorem get?_dist_foldl :
    (backends.foldl (Summary.add statuses) s).dist.get? url =
      if url ∈ backends.map (·.url) then some 0 else s.dist.get? url := by
  induction backends generalizing s with
  | nil => simp
  | cons b backends ih =>
    rw [List.foldl_cons, ih]
    by_cases hurl : url = b.url
    · simp [Summary.add, GoMap.get?_set, hurl]
    · simp [Summary.add, GoMap.get?_set, hurl]

theorem get?_counts (records : List QueryRecord) :
    (records.foldl countRecord (backends.foldl (Summary.add statuses) {}).dist).get? url =
      if url ∈ backends.map (·.url) then some (queriesOf records url) else none := by
  rw [get?_foldl_countRecord, get?_dist_foldl]
  split
  · simp
  · rfl

/-- Each of the distinct backends has one count, in whatever order the map has them. -/
theorem sum_counts (h : (backends.map (·.url)).Nodup) (records : List QueryRecord) :
    ((records.foldl countRecord
        (backends.foldl (Summary.add statuses) {}).dist).entries.map Prod.snd).sum =
      ((backends.map (·.url)).map (queriesOf records)).sum := by
  set dist := records.foldl countRecord (backends.foldl (Summary.add statuses) {}).dist with hdist
  have hkeys : (dist.entries.map Prod.fst).Perm (backends.map (·.url)) := by
    refine (List.perm_ext_iff_of_nodup dist.nodup h).mpr ?_
    intro url
    rw [List.mem_map, ← GoMap.get?_ne_none, hdist, get?_counts]
    simp
  rw [dist.map_snd_entries 0, (hkeys.map _).sum_eq]
  refine congrArg List.sum (List.map_congr_left ?_)
  intro url hurl
  rw [hdist, get?_counts, if_pos hurl]
  rfl

end Backends

/-! ### The replies -/

section Replies

variable (statuses : Snapshot) (now : Time) {backends : List Backend} (o : RowOrder)
  (rows : List QueryRecord) (req : DistributionRequest) {d : Driver}

theorem findByFilter_latest :
    (HistoryStore.mk o rows none none d).findByFilter { pageSize := 10000, page := 1 } =
      .ok (((o.sort rows).take 10000).map QueryRecord.columns, rows.length) := by
  have haccepts : rows.filter (HistoryFilter.accepts { pageSize := 10000, page := 1 }) = rows := by
    rw [List.filter_eq_self]
    intro r _
    rfl
  rw [findByFilter_eq]
  unfold HistoryStore.select
  dsimp only
  rw [haccepts]
  rfl

theorem queryHistoryDistribution_admin {a : Server} {p : Option Principal}
    (hadmin : a.isAdmin p = true) :
    ∃ counts, a.queryHistoryDistribution ⟨o, rows, none, none, d⟩ p = .distribution counts ∧
      ∀ url, (counts.get? url).getD 0 = queriesOf ((o.sort rows).take 10000) url := by
  have huser : a.distributionUser p = [] := by
    unfold Server.distributionUser
    cases p with
    | none => rfl
    | some p => exact if_pos hadmin
  unfold Server.queryHistoryDistribution
  rw [huser, findByFilter_latest]
  refine ⟨_, rfl, ?_⟩
  intro url
  rw [getD_foldl_set, queriesOf_columns]
  exact Nat.zero_add _

/-- The chart has the backends in their order, each with its rows among the latest, and the total
is that of the chart. -/
theorem webappGetDistribution_ok (hurls : (backends.map (·.url)).Nodup) :
    ∃ resp,
      webappGetDistribution statuses now (.ok backends) ⟨o, rows, none, none, d⟩ req = .ok resp ∧
      resp.distributionChart = backends.map (fun b =>
        ⟨b.url, b.name, queriesOf ((o.sort rows).take 10000) b.url⟩) ∧
      resp.totalQueryCount = (resp.distributionChart.map (·.queryCount)).sum := by
  unfold webappGetDistribution
  simp only [findByFilter_latest, chart_foldl, List.nil_append, List.map_map, Function.comp_def]
  refine ⟨_, rfl, ?_, ?_⟩
  · refine List.map_congr_left ?_
    intro b hb
    rw [get?_counts, if_pos (List.mem_map_of_mem hb), queriesOf_columns]
    rfl
  · dsimp only
    rw [sum_counts hurls, List.map_map, List.map_map]
    refine congrArg List.sum (List.map_congr_left ?_)
    intro b hb
    simp only [Function.comp_apply]
    rw [get?_counts, if_pos (List.mem_map_of_mem hb)]
    rfl

/-- **Distribution.** The counts of the two endpoints, each in the order that the database chooses
for it, are those of the whole table exactly if no row behind the first ten thousand is one of a
registered backend. The total is that of the chart in any case. -/
theorem distribution_exact_iff (o' : RowOrder) {a : Server} {p : Option Principal}
    (hadmin : a.isAdmin p = true) (hurls : (backends.map (·.url)).Nodup) :
    (∃ counts resp, a.queryHistoryDistribution ⟨o, rows, none, none, d⟩ p = .distribution counts ∧
      webappGetDistribution statuses now (.ok backends) ⟨o', rows, none, none, d⟩ req = .ok resp ∧
      (∀ b ∈ backends, (counts.get? b.url).getD 0 = queriesOf rows b.url) ∧
      resp.distributionChart = backends.map (fun b => ⟨b.url, b.name, queriesOf rows b.url⟩) ∧
      resp.totalQueryCount = (resp.distributionChart.map (·.queryCount)).sum) ↔
    ∀ r ∈ (o.sort rows).drop 10000 ++ (o'.sort rows).drop 10000,
      ∀ b ∈ backends, r.backendURL ≠ b.url := by
  obtain ⟨counts, hcounts, hget⟩ := queryHistoryDistribution_admin o rows hadmin
  obtain ⟨resp, hresp, hchart, htotal⟩ := webappGetDistribution_ok statuses now o' rows req hurls
  have hexact : ∀ (o : RowOrder) (b : Backend),
      queriesOf ((o.sort rows).take 10000) b.url = queriesOf rows b.url ↔
        ∀ r ∈ (o.sort rows).drop 10000, r.backendURL ≠ b.url := fun o b =>
    queriesOf_take_eq_iff (o.perm rows) 10000
  constructor
  · rintro ⟨counts', resp', hcounts', hresp', hall, hchart', -⟩ r hr b hb
    obtain rfl : counts = counts' := Reply.distribution.inj (hcounts.symm.trans hcounts')
    obtain rfl : resp = resp' := Except.ok.inj (hresp.symm.trans hresp')
    rcases List.mem_append.mp hr with hr | hr
    · exact (hexact o b).mp ((hget b.url).symm.trans (hall b hb)) r hr
    · have hpoint := List.map_inj_left.mp (hchart.symm.trans hchart') b hb
      exact (hexact o' b).mp (ChartPoint.mk.inj hpoint).2.2 r hr
  · intro hrest
    refine ⟨counts, resp, hcounts, hresp, ?_, ?_, htotal⟩
    · intro b hb
      rw [hget]
      exact (hexact o b).mpr fun r hr => hrest r (List.mem_append_left _ hr) b hb
    · rw [hchart]
      refine List.map_congr_left ?_
      intro b hb
      rw [(hexact o' b).mpr fun r hr => hrest r (List.mem_append_right _ hr) b hb]

end Replies

section Samples

private def distributionServer : Server where
  auth := none
  authorization := ⟨str "admins", [], []⟩
  matchString := fun pattern text => some (pattern = text)

private def distributionBackend : Backend where
  name := str "trino-1"
  url := str "http://a"
  externalURL := str "http://a"
  routingGroup := str "adhoc"
  active := true
  createdAt := 0
  updatedAt := 0

private def distributionAdmin : Option Principal := some ⟨str "alice", str "admins"⟩

def queriesOnOne (n : ℕ) : List QueryRecord :=
  (List.range n).map fun i =>
    { queryID := str (toString i), backendURL := str "http://a", externalURL := str "http://a",
      userName := str "alice", source := [] }

private theorem queriesOf_queriesOnOne {rows : List QueryRecord} {n : ℕ}
    (h : ∀ r ∈ rows, r ∈ queriesOnOne n) : queriesOf rows (str "http://a") = rows.length := by
  refine List.countP_eq_length.mpr ?_
  intro r hr
  obtain ⟨i, -, rfl⟩ := List.mem_map.mp (h r hr)
  rfl

end Samples

theorem distribution_exact_small :
    ∃ counts resp,
      distributionServer.queryHistoryDistribution ⟨RowOrder.arbitrary, queriesOnOne 10000, none,
        none, .postgres⟩ distributionAdmin = .distribution counts ∧
      webappGetDistribution .empty 0 (.ok [distributionBackend])
        ⟨RowOrder.arbitrary, queriesOnOne 10000, none, none, .postgres⟩ {} = .ok resp ∧
      (∀ b ∈ [distributionBackend],
        (counts.get? b.url).getD 0 = queriesOf (queriesOnOne 10000) b.url) ∧
      resp.distributionChart = [distributionBackend].map (fun b =>
        ⟨b.url, b.name, queriesOf (queriesOnOne 10000) b.url⟩) ∧
      resp.totalQueryCount = (resp.distributionChart.map (·.queryCount)).sum := by
  refine (distribution_exact_iff .empty 0 RowOrder.arbitrary _ {} RowOrder.arbitrary (by decide)
    (by decide)).mpr ?_
  have hlength : (RowOrder.arbitrary.sort (queriesOnOne 10000)).length ≤ 10000 := by
    rw [(RowOrder.arbitrary.perm _).length_eq, queriesOnOne, List.length_map, List.length_range]
  rw [List.drop_eq_nil_of_le hlength]
  nofun

/-- One query more than a page holds is not counted. -/
theorem distribution_stops_at_page :
    ∃ counts resp,
      distributionServer.queryHistoryDistribution ⟨RowOrder.arbitrary, queriesOnOne 10001, none,
        none, .postgres⟩ distributionAdmin = .distribution counts ∧
      webappGetDistribution .empty 0 (.ok [distributionBackend])
        ⟨RowOrder.arbitrary, queriesOnOne 10001, none, none, .postgres⟩ {} = .ok resp ∧
      queriesOf (queriesOnOne 10001) distributionBackend.url = 10001 ∧
      (counts.get? distributionBackend.url).getD 0 = 10000 ∧
      resp.distributionChart = [⟨distributionBackend.url, distributionBackend.name, 10000⟩] ∧
      resp.totalQueryCount = 10000 := by
  have hlength : (queriesOnOne 10001).length = 10001 := by
    rw [queriesOnOne, List.length_map, List.length_range]
  have hperm := RowOrder.arbitrary.perm (queriesOnOne 10001)
  have hpage : queriesOf ((RowOrder.arbitrary.sort (queriesOnOne 10001)).take 10000)
      distributionBackend.url = 10000 := by
    have hrows : ∀ r ∈ (RowOrder.arbitrary.sort (queriesOnOne 10001)).take 10000,
        r ∈ queriesOnOne 10001 := by
      intro r hr
      exact hperm.mem_iff.mp (List.mem_of_mem_take hr)
    have hcount := queriesOf_queriesOnOne hrows
    rw [List.length_take, hperm.length_eq, hlength] at hcount
    exact hcount
  obtain ⟨counts, hcounts, hget⟩ := queryHistoryDistribution_admin RowOrder.arbitrary
    (queriesOnOne 10001) (a := distributionServer) (p := distributionAdmin) (by decide)
  obtain ⟨resp, hresp, hchart, htotal⟩ := webappGetDistribution_ok .empty 0 RowOrder.arbitrary
    (queriesOnOne 10001) {} (show ([distributionBackend].map (·.url)).Nodup by decide)
  have hchart' : resp.distributionChart =
      [⟨distributionBackend.url, distributionBackend.name, 10000⟩] := by
    rw [hchart, List.map_singleton, hpage]
  refine ⟨counts, resp, hcounts, hresp, ?_, ?_, hchart', ?_⟩
  · exact (queriesOf_queriesOnOne (n := 10001) fun r hr => hr).trans hlength
  · rw [hget, hpage]
  · rw [htotal, hchart']
    rfl

end TrinoGoway.Admin
