import Mathlib.Algebra.GroupWithZero.Nat
import TrinoGoway.Monitor.Loop

/-! The gauges of the backends. Each snapshot is written over the last one, and the series of the
URLs that have left are found through a set kept beside the gauges. -/
namespace TrinoGoway.Metrics

open Go Monitor

/-- The gauge vectors of `client_golang`. -/
class GaugeVec (V : Type) where
  /-- `NewGaugeVec` -/
  new : V
  /-- `WithLabelValues(labels...).Set(v)` -/
  set : V → List GoString → ℕ → V
  deleteLabelValues : V → List GoString → V
  /-- the exported series, by their label values -/
  series : V → List GoString → Option ℕ

open GaugeVec (series)

/-- Setting and deleting change the one series that they name. -/
class LawfulGaugeVec (V : Type) [GaugeVec V] : Prop where
  series_new : ∀ labels, series (GaugeVec.new : V) labels = none
  series_set : ∀ (g : V) (labels : List GoString) (v : ℕ),
    series (GaugeVec.set g labels v) = Function.update (series g) labels (some v)
  series_delete : ∀ (g : V) (labels : List GoString),
    series (GaugeVec.deleteLabelValues g labels) = Function.update (series g) labels none

open LawfulGaugeVec (series_new series_set series_delete)

variable {V : Type} [GaugeVec V]

def backendStatusLabels : List GoString := [str "healthy", str "unhealthy", str "pending"]

def statusLabel : TrinoStatus → GoString
  | .healthy => str "healthy"
  | .unhealthy => str "unhealthy"
  | .unknown | .pending => str "pending"

@[ext]
structure Gauges where
  status : List GoString → Option ℕ
  activation : List GoString → Option ℕ
  total : List GoString → Option ℕ
  active : ℕ

structure BackendMetrics (V : Type) where
  status : V
  activation : V
  total : V
  active : ℕ
  /-- the URLs with live series -/
  seen : GoMap Unit

def newBackendMetrics : BackendMetrics V :=
  ⟨GaugeVec.new, GaugeVec.new, GaugeVec.new, 0, .empty⟩

def BackendMetrics.gauges (m : BackendMetrics V) : Gauges :=
  ⟨series m.status, series m.activation, series m.total, m.active⟩

namespace BackendMetrics

/-- One turn of the loop over the URLs seen before. -/
def prune (statuses : Snapshot) (m : BackendMetrics V) (url : GoString) : BackendMetrics V :=
  match GoMap.get? statuses url with
  | some _ => m
  | none =>
    { m with
      status := backendStatusLabels.foldl
        (fun g label => GaugeVec.deleteLabelValues g [url, label]) m.status
      activation := GaugeVec.deleteLabelValues m.activation [url]
      seen := m.seen.filterKeys (· ≠ url) }

def level (st : TrinoStatus) (label : GoString) : ℕ := if label = statusLabel st then 1 else 0

def observe (m : BackendMetrics V) (url : GoString) (st : TrinoStatus) : BackendMetrics V :=
  { m with
    status :=
      backendStatusLabels.foldl (fun g label => GaugeVec.set g [url, label] (level st label))
        m.status
    activation := GaugeVec.set m.activation [url] 1
    seen := m.seen.set url () }

def count (counts : GoMap ℕ) (label : GoString) : GoMap ℕ :=
  counts.set label ((counts.get? label).getD 0 + 1)

def zeroCounts : GoMap ℕ :=
  backendStatusLabels.foldl (fun counts label => counts.set label 0) .empty

def setTotals (g : V) (counts : GoMap ℕ) : V :=
  counts.entries.foldl (fun g e => GaugeVec.set g [e.1] e.2) g

def observeStatuses (m : BackendMetrics V) (statuses : Snapshot) : BackendMetrics V :=
  let pruned := m.seen.entries.foldl (fun m e => m.prune statuses e.1) m
  let (written, counts) := statuses.entries.foldl
    (fun (m, counts) e => (m.observe e.1 e.2, count counts (statusLabel e.2))) (pruned, zeroCounts)
  { written with
    total := setTotals written.total counts
    active := statuses.entries.length }

/-! ### The parts of an observation -/

def pruned (m : BackendMetrics V) (statuses : Snapshot) : BackendMetrics V :=
  m.seen.entries.foldl (fun m e => m.prune statuses e.1) m

def written (m : BackendMetrics V) (statuses : Snapshot) : BackendMetrics V :=
  statuses.entries.foldl (fun m e => m.observe e.1 e.2) m

def counts (statuses : Snapshot) : GoMap ℕ :=
  statuses.entries.foldl (fun counts e => count counts (statusLabel e.2)) zeroCounts

theorem observeStatuses_eq (m : BackendMetrics V) (statuses : Snapshot) :
    m.observeStatuses statuses =
      { (m.pruned statuses).written statuses with
        total := setTotals ((m.pruned statuses).written statuses).total (counts statuses)
        active := statuses.entries.length } := by
  have hfold := List.foldl_hom₂ statuses.entries Prod.mk
    (fun (m : BackendMetrics V) (e : GoString × TrinoStatus) => m.observe e.1 e.2)
    (fun counts e => count counts (statusLabel e.2))
    (fun acc e => (acc.1.observe e.1 e.2, count acc.2 (statusLabel e.2)))
    (m.pruned statuses) zeroCounts (fun _ _ _ => rfl)
  exact congrArg (fun p : BackendMetrics V × GoMap ℕ =>
    { p.1 with total := setTotals p.1.total p.2, active := statuses.entries.length }) hfold

variable {m : BackendMetrics V} {statuses : Snapshot} {url label : GoString} {st : TrinoStatus}
  {labels : List GoString} {ls : List GoString} {g : V}

section Series

variable [LawfulGaugeVec V]

theorem statusLabel_mem (st : TrinoStatus) : statusLabel st ∈ backendStatusLabels := by
  cases st <;> decide

theorem series_delete_of_eq_none {labels' : List GoString} (h : series g labels = none) :
    series (GaugeVec.deleteLabelValues g labels') labels = none := by
  rw [series_delete, Function.update_apply]
  split
  · rfl
  · exact h

theorem series_set_self (v : ℕ) : series (GaugeVec.set g labels v) labels = some v := by
  rw [series_set, Function.update_self]

theorem series_set_of_ne {labels' : List GoString} (h : labels ≠ labels') (v : ℕ) :
    series (GaugeVec.set g labels' v) labels = series g labels := by
  rw [series_set, Function.update_of_ne h]

theorem foldl_delete_of_eq_none (h : series g labels = none) :
    series (ls.foldl (fun g label => GaugeVec.deleteLabelValues g [url, label]) g) labels = none :=
  List.foldlRecOn (motive := fun g : V => series g labels = none) ls _ h
    fun _ hg _ _ => series_delete_of_eq_none hg

theorem foldl_delete_of_mem (h : label ∈ ls) :
    series (ls.foldl (fun g label => GaugeVec.deleteLabelValues g [url, label]) g) [url, label] =
      none := by
  induction ls generalizing g with
  | nil => cases h
  | cons l ls ih =>
    rw [List.foldl_cons]
    cases List.mem_cons.mp h with
    | inl hl =>
      apply foldl_delete_of_eq_none
      rw [hl, series_delete, Function.update_self]
    | inr hmem => exact ih hmem

theorem foldl_set_of_ne {f : GoString → ℕ} (h : ∀ label ∈ ls, labels ≠ [url, label]) :
    series (ls.foldl (fun g label => GaugeVec.set g [url, label] (f label)) g) labels =
      series g labels := by
  refine List.foldlRecOn (motive := fun g' : V => series g' labels = series g labels) ls _ rfl ?_
  intro g' hg' label hlabel
  rw [← hg']
  exact series_set_of_ne (h label hlabel) _

theorem foldl_set_of_mem {f : GoString → ℕ} (h : label ∈ ls) :
    series (ls.foldl (fun g label => GaugeVec.set g [url, label] (f label)) g) [url, label] =
      some (f label) := by
  induction ls generalizing g with
  | nil => cases h
  | cons l ls ih =>
    rw [List.foldl_cons]
    by_cases hmem : label ∈ ls
    · exact ih hmem
    · obtain rfl : label = l := (List.mem_cons.mp h).resolve_right hmem
      rw [foldl_set_of_ne]
      · exact series_set_self _
      · intro l hl heq
        simp only [List.cons.injEq, and_true, true_and] at heq
        exact hmem (heq ▸ hl)

structure Cleared (url : GoString) (m : BackendMetrics V) : Prop where
  status : ∀ label ∈ backendStatusLabels, series m.status [url, label] = none
  activation : series m.activation [url] = none

theorem cleared_prune (h : GoMap.get? statuses url = none) :
    Cleared url (m.prune statuses url) := by
  unfold prune
  rw [h]
  constructor
  · intro label hlabel
    exact foldl_delete_of_mem hlabel
  · show series (GaugeVec.deleteLabelValues m.activation [url]) [url] = none
    rw [series_delete, Function.update_self]

theorem prune_status_of_eq_none (h : series m.status labels = none) :
    series (m.prune statuses url).status labels = none := by
  unfold prune
  split
  · exact h
  · exact foldl_delete_of_eq_none h

theorem prune_activation_of_eq_none (h : series m.activation labels = none) :
    series (m.prune statuses url).activation labels = none := by
  unfold prune
  split
  · exact h
  · exact series_delete_of_eq_none h

theorem Cleared.prune {url' : GoString} (h : Cleared url m) :
    Cleared url (m.prune statuses url') := by
  constructor
  · intro label hlabel
    exact prune_status_of_eq_none (h.status label hlabel)
  · exact prune_activation_of_eq_none h.activation

omit [LawfulGaugeVec V] in
theorem prune_total : (m.prune statuses url).total = m.total := by
  unfold prune
  split <;> rfl

/-- The set kept beside the gauges has every URL with a series, and the series have the labels
that the observations write. -/
structure Synced (m : BackendMetrics V) : Prop where
  status : ∀ labels, series m.status labels ≠ none →
    ∃ url label, labels = [url, label] ∧ label ∈ backendStatusLabels ∧ m.seen.get? url = some ()
  activation : ∀ labels, series m.activation labels ≠ none →
    ∃ url, labels = [url] ∧ m.seen.get? url = some ()
  total : ∀ labels, series m.total labels ≠ none → ∃ label ∈ backendStatusLabels, labels = [label]

theorem synced_new : Synced (newBackendMetrics : BackendMetrics V) :=
  ⟨fun _ h => absurd (series_new _) h, fun _ h => absurd (series_new _) h,
    fun _ h => absurd (series_new _) h⟩

theorem cleared_pruned (hseen : m.seen.get? url = some ()) (h : GoMap.get? statuses url = none) :
    Cleared url (m.pruned statuses) :=
  GoMap.foldl_entries_of_get? hseen (fun _ => cleared_prune h) fun _ _ _ hm => hm.prune

/-- The series left by pruning belong to URLs of the snapshot. -/
theorem Synced.pruned_status (h : Synced m)
    (hne : series (m.pruned statuses).status labels ≠ none) :
    ∃ url label st,
      labels = [url, label] ∧ label ∈ backendStatusLabels ∧ GoMap.get? statuses url = some st := by
  have hbefore : series m.status labels ≠ none := by
    intro hnone
    exact hne (List.foldlRecOn
      (motive := fun m : BackendMetrics V => series m.status labels = none) _ _ hnone
      fun _ hm _ _ => prune_status_of_eq_none hm)
  obtain ⟨url, label, rfl, hlabel, hseen⟩ := h.status labels hbefore
  cases hst : GoMap.get? statuses url with
  | none => exact absurd ((cleared_pruned hseen hst).status label hlabel) hne
  | some st => exact ⟨url, label, st, rfl, hlabel, hst⟩

theorem Synced.pruned_activation (h : Synced m)
    (hne : series (m.pruned statuses).activation labels ≠ none) :
    ∃ url st, labels = [url] ∧ GoMap.get? statuses url = some st := by
  have hbefore : series m.activation labels ≠ none := by
    intro hnone
    exact hne (List.foldlRecOn
      (motive := fun m : BackendMetrics V => series m.activation labels = none) _ _ hnone
      fun _ hm _ _ => prune_activation_of_eq_none hm)
  obtain ⟨url, rfl, hseen⟩ := h.activation labels hbefore
  cases hst : GoMap.get? statuses url with
  | none => exact absurd (cleared_pruned hseen hst).activation hne
  | some st => exact ⟨url, st, rfl, hst⟩

omit [LawfulGaugeVec V] in
theorem total_pruned : (m.pruned statuses).total = m.total :=
  List.foldlRecOn (motive := fun m' : BackendMetrics V => m'.total = m.total) _ _ rfl
    fun _ hm _ _ => prune_total.trans hm

omit [LawfulGaugeVec V] in
theorem total_written : (m.written statuses).total = m.total :=
  List.foldlRecOn (motive := fun m' : BackendMetrics V => m'.total = m.total) _ _ rfl
    fun _ hm _ _ => hm

theorem written_status (h : GoMap.get? statuses url = some st)
    (hlabel : label ∈ backendStatusLabels) :
    series (m.written statuses).status [url, label] = some (level st label) := by
  refine GoMap.foldl_entries_of_get? (P := fun m : BackendMetrics V =>
    series m.status [url, label] = some (level st label)) h (fun _ => foldl_set_of_mem hlabel) ?_
  intro m e he hm
  refine (foldl_set_of_ne ?_).trans hm
  intro l _ heq
  exact he (List.cons.inj heq).1.symm

theorem written_status_of_eq_none (h : series m.status labels = none)
    (hnone : ∀ url label st, labels = [url, label] → label ∈ backendStatusLabels →
      GoMap.get? statuses url ≠ some st) : series (m.written statuses).status labels = none := by
  refine List.foldlRecOn
    (motive := fun m : BackendMetrics V => series m.status labels = none) _ _ h ?_
  intro m hm e he
  refine (foldl_set_of_ne ?_).trans hm
  intro l hl heq
  exact hnone e.1 l e.2 heq hl (GoMap.get?_eq_some.mpr he)

theorem written_activation (h : GoMap.get? statuses url = some st) :
    series (m.written statuses).activation [url] = some 1 := by
  refine GoMap.foldl_entries_of_get? (P := fun m : BackendMetrics V =>
    series m.activation [url] = some 1) h (fun _ => series_set_self _) ?_
  intro m e he hm
  refine (series_set_of_ne ?_ _).trans hm
  intro heq
  exact he (List.cons.inj heq).1.symm

theorem written_activation_of_eq_none (h : series m.activation labels = none)
    (hnone : ∀ url st, labels = [url] → GoMap.get? statuses url ≠ some st) :
    series (m.written statuses).activation labels = none := by
  refine List.foldlRecOn
    (motive := fun m : BackendMetrics V => series m.activation labels = none) _ _ h ?_
  intro m hm e he
  refine (series_set_of_ne ?_ _).trans hm
  intro heq
  exact hnone e.1 e.2 heq (GoMap.get?_eq_some.mpr he)

omit [LawfulGaugeVec V] in
theorem written_seen (h : GoMap.get? statuses url = some st) :
    (m.written statuses).seen.get? url = some () := by
  refine GoMap.foldl_entries_of_get? (P := fun m : BackendMetrics V =>
    m.seen.get? url = some ()) h (fun m => ?_) ?_
  · show (m.seen.set url ()).get? url = some ()
    rw [GoMap.get?_set, if_pos rfl]
  · intro m e he hm
    show (m.seen.set e.1 ()).get? url = some ()
    rw [GoMap.get?_set, if_neg (Ne.symm he), hm]

end Series

/-! ### The totals -/

def tally (statuses : Snapshot) (label : GoString) : ℕ :=
  statuses.entries.countP fun e => statusLabel e.2 = label

theorem get?_foldl_count {es : List (GoString × TrinoStatus)} {c : GoMap ℕ} {n : ℕ}
    (h : c.get? label = some n) :
    (es.foldl (fun counts e => count counts (statusLabel e.2)) c).get? label =
      some (n + es.countP fun e => statusLabel e.2 = label) := by
  induction es generalizing c n with
  | nil => exact h
  | cons e es ih =>
    rw [List.foldl_cons, List.countP_cons]
    by_cases he : statusLabel e.2 = label
    · have hc : (count c (statusLabel e.2)).get? label = some (n + 1) := by
        unfold count
        rw [GoMap.get?_set, if_pos he.symm, he, h]
        rfl
      rw [ih hc]
      simp only [he, decide_true, if_true]
      congr 1
      omega
    · have hc : (count c (statusLabel e.2)).get? label = some n := by
        unfold count
        rw [GoMap.get?_set, if_neg (Ne.symm he), h]
      rw [ih hc]
      simp [he]

theorem get?_counts (hlabel : label ∈ backendStatusLabels) :
    (counts statuses).get? label = some (tally statuses label) := by
  have hzero : ∀ label ∈ backendStatusLabels, zeroCounts.get? label = some 0 := by decide
  rw [counts, get?_foldl_count (hzero label hlabel), Nat.zero_add]
  rfl

theorem mem_of_get?_counts {n : ℕ} (h : (counts statuses).get? label = some n) :
    label ∈ backendStatusLabels := by
  by_contra hlabel
  have hnone : (counts statuses).get? label = none := by
    refine List.foldlRecOn (motive := fun c : GoMap ℕ => c.get? label = none) _ _ ?_ ?_
    · cases hz : zeroCounts.get? label with
      | none => rfl
      | some n =>
        have hmem := GoMap.get?_eq_some.mp hz
        have hkeys : ∀ e ∈ zeroCounts.entries, e.1 ∈ backendStatusLabels := by decide
        exact absurd (hkeys _ hmem) hlabel
    · intro c hc e _
      unfold count
      rw [GoMap.get?_set, if_neg, hc]
      rintro rfl
      exact hlabel (statusLabel_mem e.2)
  rw [hnone] at h
  cases h

theorem setTotals_counts [LawfulGaugeVec V] (hlabel : label ∈ backendStatusLabels) :
    series (setTotals g (counts statuses)) [label] = some (tally statuses label) := by
  refine GoMap.foldl_entries_of_get? (P := fun g : V =>
    series g [label] = some (tally statuses label)) (get?_counts hlabel)
    (fun _ => series_set_self _) ?_
  intro g e he hg
  refine (series_set_of_ne ?_ _).trans hg
  intro heq
  exact he (List.cons.inj heq).1.symm

theorem setTotals_counts_of_eq_none [LawfulGaugeVec V] (h : series g labels = none)
    (hnone : ∀ label ∈ backendStatusLabels, labels ≠ [label]) :
    series (setTotals g (counts statuses)) labels = none := by
  refine List.foldlRecOn (motive := fun g : V => series g labels = none) _ _ h ?_
  intro g hg e he
  refine (series_set_of_ne ?_ _).trans hg
  exact hnone e.1 (mem_of_get?_counts (GoMap.get?_eq_some.mpr he))

theorem sum_tally (statuses : Snapshot) :
    (backendStatusLabels.map (tally statuses)).sum = statuses.entries.length := by
  unfold tally
  generalize statuses.entries = es
  induction es with
  | nil => rfl
  | cons e es ih =>
    simp only [backendStatusLabels, List.map_cons, List.map_nil, List.sum_cons, List.sum_nil,
      List.countP_cons, List.length_cons] at ih ⊢
    have hone : (if statusLabel e.2 = str "healthy" then 1 else 0) +
        (if statusLabel e.2 = str "unhealthy" then 1 else 0) +
        (if statusLabel e.2 = str "pending" then 1 else 0) = 1 := by
      cases e.2 <;> decide
    simp only [decide_eq_true_eq]
    omega

/-! ### Whole observations -/

/-- What the gauges show of a snapshot. -/
def shown (statuses : Snapshot) : Gauges where
  status
    | [url, label] =>
      if label ∈ backendStatusLabels then (GoMap.get? statuses url).map fun st => level st label
      else none
    | _ => none
  activation
    | [url] => (GoMap.get? statuses url).map fun _ => 1
    | _ => none
  total
    | [label] => if label ∈ backendStatusLabels then some (tally statuses label) else none
    | _ => none
  active := statuses.entries.length

theorem shown_status_ne_none (h : (shown statuses).status labels ≠ none) :
    ∃ url label st, labels = [url, label] ∧ label ∈ backendStatusLabels ∧
      GoMap.get? statuses url = some st := by
  simp only [shown] at h
  split at h
  · rename_i url label
    split at h
    · rename_i hlabel
      cases hst : GoMap.get? statuses url with
      | none => exact absurd (by rw [hst]; rfl) h
      | some st => exact ⟨url, label, st, rfl, hlabel, hst⟩
    · exact absurd rfl h
  · exact absurd rfl h

theorem shown_activation_ne_none (h : (shown statuses).activation labels ≠ none) :
    ∃ url st, labels = [url] ∧ GoMap.get? statuses url = some st := by
  simp only [shown] at h
  split at h
  · rename_i url
    cases hst : GoMap.get? statuses url with
    | none => exact absurd (by rw [hst]; rfl) h
    | some st => exact ⟨url, st, rfl, hst⟩
  · exact absurd rfl h

theorem shown_total_ne_none (h : (shown statuses).total labels ≠ none) :
    ∃ label ∈ backendStatusLabels, labels = [label] := by
  unfold shown at h
  grind

section Observations

variable [LawfulGaugeVec V]

theorem Synced.status_observeStatuses (h : Synced m) :
    series (m.observeStatuses statuses).status = (shown statuses).status := by
  rw [observeStatuses_eq]
  funext labels
  by_cases hshown : (shown statuses).status labels = none
  · rw [hshown]
    have hnone : ∀ url label st, labels = [url, label] → label ∈ backendStatusLabels →
        GoMap.get? statuses url ≠ some st := by
      rintro url label st rfl hlabel hst
      simp [shown, hlabel, hst] at hshown
    refine written_status_of_eq_none ?_ hnone
    by_contra hne
    obtain ⟨url, label, st, hlabels, hlabel, hst⟩ := h.pruned_status hne
    exact hnone url label st hlabels hlabel hst
  · obtain ⟨url, label, st, rfl, hlabel, hst⟩ := shown_status_ne_none hshown
    rw [show (shown statuses).status [url, label] = some (level st label) by
      simp [shown, hlabel, hst]]
    exact written_status hst hlabel

theorem Synced.activation_observeStatuses (h : Synced m) :
    series (m.observeStatuses statuses).activation = (shown statuses).activation := by
  rw [observeStatuses_eq]
  funext labels
  by_cases hshown : (shown statuses).activation labels = none
  · rw [hshown]
    have hnone : ∀ url st, labels = [url] → GoMap.get? statuses url ≠ some st := by
      rintro url st rfl hst
      simp [shown, hst] at hshown
    refine written_activation_of_eq_none ?_ hnone
    by_contra hne
    obtain ⟨url, st, hlabels, hst⟩ := h.pruned_activation hne
    exact hnone url st hlabels hst
  · obtain ⟨url, st, rfl, hst⟩ := shown_activation_ne_none hshown
    rw [show (shown statuses).activation [url] = some 1 by simp [shown, hst]]
    exact written_activation hst

theorem Synced.total_observeStatuses (h : Synced m) :
    series (m.observeStatuses statuses).total = (shown statuses).total := by
  rw [observeStatuses_eq]
  funext labels
  show series (setTotals ((m.pruned statuses).written statuses).total (counts statuses)) labels = _
  rw [total_written, total_pruned]
  by_cases hshown : (shown statuses).total labels = none
  · rw [hshown]
    have hnone : ∀ label ∈ backendStatusLabels, labels ≠ [label] := by
      rintro label hlabel rfl
      simp [shown, hlabel] at hshown
    refine setTotals_counts_of_eq_none ?_ hnone
    by_contra hne
    obtain ⟨label, hlabel, hlabels⟩ := h.total labels hne
    exact hnone label hlabel hlabels
  · obtain ⟨label, hlabel, rfl⟩ := shown_total_ne_none hshown
    rw [show (shown statuses).total [label] = some (tally statuses label) by
      simp [shown, hlabel]]
    exact setTotals_counts hlabel

/-- Whatever has been observed before, the gauges show the snapshot. -/
theorem Synced.gauges_observeStatuses (h : Synced m) :
    (m.observeStatuses statuses).gauges = shown statuses := by
  have hactive : (m.observeStatuses statuses).active = (shown statuses).active := by
    rw [observeStatuses_eq]
    rfl
  exact Gauges.ext h.status_observeStatuses h.activation_observeStatuses
    h.total_observeStatuses hactive

omit [LawfulGaugeVec V] in
theorem seen_observeStatuses (h : GoMap.get? statuses url = some st) :
    (m.observeStatuses statuses).seen.get? url = some () := by
  rw [observeStatuses_eq]
  exact written_seen h

theorem Synced.observeStatuses (h : Synced m) : Synced (m.observeStatuses statuses) := by
  constructor
  · intro labels hne
    rw [h.status_observeStatuses] at hne
    obtain ⟨url, label, st, hlabels, hlabel, hst⟩ := shown_status_ne_none hne
    exact ⟨url, label, hlabels, hlabel, seen_observeStatuses hst⟩
  · intro labels hne
    rw [h.activation_observeStatuses] at hne
    obtain ⟨url, st, hlabels, hst⟩ := shown_activation_ne_none hne
    exact ⟨url, hlabels, seen_observeStatuses hst⟩
  · intro labels hne
    rw [h.total_observeStatuses] at hne
    exact shown_total_ne_none hne

def observeAll (V : Type) [GaugeVec V] (snapshots : List Snapshot) : BackendMetrics V :=
  snapshots.foldl observeStatuses newBackendMetrics

theorem synced_observeAll (snapshots : List Snapshot) : Synced (observeAll V snapshots) :=
  List.foldlRecOn _ _ synced_new fun _ hm _ _ => hm.observeStatuses

theorem gauges_observeAll (snapshots : List Snapshot) (last : Snapshot) :
    (observeAll V (snapshots ++ [last])).gauges = shown last := by
  unfold observeAll
  rw [List.foldl_append]
  exact (synced_observeAll snapshots).gauges_observeStatuses

end Observations

end BackendMetrics

open BackendMetrics

/-- The series are those of the snapshot's URLs, each URL is up on one label and down on the
others, and the totals count the URLs by label. -/
structure Gauges.Describe (g : Gauges) (statuses : Snapshot) : Prop where
  status_series : ∀ labels, g.status labels ≠ none ↔
    ∃ url label st, labels = [url, label] ∧ label ∈ backendStatusLabels ∧
      GoMap.get? statuses url = some st
  activation_series : ∀ labels, g.activation labels ≠ none ↔
    ∃ url st, labels = [url] ∧ GoMap.get? statuses url = some st
  one_label : ∀ url st, GoMap.get? statuses url = some st →
    ∃ label ∈ backendStatusLabels, g.status [url, label] = some 1 ∧
      ∀ l ∈ backendStatusLabels, l ≠ label → g.status [url, l] = some 0
  total_series : ∀ labels, g.total labels ≠ none ↔ ∃ label ∈ backendStatusLabels, labels = [label]
  totals : ∀ label ∈ backendStatusLabels,
    g.total [label] = some (statuses.entries.countP fun e => statusLabel e.2 = label)
  sum_totals : (backendStatusLabels.map fun label => (g.total [label]).getD 0).sum = g.active

theorem describe_shown (statuses : Snapshot) : (shown statuses).Describe statuses := by
  have htotal : ∀ label ∈ backendStatusLabels,
      (shown statuses).total [label] = some (tally statuses label) := by
    intro label hlabel
    simp [shown, hlabel]
  constructor
  · intro labels
    constructor
    · exact shown_status_ne_none
    · rintro ⟨url, label, st, rfl, hlabel, hst⟩
      simp [shown, hlabel, hst]
  · intro labels
    constructor
    · exact shown_activation_ne_none
    · rintro ⟨url, st, rfl, hst⟩
      simp [shown, hst]
  · intro url st hst
    refine ⟨statusLabel st, statusLabel_mem st, ?_, ?_⟩
    · simp [shown, statusLabel_mem, hst, level]
    · intro l hl hne
      simp [shown, hl, hst, level, hne]
  · intro labels
    constructor
    · exact shown_total_ne_none
    · rintro ⟨label, hlabel, rfl⟩
      simp [htotal label hlabel]
  · exact htotal
  · calc (backendStatusLabels.map fun label => ((shown statuses).total [label]).getD 0).sum
        = (backendStatusLabels.map (tally statuses)).sum := by
          apply congrArg
          apply List.map_congr_left
          intro label hlabel
          rw [htotal label hlabel, Option.getD_some]
      _ = (shown statuses).active := sum_tally statuses

section Samples

structure SeriesMap where
  value : List GoString → Option ℕ

instance gaugeVecSeriesMap : GaugeVec SeriesMap where
  new := ⟨fun _ => none⟩
  set g labels v := ⟨Function.update g.value labels (some v)⟩
  deleteLabelValues g labels := ⟨Function.update g.value labels none⟩
  series := SeriesMap.value

instance lawfulSeriesMap : LawfulGaugeVec SeriesMap where
  series_new _ := rfl
  series_set _ _ _ := rfl
  series_delete _ _ := rfl

private def oneBackend : Snapshot := GoMap.empty.set (str "http://a") .unhealthy

end Samples

/-! ### What the monitor observes -/

theorem get?_notifyObserver (backends : List Backend) (status : Snapshot) (url : GoString) :
    GoMap.get? (notifyObserver backends status) url ≠ none ↔ ∃ b ∈ backends, b.url = url := by
  have hempty : ∀ {α : Type}, (GoMap.empty : GoMap α).get? url = none := rfl
  unfold notifyObserver
  rw [GoMap.get?_foldl_set_ne_none, ← GoMap.get?_ne_none, GoMap.get?_foldl_set_ne_none]
  simp [hempty]

/-- A backend has series from the time it is on the list, probed or not, until it has left. -/
theorem series_of_backends [LawfulGaugeVec V] (snapshots : List Snapshot)
    (backends : List Backend) (status : Snapshot) (url : GoString) :
    (observeAll V (snapshots ++ [notifyObserver backends status])).gauges.activation [url] ≠ none ↔
      ∃ b ∈ backends, b.url = url := by
  rw [gauges_observeAll, (describe_shown _).activation_series,
    ← get?_notifyObserver backends status, Option.ne_none_iff_exists']
  simp

end TrinoGoway.Metrics
