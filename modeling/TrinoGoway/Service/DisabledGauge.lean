import TrinoGoway.Engine.KillSwitch
import TrinoGoway.Lib.Machine
import TrinoGoway.Metrics.Backend

/-! The kill-switch calls of the admin server and the gauge of disabled methods. `main` fixes the
types that the gauge is synchronised for at the start, and only the admin calls synchronise it. -/
namespace TrinoGoway.Service

open Go Engine
open Metrics (GaugeVec LawfulGaugeVec SeriesMap)
open Metrics.GaugeVec (series)

variable {M : Type} [RoutingMethod M] {V : Type} [GaugeVec V]

def disabledMethods (es : List (Engine.Entry M)) : List GoString :=
  (es.filter (·.isDisabled)).map Engine.Entry.typeName

def setMethodDisabled (g : V) (methodType : GoString) (disabled : Bool) : V :=
  GaugeVec.set g [methodType] (if disabled then 1 else 0)

def syncDisabled (g : V) (allTypes disabled : List GoString) : V :=
  allTypes.foldl (fun g t => setMethodDisabled g t (t ∈ disabled)) g

structure MethodReply where
  ok : Bool
  message : GoString
  disabled : List GoString

/-- The live pipeline and the gauge `method_disabled`. -/
structure SwitchState (M V : Type) where
  entries : List (Engine.Entry M)
  gauge : V

namespace SwitchState

def start (ms : List M) : SwitchState M V := ⟨ms.map .live, GaugeVec.new⟩

variable (allMethodTypes : List GoString)

def notify (s : SwitchState M V) (disabled : List GoString) : SwitchState M V :=
  { s with gauge := syncDisabled s.gauge allMethodTypes disabled }

def disableMethod (s : SwitchState M V) (t : GoString) : SwitchState M V × MethodReply :=
  let before : Bool := t ∈ disabledMethods s.entries
  let entries := (Update.disable t).apply s.entries
  let disabled := disabledMethods entries
  let msg :=
    if before then str "already disabled"
    else if t ∉ disabled then str "unknown method type"
    else str "disabled"
  (notify allMethodTypes { s with entries } disabled, ⟨true, msg, disabled⟩)

def enableMethod (s : SwitchState M V) (t : GoString) : SwitchState M V × MethodReply :=
  let wasDisabled : Bool := t ∈ disabledMethods s.entries
  let entries := (Update.enable t).apply s.entries
  let disabled := disabledMethods entries
  let msg := if wasDisabled then str "enabled" else str "not disabled"
  (notify allMethodTypes { s with entries } disabled, ⟨true, msg, disabled⟩)

/-- A completed admin call, or a successful reload, whose `Swap` is all that it does to either. -/
def step (s : SwitchState M V) : Update M → Option (SwitchState M V)
  | .disable t => some (s.disableMethod allMethodTypes t).1
  | .enable t => some (s.enableMethod allMethodTypes t).1
  | .swap ms => some { s with entries := (Update.swap ms).apply s.entries }

end SwitchState

/-! ### The disabled types -/

section Disabled

variable {t t' : GoString} {es : List (Engine.Entry M)}

theorem mem_disabledMethods :
    t ∈ disabledMethods es ↔ ∃ e ∈ es, e.isDisabled = true ∧ e.typeName = t := by
  simp [disabledMethods, and_assoc]

theorem disabledMethods_cons (e : Engine.Entry M) (es : List (Engine.Entry M)) :
    t ∈ disabledMethods (e :: es) ↔
      (e.isDisabled = true ∧ e.typeName = t) ∨ t ∈ disabledMethods es := by
  simp [mem_disabledMethods]

theorem mem_disabledMethods_updateMethod {fn : Engine.Entry M → Engine.Entry M}
    (hfn : ∀ e, (fn e).typeName = e.typeName) (hne : t' ≠ t) :
    t' ∈ disabledMethods ((updateMethod t fn es).getD es) ↔ t' ∈ disabledMethods es := by
  induction es with
  | nil => rfl
  | cons e es ih =>
    rw [updateMethod]
    split
    · rename_i he
      have hother : ∀ e' : Engine.Entry M, e'.typeName = t →
          ¬(e'.isDisabled = true ∧ e'.typeName = t') :=
        fun e' he' h => hne (h.2.symm.trans he')
      rw [Option.getD_some, disabledMethods_cons, disabledMethods_cons,
        or_iff_right (hother e he), or_iff_right (hother (fn e) ((hfn e).trans he))]
    · cases hu : updateMethod t fn es with
      | none => simp
      | some es' =>
        rw [hu, Option.getD_some] at ih
        rw [Option.map_some, Option.getD_some, disabledMethods_cons, disabledMethods_cons, ih]

theorem mem_disabledMethods_disable :
    t ∈ disabledMethods ((Update.disable t).apply es) ↔ ∃ e ∈ es, e.typeName = t := by
  change t ∈ disabledMethods ((updateMethod t Engine.Entry.disable es).getD es) ↔ _
  induction es with
  | nil => simp [updateMethod, disabledMethods]
  | cons e es ih =>
    rw [updateMethod]
    split
    · rename_i he
      have hdisabled : e.disable.isDisabled = true := by cases e <;> rfl
      simp [disabledMethods_cons, hdisabled, he]
    · rename_i he
      cases hu : updateMethod t Engine.Entry.disable es with
      | none =>
        rw [hu, Option.getD_none] at ih
        simp [disabledMethods_cons, he, ih]
      | some es' =>
        rw [hu, Option.getD_some] at ih
        simp [disabledMethods_cons, he, ih]

theorem mem_disabledMethods_of_enable (h : t ∈ disabledMethods ((Update.enable t').apply es)) :
    t ∈ disabledMethods es := by
  change t ∈ disabledMethods ((updateMethod t' Engine.Entry.enable es).getD es) at h
  induction es with
  | nil => exact h
  | cons e es ih =>
    rw [updateMethod] at h
    rw [disabledMethods_cons]
    split at h
    · rw [Option.getD_some, disabledMethods_cons] at h
      rcases h with ⟨hdisabled, htype⟩ | h
      · -- what is still disabled was wrapped before
        cases e with
        | live m => cases hdisabled
        | disabled inner => exact .inl ⟨rfl, htype⟩
      · exact .inr h
    · cases hu : updateMethod t' Engine.Entry.enable es with
      | none =>
        rw [hu] at h
        exact (disabledMethods_cons e es).mp h
      | some es' =>
        rw [hu, Option.getD_some] at ih
        rw [hu, Option.map_some, Option.getD_some, disabledMethods_cons] at h
        exact h.imp_right ih

theorem disabledMethods_live (ms : List M) : disabledMethods (ms.map .live) = [] := by
  simp [disabledMethods, Engine.Entry.isDisabled]

end Disabled

/-! ### The gauge -/

variable [LawfulGaugeVec V]

theorem series_syncDisabled (g : V) (allTypes disabled : List GoString) (t : GoString) :
    series (syncDisabled g allTypes disabled) [t] =
      if t ∈ allTypes then some (if t ∈ disabled then 1 else 0) else series g [t] := by
  unfold syncDisabled
  induction allTypes generalizing g with
  | nil => simp
  | cons t' allTypes ih =>
    rw [List.foldl_cons, ih]
    by_cases htail : t ∈ allTypes
    · simp [htail]
    · by_cases ht : t = t'
      · subst ht
        simp [htail, setMethodDisabled, LawfulGaugeVec.series_set]
      · simp [htail, ht, setMethodDisabled, LawfulGaugeVec.series_set]

namespace SwitchState

/-- The gauge tells for every type of the live pipeline whether it is disabled. -/
def Truthful (s : SwitchState M V) : Prop :=
  ∀ e ∈ s.entries,
    if e.typeName ∈ disabledMethods s.entries then series s.gauge [e.typeName] = some 1
    else series s.gauge [e.typeName] = some 0 ∨ series s.gauge [e.typeName] = none

/-- Only the types of the start have series, with the values zero and one. -/
def Series (allMethodTypes : List GoString) (s : SwitchState M V) : Prop :=
  ∀ t, series s.gauge [t] = none ∨
    t ∈ allMethodTypes ∧ (series s.gauge [t] = some 0 ∨ series s.gauge [t] = some 1)

/-- When a step leaves the gauge truthful: a method is disabled only if its type is one of the
start, and a new configuration has no type that the gauge reports as disabled. -/
def Reported (allMethodTypes : List GoString) (s : SwitchState M V) : Update M → Prop
  | .disable t => t ∈ allMethodTypes ∨ ∀ e ∈ s.entries, e.typeName ≠ t
  | .enable _ => True
  | .swap ms => ∀ m ∈ ms, series s.gauge [typeName m] ≠ some 1

variable {allMethodTypes : List GoString} {s s' : SwitchState M V} {u : Update M}

omit [RoutingMethod M] in
theorem Series.notify (h : Series allMethodTypes s) (disabled : List GoString) :
    Series allMethodTypes (notify allMethodTypes s disabled) := by
  intro t
  simp only [SwitchState.notify, series_syncDisabled]
  split
  · rename_i ht
    refine .inr ⟨ht, ?_⟩
    split
    · exact .inr rfl
    · exact .inl rfl
  · exact h t

theorem Series.step (h : Series allMethodTypes s) (hstep : s.step allMethodTypes u = some s') :
    Series allMethodTypes s' := by
  cases u <;> obtain rfl := Option.some.inj hstep
  · exact Series.notify (s := { s with entries := _ }) h _
  · exact Series.notify (s := { s with entries := _ }) h _
  · exact h

theorem truthful_notify (h : Series allMethodTypes s) :
    Truthful (notify allMethodTypes s (disabledMethods s.entries)) ↔
      ∀ e ∈ s.entries, e.typeName ∉ allMethodTypes → e.typeName ∉ disabledMethods s.entries := by
  have hgauge : ∀ t ∉ allMethodTypes, series s.gauge [t] = none := fun t ht =>
    (h t).resolve_right fun h => ht h.1
  unfold Truthful SwitchState.notify
  simp only [series_syncDisabled]
  refine forall₂_congr fun e he => ?_
  by_cases ht : e.typeName ∈ allMethodTypes
  · by_cases hd : e.typeName ∈ disabledMethods s.entries <;> simp [ht, hd]
  · by_cases hd : e.typeName ∈ disabledMethods s.entries <;> simp [ht, hd, hgauge]

omit [LawfulGaugeVec V] in
theorem Truthful.not_mem (hs : Series allMethodTypes s) (h : s.Truthful) {t : GoString}
    (ht : t ∉ allMethodTypes) : t ∉ disabledMethods s.entries := by
  intro hd
  obtain ⟨e, he, -, rfl⟩ := mem_disabledMethods.mp hd
  have hgauge := h e he
  rw [if_pos hd] at hgauge
  rcases hs e.typeName with hnone | hseries
  · rw [hgauge] at hnone
    cases hnone
  · exact ht hseries.1

theorem truthful_step (hs : Series allMethodTypes s) (h : s.Truthful)
    (hstep : s.step allMethodTypes u = some s') : s'.Truthful ↔ Reported allMethodTypes s u := by
  cases u with
  | disable t =>
    obtain rfl := Option.some.inj hstep
    have hs' : Series allMethodTypes { s with entries := (Update.disable t).apply s.entries } := hs
    refine (truthful_notify hs').trans ?_
    dsimp only [Reported]
    constructor
    · intro hall
      by_contra hcon
      rw [not_or, not_forall] at hcon
      obtain ⟨ht, e, he⟩ := hcon
      rw [not_forall, not_not] at he
      obtain ⟨hmem, htype⟩ := he
      have hoff : t ∈ disabledMethods ((Update.disable t).apply s.entries) :=
        mem_disabledMethods_disable.mpr ⟨e, hmem, htype⟩
      obtain ⟨e', he', -, htype'⟩ := mem_disabledMethods.mp hoff
      exact hall e' he' (by rwa [htype']) (by rwa [htype'])
    · intro hreported e he htype hoff
      by_cases ht : e.typeName = t
      · rw [ht] at htype hoff
        obtain ⟨e', he', htype'⟩ := mem_disabledMethods_disable.mp hoff
        exact hreported.elim htype fun hnone => hnone e' he' htype'
      · exact h.not_mem hs htype
          ((mem_disabledMethods_updateMethod Engine.Entry.typeName_disable ht).mp hoff)
  | enable t =>
    obtain rfl := Option.some.inj hstep
    have hs' : Series allMethodTypes { s with entries := (Update.enable t).apply s.entries } := hs
    refine (truthful_notify hs').trans ?_
    refine iff_of_true ?_ trivial
    intro e he htype hoff
    exact h.not_mem hs htype (mem_disabledMethods_of_enable hoff)
  | swap ms =>
    obtain rfl := Option.some.inj hstep
    have hentries : (Update.swap ms).apply s.entries = ms.map .live := rfl
    unfold Truthful Reported
    simp only [hentries, disabledMethods_live, List.not_mem_nil, if_false, List.forall_mem_map]
    refine forall₂_congr fun m _ => ?_
    have hvalue : series s.gauge [typeName m] = some 0 ∨ series s.gauge [typeName m] = none ↔
        series s.gauge [typeName m] ≠ some 1 := by
      rcases hs (typeName m) with hnone | ⟨-, hzero | hone⟩
      · simp [hnone]
      · simp [hzero]
      · simp [hone]
    exact hvalue

/-- The gauge is truthful in every state of a run exactly if its steps are reported. -/
theorem gauge_truthful_iff (allMethodTypes : List GoString) (ms : List M) (us : List (Update M)) :
    (∀ us', us' <+: us → ∀ s : SwitchState M V,
        Machine.run (step allMethodTypes) (start ms) us' = some s → s.Truthful) ↔
      Machine.Meets (step allMethodTypes) (Reported allMethodTypes) (start ms : SwitchState M V)
        us := by
  have hnew : ∀ t, series (start ms : SwitchState M V).gauge [t] = none :=
    fun t => LawfulGaugeVec.series_new [t]
  refine Machine.forall_run_iff_meets (fun s u => ?_) (fun _ _ _ => Series.step)
    (fun _ _ _ => truthful_step) (fun t => .inl (hnew t)) ?_
  · cases u with
    | disable t => exact ⟨_, rfl⟩
    | enable t => exact ⟨_, rfl⟩
    | swap ms => exact ⟨_, rfl⟩
  · intro e he
    have hnone : disabledMethods (start ms : SwitchState M V).entries = [] :=
      disabledMethods_live ms
    rw [hnone, if_neg List.not_mem_nil]
    exact .inr (hnew _)

end SwitchState

/-- A method is enabled again before a reload brings in its type. -/
theorem gauge_truthful_enabled_first :
    LawfulGaugeVec SeriesMap ∧
    ∀ us', us' <+: [.disable (str "expr"), .enable (str "expr"), .swap [⟨1, str "expr"⟩]] →
      ∀ s : SwitchState Numbered SeriesMap,
        Machine.run (SwitchState.step [str "expr"]) (.start [⟨0, str "expr"⟩]) us' = some s →
          s.Truthful := by
  refine ⟨inferInstance, (SwitchState.gauge_truthful_iff _ _ _).mpr ?_⟩
  refine Machine.meets_cons (.inl List.mem_cons_self) rfl (Machine.meets_cons trivial rfl
    (Machine.meets_cons ?_ rfl trivial))
  intro m hm
  rw [List.mem_singleton.mp hm]
  decide

/-- A reload enables the method again, and the gauge still reports it as disabled. -/
theorem disabled_gauge_stale :
    ∃ s : SwitchState Numbered SeriesMap,
      Machine.run (SwitchState.step [str "expr"]) (.start [⟨0, str "expr"⟩])
          [.disable (str "expr"), .swap [⟨1, str "expr"⟩]] = some s ∧
        s.entries = [.live ⟨1, str "expr"⟩] ∧ disabledMethods s.entries = [] ∧
        series s.gauge [str "expr"] = some 1 ∧ ¬s.Truthful := by
  refine ⟨_, rfl, rfl, rfl, by decide, fun h => ?_⟩
  have hexpr := h (.live ⟨1, str "expr"⟩) (by decide)
  rw [if_neg (by decide)] at hexpr
  exact absurd hexpr (by decide)

end TrinoGoway.Service
