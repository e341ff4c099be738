import TrinoGoway.Engine.Pipeline
import Mathlib.Data.List.Induction

/-! The kill-switch: `DisableMethod`, `EnableMethod` and `Swap` as changes of the method list,
and what a disabled method stays safe from. -/
namespace TrinoGoway.Engine

open Go Prog

variable {M : Type}

namespace Entry

def disable : Entry M → Entry M
  | live m => disabled (live m)
  | disabled inner => disabled inner

def enable : Entry M → Entry M
  | live m => live m
  | disabled inner => inner

def method : Entry M → M
  | live m => m
  | disabled inner => inner.method

def Flat : Entry M → Prop
  | live _ => True
  | disabled (live _) => True
  | disabled (disabled _) => False

@[simp] theorem method_disable (e : Entry M) : e.disable.method = e.method := by
  cases e <;> rfl

@[simp] theorem method_enable (e : Entry M) : e.enable.method = e.method := by
  cases e <;> rfl

theorem Flat.disable {e : Entry M} (h : e.Flat) : e.disable.Flat := by
  cases e with
  | live m => trivial
  | disabled inner => exact h

theorem Flat.enable {e : Entry M} (h : e.Flat) : e.enable.Flat := by
  cases e with
  | live m => trivial
  | disabled inner =>
    cases inner with
    | live m => trivial
    | disabled e => exact h.elim

end Entry

/-- The calls that change the method list. -/
inductive Update (M : Type)
  | disable (t : GoString)
  | enable (t : GoString)
  | swap (ms : List M)

def lastSwapped (ms : List M) (us : List (Update M)) : List M :=
  us.foldl (fun ms u => match u with | .swap ms' => ms' | _ => ms) ms

theorem lastSwapped_eq_of_no_swap (ms : List M) {us : List (Update M)}
    (hus : ∀ u ∈ us, ∀ ms', u ≠ .swap ms') : lastSwapped ms us = ms := by
  induction us with
  | nil => rfl
  | cons u us ih =>
    rw [List.forall_mem_cons] at hus
    cases u with
    | disable t => exact ih hus.2
    | enable t => exact ih hus.2
    | swap ms' => exact absurd rfl (hus.1 ms')

/-- The entries are those of `ms`, in order, each wrapped at most once. -/
structure Wraps (ms : List M) (es : List (Entry M)) : Prop where
  methods : es.map Entry.method = ms
  flat : ∀ e ∈ es, e.Flat

theorem Wraps.live (ms : List M) : Wraps ms (ms.map .live) := by
  constructor
  · rw [List.map_map]
    exact List.map_id ms
  · intro e he
    obtain ⟨m, -, rfl⟩ := List.mem_map.mp he
    trivial

theorem method_mem_of_mem_enabled {m : M} {es : List (Entry M)} (h : m ∈ enabled es) :
    m ∈ es.map Entry.method := by
  obtain ⟨e, he, hm⟩ := List.mem_filterMap.mp h
  cases e with
  | live m' =>
    obtain rfl := Option.some.inj hm
    exact List.mem_map.mpr ⟨_, he, rfl⟩
  | disabled e => cases hm

variable [RoutingMethod M]

namespace Entry

theorem typeName_eq (e : Entry M) : e.typeName = RoutingMethod.typeName e.method := by
  induction e with
  | live m => rfl
  | disabled inner ih => exact ih

@[simp] theorem typeName_disable (e : Entry M) : e.disable.typeName = e.typeName := by
  rw [typeName_eq, typeName_eq, method_disable]

@[simp] theorem typeName_enable (e : Entry M) : e.enable.typeName = e.typeName := by
  rw [typeName_eq, typeName_eq, method_enable]

end Entry

/-- The list that `updateMethod` writes: `fn` applied to the first entry of type `t`. It returns
without writing when there is none. -/
def updateMethod (t : GoString) (fn : Entry M → Entry M) :
    List (Entry M) → Option (List (Entry M))
  | [] => none
  | e :: es => if e.typeName = t then some (fn e :: es) else (updateMethod t fn es).map (e :: ·)

def Update.write : Update M → List (Entry M) → Option (List (Entry M))
  | disable t, es => updateMethod t Entry.disable es
  | enable t, es => updateMethod t Entry.enable es
  | swap ms, _ => some (ms.map .live)

def Update.apply (u : Update M) (es : List (Entry M)) : List (Entry M) := (u.write es).getD es

def entriesAfter (ms : List M) (us : List (Update M)) : List (Entry M) :=
  us.foldl (fun es u => u.apply es) (ms.map .live)

section Update

variable {t : GoString} {fn : Entry M → Entry M} {es es' : List (Entry M)}

theorem updateMethod_method (hfn : ∀ e, (fn e).method = e.method)
    (h : updateMethod t fn es = some es') : es'.map Entry.method = es.map Entry.method := by
  induction es generalizing es' with
  | nil => cases h
  | cons e es ih =>
    rw [updateMethod] at h
    split at h
    · obtain rfl := Option.some.inj h
      rw [List.map_cons, List.map_cons, hfn]
    · obtain ⟨es₁, h₁, rfl⟩ := Option.map_eq_some_iff.mp h
      rw [List.map_cons, List.map_cons, ih h₁]

theorem updateMethod_forall {P : Entry M → Prop} (hfn : ∀ e, P e → P (fn e))
    (hes : ∀ e ∈ es, P e) (h : updateMethod t fn es = some es') : ∀ e ∈ es', P e := by
  induction es generalizing es' with
  | nil => cases h
  | cons e es ih =>
    rw [List.forall_mem_cons] at hes
    rw [updateMethod] at h
    split at h
    · obtain rfl := Option.some.inj h
      exact List.forall_mem_cons.mpr ⟨hfn e hes.1, hes.2⟩
    · obtain ⟨es₁, h₁, rfl⟩ := Option.map_eq_some_iff.mp h
      exact List.forall_mem_cons.mpr ⟨hes.1, ih hes.2 h₁⟩

end Update

theorem Wraps.apply {ms : List M} {es : List (Entry M)} (h : Wraps ms es) (u : Update M) :
    Wraps (lastSwapped ms [u]) (u.apply es) := by
  have keep : ∀ {t fn}, (∀ e, (fn e).method = e.method) → (∀ e, e.Flat → (fn e).Flat) →
      Wraps ms ((updateMethod t fn es).getD es) := by
    intro t fn hm hf
    cases hw : updateMethod t fn es with
    | none => exact h
    | some es' =>
      exact ⟨(updateMethod_method hm hw).trans h.methods, updateMethod_forall hf h.flat hw⟩
  cases u with
  | disable t => exact keep Entry.method_disable fun e he => he.disable
  | enable t => exact keep Entry.method_enable fun e he => he.enable
  | swap ms' => exact .live ms'

/-- In every run wrappers are not nested, and below them is the list swapped last. -/
theorem wraps_entriesAfter (ms : List M) (us : List (Update M)) :
    Wraps (lastSwapped ms us) (entriesAfter ms us) := by
  induction us using List.reverseRecOn with
  | nil => exact .live ms
  | append_singleton us u ih =>
    rw [entriesAfter, List.foldl_append, lastSwapped, List.foldl_append]
    exact ih.apply u

section Find

variable {t t' : GoString} {fn : Entry M → Entry M} {es es' : List (Entry M)}

/-- The first entry of a type, which is the one that the calls for this type change. -/
def firstOf (t : GoString) (es : List (Entry M)) : Option (Entry M) :=
  es.find? fun e => e.typeName = t

theorem firstOf_updateMethod (hfn : ∀ e, (fn e).typeName = e.typeName) :
    firstOf t ((updateMethod t fn es).getD es) = (firstOf t es).map fn := by
  induction es with
  | nil => rfl
  | cons e es ih =>
    rw [updateMethod]
    by_cases he : e.typeName = t
    · simp [firstOf, he, hfn]
    · cases hu : updateMethod t fn es with
      | none => simpa [firstOf, he, hu] using ih
      | some es' => simpa [firstOf, he, hu] using ih

theorem firstOf_updateMethod_of_ne (hfn : ∀ e, (fn e).typeName = e.typeName) (hne : t' ≠ t) :
    firstOf t ((updateMethod t' fn es).getD es) = firstOf t es := by
  induction es with
  | nil => rfl
  | cons e es ih =>
    rw [updateMethod]
    by_cases he' : e.typeName = t'
    · have he : e.typeName ≠ t := fun h => hne (he'.symm.trans h)
      simp [firstOf, he', hfn, hne]
    · cases hu : updateMethod t' fn es with
      | none => simp [he']
      | some es' =>
        rw [hu] at ih
        simp only [firstOf, he', if_false, Option.map_some, Option.getD_some, List.find?_cons]
          at ih ⊢
        rw [ih]

end Find

/-- The first entry of type `t` is the method `m`, disabled. -/
def Off (t : GoString) (m : M) (es : List (Entry M)) : Prop :=
  firstOf t es = some (.disabled (.live m))

section Off

variable {t : GoString} {m : M} {es : List (Entry M)}

theorem off_of_disable {e : Entry M} (he : firstOf t es = some e) (hflat : e.Flat) :
    Off t e.method ((Update.disable t).apply es) := by
  have h : firstOf t ((updateMethod t Entry.disable es).getD es) =
      (firstOf t es).map Entry.disable := firstOf_updateMethod Entry.typeName_disable
  rw [he] at h
  refine h.trans ?_
  cases e with
  | live m => rfl
  | disabled inner =>
    cases inner with
    | live m => rfl
    | disabled e => exact hflat.elim

/-- Only enabling the type, or a new list, undoes it. -/
theorem Off.apply {u : Update M} (h : Off t m es) (henable : u ≠ .enable t)
    (hswap : ∀ ms, u ≠ .swap ms) : Off t m (u.apply es) := by
  cases u with
  | disable t' =>
    by_cases ht : t' = t
    · subst ht
      exact off_of_disable h trivial
    · exact (firstOf_updateMethod_of_ne Entry.typeName_disable ht).trans h
  | enable t' =>
    have ht : t' ≠ t := fun ht => henable (ht ▸ rfl)
    exact (firstOf_updateMethod_of_ne Entry.typeName_enable ht).trans h
  | swap ms => exact absurd rfl (hswap ms)

theorem Off.foldl {us : List (Update M)} (h : Off t m es)
    (hus : ∀ u ∈ us, u ≠ .enable t ∧ ∀ ms, u ≠ .swap ms) :
    Off t m (us.foldl (fun es u => u.apply es) es) := by
  induction us generalizing es with
  | nil => exact h
  | cons u us ih =>
    rw [List.forall_mem_cons] at hus
    exact ih (h.apply hus.1.1 hus.1.2) hus.2

/-- A method that is off does not occur among the enabled ones: the list has it once. -/
theorem Off.not_mem_enabled (h : Off t m es) (hnodup : (es.map Entry.method).Nodup) :
    m ∉ enabled es := by
  intro hm
  obtain ⟨e, he, hem⟩ := List.mem_filterMap.mp hm
  have hoff : Entry.disabled (.live m) ∈ es := List.mem_of_find?_eq_some h
  cases e with
  | live m' =>
    obtain rfl := Option.some.inj hem
    exact absurd (List.inj_on_of_nodup_map hnodup he hoff rfl) (by simp)
  | disabled e => cases hem

end Off

theorem entriesAfter_append (ms : List M) (us us' : List (Update M)) :
    entriesAfter ms (us ++ us') = us'.foldl (fun es u => u.apply es) (entriesAfter ms us) :=
  List.foldl_append

/-- After `DisableMethod(t)` no later evaluation calls the first method of type `t`, until the
type is enabled again or a reload brings a new list. -/
theorem disabled_not_called {ms : List M} {before later : List (Update M)} {t : GoString} {m : M}
    (hdistinct : (lastSwapped ms before).Nodup)
    (hm : (lastSwapped ms before).find? (fun m => typeName m = t) = some m)
    (hlater : ∀ u ∈ later, u ≠ .enable t ∧ ∀ ms', u ≠ .swap ms')
    (g : GoString) (input : RouteInput) (f : Call M → Ended) :
    ∀ m' ∈ Pipeline.calls ⟨entriesAfter ms (before ++ .disable t :: later), g⟩ input f,
      m' ∈ lastSwapped ms before ∧ m' ≠ m := by
  have hw := wraps_entriesAfter ms before
  obtain ⟨e, he, rfl⟩ : ∃ e, firstOf t (entriesAfter ms before) = some e ∧ e.method = m := by
    rw [← hw.methods, List.find?_map, Option.map_eq_some_iff] at hm
    obtain ⟨e, he, hem⟩ := hm
    refine ⟨e, ?_, hem⟩
    rw [← he, firstOf]
    congr 1
    funext e
    simp only [Function.comp, Entry.typeName_eq]
  have hoff : Off t e.method (entriesAfter ms (before ++ .disable t :: later)) := by
    rw [entriesAfter_append, List.foldl_cons]
    exact (off_of_disable he (hw.flat e (List.mem_of_find?_eq_some he))).foldl hlater
  have hlast : lastSwapped ms (before ++ .disable t :: later) = lastSwapped ms before := by
    rw [lastSwapped, List.foldl_append]
    exact lastSwapped_eq_of_no_swap _ (List.forall_mem_cons.mpr
      ⟨fun ms' => by simp, fun u hu => (hlater u hu).2⟩)
  have hw' := wraps_entriesAfter ms (before ++ .disable t :: later)
  rw [hlast] at hw'
  intro m' hm'
  have hen := Pipeline.mem_enabled_of_mem_calls _ input f hm'
  refine ⟨hw'.methods ▸ method_mem_of_mem_enabled hen, ?_⟩
  intro heq
  exact hoff.not_mem_enabled (hw'.methods.symm ▸ hdistinct) (heq ▸ hen)

structure Numbered where
  id : ℕ
  type : GoString
  deriving DecidableEq

instance : RoutingMethod Numbered := ⟨Numbered.type⟩

def deferring : Call Numbered → Ended := fun _ => .returned {} none

theorem disabled_not_called_first :
    (⟨0, str "expr"⟩ : Numbered) ∉ Pipeline.calls
      ⟨entriesAfter [⟨0, str "expr"⟩, ⟨1, str "script"⟩]
        ([] ++ .disable (str "expr") :: [.disable (str "script"), .enable (str "script")]),
        str "adhoc"⟩ {} deferring := by
  intro hcall
  have hlater : ∀ u ∈ [.disable (str "script"), .enable (str "script")],
      u ≠ Update.enable (str "expr") ∧ ∀ ms' : List Numbered, u ≠ .swap ms' := by
    intro u hu
    simp only [List.mem_cons, List.not_mem_nil, or_false] at hu
    rcases hu with rfl | rfl
    · exact ⟨by simp, by simp⟩
    · refine ⟨fun h => ?_, by simp⟩
      exact absurd (Update.enable.inj h) (by decide)
  exact (disabled_not_called (by decide) (by decide) hlater _ _ _ _ hcall).2 rfl

/-- A second method of the type is called, and so is a method of the type after a reload. -/
theorem disabled_type_called :
    (⟨1, str "expr"⟩ : Numbered) ∈
        Pipeline.calls ⟨entriesAfter [⟨0, str "expr"⟩, ⟨1, str "expr"⟩]
          [.disable (str "expr")], str "adhoc"⟩ {} deferring ∧
      (⟨1, str "expr"⟩ : Numbered) ∈
        Pipeline.calls ⟨entriesAfter [⟨0, str "expr"⟩]
          [.disable (str "expr"), .swap [⟨1, str "expr"⟩]], str "adhoc"⟩ {} deferring := by
  decide

end TrinoGoway.Engine
