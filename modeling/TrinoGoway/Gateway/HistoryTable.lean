import TrinoGoway.Gateway.System

/-! The history table along a run: rows are added, and stay. -/
namespace TrinoGoway

open Go Persistence Prog Interleave

namespace Shared

theorem backendOf_insertRow_of_some {history : List QueryRecord} {q b : GoString}
    (h : backendOf history q = some b) (r : QueryRecord) :
    backendOf (insertRow history r) q = some b := by
  unfold insertRow
  split
  · exact h
  · unfold backendOf at h ⊢
    obtain ⟨row, hrow, rfl⟩ := Option.map_eq_some_iff.mp h
    rw [List.find?_append, hrow]
    rfl

theorem backendOf_insertRow_of_none {history : List QueryRecord} {r : QueryRecord}
    (h : backendOf history r.queryID = none) :
    backendOf (insertRow history r) r.queryID = some r.backendURL := by
  unfold backendOf at h ⊢
  rw [Option.map_eq_none_iff] at h
  have hnew : (history.any fun r' => r'.queryID = r.queryID) = false := by
    rw [List.any_eq_false]
    exact List.find?_eq_none.mp h
  unfold insertRow
  rw [hnew, if_neg (by simp), List.find?_append, h]
  simp

theorem backendOf_insertRow_of_ne {history : List QueryRecord} {r : QueryRecord} {q : GoString}
    (h : r.queryID ≠ q) : backendOf (insertRow history r) q = backendOf history q := by
  unfold insertRow
  split
  · rfl
  · unfold backendOf
    rw [List.find?_append]
    simp [h]

theorem mem_insertRow {history : List QueryRecord} {r r' : QueryRecord}
    (h : r' ∈ insertRow history r) : r' ∈ history ∨ r' = r := by
  unfold insertRow at h
  split at h
  · exact Or.inl h
  · exact (List.mem_append.mp h).imp_right List.mem_singleton.mp

theorem nodup_insertRow {history : List QueryRecord} (h : (history.map (·.queryID)).Nodup)
    (r : QueryRecord) : ((insertRow history r).map (·.queryID)).Nodup := by
  unfold insertRow
  split
  · exact h
  · next hnew =>
    simp only [List.any_eq_true, decide_eq_true_eq, not_exists, not_and] at hnew
    rw [List.map_append, List.nodup_append]
    exact ⟨h, by simp, by simpa using hnew⟩

end Shared

open Shared (backendOf)

theorem exec_history {o : Op} {s s' : Shared} {ans : o.Ret} (he : exec o s ans s') :
    s'.history = s.history ∨
      ∃ row, o = .insertHistory row ∧ s'.history = Shared.insertRow s.history row := by
  obtain rfl | ⟨_, _, rfl⟩ | ⟨_, _, _, rfl⟩ | ⟨_, _, rfl⟩ | ⟨row, hop, rfl⟩ | ⟨_, _, rfl⟩ |
    ⟨_, _, _, rfl⟩ := exec_change he
  iterate 4 exact Or.inl rfl
  · exact Or.inr ⟨row, hop, rfl⟩
  iterate 2 exact Or.inl rfl

/-- A row stays, and a new one comes from an insert of its query id. -/
theorem row_step {o : Op} {s s' : Shared} {ans : o.Ret} (he : exec o s ans s') (q : GoString) :
    (∀ b, backendOf s.history q = some b → backendOf s'.history q = some b) ∧
      ∀ b, backendOf s'.history q = some b → backendOf s.history q = some b ∨
        ∃ row, o = .insertHistory row ∧ row.queryID = q ∧ row.backendURL = b := by
  obtain hsame | ⟨row, rfl, hnew⟩ := exec_history he
  · rw [hsame]
    exact ⟨fun _ h => h, fun _ h => Or.inl h⟩
  · rw [hnew]
    refine ⟨fun b h => Shared.backendOf_insertRow_of_some h row, fun b h => ?_⟩
    by_cases hq : row.queryID = q
    · subst hq
      cases hold : backendOf s.history row.queryID with
      | some b' =>
        rw [Shared.backendOf_insertRow_of_some hold row] at h
        exact Or.inl h
      | none =>
        rw [Shared.backendOf_insertRow_of_none hold] at h
        exact Or.inr ⟨row, rfl, rfl, Option.some.inj h⟩
    · rw [Shared.backendOf_insertRow_of_ne hq] at h
      exact Or.inl h

theorem insert_step {row : QueryRecord} {s s' : Shared}
    (he : exec (.insertHistory row) s (.ok ()) s') :
    ∃ b, backendOf s'.history row.queryID = some b := by
  obtain rfl | ⟨-, hne⟩ := he
  · cases hold : backendOf s.history row.queryID with
    | some b => exact ⟨b, Shared.backendOf_insertRow_of_some hold row⟩
    | none => exact ⟨row.backendURL, Shared.backendOf_insertRow_of_none hold⟩
  · exact absurd rfl hne

section Run

variable {s s' : Shared} {l : List GwEvent} {q b : GoString}

theorem row_kept (h : Effect exec s l s') (hs : backendOf s.history q = some b) :
    backendOf s'.history q = some b := by
  refine h.invariant (I := fun s => backendOf s.history q = some b) hs fun e _ s₁ s₂ h₁ he => ?_
  exact (row_step he q).1 b h₁

theorem row_only (h : Effect exec s l s') (hs : ∀ b', backendOf s.history q = some b' → b' = b)
    (hins : ∀ row ans, ⟨.insertHistory row, ans⟩ ∈ l → row.queryID = q → row.backendURL = b) :
    ∀ b', backendOf s'.history q = some b' → b' = b := by
  refine h.invariant (I := fun s => ∀ b', backendOf s.history q = some b' → b' = b) hs ?_
  intro e hmem s₁ s₂ h₁ he b' hb'
  obtain hold | ⟨row, hop, hq, rfl⟩ := (row_step he q).2 b' hb'
  · exact h₁ b' hold
  · obtain ⟨o, ans⟩ := e
    subst hop
    exact hins row ans hmem hq

theorem row_of_insert (h : Effect exec s l s') {row : QueryRecord}
    (hrow : ⟨.insertHistory row, .ok ()⟩ ∈ l) : ∃ b, backendOf s'.history row.queryID = some b := by
  obtain ⟨l₁, l₂, rfl⟩ := List.append_of_mem hrow
  obtain ⟨s₁, s₂, -, he, hafter⟩ := h.of_append_cons
  obtain ⟨b, hb⟩ := insert_step he
  exact ⟨b, row_kept hafter hb⟩

/-- The rows at the end were there before or have been inserted, each query id once. -/
theorem rows_run (h : Effect exec s l s') (hs : (s.history.map (·.queryID)).Nodup) :
    (s'.history.map (·.queryID)).Nodup ∧
      ∀ row ∈ s'.history, row ∈ s.history ∨ ∃ ans, ⟨.insertHistory row, ans⟩ ∈ l := by
  refine h.invariant (I := fun s₁ => (s₁.history.map (·.queryID)).Nodup ∧
    ∀ row ∈ s₁.history, row ∈ s.history ∨ ∃ ans, ⟨.insertHistory row, ans⟩ ∈ l)
    ⟨hs, fun _ hrow => Or.inl hrow⟩ ?_
  rintro e hmem s₁ s₂ ⟨hnodup, hrows⟩ he
  obtain hsame | ⟨row, hop, hnew⟩ := exec_history he
  · rw [hsame]
    exact ⟨hnodup, hrows⟩
  · rw [hnew]
    refine ⟨Shared.nodup_insertRow hnodup row, fun row' hrow' => ?_⟩
    obtain hold | rfl := Shared.mem_insertRow hrow'
    · exact hrows row' hold
    · obtain ⟨o, ans⟩ := e
      subst hop
      exact Or.inr ⟨ans, hmem⟩

end Run

end TrinoGoway
