import TrinoGoway.Engine.KillSwitch
import TrinoGoway.Lib.CasCell

/-! Concurrent kill-switch calls and reloads: `updateMethod` is the retry loop of a
compare-and-swap cell, `Swap` a store to it. -/
namespace TrinoGoway.Engine

open Go

variable {M ι : Type} [RoutingMethod M] [DecidableEq ι]

def Update.call : Update M → CasCell.Call (List (Entry M))
  | .disable t => .update (updateMethod t Entry.disable)
  | .enable t => .update (updateMethod t Entry.enable)
  | .swap ms => .store (ms.map .live)

theorem Update.apply_call (u : Update M) (es : List (Entry M)) : u.call.apply es = u.apply es := by
  cases u <;> rfl

def updateStep (calls : ι → Update M) :=
  CasCell.step fun i => (calls i).call

/-- Concurrent calls have the effect of the same calls one after another, in the order in which
they wrote or, having nothing to write, last loaded. Wrappers are never nested, and below
them is the list swapped last. -/
theorem updates_atomic {ms : List M} {calls : ι → Update M} {as : List (CasCell.Action ι)}
    {s : CasCell.State (List (Entry M)) ι}
    (h : Machine.run (updateStep calls) (CasCell.init (ms.map .live)) as = some s) :
    (s.value = entriesAfter ms (s.order.map calls) ∧ s.order.Nodup ∧
        ∀ i, i ∈ s.order ↔ s.pc i = .returned) ∧
      (∀ e ∈ s.value, e.Flat) ∧
      s.value.map Entry.method = lastSwapped ms (s.order.map calls) := by
  have hl := CasCell.linearized_of_run h
  have hvalue : s.value = entriesAfter ms (s.order.map calls) := by
    rw [hl.value, entriesAfter, List.foldl_map]
    simp only [Update.apply_call]
  have hw := wraps_entriesAfter ms (s.order.map calls)
  rw [← hvalue] at hw
  exact ⟨⟨hvalue, hl.nodup, hl.mem_order⟩, hw.flat, hw.methods⟩

def racing : Bool → Update Numbered
  | false => .disable (str "expr")
  | true => .swap [⟨1, str "expr"⟩]

/-- The reload comes between the load and the compare-and-swap, which is tried again. -/
theorem updates_atomic_race :
    ∃ s, Machine.run (updateStep racing) (CasCell.init ([⟨0, str "expr"⟩].map .live))
        [.load false, .store true, .cas false, .load false, .cas false] = some s ∧
      (s.value = entriesAfter [⟨0, str "expr"⟩] (s.order.map racing) ∧ s.order.Nodup ∧
        ∀ i, i ∈ s.order ↔ s.pc i = .returned) ∧
      (∀ e ∈ s.value, e.Flat) ∧
      s.value.map Entry.method = lastSwapped [⟨0, str "expr"⟩] (s.order.map racing) := by
  obtain ⟨s, hs⟩ := Option.isSome_iff_exists.mp (show (Machine.run (updateStep racing)
    (CasCell.init ([⟨0, str "expr"⟩].map .live))
    [.load false, .store true, .cas false, .load false, .cas false]).isSome from rfl)
  exact ⟨s, hs, updates_atomic hs⟩

end TrinoGoway.Engine
