import TrinoGoway.Admin.Backends
import TrinoGoway.Lib.Keyed

/-! The writes to the table of backends, and the table as a map from names to backends. -/
namespace TrinoGoway.Persistence

open Go

inductive BackendWrite
  /-- `BackendDAO.Upsert` -/
  | upsert (b : Backend)
  /-- `BackendDAO.SetActive`, which also notes the time -/
  | setActive (name : GoString) (active : Bool) (now : Time)
  /-- `BackendDAO.Delete` -/
  | delete (name : GoString)
  deriving DecidableEq

namespace BackendTable

def activate (name : GoString) (active : Bool) (now : Time) (row : Backend) : Backend :=
  if row.name = name then { row with active, updatedAt := now } else row

theorem activate_name (name : GoString) (active : Bool) (now : Time) (row : Backend) :
    (activate name active now row).name = row.name := by
  unfold activate
  split <;> rfl

def setActive (t : BackendTable) (name : GoString) (active : Bool) (now : Time) : BackendTable where
  rows := t.rows.map (activate name active now)
  nodup := by
    have hnames : (t.rows.map (activate name active now)).map Backend.name =
        t.rows.map Backend.name := by
      rw [List.map_map]
      exact List.map_congr_left fun row _ => activate_name name active now row
    rw [hnames]
    exact t.nodup

def delete (t : BackendTable) (name : GoString) : BackendTable where
  rows := t.rows.filter (·.name ≠ name)
  nodup := t.nodup.sublist (List.filter_sublist.map _)

def apply (t : BackendTable) : BackendWrite → BackendTable
  | .upsert b => t.upsert b
  | .setActive name active now => t.setActive name active now
  | .delete name => t.delete name

def find? (t : BackendTable) (name : GoString) : Option Backend :=
  t.rows.find? (·.name = name)

/-! ### The table as a map -/

variable {t : BackendTable} {b : Backend} {name : GoString}

theorem eq_of_mem_of_name_eq {b' : Backend} (h : b ∈ t.rows) (h' : b' ∈ t.rows)
    (hname : b.name = b'.name) : b = b' :=
  List.inj_on_of_nodup_map t.nodup h h' hname

theorem find?_eq_some : t.find? name = some b ↔ b ∈ t.rows ∧ b.name = name := by
  constructor
  · intro h
    exact ⟨List.mem_of_find?_eq_some h, by simpa using List.find?_some h⟩
  · rintro ⟨hmem, rfl⟩
    cases hfind : t.find? b.name with
    | none =>
      have hnone := List.find?_eq_none.mp hfind b hmem
      simp at hnone
    | some b' =>
      have hname : b'.name = b.name := by simpa using List.find?_some hfind
      rw [eq_of_mem_of_name_eq (List.mem_of_find?_eq_some hfind) hmem hname]

theorem find?_eq_none : t.find? name = none ↔ name ∉ t.rows.map Backend.name := by
  rw [find?, List.find?_eq_none, List.mem_map]
  simp

theorem find?_ext {t' : BackendTable} (h : ∀ b, b.name = name → (b ∈ t'.rows ↔ b ∈ t.rows)) :
    t'.find? name = t.find? name := by
  ext b
  rw [find?_eq_some, find?_eq_some]
  exact and_congr_left (h b)

end BackendTable

namespace BackendWrite

def name : BackendWrite → GoString
  | upsert b => b.name
  | setActive name _ _ => name
  | delete name => name

/-- What a write makes of the backend of its name. -/
def on : BackendWrite → Option Backend → Option Backend
  | upsert b, none => some b
  | upsert b, some old => some { b with createdAt := old.createdAt }
  | setActive _ active now, old => old.map fun row => { row with active, updatedAt := now }
  | delete _, _ => none

def replay (ws : List BackendWrite) (b : Option Backend) : Option Backend :=
  ws.foldl (fun b w => w.on b) b

end BackendWrite

namespace BackendTable

variable {t : BackendTable} {name : GoString}

theorem find?_upsert (b : Backend) :
    (t.upsert b).find? name = if name = b.name then (BackendWrite.upsert b).on (t.find? name)
      else t.find? name := by
  unfold upsert
  split
  · rename_i hthere
    obtain ⟨old, hold, hname⟩ := List.mem_map.mp hthere
    split
    · rename_i heq
      subst heq
      rw [find?_eq_some.mpr ⟨hold, hname⟩]
      refine find?_eq_some.mpr ⟨List.mem_map.mpr ⟨old, hold, ?_⟩, rfl⟩
      rw [overwrite, if_pos hname]
    · rename_i hne
      apply find?_ext
      intro b' hb'
      have hkeep : ∀ row : Backend, row.name = b'.name → overwrite b row = row := by
        intro row hrow
        rw [overwrite, if_neg]
        rw [hrow, hb']
        exact hne
      rw [List.mem_map]
      constructor
      · rintro ⟨row, hrow, rfl⟩
        rw [overwrite_name] at hkeep
        rw [hkeep row rfl]
        exact hrow
      · intro h
        exact ⟨b', h, hkeep b' rfl⟩
  · rename_i habsent
    split
    · rename_i heq
      subst heq
      rw [find?_eq_none.mpr habsent]
      exact find?_eq_some.mpr ⟨List.mem_append_right _ (List.mem_singleton.mpr rfl), rfl⟩
    · rename_i hne
      apply find?_ext
      intro b' hb'
      rw [List.mem_append, List.mem_singleton, or_iff_left]
      rintro rfl
      exact hne hb'.symm

theorem find?_setActive (name' : GoString) (active : Bool) (now : Time) :
    (t.setActive name' active now).find? name =
      if name = name' then (BackendWrite.setActive name' active now).on (t.find? name)
      else t.find? name := by
  have hfind : (t.setActive name' active now).find? name =
      (t.find? name).map (activate name' active now) := by
    unfold find? setActive
    rw [List.find?_map]
    congr 2
    funext row
    simp [activate_name]
  rw [hfind]
  cases h : t.find? name with
  | none => simp [BackendWrite.on]
  | some row =>
    have hname : row.name = name := (find?_eq_some.mp h).2
    subst hname
    rw [Option.map_some, activate]
    split <;> rfl

theorem find?_delete (name' : GoString) :
    (t.delete name').find? name =
      if name = name' then (BackendWrite.delete name').on (t.find? name) else t.find? name := by
  split
  · rename_i heq
    subst heq
    rw [BackendWrite.on, find?_eq_none, delete]
    simp
  · rename_i hne
    apply find?_ext
    intro b hb
    rw [delete, List.mem_filter, and_iff_left]
    simpa [hb] using hne

/-- In the view, every write is a write at its name. -/
theorem find?_apply (t : BackendTable) (w : BackendWrite) :
    (t.apply w).find? = Keyed.write BackendWrite.name BackendWrite.on t.find? w := by
  funext name
  have happly : (t.apply w).find? name = if name = w.name then w.on (t.find? name)
      else t.find? name := by
    cases w with
    | upsert b => exact find?_upsert b
    | setActive name' active now => exact find?_setActive name' active now
    | delete name' => exact find?_delete name'
  rw [happly]
  split
  · rename_i heq
    subst heq
    exact Keyed.write_self w |>.symm
  · rename_i hne
    exact (Keyed.write_of_ne hne).symm

/-- The backend of a name after any writes, from the writes about this name alone. -/
theorem find?_foldl_apply (t : BackendTable) (ws : List BackendWrite) (name : GoString) :
    (ws.foldl apply t).find? name =
      BackendWrite.replay (ws.filter (·.name = name)) (t.find? name) :=
  Keyed.view_foldl_apply find?_apply t ws name

end BackendTable

end TrinoGoway.Persistence
