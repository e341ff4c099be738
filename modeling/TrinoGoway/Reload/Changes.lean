import TrinoGoway.Lib.Machine
import Mathlib.Data.Nat.Notation

/-! The watcher's loop against changes of the configuration file: which changes a reload sees.
`fsnotify` watches the inode that was at the path when it was added. Times are left out: an armed
debounce timer may fire at any moment. -/
namespace TrinoGoway.Reload.Changes

open Machine

inductive FsEvent
  | write
  | create
  | rename
  | chmod
  | remove
  deriving DecidableEq

def FsEvent.arms : FsEvent → Bool
  | write => true
  | create => true
  | rename => true
  | chmod => false
  | remove => false

inductive Phase
  | selecting
  /-- in `reload`, before `os.ReadFile` -/
  | reading
  /-- in `reload`, before `config.Load` reads the file again -/
  | loading
  /-- in `reload`, with nothing left to read -/
  | finishing
  deriving DecidableEq

structure State where
  /-- the number of changes so far; the file holds the content of the last one -/
  version : ℕ := 0
  /-- the file at the path is still the watched inode -/
  watched : Bool := true
  /-- events that the loop has not received yet -/
  events : List FsEvent := []
  /-- the debounce timer is armed -/
  armed : Bool := false
  phase : Phase := .selecting
  /-- the version that the last attempt parsed, at first that of the start -/
  parsed : ℕ := 0

inductive Action
  /-- a write in place; `coalesced` into an equal event that is still the last one pending -/
  | write (coalesced : Bool)
  /-- a rename into place -/
  | replace
  | receive
  | fire
  | readFile
  | loadConfig
  | finish
  deriving DecidableEq

def Action.isChange : Action → Bool
  | write _ => true
  | replace => true
  | _ => false

def step (s : State) : Action → Option State
  | .write coalesced =>
    if coalesced then
      if s.watched ∧ s.events.getLast? = some .write then some { s with version := s.version + 1 }
      else none
    else
      some { s with
        version := s.version + 1
        events := if s.watched then s.events ++ [.write] else s.events }
  | .replace =>
    some { s with
      version := s.version + 1
      watched := false
      events := if s.watched then s.events ++ [.chmod, .remove] else s.events }
  | .receive =>
    match s.phase, s.events with
    | .selecting, e :: es => some { s with events := es, armed := s.armed || e.arms }
    | _, _ => none
  | .fire =>
    if s.phase = .selecting ∧ s.armed then some { s with phase := .reading, armed := false }
    else none
  | .readFile => if s.phase = .reading then some { s with phase := .loading } else none
  | .loadConfig =>
    if s.phase = .loading then some { s with phase := .finishing, parsed := s.version } else none
  | .finish => if s.phase = .finishing then some { s with phase := .selecting } else none

structure Quiescent (s : State) : Prop where
  events : s.events = []
  armed : s.armed = false
  phase : s.phase = .selecting

/-- A parse of the file is still to come. -/
def Due (s : State) : Prop :=
  s.armed = true ∨ (∃ e ∈ s.events, e.arms = true) ∨ s.phase = .reading ∨ s.phase = .loading

def Announced (s : State) : Action → Prop
  | .write _ => s.watched = true
  | _ => False

section Steps

variable {s s' : State} {a : Action}

theorem not_due_of_quiescent (h : Quiescent s) : ¬ Due s := by
  rintro (ha | ⟨e, he, -⟩ | hp | hp)
  · simp [h.armed] at ha
  · simp [h.events] at he
  · simp [h.phase] at hp
  · simp [h.phase] at hp

/-- A change is one more version; a parse is due after it if it was before, or if the change is
announced. -/
theorem of_change (ha : a.isChange) (h : step s a = some s') :
    s'.version = s.version + 1 ∧ s'.parsed = s.parsed ∧ (Due s' ↔ Announced s a ∨ Due s) := by
  cases a with
  | write coalesced =>
    cases coalesced with
    | true =>
      simp only [step, if_true, Option.ite_none_right_eq_some, Option.some.injEq] at h
      obtain ⟨⟨-, hlast⟩, rfl⟩ := h
      refine ⟨rfl, rfl, ?_⟩
      have hdue : Due s := .inr (.inl ⟨.write, List.mem_of_getLast? hlast, rfl⟩)
      exact ⟨fun h => .inr h, fun _ => hdue⟩
    | false =>
      simp only [step, Bool.false_eq_true, if_false, Option.some.injEq] at h
      subst h
      refine ⟨rfl, rfl, ?_⟩
      cases hw : s.watched with
      | true => simp [Due, Announced, hw, FsEvent.arms]
      | false => simp [Due, Announced, hw]
  | replace =>
    simp only [step, Option.some.injEq] at h
    subst h
    refine ⟨rfl, rfl, ?_⟩
    cases hw : s.watched with
    | true => simp [Due, Announced, FsEvent.arms, or_and_right, exists_or]
    | false => simp [Due, Announced]
  | receive | fire | readFile | loadConfig | finish => cases ha

/-- Any other step leaves the file alone, and what it parses is the file as it is. It leaves a due
parse due or makes it; and no parse happens that is not due. -/
theorem of_not_change (ha : a.isChange = false) (h : step s a = some s') :
    s'.version = s.version ∧ (s'.parsed = s.parsed ∨ s'.parsed = s'.version) ∧
      (Due s → Due s' ∨ s'.parsed = s'.version) ∧
      (¬ Due s → ¬ Due s' ∧ s'.parsed = s.parsed) := by
  cases a with
  | write coalesced => cases ha
  | replace => cases ha
  | receive =>
    simp only [step] at h
    split at h
    · rename_i e es hp hes
      obtain rfl := Option.some.inj h
      have hdue : Due { s with events := es, armed := s.armed || e.arms } ↔ Due s := by
        simp only [Due, hes, hp, List.mem_cons, exists_eq_or_imp, Bool.or_eq_true, or_assoc]
      exact ⟨rfl, .inl rfl, fun hd => .inl (hdue.mpr hd),
        fun hd => ⟨fun hd' => hd (hdue.mp hd'), rfl⟩⟩
    · cases h
  | fire =>
    simp only [step, Option.ite_none_right_eq_some, Option.some.injEq] at h
    obtain ⟨⟨-, harmed⟩, rfl⟩ := h
    exact ⟨rfl, .inl rfl, fun _ => .inl (.inr (.inr (.inl rfl))),
      fun hd => absurd (.inl harmed) hd⟩
  | readFile =>
    simp only [step, Option.ite_none_right_eq_some, Option.some.injEq] at h
    obtain ⟨hp, rfl⟩ := h
    exact ⟨rfl, .inl rfl, fun _ => .inl (.inr (.inr (.inr rfl))),
      fun hd => absurd (.inr (.inr (.inl hp))) hd⟩
  | loadConfig =>
    simp only [step, Option.ite_none_right_eq_some, Option.some.injEq] at h
    obtain ⟨hp, rfl⟩ := h
    exact ⟨rfl, .inr rfl, fun _ => .inr rfl, fun hd => absurd (.inr (.inr (.inr hp))) hd⟩
  | finish =>
    simp only [step, Option.ite_none_right_eq_some, Option.some.injEq] at h
    obtain ⟨hp, rfl⟩ := h
    have hdue : Due { s with phase := .selecting } ↔ Due s := by simp [Due, hp]
    exact ⟨rfl, .inl rfl, fun hd => .inl (hdue.mpr hd),
      fun hd => ⟨fun hd' => hd (hdue.mp hd'), rfl⟩⟩

end Steps

section Runs

variable {s s₁ s₂ : State} {before after : List Action} {c : Action}

theorem parsed_le_version (h : run step {} before = some s) : s.parsed ≤ s.version := by
  refine run_invariant (I := fun s => s.parsed ≤ s.version) ?_ (Nat.le_refl 0) h
  intro s a s' hs hst
  cases ha : a.isChange with
  | true =>
    obtain ⟨hv, hp, -⟩ := of_change ha hst
    omega
  | false =>
    obtain ⟨hv, hp, -⟩ := of_not_change ha hst
    omega

theorem parsed_of_due (hafter : ∀ a ∈ after, a.isChange = false)
    (hs : Due s₁ ∨ s₁.parsed = s₁.version) (h : run step s₁ after = some s) :
    Due s ∨ s.parsed = s.version := by
  induction after generalizing s₁ with
  | nil =>
    obtain rfl := Option.some.inj h
    exact hs
  | cons a after ih =>
    rw [List.forall_mem_cons] at hafter
    rw [run_cons, Option.bind_eq_some_iff] at h
    obtain ⟨s₂, hst, h⟩ := h
    obtain ⟨hv, hp, hdue, -⟩ := of_not_change hafter.1 hst
    refine ih hafter.2 ?_ h
    rcases hs with hs | hs
    · exact hdue hs
    · right
      omega

theorem not_parsed_of_not_due (hafter : ∀ a ∈ after, a.isChange = false) (hs : ¬ Due s₁)
    (h : run step s₁ after = some s) : s.parsed = s₁.parsed ∧ s.version = s₁.version := by
  induction after generalizing s₁ with
  | nil =>
    obtain rfl := Option.some.inj h
    exact ⟨rfl, rfl⟩
  | cons a after ih =>
    rw [List.forall_mem_cons] at hafter
    rw [run_cons, Option.bind_eq_some_iff] at h
    obtain ⟨s₂, hst, h⟩ := h
    obtain ⟨hv, -, -, hnot⟩ := of_not_change hafter.1 hst
    obtain ⟨hnd, hp⟩ := hnot hs
    obtain ⟨hp', hv'⟩ := ih hafter.2 hnd h
    exact ⟨hp'.trans hp, hv'.trans hv⟩

/-- Once everything is quiet after the last change `c`, the last attempt has parsed the content
of that change exactly if the watched inode announced the change, or a parse was still due when
the change was made. -/
theorem change_parsed_iff (hbefore : run step {} before = some s₁) (hc : c.isChange)
    (hstep : step s₁ c = some s₂) (hafter : ∀ a ∈ after, a.isChange = false)
    (hrun : run step s₂ after = some s) (hq : Quiescent s) :
    s.parsed = s.version ↔ Announced s₁ c ∨ Due s₁ := by
  obtain ⟨hv, hp, hdue⟩ := of_change hc hstep
  rw [← hdue]
  constructor
  · intro hparsed
    by_contra hnd
    have hle := parsed_le_version hbefore
    obtain ⟨hp', hv'⟩ := not_parsed_of_not_due hafter hnd hrun
    omega
  · intro hd
    exact (parsed_of_due hafter (.inl hd) hrun).resolve_left (not_due_of_quiescent hq)

/-- A write in place, and the reload that it leads to. -/
theorem change_parsed_iff_write :
    run step { version := 1, events := [.write] }
        [.receive, .fire, .readFile, .loadConfig, .finish] = some { version := 1, parsed := 1 } ∧
      (({ version := 1, parsed := 1 } : State).parsed =
          ({ version := 1, parsed := 1 } : State).version ↔
        Announced {} (.write false) ∨ Due {}) := by
  have hbefore : run step {} [] = some {} := rfl
  have hstep : step {} (.write false) = some { version := 1, events := [.write] } := rfl
  have hafter : ∀ a ∈ [Action.receive, .fire, .readFile, .loadConfig, .finish],
      a.isChange = false := by decide
  have hrun : run step { version := 1, events := [.write] }
      [.receive, .fire, .readFile, .loadConfig, .finish] =
        some { version := 1, parsed := 1 } := rfl
  exact ⟨hrun, change_parsed_iff hbefore rfl hstep hafter hrun ⟨rfl, rfl, rfl⟩⟩

/-- The file is replaced while nothing is due: the two events of the old inode arm no timer, and
the new content is never read. -/
theorem replacement_missed :
    ∃ s, run step {} [.replace, .receive, .receive] = some s ∧ Quiescent s ∧
      s.parsed ≠ s.version :=
  ⟨_, rfl, ⟨rfl, rfl, rfl⟩, by decide⟩

end Runs

end TrinoGoway.Reload.Changes
