import TrinoGoway.Engine.KillSwitch
import TrinoGoway.Reload.Watcher

/-! Keep last good: whatever the file holds and whichever providers fail, the live methods are
those of the last attempt that read, parsed and built everything. -/
namespace TrinoGoway.Reload

open Go Engine Service Prog Interleave

variable {M : Type} {env : Env}

inductive Built : List MethodConfig → List (Event (Ret (M := M))) → List M → Prop
  | nil : Built [] [] []
  | cons {mc : MethodConfig} {mcs : List MethodConfig} {h : List (Event (Ret (M := M)))} {m : M}
      {ms : List M} (htype : mc.type ∈ registered) (hrest : Built mcs h ms) :
      Built (mc :: mcs) (⟨.loadConfig mc.type (methodConfigBytes mc), .ok m⟩ :: h) (m :: ms)

/-- The events of reading the file, of parsing and validating `content` and of building the
methods `ms` that it configures, all with success. -/
inductive Validated (env : Env) : List (Event (Ret (M := M))) → GoString → List M → Prop
  | intro {data content : GoString} {cfg : Config} {h : List (Event (Ret (M := M)))} {ms : List M}
      (hload : load env.unmarshal env.path (.ok content) = .ok cfg)
      (hbuilt : Built cfg.methods h ms) :
      Validated env (⟨.readFile, .ok data⟩ :: ⟨.readFile, .ok content⟩ :: h) data ms

def Succeeds (env : Env) (a : List (Event (Ret (M := M)))) (data : GoString) (ms : List M) : Prop :=
  ∃ hash h rest, a = ⟨.loadHash, hash⟩ :: h ++ rest ∧ Validated env h data ms

/-- What a sequence of attempts leaves: methods and hash of the last one that succeeds. -/
inductive LastGood (env : Env) (live : List M) (hash : Option GoString) :
    List (List (Event (Ret (M := M)))) → List M → Option GoString → Prop
  | start : LastGood env live hash [] live hash
  | success {hs : List (List (Event (Ret (M := M))))} {ms ms' : List M} {hash' : Option GoString}
      {a : List (Event (Ret (M := M)))} {data : GoString}
      (hlast : LastGood env live hash hs ms hash') (ha : Succeeds env a data ms') :
      LastGood env live hash (hs ++ [a]) ms' (some (env.hashBytes data))
  | failure {hs : List (List (Event (Ret (M := M))))} {ms : List M} {hash' : Option GoString}
      {a : List (Event (Ret (M := M)))} (hlast : LastGood env live hash hs ms hash')
      (ha : ∀ data ms', ¬ Succeeds env a data ms') : LastGood env live hash (hs ++ [a]) ms hash'

/-! ### One attempt -/

theorem runs_perform {o : Op M} {h : List (Event (Ret (M := M)))} {r : Ret o}
    (hr : Runs (Prog.perform o : Code M (Ret o)) h r) : h = [⟨o, r⟩] := by
  cases hr with
  | cons r' ht =>
    obtain ⟨rfl, rfl⟩ := ht.runs_ret
    rfl

theorem runs_build {mc : MethodConfig} {h : List (Event (Ret (M := M)))} {r : Except GoError M}
    (hr : Runs (build Code.loadConfig mc) h r) :
    (∃ m, r = .ok m ∧ mc.type ∈ registered ∧
        h = [⟨.loadConfig mc.type (methodConfigBytes mc), .ok m⟩]) ∨
      (∃ e, r = .error e) ∧ ((mc.type ∉ registered ∧ h = []) ∨
        ∃ e, h = [⟨.loadConfig mc.type (methodConfigBytes mc), .error e⟩]) := by
  unfold build at hr
  split at hr
  · rename_i htype
    obtain ⟨h₁, h₂, a, rfl, h₁r, h₂r⟩ := hr.runs_bind
    obtain rfl := runs_perform h₁r
    cases a with
    | ok m =>
      obtain ⟨rfl, rfl⟩ := h₂r.runs_ret
      exact .inl ⟨m, rfl, htype, rfl⟩
    | error e =>
      obtain ⟨rfl, rfl⟩ := h₂r.runs_ret
      exact .inr ⟨⟨_, rfl⟩, .inr ⟨e, rfl⟩⟩
  · rename_i htype
    obtain ⟨rfl, rfl⟩ := hr.runs_ret
    exact .inr ⟨⟨_, rfl⟩, .inl ⟨htype, rfl⟩⟩

/-- The build loop: all methods are built, or what it did is no beginning of building all, even
if an error count follows. -/
theorem runs_buildAll {mcs : List MethodConfig} {h : List (Event (Ret (M := M)))}
    {r : Except GoString (List M)} (hr : Runs (buildAll mcs) h r) :
    (∃ ms, r = .ok ms ∧ Built mcs h ms) ∨
      (∃ msg, r = .error msg) ∧ ∀ h' ms rest, Built mcs h' ms →
        ¬ h' <+: h ++ ⟨.addError, ()⟩ :: rest := by
  induction mcs generalizing h r with
  | nil =>
    obtain ⟨rfl, rfl⟩ := hr.runs_ret
    exact .inl ⟨[], rfl, .nil⟩
  | cons mc mcs ih =>
    obtain ⟨h₁, h₂, a, rfl, h₁r, h₂r⟩ := Path.runs_bind hr
    rcases runs_build h₁r with ⟨m, rfl, htype, rfl⟩ | ⟨⟨e, rfl⟩, hh⟩
    · obtain ⟨h₃, h₄, b, rfl, h₃r, h₄r⟩ := Path.runs_bind h₂r
      rcases ih h₃r with ⟨ms, rfl, hbuilt⟩ | ⟨⟨msg, rfl⟩, hnot⟩
      · obtain ⟨rfl, rfl⟩ := h₄r.runs_ret
        rw [List.append_nil]
        exact .inl ⟨m :: ms, rfl, .cons htype hbuilt⟩
      · obtain ⟨rfl, rfl⟩ := h₄r.runs_ret
        refine .inr ⟨⟨msg, rfl⟩, ?_⟩
        intro h' ms rest hb hpre
        cases hb with
        | cons _ hb =>
          simp only [List.append_nil, List.cons_append, List.nil_append,
            List.cons_prefix_cons] at hpre
          exact hnot _ _ rest hb hpre.2
    · obtain ⟨rfl, rfl⟩ := h₂r.runs_ret
      refine .inr ⟨⟨_, rfl⟩, ?_⟩
      intro h' ms rest hb hpre
      cases hb with
      | cons htype hb =>
        rcases hh with ⟨hn, rfl⟩ | ⟨e', rfl⟩
        · exact hn htype
        · simp only [List.append_nil, List.cons_append, List.nil_append,
            List.cons_prefix_cons] at hpre
          simp at hpre

theorem runs_prepare {h : List (Event (Ret (M := M)))}
    {r : Except (GoString × GoString) (GoString × List M)} (hr : Runs (prepare env) h r) :
    (∃ data ms, r = .ok (env.hashBytes data, ms) ∧ Validated env h data ms) ∨
      (∃ x, r = .error x) ∧ ∀ h' data ms rest, Validated env h' data ms →
        ¬ h' <+: h ++ ⟨.addError, ()⟩ :: rest := by
  obtain ⟨h₁, h₂, read, rfl, h₁r, h₂r⟩ := Path.runs_bind hr
  obtain rfl := runs_perform h₁r
  cases read with
  | error e =>
    obtain ⟨rfl, rfl⟩ := h₂r.runs_ret
    refine .inr ⟨⟨_, rfl⟩, ?_⟩
    rintro h' data ms rest ⟨hload, hbuilt⟩ hpre
    simp at hpre
  | ok data =>
    obtain ⟨h₃, h₄, content, rfl, h₃r, h₄r⟩ := Path.runs_bind h₂r
    obtain rfl := runs_perform h₃r
    cases hload : load env.unmarshal env.path content with
    | error e =>
      simp only [hload] at h₄r
      obtain ⟨rfl, rfl⟩ := h₄r.runs_ret
      refine .inr ⟨⟨_, rfl⟩, ?_⟩
      rintro h' data' ms rest ⟨hload', hbuilt⟩ hpre
      simp only [List.append_nil, List.cons_append, List.nil_append, List.cons_prefix_cons,
        Event.mk.injEq, heq_eq_eq, true_and] at hpre
      rw [← hpre.2.1, hload'] at hload
      cases hload
    | ok cfg =>
      simp only [hload] at h₄r
      obtain ⟨h₅, h₆, b, rfl, h₅r, h₆r⟩ := Path.runs_bind h₄r
      obtain ⟨c, rfl⟩ : ∃ c, content = .ok c := by
        cases content with
        | error e => cases hload
        | ok c => exact ⟨c, rfl⟩
      rcases runs_buildAll h₅r with ⟨ms, rfl, hbuilt⟩ | ⟨⟨msg, rfl⟩, hnot⟩
      · obtain ⟨rfl, rfl⟩ := h₆r.runs_ret
        rw [List.append_nil]
        exact .inl ⟨data, ms, rfl, .intro hload hbuilt⟩
      · obtain ⟨rfl, rfl⟩ := h₆r.runs_ret
        refine .inr ⟨⟨_, rfl⟩, ?_⟩
        rintro h' data' ms rest ⟨hload', hbuilt⟩ hpre
        simp only [List.append_nil, List.cons_append, List.nil_append, List.cons_prefix_cons,
          Event.mk.injEq, heq_eq_eq, true_and, Except.ok.injEq] at hpre
        obtain ⟨-, rfl, hpre⟩ := hpre
        rw [hload] at hload'
        obtain rfl := Except.ok.inj hload'
        exact hnot _ _ rest hbuilt hpre

def Op.isInput : Op M → Bool
  | .readFile => true
  | .loadConfig _ _ => true
  | _ => false

theorem performs_build (mc : MethodConfig) :
    (build Code.loadConfig mc : Code M _).Performs fun o => o.isInput := by
  unfold build
  split
  · refine Performs.bind ((performs_perform _).mpr rfl) ?_
    intro r
    cases r <;> trivial
  · trivial

theorem performs_buildAll (mcs : List MethodConfig) :
    (buildAll mcs : Code M _).Performs fun o => o.isInput := by
  induction mcs with
  | nil => trivial
  | cons mc mcs ih =>
    refine (performs_build mc).bind ?_
    intro r
    cases r with
    | error e => trivial
    | ok m =>
      refine ih.bind ?_
      intro r
      cases r <;> trivial

theorem performs_prepare : (prepare env : Code M _).Performs fun o => o.isInput := by
  refine Performs.bind ((performs_perform _).mpr rfl) ?_
  intro read
  cases read with
  | error e => trivial
  | ok data =>
    refine Performs.bind ((performs_perform _).mpr rfl) ?_
    intro content
    cases load env.unmarshal env.path content with
    | error e => trivial
    | ok cfg =>
      refine (performs_buildAll cfg.methods).bind ?_
      intro r
      cases r <;> trivial

/-- A reload attempt succeeds and activates what it has validated, or it fails and only counts. -/
theorem runs_reload {a : List (Event (Ret (M := M)))} (hr : Runs (reload env) a ()) :
    (∃ hash h data ms x, Validated env h data ms ∧ x.newHash = env.hashBytes data ∧
        (∀ e ∈ h, e.op.isInput) ∧
        a = ⟨.loadHash, hash⟩ :: (h ++ [⟨.swap ms, ()⟩, ⟨.storeHash (env.hashBytes data), ()⟩,
          ⟨.addSuccess, ()⟩, ⟨.audit x, ()⟩, ⟨.setConfigVersion (env.hashBytes data), ()⟩,
          ⟨.addCount, ()⟩])) ∨
      (∀ data ms, ¬ Succeeds env a data ms) ∧ ∃ hash h x, (∀ e ∈ h, e.op.isInput) ∧
        a = ⟨.loadHash, hash⟩ :: (h ++ [⟨.addError, ()⟩, ⟨.audit x, ()⟩, ⟨.addCount, ()⟩]) := by
  obtain ⟨h₁, h₂, hash, rfl, h₁r, h₂r⟩ := Path.runs_bind hr
  obtain rfl := runs_perform h₁r
  obtain ⟨h₃, h₄, prepared, rfl, h₃r, h₄r⟩ := Path.runs_bind h₂r
  have hin := (performs_prepare.path h₃r).1
  rcases runs_prepare h₃r with ⟨data, ms, rfl, hval⟩ | ⟨⟨x, rfl⟩, hnot⟩
  · left
    cases h₄r with
    | cons _ ht => cases ht with
      | cons _ ht => cases ht with
        | cons _ ht => cases ht with
          | cons _ ht => cases ht with
            | cons _ ht =>
              obtain rfl := runs_perform ht
              exact ⟨hash, h₃, data, ms, _, hval, rfl, hin, rfl⟩
  · right
    cases h₄r with
    | cons _ ht => cases ht with
      | cons _ ht =>
        obtain rfl := runs_perform ht
        refine ⟨?_, hash, h₃, _, hin, rfl⟩
        rintro data ms ⟨hash', h', rest, heq, hval⟩
        obtain ⟨-, heq⟩ := List.cons.inj heq
        exact hnot h' data ms _ hval ⟨rest, heq.symm⟩

/-! ### The shared state -/

theorem foldl_apply_of_input {s : State M} {h : List (Event (Ret (M := M)))}
    (hin : ∀ e ∈ h, e.op.isInput) : h.foldl State.apply s = s := by
  induction h with
  | nil => rfl
  | cons e h ih =>
    rw [List.forall_mem_cons] at hin
    have he : s.apply e = s := by
      obtain ⟨o, r⟩ := e
      cases o with
      | readFile => rfl
      | loadConfig type raw => rfl
      | _ => exact absurd hin.1 (by simp [Op.isInput])
    rw [List.foldl_cons, he, ih hin.2]

structure Left (env : Env) (live : List M) (hs : List (List (Event (Ret (M := M)))))
    (s : State M) : Prop where
  lastGood : LastGood env live none hs s.live s.lastHash
  count : s.reloadCount = hs.length
  count_eq : s.reloadCount = s.successTotal + s.errorTotal

section Attempts

variable {live : List M} {hs : List (List (Event (Ret (M := M))))} {s s' : State M}
  {a : List (Event (Ret (M := M)))}

theorem Left.next (h : Left env live hs s)
    (hlast : LastGood env live none (hs ++ [a]) s'.live s'.lastHash)
    (hcount : s'.reloadCount = s.reloadCount + 1)
    (htotal : s'.successTotal + s'.errorTotal = s.successTotal + s.errorTotal + 1) :
    Left env live (hs ++ [a]) s' where
  lastGood := hlast
  count := by rw [hcount, h.count, List.length_append, List.length_singleton]
  count_eq := by rw [hcount, htotal, h.count_eq]

theorem Left.snoc (h : Left env live hs s) (ha : Runs (reload env) a ()) :
    Left env live (hs ++ [a]) (a.foldl State.apply s) := by
  rcases runs_reload ha with ⟨hash, h', data, ms, x, hval, -, hin, rfl⟩ |
    ⟨hnot, hash, h', x, hin, rfl⟩
  · rw [List.foldl_cons, List.foldl_append, foldl_apply_of_input hin]
    exact h.next (.success h.lastGood ⟨hash, h', _, rfl, hval⟩) rfl (Nat.add_right_comm ..)
  · rw [List.foldl_cons, List.foldl_append, foldl_apply_of_input hin]
    exact h.next (.failure h.lastGood hnot) rfl rfl

theorem left_of_attempts (live : List M) (version : GoString)
    (hruns : ∀ a ∈ hs, Runs (reload env) a ()) :
    Left env live hs (hs.flatten.foldl State.apply { live, configVersion := version }) := by
  induction hs using List.reverseRecOn with
  | nil => exact ⟨.start, rfl, rfl⟩
  | append_singleton hs a ih =>
    have hlast := ih fun b hb => hruns b (List.mem_append_left _ hb)
    rw [List.flatten_append, List.foldl_append, List.flatten_singleton]
    exact hlast.snoc (hruns a (by simp))

end Attempts

/-! ### All interleavings -/

def Op.evaluates (ms : List M) : Op M → Prop
  | .evaluate c => c.method ∈ ms
  | _ => False

/-- What an evaluation does: it loads one list, and calls methods of that list. -/
def Uses (ms : List M) (e : Event (Ret (M := M))) : Prop :=
  e = ⟨.loadMethods, ms⟩ ∨ e.op.evaluates ms

theorem apply_of_uses {ms : List M} {e : Event (Ret (M := M))} (h : Uses ms e) (s : State M) :
    s.apply e = s := by
  rcases h with rfl | h
  · rfl
  · obtain ⟨o, r⟩ := e
    cases o with
    | evaluate c => rfl
    | _ => exact h.elim

theorem eq_foldl_of_effect {s₀ s : State M} {l : List (Event (Ret (M := M)))}
    (h : Effect exec s₀ l s) : s = l.foldl State.apply s₀ := by
  induction h with
  | nil => rfl
  | snoc h he ih => rw [List.foldl_append, ← ih, List.foldl_cons, List.foldl_nil, he.2]

theorem foldl_map_snd {κ : Type} [DecidableEq κ] {s₀ : State M}
    {t : List (Option κ × Event (Ret (M := M)))}
    (h : ∀ k e, (some k, e) ∈ t → ∀ s : State M, s.apply e = s) :
    (t.map Prod.snd).foldl State.apply s₀ = (localTrace none t).foldl State.apply s₀ := by
  induction t generalizing s₀ with
  | nil => rfl
  | cons x t ih =>
    obtain ⟨i, e⟩ := x
    have hrest : ∀ k e, (some k, e) ∈ t → ∀ s : State M, s.apply e = s :=
      fun k e he => h k e (List.mem_cons_of_mem _ he)
    cases i with
    | none => simp [ih hrest]
    | some k =>
      rw [localTrace_cons_ne _ _ (by simp), ← ih hrest, List.map_cons, List.foldl_cons,
        h k e (List.mem_cons_self ..)]

theorem live_foldl (h : List (Event (Ret (M := M)))) (s : State M) :
    (h.foldl State.apply s).live = s.live ∨
      ∃ h₁ h₂, h = h₁ ++ ⟨.swap (h.foldl State.apply s).live, ()⟩ :: h₂ := by
  induction h using List.reverseRecOn with
  | nil => exact .inl rfl
  | append_singleton h e ih =>
    rw [List.foldl_append, List.foldl_cons, List.foldl_nil]
    by_cases he : ∃ ms, e = ⟨.swap ms, ()⟩
    · obtain ⟨ms, rfl⟩ := he
      exact .inr ⟨h, [], rfl⟩
    · have hlive : ((h.foldl State.apply s).apply e).live = (h.foldl State.apply s).live := by
        obtain ⟨o, r⟩ := e
        cases o with
        | swap ms => exact absurd ⟨ms, rfl⟩ he
        | _ => rfl
      rw [hlive]
      rcases ih with ih | ⟨h₁, h₂, ih⟩
      · exact .inl ih
      · refine .inr ⟨h₁, h₂ ++ [e], ?_⟩
        rw [← List.cons_append, ← List.append_assoc, ← ih]

theorem validated_of_reload_swap {h₁ h₂ : List (Event (Ret (M := M)))} {l : List M}
    {c : Code M Unit} (hp : Path (reload env) (h₁ ++ ⟨.swap l, ()⟩ :: h₂) c) :
    ∃ hash h data, h₁ = ⟨.loadHash, hash⟩ :: h ∧ Validated env h data l := by
  have hload : (Code.loadHash : Code M _).Performs fun o => o ≠ .swap l :=
    (performs_perform _).mpr (by simp)
  have hprep : (prepare env : Code M _).Performs fun o => o ≠ .swap l := by
    refine performs_prepare.mono ?_
    rintro o ho rfl
    cases ho
  obtain ⟨g₁, g₂, hash, rfl, hr₁, hp₁⟩ := hload.of_bind_cons (by simp) hp
  obtain rfl := runs_perform hr₁
  obtain ⟨g₃, g₄, prepared, rfl, hr₂, hp₂⟩ := hprep.of_bind_cons (by simp) hp₁
  rcases runs_prepare hr₂ with ⟨data, ms, rfl, hval⟩ | ⟨⟨x, rfl⟩, -⟩
  · -- the first operation of the activation is the only swap
    have hrest : ∀ r, Path (call (.swap ms) r : Code M Unit) (g₄ ++ ⟨.swap l, ()⟩ :: h₂) c →
        (∀ u, (r u).Performs fun o => o ≠ .swap l) → g₄ = [] ∧ l = ms := by
      intro r hpath hr
      cases g₄ with
      | nil =>
        rcases hpath.of_call with ⟨heq, -⟩ | ⟨u, h', heq, -⟩
        · cases heq
        · simp only [List.nil_append, List.cons.injEq, Event.mk.injEq, Op.swap.injEq] at heq
          exact ⟨rfl, heq.1.1⟩
      | cons e g₄ =>
        rcases hpath.of_call with ⟨heq, -⟩ | ⟨u, h', heq, hpath'⟩
        · cases heq
        · obtain ⟨-, rfl⟩ := List.cons.inj heq
          exact absurd rfl (((hr u).path hpath').1 ⟨.swap l, ()⟩ (by simp))
    obtain ⟨rfl, rfl⟩ := hrest _ hp₂ (by
      intro u
      refine ⟨by simp, fun _ => ⟨by simp, fun _ => ⟨by simp, fun _ => ⟨by simp, fun _ => ?_⟩⟩⟩⟩
      exact (performs_perform _).mpr (by simp))
    exact ⟨hash, g₃, data, by simp, hval⟩
  · have hfail : (settle (hash.getD []) (.error x) >>= fun _ => Prog.perform Op.addCount :
        Code M Unit).Performs fun o => o ≠ .swap l :=
      ⟨by simp, fun _ => ⟨by simp, fun _ => ⟨by simp, fun _ => trivial⟩⟩⟩
    exact absurd rfl ((hfail.path hp₂).1 ⟨.swap l, ()⟩ (by simp))

theorem validated_of_attempts_swap {n : ℕ} {h₁ h₂ : List (Event (Ret (M := M)))} {l : List M}
    {c : Code M Unit} (hp : Path (attempts env n) (h₁ ++ ⟨.swap l, ()⟩ :: h₂) c) :
    ∃ u h data, h₁ = u ++ h ∧ Validated env h data l := by
  induction n generalizing h₁ with
  | zero =>
    have heq := hp.of_ret.1
    simp at heq
  | succ n ih =>
    have hreload : ∀ {g₁ g₂} {c' : Code M Unit},
        Path (reload env) (g₁ ++ ⟨.swap l, ()⟩ :: g₂) c' →
        ∃ u h data, g₁ = u ++ h ∧ Validated env h data l := by
      intro g₁ g₂ c' hg
      obtain ⟨hash, h, data, rfl, hval⟩ := validated_of_reload_swap hg
      exact ⟨[⟨.loadHash, hash⟩], h, data, rfl, hval⟩
    rcases Path.of_bind hp with ⟨c', hc', -⟩ | ⟨g₁, g₂, a, heq, hr, hrest⟩
    · exact hreload hc'
    · rcases List.append_eq_append_iff.mp heq with ⟨d, rfl, hd⟩ | ⟨d, rfl, rfl⟩
      · cases d with
        | nil =>
          rw [← List.nil_append g₂, ← hd] at hrest
          obtain ⟨u, h, data, hnil, hval⟩ := @ih [] hrest
          obtain ⟨rfl, rfl⟩ := List.append_eq_nil_iff.mp hnil.symm
          cases hval
        | cons e d =>
          obtain ⟨rfl, -⟩ := List.cons.inj hd
          exact hreload hr
      · obtain ⟨u, h, data, rfl, hval⟩ := ih hrest
        exact ⟨g₁ ++ u, h, data, by simp, hval⟩

section Interleaving

variable [RoutingMethod M] {κ : Type} [DecidableEq κ] {n : ℕ} {evals : κ → Evaluation}
  {s₀ s : State M} {t : List (Option κ × Event (Ret (M := M)))} {P : Option κ → Code M Unit}

theorem performs_evaluation (x : Evaluation) :
    ∃ k : List M → Code M Unit, x.code = call .loadMethods k ∧
      ∀ ms, (k ms).Performs fun o => o.evaluates ms := by
  refine ⟨_, rfl, ?_⟩
  intro ms
  have hms : ∀ m ∈ enabled (ms.map Entry.live), m ∈ ms := by
    intro m hm
    obtain ⟨e, he, hem⟩ := List.mem_filterMap.mp hm
    obtain ⟨m', hm', rfl⟩ := List.mem_map.mp he
    exact Option.some.inj hem ▸ hm'
  have hinterp : ∀ {α : Type} {y : Exec M α}, y.run.Performs (fun c => c.method ∈ ms) →
      (y.run.interp Code.evaluate).Performs fun o => o.evaluates ms := by
    intro α y hy
    exact hy.interp fun c hc => (performs_perform _).mpr hc
  cases x.entry with
  | evaluate =>
    exact (hinterp (Pipeline.performs_evaluateFrom _ _ hms)).bind fun _ => trivial
  | evaluateResult =>
    exact (hinterp (Pipeline.performs_evaluateResultFrom _ _ hms)).bind fun _ => trivial
  | evaluateFull =>
    exact (hinterp (Pipeline.performs_evaluateFullFrom _ _ hms)).bind fun _ => trivial

theorem uses_of_path {x : Evaluation} {h : List (Event (Ret (M := M)))} {c : Code M Unit}
    (hp : Path x.code h c) :
    h = [] ∨ ∃ ms h', h = ⟨.loadMethods, ms⟩ :: h' ∧ ∀ e ∈ h, Uses ms e := by
  obtain ⟨k, hk, hperf⟩ := performs_evaluation (M := M) x
  rw [hk] at hp
  rcases hp.of_call with ⟨rfl, -⟩ | ⟨ms, h', rfl, hp'⟩
  · exact .inl rfl
  · refine .inr ⟨ms, h', rfl, List.forall_mem_cons.mpr ⟨.inl rfl, ?_⟩⟩
    intro e he
    exact .inr (((hperf ms).path hp').1 e he)

theorem eq_foldl_of_steps (h : Steps exec s₀ (threads env n evals) t s P) :
    s = (localTrace none t).foldl State.apply s₀ := by
  rw [eq_foldl_of_effect h.effect]
  refine foldl_map_snd ?_
  intro k e he s
  have hmem := mem_localTrace.mpr he
  rcases uses_of_path (h.path (some k)) with hnil | ⟨ms, -, -, huses⟩
  · rw [hnil] at hmem
    cases hmem
  · exact apply_of_uses (huses e hmem) s

/-- In every interleaving of reload attempts with evaluations: after every attempt the live
methods and the hash are those of the last successful attempt, or of the start, and the count of
attempts is the sum of the two outcome counts; and each evaluation uses one list only, which is
the one of the start or one that an attempt has fully validated. -/
theorem keep_last_good {live : List M} {version : GoString}
    (h : Steps exec { live, configVersion := version } (threads env n evals) t s P) :
    (∀ hs : List (List (Event (Ret (M := M)))), localTrace none t = hs.flatten →
      (∀ a ∈ hs, Runs (reload env) a ()) → LastGood env live none hs s.live s.lastHash ∧
        s.reloadCount = hs.length ∧ s.reloadCount = s.successTotal + s.errorTotal) ∧
    ∀ k, ∃ ms, (∀ e ∈ localTrace (some k) t, Uses ms e) ∧
      (ms = live ∨ ∃ u g v data, localTrace none t = u ++ g ++ v ∧ Validated env g data ms) := by
  constructor
  · intro hs hflat hruns
    have hleft := left_of_attempts live version hruns
    rw [← hflat, ← eq_foldl_of_steps h] at hleft
    exact ⟨hleft.lastGood, hleft.count, hleft.count_eq⟩
  · intro k
    rcases uses_of_path (h.path (some k)) with hnil | ⟨ms, h', hcons, huses⟩
    · rw [hnil]
      exact ⟨live, by simp, .inl rfl⟩
    · refine ⟨ms, huses, ?_⟩
      -- the state in which the evaluation has loaded its list
      have hsplit : localTrace (some k) t = [] ++ ⟨.loadMethods, ms⟩ :: h' := hcons
      obtain ⟨u, v, rfl, -, -⟩ := localTrace_split hsplit
      obtain ⟨s₁, P₁, s₂, hu, hload⟩ := h.of_append_cons
      have hms : ms = s₁.live := hload.1
      rw [eq_foldl_of_steps hu] at hms
      rcases live_foldl (localTrace none u) { live, configVersion := version } with
        hl | ⟨g₁, g₂, hg⟩
      · exact .inl (hms.trans hl)
      · rw [← hms] at hg
        have hpath := hu.path none
        rw [hg] at hpath
        obtain ⟨w, g, data, rfl, hval⟩ := validated_of_attempts_swap hpath
        refine .inr ⟨w, g, ⟨.swap ms, ()⟩ :: g₂ ++ localTrace none v, data, ?_, hval⟩
        rw [localTrace_append, localTrace_cons_ne _ _ (by simp), hg]
        simp

end Interleaving

def oneMethod : Env where
  path := str "config.yaml"
  unmarshal _ cfg := .ok { cfg with
    defaultRoutingGroup := str "adhoc"
    methods := [{ type := str "expr", program := str "a" }] }
  hashBytes := id

def answer (o : Op Numbered) (s : State Numbered) : Ret o :=
  match o with
  | .readFile => .ok []
  | .loadConfig type _ => .ok ⟨1, type⟩
  | .loadHash => s.lastHash
  | .loadMethods => s.live
  | .evaluate _ => .returned {} none
  | .swap _ | .storeHash _ | .addSuccess | .addError | .addCount | .audit _
  | .setConfigVersion _ => ()

/-- A reload from an empty list, and an evaluation that starts right after its swap. -/
def oneReload : List (Option Unit × Event (Ret (M := Numbered))) × State Numbered ×
    (Option Unit → Code Numbered Unit) :=
  playAll (fun o s => some (answer o s, s.apply ⟨o, answer o s⟩))
    { live := [], configVersion := [] }
    (threads oneMethod 1 fun _ => ⟨.evaluateResult, {}, str "adhoc"⟩)
    [none, none, none, none, none, some (), none, some (), none, none, none, none]

theorem keep_last_good_oneReload :
    (∀ hs : List (List (Event (Ret (M := Numbered)))), localTrace none oneReload.1 = hs.flatten →
      (∀ a ∈ hs, Runs (reload oneMethod) a ()) →
        LastGood oneMethod [] none hs oneReload.2.1.live oneReload.2.1.lastHash ∧
        oneReload.2.1.reloadCount = hs.length ∧
        oneReload.2.1.reloadCount = oneReload.2.1.successTotal + oneReload.2.1.errorTotal) ∧
    ∀ k, ∃ ms, (∀ e ∈ localTrace (some k) oneReload.1, Uses ms e) ∧
      (ms = [] ∨ ∃ u g v data, localTrace none oneReload.1 = u ++ g ++ v ∧
        Validated oneMethod g data ms) := by
  refine keep_last_good (steps_playAll ?_ _ _ _)
  intro o s r s' h
  obtain ⟨rfl, rfl⟩ := Prod.mk.inj (Option.some.inj h)
  refine ⟨?_, rfl⟩
  cases o <;> trivial

example : oneReload.2.1.live = [⟨1, str "expr"⟩] ∧ oneReload.2.1.reloadCount = 1 := by decide

end TrinoGoway.Reload
