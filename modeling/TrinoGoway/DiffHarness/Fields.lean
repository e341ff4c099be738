import TrinoGoway.DiffHarness.Normalize

/-! What the ignored fields of a policy take out of a document. One deletion after the other is a
single pruning by the set of all paths; a place of the document goes with the first key on the way
to it that ends one of the paths. -/
namespace TrinoGoway.DiffHarness

open Go Go.JsonText

variable {ν : Type}

/-! ### Places -/

inductive Step
  | key (name : GoString)
  | index (i : ℕ)

/-- What stands at a place, without what is below it. -/
inductive Content (ν : Type)
  | null
  | bool (b : Bool)
  | number (x : ν)
  | string (s : GoString)
  | array (length : ℕ)
  | object

def contentOf : Doc ν → Content ν
  | .null => .null
  | .bool b => .bool b
  | .number x => .number x
  | .string s => .string s
  | .array items => .array items.length
  | .object _ => .object

def content? : List Step → Doc ν → Option (Content ν)
  | [], x => some (contentOf x)
  | .index i :: place, .array items => items[i]?.bind (content? place)
  | .key name :: place, .object members => (members.lookup name).bind (content? place)
  | _ :: _, _ => none

def keys : List Step → List GoString
  | [] => []
  | .key name :: place => name :: keys place
  | .index _ :: place => keys place

/-- A key on the way to the place ends a key sequence of the set. -/
def Removed (gone : List GoString → Prop) (place : List Step) : Prop :=
  ∃ above name, above ++ [Step.key name] <+: place ∧ gone (keys (above ++ [.key name]))

@[simp] theorem not_removed_nil (gone : List GoString → Prop) : ¬Removed gone [] := by
  rintro ⟨above, name, hprefix, -⟩
  have hnil := List.prefix_nil.mp hprefix
  exact List.append_ne_nil_of_right_ne_nil above (List.cons_ne_nil _ _) hnil

/-- The first step of the place is the key that ends the sequence, or the key is further down. -/
theorem removed_cons (gone : List GoString → Prop) (step : Step) (place : List Step) :
    Removed gone (step :: place) ↔
      (∃ name, step = .key name ∧ gone [name]) ∨
        Removed (fun ks => gone (keys [step] ++ ks)) place := by
  have hkeys : ∀ p q, keys (p ++ q) = keys p ++ keys q := by
    intro p q
    induction p with
    | nil => rfl
    | cons s p ih => cases s <;> simp [keys, ih]
  constructor
  · rintro ⟨above, name, hprefix, hgone⟩
    cases above with
    | nil =>
      obtain rfl := (List.cons_prefix_cons.mp hprefix).1
      exact .inl ⟨name, rfl, hgone⟩
    | cons s above =>
      rw [List.cons_append, List.cons_prefix_cons] at hprefix
      obtain ⟨rfl, hprefix⟩ := hprefix
      refine .inr ⟨above, name, hprefix, ?_⟩
      rw [List.cons_append, ← List.singleton_append, hkeys] at hgone
      exact hgone
  · rintro (⟨name, rfl, hgone⟩ | ⟨above, name, hprefix, hgone⟩)
    · exact ⟨[], name, List.cons_prefix_cons.mpr ⟨rfl, List.nil_prefix⟩, hgone⟩
    · refine ⟨step :: above, name, List.cons_prefix_cons.mpr ⟨rfl, hprefix⟩, ?_⟩
      rw [List.cons_append, ← List.singleton_append, hkeys]
      exact hgone

@[simp] theorem removed_index (gone : List GoString → Prop) (i : ℕ) (place : List Step) :
    Removed gone (.index i :: place) ↔ Removed gone place := by
  rw [removed_cons]
  simp [keys]

@[simp] theorem removed_key (gone : List GoString → Prop) (name : GoString) (place : List Step) :
    Removed gone (.key name :: place) ↔
      gone [name] ∨ Removed (fun ks => gone (name :: ks)) place := by
  rw [removed_cons]
  simp [keys]

/-! ### Pruning -/

mutual

/-- The document without the members whose key sequence is in the set. -/
def prune (gone : List GoString → Bool) : Doc ν → Doc ν
  | .array items => .array (pruneItems gone items)
  | .object members => .object (pruneMembers gone members)
  | x => x

def pruneItems (gone : List GoString → Bool) : List (Doc ν) → List (Doc ν)
  | [] => []
  | x :: xs => prune gone x :: pruneItems gone xs

def pruneMembers (gone : List GoString → Bool) :
    List (GoString × Doc ν) → List (GoString × Doc ν)
  | [] => []
  | (name, x) :: ms =>
    if gone [name] then pruneMembers gone ms
    else (name, prune (fun ks => gone (name :: ks)) x) :: pruneMembers gone ms

end

theorem pruneItems_eq (gone : List GoString → Bool) (xs : List (Doc ν)) :
    pruneItems gone xs = xs.map (prune gone) := by
  induction xs with
  | nil => rw [pruneItems, List.map_nil]
  | cons x xs ih => rw [pruneItems, ih, List.map_cons]

theorem lookup_pruneMembers (gone : List GoString → Bool) (name : GoString)
    (ms : List (GoString × Doc ν)) :
    (pruneMembers gone ms).lookup name =
      if gone [name] then none
      else (ms.lookup name).map (prune fun ks => gone (name :: ks)) := by
  induction ms with
  | nil => simp [pruneMembers]
  | cons m ms ih =>
    obtain ⟨k, x⟩ := m
    rw [pruneMembers]
    by_cases hk : name = k
    · subst hk
      split_ifs with hgone
      · rw [ih, if_pos hgone]
      · simp
    · have hbeq : (name == k) = false := beq_false_of_ne hk
      split_ifs with hgone hname hname
      · rw [ih, if_pos hname]
      · rw [ih, if_neg hname, List.lookup_cons, hbeq]
      · rw [List.lookup_cons, hbeq, ih, if_pos hname]
      · rw [List.lookup_cons, hbeq, ih, if_neg hname, List.lookup_cons, hbeq]

theorem contentOf_prune (gone : List GoString → Bool) (x : Doc ν) :
    contentOf (prune gone x) = contentOf x := by
  cases x with
  | array items => rw [prune, contentOf, contentOf, pruneItems_eq, List.length_map]
  | _ => rw [prune] <;> first | rfl | simp

/-- Pruning takes out the removed places and leaves every other place as it is. -/
theorem content?_prune (gone : List GoString → Bool) (place : List Step) (x : Doc ν) :
    (Removed (gone · = true) place → content? place (prune gone x) = none) ∧
      (¬Removed (gone · = true) place → content? place (prune gone x) = content? place x) := by
  induction place generalizing gone x with
  | nil =>
    refine ⟨fun h => absurd h (not_removed_nil _), fun _ => ?_⟩
    rw [content?, content?, contentOf_prune]
  | cons step place ih =>
    cases step with
    | index i =>
      rw [removed_index]
      cases x with
      | array items =>
        simp only [prune, content?, pruneItems_eq, List.getElem?_map]
        cases items[i]? with
        | none => exact ⟨fun _ => rfl, fun _ => rfl⟩
        | some y => exact ih gone y
      | _ => simp [prune, content?]
    | key name =>
      rw [removed_key]
      cases x with
      | object members =>
        simp only [prune, content?, lookup_pruneMembers]
        by_cases hgone : gone [name] = true
        · simp [hgone]
        · rw [if_neg hgone]
          cases members.lookup name with
          | none => simp
          | some y =>
            have hy := ih (fun ks => gone (name :: ks)) y
            simpa [hgone] using hy
      | _ => simp [prune, content?]

mutual

theorem prune_of_never {gone : List GoString → Bool} (h : ∀ k ks, gone (k :: ks) = false) :
    ∀ x : Doc ν, prune gone x = x
  | .array items => by rw [prune, pruneItems_of_never h items]
  | .object members => by rw [prune, pruneMembers_of_never h members]
  | .null | .bool _ | .number _ | .string _ => by rw [prune] <;> simp

theorem pruneItems_of_never {gone : List GoString → Bool} (h : ∀ k ks, gone (k :: ks) = false) :
    ∀ xs : List (Doc ν), pruneItems gone xs = xs
  | [] => by rw [pruneItems]
  | x :: xs => by rw [pruneItems, prune_of_never h x, pruneItems_of_never h xs]

theorem pruneMembers_of_never {gone : List GoString → Bool}
    (h : ∀ k ks, gone (k :: ks) = false) :
    ∀ ms : List (GoString × Doc ν), pruneMembers gone ms = ms
  | [] => by rw [pruneMembers]
  | (name, x) :: ms => by
    rw [pruneMembers, h, if_neg Bool.false_ne_true, prune_of_never (fun k ks => h name (k :: ks)) x,
      pruneMembers_of_never h ms]

end

mutual

/-- Pruning twice is pruning once, by the union of the sets. -/
theorem prune_prune (a b : List GoString → Bool) :
    ∀ x : Doc ν, prune a (prune b x) = prune (fun ks => a ks || b ks) x
  | .array items => by rw [prune, prune, prune, pruneItems_pruneItems a b items]
  | .object members => by rw [prune, prune, prune, pruneMembers_pruneMembers a b members]
  | .null | .bool _ | .number _ | .string _ => by simp [prune]

theorem pruneItems_pruneItems (a b : List GoString → Bool) :
    ∀ xs : List (Doc ν), pruneItems a (pruneItems b xs) = pruneItems (fun ks => a ks || b ks) xs
  | [] => by simp [pruneItems]
  | x :: xs => by
    rw [pruneItems, pruneItems, pruneItems, prune_prune a b x, pruneItems_pruneItems a b xs]

theorem pruneMembers_pruneMembers (a b : List GoString → Bool) :
    ∀ ms : List (GoString × Doc ν),
      pruneMembers a (pruneMembers b ms) = pruneMembers (fun ks => a ks || b ks) ms
  | [] => by simp [pruneMembers]
  | (name, x) :: ms => by
    have hms := pruneMembers_pruneMembers a b ms
    have hx := prune_prune (fun ks => a (name :: ks)) (fun ks => b (name :: ks)) x
    rw [pruneMembers, pruneMembers]
    cases hb : b [name] with
    | true => simp [hms]
    | false =>
      simp only [Bool.false_eq_true, if_false, Bool.or_false]
      rw [pruneMembers, hms, hx]

end

/-! ### Deletion -/

mutual

/-- Deleting a path is pruning by that path alone. -/
theorem deleteJSONPath_eq_prune :
    ∀ (x : Doc ν) (path : List GoString),
      deleteJSONPath x path = prune (fun ks => decide (ks = path)) x
  | x, [] => by
    rw [deleteJSONPath, prune_of_never]
    simp
  | .array items, key :: path => by
    rw [deleteJSONPath, prune, deleteInItems_eq_pruneItems items (key :: path)]
    simp
  | .object members, [key] => by
    rw [deleteJSONPath, prune, filter_eq_pruneMembers members key]
  | .object members, key :: k :: path => by
    rw [deleteJSONPath, prune, deleteInMembers_eq_pruneMembers members key (k :: path)] <;> simp
  | .null, _ :: _ | .bool _, _ :: _ | .number _, _ :: _ | .string _, _ :: _ => by
    simp [deleteJSONPath, prune]

theorem deleteInItems_eq_pruneItems :
    ∀ (xs : List (Doc ν)) (path : List GoString),
      deleteInItems xs path = pruneItems (fun ks => decide (ks = path)) xs
  | [], _ => by rw [deleteInItems, pruneItems]
  | x :: xs, path => by
    rw [deleteInItems, pruneItems, deleteJSONPath_eq_prune x path,
      deleteInItems_eq_pruneItems xs path]

theorem filter_eq_pruneMembers :
    ∀ (ms : List (GoString × Doc ν)) (key : GoString),
      (ms.filter fun m => m.1 ≠ key) = pruneMembers (fun ks => decide (ks = [key])) ms
  | [], _ => by rw [pruneMembers, List.filter_nil]
  | (name, x) :: ms, key => by
    rw [pruneMembers, ← filter_eq_pruneMembers ms key, List.filter_cons]
    by_cases hname : name = key
    · simp [hname]
    · have hx : prune (fun ks => decide (name :: ks = [key])) x = x :=
        prune_of_never (by simp [hname]) x
      rw [hx]
      simp [hname]

theorem deleteInMembers_eq_pruneMembers :
    ∀ (ms : List (GoString × Doc ν)) (key : GoString) (path : List GoString), path ≠ [] →
      deleteInMembers ms key path = pruneMembers (fun ks => decide (ks = key :: path)) ms
  | [], _, _, _ => by rw [deleteInMembers, pruneMembers]
  | (name, x) :: ms, key, path, hpath => by
    have hkeep : ¬decide ([name] = key :: path) = true := by
      simp [hpath.symm]
    rw [deleteInMembers, pruneMembers, if_neg hkeep,
      deleteInMembers_eq_pruneMembers ms key path hpath]
    by_cases hname : name = key
    · rw [if_pos hname, deleteJSONPath_eq_prune x path]
      simp [hname]
    · have hx : prune (fun ks => decide (name :: ks = key :: path)) x = x :=
        prune_of_never (by simp [hname]) x
      rw [if_neg hname, hx]

end

/-! ### The fields of a policy -/

def stripFields (fields : List GoString) (doc : Doc ν) : Doc ν :=
  fields.foldl (fun doc field => deleteJSONPath doc (split Byte.period field)) doc

/-- The loop of the code is over the fields one by one; the result is that of one pruning. -/
theorem stripFields_eq_prune (fields : List GoString) (x : Doc ν) :
    stripFields fields x =
      prune (fun ks => decide (ks ∈ fields.map (split Byte.period))) x := by
  induction fields generalizing x with
  | nil =>
    rw [prune_of_never]
    · rfl
    · simp
  | cons field fields ih =>
    calc stripFields (field :: fields) x
        = stripFields fields (deleteJSONPath x (split Byte.period field)) := rfl
      _ = prune (fun ks => decide (ks ∈ fields.map (split Byte.period)) ||
            decide (ks = split Byte.period field)) x := by
          rw [ih, deleteJSONPath_eq_prune, prune_prune]
      _ = _ := by
          congr 1
          funext ks
          rw [← Bool.decide_or, decide_eq_decide, List.map_cons, List.mem_cons, or_comm]

theorem stripJSONFields_eq (F : Floats ν) {body : GoString} {x : Doc ν}
    (h : unmarshal F body = some x) (fields : List GoString) :
    stripJSONFields F body fields = marshal F (stripFields fields x) := by
  have hne : body ≠ [] := by
    rintro rfl
    rw [unmarshal, readText_nil] at h
    cases h
  rw [stripJSONFields, if_neg hne, h]
  rfl

/-- Stripping is exact, and the order and the repetition of the fields do not matter. -/
theorem stripFields_exact (fields : List GoString) (x : Doc ν) :
    (∀ (F : Floats ν) (body : GoString), unmarshal F body = some x →
      stripJSONFields F body fields = marshal F (stripFields fields x)) ∧
    (∀ place,
      (Removed (· ∈ fields.map (split Byte.period)) place →
        content? place (stripFields fields x) = none) ∧
      (¬Removed (· ∈ fields.map (split Byte.period)) place →
        content? place (stripFields fields x) = content? place x)) ∧
    (∀ fields', (∀ field, field ∈ fields' ↔ field ∈ fields) →
      stripFields fields' x = stripFields fields x) ∧
    stripFields fields (stripFields fields x) = stripFields fields x := by
  refine ⟨fun F body h => stripJSONFields_eq F h fields, fun place => ?_, fun fields' hsame => ?_,
    ?_⟩
  · have h := content?_prune (fun ks => decide (ks ∈ fields.map (split Byte.period))) place x
    simp only [decide_eq_true_eq] at h
    rw [stripFields_eq_prune]
    exact h
  · have hpaths : ∀ ks, ks ∈ fields'.map (split Byte.period) ↔
        ks ∈ fields.map (split Byte.period) := by
      intro ks
      simp only [List.mem_map, hsame]
    rw [stripFields_eq_prune, stripFields_eq_prune]
    simp only [hpaths]
  · rw [stripFields_eq_prune, stripFields_eq_prune, prune_prune]
    simp only [Bool.or_self]

def statsPage : Doc ℤ :=
  .object [(str "stats", .array [.object [(str "rows", .number 1), (str "state", .null)]])]

/-- The field goes from the entry of the list, whatever is said twice; its neighbour stays. -/
theorem stripFields_statsPage :
    content? [.key (str "stats"), .index 0, .key (str "rows")]
        (stripFields [str "stats.rows"] statsPage) = none ∧
      content? [.key (str "stats"), .index 0, .key (str "state")]
        (stripFields [str "stats.rows"] statsPage) =
          content? [.key (str "stats"), .index 0, .key (str "state")] statsPage ∧
      stripFields [str "stats.rows", str "stats.rows"] statsPage =
        stripFields [str "stats.rows"] statsPage := by
  obtain ⟨-, hplaces, hset, -⟩ := stripFields_exact [str "stats.rows"] statsPage
  refine ⟨(hplaces _).1 ?_, (hplaces _).2 ?_, hset _ ?_⟩
  · simp only [removed_key, removed_index, not_removed_nil, or_false]
    decide
  · simp only [removed_key, removed_index, not_removed_nil, or_false]
    decide
  · simp

end TrinoGoway.DiffHarness
