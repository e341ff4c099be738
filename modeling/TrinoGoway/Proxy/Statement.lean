import TrinoGoway.Go.Json

/-! The query id in the response to a statement. -/
namespace TrinoGoway.Proxy

open Go Go.Json

structure TrinoStatementResponse where
  id : GoString := []
  nextURI : GoString := []

/-- A value stored into a string field: `null` leaves the field, other kinds are errors. -/
def storeString (old : GoString) : Value → Option GoString
  | .string s => some s
  | .null => some old
  | _ => none

def storeMember (resp : TrinoStatementResponse) (m : GoString × Value) :
    Option TrinoStatementResponse :=
  if keyMatches (str "id") m.1 then
    (storeString resp.id m.2).map fun s => { resp with id := s }
  else if keyMatches (str "nextUri") m.1 then
    (storeString resp.nextURI m.2).map fun s => { resp with nextURI := s }
  else some resp

/-- `json.Unmarshal` into a statement response; none stands for its error. -/
def unmarshalStatement (body : GoString) : Option TrinoStatementResponse :=
  match parse body with
  | some (.object members) => members.foldlM storeMember {}
  | some .null => some {}
  | _ => none

def extractQueryIDFromBody (body : GoString) : GoString :=
  match unmarshalStatement body with
  | some resp => resp.id
  | none => []

def storable (m : GoString × Value) : Bool :=
  !(keyMatches (str "id") m.1 || keyMatches (str "nextUri") m.1) ||
    match m.2 with
    | .string _ | .null => true
    | _ => false

def idText : GoString × Value → Option GoString
  | (key, .string s) => if keyMatches (str "id") key then some s else none
  | _ => none

/-- The body is a JSON object whose members are storable, the last text named `id` is `q`. -/
def NamesID (body q : GoString) : Prop :=
  ∃ members, parse body = some (.object members) ∧ members.all storable ∧
    (members.filterMap idText).getLast? = some q

private theorem storeMember_id (resp : TrinoStatementResponse) (m : GoString × Value) :
    (storeMember resp m).map (·.id) =
      if storable m then some ((idText m).getD resp.id) else none := by
  obtain ⟨key, v⟩ := m
  unfold storeMember storable
  by_cases hid : keyMatches (str "id") key = true
  · cases v <;> simp [hid, storeString, idText]
  · by_cases hnext : keyMatches (str "nextUri") key = true
    · cases v <;> simp [hid, hnext, storeString, idText]
    · cases v <;> simp [hid, hnext, idText]

private theorem foldlM_storeMember (members : List (GoString × Value))
    (resp : TrinoStatementResponse) :
    (members.foldlM storeMember resp).map (·.id) =
      if members.all storable then some ((members.filterMap idText).getLast?.getD resp.id)
      else none := by
  induction members generalizing resp with
  | nil => rfl
  | cons m members ih =>
    have hstep := storeMember_id resp m
    rw [List.foldlM_cons]
    cases hs : storeMember resp m with
    | none =>
      have hbad : storable m = false := by
        by_contra hok
        simp [hs, hok] at hstep
      simp [hbad]
    | some resp' =>
      have hok : storable m = true := by
        by_contra hbad
        simp [hs, hbad] at hstep
      have hid : resp'.id = (idText m).getD resp.id := by simpa [hs, hok] using hstep
      rw [Option.bind_eq_bind, Option.bind_some, ih resp', hid, List.all_cons, hok, Bool.true_and]
      cases hm : idText m with
      | none => rw [List.filterMap_cons_none hm, Option.getD_none]
      | some s =>
        rw [List.filterMap_cons_some hm, List.getLast?_cons, Option.getD_some, Option.getD_some]

theorem extractQueryIDFromBody_eq_iff {body q : GoString} (hq : q ≠ []) :
    extractQueryIDFromBody body = q ↔ NamesID body q := by
  unfold extractQueryIDFromBody unmarshalStatement NamesID
  cases hp : parse body with
  | none => simp [Ne.symm hq]
  | some v =>
    cases v with
    | object members =>
      have hfold := foldlM_storeMember members {}
      simp only [Option.some.injEq, Value.object.injEq, exists_eq_left']
      by_cases hok : members.all storable = true
      · rw [if_pos hok] at hfold
        obtain ⟨resp, hresp, hid⟩ := Option.map_eq_some_iff.mp hfold
        simp only [hresp, hid, hok, true_and]
        cases (members.filterMap idText).getLast? with
        | none => simp [Ne.symm hq]
        | some s => simp
      · rw [if_neg hok] at hfold
        simp [Option.map_eq_none_iff.mp hfold, hok, Ne.symm hq]
    | _ => simp [Ne.symm hq]

end TrinoGoway.Proxy
