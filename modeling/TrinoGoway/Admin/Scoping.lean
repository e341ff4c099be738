import TrinoGoway.Admin.History

/-! What the history endpoints tell a caller who is not an administrator. -/
namespace TrinoGoway.Admin

open Go Go.Http Auth Persistence

/-- The tables have the same rows of the user, in whatever order. -/
def AgreeOn (userName : GoString) (rows rows' : List QueryRecord) : Prop :=
  (rows.filter fun r => r.userName = userName).Perm (rows'.filter fun r => r.userName = userName)

theorem filter_accepts {f : HistoryFilter} (h : f.userName ≠ []) (rows : List QueryRecord) :
    rows.filter f.accepts = (rows.filter fun r => r.userName = f.userName).filter f.accepts := by
  rw [List.filter_filter]
  congr 1
  funext r
  by_cases hr : r.userName = f.userName
  · simp [hr]
  · have hno : f.accepts r = false := by
      simp [HistoryFilter.accepts, condition, h, hr]
    simp [hno]

section Handlers

variable {a : Server} {o : RowOrder} {rows rows' : List QueryRecord} {e e' : Option GoError}
  {d : Driver} {p : Principal}

theorem findByFilter_agree {f : HistoryFilter} (hname : f.userName ≠ [])
    (h : AgreeOn f.userName rows rows') :
    (HistoryStore.mk o rows e e' d).findByFilter f =
      (HistoryStore.mk o rows' e e' d).findByFilter f := by
  refine findByFilter_congr ?_
  rw [filter_accepts hname rows, filter_accepts hname rows']
  exact h.filter _

/-- Every handler filters by the caller's name, unless that is empty. -/
theorem handle_agree (hadmin : a.isAdmin (some p) = false) (hname : p.name ≠ [])
    (h : AgreeOn p.name rows rows') (endpoint : Server.Endpoint) :
    a.handle ⟨o, rows, e, e', d⟩ (some p) endpoint =
      a.handle ⟨o, rows', e, e', d⟩ (some p) endpoint := by
  cases endpoint with
  | queryHistory =>
    unfold Server.handle Server.queryHistory
    simp only [hadmin, Bool.false_eq_true, if_false, Option.map_some, Option.getD_some]
    rw [findByFilter_agree (by exact hname) h]
  | queryHistoryDistribution =>
    unfold Server.handle Server.queryHistoryDistribution Server.distributionUser
    simp only [hadmin, Bool.false_eq_true, if_false]
    rw [findByFilter_agree (by exact hname) h]
  | webappFindQueryHistory req =>
    cases req with
    | none => rfl
    | some req =>
      unfold Server.handle Server.webappFindQueryHistory
      simp only [hadmin, Bool.false_eq_true, if_false]
      rw [findByFilter_agree (by exact hname) h]

theorem queryHistory_unnamed (hadmin : a.isAdmin (some p) = false) (hname : p.name = []) :
    a.queryHistory ⟨o, rows, none, none, d⟩ (some p) =
      .history (((o.sort rows).take 100).map fun r => queryDetailFromRecord r.columns) := by
  have haccepts : rows.filter (HistoryFilter.accepts { pageSize := 100, page := 1 }) = rows := by
    rw [List.filter_eq_self]
    intro r _
    rfl
  unfold Server.queryHistory
  simp only [findByFilter_eq, HistoryStore.select, hadmin, Bool.false_eq_true, if_false,
    Option.map_some, Option.getD_some, hname, haccepts]
  simp [HistoryFilter.limit, HistoryFilter.offset, Except.map, Function.comp_def]

private def aliceRow : QueryRecord :=
  { queryID := str "1_2_3_x", backendURL := str "http://a", externalURL := [],
    userName := str "alice", source := [] }

private theorem queryHistory_unnamed_ne (hadmin : a.isAdmin (some p) = false)
    (hname : p.name = []) :
    a.queryHistory ⟨o, [], none, none, d⟩ (some p) ≠
      a.queryHistory ⟨o, [aliceRow], none, none, d⟩ (some p) := by
  have hnil : o.sort [] = [] := (o.perm []).eq_nil
  have hrow : o.sort [aliceRow] = [aliceRow] := List.perm_singleton.mp (o.perm [aliceRow])
  rw [queryHistory_unnamed hadmin hname, queryHistory_unnamed hadmin hname, hnil, hrow]
  simp

end Handlers

/-- The answers to a caller who is not an administrator depend on the caller's own rows alone
exactly when the caller has a name, or may not ask at all. -/
theorem history_scoped_iff (a : Server) (o : RowOrder) (d : Driver) (r : Request)
    {auth : Authenticator} {p : Principal} (hauth : a.auth = some auth)
    (hp : auth.authenticate r = .ok p) (hadmin : a.isAdmin (some p) = false) :
    (∀ endpoint countFault selectFault rows rows', AgreeOn p.name rows rows' →
      a.serve ⟨o, rows, countFault, selectFault, d⟩ r endpoint =
        a.serve ⟨o, rows', countFault, selectFault, d⟩ r endpoint) ↔
      p.name ≠ [] ∨ hasRole a.matchString (some p) .user a.authorization = false := by
  have hprincipal : a.principal r = .ok (some p) := by
    simp [Server.principal, hauth, hp]
  unfold Server.serve
  simp only [hprincipal]
  cases huser : hasRole a.matchString (some p) .user a.authorization with
  | false => simp
  | true =>
    simp only [if_true, Bool.true_eq_false, or_false]
    constructor
    · intro h hname
      have hagree : AgreeOn p.name [] [aliceRow] := by
        rw [hname]
        exact List.Perm.refl _
      exact queryHistory_unnamed_ne hadmin hname (h .queryHistory none none [] [aliceRow] hagree)
    · intro hname endpoint countFault selectFault rows rows' hagree
      exact handle_agree hadmin hname hagree endpoint

section Samples

/-- Tokens are their own groups claim, and have a subject if `subject` says so. -/
private def scopingServer (subject : Option GoString) : Server where
  auth := some (.oidc (some fun token =>
    let groups : Claims := GoMap.set .empty (str "groups") (.string token)
    some (match subject with
      | none => ⟨groups, []⟩
      | some s => ⟨GoMap.set groups (str "sub") (.string s), s⟩)))
  authorization := ⟨str "admins", str "users", []⟩
  matchString := fun pattern text => some (pattern = text)

private def scopingRequest : Request where
  method := str "GET"
  path := str "/trino-gateway/api/queryHistory"
  rawPath := []
  rawQuery := []
  requestURI := str "/trino-gateway/api/queryHistory"
  header := Header.set .empty (str "Authorization") (str "Bearer users")
  remoteAddr := []
  host := []
  tls := false
  form := none
  body := .ok []

theorem history_scoped_sample :
    (∀ endpoint countFault selectFault rows rows', AgreeOn (str "bob") rows rows' →
      (scopingServer (some (str "bob"))).serve
          ⟨RowOrder.arbitrary, rows, countFault, selectFault, .mysql⟩ scopingRequest endpoint =
        (scopingServer (some (str "bob"))).serve
          ⟨RowOrder.arbitrary, rows', countFault, selectFault, .mysql⟩ scopingRequest endpoint) ↔
      str "bob" ≠ [] ∨ hasRole (fun pattern text => some (pattern = text))
        (some ⟨str "bob", str "users"⟩) .user ⟨str "admins", str "users", []⟩ = false :=
  history_scoped_iff (scopingServer (some (str "bob"))) RowOrder.arbitrary .mysql scopingRequest
    (p := ⟨str "bob", str "users"⟩) rfl (by decide +kernel) (by decide)

/-- A token without a subject shows its bearer the rows of others. -/
theorem history_leaks_to_unnamed :
    let a := scopingServer none
    let p : Principal := ⟨[], str "users"⟩
    a.principal scopingRequest = .ok (some p) ∧ a.isAdmin (some p) = false ∧
      AgreeOn p.name [] [aliceRow] ∧
      a.serve ⟨RowOrder.arbitrary, [], none, none, .mysql⟩ scopingRequest .queryHistory ≠
        a.serve ⟨RowOrder.arbitrary, [aliceRow], none, none, .mysql⟩ scopingRequest
          .queryHistory := by
  have hprincipal : (scopingServer none).principal scopingRequest =
      .ok (some ⟨[], str "users"⟩) := by decide +kernel
  have hadmin : (scopingServer none).isAdmin (some ⟨[], str "users"⟩) = false := by decide
  have huser : hasRole (scopingServer none).matchString (some ⟨[], str "users"⟩) .user
      (scopingServer none).authorization = true := by decide
  refine ⟨hprincipal, hadmin, List.Perm.refl _, ?_⟩
  unfold Server.serve
  simp only [hprincipal, huser, if_true]
  exact queryHistory_unnamed_ne (o := .arbitrary) (d := .mysql) hadmin rfl

end Samples

end TrinoGoway.Admin
