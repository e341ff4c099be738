import TrinoGoway.Gateway.Upstream

/-! The chain of addresses in `X-Forwarded-For`. -/
namespace TrinoGoway

open Go Go.Http Routing Prog

def isListBlank (c : UInt8) : Bool := c == Byte.space || c == Byte.tab

def addresses (v : GoString) : List GoString :=
  ((split Byte.comma v).map (trim isListBlank)).filter (· ≠ [])

def forwardedForLines (h : Header) : List GoString := (h.get? (str "X-Forwarded-For")).getD []

def forwardedFor (h : Header) : List GoString := (forwardedForLines h).flatMap addresses

def IsAddress (ip : GoString) : Prop :=
  ip ≠ [] ∧ ∀ c ∈ ip, c ≠ Byte.comma ∧ isListBlank c = false

/-! ### Comma lists -/

theorem addresses_append (s t : GoString) :
    addresses (s ++ Byte.comma :: t) = addresses s ++ addresses t := by
  unfold addresses
  rw [split_append, List.map_append, List.filter_append]

theorem addresses_blank {c : UInt8} (hc : isListBlank c = true) (s : GoString) :
    addresses (c :: s) = addresses s := by
  have hne : c ≠ Byte.comma := by
    rintro rfl
    cases hc
  obtain ⟨p, ps, hsplit⟩ := List.exists_cons_of_ne_nil (split_ne_nil Byte.comma s)
  unfold addresses
  simp [split, hne, hsplit, trim_cons hc]

theorem addresses_of_isAddress {ip : GoString} (h : IsAddress ip) : addresses ip = [ip] := by
  have hcomma : Byte.comma ∉ ip := fun hmem => (h.2 _ hmem).1 rfl
  unfold addresses
  rw [split_of_not_mem hcomma, List.map_singleton, trim_of_forall fun c hc => (h.2 c hc).2]
  simp [h.1]

/-! ### The client's address -/

theorem clientIP_eq {ip port : GoString} (hport : Byte.colon ∉ port) :
    Proxy.clientIP (ip ++ Byte.colon :: port) = ip := by
  unfold Proxy.clientIP
  rw [cutLast_append ip hport]

/-! ### The upstream header -/

/-- The value that the gateway sets: the first line of the client with its address behind. -/
theorem get?_forwardedFor_injectHeaders (header : Header) (r : Request) {ext : GoMap GoString}
    (hext : ∀ k, (ext.get? k).isSome → equalFold k (str "X-Forwarded-For") = false) :
    (Proxy.injectHeaders header r (some ext)).get? (str "X-Forwarded-For") =
      some [if header.get (str "X-Forwarded-For") ≠ [] then
          header.get (str "X-Forwarded-For") ++ str ", " ++ Proxy.clientIP r.remoteAddr
        else Proxy.clientIP r.remoteAddr] := by
  have hname : canonicalHeaderKey (str "X-Forwarded-For") = str "X-Forwarded-For" := by decide
  have hproto : str "X-Forwarded-For" ≠ canonicalHeaderKey (str "X-Forwarded-Proto") := by decide
  have hhost : str "X-Forwarded-For" ≠ canonicalHeaderKey (str "X-Forwarded-Host") := by decide
  have hport : str "X-Forwarded-For" ≠ canonicalHeaderKey (str "X-Forwarded-Port") := by decide
  have hrouter : ∀ e ∈ ext.entries, canonicalHeaderKey e.1 ≠ str "X-Forwarded-For" := by
    intro e he heq
    have hk := hext e.1 (by rw [GoMap.get?_eq_some.mpr he]; rfl)
    rw [← hname] at heq
    rw [equalFold_of_canonicalHeaderKey_eq heq] at hk
    cases hk
  rw [Proxy.injectHeaders_some]
  have hfold := GoMap.get?_foldl_set_of_ne (m := Proxy.injectHeaders header r none)
    (f := canonicalHeaderKey) (g := fun v : GoString => [v]) hrouter
  refine hfold.trans ?_
  unfold Proxy.injectHeaders
  change GoMap.get? (Header.set _ (str "X-Forwarded-Port") _) _ = _
  rw [Header.get?_set, if_neg hport, Header.get?_set, if_neg hhost, Header.get?_set, if_neg hproto,
    Header.get?_set, if_pos hname.symm]

/-- The addresses in that value: those of the first line, and the client. -/
theorem addresses_forwarded (existing : GoString) {ip : GoString} (hip : IsAddress ip) :
    addresses (if existing ≠ [] then existing ++ str ", " ++ ip else ip) =
      addresses existing ++ [ip] := by
  have hsep : str ", " = [Byte.comma, Byte.space] := by decide
  by_cases he : existing = []
  · rw [if_neg (by simp [he]), he, addresses_of_isAddress hip]
    rfl
  · rw [if_pos he, hsep, List.append_assoc]
    change addresses (existing ++ Byte.comma :: Byte.space :: ip) = _
    rw [addresses_append, addresses_blank (by decide), addresses_of_isAddress hip]

theorem forwardedFor_eq (h : Header) :
    forwardedFor h =
      addresses (h.get (str "X-Forwarded-For")) ++
        (forwardedForLines h).tail.flatMap addresses := by
  have hname : canonicalHeaderKey (str "X-Forwarded-For") = str "X-Forwarded-For" := by decide
  unfold forwardedFor forwardedForLines Header.get
  rw [hname]
  cases h.get? (str "X-Forwarded-For") with
  | none => rfl
  | some vv => cases vv <;> rfl

theorem get_forwardedFor_filterKeys (h : Header) :
    Header.get (h.filterKeys fun k => !Proxy.isHopByHop k) (str "X-Forwarded-For") =
      h.get (str "X-Forwarded-For") := by
  have hkeep : Proxy.isHopByHop (canonicalHeaderKey (str "X-Forwarded-For")) = false := by decide
  unfold Header.get
  rw [GoMap.get?_filterKeys, hkeep]
  rfl

/-- **The chain that the backend reads.** Without a router header of that name, the backend reads
the addresses of all lines of the client's `X-Forwarded-For` and then the client's own if, and only
if, there is no address in a line after the first: of several lines only the first is kept. -/
theorem forwardedFor_sent_iff (p : Proxy) (r : Request) {ip port : GoString}
    (haddr : r.remoteAddr = ip ++ Byte.colon :: port) (hport : Byte.colon ∉ port)
    (hip : IsAddress ip) {h : List GwEvent} {P' : Gw Served} (hp : Path (p.serveHTTP r) h P')
    (hrouter : ∀ k, ((routerHeaders h).get? k).isSome →
      equalFold k (str "X-Forwarded-For") = false)
    {header : Header} (hmem : header ∈ sentHeaders h) :
    forwardedFor header = forwardedFor r.header ++ [ip] ↔
      ∀ v ∈ (forwardedForLines r.header).tail, addresses v = [] := by
  obtain ⟨upReq, ans, he, rfl⟩ := exists_of_mem_sentHeaders hmem
  have hpassed : ∀ k, ((p.router.passedOn (routerHeaders h)).get? k).isSome →
      equalFold k (str "X-Forwarded-For") = false := by
    intro k hk
    unfold Router.passedOn at hk
    rw [GoMap.get?_filterKeys] at hk
    split at hk
    · exact hrouter k hk
    · cases hk
  have hsent : forwardedFor upReq.header =
      addresses (r.header.get (str "X-Forwarded-For")) ++ [ip] := by
    unfold forwardedFor forwardedForLines
    rw [roundTrip_header hp he, get?_forwardedFor_injectHeaders _ _ hpassed,
      get_forwardedFor_filterKeys, haddr, clientIP_eq hport, Option.getD_some,
      List.flatMap_singleton, addresses_forwarded _ hip]
  rw [hsent, forwardedFor_eq r.header, List.append_assoc, List.append_cancel_left_eq]
  constructor
  · intro heq
    have hlen := congrArg List.length heq
    rw [List.length_append] at hlen
    have hnil : (forwardedForLines r.header).tail.flatMap addresses = [] :=
      List.eq_nil_of_length_eq_zero (by omega)
    exact List.flatMap_eq_nil_iff.mp hnil
  · intro hall
    rw [List.flatMap_eq_nil_iff.mpr hall]
    rfl

section Samples

def forwardedRequest (vv : List GoString) : Request :=
  { sampleRequest "GET" "/v1/info" "" with
    remoteAddr := str "10.0.0.9:4711"
    header := GoMap.set .empty (str "X-Forwarded-For") vv }

end Samples

theorem forwardedFor_sent_iff_sample :
    let r := forwardedRequest [str "192.0.2.1, 192.0.2.2"]
    let h := routedTrace [] r .empty
    ((sentHeaders h).map forwardedFor =
      [[str "192.0.2.1", str "192.0.2.2", str "10.0.0.9"]]) ∧
      ∀ header ∈ sentHeaders h,
        (forwardedFor header = forwardedFor r.header ++ [str "10.0.0.9"] ↔
          ∀ v ∈ (forwardedForLines r.header).tail, addresses v = []) := by
  constructor
  · decide +kernel
  · intro header hmem
    have hport : Byte.colon ∉ str "4711" := by decide
    have hip : IsAddress (str "10.0.0.9") := ⟨by decide, List.forall_iff_forall_mem.mp (by decide)⟩
    have hnone : (routerHeaders (routedTrace []
        (forwardedRequest [str "192.0.2.1, 192.0.2.2"]) .empty)) = .empty := by decide +kernel
    have hrouter : ∀ k, ((routerHeaders (routedTrace []
        (forwardedRequest [str "192.0.2.1, 192.0.2.2"]) .empty)).get? k).isSome →
        equalFold k (str "X-Forwarded-For") = false := by
      rw [hnone]
      intro k hk
      cases hk
    exact forwardedFor_sent_iff (routedProxy []) (forwardedRequest [str "192.0.2.1, 192.0.2.2"])
      (by decide) hport hip (runs_trace _ _) hrouter hmem

/-- Two lines: the address in the second one is lost. -/
theorem second_line_lost :
    let r := forwardedRequest [str "192.0.2.1", str "192.0.2.2"]
    let h := routedTrace [] r .empty
    Runs ((routedProxy []).serveHTTP r) h .done ∧
      forwardedFor r.header = [str "192.0.2.1", str "192.0.2.2"] ∧
      (sentHeaders h).map forwardedFor = [[str "192.0.2.1", str "10.0.0.9"]] := by
  constructor
  · exact runs_trace _ _
  · decide +kernel

end TrinoGoway
