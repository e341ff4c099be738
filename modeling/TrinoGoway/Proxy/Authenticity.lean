import TrinoGoway.Go.JsonExact
import TrinoGoway.Proxy.Cookie

/-! The cookies that pass the check are those that were issued. -/
namespace TrinoGoway.Proxy

open Go Go.Json Go.JsonText

/-! ### The text that is signed -/

def nullable (s : Option GoString) : Doc ℤ := s.elim .null .string

def strings (l : Option (List GoString)) : Doc ℤ := l.elim .null fun l => .array (l.map .string)

/-- The members are in the order of the fields, which is that of their names; `GatewayCookie` has
its signature among them. -/
def UnsignedGatewayCookie.members (u : UnsignedGatewayCookie)
    (signature : List (GoString × Doc ℤ)) : List (GoString × Doc ℤ) :=
  [(str "backend", nullable u.backend), (str "deletePaths", strings u.deletePaths),
    (str "name", .string u.name), (str "payload", nullable u.payload),
    (str "priority", .number u.priority), (str "routingPaths", strings u.routingPaths)] ++
  (signature ++ [(str "ts", .number u.ts), (str "ttl", .string u.ttl)])

def UnsignedGatewayCookie.marshal (u : UnsignedGatewayCookie) : GoString :=
  JsonText.marshal integers (.object (u.members []))

def GatewayCookie.marshal (gc : GatewayCookie) : GoString :=
  JsonText.marshal integers (.object (gc.members [(str "signature", .string gc.signature)]))

example : UnsignedGatewayCookie.marshal ⟨none, some [str "/logout", []], str "TG", some [], -1,
    some [], 20, str "10m"⟩ = str ("\x7b\"backend\":null,\"deletePaths\":[\"/logout\",\"\"]," ++
      "\"name\":\"TG\",\"payload\":\"\",\"priority\":-1,\"routingPaths\":[],\"ts\":20," ++
      "\"ttl\":\"10m\"\x7d") := by
  decide +kernel

structure UnsignedGatewayCookie.Valid (u : UnsignedGatewayCookie) : Prop where
  backend : ∀ s ∈ u.backend, validString s
  deletePaths : ∀ l ∈ u.deletePaths, ∀ s ∈ l, validString s
  name : validString u.name
  payload : ∀ s ∈ u.payload, validString s
  routingPaths : ∀ l ∈ u.routingPaths, ∀ s ∈ l, validString s
  ttl : validString u.ttl

theorem readable_nullable {s : Option GoString} (h : ∀ t ∈ s, validString t) :
    Readable integers (nullable s) := by
  cases s with
  | none => exact .null
  | some t => exact .string (h t rfl)

theorem readable_strings {l : Option (List GoString)} (h : ∀ ss ∈ l, ∀ s ∈ ss, validString s) :
    Readable integers (strings l) := by
  cases l with
  | none => exact .null
  | some ss =>
    refine .array fun x hx => ?_
    obtain ⟨s, hs, rfl⟩ := List.mem_map.mp hx
    exact .string (h ss rfl s hs)

theorem nullable_injective : nullable.Injective := by
  rintro (_ | s) (_ | s') h
  · rfl
  · cases h
  · cases h
  · rw [Doc.string.inj h]

theorem strings_injective : strings.Injective := by
  rintro (_ | l) (_ | l') h
  · rfl
  · cases h
  · cases h
  · have hmap : l.map Doc.string = l'.map Doc.string := Doc.array.inj h
    rw [List.map_injective_iff.mpr (fun _ _ => Doc.string.inj) hmap]

theorem readable_members {u : UnsignedGatewayCookie} {signature : List (GoString × Doc ℤ)}
    (h : u.Valid) (hsig : ∀ m ∈ signature, Readable integers m.2) :
    ∀ m ∈ u.members signature, Readable integers m.2 := by
  have hnil : ∀ m ∈ ([] : List (GoString × Doc ℤ)), Readable integers m.2 :=
    fun m hm => absurd hm List.not_mem_nil
  simp only [UnsignedGatewayCookie.members, List.forall_mem_append, List.forall_mem_cons]
  exact ⟨⟨readable_nullable h.backend, readable_strings h.deletePaths, .string h.name,
    readable_nullable h.payload, .number (literalDoc_formatInt _), readable_strings h.routingPaths,
    hnil⟩, hsig, .number (literalDoc_formatInt _), .string h.ttl, hnil⟩

theorem members_injective {u u' : UnsignedGatewayCookie} {signature signature' : List _}
    (hlen : signature.length = signature'.length)
    (h : u.members signature = u'.members signature') :
    u = u' ∧ signature = signature' := by
  obtain ⟨hhead, htail⟩ := List.append_inj h rfl
  obtain ⟨hsig, htail⟩ := List.append_inj htail hlen
  simp only [List.cons.injEq, Prod.mk.injEq, true_and, and_true, Doc.string.injEq,
    Doc.number.injEq, nullable_injective.eq_iff, strings_injective.eq_iff] at hhead htail
  cases u
  cases u'
  simp_all

theorem marshal_injective {u u' : UnsignedGatewayCookie} (hu : u.Valid) (hu' : u'.Valid)
    (h : u.marshal = u'.marshal) : u = u' := by
  have hreadable : ∀ v : UnsignedGatewayCookie, v.Valid →
      Readable integers (.object (v.members [])) := fun v hv =>
    .of_names [str "backend", str "deletePaths", str "name", str "payload", str "priority",
      str "routingPaths", str "ts", str "ttl"] rfl (by decide) (by decide)
      (readable_members hv fun m hm => absurd hm List.not_mem_nil)
  have hdoc := (hreadable u hu).eq_of_marshal (hreadable u' hu') h
  exact (members_injective rfl (Doc.object.inj hdoc)).1

theorem signed_marshal_injective {gc gc' : GatewayCookie} (hgc : gc.toUnsignedGatewayCookie.Valid)
    (hgc' : gc'.toUnsignedGatewayCookie.Valid) (hsig : validString gc.signature)
    (hsig' : validString gc'.signature) (h : gc.marshal = gc'.marshal) : gc = gc' := by
  have hreadable : ∀ c : GatewayCookie, c.toUnsignedGatewayCookie.Valid →
      validString c.signature →
      Readable integers (.object (c.members [(str "signature", .string c.signature)])) :=
    fun c hc hs => .of_names [str "backend", str "deletePaths", str "name", str "payload",
      str "priority", str "routingPaths", str "signature", str "ts", str "ttl"] rfl (by decide)
      (by decide) (readable_members hc (List.forall_mem_singleton.mpr (.string hs)))
  have hdoc := (hreadable gc hgc hsig).eq_of_marshal (hreadable gc' hgc' hsig') h
  obtain ⟨hpayload, hsignature⟩ := members_injective (by rfl) (Doc.object.inj hdoc)
  cases gc
  cases gc'
  simp_all

/-! ### The codec -/

def airliftUnits : List (ℤ × GoString) :=
  [(86400000000000, str "d"), (3600000000000, str "h"), (60000000000, str "m"),
    (1000000000, str "s"), (1000000, str "ms"), (1000, str "us"), (1, str "ns")]

/-- `airliftDurationString`, where `fixed` prints a quotient with two digits. In `float64` a
quotient by one of these units is at least one exactly if the duration is at least the unit. -/
def airliftDurationString (fixed : ℤ → ℤ → GoString) (d : Duration) : GoString :=
  match airliftUnits.find? fun u => u.1 ≤ d with
  | some u => fixed d u.1 ++ u.2
  | none => fixed d 1 ++ str "ns"

structure Primitives where
  /-- HMAC-SHA256 -/
  hmac : (secret message : GoString) → GoString
  /-- `base64.URLEncoding` with the padding, `base64.RawURLEncoding` without -/
  encodeBase64 : (padding : Bool) → GoString → GoString
  decodeBase64 : (padding : Bool) → GoString → Option GoString
  unmarshal : GoString → Option GatewayCookie
  /-- what is not UTF-8 in a text is replaced -/
  unmarshal_valid : ∀ raw gc, unmarshal raw = some gc → gc.toUnsignedGatewayCookie.Valid
  /-- `fmt.Sprintf("%.2f", x/y)` -/
  fixed : ℤ → ℤ → GoString
  fixed_ascii : ∀ x y, ∀ c ∈ fixed x y, c < 0x80
  parseTTL : GoString → Duration

def Primitives.codec (p : Primitives) : CookieCodec where
  sign secret u := hexEncode (p.hmac secret u.marshal)
  encode wireCompat gc := p.encodeBase64 wireCompat gc.marshal
  decode wireCompat value := (p.decodeBase64 wireCompat value).bind p.unmarshal
  formatTTL wireCompat d := if wireCompat then airliftDurationString p.fixed d else formatInt d
  parseTTL := p.parseTTL

theorem validString_formatTTL (p : Primitives) (wireCompat : Bool) (d : Duration) :
    validString (p.codec.formatTTL wireCompat d) := by
  apply validString_of_ascii
  have hunits : (airliftUnits.all fun u => u.2.all (· < 0x80)) = true := by decide
  have hunit : ∀ u ∈ airliftUnits, ∀ c ∈ u.2, c < 0x80 := by
    intro u hu c hc
    exact of_decide_eq_true (List.all_eq_true.mp (List.all_eq_true.mp hunits u hu) c hc)
  change ∀ c ∈ if wireCompat then airliftDurationString p.fixed d else formatInt d, c < 0x80
  split
  · unfold airliftDurationString
    split
    · rename_i u hu
      exact List.forall_mem_append.mpr
        ⟨p.fixed_ascii _ _, hunit u (List.mem_of_find?_eq_some hu)⟩
    · exact List.forall_mem_append.mpr
        ⟨p.fixed_ascii _ _, hunit (1, str "ns") (by simp [airliftUnits])⟩
  · exact ascii_formatInt d

/-! ### Issued and accepted cookies -/

structure Issue where
  ttl : Duration
  wireCompat : Bool
  backendURL : GoString
  now : Time

def Issue.cookie (p : Primitives) (secret : GoString) (i : Issue) : GatewayCookie :=
  newCookie p.codec ⟨secret, i.ttl, i.wireCompat⟩ i.backendURL i.now

theorem valid_cookie (p : Primitives) (secret : GoString) {i : Issue}
    (h : validString i.backendURL) :
    (i.cookie p secret).toUnsignedGatewayCookie.Valid where
  backend s hs := by
    obtain rfl := Option.some.inj hs
    exact h
  deletePaths l hl := by
    obtain rfl := Option.some.inj hl
    decide
  name := (by decide : validString cookieName)
  payload := nofun
  routingPaths l hl := by
    obtain rfl := Option.some.inj hl
    decide
  ttl := validString_formatTTL p i.wireCompat i.ttl

/-- HMAC is ideal for a signature: it is valid only for texts that the gateway has signed. -/
def Unforged (p : Primitives) (secret : GoString) (issued : Set Issue) (signature : GoString) :
    Prop :=
  ∀ message, hexEncode (p.hmac secret message) = signature →
    ∃ i ∈ issued, message = (i.cookie p secret).toUnsignedGatewayCookie.marshal

/-- **Accepted cookies are authentic.** A value that is not reported as tampered decodes to the
payload of an issued cookie; one that cannot be decoded, or decodes to another payload, is
reported as tampered. -/
theorem accepted_authentic (p : Primitives) (cfg : CookieConfig) {issued : Set Issue}
    (hissued : ∀ i ∈ issued, validString i.backendURL) (value : GoString) (now : Time)
    (hideal : ∀ gc, p.codec.decode cfg.wireCompat value = some gc →
      Unforged p cfg.secret issued gc.signature) :
    (validateCookie p.codec cfg value now ≠ .tampered →
      ∃ gc, p.codec.decode cfg.wireCompat value = some gc ∧ ∃ i ∈ issued,
        gc.toUnsignedGatewayCookie = (i.cookie p cfg.secret).toUnsignedGatewayCookie) ∧
    ((∀ gc, p.codec.decode cfg.wireCompat value = some gc → ∀ i ∈ issued,
        gc.toUnsignedGatewayCookie ≠ (i.cookie p cfg.secret).toUnsignedGatewayCookie) →
      validateCookie p.codec cfg value now = .tampered) := by
  have haccepted : validateCookie p.codec cfg value now ≠ .tampered →
      ∃ gc, p.codec.decode cfg.wireCompat value = some gc ∧ ∃ i ∈ issued,
        gc.toUnsignedGatewayCookie = (i.cookie p cfg.secret).toUnsignedGatewayCookie := by
    intro hnot
    unfold validateCookie at hnot
    cases hdecode : p.codec.decode cfg.wireCompat value with
    | none =>
      rw [hdecode] at hnot
      exact absurd rfl hnot
    | some gc =>
      refine ⟨gc, rfl, ?_⟩
      obtain ⟨raw, -, hraw⟩ := Option.bind_eq_some_iff.mp hdecode
      have hsign : p.codec.sign cfg.secret gc.toUnsignedGatewayCookie = gc.signature := by
        by_contra hne
        simp only [hdecode, if_pos hne] at hnot
        exact hnot rfl
      obtain ⟨i, hi, hmarshal⟩ := hideal gc hdecode _ hsign
      refine ⟨i, hi, ?_⟩
      exact marshal_injective (p.unmarshal_valid raw gc hraw)
        (valid_cookie p cfg.secret (hissued i hi)) hmarshal
  refine ⟨haccepted, ?_⟩
  intro hother
  by_contra hnot
  obtain ⟨gc, hdecode, i, hi, heq⟩ := haccepted hnot
  exact hother gc hdecode i hi heq

section Samples

private def sampleConfig : CookieConfig := ⟨str "secret", 600000000000, false⟩

private def sampleIssue : Issue := ⟨600000000000, false, str "http://etl", Time.ofUnixMilli 0⟩

private def sampleToken : GatewayCookie :=
  let unsigned : UnsignedGatewayCookie :=
    { backend := some (str "http://etl")
      deletePaths := some [str "/logout", str "/oauth2/logout"]
      name := cookieName
      payload := none
      priority := 0
      routingPaths := some [str "/oauth2", str "/logout", str "/oauth2/logout"]
      ts := (Time.ofUnixMilli 0).unixMilli
      ttl := formatInt 600000000000 }
  { unsigned with signature := hexEncode (str "secret" ++ unsigned.marshal) }

private theorem valid_sampleToken : sampleToken.toUnsignedGatewayCookie.Valid where
  backend s hs := by
    obtain rfl := Option.some.inj hs
    decide
  deletePaths l hl := by
    obtain rfl := Option.some.inj hl
    decide
  name := (by decide : validString cookieName)
  payload := nofun
  routingPaths l hl := by
    obtain rfl := Option.some.inj hl
    decide
  ttl := validString_of_ascii (ascii_formatInt 600000000000)

private def samplePrimitives : Primitives where
  hmac secret message := secret ++ message
  encodeBase64 _ s := s
  decodeBase64 _ s := some s
  unmarshal raw := if raw = str "token" then some sampleToken else none
  unmarshal_valid raw gc h := by
    obtain ⟨-, hgc⟩ := Option.ite_none_right_eq_some.mp h
    obtain rfl := Option.some.inj hgc
    exact valid_sampleToken
  fixed _ _ := []
  fixed_ascii _ _ _ h := absurd h List.not_mem_nil
  parseTTL _ := 600000000000

end Samples

theorem accepted_authentic_sample :
    validateCookie samplePrimitives.codec sampleConfig (str "token") (Time.ofUnixMilli 1000) ≠
        .tampered ∧
      ∃ gc, samplePrimitives.codec.decode false (str "token") = some gc ∧
        ∃ i ∈ ({sampleIssue} : Set Issue), gc.toUnsignedGatewayCookie =
          (i.cookie samplePrimitives (str "secret")).toUnsignedGatewayCookie := by
  have hissued : ∀ i ∈ ({sampleIssue} : Set Issue), validString i.backendURL := by
    rintro i rfl
    decide
  have hideal : ∀ gc,
      samplePrimitives.codec.decode sampleConfig.wireCompat (str "token") = some gc →
      Unforged samplePrimitives sampleConfig.secret {sampleIssue} gc.signature := by
    intro gc hgc message htag
    obtain rfl := Option.some.inj hgc
    exact ⟨sampleIssue, rfl, List.append_cancel_left (hexEncode_injective htag)⟩
  have hvalid : validateCookie samplePrimitives.codec sampleConfig (str "token")
      (Time.ofUnixMilli 1000) = .valid [str "/logout", str "/oauth2/logout"] := by
    have hsign : samplePrimitives.codec.sign sampleConfig.secret
        sampleToken.toUnsignedGatewayCookie = sampleToken.signature := rfl
    have hdecode : samplePrimitives.codec.decode sampleConfig.wireCompat (str "token") =
        some sampleToken := rfl
    unfold validateCookie
    rw [hdecode]
    dsimp only
    rw [if_neg (not_not.mpr hsign)]
    rfl
  have hnot : validateCookie samplePrimitives.codec sampleConfig (str "token")
      (Time.ofUnixMilli 1000) ≠ .tampered := by
    rw [hvalid]
    nofun
  exact ⟨hnot, (accepted_authentic samplePrimitives sampleConfig hissued (str "token")
    (Time.ofUnixMilli 1000) hideal).1 hnot⟩

end TrinoGoway.Proxy
