import TrinoGoway.DiffHarness.Diff
import TrinoGoway.Go.JsonDoc

/-! `diffharness.Normalize`: what the policy of a scenario takes out of a response before it is
compared or recorded. -/
namespace TrinoGoway.DiffHarness

open Go Go.Http Go.Json Go.JsonText

def hostNormalizationToken : GoString := str "<GATEWAY>"

section Normalize

variable {ν : Type} (F : Floats ν)

mutual

def deleteJSONPath : Doc ν → List GoString → Doc ν
  | node, [] => node
  | .array items, path => .array (deleteInItems items path)
  | .object members, [key] => .object (members.filter fun m => m.1 ≠ key)
  | .object members, key :: path => .object (deleteInMembers members key path)
  | node, _ => node

def deleteInItems : List (Doc ν) → List GoString → List (Doc ν)
  | [], _ => []
  | x :: xs, path => deleteJSONPath x path :: deleteInItems xs path

def deleteInMembers : List (GoString × Doc ν) → GoString → List GoString →
    List (GoString × Doc ν)
  | [], _, _ => []
  | (name, x) :: ms, key, path =>
    (name, if name = key then deleteJSONPath x path else x) :: deleteInMembers ms key path

end

def stripJSONFields (body : GoString) (fields : List GoString) : GoString :=
  if body = [] then body
  else
    match unmarshal F body with
    | none => body
    | some doc =>
      marshal F (fields.foldl (fun doc field => deleteJSONPath doc (split Byte.period field)) doc)

/-- The host and port of the gateway out of the headers and the body. -/
def rewriteHost (policy : DiffPolicy) (gatewayHost : GoString) (headers : Header)
    (body : GoString) : Header × GoString :=
  if policy.rewriteHostPort ∧ gatewayHost ≠ [] then
    (headers.mapVals (List.map fun v => replaceAll v gatewayHost hostNormalizationToken),
      replaceAll body gatewayHost hostNormalizationToken)
  else (headers, body)

def normalize (r : Response) (policy : DiffPolicy) (gatewayHost : GoString) : Response :=
  let headers := policy.ignoreHeaders.foldl Header.del r.headers
  let (headers, body) := rewriteHost policy gatewayHost headers r.body
  { statusCode := r.statusCode
    headers
    body :=
      if policy.ignoreBodyFields ≠ [] then stripJSONFields F body policy.ignoreBodyFields
      else body }

/-! ### Texts stay texts -/

def HeadersAreText (h : Header) : Prop :=
  ∀ e ∈ h.entries, validString e.1 ∧ ∀ v ∈ e.2, validString v

def Response.IsText (r : Response) : Prop := HeadersAreText r.headers ∧ validString r.body

theorem HeadersAreText.del {h : Header} (hh : HeadersAreText h) (name : GoString) :
    HeadersAreText (h.del name) :=
  fun e he => hh e (List.mem_of_mem_filter he)

theorem HeadersAreText.mapVals {h : Header} (hh : HeadersAreText h) {f : GoString → GoString}
    (hf : ∀ v, validString v → validString (f v)) : HeadersAreText (h.mapVals (List.map f)) := by
  intro e he
  obtain ⟨e', he', rfl⟩ := List.mem_map.mp he
  obtain ⟨hname, hvalues⟩ := hh e' he'
  refine ⟨hname, List.forall_mem_map.mpr ?_⟩
  exact fun v hv => hf v (hvalues v hv)

theorem validString_token : validString hostNormalizationToken := by decide +kernel

/-- What is stripped is valid JSON; everything else is left as it is. -/
theorem stripJSONFields_cases (body : GoString) (fields : List GoString) :
    stripJSONFields F body fields = body ∨ valid (stripJSONFields F body fields) = true := by
  unfold stripJSONFields
  split
  · exact .inl rfl
  · cases unmarshal F body with
    | none => exact .inl rfl
    | some doc => exact .inr (valid_marshal F _)

theorem rewriteHost_isText {policy : DiffPolicy} {host : GoString}
    (hhost : policy.rewriteHostPort → validString host) {h : Header} (hh : HeadersAreText h)
    {body : GoString} (hbody : validString body) :
    HeadersAreText (rewriteHost policy host h body).1 ∧
      validString (rewriteHost policy host h body).2 := by
  unfold rewriteHost
  split
  · rename_i hrewrite
    have hreplace : ∀ v, validString v → validString (replaceAll v host hostNormalizationToken) :=
      fun v hv => validString_replaceAll _ (hhost hrewrite.1) hrewrite.2 hv validString_token
    exact ⟨hh.mapVals hreplace, hreplace _ hbody⟩
  · exact ⟨hh, hbody⟩

theorem normalize_isText {r : Response} (hr : r.IsText) {policy : DiffPolicy} {host : GoString}
    (hhost : policy.rewriteHostPort → validString host) :
    HeadersAreText (normalize F r policy host).headers ∧
      (validString (normalize F r policy host).body ∨
        valid (normalize F r policy host).body = true) := by
  have hdel : HeadersAreText (policy.ignoreHeaders.foldl Header.del r.headers) :=
    List.foldlRecOn _ _ hr.1 fun h hh name _ => hh.del name
  obtain ⟨hheaders, hbody⟩ := rewriteHost_isText hhost hdel hr.2
  refine ⟨hheaders, ?_⟩
  dsimp only [normalize]
  split
  · rcases stripJSONFields_cases F _ policy.ignoreBodyFields with h | h
    · rw [h]
      exact .inl hbody
    · exact .inr h
  · exact .inl hbody

end Normalize

end TrinoGoway.DiffHarness
