import TrinoGoway.DiffHarness.Fields
import TrinoGoway.DiffHarness.Runner
import TrinoGoway.Go.JsonNumber

/-! What a passed comparison says about numbers. The bodies are compared as documents of `float64`,
so numbers that round to the same `float64` are not told apart. -/
namespace TrinoGoway.DiffHarness

open Go Go.Http Go.JsonText

/-! ### Pruning and the numbers -/

section Prune

variable {ν κ : Type}

mutual

theorem map_prune (f : ν → κ) (gone : List GoString → Bool) :
    ∀ x : Doc ν, (prune gone x).map f = prune gone (x.map f)
  | .null => by simp [prune, Doc.map]
  | .bool b => by simp [prune, Doc.map]
  | .number x => by simp [prune, Doc.map]
  | .string s => by simp [prune, Doc.map]
  | .array items => by
    rw [prune, Doc.map, Doc.map, prune, map_pruneItems f gone items]
  | .object members => by
    rw [prune, Doc.map, Doc.map, prune, map_pruneMembers f gone members]

theorem map_pruneItems (f : ν → κ) (gone : List GoString → Bool) :
    ∀ xs : List (Doc ν), mapItems f (pruneItems gone xs) = pruneItems gone (mapItems f xs)
  | [] => by rw [pruneItems, mapItems, pruneItems]
  | x :: xs => by
    rw [pruneItems, mapItems, mapItems, pruneItems, map_prune f gone x, map_pruneItems f gone xs]

theorem map_pruneMembers (f : ν → κ) (gone : List GoString → Bool) :
    ∀ ms : List (GoString × Doc ν),
      mapMembers f (pruneMembers gone ms) = pruneMembers gone (mapMembers f ms)
  | [] => by rw [pruneMembers, mapMembers, pruneMembers]
  | (name, x) :: ms => by
    rw [mapMembers, pruneMembers, pruneMembers]
    split_ifs
    · exact map_pruneMembers f gone ms
    · rw [mapMembers, map_prune f _ x, map_pruneMembers f gone ms]

end

theorem map_stripFields (f : ν → κ) (fields : List GoString) (x : Doc ν) :
    (stripFields fields x).map f = stripFields fields (x.map f) := by
  rw [stripFields_eq_prune, stripFields_eq_prune, map_prune]

theorem exists_of_mem_pruneMembers {gone : List GoString → Bool} {ms : List (GoString × Doc ν)}
    {m : GoString × Doc ν} (h : m ∈ pruneMembers gone ms) :
    ∃ m' ∈ ms, m.1 = m'.1 ∧ m.2 = prune (fun ks => gone (m'.1 :: ks)) m'.2 := by
  induction ms with
  | nil =>
    rw [pruneMembers] at h
    cases h
  | cons e ms ih =>
    obtain ⟨name, x⟩ := e
    have hrest : m ∈ pruneMembers gone ms → ∃ m' ∈ (name, x) :: ms,
        m.1 = m'.1 ∧ m.2 = prune (fun ks => gone (m'.1 :: ks)) m'.2 := by
      intro h
      obtain ⟨m', hm', heq⟩ := ih h
      exact ⟨m', List.mem_cons_of_mem _ hm', heq⟩
    rw [pruneMembers] at h
    split_ifs at h
    · exact hrest h
    · rcases List.mem_cons.mp h with rfl | h
      · exact ⟨(name, x), List.mem_cons_self, rfl, rfl⟩
      · exact hrest h

theorem increasing_pruneMembers (gone : List GoString → Bool) {ms : List (GoString × Doc ν)}
    (h : Increasing ms) : Increasing (pruneMembers gone ms) := by
  induction ms with
  | nil =>
    rw [pruneMembers]
    exact h
  | cons e ms ih =>
    obtain ⟨name, x⟩ := e
    obtain ⟨hname, hms⟩ := List.pairwise_cons.mp h
    rw [pruneMembers]
    split_ifs
    · exact ih hms
    · refine List.pairwise_cons.mpr ⟨?_, ih hms⟩
      intro m hm
      obtain ⟨m', hm', heq, -⟩ := exists_of_mem_pruneMembers hm
      rw [heq]
      exact hname m' hm'

variable {F : Floats ν}

theorem readable_prune {x : Doc ν} (h : Readable F x) (gone : List GoString → Bool) :
    Readable F (prune gone x) := by
  induction h generalizing gone with
  | null => simpa [prune] using Readable.null
  | bool b => simpa [prune] using Readable.bool b
  | number hx => simpa [prune] using Readable.number hx
  | string hs => simpa [prune] using Readable.string hs
  | array _ ih =>
    rw [prune, pruneItems_eq]
    exact .array (List.forall_mem_map.mpr fun x hx => ih x hx gone)
  | object hinc hnames _ ih =>
    rw [prune]
    refine .object (increasing_pruneMembers gone hinc) (fun m hm => ?_) fun m hm => ?_
    · obtain ⟨m', hm', hname, -⟩ := exists_of_mem_pruneMembers hm
      rw [hname]
      exact hnames m' hm'
    · obtain ⟨m', hm', -, hvalue⟩ := exists_of_mem_pruneMembers hm
      rw [hvalue]
      exact ih m' hm' _

end Prune

/-! ### Normalised bodies -/

section Bodies

variable {ν : Type} {F : Floats ν} (policy : DiffPolicy) (host : GoString) (r : Response)

/-- The headers and the body before fields are taken out of it. -/
def hostless : Header × GoString :=
  rewriteHost policy host (policy.ignoreHeaders.foldl Header.del r.headers) r.body

variable {policy host r}

theorem body_normalize_of_none (h : unmarshal F (hostless policy host r).2 = none) :
    (normalize F r policy host).body = (hostless policy host r).2 := by
  have hstrip : stripJSONFields F (hostless policy host r).2 policy.ignoreBodyFields =
      (hostless policy host r).2 := by
    rw [stripJSONFields]
    split
    · rfl
    · rw [h]
  show (if policy.ignoreBodyFields ≠ [] then
    stripJSONFields F (hostless policy host r).2 policy.ignoreBodyFields
      else (hostless policy host r).2) = (hostless policy host r).2
  rw [hstrip, ite_self]

/-- A normalised body is read as the document without the ignored fields. -/
theorem unmarshal_normalize (hF : Rereads F) {x : Doc ν}
    (h : unmarshal F (hostless policy host r).2 = some x) :
    unmarshal F (normalize F r policy host).body =
      some (stripFields policy.ignoreBodyFields x) := by
  show unmarshal F (if policy.ignoreBodyFields ≠ [] then
    stripJSONFields F (hostless policy host r).2 policy.ignoreBodyFields
      else (hostless policy host r).2) = some (stripFields policy.ignoreBodyFields x)
  split_ifs with hfields
  · rw [stripJSONFields_eq F h, stripFields_eq_prune]
    exact (readable_prune (readable_unmarshal hF h) _).unmarshal_marshal
  · rw [h, not_not.mp hfields]
    rfl

variable [Setoid (Doc ν)] {javaHost goHost : GoString} {java goResp : Response}

theorem sameBody_normalize_of_none (hF : Rereads F)
    (h : unmarshal F (hostless policy javaHost java).2 = none) :
    SameBody (unmarshal F) (normalize F java policy javaHost).body
        (normalize F goResp policy goHost).body ↔
      (hostless policy javaHost java).2 = (hostless policy goHost goResp).2 := by
  rw [body_normalize_of_none h, sameBody_of_none h]
  cases h' : unmarshal F (hostless policy goHost goResp).2 with
  | none => rw [body_normalize_of_none h']
  | some d' =>
    have hnormal := unmarshal_normalize hF h'
    constructor
    · intro heq
      rw [← heq, h] at hnormal
      cases hnormal
    · intro heq
      rw [← heq, h] at h'
      cases h'

theorem sameBody_normalize_of_some (hF : Rereads F) {d : Doc ν}
    (h : unmarshal F (hostless policy javaHost java).2 = some d) :
    SameBody (unmarshal F) (normalize F java policy javaHost).body
        (normalize F goResp policy goHost).body ↔
      ∃ d', unmarshal F (hostless policy goHost goResp).2 = some d' ∧
        stripFields policy.ignoreBodyFields d ≈ stripFields policy.ignoreBodyFields d' := by
  rw [sameBody_of_some (unmarshal_normalize hF h), ReadsAs]
  cases h' : unmarshal F (hostless policy goHost goResp).2 with
  | none =>
    rw [body_normalize_of_none h', h']
    simp
  | some d' =>
    rw [unmarshal_normalize hF h']
    simp

end Bodies

/-! ### The comparison -/

/-- Documents that `cmp.Diff` does not tell apart: `float64` are compared with `==`, for which the
two zeros are equal. -/
instance : Setoid (Doc Float64) := Setoid.comap (Doc.map Float64.value) ⟨Eq, eq_equivalence⟩

theorem equiv_iff {x y : Doc Float64} : x ≈ y ↔ x.map Float64.value = y.map Float64.value := Iff.rfl

def exactNumbers (x : Doc Numeral) : Doc ℚ := x.map Numeral.value

def roundedNumbers (x : Doc Numeral) : Doc ℚ := x.map (Binary64.round ∘ Numeral.value)

section Compare

variable {F : Floats Float64} {policy : DiffPolicy} {javaHost goHost : GoString}
  {java goResp : Response} {s s' : JTree} {x y : Doc Numeral}

/-- The document that is compared, in exact numbers. -/
theorem value_stripFields (hs : s.WF) (hparse : F.parse = parseFloat) {d : Doc Float64}
    (hx : s.doc numerals = some x) (hd : s.doc F = some d) (fields : List GoString) :
    (stripFields fields d).map Float64.value = roundedNumbers (stripFields fields x) := by
  rw [map_stripFields, hs.map_value hparse hx hd, roundedNumbers, map_stripFields]

/-- What is compared are the rounded numbers, or the texts if a number is out of range. -/
theorem sameBody_normalize_iff (hparse : F.parse = parseFloat) (hF : Rereads F)
    (hs : readText (hostless policy javaHost java).2 = some s)
    (hs' : readText (hostless policy goHost goResp).2 = some s')
    (hx : s.doc numerals = some x) (hy : s'.doc numerals = some y) :
    SameBody (unmarshal F) (normalize F java policy javaHost).body
        (normalize F goResp policy goHost).body ↔
      (s.InRange ∧ s'.InRange ∧
        roundedNumbers (stripFields policy.ignoreBodyFields x) =
          roundedNumbers (stripFields policy.ignoreBodyFields y)) ∨
      (¬s.InRange ∧ (hostless policy javaHost java).2 = (hostless policy goHost goResp).2) := by
  have hread : unmarshal F (hostless policy javaHost java).2 = s.doc F := by
    rw [unmarshal, hs, Option.bind_some]
  have hread' : unmarshal F (hostless policy goHost goResp).2 = s'.doc F := by
    rw [unmarshal, hs', Option.bind_some]
  rw [← s.isSome_doc_iff_inRange hparse, ← s'.isSome_doc_iff_inRange hparse]
  cases hdoc : s.doc F with
  | none =>
    rw [sameBody_normalize_of_none hF (hread.trans hdoc)]
    simp
  | some d =>
    rw [sameBody_normalize_of_some hF (hread.trans hdoc), hread']
    cases hdoc' : s'.doc F with
    | none => simp
    | some d' =>
      have hvalue := value_stripFields (wf_of_readText hs) hparse hx hdoc policy.ignoreBodyFields
      have hvalue' :=
        value_stripFields (wf_of_readText hs') hparse hy hdoc' policy.ignoreBodyFields
      rw [← hvalue, ← hvalue', ← equiv_iff]
      simp

end Compare

/-! ### Answers with a count -/

def IsWhole (x : Float64) : Prop := ∃ n : ℕ, n ≤ 2 ^ 53 ∧ x = ⟨n, false⟩

open Classical in
/-- A whole number is written as it is; for another one, this is some literal that is read back. -/
noncomputable def written (x : Float64) : GoString :=
  if IsWhole x then Json.formatNat x.value.num.toNat
  else if h : ∃ raw, IsLiteral raw ∧ IsNumber raw ∧ parseFloat raw = some x then h.choose
  else Json.formatNat 0

theorem isLiteral_formatNat (n : ℕ) : IsLiteral (Json.formatNat n) := isLiteral_formatInt n

theorem isNumber_formatNat (n : ℕ) : IsNumber (Json.formatNat n) := by
  obtain ⟨c, t, hcons, hdigit⟩ := Json.formatNat_cons n
  have hhead : ∀ d : UInt8, Byte.isDigit d = false → (Json.formatNat n).head? ≠ some d := by
    intro d hd heq
    rw [hcons] at heq
    obtain rfl := Option.some.inj heq
    rw [hdigit] at hd
    cases hd
  refine ⟨hhead 34 rfl, ?_, ?_, ?_⟩
  · exact fun heq => hhead 116 rfl (by rw [heq]; rfl)
  · exact fun heq => hhead 102 rfl (by rw [heq]; rfl)
  · exact fun heq => hhead 110 rfl (by rw [heq]; rfl)

theorem written_natCast {n : ℕ} (hn : n ≤ 2 ^ 53) :
    written ⟨n, false⟩ = Json.formatNat n := by
  rw [written, if_pos ⟨n, hn, rfl⟩]
  rfl

noncomputable def writtenFloats : Floats Float64 where
  parse := parseFloat
  format := written
  isLiteral_format x := by
    rw [written]
    split_ifs with hnat h
    · exact isLiteral_formatNat _
    · exact h.choose_spec.1
    · exact isLiteral_formatNat 0

theorem writtenFloats_format (x : Float64) : writtenFloats.format x = written x := rfl

theorem rereads_writtenFloats : Rereads writtenFloats := by
  intro raw x hraw hx
  have h : ∃ raw, IsLiteral raw ∧ IsNumber raw ∧ parseFloat raw = some x :=
    ⟨raw, hraw, literalDoc_eq_number _ hx⟩
  obtain ⟨hnum, hread⟩ :
      IsNumber (writtenFloats.format x) ∧ parseFloat (writtenFloats.format x) = some x := by
    by_cases hwhole : IsWhole x
    · obtain ⟨n, hn, rfl⟩ := hwhole
      rw [writtenFloats_format, written_natCast hn]
      exact ⟨isNumber_formatNat n, parseFloat_formatNat hn⟩
    · rw [writtenFloats_format, written, if_neg hwhole, dif_pos h]
      exact h.choose_spec.2
  rw [literalDoc_number _ hnum]
  exact congrArg (Option.map Doc.number) hread

open Classical in
noncomputable def floatCmp : Cmp (Doc Float64) where
  texts := plainCmp.texts
  docs x y := if x ≈ y then [] else str "differ"
  texts_eq_nil := plainCmp.texts_eq_nil
  docs_eq_nil x y := by
    rw [ite_eq_left_iff, not_imp_comm]
    exact ⟨fun h => h (by decide), fun h _ => h⟩

def countTree (count time : Numeral) : JTree :=
  .node .object [(str "\"count\"", .literal count.raw), (str "\"time\"", .literal time.raw)]

def countResponse (count time : Numeral) : Response :=
  ⟨200, .empty, (countTree count time).print compact 0⟩

def ignoreTime : DiffPolicy := { ignoreBodyFields := [str "time"] }

noncomputable def countVerdict (java goResp : Response) : Verdict :=
  (diff (unmarshal writtenFloats) floatCmp (normalize writtenFloats java ignoreTime [])
    (normalize writtenFloats goResp ignoreTime []) ignoreTime).verdict

theorem wf_countTree (count time : Numeral) : (countTree count time).WF := by
  have hkey : ∀ name : GoString, readLiteral name = some (name, []) → name.head? = some 34 →
      NameOk .object name := fun name hname hquote => ⟨(isLiteral_of_read hname).1, hquote⟩
  have hcount : NameOk .object (str "\"count\"") := hkey _ (by decide) (by decide)
  have htime : NameOk .object (str "\"time\"") := hkey _ (by decide) (by decide)
  refine .node ?_ ?_
  · simp [hcount, htime]
  · have hliteral : ∀ n : Numeral, (JTree.literal n.raw).WF := fun n =>
      .literal (isLiteral_of_read n.isLiteral).1
    simp [hliteral]

theorem readText_countResponse (count time : Numeral) :
    readText (hostless ignoreTime [] (countResponse count time)).2 =
      some (countTree count time) :=
  readText_print_self compact (wf_countTree count time) 0

theorem doc_countTree (count time : Numeral) :
    (countTree count time).doc numerals =
      some (.object [(str "count", .number count), (str "time", .number time)]) := by
  have hliteral : ∀ n : Numeral, (JTree.literal n.raw).doc numerals = some (.number n) := by
    intro n
    rw [JTree.doc, literalDoc_number _ n.isNumber, numerals_parse_raw, Option.map_some]
  rw [countTree, JTree.doc, docAll, hliteral]
  dsimp only
  rw [docAll, hliteral]
  dsimp only
  rw [docAll]
  rfl

theorem inRange_countTree {count time : Numeral} (hcount : Binary64.InRange count.value)
    (htime : Binary64.InRange time.value) : (countTree count time).InRange := by
  intro raw hraw
  simp only [countTree, JTree.numbers, numbersAll, if_pos count.isNumber, if_pos time.isNumber,
    List.append_nil, List.singleton_append, List.mem_cons, List.not_mem_nil, or_false] at hraw
  rcases hraw with rfl | rfl
  · exact ⟨_, count.sscanFloat_raw, hcount⟩
  · exact ⟨_, time.sscanFloat_raw, htime⟩

theorem stripFields_count (count time : Numeral) :
    stripFields [str "time"] (.object [(str "count", .number count), (str "time", .number time)]) =
      .object [(str "count", .number count)] := rfl

theorem exactNumbers_count (count time : Numeral) :
    (unmarshal numerals (countResponse count time).body).map
        (fun x => exactNumbers (stripFields [str "time"] x)) =
      some (.object [(str "count", .number count.value)]) := by
  have hread : readText (countResponse count time).body = some (countTree count time) :=
    readText_countResponse count time
  rw [unmarshal, hread, Option.bind_some, doc_countTree, Option.map_some, stripFields_count]
  simp only [exactNumbers, Doc.map, mapMembers]

theorem countVerdict_pass {n n' t t' : Numeral} (hn : Binary64.InRange n.value)
    (ht : Binary64.InRange t.value) (ht' : Binary64.InRange t'.value)
    (hround : Binary64.round n.value = Binary64.round n'.value) :
    countVerdict (countResponse n t) (countResponse n' t') = .pass := by
  have hn' : Binary64.InRange n'.value := by
    rw [Binary64.InRange, ← hround]
    exact hn
  refine (verdict_diff_eq_pass _ _).mpr ⟨rfl, fun _ => rfl, ?_⟩
  refine (sameBody_normalize_iff rfl rereads_writtenFloats (readText_countResponse n t)
    (readText_countResponse n' t') (doc_countTree n t) (doc_countTree n' t')).mpr (Or.inl ?_)
  refine ⟨inRange_countTree hn ht, inRange_countTree hn' ht', ?_⟩
  show roundedNumbers (stripFields [str "time"] _) = roundedNumbers (stripFields [str "time"] _)
  rw [stripFields_count, stripFields_count]
  simp only [roundedNumbers, Doc.map, mapMembers, Function.comp_apply, hround]

/-- For two JSON bodies, a passed comparison says that the documents outside the ignored fields are
the same with exact numbers, unless the answers agree in the rest, every number is in the range of
a `float64`, and the documents differ but not after rounding. -/
theorem pass_exact_iff (F : Floats Float64) (hparse : F.parse = parseFloat) (hF : Rereads F)
    (cmp : Cmp (Doc Float64)) (policy : DiffPolicy) (javaHost goHost : GoString)
    (java goResp : Response) (s s' : JTree)
    (hs : readText (hostless policy javaHost java).2 = some s)
    (hs' : readText (hostless policy goHost goResp).2 = some s') :
    ∃ x y, unmarshal numerals (hostless policy javaHost java).2 = some x ∧
      unmarshal numerals (hostless policy goHost goResp).2 = some y ∧
      (((diff (unmarshal F) cmp (normalize F java policy javaHost)
          (normalize F goResp policy goHost) policy).verdict = .pass →
        exactNumbers (stripFields policy.ignoreBodyFields x) =
          exactNumbers (stripFields policy.ignoreBodyFields y)) ↔
        (java.statusCode = goResp.statusCode →
          SameHeaders (hostless policy javaHost java).1 (hostless policy goHost goResp).1 →
          s.InRange → s'.InRange →
          roundedNumbers (stripFields policy.ignoreBodyFields x) =
            roundedNumbers (stripFields policy.ignoreBodyFields y) →
          exactNumbers (stripFields policy.ignoreBodyFields x) =
            exactNumbers (stripFields policy.ignoreBodyFields y))) := by
  obtain ⟨x, hx⟩ := (wf_of_readText hs).exists_numerals
  obtain ⟨y, hy⟩ := (wf_of_readText hs').exists_numerals
  refine ⟨x, y, ?_, ?_, ?_⟩
  · rw [unmarshal, hs, Option.bind_some, hx]
  · rw [unmarshal, hs', Option.bind_some, hy]
  rw [verdict_diff_eq_pass, SameResponse, sameBody_normalize_iff hparse hF hs hs' hx hy]
  constructor
  · intro h hstatus hheaders hrange hrange' hround
    exact h ⟨hstatus, hheaders, Or.inl ⟨hrange, hrange', hround⟩⟩
  · rintro h ⟨hstatus, hheaders, ⟨hrange, hrange', hround⟩ | ⟨-, heq⟩⟩
    · exact h hstatus hheaders hrange hrange' hround
    · -- the same text is the same document
      have hsame : s = s' := Option.some.inj (hs.symm.trans (heq ▸ hs'))
      subst hsame
      rw [Option.some.inj (hx.symm.trans hy)]

def ten : Numeral := ⟨str "10", by decide, by decide⟩

def tenWithExponent : Numeral := ⟨str "1e1", by decide, by decide⟩

/-- The same count, written in two ways, passes. -/
theorem pass_exact_ten :
    countVerdict (countResponse ten ten) (countResponse tenWithExponent ten) = .pass ∧
      ∃ x y, unmarshal numerals (countResponse ten ten).body = some x ∧
        unmarshal numerals (countResponse tenWithExponent ten).body = some y ∧
        exactNumbers (stripFields [str "time"] x) = exactNumbers (stripFields [str "time"] y) := by
  have hvalue : ten.value = tenWithExponent.value := by decide +kernel
  have hrange : Binary64.InRange ten.value := by decide +kernel
  have hpass : countVerdict (countResponse ten ten) (countResponse tenWithExponent ten) = .pass :=
    countVerdict_pass hrange hrange hrange (congrArg Binary64.round hvalue)
  obtain ⟨x, y, hx, hy, hiff⟩ := pass_exact_iff writtenFloats rfl rereads_writtenFloats floatCmp
    ignoreTime [] [] _ _ _ _ (readText_countResponse ten ten)
    (readText_countResponse tenWithExponent ten)
  refine ⟨hpass, x, y, hx, hy, hiff.mpr (fun _ _ _ _ _ => ?_) hpass⟩
  have hten := exactNumbers_count ten ten
  have hexponent := exactNumbers_count tenWithExponent ten
  rw [show unmarshal numerals (countResponse ten ten).body = some x from hx] at hten
  rw [show unmarshal numerals (countResponse tenWithExponent ten).body = some y from hy]
    at hexponent
  rw [hvalue, ← hexponent] at hten
  exact Option.some.inj hten

def oddCount : Numeral := ⟨str "9007199254740993", by decide, by decide⟩

def evenCount : Numeral := ⟨str "9007199254740992", by decide, by decide⟩

/-- Counts that differ by one pass. -/
theorem large_counts_pass :
    (countResponse oddCount ten).body = str "\x7b\"count\":9007199254740993,\"time\":10\x7d" ∧
      (countResponse evenCount ten).body =
        str "\x7b\"count\":9007199254740992,\"time\":10\x7d" ∧
      countVerdict (countResponse oddCount ten) (countResponse evenCount ten) = .pass ∧
      (unmarshal numerals (countResponse oddCount ten).body).map
          (fun x => exactNumbers (stripFields [str "time"] x)) =
        some (.object [(str "count", .number 9007199254740993)]) ∧
      (unmarshal numerals (countResponse evenCount ten).body).map
          (fun x => exactNumbers (stripFields [str "time"] x)) =
        some (.object [(str "count", .number 9007199254740992)]) := by
  have hodd : oddCount.value = 9007199254740993 := by decide +kernel
  have heven : evenCount.value = 9007199254740992 := by decide +kernel
  have hround : Binary64.round oddCount.value = Binary64.round evenCount.value := by decide +kernel
  have hrange : Binary64.InRange oddCount.value := by decide +kernel
  have hten : Binary64.InRange ten.value := by decide +kernel
  refine ⟨rfl, rfl, countVerdict_pass hrange hten hten hround, ?_, ?_⟩
  · rw [exactNumbers_count, hodd]
  · rw [exactNumbers_count, heven]

end TrinoGoway.DiffHarness
