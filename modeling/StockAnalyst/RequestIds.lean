import StockAnalyst.RequestRoundTrip
import StockAnalyst.Utf8

/-!
# Request ids bind the request

The request id is the digest of six parts with a NUL after each but the last.
No part but the body has a NUL in it, so the digest input determines them all.
-/

namespace X402Lambda

open Python X402 Checks

variable {lib : Lib} {event event' : Event} {headers headers' : List (PyStr × PyStr)}
  {method path method' path' : PyStr} {body body' : List Nat}

/-- Two texts cut at their first separator. -/
theorem cut_at_separator {a a' b b' : List Nat} {c : Nat} (ha : c ∉ a) (ha' : c ∉ a')
    (h : a ++ c :: b = a' ++ c :: b') : a = a' ∧ b = b' := by
  induction a generalizing a' with
  | nil =>
      cases a' with
      | nil => exact ⟨rfl, (List.cons.inj h).2⟩
      | cons d a' =>
          rw [List.mem_cons, not_or] at ha'
          exact absurd (List.cons.inj h).1 ha'.1
  | cons d a ih =>
      rw [List.mem_cons, not_or] at ha
      cases a' with
      | nil => exact absurd (List.cons.inj h).1.symm ha.1
      | cons e a' =>
          rw [List.mem_cons, not_or] at ha'
          obtain ⟨rfl, htail⟩ := List.cons.inj h
          obtain ⟨rfl, rfl⟩ := ih ha.2 ha'.2 htail
          exact ⟨rfl, rfl⟩

/-! ## No part but the body has a NUL -/

/-- A job id has no zero in it. -/
theorem isJobId_ne_zero {id : PyStr} (h : isJobId id = true) : 0 ∉ id := by
  simp only [isJobId, Bool.and_eq_true, decide_eq_true_eq] at h
  obtain ⟨⟨-, hstart⟩, hhex⟩ := h
  obtain ⟨digits, rfl⟩ := List.isPrefixOf_iff_prefix.1 hstart
  have hdigits : (py "x402_" ++ digits).drop 5 = digits := @List.drop_left _ (py "x402_") _
  rw [hdigits, List.all_eq_true] at hhex
  intro hmem
  obtain hmem | hmem := List.mem_append.1 hmem
  · exact absurd hmem (by decide)
  · exact absurd (hhex 0 hmem) (by decide)

/-- The path of a job has no zero in it. -/
theorem isJobPath_ne_zero (h : isJobPath path = true) : 0 ∉ path := by
  simp only [isJobPath, Bool.and_eq_true, Bool.or_eq_true, decide_eq_true_eq] at h
  obtain ⟨⟨hstart, hid⟩, hend⟩ := h
  obtain ⟨rest, rfl⟩ := List.isPrefixOf_iff_prefix.1 hstart
  have hrest : (py "/x402/jobs/" ++ rest).drop 11 = rest :=
    @List.drop_left _ (py "/x402/jobs/") _
  have htail : (py "/x402/jobs/" ++ rest).drop 48 = rest.drop 37 := by
    rw [show 48 = 11 + 37 from rfl, ← List.drop_drop, hrest]
  rw [hrest] at hid
  rw [htail] at hend
  intro hmem
  rw [← List.take_append_drop 37 rest, List.mem_append, List.mem_append] at hmem
  obtain hmem | hmem | hmem := hmem
  · exact absurd hmem (by decide)
  · exact isJobId_ne_zero hid hmem
  · obtain hend | hend := hend
    · rw [hend] at hmem
      exact absurd hmem List.not_mem_nil
    · rw [hend] at hmem
      exact absurd hmem (by decide)

/-- A route has no zero in it. -/
theorem isRoute_ne_zero (h : isRoute method path = true) : 0 ∉ method ∧ 0 ∉ path := by
  have hget : 0 ∉ py "GET" := by decide
  have hpost : 0 ∉ py "POST" := by decide
  have hprice : 0 ∉ py "/x402/price" := by decide
  have hanalyze : 0 ∉ py "/x402/analyze/async" := by decide
  simp only [isRoute, Bool.or_eq_true, Bool.and_eq_true, decide_eq_true_eq] at h
  obtain (⟨rfl, rfl⟩ | ⟨rfl, rfl⟩) | ⟨hjob, ⟨rfl, -⟩ | ⟨rfl, -⟩⟩ := h
  · exact ⟨hget, hprice⟩
  · exact ⟨hpost, hanalyze⟩
  · exact ⟨hget, isJobPath_ne_zero hjob⟩
  · exact ⟨hpost, isJobPath_ne_zero hjob⟩

/-- The text of a header, empty where it is absent, and its bytes. -/
theorem Sound.encode (h : ∀ e ∈ headers, Sound e) (name : PyStr) :
    ∃ bytes, utf8Encode ((headers.lookup name).getD []) = some bytes ∧ 0 ∉ bytes := by
  cases hlookup : headers.lookup name with
  | none => exact ⟨[], rfl, List.not_mem_nil⟩
  | some text =>
      obtain ⟨-, hvalue, hlatin⟩ := h _ (mem_of_lookup hlookup)
      have hzero : 0 ∉ text := by
        simp only [isHeaderValue, Bool.not_eq_true', List.any_eq_false, Bool.or_eq_true,
          decide_eq_true_eq, not_or] at hvalue
        intro hmem
        exact (hvalue 0 hmem).2 rfl
      have hsmall : ∀ c ∈ text, c < 256 := by
        obtain ⟨hall, -⟩ := Option.ite_none_right_eq_some.1 hlatin
        simpa using hall
      obtain ⟨bytes, hbytes⟩ : ∃ bytes, utf8Encode text = some bytes := by
        clear hlookup hvalue hlatin hzero
        induction text with
        | nil => exact ⟨[], rfl⟩
        | cons c text ih =>
            obtain ⟨hc, htext⟩ := List.forall_mem_cons.1 hsmall
            obtain ⟨rest, hrest⟩ := ih htext
            obtain ⟨first, hfirst⟩ : ∃ first, utf8Char c = some first := by
              unfold utf8Char
              grind
            exact ⟨first ++ rest, by rw [utf8Encode, hfirst, hrest]; rfl⟩
      exact ⟨bytes, hbytes, utf8Encode_ne_zero hzero hbytes⟩

/-! ## The digest input -/

/-- The value of a header, empty where it is absent. -/
def headerText (headers : List (PyStr × PyStr)) (name : PyStr) : PyStr :=
  (headers.lookup name).getD []

/-- The digest input determines the parts it is made of. -/
theorem digestInput_inj (hroute : isRoute method path = true)
    (hroute' : isRoute method' path' = true) (hheaders : ∀ e ∈ headers, Sound e)
    (hheaders' : ∀ e ∈ headers', Sound e)
    (h : digestInput method path [] headers body = digestInput method' path' [] headers' body') :
    method = method' ∧ path = path' ∧ body = body' ∧
      ∀ name ∈ [py "payment-signature", py "x-job-token"],
        headerText headers name = headerText headers' name := by
  obtain ⟨hmethod, hpath⟩ := isRoute_ne_zero hroute
  obtain ⟨hmethod', hpath'⟩ := isRoute_ne_zero hroute'
  obtain ⟨signature, hsignature, hsigzero⟩ := Sound.encode hheaders (py "payment-signature")
  obtain ⟨signature', hsignature', hsigzero'⟩ := Sound.encode hheaders' (py "payment-signature")
  obtain ⟨token, htoken, htokzero⟩ := Sound.encode hheaders (py "x-job-token")
  obtain ⟨token', htoken', htokzero'⟩ := Sound.encode hheaders' (py "x-job-token")
  simp only [digestInput, hsignature, hsignature', htoken, htoken', Option.getD_some,
    List.append_assoc, List.append_cancel_left_eq, List.cons_append, List.nil_append,
    List.cons.injEq, true_and] at h
  obtain ⟨hsame, hafterMethod⟩ := cut_at_separator hmethod hmethod' h
  obtain ⟨hsamePath, hafterPath⟩ := cut_at_separator hpath hpath' hafterMethod
  obtain ⟨rfl, hafterSignature⟩ :=
    cut_at_separator hsigzero hsigzero' (List.cons.inj hafterPath).2
  obtain ⟨rfl, hsameBody⟩ := cut_at_separator htokzero htokzero' hafterSignature
  refine ⟨hsame, hsamePath, hsameBody, ?_⟩
  intro name hname
  obtain rfl | hname := List.mem_cons.1 hname
  · exact utf8Encode_inj hsignature hsignature'
  · obtain rfl := List.mem_singleton.1 hname
    exact utf8Encode_inj htoken htoken'

/-! ## Envelopes -/

variable (lib) in
/-- The message whose digest is the request id of an event. -/
def hashedRequest (event : Event) : Except RequestError (List Nat) := do
  let (method, path) ← validatedRoute event
  let queryString ← validatedQuery event
  let body ← decodeBody event
  let headers ← allowedHeadersOf lib (dictGet event (py "headers"))
    (dictGet event (py "multiValueHeaders"))
  return digestInput method path queryString headers body

/-- The value of a header of an envelope, empty where it is absent. -/
def envelopeHeader (envelope : List (PyStr × Json)) (name : PyStr) : PyStr :=
  match member (dictGet envelope (py "headers")) name with
  | some (.str value) => value
  | _ => []

/-- Two events ask for the same: the method, the path, the body and the two
headers that authorize it. -/
structure SameBound (event event' : Event) (envelope envelope' : List (PyStr × Json)) : Prop where
  method : dictGet envelope (py "method") = dictGet envelope' (py "method")
  path : dictGet envelope (py "path") = dictGet envelope' (py "path")
  route : validatedRoute event = validatedRoute event'
  body : decodeBody event = decodeBody event'
  bodyBase64 : dictGet envelope (py "bodyBase64") = dictGet envelope' (py "bodyBase64")
  signature : envelopeHeader envelope (py "payment-signature") =
    envelopeHeader envelope' (py "payment-signature")
  token : envelopeHeader envelope (py "x-job-token") = envelopeHeader envelope' (py "x-job-token")

/-- A header is found under its name. -/
theorem dictGet_texts (headers : List (PyStr × PyStr)) (name : PyStr) :
    dictGet (headers.map fun e => (e.1, Json.str e.2)) name =
      (headers.lookup name).map Json.str := by
  induction headers with
  | nil => rfl
  | cons e headers ih =>
      simp only [dictGet] at ih ⊢
      rw [List.map_cons, List.lookup_cons, List.lookup_cons, ih]
      cases name == e.1 with
      | true => rfl
      | false => rfl

/-- The envelope has the headers it was made of. -/
theorem envelopeHeader_of {query sourceIp base name : PyStr} :
    envelopeHeader (envelopeOf lib method path query sourceIp base headers body) name =
      headerText headers name := by
  have hmember : member (dictGet (envelopeOf lib method path query sourceIp base headers body)
      (py "headers")) name = (headers.lookup name).map Json.str := dictGet_texts headers name
  rw [envelopeHeader, hmember, headerText]
  cases headers.lookup name with
  | none => rfl
  | some value => rfl

/-- The request id is the digest of what it binds. -/
theorem dictGet_requestId {query sourceIp base : PyStr} :
    dictGet (envelopeOf lib method path query sourceIp base headers body) (py "requestId") =
      some (.str (py "x402gw_" ++
        toHex (lib.sha256 (digestInput method path query headers body)))) := rfl

theorem dictGet_method {query sourceIp base : PyStr} :
    dictGet (envelopeOf lib method path query sourceIp base headers body) (py "method") =
      some (.str method) := rfl

theorem dictGet_path {query sourceIp base : PyStr} :
    dictGet (envelopeOf lib method path query sourceIp base headers body) (py "path") =
      some (.str path) := rfl

theorem dictGet_bodyBase64 {query sourceIp base : PyStr} :
    dictGet (envelopeOf lib method path query sourceIp base headers body) (py "bodyBase64") =
      some (.str (base64Encode body)) := rfl

/-- The request id is the digest of the hashed request. -/
theorem hashedRequest_of (hroute : validatedRoute event = .ok (method, path))
    (hquery : validatedQuery event = .ok []) (hbody : decodeBody event = .ok body)
    (hheaders : allowedHeadersOf lib (dictGet event (py "headers"))
      (dictGet event (py "multiValueHeaders")) = .ok headers) :
    hashedRequest lib event = .ok (digestInput method path [] headers body) := by
  simp only [hashedRequest, hroute, hquery, hbody, hheaders, bind, Except.bind]
  rfl

/-- **Request ids bind the request.**  Two envelopes with one request id ask
for the same, as long as SHA-256 has no collision of the messages hashed. -/
theorem buildEnvelope_requestId_binds {publicBaseUrl publicBaseUrl' : PyStr}
    {envelope envelope' : List (PyStr × Json)}
    (hsha256 : ∀ m m', hashedRequest lib event = .ok m → hashedRequest lib event' = .ok m' →
      lib.sha256 m = lib.sha256 m' → m = m')
    (h : buildEnvelope lib event publicBaseUrl = .ok envelope)
    (h' : buildEnvelope lib event' publicBaseUrl' = .ok envelope')
    (hid : dictGet envelope (py "requestId") = dictGet envelope' (py "requestId")) :
    SameBound event event' envelope envelope' := by
  obtain ⟨method, path, ip, base, headers, body, hroute, -, hquery, hbody, -, hheaders, -, rfl⟩ :=
    buildEnvelope_ok h
  obtain ⟨method', path', ip', base', headers', body', hroute', -, hquery', hbody', -, hheaders',
    -, rfl⟩ := buildEnvelope_ok h'
  have hdigest : lib.sha256 (digestInput method path [] headers body) =
      lib.sha256 (digestInput method' path' [] headers' body') := by
    rw [dictGet_requestId, dictGet_requestId, Option.some.injEq, Json.str.injEq] at hid
    exact toHex_inj (lib.sha256_digest _).2 (lib.sha256_digest _).2
      (List.append_cancel_left hid)
  have hinput := hsha256 _ _ (hashedRequest_of hroute hquery hbody hheaders)
    (hashedRequest_of hroute' hquery' hbody' hheaders') hdigest
  obtain ⟨rfl, rfl, rfl, hsame⟩ := digestInput_inj (validatedRoute_ok hroute)
    (validatedRoute_ok hroute') (allowedHeadersOf_ok hheaders).sound
    (allowedHeadersOf_ok hheaders').sound hinput
  refine ⟨?_, ?_, hroute.trans hroute'.symm, hbody.trans hbody'.symm, ?_, ?_, ?_⟩
  · rw [dictGet_method, dictGet_method]
  · rw [dictGet_path, dictGet_path]
  · rw [dictGet_bodyBase64, dictGet_bodyBase64]
  · rw [envelopeHeader_of, envelopeHeader_of]
    exact hsame _ List.mem_cons_self
  · rw [envelopeHeader_of, envelopeHeader_of]
    exact hsame _ (List.mem_cons_of_mem _ List.mem_cons_self)

/-- The sample request with its body in plain text. -/
def plainEvent : Event :=
  [(py "httpMethod", .str (py "POST")),
   (py "path", .str (py "/x402/analyze/async")),
   (py "headers", .obj
     [(py "payment-signature", .str (py "c2ln")),
      (py "content-type", .str (py "application/json"))]),
   (py "requestContext", .obj [(py "identity", .obj [(py "sourceIp", .str (py "203.0.113.9"))])]),
   (py "body", .str (py "\x7b\x7d"))]

/-- Two events that differ only in what is not bound have one id. -/
theorem buildEnvelope_requestId_binds_sample : ∃ envelope envelope',
    buildEnvelope sampleLib sampleEvent (py "https://x402.example/") = .ok envelope ∧
    buildEnvelope sampleLib plainEvent (py "https://x402.example") = .ok envelope' ∧
    SameBound sampleEvent plainEvent envelope envelope' := by
  have hsame : hashedRequest sampleLib sampleEvent = hashedRequest sampleLib plainEvent := rfl
  obtain ⟨envelope, henvelope⟩ : ∃ envelope,
      buildEnvelope sampleLib sampleEvent (py "https://x402.example/") = .ok envelope := ⟨_, rfl⟩
  obtain ⟨envelope', henvelope'⟩ : ∃ envelope,
      buildEnvelope sampleLib plainEvent (py "https://x402.example") = .ok envelope := ⟨_, rfl⟩
  refine ⟨envelope, envelope', henvelope, henvelope', ?_⟩
  refine buildEnvelope_requestId_binds ?_ henvelope henvelope' ?_
  · intro m m' hm hm' _
    rw [hsame, hm'] at hm
    exact (Except.ok.inj hm).symm
  · have hid : (buildEnvelope sampleLib sampleEvent (py "https://x402.example/")).map
        (dictGet · (py "requestId")) = (buildEnvelope sampleLib plainEvent
        (py "https://x402.example")).map (dictGet · (py "requestId")) := rfl
    rw [henvelope, henvelope'] at hid
    exact Except.ok.inj hid

end X402Lambda
