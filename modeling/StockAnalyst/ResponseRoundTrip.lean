import StockAnalyst.GatewayClient
import StockAnalyst.RequestRoundTrip
import StockAnalyst.RecordSize
import StockAnalyst.SpacedText

/-!
# Responses across the bridge

Every answer the agent encodes is accepted by the gateway, as long as its
header values are clean and of moderate size, and API Gateway gets the status,
the headers and the body that the agent's application sent.
-/

namespace X402

open Python Checks

/-! ## What the agent encodes -/

/-- A header the agent lets through. -/
def ResponseHeader (e : PyStr × PyStr) : Prop :=
  e.1 ∈ responseHeaders ∧ isHeaderName e.1 = true ∧ ∀ c ∈ e.2, c < 256

/-- The headers of an answer: a dictionary of headers that are let through. -/
def ResponseHeaders (headers : List (PyStr × PyStr)) : Prop :=
  (headers.map (·.1)).Nodup ∧ ∀ e ∈ headers, ResponseHeader e

/-- One more accepted header leaves them response headers. -/
theorem responseHeader_ok {headers headers' : List (PyStr × PyStr)} {header : Value}
    (hheaders : ResponseHeaders headers) (h : responseHeader headers header = .ok headers') :
    ResponseHeaders headers' := by
  unfold responseHeader at h
  split at h
  · rename_i name value
    simp only [unless_error] at h
    obtain ⟨-, hname, h⟩ := h
    split at h
    · rename_i hallowed
      obtain rfl := Except.ok.inj h
      have hshape : isHeaderName (byteValues name) = true := by
        simp only [Bool.or_eq_true, Bool.not_eq_true', not_or, Bool.not_eq_false] at hname
        exact hname.1
      refine ⟨nodup_dictSet hheaders.1, ?_⟩
      intro e he
      cases mem_dictSet he with
      | inl hold => exact hheaders.2 e hold
      | inr hnew =>
          subst hnew
          exact ⟨List.contains_iff_mem.1 hallowed, hshape, byteValues_lt value⟩
    · obtain rfl := Except.ok.inj h
      exact hheaders
  · cases h

/-- Accepted headers are response headers. -/
theorem responseHeadersOf_ok {value : Option Value} {headers : List (PyStr × PyStr)}
    (h : responseHeadersOf value = .ok headers) : ResponseHeaders headers := by
  have hempty : ResponseHeaders [] := ⟨List.nodup_nil, by simp⟩
  unfold responseHeadersOf at h
  split at h
  · obtain rfl := Except.ok.inj h
    exact hempty
  · exact foldlM_ok (fun _ headers => ResponseHeaders headers)
      (fun _ b a b' hb hstep => responseHeader_ok hb hstep) hempty h
  · cases h

/-- A chunk is made of bytes. -/
theorem bodyChunk_ok {message : Message} {chunk : List Nat} (h : bodyChunk message = .ok chunk) :
    ∀ b ∈ chunk, b < 256 := by
  unfold bodyChunk at h
  split at h
  · simp [← Except.ok.inj h]
  · obtain rfl := Except.ok.inj h
    exact byteValues_lt _
  · cases h

/-- What an encoded answer satisfies. -/
structure Response.Ok (r : Response) : Prop where
  status : 100 ≤ r.status ∧ r.status ≤ 599
  headers : ResponseHeaders r.headers
  bytes : ∀ b ∈ r.body, b < 256
  room : r.body.length ≤ maxResponseBytes

/-- **A validated response is well-formed.** -/
theorem validateResponse_ok {sent : List Message} {r : Response}
    (h : validateResponse sent = .ok r) : r.Ok := by
  unfold validateResponse at h
  obtain ⟨start, -, h⟩ := bind_eq_ok h
  obtain ⟨bodies, -, h⟩ := bind_eq_ok h
  obtain ⟨status, hstatus, h⟩ := bind_eq_ok h
  obtain ⟨chunks, hchunks, h⟩ := bind_eq_ok h
  obtain ⟨hroom, h⟩ := unless_error.1 h
  obtain ⟨headers, hheaders, h⟩ := bind_eq_ok h
  obtain rfl := Except.ok.inj h
  refine ⟨?_, responseHeadersOf_ok hheaders, ?_, not_lt.1 hroom⟩
  · unfold responseStatus at hstatus
    split at hstatus
    · split at hstatus
      · rename_i hrange
        obtain rfl := Except.ok.inj hstatus
        exact hrange
      · cases hstatus
    · cases hstatus
  · intro b hb
    obtain ⟨chunk, hchunk, hb⟩ := List.mem_flatten.1 hb
    obtain ⟨message, -, hmessage⟩ := mapM_mem hchunks chunk hchunk
    exact bodyChunk_ok hmessage b hb

end X402

namespace X402Lambda

open Python X402 Checks

variable {lib : Lib} {r : Response} {requestId : PyStr}

/-! ## What the gateway reads -/

/-- The gateway knows the headers that the agent sends. -/
theorem responseHeaders_known {name : PyStr} (h : name ∈ X402.responseHeaders) :
    responseHeaders.contains name = true := by
  have hall : ∀ name ∈ X402.responseHeaders, responseHeaders.contains name = true := by decide
  exact hall name h

/-- Clean headers are copied one by one. -/
theorem cleanHeaders (hheaders : ResponseHeaders r.headers)
    (hclean : ∀ e ∈ r.headers, isHeaderValue e.2 = true) :
    (r.headers.map fun e => (e.1, Json.str e.2)).foldlM
      (fun clean e => cleanHeader clean e.1 e.2) [] = .ok r.headers := by
  have hpass : ∀ clean, ∀ e ∈ r.headers,
      cleanHeader clean e.1 (.str e.2) = .ok (dictSet clean e.1 e.2) := by
    intro clean e he
    obtain ⟨hname, hshape, -⟩ := hheaders.2 e he
    exact if_pos (by rw [responseHeaders_known hname, hshape, hclean e he]; rfl)
  have hdict : r.headers.foldl (fun d e => dictSet d e.1 e.2) [] = r.headers :=
    dictOf_of_nodup hheaders.1
  rw [List.foldlM_map, foldlM_eq_foldl hpass, hdict]

variable (requestId) in
/-- The gateway takes every envelope of an answer with clean headers. -/
theorem validatedResponseEnvelope_envelope (hr : r.Ok)
    (hclean : ∀ e ∈ r.headers, isHeaderValue e.2 = true) :
    validatedResponseEnvelope (r.envelope requestId) requestId =
      .ok ⟨requestId, r.status, r.headers, base64Encode r.body⟩ := by
  have hfields : hasExactly (r.envelope requestId)
      [py "requestId", py "status", py "headers", py "bodyBase64"] = true := rfl
  have hid : (member (some (.obj (r.envelope requestId))) (py "requestId")).any
      (·.pyEq (.str requestId)) = true := Json.pyEq_refl _
  have hstatus : dictGet (r.envelope requestId) (py "status") = some (.int r.status) := rfl
  have hheaders : dictGet (r.envelope requestId) (py "headers") =
      some (.obj (r.headers.map fun e => (e.1, .str e.2))) := rfl
  have hbody : dictGet (r.envelope requestId) (py "bodyBase64") =
      some (.str (base64Encode r.body)) := rfl
  unfold validatedResponseEnvelope
  rw [hfields, hid, hstatus, hheaders, hbody]
  have hroom : ¬ maxResponseBytes < r.body.length := not_lt.2 hr.room
  simp only [hr.status, cleanHeaders hr.headers hclean, base64Decode_encode hr.bytes,
    if_neg hroom]
  rfl

/-! ## The size of the answer -/

/-- A code unit is escaped in six characters at most. -/
theorem escapeChar_length_le {c : Nat} (h : c < 0x10000) : (escapeChar c).length ≤ 6 := by
  unfold escapeChar
  grind [unitEscape]

/-- A literal is at most six times as long as its text, with two quotes. -/
theorem dumpsStr_length_le {s : PyStr} (h : ∀ c ∈ s, c < 0x10000) :
    (dumpsStr s).length ≤ 6 * s.length + 2 := by
  have hescapes : (s.flatMap escapeChar).length ≤ 6 * s.length := by
    induction s with
    | nil => simp
    | cons c s ih =>
        obtain ⟨hc, htail⟩ := List.forall_mem_cons.1 h
        have hfirst := escapeChar_length_le hc
        have hrest := ih htail
        rw [List.flatMap_cons, List.length_append, List.length_cons]
        omega
  simp only [dumpsStr, List.cons_append, List.length_cons, List.length_append, List.length_nil]
  omega

/-- Base64 text needs no escapes. -/
theorem dumpsStr_base64 (bs : List Nat) :
    (dumpsStr (base64Encode bs)).length = (base64Encode bs).length + 2 := by
  have hplain : ∀ c ∈ base64Encode bs, escapeChar c = [c] := by
    intro c hc
    have := base64Encode_visible bs c hc
    unfold escapeChar
    grind
  have hsame : (base64Encode bs).flatMap escapeChar = base64Encode bs := by
    rw [List.flatMap_congr hplain]
    simp
  simp [dumpsStr, hsame]

/-- Headers are written text by text. -/
theorem dumpsObj_texts (lib : PyLib) (headers : List (PyStr × PyStr)) :
    Json.dumpsObj lib (headers.map fun e => (e.1, .str e.2)) =
      some (headers.map fun e => (e.1, dumpsStr e.2)) := by
  induction headers with
  | nil => rfl
  | cons e headers ih => exact dumpsObj_cons.2 ⟨_, _, rfl, ih, rfl⟩

/-- At most seven headers, of short names. -/
theorem entrySizes_headers (h : ResponseHeaders r.headers) :
    entrySizes (r.headers.map fun e => (e.1, dumpsStr e.2)) ≤
      154 + 6 * (r.headers.map (·.2.length)).sum := by
  have hnames : ∀ name ∈ X402.responseHeaders, (dumpsStr name).length ≤ 18 := by decide
  have hcount : r.headers.length ≤ 7 := by
    have hsub : (r.headers.map (·.1)).Subperm X402.responseHeaders := by
      refine h.1.subperm ?_
      intro name hname
      obtain ⟨e, he, rfl⟩ := List.mem_map.1 hname
      exact (h.2 e he).1
    have hlength := hsub.length_le
    rwa [List.length_map] at hlength
  have heach : ∀ headers : List (PyStr × PyStr), (∀ e ∈ headers, ResponseHeader e) →
      entrySizes (headers.map fun e => (e.1, dumpsStr e.2)) ≤
        22 * headers.length + 6 * (headers.map (·.2.length)).sum := by
    intro headers hheaders
    induction headers with
    | nil => simp
    | cons e headers ih =>
        obtain ⟨he, htail⟩ := List.forall_mem_cons.1 hheaders
        have hname := hnames e.1 he.1
        have hvalue : (dumpsStr e.2).length ≤ 6 * e.2.length + 2 :=
          dumpsStr_length_le fun c hc => lt_trans (he.2.2 c hc) (by decide)
        have hrest := ih htail
        simp only [List.map_cons, entrySizes_cons, List.length_cons, List.sum_cons]
        omega
  have hall := heach r.headers h.2
  omega

/-- A request id has 71 characters of the basic plane. -/
theorem isRequestId_bounds (h : isRequestId requestId = true) :
    requestId.length = 71 ∧ ∀ c ∈ requestId, c < 0x10000 := by
  unfold isRequestId at h
  simp only [Bool.and_eq_true, decide_eq_true_eq, List.all_eq_true] at h
  obtain ⟨⟨hlength, hhead⟩, hdigits⟩ := h
  refine ⟨hlength, ?_⟩
  obtain ⟨rest, rfl⟩ := List.isPrefixOf_iff_prefix.1 hhead
  intro c hc
  cases List.mem_append.1 hc with
  | inl hc =>
      have hsmall : ∀ c ∈ py "x402gw_", c < 0x10000 := by decide
      exact hsmall c hc
  | inr hc =>
      have hdrop : (py "x402gw_" ++ rest).drop 7 = rest := @List.drop_left _ (py "x402gw_") rest
      rw [hdrop] at hdigits
      have := hdigits c hc
      unfold isLowerHex at this
      grind

/-- The text of an envelope is smaller than what is left of three megabytes
beside 128 kilobytes. -/
theorem envelope_size {lib : PyLib} (hr : r.Ok) (hid : isRequestId requestId = true)
    (htotal : (r.headers.map (·.2.length)).sum ≤ 32 * 1024) {text : List Nat}
    (h : (Json.obj (r.envelope requestId)).dumps lib = some text) :
    text.length ≤ 3 * 1024 * 1024 - 128 * 1024 := by
  obtain ⟨hlength, hpoints⟩ := isRequestId_bounds hid
  obtain ⟨all, hall, rfl⟩ := dumps_obj.1 h
  obtain ⟨idText, _, hidText, hthree, rfl⟩ := dumpsObj_cons.1 hall
  obtain ⟨statusText, _, hstatus, htwo, rfl⟩ := dumpsObj_cons.1 hthree
  obtain ⟨headersText, _, hheaders, hone, rfl⟩ := dumpsObj_cons.1 htwo
  obtain ⟨bodyText, _, hbody, hnone, rfl⟩ := dumpsObj_cons.1 hone
  obtain rfl := Option.some.inj hnone
  obtain ⟨fields, hfields, rfl⟩ := dumps_obj.1 hheaders
  rw [dumpsObj_texts] at hfields
  obtain rfl := Option.some.inj hfields
  obtain rfl := Option.some.inj hidText
  obtain rfl := Option.some.inj hbody
  obtain ⟨-, hstatus⟩ := Option.ite_none_right_eq_some.1 hstatus
  obtain rfl := Option.some.inj hstatus
  have hkeys : (dumpsStr (py "requestId")).length = 11 ∧ (dumpsStr (py "status")).length = 8 ∧
      (dumpsStr (py "headers")).length = 9 ∧ (dumpsStr (py "bodyBase64")).length = 12 := by
    decide
  obtain ⟨hidKey, hstatusKey, hheadersKey, hbodyKey⟩ := hkeys
  have hidSize := dumpsStr_length_le hpoints
  have hlow : 0 ≤ r.status := le_trans (by decide) hr.status.1
  have hhigh : r.status < 10 ^ 13 := lt_of_le_of_lt hr.status.2 (by decide)
  have hstatusSize := (intText_milliseconds hlow hhigh).2
  have hheadersSize := entrySizes_headers hr.headers
  have hbodySize := dumpsStr_base64 r.body
  have hencoded := base64Encode_length r.body
  have hroom : r.body.length ≤ 2097152 := hr.room
  simp only [List.cons_append, List.length_cons, List.length_append, List.length_nil,
    length_dumpsEntries, entrySizes_cons, entrySizes_nil, hidKey, hstatusKey, hheadersKey, hbodyKey]
  omega

variable (requestId) in
/-- A well-formed response has an envelope. -/
theorem envelope_text (lib : PyLib) (hr : r.Ok) :
    ∃ text, (Json.obj (r.envelope requestId)).dumps lib = some text := by
  have hlow : 0 ≤ r.status := le_trans (by decide) hr.status.1
  have hhigh : r.status < 10 ^ 13 := lt_of_le_of_lt hr.status.2 (by decide)
  have hdigits := (intText_milliseconds hlow hhigh).1
  have hstatus : (Json.int r.status).dumps lib = some (intText r.status) :=
    if_pos (le_trans hdigits (by decide))
  have hheaders := dumps_obj.2 ⟨_, dumpsObj_texts lib r.headers, rfl⟩
  exact ⟨_, dumps_obj.2 ⟨_, dumpsObj_cons.2 ⟨_, _, rfl, dumpsObj_cons.2 ⟨_, _, hstatus,
    dumpsObj_cons.2 ⟨_, _, hheaders, dumpsObj_cons.2 ⟨_, _, rfl, rfl, rfl⟩, rfl⟩, rfl⟩, rfl⟩, rfl⟩⟩

/-! ## The round trip -/

/-- A JSON-RPC result for a request, with its single data part. -/
structure SingleDataPart (payload : Json) (requestId : PyStr) (data : List (PyStr × Json)) :
    Prop where
  version : member (some payload) (py "jsonrpc") = some (.str (py "2.0"))
  id : member (some payload) (py "id") = some (.str requestId)
  parts : ∃ parts, member (member (some payload) (py "result")) (py "parts") = some (.arr parts) ∧
    parts.filterMap partData = [some (.obj data)]

variable (lib) in
/-- What the transport brings back: a JSON text that carries the data and has
at most 128 kilobytes more than the text of the data alone. -/
structure Reply (loads : PyStr → Option Json) (requestId : PyStr) (data : List (PyStr × Json))
    (response : Message) where
  status : Int
  wire : List (Fin 256)
  payload : Json
  success : 200 ≤ status ∧ status ≤ 299
  status_eq : response.lookup (py "status") = some (.int status)
  body_eq : response.lookup (py "body") = some (.bytes wire)
  reads : (lib.net.lib.utf8Decode (byteValues wire)).bind loads = some payload
  carries : SingleDataPart payload requestId data
  framing : ∀ text, (Json.obj data).dumps lib.net.lib = some text →
    wire.length ≤ text.length + 128 * 1024

variable {loads : PyStr → Option Json} {response : Message}

/-- A result with one data part has that part alone. -/
theorem resultParts_single {payload : Json} {data : List (PyStr × Json)}
    (h : SingleDataPart payload requestId data) :
    ∃ parts, resultParts payload requestId = .ok parts ∧
      parts.filterMap partData = [some (.obj data)] := by
  obtain ⟨parts, hparts, hdata⟩ := h.parts
  refine ⟨parts, ?_, hdata⟩
  unfold resultParts
  simp only [h.version, h.id, hparts, Option.any_some, Json.pyEq_refl, Bool.not_true,
    Bool.or_self, Bool.false_eq_true, if_false]

/-- A reply of the agent that is small enough is extracted. -/
theorem extractResponse_reply (hr : r.Ok) (hid : isRequestId requestId = true)
    (hclean : ∀ e ∈ r.headers, isHeaderValue e.2 = true)
    (htotal : (r.headers.map (·.2.length)).sum ≤ 32 * 1024)
    (reply : Reply lib loads requestId (r.envelope requestId) response) :
    extractResponse lib loads response requestId =
      .ok ⟨requestId, r.status, r.headers, base64Encode r.body⟩ := by
  obtain ⟨text, htext⟩ := envelope_text requestId lib.net.lib hr
  have hsize : ¬ maxAgentcoreResponseBytes < reply.wire.length := by
    have hframing := reply.framing text htext
    have henvelope := envelope_size hr hid htotal htext
    unfold maxAgentcoreResponseBytes
    omega
  have hstatus : transportStatus response = .ok () := by
    obtain ⟨hlow, hhigh⟩ := reply.success
    unfold transportStatus
    rw [reply.status_eq]
    dsimp only
    rw [if_neg (by omega), if_neg (by omega), if_neg (by omega), if_neg (by omega)]
  have hbody : transportBody response = .ok (byteValues reply.wire) := by
    unfold transportBody
    rw [reply.body_eq]
    exact if_neg hsize
  obtain ⟨parts, hparts, hdata⟩ := resultParts_single reply.carries
  have henvelope := validatedResponseEnvelope_envelope requestId hr hclean
  simp only [extractResponse, bind, Except.bind, hstatus, hbody, reply.reads, hparts, hdata,
    henvelope]

/-- **Responses cross the bridge unchanged.**  The gateway accepts every answer
the agent encodes, when its header values are clean and of moderate size and
its reply arrives, and a request it was made for is answered with the status,
the headers and the text of that answer. -/
theorem response_round_trip {number : PyStr → Deliverable.Double}
    {float : Deliverable.Double → PyFloat} {sent : List Message}
    {envelope : List (PyStr × Json)} {text : PyStr}
    (hvalid : validateResponse sent = .ok r)
    (hencoded : validateAndEncodeResponse requestId sent = .ok envelope)
    (hclean : ∀ e ∈ r.headers, isHeaderValue e.2 = true)
    (htotal : (r.headers.map (·.2.length)).sum ≤ 32 * 1024)
    (htext : lib.net.lib.utf8Decode r.body = some text) (hid : isRequestId requestId = true)
    (reply : Reply lib (jsonLoads number float) requestId envelope response) :
    extractResponse lib (jsonLoads number float) response requestId =
        .ok ⟨requestId, r.status, r.headers, base64Encode r.body⟩ ∧
      ∀ customDomainName oauth transport event base request authorization,
        trustedPublicBase lib event customDomainName = .ok base →
        buildEnvelope lib event base = .ok request →
        dictGet request (py "requestId") = some (.str requestId) →
        oauth = .ok authorization →
        transport authorization (rpcRequest requestId request) = .ok response →
        handle lib (jsonLoads number float) customDomainName oauth transport event =
          ⟨r.status, r.headers, false, text⟩ := by
  have hr := validateResponse_ok hvalid
  have hsame : envelope = r.envelope requestId := by
    unfold validateAndEncodeResponse at hencoded
    rw [hvalid] at hencoded
    exact (Except.ok.inj hencoded).symm
  subst hsame
  have hextract := extractResponse_reply hr hid hclean htotal reply
  refine ⟨hextract, ?_⟩
  intro customDomainName oauth transport event base request authorization hbase hbuilt hrequest
    hoauth htransport
  have hinvoke : invoke lib (jsonLoads number float) transport authorization request =
      .ok ⟨requestId, r.status, r.headers, base64Encode r.body⟩ := by
    simp only [invoke, hrequest, htransport, bind, Except.bind, hextract]
  have hbody : responseText lib ⟨requestId, r.status, r.headers, base64Encode r.body⟩ =
      .ok text := by
    simp only [responseText, base64Decode_encode hr.bytes, Option.bind_some, htext]
  have hcoordinate : coordinate lib (jsonLoads number float) customDomainName oauth transport
      event = .ok ⟨r.status, r.headers, false, text⟩ := by
    simp only [coordinate, bind, Except.bind, hbase, hbuilt, hoauth, hinvoke, hbody,
      Except.mapError]
    rfl
  rw [handle, hcoordinate]

/-- The id of the sample request. -/
def sampleId : PyStr := py "x402gw_" ++ toHex (sampleLib.sha256 [])

/-- An accepted payment, as an ASGI application sends it in two chunks. -/
def sampleSent : List Message :=
  let bytes (s : PyStr) : Value := .bytes (s.map (Fin.ofNat 256))
  [[(py "type", .str (py "http.response.start")), (py "status", .int 202),
    (py "headers", .list
      [.tuple [bytes (py "content-type"), bytes (py "application/json")],
       .tuple [bytes (py "server"), bytes (py "uvicorn")]])],
   [(py "type", .str (py "http.response.body")), (py "body", bytes [0x7B]),
    (py "more_body", .bool false)],
   [(py "type", .str (py "http.response.body")), (py "body", bytes [0x7D])]]

/-- The reply of the agent as a JSON document. -/
def sampleReply : JsonText.Doc :=
  .obj
    [(py "id", .str sampleId), (py "jsonrpc", .str (py "2.0")),
     (py "result", .obj
       [(py "kind", .str (py "message")),
        (py "parts", .arr [.obj
          [(py "kind", .str (py "data")),
           (py "data", .obj
             [(py "requestId", .str sampleId), (py "status", .word (py "202")),
              (py "headers", .obj [(py "content-type", .str (py "application/json"))]),
              (py "bodyBase64", .str (py "e30="))])]])])]

def sampleWire : List (Fin 256) := sampleReply.spaced.map (Fin.ofNat 256)

def sampleResponse : Message := [(py "status", .int 200), (py "body", .bytes sampleWire)]

/-- `json.loads`; the sample has no floats. -/
def sampleLoads : PyStr → Option Json := jsonLoads (fun _ => .nan) (fun _ => .nan)

set_option maxRecDepth 100000 in
theorem sample_reads : ∃ payload,
    (sampleLib.net.lib.utf8Decode (byteValues sampleWire)).bind sampleLoads = some payload ∧
      SingleDataPart payload sampleId
        (Response.envelope ⟨202, [(py "content-type", py "application/json")], [0x7B, 0x7D]⟩
          sampleId) :=
  ⟨_, rfl, rfl, rfl, _, rfl, rfl⟩

/-- The sample event is answered with what the agent's application sent. -/
theorem response_round_trip_receipt :
    handle sampleLib sampleLoads [] (.ok (py "Bearer token"))
      (fun _ _ => .ok sampleResponse) sampleEvent =
        ⟨202, [(py "content-type", py "application/json")], false, [0x7B, 0x7D]⟩ := by
  obtain ⟨payload, hreads, hcarries⟩ := sample_reads
  have hsmall : sampleWire.length ≤ 128 * 1024 := by decide +kernel
  have hvalid : validateResponse sampleSent =
      .ok ⟨202, [(py "content-type", py "application/json")], [0x7B, 0x7D]⟩ := rfl
  have hclean : ∀ e ∈ [(py "content-type", py "application/json")],
      isHeaderValue e.2 = true := by decide
  have hbuilt : ∃ base request,
      trustedPublicBase sampleLib sampleEvent [] = .ok base ∧
      buildEnvelope sampleLib sampleEvent base = .ok request ∧
      dictGet request (py "requestId") = some (.str sampleId) := ⟨_, _, rfl, rfl, rfl⟩
  obtain ⟨base, request, hbase, hrequest, hid⟩ := hbuilt
  have reply : Reply sampleLib sampleLoads sampleId
      (Response.envelope ⟨202, [(py "content-type", py "application/json")], [0x7B, 0x7D]⟩
        sampleId) sampleResponse :=
    ⟨200, sampleWire, payload, by decide, rfl, rfl, hreads, hcarries,
      fun text _ => le_trans hsmall (Nat.le_add_left _ _)⟩
  exact (response_round_trip hvalid rfl hclean (by decide) rfl (by decide +kernel) reply).2 []
    (.ok (py "Bearer token")) (fun _ _ => .ok sampleResponse) sampleEvent base request
    (py "Bearer token") hbase hrequest hid rfl rfl

end X402Lambda
