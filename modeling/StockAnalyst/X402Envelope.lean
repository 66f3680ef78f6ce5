import StockAnalyst.WireRules

/-!
# The bridge from envelopes to ASGI

The agent's end: `_validate_request` reads an envelope back into the request
its ASGI application gets, and `_validate_and_encode_response` makes the answer
of the application an envelope again.
-/

namespace X402

open Python

/-- The codes of `EnvelopeError`. -/
inductive EnvelopeError where
  | invalidEnvelope
  | invalidEnvelopeVersion
  | invalidRequestId
  | publicBaseMismatch
  | routeNotAllowed
  | getRequestBodyNotAllowed
  | invalidSourceIp
  | queryNotAllowed
  | invalidPublicBaseUrl
  | invalidRequestHeaders
  | requestHeaderNotAllowed
  | invalidBodyBase64
  | requestTooLarge
  | missingResponseStart
  | duplicateResponseStart
  | missingResponseBody
  | streamingNotSupported
  | invalidResponseStatus
  | invalidResponseBody
  | responseTooLarge
  | invalidResponseHeaders
  deriving DecidableEq

/-! ## Requests -/

/-- `_REQUEST_HEADERS`. -/
def requestHeaders : List PyStr :=
  [py "accept", py "content-type", py "payment-signature", py "x-job-token"]

def maxRequestBytes : Nat := 256 * 1024

/-- `_BASE_ENVELOPE_FIELDS`. -/
def baseEnvelopeFields : List PyStr :=
  [py "version", py "requestId", py "method", py "path", py "queryString", py "headers",
    py "bodyBase64", py "publicBaseUrl"]

/-- `_SOURCE_ENVELOPE_FIELDS`. -/
def sourceEnvelopeFields : List PyStr := baseEnvelopeFields ++ [py "sourceIp"]

/-- `x402gw_[0-9a-f]{64}\Z`. -/
def isRequestId (id : PyStr) : Bool :=
  id.length = 71 && PyStr.startsWith id (py "x402gw_") && (id.drop 7).all isLowerHex

/-- A validated request, with its bytes. -/
structure Request where
  requestId : PyStr
  method : PyStr
  path : PyStr
  queryString : List Nat
  headers : List (List Nat × List Nat)
  body : List Nat
  publicBaseUrl : PyStr
  sourceIp : Option PyStr

variable (net : NetLib)

def validateSourceIp : Json → Except EnvelopeError PyStr
  | .str value =>
      match net.compressed value with
      | some ip => .ok ip
      | none => .error .invalidSourceIp
  | _ => .error .invalidSourceIp

/-- `value != ""` is refused. -/
def validateQueryString (value : Json) : Except EnvelopeError (List Nat) :=
  if value.pyEq (.str []) then .ok [] else .error .queryNotAllowed

def validatePublicBaseUrl (value : Json) : Except EnvelopeError PyStr :=
  match publicBase net value with
  | some base => .ok base
  | none => .error .invalidPublicBaseUrl

def validateRequestHeader (name : PyStr) (value : Json) :
    Except EnvelopeError (List Nat × List Nat) :=
  match value with
  | .str value =>
      if isHeaderName name && requestHeaders.contains name && isHeaderValue value then
        match asciiEncode name, latin1Encode value with
        | some name, some value => .ok (name, value)
        | _, _ => .error .requestHeaderNotAllowed
      else .error .requestHeaderNotAllowed
  | _ => .error .requestHeaderNotAllowed

def validateRequestHeaders : Json → Except EnvelopeError (List (List Nat × List Nat))
  | .obj headers => headers.mapM fun e => validateRequestHeader e.1 e.2
  | _ => .error .invalidRequestHeaders

def decodeRequestBody : Json → Except EnvelopeError (List Nat)
  | .str text =>
      match base64Decode text with
      | none => .error .invalidBodyBase64
      | some body => if maxRequestBytes < body.length then .error .requestTooLarge else .ok body
  | _ => .error .invalidBodyBase64

/-- An object with the fields of an envelope. -/
def envelopeFields : Json → Except EnvelopeError (List (PyStr × Json))
  | .obj envelope =>
      if hasExactly envelope baseEnvelopeFields || hasExactly envelope sourceEnvelopeFields then
        .ok envelope
      else .error .invalidEnvelope
  | _ => .error .invalidEnvelope

def validateVersion : Json → Except EnvelopeError Unit
  | .int 1 => .ok ()
  | _ => .error .invalidEnvelopeVersion

def validateRequestId : Json → Except EnvelopeError PyStr
  | .str id => if isRequestId id then .ok id else .error .invalidRequestId
  | _ => .error .invalidRequestId

def validateRoute : Json → Json → Except EnvelopeError (PyStr × PyStr)
  | .str method, .str path =>
      if isRoute method path then .ok (method, path) else .error .routeNotAllowed
  | _, _ => .error .routeNotAllowed

/-- `envelope[key]`, after the check of the fields. -/
def field (envelope : List (PyStr × Json)) (key : PyStr) : Json :=
  (dictGet envelope key).getD .null

/-- The source address, if the envelope has one. -/
def sourceIpOf : Option Json → Except EnvelopeError (Option PyStr)
  | none => .ok none
  | some value => (validateSourceIp net value).map some

/-- `_validate_request`. -/
def validateRequest (envelope : Json) (expectedPublicBaseUrl : PyStr) :
    Except EnvelopeError Request := do
  let envelope ← envelopeFields envelope
  validateVersion (field envelope (py "version"))
  let requestId ← validateRequestId (field envelope (py "requestId"))
  let expectedBaseUrl ← validatePublicBaseUrl net (.str expectedPublicBaseUrl)
  let publicBaseUrl ← validatePublicBaseUrl net (field envelope (py "publicBaseUrl"))
  if publicBaseUrl ≠ expectedBaseUrl then .error .publicBaseMismatch
  else
    let (method, path) ← validateRoute (field envelope (py "method")) (field envelope (py "path"))
    let queryString ← validateQueryString (field envelope (py "queryString"))
    let body ← decodeRequestBody (field envelope (py "bodyBase64"))
    if method = py "GET" && !body.isEmpty then .error .getRequestBodyNotAllowed
    else
      let headers ← validateRequestHeaders (field envelope (py "headers"))
      let sourceIp ← sourceIpOf net (dictGet envelope (py "sourceIp"))
      return ⟨requestId, method, path, queryString, headers, body, publicBaseUrl, sourceIp⟩

/-- The scope of an ASGI request, as far as it depends on the envelope, and
the body that `receive` gives. -/
structure AsgiRequest where
  method : PyStr
  path : PyStr
  rawPath : List Nat
  queryString : List Nat
  headers : List (List Nat × List Nat)
  x402PublicBaseUrl : PyStr
  x402SourceIp : Option PyStr
  body : List Nat

/-- The scope that `dispatch_x402_envelope` makes; a route is ASCII, so its
bytes are its code points. -/
def Request.asgi (r : Request) : AsgiRequest where
  method := r.method
  path := r.path
  rawPath := r.path
  queryString := r.queryString
  headers := r.headers
  x402PublicBaseUrl := r.publicBaseUrl
  x402SourceIp := r.sourceIp
  body := r.body

/-! ## Responses -/

/-- `_RESPONSE_HEADERS`. -/
def responseHeaders : List PyStr :=
  [py "content-type", py "location", py "retry-after", py "cache-control", py "vary",
    py "payment-required", py "payment-response"]

def maxResponseBytes : Nat := 2 * 1024 * 1024

/-- What an application answered. -/
structure Response where
  status : Int
  headers : List (PyStr × PyStr)
  body : List Nat

/-- `message.get("type") == kind`. -/
def hasType (kind : PyStr) (message : Message) : Bool :=
  match message.lookup (py "type") with
  | some (.str s) => s = kind
  | _ => false

def isResponseStart : Message → Bool := hasType (py "http.response.start")

/-- The one start message. -/
def responseStart (sent : List Message) : Except EnvelopeError Message :=
  match sent.filter isResponseStart with
  | [] => .error .missingResponseStart
  | [start] => .ok start
  | _ => .error .duplicateResponseStart

/-- The body messages after the start message, which is the only one of its
type. -/
def responseBodies (sent : List Message) : Except EnvelopeError (List Message) :=
  let bodies := (sent.dropWhile (!isResponseStart ·)).tail.filter
    (hasType (py "http.response.body"))
  if bodies.isEmpty then .error .missingResponseBody
  else if bodies.any (fun message => isTrue (message.lookup (py "more_body"))) then
    .error .streamingNotSupported
  else .ok bodies

def responseStatus (start : Message) : Except EnvelopeError Int :=
  match start.lookup (py "status") with
  | some (.int status) =>
      if 100 ≤ status ∧ status ≤ 599 then .ok status else .error .invalidResponseStatus
  | _ => .error .invalidResponseStatus

/-- `message.get("body", b"")`, which has to be bytes. -/
def bodyChunk (message : Message) : Except EnvelopeError (List Nat) :=
  match message.lookup (py "body") with
  | none => .ok []
  | some (.bytes bs) => .ok (byteValues bs)
  | _ => .error .invalidResponseBody

/-- One header pair; the bytes of a Latin-1 text are its code points. -/
def responseHeader (result : List (PyStr × PyStr)) (header : Value) :
    Except EnvelopeError (List (PyStr × PyStr)) :=
  match header with
  | .tuple [.bytes name, .bytes value] =>
      let name := byteValues name
      if name.any (128 ≤ ·) then .error .invalidResponseHeaders
      else if !isHeaderName name || name != name.map asciiLower then
        .error .invalidResponseHeaders
      else if responseHeaders.contains name then .ok (dictSet result name (byteValues value))
      else .ok result
  | _ => .error .invalidResponseHeaders

/-- `_response_headers`. -/
def responseHeadersOf (headers : Option Value) : Except EnvelopeError (List (PyStr × PyStr)) :=
  match headers with
  | none => .ok []
  | some (.list headers) => headers.foldlM responseHeader []
  | some _ => .error .invalidResponseHeaders

/-- The checks of `_validate_and_encode_response`. -/
def validateResponse (sent : List Message) : Except EnvelopeError Response := do
  let start ← responseStart sent
  let bodies ← responseBodies sent
  let status ← responseStatus start
  let chunks ← bodies.mapM bodyChunk
  if maxResponseBytes < chunks.flatten.length then .error .responseTooLarge
  else
    let headers ← responseHeadersOf (start.lookup (py "headers"))
    return ⟨status, headers, chunks.flatten⟩

/-- The envelope of an answer. -/
def Response.envelope (r : Response) (requestId : PyStr) : List (PyStr × Json) :=
  [(py "requestId", .str requestId),
   (py "status", .int r.status),
   (py "headers", .obj (r.headers.map fun e => (e.1, .str e.2))),
   (py "bodyBase64", .str (base64Encode r.body))]

def validateAndEncodeResponse (requestId : PyStr) (sent : List Message) :
    Except EnvelopeError (List (PyStr × Json)) := do
  let r ← validateResponse sent
  return r.envelope requestId

end X402
