import StockAnalyst.WireRules

/-!
# The request envelope of the gateway

`build_envelope` of the gateway's Lambda function: it turns an API Gateway
event into the nine fields that are sent to the agent.
-/

namespace X402Lambda

open Python X402

/-- What the gateway takes from Python's libraries. -/
structure Lib where
  net : NetLib
  sha256 : List Nat → List Nat
  sha256_digest : ∀ m, (sha256 m).length = 32 ∧ ∀ b ∈ sha256 m, b < 256

/-- The codes of `GatewayRequestError`. -/
inductive RequestError where
  | getRequestBodyNotAllowed
  | sourceIpUnavailable
  | routeNotAllowed
  | queryNotAllowed
  | invalidBodyBase64
  | invalidRequestBody
  | requestTooLarge
  | invalidRequestHeaders
  | requestHeaderNotAllowed
  | invalidPublicBaseUrl
  deriving DecidableEq

def RequestError.code : RequestError → PyStr
  | .getRequestBodyNotAllowed => py "get_request_body_not_allowed"
  | .sourceIpUnavailable => py "source_ip_unavailable"
  | .routeNotAllowed => py "route_not_allowed"
  | .queryNotAllowed => py "query_not_allowed"
  | .invalidBodyBase64 => py "invalid_body_base64"
  | .invalidRequestBody => py "invalid_request_body"
  | .requestTooLarge => py "request_too_large"
  | .invalidRequestHeaders => py "invalid_request_headers"
  | .requestHeaderNotAllowed => py "request_header_not_allowed"
  | .invalidPublicBaseUrl => py "invalid_public_base_url"

def RequestError.status : RequestError → Int
  | .requestTooLarge => 413
  | _ => 400

/-- `_ALLOWED_HEADERS`. -/
def allowedHeaders : List PyStr :=
  [py "accept", py "content-type", py "payment-signature", py "x-job-token"]

def maxBodyBytes : Nat := 256 * 1024

def maxPaymentSignatureCharacters : Nat := 32 * 1024

/-- An API Gateway event: the members of a JSON object. -/
abbrev Event := List (PyStr × Json)

/-- `d.get(key)` of a value that may be no mapping. -/
def member (value : Option Json) (key : PyStr) : Option Json :=
  match value with
  | some (.obj kvs) => dictGet kvs key
  | _ => none

variable (lib : Lib)

def trustedSourceIp (event : Event) : Except RequestError PyStr :=
  match member (member (dictGet event (py "requestContext")) (py "identity")) (py "sourceIp") with
  | some (.str value) =>
      match lib.net.compressed value with
      | some ip => .ok ip
      | none => .error .sourceIpUnavailable
  | _ => .error .sourceIpUnavailable

def withoutStagePrefix (path : PyStr) (requestContext : Option Json) : PyStr :=
  match member requestContext (py "stage") with
  | some (.str stage) =>
      if stage.isEmpty then path
      else if path = 47 :: stage then py "/"
      else if PyStr.startsWith path (47 :: stage ++ [47]) then path.drop (stage.length + 1)
      else path
  | _ => path

def validatedRoute (event : Event) : Except RequestError (PyStr × PyStr) :=
  match dictGet event (py "httpMethod"), dictGet event (py "path") with
  | some (.str method), some (.str rawPath) =>
      let path := withoutStagePrefix rawPath (dictGet event (py "requestContext"))
      if isRoute method path then .ok (method, path) else .error .routeNotAllowed
  | _, _ => .error .routeNotAllowed

/-- `value in (None, {})`. -/
def isNothing : Option Json → Bool
  | none => true
  | some .null => true
  | some (.obj kvs) => kvs.isEmpty
  | _ => false

def validatedQuery (event : Event) : Except RequestError PyStr :=
  if isNothing (dictGet event (py "queryStringParameters")) &&
      isNothing (dictGet event (py "multiValueQueryStringParameters")) then .ok []
  else .error .queryNotAllowed

/-- `raw.encode("utf-8")`.  A number that is no code point is refused as a
surrogate is. -/
def encodeText (raw : PyStr) : Option (List Nat) :=
  if raw.all (· < 0x110000) then utf8Encode raw else none

/-- `isBase64Encoded`, which has to be a Boolean. -/
def isEncoded : Option Json → Except RequestError Bool
  | none => .ok false
  | some (.bool encoded) => .ok encoded
  | _ => .error .invalidBodyBase64

/-- The bytes of a body. -/
def bodyBytes (encoded : Bool) : Option Json → Except RequestError (List Nat)
  | none => .ok []
  | some .null => .ok []
  | some (.str rawBody) =>
      if encoded then
        match base64Decode rawBody with
        | some body => .ok body
        | none => .error .invalidBodyBase64
      else match encodeText rawBody with
        | some body => .ok body
        | none => .error .invalidRequestBody
  | _ => .error .invalidRequestBody

def decodeBody (event : Event) : Except RequestError (List Nat) := do
  let encoded ← isEncoded (dictGet event (py "isBase64Encoded"))
  let body ← bodyBytes encoded (dictGet event (py "body"))
  if maxBodyBytes < body.length then .error .requestTooLarge else .ok body

/-- `_header_name`; the keys of an event are strings. -/
def headerName (rawName : PyStr) : Except RequestError PyStr :=
  let name := lib.net.lib.lower rawName
  if isHeaderName name then .ok name else .error .requestHeaderNotAllowed

def recordHeader (headers : List (PyStr × PyStr)) (rawName : PyStr) (value : Json) :
    Except RequestError (List (PyStr × PyStr)) := do
  let name ← headerName lib rawName
  if !allowedHeaders.contains name then return headers
  match value with
  | .str value =>
      if !isHeaderValue value then .error .requestHeaderNotAllowed
      else if name = py "payment-signature" && maxPaymentSignatureCharacters < value.length then
        .error .requestHeaderNotAllowed
      else if (latin1Encode value).isNone then .error .requestHeaderNotAllowed
      else if (headers.lookup name).any (· != value) then .error .requestHeaderNotAllowed
      else .ok (dictSet headers name value)
  | _ => .error .requestHeaderNotAllowed

/-- One entry of `multiValueHeaders`. -/
def recordSingle (headers : List (PyStr × PyStr)) (rawName : PyStr) (values : Json) :
    Except RequestError (List (PyStr × PyStr)) := do
  let name ← headerName lib rawName
  if !allowedHeaders.contains name then return headers
  match values with
  | .arr [value] => recordHeader lib headers rawName value
  | _ => .error .requestHeaderNotAllowed

/-- The items of `value or {}`. -/
def itemsOf : Option Json → Except RequestError (List (PyStr × Json))
  | some (.obj items) => .ok items
  | value => if truthy value then .error .invalidRequestHeaders else .ok []

/-- `_allowed_headers`, with `raw_headers or {}` as its first argument. -/
def allowedHeadersOf (rawHeaders multiValueHeaders : Option Json) :
    Except RequestError (List (PyStr × PyStr)) := do
  let items ← itemsOf rawHeaders
  let headers ← items.foldlM (fun headers e => recordHeader lib headers e.1 e.2) []
  match multiValueHeaders with
  | none => return headers
  | some .null => return headers
  | some (.obj items) => items.foldlM (fun headers e => recordSingle lib headers e.1 e.2) headers
  | some _ => .error .invalidRequestHeaders

def validatePublicBase (value : PyStr) : Except RequestError PyStr :=
  match publicBase lib.net (.str value) with
  | some base => .ok base
  | none => .error .invalidPublicBaseUrl

/-- The digest input of a request; a route is ASCII, so its bytes are its code
points. -/
def digestInput (method path query : PyStr) (headers : List (PyStr × PyStr)) (body : List Nat) :
    List Nat :=
  let header (name : PyStr) := (utf8Encode ((headers.lookup name).getD [])).getD []
  py "x402-gateway-v1" ++ [0] ++ method ++ [0] ++ path ++ [0] ++ query ++ [0] ++
    header (py "payment-signature") ++ [0] ++ header (py "x-job-token") ++ [0] ++ body

/-- The envelope of a request. -/
def envelopeOf (method path query sourceIp base : PyStr) (headers : List (PyStr × PyStr))
    (body : List Nat) : List (PyStr × Json) :=
  [(py "version", .int 1),
   (py "requestId", .str (py "x402gw_" ++
      toHex (lib.sha256 (digestInput method path query headers body)))),
   (py "method", .str method),
   (py "path", .str path),
   (py "queryString", .str query),
   (py "publicBaseUrl", .str base),
   (py "headers", .obj (headers.map fun e => (e.1, .str e.2))),
   (py "bodyBase64", .str (base64Encode body)),
   (py "sourceIp", .str sourceIp)]

def buildEnvelope (event : Event) (publicBaseUrl : PyStr) :
    Except RequestError (List (PyStr × Json)) := do
  let (method, path) ← validatedRoute event
  let sourceIp ← trustedSourceIp lib event
  let queryString ← validatedQuery event
  let body ← decodeBody event
  if method = py "GET" && !body.isEmpty then .error .getRequestBodyNotAllowed
  else
    let headers ← allowedHeadersOf lib (dictGet event (py "headers"))
      (dictGet event (py "multiValueHeaders"))
    let base ← validatePublicBase lib publicBaseUrl
    return envelopeOf lib method path queryString sourceIp base headers body

end X402Lambda
