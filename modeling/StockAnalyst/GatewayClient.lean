import StockAnalyst.GatewayEnvelope

/-!
# The Lambda function of the gateway

The narrow client of the agent, `AgentCoreClient`, and the coordinator
`GatewayApplication`, which turns every failure into a safe answer.  What is
logged is left out.
-/

namespace X402Lambda

open Python X402

/-! ## The client of the agent -/

/-- The exceptions of the client. -/
inductive AgentError where
  | unauthorized
  | rateLimited
  | timeout
  | unavailable
  | invalidResponse
  deriving DecidableEq

/-- `_RESPONSE_HEADERS`. -/
def responseHeaders : List PyStr :=
  [py "content-type", py "location", py "retry-after", py "cache-control", py "vary",
    py "payment-required", py "payment-response"]

def maxResponseBytes : Nat := 2 * 1024 * 1024

def maxAgentcoreResponseBytes : Nat := 3 * 1024 * 1024

/-- A validated answer of the agent. -/
structure AgentResponse where
  requestId : PyStr
  status : Int
  headers : List (PyStr × PyStr)
  bodyBase64 : PyStr

/-- One header of an answer. -/
def cleanHeader (clean : List (PyStr × PyStr)) (name : PyStr) (value : Json) :
    Except AgentError (List (PyStr × PyStr)) :=
  match value with
  | .str value =>
      if responseHeaders.contains name && isHeaderName name && isHeaderValue value then
        .ok (dictSet clean name value)
      else .error .invalidResponse
  | _ => .error .invalidResponse

/-- `_validated_response_envelope`. -/
def validatedResponseEnvelope (value : List (PyStr × Json)) (requestId : PyStr) :
    Except AgentError AgentResponse :=
  if !hasExactly value [py "requestId", py "status", py "headers", py "bodyBase64"] ||
      !(member (some (.obj value)) (py "requestId")).any (·.pyEq (.str requestId)) then
    .error .invalidResponse
  else
    match dictGet value (py "status"), dictGet value (py "headers"),
        dictGet value (py "bodyBase64") with
    | some (.int status), some (.obj headers), some (.str bodyBase64) =>
        if ¬ (100 ≤ status ∧ status ≤ 599) then .error .invalidResponse
        else do
          let clean ← headers.foldlM (fun clean e => cleanHeader clean e.1 e.2) []
          match base64Decode bodyBase64 with
          | none => .error .invalidResponse
          | some decoded =>
              if maxResponseBytes < decoded.length then .error .invalidResponse
              else .ok ⟨requestId, status, clean, bodyBase64⟩
    | _, _, _ => .error .invalidResponse

/-- The status of the transport, before its body is looked at. -/
def transportStatus (response : Message) : Except AgentError Unit :=
  match response.lookup (py "status") with
  | some (.int status) =>
      if status = 401 ∨ status = 403 then .error .unauthorized
      else if status = 429 then .error .rateLimited
      else if 500 ≤ status ∧ status ≤ 599 then .error .unavailable
      else if ¬ (200 ≤ status ∧ status ≤ 299) then .error .invalidResponse
      else .ok ()
  | _ => .error .invalidResponse

/-- The body of the transport, at most three megabytes. -/
def transportBody (response : Message) : Except AgentError (List Nat) :=
  match response.lookup (py "body") with
  | some (.bytes bs) =>
      if maxAgentcoreResponseBytes < bs.length then .error .invalidResponse
      else .ok (byteValues bs)
  | _ => .error .invalidResponse

/-- The parts of a JSON-RPC result that is bound to the request. -/
def resultParts (payload : Json) (requestId : PyStr) : Except AgentError (List Json) :=
  let field (key : PyStr) := member (some payload) key
  if !(field (py "jsonrpc")).any (·.pyEq (.str (py "2.0"))) ||
      !(field (py "id")).any (·.pyEq (.str requestId)) then .error .invalidResponse
  else match member (field (py "result")) (py "parts") with
    | some (.arr parts) => .ok parts
    | _ => .error .invalidResponse

/-- `part.get("data")` of a data part. -/
def partData (part : Json) : Option (Option Json) :=
  if (member (some part) (py "kind")).any (·.pyEq (.str (py "data"))) then
    some (member (some part) (py "data"))
  else none

section client

variable (lib : Lib) (loads : PyStr → Option Json)

/-- `_extract_response`; `loads` is `json.loads`. -/
def extractResponse (response : Message) (requestId : PyStr) : Except AgentError AgentResponse := do
  transportStatus response
  let rawBody ← transportBody response
  match (lib.net.lib.utf8Decode rawBody).bind loads with
  | none => .error .invalidResponse
  | some payload =>
      let parts ← resultParts payload requestId
      match parts.filterMap partData with
      | [some (.obj data)] => validatedResponseEnvelope data requestId
      | _ => .error .invalidResponse

/-- The JSON-RPC call that carries an envelope. -/
def rpcRequest (requestId : PyStr) (envelope : List (PyStr × Json)) : Json :=
  .obj
    [(py "jsonrpc", .str (py "2.0")),
     (py "id", .str requestId),
     (py "method", .str (py "message/send")),
     (py "params", .obj [(py "message", .obj
       [(py "kind", .str (py "message")),
        (py "messageId", .str requestId),
        (py "role", .str (py "user")),
        (py "parts", .arr [.obj
          [(py "kind", .str (py "data")),
           (py "data", .obj
             [(py "skill", .str (py "x402_http_envelope")),
              (py "envelope", .obj envelope)])]])])])]

/-- A transport: the authorization header and the call it sends.  Its own
exceptions are those of the client: a timeout, or unavailable. -/
abbrev Transport := PyStr → Json → Except AgentError Message

/-- `AgentCoreClient.invoke`. -/
def invoke (transport : Transport) (authorization : PyStr) (envelope : List (PyStr × Json)) :
    Except AgentError AgentResponse :=
  match dictGet envelope (py "requestId") with
  | some (.str requestId) => do
      let response ← transport authorization (rpcRequest requestId envelope)
      extractResponse lib loads response requestId
  | _ => .error .invalidResponse

end client

/-! ## The coordinator -/

/-- What stops a request. -/
inductive Failure where
  | request (e : RequestError)
  | agent (e : AgentError)
  | oauth
  | configuration
  | internal

/-- The answer to API Gateway. -/
structure Result where
  statusCode : Int
  headers : List (PyStr × PyStr)
  isBase64Encoded : Bool
  body : PyStr

def safeError (lib : Lib) (status : Int) (errorCode : PyStr) (retryable : Bool) : Result where
  statusCode := status
  headers := [(py "content-type", py "application/json")]
  isBase64Encoded := false
  body := ((Json.obj ([(py "errorCode", .str errorCode)] ++
    if retryable then [(py "retryable", .bool true)] else [])).dumps lib.net.lib).getD []

/-- The answer to a request that failed. -/
def Failure.result (lib : Lib) : Failure → Result
  | .request e => safeError lib e.status e.code false
  | .agent .timeout => safeError lib 503 (py "settlement_status_unknown") true
  | .agent .invalidResponse => safeError lib 502 (py "invalid_upstream_response") false
  | .internal => safeError lib 500 (py "internal_error") false
  | _ => safeError lib 503 (py "service_unavailable") true

/-- `[a-z0-9-]+\Z`. -/
def isStageName (stage : PyStr) : Bool := isHeaderName stage

/-- `[a-z0-9]{10}\.execute-api\.[a-z0-9-]+\.amazonaws\.com(?:\.cn)?\Z`. -/
def isExecuteApiDomain (domain : PyStr) : Bool :=
  let isNameChar (c : Nat) : Bool := (97 ≤ c && c ≤ 122) || (48 ≤ c && c ≤ 57)
  let region := (domain.drop 23).takeWhile fun c => isNameChar c || c = 45
  let rest := (domain.drop 23).dropWhile fun c => isNameChar c || c = 45
  (domain.take 10).length = 10 && (domain.take 10).all isNameChar &&
    PyStr.startsWith (domain.drop 10) (py ".execute-api.") && !region.isEmpty &&
    (rest = py ".amazonaws.com" || rest = py ".amazonaws.com.cn")

def trustedPublicBase (lib : Lib) (event : Event) (customDomainName : PyStr) :
    Except Failure PyStr :=
  let context := dictGet event (py "requestContext")
  match member context (py "domainName"), member context (py "stage") with
  | some (.str domainName), some (.str stage) =>
      if !isStageName stage then .error .configuration
      else
        let candidate :=
          if !customDomainName.isEmpty && domainName = customDomainName && stage = py "mainnet" then
            some (py "https://" ++ domainName)
          else if isExecuteApiDomain domainName then
            some (py "https://" ++ domainName ++ [47] ++ stage)
          else none
        match candidate with
        | none => .error .configuration
        | some candidate =>
            match validatePublicBase lib candidate with
            | .ok base => .ok base
            | .error _ => .error .configuration
  | _, _ => .error .configuration

section coordinator

variable (lib : Lib) (loads : PyStr → Option Json) (customDomainName : PyStr)
  (oauth : Except Failure PyStr) (transport : Transport)

/-- The body of the answer as text. -/
def responseText (response : AgentResponse) : Except Failure PyStr :=
  match (base64Decode response.bodyBase64).bind lib.net.lib.utf8Decode with
  | some text => .ok text
  | none => .error (.agent .invalidResponse)

/-- The requests that `handle` answers without an error. -/
def coordinate (event : Event) : Except Failure Result := do
  let base ← trustedPublicBase lib event customDomainName
  let envelope ← (buildEnvelope lib event base).mapError .request
  let authorization ← oauth
  let response ← (invoke lib loads transport authorization envelope).mapError .agent
  let body ← responseText lib response
  return ⟨response.status, response.headers, false, body⟩

/-- `GatewayApplication.handle`. -/
def handle (event : Event) : Result :=
  match coordinate lib loads customDomainName oauth transport event with
  | .ok result => result
  | .error failure => failure.result lib

end coordinator

end X402Lambda
