import StockAnalyst.JsJson

/-!
# Pending create records

The record that `x402-async.ts` keeps beside a paid create until its report is
saved: how it is validated, bound to a job by a MAC, and read from a file.
-/

namespace X402Async

open Python Js Deliverable

/-- What the module takes from Node.js. -/
structure Node where
  /-- `Number(text)` inside `JSON.parse`. -/
  number : JsStr → PyFloat
  /-- `String(x)` of a finite number. -/
  numberText : PyFloat → JsStr
  /-- `Buffer.from(text, "base64").toString("utf8")`. -/
  base64Text : JsStr → JsStr
  /-- `Buffer.from(text, "base64url")`. -/
  base64Url : JsStr → List Nat
  /-- `buffer.toString("utf8")`. -/
  utf8Text : List Nat → JsStr
  /-- `createHmac("sha256", key).update(message).digest()`. -/
  hmacSha256 : List Nat → List Nat → List Nat

/-- What a call throws. -/
inductive Thrown where
  /-- `Error`. -/
  | error (message : String)
  /-- `AsyncJobClientError`. -/
  | client (code : String)
  /-- A system error with its `code`. -/
  | system (code : JsStr)
  deriving DecidableEq

def maxPendingBytes : Nat := 256 * 1024

def pendingRecoveryMilliseconds : Nat := 7 * 24 * 60 * 60 * 1000

/-! ## Values -/

/-- `value[key]`; nothing for `undefined`. -/
def get (entries : List (JsStr × Value)) (key : JsStr) : Option Value := entries.lookup key

/-- The entries of a value that `isRecord` accepts. -/
def record : Option Value → Option (List (JsStr × Value))
  | some (.obj entries) => some entries
  | _ => none

def string : Option Value → Option JsStr
  | some (.str s) => some s
  | _ => none

/-- A number that `Number.isSafeInteger` accepts and that is positive. -/
def positiveSafeInteger : Option Value → Option Nat
  | some (.num (.finite false abs)) =>
      if abs.den = 1 ∧ 0 < abs.num ∧ abs.num ≤ 9007199254740991 then some abs.num.toNat else none
  | _ => none

def isLowerHex (c : Nat) : Bool := (48 ≤ c && c ≤ 57) || (97 ≤ c && c ≤ 102)

def isHex (c : Nat) : Bool := isLowerHex c || (65 ≤ c && c ≤ 70)

/-- `/^x402_[0-9a-f]{32}$/`. -/
def isJobId (s : JsStr) : Bool :=
  startsWith s (js "x402_") && s.length = 37 && (s.drop 5).all isLowerHex

/-- `/^0x[0-9a-fA-F]{40}$/`. -/
def isAddress (s : JsStr) : Bool :=
  startsWith s (js "0x") && s.length = 42 && (s.drop 2).all isHex

/-- `/^[A-Za-z0-9_-]{43}$/`. -/
def isMac (s : JsStr) : Bool :=
  s.length = 43 && s.all fun c =>
    (65 ≤ c && c ≤ 90) || (97 ≤ c && c ≤ 122) || (48 ≤ c && c ≤ 57) || c = 95 || c = 45

/-! ## Payment proofs -/

structure PaymentToken where
  symbol : JsStr
  asset : JsStr
  name : JsStr
  version : JsStr
  transferMethod : JsStr
  deriving DecidableEq

/-- `PAYMENT_TOKENS`. -/
def paymentTokens : List PaymentToken :=
  [⟨js "U", js "0xcE24439F2D9C6a2289F741120FE202248B666666", js "United Stables", js "1",
      js "eip3009"⟩,
    ⟨js "USD1", js "0x8d0D000Ee44948FC98c9B98A4FA4921476f08B0d",
      js "World Liberty Financial USD", js "1", js "eip3009"⟩,
    ⟨js "USDC", js "0x8AC76a51cc950d9822D68b83fE1Ad97B32Cd580d", js "USD Coin", js "1",
      js "permit2-exact"⟩,
    ⟨js "USDT", js "0x55d398326f99059fF775485246999027B3197955", js "Tether USD", js "1",
      js "permit2-exact"⟩]

def paidAmount : JsStr := js "100000000000000000"

/-- `text.toLowerCase()` where it is compared with ASCII letters `x` and `a` to
`f`: no other character has one of these for its lower case. -/
def toLowerCase (text : JsStr) : JsStr := text.map asciiLower

/-- `paymentAccessFromAccepted`: the symbol of the token and `payTo`. -/
def paymentAccessFromAccepted (accepted : Option Value) : Option (JsStr × JsStr) := do
  let accepted ← record accepted
  let extra ← record (get accepted (js "extra"))
  let asset ← string (get accepted (js "asset"))
  let token ← paymentTokens.find? fun token => toLowerCase token.asset = toLowerCase asset
  let payTo ← string (get accepted (js "payTo"))
  let signer ← string (get extra (js "signerAddress"))
  let spender := string (get extra (js "spenderAddress"))
  if string (get accepted (js "amount")) = some paidAmount && isAddress payTo
      && string (get extra (js "name")) = some token.name
      && string (get extra (js "version")) = some token.version
      && string (get extra (js "assetTransferMethod")) = some token.transferMethod
      && isAddress signer
      && (token.transferMethod ≠ js "permit2-exact" || spender.any isAddress) then
    some (token.symbol, toLowerCase payTo)
  else none

/-- `/^[1-9]\d{0,10}$/`. -/
def isDeadline (s : JsStr) : Bool :=
  s.head?.any (fun c => 49 ≤ c && c ≤ 57) && s.length ≤ 11 && s.all isDigit

variable (node : Node)

/-- The JSON in a payment proof. -/
def proofRecord (paymentProof : JsStr) : Option (List (JsStr × Value)) :=
  record (Js.parse node.number (node.base64Text paymentProof))

/-- `paymentProofHasCurrentPaidAccess`. -/
def paymentProofHasCurrentPaidAccess (paymentProof : JsStr) : Bool :=
  ((proofRecord node paymentProof).bind fun proof =>
    paymentAccessFromAccepted (get proof (js "accepted"))).isSome

/-- `paymentProofExpiresAt`; nothing where it throws. -/
def paymentProofExpiresAt (paymentProof : JsStr) : Option Nat := do
  let proof ← proofRecord node paymentProof
  let payload ← record (get proof (js "payload"))
  let extra := (record (get proof (js "accepted"))).bind fun accepted =>
    record (get accepted (js "extra"))
  let permit2 := extra.bind (fun extra => string (get extra (js "assetTransferMethod"))) =
    some (js "permit2-exact")
  let authorization ←
    record (get payload (if permit2 then js "permit2Authorization" else js "authorization"))
  let validBefore ←
    string (get authorization (if permit2 then js "deadline" else js "validBefore"))
  if isDeadline validBefore then some (natOf validBefore * 1000) else none

/-! ## Records -/

/-- `PendingCreateRecord`.  The version of a record and of its binding is 1. -/
structure PendingCreateRecord where
  paymentProof : JsStr
  request : List (JsStr × Value)
  createdAt : Nat
  proofExpiresAt : Nat
  recoveryExpiresAt : Nat
  jobId : Option JsStr
  /-- `binding.mac`. -/
  binding : Option JsStr

def isOne (value : Option Value) : Bool :=
  match value with
  | some (.num x) => x = .finite false 1
  | _ => false

/-- A non-empty array of non-empty strings. -/
def isSymbols : Option Value → Bool
  | some (.arr items) =>
      !items.isEmpty && items.all fun item => (string (some item)).any (!·.isEmpty)
  | _ => false

/-- The `jobId` of a record; nothing inside where it is absent, nothing where
it is refused. -/
def parseJobId : Option Value → Option (Option JsStr)
  | none => some none
  | some value => (string (some value)).bind fun id => if isJobId id then some (some id) else none

def parseBinding : Option Value → Option (Option JsStr)
  | none => some none
  | some value => (record (some value)).bind fun entries =>
      (string (get entries (js "mac"))).bind fun mac =>
        if isOne (get entries (js "version")) && isMac mac then some (some mac) else none

/-- What `parsePendingCreate` checks apart from single members. -/
def isPendingCreate (value : List (JsStr × Value)) (r : PendingCreateRecord) : Bool :=
  isOne (get value (js "version")) && !r.paymentProof.isEmpty
    && r.paymentProof.length ≤ 128 * 1024 && (get value (js "promotional")).isNone
    && paymentProofHasCurrentPaidAccess node r.paymentProof
    && isSymbols (get r.request (js "symbols"))
    && paymentProofExpiresAt node r.paymentProof = some r.proofExpiresAt
    && r.recoveryExpiresAt = r.createdAt + pendingRecoveryMilliseconds

/-- `parsePendingCreate`; nothing where it throws.  Members it does not know
are not in the result. -/
def parsePendingCreate (value : Value) : Option PendingCreateRecord := do
  let value ← record (some value)
  let paymentProof ← string (get value (js "paymentProof"))
  let request ← record (get value (js "request"))
  let createdAt ← positiveSafeInteger (get value (js "createdAt"))
  let proofExpiresAt ← positiveSafeInteger (get value (js "proofExpiresAt"))
  let recoveryExpiresAt ← positiveSafeInteger (get value (js "recoveryExpiresAt"))
  let jobId ← parseJobId (get value (js "jobId"))
  let binding ← parseBinding (get value (js "binding"))
  let r : PendingCreateRecord :=
    ⟨paymentProof, request, createdAt, proofExpiresAt, recoveryExpiresAt, jobId, binding⟩
  if isPendingCreate node value r then some r else none

/-! ## Texts -/

def stringifyNumber (x : PyFloat) : JsStr :=
  match x with
  | .finite _ _ => node.numberText x
  | _ => js "null"

mutual

/-- `JSON.stringify`. -/
def stringifyValue : Value → JsStr
  | .null => js "null"
  | .bool b => if b then js "true" else js "false"
  | .num x => stringifyNumber node x
  | .str s => stringify s
  | .arr items => 0x5B :: PyStr.join [0x2C] (stringifyItems items) ++ [0x5D]
  | .obj entries => 0x7B :: PyStr.join [0x2C] (stringifyEntries entries) ++ [0x7D]

def stringifyItems : List Value → List JsStr
  | [] => []
  | v :: items => stringifyValue v :: stringifyItems items

def stringifyEntries : List (JsStr × Value) → List JsStr
  | [] => []
  | (key, v) :: entries => (stringify key ++ 0x3A :: stringifyValue v) :: stringifyEntries entries

end

mutual

/-- `canonicalJson`; nothing where it throws. -/
def canonicalJson : Value → Option JsStr
  | .null => some (js "null")
  | .bool b => some (if b then js "true" else js "false")
  | .num (.finite neg abs) => some (node.numberText (.finite neg abs))
  | .num _ => none
  | .str s => some (stringify s)
  | .arr items => (canonicalItems items).map fun texts =>
      0x5B :: PyStr.join [0x2C] texts ++ [0x5D]
  | .obj entries => (canonicalEntries entries).map fun texts =>
      0x7B :: PyStr.join [0x2C]
        ((sortedEntries texts).map fun e => stringify e.1 ++ 0x3A :: e.2) ++ [0x7D]

def canonicalItems : List Value → Option (List JsStr)
  | [] => some []
  | v :: items => (canonicalJson v).bind fun text => (canonicalItems items).map (text :: ·)

def canonicalEntries : List (JsStr × Value) → Option (List (JsStr × JsStr))
  | [] => some []
  | (key, v) :: entries => (canonicalJson v).bind fun text =>
      (canonicalEntries entries).map ((key, text) :: ·)

end

def natValue (n : Nat) : Value := .num (.finite false n)

/-- The object of a record, its members in the order of the source. -/
def PendingCreateRecord.toValue (r : PendingCreateRecord) : Value :=
  .obj ([(js "version", natValue 1), (js "paymentProof", .str r.paymentProof),
      (js "request", .obj r.request), (js "createdAt", natValue r.createdAt),
      (js "proofExpiresAt", natValue r.proofExpiresAt),
      (js "recoveryExpiresAt", natValue r.recoveryExpiresAt)]
    ++ (r.jobId.map fun id => (js "jobId", Value.str id)).toList
    ++ (r.binding.map fun mac => (js "binding",
        Value.obj [(js "version", natValue 1), (js "mac", .str mac)])).toList)

/-! ## Bindings -/

/-- `length.writeUInt32BE(n)`. -/
def uint32BE (n : Nat) : List Nat := [n / 16777216 % 256, n / 65536 % 256, n / 256 % 256, n % 256]

/-- `pendingBindingMac`; nothing where it throws. -/
def pendingBindingMac (pending : PendingCreateRecord) (jobId jobToken : JsStr) :
    Option (List Nat) :=
  if isJobId jobId && !jobToken.isEmpty && jobToken.length ≤ 4096
      && !jobToken.contains 10 && !jobToken.contains 13 then
    (canonicalJson node (.obj pending.request)).bind fun request =>
      let parts := [js "stockanalyst:x402-pending-binding:v1", jobId, pending.paymentProof,
        request].map utf8
      if parts.any (maxPendingBytes < ·.length) then none
      else some (node.hmacSha256 (utf8 jobToken)
        (parts.flatMap fun part => uint32BE part.length ++ part))
  else none

/-- `pendingBindingIsValid`. -/
def pendingBindingIsValid (pending : PendingCreateRecord) (jobId jobToken : JsStr) : Bool :=
  pending.jobId = some jobId &&
    match pending.binding with
    | none => false
    | some mac =>
        isMac mac && (pendingBindingMac node pending jobId jobToken).any (node.base64Url mac = ·)

/-! ## Files -/

/-- `loadPendingCreate` of the bytes of a file; nothing where it throws. -/
def loadPendingCreate (content : List Nat) : Option PendingCreateRecord :=
  if maxPendingBytes < content.length then none
  else (Js.parse node.number (node.utf8Text content)).bind (parsePendingCreate node)

end X402Async
