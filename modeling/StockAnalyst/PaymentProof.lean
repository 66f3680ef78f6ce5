import StockAnalyst.Eip712
import StockAnalyst.PendingRecord
import StockAnalyst.ProofSoundness
import StockAnalyst.StringifyLoads

/-!
# Payment proofs of the client

The client takes one of the offers of a payment challenge, for its own seller,
price and token, and signs a proof for exactly that offer: a transfer
authorization of the token itself, or a Permit2 transfer with a witness.
-/

namespace X402Async

open Python Js Deliverable

/-! ## Challenges -/

/-- `B402PaymentRequirement`; its scheme and network are fixed. -/
structure PaymentRequirement where
  amount : JsStr
  asset : JsStr
  payTo : JsStr
  maxTimeoutSeconds : Nat
  extra : List (JsStr × Value)

def PaymentRequirement.entries (r : PaymentRequirement) : List (JsStr × Value) :=
  [(js "scheme", .str (js "exact")), (js "network", .str (js "eip155:56")),
    (js "amount", .str r.amount), (js "asset", .str r.asset), (js "payTo", .str r.payTo),
    (js "maxTimeoutSeconds", natValue r.maxTimeoutSeconds), (js "extra", .obj r.extra)]

/-- `PaidPaymentChallenge`. -/
structure PaidPaymentChallenge where
  url : JsStr
  description : JsStr
  accepted : PaymentRequirement

def isNat (n : Nat) : Option Value → Bool
  | some (.num x) => x = .finite false n
  | _ => false

/-- The checks of `extraValue`. -/
def isExtra (token : PaymentToken) (extra : List (JsStr × Value)) : Bool :=
  string (get extra (js "name")) = some token.name
    && string (get extra (js "version")) = some token.version
    && string (get extra (js "assetTransferMethod")) = some token.transferMethod
    && (string (get extra (js "signerAddress"))).any isAddress
    && (token.transferMethod ≠ js "permit2-exact" ||
      (string (get extra (js "spenderAddress"))).any isAddress)

/-- The `extra` that is kept: `extraValue` with its own texts set again. -/
def keptExtra (token : PaymentToken) (extra : List (JsStr × Value)) : List (JsStr × Value) :=
  let signer := (get extra (js "signerAddress")).getD .null
  let named := dictSet (dictSet (dictSet extra (js "name") (.str token.name))
    (js "version") (.str token.version)) (js "assetTransferMethod") (.str token.transferMethod)
  let signed := dictSet named (js "signerAddress") signer
  if token.transferMethod = js "permit2-exact" then
    dictSet signed (js "spenderAddress") ((get extra (js "spenderAddress")).getD .null)
  else signed

/-- One turn of the loop of `parsePaymentChallenge`; nothing where it throws. -/
def parseRequirement (seller : JsStr) (acceptedValue : Value) :
    Option (PaymentToken × PaymentRequirement) := do
  let accepted ← record (some acceptedValue)
  let extra ← record (get accepted (js "extra"))
  let asset ← string (get accepted (js "asset"))
  let token ← paymentTokens.find? fun token => toLowerCase token.asset = toLowerCase asset
  let payTo ← string (get accepted (js "payTo"))
  if string (get accepted (js "scheme")) = some (js "exact")
      && string (get accepted (js "network")) = some (js "eip155:56")
      && string (get accepted (js "amount")) = some paidAmount
      && toLowerCase payTo = seller
      && isNat 600 (get accepted (js "maxTimeoutSeconds"))
      && isExtra token extra then
    some (token,
      { amount := paidAmount
        asset := token.asset
        payTo := toLowerCase payTo
        maxTimeoutSeconds := 600
        extra := keptExtra token extra })
  else none

/-- The loop of `parsePaymentChallenge`, with `acceptedBySymbol`. -/
def parseRequirements (seller : JsStr) :
    List Value → List (JsStr × PaymentRequirement) → Option (List (JsStr × PaymentRequirement))
  | [], acceptedBySymbol => some acceptedBySymbol
  | acceptedValue :: accepts, acceptedBySymbol => do
      let (token, requirement) ← parseRequirement seller acceptedValue
      if (acceptedBySymbol.lookup token.symbol).isSome then none
      else parseRequirements seller accepts (acceptedBySymbol ++ [(token.symbol, requirement)])

def array : Option Value → Option (List Value)
  | some (.arr items) => some items
  | _ => none

/-- `parsePaymentChallenge`, where `expectedResourceUrl` is the route of the
endpoint; nothing where it throws. -/
def parsePaymentChallenge (expectedResourceUrl expectedSeller : JsStr) (value : Value)
    (preferredToken : JsStr) : Option PaidPaymentChallenge := do
  let value ← record (some value)
  let paymentRequired ← record (get value (js "paymentRequired"))
  let accepts ← array (get paymentRequired (js "accepts"))
  let resource ← record (get paymentRequired (js "resource"))
  let url ← string (get resource (js "url"))
  let description ← string (get resource (js "description"))
  if isNat 2 (get paymentRequired (js "x402Version")) && !accepts.isEmpty
      && url = expectedResourceUrl && description ≠ []
      && string (get resource (js "mimeType")) = some (js "application/json")
      && isAddress expectedSeller
      && paymentTokens.any (·.symbol = preferredToken) then do
    let acceptedBySymbol ← parseRequirements (toLowerCase expectedSeller) accepts []
    let accepted ← acceptedBySymbol.lookup preferredToken
    some ⟨url, description, accepted⟩
  else none

/-! ## Typed data -/

/-- What the module takes from `ethers`; nothing where it throws. -/
structure Wallet where
  address : JsStr
  getAddress : JsStr → Option JsStr
  signTypedData : Eip712.Message → Option JsStr

/-- The bytes of an address in typed data. -/
def Wallet.addressBytes (wallet : Wallet) (s : JsStr) : Option Eip712.Bytes :=
  (wallet.getAddress s).bind fun address => fromHex (address.drop 2)

def bscMainnetChainId : Nat := 56

def permit2Address : JsStr := js "0x000000000022D473030F116dDEE9F6B43aC78BA3"

/-- `types` of a transfer authorization. -/
def transferTypes : List Eip712.StructType :=
  [⟨Eip712.ascii "TransferWithAuthorization",
    [⟨.address, Eip712.ascii "from"⟩, ⟨.address, Eip712.ascii "to"⟩,
      ⟨.uint256, Eip712.ascii "value"⟩, ⟨.uint256, Eip712.ascii "validAfter"⟩,
      ⟨.uint256, Eip712.ascii "validBefore"⟩, ⟨.bytes32, Eip712.ascii "nonce"⟩]⟩]

/-- The typed data of a transfer authorization; nothing where an address is
refused. -/
def transferMessage (wallet : Wallet) (name version asset payer recipient : JsStr)
    (value validAfter validBefore : Nat) (nonce : List Nat) : Option Eip712.Message := do
  let contract ← wallet.addressBytes asset
  let payer ← wallet.addressBytes payer
  let recipient ← wallet.addressBytes recipient
  some
    { domain :=
        [(⟨.string, Eip712.ascii "name"⟩, .text (utf8 name)),
          (⟨.string, Eip712.ascii "version"⟩, .text (utf8 version)),
          (⟨.uint256, Eip712.ascii "chainId"⟩, .uint bscMainnetChainId),
          (⟨.address, Eip712.ascii "verifyingContract"⟩, .address contract)]
      types := transferTypes
      primaryType := Eip712.ascii "TransferWithAuthorization"
      values := [.address payer, .address recipient, .uint value, .uint validAfter,
        .uint validBefore, .word nonce] }

/-- `PERMIT2_TYPES`. -/
def permit2Types : List Eip712.StructType :=
  [⟨Eip712.ascii "PermitWitnessTransferFrom",
      [⟨.struct (Eip712.ascii "TokenPermissions"), Eip712.ascii "permitted"⟩,
        ⟨.address, Eip712.ascii "spender"⟩, ⟨.uint256, Eip712.ascii "nonce"⟩,
        ⟨.uint256, Eip712.ascii "deadline"⟩,
        ⟨.struct (Eip712.ascii "Witness"), Eip712.ascii "witness"⟩]⟩,
    ⟨Eip712.ascii "TokenPermissions",
      [⟨.address, Eip712.ascii "token"⟩, ⟨.uint256, Eip712.ascii "amount"⟩]⟩,
    ⟨Eip712.ascii "Witness",
      [⟨.address, Eip712.ascii "to"⟩, ⟨.uint256, Eip712.ascii "validAfter"⟩]⟩]

/-- The typed data of a Permit2 transfer; nothing where an address is
refused. -/
def permit2Message (wallet : Wallet) (token : JsStr) (amount : Nat) (spender : JsStr)
    (nonce deadline : Nat) (recipient : JsStr) (validAfter : Nat) : Option Eip712.Message := do
  let contract ← wallet.addressBytes permit2Address
  let token ← wallet.addressBytes token
  let spender ← wallet.addressBytes spender
  let recipient ← wallet.addressBytes recipient
  some
    { domain :=
        [(⟨.string, Eip712.ascii "name"⟩, .text (utf8 (js "Permit2"))),
          (⟨.uint256, Eip712.ascii "chainId"⟩, .uint bscMainnetChainId),
          (⟨.address, Eip712.ascii "verifyingContract"⟩, .address contract)]
      types := permit2Types
      primaryType := Eip712.ascii "PermitWitnessTransferFrom"
      values := [.struct [.address token, .uint amount], .address spender, .uint nonce,
        .uint deadline, .struct [.address recipient, .uint validAfter]] }

/-! ## Proofs -/

/-- `resource` of a challenge. -/
def PaidPaymentChallenge.resource (challenge : PaidPaymentChallenge) : List (JsStr × Value) :=
  [(js "url", .str challenge.url), (js "description", .str challenge.description),
    (js "mimeType", .str (js "application/json"))]

/-- `payload`, where `key` is the name of what was signed. -/
def payloadEntries (key signature : JsStr) (authorization : List (JsStr × Value)) :
    List (JsStr × Value) :=
  [(js "signature", .str signature), (key, .obj authorization)]

/-- The proof for a challenge with its payload. -/
def proofEntries (challenge : PaidPaymentChallenge) (payload : List (JsStr × Value)) :
    List (JsStr × Value) :=
  [(js "x402Version", natValue 2), (js "resource", .obj challenge.resource),
    (js "accepted", .obj challenge.accepted.entries), (js "payload", .obj payload)]

/-- `Buffer.from(JSON.stringify(proof)).toString("base64")`. -/
def proofText (numberText : PyFloat → JsStr) (proof : List (JsStr × Value)) : JsStr :=
  base64Encode (utf8 (Js.stringifyValue numberText (.obj proof)))

/-- `String(n)`. -/
def natText (numberText : PyFloat → JsStr) (n : Nat) : JsStr := numberText (.finite false n)

def maxSafeInteger : Nat := 9007199254740991

variable (numberText : PyFloat → JsStr) (wallet : Wallet) (challenge : PaidPaymentChallenge)
  (ttlSeconds now : Nat) (random : List Nat)

/-- `authorization` of `buildPermit2PaymentProof`. -/
def permit2Entries (spender : JsStr) (nonce : Nat) : List (JsStr × Value) :=
  [(js "permitted", .obj [(js "token", .str challenge.accepted.asset),
      (js "amount", .str challenge.accepted.amount)]),
    (js "from", .str (toLowerCase wallet.address)), (js "spender", .str (toLowerCase spender)),
    (js "nonce", .str (intText nonce)),
    (js "deadline", .str (natText numberText (now + ttlSeconds))),
    (js "witness", .obj [(js "to", .str challenge.accepted.payTo),
      (js "validAfter", .str (natText numberText now))])]

/-- The payload of `buildPermit2PaymentProof`, where `random` are its thirty-two
random bytes; nothing where it throws. -/
def permit2Payload : Option (List (JsStr × Value)) := do
  let accepted := challenge.accepted
  let spender ← string (get accepted.extra (js "spenderAddress"))
  if accepted.amount = paidAmount
      && string (get accepted.extra (js "assetTransferMethod")) = some (js "permit2-exact")
      && isAddress spender && now ≤ maxSafeInteger && 0 < ttlSeconds && ttlSeconds ≤ 3600 then do
    let nonce := X402.bytesNat random
    let message ← permit2Message wallet accepted.asset (natOf accepted.amount)
      (toLowerCase spender) nonce (now + ttlSeconds) accepted.payTo now
    let signature ← wallet.signTypedData message
    some (payloadEntries (js "permit2Authorization") signature
      (permit2Entries numberText wallet challenge ttlSeconds now spender nonce))
  else none

/-- `authorization` of `buildPaymentProof`. -/
def transferEntries (recipient : JsStr) : List (JsStr × Value) :=
  [(js "from", .str (toLowerCase wallet.address)), (js "to", .str recipient),
    (js "value", .str challenge.accepted.amount), (js "validAfter", .str (js "0")),
    (js "validBefore", .str (natText numberText (now + ttlSeconds))),
    (js "nonce", .str (js "0x" ++ toHex random))]

/-- The payload of a transfer authorization; nothing where it throws. -/
def transferPayload : Option (List (JsStr × Value)) := do
  let accepted := challenge.accepted
  let name ← string (get accepted.extra (js "name"))
  let version ← string (get accepted.extra (js "version"))
  let recipient ← (wallet.getAddress accepted.payTo).map toLowerCase
  let message ← transferMessage wallet name version accepted.asset (toLowerCase wallet.address)
    recipient (natOf accepted.amount) 0 (now + ttlSeconds) random
  let signature ← wallet.signTypedData message
  some (payloadEntries (js "authorization") signature
    (transferEntries numberText wallet challenge ttlSeconds now random recipient))

/-- `buildPaymentProof`; nothing where it throws. -/
def buildPaymentProof : Option JsStr :=
  if challenge.accepted.amount ≠ paidAmount then none
  else
    let payload :=
      if string (get challenge.accepted.extra (js "assetTransferMethod")) =
          some (js "permit2-exact") then
        permit2Payload numberText wallet challenge ttlSeconds now random
      else transferPayload numberText wallet challenge ttlSeconds now random
    payload.map fun payload => proofText numberText (proofEntries challenge payload)

end X402Async
