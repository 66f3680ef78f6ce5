import StockAnalyst.JobStore

/-!
# Settlement through a facilitator

The B402 client and `_settle_via_facilitator`.  A remote outcome is settled,
pending, rejected or unknown; what each layer makes of an exception decides
which of the last two a caller sees.

Request signing and headers are left out: no later step reads them.
-/

namespace X402

open Python ConditionalStore Coroutine

/-- A parsed response that is an object. -/
def HttpReply.object (reply : HttpReply) : Option (List (PyStr × Json)) :=
  match reply.body with
  | some (.obj kvs) => some kvs
  | _ => none

/-- `data` of a response with the success code. -/
def successData (response : List (PyStr × Json)) :
    Option (List (PyStr × Json)) :=
  if getIs response (py "code") (py "000000") then
    match dictGet response (py "data") with
    | some (.obj data) => some data
    | _ => none
  else none

/-- A settlement reference in a response. -/
def validReference : Option Json → Option PyStr
  | some (.str s) => if isValidSettlementReference s then some s else none
  | _ => none

/-! ## What a response says -/

/-- B402 answers a request: not a server or authorization error, an object. -/
def b402Object (reply : HttpReply) : Option (List (PyStr × Json)) :=
  if 500 ≤ reply.status ∨ reply.status = 401 ∨ reply.status = 403 then none
  else reply.object

/-- `isValid` of a verification; nothing where the result is unknown. -/
def verifyVerdict (reply : HttpReply) : Option Bool :=
  match (b402Object reply).bind successData with
  | none => none
  | some data =>
      match dictGet data (py "isValid") with
      | some (.bool b) => some b
      | _ => none

/-- The outcome of a B402 settlement; nothing where it is unknown. -/
def settleVerdict (reply : HttpReply) : Option SettlementOutcome :=
  match (b402Object reply).bind successData with
  | none => none
  | some data =>
      match dictGet data (py "success") with
      | some (.bool true) =>
          (validReference (dictGet data (py "transaction"))).map .settled
      | some (.bool false) =>
          match validReference (dictGet data (py "transaction")) with
          | some transaction => some (.pending transaction)
          | none =>
              if getIs data (py "transaction") [] then some .rejected
              else none
      | _ => none

/-- The outcome of a generic settlement; nothing where it is unknown. -/
def genericVerdict (reply : HttpReply) : Option SettlementOutcome :=
  if 500 ≤ reply.status then none
  else match reply.object with
    | none => none
    | some data =>
        match dictGet data (py "success") with
        | some (.bool true) =>
            (validReference (dictGet data (py "transaction"))).map .settled
        | some (.bool false) =>
            match dictGet data (py "transaction") with
            | none => some .rejected
            | some v => if v.pyEq (.str []) then some .rejected else none
        | _ => none

/-- `kinds` of a supported response; nothing where it is malformed. -/
def supportedKinds (reply : HttpReply) : Option (List Kind) :=
  match (b402Object reply).bind successData with
  | none => none
  | some data =>
      match dictGet data (py "kinds") with
      | some (.arr xs) => xs.mapM fun
          | .obj kvs => some kvs
          | _ => none
      | _ => none

/-! ## Supported kinds -/

/-- `_is_evm_address` of a member. -/
def evmMember (kvs : List (PyStr × Json)) (key : PyStr) : Bool :=
  match dictGet kvs key with
  | some (.str s) => isEvmAddress s
  | _ => false

/-- `d.get(key) == n` for a number. -/
def getIsInt (kvs : List (PyStr × Json)) (key : PyStr) (n : Int) : Bool :=
  match dictGet kvs key with
  | some v => v.pyEq (.int n)
  | none => false

/-- The `extra` of a kind that offers the token on the network. -/
def kindExtra (network : PyStr) (token : PaymentToken) (kind : Kind) :
    Option (List (PyStr × Json)) :=
  match dictGet kind (py "extra") with
  | some (.obj extra) =>
      let validAddresses := evmMember extra (py "signerAddress") &&
        (token.transferMethod ≠ .permit2Exact ||
          evmMember extra (py "spenderAddress"))
      if getIsInt kind (py "x402Version") 2
          && getIs kind (py "scheme") (py "exact")
          && getIs kind (py "network") network
          && getIs extra (py "name") token.domainName
          && getIs extra (py "version") token.domainVersion
          && getIs extra (py "assetTransferMethod") token.transferMethod.text
          && validAddresses
      then some extra else none
  | _ => none

/-- `payment_extras` for one token: the extra of the only kind that offers
it. -/
def paymentExtra (network : PyStr) (token : PaymentToken) (kinds : List Kind) :
    Option (List (PyStr × Json)) :=
  match kinds.filterMap (kindExtra network token) with
  | [extra] => some extra
  | _ => none

/-- `current_extra != extra` fails: the extra is the one offered. -/
def extraOffered (offered : Option (List (PyStr × Json)))
    (extra : List (PyStr × Json)) : Bool :=
  match offered with
  | some current => (Json.obj current).pyEq (.obj extra)
  | none => false

/-! ## The B402 client -/

variable (D : Deployment) (inst : Nat)

/-- The envelope of the verify and settle requests. -/
def envelope (proof accepted : List (PyStr × Json)) : Json :=
  .obj [(py "x402Version", .int 2), (py "paymentPayload", .obj proof),
    (py "paymentRequirements", .obj accepted)]

/-- `post`: the payload is encoded before the request is guarded. -/
def b402Post (endpoint : Endpoint) (payload : Json) : Co HttpReply :=
  if !payload.utf8Safe then Async.throw .other
  else do
    match ← Async.attempt (Async.await (.post inst endpoint payload) orFault) with
    | .ok reply =>
        match b402Object reply with
        | some _ => pure reply
        | none => Async.throw .b402Indeterminate
    | .error .cancelled => Async.throw .cancelled
    | .error _ => Async.throw .b402Indeterminate

def monotonic : Co ℚ := Async.await (.monotonic inst) .ok

/-- The cached kinds, unless they have expired at `now`. -/
def cachedKinds (now : ℚ) : Co (Option (List Kind)) :=
  Async.await (.kinds inst) fun cached : Option (List Kind × ℚ) =>
    .ok ((cached.filter (fun c => now < c.2)).map (·.1))

/-- The part of `_get_supported_kinds` under the lock. -/
def refreshKinds : Co (List Kind) := do
  let now ← monotonic inst
  match ← cachedKinds inst now with
  | some kinds => pure kinds
  | none => do
      let reply ← b402Post inst .supported (.obj [])
      match supportedKinds reply with
      | none => Async.throw .b402Indeterminate
      | some kinds => do
          Async.await (.cacheKinds inst kinds (now + 3600)) .ok
          pure kinds

/-- `_get_supported_kinds`. -/
def getSupportedKinds : Co (List Kind) := do
  let now ← monotonic inst
  match ← cachedKinds inst now with
  | some kinds => pure kinds
  | none => do
      Async.await (.lockKinds inst) orFault
      let result ← Async.attempt (refreshKinds inst)
      Async.await (.unlockKinds inst) .ok
      Async.ofExcept result

/-- The settlement request of `_settle`. -/
def b402SettleRequest (payload : Json) : Co SettlementOutcome := do
  let reply ← b402Post inst .settle payload
  match settleVerdict reply with
  | some outcome => pure outcome
  | none => Async.throw .b402Indeterminate

/-- `_settle`. -/
def b402Settle (proof : List (PyStr × Json)) (verifyFirst : Bool) :
    Co SettlementOutcome :=
  match dictGet proof (py "accepted") with
  | some (.obj accepted) =>
    match dictGet accepted (py "extra") with
    | some (.obj extra) =>
      match tokenByAsset D.verify.lib (dictGet accepted (py "asset")) with
      | none => Async.throw .b402Rejected
      | some token =>
        match dictGet accepted (py "network") with
        | some (.str network) => do
            let kinds ← getSupportedKinds inst
            if !extraOffered (paymentExtra network token kinds) extra then
              Async.throw .b402Rejected
            else if verifyFirst then do
              let reply ← b402Post inst .verify (envelope proof accepted)
              match verifyVerdict reply with
              | none => Async.throw .b402Indeterminate
              | some false => pure .rejected
              | some true => b402SettleRequest inst (envelope proof accepted)
            else b402SettleRequest inst (envelope proof accepted)
        | _ => Async.throw .b402Rejected
    | _ => Async.throw .b402Rejected
  | _ => Async.throw .b402Rejected

/-! ## Backends -/

/-- `_settle_generic`: every exception but a cancellation leaves the outcome
unknown. -/
def settleGeneric (payload : Json) : Co SettlementOutcome := do
  match ← Async.attempt
      (Async.await (.post inst .genericSettle payload) orFault) with
  | .ok reply =>
      match genericVerdict reply with
      | some outcome => pure outcome
      | none => Async.throw .settlementIndeterminate
  | .error .cancelled => Async.throw .cancelled
  | .error _ => Async.throw .settlementIndeterminate

/-- `_settle_via_facilitator`: B402, then the generic facilitator, then
rejection. -/
def settleViaFacilitator (header : PyStr) (mode : SettlementMode) :
    Co SettlementOutcome :=
  match decodePaymentSignature D.verify header with
  | none => pure .rejected
  | some proof =>
    match dictGet proof (py "accepted") with
    | some (.obj accepted) =>
      match dictGet accepted (py "extra") with
      | some (.obj extra) =>
        if (D.service inst).b402 then do
          match ← Async.attempt
              (b402Settle D inst proof (mode = .verifyAndSettle)) with
          | .error .b402Rejected => pure .rejected
          | .error .b402Indeterminate => Async.throw .settlementIndeterminate
          | r => Async.ofExcept r
        else if !getIs extra (py "assetTransferMethod") (py "eip3009") then
          pure .rejected
        else if (D.service inst).facilitator then
          settleGeneric inst (envelope proof accepted)
        else pure .rejected
      | _ => pure .rejected
    | _ => pure .rejected

/-- `_settle_payment`: only a well-formed outcome is passed on. -/
def settlePayment (header : PyStr) (mode : SettlementMode) :
    Co SettlementOutcome := do
  match ← Async.attempt (waitFor (settleViaFacilitator D inst header mode)) with
  | .ok outcome => pure outcome
  | .error .cancelled => Async.throw .cancelled
  | .error _ => Async.throw .settlementIndeterminate

/-! ## The chain -/

/-- The nonce of an EIP-3009 payment. -/
def authKey (payment : VerifiedPayment) : AuthKey :=
  ⟨payment.asset, payment.fromAddress, payment.nonceBytes⟩

/-- `authorization_used`. -/
def authorizationUsed (payment : VerifiedPayment) : Co Bool :=
  if payment.transferMethod ≠ .eip3009 then Async.throw .other
  else match tokenByAsset D.verify.lib (some (.str payment.asset)) with
    | none => Async.throw (.job .invalidPaymentAsset false)
    | some _ =>
        Async.await (.authorizationState (authKey payment)) orFault

end X402
