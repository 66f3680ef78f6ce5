import StockAnalyst.WalletRateLimit

/-!
# Identity, request and record of a paid job

The pure parts of `create_job`: the identity a verified payment stands for,
the request the buyer gets analysed, the record a new job starts with, and
the binding an existing record is compared against.
-/

namespace X402

open Python ConditionalStore

/-! ## Identity -/

structure JobIdentity where
  paymentKey : PyStr
  jobId : PyStr
  jobToken : PyStr
  jobTokenHash : PyStr

variable (D : Deployment)

/-- `_proof_digest`; nothing where the header is not ASCII. -/
def proofDigest (header : PyStr) : Option PyStr :=
  if header.any (128 ≤ ·) then none else some (D.sha256 header).hex

/-- `_canonical_payment_parts`: payer, nonce and asset in canonical form. -/
def canonicalPaymentParts (payment : VerifiedPayment) :
    Option (PyStr × PyStr × PyStr) :=
  let text := PyStr.strip D.verify.lib payment.fromAddress
  let bare := if D.verify.lib.lower (text.take 2) = py "0x" then text.drop 2
    else text
  match fromHex bare with
  | none => none
  | some address =>
      if bare.length ≠ 40 ∨ address.length ≠ 20 ∨ payment.nonceBytes.length ≠ 32
      then none
      else (tokenByAsset D.verify.lib (some (.str payment.asset))).map
        fun token => (py "0x" ++ toHex address,
          py "0x" ++ toHex payment.nonceBytes, token.asset)

/-- The bytes hashed into a payment key. -/
def paymentKeyMaterial (payment : VerifiedPayment) :
    Option (List Nat) :=
  (canonicalPaymentParts D payment).map fun (address, nonce, asset) =>
    if payment.tokenSymbol = py "U" then
      py "56" ++ py ":" ++ address ++ py ":" ++ nonce
    else py "asset:" ++ asset ++ py ":" ++ py "56" ++ py ":" ++ address
      ++ py ":" ++ nonce

/-- `_identity_from_payment_key`. -/
def identityFromPaymentKey (paymentKey : PyStr) : JobIdentity :=
  let token := hmacSha256 D D.tokenSecret (py "x402-job-token:" ++ paymentKey)
  let urlsafe := (D.verify.lib.b64encode token.1).map
    (fun c => if c = 43 then 45 else if c = 47 then 95 else c)
  let jobToken := (urlsafe.reverse.dropWhile (· = 61)).reverse
  { paymentKey := paymentKey
    jobId := py "x402_" ++ paymentKey.take 32
    jobToken := jobToken
    jobTokenHash := (D.sha256 jobToken).hex }

/-- `derive_identity`; nothing where it raises. -/
def deriveIdentity (payment : VerifiedPayment) : Option JobIdentity :=
  (paymentKeyMaterial D payment).map
    fun material => identityFromPaymentKey D (D.sha256 material).hex

/-- `_competition_event_id`; nothing where it raises. -/
def competitionEventId (payment : VerifiedPayment) : Option PyStr :=
  (canonicalPaymentParts D payment).map fun (address, nonce, asset) =>
    py "b402:56:" ++
      (D.sha256 (address ++ py ":" ++ nonce ++ py ":" ++ asset)).hex

/-! ## Request -/

/-- `value.strip().upper()` of the values that are not blank. -/
def symbolsOf (texts : List PyStr) : List PyStr :=
  (texts.filter (fun t => (PyStr.strip D.verify.lib t) ≠ [])).map
    (fun t => D.verify.lib.upper (PyStr.strip D.verify.lib t))

/-- A symbol of at most twenty letters, digits, dots, carets and dashes. -/
def isSymbol (s : PyStr) : Bool :=
  s.length ≤ 20 &&
    s.all (fun c => D.verify.lib.isAlnum c || c = 46 || c = 94 || c = 45)

/-- `request.get(key) or default`. -/
def getOr (kvs : List (PyStr × Json)) (key : PyStr) (default : Json) : Json :=
  match dictGet kvs key with
  | some v => if truthy (some v) then v else default
  | none => default

/-- `_normalize_request`; nothing where it raises. -/
def normalizeRequest (request : List (PyStr × Json)) : Option Json :=
  let lib := D.verify.lib
  let symbols := match dictGet request (py "symbols") with
    | some (.str s) => symbolsOf D (PyStr.split 44 s)
    | some (.arr xs) => symbolsOf D (xs.map (pyStr lib))
    | _ => []
  if ¬ (1 ≤ symbols.length ∧ symbols.length ≤ 10) ∨
      ¬ symbols.all (isSymbol D) then none
  else
    let analysisType :=
      pyStr lib (getOr request (py "analysis_type") (.str (py "comprehensive")))
    match getOr request (py "portfolio") (.arr []),
        getOr request (py "risk_profile") (.obj []) with
    | .arr portfolio, .obj riskProfile =>
        if 64 < analysisType.length then none
        else if ((Json.obj [(py "portfolio", .arr portfolio),
            (py "riskProfile", .obj riskProfile)]).dumps lib).isNone then none
        else some (.obj
          [(py "symbols", .arr (symbols.map .str)),
           (py "analysisType", .str analysisType),
           (py "portfolio", .arr portfolio),
           (py "riskProfile", .obj riskProfile)])
    | _, _ => none

/-! ## Records -/

/-- The record `create_job` writes. -/
def newRecord (owner : PyStr) (identity : JobIdentity)
    (payment : VerifiedPayment) (digest eventId : PyStr) (request : Json)
    (reservation : WalletRateReservation) (now : Int) : JobRecord where
  jobId := identity.jobId
  paymentKey := identity.paymentKey
  paymentStatus := .settling
  paymentMode := py "paid"
  asset := D.verify.lib.lower payment.asset
  paymentProofDigest := some digest
  pendingSettlementReference := none
  settlementReference := none
  reportId := none
  address := payment.fromAddress
  status := .settling
  request := request
  jobTokenHash := identity.jobTokenHash
  competitionEventId := eventId
  settledAt := none
  attempt := 0
  leaseOwner := some owner
  leaseExpiresAt := some (now + 120000)
  createdAt := now
  updatedAt := now
  expiresAt := now + 7 * 24 * 60 * 60 * 1000
  errorCode := none
  retryable := none
  rateLimitWalletDigest := some reservation.walletDigest
  rateLimitReservationId := some reservation.reservationId
  rateLimitReservedAt := some reservation.reservedAt
  rateLimitState := some (match reservation.state with
    | .reserved => .reserved
    | .committed => .committed)

/-- `_rate_reservation_from_record`: absent when no rate-limit member is
there. -/
def rateReservationFromRecord (r : JobRecord) :
    Except Exn (Option WalletRateReservation) :=
  match r.rateLimitWalletDigest, r.rateLimitReservationId,
      r.rateLimitReservedAt, r.rateLimitState with
  | none, none, none, none => .ok none
  | some digest, some id, some reservedAt, some state =>
      if isWalletDigest digest ∧ isJobId id ∧ id = r.jobId ∧ 1 ≤ reservedAt ∧
          reservedAt ≤ maxTimestampMilliseconds then
        .ok (some ⟨digest, id, reservedAt,
          if state = .committed then .committed else .reserved, false⟩)
      else .error (.job .jobStateUnavailable true)
  | _, _, _, _ => .error (.job .jobStateUnavailable true)

/-- `_require_exact_job_binding`. -/
def requireExactJobBinding (r : JobRecord) (identity : JobIdentity)
    (payment : VerifiedPayment) (digest : PyStr) (request : Json) :
    Except Exn Unit :=
  if r.paymentKey ≠ identity.paymentKey then
    .error (.job .jobIdentityCollision false)
  else if r.jobId ≠ identity.jobId ∨ r.paymentMode ≠ py "paid" ∨
      r.paymentProofDigest ≠ some digest ∨ r.request.pyEq request = false ∨
      D.verify.lib.lower r.address ≠ D.verify.lib.lower payment.fromAddress ∨
      D.verify.lib.lower r.asset ≠ D.verify.lib.lower payment.asset then
    .error (.job .paymentRejected false)
  else .ok ()

/-- `_create_result`. -/
def createResult (identity : JobIdentity) (r : JobRecord) :
    Except Exn CreateJobResult :=
  let result (response : Option PaymentResponse) : CreateJobResult :=
    ⟨identity.jobId, identity.jobToken, r.status, r.expiresAt, response⟩
  if r.paymentStatus = .settled then
    if (r.settlementReference.map isValidSettlementReference).getD true then
      .ok (result (some ⟨true, r.settlementReference.getD [], r.address, none⟩))
    else .error (.job .jobStateUnavailable true)
  else .ok (result none)

/-- `_payment_rejected_error`. -/
def paymentRejectedError (payment : VerifiedPayment) : Exn :=
  .jobError .paymentRejected false
    (some ⟨false, [], payment.fromAddress, some (py "payment_rejected")⟩)

/-- `_accounting_is_pending`. -/
def accountingIsPending (r : JobRecord) : Bool :=
  r.paymentStatus = .settled && r.status ≠ .settling &&
    r.competitionEventId ≠ [] && (r.settledAt.map (fun t => decide (0 < t))).getD false

/-- `_token_matches`; nothing where the token cannot be encoded. -/
def tokenMatches (r : JobRecord) (token : PyStr) : Option Bool :=
  (utf8Encode token).map fun bytes => (D.sha256 bytes).hex = r.jobTokenHash

end X402
