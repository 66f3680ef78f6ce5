import StockAnalyst.X402Verify
import StockAnalyst.ConditionalStore

/-!
# Job records and wallet records

The two JSON objects the service keeps per job and per wallet, the record each
transition builds from the one before, and the encoding checks of the store.

Reading a record back gives `JobRecord.reload` of what was written: the
request is arbitrary buyer JSON and goes through the JSON text; every other
member is a number, a constant or ASCII text, which the text keeps.
-/

namespace X402

open Python ConditionalStore

inductive Status where
  | settling
  | queued
  | running
  | succeeded
  | failed
  deriving DecidableEq

inductive PaymentStatus where
  | settling
  | settled
  | failed
  deriving DecidableEq

inductive RateLimitState where
  | reserved
  | committed
  | released
  deriving DecidableEq

inductive ErrorCode where
  | paymentFailed
  | analysisTimeout
  | analysisEmptyResponse
  | analysisFailed
  | tooManyUsers
  deriving DecidableEq

def Status.text : Status → PyStr
  | .settling => py "settling"
  | .queued => py "queued"
  | .running => py "running"
  | .succeeded => py "succeeded"
  | .failed => py "failed"

def PaymentStatus.text : PaymentStatus → PyStr
  | .settling => py "settling"
  | .settled => py "settled"
  | .failed => py "failed"

def RateLimitState.text : RateLimitState → PyStr
  | .reserved => py "reserved"
  | .committed => py "committed"
  | .released => py "released"

def ErrorCode.text : ErrorCode → PyStr
  | .paymentFailed => py "payment_failed"
  | .analysisTimeout => py "analysis_timeout"
  | .analysisEmptyResponse => py "analysis_empty_response"
  | .analysisFailed => py "analysis_failed"
  | .tooManyUsers => py "too_many_users"

/-- A job record.  The four rate-limit members may be absent. -/
structure JobRecord where
  jobId : PyStr
  paymentKey : PyStr
  paymentStatus : PaymentStatus
  paymentMode : PyStr
  asset : PyStr
  paymentProofDigest : Option PyStr
  pendingSettlementReference : Option PyStr
  settlementReference : Option PyStr
  reportId : Option PyStr
  address : PyStr
  status : Status
  request : Json
  jobTokenHash : PyStr
  competitionEventId : PyStr
  settledAt : Option Int
  attempt : Int
  leaseOwner : Option PyStr
  leaseExpiresAt : Option Int
  createdAt : Int
  updatedAt : Int
  expiresAt : Int
  errorCode : Option ErrorCode
  retryable : Option Bool
  rateLimitWalletDigest : Option PyStr
  rateLimitReservationId : Option PyStr
  rateLimitReservedAt : Option Int
  rateLimitState : Option RateLimitState

namespace JobRecord

/-- The record as it reads back from the store. -/
def reload (r : JobRecord) : JobRecord := { r with request := r.request.reload }

@[simp] theorem reload_reload (r : JobRecord) : r.reload.reload = r.reload := by
  simp [reload, Json.reload_reload]

/-! ## Encoding -/

def optStr : Option PyStr → Json
  | none => .null
  | some s => .str s

def optInt : Option Int → Json
  | none => .null
  | some i => .int i

def optBool : Option Bool → Json
  | none => .null
  | some b => .bool b

/-- A member that is written only when present. -/
def member (key : String) : Option Json → List (PyStr × Json)
  | none => []
  | some v => [(py key, v)]

/-- The JSON object of a record. -/
def toJson (r : JobRecord) : Json := .obj (
  [(py "version", .int 1),
   (py "jobId", .str r.jobId),
   (py "paymentKey", .str r.paymentKey),
   (py "paymentStatus", .str r.paymentStatus.text),
   (py "paymentMode", .str r.paymentMode),
   (py "asset", .str r.asset),
   (py "paymentProofDigest", optStr r.paymentProofDigest),
   (py "pendingSettlementReference", optStr r.pendingSettlementReference),
   (py "settlementReference", optStr r.settlementReference),
   (py "reportId", optStr r.reportId),
   (py "address", .str r.address),
   (py "status", .str r.status.text),
   (py "request", r.request),
   (py "jobTokenHash", .str r.jobTokenHash),
   (py "competitionEventId", .str r.competitionEventId),
   (py "settledAt", optInt r.settledAt),
   (py "attempt", .int r.attempt),
   (py "leaseOwner", optStr r.leaseOwner),
   (py "leaseExpiresAt", optInt r.leaseExpiresAt),
   (py "createdAt", .int r.createdAt),
   (py "updatedAt", .int r.updatedAt),
   (py "expiresAt", .int r.expiresAt),
   (py "errorCode", optStr (r.errorCode.map ErrorCode.text)),
   (py "retryable", optBool r.retryable)]
  ++ member "rateLimitWalletDigest" (r.rateLimitWalletDigest.map .str)
  ++ member "rateLimitReservationId" (r.rateLimitReservationId.map .str)
  ++ member "rateLimitReservedAt" (r.rateLimitReservedAt.map .int)
  ++ member "rateLimitState"
      (r.rateLimitState.map (fun s => .str s.text)))

end JobRecord

def maxJobBytes : Nat := 256 * 1024

/-- Why `_encode` refuses a record. -/
inductive EncodeError where
  | notFinite
  | tooLarge
  deriving DecidableEq

/-- The bytes of a record, or why the store refuses them. -/
def encode (lib : PyLib) (r : JobRecord) : Except EncodeError (List Nat) :=
  match r.toJson.dumps lib with
  | none => .error .notFinite
  | some body => if maxJobBytes < body.length then .error .tooLarge else .ok body

/-- The store accepts the record. -/
def encodable (lib : PyLib) (r : JobRecord) : Bool :=
  match encode lib r with
  | .ok _ => true
  | .error _ => false

/-! ## Identifiers -/

/-- A lower-case hexadecimal digit. -/
def isLowerHex (c : Nat) : Bool := (48 ≤ c && c ≤ 57) || (97 ≤ c && c ≤ 102)

/-- `_JOB_ID_RE`: `x402_` and thirty-two lower-case hexadecimal digits. -/
def isJobId (s : PyStr) : Bool :=
  s.length = 37 && PyStr.startsWith s (py "x402_") && (s.drop 5).all isLowerHex

/-- `_WALLET_DIGEST_RE`: sixty-four lower-case hexadecimal digits. -/
def isWalletDigest (s : PyStr) : Bool := s.length = 64 && s.all isLowerHex

/-- `_REPORT_ID_RE`: thirty-two lower-case hexadecimal digits. -/
def isReportId (s : PyStr) : Bool := s.length = 32 && s.all isLowerHex

def maxSettlementReferenceCharacters : Nat := 4096

/-- A settlement reference: one to 4,096 visible ASCII characters. -/
def isValidSettlementReference (s : PyStr) : Bool :=
  1 ≤ s.length && s.length ≤ maxSettlementReferenceCharacters &&
    s.all (fun c => 0x21 ≤ c && c ≤ 0x7E)

/-! ## The record each transition builds -/

namespace JobRecord

def leaseMilliseconds : Int := 120000

/-- A claim of an expired settling lease. -/
def claimed (owner : PyStr) (now : Int) (r : JobRecord) : JobRecord :=
  { r with
    leaseOwner := some owner
    leaseExpiresAt := some (now + 120000)
    updatedAt := now }

/-- A settlement the facilitator has broadcast but not confirmed. -/
def pendingSettlement (reference : PyStr) (now : Int) (r : JobRecord) :
    JobRecord :=
  { r with
    paymentStatus := .settling
    pendingSettlementReference := some reference
    settlementReference := none
    status := .settling
    updatedAt := now }

/-- A settled payment.  With a wallet reservation the job stays in `settling`
under a fresh lease until the reservation is committed. -/
def settled (reference : Option PyStr) (eventId : PyStr) (settledAt : Int)
    (lease : Option (PyStr × Int)) (now : Int) (r : JobRecord) : JobRecord :=
  { r with
    paymentStatus := .settled
    pendingSettlementReference := none
    settlementReference := reference
    status := if lease.isSome then .settling else .queued
    competitionEventId := eventId
    settledAt := some settledAt
    leaseOwner := lease.map (·.1)
    leaseExpiresAt := lease.map (·.2)
    updatedAt := now }

/-- A rejected payment. -/
def paymentFailed (now : Int) (r : JobRecord) : JobRecord :=
  { r with
    paymentStatus := .failed
    pendingSettlementReference := none
    status := .failed
    leaseOwner := none
    leaseExpiresAt := none
    updatedAt := now
    errorCode := some .paymentFailed
    retryable := some false }

/-- The job enters the queue once its reservation is committed. -/
def rateCommitted (now : Int) (r : JobRecord) : JobRecord :=
  { r with
    status := .queued
    leaseOwner := none
    leaseExpiresAt := none
    updatedAt := now
    rateLimitState := r.rateLimitState.map (fun _ => .committed) }

/-- The reservation of a failed payment has been released. -/
def rateReleased (now : Int) (r : JobRecord) : JobRecord :=
  { r with
    rateLimitState := some .released
    updatedAt := now }

/-- A job put back into the queue by its buyer. -/
def requeued (now : Int) (r : JobRecord) : JobRecord :=
  { r with
    status := .queued
    leaseOwner := none
    leaseExpiresAt := none
    updatedAt := now
    errorCode := none
    retryable := none }

/-- An execution claim. -/
def executing (owner : PyStr) (now : Int) (r : JobRecord) : JobRecord :=
  { r with
    status := .running
    attempt := r.attempt + 1
    leaseOwner := some owner
    leaseExpiresAt := some (now + leaseMilliseconds)
    updatedAt := now
    errorCode := none
    retryable := none }

/-- A heartbeat of the executing worker. -/
def heartbeat (now : Int) (r : JobRecord) : JobRecord :=
  { r with
    updatedAt := now
    leaseExpiresAt := some (now + leaseMilliseconds) }

/-- A finished analysis. -/
def succeededWith (reportId : PyStr) (now : Int) (r : JobRecord) : JobRecord :=
  { r with
    status := .succeeded
    reportId := some reportId
    leaseOwner := none
    leaseExpiresAt := none
    updatedAt := now
    errorCode := none
    retryable := none }

/-- A failed analysis. -/
def executionFailed (code : ErrorCode) (canRetry : Bool) (now : Int)
    (r : JobRecord) : JobRecord :=
  { r with
    status := .failed
    leaseOwner := none
    leaseExpiresAt := none
    updatedAt := now
    errorCode := some code
    retryable := some canRetry }

end JobRecord

/-! ## The writes of a job -/

/-- A write to an existing record, by the transition that makes it. -/
inductive JobWrite where
  | claimed (owner : PyStr) (now : Int)
  | pending (reference : PyStr) (now : Int)
  | settled (reference : Option PyStr) (eventId : PyStr) (settledAt : Int)
      (lease : Option (PyStr × Int)) (now : Int)
  | paymentFailed (now : Int)
  | rateCommitted (now : Int)
  | rateReleased (now : Int)
  | requeued (now : Int)
  | running (owner : PyStr) (now : Int)
  | heartbeat (owner : PyStr) (now : Int)
  | succeeded (owner : PyStr) (now : Int)
  | executionFailed (owner : PyStr) (code : ErrorCode) (canRetry : Bool)
      (now : Int)

def staleMilliseconds : Int := 120000

def maxExecutionAttempts : Int := 3

namespace JobWrite

open JobRecord in
/-- The record a write puts in place of `r`. -/
def apply : JobWrite → JobRecord → JobRecord
  | claimed owner now, r => r.claimed owner now
  | pending reference now, r => r.pendingSettlement reference now
  | settled reference eventId settledAt lease now, r =>
      JobRecord.settled reference eventId settledAt lease now r
  | paymentFailed now, r => JobRecord.paymentFailed now r
  | rateCommitted now, r => JobRecord.rateCommitted now r
  | rateReleased now, r => JobRecord.rateReleased now r
  | requeued now, r => JobRecord.requeued now r
  | running owner now, r => r.executing owner now
  | heartbeat _ now, r => JobRecord.heartbeat now r
  | succeeded owner now, r => r.succeededWith owner now
  | executionFailed _ code canRetry now, r =>
      JobRecord.executionFailed code canRetry now r

/-- A running record whose worker has been silent for two minutes. -/
def Stale (now : Int) (r : JobRecord) : Prop :=
  r.status = .running ∧ r.updatedAt ≤ now - staleMilliseconds

/-- A failed record whose buyer may resume it. -/
def Retryable (r : JobRecord) : Prop :=
  r.status = .failed ∧ r.retryable = some true

/-- An unsettled record under a settlement lease. -/
def Settling (r : JobRecord) : Prop :=
  r.status = .settling ∧ r.paymentStatus = .settling

/-- A record that the worker `owner` executes. -/
def HeldBy (owner : PyStr) (r : JobRecord) : Prop :=
  r.status = .running ∧ r.leaseOwner = some owner

/-- What the writer of a transition knows of the version it replaces. -/
def Guard : JobWrite → JobRecord → Prop
  | claimed _ now, r => Settling r ∧ ∀ t, r.leaseExpiresAt = some t → t ≤ now
  | pending reference _, r =>
      Settling r ∧ isValidSettlementReference reference = true
  | settled reference _ _ lease _, r =>
      Settling r ∧ lease.isSome = true ∧
        ∀ ref, reference = some ref → isValidSettlementReference ref = true
  | paymentFailed _, r => Settling r
  | rateCommitted _, r => r.paymentStatus = .settled ∧ r.status = .settling
  | rateReleased _, r =>
      r.paymentStatus = .failed ∧ r.rateLimitState = some .reserved
  | requeued now, r =>
      (Stale now r ∨ Retryable r) ∧ r.attempt < maxExecutionAttempts
  | running _ now, r =>
      (r.status = .queued ∨ Stale now r ∨ Retryable r) ∧
        r.attempt < maxExecutionAttempts
  | heartbeat owner _, r => HeldBy owner r
  | succeeded owner _, r => HeldBy owner r
  | executionFailed owner code canRetry _, r =>
      HeldBy owner r ∧ (canRetry = true →
        code = .analysisEmptyResponse ∨ r.attempt < maxExecutionAttempts)

/-- The round trip through the store commutes with every transition. -/
theorem apply_reload (t : JobWrite) (r : JobRecord) :
    (t.apply r).reload = t.apply r.reload := by
  cases t <;> rfl

/-- No transition renames the job. -/
@[simp] theorem apply_jobId (t : JobWrite) (r : JobRecord) :
    (t.apply r).jobId = r.jobId := by
  cases t <;> rfl

end JobWrite

/-- A record of the job `job` together with the version that holds it. -/
structure StoredJob (job : PyStr) where
  record : JobRecord
  tag : Tag JobRecord
  agrees : tag.content = record.reload
  ident : record.jobId = job

/-! ## Wallet records -/

inductive ReservationState where
  | reserved
  | committed
  deriving DecidableEq

structure WalletEntry where
  reservationId : PyStr
  reservedAt : Int
  state : ReservationState
  deriving DecidableEq

def maxTimestampMilliseconds : Int := 9999999999999

/-- `_encode_wallet_rate_limit`: at most thirty entries, each with a job id of
its own and a time in range.  Thirty such entries stay below 16 KiB. -/
def walletEncodable (entries : List WalletEntry) : Bool :=
  entries.length ≤ 30 && (entries.map (·.reservationId)).Nodup &&
    entries.all (fun e => isJobId e.reservationId && 1 ≤ e.reservedAt &&
      e.reservedAt ≤ maxTimestampMilliseconds)

/-- What the wallet object of the store can hold. -/
structure WalletRecord where
  entries : List WalletEntry
  encodable : walletEncodable entries = true

/-- A wallet record with the version that holds it. -/
abbrev StoredWallet := Tag WalletRecord

/-! ## Accounting markers -/

structure AccountingMarker where
  eventId : PyStr
  settledAt : Int
  deriving DecidableEq

/-- `_encode_accounting_marker`. -/
def AccountingMarker.encodable (lib : PyLib) (m : AccountingMarker) : Bool :=
  1 ≤ m.eventId.length && m.eventId.length ≤ 512 && 0 < m.settledAt &&
    match (Json.obj [(py "version", .int 1), (py "eventId", .str m.eventId),
      (py "settledAt", .int m.settledAt)]).dumps lib with
    | some body => body.length ≤ 1024
    | none => false

end X402
