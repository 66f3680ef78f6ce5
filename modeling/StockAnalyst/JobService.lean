import StockAnalyst.PaymentIdentity
import StockAnalyst.Facilitator

/-!
# Creating, reading and resuming paid jobs

`X402JobService` without the analysis itself: `create_job` with its
settlement, its recovery paths and its wallet accounting, `get_job`,
`resume_job` and the competition reports.
-/

namespace X402

open Python ConditionalStore Coroutine

structure JobView where
  jobId : PyStr
  status : Status
  expiresAt : Int
  errorCode : Option PyStr
  retryable : Option Bool
  downloadUrl : Option PyStr
  downloadUrlExpiresAt : Option Int

def downloadUrlMilliseconds : Int := 1800000

variable (D : Deployment) (inst : Nat)

/-! ## Background tasks -/

/-- `_spawn` and the spawning half of `_spawn_accounting`: one active task of
a kind for a job and instance. -/
def spawnTask (kind : TaskKind) (job : PyStr) (call : Call) : Co Unit := do
  let spawned : Bool ← Async.await (.spawnTask kind inst job) .ok
  if spawned then Async.await (.fork call) .ok else pure ()

def spawn (job : PyStr) : Co Unit :=
  spawnTask inst .execution job (.runJob inst job)

/-- `_spawn_accounting`. -/
def spawnAccounting (job : PyStr) (delayBeforeFirst : Bool) : Co Unit :=
  if !isJobId job then pure ()
  else spawnTask inst .accounting job (.runAccounting inst job delayBeforeFirst)

/-- `_handoff_and_spawn`: the task of this instance is cancelled and joined
first. -/
def handoffAndSpawn (job : PyStr) : Co Unit := do
  let active : Bool ← Async.await (.taskActive inst job) .ok
  if active then do
    Async.await (.joinTask inst job) orFault
    spawn inst job
  else spawn inst job

/-! ## Competition accounting -/

/-- `_redrive_accounting`. -/
def redriveAccounting {job : PyStr} (stored : StoredJob job) : Co Unit :=
  if !accountingIsPending stored.record then pure ()
  else do
    match ← Async.attempt (readAccountingMarker job) with
    | .error .cancelled => Async.throw .cancelled
    | .error _ => spawnAccounting inst job true
    | .ok none => spawnAccounting inst job false
    | .ok (some _) => pure ()

/-- `_report_accounting_record`. -/
def reportAccountingRecord (r : JobRecord) : Co Bool :=
  match r.settledAt with
  | none => pure false
  | some settledAt =>
      if r.competitionEventId = [] ∨ r.address = [] ∨ settledAt ≤ 0 then
        pure false
      else do
        match ← Async.attempt (Async.await
            (.report r.competitionEventId r.address settledAt) orFault) with
        | .ok reported => pure reported
        | .error .cancelled => Async.throw .cancelled
        | .error _ => pure false

/-- One pass of `_run_accounting`; true when the task is finished. -/
def accountingPass (job : PyStr) : Co Bool := do
  match ← readJob job with
  | none => pure true
  | some stored =>
      if !accountingIsPending stored.record then pure true
      else
        match ← readAccountingMarker job with
        | some _ => pure true
        | none =>
            if !(← reportAccountingRecord stored.record) then pure false
            else do
              let marker : AccountingMarker := ⟨stored.record.competitionEventId,
                stored.record.settledAt.getD 0⟩
              if ← createAccountingMarker D job marker then pure true
              else do
                let _ ← readAccountingMarker job
                pure true

/-- `_run_accounting`, with the attempts that remain. -/
def accountingLoop (job : PyStr) : Nat → Bool → Co Unit
  | 0, _ => pure ()
  | remaining + 1, delay => do
      if delay then sleep else pure ()
      match ← Async.attempt (accountingPass D job) with
      | .ok true => pure ()
      | .error .cancelled => Async.throw .cancelled
      | _ => accountingLoop job remaining true

def runAccounting (job : PyStr) (delayBeforeFirst : Bool) : Co Unit :=
  accountingLoop D job (D.service inst).accountingAttempts delayBeforeFirst

/-! ## Reading and resuming -/

/-- `_authorized_job`. -/
def authorizedJob (job token : PyStr) : Co (StoredJob job) :=
  if !isJobId job then Async.throw (.job .jobNotFound false)
  else do
    match ← readJob job with
    | none => Async.throw (.job .jobNotFound false)
    | some stored =>
        match tokenMatches D stored.record token with
        | none => Async.throw .other
        | some false => Async.throw (.job .jobNotFound false)
        | some true => do
            let now ← clock inst
            if stored.record.expiresAt ≤ now then
              Async.throw (.job .jobExpired false)
            else pure stored

/-- The view of a record, with a download URL once it succeeded. -/
def jobView {job : PyStr} (stored : StoredJob job) : Co JobView := do
  let r := stored.record
  match r.status with
  | .failed =>
      pure ⟨job, .failed, r.expiresAt,
        some ((r.errorCode.map ErrorCode.text).getD (py "analysis_failed")),
        some (r.retryable.getD false), none, none⟩
  | .succeeded => do
      let url ← presignReport job r.reportId
      let now ← clock inst
      pure ⟨job, .succeeded, r.expiresAt, none, none, some url,
        some (now + downloadUrlMilliseconds)⟩
  | status => pure ⟨job, status, r.expiresAt, none, none, none, none⟩

/-- `get_job`. -/
def getJob (job token : PyStr) : Co JobView := do
  let stored ← authorizedJob D inst job token
  if stored.record.status = .queued then spawn inst job else pure ()
  redriveAccounting inst stored
  jobView inst stored

/-- `_apply_resume_and_handoff`. -/
def applyResumeAndHandoff {job : PyStr} (stored : StoredJob job) (now : Int) :
    Co Unit := do
  match ← Async.attempt (replace D stored (.requeued now)) with
  | .ok _ => handoffAndSpawn inst job
  | .error .jobConflict => Async.throw (.job .jobConflict false)
  | .error x => Async.throw x

/-- `resume_job`. -/
def resumeJob (job token : PyStr) : Co JobView := do
  let stored ← authorizedJob D inst job token
  redriveAccounting inst stored
  let now ← clock inst
  let r := stored.record
  if maxExecutionAttempts ≤ r.attempt then
    Async.throw (.job .attemptsExhausted false)
  else if r.status = .queued then do
    spawn inst job
    getJob D inst job token
  else if (r.status = .running ∧ r.updatedAt ≤ now - staleMilliseconds) ∨
      (r.status = .failed ∧ r.retryable = some true) then do
    -- The write runs in a task of its own; a cancelled caller waits for it.
    let result ← Async.attempt (applyResumeAndHandoff D inst stored now)
    if ← interrupted then Async.throw .cancelled
    else do
      Async.ofExcept result
      getJob D inst job token
  else Async.throw (.job .jobConflict false)

/-! ## Wallet accounting of a job -/

/-- `_finalize_rate_commit`. -/
def finalizeRateCommit {job : PyStr} (stored : StoredJob job) :
    Co (StoredJob job) := do
  let now ← clock inst
  match ← Async.attempt (replace D stored (.rateCommitted now)) with
  | .ok queued => pure queued
  | .error .cancelled => Async.throw .cancelled
  | .error .jobConflict => do
      match ← readJob job with
      | none => Async.throw .walletUnavailable
      | some latest =>
          let r := latest.record
          if r.paymentKey = stored.record.paymentKey ∧
              r.paymentStatus = .settled ∧ r.status = .queued ∧
              r.rateLimitState.getD .committed = .committed then pure latest
          else Async.throw .walletUnavailable
  | .error _ => Async.throw .walletUnavailable

/-- `_commit_rate_limit`. -/
def commitRateLimit {job : PyStr} (stored : StoredJob job) :
    Co (StoredJob job) := do
  match ← Async.ofExcept (rateReservationFromRecord stored.record) with
  | none => finalizeRateCommit D inst stored
  | some reservation => do
      commit D inst reservation
      finalizeRateCommit D inst stored

/-- `_mark_rate_released`. -/
def markRateReleased {job : PyStr} (stored : StoredJob job) :
    Co (StoredJob job) :=
  if stored.record.rateLimitState.isNone then pure stored
  else do
    let now ← clock inst
    match ← Async.attempt (replace D stored (.rateReleased now)) with
    | .ok released => pure released
    | .error .jobConflict => do
        match ← readJob job with
        | none => Async.throw .walletUnavailable
        | some latest =>
            if latest.record.paymentKey = stored.record.paymentKey ∧
                latest.record.rateLimitState = some .released then pure latest
            else Async.throw .walletUnavailable
    | .error x => Async.throw x

/-- `_release_rate_limit`. -/
def releaseRateLimit {job : PyStr} (stored : StoredJob job) :
    Co (StoredJob job) := do
  match ← Async.ofExcept (rateReservationFromRecord stored.record) with
  | none => pure stored
  | some reservation => do
      release D inst reservation
      markRateReleased D inst stored

/-- `_release_after_rejection`. -/
def releaseAfterRejection {job : PyStr} (stored : StoredJob job) : Co Unit := do
  match ← Async.attempt (releaseRateLimit D inst stored) with
  | .ok _ => pure ()
  | .error .cancelled => Async.throw .cancelled
  | .error _ => Async.throw .walletUnavailable

/-- `_reconcile_rate_limit`. -/
def reconcileRateLimit {job : PyStr} (stored : StoredJob job) :
    Co (StoredJob job) := do
  match ← Async.ofExcept (rateReservationFromRecord stored.record) with
  | none => pure stored
  | some reservation =>
      match stored.record.paymentStatus, stored.record.rateLimitState with
      | .settled, some .reserved => do
          commit D inst reservation
          finalizeRateCommit D inst stored
      | .settled, some .committed =>
          if stored.record.status = .settling then finalizeRateCommit D inst stored
          else pure stored
      | .failed, some .reserved => do
          release D inst reservation
          markRateReleased D inst stored
      | .failed, some .released => pure stored
      | .settling, some .reserved => pure stored
      | _, _ => Async.throw (.job .jobStateUnavailable true)

/-! ## Settlement -/

/-- What `_mark_settlement_pending` makes of the record it reads after a failed
write: it tries again on an unsettled version, keeps one that has the
reference already, and gives up on any other. -/
def rereadPending {job : PyStr} (reference : PyStr)
    (stored candidate : StoredJob job) (remaining : Nat)
    (again : StoredJob job → Co (StoredJob job)) : Co (StoredJob job) := do
  match ← Async.attempt (readJob job) with
  | .error .cancelled => Async.throw .cancelled
  | .error _ =>
      if remaining = 0 then Async.throw .settlementIndeterminate
      else again candidate
  | .ok none => Async.throw (.job .jobStateUnavailable true)
  | .ok (some latest) =>
      let r := latest.record
      if r.paymentKey ≠ stored.record.paymentKey ∨
          r.paymentProofDigest ≠ stored.record.paymentProofDigest ∨
          r.status ≠ .settling ∨ r.paymentStatus ≠ .settling ∨
          r.settlementReference.isSome then
        Async.throw (.job .jobStateUnavailable true)
      else
        match r.pendingSettlementReference with
        | none => again latest
        | some other =>
            if isValidSettlementReference other ∧ other = reference then
              pure latest
            else Async.throw (.job .jobStateUnavailable true)

/-- The loop of `_mark_settlement_pending`, with the attempts that remain. -/
def markPendingLoop {job : PyStr} (reference : PyStr) (stored : StoredJob job) :
    Nat → StoredJob job → Co (StoredJob job)
  | 0, _ => Async.throw .settlementIndeterminate
  | remaining + 1, candidate => do
      let now ← clock inst
      match ← Async.attempt (replace D candidate (.pending reference now)) with
      | .ok pending => pure pending
      | .error .cancelled => Async.throw .cancelled
      | .error _ =>
          rereadPending reference stored candidate remaining
            (markPendingLoop reference stored remaining)

def pendingPersistAttempts : Nat := 3

/-- `_mark_settlement_pending`. -/
def markSettlementPending {job : PyStr} (stored : StoredJob job)
    (reference : PyStr) : Co (StoredJob job) :=
  if !isValidSettlementReference reference then
    Async.throw .settlementIndeterminate
  else markPendingLoop D inst reference stored pendingPersistAttempts stored

/-- The time of the settlement; a record that has one keeps it. -/
def settlementTime (r : JobRecord) : Co Int :=
  match r.settledAt.filter (0 < ·) with
  | some t => pure t
  | none => clock inst

/-- `_mark_settled`. -/
def markSettled {job : PyStr} (stored : StoredJob job)
    (payment : VerifiedPayment) (reference : Option PyStr)
    (allowUnavailable : Bool) : Co (StoredJob job) :=
  if !((reference.map isValidSettlementReference).getD allowUnavailable) then
    Async.throw .settlementIndeterminate
  else do
    let settledAt ← settlementTime inst stored.record
    let reservation ← Async.ofExcept (rateReservationFromRecord stored.record)
    match competitionEventId D payment with
    | none => Async.throw (.job .invalidPaymentIdentity false)
    | some eventId =>
        match reservation with
        | none => do
            let now ← clock inst
            replace D stored (.settled reference eventId settledAt none now)
        | some _ => do
            let leaseStart ← clock inst
            let now ← clock inst
            let persisted ← replace D stored (.settled reference eventId
              settledAt (some ((D.service inst).owner,
                leaseStart + JobRecord.leaseMilliseconds)) now)
            commitRateLimit D inst persisted

/-- `_fail_settlement`. -/
def failSettlement {job : PyStr} (stored : StoredJob job) :
    Co (StoredJob job) := do
  let now ← clock inst
  replace D stored (.paymentFailed now)

/-- The call of `self._settle`, seen by the history. -/
def observedSettle (job header : PyStr) (mode : SettlementMode) :
    Co SettlementOutcome := do
  note (.settleCalled job header mode)
  let outcome ← Async.attempt (settlePayment D inst header mode)
  note (.settleReturned job header outcome)
  Async.ofExcept outcome

/-- `_settle_and_transition`. -/
def settleAndTransition {job : PyStr} (stored : StoredJob job)
    (payment : VerifiedPayment) (header : PyStr) (mode : SettlementMode) :
    Co (StoredJob job) := do
  match ← observedSettle D inst job header mode with
  | .pending reference => do
      let _ ← markSettlementPending D inst stored reference
      Async.throw .settlementIndeterminate
  | .rejected => do
      let failed ← failSettlement D inst stored
      releaseAfterRejection D inst failed
      Async.throw (paymentRejectedError payment)
  | .settled reference => markSettled D inst stored payment (some reference) false

/-- `_require_existing_identity`. -/
def requireExistingIdentity (identity : JobIdentity) (job : PyStr) :
    Co (StoredJob job) := do
  match ← readJob job with
  | none => Async.throw (.job .jobStateUnavailable true)
  | some stored =>
      if stored.record.paymentKey ≠ identity.paymentKey then
        Async.throw (.job .jobIdentityCollision false)
      else pure stored

/-- The part of `_reconcile_settling` that owns a fresh claim. -/
def settleClaimed {job : PyStr} (stored : StoredJob job)
    (payment : VerifiedPayment) (header : PyStr) (now : Int) :
    Co (StoredJob job) :=
  match payment.transferMethod with
  | .eip3009 => do
      if ← authorizationUsed D payment then
        markSettled D inst stored payment none true
      else if payment.validBefore ≤ now / 1000 then do
        let failed ← failSettlement D inst stored
        releaseAfterRejection D inst failed
        Async.throw (.job .paymentRejected false)
      else settleAndTransition D inst stored payment header .verifyAndSettle
  | .permit2Exact => settleAndTransition D inst stored payment header .settleOnly

/-- The record belongs to the same proof; only EIP-3009 records may lack the
digest. -/
def digestAccepted (r : JobRecord) (payment : VerifiedPayment) (digest : PyStr) :
    Bool :=
  match r.paymentProofDigest with
  | none => decide (payment.transferMethod = .eip3009)
  | some d => decide (d = digest)

/-- `_reconcile_settling`. -/
def reconcileSettling (identity : JobIdentity) (stored : StoredJob identity.jobId)
    (payment : VerifiedPayment) (header digest : PyStr) :
    Co (StoredJob identity.jobId) :=
  let r := stored.record
  if !digestAccepted r payment digest then Async.throw (.job .paymentRejected false)
  else if payment.transferMethod = .permit2Exact ∧
      (r.pendingSettlementReference.map isValidSettlementReference).getD true
        = false then
    Async.throw (.job .jobStateUnavailable true)
  else if r.status ≠ .settling ∨ r.paymentStatus ≠ .settling then pure stored
  else do
    let now ← clock inst
    if (r.leaseExpiresAt.map (fun t => decide (now < t))).getD false then
      pure stored
    else
      match ← Async.attempt
          (replace D stored (.claimed (D.service inst).owner now)) with
      | .error .jobConflict => requireExistingIdentity identity identity.jobId
      | .error x => Async.throw x
      | .ok claimed => settleClaimed D inst claimed payment header now

/-! ## Creating a job -/

/-- One read of an observer; a failed read finds nothing. -/
def observeOnce (job : PyStr) : Co (Option (StoredJob job)) := do
  match ← Async.attempt (readJob job) with
  | .error .cancelled => Async.throw .cancelled
  | .error _ => pure none
  | .ok found => pure found

/-- `_wait_for_exact_reserved_job`, with the attempts that remain. -/
def observeLoop (identity : JobIdentity) (payment : VerifiedPayment)
    (digest : PyStr) (request : Json) : Nat → Co (StoredJob identity.jobId)
  | 0 => Async.throw (.job .jobStateUnavailable true)
  | remaining + 1 => do
      match ← observeOnce identity.jobId with
      | some stored => do
          Async.ofExcept (requireExactJobBinding D stored.record identity payment
            digest request)
          pure stored
      | none =>
          if remaining = 0 then observeLoop identity payment digest request remaining
          else do
            sleep
            observeLoop identity payment digest request remaining

def waitForExactReservedJob (identity : JobIdentity) (payment : VerifiedPayment)
    (digest : PyStr) (request : Json) : Co (StoredJob identity.jobId) :=
  observeLoop D identity payment digest request (D.service inst).observerAttempts

/-- `_create_result_and_spawn`. -/
def createResultAndSpawn (identity : JobIdentity) (r : JobRecord) :
    Co CreateJobResult := do
  let result ← Async.ofExcept (createResult identity r)
  if result.status = .queued then do
    spawn inst identity.jobId
    pure result
  else pure result

/-- The binding of a record to the request and to its reservation, where it
has one. -/
def requireRecoverable (identity : JobIdentity) (payment : VerifiedPayment)
    (digest : PyStr) (request : List (PyStr × Json)) (r : JobRecord) : Co Unit := do
  match ← Async.ofExcept (rateReservationFromRecord r) with
  | none => pure ()
  | some reservation =>
      match normalizeRequest D request with
      | none => Async.throw (.job .invalidRequest false)
      | some normalized => do
          Async.ofExcept
            (requireExactJobBinding D r identity payment digest normalized)
          if r.status = .settling ∧ r.paymentStatus = .settling then do
            let _ ← confirm inst reservation
            pure ()
          else pure ()

/-- The branch of `create_job` that finds a record. -/
def recoverJob (identity : JobIdentity) (payment : VerifiedPayment)
    (header digest : PyStr) (request : List (PyStr × Json))
    (stored : StoredJob identity.jobId) : Co CreateJobResult :=
  if stored.record.paymentKey ≠ identity.paymentKey then
    Async.throw (.job .jobIdentityCollision false)
  else do
    requireRecoverable D inst identity payment digest request stored.record
    let reconciled ← reconcileSettling D inst identity stored payment header digest
    let counted ← reconcileRateLimit D inst reconciled
    redriveAccounting inst counted
    createResultAndSpawn inst identity counted.record

/-- After a create that raised: the record may have been written all the
same. -/
def readCreated (identity : JobIdentity) (payment : VerifiedPayment)
    (digest : PyStr) (request : Json) : Co CreateJobResult := do
  match ← Async.attempt (readJob identity.jobId) with
  | .error .cancelled => Async.throw .cancelled
  | .error _ => Async.throw (.job .jobStateUnavailable true)
  | .ok none => Async.throw (.job .jobStateUnavailable true)
  | .ok (some stored) => do
      Async.ofExcept (requireExactJobBinding D stored.record identity payment
        digest request)
      Async.ofExcept (createResult identity stored.record)

/-- The branch of `create_job` that writes the record. -/
def admitJob (identity : JobIdentity) (payment : VerifiedPayment)
    (header digest eventId : PyStr) (request : Json)
    (reservation : WalletRateReservation) (now : Int) : Co CreateJobResult := do
  let record := newRecord D (D.service inst).owner identity payment digest eventId
    request reservation now
  -- The create runs in a task of its own; a cancelled caller waits for it.
  have ident : record.jobId = identity.jobId := rfl
  let created ← Async.attempt (createRecord D record ident)
  if ← interrupted then Async.throw .cancelled
  else match created with
    | .error .cancelled => Async.throw .cancelled
    | .error _ => readCreated D identity payment digest request
    | .ok none => do
        let observed ← waitForExactReservedJob D inst identity payment digest request
        Async.ofExcept (createResult identity observed.record)
    | .ok (some stored) => do
        let _ ← confirm inst reservation
        let settled ← settleAndTransition D inst stored payment header
          .verifyAndSettle
        redriveAccounting inst settled
        createResultAndSpawn inst identity settled.record

/-- The branch of `create_job` that finds no record. -/
def startJob (identity : JobIdentity) (payment : VerifiedPayment)
    (header digest : PyStr) (request : List (PyStr × Json))
    (expiredRecovery : Bool) (now : Int) : Co CreateJobResult :=
  if expiredRecovery then Async.throw (.job .paymentRejected false)
  else if !(D.service inst).acceptNewJobs then
    Async.throw (.job .asyncJobsPaused true)
  else match normalizeRequest D request with
    | none => Async.throw (.job .invalidRequest false)
    | some normalized =>
        match competitionEventId D payment with
        | none => Async.throw (.job .invalidPaymentIdentity false)
        | some eventId => do
            let reservation ← reserve D inst payment.fromAddress identity.jobId
            if !reservation.createdByCaller then do
              let observed ← waitForExactReservedJob D inst identity payment digest
                normalized
              Async.ofExcept (createResult identity observed.record)
            else
              admitJob D inst identity payment header digest eventId normalized
                reservation now

/-- The proof check of `create_job`: an expired proof is accepted for
recovery only. -/
def verifyForCreate (header : PyStr) (now : Int) :
    Option (VerifiedPayment × Bool) :=
  match validatePaymentProof D.verify header (now / 1000) false with
  | .ok payment => some (payment, false)
  | .error .expired =>
      match validatePaymentProof D.verify header (now / 1000) true with
      | .ok payment => some (payment, true)
      | .error _ => none
  | .error _ => none

/-- `create_job`. -/
def createJob (header : PyStr) (request : List (PyStr × Json)) :
    Co CreateJobResult := do
  let now ← clock inst
  match verifyForCreate D header now with
  | none => Async.throw (.job .paymentRejected false)
  | some (payment, expiredRecovery) =>
      match proofDigest D header with
      | none => Async.throw (.job .paymentRejected false)
      | some digest =>
          match deriveIdentity D payment with
          | none => Async.throw (.job .invalidPaymentIdentity false)
          | some identity => do
              match ← readJob identity.jobId with
              | some stored =>
                  recoverJob D inst identity payment header digest request stored
              | none =>
                  startJob D inst identity payment header digest request
                    expiredRecovery now

end X402
