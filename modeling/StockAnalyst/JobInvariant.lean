import StockAnalyst.PaymentIdentity

/-!
# The invariant of job records

`JobOk` collects what holds of every record of a job that started with
`newRecord` and went through guarded transitions.  The service builds most
records from copies it read earlier, so the invariant speaks about one
version, and each transition is shown to keep it.
-/

namespace X402

open Python ConditionalStore

/-- What holds of every version of a job record. -/
structure JobOk (r : JobRecord) : Prop where
  jobId : isJobId r.jobId = true
  mode : r.paymentMode = py "paid"
  digest : ∃ digest, r.paymentProofDigest = some digest
  paid : r.status = .queued ∨ r.status = .running ∨ r.status = .succeeded →
    r.paymentStatus = .settled
  refused : r.paymentStatus = .failed →
    r.status = .failed ∧ r.retryable = some false
  unsettled : r.paymentStatus = .settling →
    r.status = .settling ∧ r.settlementReference = none ∧ r.settledAt = none
  unstarted : r.status = .settling → r.attempt = 0
  attempt : 0 ≤ r.attempt ∧ r.attempt ≤ maxExecutionAttempts
  queued : r.status = .queued → r.attempt < maxExecutionAttempts
  reservation : ∃ digest reservedAt, isWalletDigest digest = true ∧
    r.rateLimitWalletDigest = some digest ∧
    r.rateLimitReservationId = some r.jobId ∧
    r.rateLimitReservedAt = some reservedAt ∧
    1 ≤ reservedAt ∧ reservedAt ≤ maxTimestampMilliseconds
  rateState : r.rateLimitState = some .reserved ∨
    (r.rateLimitState = some .committed ∧ r.paymentStatus = .settled ∧
      r.status ≠ .settling) ∨
    (r.rateLimitState = some .released ∧ r.paymentStatus = .failed)
  uncommitted : r.rateLimitState = some .reserved →
    r.status = .settling ∨ r.paymentStatus = .failed
  reference : ∀ ref, r.settlementReference = some ref →
    isValidSettlementReference ref = true
  pending : ∀ ref, r.pendingSettlementReference = some ref →
    isValidSettlementReference ref = true

namespace JobOk

variable {r : JobRecord}

/-- A well-formed record reads back well-formed. -/
theorem reload (h : JobOk r) : JobOk r.reload := { h with }

/-- A record that reads back well-formed is well-formed. -/
theorem of_reload (h : JobOk r.reload) : JobOk r := { h with }

/-- The reservation a record names. -/
theorem rateReservation (h : JobOk r) :
    ∃ reservation, rateReservationFromRecord r = .ok (some reservation) ∧
      reservation.reservationId = r.jobId ∧
      r.rateLimitWalletDigest = some reservation.walletDigest ∧
      r.rateLimitReservedAt = some reservation.reservedAt := by
  obtain ⟨digest, reservedAt, hdigest, hwallet, hid, hat, hlo, hhi⟩ := h.reservation
  have hstate : ∃ state, r.rateLimitState = some state := by
    rcases h.rateState with hs | ⟨hs, -⟩ | ⟨hs, -⟩
    · exact ⟨_, hs⟩
    · exact ⟨_, hs⟩
    · exact ⟨_, hs⟩
  obtain ⟨state, hstate⟩ := hstate
  refine ⟨⟨digest, r.jobId, reservedAt,
    if state = .committed then .committed else .reserved, false⟩, ?_, rfl,
    hwallet, hat⟩
  simp only [rateReservationFromRecord, hwallet, hid, hat, hstate]
  rw [if_pos ⟨hdigest, h.jobId, trivial, hlo, hhi⟩]

/-- A settling record holds a reserved slot. -/
theorem settling_reserved (h : JobOk r) (hpayment : r.paymentStatus = .settling) :
    r.rateLimitState = some .reserved := by
  rcases h.rateState with hs | ⟨-, hs, -⟩ | ⟨-, hs⟩
  · exact hs
  · simp [hpayment] at hs
  · simp [hpayment] at hs

/-- A paid job that has left `settling` has its reservation committed. -/
theorem settled_committed (h : JobOk r) (hpayment : r.paymentStatus = .settled)
    (hstatus : r.status ≠ .settling) : r.rateLimitState = some .committed := by
  rcases h.rateState with hs | ⟨hs, -⟩ | ⟨-, hs⟩
  · rcases h.uncommitted hs with hu | hu
    · exact absurd hu hstatus
    · simp [hpayment] at hu
  · exact hs
  · simp [hpayment] at hs

/-- A retryable failure is one of the analysis, not of the payment. -/
theorem retryable_settled (h : JobOk r) (hretry : JobWrite.Retryable r) :
    r.paymentStatus = .settled := by
  obtain ⟨hfailed, hretry⟩ := hretry
  cases hp : r.paymentStatus with
  | settled => rfl
  | settling => simp [(h.unsettled hp).1] at hfailed
  | failed => simp [(h.refused hp).2] at hretry

/-- **Every transition keeps the invariant.** -/
theorem apply {t : JobWrite} (h : JobOk r) (hguard : t.Guard r) :
    JobOk (t.apply r) := by
  cases t with
  | claimed owner now =>
      exact { h with }
  | pending reference now =>
      obtain ⟨⟨hstatus, hpayment⟩, hvalid⟩ := hguard
      have hunsettled := h.unsettled hpayment
      have hstate := h.settling_reserved hpayment
      refine { h with
        paid := by simp [JobWrite.apply, JobRecord.pendingSettlement]
        refused := by simp [JobWrite.apply, JobRecord.pendingSettlement]
        unsettled := fun _ => ⟨rfl, rfl, hunsettled.2.2⟩
        unstarted := fun _ => h.unstarted hstatus
        queued := by simp [JobWrite.apply, JobRecord.pendingSettlement]
        rateState := Or.inl hstate
        uncommitted := fun _ => Or.inl rfl
        reference := by simp [JobWrite.apply, JobRecord.pendingSettlement]
        pending := ?_ }
      intro ref href
      obtain rfl := Option.some.inj href
      exact hvalid
  | settled reference eventId settledAt lease now =>
      obtain ⟨⟨hstatus, hpayment⟩, hlease, hvalid⟩ := hguard
      have hstate := h.settling_reserved hpayment
      have hnew : (JobWrite.apply (.settled reference eventId settledAt lease now)
          r).status = .settling := by
        simp [JobWrite.apply, JobRecord.settled, hlease]
      exact { h with
        paid := fun _ => rfl
        refused := by simp [JobWrite.apply, JobRecord.settled]
        unsettled := by simp [JobWrite.apply, JobRecord.settled]
        unstarted := fun _ => h.unstarted hstatus
        queued := by simp [hnew]
        rateState := Or.inl hstate
        uncommitted := fun _ => Or.inl hnew
        reference := hvalid
        pending := by simp [JobWrite.apply, JobRecord.settled] }
  | paymentFailed now =>
      obtain ⟨hstatus, hpayment⟩ := hguard
      have hstate := h.settling_reserved hpayment
      exact { h with
        paid := by simp [JobWrite.apply, JobRecord.paymentFailed]
        refused := fun _ => ⟨rfl, rfl⟩
        unsettled := by simp [JobWrite.apply, JobRecord.paymentFailed]
        unstarted := by simp [JobWrite.apply, JobRecord.paymentFailed]
        queued := by simp [JobWrite.apply, JobRecord.paymentFailed]
        rateState := Or.inl hstate
        uncommitted := fun _ => Or.inr rfl
        reference := h.reference
        pending := by simp [JobWrite.apply, JobRecord.paymentFailed] }
  | rateCommitted now =>
      obtain ⟨hpayment, hstatus⟩ := hguard
      have hattempt := h.unstarted hstatus
      have hstate : r.rateLimitState.isSome := by
        have := h.rateState
        rcases this with hs | ⟨hs, -⟩ | ⟨hs, -⟩ <;> simp [hs]
      obtain ⟨state, hsome⟩ := Option.isSome_iff_exists.1 hstate
      have hnew : (JobWrite.apply (.rateCommitted now) r).rateLimitState =
          some .committed := by
        simp [JobWrite.apply, JobRecord.rateCommitted, hsome]
      exact { h with
        paid := fun _ => hpayment
        refused := fun hf => absurd (hpayment.symm.trans hf) (by simp)
        unsettled := fun hf => absurd (hpayment.symm.trans hf) (by simp)
        unstarted := by simp [JobWrite.apply, JobRecord.rateCommitted]
        queued := fun _ => by
          show r.attempt < maxExecutionAttempts
          rw [hattempt]
          decide
        rateState := Or.inr (Or.inl ⟨hnew, hpayment,
          by simp [JobWrite.apply, JobRecord.rateCommitted]⟩)
        uncommitted := by simp [hnew] }
  | rateReleased now =>
      obtain ⟨hpayment, hstate⟩ := hguard
      exact { h with
        rateState := Or.inr (Or.inr ⟨rfl, hpayment⟩)
        uncommitted := fun _ => Or.inr hpayment }
  | requeued now =>
      obtain ⟨hfrom, hattempt⟩ := hguard
      have hpayment : r.paymentStatus = .settled := by
        rcases hfrom with ⟨hrunning, -⟩ | hretry
        · exact h.paid (Or.inr (Or.inl hrunning))
        · exact h.retryable_settled hretry
      have hold : r.status ≠ .settling := by
        rcases hfrom with ⟨hrunning, -⟩ | ⟨hfailed, -⟩ <;> simp [*]
      have hstate := h.settled_committed hpayment hold
      exact { h with
        paid := fun _ => hpayment
        refused := fun hf => absurd (hpayment.symm.trans hf) (by simp)
        unsettled := fun hf => absurd (hpayment.symm.trans hf) (by simp)
        unstarted := by simp [JobWrite.apply, JobRecord.requeued]
        queued := fun _ => hattempt
        rateState := Or.inr (Or.inl ⟨hstate, hpayment,
          by simp [JobWrite.apply, JobRecord.requeued]⟩)
        uncommitted := fun hs => absurd (hstate.symm.trans hs) (by simp) }
  | running owner now =>
      obtain ⟨hfrom, hattempt⟩ := hguard
      have hpayment : r.paymentStatus = .settled := by
        rcases hfrom with hqueued | ⟨hrunning, -⟩ | hretry
        · exact h.paid (Or.inl hqueued)
        · exact h.paid (Or.inr (Or.inl hrunning))
        · exact h.retryable_settled hretry
      have hold : r.status ≠ .settling := by
        rcases hfrom with hqueued | ⟨hrunning, -⟩ | ⟨hfailed, -⟩ <;> simp [*]
      have hstate := h.settled_committed hpayment hold
      have hnonneg := h.attempt.1
      exact { h with
        paid := fun _ => hpayment
        refused := fun hf => absurd (hpayment.symm.trans hf) (by simp)
        unsettled := fun hf => absurd (hpayment.symm.trans hf) (by simp)
        unstarted := by simp [JobWrite.apply, JobRecord.executing]
        attempt := by
          show 0 ≤ r.attempt + 1 ∧ r.attempt + 1 ≤ maxExecutionAttempts
          omega
        queued := by simp [JobWrite.apply, JobRecord.executing]
        rateState := Or.inr (Or.inl ⟨hstate, hpayment,
          by simp [JobWrite.apply, JobRecord.executing]⟩)
        uncommitted := fun hs => absurd (hstate.symm.trans hs) (by simp) }
  | heartbeat owner now =>
      exact { h with }
  | succeeded owner now =>
      obtain ⟨hrunning, -⟩ := hguard
      have hpayment := h.paid (Or.inr (Or.inl hrunning))
      exact { h with
        paid := fun _ => hpayment
        refused := fun hf => absurd (hpayment.symm.trans hf) (by simp)
        unsettled := fun hf => absurd (hpayment.symm.trans hf) (by simp)
        unstarted := by simp [JobWrite.apply, JobRecord.succeededWith]
        queued := by simp [JobWrite.apply, JobRecord.succeededWith]
        rateState := h.rateState.imp_right (Or.imp_left fun hs =>
          ⟨hs.1, hs.2.1, by simp [JobWrite.apply, JobRecord.succeededWith]⟩)
        uncommitted := fun hs => by
          rcases h.uncommitted hs with hu | hu
          · simp [hrunning] at hu
          · exact Or.inr hu }
  | executionFailed owner code canRetry now =>
      obtain ⟨⟨hrunning, -⟩, -⟩ := hguard
      have hpayment := h.paid (Or.inr (Or.inl hrunning))
      exact { h with
        paid := by simp [JobWrite.apply, JobRecord.executionFailed]
        refused := fun hf => absurd (hpayment.symm.trans hf) (by simp)
        unsettled := fun hf => absurd (hpayment.symm.trans hf) (by simp)
        unstarted := by simp [JobWrite.apply, JobRecord.executionFailed]
        queued := by simp [JobWrite.apply, JobRecord.executionFailed]
        rateState := h.rateState.imp_right (Or.imp_left fun hs =>
          ⟨hs.1, hs.2.1, by simp [JobWrite.apply, JobRecord.executionFailed]⟩)
        uncommitted := fun hs => by
          rcases h.uncommitted hs with hu | hu
          · simp [hrunning] at hu
          · exact Or.inr hu }

end JobOk

/-- The record of a new job satisfies the invariant. -/
theorem newRecord_ok {D : Deployment} {owner : PyStr} {identity : JobIdentity}
    {payment : VerifiedPayment} {digest eventId : PyStr} {request : Json}
    {reservation : WalletRateReservation} {now : Int}
    (hid : isJobId identity.jobId = true)
    (hreservation : reservation.reservationId = identity.jobId)
    (hstate : reservation.state = .reserved)
    (hwallet : isWalletDigest reservation.walletDigest = true)
    (hlo : 1 ≤ reservation.reservedAt)
    (hhi : reservation.reservedAt ≤ maxTimestampMilliseconds) :
    JobOk (newRecord D owner identity payment digest eventId request reservation
      now) where
  jobId := hid
  mode := rfl
  digest := ⟨digest, rfl⟩
  paid := by simp [newRecord]
  refused := by simp [newRecord]
  unsettled := fun _ => ⟨rfl, rfl, rfl⟩
  unstarted := fun _ => rfl
  attempt := ⟨by simp [newRecord], by simp [newRecord, maxExecutionAttempts]⟩
  queued := by simp [newRecord]
  reservation := ⟨reservation.walletDigest, reservation.reservedAt, hwallet, rfl,
    congrArg some hreservation, rfl, hlo, hhi⟩
  rateState := Or.inl (by simp [newRecord, hstate])
  uncommitted := fun _ => Or.inl rfl
  reference := by simp [newRecord]
  pending := by simp [newRecord]

/-! ## What transitions keep -/

/-- The members no transition touches. -/
structure SameJob (r r' : JobRecord) : Prop where
  jobId : r'.jobId = r.jobId
  paymentKey : r'.paymentKey = r.paymentKey
  paymentMode : r'.paymentMode = r.paymentMode
  asset : r'.asset = r.asset
  paymentProofDigest : r'.paymentProofDigest = r.paymentProofDigest
  address : r'.address = r.address
  request : r'.request = r.request
  jobTokenHash : r'.jobTokenHash = r.jobTokenHash
  createdAt : r'.createdAt = r.createdAt
  expiresAt : r'.expiresAt = r.expiresAt
  walletDigest : r'.rateLimitWalletDigest = r.rateLimitWalletDigest
  reservationId : r'.rateLimitReservationId = r.rateLimitReservationId
  reservedAt : r'.rateLimitReservedAt = r.rateLimitReservedAt

/-- A record is of its own job. -/
theorem SameJob.refl (r : JobRecord) : SameJob r r := by
  constructor <;> rfl

/-- Records of one job, through a third. -/
theorem SameJob.trans {r r' r'' : JobRecord} (h : SameJob r r')
    (h' : SameJob r' r'') : SameJob r r'' where
  jobId := h'.jobId.trans h.jobId
  paymentKey := h'.paymentKey.trans h.paymentKey
  paymentMode := h'.paymentMode.trans h.paymentMode
  asset := h'.asset.trans h.asset
  paymentProofDigest := h'.paymentProofDigest.trans h.paymentProofDigest
  address := h'.address.trans h.address
  request := h'.request.trans h.request
  jobTokenHash := h'.jobTokenHash.trans h.jobTokenHash
  createdAt := h'.createdAt.trans h.createdAt
  expiresAt := h'.expiresAt.trans h.expiresAt
  walletDigest := h'.walletDigest.trans h.walletDigest
  reservationId := h'.reservationId.trans h.reservationId
  reservedAt := h'.reservedAt.trans h.reservedAt

/-- Records of one job, the other way round. -/
theorem SameJob.symm {r r' : JobRecord} (h : SameJob r r') : SameJob r' r where
  jobId := h.jobId.symm
  paymentKey := h.paymentKey.symm
  paymentMode := h.paymentMode.symm
  asset := h.asset.symm
  paymentProofDigest := h.paymentProofDigest.symm
  address := h.address.symm
  request := h.request.symm
  jobTokenHash := h.jobTokenHash.symm
  createdAt := h.createdAt.symm
  expiresAt := h.expiresAt.symm
  walletDigest := h.walletDigest.symm
  reservationId := h.reservationId.symm
  reservedAt := h.reservedAt.symm

/-- A transition stays within the job. -/
theorem JobWrite.apply_sameJob (t : JobWrite) (r : JobRecord) :
    SameJob r (t.apply r) := by
  cases t <;> constructor <;> rfl

/-- A record that stays as it is: delivered, refused, or failed for good. -/
def Final (r : JobRecord) : Prop :=
  r.status = .succeeded ∨ r.paymentStatus = .failed ∨
    (r.status = .failed ∧ r.retryable = some false)

/-- **A final record keeps its status**, whatever transition its guard still
lets through, and stays final. -/
theorem Final.apply {t : JobWrite} {r : JobRecord} (h : Final r) (hok : JobOk r)
    (hguard : t.Guard r) :
    (t.apply r).status = r.status ∧ Final (t.apply r) := by
  have hnot : r.status ≠ .settling ∧ r.status ≠ .queued ∧ r.status ≠ .running ∧
      ¬ JobWrite.Retryable r := by
    rcases h with hs | hp | ⟨hs, hretry⟩
    · simp [hs, JobWrite.Retryable]
    · obtain ⟨hs, hretry⟩ := hok.refused hp
      simp [hs, hretry, JobWrite.Retryable]
    · simp [hs, hretry, JobWrite.Retryable]
  obtain ⟨hsettling, hqueued, hrunning, hretryable⟩ := hnot
  cases t with
  | claimed owner now => exact absurd hguard.1.1 hsettling
  | pending reference now => exact absurd hguard.1.1 hsettling
  | settled reference eventId settledAt lease now =>
      exact absurd hguard.1.1 hsettling
  | paymentFailed now => exact absurd hguard.1 hsettling
  | rateCommitted now => exact absurd hguard.2 hsettling
  | rateReleased now => exact ⟨rfl, h⟩
  | requeued now =>
      rcases hguard.1 with hstale | hretry
      · exact absurd hstale.1 hrunning
      · exact absurd hretry hretryable
  | running owner now =>
      rcases hguard.1 with hq | hstale | hretry
      · exact absurd hq hqueued
      · exact absurd hstale.1 hrunning
      · exact absurd hretry hretryable
  | heartbeat owner now => exact absurd hguard.1 hrunning
  | succeeded owner now => exact absurd hguard.1 hrunning
  | executionFailed owner code canRetry now => exact absurd hguard.1.1 hrunning

/-- An execution claim counts one attempt; no other transition does. -/
def JobWrite.isClaim : JobWrite → Bool
  | .running _ _ => true
  | _ => false

/-- Only a claim counts as an attempt. -/
theorem JobWrite.apply_attempt (t : JobWrite) (r : JobRecord) :
    (t.apply r).attempt = r.attempt + if t.isClaim then 1 else 0 := by
  cases t <;> simp [JobWrite.apply, JobWrite.isClaim, JobRecord.claimed,
    JobRecord.pendingSettlement, JobRecord.settled, JobRecord.paymentFailed,
    JobRecord.rateCommitted, JobRecord.rateReleased, JobRecord.requeued,
    JobRecord.executing, JobRecord.heartbeat, JobRecord.succeededWith,
    JobRecord.executionFailed]

end X402
