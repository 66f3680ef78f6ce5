import StockAnalyst.ProofSoundness

/-!
# Expired proofs only recover

An expired proof validates in recovery mode alone, and then to the payment it
always had.  `createJob` takes such a proof no further than a record that is
already there: what it can come to from then on, whatever the store and the
facilitator answer, neither reserves a slot nor creates a record.
-/

namespace X402

open Python ConditionalStore Coroutine Async

/-! ## The two modes of validation -/

/-- **Expiry is the only difference between the modes.**  A proof valid in
ordinary mode is valid in recovery mode; one valid in recovery mode is valid
in ordinary mode until it expires, and is refused as expired from then on. -/
theorem validatePaymentProof_modes (env : VerifyEnv) (header : PyStr) (now : Int)
    (p : VerifiedPayment) :
    (validatePaymentProof env header now false = .ok p →
      validatePaymentProof env header now true = .ok p) ∧
    (validatePaymentProof env header now true = .ok p →
      validatePaymentProof env header now false =
        if now < p.validBefore then .ok p else .error .expired) :=
  ⟨fun h => (validatePaymentProof_later h le_rfl).1,
    fun h => (validatePaymentProof_later h le_rfl).2⟩

/-! ## What recovery can come to -/

/-- Neither a slot of a wallet nor a new record. -/
def Eff.Recovers : Eff → Prop
  | .putJob put => put.write ≠ none
  | .putWallet put =>
      match put.write with
      | .create .. => False
      | .append .. => False
      | _ => True
  | _ => True

variable {D : Deployment} {inst : Nat} {job : PyStr}

/-- A coroutine that performs nothing but recovery. -/
abbrev Recovery {α : Type} (p : Co α) : Prop := Prog.Within Eff.Recovers p

section store

/-- Reading the clock is recovery. -/
theorem clock_recovery : Recovery (clock inst) := within_await trivial

/-- Sleeping is recovery. -/
theorem sleep_recovery : Recovery sleep := within_await trivial

/-- A note of the history is recovery. -/
theorem note_recovery {moment : Moment} : Recovery (note moment) := within_await trivial

/-- A put repeated on lost answers does what one put does. -/
theorem conditionalPut_recovery {put : Co (PutReply Fault)} (h : Recovery put) (n : Nat) :
    Recovery (conditionalPut put n) := by
  induction n with
  | zero => exact within_throw _
  | succ n ih =>
      refine within_bind h ?_
      intro reply
      split
      · exact within_pure _
      · exact within_pure _
      · exact within_throw _
      · split
        · exact within_throw _
        · exact ih

/-- Reading a record only reads. -/
theorem readJob_recovery : Recovery (readJob job) := by
  unfold readJob
  split
  · exact within_throw _
  · exact within_await trivial

/-- A transition replaces a record; it never creates one. -/
theorem replace_recovery {stored : StoredJob job} {write : JobWrite} :
    Recovery (replace D stored write) := by
  unfold replace
  dsimp only
  split
  · exact within_throw _
  · split
    · exact within_throw _
    · refine within_bind (conditionalPut_recovery (within_await ?_) _) ?_
      · exact Option.some_ne_none write
      · intro serial
        split
        · exact within_pure _
        · exact within_throw _

/-- Reading a wallet only reads. -/
theorem readWalletRateLimit_recovery {digest : PyStr} :
    Recovery (readWalletRateLimit digest) := by
  unfold readWalletRateLimit
  split
  · exact within_throw _
  · exact within_await trivial

/-- Reading a marker only reads. -/
theorem readAccountingMarker_recovery : Recovery (readAccountingMarker job) := by
  unfold readAccountingMarker
  split
  · exact within_throw _
  · exact within_await trivial

end store

section wallet

variable {reservation : WalletRateReservation}

/-- The limiter's clock only reads. -/
theorem walletNow_recovery : Recovery (walletNow inst) := by
  refine within_bind clock_recovery ?_
  intro now
  split
  · exact within_pure _
  · exact within_throw _

/-- Waiting before the next try is recovery. -/
theorem backoff_recovery {remaining : Nat} : Recovery (backoff remaining) := by
  unfold backoff
  split
  · exact within_pure _
  · exact sleep_recovery

/-- Looking for a reservation only reads. -/
theorem readCommitState_recovery : Recovery (readCommitState inst reservation) := by
  refine within_bind walletNow_recovery ?_
  intro now
  split
  · exact within_pure _
  · refine within_bind (within_attempt readWalletRateLimit_recovery) ?_
    intro read
    split
    · exact within_throw _
    · exact within_throw _
    · exact within_throw _
    · split
      · exact within_throw _
      · split
        · exact within_pure _
        · exact within_pure _

/-- Confirming a reservation only reads. -/
theorem confirm_recovery : Recovery (confirm inst reservation) := by
  refine within_bind walletNow_recovery ?_
  intro now
  split
  · exact within_pure _
  · refine within_bind readCommitState_recovery ?_
    intro state
    split
    · exact within_pure _
    · exact within_throw _

/-- Commits and releases change a slot that is there. -/
theorem replaceMutation_recovery {stored : StoredWallet} {commit : Bool} {now : Int}
    {entries : List WalletEntry} {digest : PyStr} :
    Recovery (replaceWalletRateLimit digest stored (mutation reservation commit now)
      entries) := by
  unfold replaceWalletRateLimit
  split
  · split
    · exact within_throw _
    · refine within_bind (conditionalPut_recovery (within_await ?_) _) ?_
      · cases commit
        · exact trivial
        · exact trivial
      · intro serial
        split
        · exact within_pure _
        · exact within_throw _
  · exact within_throw _

/-- One try of a change commits or releases a slot and takes none. -/
theorem mutateOnce_recovery {commit : Bool} {now : Int} {remaining : Nat} :
    Recovery (mutateOnce inst reservation commit now remaining) := by
  refine within_bind readWalletRateLimit_recovery ?_
  intro read
  split
  · split
    · exact within_throw _
    · exact within_pure _
  · dsimp only
    split
    · split
      · exact within_throw _
      · exact within_pure _
    · split
      · exact within_pure _
      · refine within_bind (within_attempt replaceMutation_recovery) ?_
        intro written
        split
        · exact within_pure _
        · exact within_bind backoff_recovery fun _ => within_pure _
        · exact within_throw _
        · split
          · exact within_throw _
          · refine within_bind readCommitState_recovery ?_
            intro state
            split
            · exact within_pure _
            · exact within_pure _

/-- So do all its tries. -/
theorem mutateLoop_recovery {commit : Bool} (remaining : Nat) :
    Recovery (mutateLoop inst reservation commit remaining) := by
  induction remaining with
  | zero => exact within_throw _
  | succ remaining ih =>
      refine within_bind walletNow_recovery ?_
      intro now
      refine within_bind (within_attempt mutateOnce_recovery) ?_
      intro done
      split
      · exact within_pure _
      · exact ih
      · exact within_bind backoff_recovery fun _ => ih
      · exact within_throw _
      · exact within_throw _

/-- Committing a slot takes none. -/
theorem commit_recovery : Recovery (commit D inst reservation) := mutateLoop_recovery _

/-- Releasing a slot takes none. -/
theorem release_recovery : Recovery (release D inst reservation) := mutateLoop_recovery _

end wallet

section facilitator

variable {payload : Json} {header : PyStr} {mode : SettlementMode}

/-- A request to the facilitator writes nothing. -/
theorem b402Post_recovery {endpoint : Endpoint} :
    Recovery (b402Post inst endpoint payload) := by
  unfold b402Post
  split
  · exact within_throw _
  · refine within_bind (within_attempt (within_await trivial)) ?_
    intro reply
    split
    · split
      · exact within_pure _
      · exact within_throw _
    · exact within_throw _
    · exact within_throw _

/-- Nor does asking for the kinds it supports. -/
theorem getSupportedKinds_recovery : Recovery (getSupportedKinds inst) := by
  have hcached : ∀ now, Recovery (cachedKinds inst now) := fun _ => within_await trivial
  have hrefresh : Recovery (refreshKinds inst) := by
    refine within_bind (within_await trivial) ?_
    intro now
    refine within_bind (hcached now) ?_
    intro cached
    split
    · exact within_pure _
    · refine within_bind b402Post_recovery ?_
      intro reply
      split
      · exact within_throw _
      · exact within_bind (within_await trivial) fun _ => within_pure _
  refine within_bind (within_await trivial) ?_
  intro now
  refine within_bind (hcached now) ?_
  intro cached
  split
  · exact within_pure _
  · refine within_bind (within_await trivial) ?_
    intro _
    refine within_bind (within_attempt hrefresh) ?_
    intro result
    exact within_bind (within_await trivial) fun _ => within_ofExcept _

/-- Settling moves a payment but writes no record. -/
theorem b402SettleRequest_recovery : Recovery (b402SettleRequest inst payload) := by
  refine within_bind b402Post_recovery ?_
  intro reply
  split
  · exact within_pure _
  · exact within_throw _

/-- With the check before it, too. -/
theorem b402Settle_recovery {proof : List (PyStr × Json)} {verifyFirst : Bool} :
    Recovery (b402Settle D inst proof verifyFirst) := by
  unfold b402Settle
  split
  · split
    · split
      · exact within_throw _
      · split
        · refine within_bind getSupportedKinds_recovery ?_
          intro kinds
          split
          · exact within_throw _
          · split
            · refine within_bind b402Post_recovery ?_
              intro reply
              split
              · exact within_throw _
              · exact within_pure _
              · exact b402SettleRequest_recovery
            · exact b402SettleRequest_recovery
        · exact within_throw _
    · exact within_throw _
  · exact within_throw _

/-- The generic facilitator is asked alike. -/
theorem settleGeneric_recovery : Recovery (settleGeneric inst payload) := by
  refine within_bind (within_attempt (within_await trivial)) ?_
  intro reply
  split
  · split
    · exact within_pure _
    · exact within_throw _
  · exact within_throw _
  · exact within_throw _

/-- Whichever facilitator settles, nothing is written. -/
theorem settleViaFacilitator_recovery : Recovery (settleViaFacilitator D inst header mode) := by
  unfold settleViaFacilitator
  split
  · exact within_pure _
  · split
    · split
      · split
        · refine within_bind (within_attempt b402Settle_recovery) ?_
          intro result
          split
          · exact within_pure _
          · exact within_throw _
          · exact within_ofExcept _
        · split
          · exact within_pure _
          · split
            · exact settleGeneric_recovery
            · exact within_pure _
      · exact within_pure _
    · exact within_pure _

/-- Observing the settlement adds notes only. -/
theorem observedSettle_recovery : Recovery (observedSettle D inst job header mode) := by
  have hwait : Recovery (waitFor (settleViaFacilitator D inst header mode)) := by
    refine within_bind (within_attempt settleViaFacilitator_recovery) ?_
    intro result
    split
    · refine within_bind (within_await trivial) ?_
      intro fired
      split
      · exact within_throw _
      · exact within_throw _
    · exact within_ofExcept _
  have hsettle : Recovery (settlePayment D inst header mode) := by
    refine within_bind (within_attempt hwait) ?_
    intro result
    split
    · exact within_pure _
    · exact within_throw _
    · exact within_throw _
  refine within_bind note_recovery ?_
  intro _
  refine within_bind (within_attempt hsettle) ?_
  intro outcome
  exact within_bind note_recovery fun _ => within_ofExcept _

/-- Asking the chain writes nothing. -/
theorem authorizationUsed_recovery {payment : VerifiedPayment} :
    Recovery (authorizationUsed D payment) := by
  unfold authorizationUsed
  split
  · exact within_throw _
  · split
    · exact within_throw _
    · exact within_await trivial

end facilitator

section record

variable {stored : StoredJob job}

/-- The rate-limit state of the record is finalized in place. -/
theorem finalizeRateCommit_recovery : Recovery (finalizeRateCommit D inst stored) := by
  refine within_bind clock_recovery ?_
  intro now
  refine within_bind (within_attempt replace_recovery) ?_
  intro result
  split
  · exact within_pure _
  · exact within_throw _
  · refine within_bind readJob_recovery ?_
    intro latest
    split
    · exact within_throw _
    · dsimp only
      split
      · exact within_pure _
      · exact within_throw _
  · exact within_throw _

/-- The release is marked in the record that is there. -/
theorem markRateReleased_recovery : Recovery (markRateReleased D inst stored) := by
  unfold markRateReleased
  split
  · exact within_pure _
  · refine within_bind clock_recovery ?_
    intro now
    refine within_bind (within_attempt replace_recovery) ?_
    intro result
    split
    · exact within_pure _
    · refine within_bind readJob_recovery ?_
      intro latest
      split
      · exact within_throw _
      · split
        · exact within_pure _
        · exact within_throw _
    · exact within_throw _

/-- Committing the slot of a record takes no other. -/
theorem commitRateLimit_recovery : Recovery (commitRateLimit D inst stored) := by
  refine within_bind (within_ofExcept _) ?_
  intro reservation
  split
  · exact finalizeRateCommit_recovery
  · exact within_bind commit_recovery fun _ => finalizeRateCommit_recovery

/-- Releasing the slot of a record takes no other. -/
theorem releaseAfterRejection_recovery : Recovery (releaseAfterRejection D inst stored) := by
  have hrelease : Recovery (releaseRateLimit D inst stored) := by
    refine within_bind (within_ofExcept _) ?_
    intro reservation
    split
    · exact within_pure _
    · exact within_bind release_recovery fun _ => markRateReleased_recovery
  refine within_bind (within_attempt hrelease) ?_
  intro result
  split
  · exact within_pure _
  · exact within_throw _
  · exact within_throw _

/-- Reconciling the slot takes no new one. -/
theorem reconcileRateLimit_recovery : Recovery (reconcileRateLimit D inst stored) := by
  refine within_bind (within_ofExcept _) ?_
  intro reservation
  split
  · exact within_pure _
  · split
    · exact within_bind commit_recovery fun _ => finalizeRateCommit_recovery
    · split
      · exact finalizeRateCommit_recovery
      · exact within_pure _
    · exact within_bind release_recovery fun _ => markRateReleased_recovery
    · exact within_pure _
    · exact within_pure _
    · exact within_throw _

/-- Every turn of the loop replaces the record that is there. -/
theorem markPendingLoop_recovery {reference : PyStr} (remaining : Nat)
    (candidate : StoredJob job) :
    Recovery (markPendingLoop D inst reference stored remaining candidate) := by
  induction remaining generalizing candidate with
  | zero => exact within_throw _
  | succ remaining ih =>
      refine within_bind clock_recovery ?_
      intro now
      refine within_bind (within_attempt replace_recovery) ?_
      intro result
      split
      · exact within_pure _
      · exact within_throw _
      · refine within_bind (within_attempt readJob_recovery) ?_
        intro latest
        split
        · exact within_throw _
        · split
          · exact within_throw _
          · exact ih candidate
        · exact within_throw _
        · dsimp only
          split
          · exact within_throw _
          · split
            · exact ih _
            · split
              · exact within_pure _
              · exact within_throw _

/-- A pending settlement is marked in the record that is there. -/
theorem markSettlementPending_recovery {reference : PyStr} :
    Recovery (markSettlementPending D inst stored reference) := by
  unfold markSettlementPending
  split
  · exact within_throw _
  · exact markPendingLoop_recovery _ _

variable {payment : VerifiedPayment}

/-- A settled payment is marked in the record that is there. -/
theorem markSettled_recovery {reference : Option PyStr} {allowUnavailable : Bool} :
    Recovery (markSettled D inst stored payment reference allowUnavailable) := by
  have htime : Recovery (settlementTime inst stored.record) := by
    unfold settlementTime
    split
    · exact within_pure _
    · exact clock_recovery
  unfold markSettled
  split
  · exact within_throw _
  · refine within_bind htime ?_
    intro settledAt
    refine within_bind (within_ofExcept _) ?_
    intro reservation
    split
    · exact within_throw _
    · split
      · exact within_bind clock_recovery fun _ => replace_recovery
      · refine within_bind clock_recovery ?_
        intro leaseStart
        refine within_bind clock_recovery ?_
        intro now
        exact within_bind replace_recovery fun _ => commitRateLimit_recovery

/-- A failed payment is marked in the record that is there. -/
theorem failSettlement_recovery : Recovery (failSettlement D inst stored) :=
  within_bind clock_recovery fun _ => replace_recovery

/-- A settlement ends in one of these marks. -/
theorem settleAndTransition_recovery {header : PyStr} {mode : SettlementMode} :
    Recovery (settleAndTransition D inst stored payment header mode) := by
  refine within_bind observedSettle_recovery ?_
  intro outcome
  split
  · exact within_bind markSettlementPending_recovery fun _ => within_throw _
  · refine within_bind failSettlement_recovery ?_
    intro failed
    exact within_bind releaseAfterRejection_recovery fun _ => within_throw _
  · exact markSettled_recovery

/-- A claimed settlement replaces the record it has claimed. -/
theorem settleClaimed_recovery {header : PyStr} {now : Int} :
    Recovery (settleClaimed D inst stored payment header now) := by
  unfold settleClaimed
  split
  · refine within_bind authorizationUsed_recovery ?_
    intro used
    split
    · exact markSettled_recovery
    · split
      · refine within_bind failSettlement_recovery ?_
        intro failed
        exact within_bind releaseAfterRejection_recovery fun _ => within_throw _
      · exact settleAndTransition_recovery
  · exact settleAndTransition_recovery

/-- Spawning a task writes nothing. -/
theorem spawnTask_recovery {kind : TaskKind} {call : Call} :
    Recovery (spawnTask inst kind job call) := by
  refine within_bind (within_await trivial) ?_
  intro spawned
  split
  · exact within_await trivial
  · exact within_pure _

/-- Driving the accounting again writes no record. -/
theorem redriveAccounting_recovery : Recovery (redriveAccounting inst stored) := by
  have hspawn : ∀ delay, Recovery (spawnAccounting inst job delay) := by
    intro delay
    unfold spawnAccounting
    split
    · exact within_pure _
    · exact spawnTask_recovery
  unfold redriveAccounting
  split
  · exact within_pure _
  · refine within_bind (within_attempt readAccountingMarker_recovery) ?_
    intro marker
    split
    · exact within_throw _
    · exact hspawn _
    · exact hspawn _
    · exact within_pure _

end record

section createJob

variable {identity : JobIdentity} {payment : VerifiedPayment} {header digest : PyStr}
  {request : List (PyStr × Json)} {stored : StoredJob identity.jobId}

/-- The checks of a recovery only read. -/
theorem requireRecoverable_recovery {r : JobRecord} :
    Recovery (requireRecoverable D inst identity payment digest request r) := by
  refine within_bind (within_ofExcept _) ?_
  intro reservation
  split
  · exact within_pure _
  · split
    · exact within_throw _
    · refine within_bind (within_ofExcept _) ?_
      intro _
      split
      · exact within_bind confirm_recovery fun _ => within_pure _
      · exact within_pure _

/-- Looking for the job only reads. -/
theorem requireExistingIdentity_recovery :
    Recovery (requireExistingIdentity identity job) := by
  refine within_bind readJob_recovery ?_
  intro found
  split
  · exact within_throw _
  · split
    · exact within_throw _
    · exact within_pure _

/-- **A settling record is reconciled** by recovery alone. -/
theorem reconcileSettling_recovery :
    Recovery (reconcileSettling D inst identity stored payment header digest) := by
  unfold reconcileSettling
  dsimp only
  split
  · exact within_throw _
  · split
    · exact within_throw _
    · split
      · exact within_pure _
      · refine within_bind clock_recovery ?_
        intro now
        split
        · exact within_pure _
        · refine within_bind (within_attempt replace_recovery) ?_
          intro claimed
          split
          · exact requireExistingIdentity_recovery
          · exact within_throw _
          · exact settleClaimed_recovery

/-- The result of a call spawns tasks and writes nothing itself. -/
theorem createResultAndSpawn_recovery {r : JobRecord} :
    Recovery (createResultAndSpawn inst identity r) := by
  refine within_bind (within_ofExcept _) ?_
  intro result
  split
  · exact within_bind spawnTask_recovery fun _ => within_pure _
  · exact within_pure _

/-- **A recovered job** gets by with what is there. -/
theorem recoverJob_recovery :
    Recovery (recoverJob D inst identity payment header digest request stored) := by
  unfold recoverJob
  split
  · exact within_throw _
  · refine within_bind requireRecoverable_recovery ?_
    intro _
    refine within_bind reconcileSettling_recovery ?_
    intro reconciled
    refine within_bind reconcileRateLimit_recovery ?_
    intro counted
    refine within_bind redriveAccounting_recovery ?_
    intro _
    exact createResultAndSpawn_recovery

end createJob

/-! ## Expired creates -/

/-- A request to the facilitator, or the call that makes it. -/
def Eff.Settles : Eff → Prop
  | .post .. => True
  | .note (.settleCalled ..) => True
  | _ => False

variable {header : PyStr} {request : List (PyStr × Json)} {now : Int}

/-- A proof that has expired is verified for recovery only. -/
theorem verifyForCreate_expired {p : VerifiedPayment} {recovery : Bool}
    (hexpired : ∀ p, validatePaymentProof D.verify header (now / 1000) true = .ok p →
      p.validBefore ≤ now / 1000)
    (h : verifyForCreate D header now = some (p, recovery)) :
    recovery = true ∧ validatePaymentProof D.verify header (now / 1000) true = .ok p := by
  unfold verifyForCreate at h
  split at h
  · rename_i payment hvalid
    have hboth := validatePaymentProof_later hvalid le_rfl
    have hle := hexpired payment hboth.1
    have hrefused := hboth.2
    rw [if_neg (by omega), hvalid] at hrefused
    cases hrefused
  · split at h
    · rename_i payment hvalid
      cases h
      exact ⟨rfl, hvalid⟩
    · cases h
  · cases h

/-- Whatever recovery does, it does for a record of the payment's own key. -/
theorem recoverJob_own {identity : JobIdentity} {payment : VerifiedPayment} {digest : PyStr}
    {stored : StoredJob identity.jobId} {t : List (Σ e, Resp e)}
    {out : Except Exn CreateJobResult} {x : Σ e, Resp e}
    (h : Prog.Trace (recoverJob D inst identity payment header digest request stored) t out)
    (hx : x ∈ t) : stored.record.paymentKey = identity.paymentKey := by
  by_contra hkey
  unfold recoverJob at h
  rw [if_pos hkey] at h
  cases h
  cases hx

/-- **Expired proofs only recover.**  The two modes of validation differ by
expiry alone.  A create whose proof has expired performs nothing but recovery,
and settles only after its first read found a record of its own identity. -/
theorem expired_only_recovers (D : Deployment) (inst : Nat) (header : PyStr)
    (request : List (PyStr × Json)) :
    (∀ now p, validatePaymentProof D.verify header now false = .ok p →
      validatePaymentProof D.verify header now true = .ok p) ∧
    (∀ now p, validatePaymentProof D.verify header now true = .ok p →
      validatePaymentProof D.verify header now false =
        if now < p.validBefore then .ok p else .error .expired) ∧
    ∀ now t out,
      (∀ p, validatePaymentProof D.verify header (now / 1000) true = .ok p →
        p.validBefore ≤ now / 1000) →
      Prog.Trace (createJob D inst header request) (⟨.clock inst, now⟩ :: t) out →
      (∀ x ∈ t, x.1.Recovers) ∧
      ∀ x ∈ t, x.1.Settles → ∃ p identity stored rest,
        validatePaymentProof D.verify header (now / 1000) true = .ok p ∧
        deriveIdentity D p = some identity ∧
        t = ⟨.getJob identity.jobId, .ok (some stored)⟩ :: rest ∧
        stored.record.paymentKey = identity.paymentKey := by
  refine ⟨fun now p => (validatePaymentProof_modes D.verify header now p).1,
    fun now p => (validatePaymentProof_modes D.verify header now p).2, ?_⟩
  intro now t out hexpired htrace
  obtain ⟨r, t', ht, hrest⟩ := trace_await htrace
  obtain ⟨hclock, rfl⟩ := List.cons.inj ht
  obtain rfl : now = r := eq_of_heq (Sigma.mk.inj hclock).2
  obtain ⟨x, hx, -, -⟩ | ⟨a, ha, hrest⟩ := hrest
  · cases hx
  obtain rfl := Except.ok.inj ha
  split at hrest
  · cases hrest
    simp
  · rename_i payment expiredRecovery hverify
    obtain ⟨rfl, hvalid⟩ := verifyForCreate_expired hexpired hverify
    split at hrest
    · cases hrest
      simp
    · split at hrest
      · cases hrest
        simp
      · rename_i digest hdigest identity hidentity
        unfold readJob at hrest
        split at hrest
        · cases hrest
          simp
        · obtain ⟨reply, rest, rfl, hread⟩ := trace_await hrest
          cases hread with
          | inl hfault =>
              obtain ⟨x, -, rfl, -⟩ := hfault
              simp [Eff.Recovers, Eff.Settles]
          | inr hread =>
              obtain ⟨found, hfound, hbranch⟩ := hread
              cases found with
              | none =>
                  simp only [startJob, if_pos] at hbranch
                  cases hbranch
                  simp [Eff.Recovers, Eff.Settles]
              | some stored =>
                  obtain rfl : reply = .ok (some stored) := by
                    cases reply with
                    | error x => cases hfound
                    | ok found => rw [Except.ok.inj hfound]
                  refine ⟨List.forall_mem_cons.2 ⟨trivial,
                    recoverJob_recovery.trace hbranch⟩, ?_⟩
                  intro x hx hsettles
                  obtain rfl | hmem := List.mem_cons.1 hx
                  · cases hsettles
                  · exact ⟨payment, identity, stored, rest, hvalid, hidentity, rfl,
                      recoverJob_own hbranch hmem⟩

/-- On a store without its record, an expired proof is refused after one
read. -/
theorem createJob_unknown {p : VerifiedPayment} {digest : PyStr} {identity : JobIdentity}
    (hverify : verifyForCreate D header now = some (p, true))
    (hdigest : proofDigest D header = some digest)
    (hidentity : deriveIdentity D p = some identity)
    (hjob : isJobId identity.jobId = true) :
    Prog.Trace (createJob D inst header request)
      [⟨.clock inst, now⟩, ⟨.getJob identity.jobId, .ok none⟩]
      (.error (.job .paymentRejected false)) := by
  refine Prog.Trace.op ?_
  simp only [Prog.bind, hverify, hdigest, hidentity, readJob, hjob, Bool.not_true,
    Bool.false_eq_true, if_false]
  refine Prog.Trace.op ?_
  exact Prog.Trace.ret _

/-- The sample proof, sent in the second in which it expires, on an empty
store. -/
theorem expired_only_recovers_sample :
    ∃ (identity : JobIdentity) (out : Except Exn CreateJobResult),
      Prog.Trace (createJob sample 0 (sampleHeader sampleUrl) sampleRequest)
        [⟨.clock 0, (1700003000000 : Int)⟩, ⟨.getJob identity.jobId, .ok none⟩] out ∧
      ∀ x ∈ [(⟨.getJob identity.jobId, .ok none⟩ : Σ e, Resp e)], x.1.Recovers := by
  have hcheck : ((verifyForCreate sample (sampleHeader sampleUrl) 1700003000000).any
      fun v => v.2 && decide (v.1.validBefore = 1700003000) &&
        (deriveIdentity sample v.1).any fun i => isJobId i.jobId) = true := by
    decide +kernel
  have hdigest : (proofDigest sample (sampleHeader sampleUrl)).isSome = true := by
    decide +kernel
  obtain ⟨⟨p, recovery⟩, hverify, hp⟩ := (Option.any_eq_true _ _).1 hcheck
  simp only [Bool.and_eq_true, decide_eq_true_eq] at hp
  obtain ⟨⟨rfl, hbefore⟩, hidentity⟩ := hp
  obtain ⟨identity, hid, hjob⟩ := (Option.any_eq_true _ _).1 hidentity
  obtain ⟨digest, hdigest⟩ := Option.isSome_iff_exists.1 hdigest
  have htrace : Prog.Trace (createJob sample 0 (sampleHeader sampleUrl) sampleRequest)
      [⟨.clock 0, (1700003000000 : Int)⟩, ⟨.getJob identity.jobId, .ok none⟩]
      (.error (.job .paymentRejected false)) := createJob_unknown hverify hdigest hid hjob
  have hexpired : ∀ p', validatePaymentProof sample.verify (sampleHeader sampleUrl)
      (1700003000000 / 1000) true = .ok p' → p'.validBefore ≤ 1700003000000 / 1000 := by
    intro p' hp'
    obtain ⟨allow, hvalid⟩ := verifyForCreate_valid hverify
    rw [validatePaymentProof_unique hp' hvalid, hbefore]
    decide
  exact ⟨identity, _, htrace,
    ((expired_only_recovers sample 0 (sampleHeader sampleUrl) sampleRequest).2.2 _ _ _ hexpired
      htrace).1⟩

end X402
