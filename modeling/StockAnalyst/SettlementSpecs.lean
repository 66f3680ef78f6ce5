import StockAnalyst.WalletSpecs
import StockAnalyst.FacilitatorSpecs

/-!
# Specifications of the settlement of a job

From the claim of a settlement lease to the queue: the wallet accounting, the
pending reference, the settled and the failed write.  A process that has taken
the lease reaches the settled or failed write only through its own settlement
call or the state of the authorization on chain.
-/

namespace X402

open Python ConditionalStore Coroutine

variable {D : Deployment} {q : Nat} {w : World} {inst : Nat} {job : PyStr}
  {stored : StoredJob job}

/-- The effects of a process that holds a version and takes no lease. -/
def bookkeeping : List ActKind := [.quiet, .missed, .found, .put, .ackPut]

/-- A known record is well-formed. -/
theorem Known.ok (h : Known stored w.log) (hinv : Inv D w) : JobOk stored.record := by
  have hok := hinv.1.version_ok h
  rw [stored.agrees] at hok
  exact hok.of_reload

/-- What a process found, once it read a record or nothing. -/
theorem readJob_found :
    Ensures D q (readJob job) w (Post
      (fun found w' => Acts q bookkeeping w w' ∧
        ∀ stored, found = some stored → FoundJob q stored w'.log)
      (fun _ w' => Acts q bookkeeping w w')) := by
  refine readJob_spec.mono ?_
  rintro (x | _ | stored) w' h
  · have hsteps : Acts q [.missed] w w' := h
    exact hsteps.widen (by simp [bookkeeping])
  · have hsteps : Acts q [.missed] w w' := h
    exact ⟨hsteps.widen (by simp [bookkeeping]), by simp⟩
  · obtain ⟨hsteps, hfound⟩ : Acts q [.found] w w' ∧ FoundJob q stored w'.log := h
    refine ⟨hsteps.widen (by simp [bookkeeping]), ?_⟩
    intro stored' heq
    cases heq
    exact hfound

/-! ## Wallet accounting -/

/-- Process `q` may mark the reservation of the job committed. -/
def MayCommit (q : Nat) (job : PyStr) (log : List Entry) : Prop :=
  Absent q .ackLease log ∨ ∃ put n, Did q (.putJob put) (.done n) true log ∧
    put.job = job ∧ ∃ reference eventId settledAt lease now,
      put.write = some (.settled reference eventId settledAt lease now)

/-- Process `q` may mark the reservation of the job released. -/
def MayRelease (q : Nat) (job : PyStr) (log : List Entry) : Prop :=
  Absent q .ackLease log ∨ ∃ put n, Did q (.putJob put) (.done n) true log ∧
    put.job = job ∧ ∃ now, put.write = some (.paymentFailed now)

/-- A process that may commit a slot may do so after its bookkeeping. -/
theorem MayCommit.steps {w' : World} (h : MayCommit q job w.log)
    (hsteps : Acts q bookkeeping w w') : MayCommit q job w'.log := by
  rcases h with hfresh | ⟨put, n, hdid, hrest⟩
  · exact Or.inl (hfresh.steps hsteps (by simp [bookkeeping]))
  · exact Or.inr ⟨put, n, hdid.mono hsteps.suffix, hrest⟩

/-- A process that may release a slot may do so after its bookkeeping. -/
theorem MayRelease.steps {w' : World} (h : MayRelease q job w.log)
    (hsteps : Acts q bookkeeping w w') : MayRelease q job w'.log := by
  rcases h with hfresh | ⟨put, n, hdid, hrest⟩
  · exact Or.inl (hfresh.steps hsteps (by simp [bookkeeping]))
  · exact Or.inr ⟨put, n, hdid.mono hsteps.suffix, hrest⟩

/-- A record with a reservation that waits for the wallet object. -/
theorem Known.decides (h : Known stored w.log) {status : PaymentStatus}
    {reservation : WalletRateReservation}
    (hstatus : stored.record.paymentStatus = status)
    (hid : reservation.reservationId = stored.record.jobId)
    (hwallet : stored.record.rateLimitWalletDigest = some reservation.walletDigest)
    (hat : stored.record.rateLimitReservedAt = some reservation.reservedAt) :
    Decides status reservation w.log := by
  refine ⟨stored.tag, ?_, ?_, ?_, ?_⟩
  · rw [hid, stored.ident]
    exact h
  · rw [stored.agrees]
    exact hstatus
  · rw [stored.agrees]
    exact hwallet
  · rw [stored.agrees]
    exact hat

/-- Quiet effects are bookkeeping. -/
theorem Ensures.book {α : Type} {p : Co α}
    (h : Ensures D q p w (Post (fun _ w' => Acts q [.quiet] w w')
      (fun _ w' => Acts q [.quiet] w w'))) :
    Ensures D q p w (Post (fun _ w' => Acts q bookkeeping w w')
      (fun _ w' => Acts q bookkeeping w w')) := by
  refine h.mono ?_
  rintro (x | a) w' hsteps
  · exact Steps.widen (L := [.quiet]) hsteps (by simp [bookkeeping])
  · exact Steps.widen (L := [.quiet]) hsteps (by simp [bookkeeping])

/-- The committed slot is noted in the settled record. -/
theorem finalizeRateCommit_spec (hknown : Known stored w.log)
    (hours : Ours D q job stored.tag w.log)
    (hpaid : stored.record.paymentStatus = .settled)
    (hstatus : stored.record.status = .settling)
    (hmay : MayCommit q job w.log) :
    Ensures D q (finalizeRateCommit D inst stored) w (Post
      (fun new w' => Acts q bookkeeping w w' ∧ Known new w'.log ∧
        new.record.paymentStatus = .settled ∧ new.record.status = .queued)
      (fun _ w' => Acts q bookkeeping w w')) := by
  refine Ensures.bind clock_spec ?_ (fun _ _ hfalse => hfalse.elim)
  rintro now w₁ ⟨hsteps, -⟩
  have hsteps : Acts q bookkeeping w w₁ := hsteps.widen (by simp [bookkeeping])
  refine Ensures.attempt (replace_spec (hknown.mono hsteps.suffix) ⟨hpaid, hstatus⟩
    ⟨hours.mono hsteps.suffix, hmay.steps hsteps⟩) ?_
  rintro (x | new) w₂ h
  · have hsteps₂ : Acts q bookkeeping w w₂ :=
      hsteps.trans (Steps.widen h (by simp [bookkeeping, JobWrite.tried]))
    cases x
    case jobConflict =>
      refine Ensures.bind readJob_found ?_ (fun _ _ h => hsteps₂.trans h)
      rintro (_ | latest) w₃ ⟨hsteps₃, hfound⟩
      · exact Ensures.throw (hsteps₂.trans hsteps₃)
      · dsimp only
        split
        · rename_i hlatest
          exact Ensures.pure ⟨hsteps₂.trans hsteps₃, (hfound latest rfl).known,
            hlatest.2.1, hlatest.2.2.1⟩
        · exact Ensures.throw (hsteps₂.trans hsteps₃)
    all_goals exact Ensures.throw hsteps₂
  · obtain ⟨hsteps₂, hnew⟩ := h
    refine Ensures.pure ⟨hsteps.trans
      (hsteps₂.widen (by simp [bookkeeping, JobWrite.tried, JobWrite.acked])),
      hnew.known, ?_, ?_⟩
    · rw [hnew.record]
      exact hpaid
    · rw [hnew.record]
      rfl

/-- **A settled record commits its slot.** -/
theorem commitRateLimit_spec (hinv : Inv D w) (hknown : Known stored w.log)
    (hours : Ours D q job stored.tag w.log)
    (hpaid : stored.record.paymentStatus = .settled)
    (hstatus : stored.record.status = .settling)
    (hmay : MayCommit q job w.log) :
    Ensures D q (commitRateLimit D inst stored) w (Post
      (fun new w' => Acts q bookkeeping w w' ∧ Known new w'.log ∧
        new.record.paymentStatus = .settled ∧ new.record.status = .queued)
      (fun _ w' => Acts q bookkeeping w w')) := by
  obtain ⟨reservation, hres, hid, hwallet, hat⟩ := (hknown.ok hinv).rateReservation
  unfold commitRateLimit
  rw [hres, Async.ofExcept_ok_bind]
  refine Ensures.bind (commit_spec (hknown.decides hpaid hid hwallet hat)).book ?_
    (fun _ _ h => h)
  intro _ w₁ hsteps
  refine (finalizeRateCommit_spec (hknown.mono hsteps.suffix)
    (hours.mono hsteps.suffix) hpaid hstatus
    (hmay.steps hsteps)).mono ?_
  rintro (x | new) w₂ h
  · exact hsteps.trans h
  · exact ⟨hsteps.trans h.1, h.2⟩

/-- The released slot is noted in the failed record. -/
theorem markRateReleased_spec (hknown : Known stored w.log)
    (hours : Ours D q job stored.tag w.log)
    (hfailed : stored.record.paymentStatus = .failed)
    (hreserved : stored.record.rateLimitState = some .reserved)
    (hmay : MayRelease q job w.log) :
    Ensures D q (markRateReleased D inst stored) w (Post
      (fun new w' => Acts q bookkeeping w w' ∧ Known new w'.log)
      (fun _ w' => Acts q bookkeeping w w')) := by
  unfold markRateReleased
  split
  · exact Ensures.pure ⟨Steps.refl w, hknown⟩
  · refine Ensures.bind clock_spec ?_ (fun _ _ hfalse => hfalse.elim)
    rintro now w₁ ⟨hsteps, -⟩
    have hsteps : Acts q bookkeeping w w₁ := hsteps.widen (by simp [bookkeeping])
    refine Ensures.attempt (replace_spec (hknown.mono hsteps.suffix)
      ⟨hfailed, hreserved⟩ ⟨hours.mono hsteps.suffix, hmay.steps hsteps⟩) ?_
    rintro (x | new) w₂ h
    · have hsteps₂ : Acts q bookkeeping w w₂ :=
        hsteps.trans (Steps.widen h (by simp [bookkeeping, JobWrite.tried]))
      cases x
      case jobConflict =>
        refine Ensures.bind readJob_found ?_ (fun _ _ h => hsteps₂.trans h)
        rintro (_ | latest) w₃ ⟨hsteps₃, hfound⟩
        · exact Ensures.throw (hsteps₂.trans hsteps₃)
        · dsimp only
          split
          · exact Ensures.pure ⟨hsteps₂.trans hsteps₃, (hfound latest rfl).known⟩
          · exact Ensures.throw (hsteps₂.trans hsteps₃)
      all_goals exact Ensures.throw hsteps₂
    · obtain ⟨hsteps₂, hnew⟩ := h
      exact Ensures.pure ⟨hsteps.trans
        (hsteps₂.widen (by simp [bookkeeping, JobWrite.tried, JobWrite.acked])),
        hnew.known⟩

/-- **A failed record releases its slot.** -/
theorem releaseAfterRejection_spec (hinv : Inv D w) (hknown : Known stored w.log)
    (hours : Ours D q job stored.tag w.log)
    (hfailed : stored.record.paymentStatus = .failed)
    (hreserved : stored.record.rateLimitState = some .reserved)
    (hmay : MayRelease q job w.log) :
    Ensures D q (releaseAfterRejection D inst stored) w (Post
      (fun _ w' => Acts q bookkeeping w w') (fun _ w' => Acts q bookkeeping w w')) := by
  obtain ⟨reservation, hres, hid, hwallet, hat⟩ := (hknown.ok hinv).rateReservation
  refine Ensures.attempt (P := Post (fun _ w' => Acts q bookkeeping w w')
      (fun _ w' => Acts q bookkeeping w w')) ?_ ?_
  · unfold releaseRateLimit
    rw [hres, Async.ofExcept_ok_bind]
    refine Ensures.bind (release_spec (hknown.decides hfailed hid hwallet hat)).book ?_
      (fun _ _ h => h)
    intro _ w₁ hsteps
    refine (markRateReleased_spec (hknown.mono hsteps.suffix)
      (hours.mono hsteps.suffix) hfailed hreserved
      (hmay.steps hsteps)).mono ?_
    rintro (x | new) w₂ h
    · exact hsteps.trans h
    · exact hsteps.trans h.1
  · rintro (x | new) w₁ h
    · cases x <;> exact Ensures.throw h
    · exact Ensures.pure h

/-- `_reconcile_rate_limit`: a paid record reaches the queue, a refused one
loses its reservation. -/
theorem reconcileRateLimit_spec (hinv : Inv D w) (hknown : Known stored w.log)
    (hours : Ours D q job stored.tag w.log)
    (hmay : Absent q .ackLease w.log ∨ (stored.record.paymentStatus = .settled ∧
      stored.record.status = .queued)) :
    Ensures D q (reconcileRateLimit D inst stored) w (Post
      (fun _ w' => Acts q bookkeeping w w')
      (fun _ w' => Acts q bookkeeping w w')) := by
  have hok := hknown.ok hinv
  obtain ⟨reservation, hres, hid, hwallet, hat⟩ := hok.rateReservation
  unfold reconcileRateLimit
  rw [hres, Async.ofExcept_ok_bind]
  have hcommit : stored.record.paymentStatus = .settled →
      stored.record.rateLimitState = some .reserved →
      Ensures D q (do
        commit D inst reservation
        finalizeRateCommit D inst stored) w (Post
          (fun _ w' => Acts q bookkeeping w w')
          (fun _ w' => Acts q bookkeeping w w')) := by
    intro hpaid hstate
    -- A reserved record is not yet in the queue, so the lease is not ours.
    have hstatus : stored.record.status = .settling := by
      rcases hok.uncommitted hstate with hs | hp
      · exact hs
      · simp [hpaid] at hp
    have hfresh : Absent q .ackLease w.log := by
      rcases hmay with hfresh | ⟨-, hqueued⟩
      · exact hfresh
      · simp [hstatus] at hqueued
    refine Ensures.bind (commit_spec (hknown.decides hpaid hid hwallet hat)).book ?_
      (fun _ _ h => h)
    intro _ w₁ hsteps
    refine (finalizeRateCommit_spec (hknown.mono hsteps.suffix)
      (hours.mono hsteps.suffix) hpaid hstatus
      (MayCommit.steps (Or.inl hfresh) hsteps)).mono ?_
    rintro (x | new) w₂ h
    · exact hsteps.trans h
    · exact hsteps.trans h.1
  have hrelease : stored.record.paymentStatus = .failed →
      stored.record.rateLimitState = some .reserved →
      Ensures D q (do
        release D inst reservation
        markRateReleased D inst stored) w (Post
          (fun _ w' => Acts q bookkeeping w w')
          (fun _ w' => Acts q bookkeeping w w')) := by
    intro hfailed hstate
    have hfresh : Absent q .ackLease w.log := by
      rcases hmay with hfresh | ⟨hpaid, -⟩
      · exact hfresh
      · simp [hfailed] at hpaid
    refine Ensures.bind (release_spec (hknown.decides hfailed hid hwallet hat)).book ?_
      (fun _ _ h => h)
    intro _ w₁ hsteps
    refine (markRateReleased_spec (hknown.mono hsteps.suffix)
      (hours.mono hsteps.suffix) hfailed hstate
      (MayRelease.steps (Or.inl hfresh) hsteps)).mono ?_
    rintro (x | new) w₂ h
    · exact hsteps.trans h
    · exact hsteps.trans h.1
  have hrefl : Acts q bookkeeping w w := Steps.refl w
  rcases hp : stored.record.paymentStatus with _ | _ | _ <;>
    rcases hs : stored.record.rateLimitState with _ | _ | _ | _
  case settled.some.reserved => exact hcommit hp hs
  case failed.some.reserved => exact hrelease hp hs
  case settled.some.committed =>
    have hstatus : stored.record.status ≠ .settling := by
      rcases hok.rateState with h | ⟨-, -, h⟩ | ⟨h, -⟩
      · simp [hs] at h
      · exact h
      · simp [hs] at h
    simp only
    rw [if_neg hstatus]
    exact Ensures.pure hrefl
  case failed.some.released => exact Ensures.pure hrefl
  case settling.some.reserved => exact Ensures.pure hrefl
  all_goals exact Ensures.throw hrefl

/-! ## The settlement of a leased record -/

/-- The effects of a settlement and its accounting. -/
def settlement : List ActKind := .settle :: .moment :: bookkeeping

/-- The effects of a call of `create_job` that finds a record. -/
def recovery : List ActKind := .lease :: .ackLease :: settlement

/-- Bookkeeping is a part of a settlement. -/
theorem Acts.of_book {w' : World} (h : Acts q bookkeeping w w') :
    Acts q settlement w w' :=
  h.widen (by simp [settlement])

/-- A settlement is a part of a recovery. -/
theorem Acts.of_settlement {w' : World} (h : Acts q settlement w w') :
    Acts q recovery w w' :=
  h.widen (by simp [recovery])

variable {c : CreateCall}

/-- Process `q` holds the settlement lease of the job of its call. -/
structure Holds (D : Deployment) (c : CreateCall) (q : Nat)
    (stored : StoredJob c.identity.jobId) (log : List Entry) : Prop where
  of : c.Of D q log
  known : Known stored log
  leased : Leased q c.identity.jobId stored.tag log
  bound : Bound D c stored.tag.content
  settling : JobWrite.Settling stored.record

/-- What a call holds it held for good. -/
theorem Holds.mono {stored : StoredJob c.identity.jobId} {log log' : List Entry}
    (h : Holds D c q stored log) (hsuf : log <:+ log') : Holds D c q stored log' where
  of := h.of.mono hsuf
  known := h.known.mono hsuf
  leased := h.leased.mono hsuf
  bound := h.bound
  settling := h.settling

/-- Reading the clock is bookkeeping. -/
theorem clock_book :
    Ensures D q (clock inst) w (Post
      (fun now w' => Acts q bookkeeping w w' ∧ Clocked q inst now w'.log)
      (fun _ _ => False)) := by
  refine clock_spec.mono ?_
  rintro (x | now) w' h
  · exact h
  · obtain ⟨hsteps, hclock⟩ : Acts q [.quiet] w w' ∧ Clocked q inst now w'.log := h
    exact ⟨hsteps.widen (by simp [bookkeeping]), hclock⟩

/-- A transition that takes no lease. -/
theorem replace_book {t : JobWrite} (hknown : Known stored w.log)
    (hguard : t.Guard stored.record) (hcause : Cause D q w.log job stored.tag t)
    (ht : t.tried = .put ∧ t.acked = .ackPut) :
    Ensures D q (replace D stored t) w (Post
      (fun new w' => Acts q bookkeeping w w' ∧ Replaced q stored t new w'.log)
      (fun _ w' => Acts q bookkeeping w w')) := by
  refine (replace_spec hknown hguard hcause).mono ?_
  rintro (x | new) w' h
  · have hsteps : Acts q [t.tried] w w' := h
    rw [ht.1] at hsteps
    exact hsteps.widen (by simp [bookkeeping])
  · obtain ⟨hsteps, hnew⟩ :
      Acts q [t.tried, t.acked] w w' ∧ Replaced q stored t new w'.log := h
    rw [ht.1, ht.2] at hsteps
    exact ⟨hsteps.widen (by simp [bookkeeping]), hnew⟩

/-- The version to try next is an unsettled one of the same job. -/
theorem rereadPending_spec {job : PyStr} {stored candidate : StoredJob job}
    {reference : PyStr} {remaining : Nat}
    {again : StoredJob job → Co (StoredJob job)} (hinv : Inv D w)
    (hknown : Known candidate w.log) (hsettling : JobWrite.Settling candidate.record)
    (hagain : ∀ w' (next : StoredJob job), Inv D w' → Acts q bookkeeping w w' →
      Known next w'.log → JobWrite.Settling next.record →
      Ensures D q (again next) w' (Post (fun _ w'' => Acts q bookkeeping w' w'')
        (fun _ w'' => Acts q bookkeeping w' w''))) :
    Ensures D q (rereadPending reference stored candidate remaining again) w
      (Post (fun _ w' => Acts q bookkeeping w w')
        (fun _ w' => Acts q bookkeeping w w')) := by
  have hnext : ∀ w' (next : StoredJob job), Inv D w' → Acts q bookkeeping w w' →
      Known next w'.log → JobWrite.Settling next.record →
      Ensures D q (again next) w' (Post (fun _ w'' => Acts q bookkeeping w w'')
        (fun _ w'' => Acts q bookkeeping w w'')) := by
    intro w' next hinv' hsteps hnext hsettling'
    refine (hagain w' next hinv' hsteps hnext hsettling').mono ?_
    rintro (x | new) w'' h
    · exact Steps.trans hsteps h
    · exact Steps.trans hsteps h
  refine Ensures.attempt_inv hinv readJob_found ?_
  rintro (x | _ | latest) w₁ h hinv₁
  · have hsteps : Acts q bookkeeping w w₁ := h
    cases x
    case cancelled => exact Ensures.throw hsteps
    all_goals
      dsimp only
      split
      · exact Ensures.throw hsteps
      · exact hnext w₁ _ hinv₁ hsteps (hknown.mono hsteps.suffix) hsettling
  · exact Ensures.throw h.1
  · obtain ⟨hsteps, hfound⟩ := h
    dsimp only
    split
    · exact Ensures.throw hsteps
    · rename_i hsame
      simp only [not_or, ne_eq, not_not] at hsame
      split
      · exact hnext w₁ _ hinv₁ hsteps (hfound latest rfl).known
          ⟨hsame.2.2.1, hsame.2.2.2.1⟩
      · split
        · exact Ensures.pure hsteps
        · exact Ensures.throw hsteps

/-- `_mark_settlement_pending`: each try builds on an unsettled version of the
job. -/
theorem markPendingLoop_spec {stored candidate : StoredJob c.identity.jobId}
    {reference : PyStr} (remaining : Nat) (hinv : Inv D w) (hof : c.Of D q w.log)
    (hvalid : isValidSettlementReference reference = true)
    (hret : SettleReturned c q (.pending reference) w.log)
    (hjob : BoundJob D c w.log) (hknown : Known candidate w.log)
    (hsettling : JobWrite.Settling candidate.record) :
    Ensures D q (markPendingLoop D inst reference stored remaining candidate) w
      (Post (fun _ w' => Acts q bookkeeping w w')
        (fun _ w' => Acts q bookkeeping w w')) := by
  induction remaining generalizing w candidate with
  | zero => exact Ensures.throw (Steps.refl w)
  | succ remaining ih =>
      unfold markPendingLoop
      refine Ensures.bind_inv hinv clock_book ?_ (fun _ _ hfalse _ => hfalse.elim)
      rintro now w₁ ⟨hsteps, -⟩ hinv₁
      have hsuf := hsteps.suffix
      have hknown₁ := hknown.mono hsuf
      have hcause : Cause D q w₁.log c.identity.jobId candidate.tag
          (.pending reference now) :=
        ⟨c, hof.mono hsuf, rfl, (hjob.mono hsuf).all hinv₁.1 hknown₁,
          Did.mono hret hsuf⟩
      refine Ensures.attempt_inv hinv₁ (replace_book hknown₁ ⟨hsettling, hvalid⟩
        hcause ⟨rfl, rfl⟩) ?_
      rintro (x | new) w₂ h hinv₂
      · have hsteps₂ : Acts q bookkeeping w w₂ := hsteps.trans h
        have hsuf₂ := hsteps₂.suffix
        have hread : Ensures D q (rereadPending reference stored candidate remaining
            (markPendingLoop D inst reference stored remaining)) w₂ (Post
              (fun _ w' => Acts q bookkeeping w w')
              (fun _ w' => Acts q bookkeeping w w')) := by
          refine (rereadPending_spec hinv₂ (hknown.mono hsuf₂) hsettling ?_).mono ?_
          · intro w₃ next hinv₃ hsteps₃ hnext hsettling₃
            have hsuf₃ := hsuf₂.trans hsteps₃.suffix
            exact ih hinv₃ (hof.mono hsuf₃) (Did.mono hret hsuf₃)
              (hjob.mono hsuf₃) hnext hsettling₃
          · rintro (x | new) w₃ h₃
            · exact Steps.trans hsteps₂ h₃
            · exact Steps.trans hsteps₂ h₃
        cases x
        case cancelled => exact Ensures.throw hsteps₂
        all_goals exact hread
      · exact Ensures.pure (hsteps.trans h.1)

/-- **A pending reference is marked** by the call whose settlement returned
it. -/
theorem markSettlementPending_spec {stored : StoredJob c.identity.jobId}
    {reference : PyStr} (hinv : Inv D w) (h : Holds D c q stored w.log)
    (hret : SettleReturned c q (.pending reference) w.log) :
    Ensures D q (markSettlementPending D inst stored reference) w (Post
      (fun _ w' => Acts q bookkeeping w w')
      (fun _ w' => Acts q bookkeeping w w')) := by
  unfold markSettlementPending
  split
  · exact Ensures.throw (Steps.refl w)
  · rename_i hvalid
    exact markPendingLoop_spec _ hinv h.of (by simpa using hvalid) hret
      ⟨_, h.known, h.bound⟩ h.known h.settling

/-- Why process `q` may write that its payment was settled. -/
def Paid (c : CreateCall) (q : Nat) (reference : Option PyStr) (log : List Entry) :
    Prop :=
  (∃ ref, reference = some ref ∧ SettleReturned c q (.settled ref) log) ∨
    (reference = none ∧ c.payment.transferMethod = .eip3009 ∧
      Did q (.authorizationState (authKey c.payment)) (.ok true) false log)

/-- What was paid was paid for good. -/
theorem Paid.mono {reference : Option PyStr} {log log' : List Entry}
    (h : Paid c q reference log) (hsuf : log <:+ log') :
    Paid c q reference log' := by
  rcases h with ⟨ref, href, hret⟩ | ⟨hnone, hmethod, hauth⟩
  · exact Or.inl ⟨ref, href, Did.mono hret hsuf⟩
  · exact Or.inr ⟨hnone, hmethod, hauth.mono hsuf⟩

/-- A record that waits in the queue, paid. -/
def InQueue (r : JobRecord) : Prop :=
  r.paymentStatus = .settled ∧ r.status = .queued

/-- The time of a settlement is the record's or the clock's. -/
theorem settlementTime_spec {r : JobRecord} :
    Ensures D q (settlementTime inst r) w (Post
      (fun settledAt w' => Acts q bookkeeping w w' ∧
        (r.settledAt = some settledAt ∨ Clocked q inst settledAt w'.log))
      (fun _ _ => False)) := by
  unfold settlementTime
  split
  · rename_i t hfilter
    exact Ensures.pure ⟨Steps.refl w, Or.inl (Option.filter_eq_some_iff.1 hfilter).1⟩
  · refine clock_book.mono ?_
    rintro (x | now) w' h
    · exact h
    · exact ⟨h.1, Or.inr h.2⟩

/-- `_mark_settled`. -/
theorem markSettled_spec {stored : StoredJob c.identity.jobId}
    {reference : Option PyStr} {allow : Bool} (hinv : Inv D w)
    (h : Holds D c q stored w.log) (hpaid : Paid c q reference w.log) :
    Ensures D q (markSettled D c.inst stored c.payment reference allow) w (Post
      (fun new w' => Acts q bookkeeping w w' ∧ Known new w'.log ∧
        InQueue new.record)
      (fun _ w' => Acts q bookkeeping w w')) := by
  obtain ⟨reservation, hres, -⟩ := (h.known.ok hinv).rateReservation
  unfold markSettled
  split
  · exact Ensures.throw (Steps.refl w)
  · rename_i hallow
    refine Ensures.bind_inv hinv settlementTime_spec ?_
      (fun _ _ hfalse _ => hfalse.elim)
    rintro settledAt w₁ ⟨hsteps, htime⟩ hinv₁
    rw [hres, Async.ofExcept_ok_bind]
    cases hevent : competitionEventId D c.payment with
    | none => exact Ensures.throw hsteps
    | some eventId =>
        refine Ensures.bind_inv hinv₁ clock_book ?_
          (fun _ _ hfalse _ => hfalse.elim)
        rintro leaseStart w₂ ⟨hsteps₂, -⟩ hinv₂
        refine Ensures.bind_inv hinv₂ clock_book ?_
          (fun _ _ hfalse _ => hfalse.elim)
        rintro now w₃ ⟨hsteps₃', -⟩ hinv₃
        have hsteps₃ : Acts q bookkeeping w w₃ :=
          (hsteps.trans hsteps₂).trans hsteps₃'
        have h₃ := h.mono hsteps₃.suffix
        have htime₃ : stored.tag.content.settledAt = some settledAt ∨
            Clocked q c.inst settledAt w₃.log := by
          rw [stored.agrees]
          exact htime.imp_right fun hclock =>
            Did.mono hclock (hsteps₂.trans hsteps₃').suffix
        have hvalid : ∀ ref, reference = some ref →
            isValidSettlementReference ref = true := by
          rintro ref rfl
          simpa using hallow
        refine Ensures.bind_inv hinv₃ (replace_book h₃.known
          ⟨h.settling, rfl, hvalid⟩
          ⟨h₃.leased, c, h₃.of, rfl, h.bound, hevent, htime₃,
            hpaid.mono hsteps₃.suffix⟩
          ⟨rfl, rfl⟩) ?_ (fun _ _ h _ => hsteps₃.trans h)
        rintro persisted w₄ ⟨hsteps₄, hnew⟩ hinv₄
        obtain ⟨put, hjob, hwrite, -, hdid⟩ := hnew.did
        have hours : Ours D q c.identity.jobId persisted.tag w₄.log := by
          refine ⟨c, h₃.of.mono hsteps₄.suffix, rfl, ?_⟩
          rw [hnew.content]
          exact h.bound.sameJob (JobWrite.apply_sameJob _ _)
        have hsteps₄ : Acts q bookkeeping w w₄ := hsteps₃.trans hsteps₄
        refine (commitRateLimit_spec hinv₄ hnew.known hours ?_ ?_
          (Or.inr ⟨put, _, hdid, hjob, _, _, _, _, _, hwrite⟩)).mono ?_
        · rw [hnew.record]
          rfl
        · rw [hnew.record]
          rfl
        · rintro (x | new) w₅ h₅
          · exact hsteps₄.trans h₅
          · exact ⟨hsteps₄.trans h₅.1, h₅.2.1, h₅.2.2⟩

/-- Why process `q` may write that its payment failed. -/
def Unpaid (c : CreateCall) (q : Nat) (log : List Entry) : Prop :=
  SettleReturned c q .rejected log ∨
    (c.payment.transferMethod = .eip3009 ∧
      Did q (.authorizationState (authKey c.payment)) (.ok false) false log ∧
      ∃ now, Clocked q c.inst now log ∧ c.payment.validBefore ≤ now / 1000)

/-- What was refused was refused for good. -/
theorem Unpaid.mono {log log' : List Entry} (h : Unpaid c q log)
    (hsuf : log <:+ log') : Unpaid c q log' := by
  rcases h with hret | ⟨hmethod, hauth, now, hclock, hexpired⟩
  · exact Or.inl (Did.mono hret hsuf)
  · exact Or.inr ⟨hmethod, hauth.mono hsuf, now, Did.mono hclock hsuf, hexpired⟩

/-- `_fail_settlement` and the release that follows it. -/
theorem failAndRelease_spec {stored : StoredJob c.identity.jobId} {α : Type} {x : Exn}
    (hinv : Inv D w) (h : Holds D c q stored w.log) (hunpaid : Unpaid c q w.log) :
    Ensures D q (do
      let failed ← failSettlement D inst stored
      releaseAfterRejection D inst failed
      (Async.throw x : Co α)) w (Post (fun _ _ => False)
        (fun _ w' => Acts q bookkeeping w w')) := by
  have hreserved := (h.known.ok hinv).settling_reserved h.settling.2
  have hfail : Ensures D q (failSettlement D inst stored) w (Post
      (fun failed w' => Acts q bookkeeping w w' ∧ ∃ now,
        Replaced q stored (.paymentFailed now) failed w'.log)
      (fun _ w' => Acts q bookkeeping w w')) := by
    refine Ensures.bind clock_book ?_ (fun _ _ hfalse => hfalse.elim)
    rintro now w₁ ⟨hsteps, -⟩
    have h₁ := h.mono hsteps.suffix
    refine (replace_book (t := .paymentFailed now) h₁.known h.settling
      ⟨h₁.leased, c, h₁.of, rfl, h.bound, hunpaid.mono hsteps.suffix⟩
      ⟨rfl, rfl⟩).mono ?_
    rintro (x | failed) w₂ h₂
    · exact hsteps.trans h₂
    · exact ⟨hsteps.trans h₂.1, now, h₂.2⟩
  refine Ensures.bind_inv hinv hfail ?_ (fun _ _ h _ => h)
  rintro failed w₁ ⟨hsteps, now, hnew⟩ hinv₁
  obtain ⟨put, hjob, hwrite, -, hdid⟩ := hnew.did
  have hours : Ours D q c.identity.jobId failed.tag w₁.log := by
    refine ⟨c, h.of.mono hsteps.suffix, rfl, ?_⟩
    rw [hnew.content]
    exact h.bound.sameJob (JobWrite.apply_sameJob _ _)
  refine Ensures.bind (releaseAfterRejection_spec hinv₁ hnew.known hours ?_ ?_
    (Or.inr ⟨put, _, hdid, hjob, now, hwrite⟩)) ?_ (fun _ _ h => hsteps.trans h)
  · rw [hnew.record]
    rfl
  · rw [hnew.record]
    exact hreserved
  · intro _ w₂ hsteps₂
    exact Ensures.throw (hsteps.trans hsteps₂)

/-- The settlement call of a lease holder. -/
theorem observedSettle_spec {stored : StoredJob c.identity.jobId}
    {mode : SettlementMode} (h : Holds D c q stored w.log)
    (hfresh : Unspent q w.log) :
    Ensures D q (observedSettle D c.inst c.identity.jobId c.header mode) w (Post
      (fun outcome w' => Acts q settlement w w' ∧ SettleReturned c q outcome w'.log)
      (fun _ w' => Acts q settlement w w')) := by
  obtain ⟨p, hp, -⟩ := h.of.parts
  refine Ensures.bind (note_spec (k := .settle) rfl ?_) ?_
    (fun _ _ hfalse => hfalse.elim)
  · intro w₁ hext _
    have h₁ := h.mono hext.suffix
    have hagree : stored.tag.content.status = stored.record.status ∧
        stored.tag.content.paymentStatus = stored.record.paymentStatus := by
      rw [stored.agrees]
      exact ⟨rfl, rfl⟩
    refine ⟨hfresh.steps (L := []) (hext.mono fun _ _ hfalse => hfalse.elim)
      (by simp), c, h₁.of, rfl, rfl, stored.tag, h₁.leased, h.bound, ?_, ?_⟩
    · rw [hagree.1]
      exact h.settling.1
    · rw [hagree.2]
      exact h.settling.2
  · rintro - w₁ ⟨hsteps, hcalled⟩
    have hsteps : Acts q settlement w w₁ := hsteps.widen (by simp [settlement])
    refine Ensures.attempt (settlePayment_spec hp) ?_
    intro outcome w₂ hwhat
    have hsteps₂ : Acts q settlement w₁ w₂ := by
      rcases outcome with x | o
      · exact Steps.widen (L := [.quiet]) hwhat (by simp [settlement, bookkeeping])
      · exact Steps.widen (L := [.quiet]) hwhat.1
          (by simp [settlement, bookkeeping])
    have hsteps₂ := hsteps.trans hsteps₂
    refine Ensures.bind (note_spec (k := .moment) rfl ?_) ?_
      (fun _ _ hfalse => hfalse.elim)
    · intro w₃ hext _
      refine ⟨c, (h.mono (hsteps₂.suffix.trans hext.suffix)).of, rfl, rfl,
        ⟨mode, hcalled.mono ?_⟩, ?_⟩
      · obtain ⟨new, hnew⟩ := hsteps₂.suffix
        rcases outcome with x | o
        · exact (Steps.suffix (K := Only [.quiet]) hwhat).trans hext.suffix
        · exact (Steps.suffix (K := Only [.quiet]) hwhat.1).trans hext.suffix
      · rintro o rfl
        exact hwhat.2.mono hext.suffix
    · rintro - w₃ ⟨hsteps₃, hret⟩
      have hsteps₃ := hsteps₂.trans
        (hsteps₃.widen (by simp [settlement]) : Acts q settlement w₂ w₃)
      rcases outcome with x | o
      · exact Ensures.throw hsteps₃
      · exact Ensures.pure ⟨hsteps₃, hret⟩

/-- `_settle_and_transition`. -/
theorem settleAndTransition_spec {stored : StoredJob c.identity.jobId}
    {mode : SettlementMode} (hinv : Inv D w) (h : Holds D c q stored w.log)
    (hfresh : Unspent q w.log) :
    Ensures D q (settleAndTransition D c.inst stored c.payment c.header mode) w
      (Post (fun new w' => Acts q settlement w w' ∧ Known new w'.log ∧
          InQueue new.record)
        (fun _ w' => Acts q settlement w w')) := by
  refine Ensures.bind_inv hinv (observedSettle_spec h hfresh) ?_ (fun _ _ h _ => h)
  rintro outcome w₁ ⟨hsteps, hret⟩ hinv₁
  have h₁ := h.mono hsteps.suffix
  cases outcome with
  | pending reference =>
      refine Ensures.bind (markSettlementPending_spec hinv₁ h₁ hret) ?_
        (fun _ _ h => hsteps.trans (Acts.of_book h))
      intro _ w₂ hsteps₂
      exact Ensures.throw (hsteps.trans (Acts.of_book hsteps₂))
  | rejected =>
      refine (failAndRelease_spec hinv₁ h₁ (Or.inl hret)).mono ?_
      rintro (x | new) w₂ h₂
      · exact hsteps.trans (Acts.of_book h₂)
      · exact h₂.elim
  | settled reference =>
      refine (markSettled_spec hinv₁ h₁ (Or.inl ⟨reference, rfl, hret⟩)).mono ?_
      rintro (x | new) w₂ h₂
      · exact hsteps.trans (Acts.of_book h₂)
      · exact ⟨hsteps.trans (Acts.of_book h₂.1), h₂.2⟩

/-- The settlement of a fresh claim: by the chain where it knows the answer,
by the facilitator otherwise. -/
theorem settleClaimed_spec {stored : StoredJob c.identity.jobId} {now : Int}
    (hinv : Inv D w) (h : Holds D c q stored w.log)
    (hfresh : Unspent q w.log) (hclock : Clocked q c.inst now w.log) :
    Ensures D q (settleClaimed D c.inst stored c.payment c.header now) w
      (Post (fun new w' => Acts q settlement w w' ∧ Known new w'.log ∧
          InQueue new.record)
        (fun _ w' => Acts q settlement w w')) := by
  unfold settleClaimed
  split
  · rename_i hmethod
    refine Ensures.bind_inv hinv authorizationUsed_spec ?_
      (fun _ _ h _ => Steps.widen (L := [.quiet]) h
        (by simp [settlement, bookkeeping]))
    rintro used w₁ ⟨hsteps, hauth⟩ hinv₁
    have hfresh₁ := hfresh.steps (L := [.quiet]) hsteps (by simp)
    have hsteps : Acts q settlement w w₁ :=
      hsteps.widen (by simp [settlement, bookkeeping])
    have h₁ := h.mono hsteps.suffix
    cases used with
    | true =>
        rw [if_pos rfl]
        refine (markSettled_spec hinv₁ h₁ (Or.inr ⟨rfl, hmethod, hauth⟩)).mono ?_
        rintro (x | new) w₂ h₂
        · exact hsteps.trans (Acts.of_book h₂)
        · exact ⟨hsteps.trans (Acts.of_book h₂.1), h₂.2⟩
    | false =>
        rw [if_neg (by simp)]
        split
        · rename_i hexpired
          refine (failAndRelease_spec hinv₁ h₁ (Or.inr ⟨hmethod, hauth, now,
            Did.mono hclock hsteps.suffix, hexpired⟩)).mono ?_
          rintro (x | new) w₂ h₂
          · exact hsteps.trans (Acts.of_book h₂)
          · exact h₂.elim
        · refine (settleAndTransition_spec hinv₁ h₁ hfresh₁).mono ?_
          rintro (x | new) w₂ h₂
          · exact hsteps.trans h₂
          · exact ⟨hsteps.trans h₂.1, h₂.2⟩
  · exact settleAndTransition_spec hinv h hfresh

/-- An acknowledged claim makes its process the lease holder. -/
theorem Holds.of_claim {stored claimed : StoredJob c.identity.jobId} {now : Int}
    {log : List Entry} (hof : c.Of D q log) (hbound : Bound D c stored.tag.content)
    (hsettling : JobWrite.Settling stored.record)
    (hnew : Replaced q stored (.claimed (D.service c.inst).owner now) claimed log) :
    Holds D c q claimed log where
  of := hof
  known := hnew.known
  leased := by
    obtain ⟨put, hjob, hwrite, hcontent, hdid⟩ := hnew.did
    refine ⟨put, hjob, ?_, hdid, hcontent⟩
    simp [JobPut.takesLease, hwrite]
  bound := by
    rw [hnew.content]
    exact hbound.sameJob (JobWrite.apply_sameJob _ _)
  settling := by
    rw [hnew.record]
    exact hsettling

/-- `_reconcile_settling`: the record comes back as it was found, or paid and
in the queue. -/
theorem reconcileSettling_spec {stored : StoredJob c.identity.jobId}
    (hinv : Inv D w) (hof : c.Of D q w.log) (hknown : Known stored w.log)
    (hbound : Bound D c stored.tag.content) (hfresh : Unspent q w.log)
    (hlease : Absent q .ackLease w.log) :
    Ensures D q (reconcileSettling D c.inst c.identity stored c.payment c.header
      c.digest) w (Post
        (fun new w' => Acts q recovery w w' ∧ Known new w'.log ∧
          (Absent q .ackLease w'.log ∨ InQueue new.record))
        (fun _ w' => Acts q recovery w w')) := by
  unfold reconcileSettling
  dsimp only
  split
  · exact Ensures.throw (Steps.refl w)
  · split
    · exact Ensures.throw (Steps.refl w)
    · split
      · exact Ensures.pure ⟨Steps.refl w, hknown, Or.inl hlease⟩
      · rename_i hstatus
        simp only [not_or, ne_eq, not_not] at hstatus
        refine Ensures.bind_inv hinv clock_spec ?_
          (fun _ _ hfalse _ => hfalse.elim)
        rintro now w₁ ⟨hsteps, hclock⟩ hinv₁
        have hlease₁ := hlease.steps hsteps (by simp)
        have hfresh₁ := hfresh.steps hsteps (by simp)
        have hsteps₁ : Acts q recovery w w₁ :=
          hsteps.widen (by simp [recovery, settlement, bookkeeping])
        have hknown₁ := hknown.mono hsteps.suffix
        split
        · exact Ensures.pure ⟨hsteps₁, hknown₁, Or.inl hlease₁⟩
        · rename_i hexpired
          have hguard : (JobWrite.claimed (D.service c.inst).owner now).Guard
              stored.record := by
            refine ⟨hstatus, ?_⟩
            intro t ht
            simp only [ht, Option.map_some, Option.getD_some,
              decide_eq_true_eq] at hexpired
            omega
          refine Ensures.attempt_inv hinv₁ (replace_spec hknown₁ hguard
            ⟨hlease₁, c, hof.mono hsteps.suffix, rfl, hbound, rfl, hclock⟩) ?_
          rintro (x | claimed) w₂ h hinv₂
          · have hsteps₂ : Acts q [.lease] w₁ w₂ := h
            have hlease₂ := hlease₁.steps hsteps₂ (by simp)
            have hsteps₂ : Acts q recovery w w₂ :=
              hsteps₁.trans (hsteps₂.widen (by simp [recovery]))
            cases x
            case jobConflict =>
              refine Ensures.bind readJob_found ?_
                (fun _ _ h => hsteps₂.trans (Acts.of_settlement (Acts.of_book h)))
              rintro (_ | latest) w₃ ⟨hbook, hfound⟩
              · exact Ensures.throw
                  (hsteps₂.trans (Acts.of_settlement (Acts.of_book hbook)))
              · have hsteps₃ :=
                  hsteps₂.trans (Acts.of_settlement (Acts.of_book hbook))
                dsimp only
                split
                · exact Ensures.throw hsteps₃
                · exact Ensures.pure ⟨hsteps₃, (hfound latest rfl).known,
                    Or.inl (hlease₂.steps hbook (by simp [bookkeeping]))⟩
            all_goals exact Ensures.throw hsteps₂
          · obtain ⟨hsteps₂, hnew⟩ :
              Acts q [.lease, .ackLease] w₁ w₂ ∧ Replaced q stored
                (.claimed (D.service c.inst).owner now) claimed w₂.log := h
            have hfresh₂ := hfresh₁.steps hsteps₂ (by simp)
            have hsuf₂ := hsteps.suffix.trans hsteps₂.suffix
            have hclock₂ := Did.mono hclock hsteps₂.suffix
            have hsteps₂ : Acts q recovery w w₂ :=
              hsteps₁.trans (hsteps₂.widen (by simp [recovery]))
            refine (settleClaimed_spec hinv₂ (Holds.of_claim (hof.mono hsuf₂) hbound
              hstatus hnew) hfresh₂ hclock₂).mono ?_
            rintro (x | new) w₃ h₃
            · exact hsteps₂.trans (Acts.of_settlement h₃)
            · exact ⟨hsteps₂.trans (Acts.of_settlement h₃.1), h₃.2.1,
                Or.inr h₃.2.2⟩

end X402
