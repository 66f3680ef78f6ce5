import StockAnalyst.SettlementLease

/-!
# What decides a payment

A payment becomes settled or failed in a write of the process that holds the
lease.  Where the facilitator has answered, the write follows the answer.
Two other ways lead there: a local refusal, which fails a payment that an
earlier call may have made, and the state of the authorization on chain,
which a cancellation sets as a transfer does.
-/

namespace X402

open Python ConditionalStore Coroutine

variable {D : Deployment} {log l older : List Entry} {x : Entry} {job : PyStr}
  {q : Nat} {c : CreateCall}

/-! ## Decisions -/

/-- The call has begun its settlement. -/
def SettleCalled (c : CreateCall) (q : Nat) (log : List Entry) : Prop :=
  ∃ mode, Did q (.note (.settleCalled c.identity.jobId c.header mode)) () false log

/-- Where an outcome came from. -/
theorem Lawful.outcome_source (h : Lawful D log) {outcome : SettlementOutcome}
    (hof : c.Of D q log) (hback : SettleReturned c q outcome log) :
    FacilitatorSaid D c q outcome log ∨
      (outcome = .rejected ∧ SettleCalled c q log ∧ LocallyRefused D c q log) := by
  obtain ⟨t, l, hsuf, -, hduty, -⟩ := h.duty hback
  have hold : l <:+ log := (List.suffix_cons _ l).trans hsuf
  obtain ⟨c', hof', -, -, ⟨mode, hcalled⟩, hsource⟩ := hduty
  obtain rfl := (hof'.mono hold).unique hof h
  rcases hsource outcome rfl with hsaid | ⟨hrejected, hrefused⟩
  · exact Or.inl (hsaid.mono hold)
  · exact Or.inr ⟨hrejected, ⟨mode, hcalled.mono hold⟩, hrefused.mono hold⟩

/-- A settled outcome carries a valid reference. -/
theorem FacilitatorSaid.valid {reference : PyStr}
    (h : FacilitatorSaid D c q (.settled reference) log) :
    isValidSettlementReference reference = true := by
  have hvalid : ∀ {v : Option Json} {o : PyStr → SettlementOutcome},
      (∀ a b, o a = o b → a = b) → ∀ {ref}, (validReference v).map o = some (o ref) →
      isValidSettlementReference ref = true := by
    intro v o hinj ref hmap
    obtain ⟨ref', href, heq⟩ := Option.map_eq_some_iff.1 hmap
    obtain rfl := hinj _ _ heq
    unfold validReference at href
    split at href
    · split at href
      · rename_i hok
        cases href
        exact hok
      · cases href
    · cases href
  have hsettled : ∀ a b : PyStr, SettlementOutcome.settled a = .settled b → a = b :=
    fun a b heq => by injection heq
  obtain ⟨p, -, reply, hsaid⟩ := h
  rcases hsaid with ⟨-, -, hfalse⟩ | ⟨-, hverdict⟩ | ⟨-, hverdict⟩
  · cases hfalse
  · unfold settleVerdict at hverdict
    split at hverdict
    · cases hverdict
    · split at hverdict
      · exact hvalid hsettled hverdict
      · split at hverdict
        · cases hverdict
        · split at hverdict <;> cases hverdict
      · cases hverdict
  · unfold genericVerdict at hverdict
    split at hverdict
    · cases hverdict
    · split at hverdict
      · cases hverdict
      · split at hverdict
        · exact hvalid hsettled hverdict
        · split at hverdict
          · cases hverdict
          · split at hverdict <;> cases hverdict
        · cases hverdict

/-- The entry gives the job a payment status that its record did not have. -/
structure Entry.Becomes (x : Entry) (put : JobPut) (status : PaymentStatus)
    (older : List Entry) : Prop where
  landed : x.jobPut = some put
  status_eq : put.record.paymentStatus = status
  new : ∀ tag, jobTag put.job older = some tag → tag.content.paymentStatus ≠ status

/-- A payment is decided in a write of the lease holder, for its own call. -/
theorem Lawful.decision (h : Lawful D (x :: older)) {put : JobPut}
    {status : PaymentStatus} (hbecomes : x.Becomes put status older)
    (hdecided : status ≠ .settling) :
    ∃ q l c write base, x.event.pid = some q ∧ l <:+ older ∧ Lawful D l ∧
      put.write = some write ∧ jobTag put.job older = some base ∧
      write.Guard base.content ∧ Cause D q l put.job base write ∧
      CreateCall.Of D c q l ∧ c.identity.jobId = put.job ∧
      put.record.paymentProofDigest = some c.digest ∧
      ((∃ reference eventId settledAt lease now, status = .settled ∧
          write = .settled reference eventId settledAt lease now ∧ Paid c q reference l) ∨
        ∃ now, status = .failed ∧ write = .paymentFailed now ∧ Unpaid c q l) := by
  obtain ⟨hput, hstatus, hnew⟩ := hbecomes
  obtain ⟨q, l, hpid, hsuf, hl, hcase⟩ := h.job_step hput
  rcases hcase with ⟨-, -, -, c, -, hcreated⟩ |
      ⟨write, base, hwrite, hcur, -, -, hrecord, hguard, hcause⟩
  · obtain ⟨eventId, normalized, reservation, now, -, -, hrecord, -⟩ := hcreated.made
    rw [hrecord] at hstatus
    exact absurd hstatus.symm hdecided
  · have hbefore := hnew base hcur
    have hafter : (write.apply base.content).paymentStatus = status := by
      rw [← hrecord]
      exact hstatus
    have hbound : ∀ {c : CreateCall}, Bound D c base.content →
        put.record.paymentProofDigest = some c.digest := by
      intro c hb
      have hdigest := (hb.sameJob (write.apply_sameJob base.content)).digest
      rw [← hrecord] at hdigest
      exact hdigest
    have hkeeps : (write.apply base.content).paymentStatus = base.content.paymentStatus →
        False := fun heq => hbefore (heq.symm.trans hafter)
    cases write with
    | settled reference eventId settledAt lease now =>
        have hcause' := hcause
        obtain ⟨-, c, hof, hjob, hb, -, -, hpaid⟩ := hcause'
        exact ⟨q, l, c, _, base, hpid, hsuf, hl, hwrite, hcur, hguard, hcause, hof, hjob,
          hbound hb, Or.inl ⟨reference, eventId, settledAt, lease, now, hafter.symm, rfl, hpaid⟩⟩
    | paymentFailed now =>
        have hcause' := hcause
        obtain ⟨-, c, hof, hjob, hb, hunpaid⟩ := hcause'
        exact ⟨q, l, c, _, base, hpid, hsuf, hl, hwrite, hcur, hguard, hcause, hof, hjob,
          hbound hb, Or.inr ⟨now, hafter.symm, rfl, hunpaid⟩⟩
    | pending reference now => exact absurd hafter.symm hdecided
    | _ => exact (hkeeps rfl).elim

/-! ## A payment that may have been made -/

/-- The transfer that the proof of a payment authorizes. -/
def VerifiedPayment.transfer (p : VerifiedPayment) : AuthUse :=
  .transfer p.toAddress p.value p.validAfter p.validBefore

/-- The settlement of the call has reached the settle endpoint. -/
def Contacted (c : CreateCall) (q : Nat) (log : List Entry) : Prop :=
  ∃ endpoint payload reply, (endpoint = .settle ∨ endpoint = .genericSettle) ∧
    Did q (.post c.inst endpoint payload) reply false log

variable (D) in
/-- Some settlement of the job has reached the facilitator and has not come
back settled or rejected: it is pending, failed, or was lost. -/
def PossiblyPaid (job : PyStr) (log : List Entry) : Prop :=
  ∃ c q, CreateCall.Of D c q log ∧ c.identity.jobId = job ∧ Contacted c q log ∧
    (∀ reference, ¬ SettleReturned c q (.settled reference) log) ∧
    ¬ SettleReturned c q .rejected log

variable (D) in
/-- The facilitator rejected the proof of the call, or the proof is an
EIP-3009 proof that was unused on chain when it had expired. -/
def RefusedForGood (c : CreateCall) (q : Nat) (log : List Entry) : Prop :=
  FacilitatorSaid D c q .rejected log ∨
    (c.payment.transferMethod = .eip3009 ∧
      Did q (.authorizationState (authKey c.payment)) (.ok false) false log ∧
      ∃ now, Clocked q c.inst now log ∧ c.payment.validBefore ≤ now / 1000)

variable (D) in
/-- A job that may have been paid becomes failed only where the payment of its
own proof was refused for good, and a wallet slot is released only for a failed
job. -/
def FailuresJustified (log : List Entry) : Prop :=
  (∀ (x : Entry) older put, x :: older <:+ log → x.Becomes put .failed older →
    PossiblyPaid D put.job older → ∃ c q, x.event.pid = some q ∧
      CreateCall.Of D c q older ∧ c.identity.jobId = put.job ∧
      put.record.paymentProofDigest = proofDigest D c.header ∧
      RefusedForGood D c q older) ∧
  ∀ (x : Entry) older put id reservedAt now, x :: older <:+ log →
    x.walletPut = some put → put.write = .release id reservedAt now →
    ∃ tag, JobVersion id tag older ∧ tag.content.paymentStatus = .failed

variable (D) in
/-- While the record of a job is settling and the job may have been paid, no
call that has begun its settlement runs on an instance that refuses its proof
without asking the facilitator. -/
def AlwaysAsked (log : List Entry) : Prop :=
  ∀ l, l <:+ log → ∀ c q tag, CreateCall.Of D c q l → SettleCalled c q l →
    jobTag c.identity.jobId l = some tag → JobWrite.Settling tag.content →
    PossiblyPaid D c.identity.jobId l → ¬ LocallyRefused D c q l

/-- A wallet slot is released for a failed job. -/
theorem Lawful.released_failed (h : Lawful D (x :: older)) {put : WalletPut}
    (hput : x.walletPut = some put) {id : PyStr} {reservedAt now : Int}
    (hwrite : put.write = .release id reservedAt now) :
    ∃ tag, JobVersion id tag older ∧ tag.content.paymentStatus = .failed := by
  obtain ⟨q, l, -, hsuf, -, howes, -⟩ := h.landing (walletPut_eq_some hput)
  obtain ⟨-, hcause⟩ : put.Owes q l := howes
  rw [hwrite] at hcause
  obtain ⟨-, tag, hver, hfailed, -⟩ := hcause
  exact ⟨tag, hver.mono hsuf, hfailed⟩

/-- **Where the facilitator is always asked, a possibly paid job fails only
when its payment was refused for good.** -/
theorem possibly_paid_fails_justified {s : Config (service D)} (h : Reachable D s)
    (hasked : AlwaysAsked D s.world.log) : FailuresJustified D s.world.log := by
  have hlawful := h.lawful
  refine ⟨?_, ?_⟩
  · intro x older put hsuf hbecomes hpossibly
    have hold : older <:+ s.world.log := (List.suffix_cons x older).trans hsuf
    obtain ⟨q, l, c, write, base, hpid, hl, hlawful', -, hcur, hguard, -, hof, hjob, hdigest,
      hdecision⟩ := (hlawful.of_suffix hsuf).decision hbecomes (by simp)
    have hof' := hof.mono hl
    refine ⟨c, q, hpid, hof', hjob, hdigest.trans hof.digest_eq.symm, ?_⟩
    rcases hdecision with ⟨reference, eventId, settledAt, lease, now, hfalse, -⟩ |
        ⟨now, -, rfl, hunpaid⟩
    · cases hfalse
    · rcases hunpaid with hback | ⟨hmethod, hunused, now', hclock, hexpired⟩
      · rcases hlawful'.outcome_source hof hback with hsaid | ⟨-, ⟨mode, hcalled⟩, hrefused⟩
        · exact Or.inl (hsaid.mono hl)
        · rw [← hjob] at hpossibly hcur
          exact absurd (hrefused.mono hl) (hasked older hold c q base hof'
            ⟨mode, hcalled.mono hl⟩ hcur hguard hpossibly)
      · exact Or.inr ⟨hmethod, hunused.mono hl, now', Did.mono hclock hl, hexpired⟩
  · intro x older put id reservedAt now hsuf hput hwrite
    exact (hlawful.of_suffix hsuf).released_failed hput hwrite

/-! ### Runs with a lost settlement -/

/-- What every call of the sample proof derives from it. -/
structure SamplePayment (p : VerifiedPayment) : Prop where
  method : p.transferMethod = .eip3009
  validBefore : p.validBefore = 1700003000
  key : authKey p = sampleKey
  transfer : p.transfer = sampleTransfer

instance (p : VerifiedPayment) : Decidable (SamplePayment p) :=
  decidable_of_iff (p.transferMethod = .eip3009 ∧ p.validBefore = 1700003000 ∧
      authKey p = sampleKey ∧ p.transfer = sampleTransfer)
    ⟨fun h => ⟨h.1, h.2.1, h.2.2.1, h.2.2.2⟩,
      fun h => ⟨h.method, h.validBefore, h.key, h.transfer⟩⟩

/-- The sample header pays the sample price. -/
theorem sample_payment :
    (verifyForCreate sample (sampleHeader sampleUrl) 1700000100000).any
      (fun v => decide (SamplePayment v.1)) = true := by
  decide +kernel

/-- A call with the sample header makes the sample payment. -/
theorem CreateCall.Of.sample_payment (h : c.Of sample q log)
    (hheader : c.header = sampleHeader sampleUrl) : SamplePayment c.payment := by
  obtain ⟨now, expired, hverify⟩ := h.verified
  rw [hheader] at hverify
  obtain ⟨⟨p, b⟩, hp, hcheck⟩ := (Option.any_eq_true _ _).1 X402.sample_payment
  have hpayment : c.payment = p := verifyForCreate_unique hverify hp
  rw [hpayment]
  exact of_decide_eq_true hcheck

/-- Every call was made on an instance of the given kind, with the sample
header. -/
def sampleCallsIn (ok : Nat → Bool) (log : List Entry) : Bool :=
  log.all fun x => match x.event with
    | .did _ (.note (.createCalled inst header _)) _ _ =>
        ok inst && decide (header = sampleHeader sampleUrl)
    | _ => true

/-- The calls of a checked history are on allowed instances. -/
theorem CreateCall.Of.call_ok {ok : Nat → Bool} (h : c.Of sample q log)
    (hcalls : sampleCallsIn ok log = true) :
    ok c.inst = true ∧ c.header = sampleHeader sampleUrl := by
  obtain ⟨t, ht⟩ := h.called
  have hcheck := List.all_eq_true.1 hcalls _ ht
  simpa using hcheck

/-- The instances without B402 ask the generic facilitator about the sample
proof. -/
theorem CreateCall.Of.not_refused (h : c.Of sample q log)
    (hcalls : sampleCallsIn (· < 2) log = true) : ¬ LocallyRefused sample c q l := by
  intro hrefused
  obtain ⟨hinst, hheader⟩ := h.call_ok hcalls
  obtain ⟨p, hp, hcase⟩ := hrefused
  obtain ⟨p', hp', -, -, hextra⟩ := h.parts
  obtain rfl := hp.unique hp'
  rw [(h.sample_payment hheader).method] at hextra
  have hlt : c.inst < 2 := by simpa using hinst
  rcases hcase with ⟨hon, -⟩ | ⟨-, hmethod | hnone⟩
  · have hon' : decide (2 ≤ c.inst) = true := hon
    have := of_decide_eq_true hon'
    omega
  · have hmethod' : getIs p.extra (py "assetTransferMethod") TransferMethod.eip3009.text =
        false := hmethod
    rw [hextra] at hmethod'
    cases hmethod'
  · cases hnone

/-- The newest entry fails the payment of a job, and process `q` made it. -/
def failedBy (q : Nat) (job : PyStr) : List Entry → Bool
  | ⟨_, .did q' (.putJob put) _ true⟩ :: older =>
      decide (q' = q) && decide (put.job = job) &&
        decide (put.record.paymentStatus = .failed) &&
        (jobTag put.job older).all (fun tag => tag.content.paymentStatus ≠ .failed)
  | _ => false

/-- A checked failure is one. -/
theorem becomes_of_failedBy (h : failedBy q job log = true) :
    ∃ x older put, log = x :: older ∧ Event.pid x.event = some q ∧
      put.job = job ∧ Entry.Becomes x put .failed older := by
  unfold failedBy at h
  split at h
  · rename_i t q' put r older
    simp only [Bool.and_eq_true, decide_eq_true_eq] at h
    obtain ⟨⟨⟨rfl, hjob⟩, hfailed⟩, hnew⟩ := h
    refine ⟨_, older, put, rfl, rfl, hjob, rfl, hfailed, ?_⟩
    intro tag htag
    rw [htag] at hnew
    simpa using hnew
  · cases h

/-- Process `q` runs a call on the instance. -/
def calledOnIn (q inst : Nat) (log : List Entry) : Bool :=
  log.any fun x => match x.event with
    | .did q' (.note (.createCalled inst' _ _)) _ false =>
        decide (q' = q) && decide (inst' = inst)
    | _ => false

/-- A call runs on the instance it was made on. -/
theorem CreateCall.Of.inst_eq {inst : Nat} (h : c.Of D q log) (hlawful : Lawful D log)
    (hcall : calledOnIn q inst log = true) : c.inst = inst := by
  obtain ⟨⟨time, event⟩, hmem, hx⟩ := List.any_eq_true.1 hcall
  split at hx
  · rename_i q' inst' header request r heq
    simp only [Bool.and_eq_true, decide_eq_true_eq] at hx
    obtain ⟨rfl, rfl⟩ := hx
    obtain rfl : event = _ := heq
    exact (hlawful.called_unique h.called ⟨time, hmem⟩).1
  · cases hx

/-- Process `q` has asked the facilitator of `inst` to settle for the job, and
no outcome has come back. -/
def lostCallIn (q inst : Nat) (job : PyStr) (log : List Entry) : Bool :=
  calledOnIn q inst log &&
  (log.any fun x => match x.event with
    | .did q' (.post inst' endpoint _) _ false =>
        decide (q' = q) && decide (inst' = inst) &&
          (decide (endpoint = .settle) || decide (endpoint = .genericSettle))
    | _ => false) &&
  (log.any fun x => match x.event with
    | .did q' (.note (.settleCalled job' _ _)) _ _ =>
        decide (q' = q) && decide (job' = job)
    | _ => false) &&
  log.all fun x => match x.event with
    | .did q' (.note (.settleReturned _ _ (.ok _))) _ _ => decide (q' ≠ q)
    | _ => true

/-- A settlement whose reply is lost may have paid. -/
theorem possiblyPaid_of_lostCallIn (h : Lawful D log) {inst : Nat}
    (hlost : lostCallIn q inst job log = true) : PossiblyPaid D job log := by
  simp only [lostCallIn, Bool.and_eq_true] at hlost
  obtain ⟨⟨⟨hon, hposted⟩, hcalled⟩, hsilent⟩ := hlost
  obtain ⟨⟨time, event⟩, hmem, hx⟩ := List.any_eq_true.1 hcalled
  split at hx
  · rename_i q' job' header mode r landed heq
    simp only [Bool.and_eq_true, decide_eq_true_eq] at hx
    obtain ⟨rfl, rfl⟩ := hx
    obtain rfl : event = _ := heq
    obtain ⟨older, hsuf, -, -, hduty, -⟩ := h.follows hmem
    obtain ⟨-, c, hof, hjob, -⟩ := hduty
    have hof' := hof.mono ((List.suffix_cons _ older).trans hsuf)
    have hno : ∀ outcome, ¬ SettleReturned c q' outcome log := by
      intro outcome hback
      obtain ⟨t, ht⟩ := hback
      have hcheck := List.all_eq_true.1 hsilent _ ht
      simp at hcheck
    refine ⟨c, q', hof', hjob, ?_, fun reference => hno _, hno _⟩
    have hinst := hof'.inst_eq h hon
    obtain ⟨⟨time', event'⟩, hmem', hy⟩ := List.any_eq_true.1 hposted
    split at hy
    · rename_i q'' inst' endpoint payload reply heq'
      simp only [Bool.and_eq_true, Bool.or_eq_true, decide_eq_true_eq] at hy
      obtain ⟨⟨rfl, hinst'⟩, hendpoint⟩ := hy
      obtain rfl : event' = _ := heq'
      refine ⟨endpoint, payload, reply, hendpoint, ?_⟩
      rw [hinst, ← hinst']
      exact ⟨time', hmem'⟩
    · cases hy
  · cases hx

/-- The first settlement call is lost, and the facilitator rejects the proof
when the buyer asks again. -/
def rejectedScript : List Choice :=
  askAgainScript ++ [.act 1 (.http 200 (.obj [(py "success", .bool false),
    (py "errorReason", .str (py "invalid"))]))] ++ plainly 1 3

/-- A possibly paid job fails for a rejection. -/
theorem possibly_paid_fails_rejected : ∃ s, Reachable sample s ∧
    ∃ x older put, x :: older <:+ s.world.log ∧ Entry.Becomes x put .failed older ∧
      PossiblyPaid sample put.job older ∧ ∃ c q, CreateCall.Of sample c q older ∧
        put.record.paymentProofDigest = proofDigest sample c.header ∧
        RefusedForGood sample c q older := by
  obtain ⟨s, hreach, hcheck⟩ := exists_run rejectedScript
    (fun s => sampleCallsIn (· < 2) s.world.log &&
      failedBy 1 sampleJob s.world.log && lostCallIn 0 0 sampleJob s.world.log.tail)
    (by decide +kernel)
  simp only [Bool.and_eq_true] at hcheck
  obtain ⟨⟨hcalls, hfailed⟩, hlost⟩ := hcheck
  obtain ⟨x, older, put, hlog, -, hjob, hbecomes⟩ := becomes_of_failedBy hfailed
  have hsuf : x :: older <:+ s.world.log := ⟨[], hlog.symm⟩
  have hlawful := hreach.lawful.of_suffix hsuf
  rw [hlog] at hlost
  have hpossibly := possiblyPaid_of_lostCallIn hlawful.1 hlost
  rw [← hjob] at hpossibly
  have hasked : AlwaysAsked sample s.world.log := by
    intro l hl c q tag hof hcalled hcur hsettling hpossibly
    exact (hof.mono hl).not_refused hcalls
  obtain ⟨c, q, -, hof, -, hdigest, hrefused⟩ :=
    (possibly_paid_fails_justified hreach hasked).1 x older put hsuf hbecomes hpossibly
  exact ⟨s, hreach, x, older, put, hsuf, hbecomes, hpossibly, c, q, hof, hdigest, hrefused⟩

/-- The first settlement call reaches the facilitator and is lost; the second
call refuses the proof because its instance reads a list of kinds without the
proof's extra. -/
def refusedScript : List Choice :=
  .start (.createJob 2 (sampleHeader sampleUrl) sampleRequest) ::
    (plainly 0 17 ++ .act 0 kindsReply ::
      (plainly 0 2 ++ [.act 0 (b402Reply [(py "isValid", .bool true)]),
        .act 0 (.fault .failed false)] ++ plainly 0 2)) ++
  .wait 1700000230000 ::
    .start (.createJob 3 (sampleHeader sampleUrl) sampleRequest) :: plainly 1 15 ++
  .act 1 (b402Reply [(py "kinds", .arr [])]) :: plainly 1 5

/-- Process `q` has not asked the facilitator to verify or to settle, and every
clock it read was before `deadline`. -/
def neverAskedIn (q : Nat) (deadline : Int) (log : List Entry) : Bool :=
  log.all fun x => match x.event with
    | .did q' (.post _ endpoint _) _ _ =>
        decide (q' ≠ q) || decide (endpoint = .supported)
    | .did q' (.clock _) now _ => decide (q' ≠ q) || decide (now / 1000 < deadline)
    | _ => true

/-- A proof that was never refused was not refused for good. -/
theorem not_refusedForGood (h : neverAskedIn q c.payment.validBefore log = true) :
    ¬ RefusedForGood D c q log := by
  intro hrefused
  have hno : ∀ endpoint payload reply, endpoint ≠ .supported →
      ¬ Did q (.post c.inst endpoint payload) reply false log := by
    intro endpoint payload reply hne hdid
    obtain ⟨t, ht⟩ := hdid
    have hcheck := List.all_eq_true.1 h _ ht
    simp [hne] at hcheck
  rcases hrefused with ⟨p, -, reply, hsaid⟩ | ⟨-, -, now, hclock, hexpired⟩
  · rcases hsaid with ⟨hdid, -⟩ | ⟨hdid, -⟩ | ⟨hdid, -⟩
    · exact hno _ _ _ (by decide) hdid
    · exact hno _ _ _ (by decide) hdid
    · exact hno _ _ _ (by decide) hdid
  · obtain ⟨t, ht⟩ := hclock
    have hcheck := List.all_eq_true.1 h _ ht
    simp only [ne_eq, not_true_eq_false, decide_false, Bool.false_or,
      decide_eq_true_eq] at hcheck
    have hearly : now / 1000 < c.payment.validBefore := hcheck
    omega

/-- **A possibly paid job fails although nobody refused its payment.** -/
theorem possibly_paid_fails_unasked :
    ∃ s, Reachable sample s ∧ ¬ FailuresJustified sample s.world.log := by
  obtain ⟨s, hreach, hcheck⟩ := exists_run refusedScript
    (fun s => sampleCallsIn (fun _ => true) s.world.log &&
      failedBy 1 sampleJob s.world.log && lostCallIn 0 2 sampleJob s.world.log.tail &&
      neverAskedIn 1 1700003000 s.world.log.tail)
    (by decide +kernel)
  simp only [Bool.and_eq_true] at hcheck
  obtain ⟨⟨⟨hcalls, hfailed⟩, hlost⟩, hnever⟩ := hcheck
  obtain ⟨x, older, put, hlog, hpid, hjob, hbecomes⟩ := becomes_of_failedBy hfailed
  have hsuf : x :: older <:+ s.world.log := ⟨[], hlog.symm⟩
  have hlawful := hreach.lawful.of_suffix hsuf
  rw [hlog] at hlost hnever
  have hpossibly := possiblyPaid_of_lostCallIn hlawful.1 hlost
  rw [← hjob] at hpossibly
  refine ⟨s, hreach, ?_⟩
  intro h
  obtain ⟨c, q, hpid', hof, -, -, hrefused⟩ := h.1 x older put hsuf hbecomes hpossibly
  obtain rfl : 1 = q := Option.some.inj (hpid.symm.trans hpid')
  have hof' := hof.mono ((List.suffix_cons x older).trans hsuf)
  have hpayment := hof'.sample_payment (hof'.call_ok hcalls).2
  rw [← hpayment.validBefore] at hnever
  exact not_refusedForGood hnever hrefused

/-! ## A payment that was made -/

variable (D) in
/-- A job becomes settled only where the facilitator reported its proof settled
with a valid reference, or the proof's transfer is on chain. -/
def NoFreeJob (log : List Entry) : Prop :=
  ∀ (x : Entry) older put, x :: older <:+ log → x.Becomes put .settled older →
    ∃ c q, x.event.pid = some q ∧ CreateCall.Of D c q older ∧
      c.identity.jobId = put.job ∧
      put.record.paymentProofDigest = proofDigest D c.header ∧
      ((∃ reference, isValidSettlementReference reference = true ∧
          FacilitatorSaid D c q (.settled reference) older) ∨
        chainAt (authKey c.payment) older = some c.payment.transfer)

/-- A set authorization state is one that something on chain has set. -/
def AccurateStates (log : List Entry) : Prop :=
  ∀ (x : Entry) older, x :: older <:+ log → ∀ q key landed,
    x.event = .did q (.authorizationState key) (.ok true) landed →
    (chainAt key older).isSome = true

variable (D) in
/-- Whenever a call asks for the authorization state of its proof, the
authorization has not been used, or by the transfer of the proof itself. -/
def UsedByTransfer (log : List Entry) : Prop :=
  ∀ c q, CreateCall.Of D c q log → ∀ (x : Entry) older, x :: older <:+ log →
    ∀ r landed, x.event = .did q (.authorizationState (authKey c.payment)) r landed →
    ∀ use, chainAt (authKey c.payment) older = some use → use = c.payment.transfer

/-- What happened on chain stays. -/
theorem chainAt_mono {key : AuthKey} {use : AuthUse} (h : Lawful D log)
    (hsuf : l <:+ log) (huse : chainAt key l = some use) : chainAt key log = some use := by
  obtain ⟨new, rfl⟩ := hsuf
  induction new with
  | nil => exact huse
  | cons x new ih =>
      have hold : chainAt key (new ++ l) = some use := ih h.1
      obtain ⟨time, event⟩ := x
      cases event with
      | did q e r landed => exact hold
      | landedLate q e => exact hold
      | chainUsed key' use' =>
          have hfree : chainAt key' (new ++ l) = none := h.2.2
          have hne : key' ≠ key := by
            rintro rfl
            rw [hold] at hfree
            cases hfree
          simp [chainAt, hne, hold]

/-- **Where only the proof's own transfer uses its authorization, no job is
free.** -/
theorem no_free_job {s : Config (service D)} (h : Reachable D s)
    (haccurate : AccurateStates s.world.log) (hown : UsedByTransfer D s.world.log) :
    NoFreeJob D s.world.log := by
  have hlawful := h.lawful
  intro x older put hsuf hbecomes
  have hold : older <:+ s.world.log := (List.suffix_cons x older).trans hsuf
  obtain ⟨q, l, c, write, base, hpid, hl, hlawful', -, -, -, -, hof, hjob, hdigest, hdecision⟩ :=
    (hlawful.of_suffix hsuf).decision hbecomes (by simp)
  have hof' := hof.mono hl
  refine ⟨c, q, hpid, hof', hjob, hdigest.trans hof.digest_eq.symm, ?_⟩
  rcases hdecision with ⟨reference, eventId, settledAt, lease, now, -, -, hpaid⟩ |
      ⟨now, hfalse, -⟩
  · rcases hpaid with ⟨ref, -, hback⟩ | ⟨-, -, hused⟩
    · rcases hlawful'.outcome_source hof hback with hsaid | ⟨hfalse, -⟩
      · exact Or.inl ⟨ref, hsaid.valid, hsaid.mono hl⟩
      · cases hfalse
    · obtain ⟨t, l', hsuf', -, -, -⟩ := hlawful'.duty hused
      have hall : _ :: l' <:+ s.world.log := hsuf'.trans (hl.trans hold)
      obtain ⟨use, huse⟩ := Option.isSome_iff_exists.1 (haccurate _ l' hall q _ false rfl)
      have hmono : l' <:+ older := ((List.suffix_cons _ l').trans hsuf').trans hl
      have hlater : chainAt (authKey c.payment) older = some use :=
        chainAt_mono (hlawful.of_suffix hold) hmono huse
      have htransfer := hown c q (hof'.mono hold) _ l' hall _ false rfl use huse
      rw [htransfer] at hlater
      exact Or.inr hlater
  · cases hfalse

/-! ### Runs with a used authorization -/

/-- Everything that happened on chain is the given use of the sample nonce. -/
def usedOnlyIn (use : AuthUse) (log : List Entry) : Bool :=
  log.all fun x => match x.event with
    | .chainUsed key use' => decide (key = sampleKey) && decide (use' = use)
    | _ => true

/-- An authorization is used in the way that was checked. -/
theorem chainAt_of_usedOnlyIn {use use' : AuthUse} {key : AuthKey}
    (h : usedOnlyIn use log = true) (huse : chainAt key log = some use') :
    use' = use := by
  induction log with
  | nil => cases huse
  | cons x log ih =>
      simp only [usedOnlyIn, List.all_cons, Bool.and_eq_true] at h
      obtain ⟨hx, hrest⟩ := h
      obtain ⟨time, event⟩ := x
      cases event with
      | did q e r landed => exact ih hrest huse
      | landedLate q e => exact ih hrest huse
      | chainUsed key' other =>
          simp only [Bool.and_eq_true, decide_eq_true_eq] at hx
          simp only [chainAt] at huse
          split at huse
          · cases huse
            exact hx.2
          · exact ih hrest huse

/-- `AccurateStates`, read off a history. -/
def accurateIn (log : List Entry) : Bool :=
  log.tails.all fun
    | ⟨_, .did _ (.authorizationState key) (.ok true) _⟩ :: older =>
        (chainAt key older).isSome
    | _ => true

/-- A chain that is checked to be accurate is. -/
theorem accurateStates_of_accurateIn (h : accurateIn log = true) :
    AccurateStates log := by
  intro x older hsuf q key landed hevent
  have hx := List.all_eq_true.1 h _ ((List.mem_tails _ _).2 hsuf)
  obtain ⟨time, event⟩ := x
  subst hevent
  exact hx

/-- The first settlement call is lost, and the payer uses the authorization;
the buyer asks again. -/
def usedScript (use : AuthUse) : List Choice :=
  .start (.createJob 0 (sampleHeader sampleUrl) sampleRequest) ::
    (plainly 0 12 ++ .act 0 (.fault .failed false) :: plainly 0 2) ++
  .chain sampleKey use :: .wait 1700000230000 ::
    .start (.createJob 1 (sampleHeader sampleUrl) sampleRequest) :: plainly 1 13

/-- The newest entry settles the payment of a job, and process `q` made it. -/
def settledBy (q : Nat) : List Entry → Bool
  | ⟨_, .did q' (.putJob put) _ true⟩ :: older =>
      decide (q' = q) && decide (put.record.paymentStatus = .settled) &&
        (jobTag put.job older).all (fun tag => tag.content.paymentStatus ≠ .settled)
  | _ => false

/-- A checked settlement is one. -/
theorem becomes_of_settledBy (h : settledBy q log = true) :
    ∃ x older put, log = x :: older ∧ Event.pid x.event = some q ∧
      Entry.Becomes x put .settled older := by
  unfold settledBy at h
  split at h
  · rename_i t q' put r older
    simp only [Bool.and_eq_true, decide_eq_true_eq] at h
    obtain ⟨⟨rfl, hsettled⟩, hnew⟩ := h
    refine ⟨_, older, put, rfl, rfl, rfl, hsettled, ?_⟩
    intro tag htag
    rw [htag] at hnew
    simpa using hnew
  · cases h

/-- A job is settled for the transfer of its proof. -/
theorem no_free_job_transfer : ∃ s, Reachable sample s ∧
    NoFreeJob sample s.world.log ∧ ∃ x older put, s.world.log = x :: older ∧
      Entry.Becomes x put .settled older := by
  obtain ⟨s, hreach, hcheck⟩ := exists_run (usedScript sampleTransfer)
    (fun s => sampleCallsIn (fun _ => true) s.world.log &&
      usedOnlyIn sampleTransfer s.world.log && accurateIn s.world.log &&
      settledBy 1 s.world.log) (by decide +kernel)
  simp only [Bool.and_eq_true] at hcheck
  obtain ⟨⟨⟨hcalls, hused⟩, haccurate⟩, hsettled⟩ := hcheck
  have hown : UsedByTransfer sample s.world.log := by
    intro c q hof x older hsuf r landed hevent use huse
    have hold : older <:+ s.world.log := (List.suffix_cons x older).trans hsuf
    have huse' := chainAt_mono hreach.lawful hold huse
    rw [chainAt_of_usedOnlyIn hused huse']
    exact (hof.sample_payment (hof.call_ok hcalls).2).transfer.symm
  obtain ⟨x, older, put, hlog, -, hbecomes⟩ := becomes_of_settledBy hsettled
  exact ⟨s, hreach, no_free_job hreach (accurateStates_of_accurateIn haccurate) hown,
    x, older, put, hlog, hbecomes⟩

/-- Process `q` has asked no facilitator. -/
def postedIn (q : Nat) (log : List Entry) : Bool :=
  log.any fun x => match x.event with
    | .did q' (.post _ _ _) _ _ => decide (q' = q)
    | _ => false

/-- **A cancelled authorization buys a job.** -/
theorem cancelled_proof_settles : ∃ s, Reachable sample s ∧
    AccurateStates s.world.log ∧ ¬ NoFreeJob sample s.world.log := by
  obtain ⟨s, hreach, hcheck⟩ := exists_run (usedScript .cancel)
    (fun s => sampleCallsIn (fun _ => true) s.world.log &&
      usedOnlyIn .cancel s.world.log && accurateIn s.world.log &&
      settledBy 1 s.world.log && !postedIn 1 s.world.log.tail) (by decide +kernel)
  simp only [Bool.and_eq_true, Bool.not_eq_true'] at hcheck
  obtain ⟨⟨⟨⟨hcalls, hused⟩, haccurate⟩, hsettled⟩, hunasked⟩ := hcheck
  obtain ⟨x, older, put, hlog, hpid, hbecomes⟩ := becomes_of_settledBy hsettled
  have hsuf : x :: older <:+ s.world.log := ⟨[], hlog.symm⟩
  have hold : older <:+ s.world.log := (List.suffix_cons x older).trans hsuf
  rw [hlog] at hunasked
  refine ⟨s, hreach, accurateStates_of_accurateIn haccurate, ?_⟩
  intro h
  obtain ⟨c, q, hpid', hof, -, -, hpaid⟩ := h x older put hsuf hbecomes
  obtain rfl : 1 = q := Option.some.inj (hpid.symm.trans hpid')
  rcases hpaid with ⟨reference, -, p, -, reply, hsaid⟩ | htransfer
  · have hno : ∀ endpoint payload, ¬ Did 1 (.post c.inst endpoint payload) (.ok reply)
        false older := by
      intro endpoint payload hdid
      obtain ⟨t, ht⟩ := hdid
      have hposted : postedIn 1 older = true := List.any_eq_true.2 ⟨_, ht, rfl⟩
      rw [List.tail_cons, hposted] at hunasked
      cases hunasked
    rcases hsaid with ⟨hdid, -⟩ | ⟨hdid, -⟩ | ⟨hdid, -⟩
    · exact hno _ _ hdid
    · exact hno _ _ hdid
    · exact hno _ _ hdid
  · have hcancel := chainAt_of_usedOnlyIn hused (chainAt_mono hreach.lawful hold htransfer)
    cases hcancel

end X402
