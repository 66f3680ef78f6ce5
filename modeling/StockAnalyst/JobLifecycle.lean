import StockAnalyst.ExecutionSpecs
import StockAnalyst.Scheduler

/-!
# The life of a job record

What every interleaving keeps of a job record: the payment status agrees with
the job status, analysis starts only on a payment that is settled in the
store, attempts count the execution claims that landed, and a final record
keeps its status.

Each is a fact about one transition, carried along the chain of versions.
-/

namespace X402

open Python ConditionalStore Coroutine

variable {D : Deployment} {log : List Entry} {job : PyStr} {tag : Tag JobRecord}

/-! ## Payment before analysis -/

/-- The payment status of a record agrees with its job status. -/
structure PaymentAgrees (r : JobRecord) : Prop where
  paid : r.status = .queued ∨ r.status = .running ∨ r.status = .succeeded →
    r.paymentStatus = .settled
  refused : r.paymentStatus = .failed → r.status = .failed ∧ r.retryable = some false
  unsettled : r.paymentStatus = .settling → r.status = .settling

/-- In a well-formed record status and payment agree. -/
theorem JobOk.paymentAgrees {r : JobRecord} (h : JobOk r) : PaymentAgrees r :=
  ⟨h.paid, h.refused, fun hp => (h.unsettled hp).1⟩

/-- The entry durably wrote a settled payment for the job. -/
def Entry.Settles (x : Entry) (job : PyStr) : Prop :=
  ∃ put, x.jobPut = some put ∧ put.job = job ∧ put.record.paymentStatus = .settled

/-- A settled version was settled by some write. -/
theorem JobVersion.settles (hver : JobVersion job tag log)
    (hpaid : tag.content.paymentStatus = .settled) : ∃ y ∈ log, y.Settles job := by
  obtain ⟨y, older, hsuf, hwrite, -⟩ := hver.landing
  obtain ⟨put, hput, hjob, hcontent⟩ := jobWrite_eq_some hwrite
  have hstatus : put.record.paymentStatus = tag.content.paymentStatus := by
    rw [← hcontent]
    rfl
  exact ⟨y, hsuf.mem List.mem_cons_self, put, hput, hjob, hstatus.trans hpaid⟩

/-- **Payment before analysis.**  In every reachable state the payment status
of every job record agrees with its job status, and a stream was started for a
job only after a settled payment had landed for it. -/
theorem payment_before_analysis {s : Config (service D)} (h : Reachable D s) :
    (∀ job tag, jobTag job s.world.log = some tag → PaymentAgrees tag.content) ∧
      ∀ (x : Entry) (older : List Entry), x :: older <:+ s.world.log →
        ∀ pid job owner prompt session symbols landed,
          x.event = .did pid (.streamWork job owner prompt session symbols) ()
            landed → ∃ y ∈ older, y.Settles job := by
  have hlawful := h.lawful
  refine ⟨fun job tag htag => ?_, ?_⟩
  · have hok := hlawful.version_ok (Version.of_current htag)
    exact hok.paymentAgrees
  · intro x older hsuf pid job owner prompt session symbols landed hevent
    obtain ⟨hold, -, hfollows⟩ := hlawful.of_suffix hsuf
    rw [hevent] at hfollows
    obtain ⟨⟨-, -, tag, hver, hheld⟩, -⟩ := hfollows
    have hok : JobOk tag.content := hold.version_ok hver
    exact hver.settles (hok.paid (Or.inr (Or.inl hheld.1)))

/-- The newest entry asks the worker of the sample job to stream. -/
def workedIn : List Entry → Bool
  | ⟨_, .did _ (.streamWork job _ _ _ _) _ _⟩ :: _ => decide (job = sampleJob)
  | _ => false

/-- The worker of a paid job streams, and the settled payment is in the
history. -/
theorem payment_before_analysis_paid : ∃ s, Reachable sample s ∧
    ∃ x older, x :: older <:+ s.world.log ∧
      (∃ pid owner prompt session symbols landed, x.event =
        .did pid (.streamWork sampleJob owner prompt session symbols) () landed) ∧
      ∃ y ∈ older, y.Settles sampleJob := by
  obtain ⟨s, hreach, hcheck⟩ := exists_run (paidScript ++ workScript)
    (fun s => workedIn s.world.log) (by decide +kernel)
  unfold workedIn at hcheck
  split at hcheck
  · rename_i time pid job owner prompt session symbols r landed older hlog
    obtain rfl : job = sampleJob := by simpa using hcheck
    have hsuf : _ <:+ s.world.log := ⟨[], hlog.symm⟩
    exact ⟨s, hreach, _, older, hsuf, ⟨pid, owner, prompt, session, symbols, landed,
      rfl⟩, (payment_before_analysis hreach).2 _ older hsuf pid _ owner prompt session
        symbols landed rfl⟩
  · cases hcheck

/-! ## Attempts -/

/-- The entry landed an execution claim for the job. -/
def Entry.claimsJob (job : PyStr) (x : Entry) : Bool :=
  match x.jobPut with
  | some put => decide (put.job = job) && (put.write.map JobWrite.isClaim).getD false
  | none => false

/-- The execution claims that landed for the job. -/
def landedClaims (job : PyStr) (log : List Entry) : Nat :=
  log.countP (Entry.claimsJob job)

/-- A put counts as a claim where its transition is one. -/
theorem claimsJob_of_put {x : Entry} {put : JobPut} (h : x.jobPut = some put) :
    x.claimsJob put.job = (put.write.map JobWrite.isClaim).getD false := by
  simp [Entry.claimsJob, h]

/-- What does not write the job claims nothing. -/
theorem claimsJob_of_ne {x : Entry} (h : ∀ content, x.jobWrite ≠ some (job, content)) :
    x.claimsJob job = false := by
  unfold Entry.claimsJob
  cases hput : x.jobPut with
  | none => rfl
  | some put =>
      have hne : put.job ≠ job := by
        intro heq
        have hwrite := jobWrite_of_jobPut hput
        rw [heq] at hwrite
        exact h _ hwrite
      simp [hne]

/-- Nothing was claimed while there is no record. -/
theorem landedClaims_of_none (h : jobTag job log = none) : landedClaims job log = 0 := by
  induction log with
  | nil => rfl
  | cons x log ih =>
      by_cases hx : ∃ content, x.jobWrite = some (job, content)
      · obtain ⟨content, hwrite⟩ := hx
        unfold jobTag at h
        rw [current_cons_put hwrite] at h
        cases h
      · have hne : ∀ content, x.jobWrite ≠ some (job, content) :=
          fun content hwrite => hx ⟨content, hwrite⟩
        have hsame : jobTag job (x :: log) = jobTag job log := current_cons_ne hne
        have hcount : landedClaims job (x :: log) = landedClaims job log := by
          simp [landedClaims, claimsJob_of_ne hne]
        rw [hcount]
        exact ih (hsame.symm.trans h)

/-- **Attempts count claims.**  The induction follows the history; only a
landed write of the job changes either side. -/
theorem Lawful.attempt_eq (h : Lawful D log) (htag : jobTag job log = some tag) :
    tag.content.attempt = landedClaims job log := by
  induction log generalizing tag with
  | nil => cases htag
  | cons x log ih =>
      by_cases hx : ∃ content, x.jobWrite = some (job, content)
      · obtain ⟨content, hwrite⟩ := hx
        obtain ⟨put, hput, rfl, -⟩ := jobWrite_eq_some hwrite
        rw [jobTag_cons_put hput] at htag
        obtain rfl := Option.some.inj htag
        have hcount : landedClaims put.job (x :: log) = landedClaims put.job log +
            if (put.write.map JobWrite.isClaim).getD false then 1 else 0 := by
          simp [landedClaims, List.countP_cons, claimsJob_of_put hput]
        rw [hcount]
        obtain ⟨q, l, -, -, -, hcase⟩ := h.job_step hput
        rcases hcase with ⟨hcreate, hnone, -, c, -, hcreated⟩ |
            ⟨write, old, hreplace, hold, -, -, hrecord, -, -⟩
        · obtain ⟨eventId, normalized, reservation, now, -, -, hrecord, -⟩ :=
            hcreated.made
          rw [hcreate, landedClaims_of_none hnone, hrecord]
          rfl
        · have hattempt := ih h.1 hold
          show put.record.reload.attempt = _
          rw [hreplace, hrecord, write.apply_attempt, hattempt]
          cases hclaim : write.isClaim <;> simp [hclaim]
      · have hne : ∀ content, x.jobWrite ≠ some (job, content) :=
          fun content hwrite => hx ⟨content, hwrite⟩
        have hsame : jobTag job (x :: log) = jobTag job log := current_cons_ne hne
        have hcount : landedClaims job (x :: log) = landedClaims job log := by
          simp [landedClaims, claimsJob_of_ne hne]
        rw [hcount]
        exact ih h.1 (hsame.symm.trans htag)

/-! ## Final records -/

/-- One version after another: attempts do not go back, and what is final
keeps its status. -/
structure Progress (r r' : JobRecord) : Prop where
  attempt : r.attempt ≤ r'.attempt
  final : Final r → r'.status = r.status ∧ Final r'

/-- A record is where it is. -/
theorem Progress.refl (r : JobRecord) : Progress r r :=
  ⟨le_refl _, fun h => ⟨rfl, h⟩⟩

/-- Progress adds up. -/
theorem Progress.trans {r r' r'' : JobRecord} (h : Progress r r')
    (h' : Progress r' r'') : Progress r r'' := by
  refine ⟨le_trans h.attempt h'.attempt, fun hfinal => ?_⟩
  obtain ⟨hstatus, hfinal'⟩ := h.final hfinal
  obtain ⟨hstatus', hfinal''⟩ := h'.final hfinal'
  exact ⟨hstatus'.trans hstatus, hfinal''⟩

/-- **Every transition is progress.** -/
theorem Progress.apply (t : JobWrite) (r : JobRecord) (hok : JobOk r)
    (hguard : t.Guard r) : Progress r (t.apply r) := by
  refine ⟨?_, fun hfinal => hfinal.apply hok hguard⟩
  rw [t.apply_attempt]
  split <;> omega

/-- **Execution attempts.**  In every reachable state the attempt of a record
is the number of execution claims that landed and at most three, fewer while
the job is queued; whatever runs from there, the attempt does not go back and
a final record keeps its status. -/
theorem execution_attempts {s t : Config (service D)} (h : Reachable D s)
    (hrun : Runs D s t) (htag : jobTag job s.world.log = some tag) :
    (tag.content.attempt = landedClaims job s.world.log ∧
      tag.content.attempt ≤ 3 ∧
      (tag.content.status = .queued → tag.content.attempt < 3)) ∧
    ∃ tag', jobTag job t.world.log = some tag' ∧
      tag.content.attempt ≤ tag'.content.attempt ∧
      (Final tag.content → tag'.content.status = tag.content.status) := by
  have hlawful := h.lawful
  have hok := hlawful.version_ok (Version.of_current htag)
  refine ⟨⟨hlawful.attempt_eq htag, hok.attempt.2, hok.queued⟩, ?_⟩
  have hlawful' := (h.run hrun).lawful
  have hver : JobVersion job tag t.world.log :=
    (Version.of_current htag).mono (Runs.log_suffix hrun)
  obtain ⟨tag', htag', hprogress⟩ :=
    hlawful'.version_current Progress.refl Progress.trans Progress.apply hver
  exact ⟨tag', htag', hprogress.attempt, fun hfinal => (hprogress.final hfinal).1⟩

/-- The claim of a queued job takes its attempt from nought to one. -/
theorem execution_attempts_claimed : ∃ s t tag tag', Reachable sample s ∧
    Runs sample s t ∧ jobTag sampleJob s.world.log = some tag ∧
    tag.content.attempt = landedClaims sampleJob s.world.log ∧
    jobTag sampleJob t.world.log = some tag' ∧
    tag.content.attempt ≤ tag'.content.attempt ∧ tag'.content.attempt = 1 := by
  obtain ⟨s, t, hreach, hrun, hcheck⟩ := exists_runs paidScript workScript
    (fun s t =>
      (jobTag sampleJob s.world.log).isSome &&
        (jobTag sampleJob t.world.log).any (fun tag => tag.content.attempt = 1))
    (by decide +kernel)
  obtain ⟨hsome, hone⟩ := Bool.and_eq_true_iff.1 hcheck
  obtain ⟨tag, htag⟩ := Option.isSome_iff_exists.1 hsome
  obtain ⟨⟨hattempt, -⟩, tag', htag', hle, -⟩ := execution_attempts hreach hrun htag
  rw [htag'] at hone
  exact ⟨s, t, tag, tag', hreach, hrun, htag, hattempt, htag', hle, by simpa using hone⟩

end X402
