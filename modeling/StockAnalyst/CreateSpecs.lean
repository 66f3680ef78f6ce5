import StockAnalyst.SettlementSpecs

/-!
# Specifications of the calls from outside

`create_job`, `get_job` and `resume_job`, with the background tasks they start
and the competition reports.  A call of `create_job` that returns belongs to
the record it returns; one that found a record of another header or request
refuses.
-/

namespace X402

open Python ConditionalStore Coroutine

variable {D : Deployment} {q : Nat} {w : World} {inst : Nat} {job : PyStr}

/-! ## Background tasks -/

/-- Forking a call is quiet. -/
theorem fork_spec {call : Call} :
    Ensures D q (Async.await (.fork call) .ok) w (Post
      (fun _ w' => Acts q [.quiet] w w') (fun _ w' => Acts q [.quiet] w w')) :=
  Ensures.quiet (fun _ => rfl) (fun _ => trivial) (fun _ _ _ hsteps _ => hsteps)

/-- Spawning a task is quiet. -/
theorem spawnTask_spec {kind : TaskKind} {call : Call} :
    Ensures D q (spawnTask inst kind job call) w (Post
      (fun _ w' => Acts q [.quiet] w w') (fun _ w' => Acts q [.quiet] w w')) := by
  refine Ensures.bind (P := Post (fun _ w' => Acts q [.quiet] w w')
      (fun _ w' => Acts q [.quiet] w w'))
    (Ensures.quiet (fun _ => rfl) (fun _ => trivial)
      (fun _ _ _ hsteps _ => hsteps)) ?_ (fun _ _ h => h)
  intro spawned w₁ hsteps
  cases spawned with
  | true =>
      refine fork_spec.mono ?_
      rintro (x | u) w₂ h
      · exact Steps.trans hsteps h
      · exact Steps.trans hsteps h
  | false => exact Ensures.pure hsteps

/-- Spawning the execution of a job is quiet. -/
theorem spawn_spec :
    Ensures D q (spawn inst job) w (Post (fun _ w' => Acts q [.quiet] w w')
      (fun _ w' => Acts q [.quiet] w w')) :=
  spawnTask_spec

/-- Spawning the accounting of a job is quiet. -/
theorem spawnAccounting_spec {delay : Bool} :
    Ensures D q (spawnAccounting inst job delay) w (Post
      (fun _ w' => Acts q [.quiet] w w') (fun _ w' => Acts q [.quiet] w w')) := by
  unfold spawnAccounting
  split
  · exact Ensures.pure (Steps.refl w)
  · exact spawnTask_spec

/-- Handing a job over is quiet. -/
theorem handoffAndSpawn_spec :
    Ensures D q (handoffAndSpawn inst job) w (Post
      (fun _ w' => Acts q [.quiet] w w') (fun _ w' => Acts q [.quiet] w w')) := by
  have hspawn : ∀ {w₁}, Acts q [.quiet] w w₁ → Ensures D q (spawn inst job) w₁
      (Post (fun _ w' => Acts q [.quiet] w w')
        (fun _ w' => Acts q [.quiet] w w')) := by
    intro w₁ hsteps
    refine spawn_spec.mono ?_
    rintro (x | u) w₂ h
    · exact Steps.trans hsteps h
    · exact Steps.trans hsteps h
  refine Ensures.bind (P := Post (fun _ w' => Acts q [.quiet] w w')
      (fun _ w' => Acts q [.quiet] w w'))
    (Ensures.quiet (fun _ => rfl) (fun _ => trivial)
      (fun _ _ _ hsteps _ => hsteps)) ?_ (fun _ _ h => h)
  intro active w₁ hsteps
  cases active with
  | true =>
      refine Ensures.bind (P := Post (fun _ w' => Acts q [.quiet] w w')
          (fun _ w' => Acts q [.quiet] w w'))
        (Ensures.quiet (fun _ => rfl) (fun _ => trivial) ?_)
        (fun _ w₂ hsteps₂ => hspawn hsteps₂) (fun _ _ h => h)
      rintro r landed w₂ hsteps₂ -
      cases r <;> exact hsteps.trans hsteps₂
  | false => exact hspawn hsteps

/-- Driving the accounting again is quiet. -/
theorem redriveAccounting_spec {stored : StoredJob job} :
    Ensures D q (redriveAccounting inst stored) w (Post
      (fun _ w' => Acts q [.quiet] w w') (fun _ w' => Acts q [.quiet] w w')) := by
  have hspawn : ∀ {w₁} {delay : Bool}, Acts q [.quiet] w w₁ →
      Ensures D q (spawnAccounting inst job delay) w₁ (Post
        (fun _ w' => Acts q [.quiet] w w')
        (fun _ w' => Acts q [.quiet] w w')) := by
    intro w₁ delay hsteps
    refine spawnAccounting_spec.mono ?_
    rintro (x | u) w₂ h
    · exact Steps.trans hsteps h
    · exact Steps.trans hsteps h
  unfold redriveAccounting
  split
  · exact Ensures.pure (Steps.refl w)
  · refine Ensures.attempt readAccountingMarker_spec ?_
    rintro (x | _ | marker) w₁ hsteps
    · cases x
      case cancelled => exact Ensures.throw hsteps
      all_goals exact hspawn hsteps
    · exact hspawn hsteps
    · exact Ensures.pure hsteps

/-! ## Competition accounting -/

/-- What awaits its report goes on awaiting it in longer histories. -/
theorem AwaitsReport.mono {stored : StoredJob job} {log log' : List Entry}
    (h : AwaitsReport q stored log) (hsuf : log <:+ log') :
    AwaitsReport q stored log' :=
  ⟨h.1.mono hsuf, h.2⟩

/-- Process `q` has reported the record it had read. -/
def Reported (q : Nat) (stored : StoredJob job) (log : List Entry) : Prop :=
  ∃ t older, (⟨t, .did q (.report stored.record.competitionEventId
    stored.record.address (stored.record.settledAt.getD 0)) (.ok true) false⟩ :
      Entry) :: older <:+ log ∧ AwaitsReport q stored older

/-- What was reported stays reported. -/
theorem Reported.mono {stored : StoredJob job} {log log' : List Entry}
    (h : Reported q stored log) (hsuf : log <:+ log') : Reported q stored log' := by
  obtain ⟨t, older, hold, hawaits⟩ := h
  exact ⟨t, older, hold.trans hsuf, hawaits⟩

/-- A record that counts as reported was reported. -/
theorem reportAccountingRecord_spec {stored : StoredJob job}
    (h : AwaitsReport q stored w.log) :
    Ensures D q (reportAccountingRecord stored.record) w (Post
      (fun reported w' => Acts q [.quiet] w w' ∧ (reported = true →
        Reported q stored w'.log))
      (fun _ w' => Acts q [.quiet] w w')) := by
  unfold reportAccountingRecord
  split
  · exact Ensures.pure ⟨Steps.refl w, nofun⟩
  · rename_i settledAt hsettledAt
    split
    · exact Ensures.pure ⟨Steps.refl w, nofun⟩
    · refine Ensures.attempt (P := Post
          (fun reported w' => Acts q [.quiet] w w' ∧ (reported = true →
            Reported q stored w'.log))
          (fun _ w' => Acts q [.quiet] w w'))
        (Ensures.act (L := [.quiet]) (fun r => by simp [actKind]) ?_ ?_) ?_
      · intro w₁ hext _
        exact ⟨job, stored, h.mono hext.suffix, rfl, rfl, hsettledAt⟩
      · intro w₁ r landed w' hext _ hanswer hw' _ hsteps _
        obtain rfl : landed = false := hanswer
        cases r with
        | error f => exact hsteps
        | ok reported =>
            refine ⟨hsteps, ?_⟩
            intro hreported
            subst hreported
            refine ⟨w₁.time, w₁.log, ?_, h.mono hext.suffix⟩
            rw [hw', hsettledAt]
            exact List.suffix_refl _
      · rintro (x | reported) w₁ h₁
        · cases x
          case cancelled => exact Ensures.throw h₁
          all_goals exact Ensures.pure ⟨h₁, nofun⟩
        · exact Ensures.pure h₁

/-- One pass of the accounting keeps the contract. -/
theorem accountingPass_spec :
    Ensures D q (accountingPass D job) w (fun _ _ => True) := by
  refine Ensures.bind readJob_found ?_ (fun _ _ _ => trivial)
  rintro (_ | stored) w₁ ⟨-, hfound⟩
  · exact Ensures.pure trivial
  · have hdid := (hfound stored rfl).did
    dsimp only
    split
    · exact Ensures.pure trivial
    · rename_i hpending
      have hawaits : AwaitsReport q stored w₁.log := ⟨hdid, by simpa using hpending⟩
      refine Ensures.bind readAccountingMarker_spec ?_ (fun _ _ _ => trivial)
      rintro (_ | marker) w₂ hsteps
      · have hsuf : w₁.log <:+ w₂.log := Steps.suffix (K := Only [.quiet]) hsteps
        refine Ensures.bind (reportAccountingRecord_spec (hawaits.mono hsuf)) ?_
          (fun _ _ _ => trivial)
        rintro (_ | _) w₃ ⟨-, hreported⟩
        · exact Ensures.pure trivial
        · refine Ensures.bind (createAccountingMarker_spec ?_) ?_
            (fun _ _ _ => trivial)
          · intro w₄ hsuf₄
            exact ⟨stored, rfl, (hreported rfl).mono hsuf₄⟩
          · rintro (_ | _) w₄ -
            · refine Ensures.bind readAccountingMarker_spec ?_
                (fun _ _ _ => trivial)
              intro _ w₅ _
              exact Ensures.pure trivial
            · exact Ensures.pure trivial
      · exact Ensures.pure trivial

/-- So do all of them. -/
theorem accountingLoop_spec (remaining : Nat) {delay : Bool} :
    Ensures D q (accountingLoop D job remaining delay) w (fun _ _ => True) := by
  induction remaining generalizing w delay with
  | zero => exact Ensures.pure trivial
  | succ remaining ih =>
      unfold accountingLoop
      cases delay
      case' true =>
        refine Ensures.bind sleep_spec ?_ (fun _ _ _ => trivial)
        intro _ w₁ _
      all_goals
        refine Ensures.attempt accountingPass_spec ?_
        intro result w₂ _
        rcases result with x | _ | _
        · cases x
          case cancelled => exact Ensures.throw trivial
          all_goals exact ih
        · exact ih
        · exact Ensures.pure trivial

/-! ## Reading and resuming -/

/-- An authorized job is a record that was read. -/
theorem authorizedJob_spec {token : PyStr} :
    Ensures D q (authorizedJob D inst job token) w (Post
      (fun stored w' => Acts q bookkeeping w w' ∧ Known stored w'.log)
      (fun _ w' => Acts q bookkeeping w w')) := by
  unfold authorizedJob
  split
  · exact Ensures.throw (Steps.refl w)
  · refine Ensures.bind readJob_found ?_ (fun _ _ h => h)
    rintro (_ | stored) w₁ ⟨hsteps, hfound⟩
    · exact Ensures.throw hsteps
    · dsimp only
      split
      · exact Ensures.throw hsteps
      · exact Ensures.throw hsteps
      · refine Ensures.bind clock_book ?_ (fun _ _ hfalse => hfalse.elim)
        rintro now w₂ ⟨hsteps₂, -⟩
        split
        · exact Ensures.throw (hsteps.trans hsteps₂)
        · exact Ensures.pure ⟨hsteps.trans hsteps₂,
            (hfound stored rfl).known.mono hsteps₂.suffix⟩

/-- The view of a job writes nothing. -/
theorem jobView_spec {stored : StoredJob job} :
    Ensures D q (jobView inst stored) w (fun _ _ => True) := by
  unfold jobView
  dsimp only
  split
  · exact Ensures.pure trivial
  · refine Ensures.bind presignReport_spec ?_ (fun _ _ _ => trivial)
    intro url w₁ _
    refine Ensures.bind clock_spec ?_ (fun _ _ _ => trivial)
    intro now w₂ _
    exact Ensures.pure trivial
  · exact Ensures.pure trivial

/-- Showing a job keeps the contract. -/
theorem getJob_spec {token : PyStr} :
    Ensures D q (getJob D inst job token) w (fun _ _ => True) := by
  have hrest : ∀ {w₁} {stored : StoredJob job}, Ensures D q (do
      redriveAccounting inst stored
      jobView inst stored) w₁ (fun _ _ => True) := by
    intro w₁ stored
    refine Ensures.bind redriveAccounting_spec ?_ (fun _ _ _ => trivial)
    intro _ w₂ _
    exact jobView_spec
  refine Ensures.bind authorizedJob_spec ?_ (fun _ _ _ => trivial)
  intro stored w₁ _
  dsimp only
  split
  · refine Ensures.bind spawn_spec ?_ (fun _ _ _ => trivial)
    intro _ w₂ _
    exact hrest
  · exact hrest

/-- A resumed job is requeued by an outsider, as its guard allows. -/
theorem applyResumeAndHandoff_spec {stored : StoredJob job} {now : Int}
    (hknown : Known stored w.log)
    (hguard : (JobWrite.requeued now).Guard stored.record)
    (houtsider : Outsider q w.log) :
    Ensures D q (applyResumeAndHandoff D inst stored now) w (fun _ _ => True) := by
  refine Ensures.attempt (replace_book hknown hguard houtsider ⟨rfl, rfl⟩) ?_
  rintro (x | new) w₁ -
  · cases x <;> exact Ensures.throw trivial
  · refine handoffAndSpawn_spec.mono ?_
    exact fun _ _ _ => trivial

/-- `resume_job`: a stale or retryable record with attempts left goes back to
the queue. -/
theorem resumeJob_spec {token : PyStr} (houtsider : Outsider q w.log) :
    Ensures D q (resumeJob D inst job token) w (fun _ _ => True) := by
  refine Ensures.bind authorizedJob_spec ?_ (fun _ _ _ => trivial)
  rintro stored w₁ ⟨hsteps, hknown⟩
  refine Ensures.bind redriveAccounting_spec.book ?_ (fun _ _ _ => trivial)
  intro _ w₂ hsteps₂
  have hknown₂ := hknown.mono (Steps.suffix (K := Only bookkeeping) hsteps₂)
  have hsteps₂ : Acts q bookkeeping w w₂ := hsteps.trans hsteps₂
  refine Ensures.bind clock_book ?_ (fun _ _ _ => trivial)
  rintro now w₃ ⟨hsteps₃, -⟩
  have houtsider₃ := houtsider.steps (hsteps₂.trans hsteps₃)
    (by simp [bookkeeping]) (by simp [bookkeeping])
  dsimp only
  split
  · exact Ensures.throw trivial
  · rename_i hattempt
    split
    · refine Ensures.bind spawn_spec ?_ (fun _ _ _ => trivial)
      intro _ w₄ _
      exact getJob_spec
    · split
      · rename_i hfrom
        have hguard : (JobWrite.requeued now).Guard stored.record :=
          ⟨hfrom, by omega⟩
        refine Ensures.attempt (applyResumeAndHandoff_spec
          (hknown₂.mono hsteps₃.suffix) hguard houtsider₃) ?_
        intro result w₄ _
        refine Ensures.bind interrupted_spec ?_ (fun _ _ _ => trivial)
        rintro (_ | _) w₅ _
        · refine Ensures.bind (P := fun _ _ => True) (Ensures.ofExcept trivial) ?_
            (fun _ _ _ => trivial)
          intro _ w₆ _
          exact getJob_spec
        · exact Ensures.throw trivial
      · exact Ensures.throw trivial

/-! ## Creating a job -/

/-- A record of the job has another payment key. -/
def OtherKey (c : CreateCall) (log : List Entry) : Prop :=
  ∃ tag, JobVersion c.identity.jobId tag log ∧
    tag.content.paymentKey ≠ c.identity.paymentKey

/-- The call has found no record of its key that belongs to another call. -/
def Clear (D : Deployment) (c : CreateCall) (q : Nat) (log : List Entry) : Prop :=
  Absent q .found log ∨ BoundJob D c log ∨ OtherKey c log

/-- A foreign job stays foreign. -/
theorem OtherKey.mono {c : CreateCall} {log log' : List Entry}
    (h : OtherKey c log) (hsuf : log <:+ log') : OtherKey c log' := by
  obtain ⟨tag, hver, hkey⟩ := h
  exact ⟨tag, hver.mono hsuf, hkey⟩

/-- A record that a process found was a version of its job. -/
theorem Lawful.found {log : List Entry} (h : Lawful D log)
    {stored : StoredJob job}
    (hdid : Did q (.getJob job) (.ok (some stored)) false log) :
    FoundJob q stored log := by
  obtain ⟨t, older, hsuf, -, -, hread, -⟩ := h.duty hdid
  have hread : some stored = jobAt job older := hread
  obtain ⟨hcur, hrecord⟩ := jobAt_some hread.symm
  exact ⟨(Version.of_current hcur).mono ((List.suffix_cons _ _).trans hsuf), hrecord,
    hdid⟩

/-- Where the job's place is clear, no other job was found there. -/
theorem Clear.not_found {c : CreateCall} {log : List Entry} (h : Clear D c q log)
    (hlawful : Lawful D log) : ¬ FoundOther D c q log := by
  rintro ⟨stored, hdid, hkey, hbound⟩
  have hfound := hlawful.found hdid
  rcases h with habsent | hjob | ⟨tag, hver, hother⟩
  · obtain ⟨t, ht⟩ := hdid
    exact habsent _ ht _ _ _ rfl rfl
  · rw [hfound.same] at hbound
    exact hbound (hjob.all hlawful hfound.known)
  · have hsame := hlawful.same_job hfound.known hver
    rw [hfound.same, ← hsame.paymentKey] at hkey
    exact hother hkey

/-- A call of `create_job` that raised: no other call's record was found, or
the exception says that the binding failed. -/
def Answered (D : Deployment) (c : CreateCall) (q : Nat) (x : Exn)
    (log : List Entry) : Prop :=
  Clear D c q log ∨ RefusesBinding D c x

variable {c : CreateCall}

/-- A record that passed the binding check belongs to the call. -/
theorem Bound.of_binding {r : JobRecord} {normalized : Json}
    (hnormalized : normalizeRequest D c.request = some normalized)
    (h : requireExactJobBinding D r c.identity c.payment c.digest normalized =
      .ok ()) : Bound D c r := by
  unfold requireExactJobBinding at h
  split at h
  · cases h
  · rename_i hkey
    split at h
    · cases h
    · rename_i hrest
      simp only [not_or, ne_eq, not_not, Bool.not_eq_false] at hkey hrest
      exact ⟨hkey, hrest.2.2.1, normalized, hnormalized, Or.inr hrest.2.2.2.1⟩

/-- A record that fails the binding check has another key, or the call is
refused. -/
theorem refuses_of_binding {r : JobRecord} {normalized : Json} {x : Exn}
    (h : requireExactJobBinding D r c.identity c.payment c.digest normalized =
      .error x) :
    r.paymentKey ≠ c.identity.paymentKey ∨ RefusesBinding D c x := by
  unfold requireExactJobBinding at h
  split at h
  · rename_i hkey
    exact Or.inl hkey
  · split at h
    · cases h
      exact Or.inr (Or.inl rfl)
    · cases h

/-- A record found under another payment key is foreign. -/
theorem FoundJob.otherKey {stored : StoredJob c.identity.jobId} {log : List Entry}
    (h : FoundJob q stored log)
    (hkey : stored.record.paymentKey ≠ c.identity.paymentKey) : OtherKey c log := by
  refine ⟨stored.tag, h.known, ?_⟩
  rw [← h.same]
  exact hkey

/-- The binding check of a record that the process found. -/
theorem requireBinding_spec {stored : StoredJob c.identity.jobId}
    {normalized : Json} (hfound : FoundJob q stored w.log)
    (hnormalized : normalizeRequest D c.request = some normalized) :
    Ensures D q (Async.ofExcept (requireExactJobBinding D stored.record c.identity
      c.payment c.digest normalized)) w (Post
        (fun _ w' => w' = w ∧ Bound D c stored.tag.content)
        (fun x w' => w' = w ∧ Answered D c q x w'.log)) := by
  refine Ensures.ofExcept ?_
  cases hcheck : requireExactJobBinding D stored.record c.identity c.payment c.digest
      normalized with
  | ok u =>
      have hbound := Bound.of_binding hnormalized hcheck
      rw [hfound.same] at hbound
      exact ⟨rfl, hbound⟩
  | error x =>
      rcases refuses_of_binding hcheck with hkey | hrefuse
      · exact ⟨rfl, Or.inl (Or.inr (Or.inr (hfound.otherKey hkey)))⟩
      · exact ⟨rfl, Or.inr hrefuse⟩

/-- What the caller of `create_job` gets: a result for its own record, or an
exception that answers for what was found. -/
def Outcome (D : Deployment) (c : CreateCall) (q : Nat) :
    Except Exn CreateJobResult → World → Prop :=
  Post (fun result w' => BoundJob D c w'.log ∧ result.jobId = c.identity.jobId ∧
      result.jobToken = c.identity.jobToken)
    (fun x w' => Answered D c q x w'.log)

/-- A call may end in any way once the job is its own. -/
theorem Answered.of_bound {x : Exn} {log : List Entry} (h : BoundJob D c log) :
    Answered D c q x log :=
  Or.inl (Or.inr (Or.inl h))

/-- A call may end in any way while it has found nothing. -/
theorem Answered.of_absent {x : Exn} {log : List Entry} (h : Absent q .found log) :
    Answered D c q x log :=
  Or.inl (Or.inl h)

/-- The result of a call is made of its own job. -/
theorem createResult_spec {r : JobRecord} (hjob : BoundJob D c w.log) :
    Ensures D q (Async.ofExcept (createResult c.identity r)) w (fun result w' =>
      w' = w ∧ Outcome D c q result w') := by
  refine Ensures.ofExcept ⟨rfl, ?_⟩
  cases hresult : createResult c.identity r with
  | error x => exact Answered.of_bound hjob
  | ok result =>
      unfold createResult at hresult
      dsimp only at hresult
      split at hresult
      · split at hresult
        · cases hresult
          exact ⟨hjob, rfl, rfl⟩
        · cases hresult
      · cases hresult
        exact ⟨hjob, rfl, rfl⟩

/-- The tasks of a result are spawned for the call's own job. -/
theorem createResultAndSpawn_spec {r : JobRecord} (hjob : BoundJob D c w.log) :
    Ensures D q (createResultAndSpawn inst c.identity r) w (Outcome D c q) := by
  refine Ensures.bind (createResult_spec hjob) ?_ (fun _ _ h => h.2)
  rintro result w₁ ⟨rfl, h⟩
  split
  · refine Ensures.bind spawn_spec ?_ ?_
    · intro _ w₂ hsteps
      have hsuf := Steps.suffix (K := Only [.quiet]) hsteps
      exact Ensures.pure ⟨hjob.mono hsuf, h.2⟩
    · intro x w₂ hsteps
      exact Answered.of_bound (hjob.mono (Steps.suffix (K := Only [.quiet]) hsteps))
  · exact Ensures.pure h

/-! ### The observer -/

/-- One look at the job finds it or misses it. -/
theorem observeOnce_spec :
    Ensures D q (observeOnce job) w (Post
      (fun found w' => match found with
        | none => Acts q [.missed] w w'
        | some stored => FoundJob q stored w'.log)
      (fun _ w' => Acts q [.missed] w w')) := by
  refine Ensures.attempt readJob_spec ?_
  rintro (x | _ | stored) w₁ h
  · cases x
    case cancelled => exact Ensures.throw h
    all_goals exact Ensures.pure h
  · exact Ensures.pure h
  · exact Ensures.pure h.2

/-- `_wait_for_exact_reserved_job`. -/
theorem observeLoop_spec {normalized : Json} (remaining : Nat)
    (hnormalized : normalizeRequest D c.request = some normalized)
    (habsent : Absent q .found w.log) :
    Ensures D q (observeLoop D c.identity c.payment c.digest normalized remaining) w
      (Post (fun _ w' => BoundJob D c w'.log)
        (fun x w' => Answered D c q x w'.log)) := by
  induction remaining generalizing w with
  | zero => exact Ensures.throw (Answered.of_absent habsent)
  | succ remaining ih =>
      unfold observeLoop
      refine Ensures.bind observeOnce_spec ?_ ?_
      · rintro (_ | stored) w₁ h
        · have hsteps : Acts q [.missed] w w₁ := h
          have habsent₁ := habsent.steps hsteps (by simp)
          dsimp only
          split
          · exact ih habsent₁
          · refine Ensures.bind sleep_spec ?_ ?_
            · intro _ w₂ hsteps₂
              exact ih (habsent₁.steps (L := [.quiet]) hsteps₂ (by simp))
            · intro x w₂ hsteps₂
              exact Answered.of_absent
                (habsent₁.steps (L := [.quiet]) hsteps₂ (by simp))
        · have hfound : FoundJob q stored w₁.log := h
          refine Ensures.bind (requireBinding_spec hfound hnormalized) ?_
            (fun _ _ h => h.2)
          rintro _ w₂ ⟨rfl, hbound⟩
          exact Ensures.pure ⟨stored.tag, hfound.known, hbound⟩
      · intro x w₁ h
        exact Answered.of_absent (habsent.steps (L := [.missed]) h (by simp))

/-- An observed record as the outcome of the call. -/
theorem observed_spec {normalized : Json}
    (hnormalized : normalizeRequest D c.request = some normalized)
    (habsent : Absent q .found w.log) :
    Ensures D q (do
      let observed ← waitForExactReservedJob D inst c.identity c.payment c.digest
        normalized
      Async.ofExcept (createResult c.identity observed.record)) w
      (Outcome D c q) := by
  refine Ensures.bind (observeLoop_spec _ hnormalized habsent) ?_ (fun _ _ h => h)
  intro observed w₁ hjob
  exact (createResult_spec hjob).mono (fun _ _ h => h.2)

/-! ### The branch that finds a record -/

/-- **A recoverable record is the call's own**, request and payment alike. -/
theorem requireRecoverable_spec {stored : StoredJob c.identity.jobId}
    (hinv : Inv D w) (hfound : FoundJob q stored w.log) :
    Ensures D q (requireRecoverable D inst c.identity c.payment c.digest c.request
      stored.record) w (Post
        (fun _ w' => Acts q [.quiet] w w' ∧ Bound D c stored.tag.content)
        (fun x w' => Answered D c q x w'.log)) := by
  obtain ⟨reservation, hres, -⟩ := (hfound.known.ok hinv).rateReservation
  unfold requireRecoverable
  rw [hres, Async.ofExcept_ok_bind]
  cases hnormalized : normalizeRequest D c.request with
  | none => exact Ensures.throw (Or.inr (Or.inr ⟨hnormalized, rfl⟩))
  | some normalized =>
      refine Ensures.bind (requireBinding_spec hfound hnormalized) ?_
        (fun _ _ h => h.2)
      rintro _ w₁ ⟨rfl, hbound⟩
      split
      · refine Ensures.bind confirm_spec ?_ ?_
        · intro _ w₂ hsteps
          exact Ensures.pure ⟨hsteps, hbound⟩
        · intro x w₂ hsteps
          exact Answered.of_bound ⟨stored.tag,
            hfound.known.mono (Steps.suffix (K := Only [.quiet]) hsteps), hbound⟩
      · exact Ensures.pure ⟨Steps.refl _, hbound⟩

/-- **A recovered job** answers the call for its own job. -/
theorem recoverJob_spec {stored : StoredJob c.identity.jobId} (hinv : Inv D w)
    (hof : c.Of D q w.log) (hfound : FoundJob q stored w.log)
    (hfresh : Unspent q w.log) (hlease : Absent q .ackLease w.log) :
    Ensures D q (recoverJob D c.inst c.identity c.payment c.header c.digest c.request
      stored) w (Outcome D c q) := by
  unfold recoverJob
  split
  · rename_i hkey
    exact Ensures.throw (Or.inl (Or.inr (Or.inr (hfound.otherKey hkey))))
  · refine Ensures.bind_inv hinv (requireRecoverable_spec hinv hfound) ?_
      (fun _ _ h _ => h)
    rintro - w₁ ⟨hsteps, hbound⟩ hinv₁
    have hknown₁ := hfound.known.mono hsteps.suffix
    have hjob : BoundJob D c w₁.log := ⟨stored.tag, hknown₁, hbound⟩
    refine Ensures.bind_inv hinv₁ (reconcileSettling_spec hinv₁
      (hof.mono hsteps.suffix) hknown₁ hbound (hfresh.steps hsteps (by simp))
      (hlease.steps hsteps (by simp))) ?_ ?_
    · rintro reconciled w₂ ⟨hsteps₂, hknown₂, hmay⟩ hinv₂
      have hjob₂ := hjob.mono hsteps₂.suffix
      have hours : Ours D q c.identity.jobId reconciled.tag w₂.log :=
        ⟨c, (hof.mono hsteps.suffix).mono hsteps₂.suffix, rfl,
          hjob₂.all hinv₂.1 hknown₂⟩
      refine Ensures.bind (reconcileRateLimit_spec hinv₂ hknown₂ hours hmay) ?_ ?_
      · intro counted w₃ hsteps₃
        have hjob₃ := hjob₂.mono (Steps.suffix (K := Only bookkeeping) hsteps₃)
        refine Ensures.bind redriveAccounting_spec ?_ ?_
        · intro _ w₄ hsteps₄
          exact createResultAndSpawn_spec
            (hjob₃.mono (Steps.suffix (K := Only [.quiet]) hsteps₄))
        · intro x w₄ hsteps₄
          exact Answered.of_bound
            (hjob₃.mono (Steps.suffix (K := Only [.quiet]) hsteps₄))
      · intro x w₃ hsteps₃
        exact Answered.of_bound
          (hjob₂.mono (Steps.suffix (K := Only bookkeeping) hsteps₃))
    · intro x w₂ hsteps₂ _
      exact Answered.of_bound
        (hjob.mono (Steps.suffix (K := Only recovery) hsteps₂))

/-! ### The branch that writes the record -/

/-- What `create_job` has established when it writes the record. -/
structure Admitted (D : Deployment) (c : CreateCall) (q : Nat) (eventId : PyStr)
    (normalized : Json) (reservation : WalletRateReservation) (now : Int)
    (log : List Entry) : Prop where
  of : c.Of D q log
  unsettled : Unspent q log
  unleased : Absent q .ackLease log
  unfound : Absent q .found log
  event : competitionEventId D c.payment = some eventId
  request : normalizeRequest D c.request = some normalized
  clocked : Clocked q c.inst now log
  verified : verifyForCreate D c.header now = some (c.payment, false)
  reserved : Reserved q c.identity.jobId reservation log
  own : reservation.createdByCaller = true

variable {eventId : PyStr} {normalized : Json} {reservation : WalletRateReservation}
  {now : Int}

/-- The record of an admitted call. -/
def CreateCall.record (c : CreateCall) (D : Deployment) (eventId : PyStr)
    (normalized : Json) (reservation : WalletRateReservation) (now : Int) :
    JobRecord :=
  newRecord D (D.service c.inst).owner c.identity c.payment c.digest eventId
    normalized reservation now

/-- What was admitted is created with the record of the call. -/
theorem Admitted.created {w' : World}
    (h : Admitted D c q eventId normalized reservation now w.log)
    (hsuf : w.log <:+ w'.log) (hlease : Absent q .ackLease w'.log) :
    Created D c q w'.log (c.record D eventId normalized reservation now) := by
  obtain ⟨hid, hown⟩ := h.reserved
  obtain ⟨hstate, hdigest, hlo, hhi, put, n, hdid, hput, hwrite⟩ := hown h.own
  exact ⟨h.of.mono hsuf, hlease, eventId, normalized, reservation, now, h.event,
    h.request, rfl, Did.mono h.clocked hsuf, h.verified, hid, hstate, hdigest, hlo,
    hhi, put, n, hdid.mono hsuf, hput, hwrite⟩

/-- The record of an admitted call is bound to it. -/
theorem Admitted.bound
    (h : Admitted D c q eventId normalized reservation now w.log) :
    Bound D c (c.record D eventId normalized reservation now).reload :=
  ⟨rfl, rfl, normalized, h.request, Or.inl rfl⟩

/-- The create: the caller owns the record, or has found none. -/
theorem createRecord_admitted
    (h : Admitted D c q eventId normalized reservation now w.log)
    {ident : (c.record D eventId normalized reservation now).jobId =
      c.identity.jobId} :
    Ensures D q (createRecord D (c.record D eventId normalized reservation now)
      ident) w (fun created w' => w.log <:+ w'.log ∧ Absent q .found w'.log ∧
        Unspent q w'.log ∧ ∀ stored, created = .ok (some stored) →
          Holds D c q stored w'.log) := by
  refine (createRecord_spec ?_).mono ?_
  · intro w₁ hsteps hinv₁
    refine ⟨c, rfl, h.created hsteps.suffix (h.unleased.steps
      (Retried.steps hsteps) ?_)⟩
    simp [JobPut.tried, JobPut.takesLease]
  · have hrest : ∀ {w'}, Acts q [.lease, .ackLease] w w' → w.log <:+ w'.log ∧
        Absent q .found w'.log ∧ Unspent q w'.log := by
      intro w' hsteps
      exact ⟨hsteps.suffix, h.unfound.steps hsteps (by simp),
        h.unsettled.steps hsteps (by simp)⟩
    have hwiden : ∀ {w'}, Acts q [.lease] w w' → Acts q [.lease, .ackLease] w w' :=
      fun hsteps => hsteps.widen (by simp)
    rintro (x | _ | stored) w' hpost
    · obtain ⟨hsuf, hfound, hsettle⟩ := hrest (hwiden hpost)
      exact ⟨hsuf, hfound, hsettle, by simp⟩
    · obtain ⟨hsuf, hfound, hsettle⟩ := hrest (hwiden hpost)
      exact ⟨hsuf, hfound, hsettle, by simp⟩
    · obtain ⟨hsteps, hknown, hrecord, hleased⟩ := hpost
      obtain ⟨hsuf, hfound, hsettle⟩ := hrest hsteps
      refine ⟨hsuf, hfound, hsettle, ?_⟩
      intro stored' heq
      cases heq
      refine ⟨h.of.mono hsuf, hknown, hleased, ?_, ?_⟩
      · rw [stored.agrees, hrecord]
        exact h.bound
      · rw [hrecord]
        exact ⟨rfl, rfl⟩

/-- A record that another process has created is checked as one found. -/
theorem readCreated_spec (hnormalized : normalizeRequest D c.request = some normalized)
    (habsent : Absent q .found w.log) :
    Ensures D q (readCreated D c.identity c.payment c.digest normalized) w
      (Outcome D c q) := by
  have hmissed : ∀ {x : Exn} {w' : World}, Acts q [.missed] w w' →
      Answered D c q x w'.log :=
    fun hsteps => Answered.of_absent (habsent.steps hsteps (by simp))
  refine Ensures.attempt readJob_spec ?_
  rintro (x | _ | stored) w₁ h
  · cases x
    all_goals exact Ensures.throw (hmissed h)
  · exact Ensures.throw (hmissed h)
  · obtain ⟨-, hfound⟩ : Acts q [.found] w w₁ ∧ FoundJob q stored w₁.log := h
    refine Ensures.bind (requireBinding_spec hfound hnormalized) ?_
      (fun _ _ h => h.2)
    rintro _ w₂ ⟨rfl, hbound⟩
    exact (createResult_spec ⟨stored.tag, hfound.known, hbound⟩).mono
      (fun _ _ h => h.2)

/-- **An admitted job** is created, settled and spawned for its own call. -/
theorem admitJob_spec (hinv : Inv D w)
    (h : Admitted D c q eventId normalized reservation now w.log) :
    Ensures D q (admitJob D c.inst c.identity c.payment c.header c.digest eventId
      normalized reservation now) w (Outcome D c q) := by
  refine Ensures.attempt_inv hinv (createRecord_admitted h) ?_
  rintro created w₁ ⟨hsuf, hfound, hsettle, hown⟩ hinv₁
  refine Ensures.bind_inv hinv₁ interrupted_spec ?_
    (fun _ _ hfalse _ => hfalse.elim)
  intro cancelled w₂ hsteps hinv₂
  have hsteps : Acts q [.quiet] w₁ w₂ := hsteps
  have hfound₂ := hfound.steps hsteps (by simp)
  have hsettle₂ := hsettle.steps hsteps (by simp)
  cases cancelled with
  | true => exact Ensures.throw (Answered.of_absent hfound₂)
  | false =>
      rcases created with x | _ | stored
      · cases x
        case cancelled => exact Ensures.throw (Answered.of_absent hfound₂)
        all_goals exact readCreated_spec h.request hfound₂
      · exact observed_spec h.request hfound₂
      · have hholds := (hown stored rfl).mono hsteps.suffix
        have hjob : BoundJob D c w₂.log :=
          ⟨stored.tag, hholds.known, hholds.bound⟩
        refine Ensures.bind_inv hinv₂ confirm_spec ?_ ?_
        · intro _ w₃ hsteps₃ hinv₃
          have hsteps₃ : Acts q [.quiet] w₂ w₃ := hsteps₃
          have hsuf₃ := hsteps₃.suffix
          refine Ensures.bind (settleAndTransition_spec hinv₃ (hholds.mono hsuf₃)
            (hsettle₂.steps hsteps₃ (by simp))) ?_ ?_
          · rintro settled w₄ ⟨hsteps₄, -⟩
            have hjob₄ := (hjob.mono hsuf₃).mono hsteps₄.suffix
            refine Ensures.bind redriveAccounting_spec ?_ ?_
            · intro _ w₅ hsteps₅
              exact createResultAndSpawn_spec
                (hjob₄.mono (Steps.suffix (K := Only [.quiet]) hsteps₅))
            · intro x w₅ hsteps₅
              exact Answered.of_bound
                (hjob₄.mono (Steps.suffix (K := Only [.quiet]) hsteps₅))
          · intro x w₄ hsteps₄
            exact Answered.of_bound ((hjob.mono hsuf₃).mono
              (Steps.suffix (K := Only settlement) hsteps₄))
        · intro x w₃ hsteps₃ _
          exact Answered.of_bound
            (hjob.mono (Steps.suffix (K := Only [.quiet]) hsteps₃))

/-- The branch of `create_job` that finds no record. -/
theorem startJob_spec {expired : Bool} (hinv : Inv D w) (hof : c.Of D q w.log)
    (hsettle : Unspent q w.log) (hlease : Absent q .ackLease w.log)
    (hfound : Absent q .found w.log) (hclock : Clocked q c.inst now w.log)
    (hverified : verifyForCreate D c.header now = some (c.payment, expired)) :
    Ensures D q (startJob D c.inst c.identity c.payment c.header c.digest c.request
      expired now) w (Outcome D c q) := by
  unfold startJob
  split
  · exact Ensures.throw (Answered.of_absent hfound)
  · rename_i hexpired
    rw [Bool.not_eq_true] at hexpired
    subst hexpired
    split
    · exact Ensures.throw (Answered.of_absent hfound)
    · split
      · exact Ensures.throw (Answered.of_absent hfound)
      · rename_i normalized hnormalized
        split
        · exact Ensures.throw (Answered.of_absent hfound)
        · rename_i eventId hevent
          refine Ensures.bind_inv hinv reserve_spec ?_ ?_
          · rintro reservation w₁ ⟨hsteps, hreserved⟩ hinv₁
            have hfound₁ := hfound.steps hsteps (by simp)
            split
            · exact observed_spec hnormalized hfound₁
            · rename_i hown
              exact admitJob_spec hinv₁ ⟨hof.mono hsteps.suffix,
                hsettle.steps hsteps (by simp), hlease.steps hsteps (by simp),
                hfound₁, hevent, hnormalized, Did.mono hclock hsteps.suffix,
                hverified, hreserved, by simpa using hown⟩
          · intro x w₁ hsteps _
            exact Answered.of_absent (hfound.steps (L := [.quiet]) hsteps (by simp))

/-- How a call of `create_job` ends, whether or not it got to its identity. -/
def Ended (D : Deployment) (q : Nat) : Except Exn CreateJobResult → World → Prop :=
  Post (fun result w' => ∃ c : CreateCall, c.Of D q w'.log ∧ BoundJob D c w'.log ∧
      result.jobId = c.identity.jobId ∧ result.jobToken = c.identity.jobToken)
    (fun x w' => Absent q .found w'.log ∨
      ∃ c : CreateCall, c.Of D q w'.log ∧ Answered D c q x w'.log)

/-- `create_job`. -/
theorem createJob_spec {header : PyStr} {request : List (PyStr × Json)}
    (hinv : Inv D w)
    (hcalled : Did q (.note (.createCalled inst header request)) () false w.log)
    (hsettle : Unspent q w.log) (hlease : Absent q .ackLease w.log)
    (hfound : Absent q .found w.log) :
    Ensures D q (createJob D inst header request) w (Ended D q) := by
  refine Ensures.bind_inv hinv clock_spec ?_ (fun _ _ hfalse _ => hfalse.elim)
  rintro now w₁ ⟨hsteps, hclock⟩ hinv₁
  have hfound₁ := hfound.steps hsteps (by simp)
  split
  · exact Ensures.throw (Or.inl hfound₁)
  · rename_i payment expired hverified
    split
    · exact Ensures.throw (Or.inl hfound₁)
    · rename_i digest hdigest
      split
      · exact Ensures.throw (Or.inl hfound₁)
      · rename_i identity hidentity
        let c : CreateCall := ⟨inst, header, request, payment, digest, identity⟩
        have hof : c.Of D q w₁.log :=
          ⟨hcalled.mono hsteps.suffix, ⟨now, expired, hverified⟩, hdigest, hidentity⟩
        have hended : ∀ {w₂} {p : Co CreateJobResult}, w₁.log <:+ w₂.log →
            Ensures D q p w₂ (Outcome D c q) → Ensures D q p w₂ (Ended D q) := by
          intro w₂ p hsuf hp
          refine hp.log_mono.mono ?_
          rintro (x | result) w₃ ⟨h, hsuf₃⟩
          · exact Or.inr ⟨c, hof.mono (hsuf.trans hsuf₃), h⟩
          · exact ⟨c, hof.mono (hsuf.trans hsuf₃), h⟩
        refine Ensures.bind_inv hinv₁ readJob_spec ?_ ?_
        · rintro (_ | stored) w₂ h hinv₂
          · have hsteps₂ : Acts q [.missed] w₁ w₂ := h
            have hsteps' : Acts q [.quiet, .missed] w w₂ :=
              (hsteps.widen (by simp)).trans (hsteps₂.widen (by simp))
            exact hended hsteps₂.suffix (startJob_spec hinv₂
              (hof.mono hsteps₂.suffix) (hsettle.steps hsteps' (by simp))
              (hlease.steps hsteps' (by simp)) (hfound.steps hsteps' (by simp))
              (Did.mono hclock hsteps₂.suffix) hverified)
          · obtain ⟨hsteps₂, hrecord⟩ : Acts q [.found] w₁ w₂ ∧
              FoundJob q stored w₂.log := h
            have hsteps' : Acts q [.quiet, .found] w w₂ :=
              (hsteps.widen (by simp)).trans (hsteps₂.widen (by simp))
            exact hended hsteps₂.suffix (recoverJob_spec hinv₂
              (hof.mono hsteps₂.suffix) hrecord (hsettle.steps hsteps' (by simp))
              (hlease.steps hsteps' (by simp)))
        · intro x w₂ hsteps₂ _
          exact Or.inl (hfound₁.steps (L := [.missed]) hsteps₂ (by simp))

/-- The body of a call of `create_job`, from the moment it is called to the
moment it returns or raises. -/
theorem createJob_call {header : PyStr} {request : List (PyStr × Json)}
    (hinv : Inv D w) (hidle : Idle q w.log) :
    Ensures D q (callBody D (.createJob inst header request)) w
      (fun _ _ => True) := by
  refine Ensures.bind_inv hinv (note_spec (k := .moment) rfl ?_) ?_
    (fun _ _ hfalse _ => hfalse.elim)
  · intro w₁ hext _
    exact (contract D).fresh_ext hext hidle
  · rintro - w₁ ⟨hsteps, hcalled⟩ hinv₁
    have hnot : ∀ {k}, k ≠ .moment → Absent q k w₁.log := by
      intro k hk
      exact hidle.absent.steps hsteps (by simpa using hk)
    refine Ensures.attempt_inv hinv₁ (createJob_spec hinv₁ hcalled
      ⟨hnot (by simp), hnot (by simp), hnot (by simp)⟩ (hnot (by simp))
      (hnot (by simp))) ?_
    rintro (x | result) w₂ h hinv₂
    · refine (note_spec (k := .moment) rfl ?_).mono (fun _ _ _ => trivial)
      intro w₃ hext hinv₃ c hof hother
      have habsent : Absent q .found w₂.log → Absent q .found w₃.log := by
        intro hfound
        exact hfound.steps (L := []) (hext.mono fun _ _ hfalse => hfalse.elim)
          (by simp)
      have hclear : ∀ {c'}, Clear D c' q w₂.log → Clear D c' q w₃.log := by
        intro c' hc
        exact hc.imp habsent (Or.imp (fun h => h.mono hext.suffix)
          (fun h => h.mono hext.suffix))
      rcases h with hfound | ⟨c', hof', hclear' | hrefuse⟩
      · exact absurd hother (Clear.not_found (Or.inl (habsent hfound)) hinv₃.1)
      · obtain rfl := (hof'.mono hext.suffix).unique hof hinv₃.1
        exact absurd hother ((hclear hclear').not_found hinv₃.1)
      · obtain rfl := (hof'.mono hext.suffix).unique hof hinv₃.1
        exact hrefuse
    · refine (note_spec (k := .moment) rfl ?_).mono (fun _ _ _ => trivial)
      intro w₃ hext hinv₃
      obtain ⟨c, hof, hjob, hid, htoken⟩ := h
      exact ⟨c, hof.mono hext.suffix, hjob.mono hext.suffix, hid, htoken⟩

end X402
