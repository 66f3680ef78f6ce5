import StockAnalyst.RecordSize
import StockAnalyst.JobHistory
import StockAnalyst.ReportFencing

/-!
# Retryable failures

A failed record marked retryable has an attempt left, or its analysis gave an
empty response.  With an attempt left an undisturbed resume puts the job back
into the queue; after the last attempt it raises `attempts_exhausted`.
-/

namespace X402

open Python ConditionalStore Coroutine

variable {D : Deployment} {inst pid : Nat} {deadline : Int} {job token : PyStr}
  {w w' : World} {log : List Entry} {tag : Tag JobRecord}

/-! ## Retryable records -/

/-- What a retryable failure left in its record. -/
structure RetryableOk (r : JobRecord) : Prop where
  leaseOwner : r.leaseOwner = none
  leaseExpiresAt : r.leaseExpiresAt = none
  errorCode : ∃ code, r.errorCode = some code ∧
    (code = .analysisEmptyResponse ∨ r.attempt < maxExecutionAttempts)

/-- A transition that leaves a retryable record is the end of an analysis that
may be retried. -/
theorem JobWrite.retryable_ok {t : JobWrite} {r : JobRecord} (hguard : t.Guard r)
    (hold : JobWrite.Retryable r → RetryableOk r) (hnew : JobWrite.Retryable (t.apply r)) :
    RetryableOk (t.apply r) := by
  obtain ⟨hfailed, hretry⟩ := hnew
  have hsettling : r.status = .settling → r.status = .failed → False := by
    intro hs hf
    rw [hs] at hf
    cases hf
  cases t with
  | claimed owner now => exact (hsettling hguard.1.1 hfailed).elim
  | pending reference now => cases hfailed
  | settled reference eventId settledAt lease now =>
      simp only [JobWrite.apply, JobRecord.settled] at hfailed
      split at hfailed <;> cases hfailed
  | paymentFailed now => cases hretry
  | rateCommitted now => cases hfailed
  | rateReleased now => exact { hold ⟨hfailed, hretry⟩ with }
  | requeued now => cases hfailed
  | running owner now => cases hfailed
  | heartbeat owner now =>
      have hrunning : r.status = .running := hguard.1
      exact absurd (hrunning.symm.trans hfailed) (by decide)
  | succeeded owner now => cases hfailed
  | executionFailed owner code canRetry now =>
      obtain rfl : canRetry = true := Option.some.inj hretry
      exact ⟨rfl, rfl, code, rfl, hguard.2 rfl⟩

/-- **No failure is marked retryable after the last attempt**, unless its
analysis gave an empty response. -/
theorem Lawful.retryable_ok (h : Lawful D log) (hver : JobVersion job tag log)
    (hretry : JobWrite.Retryable tag.content) : RetryableOk tag.content := by
  refine h.version_induction (P := fun r => JobWrite.Retryable r → RetryableOk r) ?_ ?_ hver hretry
  · intro c q l record _ _ hcreated hretry
    obtain ⟨eventId, normalized, reservation, now, -, -, rfl, -⟩ := hcreated.made
    cases hretry.1
  · intro t r hr hguard
    exact JobWrite.retryable_ok hguard hr

/-- Every version fitted into the store. -/
theorem Lawful.version_encodable (h : Lawful D log) (hver : JobVersion job tag log) :
    encodable D.verify.lib tag.content = true := by
  obtain ⟨l, hl, hcur⟩ := hver
  obtain ⟨x, hx, hwrite⟩ := current_mem hcur
  obtain ⟨put, hput, -, hcontent⟩ := jobWrite_eq_some hwrite
  obtain ⟨newer, older, rfl⟩ := List.mem_iff_append.1 hx
  have hsuf : x :: older <:+ log := (List.suffix_append _ _).trans hl
  obtain ⟨q, l', -, -, -, hduty, -⟩ := (h.of_suffix hsuf).landing (jobPut_eq_some hput)
  rw [← hcontent]
  exact encodable_reload hduty.2

/-! ## Undisturbed runs -/

/-- Before an effect of a call that nothing disturbs, time passes and tasks of
the instances end. -/
inductive QuietStep : World → World → Prop
  | tick {w : World} {time : Int} (h : w.time ≤ time) : QuietStep w { w with time := time }
  | ended {w : World} (q : Nat) (kind : TaskKind) (inst : Nat) (job : PyStr) :
      QuietStep w (w.record (.did q (.taskDone kind inst job) () false))

def Quiet : World → World → Prop := Relation.ReflTransGen QuietStep

/-- A reply where nothing goes wrong: clocks are before the deadline, the store
answers, and it refuses a write only for its precondition. -/
def Calm (deadline : Int) : (e : Eff) → World → Resp e → Prop
  | .clock _, _, now => 0 ≤ now ∧ now < deadline ∧ now < 10 ^ 13
  | .interrupted, _, cancelled => cancelled = false
  | .getJob _, _, found => ∃ stored, found = .ok stored
  | .putJob put, w, r => (∃ serial, r = .done serial) ∨ (r = .preconditionFailed ∧
      (jobTag put.job w.log).map (·.serial) ≠ put.expect.map (·.serial))
  | .getMarker _, _, found => ∃ marker, found = .ok marker
  | .joinTask _ _, _, r => r = .ok ()
  | _, _, _ => True

/-- What an undisturbed run of process `pid` comes to. -/
def Undisturbed {α : Type} (pid : Nat) (deadline : Int) (p : Co α) (w : World)
    (Q : Except Exn α → World → Prop) : Prop :=
  p.prog.Assured Quiet (fun e w r w' => React pid e w r w' ∧ Calm deadline e w r) w Q

/-- An undisturbed run that returns what `P` holds of and leaves the record of
the job as it is. -/
def Replies {α : Type} (pid : Nat) (deadline : Int) (job : PyStr) (tag : Tag JobRecord)
    (p : Co α) (w : World) (P : α → Prop) : Prop :=
  Undisturbed pid deadline p w fun out w' =>
    (∃ a, out = .ok a ∧ P a) ∧ jobTag job w'.log = some tag

section rules

variable {α β : Type}

/-- A program whose value has `P`, and what follows. -/
theorem Replies.bind {p : Co α} {f : α → Co β} {P : α → Prop} {Q : Except Exn β → World → Prop}
    (hp : Replies pid deadline job tag p w P)
    (hf : ∀ a w', P a → jobTag job w'.log = some tag → Undisturbed pid deadline (f a) w' Q) :
    Undisturbed pid deadline (p >>= f) w Q := by
  refine Async.assured_bind hp ?_ ?_
  · intro a w' ha
    obtain ⟨⟨a', heq, hP⟩, htag⟩ := ha
    obtain rfl := Except.ok.inj heq
    exact hf a w' hP htag
  · intro x w' hx
    obtain ⟨⟨a', heq, -⟩, -⟩ := hx
    cases heq

/-- A program that does not throw, caught. -/
theorem Replies.attempt {p : Co α} {P : α → Prop} (hp : Replies pid deadline job tag p w P) :
    Replies pid deadline job tag (Async.attempt p) w (fun r => ∃ a, r = .ok a ∧ P a) := by
  refine (Async.assured_attempt hp).mono ?_
  intro out w' hout
  obtain ⟨r, rfl, ha, htag⟩ := hout
  exact ⟨⟨r, rfl, ha⟩, htag⟩

/-- A value that is returned. -/
theorem Replies.pure {a : α} {P : α → Prop} (htag : jobTag job w.log = some tag) (h : P a) :
    Replies pid deadline job tag (pure a) w P := ⟨⟨a, rfl, h⟩, htag⟩

end rules

/-- Others that are quiet leave the job's record. -/
theorem Quiet.jobTag_eq (h : Quiet w w') : jobTag job w'.log = jobTag job w.log := by
  induction h with
  | refl => rfl
  | tail _ hstep ih =>
      cases hstep with
      | tick htime => exact ih
      | ended q kind inst job' => exact (current_cons_none rfl).trans ih

/-- An act that puts no job leaves its record. -/
theorem React.jobTag_eq {e : Eff} {r : Resp e} (h : React pid e w r w') (he : e.jobPut = none) :
    jobTag job w'.log = jobTag job w.log := by
  obtain ⟨landed, -, rfl⟩ := h
  refine current_cons_none ?_
  cases landed with
  | false => rfl
  | true => simp [Entry.jobWrite, Entry.jobPut, Event.landing, he]

/-- An effect other than a job write: some calm reply can come, and every one
is what `P` says. -/
theorem replies_await {α : Type} {e : Eff} {reply : Resp e → Except Exn α} {P : α → Prop}
    (hput : e.jobPut = none) (htag : jobTag job w.log = some tag)
    (hsome : ∃ w₁ r w', Quiet w w₁ ∧ React pid e w₁ r w' ∧ Calm deadline e w₁ r)
    (hall : ∀ w₁ r landed, jobTag job w₁.log = some tag → Answer e w₁ r landed →
      Calm deadline e w₁ r → ∃ a, reply r = .ok a ∧ P a) :
    Replies pid deadline job tag (Async.await e reply) w P := by
  refine And.intro hsome ?_
  intro w₁ r w' hquiet hanswer
  obtain ⟨hreact, hcalm⟩ := hanswer
  have htag₁ : jobTag job w₁.log = some tag := hquiet.jobTag_eq.trans htag
  obtain ⟨landed, hpossible, -⟩ := id hreact
  exact ⟨hall w₁ r landed htag₁ hpossible hcalm, (hreact.jobTag_eq hput).trans htag₁⟩

/-! ## What undisturbed calls do -/

/-- An effect that is answered at once. -/
theorem React.now {e : Eff} {r : Resp e} (h : Answer e w r false) :
    React pid e w r (w.record (.did pid e r false)) := ⟨false, h, rfl⟩

section calls

variable (hlive : 0 < deadline) (htag : jobTag job w.log = some tag)

include htag

include hlive in
/-- The clock shows a time before the deadline. -/
theorem clock_undisturbed :
    Replies pid deadline job tag (clock inst) w (fun now => 0 ≤ now ∧ now < deadline ∧
      now < 10 ^ 13) := by
  have hzero : Calm deadline (.clock inst) w (0 : Int) := ⟨le_refl _, hlive, by norm_num⟩
  refine replies_await rfl htag ⟨w, (0 : Int), _, .refl, React.now rfl, hzero⟩ ?_
  intro w₁ now landed _ _ hcalm
  exact ⟨now, rfl, hcalm⟩

/-- Nobody asks the process to stop. -/
theorem interrupted_undisturbed :
    Replies pid deadline job tag interrupted w (fun cancelled => cancelled = false) := by
  refine replies_await rfl htag ⟨w, false, _, .refl, React.now rfl, rfl⟩ ?_
  intro w₁ cancelled landed _ _ hcalm
  exact ⟨cancelled, rfl, hcalm⟩

/-- The record that is read is the one stored. -/
theorem readJob_undisturbed (hid : isJobId job = true) :
    Replies pid deadline job tag (readJob job) w (fun found => ∃ stored, found = some stored ∧
      stored.tag = tag ∧ stored.record = tag.content) := by
  unfold readJob
  rw [hid, Bool.not_true, if_neg Bool.false_ne_true]
  refine replies_await rfl htag
    ⟨w, .ok (jobAt job w.log), _, .refl, React.now ⟨rfl, rfl⟩, ⟨_, rfl⟩⟩ ?_
  intro w₁ found landed htag₁ hanswer hcalm
  obtain ⟨stored, rfl⟩ := hcalm
  refine ⟨stored, rfl, ?_⟩
  have hread : stored = jobAt job w₁.log := hanswer.1
  cases hat : jobAt job w₁.log with
  | none => exact absurd ((jobAt_none hat).symm.trans htag₁) (by simp)
  | some current =>
      obtain ⟨htag', hrecord⟩ := jobAt_some hat
      obtain rfl := Option.some.inj (htag'.symm.trans htag₁)
      exact ⟨current, hread.trans hat, rfl, hrecord⟩

/-- A fork is answered. -/
theorem fork_undisturbed (call : Call) :
    Replies pid deadline job tag (Async.await (.fork call) .ok) w (fun _ => True) := by
  refine replies_await rfl htag ⟨w, (), _, .refl, React.now rfl, trivial⟩ ?_
  intro w₁ r landed _ _ _
  exact ⟨r, rfl, trivial⟩

/-- Spawning a task returns. -/
theorem spawnTask_undisturbed (kind : TaskKind) (job' : PyStr) (call : Call) :
    Replies pid deadline job tag (spawnTask inst kind job' call) w (fun _ => True) := by
  have hspawn : Replies pid deadline job tag (Async.await (.spawnTask kind inst job') .ok) w
      (fun _ : Bool => True) := by
    refine replies_await rfl htag ⟨w, _, _, .refl, React.now ⟨rfl, rfl⟩, trivial⟩ ?_
    intro w₁ r landed _ _ _
    exact ⟨r, rfl, trivial⟩
  refine hspawn.bind ?_
  intro spawned w₁ _ htag₁
  cases spawned with
  | true => exact fork_undisturbed htag₁ call
  | false => exact Replies.pure htag₁ trivial

/-- Spawning the execution returns. -/
theorem spawn_undisturbed (job' : PyStr) :
    Replies pid deadline job tag (spawn inst job') w (fun _ => True) :=
  spawnTask_undisturbed htag _ _ _

/-- Handing a job over returns. -/
theorem handoffAndSpawn_undisturbed :
    Replies pid deadline job tag (handoffAndSpawn inst job) w (fun _ => True) := by
  have hactive : Replies pid deadline job tag (Async.await (.taskActive inst job) .ok) w
      (fun _ : Bool => True) := by
    refine replies_await rfl htag ⟨w, _, _, .refl, React.now ⟨rfl, rfl⟩, trivial⟩ ?_
    intro w₁ r landed _ _ _
    exact ⟨r, rfl, trivial⟩
  refine hactive.bind ?_
  intro active w₁ _ htag₁
  cases active with
  | false => exact spawn_undisturbed htag₁ job
  | true =>
      -- the task of this instance ends while the call waits for it
      let w₂ := w₁.record (.did pid (.taskDone .execution inst job) () false)
      have hended : Quiet w₁ w₂ := .single (.ended pid .execution inst job)
      have hidle : taskActiveAt .execution inst job w₂.log = false := by
        simp [w₂, World.record, taskActiveAt]
      have hjoin : Replies pid deadline job tag (Async.await (.joinTask inst job) orFault) w₁
          (fun _ => True) := by
        refine replies_await rfl htag₁
          ⟨w₂, .ok (), _, hended, React.now ⟨fun _ => hidle, rfl⟩, rfl⟩ ?_
        intro w₃ r landed _ _ hcalm
        obtain rfl := hcalm
        exact ⟨(), rfl, trivial⟩
      refine hjoin.bind ?_
      intro _ w₃ _ htag₃
      exact spawn_undisturbed htag₃ job

/-- Driving the accounting again returns. -/
theorem redriveAccounting_undisturbed (hid : isJobId job = true) (stored : StoredJob job) :
    Replies pid deadline job tag (redriveAccounting inst stored) w (fun _ => True) := by
  have hspawn : ∀ {w₁ : World} (delay : Bool), jobTag job w₁.log = some tag →
      Replies pid deadline job tag (spawnAccounting inst job delay) w₁ (fun _ => True) := by
    intro w₁ delay htag₁
    unfold spawnAccounting
    split
    · exact Replies.pure htag₁ trivial
    · exact spawnTask_undisturbed htag₁ _ _ _
  unfold redriveAccounting
  by_cases hpending : (!accountingIsPending stored.record) = true
  · rw [if_pos hpending]
    exact Replies.pure htag trivial
  rw [if_neg hpending]
  have hmarker : Replies pid deadline job tag (readAccountingMarker job) w (fun _ => True) := by
    unfold readAccountingMarker
    rw [hid, Bool.not_true, if_neg Bool.false_ne_true]
    refine replies_await rfl htag
      ⟨w, .ok (markerAt job w.log), _, .refl, React.now ⟨rfl, rfl⟩, ⟨_, rfl⟩⟩ ?_
    intro w₁ found landed _ _ hcalm
    obtain ⟨marker, rfl⟩ := hcalm
    exact ⟨marker, rfl, trivial⟩
  refine hmarker.attempt.bind ?_
  intro result w₁ hresult htag₁
  obtain ⟨marker, rfl, -⟩ := hresult
  cases marker with
  | none => exact hspawn false htag₁
  | some marker => exact Replies.pure htag₁ trivial

include hlive in
/-- **A job is authorized** by its token while it has not expired. -/
theorem authorizedJob_undisturbed (hid : isJobId job = true)
    (htoken : tokenMatches D tag.content token = some true)
    (hexpires : deadline ≤ tag.content.expiresAt) :
    Replies pid deadline job tag (authorizedJob D inst job token) w (fun stored =>
      stored.tag = tag ∧ stored.record = tag.content) := by
  unfold authorizedJob
  rw [hid, Bool.not_true, if_neg Bool.false_ne_true]
  refine (readJob_undisturbed htag hid).bind ?_
  intro found w₁ hfound htag₁
  obtain ⟨stored, rfl, hsame, hrecord⟩ := hfound
  dsimp only
  rw [hrecord, htoken]
  refine (clock_undisturbed hlive htag₁).bind ?_
  intro now w₂ hnow htag₂
  rw [if_neg (by omega)]
  exact Replies.pure htag₂ ⟨hsame, hrecord⟩

include hlive in
/-- Reading a queued job. -/
theorem getJob_undisturbed (hid : isJobId job = true)
    (htoken : tokenMatches D tag.content token = some true)
    (hexpires : deadline ≤ tag.content.expiresAt) (hqueued : tag.content.status = .queued) :
    Replies pid deadline job tag (getJob D inst job token) w (fun view =>
      view.jobId = job ∧ view.status = .queued) := by
  refine (authorizedJob_undisturbed hlive htag hid htoken hexpires).bind ?_
  intro stored w₁ hstored htag₁
  have hstatus : stored.record.status = .queued := by rw [hstored.2, hqueued]
  rw [if_pos hstatus]
  refine (spawn_undisturbed htag₁ job).bind ?_
  intro _ w₂ _ htag₂
  refine (redriveAccounting_undisturbed htag₂ hid stored).bind ?_
  intro _ w₃ _ htag₃
  unfold jobView
  simp only [hstatus]
  exact Replies.pure htag₃ ⟨rfl, rfl⟩

/-- A conditional write on the current version lands. -/
theorem replace_undisturbed (hid : isJobId job = true) {stored : StoredJob job}
    (hsame : stored.tag = tag) (hrecord : stored.record = tag.content) {t : JobWrite}
    (hencodes : encodable D.verify.lib (t.apply tag.content) = true) :
    Undisturbed pid deadline (replace D stored t) w (fun out w' =>
      (∃ new, out = .ok new) ∧
        jobTag job w'.log = some ⟨tag.serial + 1, t.apply tag.content⟩) := by
  obtain ⟨record, tag', agrees, ident⟩ := stored
  obtain rfl : tag' = tag := hsame
  obtain rfl : record = tag'.content := hrecord
  have hcontent : (t.apply tag'.content).reload = t.apply tag'.content := by
    rw [t.apply_reload, ← agrees]
  have hserial : jobSerial job w.log = tag'.serial := serial_of_current htag
  unfold replace
  dsimp only
  rw [hencodes, hid, Bool.not_true, if_neg Bool.false_ne_true, if_neg Bool.false_ne_true]
  let put : JobPut := ⟨job, some t, some tag', t.apply tag'.content,
    (JobWrite.apply_jobId t tag'.content).trans ident⟩
  have hput : Undisturbed pid deadline
      (conditionalPut (Async.await (.putJob put) .ok) conditionalPutAttempts) w (fun out w' =>
        ∃ serial, out = .ok (some serial) ∧
          jobTag job w'.log = some ⟨tag'.serial + 1, t.apply tag'.content⟩) := by
    refine And.intro ?_ ?_
    · have hcurrent : (jobTag job w.log).map (·.serial) = some tag'.serial := by rw [htag]; rfl
      exact ⟨w, .done (jobSerial job w.log + 1), _, .refl, ⟨true, .done hcurrent, rfl⟩,
        Or.inl ⟨_, rfl⟩⟩
    · intro w₁ r w' hquiet hanswer
      obtain ⟨⟨landed, hputs, rfl⟩, hcalm⟩ := hanswer
      have htag₁ : jobTag job w₁.log = some tag' := hquiet.jobTag_eq.trans htag
      have hserial₁ : jobSerial job w₁.log = tag'.serial := serial_of_current htag₁
      obtain ⟨serial, rfl⟩ | ⟨-, hrefused⟩ := hcalm
      · obtain ⟨rfl, -, -⟩ := Puts.done_landed hputs
        have hwrites : Entry.jobPut ⟨w₁.time, .did pid (.putJob put) (.done serial) true⟩ =
            some put := rfl
        have hlanded : jobTag job (w₁.record (.did pid (.putJob put) (.done serial) true)).log =
            some ⟨jobSerial job w₁.log + 1, put.record.reload⟩ := jobTag_cons_put hwrites
        refine ⟨serial, rfl, ?_⟩
        rw [hlanded, hserial₁, hcontent]
      · exact absurd (by rw [htag₁]) hrefused
  refine Async.assured_bind hput ?_ ?_
  · intro done w' hdone
    obtain ⟨serial, heq, hlanded⟩ := hdone
    obtain rfl := Except.ok.inj heq
    exact ⟨⟨_, rfl⟩, hlanded⟩
  · intro x w' hx
    obtain ⟨serial, heq, -⟩ := hx
    cases heq

end calls

/-! ## Resuming -/

/-- The attempts of a failed record decide what a resume does. -/
theorem resumeJob_undisturbed (hlive : 0 < tag.content.expiresAt)
    (htag : jobTag job w.log = some tag) (hid : isJobId job = true)
    (htoken : tokenMatches D tag.content token = some true)
    (hretry : JobWrite.Retryable tag.content)
    (hencodes : ∀ now, 0 ≤ now → now < 10 ^ 13 →
      encodable D.verify.lib (tag.content.requeued now) = true) :
    Undisturbed pid tag.content.expiresAt (resumeJob D inst job token) w (fun out w' =>
      if tag.content.attempt < maxExecutionAttempts then
        (∃ view, out = .ok view ∧ view.jobId = job ∧ view.status = .queued) ∧
          ∃ now, jobTag job w'.log = some ⟨tag.serial + 1, tag.content.requeued now⟩
      else out = .error (.job .attemptsExhausted false) ∧ jobTag job w'.log = some tag) := by
  refine (authorizedJob_undisturbed hlive htag hid htoken (le_refl _)).bind ?_
  intro stored w₁ hstored htag₁
  obtain ⟨hsame, hrecord⟩ := hstored
  refine (redriveAccounting_undisturbed htag₁ hid stored).bind ?_
  intro _ w₂ _ htag₂
  refine (clock_undisturbed hlive htag₂).bind ?_
  intro now w₃ hnow htag₃
  dsimp only
  rw [hrecord]
  by_cases hattempt : tag.content.attempt < maxExecutionAttempts
  · have hqueued : tag.content.status ≠ .queued := by
      rw [hretry.1]
      decide
    simp only [if_pos hattempt]
    have hallowed : (tag.content.status = .running ∧
        tag.content.updatedAt ≤ now - staleMilliseconds) ∨
        (tag.content.status = .failed ∧ tag.content.retryable = some true) := Or.inr hretry
    rw [if_neg (not_le.2 hattempt), if_neg hqueued, if_pos hallowed]
    -- The write of the resume, and the hand-over to a worker.
    have happly : Undisturbed pid tag.content.expiresAt
        (Async.attempt (applyResumeAndHandoff D inst stored now)) w₃ (fun out w' =>
          out = .ok (.ok ()) ∧
            jobTag job w'.log = some ⟨tag.serial + 1, tag.content.requeued now⟩) := by
      have hreplace : Undisturbed pid tag.content.expiresAt (replace D stored (.requeued now)) w₃
          (fun out w' => (∃ new, out = .ok new) ∧
            jobTag job w'.log = some ⟨tag.serial + 1, tag.content.requeued now⟩) :=
        replace_undisturbed htag₃ hid hsame hrecord (hencodes now hnow.1 hnow.2.2)
      have hhandoff : Undisturbed pid tag.content.expiresAt
          (applyResumeAndHandoff D inst stored now) w₃ (fun out w' => out = .ok () ∧
            jobTag job w'.log = some ⟨tag.serial + 1, tag.content.requeued now⟩) := by
        refine Async.assured_bind (Async.assured_attempt hreplace) ?_ ?_
        · intro r w₄ hr
          obtain ⟨r', heq, ⟨new, rfl⟩, hlanded⟩ := hr
          obtain rfl := Except.ok.inj heq
          have hspawned : Replies pid tag.content.expiresAt job _ (handoffAndSpawn inst job) w₄
              (fun _ => True) := handoffAndSpawn_undisturbed hlanded
          refine Prog.Assured.mono hspawned ?_
          intro out w₅ hout
          obtain ⟨⟨u, rfl, -⟩, hkept⟩ := hout
          exact ⟨rfl, hkept⟩
        · intro x w₄ hx
          obtain ⟨r', heq, -⟩ := hx
          cases heq
      refine (Async.assured_attempt hhandoff).mono ?_
      intro out w' hout
      obtain ⟨r', rfl, rfl, hlanded⟩ := hout
      exact ⟨rfl, hlanded⟩
    refine Async.assured_bind happly ?_ ?_
    · intro result w₄ hresult
      obtain ⟨heq, hlanded⟩ := hresult
      obtain rfl := Except.ok.inj heq
      refine (interrupted_undisturbed hlanded).bind ?_
      intro cancelled w₅ hcancelled htag₅
      obtain rfl := hcancelled
      have hget : Replies pid tag.content.expiresAt job _ (getJob D inst job token) w₅
          (fun view => view.jobId = job ∧ view.status = .queued) :=
        getJob_undisturbed hlive htag₅ hid htoken (le_refl _) rfl
      refine Prog.Assured.mono hget ?_
      intro out w' hout
      obtain ⟨hview, hkept⟩ := hout
      exact ⟨hview, now, hkept⟩
    · intro x w₄ hx
      cases hx.1
  · rw [if_pos (not_lt.1 hattempt)]
    simp only [if_neg hattempt]
    exact ⟨rfl, htag₃⟩

variable (inst pid) in
/-- The attempts of a retryable record decide what a resume does, in every
reachable state. -/
theorem Reachable.resume_undisturbed {s : Config (service D)} (h : Reachable D s)
    (hstored : jobTag job s.world.log = some tag) (hretry : JobWrite.Retryable tag.content)
    (hlive : 0 < tag.content.expiresAt)
    (htoken : tokenMatches D tag.content token = some true) :
    Undisturbed pid tag.content.expiresAt (resumeJob D inst job token) s.world (fun out w' =>
      if tag.content.attempt < maxExecutionAttempts then
        (∃ view, out = .ok view ∧ view.jobId = job ∧ view.status = .queued) ∧
          ∃ now, jobTag job w'.log = some ⟨tag.serial + 1, tag.content.requeued now⟩
      else out = .error (.job .attemptsExhausted false) ∧ jobTag job w'.log = some tag) := by
  have hver : JobVersion job tag s.world.log := Version.of_current hstored
  obtain ⟨howner, hlease, code, hcode, -⟩ := h.lawful.retryable_ok hver hretry
  have hid : isJobId job = true := by
    rw [← (jobTag_content hstored).2]
    exact (h.lawful.version_ok hver).jobId
  refine resumeJob_undisturbed hlive hstored hid htoken hretry ?_
  intro now hlow hhigh
  exact encodable_requeued (h.lawful.version_encodable hver) hretry.1 howner hlease hcode
    hretry.2 hlow hhigh

/-! ## Runs of the sample deployment -/

/-- A worker claims the sample job, gets three empty streams and gives up, and
its heartbeat is cancelled. -/
def emptyAnalysis (worker heartbeat : Nat) (token : PyStr) : List Choice :=
  .act worker (.token token) :: plainly worker 8 ++ .act worker (.stream []) ::
    plainly worker 1 ++ .act worker (.stream []) :: plainly worker 1 ++
    .act worker (.stream []) :: plainly worker 1 ++
    .act heartbeat (.fault .cancelled false) :: plainly heartbeat 1 ++ plainly worker 8

/-- The buyer resumes the sample job, as process `pid`. -/
def resumeSample (pid : Nat) : List Choice :=
  .start (.resumeJob 0 sampleJob sampleJobToken) :: plainly pid 15

/-- The first analysis of the sample job gives an empty response. -/
def emptyOnceScript : List Choice :=
  paidScript ++ emptyAnalysis 2 3 (py "00000000000000000000000000000001")

/-- All three analyses of the sample job give empty responses. -/
def emptyThriceScript : List Choice :=
  emptyOnceScript ++ resumeSample 4 ++
    emptyAnalysis 5 6 (py "00000000000000000000000000000002") ++ resumeSample 7 ++
    emptyAnalysis 8 9 (py "00000000000000000000000000000003")

/-- The sample job failed after this many attempts, may be retried and has not
expired. -/
def retryableAfter (attempts : Int) (s : Config (service sample)) : Bool :=
  (jobTag sampleJob s.world.log).any fun tag =>
    tag.content.status = .failed && tag.content.retryable = some true &&
      tag.content.attempt = attempts && decide (0 < tag.content.expiresAt) &&
      tokenMatches sample tag.content sampleJobToken = some true

/-- What the check of a state says of the record in it. -/
theorem retryableAfter_iff {attempts : Int} {s : Config (service sample)}
    (h : retryableAfter attempts s = true) :
    ∃ tag, jobTag sampleJob s.world.log = some tag ∧ tag.content.status = .failed ∧
      tag.content.retryable = some true ∧ tag.content.attempt = attempts ∧
      0 < tag.content.expiresAt ∧
      tokenMatches sample tag.content sampleJobToken = some true := by
  obtain ⟨tag, htag, hcheck⟩ := (Option.any_eq_true _ _).1 h
  simp only [Bool.and_eq_true, decide_eq_true_eq] at hcheck
  obtain ⟨⟨⟨⟨hfailed, hretry⟩, hattempt⟩, hlive⟩, htoken⟩ := hcheck
  exact ⟨tag, htag, hfailed, hretry, hattempt, hlive, htoken⟩

theorem emptyOnce_run :
    (playSample emptyOnceScript).any (retryableAfter 1) = true := by decide +kernel

theorem emptyThrice_run :
    (playSample emptyThriceScript).any (retryableAfter 3) = true := by decide +kernel

/-! ## Retryable means resumable -/

/-- **A retryable failure can be resumed, up to its last attempt.**  With an
attempt left, an undisturbed resume of an unexpired job puts it back into the
queue.  Without one the analysis gave an empty response, and the resume raises
`attempts_exhausted` and leaves the record alone. -/
theorem retryable_resumable {s : Config (service D)} (h : Reachable D s)
    (hstored : jobTag job s.world.log = some tag) (hfailed : tag.content.status = .failed)
    (hretryable : tag.content.retryable = some true) (hlive : 0 < tag.content.expiresAt)
    (htoken : tokenMatches D tag.content token = some true) :
    (tag.content.attempt < maxExecutionAttempts →
      Undisturbed pid tag.content.expiresAt (resumeJob D inst job token) s.world
        (fun out w' =>
          (∃ view, out = .ok view ∧ view.jobId = job ∧ view.status = .queued) ∧
          ∃ now, jobTag job w'.log = some ⟨tag.serial + 1, tag.content.requeued now⟩)) ∧
    (¬ tag.content.attempt < maxExecutionAttempts →
      tag.content.attempt = maxExecutionAttempts ∧
      tag.content.errorCode = some .analysisEmptyResponse ∧
      Undisturbed pid tag.content.expiresAt (resumeJob D inst job token) s.world
        (fun out w' => out = .error (.job .attemptsExhausted false) ∧
          jobTag job w'.log = some tag)) := by
  have hver : JobVersion job tag s.world.log := Version.of_current hstored
  have hretry : JobWrite.Retryable tag.content := ⟨hfailed, hretryable⟩
  obtain ⟨code, hcode, hcause⟩ := (h.lawful.retryable_ok hver hretry).errorCode
  have hresume := h.resume_undisturbed inst pid hstored hretry hlive htoken
  constructor
  · intro hattempt
    simpa only [if_pos hattempt] using hresume
  · intro hattempt
    have hlast := (h.lawful.version_ok hver).attempt.2
    obtain rfl | hmore := hcause
    · refine ⟨by omega, hcode, ?_⟩
      simpa only [if_neg hattempt] using hresume
    · exact absurd hmore hattempt

/-- After one empty analysis the job is resumed. -/
theorem retryable_resumable_once : ∃ s tag, Reachable sample s ∧
    jobTag sampleJob s.world.log = some tag ∧ tag.content.attempt = 1 ∧
    Undisturbed 4 tag.content.expiresAt (resumeJob sample 0 sampleJob sampleJobToken) s.world
      (fun out w' =>
        (∃ view, out = .ok view ∧ view.jobId = sampleJob ∧ view.status = .queued) ∧
        ∃ now, jobTag sampleJob w'.log = some ⟨tag.serial + 1, tag.content.requeued now⟩) := by
  obtain ⟨s, hreach, hcheck⟩ := exists_run _ _ emptyOnce_run
  obtain ⟨tag, htag, hfailed, hretry, hattempt, hlive, htoken⟩ := retryableAfter_iff hcheck
  refine ⟨s, tag, hreach, htag, hattempt, ?_⟩
  exact (retryable_resumable hreach htag hfailed hretry hlive htoken).1
    (by rw [hattempt]; decide)

/-- Three empty analyses leave a record that is marked retryable and that no
resume takes. -/
theorem retryable_exhausted : ∃ s tag, Reachable sample s ∧
    jobTag sampleJob s.world.log = some tag ∧ tag.content.status = .failed ∧
    tag.content.retryable = some true ∧ 0 < tag.content.expiresAt ∧
    tokenMatches sample tag.content sampleJobToken = some true ∧
    Undisturbed 10 tag.content.expiresAt (resumeJob sample 0 sampleJob sampleJobToken) s.world
      (fun out w' => out = .error (.job .attemptsExhausted false) ∧
        jobTag sampleJob w'.log = some tag) := by
  obtain ⟨s, hreach, hcheck⟩ := exists_run _ _ emptyThrice_run
  obtain ⟨tag, htag, hfailed, hretry, hattempt, hlive, htoken⟩ := retryableAfter_iff hcheck
  have hlast : ¬ tag.content.attempt < maxExecutionAttempts := by
    rw [hattempt]
    decide
  have hresume := hreach.resume_undisturbed 0 10 htag ⟨hfailed, hretry⟩
    hlive htoken
  simp only [if_neg hlast] at hresume
  exact ⟨s, tag, hreach, htag, hfailed, hretry, hlive, htoken, hresume⟩

end X402
