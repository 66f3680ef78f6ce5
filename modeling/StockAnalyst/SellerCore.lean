import StockAnalyst.NotifyContext
import Mathlib.Data.Finmap
import Mathlib.Logic.Function.Basic
import Mathlib.Logic.Relation
import Mathlib.Order.WithBot

/-!
# The seller's background delivery

`SellerCore` answers `notify_funded`, sweeps funded jobs and delivers each in a
background task.  One event loop runs all of it: what stands between two awaits
happens at once, and the segments of the calls, the tasks and the threads
interleave in any order.  A delivery runs in the task of its `_run_job`, whose
`wait_for` cancels it at the deadline, and a thread that submits runs on
whatever happens to its task.
-/

namespace Seller

open Python
open NotifySecurity (JobContext)

abbrev JobId := Int

theorem update_eq_some {α : Type} {f : Nat → Option α} {i k : Nat} {a b : α} :
    Function.update f i (some a) k = some b ↔ k = i ∧ b = a ∨ k ≠ i ∧ f k = some b := by
  rw [Function.update_apply]
  split
  · rename_i hk
    simp [hk, eq_comm]
  · rename_i hk
    simp [hk]

theorem update_none_eq_some {α : Type} {f : Nat → Option α} {i k : Nat} {b : α} :
    Function.update f i none k = some b ↔ k ≠ i ∧ f k = some b := by
  rw [Function.update_apply]
  split
  · rename_i hk
    simp [hk]
  · rename_i hk
    simp [hk]

/-! ## What the chain and the buyer say -/

/-- The provider-signed description of a job. -/
structure JobSpec where
  task : Json
  terms : Json

def contextRequiredCriterion : PyStr := py "uomp_notify_context_required_v1"

/-- `_requires_notify_context`. -/
def requiresNotifyContext (spec : Option JobSpec) : Bool :=
  match spec with
  | some ⟨_, .obj terms⟩ =>
      (dictGet terms (py "success_criteria")).any (Json.pyEq · (.str contextRequiredCriterion))
  | _ => false

/-! ## Tasks, threads and calls -/

/-- Where a `_run_job` task is: not started, or in one of its awaits. -/
inductive Stage where
  | created
  /-- `verify_signed_job_snapshot`. -/
  | verifying
  /-- `_report_funded_call`, with the spec of the snapshot. -/
  | reporting (spec : Option JobSpec)
  /-- `event.wait()`. -/
  | awaitingContext (spec : Option JobSpec)
  /-- `signing.job_spec`. -/
  | readingSpec (context : Option JobContext)
  /-- `_run_work`. -/
  | working (context : Option JobContext)
  /-- `_await_submit_task`, and whether it has been cancelled there. -/
  | submitting (context : Option JobContext) (thread : Nat) (cancelled : Bool)

/-- A live task of `_run_job`.  `promised` is the context of the call that
spawned it, where a call did. -/
structure Worker where
  job : JobId
  verified : Bool
  promised : Option JobContext
  stage : Stage

/-- How `submit_result` ends. -/
inductive SubmitOutcome where
  | landed
  | permanentlyUnsupported
  | sdkFailed (retryable : Bool)
  | failed
  deriving DecidableEq

/-- Whether the delivery is over with it, by the `except` clauses of
`_do_work_and_submit`. -/
def SubmitOutcome.terminal : SubmitOutcome → Bool
  | .landed => true
  | .permanentlyUnsupported => true
  | .sdkFailed retryable => !retryable
  | .failed => false

/-- A thread of `submit_result`, the worker that has started it and what it was
given; it runs while there is no outcome. -/
structure SubmitThread where
  worker : Nat
  job : JobId
  content : PyStr
  gatewayUrl : Option PyStr
  gatewayToken : Option PyStr
  outcome : Option SubmitOutcome

/-- What `verify_signed_job_snapshot` says of a job, for its worker. -/
inductive Verdict where
  | verified (spec : Option JobSpec)
  | refused (permanent : Bool)

/-- A call of `notify_funded` that has installed its context and reports the
funded job. -/
structure NotifyCall where
  job : JobId
  context : JobContext

/-- A call of `_run_work` and the worker that made it. -/
structure Work where
  worker : Nat
  job : JobId
  verified : Bool
  promised : Option JobContext
  context : Option JobContext
  spec : Option JobSpec

abbrev Dict (α : Type) := Finmap fun _ : JobId => α

/-- The fields of a `SellerCore`, the live tasks, calls and threads, and at the
end the history: every context a call has installed or found with its digest,
every job whose state was evicted, every call of `_run_work`. -/
structure SellerCore where
  inflight : Finset JobId
  inflightVerified : Dict Bool
  pendingVerifiedHandoffs : Finset JobId
  lateSubmitSuccesses : Finset JobId
  handled : Finset JobId
  contextlessStarted : Finset JobId
  sweepActive : Bool
  jobContexts : Dict JobContext
  jobSpecs : Dict (Option JobSpec)
  contextDeadlines : Dict Nat
  /-- Whether the event is set. -/
  contextEvents : Dict Bool
  /-- The live tasks and those whose done callback has not run. -/
  tasks : Finset Nat
  workers : Nat → Option Worker
  sweeps : Finset Nat
  calls : Nat → Option NotifyCall
  threads : Nat → Option SubmitThread
  next : Nat
  now : Nat
  committed : List (JobId × JobContext)
  evicted : List JobId
  works : List Work

/-- `SellerCore.__init__`. -/
def SellerCore.init : SellerCore :=
  ⟨∅, ∅, ∅, ∅, ∅, ∅, false, ∅, ∅, ∅, ∅, ∅, fun _ => none, ∅, fun _ => none, fun _ => none, 0, 0,
    [], [], []⟩

@[irreducible] def maxTrackedJobs : Nat := 1024

/-- `_SWEEP_CONTEXT_GRACE_SECONDS`, in milliseconds. -/
def sweepContextGrace : Nat := 60000

namespace SellerCore

/-- `is_busy`. -/
def isBusy (s : SellerCore) : Bool := decide (s.tasks ≠ ∅)

/-! ## Tracked state -/

/-- The jobs for which something is kept. -/
def tracked (s : SellerCore) : Finset JobId :=
  s.jobContexts.keys ∪ s.jobSpecs.keys ∪ s.contextDeadlines.keys ∪ s.contextEvents.keys

/-- The four `pop`s. -/
def forget (s : SellerCore) (job : JobId) : SellerCore :=
  { s with
    jobContexts := s.jobContexts.erase job
    jobSpecs := s.jobSpecs.erase job
    contextDeadlines := s.contextDeadlines.erase job
    contextEvents := s.contextEvents.erase job }

/-- The key of the sort: a job without a deadline comes last. -/
def deadlineKey (s : SellerCore) (job : JobId) : WithTop Nat :=
  match s.contextDeadlines.lookup job with
  | some deadline => deadline
  | none => ⊤

/-- The jobs that may be evicted, those with the earliest deadline first.  The
set of tracked jobs has an order of iteration, which is not specified. -/
def evictable (s : SellerCore) (order : List JobId) (protect : JobId) : List JobId :=
  (order.filter fun job =>
    decide (job ∉ s.inflight ∪ s.pendingVerifiedHandoffs ∪ {protect})).mergeSort
      fun a b => decide (s.deadlineKey a ≤ s.deadlineKey b)

def evict (s : SellerCore) (gone : List JobId) : SellerCore :=
  gone.foldl forget { s with evicted := gone ++ s.evicted }

/-- `_prune_tracked_state`. -/
def prune (s : SellerCore) (order : List JobId) (protect : JobId) : SellerCore :=
  s.evict ((s.evictable order protect).take (s.tracked.card - maxTrackedJobs))

/-! ## Spawning -/

/-- `_spawn_sweep`. -/
def spawnSweep (s : SellerCore) : SellerCore :=
  if s.sweepActive then s
  else
    { s with
      sweepActive := true
      sweeps := insert s.next s.sweeps
      tasks := insert s.next s.tasks
      next := s.next + 1 }

/-- `_spawn_job`; `promised` is for the history. -/
def spawnJob (s : SellerCore) (job : JobId) (verified : Bool) (promised : Option JobContext) :
    SellerCore :=
  if job ∈ s.handled ∨ job ∈ s.lateSubmitSuccesses then s
  else if job ∈ s.inflight then
    if verified ∧ s.inflightVerified.lookup job = some false then
      { s with pendingVerifiedHandoffs := insert job s.pendingVerifiedHandoffs }
    else s
  else
    { s with
      inflight := insert job s.inflight
      inflightVerified := s.inflightVerified.insert job verified
      workers := Function.update s.workers s.next (some ⟨job, verified, promised, .created⟩)
      tasks := insert s.next s.tasks
      next := s.next + 1 }

/-! ## The call -/

/-- What `notify_funded` answers once the authorization is verified. -/
inductive Answer where
  | accepted
  | deliveryAlreadyStarted
  | contextConflict
  deriving DecidableEq

/-- The checks of `notify_funded` behind the last verification. -/
def commitAnswer (s : SellerCore) (job : JobId) (context : JobContext) : Answer :=
  if job ∈ s.handled ∨ job ∈ s.lateSubmitSuccesses ∨ job ∈ s.contextlessStarted then
    .deliveryAlreadyStarted
  else
    match s.jobContexts.lookup job with
    | none => .accepted
    | some existing => if existing.digest = context.digest then .accepted else .contextConflict

/-- A call that is accepted installs what it has verified; a context that is
there already has the same digest and stays. -/
def install (s : SellerCore) (job : JobId) (context : JobContext) (spec : Option JobSpec) :
    SellerCore :=
  { s with
    jobContexts :=
      if job ∈ s.jobContexts then s.jobContexts else s.jobContexts.insert job context
    jobSpecs := if spec.isSome then s.jobSpecs.insert job spec else s.jobSpecs
    contextEvents :=
      if job ∈ s.contextEvents then s.contextEvents.insert job true else s.contextEvents
    calls := Function.update s.calls s.next (some ⟨job, context⟩)
    next := s.next + 1
    committed := (job, context) :: s.committed }

/-- The segment behind the last verification, up to `_report_funded_call`. -/
def commit (s : SellerCore) (order : List JobId) (job : JobId) (context : JobContext)
    (spec : Option JobSpec) : SellerCore :=
  if s.commitAnswer job context = .deliveryAlreadyStarted then s
  else if (s.prune order job).commitAnswer job context = .accepted then
    (s.prune order job).install job context spec
  else s.prune order job

def endCall (s : SellerCore) (id : Nat) : SellerCore :=
  { s with calls := Function.update s.calls id none }

/-- The rest of the call. -/
def reported (s : SellerCore) (id : Nat) (call : NotifyCall) : SellerCore :=
  ((s.endCall id).spawnJob call.job true (some call.context)).spawnSweep

/-! ## The delivery -/

def setStage (s : SellerCore) (id : Nat) (w : Worker) (stage : Stage) : SellerCore :=
  { s with workers := Function.update s.workers id (some { w with stage := stage }) }

/-- The `finally` block of a delivery that is over: all that is kept of its job
is that it is handled. -/
def settled (s : SellerCore) (id : Nat) (w : Worker) : SellerCore :=
  { s.forget w.job with
    workers := Function.update s.workers id none
    handled := insert w.job s.handled
    lateSubmitSuccesses := s.lateSubmitSuccesses.erase w.job
    pendingVerifiedHandoffs := s.pendingVerifiedHandoffs.erase w.job
    contextlessStarted := s.contextlessStarted.erase w.job
    inflightVerified := s.inflightVerified.erase w.job
    inflight := s.inflight.erase w.job }

/-- The `finally` block of a delivery that may be tried again, before the
hand-off. -/
def freed (s : SellerCore) (id : Nat) (w : Worker) : SellerCore :=
  { s with
    workers := Function.update s.workers id none
    inflight := s.inflight.erase w.job
    inflightVerified := s.inflightVerified.erase w.job
    contextlessStarted := s.contextlessStarted.erase w.job
    pendingVerifiedHandoffs := s.pendingVerifiedHandoffs.erase w.job }

/-- The `finally` block of `_run_job`, with which its task ends. -/
def finish (s : SellerCore) (id : Nat) (w : Worker) (terminal : Bool) : SellerCore :=
  if terminal ∨ w.job ∈ s.lateSubmitSuccesses then s.settled id w
  else if w.verified = false ∧ w.job ∈ s.pendingVerifiedHandoffs ∧ w.job ∈ s.jobContexts then
    (s.freed id w).spawnJob w.job true none
  else s.freed id w

/-- `_do_work_and_submit` from where the spec is there to `_run_work`. -/
def runWork (s : SellerCore) (id : Nat) (w : Worker) (context : Option JobContext)
    (spec : Option JobSpec) : SellerCore :=
  { s.setStage id w (.working context) with
    works := ⟨id, w.job, w.verified, w.promised, context, spec⟩ :: s.works }

/-- `_contextless_started.add(job_id)`. -/
def markContextless (s : SellerCore) (job : JobId) : SellerCore :=
  { s with contextlessStarted := insert job s.contextlessStarted }

/-- The beginning of `_do_work_and_submit`: a delivery without a context is
marked, and without a spec it is read first. -/
def doWorkAndSubmit (s : SellerCore) (id : Nat) (w : Worker) (spec : Option (Option JobSpec)) :
    SellerCore :=
  let marked := if w.job ∈ s.jobContexts then s else s.markContextless w.job
  match spec with
  | none => marked.setStage id w (.readingSpec (s.jobContexts.lookup w.job))
  | some spec => marked.runWork id w (s.jobContexts.lookup w.job) spec

/-- `_inflight_verified.setdefault(job_id, verified)`. -/
def keepMode (s : SellerCore) (w : Worker) : SellerCore :=
  { s with
    inflightVerified :=
      if w.job ∈ s.inflightVerified then s.inflightVerified
      else s.inflightVerified.insert w.job w.verified }

/-- `_run_job` up to its first await. -/
def start (s : SellerCore) (id : Nat) (w : Worker) : SellerCore :=
  if w.verified then (s.keepMode w).doWorkAndSubmit id w (s.jobSpecs.lookup w.job)
  else (s.keepMode w).setStage id w .verifying

/-- `_await_sweep_context` behind its wait, and what `_fulfill_job` does then. -/
def contextDecided (s : SellerCore) (id : Nat) (w : Worker) (spec : Option JobSpec) :
    SellerCore :=
  if w.job ∈ s.jobContexts then s.doWorkAndSubmit id w (some spec)
  else if requiresNotifyContext spec then s.finish id w false
  else (s.markContextless w.job).doWorkAndSubmit id w (some spec)

/-- The deadline and the event of a job, from an earlier try or new. -/
def keepGrace (s : SellerCore) (job : JobId) : SellerCore :=
  { s with
    contextDeadlines := s.contextDeadlines.insert job
      ((s.contextDeadlines.lookup job).getD (s.now + sweepContextGrace))
    contextEvents := s.contextEvents.insert job ((s.contextEvents.lookup job).getD false) }

/-- The event is set, or the time is over. -/
def contextWaitOver (s : SellerCore) (job : JobId) : Bool :=
  decide (s.contextEvents.lookup job = some true) ||
    (s.contextDeadlines.lookup job).all fun deadline => decide (deadline ≤ s.now)

/-- `_await_sweep_context` up to its wait, if it waits. -/
def awaitSweepContext (s : SellerCore) (id : Nat) (w : Worker) (spec : Option JobSpec) :
    SellerCore :=
  if w.job ∈ s.jobContexts then s.doWorkAndSubmit id w (some spec)
  else if (s.keepGrace w.job).contextWaitOver w.job then
    (s.keepGrace w.job).contextDecided id w spec
  else (s.keepGrace w.job).setStage id w (.awaitingContext spec)

/-- `_job_specs[job_id] = spec`. -/
def setSpec (s : SellerCore) (job : JobId) (spec : Option JobSpec) : SellerCore :=
  { s with jobSpecs := s.jobSpecs.insert job spec }

/-- `_fulfill_job` from the report to the next await. -/
def fundedReported (s : SellerCore) (order : List JobId) (id : Nat) (w : Worker)
    (spec : Option JobSpec) : SellerCore :=
  ((s.setSpec w.job spec).prune order w.job).awaitSweepContext id w spec

/-- `_do_work_and_submit` from the text of the work to `_await_submit_task`. -/
def submit (s : SellerCore) (id : Nat) (w : Worker) (context : Option JobContext)
    (content : PyStr) : SellerCore :=
  { s.setStage id w (.submitting context s.next false) with
    threads := Function.update s.threads s.next
      (some ⟨id, w.job, content, context.bind (·.gatewayUrl), context.bind (·.gatewayToken),
        none⟩)
    next := s.next + 1 }

/-- `_late_submit_successes.add(job_id)`. -/
def markLate (s : SellerCore) (job : JobId) : SellerCore :=
  { s with lateSubmitSuccesses := insert job s.lateSubmitSuccesses }

/-- `_do_work_and_submit` when the thread is over.  A cancelled one looks
whether the submit has landed and raises again. -/
def submitReturns (s : SellerCore) (id : Nat) (w : Worker) (cancelled : Bool)
    (outcome : SubmitOutcome) : SellerCore :=
  if cancelled = false then s.finish id w outcome.terminal
  else if outcome = .landed then (s.markLate w.job).finish id w false
  else s.finish id w false

def snapshotRead (s : SellerCore) (id : Nat) (w : Worker) : Verdict → SellerCore
  | .verified spec => s.setStage id w (.reporting spec)
  | .refused permanent => s.finish id w permanent

/-- `CancelledError` at an await: a delivery that submits stays for its thread,
any other ends. -/
def cancel (s : SellerCore) (id : Nat) (w : Worker) : SellerCore :=
  match w.stage with
  | .submitting context thread _ => s.setStage id w (.submitting context thread true)
  | _ => s.finish id w false

/-- The loop of `_sweep`. -/
def spawnJobs (s : SellerCore) (jobs : List JobId) : SellerCore :=
  jobs.foldl (fun s job => s.spawnJob job false none) s

/-- `_sweep` behind the scan, and the `finally` of `run_sweep`. -/
def swept (s : SellerCore) (id : Nat) (jobs : List JobId) : SellerCore :=
  { s.spawnJobs jobs with
    sweepActive := false
    sweeps := (s.spawnJobs jobs).sweeps.erase id }

end SellerCore

end Seller
