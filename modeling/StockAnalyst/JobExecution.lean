import StockAnalyst.JobService
import StockAnalyst.SpacedText
import Mathlib.Logic.Relation

/-!
# Executing a job

`_run_job`: the execution claim, the analysis stream with its retries, the
heartbeat that keeps the lease, the report and the final write.  The worker
and its heartbeat share the record they hold and the `lease_lost` event.
-/

namespace X402

open Python ConditionalStore Coroutine

variable (D : Deployment) (inst : Nat)

/-! ## The execution claim -/

/-- `_claim_execution`; nothing when there is nothing to execute. -/
def claimExecution {job : PyStr} (stored : StoredJob job) (owner : PyStr) :
    Co (Option (StoredJob job)) := do
  let r := stored.record
  let now ← clock inst
  if r.status = .running ∧ r.leaseOwner.getD [] = owner then pure (some stored)
  else if r.status = .queued ∨
      (r.status = .running ∧ r.updatedAt ≤ now - staleMilliseconds) ∨
      (r.status = .failed ∧ r.retryable = some true) then
    if maxExecutionAttempts ≤ r.attempt then pure none
    else do
      let running ← replace D stored (.running owner now)
      pure (some running)
  else pure none

/-- One pass of the loop of `_drive_execution_claim`. -/
def claimOnce (job owner : PyStr) : Co (Option (StoredJob job)) := do
  match ← readJob job with
  | none => pure none
  | some stored => claimExecution D inst stored owner

/-- The loop of `_drive_execution_claim`, with the attempts that remain. -/
def claimLoop (job owner : PyStr) : Nat → Co (Option (StoredJob job))
  | 0 => Async.throw .other
  | remaining + 1 => do
      match ← Async.attempt (claimOnce D inst job owner) with
      | .ok claimed => pure claimed
      | .error .cancelled => Async.throw .cancelled
      | .error x =>
          if remaining = 0 then Async.throw x
          else do
            sleep
            claimLoop job owner remaining

def claimDriveAttempts : Nat := 3

/-- `secrets.token_hex(16)`. -/
def tokenHex : Co HexToken := Async.await .tokenHex .ok

/-- `_drive_execution_claim`. -/
def driveExecutionClaim (job : PyStr) : Co (Option (StoredJob job × PyStr)) := do
  let owner ← tokenHex
  match ← claimLoop D inst job owner.1 claimDriveAttempts with
  | none => pure none
  | some running => pure (some (running, owner.1))

/-! ## The analysis -/

/-- The content of the last report event that has one. -/
def finalReport (events : List (PyStr × Json)) : Option PyStr :=
  events.foldl (fun final event =>
    if event.1 = py "report" then
      match event.2 with
      | .obj data =>
          match dictGet data (py "content") with
          | some (.str (c :: cs)) => some (c :: cs)
          | _ => final
      | _ => final
    else final) none

/-- The session of one inner call. -/
def sessionId (r : JobRecord) (innerCall : Nat) : PyStr :=
  r.jobId ++ py "-attempt-" ++ intText r.attempt ++ py "-llm-"
    ++ intText innerCall

/-- `_consume_report_once`. -/
def consumeReportOnce (r : JobRecord) (prompt : PyStr) (symbols : List PyStr)
    (innerCall : Nat) : Co PyStr := do
  Async.await (.streamWork r.jobId (r.leaseOwner.getD []) prompt
    (sessionId r innerCall) symbols) .ok
  let reply : StreamReply ←
    Async.await (.streamEnd r.jobId (r.leaseOwner.getD [])) .ok
  Async.ofExcept reply.ending
  match finalReport reply.events with
  | none => Async.throw .emptyAnalysisResponse
  | some markdown => pure markdown

/-- The loop of `_consume_report`, with the inner calls that remain. -/
def consumeLoop (r : JobRecord) (prompt : PyStr) (symbols : List PyStr) :
    Nat → Co PyStr
  | 0 => Async.throw .other
  | remaining + 1 => do
      match ← Async.attempt
          (waitFor (consumeReportOnce r prompt symbols (3 - remaining))) with
      | .ok markdown => pure markdown
      | .error .emptyAnalysisResponse =>
          if remaining = 0 then Async.throw .emptyAnalysisResponse
          else consumeLoop r prompt symbols remaining
      | .error x => Async.throw x

/-- Strings of a list that holds nothing else. -/
def strings : List Json → Option (List PyStr)
  | [] => some []
  | .str s :: xs => (strings xs).map (s :: ·)
  | _ :: _ => none

/-- The task of an analysis, as `json.dumps` writes it. -/
def taskDoc (symbols : List PyStr) (analysisType : PyStr) : JsonText.Doc :=
  .obj [(py "task", .str (py "Analyze " ++ PyStr.join (py ", ") symbols)),
    (py "terms", .obj [(py "symbols", .arr (symbols.map .str)),
      (py "analysis_type", .str analysisType)])]

/-- `_consume_report`. -/
def consumeReport (r : JobRecord) : Co PyStr :=
  match r.request with
  | .obj request =>
      match dictGet request (py "symbols") with
      | some (.arr xs) =>
          match strings xs with
          | none => Async.throw .missingReport
          | some symbols => do
              let analysisType := pyStr D.verify.lib
                (getOr request (py "analysisType") (.str (py "comprehensive")))
              let taskJson := (taskDoc symbols analysisType).spaced
              let (prompt, effective) ← Async.ofExcept (D.buildPrompt taskJson
                (getOr request (py "portfolio") (.arr []))
                (getOr request (py "riskProfile") (.obj [])))
              consumeLoop r prompt (if effective = [] then symbols else effective) 3
      | _ => Async.throw .missingReport
  | _ => Async.throw .missingReport

/-! ## The lease -/

/-- `_refresh_lease`; nothing when the lease is lost. -/
def refreshLease {job : PyStr} (stored : StoredJob job) (owner : PyStr) :
    Co (Option (StoredJob job)) :=
  if stored.record.status ≠ .running ∨ stored.record.leaseOwner.getD [] ≠ owner then
    pure none
  else do
    let now ← clock inst
    match ← Async.attempt (replace D stored (.heartbeat owner now)) with
    | .ok refreshed => pure (some refreshed)
    | .error .jobConflict => pure none
    | .error x => Async.throw x

def getHolder (cell : Cell) : Co (StoredJob cell.job) :=
  Async.await (.getHolder cell) .ok

def setHolder (cell : Cell) (stored : StoredJob cell.job) : Co Unit :=
  Async.await (.setHolder cell stored) .ok

def leaseLost (cell : Cell) : Co Bool := Async.await (.leaseLost cell) .ok

def setLeaseLost (cell : Cell) : Co Unit := Async.await (.setLeaseLost cell) .ok

/-- One pass of `_heartbeat`; true when the loop goes on.  The refresh runs in
a task of its own: a cancelled heartbeat waits for it and records its outcome
before it gives up. -/
def heartbeatPass (cell : Cell) : Co Bool := do
  sleep
  let stored ← getHolder cell
  let result ← Async.attempt (refreshLease D inst stored cell.owner)
  let cancelled ← interrupted
  match ← Async.ofExcept result with
  | none => do
      setLeaseLost cell
      if cancelled then Async.throw .cancelled else pure false
  | some refreshed => do
      setHolder cell refreshed
      if cancelled then Async.throw .cancelled else pure true

/-- `_heartbeat`.  The loop goes on as a new call. -/
def heartbeat (cell : Cell) : Co Unit := do
  match ← Async.attempt (heartbeatPass D inst cell) with
  | .ok true => Async.await (.fork (.heartbeat inst cell)) .ok
  | .ok false => Async.await (.heartbeatDone cell) .ok
  | .error .cancelled => Async.await (.heartbeatDone cell) .ok
  | .error _ => do
      setLeaseLost cell
      Async.await (.heartbeatDone cell) .ok

/-- `_stop_heartbeat`. -/
def stopHeartbeat (cell : Cell) : Co Unit := do
  Async.await (.cancelHeartbeat cell) .ok
  Async.await (.joinHeartbeat cell) orFault

/-! ## The outcome -/

/-- `_fail_execution`. -/
def failExecution (cell : Cell) (stored : StoredJob cell.job)
    (code : ErrorCode) (retryable : Bool) : Co Unit := do
  if ← leaseLost cell then pure ()
  else if stored.record.status ≠ .running ∨
      stored.record.leaseOwner.getD [] ≠ cell.owner then pure ()
  else do
    let canRetry := retryable && (code = .analysisEmptyResponse ||
      stored.record.attempt < maxExecutionAttempts)
    let now ← clock inst
    match ← Async.attempt (replace D stored
        (.executionFailed cell.owner code canRetry now)) with
    | .ok _ => pure ()
    | .error .jobConflict => pure ()
    | .error x => Async.throw x

/-- A failed analysis, once the heartbeat has stopped. -/
def stopAndFail (cell : Cell) (code : ErrorCode) (retryable : Bool) :
    Co Unit := do
  stopHeartbeat cell
  let stored ← getHolder cell
  failExecution D inst cell stored code retryable

/-- The error code and retryability of a failed analysis; nothing for a
cancellation. -/
def analysisFailure : Exn → Option (ErrorCode × Bool)
  | .cancelled => none
  | .timeout => some (.analysisTimeout, true)
  | .emptyAnalysisResponse => some (.analysisEmptyResponse, true)
  | .missingReport => some (.analysisFailed, false)
  | .jobError code retryable _ =>
      if code = .tooManyUsers then some (.tooManyUsers, true)
      else some (.analysisFailed, retryable)
  | _ => some (.analysisFailed, true)

/-- The report and the final write of a finished analysis. -/
def publishReport (cell : Cell) (markdown : PyStr) : Co Unit := do
  stopHeartbeat cell
  if ← leaseLost cell then pure ()
  else do
    let held ← getHolder cell
    match ← refreshLease D inst held cell.owner with
    | none => pure ()
    | some fenced => do
        setHolder cell fenced
        match ← Async.attempt (putReport cell.job markdown cell.owner) with
        | .error .cancelled => Async.throw .cancelled
        | .error _ => do
            let stored ← getHolder cell
            failExecution D inst cell stored .analysisFailed true
        | .ok () => do
            let stored ← getHolder cell
            let now ← clock inst
            match ← Async.attempt
                (replace D stored (.succeeded cell.owner now)) with
            | .ok _ => pure ()
            | .error .jobConflict => pure ()
            | .error x => Async.throw x

/-- The body of `_run_job` between the start and the end of the heartbeat. -/
def executeUnderLease (cell : Cell) (r : JobRecord) : Co Unit := do
  match ← Async.attempt (consumeReport D r) with
  | .ok markdown => publishReport D inst cell markdown
  | .error x =>
      match analysisFailure x with
      | none => Async.throw x
      | some (code, retryable) => stopAndFail D inst cell code retryable

/-- The worker after its claim. -/
def runClaimed {job : PyStr} (running : StoredJob job) (owner : PyStr) :
    Co Unit := do
  redriveAccounting inst running
  let id : Nat ← Async.await (.newCell job owner running) .ok
  let cell : Cell := ⟨id, job, owner⟩
  Async.await (.fork (.heartbeat inst cell)) .ok
  let result ← Async.attempt (executeUnderLease D inst cell running.record)
  stopHeartbeat cell
  Async.ofExcept result

/-- `_run_job`. -/
def runJob (job : PyStr) : Co Unit := do
  let result ← Async.attempt (do
    match ← driveExecutionClaim D inst job with
    | none => pure ()
    | some (running, owner) => runClaimed D inst running owner)
  match result with
  | .error .cancelled => Async.throw .cancelled
  | _ => pure ()

/-! ## The system -/

/-- What a call does, its moments and the end of its task included. -/
def callBody : Call → Co Unit
  | .createJob inst header request => do
      note (.createCalled inst header request)
      match ← Async.attempt (createJob D inst header request) with
      | .ok result => note (.createReturned result)
      | .error x => note (.createRaised x)
  | .getJob inst job token => do
      let _ ← Async.attempt (getJob D inst job token)
      pure ()
  | .resumeJob inst job token => do
      let _ ← Async.attempt (resumeJob D inst job token)
      pure ()
  | .runJob inst job => do
      let _ ← Async.attempt (runJob D inst job)
      Async.await (.taskDone .execution inst job) .ok
  | .runAccounting inst job delayBeforeFirst => do
      let _ ← Async.attempt (runAccounting D inst job delayBeforeFirst)
      Async.await (.taskDone .accounting inst job) .ok
  | .heartbeat inst cell => heartbeat D inst cell

/-- Any number of service instances over one store. -/
def service : Machine where
  Eff := Eff
  Resp := Resp
  Call := Call
  World := World
  body := fun call => (callBody D call).prog.bind (fun _ => .ret ())
  external := Call.External
  react := React
  forks := forks
  env := Env

/-- The empty store. -/
def World.empty (time : Int) : World := ⟨time, []⟩

/-- The configurations the system reaches from the empty store. -/
def Reachable (s : Config (service D)) : Prop :=
  ∃ time, Reach (service D) (World.empty time) s

/-- A run of the service: any number of its steps. -/
def Runs : Config (service D) → Config (service D) → Prop :=
  Relation.ReflTransGen (Step (service D))

variable {D}

/-- A run stays among the reachable states. -/
theorem Reachable.run {s t : Config (service D)} (h : Reachable D s)
    (hrun : Runs D s t) : Reachable D t := by
  induction hrun with
  | refl => exact h
  | tail hrun hstep ih =>
      obtain ⟨time, hreach⟩ := ih
      exact ⟨time, hreach.step hstep⟩

/-- A step only adds to the history. -/
theorem step_log {s t : Config (service D)} (h : Step (service D) s t) :
    s.world.log <:+ t.world.log := by
  cases h with
  | start hext => exact List.suffix_refl _
  | @act pid e k r w hproc hreact =>
      obtain ⟨landed, -, hw⟩ := hreact
      have hlog : s.world.log <:+ World.log w := by
        rw [hw]
        exact List.suffix_cons _ _
      have hworld := Config.startAll_world (M := service D)
        ⟨w, Function.update s.procs pid (some (k r)), s.next⟩ (forks e)
      exact Eq.subst (motive := fun u : World => s.world.log <:+ u.log)
        hworld.symm hlog
  | crash pid => exact List.suffix_refl _
  | env henv =>
      cases henv with
      | tick htime => exact List.suffix_refl _
      | land hdid hcan => exact List.suffix_cons _ _
      | chain hfree => exact List.suffix_cons _ _

/-- A run only adds to the log. -/
theorem Runs.log_suffix {s t : Config (service D)} (h : Runs D s t) :
    s.world.log <:+ t.world.log := by
  induction h with
  | refl => exact List.suffix_refl _
  | tail hrun hstep ih => exact ih.trans (step_log hstep)

end X402
