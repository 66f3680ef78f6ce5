import StockAnalyst.Monitor
import StockAnalyst.PendingRecord
import Mathlib.Data.List.DropRight

/-!
# Polling for a report

`pollAsyncAnalysis` of `x402-async-client.ts`: the loop that asks for the
status of a job until it has succeeded or failed or the time is up, and that
resumes a failed job, an overdue running one, and an overdue settlement.
-/

namespace AsyncClient

open Js Coroutine
open X402Async (isJobId)

/-! ## Numbers -/

/-- A number that measures milliseconds, its arithmetic taken to be exact. -/
inductive Number where
  | finite (q : ℚ)
  | infinity (negative : Bool)
  | nan
  deriving DecidableEq

/-- `Math.max`. -/
def Number.max : Number → Number → Number
  | .nan, _ | _, .nan => .nan
  | .infinity false, _ | _, .infinity false => .infinity false
  | .infinity true, x | x, .infinity true => x
  | .finite a, .finite b => .finite (Max.max a b)

/-- `Math.min`. -/
def Number.min : Number → Number → Number
  | .nan, _ | _, .nan => .nan
  | .infinity true, _ | _, .infinity true => .infinity true
  | .infinity false, x | x, .infinity false => x
  | .finite a, .finite b => .finite (Min.min a b)

/-- The integer of a number that `Number.isSafeInteger` accepts. -/
def Number.safeInteger : Number → Option Int
  | .finite q => if q.den = 1 ∧ |q.num| ≤ 9007199254740991 then some q.num else none
  | _ => none

/-! ## What a call sees and throws -/

/-- What a call throws: an `AsyncJobClientError`, or anything else. -/
inductive Thrown where
  | client (code : JsStr) (httpStatus : Option Nat) (retryable : Bool)
  | other
  deriving DecidableEq

inductive JobStatus where
  | settling | queued | running | succeeded | failed
  deriving DecidableEq

structure AsyncJobStatus where
  jobId : JsStr
  status : JobStatus
  expiresAt : Number
  errorCode : Option JsStr
  retryable : Option Bool
  downloadUrl : Option JsStr
  downloadUrlExpiresAt : Option Number

structure JobResponse where
  status : AsyncJobStatus
  retryAfterMilliseconds : Number

structure AsyncJobReceipt where
  jobId : JsStr
  jobToken : JsStr
  status : JsStr
  statusUrl : JsStr
  expiresAt : Number

/-- `PollOptions` without the clock and the callbacks; of the optional
callbacks it says whether they are there. -/
structure PollOptions where
  timeoutMs : Option Number
  defaultPollMilliseconds : Option Number
  settlingRecoveryMilliseconds : Option Number
  runningRecoveryMilliseconds : Option Number
  recoverSettling : Bool
  onAuthoritativeNonSettling : Bool

/-- What the loop does to the outside world. -/
inductive Eff where
  | now
  | sleep (milliseconds : Number)
  /-- `getJobStatus`, or the end of the time left for it. -/
  | getJobStatus
  /-- `resumeJob`, or the end of the time left for it. -/
  | resumeJob
  | recoverSettling (remaining : ℚ)
  | onAuthoritativeNonSettling

def Resp : Eff → Type
  | .now => ℚ
  | .getJobStatus | .resumeJob => Except Thrown JobResponse
  | .recoverSettling _ => Except Thrown AsyncJobReceipt
  | .sleep _ | .onAuthoritativeNonSettling => Except Thrown Unit

abbrev Co (α : Type) : Type := Async Eff Resp Thrown α

def clientError (code : String) : Thrown := .client (js code) none false

def pollTimeout : Thrown := clientError "poll_timeout"

def Thrown.isRetryable : Thrown → Bool
  | .client _ _ retryable => retryable
  | .other => false

def Thrown.isClient : Thrown → Bool
  | .client _ _ _ => true
  | .other => false

def Thrown.isGone : Thrown → Bool
  | .client _ httpStatus _ => httpStatus = some 410
  | .other => false

/-- The 409 of a job that somebody else is working on. -/
def Thrown.isConflict : Thrown → Bool
  | .client code httpStatus _ => httpStatus = some 409 && code = js "job_conflict"
  | .other => false

/-! ## Receipts -/

/-- `URL`. -/
structure UrlLib where
  Url : Type
  /-- `new URL(text, base)`. -/
  parse : JsStr → Option JsStr → Option Url
  protocol : Url → JsStr
  username : Url → JsStr
  password : Url → JsStr
  search : Url → JsStr
  hash : Url → JsStr
  origin : Url → JsStr
  pathname : Url → JsStr
  /-- `url.pathname = path`. -/
  setPathname : Url → JsStr → Url
  toText : Url → JsStr

section receipts

variable (lib : UrlLib) (endpoint : JsStr)

/-- `normalizedEndpoint`; nothing where it throws. -/
def normalizedEndpoint : Option lib.Url :=
  (lib.parse endpoint none).filter fun parsed =>
    (lib.protocol parsed = js "http:" || lib.protocol parsed = js "https:")
      && (lib.username parsed).isEmpty && (lib.password parsed).isEmpty
      && (lib.search parsed).isEmpty && (lib.hash parsed).isEmpty

/-- `routeUrl`. -/
def routeUrl (path : JsStr) : Option JsStr :=
  (normalizedEndpoint lib endpoint).map fun base =>
    lib.toText (lib.setPathname base
      ((lib.pathname base).rdropWhile (· = 47) ++ 47 :: path.dropWhile (· = 47)))

/-- `jobUrl`. -/
def jobUrl (jobId : JsStr) : Option JsStr :=
  if isJobId jobId then routeUrl lib endpoint (js "/x402/jobs/" ++ jobId) else none

/-- `canonicalStatusPath`, of which the loop needs only whether it throws. -/
def isStatusPath (jobId statusUrl : JsStr) : Bool :=
  isJobId jobId && (statusUrl = js "/x402/jobs/" ++ jobId ||
    ((normalizedEndpoint lib endpoint).bind fun base =>
      lib.parse statusUrl (some (lib.origin base))).any fun supplied =>
        some (lib.toText supplied) = jobUrl lib endpoint jobId
          && (lib.username supplied).isEmpty && (lib.password supplied).isEmpty)

def jobStatuses : List JsStr :=
  [js "settling", js "queued", js "running", js "succeeded", js "failed"]

/-- `parseReceipt`, of which the loop needs only whether it throws. -/
def isReceipt (receipt : AsyncJobReceipt) : Bool :=
  !receipt.jobToken.isEmpty && receipt.expiresAt.safeInteger.any (0 < ·)
    && isJobId receipt.jobId && jobStatuses.contains receipt.status
    && !receipt.statusUrl.isEmpty && receipt.jobToken.length ≤ 4096
    && !receipt.jobToken.contains 13 && !receipt.jobToken.contains 10
    && isStatusPath lib endpoint receipt.jobId receipt.statusUrl

end receipts

/-! ## The loop -/

/-- What stays the same during a call. -/
structure Poll where
  deadline : ℚ
  defaultPollMilliseconds : Number
  settlingRecoveryMilliseconds : Int
  runningRecoveryMilliseconds : Int
  onAuthoritativeNonSettling : Bool
  jobId : JsStr

structure PollState where
  resumeAttempted : Bool
  settlingObservedAt : Option ℚ
  runningObservedAt : Option ℚ
  settlingRecoveryEnabled : Bool
  authoritativeCleanupAttempted : Bool

/-- How a pass of the loop ends that does not throw. -/
inductive Pass where
  | again (s : PollState)
  | done (status : AsyncJobStatus)

def now : Co ℚ := Async.await .now .ok

/-- `observed ??= now()`. -/
def observe : Option ℚ → Co ℚ
  | some observed => pure observed
  | none => now

namespace Poll

variable (p : Poll)

/-- `runBeforeDeadline`; the timer of the race is part of the operation. -/
def runBeforeDeadline {α : Type} (operation : Co α) : Co α := do
  let t ← now
  if p.deadline - t ≤ 0 then Async.throw pollTimeout else operation

def wait (requested : Number) : Co Unit := do
  let t ← now
  let remaining := p.deadline - t
  if remaining ≤ 0 then Async.throw pollTimeout
  else
    let milliseconds := Number.min (.finite remaining) (Number.max (.finite 1000) requested)
    (Async.await (.sleep milliseconds) id : Co Unit)
    let t ← now
    if p.deadline ≤ t then Async.throw pollTimeout else pure ()

def notifyAuthoritativeNonSettling (s : PollState) : Co PollState := do
  if s.authoritativeCleanupAttempted || !p.onAuthoritativeNonSettling then pure s
  else
    match ← Async.attempt (Async.await .onAuthoritativeNonSettling id : Co Unit) with
    | .ok () => pure { s with authoritativeCleanupAttempted := true }
    | .error _ => Async.throw (clientError "pending_cleanup_failed")

/-- `getJobStatus` has failed. -/
def getFailed (s : PollState) (error : Thrown) : Co Pass := do
  if error.isGone then
    let _ ← p.notifyAuthoritativeNonSettling s
    Async.throw error
  else if error.isClient && !error.isRetryable then Async.throw error
  else
    p.wait p.defaultPollMilliseconds
    pure (.again s)

/-- The job has failed. -/
def failedJob (s : PollState) (current : AsyncJobStatus) : Co Pass := do
  if current.retryable = some true && !s.resumeAttempted then
    let s := { s with resumeAttempted := true }
    match ← Async.attempt (do
        let resumed ← p.runBeforeDeadline (Async.await .resumeJob id)
        p.wait resumed.retryAfterMilliseconds) with
    | .ok () => pure (.again s)
    | .error error =>
        if error.isConflict then pure (.again s)
        else if error.isClient && !error.isRetryable then Async.throw error
        else
          p.wait p.defaultPollMilliseconds
          pure (.again s)
  else
    Async.throw (.client (current.errorCode.getD (js "analysis_failed")) none
      (current.retryable.getD false))

/-- The recovery of an overdue settlement. -/
def recover (s : PollState) : Co Pass := do
  match ← Async.attempt (do
      let t ← now
      let remaining := p.deadline - t
      if remaining ≤ 0 then Async.throw pollTimeout
      else
        let recovered ← (Async.await (.recoverSettling remaining) id : Co AsyncJobReceipt)
        if recovered.jobId ≠ p.jobId then Async.throw (clientError "invalid_response")
        else if recovered.status = js "settling" then
          let t ← now
          pure { s with settlingRecoveryEnabled := true, settlingObservedAt := some t }
        else pure { s with settlingRecoveryEnabled := false, settlingObservedAt := none }) with
  | .ok s => pure (.again s)
  | .error error =>
      if error.isRetryable then
        let t ← now
        p.wait p.defaultPollMilliseconds
        pure (.again { s with settlingObservedAt := some t })
      else Async.throw error

/-- The job is settling. -/
def settlingJob (s : PollState) (response : JobResponse) : Co Pass := do
  if s.settlingRecoveryEnabled then
    let observed ← observe s.settlingObservedAt
    let s := { s with settlingObservedAt := some observed }
    let t ← now
    if (p.settlingRecoveryMilliseconds : ℚ) ≤ t - observed then p.recover s
    else
      p.wait response.retryAfterMilliseconds
      pure (.again { s with runningObservedAt := none })
  else
    p.wait response.retryAfterMilliseconds
    pure (.again { s with runningObservedAt := none })

/-- The job is running. -/
def runningJob (s : PollState) (response : JobResponse) : Co Pass := do
  let observed ← observe s.runningObservedAt
  let t ← now
  if (p.runningRecoveryMilliseconds : ℚ) ≤ t - observed then
    match ← Async.attempt (do
        let resumed ← p.runBeforeDeadline (Async.await .resumeJob id)
        let observed ← (if resumed.status.status = .running then some <$> now else pure none)
        p.wait resumed.retryAfterMilliseconds
        pure observed) with
    | .ok observed => pure (.again { s with runningObservedAt := observed })
    | .error error =>
        if error.isConflict || error.isRetryable || !error.isClient then
          let t ← now
          p.wait response.retryAfterMilliseconds
          pure (.again { s with runningObservedAt := some t })
        else Async.throw error
  else
    p.wait response.retryAfterMilliseconds
    pure (.again { s with runningObservedAt := some observed })

/-- What a pass does with an answer of the server. -/
def answered (s : PollState) (response : JobResponse) : Co Pass :=
  let left := { s with settlingRecoveryEnabled := false, settlingObservedAt := none }
  match response.status.status with
  | .succeeded => pure (.done response.status)
  | .failed => p.failedJob s response.status
  | .settling => p.settlingJob s response
  | .running => p.runningJob left response
  | .queued => do
      p.wait response.retryAfterMilliseconds
      pure (.again { left with runningObservedAt := none })

/-- One pass of the loop. -/
def pass (s : PollState) : Co Pass := do
  let t ← now
  if p.deadline ≤ t then Async.throw pollTimeout
  else
    match ← Async.attempt (p.runBeforeDeadline (Async.await .getJobStatus id)) with
    | .error error => p.getFailed s error
    | .ok response =>
        let s ← (if response.status.status ≠ .settling then p.notifyAuthoritativeNonSettling s
          else pure s)
        p.answered s response

/-- The loop, cut off after a number of passes; nothing where it is cut off. -/
def loop : Nat → PollState → Co (Option AsyncJobStatus)
  | 0, _ => pure none
  | passes + 1, s => do
      match ← p.pass s with
      | .again s => loop passes s
      | .done status => pure (some status)

end Poll

/-- The options as the loop takes them; nothing where they are refused. -/
def readOptions (options : PollOptions) : Option (ℚ × Int × Int) :=
  match options.timeoutMs.getD (.finite 900000),
    (options.settlingRecoveryMilliseconds.getD (.finite 120000)).safeInteger,
    (options.runningRecoveryMilliseconds.getD (.finite 120000)).safeInteger with
  | .finite timeout, some settling, some running =>
      if timeout ≤ 0 || settling < 1000 || running < 1000 then none
      else some (timeout, settling, running)
  | _, _, _ => none

def pollAsyncAnalysis (lib : UrlLib) (endpoint : JsStr) (receipt : AsyncJobReceipt)
    (options : PollOptions) (passes : Nat) : Co (Option AsyncJobStatus) :=
  match readOptions options with
  | none => Async.throw (clientError "invalid_timeout")
  | some (timeout, settling, running) => do
      if isReceipt lib endpoint receipt then
        let t ← now
        let p : Poll :=
          { deadline := t + timeout
            defaultPollMilliseconds := Number.max (.finite 1000)
              (options.defaultPollMilliseconds.getD (.finite 10000))
            settlingRecoveryMilliseconds := settling
            runningRecoveryMilliseconds := running
            onAuthoritativeNonSettling := options.onAuthoritativeNonSettling
            jobId := receipt.jobId }
        p.loop passes
          { resumeAttempted := false
            settlingObservedAt := none
            runningObservedAt := none
            settlingRecoveryEnabled := options.recoverSettling
            authoritativeCleanupAttempted := false }
      else Async.throw (clientError "invalid_response")

end AsyncClient
