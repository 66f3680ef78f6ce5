import StockAnalyst.ServiceEffects

/-!
# The job store

`X402JobStore`: conditional writes with one retry on a write in progress, and
the checks the store makes before a request leaves the process.
-/

namespace X402

open Python ConditionalStore Coroutine

/-- A coroutine of the service. -/
abbrev Co (α : Type) := Async Eff Resp Exn α

/-- `int(self._clock())`. -/
def clock (inst : Nat) : Co Int := Async.await (.clock inst) .ok

/-- A suspension that only waits. -/
def sleep : Co Unit := Async.await .sleep orFault

def note (moment : Moment) : Co Unit := Async.await (.note moment) .ok

/-- Whether a cancellation arrived while the caller was shielded. -/
def interrupted : Co Bool := Async.await .interrupted .ok

/-- Whether a cancellation is that of a timer that fired. -/
def timedOut : Co Bool := Async.await .timedOut .ok

/-- `asyncio.wait_for`: a cancellation of the inner coroutine is a timeout or
the cancellation of the caller. -/
def waitFor {α : Type} (p : Co α) : Co α := do
  match ← Async.attempt p with
  | .error .cancelled =>
      if ← timedOut then Async.throw .timeout else Async.throw .cancelled
  | r => Async.ofExcept r

/-- `_conditional_put`: a second try after a write in progress, then a
conflict.  Nothing is returned when the precondition failed. -/
def conditionalPut (put : Co (PutReply Fault)) : Nat → Co (Option Nat)
  | 0 => Async.throw .other
  | n + 1 => do
      match ← put with
      | .done serial => pure (some serial)
      | .preconditionFailed => pure none
      | .fault f => Async.throw f.exn
      | .conflict =>
          if n = 0 then Async.throw .jobConflict else conditionalPut put n

def conditionalPutAttempts : Nat := 2

variable (D : Deployment)

/-! ## Job records -/

/-- `create`: nothing when the job exists already. -/
def createRecord {job : PyStr} (record : JobRecord) (ident : record.jobId = job) :
    Co (Option (StoredJob job)) :=
  if !encodable D.verify.lib record then Async.throw .other
  else if !isJobId job then Async.throw .other
  else do
    let put : JobPut := ⟨job, none, none, record, ident⟩
    match ← conditionalPut (Async.await (.putJob put) .ok)
        conditionalPutAttempts with
    | some serial => pure (some ⟨record, ⟨serial, record.reload⟩, rfl, ident⟩)
    | none => pure none

/-- `read`. -/
def readJob (job : PyStr) : Co (Option (StoredJob job)) :=
  if !isJobId job then Async.throw .other
  else Async.await (.getJob job) orFault

/-- `replace`, for the record a transition builds from the stored one. -/
def replace {job : PyStr} (stored : StoredJob job) (write : JobWrite) :
    Co (StoredJob job) :=
  let record := write.apply stored.record
  have ident : record.jobId = job :=
    (JobWrite.apply_jobId write stored.record).trans stored.ident
  if !encodable D.verify.lib record then Async.throw .other
  else if !isJobId job then Async.throw .other
  else do
    let put : JobPut := ⟨job, some write, some stored.tag, record, ident⟩
    match ← conditionalPut (Async.await (.putJob put) .ok)
        conditionalPutAttempts with
    | some serial => pure ⟨record, ⟨serial, record.reload⟩, rfl, ident⟩
    | none => Async.throw .jobConflict

/-! ## Wallet records -/

/-- `create_wallet_rate_limit`: nothing when the object exists already. -/
def createWalletRateLimit (digest : PyStr) (write : WalletWrite)
    (entries : List WalletEntry) : Co (Option Unit) :=
  if h : walletEncodable entries = true then
    if !isWalletDigest digest then Async.throw .other
    else do
      match ← conditionalPut
          (Async.await (.putWallet ⟨digest, write, none, ⟨entries, h⟩⟩) .ok)
          conditionalPutAttempts with
      | some _ => pure (some ())
      | none => pure none
  else Async.throw .other

/-- `read_wallet_rate_limit`. -/
def readWalletRateLimit (digest : PyStr) : Co (Option StoredWallet) :=
  if !isWalletDigest digest then Async.throw .other
  else Async.await (.getWallet digest) orFault

/-- `replace_wallet_rate_limit`. -/
def replaceWalletRateLimit (digest : PyStr) (stored : StoredWallet)
    (write : WalletWrite) (entries : List WalletEntry) : Co Unit :=
  if h : walletEncodable entries = true then
    if !isWalletDigest digest then Async.throw .other
    else do
      match ← conditionalPut
          (Async.await
            (.putWallet ⟨digest, write, some stored, ⟨entries, h⟩⟩) .ok)
          conditionalPutAttempts with
      | some _ => pure ()
      | none => Async.throw .jobConflict
  else Async.throw .other

/-! ## Accounting markers -/

/-- `read_accounting_marker`. -/
def readAccountingMarker (job : PyStr) : Co (Option AccountingMarker) :=
  if !isJobId job then Async.throw .other
  else Async.await (.getMarker job) orFault

/-- `create_accounting_marker`: false when there is a marker already. -/
def createAccountingMarker (job : PyStr) (marker : AccountingMarker) : Co Bool :=
  if !marker.encodable D.verify.lib then Async.throw .other
  else if !isJobId job then Async.throw .other
  else do
    match ← conditionalPut (Async.await (.putMarker job marker) .ok)
        conditionalPutAttempts with
    | some _ => pure true
    | none => pure false

/-! ## Reports -/

def maxReportBytes : Nat := 2 * 1024 * 1024

/-- `put_report`. -/
def putReport (job markdown reportId : PyStr) : Co Unit :=
  match utf8Encode markdown with
  | none => Async.throw .other
  | some body =>
      if maxReportBytes < body.length then Async.throw .other
      else if !(isJobId job && isReportId reportId) then Async.throw .other
      else Async.await (.putReport job reportId markdown) orFault

/-- `presign_report`. -/
def presignReport (job : PyStr) (reportId : Option PyStr) : Co PyStr :=
  if !(isJobId job && (reportId.map isReportId).getD true) then
    Async.throw .other
  else Async.await (.presign job reportId) orFault

end X402
