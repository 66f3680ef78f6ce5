import StockAnalyst.Interleave
import StockAnalyst.JobRecord

/-!
# What the job service awaits

The effects of the paid-job service: clocks, the object store, the wallet
objects, the facilitator, the chain, the analysis stream, the cells a worker
shares with its heartbeat, and the task table of a service instance.

The world is the history of effects with their replies.  Every shared object
is a function of that history, and a claim about a run is a statement about
it.  Each awaited reply may be a cancellation; a conditional write whose
request failed may still land later, as a detached thread does.
-/

namespace X402

open Python ConditionalStore Coroutine

/-! ## Exceptions -/

/-- The codes of `X402JobError`. -/
inductive JobErrorCode where
  | paymentRejected
  | jobNotFound
  | jobExpired
  | attemptsExhausted
  | jobConflict
  | invalidPaymentIdentity
  | invalidPaymentAsset
  | invalidRequest
  | asyncJobsPaused
  | jobStateUnavailable
  | jobIdentityCollision
  | settlementPending
  | tooManyUsers
  deriving DecidableEq

/-- The settlement header of a response; the network is always BNB chain. -/
structure PaymentResponse where
  success : Bool
  transaction : PyStr
  payer : PyStr
  errorReason : Option PyStr
  deriving DecidableEq

/-- The exceptions the service tells apart.  Every other one is `other`. -/
inductive Exn where
  | cancelled
  | jobConflict
  | jobError (code : JobErrorCode) (retryable : Bool)
      (paymentResponse : Option PaymentResponse)
  | walletExceeded (retryAfterSeconds : Int)
  | walletUnavailable
  | timeout
  | missingReport
  | emptyAnalysisResponse
  | b402Rejected
  | b402Indeterminate
  | other
  deriving DecidableEq

/-- An `X402JobError` without a payment response. -/
def Exn.job (code : JobErrorCode) (retryable : Bool) : Exn :=
  .jobError code retryable none

def Exn.settlementIndeterminate : Exn := .job .settlementPending true

/-- Why an awaited call gave no result. -/
inductive Fault where
  | cancelled
  | failed
  deriving DecidableEq

def Fault.exn : Fault → Exn
  | .cancelled => .cancelled
  | .failed => .other

/-- The reply of an awaited call as a result or an exception. -/
def orFault {α : Type} : Except Fault α → Except Exn α
  | .ok a => .ok a
  | .error f => .error f.exn

/-! ## Deployment -/

/-- A SHA-256 digest. -/
def Digest : Type := { bytes : List Nat // bytes.length = 32 ∧ ∀ b ∈ bytes, b < 256 }

def Digest.hex (d : Digest) : PyStr := toHex d.1

/-- One service instance.  `b402` says whether the B402 client is configured,
`facilitator` whether a generic facilitator URL is. -/
structure Service where
  owner : PyStr
  owner_ascii : ∀ c ∈ owner, c < 128
  acceptNewJobs : Bool
  b402 : Bool
  facilitator : Bool
  walletAttempts : Nat
  observerAttempts : Nat
  accountingAttempts : Nat
  walletAttempts_range : 1 ≤ walletAttempts ∧ walletAttempts ≤ 64
  observerAttempts_range : 1 ≤ observerAttempts ∧ observerAttempts ≤ 10
  accountingAttempts_range : 1 ≤ accountingAttempts ∧ accountingAttempts ≤ 10

/-- What all instances share besides the store. -/
structure Deployment where
  verify : VerifyEnv
  sha256 : List Nat → Digest
  tokenSecret : List Nat
  service : Nat → Service
  /-- The prompt and the symbols made of the text of a task. -/
  buildPrompt : PyStr → Json → Json → Except Exn (PyStr × List PyStr)

/-! ## Calls -/

inductive SettlementMode where
  | verifyAndSettle
  | settleOnly
  deriving DecidableEq

inductive SettlementOutcome where
  | settled (transaction : PyStr)
  | pending (transaction : PyStr)
  | rejected
  deriving DecidableEq

structure CreateJobResult where
  jobId : PyStr
  jobToken : PyStr
  status : Status
  expiresAt : Int
  paymentResponse : Option PaymentResponse
  deriving DecidableEq

/-- The facilitator's endpoints. -/
inductive Endpoint where
  | supported
  | verify
  | settle
  | genericSettle
  deriving DecidableEq

/-- A response whose body may not be JSON. -/
structure HttpReply where
  status : Nat
  body : Option Json

/-- A supported kind, as an object. -/
abbrev Kind := List (PyStr × Json)

/-- The events of one analysis stream and how it ended. -/
structure StreamReply where
  events : List (PyStr × Json)
  ending : Except Exn Unit

/-- The cells the worker `owner` shares with its heartbeat. -/
structure Cell where
  id : Nat
  job : PyStr
  owner : PyStr
  deriving DecidableEq

/-- The two kinds of background tasks of an instance. -/
inductive TaskKind where
  | execution
  | accounting
  deriving DecidableEq

/-- A nonce a payer can use once with a token. -/
structure AuthKey where
  asset : PyStr
  authorizer : PyStr
  nonce : List Nat
  deriving DecidableEq

/-- What used up an authorization nonce on chain. -/
inductive AuthUse where
  | transfer (to_ : PyStr) (value validAfter validBefore : Int)
  | cancel
  deriving DecidableEq

/-- The calls of the service: three from outside, three it starts itself. -/
inductive Call where
  | createJob (inst : Nat) (header : PyStr) (request : List (PyStr × Json))
  | getJob (inst : Nat) (job token : PyStr)
  | resumeJob (inst : Nat) (job token : PyStr)
  | runJob (inst : Nat) (job : PyStr)
  | runAccounting (inst : Nat) (job : PyStr) (delayBeforeFirst : Bool)
  | heartbeat (inst : Nat) (cell : Cell)

def Call.External : Call → Prop
  | .createJob .. => True
  | .getJob .. => True
  | .resumeJob .. => True
  | _ => False

/-- The moments a claim refers to that are not effects by themselves. -/
inductive Moment where
  | createCalled (inst : Nat) (header : PyStr) (request : List (PyStr × Json))
  | createReturned (result : CreateJobResult)
  | createRaised (exn : Exn)
  | settleCalled (job header : PyStr) (mode : SettlementMode)
  | settleReturned (job header : PyStr)
      (outcome : Except Exn SettlementOutcome)

/-! ## Writes -/

/-- A conditional write of a job record; no transition stands for the
create. -/
structure JobPut where
  job : PyStr
  write : Option JobWrite
  expect : Option (Tag JobRecord)
  record : JobRecord
  ident : record.jobId = job

inductive WalletWrite where
  | create (id : PyStr) (now : Int)
  | prune (now : Int)
  | append (id : PyStr) (now : Int)
  | commit (id : PyStr) (reservedAt now : Int)
  | release (id : PyStr) (reservedAt now : Int)

structure WalletPut where
  digest : PyStr
  write : WalletWrite
  expect : Option StoredWallet
  record : WalletRecord

/-- `secrets.token_hex(16)`. -/
def HexToken : Type := { s : PyStr // isReportId s = true }

/-! ## Effects -/

inductive Eff where
  | clock (inst : Nat)
  | monotonic (inst : Nat)
  | tokenHex
  | sleep
  | interrupted
  | timedOut
  | getJob (job : PyStr)
  | putJob (put : JobPut)
  | getWallet (digest : PyStr)
  | putWallet (put : WalletPut)
  | getMarker (job : PyStr)
  | putMarker (job : PyStr) (marker : AccountingMarker)
  | report (eventId address : PyStr) (calledAt : Int)
  | putReport (job reportId markdown : PyStr)
  | presign (job : PyStr) (reportId : Option PyStr)
  | post (inst : Nat) (endpoint : Endpoint) (payload : Json)
  | kinds (inst : Nat)
  | cacheKinds (inst : Nat) (kinds : List Kind) (expiresAt : ℚ)
  | lockKinds (inst : Nat)
  | unlockKinds (inst : Nat)
  | authorizationState (key : AuthKey)
  | streamWork (job owner prompt session : PyStr) (symbols : List PyStr)
  | streamEnd (job owner : PyStr)
  | newCell (job owner : PyStr) (stored : StoredJob job)
  | getHolder (cell : Cell)
  | setHolder (cell : Cell) (stored : StoredJob cell.job)
  | leaseLost (cell : Cell)
  | setLeaseLost (cell : Cell)
  | heartbeatDone (cell : Cell)
  | cancelHeartbeat (cell : Cell)
  | joinHeartbeat (cell : Cell)
  | spawnTask (kind : TaskKind) (inst : Nat) (job : PyStr)
  | taskDone (kind : TaskKind) (inst : Nat) (job : PyStr)
  | taskActive (inst : Nat) (job : PyStr)
  | joinTask (inst : Nat) (job : PyStr)
  | fork (call : Call)
  | note (moment : Moment)

/-- The reply to an effect. -/
@[reducible] def Resp : Eff → Type
  | .clock _ => Int
  | .monotonic _ => ℚ
  | .tokenHex => HexToken
  | .sleep => Except Fault Unit
  | .interrupted => Bool
  | .timedOut => Bool
  | .getJob job => Except Fault (Option (StoredJob job))
  | .putJob _ => PutReply Fault
  | .getWallet _ => Except Fault (Option StoredWallet)
  | .putWallet _ => PutReply Fault
  | .getMarker _ => Except Fault (Option AccountingMarker)
  | .putMarker _ _ => PutReply Fault
  | .report _ _ _ => Except Fault Bool
  | .putReport _ _ _ => Except Fault Unit
  | .presign _ _ => Except Fault PyStr
  | .post _ _ _ => Except Fault HttpReply
  | .kinds _ => Option (List Kind × ℚ)
  | .cacheKinds _ _ _ => Unit
  | .lockKinds _ => Except Fault Unit
  | .unlockKinds _ => Unit
  | .authorizationState _ => Except Fault Bool
  | .streamWork _ _ _ _ _ => Unit
  | .streamEnd _ _ => StreamReply
  | .newCell _ _ _ => Nat
  | .getHolder cell => StoredJob cell.job
  | .setHolder _ _ => Unit
  | .leaseLost _ => Bool
  | .setLeaseLost _ => Unit
  | .heartbeatDone _ => Unit
  | .cancelHeartbeat _ => Unit
  | .joinHeartbeat _ => Except Fault Unit
  | .spawnTask _ _ _ => Bool
  | .taskDone _ _ _ => Unit
  | .taskActive _ _ => Bool
  | .joinTask _ _ => Except Fault Unit
  | .fork _ => Unit
  | .note _ => Unit

/-! ## The history -/

/-- An effect of process `pid` with its reply and whether it changed a store
object, a detached write that landed later, or a use of an authorization on
chain. -/
inductive Event where
  | did (pid : Nat) (e : Eff) (r : Resp e) (landed : Bool)
  | landedLate (pid : Nat) (e : Eff)
  | chainUsed (key : AuthKey) (use : AuthUse)

/-- An event and the true time at which it happened. -/
structure Entry where
  time : Int
  event : Event

/-- The history so far, newest first, and the true time. -/
structure World where
  time : Int
  log : List Entry

/-- The store effect that took place in an event. -/
def Event.landing : Event → Option Eff
  | .did _ e _ true => some e
  | .did _ _ _ false => none
  | .landedLate _ e => some e
  | .chainUsed _ _ => none

/-- The process an event belongs to. -/
def Event.pid : Event → Option Nat
  | .did pid _ _ _ => some pid
  | .landedLate pid _ => some pid
  | .chainUsed _ _ => none

def Eff.jobPut : Eff → Option JobPut
  | .putJob put => some put
  | _ => none

def Eff.walletPut : Eff → Option WalletPut
  | .putWallet put => some put
  | _ => none

/-- The job write an entry landed. -/
def Entry.jobPut (x : Entry) : Option JobPut := x.event.landing.bind Eff.jobPut

/-- The wallet write an entry landed. -/
def Entry.walletPut (x : Entry) : Option WalletPut :=
  x.event.landing.bind Eff.walletPut

/-- The job object an entry wrote, as it reads back. -/
def Entry.jobWrite (x : Entry) : Option (PyStr × JobRecord) :=
  x.jobPut.map (fun put => (put.job, put.record.reload))

/-- The wallet object an entry wrote. -/
def Entry.walletWrite (x : Entry) : Option (PyStr × WalletRecord) :=
  x.walletPut.map (fun put => (put.digest, put.record))

/-- The accounting marker an entry wrote. -/
def Entry.markerWrite (x : Entry) : Option (PyStr × AccountingMarker) :=
  match x.event.landing with
  | some (.putMarker job marker) => some (job, marker)
  | _ => none

/-- The job object with its version. -/
def jobTag (job : PyStr) (log : List Entry) : Option (Tag JobRecord) :=
  current Entry.jobWrite job log

theorem jobTag_content {job : PyStr} {log : List Entry} {tag : Tag JobRecord}
    (h : jobTag job log = some tag) :
    tag.content = tag.content.reload ∧ tag.content.jobId = job := by
  obtain ⟨x, -, hput⟩ := current_mem h
  obtain ⟨put, -, heq⟩ := Option.map_eq_some_iff.1 hput
  obtain ⟨rfl, hcontent⟩ := Prod.mk.inj heq
  rw [← hcontent]
  exact ⟨(JobRecord.reload_reload _).symm, put.ident⟩

/-- The job object as a reader gets it. -/
def jobAt (job : PyStr) (log : List Entry) : Option (StoredJob job) :=
  match h : jobTag job log with
  | none => none
  | some tag =>
      some ⟨tag.content, tag, (jobTag_content h).1, (jobTag_content h).2⟩

/-- Version number of the job object; zero when there is none. -/
def jobSerial (job : PyStr) (log : List Entry) : Nat :=
  serial Entry.jobWrite job log

/-- The wallet object of a digest. -/
def walletAt (digest : PyStr) (log : List Entry) : Option StoredWallet :=
  current Entry.walletWrite digest log

/-- The accounting marker of a job. -/
def markerAt (job : PyStr) (log : List Entry) : Option AccountingMarker :=
  (current Entry.markerWrite job log).map (·.content)

/-- What an authorization nonce was used for on chain. -/
def chainAt (key : AuthKey) : List Entry → Option AuthUse
  | [] => none
  | x :: log =>
      match x.event with
      | .chainUsed key' use =>
          if key' = key then some use else chainAt key log
      | _ => chainAt key log

/-- The supported kinds an instance has cached. -/
def kindsAt (inst : Nat) : List Entry → Option (List Kind × ℚ)
  | [] => none
  | x :: log =>
      match x.event with
      | .did _ (.cacheKinds inst' kinds expiresAt) _ _ =>
          if inst' = inst then some (kinds, expiresAt) else kindsAt inst log
      | _ => kindsAt inst log

/-- Whether the supported-kinds lock of an instance is held. -/
def kindsLocked (inst : Nat) : List Entry → Bool
  | [] => false
  | x :: log =>
      match x.event with
      | .did _ (.lockKinds inst') (.ok ()) _ =>
          if inst' = inst then true else kindsLocked inst log
      | .did _ (.unlockKinds inst') _ _ =>
          if inst' = inst then false else kindsLocked inst log
      | _ => kindsLocked inst log

/-- The identity a new cell got. -/
def Resp.cellId {job owner : PyStr} {stored : StoredJob job}
    (r : Resp (.newCell job owner stored)) : Nat := r

/-- A cell identity is taken. -/
def cellTaken (id : Nat) : List Entry → Bool
  | [] => false
  | x :: log =>
      match x.event with
      | .did _ (.newCell _ _ _) id' _ => decide (id'.cellId = id) || cellTaken id log
      | _ => cellTaken id log

/-- The record a worker and its heartbeat hold. -/
def holderAt (cell : Cell) : List Entry → Option (StoredJob cell.job)
  | [] => none
  | x :: log =>
      match x.event with
      | .did _ (.newCell job owner stored) id _ =>
          if h : job = cell.job then
            if id.cellId = cell.id ∧ owner = cell.owner then some (h ▸ stored)
            else holderAt cell log
          else holderAt cell log
      | .did _ (.setHolder cell' stored) _ _ =>
          if h : cell' = cell then some (h ▸ stored) else holderAt cell log
      | _ => holderAt cell log

/-- The `lease_lost` event of a worker. -/
def leaseLostAt (cell : Cell) : List Entry → Bool
  | [] => false
  | x :: log =>
      match x.event with
      | .did _ (.setLeaseLost cell') _ _ =>
          decide (cell' = cell) || leaseLostAt cell log
      | _ => leaseLostAt cell log

/-- The heartbeat of a worker has ended. -/
def heartbeatDoneAt (cell : Cell) : List Entry → Bool
  | [] => false
  | x :: log =>
      match x.event with
      | .did _ (.heartbeatDone cell') _ _ =>
          decide (cell' = cell) || heartbeatDoneAt cell log
      | _ => heartbeatDoneAt cell log

/-- A background task of the instance is active for the job. -/
def taskActiveAt (kind : TaskKind) (inst : Nat) (job : PyStr) :
    List Entry → Bool
  | [] => false
  | x :: log =>
      match x.event with
      | .did _ (.spawnTask kind' inst' job') _ _ =>
          if kind' = kind ∧ inst' = inst ∧ job' = job then true
          else taskActiveAt kind inst job log
      | .did _ (.taskDone kind' inst' job') _ _ =>
          if kind' = kind ∧ inst' = inst ∧ job' = job then false
          else taskActiveAt kind inst job log
      | _ => taskActiveAt kind inst job log

/-! ## Replies -/

/-- A read returns the current object or fails. -/
def Reads {α : Type} (current : Option α) : Except Fault (Option α) → Prop
  | .ok found => found = current
  | .error _ => True

/-- The replies an effect can get; the last argument says whether a store
object changed.  Clocks, facilitators, chain nodes and analysis streams may
answer anything; the objects of the store and the cells answer what they
hold. -/
def Answer : (e : Eff) → World → Resp e → Bool → Prop
  | .getJob job, w, r, landed => Reads (jobAt job w.log) r ∧ landed = false
  | .putJob put, w, r, landed =>
      Puts ((jobTag put.job w.log).map (·.serial))
        (put.expect.map (·.serial)) (jobSerial put.job w.log + 1) r landed
  | .getWallet digest, w, r, landed =>
      Reads (walletAt digest w.log) r ∧ landed = false
  | .putWallet put, w, r, landed =>
      Puts ((walletAt put.digest w.log).map (·.serial))
        (put.expect.map (·.serial))
        (serial Entry.walletWrite put.digest w.log + 1) r landed
  | .getMarker job, w, r, landed => Reads (markerAt job w.log) r ∧ landed = false
  | .putMarker job _, w, r, landed =>
      Puts ((markerAt job w.log).map (fun _ => 1)) none 1 r landed
  | .putReport _ _ _, _, r, landed =>
      r = .ok () → landed = true
  | .kinds inst, w, r, landed => r = kindsAt inst w.log ∧ landed = false
  | .lockKinds inst, w, r, landed =>
      (r = .ok () → kindsLocked inst w.log = false) ∧ landed = false
  | .newCell _ _ _, w, id, landed => cellTaken id w.log = false ∧ landed = false
  | .getHolder cell, w, r, landed =>
      holderAt cell w.log = some r ∧ landed = false
  | .leaseLost cell, w, r, landed =>
      r = leaseLostAt cell w.log ∧ landed = false
  | .joinHeartbeat cell, w, r, landed =>
      (r = .ok () → heartbeatDoneAt cell w.log = true) ∧ landed = false
  | .spawnTask kind inst job, w, r, landed =>
      r = !taskActiveAt kind inst job w.log ∧ landed = false
  | .taskActive inst job, w, r, landed =>
      r = taskActiveAt .execution inst job w.log ∧ landed = false
  | .joinTask inst job, w, r, landed =>
      (r = .ok () → taskActiveAt .execution inst job w.log = false) ∧
        landed = false
  | _, _, _, landed => landed = false

/-- A write whose request failed can still land while the version it expects
is current. -/
def CanLandLate : (e : Eff) → Resp e → World → Prop
  | .putJob put, .fault _, w =>
      (jobTag put.job w.log).map (·.serial) = put.expect.map (·.serial)
  | .putWallet put, .fault _, w =>
      (walletAt put.digest w.log).map (·.serial) = put.expect.map (·.serial)
  | .putMarker job _, .fault _, w => markerAt job w.log = none
  | .putReport _ _ _, .error _, _ => True
  | _, _, _ => False

/-- Add an event to the history. -/
def World.record (w : World) (event : Event) : World :=
  { w with log := ⟨w.time, event⟩ :: w.log }

/-- One effect of process `pid`. -/
def React (pid : Nat) (e : Eff) (w : World) (r : Resp e) (w' : World) : Prop :=
  ∃ landed, Answer e w r landed ∧ w' = w.record (.did pid e r landed)

/-- What happens without the service: time passes, a detached write lands, a
payer or a facilitator uses an authorization on chain. -/
inductive Env : World → World → Prop
  | tick {w : World} {time : Int} (h : w.time ≤ time) :
      Env w { w with time := time }
  | land {w : World} {t : Int} {pid : Nat} {e : Eff} {r : Resp e}
      (hdid : ⟨t, .did pid e r false⟩ ∈ w.log) (hcan : CanLandLate e r w) :
      Env w (w.record (.landedLate pid e))
  | chain {w : World} {key : AuthKey} {use : AuthUse}
      (h : chainAt key w.log = none) : Env w (w.record (.chainUsed key use))

/-- The calls an effect starts. -/
def forks : Eff → List Call
  | .fork call => [call]
  | _ => []

end X402
