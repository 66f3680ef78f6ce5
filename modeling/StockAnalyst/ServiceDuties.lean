import StockAnalyst.JobExecution

/-!
# What each effect of the service owes

`Duty` says what a process knows when it performs an effect: which version of
a record it builds on, what the guards of the source established about it, and
which of its own earlier effects justify it.  A history is lawful when every
effect met its duty and every reply was a possible one.  Later files derive
all claims about runs from lawful histories; the files after those show that
every coroutine of the service meets its duties.
-/

namespace X402

open Python ConditionalStore Coroutine

/-! ## What a process did -/

/-- Process `q` performed `e` and got the reply `r`. -/
def Did (q : Nat) (e : Eff) (r : Resp e) (landed : Bool) (log : List Entry) :
    Prop :=
  ∃ t, (⟨t, .did q e r landed⟩ : Entry) ∈ log

/-- Process `q` read the clock of the instance. -/
def Clocked (q inst : Nat) (now : Int) (log : List Entry) : Prop :=
  Did q (.clock inst) now false log

/-- The classes of effects whose absence a duty can depend on. -/
inductive ActKind where
  | quiet
  | missed
  | found
  | put
  | ackPut
  | lease
  | ackLease
  | settle
  | moment
  | token
  | report
  | stream
  | cell
  deriving DecidableEq

/-- A write that takes the settlement lease: the create or a claim. -/
def JobPut.takesLease (put : JobPut) : Bool :=
  match put.write with
  | none => true
  | some (.claimed _ _) => true
  | _ => false

/-- The class of an effect and its reply. -/
def actKind : (e : Eff) → Resp e → ActKind
  | .getJob _, .ok (some _) => .found
  | .getJob _, _ => .missed
  | .putJob put, .done _ => if put.takesLease then .ackLease else .ackPut
  | .putJob put, _ => if put.takesLease then .lease else .put
  | .note (.settleCalled _ _ _), _ => .settle
  | .note _, _ => .moment
  | .tokenHex, _ => .token
  | .putReport _ _ _, _ => .report
  | .streamWork _ _ _ _ _, _ => .stream
  | .streamEnd _ _, _ => .stream
  | .newCell _ _ _, _ => .cell
  | _, _ => .quiet

/-- Process `q` performed no effect of a class. -/
def Absent (q : Nat) (k : ActKind) (log : List Entry) : Prop :=
  ∀ x ∈ log, ∀ e r landed, x.event = .did q e r landed → actKind e r ≠ k

/-- Process `q` has made no settlement call, and tried no write of a job but
the one that takes its lease. -/
structure Unspent (q : Nat) (log : List Entry) : Prop where
  settle : Absent q .settle log
  put : Absent q .put log
  ackPut : Absent q .ackPut log

/-- Process `q` has done nothing. -/
def Idle (q : Nat) (log : List Entry) : Prop :=
  ∀ x ∈ log, ∀ e r landed, x.event ≠ .did q e r landed

/-- A tag that the job object had at some time. -/
abbrev JobVersion (job : PyStr) (tag : Tag JobRecord) (log : List Entry) : Prop :=
  Version Entry.jobWrite job tag log

/-- A tag that the wallet object had at some time. -/
abbrev WalletVersion (digest : PyStr) (tag : StoredWallet) (log : List Entry) :
    Prop :=
  Version Entry.walletWrite digest tag log

/-! ## A call of `create_job` -/

/-- What a call of `create_job` derives from its header. -/
structure CreateCall where
  inst : Nat
  header : PyStr
  request : List (PyStr × Json)
  payment : VerifiedPayment
  digest : PyStr
  identity : JobIdentity

variable (D : Deployment)

/-- Process `q` runs the call `c`, whose proof has been verified. -/
structure CreateCall.Of (c : CreateCall) (q : Nat) (log : List Entry) : Prop where
  called : Did q (.note (.createCalled c.inst c.header c.request)) () false log
  verified : ∃ now expired, verifyForCreate D c.header now = some (c.payment, expired)
  digest_eq : proofDigest D c.header = some c.digest
  identity_eq : deriveIdentity D c.payment = some c.identity

/-- The record belongs to the call's header and request. -/
structure Bound (c : CreateCall) (r : JobRecord) : Prop where
  key : r.paymentKey = c.identity.paymentKey
  digest : r.paymentProofDigest = some c.digest
  request : ∃ normalized, normalizeRequest D c.request = some normalized ∧
    (r.request = normalized.reload ∨ r.request.pyEq normalized = true)

/-- Some version of the call's job belongs to the call. -/
def BoundJob (c : CreateCall) (log : List Entry) : Prop :=
  ∃ tag, JobVersion c.identity.jobId tag log ∧ Bound D c tag.content

/-- What the settlement reads from a proof. -/
structure ProofParts where
  proof : List (PyStr × Json)
  accepted : List (PyStr × Json)
  extra : List (PyStr × Json)
  token : PaymentToken
  network : PyStr

structure ProofParts.Of (p : ProofParts) (header : PyStr) : Prop where
  decoded : decodePaymentSignature D.verify header = some p.proof
  accepted_eq : dictGet p.proof (py "accepted") = some (.obj p.accepted)
  extra_eq : dictGet p.accepted (py "extra") = some (.obj p.extra)
  token_eq : tokenByAsset D.verify.lib (dictGet p.accepted (py "asset")) =
    some p.token
  network_eq : dictGet p.accepted (py "network") = some (.str p.network)

/-- The facilitator answered process `q` about the proof of the call: a
rejected verification, or an outcome of the settlement. -/
def FacilitatorSaid (c : CreateCall) (q : Nat) (outcome : SettlementOutcome)
    (log : List Entry) : Prop :=
  ∃ p : ProofParts, p.Of D c.header ∧ ∃ reply,
    (Did q (.post c.inst .verify (envelope p.proof p.accepted)) (.ok reply) false
        log ∧ verifyVerdict reply = some false ∧ outcome = .rejected) ∨
    (Did q (.post c.inst .settle (envelope p.proof p.accepted)) (.ok reply) false
        log ∧ settleVerdict reply = some outcome) ∨
    (Did q (.post c.inst .genericSettle (envelope p.proof p.accepted)) (.ok reply)
        false log ∧ genericVerdict reply = some outcome)

/-- Process `q` read supported kinds, from the cache or from the
facilitator. -/
def KindsRead (q inst : Nat) (kinds : List Kind) (log : List Entry) : Prop :=
  (∃ expiresAt, Did q (.kinds inst) (some (kinds, expiresAt)) false log) ∨
  ∃ payload reply, Did q (.post inst .supported payload) (.ok reply) false log ∧
    supportedKinds reply = some kinds

/-- The instance of the call refuses the proof without asking: its kinds do
not offer the proof's extra, or it has no backend for the proof. -/
def LocallyRefused (c : CreateCall) (q : Nat) (log : List Entry) : Prop :=
  ∃ p : ProofParts, p.Of D c.header ∧
    (((D.service c.inst).b402 = true ∧ ∃ kinds, KindsRead q c.inst kinds log ∧
        extraOffered (paymentExtra p.network p.token kinds) p.extra = false) ∨
      ((D.service c.inst).b402 = false ∧
        (getIs p.extra (py "assetTransferMethod") (py "eip3009") = false ∨
          (D.service c.inst).facilitator = false)))

/-- Process `q` was told that its write took the lease as version `tag`. -/
def Leased (q : Nat) (job : PyStr) (tag : Tag JobRecord) (log : List Entry) :
    Prop :=
  ∃ put : JobPut, put.job = job ∧ put.takesLease = true ∧
    Did q (.putJob put) (.done tag.serial) true log ∧
    tag.content = put.record.reload

/-! ## Duties of job writes -/

/-- The settlement call of the process returned an outcome. -/
def SettleReturned (c : CreateCall) (q : Nat) (outcome : SettlementOutcome)
    (log : List Entry) : Prop :=
  Did q (.note (.settleReturned c.identity.jobId c.header (.ok outcome))) () false
    log

/-- What the creator of a record knows. -/
structure Created (c : CreateCall) (q : Nat) (log : List Entry)
    (record : JobRecord) : Prop where
  of : c.Of D q log
  fresh : Absent q .ackLease log
  made : ∃ eventId normalized reservation now,
    competitionEventId D c.payment = some eventId ∧
    normalizeRequest D c.request = some normalized ∧
    record = newRecord D (D.service c.inst).owner c.identity c.payment c.digest
      eventId normalized reservation now ∧
    Clocked q c.inst now log ∧
    verifyForCreate D c.header now = some (c.payment, false) ∧
    reservation.reservationId = c.identity.jobId ∧
    reservation.state = .reserved ∧
    isWalletDigest reservation.walletDigest = true ∧
    1 ≤ reservation.reservedAt ∧
    reservation.reservedAt ≤ maxTimestampMilliseconds ∧
    ∃ put n, Did q (.putWallet put) (.done n) true log ∧
      put.digest = reservation.walletDigest ∧
      (put.write = .create c.identity.jobId reservation.reservedAt ∨
        put.write = .append c.identity.jobId reservation.reservedAt)

/-- The version `tag` of the job belongs to the call that process `q` runs. -/
def Ours (q : Nat) (job : PyStr) (tag : Tag JobRecord) (log : List Entry) : Prop :=
  ∃ c, CreateCall.Of D c q log ∧ c.identity.jobId = job ∧ Bound D c tag.content

/-- Process `q` runs no call of `create_job`, and so holds no settlement
lease. -/
def Outsider (q : Nat) (log : List Entry) : Prop :=
  Absent q .ackLease log ∧ Absent q .moment log

/-- No write that process `q` tried expected a newer version than `tag`. -/
def Newest (q : Nat) (job : PyStr) (tag : Tag JobRecord) (log : List Entry) : Prop :=
  ∀ x ∈ log, ∀ put r landed, x.event = .did q (.putJob put) r landed →
    put.job = job → ∀ expected, put.expect = some expected →
      expected.serial ≤ tag.serial

/-- Every write that process `q` tried expected an older version than `tag`. -/
def Overtaken (q : Nat) (job : PyStr) (tag : Tag JobRecord) (log : List Entry) :
    Prop :=
  ∀ x ∈ log, ∀ put r landed, x.event = .did q (.putJob put) r landed →
    put.job = job → ∀ expected, put.expect = some expected →
      expected.serial < tag.serial

/-- Process `q` drew the token that names the owner. -/
def Drew (q : Nat) (owner : PyStr) (log : List Entry) : Prop :=
  ∃ token : HexToken, token.1 = owner ∧ Did q .tokenHex token false log

/-- Why process `q` may make a transition from the version `tag`. -/
def Cause (q : Nat) (log : List Entry) (job : PyStr) (tag : Tag JobRecord) :
    JobWrite → Prop
  | .claimed owner now =>
      Absent q .ackLease log ∧ ∃ c, CreateCall.Of D c q log ∧
        c.identity.jobId = job ∧ Bound D c tag.content ∧
        owner = (D.service c.inst).owner ∧ Clocked q c.inst now log
  | .pending reference _ =>
      ∃ c, CreateCall.Of D c q log ∧ c.identity.jobId = job ∧
        Bound D c tag.content ∧ SettleReturned c q (.pending reference) log
  | .settled reference eventId settledAt _ _ =>
      Leased q job tag log ∧ ∃ c, CreateCall.Of D c q log ∧
        c.identity.jobId = job ∧ Bound D c tag.content ∧
        competitionEventId D c.payment = some eventId ∧
        (tag.content.settledAt = some settledAt ∨ Clocked q c.inst settledAt log) ∧
        ((∃ ref, reference = some ref ∧ SettleReturned c q (.settled ref) log) ∨
          (reference = none ∧ c.payment.transferMethod = .eip3009 ∧
            Did q (.authorizationState (authKey c.payment)) (.ok true) false log))
  | .paymentFailed _ =>
      Leased q job tag log ∧ ∃ c, CreateCall.Of D c q log ∧
        c.identity.jobId = job ∧ Bound D c tag.content ∧
        (SettleReturned c q .rejected log ∨
          (c.payment.transferMethod = .eip3009 ∧
            Did q (.authorizationState (authKey c.payment)) (.ok false) false
              log ∧
            ∃ now, Clocked q c.inst now log ∧
              c.payment.validBefore ≤ now / 1000))
  | .rateCommitted _ => Ours D q job tag log ∧
      (Absent q .ackLease log ∨ ∃ put n, Did q (.putJob put) (.done n) true log ∧
        put.job = job ∧ ∃ reference eventId settledAt lease now,
          put.write = some (.settled reference eventId settledAt lease now))
  | .rateReleased _ => Ours D q job tag log ∧
      (Absent q .ackLease log ∨ ∃ put n, Did q (.putJob put) (.done n) true log ∧
        put.job = job ∧ ∃ now, put.write = some (.paymentFailed now))
  | .requeued _ => Outsider q log
  | .running owner _ =>
      Outsider q log ∧ Absent q .ackPut log ∧ Absent q .cell log ∧
        Drew q owner log ∧ Newest q job tag log ∧
        ¬ JobWrite.HeldBy owner tag.content
  | .heartbeat _ _ => Outsider q log
  | .succeeded owner _ => Outsider q log ∧ Drew q owner log ∧
      ∃ markdown, Did q (.putReport job owner markdown) (.ok ()) true log
  | .executionFailed _ _ _ _ => Outsider q log

/-- What a conditional write of a job record owes. -/
def JobPut.Owes (put : JobPut) (q : Nat) (log : List Entry) : Prop :=
  match put.write with
  | none => put.expect = none ∧ isJobId put.job = true ∧
      ∃ c, c.identity.jobId = put.job ∧ Created D c q log put.record
  | some write => ∃ tag, put.expect = some tag ∧ JobVersion put.job tag log ∧
      put.record.reload = write.apply tag.content ∧ write.Guard tag.content ∧
      Cause D q log put.job tag write

/-- What a conditional write of a wallet object owes. -/
def WalletPut.Owes (put : WalletPut) (q : Nat) (log : List Entry) : Prop :=
  (match put.expect with
    | none => ∃ id now, put.write = .create id now ∧
        put.record.entries = [⟨id, now, .reserved⟩]
    | some tag => WalletVersion put.digest tag log ∧
        put.record.entries = put.write.apply tag.content.entries ∧
        match put.write with
        | .create _ _ => False
        | .append id now =>
            (∀ e ∈ activeEntries tag.content.entries now, e.reservationId ≠ id) ∧
              (activeEntries tag.content.entries now).length < capacity
        | _ => True) ∧
  match put.write with
  | .create _ now => ∃ inst, Clocked q inst now log
  | .prune now => ∃ inst, Clocked q inst now log
  | .append _ now => ∃ inst, Clocked q inst now log
  | .commit id reservedAt now => (∃ inst, Clocked q inst now log) ∧
      ∃ tag, JobVersion id tag log ∧ tag.content.paymentStatus = .settled ∧
        tag.content.rateLimitWalletDigest = some put.digest ∧
        tag.content.rateLimitReservedAt = some reservedAt
  | .release id reservedAt now => (∃ inst, Clocked q inst now log) ∧
      ∃ tag, JobVersion id tag log ∧ tag.content.paymentStatus = .failed ∧
        tag.content.rateLimitWalletDigest = some put.digest ∧
        tag.content.rateLimitReservedAt = some reservedAt

/-! ## Duties of the other effects -/

/-- The newest stream event of process `q`. -/
def LastStream (q : Nat) (e : Eff) (r : Resp e) (log : List Entry) : Prop :=
  ∃ newer x older, log = newer ++ x :: older ∧ x.event = .did q e r false ∧
    Absent q .stream newer

/-- Process `q` has read a record whose competition report is due. -/
def AwaitsReport (q : Nat) {job : PyStr} (stored : StoredJob job)
    (log : List Entry) : Prop :=
  Did q (.getJob job) (.ok (some stored)) false log ∧
    accountingIsPending stored.record = true

/-- A worker's cell holds versions of its own job. -/
def Held (job owner : PyStr) (stored : StoredJob job) (log : List Entry) : Prop :=
  JobVersion job stored.tag log ∧ JobWrite.HeldBy owner stored.record

/-- A record of the call's identity that the process found. -/
def FoundOther (c : CreateCall) (q : Nat) (log : List Entry) : Prop :=
  ∃ stored : StoredJob c.identity.jobId,
    Did q (.getJob c.identity.jobId) (.ok (some stored)) false log ∧
    stored.record.paymentKey = c.identity.paymentKey ∧ ¬ Bound D c stored.record

/-- The refusal a foreign header or request gets. -/
def RefusesBinding (c : CreateCall) (x : Exn) : Prop :=
  x = .job .paymentRejected false ∨
    (normalizeRequest D c.request = none ∧ x = .job .invalidRequest false)

def Moment.Owes (q : Nat) (log : List Entry) : Moment → Prop
  | .createCalled _ _ _ => Idle q log
  | .createReturned result => ∃ c, CreateCall.Of D c q log ∧ BoundJob D c log ∧
      result.jobId = c.identity.jobId ∧ result.jobToken = c.identity.jobToken
  | .createRaised x => ∀ c, CreateCall.Of D c q log → FoundOther D c q log →
      RefusesBinding D c x
  | .settleCalled job header _ => Unspent q log ∧
      ∃ c, CreateCall.Of D c q log ∧ c.identity.jobId = job ∧ c.header = header ∧
        ∃ tag, Leased q job tag log ∧ Bound D c tag.content ∧
          JobWrite.Settling tag.content
  | .settleReturned job header outcome =>
      ∃ c, CreateCall.Of D c q log ∧ c.identity.jobId = job ∧ c.header = header ∧
        (∃ mode, Did q (.note (.settleCalled job header mode)) () false log) ∧
        ∀ o, outcome = .ok o → FacilitatorSaid D c q o log ∨
          (o = .rejected ∧ LocallyRefused D c q log)

/-- What process `q` owes when it performs an effect. -/
def Duty (q : Nat) (log : List Entry) : Eff → Prop
  | .putJob put => put.Owes D q log ∧ encodable D.verify.lib put.record = true
  | .putWallet put => put.Owes q log
  | .report eventId address calledAt => ∃ job, ∃ stored : StoredJob job,
      AwaitsReport q stored log ∧ stored.record.competitionEventId = eventId ∧
      stored.record.address = address ∧ stored.record.settledAt = some calledAt
  | .putMarker job marker => ∃ stored : StoredJob job,
      marker = ⟨stored.record.competitionEventId, stored.record.settledAt.getD 0⟩ ∧
      ∃ t older, (⟨t, .did q (.report stored.record.competitionEventId
        stored.record.address (stored.record.settledAt.getD 0)) (.ok true) false⟩ :
          Entry) :: older <:+ log ∧ AwaitsReport q stored older
  | .putReport job reportId markdown => Absent q .report log ∧
      Drew q reportId log ∧ ∃ reply : StreamReply,
        LastStream q (.streamEnd job reportId) reply log ∧
        reply.ending = .ok () ∧ finalReport reply.events = some markdown
  | .streamWork job owner _ _ _ => Absent q .report log ∧ Drew q owner log ∧
      ∃ tag, JobVersion job tag log ∧ JobWrite.HeldBy owner tag.content
  | .streamEnd job owner => ∃ prompt session symbols,
      LastStream q (.streamWork job owner prompt session symbols) () log
  | .newCell job owner stored => Held job owner stored log ∧ Drew q owner log ∧
      Overtaken q job stored.tag log
  | .setHolder cell stored => Held cell.job cell.owner stored log
  | .note moment => moment.Owes D q log
  | _ => True

/-! ## Lawful histories -/

/-- An event that may follow a history. -/
def Follows (log : List Entry) (x : Entry) : Prop :=
  (∀ y ∈ log, y.time ≤ x.time) ∧
  match x.event with
  | .did q e r landed => Duty D q log e ∧ Answer e ⟨x.time, log⟩ r landed
  | .landedLate q e => ∃ t r, (⟨t, .did q e r false⟩ : Entry) ∈ log ∧
      CanLandLate e r ⟨x.time, log⟩
  | .chainUsed key _ => chainAt key log = none

/-- Every effect of the history met its duty and got a possible reply. -/
def Lawful : List Entry → Prop
  | [] => True
  | x :: log => Lawful log ∧ Follows D log x

end X402
