import StockAnalyst.JobFrame

/-!
# One authorization buys one job

Payments that share asset, payer and nonce have one identity.  A job record
belongs to the header and the request it was created with, and a call with
another header or another request gets nothing from it.  The request is
compared after the JSON round trip of the store, so two requests count as the
same when they are stored as the same.
-/

namespace X402

open Python ConditionalStore Coroutine

variable {D : Deployment} {log older : List Entry} {q q' : Nat} {c c' : CreateCall}
  {job : PyStr} {tag : Tag JobRecord}

/-! ## Identity -/

/-- The payment of a call is in a registered token. -/
theorem CreateCall.Of.token (h : c.Of D q log) : ∃ token ∈ tokens,
    c.payment.asset = token.asset ∧ c.payment.tokenSymbol = token.symbol := by
  obtain ⟨now, expired, hverify⟩ := h.verified
  obtain ⟨allow, hvalid⟩ := verifyForCreate_valid hverify
  obtain ⟨proof, accepted, token, extra, -, -, htoken, -, hasset, -, hsymbol⟩ :=
    validatePaymentProof_parts hvalid
  exact ⟨token, tokenByAsset_mem htoken, hasset, hsymbol⟩

/-- The symbol in the payment key follows from the asset. -/
theorem CreateCall.Of.same_symbol (hof : c.Of D q log) (hof' : c'.Of D q' log)
    (h : c.payment.asset = c'.payment.asset) :
    c.payment.tokenSymbol = c'.payment.tokenSymbol := by
  obtain ⟨token, hmem, hasset, hsymbol⟩ := hof.token
  obtain ⟨token', hmem', hasset', hsymbol'⟩ := hof'.token
  have htokens : token.asset = token'.asset := by
    rw [← hasset, ← hasset', h]
  rw [hsymbol, hsymbol', token_of_asset hmem hmem' htokens]

/-- One authorization has one identity. -/
theorem CreateCall.Of.same_identity (hof : c.Of D q log) (hof' : c'.Of D q' log)
    (h : authKey c.payment = authKey c'.payment) : c.identity = c'.identity := by
  have hasset : c.payment.asset = c'.payment.asset := congrArg AuthKey.asset h
  have hpayer : c.payment.fromAddress = c'.payment.fromAddress :=
    congrArg AuthKey.authorizer h
  have hnonce : c.payment.nonceBytes = c'.payment.nonceBytes := congrArg AuthKey.nonce h
  have hparts : canonicalPaymentParts D c.payment = canonicalPaymentParts D c'.payment := by
    simp only [canonicalPaymentParts, hasset, hpayer, hnonce]
  have hmaterial : paymentKeyMaterial D c.payment = paymentKeyMaterial D c'.payment := by
    simp only [paymentKeyMaterial, hparts, hof.same_symbol hof' hasset]
  have hderived := hof.identity_eq
  unfold deriveIdentity at hderived
  rw [hmaterial] at hderived
  exact Option.some.inj (hderived.symm.trans hof'.identity_eq)

/-! ## The stored request -/

/-- The stored request is the normalized one, as it is or after the round trip
of the store. -/
def StandsFor (stored normalized : Json) : Prop :=
  stored = normalized.reload ∨ stored.pyEq normalized = true

/-- The round trip of the store does not change the value. -/
def RoundTrips (value : Json) : Prop := value.reload.pyEq value = true

/-- A request that survives the store's round trip is equal to the stored
one. -/
theorem StandsFor.pyEq {stored normalized : Json} (h : StandsFor stored normalized)
    (htrip : RoundTrips normalized) : stored.pyEq normalized = true := by
  rcases h with rfl | h
  · exact htrip
  · exact h

/-- Requests that one stored request stands for are equal where the store
changes neither. -/
theorem StandsFor.same {stored n n' : Json} (h : StandsFor stored n)
    (h' : StandsFor stored n') (hn : RoundTrips n) (hn' : RoundTrips n') :
    n.pyEq n' = true :=
  Json.pyEq_trans (Json.pyEq_symm (h.pyEq hn)) (h'.pyEq hn')

/-! ## The owner of a record -/

/-- Every version belongs to the call that created the job. -/
theorem Lawful.creator (h : Lawful D log) (hver : JobVersion job tag log) :
    ∃ c q, CreateCall.Of D c q log ∧ c.identity.jobId = job ∧ Bound D c tag.content := by
  induction log generalizing job tag with
  | nil =>
      obtain ⟨l, hl, hcur⟩ := hver
      obtain rfl := List.suffix_nil.1 hl
      cases hcur
  | cons x log ih =>
      have hcons : log <:+ x :: log := List.suffix_cons x log
      rcases hver.cons with hold | ⟨hwrite, -⟩
      · obtain ⟨c, q, hof, hjob, hbound⟩ := ih h.1 hold
        exact ⟨c, q, hof.mono hcons, hjob, hbound⟩
      · obtain ⟨put, hput, rfl, hcontent⟩ := jobWrite_eq_some hwrite
        rw [← hcontent]
        obtain ⟨q, l, -, hsuf, -, hcase⟩ := h.job_step hput
        rcases hcase with ⟨-, -, -, c, hjob, hcreated⟩ |
            ⟨write, base, -, hcur, -, -, hrecord, -, -⟩
        · obtain ⟨eventId, normalized, reservation, now, -, hnormalized, hrecord, -⟩ :=
            hcreated.made
          rw [hrecord]
          exact ⟨c, q, hcreated.of.mono (hsuf.trans hcons), hjob,
            ⟨rfl, rfl, normalized, hnormalized, Or.inl rfl⟩⟩
        · obtain ⟨c, q', hof, hjob, hbound⟩ := ih h.1 (Version.of_current hcur)
          rw [hrecord]
          exact ⟨c, q', hof.mono hcons, hjob,
            hbound.sameJob (write.apply_sameJob base.content)⟩

/-- The call sent another header, or a request that the stored one does not
stand for. -/
def Differs (D : Deployment) (c owner : CreateCall) (stored : Json) : Prop :=
  c.header ≠ owner.header ∨
    ∀ normalized, normalizeRequest D c.request = some normalized →
      ¬ StandsFor stored normalized

/-- A record that belongs to one call does not belong to a call that
differs. -/
theorem Differs.not_bound {r : JobRecord} (h : Differs D c c' r.request)
    (hsha : NoCollision D log) (hof : c.Of D q log) (hof' : c'.Of D q' log)
    (howner : Bound D c' r) : ¬ Bound D c r := by
  intro hbound
  rcases h with hheader | hrequest
  · have hdigest : some c.digest = some c'.digest :=
      hbound.digest.symm.trans howner.digest
    exact hheader (hsha.same_call hof hof' (Option.some.inj hdigest)).1
  · obtain ⟨normalized, hnormalized, hstands⟩ := hbound.request
    exact hrequest normalized hnormalized hstands

/-! ## Calls that found a record of another call -/

theorem FoundOther.mono (h : FoundOther D c q older) (hsuf : older <:+ log) :
    FoundOther D c q log := by
  obtain ⟨stored, hdid, hrest⟩ := h
  exact ⟨stored, hdid.mono hsuf, hrest⟩

/-- No version of the job belongs to a call that found another call's record. -/
theorem Lawful.not_boundJob (h : Lawful D log) (hother : FoundOther D c q log) :
    ¬ BoundJob D c log := by
  intro hjob
  exact Clear.not_found (Or.inr (Or.inl hjob)) h hother

/-- No write of the job comes from such a call: each of them needs the lease
or a version that belongs to its call, or is none of `create_job`. -/
theorem Lawful.other_writes (h : Lawful D log) (hof : c.Of D q log)
    (hother : FoundOther D c q log) {x : Entry} {put : JobPut}
    (hsuf : x :: older <:+ log) (hput : x.jobPut = some put)
    (hpid : x.event.pid = some q) : put.job ≠ c.identity.jobId := by
  intro hjob
  have hno := h.not_boundJob hother
  have hx := h.of_suffix hsuf
  obtain ⟨p, l, hpid', hl, -, hduty, hhow⟩ := hx.landing (jobPut_eq_some hput)
  obtain rfl := Option.some.inj (hpid'.symm.trans hpid)
  have hall : l <:+ log := hl.trans ((List.suffix_cons x older).trans hsuf)
  have hcalled : Did p (.note (.createCalled c.inst c.header c.request)) () false l := by
    rcases hhow with ⟨r, hevent, rfl, -⟩ | ⟨t, r, -, hissued, -⟩
    · exact h.called_before hof.called hsuf hevent (by simp)
    · exact h.called_before hof.called
        (hissued.trans ((List.suffix_cons x older).trans hsuf)) rfl (by simp)
  have hinside : ¬ Outsider p l := by
    intro hout
    obtain ⟨t, ht⟩ := hcalled
    exact hout.2 _ ht _ _ _ rfl rfl
  have hours : ∀ {c' tag}, CreateCall.Of D c' p l → JobVersion put.job tag log →
      Bound D c' tag.content → False := by
    intro c' tag hof' hver hbound
    obtain rfl := (hof'.mono hall).unique hof h
    rw [hjob] at hver
    exact hno ⟨tag, hver, hbound⟩
  have howes : put.Owes D p l := hduty.1
  unfold JobPut.Owes at howes
  cases hwrite : put.write with
  | none =>
      rw [hwrite] at howes
      obtain ⟨-, -, c', -, hcreated⟩ := howes
      obtain ⟨eventId, normalized, reservation, now, -, hnormalized, hrecord, -⟩ :=
        hcreated.made
      have hver : JobVersion put.job ⟨jobSerial put.job older + 1, put.record.reload⟩ log :=
        ⟨_, hsuf, jobTag_cons_put hput⟩
      refine hours hcreated.of hver ?_
      rw [hrecord]
      exact ⟨rfl, rfl, normalized, hnormalized, Or.inl rfl⟩
  | some write =>
      rw [hwrite] at howes
      obtain ⟨tag, -, hver, -, -, hcause⟩ := howes
      have hver := hver.mono hall
      cases write with
      | claimed owner now =>
          obtain ⟨-, c', hof', -, hbound, -⟩ := hcause
          exact hours hof' hver hbound
      | pending reference now =>
          obtain ⟨c', hof', -, hbound, -⟩ := hcause
          exact hours hof' hver hbound
      | settled reference eventId settledAt lease now =>
          obtain ⟨-, c', hof', -, hbound, -⟩ := hcause
          exact hours hof' hver hbound
      | paymentFailed now =>
          obtain ⟨-, c', hof', -, hbound, -⟩ := hcause
          exact hours hof' hver hbound
      | rateCommitted now =>
          obtain ⟨⟨c', hof', -, hbound⟩, -⟩ := hcause
          exact hours hof' hver hbound
      | rateReleased now =>
          obtain ⟨⟨c', hof', -, hbound⟩, -⟩ := hcause
          exact hours hof' hver hbound
      | requeued now => exact hinside hcause
      | running owner now => exact hinside hcause.1
      | heartbeat owner now => exact hinside hcause
      | succeeded owner now => exact hinside hcause.1
      | executionFailed owner now code retryable => exact hinside hcause

/-- The call that process `q` runs returns nothing, raises only a refusal once
it has found a record, settles nothing and does not touch the job. -/
structure RefusedCall (D : Deployment) (c : CreateCall) (q : Nat)
    (found log : List Entry) : Prop where
  returns : ∀ result, ¬ Did q (.note (.createReturned result)) () false log
  raises : ∀ t exn older, found <:+ older →
    (⟨t, .did q (.note (.createRaised exn)) () false⟩ : Entry) :: older <:+ log →
    RefusesBinding D c exn
  settles : ∀ job header mode,
    ¬ Did q (.note (.settleCalled job header mode)) () false log
  writes : ∀ (x : Entry) older put, x :: older <:+ log → x.jobPut = some put →
    x.event.pid = some q → put.job ≠ c.identity.jobId

/-- What a call gets from `create_job`. -/
theorem Lawful.returned (h : Lawful D log) (hof : c.Of D q log) {result : CreateJobResult}
    (hdid : Did q (.note (.createReturned result)) () false log) :
    BoundJob D c log ∧ result.jobId = c.identity.jobId ∧
      result.jobToken = c.identity.jobToken := by
  obtain ⟨t, older, hsuf, -, hduty, -⟩ := h.duty hdid
  obtain ⟨c', hof', hjob, hid, htoken⟩ := hduty
  have hold : older <:+ log := (List.suffix_cons _ older).trans hsuf
  obtain rfl := (hof'.mono hold).unique hof h
  exact ⟨hjob.mono hold, hid, htoken⟩

/-- **A call that found the record of another call is refused.** -/
theorem Lawful.refused (h : Lawful D log) (hsuf : older <:+ log) (hof : c.Of D q older)
    (hother : FoundOther D c q older) : RefusedCall D c q older log where
  returns := by
    intro result hdid
    exact h.not_boundJob (hother.mono hsuf) (h.returned (hof.mono hsuf) hdid).1
  raises := by
    intro t exn l hfound hraised
    have hduty := (h.of_suffix hraised).2.2.1
    exact hduty c (hof.mono hfound) (hother.mono hfound)
  settles := by
    intro job header mode hdid
    obtain ⟨t, l, hl, hlawful, ⟨-, c', hof', hjob, -, tag, hleased, hbound, -⟩, -⟩ :=
      h.duty hdid
    have hl : l <:+ log := (List.suffix_cons _ l).trans hl
    obtain rfl := (hof'.mono hl).unique (hof.mono hsuf) h
    have hver := (hlawful.leased_version hleased).mono hl
    rw [← hjob] at hver
    exact h.not_boundJob (hother.mono hsuf) ⟨tag, hver, hbound⟩
  writes := fun x l put => h.other_writes (hof.mono hsuf) (hother.mono hsuf)

/-- **One authorization buys one job.**  Calls that returned for payments with
the same asset, payer and nonce got the same job and token, sent the same
header, and the stored request of the job stands for both normalized requests,
which are equal where the store's round trip changes neither.  A call that
found a record of its identity, and sent another header or a request that the
stored one does not stand for, is refused. -/
theorem one_authorization {s : Config (service D)} (h : Reachable D s)
    (hsha : NoCollision D s.world.log) :
    (∀ q q' c c' result result', CreateCall.Of D c q s.world.log →
      CreateCall.Of D c' q' s.world.log →
      Did q (.note (.createReturned result)) () false s.world.log →
      Did q' (.note (.createReturned result')) () false s.world.log →
      authKey c.payment = authKey c'.payment →
      result.jobId = result'.jobId ∧ result.jobToken = result'.jobToken ∧
      c.header = c'.header ∧ ∃ tag n n', JobVersion result.jobId tag s.world.log ∧
        normalizeRequest D c.request = some n ∧ normalizeRequest D c'.request = some n' ∧
        StandsFor tag.content.request n ∧ StandsFor tag.content.request n' ∧
        (RoundTrips n → RoundTrips n' → n.pyEq n' = true)) ∧
    ∀ older, older <:+ s.world.log → ∀ q c (stored : StoredJob c.identity.jobId),
      CreateCall.Of D c q older →
      Did q (.getJob c.identity.jobId) (.ok (some stored)) false older →
      stored.record.paymentKey = c.identity.paymentKey →
      ∃ owner p, CreateCall.Of D owner p older ∧ Bound D owner stored.record ∧
        (Differs D c owner stored.record.request →
          RefusedCall D c q older s.world.log) := by
  have hlawful := h.lawful
  refine ⟨?_, ?_⟩
  · intro q q' c c' result result' hof hof' hdid hdid' hsame
    have hidentity := hof.same_identity hof' hsame
    obtain ⟨hjob, hid, htoken⟩ := hlawful.returned hof hdid
    obtain ⟨hjob', hid', htoken'⟩ := hlawful.returned hof' hdid'
    obtain ⟨tag, hver, hbound⟩ := hjob
    have hbound' : Bound D c' tag.content := hjob'.all hlawful (hidentity ▸ hver)
    have hdigest : some c.digest = some c'.digest := hbound.digest.symm.trans hbound'.digest
    obtain ⟨n, hn, hstands⟩ := hbound.request
    obtain ⟨n', hn', hstands'⟩ := hbound'.request
    refine ⟨?_, ?_, (hsha.same_call hof hof' (Option.some.inj hdigest)).1,
      tag, n, n', hid ▸ hver, hn, hn', hstands, hstands', StandsFor.same hstands hstands'⟩
    · rw [hid, hid', hidentity]
    · rw [htoken, htoken', hidentity]
  · intro older hsuf q c stored hof hdid hkey
    have hold := hlawful.of_suffix hsuf
    have hfound := hold.found hdid
    obtain ⟨owner, p, hofOwner, -, hbound⟩ := hold.creator hfound.known
    rw [← hfound.same] at hbound
    refine ⟨owner, p, hofOwner, hbound, ?_⟩
    intro hdiffers
    exact hlawful.refused hsuf hof ⟨stored, hdid, hkey,
      hdiffers.not_bound (hsha.of_suffix hsuf) hof hofOwner hbound⟩

/-! ### A run with three calls -/

/-- A request whose analysis type is a surrogate pair in two code points. -/
def pairRequest : List (PyStr × Json) :=
  [(py "symbols", .arr [.str (py "BNB")]), (py "analysis_type", .str [0xD83D, 0xDE00])]

/-- The same request with the code point the pair stands for. -/
def joinedRequest : List (PyStr × Json) :=
  [(py "symbols", .arr [.str (py "BNB")]), (py "analysis_type", .str [0x1F600])]

/-- The buyer pays, asks again with the joined request, and at last sends the
authorization under another resource with a request without symbols. -/
def threeCallsScript : List Choice :=
  .start (.createJob 0 (sampleHeader sampleUrl) pairRequest) ::
    (plainly 0 12 ++ .act 0 settledReply :: plainly 0 16) ++
  .start (.createJob 0 (sampleHeader sampleUrl) joinedRequest) :: plainly 3 7 ++
  .start (.createJob 0 (sampleHeader otherUrl) []) :: plainly 4 4

/-- The call of `create_job` that process `q` runs on the first instance. -/
def callIn (q : Nat) (log : List Entry) : Option (PyStr × List (PyStr × Json)) :=
  log.findSome? fun x => match x.event with
    | .did q' (.note (.createCalled 0 header request)) () false =>
        if q' = q then some (header, request) else none
    | _ => none

theorem called_of_callIn {header : PyStr} {request : List (PyStr × Json)}
    (h : callIn q log = some (header, request)) :
    Did q (.note (.createCalled 0 header request)) () false log := by
  obtain ⟨x, hx, hcall⟩ := List.exists_of_findSome?_eq_some h
  obtain ⟨t, event⟩ := x
  dsimp only at hcall
  split at hcall
  · split at hcall
    · rename_i hpid
      subst hpid
      cases hcall
      exact ⟨t, hx⟩
    · cases hcall
  · cases hcall

/-- The call in the log has the header and the request of the process. -/
theorem CreateCall.Of.callIn_eq (h : c.Of D q log) (hlawful : Lawful D log)
    {call : PyStr × List (PyStr × Json)} (hcall : callIn q log = some call) :
    c.header = call.1 ∧ c.request = call.2 := by
  obtain ⟨header, request⟩ := call
  exact (hlawful.called_unique h.called (called_of_callIn hcall)).2

/-- Two processes sent the sample header with requests that are normalized to
unequal values. -/
def unlikeIn (q q' : Nat) (log : List Entry) : Bool :=
  (callIn q log).any fun a => (callIn q' log).any fun b =>
    decide (a.1 = sampleHeader sampleUrl) && decide (b.1 = sampleHeader sampleUrl) &&
      (normalizeRequest sample a.2).any fun n =>
        (normalizeRequest sample b.2).any fun n' => !n.pyEq n'

def returnedIn (q : Nat) (log : List Entry) : Bool :=
  log.any fun x => match x.event with
    | .did q' (.note (.createReturned _)) () false => decide (q' = q)
    | _ => false

/-- Every header of the run is one of the two sample headers. -/
def sampleHeadersIn (log : List Entry) : Bool :=
  log.all fun x => match x.event with
    | .did _ (.note (.createCalled _ header _)) _ _ =>
        decide (header ∈ [sampleHeader sampleUrl, sampleHeader otherUrl])
    | _ => true

/-- Process `q` found the sample job, and the newest entry says that its call
raised `invalid_request`. -/
def refusedRequestIn (q : Nat) (log : List Entry) : Bool :=
  match log with
  | ⟨_, .did q' (.note (.createRaised (.jobError .invalidRequest false none))) ()
        false⟩ :: older =>
      decide (q' = q) && (callIn q older).any (·.1 = sampleHeader otherUrl) &&
        older.any fun x => match x.event with
          | .did q' (.getJob job) (.ok (some _)) false =>
              decide (q' = q) && decide (job = sampleJob)
          | _ => false
  | _ => false

theorem refused_of_refusedRequestIn (h : refusedRequestIn q log = true) :
    (∃ request, Did q (.note (.createCalled 0 (sampleHeader otherUrl) request)) () false
      log) ∧
    (∃ stored : StoredJob sampleJob,
      Did q (.getJob sampleJob) (.ok (some stored)) false log) ∧
    Did q (.note (.createRaised (.job .invalidRequest false))) () false log := by
  unfold refusedRequestIn at h
  split at h
  · rename_i t q' older
    simp only [Bool.and_eq_true, decide_eq_true_eq] at h
    obtain ⟨⟨rfl, hcalled⟩, hread⟩ := h
    obtain ⟨⟨header, request⟩, hcall, hother⟩ := (Option.any_eq_true _ _).1 hcalled
    obtain rfl : header = sampleHeader otherUrl := of_decide_eq_true hother
    have hcons : ∀ {x : Entry}, x ∈ older →
        x ∈ (⟨t, .did q' (.note (.createRaised (.jobError .invalidRequest false none))) ()
          false⟩ : Entry) :: older := List.mem_cons_of_mem _
    refine ⟨?_, ?_, t, List.mem_cons_self⟩
    · obtain ⟨t', ht'⟩ := called_of_callIn hcall
      exact ⟨request, t', hcons ht'⟩
    · obtain ⟨⟨t', event⟩, hx, hread⟩ := List.any_eq_true.1 hread
      dsimp only at hread
      split at hread
      · rename_i q'' job stored
        simp only [Bool.and_eq_true, decide_eq_true_eq] at hread
        obtain ⟨rfl, rfl⟩ := hread
        exact ⟨stored, t', hcons hx⟩
      · cases hread
  · cases h

def threeCallsIn (log : List Entry) : Bool :=
  sampleHeadersIn log && unlikeIn 0 3 log && returnedIn 0 log && returnedIn 3 log &&
    refusedRequestIn 4 log

theorem threeCalls_run :
    (playSample threeCallsScript).any (fun s => threeCallsIn s.world.log) = true := by
  decide +kernel

theorem noCollision_of_sampleHeadersIn (h : sampleHeadersIn log = true) :
    NoCollision sample log := by
  have hheader : ∀ {q inst header request},
      Did q (.note (.createCalled inst header request)) () false log →
      header = sampleHeader sampleUrl ∨ header = sampleHeader otherUrl := by
    intro q inst header request hcall
    obtain ⟨t, ht⟩ := hcall
    simpa using List.all_eq_true.1 h _ ht
  have hdiffer : (sample.sha256 (sampleHeader sampleUrl)).hex ≠
      (sample.sha256 (sampleHeader otherUrl)).hex := by
    decide +kernel
  intro q q' inst inst' header header' request request' hcall hcall' hsha
  have hhex := congrArg Digest.hex hsha
  rcases hheader hcall with rfl | rfl <;> rcases hheader hcall' with rfl | rfl
  · rfl
  · exact absurd hhex hdiffer
  · exact absurd hhex.symm hdiffer
  · rfl

theorem Lawful.returned_of_returnedIn (h : Lawful sample log)
    (hreturned : returnedIn q log = true) : ∃ c result, CreateCall.Of sample c q log ∧
      Did q (.note (.createReturned result)) () false log := by
  obtain ⟨x, hx, hcheck⟩ := List.any_eq_true.1 hreturned
  obtain ⟨t, event⟩ := x
  dsimp only at hcheck
  split at hcheck
  · rename_i q' result
    obtain rfl : q' = q := of_decide_eq_true hcheck
    have hdid : Did q' (.note (.createReturned result)) () false log := ⟨t, hx⟩
    obtain ⟨t', older, hsuf, -, ⟨c, hof, -⟩, -⟩ := h.duty hdid
    exact ⟨c, result, hof.mono ((List.suffix_cons _ older).trans hsuf), hdid⟩
  · cases hcheck

/-- A call that sent the sample header pays with the sample authorization. -/
theorem sample_other : (verifyForCreate sample (sampleHeader otherUrl) 1700000100000).any
    (fun v => decide (authKey v.1 = sampleKey) &&
      (deriveIdentity sample v.1).any (fun i => decide (i.jobId = sampleJob))) = true ∧
    (proofDigest sample (sampleHeader otherUrl)).isSome = true := by
  decide +kernel

/-- The call with the other resource. -/
theorem other_call {request : List (PyStr × Json)}
    (hcalled : Did q (.note (.createCalled 0 (sampleHeader otherUrl) request)) () false
      log) :
    ∃ c, CreateCall.Of sample c q log ∧ c.header = sampleHeader otherUrl ∧
      authKey c.payment = sampleKey ∧ c.identity.jobId = sampleJob := by
  obtain ⟨⟨payment, expired⟩, hverify, hcheck⟩ := (Option.any_eq_true _ _).1 sample_other.1
  obtain ⟨digest, hdigest⟩ := Option.isSome_iff_exists.1 sample_other.2
  obtain ⟨hkey, hidentity⟩ := Bool.and_eq_true_iff.1 hcheck
  obtain ⟨identity, hderive, hjob⟩ := (Option.any_eq_true _ _).1 hidentity
  exact ⟨⟨0, sampleHeader otherUrl, request, payment, digest, identity⟩,
    ⟨hcalled, ⟨_, expired, hverify⟩, hdigest, hderive⟩, rfl, of_decide_eq_true hkey,
    of_decide_eq_true hjob⟩

/-- Processes 0 and 3 return for unequal requests, and process 4 found their
job's record, sent another header and raised `invalid_request`. -/
theorem Lawful.threeCalls (h : Lawful sample log) (hcheck : threeCallsIn log = true) :
    (∃ c c' result result' n n', CreateCall.Of sample c 0 log ∧
      CreateCall.Of sample c' 3 log ∧
      Did 0 (.note (.createReturned result)) () false log ∧
      Did 3 (.note (.createReturned result')) () false log ∧
      authKey c.payment = authKey c'.payment ∧ normalizeRequest sample c.request = some n ∧
      normalizeRequest sample c'.request = some n' ∧ n.pyEq n' = false) ∧
    ∃ c, ∃ stored : StoredJob c.identity.jobId, CreateCall.Of sample c 4 log ∧
      Did 4 (.getJob c.identity.jobId) (.ok (some stored)) false log ∧
      stored.record.paymentKey = c.identity.paymentKey ∧
      (∃ owner, CreateCall.Of sample owner 0 log ∧
        Bound sample owner stored.record ∧ c.header ≠ owner.header) ∧
      Did 4 (.note (.createRaised (.job .invalidRequest false))) () false log := by
  simp only [threeCallsIn, Bool.and_eq_true] at hcheck
  obtain ⟨⟨⟨⟨-, hunlike⟩, hback⟩, hback'⟩, hrefused⟩ := hcheck
  obtain ⟨c, result, hof, hreturned⟩ := h.returned_of_returnedIn hback
  obtain ⟨c', result', hof', hreturned'⟩ := h.returned_of_returnedIn hback'
  obtain ⟨a, ha, hunlike⟩ := (Option.any_eq_true _ _).1 hunlike
  obtain ⟨b, hb, hunlike⟩ := (Option.any_eq_true _ _).1 hunlike
  simp only [Bool.and_eq_true, decide_eq_true_eq] at hunlike
  obtain ⟨⟨ha', hb'⟩, hunlike⟩ := hunlike
  obtain ⟨n, hn, hunlike⟩ := (Option.any_eq_true _ _).1 hunlike
  obtain ⟨n', hn', hunlike⟩ := (Option.any_eq_true _ _).1 hunlike
  obtain ⟨hheader, hrequest⟩ := hof.callIn_eq h ha
  obtain ⟨hheader', hrequest'⟩ := hof'.callIn_eq h hb
  have hkey := (hof.sample_payment (hheader.trans ha')).key
  have hkey' := (hof'.sample_payment (hheader'.trans hb')).key
  refine ⟨⟨c, c', result, result', n, n', hof, hof', hreturned, hreturned',
    hkey.trans hkey'.symm, hrequest ▸ hn, hrequest' ▸ hn', by simpa using hunlike⟩, ?_⟩
  obtain ⟨⟨request, hcalled⟩, ⟨stored, hdid⟩, hraised⟩ := refused_of_refusedRequestIn hrefused
  obtain ⟨d, hofD, hheaderD, hkeyD, hjobD⟩ := other_call hcalled
  have hfound := h.found hdid
  have hsame := hofD.same_identity hof (hkeyD.trans hkey.symm)
  have hbound : Bound sample c stored.record := by
    rw [hfound.same]
    refine (h.returned hof hreturned).1.all h ?_
    rw [← hsame, hjobD]
    exact hfound.known
  obtain ⟨stored', hdid', hbound'⟩ : ∃ stored' : StoredJob d.identity.jobId,
      Did 4 (.getJob d.identity.jobId) (.ok (some stored')) false log ∧
        Bound sample c stored'.record := by
    rw [hjobD]
    exact ⟨stored, hdid, hbound⟩
  have hurls : sampleHeader otherUrl ≠ sampleHeader sampleUrl := by decide +kernel
  refine ⟨d, stored', hofD, hdid', ?_, ⟨c, hof, hbound', ?_⟩, hraised⟩
  · rw [hbound'.key, hsame]
  · rw [hheaderD, hheader.trans ha']
    exact hurls

/-- A claim of exact equality is too strong: the second call returns for a
request that is not equal to the first one, and the third call found the record
of its authorization, sent another header, and raised `invalid_request`. -/
theorem binding_inexact : ∃ s, Reachable sample s ∧ NoCollision sample s.world.log ∧
    (∃ c c' result result' n n', CreateCall.Of sample c 0 s.world.log ∧
      CreateCall.Of sample c' 3 s.world.log ∧
      Did 0 (.note (.createReturned result)) () false s.world.log ∧
      Did 3 (.note (.createReturned result')) () false s.world.log ∧
      authKey c.payment = authKey c'.payment ∧ normalizeRequest sample c.request = some n ∧
      normalizeRequest sample c'.request = some n' ∧ n.pyEq n' = false) ∧
    ∃ c, ∃ stored : StoredJob c.identity.jobId, CreateCall.Of sample c 4 s.world.log ∧
      Did 4 (.getJob c.identity.jobId) (.ok (some stored)) false s.world.log ∧
      stored.record.paymentKey = c.identity.paymentKey ∧
      (∃ owner, CreateCall.Of sample owner 0 s.world.log ∧
        Bound sample owner stored.record ∧ c.header ≠ owner.header) ∧
      Did 4 (.note (.createRaised (.job .invalidRequest false))) () false
        s.world.log := by
  obtain ⟨s, hreach, hcheck⟩ := exists_run _ _ threeCalls_run
  have hheaders : sampleHeadersIn s.world.log = true := by
    simp only [threeCallsIn, Bool.and_eq_true] at hcheck
    exact hcheck.1.1.1.1
  exact ⟨s, hreach, noCollision_of_sampleHeadersIn hheaders, hreach.lawful.threeCalls hcheck⟩

/-- In the run with three calls, two calls get one job and the third one is
refused. -/
theorem one_authorization_thrice : ∃ s, Reachable sample s ∧
    ∃ c c' result result', CreateCall.Of sample c 0 s.world.log ∧
      CreateCall.Of sample c' 3 s.world.log ∧
      Did 0 (.note (.createReturned result)) () false s.world.log ∧
      Did 3 (.note (.createReturned result')) () false s.world.log ∧
      result.jobId = result'.jobId ∧ result.jobToken = result'.jobToken ∧
      ∃ d, CreateCall.Of sample d 4 s.world.log ∧
        RefusedCall sample d 4 s.world.log s.world.log := by
  obtain ⟨s, hreach, hcheck⟩ := exists_run _ _ threeCalls_run
  have hheaders : sampleHeadersIn s.world.log = true := by
    simp only [threeCallsIn, Bool.and_eq_true] at hcheck
    exact hcheck.1.1.1.1
  obtain ⟨⟨c, c', result, result', n, n', hof, hof', hback, hback', hkey, -⟩,
    d, stored, hofD, hdid, hkeyD, ⟨owner, hofOwner, hbound, hdiffer⟩, -⟩ :=
    hreach.lawful.threeCalls hcheck
  have hsha := noCollision_of_sampleHeadersIn hheaders
  obtain ⟨hsame, hrefused⟩ := one_authorization hreach hsha
  obtain ⟨hid, htoken, -⟩ := hsame 0 3 c c' result result' hof hof' hback hback' hkey
  obtain ⟨owner', p, hof'', hbound', hcase⟩ := hrefused s.world.log (List.suffix_refl _) 4 d
    stored hofD hdid hkeyD
  refine ⟨s, hreach, c, c', result, result', hof, hof', hback, hback', hid, htoken, d,
    hofD, hcase (Or.inl ?_)⟩
  have hdigest : some owner'.digest = some owner.digest :=
    hbound'.digest.symm.trans hbound.digest
  have hheader := (hsha.same_call hof'' hofOwner (Option.some.inj hdigest)).1
  rw [hheader]
  exact hdiffer

end X402
