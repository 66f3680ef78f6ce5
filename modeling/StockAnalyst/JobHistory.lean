import StockAnalyst.ServiceContract
import StockAnalyst.JobInvariant

/-!
# The history of a job is a chain of transitions

In a lawful history every write that landed, at once or late, was made of the
version it replaced.  So the versions of a job are linked by guarded
transitions, and what these keep holds of every version.
-/

namespace X402

open Python ConditionalStore Coroutine

variable {D : Deployment} {log l : List Entry} {x : Entry}

/-- Every earlier part of a lawful log is lawful. -/
theorem Lawful.of_suffix (h : Lawful D log) (hsuf : l <:+ log) : Lawful D l := by
  obtain ⟨new, rfl⟩ := hsuf
  induction new with
  | nil => exact h
  | cons x new ih => exact ih h.1

/-- Every event followed the history before it. -/
theorem Lawful.follows (h : Lawful D log) (hx : x ∈ log) :
    ∃ older, (x :: older) <:+ log ∧ Lawful D older ∧ Follows D older x := by
  obtain ⟨newer, older, rfl⟩ := List.mem_iff_append.1 hx
  have hsuf : (x :: older) <:+ newer ++ x :: older := ⟨newer, rfl⟩
  have hlawful := h.of_suffix hsuf
  exact ⟨older, hsuf, hlawful.1, hlawful.2⟩

/-- Every effect met its duty. -/
theorem Lawful.duty (h : Lawful D log) {q : Nat} {e : Eff} {r : Resp e}
    {landed : Bool} (hdid : Did q e r landed log) :
    ∃ t older, ((⟨t, .did q e r landed⟩ : Entry) :: older) <:+ log ∧
      Lawful D older ∧ Duty D q older e ∧ Answer e ⟨t, older⟩ r landed := by
  obtain ⟨t, ht⟩ := hdid
  obtain ⟨older, hsuf, hlawful, -, hduty, hanswer⟩ := h.follows ht
  exact ⟨t, older, hsuf, hlawful, hduty, hanswer⟩

theorem jobPut_eq_some {put : JobPut} (h : x.jobPut = some put) :
    x.event.landing = some (.putJob put) := by
  unfold Entry.jobPut at h
  obtain ⟨e, he, hput⟩ := Option.bind_eq_some_iff.1 h
  cases e <;> simp only [Eff.jobPut, Option.some.injEq, reduceCtorEq] at hput
  rw [he, hput]

theorem walletPut_eq_some {put : WalletPut} (h : x.walletPut = some put) :
    x.event.landing = some (.putWallet put) := by
  unfold Entry.walletPut at h
  obtain ⟨e, he, hput⟩ := Option.bind_eq_some_iff.1 h
  cases e <;> simp only [Eff.walletPut, Option.some.injEq, reduceCtorEq] at hput
  rw [he, hput]

/-- A store effect that took place was owed by the process that issued it, and
the store accepted it: at once or late. -/
theorem Lawful.landing (h : Lawful D (x :: log)) {e : Eff}
    (hland : x.event.landing = some e) :
    ∃ q l, x.event.pid = some q ∧ l <:+ log ∧ Lawful D l ∧ Duty D q l e ∧
      ((∃ r, x.event = .did q e r true ∧ l = log ∧ Answer e ⟨x.time, log⟩ r true) ∨
        ∃ t r, x.event = .landedLate q e ∧
          (⟨t, .did q e r false⟩ : Entry) :: l <:+ log ∧
          CanLandLate e r ⟨x.time, log⟩) := by
  obtain ⟨hlawful, -, hevent⟩ := h
  obtain ⟨time, event⟩ := x
  cases event with
  | did q e' r landed =>
      cases landed with
      | false => cases hland
      | true =>
          obtain rfl := Option.some.inj hland
          exact ⟨q, log, rfl, List.suffix_refl _, hlawful, hevent.1,
            Or.inl ⟨r, rfl, rfl, hevent.2⟩⟩
  | landedLate q e' =>
      obtain rfl := Option.some.inj hland
      obtain ⟨t, r, hmem, hcan⟩ := hevent
      obtain ⟨l, hsuf, hl, -, hduty, -⟩ := hlawful.follows hmem
      exact ⟨q, l, rfl, (List.suffix_cons _ _).trans hsuf, hl, hduty,
        Or.inr ⟨t, r, rfl, hsuf, hcan⟩⟩
  | chainUsed key use => cases hland

/-- A job write that landed was issued by its process. -/
theorem Lawful.issued (h : Lawful D log) (hsuf : x :: l <:+ log) {put : JobPut}
    (hput : x.jobPut = some put) {p : Nat} (hpid : x.event.pid = some p) :
    ∃ z ∈ x :: l, ∃ r landed, z.event = .did p (.putJob put) r landed := by
  obtain ⟨q, l', hpid', hold, -, -, hhow⟩ :=
    (h.of_suffix hsuf).landing (jobPut_eq_some hput)
  obtain rfl : p = q := Option.some.inj (hpid.symm.trans hpid')
  rcases hhow with ⟨r, hevent, -⟩ | ⟨t, r, -, hissued, -⟩
  · exact ⟨x, List.mem_cons_self, r, true, hevent⟩
  · exact ⟨_, List.mem_cons_of_mem _ (hissued.mem List.mem_cons_self), r, false, rfl⟩

/-- A job write lands on the version it expects. -/
theorem Lawful.landed_job (h : Lawful D (x :: log)) {put : JobPut}
    (hput : x.jobPut = some put) :
    ∃ q l, x.event.pid = some q ∧ l <:+ log ∧ Lawful D l ∧ put.Owes D q l ∧
      (jobTag put.job log).map (·.serial) = put.expect.map (·.serial) := by
  obtain ⟨q, l, hpid, hsuf, hl, hduty, hhow⟩ := h.landing (jobPut_eq_some hput)
  refine ⟨q, l, hpid, hsuf, hl, hduty.1, ?_⟩
  rcases hhow with ⟨r, -, -, hanswer⟩ | ⟨t, r, -, -, hcan⟩
  · exact Puts.landed_current hanswer
  · cases r with
    | fault f => exact hcan
    | done n => cases hcan
    | preconditionFailed => cases hcan
    | conflict => cases hcan

/-- **The chain of a job.**  A write that lands is a create where there was no
record, or a guarded transition from the current version, caused by what its
process did before. -/
theorem Lawful.job_step (h : Lawful D (x :: log)) {put : JobPut}
    (hput : x.jobPut = some put) :
    ∃ q l, x.event.pid = some q ∧ l <:+ log ∧ Lawful D l ∧
      ((put.write = none ∧ jobTag put.job log = none ∧ isJobId put.job = true ∧
          ∃ c, c.identity.jobId = put.job ∧ Created D c q l put.record) ∨
        ∃ write tag, put.write = some write ∧ jobTag put.job log = some tag ∧
          put.expect = some tag ∧
          JobVersion put.job tag l ∧ put.record.reload = write.apply tag.content ∧
          write.Guard tag.content ∧ Cause D q l put.job tag write) := by
  obtain ⟨q, l, hpid, hsuf, hl, howes, hcur⟩ := h.landed_job hput
  refine ⟨q, l, hpid, hsuf, hl, ?_⟩
  unfold JobPut.Owes at howes
  cases hwrite : put.write with
  | none =>
      rw [hwrite] at howes
      obtain ⟨hexpect, hid, c, hc⟩ := howes
      rw [hexpect] at hcur
      exact Or.inl ⟨rfl, Option.map_eq_none_iff.1 hcur, hid, c, hc⟩
  | some write =>
      rw [hwrite] at howes
      obtain ⟨tag, hexpect, hver, hrecord, hguard, hcause⟩ := howes
      rw [hexpect] at hcur
      have hserial : jobSerial put.job log = tag.serial := by
        unfold jobSerial serial
        unfold jobTag at hcur
        rw [hcur]
        rfl
      have htag : jobTag put.job log = some tag :=
        (hver.mono hsuf).is_current hserial
      exact Or.inr ⟨write, tag, rfl, htag, hexpect, hver, hrecord, hguard, hcause⟩

/-- The write of a job record, read back from the store. -/
theorem jobWrite_eq_some {job : PyStr} {content : JobRecord}
    (h : x.jobWrite = some (job, content)) :
    ∃ put, x.jobPut = some put ∧ put.job = job ∧ put.record.reload = content := by
  obtain ⟨put, hput, heq⟩ := Option.map_eq_some_iff.1 h
  obtain ⟨hjob, hcontent⟩ := Prod.mk.inj heq
  exact ⟨put, hput, hjob, hcontent⟩

/-- What a write leaves in the store. -/
theorem jobWrite_of_jobPut {put : JobPut} (h : x.jobPut = some put) :
    x.jobWrite = some (put.job, put.record.reload) := by
  simp [Entry.jobWrite, h]

/-- The version a landed write makes. -/
theorem jobTag_cons_put {put : JobPut} (h : x.jobPut = some put) :
    jobTag put.job (x :: log) =
      some ⟨jobSerial put.job log + 1, put.record.reload⟩ :=
  current_cons_put (jobWrite_of_jobPut h)

/-- **Induction over versions.**  What every created record has and every
guarded transition keeps holds of every version. -/
theorem Lawful.version_induction {P : JobRecord → Prop}
    (hcreate : ∀ c q l record, Lawful D l → isJobId c.identity.jobId = true →
      Created D c q l record → P record.reload)
    (hstep : ∀ (t : JobWrite) r, P r → t.Guard r → P (t.apply r))
    (h : Lawful D log) {job : PyStr} {tag : Tag JobRecord}
    (hver : JobVersion job tag log) : P tag.content := by
  induction log generalizing job tag with
  | nil =>
      obtain ⟨l, hl, hcur⟩ := hver
      obtain rfl := List.suffix_nil.1 hl
      cases hcur
  | cons x log ih =>
      rcases hver.cons with hold | ⟨hwrite, -⟩
      · exact ih h.1 hold
      · obtain ⟨put, hput, hjob, hcontent⟩ := jobWrite_eq_some hwrite
        rw [← hcontent]
        obtain ⟨q, l, -, -, hl, hcase⟩ := h.job_step hput
        rcases hcase with ⟨-, -, hid, c, hc, hcreated⟩ |
            ⟨write, tag', -, hcur, -, -, hrecord, hguard, -⟩
        · exact hcreate c q l _ hl (hc ▸ hid) hcreated
        · rw [hrecord]
          exact hstep write _ (ih h.1 (Version.of_current hcur)) hguard

/-- **Every version satisfies the record invariant.** -/
theorem Lawful.version_ok (h : Lawful D log) {job : PyStr} {tag : Tag JobRecord}
    (hver : JobVersion job tag log) : JobOk tag.content := by
  refine h.version_induction ?_ (fun t r hr hguard => hr.apply hguard) hver
  intro c q l record _ hid hcreated
  obtain ⟨eventId, normalized, reservation, now, -, -, rfl, -, -, hres, hstate,
    hwallet, hlo, hhi, -⟩ := hcreated.made
  exact (newRecord_ok hid hres hstate hwallet hlo hhi).reload

/-- **Progress of versions.**  A reflexive and transitive relation that every
guarded transition respects links each version to the current one. -/
theorem Lawful.version_current {R : JobRecord → JobRecord → Prop}
    (hrefl : ∀ r, R r r) (htrans : ∀ {r r' r''}, R r r' → R r' r'' → R r r'')
    (hstep : ∀ (t : JobWrite) r, JobOk r → t.Guard r → R r (t.apply r))
    (h : Lawful D log) {job : PyStr} {tag : Tag JobRecord}
    (hver : JobVersion job tag log) :
    ∃ cur, jobTag job log = some cur ∧ R tag.content cur.content := by
  induction log generalizing job tag with
  | nil =>
      obtain ⟨l, hl, hcur⟩ := hver
      obtain rfl := List.suffix_nil.1 hl
      cases hcur
  | cons x log ih =>
      rcases hver.cons with hold | ⟨hwrite, hserial⟩
      · obtain ⟨cur, hcur, hrel⟩ := ih h.1 hold
        by_cases hx : ∃ content, x.jobWrite = some (job, content)
        · obtain ⟨content, hwrite⟩ := hx
          obtain ⟨put, hput, rfl, hcontent⟩ := jobWrite_eq_some hwrite
          refine ⟨_, jobTag_cons_put hput, ?_⟩
          obtain ⟨q, l, -, -, -, hcase⟩ := h.job_step hput
          rcases hcase with ⟨-, hnone, -⟩ |
              ⟨write, tag', -, hcur', -, -, hrecord, hguard, -⟩
          · rw [hnone] at hcur
            cases hcur
          · rw [hcur'] at hcur
            obtain rfl := Option.some.inj hcur
            have hok := h.1.version_ok (Version.of_current hcur')
            show R tag.content put.record.reload
            rw [hrecord]
            exact htrans hrel (hstep write _ hok hguard)
        · refine ⟨cur, ?_, hrel⟩
          have hsame : jobTag job (x :: log) = jobTag job log :=
            current_cons_ne (fun c hc => hx ⟨c, hc⟩)
          rw [hsame, hcur]
      · refine ⟨tag, ?_, hrefl _⟩
        obtain ⟨serial, content⟩ := tag
        have hput : current Entry.jobWrite job (x :: log) =
            some ⟨ConditionalStore.serial Entry.jobWrite job log + 1, content⟩ :=
          current_cons_put hwrite
        unfold jobTag
        rw [hput, ← hserial]

/-- Versions in the order of their numbers are related like the history. -/
theorem Lawful.version_le {R : JobRecord → JobRecord → Prop}
    (hrefl : ∀ r, R r r) (htrans : ∀ {r r' r''}, R r r' → R r' r'' → R r r'')
    (hstep : ∀ (t : JobWrite) r, JobOk r → t.Guard r → R r (t.apply r))
    (h : Lawful D log) {job : PyStr} {tag tag' : Tag JobRecord}
    (hver : JobVersion job tag log) (hver' : JobVersion job tag' log)
    (hle : tag.serial ≤ tag'.serial) : R tag.content tag'.content := by
  obtain ⟨l', hl', hcur'⟩ := hver'
  obtain ⟨l, hl, hcur⟩ := hver
  rcases List.suffix_or_suffix_of_suffix hl hl' with hsuf | hsuf
  · obtain ⟨cur, hcur'', hrel⟩ := (h.of_suffix hl').version_current hrefl htrans
      hstep ⟨l, hsuf, hcur⟩
    unfold jobTag at hcur''
    rw [hcur'] at hcur''
    obtain rfl := Option.some.inj hcur''
    exact hrel
  · have hmono : serial Entry.jobWrite job l' ≤ serial Entry.jobWrite job l :=
      serial_mono hsuf
    have hback : serial Entry.jobWrite job l ≤ serial Entry.jobWrite job l' := by
      rw [serial_of_current hcur, serial_of_current hcur']
      exact hle
    have hsame := current_eq_of_serial hsuf hback
    rw [hcur, hcur'] at hsame
    obtain rfl := Option.some.inj hsame
    exact hrefl _

/-- **The frame of a job.**  All its versions agree on what no transition
touches. -/
theorem Lawful.same_job (h : Lawful D log) {job : PyStr} {tag tag' : Tag JobRecord}
    (hver : JobVersion job tag log) (hver' : JobVersion job tag' log) :
    SameJob tag.content tag'.content := by
  obtain ⟨cur, hcur, hrel⟩ := h.version_current SameJob.refl SameJob.trans
    (fun t r _ _ => t.apply_sameJob r) hver
  obtain ⟨cur', hcur', hrel'⟩ := h.version_current SameJob.refl SameJob.trans
    (fun t r _ _ => t.apply_sameJob r) hver'
  rw [hcur] at hcur'
  obtain rfl := Option.some.inj hcur'
  exact hrel.trans hrel'.symm

/-! ## Records bound to a call -/

/-- A record of the same job is bound to the same call. -/
theorem Bound.sameJob {c : CreateCall} {r r' : JobRecord} (h : Bound D c r)
    (hsame : SameJob r r') : Bound D c r' where
  key := hsame.paymentKey.trans h.key
  digest := hsame.paymentProofDigest.trans h.digest
  request := by
    obtain ⟨normalized, hnorm, hreq⟩ := h.request
    exact ⟨normalized, hnorm, by rw [hsame.request]; exact hreq⟩

/-- Where one version belongs to a call, all do. -/
theorem BoundJob.all {c : CreateCall} (h : BoundJob D c log) (hlawful : Lawful D log)
    {tag : Tag JobRecord} (hver : JobVersion c.identity.jobId tag log) :
    Bound D c tag.content := by
  obtain ⟨tag', hver', hbound⟩ := h
  exact hbound.sameJob (hlawful.same_job hver' hver)

/-- A process runs at most one call of `create_job`. -/
theorem Lawful.called_unique (h : Lawful D log) {q inst inst' : Nat}
    {header header' : PyStr} {request request' : List (PyStr × Json)}
    (hcall : Did q (.note (.createCalled inst header request)) () false log)
    (hcall' : Did q (.note (.createCalled inst' header' request')) () false log) :
    inst = inst' ∧ header = header' ∧ request = request' := by
  obtain ⟨t, older, hsuf, -, hduty, -⟩ := h.duty hcall
  obtain ⟨t', older', hsuf', -, hduty', -⟩ := h.duty hcall'
  rcases List.suffix_or_suffix_of_suffix hsuf hsuf' with hs | hs
  · rcases List.suffix_cons_iff.1 hs with heq | hs
    · cases heq
      exact ⟨rfl, rfl, rfl⟩
    · exact absurd rfl (hduty' _ (hs.mem List.mem_cons_self) _ _ _)
  · rcases List.suffix_cons_iff.1 hs with heq | hs
    · cases heq
      exact ⟨rfl, rfl, rfl⟩
    · exact absurd rfl (hduty _ (hs.mem List.mem_cons_self) _ _ _)

/-- What the process of a call does, it does after the call. -/
theorem Lawful.called_before (h : Lawful D log) {q inst : Nat} {header : PyStr}
    {request : List (PyStr × Json)}
    (hcall : Did q (.note (.createCalled inst header request)) () false log)
    {z : Entry} {l : List Entry} (hsuf : z :: l <:+ log) {e : Eff} {r : Resp e}
    {landed : Bool} (hz : z.event = .did q e r landed) (hne : ∀ m, e ≠ .note m) :
    Did q (.note (.createCalled inst header request)) () false l := by
  obtain ⟨t, older, hcalled, -, hidle, -⟩ := h.duty hcall
  rcases List.suffix_or_suffix_of_suffix hcalled hsuf with hs | hs
  · rcases List.suffix_cons_iff.1 hs with heq | hs
    · cases heq
      cases hz
      exact absurd rfl (hne _)
    · exact ⟨t, hs.mem List.mem_cons_self⟩
  · rcases List.suffix_cons_iff.1 hs with heq | hs
    · cases heq
      cases hz
      exact absurd rfl (hne _)
    · exact absurd hz (hidle _ (hs.mem List.mem_cons_self) _ _ _)

/-- A payment that `create_job` takes has been validated. -/
theorem verifyForCreate_valid {header : PyStr} {now : Int} {p : VerifiedPayment}
    {b : Bool} (h : verifyForCreate D header now = some (p, b)) :
    ∃ allow, validatePaymentProof D.verify header (now / 1000) allow = .ok p := by
  unfold verifyForCreate at h
  split at h
  · rename_i hok
    cases h
    exact ⟨false, hok⟩
  · split at h
    · rename_i hok
      cases h
      exact ⟨true, hok⟩
    · cases h
  · cases h

/-- The payment of a verified header does not depend on the clock. -/
theorem verifyForCreate_unique {header : PyStr} {now now' : Int}
    {p p' : VerifiedPayment} {b b' : Bool}
    (h : verifyForCreate D header now = some (p, b))
    (h' : verifyForCreate D header now' = some (p', b')) : p = p' := by
  obtain ⟨allow, hok⟩ := verifyForCreate_valid h
  obtain ⟨allow', hok'⟩ := verifyForCreate_valid h'
  exact validatePaymentProof_unique hok hok'

/-- What a process derives in `create_job` is determined by its call. -/
theorem CreateCall.Of.unique {c c' : CreateCall} {q : Nat} (h : c.Of D q log)
    (h' : c'.Of D q log) (hlawful : Lawful D log) : c = c' := by
  obtain ⟨inst, header, request, payment, digest, identity⟩ := c
  obtain ⟨inst', header', request', payment', digest', identity'⟩ := c'
  obtain ⟨rfl, rfl, rfl⟩ := hlawful.called_unique h.called h'.called
  obtain ⟨now, b, hver⟩ := h.verified
  obtain ⟨now', b', hver'⟩ := h'.verified
  obtain rfl := verifyForCreate_unique hver hver'
  obtain rfl := Option.some.inj (h.digest_eq.symm.trans h'.digest_eq)
  obtain rfl := Option.some.inj (h.identity_eq.symm.trans h'.identity_eq)
  rfl

/-- The settlement finds the parts it reads in a verified proof. -/
theorem CreateCall.Of.parts {c : CreateCall} {q : Nat} (h : c.Of D q log) :
    ∃ p : ProofParts, p.Of D c.header ∧ c.payment.asset = p.token.asset ∧
      c.payment.transferMethod = p.token.transferMethod ∧
      getIs p.extra (py "assetTransferMethod") c.payment.transferMethod.text =
        true := by
  obtain ⟨now, expired, hverify⟩ := h.verified
  obtain ⟨allow, hvalid⟩ := verifyForCreate_valid hverify
  obtain ⟨proof, accepted, token, extra, hdecode, haccepted, htoken, hreq, hasset,
    hmethod, -⟩ := validatePaymentProof_parts hvalid
  exact ⟨⟨proof, accepted, extra, token, py "eip155:56"⟩,
    ⟨hdecode, haccepted, hreq.extra_eq, htoken, hreq.network⟩, hasset, hmethod,
    hmethod ▸ hreq.method⟩

/-- A header has one decoding. -/
theorem ProofParts.Of.unique {p p' : ProofParts} {header : PyStr}
    (h : p.Of D header) (h' : p'.Of D header) : p = p' := by
  obtain ⟨proof, accepted, extra, token, network⟩ := p
  obtain ⟨proof', accepted', extra', token', network'⟩ := p'
  obtain rfl := Option.some.inj (h.decoded.symm.trans h'.decoded)
  cases Option.some.inj (h.accepted_eq.symm.trans h'.accepted_eq)
  cases Option.some.inj (h.extra_eq.symm.trans h'.extra_eq)
  cases Option.some.inj (h.token_eq.symm.trans h'.token_eq)
  cases Option.some.inj (h.network_eq.symm.trans h'.network_eq)
  rfl

end X402
