import StockAnalyst.LeaseHistory
import StockAnalyst.Scheduler

/-!
# The settlement lease

A settlement call rests on a lease write of its own process.  With one clock
and holders that finish in time, calls for one job exclude each other.  After
a takeover the former holder can still record the reference of a pending
settlement, which moves the record under the new holder; nothing else of it
lands.
-/

namespace X402

open Python ConditionalStore Coroutine

variable {D : Deployment} {log l older : List Entry} {x y : Entry}
  {job header : PyStr} {tag tag' : Tag JobRecord} {q q' : Nat}

/-! ## Settlement calls -/

/-- The entry is a settlement call of process `q` with the proof `header`. -/
def Entry.CallsSettle (x : Entry) (q : Nat) (job header : PyStr) : Prop :=
  ∃ mode landed, x.event = .did q (.note (.settleCalled job header mode)) () landed

/-- The settlement call of process `q` has come back. -/
def SettleBack (q : Nat) (job header : PyStr) (log : List Entry) : Prop :=
  ∃ outcome, Did q (.note (.settleReturned job header outcome)) () false log

/-- The store acknowledged to process `q` its own write as version `n` of the
job, and the write took the settlement lease: it created the record, or
claimed a settling record whose lease had run out on the clock the process
read. -/
structure OwnLease (D : Deployment) (q : Nat) (job : PyStr) (put : JobPut) (n : Nat)
    (log : List Entry) : Prop where
  job_eq : put.job = job
  acknowledged : Did q (.putJob put) (.done n) true log
  how : (put.write = none ∧ put.expect = none) ∨
    ∃ c owner now base t, CreateCall.Of D c q log ∧
      put.write = some (.claimed owner now) ∧ put.expect = some base ∧
      JobVersion job base log ∧ base.content.status = .settling ∧
      base.content.paymentStatus = .settling ∧
      base.content.leaseExpiresAt = some t ∧ t ≤ now ∧ Clocked q c.inst now log

/-- A lease of its own is one that the process was told of. -/
theorem OwnLease.leased {put : JobPut} {n : Nat} (h : OwnLease D q job put n log) :
    Leased q job ⟨n, put.record.reload⟩ log := by
  refine ⟨put, h.job_eq, ?_, h.acknowledged, rfl⟩
  rcases h.how with ⟨hwrite, -⟩ | ⟨c, owner, now, base, t, -, hwrite, -⟩
  · simp [JobPut.takesLease, hwrite]
  · simp [JobPut.takesLease, hwrite]

/-- Every lease a process was told of is an own lease. -/
theorem Lawful.ownLease (h : Lawful D log) (hleased : Leased q job tag log) :
    ∃ put, OwnLease D q job put tag.serial log ∧ put.record.reload = tag.content := by
  obtain ⟨put, x, l, hsuf, hat⟩ := h.leaseAt hleased
  have hold : l <:+ log := (List.suffix_cons x l).trans hsuf
  have hdid : Did q (.putJob put) (.done tag.serial) true log := by
    refine ⟨x.time, ?_⟩
    rw [← hat.event]
    exact hsuf.mem List.mem_cons_self
  refine ⟨put, ⟨hat.job_eq, hdid, ?_⟩, hat.content.symm⟩
  have howes := hat.owes
  have htakes := hat.takes
  unfold JobPut.Owes at howes
  unfold JobPut.takesLease at htakes
  split at howes
  · rename_i hwrite
    exact Or.inl ⟨hwrite, howes.1⟩
  · rename_i write hwrite
    rw [hwrite] at htakes
    obtain ⟨base, hexpect, hver, -, hguard, hcause⟩ := howes
    cases write with
    | claimed owner now =>
        rw [hat.job_eq] at hver
        obtain ⟨-, c, hof, -, -, -, hclock⟩ := hcause
        obtain ⟨⟨hstatus, hpayment⟩, hexpired⟩ := hguard
        obtain ⟨t, ht⟩ := hat.lawful.lease_some hver hpayment
        exact Or.inr ⟨c, owner, now, base, t, hof.mono hold, hwrite, hexpect,
          hver.mono hold, hstatus, hpayment, ht, hexpired t ht, Did.mono hclock hold⟩
    | _ => cases htakes

/-- What a process owes to its settlement call. -/
theorem Lawful.settleCall (h : Lawful D log) (hsuf : x :: older <:+ log)
    (hcall : x.CallsSettle q job header) : Lawful D older ∧ Unspent q older ∧
      ∃ c, CreateCall.Of D c q older ∧ c.identity.jobId = job ∧ c.header = header ∧
        ∃ tag, Leased q job tag older ∧ Bound D c tag.content ∧
          JobWrite.Settling tag.content := by
  obtain ⟨mode, landed, hevent⟩ := hcall
  obtain ⟨hold, -, hfollows⟩ := h.of_suffix hsuf
  rw [hevent] at hfollows
  exact ⟨hold, hfollows.1⟩

/-- A process calls the settlement once. -/
theorem Lawful.settleCall_once {older' : List Entry} {job' header' : PyStr}
    (h : Lawful D log) (hx : x :: older <:+ log) (hy : y :: older' <:+ log)
    (hcall : x.CallsSettle q job header) (hcall' : y.CallsSettle q job' header') :
    x :: older = y :: older' := by
  have hfirst : ∀ {x y : Entry} {older older' : List Entry} {job header job' header' : PyStr},
      x :: older <:+ log → x.CallsSettle q job header → y.CallsSettle q job' header' →
      ¬ y :: older' <:+ older := by
    intro x y older older' job header job' header' hx hcall hcall' hs
    obtain ⟨-, hunspent, -⟩ := h.settleCall hx hcall
    obtain ⟨mode, landed, hevent⟩ := hcall'
    exact hunspent.settle y (hs.mem List.mem_cons_self) _ _ _ hevent rfl
  rcases List.suffix_or_suffix_of_suffix hx hy with hs | hs
  · rcases List.suffix_cons_iff.1 hs with heq | hs
    · exact heq
    · exact absurd hs (hfirst hy hcall' hcall)
  · rcases List.suffix_cons_iff.1 hs with heq | hs
    · exact heq.symm
    · exact absurd hs (hfirst hx hcall hcall')

/-! ## Holders in time -/

/-- All instances read one clock: the true time. -/
def SharedClock (log : List Entry) : Prop :=
  ∀ x ∈ log, ∀ q inst now landed, x.event = .did q (.clock inst) now landed →
    now = x.time

variable (D) in
/-- Every holder that calls the settlement has it back before its lease ends:
nothing happens from then on without the call having returned. -/
def Punctual (log : List Entry) : Prop :=
  ∀ x older, x :: older <:+ log → ∀ q job header, x.CallsSettle q job header →
    ∀ put n t, OwnLease D q job put n older → put.record.leaseExpiresAt = some t →
      ∀ y rest, y :: rest <:+ log → t ≤ y.time → SettleBack q job header rest

theorem SettleBack.mono {log' : List Entry} (h : SettleBack q job header log)
    (hsuf : log <:+ log') : SettleBack q job header log' := by
  obtain ⟨outcome, hdid⟩ := h
  exact ⟨outcome, Did.mono hdid hsuf⟩

/-- A call that has not been made has not come back. -/
theorem Lawful.not_back (h : Lawful D log) (hunspent : Unspent q log) :
    ¬ SettleBack q job header log := by
  intro hback
  obtain ⟨outcome, hdid⟩ := hback
  obtain ⟨t, l, hsuf, hl, hduty, -⟩ := h.duty hdid
  obtain ⟨c, -, -, -, ⟨mode, hcalled⟩, -⟩ := hduty
  obtain ⟨t', hmem⟩ := hcalled
  have hold : l <:+ log := (List.suffix_cons _ _).trans hsuf
  exact hunspent.settle _ (hold.mem hmem) _ _ _ rfl rfl

/-- **Takeover.**  A lease is followed by another one only after it has run
out on the shared clock. -/
theorem Lawful.takeover (h : Lawful D log) (hclock : SharedClock log)
    (hleased : Leased q job tag log) (hleased' : Leased q' job tag' log)
    (hlt : tag.serial < tag'.serial) {t : Int}
    (ht : tag.content.leaseExpiresAt = some t) :
    ∃ y rest, y :: rest <:+ log ∧ t ≤ y.time := by
  have hver := h.leased_version hleased
  have hpos : 0 < tag.serial := by
    obtain ⟨l, -, hcur⟩ := hver
    exact serial_pos hcur
  obtain ⟨put, x, l, hsuf, hat⟩ := h.leaseAt hleased'
  have hserial := hat.serial
  have howes := hat.owes
  have htakes := hat.takes
  have hold : l <:+ log := (List.suffix_cons x l).trans hsuf
  unfold JobPut.Owes at howes
  unfold JobPut.takesLease at htakes
  split at howes
  · have hcur := hat.current
    rw [howes.1] at hcur
    have hnone : jobTag job l = none := Option.map_eq_none_iff.1 hcur
    have hzero : jobSerial job l = 0 := by
      unfold jobTag at hnone
      simp [jobSerial, serial, hnone]
    omega
  · rename_i write hwrite
    rw [hwrite] at htakes
    obtain ⟨base, hexpect, hbase, -, hguard, hcause⟩ := howes
    cases write with
    | claimed owner now =>
        rw [hat.job_eq] at hbase
        have hbaseSerial : jobSerial job l = base.serial := by
          have hcur := hat.current
          rw [hexpect] at hcur
          unfold jobSerial serial
          unfold jobTag at hcur
          rw [hcur]
          rfl
        have hle : tag.serial ≤ base.serial := by omega
        obtain ⟨-, hlease⟩ := h.lease_grows hver (hbase.mono hold) hle hguard.1.2
        obtain ⟨t', ht', hgrown⟩ := hlease t ht
        have hexpired : t' ≤ now := hguard.2 t' ht'
        obtain ⟨-, c, -, -, -, -, t₀, hread⟩ := hcause
        have hread' := hold.mem hread
        obtain ⟨newer, rest, hlog⟩ := List.mem_iff_append.1 hread'
        have hnow : now = t₀ := hclock _ hread' _ _ _ _ rfl
        exact ⟨_, rest, ⟨newer, hlog.symm⟩, by
          show t ≤ t₀
          omega⟩
    | _ => cases htakes

/-- The lease a settlement call rests on, and when it ends. -/
theorem Lawful.settleCall_lease (h : Lawful D log) (hsuf : x :: older <:+ log)
    (hcall : x.CallsSettle q job header) :
    ∃ tag put t, Leased q job tag older ∧ tag.content.paymentStatus = .settling ∧
      OwnLease D q job put tag.serial older ∧ put.record.leaseExpiresAt = some t ∧
      tag.content.leaseExpiresAt = some t := by
  obtain ⟨hold, -, c, -, -, -, tag, hleased, -, hsettling⟩ := h.settleCall hsuf hcall
  obtain ⟨t, ht⟩ := hold.lease_some (hold.leased_version hleased) hsettling.2
  obtain ⟨put, hown, hcontent⟩ := hold.ownLease hleased
  have hlease : put.record.leaseExpiresAt = some t := by
    rw [← hcontent] at ht
    exact ht
  exact ⟨tag, put, t, hleased, hsettling.2, hown, hlease, ht⟩

/-- Punctual calls of two processes do not overlap. -/
theorem Lawful.calls_exclusive (h : Lawful D log) (hclock : SharedClock log)
    (hpunctual : Punctual D log) {older' : List Entry} {header' : PyStr}
    (hx : x :: older <:+ log) (hcall : x.CallsSettle q job header)
    (hy : y :: older' <:+ older) (hcall' : y.CallsSettle q' job header') :
    SettleBack q' job header' older := by
  have hold : older <:+ log := (List.suffix_cons x older).trans hx
  have hold' : older' <:+ older := (List.suffix_cons y older').trans hy
  have hclock' : SharedClock older := fun z hz => hclock z (hold.mem hz)
  obtain ⟨hlawful, hunspent, -⟩ := h.settleCall hx hcall
  obtain ⟨tag, put, t, hleased, -, hown, hlease, ht⟩ := h.settleCall_lease hx hcall
  obtain ⟨tag', put', t', hleased', -, hown', hlease', ht'⟩ :=
    h.settleCall_lease (hy.trans hold) hcall'
  have hleased'' := hleased'.mono hold'
  rcases lt_trichotomy tag'.serial tag.serial with hlt | heq | hgt
  · obtain ⟨z, rest, hz, hlate⟩ := hlawful.takeover hclock' hleased'' hleased hlt ht'
    have hback := hpunctual y older' (hy.trans hold) q' job header' hcall' put' _ t'
      hown' hlease' z rest (hz.trans hold) hlate
    exact hback.mono ((List.suffix_cons z rest).trans hz)
  · have hsame := hlawful.leased_owner hleased hleased'' heq.symm
    subst hsame
    obtain ⟨mode, landed, hevent⟩ := hcall'
    exact absurd rfl (hunspent.settle y (hy.mem List.mem_cons_self) _ _ _ hevent)
  · obtain ⟨z, rest, hz, hlate⟩ := hlawful.takeover hclock' hleased hleased'' hgt ht
    have hback := hpunctual x older hx q job header hcall put _ t hown hlease z rest
      (hz.trans hold) hlate
    exact absurd (hback.mono ((List.suffix_cons z rest).trans hz))
      (hlawful.not_back hunspent)

/-- A punctual call is made while no decision on the payment is durable. -/
theorem Lawful.call_undecided (h : Lawful D log) (hclock : SharedClock log)
    (hpunctual : Punctual D log) (hx : x :: older <:+ log)
    (hcall : x.CallsSettle q job header) (hver : JobVersion job tag' older) :
    tag'.content.paymentStatus = .settling := by
  by_contra hdecided
  have hold : older <:+ log := (List.suffix_cons x older).trans hx
  have hclock' : SharedClock older := fun z hz => hclock z (hold.mem hz)
  obtain ⟨hlawful, hunspent, -⟩ := h.settleCall hx hcall
  obtain ⟨tag, put, t, hleased, hsettling, hown, hlease, ht⟩ :=
    h.settleCall_lease hx hcall
  obtain ⟨y, l, write, base, p, hy, hput, rfl, hpid, hplain, hbase, hcur, -, hnew⟩ :=
    hlawful.decided hver hdecided
  have hl : l <:+ older := (List.suffix_cons y l).trans hy
  have hbase' := hbase.mono hl
  rcases lt_trichotomy base.serial tag.serial with hlt | heq | hgt
  · -- The decided version comes no later than an unsettled one.
    have hmade : JobVersion write.job ⟨base.serial + 1, write.record.reload⟩ older := by
      refine ⟨y :: l, hy, ?_⟩
      have hnewTag : jobTag write.job (y :: l) = _ := jobTag_cons_put hput
      have hserial : jobSerial write.job l = base.serial := serial_of_current hcur
      rw [hserial] at hnewTag
      exact hnewTag
    have hback := (hlawful.lease_grows hmade (hlawful.leased_version hleased)
      (by simp only; omega) hsettling).1
    exact hnew hback
  · -- The holder of this lease has written nothing yet.
    have hsame := hlawful.leased_owner hbase' hleased heq
    subst hsame
    obtain ⟨z, hz, r, landed, hevent⟩ := hlawful.issued hy hput hpid
    have hkind : actKind (.putJob write) r = .put ∨
        actKind (.putJob write) r = .ackPut := by
      have := actKind_putJob write r
      simpa [JobPut.tried, JobPut.acked, hplain] using this
    rcases hkind with hk | hk
    · exact hunspent.put z (hy.mem hz) _ _ _ hevent hk
    · exact hunspent.ackPut z (hy.mem hz) _ _ _ hevent hk
  · obtain ⟨z, rest, hz, hlate⟩ := hlawful.takeover hclock' hleased hbase' hgt ht
    have hback := hpunctual x older hx q write.job header hcall put _ t hown hlease z
      rest (hz.trans hold) hlate
    exact absurd (hback.mono ((List.suffix_cons z rest).trans hz))
      (hlawful.not_back hunspent)

/-- **Lease exclusivity.**  Every settlement call follows a lease write of its
own process on a record with the digest of its proof, and no two rest on the
same write.  With one clock and punctual holders, calls for one job do not
overlap and none is made once a decision on the payment is durable. -/
theorem settlement_lease {s : Config (service D)} (h : Reachable D s) :
    (∀ (x : Entry) older, x :: older <:+ s.world.log → ∀ q job header,
      x.CallsSettle q job header → ∃ put n digest, OwnLease D q job put n older ∧
        proofDigest D header = some digest ∧ put.record.paymentProofDigest = some digest ∧
        ∀ tag, JobVersion job tag older →
          tag.content.paymentProofDigest = some digest) ∧
    (∀ (x y : Entry) older older', x :: older <:+ s.world.log →
      y :: older' <:+ s.world.log → ∀ q q' job header header' put put' n,
      x.CallsSettle q job header → y.CallsSettle q' job header' →
      OwnLease D q job put n older → OwnLease D q' job put' n older' →
      x :: older = y :: older') ∧
    (SharedClock s.world.log → Punctual D s.world.log →
      (∀ (x y : Entry) older older', x :: older <:+ s.world.log →
        y :: older' <:+ older → ∀ q q' job header header',
        x.CallsSettle q job header → y.CallsSettle q' job header' →
        SettleBack q' job header' older) ∧
      ∀ (x : Entry) older, x :: older <:+ s.world.log → ∀ q job header,
        x.CallsSettle q job header → ∀ tag, JobVersion job tag older →
          tag.content.paymentStatus = .settling) := by
  have hlawful := h.lawful
  refine ⟨?_, ?_, ?_⟩
  · intro x older hsuf q job header hcall
    obtain ⟨hold, -, c, hof, rfl, rfl, tag, hleased, hbound, -⟩ :=
      hlawful.settleCall hsuf hcall
    obtain ⟨put, hown, hcontent⟩ := hold.ownLease hleased
    have hver := hold.leased_version hleased
    refine ⟨put, tag.serial, c.digest, hown, hof.digest_eq, ?_, ?_⟩
    · have hdigest := hbound.digest
      rw [← hcontent] at hdigest
      exact hdigest
    · intro tag' hver'
      exact (hbound.sameJob (hold.same_job hver hver')).digest
  · intro x y older older' hx hy q q' job header header' put put' n hcall hcall' hown
      hown'
    have hleased := hown.leased.mono ((List.suffix_cons x older).trans hx)
    have hleased' := hown'.leased.mono ((List.suffix_cons y older').trans hy)
    obtain rfl := hlawful.leased_owner hleased hleased' rfl
    exact hlawful.settleCall_once hx hy hcall hcall'
  · intro hclock hpunctual
    refine ⟨?_, ?_⟩
    · intro x y older older' hx hy q q' job header header' hcall hcall'
      exact hlawful.calls_exclusive hclock hpunctual hx hcall hy hcall'
    · intro x older hx q job header hcall tag hver
      exact hlawful.call_undecided hclock hpunctual hx hcall hver

/-- `Punctual`, read off a history. -/
def punctualIn (log : List Entry) : Bool :=
  log.tails.all fun
    | ⟨_, .did q (.note (.settleCalled job header _)) _ _⟩ :: older =>
        older.all fun z => match z.event with
          | .did q' (.putJob put) _ _ =>
              decide (q' ≠ q) || match put.record.leaseExpiresAt with
                | some t => log.tails.all fun
                    | y :: rest => decide (y.time < t) || rest.any fun z =>
                        match z.event with
                        | .did p (.note (.settleReturned job' header' _)) _ landed =>
                            decide (p = q) && decide (job' = job) &&
                              decide (header' = header) && !landed
                        | _ => false
                    | [] => true
                | none => true
          | _ => true
    | _ => true

theorem punctual_of_punctualIn (h : punctualIn log = true) : Punctual D log := by
  intro x older hsuf q job header hcall put n t hown ht y rest hrest hlate
  obtain ⟨mode, landed, hevent⟩ := hcall
  obtain ⟨time, hlease⟩ := hown.acknowledged
  have hx := List.all_eq_true.1 h _ ((List.mem_tails _ _).2 hsuf)
  obtain ⟨xtime, xevent⟩ := x
  subst hevent
  have hz := List.all_eq_true.1 hx _ hlease
  simp only [ne_eq, not_true_eq_false, decide_false, Bool.false_or, ht] at hz
  have hy := List.all_eq_true.1 hz _ ((List.mem_tails _ _).2 hrest)
  have hnot : ¬ y.time < t := by omega
  simp only [hnot, decide_false, Bool.false_or] at hy
  obtain ⟨z, hmem, hback⟩ := List.any_eq_true.1 hy
  obtain ⟨ztime, zevent⟩ := z
  split at hback
  · rename_i p job' header' outcome r landed' heq
    simp only [Bool.and_eq_true, decide_eq_true_eq, Bool.not_eq_true'] at hback
    obtain ⟨⟨⟨rfl, rfl⟩, rfl⟩, rfl⟩ := hback
    obtain rfl : zevent = _ := heq
    exact ⟨outcome, ztime, hmem⟩
  · cases hback

/-- `SharedClock`, read off a history. -/
def sharedClockIn (log : List Entry) : Bool :=
  log.all fun x => match x.event with
    | .did _ (.clock _) now _ => decide (now = x.time)
    | _ => true

theorem sharedClock_of_sharedClockIn (h : sharedClockIn log = true) :
    SharedClock log := by
  intro x hx q inst now landed hevent
  have hcheck := List.all_eq_true.1 h x hx
  rw [hevent] at hcheck
  simpa using hcheck

/-- The first settlement call is lost and comes back in time; the buyer asks
again once the lease has ended. -/
def askAgainScript : List Choice :=
  .start (.createJob 0 (sampleHeader sampleUrl) sampleRequest) ::
    (plainly 0 12 ++ .act 0 (.fault .failed false) :: plainly 0 2) ++
  .wait 1700000230000 ::
    .start (.createJob 1 (sampleHeader sampleUrl) sampleRequest) :: plainly 1 10

/-- The newest entry is a settlement call of process `q` for the sample job. -/
def settlesIn (q : Nat) : List Entry → Bool
  | ⟨_, .did q' (.note (.settleCalled job _ _)) _ _⟩ :: _ =>
      decide (q' = q ∧ job = sampleJob)
  | _ => false

theorem calls_of_settlesIn (h : settlesIn q log = true) :
    ∃ y older header, log = y :: older ∧ y.CallsSettle q sampleJob header := by
  unfold settlesIn at h
  split at h
  · rename_i time q' job header mode r landed older
    obtain ⟨rfl, rfl⟩ := of_decide_eq_true h
    exact ⟨_, older, header, rfl, mode, landed, rfl⟩
  · cases h

/-- The second call of the job finds the first one returned. -/
theorem settlement_lease_askAgain : ∃ s, Reachable sample s ∧
    ∃ x y older older' header header', x :: older <:+ s.world.log ∧
      y :: older' <:+ older ∧ x.CallsSettle 1 sampleJob header ∧
      y.CallsSettle 0 sampleJob header' ∧ SettleBack 0 sampleJob header' older := by
  obtain ⟨s, hreach, hcheck⟩ := exists_run askAgainScript
    (fun s => punctualIn s.world.log && sharedClockIn s.world.log &&
      (settlesIn 1 s.world.log && s.world.log.tail.tails.any (settlesIn 0)))
    (by decide +kernel)
  obtain ⟨htime, hcalls⟩ := Bool.and_eq_true_iff.1 hcheck
  obtain ⟨hpunctual, hclock⟩ := Bool.and_eq_true_iff.1 htime
  obtain ⟨hlater, hearlier⟩ := Bool.and_eq_true_iff.1 hcalls
  obtain ⟨x, older, header, hlog, hx⟩ := calls_of_settlesIn hlater
  obtain ⟨tail, htail, hcall⟩ := List.any_eq_true.1 hearlier
  obtain ⟨y, older', header', rfl, hy⟩ := calls_of_settlesIn hcall
  rw [hlog] at htail
  have hsuf : x :: older <:+ s.world.log := ⟨[], hlog.symm⟩
  have hsuf' : y :: older' <:+ older := (List.mem_tails _ _).1 htail
  have hexclusive := ((settlement_lease hreach).2.2
    (sharedClock_of_sharedClockIn hclock) (punctual_of_punctualIn hpunctual)).1
  exact ⟨s, hreach, x, y, older, older', header, header', hsuf, hsuf', hx, hy,
    hexclusive x y older older' hsuf hsuf' 1 0 sampleJob header header' hx hy⟩

/-! ## After a takeover -/

/-- A claim of the settlement lease landed after version `n` of the job. -/
def TakenOver (job : PyStr) (n : Nat) (log : List Entry) : Prop :=
  ∃ y rest put owner now, y :: rest <:+ log ∧ y.jobPut = some put ∧ put.job = job ∧
    put.write = some (.claimed owner now) ∧ n ≤ jobSerial job rest

/-- Both records are under the same lease in the same status. -/
structure SameLease (r r' : JobRecord) : Prop where
  status : r'.status = r.status
  paymentStatus : r'.paymentStatus = r.paymentStatus
  leaseOwner : r'.leaseOwner = r.leaseOwner
  leaseExpiresAt : r'.leaseExpiresAt = r.leaseExpiresAt

/-- Process `q` lands on the version `base` the pending reference that its own
settlement call came back with: the version is settling, and nothing of it
changes but the references and the time. -/
structure OwnReference (D : Deployment) (q : Nat) (put : JobPut) (base : Tag JobRecord)
    (log : List Entry) : Prop where
  settling : JobWrite.Settling base.content
  lease : SameLease base.content put.record
  returned : ∃ c reference now, CreateCall.Of D c q log ∧ c.identity.jobId = put.job ∧
    Bound D c base.content ∧ SettleReturned c q (.pending reference) log ∧
    put.write = some (.pending reference now) ∧
    put.record.reload = base.content.pendingSettlement reference now

/-- What may land on the unsettled version `base`: a claim of a call for this
job once the lease has run out on the clock the claimer read, the pending
reference of a process that took the lease at some time, or the decision of the
process whose lease write made exactly this version. -/
def LandsOnUnsettled (D : Deployment) (q : Nat) (put : JobPut) (base : Tag JobRecord)
    (log : List Entry) : Prop :=
  (∃ c owner now t, CreateCall.Of D c q log ∧ c.identity.jobId = put.job ∧
    Clocked q c.inst now log ∧ put.write = some (.claimed owner now) ∧
    base.content.leaseExpiresAt = some t ∧ t ≤ now) ∨
  (OwnReference D q put base log ∧ ∃ tag, Leased q put.job tag log) ∨
  (((∃ reference eventId settledAt lease now,
      put.write = some (.settled reference eventId settledAt lease now)) ∨
    ∃ now, put.write = some (.paymentFailed now)) ∧ Leased q put.job base log)

/-- An outcome came to a process that had taken the lease. -/
theorem Lawful.returned_leased (h : Lawful D log) {c : CreateCall}
    {outcome : SettlementOutcome} (hback : SettleReturned c q outcome log) :
    ∃ tag, Leased q c.identity.jobId tag log := by
  obtain ⟨t, l, hsuf, hl, hduty, -⟩ := h.duty hback
  obtain ⟨c', -, -, -, ⟨mode, hcalled⟩, -⟩ := hduty
  obtain ⟨t', l', hsuf', -, hduty', -⟩ := hl.duty hcalled
  obtain ⟨-, c'', -, -, -, tag, hleased, -⟩ := hduty'
  have hold' : l' <:+ l := (List.suffix_cons _ l').trans hsuf'
  have hold : l <:+ log := (List.suffix_cons _ l).trans hsuf
  exact ⟨tag, hleased.mono (hold'.trans hold)⟩

/-- A pending reference lands as the reference of the process's own call. -/
theorem OwnReference.of_cause {l : List Entry} {put : JobPut} {base : Tag JobRecord}
    {reference : PyStr} {now : Int} (hsuf : l <:+ log)
    (hwrite : put.write = some (.pending reference now))
    (hrecord : put.record.reload = (JobWrite.pending reference now).apply base.content)
    (hguard : (JobWrite.pending reference now).Guard base.content)
    (hcause : Cause D q l put.job base (.pending reference now)) :
    OwnReference D q put base log := by
  obtain ⟨c, hof, hjob, hbound, hback⟩ := hcause
  have hsame : SameLease base.content put.record.reload := by
    rw [hrecord]
    exact ⟨hguard.1.1.symm, hguard.1.2.symm, rfl, rfl⟩
  exact ⟨hguard.1, ⟨hsame.status, hsame.paymentStatus, hsame.leaseOwner, hsame.leaseExpiresAt⟩,
    c, reference, now, hof.mono hsuf, hjob, hbound, Did.mono hback hsuf, hwrite, hrecord⟩

/-- One landed write on an unsettled version. -/
theorem Lawful.on_unsettled (h : Lawful D (x :: older)) {put : JobPut}
    {base : Tag JobRecord} (hput : x.jobPut = some put)
    (hcur : jobTag put.job older = some base)
    (hunsettled : base.content.paymentStatus = .settling) :
    ∃ q, x.event.pid = some q ∧ LandsOnUnsettled D q put base older := by
  obtain ⟨q, l, hpid, hsuf, hl, hcase⟩ := h.job_step hput
  refine ⟨q, hpid, ?_⟩
  have hver := Version.of_current hcur
  rcases hcase with ⟨-, hnone, -⟩ |
      ⟨write, base', hwrite, hcur', -, -, hrecord, hguard, hcause⟩
  · rw [hcur] at hnone
    cases hnone
  · rw [hcur] at hcur'
    obtain rfl := Option.some.inj hcur'
    rcases JobWrite.on_unsettled (h.1.version_ok hver) hguard hunsettled with
        ⟨owner, now, rfl⟩ | ⟨reference, now, rfl⟩ |
        ⟨reference, eventId, settledAt, lease, now, rfl⟩ | ⟨now, rfl⟩
    · obtain ⟨-, c, hof, hjob, -, -, hclock⟩ := hcause
      obtain ⟨t, ht⟩ := h.1.lease_some hver hunsettled
      exact Or.inl ⟨c, owner, now, t, hof.mono hsuf, hjob, Did.mono hclock hsuf, hwrite, ht,
        hguard.2 t ht⟩
    · have hown := OwnReference.of_cause hsuf hwrite hrecord hguard hcause
      obtain ⟨c, -, hjob, -, hback⟩ := hcause
      obtain ⟨tag, hleased⟩ := hl.returned_leased hback
      rw [hjob] at hleased
      exact Or.inr (Or.inl ⟨hown, tag, hleased.mono hsuf⟩)
    · exact Or.inr (Or.inr ⟨Or.inl ⟨reference, eventId, settledAt, lease, now, hwrite⟩,
        hcause.1.mono hsuf⟩)
    · exact Or.inr (Or.inr ⟨Or.inr ⟨now, hwrite⟩, hcause.1.mono hsuf⟩)

/-- A takeover leaves a later version unsettled. -/
theorem Lawful.taken_over (h : Lawful D log) {n : Nat} (htaken : TakenOver job n log) :
    ∃ tag, JobVersion job tag log ∧ n < tag.serial ∧
      tag.content.paymentStatus = .settling := by
  obtain ⟨y, rest, put, owner, now, hsuf, hput, rfl, hwrite, hle⟩ := htaken
  obtain ⟨q, l, -, -, -, hcase⟩ := (h.of_suffix hsuf).job_step hput
  rcases hcase with ⟨hnone, -⟩ | ⟨write, base, hwrite', -, -, -, hrecord, hguard, -⟩
  · rw [hwrite] at hnone
    cases hnone
  · rw [hwrite] at hwrite'
    obtain rfl := Option.some.inj hwrite'
    refine ⟨_, ⟨y :: rest, hsuf, jobTag_cons_put hput⟩, Nat.lt_succ_of_le hle, ?_⟩
    show put.record.reload.paymentStatus = .settling
    rw [hrecord]
    exact hguard.1.2

/-- A decision of the holder leaves nothing to take over. -/
theorem Lawful.decision_final (h : Lawful D log) (hleased : Leased q job tag log)
    {put : JobPut} {n : Nat} {write : JobWrite}
    (hdid : Did q (.putJob put) (.done n) true log) (hjob : put.job = job)
    (hwrite : put.write = some write)
    (hdecides : ∀ r, (write.apply r).paymentStatus ≠ .settling)
    (hholder : ∀ base l, Cause D q l job base write → Leased q job base l) :
    ¬ TakenOver job tag.serial log := by
  intro htaken
  obtain ⟨later, hlater, hlt, hunsettled⟩ := h.taken_over htaken
  obtain ⟨l, hsuf, -, howes, hmade, hnext⟩ := h.acked hdid
  unfold JobPut.Owes at howes
  rw [hwrite] at howes
  obtain ⟨base, hexpect, -, hrecord, -, hcause⟩ := howes
  rw [hjob] at hcause hmade
  obtain rfl := h.leased_once hleased ((hholder base l hcause).mono hsuf)
  have hn := hnext tag hexpect
  have hback := (h.lease_grows hmade hlater (by simp only; omega) hunsettled).1
  rw [hrecord] at hback
  exact hdecides _ hback

/-- After a takeover the former holder lands the reference of its own call only. -/
theorem Lawful.former_holder (h : Lawful D (x :: older)) {put : JobPut}
    (hput : x.jobPut = some put) (hpid : x.event.pid = some q)
    (hleased : Leased q put.job tag older)
    (htaken : TakenOver put.job tag.serial older) :
    ∃ base, jobTag put.job older = some base ∧ OwnReference D q put base older := by
  obtain ⟨later, hlater, hlt, -⟩ := h.1.taken_over htaken
  have hlast : later.serial ≤ jobSerial put.job older := hlater.serial_le
  obtain ⟨p, l, hpid', hsuf, hl, hcase⟩ := h.job_step hput
  obtain rfl : q = p := Option.some.inj (hpid.symm.trans hpid')
  rcases hcase with ⟨-, hnone, -⟩ |
      ⟨write, base, hwrite, hcur, -, hver, hrecord, hguard, hcause⟩
  · have hzero : jobSerial put.job older = 0 := by
      unfold jobTag at hnone
      simp [jobSerial, serial, hnone]
    omega
  · have hserial : jobSerial put.job older = base.serial := serial_of_current hcur
    have hacked : ¬ Absent q .ackLease l := h.1.acked_before hleased hsuf hver (by omega)
    have hother : ¬ Leased q put.job base l := by
      intro hbase
      have := h.1.leased_once hleased (hbase.mono hsuf)
      subst this
      omega
    cases write with
    | claimed owner now => exact absurd hcause.1 hacked
    | pending reference now =>
        exact ⟨base, hcur, .of_cause hsuf hwrite hrecord hguard hcause⟩
    | settled reference eventId settledAt lease now => exact absurd hcause.1 hother
    | paymentFailed now => exact absurd hcause.1 hother
    | rateCommitted now =>
        rcases hcause.2 with hfresh | ⟨own, n, hdid, hjob, reference, eventId, settledAt,
            lease, now', hsettled⟩
        · exact absurd hfresh hacked
        · exact absurd htaken (h.1.decision_final hleased (hdid.mono hsuf) hjob hsettled
            (fun r => by simp [JobWrite.apply, JobRecord.settled])
            (fun _ _ hcause => hcause.1))
    | rateReleased now =>
        rcases hcause.2 with hfresh | ⟨own, n, hdid, hjob, now', hfailed⟩
        · exact absurd hfresh hacked
        · exact absurd htaken (h.1.decision_final hleased (hdid.mono hsuf) hjob hfailed
            (fun r => by simp [JobWrite.apply, JobRecord.paymentFailed])
            (fun _ _ hcause => hcause.1))
    | requeued now => exact absurd hcause.1 hacked
    | running owner now => exact absurd hcause.1.1 hacked
    | heartbeat owner now => exact absurd hcause.1 hacked
    | succeeded owner now => exact absurd hcause.1.1 hacked
    | executionFailed owner code canRetry now => exact absurd hcause.1 hacked

/-- **Settlement fencing.**  Once a later claim has landed, a process that was
acknowledged an earlier lease lands nothing but the pending reference of its own
settlement call, and only on a settling record, whose status and lease it keeps.
Every write that lands on an unsettled record is a claim of a lease that has run
out on the claimer's clock, such a reference, or the decision of the process
whose lease write made exactly that version. -/
theorem settlement_fencing {s : Config (service D)} (h : Reachable D s) :
    (∀ (x : Entry) older put q tag, x :: older <:+ s.world.log →
      x.jobPut = some put → x.event.pid = some q → Leased q put.job tag older →
      TakenOver put.job tag.serial older →
      ∃ base, jobTag put.job older = some base ∧ OwnReference D q put base older) ∧
    ∀ (x : Entry) older put base, x :: older <:+ s.world.log → x.jobPut = some put →
      jobTag put.job older = some base → base.content.paymentStatus = .settling →
      ∃ q, x.event.pid = some q ∧ LandsOnUnsettled D q put base older := by
  have hlawful := h.lawful
  refine ⟨?_, ?_⟩
  · intro x older put q tag hsuf hput hpid hleased htaken
    exact (hlawful.of_suffix hsuf).former_holder hput hpid hleased htaken
  · intro x older put base hsuf hput hcur hunsettled
    exact (hlawful.of_suffix hsuf).on_unsettled hput hcur hunsettled

/-! ### A run with a takeover -/

/-- An acknowledged lease write of process `q`, as version `n`. -/
def leaseWriteIn (q : Nat) (job : PyStr) (n : Nat) (log : List Entry) : Bool :=
  log.any fun z => match z.event with
    | .did q' (.putJob put) (.done n') true =>
        decide (q' = q) && decide (put.job = job) && put.takesLease && decide (n' = n)
    | _ => false

theorem leased_of_leaseWriteIn {n : Nat} (h : leaseWriteIn q job n log = true) :
    ∃ tag, Leased q job tag log ∧ tag.serial = n := by
  obtain ⟨⟨time, event⟩, hmem, hz⟩ := List.any_eq_true.1 h
  split at hz
  · rename_i q' put n' heq
    simp only [Bool.and_eq_true, decide_eq_true_eq] at hz
    obtain ⟨⟨⟨rfl, hjob⟩, htakes⟩, rfl⟩ := hz
    obtain rfl : event = _ := heq
    exact ⟨⟨n', put.record.reload⟩, ⟨put, hjob, htakes, ⟨time, hmem⟩, rfl⟩, rfl⟩
  · cases hz

/-- `TakenOver`, read off a history. -/
def takenOverIn (job : PyStr) (n : Nat) (log : List Entry) : Bool :=
  log.tails.any fun
    | y :: rest => match y.jobPut with
        | some put => decide (put.job = job) && decide (n ≤ jobSerial job rest) &&
            match put.write with
            | some (.claimed _ _) => true
            | _ => false
        | none => false
    | [] => false

theorem takenOver_of_takenOverIn {n : Nat} (h : takenOverIn job n log = true) :
    TakenOver job n log := by
  obtain ⟨tail, htail, hy⟩ := List.any_eq_true.1 h
  split at hy
  · rename_i y rest
    split at hy
    · rename_i put hput
      simp only [Bool.and_eq_true, decide_eq_true_eq] at hy
      obtain ⟨⟨hjob, hle⟩, hwrite⟩ := hy
      split at hwrite
      · rename_i owner now heq
        exact ⟨y, rest, put, owner, now, (List.mem_tails _ _).1 htail, hput, hjob, heq,
          hle⟩
      · cases hwrite
    · cases hy
  · cases hy

/-- The first holder waits for the facilitator until another instance has
claimed the lease, and then records its pending reference. -/
def takeoverScript : List Choice :=
  .start (.createJob 2 (sampleHeader sampleUrl) sampleRequest) ::
    (plainly 0 17 ++ .act 0 kindsReply ::
      (plainly 0 2 ++ [.act 0 (b402Reply [(py "isValid", .bool true)])])) ++
  .wait 1700000230000 ::
    .start (.createJob 1 (sampleHeader sampleUrl) sampleRequest) :: plainly 1 9 ++
  .act 0 (b402Reply [(py "success", .bool false),
      (py "transaction", .str (py "0xabc"))]) :: plainly 0 6

/-- The newest entry is a landed write of process `0` under the lease that its
first write claimed and another instance has taken over. -/
def lateWriteIn : List Entry → Bool
  | ⟨_, .did 0 (.putJob put) _ true⟩ :: older =>
      leaseWriteIn 0 put.job 1 older && takenOverIn put.job 1 older
  | _ => false

/-- A former holder lands a write after the takeover. -/
theorem takeover_run : ∃ s, Reachable sample s ∧ ∃ x older put tag,
    x :: older <:+ s.world.log ∧ x.jobPut = some put ∧ x.event.pid = some 0 ∧
      Leased 0 put.job tag older ∧ TakenOver put.job tag.serial older := by
  obtain ⟨s, hreach, hcheck⟩ := exists_run takeoverScript
    (fun s => lateWriteIn s.world.log) (by decide +kernel)
  unfold lateWriteIn at hcheck
  split at hcheck
  · rename_i time put r older hlog
    obtain ⟨hleased, htaken⟩ := Bool.and_eq_true_iff.1 hcheck
    obtain ⟨tag, hleased, hserial⟩ := leased_of_leaseWriteIn hleased
    have htaken := takenOver_of_takenOverIn htaken
    rw [← hserial] at htaken
    exact ⟨s, hreach, _, older, put, tag, ⟨[], hlog.symm⟩, rfl, rfl, hleased, htaken⟩
  · cases hcheck

/-- The former holder lands its own reference on the record of the new holder. -/
theorem settlement_fencing_takeover : ∃ s, Reachable sample s ∧ ∃ x older put tag base,
    x :: older <:+ s.world.log ∧ x.jobPut = some put ∧ x.event.pid = some 0 ∧
      Leased 0 put.job tag older ∧ TakenOver put.job tag.serial older ∧
      jobTag put.job older = some base ∧ OwnReference sample 0 put base older := by
  obtain ⟨s, hreach, x, older, put, tag, hsuf, hput, hpid, hleased, htaken⟩ :=
    takeover_run
  obtain ⟨base, hbase, hown⟩ :=
    (settlement_fencing hreach).1 x older put 0 tag hsuf hput hpid hleased htaken
  exact ⟨s, hreach, x, older, put, tag, base, hsuf, hput, hpid, hleased, htaken, hbase, hown⟩

/-- Once a later claim has landed, the process that held the earlier lease
writes nothing. -/
def FormerHoldersSilent (log : List Entry) : Prop :=
  ∀ (x : Entry) older put q tag, x :: older <:+ log → x.jobPut = some put →
    x.event.pid = some q → Leased q put.job tag older →
    ¬ TakenOver put.job tag.serial older

/-- **A former holder is not silent.** -/
theorem former_holder_writes :
    ∃ s, Reachable sample s ∧ ¬ FormerHoldersSilent s.world.log := by
  obtain ⟨s, hreach, x, older, put, tag, hsuf, hput, hpid, hleased, htaken⟩ :=
    takeover_run
  exact ⟨s, hreach, fun h => h x older put 0 tag hsuf hput hpid hleased htaken⟩

end X402
