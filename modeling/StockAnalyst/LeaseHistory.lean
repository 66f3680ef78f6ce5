import StockAnalyst.ExecutionSpecs

/-!
# Lease writes in a lawful history

An acknowledged write that took the settlement lease has its place in the
history, its version number belongs to it alone, and its process is
acknowledged no second one.  While a record is unsettled its lease only moves
forward, and only the holder of a version decides it.
-/

namespace X402

open Python ConditionalStore Coroutine

variable {D : Deployment} {log l : List Entry} {x y : Entry} {job : PyStr}
  {tag tag' : Tag JobRecord} {q q' : Nat}

/-! ## Places in the history -/

/-- Two writes that made the same version of an object are the same event. -/
theorem landing_unique {x' : Entry} {l' : List Entry} {put put' : JobPut}
    (hx : x :: l <:+ log) (hx' : x' :: l' <:+ log) (hput : x.jobPut = some put)
    (hput' : x'.jobPut = some put') (hjob : put'.job = put.job)
    (hserial : jobSerial put.job l = jobSerial put.job l') : x :: l = x' :: l' := by
  have hnew : jobSerial put.job (x :: l) = jobSerial put.job l + 1 :=
    serial_of_current (jobTag_cons_put hput)
  have hnew' : jobSerial put.job (x' :: l') = jobSerial put.job l' + 1 := by
    rw [← hjob]
    exact serial_of_current (jobTag_cons_put hput')
  have hmono : ∀ {l₁ l₂ : List Entry}, l₁ <:+ l₂ →
      jobSerial put.job l₁ ≤ jobSerial put.job l₂ := fun h => serial_mono h
  rcases List.suffix_or_suffix_of_suffix hx hx' with hsuf | hsuf
  · rcases List.suffix_cons_iff.1 hsuf with heq | hsuf
    · exact heq
    · have := hmono hsuf
      omega
  · rcases List.suffix_cons_iff.1 hsuf with heq | hsuf
    · exact heq.symm
    · have := hmono hsuf
      omega

/-- An acknowledged write met its duty and made the version it was told. -/
theorem Lawful.acked (h : Lawful D log) {put : JobPut} {n : Nat} {landed : Bool}
    (hdid : Did q (.putJob put) (.done n) landed log) :
    ∃ l, l <:+ log ∧ Lawful D l ∧ put.Owes D q l ∧
      JobVersion put.job ⟨n, put.record.reload⟩ log ∧
      ∀ base, put.expect = some base → n = base.serial + 1 := by
  obtain ⟨t, l, hsuf, hl, ⟨howes, -⟩, hanswer⟩ := h.duty hdid
  obtain ⟨rfl, rfl, hcurrent⟩ := Puts.done_landed hanswer
  refine ⟨l, (List.suffix_cons _ l).trans hsuf, hl, howes,
    ⟨_, hsuf, jobTag_cons_put rfl⟩, ?_⟩
  intro base hexpect
  rw [hexpect] at hcurrent
  obtain ⟨cur, hcur, hsame⟩ := Option.map_eq_some_iff.1 hcurrent
  have hserial : cur.serial = base.serial := hsame
  have hcount : jobSerial put.job l = cur.serial := serial_of_current hcur
  show jobSerial put.job l + 1 = base.serial + 1
  omega

/-- The acknowledged lease write of process `q` that made the version `tag`,
at its place in the history. -/
structure LeaseAt (D : Deployment) (q : Nat) (job : PyStr) (tag : Tag JobRecord)
    (put : JobPut) (x : Entry) (l : List Entry) : Prop where
  job_eq : put.job = job
  takes : put.takesLease = true
  content : tag.content = put.record.reload
  event : x.event = .did q (.putJob put) (.done tag.serial) true
  lawful : Lawful D l
  serial : tag.serial = jobSerial job l + 1
  current : (jobTag job l).map (·.serial) = put.expect.map (·.serial)
  first : Absent q .ackLease l
  owes : put.Owes D q l

/-- Taking a lease is a put of the job. -/
theorem LeaseAt.jobPut {put : JobPut} (h : LeaseAt D q job tag put x l) :
    x.jobPut = some put := by
  simp [Entry.jobPut, h.event, Event.landing, Eff.jobPut]

/-- Taking a lease is acknowledged. -/
theorem LeaseAt.acked {put : JobPut} (h : LeaseAt D q job tag put x l) :
    actKind (.putJob put) (.done tag.serial) = .ackLease := by
  simp [actKind, h.takes]

/-- A process is acknowledged a lease once. -/
theorem Lawful.leaseAt (h : Lawful D log) (hleased : Leased q job tag log) :
    ∃ put x l, x :: l <:+ log ∧ LeaseAt D q job tag put x l := by
  obtain ⟨put, hjob, htakes, hdid, hcontent⟩ := hleased
  obtain ⟨t, l, hsuf, hl, ⟨howes, -⟩, hanswer⟩ := h.duty hdid
  obtain ⟨-, hserial, hcurrent⟩ := Puts.done_landed hanswer
  subst hjob
  refine ⟨put, _, l, hsuf, rfl, htakes, hcontent, rfl, hl, hserial, hcurrent, ?_, howes⟩
  have howes' : put.Owes D q l := howes
  unfold JobPut.Owes at howes'
  unfold JobPut.takesLease at htakes
  split at howes'
  · obtain ⟨-, -, c, -, hcreated⟩ := howes'
    exact hcreated.fresh
  · rename_i write hwrite
    rw [hwrite] at htakes
    obtain ⟨base, -, -, -, -, hcause⟩ := howes'
    cases write with
    | claimed owner now => exact hcause.1
    | _ => cases htakes

/-- A lease that is taken is a version of the job. -/
theorem LeaseAt.version {put : JobPut} (h : LeaseAt D q job tag put x l)
    (hsuf : x :: l <:+ log) : JobVersion job tag log := by
  refine ⟨x :: l, hsuf, ?_⟩
  have hnew : jobTag put.job (x :: l) = _ := jobTag_cons_put h.jobPut
  rw [h.job_eq, ← h.serial, ← h.content] at hnew
  exact hnew

/-- So is one that was taken at any time. -/
theorem Lawful.leased_version (h : Lawful D log) (hleased : Leased q job tag log) :
    JobVersion job tag log := by
  obtain ⟨put, x, l, hsuf, hat⟩ := h.leaseAt hleased
  exact hat.version hsuf

/-- A lease version belongs to one process. -/
theorem Lawful.leased_owner (h : Lawful D log) (hleased : Leased q job tag log)
    (hleased' : Leased q' job tag' log) (hserial : tag.serial = tag'.serial) :
    q = q' := by
  obtain ⟨put, x, l, hsuf, hat⟩ := h.leaseAt hleased
  obtain ⟨put', x', l', hsuf', hat'⟩ := h.leaseAt hleased'
  have hjob : put'.job = put.job := hat'.job_eq.trans hat.job_eq.symm
  have hsame : jobSerial put.job l = jobSerial put.job l' := by
    have h₁ := hat.serial
    have h₂ := hat'.serial
    rw [hat.job_eq]
    omega
  have heq := landing_unique hsuf hsuf' hat.jobPut hat'.jobPut hjob hsame
  obtain ⟨hx, -⟩ := List.cons.inj heq
  have hevent := hat.event
  rw [hx, hat'.event] at hevent
  injection hevent with hpid
  exact hpid.symm

/-- A process holds one lease version of a job at most. -/
theorem Lawful.leased_once (h : Lawful D log) (hleased : Leased q job tag log)
    (hleased' : Leased q job tag' log) : tag = tag' := by
  obtain ⟨put, x, l, hsuf, hat⟩ := h.leaseAt hleased
  obtain ⟨put', x', l', hsuf', hat'⟩ := h.leaseAt hleased'
  have hsame : l = l' := by
    rcases List.suffix_or_suffix_of_suffix hsuf hsuf' with hs | hs
    · rcases List.suffix_cons_iff.1 hs with heq | hs
      · exact (List.cons.inj heq).2
      · exact absurd hat.acked
          (hat'.first x (hs.mem List.mem_cons_self) _ _ _ hat.event)
    · rcases List.suffix_cons_iff.1 hs with heq | hs
      · exact (List.cons.inj heq).2.symm
      · exact absurd hat'.acked
          (hat.first x' (hs.mem List.mem_cons_self) _ _ _ hat'.event)
  have hserial : tag.serial = tag'.serial := by
    rw [hat.serial, hat'.serial, hsame]
  exact (hat.version hsuf).unique (hat'.version hsuf') hserial

/-- A process that has seen a version from its lease on has been acknowledged
the lease. -/
theorem Lawful.acked_before (h : Lawful D log) (hleased : Leased q job tag log)
    (hsuf : l <:+ log) (hver : JobVersion job tag' l) (hle : tag.serial ≤ tag'.serial) :
    ¬ Absent q .ackLease l := by
  intro habsent
  obtain ⟨put, x, la, hla, hat⟩ := h.leaseAt hleased
  rcases List.suffix_or_suffix_of_suffix hla hsuf with hs | hs
  · exact habsent x (hs.mem List.mem_cons_self) _ _ _ hat.event hat.acked
  · rcases List.suffix_cons_iff.1 hs with rfl | hs
    · exact habsent x List.mem_cons_self _ _ _ hat.event hat.acked
    · have hseen : tag'.serial ≤ jobSerial job l := hver.serial_le
      have hmono : jobSerial job l ≤ jobSerial job la := serial_mono hs
      have := hat.serial
      omega

/-! ## Unsettled records -/

/-- What can be written on an unsettled record. -/
theorem JobWrite.on_unsettled {t : JobWrite} {r : JobRecord} (hok : JobOk r)
    (hguard : t.Guard r) (hunsettled : r.paymentStatus = .settling) :
    (∃ owner now, t = .claimed owner now) ∨ (∃ reference now, t = .pending reference now) ∨
      (∃ reference eventId settledAt lease now,
        t = .settled reference eventId settledAt lease now) ∨
      ∃ now, t = .paymentFailed now := by
  have hstatus := (hok.unsettled hunsettled).1
  have hrunning : ¬ r.status = .running := by simp [hstatus]
  have hretry : ¬ JobWrite.Retryable r := by simp [JobWrite.Retryable, hstatus]
  cases t with
  | claimed owner now => exact Or.inl ⟨owner, now, rfl⟩
  | pending reference now => exact Or.inr (Or.inl ⟨reference, now, rfl⟩)
  | settled reference eventId settledAt lease now =>
      exact Or.inr (Or.inr (Or.inl ⟨reference, eventId, settledAt, lease, now, rfl⟩))
  | paymentFailed now => exact Or.inr (Or.inr (Or.inr ⟨now, rfl⟩))
  | rateCommitted now => exact absurd (hunsettled.symm.trans hguard.1) (by simp)
  | rateReleased now => exact absurd (hunsettled.symm.trans hguard.1) (by simp)
  | requeued now =>
      rcases hguard.1 with hstale | hfailed
      · exact absurd hstale.1 hrunning
      · exact absurd hfailed hretry
  | running owner now =>
      rcases hguard.1 with hqueued | hstale | hfailed
      · exact absurd hqueued (by simp [hstatus])
      · exact absurd hstale.1 hrunning
      · exact absurd hfailed hretry
  | heartbeat owner now => exact absurd hguard.1 hrunning
  | succeeded owner now => exact absurd hguard.1 hrunning
  | executionFailed owner code canRetry now => exact absurd hguard.1.1 hrunning

/-- An unsettled record was unsettled before. -/
theorem JobWrite.unsettled_before {t : JobWrite} {r : JobRecord} (hguard : t.Guard r)
    (h : (t.apply r).paymentStatus = .settling) : r.paymentStatus = .settling := by
  cases t with
  | pending reference now => exact hguard.1.2
  | settled reference eventId settledAt lease now => cases h
  | paymentFailed now => cases h
  | _ => exact h

/-- While a record is unsettled its lease ends no earlier. -/
def LeaseGrows (r r' : JobRecord) : Prop :=
  r'.paymentStatus = .settling → r.paymentStatus = .settling ∧
    ∀ t, r.leaseExpiresAt = some t → ∃ t', r'.leaseExpiresAt = some t' ∧ t ≤ t'

/-- A record has its own lease. -/
theorem LeaseGrows.refl (r : JobRecord) : LeaseGrows r r :=
  fun h => ⟨h, fun t ht => ⟨t, ht, le_refl t⟩⟩

/-- Leases that grow, one after the other. -/
theorem LeaseGrows.trans {r r' r'' : JobRecord} (h : LeaseGrows r r')
    (h' : LeaseGrows r' r'') : LeaseGrows r r'' := by
  intro hunsettled
  obtain ⟨hunsettled', hlease'⟩ := h' hunsettled
  obtain ⟨hunsettled'', hlease⟩ := h hunsettled'
  refine ⟨hunsettled'', fun t ht => ?_⟩
  obtain ⟨t', ht', hle⟩ := hlease t ht
  obtain ⟨t'', ht'', hle'⟩ := hlease' t' ht'
  exact ⟨t'', ht'', le_trans hle hle'⟩

/-- **No transition shortens a lease.** -/
theorem LeaseGrows.apply (t : JobWrite) (r : JobRecord) (hok : JobOk r)
    (hguard : t.Guard r) : LeaseGrows r (t.apply r) := by
  intro hunsettled
  have hbefore := t.unsettled_before hguard hunsettled
  refine ⟨hbefore, fun e he => ?_⟩
  rcases JobWrite.on_unsettled hok hguard hbefore with ⟨owner, now, rfl⟩ |
      ⟨reference, now, rfl⟩ | ⟨reference, eventId, settledAt, lease, now, rfl⟩ |
      ⟨now, rfl⟩
  · have hexpired : e ≤ now := hguard.2 e he
    exact ⟨now + 120000, rfl, by omega⟩
  · exact ⟨e, he, le_refl e⟩
  · cases hunsettled
  · cases hunsettled

/-- **A later version has no shorter lease.** -/
theorem Lawful.lease_grows (h : Lawful D log) (hver : JobVersion job tag log)
    (hver' : JobVersion job tag' log) (hle : tag.serial ≤ tag'.serial) :
    LeaseGrows tag.content tag'.content :=
  h.version_le LeaseGrows.refl LeaseGrows.trans LeaseGrows.apply hver hver' hle

/-- An unsettled record is under a lease. -/
theorem Lawful.lease_some (h : Lawful D log) (hver : JobVersion job tag log)
    (hunsettled : tag.content.paymentStatus = .settling) :
    ∃ t, tag.content.leaseExpiresAt = some t := by
  have hinv : JobOk tag.content ∧ (tag.content.paymentStatus = .settling →
      ∃ t, tag.content.leaseExpiresAt = some t) := by
    refine h.version_induction (P := fun r => JobOk r ∧
      (r.paymentStatus = .settling → ∃ t, r.leaseExpiresAt = some t)) ?_ ?_ hver
    · intro c q l record _ hid hcreated
      obtain ⟨eventId, normalized, reservation, now, -, -, rfl, -, -, hres, hstate,
        hwallet, hlo, hhi, -⟩ := hcreated.made
      exact ⟨(newRecord_ok hid hres hstate hwallet hlo hhi).reload, fun _ => ⟨_, rfl⟩⟩
    · intro t r hr hguard
      obtain ⟨hok, hlease⟩ := hr
      refine ⟨hok.apply hguard, fun hnew => ?_⟩
      obtain ⟨hbefore, hgrows⟩ := LeaseGrows.apply t r hok hguard hnew
      obtain ⟨e, he⟩ := hlease hbefore
      obtain ⟨e', he', -⟩ := hgrows e he
      exact ⟨e', he'⟩
  exact hinv.2 hunsettled

/-- A settled or failed record was decided by the holder of the version it
replaced. -/
theorem Lawful.decided (h : Lawful D log) (hver : JobVersion job tag log)
    (hdecided : tag.content.paymentStatus ≠ .settling) :
    ∃ x l put base p, x :: l <:+ log ∧ x.jobPut = some put ∧ put.job = job ∧
      x.event.pid = some p ∧ put.takesLease = false ∧ Leased p job base l ∧
      jobTag job l = some base ∧ base.content.paymentStatus = .settling ∧
      put.record.paymentStatus ≠ .settling := by
  induction log generalizing tag with
  | nil =>
      obtain ⟨l, hl, hcur⟩ := hver
      obtain rfl := List.suffix_nil.1 hl
      cases hcur
  | cons x log ih =>
      have hold : ∀ {tag : Tag JobRecord}, JobVersion job tag log →
          tag.content.paymentStatus ≠ .settling →
          ∃ y l put base p, y :: l <:+ x :: log ∧ y.jobPut = some put ∧ put.job = job ∧
            y.event.pid = some p ∧ put.takesLease = false ∧ Leased p job base l ∧
            jobTag job l = some base ∧ base.content.paymentStatus = .settling ∧
            put.record.paymentStatus ≠ .settling := by
        intro tag hver hdecided
        obtain ⟨y, l, put, base, p, hsuf, hrest⟩ := ih h.1 hver hdecided
        exact ⟨y, l, put, base, p, hsuf.trans (List.suffix_cons _ _), hrest⟩
      rcases hver.cons with hver | ⟨hwrite, -⟩
      · exact hold hver hdecided
      · obtain ⟨put, hput, rfl, hcontent⟩ := jobWrite_eq_some hwrite
        have hnew : put.record.paymentStatus ≠ .settling := by
          rw [← hcontent] at hdecided
          exact hdecided
        obtain ⟨q, l, hpid, hsuf, -, hcase⟩ := h.job_step hput
        rcases hcase with ⟨-, -, -, c, -, hcreated⟩ |
            ⟨write, base, hwrite, hcur, -, -, hrecord, hguard, hcause⟩
        · obtain ⟨eventId, normalized, reservation, now, -, -, hrecord, -⟩ :=
            hcreated.made
          rw [hrecord] at hnew
          exact absurd rfl hnew
        · have hbase := Version.of_current hcur
          by_cases hbefore : base.content.paymentStatus = .settling
          · have hstatus : put.record.paymentStatus =
                (write.apply base.content).paymentStatus := by
              rw [← hrecord]
              rfl
            rcases JobWrite.on_unsettled (h.1.version_ok hbase) hguard hbefore with
                ⟨owner, now, rfl⟩ | ⟨reference, now, rfl⟩ |
                ⟨reference, eventId, settledAt, lease, now, rfl⟩ | ⟨now, rfl⟩
            · exact absurd (hstatus.trans hbefore) hnew
            · exact absurd hstatus hnew
            · exact ⟨x, log, put, base, q, List.suffix_refl _, hput, rfl, hpid,
                by simp [JobPut.takesLease, hwrite], hcause.1.mono hsuf, hcur, hbefore,
                hnew⟩
            · exact ⟨x, log, put, base, q, List.suffix_refl _, hput, rfl, hpid,
                by simp [JobPut.takesLease, hwrite], hcause.1.mono hsuf, hcur, hbefore,
                hnew⟩
          · exact hold hbase hbefore

end X402
