import StockAnalyst.SettlementOutcome

/-!
# What a job never changes

The members that identify a job, its competition event and its settlement once
made are the same in every version.  The event is derived again when the
payment settles; it comes out the same because the settling call carries the
proof of the create.  Competition reports and the accounting marker are made
of these members.
-/

namespace X402

open Python ConditionalStore Coroutine

variable {D : Deployment} {log older : List Entry} {x : Entry} {job : PyStr}
  {tag tag' : Tag JobRecord} {q : Nat}

/-! ## Digests -/

theorem Digest.hex_inj {d d' : Digest} (h : d.hex = d'.hex) : d = d' :=
  Subtype.ext (toHex_inj d.2.2 d'.2.2 h)

variable (D) in
/-- No two headers that the run's calls were made with collide under
SHA-256. -/
def NoCollision (log : List Entry) : Prop :=
  ∀ q q' inst inst' header header' request request',
    Did q (.note (.createCalled inst header request)) () false log →
    Did q' (.note (.createCalled inst' header' request')) () false log →
    D.sha256 header = D.sha256 header' → header = header'

theorem NoCollision.of_suffix (h : NoCollision D log) (hsuf : older <:+ log) :
    NoCollision D older := by
  intro q q' inst inst' header header' request request' hcall hcall'
  exact h q q' inst inst' header header' request request' (hcall.mono hsuf)
    (hcall'.mono hsuf)

/-- The digest of a proof is that of its header. -/
theorem proofDigest_eq_some {header digest : PyStr} (h : proofDigest D header = some digest) :
    digest = (D.sha256 header).hex := by
  unfold proofDigest at h
  split at h
  · cases h
  · exact (Option.some.inj h).symm

/-- Calls with one proof digest carry one header, and so one payment. -/
theorem NoCollision.same_call {c c' : CreateCall} {q' : Nat} (h : NoCollision D log)
    (hof : c.Of D q log) (hof' : c'.Of D q' log) (hdigest : c.digest = c'.digest) :
    c.header = c'.header ∧ c.payment = c'.payment := by
  have hsha : D.sha256 c.header = D.sha256 c'.header := by
    refine Digest.hex_inj ?_
    rw [← proofDigest_eq_some hof.digest_eq, ← proofDigest_eq_some hof'.digest_eq, hdigest]
  have hheader := h q q' _ _ _ _ _ _ hof.called hof'.called hsha
  obtain ⟨now, b, hverify⟩ := hof.verified
  obtain ⟨now', b', hverify'⟩ := hof'.verified
  rw [hheader] at hverify
  exact ⟨hheader, verifyForCreate_unique hverify hverify'⟩

/-! ## The competition event -/

variable (D) in
/-- The event of a record is that of a call whose proof digest it carries. -/
def EventOf (log : List Entry) (r : JobRecord) : Prop :=
  ∃ c q, CreateCall.Of D c q log ∧ r.paymentProofDigest = some c.digest ∧
    competitionEventId D c.payment = some r.competitionEventId

/-- The event of a record stays its event. -/
theorem EventOf.mono {r : JobRecord} (h : EventOf D older r) (hsuf : older <:+ log) :
    EventOf D log r := by
  obtain ⟨c, q, hof, hrest⟩ := h
  exact ⟨c, q, hof.mono hsuf, hrest⟩

/-- Only a settled result sets the event of a record. -/
theorem JobWrite.apply_competitionEventId (t : JobWrite) (r : JobRecord) :
    (t.apply r).competitionEventId = r.competitionEventId ∨
      ∃ reference eventId settledAt lease now,
        t = .settled reference eventId settledAt lease now ∧
        (t.apply r).competitionEventId = eventId := by
  cases t
  case settled reference eventId settledAt lease now =>
    exact Or.inr ⟨reference, eventId, settledAt, lease, now, rfl, rfl⟩
  all_goals exact Or.inl rfl

/-- Every version has the event of its proof.  The induction follows the
history; the settled write derives the event again, from its own call. -/
theorem Lawful.event_of (h : Lawful D log) (hver : JobVersion job tag log) :
    EventOf D log tag.content := by
  induction log generalizing job tag with
  | nil =>
      obtain ⟨l, hl, hcur⟩ := hver
      obtain rfl := List.suffix_nil.1 hl
      cases hcur
  | cons x log ih =>
      have hcons : log <:+ x :: log := List.suffix_cons x log
      rcases hver.cons with hold | ⟨hwrite, -⟩
      · exact (ih h.1 hold).mono hcons
      · obtain ⟨put, hput, rfl, hcontent⟩ := jobWrite_eq_some hwrite
        rw [← hcontent]
        obtain ⟨q, l, -, hsuf, hl, hcase⟩ := h.job_step hput
        have hall : l <:+ x :: log := hsuf.trans hcons
        rcases hcase with ⟨-, -, -, c, -, hcreated⟩ |
            ⟨write, base, -, hcur, -, -, hrecord, -, hcause⟩
        · obtain ⟨eventId, normalized, reservation, now, hevent, -, hrecord, -⟩ :=
            hcreated.made
          rw [hrecord]
          exact ⟨c, q, hcreated.of.mono hall, rfl, hevent⟩
        · rw [hrecord]
          rcases write.apply_competitionEventId base.content with hkeep |
              ⟨reference, eventId, settledAt, lease, now, rfl, hnew⟩
          · obtain ⟨c, q', hof, hdigest, hevent⟩ := ih h.1 (Version.of_current hcur)
            refine ⟨c, q', hof.mono hcons, ?_, hkeep ▸ hevent⟩
            exact (write.apply_sameJob base.content).paymentProofDigest.trans hdigest
          · obtain ⟨-, c, hof, -, hbound, hevent, -⟩ := hcause
            exact ⟨c, q, hof.mono hall, hbound.digest, hevent⟩

/-- All versions of a job have one event. -/
theorem Lawful.same_event (h : Lawful D log) (hsha : NoCollision D log)
    (hver : JobVersion job tag log) (hver' : JobVersion job tag' log) :
    tag'.content.competitionEventId = tag.content.competitionEventId := by
  obtain ⟨c, q, hof, hdigest, hevent⟩ := h.event_of hver
  obtain ⟨c', q', hof', hdigest', hevent'⟩ := h.event_of hver'
  have hsame := (h.same_job hver hver').paymentProofDigest
  rw [hdigest, hdigest'] at hsame
  have hpayment := (hsha.same_call hof hof' (Option.some.inj hsame).symm).2
  rw [hpayment] at hevent
  exact Option.some.inj (hevent'.symm.trans hevent)

/-! ## The settlement -/

/-- What a settlement has fixed stays. -/
def SettledOnce (r r' : JobRecord) : Prop :=
  ∀ t, r.settledAt = some t →
    r'.settledAt = some t ∧ r'.settlementReference = r.settlementReference

theorem SettledOnce.refl (r : JobRecord) : SettledOnce r r := fun _ h => ⟨h, rfl⟩

/-- What is settled once in each of two steps is settled once. -/
theorem SettledOnce.trans {r r' r'' : JobRecord} (h : SettledOnce r r')
    (h' : SettledOnce r' r'') : SettledOnce r r'' := by
  intro t ht
  obtain ⟨ht', href⟩ := h t ht
  obtain ⟨ht'', href'⟩ := h' t ht'
  exact ⟨ht'', href'.trans href⟩

/-- **No change of a record settles it again.** -/
theorem SettledOnce.apply (t : JobWrite) (r : JobRecord) (hok : JobOk r)
    (hguard : t.Guard r) : SettledOnce r (t.apply r) := by
  have hnever : r.paymentStatus = .settling → SettledOnce r (t.apply r) := by
    intro hunsettled time htime
    rw [(hok.unsettled hunsettled).2.2] at htime
    cases htime
  cases t with
  | pending reference now => exact hnever hguard.1.2
  | settled reference eventId settledAt lease now => exact hnever hguard.1.2
  | _ => exact fun time htime => ⟨htime, rfl⟩

/-- Without a time of settlement there is no reference. -/
theorem Lawful.unreferenced (h : Lawful D log) (hver : JobVersion job tag log)
    (hnone : tag.content.settledAt = none) : tag.content.settlementReference = none := by
  refine h.version_induction (P := fun r => r.settledAt = none →
    r.settlementReference = none) ?_ ?_ hver hnone
  · intro c q l record _ _ hcreated _
    obtain ⟨eventId, normalized, reservation, now, -, -, rfl, -⟩ := hcreated.made
    rfl
  · intro t r hold _ hafter
    cases t with
    | pending reference now => rfl
    | settled reference eventId settledAt lease now => cases hafter
    | _ => exact hold hafter

/-- Every clock of the run shows a positive time. -/
def PositiveClock (log : List Entry) : Prop :=
  ∀ q inst now, Clocked q inst now log → 0 < now

/-- A payment is settled at a reading of the clock. -/
theorem Lawful.settledAt_pos (h : Lawful D log) (hclock : PositiveClock log)
    (hver : JobVersion job tag log) {t : Int} (ht : tag.content.settledAt = some t) :
    0 < t := by
  induction log generalizing job tag with
  | nil =>
      obtain ⟨l, hl, hcur⟩ := hver
      obtain rfl := List.suffix_nil.1 hl
      cases hcur
  | cons x log ih =>
      have hcons : log <:+ x :: log := List.suffix_cons x log
      have hold : PositiveClock log := fun q inst now hnow => hclock q inst now (hnow.mono hcons)
      rcases hver.cons with hver | ⟨hwrite, -⟩
      · exact ih h.1 hold hver ht
      · obtain ⟨put, hput, rfl, hcontent⟩ := jobWrite_eq_some hwrite
        rw [← hcontent] at ht
        obtain ⟨q, l, -, hsuf, -, hcase⟩ := h.job_step hput
        rcases hcase with ⟨-, -, -, c, -, hcreated⟩ |
            ⟨write, base, -, hcur, -, -, hrecord, -, hcause⟩
        · obtain ⟨eventId, normalized, reservation, now, -, -, hrecord, -⟩ := hcreated.made
          rw [hrecord] at ht
          cases ht
        · rw [hrecord] at ht
          have hbase : base.content.settledAt = some t → 0 < t :=
            fun ht => ih h.1 hold (Version.of_current hcur) ht
          cases write with
          | settled reference eventId settledAt lease now =>
              obtain rfl := Option.some.inj ht
              obtain ⟨-, c, -, -, -, -, htime, -⟩ := hcause
              rcases htime with hkept | hread
              · exact hbase hkept
              · exact hold q c.inst settledAt (Did.mono hread hsuf)
          | _ => exact hbase ht

/-! ## Competition reports -/

/-- The entry is a report call for the job: its process had read a record of
the job whose report is due, and reports that record's members. -/
def Entry.Reports (x : Entry) (job eventId address : PyStr) (calledAt : Int)
    (answer : Except Fault Bool) (older : List Entry) : Prop :=
  ∃ q landed, ∃ stored : StoredJob job,
    x.event = .did q (.report eventId address calledAt) answer landed ∧
    AwaitsReport q stored older ∧ stored.record.competitionEventId = eventId ∧
    stored.record.address = address ∧ stored.record.settledAt = some calledAt

/-- The record that was read is a version of the job. -/
theorem Lawful.awaits (h : Lawful D log) {stored : StoredJob job}
    (hawaits : AwaitsReport q stored log) :
    JobVersion job stored.tag log ∧ stored.record = stored.tag.content := by
  obtain ⟨t, l, hsuf, -, -, hanswer⟩ := h.duty hawaits.1
  obtain ⟨hcur, hsame⟩ := jobAt_some (Eq.symm hanswer.1)
  exact ⟨⟨l, (List.suffix_cons _ l).trans hsuf, hcur⟩, hsame⟩

/-- Every report call is one for some job. -/
theorem Lawful.reports (h : Lawful D (x :: older)) {eventId address : PyStr}
    {calledAt : Int} {answer : Except Fault Bool} {landed : Bool}
    (hevent : x.event = .did q (.report eventId address calledAt) answer landed) :
    ∃ job, x.Reports job eventId address calledAt answer older := by
  obtain ⟨-, -, hfollows⟩ := h
  rw [hevent] at hfollows
  obtain ⟨⟨job, stored, hawaits, hid, haddress, hat⟩, -⟩ := hfollows
  exact ⟨job, q, landed, stored, hevent, hawaits, hid, haddress, hat⟩

/-- A report call follows a durable record of a settled payment, whose members
it carries. -/
theorem Entry.Reports.version {eventId address : PyStr} {calledAt : Int}
    {answer : Except Fault Bool} (h : x.Reports job eventId address calledAt answer older)
    (hlawful : Lawful D older) :
    ∃ tag, JobVersion job tag older ∧ tag.content.paymentStatus = .settled ∧
      tag.content.status ≠ .settling ∧ tag.content.competitionEventId = eventId ∧
      tag.content.address = address ∧ tag.content.settledAt = some calledAt := by
  obtain ⟨q, landed, stored, -, hawaits, hid, haddress, hat⟩ := h
  obtain ⟨hver, hsame⟩ := hlawful.awaits hawaits
  have hpending := hawaits.2
  rw [hsame] at hid haddress hat hpending
  simp only [accountingIsPending, Bool.and_eq_true, decide_eq_true_eq] at hpending
  exact ⟨stored.tag, hver, hpending.1.1.1, hpending.1.1.2, hid, haddress, hat⟩

/-- A marker lands only after a report call for its job was answered true. -/
theorem Lawful.marked (h : Lawful D (x :: older)) {marker : AccountingMarker}
    (hmarker : x.markerWrite = some (job, marker)) :
    ∃ y l eventId address calledAt, y :: l <:+ older ∧
      Entry.Reports y job eventId address calledAt (.ok true) l ∧
      marker = ⟨eventId, calledAt⟩ := by
  have hland : x.event.landing = some (.putMarker job marker) := by
    unfold Entry.markerWrite at hmarker
    split at hmarker
    · rename_i heq
      cases hmarker
      exact heq
    · cases hmarker
  obtain ⟨q, l, -, hsuf, -, hduty, -⟩ := h.landing hland
  obtain ⟨stored, rfl, t, l', hsuf', hawaits⟩ := hduty
  have hpending := hawaits.2
  simp only [accountingIsPending, Bool.and_eq_true] at hpending
  cases hat : stored.record.settledAt with
  | none =>
      rw [hat] at hpending
      cases hpending.2
  | some calledAt =>
      rw [hat] at hsuf'
      exact ⟨_, l', _, _, calledAt, hsuf'.trans hsuf,
        ⟨q, false, stored, rfl, hawaits, rfl, rfl, hat⟩, rfl⟩

/-- **The frame of a job.**  All versions of a job agree on what identifies it
and on its competition event; the time and the reference of the settlement are
made once, by one write; every report call for the job carries the same
members, after a record with a settled payment outside `settling` was durable;
and a marker lands only after a report call for its job returned true. -/
theorem job_frame {s : Config (service D)} (h : Reachable D s)
    (hsha : NoCollision D s.world.log) :
    (∀ job tag tag', JobVersion job tag s.world.log → JobVersion job tag' s.world.log →
      SameJob tag.content tag'.content ∧
      tag'.content.competitionEventId = tag.content.competitionEventId ∧
      (tag.content.settledAt = none → tag.content.settlementReference = none) ∧
      (PositiveClock s.world.log → ∀ t, tag.content.settledAt = some t → 0 < t) ∧
      (tag.serial ≤ tag'.serial → SettledOnce tag.content tag'.content)) ∧
    (∀ (x : Entry) older, x :: older <:+ s.world.log →
      (∀ q eventId address calledAt answer landed,
        x.event = .did q (.report eventId address calledAt) answer landed →
        ∃ job, x.Reports job eventId address calledAt answer older) ∧
      (∀ job eventId address calledAt answer,
        x.Reports job eventId address calledAt answer older →
        (∃ tag, JobVersion job tag older ∧ tag.content.paymentStatus = .settled ∧
          tag.content.status ≠ .settling) ∧
        ∀ y l, y :: l <:+ s.world.log → ∀ eventId' address' calledAt' answer',
          Entry.Reports y job eventId' address' calledAt' answer' l →
          eventId' = eventId ∧ address' = address ∧ calledAt' = calledAt) ∧
      ∀ job marker, x.markerWrite = some (job, marker) →
        ∃ y l eventId address calledAt, y :: l <:+ older ∧
          Entry.Reports y job eventId address calledAt (.ok true) l) := by
  have hlawful := h.lawful
  refine ⟨?_, ?_⟩
  · intro job tag tag' hver hver'
    refine ⟨hlawful.same_job hver hver', hlawful.same_event hsha hver hver',
      hlawful.unreferenced hver,
      fun hclock t ht => hlawful.settledAt_pos hclock hver ht, ?_⟩
    intro hle
    exact hlawful.version_le SettledOnce.refl SettledOnce.trans
      (fun t r hok hguard => SettledOnce.apply t r hok hguard) hver hver' hle
  · intro x older hsuf
    have hx := hlawful.of_suffix hsuf
    have hold : older <:+ s.world.log := (List.suffix_cons x older).trans hsuf
    refine ⟨fun q eventId address calledAt answer landed => hx.reports, ?_, ?_⟩
    · intro job eventId address calledAt answer hreports
      obtain ⟨tag, hver, hpaid, hstatus, hid, haddress, hat⟩ := hreports.version hx.1
      refine ⟨⟨tag, hver, hpaid, hstatus⟩, ?_⟩
      intro y l hy eventId' address' calledAt' answer' hreports'
      have hly : l <:+ s.world.log := (List.suffix_cons y l).trans hy
      obtain ⟨tag', hver', -, -, hid', haddress', hat'⟩ :=
        hreports'.version (hlawful.of_suffix hly)
      have hver := hver.mono hold
      have hver' := hver'.mono hly
      have honce : ∀ {t t' : Tag JobRecord}, JobVersion job t s.world.log →
          JobVersion job t' s.world.log → t.serial ≤ t'.serial →
          SettledOnce t.content t'.content := fun hv hv' hle =>
        hlawful.version_le SettledOnce.refl SettledOnce.trans
          (fun t r hok hguard => SettledOnce.apply t r hok hguard) hv hv' hle
      refine ⟨?_, ?_, ?_⟩
      · rw [← hid, ← hid', hlawful.same_event hsha hver hver']
      · rw [← haddress, ← haddress', (hlawful.same_job hver hver').address]
      · rcases Nat.le_total tag.serial tag'.serial with hle | hle
        · have hsame := (honce hver hver' hle calledAt hat).1
          exact Option.some.inj (hat'.symm.trans hsame)
        · have hsame := (honce hver' hver hle calledAt' hat').1
          exact Option.some.inj (hsame.symm.trans hat)
    · intro job marker hmarker
      obtain ⟨y, l, eventId, address, calledAt, hy, hreports, -⟩ := hx.marked hmarker
      exact ⟨y, l, eventId, address, calledAt, hy, hreports⟩

/-! ### A run with a report -/

/-- The accounting task of the queued job reports and marks it. -/
def reportScript : List Choice := paidScript ++ plainly 1 4

/-- A run with the sample header only has no collision. -/
theorem noCollision_of_sampleCallsIn (h : sampleCallsIn (fun _ => true) log = true) :
    NoCollision sample log := by
  have hheader : ∀ q inst header request,
      Did q (.note (.createCalled inst header request)) () false log →
      header = sampleHeader sampleUrl := by
    intro q inst header request hcall
    obtain ⟨t, ht⟩ := hcall
    simpa using List.all_eq_true.1 h _ ht
  intro q q' inst inst' header header' request request' hcall hcall' _
  rw [hheader q inst header request hcall, hheader q' inst' header' request' hcall']

/-- The newest entry is a landed marker of the sample job. -/
def markedIn : List Entry → Bool
  | ⟨_, .did _ (.putMarker job _) _ true⟩ :: _ => decide (job = sampleJob)
  | _ => false

/-- The marker of a paid job lands after its report. -/
theorem job_frame_reported : ∃ s, Reachable sample s ∧ ∃ x older marker,
    x :: older <:+ s.world.log ∧ Entry.markerWrite x = some (sampleJob, marker) ∧
    ∃ y l eventId address calledAt, y :: l <:+ older ∧
      Entry.Reports y sampleJob eventId address calledAt (.ok true) l := by
  obtain ⟨s, hreach, hcheck⟩ := exists_run reportScript
    (fun s => sampleCallsIn (fun _ => true) s.world.log && markedIn s.world.log)
    (by decide +kernel)
  obtain ⟨hcalls, hmarked⟩ := Bool.and_eq_true_iff.1 hcheck
  unfold markedIn at hmarked
  split at hmarked
  · rename_i time q job marker r older hlog
    have hjob : job = sampleJob := of_decide_eq_true hmarked
    subst hjob
    have hsuf : _ :: older <:+ s.world.log := ⟨[], hlog.symm⟩
    have hframe := (job_frame hreach (noCollision_of_sampleCallsIn hcalls)).2 _ older hsuf
    exact ⟨s, hreach, _, older, marker, hsuf, rfl, hframe.2.2 sampleJob marker rfl⟩
  · cases hmarked

end X402
