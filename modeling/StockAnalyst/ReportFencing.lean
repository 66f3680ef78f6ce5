import StockAnalyst.LeaseHistory
import StockAnalyst.Scheduler

/-!
# The report of a job and the fence around its worker

A worker draws a token and claims the job with it.  While the record runs under
that token only heartbeats have followed the last claim, so the token on a
finished record names the worker of that claim, and the report under that name
was put once, by that worker, before the record was finished.  A worker that
has started its heartbeat writes nothing after its version was superseded.
-/

namespace X402

open Python ConditionalStore Coroutine

variable {D : Deployment} {log l older : List Entry} {x y : Entry} {job owner : PyStr}
  {tag : Tag JobRecord} {q q' : Nat} {t : JobWrite}

/-- No two workers drew the same token. -/
def DistinctTokens (log : List Entry) : Prop :=
  ∀ q q' owner, Drew q owner log → Drew q' owner log → q = q'

/-- The entry landed the transition on the job. -/
def Entry.Writes (x : Entry) (job : PyStr) (t : JobWrite) : Prop :=
  ∃ put, x.jobPut = some put ∧ put.job = job ∧ put.write = some t

/-! ## The claim that a running record stands on -/

/-- Only a claim or a heartbeat leaves a record running under a token. -/
theorem JobWrite.held_after {r : JobRecord} (hok : JobOk r) (hguard : t.Guard r)
    (hheld : JobWrite.HeldBy owner (t.apply r)) :
    (∃ now, t = .running owner now) ∨
      JobWrite.HeldBy owner r ∧ ∃ now, t = .heartbeat owner now := by
  obtain ⟨hstatus, howner⟩ := hheld
  cases t with
  | claimed o now => exact absurd (hguard.1.1.symm.trans hstatus) (by simp)
  | settled reference eventId settledAt lease now => cases lease <;> cases hstatus
  | rateReleased now =>
      have hpaid := hok.paid (Or.inr (Or.inl hstatus))
      exact absurd (hpaid.symm.trans hguard.1) (by simp)
  | running o now =>
      obtain rfl := Option.some.inj howner
      exact Or.inl ⟨now, rfl⟩
  | heartbeat o now =>
      obtain rfl : o = owner := Option.some.inj (hguard.2.symm.trans howner)
      exact Or.inr ⟨hguard, now, rfl⟩
  | _ => cases hstatus

/-- **The claim of a running record.**  The record runs under the token of the
last claim that landed, and only heartbeats of that worker landed since. -/
theorem Lawful.claim_of_held (h : Lawful D log) (htag : jobTag job log = some tag)
    (hheld : JobWrite.HeldBy owner tag.content) :
    ∃ x l now, x :: l <:+ log ∧ x.Writes job (.running owner now) ∧
      ∀ (y : Entry) l', x :: l <:+ l' → y :: l' <:+ log → ∀ t, y.Writes job t →
        ∃ now, t = .heartbeat owner now := by
  induction log generalizing tag with
  | nil => cases htag
  | cons x log ih =>
      have hcons : log <:+ x :: log := List.suffix_cons x log
      by_cases hx : ∃ content, x.jobWrite = some (job, content)
      · obtain ⟨content, hwrite⟩ := hx
        obtain ⟨put, hput, rfl, -⟩ := jobWrite_eq_some hwrite
        rw [jobTag_cons_put hput] at htag
        obtain rfl := Option.some.inj htag
        obtain ⟨q, l, -, -, -, hcase⟩ := h.job_step hput
        rcases hcase with ⟨-, -, -, c, -, hcreated⟩ |
            ⟨write, base, hreplace, hcur, -, -, hrecord, hguard, -⟩
        · obtain ⟨eventId, normalized, reservation, now, -, -, hrecord, -⟩ :=
            hcreated.made
          rw [hrecord] at hheld
          cases hheld.1
        · have hok := h.1.version_ok (Version.of_current hcur)
          have hheld : JobWrite.HeldBy owner (write.apply base.content) := by
            rw [← hrecord]
            exact hheld
          rcases JobWrite.held_after hok hguard hheld with ⟨now, rfl⟩ | ⟨hbase, now, rfl⟩
          · refine ⟨x, log, now, List.suffix_refl _, ⟨put, hput, rfl, hreplace⟩, ?_⟩
            intro y l' hl' hy
            have hlength := hl'.length_le
            have hlength' := hy.length_le
            simp only [List.length_cons] at hlength hlength'
            omega
          · obtain ⟨z, l', now', hz, hwrites, hsince⟩ := ih h.1 hcur hbase
            refine ⟨z, l', now', hz.trans hcons, hwrites, ?_⟩
            intro y l'' hl'' hy t ht
            rcases List.suffix_cons_iff.1 hy with heq | hy
            · obtain ⟨rfl, rfl⟩ := List.cons.inj heq
              obtain ⟨put', hput', -, hwrite'⟩ := ht
              obtain rfl := Option.some.inj (hput.symm.trans hput')
              obtain rfl := Option.some.inj (hreplace.symm.trans hwrite')
              exact ⟨now, rfl⟩
            · exact hsince y l'' hl'' hy t ht
      · have hne : ∀ content, x.jobWrite ≠ some (job, content) :=
          fun content hwrite => hx ⟨content, hwrite⟩
        have hsame : jobTag job (x :: log) = jobTag job log := current_cons_ne hne
        obtain ⟨z, l', now', hz, hwrites, hsince⟩ := ih h.1 (hsame.symm.trans htag) hheld
        refine ⟨z, l', now', hz.trans hcons, hwrites, ?_⟩
        intro y l'' hl'' hy t ht
        rcases List.suffix_cons_iff.1 hy with heq | hy
        · obtain ⟨rfl, rfl⟩ := List.cons.inj heq
          obtain ⟨put', hput', hjob', -⟩ := ht
          have hwrite' := jobWrite_of_jobPut hput'
          rw [hjob'] at hwrite'
          exact absurd hwrite' (hne _)
        · exact hsince y l'' hl'' hy t ht

/-! ## Writes under a token -/

/-- The token a write of a worker is made under. -/
def JobWrite.worker : JobWrite → Option PyStr
  | .running owner _ => some owner
  | .heartbeat owner _ => some owner
  | .succeeded owner _ => some owner
  | .executionFailed owner _ _ _ => some owner
  | _ => none

/-- What a landed transition says about its process. -/
theorem Lawful.writes (h : Lawful D (x :: older)) (hwrites : x.Writes job t) :
    ∃ q l base, x.event.pid = some q ∧ l <:+ older ∧ Lawful D l ∧
      jobTag job older = some base ∧ JobVersion job base l ∧
      t.Guard base.content ∧ Cause D q l job base t := by
  obtain ⟨put, hput, rfl, hwrite⟩ := hwrites
  obtain ⟨q, l, hpid, hsuf, hl, hcase⟩ := h.job_step hput
  rcases hcase with ⟨hnone, -⟩ |
      ⟨write, base, hreplace, hcur, -, hver, -, hguard, hcause⟩
  · rw [hwrite] at hnone
    cases hnone
  · obtain rfl := Option.some.inj (hwrite.symm.trans hreplace)
    exact ⟨q, l, base, hpid, hsuf, hl, hcur, hver, hguard, hcause⟩

/-- A claim is made by the worker that drew its token. -/
theorem Lawful.claimer (h : Lawful D log) {now : Int} (hsuf : x :: l <:+ log)
    (hwrites : x.Writes job (.running owner now)) :
    ∃ q, x.event.pid = some q ∧ Drew q owner log := by
  obtain ⟨q, l', base, hpid, hl', -, -, -, -, -, -, -, hdrew, -⟩ :=
    (h.of_suffix hsuf).writes hwrites
  exact ⟨q, hpid, hdrew.mono (hl'.trans ((List.suffix_cons x l).trans hsuf))⟩

/-- The place where a process issued a job write that landed. -/
theorem Lawful.performed (h : Lawful D log) (hsuf : x :: older <:+ log) {put : JobPut}
    (hput : x.jobPut = some put) : ∃ q l z r landed, x.event.pid = some q ∧
      z :: l <:+ log ∧ l <:+ older ∧ z.event = .did q (.putJob put) r landed ∧
      put.Owes D q l := by
  obtain ⟨q, l, hpid, hl, -, ⟨hduty, -⟩, hhow⟩ :=
    (h.of_suffix hsuf).landing (jobPut_eq_some hput)
  rcases hhow with ⟨r, hevent, rfl, -⟩ | ⟨t, r, -, hissued, -⟩
  · exact ⟨q, l, x, r, true, hpid, hsuf, hl, hevent, hduty⟩
  · exact ⟨q, l, _, r, false, hpid, hissued.trans ((List.suffix_cons x older).trans hsuf), hl,
      rfl, hduty⟩

/-! ## The fence -/

/-- A resume, or a claim by another worker. -/
def JobWrite.Supersedes (owner : PyStr) (t : JobWrite) : Prop :=
  (∃ now, t = .requeued now) ∨ ∃ owner' now, t = .running owner' now ∧ owner' ≠ owner

/-- A write that supersedes a token is no claim with it. -/
theorem superseded_once {now : Int} (hwrites : x.Writes job t) (ht : t.Supersedes owner)
    (hclaims : x.Writes job (.running owner now)) : False := by
  obtain ⟨put, hput, -, hwrite⟩ := hwrites
  obtain ⟨put', hput', -, hwrite'⟩ := hclaims
  obtain rfl := Option.some.inj (hput.symm.trans hput')
  obtain rfl := Option.some.inj (hwrite.symm.trans hwrite')
  rcases ht with ⟨now', hfalse⟩ | ⟨owner', now', heq, hne⟩
  · cases hfalse
  · cases heq
    exact hne rfl

variable {stored : StoredJob job} {id : Nat}

/-- The worker does not claim again: what it issued before its heartbeat
started expects an older version, and later it claims no more. -/
theorem Lawful.not_reclaimed (h : Lawful D log) (htokens : DistinctTokens log)
    (hcell : Did q (.newCell job owner stored) id false log) (hx : x :: older <:+ log)
    (hlate : stored.tag.serial < jobSerial job older) {now : Int} :
    ¬ x.Writes job (.running owner now) := by
  intro hwrites
  obtain ⟨t, ln, hn, -, ⟨-, hdrew, hovertaken⟩, -⟩ := h.duty hcell
  obtain ⟨put, hput, rfl, hwrite⟩ := hwrites
  obtain ⟨p, l, z, r, landed, -, hz, hl, hevent, howes⟩ := h.performed hx hput
  unfold JobPut.Owes at howes
  rw [hwrite] at howes
  obtain ⟨base, hexpect, -, -, -, -, -, hcells, hdrew', -⟩ := howes
  have hold : older <:+ log := (List.suffix_cons x older).trans hx
  obtain rfl : p = q := htokens p q owner (hdrew'.mono (hl.trans hold))
    (hdrew.mono ((List.suffix_cons _ ln).trans hn))
  rcases List.suffix_or_suffix_of_suffix hz hn with hs | hs
  · rcases List.suffix_cons_iff.1 hs with heq | hs
    · cases heq
      cases hevent
    · have hbefore := hovertaken z (hs.mem List.mem_cons_self) put r landed hevent rfl
        base hexpect
      obtain ⟨p', l', -, -, -, -, hcurrent⟩ := (h.of_suffix hx).landed_job hput
      rw [hexpect] at hcurrent
      obtain ⟨cur, hcur, hsame⟩ := Option.map_eq_some_iff.1 hcurrent
      have hserial : jobSerial put.job older = cur.serial := serial_of_current hcur
      have hsame : cur.serial = base.serial := hsame
      omega
  · rcases List.suffix_cons_iff.1 hs with heq | hs
    · cases heq
      cases hevent
    · exact hcells _ (hs.mem List.mem_cons_self) _ _ _ rfl rfl

/-- **The fence.**  Once a version after the one the worker adopted superseded
its claim, nothing is written under its token. -/
theorem Lawful.fenced (h : Lawful D log) (htokens : DistinctTokens log)
    (hcell : Did q (.newCell job owner stored) id false log) (hy : y :: l <:+ log)
    (hsupersedes : y.Writes job t) (ht : t.Supersedes owner)
    (hlate : stored.tag.serial ≤ jobSerial job l) (hx : x :: older <:+ log)
    (hafter : y :: l <:+ older) {t' : JobWrite} (hwrites : x.Writes job t') :
    t'.worker ≠ some owner := by
  have hnew : ∀ {l'}, y :: l <:+ l' → stored.tag.serial < jobSerial job l' := by
    intro l' hl'
    obtain ⟨put, hput, rfl, -⟩ := hsupersedes
    have hserial : jobSerial put.job (y :: l) = jobSerial put.job l + 1 :=
      serial_of_current (jobTag_cons_put hput)
    have hmono : jobSerial put.job (y :: l) ≤ jobSerial put.job l' := serial_mono hl'
    omega
  have hclaim : ∀ {z l' now}, z :: l' <:+ log → y :: l <:+ l' →
      ¬ z.Writes job (.running owner now) :=
    fun hz hl' => h.not_reclaimed htokens hcell hz (hnew hl')
  have hold : older <:+ log := (List.suffix_cons x older).trans hx
  have hheld : ∀ {base : Tag JobRecord}, jobTag job older = some base →
      ¬ JobWrite.HeldBy owner base.content := by
    intro base hcur hheld
    obtain ⟨c, lc, now, hc, hclaims, hsince⟩ := (h.of_suffix hold).claim_of_held hcur hheld
    rcases List.suffix_or_suffix_of_suffix hafter hc with hs | hs
    · rcases List.suffix_cons_iff.1 hs with heq | hs
      · obtain ⟨rfl, rfl⟩ := List.cons.inj heq
        exact superseded_once hsupersedes ht hclaims
      · exact hclaim (hc.trans hold) hs hclaims
    · rcases List.suffix_cons_iff.1 hs with heq | hs
      · obtain ⟨rfl, rfl⟩ := List.cons.inj heq
        exact superseded_once hsupersedes ht hclaims
      · obtain ⟨now', rfl⟩ := hsince y l hs hafter t hsupersedes
        rcases ht with ⟨now, hfalse⟩ | ⟨owner', now, hfalse, -⟩ <;> cases hfalse
  intro hworker
  obtain ⟨p, l', base, -, -, -, hcur, -, hguard, -⟩ := (h.of_suffix hx).writes hwrites
  cases t' with
  | running owner' now =>
      obtain rfl := Option.some.inj hworker
      exact hclaim hx hafter hwrites
  | heartbeat owner' now =>
      obtain rfl := Option.some.inj hworker
      exact hheld hcur hguard
  | succeeded owner' now =>
      obtain rfl := Option.some.inj hworker
      exact hheld hcur hguard
  | executionFailed owner' code canRetry now =>
      obtain rfl := Option.some.inj hworker
      exact hheld hcur hguard.1
  | _ => cases hworker

/-! ## The report -/

/-- A finished record names the token it was finished under. -/
theorem Lawful.finished (h : Lawful D log) (hver : JobVersion job tag log)
    (hstatus : tag.content.status = .succeeded) :
    ∃ r x l now, tag.content.reportId = some r ∧ x :: l <:+ log ∧
      x.Writes job (.succeeded r now) := by
  induction log generalizing job tag with
  | nil =>
      obtain ⟨l, hl, hcur⟩ := hver
      obtain rfl := List.suffix_nil.1 hl
      cases hcur
  | cons x log ih =>
      have hcons : log <:+ x :: log := List.suffix_cons x log
      have hold : ∀ {tag' : Tag JobRecord}, JobVersion job tag' log →
          tag'.content.status = .succeeded → tag'.content.reportId = tag.content.reportId →
          ∃ r y l now, tag.content.reportId = some r ∧ y :: l <:+ x :: log ∧
            y.Writes job (.succeeded r now) := by
        intro tag' hver' hstatus' hsame
        obtain ⟨r, y, l, now, hreport, hy, hwrites⟩ := ih h.1 hver' hstatus'
        exact ⟨r, y, l, now, hsame ▸ hreport, hy.trans hcons, hwrites⟩
      rcases hver.cons with hver | ⟨hwrite, -⟩
      · exact hold hver hstatus rfl
      · obtain ⟨put, hput, rfl, hcontent⟩ := jobWrite_eq_some hwrite
        rw [← hcontent] at hstatus hold ⊢
        obtain ⟨q, l, -, -, -, hcase⟩ := h.job_step hput
        rcases hcase with ⟨-, -, -, c, -, hcreated⟩ |
            ⟨write, base, hreplace, hcur, -, -, hrecord, hguard, -⟩
        · obtain ⟨eventId, normalized, reservation, now, -, -, hrecord, -⟩ :=
            hcreated.made
          rw [hrecord] at hstatus
          cases hstatus
        · have hbase : JobVersion put.job base log := Version.of_current hcur
          rw [hrecord] at hstatus hold ⊢
          cases write with
          | succeeded r now =>
              exact ⟨r, x, log, now, rfl, List.suffix_refl _, put, hput, rfl, hreplace⟩
          | claimed owner now => exact hold hbase hstatus rfl
          | rateReleased now => exact hold hbase hstatus rfl
          | heartbeat owner now => exact hold hbase hstatus rfl
          | settled reference eventId settledAt lease now => cases lease <;> cases hstatus
          | _ => cases hstatus

/-- The last stream that process `q` made is the one for the job under the
token, and it gave the events. -/
def FinalStream (q : Nat) (job owner : PyStr) (events : List (PyStr × Json))
    (log : List Entry) : Prop :=
  ∃ newer x older reply, log = newer ++ x :: older ∧
    x.event = .did q (.streamEnd job owner) reply false ∧ Absent q .stream newer ∧
    reply.ending = .ok () ∧ reply.events = events ∧ ∃ prompt session symbols,
      LastStream q (.streamWork job owner prompt session symbols) () older

/-- What the process of a report had done. -/
theorem Lawful.report_streamed (h : Lawful D log) {reportId markdown : PyStr}
    {reply : Except Fault Unit} {landed : Bool} (hx : x :: older <:+ log)
    (hevent : x.event = .did q (.putReport job reportId markdown) reply landed) :
    Absent q .report older ∧ Drew q reportId older ∧
      ∃ events, FinalStream q job reportId events older ∧
        finalReport events = some markdown := by
  obtain ⟨hold, -, hfollows⟩ := h.of_suffix hx
  rw [hevent] at hfollows
  obtain ⟨⟨habsent, hdrew, reply, hlast, hending, hfinal⟩, -⟩ := hfollows
  refine ⟨habsent, hdrew, reply.events, ?_, hfinal⟩
  obtain ⟨newer, z, rest, hsplit, hz, hnewer⟩ := hlast
  have hsuf : z :: rest <:+ older := ⟨newer, hsplit.symm⟩
  obtain ⟨-, -, hduty⟩ := hold.of_suffix hsuf
  rw [hz] at hduty
  exact ⟨newer, z, rest, reply, hsplit, hz, hnewer, hending, rfl, hduty.1⟩

/-- A report is put once, and its worker streams no more. -/
theorem Lawful.report_once (h : Lawful D log) (htokens : DistinctTokens log)
    {reportId markdown : PyStr} {reply : Except Fault Unit} {landed : Bool}
    (hx : x :: older <:+ log)
    (hevent : x.event = .did q (.putReport job reportId markdown) reply landed)
    (hy : y :: l <:+ log) :
    (∀ q' job' markdown' reply' landed',
      y.event = .did q' (.putReport job' reportId markdown') reply' landed' →
      y :: l = x :: older) ∧
    (x :: older <:+ l → ∀ q' job' prompt session symbols landed',
      y.event ≠ .did q' (.streamWork job' reportId prompt session symbols) () landed') := by
  obtain ⟨habsent, hdrew, -⟩ := h.report_streamed hx hevent
  have hdrew := hdrew.mono ((List.suffix_cons x older).trans hx)
  have hl : l <:+ log := (List.suffix_cons y l).trans hy
  refine ⟨?_, ?_⟩
  · intro q' job' markdown' reply' landed' hevent'
    obtain ⟨habsent', hdrew', -⟩ := h.report_streamed hy hevent'
    obtain rfl : q = q' := htokens q q' reportId hdrew (hdrew'.mono hl)
    rcases List.suffix_or_suffix_of_suffix hx hy with hs | hs
    · rcases List.suffix_cons_iff.1 hs with heq | hs
      · exact heq.symm
      · exact absurd rfl (habsent' x (hs.mem List.mem_cons_self) _ _ _ hevent)
    · rcases List.suffix_cons_iff.1 hs with heq | hs
      · exact heq
      · exact absurd rfl (habsent y (hs.mem List.mem_cons_self) _ _ _ hevent')
  · intro hafter q' job' prompt session symbols landed' hevent'
    obtain ⟨-, -, hfollows⟩ := h.of_suffix hy
    rw [hevent'] at hfollows
    obtain ⟨⟨hunreported, hdrew', -⟩, -⟩ := hfollows
    obtain rfl : q = q' := htokens q q' reportId hdrew (hdrew'.mono hl)
    exact hunreported x (hafter.mem List.mem_cons_self) _ _ _ hevent rfl

/-- What the report of a finished record rests on: process `q` drew the token
and finished the record in the entry `x`. -/
structure ReportOf (D : Deployment) (q : Nat) (job reportId : PyStr) (x : Entry)
    (older log : List Entry) : Prop where
  finishes : x :: older <:+ log ∧ ∃ now, x.Writes job (.succeeded reportId now)
  finisher : x.event.pid = some q
  drew : Drew q reportId log
  claimed : ∃ c l now, c :: l <:+ older ∧ c.Writes job (.running reportId now) ∧
    ∀ (y : Entry) l', c :: l <:+ l' → y :: l' <:+ older → ∀ t, y.Writes job t →
      ∃ now, t = .heartbeat reportId now
  claimer : ∀ (c : Entry) l job' now, c :: l <:+ log →
    c.Writes job' (.running reportId now) → c.event.pid = some q
  put : ∃ p l markdown events, p :: l <:+ older ∧
    p.event = .did q (.putReport job reportId markdown) (.ok ()) true ∧
    FinalStream q job reportId events l ∧ finalReport events = some markdown ∧
    ∀ (y : Entry) l', y :: l' <:+ log →
      (∀ q' job' markdown' reply landed,
        y.event = .did q' (.putReport job' reportId markdown') reply landed →
        y :: l' = p :: l) ∧
      (p :: l <:+ l' → ∀ q' job' prompt session symbols landed,
        y.event ≠ .did q' (.streamWork job' reportId prompt session symbols) () landed)

/-- **Every finished record rests on a report.** -/
theorem Lawful.reportOf (h : Lawful D log) (htokens : DistinctTokens log)
    {reportId : PyStr} {now : Int} (hx : x :: older <:+ log)
    (hwrites : x.Writes job (.succeeded reportId now)) :
    ∃ q, ReportOf D q job reportId x older log := by
  have hold : older <:+ log := (List.suffix_cons x older).trans hx
  obtain ⟨q, l, base, hpid, hl, hlawful, hcur, -, hguard, -, hdrew, markdown, hput⟩ :=
    (h.of_suffix hx).writes hwrites
  obtain ⟨t, lp, hp, -, -, -⟩ := hlawful.duty hput
  have hp' : _ :: lp <:+ log := (hp.trans hl).trans hold
  obtain ⟨-, -, events, hstream, hfinal⟩ := h.report_streamed hp' rfl
  refine ⟨q, ⟨hx, now, hwrites⟩, hpid, hdrew.mono (hl.trans hold),
    (h.of_suffix hold).claim_of_held hcur hguard, ?_,
    _, lp, markdown, events, hp.trans hl, rfl, hstream, hfinal, ?_⟩
  · intro c lc job' now' hc hclaims
    obtain ⟨p, hpid, hdrew'⟩ := h.claimer hc hclaims
    obtain rfl : q = p := htokens q p reportId (hdrew.mono (hl.trans hold)) hdrew'
    exact hpid
  · intro y l' hy
    exact h.report_once htokens hp' rfl hy

/-- **Report fencing.**  The report id of a finished record is the token of the
last execution claim before it was finished, and all claims with that token are
one worker's; that worker put the report once, before the record was finished,
from its last stream.  Once a worker has adopted a version of the job and a
later version superseded its claim, nothing is written under its token. -/
theorem report_fencing {s : Config (service D)} (h : Reachable D s)
    (htokens : DistinctTokens s.world.log) :
    (∀ job tag, JobVersion job tag s.world.log → tag.content.status = .succeeded →
      ∃ reportId q x older, tag.content.reportId = some reportId ∧
        ReportOf D q job reportId x older s.world.log) ∧
    ∀ q job owner id, ∀ stored : StoredJob job,
      Did q (.newCell job owner stored) id false s.world.log →
      ∀ (y : Entry) l t, y :: l <:+ s.world.log → y.Writes job t →
        t.Supersedes owner → stored.tag.serial ≤ jobSerial job l →
        ∀ (x : Entry) older t', x :: older <:+ s.world.log → y :: l <:+ older →
          x.Writes job t' → t'.worker ≠ some owner := by
  have hlawful := h.lawful
  refine ⟨?_, ?_⟩
  · intro job tag hver hstatus
    obtain ⟨r, x, older, now, hreport, hx, hwrites⟩ := hlawful.finished hver hstatus
    obtain ⟨q, hof⟩ := hlawful.reportOf htokens hx hwrites
    exact ⟨r, q, x, older, hreport, hof⟩
  · intro q job owner id stored hcell y l t hy hsupersedes ht hlate x older t' hx hafter
      hwrites
    exact hlawful.fenced htokens hcell hy hsupersedes ht hlate hx hafter hwrites

/-! ### A worker that claims twice -/

/-- The transition that the entry landed on the job. -/
def Entry.writeOf (job : PyStr) (x : Entry) : Option JobWrite :=
  x.jobPut.bind fun put => if put.job = job then put.write else none

theorem Entry.writes_of_writeOf (h : x.writeOf job = some t) : x.Writes job t := by
  obtain ⟨put, hput, hwrite⟩ := Option.bind_eq_some_iff.1 h
  split at hwrite
  · rename_i hjob
    exact ⟨put, hput, hjob, hwrite⟩
  · cases hwrite

/-- The newest write of the job, at its place. -/
theorem newest_write {ts : List JobWrite} (h : log.filterMap (Entry.writeOf job) = t :: ts) :
    ∃ x l, x :: l <:+ log ∧ x.Writes job t ∧ l.filterMap (Entry.writeOf job) = ts := by
  induction log with
  | nil => cases h
  | cons x log ih =>
      cases hwrite : x.writeOf job with
      | none =>
          rw [List.filterMap_cons_none hwrite] at h
          obtain ⟨y, l, hy, hrest⟩ := ih h
          exact ⟨y, l, hy.trans (List.suffix_cons x log), hrest⟩
      | some t' =>
          rw [List.filterMap_cons_some hwrite] at h
          obtain ⟨rfl, rfl⟩ := List.cons.inj h
          exact ⟨x, log, List.suffix_refl _, Entry.writes_of_writeOf hwrite, rfl⟩

def sampleToken : PyStr := py "00000000000000000000000000000001"

/-- The token of the sample job. -/
def sampleJobToken : PyStr := (identityFromPaymentKey sample
  (py "09d869214130f81d330643f0f62f468adbf9d15132e9f304c8f5ce484aace399")).jobToken

/-- The response to the worker's first claim is lost, the buyer resumes the
silent job, and the worker claims again with its token and finishes. -/
def reclaimScript : List Choice :=
  paidScript ++ .act 2 (.token sampleToken) :: plainly 2 2 ++
    .act 2 (.fault .failed true) :: plainly 2 1 ++
  .wait 1700000230000 :: .start (.resumeJob 1 sampleJob sampleJobToken) :: plainly 3 7 ++
  plainly 2 8 ++ .act 2 (.stream [(py "report", .obj [(py "content", .str (py "done"))])]) ::
    plainly 2 1 ++
  .act 5 (.fault .cancelled false) :: plainly 5 1 ++ plainly 2 10

/-- The writes of the sample job end with two claims under the token that
finished it, and only process 2 drew tokens. -/
def reclaimedIn (log : List Entry) : Bool :=
  (log.all fun x => match x.event with
    | .did q .tokenHex _ _ => decide (q = 2)
    | _ => true) &&
  (jobTag sampleJob log).any fun tag => decide (tag.content.status = .succeeded) &&
    match log.filterMap (Entry.writeOf sampleJob) with
    | .succeeded _ _ :: .heartbeat _ _ :: .running owner _ :: .requeued _ ::
        .running owner' _ :: _ =>
          decide (tag.content.reportId = some owner) && decide (owner' = owner)
    | _ => false

theorem reclaim_run :
    (playSample reclaimScript).any (fun s => reclaimedIn s.world.log) = true := by
  decide +kernel

theorem distinctTokens_of_reclaimedIn (h : reclaimedIn log = true) : DistinctTokens log := by
  simp only [reclaimedIn, Bool.and_eq_true] at h
  have hpid : ∀ {q owner}, Drew q owner log → q = 2 := by
    intro q owner hdrew
    obtain ⟨token, -, t, ht⟩ := hdrew
    simpa using List.all_eq_true.1 h.1 _ ht
  intro q q' owner hdrew hdrew'
  rw [hpid hdrew, hpid hdrew']

/-- A worker whose claim was superseded by a resume claims again with its
token, and the record is finished under the token of both claims. -/
theorem token_claimed_twice : ∃ s, Reachable sample s ∧ DistinctTokens s.world.log ∧
    ∃ tag owner q c l y l' c' l'' now now' now'', JobVersion sampleJob tag s.world.log ∧
      tag.content.status = .succeeded ∧ tag.content.reportId = some owner ∧
      c :: l <:+ s.world.log ∧ c.Writes sampleJob (.running owner now) ∧
      c.event.pid = some q ∧ y :: l' <:+ l ∧ y.Writes sampleJob (.requeued now') ∧
      c' :: l'' <:+ l' ∧ c'.Writes sampleJob (.running owner now'') ∧
      c'.event.pid = some q := by
  obtain ⟨s, hreach, hcheck⟩ := exists_run _ _ reclaim_run
  have htokens := distinctTokens_of_reclaimedIn hcheck
  have hlawful := hreach.lawful
  simp only [reclaimedIn, Bool.and_eq_true] at hcheck
  obtain ⟨tag, htag, hwrites⟩ := (Option.any_eq_true _ _).1 hcheck.2
  obtain ⟨hstatus, hwrites⟩ := Bool.and_eq_true_iff.1 hwrites
  split at hwrites
  · rename_i owner now now' owner' now'' rest hlist
    simp only [Bool.and_eq_true, decide_eq_true_eq] at hwrites
    obtain ⟨hreport, rfl⟩ := hwrites
    obtain ⟨x₁, l₁, hx₁, -, hlist⟩ := newest_write hlist
    obtain ⟨x₂, l₂, hx₂, -, hlist⟩ := newest_write hlist
    obtain ⟨c, l, hc, hclaims, hlist⟩ := newest_write hlist
    obtain ⟨y, l', hy, hrequeues, hlist⟩ := newest_write hlist
    obtain ⟨c', l'', hc', hclaims', -⟩ := newest_write hlist
    have hl₁ : l₁ <:+ s.world.log := (List.suffix_cons x₁ l₁).trans hx₁
    have hl₂ : l₂ <:+ s.world.log := (List.suffix_cons x₂ l₂).trans (hx₂.trans hl₁)
    have hl : l <:+ s.world.log := (List.suffix_cons c l).trans (hc.trans hl₂)
    have hl' : l' <:+ s.world.log := (List.suffix_cons y l').trans (hy.trans hl)
    obtain ⟨q, hpid, hdrew⟩ := hlawful.claimer (hc.trans hl₂) hclaims
    obtain ⟨q', hpid', hdrew'⟩ := hlawful.claimer (hc'.trans hl') hclaims'
    obtain rfl := htokens q q' _ hdrew hdrew'
    exact ⟨s, hreach, htokens, tag, owner', q, c, l, y, l', c', l'', now, now', now'',
      Version.of_current htag, of_decide_eq_true hstatus, hreport, hc.trans hl₂, hclaims,
      hpid, hy, hrequeues, hc', hclaims', hpid'⟩
  · cases hwrites

/-- The finished record of the run names its report. -/
theorem report_fencing_reclaimed : ∃ s, Reachable sample s ∧
    ∃ reportId q x older, ReportOf sample q sampleJob reportId x older s.world.log := by
  obtain ⟨s, hreach, hcheck⟩ := exists_run _ _ reclaim_run
  have htokens := distinctTokens_of_reclaimedIn hcheck
  simp only [reclaimedIn, Bool.and_eq_true] at hcheck
  obtain ⟨tag, htag, hwrites⟩ := (Option.any_eq_true _ _).1 hcheck.2
  obtain ⟨hstatus, -⟩ := Bool.and_eq_true_iff.1 hwrites
  obtain ⟨reportId, q, x, older, -, hof⟩ := (report_fencing hreach htokens).1 sampleJob tag
    (Version.of_current htag) (of_decide_eq_true hstatus)
  exact ⟨s, hreach, reportId, q, x, older, hof⟩

end X402
