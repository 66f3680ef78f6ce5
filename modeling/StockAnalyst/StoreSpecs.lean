import StockAnalyst.JobHistory

/-!
# Specifications of the store operations

One specification for each operation the service awaits: what it adds to the
history, and what its caller knows afterwards.  Postconditions name the
classes of effects the process performed, so that a caller can carry over what
it has not done.
-/

namespace X402

open Python ConditionalStore Coroutine

variable {D : Deployment} {q : Nat} {α β : Type} {w : World}

/-- A postcondition with one clause for results and one for exceptions. -/
def Post (A : α → World → Prop) (E : Exn → World → Prop) :
    Except Exn α → World → Prop
  | .ok a, w => A a w
  | .error x, w => E x w

/-- The process performed only effects of the given classes. -/
abbrev Acts (q : Nat) (L : List ActKind) (w w' : World) : Prop :=
  Steps q (Only L) w w'

/-! ## One effect -/

/-- One effect whose class is known. -/
theorem Ensures.act {e : Eff} {reply : Resp e → Except Exn α} {L : List ActKind}
    {Q : Except Exn α → World → Prop} (hL : ∀ r, actKind e r ∈ L)
    (hduty : ∀ w₁, Steps q Nothing w w₁ → Inv D w₁ → Duty D q w₁.log e)
    (hpost : ∀ w₁ r landed w', Steps q Nothing w w₁ → Inv D w₁ →
      Answer e w₁ r landed → w' = w₁.record (.did q e r landed) → Inv D w' →
      Steps q (Only L) w w' → Did q e r landed w'.log → Q (reply r) w') :
    Ensures D q (Async.await e reply) w Q := by
  refine Ensures.await ?_
  intro w₁ hext hinv
  refine ⟨hduty w₁ hext hinv, ?_⟩
  intro r landed hanswer hinv'
  exact hpost w₁ r landed _ hext hinv hanswer rfl hinv'
    (hext.of_nothing.trans (Steps.record (hL r))) (Did.record q e r landed w₁)

/-- One quiet effect without a duty. -/
theorem Ensures.quiet {e : Eff} {reply : Resp e → Except Exn α}
    {Q : Except Exn α → World → Prop} (hL : ∀ r, actKind e r = .quiet)
    (hduty : ∀ log, Duty D q log e)
    (hpost : ∀ r landed w', Steps q (Only [.quiet]) w w' →
      Did q e r landed w'.log → Q (reply r) w') :
    Ensures D q (Async.await e reply) w Q :=
  Ensures.act (fun r => by simp [hL r]) (fun w₁ _ _ => hduty w₁.log)
    (fun _ r landed w' _ _ _ _ _ hsteps hdid => hpost r landed w' hsteps hdid)

/-- Reading the clock is quiet. -/
theorem clock_spec {inst : Nat} :
    Ensures D q (clock inst) w (Post
      (fun t w' => Acts q [.quiet] w w' ∧ Clocked q inst t w'.log)
      (fun _ _ => False)) := by
  refine Ensures.act (L := [.quiet]) (fun r => by simp [actKind])
    (fun w₁ _ _ => trivial) ?_
  intro w₁ r landed w' _ _ hanswer _ _ hsteps hdid
  obtain rfl : landed = false := hanswer
  exact ⟨hsteps, hdid⟩

/-- Sleeping is quiet. -/
theorem sleep_spec :
    Ensures D q sleep w (Post (fun _ w' => Acts q [.quiet] w w')
      (fun _ w' => Acts q [.quiet] w w')) := by
  refine Ensures.quiet (fun r => rfl) (fun _ => trivial) ?_
  intro r landed w' hsteps _
  cases r <;> exact hsteps

/-- Being asked to stop is quiet. -/
theorem interrupted_spec :
    Ensures D q interrupted w (Post (fun _ w' => Acts q [.quiet] w w')
      (fun _ _ => False)) :=
  Ensures.quiet (fun _ => rfl) (fun _ => trivial) (fun _ _ _ hsteps _ => hsteps)

/-- Asking for the timeout is quiet. -/
theorem timedOut_spec :
    Ensures D q timedOut w (Post (fun _ w' => Acts q [.quiet] w w')
      (fun _ _ => False)) :=
  Ensures.quiet (fun _ => rfl) (fun _ => trivial) (fun _ _ _ hsteps _ => hsteps)

/-- A timer only replaces a cancellation. -/
theorem waitFor_spec {p : Co α} {A : α → World → Prop} {E : Exn → World → Prop}
    (hp : Ensures D q p w (Post A E))
    (hE : ∀ x x' w₁ w', E x w₁ → Acts q [.quiet] w₁ w' → E x' w') :
    Ensures D q (waitFor p) w (Post A E) := by
  refine Ensures.attempt hp ?_
  rintro (x | a) w₁ h
  · cases x
    case cancelled =>
      refine Ensures.bind timedOut_spec ?_ (fun _ _ hfalse => hfalse.elim)
      intro fired w₂ hsteps
      cases fired
      · exact Ensures.throw (hE _ _ _ _ h hsteps)
      · exact Ensures.throw (hE _ _ _ _ h hsteps)
    all_goals exact Ensures.ofExcept h
  · exact Ensures.ofExcept h

/-- A moment of the history, with its duty. -/
theorem note_spec {moment : Moment} {k : ActKind}
    (hk : actKind (.note moment) () = k)
    (hduty : ∀ w₁, Steps q Nothing w w₁ → Inv D w₁ → moment.Owes D q w₁.log) :
    Ensures D q (note moment) w (Post
      (fun _ w' => Acts q [k] w w' ∧ Did q (.note moment) () false w'.log)
      (fun _ _ => False)) := by
  refine Ensures.act (L := [k]) (fun r => by cases r; simp [hk]) hduty ?_
  intro w₁ r landed w' _ _ hanswer _ _ hsteps hdid
  obtain rfl : landed = false := hanswer
  cases r
  exact ⟨hsteps, hdid⟩

/-! ## Job records -/

/-- A version a process holds: it was current at some time. -/
def Known {job : PyStr} (stored : StoredJob job) (log : List Entry) : Prop :=
  JobVersion job stored.tag log

/-- A known record stays known. -/
theorem Known.mono {job : PyStr} {stored : StoredJob job} {log log' : List Entry}
    (h : Known stored log) (hsuf : log <:+ log') : Known stored log' :=
  Version.mono h hsuf

/-- What a process knows of a record it found. -/
structure FoundJob (q : Nat) {job : PyStr} (stored : StoredJob job)
    (log : List Entry) : Prop where
  known : Known stored log
  same : stored.record = stored.tag.content
  did : Did q (.getJob job) (.ok (some stored)) false log

/-- The stored record is the newest version. -/
theorem jobAt_some {job : PyStr} {log : List Entry} {stored : StoredJob job}
    (h : jobAt job log = some stored) :
    jobTag job log = some stored.tag ∧ stored.record = stored.tag.content := by
  unfold jobAt at h
  split at h
  · cases h
  · rename_i tag htag
    cases h
    exact ⟨htag, rfl⟩

/-- Where nothing is stored there is no version. -/
theorem jobAt_none {job : PyStr} {log : List Entry} (h : jobAt job log = none) :
    jobTag job log = none := by
  unfold jobAt at h
  split at h
  · assumption
  · cases h

/-- **A read** finds the newest version of the job or misses it. -/
theorem readJob_spec {job : PyStr} :
    Ensures D q (readJob job) w (Post
      (fun found w' => match found with
        | none => Acts q [.missed] w w'
        | some stored => Acts q [.found] w w' ∧ FoundJob q stored w'.log)
      (fun _ w' => Acts q [.missed] w w')) := by
  unfold readJob
  split
  · exact Ensures.throw (Steps.refl w)
  · refine Ensures.await ?_
    intro w₁ hext hinv
    refine ⟨trivial, ?_⟩
    rintro r landed ⟨hread, rfl⟩ -
    cases r with
    | error f =>
        exact hext.of_nothing.trans (Steps.record (by simp [Only, actKind]))
    | ok found =>
        cases found with
        | none => exact hext.of_nothing.trans (Steps.record (by simp [Only, actKind]))
        | some stored =>
            have hread : some stored = jobAt job w₁.log := hread
            obtain ⟨hcur, hrecord⟩ := jobAt_some hread.symm
            refine ⟨hext.of_nothing.trans (Steps.record (by simp [Only, actKind])),
              ?_, hrecord, Did.record _ _ _ _ _⟩
            exact (Version.of_current hcur).mono (List.suffix_cons _ _)

/-- A write that was tried and not acknowledged. -/
def Retried (put : JobPut) : (e : Eff) → Resp e → Prop
  | .putJob put', r => put' = put ∧ ∀ n, r ≠ .done n
  | _, _ => False

/-- The classes of a write before and after its acknowledgement. -/
def JobPut.tried (put : JobPut) : ActKind :=
  if put.takesLease then .lease else .put

def JobPut.acked (put : JobPut) : ActKind :=
  if put.takesLease then .ackLease else .ackPut

/-- A put is a try or an acknowledged write. -/
theorem actKind_putJob (put : JobPut) (r : PutReply Fault) :
    actKind (.putJob put) r = put.tried ∨ actKind (.putJob put) r = put.acked := by
  cases r <;> simp [actKind, JobPut.tried, JobPut.acked]

/-- A repeated try is of the kind of its put. -/
theorem Retried.only {put : JobPut} {e : Eff} {r : Resp e} (h : Retried put e r) :
    Only [put.tried] e r := by
  cases e
  case putJob put' =>
    obtain ⟨rfl, hr⟩ := h
    cases r with
    | done n => exact absurd rfl (hr n)
    | preconditionFailed => simp [Only, actKind, JobPut.tried]
    | conflict => simp [Only, actKind, JobPut.tried]
    | fault f => simp [Only, actKind, JobPut.tried]
  all_goals exact h.elim

/-- Repeated tries are tries. -/
theorem Retried.steps {put : JobPut} {w w' : World}
    (h : Steps q (Retried put) w w') : Acts q [put.tried] w w' :=
  h.mono (fun _ _ => Retried.only)

/-- A try of the write, acknowledged or not. -/
def OnlyPut (put : JobPut) (e : Eff) (_ : Resp e) : Prop := e = .putJob put

/-- A repeated try is of that put. -/
theorem Retried.onlyPut {put : JobPut} {e : Eff} {r : Resp e}
    (h : Retried put e r) : OnlyPut put e r := by
  cases e
  case putJob put' =>
    obtain ⟨rfl, -⟩ := h
    rfl
  all_goals exact h.elim

/-- The puts of a write are tries and acknowledged writes of it. -/
theorem OnlyPut.steps {put : JobPut} {w w' : World}
    (h : Steps q (OnlyPut put) w w') : Acts q [put.tried, put.acked] w w' := by
  refine h.mono ?_
  intro e r he
  cases he
  rcases actKind_putJob put r with hk | hk
  · simp [Only, hk]
  · simp [Only, hk]

/-- `_conditional_put` of a job record: the duty has to hold at every try. -/
theorem putJob_spec {put : JobPut} (n : Nat)
    (hencodes : encodable D.verify.lib put.record = true)
    (hduty : ∀ w₁, Steps q (Retried put) w w₁ → Inv D w₁ → put.Owes D q w₁.log) :
    Ensures D q (conditionalPut (Async.await (.putJob put) .ok) n) w (Post
      (fun done w' => match done with
        | some serial => Steps q (OnlyPut put) w w' ∧
            Did q (.putJob put) (.done serial) true w'.log ∧
            JobVersion put.job ⟨serial, put.record.reload⟩ w'.log ∧
            ∀ expected, put.expect = some expected → expected.serial < serial
        | none => Steps q (Retried put) w w')
      (fun _ w' => Steps q (Retried put) w w')) := by
  induction n generalizing w with
  | zero => exact Ensures.throw (Steps.refl w)
  | succ n ih =>
      unfold conditionalPut
      refine Ensures.bind (P := Post (fun r w' => ∃ w₁ landed,
          Steps q Nothing w w₁ ∧ Inv D w₁ ∧ Answer (.putJob put) w₁ r landed ∧
          w' = w₁.record (.did q (.putJob put) r landed)) (fun _ _ => False))
        (Ensures.await ?_) ?_ (fun _ _ hfalse => hfalse.elim)
      · intro w₁ hext hinv
        refine ⟨⟨hduty w₁ hext.of_nothing hinv, hencodes⟩, ?_⟩
        intro r landed hanswer _
        exact ⟨w₁, landed, hext, hinv, hanswer, rfl⟩
      · rintro r w' ⟨w₁, landed, hext, hinv, hanswer, rfl⟩
        -- The tries before an acknowledgement only retry the same write.
        have hretry : (∀ n, r ≠ .done n) → Steps q (Retried put) w
            (w₁.record (.did q (.putJob put) r landed)) :=
          fun hr => hext.of_nothing.trans (Steps.record ⟨rfl, hr⟩)
        cases r with
        | done serial =>
            obtain ⟨rfl, hserial, hcur⟩ := Puts.done_landed hanswer
            refine Ensures.pure ⟨hext.of_nothing.trans (Steps.record rfl),
              Did.record _ _ _ _ _, ?_, ?_⟩
            · have hput : Entry.jobPut ⟨w₁.time,
                  .did q (.putJob put) (.done serial) true⟩ = some put := rfl
              rw [hserial]
              exact Version.of_current (jobTag_cons_put hput)
            · intro expected hexpect
              rw [hexpect] at hcur
              obtain ⟨tag, htag, heq⟩ := Option.map_eq_some_iff.1 hcur
              have hle : jobSerial put.job w₁.log = tag.serial :=
                serial_of_current htag
              have heq : tag.serial = expected.serial := heq
              omega
        | preconditionFailed => exact Ensures.pure (hretry nofun)
        | fault f => exact Ensures.throw (hretry nofun)
        | conflict =>
            have hsteps := hretry nofun
            dsimp only
            split
            · exact Ensures.throw hsteps
            · refine (ih fun w₂ hsteps₂ hinv₂ =>
                hduty w₂ (hsteps.trans hsteps₂) hinv₂).mono ?_
              rintro (x | _ | serial) w₂ h
              · exact hsteps.trans h
              · exact hsteps.trans h
              · exact ⟨(hsteps.mono fun _ _ => Retried.onlyPut).trans h.1, h.2⟩

/-- **A record is created** once at most, and the answer tells whether by this
process. -/
theorem createRecord_spec {job : PyStr} {record : JobRecord}
    {ident : record.jobId = job}
    (hduty : ∀ w₁, Steps q (Retried ⟨job, none, none, record, ident⟩) w w₁ →
      Inv D w₁ → ∃ c, c.identity.jobId = job ∧ Created D c q w₁.log record) :
    Ensures D q (createRecord D record ident) w (Post
      (fun created w' => match created with
        | some stored => Acts q [.lease, .ackLease] w w' ∧
            Known stored w'.log ∧ stored.record = record ∧
            Leased q job stored.tag w'.log
        | none => Acts q [.lease] w w')
      (fun _ w' => Acts q [.lease] w w')) := by
  unfold createRecord
  split
  · exact Ensures.throw (Steps.refl w)
  · rename_i hencodes
    split
    · exact Ensures.throw (Steps.refl w)
    · rename_i hid
      refine Ensures.bind (putJob_spec conditionalPutAttempts (by simpa using hencodes) ?_) ?_ ?_
      · intro w₁ hsteps hinv
        exact ⟨rfl, by simpa using hid, hduty w₁ hsteps hinv⟩
      · rintro (_ | serial) w' h
        · exact Ensures.pure (Retried.steps h)
        · obtain ⟨hsteps, hdid, hver, -⟩ := h
          exact Ensures.pure
            ⟨OnlyPut.steps hsteps, hver, rfl, _, rfl, rfl, hdid, rfl⟩
      · intro x w' h
        exact Retried.steps h

/-! ## Transitions of a record -/

/-- Reading a record back keeps what guards its writes. -/
theorem JobWrite.guard_reload {t : JobWrite} {r : JobRecord} :
    t.Guard r.reload ↔ t.Guard r := by
  cases t <;> exact Iff.rfl

/-- A guard that holds of a record holds of its version. -/
theorem StoredJob.guard {job : PyStr} (stored : StoredJob job) {t : JobWrite}
    (h : t.Guard stored.record) : t.Guard stored.tag.content := by
  rw [stored.agrees]
  exact JobWrite.guard_reload.2 h

/-- What justifies a transition still does after tries of the same write. -/
theorem Cause.steps {w w' : World} {job : PyStr} {tag : Tag JobRecord}
    {t : JobWrite} {put : JobPut} (h : Cause D q w.log job tag t)
    (hsteps : Steps q (Retried put) w w') (hwrite : put.write = some t)
    (hexpect : put.expect = some tag) : Cause D q w'.log job tag t := by
  have hsuf := hsteps.suffix
  have hlease : ActKind.ackLease ∉ [put.tried] := by
    unfold JobPut.tried
    split <;> simp
  have hfresh : Absent q .ackLease w.log → Absent q .ackLease w'.log :=
    fun ha => ha.steps (Retried.steps hsteps) hlease
  have hout : Outsider q w.log → Outsider q w'.log := by
    intro ho
    refine ho.steps (Retried.steps hsteps) hlease ?_
    unfold JobPut.tried
    split <;> simp
  cases t with
  | claimed owner now =>
      obtain ⟨ha, c, hc, hjob, hbound, howner, hclock⟩ := h
      exact ⟨hfresh ha, c, hc.mono hsuf, hjob, hbound, howner, Did.mono hclock hsuf⟩
  | pending reference now =>
      obtain ⟨c, hc, hjob, hbound, hret⟩ := h
      exact ⟨c, hc.mono hsuf, hjob, hbound, Did.mono hret hsuf⟩
  | settled reference eventId settledAt lease now =>
      obtain ⟨hlease, c, hc, hjob, hbound, hevent, htime, hwhy⟩ := h
      refine ⟨hlease.mono hsuf, c, hc.mono hsuf, hjob, hbound, hevent,
        htime.imp_right fun hclock => Did.mono hclock hsuf, ?_⟩
      rcases hwhy with ⟨ref, href, hret⟩ | ⟨hnone, hmethod, hauth⟩
      · exact Or.inl ⟨ref, href, Did.mono hret hsuf⟩
      · exact Or.inr ⟨hnone, hmethod, hauth.mono hsuf⟩
  | paymentFailed now =>
      obtain ⟨hlease, c, hc, hjob, hbound, hwhy⟩ := h
      refine ⟨hlease.mono hsuf, c, hc.mono hsuf, hjob, hbound, ?_⟩
      rcases hwhy with hret | ⟨hmethod, hauth, at_, hclock, hexp⟩
      · exact Or.inl (Did.mono hret hsuf)
      · exact Or.inr ⟨hmethod, hauth.mono hsuf, at_, Did.mono hclock hsuf, hexp⟩
  | rateCommitted now =>
      obtain ⟨hours, ha | ⟨put', n, hdid, hrest⟩⟩ := h
      · exact ⟨hours.mono hsuf, Or.inl (hfresh ha)⟩
      · exact ⟨hours.mono hsuf, Or.inr ⟨put', n, hdid.mono hsuf, hrest⟩⟩
  | rateReleased now =>
      obtain ⟨hours, ha | ⟨put', n, hdid, hrest⟩⟩ := h
      · exact ⟨hours.mono hsuf, Or.inl (hfresh ha)⟩
      · exact ⟨hours.mono hsuf, Or.inr ⟨put', n, hdid.mono hsuf, hrest⟩⟩
  | requeued now => exact hout h
  | running owner now =>
      obtain ⟨ho, hack, hcell, hdrew, hserial, hheld⟩ := h
      refine ⟨hout ho, ?_, ?_, hdrew.mono hsuf, ?_, hheld⟩
      · refine hack.steps (Retried.steps hsteps) ?_
        unfold JobPut.tried
        split <;> simp
      · refine hcell.steps (Retried.steps hsteps) ?_
        unfold JobPut.tried
        split <;> simp
      · obtain ⟨-, new, hlog, hnew⟩ := hsteps
        intro x hx put' r landed hev hjob expected hexp
        rw [hlog] at hx
        rcases List.mem_append.1 hx with hx | hx
        · obtain ⟨rfl, -⟩ := hnew x hx _ _ _ hev
          rw [hexpect] at hexp
          obtain rfl := Option.some.inj hexp
          exact le_refl _
        · exact hserial x hx put' r landed hev hjob expected hexp
  | heartbeat owner now => exact hout h
  | succeeded owner now =>
      obtain ⟨ho, hdrew, markdown, hput⟩ := h
      exact ⟨hout ho, hdrew.mono hsuf, markdown, hput.mono hsuf⟩
  | executionFailed owner code canRetry now => exact hout h

/-- The classes of a transition's write. -/
def JobWrite.tried (t : JobWrite) : ActKind :=
  match t with
  | .claimed _ _ => .lease
  | _ => .put

def JobWrite.acked (t : JobWrite) : ActKind :=
  match t with
  | .claimed _ _ => .ackLease
  | _ => .ackPut

/-- A put is of the kinds of its transition. -/
theorem JobPut.kinds {put : JobPut} {t : JobWrite} (h : put.write = some t) :
    put.tried = t.tried ∧ put.acked = t.acked := by
  unfold JobPut.tried JobPut.acked JobPut.takesLease
  rw [h]
  cases t <;> exact ⟨rfl, rfl⟩

/-- What a process knows after an acknowledged transition. -/
structure Replaced (q : Nat) {job : PyStr} (old : StoredJob job) (t : JobWrite)
    (stored : StoredJob job) (log : List Entry) : Prop where
  known : Known stored log
  record : stored.record = t.apply old.record
  content : stored.tag.content = t.apply old.tag.content
  newer : old.tag.serial < stored.tag.serial
  did : ∃ put : JobPut, put.job = job ∧ put.write = some t ∧
    stored.tag.content = put.record.reload ∧
    Did q (.putJob put) (.done stored.tag.serial) true log

/-- `replace`, with every try it makes. -/
theorem replace_tries {job : PyStr} {stored : StoredJob job} {t : JobWrite}
    (hknown : Known stored w.log) (hguard : t.Guard stored.record)
    (hcause : Cause D q w.log job stored.tag t) :
    Ensures D q (replace D stored t) w (fun new w' => ∃ put : JobPut,
      put.job = job ∧ put.write = some t ∧ put.expect = some stored.tag ∧
      Post (fun new w' => Steps q (OnlyPut put) w w' ∧ Replaced q stored t new w'.log)
        (fun _ w' => Steps q (Retried put) w w') new w') := by
  let put : JobPut := ⟨job, some t, some stored.tag, t.apply stored.record,
    (JobWrite.apply_jobId t stored.record).trans stored.ident⟩
  have hcontent : (t.apply stored.record).reload =
      t.apply stored.tag.content := by
    rw [stored.agrees, t.apply_reload]
  have hduty : ∀ w₁, Steps q (Retried put) w w₁ → Inv D w₁ →
      put.Owes D q w₁.log := by
    intro w₁ hsteps hinv
    exact ⟨stored.tag, rfl, hknown.mono hsteps.suffix, hcontent,
      stored.guard hguard, hcause.steps hsteps rfl rfl⟩
  suffices h : Ensures D q (replace D stored t) w (Post
      (fun new w' => Steps q (OnlyPut put) w w' ∧ Replaced q stored t new w'.log)
      (fun _ w' => Steps q (Retried put) w w')) from
    h.mono fun _ _ h => ⟨put, rfl, rfl, rfl, h⟩
  unfold replace
  dsimp only
  split
  · exact Ensures.throw (Steps.refl w)
  · rename_i hencodes
    split
    · exact Ensures.throw (Steps.refl w)
    · refine Ensures.bind (putJob_spec conditionalPutAttempts (by simpa using hencodes) hduty)
        ?_ ?_
      · rintro (_ | serial) w' h
        · exact Ensures.throw h
        · obtain ⟨hsteps, hdid, hver, hnewer⟩ := h
          exact Ensures.pure ⟨hsteps, hver, rfl, hcontent, hnewer _ rfl, put, rfl,
            rfl, rfl, hdid⟩
      · intro x w' h
        exact h

/-- `replace`. -/
theorem replace_spec {job : PyStr} {stored : StoredJob job} {t : JobWrite}
    (hknown : Known stored w.log) (hguard : t.Guard stored.record)
    (hcause : Cause D q w.log job stored.tag t) :
    Ensures D q (replace D stored t) w (Post
      (fun new w' => Acts q [t.tried, t.acked] w w' ∧ Replaced q stored t new w'.log)
      (fun _ w' => Acts q [t.tried] w w')) := by
  refine (replace_tries hknown hguard hcause).mono ?_
  rintro (x | new) w' ⟨put, -, hwrite, -, h⟩
  · have hsteps := Retried.steps h
    rw [(JobPut.kinds hwrite).1] at hsteps
    exact hsteps
  · have hsteps := OnlyPut.steps h.1
    rw [(JobPut.kinds hwrite).1, (JobPut.kinds hwrite).2] at hsteps
    exact ⟨hsteps, h.2⟩

/-! ## Wallet records -/

/-- What a put owes it owes in longer histories. -/
theorem WalletPut.Owes.mono {put : WalletPut} {log log' : List Entry}
    (h : put.Owes q log) (hsuf : log <:+ log') : put.Owes q log' := by
  obtain ⟨hentries, hcause⟩ := h
  refine ⟨?_, ?_⟩
  · cases hexpect : put.expect with
    | none =>
        rw [hexpect] at hentries
        exact hentries
    | some tag =>
        rw [hexpect] at hentries
        exact ⟨hentries.1.mono hsuf, hentries.2⟩
  · have hclock : ∀ {now : Int}, (∃ inst, Clocked q inst now log) →
        ∃ inst, Clocked q inst now log' := by
      rintro now ⟨inst, hclock⟩
      exact ⟨inst, Did.mono hclock hsuf⟩
    cases hwrite : put.write with
    | create id now =>
        rw [hwrite] at hcause
        exact hclock hcause
    | prune now =>
        rw [hwrite] at hcause
        exact hclock hcause
    | append id now =>
        rw [hwrite] at hcause
        exact hclock hcause
    | commit id reservedAt now =>
        rw [hwrite] at hcause
        obtain ⟨hnow, tag, hver, hrest⟩ := hcause
        exact ⟨hclock hnow, tag, hver.mono hsuf, hrest⟩
    | release id reservedAt now =>
        rw [hwrite] at hcause
        obtain ⟨hnow, tag, hver, hrest⟩ := hcause
        exact ⟨hclock hnow, tag, hver.mono hsuf, hrest⟩

/-- A wallet that is read is a version of its record. -/
theorem readWalletRateLimit_spec {digest : PyStr} :
    Ensures D q (readWalletRateLimit digest) w (Post
      (fun found w' => Acts q [.quiet] w w' ∧
        ∀ stored, found = some stored → WalletVersion digest stored w'.log)
      (fun _ w' => Acts q [.quiet] w w')) := by
  unfold readWalletRateLimit
  split
  · exact Ensures.throw (Steps.refl w)
  · refine Ensures.act (L := [.quiet]) (fun r => by simp [actKind])
      (fun _ _ _ => trivial) ?_
    rintro w₁ r landed w' hext hinv ⟨hread, -⟩ rfl hinv' hsteps -
    cases r with
    | error f => exact hsteps
    | ok found =>
        refine ⟨hsteps, ?_⟩
        rintro stored rfl
        have hread : some stored = walletAt digest w₁.log := hread
        exact (Version.of_current hread.symm).mono (List.suffix_cons _ _)

/-- `_conditional_put` of a wallet record. -/
theorem putWallet_spec {put : WalletPut} (n : Nat) (hduty : put.Owes q w.log) :
    Ensures D q (conditionalPut (Async.await (.putWallet put) .ok) n) w (Post
      (fun done w' => Acts q [.quiet] w w' ∧
        ∀ serial, done = some serial →
          Did q (.putWallet put) (.done serial) true w'.log)
      (fun _ w' => Acts q [.quiet] w w')) := by
  induction n generalizing w with
  | zero => exact Ensures.throw (Steps.refl w)
  | succ n ih =>
      unfold conditionalPut
      refine Ensures.bind (P := Post (fun r w' => Acts q [.quiet] w w' ∧
          ∀ serial, r = .done serial →
            Did q (.putWallet put) (.done serial) true w'.log) (fun _ _ => False))
        (Ensures.act (L := [.quiet]) (fun r => by simp [actKind])
          (fun w₁ hext _ => hduty.mono hext.suffix) ?_) ?_
        (fun _ _ hfalse => hfalse.elim)
      · rintro w₁ r landed w' hext hinv hanswer - - hsteps hdid
        refine ⟨hsteps, ?_⟩
        rintro serial rfl
        obtain ⟨rfl, -, -⟩ := Puts.done_landed hanswer
        exact hdid
      · rintro r w' ⟨hsteps, hdone⟩
        cases r with
        | done serial =>
            refine Ensures.pure ⟨hsteps, ?_⟩
            rintro serial' heq
            obtain rfl := Option.some.inj heq
            exact hdone _ rfl
        | preconditionFailed => exact Ensures.pure ⟨hsteps, nofun⟩
        | fault f => exact Ensures.throw hsteps
        | conflict =>
            dsimp only
            split
            · exact Ensures.throw hsteps
            · refine (ih (hduty.mono hsteps.suffix)).mono ?_
              rintro (x | done) w₂ h
              · exact hsteps.trans h
              · exact ⟨hsteps.trans h.1, h.2⟩

/-- A wallet is created by a put that is owed. -/
theorem createWalletRateLimit_spec {digest : PyStr} {write : WalletWrite}
    {entries : List WalletEntry}
    (hduty : ∀ h, (⟨digest, write, none, ⟨entries, h⟩⟩ : WalletPut).Owes q w.log) :
    Ensures D q (createWalletRateLimit digest write entries) w (Post
      (fun created w' => Acts q [.quiet] w w' ∧ (created = some () →
        isWalletDigest digest = true ∧ walletEncodable entries = true ∧
        ∃ put n, Did q (.putWallet put) (.done n) true w'.log ∧
          put.digest = digest ∧ put.write = write))
      (fun _ w' => Acts q [.quiet] w w')) := by
  unfold createWalletRateLimit
  split
  · rename_i henc
    split
    · exact Ensures.throw (Steps.refl w)
    · rename_i hdigest
      refine Ensures.bind (putWallet_spec _ (hduty henc)) ?_ (fun _ _ h => h)
      rintro (_ | serial) w' ⟨hsteps, hdone⟩
      · exact Ensures.pure ⟨hsteps, nofun⟩
      · refine Ensures.pure ⟨hsteps, fun _ => ⟨by simpa using hdigest, henc, ?_⟩⟩
        exact ⟨_, serial, hdone serial rfl, rfl, rfl⟩
  · exact Ensures.throw (Steps.refl w)

/-- A wallet is replaced by a put that is owed. -/
theorem replaceWalletRateLimit_spec {digest : PyStr} {stored : StoredWallet}
    {write : WalletWrite} {entries : List WalletEntry}
    (hduty : ∀ h, (⟨digest, write, some stored, ⟨entries, h⟩⟩ : WalletPut).Owes q
      w.log) :
    Ensures D q (replaceWalletRateLimit digest stored write entries) w (Post
      (fun _ w' => Acts q [.quiet] w w' ∧ isWalletDigest digest = true ∧
        walletEncodable entries = true ∧
        ∃ put n, Did q (.putWallet put) (.done n) true w'.log ∧
          put.digest = digest ∧ put.write = write)
      (fun _ w' => Acts q [.quiet] w w')) := by
  unfold replaceWalletRateLimit
  split
  · rename_i henc
    split
    · exact Ensures.throw (Steps.refl w)
    · rename_i hdigest
      refine Ensures.bind (putWallet_spec _ (hduty henc)) ?_ (fun _ _ h => h)
      rintro (_ | serial) w' ⟨hsteps, hdone⟩
      · exact Ensures.throw hsteps
      · exact Ensures.pure ⟨hsteps, by simpa using hdigest, henc, _, serial,
          hdone serial rfl, rfl, rfl⟩
  · exact Ensures.throw (Steps.refl w)

/-! ## Markers and reports -/

/-- Reading a marker is quiet. -/
theorem readAccountingMarker_spec {job : PyStr} :
    Ensures D q (readAccountingMarker job) w (Post
      (fun _ w' => Acts q [.quiet] w w') (fun _ w' => Acts q [.quiet] w w')) := by
  unfold readAccountingMarker
  split
  · exact Ensures.throw (Steps.refl w)
  · refine Ensures.quiet (fun _ => rfl) (fun _ => trivial) ?_
    rintro r landed w' hsteps -
    cases r <;> exact hsteps

/-- `create_accounting_marker`; the duty of the marker only grows truer. -/
theorem createAccountingMarker_spec {job : PyStr} {marker : AccountingMarker}
    (hduty : ∀ w₁ : World, w.log <:+ w₁.log → Duty D q w₁.log (.putMarker job marker)) :
    Ensures D q (createAccountingMarker D job marker) w (Post
      (fun _ w' => Acts q [.quiet] w w') (fun _ w' => Acts q [.quiet] w w')) := by
  have hput : ∀ n (w₁ : World), w.log <:+ w₁.log →
      Ensures D q (conditionalPut (Async.await (.putMarker job marker) .ok) n) w₁
        (Post (fun _ w' => Acts q [.quiet] w₁ w')
          (fun _ w' => Acts q [.quiet] w₁ w')) := by
    intro n
    induction n with
    | zero => exact fun w₁ _ => Ensures.throw (Steps.refl w₁)
    | succ n ih =>
        intro w₁ hsuf
        unfold conditionalPut
        refine Ensures.bind (P := Post (fun _ w' => Acts q [.quiet] w₁ w')
            (fun _ _ => False))
          (Ensures.act (L := [.quiet]) (fun _ => by simp [actKind])
            (fun w₂ hext _ => hduty w₂ (hsuf.trans hext.suffix)) ?_) ?_
          (fun _ _ hfalse => hfalse.elim)
        · rintro w₂ r landed w' - - - - - hsteps -
          exact hsteps
        · rintro r w' hsteps
          cases r with
          | done serial => exact Ensures.pure hsteps
          | preconditionFailed => exact Ensures.pure hsteps
          | fault f => exact Ensures.throw hsteps
          | conflict =>
              dsimp only
              split
              · exact Ensures.throw hsteps
              · refine (ih w' (hsuf.trans hsteps.suffix)).mono ?_
                rintro (x | done) w₂ h
                · exact Steps.trans hsteps h
                · exact Steps.trans hsteps h
  unfold createAccountingMarker
  split
  · exact Ensures.throw (Steps.refl w)
  · split
    · exact Ensures.throw (Steps.refl w)
    · refine Ensures.bind (hput _ w (List.suffix_refl _)) ?_ (fun _ _ h => h)
      rintro (_ | serial) w' h
      · exact Ensures.pure h
      · exact Ensures.pure h

/-- **A report is put** by a process whose duty allows it. -/
theorem putReport_spec {job markdown reportId : PyStr}
    (hduty : ∀ w₁, Steps q Nothing w w₁ → Inv D w₁ →
      Duty D q w₁.log (.putReport job reportId markdown)) :
    Ensures D q (putReport job markdown reportId) w (Post
      (fun _ w' => Acts q [.report] w w' ∧
        Did q (.putReport job reportId markdown) (.ok ()) true w'.log)
      (fun _ w' => Acts q [.report] w w')) := by
  unfold putReport
  split
  · exact Ensures.throw (Steps.refl w)
  · split
    · exact Ensures.throw (Steps.refl w)
    · split
      · exact Ensures.throw (Steps.refl w)
      · refine Ensures.act (L := [.report]) (fun _ => by simp [actKind]) hduty ?_
        rintro w₁ r landed w' - - hanswer - - hsteps hdid
        cases r with
        | error f => exact hsteps
        | ok u =>
            obtain rfl : landed = true := hanswer rfl
            exact ⟨hsteps, hdid⟩

/-- Presigning a URL is quiet. -/
theorem presignReport_spec {job : PyStr} {reportId : Option PyStr} :
    Ensures D q (presignReport job reportId) w (Post
      (fun _ w' => Acts q [.quiet] w w') (fun _ w' => Acts q [.quiet] w w')) := by
  unfold presignReport
  split
  · exact Ensures.throw (Steps.refl w)
  · refine Ensures.quiet (fun _ => rfl) (fun _ => trivial) ?_
    rintro r landed w' hsteps -
    cases r <;> exact hsteps

end X402
