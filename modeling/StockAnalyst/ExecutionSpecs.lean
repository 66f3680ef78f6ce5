import StockAnalyst.CreateSpecs

/-!
# Specifications of the workers

The execution claim, the heartbeat and the worker's report.  A worker builds
every write on a version that its own claim made it the owner of, and publishes
only the report of its last stream.
-/

namespace X402

open Python ConditionalStore Coroutine

variable {D : Deployment} {q : Nat} {w : World} {inst : Nat} {job owner : PyStr}

/-! ## Held records -/

/-- What a worker holds it held for good. -/
theorem Held.mono {stored : StoredJob job} {log log' : List Entry}
    (h : Held job owner stored log) (hsuf : log <:+ log') :
    Held job owner stored log' :=
  ⟨h.1.mono hsuf, h.2⟩

/-- The cell of a worker holds versions that the worker owns. -/
theorem Lawful.holder {log : List Entry} (h : Lawful D log) {cell : Cell}
    {stored : StoredJob cell.job} (hh : holderAt cell log = some stored) :
    Held cell.job cell.owner stored log := by
  induction log with
  | nil => cases hh
  | cons x log ih =>
      have hold : holderAt cell log = some stored →
          Held cell.job cell.owner stored (x :: log) :=
        fun hh => (ih h.1 hh).mono (List.suffix_cons _ _)
      obtain ⟨hlawful, -, hevent⟩ := h
      unfold holderAt at hh
      split at hh
      · rename_i pid job' owner' stored' id landed heq
        rw [heq] at hevent
        have hduty : Held job' owner' stored' log := hevent.1.1
        split at hh
        · rename_i hjob
          subst hjob
          split at hh
          · rename_i hid
            obtain ⟨-, rfl⟩ := hid
            cases hh
            exact hduty.mono (List.suffix_cons _ _)
          · exact hold hh
        · exact hold hh
      · rename_i pid cell' stored' r landed heq
        rw [heq] at hevent
        have hduty : Held cell'.job cell'.owner stored' log := hevent.1
        split at hh
        · rename_i hcell
          subst hcell
          cases hh
          exact hduty.mono (List.suffix_cons _ _)
        · exact hold hh
      · exact hold hh

/-- The cell gives out a record that its owner holds. -/
theorem getHolder_spec {cell : Cell} :
    Ensures D q (getHolder cell) w (Post
      (fun stored w' => Acts q [.quiet] w w' ∧
        Held cell.job cell.owner stored w'.log)
      (fun _ _ => False)) := by
  refine Ensures.act (L := [.quiet]) (fun r => by simp [actKind])
    (fun _ _ _ => trivial) ?_
  rintro w₁ stored landed w' - hinv₁ ⟨hholder, -⟩ rfl - hsteps -
  exact ⟨hsteps, (hinv₁.1.holder hholder).mono (List.suffix_cons _ _)⟩

/-- A held record may be put into the cell. -/
theorem setHolder_spec {cell : Cell} {stored : StoredJob cell.job}
    (h : Held cell.job cell.owner stored w.log) :
    Ensures D q (setHolder cell stored) w (Post (fun _ w' => Acts q [.quiet] w w')
      (fun _ _ => False)) := by
  refine Ensures.act (L := [.quiet]) (fun r => by simp [actKind])
    (fun w₁ hext _ => h.mono hext.suffix) ?_
  rintro w₁ r landed w' - - - - - hsteps -
  exact hsteps

/-- Asking whether the lease is lost is quiet. -/
theorem leaseLost_spec {cell : Cell} :
    Ensures D q (leaseLost cell) w (Post (fun _ w' => Acts q [.quiet] w w')
      (fun _ _ => False)) :=
  Ensures.quiet (fun _ => rfl) (fun _ => trivial) (fun _ _ _ hsteps _ => hsteps)

/-- Stopping the heartbeat is quiet. -/
theorem stopHeartbeat_spec {cell : Cell} :
    Ensures D q (stopHeartbeat cell) w (Post (fun _ w' => Acts q [.quiet] w w')
      (fun _ w' => Acts q [.quiet] w w')) := by
  refine Ensures.bind (P := Post (fun _ w' => Acts q [.quiet] w w')
      (fun _ w' => Acts q [.quiet] w w'))
    (Ensures.quiet (fun _ => rfl) (fun _ => trivial)
      (fun _ _ _ hsteps _ => hsteps)) ?_ (fun _ _ h => h)
  intro _ w₁ hsteps
  refine Ensures.quiet (fun _ => rfl) (fun _ => trivial) ?_
  rintro r landed w₂ hsteps₂ -
  cases r <;> exact Steps.trans hsteps hsteps₂

/-- `_refresh_lease` of a held record. -/
theorem refreshLease_spec {stored : StoredJob job}
    (hheld : Held job owner stored w.log) (houtsider : Outsider q w.log) :
    Ensures D q (refreshLease D inst stored owner) w (Post
      (fun new w' => Acts q bookkeeping w w' ∧
        ∀ refreshed, new = some refreshed → Held job owner refreshed w'.log)
      (fun _ w' => Acts q bookkeeping w w')) := by
  unfold refreshLease
  split
  · exact Ensures.pure ⟨Steps.refl w, by simp⟩
  · refine Ensures.bind clock_book ?_ (fun _ _ hfalse => hfalse.elim)
    rintro now w₁ ⟨hsteps, -⟩
    refine Ensures.attempt (replace_book (t := .heartbeat owner now)
      (hheld.1.mono hsteps.suffix) hheld.2
      (houtsider.steps hsteps (by simp [bookkeeping]) (by simp [bookkeeping]))
      ⟨rfl, rfl⟩) ?_
    rintro (x | refreshed) w₂ h
    · have hsteps₂ : Acts q bookkeeping w w₂ := hsteps.trans h
      cases x
      case jobConflict => exact Ensures.pure ⟨hsteps₂, by simp⟩
      all_goals exact Ensures.throw hsteps₂
    · obtain ⟨hsteps₂, hnew⟩ := h
      refine Ensures.pure ⟨hsteps.trans hsteps₂, ?_⟩
      intro refreshed' heq
      cases heq
      refine ⟨hnew.known, ?_⟩
      rw [hnew.record]
      exact hheld.2

/-! ## The heartbeat -/

/-- Marking the lease as lost is quiet. -/
theorem setLeaseLost_spec {cell : Cell} :
    Ensures D q (setLeaseLost cell) w (Post (fun _ w' => Acts q [.quiet] w w')
      (fun _ _ => False)) :=
  Ensures.quiet (fun _ => rfl) (fun _ => trivial) (fun _ _ _ hsteps _ => hsteps)

/-- One pass of the heartbeat refreshes a lease that is held. -/
theorem heartbeatPass_spec {cell : Cell} (houtsider : Outsider q w.log) :
    Ensures D q (heartbeatPass D inst cell) w (fun _ _ => True) := by
  refine Ensures.bind sleep_spec ?_ (fun _ _ _ => trivial)
  intro _ w₁ hsteps
  have hsteps : Acts q [.quiet] w w₁ := hsteps
  refine Ensures.bind getHolder_spec ?_ (fun _ _ _ => trivial)
  rintro stored w₂ ⟨hsteps₂, hheld⟩
  have houtsider₂ := houtsider.steps (hsteps.trans hsteps₂) (by simp) (by simp)
  refine Ensures.attempt (refreshLease_spec hheld houtsider₂) ?_
  intro result w₃ hresult
  refine Ensures.bind interrupted_spec ?_ (fun _ _ _ => trivial)
  intro cancelled w₄ hsteps₄
  have hsteps₄ : Acts q [.quiet] w₃ w₄ := hsteps₄
  rcases result with x | _ | refreshed
  · exact Ensures.throw trivial
  · rw [Async.ofExcept_ok_bind]
    refine Ensures.bind setLeaseLost_spec ?_ (fun _ _ _ => trivial)
    intro _ w₅ _
    cases cancelled
    · exact Ensures.pure trivial
    · exact Ensures.throw trivial
  · have hnew := hresult.2 refreshed rfl
    rw [Async.ofExcept_ok_bind]
    refine Ensures.bind (setHolder_spec (hnew.mono hsteps₄.suffix)) ?_
      (fun _ _ _ => trivial)
    intro _ w₅ _
    cases cancelled
    · exact Ensures.pure trivial
    · exact Ensures.throw trivial

/-- The heartbeat task keeps its contract. -/
theorem heartbeat_call {cell : Cell} (hidle : Idle q w.log) :
    Ensures D q (callBody D (.heartbeat inst cell)) w (fun _ _ => True) := by
  have hdone : ∀ {w₁ : World}, Ensures D q
      (Async.await (.heartbeatDone cell) .ok : Co Unit) w₁ (fun _ _ => True) :=
    Ensures.quiet (fun _ => rfl) (fun _ => trivial) (fun _ _ _ _ _ => trivial)
  refine Ensures.attempt (heartbeatPass_spec hidle.outsider) ?_
  rintro (x | _ | _) w₁ -
  · cases x
    case cancelled => exact hdone
    all_goals
      refine Ensures.bind setLeaseLost_spec ?_ (fun _ _ _ => trivial)
      intro _ w₂ _
      exact hdone
  · exact hdone
  · exact fork_spec.mono (fun _ _ _ => trivial)

/-! ## The execution claim -/

/-- What a worker has established before its claim.  None of its tries was on
a version that it owned. -/
structure Claiming (q : Nat) (job owner : PyStr) (log : List Entry) : Prop where
  drew : Drew q owner log
  outsider : Outsider q log
  unreported : Absent q .report log
  unacked : Absent q .ackPut log
  unstarted : Absent q .cell log
  passed : ∀ x ∈ log, ∀ put r landed, x.event = .did q (.putJob put) r landed →
    put.job = job → ∀ expected, put.expect = some expected →
      ¬ JobWrite.HeldBy owner expected.content

/-- The writes of a process are old ones or new ones. -/
theorem Steps.puts {K : (e : Eff) → Resp e → Prop} {w' : World}
    (hsteps : Steps q K w w') {P : JobPut → Prop}
    (hnew : ∀ put r, K (.putJob put) r → P put)
    (hold : ∀ x ∈ w.log, ∀ put r landed,
      x.event = .did q (.putJob put) r landed → P put) :
    ∀ x ∈ w'.log, ∀ put r landed, x.event = .did q (.putJob put) r landed →
      P put := by
  obtain ⟨-, new, hlog, hK⟩ := hsteps
  intro x hx put r landed hev
  rw [hlog] at hx
  rcases List.mem_append.1 hx with hx | hx
  · exact hnew put r (hK x hx _ _ _ hev)
  · exact hold x hx put r landed hev

/-- Reading tries no write. -/
theorem not_putJob {L : List ActKind} (hL : L ⊆ [.quiet, .missed, .found])
    {put : JobPut} {r : Resp (.putJob put)} : ¬ Only L (.putJob put) r := by
  intro hmem
  have hk := hL hmem
  rcases actKind_putJob put r with heq | heq
  · rw [heq] at hk
    unfold JobPut.tried at hk
    split at hk <;> simp at hk
  · rw [heq] at hk
    unfold JobPut.acked at hk
    split at hk <;> simp at hk

/-- What is established before the claim lasts while nothing is written. -/
theorem Claiming.steps {w' : World} (h : Claiming q job owner w.log)
    {L : List ActKind} (hsteps : Acts q L w w')
    (hL : L ⊆ [.quiet, .missed, .found]) : Claiming q job owner w'.log := by
  have hnot : ∀ {k}, k ∉ [ActKind.quiet, .missed, .found] → k ∉ L :=
    fun hk hmem => hk (hL hmem)
  exact ⟨h.drew.mono hsteps.suffix,
    h.outsider.steps hsteps (hnot (by simp)) (hnot (by simp)),
    h.unreported.steps hsteps (hnot (by simp)),
    h.unacked.steps hsteps (hnot (by simp)),
    h.unstarted.steps hsteps (hnot (by simp)),
    hsteps.puts (fun put r hK => absurd hK (not_putJob hL)) h.passed⟩

/-- A claim that failed leaves a worker where it was. -/
theorem Claiming.retried {w' : World} (h : Claiming q job owner w.log)
    {put : JobPut} {now : Int} {tag : Tag JobRecord}
    (hwrite : put.write = some (.running owner now)) (hexpect : put.expect = some tag)
    (hheld : ¬ JobWrite.HeldBy owner tag.content)
    (hsteps : Steps q (Retried put) w w') : Claiming q job owner w'.log := by
  have hacts := Retried.steps hsteps
  rw [(JobPut.kinds hwrite).1] at hacts
  have hacts : Acts q [.put] w w' := hacts
  refine ⟨h.drew.mono hacts.suffix, h.outsider.steps hacts (by simp) (by simp),
    h.unreported.steps hacts (by simp), h.unacked.steps hacts (by simp),
    h.unstarted.steps hacts (by simp), ?_⟩
  refine hsteps.puts ?_ h.passed
  intro put' r hK _ expected hexp
  obtain ⟨rfl, -⟩ := hK
  rw [hexpect] at hexp
  cases hexp
  exact hheld

/-- The version that a tried write expects was known before. -/
theorem Lawful.expected {log : List Entry} (h : Lawful D log) {x : Entry}
    (hx : x ∈ log) {put : JobPut} {r : Resp (.putJob put)} {landed : Bool}
    (hev : x.event = .did q (.putJob put) r landed) {expected : Tag JobRecord}
    (hexpect : put.expect = some expected) : JobVersion put.job expected log := by
  obtain ⟨t, event⟩ := x
  have hev : event = .did q (.putJob put) r landed := hev
  subst hev
  obtain ⟨t', older, hsuf, -, hduty, -⟩ := h.duty ⟨t, hx⟩
  have howes : put.Owes D q older := hduty.1
  unfold JobPut.Owes at howes
  cases hwrite : put.write with
  | none =>
      rw [hwrite] at howes
      rw [howes.1] at hexpect
      cases hexpect
  | some write =>
      rw [hwrite] at howes
      obtain ⟨seen, hseen, hver, -⟩ := howes
      rw [hseen] at hexpect
      cases hexpect
      exact hver.mono ((List.suffix_cons _ _).trans hsuf)

/-- A version that no other exceeds is the newest. -/
theorem Lawful.newest {log : List Entry} (h : Lawful D log) {tag : Tag JobRecord}
    (htag : ∀ seen, JobVersion job seen log → seen.serial ≤ tag.serial) :
    Newest q job tag log := by
  intro x hx put r landed hev hjob expected hexpect
  subst hjob
  exact htag _ (h.expected hx hev hexpect)

/-- The newest version seen stays so while nothing is written. -/
theorem Newest.steps {tag : Tag JobRecord} {w' : World}
    (h : Newest q job tag w.log) {L : List ActKind} (hsteps : Acts q L w w')
    (hL : L ⊆ [.quiet, .missed, .found]) : Newest q job tag w'.log :=
  hsteps.puts (fun _ _ hK => absurd hK (not_putJob hL)) h

/-- A version that was overtaken stays so. -/
theorem Overtaken.steps {tag : Tag JobRecord} {w' : World}
    (h : Overtaken q job tag w.log) {L : List ActKind} (hsteps : Acts q L w w')
    (hL : L ⊆ [.quiet, .missed, .found]) : Overtaken q job tag w'.log :=
  hsteps.puts (fun _ _ hK => absurd hK (not_putJob hL)) h

/-- The version a process reads is as new as every version it has seen. -/
theorem readJob_newest :
    Ensures D q (readJob job) w (Post
      (fun found w' => Acts q [.missed, .found] w w' ∧ ∀ stored, found = some stored →
        Known stored w'.log ∧
        ∀ tag, JobVersion job tag w.log → tag.serial ≤ stored.tag.serial)
      (fun _ w' => Acts q [.missed, .found] w w')) := by
  unfold readJob
  split
  · exact Ensures.throw (Steps.refl w)
  · refine Ensures.await ?_
    intro w₁ hext hinv₁
    refine ⟨trivial, ?_⟩
    rintro r landed ⟨hread, rfl⟩ -
    have hsteps : ∀ {r : Resp (.getJob job)}, Acts q [.missed, .found] w
        (w₁.record (.did q (.getJob job) r false)) := by
      intro r
      refine hext.of_nothing.trans (Steps.record ?_)
      rcases r with f | _ | stored <;> simp [Only, actKind]
    rcases r with f | found
    · exact hsteps
    · refine ⟨hsteps, ?_⟩
      rintro stored rfl
      have hread : some stored = jobAt job w₁.log := hread
      obtain ⟨hcur, -⟩ := jobAt_some hread.symm
      refine ⟨(Version.of_current hcur).mono (List.suffix_cons _ _), ?_⟩
      intro tag hver
      have hle := (hver.mono hext.suffix).serial_le
      rw [serial_of_current hcur] at hle
      exact hle

/-- What a worker knows of the record it may execute. -/
structure Claimed (q : Nat) (job owner : PyStr) (stored : StoredJob job)
    (log : List Entry) : Prop where
  drew : Drew q owner log
  outsider : Outsider q log
  unreported : Absent q .report log
  held : Held job owner stored log
  overtaken : Overtaken q job stored.tag log

/-- Whether a record is held can be read off its version. -/
theorem StoredJob.heldBy (stored : StoredJob job) :
    JobWrite.HeldBy owner stored.tag.content ↔ JobWrite.HeldBy owner stored.record := by
  rw [stored.agrees]
  exact Iff.rfl

/-- A worker adopts a record that its own lost claim has made. -/
theorem Claiming.adopt {stored : StoredJob job} {log : List Entry}
    (h : Claiming q job owner log) (hlawful : Lawful D log)
    (hknown : Known stored log) (hnewest : Newest q job stored.tag log)
    (hheld : JobWrite.HeldBy owner stored.record) :
    Claimed q job owner stored log := by
  refine ⟨h.drew, h.outsider, h.unreported, ⟨hknown, hheld⟩, ?_⟩
  intro x hx put r landed hev hjob expected hexpect
  have hle := hnewest x hx put r landed hev hjob expected hexpect
  have hne : expected.serial ≠ stored.tag.serial := by
    intro heq
    have hver := hlawful.expected hx hev hexpect
    rw [hjob] at hver
    have hsame := hver.unique hknown heq
    refine h.passed x hx put r landed hev hjob expected hexpect ?_
    rw [hsame]
    exact stored.heldBy.2 hheld
  omega

/-- An acknowledged claim. -/
theorem Claiming.claimed {w' : World} {stored running : StoredJob job} {put : JobPut}
    {now : Int} (h : Claiming q job owner w.log)
    (hnewest : Newest q job stored.tag w.log)
    (hwrite : put.write = some (.running owner now))
    (hexpect : put.expect = some stored.tag)
    (hsteps : Steps q (OnlyPut put) w w')
    (hnew : Replaced q stored (.running owner now) running w'.log) :
    Claimed q job owner running w'.log := by
  have hacts := OnlyPut.steps hsteps
  rw [(JobPut.kinds hwrite).1, (JobPut.kinds hwrite).2] at hacts
  have hacts : Acts q [.put, .ackPut] w w' := hacts
  refine ⟨h.drew.mono hacts.suffix, h.outsider.steps hacts (by simp) (by simp),
    h.unreported.steps hacts (by simp), ⟨hnew.known, ?_⟩, ?_⟩
  · rw [hnew.record]
    exact ⟨rfl, rfl⟩
  · refine hsteps.puts ?_ ?_
    · intro put' r hK _ expected hexp
      cases hK
      rw [hexpect] at hexp
      cases hexp
      exact hnew.newer
    · intro x hx put' r landed hev hjob expected hexp
      have hle := hnewest x hx put' r landed hev hjob expected hexp
      have hlt := hnew.newer
      omega

/-- **One claim of the newest version**: a record that comes back is claimed by
this worker. -/
theorem claimExecution_spec {stored : StoredJob job} (hinv : Inv D w)
    (h : Claiming q job owner w.log) (hknown : Known stored w.log)
    (hnewest : Newest q job stored.tag w.log) :
    Ensures D q (claimExecution D inst stored owner) w (Post
      (fun made w' => ∀ running, made = some running →
        Claimed q job owner running w'.log)
      (fun _ w' => Claiming q job owner w'.log)) := by
  refine Ensures.bind_inv hinv clock_spec ?_ (fun _ _ hfalse _ => hfalse.elim)
  rintro now w₁ ⟨hsteps, -⟩ hinv₁
  have h₁ := h.steps hsteps (by simp)
  have hknown₁ := hknown.mono hsteps.suffix
  have hnewest₁ := hnewest.steps hsteps (by simp)
  -- The owner is not empty, so a lease in its name is its own.
  have hheld : stored.record.status = .running ∧
      stored.record.leaseOwner.getD [] = owner ↔
      JobWrite.HeldBy owner stored.record := by
    obtain ⟨token, htoken, -⟩ := h.drew
    have hlength : owner ≠ [] := by
      rintro rfl
      have hid := token.2
      rw [htoken] at hid
      simp [isReportId] at hid
    unfold JobWrite.HeldBy
    cases howner : stored.record.leaseOwner with
    | none => simp [hlength.symm]
    | some o => simp
  split
  · rename_i hrunning
    refine Ensures.pure ?_
    intro running heq
    cases heq
    exact h₁.adopt hinv₁.1 hknown₁ hnewest₁ (hheld.1 hrunning)
  · rename_i hnot
    split
    · rename_i hfrom
      split
      · exact Ensures.pure (fun _ heq => by cases heq)
      · rename_i hattempt
        have hguard : (JobWrite.running owner now).Guard stored.record :=
          ⟨hfrom, by omega⟩
        have hother : ¬ JobWrite.HeldBy owner stored.tag.content :=
          fun hmine => hnot (hheld.2 (stored.heldBy.1 hmine))
        refine Ensures.bind (replace_tries hknown₁ hguard ⟨h₁.outsider, h₁.unacked,
          h₁.unstarted, h₁.drew, hnewest₁, hother⟩) ?_ ?_
        · rintro running w₂ ⟨put, -, hwrite, hexpect, hsteps₂, hnew⟩
          refine Ensures.pure ?_
          intro running' heq
          cases heq
          exact h₁.claimed hnewest₁ hwrite hexpect hsteps₂ hnew
        · rintro x w₂ ⟨put, -, hwrite, hexpect, hsteps₂⟩
          exact h₁.retried hwrite hexpect hother hsteps₂
    · exact Ensures.pure (fun _ heq => by cases heq)

/-- One try reads the record and claims it. -/
theorem claimOnce_spec (hinv : Inv D w) (h : Claiming q job owner w.log) :
    Ensures D q (claimOnce D inst job owner) w (Post
      (fun made w' => ∀ running, made = some running →
        Claimed q job owner running w'.log)
      (fun _ w' => Claiming q job owner w'.log)) := by
  refine Ensures.bind_inv hinv readJob_newest ?_ ?_
  · rintro (_ | stored) w₁ ⟨hsteps, hfound⟩ hinv₁
    · exact Ensures.pure (fun _ heq => by cases heq)
    · have hsteps : Acts q [.missed, .found] w w₁ := hsteps
      obtain ⟨hknown, hseen⟩ := hfound stored rfl
      exact claimExecution_spec hinv₁ (h.steps hsteps (by simp)) hknown
        ((hinv.1.newest hseen).steps hsteps (by simp))
  · intro x w₁ hsteps _
    exact h.steps (L := [.missed, .found]) hsteps (by simp)

/-- So do all the tries. -/
theorem claimLoop_spec (remaining : Nat) (hinv : Inv D w)
    (h : Claiming q job owner w.log) :
    Ensures D q (claimLoop D inst job owner remaining) w (Post
      (fun made w' => ∀ running, made = some running →
        Claimed q job owner running w'.log)
      (fun _ _ => True)) := by
  induction remaining generalizing w with
  | zero => exact Ensures.throw trivial
  | succ remaining ih =>
      have hagain : ∀ {w₁} {x : Exn}, Inv D w₁ → Claiming q job owner w₁.log →
          Ensures D q (if remaining = 0 then Async.throw x
            else do
              sleep
              claimLoop D inst job owner remaining) w₁ (Post
            (fun made w' => ∀ running, made = some running →
              Claimed q job owner running w'.log)
            (fun _ _ => True)) := by
        intro w₁ x hinv₁ h₁
        split
        · exact Ensures.throw trivial
        · refine Ensures.bind_inv hinv₁ sleep_spec ?_ (fun _ _ _ _ => trivial)
          intro _ w₂ hsteps hinv₂
          exact ih hinv₂ (h₁.steps (L := [.quiet]) hsteps (by simp))
      refine Ensures.attempt_inv hinv (claimOnce_spec hinv h) ?_
      rintro (x | made) w₁ h₁ hinv₁
      · cases x
        case cancelled => exact Ensures.throw trivial
        all_goals exact hagain hinv₁ h₁
      · exact Ensures.pure h₁

/-- `_drive_execution_claim`. -/
theorem driveExecutionClaim_spec (hinv : Inv D w) (hidle : Idle q w.log) :
    Ensures D q (driveExecutionClaim D inst job) w (Post
      (fun made w' => ∀ running owner, made = some (running, owner) →
        Claimed q job owner running w'.log)
      (fun _ _ => True)) := by
  refine Ensures.bind_inv hinv (P := Post
      (fun token w' => Claiming q job token.1 w'.log) (fun _ _ => False))
    (Ensures.act (L := [.token]) (fun r => by simp [actKind])
      (fun _ _ _ => trivial) ?_) ?_ (fun _ _ hfalse _ => hfalse.elim)
  · intro w₁ token landed w' _ _ hanswer _ _ hsteps hdid
    obtain rfl : landed = false := hanswer
    have hnot : ∀ {k}, k ≠ .token → Absent q k w'.log := by
      intro k hk
      exact hidle.absent.steps hsteps (by simpa using hk)
    refine ⟨⟨token, rfl, hdid⟩, ⟨hnot (by simp), hnot (by simp)⟩, hnot (by simp),
      hnot (by simp), hnot (by simp), ?_⟩
    refine hsteps.puts ?_ ?_
    · intro put r hK
      rcases actKind_putJob put r with heq | heq <;>
        simp only [Only, heq, JobPut.tried, JobPut.acked, List.mem_singleton] at hK <;>
        split at hK <;> cases hK
    · intro x hx put r landed hev
      exact absurd hev (hidle x hx _ _ _)
  · intro token w₁ hclaiming hinv₁
    refine Ensures.bind (claimLoop_spec _ hinv₁ hclaiming) ?_ (fun _ _ h => h)
    rintro (_ | running) w₂ h
    · exact Ensures.pure (fun _ _ heq => by cases heq)
    · refine Ensures.pure ?_
      intro running' owner heq
      cases heq
      exact h running rfl

/-! ## The analysis -/

/-- The last stream stays the last while no other is begun. -/
theorem LastStream.steps {e : Eff} {r : Resp e} {w' : World}
    (h : LastStream q e r w.log) {L : List ActKind} (hsteps : Acts q L w w')
    (hL : .stream ∉ L) : LastStream q e r w'.log := by
  obtain ⟨newer, x, older, hlog, hev, habsent⟩ := h
  obtain ⟨-, new, hlog', hnew⟩ := hsteps
  refine ⟨new ++ newer, x, older, ?_, hev, ?_⟩
  · rw [hlog', hlog, List.append_assoc]
  · intro y hy e' r' landed hy'
    rcases List.mem_append.1 hy with hy | hy
    · have hk := hnew y hy e' r' landed hy'
      rintro heq
      rw [Only, heq] at hk
      exact hL hk
    · exact habsent y hy e' r' landed hy'

/-- A stream that has just answered is the last. -/
theorem LastStream.record {e : Eff} {r : Resp e} :
    LastStream q e r (w.record (.did q e r false)).log :=
  ⟨[], _, w.log, rfl, rfl, by simp [Absent]⟩

/-- The last stream of the process ended well and its report is `markdown`. -/
def Streamed (q : Nat) (job owner markdown : PyStr) (log : List Entry) : Prop :=
  ∃ reply : StreamReply, LastStream q (.streamEnd job owner) reply log ∧
    reply.ending = .ok () ∧ finalReport reply.events = some markdown

/-- A streamed report stays streamed while no other stream is begun. -/
theorem Streamed.steps {markdown : PyStr} {w' : World}
    (h : Streamed q job owner markdown w.log) {L : List ActKind}
    (hsteps : Acts q L w w') (hL : .stream ∉ L) :
    Streamed q job owner markdown w'.log := by
  obtain ⟨reply, hlast, hrest⟩ := h
  exact ⟨reply, hlast.steps hsteps hL, hrest⟩

/-- What a worker knows while it streams the analysis of a record it claimed. -/
structure Streaming (q : Nat) (job owner : PyStr) (r : JobRecord)
    (log : List Entry) : Prop where
  ident : r.jobId = job
  leased : r.leaseOwner = some owner
  unreported : Absent q .report log
  drew : Drew q owner log
  version : ∃ tag, JobVersion job tag log ∧ JobWrite.HeldBy owner tag.content

/-- A worker that streams has put no report yet. -/
theorem Streaming.steps {r : JobRecord} {w' : World}
    (h : Streaming q job owner r w.log) {L : List ActKind} (hsteps : Acts q L w w')
    (hL : .report ∉ L) : Streaming q job owner r w'.log := by
  obtain ⟨tag, hver, hheld⟩ := h.version
  exact ⟨h.ident, h.leased, h.unreported.steps hsteps hL,
    h.drew.mono hsteps.suffix, tag, hver.mono hsteps.suffix, hheld⟩

/-- A report that one call returns was streamed by it. -/
theorem consumeReportOnce_spec {r : JobRecord} {prompt : PyStr}
    {symbols : List PyStr} {innerCall : Nat} (h : Streaming q job owner r w.log) :
    Ensures D q (consumeReportOnce r prompt symbols innerCall) w (Post
      (fun markdown w' => Acts q [.stream, .quiet] w w' ∧
        Streamed q job owner markdown w'.log)
      (fun _ w' => Acts q [.stream, .quiet] w w')) := by
  unfold consumeReportOnce
  rw [h.ident, h.leased]
  refine Ensures.bind (P := Post (fun _ w' => Acts q [.stream, .quiet] w w' ∧
        ∃ prompt session symbols,
          LastStream q (.streamWork job owner prompt session symbols) () w'.log)
      (fun _ _ => False))
    (Ensures.act (L := [.stream, .quiet]) (fun r => by simp [actKind]) ?_ ?_) ?_
    (fun _ _ hfalse => hfalse.elim)
  · intro w₁ hext _
    have hext : Acts q [] w w₁ := hext.mono fun _ _ hfalse => hfalse.elim
    have h₁ := h.steps hext (by simp)
    exact ⟨h₁.unreported, h₁.drew, h₁.version⟩
  · intro w₁ r landed w' _ _ hanswer hw _ hsteps _
    obtain rfl : landed = false := hanswer
    rw [hw] at hsteps ⊢
    exact ⟨hsteps, _, _, _, LastStream.record⟩
  · rintro _ w₁ ⟨hsteps, prompt, session, symbols, hwork⟩
    refine Ensures.bind (P := Post (fun reply w' => Acts q [.stream, .quiet] w w' ∧
          LastStream q (.streamEnd job owner) reply w'.log) (fun _ _ => False))
      (Ensures.act (L := [.stream, .quiet]) (fun r => by simp [actKind])
        ?_ ?_) ?_ (fun _ _ hfalse => hfalse.elim)
    · intro w₂ hext _
      have hext : Acts q [] w₁ w₂ := hext.mono fun _ _ hfalse => hfalse.elim
      exact ⟨prompt, session, symbols, hwork.steps hext (by simp)⟩
    · intro w₂ reply landed w' _ _ hanswer hw _ hsteps₂ _
      obtain rfl : landed = false := hanswer
      rw [hw] at hsteps₂ ⊢
      exact ⟨hsteps.trans hsteps₂, LastStream.record⟩
    · rintro reply w₂ ⟨hsteps₂, hlast⟩
      cases hending : reply.ending with
      | error x => exact Ensures.throw hsteps₂
      | ok u =>
          rw [Async.ofExcept_ok_bind]
          cases hfinal : finalReport reply.events with
          | none => exact Ensures.throw hsteps₂
          | some markdown => exact Ensures.pure ⟨hsteps₂, reply, hlast, hending, hfinal⟩

/-- A report that a retried call returns was streamed by the last. -/
theorem consumeLoop_spec {r : JobRecord} {prompt : PyStr} {symbols : List PyStr}
    (remaining : Nat) (h : Streaming q job owner r w.log) :
    Ensures D q (consumeLoop r prompt symbols remaining) w (Post
      (fun markdown w' => Acts q [.stream, .quiet] w w' ∧
        Streamed q job owner markdown w'.log)
      (fun _ w' => Acts q [.stream, .quiet] w w')) := by
  induction remaining generalizing w with
  | zero => exact Ensures.throw (Steps.refl w)
  | succ remaining ih =>
      refine Ensures.attempt (waitFor_spec (consumeReportOnce_spec h)
        (fun _ _ _ _ h hsteps => h.trans (hsteps.widen (by simp)))) ?_
      rintro (x | markdown) w₁ h₁
      · have hsteps : Acts q [.stream, .quiet] w w₁ := h₁
        cases x
        case emptyAnalysisResponse =>
          dsimp only
          split
          · exact Ensures.throw hsteps
          · refine (ih (h.steps hsteps (by simp))).mono ?_
            rintro (x | markdown) w₂ h₂
            · exact hsteps.trans h₂
            · exact ⟨hsteps.trans h₂.1, h₂.2⟩
        all_goals exact Ensures.throw hsteps
      · exact Ensures.pure h₁

/-- **The consumed report was streamed** for the record that was claimed. -/
theorem consumeReport_spec {r : JobRecord} (h : Streaming q job owner r w.log) :
    Ensures D q (consumeReport D r) w (Post
      (fun markdown w' => Acts q [.stream, .quiet] w w' ∧
        Streamed q job owner markdown w'.log)
      (fun _ w' => Acts q [.stream, .quiet] w w')) := by
  unfold consumeReport
  split
  · split
    · split
      · exact Ensures.throw (Steps.refl w)
      · dsimp only
        refine Ensures.bind (P := fun _ w' => w' = w) (Ensures.ofExcept rfl) ?_ ?_
        · rintro ⟨prompt, effective⟩ w₁ rfl
          exact consumeLoop_spec _ h
        · rintro x w₁ rfl
          exact Steps.refl _
    · exact Ensures.throw (Steps.refl w)
  · exact Ensures.throw (Steps.refl w)

/-! ## The outcome -/

/-- What a worker knows when it publishes or fails. -/
structure Working (q : Nat) (owner : PyStr) (log : List Entry) : Prop where
  drew : Drew q owner log
  outsider : Outsider q log

/-- What a worker knows lasts while it takes no lease and draws no token. -/
theorem Working.steps {w' : World} (h : Working q owner w.log) {L : List ActKind}
    (hsteps : Acts q L w w') (hlease : .ackLease ∉ L) (hmoment : .moment ∉ L) :
    Working q owner w'.log :=
  ⟨h.drew.mono hsteps.suffix, h.outsider.steps hsteps hlease hmoment⟩

/-- A failure is written on a record that the worker holds. -/
theorem failExecution_spec {cell : Cell} {stored : StoredJob cell.job}
    {code : ErrorCode} {retryable : Bool} (h : Working q cell.owner w.log)
    (hheld : Held cell.job cell.owner stored w.log) :
    Ensures D q (failExecution D inst cell stored code retryable) w
      (fun _ _ => True) := by
  refine Ensures.bind leaseLost_spec ?_ (fun _ _ _ => trivial)
  intro lost w₁ hsteps
  have hsteps : Acts q [.quiet] w w₁ := hsteps
  cases lost with
  | true => exact Ensures.pure trivial
  | false =>
      rw [if_neg (by simp)]
      split
      · exact Ensures.pure trivial
      · refine Ensures.bind clock_spec ?_ (fun _ _ _ => trivial)
        rintro now w₂ ⟨hsteps₂, -⟩
        have hsteps₂ := hsteps.trans hsteps₂
        have hguard : (JobWrite.executionFailed cell.owner code (retryable &&
            (code = .analysisEmptyResponse ||
              stored.record.attempt < maxExecutionAttempts)) now).Guard stored.record := by
          refine ⟨hheld.2, ?_⟩
          intro hretry
          rw [Bool.and_eq_true, Bool.or_eq_true, decide_eq_true_eq, decide_eq_true_eq] at hretry
          exact hretry.2
        refine Ensures.attempt (replace_spec
          (hheld.1.mono hsteps₂.suffix) hguard
          (h.outsider.steps hsteps₂ (by simp) (by simp))) ?_
        rintro (x | new) w₃ -
        · cases x
          case jobConflict => exact Ensures.pure trivial
          all_goals exact Ensures.throw trivial
        · exact Ensures.pure trivial

/-- So is one after the heartbeat was stopped. -/
theorem stopAndFail_spec {cell : Cell} {code : ErrorCode} {retryable : Bool}
    (h : Working q cell.owner w.log) :
    Ensures D q (stopAndFail D inst cell code retryable) w (fun _ _ => True) := by
  refine Ensures.bind stopHeartbeat_spec ?_ (fun _ _ _ => trivial)
  intro _ w₁ hsteps
  have hsteps : Acts q [.quiet] w w₁ := hsteps
  refine Ensures.bind getHolder_spec ?_ (fun _ _ _ => trivial)
  rintro stored w₂ ⟨hsteps₂, hheld⟩
  exact failExecution_spec (h.steps (hsteps.trans hsteps₂) (by simp) (by simp)) hheld

/-- The report of the last stream goes out under the name of the claim, and
the record succeeds only after the report has been written. -/
theorem publishReport_spec {cell : Cell} {markdown : PyStr}
    (h : Working q cell.owner w.log) (hreport : Absent q .report w.log)
    (hstreamed : Streamed q cell.job cell.owner markdown w.log) :
    Ensures D q (publishReport D inst cell markdown) w (fun _ _ => True) := by
  refine Ensures.bind stopHeartbeat_spec ?_ (fun _ _ _ => trivial)
  intro _ w₁ hsteps
  have hsteps : Acts q [.quiet] w w₁ := hsteps
  refine Ensures.bind leaseLost_spec ?_ (fun _ _ _ => trivial)
  intro lost w₂ hlost
  have hsteps₂ : Acts q [.quiet] w w₂ := hsteps.trans hlost
  cases lost with
  | true => exact Ensures.pure trivial
  | false =>
      rw [if_neg (by simp)]
      refine Ensures.bind getHolder_spec ?_ (fun _ _ _ => trivial)
      rintro held w₃ ⟨hsteps₃, hheld⟩
      have hsteps₃ := hsteps₂.trans hsteps₃
      refine Ensures.bind (refreshLease_spec hheld
        (h.outsider.steps hsteps₃ (by simp) (by simp))) ?_ (fun _ _ _ => trivial)
      rintro (_ | fenced) w₄ ⟨hsteps₄, hrefreshed⟩
      · exact Ensures.pure trivial
      · have hsteps₄ : Acts q bookkeeping w w₄ :=
          (hsteps₃.widen (by simp [bookkeeping])).trans hsteps₄
        refine Ensures.bind (setHolder_spec (hrefreshed fenced rfl)) ?_
          (fun _ _ _ => trivial)
        intro _ w₅ hsteps₅
        have hsteps₅ : Acts q [.quiet] w₄ w₅ := hsteps₅
        have hsteps₅ : Acts q bookkeeping w w₅ :=
          hsteps₄.trans (hsteps₅.widen (by simp [bookkeeping]))
        have hworking := h.steps hsteps₅ (by simp [bookkeeping])
          (by simp [bookkeeping])
        refine Ensures.attempt (putReport_spec ?_) ?_
        · intro w₆ hext _
          have hext : Acts q [] w₅ w₆ := hext.mono fun _ _ hfalse => hfalse.elim
          exact ⟨(hreport.steps hsteps₅ (by simp [bookkeeping])).steps hext (by simp),
            (hworking.steps hext (by simp) (by simp)).drew,
            (hstreamed.steps hsteps₅ (by simp [bookkeeping])).steps hext (by simp)⟩
        · rintro (x | _) w₆ h₆
          · have hsteps₆ : Acts q [.report] w₅ w₆ := h₆
            have hworking₆ := hworking.steps hsteps₆ (by simp) (by simp)
            have hfail : Ensures D q (do
                let stored ← getHolder cell
                failExecution D inst cell stored .analysisFailed true) w₆
                (fun _ _ => True) := by
              refine Ensures.bind getHolder_spec ?_ (fun _ _ _ => trivial)
              rintro stored w₇ ⟨hsteps₇, hheld₇⟩
              exact failExecution_spec (hworking₆.steps hsteps₇ (by simp)
                (by simp)) hheld₇
            cases x
            case cancelled => exact Ensures.throw trivial
            all_goals exact hfail
          · obtain ⟨hsteps₆, hdid⟩ := h₆
            have hworking₆ := hworking.steps hsteps₆ (by simp) (by simp)
            refine Ensures.bind getHolder_spec ?_ (fun _ _ _ => trivial)
            rintro stored w₇ ⟨hsteps₇, hheld₇⟩
            refine Ensures.bind clock_spec ?_ (fun _ _ _ => trivial)
            rintro now w₈ ⟨hclock, -⟩
            have hsteps₈ := hsteps₇.trans hclock
            have hworking₈ := hworking₆.steps hsteps₈ (by simp) (by simp)
            refine Ensures.attempt (replace_spec
              (hheld₇.1.mono hclock.suffix) hheld₇.2
              ⟨hworking₈.outsider, hworking₈.drew, markdown,
                hdid.mono hsteps₈.suffix⟩) ?_
            rintro (x | new) w₉ -
            · cases x
              case jobConflict => exact Ensures.pure trivial
              all_goals exact Ensures.throw trivial
            · exact Ensures.pure trivial

/-- Under its lease a worker publishes what it has streamed or fails. -/
theorem executeUnderLease_spec {cell : Cell} {r : JobRecord}
    (h : Working q cell.owner w.log) (hreport : Absent q .report w.log)
    (hstreaming : Streaming q cell.job cell.owner r w.log) :
    Ensures D q (executeUnderLease D inst cell r) w (fun _ _ => True) := by
  refine Ensures.attempt (consumeReport_spec hstreaming) ?_
  rintro (x | markdown) w₁ h₁
  · have hsteps : Acts q [.stream, .quiet] w w₁ := h₁
    dsimp only
    split
    · exact Ensures.throw trivial
    · exact stopAndFail_spec (h.steps hsteps (by simp) (by simp))
  · obtain ⟨hsteps, hstreamed⟩ := h₁
    exact publishReport_spec (h.steps hsteps (by simp) (by simp))
      (hreport.steps hsteps (by simp)) hstreamed

/-- A claimed record is executed under the lease that claimed it. -/
theorem runClaimed_spec {running : StoredJob job}
    (h : Claimed q job owner running w.log) :
    Ensures D q (runClaimed D inst running owner) w (fun _ _ => True) := by
  refine Ensures.bind redriveAccounting_spec ?_ (fun _ _ _ => trivial)
  intro _ w₁ hsteps
  have hsteps : Acts q [.quiet] w w₁ := hsteps
  have hworking : Working q owner w.log := ⟨h.drew, h.outsider⟩
  refine Ensures.bind (P := Post (fun _ w' => Acts q [.cell, .quiet] w w')
      (fun _ _ => False))
    (Ensures.act (L := [.cell]) (fun r => by simp [actKind]) ?_ ?_) ?_
    (fun _ _ hfalse => hfalse.elim)
  · intro w₂ hext _
    have hext : Acts q [] w₁ w₂ := hext.mono fun _ _ hfalse => hfalse.elim
    have hsteps₂ : Acts q [.quiet] w w₂ := hsteps.trans (hext.widen (by simp))
    exact ⟨h.held.mono hsteps₂.suffix, h.drew.mono hsteps₂.suffix,
      h.overtaken.steps hsteps₂ (by simp)⟩
  · rintro w₂ r landed w' - - - - - hsteps₂ -
    exact (hsteps.widen (by simp)).trans (hsteps₂.widen (by simp))
  · intro id w₂ hsteps₂
    have hsteps₂ : Acts q [.cell, .quiet] w w₂ := hsteps₂
    refine Ensures.bind fork_spec ?_ (fun _ _ _ => trivial)
    intro _ w₃ hfork
    have hfork : Acts q [.quiet] w₂ w₃ := hfork
    have hsteps₃ : Acts q [.cell, .quiet] w w₃ :=
      hsteps₂.trans (hfork.widen (by simp))
    have hworking₃ := hworking.steps hsteps₃ (by simp) (by simp)
    have hheld := h.held.mono hsteps₃.suffix
    have hunreported := h.unreported.steps hsteps₃ (by simp)
    have hstreaming : Streaming q job owner running.record w₃.log := by
      refine ⟨running.ident, hheld.2.2, hunreported, hworking₃.drew, running.tag,
        hheld.1, ?_⟩
      rw [running.agrees]
      exact hheld.2
    have hexecute : Ensures D q (executeUnderLease D inst ⟨id, job, owner⟩
        running.record) w₃ (fun _ _ => True) :=
      executeUnderLease_spec hworking₃ hunreported hstreaming
    refine Ensures.attempt hexecute ?_
    intro result w₄ _
    refine Ensures.bind stopHeartbeat_spec ?_ (fun _ _ _ => trivial)
    intro _ w₅ _
    exact Ensures.ofExcept trivial

/-- `_run_job`. -/
theorem runJob_call (hinv : Inv D w) (hidle : Idle q w.log) :
    Ensures D q (callBody D (.runJob inst job)) w (fun _ _ => True) := by
  have hrun : Ensures D q (runJob D inst job) w (fun _ _ => True) := by
    refine Ensures.attempt (P := fun _ _ => True) ?_ ?_
    · refine Ensures.bind (driveExecutionClaim_spec hinv hidle) ?_
        (fun _ _ _ => trivial)
      rintro (_ | ⟨running, owner⟩) w₁ h
      · exact Ensures.pure trivial
      · exact runClaimed_spec (h running owner rfl)
    · rintro (x | _) w₁ -
      · cases x
        case cancelled => exact Ensures.throw trivial
        all_goals exact Ensures.pure trivial
      · exact Ensures.pure trivial
  refine Ensures.attempt hrun ?_
  intro result w₁ _
  exact Ensures.quiet (fun _ => rfl) (fun _ => trivial) (fun _ _ _ _ _ => trivial)

/-! ## Every call honours the contract -/

/-- **Every call keeps its contract.** -/
theorem callBody_spec (call : Call) (hinv : Inv D w) (hidle : Idle q w.log) :
    Ensures D q (callBody D call) w (fun _ _ => True) := by
  cases call with
  | createJob inst header request => exact createJob_call hinv hidle
  | getJob inst job token =>
      refine Ensures.attempt getJob_spec ?_
      intro result w₁ _
      exact Ensures.pure trivial
  | resumeJob inst job token =>
      refine Ensures.attempt (resumeJob_spec hidle.outsider) ?_
      intro result w₁ _
      exact Ensures.pure trivial
  | runJob inst job => exact runJob_call hinv hidle
  | runAccounting inst job delay =>
      refine Ensures.attempt (accountingLoop_spec _) ?_
      intro result w₁ _
      exact Ensures.quiet (fun _ => rfl) (fun _ => trivial)
        (fun _ _ _ _ _ => trivial)
  | heartbeat inst cell => exact heartbeat_call hidle

/-- **The contract is sound**, so it holds of every run. -/
theorem contract_sound : (contract D).Sound := by
  intro call q w hinv hidle _
  exact wp_bind.2 (callBody_spec call hinv hidle)

/-- **Every reachable history is lawful.** -/
theorem Reachable.lawful {s : Coroutine.Config (service D)} (h : Reachable D s) :
    Lawful D s.world.log := by
  obtain ⟨time, hreach⟩ := h
  have hempty : Inv D (World.empty time) := ⟨trivial, by simp [World.empty]⟩
  have hholds := Contract.reach contract_sound hempty
    (fun pid => by simp [contract, Idle, World.empty]) hreach
  exact hholds.inv.1

end X402
