import StockAnalyst.SellerCore

/-!
# One owner for every job

The runs of a `SellerCore`, and what holds of every state they reach: a job is
in flight exactly while one task delivers it, a thread that submits belongs to
that task, and what `_inflight_verified`, the hand-offs and the contextless
marker say is said of it.
-/

namespace Seller

open NotifySecurity (JobContext)

namespace Stage

/-- The context a delivery has begun with. -/
def begun : Stage → Option (Option JobContext)
  | .readingSpec context => some context
  | .working context => some context
  | .submitting context _ _ => some context
  | _ => none

/-- The thread a delivery waits for. -/
def thread : Stage → Option Nat
  | .submitting _ thread _ => some thread
  | _ => none

/-- What `_run_work` has been called with, if it has been called. -/
def workedWith : Stage → Option (Option JobContext)
  | .working context => some context
  | .submitting context _ _ => some context
  | _ => none

/-- What is awaited here may raise. -/
def raises : Stage → Bool
  | .verifying => true
  | .readingSpec _ => true
  | .working _ => true
  | _ => false

/-- A worker has a thread only while it submits. -/
theorem begun_of_thread {stage : Stage} {t : Nat} (h : stage.thread = some t) :
    ∃ context cancelled, stage = .submitting context t cancelled := by
  cases stage with
  | submitting context thread cancelled =>
      obtain rfl : thread = t := Option.some.inj h
      exact ⟨context, cancelled, rfl⟩
  | _ => cases h

end Stage

/-- The order in which the tracked jobs are iterated. -/
def Lists (order : List JobId) (s : SellerCore) : Prop :=
  order.Nodup ∧ order.toFinset = s.tracked

/-- One segment of a call, a task, a thread or a callback.  A call may carry
any job and any context, and a task is cancelled only where it awaits: nothing
but `wait_for` cancels it, and that not before it has begun. -/
inductive Step : SellerCore → SellerCore → Prop
  /-- `notify_funded` without a job. -/
  | scan {s : SellerCore} : Step s s.spawnSweep
  | commit {s : SellerCore} {order : List JobId} (horder : Lists order s) (job : JobId)
      (context : JobContext) (spec : Option JobSpec) : Step s (s.commit order job context spec)
  | reported {s : SellerCore} {id : Nat} {call : NotifyCall} (hcall : s.calls id = some call) :
      Step s (s.reported id call)
  /-- The client is gone, and its call is cancelled. -/
  | callCancelled {s : SellerCore} (id : Nat) :
      Step s (s.endCall id)
  | start {s : SellerCore} {id : Nat} {w : Worker} (hw : s.workers id = some w)
      (hstage : w.stage = .created) : Step s (s.start id w)
  | snapshotRead {s : SellerCore} {id : Nat} {w : Worker} (hw : s.workers id = some w)
      (hstage : w.stage = .verifying) (verdict : Verdict) : Step s (s.snapshotRead id w verdict)
  | fundedReported {s : SellerCore} {id : Nat} {w : Worker} {spec : Option JobSpec}
      {order : List JobId} (hw : s.workers id = some w) (hstage : w.stage = .reporting spec)
      (horder : Lists order (s.setSpec w.job spec)) :
      Step s (s.fundedReported order id w spec)
  | contextWaitOver {s : SellerCore} {id : Nat} {w : Worker} {spec : Option JobSpec}
      (hw : s.workers id = some w) (hstage : w.stage = .awaitingContext spec)
      (hover : s.contextWaitOver w.job = true) : Step s (s.contextDecided id w spec)
  | specRead {s : SellerCore} {id : Nat} {w : Worker} {context : Option JobContext}
      (hw : s.workers id = some w) (hstage : w.stage = .readingSpec context)
      (spec : Option JobSpec) : Step s (s.runWork id w context spec)
  | workDone {s : SellerCore} {id : Nat} {w : Worker} {context : Option JobContext}
      (hw : s.workers id = some w) (hstage : w.stage = .working context)
      (content : Python.PyStr) : Step s (s.submit id w context content)
  | threadEnds {s : SellerCore} {t : Nat} {thread : SubmitThread}
      (hthread : s.threads t = some thread) (hrunning : thread.outcome = none)
      (outcome : SubmitOutcome) :
      Step s { s with
        threads := Function.update s.threads t (some { thread with outcome := some outcome }) }
  | submitReturns {s : SellerCore} {id t : Nat} {w : Worker} {context : Option JobContext}
      {cancelled : Bool} {thread : SubmitThread} {outcome : SubmitOutcome}
      (hw : s.workers id = some w) (hstage : w.stage = .submitting context t cancelled)
      (hthread : s.threads t = some thread) (houtcome : thread.outcome = some outcome) :
      Step s (s.submitReturns id w cancelled outcome)
  /-- An exception that `_run_job` logs. -/
  | raises {s : SellerCore} {id : Nat} {w : Worker} (hw : s.workers id = some w)
      (hstage : w.stage.raises = true) : Step s (s.finish id w false)
  /-- The delivery's time is over, or its task is cancelled once more. -/
  | cancel {s : SellerCore} {id : Nat} {w : Worker} (hw : s.workers id = some w)
      (hstage : w.stage ≠ .created) : Step s (s.cancel id w)
  /-- The scan is over; one that fails has found nothing. -/
  | swept {s : SellerCore} {id : Nat} (hid : id ∈ s.sweeps) (jobs : List JobId) :
      Step s (s.swept id jobs)
  /-- The done callback of a task. -/
  | discard {s : SellerCore} {id : Nat} (hworker : s.workers id = none) (hsweep : id ∉ s.sweeps) :
      Step s { s with tasks := s.tasks.erase id }
  | later {s : SellerCore} (d : Nat) : Step s { s with now := s.now + d }

/-- A run whose states all satisfy `P`. -/
inductive Reaches (P : SellerCore → Prop) : SellerCore → Prop
  | init (h : P .init) : Reaches P .init
  | step {s s' : SellerCore} (hrun : Reaches P s) (hstep : Step s s') (h : P s') : Reaches P s'

/-- The states of the runs. -/
def Reachable (s : SellerCore) : Prop := Relation.ReflTransGen Step .init s

/-- A run under a condition is a run. -/
theorem Reaches.reachable {P : SellerCore → Prop} {s : SellerCore} (h : Reaches P s) :
    Reachable s := by
  induction h with
  | init => exact .refl
  | step _ hstep _ ih => exact ih.tail hstep

/-! ## The invariant -/

/-- What holds between two segments. -/
structure Sound (s : SellerCore) : Prop where
  late : s.lateSubmitSuccesses = ∅
  /-- A job has one worker at most, -/
  unique : ∀ {i k : Nat} {v w : Worker}, s.workers i = some v → s.workers k = some w →
    v.job = w.job → i = k
  /-- and is in flight while it has one. -/
  owned : ∀ job, job ∈ s.inflight ↔ ∃ i w, s.workers i = some w ∧ w.job = job
  mode : ∀ {i : Nat} {w : Worker}, s.workers i = some w →
    s.inflightVerified.lookup w.job = some w.verified
  pending : ∀ job ∈ s.pendingVerifiedHandoffs, s.inflightVerified.lookup job = some false
  moded : ∀ job, job ∉ s.inflight → s.inflightVerified.lookup job = none
  contextless : ∀ job ∈ s.contextlessStarted,
    ∃ i w, s.workers i = some w ∧ w.job = job ∧ w.stage.begun = some none
  /-- The context of a delivery stays. -/
  begun : ∀ {i : Nat} {w : Worker} {c : Option JobContext}, s.workers i = some w →
    w.stage.begun = some c →
      s.jobContexts.lookup w.job = c ∧ (c = none → w.job ∈ s.contextlessStarted)
  /-- A thread that runs, or has landed for a job that is not handled, is the
  one its job's worker waits for. -/
  thread : ∀ {t : Nat} {thread : SubmitThread}, s.threads t = some thread →
    thread.outcome = none ∨ thread.outcome = some .landed ∧ thread.job ∉ s.handled →
      ∃ i w, s.workers i = some w ∧ w.job = thread.job ∧ w.stage.thread = some t
  /-- Of all submits of a job one lands. -/
  once : ∀ {t u : Nat} {a b : SubmitThread}, s.threads t = some a → s.threads u = some b →
    a.job = b.job → a.outcome = some .landed → b.outcome = some .landed → t = u
  waits : ∀ {i t : Nat} {w : Worker}, s.workers i = some w → w.stage.thread = some t →
    ∃ thread, s.threads t = some thread ∧ thread.job = w.job
  handled : ∀ job ∈ s.handled, job ∉ s.inflight ∧ s.jobContexts.lookup job = none
  fresh : ∀ n, s.next ≤ n → s.workers n = none ∧ s.threads n = none ∧ n ∉ s.sweeps

theorem Sound.init : Sound .init where
  late := rfl
  unique := fun h => nomatch h
  owned := by
    intro job
    constructor
    · intro h
      exact absurd h (Finset.notMem_empty job)
    · intro h
      obtain ⟨_, _, h, _⟩ := h
      cases h
  mode := fun h => nomatch h
  pending := fun job h => absurd h (Finset.notMem_empty job)
  moded := fun _ _ => rfl
  contextless := fun job h => absurd h (Finset.notMem_empty job)
  begun := fun h => nomatch h
  thread := fun h => nomatch h
  once := fun h => nomatch h
  waits := fun h => nomatch h
  handled := fun job h => absurd h (Finset.notMem_empty job)
  fresh := fun n _ => ⟨rfl, rfl, Finset.notMem_empty n⟩

/-- The job of a living worker is in flight. -/
theorem Sound.mem_inflight {s : SellerCore} (h : Sound s) {i : Nat} {w : Worker}
    (hw : s.workers i = some w) : w.job ∈ s.inflight :=
  (h.owned w.job).2 ⟨i, w, hw, rfl⟩

/-- The job of a living worker is not handled yet. -/
theorem Sound.not_handled {s : SellerCore} (h : Sound s) {i : Nat} {w : Worker}
    (hw : s.workers i = some w) : w.job ∉ s.handled := by
  intro hhandled
  exact (h.handled w.job hhandled).1 (h.mem_inflight hw)

/-- A living worker has a number that was given out. -/
theorem Sound.lt_next {s : SellerCore} (h : Sound s) {i : Nat} {w : Worker}
    (hw : s.workers i = some w) : i < s.next := by
  by_contra hle
  rw [(h.fresh i (by omega)).1] at hw
  cases hw

/-! ## Stages -/

/-- Setting a stage changes that worker alone. -/
theorem setStage_workers {s : SellerCore} {id k : Nat} {w v : Worker} {stage : Stage} :
    (s.setStage id w stage).workers k = some v ↔
      k = id ∧ v = { w with stage := stage } ∨ k ≠ id ∧ s.workers k = some v :=
  update_eq_some

/-- What a task may do to itself while its job stays in flight. -/
theorem Sound.moves {s : SellerCore} (h : Sound s) {id : Nat} {w : Worker}
    (hw : s.workers id = some w) (stage : Stage) (contextless : Finset JobId)
    (hthread : ∀ t, w.stage.thread = some t → stage.thread = some t)
    (hwaits : ∀ t, stage.thread = some t →
      ∃ thread, s.threads t = some thread ∧ thread.job = w.job)
    (hcontextless : ∀ job ∈ contextless,
      job ∈ s.contextlessStarted ∧ (job = w.job → stage.begun = some none) ∨
        job = w.job ∧ stage.begun = some none)
    (hsub : s.contextlessStarted ⊆ contextless)
    (hbegun : ∀ c, stage.begun = some c →
      s.jobContexts.lookup w.job = c ∧ (c = none → w.job ∈ contextless)) :
    Sound ({ s with contextlessStarted := contextless }.setStage id w stage) where
  late := h.late
  unique := by
    intro i k v u hv hu hjob
    obtain ⟨rfl, rfl⟩ | ⟨hi, hvold⟩ := setStage_workers.1 hv
    · obtain ⟨rfl, rfl⟩ | ⟨hk, huold⟩ := setStage_workers.1 hu
      · rfl
      · exact h.unique hw huold hjob
    · obtain ⟨rfl, rfl⟩ | ⟨hk, huold⟩ := setStage_workers.1 hu
      · exact h.unique hvold hw hjob
      · exact h.unique hvold huold hjob
  owned := by
    intro job
    constructor
    · intro hjob
      obtain ⟨i, v, hv, rfl⟩ := (h.owned job).1 hjob
      by_cases hi : i = id
      · subst hi
        obtain rfl : w = v := Option.some.inj (hw.symm.trans hv)
        exact ⟨i, _, setStage_workers.2 (Or.inl ⟨rfl, rfl⟩), rfl⟩
      · exact ⟨i, v, setStage_workers.2 (Or.inr ⟨hi, hv⟩), rfl⟩
    · intro hjob
      obtain ⟨i, v, hv, rfl⟩ := hjob
      obtain ⟨rfl, rfl⟩ | ⟨hi, hvold⟩ := setStage_workers.1 hv
      · have hmem : w.job ∈ s.inflight := h.mem_inflight hw
        exact hmem
      · exact h.mem_inflight hvold
  mode := by
    intro i v hv
    obtain ⟨rfl, rfl⟩ | ⟨hi, hvold⟩ := setStage_workers.1 hv
    · have hmode : s.inflightVerified.lookup w.job = some w.verified := h.mode hw
      exact hmode
    · exact h.mode hvold
  pending := h.pending
  moded := h.moded
  contextless := by
    intro job hjob
    by_cases hown : job = w.job
    · have hstage : stage.begun = some none := by
        obtain ⟨_, hstage⟩ | ⟨_, hstage⟩ := hcontextless job hjob
        · exact hstage hown
        · exact hstage
      exact ⟨id, _, setStage_workers.2 (Or.inl ⟨rfl, rfl⟩), hown.symm, hstage⟩
    · have hold : job ∈ s.contextlessStarted := by
        obtain ⟨hold, _⟩ | ⟨hself, _⟩ := hcontextless job hjob
        · exact hold
        · exact absurd hself hown
      obtain ⟨i, v, hv, hvjob, hstage⟩ := h.contextless job hold
      have hi : i ≠ id := by
        rintro rfl
        obtain rfl : w = v := Option.some.inj (hw.symm.trans hv)
        exact hown hvjob.symm
      exact ⟨i, v, setStage_workers.2 (Or.inr ⟨hi, hv⟩), hvjob, hstage⟩
  begun := by
    intro i v c hv hc
    obtain ⟨rfl, rfl⟩ | ⟨hi, hv⟩ := setStage_workers.1 hv
    · exact hbegun c hc
    · obtain ⟨hlookup, hnone⟩ := h.begun hv hc
      exact ⟨hlookup, fun hc => hsub (hnone hc)⟩
  thread := by
    intro t thread hthread' hout
    obtain ⟨i, v, hv, hjob, hstage⟩ := h.thread hthread' hout
    by_cases hi : i = id
    · subst hi
      obtain rfl : w = v := Option.some.inj (hw.symm.trans hv)
      exact ⟨i, _, setStage_workers.2 (Or.inl ⟨rfl, rfl⟩), hjob, hthread t hstage⟩
    · exact ⟨i, v, setStage_workers.2 (Or.inr ⟨hi, hv⟩), hjob, hstage⟩
  once := h.once
  waits := by
    intro i t v hv hstage
    obtain ⟨rfl, rfl⟩ | ⟨hi, hv⟩ := setStage_workers.1 hv
    · exact hwaits t hstage
    · exact h.waits hv hstage
  handled := h.handled
  fresh := by
    intro n hn
    obtain ⟨hworkers, hrest⟩ := h.fresh n hn
    refine ⟨?_, hrest⟩
    have hne : n ≠ id := by
      have hlt := h.lt_next hw
      have hle : s.next ≤ n := hn
      omega
    exact (Function.update_of_ne hne _ _).trans hworkers

/-- A task goes on to an await of the same kind. -/
theorem Sound.setStage {s : SellerCore} (h : Sound s) {id : Nat} {w : Worker}
    (hw : s.workers id = some w) (stage : Stage) (hthread : stage.thread = w.stage.thread)
    (hbegun : stage.begun = w.stage.begun) : Sound (s.setStage id w stage) := by
  apply h.moves hw stage s.contextlessStarted
  · intro t ht
    rw [hthread, ht]
  · intro t ht
    exact h.waits hw (hthread ▸ ht)
  · intro job hjob
    refine Or.inl ⟨hjob, ?_⟩
    rintro rfl
    obtain ⟨i, v, hv, hvjob, hstage⟩ := h.contextless _ hjob
    obtain rfl : i = id := h.unique hv hw hvjob
    obtain rfl : w = v := Option.some.inj (hw.symm.trans hv)
    rw [hbegun, hstage]
  · exact fun _ hjob => hjob
  · intro c hc
    exact h.begun hw (hbegun ▸ hc)

/-! ## Spawning -/

/-- A spawned scan touches no delivery. -/
theorem Sound.spawnSweep {s : SellerCore} (h : Sound s) : Sound s.spawnSweep := by
  unfold SellerCore.spawnSweep
  split
  · exact h
  · refine { h with fresh := ?_ }
    intro n hn
    have hle : s.next + 1 ≤ n := hn
    obtain ⟨hworkers, hthreads, hsweeps⟩ := h.fresh n (by omega)
    refine ⟨hworkers, hthreads, ?_⟩
    intro hmem
    obtain rfl | hmem := Finset.mem_insert.1 hmem
    · omega
    · exact hsweeps hmem

/-- A job that is not in flight has no worker. -/
theorem Sound.free {s : SellerCore} (h : Sound s) {job : JobId} (hjob : job ∉ s.inflight)
    {i : Nat} {w : Worker} (hw : s.workers i = some w) : w.job ≠ job := by
  rintro rfl
  exact hjob (h.mem_inflight hw)

/-- Spawning a delivery keeps the process sound. -/
theorem Sound.spawnJob {s : SellerCore} (h : Sound s) (job : JobId) (verified : Bool)
    (promised : Option JobContext) : Sound (s.spawnJob job verified promised) := by
  unfold SellerCore.spawnJob
  split
  · exact h
  · rename_i hdone
    split
    · rename_i hinflight
      split
      · rename_i hmode
        refine { h with pending := ?_ }
        intro k hk
        obtain rfl | hk := Finset.mem_insert.1 hk
        · exact hmode.2
        · exact h.pending k hk
      · exact h
    · rename_i hinflight
      have hnew : s.workers s.next = none := (h.fresh _ (Nat.le_refl _)).1
      exact
        { late := h.late
          unique := by
            intro i k v u hv hu hjob
            obtain ⟨rfl, rfl⟩ | ⟨hi, hvold⟩ := update_eq_some.1 hv
            · obtain ⟨rfl, rfl⟩ | ⟨hk, huold⟩ := update_eq_some.1 hu
              · rfl
              · exact absurd hjob.symm (h.free hinflight huold)
            · obtain ⟨rfl, rfl⟩ | ⟨hk, huold⟩ := update_eq_some.1 hu
              · exact absurd hjob (h.free hinflight hvold)
              · exact h.unique hvold huold hjob
          owned := by
            intro k
            constructor
            · intro hk
              obtain rfl | hk := Finset.mem_insert.1 hk
              · exact ⟨s.next, _, update_eq_some.2 (Or.inl ⟨rfl, rfl⟩), rfl⟩
              · obtain ⟨i, v, hv, rfl⟩ := (h.owned k).1 hk
                refine ⟨i, v, update_eq_some.2 (Or.inr ⟨?_, hv⟩), rfl⟩
                exact Nat.ne_of_lt (h.lt_next hv)
            · intro hk
              obtain ⟨i, v, hv, rfl⟩ := hk
              obtain ⟨rfl, rfl⟩ | ⟨hi, hvold⟩ := update_eq_some.1 hv
              · exact Finset.mem_insert_self _ _
              · exact Finset.mem_insert_of_mem (h.mem_inflight hvold)
          mode := by
            intro i v hv
            obtain ⟨rfl, rfl⟩ | ⟨hi, hvold⟩ := update_eq_some.1 hv
            · exact Finmap.lookup_insert _
            · exact (Finmap.lookup_insert_of_ne _ (h.free hinflight hvold)).trans (h.mode hvold)
          pending := by
            intro k hk
            have hlookup := h.pending k hk
            have hne : k ≠ job := by
              rintro rfl
              rw [h.moded k hinflight] at hlookup
              cases hlookup
            exact (Finmap.lookup_insert_of_ne _ hne).trans hlookup
          moded := by
            intro k hk
            obtain ⟨hne, hk⟩ := not_or.1 (fun hor => hk (Finset.mem_insert.2 hor))
            exact (Finmap.lookup_insert_of_ne _ hne).trans (h.moded k hk)
          contextless := by
            intro k hk
            obtain ⟨i, v, hv, hjob, hstage⟩ := h.contextless k hk
            exact ⟨i, v, update_eq_some.2 (Or.inr ⟨Nat.ne_of_lt (h.lt_next hv), hv⟩), hjob, hstage⟩
          begun := by
            intro i v c hv hc
            obtain ⟨rfl, rfl⟩ | ⟨hi, hvold⟩ := update_eq_some.1 hv
            · cases hc
            · exact h.begun hvold hc
          thread := by
            intro t thread hthread hout
            obtain ⟨i, v, hv, hjob, hstage⟩ := h.thread hthread hout
            exact ⟨i, v, update_eq_some.2 (Or.inr ⟨Nat.ne_of_lt (h.lt_next hv), hv⟩), hjob, hstage⟩
          once := h.once
          waits := by
            intro i t v hv hstage
            obtain ⟨rfl, rfl⟩ | ⟨hi, hvold⟩ := update_eq_some.1 hv
            · cases hstage
            · exact h.waits hvold hstage
          handled := by
            intro k hk
            obtain ⟨hk', hcontext⟩ := h.handled k hk
            refine ⟨?_, hcontext⟩
            intro hmem
            obtain rfl | hmem := Finset.mem_insert.1 hmem
            · exact hdone (Or.inl hk)
            · exact hk' hmem
          fresh := by
            intro n hn
            have hle : s.next + 1 ≤ n := hn
            obtain ⟨hworkers, hrest⟩ := h.fresh n (by omega)
            exact ⟨(Function.update_of_ne (by omega) _ _).trans hworkers, hrest⟩ }

/-! ## The end of a delivery -/

/-- Of the slot of a worker nothing is left. -/
theorem Sound.released {s : SellerCore} (h : Sound s) {id : Nat} {w : Worker}
    (hw : s.workers id = some w) (handled : Finset JobId) (contexts : Dict JobContext)
    (hhandled : ∀ job, job ∈ handled ↔
      job ∈ s.handled ∨ job = w.job ∧ contexts.lookup w.job = none ∧ w.job ∈ handled)
    (hcontexts : ∀ job, job ≠ w.job → contexts.lookup job = s.jobContexts.lookup job)
    (hthread : ∀ t thread, w.stage.thread = some t → s.threads t = some thread →
      thread.outcome ≠ none ∧ (thread.outcome = some .landed → w.job ∈ handled)) :
    Sound { s with
      workers := Function.update s.workers id none
      inflight := s.inflight.erase w.job
      inflightVerified := s.inflightVerified.erase w.job
      contextlessStarted := s.contextlessStarted.erase w.job
      pendingVerifiedHandoffs := s.pendingVerifiedHandoffs.erase w.job
      handled := handled
      jobContexts := contexts } := by
  have hother : ∀ {i : Nat} {v : Worker}, i ≠ id → s.workers i = some v → v.job ≠ w.job := by
    intro i v hi hv hjob
    exact hi (h.unique hv hw hjob)
  have hkept : ∀ {i : Nat} {v : Worker}, s.workers i = some v → v.job ≠ w.job → i ≠ id := by
    rintro i v hv hjob rfl
    obtain rfl : w = v := Option.some.inj (hw.symm.trans hv)
    exact hjob rfl
  exact
    { late := h.late
      unique := by
        intro i k v u hv hu hjob
        exact h.unique (update_none_eq_some.1 hv).2 (update_none_eq_some.1 hu).2 hjob
      owned := by
        intro job
        constructor
        · intro hjob
          obtain ⟨hne, hjob⟩ := Finset.mem_erase.1 hjob
          obtain ⟨i, v, hv, rfl⟩ := (h.owned job).1 hjob
          exact ⟨i, v, update_none_eq_some.2 ⟨hkept hv hne, hv⟩, rfl⟩
        · intro hjob
          obtain ⟨i, v, hv, rfl⟩ := hjob
          obtain ⟨hi, hv⟩ := update_none_eq_some.1 hv
          exact Finset.mem_erase.2 ⟨hother hi hv, h.mem_inflight hv⟩
      mode := by
        intro i v hv
        obtain ⟨hi, hv⟩ := update_none_eq_some.1 hv
        exact (Finmap.lookup_erase_ne (hother hi hv)).trans (h.mode hv)
      pending := by
        intro job hjob
        obtain ⟨hne, hjob⟩ := Finset.mem_erase.1 hjob
        exact (Finmap.lookup_erase_ne hne).trans (h.pending job hjob)
      moded := by
        intro job hjob
        by_cases hne : job = w.job
        · rw [hne]
          exact Finmap.lookup_erase _ _
        · refine (Finmap.lookup_erase_ne hne).trans (h.moded job ?_)
          intro hmem
          exact hjob (Finset.mem_erase.2 ⟨hne, hmem⟩)
      contextless := by
        intro job hjob
        obtain ⟨hne, hjob⟩ := Finset.mem_erase.1 hjob
        obtain ⟨i, v, hv, rfl, hstage⟩ := h.contextless job hjob
        exact ⟨i, v, update_none_eq_some.2 ⟨hkept hv hne, hv⟩, rfl, hstage⟩
      begun := by
        intro i v c hv hc
        obtain ⟨hi, hv⟩ := update_none_eq_some.1 hv
        obtain ⟨hlookup, hnone⟩ := h.begun hv hc
        refine ⟨(hcontexts _ (hother hi hv)).trans hlookup, ?_⟩
        intro hc
        exact Finset.mem_erase.2 ⟨hother hi hv, hnone hc⟩
      thread := by
        intro t thread hthread' hout
        have hsound : thread.outcome = none ∨
            thread.outcome = some .landed ∧ thread.job ∉ s.handled := by
          obtain hnone | ⟨hlanded, hnot⟩ := hout
          · exact Or.inl hnone
          · exact Or.inr ⟨hlanded, fun hmem => hnot ((hhandled _).2 (Or.inl hmem))⟩
        obtain ⟨i, v, hv, hjob, hstage⟩ := h.thread hthread' hsound
        refine ⟨i, v, update_none_eq_some.2 ⟨?_, hv⟩, hjob, hstage⟩
        rintro rfl
        obtain rfl : w = v := Option.some.inj (hw.symm.trans hv)
        obtain ⟨hended, hhand⟩ := hthread t thread hstage hthread'
        obtain hnone | ⟨hlanded, hnot⟩ := hout
        · exact hended hnone
        · rw [← hjob] at hnot
          exact hnot (hhand hlanded)
      once := h.once
      waits := by
        intro i t v hv hstage
        exact h.waits (update_none_eq_some.1 hv).2 hstage
      handled := by
        intro job hjob
        obtain hold | ⟨rfl, hcontext, _⟩ := (hhandled job).1 hjob
        · have hne : job ≠ w.job := by
            rintro rfl
            exact h.not_handled hw hold
          obtain ⟨hnot, hcontext⟩ := h.handled job hold
          refine ⟨fun hmem => hnot (Finset.mem_of_mem_erase hmem), ?_⟩
          exact (hcontexts job hne).trans hcontext
        · exact ⟨Finset.notMem_erase _ _, hcontext⟩
      fresh := by
        intro n hn
        obtain ⟨hworkers, hrest⟩ := h.fresh n hn
        have hlt := h.lt_next hw
        have hle : s.next ≤ n := hn
        exact ⟨(Function.update_of_ne (by omega) _ _).trans hworkers, hrest⟩ }

/-- A delivery may end once no thread of its runs, and has been noted if its
thread has landed. -/
def Ends (s : SellerCore) (w : Worker) (terminal : Bool) : Prop :=
  ∀ t thread, w.stage.thread = some t → s.threads t = some thread →
    thread.outcome ≠ none ∧ (thread.outcome = some .landed → terminal = true)

/-- Ending a delivery keeps the process sound. -/
theorem Sound.finish {s : SellerCore} (h : Sound s) {id : Nat} {w : Worker}
    (hw : s.workers id = some w) {terminal : Bool} (hends : Ends s w terminal) :
    Sound (s.finish id w terminal) := by
  have hlate : w.job ∉ s.lateSubmitSuccesses := by
    rw [h.late]
    exact Finset.notMem_empty _
  unfold SellerCore.finish
  cases terminal with
  | true =>
      rw [if_pos (Or.inl rfl)]
      have hempty : s.lateSubmitSuccesses.erase w.job = s.lateSubmitSuccesses :=
        Finset.erase_eq_of_notMem hlate
      have hreleased := h.released hw (insert w.job s.handled) (s.jobContexts.erase w.job)
        (by
          intro job
          simp only [Finset.mem_insert, Finmap.lookup_erase, true_or, and_true]
          exact or_comm)
        (fun job hne => Finmap.lookup_erase_ne hne)
        (by
          intro t thread hstage hthread
          exact ⟨(hends t thread hstage hthread).1, fun _ => Finset.mem_insert_self _ _⟩)
      exact { hreleased with late := hempty.trans h.late }
  | false =>
      have hnot : ¬(false = true ∨ w.job ∈ s.lateSubmitSuccesses) := by
        rintro (hfalse | hmem)
        · cases hfalse
        · exact hlate hmem
      have hreleased := h.released hw s.handled s.jobContexts
        (by
          intro job
          refine ⟨Or.inl, ?_⟩
          rintro (hmem | ⟨rfl, _, hmem⟩)
          · exact hmem
          · exact hmem)
        (fun _ _ => rfl)
        (by
          intro t thread hstage hthread
          obtain ⟨hended, hlanded⟩ := hends t thread hstage hthread
          exact ⟨hended, fun hout => absurd (hlanded hout) Bool.false_ne_true⟩)
      rw [if_neg hnot]
      split
      · exact hreleased.spawnJob _ _ _
      · exact hreleased

/-- A submit that lands behind a cancellation ends like one that lands before. -/
theorem finish_late (s : SellerCore) (id : Nat) (w : Worker) :
    (s.markLate w.job).finish id w false = s.finish id w true := by
  have hmem : w.job ∈ (s.markLate w.job).lateSubmitSuccesses := Finset.mem_insert_self _ _
  unfold SellerCore.finish
  rw [if_pos (Or.inr hmem), if_pos (Or.inl rfl)]
  have hlate : (insert w.job s.lateSubmitSuccesses).erase w.job =
      s.lateSubmitSuccesses.erase w.job := Finset.erase_insert_eq_erase _ _
  simp only [SellerCore.settled, SellerCore.forget, SellerCore.markLate, hlate]

/-- A worker whose thread has returned ends, with the thread's outcome
deciding. -/
theorem submitReturns_eq (s : SellerCore) (id : Nat) (w : Worker)
    (cancelled : Bool) (outcome : SubmitOutcome) :
    s.submitReturns id w cancelled outcome =
      s.finish id w (if cancelled then decide (outcome = .landed) else outcome.terminal) := by
  unfold SellerCore.submitReturns
  cases cancelled with
  | false => rfl
  | true =>
      rw [if_neg (by decide), if_pos rfl]
      by_cases hlanded : outcome = .landed
      · rw [if_pos hlanded, finish_late, decide_eq_true hlanded]
      · rw [if_neg hlanded, decide_eq_false hlanded]

/-! ## Pruning -/

/-- Jobs that are erased are gone and the others stay. -/
theorem lookup_foldl_erase {α : Type} (gone : List JobId) (d : Dict α) (job : JobId) :
    (gone.foldl (fun d job => d.erase job) d).lookup job =
      if job ∈ gone then none else d.lookup job := by
  induction gone generalizing d with
  | nil => rfl
  | cons first gone ih =>
      rw [List.foldl_cons, ih]
      by_cases hfirst : job = first
      · subst hfirst
        simp
      · simp only [List.mem_cons, hfirst, false_or, Finmap.lookup_erase_ne hfirst]

/-- Forgetting jobs erases what is tracked of them and nothing else. -/
theorem foldl_forget (gone : List JobId) (s : SellerCore) :
    gone.foldl SellerCore.forget s =
      { s with
        jobContexts := gone.foldl (fun d job => d.erase job) s.jobContexts
        jobSpecs := gone.foldl (fun d job => d.erase job) s.jobSpecs
        contextDeadlines := gone.foldl (fun d job => d.erase job) s.contextDeadlines
        contextEvents := gone.foldl (fun d job => d.erase job) s.contextEvents } := by
  induction gone generalizing s with
  | nil => rfl
  | cons job gone ih => exact ih (s.forget job)

/-- Evicting jobs forgets them and notes who they were. -/
theorem evict_eq (s : SellerCore) (gone : List JobId) :
    s.evict gone =
      { s with
        jobContexts := gone.foldl (fun d job => d.erase job) s.jobContexts
        jobSpecs := gone.foldl (fun d job => d.erase job) s.jobSpecs
        contextDeadlines := gone.foldl (fun d job => d.erase job) s.contextDeadlines
        contextEvents := gone.foldl (fun d job => d.erase job) s.contextEvents
        evicted := gone ++ s.evicted } :=
  foldl_forget gone { s with evicted := gone ++ s.evicted }

/-- What is evicted has no live work. -/
theorem prune_eq (s : SellerCore) (order : List JobId) (protect : JobId) :
    ∃ gone : List JobId, (∀ job ∈ gone, job ∉ s.inflight ∧ job ≠ protect) ∧
      s.prune order protect = s.evict gone := by
  refine ⟨(s.evictable order protect).take (s.tracked.card - maxTrackedJobs), ?_, rfl⟩
  intro job hjob
  have hmem := List.mem_of_mem_take hjob
  unfold SellerCore.evictable at hmem
  rw [List.mem_mergeSort, List.mem_filter, decide_eq_true_eq] at hmem
  simp only [Finset.mem_union, Finset.mem_singleton, not_or] at hmem
  exact ⟨hmem.2.1.1, hmem.2.2⟩

/-- Pruning keeps the context of the protected job. -/
theorem prune_protected (s : SellerCore) (order : List JobId) (protect : JobId) :
    (s.prune order protect).jobContexts.lookup protect = s.jobContexts.lookup protect := by
  obtain ⟨gone, hgone, heq⟩ := prune_eq s order protect
  have hkept : protect ∉ gone := fun hmem => (hgone protect hmem).2 rfl
  rw [heq, evict_eq]
  exact (lookup_foldl_erase _ _ _).trans (if_neg hkept)

/-- Pruning keeps the process sound. -/
theorem Sound.prune {s : SellerCore} (h : Sound s) (order : List JobId) (protect : JobId) :
    Sound (s.prune order protect) := by
  obtain ⟨gone, hgone, heq⟩ := prune_eq s order protect
  rw [heq, evict_eq]
  refine { h with begun := ?_, handled := ?_ }
  · intro i w c hw hc
    obtain ⟨hlookup, hnone⟩ := h.begun hw hc
    have hkept : w.job ∉ gone := fun hmem => (hgone _ hmem).1 (h.mem_inflight hw)
    exact ⟨(lookup_foldl_erase _ _ _).trans ((if_neg hkept).trans hlookup), hnone⟩
  · intro job hjob
    obtain ⟨hnot, hcontext⟩ := h.handled job hjob
    refine ⟨hnot, (lookup_foldl_erase _ _ _).trans ?_⟩
    rw [hcontext, ite_self]

/-! ## The call -/

/-- A delivery has already started where the job is handled, submitted late or
without a context. -/
theorem commitAnswer_started {s : SellerCore} {job : JobId} {context : JobContext} :
    s.commitAnswer job context = .deliveryAlreadyStarted ↔
      job ∈ s.handled ∨ job ∈ s.lateSubmitSuccesses ∨ job ∈ s.contextlessStarted := by
  unfold SellerCore.commitAnswer
  split
  · rename_i h
    exact ⟨fun _ => h, fun _ => rfl⟩
  · rename_i h
    refine ⟨?_, fun hor => absurd hor h⟩
    intro hanswer
    split at hanswer
    · cases hanswer
    · split at hanswer
      · cases hanswer
      · cases hanswer

/-- A context is accepted where none has started and none of another digest is
kept. -/
theorem commitAnswer_accepted {s : SellerCore} {job : JobId} {context : JobContext} :
    s.commitAnswer job context = .accepted ↔
      ¬(job ∈ s.handled ∨ job ∈ s.lateSubmitSuccesses ∨ job ∈ s.contextlessStarted) ∧
        ∀ existing, s.jobContexts.lookup job = some existing →
          existing.digest = context.digest := by
  unfold SellerCore.commitAnswer
  split
  · rename_i h
    refine ⟨?_, fun hand => absurd h hand.1⟩
    intro hanswer
    cases hanswer
  · rename_i h
    cases hlookup : s.jobContexts.lookup job with
    | none =>
        refine ⟨fun _ => ⟨h, ?_⟩, fun _ => rfl⟩
        intro existing hnone
        cases hnone
    | some existing =>
        simp only
        split
        · rename_i hdigest
          refine ⟨fun _ => ⟨h, ?_⟩, fun _ => rfl⟩
          intro other hother
          obtain rfl : existing = other := Option.some.inj hother
          exact hdigest
        · rename_i hdigest
          refine ⟨?_, fun hand => absurd (hand.2 existing rfl) hdigest⟩
          intro hanswer
          cases hanswer

/-- An entry that is there stays, and only one for the job itself comes. -/
theorem install_lookup {s : SellerCore} {job k : JobId} {context : JobContext}
    {spec : Option JobSpec} (hk : k ≠ job ∨ job ∈ s.jobContexts) :
    (s.install job context spec).jobContexts.lookup k = s.jobContexts.lookup k := by
  unfold SellerCore.install
  simp only
  split
  · rfl
  · rename_i hnot
    obtain hk | hmem := hk
    · exact Finmap.lookup_insert_of_ne _ hk
    · exact absurd hmem hnot

/-- Installing an accepted context keeps the process sound. -/
theorem Sound.install {s : SellerCore} (h : Sound s) {job : JobId} {context : JobContext}
    (hanswer : s.commitAnswer job context = .accepted) (spec : Option JobSpec) :
    Sound (s.install job context spec) := by
  obtain ⟨hfree, _⟩ := commitAnswer_accepted.1 hanswer
  refine { h with begun := ?_, handled := ?_, fresh := ?_ }
  · intro i w c hw hc
    obtain ⟨hcontext, hnone⟩ := h.begun hw hc
    refine ⟨(install_lookup ?_).trans hcontext, hnone⟩
    -- a delivery of this job that began without a context would forbid one
    by_cases hown : w.job = job
    · right
      cases c with
      | none => exact absurd (Or.inr (Or.inr (hown ▸ hnone rfl))) hfree
      | some c => exact hown ▸ Finmap.mem_of_lookup_eq_some hcontext
    · exact Or.inl hown
  · intro k hk
    obtain ⟨hnot, hcontext⟩ := h.handled k hk
    refine ⟨hnot, (install_lookup (Or.inl ?_)).trans hcontext⟩
    rintro rfl
    exact hfree (Or.inl hk)
  · intro n hn
    have hle : s.next + 1 ≤ n := hn
    exact h.fresh n (by omega)

/-- A call that commits keeps the process sound. -/
theorem Sound.commit {s : SellerCore} (h : Sound s) (order : List JobId) (job : JobId)
    (context : JobContext) (spec : Option JobSpec) : Sound (s.commit order job context spec) := by
  unfold SellerCore.commit
  split
  · exact h
  · split
    · rename_i hanswer
      exact (h.prune order job).install hanswer spec
    · exact h.prune order job

/-! ## The delivery -/

/-- A delivery begins with the context that is there. -/
theorem Sound.begins {s : SellerCore} (h : Sound s) {id : Nat} {w : Worker}
    (hw : s.workers id = some w) (hnew : w.stage.begun = none) (stage : Stage)
    (hthread : stage.thread = none) (hbegun : stage.begun = some (s.jobContexts.lookup w.job)) :
    Sound ((if w.job ∈ s.jobContexts then s else s.markContextless w.job).setStage id w stage) := by
  have hfirst : w.job ∉ s.contextlessStarted := by
    intro hmem
    obtain ⟨i, v, hv, hjob, hstage⟩ := h.contextless _ hmem
    obtain rfl : i = id := h.unique hv hw hjob
    obtain rfl : w = v := Option.some.inj (hw.symm.trans hv)
    rw [hnew] at hstage
    cases hstage
  have hold : ∀ t, w.stage.thread = some t → stage.thread = some t := by
    intro t ht
    obtain ⟨context, cancelled, hstage⟩ := Stage.begun_of_thread ht
    rw [hstage] at hnew
    cases hnew
  have hnowait : ∀ t, stage.thread = some t →
      ∃ thread, s.threads t = some thread ∧ thread.job = w.job := by
    intro t ht
    rw [hthread] at ht
    cases ht
  have hkeep : ∀ job ∈ s.contextlessStarted,
      job ∈ s.contextlessStarted ∧ (job = w.job → stage.begun = some none) := by
    intro job hjob
    refine ⟨hjob, ?_⟩
    rintro rfl
    exact absurd hjob hfirst
  split
  · rename_i hcontext
    refine h.moves hw stage s.contextlessStarted hold hnowait
      (fun job hjob => Or.inl (hkeep job hjob)) (fun _ hmem => hmem) ?_
    intro c hc
    obtain rfl : s.jobContexts.lookup w.job = c := Option.some.inj (hbegun.symm.trans hc)
    exact ⟨rfl, fun hnone => absurd hcontext (Finmap.lookup_eq_none.1 hnone)⟩
  · rename_i hcontext
    have hnone : s.jobContexts.lookup w.job = none := Finmap.lookup_eq_none.2 hcontext
    refine h.moves hw stage (insert w.job s.contextlessStarted) hold hnowait ?_
      (Finset.subset_insert _ _) ?_
    · intro job hjob
      obtain rfl | hjob := Finset.mem_insert.1 hjob
      · exact Or.inr ⟨rfl, hnone ▸ hbegun⟩
      · exact Or.inl (hkeep job hjob)
    · intro c hc
      obtain rfl : s.jobContexts.lookup w.job = c := Option.some.inj (hbegun.symm.trans hc)
      exact ⟨rfl, fun _ => Finset.mem_insert_self _ _⟩

/-- Starting to work keeps the process sound. -/
theorem Sound.doWorkAndSubmit {s : SellerCore} (h : Sound s) {id : Nat} {w : Worker}
    (hw : s.workers id = some w) (hnew : w.stage.begun = none)
    (spec : Option (Option JobSpec)) : Sound (s.doWorkAndSubmit id w spec) := by
  cases spec with
  | none => exact h.begins hw hnew (.readingSpec (s.jobContexts.lookup w.job)) rfl rfl
  | some spec =>
      have hstage : Sound _ :=
        h.begins hw hnew (.working (s.jobContexts.lookup w.job)) rfl rfl
      exact { hstage with }

/-- What is marked twice is marked. -/
theorem doWorkAndSubmit_marked {s : SellerCore} {w : Worker} (h : w.job ∉ s.jobContexts)
    (id : Nat) (spec : Option (Option JobSpec)) :
    (s.markContextless w.job).doWorkAndSubmit id w spec = s.doWorkAndSubmit id w spec := by
  have hmarked : w.job ∉ (s.markContextless w.job).jobContexts := h
  have hidem : (s.markContextless w.job).markContextless w.job = s.markContextless w.job := by
    simp only [SellerCore.markContextless, Finset.insert_idem]
  unfold SellerCore.doWorkAndSubmit
  rw [if_neg hmarked, if_neg h, hidem]
  rfl

/-- Deciding on a context keeps the process sound. -/
theorem Sound.contextDecided {s : SellerCore} (h : Sound s) {id : Nat} {w : Worker}
    (hw : s.workers id = some w) (hnew : w.stage.begun = none) (spec : Option JobSpec) :
    Sound (s.contextDecided id w spec) := by
  unfold SellerCore.contextDecided
  split
  · exact h.doWorkAndSubmit hw hnew _
  · rename_i hnone
    split
    · refine h.finish hw ?_
      intro t thread hthread
      obtain ⟨context, cancelled, hstage⟩ := Stage.begun_of_thread hthread
      rw [hstage] at hnew
      cases hnew
    · rw [doWorkAndSubmit_marked hnone]
      exact h.doWorkAndSubmit hw hnew _

/-- Waiting for a context keeps the process sound. -/
theorem Sound.awaitSweepContext {s : SellerCore} (h : Sound s) {id : Nat} {w : Worker}
    (hw : s.workers id = some w) {spec : Option JobSpec} (hstage : w.stage = .reporting spec) :
    Sound (s.awaitSweepContext id w spec) := by
  have hnew : w.stage.begun = none := by rw [hstage]; rfl
  have hgrace : Sound (s.keepGrace w.job) := { h with }
  unfold SellerCore.awaitSweepContext
  split
  · exact h.doWorkAndSubmit hw hnew _
  · split
    · exact hgrace.contextDecided hw hnew _
    · refine hgrace.setStage hw (.awaitingContext spec) ?_ ?_
      · rw [hstage]
        rfl
      · rw [hstage]
        rfl

/-- Pruning touches no worker. -/
theorem prune_workers (s : SellerCore) (order : List JobId) (protect : JobId) :
    (s.prune order protect).workers = s.workers := by
  obtain ⟨gone, _, heq⟩ := prune_eq s order protect
  rw [heq, evict_eq]

/-- A reported job goes on soundly. -/
theorem Sound.fundedReported {s : SellerCore} (h : Sound s) {id : Nat} {w : Worker}
    (hw : s.workers id = some w) {spec : Option JobSpec} (hstage : w.stage = .reporting spec)
    (order : List JobId) : Sound (s.fundedReported order id w spec) := by
  have hspec : Sound (s.setSpec w.job spec) := { h with }
  exact (hspec.prune order w.job).awaitSweepContext
    ((congrFun (prune_workers (s.setSpec w.job spec) order w.job) id).trans hw) hstage

/-- Starting a delivery keeps the process sound. -/
theorem Sound.start {s : SellerCore} (h : Sound s) {id : Nat} {w : Worker}
    (hw : s.workers id = some w) (hstage : w.stage = .created) : Sound (s.start id w) := by
  have hmode : w.job ∈ s.inflightVerified := Finmap.mem_of_lookup_eq_some (h.mode hw)
  have hkept : s.keepMode w = s := by
    unfold SellerCore.keepMode
    rw [if_pos hmode]
  have hnew : w.stage.begun = none := by rw [hstage]; rfl
  unfold SellerCore.start
  rw [hkept]
  split
  · exact h.doWorkAndSubmit hw hnew _
  · refine h.setStage hw .verifying ?_ ?_
    · rw [hstage]
      rfl
    · rw [hstage]
      rfl

/-- A thread a worker waits for may be in any state. -/
theorem Sound.setThread {s : SellerCore} (h : Sound s) {t : Nat} {thread : SubmitThread}
    (ht : s.threads t = some thread) (outcome : Option SubmitOutcome)
    (howner : ∃ i w, s.workers i = some w ∧ w.job = thread.job ∧ w.stage.thread = some t) :
    Sound { s with
      threads := Function.update s.threads t (some { thread with outcome := outcome }) } := by
  obtain ⟨i, w, hw, hwjob, hwstage⟩ := howner
  -- another thread of the job that has landed would have the same worker wait for it
  have hother : ∀ {k : Nat} {other : SubmitThread}, k ≠ t → s.threads k = some other →
      other.job = thread.job → other.outcome ≠ some .landed := by
    intro k other hk hthread hjob hlanded
    have hnot : other.job ∉ s.handled := by
      rw [hjob, ← hwjob]
      exact h.not_handled hw
    obtain ⟨j, v, hv, hvjob, hvstage⟩ := h.thread hthread (Or.inr ⟨hlanded, hnot⟩)
    obtain rfl : j = i := h.unique hv hw (hvjob.trans (hjob.trans hwjob.symm))
    obtain rfl : w = v := Option.some.inj (hw.symm.trans hv)
    exact hk (Option.some.inj (hvstage.symm.trans hwstage))
  refine { h with thread := ?_, once := ?_, waits := ?_, fresh := ?_ }
  · intro k other hk hout
    obtain ⟨rfl, rfl⟩ | ⟨_, hk⟩ := update_eq_some.1 hk
    · exact ⟨i, w, hw, hwjob, hwstage⟩
    · exact h.thread hk hout
  · intro k l a b ha hb hjob hla hlb
    obtain ⟨rfl, rfl⟩ | ⟨hk, haold⟩ := update_eq_some.1 ha
    · obtain ⟨rfl, rfl⟩ | ⟨hl, hbold⟩ := update_eq_some.1 hb
      · rfl
      · exact absurd hlb (hother hl hbold hjob.symm)
    · obtain ⟨rfl, rfl⟩ | ⟨hl, hbold⟩ := update_eq_some.1 hb
      · exact absurd hla (hother hk haold hjob)
      · exact h.once haold hbold hjob hla hlb
  · intro i k w hw hstage
    obtain ⟨other, hk, hjob⟩ := h.waits hw hstage
    by_cases hkt : k = t
    · subst hkt
      obtain rfl : thread = other := Option.some.inj (ht.symm.trans hk)
      exact ⟨_, update_eq_some.2 (Or.inl ⟨rfl, rfl⟩), hjob⟩
    · exact ⟨other, update_eq_some.2 (Or.inr ⟨hkt, hk⟩), hjob⟩
  · intro n hn
    obtain ⟨hworkers, hthreads, hsweeps⟩ := h.fresh n hn
    have hne : n ≠ t := by
      rintro rfl
      rw [hthreads] at ht
      cases ht
    exact ⟨hworkers, (Function.update_of_ne hne _ _).trans hthreads, hsweeps⟩

/-- Starting the thread keeps the process sound: no other runs for the job. -/
theorem Sound.submit {s : SellerCore} (h : Sound s) {id : Nat} {w : Worker}
    (hw : s.workers id = some w) {context : Option JobContext} (hstage : w.stage = .working context)
    (content : Python.PyStr) : Sound (s.submit id w context content) := by
  have hnothread : w.stage.thread = none := by rw [hstage]; rfl
  have hbegun : w.stage.begun = some context := by rw [hstage]; rfl
  have hnew : s.threads s.next = none := (h.fresh _ (Nat.le_refl _)).2.1
  -- first a thread that is of no account, then the stage, then the thread runs
  let ended : SubmitThread := ⟨id, w.job, content, context.bind (·.gatewayUrl),
    context.bind (·.gatewayToken), some .failed⟩
  have hover : Sound { s with
      threads := Function.update s.threads s.next (some ended)
      next := s.next + 1 } := by
    refine { h with thread := ?_, once := ?_, waits := ?_, fresh := ?_ }
    · intro t thread ht hout
      obtain ⟨rfl, rfl⟩ | ⟨_, ht⟩ := update_eq_some.1 ht
      · obtain hnone | ⟨hlanded, _⟩ := hout
        · cases hnone
        · cases hlanded
      · exact h.thread ht hout
    · intro t u a b ha hb hjob hla hlb
      obtain ⟨rfl, rfl⟩ | ⟨_, ha⟩ := update_eq_some.1 ha
      · cases hla
      · obtain ⟨rfl, rfl⟩ | ⟨_, hb⟩ := update_eq_some.1 hb
        · cases hlb
        · exact h.once ha hb hjob hla hlb
    · intro i t v hv hvstage
      obtain ⟨thread, ht, hjob⟩ := h.waits hv hvstage
      have hne : t ≠ s.next := by
        rintro rfl
        rw [hnew] at ht
        cases ht
      exact ⟨thread, update_eq_some.2 (Or.inr ⟨hne, ht⟩), hjob⟩
    · intro n hn
      have hle : s.next + 1 ≤ n := hn
      obtain ⟨hworkers, hthreads, hsweeps⟩ := h.fresh n (by omega)
      exact ⟨hworkers, (Function.update_of_ne (by omega) _ _).trans hthreads, hsweeps⟩
  have hmoved := hover.moves hw (.submitting context s.next false) s.contextlessStarted
    (by
      intro t ht
      rw [hnothread] at ht
      cases ht)
    (by
      intro t ht
      obtain rfl : s.next = t := Option.some.inj ht
      exact ⟨ended, update_eq_some.2 (Or.inl ⟨rfl, rfl⟩), rfl⟩)
    (by
      intro job hjob
      refine Or.inl ⟨hjob, ?_⟩
      rintro rfl
      obtain ⟨i, v, hv, hvjob, hvstage⟩ := h.contextless _ hjob
      obtain rfl : i = id := h.unique hv hw hvjob
      obtain rfl : w = v := Option.some.inj (hw.symm.trans hv)
      exact hbegun.symm.trans hvstage)
    (fun _ hmem => hmem)
    (by
      intro c hc
      exact h.begun hw (hbegun.trans hc))
  have hruns := hmoved.setThread (t := s.next) (update_eq_some.2 (Or.inl ⟨rfl, rfl⟩)) none
    ⟨id, _, setStage_workers.2 (Or.inl ⟨rfl, rfl⟩), rfl, rfl⟩
  simpa only [SellerCore.submit, SellerCore.setStage, Function.update_idem, ended] using hruns

/-- The jobs a scan has found are spawned soundly. -/
theorem Sound.swept {s : SellerCore} (h : Sound s) (id : Nat) (jobs : List JobId) :
    Sound (s.swept id jobs) := by
  have hspawned : ∀ (jobs : List JobId) {s : SellerCore}, Sound s → Sound (s.spawnJobs jobs) := by
    intro jobs
    induction jobs with
    | nil => exact fun h => h
    | cons job jobs ih => exact fun h => ih (h.spawnJob job false none)
  have hsound := hspawned jobs h
  unfold SellerCore.swept
  refine { hsound with fresh := ?_ }
  intro n hn
  obtain ⟨hworkers, hthreads, hsweeps⟩ := hsound.fresh n hn
  exact ⟨hworkers, hthreads, fun hmem => hsweeps (Finset.mem_of_mem_erase hmem)⟩

/-- A worker without a thread may end in any way. -/
theorem ends_of_no_thread {s : SellerCore} {w : Worker} {terminal : Bool}
    (h : w.stage.thread = none) : Ends s w terminal := by
  intro t thread hstage
  rw [h] at hstage
  cases hstage

/-- Cancelling a delivery keeps the process sound. -/
theorem Sound.cancel {s : SellerCore} (h : Sound s) {id : Nat} {w : Worker}
    (hw : s.workers id = some w) : Sound (s.cancel id w) := by
  unfold SellerCore.cancel
  split
  · rename_i context t cancelled hstage
    refine h.setStage hw _ ?_ ?_
    · rw [hstage]
      rfl
    · rw [hstage]
      rfl
  · rename_i hstage
    refine h.finish hw (ends_of_no_thread ?_)
    by_contra hthread
    obtain ⟨t, ht⟩ := Option.ne_none_iff_exists'.1 hthread
    obtain ⟨context, cancelled, hsub⟩ := Stage.begun_of_thread ht
    exact hstage context t cancelled hsub

/-- **Every segment keeps the invariant.** -/
theorem Sound.step {s s' : SellerCore} (h : Sound s) (hstep : Step s s') : Sound s' := by
  cases hstep with
  | scan => exact h.spawnSweep
  | commit _ job context spec => exact h.commit _ job context spec
  | @reported id call hcall =>
      have hcalled : Sound (s.endCall id) := { h with }
      exact (hcalled.spawnJob _ _ _).spawnSweep
  | callCancelled id => exact { h with }
  | start hw hstage => exact h.start hw hstage
  | snapshotRead hw hstage verdict =>
      cases verdict with
      | verified spec =>
          refine h.setStage hw (.reporting spec) ?_ ?_
          · rw [hstage]
            rfl
          · rw [hstage]
            rfl
      | refused permanent =>
          refine h.finish hw (ends_of_no_thread ?_)
          rw [hstage]
          rfl
  | fundedReported hw hstage _ => exact h.fundedReported hw hstage _
  | contextWaitOver hw hstage _ =>
      refine h.contextDecided hw ?_ _
      rw [hstage]
      rfl
  | @specRead id w context hw hstage spec =>
      have hworking : Sound (s.setStage id w (.working context)) := by
        refine h.setStage hw _ ?_ ?_
        · rw [hstage]
          rfl
        · rw [hstage]
          rfl
      exact { hworking with }
  | workDone hw hstage content => exact h.submit hw hstage content
  | threadEnds hthread hrunning outcome =>
      exact h.setThread hthread _ (h.thread hthread (Or.inl hrunning))
  | @submitReturns id t w context cancelled thread outcome hw hstage hthread houtcome =>
      rw [submitReturns_eq]
      refine h.finish hw ?_
      intro k other hk hother
      rw [hstage] at hk
      obtain rfl : t = k := Option.some.inj hk
      obtain rfl : thread = other := Option.some.inj (hthread.symm.trans hother)
      rw [houtcome]
      refine ⟨fun hnone => (nomatch hnone), ?_⟩
      intro hlanded
      obtain rfl : outcome = .landed := Option.some.inj hlanded
      cases cancelled with
      | true => rfl
      | false => rfl
  | @raises id w hw hstage =>
      refine h.finish hw (ends_of_no_thread ?_)
      cases hs : w.stage with
      | submitting context t cancelled =>
          rw [hs] at hstage
          cases hstage
      | _ => rfl
  | cancel hw _ => exact h.cancel hw
  | swept _ jobs => exact h.swept _ jobs
  | discard _ _ => exact { h with }
  | later d => exact { h with }

/-- **Every reachable process is sound.** -/
theorem Reachable.sound {s : SellerCore} (h : Reachable s) : Sound s := by
  induction h with
  | refl => exact .init
  | tail _ hstep ih => exact ih.step hstep

/-- **One delivery at a time.**  In every state a run reaches, a job is in
flight exactly while a task delivers it, and that task is the only one.  A
thread that submits for the job is the one this task waits for, so that none
runs when a delivery starts, and of all submits of the job no two land. -/
theorem one_delivery {s : SellerCore} (h : Reachable s) (job : JobId) :
    (job ∈ s.inflight ↔ ∃ i w, s.workers i = some w ∧ w.job = job) ∧
    (∀ i k v w, s.workers i = some v → s.workers k = some w → v.job = job → w.job = job → i = k) ∧
    (∀ t thread, s.threads t = some thread → thread.job = job → thread.outcome = none →
      ∃ i w context cancelled, s.workers i = some w ∧ w.job = job ∧
        w.stage = .submitting context t cancelled) ∧
    (∀ i w, s.workers i = some w → w.job = job → w.stage = .created →
      ∀ t thread, s.threads t = some thread → thread.job = job → thread.outcome ≠ none) ∧
    (∀ t u a b, s.threads t = some a → s.threads u = some b → a.job = job → b.job = job →
      a.outcome = some .landed → b.outcome = some .landed → t = u) := by
  have hs := h.sound
  have hrunning : ∀ t thread, s.threads t = some thread → thread.job = job →
      thread.outcome = none → ∃ i w context cancelled, s.workers i = some w ∧ w.job = job ∧
        w.stage = .submitting context t cancelled := by
    intro t thread hthread hjob hnone
    obtain ⟨i, w, hw, hwjob, hstage⟩ := hs.thread hthread (Or.inl hnone)
    obtain ⟨context, cancelled, hsub⟩ := Stage.begun_of_thread hstage
    exact ⟨i, w, context, cancelled, hw, hwjob.trans hjob, hsub⟩
  refine ⟨hs.owned job, ?_, hrunning, ?_, ?_⟩
  · intro i k v w hv hw hvjob hwjob
    exact hs.unique hv hw (hvjob.trans hwjob.symm)
  · intro i w hw hwjob hcreated t thread hthread hjob hnone
    obtain ⟨k, v, context, cancelled, hv, hvjob, hsub⟩ := hrunning t thread hthread hjob hnone
    obtain rfl : k = i := hs.unique hv hw (hvjob.trans hwjob.symm)
    obtain rfl : w = v := Option.some.inj (hw.symm.trans hv)
    rw [hcreated] at hsub
    cases hsub
  · intro t u a b ha hb hajob hbjob hla hlb
    exact hs.once ha hb (hajob.trans hbjob.symm) hla hlb

/-- A process whose first scan has found one job. -/
def found : SellerCore := SellerCore.init.spawnSweep.swept 0 [7]

theorem reachable_found : Reachable found :=
  (Relation.ReflTransGen.single .scan).tail (.swept (Finset.mem_singleton_self 0) [7])

/-- A context with a relay. -/
def relayContext : JobContext where
  digest := Python.py "b94d27b9934d3e08a52e52d7da7dabfac484efe37a5380ee9088f7ace2efcde9"
  gatewayUrl := some (Python.py "https://relay.example")
  gatewayToken := some (Python.py "token-1")
  portfolio := []
  riskProfile := none
  gatewayUrl_ok := NotifySecurity.forall_mem_some (by decide)
  gatewayToken_ok := NotifySecurity.forall_mem_some (by decide)
  portfolio_ok := Nat.zero_le _

/-- A call for job 7 has spawned its delivery, which is at work. -/
def notified : SellerCore :=
  ((((SellerCore.init.install 7 relayContext none).reported 0 ⟨7, relayContext⟩).start 1
    ⟨7, true, some relayContext, .created⟩).runWork 1
      ⟨7, true, some relayContext, .readingSpec (some relayContext)⟩ (some relayContext) none)

/-- The delivery submits. -/
def submitted : SellerCore :=
  notified.submit 1 ⟨7, true, some relayContext, .working (some relayContext)⟩
    (some relayContext) (Python.py "report")

theorem reachable_submitted : Reachable submitted := by
  have hpruned : SellerCore.init.prune [] 7 = .init := by
    unfold SellerCore.prune SellerCore.evictable
    rw [List.filter_nil, List.mergeSort_nil, List.take_nil]
    rfl
  have hanswer : SellerCore.init.commitAnswer 7 relayContext = .accepted := by decide
  have hcommit : SellerCore.init.commit [] 7 relayContext none =
      SellerCore.init.install 7 relayContext none := by
    unfold SellerCore.commit
    rw [hpruned, hanswer, if_neg (by decide), if_pos rfl]
  have hfirst : Reachable (SellerCore.init.install 7 relayContext none) :=
    hcommit ▸ Relation.ReflTransGen.single (.commit ⟨List.nodup_nil, rfl⟩ 7 relayContext none)
  have hreported := hfirst.tail (@Step.reported _ 0 ⟨7, relayContext⟩ rfl)
  have hstarted := hreported.tail
    (@Step.start _ 1 ⟨7, true, some relayContext, .created⟩ rfl rfl)
  have hworking := hstarted.tail (@Step.specRead _ 1 _ (some relayContext) rfl rfl none)
  exact hworking.tail (@Step.workDone _ 1 _ (some relayContext) rfl rfl (Python.py "report"))

/-- The submit thread of job 7 is its worker's. -/
theorem one_delivery_submitted : ∃ i w context cancelled, submitted.workers i = some w ∧
    w.job = 7 ∧ w.stage = .submitting context 3 cancelled :=
  (one_delivery reachable_submitted 7).2.2.1 3
    ⟨1, 7, Python.py "report", relayContext.gatewayUrl, relayContext.gatewayToken, none⟩ rfl rfl rfl

end Seller
