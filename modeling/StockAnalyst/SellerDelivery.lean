import StockAnalyst.SellerOwnership

/-!
# A job is delivered once

When a job is handled, or one of its submits has landed, whether its delivery
still waits for the thread or not, no segment starts work or a submit for it,
none spawns a task for it and none installs a context for it.
-/

namespace Seller

open Relation
open NotifySecurity (JobContext)

/-- The job is over for this process, or a submit of its has landed. -/
def Settled (s : SellerCore) (job : JobId) : Prop :=
  job ∈ s.handled ∨
    ∃ t thread, s.threads t = some thread ∧ thread.job = job ∧ thread.outcome = some .landed

/-- Between two states nothing is started for a job. -/
structure Quiet (job : JobId) (s s' : SellerCore) : Prop where
  works : s'.works.filter (fun work => decide (work.job = job)) =
    s.works.filter (fun work => decide (work.job = job))
  threads : ∀ t thread, thread.job = job → (s'.threads t = some thread ↔ s.threads t = some thread)
  workers : ∀ i w, s'.workers i = some w → w.job = job → ∃ v, s.workers i = some v ∧ v.job = job
  contexts : s'.jobContexts.lookup job = s.jobContexts.lookup job ∨
    s'.jobContexts.lookup job = none
  handled : s.handled ⊆ s'.handled

namespace Quiet

variable {job : JobId} {s t u : SellerCore}

/-- Nothing happens to the job where nothing happens. -/
theorem refl (job : JobId) (s : SellerCore) : Quiet job s s :=
  ⟨rfl, fun _ _ _ => Iff.rfl, fun _ w hw hjob => ⟨w, hw, hjob⟩, Or.inl rfl, fun _ hmem => hmem⟩

/-- Quiet runs one after the other. -/
theorem trans (h₁ : Quiet job s t) (h₂ : Quiet job t u) : Quiet job s u where
  works := h₂.works.trans h₁.works
  threads := fun k thread hjob => (h₂.threads k thread hjob).trans (h₁.threads k thread hjob)
  workers := by
    intro i w hw hjob
    obtain ⟨v, hv, hvjob⟩ := h₂.workers i w hw hjob
    exact h₁.workers i v hv hvjob
  contexts := by
    obtain h | h := h₂.contexts
    · rw [h]
      exact h₁.contexts
    · exact Or.inr h
  handled := h₁.handled.trans h₂.handled

/-- What is settled stays settled in a quiet run. -/
theorem settled (h : Quiet job s t) (hs : Settled s job) : Settled t job := by
  obtain hmem | ⟨k, thread, hthread, hjob, hlanded⟩ := hs
  · exact Or.inl (h.handled hmem)
  · exact Or.inr ⟨k, thread, (h.threads k thread hjob).2 hthread, hjob, hlanded⟩

/-! ## The segments -/

/-- Spawning a scan is quiet for every job. -/
theorem spawnSweep (job : JobId) (s : SellerCore) : Quiet job s s.spawnSweep := by
  unfold SellerCore.spawnSweep
  split
  · exact refl job s
  · exact { refl job s with }

/-- A task is spawned for another job, or not at all. -/
theorem spawnJob {other : JobId} (h : other = job → job ∈ s.handled ∨ job ∈ s.inflight)
    (verified : Bool) (promised : Option JobContext) :
    Quiet job s (s.spawnJob other verified promised) := by
  unfold SellerCore.spawnJob
  split
  · exact refl job s
  · rename_i hdone
    split
    · split
      · exact { refl job s with }
      · exact refl job s
    · rename_i hinflight
      refine { refl job s with workers := ?_ }
      intro i w hw hjob
      obtain ⟨rfl, rfl⟩ | ⟨_, hw⟩ := update_eq_some.1 hw
      · obtain rfl : other = job := hjob
        obtain hmem | hmem := h rfl
        · exact absurd (Or.inl hmem) hdone
        · exact absurd hmem hinflight
      · exact ⟨w, hw, hjob⟩

/-- So is pruning. -/
theorem prune (order : List JobId) (protect : JobId) : Quiet job s (s.prune order protect) := by
  obtain ⟨gone, _, heq⟩ := prune_eq s order protect
  rw [heq, evict_eq]
  refine { refl job s with contexts := ?_ }
  have hlookup := lookup_foldl_erase gone s.jobContexts job
  split at hlookup
  · exact Or.inr hlookup
  · exact Or.inl hlookup

/-- A context installed for another job is quiet for this one. -/
theorem install {other : JobId} (context : JobContext) (spec : Option JobSpec)
    (h : job ≠ other ∨ other ∈ s.jobContexts) : Quiet job s (s.install other context spec) where
  works := rfl
  threads := fun _ _ _ => Iff.rfl
  workers := fun _ w hw hjob => ⟨w, hw, hjob⟩
  contexts := Or.inl (install_lookup h)
  handled := fun _ hmem => hmem

/-- A call for another job, or for one that has started, is quiet. -/
theorem commit {other : JobId} (order : List JobId) (context : JobContext) (spec : Option JobSpec)
    (h : other = job →
      job ∈ s.handled ∨ job ∈ s.contextlessStarted ∨ ∃ c, s.jobContexts.lookup job = some c) :
    Quiet job s (s.commit order other context spec) := by
  unfold SellerCore.commit
  split
  · exact refl job s
  · rename_i hstarted
    have hpruned : Quiet job s (s.prune order other) := prune order other
    have hkept := prune_protected s order other
    generalize s.prune order other = p at hpruned hkept ⊢
    split
    · refine hpruned.trans (install context spec ?_)
      by_cases hother : other = job
      · subst hother
        obtain hmem | hmem | ⟨c, hc⟩ := h rfl
        · exact absurd (commitAnswer_started.2 (Or.inl hmem)) hstarted
        · exact absurd (commitAnswer_started.2 (Or.inr (Or.inr hmem))) hstarted
        · exact Or.inr (Finmap.mem_of_lookup_eq_some (hkept.trans hc))
      · exact Or.inl (Ne.symm hother)
    · exact hpruned

/-- A worker of the same job goes on. -/
theorem setStage {id : Nat} {w : Worker} (hw : s.workers id = some w) (stage : Stage) :
    Quiet job s (s.setStage id w stage) := by
  refine { refl job s with workers := ?_ }
  intro i v hv hjob
  obtain ⟨rfl, rfl⟩ | ⟨_, hv⟩ := setStage_workers.1 hv
  · exact ⟨w, hw, hjob⟩
  · exact ⟨v, hv, hjob⟩

/-- A delivery of this job that ends for good is quiet. -/
theorem finished {id : Nat} {w : Worker} (terminal : Bool) (h : w.job = job → terminal = true) :
    Quiet job s (s.finish id w terminal) := by
  have hworkers : ∀ i v, Function.update s.workers id none i = some v → v.job = job →
      ∃ u, s.workers i = some u ∧ u.job = job :=
    fun i v hv hjob => ⟨v, (update_none_eq_some.1 hv).2, hjob⟩
  have hfreed : Quiet job s (s.freed id w) := { refl job s with workers := hworkers }
  unfold SellerCore.finish
  split
  · refine { refl job s with
      workers := hworkers, contexts := ?_, handled := Finset.subset_insert _ _ }
    by_cases hjob : job = w.job
    · right
      rw [hjob]
      exact Finmap.lookup_erase _ _
    · exact Or.inl (Finmap.lookup_erase_ne hjob)
  · rename_i hterminal
    split
    · refine hfreed.trans (spawnJob ?_ _ _)
      intro hjob
      exact absurd (Or.inl (h hjob)) hterminal
    · exact hfreed

/-- Work for another job is quiet. -/
theorem runWork {id : Nat} {w : Worker} (hw : s.workers id = some w) (hjob : w.job ≠ job)
    (context : Option JobContext) (spec : Option JobSpec) :
    Quiet job s (s.runWork id w context spec) :=
  { setStage hw (.working context) with
    works := List.filter_cons_of_neg (by simpa using hjob) }

/-- So is noting that one went without a context. -/
theorem markContextless (other : JobId) : Quiet job s (s.markContextless other) :=
  { refl job s with }

/-- So is starting to work for another job. -/
theorem doWorkAndSubmit {id : Nat} {w : Worker} (hw : s.workers id = some w) (hjob : w.job ≠ job)
    (spec : Option (Option JobSpec)) : Quiet job s (s.doWorkAndSubmit id w spec) := by
  have hmarked : Quiet job s (if w.job ∈ s.jobContexts then s else s.markContextless w.job) ∧
      (if w.job ∈ s.jobContexts then s else s.markContextless w.job).workers id = some w := by
    split
    · exact ⟨refl job s, hw⟩
    · exact ⟨markContextless w.job, hw⟩
  cases spec with
  | none => exact hmarked.1.trans (setStage hmarked.2 _)
  | some spec => exact hmarked.1.trans (runWork hmarked.2 hjob _ spec)

/-- So is deciding on its context. -/
theorem contextDecided {id : Nat} {w : Worker} (hw : s.workers id = some w) (hjob : w.job ≠ job)
    (spec : Option JobSpec) : Quiet job s (s.contextDecided id w spec) := by
  have hworker : (s.markContextless w.job).workers id = some w := hw
  unfold SellerCore.contextDecided
  split
  · exact doWorkAndSubmit hw hjob _
  · split
    · exact finished false (fun hown => absurd hown hjob)
    · exact (markContextless w.job).trans (doWorkAndSubmit hworker hjob _)

/-- So is waiting for it. -/
theorem awaitSweepContext {id : Nat} {w : Worker} (hw : s.workers id = some w)
    (hjob : w.job ≠ job) (spec : Option JobSpec) :
    Quiet job s (s.awaitSweepContext id w spec) := by
  have hgrace : Quiet job s (s.keepGrace w.job) := { refl job s with }
  have hworker : (s.keepGrace w.job).workers id = some w := hw
  unfold SellerCore.awaitSweepContext
  split
  · exact doWorkAndSubmit hw hjob _
  · split
    · exact hgrace.trans (contextDecided hworker hjob _)
    · exact hgrace.trans (setStage hworker _)

/-- So is reporting another job. -/
theorem fundedReported {id : Nat} {w : Worker} (hw : s.workers id = some w) (hjob : w.job ≠ job)
    (order : List JobId) (spec : Option JobSpec) :
    Quiet job s (s.fundedReported order id w spec) := by
  have hspec : Quiet job s (s.setSpec w.job spec) := { refl job s with }
  have hworker := (congrFun (prune_workers (s.setSpec w.job spec) order w.job) id).trans hw
  exact (hspec.trans (prune order w.job)).trans (awaitSweepContext hworker hjob spec)

/-- So is starting its delivery. -/
theorem start {id : Nat} {w : Worker} (hw : s.workers id = some w) (hjob : w.job ≠ job) :
    Quiet job s (s.start id w) := by
  have hmode : Quiet job s (s.keepMode w) := { refl job s with }
  have hworker : (s.keepMode w).workers id = some w := hw
  unfold SellerCore.start
  split
  · exact hmode.trans (doWorkAndSubmit hworker hjob _)
  · exact hmode.trans (setStage hworker _)

/-- So is starting its thread. -/
theorem submit {id : Nat} {w : Worker} (hw : s.workers id = some w) (hjob : w.job ≠ job)
    (hnew : s.threads s.next = none) (context : Option JobContext) (content : Python.PyStr) :
    Quiet job s (s.submit id w context content) := by
  refine { setStage hw (.submitting context s.next false) with threads := ?_ }
  intro t thread hthread
  refine ⟨?_, ?_⟩
  · intro ht
    obtain ⟨rfl, rfl⟩ | ⟨_, ht⟩ := update_eq_some.1 ht
    · exact absurd hthread hjob
    · exact ht
  · intro ht
    refine update_eq_some.2 (Or.inr ⟨?_, ht⟩)
    rintro rfl
    rw [hnew] at ht
    cases ht

/-- A scan leaves a job alone that is handled or in flight. -/
theorem swept (id : Nat) (jobs : List JobId) (h : job ∈ s.handled ∨ job ∈ s.inflight) :
    Quiet job s (s.swept id jobs) := by
  have hjobs : ∀ (jobs : List JobId) {s : SellerCore}, job ∈ s.handled ∨ job ∈ s.inflight →
      Quiet job s (s.spawnJobs jobs) := by
    intro jobs
    induction jobs with
    | nil => exact fun _ => refl job _
    | cons other jobs ih =>
        intro s h
        refine (spawnJob (fun _ => h) false none).trans (ih ?_)
        unfold SellerCore.spawnJob
        split
        · exact h
        · split
          · split
            · exact h
            · exact h
          · obtain hmem | hmem := h
            · exact Or.inl hmem
            · exact Or.inr (Finset.mem_insert_of_mem hmem)
  exact { hjobs jobs h with }

end Quiet

/-! ## Every run -/

/-- While a job is settled its worker, if there is one, waits for the thread
that has landed. -/
theorem Settled.waits {s : SellerCore} {job : JobId} (h : Sound s) (hs : Settled s job) {i : Nat}
    {w : Worker} (hw : s.workers i = some w) (hjob : w.job = job) :
    ∃ t thread, w.stage.thread = some t ∧ s.threads t = some thread ∧
      thread.outcome = some .landed := by
  obtain hmem | ⟨t, thread, hthread, hown, hlanded⟩ := hs
  · exact absurd (hjob ▸ hmem) (h.not_handled hw)
  · have hnot : thread.job ∉ s.handled := by
      rw [hown, ← hjob]
      exact h.not_handled hw
    obtain ⟨k, v, hv, hvjob, hstage⟩ := h.thread hthread (Or.inr ⟨hlanded, hnot⟩)
    obtain rfl : k = i := h.unique hv hw (hvjob.trans (hown.trans hjob.symm))
    obtain rfl : w = v := Option.some.inj (hw.symm.trans hv)
    exact ⟨t, thread, hstage, hthread, hlanded⟩

/-- A task that does not wait for a thread delivers another job. -/
theorem Settled.ne {s : SellerCore} {job : JobId} (h : Sound s) (hs : Settled s job) {i : Nat}
    {w : Worker} (hw : s.workers i = some w) (hstage : w.stage.thread = none) : w.job ≠ job := by
  intro hjob
  obtain ⟨t, _, hthread, _⟩ := hs.waits h hw hjob
  rw [hstage] at hthread
  cases hthread

/-- A settled job is handled or still in flight. -/
theorem Settled.in_place {s : SellerCore} {job : JobId} (h : Sound s) (hs : Settled s job) :
    job ∈ s.handled ∨ job ∈ s.inflight := by
  obtain hmem | ⟨t, thread, hthread, hown, hlanded⟩ := hs
  · exact Or.inl hmem
  · by_cases hmem : job ∈ s.handled
    · exact Or.inl hmem
    · obtain ⟨i, w, hw, hjob, _⟩ := h.thread hthread (Or.inr ⟨hlanded, hown ▸ hmem⟩)
      exact Or.inr (hown ▸ hjob ▸ h.mem_inflight hw)

/-- A context that a settled job has is the one its worker has begun with. -/
theorem Settled.context {s : SellerCore} {job : JobId} (h : Sound s) (hs : Settled s job) :
    job ∈ s.handled ∨ job ∈ s.contextlessStarted ∨ ∃ c, s.jobContexts.lookup job = some c := by
  obtain hmem | hmem := hs.in_place h
  · exact Or.inl hmem
  · right
    obtain ⟨i, w, hw, hjob⟩ := (h.owned job).1 hmem
    obtain ⟨t, _, hstage, _⟩ := hs.waits h hw hjob
    obtain ⟨context, cancelled, hsub⟩ := Stage.begun_of_thread hstage
    have hbegun : w.stage.begun = some context := by rw [hsub]; rfl
    obtain ⟨hlookup, hnone⟩ := h.begun hw hbegun
    rw [hjob] at hlookup hnone
    cases context with
    | none => exact Or.inl (hnone rfl)
    | some context => exact Or.inr ⟨context, hlookup⟩

/-- One segment of a settled job's process. -/
theorem Settled.step {s s' : SellerCore} {job : JobId} (h : Sound s) (hs : Settled s job)
    (hstep : Step s s') : Quiet job s s' := by
  cases hstep with
  | scan => exact .spawnSweep job s
  | commit _ other context spec =>
      exact .commit _ context spec (fun _ => hs.context h)
  | @reported id call hcall =>
      have hcalled : Quiet job s (s.endCall id) := { Quiet.refl job s with }
      have hplace : job ∈ (s.endCall id).handled ∨ job ∈ (s.endCall id).inflight :=
        Settled.in_place (s := s) h hs
      exact (hcalled.trans (.spawnJob (fun _ => hplace) true (some call.context))).trans
        (.spawnSweep job _)
  | callCancelled id => exact { Quiet.refl job s with }
  | start hw hstage =>
      refine .start hw (hs.ne h hw ?_)
      rw [hstage]
      rfl
  | snapshotRead hw hstage verdict =>
      cases verdict with
      | verified spec => exact .setStage hw (.reporting spec)
      | refused permanent =>
          refine .finished permanent (fun hown => absurd hown (hs.ne h hw ?_))
          rw [hstage]
          rfl
  | fundedReported hw hstage _ =>
      refine .fundedReported hw (hs.ne h hw ?_) _ _
      rw [hstage]
      rfl
  | contextWaitOver hw hstage _ =>
      refine .contextDecided hw (hs.ne h hw ?_) _
      rw [hstage]
      rfl
  | specRead hw hstage spec =>
      refine .runWork hw (hs.ne h hw ?_) _ _
      rw [hstage]
      rfl
  | workDone hw hstage content =>
      refine .submit hw (hs.ne h hw ?_) ((h.fresh _ (Nat.le_refl _)).2.1) _ _
      rw [hstage]
      rfl
  | @threadEnds t thread hthread hrunning outcome =>
      refine { Quiet.refl job s with threads := ?_ }
      -- a thread of a settled job that runs would be a second one
      have hother : thread.job ≠ job := by
        intro hjob
        obtain ⟨i, w, hw, hwjob, hstage⟩ := h.thread hthread (Or.inl hrunning)
        obtain ⟨u, other, hu, hother, hlanded⟩ := hs.waits h hw (hwjob.trans hjob)
        obtain rfl : t = u := Option.some.inj (hstage.symm.trans hu)
        obtain rfl : thread = other := Option.some.inj (hthread.symm.trans hother)
        rw [hrunning] at hlanded
        cases hlanded
      intro k other hk
      constructor
      · intro hnew
        obtain ⟨rfl, rfl⟩ | ⟨_, hold⟩ := update_eq_some.1 hnew
        · exact absurd hk hother
        · exact hold
      · intro hold
        refine update_eq_some.2 (Or.inr ⟨?_, hold⟩)
        rintro rfl
        obtain rfl : thread = other := Option.some.inj (hthread.symm.trans hold)
        exact hother hk
  | @submitReturns id t w context cancelled thread outcome hw hstage hthread houtcome =>
      rw [submitReturns_eq]
      refine .finished _ ?_
      intro hjob
      obtain ⟨u, other, hu, hother, hlanded⟩ := hs.waits h hw hjob
      rw [hstage] at hu
      obtain rfl : t = u := Option.some.inj hu
      obtain rfl : thread = other := Option.some.inj (hthread.symm.trans hother)
      obtain rfl : outcome = .landed := Option.some.inj (houtcome.symm.trans hlanded)
      cases cancelled with
      | true => rfl
      | false => rfl
  | @raises id w hw hstage =>
      refine .finished false (fun hown => absurd hown (hs.ne h hw ?_))
      cases hsub : w.stage with
      | submitting context t cancelled =>
          rw [hsub] at hstage
          cases hstage
      | _ => rfl
  | @cancel id w hw hstage =>
      unfold SellerCore.cancel
      split
      · exact .setStage hw _
      · rename_i hsub
        refine .finished false (fun hown => absurd hown (hs.ne h hw ?_))
        by_contra hthread
        obtain ⟨t, ht⟩ := Option.ne_none_iff_exists'.1 hthread
        obtain ⟨context, cancelled, hstage⟩ := Stage.begun_of_thread ht
        exact hsub context t cancelled hstage
  | swept _ jobs => exact .swept _ jobs (hs.in_place h)
  | discard _ _ => exact { Quiet.refl job s with }
  | later d => exact { Quiet.refl job s with }

/-- **A settled job stays settled, and nothing more is started for it.**  No
work, no submit, no task and no context comes, in any run from there on. -/
theorem settled_for_good {s s' : SellerCore} {job : JobId} (h : Reachable s)
    (hs : Settled s job) (hrun : ReflTransGen Step s s') : Settled s' job ∧ Quiet job s s' := by
  induction hrun with
  | refl => exact ⟨hs, .refl job s⟩
  | tail hrun hstep ih =>
      have hsound := Reachable.sound (h.trans hrun)
      have hquiet := ih.1.step hsound hstep
      exact ⟨hquiet.settled ih.1, ih.2.trans hquiet⟩

/-- The job that was found is no job of this provider. -/
def refused : SellerCore :=
  ((found.start 1 ⟨7, false, none, .created⟩).snapshotRead 1 ⟨7, false, none, .verifying⟩
    (.refused true))

theorem reachable_refused : Reachable refused :=
  (reachable_found.tail (.start rfl rfl)).tail (.snapshotRead rfl rfl (.refused true))

/-- Found once more, it is not delivered. -/
theorem settled_for_good_refused :
    Quiet 7 refused (refused.spawnSweep.swept 2 [7]) :=
  (settled_for_good reachable_refused (Or.inl (by decide))
    ((ReflTransGen.single .scan).tail (.swept (by decide) [7]))).2

end Seller
