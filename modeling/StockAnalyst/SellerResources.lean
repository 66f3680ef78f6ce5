import StockAnalyst.SellerOwnership

/-!
# What the seller holds

The contexts, specs, deadlines and events kept for jobs are bounded by the cap
and by the most deliveries that have been alive at once, over every run; the set
of the jobs that are handled is not.  The process is busy
while a delivery, a scan or a submit is under way, scans one at a time, and is
idle again when they are over.
-/

namespace Seller

open NotifySecurity (JobContext)

namespace SellerCore

/-! ## Retained state -/

/-- Inserting adds one key. -/
theorem keys_insert {α : Type} (d : Dict α) (job : JobId) (a : α) :
    (d.insert job a).keys = insert job d.keys := by
  ext k
  simp only [Finmap.mem_keys, Finmap.mem_insert, Finset.mem_insert]

/-- Erasing jobs takes out their keys. -/
theorem keys_foldl_erase {α : Type} (gone : List JobId) (d : Dict α) :
    (gone.foldl (fun d job => d.erase job) d).keys = d.keys \ gone.toFinset := by
  ext k
  rw [Finmap.mem_keys, ← Finmap.lookup_isSome, lookup_foldl_erase, Finset.mem_sdiff,
    List.mem_toFinset, Finmap.mem_keys, ← Finmap.lookup_isSome]
  split
  · simp_all
  · simp_all

/-- What is evicted is no longer tracked. -/
theorem tracked_evict (s : SellerCore) (gone : List JobId) :
    (s.evict gone).tracked = s.tracked \ gone.toFinset := by
  rw [evict_eq]
  simp only [tracked, keys_foldl_erase, Finset.union_sdiff_distrib]

/-- No job is evicted twice. -/
theorem nodup_evictable {s : SellerCore} {order : List JobId} (h : Lists order s)
    (protect : JobId) : (s.evictable order protect).Nodup :=
  (List.mergeSort_perm _ _).nodup_iff.2 (h.1.filter _)

/-- What may be evicted is tracked, idle and not protected. -/
theorem mem_evictable {s : SellerCore} {order : List JobId} (h : Lists order s)
    {protect job : JobId} :
    job ∈ s.evictable order protect ↔
      job ∈ s.tracked ∧ job ∉ s.inflight ∪ s.pendingVerifiedHandoffs ∪ {protect} := by
  unfold evictable
  rw [List.mem_mergeSort, List.mem_filter, decide_eq_true_eq, ← List.mem_toFinset, h.2]

/-- Pruning leaves the cap, or what may not be evicted. -/
theorem card_tracked_prune {s : SellerCore} {order : List JobId} (h : Lists order s)
    (protect : JobId) :
    (s.prune order protect).tracked.card ≤
      max maxTrackedJobs
        (s.tracked ∩ (s.inflight ∪ s.pendingVerifiedHandoffs ∪ {protect})).card := by
  let protected' := s.inflight ∪ s.pendingVerifiedHandoffs ∪ {protect}
  let free := s.evictable order protect
  have hfree : free.toFinset = s.tracked \ protected' := by
    ext job
    rw [List.mem_toFinset, mem_evictable h, Finset.mem_sdiff]
  have hlength : free.length = (s.tracked \ protected').card := by
    rw [← hfree, List.toFinset_card_of_nodup (nodup_evictable h protect)]
  have hsplit := Finset.card_sdiff_add_card_inter s.tracked protected'
  have hgone : ((free.take (s.tracked.card - maxTrackedJobs)).toFinset).card =
      min (s.tracked.card - maxTrackedJobs) free.length := by
    rw [List.toFinset_card_of_nodup ((nodup_evictable h protect).sublist (List.take_sublist _ _)),
      List.length_take]
  have hsub : (free.take (s.tracked.card - maxTrackedJobs)).toFinset ⊆ s.tracked := by
    intro job hmem
    have hin := List.mem_of_mem_take (List.mem_toFinset.1 hmem)
    exact ((mem_evictable h).1 hin).1
  have hcard := Finset.card_sdiff_add_card_eq_card hsub
  have hpruned : (s.prune order protect).tracked =
      s.tracked \ (free.take (s.tracked.card - maxTrackedJobs)).toFinset :=
    tracked_evict s _
  rw [hpruned]
  show _ ≤ max maxTrackedJobs (s.tracked ∩ protected').card
  omega

/-- The protected job is spared. -/
theorem mem_tracked_prune {s : SellerCore} (order : List JobId) {protect : JobId}
    (h : protect ∈ s.tracked) : protect ∈ (s.prune order protect).tracked := by
  obtain ⟨gone, hgone, heq⟩ := prune_eq s order protect
  rw [heq, tracked_evict, Finset.mem_sdiff, List.mem_toFinset]
  exact ⟨h, fun hmem => (hgone protect hmem).2 rfl⟩

/-- Forgetting tracks nothing new. -/
theorem tracked_forget (s : SellerCore) (job : JobId) : (s.forget job).tracked ⊆ s.tracked := by
  have hforget : (s.forget job).tracked = s.tracked.erase job := by
    simp only [tracked, forget, Finmap.keys_erase, Finset.erase_union_distrib]
  rw [hforget]
  exact Finset.erase_subset _ _

/-- Installing a context tracks its job at most. -/
theorem tracked_install (s : SellerCore) (job : JobId) (context : JobContext)
    (spec : Option JobSpec) : (s.install job context spec).tracked ⊆ insert job s.tracked := by
  have hcontexts : (s.install job context spec).jobContexts.keys ⊆
      insert job s.jobContexts.keys := by
    unfold install
    simp only
    split
    · exact Finset.subset_insert _ _
    · rw [keys_insert]
  have hspecs : (s.install job context spec).jobSpecs.keys ⊆ insert job s.jobSpecs.keys := by
    unfold install
    simp only
    split
    · rw [keys_insert]
    · exact Finset.subset_insert _ _
  have hevents : (s.install job context spec).contextEvents.keys ⊆
      insert job s.contextEvents.keys := by
    unfold install
    simp only
    split
    · rw [keys_insert]
    · exact Finset.subset_insert _ _
  intro k hk
  simp only [tracked, Finset.mem_union] at hk
  simp only [tracked, Finset.mem_insert, Finset.mem_union]
  obtain ((hk | hk) | hk) | hk := hk
  · obtain rfl | hk := Finset.mem_insert.1 (hcontexts hk)
    · exact Or.inl rfl
    · exact Or.inr (Or.inl (Or.inl (Or.inl hk)))
  · obtain rfl | hk := Finset.mem_insert.1 (hspecs hk)
    · exact Or.inl rfl
    · exact Or.inr (Or.inl (Or.inl (Or.inr hk)))
  · exact Or.inr (Or.inl (Or.inr hk))
  · obtain rfl | hk := Finset.mem_insert.1 (hevents hk)
    · exact Or.inl rfl
    · exact Or.inr (Or.inr hk)

/-- Keeping a deadline tracks its job at most. -/
theorem tracked_keepGrace (s : SellerCore) (job : JobId) :
    (s.keepGrace job).tracked ⊆ insert job s.tracked := by
  intro k hk
  simp only [tracked, keepGrace, keys_insert, Finset.mem_union, Finset.mem_insert] at hk ⊢
  tauto

/-- Spawning a delivery tracks nothing. -/
theorem tracked_spawnJob (s : SellerCore) (job : JobId) (verified : Bool)
    (promised : Option JobContext) : (s.spawnJob job verified promised).tracked = s.tracked := by
  unfold spawnJob
  split
  · rfl
  · split
    · split
      · rfl
      · rfl
    · rfl

/-- Spawning a scan tracks nothing. -/
theorem tracked_spawnSweep (s : SellerCore) : s.spawnSweep.tracked = s.tracked := by
  unfold spawnSweep
  split
  · rfl
  · rfl

/-- A delivery that ends tracks nothing new. -/
theorem tracked_finish (s : SellerCore) (id : Nat) (w : Worker) (terminal : Bool) :
    (s.finish id w terminal).tracked ⊆ s.tracked := by
  unfold finish
  split
  · exact tracked_forget s w.job
  · split
    · rw [tracked_spawnJob]
      exact fun _ hmem => hmem
    · exact fun _ hmem => hmem

/-- Starting to work tracks nothing. -/
theorem tracked_doWorkAndSubmit (s : SellerCore) (id : Nat) (w : Worker)
    (spec : Option (Option JobSpec)) : (s.doWorkAndSubmit id w spec).tracked = s.tracked := by
  have hmarked : (if w.job ∈ s.jobContexts then s else s.markContextless w.job).tracked =
      s.tracked := by
    split
    · rfl
    · rfl
  cases spec with
  | none => exact hmarked
  | some spec => exact hmarked

/-- Deciding on a context tracks nothing new. -/
theorem tracked_contextDecided (s : SellerCore) (id : Nat) (w : Worker) (spec : Option JobSpec) :
    (s.contextDecided id w spec).tracked ⊆ s.tracked := by
  unfold contextDecided
  split
  · rw [tracked_doWorkAndSubmit]
  · split
    · exact tracked_finish s id w false
    · rw [tracked_doWorkAndSubmit]
      exact fun _ hmem => hmem

/-- Waiting for a context tracks the worker's job at most. -/
theorem tracked_awaitSweepContext (s : SellerCore) (id : Nat) (w : Worker)
    (spec : Option JobSpec) : (s.awaitSweepContext id w spec).tracked ⊆ insert w.job s.tracked := by
  unfold awaitSweepContext
  split
  · rw [tracked_doWorkAndSubmit]
    exact Finset.subset_insert _ _
  · split
    · exact (tracked_contextDecided _ id w spec).trans (tracked_keepGrace s w.job)
    · exact tracked_keepGrace s w.job

/-- Starting a delivery tracks nothing. -/
theorem tracked_start (s : SellerCore) (id : Nat) (w : Worker) :
    (s.start id w).tracked = s.tracked := by
  unfold start
  split
  · exact tracked_doWorkAndSubmit (s.keepMode w) id w _
  · rfl

/-- A scan tracks nothing. -/
theorem tracked_swept (s : SellerCore) (id : Nat) (jobs : List JobId) :
    (s.swept id jobs).tracked = s.tracked := by
  have hjobs : ∀ (jobs : List JobId) (s : SellerCore), (s.spawnJobs jobs).tracked = s.tracked := by
    intro jobs
    induction jobs with
    | nil => exact fun _ => rfl
    | cons job jobs ih => exact fun s => (ih _).trans (tracked_spawnJob s job false none)
  exact hjobs jobs s

end SellerCore

/-- What may not be evicted is in flight. -/
theorem Sound.protected_subset {s : SellerCore} (h : Sound s) (protect : JobId) :
    s.inflight ∪ s.pendingVerifiedHandoffs ∪ {protect} ⊆ insert protect s.inflight := by
  intro job hmem
  obtain hmem | hmem := Finset.mem_union.1 hmem
  · refine Finset.mem_insert_of_mem ?_
    obtain hmem | hmem := Finset.mem_union.1 hmem
    · exact hmem
    · by_contra hnot
      have hpending := h.pending job hmem
      rw [h.moded job hnot] at hpending
      cases hpending
  · exact Finset.mem_insert.2 (Or.inl (Finset.mem_singleton.1 hmem))

/-- What pruning leaves for a job that is protected. -/
theorem Sound.card_prune {s : SellerCore} (h : Sound s) {order : List JobId}
    (horder : Lists order s) (protect : JobId) :
    (s.prune order protect).tracked.card ≤
      max maxTrackedJobs (s.tracked ∩ insert protect s.inflight).card := by
  have hsub := Finset.card_le_card
    (Finset.inter_subset_inter (Finset.Subset.refl s.tracked) (h.protected_subset protect))
  exact (SellerCore.card_tracked_prune horder protect).trans (max_le_max_left _ hsub)

/-- A call tracks one job more than pruning leaves. -/
theorem Sound.card_commit {s : SellerCore} (h : Sound s) {n : Nat} (hn : s.inflight.card ≤ n)
    (hcard : s.tracked.card ≤ max maxTrackedJobs n + 1) {order : List JobId}
    (horder : Lists order s) (job : JobId) (context : JobContext) (spec : Option JobSpec) :
    (s.commit order job context spec).tracked.card ≤ max maxTrackedJobs n + 1 := by
  have hprune := h.card_prune horder job
  have hinter : (s.tracked ∩ insert job s.inflight).card ≤ s.inflight.card + 1 :=
    (Finset.card_le_card Finset.inter_subset_right).trans (Finset.card_insert_le _ _)
  have hpruned : (s.prune order job).tracked.card ≤ max maxTrackedJobs n + 1 := by omega
  unfold SellerCore.commit
  split
  · exact hcard
  · split
    · have hinstall := Finset.card_le_card
        (SellerCore.tracked_install (s.prune order job) job context spec)
      by_cases htracked : job ∈ s.tracked
      · have hkept := SellerCore.mem_tracked_prune order htracked
        rw [Finset.insert_eq_of_mem hkept] at hinstall
        exact hinstall.trans hpruned
      · have hsmall : (s.tracked ∩ insert job s.inflight).card ≤ s.inflight.card := by
          refine Finset.card_le_card ?_
          intro k hk
          obtain ⟨hold, hin⟩ := Finset.mem_inter.1 hk
          obtain rfl | hin := Finset.mem_insert.1 hin
          · exact absurd hold htracked
          · exact hin
        have hinsert := Finset.card_insert_le job (s.prune order job).tracked
        omega
    · exact hpruned

/-- A reported job is tracked after the pruning, so the bound holds. -/
theorem Sound.card_fundedReported {s : SellerCore} (h : Sound s) {n : Nat}
    (hn : s.inflight.card ≤ n) {id : Nat} {w : Worker} (hw : s.workers id = some w)
    {spec : Option JobSpec} {order : List JobId} (horder : Lists order (s.setSpec w.job spec)) :
    (s.fundedReported order id w spec).tracked.card ≤ max maxTrackedJobs n + 1 := by
  have hsound : Sound (s.setSpec w.job spec) := { h with }
  have hprune := hsound.card_prune horder w.job
  have hin : insert w.job (s.setSpec w.job spec).inflight = s.inflight :=
    Finset.insert_eq_of_mem (h.mem_inflight hw)
  have hinter : ((s.setSpec w.job spec).tracked ∩
      insert w.job (s.setSpec w.job spec).inflight).card ≤ s.inflight.card := by
    rw [hin]
    exact Finset.card_le_card Finset.inter_subset_right
  have hawait := (Finset.card_le_card (SellerCore.tracked_awaitSweepContext
    ((s.setSpec w.job spec).prune order w.job) id w spec)).trans (Finset.card_insert_le _ _)
  unfold SellerCore.fundedReported
  omega

/-- **No step exceeds the bound** while at most `n` deliveries are alive. -/
theorem Sound.card_step {s s' : SellerCore} (h : Sound s) {n : Nat} (hn : s.inflight.card ≤ n)
    (hcard : s.tracked.card ≤ max maxTrackedJobs n + 1) (hstep : Step s s') :
    s'.tracked.card ≤ max maxTrackedJobs n + 1 := by
  have hsub : ∀ {t : SellerCore}, t.tracked ⊆ s.tracked →
      t.tracked.card ≤ max maxTrackedJobs n + 1 :=
    fun hsub => (Finset.card_le_card hsub).trans hcard
  cases hstep with
  | scan =>
      refine hsub ?_
      rw [SellerCore.tracked_spawnSweep]
  | commit horder job context spec => exact h.card_commit hn hcard horder job context spec
  | @reported id call hcall =>
      refine hsub ?_
      unfold SellerCore.reported
      rw [SellerCore.tracked_spawnSweep, SellerCore.tracked_spawnJob]
      exact fun _ hmem => hmem
  | callCancelled id => exact hcard
  | start hw hstage =>
      refine hsub ?_
      rw [SellerCore.tracked_start]
  | snapshotRead hw hstage verdict =>
      cases verdict with
      | verified spec => exact hcard
      | refused permanent => exact hsub (SellerCore.tracked_finish _ _ _ _)
  | fundedReported hw hstage horder => exact h.card_fundedReported hn hw horder
  | contextWaitOver hw hstage _ => exact hsub (SellerCore.tracked_contextDecided _ _ _ _)
  | specRead hw hstage spec => exact hcard
  | workDone hw hstage content => exact hcard
  | threadEnds _ _ _ => exact hcard
  | submitReturns hw _ _ _ =>
      rw [submitReturns_eq]
      exact hsub (SellerCore.tracked_finish _ _ _ _)
  | raises hw _ => exact hsub (SellerCore.tracked_finish _ _ _ _)
  | cancel hw _ =>
      unfold SellerCore.cancel
      split
      · exact hcard
      · exact hsub (SellerCore.tracked_finish _ _ _ _)
  | swept _ jobs =>
      refine hsub ?_
      rw [SellerCore.tracked_swept]
  | discard _ _ => exact hcard
  | later d => exact hcard

/-- **Retained state is bounded.**  In a run in which at most `n` deliveries
are alive at once, a context, a spec, a deadline or an event is kept for no more
than the cap or `n` jobs, whichever is more, and one beyond, however many jobs
are notified or found. -/
theorem tracked_bounded {n : Nat} {s : SellerCore}
    (h : Reaches (fun s => s.inflight.card ≤ n) s) :
    s.tracked.card ≤ max maxTrackedJobs n + 1 := by
  have hboth : s.inflight.card ≤ n ∧ s.tracked.card ≤ max maxTrackedJobs n + 1 := by
    induction h with
    | init h => exact ⟨h, Nat.zero_le _⟩
    | step hrun hstep h ih =>
        exact ⟨h, hrun.reachable.sound.card_step ih.1 ih.2 hstep⟩
  exact hboth.2

theorem tracked_bounded_found : found.tracked.card ≤ max maxTrackedJobs 1 + 1 :=
  tracked_bounded (n := 1) (((Reaches.init (by decide)).step .scan (by decide)).step
    (.swept (Finset.mem_singleton_self 0) [7]) (by decide))

/-! ## Being busy -/

/-- The tasks that are alive, and the scan among them. -/
structure Tallied (s : SellerCore) : Prop where
  workers : ∀ {i : Nat} {w : Worker}, s.workers i = some w → i ∈ s.tasks
  sweeps : s.sweeps ⊆ s.tasks
  scan : s.sweeps.card = if s.sweepActive then 1 else 0

/-- At first nothing is alive. -/
theorem Tallied.init : Tallied .init where
  workers := fun h => nomatch h
  sweeps := Finset.Subset.refl _
  scan := rfl

/-- A scan is spawned only where none runs. -/
theorem Tallied.spawnSweep {s : SellerCore} (h : Tallied s) : Tallied s.spawnSweep := by
  unfold SellerCore.spawnSweep
  split
  · exact h
  · rename_i hidle
    have hnone : s.sweeps = ∅ := by
      have hscan := h.scan
      rw [if_neg hidle] at hscan
      exact Finset.card_eq_zero.1 hscan
    refine ⟨fun hw => Finset.mem_insert_of_mem (h.workers hw), ?_, ?_⟩
    · exact Finset.insert_subset_insert _ h.sweeps
    · show (insert s.next s.sweeps).card = 1
      rw [hnone]
      rfl

/-- A spawned delivery is one more task. -/
theorem Tallied.spawnJob {s : SellerCore} (h : Tallied s) (job : JobId) (verified : Bool)
    (promised : Option JobContext) : Tallied (s.spawnJob job verified promised) := by
  unfold SellerCore.spawnJob
  split
  · exact h
  · split
    · split
      · exact { h with }
      · exact h
    · refine ⟨?_, h.sweeps.trans (Finset.subset_insert _ _), h.scan⟩
      intro i w hw
      obtain ⟨rfl, rfl⟩ | ⟨_, hw⟩ := update_eq_some.1 hw
      · exact Finset.mem_insert_self _ _
      · exact Finset.mem_insert_of_mem (h.workers hw)

/-- Pruning touches no task. -/
theorem Tallied.prune {s : SellerCore} (h : Tallied s) (order : List JobId) (protect : JobId) :
    Tallied (s.prune order protect) := by
  obtain ⟨gone, _, heq⟩ := prune_eq s order protect
  rw [heq, evict_eq]
  exact { h with }

/-- A new stage leaves the tasks as they are. -/
theorem Tallied.setStage {s : SellerCore} (h : Tallied s) {id : Nat} {w : Worker}
    (hw : s.workers id = some w) (stage : Stage) : Tallied (s.setStage id w stage) := by
  refine { h with workers := ?_ }
  intro i v hv
  obtain ⟨rfl, rfl⟩ | ⟨_, hv⟩ := setStage_workers.1 hv
  · have hmem : i ∈ s.tasks := h.workers hw
    exact hmem
  · exact h.workers hv

/-- A worker that ends leaves its task to the callback. -/
theorem Tallied.finish {s : SellerCore} (h : Tallied s) (id : Nat) (w : Worker)
    (terminal : Bool) : Tallied (s.finish id w terminal) := by
  have hfreed : Tallied (s.freed id w) :=
    { h with workers := fun hv => h.workers (update_none_eq_some.1 hv).2 }
  unfold SellerCore.finish
  split
  · exact { hfreed with }
  · split
    · exact hfreed.spawnJob w.job true none
    · exact hfreed

/-- Starting to work leaves the tasks as they are. -/
theorem Tallied.doWorkAndSubmit {s : SellerCore} (h : Tallied s) {id : Nat} {w : Worker}
    (hw : s.workers id = some w) (spec : Option (Option JobSpec)) :
    Tallied (s.doWorkAndSubmit id w spec) := by
  have hmarked : Tallied (if w.job ∈ s.jobContexts then s else s.markContextless w.job) ∧
      (if w.job ∈ s.jobContexts then s else s.markContextless w.job).workers id = some w := by
    split
    · exact ⟨h, hw⟩
    · exact ⟨{ h with }, hw⟩
  cases spec with
  | none => exact hmarked.1.setStage hmarked.2 _
  | some spec =>
      have hstage := hmarked.1.setStage hmarked.2 (.working (s.jobContexts.lookup w.job))
      exact { hstage with }

/-- Deciding on a context leaves the tasks as they are. -/
theorem Tallied.contextDecided {s : SellerCore} (h : Tallied s) {id : Nat} {w : Worker}
    (hw : s.workers id = some w) (spec : Option JobSpec) :
    Tallied (s.contextDecided id w spec) := by
  unfold SellerCore.contextDecided
  split
  · exact h.doWorkAndSubmit hw _
  · rename_i hcontext
    split
    · exact h.finish id w false
    · rw [doWorkAndSubmit_marked hcontext]
      exact h.doWorkAndSubmit hw _

/-- A reported job leaves the tasks as they are. -/
theorem Tallied.fundedReported {s : SellerCore} (h : Tallied s) {id : Nat} {w : Worker}
    (hw : s.workers id = some w) (order : List JobId) (spec : Option JobSpec) :
    Tallied (s.fundedReported order id w spec) := by
  have hspec : Tallied (s.setSpec w.job spec) := { h with }
  have hpruned := hspec.prune order w.job
  have hworker := (congrFun (prune_workers (s.setSpec w.job spec) order w.job) id).trans hw
  unfold SellerCore.fundedReported
  generalize (s.setSpec w.job spec).prune order w.job = p at hpruned hworker ⊢
  have hgrace : Tallied (p.keepGrace w.job) := { hpruned with }
  have hworkerg : (p.keepGrace w.job).workers id = some w := hworker
  unfold SellerCore.awaitSweepContext
  split
  · exact hpruned.doWorkAndSubmit hworker _
  · split
    · exact hgrace.contextDecided hworkerg spec
    · exact hgrace.setStage hworkerg _

/-- A scan that ends spawns a task for each job it has found. -/
theorem Tallied.swept {s : SellerCore} (h : Tallied s) {id : Nat} (hid : id ∈ s.sweeps)
    (jobs : List JobId) : Tallied (s.swept id jobs) := by
  have hspawned : ∀ (jobs : List JobId) {s : SellerCore}, Tallied s →
      Tallied (s.spawnJobs jobs) ∧ (s.spawnJobs jobs).sweeps = s.sweeps ∧
        (s.spawnJobs jobs).sweepActive = s.sweepActive := by
    intro jobs
    induction jobs with
    | nil => exact fun h => ⟨h, rfl, rfl⟩
    | cons job jobs ih =>
        intro s h
        obtain ⟨htallied, hsweeps, hactive⟩ := ih (h.spawnJob job false none)
        have hsame : (s.spawnJob job false none).sweeps = s.sweeps ∧
            (s.spawnJob job false none).sweepActive = s.sweepActive := by
          unfold SellerCore.spawnJob
          split
          · exact ⟨rfl, rfl⟩
          · split
            · split
              · exact ⟨rfl, rfl⟩
              · exact ⟨rfl, rfl⟩
            · exact ⟨rfl, rfl⟩
        exact ⟨htallied, hsweeps.trans hsame.1, hactive.trans hsame.2⟩
  obtain ⟨htallied, hsweeps, hactive⟩ := hspawned jobs h
  have hone : s.sweeps.card ≤ 1 := by
    rw [h.scan]
    split
    · exact Nat.le_refl 1
    · exact Nat.zero_le 1
  have hnone : ((s.spawnJobs jobs).sweeps.erase id).card = 0 := by
    rw [hsweeps, Finset.card_erase_of_mem hid]
    omega
  unfold SellerCore.swept
  exact ⟨htallied.workers, (Finset.erase_subset _ _).trans htallied.sweeps, hnone⟩

/-- Every step keeps the tally. -/
theorem Tallied.step {s s' : SellerCore} (h : Tallied s) (hstep : Step s s') : Tallied s' := by
  cases hstep with
  | scan => exact h.spawnSweep
  | @commit order horder job context spec =>
      have hpruned := h.prune order job
      unfold SellerCore.commit
      split
      · exact h
      · split
        · exact { hpruned with }
        · exact hpruned
  | @reported id call hcall =>
      have hcalled : Tallied (s.endCall id) := { h with }
      exact (hcalled.spawnJob _ _ _).spawnSweep
  | callCancelled id => exact { h with }
  | @start id w hw hstage =>
      have hmode : Tallied (s.keepMode w) := { h with }
      have hworker : (s.keepMode w).workers id = some w := hw
      unfold SellerCore.start
      split
      · exact hmode.doWorkAndSubmit hworker _
      · exact hmode.setStage hworker _
  | snapshotRead hw hstage verdict =>
      cases verdict with
      | verified spec => exact h.setStage hw _
      | refused permanent => exact h.finish _ _ permanent
  | fundedReported hw hstage _ => exact h.fundedReported hw _ _
  | contextWaitOver hw hstage _ => exact h.contextDecided hw _
  | @specRead id w context hw hstage spec =>
      have hworking := h.setStage hw (.working context)
      exact { hworking with }
  | @workDone id w context hw hstage content =>
      have hsubmitting := h.setStage hw (.submitting context s.next false)
      exact { hsubmitting with }
  | threadEnds _ _ _ => exact { h with }
  | submitReturns hw _ _ _ =>
      rw [submitReturns_eq]
      exact h.finish _ _ _
  | raises hw _ => exact h.finish _ _ false
  | cancel hw _ =>
      unfold SellerCore.cancel
      split
      · exact h.setStage hw _
      · exact h.finish _ _ false
  | swept hid jobs => exact h.swept hid jobs
  | @discard id hworker hsweep =>
      refine ⟨?_, ?_, h.scan⟩
      · intro i w hw
        refine Finset.mem_erase.2 ⟨?_, h.workers hw⟩
        rintro rfl
        rw [hworker] at hw
        cases hw
      · intro i hi
        refine Finset.mem_erase.2 ⟨?_, h.sweeps hi⟩
        rintro rfl
        exact hsweep hi
  | later d => exact { h with }

/-- Every reachable process is tallied. -/
theorem Reachable.tallied {s : SellerCore} (h : Reachable s) : Tallied s := by
  induction h with
  | refl => exact .init
  | tail _ hstep ih => exact ih.step hstep

/-- A step that is a done callback. -/
structure Discards (s s' : SellerCore) : Prop where
  step : Step s s'
  discarded : ∃ id, s' = { s with tasks := s.tasks.erase id }

/-- When no task is alive the done callbacks empty the set. -/
theorem idle_of_callbacks {s : SellerCore} (hworkers : ∀ i, s.workers i = none)
    (hsweeps : s.sweeps = ∅) : ∃ s', Relation.ReflTransGen Discards s s' ∧ s'.isBusy = false := by
  have hcallbacks : ∀ (tasks : Finset Nat) {s : SellerCore}, (∀ i, s.workers i = none) →
      s.sweeps = ∅ → s.tasks = tasks →
      ∃ s', Relation.ReflTransGen Discards s s' ∧ s'.isBusy = false := by
    intro tasks
    induction tasks using Finset.induction_on with
    | empty =>
        intro s _ _ htasks
        refine ⟨s, .refl, ?_⟩
        unfold SellerCore.isBusy
        exact decide_eq_false fun hne => hne htasks
    | insert id tasks hid ih =>
        intro s hworkers hsweeps htasks
        have hfirst : Discards s { s with tasks := s.tasks.erase id } :=
          ⟨.discard (hworkers id) (hsweeps ▸ Finset.notMem_empty id), id, rfl⟩
        have hrest : s.tasks.erase id = tasks := by
          rw [htasks, Finset.erase_insert hid]
        have hidle : ∃ s', Relation.ReflTransGen Discards
            { s with tasks := s.tasks.erase id } s' ∧ s'.isBusy = false :=
          ih hworkers hsweeps hrest
        obtain ⟨s', hrun, hbusy⟩ := hidle
        exact ⟨s', .head hfirst hrun, hbusy⟩
  exact hcallbacks s.tasks hworkers hsweeps rfl

/-- **Busy while it works, idle when it is done.**  The process is busy while a
delivery or a scan is alive or a thread submits, also one whose delivery was
cancelled; it scans once at a time; and when nothing is alive the callbacks
that are left make it idle. -/
theorem busy_while_working {s : SellerCore} (h : Reachable s) :
    (∀ i w, s.workers i = some w → s.isBusy = true) ∧
    (∀ id ∈ s.sweeps, s.isBusy = true) ∧
    (∀ t thread, s.threads t = some thread → thread.outcome = none → s.isBusy = true) ∧
    s.sweeps.card ≤ 1 ∧ (s.sweepActive = true ↔ s.sweeps.Nonempty) ∧
    ((∀ i, s.workers i = none) → s.sweeps = ∅ →
      ∃ s', Relation.ReflTransGen Discards s s' ∧ s'.isBusy = false) := by
  have ht := h.tallied
  have hbusy : ∀ {i : Nat}, i ∈ s.tasks → s.isBusy = true := by
    intro i hi
    unfold SellerCore.isBusy
    exact decide_eq_true (Finset.ne_empty_of_mem hi)
  refine ⟨fun i w hw => hbusy (ht.workers hw), fun id hid => hbusy (ht.sweeps hid), ?_, ?_, ?_,
    idle_of_callbacks⟩
  · intro t thread hthread hrunning
    obtain ⟨i, w, hw, _⟩ := h.sound.thread hthread (Or.inl hrunning)
    exact hbusy (ht.workers hw)
  · rw [ht.scan]
    split
    · exact Nat.le_refl 1
    · exact Nat.zero_le 1
  · have hscan := ht.scan
    rw [← Finset.card_pos, hscan]
    cases s.sweepActive with
    | true => decide
    | false => decide

theorem busy_while_working_found : found.isBusy = true :=
  (busy_while_working reachable_found).1 1 ⟨7, false, none, .created⟩ rfl

end Seller
