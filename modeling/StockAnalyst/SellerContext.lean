import StockAnalyst.SellerDelivery

/-!
# A delivery and the context of its job

Work for a job is done with a context that a call has verified for that job,
with the one whose call has spawned the delivery where a call did, and never
without one where the terms require it.  What can come between is the pruning:
the state of a job may be evicted while its call reports the funded job.
-/

namespace Seller

open NotifySecurity (JobContext)

/-- What a verified delivery works with: a context of the digest promised, or
the state of its job has been evicted. -/
def Kept (evicted : List JobId) (job : JobId) (promised context : Option JobContext) : Prop :=
  (∃ c, context = some c ∧ ∀ p, promised = some p → c.digest = p.digest) ∨ job ∈ evicted

/-- What is said of one call of `_run_work`. -/
structure Allowed (committed : List (JobId × JobContext)) (evicted : List JobId) (work : Work) :
    Prop where
  verified : ∀ c, work.context = some c → (work.job, c) ∈ committed
  required : requiresNotifyContext work.spec = true → work.context = none →
    work.verified = true ∧ work.job ∈ evicted
  promised : ∀ p, work.promised = some p →
    (∃ c, work.context = some c ∧ c.digest = p.digest) ∨ work.job ∈ evicted

/-- What holds of the contexts between two segments. -/
structure Vouched (s : SellerCore) : Prop where
  contexts : ∀ job c, s.jobContexts.lookup job = some c → (job, c) ∈ s.committed
  calls : ∀ {id : Nat} {call : NotifyCall}, s.calls id = some call →
    call.job ∈ s.handled ∨
      Kept s.evicted call.job (some call.context) (s.jobContexts.lookup call.job)
  created : ∀ {i : Nat} {w : Worker}, s.workers i = some w → w.verified = true →
    w.stage = .created → Kept s.evicted w.job w.promised (s.jobContexts.lookup w.job)
  begun : ∀ {i : Nat} {w : Worker} {c : Option JobContext}, s.workers i = some w →
    w.verified = true → w.stage.begun = some c → Kept s.evicted w.job w.promised c
  /-- A delivery of the sweep has its spec when it begins. -/
  sweeping : ∀ {i : Nat} {w : Worker}, s.workers i = some w → w.verified = false →
    w.promised = none ∧ ∀ c, w.stage ≠ .readingSpec c
  /-- Only a delivery of the sweep verifies and waits. -/
  verifying : ∀ {i : Nat} {w : Worker}, s.workers i = some w → w.verified = true →
    w.stage = .created ∨ w.stage.begun ≠ none
  works : ∀ work ∈ s.works, Allowed s.committed s.evicted work

/-- What was kept counts as kept when more is evicted. -/
theorem Kept.mono {evicted evicted' : List JobId} {job : JobId}
    {promised context : Option JobContext} (h : Kept evicted job promised context)
    (hsub : ∀ job ∈ evicted, job ∈ evicted') : Kept evicted' job promised context := by
  obtain hcontext | hmem := h
  · exact Or.inl hcontext
  · exact Or.inr (hsub job hmem)

/-- Allowed work stays allowed when more is verified or evicted. -/
theorem Allowed.mono {committed committed' : List (JobId × JobContext)}
    {evicted evicted' : List JobId} {work : Work} (h : Allowed committed evicted work)
    (hcommitted : ∀ e ∈ committed, e ∈ committed') (hsub : ∀ job ∈ evicted, job ∈ evicted') :
    Allowed committed' evicted' work where
  verified := fun c hc => hcommitted _ (h.verified c hc)
  required := by
    intro hspec hnone
    obtain ⟨hverified, hmem⟩ := h.required hspec hnone
    exact ⟨hverified, hsub _ hmem⟩
  promised := by
    intro p hp
    obtain hcontext | hmem := h.promised p hp
    · exact Or.inl hcontext
    · exact Or.inr (hsub _ hmem)

/-- At first there is no work. -/
theorem Vouched.init : Vouched .init where
  contexts := fun _ _ h => nomatch h
  calls := fun h => nomatch h
  created := fun h => nomatch h
  begun := fun h => nomatch h
  sweeping := fun h => nomatch h
  verifying := fun h => nomatch h
  works := fun _ h => nomatch h

/-! ## The segments -/

/-- A scan has no context. -/
theorem Vouched.spawnSweep {s : SellerCore} (h : Vouched s) : Vouched s.spawnSweep := by
  unfold SellerCore.spawnSweep
  split
  · exact h
  · exact { h with }

/-- A delivery is spawned with the context it was promised. -/
theorem Vouched.spawnJob {s : SellerCore} (h : Vouched s) (job : JobId) {verified : Bool}
    {promised : Option JobContext}
    (hkept : job ∉ s.handled → verified = true →
      Kept s.evicted job promised (s.jobContexts.lookup job))
    (hsweep : verified = false → promised = none) : Vouched (s.spawnJob job verified promised) := by
  unfold SellerCore.spawnJob
  split
  · exact h
  · rename_i hdone
    split
    · split
      · exact { h with }
      · exact h
    · refine { h with created := ?_, begun := ?_, sweeping := ?_, verifying := ?_ }
      · intro i w hw hverified hstage
        obtain ⟨rfl, rfl⟩ | ⟨_, hw⟩ := update_eq_some.1 hw
        · exact hkept (fun hmem => hdone (Or.inl hmem)) hverified
        · exact h.created hw hverified hstage
      · intro i w c hw hverified hc
        obtain ⟨rfl, rfl⟩ | ⟨_, hw⟩ := update_eq_some.1 hw
        · cases hc
        · exact h.begun hw hverified hc
      · intro i w hw hverified
        obtain ⟨rfl, rfl⟩ | ⟨_, hw⟩ := update_eq_some.1 hw
        · refine ⟨hsweep hverified, ?_⟩
          intro c hc
          cases hc
        · exact h.sweeping hw hverified
      · intro i w hw hverified
        obtain ⟨rfl, rfl⟩ | ⟨_, hw⟩ := update_eq_some.1 hw
        · exact Or.inl rfl
        · exact h.verifying hw hverified

/-- What pruning takes away is noted as evicted. -/
theorem Vouched.prune {s : SellerCore} (h : Vouched s) (order : List JobId) (protect : JobId) :
    Vouched (s.prune order protect) := by
  obtain ⟨gone, _, heq⟩ := prune_eq s order protect
  rw [heq, evict_eq]
  have hsub : ∀ job ∈ s.evicted, job ∈ gone ++ s.evicted :=
    fun _ hmem => List.mem_append_right _ hmem
  have hlookup := lookup_foldl_erase gone s.jobContexts
  have hkept : ∀ {job : JobId} {promised : Option JobContext},
      Kept s.evicted job promised (s.jobContexts.lookup job) →
      Kept (gone ++ s.evicted) job promised
        ((gone.foldl (fun d job => d.erase job) s.jobContexts).lookup job) := by
    intro job promised hkept
    by_cases hmem : job ∈ gone
    · exact Or.inr (List.mem_append_left _ hmem)
    · rw [hlookup, if_neg hmem]
      exact hkept.mono hsub
  refine { h with contexts := ?_, calls := ?_, created := ?_, begun := ?_, works := ?_ }
  · intro job c hc
    have hgone := hlookup job
    split at hgone
    · rw [hgone] at hc
      cases hc
    · exact h.contexts job c (hgone.symm.trans hc)
  · intro id call hcall
    obtain hmem | hk := h.calls hcall
    · exact Or.inl hmem
    · exact Or.inr (hkept hk)
  · intro i w hw hverified hstage
    exact hkept (h.created hw hverified hstage)
  · intro i w c hw hverified hc
    exact (h.begun hw hverified hc).mono hsub
  · intro work hwork
    exact (h.works work hwork).mono (fun _ hmem => hmem) hsub

/-- An accepted context is one that was verified. -/
theorem Vouched.install {s : SellerCore} (h : Vouched s) {job : JobId} {context : JobContext}
    (hanswer : s.commitAnswer job context = .accepted) (spec : Option JobSpec) :
    Vouched (s.install job context spec) := by
  obtain ⟨_, hdigest⟩ := commitAnswer_accepted.1 hanswer
  have hsub : ∀ e ∈ s.committed, e ∈ (job, context) :: s.committed :=
    fun _ hmem => List.mem_cons_of_mem _ hmem
  have hkept : ∀ {k : JobId} {promised : Option JobContext},
      Kept s.evicted k promised (s.jobContexts.lookup k) →
      Kept s.evicted k promised
        ((s.install job context spec).jobContexts.lookup k) := by
    intro k promised hk
    obtain ⟨c, hc, hp⟩ | hmem := hk
    · left
      refine ⟨c, (install_lookup ?_).trans hc, hp⟩
      by_cases hkjob : k = job
      · exact Or.inr (hkjob ▸ Finmap.mem_of_lookup_eq_some hc)
      · exact Or.inl hkjob
    · exact Or.inr hmem
  -- what the job has now is of the digest the call has verified
  have hown : ∃ c, (s.install job context spec).jobContexts.lookup job = some c ∧
      c.digest = context.digest ∧ (job, c) ∈ (job, context) :: s.committed := by
    by_cases hmem : job ∈ s.jobContexts
    · obtain ⟨c, hc⟩ := Finmap.mem_iff.1 hmem
      exact ⟨c, (install_lookup (Or.inr hmem)).trans hc, hdigest c hc, hsub _ (h.contexts job c hc)⟩
    · refine ⟨context, ?_, rfl, List.mem_cons_self⟩
      unfold SellerCore.install
      rw [if_neg hmem]
      exact Finmap.lookup_insert _
  refine { h with contexts := ?_, calls := ?_, created := ?_, works := ?_ }
  · intro k c hc
    by_cases hkjob : k = job
    · subst hkjob
      obtain ⟨own, hlookup, _, hmem⟩ := hown
      obtain rfl : own = c := Option.some.inj (hlookup.symm.trans hc)
      exact hmem
    · exact hsub _ (h.contexts k c ((install_lookup (Or.inl hkjob)).symm.trans hc))
  · intro id call hcall
    obtain ⟨rfl, rfl⟩ | ⟨_, hcall⟩ := update_eq_some.1 hcall
    · obtain ⟨own, hlookup, hsame, _⟩ := hown
      right
      left
      refine ⟨own, hlookup, ?_⟩
      intro p hp
      obtain rfl : context = p := Option.some.inj hp
      exact hsame
    · obtain hmem | hk := h.calls hcall
      · exact Or.inl hmem
      · exact Or.inr (hkept hk)
  · intro i w hw hverified hstage
    exact hkept (h.created hw hverified hstage)
  · intro work hwork
    exact (h.works work hwork).mono hsub (fun _ hmem => hmem)

/-- A call that commits has verified its context. -/
theorem Vouched.commit {s : SellerCore} (h : Vouched s) (order : List JobId) (job : JobId)
    (context : JobContext) (spec : Option JobSpec) :
    Vouched (s.commit order job context spec) := by
  unfold SellerCore.commit
  split
  · exact h
  · split
    · rename_i hanswer
      exact (h.prune order job).install hanswer spec
    · exact h.prune order job

/-- A task goes on. -/
theorem Vouched.setStage {s : SellerCore} (h : Vouched s) {id : Nat} {w : Worker}
    (hw : s.workers id = some w) (stage : Stage)
    (hverified : w.verified = true →
      ∃ c, stage.begun = some c ∧ Kept s.evicted w.job w.promised c)
    (hsweep : w.verified = false → ∀ c, stage ≠ .readingSpec c) :
    Vouched (s.setStage id w stage) := by
  refine { h with created := ?_, begun := ?_, sweeping := ?_, verifying := ?_ }
  · intro i v hv hvverified hvstage
    obtain ⟨rfl, rfl⟩ | ⟨_, hvold⟩ := setStage_workers.1 hv
    · obtain ⟨c, hc, _⟩ := hverified hvverified
      have hcreated : stage = .created := hvstage
      rw [hcreated] at hc
      cases hc
    · exact h.created hvold hvverified hvstage
  · intro i v c hv hvverified hc
    obtain ⟨rfl, rfl⟩ | ⟨_, hvold⟩ := setStage_workers.1 hv
    · obtain ⟨b, hb, hkept⟩ := hverified hvverified
      obtain rfl : b = c := Option.some.inj (hb.symm.trans hc)
      exact hkept
    · exact h.begun hvold hvverified hc
  · intro i v hv hvverified
    obtain ⟨rfl, rfl⟩ | ⟨_, hvold⟩ := setStage_workers.1 hv
    · exact ⟨(h.sweeping hw hvverified).1, hsweep hvverified⟩
    · exact h.sweeping hvold hvverified
  · intro i v hv hvverified
    obtain ⟨rfl, rfl⟩ | ⟨_, hvold⟩ := setStage_workers.1 hv
    · right
      obtain ⟨c, hc, _⟩ := hverified hvverified
      intro hnone
      have hnone' : stage.begun = none := hnone
      rw [hc] at hnone'
      cases hnone'
    · exact h.verifying hvold hvverified

/-- What a worker of the sweep begins with, and what a verified one does. -/
def Begins (evicted : List JobId) (w : Worker) (context : Option JobContext)
    (spec : Option (Option JobSpec)) : Prop :=
  if w.verified then Kept evicted w.job w.promised context
  else ∃ s, spec = some s ∧ (requiresNotifyContext s = true → context ≠ none)

/-- Work begins with a verified context. -/
theorem Vouched.runWork {s : SellerCore} (h : Vouched s) {id : Nat} {w : Worker}
    (hw : s.workers id = some w) {context : Option JobContext} {spec : Option JobSpec}
    (hcommitted : ∀ c, context = some c → (w.job, c) ∈ s.committed)
    (hbegins : Begins s.evicted w context (some spec)) :
    Vouched (s.runWork id w context spec) := by
  have hwork : Allowed s.committed s.evicted
      ⟨id, w.job, w.verified, w.promised, context, spec⟩ := by
    unfold Begins at hbegins
    cases hverified : w.verified with
    | true =>
        rw [hverified, if_pos rfl] at hbegins
        refine ⟨hcommitted, ?_, ?_⟩
        · intro _ hnone
          refine ⟨rfl, ?_⟩
          obtain ⟨c, hc, _⟩ | hmem := hbegins
          · rw [hc] at hnone
            cases hnone
          · exact hmem
        · intro p hp
          obtain ⟨c, hc, hdigest⟩ | hmem := hbegins
          · exact Or.inl ⟨c, hc, hdigest p hp⟩
          · exact Or.inr hmem
    | false =>
        rw [hverified, if_neg Bool.false_ne_true] at hbegins
        obtain ⟨own, hown, hrequired⟩ := hbegins
        obtain rfl : spec = own := Option.some.inj hown
        refine ⟨hcommitted, fun hspec hnone => absurd hnone (hrequired hspec), ?_⟩
        intro p hp
        rw [(h.sweeping hw hverified).1] at hp
        cases hp
  have hnoted : Vouched { s with
      works := ⟨id, w.job, w.verified, w.promised, context, spec⟩ :: s.works } := by
    refine { h with works := ?_ }
    intro work hmem
    obtain rfl | hmem := List.mem_cons.1 hmem
    · exact hwork
    · exact h.works work hmem
  refine hnoted.setStage hw (.working context) ?_ ?_
  · intro hverified
    unfold Begins at hbegins
    rw [if_pos hverified] at hbegins
    exact ⟨context, rfl, hbegins⟩
  · intro _ c hc
    cases hc

/-- Work begins with the context that is kept for the job. -/
theorem Vouched.doWorkAndSubmit {s : SellerCore} (h : Vouched s) {id : Nat} {w : Worker}
    (hw : s.workers id = some w) {spec : Option (Option JobSpec)}
    (hbegins : Begins s.evicted w (s.jobContexts.lookup w.job) spec) :
    Vouched (s.doWorkAndSubmit id w spec) := by
  have hmarked : Vouched (if w.job ∈ s.jobContexts then s else s.markContextless w.job) ∧
      (if w.job ∈ s.jobContexts then s else s.markContextless w.job).workers id = some w ∧
      (if w.job ∈ s.jobContexts then s else s.markContextless w.job).committed = s.committed ∧
      (if w.job ∈ s.jobContexts then s else s.markContextless w.job).evicted = s.evicted := by
    split
    · exact ⟨h, hw, rfl, rfl⟩
    · exact ⟨{ h with }, hw, rfl, rfl⟩
  obtain ⟨hsound, hworker, hcommitted, hevicted⟩ := hmarked
  cases spec with
  | none =>
      refine hsound.setStage hworker _ ?_ ?_
      · intro hverified
        unfold Begins at hbegins
        rw [if_pos hverified] at hbegins
        exact ⟨_, rfl, hevicted ▸ hbegins⟩
      · intro hverified
        unfold Begins at hbegins
        rw [hverified, if_neg Bool.false_ne_true] at hbegins
        obtain ⟨own, hown, _⟩ := hbegins
        cases hown
  | some spec =>
      refine hsound.runWork hworker ?_ (hevicted ▸ hbegins)
      intro c hc
      rw [hcommitted]
      exact h.contexts w.job c hc

/-- A delivery that ends leaves the contexts verified. -/
theorem Vouched.finish {s : SellerCore} (h : Vouched s) (hs : Sound s) {id : Nat} {w : Worker}
    (hw : s.workers id = some w) (terminal : Bool) : Vouched (s.finish id w terminal) := by
  have hfreed : Vouched (s.freed id w) :=
    { h with
      created := fun hv => h.created (update_none_eq_some.1 hv).2
      begun := fun hv => h.begun (update_none_eq_some.1 hv).2
      sweeping := fun hv => h.sweeping (update_none_eq_some.1 hv).2
      verifying := fun hv => h.verifying (update_none_eq_some.1 hv).2 }
  unfold SellerCore.finish
  split
  · refine { hfreed with contexts := ?_, calls := ?_, created := ?_ }
    · intro job c hc
      by_cases hjob : job = w.job
      · rw [hjob] at hc
        have hnone := hc.symm.trans (Finmap.lookup_erase w.job s.jobContexts)
        cases hnone
      · exact h.contexts job c ((Finmap.lookup_erase_ne hjob).symm.trans hc)
    · intro i call hcall
      by_cases hjob : call.job = w.job
      · exact Or.inl (hjob ▸ Finset.mem_insert_self _ _)
      · obtain hmem | hkept := h.calls hcall
        · exact Or.inl (Finset.mem_insert_of_mem hmem)
        · have hsame : (s.jobContexts.erase w.job).lookup call.job =
              s.jobContexts.lookup call.job := Finmap.lookup_erase_ne hjob
          exact Or.inr (hsame.symm ▸ hkept)
    · intro i v hv hverified hstage
      obtain ⟨hi, hv⟩ := update_none_eq_some.1 hv
      have hjob : v.job ≠ w.job := fun hjob => hi (hs.unique hv hw hjob)
      have hsame : (s.jobContexts.erase w.job).lookup v.job = s.jobContexts.lookup v.job :=
        Finmap.lookup_erase_ne hjob
      exact hsame.symm ▸ h.created hv hverified hstage
  · split
    · rename_i hhandoff
      obtain ⟨c, hc⟩ := Finmap.mem_iff.1 hhandoff.2.2
      refine hfreed.spawnJob w.job ?_ (fun _ => rfl)
      intro _ _
      left
      refine ⟨c, hc, ?_⟩
      intro p hp
      cases hp
    · exact hfreed

/-- What a delivery of the sweep may do once its wait is over. -/
theorem Vouched.contextDecided {s : SellerCore} (h : Vouched s) (hs : Sound s) {id : Nat}
    {w : Worker} (hw : s.workers id = some w) (hsweep : w.verified = false)
    (spec : Option JobSpec) : Vouched (s.contextDecided id w spec) := by
  have hbegins : ∀ {context : Option JobContext},
      (requiresNotifyContext spec = true → context ≠ none) →
      Begins s.evicted w context (some spec) := by
    intro context hrequired
    unfold Begins
    rw [hsweep, if_neg Bool.false_ne_true]
    exact ⟨spec, rfl, hrequired⟩
  unfold SellerCore.contextDecided
  split
  · rename_i hcontext
    exact h.doWorkAndSubmit hw
      (hbegins fun _ hnone => absurd hcontext (Finmap.lookup_eq_none.1 hnone))
  · rename_i hcontext
    split
    · exact h.finish hs hw false
    · rename_i hspec
      rw [doWorkAndSubmit_marked hcontext]
      exact h.doWorkAndSubmit hw (hbegins fun hrequired => absurd hrequired hspec)

/-- A job of a scan goes on with what is kept for it. -/
theorem Vouched.fundedReported {s : SellerCore} (h : Vouched s) (hs : Sound s) {id : Nat}
    {w : Worker} (hw : s.workers id = some w) (hsweep : w.verified = false)
    (order : List JobId) (spec : Option JobSpec) :
    Vouched (s.fundedReported order id w spec) := by
  have hspec : Vouched (s.setSpec w.job spec) := { h with }
  have hsound : Sound (s.setSpec w.job spec) := { hs with }
  have hpruned := hspec.prune order w.job
  have hsoundp := hsound.prune order w.job
  have hworker := (congrFun (prune_workers (s.setSpec w.job spec) order w.job) id).trans hw
  unfold SellerCore.fundedReported
  generalize (s.setSpec w.job spec).prune order w.job = p at hpruned hsoundp hworker ⊢
  have hgrace : Vouched (p.keepGrace w.job) := { hpruned with }
  have hsoundg : Sound (p.keepGrace w.job) := { hsoundp with }
  unfold SellerCore.awaitSweepContext
  split
  · rename_i hcontext
    refine hpruned.doWorkAndSubmit hworker ?_
    unfold Begins
    rw [hsweep, if_neg Bool.false_ne_true]
    exact ⟨spec, rfl, fun _ hnone => absurd hcontext (Finmap.lookup_eq_none.1 hnone)⟩
  · split
    · exact hgrace.contextDecided hsoundg hworker hsweep spec
    · refine hgrace.setStage hworker _ ?_ ?_
      · intro hverified
        rw [hsweep] at hverified
        cases hverified
      · intro _ c hc
        cases hc

/-- A started delivery goes on with what it was promised. -/
theorem Vouched.start {s : SellerCore} (h : Vouched s) {id : Nat} {w : Worker}
    (hw : s.workers id = some w) (hstage : w.stage = .created) : Vouched (s.start id w) := by
  have hmode : Vouched (s.keepMode w) := { h with }
  have hworker : (s.keepMode w).workers id = some w := hw
  unfold SellerCore.start
  split
  · rename_i hverified
    refine hmode.doWorkAndSubmit hworker ?_
    unfold Begins
    rw [if_pos hverified]
    exact h.created hw hverified hstage
  · rename_i hverified
    refine hmode.setStage hworker .verifying (fun htrue => absurd htrue hverified) ?_
    intro _ c hc
    cases hc

/-- A worker that awaits what only the sweep's deliveries await. -/
theorem Vouched.of_stage {s : SellerCore} (h : Vouched s) {i : Nat} {w : Worker}
    (hw : s.workers i = some w) (hcreated : w.stage ≠ .created) (hbegun : w.stage.begun = none) :
    w.verified = false := by
  by_contra hnot
  have hverified : w.verified = true := by simpa using hnot
  obtain hstage | hstage := h.verifying hw hverified
  · exact hcreated hstage
  · exact hstage hbegun

/-- **Every segment keeps it.** -/
theorem Vouched.step {s s' : SellerCore} (h : Vouched s) (hs : Sound s) (hstep : Step s s') :
    Vouched s' := by
  cases hstep with
  | scan => exact h.spawnSweep
  | commit _ job context spec => exact h.commit _ job context spec
  | @reported id call hcall =>
      have hcalled : Vouched (s.endCall id) :=
        { h with calls := fun hother => h.calls (update_none_eq_some.1 hother).2 }
      refine (hcalled.spawnJob call.job ?_ ?_).spawnSweep
      · intro hnot _
        obtain hmem | hkept := h.calls hcall
        · exact absurd hmem hnot
        · exact hkept
      · intro hfalse
        cases hfalse
  | callCancelled id =>
      exact { h with calls := fun hother => h.calls (update_none_eq_some.1 hother).2 }
  | start hw hstage => exact h.start hw hstage
  | snapshotRead hw hstage verdict =>
      have hsweep := h.of_stage hw (by rw [hstage]; intro hc; cases hc) (by rw [hstage]; rfl)
      cases verdict with
      | verified spec =>
          refine h.setStage hw (.reporting spec) ?_ ?_
          · intro hverified
            rw [hsweep] at hverified
            cases hverified
          · intro _ c hc
            cases hc
      | refused permanent => exact h.finish hs hw permanent
  | fundedReported hw hstage _ =>
      have hsweep := h.of_stage hw (by rw [hstage]; intro hc; cases hc) (by rw [hstage]; rfl)
      exact h.fundedReported hs hw hsweep _ _
  | contextWaitOver hw hstage _ =>
      have hsweep := h.of_stage hw (by rw [hstage]; intro hc; cases hc) (by rw [hstage]; rfl)
      exact h.contextDecided hs hw hsweep _
  | @specRead id w context hw hstage spec =>
      have hbegun : w.stage.begun = some context := by rw [hstage]; rfl
      refine h.runWork hw ?_ ?_
      · intro c hc
        exact h.contexts w.job c ((hs.begun hw hbegun).1.trans hc)
      · unfold Begins
        cases hverified : w.verified with
        | true =>
            rw [if_pos rfl]
            exact h.begun hw hverified hbegun
        | false => exact absurd hstage ((h.sweeping hw hverified).2 context)
  | @workDone id w context hw hstage content =>
      have hbegun : w.stage.begun = some context := by rw [hstage]; rfl
      have hsubmitting := h.setStage hw (.submitting context s.next false)
        (fun hverified => ⟨context, rfl, h.begun hw hverified hbegun⟩)
        (by
          intro _ c hc
          cases hc)
      exact { hsubmitting with }
  | threadEnds _ _ _ => exact { h with }
  | submitReturns hw _ _ _ =>
      rw [submitReturns_eq]
      exact h.finish hs hw _
  | raises hw _ => exact h.finish hs hw false
  | @cancel id w hw hstage =>
      unfold SellerCore.cancel
      split
      · rename_i context t cancelled hsub
        have hbegun : w.stage.begun = some context := by rw [hsub]; rfl
        refine h.setStage hw _ (fun hverified => ⟨context, rfl, h.begun hw hverified hbegun⟩) ?_
        intro _ c hc
        cases hc
      · exact h.finish hs hw false
  | @swept id _ jobs =>
      have hjobs : ∀ (jobs : List JobId) {s : SellerCore}, Vouched s →
          Vouched (s.spawnJobs jobs) := by
        intro jobs
        induction jobs with
        | nil => exact fun h => h
        | cons job jobs ih =>
            intro s h
            refine ih (h.spawnJob job ?_ (fun _ => rfl))
            intro _ hverified
            cases hverified
      exact { hjobs jobs h with }
  | discard _ _ => exact { h with }
  | later d => exact { h with }

/-- **Every reachable context was verified.** -/
theorem Reachable.vouched {s : SellerCore} (h : Reachable s) : Vouched s := by
  have hboth : Sound s ∧ Vouched s := by
    induction h with
    | refl => exact ⟨.init, .init⟩
    | tail _ hstep ih => exact ⟨ih.1.step hstep, ih.2.step ih.1 hstep⟩
  exact hboth.2

/-! ## The work of a submit -/

/-- What holds of the works, the threads and the workers that made them. -/
structure Traced (s : SellerCore) : Prop where
  past : ∀ work ∈ s.works, work.worker < s.next
  /-- A worker works once, -/
  once : (s.works.map (·.worker)).Nodup
  /-- and not before it is at work. -/
  idle : ∀ {i : Nat} {w : Worker}, s.workers i = some w → w.stage.workedWith = none →
    ∀ work ∈ s.works, work.worker ≠ i
  worked : ∀ {i : Nat} {w : Worker} {c : Option JobContext}, s.workers i = some w →
    w.stage.workedWith = some c →
      ∃ work ∈ s.works, work.worker = i ∧ work.job = w.job ∧ work.context = c
  submitting : ∀ {i t : Nat} {w : Worker} {context : Option JobContext} {cancelled : Bool},
    s.workers i = some w → w.stage = .submitting context t cancelled →
      ∃ thread, s.threads t = some thread ∧ thread.worker = i ∧ thread.job = w.job ∧
        thread.gatewayUrl = context.bind (·.gatewayUrl) ∧
        thread.gatewayToken = context.bind (·.gatewayToken)
  submitted : ∀ {t : Nat} {thread : SubmitThread}, s.threads t = some thread →
    ∃ work ∈ s.works, work.worker = thread.worker ∧ work.job = thread.job ∧
      thread.gatewayUrl = work.context.bind (·.gatewayUrl) ∧
      thread.gatewayToken = work.context.bind (·.gatewayToken)

/-- At first no work has been done. -/
theorem Traced.init : Traced .init where
  past := fun _ h => nomatch h
  once := List.nodup_nil
  idle := fun h => nomatch h
  worked := fun h => nomatch h
  submitting := fun h => nomatch h
  submitted := fun h => nomatch h

/-- A scan does no work. -/
theorem Traced.spawnSweep {s : SellerCore} (h : Traced s) : Traced s.spawnSweep := by
  unfold SellerCore.spawnSweep
  split
  · exact h
  · exact { h with past := fun work hmem => Nat.lt_succ_of_lt (h.past work hmem) }

/-- A new worker has done no work. -/
theorem Traced.spawnJob {s : SellerCore} (h : Traced s) (job : JobId) (verified : Bool)
    (promised : Option JobContext) : Traced (s.spawnJob job verified promised) := by
  unfold SellerCore.spawnJob
  split
  · exact h
  · split
    · split
      · exact { h with }
      · exact h
    · refine { h with past := ?_, idle := ?_, worked := ?_, submitting := ?_ }
      · exact fun work hmem => Nat.lt_succ_of_lt (h.past work hmem)
      · intro i w hw hstage
        obtain ⟨rfl, rfl⟩ | ⟨_, hw⟩ := update_eq_some.1 hw
        · exact fun work hmem => Nat.ne_of_lt (h.past work hmem)
        · exact h.idle hw hstage
      · intro i w c hw hworked
        obtain ⟨rfl, rfl⟩ | ⟨_, hw⟩ := update_eq_some.1 hw
        · cases hworked
        · exact h.worked hw hworked
      · intro i t w context cancelled hw hstage
        obtain ⟨rfl, rfl⟩ | ⟨_, hw⟩ := update_eq_some.1 hw
        · cases hstage
        · exact h.submitting hw hstage

/-- Pruning touches no work. -/
theorem Traced.prune {s : SellerCore} (h : Traced s) (order : List JobId) (protect : JobId) :
    Traced (s.prune order protect) := by
  obtain ⟨gone, _, heq⟩ := prune_eq s order protect
  rw [heq, evict_eq]
  exact { h with }

/-- A task that has not worked goes on to another await. -/
theorem Traced.setStage {s : SellerCore} (h : Traced s) {id : Nat} {w : Worker}
    (hw : s.workers id = some w) (hidle : w.stage.workedWith = none) {stage : Stage}
    (hstage : stage.workedWith = none) : Traced (s.setStage id w stage) := by
  refine { h with idle := ?_, worked := ?_, submitting := ?_ }
  · intro i v hv hvidle
    obtain ⟨rfl, rfl⟩ | ⟨_, hv⟩ := setStage_workers.1 hv
    · exact h.idle hw hidle
    · exact h.idle hv hvidle
  · intro i v c hv hworked
    obtain ⟨rfl, rfl⟩ | ⟨_, hv⟩ := setStage_workers.1 hv
    · have hnone := hstage.symm.trans hworked
      cases hnone
    · exact h.worked hv hworked
  · intro i t v context cancelled hv hsubmitting
    obtain ⟨rfl, rfl⟩ | ⟨_, hv⟩ := setStage_workers.1 hv
    · obtain rfl : stage = .submitting context t cancelled := hsubmitting
      cases hstage
    · exact h.submitting hv hsubmitting

/-- The one work of a worker. -/
theorem Traced.runWork {s : SellerCore} (h : Traced s) {id : Nat} {w : Worker}
    (hw : s.workers id = some w) (hlt : id < s.next) (hidle : w.stage.workedWith = none)
    (context : Option JobContext) (spec : Option JobSpec) :
    Traced (s.runWork id w context spec) where
  past := by
    intro work hmem
    obtain rfl | hmem := List.mem_cons.1 hmem
    · exact hlt
    · exact h.past work hmem
  once := by
    refine List.nodup_cons.2 ⟨?_, h.once⟩
    intro hmem
    obtain ⟨work, hwork, hid⟩ := List.mem_map.1 hmem
    exact h.idle hw hidle work hwork hid
  idle := by
    intro i v hv hvidle work hmem
    obtain ⟨rfl, rfl⟩ | ⟨hne, hv⟩ := setStage_workers.1 hv
    · cases hvidle
    · obtain rfl | hmem := List.mem_cons.1 hmem
      · exact hne.symm
      · exact h.idle hv hvidle work hmem
  worked := by
    intro i v c hv hworked
    obtain ⟨rfl, rfl⟩ | ⟨_, hv⟩ := setStage_workers.1 hv
    · obtain rfl : context = c := Option.some.inj hworked
      exact ⟨_, List.mem_cons_self, rfl, rfl, rfl⟩
    · obtain ⟨work, hmem, hrest⟩ := h.worked hv hworked
      exact ⟨work, List.mem_cons_of_mem _ hmem, hrest⟩
  submitting := by
    intro i t v c cancelled hv hsubmitting
    obtain ⟨rfl, rfl⟩ | ⟨_, hv⟩ := setStage_workers.1 hv
    · cases hsubmitting
    · exact h.submitting hv hsubmitting
  submitted := by
    intro t thread ht
    obtain ⟨work, hmem, hrest⟩ := h.submitted ht
    exact ⟨work, List.mem_cons_of_mem _ hmem, hrest⟩

/-- Work is noted under the worker that begins it. -/
theorem Traced.doWorkAndSubmit {s : SellerCore} (h : Traced s) {id : Nat} {w : Worker}
    (hw : s.workers id = some w) (hlt : id < s.next) (hidle : w.stage.workedWith = none)
    (spec : Option (Option JobSpec)) : Traced (s.doWorkAndSubmit id w spec) := by
  have hmarked : Traced (if w.job ∈ s.jobContexts then s else s.markContextless w.job) ∧
      (if w.job ∈ s.jobContexts then s else s.markContextless w.job).workers id = some w ∧
      (if w.job ∈ s.jobContexts then s else s.markContextless w.job).next = s.next := by
    split
    · exact ⟨h, hw, rfl⟩
    · exact ⟨{ h with }, hw, rfl⟩
  obtain ⟨htraced, hworker, hnext⟩ := hmarked
  cases spec with
  | none => exact htraced.setStage hworker hidle rfl
  | some spec => exact htraced.runWork hworker (hnext ▸ hlt) hidle _ spec

/-- A worker that ends leaves its work behind. -/
theorem Traced.finish {s : SellerCore} (h : Traced s) (id : Nat) (w : Worker)
    (terminal : Bool) : Traced (s.finish id w terminal) := by
  have hfreed : Traced (s.freed id w) :=
    { h with
      idle := fun hv => h.idle (update_none_eq_some.1 hv).2
      worked := fun hv => h.worked (update_none_eq_some.1 hv).2
      submitting := fun hv => h.submitting (update_none_eq_some.1 hv).2 }
  unfold SellerCore.finish
  split
  · exact { hfreed with }
  · split
    · exact hfreed.spawnJob w.job true none
    · exact hfreed

/-- Deciding on a context begins one work at most. -/
theorem Traced.contextDecided {s : SellerCore} (h : Traced s) {id : Nat} {w : Worker}
    (hw : s.workers id = some w) (hlt : id < s.next) (hidle : w.stage.workedWith = none)
    (spec : Option JobSpec) : Traced (s.contextDecided id w spec) := by
  unfold SellerCore.contextDecided
  split
  · exact h.doWorkAndSubmit hw hlt hidle _
  · rename_i hcontext
    split
    · exact h.finish id w false
    · rw [doWorkAndSubmit_marked hcontext]
      exact h.doWorkAndSubmit hw hlt hidle _

/-- A reported job begins one work at most. -/
theorem Traced.fundedReported {s : SellerCore} (h : Traced s) {id : Nat} {w : Worker}
    (hw : s.workers id = some w) (hlt : id < s.next) (hidle : w.stage.workedWith = none)
    (order : List JobId) (spec : Option JobSpec) :
    Traced (s.fundedReported order id w spec) := by
  have hspec : Traced (s.setSpec w.job spec) := { h with }
  have hpruned := hspec.prune order w.job
  have hworker := (congrFun (prune_workers (s.setSpec w.job spec) order w.job) id).trans hw
  have hnext : id < ((s.setSpec w.job spec).prune order w.job).next := by
    obtain ⟨gone, _, heq⟩ := prune_eq (s.setSpec w.job spec) order w.job
    rw [heq, evict_eq]
    exact hlt
  unfold SellerCore.fundedReported
  generalize (s.setSpec w.job spec).prune order w.job = p at hpruned hworker hnext ⊢
  have hgrace : Traced (p.keepGrace w.job) := { hpruned with }
  unfold SellerCore.awaitSweepContext
  split
  · exact hpruned.doWorkAndSubmit hworker hnext hidle _
  · split
    · exact hgrace.contextDecided hworker hnext hidle spec
    · exact hgrace.setStage hworker hidle rfl

/-- A submit is given the relay of the context its worker has worked with. -/
theorem Traced.submit {s : SellerCore} (h : Traced s) {id : Nat} {w : Worker}
    (hw : s.workers id = some w) {context : Option JobContext} (hstage : w.stage = .working context)
    (hnew : s.threads s.next = none) (content : Python.PyStr) :
    Traced (s.submit id w context content) := by
  have hown : w.stage.workedWith = some context := by rw [hstage]; rfl
  refine { past := ?_, once := h.once, idle := ?_, worked := ?_, submitting := ?_, submitted := ?_ }
  · exact fun work hmem => Nat.lt_succ_of_lt (h.past work hmem)
  · intro i v hv hvidle
    obtain ⟨rfl, rfl⟩ | ⟨_, hv⟩ := setStage_workers.1 hv
    · cases hvidle
    · exact h.idle hv hvidle
  · intro i v c hv hworked
    obtain ⟨rfl, rfl⟩ | ⟨_, hv⟩ := setStage_workers.1 hv
    · have hkept := h.worked hw (hown.trans hworked)
      exact hkept
    · exact h.worked hv hworked
  · intro i t v c cancelled hv hsubmitting
    obtain ⟨rfl, rfl⟩ | ⟨_, hv⟩ := setStage_workers.1 hv
    · obtain ⟨rfl, rfl, _⟩ := Stage.submitting.inj hsubmitting
      exact ⟨_, update_eq_some.2 (Or.inl ⟨rfl, rfl⟩), rfl, rfl, rfl, rfl⟩
    · obtain ⟨thread, ht, hrest⟩ := h.submitting hv hsubmitting
      have hne : t ≠ s.next := by
        rintro rfl
        rw [hnew] at ht
        cases ht
      exact ⟨thread, update_eq_some.2 (Or.inr ⟨hne, ht⟩), hrest⟩
  · intro t thread ht
    obtain ⟨rfl, rfl⟩ | ⟨_, ht⟩ := update_eq_some.1 ht
    · obtain ⟨work, hmem, hworker, hjob, hcontext⟩ := h.worked hw hown
      exact ⟨work, hmem, hworker, hjob, hcontext ▸ rfl, hcontext ▸ rfl⟩
    · exact h.submitted ht

/-- A thread that ends keeps what it was given. -/
theorem Traced.setThread {s : SellerCore} (h : Traced s) {t : Nat} {thread : SubmitThread}
    (ht : s.threads t = some thread) (outcome : Option SubmitOutcome) :
    Traced { s with
      threads := Function.update s.threads t (some { thread with outcome := outcome }) } := by
  refine { h with submitting := ?_, submitted := ?_ }
  · intro i k w context cancelled hw hstage
    obtain ⟨other, hk, hrest⟩ := h.submitting hw hstage
    by_cases hkt : k = t
    · subst hkt
      obtain rfl : thread = other := Option.some.inj (ht.symm.trans hk)
      exact ⟨_, update_eq_some.2 (Or.inl ⟨rfl, rfl⟩), hrest⟩
    · exact ⟨other, update_eq_some.2 (Or.inr ⟨hkt, hk⟩), hrest⟩
  · intro k other hk
    obtain ⟨rfl, rfl⟩ | ⟨_, hk⟩ := update_eq_some.1 hk
    · have hsubmitted := h.submitted ht
      exact hsubmitted
    · exact h.submitted hk

/-- A cancelled submit stays for its thread with the context it has. -/
theorem Traced.cancel {s : SellerCore} (h : Traced s) {id : Nat} {w : Worker}
    (hw : s.workers id = some w) : Traced (s.cancel id w) := by
  unfold SellerCore.cancel
  split
  · rename_i context t cancelled hstage
    have hown : w.stage.workedWith = some context := by rw [hstage]; rfl
    refine { h with idle := ?_, worked := ?_, submitting := ?_ }
    · intro i v hv hvidle
      obtain ⟨rfl, rfl⟩ | ⟨_, hv⟩ := setStage_workers.1 hv
      · cases hvidle
      · exact h.idle hv hvidle
    · intro i v c hv hworked
      obtain ⟨rfl, rfl⟩ | ⟨_, hv⟩ := setStage_workers.1 hv
      · have hkept := h.worked hw (hown.trans hworked)
        exact hkept
      · exact h.worked hv hworked
    · intro i k v c other hv hsubmitting
      obtain ⟨rfl, rfl⟩ | ⟨_, hv⟩ := setStage_workers.1 hv
      · obtain ⟨hcontext, hthread, _⟩ := Stage.submitting.inj hsubmitting
        have hwaits := h.submitting hw hstage
        rw [hcontext, hthread] at hwaits
        exact hwaits
      · exact h.submitting hv hsubmitting
  · exact h.finish id w false

/-- **Every segment keeps it.** -/
theorem Traced.step {s s' : SellerCore} (h : Traced s) (hs : Sound s) (hstep : Step s s') :
    Traced s' := by
  cases hstep with
  | scan => exact h.spawnSweep
  | @commit order horder job context spec =>
      have hpruned := h.prune order job
      unfold SellerCore.commit
      split
      · exact h
      · split
        · exact { hpruned with past := fun work hmem => Nat.lt_succ_of_lt (hpruned.past work hmem) }
        · exact hpruned
  | @reported id call hcall =>
      have hcalled : Traced (s.endCall id) := { h with }
      exact (hcalled.spawnJob _ _ _).spawnSweep
  | callCancelled id => exact { h with }
  | @start id w hw hstage =>
      have hmode : Traced (s.keepMode w) := { h with }
      have hidle : w.stage.workedWith = none := by rw [hstage]; rfl
      unfold SellerCore.start
      split
      · exact hmode.doWorkAndSubmit hw (hs.lt_next hw) hidle _
      · exact hmode.setStage hw hidle rfl
  | @snapshotRead id w hw hstage verdict =>
      have hidle : w.stage.workedWith = none := by rw [hstage]; rfl
      cases verdict with
      | verified spec => exact h.setStage hw hidle rfl
      | refused permanent => exact h.finish _ _ permanent
  | @fundedReported id w spec order hw hstage _ =>
      have hidle : w.stage.workedWith = none := by rw [hstage]; rfl
      exact h.fundedReported hw (hs.lt_next hw) hidle _ _
  | @contextWaitOver id w spec hw hstage _ =>
      have hidle : w.stage.workedWith = none := by rw [hstage]; rfl
      exact h.contextDecided hw (hs.lt_next hw) hidle _
  | @specRead id w context hw hstage spec =>
      have hidle : w.stage.workedWith = none := by rw [hstage]; rfl
      exact h.runWork hw (hs.lt_next hw) hidle _ _
  | workDone hw hstage content =>
      exact h.submit hw hstage (hs.fresh _ (Nat.le_refl _)).2.1 content
  | threadEnds hthread _ outcome => exact h.setThread hthread _
  | submitReturns _ _ _ _ =>
      rw [submitReturns_eq]
      exact h.finish _ _ _
  | raises _ _ => exact h.finish _ _ false
  | cancel hw _ => exact h.cancel hw
  | @swept id _ jobs =>
      have hjobs : ∀ (jobs : List JobId) {s : SellerCore}, Traced s →
          Traced (s.spawnJobs jobs) := by
        intro jobs
        induction jobs with
        | nil => exact fun h => h
        | cons job jobs ih => exact fun h => ih (h.spawnJob job false none)
      exact { hjobs jobs h with }
  | discard _ _ => exact { h with }
  | later d => exact { h with }

/-- **Every reachable thread is traced to its work.** -/
theorem Reachable.traced {s : SellerCore} (h : Reachable s) : Traced s := by
  have hboth : Sound s ∧ Traced s := by
    induction h with
    | refl => exact ⟨.init, .init⟩
    | tail _ hstep ih => exact ⟨ih.1.step hstep, ih.2.step ih.1 hstep⟩
  exact hboth.2

/-- **What a job is worked with.**  Every context that work is done with was
verified for its job by a call, or found by one with the digest it had
verified.  Where the terms require a context there is one, and the delivery a
call has spawned works with one of the digest the call has verified, as long as
the job's state was never evicted.  A delivery works once, and the thread it
then submits with has the relay of the context that its own work was done with,
which is the one it keeps while it waits for the thread. -/
theorem context_of_work {s : SellerCore} (h : Reachable s) :
    (∀ work ∈ s.works,
      (∀ c, work.context = some c → (work.job, c) ∈ s.committed) ∧
      (requiresNotifyContext work.spec = true → work.job ∉ s.evicted →
        ∃ c, work.context = some c) ∧
      (∀ p, work.promised = some p → work.job ∉ s.evicted →
        ∃ c, work.context = some c ∧ c.digest = p.digest)) ∧
    (s.works.map (·.worker)).Nodup ∧
    (∀ t thread, s.threads t = some thread →
      ∃ work ∈ s.works, work.worker = thread.worker ∧ work.job = thread.job ∧
        thread.gatewayUrl = work.context.bind (·.gatewayUrl) ∧
        thread.gatewayToken = work.context.bind (·.gatewayToken)) ∧
    (∀ i w context t cancelled, s.workers i = some w →
      w.stage = .submitting context t cancelled →
        (∃ work ∈ s.works, work.worker = i ∧ work.job = w.job ∧ work.context = context) ∧
        ∃ thread, s.threads t = some thread ∧ thread.worker = i ∧ thread.job = w.job ∧
          thread.gatewayUrl = context.bind (·.gatewayUrl) ∧
          thread.gatewayToken = context.bind (·.gatewayToken)) := by
  have hv := h.vouched
  have ht := h.traced
  refine ⟨?_, ht.once, fun t thread hthread => ht.submitted hthread, ?_⟩
  · intro work hwork
    have hallowed := hv.works work hwork
    refine ⟨hallowed.verified, ?_, ?_⟩
    · intro hspec hkept
      by_contra hnone
      have hcontext : work.context = none := by
        cases hcontext : work.context with
        | none => rfl
        | some c => exact absurd ⟨c, hcontext⟩ hnone
      exact hkept (hallowed.required hspec hcontext).2
    · intro p hp hkept
      obtain hcontext | hmem := hallowed.promised p hp
      · exact hcontext
      · exact absurd hmem hkept
  · intro i w context t cancelled hw hstage
    refine ⟨ht.worked hw ?_, ht.submitting hw hstage⟩
    rw [hstage]
    rfl

theorem context_of_work_submitted :
    (∃ work ∈ submitted.works, work.worker = 1 ∧ work.job = 7 ∧
      work.context = some relayContext) ∧
    ∃ thread, submitted.threads 3 = some thread ∧ thread.worker = 1 ∧ thread.job = 7 ∧
      thread.gatewayUrl = relayContext.gatewayUrl ∧
      thread.gatewayToken = relayContext.gatewayToken :=
  (context_of_work reachable_submitted).2.2.2 1
    ⟨7, true, some relayContext, .submitting (some relayContext) 3 false⟩
    (some relayContext) 3 false rfl rfl

end Seller
