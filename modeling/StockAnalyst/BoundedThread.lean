import StockAnalyst.SharedCounter

/-!
# Bounded threads

`_run_bounded_thread` holds one slot of a semaphore while a worker thread runs.
A call that is cancelled while it waits leaves the slot to a callback of its
worker.  Over every interleaving of calls, cancellations and workers no slot is
lost and none is given back twice or while its thread runs.
-/

namespace BoundedThread

open SharedCounter

/-- How `func` ended: with a value, with an exception, or with a
`CancelledError`, which cancels the task around it. -/
inductive Outcome where
  | value
  | exception
  | cancelled
  deriving DecidableEq

/-- The task `worker` and its thread. -/
inductive Worker where
  | absent
  | created
  | running
  /-- The thread has exited, and the event loop does not know yet. -/
  | exited (o : Outcome)
  | done (o : Outcome)
  deriving DecidableEq

/-- The callback `release_when_finished`. -/
inductive Callback where
  | absent
  | registered
  | scheduled
  | ran
  deriving DecidableEq

/-- Where a call is: in `semaphore.acquire()` without a slot or with one, in
`asyncio.wait`, or at its end. -/
inductive Place where
  | acquiring
  | granted
  | waiting
  | finished
  deriving DecidableEq

/-- One call of `_run_bounded_thread`, and how often its slot was released. -/
structure Call where
  place : Place
  releaseInFinally : Bool
  worker : Worker
  callback : Callback
  releases : Nat
  deriving DecidableEq

def Worker.isDone : Worker → Bool
  | .done _ => true
  | _ => false

/-- The thread has been asked for and has not exited. -/
def Worker.unfinished : Worker → Bool
  | .created => true
  | .running => true
  | _ => false

namespace Call

/-- A call as it is made. -/
def new : Call := ⟨.acquiring, false, .absent, .absent, 0⟩

/-- The `finally` block, after which the call is over. -/
def leave (c : Call) (free : Nat) : Nat × Call :=
  if c.releaseInFinally then
    (free + 1, { c with place := .finished, releases := c.releases + 1 })
  else (free, { c with place := .finished })

/-- The inner `except` block and the rest.  A callback added to a task that is
done is scheduled at once. -/
def cancelledWaiting (c : Call) (free : Nat) : Nat × Call :=
  { c with
    releaseInFinally := false
    callback := if c.worker.isDone then .scheduled else .registered }.leave free

/-- `return worker.result()`, which raises what the worker has raised. -/
def result (c : Call) (o : Outcome) (free : Nat) : Nat × Call :=
  match o with
  | .cancelled => c.cancelledWaiting free
  | .value => c.leave free
  | .exception => c.leave free

/-- The task of the worker is done, and what was registered is scheduled. -/
def workerDone (c : Call) (o : Outcome) : Call :=
  { c with
    worker := .done o
    callback := if c.callback = .registered then .scheduled else c.callback }

end Call

/-- One step of a call, of its worker or of its callback, with the free slots
before and after. -/
inductive Step : Nat → Call → Nat → Call → Prop
  /-- The semaphore gives the call a slot. -/
  | grant {free : Nat} {c : Call} (h : c.place = .acquiring) :
      Step (free + 1) c free { c with place := .granted }
  /-- Cancelled before there was a slot. -/
  | cancelAcquiring {free : Nat} {c : Call} (h : c.place = .acquiring) :
      Step free c free { c with place := .finished }
  /-- Cancelled before `acquire` returns: the semaphore takes the slot back. -/
  | cancelGranted {free : Nat} {c : Call} (h : c.place = .granted) :
      Step free c (free + 1) { c with place := .finished }
  /-- `acquire` returns, and the worker is created. -/
  | enter {free : Nat} {c : Call} (h : c.place = .granted) :
      Step free c free { c with place := .waiting, releaseInFinally := true, worker := .created }
  | threadStarts {free : Nat} {c : Call} (h : c.worker = .created) :
      Step free c free { c with worker := .running }
  | threadExits {free : Nat} {c : Call} (h : c.worker = .running) (o : Outcome) :
      Step free c free { c with worker := .exited o }
  | taskDone {free : Nat} {c : Call} {o : Outcome} (h : c.worker = .exited o) :
      Step free c free (c.workerDone o)
  /-- `asyncio.wait` returns. -/
  | wake {free : Nat} {c : Call} {o : Outcome} (h : c.place = .waiting)
      (hdone : c.worker = .done o) :
      Step free c (c.result o free).1 (c.result o free).2
  /-- Cancelled in `asyncio.wait`, also when the worker is done already. -/
  | cancelWaiting {free : Nat} {c : Call} (h : c.place = .waiting) :
      Step free c (c.cancelledWaiting free).1 (c.cancelledWaiting free).2
  /-- `release_when_finished` runs. -/
  | callbackRuns {free : Nat} {c : Call} (h : c.callback = .scheduled) :
      Step free c (free + 1) { c with callback := .ran, releases := c.releases + 1 }

/-! ## One call -/

/-- The slots a call holds itself. -/
def heldByCall (c : Call) : Nat := if c.place = .granted ∨ c.place = .waiting then 1 else 0

/-- The slots held for a callback that has still to run. -/
def heldByCallback (c : Call) : Nat :=
  if c.callback = .registered ∨ c.callback = .scheduled then 1 else 0

def held (c : Call) : Nat := heldByCall c + heldByCallback c

/-- The states a call can be in. -/
inductive Sound : Call → Prop
  | acquiring {r : Bool} : Sound ⟨.acquiring, r, .absent, .absent, 0⟩
  | granted {r : Bool} : Sound ⟨.granted, r, .absent, .absent, 0⟩
  | dropped {r : Bool} : Sound ⟨.finished, r, .absent, .absent, 0⟩
  | waiting {w : Worker} (hw : w ≠ .absent) : Sound ⟨.waiting, true, w, .absent, 0⟩
  | returned {o : Outcome} : Sound ⟨.finished, true, .done o, .absent, 1⟩
  | detached {w : Worker} (hw : w ≠ .absent) (hdone : w.isDone = false) :
      Sound ⟨.finished, false, w, .registered, 0⟩
  | finishing {o : Outcome} : Sound ⟨.finished, false, .done o, .scheduled, 0⟩
  | released {o : Outcome} : Sound ⟨.finished, false, .done o, .ran, 1⟩

theorem Sound.cancelledWaiting {w : Worker} (hw : w ≠ .absent) (free : Nat) :
    Sound ((⟨.waiting, true, w, .absent, 0⟩ : Call).cancelledWaiting free).2 ∧
      ((⟨.waiting, true, w, .absent, 0⟩ : Call).cancelledWaiting free).1 +
        held ((⟨.waiting, true, w, .absent, 0⟩ : Call).cancelledWaiting free).2 = free + 1 := by
  cases hdone : w.isDone with
  | true =>
      cases w with
      | done o => exact ⟨.finishing, rfl⟩
      | _ => cases hdone
  | false =>
      have hresult : (⟨.waiting, true, w, .absent, 0⟩ : Call).cancelledWaiting free =
          (free, ⟨.finished, false, w, .registered, 0⟩) := by
        simp only [Call.cancelledWaiting, hdone]
        rfl
      rw [hresult]
      exact ⟨.detached hw hdone, rfl⟩

/-- **One step.**  A call stays in one of its states, and a slot that leaves
the semaphore is held, and one that is given up is back. -/
theorem Sound.step {free free' : Nat} {c c' : Call} (h : Sound c) (hstep : Step free c free' c') :
    Sound c' ∧ free' + held c' = free + held c := by
  cases hstep with
  | grant hplace =>
      cases h with
      | acquiring => exact ⟨.granted, rfl⟩
      | _ => cases hplace
  | cancelAcquiring hplace =>
      cases h with
      | acquiring => exact ⟨.dropped, rfl⟩
      | _ => cases hplace
  | cancelGranted hplace =>
      cases h with
      | granted => exact ⟨.dropped, rfl⟩
      | _ => cases hplace
  | enter hplace =>
      cases h with
      | granted => exact ⟨.waiting (by decide), rfl⟩
      | _ => cases hplace
  | threadStarts hworker =>
      cases h with
      | waiting => exact ⟨.waiting (by decide), rfl⟩
      | detached => exact ⟨.detached (by decide) rfl, rfl⟩
      | _ => cases hworker
  | threadExits hworker o =>
      cases h with
      | waiting => exact ⟨.waiting (fun hnone => nomatch hnone), rfl⟩
      | detached => exact ⟨.detached (fun hnone => nomatch hnone) rfl, rfl⟩
      | _ => cases hworker
  | taskDone hworker =>
      cases h with
      | waiting => exact ⟨.waiting (fun hnone => nomatch hnone), rfl⟩
      | detached => exact ⟨.finishing, rfl⟩
      | _ => cases hworker
  | @wake _ _ o hplace hdone =>
      cases h with
      | waiting hw =>
          obtain rfl : _ = Worker.done o := hdone
          cases o with
          | cancelled => exact Sound.cancelledWaiting hw free
          | value => exact ⟨.returned, rfl⟩
          | exception => exact ⟨.returned, rfl⟩
      | _ => cases hplace
  | cancelWaiting hplace =>
      cases h with
      | waiting hw => exact Sound.cancelledWaiting hw free
      | _ => cases hplace
  | callbackRuns hcallback =>
      cases h with
      | finishing => exact ⟨.released, rfl⟩
      | _ => cases hcallback

/-- An unfinished worker has a slot of its own. -/
theorem Sound.owns {c : Call} (h : Sound c) (hworker : c.worker.unfinished = true) :
    held c = 1 := by
  cases h with
  | waiting => rfl
  | detached => rfl
  | _ => cases hworker

/-- What has been released and what has not. -/
theorem Sound.releases {c : Call} (h : Sound c) :
    (c.worker = .absent ∧ c.releases = 0) ∨
      (c.worker ≠ .absent ∧ held c = 1 ∧ c.releases = 0) ∨
      (∃ o, c.worker = .done o) ∧ held c = 0 ∧ c.releases = 1 := by
  cases h with
  | acquiring => exact Or.inl ⟨rfl, rfl⟩
  | granted => exact Or.inl ⟨rfl, rfl⟩
  | dropped => exact Or.inl ⟨rfl, rfl⟩
  | waiting hw => exact Or.inr (Or.inl ⟨hw, rfl, rfl⟩)
  | detached hw => exact Or.inr (Or.inl ⟨hw, rfl, rfl⟩)
  | finishing => exact Or.inr (Or.inl ⟨fun hnone => (nomatch hnone), rfl, rfl⟩)
  | @returned o => exact Or.inr (Or.inr ⟨⟨o, rfl⟩, rfl, rfl⟩)
  | @released o => exact Or.inr (Or.inr ⟨⟨o, rfl⟩, rfl, rfl⟩)

/-- A call that is over holds nothing once its worker and its callback are. -/
theorem Sound.over {c : Call} (h : Sound c)
    (hplace : c.place = .acquiring ∨ c.place = .finished)
    (hworker : c.worker = .absent ∨ c.worker.isDone = true) (hcallback : c.callback ≠ .scheduled) :
    held c = 0 := by
  cases h with
  | acquiring => rfl
  | dropped => rfl
  | returned => rfl
  | released => rfl
  | granted =>
      obtain hplace | hplace := hplace
      · cases hplace
      · cases hplace
  | waiting =>
      obtain hplace | hplace := hplace
      · cases hplace
      · cases hplace
  | detached hw hdone =>
      obtain hworker | hworker := hworker
      · exact absurd hworker hw
      · rw [hdone] at hworker
        cases hworker
  | finishing => exact absurd rfl hcallback

/-! ## Every interleaving -/

/-- What holds of the free slots and of all calls on one semaphore. -/
structure Conserved (initial free : Nat) (calls : List Call) : Prop where
  /-- The free slots and those held by a call or for a callback are all. -/
  slots : free + (calls.map heldByCall).sum + (calls.map heldByCallback).sum = initial
  /-- Every unfinished worker has a slot of its own. -/
  owned : ∀ c ∈ calls, c.worker.unfinished = true → heldByCall c + heldByCallback c = 1
  /-- So there are no more threads than slots. -/
  bounded : calls.countP (·.worker.unfinished) ≤ initial
  /-- A slot a worker was created with is held and has not been released, or
  has been released once, after the thread has exited. -/
  once : ∀ c ∈ calls,
    (c.worker = .absent ∧ c.releases = 0) ∨
      (c.worker ≠ .absent ∧ heldByCall c + heldByCallback c = 1 ∧ c.releases = 0) ∨
      (∃ o, c.worker = .done o) ∧ heldByCall c + heldByCallback c = 0 ∧ c.releases = 1
  /-- When no call is on its way, every worker is done and no callback is left
  to run, all slots are free. -/
  restored : (∀ c ∈ calls, (c.place = .acquiring ∨ c.place = .finished) ∧
    (c.worker = .absent ∨ c.worker.isDone = true) ∧ c.callback ≠ .scheduled) → free = initial

/-- **Slots are conserved.** -/
theorem slots_conserved {initial free : Nat} {calls : List Call}
    (h : Runs (· = Call.new) Step initial free calls) : Conserved initial free calls := by
  obtain ⟨hsound, hsum⟩ := h.conserves held Sound
    (fun c hc => by rw [hc]; exact ⟨.acquiring, rfl⟩) (fun _ _ _ _ hc hstep => hc.step hstep)
  have hsplit : (calls.map held).sum =
      (calls.map heldByCall).sum + (calls.map heldByCallback).sum := by
    rw [← List.sum_map_add]
    rfl
  refine ⟨by omega, fun c hc => (hsound c hc).owns, ?_, fun c hc => (hsound c hc).releases, ?_⟩
  · have hcount : calls.countP (·.worker.unfinished) ≤ (calls.map held).sum :=
      countP_le_sum fun c hc hworker => Nat.le_of_eq ((hsound c hc).owns hworker).symm
    omega
  · intro hover
    have hnone : (calls.map held).sum = 0 := by
      apply List.sum_eq_zero
      intro n hn
      obtain ⟨c, hc, rfl⟩ := List.mem_map.1 hn
      obtain ⟨hplace, hworker, hcallback⟩ := hover c hc
      exact (hsound c hc).over hplace hworker hcallback
    omega

/-- A call cancelled while its thread runs: the callback gives the slot back. -/
theorem slots_conserved_detached :
    Conserved 1 1 [⟨.finished, false, .done .value, .ran, 1⟩] := by
  have hnew : Runs (· = Call.new) Step 1 1 [Call.new] := Runs.init.start rfl
  have hgranted : Runs (· = Call.new) Step 1 0 [⟨.granted, false, .absent, .absent, 0⟩] :=
    hnew.step (i := 0) rfl (Step.grant rfl)
  have hrunning : Runs (· = Call.new) Step 1 0 [⟨.waiting, true, .running, .absent, 0⟩] :=
    (hgranted.step (i := 0) rfl (Step.enter rfl)).step (i := 0) rfl (Step.threadStarts rfl)
  have hcancelled : Runs (· = Call.new) Step 1 0 [⟨.finished, false, .running, .registered, 0⟩] :=
    hrunning.step (i := 0) rfl (Step.cancelWaiting rfl)
  have hexited : Runs (· = Call.new) Step 1 0
      [⟨.finished, false, .done .value, .scheduled, 0⟩] :=
    (hcancelled.step (i := 0) rfl (Step.threadExits rfl .value)).step (i := 0) rfl
      (Step.taskDone rfl)
  exact slots_conserved (hexited.step (i := 0) rfl (Step.callbackRuns rfl))

end BoundedThread
