import StockAnalyst.LockedSwap
import StockAnalyst.PyJson

/-!
# Submissions and their storage

`signing.submit_result`: while a submission runs with the gateway of its buyer,
the factory of the storage module makes providers for that gateway, and every
submission holds one lock around it.  The workflow of the SDK, which calls the
factory, is not part of the program; it may call it any number of times and may
end or raise at any point.
-/

namespace Signing

open Python LockedSwap

/-! ## The code -/

/-- What `storage_provider_from_config()` makes: the provider of the
configuration, or `UOMPGatewayStorageProvider(gateway_url, gateway_token)`. -/
inductive Storage where
  | configured
  | gateway (gatewayUrl gatewayToken : PyStr)
  deriving DecidableEq

/-- Where a call of `submit_result` stands.  `result` is what the workflow
returned or raised. -/
inductive Point where
  | called
  | locked
  | read (orig : Storage)
  | working (orig : Option Storage)
  | ended (orig : Option Storage) (result : Except PyStr PyStr)
  | restored (result : Except PyStr PyStr)
  | returned (result : Except PyStr PyStr)

/-- A call of `submit_result`, by the arguments that choose its storage. -/
structure Submission where
  gatewayUrl : Option PyStr
  gatewayToken : Option PyStr
  point : Point

/-- `gateway_url and gateway_token`, and the factory that is installed then. -/
def Submission.gateway (submission : Submission) : Option Storage :=
  (submission.gatewayUrl.filter (· ≠ [])).bind fun url =>
    (submission.gatewayToken.filter (· ≠ [])).map fun token => .gateway url token

/-- The factory of the storage module, the holder of `submit_lock`, the calls in
the order they were made, and the providers that the workflow was given, each
with the call it was given in. -/
structure State where
  storageProviderFromConfig : Storage
  submitLock : Option Nat
  submissions : List Submission
  providers : List (Nat × Storage)

def State.initial : State := ⟨.configured, none, [], []⟩

/-- A call goes on, and the factory and the lock are as given after it. -/
def State.goTo (s : State) (t : Nat) (point : Point) (factory : Storage) (lock : Option Nat) :
    State :=
  { s with
    storageProviderFromConfig := factory
    submitLock := lock
    submissions := s.submissions.modify t fun submission => { submission with point } }

/-- A thread calls `submit_result`, runs its next statement, or the workflow in
it asks for a provider or ends. -/
inductive Action where
  | call (gatewayUrl gatewayToken : Option PyStr)
  | run (t : Nat)
  | provider (t : Nat)
  | workflowEnds (t : Nat) (result : Except PyStr PyStr)

/-- The next statement of a call; nothing where it waits. -/
def runStatement (s : State) (t : Nat) (submission : Submission) : Option State :=
  let factory := s.storageProviderFromConfig
  match submission.point with
  | .called => if s.submitLock = none then some (s.goTo t .locked factory (some t)) else none
  | .locked =>
      match submission.gateway with
      | none => some (s.goTo t (.working none) factory s.submitLock)
      | some _ => some (s.goTo t (.read factory) factory s.submitLock)
  | .read orig =>
      match submission.gateway with
      | none => none
      | some gateway => some (s.goTo t (.working (some orig)) gateway s.submitLock)
  | .working _ => none
  | .ended orig result => some (s.goTo t (.restored result) (orig.getD factory) s.submitLock)
  | .restored result => some (s.goTo t (.returned result) factory none)
  | .returned _ => none

def act (s : State) : Action → Option State
  | .call gatewayUrl gatewayToken =>
      some { s with submissions := s.submissions ++ [⟨gatewayUrl, gatewayToken, .called⟩] }
  | .run t => s.submissions[t]?.bind (runStatement s t)
  | .provider t =>
      match s.submissions[t]? with
      | some ⟨_, _, .working _⟩ =>
          some { s with providers := s.providers ++ [(t, s.storageProviderFromConfig)] }
      | _ => none
  | .workflowEnds t result =>
      match s.submissions[t]? with
      | some ⟨_, _, .working orig⟩ =>
          some (s.goTo t (.ended orig result) s.storageProviderFromConfig s.submitLock)
      | _ => none

/-- The states of a process, whatever its threads do. -/
inductive Reach : State → Prop
  | start : Reach .initial
  | step {s s' : State} {action : Action} (h : Reach s) (hact : act s action = some s') : Reach s'

/-! ## The swap -/

/-- Where a call stands with respect to the lock and the factory. -/
def Point.place : Point → Place Storage
  | .called => .waiting
  | .locked => .holding
  | .read orig => .saved orig
  | .working orig => orig.elim .plain .swapped
  | .ended orig _ => orig.elim .plain .swapped
  | .restored _ => .leaving
  | .returned _ => .left

def Submission.thread (submission : Submission) : Thread Storage :=
  ⟨submission.gateway, submission.point.place⟩

/-- What a state of the process is as one of a variable under a lock. -/
def State.swap (s : State) : LockedSwap.State Storage where
  value := s.storageProviderFromConfig
  lock := s.submitLock
  threads := fun t => s.submissions[t]?.map Submission.thread
  next := s.submissions.length
  uses := s.providers

/-- Every submission is the thread of its number. -/
theorem swap_threads {s : State} {t : Nat} {submission : Submission}
    (ht : s.submissions[t]? = some submission) :
    s.swap.threads t = some ⟨submission.gateway, submission.point.place⟩ :=
  congrArg (Option.map Submission.thread) ht

/-- A call that goes on is a thread that moves. -/
theorem swap_goTo {s : State} {t : Nat} {submission : Submission}
    (ht : s.submissions[t]? = some submission) (point : Point) (factory : Storage)
    (lock : Option Nat) :
    (s.goTo t point factory lock).swap =
      s.swap.move t submission.gateway point.place factory lock := by
  have hthreads : (fun u => (s.goTo t point factory lock).submissions[u]?.map Submission.thread) =
      Function.update s.swap.threads t (some ⟨submission.gateway, point.place⟩) := by
    funext u
    rw [State.goTo, List.getElem?_modify]
    by_cases hu : u = t
    · rw [hu, Function.update_self, ht]
      simp [Submission.thread, Submission.gateway]
    · rw [Function.update_of_ne hu]
      simp [Ne.symm hu, State.swap]
  have hlength : (s.goTo t point factory lock).submissions.length = s.submissions.length :=
    List.length_modify _ _ _
  rw [State.swap, LockedSwap.State.move, hthreads, hlength]
  rfl

/-- A statement of a call is a step of its thread. -/
theorem runStatement_swap {s s' : State} {t : Nat} {submission : Submission}
    (ht : s.submissions[t]? = some submission)
    (h : runStatement s t submission = some s') : Step s.swap s'.swap := by
  have hthread := swap_threads ht
  cases hpoint : submission.point with
  | called =>
      rw [hpoint] at hthread
      rw [runStatement, hpoint] at h
      obtain ⟨hlock, h⟩ := Option.ite_none_right_eq_some.1 h
      cases h
      rw [swap_goTo ht]
      exact .acquire hthread hlock
  | locked =>
      rw [hpoint] at hthread
      rw [runStatement, hpoint] at h
      cases hgateway : submission.gateway with
      | none =>
          rw [hgateway] at hthread
          simp only [hgateway] at h
          cases h
          rw [swap_goTo ht, hgateway]
          exact .skip hthread
      | some gateway =>
          rw [hgateway] at hthread
          simp only [hgateway] at h
          cases h
          rw [swap_goTo ht, hgateway]
          exact .save hthread
  | read orig =>
      rw [hpoint] at hthread
      rw [runStatement, hpoint] at h
      cases hgateway : submission.gateway with
      | none =>
          simp only [hgateway] at h
          cases h
      | some gateway =>
          rw [hgateway] at hthread
          simp only [hgateway] at h
          cases h
          rw [swap_goTo ht, hgateway]
          exact .install hthread
  | working orig =>
      rw [runStatement, hpoint] at h
      cases h
  | ended orig result =>
      rw [hpoint] at hthread
      rw [runStatement, hpoint] at h
      cases h
      rw [swap_goTo ht]
      cases orig with
      | none => exact .finish hthread
      | some orig => exact .restore hthread
  | restored result =>
      rw [hpoint] at hthread
      rw [runStatement, hpoint] at h
      cases h
      rw [swap_goTo ht]
      exact .release hthread
  | returned result =>
      rw [runStatement, hpoint] at h
      cases h

/-- A new call is a new thread. -/
theorem call_swap (s : State) (gatewayUrl gatewayToken : Option PyStr) :
    Step s.swap (State.swap
      { s with submissions := s.submissions ++ [⟨gatewayUrl, gatewayToken, .called⟩] }) := by
  have hthreads : (fun t => (s.submissions ++
        [⟨gatewayUrl, gatewayToken, .called⟩])[t]?.map Submission.thread) =
      Function.update s.swap.threads s.submissions.length
        (some ⟨Submission.gateway ⟨gatewayUrl, gatewayToken, .called⟩, .waiting⟩) := by
    funext t
    obtain hlt | rfl | hgt := Nat.lt_trichotomy t s.submissions.length
    · rw [List.getElem?_append_left hlt, Function.update_of_ne (Nat.ne_of_lt hlt)]
      rfl
    · rw [List.getElem?_concat_length, Function.update_self]
      rfl
    · rw [List.getElem?_eq_none (by simpa using Nat.succ_le_of_lt hgt),
        Function.update_of_ne (Nat.ne_of_gt hgt)]
      exact congrArg (Option.map Submission.thread) (List.getElem?_eq_none hgt.le).symm
  have hswap : State.swap
        { s with submissions := s.submissions ++ [⟨gatewayUrl, gatewayToken, .called⟩] } =
      { s.swap.move s.swap.next (Submission.gateway ⟨gatewayUrl, gatewayToken, .called⟩) .waiting
          s.swap.value s.swap.lock with next := s.swap.next + 1 } := by
    rw [State.swap, hthreads, List.length_append, List.length_singleton]
    rfl
  rw [hswap]
  exact .spawn s.swap _

/-- Whatever happens to the calls of a process is a step of a variable under a
lock, or none. -/
theorem act_swap {s s' : State} {action : Action} (h : act s action = some s') :
    Step s.swap s'.swap ∨ s'.swap = s.swap := by
  cases action with
  | call gatewayUrl gatewayToken =>
      cases h
      exact Or.inl (call_swap s gatewayUrl gatewayToken)
  | run t =>
      obtain ⟨submission, ht, hrun⟩ := Option.bind_eq_some_iff.1 h
      exact Or.inl (runStatement_swap ht hrun)
  | provider t =>
      simp only [act] at h
      split at h
      · next gatewayUrl gatewayToken orig ht =>
          cases h
          have hthread := swap_threads ht
          cases orig with
          | none => exact Or.inl (.useShared hthread)
          | some orig => exact Or.inl (.useOwn hthread)
      · cases h
  | workflowEnds t result =>
      simp only [act] at h
      split at h
      · next gatewayUrl gatewayToken orig ht =>
          cases h
          -- the thread stays where it is: what the workflow returned is not its concern
          have hsame : Function.update s.swap.threads t
              (some ⟨Submission.gateway ⟨gatewayUrl, gatewayToken, .working orig⟩,
                Point.place (.ended orig result)⟩) = s.swap.threads := by
            rw [Function.update_eq_self_iff]
            exact (swap_threads ht).symm
          rw [swap_goTo ht, LockedSwap.State.move, hsame]
          exact Or.inr rfl
      · cases h

/-- The runs of a process are interleavings of a variable under a lock. -/
theorem reach_swap {s : State} (h : Reach s) : LockedSwap.Reach .configured s.swap := by
  induction h with
  | start => exact .start
  | step _ hact ih =>
      obtain hstep | hsame := act_swap hact
      · exact .step ih hstep
      · rw [hsame]
        exact ih

/-! ## Own storage -/

/-- Between taking `submit_lock` and releasing it. -/
def Point.Inside (point : Point) : Prop := point.place.Inside

/-- Whatever threads submit at the same time, and however their workflows end:
a workflow is given providers of the gateway of its own buyer, or of the
configuration if it has none; no two submissions are at work at once; and when
none is, the factory is the one of the configuration. -/
theorem own_storage (s : State) (h : Reach s) :
    (∀ t storage, (t, storage) ∈ s.providers →
      ∃ submission, s.submissions[t]? = some submission ∧
        storage = submission.gateway.getD .configured) ∧
    (∀ (t u : Nat) (submission other : Submission), s.submissions[t]? = some submission →
      s.submissions[u]? = some other → submission.point.Inside → other.point.Inside → t = u) ∧
    ((∀ submission ∈ s.submissions, ¬ submission.point.Inside) →
      s.submitLock = none ∧ s.storageProviderFromConfig = .configured) := by
  have hswap := reach_swap h
  refine ⟨fun t storage huse => ?_, fun t u submission other ht hu => ?_, fun hidle => ?_⟩
  · obtain ⟨thread, hthread, hstorage⟩ := hswap.uses huse
    obtain ⟨submission, ht, rfl⟩ := Option.map_eq_some_iff.1 hthread
    exact ⟨submission, ht, hstorage⟩
  · exact hswap.exclusive (swap_threads ht) (swap_threads hu)
  · have hlock : s.submitLock = none := by
      by_contra hheld
      obtain ⟨t, ht⟩ := Option.ne_none_iff_exists'.1 hheld
      obtain ⟨thread, hthread⟩ := Option.isSome_iff_exists.1 (hswap.inv.known t ht)
      obtain ⟨submission, hsubmission, rfl⟩ := Option.map_eq_some_iff.1 hthread
      exact hidle submission (List.mem_of_getElem? hsubmission)
        ((hswap.inv.holder t _ hthread).2 ht)
    exact ⟨hlock, hswap.restored hlock⟩

/-! ## A run -/

/-- The steps of a list in turn, without those that are not possible. -/
def runActions : List Action → State → State
  | [], s => s
  | action :: rest, s => runActions rest ((act s action).getD s)

/-- A run of actions stays among the reachable states. -/
theorem Reach.runActions (actions : List Action) {s : State} (h : Reach s) :
    Reach (Signing.runActions actions s) := by
  induction actions generalizing s with
  | nil => exact h
  | cons action rest ih =>
      refine ih ?_
      cases hact : act s action with
      | none => exact h
      | some s' => exact h.step hact

/-- A submission to a gateway whose workflow raises, while one without a
gateway waits for the lock. -/
def sampleRun : State :=
  runActions
    [.call (some (py "https://relay.example")) (some (py "token")), .call none none,
      .run 0, .run 1, .run 0, .run 0, .run 1, .provider 0, .workflowEnds 0 (.error (py "reverted")),
      .run 0, .run 1, .run 0, .run 1, .run 1, .provider 1, .workflowEnds 1 (.ok (py "0x01")),
      .run 1, .run 1]
    .initial

/-- In the sample each submission stores through its own gateway. -/
theorem own_storage_sample :
    sampleRun.providers =
        [(0, .gateway (py "https://relay.example") (py "token")), (1, .configured)] ∧
      ∀ t storage, (t, storage) ∈ sampleRun.providers →
        ∃ submission, sampleRun.submissions[t]? = some submission ∧
          storage = submission.gateway.getD .configured :=
  ⟨by decide +kernel, (own_storage sampleRun (Reach.start.runActions _)).1⟩

end Signing
