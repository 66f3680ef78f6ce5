import StockAnalyst.PyAscii
import StockAnalyst.UrlSplit
import Mathlib.Data.List.Perm.Subperm

/-!
# Usage events

`usage_reporting`: an event is checked, scheduled as a task of its own and
posted at most twice, while requests of users go on.  Tasks start, wait, end
and are cancelled in any order; the reporter holds at most a fixed number of
them, and what a task sends is the event it was scheduled with.
-/

namespace UsageReporting

open Python

def maxActiveTasks : Nat := 32
def maxAttempts : Nat := 2

/-! ## Events -/

/-- Python's own functions, `to_checksum_address`, which gives nothing where it
raises, and `hashlib.sha256(data).hexdigest()`. -/
structure UsageLib extends PyLib where
  toChecksumAddress : PyStr → Option PyStr
  sha256Hex : PyStr → PyStr

inductive EventType where
  | attempt
  | succeeded
  deriving DecidableEq

/-- `payload`, whose `version` is 1. -/
structure UsageEvent where
  eventId : PyStr
  eventType : EventType
  timestamp : Int
  wallet : Option PyStr
  deriving DecidableEq

/-- `[0-9a-f]`. -/
def isLowerHex (c : Nat) : Bool := (48 ≤ c && c ≤ 57) || (97 ≤ c && c ≤ 102)

/-- A tag before 32 hexadecimal digits, and no more. -/
def isTagged (tag value : PyStr) : Bool :=
  value.startsWith tag && (value.drop tag.length).length = 32 &&
    (value.drop tag.length).all isLowerHex

/-- `_ATTEMPT_EVENT_ID_RE.fullmatch(event_id)`. -/
def isAttemptEventId (value : PyStr) : Bool := isTagged (py "usage-attempt:") value

/-- `_JOB_ID_RE.fullmatch(job_id)`. -/
def isJobId (value : PyStr) : Bool := isTagged (py "x402_") value

/-- `_validated_timestamp(value)`; a Boolean is no timestamp. -/
def validatedTimestamp : Json → Option Int
  | .int value => if value < 0 then none else some value
  | _ => none

section Events

variable (lib : UsageLib)

/-- `to_checksum_address(value).lower()`. -/
def normalizedWallet (value : PyStr) : Option PyStr :=
  (lib.toChecksumAddress value).map lib.lower

/-- `_normalized_optional_wallet(value)`. -/
def normalizedOptionalWallet : Json → Option (Option PyStr)
  | .null => some none
  | .str value => (normalizedWallet lib value).map some
  | _ => none

/-- The event of `submit_attempt`, if the attempt is valid. -/
def attemptEvent (eventId : PyStr) (timestamp wallet : Json) : Option UsageEvent :=
  if isAttemptEventId eventId then
    (validatedTimestamp timestamp).bind fun time =>
      (normalizedOptionalWallet lib wallet).map fun address =>
        { eventId, eventType := .attempt, timestamp := time, wallet := address }
  else none

/-- The event of `submit_succeeded`, if its arguments are valid. -/
def succeededEvent (jobId : Json) (wallet : PyStr) (timestamp : Json) : Option UsageEvent :=
  match jobId with
  | .str jobId =>
      if isJobId jobId then
        (normalizedWallet lib wallet).bind fun address =>
          (validatedTimestamp timestamp).map fun time =>
            { eventId := py "usage-succeeded:" ++ lib.sha256Hex jobId
              eventType := .succeeded
              timestamp := time
              wallet := some address }
      else none
  | _ => none

/-- What an event that is posted may say. -/
structure UsageEvent.Valid (event : UsageEvent) : Prop where
  eventId : match event.eventType with
    | .attempt => isAttemptEventId event.eventId = true
    | .succeeded => ∃ jobId, isJobId jobId = true ∧
        event.eventId = py "usage-succeeded:" ++ lib.sha256Hex jobId
  timestamp : 0 ≤ event.timestamp
  /-- A wallet is one that has been checked, in lower case. -/
  wallet : ∀ address ∈ event.wallet, ∃ value, normalizedWallet lib value = some address
  known : event.eventType = .succeeded → event.wallet.isSome

end Events

/-! ## Deliveries -/

structure UsageReportingConfig where
  baseUrl : PyStr
  internalToken : PyStr

/-- `endpoint_url`. -/
def endpointUrl (config : UsageReportingConfig) : PyStr :=
  rstripSlash config.baseUrl ++ py "/internal/x402/usage-events"

/-- The request of `client.post`. -/
structure UsageRequest where
  url : PyStr
  internalToken : PyStr
  json : UsageEvent
  deriving DecidableEq

def usageRequest (config : UsageReportingConfig) (event : UsageEvent) : UsageRequest :=
  { url := endpointUrl config, internalToken := config.internalToken, json := event }

/-- How `client.post` ends: with a status code, with an `httpx.RequestError`, or
with another exception. -/
inductive Answer where
  | status (code : Nat)
  | requestError
  | raised
  deriving DecidableEq

/-- `retryable`. -/
def retryable : Answer → Bool
  | .status code => !(200 ≤ code && code < 300) && (code = 429 || (500 ≤ code && code < 600))
  | .requestError => true
  | .raised => false

/-- Where the coroutine of `_deliver` stands. -/
inductive Phase where
  | created
  | posting (attempt : Nat)
  | sleeping (attempt : Nat)
  | ended
  deriving DecidableEq

/-- The body of the loop after `client.post`. -/
def afterAnswer (attempt : Nat) (answer : Answer) : Phase :=
  if retryable answer = true ∧ attempt ≠ maxAttempts then .sleeping attempt else .ended

structure Delivery where
  event : UsageEvent
  phase : Phase

/-- The reporter: the deliveries that have been scheduled, by the number of
their task, and `_active_tasks`. -/
structure Reporter where
  deliveries : List Delivery
  activeTasks : List Nat

/-- What happens around the reporter. -/
inductive Entry where
  | accepted (task : Nat) (event : UsageEvent)
  | posted (task : Nat) (request : UsageRequest)
  | answered (task : Nat) (answer : Answer)
  deriving DecidableEq

def Entry.task : Entry → Nat
  | .accepted task _ => task
  | .posted task _ => task
  | .answered task _ => task

/-- `_schedule(payload)`; `running` says whether there is an event loop. -/
def Reporter.schedule (reporter : Reporter) (event : UsageEvent) (running : Bool) :
    Reporter × List Entry :=
  if maxActiveTasks ≤ reporter.activeTasks.length then (reporter, [])
  else if running then
    ({ deliveries := reporter.deliveries ++ [{ event, phase := .created }]
       activeTasks := reporter.activeTasks ++ [reporter.deliveries.length] },
      [.accepted reporter.deliveries.length event])
  else (reporter, [])

/-- The end of `submit_attempt` and of `submit_succeeded`: an event that is not
valid is dropped. -/
def Reporter.submit (reporter : Reporter) (event : Option UsageEvent) (running : Bool) :
    Reporter × List Entry :=
  event.elim (reporter, []) fun event => reporter.schedule event running

def Reporter.setPhase (reporter : Reporter) (task : Nat) (phase : Phase) : Reporter :=
  { reporter with
    deliveries := reporter.deliveries.modify task fun delivery => { delivery with phase } }

/-- One step of the event loop, of a caller or of the network. -/
inductive Action where
  | submitAttempt (eventId : PyStr) (timestamp wallet : Json) (running : Bool)
  | submitSucceeded (jobId : Json) (wallet : PyStr) (timestamp : Json) (running : Bool)
  | resume (task : Nat)
  | answer (task : Nat) (answer : Answer)
  | cancel (task : Nat)
  | deliveryDone (task : Nat)

/-- What a step does, where it is possible. -/
def act (lib : UsageLib) (config : UsageReportingConfig) (reporter : Reporter) :
    Action → Option (Reporter × List Entry)
  | .submitAttempt eventId timestamp wallet running =>
      some (reporter.submit (attemptEvent lib eventId timestamp wallet) running)
  | .submitSucceeded jobId wallet timestamp running =>
      some (reporter.submit (succeededEvent lib jobId wallet timestamp) running)
  | .resume task =>
      match reporter.deliveries[task]? with
      | some ⟨event, .created⟩ =>
          some (reporter.setPhase task (.posting 1),
            [.posted task (usageRequest config event)])
      | some ⟨event, .sleeping attempt⟩ =>
          some (reporter.setPhase task (.posting (attempt + 1)),
            [.posted task (usageRequest config event)])
      | _ => none
  | .answer task answer =>
      match reporter.deliveries[task]? with
      | some ⟨_, .posting attempt⟩ =>
          some (reporter.setPhase task (afterAnswer attempt answer), [.answered task answer])
      | _ => none
  | .cancel task =>
      match reporter.deliveries[task]? with
      | none => none
      | some ⟨_, .ended⟩ => none
      | some _ => some (reporter.setPhase task .ended, [])
  | .deliveryDone task =>
      match reporter.deliveries[task]? with
      | some ⟨_, .ended⟩ =>
          if task ∈ reporter.activeTasks then
            some ({ reporter with activeTasks := reporter.activeTasks.erase task }, [])
          else none
      | _ => none

/-- The reporter and all that has happened around it. -/
structure System where
  reporter : Reporter
  entries : List Entry

/-- The runs of a reporter that starts without a task. -/
inductive Reach (lib : UsageLib) (config : UsageReportingConfig) : System → Prop
  | start : Reach lib config ⟨⟨[], []⟩, []⟩
  | step {system : System} (h : Reach lib config system) {action : Action} {reporter : Reporter}
      {entries : List Entry} (hact : act lib config system.reporter action =
        some (reporter, entries)) :
      Reach lib config ⟨reporter, system.entries ++ entries⟩

/-! ## What a step does -/

/-- The steps of a coroutine that has not ended. -/
inductive Move (config : UsageReportingConfig) (task : Nat) (event : UsageEvent) :
    Phase → Phase → List Entry → Prop
  | first : Move config task event .created (.posting 1)
      [.posted task (usageRequest config event)]
  | again (attempt : Nat) : Move config task event (.sleeping attempt) (.posting (attempt + 1))
      [.posted task (usageRequest config event)]
  | answer (attempt : Nat) (answer : Answer) :
      Move config task event (.posting attempt) (afterAnswer attempt answer)
        [.answered task answer]
  | cancel (phase : Phase) : Move config task event phase .ended []

section Events

variable {lib : UsageLib}

/-- A wallet that is kept was normalized. -/
theorem wallet_normalizedOptionalWallet {wallet : Json} {address : Option PyStr}
    (h : normalizedOptionalWallet lib wallet = some address) :
    ∀ w ∈ address, ∃ value, normalizedWallet lib value = some w := by
  cases wallet with
  | null => cases h; nofun
  | str value =>
      obtain ⟨normalized, hnormalized, rfl⟩ := Option.map_eq_some_iff.1 h
      intro w hw
      cases hw
      exact ⟨value, hnormalized⟩
  | _ => cases h

/-- A timestamp is not negative. -/
theorem validatedTimestamp_nonneg {timestamp : Json} {time : Int}
    (h : validatedTimestamp timestamp = some time) : 0 ≤ time := by
  cases timestamp with
  | int value =>
      obtain ⟨hvalue, htime⟩ := Option.ite_none_left_eq_some.1 h
      rw [← Option.some.inj htime]
      exact not_lt.1 hvalue
  | _ => cases h

/-- An attempt that is built is a valid event. -/
theorem valid_attemptEvent {eventId : PyStr} {timestamp wallet : Json} {event : UsageEvent}
    (h : attemptEvent lib eventId timestamp wallet = some event) : event.Valid lib := by
  obtain ⟨hid, h⟩ := Option.ite_none_right_eq_some.1 h
  obtain ⟨time, htime, h⟩ := Option.bind_eq_some_iff.1 h
  obtain ⟨address, haddress, rfl⟩ := Option.map_eq_some_iff.1 h
  exact ⟨hid, validatedTimestamp_nonneg htime, wallet_normalizedOptionalWallet haddress, nofun⟩

/-- A success that is built is a valid event. -/
theorem valid_succeededEvent {jobId : Json} {wallet : PyStr} {timestamp : Json}
    {event : UsageEvent} (h : succeededEvent lib jobId wallet timestamp = some event) :
    event.Valid lib := by
  cases jobId with
  | str jobId =>
      obtain ⟨hid, h⟩ := Option.ite_none_right_eq_some.1 h
      obtain ⟨address, haddress, h⟩ := Option.bind_eq_some_iff.1 h
      obtain ⟨time, htime, rfl⟩ := Option.map_eq_some_iff.1 h
      refine ⟨⟨jobId, hid, rfl⟩, validatedTimestamp_nonneg htime, fun w hw => ?_, fun _ => rfl⟩
      cases hw
      exact ⟨wallet, haddress⟩
  | _ => cases h

end Events

section Steps

variable {lib : UsageLib} {config : UsageReportingConfig} {reporter reporter' : Reporter}
  {entries : List Entry}

/-- An event is dropped, or accepted below the limit. -/
theorem submit_cases {event : Option UsageEvent} {running : Bool} :
    reporter.submit event running = (reporter, []) ∨
      ∃ accepted, event = some accepted ∧ reporter.activeTasks.length < maxActiveTasks ∧
        reporter.submit event running =
          ({ deliveries := reporter.deliveries ++ [{ event := accepted, phase := .created }]
             activeTasks := reporter.activeTasks ++ [reporter.deliveries.length] },
            [.accepted reporter.deliveries.length accepted]) := by
  cases event with
  | none => exact Or.inl rfl
  | some event =>
      by_cases hfull : maxActiveTasks ≤ reporter.activeTasks.length
      · exact Or.inl (if_pos hfull)
      · cases running with
        | false => exact Or.inl (if_neg hfull)
        | true => exact Or.inr ⟨event, rfl, not_le.1 hfull, if_neg hfull⟩

/-- Everything a step can do. -/
theorem act_cases {action : Action}
    (h : act lib config reporter action = some (reporter', entries)) :
    (reporter' = reporter ∧ entries = []) ∨
    (∃ event, event.Valid lib ∧ reporter.activeTasks.length < maxActiveTasks ∧
      reporter' = { deliveries := reporter.deliveries ++ [{ event, phase := .created }]
                    activeTasks := reporter.activeTasks ++ [reporter.deliveries.length] } ∧
      entries = [.accepted reporter.deliveries.length event]) ∨
    (∃ task event phase phase', reporter.deliveries[task]? = some ⟨event, phase⟩ ∧
      phase ≠ .ended ∧ Move config task event phase phase' entries ∧
      reporter' = reporter.setPhase task phase') ∨
    (∃ task event, reporter.deliveries[task]? = some ⟨event, .ended⟩ ∧
      reporter' = { reporter with activeTasks := reporter.activeTasks.erase task } ∧
      entries = []) := by
  have hsubmit : ∀ {event : Option UsageEvent} {running : Bool},
      (∀ accepted ∈ event, accepted.Valid lib) →
      some (reporter.submit event running) = some (reporter', entries) →
      (reporter' = reporter ∧ entries = []) ∨
      ∃ event, event.Valid lib ∧ reporter.activeTasks.length < maxActiveTasks ∧
        reporter' = { deliveries := reporter.deliveries ++ [{ event, phase := .created }]
                      activeTasks := reporter.activeTasks ++ [reporter.deliveries.length] } ∧
        entries = [.accepted reporter.deliveries.length event] := by
    intro event running hvalid heq
    obtain hdropped | ⟨accepted, haccepted, hroom, hscheduled⟩ :=
      @submit_cases reporter event running
    · rw [hdropped] at heq
      cases heq
      exact Or.inl ⟨rfl, rfl⟩
    · rw [hscheduled] at heq
      cases heq
      exact Or.inr ⟨accepted, hvalid accepted haccepted, hroom, rfl, rfl⟩
  cases action with
  | submitAttempt eventId timestamp wallet running =>
      exact (hsubmit (fun _ => valid_attemptEvent) h).imp_right Or.inl
  | submitSucceeded jobId wallet timestamp running =>
      exact (hsubmit (fun _ => valid_succeededEvent) h).imp_right Or.inl
  | resume task =>
      refine Or.inr (Or.inr (Or.inl ?_))
      simp only [act] at h
      split at h
      · next event hdelivery =>
          cases h
          exact ⟨task, event, _, _, hdelivery, nofun, .first, rfl⟩
      · next event attempt hdelivery =>
          cases h
          exact ⟨task, event, _, _, hdelivery, nofun, .again attempt, rfl⟩
      · cases h
  | answer task answer =>
      refine Or.inr (Or.inr (Or.inl ?_))
      simp only [act] at h
      split at h
      · next event attempt hdelivery =>
          cases h
          exact ⟨task, event, _, _, hdelivery, nofun, .answer attempt answer, rfl⟩
      · cases h
  | cancel task =>
      refine Or.inr (Or.inr (Or.inl ?_))
      simp only [act] at h
      split at h
      · cases h
      · cases h
      · next delivery hended hdelivery =>
          cases h
          refine ⟨task, delivery.event, delivery.phase, .ended, hdelivery, fun hphase => ?_,
            .cancel _, rfl⟩
          exact hended delivery.event (by rw [← hphase])
  | deliveryDone task =>
      refine Or.inr (Or.inr (Or.inr ?_))
      simp only [act] at h
      split at h
      · next event hdelivery =>
          obtain ⟨-, h⟩ := Option.ite_none_right_eq_some.1 h
          cases h
          exact ⟨task, event, hdelivery, rfl, rfl⟩
      · cases h

end Steps

/-! ## What holds in every run -/

/-- What has happened around one task. -/
def entriesOf (task : Nat) (entries : List Entry) : List Entry :=
  entries.filter fun entry => entry.task = task

/-- The entries of a task in two parts of a history. -/
theorem entriesOf_append (task : Nat) (xs ys : List Entry) :
    entriesOf task (xs ++ ys) = entriesOf task xs ++ entriesOf task ys :=
  List.filter_append xs ys

/-- The history of a task that stands where its coroutine does. -/
def History (config : UsageReportingConfig) (task : Nat) (event : UsageEvent) :
    Phase → List Entry → Prop
  | .created, entries => entries = [.accepted task event]
  | .posting attempt, entries =>
      attempt = 1 ∧ entries = [.accepted task event, .posted task (usageRequest config event)] ∨
      attempt = 2 ∧ ∃ answer, retryable answer = true ∧
        entries = [.accepted task event, .posted task (usageRequest config event),
          .answered task answer, .posted task (usageRequest config event)]
  | .sleeping attempt, entries =>
      attempt = 1 ∧ ∃ answer, retryable answer = true ∧
        entries = [.accepted task event, .posted task (usageRequest config event),
          .answered task answer]
  | .ended, entries =>
      (∃ answer, entries <+:
        [.accepted task event, .posted task (usageRequest config event),
          .answered task answer]) ∨
      ∃ answer last, retryable answer = true ∧ entries <+:
        [.accepted task event, .posted task (usageRequest config event),
          .answered task answer, .posted task (usageRequest config event),
          .answered task last]

/-- What holds of the reporter and of all that has happened around it. -/
structure Inv (lib : UsageLib) (config : UsageReportingConfig) (system : System) : Prop where
  nodup : system.reporter.activeTasks.Nodup
  known : ∀ task ∈ system.reporter.activeTasks, task < system.reporter.deliveries.length
  bounded : system.reporter.activeTasks.length ≤ maxActiveTasks
  active : ∀ (task : Nat) (delivery : Delivery), system.reporter.deliveries[task]? = some delivery →
    delivery.phase ≠ .ended → task ∈ system.reporter.activeTasks
  valid : ∀ (task : Nat) (delivery : Delivery), system.reporter.deliveries[task]? = some delivery →
    delivery.event.Valid lib
  history : ∀ (task : Nat) (delivery : Delivery),
    system.reporter.deliveries[task]? = some delivery →
    History config task delivery.event delivery.phase (entriesOf task system.entries)
  fresh : ∀ task, system.reporter.deliveries.length ≤ task → entriesOf task system.entries = []

section Runs

variable {lib : UsageLib} {config : UsageReportingConfig}

/-- A history of any phase is one of a task that has ended. -/
theorem History.ended {task : Nat} {event : UsageEvent} {phase : Phase} {entries : List Entry}
    (h : History config task event phase entries) :
    History config task event .ended entries := by
  cases phase with
  | created =>
      cases h
      exact Or.inl ⟨.raised, ⟨_, rfl⟩⟩
  | posting attempt =>
      obtain ⟨-, rfl⟩ | ⟨-, answer, hanswer, rfl⟩ := h
      · exact Or.inl ⟨.raised, ⟨_, rfl⟩⟩
      · exact Or.inr ⟨answer, .raised, hanswer, ⟨_, rfl⟩⟩
  | sleeping attempt =>
      obtain ⟨-, answer, -, rfl⟩ := h
      exact Or.inl ⟨answer, ⟨_, rfl⟩⟩
  | ended => exact h

/-- A step of a coroutine adds to its history what the step does. -/
theorem History.move {task : Nat} {event : UsageEvent} {phase phase' : Phase}
    {entries new : List Entry} (h : History config task event phase entries)
    (hmove : Move config task event phase phase' new) :
    History config task event phase' (entries ++ new) := by
  cases hmove with
  | first =>
      cases h
      exact Or.inl ⟨rfl, rfl⟩
  | again attempt =>
      obtain ⟨rfl, answer, hanswer, rfl⟩ := h
      exact Or.inr ⟨rfl, answer, hanswer, rfl⟩
  | answer attempt answer =>
      by_cases hagain : retryable answer = true ∧ attempt ≠ maxAttempts
      · rw [afterAnswer, if_pos hagain]
        obtain ⟨rfl, rfl⟩ | ⟨rfl, -⟩ := h
        · exact ⟨rfl, answer, hagain.1, rfl⟩
        · exact absurd rfl hagain.2
      · rw [afterAnswer, if_neg hagain]
        obtain ⟨-, rfl⟩ | ⟨-, first, hfirst, rfl⟩ := h
        · exact Or.inl ⟨answer, ⟨_, rfl⟩⟩
        · exact Or.inr ⟨first, answer, hfirst, ⟨_, rfl⟩⟩
  | cancel =>
      rw [List.append_nil]
      exact h.ended

/-- A step of a coroutine is seen around its own task only. -/
theorem Move.entriesOf {task other : Nat} {event : UsageEvent} {phase phase' : Phase}
    {entries : List Entry} (h : Move config task event phase phase' entries) :
    entriesOf other entries = if other = task then entries else [] := by
  by_cases hother : other = task
  · subst hother
    cases h <;> simp [UsageReporting.entriesOf, Entry.task]
  · cases h <;> simp [UsageReporting.entriesOf, Entry.task, hother, Ne.symm hother]

/-- At first nothing has happened. -/
theorem Inv.start : Inv lib config ⟨⟨[], []⟩, []⟩ where
  nodup := List.nodup_nil
  known := nofun
  bounded := Nat.zero_le _
  active := nofun
  valid := nofun
  history := nofun
  fresh := fun _ _ => rfl

/-- A phase changes that task alone. -/
theorem deliveries_setPhase {reporter : Reporter} {task other : Nat} {phase : Phase} :
    (reporter.setPhase task phase).deliveries[other]? =
      if other = task then
        reporter.deliveries[other]?.map fun delivery => { delivery with phase }
      else reporter.deliveries[other]? := by
  rw [Reporter.setPhase, List.getElem?_modify]
  by_cases hother : other = task
  · simp [hother]
  · simp [hother, Ne.symm hother]

/-- A task that is scheduled keeps the invariant. -/
theorem Inv.scheduled {system : System} (h : Inv lib config system) {event : UsageEvent}
    (hvalid : event.Valid lib)
    (hroom : system.reporter.activeTasks.length < maxActiveTasks) :
    Inv lib config
      ⟨{ deliveries := system.reporter.deliveries ++ [{ event, phase := .created }]
         activeTasks := system.reporter.activeTasks ++ [system.reporter.deliveries.length] },
        system.entries ++ [.accepted system.reporter.deliveries.length event]⟩ := by
  have hnew : system.reporter.deliveries.length ∉ system.reporter.activeTasks := fun hmem =>
    absurd (h.known _ hmem) (lt_irrefl _)
  -- a delivery is one there was, or the new one
  have hcases : ∀ {task : Nat} {delivery : Delivery},
      (system.reporter.deliveries ++ [{ event, phase := .created }])[task]? = some delivery →
      system.reporter.deliveries[task]? = some delivery ∧
          task ≠ system.reporter.deliveries.length ∨
        task = system.reporter.deliveries.length ∧ delivery = { event, phase := .created } := by
    intro task delivery hdelivery
    obtain hlt | heq | hgt := Nat.lt_trichotomy task system.reporter.deliveries.length
    · rw [List.getElem?_append_left hlt] at hdelivery
      exact Or.inl ⟨hdelivery, hlt.ne⟩
    · rw [heq, List.getElem?_concat_length] at hdelivery
      exact Or.inr ⟨heq, (Option.some.inj hdelivery).symm⟩
    · rw [List.getElem?_eq_none (by simpa using Nat.succ_le_of_lt hgt)] at hdelivery
      cases hdelivery
  have hentries (task : Nat) :
      entriesOf task (system.entries ++ [.accepted system.reporter.deliveries.length event]) =
        entriesOf task system.entries ++
          if task = system.reporter.deliveries.length then
            [.accepted system.reporter.deliveries.length event] else [] := by
    rw [entriesOf_append]
    congr 1
    by_cases htask : task = system.reporter.deliveries.length
    · simp [entriesOf, Entry.task, htask]
    · simp [entriesOf, Entry.task, htask, Ne.symm htask]
  refine
    { nodup := ?nodup, known := ?known, bounded := ?bounded, active := ?active,
      valid := ?valid, history := ?history, fresh := ?fresh }
  case nodup => exact List.Nodup.append h.nodup (List.nodup_singleton _) (by simpa using hnew)
  case known =>
    intro task htask
    rw [List.length_append, List.length_singleton]
    obtain htask | htask := List.mem_append.1 htask
    · exact (h.known task htask).trans (Nat.lt_succ_self _)
    · rw [List.mem_singleton.1 htask]
      exact Nat.lt_succ_self _
  case bounded =>
    rw [List.length_append, List.length_singleton]
    exact hroom
  case active =>
    intro task delivery hdelivery hphase
    obtain ⟨hold, -⟩ | ⟨rfl, -⟩ := hcases hdelivery
    · exact List.mem_append_left _ (h.active task delivery hold hphase)
    · exact List.mem_append_right _ (List.mem_singleton_self _)
  case valid =>
    intro task delivery hdelivery
    obtain ⟨hold, -⟩ | ⟨-, rfl⟩ := hcases hdelivery
    · exact h.valid task delivery hold
    · exact hvalid
  case history =>
    intro task delivery hdelivery
    rw [hentries]
    obtain ⟨hold, hne⟩ | ⟨rfl, rfl⟩ := hcases hdelivery
    · rw [if_neg hne, List.append_nil]
      exact h.history task delivery hold
    · rw [if_pos rfl, h.fresh _ le_rfl, List.nil_append]
      rfl
  case fresh =>
    intro task htask
    rw [List.length_append, List.length_singleton] at htask
    rw [hentries, if_neg (by omega), List.append_nil]
    exact h.fresh task (by omega)

/-- A step of a coroutine keeps the invariant. -/
theorem Inv.moved {system : System} (h : Inv lib config system) {task : Nat}
    {event : UsageEvent} {phase phase' : Phase} {entries : List Entry}
    (hdelivery : system.reporter.deliveries[task]? = some ⟨event, phase⟩)
    (hlive : phase ≠ .ended) (hmove : Move config task event phase phase' entries) :
    Inv lib config ⟨system.reporter.setPhase task phase', system.entries ++ entries⟩ := by
  have hlength : (system.reporter.setPhase task phase').deliveries.length =
      system.reporter.deliveries.length := List.length_modify _ _ _
  have htask : task < system.reporter.deliveries.length :=
    (List.getElem?_eq_some_iff.1 hdelivery).1
  -- the delivery that moved is the one there was with its new phase
  have hcases : ∀ {other : Nat} {delivery : Delivery},
      (system.reporter.setPhase task phase').deliveries[other]? = some delivery →
      other = task ∧ delivery = ⟨event, phase'⟩ ∨
        other ≠ task ∧ system.reporter.deliveries[other]? = some delivery := by
    intro other delivery hother
    rw [deliveries_setPhase] at hother
    by_cases heq : other = task
    · rw [if_pos heq, heq, hdelivery] at hother
      exact Or.inl ⟨heq, (Option.some.inj hother).symm⟩
    · rw [if_neg heq] at hother
      exact Or.inr ⟨heq, hother⟩
  refine
    { nodup := h.nodup, known := fun other hother => ?known, bounded := h.bounded,
      active := fun other delivery hother hphase => ?active,
      valid := fun other delivery hother => ?valid,
      history := fun other delivery hother => ?history, fresh := fun other hother => ?fresh }
  case known =>
    rw [hlength]
    exact h.known other hother
  case active =>
    obtain ⟨rfl, -⟩ | ⟨-, hold⟩ := hcases hother
    · exact h.active other ⟨event, phase⟩ hdelivery hlive
    · exact h.active other delivery hold hphase
  case valid =>
    obtain ⟨-, rfl⟩ | ⟨-, hold⟩ := hcases hother
    · exact h.valid task ⟨event, phase⟩ hdelivery
    · exact h.valid other delivery hold
  case history =>
    rw [entriesOf_append, hmove.entriesOf]
    obtain ⟨rfl, rfl⟩ | ⟨hne, hold⟩ := hcases hother
    · rw [if_pos rfl]
      exact (h.history other ⟨event, phase⟩ hdelivery).move hmove
    · rw [if_neg hne, List.append_nil]
      exact h.history other delivery hold
  case fresh =>
    rw [hlength] at hother
    rw [entriesOf_append, hmove.entriesOf, if_neg (by omega), List.append_nil]
    exact h.fresh other hother

/-- A callback of a task that has ended keeps the invariant. -/
theorem Inv.done {system : System} (h : Inv lib config system) {task : Nat}
    {event : UsageEvent} (hdelivery : system.reporter.deliveries[task]? = some ⟨event, .ended⟩) :
    Inv lib config
      ⟨{ system.reporter with activeTasks := system.reporter.activeTasks.erase task },
        system.entries⟩ where
  nodup := h.nodup.erase task
  known := fun other hother => h.known other (List.mem_of_mem_erase hother)
  bounded := (List.length_erase_le).trans h.bounded
  active := fun other delivery hother hphase => by
    have hne : other ≠ task := fun heq => by
      rw [heq, hdelivery] at hother
      cases hother
      exact hphase rfl
    exact (List.mem_erase_of_ne hne).2 (h.active other delivery hother hphase)
  valid := h.valid
  history := h.history
  fresh := h.fresh

/-- **Every act keeps the invariant.** -/
theorem Inv.step {system : System} (h : Inv lib config system) {action : Action}
    {reporter : Reporter} {entries : List Entry}
    (hact : act lib config system.reporter action = some (reporter, entries)) :
    Inv lib config ⟨reporter, system.entries ++ entries⟩ := by
  obtain ⟨rfl, rfl⟩ | ⟨event, hvalid, hroom, rfl, rfl⟩ |
    ⟨task, event, phase, phase', hdelivery, hlive, hmove, rfl⟩ |
    ⟨task, event, hdelivery, rfl, rfl⟩ := act_cases hact
  · rw [List.append_nil]
    exact h
  · exact h.scheduled hvalid hroom
  · exact h.moved hdelivery hlive hmove
  · rw [List.append_nil]
    exact h.done hdelivery

/-- **The invariant holds of every reachable system.** -/
theorem Reach.inv {system : System} (h : Reach lib config system) : Inv lib config system := by
  induction h with
  | start => exact Inv.start
  | step _ hact ih => exact ih.step hact

end Runs

/-- The tasks that have not ended. -/
def Reporter.unfinished (reporter : Reporter) : List Nat :=
  (List.range reporter.deliveries.length).filter fun task =>
    reporter.deliveries[task]?.any fun delivery => delivery.phase ≠ .ended

/-- Whatever happens in whatever order: the reporter never has more than its
limit of tasks under way, and what has happened around a task is nothing, or
one valid event that was posted to the endpoint at most twice, the second time
after an answer that may be repeated, and no more after that. -/
theorem bounded_reporting (lib : UsageLib) (config : UsageReportingConfig) (system : System)
    (h : Reach lib config system) :
    system.reporter.unfinished.length ≤ maxActiveTasks ∧
      ∀ task, entriesOf task system.entries = [] ∨
        ∃ event, event.Valid lib ∧
          ((∃ answer, entriesOf task system.entries <+:
            [.accepted task event, .posted task (usageRequest config event),
              .answered task answer]) ∨
          ∃ answer last, retryable answer = true ∧ entriesOf task system.entries <+:
            [.accepted task event, .posted task (usageRequest config event),
              .answered task answer, .posted task (usageRequest config event),
              .answered task last]) := by
  have hinv := h.inv
  constructor
  · have hsubset : system.reporter.unfinished ⊆ system.reporter.activeTasks := by
      intro task htask
      obtain ⟨-, hphase⟩ := List.mem_filter.1 htask
      obtain ⟨delivery, hdelivery, hlive⟩ := (Option.any_eq_true _ _).1 hphase
      exact hinv.active task delivery hdelivery (of_decide_eq_true hlive)
    have hnodup : system.reporter.unfinished.Nodup := List.nodup_range.filter _
    exact (hnodup.subperm hsubset).length_le.trans hinv.bounded
  · intro task
    cases hdelivery : system.reporter.deliveries[task]? with
    | none => exact Or.inl (hinv.fresh task (List.getElem?_eq_none_iff.1 hdelivery))
    | some delivery =>
        exact Or.inr ⟨delivery.event, hinv.valid task delivery hdelivery,
          (hinv.history task delivery hdelivery).ended⟩

/-! ## A run -/

/-- The steps of a list in turn, without those that are not possible. -/
def runActions (lib : UsageLib) (config : UsageReportingConfig) :
    List Action → System → System
  | [], system => system
  | action :: rest, system =>
      runActions lib config rest <|
        (act lib config system.reporter action).elim system fun next =>
          ⟨next.1, system.entries ++ next.2⟩

/-- A system that acts is reachable. -/
theorem Reach.runActions {lib : UsageLib} {config : UsageReportingConfig} (actions : List Action)
    {system : System} (h : Reach lib config system) :
    Reach lib config (UsageReporting.runActions lib config actions system) := by
  induction actions generalizing system with
  | nil => exact h
  | cons action rest ih =>
      refine ih ?_
      cases hact : act lib config system.reporter action with
      | none => exact h
      | some next => exact h.step hact

/-- The functions on what the run below calls them with. -/
def sampleLib : UsageLib :=
  { asciiLib with
    toChecksumAddress := fun value =>
      if value.map asciiLower = py "0xfb6916095ca1df60bb79ce92ce3ea74c37c5d359" then
        some (py "0xfB6916095ca1df60bB79Ce92cE3Ea74c37c5d359")
      else none
    sha256Hex := fun _ =>
      py "774b6dbeaafe19dabf0ce6cfe2bbdb22997f7bbe40ed41ae8504bb7a33ce13d1" }

def sampleConfig : UsageReportingConfig :=
  { baseUrl := py "https://api.example.com/", internalToken := py "internal" }

def sampleEvent : UsageEvent :=
  { eventId := py "usage-succeeded:774b6dbeaafe19dabf0ce6cfe2bbdb22997f7bbe40ed41ae8504bb7a33ce13d1"
    eventType := .succeeded
    timestamp := 1700000000000
    wallet := some (py "0xfb6916095ca1df60bb79ce92ce3ea74c37c5d359") }

/-- A job is reported at the second attempt, while an attempt of another
request is dropped for its event id. -/
def sampleRun : System :=
  runActions sampleLib sampleConfig
    [.submitSucceeded (.str (py "x402_0123456789abcdef0123456789abcdef"))
        (py "0xFB6916095ca1df60bB79Ce92cE3Ea74c37c5d359") (.int 1700000000000) true,
      .resume 0,
      .submitAttempt (py "usage-attempt:0") (.int 0) .null true,
      .answer 0 (.status 503), .resume 0, .answer 0 (.status 202), .deliveryDone 0]
    ⟨⟨[], []⟩, []⟩

theorem bounded_reporting_sample :
    entriesOf 0 sampleRun.entries =
        [.accepted 0 sampleEvent, .posted 0 (usageRequest sampleConfig sampleEvent),
          .answered 0 (.status 503), .posted 0 (usageRequest sampleConfig sampleEvent),
          .answered 0 (.status 202)] ∧
      sampleRun.reporter.unfinished.length ≤ maxActiveTasks := by
  refine ⟨by decide +kernel, ?_⟩
  exact (bounded_reporting sampleLib sampleConfig sampleRun (Reach.start.runActions _)).1

end UsageReporting
