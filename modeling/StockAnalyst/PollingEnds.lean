import StockAnalyst.JobPolling
import Mathlib.Data.Rat.Floor
import Mathlib.Tactic.Linarith

/-!
# Polling ends

Every pass of the loop that does not end it sleeps, spends one of two flags,
or moves the time from which an overdue settlement is counted by a second.
What is left of the time and of the flags therefore bounds the passes.
-/

namespace AsyncClient

open Js Coroutine

/-! ## The monitor -/

/-- What is seen of a call: the latest clock it can have read, what the server
last said of the job, and how often the two guarded calls were made. -/
structure Seen where
  clock : ℚ
  /-- The last status is `failed`. -/
  failed : Bool
  /-- The last status is not `settling`, or the server answered 410. -/
  authoritative : Bool
  failedResumes : Nat
  notifications : Nat
  /-- Notifications that nothing authoritative preceded. -/
  unfounded : Nat

def Seen.start (clock : ℚ) : Seen := ⟨clock, false, false, 0, 0, 0⟩

/-- By how much the clock is ahead after a sleep; the timers of Node.js take
what is not a number as one millisecond. -/
def Number.span : Number → ℚ
  | .finite q => q
  | _ => 1

/-- The clock never goes back, and after a sleep it is ahead by what was slept
at least. -/
def watch : Monitor Eff Resp where
  Seen := Seen
  admits := fun s e => match e with
    | .now => fun (t : ℚ) => s.clock ≤ t
    | _ => fun _ => True
  next := fun s e => match e with
    | .now => fun (t : ℚ) => { s with clock := t }
    | .sleep milliseconds => fun (reply : Except Thrown Unit) => match reply with
        | .ok () => { s with clock := s.clock + milliseconds.span }
        | .error _ => s
    | .getJobStatus => fun (reply : Except Thrown JobResponse) => match reply with
        | .ok response => { s with
            failed := response.status.status = .failed
            authoritative := response.status.status ≠ .settling }
        | .error error => { s with failed := false, authoritative := error.isGone }
    | .resumeJob => fun _ =>
        { s with failedResumes := s.failedResumes + if s.failed then 1 else 0 }
    | .recoverSettling _ => fun _ => s
    | .onAuthoritativeNonSettling => fun _ => { s with
        notifications := s.notifications + 1
        unfounded := s.unfounded + if s.authoritative then 0 else 1 }

def Seen.at (m : Seen) (clock : ℚ) : Seen := { m with clock }

@[simp] theorem Seen.at_clock (m : Seen) (c : ℚ) : (m.at c).clock = c := rfl

@[simp] theorem Seen.at_at (m : Seen) (c c' : ℚ) : (m.at c).at c' = m.at c' := rfl

@[simp] theorem Seen.at_failed (m : Seen) (c : ℚ) : (m.at c).failed = m.failed := rfl

/-- The guarded calls are made at most once, and the notification with cause. -/
structure Seen.Sound (m : Seen) : Prop where
  failedResumes : m.failedResumes ≤ 1
  notifications : m.notifications ≤ 1
  unfounded : m.unfounded = 0

/-! ## The clock -/

section clock

variable {α β : Type} {p : Poll} {m : Seen}

/-- A program that reads the clock first. -/
theorem now_bind {f : ℚ → Co α} {Q : Except Thrown α → Seen → Prop}
    (h : ∀ t, m.clock ≤ t → watch.Guarantees (f t) (m.at t) Q) :
    watch.Guarantees (now >>= f) m Q := h

/-- Past `observe`, the clock is read if nothing was observed before. -/
theorem observe_bind {observed : Option ℚ} {f : ℚ → Co α} {Q : Except Thrown α → Seen → Prop}
    (h : ∀ t c, m.clock ≤ c → (observed = some t ∧ c = m.clock ∨ observed = none ∧ c = t) →
      watch.Guarantees (f t) (m.at c) Q) :
    watch.Guarantees (observe observed >>= f) m Q := by
  cases observed with
  | some t => exact h t m.clock le_rfl (Or.inl ⟨rfl, rfl⟩)
  | none => exact now_bind fun t ht => h t t ht (Or.inr ⟨rfl, rfl⟩)

/-- A sleep of `wait` lasts to the deadline or a millisecond at least. -/
theorem span_wait (remaining : ℚ) (requested : Number) :
    (Number.min (.finite remaining) (Number.max (.finite 1000) requested)).span = remaining ∨
      1 ≤ (Number.min (.finite remaining) (Number.max (.finite 1000) requested)).span := by
  have hfinite : ∀ q : ℚ, 1000 ≤ q → Min.min remaining q = remaining ∨ 1 ≤ Min.min remaining q := by
    intro q hq
    rcases min_choice remaining q with h | h
    · exact Or.inl h
    · right
      rw [h]
      linarith
  cases requested with
  | finite q => exact hfinite _ (le_max_left ..)
  | infinity negative =>
      cases negative with
      | false => exact Or.inl rfl
      | true => exact hfinite _ le_rfl
  | nan => exact Or.inr le_rfl

/-- A wait that ends has taken a millisecond. -/
theorem wait_run {requested : Number} : watch.Guarantees (p.wait requested) m fun r m' =>
    ∃ c, m' = m.at c ∧ m.clock ≤ c ∧ ∀ u, r = .ok u → m.clock + 1 ≤ c := by
  apply now_bind
  intro t ht
  dsimp only
  by_cases hlate : p.deadline - t ≤ 0
  · rw [if_pos hlate]
    exact ⟨t, rfl, ht, fun _ hr => nomatch hr⟩
  · rw [if_neg hlate]
    intro r _
    cases r with
    | error x => exact ⟨t, rfl, ht, fun _ hr => nomatch hr⟩
    | ok u =>
        intro (t' : ℚ) ht'
        have hslept : t + (Number.min (.finite (p.deadline - t))
            (Number.max (.finite 1000) requested)).span ≤ t' := ht'
        have hspan := span_wait (p.deadline - t) requested
        have hlater : t ≤ t' := by
          rcases hspan with h | h
          · rw [h] at hslept
            linarith
          · linarith
        change watch.Guarantees (if p.deadline ≤ t' then Async.throw pollTimeout else pure ())
          (m.at t') _
        by_cases hover : p.deadline ≤ t'
        · rw [if_pos hover]
          exact ⟨t', rfl, ht.trans hlater, fun _ hr => nomatch hr⟩
        · rw [if_neg hover]
          refine ⟨t', rfl, ht.trans hlater, fun _ _ => ?_⟩
          rcases hspan with h | h
          · rw [h] at hslept
            linarith
          · linarith

/-- A program that waits first: at least a millisecond goes by. -/
theorem wait_bind {requested : Number} {f : Unit → Co α} {Q : Except Thrown α → Seen → Prop}
    (hok : ∀ c, m.clock + 1 ≤ c → watch.Guarantees (f ()) (m.at c) Q)
    (herror : ∀ x c, m.clock ≤ c → Q (.error x) (m.at c)) :
    watch.Guarantees (p.wait requested >>= f) m Q := by
  apply wait_run.bind
  · rintro u m' ⟨c, rfl, -, hc⟩
    exact hok c (hc u rfl)
  · rintro x m' ⟨c, rfl, hc, -⟩
    exact herror x c hc

end clock

/-! ## What a pass keeps -/

/-- The state of the loop accounts for what was seen. -/
structure Accounts (s : PollState) (m : Seen) : Prop where
  failedResumes : m.failedResumes ≤ if s.resumeAttempted then 1 else 0
  notifications : m.notifications ≤ if s.authoritativeCleanupAttempted then 1 else 0
  unfounded : m.unfounded = 0
  observed : ∀ t, s.settlingObservedAt = some t → t ≤ m.clock

section passes

variable {p : Poll} {s s' : PollState} {m : Seen} {μ c : ℚ}

/-- What the poller accounts for is sound. -/
theorem Accounts.sound (h : Accounts s m) : m.Sound := by
  refine ⟨h.failedResumes.trans ?_, h.notifications.trans ?_, h.unfounded⟩
  · split <;> omega
  · split <;> omega

/-- The accounts hold at any later time. -/
theorem Accounts.later (h : Accounts s m) (hc : m.clock ≤ c) : Accounts s (m.at c) :=
  ⟨h.failedResumes, h.notifications, h.unfounded, fun t ht => (h.observed t ht).trans hc⟩

/-- What is left before the deadline, on the clock and from the time at which
the settlement was observed. -/
def Poll.time (p : Poll) (observed : Option ℚ) (clock : ℚ) : ℚ :=
  (p.deadline - clock) + (p.deadline - observed.getD clock)

/-- As the clock goes on, so much less time is left. -/
theorem time_later (observed : Option ℚ) (hc : m.clock ≤ c) :
    p.time observed c + (c - m.clock) ≤ p.time observed m.clock := by
  cases observed with
  | none =>
      simp only [Poll.time, Option.getD_none]
      linarith
  | some t =>
      simp only [Poll.time, Option.getD_some]
      linarith

/-- Forgetting when a wait began leaves no more time. -/
theorem time_none {observed : Option ℚ} (h : ∀ t, observed = some t → t ≤ c) :
    p.time none c ≤ p.time observed c := by
  cases observed with
  | none => exact le_rfl
  | some t =>
      have := h t rfl
      simp only [Poll.time, Option.getD_none, Option.getD_some]
      linarith

/-- The time and the flags that are left. -/
def Poll.left (p : Poll) (s : PollState) (m : Seen) : ℚ :=
  p.time s.settlingObservedAt m.clock
    + (if s.resumeAttempted then 0 else 1) + (if s.settlingRecoveryEnabled then 1 else 0)

/-- How a pass ends from which `μ` was left. -/
def Kept (p : Poll) (μ : ℚ) : Except Thrown Pass → Seen → Prop
  | .error _, m => m.Sound
  | .ok (.done status), m => status.status = .succeeded ∧ m.Sound
  | .ok (.again s), m => Accounts s m ∧ p.left s m + 1 ≤ μ

/-- A wait costs what it takes. -/
theorem left_later (s : PollState) (hc : m.clock + 1 ≤ c) (hleft : p.left s m ≤ μ) :
    p.left s (m.at c) + 1 ≤ μ := by
  have htime := time_later (p := p) s.settlingObservedAt (show m.clock ≤ c by linarith)
  unfold Poll.left at hleft ⊢
  rw [Seen.at_clock]
  linarith

/-- Noting a running job changes no account. -/
theorem Accounts.running (h : Accounts s m) (observed : Option ℚ) :
    Accounts { s with runningObservedAt := observed } m :=
  ⟨h.failedResumes, h.notifications, h.unfounded, h.observed⟩

/-- A wait after which the loop goes on. -/
theorem wait_again {requested : Number} (haccounts : Accounts s m) (hleft : p.left s m ≤ μ) :
    watch.Guarantees (p.wait requested >>= fun _ => pure (.again s)) m (Kept p μ) := by
  apply wait_bind
  · exact fun c hc => ⟨haccounts.later (by linarith), left_later s hc hleft⟩
  · exact fun _ c hc => (haccounts.later hc).sound

/-- Past the notification, which the last answer must call for. -/
theorem notify_bind {α : Type} {f : PollState → Co α} {Q : Except Thrown α → Seen → Prop}
    (haccounts : Accounts s m) (hcause : m.authoritative = true)
    (hok : ∀ b m', Accounts { s with authoritativeCleanupAttempted := b } m' →
      m'.clock = m.clock → m'.failed = m.failed →
        watch.Guarantees (f { s with authoritativeCleanupAttempted := b }) m' Q)
    (herror : ∀ x m', m'.Sound → Q (.error x) m') :
    watch.Guarantees (p.notifyAuthoritativeNonSettling s >>= f) m Q := by
  by_cases hskip : (s.authoritativeCleanupAttempted || !p.onAuthoritativeNonSettling) = true
  · rw [Poll.notifyAuthoritativeNonSettling, if_pos hskip]
    exact hok s.authoritativeCleanupAttempted m haccounts rfl rfl
  · rw [Poll.notifyAuthoritativeNonSettling, if_neg hskip]
    have hfirst : s.authoritativeCleanupAttempted = false := by
      cases h : s.authoritativeCleanupAttempted with
      | false => rfl
      | true => simp [h] at hskip
    have hnone : m.notifications = 0 := by
      have := haccounts.notifications
      simp only [hfirst, Bool.false_eq_true, if_false] at this
      omega
    have hcount : m.unfounded + (if m.authoritative then 0 else 1) = 0 := by
      simp [hcause, haccounts.unfounded]
    intro r _
    cases r with
    | error x =>
        apply herror
        exact ⟨haccounts.sound.failedResumes, by change m.notifications + 1 ≤ 1; omega, hcount⟩
    | ok u =>
        apply hok true
        · exact ⟨haccounts.failedResumes, by change m.notifications + 1 ≤ 1; omega, hcount,
            haccounts.observed⟩
        · rfl
        · rfl

/-- A request to resume the job. -/
def Seen.resumed (m : Seen) (c : ℚ) (k : Nat) : Seen :=
  { m with clock := c, failedResumes := m.failedResumes + k }

/-- Resuming before the deadline costs a resumption at most. -/
theorem resume_run : watch.Guarantees
    (p.runBeforeDeadline (Async.await .resumeJob id)) m fun _ m' => ∃ c k, m.clock ≤ c ∧
      k ≤ (if m.failed then 1 else 0) ∧ m' = m.resumed c k := by
  apply now_bind
  intro t ht
  by_cases hlate : p.deadline - t ≤ 0
  · rw [if_pos hlate]
    exact ⟨t, 0, ht, Nat.zero_le _, rfl⟩
  · rw [if_neg hlate]
    intro r _
    exact ⟨t, _, ht, le_rfl, rfl⟩

/-- **A failed request** throws or leaves less to do. -/
theorem getFailed_kept {error : Thrown} (haccounts : Accounts s m)
    (hcause : error.isGone = true → m.authoritative = true) (hleft : p.left s m ≤ μ) :
    watch.Guarantees (p.getFailed s error) m (Kept p μ) := by
  unfold Poll.getFailed
  by_cases hgone : error.isGone = true
  · rw [if_pos hgone]
    apply notify_bind haccounts (hcause hgone)
    · exact fun _ _ haccounts' _ _ => haccounts'.sound
    · exact fun _ _ hsound => hsound
  · rw [if_neg hgone]
    by_cases hfinal : (error.isClient && !error.isRetryable) = true
    · rw [if_pos hfinal]
      exact haccounts.sound
    · rw [if_neg hfinal]
      exact wait_again haccounts hleft

/-- **A failed job** is resumed, throws or ends. -/
theorem failedJob_kept {current : AsyncJobStatus} (haccounts : Accounts s m)
    (hleft : p.left s m ≤ μ) : watch.Guarantees (p.failedJob s current) m (Kept p μ) := by
  unfold Poll.failedJob
  by_cases hresume : (current.retryable = some true && !s.resumeAttempted) = true
  · rw [if_pos hresume]
    have hfirst : s.resumeAttempted = false := by
      cases h : s.resumeAttempted with
      | false => rfl
      | true => simp [h] at hresume
    have hnone : m.failedResumes = 0 := by
      have := haccounts.failedResumes
      simp only [hfirst, Bool.false_eq_true, if_false] at this
      omega
    have hspent : ∀ c k, m.clock ≤ c → k ≤ (if m.failed then 1 else 0) →
        Accounts { s with resumeAttempted := true } (m.resumed c k) ∧
          p.left { s with resumeAttempted := true } (m.resumed c k) + 1 ≤ μ := by
      intro c k hc hk
      have hone : k ≤ 1 := hk.trans (by split <;> omega)
      have htime := time_later (p := p) s.settlingObservedAt hc
      refine ⟨⟨?_, haccounts.notifications, haccounts.unfounded,
        fun t ht => (haccounts.observed t ht).trans hc⟩, ?_⟩
      · change m.failedResumes + k ≤ 1
        omega
      · simp only [Poll.left, hfirst, Bool.false_eq_true, if_false, if_true] at hleft ⊢
        change p.time s.settlingObservedAt c + 0 + _ + 1 ≤ μ
        linarith
    have htry : watch.Guarantees (do
        let resumed ← p.runBeforeDeadline (Async.await .resumeJob id)
        p.wait resumed.retryAfterMilliseconds : Co Unit) m fun _ m' => ∃ c k, m.clock ≤ c ∧
          k ≤ (if m.failed then 1 else 0) ∧ m' = m.resumed c k := by
      apply resume_run.bind
      · intro resumed m' ⟨c, k, hc, hk, hm'⟩
        subst hm'
        apply wait_run.mono
        intro r m' ⟨c', hm', hc', _⟩
        exact ⟨c', k, hc.trans hc', hk, hm'⟩
      · exact fun _ _ h => h
    apply htry.attempt
    intro r m' hm'
    obtain ⟨c, k, hc, hk, rfl⟩ := hm'
    obtain ⟨haccounts', hleft'⟩ := hspent c k hc hk
    cases r with
    | ok u => exact ⟨haccounts', hleft'⟩
    | error error =>
        dsimp only
        by_cases hconflict : error.isConflict = true
        · rw [if_pos hconflict]
          exact ⟨haccounts', hleft'⟩
        · rw [if_neg hconflict]
          by_cases hfinal : (error.isClient && !error.isRetryable) = true
          · rw [if_pos hfinal]
            exact haccounts'.sound
          · rw [if_neg hfinal]
            exact wait_again haccounts' (by linarith)
  · rw [if_neg hresume]
    exact haccounts.sound

/-- A recovery that is due moves the time from which it is counted, or spends
the flag, or waits. -/
theorem recover_kept {t : ℚ} (haccounts : Accounts s m) (hobserved : s.settlingObservedAt = some t)
    (henabled : s.settlingRecoveryEnabled = true) (hdue : t + 1 ≤ m.clock)
    (hleft : p.left s m ≤ μ) : watch.Guarantees (p.recover s) m (Kept p μ) := by
  have hagain : ∀ c, m.clock ≤ c →
      Accounts { s with settlingRecoveryEnabled := true, settlingObservedAt := some c } (m.at c) ∧
        p.left { s with settlingRecoveryEnabled := true, settlingObservedAt := some c } (m.at c)
          + 1 ≤ μ := by
    intro c hc
    refine ⟨⟨haccounts.failedResumes, haccounts.notifications, haccounts.unfounded, ?_⟩, ?_⟩
    · intro t' ht'
      exact (Option.some.inj ht').ge
    · simp only [Poll.left, Poll.time, hobserved, henabled, if_true, Option.getD_some,
        Seen.at_clock] at hleft ⊢
      linarith
  have htry : watch.Guarantees (do
      let t ← now
      let remaining := p.deadline - t
      if remaining ≤ 0 then Async.throw pollTimeout
      else
        let recovered ← (Async.await (.recoverSettling remaining) id : Co AsyncJobReceipt)
        if recovered.jobId ≠ p.jobId then Async.throw (clientError "invalid_response")
        else if recovered.status = js "settling" then
          let t ← now
          pure { s with settlingRecoveryEnabled := true, settlingObservedAt := some t }
        else pure { s with settlingRecoveryEnabled := false, settlingObservedAt := none } :
        Co PollState) m fun r m' => (∃ c, m.clock ≤ c ∧ m' = m.at c) ∧
          ∀ s', r = .ok s' → Accounts s' m' ∧ p.left s' m' + 1 ≤ μ := by
    apply now_bind
    intro c hc
    dsimp only
    by_cases hlate : p.deadline - c ≤ 0
    · rw [if_pos hlate]
      exact ⟨⟨c, hc, rfl⟩, fun _ hr => nomatch hr⟩
    · rw [if_neg hlate]
      have hcall : watch.Guarantees
          (Async.await (.recoverSettling (p.deadline - c)) id : Co AsyncJobReceipt) (m.at c)
          fun _ m' => m' = m.at c := fun _ _ => rfl
      apply hcall.bind
      · intro recovered m' hm'
        subst hm'
        by_cases hother : recovered.jobId ≠ p.jobId
        · rw [if_pos hother]
          exact ⟨⟨c, hc, rfl⟩, fun _ hr => nomatch hr⟩
        · rw [if_neg hother]
          by_cases hsettling : recovered.status = js "settling"
          · rw [if_pos hsettling]
            apply now_bind
            intro c' hc'
            refine ⟨⟨c', hc.trans hc', rfl⟩, fun s' hs' => ?_⟩
            obtain rfl := Except.ok.inj hs'
            exact hagain c' (hc.trans hc')
          · rw [if_neg hsettling]
            refine ⟨⟨c, hc, rfl⟩, fun s' hs' => ?_⟩
            obtain rfl := Except.ok.inj hs'
            refine ⟨⟨haccounts.failedResumes, haccounts.notifications, haccounts.unfounded,
              fun _ ht => nomatch ht⟩, ?_⟩
            simp only [Poll.left, Poll.time, hobserved, henabled, if_true, Option.getD_some,
              Option.getD_none, Seen.at_clock, Bool.false_eq_true, if_false] at hleft ⊢
            linarith
      · intro x m' hm'
        subst hm'
        exact ⟨⟨c, hc, rfl⟩, fun _ hr => nomatch hr⟩
  apply htry.attempt
  intro r m' ⟨⟨c, hc, hm'⟩, hdone⟩
  cases r with
  | ok s' => exact hdone s' rfl
  | error error =>
      subst hm'
      dsimp only
      by_cases hretry : error.isRetryable = true
      · rw [if_pos hretry]
        apply now_bind
        intro c' hc'
        obtain ⟨haccounts', hleft'⟩ := hagain c' (hc.trans hc')
        rw [← henabled] at haccounts' hleft'
        exact wait_again haccounts' (by rw [Seen.at_at]; linarith)
      · rw [if_neg hretry]
        exact (haccounts.later hc).sound

/-- **A settling job** waits within its limit. -/
theorem settlingJob_kept {response : JobResponse} (hlimit : 1000 ≤ p.settlingRecoveryMilliseconds)
    (haccounts : Accounts s m) (hleft : p.left s m ≤ μ) :
    watch.Guarantees (p.settlingJob s response) m (Kept p μ) := by
  have hwait : ∀ s' m', Accounts s' m' → p.left s' m' ≤ μ → watch.Guarantees
      (p.wait response.retryAfterMilliseconds >>= fun _ =>
        pure (.again { s' with runningObservedAt := none })) m' (Kept p μ) := by
    intro s' m' haccounts' hleft'
    exact wait_again (haccounts'.running none) hleft'
  unfold Poll.settlingJob
  by_cases henabled : s.settlingRecoveryEnabled = true
  · rw [if_pos henabled]
    apply observe_bind
    intro t c hc hread
    have hobserved : Accounts { s with settlingObservedAt := some t } (m.at c) ∧
        p.left { s with settlingObservedAt := some t } (m.at c) ≤ μ := by
      rcases hread with ⟨hsome, rfl⟩ | ⟨hnone, rfl⟩
      · have hsame : { s with settlingObservedAt := some t } = s := by rw [← hsome]
        rw [hsame]
        exact ⟨haccounts, hleft⟩
      · refine ⟨⟨haccounts.failedResumes, haccounts.notifications, haccounts.unfounded, ?_⟩, ?_⟩
        · intro t ht
          exact (Option.some.inj ht).ge
        · simp only [Poll.left, Poll.time, hnone, Option.getD_none, Option.getD_some,
            Seen.at_clock] at hleft ⊢
          linarith
    obtain ⟨haccounts', hleft'⟩ := hobserved
    apply now_bind
    intro u hu
    have hleft'' : p.left { s with settlingObservedAt := some t } (m.at u) ≤ μ := by
      have htime := time_later (p := p) (some t) hu
      simp only [Poll.left, Seen.at_clock] at hleft' htime hu ⊢
      linarith
    by_cases hdue : (p.settlingRecoveryMilliseconds : ℚ) ≤ u - t
    · rw [if_pos hdue]
      have hlimit' : (1000 : ℚ) ≤ p.settlingRecoveryMilliseconds := by exact_mod_cast hlimit
      apply recover_kept (haccounts'.later hu) rfl henabled _ hleft''
      rw [Seen.at_at, Seen.at_clock]
      linarith
    · rw [if_neg hdue]
      exact hwait _ _ (haccounts'.later hu) hleft''
  · rw [if_neg henabled]
    exact hwait s m haccounts hleft

/-- While the job is running a request to resume it is not that of a failed one. -/
theorem runningJob_kept {response : JobResponse} (haccounts : Accounts s m)
    (hfailed : m.failed = false) (hleft : p.left s m ≤ μ) :
    watch.Guarantees (p.runningJob s response) m (Kept p μ) := by
  have hwait : ∀ o c, m.clock ≤ c → watch.Guarantees
      (p.wait response.retryAfterMilliseconds >>= fun _ =>
        pure (.again { s with runningObservedAt := o })) (m.at c) (Kept p μ) := by
    intro o c hc
    apply wait_again ((haccounts.later hc).running o)
    have := time_later (p := p) s.settlingObservedAt hc
    simp only [Poll.left, Seen.at_clock] at hleft ⊢
    linarith
  have htry : ∀ u, m.clock ≤ u → watch.Guarantees (do
      let resumed ← p.runBeforeDeadline (Async.await .resumeJob id)
      let observed ← (if resumed.status.status = .running then some <$> now else pure none)
      p.wait resumed.retryAfterMilliseconds
      pure observed : Co (Option ℚ)) (m.at u) fun r m' => ∃ c, u ≤ c ∧ m' = m.at c ∧
        ∀ o, r = .ok o → u + 1 ≤ c := by
    intro u hu
    apply resume_run.bind
    · intro resumed m' ⟨c, k, hc, hk, hm'⟩
      have hnone : k = 0 := by simpa [hfailed] using hk
      subst hnone hm'
      rw [Seen.at_clock] at hc
      have hread : watch.Guarantees
          (if resumed.status.status = .running then some <$> now else pure none : Co (Option ℚ))
          (m.at c) fun _ m' => ∃ c', c ≤ c' ∧ m' = m.at c' := by
        by_cases hrunning : resumed.status.status = .running
        · rw [if_pos hrunning]
          exact fun c' hc' => ⟨c', hc', rfl⟩
        · rw [if_neg hrunning]
          exact ⟨c, le_rfl, rfl⟩
      apply hread.bind
      · rintro o _ ⟨c', hc', rfl⟩
        apply wait_bind
        · intro c'' hc''
          rw [Seen.at_clock] at hc''
          exact ⟨c'', by linarith, rfl, fun _ _ => by linarith⟩
        · intro x c'' hc''
          exact ⟨c'', (hc.trans hc').trans hc'', rfl, fun _ hr => nomatch hr⟩
      · rintro x _ ⟨c', hc', rfl⟩
        exact ⟨c', hc.trans hc', rfl, fun _ hr => nomatch hr⟩
    · intro x m' ⟨c, k, hc, hk, hm'⟩
      have hnone : k = 0 := by simpa [hfailed] using hk
      subst hnone hm'
      exact ⟨c, hc, rfl, fun _ hr => nomatch hr⟩
  apply observe_bind
  intro t c hc _
  apply now_bind
  intro u hu
  by_cases hdue : (p.runningRecoveryMilliseconds : ℚ) ≤ u - t
  · rw [if_pos hdue]
    have htry' : watch.Guarantees _ ((m.at c).at u) _ := htry u (hc.trans hu)
    apply htry'.attempt
    intro r m' ⟨c', hc', hm', hwaited⟩
    subst hm'
    have hclock : m.clock ≤ c' := (hc.trans hu).trans hc'
    cases r with
    | ok o =>
        have hlate := hwaited o rfl
        refine ⟨(haccounts.later hclock).running o, ?_⟩
        apply left_later { s with runningObservedAt := o } _ hleft
        linarith [hc.trans hu]
    | error error =>
        dsimp only
        by_cases hretry : (error.isConflict || error.isRetryable || !error.isClient) = true
        · rw [if_pos hretry]
          apply now_bind
          intro t' ht'
          exact hwait (some t') t' (hclock.trans ht')
        · rw [if_neg hretry]
          exact (haccounts.later hclock).sound
  · rw [if_neg hdue]
    exact hwait (some t) u (hc.trans hu)

/-- **Every answer** ends the polling or leaves less to do. -/
theorem answered_kept {response : JobResponse} (hlimit : 1000 ≤ p.settlingRecoveryMilliseconds)
    (haccounts : Accounts s m) (hfailed : m.failed = decide (response.status.status = .failed))
    (hleft : p.left s m ≤ μ) : watch.Guarantees (p.answered s response) m (Kept p μ) := by
  have haccounts' : Accounts
      { s with settlingRecoveryEnabled := false, settlingObservedAt := none } m :=
    ⟨haccounts.failedResumes, haccounts.notifications, haccounts.unfounded, fun _ ht => nomatch ht⟩
  have hleft' : p.left { s with settlingRecoveryEnabled := false, settlingObservedAt := none } m ≤
      μ := by
    have htime := time_none (p := p) haccounts.observed
    have hflag : (0 : ℚ) ≤ if s.settlingRecoveryEnabled then 1 else 0 := by
      split <;> norm_num
    simp only [Poll.left, Bool.false_eq_true, if_false] at hleft ⊢
    linarith
  unfold Poll.answered
  cases hstatus : response.status.status with
  | succeeded => exact ⟨hstatus, haccounts.sound⟩
  | failed => exact failedJob_kept haccounts hleft
  | settling => exact settlingJob_kept hlimit haccounts hleft
  | running =>
      apply runningJob_kept haccounts' _ hleft'
      rw [hfailed, hstatus]
      rfl
  | queued => exact wait_again (haccounts'.running none) hleft'

/-- **One pass.**  It throws, or ends the loop with a success, or leaves at
least one less, and it leaves the deadline ahead of where it began. -/
theorem pass_kept (hlimit : 1000 ≤ p.settlingRecoveryMilliseconds) (haccounts : Accounts s m) :
    watch.Guarantees (p.pass s) m fun r m' =>
      Kept p (p.left s m) r m' ∧ ∀ s', r = .ok (.again s') → m.clock < p.deadline := by
  apply now_bind
  intro t ht
  by_cases hlate : p.deadline ≤ t
  · rw [if_pos hlate]
    exact ⟨(haccounts.later ht).sound, fun _ hr => nomatch hr⟩
  · rw [if_neg hlate]
    have hahead : m.clock < p.deadline := by linarith
    have hget : watch.Guarantees (p.runBeforeDeadline (Async.await .getJobStatus id)) (m.at t)
        fun r m' => Accounts s m' ∧ p.left s m' ≤ p.left s m ∧ match r with
          | .ok response => m'.failed = decide (response.status.status = .failed) ∧
              (response.status.status ≠ .settling → m'.authoritative = true)
          | .error error => error.isGone = true → m'.authoritative = true := by
      apply now_bind
      intro u hu
      have hlater : m.clock ≤ u := ht.trans hu
      have hleft : p.left s (m.at u) ≤ p.left s m := by
        have htime := time_later (p := p) s.settlingObservedAt hlater
        simp only [Poll.left, Seen.at_clock]
        linarith
      have haccounts' := haccounts.later hlater
      by_cases hover : p.deadline - u ≤ 0
      · rw [if_pos hover]
        exact ⟨haccounts', hleft, fun hgone => nomatch hgone⟩
      · rw [if_neg hover]
        intro reply _
        cases reply with
        | error error =>
            exact ⟨⟨haccounts'.failedResumes, haccounts'.notifications, haccounts'.unfounded,
              haccounts'.observed⟩, hleft, fun hgone => hgone⟩
        | ok response =>
            exact ⟨⟨haccounts'.failedResumes, haccounts'.notifications, haccounts'.unfounded,
              haccounts'.observed⟩, hleft, rfl, fun hstatus => decide_eq_true hstatus⟩
    apply hget.attempt
    intro r m' ⟨haccounts', hleft', hanswer⟩
    cases r with
    | error error =>
        apply (getFailed_kept haccounts' hanswer hleft').mono
        exact fun r m'' hkept => ⟨hkept, fun _ _ => hahead⟩
    | ok response =>
        obtain ⟨hfailed, hcause⟩ := hanswer
        dsimp only
        by_cases hstatus : response.status.status ≠ .settling
        · rw [if_pos hstatus]
          apply notify_bind haccounts' (hcause hstatus)
          · intro b m'' haccounts'' hclock hfailed''
            have hleft'' : p.left { s with authoritativeCleanupAttempted := b } m'' ≤
                p.left s m := by
              apply le_trans _ hleft'
              simp only [Poll.left, hclock, le_refl]
            apply (answered_kept hlimit haccounts'' (hfailed''.trans hfailed) hleft'').mono
            exact fun r m'' hkept => ⟨hkept, fun _ _ => hahead⟩
          · exact fun x m'' hsound => ⟨hsound, fun _ hr => nomatch hr⟩
        · rw [if_neg hstatus]
          apply (answered_kept hlimit haccounts' hfailed hleft').mono
          exact fun r m'' hkept => ⟨hkept, fun _ _ => hahead⟩

end passes

/-! ## The whole loop -/

/-- What a run of the loop ends in. -/
def Ended (r : Except Thrown (Option AsyncJobStatus)) (m : Seen) : Prop :=
  m.Sound ∧ ∀ status, r = .ok status → ∃ done, status = some done ∧ done.status = .succeeded

section loop

variable {p : Poll} {s : PollState} {m : Seen}

/-- Before the deadline something is left. -/
theorem left_pos (haccounts : Accounts s m) (hahead : m.clock < p.deadline) : 0 < p.left s m := by
  have htime := time_none (p := p) haccounts.observed
  have hresume : (0 : ℚ) ≤ if s.resumeAttempted then 0 else 1 := by split <;> norm_num
  have henabled : (0 : ℚ) ≤ if s.settlingRecoveryEnabled then 1 else 0 := by split <;> norm_num
  simp only [Poll.time, Option.getD_none] at htime
  simp only [Poll.left, Poll.time]
  linarith

/-- The first pass, and the rest if it leaves time for one. -/
theorem loop_step {passes : Nat} (hlimit : 1000 ≤ p.settlingRecoveryMilliseconds)
    (haccounts : Accounts s m)
    (hrest : m.clock < p.deadline → ∀ s' m', Accounts s' m' → p.left s' m' + 1 ≤ p.left s m →
      watch.Guarantees (p.loop passes s') m' Ended) :
    watch.Guarantees (p.loop (passes + 1) s) m Ended := by
  apply (pass_kept hlimit haccounts).bind
  · intro pass m' ⟨hkept, hahead⟩
    cases pass with
    | done status =>
        refine ⟨hkept.2, fun status' hr => ⟨status, ?_, hkept.1⟩⟩
        exact (Except.ok.inj hr).symm
    | again s' => exact hrest (hahead s' rfl) s' m' hkept.1 hkept.2
  · exact fun x m' h => ⟨h.1, fun _ hr => nomatch hr⟩

/-- By induction on the passes that are more than what is left. -/
theorem loop_ends (hlimit : 1000 ≤ p.settlingRecoveryMilliseconds) (passes : Nat)
    (haccounts : Accounts s m) (hleft : p.left s m < passes) :
    watch.Guarantees (p.loop (passes + 1) s) m Ended := by
  induction passes generalizing s m with
  | zero =>
      apply loop_step hlimit haccounts
      intro hahead
      have hpos := left_pos haccounts hahead
      rw [Nat.cast_zero] at hleft
      linarith
  | succ passes ih =>
      apply loop_step hlimit haccounts
      intro _ s' m' haccounts' hleft'
      apply ih haccounts'
      push_cast at hleft
      linarith

/-- A loop that is not cut off runs the same with more passes. -/
theorem loop_more {passes : Nat} {events : List (Σ e, Resp e)}
    {r : Except Thrown (Option AsyncJobStatus)} (hrun : (p.loop passes s).prog.Trace events r)
    (hr : r ≠ .ok none) : (p.loop (passes + 1) s).prog.Trace events r := by
  induction passes generalizing s events with
  | zero =>
      obtain ⟨rfl, rfl⟩ := hrun.ret_eq
      exact absurd rfl hr
  | succ passes ih =>
      obtain ⟨t₁, t₂, r', rfl, hpass, ⟨x, rfl, rfl, rfl⟩ | ⟨pass, rfl, hrest⟩⟩ :=
        Async.trace_bind hrun
      · rw [List.append_nil]
        exact Async.bind_run_error hpass
      · apply Async.bind_run hpass
        cases pass with
        | done status => exact hrest
        | again s' => exact ih hrest

end loop

/-! ## The call -/

/-- The options that are taken have positive limits. -/
theorem readOptions_bounds {options : PollOptions} {timeout : ℚ} {settling running : Int}
    (h : readOptions options = some (timeout, settling, running)) :
    0 < timeout ∧ 1000 ≤ settling := by
  unfold readOptions at h
  split at h
  · rename_i timeout' settling' running' _ _ _
    by_cases hrefused : (timeout' ≤ 0 || settling' < 1000 || running' < 1000) = true
    · rw [if_pos hrefused] at h
      cases h
    · rw [if_neg hrefused] at h
      simp only [Bool.or_eq_true, decide_eq_true_eq, not_or, not_le, not_lt] at hrefused
      obtain ⟨rfl, rfl, rfl⟩ := h
      exact hrefused.1
  · cases h

/-- Passes that are enough: two for every millisecond of the time, and one for
either flag. -/
def enoughPasses (options : PollOptions) : Nat :=
  match readOptions options with
  | none => 0
  | some (timeout, _, _) => 2 * ⌈timeout⌉₊ + 4

variable {lib : UrlLib} {endpoint : JsStr} {receipt : AsyncJobReceipt} {options : PollOptions}
  {passes : Nat}

/-- **The polling ends** within the passes allowed. -/
theorem pollAsyncAnalysis_guarantees (hpasses : enoughPasses options ≤ passes) (clock : ℚ) :
    watch.Guarantees (pollAsyncAnalysis lib endpoint receipt options passes) (.start clock)
      Ended := by
  have hstart : (Seen.start clock).Sound := ⟨Nat.zero_le _, Nat.zero_le _, rfl⟩
  unfold pollAsyncAnalysis
  cases hoptions : readOptions options with
  | none => exact ⟨hstart, fun _ hr => nomatch hr⟩
  | some bounds =>
      obtain ⟨timeout, settling, running⟩ := bounds
      obtain ⟨-, hlimit⟩ := readOptions_bounds hoptions
      by_cases hreceipt : isReceipt lib endpoint receipt = true
      · dsimp only
        rw [if_pos hreceipt]
        apply now_bind
        intro t ht
        simp only [enoughPasses, hoptions] at hpasses
        obtain ⟨n, rfl⟩ : ∃ n, passes = n + 1 := ⟨passes - 1, by omega⟩
        have hn : 2 * ⌈timeout⌉₊ + 3 ≤ n := by omega
        have hceil : timeout ≤ ⌈timeout⌉₊ := Nat.le_ceil timeout
        have hn' : ((2 * ⌈timeout⌉₊ + 3 : Nat) : ℚ) ≤ n := by exact_mod_cast hn
        push_cast at hn'
        apply loop_ends hlimit
        · exact ⟨Nat.zero_le _, Nat.zero_le _, rfl, fun _ ht => nomatch ht⟩
        · have hflag : (if options.recoverSettling then 1 else 0 : ℚ) ≤ 1 := by
            split <;> norm_num
          simp only [Poll.left, Poll.time, Option.getD_none, Seen.at_clock, Bool.false_eq_true,
            if_false]
          linarith
      · dsimp only
        rw [if_neg hreceipt]
        exact ⟨hstart, fun _ hr => nomatch hr⟩

/-- A call that is not cut off is the same with more passes. -/
theorem pollAsyncAnalysis_more {events : List (Σ e, Resp e)}
    {r : Except Thrown (Option AsyncJobStatus)}
    (hrun : (pollAsyncAnalysis lib endpoint receipt options passes).prog.Trace events r)
    (hr : r ≠ .ok none) :
    (pollAsyncAnalysis lib endpoint receipt options (passes + 1)).prog.Trace events r := by
  unfold pollAsyncAnalysis at hrun ⊢
  cases hoptions : readOptions options with
  | none => simpa only [hoptions] using hrun
  | some bounds =>
      simp only [hoptions] at hrun ⊢
      by_cases hreceipt : isReceipt lib endpoint receipt = true
      · rw [if_pos hreceipt] at hrun ⊢
        obtain ⟨t, events', rfl, ⟨x, hx, -⟩ | ⟨a, ha, hrest⟩⟩ := Async.trace_await hrun
        · cases hx
        · obtain rfl := Except.ok.inj ha
          exact Async.bind_run (Async.await_run t) (loop_more hrest hr)
      · rw [if_neg hreceipt] at hrun ⊢
        exact hrun

/-- **Polling ends.**  Whatever the server and the callbacks answer, and on
every clock that is ahead after a sleep by what was slept: the loop returns a
succeeded status or throws, in no more passes than the time allows, and so
does it however many more it could make; a failed job is resumed once at most,
and the notification is made once at most and with cause. -/
theorem pollAsyncAnalysis_ends (hpasses : enoughPasses options ≤ passes) {clock : ℚ}
    {events : List (Σ e, Resp e)} {r : Except Thrown (Option AsyncJobStatus)}
    (hrun : (pollAsyncAnalysis lib endpoint receipt options passes).prog.Trace events r)
    (hclock : watch.Admits (.start clock) events) :
    ((∃ status, r = .ok (some status) ∧ status.status = .succeeded) ∨ ∃ error, r = .error error) ∧
      (watch.after (.start clock) events).Sound ∧
      ∀ more, passes ≤ more →
        (pollAsyncAnalysis lib endpoint receipt options more).prog.Trace events r := by
  have hguarantees : watch.Guarantees (pollAsyncAnalysis lib endpoint receipt options passes)
      (.start clock) Ended := pollAsyncAnalysis_guarantees hpasses clock
  have hended : Ended r (watch.after (.start clock) events) := hguarantees.trace hrun hclock
  obtain ⟨hsound, hdone⟩ := hended
  have hresult : r ≠ .ok none := by
    intro hr
    obtain ⟨done, hnone, -⟩ := hdone none hr
    cases hnone
  refine ⟨?_, hsound, ?_⟩
  · cases r with
    | error error => exact Or.inr ⟨error, rfl⟩
    | ok status =>
        obtain ⟨done, rfl, hstatus⟩ := hdone status rfl
        exact Or.inl ⟨done, rfl, hstatus⟩
  · intro more hmore
    induction more, hmore using Nat.le_induction with
    | base => exact hrun
    | succ more _ ih => exact pollAsyncAnalysis_more ih hresult

/-! ### A run -/

def sampleReceipt : AsyncJobReceipt :=
  { jobId := js "x402_00000000000000000000000000000000"
    jobToken := js "token"
    status := js "queued"
    statusUrl := js "/x402/jobs/x402_00000000000000000000000000000000"
    expiresAt := .finite 1 }

/-- Of `URL` the sample asks nothing: its status path is the canonical one. -/
def sampleUrls : UrlLib where
  Url := Empty
  parse := fun _ _ => none
  protocol := nofun
  username := nofun
  password := nofun
  search := nofun
  hash := nofun
  origin := nofun
  pathname := nofun
  setPathname := nofun
  toText := nofun

def sampleOptions : PollOptions := ⟨some (.finite 2000), none, none, none, false, true⟩

def sampleResponse (status : JobStatus) (retryable : Option Bool) : JobResponse :=
  ⟨⟨sampleReceipt.jobId, status, .finite 1, none, retryable, none, none⟩, .finite 1000⟩

def samplePoll : Poll := ⟨2000, .finite 10000, 120000, 120000, true, sampleReceipt.jobId⟩

def sampleState : PollState := ⟨false, none, none, false, false⟩

/-- The job has failed, and somebody else resumes it. -/
def failedEvents : List (Σ e, Resp e) :=
  [⟨.now, (0 : ℚ)⟩, ⟨.now, (1 : ℚ)⟩,
    ⟨.getJobStatus, Except.ok (sampleResponse .failed (some true))⟩,
    ⟨.onAuthoritativeNonSettling, Except.ok ()⟩, ⟨.now, (1 : ℚ)⟩,
    ⟨.resumeJob, Except.error (.client (js "job_conflict") (some 409) false)⟩]

def succeededEvents : List (Σ e, Resp e) :=
  [⟨.now, (2 : ℚ)⟩, ⟨.now, (2 : ℚ)⟩,
    ⟨.getJobStatus, Except.ok (sampleResponse .succeeded none)⟩]

/-- A run that reads the clock first. -/
theorem run_now {α : Type} {f : ℚ → Co α} {t : ℚ} {events : List (Σ e, Resp e)}
    {r : Except Thrown α} (h : (f t).prog.Trace events r) :
    (now >>= f : Co α).prog.Trace (⟨.now, t⟩ :: events) r := .op h

theorem failed_pass : (samplePoll.pass sampleState).prog.Trace failedEvents
    (.ok (.again ⟨true, none, none, false, true⟩)) := by
  unfold Poll.pass failedEvents
  apply run_now
  rw [if_neg (by norm_num [samplePoll])]
  have hget : (samplePoll.runBeforeDeadline (Async.await .getJobStatus id)).prog.Trace
      [⟨.now, (1 : ℚ)⟩, ⟨.getJobStatus, Except.ok (sampleResponse .failed (some true))⟩]
      (.ok (sampleResponse .failed (some true))) := by
    apply run_now
    rw [if_neg (by norm_num [samplePoll])]
    exact .op (.ret _)
  apply Async.attempt_run hget
  have hnotify : (samplePoll.notifyAuthoritativeNonSettling sampleState).prog.Trace
      [⟨.onAuthoritativeNonSettling, Except.ok ()⟩]
      (.ok { sampleState with authoritativeCleanupAttempted := true }) := .op (.ret _)
  apply Async.bind_run hnotify
  have hresume : (do
      let resumed ← samplePoll.runBeforeDeadline (Async.await .resumeJob id)
      samplePoll.wait resumed.retryAfterMilliseconds : Co Unit).prog.Trace
      [⟨.now, (1 : ℚ)⟩,
        ⟨.resumeJob, Except.error (.client (js "job_conflict") (some 409) false)⟩]
      (.error (.client (js "job_conflict") (some 409) false)) := by
    apply Async.bind_run_error
    apply run_now
    rw [if_neg (by norm_num [samplePoll])]
    exact .op (.ret _)
  exact Async.attempt_run hresume (.ret _)

theorem succeeded_pass : (samplePoll.pass ⟨true, none, none, false, true⟩).prog.Trace
    succeededEvents (.ok (.done (sampleResponse .succeeded none).status)) := by
  unfold Poll.pass succeededEvents
  apply run_now
  rw [if_neg (by norm_num [samplePoll])]
  have hget : (samplePoll.runBeforeDeadline (Async.await .getJobStatus id)).prog.Trace
      [⟨.now, (2 : ℚ)⟩, ⟨.getJobStatus, Except.ok (sampleResponse .succeeded none)⟩]
      (.ok (sampleResponse .succeeded none)) := by
    apply run_now
    rw [if_neg (by norm_num [samplePoll])]
    exact .op (.ret _)
  exact Async.attempt_run hget (.ret _)

/-- The job fails, is resumed and succeeds. -/
theorem sample_run : (pollAsyncAnalysis sampleUrls (js "https://example.com") sampleReceipt
    sampleOptions (enoughPasses sampleOptions)).prog.Trace
      (⟨.now, (0 : ℚ)⟩ :: (failedEvents ++ succeededEvents))
      (.ok (some (sampleResponse .succeeded none).status)) := by
  have hoptions : readOptions sampleOptions = some (2000, 120000, 120000) := by decide +kernel
  have hpasses : enoughPasses sampleOptions = 4002 + 1 + 1 := by
    simp [enoughPasses, hoptions]
  have hreceipt : isReceipt sampleUrls (js "https://example.com") sampleReceipt = true := by
    decide +kernel
  have hdeadline : (0 : ℚ) + 2000 = 2000 := by norm_num
  have hdefault : Number.max (.finite 1000) (.finite 10000) = .finite 10000 := by
    norm_num [Number.max]
  rw [hpasses]
  unfold pollAsyncAnalysis
  simp only [hoptions]
  rw [if_pos hreceipt]
  apply run_now
  simp only [hdeadline, sampleOptions, Option.getD_none, hdefault]
  apply Async.bind_run failed_pass
  rw [← List.append_nil succeededEvents]
  exact Async.bind_run succeeded_pass (.ret _)

/-- That run ends with the status, and the job was resumed once. -/
theorem sample_ends :
    (watch.after (.start 0) (⟨.now, (0 : ℚ)⟩ :: (failedEvents ++ succeededEvents))).Sound ∧
      (watch.after (.start 0) (⟨.now, (0 : ℚ)⟩ :: (failedEvents ++ succeededEvents))).failedResumes
        = 1 := by
  have hclock : watch.Admits (.start 0) (⟨.now, (0 : ℚ)⟩ :: (failedEvents ++ succeededEvents)) := by
    simp [Monitor.Admits, watch, failedEvents, succeededEvents, Seen.start]
  exact ⟨(pollAsyncAnalysis_ends le_rfl sample_run hclock).2.1, rfl⟩

end AsyncClient
