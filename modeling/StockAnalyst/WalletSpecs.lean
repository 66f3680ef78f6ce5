import StockAnalyst.StoreSpecs

/-!
# Specifications of the wallet rate limiter

Every write of the limiter meets the duty of a wallet write: it builds on the
version that was read, and its time is a reading of the clock.
-/

namespace X402

open Python ConditionalStore Coroutine

variable {D : Deployment} {q : Nat} {w : World} {inst : Nat}

/-- The limiter's clock shows a time in its range. -/
theorem walletNow_spec :
    Ensures D q (walletNow inst) w (Post
      (fun now w' => Acts q [.quiet] w w' ∧ Clocked q inst now w'.log ∧
        1 ≤ now ∧ now ≤ maxTimestampMilliseconds)
      (fun _ w' => Acts q [.quiet] w w')) := by
  refine Ensures.bind clock_spec ?_ (fun _ _ hfalse => hfalse.elim)
  rintro now w' ⟨hsteps, hclock⟩
  split
  · rename_i hrange
    exact Ensures.pure ⟨hsteps, hclock, hrange⟩
  · exact Ensures.throw hsteps

/-- Waiting before the next try is quiet. -/
theorem backoff_spec {remaining : Nat} :
    Ensures D q (backoff remaining) w (Post (fun _ w' => Acts q [.quiet] w w')
      (fun _ w' => Acts q [.quiet] w w')) := by
  unfold backoff
  split
  · exact Ensures.pure (Steps.refl w)
  · exact sleep_spec

/-- What a caller of `reserve` knows of an admission it made. -/
def Reserved (q : Nat) (id : PyStr) (reservation : WalletRateReservation)
    (log : List Entry) : Prop :=
  reservation.reservationId = id ∧ (reservation.createdByCaller = true →
    reservation.state = .reserved ∧
    isWalletDigest reservation.walletDigest = true ∧
    1 ≤ reservation.reservedAt ∧
    reservation.reservedAt ≤ maxTimestampMilliseconds ∧
    ∃ put n, Did q (.putWallet put) (.done n) true log ∧
      put.digest = reservation.walletDigest ∧
      (put.write = .create id reservation.reservedAt ∨
        put.write = .append id reservation.reservedAt))

/-- **One try of a reservation** is quiet, and what it returns is reserved. -/
theorem reserveOnce_spec {digest id : PyStr} {now : Int} {remaining : Nat}
    (hclock : Clocked q inst now w.log) (hlo : 1 ≤ now)
    (hhi : now ≤ maxTimestampMilliseconds) :
    Ensures D q (reserveOnce digest id now remaining) w (Post
      (fun made w' => Acts q [.quiet] w w' ∧
        ∀ reservation, made = some reservation → Reserved q id reservation w'.log)
      (fun _ w' => Acts q [.quiet] w w')) := by
  refine Ensures.bind readWalletRateLimit_spec ?_ (fun _ _ h => h)
  rintro (_ | stored) w₁ ⟨hsteps, hver⟩
  · refine Ensures.bind (createWalletRateLimit_spec ?_) ?_
      (fun _ _ h => hsteps.trans h)
    · intro henc
      exact ⟨⟨id, now, rfl, rfl⟩, inst, Did.mono hclock hsteps.suffix⟩
    · rintro (_ | ⟨⟩) w₂ ⟨hsteps₂, hmade⟩
      · refine Ensures.bind backoff_spec ?_
          (fun _ _ h => (hsteps.trans hsteps₂).trans h)
        intro _ w₃ hsteps₃
        exact Ensures.pure ⟨(hsteps.trans hsteps₂).trans hsteps₃, nofun⟩
      · refine Ensures.pure ⟨hsteps.trans hsteps₂, ?_⟩
        rintro reservation heq
        obtain rfl := Option.some.inj heq
        obtain ⟨hdigest, -, put, n, hdid, hput, hwrite⟩ := hmade rfl
        exact ⟨rfl, fun _ => ⟨rfl, hdigest, hlo, hhi, put, n, hdid, hput,
          Or.inl hwrite⟩⟩
  · have hver := hver stored rfl
    have hnow : ∃ inst, Clocked q inst now w₁.log :=
      ⟨inst, Did.mono hclock hsteps.suffix⟩
    dsimp only
    split
    · rename_i found hfound
      have hid : found.reservationId = id := by
        simpa using List.find?_some hfound
      split
      · refine Ensures.pure ⟨hsteps, ?_⟩
        rintro reservation heq
        obtain rfl := Option.some.inj heq
        exact ⟨hid, nofun⟩
      · refine Ensures.bind (replaceWalletRateLimit_spec ?_) ?_
          (fun _ _ h => hsteps.trans h)
        · intro henc
          exact ⟨⟨hver, rfl, trivial⟩, hnow⟩
        · rintro _ w₂ ⟨hsteps₂, -⟩
          refine Ensures.pure ⟨hsteps.trans hsteps₂, ?_⟩
          rintro reservation heq
          obtain rfl := Option.some.inj heq
          exact ⟨hid, nofun⟩
    · rename_i hnone
      split
      · exact Ensures.throw hsteps
      · rename_i hroom
        refine Ensures.bind (replaceWalletRateLimit_spec ?_) ?_
          (fun _ _ h => hsteps.trans h)
        · intro henc
          refine ⟨⟨hver, rfl, ?_, Nat.lt_of_not_le hroom⟩, hnow⟩
          intro e he
          simpa using List.find?_eq_none.1 hnone e he
        · rintro _ w₂ ⟨hsteps₂, hdigest, -, put, n, hdid, hput, hwrite⟩
          refine Ensures.pure ⟨hsteps.trans hsteps₂, ?_⟩
          rintro reservation heq
          obtain rfl := Option.some.inj heq
          exact ⟨rfl, fun _ => ⟨rfl, hdigest, hlo, hhi, put, n, hdid, hput,
            Or.inr hwrite⟩⟩

/-- So are all its tries. -/
theorem reserveLoop_spec {digest id : PyStr} (remaining : Nat) :
    Ensures D q (reserveLoop inst digest id remaining) w (Post
      (fun reservation w' => Acts q [.quiet] w w' ∧
        Reserved q id reservation w'.log)
      (fun _ w' => Acts q [.quiet] w w')) := by
  induction remaining generalizing w with
  | zero => exact Ensures.throw (Steps.refl w)
  | succ remaining ih =>
      unfold reserveLoop
      refine Ensures.bind walletNow_spec ?_ (fun _ _ h => h)
      rintro now w₁ ⟨hsteps, hclock, hlo, hhi⟩
      have hagain : ∀ {w₂}, Acts q [.quiet] w w₂ →
          Ensures D q (reserveLoop inst digest id remaining) w₂ (Post
            (fun reservation w' => Acts q [.quiet] w w' ∧
              Reserved q id reservation w'.log)
            (fun _ w' => Acts q [.quiet] w w')) := by
        intro w₂ hsteps₂
        refine ih.mono ?_
        rintro (x | reservation) w₃ h
        · exact Steps.trans hsteps₂ h
        · exact ⟨Steps.trans hsteps₂ h.1, h.2⟩
      refine Ensures.attempt (reserveOnce_spec hclock hlo hhi) ?_
      rintro (x | _ | reservation) w₂ h
      · have hsteps₂ : Acts q [.quiet] w w₂ := hsteps.trans h
        cases x
        case jobConflict =>
          refine Ensures.bind backoff_spec ?_ (fun _ _ h => hsteps₂.trans h)
          intro _ w₃ hsteps₃
          exact hagain (hsteps₂.trans hsteps₃)
        all_goals exact Ensures.throw hsteps₂
      · exact hagain (hsteps.trans h.1)
      · exact Ensures.pure ⟨hsteps.trans h.1, h.2 reservation rfl⟩

/-- **A reservation** that comes back is reserved for this call. -/
theorem reserve_spec {wallet id : PyStr} :
    Ensures D q (reserve D inst wallet id) w (Post
      (fun reservation w' => Acts q [.quiet] w w' ∧
        Reserved q id reservation w'.log)
      (fun _ w' => Acts q [.quiet] w w')) := by
  unfold reserve
  split
  · exact Ensures.throw (Steps.refl w)
  · split
    · exact Ensures.throw (Steps.refl w)
    · exact reserveLoop_spec _

/-- Looking for a reservation is quiet. -/
theorem readCommitState_spec {reservation : WalletRateReservation} :
    Ensures D q (readCommitState inst reservation) w (Post
      (fun _ w' => Acts q [.quiet] w w') (fun _ w' => Acts q [.quiet] w w')) := by
  refine Ensures.bind walletNow_spec ?_ (fun _ _ h => h)
  rintro now w₁ ⟨hsteps, -⟩
  split
  · exact Ensures.pure hsteps
  · refine Ensures.attempt readWalletRateLimit_spec ?_
    rintro (x | _ | stored) w₂ h
    · have hsteps₂ : Acts q [.quiet] w w₂ := hsteps.trans h
      cases x <;> exact Ensures.throw hsteps₂
    · exact Ensures.throw (hsteps.trans h.1)
    · have hsteps₂ : Acts q [.quiet] w w₂ := hsteps.trans h.1
      dsimp only
      split
      · exact Ensures.throw hsteps₂
      · split <;> exact Ensures.pure hsteps₂

/-- Confirming a reservation is quiet. -/
theorem confirm_spec {reservation : WalletRateReservation} :
    Ensures D q (confirm inst reservation) w (Post
      (fun _ w' => Acts q [.quiet] w w') (fun _ w' => Acts q [.quiet] w w')) := by
  refine Ensures.bind walletNow_spec ?_ (fun _ _ h => h)
  rintro now w₁ ⟨hsteps, -⟩
  split
  · exact Ensures.pure hsteps
  · refine Ensures.bind readCommitState_spec ?_ (fun _ _ h => hsteps.trans h)
    rintro state w₂ hsteps₂
    cases state
    case reserved => exact Ensures.pure (hsteps.trans hsteps₂)
    all_goals exact Ensures.throw (hsteps.trans hsteps₂)

/-- A durable record that decides the fate of a reservation. -/
def Decides (status : PaymentStatus) (reservation : WalletRateReservation)
    (log : List Entry) : Prop :=
  ∃ tag, JobVersion reservation.reservationId tag log ∧
    tag.content.paymentStatus = status ∧
    tag.content.rateLimitWalletDigest = some reservation.walletDigest ∧
    tag.content.rateLimitReservedAt = some reservation.reservedAt

/-- What decides a reservation decides it for good. -/
theorem Decides.mono {status : PaymentStatus} {reservation : WalletRateReservation}
    {log log' : List Entry} (h : Decides status reservation log)
    (hsuf : log <:+ log') : Decides status reservation log' := by
  obtain ⟨tag, hver, hrest⟩ := h
  exact ⟨tag, hver.mono hsuf, hrest⟩

/-- The payment status that allows a commit or a release. -/
def decisive (commit : Bool) : PaymentStatus := if commit then .settled else .failed

/-- One try of a change is owed once the payment is decided. -/
theorem mutateOnce_spec {reservation : WalletRateReservation} {commit : Bool}
    {now : Int} {remaining : Nat} (hclock : Clocked q inst now w.log)
    (hdecides : Decides (decisive commit) reservation w.log) :
    Ensures D q (mutateOnce inst reservation commit now remaining) w (Post
      (fun _ w' => Acts q [.quiet] w w') (fun _ w' => Acts q [.quiet] w w')) := by
  refine Ensures.bind readWalletRateLimit_spec ?_ (fun _ _ h => h)
  rintro (_ | stored) w₁ ⟨hsteps, hver⟩
  · dsimp only
    split
    · exact Ensures.throw hsteps
    · exact Ensures.pure hsteps
  · have hver := hver stored rfl
    dsimp only
    split
    · split
      · exact Ensures.throw hsteps
      · exact Ensures.pure hsteps
    · split
      · exact Ensures.pure hsteps
      · refine Ensures.attempt (replaceWalletRateLimit_spec ?_) ?_
        · intro henc
          have hnow : ∃ inst, Clocked q inst now w₁.log :=
            ⟨inst, Did.mono hclock hsteps.suffix⟩
          have hdec := hdecides.mono hsteps.suffix
          cases commit with
          | true => exact ⟨⟨hver, rfl, trivial⟩, hnow, hdec⟩
          | false => exact ⟨⟨hver, rfl, trivial⟩, hnow, hdec⟩
        · rintro (x | _) w₂ h
          · have hsteps₂ : Acts q [.quiet] w w₂ := hsteps.trans h
            cases x
            case jobConflict =>
              refine Ensures.bind backoff_spec ?_ (fun _ _ h => hsteps₂.trans h)
              intro _ w₃ hsteps₃
              exact Ensures.pure (hsteps₂.trans hsteps₃)
            case cancelled => exact Ensures.throw hsteps₂
            all_goals
              dsimp only
              split
              · exact Ensures.throw hsteps₂
              · refine Ensures.bind readCommitState_spec ?_
                  (fun _ _ h => hsteps₂.trans h)
                intro state w₃ hsteps₃
                cases state <;> exact Ensures.pure (hsteps₂.trans hsteps₃)
          · exact Ensures.pure (hsteps.trans h.1)

/-- So are all its tries. -/
theorem mutateLoop_spec {reservation : WalletRateReservation} {commit : Bool}
    (remaining : Nat) (hdecides : Decides (decisive commit) reservation w.log) :
    Ensures D q (mutateLoop inst reservation commit remaining) w (Post
      (fun _ w' => Acts q [.quiet] w w') (fun _ w' => Acts q [.quiet] w w')) := by
  induction remaining generalizing w with
  | zero => exact Ensures.throw (Steps.refl w)
  | succ remaining ih =>
      unfold mutateLoop
      refine Ensures.bind walletNow_spec ?_ (fun _ _ h => h)
      rintro now w₁ ⟨hsteps, hclock, -⟩
      have hagain : ∀ {w₂}, Acts q [.quiet] w w₂ →
          Ensures D q (mutateLoop inst reservation commit remaining) w₂ (Post
            (fun _ w' => Acts q [.quiet] w w')
            (fun _ w' => Acts q [.quiet] w w')) := by
        intro w₂ hsteps₂
        refine (ih (hdecides.mono hsteps₂.suffix)).mono ?_
        rintro (x | u) w₃ h
        · exact Steps.trans hsteps₂ h
        · exact Steps.trans hsteps₂ h
      refine Ensures.attempt
        (mutateOnce_spec hclock (hdecides.mono hsteps.suffix)) ?_
      rintro (x | _ | _) w₂ h
      · have hsteps₂ : Acts q [.quiet] w w₂ := hsteps.trans h
        cases x
        case jobConflict =>
          refine Ensures.bind backoff_spec ?_ (fun _ _ h => hsteps₂.trans h)
          intro _ w₃ hsteps₃
          exact hagain (hsteps₂.trans hsteps₃)
        all_goals exact Ensures.throw hsteps₂
      · exact hagain (hsteps.trans h)
      · exact Ensures.pure (hsteps.trans h)

/-- A slot is committed once the payment has settled. -/
theorem commit_spec {reservation : WalletRateReservation}
    (h : Decides .settled reservation w.log) :
    Ensures D q (commit D inst reservation) w (Post
      (fun _ w' => Acts q [.quiet] w w') (fun _ w' => Acts q [.quiet] w w')) :=
  mutateLoop_spec _ h

/-- A slot is released once the payment has failed. -/
theorem release_spec {reservation : WalletRateReservation}
    (h : Decides .failed reservation w.log) :
    Ensures D q (release D inst reservation) w (Post
      (fun _ w' => Acts q [.quiet] w w') (fun _ w' => Acts q [.quiet] w w')) :=
  mutateLoop_spec _ h

end X402
