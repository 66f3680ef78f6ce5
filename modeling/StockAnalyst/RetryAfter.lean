import StockAnalyst.WalletFrame
import StockAnalyst.PyDumps

/-!
# The time to retry

A refused admission tells the buyer how many seconds to wait.  The number is
exact: with the wallet left alone, the same call is refused again after any
smaller whole number of seconds and goes through from then on.
-/

namespace X402

open Python ConditionalStore Coroutine
open Js (JsStr)

variable {D : Deployment} {digest wallet id : PyStr} {inst pid : Nat} {now time : Int}
  {stored : StoredWallet} {w : World}

/-! ## The oldest entry -/

/-- A minimum is at most each of its numbers. -/
theorem foldl_min_le (xs : List Int) (a : Int) :
    xs.foldl min a ≤ a ∧ ∀ x ∈ xs, xs.foldl min a ≤ x := by
  induction xs generalizing a with
  | nil => simp
  | cons x xs ih =>
      obtain ⟨hacc, hmem⟩ := ih (min a x)
      rw [List.foldl_cons]
      refine ⟨hacc.trans (min_le_left _ _), ?_⟩
      exact List.forall_mem_cons.2 ⟨hacc.trans (min_le_right _ _), hmem⟩

/-- A minimum is one of its numbers. -/
theorem foldl_min_mem (xs : List Int) (a : Int) : xs.foldl min a = a ∨ xs.foldl min a ∈ xs := by
  induction xs generalizing a with
  | nil => simp
  | cons x xs ih =>
      rw [List.foldl_cons]
      obtain hacc | hmem := ih (min a x)
      · obtain hleft | hright := min_choice a x
        · exact Or.inl (hacc.trans hleft)
        · exact Or.inr (by rw [hacc, hright]; exact List.mem_cons_self)
      · exact Or.inr (List.mem_cons_of_mem _ hmem)

/-- The number of seconds is that of the oldest entry, rounded up. -/
theorem retryAfter_oldest {entries : List WalletEntry} (hne : entries ≠ [])
    (hactive : ∀ e ∈ entries, Active e.reservedAt now) :
    ∃ oldest ∈ entries, (∀ e ∈ entries, oldest.reservedAt ≤ e.reservedAt) ∧
      1 ≤ retryAfter entries now ∧
      1000 * (retryAfter entries now - 1) < oldest.reservedAt + windowMilliseconds - now ∧
      oldest.reservedAt + windowMilliseconds - now ≤ 1000 * retryAfter entries now := by
  obtain ⟨first, rest, rfl⟩ := List.exists_cons_of_ne_nil hne
  obtain ⟨-, hle⟩ := foldl_min_le ((first :: rest).map (·.reservedAt)) first.reservedAt
  have hmem : ((first :: rest).map (·.reservedAt)).foldl min first.reservedAt ∈
      (first :: rest).map (·.reservedAt) := by
    obtain hfirst | hmem := foldl_min_mem ((first :: rest).map (·.reservedAt)) first.reservedAt
    · rw [hfirst]
      exact List.mem_cons_self
    · exact hmem
  obtain ⟨oldest, holdest, heq⟩ := List.mem_map.1 hmem
  have hvalue : retryAfter (first :: rest) now =
      max 1 ((oldest.reservedAt + windowMilliseconds - now + 999) / 1000) := by
    rw [heq]
    rfl
  have hold := hactive oldest holdest
  unfold Active at hold
  refine ⟨oldest, holdest, ?_, ?_, ?_, ?_⟩
  · intro e he
    rw [heq]
    exact hle _ (List.mem_map_of_mem he)
  all_goals
    rw [hvalue]
    omega

/-! ## Calls that are alone with the wallet -/

/-- A reply where nothing goes wrong: the clock shows `time`, and the store
answers and refuses a write only for its precondition. -/
def Smooth (time : Int) : (e : Eff) → World → Resp e → Prop
  | .clock _, _, now => now = time
  | .getWallet _, _, found => ∃ stored, found = .ok stored
  | .putWallet put, w, r => (∃ serial, r = .done serial) ∨ (r = .preconditionFailed ∧
      (walletAt put.digest w.log).map (·.serial) ≠ put.expect.map (·.serial))
  | _, _, _ => True

/-- What a run of process `pid` at `time` comes to when no other process
writes the wallet object. -/
def Alone {α : Type} (pid : Nat) (digest : PyStr) (time : Int) (p : Co α) (w : World)
    (Q : Except Exn α → World → Prop) : Prop :=
  p.prog.Assured (fun w w' => walletAt digest w'.log = walletAt digest w.log)
    (fun e w r w' => React pid e w r w' ∧ Smooth time e w r) w Q

/-- Only a put changes what a wallet holds. -/
theorem React.walletAt_eq {e : Eff} {r : Resp e} {w' : World} (h : React pid e w r w')
    (he : ∀ put, e ≠ .putWallet put) : walletAt digest w'.log = walletAt digest w.log := by
  obtain ⟨landed, -, rfl⟩ := h
  refine walletAt_of_none ?_
  cases landed with
  | false => rfl
  | true =>
      cases e with
      | putWallet put => exact absurd rfl (he put)
      | _ => rfl

section rules

variable {α β : Type} {Q : Except Exn α → World → Prop}

/-- A process alone reads the time it is. -/
theorem alone_clock (hat : walletAt digest w.log = some stored)
    (h1 : 1 ≤ time) (h2 : time ≤ maxTimestampMilliseconds) :
    Alone pid digest time (walletNow inst) w
      (fun out w' => out = .ok time ∧ walletAt digest w'.log = some stored) := by
  refine Async.assured_bind (P := fun out w' => out = .ok time ∧
    walletAt digest w'.log = some stored) ?_ ?_ ?_
  · refine Async.assured_await ⟨w, time, _, rfl, ⟨false, rfl, rfl⟩, rfl⟩ ?_
    intro w₁ now w' hquiet hanswer
    obtain ⟨hreact, hsmooth⟩ := hanswer
    obtain rfl : now = time := hsmooth
    refine ⟨rfl, ?_⟩
    rw [hreact.walletAt_eq (fun put h => by cases h), hquiet, hat]
  · intro now w' hnow
    obtain ⟨heq, hat'⟩ := hnow
    obtain rfl := Except.ok.inj heq
    rw [if_pos ⟨h1, h2⟩]
    exact ⟨rfl, hat'⟩
  · intro x w' hx
    cases hx.1

/-- A process alone reads the wallet that is stored. -/
theorem alone_read (hdigest : isWalletDigest digest = true)
    (hat : walletAt digest w.log = some stored) :
    Alone pid digest time (readWalletRateLimit digest) w
      (fun out w' => out = .ok (some stored) ∧ walletAt digest w'.log = some stored) := by
  unfold readWalletRateLimit
  rw [hdigest, Bool.not_true, if_neg Bool.false_ne_true]
  refine Async.assured_await
    ⟨w, .ok (walletAt digest w.log), _, rfl, ⟨false, ⟨rfl, rfl⟩, rfl⟩, ⟨_, rfl⟩⟩ ?_
  intro w₁ found w' hquiet hanswer
  obtain ⟨hreact, hfound⟩ := hanswer
  obtain ⟨found, rfl⟩ := hfound
  obtain ⟨landed, hread, -⟩ := id hreact
  have hcur : found = walletAt digest w₁.log := hread.1
  refine ⟨?_, ?_⟩
  · rw [hcur, hquiet, hat]
    rfl
  · rw [hreact.walletAt_eq (fun put h => by cases h), hquiet, hat]

/-- A write on the current object is done at once. -/
theorem alone_replace {write : WalletWrite} {entries : List WalletEntry}
    (hdigest : isWalletDigest digest = true) (hat : walletAt digest w.log = some stored)
    (henc : walletEncodable entries = true) :
    Alone pid digest time (replaceWalletRateLimit digest stored write entries) w
      (fun out _ => out = .ok ()) := by
  unfold replaceWalletRateLimit
  rw [dif_pos henc, hdigest, Bool.not_true, if_neg Bool.false_ne_true]
  have hcur : ∀ {w₁ : World}, walletAt digest w₁.log = walletAt digest w.log →
      (walletAt digest w₁.log).map (·.serial) = (some stored).map (·.serial) := by
    intro w₁ hquiet
    rw [hquiet, hat]
  refine Async.assured_bind (P := fun out _ => ∃ serial, out = .ok (some serial)) ?_ ?_ ?_
  · unfold conditionalPutAttempts conditionalPut
    refine Async.assured_bind (P := fun out _ => ∃ serial, out = .ok (.done serial)) ?_ ?_ ?_
    · refine Async.assured_await ⟨w, _, _, rfl, ⟨true, .done (hcur rfl), rfl⟩, Or.inl ⟨_, rfl⟩⟩ ?_
      intro w₁ r w' hquiet hanswer
      obtain ⟨-, ⟨serial, rfl⟩ | ⟨-, hother⟩⟩ := hanswer
      · exact ⟨serial, rfl⟩
      · exact absurd (hcur hquiet) hother
    · intro r w' hr
      obtain ⟨serial, heq⟩ := hr
      obtain rfl := Except.ok.inj heq
      exact ⟨serial, rfl⟩
    · intro x w' hx
      obtain ⟨serial, heq⟩ := hx
      cases heq
  · intro r w' hr
    obtain ⟨serial, heq⟩ := hr
    obtain rfl := Except.ok.inj heq
    exact rfl
  · intro x w' hx
    obtain ⟨serial, heq⟩ := hx
    cases heq

/-- What follows a step that returns. -/
theorem Alone.bind {p : Co β} {f : β → Co α} {b : β} {w : World}
    (hp : Alone pid digest time p w
      (fun out w' => out = .ok b ∧ walletAt digest w'.log = some stored))
    (hf : ∀ w', walletAt digest w'.log = some stored → Alone pid digest time (f b) w' Q) :
    Alone pid digest time (p >>= f) w Q := by
  refine Async.assured_bind hp ?_ ?_
  · intro b' w' hb
    obtain ⟨heq, hat⟩ := hb
    obtain rfl := Except.ok.inj heq
    exact hf w' hat
  · intro x w' hx
    cases hx.1

end rules

/-! ## What the wallet answers -/

/-- At `time` the wallet has no admission for the id. -/
structure WalletFull (id : PyStr) (time : Int) (stored : StoredWallet) : Prop where
  full : capacity ≤ (activeEntries stored.content.entries time).length
  fresh : (activeEntries stored.content.entries time).find? (fun e => e.reservationId = id) = none

/-- At `time` the wallet admits the id. -/
structure WalletAdmits (id : PyStr) (time : Int) (stored : StoredWallet) : Prop where
  room : (activeEntries stored.content.entries time).length < capacity
  fresh : (activeEntries stored.content.entries time).find? (fun e => e.reservationId = id) = none
  encodable : walletEncodable
    (activeEntries stored.content.entries time ++ [⟨id, time, .reserved⟩]) = true

section alone

variable (hat : walletAt digest w.log = some stored) (hwallet : walletDigest D wallet = some digest)
  (hid : isJobId id = true) (hdigest : isWalletDigest digest = true) (h1 : 1 ≤ time)
  (h2 : time ≤ maxTimestampMilliseconds)

include hat hwallet hid hdigest h1 h2

/-- **A full wallet is refused**, with the seconds until a slot is free. -/
theorem reserve_refused (h : WalletFull id time stored) :
    Alone pid digest time (reserve D inst wallet id) w (fun out w' =>
      out = .error (.walletExceeded (retryAfter (activeEntries stored.content.entries time) time)) ∧
        walletAt digest w'.log = some stored) := by
  obtain ⟨n, hn⟩ : ∃ n, (D.service inst).walletAttempts = n + 1 :=
    ⟨(D.service inst).walletAttempts - 1, by have := (D.service inst).walletAttempts_range; omega⟩
  unfold reserve
  rw [hwallet]
  dsimp only
  rw [hid, Bool.not_true, if_neg Bool.false_ne_true, hn, reserveLoop]
  refine Alone.bind (alone_clock hat h1 h2) ?_
  intro w₁ hat₁
  have honce : Alone pid digest time (reserveOnce digest id time n) w₁ (fun out w' =>
      out = .error (.walletExceeded (retryAfter (activeEntries stored.content.entries time) time)) ∧
        walletAt digest w'.log = some stored) := by
    unfold reserveOnce
    refine Alone.bind (alone_read hdigest hat₁) ?_
    intro w₂ hat₂
    dsimp only
    rw [h.fresh]
    dsimp only
    rw [if_pos h.full]
    exact ⟨rfl, hat₂⟩
  refine Async.assured_bind (Async.assured_attempt honce) ?_ ?_
  · intro r w₂ hr
    obtain ⟨r', heq, rfl, hat₂⟩ := hr
    obtain rfl := Except.ok.inj heq
    exact ⟨rfl, hat₂⟩
  · intro x w₂ hx
    obtain ⟨r', heq, -⟩ := hx
    cases heq

/-- **A wallet with a free slot is admitted.** -/
theorem reserve_admitted (h : WalletAdmits id time stored) :
    Alone pid digest time (reserve D inst wallet id) w
      (fun out _ => out = .ok ⟨digest, id, time, .reserved, true⟩) := by
  obtain ⟨n, hn⟩ : ∃ n, (D.service inst).walletAttempts = n + 1 :=
    ⟨(D.service inst).walletAttempts - 1, by have := (D.service inst).walletAttempts_range; omega⟩
  unfold reserve
  rw [hwallet]
  dsimp only
  rw [hid, Bool.not_true, if_neg Bool.false_ne_true, hn, reserveLoop]
  refine Alone.bind (alone_clock hat h1 h2) ?_
  intro w₁ hat₁
  have honce : Alone pid digest time (reserveOnce digest id time n) w₁
      (fun out _ => out = .ok (some ⟨digest, id, time, .reserved, true⟩)) := by
    unfold reserveOnce
    refine Alone.bind (alone_read hdigest hat₁) ?_
    intro w₂ hat₂
    dsimp only
    rw [h.fresh]
    dsimp only
    rw [if_neg (Nat.not_le_of_lt h.room)]
    refine Async.assured_bind (alone_replace hdigest hat₂ h.encodable) ?_ ?_
    · intro u w₃ hu
      exact rfl
    · intro x w₃ hx
      cases hx
  refine Async.assured_bind (Async.assured_attempt honce) ?_ ?_
  · intro r w₂ hr
    obtain ⟨r', heq, rfl⟩ := hr
    obtain rfl := Except.ok.inj heq
    exact rfl
  · intro x w₂ hx
    obtain ⟨r', heq, -⟩ := hx
    cases heq

end alone

/-! ## Which runs are refused -/

section raised

variable {α β : Type} {t : Calls} {remaining : Nat} {seconds : Int}

/-- No run of the coroutine raises `WalletRateLimitExceeded`. -/
def NeverExceeds (p : Co α) : Prop := ∀ t seconds, ¬ Prog.Trace p t (.error (.walletExceeded seconds))

/-- A value that is returned exceeds no limit. -/
theorem neverExceeds_pure (a : α) : NeverExceeds (pure a : Co α) := by
  intro t seconds h
  cases h

/-- Nor does any other exception. -/
theorem neverExceeds_throw {x : Exn} (hx : ∀ seconds, x ≠ .walletExceeded seconds) :
    NeverExceeds (Async.throw x : Co α) := by
  intro t seconds h
  cases h
  exact hx seconds rfl

/-- Nor does an effect that does not answer so. -/
theorem neverExceeds_await {e : Eff} {reply : Resp e → Except Exn α}
    (h : ∀ r seconds, reply r ≠ .error (.walletExceeded seconds)) :
    NeverExceeds (Async.await e reply) := by
  intro t seconds htrace
  cases htrace with
  | @op _ _ r _ _ rest => exact h r seconds rest.ret_eq.2

/-- Nor do two such programs one after the other. -/
theorem NeverExceeds.bind {p : Co α} {f : α → Co β} (hp : NeverExceeds p)
    (hf : ∀ a, NeverExceeds (f a)) : NeverExceeds (p >>= f) := by
  intro t seconds h
  obtain ⟨t₁, t₂, r, rfl, hfirst, ⟨x, rfl, -, hout⟩ | ⟨a, rfl, hrest⟩⟩ := Async.trace_bind h
  · obtain rfl := Except.error.inj hout
    exact hp _ _ hfirst
  · exact hf a _ _ hrest

/-- A put never reports an exceeded wallet. -/
theorem conditionalPut_neverExceeds {put : WalletPut} (n : Nat) :
    NeverExceeds (conditionalPut (Async.await (.putWallet put) .ok) n) := by
  induction n with
  | zero =>
      apply neverExceeds_throw
      intro seconds h
      cases h
  | succ n ih =>
      unfold conditionalPut
      refine NeverExceeds.bind (neverExceeds_await fun _ _ h => by cases h) ?_
      intro reply
      cases reply with
      | done serial => exact neverExceeds_pure _
      | preconditionFailed => exact neverExceeds_pure _
      | fault f =>
          apply neverExceeds_throw
          intro seconds h
          cases f <;> cases h
      | conflict =>
          dsimp only
          split
          · apply neverExceeds_throw
            intro seconds h
            cases h
          · exact ih

/-- Nor does creating a wallet. -/
theorem createWallet_neverExceeds {write : WalletWrite} {entries : List WalletEntry} :
    NeverExceeds (createWalletRateLimit digest write entries) := by
  unfold createWalletRateLimit
  split
  · split
    · exact neverExceeds_throw nofun
    · refine (conditionalPut_neverExceeds _).bind ?_
      intro done
      cases done <;> exact neverExceeds_pure _
  · exact neverExceeds_throw nofun

/-- Nor does replacing one. -/
theorem replaceWallet_neverExceeds {write : WalletWrite} {entries : List WalletEntry} :
    NeverExceeds (replaceWalletRateLimit digest stored write entries) := by
  unfold replaceWalletRateLimit
  split
  · split
    · exact neverExceeds_throw nofun
    · refine (conditionalPut_neverExceeds _).bind ?_
      intro done
      cases done with
      | none => exact neverExceeds_throw nofun
      | some serial => exact neverExceeds_pure _
  · exact neverExceeds_throw nofun

/-- Nor does waiting. -/
theorem backoff_neverExceeds : NeverExceeds (backoff remaining) := by
  unfold backoff
  split
  · exact neverExceeds_pure _
  · exact neverExceeds_await nofun

/-- A pass that refuses has read a full wallet. -/
theorem reserveOnce_exceeded
    (h : Prog.Trace (reserveOnce digest id now remaining) t (.error (.walletExceeded seconds))) :
    ∃ stored, t = [⟨.getWallet digest, .ok (some stored)⟩] ∧ WalletFull id now stored ∧
      isWalletDigest digest = true ∧
      seconds = retryAfter (activeEntries stored.content.entries now) now := by
  unfold reserveOnce at h
  have hdigest : isWalletDigest digest = true := by
    by_contra hbad
    unfold readWalletRateLimit at h
    rw [Bool.eq_false_iff.2 hbad] at h
    cases h
  obtain ⟨-, hout⟩ | ⟨reply, t', rfl, ⟨fault, -, -, hout⟩ | ⟨found, rfl, hrest⟩⟩ :=
    trace_readWallet h
  · cases hout
  · cases fault <;> cases hout
  · cases found with
    | none =>
        refine absurd hrest (NeverExceeds.bind createWallet_neverExceeds ?_ _ _)
        intro done
        cases done with
        | none => exact backoff_neverExceeds.bind fun _ => neverExceeds_pure _
        | some u => exact neverExceeds_pure _
    | some stored =>
        dsimp only at hrest
        split at hrest
        · split at hrest
          · exact absurd hrest (neverExceeds_pure _ _ _)
          · exact absurd hrest
              (replaceWallet_neverExceeds.bind (fun _ => neverExceeds_pure _) _ _)
        · rename_i hnone
          split at hrest
          · rename_i hfull
            cases hrest
            exact ⟨stored, rfl, ⟨hfull, hnone⟩, hdigest, rfl⟩
          · exact absurd hrest
              (replaceWallet_neverExceeds.bind (fun _ => neverExceeds_pure _) _ _)

/-- **Only a full wallet is refused**: the last read has found it full at the
last clock. -/
theorem reserveLoop_exceeded
    (h : Prog.Trace (reserveLoop inst digest id remaining) t (.error (.walletExceeded seconds))) :
    ∃ now stored t₁, t = t₁ ++ [⟨.clock inst, now⟩, ⟨.getWallet digest, .ok (some stored)⟩] ∧
      1 ≤ now ∧ now ≤ maxTimestampMilliseconds ∧ WalletFull id now stored ∧
      isWalletDigest digest = true ∧
      seconds = retryAfter (activeEntries stored.content.entries now) now := by
  induction remaining generalizing t with
  | zero => cases h
  | succ remaining ih =>
      rw [reserveLoop] at h
      obtain ⟨now, t', rfl, ⟨-, hout⟩ | ⟨h1, h2, hpass⟩⟩ := trace_walletNow h
      · cases hout
      · obtain ⟨t₁, t₂, r, rfl, honce, hrest⟩ := Async.trace_attempt hpass
        have hlater : ∀ {t₃ t₄ : Calls}, t₂ = t₃ ++ t₄ →
            Prog.Trace (reserveLoop inst digest id remaining) t₄
              (.error (.walletExceeded seconds)) →
            ∃ now' stored t₅, (⟨.clock inst, now⟩ :: (t₁ ++ t₂) : Calls) =
                t₅ ++ [⟨.clock inst, now'⟩, ⟨.getWallet digest, .ok (some stored)⟩] ∧
              1 ≤ now' ∧ now' ≤ maxTimestampMilliseconds ∧ WalletFull id now' stored ∧
              isWalletDigest digest = true ∧
              seconds = retryAfter (activeEntries stored.content.entries now') now' := by
          intro t₃ t₄ hsplit hloop
          obtain ⟨now', stored, t₅, rfl, hrest⟩ := ih hloop
          refine ⟨now', stored, ⟨.clock inst, now⟩ :: (t₁ ++ t₃ ++ t₅), ?_, hrest⟩
          rw [hsplit, List.cons_append, List.append_assoc, List.append_assoc]
        split at hrest
        · cases hrest
        · exact hlater (List.nil_append _).symm hrest
        · cases hrest
          obtain ⟨stored, rfl, hrefused⟩ := reserveOnce_exceeded honce
          exact ⟨now, stored, [], rfl, h1, h2, hrefused⟩
        · obtain ⟨t₃, t₄, r', rfl, hwait, ⟨x, rfl, -, hout⟩ | ⟨u, -, hloop⟩⟩ :=
            Async.trace_bind hrest
          · obtain rfl := Except.error.inj hout
            exact absurd hwait (backoff_neverExceeds _ _)
          · exact hlater rfl hloop
        · cases hrest
        · cases hrest

end raised

/-! ## The seconds pass -/

/-- What is active later is active now. -/
theorem activeEntries_later {entries : List WalletEntry} {later : Int} (h : now ≤ later) :
    activeEntries entries later =
      (activeEntries entries now).filter fun e => Active e.reservedAt later := by
  unfold activeEntries
  rw [List.filter_filter]
  refine List.filter_congr ?_
  intro e _
  have himp : Active e.reservedAt later → Active e.reservedAt now := by
    unfold Active
    omega
  by_cases hlater : Active e.reservedAt later
  · simp [hlater, himp hlater]
  · simp [hlater]

/-- An entry is active while its hour has not passed. -/
theorem mem_activeEntries {entries : List WalletEntry} {e : WalletEntry} :
    e ∈ activeEntries entries now ↔ e ∈ entries ∧ Active e.reservedAt now := by
  unfold activeEntries
  rw [List.mem_filter, decide_eq_true_eq]

/-- The oldest entry of a full wallet says how long to wait. -/
theorem WalletFull.oldest (h : WalletFull id now stored) :
    ∃ oldest ∈ activeEntries stored.content.entries now,
      (∀ e ∈ activeEntries stored.content.entries now, oldest.reservedAt ≤ e.reservedAt) ∧
      1 ≤ retryAfter (activeEntries stored.content.entries now) now ∧
      1000 * (retryAfter (activeEntries stored.content.entries now) now - 1) <
        oldest.reservedAt + windowMilliseconds - now ∧
      oldest.reservedAt + windowMilliseconds - now ≤
        1000 * retryAfter (activeEntries stored.content.entries now) now := by
  refine retryAfter_oldest ?_ fun e he => (mem_activeEntries.1 he).2
  intro hempty
  have hfull := h.full
  rw [hempty] at hfull
  exact absurd hfull (by decide)

/-- An hour covers every wait. -/
theorem WalletFull.seconds_le (h : WalletFull id now stored)
    (hpast : ∀ e ∈ stored.content.entries, e.reservedAt ≤ now) :
    retryAfter (activeEntries stored.content.entries now) now ≤ 3600 := by
  obtain ⟨oldest, hmem, -, -, hlow, -⟩ := h.oldest
  have := hpast oldest (mem_activeEntries.1 hmem).1
  unfold windowMilliseconds at hlow
  omega

/-- Before the seconds are over the wallet is as full as it was. -/
theorem WalletFull.still_full (h : WalletFull id now stored) {k : Nat}
    (hk : (k : Int) < retryAfter (activeEntries stored.content.entries now) now) :
    WalletFull id (now + 1000 * k) stored := by
  obtain ⟨oldest, -, hle, -, hlow, -⟩ := h.oldest
  have hsame : activeEntries stored.content.entries (now + 1000 * k) =
      activeEntries stored.content.entries now := by
    have hwait : now ≤ now + 1000 * k := by omega
    rw [activeEntries_later hwait]
    refine List.filter_eq_self.2 ?_
    intro e he
    have := hle e he
    refine decide_eq_true ?_
    unfold Active
    omega
  constructor
  · rw [hsame]
    exact h.full
  · rw [hsame]
    exact h.fresh

/-- Once the seconds are over the wallet admits the id. -/
theorem WalletFull.admits (h : WalletFull id now stored) (hid : isJobId id = true) {later : Int}
    (hwait : now + 1000 * retryAfter (activeEntries stored.content.entries now) now ≤ later)
    (hlow : 1 ≤ later) (hhigh : later ≤ maxTimestampMilliseconds) :
    WalletAdmits id later stored := by
  obtain ⟨oldest, hmem, -, hone, -, hupper⟩ := h.oldest
  have hle : now ≤ later := by omega
  have hlater : activeEntries stored.content.entries later =
      (activeEntries stored.content.entries now).filter fun e => Active e.reservedAt later :=
    activeEntries_later hle
  have hgone : ¬ Active oldest.reservedAt later := by
    unfold Active
    omega
  have henc := stored.content.encodable
  simp only [walletEncodable, Bool.and_eq_true, decide_eq_true_eq] at henc
  obtain ⟨⟨hlength, hnodup⟩, hvalid⟩ := henc
  have hactive : (activeEntries stored.content.entries now).length ≤ 30 :=
    (List.length_filter_le _ _).trans hlength
  have hroom : (activeEntries stored.content.entries later).length < capacity := by
    have hless : (activeEntries stored.content.entries later).length <
        (activeEntries stored.content.entries now).length := by
      rw [hlater]
      exact List.length_filter_lt_length_iff_exists.2 ⟨oldest, hmem, by simpa using hgone⟩
    unfold capacity
    omega
  have hfresh : ∀ e ∈ activeEntries stored.content.entries later, e.reservationId ≠ id := by
    intro e he
    rw [hlater] at he
    have := List.find?_eq_none.1 h.fresh e (List.mem_filter.1 he).1
    simpa using this
  have hsub : (activeEntries stored.content.entries later).Sublist stored.content.entries :=
    List.filter_sublist
  refine ⟨hroom, ?_, ?_⟩
  · refine List.find?_eq_none.2 ?_
    intro e he
    simpa using hfresh e he
  · simp only [walletEncodable, Bool.and_eq_true, decide_eq_true_eq]
    refine ⟨⟨?_, ?_⟩, ?_⟩
    · unfold capacity at hroom
      rw [List.length_append, List.length_singleton]
      omega
    · rw [List.map_append]
      refine List.nodup_append.2 ⟨(hsub.map _).nodup hnodup, by simp, ?_⟩
      intro a ha b hb
      obtain ⟨e, he, rfl⟩ := List.mem_map.1 ha
      obtain rfl : b = id := by simpa using hb
      exact hfresh e he
    · rw [List.all_append, Bool.and_eq_true]
      refine ⟨?_, ?_⟩
      · refine List.all_eq_true.2 ?_
        intro e he
        exact List.all_eq_true.1 hvalid e (hsub.subset he)
      · simp [hid, hlow, hhigh]

/-! ## The 429 and its reader -/

/-- An answer over HTTP. -/
structure HttpAnswer where
  status : Nat
  headers : List (PyStr × PyStr)
  body : List Nat

/-- `_send_json`; nothing where the body cannot be encoded. -/
def sendJson (lib : PyLib) (status : Nat) (data : Json) (extraHeaders : List (PyStr × PyStr)) :
    Option HttpAnswer :=
  (rawBytes lib data).map fun body =>
    ⟨status, [(py "content-type", py "application/json"),
      (py "content-length", intText body.length)] ++ extraHeaders, body⟩

/-- `_async_response_headers`. -/
def asyncResponseHeaders (tokenAuthenticated : Bool) (extraHeaders : List (PyStr × PyStr)) :
    List (PyStr × PyStr) :=
  [(py "cache-control", py "private, no-store")] ++
    (if tokenAuthenticated then [(py "vary", py "X-Job-Token")] else []) ++ extraHeaders

/-- The answer of `_handle_analyze_async` to `WalletRateLimitExceeded`. -/
def walletRateLimited (lib : PyLib) (retryAfterSeconds : Int) : Option HttpAnswer :=
  sendJson lib 429
    (.obj [(py "errorCode", .str (py "wallet_rate_limited")), (py "retryable", .bool true)])
    (asyncResponseHeaders false [(py "retry-after", intText retryAfterSeconds)])

/-- `response.headers.get(name)`: the values of the headers of that name, in
any case, joined by commas. -/
def HttpAnswer.header (answer : HttpAnswer) (name : PyStr) : Option JsStr :=
  let values := (answer.headers.filter fun h => h.1.map asciiLower = name.map asciiLower).map (·.2)
  if values = [] then none else some (List.intercalate (py ", ") values)

/-- `/^[1-9][0-9]{0,3}$/`. -/
def isRetrySeconds : JsStr → Bool
  | [] => false
  | c :: rest => 49 ≤ c && c ≤ 57 && rest.length ≤ 3 && rest.all fun d => 48 ≤ d && d ≤ 57

/-- `strictWalletRetryAfterMilliseconds`. -/
def strictWalletRetryAfterMilliseconds (response : HttpAnswer) : Option Nat :=
  if response.status ≠ 429 then none
  else
    match response.header (py "Retry-After") with
    | none => none
    | some raw =>
        if !isRetrySeconds raw then none
        else
          let seconds := natOf raw
          if 2 ^ 53 - 1 < seconds ∨ 3600 < seconds then none else some (seconds * 1000)

/-- Seconds are written as digits. -/
theorem intText_seconds {seconds : Int} (h : 1 ≤ seconds) :
    intText seconds = natDigits seconds.natAbs := by
  unfold intText
  rw [if_neg (by omega), if_neg (by omega)]

/-- The digits of an hour's seconds are what the buyer reads. -/
theorem isRetrySeconds_natDigits {n : Nat} (h1 : 1 ≤ n) (h2 : n ≤ 3600) :
    isRetrySeconds (natDigits n) = true := by
  have hunsigned := isUnsignedInteger_natDigits (n := n) (by omega)
  have hlength : (natDigits n).length ≤ 4 := by
    unfold natDigits
    rw [List.length_map, List.length_reverse]
    exact (Nat.digits_length_le_iff (by norm_num) n).2 (by omega)
  have hrange := natDigits_range n
  have hvalue := natOf_natDigits n
  cases hdigits : natDigits n with
  | nil =>
      rw [hdigits] at hunsigned
      cases hunsigned
  | cons c rest =>
      rw [hdigits] at hunsigned hlength hvalue
      simp only [Deliverable.isUnsignedInteger, Bool.or_eq_true, Bool.and_eq_true,
        decide_eq_true_eq] at hunsigned
      rw [List.length_cons] at hlength
      obtain ⟨rfl, rfl⟩ | ⟨⟨hlow, hhigh⟩, hrest⟩ := hunsigned
      · have hzero : n = 0 := hvalue.symm.trans rfl
        omega
      · simp only [isRetrySeconds, Bool.and_eq_true, decide_eq_true_eq]
        exact ⟨⟨⟨hlow, hhigh⟩, by omega⟩, hrest⟩

/-- The answer has one header of that name. -/
theorem header_retryAfter (length value : PyStr) (body : List Nat) :
    HttpAnswer.header ⟨429, [(py "content-type", py "application/json"),
      (py "content-length", length)] ++ asyncResponseHeaders false [(py "retry-after", value)],
      body⟩ (py "Retry-After") = some value := by
  have hvalues : (([(py "content-type", py "application/json"), (py "content-length", length)] ++
      asyncResponseHeaders false [(py "retry-after", value)]).filter fun h =>
        h.1.map asciiLower = (py "Retry-After").map asciiLower).map (·.2) = [value] := rfl
  unfold HttpAnswer.header
  dsimp only
  rw [hvalues, if_neg (by simp), List.intercalate_singleton]

/-- The buyer reads from the answer the seconds that were put into it. -/
theorem strictWalletRetryAfter_rateLimited (lib : PyLib) {seconds : Int} (h1 : 1 ≤ seconds)
    (h2 : seconds ≤ 3600) :
    ∃ answer wait, walletRateLimited lib seconds = some answer ∧
      strictWalletRetryAfterMilliseconds answer = some wait ∧ (wait : Int) = 1000 * seconds := by
  obtain ⟨n, rfl⟩ := Int.eq_ofNat_of_zero_le (by omega : 0 ≤ seconds)
  have hread := isRetrySeconds_natDigits (n := n) (by omega) (by omega)
  obtain ⟨body, hbody⟩ : ∃ body, rawBytes lib (.obj [(py "errorCode",
      .str (py "wallet_rate_limited")), (py "retryable", .bool true)]) = some body := ⟨_, rfl⟩
  have hanswer : walletRateLimited lib n = some ⟨429, [(py "content-type",
      py "application/json"), (py "content-length", intText body.length)] ++
        asyncResponseHeaders false [(py "retry-after", intText n)], body⟩ := by
    unfold walletRateLimited sendJson
    rw [hbody, Option.map_some]
  refine ⟨_, n * 1000, hanswer, ?_, ?_⟩
  · unfold strictWalletRetryAfterMilliseconds
    rw [if_neg (by simp), header_retryAfter]
    dsimp only
    rw [intText_seconds h1, Int.natAbs_natCast, hread, natOf_natDigits, Bool.not_true,
      if_neg Bool.false_ne_true, if_neg (by omega)]
  · push_cast
    ring

/-! ## The time is exact -/

/-- **Retry-after is exact.**  A run that raises `WalletRateLimitExceeded` has
read a full wallet at its last clock.  If no entry lies in the future of that
clock, the seconds are at most an hour and the buyer reads them from the 429;
while nobody else writes the wallet, the same call at any clock from then on
that the limiter takes is admitted, and after any smaller whole number of
seconds it is refused again. -/
theorem retry_after {t : Calls} {r : Int}
    (h : Prog.Trace (reserve D inst wallet id) t (.error (.walletExceeded r))) :
    ∃ digest now stored t₁, walletDigest D wallet = some digest ∧
      t = t₁ ++ [⟨.clock inst, now⟩, ⟨.getWallet digest, .ok (some stored)⟩] ∧
      ((∀ e ∈ stored.content.entries, e.reservedAt ≤ now) →
        1 ≤ r ∧ r ≤ 3600 ∧
        (∀ pid inst' w later, walletAt digest w.log = some stored → now + 1000 * r ≤ later →
          later ≤ maxTimestampMilliseconds →
          Alone pid digest later (reserve D inst' wallet id) w
            (fun out _ => out = .ok ⟨digest, id, later, .reserved, true⟩)) ∧
        (∀ pid inst' w (k : Nat), walletAt digest w.log = some stored → k < r →
          now + 1000 * k ≤ maxTimestampMilliseconds →
          Alone pid digest (now + 1000 * k) (reserve D inst' wallet id) w
            (fun out _ => ∃ r', out = .error (.walletExceeded r'))) ∧
        ∃ answer wait, walletRateLimited D.verify.lib r = some answer ∧
          strictWalletRetryAfterMilliseconds answer = some wait ∧ (wait : Int) = 1000 * r) := by
  unfold reserve at h
  split at h
  · cases h
  · rename_i digest hwallet
    split at h
    · cases h
    · rename_i hgood
      have hid : isJobId id = true := by simpa using hgood
      obtain ⟨now, stored, t₁, rfl, h1, h2, hfull, hdigest, rfl⟩ := reserveLoop_exceeded h
      refine ⟨digest, now, stored, t₁, hwallet, rfl, ?_⟩
      intro hpast
      obtain ⟨-, -, -, hone, -, -⟩ := hfull.oldest
      have hhour := hfull.seconds_le hpast
      refine ⟨hone, hhour, ?_, ?_, strictWalletRetryAfter_rateLimited _ hone hhour⟩
      · intro pid inst' w later hat hwait hlater
        exact reserve_admitted hat hwallet hid hdigest (by omega) hlater
          (hfull.admits hid hwait (by omega) hlater)
      · intro pid inst' w k hat hk hclock
        refine Prog.Assured.mono (reserve_refused hat hwallet hid hdigest (by omega) hclock
          (hfull.still_full hk)) ?_
        intro out w' hout
        exact ⟨_, hout.1⟩

/-- Past the last clock the limiter takes, no wait is long enough. -/
theorem reserve_out_of_range (hwallet : walletDigest D wallet = some digest)
    (hid : isJobId id = true) (h : maxTimestampMilliseconds < time) :
    Alone pid digest time (reserve D inst wallet id) w
      (fun out _ => out = .error .walletUnavailable) := by
  obtain ⟨n, hn⟩ : ∃ n, (D.service inst).walletAttempts = n + 1 :=
    ⟨(D.service inst).walletAttempts - 1, by have := (D.service inst).walletAttempts_range; omega⟩
  unfold reserve
  rw [hwallet]
  dsimp only
  rw [hid, Bool.not_true, if_neg Bool.false_ne_true, hn, reserveLoop]
  have hnow : Alone pid digest time (walletNow inst) w
      (fun out _ => out = .error .walletUnavailable) := by
    unfold walletNow
    refine Async.assured_bind (P := fun out _ => out = .ok time) ?_ ?_ ?_
    · refine Async.assured_await ⟨w, time, _, rfl, ⟨false, rfl, rfl⟩, rfl⟩ ?_
      intro w₁ now w' _ hanswer
      exact congrArg Except.ok hanswer.2
    · intro now w' hnow
      obtain rfl := Except.ok.inj hnow
      rw [if_neg (by omega)]
      exact rfl
    · intro x w' hx
      cases hx
  refine Async.assured_bind hnow ?_ ?_
  · intro now w' hnow
    cases hnow
  · intro x w' hx
    obtain rfl := Except.error.inj hx
    exact rfl

/-- A call that reads a full wallet at once is refused. -/
theorem WalletFull.run (h : WalletFull id now stored) (hwallet : walletDigest D wallet = some digest)
    (hid : isJobId id = true) (hdigest : isWalletDigest digest = true) (h1 : 1 ≤ now)
    (h2 : now ≤ maxTimestampMilliseconds) :
    Prog.Trace (reserve D inst wallet id)
      [⟨.clock inst, now⟩, ⟨.getWallet digest, .ok (some stored)⟩]
      (.error (.walletExceeded (retryAfter (activeEntries stored.content.entries now) now))) := by
  obtain ⟨n, hn⟩ : ∃ n, (D.service inst).walletAttempts = n + 1 :=
    ⟨(D.service inst).walletAttempts - 1, by have := (D.service inst).walletAttempts_range; omega⟩
  have hclock : Prog.Trace (clock inst) [⟨.clock inst, now⟩] (.ok now) :=
    .op (.ret _)
  have hnow : Prog.Trace (walletNow inst) ([⟨.clock inst, now⟩] ++ []) (.ok now) := by
    refine Async.bind_run hclock ?_
    rw [if_pos ⟨h1, h2⟩]
    exact .ret _
  have hread : Prog.Trace (readWalletRateLimit digest) [⟨.getWallet digest, .ok (some stored)⟩]
      (.ok (some stored)) := by
    unfold readWalletRateLimit
    rw [hdigest, Bool.not_true, if_neg Bool.false_ne_true]
    exact .op (.ret _)
  have honce : Prog.Trace (reserveOnce digest id now n)
      ([⟨.getWallet digest, .ok (some stored)⟩] ++ [])
      (.error (.walletExceeded (retryAfter (activeEntries stored.content.entries now) now))) := by
    unfold reserveOnce
    refine Async.bind_run hread ?_
    dsimp only
    rw [h.fresh]
    dsimp only
    rw [if_pos h.full]
    exact .ret _
  unfold reserve
  rw [hwallet]
  dsimp only
  rw [hid, Bool.not_true, if_neg Bool.false_ne_true, hn, reserveLoop]
  exact Async.bind_run hnow (Async.attempt_run honce (.ret _))

/-- Thirty admissions a millisecond apart. -/
def fullObject : StoredWallet :=
  ⟨1, ⟨(List.range 30).map fun n => ⟨(sampleAdmission n).id, 1700000000000 + n, .reserved⟩,
    by decide +kernel⟩⟩

/-- A thirty-first call finds them a second later. -/
def fullCalls : Calls :=
  [⟨.clock 0, (1700000001000 : Int)⟩, ⟨.getWallet sampleWallet, .ok (some fullObject)⟩]

theorem sampleWallet_digest : walletDigest sample samplePayer = some sampleWallet := by
  decide +kernel

/-- A full wallet refuses the next admission. -/
theorem fullCalls_run : Prog.Trace (reserve sample 0 samplePayer (sampleAdmission 30).id)
    fullCalls (.error (.walletExceeded 3599)) := by
  have hfull : WalletFull (sampleAdmission 30).id 1700000001000 fullObject :=
    ⟨by decide +kernel, by decide +kernel⟩
  have hseconds : retryAfter (activeEntries fullObject.content.entries 1700000001000)
      1700000001000 = 3599 := by decide +kernel
  have hrun : Prog.Trace (reserve sample 0 samplePayer (sampleAdmission 30).id) fullCalls
      (.error (.walletExceeded
        (retryAfter (activeEntries fullObject.content.entries 1700000001000) 1700000001000))) :=
    hfull.run sampleWallet_digest (by decide) (by decide +kernel) (by decide) (by decide)
  rw [hseconds] at hrun
  exact hrun

/-- The write that leaves them in the sample wallet. -/
def fullPut : WalletPut :=
  ⟨sampleWallet, .create (sampleAdmission 0).id 1700000000000, none, fullObject.content⟩

def fullWorld : World :=
  ⟨1700000001000, [⟨1700000000029, .did 0 (.putWallet fullPut) (.done 1) true⟩]⟩

/-- The first write of a wallet leaves its record as the first version. -/
theorem walletAt_first (put : WalletPut) (q : Nat) (t : Int) :
    walletAt put.digest [⟨t, .did q (.putWallet put) (.done 1) true⟩] =
      some ⟨1, put.record⟩ := walletAt_of_put rfl

theorem fullWorld_object : walletAt sampleWallet fullWorld.log = some fullObject :=
  walletAt_first fullPut 0 1700000000029

/-- The thirty-first call goes through 3599 seconds later, and not before. -/
theorem retry_after_full :
    Alone 1 sampleWallet 1700003600000 (reserve sample 0 samplePayer (sampleAdmission 30).id)
        fullWorld (fun out _ => out = .ok ⟨sampleWallet, (sampleAdmission 30).id, 1700003600000,
          .reserved, true⟩) ∧
      Alone 1 sampleWallet 1700003599000 (reserve sample 0 samplePayer (sampleAdmission 30).id)
        fullWorld (fun out _ => ∃ r, out = .error (.walletExceeded r)) := by
  obtain ⟨digest, now, stored, t₁, hwallet, htrace, hexact⟩ := retry_after fullCalls_run
  obtain rfl := Option.some.inj (hwallet.symm.trans sampleWallet_digest)
  have htail : t₁ ++ [⟨.clock 0, now⟩, ⟨.getWallet sampleWallet, .ok (some stored)⟩] =
      ([] : Calls) ++ fullCalls := htrace.symm
  obtain ⟨-, hlast⟩ := List.append_inj' htail rfl
  obtain ⟨hnow, hstored⟩ : now = 1700000001000 ∧ stored = fullObject := by
    unfold fullCalls at hlast
    simpa using hlast
  subst hnow hstored
  have hpast : ∀ e ∈ fullObject.content.entries, e.reservedAt ≤ 1700000001000 := by
    decide +kernel
  obtain ⟨-, -, hfree, hrefuse, -⟩ := hexact hpast
  exact ⟨hfree 1 0 fullWorld _ fullWorld_object (by decide) (by decide),
    hrefuse 1 0 fullWorld 3598 fullWorld_object (by decide) (by decide)⟩

/-- At the end of the clock's range the same call is not admitted, however long
it has waited. -/
theorem retry_after_unbounded :
    Prog.Trace (reserve sample 0 samplePayer (sampleAdmission 30).id) fullCalls
        (.error (.walletExceeded 3599)) ∧
      (∀ e ∈ fullObject.content.entries, e.reservedAt ≤ 1700000001000) ∧
      walletAt sampleWallet fullWorld.log = some fullObject ∧
      (1700000001000 : Int) + 1000 * 3599 ≤ 10000000000000 ∧
      ¬ Alone 1 sampleWallet 10000000000000
        (reserve sample 0 samplePayer (sampleAdmission 30).id) fullWorld
        (fun out _ => ∃ reservation, out = .ok reservation) := by
  refine ⟨fullCalls_run, by decide +kernel, fullWorld_object, by decide, ?_⟩
  intro hadmitted
  have hrange : Alone 1 sampleWallet 10000000000000
      (reserve sample 0 samplePayer (sampleAdmission 30).id) fullWorld
      (fun out _ => out = .error .walletUnavailable) :=
    reserve_out_of_range sampleWallet_digest (by decide) (by decide)
  obtain ⟨out, w', ⟨reservation, hok⟩, herror⟩ := (hadmitted.and hrange).result
  rw [hok] at herror
  cases herror

end X402
