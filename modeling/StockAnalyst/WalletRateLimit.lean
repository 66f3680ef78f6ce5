import StockAnalyst.JobStore

/-!
# The wallet rate limiter

`WalletRateLimiter`: thirty admissions per wallet and hour, kept as entries of
one wallet object.  An admission is reserved before the job is created,
committed once its payment is settled and released once it is refused.
-/

namespace X402

open Python ConditionalStore Coroutine

def capacity : Nat := 30

def windowMilliseconds : Int := 3600000

structure WalletRateReservation where
  walletDigest : PyStr
  reservationId : PyStr
  reservedAt : Int
  state : ReservationState
  createdByCaller : Bool
  deriving DecidableEq

/-- What `_read_commit_state` finds. -/
inductive CommitState where
  | reserved
  | committed
  | expired
  deriving DecidableEq

/-! ## Pure parts -/

/-- HMAC-SHA256. -/
def hmacSha256 (D : Deployment) (key message : List Nat) : Digest :=
  let block := if 64 < key.length then (D.sha256 key).1 else key
  let padded := block ++ List.replicate (64 - block.length) 0
  D.sha256 (padded.map (Nat.xor 0x5C) ++
    (D.sha256 (padded.map (Nat.xor 0x36) ++ message)).1)

/-- `_wallet_digest`; nothing where it raises. -/
def walletDigest (D : Deployment) (wallet : PyStr) : Option PyStr :=
  if 1 ≤ wallet.length ∧ wallet.length ≤ 256 then
    (utf8Encode (D.verify.lib.lower wallet)).map fun bytes =>
      (hmacSha256 D D.tokenSecret
        (py "x402-wallet-rate-limit:v1:" ++ bytes)).hex
  else none

/-- An entry made at `reservedAt` still counts at `now`. -/
def Active (reservedAt now : Int) : Prop := now - windowMilliseconds < reservedAt

instance (reservedAt now : Int) : Decidable (Active reservedAt now) :=
  inferInstanceAs (Decidable (_ < _))

/-- `_active_entries`. -/
def activeEntries (entries : List WalletEntry) (now : Int) : List WalletEntry :=
  entries.filter (fun e => Active e.reservedAt now)

/-- The entry of a reservation. -/
def Matches (id : PyStr) (reservedAt : Int) (e : WalletEntry) : Bool :=
  e.reservationId = id && e.reservedAt = reservedAt

/-- The entries with the first match committed. -/
def commitEntry (id : PyStr) (reservedAt : Int) :
    List WalletEntry → List WalletEntry
  | [] => []
  | e :: es =>
      if Matches id reservedAt e then { e with state := .committed } :: es
      else e :: commitEntry id reservedAt es

/-- The entries without the first match. -/
def releaseEntry (id : PyStr) (reservedAt : Int)
    (entries : List WalletEntry) : List WalletEntry :=
  entries.eraseP (Matches id reservedAt)

/-- Seconds until the oldest of the entries no longer counts. -/
def retryAfter (entries : List WalletEntry) (now : Int) : Int :=
  let oldest := (entries.map (·.reservedAt)).foldl min
    ((entries.head?.map (·.reservedAt)).getD 0)
  max 1 ((oldest + windowMilliseconds - now + 999) / 1000)

/-- The entries a write puts in place of `entries`. -/
def WalletWrite.apply : WalletWrite → List WalletEntry → List WalletEntry
  | create id now, _ => [⟨id, now, .reserved⟩]
  | prune now, entries => activeEntries entries now
  | append id now, entries => activeEntries entries now ++ [⟨id, now, .reserved⟩]
  | commit id reservedAt now, entries =>
      commitEntry id reservedAt (activeEntries entries now)
  | release id reservedAt now, entries =>
      releaseEntry id reservedAt (activeEntries entries now)

/-! ## The limiter -/

variable (D : Deployment) (inst : Nat)

/-- `_now`. -/
def walletNow : Co Int := do
  let now ← clock inst
  if 1 ≤ now ∧ now ≤ maxTimestampMilliseconds then pure now
  else Async.throw .walletUnavailable

/-- Wait before another attempt, if there is one. -/
def backoff (remaining : Nat) : Co Unit :=
  if remaining = 0 then pure () else sleep

/-- One pass of the loop of `reserve`; nothing means another pass. -/
def reserveOnce (digest id : PyStr) (now : Int) (remaining : Nat) :
    Co (Option WalletRateReservation) := do
  match ← readWalletRateLimit digest with
  | none =>
      match ← createWalletRateLimit digest (.create id now)
          [⟨id, now, .reserved⟩] with
      | none => do
          backoff remaining
          pure none
      | some () => pure (some ⟨digest, id, now, .reserved, true⟩)
  | some stored =>
      let entries := activeEntries stored.content.entries now
      match entries.find? (fun e => e.reservationId = id) with
      | some found =>
          let reservation : WalletRateReservation :=
            ⟨digest, found.reservationId, found.reservedAt, found.state, false⟩
          if entries.length = stored.content.entries.length then
            pure (some reservation)
          else do
            replaceWalletRateLimit digest stored (.prune now) entries
            pure (some reservation)
      | none =>
          if capacity ≤ entries.length then
            Async.throw (.walletExceeded (retryAfter entries now))
          else do
            replaceWalletRateLimit digest stored (.append id now)
              (entries ++ [⟨id, now, .reserved⟩])
            pure (some ⟨digest, id, now, .reserved, true⟩)

/-- The loop of `reserve`, with the attempts that remain. -/
def reserveLoop (digest id : PyStr) : Nat → Co WalletRateReservation
  | 0 => Async.throw .walletUnavailable
  | remaining + 1 => do
      let now ← walletNow inst
      match ← Async.attempt (reserveOnce digest id now remaining) with
      | .ok (some reservation) => pure reservation
      | .ok none => reserveLoop digest id remaining
      | .error (.walletExceeded seconds) =>
          Async.throw (.walletExceeded seconds)
      | .error .jobConflict => do
          backoff remaining
          reserveLoop digest id remaining
      | .error .cancelled => Async.throw .cancelled
      | .error _ => Async.throw .walletUnavailable

/-- `reserve`. -/
def reserve (wallet id : PyStr) : Co WalletRateReservation :=
  match walletDigest D wallet with
  | none => Async.throw .other
  | some digest =>
      if !isJobId id then Async.throw .other
      else reserveLoop inst digest id (D.service inst).walletAttempts

/-- `_read_commit_state`. -/
def readCommitState (reservation : WalletRateReservation) : Co CommitState := do
  let now ← walletNow inst
  if ¬ Active reservation.reservedAt now then pure .expired
  else
    match ← Async.attempt (readWalletRateLimit reservation.walletDigest) with
    | .error .cancelled => Async.throw .cancelled
    | .error _ => Async.throw .walletUnavailable
    | .ok none => Async.throw .walletUnavailable
    | .ok (some stored) =>
        match (activeEntries stored.content.entries now).find?
            (Matches reservation.reservationId reservation.reservedAt) with
        | none => Async.throw .walletUnavailable
        | some found =>
            match found.state with
            | .reserved => pure .reserved
            | .committed => pure .committed

/-- `confirm`: true while the reservation is active, false once it expired. -/
def confirm (reservation : WalletRateReservation) : Co Bool := do
  let now ← walletNow inst
  if ¬ Active reservation.reservedAt now then pure false
  else
    match ← readCommitState inst reservation with
    | .reserved => pure true
    | _ => Async.throw .walletUnavailable

/-- The write of `_mutate`: commit or release. -/
def mutation (reservation : WalletRateReservation) (commit : Bool) (now : Int) :
    WalletWrite :=
  if commit then .commit reservation.reservationId reservation.reservedAt now
  else .release reservation.reservationId reservation.reservedAt now

/-- One pass of the loop of `_mutate`; false means another pass. -/
def mutateOnce (reservation : WalletRateReservation) (commit : Bool) (now : Int)
    (remaining : Nat) : Co Bool := do
  match ← readWalletRateLimit reservation.walletDigest with
  | none =>
      if commit ∧ Active reservation.reservedAt now then
        Async.throw .walletUnavailable
      else pure true
  | some stored =>
      let found := (activeEntries stored.content.entries now).any
        (Matches reservation.reservationId reservation.reservedAt)
      if !found ∧ commit then
        if Active reservation.reservedAt now then
          Async.throw .walletUnavailable
        else pure true
      else
        let write := mutation reservation commit now
        let entries := write.apply stored.content.entries
        if entries = stored.content.entries then pure true
        else
          match ← Async.attempt (replaceWalletRateLimit
              reservation.walletDigest stored write entries) with
          | .ok () => pure true
          | .error .jobConflict => do
              backoff remaining
              pure false
          | .error .cancelled => Async.throw .cancelled
          | .error x =>
              if !commit then Async.throw x
              else
                match ← readCommitState inst reservation with
                | .reserved => pure false
                | _ => pure true

/-- The loop of `_mutate`, with the attempts that remain. -/
def mutateLoop (reservation : WalletRateReservation) (commit : Bool) :
    Nat → Co Unit
  | 0 => Async.throw .walletUnavailable
  | remaining + 1 => do
      let now ← walletNow inst
      match ← Async.attempt
          (mutateOnce inst reservation commit now remaining) with
      | .ok true => pure ()
      | .ok false => mutateLoop reservation commit remaining
      | .error .jobConflict => do
          backoff remaining
          mutateLoop reservation commit remaining
      | .error .cancelled => Async.throw .cancelled
      | .error _ => Async.throw .walletUnavailable

/-- `commit`. -/
def commit (reservation : WalletRateReservation) : Co Unit :=
  mutateLoop inst reservation true (D.service inst).walletAttempts

/-- `release`. -/
def release (reservation : WalletRateReservation) : Co Unit :=
  mutateLoop inst reservation false (D.service inst).walletAttempts

end X402
