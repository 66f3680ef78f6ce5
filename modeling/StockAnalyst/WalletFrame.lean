import StockAnalyst.WalletHistory

/-!
# The frame of wallet writes

A wallet write builds the whole list of entries anew.  Whatever object a call
of the limiter finds, each write it makes keeps the entries of the last hour
in their order and changes at most the entry of its own reservation.  A second
`reserve` of an id, a second `commit` and a second `release` change none.
-/

namespace X402

open Python ConditionalStore Coroutine

variable {D : Deployment}

/-! ## What a call may write -/

/-- The instance a call runs on. -/
def LimiterCall.inst : LimiterCall → Nat
  | .reserve inst _ _ => inst
  | .confirm inst _ => inst
  | .commit inst _ => inst
  | .release inst _ => inst

/-- The wallet object a call may write. -/
def LimiterCall.digest (D : Deployment) : LimiterCall → Option PyStr
  | .reserve _ wallet _ => walletDigest D wallet
  | .confirm _ reservation => some reservation.walletDigest
  | .commit _ reservation => some reservation.walletDigest
  | .release _ reservation => some reservation.walletDigest

/-- The entries less than an hour old. -/
def kept (entries : List WalletEntry) (now : Int) : List WalletEntry :=
  entries.filter fun e => ¬ e.reservedAt ≤ now - 3600000

/-- The entries a write keeps are the active ones. -/
theorem kept_eq (entries : List WalletEntry) (now : Int) :
    kept entries now = activeEntries entries now := by
  refine List.filter_congr ?_
  intro e _
  refine decide_eq_decide.2 ?_
  unfold Active windowMilliseconds
  omega

/-- What a call makes at `now` of the entries it keeps. -/
inductive Change (call : LimiterCall) (now : Int) (entries : List WalletEntry) :
    List WalletEntry → Prop
  | pruned (commit : ∀ inst reservation, call ≠ .commit inst reservation)
      (release : ∀ inst reservation, call = .release inst reservation → ∀ e ∈ entries,
        e.reservationId = reservation.reservationId → e.reservedAt ≠ reservation.reservedAt) :
      Change call now entries entries
  | appended {inst : Nat} {wallet id : PyStr} (own : call = .reserve inst wallet id)
      (fresh : ∀ e ∈ entries, e.reservationId ≠ id) :
      Change call now entries (entries ++ [⟨id, now, .reserved⟩])
  | committed {inst : Nat} {reservation : WalletRateReservation}
      {before after : List WalletEntry} {e : WalletEntry}
      (own : call = .commit inst reservation) (split : entries = before ++ e :: after)
      (id : e.reservationId = reservation.reservationId)
      (time : e.reservedAt = reservation.reservedAt) :
      Change call now entries (before ++ { e with state := .committed } :: after)
  | released {inst : Nat} {reservation : WalletRateReservation}
      {before after : List WalletEntry} {e : WalletEntry}
      (own : call = .release inst reservation) (split : entries = before ++ e :: after)
      (id : e.reservationId = reservation.reservationId)
      (time : e.reservedAt = reservation.reservedAt) :
      Change call now entries (before ++ after)

/-- The write of a call that read the object `found` at `now`: a first entry,
or a change of what it keeps. -/
def FramedWrite (call : LimiterCall) (now : Int) (found : Option StoredWallet)
    (put : WalletPut) : Prop :=
  put.expect = found ∧
  match found with
  | none => ∃ inst wallet id, call = .reserve inst wallet id ∧
      put.record.entries = [⟨id, now, .reserved⟩]
  | some stored => Change call now (kept stored.content.entries now) put.record.entries

/-- A change of the active entries is a framed write. -/
theorem framed_some {call : LimiterCall} {now : Int} {stored : StoredWallet} {put : WalletPut}
    (hexpect : put.expect = some stored)
    (h : Change call now (activeEntries stored.content.entries now) put.record.entries) :
    FramedWrite call now (some stored) put := by
  refine ⟨hexpect, ?_⟩
  show Change call now (kept stored.content.entries now) put.record.entries
  rw [kept_eq]
  exact h

/-- A matching entry has the id and the time of the reservation. -/
theorem mem_matches {id : PyStr} {reservedAt : Int} {e : WalletEntry}
    (h : Matches id reservedAt e = true) : e.reservationId = id ∧ e.reservedAt = reservedAt := by
  simpa [Matches] using h

/-- A commit changes the first entry of the reservation. -/
theorem commitEntry_split {id : PyStr} {reservedAt : Int} {entries : List WalletEntry}
    (h : entries.any (Matches id reservedAt) = true) :
    ∃ before e after, entries = before ++ e :: after ∧ Matches id reservedAt e = true ∧
      commitEntry id reservedAt entries =
        before ++ { e with state := .committed } :: after := by
  induction entries with
  | nil => cases h
  | cons e es ih =>
      by_cases hmatch : Matches id reservedAt e = true
      · exact ⟨[], e, es, rfl, hmatch, by simp [commitEntry, hmatch]⟩
      · have hrest : es.any (Matches id reservedAt) = true := by
          simpa [hmatch] using h
        obtain ⟨before, e', after, rfl, hmatch', hcommit⟩ := ih hrest
        exact ⟨e :: before, e', after, rfl, hmatch', by simp [commitEntry, hmatch, hcommit]⟩

/-- A release takes out the first entry of the reservation, if there is one. -/
theorem releaseEntry_split (id : PyStr) (reservedAt : Int) (entries : List WalletEntry) :
    (releaseEntry id reservedAt entries = entries ∧
      ∀ e ∈ entries, Matches id reservedAt e = false) ∨
      ∃ before e after, entries = before ++ e :: after ∧ Matches id reservedAt e = true ∧
        releaseEntry id reservedAt entries = before ++ after := by
  by_cases h : ∃ e ∈ entries, Matches id reservedAt e = true
  · obtain ⟨e, he, hmatch⟩ := h
    obtain ⟨e', before, after, -, hmatch', rfl, herase⟩ := List.exists_of_eraseP he hmatch
    exact Or.inr ⟨before, e', after, rfl, hmatch', herase⟩
  · have hnone : ∀ e ∈ entries, ¬ Matches id reservedAt e = true :=
      fun e he hmatch => h ⟨e, he, hmatch⟩
    exact Or.inl ⟨List.eraseP_of_forall_not hnone,
      fun e he => Bool.eq_false_iff.2 (hnone e he)⟩

/-! ## The writes of one pass -/

/-- Every wallet write among the effects is in `F`. -/
def Writes (F : WalletPut → Prop) (e : Eff) : Prop := ∀ put, e = .putWallet put → F put

section passes

variable {F : WalletPut → Prop} {inst remaining : Nat} {digest id : PyStr} {now : Int}
  {reservation : WalletRateReservation}

/-- The clock writes nothing. -/
theorem writes_clock : Writes F (.clock inst) := by
  intro put h
  cases h

/-- Sleeping writes nothing. -/
theorem writes_sleep : Writes F .sleep := by
  intro put h
  cases h

/-- Reading a wallet writes nothing. -/
theorem writes_getWallet : Writes F (.getWallet digest) := by
  intro put h
  cases h

/-- A put repeated on lost answers writes what one put writes. -/
theorem within_conditionalPut {put : WalletPut} (h : F put) (n : Nat) :
    Prog.Within (Writes F) (conditionalPut (Async.await (.putWallet put) .ok) n) := by
  have hput : Writes F (.putWallet put) := by
    intro put' heq
    cases heq
    exact h
  induction n with
  | zero => exact Async.within_throw _
  | succ n ih =>
      unfold conditionalPut
      refine Async.within_bind (Async.within_await hput) ?_
      intro reply
      cases reply with
      | done serial => exact Async.within_pure _
      | preconditionFailed => exact Async.within_pure _
      | fault f => exact Async.within_throw _
      | conflict =>
          dsimp only
          split
          · exact Async.within_throw _
          · exact ih

/-- Creating a wallet writes its first entries. -/
theorem within_createWallet {write : WalletWrite} {entries : List WalletEntry}
    (h : ∀ henc, F ⟨digest, write, none, ⟨entries, henc⟩⟩) :
    Prog.Within (Writes F) (createWalletRateLimit digest write entries) := by
  unfold createWalletRateLimit
  split
  · rename_i henc
    split
    · exact Async.within_throw _
    · refine Async.within_bind (within_conditionalPut (h henc) _) ?_
      intro done
      cases done <;> exact Async.within_pure _
  · exact Async.within_throw _

/-- Replacing a wallet writes the new entries over the version read. -/
theorem within_replaceWallet {stored : StoredWallet} {write : WalletWrite}
    {entries : List WalletEntry}
    (h : ∀ henc, F ⟨digest, write, some stored, ⟨entries, henc⟩⟩) :
    Prog.Within (Writes F) (replaceWalletRateLimit digest stored write entries) := by
  unfold replaceWalletRateLimit
  split
  · rename_i henc
    split
    · exact Async.within_throw _
    · refine Async.within_bind (within_conditionalPut (h henc) _) ?_
      intro done
      cases done with
      | none => exact Async.within_throw _
      | some serial => exact Async.within_pure _
  · exact Async.within_throw _

/-- Waiting writes nothing. -/
theorem within_backoff : Prog.Within (Writes F) (backoff remaining) := by
  unfold backoff
  split
  · exact Async.within_pure _
  · exact Async.within_await writes_sleep

/-- Reading the limiter's clock writes nothing. -/
theorem within_walletNow : Prog.Within (Writes F) (walletNow inst) := by
  unfold walletNow
  refine Async.within_bind (Async.within_await writes_clock) ?_
  intro now
  split
  · exact Async.within_pure _
  · exact Async.within_throw _

/-- Reading a wallet writes nothing. -/
theorem within_readWallet : Prog.Within (Writes F) (readWalletRateLimit digest) := by
  unfold readWalletRateLimit
  split
  · exact Async.within_throw _
  · exact Async.within_await writes_getWallet

/-- Looking for a reservation writes nothing. -/
theorem within_readCommitState : Prog.Within (Writes F) (readCommitState inst reservation) := by
  unfold readCommitState
  refine Async.within_bind within_walletNow ?_
  intro now
  split
  · exact Async.within_pure _
  · refine Async.within_bind (Async.within_attempt within_readWallet) ?_
    intro found
    split
    · exact Async.within_throw _
    · exact Async.within_throw _
    · exact Async.within_throw _
    · split
      · exact Async.within_throw _
      · split <;> exact Async.within_pure _

/-- Confirming a reservation writes nothing. -/
theorem within_confirm : Prog.Within (Writes F) (confirm inst reservation) := by
  unfold confirm
  refine Async.within_bind within_walletNow ?_
  intro now
  split
  · exact Async.within_pure _
  · refine Async.within_bind within_readCommitState ?_
    intro state
    split
    · exact Async.within_pure _
    · exact Async.within_throw _

end passes

/-! ## Runs of the calls -/

/-- The effects of a run with their replies. -/
abbrev Calls := List (Σ e : Eff, Resp e)

section runs

variable {α : Type} {t : Calls} {digest : PyStr} {inst remaining : Nat} {now : Int}

/-- A trace that begins with reading a wallet, by what was read. -/
theorem trace_readWallet {f : Option StoredWallet → Co α} {out : Except Exn α}
    (h : Prog.Trace (readWalletRateLimit digest >>= f : Co α) t out) :
    (t = [] ∧ out = .error .other) ∨
      ∃ reply t', t = ⟨.getWallet digest, reply⟩ :: t' ∧
        ((∃ fault, reply = .error fault ∧ t' = [] ∧ out = .error fault.exn) ∨
          ∃ found, reply = .ok found ∧ Prog.Trace (f found) t' out) := by
  unfold readWalletRateLimit at h
  split at h
  · cases h
    exact Or.inl ⟨rfl, rfl⟩
  · obtain ⟨reply, t', rfl, hrest⟩ := Async.trace_await h
    refine Or.inr ⟨reply, t', rfl, ?_⟩
    cases reply with
    | error fault =>
        obtain ⟨x, hx, rfl, rfl⟩ | ⟨found, hfound, -⟩ := hrest
        · obtain rfl := Except.error.inj hx
          exact Or.inl ⟨fault, rfl, rfl, rfl⟩
        · cases hfound
    | ok found =>
        obtain ⟨x, hx, -⟩ | ⟨found', hfound, hrest⟩ := hrest
        · cases hx
        · obtain rfl := Except.ok.inj hfound
          exact Or.inr ⟨found, rfl, hrest⟩

/-- A trace that begins with the clock, by what it showed. -/
theorem trace_walletNow {f : Int → Co α} {out : Except Exn α}
    (h : Prog.Trace (walletNow inst >>= f : Co α) t out) :
    ∃ now t', t = ⟨.clock inst, now⟩ :: t' ∧
      ((t' = [] ∧ out = .error .walletUnavailable) ∨
        (1 ≤ now ∧ now ≤ maxTimestampMilliseconds ∧ Prog.Trace (f now) t' out)) := by
  obtain ⟨t₁, t₂, r, rfl, hnow, hrest⟩ := Async.trace_bind h
  obtain ⟨now, t₃, rfl, ⟨x, hx, -⟩ | ⟨now', hnow', hcheck⟩⟩ := Async.trace_await hnow
  · cases hx
  · obtain rfl := Except.ok.inj hnow'
    refine ⟨now, t₃ ++ t₂, rfl, ?_⟩
    split at hcheck
    · rename_i hrange
      cases hcheck
      obtain ⟨x, hx, -⟩ | ⟨now', hok, hrest⟩ := hrest
      · cases hx
      · obtain rfl := Except.ok.inj hok
        exact Or.inr ⟨hrange.1, hrange.2, hrest⟩
    · cases hcheck
      obtain ⟨x, hx, rfl, rfl⟩ | ⟨now', hok, -⟩ := hrest
      · obtain rfl := Except.error.inj hx
        exact Or.inl ⟨rfl, rfl⟩
      · cases hok

/-- The wallet writes of a run within `F` are in `F`. -/
theorem writes_of_within {F : WalletPut → Prop} {p : Co α} {out : Except Exn α}
    (hp : Prog.Within (Writes F) p) (h : Prog.Trace p t out) {put : WalletPut}
    {r : Resp (.putWallet put)} (hput : ⟨.putWallet put, r⟩ ∈ t) : F put :=
  hp.trace h _ hput put rfl

/-- Each wallet write of a run is framed by an object the run has read, and by
the reading `now`. -/
def PassFramed (call : LimiterCall) (digest : PyStr) (now : Int) (t : Calls) : Prop :=
  ∀ put r, ⟨.putWallet put, r⟩ ∈ t → put.digest = digest ∧
    ∃ found, ⟨.getWallet digest, .ok found⟩ ∈ t ∧ FramedWrite call now found put

/-- A pass that read an object and then only makes framed writes. -/
theorem passFramed_of_within {call : LimiterCall} {found : Option StoredWallet} {p : Co α}
    {out : Except Exn α} (h : Prog.Trace p t out)
    (hp : Prog.Within (Writes fun put => put.digest = digest ∧ FramedWrite call now found put) p) :
    PassFramed call digest now (⟨.getWallet digest, .ok found⟩ :: t) := by
  intro put r hput
  obtain heq | hput := List.mem_cons.1 hput
  · cases heq
  · obtain ⟨hdigest, hframed⟩ := writes_of_within hp h hput
    exact ⟨hdigest, found, List.mem_cons_self, hframed⟩

/-- A pass that writes nothing is framed. -/
theorem passFramed_quiet {call : LimiterCall} (h : ∀ put r, ⟨.putWallet put, r⟩ ∉ t) :
    PassFramed call digest now t := fun put r hput => absurd hput (h put r)

/-- **One try of a reservation** writes within its frame. -/
theorem reserveOnce_framed {id : PyStr} {wallet : PyStr}
    {out : Except Exn (Option WalletRateReservation)}
    (h : Prog.Trace (reserveOnce digest id now remaining) t out) :
    PassFramed (.reserve inst wallet id) digest now t := by
  unfold reserveOnce at h
  obtain ⟨rfl, -⟩ | ⟨reply, t', rfl, ⟨fault, rfl, rfl, -⟩ | ⟨found, rfl, hrest⟩⟩ :=
    trace_readWallet h
  · exact passFramed_quiet (by simp)
  · refine passFramed_quiet fun put r hput => ?_
    obtain heq := List.mem_singleton.1 hput
    cases heq
  · refine passFramed_of_within hrest ?_
    cases found with
    | none =>
        refine Async.within_bind (within_createWallet ?_) ?_
        · intro henc
          exact ⟨rfl, rfl, inst, wallet, id, rfl, rfl⟩
        · intro done
          cases done with
          | none => exact Async.within_bind within_backoff fun _ => Async.within_pure _
          | some u => exact Async.within_pure _
    | some stored =>
        dsimp only
        split
        · split
          · exact Async.within_pure _
          · refine Async.within_bind (within_replaceWallet ?_) fun _ => Async.within_pure _
            intro henc
            exact ⟨rfl, framed_some rfl (.pruned (by simp) (by simp))⟩
        · rename_i hnone
          split
          · exact Async.within_throw _
          · refine Async.within_bind (within_replaceWallet ?_) fun _ => Async.within_pure _
            intro henc
            refine ⟨rfl, framed_some rfl (.appended rfl ?_)⟩
            intro e he
            have := List.find?_eq_none.1 hnone e he
            simpa using this

/-- The call that a commit or a release is made by. -/
def mutationCall (inst : Nat) (reservation : WalletRateReservation) (commit : Bool) :
    LimiterCall :=
  if commit then .commit inst reservation else .release inst reservation

/-- **One try of a change** writes within its frame. -/
theorem mutateOnce_framed {reservation : WalletRateReservation} {commit : Bool}
    {out : Except Exn Bool}
    (h : Prog.Trace (mutateOnce inst reservation commit now remaining) t out) :
    PassFramed (mutationCall inst reservation commit) reservation.walletDigest now t := by
  unfold mutateOnce at h
  obtain ⟨rfl, -⟩ | ⟨reply, t', rfl, ⟨fault, rfl, rfl, -⟩ | ⟨found, rfl, hrest⟩⟩ :=
    trace_readWallet h
  · exact passFramed_quiet (by simp)
  · refine passFramed_quiet fun put r hput => ?_
    obtain heq := List.mem_singleton.1 hput
    cases heq
  · refine passFramed_of_within hrest ?_
    cases found with
    | none =>
        dsimp only
        split
        · exact Async.within_throw _
        · exact Async.within_pure _
    | some stored =>
        dsimp only
        split
        · split
          · exact Async.within_throw _
          · exact Async.within_pure _
        · rename_i hfound
          split
          · exact Async.within_pure _
          · refine Async.within_bind (Async.within_attempt (within_replaceWallet ?_)) ?_
            · intro henc
              refine ⟨rfl, framed_some rfl ?_⟩
              cases commit with
              | true =>
                  have hany : (activeEntries stored.content.entries now).any
                      (Matches reservation.reservationId reservation.reservedAt) = true := by
                    simpa using hfound
                  obtain ⟨before, e, after, hsplit, hmatch, hcommit⟩ := commitEntry_split hany
                  obtain ⟨hid, hat⟩ := mem_matches hmatch
                  show Change _ _ _ (commitEntry _ _ _)
                  rw [hcommit]
                  exact .committed rfl hsplit hid hat
              | false =>
                  show Change _ _ _ (releaseEntry _ _ _)
                  obtain ⟨hsame, hnone⟩ | ⟨before, e, after, hsplit, hmatch, hrelease⟩ :=
                    releaseEntry_split reservation.reservationId reservation.reservedAt
                      (activeEntries stored.content.entries now)
                  · rw [hsame]
                    refine .pruned (by simp [mutationCall]) ?_
                    intro inst' reservation' hcall e he hid hat
                    cases hcall
                    have := hnone e he
                    simp [Matches, hid, hat] at this
                  · obtain ⟨hid, hat⟩ := mem_matches hmatch
                    rw [hrelease]
                    exact .released rfl hsplit hid hat
            · intro done
              split
              · exact Async.within_pure _
              · exact Async.within_bind within_backoff fun _ => Async.within_pure _
              · exact Async.within_throw _
              · split
                · exact Async.within_throw _
                · refine Async.within_bind within_readCommitState ?_
                  intro state
                  split <;> exact Async.within_pure _

/-- Each wallet write of a run is framed by an object and a clock the run has
read. -/
def CallFramed (call : LimiterCall) (inst : Nat) (digest : PyStr) (t : Calls) : Prop :=
  ∀ put r, ⟨.putWallet put, r⟩ ∈ t → put.digest = digest ∧
    ∃ now found, ⟨.clock inst, now⟩ ∈ t ∧ ⟨.getWallet digest, .ok found⟩ ∈ t ∧
      FramedWrite call now found put

variable {call : LimiterCall}

/-- A call that writes nothing is framed. -/
theorem callFramed_quiet (h : ∀ put r, ⟨.putWallet put, r⟩ ∉ t) :
    CallFramed call inst digest t := fun put r hput => absurd hput (h put r)

/-- Framed parts of a call, one after the other. -/
theorem CallFramed.append {t' : Calls} (h : CallFramed call inst digest t)
    (h' : CallFramed call inst digest t') : CallFramed call inst digest (t ++ t') := by
  intro put r hput
  obtain hput | hput := List.mem_append.1 hput
  · obtain ⟨hdigest, now, found, hclock, hread, hframed⟩ := h put r hput
    exact ⟨hdigest, now, found, List.mem_append_left _ hclock, List.mem_append_left _ hread,
      hframed⟩
  · obtain ⟨hdigest, now, found, hclock, hread, hframed⟩ := h' put r hput
    exact ⟨hdigest, now, found, List.mem_append_right _ hclock, List.mem_append_right _ hread,
      hframed⟩

/-- A framed pass after its clock is a framed call. -/
theorem PassFramed.callFramed (h : PassFramed call digest now t) :
    CallFramed call inst digest (⟨.clock inst, now⟩ :: t) := by
  intro put r hput
  obtain heq | hput := List.mem_cons.1 hput
  · cases heq
  · obtain ⟨hdigest, found, hread, hframed⟩ := h put r hput
    exact ⟨hdigest, now, found, List.mem_cons_self, List.mem_cons_of_mem _ hread, hframed⟩

/-- A run without wallet writes, and what follows it. -/
theorem callFramed_bind {β : Type} {p : Co α} {f : α → Co β} {out : Except Exn β}
    (hp : Prog.Within (Writes fun _ => False) p)
    (h : Prog.Trace (p >>= f : Co β) t out)
    (hf : ∀ a t' out, Prog.Trace (f a) t' out → CallFramed call inst digest t') :
    CallFramed call inst digest t := by
  obtain ⟨t₁, t₂, r, rfl, hrun, hrest⟩ := Async.trace_bind h
  have hquiet : CallFramed call inst digest t₁ :=
    callFramed_quiet fun put r hput => writes_of_within hp hrun hput
  refine hquiet.append ?_
  obtain ⟨x, -, rfl, -⟩ | ⟨a, -, hrest⟩ := hrest
  · exact callFramed_quiet (by simp)
  · exact hf a t₂ out hrest

/-- All the tries of a reservation write within its frame. -/
theorem reserveLoop_framed {wallet id : PyStr} {out : Except Exn WalletRateReservation}
    (h : Prog.Trace (reserveLoop inst digest id remaining) t out) :
    CallFramed (.reserve inst wallet id) inst digest t := by
  induction remaining generalizing t out with
  | zero =>
      cases h
      exact callFramed_quiet (by simp)
  | succ remaining ih =>
      rw [reserveLoop] at h
      obtain ⟨now, t', rfl, ⟨rfl, -⟩ | ⟨-, -, hpass⟩⟩ := trace_walletNow h
      · refine callFramed_quiet fun put r hput => ?_
        cases List.mem_singleton.1 hput
      · obtain ⟨t₁, t₂, r, rfl, honce, hrest⟩ := Async.trace_attempt hpass
        rw [← List.cons_append]
        refine (PassFramed.callFramed (reserveOnce_framed honce)).append ?_
        split at hrest
        · cases hrest
          exact callFramed_quiet (by simp)
        · exact ih hrest
        · cases hrest
          exact callFramed_quiet (by simp)
        · exact callFramed_bind within_backoff hrest fun _ _ _ hloop => ih hloop
        · cases hrest
          exact callFramed_quiet (by simp)
        · cases hrest
          exact callFramed_quiet (by simp)

/-- All the tries of a change write within its frame. -/
theorem mutateLoop_framed {reservation : WalletRateReservation} {commit : Bool}
    {out : Except Exn Unit}
    (h : Prog.Trace (mutateLoop inst reservation commit remaining) t out) :
    CallFramed (mutationCall inst reservation commit) inst reservation.walletDigest t := by
  induction remaining generalizing t out with
  | zero =>
      cases h
      exact callFramed_quiet (by simp)
  | succ remaining ih =>
      rw [mutateLoop] at h
      obtain ⟨now, t', rfl, ⟨rfl, -⟩ | ⟨-, -, hpass⟩⟩ := trace_walletNow h
      · refine callFramed_quiet fun put r hput => ?_
        cases List.mem_singleton.1 hput
      · obtain ⟨t₁, t₂, r, rfl, honce, hrest⟩ := Async.trace_attempt hpass
        rw [← List.cons_append]
        refine (PassFramed.callFramed (mutateOnce_framed honce)).append ?_
        split at hrest
        · cases hrest
          exact callFramed_quiet (by simp)
        · exact ih hrest
        · exact callFramed_bind within_backoff hrest fun _ _ _ hloop => ih hloop
        · cases hrest
          exact callFramed_quiet (by simp)
        · cases hrest
          exact callFramed_quiet (by simp)

/-- A reservation writes the record of its own wallet within its frame. -/
theorem reserve_framed {wallet id : PyStr} {out : Except Exn WalletRateReservation}
    (h : Prog.Trace (reserve D inst wallet id) t out) {put : WalletPut}
    {r : Resp (.putWallet put)} (hput : ⟨.putWallet put, r⟩ ∈ t) :
    walletDigest D wallet = some put.digest ∧
      CallFramed (.reserve inst wallet id) inst put.digest t := by
  unfold reserve at h
  split at h
  · cases h
    cases hput
  · rename_i digest hdigest
    split at h
    · cases h
      cases hput
    · have hframed : CallFramed (.reserve inst wallet id) inst digest t := reserveLoop_framed h
      obtain ⟨rfl, -⟩ := hframed put r hput
      exact ⟨hdigest, hframed⟩

/-- **The frame of a call.**  Each wallet write of a run, whatever the run was
answered, is of the caller's wallet object, and is framed by an object and a
clock the run has read. -/
theorem limiterCall_framed {out : Except Exn Unit}
    (h : Prog.Trace (limiterBody D call) t out) {put : WalletPut}
    {r : Resp (.putWallet put)} (hput : ⟨.putWallet put, r⟩ ∈ t) :
    call.digest D = some put.digest ∧ ∃ now found, ⟨.clock call.inst, now⟩ ∈ t ∧
      ⟨.getWallet put.digest, .ok found⟩ ∈ t ∧ FramedWrite call now found put := by
  cases call with
  | reserve inst wallet id =>
      obtain ⟨t₁, t₂, r', rfl, hrun, hrest⟩ := Async.trace_bind h
      have hnone : t₂ = [] := by
        obtain ⟨x, -, rfl, -⟩ | ⟨a, -, hpure⟩ := hrest
        · rfl
        · cases hpure
          rfl
      rw [hnone, List.append_nil] at hput ⊢
      obtain ⟨hdigest, hframed⟩ := reserve_framed hrun hput
      exact ⟨hdigest, (hframed put r hput).2⟩
  | confirm inst reservation =>
      obtain ⟨t₁, t₂, r', rfl, hrun, hrest⟩ := Async.trace_bind h
      have hnone : t₂ = [] := by
        obtain ⟨x, -, rfl, -⟩ | ⟨a, -, hpure⟩ := hrest
        · rfl
        · cases hpure
          rfl
      rw [hnone, List.append_nil] at hput
      exact (writes_of_within (F := fun _ => False) within_confirm hrun hput).elim
  | commit inst reservation =>
      have hrun : Prog.Trace (mutateLoop inst reservation true _) t out := h
      have hframed := mutateLoop_framed hrun
      obtain ⟨hdigest, hrest⟩ := hframed put r hput
      rw [hdigest]
      exact ⟨rfl, hrest⟩
  | release inst reservation =>
      have hrun : Prog.Trace (mutateLoop inst reservation false _) t out := h
      have hframed := mutateLoop_framed hrun
      obtain ⟨hdigest, hrest⟩ := hframed put r hput
      rw [hdigest]
      exact ⟨rfl, hrest⟩

end runs

/-! ## Calls made twice -/

/-- What `reserve` returns for the object it found at `now`. -/
def ReserveReply (digest id : PyStr) (now : Int) (found : Option StoredWallet)
    (reservation : WalletRateReservation) : Prop :=
  (∃ stored e, found = some stored ∧ e ∈ kept stored.content.entries now ∧
    e.reservationId = id ∧ reservation = ⟨digest, id, e.reservedAt, e.state, false⟩) ∨
  (reservation = ⟨digest, id, now, .reserved, true⟩ ∧
    ∀ stored, found = some stored → ∀ e ∈ kept stored.content.entries now,
      e.reservationId ≠ id)

section twice

variable {t : Calls} {digest id : PyStr} {inst remaining : Nat} {now : Int}

/-- The result of a run that may raise before it comes to a pure result. -/
theorem trace_pure {α β : Type} {p : Co α} {b : β} {out : Except Exn β}
    (h : Prog.Trace (p >>= fun _ => pure b : Co β) t out) :
    out = .ok b ∨ ∃ x, out = .error x := by
  obtain ⟨t₁, t₂, r, rfl, -, ⟨x, -, -, rfl⟩ | ⟨a, -, hrest⟩⟩ := Async.trace_bind h
  · exact Or.inr ⟨x, rfl⟩
  · cases hrest
    exact Or.inl rfl

/-- A reservation comes back from the wallet that was read. -/
theorem reserveOnce_reply {reservation : WalletRateReservation}
    (h : Prog.Trace (reserveOnce digest id now remaining) t (.ok (some reservation))) :
    ∃ found, ⟨.getWallet digest, .ok found⟩ ∈ t ∧
      ReserveReply digest id now found reservation := by
  unfold reserveOnce at h
  obtain ⟨-, hout⟩ | ⟨reply, t', rfl, ⟨fault, -, -, hout⟩ | ⟨found, rfl, hrest⟩⟩ :=
    trace_readWallet h
  · cases hout
  · cases hout
  · refine ⟨found, List.mem_cons_self, ?_⟩
    cases found with
    | none =>
        obtain ⟨t₁, t₂, r, rfl, -, ⟨x, -, -, hout⟩ | ⟨done, -, hrest⟩⟩ := Async.trace_bind hrest
        · cases hout
        · cases done with
          | none =>
              obtain hout | ⟨x, hout⟩ := trace_pure hrest <;> cases hout
          | some u =>
              cases hrest
              exact Or.inr ⟨rfl, fun stored hstored => nomatch hstored⟩
    | some stored =>
        dsimp only at hrest
        split at hrest
        · rename_i e he
          have hid : e.reservationId = id := by simpa using List.find?_some he
          have hkept : e ∈ kept stored.content.entries now := by
            rw [kept_eq]
            exact List.mem_of_find?_eq_some he
          have hreply : reservation = ⟨digest, e.reservationId, e.reservedAt, e.state, false⟩ := by
            split at hrest
            · cases hrest
              rfl
            · obtain hout | ⟨x, hout⟩ := trace_pure hrest
              · cases hout
                rfl
              · cases hout
          refine Or.inl ⟨stored, e, rfl, hkept, hid, ?_⟩
          rw [hreply, hid]
        · rename_i hnone
          split at hrest
          · cases hrest
          · obtain hout | ⟨x, hout⟩ := trace_pure hrest
            · cases hout
              refine Or.inr ⟨rfl, ?_⟩
              intro stored' hstored e he
              obtain rfl := Option.some.inj hstored
              rw [kept_eq] at he
              have := List.find?_eq_none.1 hnone e he
              simpa using this
            · cases hout

/-- So does one of several tries. -/
theorem reserveLoop_reply {reservation : WalletRateReservation}
    (h : Prog.Trace (reserveLoop inst digest id remaining) t (.ok reservation)) :
    ∃ now found, ⟨.clock inst, now⟩ ∈ t ∧ ⟨.getWallet digest, .ok found⟩ ∈ t ∧
      ReserveReply digest id now found reservation := by
  induction remaining generalizing t with
  | zero => cases h
  | succ remaining ih =>
      rw [reserveLoop] at h
      obtain ⟨now, t', rfl, ⟨-, hout⟩ | ⟨-, -, hpass⟩⟩ := trace_walletNow h
      · cases hout
      · obtain ⟨t₁, t₂, r, rfl, honce, hrest⟩ := Async.trace_attempt hpass
        have hlater : ∀ {t₃}, t₃ <:+ t₂ →
            Prog.Trace (reserveLoop inst digest id remaining) t₃ (.ok reservation) →
            ∃ now' found, ⟨.clock inst, now'⟩ ∈ (⟨.clock inst, now⟩ :: (t₁ ++ t₂) : Calls) ∧
              ⟨.getWallet digest, .ok found⟩ ∈ (⟨.clock inst, now⟩ :: (t₁ ++ t₂) : Calls) ∧
              ReserveReply digest id now' found reservation := by
          intro t₃ hsuf hloop
          obtain ⟨now', found, hclock, hread, hreply⟩ := ih hloop
          exact ⟨now', found,
            List.mem_cons_of_mem _ (List.mem_append_right _ (hsuf.subset hclock)),
            List.mem_cons_of_mem _ (List.mem_append_right _ (hsuf.subset hread)), hreply⟩
        split at hrest
        · cases hrest
          obtain ⟨found, hread, hreply⟩ := reserveOnce_reply honce
          exact ⟨now, found, List.mem_cons_self,
            List.mem_cons_of_mem _ (List.mem_append_left _ hread), hreply⟩
        · exact hlater (List.suffix_refl _) hrest
        · cases hrest
        · obtain ⟨t₃, t₄, r', rfl, -, ⟨x, -, -, hout⟩ | ⟨u, -, hloop⟩⟩ := Async.trace_bind hrest
          · cases hout
          · exact hlater (List.suffix_append _ _) hloop
        · cases hrest
        · cases hrest

/-- In all objects and clocks of the run, the id has an active entry made at
`first`. -/
structure KeepsId (inst : Nat) (digest id : PyStr) (first : Int) (t : Calls) : Prop where
  stored : ∀ found, ⟨.getWallet digest, .ok found⟩ ∈ t → ∃ stored e, found = some stored ∧
    e ∈ stored.content.entries ∧ e.reservationId = id ∧ e.reservedAt = first
  active : ∀ now, ⟨.clock inst, now⟩ ∈ t → now - 3600000 < first

/-- The write only drops what is an hour old at a clock of the run. -/
def OnlyPrunes (inst : Nat) (t : Calls) (put : WalletPut) : Prop :=
  ∃ stored now, put.expect = some stored ∧ ⟨.clock inst, now⟩ ∈ t ∧
    put.record.entries = kept stored.content.entries now

/-- An entry is kept for an hour. -/
theorem mem_kept {entries : List WalletEntry} {e : WalletEntry} :
    e ∈ kept entries now ↔ e ∈ entries ∧ now - 3600000 < e.reservedAt := by
  unfold kept
  rw [List.mem_filter, decide_eq_true_eq, not_le]

/-- The entries of an object have ids of their own. -/
theorem WalletRecord.entry_unique (record : WalletRecord) {e e' : WalletEntry}
    (he : e ∈ record.entries) (he' : e' ∈ record.entries)
    (hid : e.reservationId = e'.reservationId) : e = e' := by
  have henc := record.encodable
  simp only [walletEncodable, Bool.and_eq_true, decide_eq_true_eq] at henc
  exact List.inj_on_of_nodup_map henc.1.2 he he' hid

/-- **A second `reserve`** of an active id writes no change of an active entry,
and returns the time of the first. -/
theorem reserve_again {wallet : PyStr} {first : Int} {out : Except Exn WalletRateReservation}
    (hdigest : walletDigest D wallet = some digest)
    (h : Prog.Trace (reserve D inst wallet id) t out) (hheld : KeepsId inst digest id first t) :
    (∀ put r, ⟨.putWallet put, r⟩ ∈ t → OnlyPrunes inst t put) ∧
      ∀ reservation, out = .ok reservation →
        reservation.reservedAt = first ∧ reservation.createdByCaller = false := by
  refine ⟨?_, ?_⟩
  · intro put r hput
    obtain ⟨hsame, hframed⟩ := reserve_framed h hput
    obtain rfl := Option.some.inj (hdigest.symm.trans hsame)
    obtain ⟨-, now, found, hclock, hread, hexpect, hchange⟩ := hframed put r hput
    obtain ⟨stored, e, rfl, he, hid, hat⟩ := hheld.stored found hread
    have hkept : e ∈ kept stored.content.entries now := by
      rw [mem_kept, hat]
      exact ⟨he, hheld.active now hclock⟩
    refine ⟨stored, now, hexpect, hclock, ?_⟩
    generalize hentries : put.record.entries = entries at hchange ⊢
    cases hchange with
    | pruned _ _ => rfl
    | appended own fresh =>
        cases own
        exact absurd hid (fresh e hkept)
    | committed own => cases own
    | released own => cases own
  · intro reservation hout
    subst hout
    unfold reserve at h
    rw [hdigest] at h
    dsimp only at h
    split at h
    · cases h
    · obtain ⟨now, found, hclock, hread, hreply⟩ := reserveLoop_reply h
      obtain ⟨stored, e, rfl, he, hid, hat⟩ := hheld.stored found hread
      have hkept : e ∈ kept stored.content.entries now := by
        rw [mem_kept, hat]
        exact ⟨he, hheld.active now hclock⟩
      obtain ⟨stored', e', hstored, he', hid', rfl⟩ | ⟨-, hfresh⟩ := hreply
      · obtain rfl := Option.some.inj hstored
        have hsame := stored.content.entry_unique (mem_kept.1 he').1 he (hid'.trans hid.symm)
        rw [hsame]
        exact ⟨hat, rfl⟩
      · exact absurd hid (hfresh stored rfl e hkept)

/-- **A second `commit`** writes no change of an active entry. -/
theorem commit_again {reservation : WalletRateReservation} {out : Except Exn Unit}
    (h : Prog.Trace (limiterBody D (.commit inst reservation)) t out)
    (hdone : ∀ stored, ⟨.getWallet reservation.walletDigest, .ok (some stored)⟩ ∈ t →
      ∀ e ∈ stored.content.entries, e.reservationId = reservation.reservationId →
        e.reservedAt = reservation.reservedAt → e.state = .committed)
    {put : WalletPut} {r : Resp (.putWallet put)} (hput : ⟨.putWallet put, r⟩ ∈ t) :
    OnlyPrunes inst t put := by
  obtain ⟨hdigest, now, found, hclock, hread, hexpect, hchange⟩ := limiterCall_framed h hput
  rw [← Option.some.inj hdigest] at hread
  cases found with
  | none =>
      obtain ⟨inst', wallet, id, hcall, -⟩ := hchange
      cases hcall
  | some stored =>
      refine ⟨stored, now, hexpect, hclock, ?_⟩
      dsimp only at hchange
      generalize hentries : put.record.entries = entries at hchange ⊢
      generalize hkept : kept stored.content.entries now = keep at hchange ⊢
      cases hchange with
      | pruned _ _ => rfl
      | appended own fresh => cases own
      | @committed _ _ before after e own split hid hat =>
          cases own
          have he : e ∈ kept stored.content.entries now := by
            rw [hkept, split]
            exact List.mem_append_right _ List.mem_cons_self
          have hstate := hdone stored hread e (mem_kept.1 he).1 hid hat
          rw [split, ← hstate]
      | released own => cases own

/-- **A second `release`** writes no change of an active entry. -/
theorem release_again {reservation : WalletRateReservation} {out : Except Exn Unit}
    (h : Prog.Trace (limiterBody D (.release inst reservation)) t out)
    (hdone : ∀ stored, ⟨.getWallet reservation.walletDigest, .ok (some stored)⟩ ∈ t →
      ∀ e ∈ stored.content.entries, e.reservationId = reservation.reservationId →
        e.reservedAt ≠ reservation.reservedAt)
    {put : WalletPut} {r : Resp (.putWallet put)} (hput : ⟨.putWallet put, r⟩ ∈ t) :
    OnlyPrunes inst t put := by
  obtain ⟨hdigest, now, found, hclock, hread, hexpect, hchange⟩ := limiterCall_framed h hput
  rw [← Option.some.inj hdigest] at hread
  cases found with
  | none =>
      obtain ⟨inst', wallet, id, hcall, -⟩ := hchange
      cases hcall
  | some stored =>
      refine ⟨stored, now, hexpect, hclock, ?_⟩
      dsimp only at hchange
      generalize hentries : put.record.entries = entries at hchange ⊢
      generalize hkept : kept stored.content.entries now = keep at hchange ⊢
      cases hchange with
      | pruned _ _ => rfl
      | appended own fresh => cases own
      | committed own => cases own
      | @released _ _ before after e own split hid hat =>
          cases own
          have he : e ∈ kept stored.content.entries now := by
            rw [hkept, split]
            exact List.mem_append_right _ List.mem_cons_self
          exact absurd hat (hdone stored hread e (mem_kept.1 he).1 hid)

/-- What a commit has written is committed. -/
theorem FramedWrite.commit_done {reservation : WalletRateReservation} {found : Option StoredWallet}
    {put : WalletPut} (h : FramedWrite (.commit inst reservation) now found put) :
    ∀ e ∈ put.record.entries, e.reservationId = reservation.reservationId →
      e.state = .committed := by
  obtain ⟨-, hchange⟩ := h
  cases found with
  | none =>
      obtain ⟨inst', wallet, id, hcall, -⟩ := hchange
      cases hcall
  | some stored =>
      have hunique : ∀ {e e' : WalletEntry}, e ∈ put.record.entries →
          e' ∈ put.record.entries → e.reservationId = e'.reservationId → e = e' :=
        fun he he' => put.record.entry_unique he he'
      dsimp only at hchange
      generalize hentries : put.record.entries = entries at hchange hunique ⊢
      cases hchange with
      | pruned commit release => exact absurd rfl (commit inst reservation)
      | appended own fresh => cases own
      | @committed _ _ before after e own split hid hat =>
          cases own
          intro e' he' hid'
          have hsame := hunique he' (List.mem_append_right before List.mem_cons_self)
            (hid'.trans hid.symm)
          rw [hsame]
      | released own => cases own

/-- What a release has written no longer has the entry. -/
theorem FramedWrite.release_done {reservation : WalletRateReservation} {found : Option StoredWallet}
    {put : WalletPut} (h : FramedWrite (.release inst reservation) now found put) :
    ∀ e ∈ put.record.entries, e.reservationId = reservation.reservationId →
      e.reservedAt ≠ reservation.reservedAt := by
  obtain ⟨-, hchange⟩ := h
  cases found with
  | none =>
      obtain ⟨inst', wallet, id, hcall, -⟩ := hchange
      cases hcall
  | some stored =>
      have hunique : ∀ {e e' : WalletEntry}, e ∈ kept stored.content.entries now →
          e' ∈ kept stored.content.entries now → e.reservationId = e'.reservationId → e = e' :=
        fun he he' => stored.content.entry_unique (mem_kept.1 he).1 (mem_kept.1 he').1
      have hnodup : (kept stored.content.entries now).Nodup := by
        have henc := stored.content.encodable
        simp only [walletEncodable, Bool.and_eq_true, decide_eq_true_eq] at henc
        exact (henc.1.2.of_map _).filter _
      dsimp only at hchange
      generalize hentries : put.record.entries = entries at hchange ⊢
      generalize hkept : kept stored.content.entries now = keep at hchange hunique hnodup
      cases hchange with
      | pruned commit release => exact release inst reservation rfl
      | appended own fresh => cases own
      | committed own => cases own
      | @released _ _ before after e own split hid hat =>
          cases own
          subst split
          intro e' he' hid' hat'
          have hmem : e' ∈ before ++ e :: after :=
            (List.sublist_append_right [e] after).append_left before |>.subset he'
          have hsame := hunique hmem (List.mem_append_right before List.mem_cons_self)
            (hid'.trans hid.symm)
          subst hsame
          obtain ⟨-, hright, hdisjoint⟩ := List.nodup_append.1 hnodup
          obtain hleft | hafter := List.mem_append.1 he'
          · exact hdisjoint _ hleft _ List.mem_cons_self rfl
          · exact (List.nodup_cons.1 hright).1 hafter

end twice

/-! ## The frame -/

/-- **Frame of wallet writes.**  Each wallet write of a call, whatever objects,
clocks and failures the call meets, keeps the entries of the object it read
that are less than an hour old, and changes at most the entry of its own
reservation; it lands only where that object is still the current one.  A
second `reserve` of an active id only prunes and returns the time of the
first; so do a `commit` and a `release` of what a `commit` and a `release`
have written. -/
theorem wallet_frame (D : Deployment) :
    (∀ call t out, Prog.Trace (limiterBody D call) t out →
      ∀ put r, ⟨.putWallet put, r⟩ ∈ t → call.digest D = some put.digest ∧
        ∃ now found, ⟨.clock call.inst, now⟩ ∈ t ∧
          ⟨.getWallet put.digest, .ok found⟩ ∈ t ∧ FramedWrite call now found put) ∧
    (∀ log, WalletRun D log → ∀ x older put, x :: older <:+ log → x.walletPut = some put →
      walletAt put.digest older = put.expect ∧
        entriesAt put.digest (x :: older) = put.record.entries) ∧
    (∀ inst wallet id digest first t out, walletDigest D wallet = some digest →
      Prog.Trace (reserve D inst wallet id) t out → KeepsId inst digest id first t →
      (∀ put r, ⟨.putWallet put, r⟩ ∈ t → OnlyPrunes inst t put) ∧
        ∀ reservation, out = .ok reservation →
          reservation.reservedAt = first ∧ reservation.createdByCaller = false) ∧
    (∀ inst reservation,
      (∀ now found put, FramedWrite (.commit inst reservation) now found put →
        ∀ e ∈ put.record.entries, e.reservationId = reservation.reservationId →
          e.state = .committed) ∧
      ∀ t out, Prog.Trace (limiterBody D (.commit inst reservation)) t out →
        (∀ stored, ⟨.getWallet reservation.walletDigest, .ok (some stored)⟩ ∈ t →
          ∀ e ∈ stored.content.entries, e.reservationId = reservation.reservationId →
            e.reservedAt = reservation.reservedAt → e.state = .committed) →
        ∀ put r, ⟨.putWallet put, r⟩ ∈ t → OnlyPrunes inst t put) ∧
    (∀ inst reservation,
      (∀ now found put, FramedWrite (.release inst reservation) now found put →
        ∀ e ∈ put.record.entries, e.reservationId = reservation.reservationId →
          e.reservedAt ≠ reservation.reservedAt) ∧
      ∀ t out, Prog.Trace (limiterBody D (.release inst reservation)) t out →
        (∀ stored, ⟨.getWallet reservation.walletDigest, .ok (some stored)⟩ ∈ t →
          ∀ e ∈ stored.content.entries, e.reservationId = reservation.reservationId →
            e.reservedAt ≠ reservation.reservedAt) →
        ∀ put r, ⟨.putWallet put, r⟩ ∈ t → OnlyPrunes inst t put) := by
  refine ⟨?_, ?_, ?_, ?_, ?_⟩
  · intro call t out h put r hput
    exact limiterCall_framed h hput
  · intro log hrun x older put hsuf hput
    obtain ⟨hcur, -⟩ := (hrun.lawful.of_suffix hsuf).replaces hput
    exact ⟨hcur, entriesAt_of_put hput⟩
  · intro inst wallet id digest first t out hdigest h hkeeps
    exact reserve_again hdigest h hkeeps
  · intro inst reservation
    refine ⟨fun now found put h => h.commit_done, ?_⟩
    intro t out h hdone put r hput
    exact commit_again h hdone hput
  · intro inst reservation
    refine ⟨fun now found put h => h.release_done, ?_⟩
    intro t out h hdone put r hput
    exact release_again h hdone hput

/-- The first admission, reserved in a wallet object of its own. -/
def releasedReservation : WalletRateReservation :=
  ⟨List.replicate 64 48, (sampleAdmission 0).id, 1700000000000, .reserved, true⟩

def releasedObject : StoredWallet :=
  ⟨1, ⟨[⟨(sampleAdmission 0).id, 1700000000000, .reserved⟩], by decide⟩⟩

/-- The write that releases it a millisecond later. -/
def releasePut : WalletPut :=
  ⟨releasedReservation.walletDigest, .release (sampleAdmission 0).id 1700000000000 1700000000001,
    some releasedObject, ⟨[], by decide⟩⟩

def releaseCalls : Calls :=
  [⟨.clock 0, (1700000000001 : Int)⟩,
    ⟨.getWallet releasedReservation.walletDigest, .ok (some releasedObject)⟩,
    ⟨.putWallet releasePut, .done 2⟩]

/-- The release of the sample reservation is framed by the object it found. -/
theorem wallet_frame_release :
    Prog.Trace (limiterBody sample (.release 0 releasedReservation)) releaseCalls (.ok ()) ∧
      ∃ now found, FramedWrite (.release 0 releasedReservation) now found releasePut := by
  have hrun : Prog.Trace (limiterBody sample (.release 0 releasedReservation)) releaseCalls
      (.ok ()) := .op (.op (.op (.ret _)))
  have hput : ⟨.putWallet releasePut, .done 2⟩ ∈ releaseCalls :=
    List.mem_cons_of_mem _ (List.mem_cons_of_mem _ List.mem_cons_self)
  obtain ⟨-, now, found, -, -, hframed⟩ := (wallet_frame sample).1 _ _ _ hrun _ _ hput
  exact ⟨hrun, now, found, hframed⟩

end X402
