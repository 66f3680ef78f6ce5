import StockAnalyst.WalletSpecs

/-!
# The rate limiter on its own

Any number of limiters over one store, called in any way: reservations are
made for any wallet under any id, and any reservation is committed or
released.  Every write that lands on a wallet object was made of the version
it replaces, at a clock reading of its process, whatever the callers do.
-/

namespace X402

open Python ConditionalStore Coroutine

variable {D : Deployment} {log l : List Entry} {x : Entry} {q : Nat}

/-! ## Histories of wallet writes -/

/-- The clock reading a write was made at. -/
def WalletWrite.now : WalletWrite → Int
  | .create _ now => now
  | .prune now => now
  | .append _ now => now
  | .commit _ _ now => now
  | .release _ _ now => now

/-- What `reserve` has checked before it adds an entry; only `create` makes an
object. -/
def WalletWrite.Guard (entries : List WalletEntry) : WalletWrite → Prop
  | .create _ _ => False
  | .append id now => (∀ e ∈ activeEntries entries now, e.reservationId ≠ id) ∧
      (activeEntries entries now).length < capacity
  | _ => True

/-- How a write follows from the version it expects. -/
def WalletPut.Follows (put : WalletPut) (log : List Entry) : Prop :=
  match put.expect with
  | none => ∃ id now, put.write = .create id now ∧
      put.record.entries = [⟨id, now, .reserved⟩]
  | some tag => WalletVersion put.digest tag log ∧
      put.record.entries = put.write.apply tag.content.entries ∧
      put.write.Guard tag.content.entries

/-- A put that follows a version follows it in longer histories. -/
theorem WalletPut.Follows.mono {put : WalletPut} (h : put.Follows l)
    (hsuf : l <:+ log) : put.Follows log := by
  unfold WalletPut.Follows at h ⊢
  split at h
  · exact h
  · exact ⟨h.1.mono hsuf, h.2⟩

/-- What process `q` owes when it writes a wallet object: the time of the write
is a reading of its clock. -/
structure WalletPut.Made (put : WalletPut) (q : Nat) (log : List Entry) : Prop where
  clocked : ∃ inst, Clocked q inst put.write.now log
  follows : put.Follows log

/-- What a process has made it has made for good. -/
theorem WalletPut.Made.mono {put : WalletPut} (h : put.Made q l) (hsuf : l <:+ log) :
    put.Made q log := by
  obtain ⟨inst, hclock⟩ := h.clocked
  exact ⟨⟨inst, Did.mono hclock hsuf⟩, h.follows.mono hsuf⟩

/-- Every wallet write followed from the version it expects, and landed on
that version only. -/
def WalletLawful : List Entry → Prop
  | [] => True
  | x :: log => WalletLawful log ∧
      match x.event with
      | .did q (.putWallet put) r landed => put.Made q log ∧
          Answer (.putWallet put) ⟨x.time, log⟩ r landed
      | .landedLate q (.putWallet put) =>
          ∃ t r, (⟨t, .did q (.putWallet put) r false⟩ : Entry) ∈ log ∧
            CanLandLate (.putWallet put) r ⟨x.time, log⟩
      | _ => True

/-- A put that is owed was made by its process. -/
theorem WalletPut.Owes.made {put : WalletPut} (h : put.Owes q log) :
    put.Made q log := by
  obtain ⟨hfollows, hcause⟩ := h
  refine ⟨?_, hfollows⟩
  obtain ⟨digest, write, expect, record⟩ := put
  cases write with
  | create id now => exact hcause
  | prune now => exact hcause
  | append id now => exact hcause
  | commit id reservedAt now => exact hcause.1
  | release id reservedAt now => exact hcause.1

/-- The service keeps its wallet objects lawful. -/
theorem Lawful.wallets (h : Lawful D log) : WalletLawful log := by
  induction log with
  | nil => trivial
  | cons x log ih =>
      obtain ⟨hold, -, hevent⟩ := h
      refine ⟨ih hold, ?_⟩
      obtain ⟨time, event⟩ := x
      cases event with
      | did q e r landed =>
          cases e with
          | putWallet put => exact ⟨WalletPut.Owes.made hevent.1, hevent.2⟩
          | _ => trivial
      | landedLate q e =>
          cases e with
          | putWallet put => exact hevent
          | _ => trivial
      | chainUsed key use => trivial

/-- The past of a lawful history is lawful. -/
theorem WalletLawful.of_suffix (h : WalletLawful log) (hsuf : l <:+ log) :
    WalletLawful l := by
  obtain ⟨new, rfl⟩ := hsuf
  induction new with
  | nil => exact h
  | cons x new ih => exact ih h.1

/-- A write that was issued followed from what was there. -/
theorem WalletLawful.made (h : WalletLawful log) {put : WalletPut}
    {r : PutReply Fault} {landed : Bool}
    (hdid : Did q (.putWallet put) r landed log) : put.Made q log := by
  obtain ⟨t, hx⟩ := hdid
  obtain ⟨newer, older, rfl⟩ := List.mem_iff_append.1 hx
  have hold : older <:+ newer ++ ⟨t, .did q (.putWallet put) r landed⟩ :: older :=
    (List.suffix_cons _ older).trans ⟨newer, rfl⟩
  exact (h.of_suffix ⟨newer, rfl⟩).2.1.mono hold

/-- A write lands only on the version it expects. -/
theorem WalletLawful.replaces (h : WalletLawful (x :: log)) {put : WalletPut}
    (hput : x.walletPut = some put) :
    walletAt put.digest log = put.expect ∧ put.Follows log := by
  have hfollows : put.Follows log ∧
      (walletAt put.digest log).map (·.serial) = put.expect.map (·.serial) := by
    obtain ⟨time, event⟩ := x
    have hland := walletPut_eq_some hput
    cases event with
    | did q e r landed =>
        cases landed with
        | false => cases hland
        | true =>
            obtain rfl := Option.some.inj hland
            exact ⟨h.2.1.follows, Puts.landed_current h.2.2⟩
    | landedLate q e =>
        obtain rfl := Option.some.inj hland
        obtain ⟨t, r, hmem, hcan⟩ := h.2
        refine ⟨(h.1.made ⟨t, hmem⟩).follows, ?_⟩
        cases r with
        | fault f => exact hcan
        | done n => cases hcan
        | preconditionFailed => cases hcan
        | conflict => cases hcan
    | chainUsed key use => cases hland
  obtain ⟨hfollows, hcur⟩ := hfollows
  refine ⟨?_, hfollows⟩
  unfold WalletPut.Follows at hfollows
  split at hfollows
  · rename_i hexpect
    rw [hexpect] at hcur ⊢
    exact Option.map_eq_none_iff.1 hcur
  · rename_i tag hexpect
    rw [hexpect] at hcur ⊢
    have hserial : serial Entry.walletWrite put.digest log = tag.serial := by
      unfold walletAt at hcur
      simp [serial, hcur]
    exact hfollows.1.is_current hserial

/-- **The chain of a wallet.**  A write that lands creates the object where
there was none, or is made of the current version. -/
theorem WalletLawful.step (h : WalletLawful (x :: log)) {put : WalletPut}
    (hput : x.walletPut = some put) :
    (walletAt put.digest log = none ∧ ∃ id now, put.write = .create id now ∧
        put.record.entries = [⟨id, now, .reserved⟩]) ∨
      ∃ tag, walletAt put.digest log = some tag ∧
        put.record.entries = put.write.apply tag.content.entries ∧
        put.write.Guard tag.content.entries := by
  obtain ⟨hcur, hfollows⟩ := h.replaces hput
  unfold WalletPut.Follows at hfollows
  split at hfollows
  · rename_i hexpect
    exact Or.inl ⟨hcur.trans hexpect, hfollows⟩
  · rename_i tag hexpect
    exact Or.inr ⟨tag, hcur.trans hexpect, hfollows.2⟩

/-! ## Limiters alone -/

inductive LimiterCall where
  | reserve (inst : Nat) (wallet id : PyStr)
  | confirm (inst : Nat) (reservation : WalletRateReservation)
  | commit (inst : Nat) (reservation : WalletRateReservation)
  | release (inst : Nat) (reservation : WalletRateReservation)

variable (D) in
def limiterBody : LimiterCall → Co Unit
  | .reserve inst wallet id => do
      let _ ← reserve D inst wallet id
      pure ()
  | .confirm inst reservation => do
      let _ ← confirm inst reservation
      pure ()
  | .commit inst reservation => commit D inst reservation
  | .release inst reservation => release D inst reservation

variable (D) in
/-- Any number of `WalletRateLimiter`s over one store. -/
def limiter : Machine where
  Eff := Eff
  Resp := Resp
  Call := LimiterCall
  World := World
  body := fun call => (limiterBody D call).prog.bind (fun _ => .ret ())
  external := fun _ => True
  react := React
  forks := fun _ => []
  env := Env

/-- What the limiter's proofs ask of a contract: the others only add to the
history, and nothing but a wallet write owes anything. -/
structure Limits (C : Contract (limiter D)) : Prop where
  suffix : ∀ {q : Nat} {w w' : World}, C.ext q w w' → w.log <:+ w'.log
  quiet : ∀ {q : Nat} {w : World} {e : Eff}, e.walletPut = none → C.pre q w e
  put : ∀ {q : Nat} {w : World} {put : WalletPut}, put.Made q w.log →
    C.pre q w (Eff.putWallet put)

section specs

variable {C : Contract (limiter D)} {α β : Type} {w : World} {inst : Nat}

/-- Process `q`, running `p` from `w` among the others, meets the contract and
ends in `Q`. -/
def Meets (C : Contract (limiter D)) (q : Nat) (p : Co α) (w : World)
    (Q : Except Exn α → World → Prop) : Prop :=
  awp (M := limiter D) C q p Q w

/-- A postcondition for results only. -/
def Returns (A : α → World → Prop) : Except Exn α → World → Prop :=
  Post A (fun _ _ => True)

/-- A value that is returned meets what holds of it. -/
theorem Meets.pure {a : α} {A : α → World → Prop} (h : A a w) :
    Meets C q (pure a) w (Returns A) := h

/-- A program that throws returns nothing. -/
theorem Meets.throw {x : Exn} {A : α → World → Prop} :
    Meets C q (Async.throw x) w (Returns A) := trivial

/-- The history only grows while a process runs. -/
theorem Meets.keep (hC : Limits C) {p : Co α} {Q : Except Exn α → World → Prop}
    (h : Meets C q p w Q) : Meets C q p w (fun r w' => w.log <:+ w'.log ∧ Q r w') := by
  have htrack : Meets C q p w (fun r w' => Q r w' ∧ w.log <:+ w'.log) := by
    refine wp_track (M := limiter D) (R := fun w w' : World => w.log <:+ w'.log)
      (fun w => List.suffix_refl _) List.IsSuffix.trans hC.suffix (fun hreact => ?_) h
    obtain ⟨landed, -, rfl⟩ := hreact
    exact List.suffix_cons _ _
  exact awp_mono (M := limiter D) htrack fun _ _ h => ⟨h.2, h.1⟩

/-- Two programs one after the other. -/
theorem Meets.bind (hC : Limits C) {p : Co α} {f : α → Co β} {A : α → World → Prop}
    {B : β → World → Prop} (hp : Meets C q p w (Returns A))
    (hf : ∀ a w', w.log <:+ w'.log → A a w' → Meets C q (f a) w' (Returns B)) :
    Meets C q (p >>= f) w (Returns B) := by
  refine (awp_bind (M := limiter D)).2 (awp_mono (M := limiter D) (hp.keep hC) ?_)
  intro r w' h
  cases r with
  | error x => trivial
  | ok a => exact hf a w' h.1 h.2

/-- A program whose exception is caught, and what follows. -/
theorem Meets.attempt (hC : Limits C) {p : Co α} {f : Except Exn α → Co β}
    {Q : Except Exn α → World → Prop} {Q' : Except Exn β → World → Prop}
    (hp : Meets C q p w Q)
    (hf : ∀ r w', w.log <:+ w'.log → Q r w' → Meets C q (f r) w' Q') :
    Meets C q (Async.attempt p >>= f) w Q' := by
  refine (awp_bind (M := limiter D)).2 ((awp_attempt (M := limiter D)).2 ?_)
  exact awp_mono (M := limiter D) (hp.keep hC) fun r w' h => hf r w' h.1 h.2

/-- One effect. -/
theorem Meets.await (hC : Limits C) {e : Eff} {reply : Resp e → Except Exn α}
    {Q : Except Exn α → World → Prop}
    (hpre : ∀ w₁ : World, w.log <:+ w₁.log → C.pre q w₁ e)
    (hpost : ∀ (w₁ : World) r landed, w.log <:+ w₁.log → Answer e w₁ r landed →
      Q (reply r) (w₁.record (.did q e r landed))) :
    Meets C q (Async.await e reply) w Q := by
  intro w₁ hext hinv
  refine ⟨hpre w₁ (hC.suffix hext), ?_⟩
  intro r w₂ hreact _
  obtain ⟨landed, hanswer, rfl⟩ := hreact
  exact hpost w₁ r landed (hC.suffix hext) hanswer

/-- Process `q` read the clock of the instance since `w`. -/
def ClockedSince (q inst : Nat) (now : Int) (w w' : World) : Prop :=
  ∃ t l, w.log <:+ l ∧ (⟨t, .did q (.clock inst) now false⟩ : Entry) :: l <:+ w'.log

/-- The object was there at some time since `w`. -/
def SeenWallet (digest : PyStr) (found : Option StoredWallet) (w w' : World) : Prop :=
  ∃ l, w.log <:+ l ∧ l <:+ w'.log ∧ walletAt digest l = found

/-- A clock read since was read. -/
theorem ClockedSince.clocked {now : Int} {w w' : World}
    (h : ClockedSince q inst now w w') : Clocked q inst now w'.log := by
  obtain ⟨t, l, -, hsuf⟩ := h
  exact ⟨t, hsuf.mem List.mem_cons_self⟩

/-- A clock read within a part of a run was read within the whole. -/
theorem ClockedSince.weaken {now : Int} {w w₁ w₂ w₃ : World}
    (h : ClockedSince q inst now w₁ w₂) (hbefore : w.log <:+ w₁.log)
    (hafter : w₂.log <:+ w₃.log) : ClockedSince q inst now w w₃ := by
  obtain ⟨t, l, hl, hsuf⟩ := h
  exact ⟨t, l, hbefore.trans hl, hsuf.trans hafter⟩

/-- A wallet seen within a part of a run was seen within the whole. -/
theorem SeenWallet.weaken {digest : PyStr} {found : Option StoredWallet}
    {w w₁ w₂ w₃ : World} (h : SeenWallet digest found w₁ w₂)
    (hbefore : w.log <:+ w₁.log) (hafter : w₂.log <:+ w₃.log) :
    SeenWallet digest found w w₃ := by
  obtain ⟨l, hl, hl', hat⟩ := h
  exact ⟨l, hbefore.trans hl, hl'.trans hafter, hat⟩

/-- A wallet that was seen is a version of its record. -/
theorem SeenWallet.version {digest : PyStr} {tag : StoredWallet} {w w' : World}
    (h : SeenWallet digest (some tag) w w') : WalletVersion digest tag w'.log := by
  obtain ⟨l, -, hl', hat⟩ := h
  exact ⟨l, hl', hat⟩

/-- The limiter's clock is one that was read. -/
theorem walletNow_meets (hC : Limits C) :
    Meets C q (walletNow inst) w (Returns fun now w' =>
      ClockedSince q inst now w w') := by
  have hclock : Meets C q (clock inst) w (Returns fun now w' =>
      ClockedSince q inst now w w') := by
    refine Meets.await hC (fun _ _ => hC.quiet rfl) ?_
    intro w₁ r landed hsuf hanswer
    obtain rfl : landed = false := hanswer
    exact ⟨w₁.time, w₁.log, hsuf, List.suffix_refl _⟩
  refine hclock.bind hC ?_
  intro now w' _ h
  split
  · exact Meets.pure h
  · exact Meets.throw

/-- Waiting meets the limits. -/
theorem backoff_meets (hC : Limits C) {remaining : Nat} :
    Meets C q (backoff remaining) w (Returns fun _ _ => True) := by
  unfold backoff
  split
  · exact Meets.pure trivial
  · refine Meets.await hC (fun _ _ => hC.quiet rfl) ?_
    intro w₁ r landed _ _
    cases r <;> trivial

/-- A wallet that is returned was seen. -/
theorem readWalletRateLimit_meets (hC : Limits C) {digest : PyStr} :
    Meets C q (readWalletRateLimit digest) w (Returns fun found w' =>
      SeenWallet digest found w w') := by
  unfold readWalletRateLimit
  split
  · exact Meets.throw
  · refine Meets.await hC (fun _ _ => hC.quiet rfl) ?_
    intro w₁ r landed hsuf hanswer
    obtain ⟨hread, -⟩ := hanswer
    cases r with
    | error f => trivial
    | ok found => exact ⟨w₁.log, hsuf, List.suffix_cons _ _, hread.symm⟩

/-- A conditional write of a wallet object, and what it made if it landed. -/
theorem putWallet_meets (hC : Limits C) {put : WalletPut} (n : Nat)
    (hmade : put.Made q w.log) :
    Meets C q (conditionalPut (Async.await (.putWallet put) .ok) n) w
      (Returns fun serial w' => ∀ k, serial = some k →
        SeenWallet put.digest (some ⟨k, put.record⟩) w w') := by
  induction n generalizing w with
  | zero => exact Meets.throw
  | succ n ih =>
      unfold conditionalPut
      refine Meets.bind hC (A := fun reply w' => ∀ k, reply = .done k →
          SeenWallet put.digest (some ⟨k, put.record⟩) w w') ?_ ?_
      · refine Meets.await hC (fun _ hsuf => hC.put (hmade.mono hsuf)) ?_
        intro w₁ r landed hsuf hanswer k hk
        obtain rfl : r = .done k := hk
        obtain ⟨rfl, rfl, -⟩ := Puts.done_landed hanswer
        refine ⟨_, ?_, List.suffix_refl _, current_cons_put rfl⟩
        exact hsuf.trans (List.suffix_cons _ _)
      · intro reply w' hsuf hdone
        cases reply with
        | done serial =>
            refine Meets.pure ?_
            intro k hk
            obtain rfl := Option.some.inj hk
            exact hdone serial rfl
        | preconditionFailed =>
            refine Meets.pure ?_
            intro k hk
            cases hk
        | fault f => exact Meets.throw
        | conflict =>
            dsimp only
            split
            · exact Meets.throw
            · refine awp_mono (M := limiter D) (ih (hmade.mono hsuf)) ?_
              intro r w'' h
              cases r with
              | error x => trivial
              | ok serial =>
                  intro k hk
                  exact (h k hk).weaken hsuf (List.suffix_refl _)

/-- A wallet is created with one reservation at a time that was read. -/
theorem createWalletRateLimit_meets (hC : Limits C) {digest id : PyStr} {now : Int}
    (hclock : Clocked q inst now w.log) :
    Meets C q (createWalletRateLimit digest (.create id now) [⟨id, now, .reserved⟩]) w
      (Returns fun _ _ => True) := by
  unfold createWalletRateLimit
  split
  · rename_i henc
    split
    · exact Meets.throw
    · have hmade : WalletPut.Made ⟨digest, .create id now, none, ⟨_, henc⟩⟩ q w.log :=
        ⟨⟨inst, hclock⟩, id, now, rfl, rfl⟩
      refine (putWallet_meets hC _ hmade).bind hC ?_
      intro serial w' _ _
      cases serial <;> exact Meets.pure trivial
  · exact Meets.throw

/-- A replaced object has the new entries when the call returns. -/
theorem replaceWalletRateLimit_meets (hC : Limits C) {digest : PyStr}
    {stored : StoredWallet} (write : WalletWrite)
    (hclock : Clocked q inst write.now w.log)
    (hver : WalletVersion digest stored w.log)
    (hguard : write.Guard stored.content.entries) :
    Meets C q (replaceWalletRateLimit digest stored write
        (write.apply stored.content.entries)) w
      (Returns fun _ w' => ∃ tag, SeenWallet digest (some tag) w w' ∧
        tag.content.entries = write.apply stored.content.entries) := by
  unfold replaceWalletRateLimit
  split
  · rename_i henc
    split
    · exact Meets.throw
    · have hmade : WalletPut.Made ⟨digest, write, some stored, ⟨_, henc⟩⟩ q w.log :=
        ⟨⟨inst, hclock⟩, hver, rfl, hguard⟩
      refine (putWallet_meets hC _ hmade).bind hC ?_
      intro serial w' _ h
      cases serial with
      | none => exact Meets.throw
      | some k => exact Meets.pure ⟨_, h k rfl, rfl⟩
  · exact Meets.throw

/-! ### Reserve -/

/-- One try of a reservation meets the limits. -/
theorem reserveOnce_meets (hC : Limits C) {digest id : PyStr} {now : Int}
    {remaining : Nat} (hclock : Clocked q inst now w.log) :
    Meets C q (reserveOnce digest id now remaining) w (Returns fun _ _ => True) := by
  refine (readWalletRateLimit_meets hC).bind hC ?_
  intro found w₁ hsuf hseen
  have hclock₁ : Clocked q inst now w₁.log := Did.mono hclock hsuf
  cases found with
  | none =>
      refine (createWalletRateLimit_meets hC hclock₁).bind hC ?_
      intro made w₂ _ _
      cases made with
      | none => exact (backoff_meets hC).bind hC fun _ _ _ _ => Meets.pure trivial
      | some u => exact Meets.pure trivial
  | some stored =>
      dsimp only
      split
      · split
        · exact Meets.pure trivial
        · refine (replaceWalletRateLimit_meets hC (.prune now) hclock₁
            hseen.version trivial).bind hC ?_
          intro _ _ _ _
          exact Meets.pure trivial
      · rename_i hnone
        split
        · exact Meets.throw
        · rename_i hroom
          have hfresh : ∀ e ∈ activeEntries stored.content.entries now,
              e.reservationId ≠ id := by
            intro e he
            simpa using List.find?_eq_none.1 hnone e he
          refine (replaceWalletRateLimit_meets hC (.append id now) hclock₁
            hseen.version ⟨hfresh, Nat.lt_of_not_le hroom⟩).bind hC ?_
          intro _ _ _ _
          exact Meets.pure trivial

/-- So do all its tries. -/
theorem reserveLoop_meets (hC : Limits C) {digest id : PyStr} (remaining : Nat) :
    Meets C q (reserveLoop inst digest id remaining) w (Returns fun _ _ => True) := by
  induction remaining generalizing w with
  | zero => exact Meets.throw
  | succ remaining ih =>
      unfold reserveLoop
      refine (walletNow_meets hC).bind hC ?_
      intro now w₁ _ hclock
      refine (reserveOnce_meets hC hclock.clocked).attempt hC ?_
      intro r w₂ _ _
      cases r with
      | error x =>
          cases x
          case jobConflict => exact (backoff_meets hC).bind hC fun _ _ _ _ => ih
          all_goals exact Meets.throw
      | ok made =>
          cases made with
          | none => exact ih
          | some reservation => exact Meets.pure trivial

/-- **A reservation meets the limits.** -/
theorem reserve_meets (hC : Limits C) {wallet id : PyStr} :
    Meets C q (reserve D inst wallet id) w (Returns fun _ _ => True) := by
  unfold reserve
  split
  · exact Meets.throw
  · split
    · exact Meets.throw
    · exact reserveLoop_meets hC _

/-! ### Commit and release -/

/-- Since `w` the entry of the reservation was or became committed, or its time
had run out by the clock of the limiter. -/
def CommitSeen (q inst : Nat) (reservation : WalletRateReservation) (w w' : World) :
    Prop :=
  (∃ now, ClockedSince q inst now w w' ∧ ¬ Active reservation.reservedAt now) ∨
  ∃ tag e, SeenWallet reservation.walletDigest (some tag) w w' ∧
    e ∈ tag.content.entries ∧
    Matches reservation.reservationId reservation.reservedAt e = true ∧
    e.state = .committed

/-- A commit seen within a part of a run was seen within the whole. -/
theorem CommitSeen.weaken {reservation : WalletRateReservation} {w w₁ w₂ w₃ : World}
    (h : CommitSeen q inst reservation w₁ w₂) (hbefore : w.log <:+ w₁.log)
    (hafter : w₂.log <:+ w₃.log) : CommitSeen q inst reservation w w₃ := by
  rcases h with ⟨now, hclock, hexpired⟩ | ⟨tag, e, hseen, hrest⟩
  · exact Or.inl ⟨now, hclock.weaken hbefore hafter, hexpired⟩
  · exact Or.inr ⟨tag, e, hseen.weaken hbefore hafter, hrest⟩

/-- A state other than reserved is one that was seen. -/
theorem readCommitState_meets (hC : Limits C) {reservation : WalletRateReservation} :
    Meets C q (readCommitState inst reservation) w (Returns fun state w' =>
      state ≠ .reserved → CommitSeen q inst reservation w w') := by
  refine (walletNow_meets hC).bind hC ?_
  intro now w₁ hsuf hclock
  split
  · rename_i hexpired
    exact Meets.pure fun _ => Or.inl ⟨now, hclock, hexpired⟩
  · refine (readWalletRateLimit_meets hC).attempt hC ?_
    intro r w₂ hsuf₂ h
    cases r with
    | error x => cases x <;> exact Meets.throw
    | ok found =>
        have hseen : SeenWallet reservation.walletDigest found w w₂ :=
          SeenWallet.weaken h hsuf (List.suffix_refl _)
        cases found with
        | none => exact Meets.throw
        | some stored =>
            dsimp only
            split
            · exact Meets.throw
            · rename_i e hfind
              have hmem := (List.mem_filter.1 (List.mem_of_find?_eq_some hfind)).1
              split
              · exact Meets.pure fun h => absurd rfl h
              · rename_i hcommitted
                exact Meets.pure fun _ => Or.inr ⟨stored, e, hseen, hmem,
                  List.find?_some hfind, hcommitted⟩

/-- Confirming meets the limits. -/
theorem confirm_meets (hC : Limits C) {reservation : WalletRateReservation} :
    Meets C q (confirm inst reservation) w (Returns fun _ _ => True) := by
  refine (walletNow_meets hC).bind hC ?_
  intro now w₁ _ _
  split
  · exact Meets.pure trivial
  · refine (readCommitState_meets hC).bind hC ?_
    intro state w₂ _ _
    cases state
    case reserved => exact Meets.pure trivial
    all_goals exact Meets.throw

/-- A commit leaves the entry it finds committed. -/
theorem committed_of_commitEntry {id : PyStr} {reservedAt : Int}
    {entries : List WalletEntry} (h : entries.any (Matches id reservedAt) = true) :
    ∃ e ∈ commitEntry id reservedAt entries, Matches id reservedAt e = true ∧
      e.state = .committed := by
  induction entries with
  | nil => cases h
  | cons e es ih =>
      unfold commitEntry
      split
      · rename_i hmatch
        exact ⟨_, List.mem_cons_self, hmatch, rfl⟩
      · rename_i hno
        have hrest : es.any (Matches id reservedAt) = true := by
          simpa [hno] using h
        obtain ⟨e', hmem, hrest⟩ := ih hrest
        exact ⟨e', List.mem_cons_of_mem _ hmem, hrest⟩

/-- One pass that ends a commit has seen it done. -/
theorem mutateOnce_meets (hC : Limits C) {reservation : WalletRateReservation}
    {commit : Bool} {now : Int} {remaining : Nat} {w₀ : World}
    (hbefore : w₀.log <:+ w.log) (hclock : ClockedSince q inst now w₀ w) :
    Meets C q (mutateOnce inst reservation commit now remaining) w
      (Returns fun finished w' => finished = true → commit = true →
        CommitSeen q inst reservation w₀ w') := by
  refine (readWalletRateLimit_meets hC).bind hC ?_
  intro found w₁ hsuf hseen
  have hclock₁ := hclock.weaken (List.suffix_refl _) hsuf
  cases found with
  | none =>
      dsimp only
      split
      · exact Meets.throw
      · rename_i hno
        refine Meets.pure ?_
        intro _ hcommit
        exact Or.inl ⟨now, hclock₁, fun hactive => hno ⟨hcommit, hactive⟩⟩
  | some stored =>
      dsimp only
      split
      · split
        · exact Meets.throw
        · rename_i hexpired
          exact Meets.pure fun _ _ => Or.inl ⟨now, hclock₁, hexpired⟩
      · rename_i hfound
        have hwrite : commit = true → ∃ e ∈ (mutation reservation commit now).apply
            stored.content.entries, Matches reservation.reservationId
              reservation.reservedAt e = true ∧ e.state = .committed := by
          intro hcommit
          subst hcommit
          exact committed_of_commitEntry (by simpa using hfound)
        have hnow : (mutation reservation commit now).now = now := by
          cases commit <;> rfl
        split
        · rename_i hsame
          refine Meets.pure ?_
          intro _ hcommit
          obtain ⟨e, hmem, hrest⟩ := hwrite hcommit
          rw [hsame] at hmem
          exact Or.inr ⟨stored, e, hseen.weaken hbefore (List.suffix_refl _), hmem, hrest⟩
        · refine (replaceWalletRateLimit_meets hC _ (by rw [hnow]; exact hclock₁.clocked)
            hseen.version (by cases commit <;> trivial)).attempt hC ?_
          intro r w₂ hsuf₂ h
          have hbefore₂ := (hbefore.trans hsuf).trans hsuf₂
          cases r with
          | ok u =>
              obtain ⟨tag, hseen₂, hentries⟩ := h
              refine Meets.pure ?_
              intro _ hcommit
              obtain ⟨e, hmem, hrest⟩ := hwrite hcommit
              rw [← hentries] at hmem
              exact Or.inr ⟨tag, e, hseen₂.weaken (hbefore.trans hsuf)
                (List.suffix_refl _), hmem, hrest⟩
          | error x =>
              cases x
              case jobConflict =>
                refine (backoff_meets hC).bind hC ?_
                intro _ w₃ _ _
                refine Meets.pure ?_
                intro hfinished
                cases hfinished
              case cancelled => exact Meets.throw
              -- whatever else failed, a commit looks at the stored record
              all_goals
                dsimp only
                split
                · exact Meets.throw
                · refine (readCommitState_meets hC).bind hC ?_
                  intro state w₃ _ hstate
                  have hdone : state ≠ .reserved → CommitSeen q inst reservation w₀ w₃ :=
                    fun hne => (hstate hne).weaken hbefore₂ (List.suffix_refl _)
                  cases state
                  case reserved =>
                    refine Meets.pure ?_
                    intro hfinished
                    cases hfinished
                  all_goals exact Meets.pure fun _ _ => hdone (by decide)

/-- A commit that returns was seen, in whichever try. -/
theorem mutateLoop_meets (hC : Limits C) {reservation : WalletRateReservation}
    (commit : Bool) (remaining : Nat) {w₀ : World} (hbefore : w₀.log <:+ w.log) :
    Meets C q (mutateLoop inst reservation commit remaining) w
      (Returns fun _ w' => commit = true → CommitSeen q inst reservation w₀ w') := by
  induction remaining generalizing w with
  | zero => exact Meets.throw
  | succ remaining ih =>
      unfold mutateLoop
      refine (walletNow_meets hC).bind hC ?_
      intro now w₁ hsuf hclock
      have hclock₁ := hclock.weaken hbefore (List.suffix_refl _)
      refine (mutateOnce_meets hC (hbefore.trans hsuf) hclock₁).attempt hC ?_
      intro r w₂ hsuf₂ h
      have hbefore₂ := (hbefore.trans hsuf).trans hsuf₂
      cases r with
      | error x =>
          cases x
          case jobConflict =>
            exact (backoff_meets hC).bind hC fun _ _ hsuf₃ _ => ih (hbefore₂.trans hsuf₃)
          all_goals exact Meets.throw
      | ok finished =>
          cases finished with
          | true => exact Meets.pure (h rfl)
          | false => exact ih hbefore₂

/-- **A commit that returns was seen.** -/
theorem commit_meets (hC : Limits C) {reservation : WalletRateReservation} :
    Meets C q (commit D inst reservation) w
      (Returns fun _ w' => CommitSeen q inst reservation w w') := by
  refine awp_mono (M := limiter D)
    (mutateLoop_meets hC true _ (List.suffix_refl w.log)) ?_
  intro r w' h
  cases r with
  | error x => trivial
  | ok u => exact h rfl

/-- A release meets the limits. -/
theorem release_meets (hC : Limits C) {reservation : WalletRateReservation} :
    Meets C q (release D inst reservation) w (Returns fun _ _ => True) := by
  refine awp_mono (M := limiter D)
    (mutateLoop_meets hC false _ (List.suffix_refl w.log)) ?_
  intro r w' _
  cases r <;> trivial

end specs

/-! ## Every interleaving -/

variable (D) in
/-- The contract of limiters among limiters. -/
def limits : Contract (limiter D) where
  inv := fun w : World => WalletLawful w.log
  ext := fun _ (w w' : World) => w.log <:+ w'.log
  pre := fun q (w : World) (e : Eff) => ∀ put, e = .putWallet put → put.Made q w.log
  fresh := fun _ _ => True
  ready := fun _ _ => True
  ext_refl := fun _ _ => List.suffix_refl _
  ext_trans := fun h h' => h.trans h'
  inv_react := by
    intro q e w r w' hinv hpre hreact
    obtain ⟨landed, hanswer, rfl⟩ := hreact
    refine ⟨hinv, ?_⟩
    cases e with
    | putWallet put => exact ⟨hpre put rfl, hanswer⟩
    | _ => trivial
  inv_env := by
    intro w w' hinv henv
    cases henv with
    | tick htime => exact hinv
    | @land t q e r hdid hcan =>
        refine ⟨hinv, ?_⟩
        cases e with
        | putWallet put => exact ⟨t, r, hdid, hcan⟩
        | _ => trivial
    | chain hfree => exact ⟨hinv, trivial⟩
  ext_react := by
    intro pid q e w r w' _ hreact
    obtain ⟨landed, -, rfl⟩ := hreact
    exact List.suffix_cons _ _
  ext_env := by
    intro q w w' henv
    cases henv with
    | tick htime => exact List.suffix_refl _
    | land hdid hcan => exact List.suffix_cons _ _
    | chain hfree => exact List.suffix_cons _ _
  fresh_ext := fun _ h => h
  ready_ext := fun _ h => h
  ready_external := fun _ _ => trivial
  ready_fork := fun _ _ _ _ => trivial

/-- The contract of the limiter limits every put. -/
theorem limits_limits : Limits (limits D) where
  suffix := fun h => h
  quiet := by
    intro q w e hno put heq
    subst heq
    cases hno
  put := by
    intro q w put hmade put' heq
    cases heq
    exact hmade

/-- **The limits hold of every run.** -/
theorem limits_sound : (limits D).Sound := by
  intro call q w _ _ _
  refine wp_bind.2 (wp_mono (Q := fun _ _ => True) ?_ (fun _ _ _ => trivial))
  have hdone : ∀ {A : Unit → World → Prop} {p : Co Unit},
      Meets (limits D) q p w (Returns A) → Meets (limits D) q p w (fun _ _ => True) :=
    fun h => awp_mono (M := limiter D) h fun _ _ _ => trivial
  cases call with
  | reserve inst wallet id =>
      exact hdone ((reserve_meets limits_limits).bind limits_limits
        fun _ _ _ _ => Meets.pure (A := fun _ _ => True) trivial)
  | confirm inst reservation =>
      exact hdone ((confirm_meets limits_limits).bind limits_limits
        fun _ _ _ _ => Meets.pure (A := fun _ _ => True) trivial)
  | commit inst reservation => exact hdone (commit_meets limits_limits)
  | release inst reservation => exact hdone (release_meets limits_limits)

variable (D) in
/-- What any interleaving of limiter calls reaches from the empty store. -/
def LimiterReachable (s : Config (limiter D)) : Prop :=
  ∃ time, Reach (limiter D) (World.empty time) s

/-- **Limiters keep their wallet objects lawful.** -/
theorem LimiterReachable.lawful {s : Config (limiter D)} (h : LimiterReachable D s) :
    WalletLawful (World.log s.world) := by
  obtain ⟨time, hreach⟩ := h
  have hempty : (limits D).inv (World.empty time) := trivial
  exact (Contract.reach (C := limits D) limits_sound hempty (fun _ => trivial) hreach).inv

/-! ## A commit that returns -/

variable (D) in
/-- Nothing is asked of anybody. -/
def unwatched : Contract (limiter D) where
  inv := fun _ => True
  ext := fun _ (w w' : World) => w.log <:+ w'.log
  pre := fun _ _ _ => True
  fresh := fun _ _ => True
  ready := fun _ _ => True
  ext_refl := fun _ _ => List.suffix_refl _
  ext_trans := fun h h' => h.trans h'
  inv_react := fun _ _ _ => trivial
  inv_env := fun _ _ => trivial
  ext_react := (limits D).ext_react
  ext_env := fun {q _ _} => (limits D).ext_env (q := q)
  fresh_ext := fun _ h => h
  ready_ext := fun _ h => h
  ready_external := fun _ _ => trivial
  ready_fork := fun _ _ _ _ => trivial

/-- So does a contract that asks nothing of the calls. -/
theorem unwatched_limits : Limits (unwatched D) where
  suffix := fun h => h
  quiet := fun _ => trivial
  put := fun _ => trivial

/-- **A commit that returns has been seen.**  Whatever else happens to the
store meanwhile, the entry was or became committed, or its time had run out. -/
theorem commit_returned {inst : Nat} {reservation : WalletRateReservation}
    {w w' : World}
    (h : Completes (limiter D) (fun u v : World => u.log <:+ v.log) q
      (commit D inst reservation).prog w (.ok ()) w') :
    CommitSeen q inst reservation w w' :=
  h.post (C := unwatched D) (Q := Returns fun _ w' => CommitSeen q inst reservation w w')
    (fun h => h) (fun _ _ => trivial) (commit_meets unwatched_limits) trivial

end X402
