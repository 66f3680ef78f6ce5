import Mathlib.Data.List.Nodup
import Mathlib.Data.List.Pairwise
import StockAnalyst.ExecutionSpecs
import StockAnalyst.LimiterRuns
import StockAnalyst.Scheduler

/-!
# The sliding window of a wallet

The wallet object keeps the entries of the last hour only, and every write
prunes it.  Where the clock of successive writes does not go back, what it
still holds of the last hour is what was admitted in that hour and not
released.  So an admission that finds room bounds the history, not only the
object.
-/

namespace X402

open Python ConditionalStore Coroutine

variable {D : Deployment} {log l : List Entry} {x : Entry} {digest : PyStr}

/-! ## Admissions -/

/-- A reservation made for a wallet. -/
structure Admission where
  id : PyStr
  reservedAt : Int
  deriving DecidableEq

def WalletEntry.admission (e : WalletEntry) : Admission := ⟨e.reservationId, e.reservedAt⟩

/-- The admissions after a write: creating and appending writes admit, and a
release takes back what has not run out by itself. -/
def WalletWrite.admitting (admitted : List Admission) : WalletWrite → List Admission
  | .create id now => ⟨id, now⟩ :: admitted
  | .append id now => ⟨id, now⟩ :: admitted
  | .release id reservedAt now =>
      if Active reservedAt now then admitted.filter (· ≠ ⟨id, reservedAt⟩) else admitted
  | .prune _ => admitted
  | .commit _ _ _ => admitted

/-- A release only takes back. -/
theorem admitting_release {admitted : List Admission} {id : PyStr} {reservedAt now : Int} :
    (WalletWrite.admitting admitted (.release id reservedAt now)).Sublist admitted := by
  simp only [WalletWrite.admitting]
  split
  · exact List.filter_sublist
  · exact List.Sublist.refl admitted

/-- Whether a write makes an admission. -/
def WalletWrite.admits : WalletWrite → Bool
  | .create _ _ => true
  | .append _ _ => true
  | _ => false

/-- The write that an entry landed on a wallet. -/
def Entry.walletWriteOf (digest : PyStr) (x : Entry) : Option WalletWrite :=
  match x.walletPut with
  | none => none
  | some put => if put.digest = digest then some put.write else none

/-- The admissions of a wallet that no later write released, newest first. -/
def admissions (digest : PyStr) : List Entry → List Admission
  | [] => []
  | x :: log =>
      match x.walletWriteOf digest with
      | none => admissions digest log
      | some write => write.admitting (admissions digest log)

/-- The entries of the wallet object. -/
def entriesAt (digest : PyStr) (log : List Entry) : List WalletEntry :=
  ((walletAt digest log).map (·.content.entries)).getD []

/-- The clock readings of the writes that landed on a wallet do not go back. -/
def ClockForward (digest : PyStr) : List Entry → Prop
  | [] => True
  | x :: log => ClockForward digest log ∧ ∀ write, x.walletWriteOf digest = some write →
      ∀ y ∈ log, ∀ earlier, y.walletWriteOf digest = some earlier →
        earlier.now ≤ write.now

/-- The clock has not been before any write of the wallet. -/
def After (digest : PyStr) (log : List Entry) (now : Int) : Prop :=
  ∀ y ∈ log, ∀ write, y.walletWriteOf digest = some write → write.now ≤ now

/-- A write to a wallet is a put of its record. -/
theorem walletWriteOf_eq_some {write : WalletWrite}
    (h : x.walletWriteOf digest = some write) :
    ∃ put, x.walletPut = some put ∧ put.digest = digest ∧ put.write = write := by
  unfold Entry.walletWriteOf at h
  split at h
  · cases h
  · rename_i put hput
    split at h
    · rename_i hdigest
      exact ⟨put, hput, hdigest, Option.some.inj h⟩
    · cases h

/-- What writes no wallet leaves it. -/
theorem walletAt_of_none (h : x.walletWriteOf digest = none) :
    walletAt digest (x :: log) = walletAt digest log := by
  refine current_cons_ne ?_
  intro c hc
  obtain ⟨put, hput, heq⟩ := Option.map_eq_some_iff.1 hc
  obtain ⟨hdigest, -⟩ := Prod.mk.inj heq
  simp [Entry.walletWriteOf, hput, hdigest] at h

/-- A put is the newest version of its wallet. -/
theorem walletAt_of_put {put : WalletPut} (h : x.walletPut = some put) :
    walletAt put.digest (x :: log) =
      some ⟨serial Entry.walletWrite put.digest log + 1, put.record⟩ :=
  current_cons_put (by simp [Entry.walletWrite, h])

/-- Its entries are those of the put. -/
theorem entriesAt_of_put {put : WalletPut} (h : x.walletPut = some put) :
    entriesAt put.digest (x :: log) = put.record.entries := by
  simp [entriesAt, walletAt_of_put h]

/-- The entries of a wallet are those of its newest version. -/
theorem entriesAt_of_some {tag : StoredWallet} (h : walletAt digest log = some tag) :
    entriesAt digest log = tag.content.entries := by
  simp [entriesAt, h]

/-- A wallet without an object has admitted nothing. -/
theorem admissions_of_none (h : walletAt digest log = none) :
    admissions digest log = [] := by
  induction log with
  | nil => rfl
  | cons x log ih =>
      cases hwrite : x.walletWriteOf digest with
      | none =>
          rw [walletAt_of_none hwrite] at h
          simp only [admissions, hwrite]
          exact ih h
      | some write =>
          obtain ⟨put, hput, rfl, -⟩ := walletWriteOf_eq_some hwrite
          rw [walletAt_of_put hput] at h
          cases h

/-- **One write.**  A landed write makes the object and the admissions from
those before it. -/
theorem WalletLawful.wallet_step (h : WalletLawful (x :: log)) {write : WalletWrite}
    (hwrite : x.walletWriteOf digest = some write) :
    admissions digest (x :: log) = write.admitting (admissions digest log) ∧
    ((entriesAt digest log = [] ∧ admissions digest log = [] ∧
        ∃ id now, write = .create id now ∧
          entriesAt digest (x :: log) = [⟨id, now, .reserved⟩]) ∨
      (entriesAt digest (x :: log) = write.apply (entriesAt digest log) ∧
        write.Guard (entriesAt digest log))) := by
  obtain ⟨put, hput, rfl, rfl⟩ := walletWriteOf_eq_some hwrite
  refine ⟨by simp only [admissions, hwrite], ?_⟩
  rw [entriesAt_of_put hput]
  rcases h.step hput with ⟨hnone, id, now, hcreate, hentries⟩ |
      ⟨tag, hcur, hentries, hguard⟩
  · exact Or.inl ⟨by simp [entriesAt, hnone], admissions_of_none hnone, id, now, hcreate,
      hentries⟩
  · rw [← entriesAt_of_some hcur] at hentries hguard
    exact Or.inr ⟨hentries, hguard⟩

/-! ## The window -/

/-- The admissions that count at `now`. -/
def counting (admitted : List Admission) (now : Int) : List Admission :=
  admitted.filter (fun a => Active a.reservedAt now)

/-- What is active now was active before. -/
theorem Active.earlier {reservedAt now now' : Int} (h : Active reservedAt now)
    (hle : now' ≤ now) : Active reservedAt now' := by
  unfold Active at h ⊢
  omega

/-- Pruning at an earlier time loses nothing that counts. -/
theorem counting_pruned (entries : List WalletEntry) {now now' : Int} (hle : now' ≤ now) :
    counting ((activeEntries entries now').map WalletEntry.admission) now =
      counting (entries.map WalletEntry.admission) now := by
  induction entries with
  | nil => rfl
  | cons e es ih =>
      by_cases hpruned : Active e.reservedAt now'
      · have hkeep : activeEntries (e :: es) now' = e :: activeEntries es now' := by
          simp [activeEntries, hpruned]
        simp only [hkeep, List.map_cons]
        unfold counting at ih ⊢
        rw [List.filter_cons, List.filter_cons, ih]
      · have hdrop : activeEntries (e :: es) now' = activeEntries es now' := by
          simp [activeEntries, hpruned]
        have hout : ¬ Active e.admission.reservedAt now := fun h => hpruned (h.earlier hle)
        rw [hdrop, ih]
        simp [counting, hout]

/-- Committing changes no admission. -/
theorem map_commitEntry (id : PyStr) (reservedAt : Int) (entries : List WalletEntry) :
    (commitEntry id reservedAt entries).map WalletEntry.admission =
      entries.map WalletEntry.admission := by
  induction entries with
  | nil => rfl
  | cons e es ih =>
      unfold commitEntry
      split
      · rfl
      · simp [ih]

/-- A release takes back one admission. -/
theorem map_releaseEntry (id : PyStr) (reservedAt : Int) {entries : List WalletEntry}
    (hnodup : (entries.map WalletEntry.admission).Nodup) :
    (releaseEntry id reservedAt entries).map WalletEntry.admission =
      (entries.map WalletEntry.admission).filter (· ≠ ⟨id, reservedAt⟩) := by
  have herase : (releaseEntry id reservedAt entries).map WalletEntry.admission =
      (entries.map WalletEntry.admission).erase ⟨id, reservedAt⟩ := by
    have hmatch : (· == (⟨id, reservedAt⟩ : Admission)) ∘ WalletEntry.admission =
        Matches id reservedAt := by
      funext e
      rw [Bool.eq_iff_iff]
      simp [Matches, WalletEntry.admission]
    rw [List.erase_eq_eraseP', List.eraseP_map, hmatch, releaseEntry]
  rw [herase, hnodup.erase_eq_filter]
  congr 1
  funext a
  by_cases ha : a = ⟨id, reservedAt⟩ <;> simp [ha]

/-- The active entries are some of the entries. -/
theorem activeEntries_sublist (entries : List WalletEntry) (now : Int) :
    (activeEntries entries now).Sublist entries :=
  List.filter_sublist

/-- The entries of a wallet have ids of their own. -/
theorem entriesAt_nodup : ((entriesAt digest log).map (·.reservationId)).Nodup ∧
    (entriesAt digest log).length ≤ 30 := by
  cases hcur : walletAt digest log with
  | none => simp [entriesAt, hcur]
  | some tag =>
      rw [entriesAt_of_some hcur]
      have henc := tag.content.encodable
      simp only [walletEncodable, Bool.and_eq_true, decide_eq_true_eq] at henc
      exact ⟨henc.1.2, henc.1.1⟩

/-- Distinct reservations are distinct admissions. -/
theorem admission_nodup {entries : List WalletEntry}
    (h : (entries.map (·.reservationId)).Nodup) :
    (entries.map WalletEntry.admission).Nodup := by
  have hids : (entries.map (·.reservationId)) =
      (entries.map WalletEntry.admission).map Admission.id := by
    simp [WalletEntry.admission]
  rw [hids] at h
  exact h.of_map _

/-- What a write does to the entries that count, it does to the admissions. -/
theorem WalletWrite.window {write : WalletWrite} {entries : List WalletEntry}
    {admitted : List Admission} {now : Int}
    (hnodup : (entries.map (·.reservationId)).Nodup) (hguard : write.Guard entries)
    (hnow : write.now ≤ now)
    (h : counting admitted now =
      (counting (entries.map WalletEntry.admission) now).reverse) :
    counting (write.admitting admitted) now =
      (counting ((write.apply entries).map WalletEntry.admission) now).reverse := by
  cases write with
  | create id now' => exact hguard.elim
  | prune now' =>
      have hle : now' ≤ now := hnow
      simp only [WalletWrite.admitting, WalletWrite.apply]
      rw [counting_pruned entries hle, h]
  | append id now' =>
      have hle : now' ≤ now := hnow
      simp only [WalletWrite.admitting, WalletWrite.apply, List.map_append]
      have hsplit : counting ((activeEntries entries now').map WalletEntry.admission ++
          [⟨id, now', .reserved⟩].map WalletEntry.admission) now =
          counting (entries.map WalletEntry.admission) now ++
            counting [⟨id, now'⟩] now := by
        rw [← counting_pruned entries hle]
        exact List.filter_append _ _
      rw [hsplit, List.reverse_append, ← h]
      by_cases hactive : Active now' now
      · simp [counting, hactive]
      · simp [counting, hactive]
  | commit id reservedAt now' =>
      have hle : now' ≤ now := hnow
      simp only [WalletWrite.admitting, WalletWrite.apply]
      rw [map_commitEntry, counting_pruned entries hle, h]
  | release id reservedAt now' =>
      have hle : now' ≤ now := hnow
      have hactive : ((activeEntries entries now').map WalletEntry.admission).Nodup :=
        (admission_nodup hnodup).sublist ((activeEntries_sublist entries now').map _)
      have hcomm : ∀ admitted : List Admission,
          counting (admitted.filter (· ≠ ⟨id, reservedAt⟩)) now =
            (counting admitted now).filter (· ≠ ⟨id, reservedAt⟩) :=
        fun admitted => List.filter_comm _ _ admitted
      simp only [WalletWrite.admitting, WalletWrite.apply]
      rw [map_releaseEntry id reservedAt hactive, hcomm, counting_pruned entries hle,
        ← List.filter_reverse, ← h]
      split
      · rw [hcomm]
      · rename_i hout
        refine (List.filter_eq_self.2 ?_).symm
        intro a ha
        have hcounts := of_decide_eq_true (List.mem_filter.1 ha).2
        refine decide_eq_true ?_
        intro heq
        rw [heq] at hcounts
        exact hout (hcounts.earlier hle)

/-- What holds after a time holds of the past. -/
theorem After.tail {now : Int} (h : After digest (x :: log) now) :
    After digest log now := fun y hy => h y (List.mem_cons_of_mem _ hy)

/-- **The window.**  What counts of the object is what counts of the
admissions. -/
theorem WalletLawful.window (h : WalletLawful log) {now : Int}
    (hafter : After digest log now) :
    counting (admissions digest log) now =
      (counting ((entriesAt digest log).map WalletEntry.admission) now).reverse := by
  induction log with
  | nil => rfl
  | cons x log ih =>
      have hold := ih h.1 hafter.tail
      cases hwrite : x.walletWriteOf digest with
      | none =>
          have hsame : entriesAt digest (x :: log) = entriesAt digest log := by
            simp [entriesAt, walletAt_of_none hwrite]
          simp only [admissions, hwrite, hsame]
          exact hold
      | some write =>
          obtain ⟨hadmitted, hcase⟩ := h.wallet_step hwrite
          rw [hadmitted]
          rcases hcase with ⟨-, hnone, id, now', rfl, hentries⟩ | ⟨hentries, hguard⟩
          · rw [hentries, hnone]
            by_cases hactive : Active now' now
            · simp [WalletWrite.admitting, counting, hactive, WalletEntry.admission]
            · simp [WalletWrite.admitting, counting, hactive, WalletEntry.admission]
          · rw [hentries]
            exact WalletWrite.window entriesAt_nodup.1 hguard
              (hafter x List.mem_cons_self write hwrite) hold

/-! ## Thirty-one admissions -/

/-- An admission was made at the clock reading of its write. -/
theorem admissions_after {a : Admission} (ha : a ∈ admissions digest log) {now : Int}
    (hafter : After digest log now) : a.reservedAt ≤ now := by
  induction log with
  | nil => cases ha
  | cons x log ih =>
      have hrest : a ∈ admissions digest log → a.reservedAt ≤ now :=
        fun ha => ih ha hafter.tail
      cases hwrite : x.walletWriteOf digest with
      | none =>
          simp only [admissions, hwrite] at ha
          exact hrest ha
      | some write =>
          have hle := hafter x List.mem_cons_self write hwrite
          simp only [admissions, hwrite] at ha
          cases write with
          | create id now' =>
              rcases List.mem_cons.1 ha with rfl | ha
              · exact hle
              · exact hrest ha
          | append id now' =>
              rcases List.mem_cons.1 ha with rfl | ha
              · exact hle
              · exact hrest ha
          | release id reservedAt now' => exact hrest (admitting_release.subset ha)
          | prune now' => exact hrest ha
          | commit id reservedAt now' => exact hrest ha

/-- Later admissions have later times. -/
theorem admissions_sorted (hclock : ClockForward digest log) :
    (admissions digest log).Pairwise (fun a b => b.reservedAt ≤ a.reservedAt) := by
  induction log with
  | nil => exact List.Pairwise.nil
  | cons x log ih =>
      have hold := ih hclock.1
      cases hwrite : x.walletWriteOf digest with
      | none => simpa only [admissions, hwrite] using hold
      | some write =>
          have hafter : After digest log write.now := hclock.2 write hwrite
          simp only [admissions, hwrite]
          cases write with
          | create id now =>
              exact List.Pairwise.cons (fun b hb => admissions_after hb hafter) hold
          | append id now =>
              exact List.Pairwise.cons (fun b hb => admissions_after hb hafter) hold
          | release id reservedAt now => exact hold.sublist admitting_release
          | prune now => exact hold
          | commit id reservedAt now => exact hold

/-- An admission that counts shields the later ones. -/
theorem counting_of_oldest {admitted between : List Admission} {oldest : Admission}
    {now : Int} (hsorted : admitted.Pairwise (fun a b => b.reservedAt ≤ a.reservedAt))
    (hsub : (between ++ [oldest]).Sublist admitted) (hactive : Active oldest.reservedAt now) :
    (between ++ [oldest]).Sublist (counting admitted now) := by
  have hpair := hsorted.sublist hsub
  have hall : ∀ a ∈ between ++ [oldest], decide (Active a.reservedAt now) = true := by
    intro a ha
    rcases List.mem_append.1 ha with ha | ha
    · have hle := (List.pairwise_append.1 hpair).2.2 a ha oldest List.mem_cons_self
      have hlater : Active a.reservedAt now := by
        unfold Active at hactive ⊢
        omega
      exact decide_eq_true hlater
    · obtain rfl := List.mem_singleton.1 ha
      exact decide_eq_true hactive
  have hkeep : (between ++ [oldest]).filter (fun a => Active a.reservedAt now) =
      between ++ [oldest] := List.filter_eq_self.2 hall
  rw [← hkeep]
  exact hsub.filter _

/-- An admission is made where fewer than thirty count. -/
theorem WalletLawful.room (h : WalletLawful (x :: log)) {write : WalletWrite}
    (hclock : ClockForward digest (x :: log))
    (hwrite : x.walletWriteOf digest = some write) (hadmits : write.admits = true) :
    (counting (admissions digest log) write.now).length < capacity := by
  have hafter : After digest log write.now := hclock.2 write hwrite
  obtain ⟨-, hcase⟩ := h.wallet_step hwrite
  rcases hcase with ⟨-, hnone, -⟩ | ⟨-, hguard⟩
  · rw [hnone]
    exact Nat.succ_pos _
  · rw [h.1.window hafter, List.length_reverse]
    cases write with
    | append id now =>
        have hlength : (counting ((entriesAt digest log).map WalletEntry.admission)
            now).length = (activeEntries (entriesAt digest log) now).length := by
          unfold counting
          rw [List.filter_map, List.length_map]
          rfl
        show (counting _ now).length < capacity
        rw [hlength]
        exact hguard.2
    | create id now => exact hguard.elim
    | prune now => cases hadmits
    | commit id reservedAt now => cases hadmits
    | release id reservedAt now => cases hadmits

/-- **The sliding window.**  The induction follows the history to the write
that made the newest of the admissions. -/
theorem WalletLawful.sliding (h : WalletLawful log) (hclock : ClockForward digest log)
    {newest oldest : Admission} {between : List Admission}
    (hsub : (newest :: (between ++ [oldest])).Sublist (admissions digest log))
    (hlength : between.length + 1 = capacity) :
    windowMilliseconds ≤ newest.reservedAt - oldest.reservedAt := by
  induction log with
  | nil => cases hsub
  | cons x log ih =>
      have hold : (newest :: (between ++ [oldest])).Sublist (admissions digest log) →
          windowMilliseconds ≤ newest.reservedAt - oldest.reservedAt :=
        fun hsub => ih h.1 hclock.1 hsub
      cases hwrite : x.walletWriteOf digest with
      | none =>
          simp only [admissions, hwrite] at hsub
          exact hold hsub
      | some write =>
          simp only [admissions, hwrite] at hsub
          have hadmit : ∀ id now, write.now = now →
              (counting (admissions digest log) write.now).length < capacity →
              (newest :: (between ++ [oldest])).Sublist
                (⟨id, now⟩ :: admissions digest log) →
              windowMilliseconds ≤ newest.reservedAt - oldest.reservedAt := by
            intro id now hnow hroom hsub
            rcases List.sublist_cons_iff.1 hsub with hsub | ⟨rest, heq, hsub⟩
            · exact hold hsub
            · obtain ⟨rfl, rfl⟩ := List.cons.inj heq
              by_contra hshort
              have hactive : Active oldest.reservedAt now := by
                unfold Active
                simp only at hshort
                omega
              have hcount := (counting_of_oldest (admissions_sorted hclock.1) hsub
                hactive).length_le
              rw [← hnow] at hcount
              simp only [List.length_append, List.length_singleton] at hcount
              omega
          cases write with
          | create id now => exact hadmit id now rfl (h.room hclock hwrite rfl) hsub
          | append id now => exact hadmit id now rfl (h.room hclock hwrite rfl) hsub
          | release id reservedAt now => exact hold (hsub.trans admitting_release)
          | prune now => exact hold hsub
          | commit id reservedAt now => exact hold hsub

variable (D) in
/-- A history of limiters on their own, or of the whole service. -/
def WalletRun (log : List Entry) : Prop :=
  (∃ s, LimiterReachable D s ∧ World.log s.world = log) ∨
    ∃ s, Reachable D s ∧ s.world.log = log

/-- The history of a run is lawful. -/
theorem WalletRun.lawful (h : WalletRun D log) : WalletLawful log := by
  rcases h with ⟨s, hreach, rfl⟩ | ⟨s, hreach, rfl⟩
  · exact hreach.lawful
  · exact Reachable.lawful hreach |>.wallets

/-- **Wallet limit.**  The object never holds more than thirty entries, each
with an id of its own; and where the clock of successive writes does not go
back, the oldest and the newest of any thirty-one admissions that were not
released are an hour apart. -/
theorem wallet_limit (h : WalletRun D log) (digest : PyStr) :
    (∀ tag, walletAt digest log = some tag → tag.content.entries.length ≤ 30 ∧
      (tag.content.entries.map (·.reservationId)).Nodup) ∧
    (ClockForward digest log → ∀ newest between oldest, List.length between = 29 →
      (newest :: (between ++ [oldest])).Sublist (admissions digest log) →
      3600000 ≤ newest.reservedAt - oldest.reservedAt) := by
  refine ⟨?_, ?_⟩
  · intro tag hcur
    have hentries : ((entriesAt digest log).map (·.reservationId)).Nodup ∧
        (entriesAt digest log).length ≤ 30 := entriesAt_nodup
    rw [entriesAt_of_some hcur] at hentries
    exact ⟨hentries.2, hentries.1⟩
  · intro hclock newest between oldest hlength hsub
    exact h.lawful.sliding hclock hsub (by rw [hlength]; rfl)

/-! ### A run with thirty-one reservations -/

variable (D) in
/-- A process performs its next effect, and nothing goes wrong. -/
def limiterAct (s : Config (limiter D)) (pid : Nat) : Option (Config (limiter D)) :=
  match s.procs pid with
  | some (.op e k) => (plainReply e s.world).map fun given =>
      { s with
        world := World.record s.world (.did pid e given.reply given.landed)
        procs := Function.update s.procs pid (some (k given.reply)) }
  | _ => none

variable (D) in
def limiterActs (s : Config (limiter D)) (pid : Nat) : Nat → Option (Config (limiter D))
  | 0 => some s
  | n + 1 => (limiterAct D s pid).bind fun t => limiterActs t pid n

variable (D) in
/-- The instance 0 reserves for the sample payer at the given time. -/
def reserveAt (s : Config (limiter D)) (a : Admission) : Option (Config (limiter D)) :=
  if World.time s.world ≤ a.reservedAt then
    limiterActs D (Config.start (M := limiter D)
      { s with world := ⟨a.reservedAt, World.log s.world⟩ }
      (.reserve 0 samplePayer a.id)) s.next 3
  else none

variable (D) in
def reserveAll (s : Config (limiter D)) : List Admission → Option (Config (limiter D))
  | [] => some s
  | a :: rest => (reserveAt D s a).bind fun t => reserveAll t rest

/-- A configuration that acts is reachable. -/
theorem LimiterReachable.acts {s t : Config (limiter D)} (h : LimiterReachable D s)
    {pid n : Nat} (hacts : limiterActs D s pid n = some t) : LimiterReachable D t := by
  induction n generalizing s with
  | zero =>
      cases hacts
      exact h
  | succ n ih =>
      obtain ⟨u, hact, hrest⟩ := Option.bind_eq_some_iff.1 hacts
      refine ih ?_ hrest
      obtain ⟨time, hreach⟩ := h
      unfold limiterAct at hact
      split at hact
      · rename_i e k hproc
        obtain ⟨given, -, rfl⟩ := Option.map_eq_some_iff.1 hact
        exact ⟨time, hreach.step (Step.act hproc ⟨given.landed, given.possible, rfl⟩)⟩
      · cases hact

/-- So is one that has made many reservations. -/
theorem LimiterReachable.reserves {s t : Config (limiter D)}
    (h : LimiterReachable D s) {wanted : List Admission}
    (hall : reserveAll D s wanted = some t) : LimiterReachable D t := by
  induction wanted generalizing s with
  | nil =>
      cases hall
      exact h
  | cons a rest ih =>
      obtain ⟨u, hone, hrest⟩ := Option.bind_eq_some_iff.1 hall
      refine ih ?_ hrest
      unfold reserveAt at hone
      split at hone
      · rename_i htime
        obtain ⟨time, hreach⟩ := h
        refine LimiterReachable.acts ?_ hone
        exact ⟨time, (hreach.step (Step.env (Env.tick htime))).step (Step.start trivial)⟩
      · cases hone

/-- Thirty admissions a second apart, and one an hour after the first. -/
def sampleAdmission (n : Nat) : Admission :=
  ⟨py "x402_" ++ List.replicate 30 48 ++ [48 + n / 10, 48 + n % 10],
    if n < 30 then 1700000000000 + 1000 * n else 1700003600000⟩

/-- `ClockForward`, read off a history. -/
def clockForwardIn (digest : PyStr) : List Entry → Bool
  | [] => true
  | x :: log => clockForwardIn digest log && match x.walletWriteOf digest with
      | none => true
      | some write => log.all fun y => match y.walletWriteOf digest with
          | none => true
          | some earlier => decide (earlier.now ≤ write.now)

/-- A clock that is checked to go forward does. -/
theorem clockForward_of_clockForwardIn (h : clockForwardIn digest log = true) :
    ClockForward digest log := by
  induction log with
  | nil => trivial
  | cons x log ih =>
      simp only [clockForwardIn, Bool.and_eq_true] at h
      refine ⟨ih h.1, ?_⟩
      intro write hwrite y hy earlier hearlier
      have hx := h.2
      rw [hwrite] at hx
      have hcheck := List.all_eq_true.1 hx y hy
      rw [hearlier] at hcheck
      exact of_decide_eq_true hcheck

def sampleWallet : PyStr := (walletDigest sample samplePayer).getD []

/-- The oldest and the newest of thirty-one admissions are an hour apart. -/
theorem wallet_limit_full : ∃ log, WalletRun sample log ∧
    admissions sampleWallet log = ((List.range 31).map sampleAdmission).reverse ∧
    3600000 ≤ (sampleAdmission 30).reservedAt - (sampleAdmission 0).reservedAt := by
  have hplay : (reserveAll sample
      (Config.initial (limiter sample) (World.empty 1700000000000))
      ((List.range 31).map sampleAdmission)).any (fun s =>
        clockForwardIn sampleWallet (World.log s.world) &&
        decide (admissions sampleWallet (World.log s.world) =
          ((List.range 31).map sampleAdmission).reverse)) = true := by
    decide +kernel
  obtain ⟨s, hall, hcheck⟩ := (Option.any_eq_true _ _).1 hplay
  obtain ⟨hclock, hadmitted⟩ := Bool.and_eq_true_iff.1 hcheck
  have hadmitted' := of_decide_eq_true hadmitted
  have hrun : WalletRun sample (World.log s.world) :=
    Or.inl ⟨s, LimiterReachable.reserves ⟨1700000000000, Reach.refl⟩ hall, rfl⟩
  refine ⟨World.log s.world, hrun, hadmitted', ?_⟩
  refine (wallet_limit hrun sampleWallet).2 (clockForward_of_clockForwardIn hclock) _
    (((List.range' 1 29).map sampleAdmission).reverse) _ (by simp) ?_
  rw [hadmitted']
  exact (List.Sublist.refl _)

end X402
