import StockAnalyst.SettlementOutcome
import StockAnalyst.WalletHistory

/-!
# Reservations and payments

The job record and the wallet object change without a transaction.  The
record's own account of its reservation agrees with its payment in every
version; the wallet entry is released only for a payment that has failed in
the store, and a commit returns only where the entry is committed or no longer
counts.
-/

namespace X402

open Python ConditionalStore Coroutine

variable {D : Deployment}

/-- The reservation state of a record agrees with its payment and its job
status. -/
structure RateStateAgrees (r : JobRecord) : Prop where
  released : r.rateLimitState = some .released → r.paymentStatus = .failed
  committed : r.rateLimitState = some .committed → r.paymentStatus = .settled
  counted : r.status = .queued ∨ r.status = .running ∨ r.status = .succeeded →
    r.rateLimitState = some .committed

theorem JobOk.rateStateAgrees {r : JobRecord} (h : JobOk r) : RateStateAgrees r := by
  refine ⟨?_, ?_, ?_⟩
  · intro hreleased
    rcases h.rateState with hs | ⟨hs, -⟩ | ⟨-, hfailed⟩
    · rw [hs] at hreleased
      cases hreleased
    · rw [hs] at hreleased
      cases hreleased
    · exact hfailed
  · intro hcommitted
    rcases h.rateState with hs | ⟨-, hsettled, -⟩ | ⟨hs, -⟩
    · rw [hs] at hcommitted
      cases hcommitted
    · exact hsettled
    · rw [hs] at hcommitted
      cases hcommitted
  · intro hstatus
    have hsettled := h.paid hstatus
    have hnot : r.status ≠ .settling := by
      rcases hstatus with hs | hs | hs <;> rw [hs] <;> decide
    exact h.settled_committed hsettled hnot

/-- **Reservation and payment stay consistent.**  In every reachable state the
reservation state of every record agrees with its payment; a wallet slot is
released only after its job's payment has failed in the store; and however the
store changes meanwhile, a commit that returns has seen the entry committed,
or has read a clock at which the reservation no longer counts. -/
theorem reservation_consistent {s : Config (service D)} (h : Reachable D s) :
    (∀ job tag, jobTag job s.world.log = some tag → RateStateAgrees tag.content) ∧
    (∀ (x : Entry) older, x :: older <:+ s.world.log →
      ∀ put id reservedAt now, x.walletPut = some put →
        put.write = .release id reservedAt now →
        ∃ tag, JobVersion id tag older ∧ tag.content.paymentStatus = .failed) ∧
    ∀ (w w' : World) q inst reservation,
      Completes (limiter D) (fun u v : World => u.log <:+ v.log) q
        (commit D inst reservation).prog w (.ok ()) w' →
      CommitSeen q inst reservation w w' := by
  have hlawful := h.lawful
  refine ⟨?_, ?_, ?_⟩
  · intro job tag htag
    exact (hlawful.version_ok (Version.of_current htag)).rateStateAgrees
  · intro x older hsuf put id reservedAt now hput hwrite
    exact (hlawful.of_suffix hsuf).released_failed hput hwrite
  · intro w w' q inst reservation hcommit
    exact commit_returned hcommit

/-- A rejected job gives its wallet slot back. -/
theorem reservation_consistent_released : ∃ s tag, Reachable sample s ∧
    jobTag sampleJob s.world.log = some tag ∧
    tag.content.rateLimitState = some .released ∧ tag.content.paymentStatus = .failed := by
  obtain ⟨s, hreach, hcheck⟩ := exists_run (rejectedScript ++ plainly 1 5)
    (fun s => (jobTag sampleJob s.world.log).any
      (fun tag => tag.content.rateLimitState = some .released)) (by decide +kernel)
  obtain ⟨tag, htag, hreleased⟩ := (Option.any_eq_true _ _).1 hcheck
  have hreleased' := of_decide_eq_true hreleased
  exact ⟨s, tag, hreach, htag, hreleased',
    ((reservation_consistent hreach).1 sampleJob tag htag).released hreleased'⟩

end X402
