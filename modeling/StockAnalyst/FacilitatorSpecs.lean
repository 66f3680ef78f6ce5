import StockAnalyst.StoreSpecs

/-!
# Specifications of the settlement call

A settlement returns an outcome only when the facilitator answered so, or when
the instance refused the proof without asking.  Everything else raises.
-/

namespace X402

open Python ConditionalStore Coroutine

variable {D : Deployment} {q : Nat} {w : World} {inst : Nat}

/-- What the caller of a settlement knows of its outcome. -/
def Told (D : Deployment) (c : CreateCall) (q : Nat) (outcome : SettlementOutcome)
    (log : List Entry) : Prop :=
  FacilitatorSaid D c q outcome log ∨
    (outcome = .rejected ∧ LocallyRefused D c q log)

/-- What the caller of the B402 client knows of an exception. -/
def Refused (D : Deployment) (c : CreateCall) (q : Nat) (x : Exn)
    (log : List Entry) : Prop :=
  x = .b402Rejected → LocallyRefused D c q log

/-- A proof that was refused without asking was refused so for good. -/
theorem LocallyRefused.mono {c : CreateCall} {log log' : List Entry}
    (h : LocallyRefused D c q log) (hsuf : log <:+ log') :
    LocallyRefused D c q log' := by
  obtain ⟨p, hp, ⟨hb402, kinds, hread, hoffer⟩ | hlocal⟩ := h
  · exact ⟨p, hp, Or.inl ⟨hb402, kinds, hread.mono hsuf, hoffer⟩⟩
  · exact ⟨p, hp, Or.inr hlocal⟩

/-- What the facilitator has said it has said for good. -/
theorem FacilitatorSaid.mono {c : CreateCall} {o : SettlementOutcome}
    {log log' : List Entry} (h : FacilitatorSaid D c q o log)
    (hsuf : log <:+ log') : FacilitatorSaid D c q o log' := by
  obtain ⟨p, hp, reply, hcase⟩ := h
  refine ⟨p, hp, reply, ?_⟩
  rcases hcase with ⟨hdid, hrest⟩ | ⟨hdid, hrest⟩ | ⟨hdid, hrest⟩
  · exact Or.inl ⟨hdid.mono hsuf, hrest⟩
  · exact Or.inr (Or.inl ⟨hdid.mono hsuf, hrest⟩)
  · exact Or.inr (Or.inr ⟨hdid.mono hsuf, hrest⟩)

/-- What a call was told it was told for good. -/
theorem Told.mono {c : CreateCall} {o : SettlementOutcome} {log log' : List Entry}
    (h : Told D c q o log) (hsuf : log <:+ log') : Told D c q o log' :=
  h.imp (fun hsaid => hsaid.mono hsuf) (And.imp_right fun hlocal => hlocal.mono hsuf)

/-! ## The B402 client -/

/-- A request that was answered. -/
theorem request_spec {endpoint : Endpoint} {payload : Json} :
    Ensures D q (Async.await (.post inst endpoint payload) orFault) w (Post
      (fun reply w' => Acts q [.quiet] w w' ∧
        Did q (.post inst endpoint payload) (.ok reply) false w'.log)
      (fun x w' => Acts q [.quiet] w w' ∧ (x = .cancelled ∨ x = .other))) := by
  refine Ensures.act (L := [.quiet]) (fun r => by simp [actKind])
    (fun _ _ _ => trivial) ?_
  intro w₁ r landed w' _ _ hanswer _ _ hsteps hdid
  obtain rfl : landed = false := hanswer
  cases r with
  | ok reply => exact ⟨hsteps, hdid⟩
  | error f =>
      cases f
      · exact ⟨hsteps, Or.inl rfl⟩
      · exact ⟨hsteps, Or.inr rfl⟩

/-- A reply that comes back was posted for. -/
theorem b402Post_spec {endpoint : Endpoint} {payload : Json} :
    Ensures D q (b402Post inst endpoint payload) w (Post
      (fun reply w' => Acts q [.quiet] w w' ∧
        Did q (.post inst endpoint payload) (.ok reply) false w'.log)
      (fun x w' => Acts q [.quiet] w w' ∧ x ≠ .b402Rejected)) := by
  unfold b402Post
  split
  · exact Ensures.throw ⟨Steps.refl w, nofun⟩
  · refine Ensures.attempt request_spec ?_
    rintro (x | reply) w₁ ⟨hsteps, hwhat⟩
    · rcases hwhat with rfl | rfl
      · exact Ensures.throw ⟨hsteps, nofun⟩
      · exact Ensures.throw ⟨hsteps, nofun⟩
    · dsimp only
      split
      · exact Ensures.pure ⟨hsteps, hwhat⟩
      · exact Ensures.throw ⟨hsteps, nofun⟩

/-- Reading the monotonic clock is quiet. -/
theorem monotonic_spec :
    Ensures D q (monotonic inst) w (Post (fun _ w' => Acts q [.quiet] w w')
      (fun _ _ => False)) :=
  Ensures.quiet (fun _ => rfl) (fun _ => trivial) (fun _ _ _ hsteps _ => hsteps)

/-- Cached kinds were read. -/
theorem cachedKinds_spec {now : ℚ} :
    Ensures D q (cachedKinds inst now) w (Post
      (fun cached w' => Acts q [.quiet] w w' ∧
        ∀ kinds, cached = some kinds → KindsRead q inst kinds w'.log)
      (fun _ _ => False)) := by
  refine Ensures.act (L := [.quiet]) (fun r => by simp [actKind])
    (fun _ _ _ => trivial) ?_
  rintro w₁ r landed w' - - ⟨-, rfl⟩ - - hsteps hdid
  refine ⟨hsteps, ?_⟩
  intro kinds heq
  obtain ⟨⟨kinds', expiresAt⟩, hfilter, rfl⟩ := Option.map_eq_some_iff.1 heq
  obtain ⟨hr, -⟩ := Option.filter_eq_some_iff.1 hfilter
  rw [hr] at hdid
  exact Or.inl ⟨expiresAt, hdid⟩

/-- Refreshed kinds were read. -/
theorem refreshKinds_spec :
    Ensures D q (refreshKinds inst) w (Post
      (fun kinds w' => Acts q [.quiet] w w' ∧ KindsRead q inst kinds w'.log)
      (fun x w' => Acts q [.quiet] w w' ∧ x ≠ .b402Rejected)) := by
  refine Ensures.bind monotonic_spec ?_ (fun _ _ hfalse => hfalse.elim)
  intro now w₁ hsteps
  refine Ensures.bind cachedKinds_spec ?_ (fun _ _ hfalse => hfalse.elim)
  rintro (_ | kinds) w₂ ⟨hsteps₂, hread⟩
  · refine Ensures.bind b402Post_spec ?_
      (fun _ _ h => ⟨(hsteps.trans hsteps₂).trans h.1, h.2⟩)
    rintro reply w₃ ⟨hsteps₃, hdid⟩
    have hsteps₃ : Acts q [.quiet] w w₃ := (hsteps.trans hsteps₂).trans hsteps₃
    split
    · exact Ensures.throw ⟨hsteps₃, nofun⟩
    · rename_i kinds hkinds
      refine Ensures.bind (P := Post (fun _ w' => Acts q [.quiet] w₃ w')
          (fun _ _ => False))
        (Ensures.quiet (fun _ => rfl) (fun _ => trivial)
          (fun _ _ _ hsteps _ => hsteps)) ?_ (fun _ _ hfalse => hfalse.elim)
      intro _ w₄ hsteps₄
      refine Ensures.pure ⟨hsteps₃.trans hsteps₄, Or.inr ?_⟩
      exact ⟨_, reply, hdid.mono hsteps₄.suffix, hkinds⟩
  · exact Ensures.pure ⟨hsteps.trans hsteps₂, hread kinds rfl⟩

/-- The kinds that are used were read, from the cache or anew. -/
theorem getSupportedKinds_spec :
    Ensures D q (getSupportedKinds inst) w (Post
      (fun kinds w' => Acts q [.quiet] w w' ∧ KindsRead q inst kinds w'.log)
      (fun x w' => Acts q [.quiet] w w' ∧ x ≠ .b402Rejected)) := by
  refine Ensures.bind monotonic_spec ?_ (fun _ _ hfalse => hfalse.elim)
  intro now w₁ hsteps
  refine Ensures.bind cachedKinds_spec ?_ (fun _ _ hfalse => hfalse.elim)
  rintro (_ | kinds) w₂ ⟨hsteps₂, hread⟩
  · have hsteps₂ : Acts q [.quiet] w w₂ := hsteps.trans hsteps₂
    refine Ensures.bind (P := Post (fun _ w' => Acts q [.quiet] w₂ w')
        (fun x w' => Acts q [.quiet] w₂ w' ∧ x ≠ .b402Rejected))
      (Ensures.quiet (fun _ => rfl) (fun _ => trivial) ?_) ?_
      (fun _ _ h => ⟨hsteps₂.trans h.1, h.2⟩)
    · rintro r landed w' hlock -
      rcases r with (_ | _) | _
      · exact ⟨hlock, nofun⟩
      · exact ⟨hlock, nofun⟩
      · exact hlock
    · intro _ w₃ hlock
      refine Ensures.attempt refreshKinds_spec ?_
      intro result w₄ hresult
      refine Ensures.bind (P := Post (fun _ w' => Acts q [.quiet] w₄ w')
          (fun _ _ => False))
        (Ensures.quiet (fun _ => rfl) (fun _ => trivial)
          (fun _ _ _ hsteps _ => hsteps)) ?_ (fun _ _ hfalse => hfalse.elim)
      intro _ w₅ hunlock
      refine Ensures.ofExcept ?_
      rcases result with x | kinds
      · obtain ⟨hsteps₄, hx⟩ := hresult
        exact ⟨((hsteps₂.trans hlock).trans hsteps₄).trans hunlock, hx⟩
      · obtain ⟨hsteps₄, hkinds⟩ := hresult
        exact ⟨((hsteps₂.trans hlock).trans hsteps₄).trans hunlock,
          hkinds.mono hunlock.suffix⟩
  · exact Ensures.pure ⟨hsteps.trans hsteps₂, hread kinds rfl⟩

/-! ## Settlement -/

section settle

variable {c : CreateCall} {p : ProofParts}

/-- The request whose answer settles. -/
theorem b402SettleRequest_spec (hp : p.Of D c.header) :
    Ensures D q (b402SettleRequest c.inst (envelope p.proof p.accepted)) w (Post
      (fun outcome w' => Acts q [.quiet] w w' ∧ FacilitatorSaid D c q outcome w'.log)
      (fun x w' => Acts q [.quiet] w w' ∧ x ≠ .b402Rejected)) := by
  refine Ensures.bind b402Post_spec ?_ (fun _ _ h => h)
  rintro reply w₁ ⟨hsteps, hdid⟩
  split
  · rename_i outcome hverdict
    exact Ensures.pure ⟨hsteps, p, hp, reply, Or.inr (Or.inl ⟨hdid, hverdict⟩)⟩
  · exact Ensures.throw ⟨hsteps, nofun⟩

/-- **The B402 client.**  It rejects on the facilitator's word, and refuses
without asking only when the kinds it read do not offer the extra. -/
theorem b402Settle_spec {verifyFirst : Bool} (hp : p.Of D c.header)
    (hb402 : (D.service c.inst).b402 = true) :
    Ensures D q (b402Settle D c.inst p.proof verifyFirst) w (Post
      (fun outcome w' => Acts q [.quiet] w w' ∧ FacilitatorSaid D c q outcome w'.log)
      (fun x w' => Acts q [.quiet] w w' ∧ Refused D c q x w'.log)) := by
  unfold b402Settle
  simp only [hp.accepted_eq, hp.extra_eq, hp.token_eq, hp.network_eq]
  refine Ensures.bind getSupportedKinds_spec ?_
    (fun _ _ h => ⟨h.1, fun hx => absurd hx h.2⟩)
  rintro kinds w₁ ⟨hsteps, hkinds⟩
  split
  · rename_i hoffer
    refine Ensures.throw ⟨hsteps, fun _ => ⟨p, hp, Or.inl ⟨hb402, kinds, hkinds, ?_⟩⟩⟩
    simpa using hoffer
  · have hsettle : ∀ {w₂}, Acts q [.quiet] w w₂ →
        Ensures D q (b402SettleRequest c.inst (envelope p.proof p.accepted)) w₂
          (Post (fun outcome w' => Acts q [.quiet] w w' ∧
              FacilitatorSaid D c q outcome w'.log)
            (fun x w' => Acts q [.quiet] w w' ∧ Refused D c q x w'.log)) := by
      intro w₂ hsteps₂
      refine (b402SettleRequest_spec hp).mono ?_
      rintro (x | outcome) w₃ ⟨hsteps₃, hwhat⟩
      · exact ⟨Steps.trans hsteps₂ hsteps₃, fun hx => absurd hx hwhat⟩
      · exact ⟨Steps.trans hsteps₂ hsteps₃, hwhat⟩
    split
    · refine Ensures.bind b402Post_spec ?_
        (fun _ _ h => ⟨hsteps.trans h.1, fun hx => absurd hx h.2⟩)
      rintro reply w₂ ⟨hsteps₂, hdid⟩
      have hsteps₂ : Acts q [.quiet] w w₂ := hsteps.trans hsteps₂
      split
      · exact Ensures.throw ⟨hsteps₂, nofun⟩
      · rename_i hverdict
        exact Ensures.pure ⟨hsteps₂, p, hp, reply, Or.inl ⟨hdid, hverdict, rfl⟩⟩
      · exact hsettle hsteps₂
    · exact hsettle hsteps

/-- The generic facilitator has said what its settlement returns. -/
theorem settleGeneric_spec (hp : p.Of D c.header) :
    Ensures D q (settleGeneric c.inst (envelope p.proof p.accepted)) w (Post
      (fun outcome w' => Acts q [.quiet] w w' ∧ FacilitatorSaid D c q outcome w'.log)
      (fun _ w' => Acts q [.quiet] w w')) := by
  refine Ensures.attempt request_spec ?_
  rintro (x | reply) w₁ ⟨hsteps, hwhat⟩
  · rcases hwhat with rfl | rfl
    · exact Ensures.throw hsteps
    · exact Ensures.throw hsteps
  · dsimp only
    split
    · rename_i outcome hverdict
      exact Ensures.pure
        ⟨hsteps, p, hp, reply, Or.inr (Or.inr ⟨hwhat, hverdict⟩)⟩
    · exact Ensures.throw hsteps

/-- **What a settlement returns was told** by the facilitator or refused
locally. -/
theorem settleViaFacilitator_spec {mode : SettlementMode} (hp : p.Of D c.header) :
    Ensures D q (settleViaFacilitator D c.inst c.header mode) w (Post
      (fun outcome w' => Acts q [.quiet] w w' ∧ Told D c q outcome w'.log)
      (fun _ w' => Acts q [.quiet] w w')) := by
  unfold settleViaFacilitator
  simp only [hp.decoded, hp.accepted_eq, hp.extra_eq]
  split
  · rename_i hb402
    refine Ensures.attempt (b402Settle_spec hp hb402) ?_
    rintro (x | outcome) w₁ ⟨hsteps, hwhat⟩
    · cases x
      case b402Rejected =>
        exact Ensures.pure ⟨hsteps, Or.inr ⟨rfl, hwhat rfl⟩⟩
      all_goals exact Ensures.throw hsteps
    · exact Ensures.ofExcept ⟨hsteps, Or.inl hwhat⟩
  · rename_i hb402
    rw [Bool.not_eq_true] at hb402
    split
    · rename_i hmethod
      refine Ensures.pure ⟨Steps.refl w, Or.inr ⟨rfl, p, hp, Or.inr ⟨hb402, Or.inl ?_⟩⟩⟩
      simpa using hmethod
    · split
      · refine (settleGeneric_spec hp).mono ?_
        rintro (x | outcome) w₁ h
        · exact h
        · exact ⟨h.1, Or.inl h.2⟩
      · rename_i hfacilitator
        rw [Bool.not_eq_true] at hfacilitator
        exact Ensures.pure
          ⟨Steps.refl w, Or.inr ⟨rfl, p, hp, Or.inr ⟨hb402, Or.inr hfacilitator⟩⟩⟩

/-- **The settlement call.**  An outcome is the facilitator's word or a local
refusal. -/
theorem settlePayment_spec {mode : SettlementMode} (hp : p.Of D c.header) :
    Ensures D q (settlePayment D c.inst c.header mode) w (Post
      (fun outcome w' => Acts q [.quiet] w w' ∧ Told D c q outcome w'.log)
      (fun _ w' => Acts q [.quiet] w w')) := by
  refine Ensures.attempt (waitFor_spec (settleViaFacilitator_spec hp)
    (fun _ _ _ _ h hsteps => h.trans hsteps)) ?_
  rintro (x | outcome) w₁ h
  · cases x <;> exact Ensures.throw h
  · exact Ensures.pure h

end settle

/-! ## The chain -/

/-- Whether an authorization is used was asked of the chain. -/
theorem authorizationUsed_spec {payment : VerifiedPayment} :
    Ensures D q (authorizationUsed D payment) w (Post
      (fun used w' => Acts q [.quiet] w w' ∧
        Did q (.authorizationState (authKey payment)) (.ok used) false w'.log)
      (fun _ w' => Acts q [.quiet] w w')) := by
  unfold authorizationUsed
  split
  · exact Ensures.throw (Steps.refl w)
  · split
    · exact Ensures.throw (Steps.refl w)
    · refine Ensures.act (L := [.quiet]) (fun r => by simp [actKind])
        (fun _ _ _ => trivial) ?_
      intro w₁ r landed w' _ _ hanswer _ _ hsteps hdid
      obtain rfl : landed = false := hanswer
      cases r with
      | ok used => exact ⟨hsteps, hdid⟩
      | error f => exact hsteps

end X402
