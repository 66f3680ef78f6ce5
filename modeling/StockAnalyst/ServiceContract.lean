import StockAnalyst.ServiceDuties

/-!
# The contract between the coroutines

Between two effects of a process the others only add events of their own to
the history.  What a process did, and what versions an object had, therefore
stays true; what a process has not done stays true until it does it.  The
contract makes this precise, and `Ensures` is the weakest precondition of a
coroutine under it.
-/

namespace X402

open Python ConditionalStore Coroutine

/-! ## How the history grows -/

/-- The history grew, and what process `q` added is of the kind `K`. -/
def Steps (q : Nat) (K : (e : Eff) → Resp e → Prop) (w w' : World) : Prop :=
  w.time ≤ w'.time ∧ ∃ new, w'.log = new ++ w.log ∧
    ∀ x ∈ new, ∀ e r landed, x.event = .did q e r landed → K e r

/-- Effects of the given classes. -/
def Only (L : List ActKind) (e : Eff) (r : Resp e) : Prop := actKind e r ∈ L

/-- Nothing by the process itself. -/
def Nothing (e : Eff) (_ : Resp e) : Prop := (fun _ => False) e

section steps

variable {q : Nat} {K K' : (e : Eff) → Resp e → Prop} {w w' w'' : World}
  {L L' : List ActKind}

/-- No step is a run of steps. -/
theorem Steps.refl (w : World) : Steps q K w w :=
  ⟨le_refl _, [], rfl, by simp⟩

/-- Steps one after the other. -/
theorem Steps.trans (h : Steps q K w w') (h' : Steps q K w' w'') :
    Steps q K w w'' := by
  obtain ⟨htime, new, hlog, hnew⟩ := h
  obtain ⟨htime', new', hlog', hnew'⟩ := h'
  refine ⟨le_trans htime htime', new' ++ new, ?_, ?_⟩
  · rw [hlog', hlog, List.append_assoc]
  · intro x hx
    rcases List.mem_append.1 hx with hx | hx
    · exact hnew' x hx
    · exact hnew x hx

/-- Steps of a kind are steps of a wider one. -/
theorem Steps.mono (h : Steps q K w w') (hK : ∀ e r, K e r → K' e r) :
    Steps q K' w w' := by
  obtain ⟨htime, new, hlog, hnew⟩ := h
  exact ⟨htime, new, hlog, fun x hx e r landed hev => hK e r (hnew x hx e r landed hev)⟩

/-- Steps of the others are steps of any kind. -/
theorem Steps.of_nothing (h : Steps q Nothing w w') : Steps q K w w' :=
  h.mono (fun _ _ hfalse => hfalse.elim)

/-- Acts of few kinds are acts of more. -/
theorem Steps.widen (h : Steps q (Only L) w w') (hL : L ⊆ L') :
    Steps q (Only L') w w' :=
  h.mono (fun _ _ hmem => hL hmem)

/-- Steps only add to the history. -/
theorem Steps.suffix (h : Steps q K w w') : w.log <:+ w'.log := by
  obtain ⟨-, new, hlog, -⟩ := h
  exact ⟨new, hlog.symm⟩

/-- One effect of the process itself. -/
theorem Steps.record {e : Eff} {r : Resp e} {landed : Bool} (hK : K e r) :
    Steps q K w (w.record (.did q e r landed)) := by
  refine ⟨le_refl _, [⟨w.time, .did q e r landed⟩], rfl, ?_⟩
  intro x hx e' r' landed' hev
  obtain rfl := List.mem_singleton.1 hx
  cases hev
  exact hK

/-- An event that is not an effect of `q`. -/
theorem Steps.other {event : Event}
    (h : ∀ e r landed, event ≠ .did q e r landed) :
    Steps q K w (w.record event) := by
  refine ⟨le_refl _, [⟨w.time, event⟩], rfl, ?_⟩
  intro x hx e r landed hev
  obtain rfl := List.mem_singleton.1 hx
  exact absurd hev (h e r landed)

end steps

/-! ## What stays true -/

section stable

variable {q : Nat} {e : Eff} {r : Resp e} {landed : Bool} {log log' : List Entry}
  {w w' : World} {k : ActKind} {L : List ActKind}

/-- What was done was done for good. -/
theorem Did.mono (h : Did q e r landed log) (hsuf : log <:+ log') :
    Did q e r landed log' := by
  obtain ⟨t, ht⟩ := h
  exact ⟨t, hsuf.mem ht⟩

/-- What was just recorded was done. -/
theorem Did.record (q : Nat) (e : Eff) (r : Resp e) (landed : Bool) (w : World) :
    Did q e r landed (w.record (.did q e r landed)).log :=
  ⟨w.time, List.mem_cons_self⟩

/-- A process still has not done what it did not do in the meantime. -/
theorem Absent.steps (h : Absent q k w.log) (hstep : Steps q (Only L) w w')
    (hk : k ∉ L) : Absent q k w'.log := by
  obtain ⟨-, new, hlog, hnew⟩ := hstep
  intro x hx e r landed hev
  rw [hlog] at hx
  rcases List.mem_append.1 hx with hx | hx
  · rintro rfl
    exact hk (hnew x hx e r landed hev)
  · exact h x hx e r landed hev

/-- A call has not settled while it only reads and takes leases. -/
theorem Unspent.steps (h : Unspent q w.log) (hstep : Steps q (Only L) w w')
    (hL : L ⊆ [.quiet, .missed, .found, .lease, .ackLease]) : Unspent q w'.log :=
  ⟨h.settle.steps hstep fun hk => by simpa using hL hk,
    h.put.steps hstep fun hk => by simpa using hL hk,
    h.ackPut.steps hstep fun hk => by simpa using hL hk⟩

/-- An idle process has done nothing of any kind. -/
theorem Idle.absent (h : Idle q log) : Absent q k log :=
  fun x hx e r landed hev => absurd hev (h x hx e r landed)

/-- A call that was begun was begun for good. -/
theorem CreateCall.Of.mono {D : Deployment} {c : CreateCall}
    (h : c.Of D q log) (hsuf : log <:+ log') : c.Of D q log' :=
  ⟨h.called.mono hsuf, h.verified, h.digest_eq, h.identity_eq⟩

/-- A bound job stays bound. -/
theorem BoundJob.mono {D : Deployment} {c : CreateCall} (h : BoundJob D c log)
    (hsuf : log <:+ log') : BoundJob D c log' := by
  obtain ⟨tag, hver, hbound⟩ := h
  exact ⟨tag, hver.mono hsuf, hbound⟩

/-- A lease that was taken was taken for good. -/
theorem Leased.mono {job : PyStr} {tag : Tag JobRecord} (h : Leased q job tag log)
    (hsuf : log <:+ log') : Leased q job tag log' := by
  obtain ⟨put, hjob, hlease, hdid, hcontent⟩ := h
  exact ⟨put, hjob, hlease, hdid.mono hsuf, hcontent⟩

/-- What belongs to the process goes on belonging to it. -/
theorem Ours.mono {D : Deployment} {job : PyStr} {tag : Tag JobRecord}
    (h : Ours D q job tag log) (hsuf : log <:+ log') : Ours D q job tag log' := by
  obtain ⟨c, hof, hrest⟩ := h
  exact ⟨c, hof.mono hsuf, hrest⟩

/-- A token that was drawn was drawn for good. -/
theorem Drew.mono {owner : PyStr} (h : Drew q owner log) (hsuf : log <:+ log') :
    Drew q owner log' := by
  obtain ⟨token, htoken, hdid⟩ := h
  exact ⟨token, htoken, hdid.mono hsuf⟩

/-- An outsider stays one while it takes no lease and draws no token. -/
theorem Outsider.steps (h : Outsider q w.log) (hstep : Steps q (Only L) w w')
    (hlease : .ackLease ∉ L) (hmoment : .moment ∉ L) : Outsider q w'.log :=
  ⟨h.1.steps hstep hlease, h.2.steps hstep hmoment⟩

/-- An idle process is an outsider. -/
theorem Idle.outsider (h : Idle q log) : Outsider q log :=
  ⟨h.absent, h.absent⟩

/-- Kinds that were read were read for good. -/
theorem KindsRead.mono {inst : Nat} {kinds : List Kind}
    (h : KindsRead q inst kinds log) (hsuf : log <:+ log') :
    KindsRead q inst kinds log' := by
  rcases h with ⟨expiresAt, hdid⟩ | ⟨payload, reply, hdid, hkinds⟩
  · exact Or.inl ⟨expiresAt, hdid.mono hsuf⟩
  · exact Or.inr ⟨payload, reply, hdid.mono hsuf, hkinds⟩

end stable

/-! ## The contract -/

variable (D : Deployment)

/-- A lawful history that does not reach past the true time. -/
def Inv (w : World) : Prop := Lawful D w.log ∧ ∀ x ∈ w.log, x.time ≤ w.time

variable {D}

/-- A possible event keeps the history lawful. -/
theorem Inv.record {w : World} {event : Event} (h : Inv D w)
    (hevent : match event with
      | .did q e r landed => Duty D q w.log e ∧ Answer e w r landed
      | .landedLate q e => ∃ t r, (⟨t, .did q e r false⟩ : Entry) ∈ w.log ∧
          CanLandLate e r w
      | .chainUsed key _ => chainAt key w.log = none) :
    Inv D (w.record event) := by
  obtain ⟨hlawful, htime⟩ := h
  refine ⟨⟨hlawful, htime, ?_⟩, ?_⟩
  · exact hevent
  · intro x hx
    rcases List.mem_cons.1 hx with rfl | hx
    · exact le_refl _
    · exact htime x hx

/-- **The invariant survives an act** whose duty was met. -/
theorem Inv.react {w w' : World} {q : Nat} {e : Eff} {r : Resp e} (h : Inv D w)
    (hduty : Duty D q w.log e) (hreact : React q e w r w') : Inv D w' := by
  obtain ⟨landed, hanswer, rfl⟩ := hreact
  exact h.record ⟨hduty, hanswer⟩

/-- The invariant survives the others. -/
theorem Inv.env {w w' : World} (h : Inv D w) (henv : Env w w') : Inv D w' := by
  cases henv with
  | tick htime =>
      exact ⟨h.1, fun x hx => le_trans (h.2 x hx) htime⟩
  | @land t pid e r hdid hcan => exact h.record ⟨t, r, hdid, hcan⟩
  | chain hfree => exact h.record hfree

variable (D)

/-- The contract of the service. -/
def contract : Contract (service D) where
  inv := Inv D
  ext := fun q => Steps q Nothing
  pre := fun q w e => Duty D q w.log e
  fresh := fun q w => Idle q w.log
  ready := fun _ _ => True
  ext_refl := fun _ w => Steps.refl w
  ext_trans := fun h h' => Steps.trans h h'
  inv_react := fun h hduty hreact => h.react hduty hreact
  inv_env := fun h henv => h.env henv
  ext_react := by
    intro pid q e w r w' hq hreact
    obtain ⟨landed, -, rfl⟩ := hreact
    refine Steps.other ?_
    intro e' r' landed' heq
    injection heq with hpid
    exact hq hpid.symm
  ext_env := by
    rintro q w w' henv
    cases henv with
    | tick htime => exact ⟨htime, [], rfl, by simp⟩
    | land hdid hcan => exact Steps.other (by simp)
    | chain hfree => exact Steps.other (by simp)
  fresh_ext := by
    rintro q w w' ⟨-, new, hlog, hnew⟩ hidle x hx e r landed hev
    rw [hlog] at hx
    rcases List.mem_append.1 hx with hx | hx
    · exact hnew x hx e r landed hev
    · exact hidle x hx e r landed hev
  ready_ext := fun _ h => h
  ready_external := fun _ _ => trivial
  ready_fork := fun _ _ _ _ => trivial

/-! ## Specifications of coroutines -/

/-- Process `q`, running `p` from `w` among the others, meets its duties and
ends in `Q`. -/
def Ensures (q : Nat) {α : Type} (p : Co α) (w : World)
    (Q : Except Exn α → World → Prop) : Prop :=
  awp (M := service D) (contract D) q p Q w

variable {D} {q : Nat} {α β : Type} {w : World}

/-- What ensures more ensures less. -/
theorem Ensures.mono {p : Co α} {Q Q' : Except Exn α → World → Prop}
    (h : Ensures D q p w Q) (hQ : ∀ r w', Q r w' → Q' r w') :
    Ensures D q p w Q' :=
  awp_mono (M := service D) h hQ

/-- The history stays lawful. -/
theorem Ensures.keep {p : Co α} {Q : Except Exn α → World → Prop}
    (h : Ensures D q p w Q) (hinv : Inv D w) :
    Ensures D q p w (fun r w' => Q r w' ∧ Inv D w') :=
  awp_inv (M := service D) h hinv

/-- What a process knows stays known while it runs. -/
theorem Ensures.log_mono {p : Co α} {Q : Except Exn α → World → Prop}
    (h : Ensures D q p w Q) :
    Ensures D q p w (fun r w' => Q r w' ∧ w.log <:+ w'.log) := by
  refine wp_track (M := service D) (R := fun w w' : World => w.log <:+ w'.log)
    (fun w => List.suffix_refl _) List.IsSuffix.trans (fun hext => ?_)
    (fun hreact => ?_) h
  · exact Steps.suffix (K := Nothing) hext
  · obtain ⟨landed, -, rfl⟩ := hreact
    exact List.suffix_cons _ _

/-- A value that is returned. -/
theorem Ensures.pure {a : α} {Q : Except Exn α → World → Prop}
    (h : Q (.ok a) w) : Ensures D q (pure a) w Q := h

/-- An exception that is thrown. -/
theorem Ensures.throw {x : Exn} {Q : Except Exn α → World → Prop}
    (h : Q (.error x) w) : Ensures D q (Async.throw x) w Q := h

/-- A result that is returned or thrown. -/
theorem Ensures.ofExcept {r : Except Exn α} {Q : Except Exn α → World → Prop}
    (h : Q r w) : Ensures D q (Async.ofExcept r) w Q := by
  cases r <;> exact h

/-- Sequencing with a specification of the first part. -/
theorem Ensures.bind {p : Co α} {f : α → Co β}
    {P : Except Exn α → World → Prop} {Q : Except Exn β → World → Prop}
    (hp : Ensures D q p w P)
    (hok : ∀ a w', P (.ok a) w' → Ensures D q (f a) w' Q)
    (herror : ∀ x w', P (.error x) w' → Q (.error x) w') :
    Ensures D q (p >>= f) w Q := by
  refine (awp_bind (M := service D)).2 (awp_mono (M := service D) hp ?_)
  rintro (x | a) w' h
  · exact herror x w' h
  · exact hok a w' h

/-- Sequencing in a lawful history. -/
theorem Ensures.bind_inv {p : Co α} {f : α → Co β}
    {P : Except Exn α → World → Prop} {Q : Except Exn β → World → Prop}
    (hinv : Inv D w) (hp : Ensures D q p w P)
    (hok : ∀ a w', P (.ok a) w' → Inv D w' → Ensures D q (f a) w' Q)
    (herror : ∀ x w', P (.error x) w' → Inv D w' → Q (.error x) w') :
    Ensures D q (p >>= f) w Q :=
  Ensures.bind (hp.keep hinv) (fun a w' h => hok a w' h.1 h.2)
    (fun x w' h => herror x w' h.1 h.2)

/-- A `try` block: the continuation judges the outcome. -/
theorem Ensures.attempt {p : Co α} {f : Except Exn α → Co β}
    {P : Except Exn α → World → Prop} {Q : Except Exn β → World → Prop}
    (hp : Ensures D q p w P)
    (hf : ∀ r w', P r w' → Ensures D q (f r) w' Q) :
    Ensures D q (Async.attempt p >>= f) w Q := by
  refine (awp_bind (M := service D)).2 ?_
  refine (awp_attempt (M := service D)).2 (awp_mono (M := service D) hp ?_)
  exact hf

/-- A program whose exception is caught, with the invariant in between. -/
theorem Ensures.attempt_inv {p : Co α} {f : Except Exn α → Co β}
    {P : Except Exn α → World → Prop} {Q : Except Exn β → World → Prop}
    (hinv : Inv D w) (hp : Ensures D q p w P)
    (hf : ∀ r w', P r w' → Inv D w' → Ensures D q (f r) w' Q) :
    Ensures D q (Async.attempt p >>= f) w Q :=
  Ensures.attempt (hp.keep hinv) (fun r w' h => hf r w' h.1 h.2)

/-- One effect: its duty must hold whatever the others did before it. -/
theorem Ensures.await {e : Eff} {reply : Resp e → Except Exn α}
    {Q : Except Exn α → World → Prop}
    (h : ∀ w₁, Steps q Nothing w w₁ → Inv D w₁ → Duty D q w₁.log e ∧
      ∀ r landed, Answer e w₁ r landed →
        Inv D (w₁.record (.did q e r landed)) →
        Q (reply r) (w₁.record (.did q e r landed))) :
    Ensures D q (Async.await e reply) w Q := by
  intro w₁ hext hinv
  obtain ⟨hduty, hanswer⟩ := h w₁ hext hinv
  refine ⟨hduty, ?_⟩
  rintro r w₂ ⟨landed, hans, rfl⟩ hinv₂
  exact hanswer r landed hans hinv₂

end X402
