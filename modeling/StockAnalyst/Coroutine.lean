import Mathlib.Logic.Function.Basic
import Mathlib.Data.List.Basic

/-!
# Coroutines over effects

A coroutine suspends at an effect, receives a reply, and continues.  This file
gives the program trees, their exception layer, and the weakest precondition
of a coroutine that runs among others: between two of its effects the world
may evolve in any way the contract's `ext` relation allows.

Nothing here names a particular effect, world or exception.
-/

namespace Coroutine

/-- A program tree: either a result, or an effect `e` together with the
continuation that consumes its reply. -/
inductive Prog (E : Type) (R : E → Type) (α : Type) : Type where
  | ret (a : α)
  | op (e : E) (k : R e → Prog E R α)

namespace Prog

variable {E : Type} {R : E → Type} {W α β γ : Type}

/-- Run the first tree, then the tree its result selects. -/
def bind : Prog E R α → (α → Prog E R β) → Prog E R β
  | .ret a, f => f a
  | .op e k, f => .op e (fun r => (k r).bind f)

/-- A run that is answered in any way: its effects with the replies they
received, and its result. -/
inductive Trace : Prog E R α → List (Σ e, R e) → α → Prop
  | ret (a : α) : Trace (.ret a) [] a
  | op {e : E} {k : R e → Prog E R α} {r : R e} {t : List (Σ e, R e)} {a : α}
      (rest : Trace (k r) t a) : Trace (.op e k) (⟨e, r⟩ :: t) a

/-- A program that returns does nothing. -/
theorem Trace.ret_eq {t : List (Σ e, R e)} {a b : α} (h : Trace (.ret a) t b) :
    t = [] ∧ a = b := by
  cases h with
  | ret => exact ⟨rfl, rfl⟩

/-- The trace of two programs is one trace after the other. -/
theorem Trace.bind {p : Prog E R α} {f : α → Prog E R β} {t t' : List (Σ e, R e)} {a : α} {b : β}
    (hp : Trace p t a) (hf : Trace (f a) t' b) : Trace (p.bind f) (t ++ t') b := by
  induction hp with
  | ret a => exact hf
  | op _ ih => exact .op (ih hf)

/-- A run of a sequence is a run of its first tree and one of its second. -/
theorem Trace.split {p : Prog E R α} {f : α → Prog E R β} {t : List (Σ e, R e)} {b : β}
    (h : Trace (p.bind f) t b) :
    ∃ t₁ t₂ a, t = t₁ ++ t₂ ∧ Trace p t₁ a ∧ Trace (f a) t₂ b := by
  induction p generalizing t with
  | ret a => exact ⟨[], t, a, rfl, .ret a, h⟩
  | op e k ih =>
      cases h with
      | op rest =>
          obtain ⟨t₁, t₂, a, rfl, hp, hf⟩ := ih _ rest
          exact ⟨⟨e, _⟩ :: t₁, t₂, a, rfl, .op hp, hf⟩

/-- Every effect the tree can come to, whatever it is answered, is in `P`. -/
inductive Within (P : E → Prop) : Prog E R α → Prop
  | ret (a : α) : Within P (.ret a)
  | op {e : E} {k : R e → Prog E R α} (effect : P e) (rest : ∀ r, Within P (k r)) :
      Within P (.op e k)

/-- Two programs within `P` one after the other. -/
theorem Within.bind {P : E → Prop} {p : Prog E R α} {f : α → Prog E R β}
    (hp : Within P p) (hf : ∀ a, Within P (f a)) : Within P (p.bind f) := by
  induction hp with
  | ret a => exact hf a
  | op effect _ ih => exact .op effect ih

/-- A run stays within what its tree can come to. -/
theorem Within.trace {P : E → Prop} {p : Prog E R α} {t : List (Σ e, R e)} {a : α}
    (hp : Within P p) (ht : Trace p t a) : ∀ x ∈ t, P x.1 := by
  induction ht with
  | ret a => simp
  | op _ ih =>
      cases hp with
      | op effect rest => exact List.forall_mem_cons.2 ⟨effect, ih (rest _)⟩

/-- **Total correctness of an undisturbed run.**  Before an effect the world
may evolve as `quiet` says, and the effect is answered as `answer` says: the
run never waits for an answer in vain, and its result and the world it ends in
satisfy `Q`. -/
def Assured (quiet : W → W → Prop) (answer : (e : E) → W → R e → W → Prop) :
    Prog E R α → W → (α → W → Prop) → Prop
  | .ret a, w, Q => Q a w
  | .op e k, w, Q =>
      (∃ w₁ r w', quiet w w₁ ∧ answer e w₁ r w') ∧
        ∀ w₁ r w', quiet w w₁ → answer e w₁ r w' → (k r).Assured quiet answer w' Q

section assured

variable {quiet : W → W → Prop} {answer : (e : E) → W → R e → W → Prop}

/-- What assures more assures less. -/
theorem Assured.mono {p : Prog E R α} {w : W} {P Q : α → W → Prop}
    (h : p.Assured quiet answer w P) (hPQ : ∀ a w', P a w' → Q a w') :
    p.Assured quiet answer w Q := by
  induction p generalizing w with
  | ret a => exact hPQ a w h
  | op e k ih =>
      refine ⟨h.1, ?_⟩
      intro w₁ r w' hquiet hanswer
      exact ih r (h.2 w₁ r w' hquiet hanswer)

/-- Two assured programs one after the other. -/
theorem Assured.bind {p : Prog E R α} {f : α → Prog E R β} {w : W} {P : α → W → Prop}
    {Q : β → W → Prop} (hp : p.Assured quiet answer w P)
    (hf : ∀ a w', P a w' → (f a).Assured quiet answer w' Q) :
    (p.bind f).Assured quiet answer w Q := by
  induction p generalizing w with
  | ret a => exact hf a w hp
  | op e k ih =>
      refine ⟨hp.1, ?_⟩
      intro w₁ r w' hquiet hanswer
      exact ih r (hp.2 w₁ r w' hquiet hanswer)

/-- Two assurances of one program. -/
theorem Assured.and {p : Prog E R α} {w : W} {P Q : α → W → Prop}
    (hP : p.Assured quiet answer w P) (hQ : p.Assured quiet answer w Q) :
    p.Assured quiet answer w (fun a w' => P a w' ∧ Q a w') := by
  induction p generalizing w with
  | ret a => exact ⟨hP, hQ⟩
  | op e k ih =>
      refine ⟨hP.1, ?_⟩
      intro w₁ r w' hquiet hanswer
      exact ih r (hP.2 w₁ r w' hquiet hanswer) (hQ.2 w₁ r w' hquiet hanswer)

/-- An assured run that ends has a result. -/
theorem Assured.result {p : Prog E R α} {w : W} {Q : α → W → Prop}
    (h : p.Assured quiet answer w Q) : ∃ a w', Q a w' := by
  induction p generalizing w with
  | ret a => exact ⟨a, w, h⟩
  | op e k ih =>
      obtain ⟨w₁, r, w', hquiet, hanswer⟩ := h.1
      exact ih r (h.2 w₁ r w' hquiet hanswer)

end assured

end Prog

/-- A coroutine that may raise an exception of type `X`. -/
def Async (E : Type) (R : E → Type) (X α : Type) : Type :=
  Prog E R (Except X α)

namespace Async

variable {E : Type} {R : E → Type} {W X α β : Type}

/-- The underlying program tree. -/
def prog (p : Async E R X α) : Prog E R (Except X α) := p

/-- Sequencing stops at the first exception. -/
def bind (p : Async E R X α) (f : α → Async E R X β) : Async E R X β :=
  Prog.bind p fun
    | .ok a => f a
    | .error x => .ret (.error x)

instance : Monad (Async E R X) where
  pure a := Prog.ret (.ok a)
  bind := Async.bind

/-- Raise an exception. -/
def throw (x : X) : Async E R X α := Prog.ret (.error x)

/-- Run a coroutine and hand its outcome, exception included, to the caller.
A `try` block is this followed by a match on the outcome. -/
def attempt (p : Async E R X α) : Async E R X (Except X α) :=
  Prog.bind p (fun r => .ret (.ok r))

/-- Raise or return a computed outcome. -/
def ofExcept : Except X α → Async E R X α
  | .ok a => pure a
  | .error x => throw x

theorem ofExcept_ok_bind (a : α) (f : α → Async E R X β) :
    (ofExcept (.ok a) >>= f) = f a := rfl

theorem ofExcept_error_bind (x : X) (f : α → Async E R X β) :
    (ofExcept (.error x) >>= f) = throw x := rfl

/-- Perform an effect and read its reply as a result or an exception. -/
def await (e : E) (reply : R e → Except X α) : Async E R X α :=
  Prog.op e (fun r => .ret (reply r))

section within

variable {P : E → Prop}

/-- A returned value does nothing. -/
theorem within_pure (a : α) : Prog.Within P (pure a : Async E R X α) := .ret _

/-- A thrown exception does nothing. -/
theorem within_throw (x : X) : Prog.Within P (throw x : Async E R X α) := .ret _

/-- A result does nothing. -/
theorem within_ofExcept (r : Except X α) : Prog.Within P (ofExcept r : Async E R X α) := by
  cases r with
  | error x => exact within_throw x
  | ok a => exact within_pure a

/-- One effect of `P`. -/
theorem within_await {e : E} {reply : R e → Except X α} (h : P e) :
    Prog.Within P (await e reply : Async E R X α) :=
  .op h fun _ => .ret _

/-- Two coroutines within `P` one after the other. -/
theorem within_bind {p : Async E R X α} {f : α → Async E R X β}
    (hp : Prog.Within P p) (hf : ∀ a, Prog.Within P (f a)) :
    Prog.Within P (p >>= f : Async E R X β) := by
  refine Prog.Within.bind hp ?_
  intro r
  cases r with
  | error x => exact .ret _
  | ok a => exact hf a

/-- Catching an exception does nothing. -/
theorem within_attempt {p : Async E R X α} (hp : Prog.Within P p) :
    Prog.Within P (attempt p) :=
  Prog.Within.bind hp fun _ => .ret _

end within

section assured

variable {quiet : W → W → Prop} {answer : (e : E) → W → R e → W → Prop} {w : W}
  {Q : Except X β → W → Prop}

/-- What is assured of a coroutine and of what follows its result. -/
theorem assured_bind {p : Async E R X α} {f : α → Async E R X β} {P : Except X α → W → Prop}
    (hp : p.prog.Assured quiet answer w P)
    (hok : ∀ a w', P (.ok a) w' → (f a).prog.Assured quiet answer w' Q)
    (herror : ∀ x w', P (.error x) w' → Q (.error x) w') :
    (p >>= f : Async E R X β).prog.Assured quiet answer w Q := by
  refine Prog.Assured.bind hp ?_
  intro r w' hr
  cases r with
  | error x => exact herror x w' hr
  | ok a => exact hok a w' hr

/-- Catching what a program is assured of. -/
theorem assured_attempt {p : Async E R X α} {P : Except X α → W → Prop}
    (hp : p.prog.Assured quiet answer w P) :
    (attempt p).prog.Assured quiet answer w
      (fun r w' => ∃ r', r = .ok r' ∧ P r' w') :=
  Prog.Assured.bind hp fun r _ hr => ⟨r, rfl, hr⟩

/-- What is assured of an effect: it is answered, and every answer will do. -/
theorem assured_await {e : E} {reply : R e → Except X α} {P : Except X α → W → Prop}
    (hsome : ∃ w₁ r w', quiet w w₁ ∧ answer e w₁ r w')
    (hall : ∀ w₁ r w', quiet w w₁ → answer e w₁ r w' → P (reply r) w') :
    (await e reply : Async E R X α).prog.Assured quiet answer w P :=
  ⟨hsome, hall⟩

end assured

section runs

variable {p : Async E R X α} {f : α → Async E R X β} {t t' : List (Σ e, R e)}
  {out : Except X β}

/-- The run of one effect. -/
theorem await_run {e : E} {reply : R e → Except X α} (r : R e) :
    Prog.Trace (await e reply : Async E R X α) [⟨e, r⟩] (reply r) := .op (.ret _)

/-- The run of two coroutines one after the other. -/
theorem bind_run {a : α} (hp : Prog.Trace p t (.ok a)) (hf : Prog.Trace (f a) t' out) :
    Prog.Trace (p >>= f : Async E R X β) (t ++ t') out :=
  Prog.Trace.bind hp hf

/-- The run of a coroutine that ends with its first part. -/
theorem bind_run_error {x : X} (hp : Prog.Trace p t (.error x)) :
    Prog.Trace (p >>= f : Async E R X β) t (.error x) := by
  have h : Prog.Trace (p >>= f : Async E R X β) (t ++ []) (.error x) :=
    Prog.Trace.bind hp (.ret (Except.error x))
  rwa [List.append_nil] at h

/-- The run of a coroutine that is caught, and of what follows. -/
theorem attempt_run {r : Except X α} {g : Except X α → Async E R X β} (hp : Prog.Trace p t r)
    (hg : Prog.Trace (g r) t' out) : Prog.Trace (attempt p >>= g : Async E R X β) (t ++ t') out := by
  refine bind_run (a := r) ?_ hg
  have h : Prog.Trace (attempt p) (t ++ []) (.ok r) :=
    Prog.Trace.bind hp (.ret (Except.ok r))
  rwa [List.append_nil] at h

end runs

/-- A run of a sequence is a run of its first part, which raises or is followed
by a run of the second. -/
theorem trace_bind {p : Async E R X α} {f : α → Async E R X β} {t : List (Σ e, R e)}
    {out : Except X β} (h : Prog.Trace (p >>= f : Async E R X β) t out) :
    ∃ t₁ t₂ r, t = t₁ ++ t₂ ∧ Prog.Trace p t₁ r ∧
      ((∃ x, r = .error x ∧ t₂ = [] ∧ out = .error x) ∨
        ∃ a, r = .ok a ∧ Prog.Trace (f a) t₂ out) := by
  obtain ⟨t₁, t₂, r, ht, hp, hrest⟩ := Prog.Trace.split h
  refine ⟨t₁, t₂, r, ht, hp, ?_⟩
  cases r with
  | error x =>
      cases hrest
      exact Or.inl ⟨x, rfl, rfl, rfl⟩
  | ok a => exact Or.inr ⟨a, rfl, hrest⟩

/-- A run whose outcome is handed on is a run. -/
theorem trace_attempt {p : Async E R X α} {f : Except X α → Async E R X β}
    {t : List (Σ e, R e)} {out : Except X β}
    (h : Prog.Trace (attempt p >>= f : Async E R X β) t out) :
    ∃ t₁ t₂ r, t = t₁ ++ t₂ ∧ Prog.Trace p t₁ r ∧ Prog.Trace (f r) t₂ out := by
  obtain ⟨t₁, t₂, r, rfl, hattempt, hrest⟩ := Prog.Trace.split h
  obtain ⟨t₃, t₄, r', rfl, hp, hret⟩ := Prog.Trace.split hattempt
  cases hret
  exact ⟨t₃, t₂, r', by rw [List.append_nil], hp, hrest⟩

/-- A run past an effect: the reply raises, or the rest of the run follows. -/
theorem trace_await {e : E} {reply : R e → Except X α} {f : α → Async E R X β}
    {t : List (Σ e, R e)} {out : Except X β}
    (h : Prog.Trace (await e reply >>= f : Async E R X β) t out) :
    ∃ r t', t = ⟨e, r⟩ :: t' ∧
      ((∃ x, reply r = .error x ∧ t' = [] ∧ out = .error x) ∨
        ∃ a, reply r = .ok a ∧ Prog.Trace (f a) t' out) := by
  cases h with
  | @op _ _ r t' _ rest =>
      refine ⟨r, t', rfl, ?_⟩
      cases hreply : reply r with
      | error x =>
          simp only [Prog.bind, hreply] at rest
          cases rest
          exact Or.inl ⟨x, rfl, rfl, rfl⟩
      | ok a =>
          simp only [Prog.bind, hreply] at rest
          exact Or.inr ⟨a, rfl, rest⟩

/-- A run past a computed outcome. -/
theorem trace_ofExcept {r : Except X α} {f : α → Async E R X β} {t : List (Σ e, R e)}
    {out : Except X β} (h : Prog.Trace (ofExcept r >>= f : Async E R X β) t out) :
    (∃ x, r = .error x ∧ t = [] ∧ out = .error x) ∨
      ∃ a, r = .ok a ∧ Prog.Trace (f a) t out := by
  cases r with
  | error x =>
      rw [ofExcept_error_bind] at h
      cases h
      exact Or.inl ⟨x, rfl, rfl, rfl⟩
  | ok a =>
      rw [ofExcept_ok_bind] at h
      exact Or.inr ⟨a, rfl, h⟩

end Async

end Coroutine
