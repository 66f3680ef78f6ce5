import StockAnalyst.Coroutine

/-!
# Watched runs

A monitor follows the effects of a coroutine and their replies.  Its states
say what has been seen so far, and which replies the outside world may still
give.
-/

namespace Coroutine

/-- What is seen of a run, and what may be replied to an effect. -/
structure Monitor (E : Type) (R : E → Type) where
  Seen : Type
  admits : Seen → (e : E) → R e → Prop
  next : Seen → (e : E) → R e → Seen

namespace Monitor

variable {E : Type} {R : E → Type} (M : Monitor E R)

/-- What is seen once a run is over. -/
def after (s : M.Seen) (events : List (Σ e, R e)) : M.Seen :=
  events.foldl (fun s event => M.next s event.1 event.2) s

/-- Every reply of the run is one that may be given. -/
def Admits (s : M.Seen) : List (Σ e, R e) → Prop
  | [] => True
  | ⟨e, r⟩ :: events => M.admits s e r ∧ Admits (M.next s e r) events

/-- Whatever is replied, the result of the tree and what is seen by then are
in `Q`. -/
def Ensures {α : Type} : Prog E R α → M.Seen → (α → M.Seen → Prop) → Prop
  | .ret a, s, Q => Q a s
  | .op e k, s, Q => ∀ r, M.admits s e r → Ensures (k r) (M.next s e r) Q

variable {M} {α β : Type} {s : M.Seen}

/-- **What is ensured holds of every trace** that the monitor admits. -/
theorem Ensures.trace {p : Prog E R α} {Q : α → M.Seen → Prop} {events : List (Σ e, R e)} {a : α}
    (h : M.Ensures p s Q) (hrun : p.Trace events a) (hadmits : M.Admits s events) :
    Q a (M.after s events) := by
  induction hrun generalizing s with
  | ret a => exact h
  | op _ ih => exact ih (h _ hadmits.1) hadmits.2

/-- What ensures more ensures less. -/
theorem Ensures.mono {p : Prog E R α} {Q Q' : α → M.Seen → Prop} (h : M.Ensures p s Q)
    (hQ : ∀ a s', Q a s' → Q' a s') : M.Ensures p s Q' := by
  induction p generalizing s with
  | ret a => exact hQ a s h
  | op e k ih => exact fun r hr => ih r (h r hr)

/-- Two programs one after the other. -/
theorem ensures_bind {p : Prog E R α} {f : α → Prog E R β} {Q : β → M.Seen → Prop} :
    M.Ensures (p.bind f) s Q ↔ M.Ensures p s fun a s' => M.Ensures (f a) s' Q := by
  induction p generalizing s with
  | ret a => exact Iff.rfl
  | op e k ih => exact forall_congr' fun r => imp_congr_right fun _ => ih r

end Monitor

section async

variable {E : Type} {R : E → Type} {X α β : Type} (M : Monitor E R)

/-- What a coroutine ensures, the exceptions it raises included. -/
def Monitor.Guarantees (p : Async E R X α) (s : M.Seen) (Q : Except X α → M.Seen → Prop) : Prop :=
  M.Ensures p.prog s Q

variable {M} {s : M.Seen} {p : Async E R X α} {Q : Except X α → M.Seen → Prop}

/-- What guarantees more guarantees less. -/
theorem Monitor.Guarantees.mono {Q' : Except X α → M.Seen → Prop} (h : M.Guarantees p s Q)
    (hQ : ∀ r s', Q r s' → Q' r s') : M.Guarantees p s Q' :=
  Monitor.Ensures.mono h hQ

/-- Two coroutines one after the other. -/
theorem Monitor.Guarantees.bind {f : α → Async E R X β} {Q' : Except X β → M.Seen → Prop}
    (h : M.Guarantees p s Q) (hok : ∀ a s', Q (.ok a) s' → M.Guarantees (f a) s' Q')
    (herror : ∀ x s', Q (.error x) s' → Q' (.error x) s') : M.Guarantees (p >>= f) s Q' := by
  apply Monitor.ensures_bind.2
  apply Monitor.Ensures.mono h
  intro r s' hr
  cases r with
  | ok a => exact hok a s' hr
  | error x => exact herror x s' hr

/-- A coroutine that is caught, and what follows. -/
theorem Monitor.Guarantees.attempt {f : Except X α → Async E R X β} {Q' : Except X β → M.Seen → Prop}
    (h : M.Guarantees p s Q) (hf : ∀ r s', Q r s' → M.Guarantees (f r) s' Q') :
    M.Guarantees (Async.attempt p >>= f) s Q' := by
  apply Monitor.ensures_bind.2
  apply Monitor.ensures_bind.2
  exact Monitor.Ensures.mono h hf

end async

end Coroutine
