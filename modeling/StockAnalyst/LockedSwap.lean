import Mathlib.Logic.Function.Basic

/-!
# A shared value that is swapped under a lock

Any number of threads run the same code around one shared variable: take the
lock, put a value of one's own in the variable if one has one, work while the
variable is read any number of times, put back what was there, and release the
lock.  In every interleaving a thread reads its own value, or the first one if
it has none, and without a holder of the lock the variable is what it was.
-/

namespace LockedSwap

variable {Value : Type}

/-- Where a thread is in the code. -/
inductive Place (Value : Type) where
  | waiting
  | holding
  | saved (old : Value)
  | swapped (old : Value)
  | plain
  | leaving
  | left

/-- Between taking the lock and releasing it. -/
def Place.Inside : Place Value → Prop
  | .waiting => False
  | .left => False
  | _ => True

structure Thread (Value : Type) where
  own : Option Value
  place : Place Value

/-- The variable, the holder of the lock, the threads by number, and what has
been read from the variable while a thread works. -/
structure State (Value : Type) where
  value : Value
  lock : Option Nat
  threads : Nat → Option (Thread Value)
  next : Nat
  uses : List (Nat × Value)

def State.start (value : Value) : State Value := ⟨value, none, fun _ => none, 0, []⟩

/-- A thread moves on, and the variable and the lock are as given after it. -/
def State.move (s : State Value) (t : Nat) (own : Option Value) (place : Place Value)
    (value : Value) (lock : Option Nat) : State Value :=
  { s with
    value := value
    lock := lock
    threads := Function.update s.threads t (some ⟨own, place⟩) }

/-- One step of one thread, or the start of a new one. -/
inductive Step : State Value → State Value → Prop
  | spawn (s : State Value) (own : Option Value) :
      Step s { s.move s.next own .waiting s.value s.lock with next := s.next + 1 }
  | acquire {s : State Value} {t : Nat} {own : Option Value}
      (h : s.threads t = some ⟨own, .waiting⟩) (hlock : s.lock = none) :
      Step s (s.move t own .holding s.value (some t))
  | save {s : State Value} {t : Nat} {v : Value}
      (h : s.threads t = some ⟨some v, .holding⟩) :
      Step s (s.move t (some v) (.saved s.value) s.value s.lock)
  | install {s : State Value} {t : Nat} {v old : Value}
      (h : s.threads t = some ⟨some v, .saved old⟩) :
      Step s (s.move t (some v) (.swapped old) v s.lock)
  | skip {s : State Value} {t : Nat} (h : s.threads t = some ⟨none, .holding⟩) :
      Step s (s.move t none .plain s.value s.lock)
  | useOwn {s : State Value} {t : Nat} {own : Option Value} {old : Value}
      (h : s.threads t = some ⟨own, .swapped old⟩) :
      Step s { s with uses := s.uses ++ [(t, s.value)] }
  | useShared {s : State Value} {t : Nat} {own : Option Value}
      (h : s.threads t = some ⟨own, .plain⟩) :
      Step s { s with uses := s.uses ++ [(t, s.value)] }
  | restore {s : State Value} {t : Nat} {own : Option Value} {old : Value}
      (h : s.threads t = some ⟨own, .swapped old⟩) :
      Step s (s.move t own .leaving old s.lock)
  | finish {s : State Value} {t : Nat} {own : Option Value}
      (h : s.threads t = some ⟨own, .plain⟩) :
      Step s (s.move t own .leaving s.value s.lock)
  | release {s : State Value} {t : Nat} {own : Option Value}
      (h : s.threads t = some ⟨own, .leaving⟩) :
      Step s (s.move t own .left s.value none)

inductive Reach (value : Value) : State Value → Prop
  | start : Reach value (State.start value)
  | step {s s' : State Value} (h : Reach value s) (hstep : Step s s') : Reach value s'

/-- What a place says of the shared variable and of what was saved. -/
def Place.Holds (first : Value) (own : Option Value) (value : Value) : Place Value → Prop
  | .saved old => old = first ∧ value = first ∧ own.isSome
  | .swapped old => old = first ∧ some value = own
  | .plain => value = first ∧ own = none
  | _ => value = first

/-- What holds in every interleaving. -/
structure Inv (first : Value) (s : State Value) : Prop where
  holder : ∀ t thread, s.threads t = some thread → (thread.place.Inside ↔ s.lock = some t)
  known : ∀ t, s.lock = some t → (s.threads t).isSome
  holds : ∀ t thread, s.threads t = some thread → s.lock = some t →
    thread.place.Holds first thread.own s.value
  quiet : s.lock = none → s.value = first
  uses : ∀ t v, (t, v) ∈ s.uses → ∃ thread, s.threads t = some thread ∧ v = thread.own.getD first
  fresh : ∀ t, s.next ≤ t → s.threads t = none

theorem inv_start (first : Value) : Inv first (State.start first) where
  holder := nofun
  known := nofun
  holds := nofun
  quiet := fun _ => rfl
  uses := nofun
  fresh := fun _ _ => rfl

variable {first : Value} {s s' : State Value}

/-- A move puts a thread in its new place. -/
@[simp] theorem move_threads_self {t : Nat} {own : Option Value} {place : Place Value}
    {value : Value} {lock : Option Nat} :
    (s.move t own place value lock).threads t = some ⟨own, place⟩ :=
  Function.update_self ..

/-- A move leaves the other threads where they are. -/
theorem move_threads_of_ne {t u : Nat} (hne : u ≠ t) {own : Option Value} {place : Place Value}
    {value : Value} {lock : Option Nat} :
    (s.move t own place value lock).threads u = s.threads u :=
  Function.update_of_ne hne ..

/-- Only the holder of the lock is between taking and releasing it. -/
theorem Inv.lock_of_inside (h : Inv first s) {t : Nat} {own : Option Value}
    {place : Place Value} (ht : s.threads t = some ⟨own, place⟩) (hinside : place.Inside) :
    s.lock = some t :=
  (h.holder t _ ht).1 hinside

/-- The holder of the lock, or a thread that takes a free one, moves on. -/
theorem Inv.moved (h : Inv first s) {t : Nat} {own : Option Value} {place : Place Value}
    (ht : s.threads t = some ⟨own, place⟩) {place' : Place Value} {value : Value}
    {lock : Option Nat} (hbefore : ∀ u, u ≠ t → s.lock ≠ some u)
    (hafter : ∀ u, u ≠ t → lock ≠ some u) (hinside : place'.Inside ↔ lock = some t)
    (hholds : lock = some t → place'.Holds first own value)
    (hquiet : lock = none → value = first) :
    Inv first (s.move t own place' value lock) where
  holder := by
    intro u thread hu
    obtain rfl | hne := eq_or_ne u t
    · rw [move_threads_self] at hu
      cases hu
      exact hinside
    · rw [move_threads_of_ne hne] at hu
      have hout := not_congr (h.holder u thread hu)
      exact iff_of_false (hout.2 (hbefore u hne)) (hafter u hne)
  known := by
    intro u hu
    obtain rfl | hne := eq_or_ne u t
    · rw [move_threads_self]
      rfl
    · exact absurd hu (hafter u hne)
  holds := by
    intro u thread hu hlock
    obtain rfl | hne := eq_or_ne u t
    · rw [move_threads_self] at hu
      cases hu
      exact hholds hlock
    · exact absurd hlock (hafter u hne)
  quiet := hquiet
  uses := by
    intro u v huse
    obtain ⟨thread, hthread, hv⟩ := h.uses u v huse
    obtain rfl | hne := eq_or_ne u t
    · rw [ht] at hthread
      cases hthread
      exact ⟨⟨own, place'⟩, move_threads_self, hv⟩
    · exact ⟨thread, by rw [move_threads_of_ne hne, hthread], hv⟩
  fresh := by
    intro u hu
    have hne : u ≠ t := by
      rintro rfl
      rw [h.fresh u hu] at ht
      cases ht
    rw [move_threads_of_ne hne]
    exact h.fresh u hu

/-- A step between taking the lock and releasing it. -/
theorem Inv.movedInside (h : Inv first s) {t : Nat} {own : Option Value} {place : Place Value}
    (ht : s.threads t = some ⟨own, place⟩) (hinside : place.Inside) {place' : Place Value}
    {value : Value} (hinside' : place'.Inside) (hholds : place'.Holds first own value) :
    Inv first (s.move t own place' value s.lock) := by
  have hlock := h.lock_of_inside ht hinside
  have hother : ∀ u, u ≠ t → s.lock ≠ some u := fun u hne heq =>
    hne (Option.some.inj (heq.symm.trans hlock))
  have hnone : s.lock = none → value = first := fun hnone => by
    rw [hlock] at hnone
    cases hnone
  exact h.moved ht hother hother (iff_of_true hinside' hlock) (fun _ => hholds) hnone

/-- What a working thread reads is its own value, or the first one. -/
theorem Inv.used (h : Inv first s) {t : Nat} {thread : Thread Value}
    (ht : s.threads t = some thread) (hvalue : s.value = thread.own.getD first) :
    Inv first { s with uses := s.uses ++ [(t, s.value)] } where
  holder := h.holder
  known := h.known
  holds := h.holds
  quiet := h.quiet
  uses := by
    intro u v huse
    obtain huse | huse := List.mem_append.1 huse
    · exact h.uses u v huse
    · cases List.mem_singleton.1 huse
      exact ⟨thread, ht, hvalue⟩
  fresh := h.fresh

/-- A new thread waits and holds nothing. -/
theorem Inv.spawned (h : Inv first s) (own : Option Value) :
    Inv first { s.move s.next own .waiting s.value s.lock with next := s.next + 1 } := by
  have hnew := h.fresh s.next (Nat.le_refl _)
  have hlock : s.lock ≠ some s.next := fun heq => by
    have := h.known s.next heq
    rw [hnew] at this
    cases this
  have hother : ∀ u, u ≠ s.next →
      (s.move s.next own .waiting s.value s.lock).threads u = s.threads u :=
    fun u hne => move_threads_of_ne hne
  have hthreads : ∀ {u : Nat} {thread : Thread Value},
      (s.move s.next own .waiting s.value s.lock).threads u = some thread →
      u = s.next ∧ thread.place = .waiting ∨ u ≠ s.next ∧ s.threads u = some thread := by
    intro u thread hu
    obtain rfl | hne := eq_or_ne u s.next
    · rw [move_threads_self] at hu
      cases hu
      exact Or.inl ⟨rfl, rfl⟩
    · rw [hother u hne] at hu
      exact Or.inr ⟨hne, hu⟩
  refine
    { holder := fun u thread hu => ?holder, known := fun u hu => ?known,
      holds := fun u thread hu hheld => ?holds, quiet := h.quiet,
      uses := fun u v huse => ?uses, fresh := fun u hu => ?fresh }
  case holder =>
    obtain ⟨rfl, hplace⟩ | ⟨-, hold⟩ := hthreads hu
    · rw [hplace]
      exact iff_of_false id hlock
    · exact h.holder u thread hold
  case known =>
    have hne : u ≠ s.next := fun heq => hlock (heq ▸ hu)
    have hsome := h.known u hu
    rw [← hother u hne] at hsome
    exact hsome
  case holds =>
    obtain ⟨rfl, -⟩ | ⟨-, hold⟩ := hthreads hu
    · exact absurd hheld hlock
    · exact h.holds u thread hold hheld
  case uses =>
    obtain ⟨thread, hthread, hv⟩ := h.uses u v huse
    have hne : u ≠ s.next := fun heq => by
      rw [heq, hnew] at hthread
      cases hthread
    exact ⟨thread, (hother u hne).trans hthread, hv⟩
  case fresh =>
    have hne : u ≠ s.next := fun heq => by
      rw [heq] at hu
      exact Nat.not_succ_le_self _ hu
    exact (hother u hne).trans (h.fresh u (Nat.le_of_succ_le hu))

/-- **One step keeps the lock in order.** -/
theorem Inv.step (h : Inv first s) (hstep : Step s s') : Inv first s' := by
  cases hstep with
  | spawn own => exact h.spawned own
  | @acquire t own ht hlock =>
      have hvalue := h.quiet hlock
      refine h.moved ht (fun u _ heq => ?_) (fun u hne heq => hne (Option.some.inj heq).symm)
        (iff_of_true trivial rfl) (fun _ => hvalue) fun _ => hvalue
      rw [hlock] at heq
      cases heq
  | save ht =>
      have hvalue : s.value = first := h.holds _ _ ht (h.lock_of_inside ht trivial)
      exact h.movedInside ht trivial (by trivial) ⟨hvalue, hvalue, rfl⟩
  | install ht =>
      obtain ⟨hold, -, -⟩ := h.holds _ _ ht (h.lock_of_inside ht trivial)
      exact h.movedInside ht trivial (by trivial) ⟨hold, rfl⟩
  | skip ht =>
      have hvalue : s.value = first := h.holds _ _ ht (h.lock_of_inside ht trivial)
      exact h.movedInside ht trivial (by trivial) ⟨hvalue, rfl⟩
  | useOwn ht =>
      obtain ⟨-, hown⟩ := h.holds _ _ ht (h.lock_of_inside ht trivial)
      exact h.used ht (by rw [← hown, Option.getD_some])
  | useShared ht =>
      obtain ⟨hvalue, hown⟩ := h.holds _ _ ht (h.lock_of_inside ht trivial)
      exact h.used ht (by rw [hown, Option.getD_none, hvalue])
  | restore ht =>
      obtain ⟨hold, -⟩ := h.holds _ _ ht (h.lock_of_inside ht trivial)
      exact h.movedInside ht trivial (by trivial) hold
  | finish ht =>
      obtain ⟨hvalue, -⟩ := h.holds _ _ ht (h.lock_of_inside ht trivial)
      exact h.movedInside ht trivial (by trivial) hvalue
  | @release t own ht =>
      have hlock := h.lock_of_inside ht trivial
      have hvalue : s.value = first := h.holds _ _ ht hlock
      refine h.moved ht (fun u hne heq => hne (Option.some.inj (heq.symm.trans hlock))) nofun
        (iff_of_false id nofun) nofun fun _ => hvalue

/-- **The lock is in order in every run.** -/
theorem Reach.inv (h : Reach first s) : Inv first s := by
  induction h with
  | start => exact inv_start first
  | step _ hstep ih => exact ih.step hstep

/-- In every interleaving a thread reads its own value, or the first one. -/
theorem Reach.uses (h : Reach first s) {t : Nat} {v : Value} (huse : (t, v) ∈ s.uses) :
    ∃ thread, s.threads t = some thread ∧ v = thread.own.getD first :=
  h.inv.uses t v huse

/-- Two threads are never between taking and releasing the lock. -/
theorem Reach.exclusive (h : Reach first s) {t u : Nat} {thread other : Thread Value}
    (ht : s.threads t = some thread) (hu : s.threads u = some other)
    (hinside : thread.place.Inside) (hinside' : other.place.Inside) : t = u :=
  Option.some.inj (((h.inv.holder t thread ht).1 hinside).symm.trans
    ((h.inv.holder u other hu).1 hinside'))

/-- Without a holder of the lock the variable is what it was. -/
theorem Reach.restored (h : Reach first s) (hlock : s.lock = none) : s.value = first :=
  h.inv.quiet hlock

end LockedSwap
