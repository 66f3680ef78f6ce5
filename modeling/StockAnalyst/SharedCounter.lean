import Mathlib

/-!
# Local machines that share a counter

Any number of machines take steps in any order, each on its own state and the
one counter they share.  A quantity that every step moves between the counter
and the state of its machine is conserved over every run.
-/

namespace SharedCounter

variable {L : Type} {Start : L → Prop} {Step : Nat → L → Nat → L → Prop} {initial free : Nat}
  {machines : List L}

/-- The runs from an initial count: machines start one by one, and take their
steps in any order. -/
inductive Runs (Start : L → Prop) (Step : Nat → L → Nat → L → Prop) (initial : Nat) :
    Nat → List L → Prop
  | init : Runs Start Step initial initial []
  | start {free : Nat} {machines : List L} {l : L} (h : Runs Start Step initial free machines)
      (hstart : Start l) : Runs Start Step initial free (machines ++ [l])
  | step {free free' : Nat} {machines : List L} {l l' : L} {i : Nat}
      (h : Runs Start Step initial free machines) (hi : machines[i]? = some l)
      (hstep : Step free l free' l') : Runs Start Step initial free' (machines.set i l')

/-- The sum over all machines when one of them has moved. -/
theorem sum_set (held : L → Nat) {l : L} {i : Nat} (hi : machines[i]? = some l) (l' : L) :
    ((machines.set i l').map held).sum + held l = (machines.map held).sum + held l' := by
  induction machines generalizing i with
  | nil => cases hi
  | cons first machines ih =>
      cases i with
      | zero =>
          obtain rfl := Option.some.inj hi
          rw [List.set_cons_zero, List.map_cons, List.map_cons, List.sum_cons, List.sum_cons]
          omega
      | succ i =>
          have hrest := ih hi
          rw [List.set_cons_succ, List.map_cons, List.map_cons, List.sum_cons, List.sum_cons]
          omega

/-- **The rule of conservation.**  Every machine stays sound, and what the
machines hold is what the counter lacks. -/
theorem Runs.conserves (held : L → Nat) (Sound : L → Prop)
    (hstart : ∀ l, Start l → Sound l ∧ held l = 0)
    (hstep : ∀ free l free' l', Sound l → Step free l free' l' →
      Sound l' ∧ free' + held l' = free + held l)
    (h : Runs Start Step initial free machines) :
    (∀ l ∈ machines, Sound l) ∧ free + (machines.map held).sum = initial := by
  induction h with
  | init => exact ⟨fun _ hl => absurd hl List.not_mem_nil, rfl⟩
  | start h hl ih =>
      obtain ⟨hsound, hsum⟩ := ih
      obtain ⟨hnew, hzero⟩ := hstart _ hl
      refine ⟨?_, ?_⟩
      · intro l' hl'
        obtain hl' | hl' := List.mem_append.1 hl'
        · exact hsound l' hl'
        · exact List.mem_singleton.1 hl' ▸ hnew
      · rw [List.map_append, List.sum_append, List.map_singleton, List.sum_singleton, hzero]
        exact hsum
  | @step free free' machines l moved i h hi hmove ih =>
      obtain ⟨hsound, hsum⟩ := ih
      obtain ⟨hnew, hheld⟩ := hstep _ _ _ _ (hsound _ (List.mem_of_getElem? hi)) hmove
      refine ⟨?_, ?_⟩
      · intro l' hl'
        obtain hl' | rfl := List.mem_or_eq_of_mem_set hl'
        · exact hsound l' hl'
        · exact hnew
      · have hmoved := sum_set held hi moved
        omega

/-- Machines that each hold something are no more than what is held. -/
theorem countP_le_sum {held : L → Nat} {p : L → Bool}
    (h : ∀ l ∈ machines, p l = true → 1 ≤ held l) :
    machines.countP p ≤ (machines.map held).sum := by
  induction machines with
  | nil => exact Nat.le_refl 0
  | cons l machines ih =>
      obtain ⟨hl, hrest⟩ := List.forall_mem_cons.1 h
      have hle := ih hrest
      rw [List.countP_cons, List.map_cons, List.sum_cons]
      by_cases hp : p l = true
      · have := hl hp
        rw [if_pos hp]
        omega
      · rw [if_neg hp]
        omega

end SharedCounter
