import StockAnalyst.Coroutine

/-!
# Interleaved coroutines

A machine runs any number of coroutines over one shared world.  At each step
one coroutine performs its next effect, a new call starts, a coroutine dies,
or the environment moves.  A contract names what every effect may rely on and
what it must guarantee; `Contract.reach` turns a proof about each coroutine
on its own into an invariant of every interleaving.
-/

namespace Coroutine

/-- A system of coroutines.  `react` is the nondeterministic answer to one
effect of process `pid`; `forks` lists the calls the effect starts. -/
structure Machine where
  Eff : Type
  Resp : Eff → Type
  Call : Type
  World : Type
  body : Call → Prog Eff Resp Unit
  external : Call → Prop
  react : Nat → (e : Eff) → World → Resp e → World → Prop
  forks : Eff → List Call
  env : World → World → Prop

/-- A configuration: the shared world and the live coroutines by process
number.  Numbers from `next` on have never been used. -/
structure Config (M : Machine) where
  world : M.World
  procs : Nat → Option (Prog M.Eff M.Resp Unit)
  next : Nat

namespace Config

variable {M : Machine}

/-- The configuration before any call. -/
def initial (M : Machine) (w : M.World) : Config M :=
  ⟨w, fun _ => none, 0⟩

/-- Start one call under the next unused process number. -/
def start (s : Config M) (c : M.Call) : Config M :=
  { s with
    procs := Function.update s.procs s.next (some (M.body c))
    next := s.next + 1 }

/-- Start the calls an effect forks, in order. -/
def startAll (s : Config M) (cs : List M.Call) : Config M :=
  cs.foldl start s

/-- Starting calls changes no world. -/
theorem startAll_world (s : Config M) (cs : List M.Call) :
    (s.startAll cs).world = s.world := by
  induction cs generalizing s with
  | nil => rfl
  | cons c cs ih => exact ih (s.start c)

end Config

/-- One step of the interleaving. -/
inductive Step (M : Machine) : Config M → Config M → Prop
  | start {s : Config M} {c : M.Call} (hext : M.external c) :
      Step M s (s.start c)
  | act {s : Config M} {pid : Nat} {e : M.Eff}
      {k : M.Resp e → Prog M.Eff M.Resp Unit} {r : M.Resp e} {w : M.World}
      (hproc : s.procs pid = some (.op e k))
      (hreact : M.react pid e s.world r w) :
      Step M s (Config.startAll
        { s with world := w, procs := Function.update s.procs pid (some (k r)) }
        (M.forks e))
  | crash {s : Config M} (pid : Nat) :
      Step M s { s with procs := Function.update s.procs pid none }
  | env {s : Config M} {w : M.World} (henv : M.env s.world w) :
      Step M s { s with world := w }

/-- The configurations reachable from a world in which nothing runs. -/
inductive Reach (M : Machine) (w : M.World) : Config M → Prop
  | refl : Reach M w (Config.initial M w)
  | step {s t : Config M} (hreach : Reach M w s) (hstep : Step M s t) :
      Reach M w t

/-- A rely-guarantee contract.  `inv` holds of every reachable world; `ext q`
bounds what happens between two effects of process `q`; `pre` is what a
coroutine owes when it performs an effect; `fresh q` says that `q` has not
started; `ready c` is the precondition of a call. -/
structure Contract (M : Machine) where
  inv : M.World → Prop
  ext : Nat → M.World → M.World → Prop
  pre : Nat → M.World → M.Eff → Prop
  fresh : Nat → M.World → Prop
  ready : M.Call → M.World → Prop
  ext_refl : ∀ q w, ext q w w
  ext_trans : ∀ {q u v w}, ext q u v → ext q v w → ext q u w
  inv_react : ∀ {pid e w r w'}, inv w → pre pid w e →
    M.react pid e w r w' → inv w'
  inv_env : ∀ {w w'}, inv w → M.env w w' → inv w'
  ext_react : ∀ {pid q e w r w'}, q ≠ pid →
    M.react pid e w r w' → ext q w w'
  ext_env : ∀ {q w w'}, M.env w w' → ext q w w'
  fresh_ext : ∀ {q w w'}, ext q w w' → fresh q w → fresh q w'
  ready_ext : ∀ {q c w w'}, ext q w w' → ready c w → ready c w'
  ready_external : ∀ {c w}, M.external c → inv w → ready c w
  ready_fork : ∀ {pid e w r w' c}, inv w → pre pid w e →
    M.react pid e w r w' → c ∈ M.forks e → ready c w'

section wp

variable {M : Machine} (C : Contract M) {α β : Type}

/-- Weakest precondition of a tree run by process `pid` among others: at each
effect the world is some evolution of the last one seen, the effect's
precondition must hold, and every reply must be handled. -/
def wp (pid : Nat) : Prog M.Eff M.Resp α → (α → M.World → Prop) →
    M.World → Prop
  | .ret a, Q, w => Q a w
  | .op e k, Q, w => ∀ w₁, C.ext pid w w₁ → C.inv w₁ →
      C.pre pid w₁ e ∧
      ∀ r w₂, M.react pid e w₁ r w₂ → C.inv w₂ → wp pid (k r) Q w₂

variable {C} {pid : Nat}

/-- Two programs one after the other. -/
theorem wp_bind {p : Prog M.Eff M.Resp α} {f : α → Prog M.Eff M.Resp β}
    {Q : β → M.World → Prop} {w : M.World} :
    wp C pid (p.bind f) Q w ↔
      wp C pid p (fun a w' => wp C pid (f a) Q w') w := by
  induction p generalizing w with
  | ret a => exact Iff.rfl
  | op e k ih => simp only [Prog.bind, wp, ih]

/-- Consequence. -/
theorem wp_mono {p : Prog M.Eff M.Resp α} {Q Q' : α → M.World → Prop}
    {w : M.World} (hp : wp C pid p Q w) (hQ : ∀ a w', Q a w' → Q' a w') :
    wp C pid p Q' w := by
  induction p generalizing w with
  | ret a => exact hQ a w hp
  | op e k ih =>
      intro w₁ hext hinv
      obtain ⟨hpre, hk⟩ := hp w₁ hext hinv
      exact ⟨hpre, fun r w₂ hreact hinv₂ => ih r (hk r w₂ hreact hinv₂)⟩

/-- The invariant holds at the end as well. -/
theorem wp_inv {p : Prog M.Eff M.Resp α} {Q : α → M.World → Prop}
    {w : M.World} (hp : wp C pid p Q w) (hinv : C.inv w) :
    wp C pid p (fun a w' => Q a w' ∧ C.inv w') w := by
  induction p generalizing w with
  | ret a => exact ⟨hp, hinv⟩
  | op e k ih =>
      intro w₁ hext hinv₁
      obtain ⟨hpre, hk⟩ := hp w₁ hext hinv₁
      exact ⟨hpre, fun r w₂ hreact hinv₂ => ih r (hk r w₂ hreact hinv₂) hinv₂⟩

/-- What every step respects relates the first world to the last. -/
theorem wp_track {R : M.World → M.World → Prop} (hrefl : ∀ w, R w w)
    (htrans : ∀ {u v w}, R u v → R v w → R u w)
    (hext : ∀ {w w'}, C.ext pid w w' → R w w')
    (hreact : ∀ {e w r w'}, M.react pid e w r w' → R w w')
    {p : Prog M.Eff M.Resp α} {Q : α → M.World → Prop} {w : M.World}
    (hp : wp C pid p Q w) : wp C pid p (fun a w' => Q a w' ∧ R w w') w := by
  induction p generalizing w with
  | ret a => exact ⟨hp, hrefl w⟩
  | op e k ih =>
      intro w₁ hext₁ hinv₁
      obtain ⟨hpre, hk⟩ := hp w₁ hext₁ hinv₁
      refine ⟨hpre, fun r w₂ hreact₂ hinv₂ => ?_⟩
      refine wp_mono (ih r (hk r w₂ hreact₂ hinv₂)) ?_
      rintro a w' ⟨hQ, hR⟩
      exact ⟨hQ, htrans (htrans (hext hext₁) (hreact hreact₂)) hR⟩

/-- What others do before the next effect costs nothing, as long as the
postcondition does not mind. -/
theorem wp_ext {p : Prog M.Eff M.Resp α} {Q : α → M.World → Prop}
    {w w' : M.World} (hp : wp C pid p Q w) (hext : C.ext pid w w')
    (hQ : ∀ a u u', C.ext pid u u' → Q a u → Q a u') :
    wp C pid p Q w' := by
  cases p with
  | ret a => exact hQ a w w' hext hp
  | op e k => exact fun w₁ h₁ hinv => hp w₁ (C.ext_trans hext h₁) hinv

/-- One coroutine run to its result: between two of its effects the world
changes as `others` allows. -/
inductive Completes (M : Machine) (others : M.World → M.World → Prop) (pid : Nat)
    {α : Type} : Prog M.Eff M.Resp α → M.World → α → M.World → Prop
  | ret {a : α} {w : M.World} : Completes M others pid (.ret a) w a w
  | op {e : M.Eff} {k : M.Resp e → Prog M.Eff M.Resp α} {r : M.Resp e} {a : α}
      {w w₁ w₂ w' : M.World} (hothers : others w w₁)
      (hreact : M.react pid e w₁ r w₂) (hrest : Completes M others pid (k r) w₂ a w') :
      Completes M others pid (.op e k) w a w'

/-- A completed run ends in the postcondition. -/
theorem Completes.post {others : M.World → M.World → Prop}
    {p : Prog M.Eff M.Resp α} {Q : α → M.World → Prop} {a : α} {w w' : M.World}
    (h : Completes M others pid p w a w')
    (hext : ∀ {u v}, others u v → C.ext pid u v)
    (hinv : ∀ {u v}, others u v → C.inv u → C.inv v)
    (hp : wp C pid p Q w) (hw : C.inv w) : Q a w' := by
  induction h with
  | ret => exact hp
  | op hothers hreact hrest ih =>
      have hinv₁ := hinv hothers hw
      obtain ⟨hpre, hk⟩ := hp _ (hext hothers) hinv₁
      have hinv₂ := C.inv_react hinv₁ hpre hreact
      exact ih (hk _ _ hreact hinv₂) hinv₂

end wp

section async

variable {M : Machine} {X α β : Type}

/-- Weakest precondition of a coroutine; the postcondition also judges the
exceptions it raises. -/
def awp (C : Contract M) (pid : Nat) (p : Async M.Eff M.Resp X α)
    (Q : Except X α → M.World → Prop) (w : M.World) : Prop :=
  wp C pid p.prog Q w

variable {C : Contract M} {pid : Nat} {w : M.World}

/-- A coroutine that ends in `Q` ends in what `Q` implies. -/
theorem awp_mono {p : Async M.Eff M.Resp X α}
    {Q Q' : Except X α → M.World → Prop} (hp : awp C pid p Q w)
    (hQ : ∀ r w', Q r w' → Q' r w') : awp C pid p Q' w :=
  wp_mono hp hQ

/-- A coroutine ends with the invariant it began with. -/
theorem awp_inv {p : Async M.Eff M.Resp X α}
    {Q : Except X α → M.World → Prop} (hp : awp C pid p Q w) (hinv : C.inv w) :
    awp C pid p (fun r w' => Q r w' ∧ C.inv w') w :=
  wp_inv hp hinv

/-- A value that is returned. -/
@[simp] theorem awp_pure {a : α} {Q : Except X α → M.World → Prop} :
    awp C pid (pure a) Q w ↔ Q (.ok a) w := Iff.rfl

/-- An exception that is thrown. -/
@[simp] theorem awp_throw {x : X} {Q : Except X α → M.World → Prop} :
    awp C pid (Async.throw x) Q w ↔ Q (.error x) w := Iff.rfl

/-- A result that is returned or thrown. -/
@[simp] theorem awp_ofExcept {r : Except X α}
    {Q : Except X α → M.World → Prop} :
    awp C pid (Async.ofExcept r) Q w ↔ Q r w := by
  cases r <;> exact Iff.rfl

/-- Sequencing: an exception of the first part is the outcome of the whole. -/
theorem awp_bind {p : Async M.Eff M.Resp X α}
    {f : α → Async M.Eff M.Resp X β} {Q : Except X β → M.World → Prop} :
    awp C pid (p >>= f) Q w ↔
      awp C pid p (fun r w' => match r with
        | .ok a => awp C pid (f a) Q w'
        | .error x => Q (.error x) w') w := by
  have hshape : (p >>= f : Async M.Eff M.Resp X β).prog = Prog.bind p.prog (fun
      | .ok a => f a
      | .error x => .ret (.error x)) := rfl
  unfold awp
  rw [hshape, wp_bind]
  constructor <;> intro h <;> refine wp_mono h ?_ <;> intro r w' hr <;>
    cases r <;> exact hr

/-- A coroutine that is caught. -/
@[simp] theorem awp_attempt {p : Async M.Eff M.Resp X α}
    {Q : Except X (Except X α) → M.World → Prop} :
    awp C pid (Async.attempt p) Q w ↔
      awp C pid p (fun r w' => Q (.ok r) w') w :=
  wp_bind

end async

section reach

variable {M : Machine} (C : Contract M)

/-- Every coroutine of the machine honours the contract from the world in
which its call starts. -/
def Contract.Sound : Prop :=
  ∀ c pid w, C.inv w → C.fresh pid w → C.ready c w →
    wp C pid (M.body c) (fun _ _ => True) w

/-- What a contract keeps of a whole configuration. -/
structure Contract.Holds (s : Config M) : Prop where
  inv : C.inv s.world
  live : ∀ pid p, s.procs pid = some p → wp C pid p (fun _ _ => True) s.world
  fresh : ∀ pid, s.next ≤ pid → C.fresh pid s.world

variable {C}

/-- The contract holds when a call is started that is ready. -/
theorem Contract.Holds.start {s : Config M} (hs : C.Holds s)
    (hsound : C.Sound) {c : M.Call} (hready : C.ready c s.world) :
    C.Holds (s.start c) := by
  refine ⟨hs.inv, ?_, fun pid hpid => hs.fresh pid (Nat.le_of_succ_le hpid)⟩
  intro pid p hp
  by_cases hpid : pid = s.next
  · subst hpid
    simp only [Config.start, Function.update_self, Option.some.injEq] at hp
    subst hp
    exact hsound c _ _ hs.inv (hs.fresh _ (Nat.le_refl _)) hready
  · simp only [Config.start, Function.update_of_ne hpid] at hp
    exact hs.live pid p hp

/-- So it does when many are. -/
theorem Contract.Holds.startAll {s : Config M} (hs : C.Holds s)
    (hsound : C.Sound) {cs : List M.Call}
    (hready : ∀ c ∈ cs, C.ready c s.world) :
    C.Holds (s.startAll cs) := by
  induction cs generalizing s with
  | nil => exact hs
  | cons c cs ih =>
      refine ih (hs.start hsound (hready c List.mem_cons_self)) ?_
      intro c' hc'
      exact hready c' (List.mem_cons_of_mem _ hc')

/-- One step of the interleaving keeps the contract. -/
theorem Contract.Holds.step {s t : Config M} (hs : C.Holds s)
    (hsound : C.Sound) (hnext : ∀ pid p, s.procs pid = some p → pid < s.next)
    (hstep : Step M s t) : C.Holds t := by
  cases hstep with
  | start hext => exact hs.start hsound (C.ready_external hext hs.inv)
  | @act pid e k r w hproc hreact =>
      obtain ⟨hpre, hk⟩ :=
        hs.live pid _ hproc s.world (C.ext_refl _ _) hs.inv
      have hinv : C.inv w := C.inv_react hs.inv hpre hreact
      refine Contract.Holds.startAll ?_ hsound
        (fun c hc => C.ready_fork hs.inv hpre hreact hc)
      refine ⟨hinv, ?_, ?_⟩
      · intro q p hp
        by_cases hq : q = pid
        · subst hq
          simp only [Function.update_self, Option.some.injEq] at hp
          subst hp
          exact hk r w hreact hinv
        · simp only [Function.update_of_ne hq] at hp
          exact wp_ext (hs.live q p hp) (C.ext_react hq hreact)
            (fun _ _ _ _ h => h)
      · intro q hq
        have hne : q ≠ pid := by
          have := hnext pid _ hproc
          simp only at hq
          omega
        exact C.fresh_ext (C.ext_react hne hreact) (hs.fresh q hq)
  | crash pid =>
      refine ⟨hs.inv, ?_, hs.fresh⟩
      intro q p hp
      by_cases hq : q = pid
      · subst hq
        simp at hp
      · simp only [Function.update_of_ne hq] at hp
        exact hs.live q p hp
  | env henv =>
      refine ⟨C.inv_env hs.inv henv, ?_, ?_⟩
      · intro q p hp
        exact wp_ext (hs.live q p hp) (C.ext_env henv) (fun _ _ _ _ h => h)
      · intro q hq
        exact C.fresh_ext (C.ext_env henv) (hs.fresh q hq)

/-- Live processes have numbers below `next`. -/
def Config.Numbered (s : Config M) : Prop :=
  ∀ pid p, s.procs pid = some p → pid < s.next

/-- A started call has the next number. -/
theorem Config.Numbered.start {s : Config M} (hs : s.Numbered) (c : M.Call) :
    (s.start c).Numbered := by
  intro pid p hp
  by_cases hpid : pid = s.next
  · simp only [Config.start]
    omega
  · simp only [Config.start, Function.update_of_ne hpid] at hp ⊢
    exact Nat.lt_succ_of_lt (hs pid p hp)

/-- So have many. -/
theorem Config.Numbered.startAll {s : Config M} (hs : s.Numbered)
    (cs : List M.Call) : (s.startAll cs).Numbered := by
  induction cs generalizing s with
  | nil => exact hs
  | cons c cs ih => exact ih (hs.start c)

/-- A step keeps the numbers. -/
theorem Config.Numbered.step {s t : Config M} (hs : s.Numbered)
    (hstep : Step M s t) : t.Numbered := by
  cases hstep with
  | start hext => exact hs.start _
  | @act pid e k r w hproc hreact =>
      refine Config.Numbered.startAll ?_ _
      intro q p hp
      by_cases hq : q = pid
      · subst hq
        exact hs q _ hproc
      · simp only [Function.update_of_ne hq] at hp
        exact hs q p hp
  | crash pid =>
      intro q p hp
      by_cases hq : q = pid
      · subst hq
        simp at hp
      · simp only [Function.update_of_ne hq] at hp
        exact hs q p hp
  | env henv => exact hs

/-- **Every reachable configuration is numbered.** -/
theorem Reach.numbered {w : M.World} {s : Config M} (h : Reach M w s) :
    s.Numbered := by
  induction h with
  | refl =>
      intro pid p hp
      simp [Config.initial] at hp
  | step _ hstep ih => exact ih.step hstep

/-- **Rely-guarantee.**  If every call honours the contract on its own, the
contract holds in every reachable configuration. -/
theorem Contract.reach (hsound : C.Sound) {w : M.World} (hinv : C.inv w)
    (hfresh : ∀ pid, C.fresh pid w) {s : Config M} (h : Reach M w s) :
    C.Holds s := by
  induction h with
  | refl =>
      refine ⟨hinv, ?_, fun pid _ => hfresh pid⟩
      intro pid p hp
      simp [Config.initial] at hp
  | step hreach hstep ih => exact ih.step hsound hreach.numbered hstep

end reach

end Coroutine
