import StockAnalyst.PendingRecord
import StockAnalyst.Interleave
import StockAnalyst.PyAscii

/-!
# Clean-up of a pending record

`quarantineRemoveOwnedPending` beside other processes.  The procedure moves
whatever stands at the pending path to a fresh name, reads it there, and
deletes it only if it is the record it was called for; anything else it links
back without replacing.  Another process may change the pending path between
any two steps, and the procedure may stop anywhere.
-/

namespace X402Async

open Python Js Coroutine

/-! ## Files -/

/-- `node:path`. -/
structure Paths where
  dirname : JsStr → JsStr
  basename : JsStr → JsStr
  join : JsStr → JsStr → JsStr
  basename_join : ∀ directory name, 2 < name.length → 47 ∉ name →
    basename (join directory name) = name
  basename_slash : ∀ path, 47 ∉ basename path

/-- What the procedure does to the system. -/
inductive Eff where
  /-- `process.pid` and `randomBytes(8)`. -/
  | draw
  | rename (source target : JsStr)
  /-- `openSync`, `fsyncSync` and `closeSync` of a directory. -/
  | syncDirectory (directory : JsStr)
  /-- `afterQuarantineRename?.()`. -/
  | hook
  | stat (path : JsStr)
  | read (path : JsStr)
  | unlink (path : JsStr)
  | link (existing path : JsStr)

/-- The reply to an effect; an error has its `code`. -/
def Resp : Eff → Type
  | .draw => Nat × List Nat
  | .stat _ => Except JsStr Nat
  | .read _ => Except JsStr (List Nat)
  | _ => Except JsStr Unit

abbrev Co (α : Type) : Type := Async Eff Resp Thrown α

/-- A system call that throws its error. -/
def system {α : Type} (reply : Except JsStr α) : Except Thrown α :=
  match reply with
  | .ok a => .ok a
  | .error code => .error (.system code)

def durableDirectorySync (directory : JsStr) : Co Unit :=
  Async.await (.syncDirectory directory) system

def safeUnlink (path : JsStr) : Co Unit := do
  match ← Async.attempt (Async.await (.unlink path) system : Co Unit) with
  | .ok () => pure ()
  | .error error => if error = .system (js "ENOENT") then pure () else Async.throw error

section procedure

variable (node : Node) (paths : Paths)

def durableUnlink (path : JsStr) : Co Unit := do
  safeUnlink path
  durableDirectorySync (paths.dirname path)

/-- `loadPendingCreate`. -/
def loadPendingFile (path : JsStr) : Co PendingCreateRecord := do
  match ← Async.attempt (do
      let size ← (Async.await (.stat path) system : Co Nat)
      if maxPendingBytes < size then Async.throw (.error "oversized")
      else
        let content ← (Async.await (.read path) system : Co (List Nat))
        match (Js.parse node.number (node.utf8Text content)).bind (parsePendingCreate node) with
        | some pending => pure pending
        | none => Async.throw (.error "Stored pending x402 request is invalid")) with
  | .ok pending => pure pending
  | .error _ => Async.throw (.error "Stored pending x402 request is invalid")

/-- The name of the quarantine file. -/
def quarantinePath (pendingPath : JsStr) (pid : Nat) (random : List Nat) : JsStr :=
  paths.join (paths.dirname pendingPath)
    (js "." ++ paths.basename pendingPath ++ js "." ++ intText pid ++ js "." ++ toHex random
      ++ js ".quarantine")

/-- The validated expected record. -/
def canonicalExpected (expected : Value) (jobId jobToken : JsStr) : Option PendingCreateRecord :=
  (parsePendingCreate node expected).filter (pendingBindingIsValid node · jobId jobToken)

def cleanupFailed : Thrown := .client "pending_cleanup_failed"

/-- What happens to the quarantined file. -/
def settleQuarantine (pendingPath quarantine : JsStr) (expected : PendingCreateRecord)
    (jobId jobToken : JsStr) : Co Unit := do
  match ← Async.attempt (do
      (Async.await .hook system : Co Unit)
      let quarantined ← loadPendingFile node quarantine
      if !pendingBindingIsValid node quarantined jobId jobToken
          || stringifyValue node quarantined.toValue ≠ stringifyValue node expected.toValue then
        Async.throw (.error "quarantined pending owner mismatch")
      else durableUnlink paths quarantine) with
  | .ok () => pure ()
  | .error _ =>
      let _ ← Async.attempt (do
        (Async.await (.link quarantine pendingPath) system : Co Unit)
        durableDirectorySync (paths.dirname pendingPath))
      Async.throw cleanupFailed

def quarantineRemoveOwnedPending (pendingPath : JsStr) (expected : Value)
    (jobId jobToken : JsStr) : Co Unit :=
  match canonicalExpected node expected jobId jobToken with
  | none => Async.throw cleanupFailed
  | some canonical => do
      let (pid, random) ← (Async.await .draw .ok : Co (Nat × List Nat))
      let quarantine := quarantinePath paths pendingPath pid random
      match ← Async.attempt (do
          (Async.await (.rename pendingPath quarantine) system : Co Unit)
          durableDirectorySync (paths.dirname pendingPath)) with
      | .ok () => settleQuarantine node paths pendingPath quarantine canonical jobId jobToken
      | .error error =>
          if error = .system (js "ENOENT") then pure () else Async.throw cleanupFailed

end procedure

/-! ## The world -/

abbrev Files := JsStr → Option (List Nat)

/-- The files by their paths, the quarantine name once it is drawn, and whether
the rename has taken place. -/
structure World where
  files : Files
  drawn : Option JsStr
  renamed : Bool

def World.start (files : Files) : World := ⟨files, none, false⟩

/-- A call that fails changes nothing. -/
def Failed {α : Type} (reply : Except JsStr α) (w w' : World) : Prop :=
  (∃ code, reply = .error code) ∧ w' = w

section machine

variable (paths : Paths) (pendingPath : JsStr)

/-- How the system answers an effect.  A name that is drawn at random is in
use by no file; `rename`, `unlink` and `link` are atomic, and `link` replaces
nothing. -/
def Answers : (e : Eff) → World → Resp e → World → Prop
  | .draw, w, (pid, random), w' =>
      let quarantine := quarantinePath paths pendingPath pid random
      (random.length = 8 ∧ ∀ b ∈ random, b < 256) ∧ w.files quarantine = none ∧
        w' = { w with drawn := some quarantine }
  | .rename source target, w, reply, w' =>
      (reply = .ok () ∧ ∃ content, w.files source = some content ∧
        w' = { w with
          files := Function.update (Function.update w.files source none) target (some content)
          renamed := true }) ∨ Failed reply w w'
  | .syncDirectory _, w, _, w' => w' = w
  | .hook, w, _, w' => w' = w
  | .stat path, w, reply, w' =>
      (∃ content, w.files path = some content ∧ reply = .ok content.length ∧ w' = w) ∨
        Failed reply w w'
  | .read path, w, reply, w' =>
      (∃ content, w.files path = some content ∧ reply = .ok content ∧ w' = w) ∨
        Failed reply w w'
  | .unlink path, w, reply, w' =>
      (reply = .ok () ∧ w.files path ≠ none ∧
        w' = { w with files := Function.update w.files path none }) ∨ Failed reply w w'
  | .link existing path, w, reply, w' =>
      (reply = .ok () ∧ w.files path = none ∧ ∃ content, w.files existing = some content ∧
        w' = { w with files := Function.update w.files path (some content) }) ∨ Failed reply w w'

/-- What other processes do: anything, but not to the quarantine file. -/
def Others (w w' : World) : Prop :=
  w'.drawn = w.drawn ∧ w'.renamed = w.renamed ∧
    ∀ quarantine, w.drawn = some quarantine → w'.files quarantine = w.files quarantine

/-- Process 0 runs the procedure; what any other process does is a step of the
environment. -/
def cleanup (node : Node) (expected : Value) (jobId jobToken : JsStr) : Machine where
  Eff := Eff
  Resp := Resp
  Call := Unit
  World := World
  body := fun _ => Prog.bind
    (quarantineRemoveOwnedPending node paths pendingPath expected jobId jobToken).prog
    fun _ => .ret ()
  external := fun _ => True
  react := fun pid e w r w' => pid = 0 ∧ Answers paths pendingPath e w r w'
  forks := fun _ => []
  env := Others

end machine

/-! ## What the procedure keeps to -/

section contract

variable {node : Node} {paths : Paths} {pendingPath : JsStr} {expected : Value}
  {jobId jobToken : JsStr}

/-- The quarantine name is not the pending path: its last part is longer. -/
theorem quarantinePath_ne (pid : Nat) {random : List Nat} (hbytes : ∀ b ∈ random, b < 256) :
    quarantinePath paths pendingPath pid random ≠ pendingPath := by
  have hdot : js "." = [46] := by decide
  have hend : (js ".quarantine").length = 11 ∧ 47 ∉ js ".quarantine" := by decide
  have hpid : 47 ∉ intText pid := by
    intro hmem
    have := intText_range pid 47 hmem
    omega
  have hrandom : 47 ∉ toHex random := by
    intro hmem
    have := toHex_range hbytes 47 hmem
    omega
  have hname : paths.basename (quarantinePath paths pendingPath pid random) =
      js "." ++ paths.basename pendingPath ++ js "." ++ intText pid ++ js "." ++ toHex random ++
        js ".quarantine" := by
    apply paths.basename_join
    · simp only [hdot, List.length_append, List.length_singleton, hend.1]
      omega
    · simp [hdot, paths.basename_slash, hpid, hrandom, hend.2]
  intro heq
  have hlength := congrArg List.length hname
  rw [heq] at hlength
  simp only [hdot, List.length_append, List.length_singleton, hend.1] at hlength
  omega

variable (node expected jobId jobToken) in
/-- The content of a file that the procedure may delete: it reads as a record
that is JSON-equal to the expected one and whose binding is valid for the job. -/
def Owned (content : List Nat) : Prop :=
  ∃ canonical pending, parsePendingCreate node expected = some canonical ∧
    loadPendingCreate node content = some pending ∧
    stringifyValue node pending.toValue = stringifyValue node canonical.toValue ∧
    pendingBindingIsValid node pending jobId jobToken = true

variable (node pendingPath expected jobId jobToken) in
/-- What the procedure may do in a world. -/
def Permitted : Eff → World → Prop
  | .draw, w => w.drawn = none
  | .rename source target, w => source = pendingPath ∧ w.drawn = some target ∧
      w.files target = none ∧ w.renamed = false
  | .unlink path, w => w.drawn = some path ∧
      ∀ content, w.files path = some content → Owned node expected jobId jobToken content
  | .link existing path, w => w.drawn = some existing ∧ path = pendingPath
  | _, _ => True

/-- A step draws a quarantine name or leaves it. -/
theorem Answers.drawn {e : Eff} {w w' : World} {r : Resp e}
    (h : Answers paths pendingPath e w r w') :
    w'.drawn = w.drawn ∨ ∃ quarantine, w'.drawn = some quarantine ∧ quarantine ≠ pendingPath := by
  cases e with
  | draw =>
      obtain ⟨⟨-, hbytes⟩, -, rfl⟩ := h
      exact Or.inr ⟨_, rfl, quarantinePath_ne _ hbytes⟩
  | rename source target =>
      obtain ⟨-, content, -, rfl⟩ | ⟨-, rfl⟩ := h
      · exact Or.inl rfl
      · exact Or.inl rfl
  | syncDirectory directory => exact Or.inl (congrArg World.drawn h)
  | hook => exact Or.inl (congrArg World.drawn h)
  | stat path =>
      obtain ⟨content, -, -, rfl⟩ | ⟨-, rfl⟩ := h
      · exact Or.inl rfl
      · exact Or.inl rfl
  | read path =>
      obtain ⟨content, -, -, rfl⟩ | ⟨-, rfl⟩ := h
      · exact Or.inl rfl
      · exact Or.inl rfl
  | unlink path =>
      obtain ⟨-, -, rfl⟩ | ⟨-, rfl⟩ := h
      · exact Or.inl rfl
      · exact Or.inl rfl
  | link existing path =>
      obtain ⟨-, -, content, -, rfl⟩ | ⟨-, rfl⟩ := h
      · exact Or.inl rfl
      · exact Or.inl rfl

/-- What others do in two spans. -/
theorem others_trans {u v w : World} (h : Others u v) (h' : Others v w) : Others u w := by
  obtain ⟨hdrawn, hrenamed, hfile⟩ := h
  obtain ⟨hdrawn', hrenamed', hfile'⟩ := h'
  refine ⟨hdrawn'.trans hdrawn, hrenamed'.trans hrenamed, fun q hq => ?_⟩
  rw [hfile' q (hdrawn.trans hq), hfile q hq]

variable (node paths pendingPath expected jobId jobToken) in
def cleanupContract : Contract (cleanup paths pendingPath node expected jobId jobToken) where
  inv := fun w => ∀ quarantine, w.drawn = some quarantine → quarantine ≠ pendingPath
  ext := fun pid w w' => pid = 0 → Others w w'
  pre := fun pid w e => pid = 0 → Permitted node pendingPath expected jobId jobToken e w
  fresh := fun pid w => pid = 0 → w.drawn = none ∧ w.renamed = false
  ready := fun _ _ => True
  ext_refl := fun _ _ _ => ⟨rfl, rfl, fun _ _ => rfl⟩
  ext_trans := fun h h' hpid => others_trans (h hpid) (h' hpid)
  inv_react := by
    intro pid e w r w' hinv _ ⟨_, hanswer⟩ quarantine hq
    obtain hsame | ⟨drawn, hdrawn, hne⟩ := hanswer.drawn
    · exact hinv quarantine (hsame ▸ hq)
    · rw [hdrawn] at hq
      exact Option.some.inj hq ▸ hne
  inv_env := by
    intro w w' hinv henv quarantine hq
    exact hinv quarantine (henv.1 ▸ hq)
  ext_react := by
    intro pid q e w r w' hne ⟨hpid, _⟩ hq
    exact absurd (hq.trans hpid.symm) hne
  ext_env := fun h _ => h
  fresh_ext := by
    intro q w w' hext hfresh hq
    obtain ⟨hdrawn, hrenamed, -⟩ := hext hq
    exact ⟨hdrawn.trans (hfresh hq).1, hrenamed.trans (hfresh hq).2⟩
  ready_ext := fun _ h => h
  ready_external := fun _ _ => trivial
  ready_fork := fun _ _ _ _ => trivial

/-! ### The steps -/

/-- The file under the quarantine name, which no other process touches. -/
def Holds (quarantine : JsStr) (content : Option (List Nat)) (w : World) : Prop :=
  w.drawn = some quarantine ∧ w.files quarantine = content

/-- Others leave the quarantine file alone. -/
theorem Holds.others {quarantine : JsStr} {content : Option (List Nat)} {w w' : World}
    (h : Holds quarantine content w) (hothers : Others w w') : Holds quarantine content w' :=
  ⟨hothers.1.trans h.1, (hothers.2.2 quarantine h.1).trans h.2⟩

/-- The quarantine file holds something. -/
theorem Holds.drawn {quarantine : JsStr} {content : Option (List Nat)} {w : World}
    (h : Holds quarantine content w) : ∃ content, Holds quarantine content w := ⟨_, h⟩

variable (node paths pendingPath expected jobId jobToken) in
/-- A part of the procedure that process 0 runs from the world `w`. -/
def Keeps {α : Type} (p : Co α) (w : World) (Q : Except Thrown α → World → Prop) : Prop :=
  awp (cleanupContract node paths pendingPath expected jobId jobToken) 0 p Q w

variable {quarantine : JsStr} {content : Option (List Nat)} {w : World}

section rules

variable {α β : Type}

/-- What keeps more keeps less. -/
theorem Keeps.mono {p : Co α} {Q Q' : Except Thrown α → World → Prop}
    (h : Keeps node paths pendingPath expected jobId jobToken p w Q)
    (hQ : ∀ r w', Q r w' → Q' r w') :
    Keeps node paths pendingPath expected jobId jobToken p w Q' :=
  awp_mono (M := cleanup paths pendingPath node expected jobId jobToken) h hQ

/-- Two programs one after the other. -/
theorem Keeps.bind {p : Co α} {f : α → Co β} {Q : Except Thrown α → World → Prop}
    {Q' : Except Thrown β → World → Prop}
    (hp : Keeps node paths pendingPath expected jobId jobToken p w Q)
    (hf : ∀ a w', Q (.ok a) w' → Keeps node paths pendingPath expected jobId jobToken (f a) w' Q')
    (herror : ∀ x w', Q (.error x) w' → Q' (.error x) w') :
    Keeps node paths pendingPath expected jobId jobToken (p >>= f) w Q' := by
  apply (awp_bind (M := cleanup paths pendingPath node expected jobId jobToken)).2
  apply hp.mono
  intro r w' hr
  cases r with
  | ok a => exact hf a w' hr
  | error x => exact herror x w' hr

/-- A program that is caught, and what follows. -/
theorem Keeps.attempt {p : Co α} {f : Except Thrown α → Co β} {Q : Except Thrown α → World → Prop}
    {Q' : Except Thrown β → World → Prop}
    (hp : Keeps node paths pendingPath expected jobId jobToken p w Q)
    (hf : ∀ r w', Q r w' → Keeps node paths pendingPath expected jobId jobToken (f r) w' Q') :
    Keeps node paths pendingPath expected jobId jobToken (Async.attempt p >>= f) w Q' := by
  apply (awp_bind (M := cleanup paths pendingPath node expected jobId jobToken)).2
  apply (awp_attempt (M := cleanup paths pendingPath node expected jobId jobToken)).2
  exact hp.mono hf

/-- A call made while the quarantine file is in place. -/
theorem Keeps.await {e : Eff} {reply : Resp e → Except Thrown α}
    {Q : Except Thrown α → World → Prop} (h : Holds quarantine content w)
    (hpre : ∀ w₁, Holds quarantine content w₁ →
      Permitted node pendingPath expected jobId jobToken e w₁)
    (hpost : ∀ w₁ r w₂, Holds quarantine content w₁ → Answers paths pendingPath e w₁ r w₂ →
      Q (reply r) w₂) :
    Keeps node paths pendingPath expected jobId jobToken (Async.await e reply) w Q := by
  intro w₁ hext _
  have hholds := h.others (hext rfl)
  refine ⟨fun _ => hpre w₁ hholds, ?_⟩
  intro r w₂ hreact _
  exact hpost w₁ r w₂ hholds hreact.2

end rules

/-- Syncing the directory keeps every file. -/
theorem keeps_sync {directory : JsStr} (h : Holds quarantine content w) :
    Keeps node paths pendingPath expected jobId jobToken (durableDirectorySync directory) w
      fun _ w' => Holds quarantine content w' := by
  apply Keeps.await h
  · intro _ _
    trivial
  · rintro w₁ r w₂ hholds rfl
    exact hholds

/-- What is read is the quarantined file. -/
theorem keeps_load (h : Holds quarantine content w) :
    Keeps node paths pendingPath expected jobId jobToken (loadPendingFile node quarantine) w
      fun r w' => Holds quarantine content w' ∧ ∀ pending, r = .ok pending →
        ∃ bytes, content = some bytes ∧ loadPendingCreate node bytes = some pending := by
  have hsize : Keeps node paths pendingPath expected jobId jobToken
      (Async.await (.stat quarantine) system : Co Nat) w fun r w' =>
        Holds quarantine content w' ∧ ∀ size, r = .ok size → ∃ bytes, content = some bytes ∧
          size = bytes.length := by
    apply Keeps.await h
    · intro _ _
      trivial
    · intro w₁ r w₂ hholds hanswer
      obtain ⟨bytes, hbytes, rfl, rfl⟩ | ⟨⟨code, rfl⟩, rfl⟩ := hanswer
      · refine ⟨hholds, fun size hr => ⟨bytes, hholds.2.symm.trans hbytes, ?_⟩⟩
        exact (Except.ok.inj hr).symm
      · exact ⟨hholds, fun _ hr => nomatch hr⟩
  have hread : ∀ w', Holds quarantine content w' →
      Keeps node paths pendingPath expected jobId jobToken
        (Async.await (.read quarantine) system : Co (List Nat)) w' fun r w'' =>
          Holds quarantine content w'' ∧ ∀ bytes, r = .ok bytes → content = some bytes := by
    intro w' hw'
    apply Keeps.await hw'
    · intro _ _
      trivial
    · intro w₁ r w₂ hholds hanswer
      obtain ⟨bytes, hbytes, rfl, rfl⟩ | ⟨⟨code, rfl⟩, rfl⟩ := hanswer
      · refine ⟨hholds, fun bytes' hr => ?_⟩
        obtain rfl := Except.ok.inj hr
        exact hholds.2.symm.trans hbytes
      · exact ⟨hholds, fun _ hr => nomatch hr⟩
  apply Keeps.attempt (Q := fun r w' => Holds quarantine content w' ∧ ∀ pending, r = .ok pending →
    ∃ bytes, content = some bytes ∧ loadPendingCreate node bytes = some pending)
  · apply hsize.bind
    · intro size w' ⟨hholds, hlength⟩
      obtain ⟨bytes, hbytes, rfl⟩ := hlength size rfl
      by_cases hlarge : maxPendingBytes < bytes.length
      · rw [if_pos hlarge]
        exact ⟨hholds, fun _ hr => nomatch hr⟩
      · rw [if_neg hlarge]
        apply (hread w' hholds).bind
        · intro bytes' w'' ⟨hholds', hsame⟩
          obtain rfl : bytes = bytes' := Option.some.inj (hbytes.symm.trans (hsame bytes' rfl))
          cases hparse : (Js.parse node.number (node.utf8Text bytes)).bind
              (parsePendingCreate node) with
          | none => exact ⟨hholds', fun _ hr => nomatch hr⟩
          | some pending =>
              refine ⟨hholds', fun pending' hr => ⟨bytes, hbytes, ?_⟩⟩
              obtain rfl := Except.ok.inj hr
              rw [loadPendingCreate, if_neg hlarge, hparse]
        · exact fun _ _ hr => ⟨hr.1, fun _ hr => nomatch hr⟩
    · exact fun _ _ hr => ⟨hr.1, fun _ hr => nomatch hr⟩
  · intro r w' hr
    cases r with
    | ok pending => exact hr
    | error x => exact ⟨hr.1, fun _ hr => nomatch hr⟩

/-- Only an owned file is unlinked. -/
theorem keeps_unlink (h : Holds quarantine content w)
    (howned : ∀ bytes, content = some bytes → Owned node expected jobId jobToken bytes) :
    Keeps node paths pendingPath expected jobId jobToken (durableUnlink paths quarantine) w
      fun _ w' => ∃ content, Holds quarantine content w' := by
  have hunlink : Keeps node paths pendingPath expected jobId jobToken
      (Async.await (.unlink quarantine) system : Co Unit) w fun _ w' =>
        ∃ content, Holds quarantine content w' := by
    apply Keeps.await h
    · intro w₁ hholds
      exact ⟨hholds.1, fun bytes hbytes => howned bytes (hholds.2.symm.trans hbytes)⟩
    · intro w₁ r w₂ hholds hanswer
      obtain ⟨-, -, rfl⟩ | ⟨-, rfl⟩ := hanswer
      · exact ⟨none, hholds.1, Function.update_self ..⟩
      · exact hholds.drawn
  apply Keeps.bind (Q := fun _ w' => ∃ content, Holds quarantine content w')
  · apply hunlink.attempt
    intro r w' hr
    cases r with
    | ok _ => exact hr
    | error error =>
        dsimp only
        split
        · exact hr
        · exact hr
  · rintro _ w' ⟨content', hholds⟩
    exact (keeps_sync hholds).mono fun _ _ hdone => hdone.drawn
  · exact fun _ _ hr => hr

/-- The expected record is parsed as any other. -/
theorem canonicalExpected_some {canonical : PendingCreateRecord}
    (h : canonicalExpected node expected jobId jobToken = some canonical) :
    parsePendingCreate node expected = some canonical := by
  rw [canonicalExpected, Option.filter_eq_some_iff] at h
  exact h.1

/-- What stands in the quarantine is deleted if it is owned and linked back
otherwise. -/
theorem keeps_settle {canonical : PendingCreateRecord}
    (hcanonical : canonicalExpected node expected jobId jobToken = some canonical)
    (h : Holds quarantine content w) :
    Keeps node paths pendingPath expected jobId jobToken
      (settleQuarantine node paths pendingPath quarantine canonical jobId jobToken) w
      fun _ _ => True := by
  have hhook : Keeps node paths pendingPath expected jobId jobToken
      (Async.await .hook system : Co Unit) w fun _ w' => Holds quarantine content w' := by
    apply Keeps.await h
    · intro _ _
      trivial
    · intro w₁ r w₂ hholds hanswer
      obtain rfl := hanswer
      exact hholds
  have hlink : ∀ w', (∃ content, Holds quarantine content w') →
      Keeps node paths pendingPath expected jobId jobToken
        (Async.await (.link quarantine pendingPath) system : Co Unit) w' fun _ w'' =>
          ∃ content, Holds quarantine content w'' := by
    intro w' ⟨content', hholds⟩
    apply Keeps.await hholds
    · exact fun w₁ hholds₁ => ⟨hholds₁.1, rfl⟩
    · intro w₁ r w₂ hholds₁ hanswer
      obtain ⟨-, -, bytes, -, rfl⟩ | ⟨-, rfl⟩ := hanswer
      · exact ⟨_, hholds₁.1, rfl⟩
      · exact hholds₁.drawn
  apply Keeps.attempt (Q := fun _ w' => ∃ content, Holds quarantine content w')
  · apply hhook.bind
    · intro _ w' hholds
      apply (keeps_load hholds).bind
      · intro pending w'' ⟨hholds', hread⟩
        obtain ⟨bytes, rfl, hload⟩ := hread pending rfl
        by_cases hdiffers : (!pendingBindingIsValid node pending jobId jobToken
            || stringifyValue node pending.toValue ≠ stringifyValue node canonical.toValue) = true
        · rw [if_pos hdiffers]
          exact hholds'.drawn
        · rw [if_neg hdiffers]
          simp only [Bool.or_eq_true, Bool.not_eq_true', decide_eq_true_eq, not_or, not_not,
            Bool.not_eq_false] at hdiffers
          apply keeps_unlink hholds'
          intro bytes' hbytes'
          obtain rfl := Option.some.inj hbytes'
          exact ⟨canonical, pending, canonicalExpected_some hcanonical, hload, hdiffers.2,
            hdiffers.1⟩
      · exact fun _ _ hr => hr.1.drawn
    · exact fun _ _ hr => hr.drawn
  · intro r w' hdrawn
    cases r with
    | ok _ => trivial
    | error _ =>
        apply Keeps.attempt (Q := fun _ _ => True)
        · apply (hlink w' hdrawn).bind
          · intro _ w'' ⟨content', hholds⟩
            exact (keeps_sync hholds).mono fun _ _ _ => trivial
          · exact fun _ _ _ => trivial
        · exact fun _ _ _ => trivial

/-- The whole procedure, from a world in which it has done nothing. -/
theorem keeps_cleanup (hdrawn : w.drawn = none) (hrenamed : w.renamed = false) :
    Keeps node paths pendingPath expected jobId jobToken
      (quarantineRemoveOwnedPending node paths pendingPath expected jobId jobToken) w
      fun _ _ => True := by
  unfold quarantineRemoveOwnedPending
  cases hcanonical : canonicalExpected node expected jobId jobToken with
  | none => trivial
  | some canonical =>
      have hdraw : Keeps node paths pendingPath expected jobId jobToken
          (Async.await .draw .ok : Co (Nat × List Nat)) w fun r w' =>
            ∀ pid random, r = .ok (pid, random) →
              Holds (quarantinePath paths pendingPath pid random) none w' ∧ w'.renamed = false := by
        intro w₁ hext _
        obtain ⟨hdrawn₁, hrenamed₁, -⟩ := hext rfl
        refine ⟨fun _ => hdrawn₁.trans hdrawn, ?_⟩
        intro (pid, random) w₂ ⟨_, hanswer⟩ _ pid' random' hr
        obtain ⟨rfl, rfl⟩ := Prod.mk.inj (Except.ok.inj hr)
        obtain ⟨-, hfree, rfl⟩ := hanswer
        exact ⟨⟨rfl, hfree⟩, hrenamed₁.trans hrenamed⟩
      apply hdraw.bind
      · intro (pid, random) w₁ hdone
        obtain ⟨hholds, hnot⟩ := hdone pid random rfl
        have hrename : Keeps node paths pendingPath expected jobId jobToken
            (Async.await (.rename pendingPath (quarantinePath paths pendingPath pid random)) system
              : Co Unit) w₁ fun _ w' =>
              ∃ content, Holds (quarantinePath paths pendingPath pid random) content w' := by
          intro w₂ hext _
          have hholds₂ := hholds.others (hext rfl)
          refine ⟨fun _ => ⟨rfl, hholds₂.1, hholds₂.2, (hext rfl).2.1.trans hnot⟩, ?_⟩
          intro r w₃ ⟨_, hanswer⟩ _
          obtain ⟨-, bytes, -, rfl⟩ | ⟨-, rfl⟩ := hanswer
          · exact ⟨_, hholds₂.1, rfl⟩
          · exact hholds₂.drawn
        apply Keeps.attempt (Q := fun _ w' =>
          ∃ content, Holds (quarantinePath paths pendingPath pid random) content w')
        · apply hrename.bind
          · intro _ w₂ ⟨content', hholds₂⟩
            exact (keeps_sync hholds₂).mono fun _ _ hdone => hdone.drawn
          · exact fun _ _ hr => hr
        · intro r w₂ ⟨content', hholds₂⟩
          cases r with
          | ok _ => exact keeps_settle hcanonical hholds₂
          | error error =>
              dsimp only
              split
              · trivial
              · trivial
      · exact fun _ _ _ => trivial

/-- No effect of any other process than 0 is answered. -/
theorem wp_other {α : Type} {pid : Nat} (hpid : pid ≠ 0) (p : Prog Eff Resp α) (w : World) :
    wp (cleanupContract node paths pendingPath expected jobId jobToken) pid p
      (fun _ _ => True) w := by
  cases p with
  | ret a => trivial
  | op e k =>
      intro w₁ _ _
      refine ⟨fun h => absurd h hpid, ?_⟩
      intro r w₂ ⟨h, _⟩
      exact absurd h hpid

/-- **The contract is sound**, so it holds of every run. -/
theorem cleanup_sound :
    (cleanupContract node paths pendingPath expected jobId jobToken).Sound := by
  intro _ pid w _ hfresh _
  by_cases hpid : pid = 0
  · subst hpid
    obtain ⟨hdrawn, hrenamed⟩ := hfresh rfl
    apply wp_bind.2
    exact wp_mono (keeps_cleanup hdrawn hrenamed) fun _ _ _ => trivial
  · exact wp_other hpid _ w

end contract

end X402Async
