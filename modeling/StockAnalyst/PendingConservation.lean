import StockAnalyst.PendingCleanup
import StockAnalyst.Base64
import Mathlib.Data.List.DropRight

/-!
# Clean-up conserves foreign state

The steps of a run in which `quarantineRemoveOwnedPending` works beside other
processes, and what every one of them keeps.
-/

namespace X402Async

open Python Js Deliverable Coroutine

variable {node : Node} {paths : Paths} {pendingPath : JsStr} {expected : Value}
  {jobId jobToken : JsStr}

/-! ## Steps -/

variable (node paths pendingPath expected jobId jobToken) in
/-- A step of the procedure: process 0 performs the effect `e`. -/
def Performs (s t : Config (cleanup paths pendingPath node expected jobId jobToken)) (e : Eff) :
    Prop :=
  ∃ (k : Resp e → Prog Eff Resp Unit) (r : Resp e) (w : World), s.procs 0 = some (.op e k) ∧
    Answers paths pendingPath e s.world r w ∧
      t = { s with world := w, procs := Function.update s.procs 0 (some (k r)) }

/-- A step of the procedure is a step of the run. -/
theorem Performs.step
    {s t : Config (cleanup paths pendingPath node expected jobId jobToken)} {e : Eff}
    (h : Performs node paths pendingPath expected jobId jobToken s t e) :
    Step (cleanup paths pendingPath node expected jobId jobToken) s t := by
  obtain ⟨k, r, w, hproc, hanswer, rfl⟩ := h
  exact .act hproc ⟨rfl, hanswer⟩

theorem Others.refl (w : World) : Others w w := ⟨rfl, rfl, fun _ _ => rfl⟩

/-- A step is one of the procedure, or changes what other processes may. -/
theorem step_cases {s t : Config (cleanup paths pendingPath node expected jobId jobToken)}
    (h : Step (cleanup paths pendingPath node expected jobId jobToken) s t) :
    (∃ e, Performs node paths pendingPath expected jobId jobToken s t e) ∨
      Others s.world t.world := by
  cases h with
  | start _ => exact Or.inr (.refl _)
  | @act pid e k r w hproc hreact =>
      obtain ⟨rfl, hanswer⟩ := hreact
      exact Or.inl ⟨e, k, r, w, hproc, hanswer, rfl⟩
  | crash pid => exact Or.inr (.refl _)
  | env henv => exact Or.inr henv

variable (node pendingPath expected jobId jobToken) in
/-- What a step of the procedure changes. -/
inductive Change (w w' : World) : Prop
  | same (h : w' = w)
  | drawn (quarantine : JsStr) (hfirst : w.drawn = none) (hfree : w.files quarantine = none)
      (h : w' = { w with drawn := some quarantine })
  | moved (quarantine : JsStr) (content : List Nat) (hdrawn : w.drawn = some quarantine)
      (hne : quarantine ≠ pendingPath) (hfirst : w.renamed = false)
      (hfree : w.files quarantine = none) (hfile : w.files pendingPath = some content)
      (h : w' = { w with
        files := Function.update (Function.update w.files pendingPath none) quarantine
          (some content)
        renamed := true })
  | deleted (quarantine : JsStr) (content : List Nat) (hdrawn : w.drawn = some quarantine)
      (hfile : w.files quarantine = some content)
      (howned : Owned node expected jobId jobToken content)
      (h : w' = { w with files := Function.update w.files quarantine none })
  | restored (quarantine : JsStr) (content : List Nat) (hdrawn : w.drawn = some quarantine)
      (hfile : w.files quarantine = some content) (hfree : w.files pendingPath = none)
      (h : w' = { w with files := Function.update w.files pendingPath (some content) })

/-- What a permitted effect changes. -/
theorem Answers.change {e : Eff} {w w' : World} {r : Resp e}
    (hinv : ∀ quarantine, w.drawn = some quarantine → quarantine ≠ pendingPath)
    (hpermitted : Permitted node pendingPath expected jobId jobToken e w)
    (h : Answers paths pendingPath e w r w') :
    Change node pendingPath expected jobId jobToken w w' := by
  cases e with
  | draw =>
      obtain ⟨-, hfree, rfl⟩ := h
      exact .drawn _ hpermitted hfree rfl
  | rename source target =>
      obtain ⟨rfl, hdrawn, hfree, hfirst⟩ := hpermitted
      obtain ⟨-, content, hfile, rfl⟩ | ⟨-, rfl⟩ := h
      · exact .moved target content hdrawn (hinv target hdrawn) hfirst hfree hfile rfl
      · exact .same rfl
  | syncDirectory directory => exact .same h
  | hook => exact .same h
  | stat path =>
      obtain ⟨content, -, -, rfl⟩ | ⟨-, rfl⟩ := h
      · exact .same rfl
      · exact .same rfl
  | read path =>
      obtain ⟨content, -, -, rfl⟩ | ⟨-, rfl⟩ := h
      · exact .same rfl
      · exact .same rfl
  | unlink path =>
      obtain ⟨hdrawn, howned⟩ := hpermitted
      obtain ⟨-, hfile, rfl⟩ | ⟨-, rfl⟩ := h
      · obtain ⟨content, hcontent⟩ := Option.ne_none_iff_exists'.1 hfile
        exact .deleted path content hdrawn hcontent (howned content hcontent) rfl
      · exact .same rfl
  | link existing path =>
      obtain ⟨hdrawn, rfl⟩ := hpermitted
      obtain ⟨-, hfree, content, hfile, rfl⟩ | ⟨-, rfl⟩ := h
      · exact .restored existing content hdrawn hfile hfree rfl
      · exact .same rfl

/-- Every run keeps to the contract of the procedure. -/
theorem cleanup_holds {files : Files}
    {s : Config (cleanup paths pendingPath node expected jobId jobToken)}
    (h : Reach (cleanup paths pendingPath node expected jobId jobToken) (World.start files) s) :
    (cleanupContract node paths pendingPath expected jobId jobToken).Holds s := by
  apply Contract.reach cleanup_sound _ _ h
  · exact fun _ hdrawn => nomatch hdrawn
  · exact fun _ _ => ⟨rfl, rfl⟩

/-- In a run the procedure performs permitted effects only. -/
theorem Performs.permitted {files : Files}
    {s t : Config (cleanup paths pendingPath node expected jobId jobToken)} {e : Eff}
    (h : Reach (cleanup paths pendingPath node expected jobId jobToken) (World.start files) s)
    (hstep : Performs node paths pendingPath expected jobId jobToken s t e) :
    Permitted node pendingPath expected jobId jobToken e s.world := by
  obtain ⟨k, r, w, hproc, -, -⟩ := hstep
  have hholds := cleanup_holds h
  obtain ⟨hpermitted, -⟩ := hholds.live 0 _ hproc s.world
    ((cleanupContract node paths pendingPath expected jobId jobToken).ext_refl _ _) hholds.inv
  exact hpermitted rfl

/-- A step of the procedure changes the files as it is described. -/
theorem Performs.change {files : Files}
    {s t : Config (cleanup paths pendingPath node expected jobId jobToken)} {e : Eff}
    (h : Reach (cleanup paths pendingPath node expected jobId jobToken) (World.start files) s)
    (hstep : Performs node paths pendingPath expected jobId jobToken s t e) :
    Change node pendingPath expected jobId jobToken s.world t.world := by
  have hpermitted := hstep.permitted h
  obtain ⟨k, r, w, -, hanswer, rfl⟩ := hstep
  exact hanswer.change (cleanup_holds h).inv hpermitted

/-! ## Conservation -/

variable (pendingPath) in
/-- The content stands at the pending path or in the quarantine file. -/
def Present (content : List Nat) (w : World) : Prop :=
  w.files pendingPath = some content ∨
    ∃ quarantine, w.drawn = some quarantine ∧ w.files quarantine = some content

variable (node pendingPath expected jobId jobToken) in
/-- How a file comes to lose its content through the procedure: by the one move
to a free quarantine file, which keeps it, or by the deletion of an owned record
there. -/
inductive Loses (w w' : World) (path : JsStr) (content : List Nat) : Prop
  | moved (quarantine : JsStr) (hpath : path = pendingPath) (hfirst : w.renamed = false)
      (hlast : w'.renamed = true) (hfree : w.files quarantine = none)
      (hdrawn : w'.drawn = some quarantine) (hkept : w'.files quarantine = some content)
  | deleted (hpath : w.drawn = some path) (hgone : w'.files path = none)
      (howned : Owned node expected jobId jobToken content)

/-- A file loses its content in one of the two ways. -/
theorem Change.loses {w w' : World} {path : JsStr} {content : List Nat}
    (h : Change node pendingPath expected jobId jobToken w w')
    (hfile : w.files path = some content) (hlost : w'.files path ≠ some content) :
    Loses node pendingPath expected jobId jobToken w w' path content := by
  cases h with
  | same h =>
      subst h
      exact absurd hfile hlost
  | drawn quarantine hfirst hfree h =>
      subst h
      exact absurd hfile hlost
  | moved quarantine content' hdrawn hne hfirst hfree hfile' h =>
      subst h
      have hpath : path = pendingPath := by
        by_contra hother
        apply hlost
        have hnew : path ≠ quarantine := by
          rintro rfl
          exact nomatch hfree.symm.trans hfile
        simp only [Function.update_of_ne hnew, Function.update_of_ne hother, hfile]
      subst hpath
      obtain rfl := Option.some.inj (hfile'.symm.trans hfile)
      exact .moved quarantine rfl hfirst rfl hfree hdrawn (Function.update_self ..)
  | deleted quarantine content' hdrawn hfile' howned h =>
      subst h
      have hpath : path = quarantine := by
        by_contra hother
        apply hlost
        simp only [Function.update_of_ne hother, hfile]
      subst hpath
      obtain rfl := Option.some.inj (hfile'.symm.trans hfile)
      exact .deleted hdrawn (Function.update_self ..) howned
  | restored quarantine content' hdrawn hfile' hfree h =>
      subst h
      have hother : path ≠ pendingPath := by
        rintro rfl
        exact nomatch hfree.symm.trans hfile
      apply absurd _ hlost
      simp only [Function.update_of_ne hother, hfile]

/-- After the move the procedure leaves a file at the pending path alone. -/
theorem Change.pending_kept {w w' : World} {content : List Nat}
    (h : Change node pendingPath expected jobId jobToken w w')
    (hinv : ∀ quarantine, w.drawn = some quarantine → quarantine ≠ pendingPath)
    (hrenamed : w.renamed = true) (hfile : w.files pendingPath = some content) :
    w'.files pendingPath = some content := by
  by_contra hlost
  cases h.loses hfile hlost with
  | moved _ _ hfirst => exact nomatch hfirst.symm.trans hrenamed
  | deleted hpath => exact hinv pendingPath hpath rfl

/-- The procedure leaves a foreign content in the quarantine. -/
theorem Change.quarantined {w w' : World} {quarantine : JsStr} {content : List Nat}
    (h : Change node pendingPath expected jobId jobToken w w')
    (hinv : ∀ quarantine, w.drawn = some quarantine → quarantine ≠ pendingPath)
    (hforeign : ¬ Owned node expected jobId jobToken content)
    (hdrawn : w.drawn = some quarantine) (hfile : w.files quarantine = some content) :
    w'.drawn = some quarantine ∧ w'.files quarantine = some content := by
  have hkept : w'.files quarantine = some content := by
    by_contra hlost
    cases h.loses hfile hlost with
    | moved _ hpath => exact hinv quarantine hdrawn hpath
    | deleted _ _ howned => exact hforeign howned
  refine ⟨?_, hkept⟩
  cases h with
  | same h => exact h ▸ hdrawn
  | drawn _ hfirst => exact nomatch hfirst.symm.trans hdrawn
  | moved _ _ hdrawn' _ _ _ _ h => exact h ▸ hdrawn
  | deleted _ _ hdrawn' _ _ h => exact h ▸ hdrawn
  | restored _ _ hdrawn' _ _ h => exact h ▸ hdrawn

/-- The procedure keeps a foreign content at the pending path or in the
quarantine. -/
theorem Change.present {w w' : World} {content : List Nat}
    (h : Change node pendingPath expected jobId jobToken w w')
    (hinv : ∀ quarantine, w.drawn = some quarantine → quarantine ≠ pendingPath)
    (hforeign : ¬ Owned node expected jobId jobToken content)
    (hpresent : Present pendingPath content w) : Present pendingPath content w' := by
  rcases hpresent with hfile | ⟨quarantine, hdrawn, hfile⟩
  · by_cases hkept : w'.files pendingPath = some content
    · exact Or.inl hkept
    · cases h.loses hfile hkept with
      | moved quarantine _ _ _ _ hdrawn' hkept' => exact Or.inr ⟨quarantine, hdrawn', hkept'⟩
      | deleted _ _ howned => exact absurd howned hforeign
  · exact Or.inr ⟨quarantine, h.quarantined hinv hforeign hdrawn hfile⟩

/-- Other processes leave the quarantine file alone. -/
theorem Others.quarantined {w w' : World} {quarantine : JsStr} {content : List Nat}
    (h : Others w w') (hdrawn : w.drawn = some quarantine)
    (hfile : w.files quarantine = some content) :
    w'.drawn = some quarantine ∧ w'.files quarantine = some content :=
  ⟨h.1.trans hdrawn, (h.2.2 quarantine hdrawn).trans hfile⟩

variable (node paths pendingPath expected jobId jobToken) in
/-- A step of the procedure, or a step of others that does not take the content
from the pending path. -/
def Undisturbed (content : List Nat)
    (s t : Config (cleanup paths pendingPath node expected jobId jobToken)) : Prop :=
  (∃ e, Performs node paths pendingPath expected jobId jobToken s t e) ∨
    Step (cleanup paths pendingPath node expected jobId jobToken) s t ∧
      Others s.world t.world ∧ (s.world.files pendingPath = some content →
        t.world.files pendingPath = some content)

/-- A step that leaves a content alone is a step of the run. -/
theorem Undisturbed.step {content : List Nat}
    {s t : Config (cleanup paths pendingPath node expected jobId jobToken)}
    (h : Undisturbed node paths pendingPath expected jobId jobToken content s t) :
    Step (cleanup paths pendingPath node expected jobId jobToken) s t := by
  rcases h with ⟨e, hperforms⟩ | ⟨hstep, -⟩
  · exact hperforms.step
  · exact hstep

/-- **Clean-up destroys nothing foreign.**  In every run, stopped anywhere, each
step of the procedure is permitted: it takes the content of a file only by the
one move into a free quarantine file or by the deletion of an owned record there,
and after the move it leaves what stands at the pending path.  A foreign content
in the quarantine is there for ever, and one at the pending path is there or in
the quarantine for as long as no other process removes it. -/
theorem quarantineRemoveOwnedPending_conserves {files : Files}
    {s : Config (cleanup paths pendingPath node expected jobId jobToken)}
    (h : Reach (cleanup paths pendingPath node expected jobId jobToken) (World.start files) s) :
    (∀ t e, Performs node paths pendingPath expected jobId jobToken s t e →
      Permitted node pendingPath expected jobId jobToken e s.world ∧
      (∀ path content, s.world.files path = some content →
        t.world.files path ≠ some content →
          Loses node pendingPath expected jobId jobToken s.world t.world path content) ∧
      (s.world.renamed = true → ∀ content, s.world.files pendingPath = some content →
        t.world.files pendingPath = some content)) ∧
    ∀ content, ¬ Owned node expected jobId jobToken content →
      (∀ quarantine, s.world.drawn = some quarantine → s.world.files quarantine = some content →
        ∀ t, Relation.ReflTransGen
            (Step (cleanup paths pendingPath node expected jobId jobToken)) s t →
          t.world.drawn = some quarantine ∧ t.world.files quarantine = some content) ∧
      (Present pendingPath content s.world →
        ∀ t, Relation.ReflTransGen
            (Undisturbed node paths pendingPath expected jobId jobToken content) s t →
          Present pendingPath content t.world) := by
  have hreach : ∀ t, Relation.ReflTransGen
      (Step (cleanup paths pendingPath node expected jobId jobToken)) s t →
        Reach (cleanup paths pendingPath node expected jobId jobToken) (World.start files) t := by
    intro t ht
    induction ht with
    | refl => exact h
    | tail _ hstep ih => exact ih.step hstep
  refine ⟨?_, ?_⟩
  · intro t e hstep
    have hchange := hstep.change h
    refine ⟨hstep.permitted h, fun _ _ hfile hlost => hchange.loses hfile hlost, ?_⟩
    exact fun hrenamed _ hfile => hchange.pending_kept (cleanup_holds h).inv hrenamed hfile
  · intro content hforeign
    refine ⟨?_, ?_⟩
    · intro quarantine hdrawn hfile t ht
      induction ht with
      | refl => exact ⟨hdrawn, hfile⟩
      | tail hbefore hstep ih =>
          have hbetween := hreach _ hbefore
          rcases step_cases hstep with ⟨e, hperforms⟩ | hothers
          · exact (hperforms.change hbetween).quarantined (cleanup_holds hbetween).inv hforeign
              ih.1 ih.2
          · exact hothers.quarantined ih.1 ih.2
    · intro hpresent t ht
      have hsteps : Undisturbed node paths pendingPath expected jobId jobToken content ≤
          Step (cleanup paths pendingPath node expected jobId jobToken) := fun _ _ hu => hu.step
      induction ht with
      | refl => exact hpresent
      | tail hbefore hstep ih =>
          have hbetween := hreach _ (Relation.ReflTransGen.mono hsteps _ _ hbefore)
          rcases hstep with ⟨e, hperforms⟩ | ⟨-, hothers, hkept⟩
          · exact (hperforms.change hbetween).present (cleanup_holds hbetween).inv hforeign ih
          · rcases ih with hfile | ⟨quarantine, hdrawn, hfile⟩
            · exact Or.inl (hkept hfile)
            · exact Or.inr ⟨quarantine, hothers.quarantined hdrawn hfile⟩

/-! ## A run -/

/-- The paths of a POSIX system, for a path with a directory in it. -/
def samplePaths : Paths where
  dirname := fun path => (path.rdropWhile (· ≠ 47)).dropLast
  basename := fun path => path.rtakeWhile (· ≠ 47)
  join := fun directory name => directory ++ 47 :: name
  basename_join := by
    intro directory name _ hslash
    have hname : ∀ c ∈ name.reverse, decide (c ≠ 47) = true := by
      intro c hc
      apply decide_eq_true
      rintro rfl
      exact hslash (List.mem_reverse.1 hc)
    rw [List.rtakeWhile, List.reverse_append, List.reverse_cons, List.append_assoc,
      List.takeWhile_append_of_pos hname]
    simp
  basename_slash := by
    intro path hmem
    have := List.mem_rtakeWhile_imp hmem
    simp at this

def sampleProof : JsStr :=
  js ("\x7b\"accepted\":\x7b\"asset\":\"0xcE24439F2D9C6a2289F741120FE202248B666666\","
    ++ "\"payTo\":\"0xaaaaaaaaaaaaaaaaaaaaaaaaaaaaaaaaaaaaaaaa\","
    ++ "\"amount\":\"100000000000000000\",\"extra\":\x7b\"name\":\"United Stables\","
    ++ "\"version\":\"1\",\"assetTransferMethod\":\"eip3009\","
    ++ "\"signerAddress\":\"0xbbbbbbbbbbbbbbbbbbbbbbbbbbbbbbbbbbbbbbbb\"\x7d\x7d,"
    ++ "\"payload\":\x7b\"authorization\":\x7b\"validBefore\":\"2\"\x7d\x7d\x7d")

/-- The MAC of the record below for the job below and the token `token`. -/
def sampleMac : List Nat :=
  [10, 221, 4, 232, 201, 222, 185, 63, 7, 99, 238, 125, 240, 247, 241, 101, 248, 142, 192, 103,
    3, 175, 4, 4, 27, 136, 6, 44, 150, 139, 85, 28]

def sampleNode : Node where
  number := fun _ => .nan
  numberText := fun x => if x = .finite false 1 then js "1" else js "2000"
  base64Text := fun _ => sampleProof
  base64Url := fun _ => sampleMac
  utf8Text := id
  hmacSha256 := fun _ _ => sampleMac

def sampleJob : JsStr := js "x402_00000000000000000000000000000000"

def sampleExpected : Value :=
  .obj [(js "version", natValue 1), (js "paymentProof", .str (base64Encode sampleProof)),
    (js "request", .obj [(js "symbols", .arr [.str (js "AAPL")])]),
    (js "createdAt", natValue 1), (js "proofExpiresAt", natValue 2000),
    (js "recoveryExpiresAt", natValue (1 + pendingRecoveryMilliseconds)),
    (js "jobId", .str sampleJob),
    (js "binding", .obj [(js "version", natValue 1),
      (js "mac", .str (js "Ct0E6MneuT8HY-598PfxZfiOwGcDrwQEG4gGLJaLVRw"))])]

theorem sampleExpected_valid :
    (canonicalExpected sampleNode sampleExpected sampleJob (js "token")).isSome = true := by
  decide +kernel

/-- The clean-up of `/p/record`. -/
abbrev sampleCleanup : Machine :=
  cleanup samplePaths (js "/p/record") sampleNode sampleExpected sampleJob (js "token")

def sampleQuarantine : JsStr := js "/p/.record.7.0001020304050607.quarantine"

/-- The first two effects of a clean-up with a valid expected record. -/
theorem sampleCleanup_begins : ∃ k, sampleCleanup.body () = .op .draw k ∧
    ∀ pid random, ∃ k', k (pid, random) = .op (.rename (js "/p/record")
      (quarantinePath samplePaths (js "/p/record") pid random)) k' := by
  obtain ⟨canonical, hcanonical⟩ := Option.isSome_iff_exists.1 sampleExpected_valid
  simp only [sampleCleanup, cleanup, quarantineRemoveOwnedPending, hcanonical]
  exact ⟨_, rfl, fun _ _ => ⟨_, rfl⟩⟩

def sampleWorld : World :=
  ⟨fun path => if path = js "/p/record" then some [] else none, some sampleQuarantine, false⟩

theorem sampleWorld_file : sampleWorld.files (js "/p/record") = some [] := by
  simp [sampleWorld]

/-- The quarantine file of the sample is another one. -/
theorem sampleQuarantine_ne : sampleQuarantine ≠ js "/p/record" := by decide

/-- Another process creates an empty file once the quarantine name is drawn. -/
theorem sample_reach : ∃ s : Config sampleCleanup,
    Reach sampleCleanup (World.start fun _ => none) s ∧ s.world = sampleWorld ∧
      ∃ k, s.procs 0 = some (.op (.rename (js "/p/record") sampleQuarantine) k) := by
  obtain ⟨k, hbody, hrename⟩ := sampleCleanup_begins
  obtain ⟨k', hk'⟩ := hrename 7 [0, 1, 2, 3, 4, 5, 6, 7]
  have hname : quarantinePath samplePaths (js "/p/record") 7 [0, 1, 2, 3, 4, 5, 6, 7] =
      sampleQuarantine := by decide +kernel
  rw [hname] at hk'
  let started := (Config.initial sampleCleanup (World.start fun _ => none)).start ()
  have hstart : Reach sampleCleanup (World.start fun _ => none) started :=
    Reach.refl.step (.start trivial)
  have hproc : started.procs 0 = some (.op .draw k) := congrArg some hbody
  have hreact : sampleCleanup.react 0 .draw started.world (7, [0, 1, 2, 3, 4, 5, 6, 7])
      ⟨fun _ => none, some sampleQuarantine, false⟩ :=
    ⟨rfl, ⟨by decide, by decide⟩, rfl, by rw [hname]; rfl⟩
  have hdraw := hstart.step (.act hproc hreact)
  refine ⟨_, hdraw.step (.env (w := sampleWorld) ⟨rfl, rfl, ?_⟩), rfl, k', ?_⟩
  · intro quarantine hdrawn
    obtain rfl := Option.some.inj hdrawn
    simp [Config.startAll_world, sampleWorld, sampleQuarantine_ne]
  · exact congrArg some hk'

/-- An empty file is not an owned record. -/
theorem sample_foreign : ¬ Owned sampleNode sampleExpected sampleJob (js "token") [] := by
  intro ⟨_, pending, _, hload, _⟩
  exact nomatch (show loadPendingCreate sampleNode [] = none from rfl).symm.trans hload

/-- In that run the empty file is never lost. -/
theorem sample_conserved : ∃ s : Config sampleCleanup,
    s.procs 0 ≠ none ∧ s.world.files (js "/p/record") = some [] ∧
      (∀ t e, Performs sampleNode samplePaths (js "/p/record") sampleExpected sampleJob
          (js "token") s t e → Permitted sampleNode (js "/p/record") sampleExpected sampleJob
            (js "token") e s.world) ∧
      ∀ t, Relation.ReflTransGen (Undisturbed sampleNode samplePaths (js "/p/record")
          sampleExpected sampleJob (js "token") []) s t →
        Present (js "/p/record") [] t.world := by
  obtain ⟨s, hreach, hworld, k, hproc⟩ := sample_reach
  have hfile : s.world.files (js "/p/record") = some [] := hworld ▸ sampleWorld_file
  have hconserves := quarantineRemoveOwnedPending_conserves hreach
  refine ⟨s, by simp [hproc], hfile, fun t e hstep => (hconserves.1 t e hstep).1, ?_⟩
  exact (hconserves.2 [] sample_foreign).2 (Or.inl hfile)

/-- A file that another process places at the pending path before the move is
moved away from there, owned or not. -/
theorem new_file_moved : ∃ s t : Config sampleCleanup,
    Reach sampleCleanup (World.start fun _ => none) s ∧ s.world.drawn ≠ none ∧
      Performs sampleNode samplePaths (js "/p/record") sampleExpected sampleJob (js "token") s t
        (.rename (js "/p/record") sampleQuarantine) ∧
      s.world.files (js "/p/record") = some [] ∧
      ¬ Owned sampleNode sampleExpected sampleJob (js "token") [] ∧
      t.world.files (js "/p/record") = none := by
  obtain ⟨s, hreach, hworld, k, hproc⟩ := sample_reach
  have hfile : s.world.files (js "/p/record") = some [] := hworld ▸ sampleWorld_file
  have hanswer : Answers samplePaths (js "/p/record")
      (.rename (js "/p/record") sampleQuarantine) s.world (.ok ())
      ⟨Function.update (Function.update sampleWorld.files (js "/p/record") none)
        sampleQuarantine (some []), some sampleQuarantine, true⟩ := by
    rw [hworld]
    exact Or.inl ⟨rfl, [], sampleWorld_file, rfl⟩
  refine ⟨s, _, hreach, ?_, ⟨k, .ok (), _, hproc, hanswer, rfl⟩, hfile, sample_foreign, ?_⟩
  · rw [hworld]
    exact Option.some_ne_none _
  · simp [sampleQuarantine_ne.symm]

end X402Async
