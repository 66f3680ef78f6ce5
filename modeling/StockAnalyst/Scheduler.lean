import StockAnalyst.JobExecution
import StockAnalyst.PyAscii

/-!
# Scripted runs

A script names, step by step, which process moves, how its effect is answered
and what the environment does.  `play` follows a script wherever the world
allows it, so a script that plays through is a run of the service
(`play_runs`).
-/

namespace X402

open Python ConditionalStore Coroutine

/-! ## Replies -/

/-- A reply the world can give to an effect. -/
structure Given (e : Eff) (w : World) where
  reply : Resp e
  landed : Bool
  possible : Answer e w reply landed

/-- How a script has an effect answered. -/
inductive Reply where
  | plain
  | fault (f : Fault) (landed : Bool)
  | refused (landed : Bool)
  | clock (now : Int)
  | token (text : PyStr)
  | http (status : Nat) (body : Json)
  | used (now : Bool)
  | stream (events : List (PyStr × Json))

section replies

variable {w : World}

/-- The reply of a conditional write that nothing disturbs. -/
def plainPut (held expect : Option Nat) (next : Nat) :
    { p : PutReply Fault × Bool // Puts held expect next p.1 p.2 } :=
  if h : held = expect then ⟨(.done next, true), .done h⟩
  else ⟨(.preconditionFailed, false), .refused h⟩

/-- The reply of a conditional write whose request fails. -/
def faultPut (held expect : Option Nat) (next : Nat) (f : Fault) :
    Bool → Option { p : PutReply Fault × Bool // Puts held expect next p.1 p.2 }
  | false => some ⟨(.fault f, false), .fault f⟩
  | true =>
      if h : held = expect then some ⟨(.fault f, true), .faultAfter f h⟩ else none

/-- The reply of a conditional write whose precondition failed, the second
time its client sent it where the first time it landed. -/
def refusedPut (held expect : Option Nat) (next : Nat) :
    Bool → Option { p : PutReply Fault × Bool // Puts held expect next p.1 p.2 }
  | false =>
      if h : held = expect then none
      else some ⟨(.preconditionFailed, false), .refused h⟩
  | true =>
      if h : held = expect then
        some ⟨(.preconditionFailed, true), .refusedAfter h⟩
      else none

/-- What an effect is answered when nothing goes wrong.  Facilitators,
streams and random tokens have no such answer. -/
def plainReply : (e : Eff) → (w : World) → Option (Given e w)
  | .clock _, w => some ⟨w.time, false, rfl⟩
  | .monotonic _, w => some ⟨((w.time / 1000 : Int) : ℚ), false, rfl⟩
  | .sleep, _ => some ⟨.ok (), false, rfl⟩
  | .interrupted, _ => some ⟨false, false, rfl⟩
  | .timedOut, _ => some ⟨false, false, rfl⟩
  | .getJob job, w => some ⟨.ok (jobAt job w.log), false, rfl, rfl⟩
  | .putJob put, w =>
      let given := plainPut ((jobTag put.job w.log).map (·.serial))
        (put.expect.map (·.serial)) (jobSerial put.job w.log + 1)
      some ⟨given.1.1, given.1.2, given.2⟩
  | .getWallet digest, w => some ⟨.ok (walletAt digest w.log), false, rfl, rfl⟩
  | .putWallet put, w =>
      let given := plainPut ((walletAt put.digest w.log).map (·.serial))
        (put.expect.map (·.serial)) (serial Entry.walletWrite put.digest w.log + 1)
      some ⟨given.1.1, given.1.2, given.2⟩
  | .getMarker job, w => some ⟨.ok (markerAt job w.log), false, rfl, rfl⟩
  | .putMarker job _, w =>
      let given := plainPut ((markerAt job w.log).map (fun _ => 1)) none 1
      some ⟨given.1.1, given.1.2, given.2⟩
  | .report _ _ _, _ => some ⟨.ok true, false, rfl⟩
  | .putReport _ _ _, _ => some ⟨.ok (), true, fun _ => rfl⟩
  | .presign _ _, _ => some ⟨.ok [], false, rfl⟩
  | .kinds inst, w => some ⟨kindsAt inst w.log, false, rfl, rfl⟩
  | .cacheKinds _ _ _, _ => some ⟨(), false, rfl⟩
  | .lockKinds inst, w =>
      if h : kindsLocked inst w.log = false then some ⟨.ok (), false, fun _ => h, rfl⟩
      else none
  | .unlockKinds _, _ => some ⟨(), false, rfl⟩
  | .authorizationState key, w => some ⟨.ok (chainAt key w.log).isSome, false, rfl⟩
  | .streamWork _ _ _ _ _, _ => some ⟨(), false, rfl⟩
  | .newCell _ _ _, w =>
      if h : cellTaken w.log.length w.log = false then
        some ⟨w.log.length, false, h, rfl⟩
      else none
  | .getHolder cell, w =>
      match h : holderAt cell w.log with
      | some stored => some ⟨stored, false, h, rfl⟩
      | none => none
  | .setHolder _ _, _ => some ⟨(), false, rfl⟩
  | .leaseLost cell, w => some ⟨leaseLostAt cell w.log, false, rfl, rfl⟩
  | .setLeaseLost _, _ => some ⟨(), false, rfl⟩
  | .heartbeatDone _, _ => some ⟨(), false, rfl⟩
  | .cancelHeartbeat _, _ => some ⟨(), false, rfl⟩
  | .joinHeartbeat cell, w =>
      if h : heartbeatDoneAt cell w.log = true then
        some ⟨.ok (), false, fun _ => h, rfl⟩
      else none
  | .spawnTask kind inst job, w =>
      some ⟨!taskActiveAt kind inst job w.log, false, rfl, rfl⟩
  | .taskDone _ _ _, _ => some ⟨(), false, rfl⟩
  | .taskActive inst job, w =>
      some ⟨taskActiveAt .execution inst job w.log, false, rfl, rfl⟩
  | .joinTask inst job, w =>
      if h : taskActiveAt .execution inst job w.log = false then
        some ⟨.ok (), false, fun _ => h, rfl⟩
      else none
  | .fork _, _ => some ⟨(), false, rfl⟩
  | .note _, _ => some ⟨(), false, rfl⟩
  | _, _ => none

/-- An awaited call that fails. -/
def faultReply (f : Fault) (landed : Bool) :
    (e : Eff) → (w : World) → Option (Given e w)
  | .sleep, _ => if landed then none else some ⟨.error f, false, rfl⟩
  | .getJob _, _ => if landed then none else some ⟨.error f, false, trivial, rfl⟩
  | .putJob put, w =>
      (faultPut ((jobTag put.job w.log).map (·.serial)) (put.expect.map (·.serial))
        (jobSerial put.job w.log + 1) f landed).map
        fun given => ⟨given.1.1, given.1.2, given.2⟩
  | .putWallet put, w =>
      (faultPut ((walletAt put.digest w.log).map (·.serial))
        (put.expect.map (·.serial)) (serial Entry.walletWrite put.digest w.log + 1)
        f landed).map
        fun given => ⟨given.1.1, given.1.2, given.2⟩
  | .post _ _ _, _ => if landed then none else some ⟨.error f, false, rfl⟩
  | .authorizationState _, _ =>
      if landed then none else some ⟨.error f, false, rfl⟩
  | _, _ => none

/-- The reply a script asks for, where the world can give it. -/
def Reply.given : Reply → (e : Eff) → (w : World) → Option (Given e w)
  | .plain, e, w => plainReply e w
  | .fault f landed, e, w => faultReply f landed e w
  | .refused landed, .putJob put, w =>
      (refusedPut ((jobTag put.job w.log).map (·.serial))
        (put.expect.map (·.serial)) (jobSerial put.job w.log + 1) landed).map
        fun given => ⟨given.1.1, given.1.2, given.2⟩
  | .clock now, .clock _, _ => some ⟨now, false, rfl⟩
  | .token text, .tokenHex, _ =>
      if h : isReportId text = true then some ⟨⟨text, h⟩, false, rfl⟩ else none
  | .http status body, .post _ _ _, _ =>
      some ⟨.ok ⟨status, some body⟩, false, rfl⟩
  | .used now, .authorizationState _, _ => some ⟨.ok now, false, rfl⟩
  | .stream events, .streamEnd _ _, _ => some ⟨⟨events, .ok ()⟩, false, rfl⟩
  | _, _, _ => none

end replies

/-! ## Scripts -/

/-- One step of a script. -/
inductive Choice where
  | start (call : Call)
  | act (pid : Nat) (reply : Reply)
  | crash (pid : Nat)
  | wait (time : Int)
  | chain (key : AuthKey) (use : AuthUse)

/-- A process performs effects in a row, each with its plain reply. -/
def plainly (pid n : Nat) : List Choice :=
  List.replicate n (.act pid .plain)

variable {D : Deployment}

def Call.isExternal : Call → Bool
  | .createJob .. => true
  | .getJob .. => true
  | .resumeJob .. => true
  | _ => false

/-- A call that comes from outside. -/
theorem Call.external_of {call : Call} (h : call.isExternal = true) :
    call.External := by
  cases call <;> first | exact trivial | cases h

variable (D) in
/-- Make one choice, where the world allows it. -/
def choose (s : Config (service D)) : Choice → Option (Config (service D))
  | .start call => if call.isExternal then some (s.start call) else none
  | .act pid reply =>
      match s.procs pid with
      | some (.op e k) =>
          (reply.given e s.world).map fun given =>
            Config.startAll (M := service D)
              { s with
                world := s.world.record (.did pid e given.reply given.landed)
                procs := Function.update s.procs pid (some (k given.reply)) }
              (forks e)
      | _ => none
  | .crash pid => some { s with procs := Function.update s.procs pid none }
  | .wait time =>
      if s.world.time ≤ time then some { s with world := ⟨time, s.world.log⟩ }
      else none
  | .chain key use =>
      if (chainAt key s.world.log).isNone then
        some { s with world := s.world.record (.chainUsed key use) }
      else none

/-- A choice that can be made is a step. -/
theorem choose_step {s t : Config (service D)} {c : Choice}
    (h : choose D s c = some t) : Step (service D) s t := by
  cases c with
  | start call =>
      dsimp only [choose] at h
      split at h
      · rename_i hext
        cases h
        exact Step.start (Call.external_of hext)
      · cases h
  | act pid reply =>
      dsimp only [choose] at h
      split at h
      · rename_i e k hproc
        obtain ⟨given, -, rfl⟩ := Option.map_eq_some_iff.1 h
        exact Step.act hproc ⟨given.landed, given.possible, rfl⟩
      · cases h
  | crash pid =>
      cases h
      exact Step.crash pid
  | wait time =>
      dsimp only [choose] at h
      split at h
      · rename_i htime
        cases h
        exact Step.env (Env.tick htime)
      · cases h
  | chain key use =>
      dsimp only [choose] at h
      split at h
      · rename_i hfree
        cases h
        exact Step.env (Env.chain (Option.isNone_iff_eq_none.1 hfree))
      · cases h

variable (D) in
/-- Follow a script to its end. -/
def play (s : Config (service D)) : List Choice → Option (Config (service D))
  | [] => some s
  | c :: script =>
      match choose D s c with
      | some t => play t script
      | none => none

/-- **A script that plays through is a run.** -/
theorem play_runs {s t : Config (service D)} {script : List Choice}
    (h : play D s script = some t) : Runs D s t := by
  induction script generalizing s with
  | nil =>
      cases h
      exact Relation.ReflTransGen.refl
  | cons c script ih =>
      unfold play at h
      split at h
      · rename_i u hchoose
        exact Relation.ReflTransGen.head (choose_step hchoose) (ih h)
      · cases h

/-! ## A deployment to run scripts on -/

/-- Bytes as one number. -/
def bytesNat (bytes : List Nat) : Nat := bytes.foldl (fun n b => n * 256 + b) 0

/-- A number as thirty-two bytes. -/
def wordBytes (n : Nat) : List Nat :=
  (List.range 32).map (fun i => n / 256 ^ (31 - i) % 256)

def wordDigest (n : Nat) : Digest :=
  ⟨wordBytes n, by simp [wordBytes], by
    intro b hb
    obtain ⟨i, -, rfl⟩ := List.mem_map.1 hb
    exact Nat.mod_lt _ (by decide)⟩

/-- What a hash function is looked up by. -/
def hashKey (bytes : List Nat) : Nat := bytesNat bytes % (2 ^ 61 - 1)

/-- Keccak-256 of what the check of the sample proofs hashes. -/
def sampleKeccak : List (Nat × Nat) :=
  [(0x189eaa9446703d4,
    0x8b73c3c69bb8fe3d512ecc4cf759cc79239f7b179b0ffacaa9a75d522b39400f),
   (0x561fd4ae0f9094,
    0x66693480725bd6e831af68ab173c3c26ad821fa40b75357d5da67c09d682fb0e),
   (0x31,
    0xc89efdaa54c0f20c7adf612882df0950f5a951637e0307cdcb4c672f298b8bc6),
   (0x18b7e383071cf6ec,
    0x358738403e5a61fdc30a8be78a60f289cbe4d2545b735a344b6229c70c1679b6),
   (0xe3c05073a26f3,
    0x7c7c6cdb67a18743f49ec6fa9b35f50d52ed05cbed4cc592e13b44501c1a2267),
   (0x1263823a3fd25ab3,
    0x62bc18890d61f8662e47aec1ef71fded7aff06a6f018906ca76b820f1a80d54b),
   (0xced0d415b804465,
    0xd43b742bd5d836b6d382718dd81da9845298d29b6f6491cbd5c11564928c707a)]

/-- SHA-256 of what the sample runs hash. -/
def sampleSha256 : List (Nat × Nat) :=
  [(0x55e0bb0504cc4ac,
    0x3f9df0694120b10bdab83301023d00ebd84e57c189ca7fbc5737b2363a436dd5),
   (0x1fcd98753947ec25,
    0x09d869214130f81d330643f0f62f468adbf9d15132e9f304c8f5ce484aace399),
   (0x2716adb916d82b4,
    0x4697d919f846b77fda9f047896115e975b0d59e746e2ffe502c0bf0f43309b18),
   (0xd24b16faf6cf5ef,
    0xadf60ba7b08dac4e00f6fb820436b5b693ccc5df69dea114db44136566d20f73),
   (0x973154736f770e2,
    0xdca82e2c3ac6113218a7819816536d5458be9d4302d21c4cfd7200f3575f31eb),
   (0x157b0a6108a98f2e,
    0xc4f4cfd11dc838418ebf2abb6453ab2e612138b744df8ac4eb51790abb98c827),
   (0x1117337bb11c59d7,
    0x57d35aba485650bc74ff2864d59953da2419124231a54ddb4e051b51dd0df9e8),
   (0xfd30c39a08c8f6c,
    0x6d2eea7ccb2e53797b8312f018be2a37602c210d049ab0d4d031549b7bd04f15),
   (0xc225242b5d7d1a5,
    0x2c8619cb239e74fbc12a173c696c62b55b1e63103d6cb8fd46ea286e071ba050)]

def samplePayer : PyStr := py "0x62d283fe6939c01fc88f02c6d2c9a547cc3e2656"

def samplePayTo : PyStr := py "0x2b5ad5c4795c026514f8317c7a215e218dccd6cf"

def sampleSignature : PyStr :=
  py "0x79aceb715b65b34bf9c3fd2a735ee0e8ada67e7fa0a4efa33bb761751c0d1ad5" ++
  py "4ba2179284af6c66cabdfa10d8273ca35de0edc3dd3c79b2610bfa89afaf72781c"

def sampleExtra : List (PyStr × Json) :=
  [(py "name", .str (py "United Stables")),
   (py "version", .str (py "1")),
   (py "assetTransferMethod", .str (py "eip3009")),
   (py "signerAddress", .str (py "0x6813eb9362372eef6200f3b1dbc3f819671cba69"))]

/-- An EIP-3009 proof of one payment in U; the resource is not signed. -/
def sampleProof (url : PyStr) : List (PyStr × Json) :=
  [(py "x402Version", .int 2),
   (py "resource", .obj [(py "url", .str url)]),
   (py "accepted", .obj (buildPaymentRequirement samplePayTo uToken sampleExtra)),
   (py "payload", .obj
     [(py "signature", .str sampleSignature),
      (py "authorization", .obj
        [(py "from", .str samplePayer),
         (py "to", .str samplePayTo),
         (py "value", .str (intText priceWei)),
         (py "validAfter", .str (py "1700000000")),
         (py "validBefore", .str (py "1700003000")),
         (py "nonce", .str (py
           "0x0000000000000000000000000000000000000000000000000000000000000007"))])])]

def proofText (url : PyStr) : PyStr :=
  ((Json.obj (sampleProof url)).dumps asciiLib).getD []

/-- The header a buyer sends for the payment. -/
def sampleHeader (url : PyStr) : PyStr := base64Encode (proofText url)

def sampleUrl : PyStr := py "https://x402.example/jobs"

/-- A second resource under which the same authorization is sent. -/
def otherUrl : PyStr := py "https://x402.example/jobs/"

/-- ASCII Python with the sample headers. -/
def sampleLib : PyLib :=
  { asciiLib with
    b64decode := fun value =>
      [sampleUrl, otherUrl].findSome? fun url =>
        if sampleHeader url = value then some (proofText url) else none
    loadsFinite := fun text =>
      [sampleUrl, otherUrl].findSome? fun url =>
        if proofText url = text then some (.obj (sampleProof url)) else none }

theorem sampleLib_ascii : sampleLib.Ascii :=
  ⟨fun _ _ => rfl, fun _ _ => rfl, fun _ _ => rfl, fun _ _ => rfl⟩

def sampleEthereum : Ethereum where
  keccak := fun bytes => wordBytes ((sampleKeccak.lookup (hashKey bytes)).getD 0)
  recoverHash := fun digest signature =>
    if bytesNat digest =
          0xd43b742bd5d836b6d382718dd81da9845298d29b6f6491cbd5c11564928c707a ∧
        signature = sampleSignature then some samplePayer else none
  addressWord := fun s =>
    if isEvmAddress s then (fromHex (s.drop 2)).map (List.replicate 12 0 ++ ·) else none

/-- Two instances with the generic facilitator and any number with B402. -/
def sampleService (inst : Nat) : Service where
  owner := py "worker-" ++ natDigits inst
  owner_ascii := by
    intro c hc
    have hname : ∀ c ∈ py "worker-", c < 128 := by decide
    rcases List.mem_append.1 hc with h | h
    · exact hname c h
    · obtain ⟨d, hd, rfl⟩ := List.mem_map.1 h
      have := Nat.digits_lt_base (by decide) (List.mem_reverse.1 hd)
      omega
  acceptNewJobs := true
  b402 := 2 ≤ inst
  facilitator := true
  walletAttempts := 16
  observerAttempts := 3
  accountingAttempts := 3
  walletAttempts_range := by decide
  observerAttempts_range := by decide
  accountingAttempts_range := by decide

def sample : Deployment where
  verify := ⟨sampleLib, sampleEthereum, samplePayTo, by decide +kernel⟩
  sha256 := fun bytes => wordDigest ((sampleSha256.lookup (hashKey bytes)).getD 0)
  tokenSecret := (List.range 32).map (· + 1)
  service := sampleService
  buildPrompt := fun _ _ _ => .ok (py "prompt", [])

def sampleRequest : List (PyStr × Json) :=
  [(py "symbols", .arr [.str (py "BNB")])]

/-! ## Runs of the sample deployment -/

def settledReply : Reply :=
  .http 200 (.obj [(py "success", .bool true), (py "transaction", .str (py "0xabc"))])

/-- One buyer pays at the first instance and the job enters the queue. -/
def paidScript : List Choice :=
  .start (.createJob 0 (sampleHeader sampleUrl) sampleRequest) ::
    (plainly 0 12 ++ .act 0 settledReply :: plainly 0 16)

/-- The worker of the queued job claims it and starts its first stream. -/
def workScript : List Choice :=
  .act 2 (.token (py "00000000000000000000000000000001")) :: plainly 2 8

/-- A successful B402 response. -/
def b402Reply (data : List (PyStr × Json)) : Reply :=
  .http 200 (.obj [(py "code", .str (py "000000")), (py "data", .obj data)])

/-- The supported kinds with the extra of the sample proof. -/
def kindsReply : Reply :=
  b402Reply [(py "kinds", .arr [.obj
    [(py "x402Version", .int 2),
     (py "scheme", .str (py "exact")),
     (py "network", .str (py "eip155:56")),
     (py "extra", .obj sampleExtra)]])]

def sampleJob : PyStr := py "x402_09d869214130f81d330643f0f62f468a"

/-- The authorization nonce of the sample proof. -/
def sampleKey : AuthKey := ⟨uToken.asset, samplePayer, List.replicate 31 0 ++ [7]⟩

/-- The transfer that the sample proof authorizes. -/
def sampleTransfer : AuthUse := .transfer samplePayTo priceWei 1700000000 1700003000

/-- A script from the empty store. -/
def playSample (script : List Choice) : Option (Config (service sample)) :=
  play sample (Config.initial (service sample) (World.empty 1700000100000)) script

/-- A script that plays through ends in a reachable state with what can be
checked of it. -/
theorem exists_run (script : List Choice) (check : Config (service sample) → Bool)
    (h : (playSample script).any check = true) :
    ∃ s, Reachable sample s ∧ check s = true := by
  obtain ⟨s, hplay, hcheck⟩ := (Option.any_eq_true _ _).1 h
  exact ⟨s, Reachable.run ⟨1700000100000, Reach.refl⟩ (play_runs hplay), hcheck⟩

/-- A script continues from a reachable state. -/
theorem exists_runs (script script' : List Choice)
    (check : Config (service sample) → Config (service sample) → Bool)
    (h : (playSample script).any (fun s => (play sample s script').any (check s)) =
      true) :
    ∃ s t, Reachable sample s ∧ Runs sample s t ∧ check s t = true := by
  obtain ⟨s, hreach, hcheck⟩ := exists_run _ _ h
  obtain ⟨t, hplay, hcheck'⟩ := (Option.any_eq_true _ _).1 hcheck
  exact ⟨s, t, hreach, play_runs hplay, hcheck'⟩

end X402
