import StockAnalyst.X402Tokens

/-!
# Local verification of payment proofs

`validatePaymentProof` decides whether a `Payment-Signature` header is a proof
for the fixed price, payable to the seller, inside its time window and signed
by its payer.  EIP-3009 proofs and Permit2 proofs share the header decoding and
the time window; everything else is checked by their own validators.

No caller passes an expected requirement, so the canonical requirement is
always rebuilt from the proof's own `extra`.
-/

namespace X402

open Python

/-- The Ethereum primitives the validators call, absent where the library
raises. -/
structure Ethereum where
  keccak : List Nat → List Nat
  recoverHash : List Nat → PyStr → Option PyStr
  /-- The word that `eth_abi` makes of `to_checksum_address(s)`. -/
  addressWord : PyStr → Option (List Nat)

/-- `0x` and forty hexadecimal digits. -/
def isEvmAddress (s : PyStr) : Bool :=
  s.length = 42 && PyStr.startsWith s (py "0x") &&
    (s.drop 2).all (fun c => (hexValue c).isSome)

/-- What the module reads from its environment: Python, Ethereum and the
configured recipient. -/
structure VerifyEnv where
  lib : PyLib
  eth : Ethereum
  payTo : PyStr
  payTo_address : isEvmAddress payTo = true

def chainId : Nat := 56

def priceWei : Int := 100000000000000000

def maxPaymentSignatureCharacters : Nat := 32 * 1024

def maxPaymentProofBytes : Nat := 24 * 1024

def maxPaymentProofNesting : Nat := 64

/-- Why a proof is refused. -/
inductive Rejection where
  | paymentSignature
  | version
  | resource
  | requirementMissing
  | requirementMismatch
  | numericFields
  | invalidFrom (address : PyStr)
  | wrongRecipient (address : PyStr)
  | valueMismatch
  | nonceSize
  | notYetValid
  | expired
  | window
  | signaturePrefix
  | eip712
  | signatureMismatch
  | permit2Proof
  deriving DecidableEq

/-- A proof that passed every local check. -/
structure VerifiedPayment where
  proof : List (PyStr × Json)
  fromAddress : PyStr
  toAddress : PyStr
  value : Int
  validAfter : Int
  validBefore : Int
  nonce : PyStr
  nonceBytes : List Nat
  asset : PyStr
  tokenSymbol : PyStr
  transferMethod : TransferMethod

variable (env : VerifyEnv)

/-- Strictly decode a bounded canonical Base64 JSON proof object. -/
def decodePaymentSignature (value : PyStr) : Option (List (PyStr × Json)) :=
  if value.isEmpty || maxPaymentSignatureCharacters < value.length ||
      value.any (128 ≤ ·) then none
  else match env.lib.b64decode value with
    | none => none
    | some raw =>
        if maxPaymentProofBytes < raw.length || env.lib.b64encode raw ≠ value
        then none
        else match (env.lib.utf8Decode raw).bind env.lib.loadsFinite with
          | some (.obj proof) =>
              if (Json.obj proof).depth ≤ maxPaymentProofNesting
              then some proof else none
          | _ => none

/-- `d.get(key) == text` for a text. -/
def getIs (kvs : List (PyStr × Json)) (key text : PyStr) : Bool :=
  match dictGet kvs key with
  | some v => v.pyEq (.str text)
  | none => false

/-- `str(d.get(key) or "")`. -/
def getText (lib : PyLib) (kvs : List (PyStr × Json)) (key : PyStr) : PyStr :=
  match dictGet kvs key with
  | some v => if truthy (some v) then pyStr lib v else []
  | none => []

/-- `str(d.get(key, default))`. -/
def getStr (lib : PyLib) (kvs : List (PyStr × Json)) (key default : PyStr) :
    PyStr :=
  match dictGet kvs key with
  | some v => pyStr lib v
  | none => default

/-- The exact paid-token requirement for a token and its `extra`. -/
def buildPaymentRequirement (payTo : PyStr) (token : PaymentToken)
    (extra : List (PyStr × Json)) : List (PyStr × Json) :=
  [(py "scheme", .str (py "exact")),
   (py "network", .str (py "eip155:56")),
   (py "amount", .str (intText priceWei)),
   (py "asset", .str token.address),
   (py "payTo", .str (payTo.map asciiLower)),
   (py "maxTimeoutSeconds", .int 600),
   (py "extra", .obj extra)]

/-- The wall-clock checks both validators make, in their order. -/
def checkWindow (now validAfter validBefore : Int) (allowExpired : Bool) :
    Except Rejection Unit :=
  if now < validAfter then .error .notYetValid
  else if validBefore ≤ now && !allowExpired then .error .expired
  else if 3600 < validBefore - now then .error .window
  else .ok ()

/-! ## ABI words -/

/-- A 32-byte big-endian word; absent where `eth_abi` refuses the value. -/
def uintWord (n : Int) : Option (List Nat) :=
  if 0 ≤ n ∧ n < 2 ^ 256 then
    some ((List.range 32).map (fun i => n.toNat / 256 ^ (31 - i) % 256))
  else none

/-- `keccak(text=...)`; the hashed texts are ASCII. -/
def ktext (eth : Ethereum) (s : String) : List Nat := eth.keccak (py s)

/-! ## EIP-3009 -/

def domainSeparator (eth : Ethereum) (token : PaymentToken) :
    Option (List Nat) := do
  let chain ← uintWord chainId
  let contract ← eth.addressWord token.address
  return eth.keccak (
    ktext eth "EIP712Domain(string name,string version,uint256 chainId,address verifyingContract)"
      ++ eth.keccak token.domainName ++ eth.keccak token.domainVersion
      ++ chain ++ contract)

/-- The EIP-712 digest of a transfer authorization. -/
def eip712Digest (eth : Ethereum) (from_ to_ : PyStr)
    (value validAfter validBefore : Int) (nonce : List Nat)
    (token : PaymentToken) : Option (List Nat) := do
  let fromWord ← eth.addressWord from_
  let toWord ← eth.addressWord to_
  let valueWord ← uintWord value
  let afterWord ← uintWord validAfter
  let beforeWord ← uintWord validBefore
  let separator ← domainSeparator eth token
  return eth.keccak ([0x19, 0x01] ++ separator ++ eth.keccak (
    ktext eth "TransferWithAuthorization(address from,address to,uint256 value,uint256 validAfter,uint256 validBefore,bytes32 nonce)"
      ++ fromWord ++ toWord ++ valueWord ++ afterWord ++ beforeWord ++ nonce))

/-- The authorization fields of an EIP-3009 proof, before any clock or
signature check. -/
structure Eip3009Authorization where
  signature : PyStr
  fromAddress : PyStr
  toAddress : PyStr
  value : Int
  validAfter : Int
  validBefore : Int
  nonceBytes : List Nat

/-- The requirement and field checks of an EIP-3009 proof. -/
def eip3009Authorization (proof accepted : List (PyStr × Json))
    (token : PaymentToken) : Except Rejection Eip3009Authorization := do
  let extra ← match dictGet accepted (py "extra") with
    | some (.obj extra) => .ok extra
    | _ => .error .requirementMissing
  if !(getIs extra (py "name") token.domainName
      && getIs extra (py "version") token.domainVersion
      && getIs extra (py "assetTransferMethod") token.transferMethod.text) then
    .error .requirementMissing
  else if !isEvmAddress (getText env.lib extra (py "signerAddress")) then
    .error .requirementMissing
  else if !(Json.obj accepted).pyEq
      (.obj (buildPaymentRequirement env.payTo token extra)) then
    .error .requirementMismatch
  else
    let payload ← match dictGet proof (py "payload") with
      | some (.obj payload) => .ok payload
      | _ => .error .paymentSignature
    let auth ← match dictGet payload (py "authorization") with
      | some (.obj auth) => .ok auth
      | _ => .error .paymentSignature
    let signature := getText env.lib payload (py "signature")
    let fromAddress := env.lib.lower (getStr env.lib auth (py "from") [])
    let toAddress := env.lib.lower (getStr env.lib auth (py "to") [])
    let number (key : PyStr) : Option Int :=
      pyInt env.lib ((dictGet auth key).getD (.int 0))
    let nonceText := getStr env.lib auth (py "nonce") []
    let bareNonce := if PyStr.startsWith nonceText (py "0x")
      then nonceText.drop 2 else nonceText
    match intOfStr env.lib (getStr env.lib auth (py "value") (py "0")),
        number (py "validAfter"), number (py "validBefore"),
        fromHex (zfill 64 bareNonce) with
    | some value, some validAfter, some validBefore, some nonceBytes =>
        if !(PyStr.startsWith fromAddress (py "0x") && fromAddress.length = 42)
        then .error (.invalidFrom fromAddress)
        else if toAddress ≠ env.payTo.map asciiLower
        then .error (.wrongRecipient toAddress)
        else if toAddress ≠
            env.lib.lower (getStr env.lib accepted (py "payTo") [])
        then .error (.wrongRecipient toAddress)
        else if some value ≠
            (dictGet accepted (py "amount")).bind (pyInt env.lib)
        then .error .valueMismatch
        else if nonceBytes.length ≠ 32 then .error .nonceSize
        else .ok ⟨signature, fromAddress, toAddress, value, validAfter,
          validBefore, nonceBytes⟩
    | _, _, _, _ => .error .numericFields

/-- The signature check of an EIP-3009 proof. -/
def eip3009Recover (proof : List (PyStr × Json)) (token : PaymentToken)
    (a : Eip3009Authorization) : Except Rejection VerifiedPayment :=
  if !PyStr.startsWith a.signature (py "0x") then .error .signaturePrefix
  else match (eip712Digest env.eth a.fromAddress a.toAddress a.value
      a.validAfter a.validBefore a.nonceBytes token).bind
        (env.eth.recoverHash · a.signature) with
    | none => .error .eip712
    | some recovered =>
        if env.lib.lower recovered ≠ a.fromAddress then
          .error .signatureMismatch
        else .ok
          { proof := proof
            fromAddress := a.fromAddress
            toAddress := a.toAddress
            value := a.value
            validAfter := a.validAfter
            validBefore := a.validBefore
            nonce := py "0x" ++ toHex a.nonceBytes
            nonceBytes := a.nonceBytes
            asset := token.asset
            tokenSymbol := token.symbol
            transferMethod := token.transferMethod }

/-! ## Permit2 -/

/-- `value.keys() == keys` for an object. -/
def exactObject (value : Option Json) (keys : List PyStr) :
    Option (List (PyStr × Json)) :=
  match value with
  | some (.obj kvs) =>
      if (kvs.map (·.1)).all (keys.contains ·) &&
          keys.all ((kvs.map (·.1)).contains ·)
      then some kvs else none
  | _ => none

/-- A well-formed address in lower case. -/
def address (value : Option Json) : Option PyStr :=
  match value with
  | some (.str s) => if isEvmAddress s then some (s.map asciiLower) else none
  | _ => none

/-- A canonical decimal `uint256`. -/
def wireUint256 (value : Option Json) : Option Int :=
  match value with
  | some (.str s) =>
      if s = py "0" then some 0
      else if s.length ≤ 78 && s.all (fun c => 48 ≤ c && c ≤ 57) &&
          (s.head?.map (fun c => decide (49 ≤ c))).getD false
      then
        let n : Nat := s.foldl (fun acc c => acc * 10 + (c - 48)) 0
        if n < 2 ^ 256 then some n else none
      else none
  | _ => none

/-- The five required members of a Permit2 `extra`. -/
def validExtra (extra : List (PyStr × Json)) (token : PaymentToken) : Bool :=
  getIs extra (py "name") token.domainName
    && getIs extra (py "version") token.domainVersion
    && getIs extra (py "assetTransferMethod") token.transferMethod.text
    && (address (dictGet extra (py "signerAddress"))).isSome
    && (address (dictGet extra (py "spenderAddress"))).isSome

/-- The EIP-712 digest of a Permit2 witness transfer. -/
def permit2Digest (eth : Ethereum) (token : PyStr) (amount : Int)
    (spender : PyStr) (nonce deadline : Int) (to_ : PyStr) (validAfter : Int) :
    Option (List Nat) := do
  let tokenWord ← eth.addressWord token
  let amountWord ← uintWord amount
  let spenderWord ← eth.addressWord spender
  let nonceWord ← uintWord nonce
  let deadlineWord ← uintWord deadline
  let toWord ← eth.addressWord to_
  let afterWord ← uintWord validAfter
  let chain ← uintWord chainId
  let contract ← eth.addressWord (py "0x000000000022D473030F116dDEE9F6B43aC78BA3")
  let permissions := eth.keccak (
    ktext eth "TokenPermissions(address token,uint256 amount)"
      ++ tokenWord ++ amountWord)
  let witness := eth.keccak (
    ktext eth "Witness(address to,uint256 validAfter)" ++ toWord ++ afterWord)
  let permit := eth.keccak (
    ktext eth "PermitWitnessTransferFrom(TokenPermissions permitted,address spender,uint256 nonce,uint256 deadline,Witness witness)TokenPermissions(address token,uint256 amount)Witness(address to,uint256 validAfter)"
      ++ permissions ++ spenderWord ++ nonceWord ++ deadlineWord ++ witness)
  let separator := eth.keccak (
    ktext eth "EIP712Domain(string name,uint256 chainId,address verifyingContract)"
      ++ ktext eth "Permit2" ++ chain ++ contract)
  return eth.keccak ([0x19, 0x01] ++ separator ++ permit)

/-- The fields of a Permit2 proof, before any clock or signature check. -/
structure Permit2Authorization where
  signature : PyStr
  payer : PyStr
  spender : PyStr
  permittedToken : PyStr
  recipient : PyStr
  amount : Int
  nonce : Int
  deadline : Int
  validAfter : Int

/-- The requirement and field checks of a Permit2 proof. -/
def permit2Authorization (proof accepted : List (PyStr × Json))
    (token : PaymentToken) : Except Rejection Permit2Authorization := do
  let extra ← match dictGet accepted (py "extra") with
    | some (.obj extra) => .ok extra
    | _ => .error .requirementMismatch
  if !validExtra extra token then .error .requirementMismatch
  else if !(Json.obj accepted).pyEq
      (.obj (buildPaymentRequirement env.payTo token extra)) then
    .error .requirementMismatch
  else
    match exactObject (dictGet proof (py "payload"))
        [py "signature", py "permit2Authorization"] with
    | none => .error .permit2Proof
    | some payload =>
    match exactObject (dictGet payload (py "permit2Authorization"))
        [py "permitted", py "from", py "spender", py "nonce", py "deadline",
          py "witness"] with
    | none => .error .permit2Proof
    | some authorization =>
    match exactObject (dictGet authorization (py "permitted"))
          [py "token", py "amount"],
        exactObject (dictGet authorization (py "witness"))
          [py "to", py "validAfter"] with
    | some permitted, some witness =>
        match dictGet payload (py "signature"),
            address (dictGet authorization (py "from")),
            address (dictGet authorization (py "spender")),
            address (dictGet permitted (py "token")),
            address (dictGet witness (py "to")),
            wireUint256 (dictGet permitted (py "amount")),
            wireUint256 (dictGet authorization (py "nonce")),
            wireUint256 (dictGet authorization (py "deadline")),
            wireUint256 (dictGet witness (py "validAfter")) with
        | some (.str signature), some payer, some spender,
            some permittedToken, some recipient, some amount, some nonce,
            some deadline, some validAfter =>
            if !(signature.length = 132 &&
                PyStr.startsWith signature (py "0x") &&
                (signature.drop 2).all (fun c => (hexValue c).isSome))
            then .error .permit2Proof
            else if permittedToken ≠ token.asset ∨ amount ≠ priceWei
                ∨ some amount ≠ wireUint256 (dictGet accepted (py "amount"))
                ∨ some spender ≠
                    (address (dictGet extra (py "spenderAddress")))
                ∨ recipient ≠
                    env.lib.lower (getStr env.lib accepted (py "payTo") [])
                ∨ deadline ≤ validAfter
            then .error .permit2Proof
            else .ok ⟨signature, payer, spender, permittedToken, recipient,
              amount, nonce, deadline, validAfter⟩
        | _, _, _, _, _, _, _, _, _ => .error .permit2Proof
    | _, _ => .error .permit2Proof

/-- The signature check of a Permit2 proof. -/
def permit2Recover (proof : List (PyStr × Json)) (token : PaymentToken)
    (a : Permit2Authorization) : Except Rejection VerifiedPayment :=
  match (permit2Digest env.eth a.permittedToken a.amount a.spender a.nonce
      a.deadline a.recipient a.validAfter).bind
        (env.eth.recoverHash · a.signature) with
  | none => .error .permit2Proof
  | some recovered =>
      if env.lib.lower recovered ≠ a.payer then .error .permit2Proof
      else .ok
        { proof := proof
          fromAddress := a.payer
          toAddress := a.recipient
          value := a.amount
          validAfter := a.validAfter
          validBefore := a.deadline
          nonce := intText a.nonce
          nonceBytes := (uintWord a.nonce).getD []
          asset := token.asset
          tokenSymbol := token.symbol
          transferMethod := token.transferMethod }

/-- Validate a proof without consuming its nonce. -/
def validatePaymentProof (header : PyStr) (now : Int) (allowExpired : Bool) :
    Except Rejection VerifiedPayment :=
  match decodePaymentSignature env header with
  | none => .error .paymentSignature
  | some proof =>
    if !((dictGet proof (py "x402Version")).map (·.pyEq (.int 2))).getD false
    then .error .version
    else match dictGet proof (py "resource") with
    | some (.obj resource) =>
      match dictGet resource (py "url") with
      | some (.str (_ :: _)) =>
        match dictGet proof (py "accepted") with
        | some (.obj accepted) =>
          match tokenByAsset env.lib (dictGet accepted (py "asset")) with
          | none => .error .requirementMissing
          | some token =>
            match token.transferMethod with
            | .permit2Exact => do
                let a ← permit2Authorization env proof accepted token
                checkWindow now a.validAfter a.deadline allowExpired
                permit2Recover env proof token a
            | .eip3009 => do
                let a ← eip3009Authorization env proof accepted token
                checkWindow now a.validAfter a.validBefore allowExpired
                eip3009Recover env proof token a
        | _ => .error .requirementMissing
      | _ => .error .resource
    | _ => .error .resource

/-! ## How the outcome depends on the clock -/

variable {env}

/-- An accepted transfer has the window of its authorization. -/
theorem eip3009Recover_window {proof : List (PyStr × Json)}
    {token : PaymentToken} {a : Eip3009Authorization} {p : VerifiedPayment}
    (h : eip3009Recover env proof token a = .ok p) :
    p.validAfter = a.validAfter ∧ p.validBefore = a.validBefore := by
  unfold eip3009Recover at h
  split at h
  · cases h
  · split at h
    · cases h
    · split at h
      · cases h
      · cases h
        exact ⟨rfl, rfl⟩

/-- An accepted permit has the window of its authorization. -/
theorem permit2Recover_window {proof : List (PyStr × Json)}
    {token : PaymentToken} {a : Permit2Authorization} {p : VerifiedPayment}
    (h : permit2Recover env proof token a = .ok p) :
    p.validAfter = a.validAfter ∧ p.validBefore = a.deadline := by
  unfold permit2Recover at h
  split at h
  · cases h
  · split at h
    · cases h
    · cases h
      exact ⟨rfl, rfl⟩

/-- **The clock enters in one place.**  A header is either refused for a
reason that does not depend on the clock, or its outcome is the window check
followed by a verdict that does not depend on the clock. -/
theorem validatePaymentProof_split (env : VerifyEnv) (header : PyStr) :
    (∃ reason, ∀ now allowExpired,
      validatePaymentProof env header now allowExpired = .error reason) ∨
    ∃ validAfter validBefore verdict,
      (∀ now allowExpired, validatePaymentProof env header now allowExpired =
        (checkWindow now validAfter validBefore allowExpired).bind
          (fun _ => verdict)) ∧
      ∀ p, verdict = .ok p →
        p.validAfter = validAfter ∧ p.validBefore = validBefore := by
  unfold validatePaymentProof
  split
  · exact Or.inl ⟨_, fun _ _ => rfl⟩
  · rename_i proof _
    split
    · exact Or.inl ⟨_, fun _ _ => rfl⟩
    · split
      · split
        · split
          · rename_i accepted _
            split
            · exact Or.inl ⟨_, fun _ _ => rfl⟩
            · rename_i token _
              split
              · cases ha : permit2Authorization env proof accepted token with
                | error x => exact Or.inl ⟨x, fun _ _ => rfl⟩
                | ok a =>
                    exact Or.inr ⟨a.validAfter, a.deadline,
                      permit2Recover env proof token a, fun _ _ => rfl,
                      fun p hp => permit2Recover_window hp⟩
              · cases ha : eip3009Authorization env proof accepted token with
                | error x => exact Or.inl ⟨x, fun _ _ => rfl⟩
                | ok a =>
                    exact Or.inr ⟨a.validAfter, a.validBefore,
                      eip3009Recover env proof token a, fun _ _ => rfl,
                      fun p hp => eip3009Recover_window hp⟩
          · exact Or.inl ⟨_, fun _ _ => rfl⟩
        · exact Or.inl ⟨_, fun _ _ => rfl⟩
      · exact Or.inl ⟨_, fun _ _ => rfl⟩

/-- An accepted window is open, and closes within the hour. -/
theorem checkWindow_ok {now validAfter validBefore : Int} {allowExpired : Bool}
    (h : checkWindow now validAfter validBefore allowExpired = .ok ()) :
    validAfter ≤ now ∧ (allowExpired = false → now < validBefore) ∧
      validBefore - now ≤ 3600 := by
  unfold checkWindow at h
  split at h
  · cases h
  · split at h
    · cases h
    · rename_i hexp
      split at h
      · cases h
      · refine ⟨by omega, ?_, by omega⟩
        rintro rfl
        simp only [Bool.not_false, Bool.and_true, decide_eq_true_eq] at hexp
        omega

/-- **A valid proof only expires.**  Once a header has validated, at every
later time recovery mode returns the same payment, and ordinary mode returns
it until `validBefore` and refuses it as expired from then on. -/
theorem validatePaymentProof_later {header : PyStr} {now later : Int}
    {allowExpired : Bool} {p : VerifiedPayment}
    (h : validatePaymentProof env header now allowExpired = .ok p)
    (hlater : now ≤ later) :
    validatePaymentProof env header later true = .ok p ∧
      validatePaymentProof env header later false =
        if later < p.validBefore then .ok p else .error .expired := by
  rcases validatePaymentProof_split env header with
    ⟨reason, hreason⟩ | ⟨validAfter, validBefore, verdict, hsplit, hwindow⟩
  · rw [hreason] at h
    cases h
  · rw [hsplit] at h
    cases hcheck : checkWindow now validAfter validBefore allowExpired with
    | error x =>
        rw [hcheck] at h
        cases h
    | ok u =>
        rw [hcheck] at h
        have hverdict : verdict = .ok p := h
        obtain ⟨hafter, hbefore⟩ := hwindow p hverdict
        obtain ⟨hlo, -, hhi⟩ := checkWindow_ok hcheck
        have hnot : ¬ later < validAfter := by omega
        have hhour : ¬ 3600 < validBefore - later := by omega
        have htrue : checkWindow later validAfter validBefore true = .ok () := by
          simp [checkWindow, hnot, hhour]
        refine ⟨?_, ?_⟩
        · rw [hsplit, htrue]
          exact hverdict
        · rw [hsplit, hbefore]
          by_cases hexp : later < validBefore
          · have hfalse :
                checkWindow later validAfter validBefore false = .ok () := by
              have hle : ¬ validBefore ≤ later := by omega
              simp [checkWindow, hnot, hhour, hle]
            rw [hfalse, if_pos hexp]
            exact hverdict
          · have hfalse :
                checkWindow later validAfter validBefore false =
                  .error .expired := by
              have hle : validBefore ≤ later := by omega
              simp [checkWindow, hnot, hle]
            rw [hfalse, if_neg hexp]
            rfl

/-- The payment a header names does not depend on when it is validated. -/
theorem validatePaymentProof_unique {header : PyStr} {now now' : Int}
    {b b' : Bool} {p p' : VerifiedPayment}
    (h : validatePaymentProof env header now b = .ok p)
    (h' : validatePaymentProof env header now' b' = .ok p') : p = p' := by
  have hp := (validatePaymentProof_later h (le_max_left now now')).1
  have hp' := (validatePaymentProof_later h' (le_max_right now now')).1
  rw [hp] at hp'
  exact Except.ok.inj hp'

/-! ## What a valid proof contains -/

/-- The requirement part of the checks both validators make. -/
structure Requirement (env : VerifyEnv) (accepted : List (PyStr × Json))
    (token : PaymentToken) (extra : List (PyStr × Json)) : Prop where
  extra_eq : dictGet accepted (py "extra") = some (.obj extra)
  method : getIs extra (py "assetTransferMethod") token.transferMethod.text = true
  exact : (Json.obj accepted).pyEq
    (.obj (buildPaymentRequirement env.payTo token extra)) = true

/-- A transfer authorization answers a requirement. -/
theorem eip3009Authorization_requirement {proof accepted : List (PyStr × Json)}
    {token : PaymentToken} {a : Eip3009Authorization}
    (h : eip3009Authorization env proof accepted token = .ok a) :
    ∃ extra, Requirement env accepted token extra := by
  unfold eip3009Authorization at h
  cases hextra : dictGet accepted (py "extra") with
  | none =>
      rw [hextra] at h
      cases h
  | some v =>
      cases v
      case obj extra =>
        simp only [hextra, bind, Except.bind] at h
        by_cases hnames : (getIs extra (py "name") token.domainName
            && getIs extra (py "version") token.domainVersion
            && getIs extra (py "assetTransferMethod") token.transferMethod.text)
              = true
        · rw [hnames] at h
          by_cases hexact : (Json.obj accepted).pyEq
              (.obj (buildPaymentRequirement env.payTo token extra)) = true
          · exact ⟨extra, hextra, (Bool.and_eq_true_iff.1 hnames).2, hexact⟩
          · rw [Bool.not_eq_true] at hexact
            rw [hexact] at h
            cases hsigner : isEvmAddress (getText env.lib extra (py "signerAddress"))
            · rw [hsigner] at h
              cases h
            · rw [hsigner] at h
              cases h
        · rw [Bool.not_eq_true] at hnames
          rw [hnames] at h
          cases h
      all_goals
        rw [hextra] at h
        cases h

/-- A permit answers a requirement. -/
theorem permit2Authorization_requirement {proof accepted : List (PyStr × Json)}
    {token : PaymentToken} {a : Permit2Authorization}
    (h : permit2Authorization env proof accepted token = .ok a) :
    ∃ extra, Requirement env accepted token extra := by
  unfold permit2Authorization at h
  cases hextra : dictGet accepted (py "extra") with
  | none =>
      rw [hextra] at h
      cases h
  | some v =>
      cases v
      case obj extra =>
        simp only [hextra, bind, Except.bind] at h
        by_cases hnames : validExtra extra token = true
        · rw [hnames] at h
          by_cases hexact : (Json.obj accepted).pyEq
              (.obj (buildPaymentRequirement env.payTo token extra)) = true
          · simp only [validExtra, Bool.and_eq_true] at hnames
            exact ⟨extra, hextra, hnames.1.1.2, hexact⟩
          · rw [Bool.not_eq_true] at hexact
            rw [hexact] at h
            cases h
        · rw [Bool.not_eq_true] at hnames
          rw [hnames] at h
          cases h
      all_goals
        rw [hextra] at h
        cases h

/-- A requirement is for BNB chain. -/
theorem Requirement.network {accepted extra : List (PyStr × Json)}
    {token : PaymentToken} (h : Requirement env accepted token extra) :
    dictGet accepted (py "network") = some (.str (py "eip155:56")) := by
  obtain ⟨v, hv, heq⟩ := Json.pyEq_obj_get (k := py "network") h.exact
    (by simp only [buildPaymentRequirement, List.map_cons, List.map_nil]; decide) rfl
  rw [hv, Json.pyEq_str heq]

/-- An accepted transfer is in its token. -/
theorem eip3009Recover_token {proof : List (PyStr × Json)}
    {token : PaymentToken} {a : Eip3009Authorization} {p : VerifiedPayment}
    (h : eip3009Recover env proof token a = .ok p) :
    p.asset = token.asset ∧ p.transferMethod = token.transferMethod ∧
      p.tokenSymbol = token.symbol := by
  unfold eip3009Recover at h
  split at h
  · cases h
  · split at h
    · cases h
    · split at h
      · cases h
      · cases h
        exact ⟨rfl, rfl, rfl⟩

/-- An accepted permit is in its token. -/
theorem permit2Recover_token {proof : List (PyStr × Json)}
    {token : PaymentToken} {a : Permit2Authorization} {p : VerifiedPayment}
    (h : permit2Recover env proof token a = .ok p) :
    p.asset = token.asset ∧ p.transferMethod = token.transferMethod ∧
      p.tokenSymbol = token.symbol := by
  unfold permit2Recover at h
  split at h
  · cases h
  · split at h
    · cases h
    · cases h
      exact ⟨rfl, rfl, rfl⟩

/-- The verdict that follows the window check. -/
theorem checkWindow_verdict {now validAfter validBefore : Int}
    {allowExpired : Bool} {verdict : Except Rejection VerifiedPayment}
    {p : VerifiedPayment}
    (h : (do
      checkWindow now validAfter validBefore allowExpired
      verdict) = .ok p) : verdict = .ok p := by
  cases hcheck : checkWindow now validAfter validBefore allowExpired with
  | error x =>
      rw [hcheck] at h
      cases h
  | ok u =>
      rw [hcheck] at h
      exact h

/-- The parts of a proof that passed validation. -/
theorem validatePaymentProof_parts {header : PyStr} {now : Int}
    {allowExpired : Bool} {p : VerifiedPayment}
    (h : validatePaymentProof env header now allowExpired = .ok p) :
    ∃ proof accepted token extra, decodePaymentSignature env header = some proof ∧
      dictGet proof (py "accepted") = some (.obj accepted) ∧
      tokenByAsset env.lib (dictGet accepted (py "asset")) = some token ∧
      Requirement env accepted token extra ∧
      p.asset = token.asset ∧ p.transferMethod = token.transferMethod ∧
      p.tokenSymbol = token.symbol := by
  unfold validatePaymentProof at h
  split at h
  · cases h
  · rename_i proof hdecode
    split at h
    · cases h
    · split at h
      · split at h
        · split at h
          · rename_i accepted haccepted
            split at h
            · cases h
            · rename_i token htoken
              split at h
              · cases ha : permit2Authorization env proof accepted token with
                | error x =>
                    rw [ha] at h
                    cases h
                | ok a =>
                    rw [ha] at h
                    obtain ⟨extra, hreq⟩ := permit2Authorization_requirement ha
                    have hrecover := checkWindow_verdict h
                    exact ⟨proof, accepted, token, extra, hdecode, haccepted,
                      htoken, hreq, permit2Recover_token hrecover⟩
              · cases ha : eip3009Authorization env proof accepted token with
                | error x =>
                    rw [ha] at h
                    cases h
                | ok a =>
                    rw [ha] at h
                    obtain ⟨extra, hreq⟩ := eip3009Authorization_requirement ha
                    have hrecover := checkWindow_verdict h
                    exact ⟨proof, accepted, token, extra, hdecode, haccepted,
                      htoken, hreq, eip3009Recover_token hrecover⟩
          · cases h
        · cases h
      · cases h

end X402
