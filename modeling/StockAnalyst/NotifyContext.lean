import StockAnalyst.PromptText

/-!
# The signed context of a job

`notify_security`: the envelope of a `notify_funded` call is checked, the
typed data it should be a signature of is rebuilt, and the signed text is read
into a context.  A context and an envelope carry the checks they have passed.
-/

namespace NotifySecurity

open Python JsonText

/-! ## Limits -/

def maxContextBytes : Nat := 65536

def maxGatewayUrlLength : Nat := 2048

def maxGatewayTokenLength : Nat := 2048

def maxUint64 : Int := 2 ^ 64 - 1

def maxUint256 : Int := 2 ^ 256 - 1

def rootKeys : List PyStr :=
  [py "delivery_gateway_url", py "delivery_gateway_token", py "portfolio", py "risk_profile"]

def authorizationKeys : List PyStr :=
  [py "context", py "expires_at", py "nonce", py "signature"]

/-- `[0-9a-fA-F]`. -/
def isHexChar (c : Nat) : Bool := (hexValue c).isSome

/-- `0x[0-9a-fA-F]{64}\Z`. -/
def isNonce : PyStr → Bool
  | 48 :: 120 :: rest => rest.length = 64 && rest.all isHexChar
  | _ => false

/-- `(?:0x)?[0-9a-fA-F]{130}\Z`. -/
def isSignature (s : PyStr) : Bool :=
  let digits := if (py "0x").isPrefixOf s then s.drop 2 else s
  digits.length = 130 && digits.all isHexChar

/-! ## Reading -/

section reading

variable {α : Type}

/-- `_reject_duplicate_keys`; nothing where it raises. -/
def rejectDuplicateKeys (pairs : List (PyStr × α)) : Option (List (PyStr × α)) :=
  pairs.foldlM (fun result pair =>
    if (result.map (·.1)).contains pair.1 then none else some (dictSet result pair.1 pair.2)) []

/-- The hook takes pairs exactly where no key is met twice. -/
theorem foldlM_rejectDuplicateKeys (pairs result : List (PyStr × α))
    (hresult : (result.map (·.1)).Nodup) :
    pairs.foldlM (fun result pair =>
      if (result.map (·.1)).contains pair.1 then none else some (dictSet result pair.1 pair.2))
      result =
    if ((result ++ pairs).map (·.1)).Nodup then some (result ++ pairs) else none := by
  induction pairs generalizing result with
  | nil => simp [hresult]
  | cons pair pairs ih =>
      rw [List.foldlM_cons]
      by_cases hmem : pair.1 ∈ result.map (·.1)
      · have hdup : ¬ ((result ++ pair :: pairs).map (·.1)).Nodup := by
          rw [List.map_append, List.map_cons]
          intro hnodup
          exact (List.nodup_append.1 hnodup).2.2 _ hmem _ List.mem_cons_self rfl
        rw [if_pos (List.contains_iff_mem.2 hmem), if_neg hdup]
        rfl
      · have hset : dictSet result pair.1 pair.2 = result ++ [pair] :=
          dictSet_of_fresh fun e he heq => hmem (heq ▸ List.mem_map_of_mem he)
        have hfresh : ((result ++ [pair]).map (·.1)).Nodup := by
          rw [List.map_append]
          refine List.nodup_append.2 ⟨hresult, List.nodup_singleton _, ?_⟩
          intro key hkey other hother
          obtain rfl := List.mem_singleton.1 hother
          rintro rfl
          exact hmem hkey
        rw [if_neg (fun h => hmem (List.contains_iff_mem.1 h)), hset, Option.bind_eq_bind,
          Option.bind_some, ih _ hfresh, List.append_assoc, List.singleton_append]

/-- The hook is the identity on distinct keys and raises on others. -/
theorem rejectDuplicateKeys_eq (pairs : List (PyStr × α)) :
    rejectDuplicateKeys pairs = if (pairs.map (·.1)).Nodup then some pairs else none :=
  foldlM_rejectDuplicateKeys pairs [] List.nodup_nil

end reading

mutual

/-- What `json.loads` makes of a document with `_reject_duplicate_keys` as its
hook, where `word` reads a word. -/
def loadUnique (word : PyStr → Option Json) : Doc → Option Json
  | .word text => word text
  | .str value => some (.str value)
  | .arr items => (loadUniqueItems word items).map .arr
  | .obj entries =>
      (loadUniqueEntries word entries).bind fun pairs => (rejectDuplicateKeys pairs).map .obj

def loadUniqueItems (word : PyStr → Option Json) : List Doc → Option (List Json)
  | [] => some []
  | d :: items => (loadUnique word d).bind fun x => (loadUniqueItems word items).map (x :: ·)

def loadUniqueEntries (word : PyStr → Option Json) :
    List (PyStr × Doc) → Option (List (PyStr × Json))
  | [] => some []
  | (key, d) :: entries =>
      (loadUnique word d).bind fun x => (loadUniqueEntries word entries).map ((key, x) :: ·)

end

/-- What the program takes from `float`, `hashlib` and `eth_account`. -/
structure Codec where
  /-- `float(lexeme)`, by its decimal digits. -/
  number : PyStr → Deliverable.Double
  /-- The value of a float. -/
  float : Deliverable.Double → PyFloat
  /-- `hashlib.sha256(data).hexdigest()`. -/
  sha256 : List Nat → PyStr

/-- The value of a word of a JSON text. -/
def Codec.word (codec : Codec) (text : PyStr) : Option Json :=
  (loadWord codec.number text).map (loadedJson codec.float)

/-- `json.loads(raw, object_pairs_hook=_reject_duplicate_keys)`; nothing where
it raises. -/
def Codec.loadsUnique (codec : Codec) (raw : PyStr) : Option Json :=
  (read scanPoints raw).bind (loadUnique codec.word)

/-- `_optional_string`; nothing where it raises. -/
def optionalString (values : List (PyStr × Json)) (key : PyStr)
    (minimumLength maximumLength : Nat) : Option (Option PyStr) :=
  match dictGet values key with
  | none => some none
  | some (.str value) =>
      if minimumLength ≤ value.length ∧ value.length ≤ maximumLength then some (some value)
      else none
  | some _ => none

/-! ## The context -/

/-- What the fields of a context have been checked for. -/
structure JobContext where
  digest : PyStr
  gatewayUrl : Option PyStr
  gatewayToken : Option PyStr
  portfolio : List Holding
  riskProfile : Option RiskProfile
  gatewayUrl_ok : ∀ url ∈ gatewayUrl, url.length ≤ maxGatewayUrlLength
  gatewayToken_ok : ∀ token ∈ gatewayToken,
    (1 ≤ token.length ∧ token.length ≤ maxGatewayTokenLength) ∧ 13 ∉ token ∧ 10 ∉ token
  portfolio_ok : portfolio.length ≤ maxHoldings

/-- An option that is absent has any property. -/
theorem forall_mem_none {P : PyStr → Prop} : ∀ s ∈ (none : Option PyStr), P s :=
  fun _ h => nomatch h

/-- An option has what its value has. -/
theorem forall_mem_some {P : PyStr → Prop} {s : PyStr} (h : P s) :
    ∀ t ∈ (some s : Option PyStr), P t := by
  intro t ht
  obtain rfl := Option.some.inj ht
  exact h

/-- An optional string has a length within its limits. -/
theorem optionalString_length {values : List (PyStr × Json)} {key : PyStr} {least most : Nat}
    {value : Option PyStr} (h : optionalString values key least most = some value) :
    ∀ s ∈ value, least ≤ s.length ∧ s.length ≤ most := by
  unfold optionalString at h
  split at h
  · obtain rfl := Option.some.inj h
    exact forall_mem_none
  · split at h
    · rename_i hlength
      obtain rfl := Option.some.inj h
      exact forall_mem_some hlength
    · cases h
  · cases h

/-- The risk profile of a root object, where it has one; nothing where
`parse_risk_profile` raises. -/
def rootRiskProfile (parsed : List (PyStr × Json)) : Option (Option RiskProfile) :=
  match dictGet parsed (py "risk_profile") with
  | none => some none
  | some value => (parseRiskProfile value).map some

/-- A list is read where each of its items is. -/
theorem mapM_eq_some_iff {α β : Type} {f : α → Option β} {as : List α} {bs : List β} :
    as.mapM f = some bs ↔ List.Forall₂ (fun a b => f a = some b) as bs := by
  induction as generalizing bs with
  | nil => simp [eq_comm]
  | cons a as ih =>
      rw [List.mapM_cons, Option.bind_eq_bind, Option.bind_eq_some_iff, List.forall₂_cons_left_iff]
      refine exists_congr fun b => ?_
      rw [Option.bind_eq_bind, Option.bind_eq_some_iff]
      simp [ih, eq_comm]

/-- **A holding is accepted** exactly with its four fields and within its
limits. -/
theorem parseHolding_iff {kvs : List (PyStr × Json)} {holding : Holding} :
    parseHolding (.obj kvs) = some holding ↔
      hasKeys kvs [py "symbol", py "shares", py "avgCost", py "currency"] = true ∧
        dictGet kvs (py "symbol") = some (.str holding.symbol) ∧
        dictGet kvs (py "currency") = some (.str holding.currency) ∧
        (dictGet kvs (py "shares")).bind finiteNumber = some holding.shares ∧
        (dictGet kvs (py "avgCost")).bind finiteNumber = some holding.avgCost := by
  rw [parseHolding]
  constructor
  · intro h
    split at h
    · cases h
    · rename_i hkeys
      rw [Bool.not_eq_true, Bool.not_eq_false'] at hkeys
      split at h
      · rename_i hsymbol hcurrency hshares hcost
        split at h
        · obtain rfl := Option.some.inj h
          exact ⟨hkeys, hsymbol, hcurrency, hshares, hcost⟩
        · cases h
      · cases h
  · intro ⟨hkeys, hsymbol, hcurrency, hshares, hcost⟩
    have hchecks : isHoldingSymbol holding.symbol = true ∧ isCurrency holding.currency = true ∧
        (0 < holding.shares.value ∧ holding.shares.value ≤ maxValue) ∧
        (0 ≤ holding.avgCost.value ∧ holding.avgCost.value ≤ maxValue) :=
      ⟨holding.symbol_ok, holding.currency_ok, holding.shares_ok, holding.avgCost_ok⟩
    rw [hkeys, hsymbol, hcurrency, hshares, hcost]
    exact dif_pos hchecks

/-- **A risk profile is accepted** exactly with its three fields and within its
limits. -/
theorem parseRiskProfile_iff {kvs : List (PyStr × Json)} {profile : RiskProfile} :
    parseRiskProfile (.obj kvs) = some profile ↔
      hasKeys kvs [py "tolerance", py "horizonMonths", py "preferredIndicators"] = true ∧
        dictGet kvs (py "tolerance") = some (.str profile.tolerance) ∧
        dictGet kvs (py "horizonMonths") = some (.int profile.horizonMonths) ∧
        ∃ items, dictGet kvs (py "preferredIndicators") = some (.arr items) ∧
          strItems items = some profile.preferredIndicators := by
  rw [parseRiskProfile]
  constructor
  · intro h
    split at h
    · cases h
    · rename_i hkeys
      rw [Bool.not_eq_true, Bool.not_eq_false'] at hkeys
      split at h
      · rename_i htolerance hhorizon hindicators
        split at h
        · rename_i hitems
          split at h
          · obtain rfl := Option.some.inj h
            exact ⟨hkeys, htolerance, hhorizon, _, hindicators, hitems⟩
          · cases h
        · cases h
      · cases h
  · intro ⟨hkeys, htolerance, hhorizon, items, hindicators, hitems⟩
    have hchecks : profile.tolerance ∈ riskTolerances ∧
        (1 ≤ profile.horizonMonths ∧ profile.horizonMonths ≤ 600) ∧
        (∀ indicator ∈ profile.preferredIndicators, indicator ∈ supportedIndicators) ∧
        profile.preferredIndicators.Nodup :=
      ⟨profile.tolerance_ok, profile.horizonMonths_ok, profile.indicators_ok,
        profile.indicators_nodup⟩
    rw [hkeys, htolerance, hhorizon, hindicators]
    simp only [hitems]
    exact dif_pos hchecks

/-- A portfolio has few holdings. -/
theorem parsePortfolio_length {value : Json} {portfolio : List Holding}
    (h : parsePortfolio value = some portfolio) : portfolio.length ≤ maxHoldings := by
  cases value with
  | arr items =>
      rw [parsePortfolio] at h
      split at h
      · cases h
      · rename_i hlength
        rw [(mapM_eq_some_iff.1 h).length_eq] at hlength
        omega
  | _ => cases h

/-- The fields of a root object, checked in the order of the source. -/
def contextOf (digest : PyStr) (parsed : List (PyStr × Json)) : Option JobContext :=
  (optionalString parsed (py "delivery_gateway_url") 0 maxGatewayUrlLength).attach.bind
    fun gatewayUrl =>
  (optionalString parsed (py "delivery_gateway_token") 1 maxGatewayTokenLength).attach.bind
    fun gatewayToken =>
  if hline : ∀ token ∈ gatewayToken.1, 13 ∉ token ∧ 10 ∉ token then
    (parsePortfolio ((dictGet parsed (py "portfolio")).getD (.arr []))).attach.bind
      fun portfolio =>
    (rootRiskProfile parsed).map fun riskProfile =>
      { digest := digest
        gatewayUrl := gatewayUrl.1
        gatewayToken := gatewayToken.1
        portfolio := portfolio.1
        riskProfile := riskProfile
        gatewayUrl_ok := fun url h => (optionalString_length gatewayUrl.2 url h).2
        gatewayToken_ok := fun token h =>
          ⟨optionalString_length gatewayToken.2 token h, hline token h⟩
        portfolio_ok := parsePortfolio_length portfolio.2 }
  else none

/-- **A context is accepted** exactly with its four options. -/
theorem contextOf_iff {digest : PyStr} {parsed : List (PyStr × Json)} {context : JobContext} :
    contextOf digest parsed = some context ↔
      optionalString parsed (py "delivery_gateway_url") 0 maxGatewayUrlLength =
          some context.gatewayUrl ∧
        optionalString parsed (py "delivery_gateway_token") 1 maxGatewayTokenLength =
          some context.gatewayToken ∧
        parsePortfolio ((dictGet parsed (py "portfolio")).getD (.arr [])) =
          some context.portfolio ∧
        rootRiskProfile parsed = some context.riskProfile ∧
        (∀ token ∈ context.gatewayToken, 13 ∉ token ∧ 10 ∉ token) ∧ context.digest = digest := by
  unfold contextOf
  constructor
  · intro h
    obtain ⟨⟨url, hurl⟩, -, h⟩ := Option.bind_eq_some_iff.1 h
    obtain ⟨⟨token, htoken⟩, -, h⟩ := Option.bind_eq_some_iff.1 h
    split at h
    · rename_i hline
      obtain ⟨⟨portfolio, hportfolio⟩, -, h⟩ := Option.bind_eq_some_iff.1 h
      obtain ⟨riskProfile, hrisk, rfl⟩ := Option.map_eq_some_iff.1 h
      exact ⟨hurl, htoken, hportfolio, hrisk, hline, rfl⟩
    · cases h
  · intro ⟨hurl, htoken, hportfolio, hrisk, hline, hdigest⟩
    refine Option.bind_eq_some_iff.2 ⟨⟨_, hurl⟩, by simp [hurl], ?_⟩
    refine Option.bind_eq_some_iff.2 ⟨⟨_, htoken⟩, by simp [htoken], ?_⟩
    rw [dif_pos hline]
    refine Option.bind_eq_some_iff.2 ⟨⟨_, hportfolio⟩, by simp [hportfolio], ?_⟩
    rw [hrisk, ← hdigest]
    rfl

/-- `parse_signed_context`; nothing where it raises. -/
def parseSignedContext (codec : Codec) (raw : PyStr) : Option JobContext :=
  (utf8Encode raw).bind fun encoded =>
    if maxContextBytes < encoded.length then none
    else
      match codec.loadsUnique raw with
      | some (.obj parsed) =>
          if parsed.all fun kv => rootKeys.contains kv.1 then
            contextOf (codec.sha256 encoded) parsed
          else none
      | _ => none

/-! ## The context for the prompt -/

def Num.json : Num → Json
  | .int i => .int i
  | .float neg abs => .float (.finite neg abs)

/-- A holding as `portfolio_for_prompt` writes it. -/
def Holding.forPrompt (holding : Holding) : Json :=
  .obj [(py "symbol", .str holding.symbol), (py "shares", holding.shares.json),
    (py "avgCost", holding.avgCost.json), (py "currency", .str holding.currency)]

def JobContext.portfolioForPrompt (context : JobContext) : Json :=
  .arr (context.portfolio.map Holding.forPrompt)

def RiskProfile.forPrompt (profile : RiskProfile) : Json :=
  .obj [(py "tolerance", .str profile.tolerance), (py "horizonMonths", .int profile.horizonMonths),
    (py "preferredIndicators", .arr (profile.preferredIndicators.map .str))]

def JobContext.riskProfileForPrompt (context : JobContext) : Json :=
  match context.riskProfile with
  | none => .null
  | some profile => profile.forPrompt

/-- A number is read as it is written. -/
theorem finiteNumber_json (n : Num) : finiteNumber n.json = some n := by
  cases n <;> rfl

/-- A list of strings is read as these. -/
theorem strItems_map (texts : List PyStr) : strItems (texts.map .str) = some texts := by
  rw [strItems, mapM_eq_some_iff, List.forall₂_map_left_iff]
  exact List.forall₂_same.2 fun _ _ => rfl

/-- A holding is read back from the prompt's value. -/
theorem parseHolding_forPrompt (holding : Holding) :
    parseHolding holding.forPrompt = some holding :=
  parseHolding_iff.2 ⟨rfl, rfl, rfl, finiteNumber_json _, finiteNumber_json _⟩

/-- A risk profile is read back from the prompt's value. -/
theorem parseRiskProfile_forPrompt (profile : RiskProfile) :
    parseRiskProfile profile.forPrompt = some profile :=
  parseRiskProfile_iff.2 ⟨rfl, rfl, rfl, _, rfl, strItems_map _⟩

/-- The checks of the prompt builder give a context back as it was signed. -/
theorem normalizeContext_forPrompt (context : JobContext) :
    X402.normalizeContext context.portfolioForPrompt context.riskProfileForPrompt =
      (context.portfolio, context.riskProfile) := by
  have hportfolio : parsePortfolio context.portfolioForPrompt = some context.portfolio := by
    rw [JobContext.portfolioForPrompt, parsePortfolio, List.length_map,
      if_neg (Nat.not_lt.2 context.portfolio_ok), mapM_eq_some_iff, List.forall₂_map_left_iff]
    exact List.forall₂_same.2 fun holding _ => parseHolding_forPrompt holding
  have hrisk : parseRiskProfile context.riskProfileForPrompt = context.riskProfile := by
    unfold JobContext.riskProfileForPrompt
    split
    · rename_i hnone
      rw [hnone]
      rfl
    · rename_i profile hsome
      rw [hsome]
      exact parseRiskProfile_forPrompt profile
  have hholdings : (X402.normalizeContext context.portfolioForPrompt
      context.riskProfileForPrompt).1 = (parsePortfolio context.portfolioForPrompt).getD [] := rfl
  rw [hportfolio] at hholdings
  exact Prod.ext hholdings hrisk

/-! ## The authorization -/

/-- The codes of `NotifySecurityError`. -/
inductive ErrorCode where
  | authorizationRequired
  | invalidAuthorization
  | invalidContext
  | authorizationExpired
  | callerNotJobClient
  deriving DecidableEq

/-- How the verification fails: with a code, or with an exception of the
signer recovery that no `except` names. -/
inductive Failure where
  | refused (code : ErrorCode)
  | raised
  deriving DecidableEq

structure Domain where
  name : PyStr
  version : PyStr
  chainId : Int
  verifyingContract : PyStr

structure Message where
  jobId : Int
  context : PyStr
  expiresAt : Int
  nonce : PyStr

/-- A full EIP-712 message. -/
structure TypedData where
  types : List (PyStr × List (PyStr × PyStr))
  primaryType : PyStr
  domain : Domain
  message : Message

/-- How `Account.recover_message` ends. -/
inductive Recovered where
  | signer (address : PyStr)
  /-- With a `TypeError` or a `ValueError`. -/
  | invalid
  | raised

/-- What the program takes from `eth_utils` and `eth_account`. -/
structure Ethereum where
  /-- Nothing where it raises. -/
  toChecksumAddress : PyStr → Option PyStr
  /-- `Account.recover_message(encode_typed_data(full_message=data), signature)`. -/
  recover : TypedData → PyStr → Recovered

def notifyTypes : List (PyStr × List (PyStr × PyStr)) :=
  [(py "EIP712Domain",
      [(py "name", py "string"), (py "version", py "string"), (py "chainId", py "uint256"),
        (py "verifyingContract", py "address")]),
    (py "NotifyFunded",
      [(py "jobId", py "uint256"), (py "context", py "string"), (py "expiresAt", py "uint64"),
        (py "nonce", py "bytes32")])]

/-- `build_notify_typed_data`; nothing where it raises. -/
def buildNotifyTypedData (eth : Ethereum) (jobId : Int) (context : PyStr) (expiresAt : Int)
    (nonce : PyStr) (chainId : Int) (verifyingContract : PyStr) : Option TypedData :=
  if ¬ (0 ≤ jobId ∧ jobId ≤ maxUint256) then none
  else if ¬ (0 ≤ expiresAt ∧ expiresAt ≤ maxUint64) then none
  else if ¬ (0 ≤ chainId ∧ chainId ≤ maxUint256) then none
  else if isNonce nonce = false then none
  else
    (eth.toChecksumAddress verifyingContract).map fun contract =>
      { types := notifyTypes
        primaryType := py "NotifyFunded"
        domain := ⟨py "stockanalyst-notify-funded", py "1", chainId, contract⟩
        message := ⟨jobId, context, expiresAt, nonce⟩ }

/-- An authorization that is well formed. -/
structure Envelope where
  context : PyStr
  expiresAt : Int
  nonce : PyStr
  signature : PyStr
  expiresAt_ok : 0 ≤ expiresAt ∧ expiresAt ≤ maxUint64
  nonce_ok : isNonce nonce = true
  signature_ok : isSignature signature = true

/-- The fields of an authorization with the right keys. -/
def envelopeOf (entries : List (PyStr × Json)) : Option Envelope :=
  match dictGet entries (py "context"), dictGet entries (py "expires_at"),
      dictGet entries (py "nonce"), dictGet entries (py "signature") with
  | some (.str context), some (.int expiresAt), some (.str nonce), some (.str signature) =>
      if h : (0 ≤ expiresAt ∧ expiresAt ≤ maxUint64) ∧ isNonce nonce = true ∧
          isSignature signature = true then
        some ⟨context, expiresAt, nonce, signature, h.1, h.2.1, h.2.2⟩
      else none
  | _, _, _, _ => none

/-- An envelope is accepted exactly with its four fields. -/
theorem envelopeOf_iff {entries : List (PyStr × Json)} {envelope : Envelope} :
    envelopeOf entries = some envelope ↔
      dictGet entries (py "context") = some (.str envelope.context) ∧
        dictGet entries (py "expires_at") = some (.int envelope.expiresAt) ∧
        dictGet entries (py "nonce") = some (.str envelope.nonce) ∧
        dictGet entries (py "signature") = some (.str envelope.signature) := by
  unfold envelopeOf
  constructor
  · intro h
    split at h
    · rename_i hcontext hexpires hnonce hsignature
      split at h
      · obtain rfl := Option.some.inj h
        exact ⟨hcontext, hexpires, hnonce, hsignature⟩
      · cases h
    · cases h
  · intro ⟨hcontext, hexpires, hnonce, hsignature⟩
    have hchecks : (0 ≤ envelope.expiresAt ∧ envelope.expiresAt ≤ maxUint64) ∧
        isNonce envelope.nonce = true ∧ isSignature envelope.signature = true :=
      ⟨envelope.expiresAt_ok, envelope.nonce_ok, envelope.signature_ok⟩
    rw [hcontext, hexpires, hnonce, hsignature]
    exact dif_pos hchecks

/-- `preflight_notify_authorization`, with the fields it has checked. -/
def preflightNotifyAuthorization (authorization : Json) (now : Int) :
    Except ErrorCode Envelope :=
  match authorization with
  | .obj entries =>
      if ¬ authorizationKeys.all (fun key => (entries.map (·.1)).contains key) then
        .error .authorizationRequired
      else if ¬ hasKeys entries authorizationKeys then .error .invalidAuthorization
      else
        match envelopeOf entries with
        | none => .error .invalidAuthorization
        | some envelope =>
            match utf8Encode envelope.context with
            | none => .error .invalidAuthorization
            | some encoded =>
                if maxContextBytes < encoded.length then .error .invalidContext
                else if envelope.expiresAt < now - 30 then .error .authorizationExpired
                else if now + 600 < envelope.expiresAt then .error .invalidAuthorization
                else .ok envelope
  | _ => .error .authorizationRequired

/-- `verify_notify_authorization`. -/
def verifyNotifyAuthorization (codec : Codec) (eth : Ethereum) (authorization : Json)
    (jobId : Int) (expectedClient : PyStr) (chainId : Int) (verifyingContract : PyStr)
    (now : Int) : Except Failure JobContext :=
  match preflightNotifyAuthorization authorization now with
  | .error code => .error (.refused code)
  | .ok envelope =>
      match eth.toChecksumAddress expectedClient,
          buildNotifyTypedData eth jobId envelope.context envelope.expiresAt envelope.nonce
            chainId verifyingContract with
      | some expected, some data =>
          match eth.recover data envelope.signature with
          | .invalid => .error (.refused .invalidAuthorization)
          | .raised => .error .raised
          | .signer recovered =>
              match eth.toChecksumAddress recovered with
              | none => .error .raised
              | some recovered =>
                  if recovered ≠ expected then .error (.refused .callerNotJobClient)
                  else
                    match parseSignedContext codec envelope.context with
                    | none => .error (.refused .invalidContext)
                    | some context => .ok context
      | _, _ => .error (.refused .invalidAuthorization)

end NotifySecurity
