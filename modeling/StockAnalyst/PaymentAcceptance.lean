import StockAnalyst.NotifyHandshake
import StockAnalyst.PaymentReading

/-!
# Proofs of the client at the seller

Every proof that the client builds of an offer of this seller passes the
seller's local checks: the seller reads the client's fields, hashes them to the
digest that the client has signed, and recovers the client's wallet.  Only the
clock decides from then on.
-/

namespace X402

open Python Js Deliverable X402Async NotifySecurity

variable {env : VerifyEnv} {token : PaymentToken} {extra : List (PyStr × Json)}

/-! ## Libraries -/

/-- What the two sides take from their libraries. -/
structure Libraries (lib : PyLib) (eth : Ethereum) (codec : Codec) (numberText : PyFloat → JsStr)
    (wallet : Wallet) : Prop where
  ascii : lib.Ascii
  base64 : ∀ bs, (∀ b ∈ bs, b < 256) →
    lib.b64decode (base64Encode bs) = some bs ∧ lib.b64encode bs = base64Encode bs
  utf8 : ∀ s bs, utf8Encode s = some bs → lib.utf8Decode bs = some s
  numbers : NumberReads codec numberText
  /-- A text of `JSON.stringify` has no key twice and no number that is not
  finite, so `json.loads` reads it with any hook. -/
  loads : ∀ v : Value, v.Held →
    (carried (numberJson codec numberText) v).depth ≤ maxPaymentProofNesting →
    lib.loadsFinite (points (Js.stringifyValue numberText v)) =
      codec.loadsUnique (points (Js.stringifyValue numberText v))
  checksums : eth.TakesAddresses
  addresses : wallet.TakesAddresses
  signs : Signs wallet eth

variable {codec : Codec} {numberText : PyFloat → JsStr} {wallet : Wallet}

/-- The header of a proof is decoded to the proof. -/
theorem decode_proofText (hlib : Libraries env.lib env.eth codec numberText wallet)
    {entries : List (JsStr × Value)} (hheld : (Value.obj entries).Held)
    (hlength : (X402Async.proofText numberText entries).length ≤
      maxPaymentSignatureCharacters)
    (hdepth : (Json.obj (carriedEntries (numberJson codec numberText) entries)).depth ≤
      maxPaymentProofNesting) :
    decodePaymentSignature env (points (X402Async.proofText numberText entries)) =
      some (carriedEntries (numberJson codec numberText) entries) := by
  rw [X402Async.proofText] at hlength ⊢
  have hloads := loadsUnique_stringifyValue hlib.numbers hheld
  have hfinite := hlib.loads _ hheld hdepth
  have hwell : WellFormed (Js.stringifyValue numberText (.obj entries)) :=
    (units_stringifyDoc hlib.numbers hheld).wellFormed
  generalize Js.stringifyValue numberText (.obj entries) = text at hlength hloads hfinite hwell ⊢
  have hencode := utf8Encode_points hwell
  obtain ⟨hdecoded, hencoded⟩ := hlib.base64 _ hwell.utf8_lt
  have hvisible := base64Encode_visible (utf8 text)
  have hascii : ∀ c ∈ base64Encode (utf8 text), c < 0x80 := by
    intro c hc
    have := (hvisible c hc).2.1
    omega
  have hcharacters := base64Encode_length (utf8 text)
  have hbytes : (utf8 text).length ≤ maxPaymentProofBytes := by
    unfold maxPaymentSignatureCharacters at hlength
    unfold maxPaymentProofBytes
    omega
  have hnonempty : (base64Encode (utf8 text)).isEmpty = false := by
    rw [List.isEmpty_eq_false_iff]
    intro hnil
    rw [hnil, List.length_nil] at hcharacters
    have hnone : utf8 text = [] := List.length_eq_zero_iff.1 (by omega)
    rw [hnone] at hencode
    have hempty : points text = [] := utf8Encode_inj hencode (by rfl)
    rw [hempty] at hloads
    cases hloads
  have hany : (base64Encode (utf8 text)).any (128 ≤ ·) = false := by
    rw [List.any_eq_false]
    intro c hc
    have := hascii c hc
    simp only [decide_eq_true_eq]
    omega
  rw [points_ascii hascii, decodePaymentSignature, hnonempty, hany,
    decide_eq_false (Nat.not_lt.2 hlength)]
  simp only [hdecoded, decide_eq_false (Nat.not_lt.2 hbytes), hencoded, hlib.utf8 _ _ hencode,
    Option.bind_some, hfinite, hloads, carried, hdepth, ne_eq, not_true_eq_false, decide_false,
    Bool.or_self, Bool.false_eq_true, if_false, if_true]

/-! ## What the client sends -/

/-- A record with known keys is one that a program can hold. -/
theorem held_record {entries : List (JsStr × Value)} (keys : List JsStr)
    (hkeys : entries.map (·.1) = keys) (hascii : ∀ key ∈ keys, ∀ c ∈ key, c < 0x80)
    (hnodup : keys.Nodup) (heach : ∀ v ∈ entries.map (·.2), v.Held) :
    (Value.obj entries).Held := by
  refine .obj ?_ (hkeys ▸ hnodup) fun e he => heach e.2 (List.mem_map_of_mem he)
  intro e he u hu
  have := hascii e.1 (hkeys ▸ List.mem_map_of_mem he) u hu
  omega

theorem held_ascii {s : JsStr} (h : ∀ c ∈ s, c < 0x80) : (Value.str s).Held := by
  refine .str fun u hu => ?_
  have := h u hu
  omega

/-- A whole number is read as it was written. -/
theorem numberJson_nat (hreads : NumberReads codec numberText) {n : Nat} (h : n ≤ 2 ^ 53) :
    numberJson codec numberText (.finite false n) = .int n := by
  have habs : |(n : Int)| ≤ 2 ^ 53 := by
    rw [abs_of_nonneg (Int.natCast_nonneg n)]
    exact_mod_cast h
  refine numberJson_eq ?_
  rw [hreads.whole false n h]
  exact word_intText habs

/-- `String` of a whole number is its digits. -/
theorem natText_eq (hreads : NumberReads codec numberText) {n : Nat} (h : n ≤ 2 ^ 53) :
    natText numberText n = intText n :=
  hreads.whole false n h

theorem intText_ascii (n : Nat) : ∀ c ∈ intText n, c < 0x80 := by
  intro c hc
  have := intText_range n c hc
  omega

section offers

variable {seller : JsStr} {signed : X402Async.PaymentToken} {accepted : PaymentRequirement}

/-- An offer of this seller is the seller's own requirement. -/
theorem carried_accepted (hreads : NumberReads codec numberText)
    (hoffer : Offer seller signed accepted) (hseller : seller = env.payTo.map asciiLower)
    (hsame : SameToken signed token) :
    carriedEntries (numberJson codec numberText) accepted.entries =
      buildPaymentRequirement env.payTo token
        (carriedEntries (numberJson codec numberText) accepted.extra) := by
  have hpayTo : isAddress env.payTo = true := (isAddress_eq _).trans env.payTo_address
  have hasset : points accepted.asset = token.address := by
    rw [hoffer.asset, ← hsame.address]
    exact points_ascii (isAddress_ascii (token_texts hsame.registered).1)
  have hrecipient : points accepted.payTo = env.payTo.map asciiLower := by
    rw [hoffer.payTo, hseller]
    exact points_ascii (isAddress_ascii (isAddress_lower hpayTo))
  have hamount : points accepted.amount = intText priceWei := by
    rw [hoffer.amount, points_ascii (by decide)]
    decide
  have htimeout : numberJson codec numberText (.finite false (600 : ℕ)) = .int 600 :=
    numberJson_nat hreads (by decide)
  rw [PaymentRequirement.entries, hoffer.timeout]
  simp (disch := decide) only [natValue, carriedEntries, carried, points_ascii, hasset,
    hrecipient, hamount, htimeout]
  rfl

/-- A text that the client has kept is read by the seller. -/
theorem dictGet_carried {entries : List (JsStr × Value)} (hheld : (Value.obj entries).Held)
    {key text : JsStr} (hkey : ∀ c ∈ key, c < 0x80) (htext : ∀ c ∈ text, c < 0x80)
    (h : X402Async.get entries key = some (.str text)) :
    dictGet (carriedEntries (numberJson codec numberText) entries) key = some (.str text) := by
  have hunits : ∀ e ∈ entries, ∀ u ∈ e.1, u < 0x10000 := by
    cases hheld with
    | obj units => exact units
  have hkeyUnits : ∀ u ∈ key, u < 0x10000 := fun u hu => (hkey u hu).trans (by decide)
  have hlookup := lookup_points (carried (numberJson codec numberText)) hunits hkeyUnits
  rw [points_ascii hkey] at hlookup
  unfold X402Async.get at h
  rw [dictGet, carriedEntries_eq_map, hlookup, h, Option.map_some, carried, points_ascii htext]

/-- The members of the `extra` that the seller looks at. -/
theorem readExtra_carried (hoffer : Offer seller signed accepted)
    (hsame : SameToken signed token) :
    ∃ signer, ReadExtra token (carriedEntries (numberJson codec numberText) accepted.extra)
      signer := by
  obtain ⟨signer, hsigner, haddress⟩ := hoffer.signer
  obtain ⟨-, hname, hversion⟩ := token_texts hsame.registered
  have hmethod : ∀ m : TransferMethod, ∀ c ∈ m.text, c < 0x80 := by
    intro m
    cases m <;> decide
  refine ⟨signer, ?_, ?_, ?_, ?_, haddress⟩
  · exact dictGet_carried hoffer.held (by decide) hname (hsame.name ▸ hoffer.name)
  · exact dictGet_carried hoffer.held (by decide) hversion (hsame.version ▸ hoffer.version)
  · exact dictGet_carried hoffer.held (by decide) (hmethod _) (hsame.method ▸ hoffer.method)
  · exact dictGet_carried hoffer.held (by decide) (isAddress_ascii haddress) hsigner

end offers

/-! ## Headers -/

section headers

variable {url seller symbol : JsStr} {signed : X402Async.PaymentToken}
  {challenge : PaidPaymentChallenge} {payload : List (JsStr × Value)}

/-- The client's own seller is the one of the requirement. -/
theorem isAddress_payTo (env : VerifyEnv) : isAddress (env.payTo.map asciiLower) = true :=
  isAddress_lower ((isAddress_eq _).trans env.payTo_address)

/-- A proof of the client is one that a program can hold. -/
theorem held_proof (htaken : Taken url seller symbol signed challenge)
    (hheld : (Value.obj payload).Held) : (Value.obj (proofEntries challenge payload)).Held := by
  have hresource : (Value.obj challenge.resource).Held := by
    refine held_record [js "url", js "description", js "mimeType"] rfl (by decide)
      (by decide) ?_
    intro v hv
    simp only [PaidPaymentChallenge.resource, List.map_cons, List.map_nil, List.mem_cons,
      List.not_mem_nil, or_false] at hv
    obtain rfl | rfl | rfl := hv
    · exact .str htaken.urlUnits
    · exact .str htaken.descriptionUnits
    · exact held_ascii (by decide)
  have hasset : ∀ c ∈ challenge.accepted.asset, c < 0x80 := by
    have hall : ∀ token ∈ paymentTokens, ∀ c ∈ token.asset, c < 0x80 := by decide
    rw [htaken.offer.asset]
    exact hall _ htaken.offer.registered
  have hpayTo : ∀ c ∈ challenge.accepted.payTo, c < 0x80 := by
    rw [htaken.offer.payTo]
    exact isAddress_ascii (isAddress_lower htaken.address)
  have haccepted : (Value.obj challenge.accepted.entries).Held := by
    refine held_record [js "scheme", js "network", js "amount", js "asset", js "payTo",
      js "maxTimeoutSeconds", js "extra"] rfl (by decide) (by decide) ?_
    intro v hv
    simp only [PaymentRequirement.entries, List.map_cons, List.map_nil, List.mem_cons,
      List.not_mem_nil, or_false] at hv
    obtain rfl | rfl | rfl | rfl | rfl | rfl | rfl := hv
    · exact held_ascii (by decide)
    · exact held_ascii (by decide)
    · rw [htaken.offer.amount]
      exact held_ascii (by decide)
    · exact held_ascii hasset
    · exact held_ascii hpayTo
    · rw [htaken.offer.timeout]
      exact held_num (by decide)
    · exact htaken.offer.held
  refine held_record [js "x402Version", js "resource", js "accepted", js "payload"] rfl
    (by decide) (by decide) ?_
  intro v hv
  simp only [proofEntries, List.map_cons, List.map_nil, List.mem_cons, List.not_mem_nil,
    or_false] at hv
  obtain rfl | rfl | rfl | rfl := hv
  · exact held_num (by decide)
  · exact hresource
  · exact haccepted
  · exact hheld

/-- A proof of the client as the seller has it. -/
theorem carried_proof (hreads : NumberReads codec numberText)
    (htaken : Taken url seller symbol signed challenge)
    (hseller : toLowerCase seller = env.payTo.map asciiLower) (hsame : SameToken signed token) :
    carriedEntries (numberJson codec numberText) (proofEntries challenge payload) =
      proofWire (carriedEntries (numberJson codec numberText) challenge.resource)
        (buildPaymentRequirement env.payTo token
          (carriedEntries (numberJson codec numberText) challenge.accepted.extra))
        (carriedEntries (numberJson codec numberText) payload) := by
  have htwo : numberJson codec numberText (.finite false (2 : ℕ)) = .int 2 :=
    numberJson_nat hreads (by decide)
  simp (disch := decide) only [proofEntries, natValue, carriedEntries, carried, points_ascii,
    htwo, carried_accepted hreads htaken.offer hseller hsame]
  rfl

/-- A proof nests its `extra` and its payload only. -/
theorem depth_proofWire {resource : List (JsStr × Value)} {payload : List (PyStr × Json)}
    (hresource : (Json.obj (carriedEntries (numberJson codec numberText) resource)).depth ≤ 2)
    (hextra : (Json.obj extra).depth ≤ 62) (hpayload : (Json.obj payload).depth ≤ 63) :
    (Json.obj (proofWire (carriedEntries (numberJson codec numberText) resource)
      (buildPaymentRequirement env.payTo token extra) payload)).depth ≤
      maxPaymentProofNesting := by
  simp only [proofWire, buildPaymentRequirement, Json.depth, Json.depthObj,
    maxPaymentProofNesting] at hresource hextra hpayload ⊢
  omega

/-- **The header of a proof** is decoded to the client's fields, and its
resource is named. -/
theorem decode_proof (hlib : Libraries env.lib env.eth codec numberText wallet)
    (htaken : Taken url seller symbol signed challenge) (hurl : url ≠ [])
    (hseller : toLowerCase seller = env.payTo.map asciiLower) (hsame : SameToken signed token)
    (hheld : (Value.obj payload).Held)
    (hlength : (X402Async.proofText numberText (proofEntries challenge payload)).length ≤
      maxPaymentSignatureCharacters)
    (hextra : (Json.obj (carriedEntries (numberJson codec numberText)
      challenge.accepted.extra)).depth ≤ 62)
    (hpayload : (Json.obj (carriedEntries (numberJson codec numberText) payload)).depth ≤ 63) :
    ∃ resource c rest, dictGet resource (py "url") = some (.str (c :: rest)) ∧
      decodePaymentSignature env
          (points (X402Async.proofText numberText (proofEntries challenge payload))) =
        some (proofWire resource
          (buildPaymentRequirement env.payTo token
            (carriedEntries (numberJson codec numberText) challenge.accepted.extra))
          (carriedEntries (numberJson codec numberText) payload)) := by
  have hcarried := @carried_proof env token codec numberText url seller symbol signed challenge
    payload hlib.numbers htaken hseller hsame
  have hresource : (Json.obj (carriedEntries (numberJson codec numberText)
      challenge.resource)).depth ≤ 2 := by
    simp only [PaidPaymentChallenge.resource, carriedEntries, carried, Json.depth, Json.depthObj]
    decide
  have hdecode := decode_proofText hlib (held_proof htaken hheld) hlength
    (hcarried ▸ depth_proofWire hresource hextra hpayload)
  rw [hcarried] at hdecode
  have hname : dictGet (carriedEntries (numberJson codec numberText) challenge.resource)
      (py "url") = some (.str (points challenge.url)) := by
    rw [PaidPaymentChallenge.resource]
    simp (disch := decide) only [carriedEntries, carried, points_ascii]
    rfl
  cases hpoints : points challenge.url with
  | nil =>
      have hback := utf16_points htaken.urlUnits
      rw [hpoints] at hback
      exact absurd (htaken.url.symm.trans hback.symm) hurl
  | cons c rest => exact ⟨_, c, rest, hpoints ▸ hname, hdecode⟩

end headers

/-! ## Proofs that the client builds -/

section accepted

variable {url seller symbol : JsStr} {signed : X402Async.PaymentToken}
  {challenge : PaidPaymentChallenge} {ttlSeconds now : Nat} {random : List Nat}

/-- The Permit2 authorization of the client is the one that the seller reads. -/
theorem carried_permit2Entries (hlib : Libraries env.lib env.eth codec numberText wallet)
    (htaken : Taken url seller symbol signed challenge)
    (hseller : toLowerCase seller = env.payTo.map asciiLower) (hsame : SameToken signed token)
    {spender : JsStr} (hspender : isAddress spender = true) (hnow : now + ttlSeconds ≤ 2 ^ 53)
    (nonce : Nat) :
    (Value.obj (permit2Entries numberText wallet challenge ttlSeconds now spender nonce)).Held ∧
      carriedEntries (numberJson codec numberText)
          (permit2Entries numberText wallet challenge ttlSeconds now spender nonce) =
        permit2Wire token (toLowerCase wallet.address) (toLowerCase spender)
          (env.payTo.map asciiLower) nonce (now + ttlSeconds) now := by
  have hasset : challenge.accepted.asset = token.address :=
    htaken.offer.asset.trans hsame.address.symm
  have hamount : challenge.accepted.amount = intText priceWei :=
    htaken.offer.amount.trans (by decide)
  have hpayTo : challenge.accepted.payTo = env.payTo.map asciiLower :=
    htaken.offer.payTo.trans hseller
  have hdeadline := natText_eq hlib.numbers hnow
  have hafter := natText_eq hlib.numbers (by omega : now ≤ 2 ^ 53)
  have hassetAscii := isAddress_ascii (token_texts hsame.registered).1
  have hamountAscii : ∀ c ∈ intText priceWei, c < 0x80 := intText_ascii 100000000000000000
  have hpayToAscii := isAddress_ascii (isAddress_payTo env)
  have hown := isAddress_ascii (isAddress_lower hlib.addresses.own)
  have hspenderAscii := isAddress_ascii (isAddress_lower hspender)
  rw [permit2Entries, hasset, hamount, hpayTo, hdeadline, hafter]
  constructor
  · refine held_record [js "permitted", js "from", js "spender", js "nonce", js "deadline",
      js "witness"] rfl (by decide) (by decide) ?_
    intro v hv
    simp only [List.map_cons, List.map_nil, List.mem_cons, List.not_mem_nil, or_false] at hv
    obtain rfl | rfl | rfl | rfl | rfl | rfl := hv
    · refine held_record [js "token", js "amount"] rfl (by decide) (by decide) ?_
      exact List.forall_mem_cons.2 ⟨held_ascii hassetAscii,
        List.forall_mem_singleton.2 (held_ascii hamountAscii)⟩
    · exact held_ascii hown
    · exact held_ascii hspenderAscii
    · exact held_ascii (intText_ascii nonce)
    · exact held_ascii (intText_ascii _)
    · refine held_record [js "to", js "validAfter"] rfl (by decide) (by decide) ?_
      exact List.forall_mem_cons.2 ⟨held_ascii hpayToAscii,
        List.forall_mem_singleton.2 (held_ascii (intText_ascii now))⟩
  · simp (disch := decide) only [carriedEntries, carried, points_ascii,
      points_ascii hassetAscii, points_ascii hpayToAscii,
      points_ascii hown, points_ascii hspenderAscii, points_ascii (intText_ascii nonce),
      points_ascii (intText_ascii (now + ttlSeconds)), points_ascii (intText_ascii now)]
    rfl

/-- The transfer authorization of the client is the one that the seller reads. -/
theorem carried_transferEntries (hlib : Libraries env.lib env.eth codec numberText wallet)
    (htaken : Taken url seller symbol signed challenge) (hnow : now + ttlSeconds ≤ 2 ^ 53)
    (hrandom : ∀ b ∈ random, b < 256) :
    (Value.obj (transferEntries numberText wallet challenge ttlSeconds now random
        (env.payTo.map asciiLower))).Held ∧
      carriedEntries (numberJson codec numberText)
          (transferEntries numberText wallet challenge ttlSeconds now random
            (env.payTo.map asciiLower)) =
        transferWire (toLowerCase wallet.address) (env.payTo.map asciiLower) (now + ttlSeconds)
          random := by
  have hamount : challenge.accepted.amount = intText priceWei :=
    htaken.offer.amount.trans (by decide)
  have hbefore := natText_eq hlib.numbers hnow
  have hamountAscii : ∀ c ∈ intText priceWei, c < 0x80 := intText_ascii 100000000000000000
  have hpayToAscii := isAddress_ascii (isAddress_payTo env)
  have hown := isAddress_ascii (isAddress_lower hlib.addresses.own)
  have hnonce : ∀ c ∈ js "0x" ++ toHex random, c < 0x80 := by
    intro c hc
    obtain hc | hc := List.mem_append.1 hc
    · have hall : ∀ c ∈ js "0x", c < 0x80 := by decide
      exact hall c hc
    · have := toHex_range hrandom c hc
      omega
  rw [transferEntries, hamount, hbefore]
  constructor
  · refine held_record [js "from", js "to", js "value", js "validAfter", js "validBefore",
      js "nonce"] rfl (by decide) (by decide) ?_
    intro v hv
    simp only [List.map_cons, List.map_nil, List.mem_cons, List.not_mem_nil, or_false] at hv
    obtain rfl | rfl | rfl | rfl | rfl | rfl := hv
    · exact held_ascii hown
    · exact held_ascii hpayToAscii
    · exact held_ascii hamountAscii
    · exact held_ascii (by decide)
    · exact held_ascii (intText_ascii _)
    · exact held_ascii hnonce
  · simp (disch := decide) only [carriedEntries, carried, points_ascii,
      points_ascii hpayToAscii, points_ascii hown, points_ascii hnonce,
      points_ascii (intText_ascii (now + ttlSeconds))]
    rfl

/-- The payload of the client is the one that the seller reads. -/
theorem carried_payload {key signature : JsStr} (hsignature : isSignature signature = true)
    (hkey : ∀ c ∈ key, c < 0x80) (hne : js "signature" ≠ key)
    {authorization : List (JsStr × Value)} (hheld : (Value.obj authorization).Held) :
    (Value.obj (payloadEntries key signature authorization)).Held ∧
      carriedEntries (numberJson codec numberText)
          (payloadEntries key signature authorization) =
        payloadWire key signature (carriedEntries (numberJson codec numberText) authorization) := by
  have hascii := isSignature_ascii hsignature
  constructor
  · refine held_record [js "signature", key] rfl ?_ (by simp [hne]) ?_
    · exact List.forall_mem_cons.2 ⟨by decide, List.forall_mem_singleton.2 hkey⟩
    · exact List.forall_mem_cons.2 ⟨held_ascii hascii, List.forall_mem_singleton.2 hheld⟩
  · rw [payloadEntries, carriedEntries, carriedEntries, carriedEntries, carried, carried,
      points_ascii hascii, points_ascii hkey, points_ascii (by decide)]
    rfl

end accepted

section built

variable {url seller symbol : JsStr} {value : Value} {signed : X402Async.PaymentToken}
  {challenge : PaidPaymentChallenge} {ttlSeconds now : Nat} {random : List Nat}

/-- A registered contract is hashed as the wallet signs it. -/
theorem sameAddress_token (hlib : Libraries env.lib env.eth codec numberText wallet)
    (htaken : Taken url seller symbol signed challenge) (hsame : SameToken signed token)
    {hashed : PyStr} (hashedAddress : isAddress hashed = true)
    (hlower : toLowerCase hashed = toLowerCase token.address) :
    ∃ bytes, SameAddress wallet env.eth signed.asset hashed bytes := by
  have hasset : isAddress signed.asset = true := by
    rw [← hsame.address]
    exact (token_texts hsame.registered).1
  have hmem : signed.asset ∈ permit2Address :: paymentTokens.map (·.asset) :=
    List.mem_cons_of_mem _ (List.mem_map_of_mem htaken.offer.registered)
  exact sameAddress hlib.addresses hlib.checksums hasset
    (hlib.addresses.contracts _ hmem) hashedAddress
    (hlower.trans (congrArg toLowerCase hsame.address))

/-- An address in lower case is hashed as the wallet signs it. -/
theorem sameAddress_lower (hlib : Libraries env.lib env.eth codec numberText wallet) {s : JsStr}
    (h : isAddress s = true) :
    ∃ bytes, SameAddress wallet env.eth (toLowerCase s) (toLowerCase s) bytes :=
  sameAddress hlib.addresses hlib.checksums (isAddress_lower h)
    (hlib.addresses.lower _ (isAddress_lower h) (toLowerCase_idem s)) (isAddress_lower h) rfl

/-- **What the client signs for Permit2** is what the seller hashes. -/
theorem permit2_signed (hlib : Libraries env.lib env.eth codec numberText wallet)
    (htaken : Taken url seller symbol signed challenge)
    (hseller : toLowerCase seller = env.payTo.map asciiLower) (hsame : SameToken signed token)
    (hmethod : signed.transferMethod = js "permit2-exact") {spender : JsStr}
    (hspender : X402Async.get challenge.accepted.extra (js "spenderAddress") =
      some (.str spender))
    (hspenderAddress : isAddress spender = true) (httl : 0 < ttlSeconds ∧ ttlSeconds ≤ 3600)
    (hnow : now + ttlSeconds ≤ 2 ^ 53) (hnonce : bytesNat random < 2 ^ 256) :
    ∃ digest signature,
      permit2Payload numberText wallet challenge ttlSeconds now random =
          some (payloadEntries (js "permit2Authorization") signature
            (permit2Entries numberText wallet challenge ttlSeconds now spender
              (bytesNat random))) ∧
        isSignature signature = true ∧
        permit2Digest env.eth token.asset priceWei (toLowerCase spender) (bytesNat random)
          ((now + ttlSeconds : ℕ) : Int) (env.payTo.map asciiLower) now = some digest ∧
        env.eth.recoverHash digest signature = some wallet.address := by
  obtain ⟨contractBytes, hcontract⟩ := sameAddress hlib.addresses hlib.checksums
    (by decide : isAddress permit2Address = true)
    (hlib.addresses.contracts _ List.mem_cons_self) (by decide) rfl
  obtain ⟨tokenBytes, htoken⟩ := @sameAddress_token env token codec numberText wallet url seller
    symbol signed challenge hlib htaken hsame token.asset
    (isAddress_lower (token_texts hsame.registered).1) (toLowerCase_idem _)
  obtain ⟨spenderBytes, hspenders⟩ := sameAddress_lower hlib hspenderAddress
  obtain ⟨recipientBytes, hrecipient⟩ := sameAddress_lower hlib
    ((isAddress_eq env.payTo).trans env.payTo_address)
  have hprice : (100000000000000000 : Nat) < 2 ^ 256 := by decide
  obtain ⟨digest, hdigest⟩ := permit2Digest_isSome hcontract htoken hspenders hrecipient hprice
    hnonce (by omega : now + ttlSeconds < 2 ^ 256) (by omega : now < 2 ^ 256)
  have hboth := permit2Digest_eq hcontract htoken hspenders hrecipient 100000000000000000
    (bytesNat random) (now + ttlSeconds) now
  rw [hdigest] at hboth
  obtain ⟨message, hmessage, hmessageDigest⟩ := Option.bind_eq_some_iff.1 hboth.symm
  obtain ⟨signature, hsignature, hshape, hrecover⟩ := hlib.signs message digest hmessageDigest
  refine ⟨digest, signature, ?_, hshape, hdigest, hrecover⟩
  have hprices : natOf paidAmount = 100000000000000000 := by decide
  have hpayTo : challenge.accepted.payTo = toLowerCase env.payTo :=
    htaken.offer.payTo.trans hseller
  have hsafe : now ≤ maxSafeInteger := by
    unfold maxSafeInteger
    omega
  rw [permit2Payload]
  simp only [hspender, X402Async.string, htaken.offer.amount, htaken.offer.method, hmethod,
    htaken.offer.asset, hpayTo, hprices, hspenderAddress, hsafe, httl.1, httl.2,
    hmessage, hsignature, Option.bind_eq_bind, Option.bind_some, decide_true, Bool.and_self,
    if_true]

/-- **What the client signs of a transfer** is what the seller hashes. -/
theorem transfer_signed (hlib : Libraries env.lib env.eth codec numberText wallet)
    (htaken : Taken url seller symbol signed challenge)
    (hseller : toLowerCase seller = env.payTo.map asciiLower) (hsame : SameToken signed token)
    (hnow : now + ttlSeconds ≤ 2 ^ 53) (hlength : random.length = 32) :
    ∃ digest signature,
      transferPayload numberText wallet challenge ttlSeconds now random =
          some (payloadEntries (js "authorization") signature
            (transferEntries numberText wallet challenge ttlSeconds now random
              (env.payTo.map asciiLower))) ∧
        isSignature signature = true ∧
        eip712Digest env.eth (toLowerCase wallet.address) (env.payTo.map asciiLower) priceWei 0
          ((now + ttlSeconds : ℕ) : Int) random token = some digest ∧
        env.eth.recoverHash digest signature = some wallet.address := by
  have hown := hlib.addresses.own
  have hpayTo : isAddress env.payTo = true := (isAddress_eq env.payTo).trans env.payTo_address
  obtain ⟨contractBytes, hcontract⟩ := @sameAddress_token env token codec numberText wallet url
    seller symbol signed challenge hlib htaken hsame token.address
    (token_texts hsame.registered).1 rfl
  rw [← hsame.address] at hcontract
  obtain ⟨payerBytes, hpayer⟩ := sameAddress_lower hlib hown
  obtain ⟨recipientBytes, hrecipient⟩ := sameAddress_lower hlib hpayTo
  have hprice : (100000000000000000 : Nat) < 2 ^ 256 := by decide
  obtain ⟨digest, hdigest⟩ := eip712Digest_isSome hcontract hpayer hrecipient hprice
    (by decide : 0 < 2 ^ 256) (by omega : now + ttlSeconds < 2 ^ 256) random
  have hboth := eip712Digest_eq hsame.registered hcontract hpayer hrecipient 100000000000000000 0
    (now + ttlSeconds) hlength
  rw [hdigest] at hboth
  obtain ⟨message, hmessage, hmessageDigest⟩ := Option.bind_eq_some_iff.1 hboth.symm
  obtain ⟨signature, hsignature, hshape, hrecover⟩ := hlib.signs message digest hmessageDigest
  refine ⟨digest, signature, ?_, hshape, hdigest, hrecover⟩
  have hprices : natOf paidAmount = 100000000000000000 := by decide
  have hto : challenge.accepted.payTo = toLowerCase env.payTo :=
    htaken.offer.payTo.trans hseller
  -- `getAddress` gives back the recipient, in other letters
  have hlower := isAddress_lower hpayTo
  obtain ⟨found, hfound⟩ := Option.isSome_iff_exists.1
    (hlib.addresses.lower _ hlower (toLowerCase_idem env.payTo))
  have hfoundLower : toLowerCase found = toLowerCase env.payTo :=
    (hlib.addresses.same _ _ hlower hfound).2.trans (toLowerCase_idem env.payTo)
  rw [hsame.name, hsame.version, hsame.address] at hmessage
  rw [transferPayload]
  simp only [htaken.offer.name, htaken.offer.version, X402Async.string, hto, hfound,
    Option.map_some, hfoundLower, htaken.offer.amount, htaken.offer.asset, hprices, hmessage,
    hsignature, Option.bind_eq_bind, Option.bind_some]
  rfl

end built

/-! ## A buyer of the sample seller -/

/-- The text of strict UTF-8. -/
noncomputable def utf8Text (bytes : List Nat) : Option PyStr :=
  open Classical in if h : ∃ s, utf8Encode s = some bytes then some h.choose else none

/-- Strict UTF-8 is read back. -/
theorem utf8Text_eq {s : PyStr} {bytes : List Nat} (h : utf8Encode s = some bytes) :
    utf8Text bytes = some s := by
  have hexists : ∃ s, utf8Encode s = some bytes := ⟨s, h⟩
  rw [utf8Text, dif_pos hexists]
  exact congrArg some (utf8Encode_inj hexists.choose_spec h)

/-- ASCII Python with its codecs. -/
noncomputable def buyerLib : PyLib :=
  { asciiLib with
    b64decode := base64Decode
    b64encode := base64Encode
    utf8Decode := utf8Text
    loadsFinite := NotifyAuth.recordedCodec.loadsUnique }

/-- Keccak-256 of what is hashed of the two payments of the buyer. -/
def buyerKeccak : List (Nat × Nat) :=
  [(0x189eaa9446703d4,
    0x8b73c3c69bb8fe3d512ecc4cf759cc79239f7b179b0ffacaa9a75d522b39400f),
   (0x561fd4ae0f9094,
    0x66693480725bd6e831af68ab173c3c26ad821fa40b75357d5da67c09d682fb0e),
   (0x31,
    0xc89efdaa54c0f20c7adf612882df0950f5a951637e0307cdcb4c672f298b8bc6),
   (0x18b7e383071cf6ec,
    0x358738403e5a61fdc30a8be78a60f289cbe4d2545b735a344b6229c70c1679b6),
   (0xe3c05073a26f3,
    0x7c7c6cdb67a18743f49ec6fa9b35f50d52ed05cbed4cc592e13b44501c1a2267),
   (0x17d39fc00705f7fe,
    0x464da9f8d0578de9d0dbdb30357037b737d2c31f72f2169a28d46ffd8e7ce569),
   (0x1d21da0b5101fddc,
    0xd2f42b9056e3e67ec5d4a0ddfc2333d8dd2d7e9319cc49cf8182a44578a5edb7),
   (0x1c699a7645a3c5b4,
    0x8cad95687ba82c2ce50e74f7b754645e5117c3a5bec8151c0726d5857980a866),
   (0x5065726d697432,
    0x9ac997416e8ff9d2ff6bebeb7149f65cdae5e32e2b90440b566bb3044041d36a),
   (0x23c867e50a285ae,
    0x4142cc3c823f819c467fa4437d637fe20589a31dfcd1da2ff22292c9ed9344e7),
   (0x1833e5b1a87d6ded,
    0x618358ac3db8dc274f0cd8829da7e234bd48cd73c4a740aede1adec9846d06a1),
   (0x4e8d1c1fa6477e,
    0xa88ddc4b5e4c6b7678a6578f9e2c3db76751fc7e7ebd4cecae9171189444f5d3),
   (0x94c66f26094f742,
    0xd97b3239a7f32295517bd14cb074edfdd188dfe5eb42f802bb26d4fd1eb12c37),
   (0x1f919a68a46d1955,
    0x5f99d2d9a872d9c8cf28701d69fb9b7d38a10bbaaab2e360d94e228bce5a2882),
   (0x28824683fbfa329,
    0xebc156cd23678a74c94df13d772ef5478420637f0c94bd10d509e1dc98f521c7),
   (0x8d94f4dcfc1b903,
    0xa0ce3d1f07079cbb89b4bbeae81798a69b73dc1ca8df6651061b1bdb550364dc),
   (0x1ebd106206d6d423,
    0x29cf98d6a893a18a6fbed043d5be061211a0279c72d848a1a4ec012c57200382)]

def buyerAddress : JsStr := js "0xFCAd0B19bB29D4674531d6f115237E16AfCE377c"

def transferSignature : JsStr :=
  js "0x27d3e775304d927a4e13a1da60f5e821d81482dd315400b065949161724a518c" ++
    js "1006a501d357fbb647f2bd1eed722b73cf98bb915705aa19037a32fb6791165f1c"

def permit2Signature : JsStr :=
  js "0xdd1deeb651df8a263e40fb48fea2bebfa4e379873dbba26787e1161df34da21d" ++
    js "675f8f5be616254e48108dcdb86dda8e68713112c21bb4f48d74bd1e247da8361b"

/-- What the buyer's key makes of a digest; of others than the two recorded ones
a placeholder. -/
def buyerSign (digest : List Nat) : JsStr :=
  if bytesNat digest = 0xd2f42b9056e3e67ec5d4a0ddfc2333d8dd2d7e9319cc49cf8182a44578a5edb7 then
    transferSignature
  else if bytesNat digest = 0x29cf98d6a893a18a6fbed043d5be061211a0279c72d848a1a4ec012c57200382
    then permit2Signature
  else js "0x" ++ List.replicate 130 48

set_option maxRecDepth 2000 in
/-- The buyer's signatures have the form of one. -/
theorem isSignature_buyerSign (digest : List Nat) : isSignature (buyerSign digest) = true := by
  unfold buyerSign
  split_ifs
  · decide
  · decide
  · decide

def buyerEthereum : Ethereum where
  keccak := fun bytes => wordBytes ((buyerKeccak.lookup (hashKey bytes)).getD 0)
  recoverHash := fun digest signature =>
    if signature = buyerSign digest then some buyerAddress else none
  addressWord := sampleEthereum.addressWord

/-- The addresses of the payments with the letters of their checksums. -/
def checksummed : List JsStr :=
  permit2Address :: paymentTokens.map (·.asset) ++
    [buyerAddress, js "0x2B5AD5c4795c026514f8317c7a215E218DcCD6cF", js "0x1efF47bc3a10a45D4B230B5d10E37751FE6AA718"]

def buyerWallet : Wallet where
  address := buyerAddress
  getAddress s :=
    if isAddress s && (toLowerCase s = s || checksummed.contains s) then
      some ((checksummed.find? (toLowerCase · = toLowerCase s)).getD s)
    else none
  signTypedData m := (Eip712.Message.digest buyerEthereum.keccak m).map buyerSign

/-- The buyer's libraries agree with the seller's. -/
theorem buyerLibraries : Libraries buyerLib buyerEthereum NotifyAuth.recordedCodec
    NotifyAuth.recordedText buyerWallet where
  ascii := ⟨fun _ _ => rfl, fun _ _ => rfl, fun _ _ => rfl, fun _ _ => rfl⟩
  base64 bs hbs := ⟨base64Decode_encode hbs, rfl⟩
  utf8 s bs h := utf8Text_eq h
  numbers := NotifyAuth.numberReads_recorded
  loads v _ _ := rfl
  checksums s hs := if_pos hs
  addresses :=
    { own := by decide
      lower := by
        intro s hs hlower
        simp [buyerWallet, hs, hlower]
      contracts := by decide
      same := by
        intro s t hs hget
        have hall : ∀ address ∈ checksummed, isAddress address = true := by decide
        simp only [buyerWallet] at hget
        split at hget
        · obtain rfl := Option.some.inj hget
          cases hfind : checksummed.find? (toLowerCase · = toLowerCase s) with
          | none => exact ⟨hs, rfl⟩
          | some address =>
              exact ⟨hall address (List.mem_of_find?_eq_some hfind),
                by simpa using List.find?_some hfind⟩
        · cases hget }
  signs := by
    intro message digest hdigest
    refine ⟨buyerSign digest, ?_, isSignature_buyerSign digest, if_pos rfl⟩
    simp [buyerWallet, hdigest]

/-- The offer of one token by the sample seller. -/
def sampleOffer (token : X402Async.PaymentToken) (more : List (JsStr × Value)) :
    List (JsStr × Value) :=
  [(js "scheme", .str (js "exact")), (js "network", .str (js "eip155:56")),
    (js "amount", .str paidAmount), (js "asset", .str token.asset),
    (js "payTo", .str samplePayTo), (js "maxTimeoutSeconds", natValue 600),
    (js "extra", .obj ([(js "name", .str token.name), (js "version", .str token.version),
      (js "assetTransferMethod", .str token.transferMethod),
      (js "signerAddress", .str (js "0x6813eb9362372eef6200f3b1dbc3f819671cba69"))] ++ more))]

def sampleSpender : List (JsStr × Value) :=
  [(js "spenderAddress", .str (js "0x1efF47bc3a10a45D4B230B5d10E37751FE6AA718"))]

/-- The body of a challenge for one token. -/
def sampleChallenge (token : X402Async.PaymentToken) (more : List (JsStr × Value)) : Value :=
  .obj [(js "paymentRequired", .obj [(js "x402Version", natValue 2),
    (js "accepts", .arr [.obj (sampleOffer token more)]),
    (js "resource", .obj [(js "url", .str sampleUrl),
      (js "description", .str (js "Stock analysis for NVDA")),
      (js "mimeType", .str (js "application/json"))])])]

/-- The offer as the buyer takes it. -/
def sampleTaken (token : X402Async.PaymentToken) (more : List (JsStr × Value)) :
    PaidPaymentChallenge where
  url := sampleUrl
  description := js "Stock analysis for NVDA"
  accepted :=
    { amount := paidAmount
      asset := token.asset
      payTo := samplePayTo
      maxTimeoutSeconds := 600
      extra := [(js "name", .str token.name), (js "version", .str token.version),
        (js "assetTransferMethod", .str token.transferMethod),
        (js "signerAddress", .str (js "0x6813eb9362372eef6200f3b1dbc3f819671cba69"))] ++ more }

/-- The challenge is a value that the buyer can hold. -/
theorem held_sampleChallenge {token : X402Async.PaymentToken} (htoken : token ∈ paymentTokens)
    {more : List (JsStr × Value)} (hmore : more = [] ∨ more = sampleSpender) :
    (sampleChallenge token more).Held := by
  have hall : ∀ token ∈ paymentTokens, (∀ c ∈ token.asset, c < 0x80) ∧
      (∀ c ∈ token.name, c < 0x80) ∧ (∀ c ∈ token.version, c < 0x80) ∧
      ∀ c ∈ token.transferMethod, c < 0x80 := by
    decide
  obtain ⟨hasset, hname, hversion, hmethod⟩ := hall token htoken
  have hextra : (Value.obj ([(js "name", .str token.name), (js "version", .str token.version),
      (js "assetTransferMethod", .str token.transferMethod), (js "signerAddress",
        .str (js "0x6813eb9362372eef6200f3b1dbc3f819671cba69"))] ++ more)).Held := by
    obtain rfl | rfl := hmore
    · refine held_record [js "name", js "version", js "assetTransferMethod",
        js "signerAddress"] rfl (by decide) (by decide) ?_
      simp only [List.append_nil, List.map_cons, List.map_nil, List.forall_mem_cons,
        List.not_mem_nil, false_imp_iff, implies_true, and_true]
      exact ⟨held_ascii hname, held_ascii hversion, held_ascii hmethod, held_ascii (by decide)⟩
    · refine held_record [js "name", js "version", js "assetTransferMethod", js "signerAddress",
        js "spenderAddress"] rfl (by decide) (by decide) ?_
      simp only [sampleSpender, List.cons_append, List.nil_append, List.map_cons, List.map_nil,
        List.forall_mem_cons, List.not_mem_nil, false_imp_iff, implies_true, and_true]
      exact ⟨held_ascii hname, held_ascii hversion, held_ascii hmethod, held_ascii (by decide),
        held_ascii (by decide)⟩
  have hoffer : (Value.obj (sampleOffer token more)).Held := by
    refine held_record [js "scheme", js "network", js "amount", js "asset", js "payTo",
      js "maxTimeoutSeconds", js "extra"] rfl (by decide) (by decide) ?_
    simp only [sampleOffer, List.map_cons, List.map_nil, List.forall_mem_cons,
      List.not_mem_nil, false_imp_iff, implies_true, and_true]
    exact ⟨held_ascii (by decide), held_ascii (by decide), held_ascii (by decide),
      held_ascii hasset, held_ascii (by decide), held_num (by decide), hextra⟩
  have hresource : (Value.obj [(js "url", .str sampleUrl),
      (js "description", .str (js "Stock analysis for NVDA")),
      (js "mimeType", .str (js "application/json"))]).Held := by
    refine held_record [js "url", js "description", js "mimeType"] rfl (by decide) (by decide) ?_
    simp only [List.map_cons, List.map_nil, List.forall_mem_cons, List.not_mem_nil, false_imp_iff,
      implies_true, and_true]
    exact ⟨held_ascii (by decide), held_ascii (by decide), held_ascii (by decide)⟩
  refine held_record [js "paymentRequired"] rfl (by decide) (by decide) ?_
  refine List.forall_mem_singleton.2 ?_
  refine held_record [js "x402Version", js "accepts", js "resource"] rfl (by decide) (by decide) ?_
  simp only [List.map_cons, List.map_nil, List.forall_mem_cons, List.not_mem_nil, false_imp_iff,
    implies_true, and_true]
  exact ⟨held_num (by decide), .arr (List.forall_mem_singleton.2 hoffer), hresource⟩

def usdcPayment : X402Async.PaymentToken := paymentTokens[2]

def uPayment : X402Async.PaymentToken := paymentTokens[0]

noncomputable def buyerSeller : VerifyEnv :=
  ⟨buyerLib, buyerEthereum, samplePayTo, sample.verify.payTo_address⟩

/-! ## Acceptance -/

section acceptance

variable {url seller symbol : JsStr} {value : Value} {challenge : PaidPaymentChallenge}
  {ttlSeconds now : Nat} {random : List Nat}

/-- **A Permit2 proof of the client is accepted.**  The client builds a proof
for every offer of this seller that is paid through Permit2.  The seller takes
it as a payment of the price by the client's wallet, from the moment of signing
until its deadline. -/
theorem permit2_accepted (hlib : Libraries env.lib env.eth codec numberText wallet)
    (hheld : value.Held) (hurl : url ≠ [])
    (hseller : toLowerCase seller = env.payTo.map asciiLower)
    (hchallenge : parsePaymentChallenge url seller value symbol = some challenge)
    (hmethod : X402Async.get challenge.accepted.extra (js "assetTransferMethod") =
      some (.str (js "permit2-exact")))
    (httl : 0 < ttlSeconds ∧ ttlSeconds ≤ 3600) (hnow : now + ttlSeconds ≤ 2 ^ 53)
    (hlength : random.length = 32) (hrandom : ∀ b ∈ random, b < 256) :
    ∃ text, buildPaymentProof numberText wallet challenge ttlSeconds now random = some text ∧
      (text.length ≤ maxPaymentSignatureCharacters →
        (Json.obj (carriedEntries (numberJson codec numberText)
          challenge.accepted.extra)).depth ≤ 62 →
        ∃ token ∈ tokens, token.symbol = symbol ∧ ∃ proof, ∀ clock allowExpired,
          validatePaymentProof env (points text) clock allowExpired =
            (checkWindow clock now (now + ttlSeconds : ℕ) allowExpired).map fun _ =>
              { proof := proof
                fromAddress := toLowerCase wallet.address
                toAddress := env.payTo.map asciiLower
                value := priceWei
                validAfter := now
                validBefore := (now + ttlSeconds : ℕ)
                nonce := intText (bytesNat random)
                nonceBytes := random
                asset := token.asset
                tokenSymbol := token.symbol
                transferMethod := .permit2Exact }) := by
  obtain ⟨signed, htaken⟩ := parsePaymentChallenge_taken hheld hchallenge
  obtain ⟨token, hsame⟩ := sameToken htaken.offer.registered
  obtain ⟨hnonce, hword⟩ := uintWord_bytesNat hlength hrandom
  -- the token is one that is paid through Permit2
  have hsigned : signed.transferMethod = js "permit2-exact" := by
    rw [htaken.offer.method] at hmethod
    exact Value.str.inj (Option.some.inj hmethod)
  have hexact : token.transferMethod = .permit2Exact := by
    cases hcase : token.transferMethod with
    | permit2Exact => rfl
    | eip3009 =>
        have htext := hsame.method.trans hsigned
        rw [hcase] at htext
        exact absurd htext (by decide)
  obtain ⟨spender, hspender, hspenderAddress⟩ := htaken.offer.spender hsigned
  obtain ⟨digest, signature, hpayload, hshape, hdigest, hrecover⟩ := permit2_signed hlib htaken
    hseller hsame hsigned hspender hspenderAddress httl hnow hnonce
  obtain ⟨hentries, hcarried⟩ := carried_permit2Entries hlib htaken hseller hsame hspenderAddress
    hnow (bytesNat random)
  obtain ⟨hpayloadHeld, hpayloadWire⟩ := carried_payload hshape
    (by decide : ∀ c ∈ js "permit2Authorization", c < 0x80) (by decide) hentries
  rw [hcarried] at hpayloadWire
  refine ⟨X402Async.proofText numberText (proofEntries challenge (payloadEntries
    (js "permit2Authorization") signature (permit2Entries numberText wallet challenge ttlSeconds
      now spender (bytesNat random)))), ?_, ?_⟩
  · rw [buildPaymentProof, htaken.offer.amount, if_neg (not_not_intro rfl), hmethod, hpayload]
    rfl
  intro hsize hdepth
  obtain ⟨resource, c, rest, hresource, hdecode⟩ := decode_proof hlib htaken hurl hseller hsame
    hpayloadHeld hsize hdepth (by
      rw [hpayloadWire]
      simp only [payloadWire, permit2Wire, Json.depth, Json.depthObj]
      decide)
  rw [hpayloadWire] at hdecode
  obtain ⟨signer, hextra⟩ := @readExtra_carried token codec numberText _ signed
    challenge.accepted htaken.offer hsame
  have hpayer := isAddress_lower hlib.addresses.own
  have hown : env.lib.lower wallet.address = toLowerCase (toLowerCase wallet.address) :=
    (lower_address hlib.addresses.own).trans (toLowerCase_idem _).symm
  have hverdict := permit2_validated hsame.registered hexact hresource hdecode hextra
    (dictGet_carried htaken.offer.held (by decide) (isAddress_ascii hspenderAddress) hspender)
    hspenderAddress hshape hpayer hnonce (by omega) (by omega) hdigest hrecover hown
  rw [hword, hexact, toLowerCase_idem] at hverdict
  exact ⟨token, hsame.registered, hsame.symbol.trans htaken.symbol, _, hverdict⟩

/-- A payment in USDC. -/
theorem permit2_accepted_usdc :
    ∃ text payment,
      buildPaymentProof NotifyAuth.recordedText buyerWallet
        (sampleTaken usdcPayment sampleSpender) 600 1800000000 (List.range 32) = some text ∧
      validatePaymentProof buyerSeller (points text) 1800000010 false = .ok payment ∧
      payment.fromAddress = toLowerCase buyerAddress := by
  obtain ⟨text, hbuilt, haccepted⟩ := @permit2_accepted buyerSeller NotifyAuth.recordedCodec
    NotifyAuth.recordedText buyerWallet sampleUrl samplePayTo (js "USDC")
    (sampleChallenge usdcPayment sampleSpender) (sampleTaken usdcPayment sampleSpender) 600
    1800000000 (List.range 32) buyerLibraries
    (held_sampleChallenge (List.getElem_mem _) (Or.inr rfl)) (by decide) (by decide) rfl rfl
    (by decide) (by decide) (by decide) (by decide)
  have hsize : ((buildPaymentProof NotifyAuth.recordedText buyerWallet
      (sampleTaken usdcPayment sampleSpender) 600 1800000000 (List.range 32)).all
        (decide <| ·.length ≤ maxPaymentSignatureCharacters)) = true := by
    decide +kernel
  rw [hbuilt] at hsize
  obtain ⟨token, -, -, proof, hverdict⟩ := haccepted (of_decide_eq_true hsize) (by decide)
  exact ⟨text, _, hbuilt, hverdict 1800000010 false, rfl⟩

/-- **A transfer authorization of the client is accepted.**  The client builds a
proof for every offer of this seller that is paid by a transfer.  The seller
takes it as a payment of the price by the client's wallet until it runs out. -/
theorem transfer_accepted (hlib : Libraries env.lib env.eth codec numberText wallet)
    (hheld : value.Held) (hurl : url ≠ [])
    (hseller : toLowerCase seller = env.payTo.map asciiLower)
    (hchallenge : parsePaymentChallenge url seller value symbol = some challenge)
    (hmethod : X402Async.get challenge.accepted.extra (js "assetTransferMethod") =
      some (.str (js "eip3009")))
    (hnow : now + ttlSeconds ≤ 2 ^ 53) (hlength : random.length = 32)
    (hrandom : ∀ b ∈ random, b < 256) :
    ∃ text, buildPaymentProof numberText wallet challenge ttlSeconds now random = some text ∧
      (text.length ≤ maxPaymentSignatureCharacters →
        (Json.obj (carriedEntries (numberJson codec numberText)
          challenge.accepted.extra)).depth ≤ 62 →
        ∃ token ∈ tokens, token.symbol = symbol ∧ ∃ proof, ∀ clock allowExpired,
          validatePaymentProof env (points text) clock allowExpired =
            (checkWindow clock 0 (now + ttlSeconds : ℕ) allowExpired).map fun _ =>
              { proof := proof
                fromAddress := toLowerCase wallet.address
                toAddress := env.payTo.map asciiLower
                value := priceWei
                validAfter := 0
                validBefore := (now + ttlSeconds : ℕ)
                nonce := py "0x" ++ toHex random
                nonceBytes := random
                asset := token.asset
                tokenSymbol := token.symbol
                transferMethod := .eip3009 }) := by
  obtain ⟨signed, htaken⟩ := parsePaymentChallenge_taken hheld hchallenge
  obtain ⟨token, hsame⟩ := sameToken htaken.offer.registered
  -- the token is one that is paid by a transfer
  have hsigned : signed.transferMethod = js "eip3009" := by
    rw [htaken.offer.method] at hmethod
    exact Value.str.inj (Option.some.inj hmethod)
  have hexact : token.transferMethod = .eip3009 := by
    cases hcase : token.transferMethod with
    | eip3009 => rfl
    | permit2Exact =>
        have htext := hsame.method.trans hsigned
        rw [hcase] at htext
        exact absurd htext (by decide)
  obtain ⟨digest, signature, hpayload, hshape, hdigest, hrecover⟩ := transfer_signed hlib htaken
    hseller hsame hnow hlength
  obtain ⟨hentries, hcarried⟩ := carried_transferEntries hlib htaken hnow hrandom
  obtain ⟨hpayloadHeld, hpayloadWire⟩ := carried_payload hshape
    (by decide : ∀ c ∈ js "authorization", c < 0x80) (by decide) hentries
  rw [hcarried] at hpayloadWire
  refine ⟨X402Async.proofText numberText (proofEntries challenge (payloadEntries
    (js "authorization") signature (transferEntries numberText wallet challenge ttlSeconds now
      random (env.payTo.map asciiLower)))), ?_, ?_⟩
  · have hne : some (js "eip3009") ≠ some (js "permit2-exact") := by decide
    rw [buildPaymentProof, htaken.offer.amount, if_neg (not_not_intro rfl), hmethod, hpayload]
    exact congrArg (Option.map _) (if_neg hne)
  intro hsize hdepth
  obtain ⟨resource, c, rest, hresource, hdecode⟩ := decode_proof hlib htaken hurl hseller hsame
    hpayloadHeld hsize hdepth (by
      rw [hpayloadWire]
      simp only [payloadWire, transferWire, Json.depth, Json.depthObj]
      decide)
  rw [hpayloadWire] at hdecode
  obtain ⟨signer, hextra⟩ := @readExtra_carried token codec numberText _ signed
    challenge.accepted htaken.offer hsame
  have hpayer := isAddress_lower hlib.addresses.own
  have hown : env.lib.lower wallet.address = toLowerCase (toLowerCase wallet.address) :=
    (lower_address hlib.addresses.own).trans (toLowerCase_idem _).symm
  rw [← toLowerCase_idem] at hdigest
  have hverdict := transfer_validated hlib.ascii hsame.registered hexact hresource hdecode hextra
    hshape hpayer hnow hlength hrandom hdigest hrecover hown
  rw [hexact, toLowerCase_idem] at hverdict
  exact ⟨token, hsame.registered, hsame.symbol.trans htaken.symbol, _, hverdict⟩

/-- A payment in U. -/
theorem transfer_accepted_u :
    ∃ text payment,
      buildPaymentProof NotifyAuth.recordedText buyerWallet (sampleTaken uPayment []) 600
        1800000000 (List.range 32) = some text ∧
      validatePaymentProof buyerSeller (points text) 1800000010 false = .ok payment ∧
      payment.fromAddress = toLowerCase buyerAddress := by
  obtain ⟨text, hbuilt, haccepted⟩ := @transfer_accepted buyerSeller NotifyAuth.recordedCodec
    NotifyAuth.recordedText buyerWallet sampleUrl samplePayTo (js "U")
    (sampleChallenge uPayment []) (sampleTaken uPayment []) 600 1800000000 (List.range 32)
    buyerLibraries (held_sampleChallenge (List.getElem_mem _) (Or.inl rfl)) (by decide)
    (by decide) rfl rfl (by decide) (by decide) (by decide)
  have hsize : ((buildPaymentProof NotifyAuth.recordedText buyerWallet (sampleTaken uPayment [])
      600 1800000000 (List.range 32)).all
        (decide <| ·.length ≤ maxPaymentSignatureCharacters)) = true := by
    decide +kernel
  rw [hbuilt] at hsize
  obtain ⟨token, -, -, proof, hverdict⟩ := haccepted (of_decide_eq_true hsize) (by decide)
  exact ⟨text, _, hbuilt, hverdict 1800000010 false, rfl⟩

end acceptance

end X402
