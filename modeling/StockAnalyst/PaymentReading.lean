import StockAnalyst.PaymentDigest
import StockAnalyst.PaymentOffer

/-!
# What the seller reads of a proof

The texts that the client writes are the texts that the seller's readers take:
numbers, words, addresses and tokens.  Of its own requirement the seller reads
every field of a proof, and its verdict is then left to the clock.
-/

namespace X402

open Python Js Deliverable X402Async NotifySecurity

/-! ## Texts of the client -/

/-- A decimal number of the client is the canonical number of the seller. -/
theorem wireUint256_intText {n : Nat} (h : n < 2 ^ 256) :
    wireUint256 (some (.str (intText n))) = some (n : Int) := by
  by_cases hzero : n = 0
  · rw [hzero]
    rfl
  have hdigits := isUnsignedInteger_natDigits hzero
  have hvalue := natOf_natDigits n
  have hlength : (intText n).length ≤ 78 := length_intText_le (by decide) (by omega)
  rw [intText_natCast, if_neg hzero] at hlength ⊢
  cases htext : natDigits n with
  | nil =>
      rw [htext] at hdigits
      cases hdigits
  | cons c rest =>
      have hrange := natDigits_range n
      rw [htext] at hdigits hvalue hlength hrange
      have hne : c :: rest ≠ py "0" := by
        intro heq
        rw [heq] at hvalue
        exact hzero hvalue.symm
      have hall : (c :: rest).all (fun c => decide (48 ≤ c) && decide (c ≤ 57)) = true := by
        simpa using hrange
      have hfirst : 49 ≤ c := by
        simp only [isUnsignedInteger, Bool.or_eq_true, Bool.and_eq_true, decide_eq_true_eq]
          at hdigits
        obtain ⟨rfl, rfl⟩ | h := hdigits
        · exact absurd rfl hne
        · exact h.1.1
      have hfold : (c :: rest).foldl (fun acc c => acc * 10 + (c - 48)) 0 = n := hvalue
      simp only [wireUint256, if_neg hne, decide_eq_true hlength, hall, List.head?_cons,
        Option.map_some, Option.getD_some, decide_eq_true hfirst, Bool.and_self, if_true, hfold,
        if_pos h]

/-- Thirty-two bytes are the word of their number. -/
theorem uintWord_bytesNat {bytes : List Nat} (hlength : bytes.length = 32)
    (hbytes : ∀ b ∈ bytes, b < 256) :
    bytesNat bytes < 2 ^ 256 ∧ uintWord (bytesNat bytes) = some bytes := by
  have hdigits : ∀ bs : List Nat, (∀ b ∈ bs, b < 256) →
      bytesNat bs < 256 ^ bs.length ∧
        (List.range bs.length).map (fun i => bytesNat bs / 256 ^ (bs.length - 1 - i) % 256) =
          bs := by
    intro bs
    induction bs using List.reverseRecOn with
    | nil => exact fun _ => ⟨Nat.one_pos, rfl⟩
    | append_singleton bs b ih =>
        intro hbs
        obtain ⟨hlt, hback⟩ := ih fun x hx => hbs x (List.mem_append_left _ hx)
        have hb := hbs b (List.mem_append_right _ List.mem_cons_self)
        have hnat : bytesNat (bs ++ [b]) = bytesNat bs * 256 + b := by
          rw [bytesNat, List.foldl_append]
          rfl
        rw [hnat, List.length_append, List.length_singleton, List.range_succ, List.map_append]
        refine ⟨by rw [Nat.pow_succ]; omega, ?_⟩
        congr 1
        · conv_rhs => rw [← hback]
          refine List.map_congr_left ?_
          intro i hi
          have hi := List.mem_range.1 hi
          have hshift : bs.length + 1 - 1 - i = (bs.length - 1 - i) + 1 := by omega
          rw [hshift, Nat.pow_succ', ← Nat.div_div_eq_div_mul]
          congr 2
          omega
        · simp only [List.map_cons, List.map_nil, Nat.add_sub_cancel, Nat.sub_self, Nat.pow_zero,
            Nat.div_one, List.cons.injEq, and_true]
          omega
  obtain ⟨hlt, hback⟩ := hdigits bytes hbytes
  rw [hlength] at hlt hback
  have hrange : bytesNat bytes < 2 ^ 256 := hlt
  refine ⟨hrange, ?_⟩
  rw [uintWord, if_pos ⟨Int.natCast_nonneg _, by exact_mod_cast hrange⟩]
  exact congrArg some hback

/-- Bytes that were written in hexadecimal are read back. -/
theorem fromHex_toHex {bytes : List Nat} (h : ∀ b ∈ bytes, b < 256) :
    fromHex (toHex bytes) = some bytes := by
  have hdigit : ∀ n < 16, hexValue (hexDigit n) = some n ∧ isAsciiSpace (hexDigit n) = false := by
    decide
  induction bytes with
  | nil => rfl
  | cons b bytes ih =>
      obtain ⟨hb, hbytes⟩ := List.forall_mem_cons.1 h
      have htext : toHex (b :: bytes) = hexDigit (b / 16) :: hexDigit (b % 16) :: toHex bytes := rfl
      obtain ⟨hhigh, hspace⟩ := hdigit (b / 16) (by omega)
      rw [htext, fromHex, hspace, if_neg Bool.false_ne_true, hhigh,
        (hdigit (b % 16) (by omega)).1, ih hbytes]
      exact congrArg (fun c => some (c :: bytes)) (by omega)

/-- The lower case of an address is an address. -/
theorem isAddress_lower {s : JsStr} (h : isAddress s = true) :
    isAddress (toLowerCase s) = true := by
  rw [isAddress_eq] at h ⊢
  have hascii := h
  simp only [isEvmAddress, Bool.and_eq_true, decide_eq_true_eq, List.all_eq_true] at h ⊢
  obtain ⟨⟨hlength, hstart⟩, hdigits⟩ := h
  obtain ⟨rest, rfl⟩ := List.isPrefixOf_iff_prefix.1 hstart
  refine ⟨⟨by rw [toLowerCase, List.length_map]; exact hlength, ?_⟩, ?_⟩
  · rw [toLowerCase, List.map_append]
    exact List.isPrefixOf_iff_prefix.2 ⟨rest.map asciiLower, rfl⟩
  · intro c hc
    rw [toLowerCase, ← List.map_drop] at hc
    obtain ⟨d, hd, rfl⟩ := List.mem_map.1 hc
    rw [hexValue_lower]
    exact hdigits d hd

theorem isAddress_ascii {s : JsStr} (h : isAddress s = true) : ∀ c ∈ s, c < 0x80 :=
  isEvmAddress_ascii (isAddress_eq s ▸ h)

/-- The seller reads an address in lower case. -/
theorem address_str {s : JsStr} (h : isAddress s = true) :
    address (some (.str s)) = some (toLowerCase s) :=
  if_pos (isAddress_eq s ▸ h)

/-- The lower case of an address stays as it is. -/
theorem lower_address {lib : PyLib} {s : JsStr} (h : isAddress s = true) :
    lib.lower s = toLowerCase s :=
  lib.lower_ascii s (isAddress_ascii h)

theorem toLowerCase_idem (s : JsStr) : toLowerCase (toLowerCase s) = toLowerCase s :=
  asciiLower_lower s

/-! ## Tokens -/

/-- A token as both sides have it. -/
structure SameToken (signed : X402Async.PaymentToken) (token : PaymentToken) : Prop where
  registered : token ∈ tokens
  symbol : token.symbol = signed.symbol
  address : token.address = signed.asset
  name : token.domainName = signed.name
  version : token.domainVersion = signed.version
  method : token.transferMethod.text = signed.transferMethod

/-- The two registries agree. -/
theorem sameToken {signed : X402Async.PaymentToken} (h : signed ∈ paymentTokens) :
    ∃ token, SameToken signed token := by
  have hall : ∀ signed ∈ paymentTokens, ∃ token ∈ tokens, token.symbol = signed.symbol ∧
      token.address = signed.asset ∧ token.domainName = signed.name ∧
      token.domainVersion = signed.version ∧
      token.transferMethod.text = signed.transferMethod := by
    decide
  obtain ⟨token, htoken, hsymbol, haddress, hname, hversion, hmethod⟩ := hall signed h
  exact ⟨token, htoken, hsymbol, haddress, hname, hversion, hmethod⟩

/-- A registered token has ASCII texts and the address of a contract. -/
theorem token_texts {token : PaymentToken} (h : token ∈ tokens) :
    isAddress token.address = true ∧ (∀ c ∈ token.domainName, c < 0x80) ∧
      ∀ c ∈ token.domainVersion, c < 0x80 := by
  have hall : ∀ token ∈ tokens, isAddress token.address = true ∧
      (∀ c ∈ token.domainName, c < 0x80) ∧ ∀ c ∈ token.domainVersion, c < 0x80 := by
    decide
  exact hall token h

/-- A token is found by its address. -/
theorem tokenByAsset_address (lib : PyLib) {token : PaymentToken} (h : token ∈ tokens) :
    tokenByAsset lib (some (.str token.address)) = some token := by
  have hall : ∀ token ∈ tokens, tokens.find? (fun t => t.asset = token.asset) = some token := by
    decide
  rw [tokenByAsset, lower_address (token_texts h).1]
  exact hall token h

/-! ## What the seller reads -/

variable {env : VerifyEnv} {token : PaymentToken} {extra : List (PyStr × Json)}

/-- An object with just these keys is exact. -/
theorem exactObject_of_keys {kvs : List (PyStr × Json)} {keys : List PyStr}
    (h : kvs.map (·.1) = keys) : exactObject (some (.obj kvs)) keys = some kvs := by
  simp [exactObject, h]

/-- A text member of an object equals the text. -/
theorem getIs_str {kvs : List (PyStr × Json)} {key text : PyStr}
    (h : dictGet kvs key = some (.str text)) : getIs kvs key text = true := by
  rw [getIs, h]
  exact Json.pyEq_refl _

/-- The `extra` of an offer at the seller. -/
structure ReadExtra (token : PaymentToken) (extra : List (PyStr × Json)) (signer : PyStr) :
    Prop where
  name : dictGet extra (py "name") = some (.str token.domainName)
  version : dictGet extra (py "version") = some (.str token.domainVersion)
  method : dictGet extra (py "assetTransferMethod") = some (.str token.transferMethod.text)
  signerAddress : dictGet extra (py "signerAddress") = some (.str signer)
  address : isAddress signer = true

theorem isSignature_ascii {s : PyStr} (h : isSignature s = true) : ∀ c ∈ s, c < 0x80 := by
  simp only [isSignature, Bool.and_eq_true, decide_eq_true_eq, List.all_eq_true] at h
  exact hexText_ascii h.1.2 h.2

/-- A payload as it is sent. -/
def payloadWire (key signature : PyStr) (authorization : List (PyStr × Json)) :
    List (PyStr × Json) :=
  [(py "signature", .str signature), (key, .obj authorization)]

/-- The authorization of a Permit2 proof as it is sent. -/
def permit2Wire (token : PaymentToken) (payer spender recipient : PyStr)
    (nonce deadline validAfter : Nat) : List (PyStr × Json) :=
  [(py "permitted", .obj [(py "token", .str token.address), (py "amount", .str (intText priceWei))]),
    (py "from", .str payer), (py "spender", .str spender), (py "nonce", .str (intText nonce)),
    (py "deadline", .str (intText deadline)),
    (py "witness", .obj [(py "to", .str recipient), (py "validAfter", .str (intText validAfter))])]

/-- The seller reads every field of a Permit2 proof of its own requirement. -/
theorem permit2Authorization_wire {proof : List (PyStr × Json)} (htoken : token ∈ tokens)
    {signer spender : PyStr} (hextra : ReadExtra token extra signer)
    (hspender : dictGet extra (py "spenderAddress") = some (.str spender))
    (hspenderAddress : isAddress spender = true) {signature payer : PyStr}
    (hsignature : isSignature signature = true) (hpayer : isAddress payer = true)
    {nonce deadline validAfter : Nat} (hnonce : nonce < 2 ^ 256) (hdeadline : deadline < 2 ^ 256)
    (hlater : validAfter < deadline)
    (hpayload : dictGet proof (py "payload") = some (.obj (payloadWire (py "permit2Authorization") signature
      (permit2Wire token payer (toLowerCase spender) (env.payTo.map asciiLower) nonce deadline
        validAfter)))) :
    permit2Authorization env proof (buildPaymentRequirement env.payTo token extra) token =
      .ok ⟨signature, toLowerCase payer, toLowerCase spender, token.asset,
        env.payTo.map asciiLower, priceWei, nonce, deadline, validAfter⟩ := by
  have hpayTo : isAddress env.payTo = true := (isAddress_eq _).trans env.payTo_address
  have hvalid : validExtra extra token = true := by
    rw [validExtra, getIs_str hextra.name, getIs_str hextra.version, getIs_str hextra.method,
      hextra.signerAddress, hspender, address_str hextra.address, address_str hspenderAddress]
    rfl
  have hrequirement : dictGet (buildPaymentRequirement env.payTo token extra) (py "extra") =
      some (.obj extra) := rfl
  generalize hwire : permit2Wire token payer (toLowerCase spender) (env.payTo.map asciiLower)
    nonce deadline validAfter = wire at hpayload
  -- the objects have the keys that the seller insists on
  have hobject : exactObject (some (.obj (payloadWire (py "permit2Authorization") signature wire)))
      [py "signature", py "permit2Authorization"] = some (payloadWire (py "permit2Authorization") signature wire) :=
    exactObject_of_keys rfl
  have hauthorization : exactObject (dictGet (payloadWire (py "permit2Authorization") signature wire)
        (py "permit2Authorization"))
      [py "permitted", py "from", py "spender", py "nonce", py "deadline", py "witness"] =
        some wire :=
    exactObject_of_keys (hwire ▸ rfl)
  have hpermitted : exactObject (dictGet wire (py "permitted")) [py "token", py "amount"] =
      some [(py "token", .str token.address), (py "amount", .str (intText priceWei))] :=
    hwire ▸ exactObject_of_keys rfl
  have hwitness : exactObject (dictGet wire (py "witness")) [py "to", py "validAfter"] =
      some [(py "to", .str (env.payTo.map asciiLower)),
        (py "validAfter", .str (intText validAfter))] :=
    hwire ▸ exactObject_of_keys rfl
  -- its members are those that the client has sent
  have hfrom : address (dictGet wire (py "from")) = some (toLowerCase payer) :=
    hwire ▸ address_str hpayer
  have hspenderRead : address (dictGet wire (py "spender")) = some (toLowerCase spender) :=
    hwire ▸ (address_str (isAddress_lower hspenderAddress)).trans
      (congrArg some (toLowerCase_idem spender))
  have hnonceRead : wireUint256 (dictGet wire (py "nonce")) = some (nonce : Int) :=
    hwire ▸ wireUint256_intText hnonce
  have hdeadlineRead : wireUint256 (dictGet wire (py "deadline")) = some (deadline : Int) :=
    hwire ▸ wireUint256_intText hdeadline
  have htokenRead : address (dictGet [(py "token", .str token.address),
      (py "amount", .str (intText priceWei))] (py "token")) = some token.asset :=
    address_str (token_texts htoken).1
  have hamount : wireUint256 (some (.str (intText priceWei))) = some priceWei :=
    wireUint256_intText (by decide : 100000000000000000 < 2 ^ 256)
  have hamountRead : wireUint256 (dictGet [(py "token", .str token.address),
      (py "amount", .str (intText priceWei))] (py "amount")) = some priceWei := hamount
  have hrecipientRead : address (dictGet [(py "to", .str (env.payTo.map asciiLower)),
      (py "validAfter", .str (intText validAfter))] (py "to")) = some (env.payTo.map asciiLower) :=
    (address_str (isAddress_lower hpayTo)).trans (congrArg some (toLowerCase_idem env.payTo))
  have hafterRead : wireUint256 (dictGet [(py "to", .str (env.payTo.map asciiLower)),
      (py "validAfter", .str (intText validAfter))] (py "validAfter")) = some (validAfter : Int) :=
    wireUint256_intText (hlater.trans hdeadline)
  have hsignatureRead : dictGet (payloadWire (py "permit2Authorization") signature wire) (py "signature") =
      some (.str signature) := rfl
  rw [permit2Authorization, hrequirement]
  simp only [bind, Except.bind, hvalid, Json.pyEq_refl, Bool.not_true, Bool.false_eq_true,
    if_false, hpayload, hobject, hauthorization, hpermitted, hwitness, hsignatureRead, hfrom,
    hspenderRead, htokenRead, hrecipientRead, hnonceRead, hdeadlineRead, hafterRead,
    hamountRead]
  rw [isSignature] at hsignature
  have hpayToRead : env.lib.lower
      (getStr env.lib (buildPaymentRequirement env.payTo token extra) (py "payTo") []) =
        env.payTo.map asciiLower :=
    (lower_address (isAddress_lower hpayTo)).trans (toLowerCase_idem env.payTo)
  have hamountOf : wireUint256 (dictGet (buildPaymentRequirement env.payTo token extra)
      (py "amount")) = some priceWei := hamount
  have hspenderOf : address (dictGet extra (py "spenderAddress")) = some (toLowerCase spender) :=
    hspender ▸ address_str hspenderAddress
  rw [hsignature, hpayToRead, hamountOf, hspenderOf, if_neg (by decide), if_neg]
  simp only [ne_eq, not_true_eq_false, false_or, not_le]
  exact_mod_cast hlater

/-- A transfer authorization as it is sent. -/
def transferWire (payer recipient : PyStr) (validBefore : Nat) (nonce : List Nat) :
    List (PyStr × Json) :=
  [(py "from", .str payer), (py "to", .str recipient), (py "value", .str (intText priceWei)),
    (py "validAfter", .str (py "0")), (py "validBefore", .str (intText validBefore)),
    (py "nonce", .str (py "0x" ++ toHex nonce))]

/-- A text that is wide enough is not filled. -/
theorem zfill_eq_self {width : Nat} {s : PyStr} (h : width ≤ s.length) : zfill width s = s := by
  have hpad : width - s.length = 0 := Nat.sub_eq_zero_of_le h
  unfold zfill
  rw [hpad]
  split <;> rfl

/-- The seller reads every field of a transfer authorization of its own
requirement. -/
theorem eip3009Authorization_wire (hlib : env.lib.Ascii) {proof : List (PyStr × Json)}
    {signer : PyStr} (hextra : ReadExtra token extra signer) {signature payer : PyStr}
    (hpayer : isAddress payer = true) {validBefore : Nat} (hbefore : validBefore ≤ 2 ^ 53)
    {nonce : List Nat} (hlength : nonce.length = 32) (hnonce : ∀ b ∈ nonce, b < 256)
    (hpayload : dictGet proof (py "payload") = some (.obj (payloadWire (py "authorization") signature
      (transferWire payer (env.payTo.map asciiLower) validBefore nonce)))) :
    eip3009Authorization env proof (buildPaymentRequirement env.payTo token extra) token =
      .ok ⟨signature, toLowerCase payer, env.payTo.map asciiLower, priceWei, 0, validBefore,
        nonce⟩ := by
  have hpayTo : isAddress env.payTo = true := (isAddress_eq _).trans env.payTo_address
  have hnames : (getIs extra (py "name") token.domainName
      && getIs extra (py "version") token.domainVersion
      && getIs extra (py "assetTransferMethod") token.transferMethod.text) = true := by
    rw [getIs_str hextra.name, getIs_str hextra.version, getIs_str hextra.method]
    rfl
  have hsigner : isEvmAddress (getText env.lib extra (py "signerAddress")) = true := by
    rw [getText_str hextra.signerAddress, ← isAddress_eq]
    exact hextra.address
  have hrequirement : dictGet (buildPaymentRequirement env.payTo token extra) (py "extra") =
      some (.obj extra) := rfl
  generalize hwire : transferWire payer (env.payTo.map asciiLower) validBefore nonce = wire
    at hpayload
  have hauthorization : dictGet (payloadWire (py "authorization") signature wire) (py "authorization") =
      some (.obj wire) := rfl
  have hsignature : getText env.lib (payloadWire (py "authorization") signature wire) (py "signature") =
      signature := getText_str rfl
  -- its members are those that the client has sent
  have hfrom : env.lib.lower (getStr env.lib wire (py "from") []) = toLowerCase payer :=
    hwire ▸ lower_address hpayer
  have hto : env.lib.lower (getStr env.lib wire (py "to") []) = env.payTo.map asciiLower :=
    hwire ▸ (lower_address (isAddress_lower hpayTo)).trans (toLowerCase_idem env.payTo)
  have hamount : intOfStr env.lib (intText priceWei) = some priceWei :=
    intOfStr_intText hlib (by decide) (by decide)
  have hvalue : intOfStr env.lib (getStr env.lib wire (py "value") (py "0")) = some priceWei :=
    hwire ▸ hamount
  have hafter : pyInt env.lib ((dictGet wire (py "validAfter")).getD (.int 0)) = some 0 :=
    hwire ▸ @intOfStr_intText env.lib hlib 0 le_rfl (by decide)
  have hdigits : (intText validBefore).length ≤ maxIntDigits :=
    (length_intText_le (by decide) (by omega : validBefore < 10 ^ 17)).trans (by decide)
  have hbeforeRead : pyInt env.lib ((dictGet wire (py "validBefore")).getD (.int 0)) =
      some (validBefore : Int) :=
    hwire ▸ intOfStr_intText hlib (Int.natCast_nonneg validBefore) hdigits
  have hnonceText : getStr env.lib wire (py "nonce") [] = py "0x" ++ toHex nonce := hwire ▸ rfl
  have hstarts : PyStr.startsWith (py "0x" ++ toHex nonce) (py "0x") = true :=
    List.isPrefixOf_iff_prefix.2 ⟨toHex nonce, rfl⟩
  have hbare : (py "0x" ++ toHex nonce).drop 2 = toHex nonce := rfl
  have hfill : fromHex (zfill 64 (toHex nonce)) = some nonce := by
    rw [zfill_eq_self (by rw [length_toHex, hlength]), fromHex_toHex hnonce]
  rw [eip3009Authorization, hrequirement]
  simp only [bind, Except.bind, hnames, hsigner, Json.pyEq_refl, Bool.not_true,
    Bool.false_eq_true, if_false, hpayload, hauthorization, hsignature, hfrom, hto, hvalue,
    hafter, hbeforeRead, hnonceText, hstarts, if_true, hbare, hfill]
  have hshape : (PyStr.startsWith (toLowerCase payer) (py "0x") &&
      decide ((toLowerCase payer).length = 42)) = true :=
    (Bool.and_eq_true_iff.1 (isAddress_lower hpayer)).1
  have hpayToRead : env.lib.lower
      (getStr env.lib (buildPaymentRequirement env.payTo token extra) (py "payTo") []) =
        env.payTo.map asciiLower :=
    (lower_address (isAddress_lower hpayTo)).trans (toLowerCase_idem env.payTo)
  have hamountRead : (dictGet (buildPaymentRequirement env.payTo token extra)
      (py "amount")).bind (pyInt env.lib) = some priceWei := hamount
  rw [hshape, hpayToRead, hamountRead, hlength]
  simp only [Bool.not_true, Bool.false_eq_true, if_false, ne_eq, not_true_eq_false]

/-- A proof as it is sent. -/
def proofWire (resource accepted payload : List (PyStr × Json)) : List (PyStr × Json) :=
  [(py "x402Version", .int 2), (py "resource", .obj resource), (py "accepted", .obj accepted),
    (py "payload", .obj payload)]

/-- The payload of a proof. -/
theorem dictGet_proofWire (resource accepted payload : List (PyStr × Json)) :
    dictGet (proofWire resource accepted payload) (py "payload") = some (.obj payload) :=
  rfl

variable {header : PyStr} {resource payload : List (PyStr × Json)} {c : Nat} {url : PyStr}

/-- Past the members that every proof has, the method of the token decides. -/
theorem validatePaymentProof_wire (htoken : token ∈ tokens)
    (hurl : dictGet resource (py "url") = some (.str (c :: url)))
    (hdecode : decodePaymentSignature env header =
      some (proofWire resource (buildPaymentRequirement env.payTo token extra) payload))
    (clock : Int) (allowExpired : Bool) :
    validatePaymentProof env header clock allowExpired =
      (match token.transferMethod with
      | .permit2Exact => do
          let a ← permit2Authorization env
            (proofWire resource (buildPaymentRequirement env.payTo token extra) payload)
            (buildPaymentRequirement env.payTo token extra) token
          checkWindow clock a.validAfter a.deadline allowExpired
          permit2Recover env
            (proofWire resource (buildPaymentRequirement env.payTo token extra) payload) token a
      | .eip3009 => do
          let a ← eip3009Authorization env
            (proofWire resource (buildPaymentRequirement env.payTo token extra) payload)
            (buildPaymentRequirement env.payTo token extra) token
          checkWindow clock a.validAfter a.validBefore allowExpired
          eip3009Recover env
            (proofWire resource (buildPaymentRequirement env.payTo token extra) payload) token
            a) := by
  generalize hproof : proofWire resource (buildPaymentRequirement env.payTo token extra) payload =
    proof at hdecode
  have hversion : ((dictGet proof (py "x402Version")).map (·.pyEq (.int 2))).getD false = true :=
    hproof ▸ Json.pyEq_refl (.int 2)
  have hresource : dictGet proof (py "resource") = some (.obj resource) := hproof ▸ rfl
  have haccepted : dictGet proof (py "accepted") =
      some (.obj (buildPaymentRequirement env.payTo token extra)) := hproof ▸ rfl
  have hasset : tokenByAsset env.lib
      (dictGet (buildPaymentRequirement env.payTo token extra) (py "asset")) = some token :=
    tokenByAsset_address env.lib htoken
  unfold validatePaymentProof
  cases hmethod : token.transferMethod with
  | permit2Exact =>
      simp only [hdecode, hversion, Bool.not_true, Bool.false_eq_true, if_false, hresource, hurl,
        haccepted, hasset, hmethod]
  | eip3009 =>
      simp only [hdecode, hversion, Bool.not_true, Bool.false_eq_true, if_false, hresource, hurl,
        haccepted, hasset, hmethod]

/-! ## Verdicts -/

section verdicts

variable {proof : List (PyStr × Json)} {digest recovered : PyStr}

/-- A Permit2 proof whose digest recovers to its payer is accepted inside its
window. -/
theorem permit2_verdict {a : Permit2Authorization}
    (hdigest : permit2Digest env.eth a.permittedToken a.amount a.spender a.nonce a.deadline
      a.recipient a.validAfter = some digest)
    (hrecover : env.eth.recoverHash digest a.signature = some recovered)
    (hpayer : env.lib.lower recovered = a.payer) (clock : Int) (allowExpired : Bool) :
    (do
      checkWindow clock a.validAfter a.deadline allowExpired
      permit2Recover env proof token a) =
      (checkWindow clock a.validAfter a.deadline allowExpired).map fun _ =>
        { proof := proof
          fromAddress := a.payer
          toAddress := a.recipient
          value := a.amount
          validAfter := a.validAfter
          validBefore := a.deadline
          nonce := intText a.nonce
          nonceBytes := (uintWord a.nonce).getD []
          asset := token.asset
          tokenSymbol := token.symbol
          transferMethod := token.transferMethod } := by
  have hverdict := @permit2Recover.eq_1 env proof token a
  rw [hdigest, Option.bind_some, hrecover] at hverdict
  simp only [hpayer, ne_eq, not_true_eq_false, if_false] at hverdict
  rw [hverdict]
  cases checkWindow clock a.validAfter a.deadline allowExpired with
  | error reason => rfl
  | ok u => rfl

/-- A transfer authorization whose digest recovers to its payer is accepted
inside its window. -/
theorem eip3009_verdict {a : Eip3009Authorization}
    (hstart : PyStr.startsWith a.signature (py "0x") = true)
    (hdigest : eip712Digest env.eth a.fromAddress a.toAddress a.value a.validAfter a.validBefore
      a.nonceBytes token = some digest)
    (hrecover : env.eth.recoverHash digest a.signature = some recovered)
    (hpayer : env.lib.lower recovered = a.fromAddress) (clock : Int) (allowExpired : Bool) :
    (do
      checkWindow clock a.validAfter a.validBefore allowExpired
      eip3009Recover env proof token a) =
      (checkWindow clock a.validAfter a.validBefore allowExpired).map fun _ =>
        { proof := proof
          fromAddress := a.fromAddress
          toAddress := a.toAddress
          value := a.value
          validAfter := a.validAfter
          validBefore := a.validBefore
          nonce := py "0x" ++ toHex a.nonceBytes
          nonceBytes := a.nonceBytes
          asset := token.asset
          tokenSymbol := token.symbol
          transferMethod := token.transferMethod } := by
  have hverdict := @eip3009Recover.eq_1 env proof token a
  rw [hdigest, Option.bind_some, hrecover, hstart] at hverdict
  simp only [hpayer, ne_eq, not_true_eq_false, if_false, Bool.not_true, Bool.false_eq_true]
    at hverdict
  rw [hverdict]
  cases checkWindow clock a.validAfter a.validBefore allowExpired with
  | error reason => rfl
  | ok u => rfl

variable {header signature payer : PyStr} {resource : List (PyStr × Json)} {c : Nat}
  {rest : PyStr} {signer : PyStr} {validAfter validBefore : Nat}

/-- The seller's verdict on a Permit2 proof of its own requirement. -/
theorem permit2_validated (htoken : token ∈ tokens)
    (hmethod : token.transferMethod = .permit2Exact) {spender : PyStr} {nonce : Nat}
    (hresource : dictGet resource (py "url") = some (.str (c :: rest)))
    (hdecode : decodePaymentSignature env header = some (proofWire resource
      (buildPaymentRequirement env.payTo token extra)
      (payloadWire (py "permit2Authorization") signature (permit2Wire token payer
        (toLowerCase spender) (env.payTo.map asciiLower) nonce validBefore validAfter))))
    (hextra : ReadExtra token extra signer)
    (hspender : dictGet extra (py "spenderAddress") = some (.str spender))
    (hspenderAddress : isAddress spender = true) (hsignature : isSignature signature = true)
    (hpayer : isAddress payer = true) (hnonce : nonce < 2 ^ 256)
    (hbefore : validBefore < 2 ^ 256) (hlater : validAfter < validBefore)
    (hdigest : permit2Digest env.eth token.asset priceWei (toLowerCase spender) nonce validBefore
      (env.payTo.map asciiLower) validAfter = some digest)
    (hrecover : env.eth.recoverHash digest signature = some recovered)
    (hown : env.lib.lower recovered = toLowerCase payer) (clock : Int) (allowExpired : Bool) :
    validatePaymentProof env header clock allowExpired =
      (checkWindow clock validAfter validBefore allowExpired).map fun _ =>
        { proof := proofWire resource (buildPaymentRequirement env.payTo token extra)
            (payloadWire (py "permit2Authorization") signature (permit2Wire token payer
              (toLowerCase spender) (env.payTo.map asciiLower) nonce validBefore validAfter))
          fromAddress := toLowerCase payer
          toAddress := env.payTo.map asciiLower
          value := priceWei
          validAfter := validAfter
          validBefore := validBefore
          nonce := intText nonce
          nonceBytes := (uintWord nonce).getD []
          asset := token.asset
          tokenSymbol := token.symbol
          transferMethod := token.transferMethod } := by
  have hread := @permit2Authorization_wire env token extra _ htoken signer spender hextra hspender
    hspenderAddress signature payer hsignature hpayer nonce validBefore validAfter hnonce hbefore
    hlater (dictGet_proofWire resource (buildPaymentRequirement env.payTo token extra) _)
  rw [validatePaymentProof_wire htoken hresource hdecode clock allowExpired, hmethod]
  simp only [hread, bind, Except.bind]
  rw [← hmethod]
  exact @permit2_verdict env token _ digest recovered ⟨signature, toLowerCase payer,
    toLowerCase spender, token.asset, env.payTo.map asciiLower, priceWei, nonce, validBefore,
    validAfter⟩ hdigest hrecover hown clock allowExpired

/-- The seller's verdict on a transfer authorization of its own requirement. -/
theorem transfer_validated (hlib : env.lib.Ascii) (htoken : token ∈ tokens)
    (hmethod : token.transferMethod = .eip3009) {nonce : List Nat}
    (hresource : dictGet resource (py "url") = some (.str (c :: rest)))
    (hdecode : decodePaymentSignature env header = some (proofWire resource
      (buildPaymentRequirement env.payTo token extra)
      (payloadWire (py "authorization") signature (transferWire payer
        (env.payTo.map asciiLower) validBefore nonce))))
    (hextra : ReadExtra token extra signer) (hsignature : isSignature signature = true)
    (hpayer : isAddress payer = true) (hbefore : validBefore ≤ 2 ^ 53)
    (hlength : nonce.length = 32) (hnonce : ∀ b ∈ nonce, b < 256)
    (hdigest : eip712Digest env.eth (toLowerCase payer) (env.payTo.map asciiLower) priceWei 0
      validBefore nonce token = some digest)
    (hrecover : env.eth.recoverHash digest signature = some recovered)
    (hown : env.lib.lower recovered = toLowerCase payer) (clock : Int) (allowExpired : Bool) :
    validatePaymentProof env header clock allowExpired =
      (checkWindow clock 0 validBefore allowExpired).map fun _ =>
        { proof := proofWire resource (buildPaymentRequirement env.payTo token extra)
            (payloadWire (py "authorization") signature (transferWire payer
              (env.payTo.map asciiLower) validBefore nonce))
          fromAddress := toLowerCase payer
          toAddress := env.payTo.map asciiLower
          value := priceWei
          validAfter := 0
          validBefore := validBefore
          nonce := py "0x" ++ toHex nonce
          nonceBytes := nonce
          asset := token.asset
          tokenSymbol := token.symbol
          transferMethod := token.transferMethod } := by
  have hread := @eip3009Authorization_wire env token extra hlib _ signer hextra signature payer
    hpayer validBefore hbefore nonce hlength hnonce
    (dictGet_proofWire resource (buildPaymentRequirement env.payTo token extra) _)
  have hstart : PyStr.startsWith signature (py "0x") = true := by
    simp only [isSignature, Bool.and_eq_true] at hsignature
    exact hsignature.1.2
  rw [validatePaymentProof_wire htoken hresource hdecode clock allowExpired, hmethod]
  simp only [hread, bind, Except.bind]
  rw [← hmethod]
  exact @eip3009_verdict env token _ digest recovered ⟨signature, toLowerCase payer,
    env.payTo.map asciiLower, priceWei, 0, validBefore, nonce⟩ hstart hdigest hrecover hown clock
    allowExpired

end verdicts

end X402
