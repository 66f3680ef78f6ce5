import StockAnalyst.PaymentProof

/-!
# The digests of payments

The seller writes out by hand what is hashed of a transfer authorization and of
a Permit2 transfer.  Both are the digests of the typed data that the client
signs.
-/

namespace X402Async

open Python Js Deliverable

/-- What `getAddress` does: it takes an address in lower case and the contracts
of the module, and gives back the same address. -/
structure Wallet.TakesAddresses (wallet : Wallet) : Prop where
  own : isAddress wallet.address = true
  lower : ∀ s, isAddress s = true → toLowerCase s = s → (wallet.getAddress s).isSome = true
  contracts : ∀ s ∈ permit2Address :: paymentTokens.map (·.asset),
    (wallet.getAddress s).isSome = true
  same : ∀ s t, isAddress s = true → wallet.getAddress s = some t →
    isAddress t = true ∧ toLowerCase t = toLowerCase s

end X402Async

namespace X402

open Python Js Deliverable X402Async

/-- What `to_checksum_address` and `eth_abi` make of an address, whatever the
case of its letters. -/
def Ethereum.TakesAddresses (eth : Ethereum) : Prop :=
  ∀ s, isEvmAddress s = true →
    eth.addressWord s = (fromHex (s.drop 2)).map (List.replicate 12 0 ++ ·)

/-- `0x` and one hundred and thirty hexadecimal digits. -/
def isSignature (s : PyStr) : Bool :=
  s.length = 132 && PyStr.startsWith s (py "0x") &&
    (s.drop 2).all (fun c => (hexValue c).isSome)

/-- What `signTypedData` does and how a signer is recovered: a message that can
be encoded is signed, and the signature of its digest recovers to the wallet. -/
def Signs (wallet : Wallet) (eth : Ethereum) : Prop :=
  ∀ message digest, Eip712.Message.digest eth.keccak message = some digest →
    ∃ signature, wallet.signTypedData message = some signature ∧ isSignature signature = true ∧
      eth.recoverHash digest signature = some wallet.address

/-! ## Addresses -/

/-- Both sides mean the same by a hexadecimal digit. -/
theorem isHex_eq (c : Nat) : isHex c = (hexValue c).isSome := by
  unfold isHex X402Async.isLowerHex hexValue
  split_ifs <;> simp <;> omega

/-- Both sides mean the same by an address. -/
theorem isAddress_eq (s : PyStr) : isAddress s = isEvmAddress s := by
  have hall : (s.drop 2).all isHex = (s.drop 2).all fun c => (hexValue c).isSome := by
    congr 1
    funext c
    exact isHex_eq c
  rw [isAddress, isEvmAddress, hall, Bool.and_comm (startsWith s (js "0x"))]
  rfl

/-- Pairs of hexadecimal digits are bytes. -/
theorem fromHex_digits {s : PyStr} {n : Nat} (hlength : s.length = 2 * n)
    (hdigits : ∀ c ∈ s, (hexValue c).isSome = true) :
    ∃ bytes, fromHex s = some bytes ∧ bytes.length = n := by
  induction n generalizing s with
  | zero =>
      obtain rfl := List.length_eq_zero_iff.1 hlength
      exact ⟨[], rfl, rfl⟩
  | succ n ih =>
      match s, hlength with
      | c :: d :: rest, hlength =>
          obtain ⟨hc, hdigits⟩ := List.forall_mem_cons.1 hdigits
          obtain ⟨hd, hrest⟩ := List.forall_mem_cons.1 hdigits
          obtain ⟨bytes, hbytes, hlen⟩ := ih (by simpa [Nat.mul_succ] using hlength) hrest
          obtain ⟨hi, hhi⟩ := Option.isSome_iff_exists.1 hc
          obtain ⟨lo, hlo⟩ := Option.isSome_iff_exists.1 hd
          have hspace : isAsciiSpace c = false := by
            unfold hexValue at hhi
            unfold isAsciiSpace
            grind
          refine ⟨(hi * 16 + lo) :: bytes, ?_, by rw [List.length_cons, hlen]⟩
          rw [fromHex, hspace, if_neg Bool.false_ne_true, hhi, hlo, hbytes]
          rfl

/-- The case of the letters does not matter. -/
theorem hexValue_lower (c : Nat) : hexValue (asciiLower c) = hexValue c := by
  unfold hexValue asciiLower
  grind

/-- Hexadecimal text is read alike in both cases. -/
theorem fromHex_lower (s : PyStr) : fromHex (s.map asciiLower) = fromHex s := by
  have hspace : ∀ c, isAsciiSpace (asciiLower c) = isAsciiSpace c := by
    intro c
    unfold isAsciiSpace asciiLower
    grind
  fun_induction fromHex s with
  | case1 => rfl
  | case2 c h => rw [List.map_cons, List.map_nil, fromHex, hspace, if_pos h]
  | case3 c h => rw [List.map_cons, List.map_nil, fromHex, hspace, if_neg h]
  | case4 c d rest h ih =>
      rw [List.map_cons, List.map_cons, fromHex, hspace, if_pos h, ← ih, List.map_cons]
  | case5 c d rest h hi lo hhi hlo ih =>
      rw [List.map_cons, List.map_cons, fromHex, hspace, if_neg h, hexValue_lower, hexValue_lower,
        hhi, hlo, ih]
  | case6 c d rest h hnone =>
      rw [List.map_cons, List.map_cons, fromHex, hspace, if_neg h, hexValue_lower, hexValue_lower]
      split
      · next hi lo hhi hlo => exact absurd hlo (hnone hi lo hhi)
      · rfl

/-- One address as the client signs it and as the seller hashes it. -/
structure SameAddress (wallet : Wallet) (eth : Ethereum) (signed hashed bytes : List Nat) :
    Prop where
  signed : wallet.addressBytes signed = some bytes
  hashed : eth.addressWord hashed = some (List.replicate 12 0 ++ bytes)
  length : bytes.length = 20

/-- An address that the wallet takes is hashed as it is signed. -/
theorem sameAddress {wallet : Wallet} (hwallet : wallet.TakesAddresses) {eth : Ethereum}
    (heth : eth.TakesAddresses) {s t : List Nat} (hs : isAddress s = true)
    (htaken : (wallet.getAddress s).isSome = true) (ht : isAddress t = true)
    (hsame : toLowerCase t = toLowerCase s) :
    ∃ bytes, SameAddress wallet eth s t bytes := by
  obtain ⟨found, hfound⟩ := Option.isSome_iff_exists.1 htaken
  obtain ⟨-, hlower⟩ := hwallet.same s found hs hfound
  rw [isAddress_eq] at ht
  have hdigits := ht
  simp only [isEvmAddress, Bool.and_eq_true, decide_eq_true_eq, List.all_eq_true] at hdigits
  obtain ⟨bytes, hbytes, hlength⟩ :=
    @fromHex_digits (t.drop 2) 20 (by rw [List.length_drop]; omega) hdigits.2
  refine ⟨bytes, ?_, ?_, hlength⟩
  · rw [Wallet.addressBytes, hfound, Option.bind_some, ← hbytes, ← fromHex_lower,
      ← fromHex_lower (t.drop 2), List.map_drop, List.map_drop]
    exact congrArg (fun text => fromHex (List.drop 2 text)) (hlower.trans hsame.symm)
  · rw [heth t ht, hbytes]
    rfl

/-- A number fits where it is below 2²⁵⁶. -/
theorem uintWord_natCast (n : Nat) :
    uintWord n = if n < 2 ^ 256 then some (Eip712.word n) else none := by
  unfold uintWord Eip712.word
  by_cases h : n < 2 ^ 256
  · rw [if_pos h, if_pos ⟨Int.natCast_nonneg n, by exact_mod_cast h⟩]
    rfl
  · rw [if_neg h, if_neg fun hrange => h (by exact_mod_cast hrange.2)]

/-! ## Members -/

section digests

variable {eth : Ethereum} {types : List Eip712.StructType}

/-- An address as a member of a struct. -/
theorem encodeValue_sameAddress {wallet : Wallet} {s t bytes : List Nat}
    (h : SameAddress wallet eth s t bytes) :
    Eip712.encodeValue types eth.keccak .address (.address bytes) = eth.addressWord t := by
  rw [h.hashed, Eip712.encodeValue_address h.length]

/-- Both sides encode a number alike. -/
theorem encodeValue_natCast (n : Nat) :
    Eip712.encodeValue types eth.keccak .uint256 (.uint n) = uintWord n := by
  rw [uintWord_natCast, Eip712.encodeValue_uint]

/-- A struct of an address and a number. -/
theorem encodeValue_pair {name m n : List Nat}
    (htype : Eip712.typeNamed types name = some ⟨name, [⟨.address, m⟩, ⟨.uint256, n⟩]⟩)
    {encoded : List Nat} (hencoded : Eip712.encodeType types name = some encoded)
    {wallet : Wallet} {s t bytes : List Nat} (h : SameAddress wallet eth s t bytes)
    (amount : Nat) :
    Eip712.encodeValue types eth.keccak (.struct name) (.struct [.address bytes, .uint amount]) =
      (uintWord amount).map fun number =>
        eth.keccak (eth.keccak encoded ++ (List.replicate 12 0 ++ bytes) ++ number) := by
  rw [Eip712.encodeValue_struct htype hencoded]
  simp only [Eip712.encodeMembers_cons, Eip712.encodeMembers_nil, encodeValue_sameAddress h,
    h.hashed, encodeValue_natCast]
  cases uintWord (amount : Int) with
  | none => rfl
  | some number => simp

/-- The chain id fits. -/
theorem chainWord : ∃ chain, uintWord (bscMainnetChainId : Nat) = some chain :=
  Option.isSome_iff_exists.1 (by decide)

/-! ## Permit2 -/

/-- The types of a permit are found under their names. -/
theorem typeNamed_permit2 :
    Eip712.typeNamed permit2Types (Eip712.ascii "PermitWitnessTransferFrom") = permit2Types[0]? ∧
      Eip712.typeNamed permit2Types (Eip712.ascii "TokenPermissions") = permit2Types[1]? ∧
      Eip712.typeNamed permit2Types (Eip712.ascii "Witness") = permit2Types[2]? := by
  decide

/-- The type text of the permissions is the seller's. -/
theorem encodeType_permissions :
    Eip712.encodeType permit2Types (Eip712.ascii "TokenPermissions") =
      some (py "TokenPermissions(address token,uint256 amount)") := by
  decide

/-- The type text of the witness is the seller's. -/
theorem encodeType_witness :
    Eip712.encodeType permit2Types (Eip712.ascii "Witness") =
      some (py "Witness(address to,uint256 validAfter)") := by
  decide

/-- The type with the two types it refers to. -/
theorem encodeType_permit :
    Eip712.encodeType permit2Types (Eip712.ascii "PermitWitnessTransferFrom") =
      some (py "PermitWitnessTransferFrom(TokenPermissions permitted,address spender,uint256 nonce,uint256 deadline,Witness witness)TokenPermissions(address token,uint256 amount)Witness(address to,uint256 validAfter)") := by
  decide +kernel

/-- The type text of the domain is the seller's. -/
theorem domainText_permit2 :
    Eip712.StructType.text ⟨Eip712.ascii "EIP712Domain",
        [⟨.string, Eip712.ascii "name"⟩, ⟨.uint256, Eip712.ascii "chainId"⟩,
          ⟨.address, Eip712.ascii "verifyingContract"⟩]⟩ =
      py "EIP712Domain(string name,uint256 chainId,address verifyingContract)" := by
  decide

/-- **The digest of a Permit2 transfer** is the one of the client's message, with
the permissions and the witness in it. -/
theorem permit2Digest_eq {wallet : Wallet} {contractBytes tokenBytes spenderBytes
    recipientBytes token token' spender spender' recipient recipient' : List Nat}
    (hcontract : SameAddress wallet eth permit2Address permit2Address contractBytes)
    (htoken : SameAddress wallet eth token token' tokenBytes)
    (hspender : SameAddress wallet eth spender spender' spenderBytes)
    (hrecipient : SameAddress wallet eth recipient recipient' recipientBytes)
    (amount nonce deadline validAfter : Nat) :
    permit2Digest eth token' amount spender' nonce deadline recipient' validAfter =
      (permit2Message wallet token amount spender nonce deadline recipient validAfter).bind
        (Eip712.Message.digest eth.keccak) := by
  obtain ⟨chain, hchain⟩ := chainWord
  -- the structs of the message are those that the seller hashes
  have hpermissions := encodeValue_pair typeNamed_permit2.2.1 encodeType_permissions htoken amount
  have hwitness := encodeValue_pair typeNamed_permit2.2.2 encodeType_witness hrecipient validAfter
  simp only [permit2Message, htoken.signed, hspender.signed, hrecipient.signed, hcontract.signed,
    Option.bind_eq_bind, Option.bind_some, Eip712.Message.digest, Eip712.Message.domainType,
    List.map_cons, List.map_nil]
  rw [Eip712.encodeValue_struct Eip712.typeNamed_singleton
      (Eip712.encodeType_flat Eip712.typeNamed_singleton rfl),
    Eip712.encodeValue_struct typeNamed_permit2.1 encodeType_permit]
  simp only [Eip712.encodeMembers_cons, Eip712.encodeMembers_nil, hpermissions, hwitness,
    encodeValue_sameAddress hcontract, encodeValue_sameAddress hspender, encodeValue_natCast,
    Eip712.encodeValue_text, permit2Digest]
  have hname : utf8 (js "Permit2") = py "Permit2" := by decide
  have hsame : py "0x000000000022D473030F116dDEE9F6B43aC78BA3" = permit2Address := by
    decide
  have hchain' : uintWord (chainId : Nat) = some chain := hchain
  -- the kernel unfolds the texts when it checks these steps by computation
  simp -implicitDefEqProofs only [htoken.hashed, hspender.hashed, hrecipient.hashed,
    hcontract.hashed, hsame, hchain, hchain', hname, domainText_permit2, ktext, Option.map_some,
    Option.bind_some, Option.bind_eq_bind, List.append_assoc, List.append_nil, List.cons_append,
    List.nil_append, pure]
  cases uintWord (amount : Int) <;> cases uintWord (nonce : Int) <;>
    cases uintWord (deadline : Int) <;> cases uintWord (validAfter : Int) <;>
    simp -implicitDefEqProofs only [Option.map_some, Option.bind_some, Option.map_none,
      Option.bind_none]

/-- The words of a Permit2 transfer exist. -/
theorem permit2Digest_isSome {wallet : Wallet} {contractBytes tokenBytes spenderBytes
    recipientBytes token token' spender spender' recipient recipient' : List Nat}
    (hcontract : SameAddress wallet eth permit2Address permit2Address contractBytes)
    (htoken : SameAddress wallet eth token token' tokenBytes)
    (hspender : SameAddress wallet eth spender spender' spenderBytes)
    (hrecipient : SameAddress wallet eth recipient recipient' recipientBytes)
    {amount nonce deadline validAfter : Nat} (hamount : amount < 2 ^ 256) (hnonce : nonce < 2 ^ 256)
    (hdeadline : deadline < 2 ^ 256) (hafter : validAfter < 2 ^ 256) :
    ∃ digest, permit2Digest eth token' amount spender' nonce deadline recipient' validAfter =
      some digest := by
  obtain ⟨chain, hchain⟩ := chainWord
  have hchain' : uintWord (chainId : Nat) = some chain := hchain
  have hsame : py "0x000000000022D473030F116dDEE9F6B43aC78BA3" = permit2Address := by
    decide
  simp -implicitDefEqProofs only [permit2Digest, htoken.hashed, hspender.hashed,
    hrecipient.hashed, hsame, hcontract.hashed, hchain', uintWord_natCast, if_pos hamount,
    if_pos hnonce, if_pos hdeadline, if_pos hafter, Option.bind_eq_bind, Option.bind_some, pure]
  exact ⟨_, rfl⟩

/-! ## Transfer authorizations -/

/-- The type text of a transfer is the seller's. -/
theorem encodeType_transfer :
    Eip712.encodeType transferTypes (Eip712.ascii "TransferWithAuthorization") =
      some (py "TransferWithAuthorization(address from,address to,uint256 value,uint256 validAfter,uint256 validBefore,bytes32 nonce)") := by
  decide

/-- The type of a transfer is found under its name. -/
theorem typeNamed_transfer :
    Eip712.typeNamed transferTypes (Eip712.ascii "TransferWithAuthorization") =
      transferTypes[0]? := by
  decide

/-- The type text of the domain is the seller's. -/
theorem domainText_transfer :
    Eip712.StructType.text ⟨Eip712.ascii "EIP712Domain",
        [⟨.string, Eip712.ascii "name"⟩, ⟨.string, Eip712.ascii "version"⟩,
          ⟨.uint256, Eip712.ascii "chainId"⟩, ⟨.address, Eip712.ascii "verifyingContract"⟩]⟩ =
      py "EIP712Domain(string name,string version,uint256 chainId,address verifyingContract)" := by
  decide

/-- The registered texts are ASCII. -/
theorem utf8_domain {token : PaymentToken} (htoken : token ∈ tokens) :
    utf8 token.domainName = token.domainName ∧ utf8 token.domainVersion = token.domainVersion := by
  have hall : ∀ token ∈ tokens, utf8 token.domainName = token.domainName ∧
      utf8 token.domainVersion = token.domainVersion := by
    decide
  exact hall token htoken

/-- **The digest of a transfer authorization** is the one of the client's message
in the domain of the token. -/
theorem eip712Digest_eq {wallet : Wallet} {token : PaymentToken} (htoken : token ∈ tokens)
    {contractBytes payerBytes recipientBytes payer payer' recipient recipient' : List Nat}
    (hcontract : SameAddress wallet eth token.address token.address contractBytes)
    (hpayer : SameAddress wallet eth payer payer' payerBytes)
    (hrecipient : SameAddress wallet eth recipient recipient' recipientBytes)
    (value validAfter validBefore : Nat) {nonce : List Nat} (hnonce : nonce.length = 32) :
    eip712Digest eth payer' recipient' value validAfter validBefore nonce token =
      (transferMessage wallet token.domainName token.domainVersion token.address payer recipient
        value validAfter validBefore nonce).bind (Eip712.Message.digest eth.keccak) := by
  obtain ⟨chain, hchain⟩ := chainWord
  obtain ⟨hname, hversion⟩ := utf8_domain htoken
  simp only [transferMessage, hcontract.signed, hpayer.signed, hrecipient.signed,
    Option.bind_eq_bind, Option.bind_some, Eip712.Message.digest, Eip712.Message.domainType,
    List.map_cons, List.map_nil]
  rw [Eip712.encodeValue_struct Eip712.typeNamed_singleton
      (Eip712.encodeType_flat Eip712.typeNamed_singleton rfl),
    Eip712.encodeValue_struct typeNamed_transfer encodeType_transfer]
  simp only [Eip712.encodeMembers_cons, Eip712.encodeMembers_nil,
    encodeValue_sameAddress hcontract, encodeValue_sameAddress hpayer,
    encodeValue_sameAddress hrecipient, encodeValue_natCast, Eip712.encodeValue_text,
    Eip712.encodeValue_word hnonce, eip712Digest, domainSeparator]
  have hchain' : uintWord (chainId : Nat) = some chain := hchain
  simp -implicitDefEqProofs only [hpayer.hashed, hrecipient.hashed, hcontract.hashed, hchain,
    hchain', hname, hversion, domainText_transfer, ktext, Option.map_some, Option.bind_some,
    Option.bind_eq_bind, List.append_assoc, List.append_nil, List.cons_append, List.nil_append,
    pure]
  cases uintWord (value : Int) <;> cases uintWord (validAfter : Int) <;>
    cases uintWord (validBefore : Int) <;>
    simp -implicitDefEqProofs only [Option.map_some, Option.bind_some, Option.map_none,
      Option.bind_none]

/-- The words of a transfer authorization exist. -/
theorem eip712Digest_isSome {wallet : Wallet} {token : PaymentToken} {contractBytes payerBytes
    recipientBytes payer payer' recipient recipient' : List Nat}
    (hcontract : SameAddress wallet eth token.address token.address contractBytes)
    (hpayer : SameAddress wallet eth payer payer' payerBytes)
    (hrecipient : SameAddress wallet eth recipient recipient' recipientBytes)
    {value validAfter validBefore : Nat} (hvalue : value < 2 ^ 256) (hafter : validAfter < 2 ^ 256)
    (hbefore : validBefore < 2 ^ 256) (nonce : List Nat) :
    ∃ digest, eip712Digest eth payer' recipient' value validAfter validBefore nonce token =
      some digest := by
  obtain ⟨chain, hchain⟩ := chainWord
  have hchain' : uintWord (chainId : Nat) = some chain := hchain
  simp -implicitDefEqProofs only [eip712Digest, domainSeparator, hpayer.hashed,
    hrecipient.hashed, hcontract.hashed, hchain', uintWord_natCast, if_pos hvalue,
    if_pos hafter, if_pos hbefore, Option.bind_eq_bind, Option.bind_some, pure]
  exact ⟨_, rfl⟩

end digests

end X402
