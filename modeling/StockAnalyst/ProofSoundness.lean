import StockAnalyst.PaymentKey
import StockAnalyst.Checks

/-!
# What a returned payment promises

Both validators read a field several times: compared in one form, signed in
another and returned in a third.  What they return is nevertheless one
payment: the fixed price, payable to the seller in a registered token, inside
its window, and signed by its payer over exactly the fields returned.
-/

namespace X402

open Python Checks

variable {env : VerifyEnv} {header : PyStr} {now : Int} {allowExpired : Bool}
  {proof accepted extra : List (PyStr × Json)} {token : PaymentToken}
  {p : VerifiedPayment}

/-! ## The signed fields of a payment -/

/-- The digest of the payment's own fields; Permit2 also signs the spender
its `extra` names. -/
def VerifiedPayment.digest (eth : Ethereum) (token : PaymentToken)
    (extra : List (PyStr × Json)) (p : VerifiedPayment) : Option (List Nat) :=
  match p.transferMethod with
  | .eip3009 => eip712Digest eth p.fromAddress p.toAddress p.value p.validAfter
      p.validBefore p.nonceBytes token
  | .permit2Exact => (address (dictGet extra (py "spenderAddress"))).bind fun spender =>
      permit2Digest eth p.asset p.value spender (bytesNat p.nonceBytes) p.validBefore
        p.toAddress p.validAfter

/-- The signature of the proof a payment was read from. -/
def VerifiedPayment.signature (lib : PyLib) (p : VerifiedPayment) : PyStr :=
  match dictGet p.proof (py "payload") with
  | some (.obj payload) => getText lib payload (py "signature")
  | _ => []

/-! ## Words and addresses -/

/-- Hexadecimal digits behind `0x` are ASCII. -/
theorem hexText_ascii {s : PyStr} (hstart : PyStr.startsWith s (py "0x") = true)
    (hdigits : ∀ c ∈ s.drop 2, (hexValue c).isSome = true) : ∀ c ∈ s, c < 128 := by
  obtain ⟨rest, hrest⟩ := List.isPrefixOf_iff_prefix.1 hstart
  intro c hc
  rw [← hrest, List.mem_append] at hc
  cases hc with
  | inl hmem =>
      have hall : ∀ c ∈ py "0x", c < 128 := by decide
      exact hall c hmem
  | inr hmem =>
      have hdrop : s.drop 2 = rest := by
        rw [← hrest, List.drop_append]
        rfl
      have hsome := hdigits c (hdrop ▸ hmem)
      unfold hexValue at hsome
      grind

/-- An address is ASCII. -/
theorem isEvmAddress_ascii {s : PyStr} (h : isEvmAddress s = true) : ∀ c ∈ s, c < 128 := by
  simp only [isEvmAddress, Bool.and_eq_true, decide_eq_true_eq, List.all_eq_true] at h
  exact hexText_ascii h.1.2 h.2

/-- Lower case twice is lower case. -/
theorem asciiLower_lower (s : PyStr) : (s.map asciiLower).map asciiLower = s.map asciiLower := by
  rw [List.map_map]
  refine List.map_congr_left ?_
  intro c _
  simp only [Function.comp_apply, asciiLower]
  grind

/-- The configured recipient in lower case stays itself. -/
theorem lower_payTo (env : VerifyEnv) :
    env.lib.lower (env.payTo.map asciiLower) = env.payTo.map asciiLower := by
  have hascii := isEvmAddress_ascii env.payTo_address
  rw [env.lib.lower_ascii _ ?_, asciiLower_lower]
  intro c hc
  obtain ⟨d, hd, rfl⟩ := List.mem_map.1 hc
  have := hascii d hd
  unfold asciiLower
  grind

/-- The leading bytes of a word are the leading digits of its number. -/
theorem bytesNat_range (n k : Nat) (h : k ≤ 32) :
    bytesNat ((List.range k).map (fun i => n / 256 ^ (31 - i) % 256)) =
      n / 256 ^ (32 - k) % 256 ^ k := by
  induction k with
  | zero => simp [bytesNat, Nat.mod_one]
  | succ k ih =>
      have hshift : 32 - k = (31 - k) + 1 := by omega
      have hlast : 32 - (k + 1) = 31 - k := by omega
      have hstep := ih (by omega)
      rw [hshift, Nat.pow_succ, ← Nat.div_div_eq_div_mul] at hstep
      rw [List.range_succ, List.map_append, bytesNat, List.foldl_append, hlast]
      simp only [List.map_cons, List.map_nil, List.foldl_cons, List.foldl_nil]
      rw [show ∀ bytes : List Nat, bytes.foldl (fun n b => n * 256 + b) 0 = bytesNat bytes
        from fun _ => rfl, hstep, Nat.pow_succ, Nat.mul_comm (256 ^ k), Nat.mod_mul]
      omega

/-- A number that fits has a word of 32 bytes. -/
theorem uintWord_range {i : Int} (h : 0 ≤ i ∧ i < 2 ^ 256) :
    ∃ word, uintWord i = some word ∧ word.length = 32 ∧ (∀ x ∈ word, x < 256) ∧
      (bytesNat word : Int) = i := by
  refine ⟨_, if_pos h, by simp, ?_, ?_⟩
  · intro x hx
    obtain ⟨j, -, rfl⟩ := List.mem_map.1 hx
    exact Nat.mod_lt _ (by decide)
  · rw [bytesNat_range i.toNat 32 le_rfl, Nat.sub_self, Nat.pow_zero, Nat.div_one,
      Nat.mod_eq_of_lt (by omega)]
    omega

/-- A number on the wire fits into 256 bits. -/
theorem wireUint256_range {v : Option Json} {i : Int} (h : wireUint256 v = some i) :
    0 ≤ i ∧ i < 2 ^ 256 := by
  unfold wireUint256 at h
  split at h
  · split at h
    · cases h
      decide
    · split at h
      · dsimp only at h
        split at h
        · cases h
          omega
        · cases h
      · cases h
  · cases h

/-! ## What the validators check -/

/-- A text is found under its key. -/
theorem getText_str {lib : PyLib} {kvs : List (PyStr × Json)} {key text : PyStr}
    (h : dictGet kvs key = some (.str text)) : getText lib kvs key = text := by
  unfold getText
  rw [h]
  cases text with
  | nil => rfl
  | cons c rest => rfl

/-- A text member of the canonical requirement is that member of the
accepted one. -/
theorem Requirement.text (h : Requirement env accepted token extra) (key : PyStr) {text : PyStr}
    (hkey : dictGet (buildPaymentRequirement env.payTo token extra) key = some (.str text)) :
    dictGet accepted key = some (.str text) := by
  obtain ⟨v, hv, heq⟩ := Json.pyEq_obj_get (k := key) h.exact
    (by simp only [buildPaymentRequirement, List.map_cons, List.map_nil]; decide) hkey
  rw [hv, Json.pyEq_str heq]

/-- The fields of an EIP-3009 proof, and where they come from. -/
structure Eip3009Authorization.Of (env : VerifyEnv) (proof accepted : List (PyStr × Json))
    (token : PaymentToken) (a : Eip3009Authorization) : Prop where
  requirement : ∃ extra, Requirement env accepted token extra
  signature : ∃ payload, dictGet proof (py "payload") = some (.obj payload) ∧
    a.signature = getText env.lib payload (py "signature")
  recipient : a.toAddress = env.payTo.map asciiLower
  amount : some a.value = (dictGet accepted (py "amount")).bind (pyInt env.lib)
  nonce : a.nonceBytes.length = 32 ∧ ∀ x ∈ a.nonceBytes, x < 256

/-- An authorization that is read has the fields of the proof. -/
theorem eip3009Authorization_of {a : Eip3009Authorization}
    (h : eip3009Authorization env proof accepted token = .ok a) : a.Of env proof accepted token := by
  have hrequirement := eip3009Authorization_requirement h
  unfold eip3009Authorization at h
  simp only [bind, Except.bind] at h
  split at h
  · simp only [unless_error] at h
    obtain ⟨-, -, -, h⟩ := h
    split at h
    · rename_i payload hpayload
      split at h
      · split at h
        · rename_i hnonce
          simp only [unless_error] at h
          obtain ⟨-, hrecipient, -, hamount, hlength, h⟩ := h
          cases h
          exact ⟨hrequirement, ⟨payload, hpayload, rfl⟩, not_not.1 hrecipient,
            not_not.1 hamount, not_not.1 hlength, fromHex_lt hnonce⟩
        · cases h
      · cases h
    · cases h
  · cases h

/-- The fields of a Permit2 proof, and where they come from. -/
structure Permit2Authorization.Of (env : VerifyEnv) (proof accepted : List (PyStr × Json))
    (token : PaymentToken) (extra : List (PyStr × Json)) (a : Permit2Authorization) :
    Prop where
  requirement : Requirement env accepted token extra
  signature : ∃ payload, dictGet proof (py "payload") = some (.obj payload) ∧
    a.signature = getText env.lib payload (py "signature")
  asset : a.permittedToken = token.asset
  amount : a.amount = priceWei
  spender : address (dictGet extra (py "spenderAddress")) = some a.spender
  recipient : a.recipient = env.lib.lower (getStr env.lib accepted (py "payTo") [])
  nonce : 0 ≤ a.nonce ∧ a.nonce < 2 ^ 256

/-- A permit that is read has the fields of the proof. -/
theorem permit2Authorization_of {a : Permit2Authorization}
    (h : permit2Authorization env proof accepted token = .ok a) :
    ∃ extra, a.Of env proof accepted token extra := by
  obtain ⟨extra, hrequirement⟩ := permit2Authorization_requirement h
  refine ⟨extra, ?_⟩
  unfold permit2Authorization at h
  simp only [hrequirement.extra_eq, bind, Except.bind, unless_error] at h
  obtain ⟨-, -, h⟩ := h
  split at h
  · cases h
  · rename_i payload hpayload
    split at h
    · cases h
    · split at h
      · split at h
        · rename_i hsignature _ _ _ _ _ hnonce _ _
          simp only [unless_error, not_or, not_not] at h
          obtain ⟨-, ⟨hasset, hamount, -, hspender, hrecipient, -⟩, h⟩ := h
          cases h
          have hobject : dictGet proof (py "payload") = some (.obj payload) := by
            unfold exactObject at hpayload
            grind
          exact ⟨hrequirement, ⟨payload, hobject, (getText_str hsignature).symm⟩, hasset,
            hamount, hspender.symm, hrecipient, wireUint256_range hnonce⟩
        · cases h
      · cases h

/-! ## What they return -/

/-- What validation promises of the payment it returns. -/
structure SoundPayment (env : VerifyEnv) (now : Int) (allowExpired : Bool)
    (p : VerifiedPayment) : Prop where
  value : p.value = priceWei
  recipient : p.toAddress = env.payTo.map asciiLower
  started : p.validAfter ≤ now
  unexpired : allowExpired = false → now < p.validBefore
  hour : p.validBefore - now ≤ 3600
  nonce : p.nonceBytes.length = 32 ∧ ∀ x ∈ p.nonceBytes, x < 256
  signed : ∃ accepted token extra digest recovered,
    dictGet p.proof (py "accepted") = some (.obj accepted) ∧ token ∈ tokens ∧
    tokenByAsset env.lib (dictGet accepted (py "asset")) = some token ∧
    p.asset = token.asset ∧ p.tokenSymbol = token.symbol ∧
    p.transferMethod = token.transferMethod ∧
    dictGet accepted (py "extra") = some (.obj extra) ∧
    (Json.obj accepted).pyEq (.obj (buildPaymentRequirement env.payTo token extra)) = true ∧
    p.digest env.eth token extra = some digest ∧
    env.eth.recoverHash digest (p.signature env.lib) = some recovered ∧
    p.fromAddress = env.lib.lower recovered

/-- **An accepted transfer is sound.** -/
theorem eip3009Recover_sound (hlib : env.lib.Ascii)
    (haccepted : dictGet proof (py "accepted") = some (.obj accepted))
    (htoken : tokenByAsset env.lib (dictGet accepted (py "asset")) = some token)
    (hmethod : token.transferMethod = .eip3009) {a : Eip3009Authorization}
    (ha : a.Of env proof accepted token)
    (hwindow : checkWindow now a.validAfter a.validBefore allowExpired = .ok ())
    (h : eip3009Recover env proof token a = .ok p) :
    p.proof = proof ∧ SoundPayment env now allowExpired p := by
  obtain ⟨extra, hrequirement⟩ := ha.requirement
  obtain ⟨payload, hpayload, hsignature⟩ := ha.signature
  obtain ⟨hafter, hbefore, hhour⟩ := checkWindow_ok hwindow
  have hamount := ha.amount
  rw [hrequirement.text (py "amount") rfl, Option.bind_some, pyInt,
    intOfStr_intText hlib (by decide) (by decide)] at hamount
  unfold eip3009Recover at h
  rw [unless_error] at h
  obtain ⟨-, h⟩ := h
  split at h
  · cases h
  · rename_i recovered hrecovered
    rw [unless_error] at h
    obtain ⟨hfrom, h⟩ := h
    cases h
    obtain ⟨digest, hdigest, hrecover⟩ := Option.bind_eq_some_iff.1 hrecovered
    refine ⟨rfl, Option.some.inj hamount, ha.recipient, hafter, hbefore, hhour, ha.nonce,
      accepted, token, extra, digest, recovered, haccepted, tokenByAsset_mem htoken, htoken,
      rfl, rfl, rfl, hrequirement.extra_eq, hrequirement.exact, ?_, ?_,
      (not_not.1 hfrom).symm⟩
    · simp only [VerifiedPayment.digest, hmethod]
      exact hdigest
    · simp only [VerifiedPayment.signature, hpayload, ← hsignature]
      exact hrecover

/-- **An accepted permit is sound.** -/
theorem permit2Recover_sound
    (haccepted : dictGet proof (py "accepted") = some (.obj accepted))
    (htoken : tokenByAsset env.lib (dictGet accepted (py "asset")) = some token)
    (hmethod : token.transferMethod = .permit2Exact) {a : Permit2Authorization}
    (ha : a.Of env proof accepted token extra)
    (hwindow : checkWindow now a.validAfter a.deadline allowExpired = .ok ())
    (h : permit2Recover env proof token a = .ok p) :
    p.proof = proof ∧ SoundPayment env now allowExpired p := by
  have hrequirement := ha.requirement
  obtain ⟨payload, hpayload, hsignature⟩ := ha.signature
  obtain ⟨hafter, hbefore, hhour⟩ := checkWindow_ok hwindow
  obtain ⟨word, hword, hlength, hbytes, hnonce⟩ := uintWord_range ha.nonce
  have hrecipient : a.recipient = env.payTo.map asciiLower := by
    rw [ha.recipient, getStr, hrequirement.text (py "payTo") rfl]
    exact lower_payTo env
  unfold permit2Recover at h
  split at h
  · cases h
  · rename_i recovered hrecovered
    rw [unless_error] at h
    obtain ⟨hfrom, h⟩ := h
    cases h
    obtain ⟨digest, hdigest, hrecover⟩ := Option.bind_eq_some_iff.1 hrecovered
    refine ⟨rfl, ha.amount, hrecipient, hafter, hbefore, hhour, ?_, accepted, token, extra,
      digest, recovered, haccepted, tokenByAsset_mem htoken, htoken, rfl, rfl, rfl,
      hrequirement.extra_eq, hrequirement.exact, ?_, ?_, (not_not.1 hfrom).symm⟩
    · simp only [hword, Option.getD_some]
      exact ⟨hlength, hbytes⟩
    · simp only [VerifiedPayment.digest, hmethod, ha.spender, Option.bind_some, hword,
        Option.getD_some, hnonce, ← ha.asset]
      exact hdigest
    · simp only [VerifiedPayment.signature, hpayload, ← hsignature]
      exact hrecover

/-- **A returned payment is what its payer signed.**  It pays the fixed price
to the seller in a registered token, inside its window, its accepted
requirement is the canonical one, and its payer is recovered from the proof's
signature over the digest of the payment's own fields. -/
theorem validatePaymentProof_sound (hlib : env.lib.Ascii)
    (h : validatePaymentProof env header now allowExpired = .ok p) :
    decodePaymentSignature env header = some p.proof ∧ SoundPayment env now allowExpired p := by
  unfold validatePaymentProof at h
  split at h
  · cases h
  · rename_i proof hdecode
    rw [unless_error] at h
    obtain ⟨-, h⟩ := h
    split at h
    · split at h
      · split at h
        · rename_i accepted haccepted
          split at h
          · cases h
          · rename_i token htoken
            split at h
            · rename_i hmethod
              cases ha : permit2Authorization env proof accepted token with
              | error x =>
                  rw [ha] at h
                  cases h
              | ok a =>
                  rw [ha] at h
                  obtain ⟨extra, hof⟩ := permit2Authorization_of ha
                  cases hwindow : checkWindow now a.validAfter a.deadline allowExpired with
                  | error x =>
                      simp only [bind, Except.bind, hwindow] at h
                      cases h
                  | ok u =>
                      simp only [bind, Except.bind, hwindow] at h
                      obtain ⟨hproof, hsound⟩ :=
                        permit2Recover_sound haccepted htoken hmethod hof hwindow h
                      exact ⟨hproof ▸ hdecode, hsound⟩
            · rename_i hmethod
              cases ha : eip3009Authorization env proof accepted token with
              | error x =>
                  rw [ha] at h
                  cases h
              | ok a =>
                  rw [ha] at h
                  have hof := eip3009Authorization_of ha
                  cases hwindow : checkWindow now a.validAfter a.validBefore allowExpired with
                  | error x =>
                      simp only [bind, Except.bind, hwindow] at h
                      cases h
                  | ok u =>
                      simp only [bind, Except.bind, hwindow] at h
                      obtain ⟨hproof, hsound⟩ :=
                        eip3009Recover_sound hlib haccepted htoken hmethod hof hwindow h
                      exact ⟨hproof ▸ hdecode, hsound⟩
        · cases h
      · cases h
    · cases h

theorem validatePaymentProof_sound_sample :
    ∃ p, SoundPayment sample.verify 1700000100 false p := by
  have hsample : (validatePaymentProof sample.verify (sampleHeader sampleUrl) 1700000100
      false).isOk = true := by
    decide +kernel
  cases h : validatePaymentProof sample.verify (sampleHeader sampleUrl) 1700000100 false with
  | error x =>
      rw [h] at hsample
      cases hsample
  | ok p => exact ⟨p, (validatePaymentProof_sound sampleLib_ascii h).2⟩

end X402
