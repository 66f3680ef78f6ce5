import StockAnalyst.JobFrame

/-!
# Which payments share a payment key

The key of a payment hashes one of two texts: the unscoped one of the first
paid token, and the one scoped by its asset that every later token uses.
Neither is framed by lengths.  What separates their fields is that canonical
payers, nonces and assets have fixed widths, and what separates the two
formats is their first byte.
-/

namespace X402

open Python ConditionalStore

variable {D : Deployment} {p q : VerifiedPayment} {a b : PyStr × PyStr × PyStr}

/-! ## Hexadecimal text -/

/-- A hexadecimal digit has a value below sixteen. -/
theorem hexValue_lt_sixteen {c n : Nat} (h : hexValue c = some n) : n < 16 := by
  unfold hexValue at h
  grind

/-- What is read of hexadecimal text is made of bytes. -/
theorem fromHex_lt {s : PyStr} {bs : List Nat} (h : fromHex s = some bs) :
    ∀ x ∈ bs, x < 256 := by
  fun_induction fromHex s generalizing bs with
  | case1 => simp_all
  | case2 => simp_all
  | case3 => simp_all
  | case4 c d rest hspace ih => exact ih h
  | case5 c d rest hspace high low hhigh hlow ih =>
      obtain ⟨tail, htail, rfl⟩ := Option.map_eq_some_iff.1 h
      intro x hx
      have hh := hexValue_lt_sixteen hhigh
      have hl := hexValue_lt_sixteen hlow
      cases List.mem_cons.1 hx with
      | inl heq => omega
      | inr hmem => exact ih htail x hmem
  | case6 => simp_all

/-! ## Canonical parts -/

/-- What validation promises about the members an identity is made of. -/
structure RegisteredPayment (lib : PyLib) (p : VerifiedPayment) : Prop where
  token : ∃ token, tokenByAsset lib (some (.str p.asset)) = some token ∧
    p.tokenSymbol = token.symbol
  nonce : p.nonceBytes.length = 32 ∧ ∀ x ∈ p.nonceBytes, x < 256

variable (D) in
/-- The payer's digits, without the prefix. -/
def bareAddress (p : VerifiedPayment) : PyStr :=
  let text := PyStr.strip D.verify.lib p.fromAddress
  if D.verify.lib.lower (text.take 2) = py "0x" then text.drop 2 else text

variable (D) in
/-- The payer's address, whatever its spelling. -/
def payerBytes (p : VerifiedPayment) : Option (List Nat) := fromHex (bareAddress D p)

/-- The parts of a payment whose address, nonce and asset are accepted. -/
theorem canonicalPaymentParts_some (h : canonicalPaymentParts D p = some a) :
    ∃ address token, payerBytes D p = some address ∧ address.length = 20 ∧
      p.nonceBytes.length = 32 ∧
      tokenByAsset D.verify.lib (some (.str p.asset)) = some token ∧
      a = (py "0x" ++ toHex address, py "0x" ++ toHex p.nonceBytes, token.asset) := by
  unfold canonicalPaymentParts at h
  unfold payerBytes bareAddress
  dsimp only at h ⊢
  generalize PyStr.strip D.verify.lib p.fromAddress = text at h ⊢
  generalize (if D.verify.lib.lower (text.take 2) = py "0x" then text.drop 2 else text) = bare
    at h ⊢
  split at h
  · cases h
  · rename_i address haddress
    split at h
    · cases h
    · rename_i hlengths
      obtain ⟨token, htoken, hparts⟩ := Option.map_eq_some_iff.1 h
      exact ⟨address, token, haddress, by omega, by omega, htoken, hparts.symm⟩

/-- Canonical parts are as wide as their fields. -/
structure Framed (a : PyStr × PyStr × PyStr) : Prop where
  address : a.1.length = 42
  nonce : a.2.1.length = 66
  asset : ∃ token ∈ tokens, a.2.2 = token.asset

/-- The parts of a payment can be told apart in a text. -/
theorem canonicalPaymentParts_framed (h : canonicalPaymentParts D p = some a) :
    Framed a := by
  obtain ⟨address, token, -, haddress, hnonce, htoken, rfl⟩ :=
    canonicalPaymentParts_some h
  have hprefix : (py "0x").length = 2 := by decide
  refine ⟨?_, ?_, token, tokenByAsset_mem htoken, rfl⟩
  · rw [List.length_append, length_toHex, hprefix, haddress]
  · rw [List.length_append, length_toHex, hprefix, hnonce]

/-! ## Hashed texts -/

/-- The unscoped text of the first paid token. -/
def unscopedMaterial (a : PyStr × PyStr × PyStr) : PyStr :=
  py "56" ++ py ":" ++ a.1 ++ py ":" ++ a.2.1

/-- The text of every other token. -/
def scopedMaterial (a : PyStr × PyStr × PyStr) : PyStr :=
  py "asset:" ++ a.2.2 ++ py ":" ++ py "56" ++ py ":" ++ a.1 ++ py ":" ++ a.2.1

/-- The text of a competition event. -/
def eventMaterial (a : PyStr × PyStr × PyStr) : PyStr :=
  a.1 ++ py ":" ++ a.2.1 ++ py ":" ++ a.2.2

/-- An asset has 42 characters. -/
theorem asset_length {token : PaymentToken} (h : token ∈ tokens) :
    token.asset.length = 42 := by
  have hall : ∀ t ∈ tokens, t.asset.length = 42 := by decide
  exact hall token h

/-- The symbol `U` belongs to its own contract. -/
theorem symbol_eq_u_iff {token : PaymentToken} (h : token ∈ tokens) :
    token.symbol = py "U" ↔ token.asset = uToken.asset := by
  have hall : ∀ t ∈ tokens, t.symbol = py "U" ↔ t.asset = uToken.asset := by decide
  exact hall token h

/-- Two fields with a separator between them and the same width in front. -/
theorem separated_inj {x x' y y' : PyStr} {sep : PyStr} (hlen : x.length = x'.length)
    (h : x ++ sep ++ y = x' ++ sep ++ y') : x = x' ∧ y = y' := by
  rw [List.append_assoc, List.append_assoc] at h
  obtain ⟨hx, hrest⟩ := List.append_inj h hlen
  exact ⟨hx, List.append_cancel_left hrest⟩

/-- The older material names wallet and nonce. -/
theorem unscopedMaterial_inj (ha : Framed a) (hb : Framed b)
    (h : unscopedMaterial a = unscopedMaterial b) : a.1 = b.1 ∧ a.2.1 = b.2.1 := by
  have hwidth : (py "56" ++ py ":" ++ a.1).length = (py "56" ++ py ":" ++ b.1).length := by
    simp only [List.length_append, ha.address, hb.address]
  obtain ⟨hpayer, hnonce⟩ := separated_inj hwidth h
  exact ⟨List.append_cancel_left hpayer, hnonce⟩

/-- The newer material names all the parts. -/
theorem scopedMaterial_inj (ha : Framed a) (hb : Framed b)
    (h : scopedMaterial a = scopedMaterial b) : a = b := by
  obtain ⟨s, hs, hassetA⟩ := ha.asset
  obtain ⟨t, ht, hassetB⟩ := hb.asset
  have hasset : a.2.2.length = b.2.2.length := by
    rw [hassetA, hassetB, asset_length hs, asset_length ht]
  unfold scopedMaterial at h
  obtain ⟨hfront, hnonce⟩ := separated_inj
    (by simp only [List.length_append, ha.address, hb.address, hasset]) h
  obtain ⟨hfront, hpayer⟩ := separated_inj
    (by simp only [List.length_append, hasset]) hfront
  have hhead := List.append_cancel_right (List.append_cancel_right hfront)
  exact Prod.ext_iff.2 ⟨hpayer, Prod.ext_iff.2 ⟨hnonce, List.append_cancel_left hhead⟩⟩

/-- The two formats never meet: one starts with a digit, the other with a
letter. -/
theorem unscopedMaterial_ne_scoped : unscopedMaterial a ≠ scopedMaterial b := by
  intro h
  have hhead := congrArg List.head? h
  simp only [unscopedMaterial, scopedMaterial, List.append_assoc] at hhead
  exact absurd hhead (by
    rw [List.head?_append_of_ne_nil _ (by decide), List.head?_append_of_ne_nil _ (by decide)]
    decide)

/-- The material of an event names all the parts. -/
theorem eventMaterial_inj (ha : Framed a) (hb : Framed b)
    (h : eventMaterial a = eventMaterial b) : a = b := by
  unfold eventMaterial at h
  obtain ⟨hfront, hasset⟩ := separated_inj
    (by simp only [List.length_append, ha.address, hb.address, ha.nonce, hb.nonce]) h
  obtain ⟨hpayer, hnonce⟩ := separated_inj (ha.address.trans hb.address.symm) hfront
  exact Prod.ext_iff.2 ⟨hpayer, Prod.ext_iff.2 ⟨hnonce, hasset⟩⟩

/-- The text that identifies canonical parts. -/
def keyMaterial (a : PyStr × PyStr × PyStr) : PyStr :=
  if a.2.2 = uToken.asset then unscopedMaterial a else scopedMaterial a

/-- **One text for one triple**, across both formats. -/
theorem keyMaterial_inj (ha : Framed a) (hb : Framed b)
    (h : keyMaterial a = keyMaterial b) : a = b := by
  unfold keyMaterial at h
  by_cases hau : a.2.2 = uToken.asset
  · by_cases hbu : b.2.2 = uToken.asset
    · rw [if_pos hau, if_pos hbu] at h
      obtain ⟨hpayer, hnonce⟩ := unscopedMaterial_inj ha hb h
      exact Prod.ext_iff.2 ⟨hpayer, Prod.ext_iff.2 ⟨hnonce, hau.trans hbu.symm⟩⟩
    · rw [if_pos hau, if_neg hbu] at h
      exact absurd h unscopedMaterial_ne_scoped
  · by_cases hbu : b.2.2 = uToken.asset
    · rw [if_neg hau, if_pos hbu] at h
      exact absurd h.symm unscopedMaterial_ne_scoped
    · rw [if_neg hau, if_neg hbu] at h
      exact scopedMaterial_inj ha hb h

/-- The hashed text of a registered payment is the text of its triple. -/
theorem paymentKeyMaterial_eq (hp : RegisteredPayment D.verify.lib p)
    (ha : canonicalPaymentParts D p = some a) :
    paymentKeyMaterial D p = some (keyMaterial a) := by
  obtain ⟨token, htoken, hsymbol⟩ := hp.token
  obtain ⟨address, token', -, -, -, htoken', hparts⟩ := canonicalPaymentParts_some ha
  have hsame : token = token' := by
    rw [htoken] at htoken'
    exact Option.some.inj htoken'
  have hasset : a.2.2 = token.asset := by rw [hparts, hsame]
  have hu : p.tokenSymbol = py "U" ↔ a.2.2 = uToken.asset := by
    rw [hsymbol, hasset]
    exact symbol_eq_u_iff (tokenByAsset_mem htoken)
  unfold paymentKeyMaterial keyMaterial
  rw [ha]
  by_cases hlegacy : p.tokenSymbol = py "U"
  · simp only [Option.map_some, if_pos hlegacy, if_pos (hu.1 hlegacy), unscopedMaterial]
  · have hscoped : a.2.2 ≠ uToken.asset := fun h => hlegacy (hu.2 h)
    simp only [Option.map_some, if_neg hlegacy, if_neg hscoped, scopedMaterial]

/-! ## Identities -/

/-- **A payment's identity is its payer, its nonce and its asset.**  Two
verified payments get one payment key exactly when their canonical parts are
the same, and one competition event exactly then, where their hashed texts do
not collide. -/
theorem paymentIdentity_injective (hp : RegisteredPayment D.verify.lib p)
    (hq : RegisteredPayment D.verify.lib q)
    (ha : canonicalPaymentParts D p = some a) (hb : canonicalPaymentParts D q = some b)
    (hsha : ∀ m ∈ [keyMaterial a, eventMaterial a],
      ∀ n ∈ [keyMaterial b, eventMaterial b], D.sha256 m = D.sha256 n → m = n) :
    (∃ i j, deriveIdentity D p = some i ∧ deriveIdentity D q = some j ∧
      (i.paymentKey = j.paymentKey ↔ a = b)) ∧
    ∃ e f, competitionEventId D p = some e ∧ competitionEventId D q = some f ∧
      (e = f ↔ a = b) := by
  have hframeA := canonicalPaymentParts_framed ha
  have hframeB := canonicalPaymentParts_framed hb
  constructor
  · refine ⟨identityFromPaymentKey D (D.sha256 (keyMaterial a)).hex,
      identityFromPaymentKey D (D.sha256 (keyMaterial b)).hex, ?_, ?_, ?_, ?_⟩
    · rw [deriveIdentity, paymentKeyMaterial_eq hp ha, Option.map_some]
    · rw [deriveIdentity, paymentKeyMaterial_eq hq hb, Option.map_some]
    · intro hkey
      have hdigest := Digest.hex_inj hkey
      exact keyMaterial_inj hframeA hframeB
        (hsha _ (by simp) _ (by simp) hdigest)
    · intro h
      rw [h]
  · refine ⟨py "b402:56:" ++ (D.sha256 (eventMaterial a)).hex,
      py "b402:56:" ++ (D.sha256 (eventMaterial b)).hex, ?_, ?_, ?_, ?_⟩
    · simp only [competitionEventId, ha, Option.map_some, eventMaterial]
    · simp only [competitionEventId, hb, Option.map_some, eventMaterial]
    · intro hevent
      have hdigest := Digest.hex_inj (List.append_cancel_left hevent)
      exact eventMaterial_inj hframeA hframeB
        (hsha _ (by simp) _ (by simp) hdigest)
    · intro h
      rw [h]

instance : DecidableEq Digest := fun _ _ => decidable_of_iff _ Subtype.ext_iff.symm

/-- A payment of nonce seven by any spelling of its payer. -/
def spelledPayment (payer : PyStr) (token : PaymentToken) : VerifiedPayment where
  proof := []
  fromAddress := payer
  toAddress := samplePayTo
  value := priceWei
  validAfter := 1700000000
  validBefore := 1700003000
  nonce := py "0x" ++ toHex (wordBytes 7)
  nonceBytes := wordBytes 7
  asset := token.address
  tokenSymbol := token.symbol
  transferMethod := token.transferMethod

/-- The sample payer's nonce in two tokens, once without the prefix. -/
theorem paymentIdentity_two_tokens :
    ∃ i j, deriveIdentity sample (spelledPayment samplePayer uToken) = some i ∧
      deriveIdentity sample (spelledPayment (samplePayer.drop 2) usd1Token) = some j ∧
      i.paymentKey ≠ j.paymentKey := by
  have hnonce : (wordBytes 7).length = 32 ∧ ∀ x ∈ wordBytes 7, x < 256 := by decide
  have hu : RegisteredPayment sample.verify.lib (spelledPayment samplePayer uToken) :=
    ⟨⟨uToken, by decide, rfl⟩, hnonce⟩
  have husd1 : RegisteredPayment sample.verify.lib
      (spelledPayment (samplePayer.drop 2) usd1Token) :=
    ⟨⟨usd1Token, by decide, rfl⟩, hnonce⟩
  have hdiffer : (samplePayer, py "0x" ++ toHex (wordBytes 7), uToken.asset) ≠
      (samplePayer, py "0x" ++ toHex (wordBytes 7), usd1Token.asset) := by decide
  obtain ⟨⟨i, j, hi, hj, hiff⟩, -⟩ := paymentIdentity_injective (D := sample)
    (a := (samplePayer, py "0x" ++ toHex (wordBytes 7), uToken.asset))
    (b := (samplePayer, py "0x" ++ toHex (wordBytes 7), usd1Token.asset))
    hu husd1 (by decide +kernel) (by decide +kernel) (by decide +kernel)
  exact ⟨i, j, hi, hj, fun h => hdiffer (hiff.1 h)⟩

end X402
