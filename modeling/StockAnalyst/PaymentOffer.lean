import StockAnalyst.PaymentProof

/-!
# The offer that the client takes

A challenge is read as one offer: of the token that the client prefers, for the
fixed price, payable to the client's own seller.  What else the offer carries in
its `extra` is kept as it came.
-/

namespace X402Async

open Python Js Deliverable

/-! ## Values of a challenge -/

/-- The text of a value is there only for a text. -/
theorem string_eq_some {v : Option Value} {s : JsStr} :
    string v = some s ↔ v = some (.str s) := by
  constructor
  · intro h
    unfold string at h
    split at h
    · cases h
      rfl
    · cases h
  · rintro rfl
    rfl

/-- Entries are there only for a record. -/
theorem record_eq_some {v : Option Value} {entries : List (JsStr × Value)} :
    record v = some entries ↔ v = some (.obj entries) := by
  constructor
  · intro h
    unfold record at h
    split at h
    · cases h
      rfl
    · cases h
  · rintro rfl
    rfl

/-- The items are there only for an array. -/
theorem array_eq_some {v : Option Value} {items : List Value} :
    array v = some items ↔ v = some (.arr items) := by
  constructor
  · intro h
    unfold array at h
    split at h
    · cases h
      rfl
    · cases h
  · rintro rfl
    rfl

/-- A member of a record that a program can hold is held. -/
theorem held_get {entries : List (JsStr × Value)} (hheld : (Value.obj entries).Held)
    {key : JsStr} {v : Value} (h : get entries key = some v) : v.Held := by
  cases hheld with
  | obj units keys each => exact each (key, v) (mem_of_lookup h)

/-- The items of an array that a program can hold are held. -/
theorem held_items {items : List Value} (hheld : (Value.arr items).Held) :
    ∀ v ∈ items, v.Held := by
  cases hheld with
  | arr each => exact each

/-- Setting a key to the value it has changes nothing. -/
theorem dictSet_self {α : Type} {entries : List (JsStr × α)} {key : JsStr} {v : α}
    (h : entries.lookup key = some v) : dictSet entries key v = entries := by
  induction entries with
  | nil => cases h
  | cons e entries ih =>
      obtain ⟨k, x⟩ := e
      rw [List.lookup_cons] at h
      by_cases hkey : key = k
      · subst hkey
        simp only [BEq.rfl] at h
        cases h
        rw [dictSet, if_pos rfl]
      · rw [beq_false_of_ne hkey] at h
        rw [dictSet, if_neg (Ne.symm hkey), ih h]

/-! ## Offers -/

/-- What the client makes sure of before it takes an offer. -/
structure Offer (seller : JsStr) (token : PaymentToken) (accepted : PaymentRequirement) :
    Prop where
  registered : token ∈ paymentTokens
  amount : accepted.amount = paidAmount
  asset : accepted.asset = token.asset
  payTo : accepted.payTo = seller
  timeout : accepted.maxTimeoutSeconds = 600
  name : get accepted.extra (js "name") = some (.str token.name)
  version : get accepted.extra (js "version") = some (.str token.version)
  method : get accepted.extra (js "assetTransferMethod") = some (.str token.transferMethod)
  signer : ∃ s, get accepted.extra (js "signerAddress") = some (.str s) ∧ isAddress s = true
  spender : token.transferMethod = js "permit2-exact" →
    ∃ s, get accepted.extra (js "spenderAddress") = some (.str s) ∧ isAddress s = true
  held : (Value.obj accepted.extra).Held

/-- An address among the members of a record. -/
theorem any_isAddress {v : Option Value} (h : (string v).any isAddress = true) :
    ∃ s, v = some (.str s) ∧ isAddress s = true := by
  cases hs : string v with
  | none =>
      rw [hs] at h
      cases h
  | some s =>
      rw [hs] at h
      exact ⟨s, string_eq_some.1 hs, h⟩

/-- The texts that are set again are those that were there. -/
theorem keptExtra_eq {token : PaymentToken} {extra : List (JsStr × Value)}
    (h : isExtra token extra = true) : keptExtra token extra = extra := by
  simp only [isExtra, Bool.and_eq_true, decide_eq_true_eq, Bool.or_eq_true, string_eq_some] at h
  obtain ⟨⟨⟨⟨hname, hversion⟩, hmethod⟩, hsigner⟩, hspender⟩ := h
  obtain ⟨signer, hsigner, -⟩ := any_isAddress hsigner
  have hset : dictSet extra (js "signerAddress")
      ((get extra (js "signerAddress")).getD .null) = extra := by
    rw [hsigner]
    exact dictSet_self hsigner
  rw [keptExtra, dictSet_self hname, dictSet_self hversion, dictSet_self hmethod, hset]
  split
  · next hpermit =>
      obtain ⟨spender, hspender, -⟩ :=
        any_isAddress (hspender.resolve_left (not_not_intro hpermit))
      rw [hspender]
      exact dictSet_self hspender
  · rfl

/-- One turn of the loop takes an offer. -/
theorem parseRequirement_offer {seller : JsStr} {acceptedValue : Value}
    (hheld : acceptedValue.Held) {token : PaymentToken} {accepted : PaymentRequirement}
    (h : parseRequirement seller acceptedValue = some (token, accepted)) :
    Offer seller token accepted := by
  simp only [parseRequirement, Option.bind_eq_bind, Option.bind_eq_some_iff] at h
  obtain ⟨entries, hentries, extra, hextra, asset, -, found, hfound, payTo, -, h⟩ := h
  split at h
  · next hchecks =>
      obtain rfl := Option.some.inj (record_eq_some.1 hentries)
      cases h
      simp only [Bool.and_eq_true, decide_eq_true_eq] at hchecks
      obtain ⟨⟨⟨-, hseller⟩, -⟩, hkept⟩ := hchecks
      have hmembers := hkept
      simp only [isExtra, Bool.and_eq_true, decide_eq_true_eq, Bool.or_eq_true, string_eq_some]
        at hmembers
      obtain ⟨⟨⟨⟨hname, hversion⟩, hmethod⟩, hsigner⟩, hspender⟩ := hmembers
      refine
        { registered := List.mem_of_find?_eq_some hfound
          amount := rfl
          asset := rfl
          payTo := hseller
          timeout := rfl
          name := ?_
          version := ?_
          method := ?_
          signer := ?_
          spender := ?_
          held := ?_ }
      · rwa [keptExtra_eq hkept]
      · rwa [keptExtra_eq hkept]
      · rwa [keptExtra_eq hkept]
      · rw [keptExtra_eq hkept]
        exact any_isAddress hsigner
      · rw [keptExtra_eq hkept]
        exact fun hpermit => any_isAddress (hspender.resolve_left (not_not_intro hpermit))
      · rw [keptExtra_eq hkept]
        exact held_get hheld (record_eq_some.1 hextra)
  · cases h

/-- The offers that the loop keeps, each under the symbol of its token. -/
def Offers (seller : JsStr) (acceptedBySymbol : List (JsStr × PaymentRequirement)) : Prop :=
  ∀ e ∈ acceptedBySymbol, ∃ token, token.symbol = e.1 ∧ Offer seller token e.2

/-- The loop keeps offers only. -/
theorem parseRequirements_offers {seller : JsStr} {accepts : List Value}
    (hheld : ∀ v ∈ accepts, v.Held) {acceptedBySymbol found : List (JsStr × PaymentRequirement)}
    (hkept : Offers seller acceptedBySymbol)
    (h : parseRequirements seller accepts acceptedBySymbol = some found) :
    Offers seller found := by
  induction accepts generalizing acceptedBySymbol with
  | nil =>
      cases h
      exact hkept
  | cons acceptedValue accepts ih =>
      obtain ⟨hfirst, hrest⟩ := List.forall_mem_cons.1 hheld
      simp only [parseRequirements, Option.bind_eq_bind, Option.bind_eq_some_iff] at h
      obtain ⟨⟨token, accepted⟩, hparsed, h⟩ := h
      split at h
      · cases h
      · refine ih hrest ?_ h
        intro e he
        obtain he | he := List.mem_append.1 he
        · exact hkept e he
        · obtain rfl := List.mem_singleton.1 he
          exact ⟨token, rfl, parseRequirement_offer hfirst hparsed⟩

/-- What the client has taken of a challenge. -/
structure Taken (url seller symbol : JsStr) (token : PaymentToken)
    (challenge : PaidPaymentChallenge) : Prop where
  url : challenge.url = url
  urlUnits : ∀ u ∈ challenge.url, u < 0x10000
  descriptionUnits : ∀ u ∈ challenge.description, u < 0x10000
  address : isAddress seller = true
  symbol : token.symbol = symbol
  offer : Offer (toLowerCase seller) token challenge.accepted

/-- **A challenge is taken as an offer** of the preferred token for the client's
own seller. -/
theorem parsePaymentChallenge_taken {url seller symbol : JsStr} {value : Value}
    (hheld : value.Held) {challenge : PaidPaymentChallenge}
    (h : parsePaymentChallenge url seller value symbol = some challenge) :
    ∃ token, Taken url seller symbol token challenge := by
  simp only [parsePaymentChallenge, Option.bind_eq_bind, Option.bind_eq_some_iff] at h
  obtain ⟨entries, hentries, paymentRequired, hrequired, accepts, haccepts, resource, hresource,
    resourceUrl, hurl, description, hdescription, h⟩ := h
  split at h
  · next hchecks =>
      simp only [Option.bind_eq_some_iff] at h
      obtain ⟨found, hfound, accepted, haccepted, h⟩ := h
      cases h
      simp only [Bool.and_eq_true, decide_eq_true_eq] at hchecks
      obtain rfl := Option.some.inj (record_eq_some.1 hentries)
      have hrequiredHeld := held_get hheld (record_eq_some.1 hrequired)
      have hresourceHeld := held_get hrequiredHeld (record_eq_some.1 hresource)
      have hitems := held_items (held_get hrequiredHeld (array_eq_some.1 haccepts))
      obtain ⟨token, hsymbol, hoffer⟩ := parseRequirements_offers hitems
        (fun e he => absurd he List.not_mem_nil) hfound (symbol, accepted) (mem_of_lookup haccepted)
      refine ⟨token, hchecks.1.1.1.1.2, ?_, ?_, hchecks.1.2, hsymbol, hoffer⟩
      · cases held_get hresourceHeld (string_eq_some.1 hurl) with
        | str units => exact units
      · cases held_get hresourceHeld (string_eq_some.1 hdescription) with
        | str units => exact units
  · cases h

end X402Async
