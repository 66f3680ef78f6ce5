import StockAnalyst.NotifyHandshake
import StockAnalyst.QuoteVerification

/-!
# The description of a job

The buyer writes the quote it has accepted into the description of its job, with
what would break the embedding taken out of the texts and with sorted keys.  The
seller reads that text back from the chain.  What it reads is the quote, field by
field, and it works on the job exactly where the quote is one it has signed.
-/

namespace Negotiate

open Python Js JsonText Deliverable NotifySecurity NotifyAuth Signing

/-! ## The buyer -/

/-- `NOTIFY_CONTEXT_REQUIRED`. -/
def notifyContextRequired : JsStr := js "uomp_notify_context_required_v1"

/-- `response.terms`, what is read of it. -/
structure ResponseTerms where
  price : JsStr
  currency : JsStr
  deliverables : Option JsStr
  qualityStandards : Option JsStr
  successCriteria : Option JsStr

/-- `response`, what is read of it. -/
structure NegotiationResponse where
  terms : ResponseTerms
  negotiatedAt : Option PyFloat
  quoteExpiresAt : Option PyFloat
  negotiationHash : Option JsStr
  providerSig : Option JsStr

/-- `NegotiationEnvelope`; a field that is `undefined` or `null` is `none`. -/
structure NegotiationEnvelope where
  taskDescription : JsStr
  response : NegotiationResponse
  negotiatedAt : Option PyFloat
  negotiationHash : Option JsStr
  providerSig : Option JsStr
  chainId : Option PyFloat
  verifyingContract : Option JsStr

/-- `sanitize(s)`. -/
def sanitize (s : JsStr) : JsStr :=
  (s.map fun u => if u = 0x5B then 0x28 else if u = 0x5D then 0x29 else u).filter fun u =>
    !(u ≤ 8 || u = 0x0B || u = 0x0C || (0x0E ≤ u && u ≤ 0x1F))

mutual

/-- `sortKeys(v)`. -/
def sortKeys : Value → Value
  | .obj entries => .obj (recordOf (sortedEntries (sortKeysEntries entries)))
  | v => v

def sortKeysEntries : List (JsStr × Value) → List (JsStr × Value)
  | [] => []
  | (key, v) :: entries => (key, sortKeys v) :: sortKeysEntries entries

end

/-- `requireNotifyContextMarker(envelope)`; nothing where it throws. -/
def requireNotifyContextMarker (envelope : NegotiationEnvelope) : Option JsStr :=
  envelope.response.terms.successCriteria.filter (· = notifyContextRequired)

/-- `terms`. -/
def termsEntries (envelope : NegotiationEnvelope) (successCriteria : JsStr) :
    List (JsStr × Value) :=
  [(js "deliverables", .str (sanitize (envelope.response.terms.deliverables.getD []))),
    (js "quality_standards", .str (sanitize (envelope.response.terms.qualityStandards.getD []))),
    (js "success_criteria", .str (sanitize successCriteria))]

/-- A property that is set unless its value is missing. -/
def optionalEntry (key : JsStr) (value : Option Value) : List (JsStr × Value) :=
  value.toList.map fun v => (key, v)

/-- `content`; `now` is the time in seconds. -/
def contentEntries (now : PyFloat) (envelope : NegotiationEnvelope) (successCriteria : JsStr) :
    List (JsStr × Value) :=
  let response := envelope.response
  [(js "version", .num (.finite false 1)),
    (js "negotiated_at", .num ((response.negotiatedAt.or envelope.negotiatedAt).getD now)),
    (js "task", .str (sanitize envelope.taskDescription)),
    (js "terms", .obj (termsEntries envelope successCriteria)),
    (js "price", .str response.terms.price),
    (js "currency", .str response.terms.currency)] ++
  optionalEntry (js "quote_expires_at") (response.quoteExpiresAt.map .num) ++
  optionalEntry (js "chain_id") (envelope.chainId.map .num) ++
  optionalEntry (js "verifying_contract")
    ((envelope.verifyingContract.filter (· ≠ [])).map .str) ++
  [(js "negotiation_hash", .str ((envelope.negotiationHash.or response.negotiationHash).getD [])),
    (js "provider_sig", .str ((envelope.providerSig.or response.providerSig).getD []))]

/-- `buildJobDescription(envelope)`; nothing where it throws. -/
def buildJobDescription (numberText : PyFloat → JsStr) (now : PyFloat)
    (envelope : NegotiationEnvelope) : Option JsStr :=
  (requireNotifyContextMarker envelope).map fun successCriteria =>
    stringifyValue numberText (sortKeys (.obj (contentEntries now envelope successCriteria)))

/-- Texts and numbers a program can hold. -/
structure NegotiationEnvelope.Held (envelope : NegotiationEnvelope) : Prop where
  units : ∀ s, s = envelope.taskDescription ∨ s = envelope.response.terms.price ∨
    s = envelope.response.terms.currency ∨ some s = envelope.response.terms.deliverables ∨
    some s = envelope.response.terms.qualityStandards ∨ some s = envelope.negotiationHash ∨
    some s = envelope.response.negotiationHash ∨ some s = envelope.providerSig ∨
    some s = envelope.response.providerSig ∨ some s = envelope.verifyingContract →
    ∀ u ∈ s, u < 0x10000
  numbers : ∀ x, some x = envelope.negotiatedAt ∨ some x = envelope.response.negotiatedAt ∨
    some x = envelope.response.quoteExpiresAt ∨ some x = envelope.chainId → (Value.num x).Held

/-! ## Sorted keys -/

/-- The values of an object are sorted one by one. -/
theorem sortKeysEntries_eq_map (entries : List (JsStr × Value)) :
    sortKeysEntries entries = entries.map fun e => (e.1, sortKeys e.2) := by
  induction entries with
  | nil => rfl
  | cons e entries ih =>
      obtain ⟨key, v⟩ := e
      rw [sortKeysEntries, ih, List.map_cons]

/-- The entries of an object with sorted keys. -/
def sortedObject (entries : List (JsStr × Value)) : List (JsStr × Value) :=
  recordOf (sortedEntries (sortKeysEntries entries))

section sorted

variable {entries : List (JsStr × Value)}

/-- Sorting keeps the entries of an object. -/
theorem perm_sortedObject (hkeys : (entries.map (·.1)).Nodup) :
    (sortedObject entries).Perm (entries.map fun e => (e.1, sortKeys e.2)) := by
  have hsorted : ((sortedEntries (sortKeysEntries entries)).map (·.1)).Nodup := by
    rw [nodup_sortedEntries, sortKeysEntries_eq_map, List.map_map]
    exact hkeys
  rw [sortedObject, recordOf, dictOf_of_nodup hsorted, ← sortKeysEntries_eq_map]
  exact (ownEntries_perm _).trans (sortedEntries_perm _)

/-- What is found of changed values is what was found, changed. -/
theorem lookup_map {α β : Type} (f : α → β) (entries : List (JsStr × α)) (key : JsStr) :
    (entries.map fun e => (e.1, f e.2)).lookup key = (entries.lookup key).map f := by
  induction entries with
  | nil => rfl
  | cons e entries ih =>
      obtain ⟨k, v⟩ := e
      rw [List.map_cons, List.lookup_cons, List.lookup_cons, ih]
      cases key == k <;> rfl

/-- Sorting an object keeps what is found under a key. -/
theorem lookup_sortedObject (hkeys : (entries.map (·.1)).Nodup) (key : JsStr) :
    (sortedObject entries).lookup key = (entries.lookup key).map sortKeys := by
  rw [lookup_perm (perm_sortedObject hkeys) (by rw [List.map_map]; exact hkeys), lookup_map]

/-- Sorted keys make no value one that a program cannot hold. -/
theorem held_sortKeys {v : Value} (h : v.Held) : (sortKeys v).Held := by
  induction v using Value.induct with
  | obj entries ih =>
      cases h with
      | obj hunits hkeys heach =>
          have hperm := perm_sortedObject hkeys
          have hsame : ((entries.map fun e => (e.1, sortKeys e.2)).map (·.1)).Nodup := by
            rw [List.map_map]
            exact hkeys
          refine .obj (fun e he => ?_) ((hperm.map (·.1)).nodup_iff.2 hsame) fun e he => ?_
          · obtain ⟨e', he', rfl⟩ := List.mem_map.1 (hperm.mem_iff.1 he)
            exact hunits e' he'
          · obtain ⟨e', he', rfl⟩ := List.mem_map.1 (hperm.mem_iff.1 he)
            exact ih e' he' (heach e' he')
  | _ => exact h

end sorted

/-! ## The content -/

/-- An optional entry stands under its key where it has a value. -/
theorem lookup_optionalEntry (key k : JsStr) (value : Option Value) :
    (optionalEntry key value).lookup k = if k = key then value else none := by
  cases value with
  | none => simp [optionalEntry]
  | some v =>
      by_cases hkey : k = key
      · simp [optionalEntry, hkey]
      · have hne : (k == key) = false := by simpa using hkey
        simp [optionalEntry, List.lookup_cons, hkey, hne]

/-- An optional entry has its key at most. -/
theorem optionalEntry_keys (key : JsStr) (value : Option Value) :
    ((optionalEntry key value).map (·.1)).Sublist [key] := by
  cases value <;> simp [optionalEntry]

def contentKeys : List JsStr :=
  [js "version", js "negotiated_at", js "task", js "terms", js "price", js "currency"] ++
    [js "quote_expires_at"] ++ [js "chain_id"] ++ [js "verifying_contract"] ++
    [js "negotiation_hash", js "provider_sig"]

def termsKeys : List JsStr :=
  [js "deliverables", js "quality_standards", js "success_criteria"]

/-- The keys of a description are ASCII. -/
theorem ascii_contentKeys : ∀ key ∈ contentKeys, (∀ u ∈ key, u < 0x10000) ∧ points key = key :=
  ascii_keys (by decide)

/-- The keys of the terms are ASCII. -/
theorem ascii_termsKeys : ∀ key ∈ termsKeys, (∀ u ∈ key, u < 0x10000) ∧ points key = key :=
  ascii_keys (by decide)

/-- A sanitized text has code units. -/
theorem units_sanitize {s : JsStr} (h : ∀ u ∈ s, u < 0x10000) : ∀ u ∈ sanitize s, u < 0x10000 := by
  intro u hu
  obtain ⟨v, hv, rfl⟩ := List.mem_map.1 (List.mem_filter.1 hu).1
  have := h v hv
  split
  · omega
  · split <;> omega

/-- The version number is held. -/
theorem held_one : (Value.num (.finite false 1)).Held := .finite ⟨1, 0, by norm_num⟩

/-- The version number is read as one. -/
theorem numOf_one : numOf (.finite false 1) = some (.int 1) := by
  rw [numOf, if_pos ⟨rfl, by norm_num⟩]
  rfl

section content

variable {now : PyFloat} {envelope : NegotiationEnvelope} {successCriteria : JsStr}

/-- A description has its own keys at most, in their order. -/
theorem contentEntries_keys :
    ((contentEntries now envelope successCriteria).map (·.1)).Sublist contentKeys := by
  simp only [contentEntries, List.map_append, contentKeys]
  exact ((((List.Sublist.refl _).append (optionalEntry_keys _ _)).append
    (optionalEntry_keys _ _)).append (optionalEntry_keys _ _)).append (List.Sublist.refl _)

/-- The keys of a description are distinct. -/
theorem nodup_contentEntries :
    ((contentEntries now envelope successCriteria).map (·.1)).Nodup :=
  contentEntries_keys.nodup (by decide)

/-- The terms of a held envelope are held. -/
theorem held_termsEntries (hheld : envelope.Held) (hcriteria : ∀ u ∈ successCriteria, u < 0x10000) :
    (Value.obj (termsEntries envelope successCriteria)).Held := by
  have hoptional : ∀ value : Option JsStr,
      (∀ s, some s = value → ∀ u ∈ s, u < 0x10000) → ∀ u ∈ value.getD [], u < 0x10000 := by
    intro value h
    cases value with
    | none => exact fun u hu => absurd hu List.not_mem_nil
    | some s => exact h s rfl
  have hkeys : termsKeys.Nodup := by decide
  refine .obj (fun e he => ?_) hkeys fun e he => ?_
  · exact (ascii_termsKeys e.1 (List.mem_map_of_mem he)).1
  · simp only [termsEntries, List.mem_cons, List.not_mem_nil, or_false] at he
    obtain rfl | rfl | rfl := he
    · exact .str (units_sanitize (hoptional _ fun s hs => hheld.units s (by simp [hs])))
    · exact .str (units_sanitize (hoptional _ fun s hs => hheld.units s (by simp [hs])))
    · exact .str (units_sanitize hcriteria)

/-- An optional entry is held where its value is. -/
theorem held_optionalEntry {key : JsStr} {value : Option Value} (h : ∀ v ∈ value, v.Held) :
    ∀ e ∈ optionalEntry key value, e.2.Held := by
  intro e he
  obtain ⟨v, hv, rfl⟩ := List.mem_map.1 he
  exact h v (Option.mem_toList.1 hv)

/-- A text that may be missing is one the program can hold, or empty. -/
theorem units_or {first second : Option JsStr}
    (hfirst : ∀ s, some s = first → ∀ u ∈ s, u < 0x10000)
    (hsecond : ∀ s, some s = second → ∀ u ∈ s, u < 0x10000) :
    ∀ u ∈ (first.or second).getD [], u < 0x10000 := by
  cases first with
  | some s => exact hfirst s rfl
  | none =>
      cases second with
      | some s => exact hsecond s rfl
      | none => exact fun u hu => absurd hu List.not_mem_nil

/-- The description of a held envelope is held. -/
theorem held_contentEntries (hnow : (Value.num now).Held) (hheld : envelope.Held)
    (hcriteria : ∀ u ∈ successCriteria, u < 0x10000) :
    (Value.obj (contentEntries now envelope successCriteria)).Held := by
  have hnumber : ∀ value : Option PyFloat, (∀ x, some x = value → (Value.num x).Held) →
      ∀ v ∈ value.map Value.num, v.Held := by
    intro value h v hv
    obtain ⟨x, hx, rfl⟩ := Option.mem_map.1 hv
    exact h x hx.symm
  have htime :
      (Value.num ((envelope.response.negotiatedAt.or envelope.negotiatedAt).getD now)).Held := by
    cases hresponse : envelope.response.negotiatedAt with
    | some x => exact hheld.numbers x (by simp [hresponse])
    | none =>
        cases hown : envelope.negotiatedAt with
        | some x => exact hheld.numbers x (by simp [hown])
        | none => exact hnow
  refine .obj (fun e he => ?_) nodup_contentEntries ?_
  · exact (ascii_contentKeys e.1 (contentEntries_keys.subset (List.mem_map_of_mem he))).1
  · simp only [contentEntries, List.forall_mem_append, List.forall_mem_cons]
    refine ⟨⟨⟨⟨⟨held_one, htime, ?_, held_termsEntries hheld hcriteria, ?_, ?_, ?_⟩, ?_⟩, ?_⟩, ?_⟩,
      ?_, ?_, ?_⟩
    · exact .str (units_sanitize (hheld.units _ (by simp)))
    · exact .str (hheld.units _ (by simp))
    · exact .str (hheld.units _ (by simp))
    · exact List.forall_mem_nil _
    · exact held_optionalEntry (hnumber _ fun x hx => hheld.numbers x (by simp [hx]))
    · exact held_optionalEntry (hnumber _ fun x hx => hheld.numbers x (by simp [hx]))
    · refine held_optionalEntry fun v hv => ?_
      obtain ⟨contract, hcontract, rfl⟩ := Option.mem_map.1 hv
      exact .str (hheld.units _ (by simp [(Option.mem_filter_iff.1 hcontract).1.symm]))
    · exact .str (units_or (fun s hs => hheld.units s (by simp [hs]))
        fun s hs => hheld.units s (by simp [hs]))
    · exact .str (units_or (fun s hs => hheld.units s (by simp [hs]))
        fun s hs => hheld.units s (by simp [hs]))
    · exact List.forall_mem_nil _

end content

/-! ## What is read of it -/

/-- What the seller has of the terms. -/
structure TermsRead (envelope : NegotiationEnvelope) (terms : Items) : Prop where
  keys : ∀ item ∈ terms, item.1 ∈ termsKeys
  deliverables : terms.lookup (py "deliverables") =
    some (.str (points (sanitize (envelope.response.terms.deliverables.getD []))))
  qualityStandards : terms.lookup (py "quality_standards") =
    some (.str (points (sanitize (envelope.response.terms.qualityStandards.getD []))))
  successCriteria : terms.lookup (py "success_criteria") = some (.str contextRequiredCriterion)

/-- What the seller has of an envelope; `now` is the time of the buyer. -/
structure QuoteRead (number : PyStr → Double) (numberText : PyFloat → JsStr) (now : PyFloat)
    (envelope : NegotiationEnvelope) (parsed : Items) : Prop where
  keys : ∀ item ∈ parsed, item.1 ∈ contentKeys
  version : parsed.lookup (py "version") = some (.int 1)
  negotiatedAt : parsed.lookup (py "negotiated_at") = some (loadedValue number numberText
    (.num ((envelope.response.negotiatedAt.or envelope.negotiatedAt).getD now)))
  task : parsed.lookup (py "task") = some (.str (points (sanitize envelope.taskDescription)))
  terms : ∃ terms, parsed.lookup (py "terms") = some (.dict terms) ∧ TermsRead envelope terms
  price : parsed.lookup (py "price") = some (.str (points envelope.response.terms.price))
  currency : parsed.lookup (py "currency") = some (.str (points envelope.response.terms.currency))
  quoteExpiresAt : parsed.lookup (py "quote_expires_at") =
    envelope.response.quoteExpiresAt.map fun x => loadedValue number numberText (.num x)
  chainId : parsed.lookup (py "chain_id") =
    envelope.chainId.map fun x => loadedValue number numberText (.num x)
  verifyingContract : parsed.lookup (py "verifying_contract") =
    (envelope.verifyingContract.filter (· ≠ [])).map fun contract => .str (points contract)
  negotiationHash : parsed.lookup (py "negotiation_hash") = some (.str (points
    ((envelope.negotiationHash.or envelope.response.negotiationHash).getD [])))
  providerSig : parsed.lookup (py "provider_sig") = some (.str (points
    ((envelope.providerSig.or envelope.response.providerSig).getD [])))

section read

variable {codec : Codec} {number : PyStr → Double} {numberText : PyFloat → JsStr}
  {now : PyFloat} {envelope : NegotiationEnvelope}

/-- A field of an object with sorted keys, as it is read. -/
theorem lookup_loadedObject {entries : List (JsStr × Value)} (hheld : (Value.obj entries).Held)
    {key : JsStr} (hkey : (∀ u ∈ key, u < 0x10000) ∧ points key = key) :
    (loadedValueEntries number numberText (sortedObject entries)).lookup key =
      (entries.lookup key).map fun v => loadedValue number numberText (sortKeys v) := by
  cases hheld with
  | obj hunits hkeys heach =>
      have hsorted : ∀ e ∈ sortedObject entries, ∀ u ∈ e.1, u < 0x10000 := by
        intro e he
        obtain ⟨e', he', rfl⟩ := List.mem_map.1 ((perm_sortedObject hkeys).mem_iff.1 he)
        exact hunits e' he'
      have hfound := lookup_points (loadedValue number numberText) hsorted hkey.1
      rw [hkey.2] at hfound
      rw [loadedValueEntries_eq_map, hfound, lookup_sortedObject hkeys, Option.map_map]
      rfl

/-- **The terms are read back** field by field, and no other key. -/
theorem termsRead (hheld : envelope.Held) :
    TermsRead envelope (loadedValueEntries number numberText
      (sortedObject (termsEntries envelope notifyContextRequired))) := by
  have hcriteria : ∀ u ∈ notifyContextRequired, u < 0x10000 := by decide
  have hterms := held_termsEntries hheld hcriteria
  have hkey := fun key h =>
    @lookup_loadedObject number numberText _ hterms key (ascii_termsKeys key h)
  have hnodup : ((termsEntries envelope notifyContextRequired).map (·.1)).Nodup := by
    have hkeys : termsKeys.Nodup := by decide
    exact hkeys
  constructor
  · intro item hitem
    rw [loadedValueEntries_eq_map] at hitem
    obtain ⟨e, he, rfl⟩ := List.mem_map.1 hitem
    obtain ⟨e', he', rfl⟩ := List.mem_map.1 ((perm_sortedObject hnodup).mem_iff.1 he)
    have hmem : e'.1 ∈ termsKeys := List.mem_map_of_mem he'
    rwa [(ascii_termsKeys _ hmem).2]
  · exact hkey _ (by decide)
  · exact hkey _ (by decide)
  · exact hkey _ (by decide)

/-- The quote as it is read. -/
theorem quoteRead (hreads : NumberReads codec numberText) (hnow : (Value.num now).Held)
    (hheld : envelope.Held) :
    QuoteRead codec.number numberText now envelope (loadedValueEntries codec.number numberText
      (sortedObject (contentEntries now envelope notifyContextRequired))) := by
  have hcriteria : ∀ u ∈ notifyContextRequired, u < 0x10000 := by decide
  have hcontent := held_contentEntries hnow hheld hcriteria
  have hone : loadedValue codec.number numberText (.num (.finite false 1)) = .int 1 :=
    (loadedValue_int hreads held_one (by decide)).2 numOf_one
  have hkey := fun key h =>
    @lookup_loadedObject codec.number numberText _ hcontent key (ascii_contentKeys key h)
  simp only [contentEntries, List.lookup_append, lookup_optionalEntry] at hkey
  constructor
  · intro item hitem
    rw [loadedValueEntries_eq_map] at hitem
    obtain ⟨e, he, rfl⟩ := List.mem_map.1 hitem
    obtain ⟨e', he', rfl⟩ := List.mem_map.1 ((perm_sortedObject nodup_contentEntries).mem_iff.1 he)
    have hmem := contentEntries_keys.subset (List.mem_map_of_mem he')
    rwa [(ascii_contentKeys _ hmem).2]
  · exact (hkey _ (by decide)).trans (congrArg some hone)
  · exact hkey _ (by decide)
  · exact hkey _ (by decide)
  · exact ⟨_, hkey _ (by decide), termsRead hheld⟩
  · exact hkey _ (by decide)
  · exact hkey _ (by decide)
  · refine (hkey _ (by decide)).trans ?_
    cases envelope.response.quoteExpiresAt <;> rfl
  · refine (hkey _ (by decide)).trans ?_
    cases envelope.chainId <;> rfl
  · refine (hkey _ (by decide)).trans ?_
    cases envelope.verifyingContract.filter (· ≠ []) <;> rfl
  · exact hkey _ (by decide)
  · exact hkey _ (by decide)

/-- A description that is built is the text of its sorted content. -/
theorem buildJobDescription_some {text : JsStr}
    (h : buildJobDescription numberText now envelope = some text) :
    text = stringifyValue numberText
      (.obj (sortedObject (contentEntries now envelope notifyContextRequired))) := by
  obtain ⟨successCriteria, hmarker, rfl⟩ := Option.map_eq_some_iff.1 h
  obtain ⟨-, hrequired⟩ := Option.filter_eq_some_iff.1 hmarker
  rw [of_decide_eq_true hrequired]
  rfl

/-- **The quote of a description.**  What the buyer has written of an envelope is
read as an object with the fields of that envelope and no others. -/
theorem read_back (hreads : NumberReads codec numberText) (hnow : (Value.num now).Held)
    (hheld : envelope.Held) {text : JsStr}
    (htext : buildJobDescription numberText now envelope = some text) :
    ∃ parsed, loads codec.number (points text) = some (.dict parsed) ∧
      QuoteRead codec.number numberText now envelope parsed := by
  have hcriteria : ∀ u ∈ notifyContextRequired, u < 0x10000 := by decide
  have hsorted := held_sortKeys (held_contentEntries hnow hheld hcriteria)
  have hloads := loads_stringifyValue hreads hsorted
  rw [buildJobDescription_some htext]
  exact ⟨_, hloads, quoteRead hreads hnow hheld⟩

end read

/-! ## The seller -/

/-- The quote is for the chain and the contract of the seller. -/
structure MadeFor (lib : QuoteLib) (active : Active) (envelope : NegotiationEnvelope) : Prop where
  chain : ∃ x, envelope.chainId = some x ∧ numOf x = some (.int active.chainId)
  contract : ∃ contract address, envelope.verifyingContract = some contract ∧ contract ≠ [] ∧
    lib.isAddress (points contract) = true ∧ lib.isAddress active.commerce = true ∧
    lib.toChecksumAddress (points contract) = some address ∧
    lib.toChecksumAddress active.commerce = some address

/-- The quote names a time of expiry after `now`. -/
def Unexpired (number : PyStr → Double) (numberText : PyFloat → JsStr) (now : Int)
    (envelope : NegotiationEnvelope) : Prop :=
  ∃ x expiresAt, envelope.response.quoteExpiresAt = some x ∧
    loadedValue number numberText (.num x) = .int expiresAt ∧ now < expiresAt

/-- The digest of the envelope is the one of the older form of what was read,
and its signature is of that digest. -/
def SignedBefore (lib : QuoteLib) (envelope : NegotiationEnvelope) (parsed : Items)
    (signer : PyStr) : Prop :=
  ∃ terms canonical, parsed.lookup (py "terms") = some (.dict terms) ∧
    (legacyContent parsed terms).dumps = some canonical ∧
    lib.lower (prefixed (lib.keccak canonical)) = lib.lower (points
      ((envelope.negotiationHash.or envelope.response.negotiationHash).getD [])) ∧
    lib.recoverMessage
        (points ((envelope.negotiationHash.or envelope.response.negotiationHash).getD []))
        (points ((envelope.providerSig.or envelope.response.providerSig).getD [])) = .ok signer

section seller

variable {lib : QuoteLib} {numberText : PyFloat → JsStr} {written : PyFloat}
  {envelope : NegotiationEnvelope} {parsed : Items}

/-- The seller finds a quote bound exactly where it is for this chain and
contract. -/
theorem isBound_iff (hreads : NumberReads lib.toCodec numberText) (hheld : envelope.Held)
    (hread : QuoteRead lib.number numberText written envelope parsed) {active : Active}
    (hchain : |active.chainId| < 2 ^ 53) :
    isBound lib active.chainId active.commerce parsed = true ↔ MadeFor lib active envelope := by
  have hnumber : ∀ x, envelope.chainId = some x →
      (loadedValue lib.number numberText (.num x) = .int active.chainId ↔
        numOf x = some (.int active.chainId)) := fun x hx =>
    loadedValue_int hreads (hheld.numbers x (by simp [hx])) hchain
  rw [isBound, hread.chainId, hread.verifyingContract]
  constructor
  · intro h
    split at h
    · next chainId contract hid hcontract =>
        simp only [Bool.and_eq_true, decide_eq_true_eq] at h
        obtain ⟨⟨⟨rfl, haddress⟩, hcommerce⟩, hsame⟩ := h
        obtain ⟨x, hx, hloaded⟩ := Option.map_eq_some_iff.1 hid
        obtain ⟨units, hunits, htext⟩ := Option.map_eq_some_iff.1 hcontract
        obtain ⟨hgiven, hne⟩ := Option.filter_eq_some_iff.1 hunits
        cases htext
        refine ⟨⟨x, hx, (hnumber x hx).1 hloaded⟩, units, ?_⟩
        split at hsame
        · next signed expected hsigned hexpected =>
            obtain rfl := of_decide_eq_true hsame
            exact ⟨signed, hgiven, of_decide_eq_true hne, haddress, hcommerce, hsigned, hexpected⟩
        · cases hsame
    · cases h
  · intro ⟨⟨x, hx, hloaded⟩, units, address, hgiven, hne, haddress, hcommerce, hsigned, hexpected⟩
    have hfilter : envelope.verifyingContract.filter (· ≠ []) = some units :=
      Option.filter_eq_some_iff.2 ⟨hgiven, decide_eq_true hne⟩
    rw [hx, hfilter, Option.map_some, Option.map_some, (hnumber x hx).2 hloaded]
    simp [haddress, hcommerce, hsigned, hexpected]

/-- The seller finds a quote unexpired exactly where the envelope is. -/
theorem isUnexpired_iff (hread : QuoteRead lib.number numberText written envelope parsed)
    {now : Int} :
    isUnexpired now parsed = true ↔ Unexpired lib.number numberText now envelope := by
  rw [isUnexpired, hread.quoteExpiresAt]
  constructor
  · intro h
    split at h
    · next expiresAt hexpires =>
        obtain ⟨x, hx, hloaded⟩ := Option.map_eq_some_iff.1 hexpires
        exact ⟨x, expiresAt, hx, hloaded, of_decide_eq_true h⟩
    · cases h
  · intro ⟨x, expiresAt, hx, hloaded, hlater⟩
    rw [hx, Option.map_some, hloaded]
    exact decide_eq_true hlater

/-- The older signature is over what the envelope said. -/
theorem legacySigned_iff (hread : QuoteRead lib.number numberText written envelope parsed)
    {signer : PyStr} :
    LegacySigned lib parsed signer ↔ SignedBefore lib envelope parsed signer := by
  constructor
  · intro ⟨terms, hash, sig, canonical, hterms, _, hhash, hsig, hcanonical, hdigest, hrecover⟩
    rw [hread.negotiationHash] at hhash
    rw [hread.providerSig] at hsig
    cases hhash
    cases hsig
    exact ⟨terms, canonical, hterms, hcanonical, hdigest, hrecover⟩
  · intro ⟨terms, canonical, hterms, hcanonical, hdigest, hrecover⟩
    obtain ⟨termsOf, htermsOf, hcriteria⟩ := hread.terms
    rw [hterms] at htermsOf
    cases htermsOf
    exact ⟨terms, _, _, canonical, hterms, hcriteria.successCriteria, hread.negotiationHash,
      hread.providerSig, hcanonical, hdigest, hrecover⟩

/-- **The quote of a job.**  A job whose description the buyer has written of an
envelope is verified exactly when it is funded for this provider, has not
expired, pays the price, and the envelope is for this chain and contract and
was signed by this provider.  A signature of the older form counts while the
quote has not expired. -/
theorem anchored_quote (lib : QuoteLib) {numberText : PyFloat → JsStr}
    (hreads : NumberReads lib.toCodec numberText) {written : PyFloat}
    (hwritten : (Value.num written).Held) {envelope : NegotiationEnvelope}
    (hheld : envelope.Held) {text : JsStr}
    (htext : buildJobDescription numberText written envelope = some text) {active : Active}
    (hchain : |active.chainId| < 2 ^ 53) {now : Int} {job : Job}
    (hdescription : job.description = points text) {check : JobCheck lib.Spec}
    (hcheck : verifySignedJobSnapshot lib active now (.ok job) = some check)
    (snapshot : VerifiedJobSnapshot lib.Spec) :
    check.snapshot = some snapshot ↔
      ∃ spec, snapshot = snapshotOf active job spec ∧
        (job.status = .funded ∧ lib.lower job.provider = lib.lower active.wallet ∧
          (job.expiredAt = 0 ∨ now < job.expiredAt)) ∧
        lib.jobDescription (points text) = some (some spec) ∧
        (∃ price, agreedPrice lib spec = some price ∧ price ≤ job.budget) ∧
        MadeFor lib active envelope ∧
        ∃ signer, lib.lower signer = lib.lower active.wallet ∧
          (lib.recoverQuoteSigner (points text) = .ok (some signer) ∨
            Unrecovered lib (points text) ∧ Unexpired lib.number numberText now envelope ∧
              ∃ parsed, loads lib.number (points text) = some (.dict parsed) ∧
                SignedBefore lib envelope parsed signer) := by
  obtain ⟨parsed, hloads, hread⟩ := read_back hreads hwritten hheld htext
  have hbound := isBound_iff hreads hheld hread hchain
  have hunexpired := @isUnexpired_iff lib numberText written envelope parsed hread now
  have hsigner : ∀ signer,
      recoverBoundQuoteSignerCompat lib active.chainId active.commerce now (points text) =
          .ok (some signer) ↔
        MadeFor lib active envelope ∧
          (lib.recoverQuoteSigner (points text) = .ok (some signer) ∨
            Unrecovered lib (points text) ∧ Unexpired lib.number numberText now envelope ∧
              ∃ parsed, loads lib.number (points text) = some (.dict parsed) ∧
                SignedBefore lib envelope parsed signer) := by
    intro signer
    rw [recoverBound_iff, hloads]
    constructor
    · intro ⟨found, hfound, hfor, hsigned⟩
      cases hfound
      refine ⟨hbound.1 hfor, hsigned.imp_right ?_⟩
      exact fun ⟨hnone, hlegacy, hexpiry⟩ =>
        ⟨hnone, hunexpired.1 hexpiry, parsed, rfl, (legacySigned_iff hread).1 hlegacy⟩
    · intro ⟨hfor, hsigned⟩
      refine ⟨parsed, rfl, hbound.2 hfor, hsigned.imp_right ?_⟩
      intro ⟨hnone, hexpiry, found, hfound, hbefore⟩
      cases hfound
      exact ⟨hnone, (legacySigned_iff hread).2 hbefore, hunexpired.2 hexpiry⟩
  rw [verify_iff hcheck]
  constructor
  · intro ⟨spec, hsnapshot, hagreed⟩
    obtain ⟨signer, hrecovered, hown⟩ := hagreed.signer
    rw [hdescription] at hrecovered
    obtain ⟨hfor, hsigned⟩ := (hsigner signer).1 hrecovered
    exact ⟨spec, hsnapshot, ⟨hagreed.funded, hagreed.provider, hagreed.unexpired⟩,
      hdescription ▸ hagreed.anchored, hagreed.paid, hfor, signer, hown, hsigned⟩
  · intro ⟨spec, hsnapshot, ⟨hfunded, hprovider, htime⟩, hanchored, hpaid, hfor, signer, hown,
      hsigned⟩
    refine ⟨spec, hsnapshot, hfunded, hprovider, htime, hdescription ▸ hanchored, ?_, hpaid⟩
    rw [hdescription]
    exact ⟨signer, (hsigner signer).2 ⟨hfor, hsigned⟩, hown⟩

end seller

/-! ## A recorded job -/

def recordedEnvelope : NegotiationEnvelope where
  taskDescription := js "Analyze [NVDA]"
  response :=
    { terms :=
        { price := js "1000000"
          currency := js "0xcE24439F2D9C6a2289F741120FE202248B666666"
          deliverables := some (js "report")
          qualityStandards := none
          successCriteria := some notifyContextRequired }
      negotiatedAt := some (.finite false (1800000000 : ℕ))
      quoteExpiresAt := some (.finite false (1800000900 : ℕ))
      negotiationHash := none
      providerSig := none }
  negotiatedAt := none
  negotiationHash := some recordedHash
  providerSig := some recordedQuoteSignature
  chainId := some (.finite false (97 : ℕ))
  verifyingContract := some contractsCommerce

/-- The description of the job. -/
def recordedDescription : JsStr :=
  stringifyValue recordedText
    (sortKeys (.obj (contentEntries .nan recordedEnvelope notifyContextRequired)))

set_option maxRecDepth 2000 in
/-- The recorded envelope is held. -/
theorem recordedEnvelope_held : recordedEnvelope.Held where
  units s hs := by
    rcases hs with rfl | rfl | rfl | h | h | h | h | h | h | h
    · decide
    · decide
    · decide
    · obtain rfl := Option.some.inj h
      decide
    · cases h
    · obtain rfl := Option.some.inj h
      decide
    · cases h
    · obtain rfl := Option.some.inj h
      decide
    · cases h
    · obtain rfl := Option.some.inj h
      decide
  numbers x hx := by
    rcases hx with h | h | h | h
    · cases h
    · obtain rfl := Option.some.inj h
      exact held_num (by decide)
    · obtain rfl := Option.some.inj h
      exact held_num (by decide)
    · obtain rfl := Option.some.inj h
      exact held_num (by decide)

/-- The recorded description is built of the recorded envelope. -/
theorem recordedDescription_built :
    buildJobDescription recordedText .nan recordedEnvelope = some recordedDescription := rfl

/-- The job of the recorded envelope. -/
def recordedJob : Job where
  client := py "0x0000000000000000000000000000000000000001"
  provider := recordedAddress
  status := .funded
  expiredAt := 2000000000
  budget := 1000000
  description := points recordedDescription

/-- The task of the recorded job is read back. -/
theorem read_back_recorded :
    ∃ parsed, loads recordedCodec.number (points recordedDescription) = some (.dict parsed) ∧
      parsed.lookup (py "task") = some (.str (py "Analyze (NVDA)")) := by
  obtain ⟨parsed, hloads, hread⟩ := read_back numberReads_recorded .nan recordedEnvelope_held
    recordedDescription_built
  exact ⟨parsed, hloads, hread.task⟩

/-- The recorded envelope is for the recorded chain and contract. -/
theorem madeFor_recorded (price : PyStr) :
    MadeFor (recordedQuotes (points recordedDescription) price) recordedActive
      recordedEnvelope where
  chain := ⟨_, rfl, numOf_nat 97 (by decide)⟩
  contract := by
    have hpoints : points contractsCommerce = contractsCommerce := points_ascii (by decide)
    refine ⟨contractsCommerce, py "0xa206c0517B6371C6638CD9e4a42Cc9f02A33B0DE", rfl, by decide, ?_⟩
    rw [hpoints]
    exact ⟨rfl, rfl, rfl, rfl⟩

set_option maxRecDepth 2000 in
/-- The recorded quote is signed in the older form. -/
theorem signedBefore_recorded (price : PyStr) :
    ∃ parsed, loads recordedCodec.number (points recordedDescription) = some (.dict parsed) ∧
      SignedBefore (recordedQuotes (points recordedDescription) price) recordedEnvelope parsed
        recordedAddress := by
  have hcriteria : ∀ u ∈ notifyContextRequired, u < 0x10000 := by decide
  have hheld := held_sortKeys (held_contentEntries .nan recordedEnvelope_held hcriteria)
  have hloads := loads_stringifyValue numberReads_recorded hheld
  have hcontent : (legacyContent (loadedValueEntries recordedCodec.number recordedText
      (sortedObject (contentEntries .nan recordedEnvelope notifyContextRequired)))
      (loadedValueEntries recordedCodec.number recordedText
        (sortedObject (termsEntries recordedEnvelope notifyContextRequired)))).dumps =
      some recordedContent := by
    decide +kernel
  have hdigest : prefixed (recordedHash.drop 2) = recordedHash := by decide
  have hhash : points recordedHash = recordedHash := points_ascii (by decide)
  have hsignature : points recordedQuoteSignature = recordedQuoteSignature :=
    points_ascii (by decide)
  refine ⟨_, hloads, _, recordedContent, rfl, hcontent, ?_, ?_⟩
  · show asciiLib.lower (prefixed (if recordedContent = recordedContent then
      recordedHash.drop 2 else [])) = asciiLib.lower (points recordedHash)
    rw [if_pos rfl, hdigest, hhash]
  · show (if points recordedHash = recordedHash ∧
      points recordedQuoteSignature = recordedQuoteSignature then Except.ok recordedAddress
      else Except.error Raised.typeOrValueError) = Except.ok recordedAddress
    rw [if_pos ⟨hhash, hsignature⟩]

/-- The recorded quote is verified. -/
theorem anchored_quote_recorded :
    ∃ check,
      verifySignedJobSnapshot (recordedQuotes (points recordedDescription) (py "1000000"))
          recordedActive 1800000010 (.ok recordedJob) = some check ∧
      check.snapshot = some (snapshotOf recordedActive recordedJob (py "1000000")) := by
  obtain ⟨check, hcheck⟩ := @verify_answers
    (recordedQuotes (points recordedDescription) (py "1000000")) recordedActive 1800000010 nofun
    (.ok recordedJob)
  have hspec : (recordedQuotes (points recordedDescription) (py "1000000")).jobDescription
      (points recordedDescription) = some (some (py "1000000")) := congrArg some (if_pos rfl)
  have hunexpired : Unexpired recordedCodec.number recordedText 1800000010 recordedEnvelope :=
    ⟨_, 1800000900, rfl, (loadedValue_int numberReads_recorded (held_num (by decide))
      (by decide)).2 (numOf_nat 1800000900 (by decide)), by decide⟩
  obtain ⟨parsed, hloads, hsigned⟩ := signedBefore_recorded (py "1000000")
  refine ⟨check, hcheck, (anchored_quote _ numberReads_recorded .nan recordedEnvelope_held
    recordedDescription_built (by decide) rfl hcheck _).2 ?_⟩
  exact ⟨_, rfl, ⟨rfl, rfl, Or.inr (by decide)⟩, hspec, ⟨1000000, rfl, le_refl _⟩,
    madeFor_recorded _, recordedAddress, rfl, Or.inr ⟨Or.inl rfl, hunexpired, parsed, hloads,
      hsigned⟩⟩

end Negotiate
