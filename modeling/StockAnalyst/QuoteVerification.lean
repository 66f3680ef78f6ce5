import StockAnalyst.NotifyHandshake
import StockAnalyst.PyAscii

/-!
# The quote of a funded job

`signing`: a job is worked on when it is funded for this provider, has not
expired, and the quote in its description was signed by this provider for this
chain and contract.  A signature that the SDK does not recover may be one of the
older form, in which the success criteria were signed letter by letter; those
count while the quote has not expired.
-/

namespace Signing

open Python Deliverable NotifySecurity

/-- How a call that raises ends, by the handlers around it. -/
inductive Raised where
  | typeOrValueError
  | other
  deriving DecidableEq

/-- The functions of `web3`, `eth_account` and the SDK. -/
structure QuoteLib extends PyLib, Codec where
  isAddress : PyStr → Bool
  /-- Nothing where it raises. -/
  toChecksumAddress : PyStr → Option PyStr
  /-- `Web3.keccak(text=text).hex()`. -/
  keccak : PyStr → PyStr
  /-- `Account.recover_message(encode_defunct(text=text), signature=signature)`. -/
  recoverMessage : PyStr → PyStr → Except Raised PyStr
  /-- `recover_quote_signer(description)`. -/
  recoverQuoteSigner : PyStr → Except Raised (Option PyStr)
  /-- What `JobDescription.from_str` makes of a description. -/
  Spec : Type
  price : Spec → Json
  /-- `JobDescription.from_str(description)`; nothing where it raises. -/
  jobDescription : PyStr → Option (Option Spec)

/-! ## The signer of a quote -/

def contextRequiredCriterion : PyStr := py "uomp_notify_context_required_v1"

abbrev Items : Type := List (PyStr × Loaded)

/-- The content that was signed in the older form. -/
def legacyContent (parsed terms : Items) : Loaded :=
  let content := parsed.filter fun item =>
    !([py "negotiation_hash", py "provider_sig"].contains item.1)
  let criteria := contextRequiredCriterion.map fun c => Loaded.str [c]
  .dict (dictSet content (py "terms")
    (.dict (dictSet terms (py "success_criteria") (.list criteria))))

variable (lib : QuoteLib)

/-- A digest with its prefix. -/
def prefixed (digest : PyStr) : PyStr :=
  if digest.startsWith (py "0x") then digest else py "0x" ++ digest

/-- The signer of a quote of the older form; an error is an exception that is
not handled. -/
def legacyQuoteSigner (description : PyStr) : Except Raised (Option PyStr) :=
  match loads lib.number description with
  | some (.dict parsed) =>
      match parsed.lookup (py "terms"), parsed.lookup (py "negotiation_hash"),
          parsed.lookup (py "provider_sig") with
      | some (.dict terms), some (.str negotiationHash), some (.str providerSig) =>
          match terms.lookup (py "success_criteria"), (legacyContent parsed terms).dumps with
          | some (.str criteria), some canonical =>
              if criteria = contextRequiredCriterion ∧
                  lib.lower (prefixed (lib.keccak canonical)) = lib.lower negotiationHash then
                match lib.recoverMessage negotiationHash providerSig with
                | .ok signer => .ok (some signer)
                | .error .typeOrValueError => .ok none
                | .error .other => .error .other
              else .ok none
          | _, _ => .ok none
      | _, _, _ => .ok none
  | _ => .ok none

/-- `_recover_quote_signer_compat_with_mode`. -/
def recoverQuoteSignerCompatWithMode (description : PyStr) : Except Raised (Option PyStr × Bool) :=
  match lib.recoverQuoteSigner description with
  | .error .other => .error .other
  | .ok (some recovered) => .ok (some recovered, false)
  | _ => (legacyQuoteSigner lib description).map fun signer => (signer, true)

/-- The checks of the chain and of the contract a quote was signed for. -/
def isBound (expectedChainId : Int) (expectedVerifyingContract : PyStr) (parsed : Items) : Bool :=
  match parsed.lookup (py "chain_id"), parsed.lookup (py "verifying_contract") with
  | some (.int chainId), some (.str contract) =>
      chainId = expectedChainId && lib.isAddress contract &&
        lib.isAddress expectedVerifyingContract &&
        match lib.toChecksumAddress contract, lib.toChecksumAddress expectedVerifyingContract with
        | some signed, some expected => signed = expected
        | _, _ => false
  | _, _ => false

/-- Whether a quote names a time of expiry after `now`. -/
def isUnexpired (now : Int) (parsed : Items) : Bool :=
  match parsed.lookup (py "quote_expires_at") with
  | some (.int expiresAt) => now < expiresAt
  | _ => false

/-- `recover_bound_quote_signer_compat`. -/
def recoverBoundQuoteSignerCompat (expectedChainId : Int) (expectedVerifyingContract : PyStr)
    (now : Int) (description : PyStr) : Except Raised (Option PyStr) :=
  match loads lib.number description with
  | some (.dict parsed) =>
      if isBound lib expectedChainId expectedVerifyingContract parsed then
        (recoverQuoteSignerCompatWithMode lib description).map fun recovered =>
          if recovered.2 && !isUnexpired now parsed then none else recovered.1
      else .ok none
  | _ => .ok none

/-! ## The funded job -/

inductive JobStatus where
  | open
  | funded
  | submitted
  | completed
  | rejected
  | expired
  deriving DecidableEq

def JobStatus.name : JobStatus → PyStr
  | .open => py "OPEN"
  | .funded => py "FUNDED"
  | .submitted => py "SUBMITTED"
  | .completed => py "COMPLETED"
  | .rejected => py "REJECTED"
  | .expired => py "EXPIRED"

/-- A job of the chain. -/
structure Job where
  client : PyStr
  provider : PyStr
  status : JobStatus
  expiredAt : Int
  budget : Int
  description : PyStr

/-- The wallet of this provider and the contract it works for. -/
structure Active where
  wallet : PyStr
  chainId : Int
  commerce : PyStr

/-- `VerifiedJobSnapshot`. -/
structure VerifiedJobSnapshot (Spec : Type) where
  client : PyStr
  chainId : Int
  verifyingContract : PyStr
  spec : Spec

/-- What a verification answers: a snapshot, or why there is none and whether
that is for good. -/
structure JobCheck (Spec : Type) where
  snapshot : Option (VerifiedJobSnapshot Spec)
  reason : PyStr
  permanent : Bool

def JobCheck.refused {Spec : Type} (reason : PyStr) (permanent : Bool) : JobCheck Spec :=
  { snapshot := none, reason, permanent }

/-- The last check, that the budget covers the agreed price; nothing where the
price is an infinity, which `int` raises another exception for. -/
def checkBudget (active : Active) (job : Job) (spec : lib.Spec) : Option (JobCheck lib.Spec) :=
  match lib.price spec with
  | .float (.inf _) => none
  | price =>
      match pyInt lib.toPyLib price with
      | none =>
          some (.refused (py "unparseable agreed price " ++ lib.reprOf price) true)
      | some agreed =>
          if job.budget < agreed then
            some (.refused (py "funded budget " ++ intText job.budget ++
              py " is below the agreed price " ++ pyStr lib.toPyLib price) true)
          else
            some
              { snapshot := some
                  { client := job.client
                    chainId := active.chainId
                    verifyingContract := active.commerce
                    spec }
                reason := []
                permanent := false }

/-- The checks of the quote in the description. -/
def checkQuote (active : Active) (now : Int) (job : Job) : Option (JobCheck lib.Spec) :=
  match lib.jobDescription job.description with
  | some (some spec) =>
      match recoverBoundQuoteSignerCompat lib active.chainId active.commerce now
          job.description with
      | .ok (some signer) =>
          if lib.lower signer = lib.lower active.wallet then checkBudget lib active job spec
          else some (.refused (py "quote signature does not match this provider " ++
            py "(or terms were tampered)") true)
      | _ => some (.refused (py "quote signature does not match this provider " ++
          py "(or terms were tampered)") true)
  | _ => some (.refused (py "no signed quote anchored in job description") true)

/-- `verify_signed_job_snapshot`, by what the chain answers and by the time,
which is read once for the job and once for the quote; here both readings are
`now`.  Nothing where it raises. -/
def verifySignedJobSnapshot (active : Active) (now : Int) (read : Except PyStr Job) :
    Option (JobCheck lib.Spec) :=
  match read with
  | .error exc => some (.refused (py "chain read failed: " ++ exc) false)
  | .ok job =>
      if job.status ≠ .funded then
        some (.refused (py "job status " ++ job.status.name ++ py ", expected FUNDED") false)
      else if lib.lower job.provider ≠ lib.lower active.wallet then
        some (.refused (py "job is not assigned to this provider") true)
      else if job.expiredAt ≠ 0 ∧ job.expiredAt ≤ now then
        some (.refused (py "job has expired") true)
      else checkQuote lib active now job

/-! ## What a signer has signed -/

/-- A quote whose signature stands for the letters of its success criteria. -/
structure LegacySigned (lib : QuoteLib) (parsed : Items) (signer : PyStr) : Prop where
  /-- The digest is the one of the rest of the quote, and the signature is of it. -/
  signed : ∃ terms negotiationHash providerSig canonical,
    parsed.lookup (py "terms") = some (.dict terms) ∧
    terms.lookup (py "success_criteria") = some (.str contextRequiredCriterion) ∧
    parsed.lookup (py "negotiation_hash") = some (.str negotiationHash) ∧
    parsed.lookup (py "provider_sig") = some (.str providerSig) ∧
    (legacyContent parsed terms).dumps = some canonical ∧
    lib.lower (prefixed (lib.keccak canonical)) = lib.lower negotiationHash ∧
    lib.recoverMessage negotiationHash providerSig = .ok signer

/-- The SDK recovers no signer. -/
def Unrecovered (description : PyStr) : Prop :=
  lib.recoverQuoteSigner description = .ok none ∨
    lib.recoverQuoteSigner description = .error .typeOrValueError

variable {lib} {description signer : PyStr} {parsed : Items}

/-- The signer of a legacy quote. -/
theorem legacyQuoteSigner_iff (hloads : loads lib.number description = some (.dict parsed)) :
    legacyQuoteSigner lib description = .ok (some signer) ↔ LegacySigned lib parsed signer := by
  constructor
  · intro h
    rw [legacyQuoteSigner, hloads] at h
    simp only at h
    split at h
    · next terms negotiationHash providerSig hterms hhash hsig =>
        split at h
        · next criteria canonical hcriteria hcanonical =>
            split at h
            · next hchecks =>
                obtain ⟨rfl, hdigest⟩ := hchecks
                split at h
                · next recovered hrecover =>
                    cases h
                    exact ⟨terms, negotiationHash, providerSig, canonical, hterms, hcriteria, hhash,
                      hsig, hcanonical, hdigest, hrecover⟩
                · cases h
                · cases h
            · cases h
        · cases h
    · cases h
  · rintro ⟨terms, negotiationHash, providerSig, canonical, hterms, hcriteria, hhash, hsig,
      hcanonical, hdigest, hrecover⟩
    simp [legacyQuoteSigner, hloads, hterms, hhash, hsig, hcriteria, hcanonical, hdigest, hrecover]

/-- Whom the recovery gives, and in which of its two ways. -/
theorem recoverWithMode_iff {legacy : Bool} :
    recoverQuoteSignerCompatWithMode lib description = .ok (some signer, legacy) ↔
      lib.recoverQuoteSigner description = .ok (some signer) ∧ legacy = false ∨
      Unrecovered lib description ∧ legacyQuoteSigner lib description = .ok (some signer) ∧
        legacy = true := by
  have hlegacy : (legacyQuoteSigner lib description).map (fun signer => (signer, true)) =
      .ok (some signer, legacy) ↔
      legacyQuoteSigner lib description = .ok (some signer) ∧ legacy = true := by
    cases legacyQuoteSigner lib description <;> simp [Except.map, eq_comm]
  unfold recoverQuoteSignerCompatWithMode Unrecovered
  cases lib.recoverQuoteSigner description with
  | error raised => cases raised <;> simp [hlegacy]
  | ok recovered => cases recovered <;> simp [hlegacy, eq_comm]

/-- A signer of a quote for the chain and the contract. -/
theorem recoverBound_iff {chainId : Int} {contract : PyStr} {now : Int} :
    recoverBoundQuoteSignerCompat lib chainId contract now description = .ok (some signer) ↔
      ∃ parsed, loads lib.number description = some (.dict parsed) ∧
        isBound lib chainId contract parsed = true ∧
        (lib.recoverQuoteSigner description = .ok (some signer) ∨
          Unrecovered lib description ∧ LegacySigned lib parsed signer ∧
            isUnexpired now parsed = true) := by
  constructor
  · intro h
    unfold recoverBoundQuoteSignerCompat at h
    split at h
    · next parsed hloads =>
        split at h
        · next hbound =>
            refine ⟨parsed, hloads, hbound, ?_⟩
            cases hmode : recoverQuoteSignerCompatWithMode lib description with
            | error raised => rw [hmode] at h; cases h
            | ok recovered =>
                obtain ⟨found, legacy⟩ := recovered
                rw [hmode, Except.map] at h
                obtain ⟨hexpiry, rfl⟩ := Option.ite_none_left_eq_some.1 (Except.ok.inj h)
                obtain ⟨hsdk, -⟩ | ⟨hnone, hlegacy, rfl⟩ := recoverWithMode_iff.1 hmode
                · exact Or.inl hsdk
                · refine Or.inr ⟨hnone, (legacyQuoteSigner_iff hloads).1 hlegacy, ?_⟩
                  simpa using hexpiry
        · cases h
    · cases h
  · rintro ⟨parsed, hloads, hbound, hsdk | ⟨hnone, hlegacy, hunexpired⟩⟩
    · have hmode := recoverWithMode_iff.2 (Or.inl ⟨hsdk, rfl⟩)
      simp [recoverBoundQuoteSignerCompat, hloads, hbound, hmode, Except.map]
    · have hmode := recoverWithMode_iff.2
        (Or.inr ⟨hnone, (legacyQuoteSigner_iff hloads).2 hlegacy, rfl⟩)
      simp [recoverBoundQuoteSignerCompat, hloads, hbound, hmode, hunexpired, Except.map]

/-- A quote that has not expired had not before. -/
theorem isUnexpired_earlier {now later : Int} (hlater : now ≤ later)
    (h : isUnexpired later parsed = true) : isUnexpired now parsed = true := by
  unfold isUnexpired at h ⊢
  split at h
  · exact decide_eq_true (lt_of_le_of_lt hlater (of_decide_eq_true h))
  · cases h

/-- A signer that counts later counts now. -/
theorem recoverBound_earlier {chainId : Int} {contract : PyStr} {now later : Int}
    (hlater : now ≤ later)
    (h : recoverBoundQuoteSignerCompat lib chainId contract later description =
      .ok (some signer)) :
    recoverBoundQuoteSignerCompat lib chainId contract now description = .ok (some signer) := by
  obtain ⟨parsed, hloads, hbound, hsigner⟩ := recoverBound_iff.1 h
  refine recoverBound_iff.2 ⟨parsed, hloads, hbound, hsigner.imp_right ?_⟩
  exact fun ⟨hnone, hlegacy, hunexpired⟩ =>
    ⟨hnone, hlegacy, isUnexpired_earlier hlater hunexpired⟩

/-! ## What is verified -/

/-- The price an SDK object names, as `int` reads it. -/
def agreedPrice (lib : QuoteLib) (spec : lib.Spec) : Option Int :=
  match lib.price spec with
  | .float (.inf _) => none
  | price => pyInt lib.toPyLib price

/-- A job this provider has agreed to and that is paid for. -/
structure Agreed (lib : QuoteLib) (active : Active) (now : Int) (job : Job) (spec : lib.Spec) :
    Prop where
  funded : job.status = .funded
  provider : lib.lower job.provider = lib.lower active.wallet
  unexpired : job.expiredAt = 0 ∨ now < job.expiredAt
  anchored : lib.jobDescription job.description = some (some spec)
  signer : ∃ signer, recoverBoundQuoteSignerCompat lib active.chainId active.commerce now
      job.description = .ok (some signer) ∧ lib.lower signer = lib.lower active.wallet
  paid : ∃ price, agreedPrice lib spec = some price ∧ price ≤ job.budget

/-- The snapshot of a job that is agreed. -/
def snapshotOf {Spec : Type} (active : Active) (job : Job) (spec : Spec) :
    VerifiedJobSnapshot Spec :=
  { client := job.client
    chainId := active.chainId
    verifyingContract := active.commerce
    spec }

section Verification

variable {active : Active} {now later : Int} {job job' : Job}

/-- The budget check passes a snapshot whose price it covers. -/
theorem checkBudget_iff {spec : lib.Spec} {check : JobCheck lib.Spec}
    {snapshot : VerifiedJobSnapshot lib.Spec}
    (h : checkBudget lib active job spec = some check) :
    check.snapshot = some snapshot ↔
      snapshot = snapshotOf active job spec ∧
        ∃ price, agreedPrice lib spec = some price ∧ price ≤ job.budget := by
  unfold checkBudget at h
  split at h
  · cases h
  · next price hfinite =>
      have hagreed : agreedPrice lib spec = pyInt lib.toPyLib (lib.price spec) := by
        unfold agreedPrice
        split
        · next sign hprice => exact absurd hprice (hfinite sign)
        · rfl
      rw [hagreed]
      split at h
      · next hnone =>
          cases h
          refine iff_of_false nofun fun ⟨_, price, hprice, _⟩ => ?_
          rw [hnone] at hprice
          cases hprice
      · next agreed hprice =>
          rw [hprice]
          split at h
          · next hlow =>
              cases h
              refine iff_of_false nofun fun ⟨_, price, heq, hpaid⟩ => ?_
              rw [Option.some.inj heq] at hlow
              exact absurd hpaid (not_le.2 hlow)
          · next hpaid =>
              cases h
              simp [snapshotOf, eq_comm, not_lt.1 hpaid]

/-- The quote check passes a snapshot whose quote it bears out. -/
theorem checkQuote_iff {check : JobCheck lib.Spec} {snapshot : VerifiedJobSnapshot lib.Spec}
    (h : checkQuote lib active now job = some check) :
    check.snapshot = some snapshot ↔
      ∃ spec, snapshot = snapshotOf active job spec ∧
        lib.jobDescription job.description = some (some spec) ∧
        (∃ signer, recoverBoundQuoteSignerCompat lib active.chainId active.commerce now
            job.description = .ok (some signer) ∧ lib.lower signer = lib.lower active.wallet) ∧
        ∃ price, agreedPrice lib spec = some price ∧ price ≤ job.budget := by
  unfold checkQuote at h
  split at h
  · next spec hspec =>
      split at h
      · next signer hsigner =>
          split at h
          · next hown =>
              rw [checkBudget_iff h]
              constructor
              · rintro ⟨hsnapshot, hpaid⟩
                exact ⟨spec, hsnapshot, hspec, ⟨signer, hsigner, hown⟩, hpaid⟩
              · rintro ⟨found, hsnapshot, hfound, -, hpaid⟩
                rw [hspec] at hfound
                cases hfound
                exact ⟨hsnapshot, hpaid⟩
          · next hother =>
              cases h
              refine iff_of_false nofun ?_
              rintro ⟨-, -, -, ⟨found, hfound, hown⟩, -⟩
              rw [hsigner] at hfound
              cases hfound
              exact hother hown
      · next hnone =>
          cases h
          refine iff_of_false nofun ?_
          rintro ⟨-, -, -, ⟨found, hfound, -⟩, -⟩
          exact hnone found hfound
  · next hnone =>
      cases h
      refine iff_of_false nofun ?_
      rintro ⟨spec, -, hspec, -⟩
      exact hnone spec hspec

/-- There is a snapshot exactly of a job that is agreed. -/
theorem verify_iff {check : JobCheck lib.Spec} {snapshot : VerifiedJobSnapshot lib.Spec}
    (h : verifySignedJobSnapshot lib active now (.ok job) = some check) :
    check.snapshot = some snapshot ↔
      ∃ spec, snapshot = snapshotOf active job spec ∧ Agreed lib active now job spec := by
  unfold verifySignedJobSnapshot at h
  simp only at h
  split at h
  · next hstatus =>
      cases h
      exact iff_of_false nofun fun ⟨_, _, hagreed⟩ => hstatus hagreed.funded
  · next hstatus =>
      split at h
      · next hprovider =>
          cases h
          exact iff_of_false nofun fun ⟨_, _, hagreed⟩ => hprovider hagreed.provider
      · next hprovider =>
          split at h
          · next hexpired =>
              cases h
              refine iff_of_false nofun fun ⟨_, _, hagreed⟩ => ?_
              exact hagreed.unexpired.elim hexpired.1 (not_lt.2 hexpired.2)
          · next hexpired =>
              have hunexpired : job.expiredAt = 0 ∨ now < job.expiredAt := by omega
              rw [checkQuote_iff h]
              constructor
              · rintro ⟨spec, hsnapshot, hspec, hsigner, hpaid⟩
                exact ⟨spec, hsnapshot, not_not.1 hstatus, not_not.1 hprovider, hunexpired, hspec,
                  hsigner, hpaid⟩
              · rintro ⟨spec, hsnapshot, hagreed⟩
                exact ⟨spec, hsnapshot, hagreed.anchored, hagreed.signer, hagreed.paid⟩

/-- A verification answers unless a price is an infinity. -/
theorem verify_answers (hprice : ∀ spec sign, lib.price spec ≠ .float (.inf sign))
    (read : Except PyStr Job) :
    ∃ check, verifySignedJobSnapshot lib active now read = some check := by
  have hbudget : ∀ job spec, ∃ check, checkBudget lib active job spec = some check := by
    intro job spec
    unfold checkBudget
    split
    · next sign hinf => exact absurd hinf (hprice spec sign)
    · split
      · exact ⟨_, rfl⟩
      · split <;> exact ⟨_, rfl⟩
  unfold verifySignedJobSnapshot checkQuote
  split
  · exact ⟨_, rfl⟩
  · split
    · exact ⟨_, rfl⟩
    · split
      · exact ⟨_, rfl⟩
      · split
        · exact ⟨_, rfl⟩
        · split
          · split
            · split
              · exact hbudget _ _
              · exact ⟨_, rfl⟩
            · exact ⟨_, rfl⟩
          · exact ⟨_, rfl⟩

/-- A refusal for good is one of a funded job that is not agreed. -/
theorem permanent_refusal {check : JobCheck lib.Spec}
    (h : verifySignedJobSnapshot lib active now (.ok job) = some check)
    (hpermanent : check.permanent = true) :
    job.status = .funded ∧ check.snapshot = none := by
  have hbudget : ∀ {spec : lib.Spec}, checkBudget lib active job spec = some check →
      check.snapshot = none := by
    intro spec hcheck
    unfold checkBudget at hcheck
    split at hcheck
    · cases hcheck
    · split at hcheck
      · cases hcheck; rfl
      · split at hcheck <;> cases hcheck
        · rfl
        · cases hpermanent
  unfold verifySignedJobSnapshot at h
  simp only at h
  split at h
  · cases h
    cases hpermanent
  · next hstatus =>
      refine ⟨not_not.1 hstatus, ?_⟩
      split at h
      · cases h; rfl
      · split at h
        · cases h; rfl
        · unfold checkQuote at h
          split at h
          · split at h
            · split at h
              · exact hbudget h
              · cases h; rfl
            · cases h; rfl
          · cases h; rfl

/-- What the chain never changes of a funded job. -/
structure Job.SameTerms (job job' : Job) : Prop where
  provider : job'.provider = job.provider
  expiredAt : job'.expiredAt = job.expiredAt
  budget : job'.budget = job.budget
  description : job'.description = job.description

/-- A funded job that is agreed later was agreed before. -/
theorem Agreed.earlier {spec : lib.Spec} (h : Agreed lib active later job' spec)
    (hlater : now ≤ later) (hterms : job.SameTerms job') (hfunded : job.status = .funded) :
    Agreed lib active now job spec where
  funded := hfunded
  provider := hterms.provider ▸ h.provider
  unexpired := (hterms.expiredAt ▸ h.unexpired).imp_right (lt_of_le_of_lt hlater)
  anchored := hterms.description ▸ h.anchored
  signer := by
    obtain ⟨signer, hsigner, hown⟩ := h.signer
    rw [hterms.description] at hsigner
    exact ⟨signer, recoverBound_earlier hlater hsigner, hown⟩
  paid := by
    obtain ⟨price, hprice, hpaid⟩ := h.paid
    rw [hterms.budget] at hpaid
    exact ⟨price, hprice, hpaid⟩

/-- A job that has been refused for good is never verified again: whatever the
chain answers for it later, with its terms as they were, there is no
snapshot. -/
theorem rejected_for_good (lib : QuoteLib) (active : Active) {now later : Int}
    (hlater : now ≤ later) {job : Job} {check : JobCheck lib.Spec}
    (hcheck : verifySignedJobSnapshot lib active now (.ok job) = some check)
    (hpermanent : check.permanent = true) (read : Except PyStr Job)
    (hread : ∀ job', read = .ok job' → job.SameTerms job') {again : JobCheck lib.Spec}
    (hagain : verifySignedJobSnapshot lib active later read = some again) :
    again.snapshot = none := by
  obtain ⟨hfunded, hnone⟩ := permanent_refusal hcheck hpermanent
  cases read with
  | error exc => cases hagain; rfl
  | ok job' =>
      by_contra hsome
      obtain ⟨snapshot, hsnapshot⟩ := Option.ne_none_iff_exists'.1 hsome
      obtain ⟨spec, -, hagreed⟩ := (verify_iff hagain).1 hsnapshot
      have hbefore := hagreed.earlier hlater (hread job' rfl) hfunded
      have hverified := (verify_iff hcheck).2 ⟨spec, rfl, hbefore⟩
      rw [hnone] at hverified
      cases hverified

end Verification

/-! ## A recorded quote -/

/-- A quote of the older form. -/
def recordedQuote : PyStr :=
  py "\x7b\"chain_id\":97,\"currency\":\"0xcE24439F2D9C6a2289F741120FE202248B666666" ++
  py "\",\"negotiated_at\":1800000000,\"negotiation_hash\":\"0xd9e7917e7b6e12cf8368f" ++
  py "f3c73e66b4bd315d27fdfe8f277f328a6076e9c9390\",\"price\":\"1000000\",\"provider" ++
  py "_sig\":\"0x453bf2773cbb166be767e9a7fb05e6f287812558ace13e1ede346c0e9a959d52074" ++
  py "0967d33aeaa703dcc0b30240bf5a0bd9e3caf396fa3083315ce45a117bfec1b\",\"quote_expi" ++
  py "res_at\":1800000900,\"task\":\"Analyze (NVDA)\",\"terms\":\x7b\"deliverables\"" ++
  py ":\"report\",\"quality_standards\":\"\",\"success_criteria\":\"uomp_notify_cont" ++
  py "ext_required_v1\"\x7d,\"verifying_contract\":\"0xa206c0517b6371c6638cd9e4a42cc" ++
  py "9f02a33b0de\",\"version\":1\x7d"

/-- What its digest is of. -/
def recordedContent : PyStr :=
  py "\x7b\"chain_id\":97,\"currency\":\"0xcE24439F2D9C6a2289F741120FE202248B666666" ++
  py "\",\"negotiated_at\":1800000000,\"price\":\"1000000\",\"quote_expires_at\":180" ++
  py "0000900,\"task\":\"Analyze (NVDA)\",\"terms\":\x7b\"deliverables\":\"report\"," ++
  py "\"quality_standards\":\"\",\"success_criteria\":[\"u\",\"o\",\"m\",\"p\",\"_\"" ++
  py ",\"n\",\"o\",\"t\",\"i\",\"f\",\"y\",\"_\",\"c\",\"o\",\"n\",\"t\",\"e\",\"x\"" ++
  py ",\"t\",\"_\",\"r\",\"e\",\"q\",\"u\",\"i\",\"r\",\"e\",\"d\",\"_\",\"v\",\"1\"" ++
  py "]\x7d,\"verifying_contract\":\"0xa206c0517b6371c6638cd9e4a42cc9f02a33b0de\",\"" ++
  py "version\":1\x7d"

def recordedHash : PyStr :=
  py "0xd9e7917e7b6e12cf8368ff3c73e66b4bd315d27fdfe8f277f328a6076e9c9390"

def recordedQuoteSignature : PyStr :=
  py "0x453bf2773cbb166be767e9a7fb05e6f287812558ace13e1ede346c0e9a959d5207" ++
  py "40967d33aeaa703dcc0b30240bf5a0bd9e3caf396fa3083315ce45a117bfec1b"

/-- The one description that is a quote is `quote`, signed by the recorded
address in the older form. -/
def recordedQuotes (quote price : PyStr) : QuoteLib where
  toPyLib := asciiLib
  toCodec := NotifyAuth.recordedCodec
  isAddress s := s.length = 42
  toChecksumAddress := NotifyAuth.recordedEthereum.toChecksumAddress
  keccak text := if text = recordedContent then recordedHash.drop 2 else []
  recoverMessage text signature :=
    if text = recordedHash ∧ signature = recordedQuoteSignature then
      .ok NotifyAuth.recordedAddress
    else .error .typeOrValueError
  recoverQuoteSigner _ := .ok none
  Spec := PyStr
  price := .str
  jobDescription description := some (if description = quote then some price else none)

def recordedActive : Active where
  wallet := NotifyAuth.recordedAddress
  chainId := NotifyAuth.contractsChainId
  commerce := NotifyAuth.contractsCommerce

/-- A job for the quote. -/
def quotedJob : Job where
  client := py "0x0000000000000000000000000000000000000001"
  provider := NotifyAuth.recordedAddress
  status := .funded
  expiredAt := 2000000000
  budget := 1000000
  description := recordedQuote

/-- A job funded after its quote of the older form has expired is refused for
good, and is without a snapshot a minute later. -/
theorem rejected_for_good_expired :
    ∃ check again,
      verifySignedJobSnapshot (recordedQuotes recordedQuote (py "1000000")) recordedActive
          1800000900 (.ok quotedJob) = some check ∧
      check.permanent = true ∧
      verifySignedJobSnapshot (recordedQuotes recordedQuote (py "1000000")) recordedActive
          1800000960 (.ok quotedJob) = some again ∧
      again.snapshot = none := by
  have hpermanent : (verifySignedJobSnapshot (recordedQuotes recordedQuote (py "1000000"))
      recordedActive 1800000900 (.ok quotedJob)).map (·.permanent) = some true := by
    decide +kernel
  obtain ⟨check, hcheck, hgood⟩ := Option.map_eq_some_iff.1 hpermanent
  obtain ⟨again, hagain⟩ := @verify_answers (recordedQuotes recordedQuote (py "1000000"))
    recordedActive 1800000960 nofun (.ok quotedJob)
  have hlater : (1800000900 : Int) ≤ 1800000960 := by decide
  refine ⟨check, again, hcheck, hgood, hagain, ?_⟩
  refine rejected_for_good _ recordedActive hlater hcheck hgood _ ?_ hagain
  intro job' hjob
  cases hjob
  exact ⟨rfl, rfl, rfl, rfl⟩

/-- Before it has expired the same quote is verified. -/
example : (verifySignedJobSnapshot (recordedQuotes recordedQuote (py "1000000")) recordedActive
    1800000899 (.ok quotedJob)).map (·.reason) = some [] := by
  decide +kernel

end Signing
