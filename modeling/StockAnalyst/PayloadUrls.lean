import StockAnalyst.GatewayOrigin

/-!
# Payload URLs

The storage provider of a gateway origin and the URLs under it.  What `upload`
returns is taken by `_validate_payload_url` and left as it is.
-/

namespace NotifySecurity

open Python S3Storage

/-- A `UOMPGatewayStorageProvider`. -/
structure UompGatewayStorageProvider where
  base : PyStr
  origin : SplitResult
  token : PyStr

/-- The fields of a provider of a validated origin. -/
def providerOf (net : NetLib) (token : PyStr) (validated : ValidatedGatewayOrigin) :
    Option UompGatewayStorageProvider :=
  (urlsplit net validated.origin).map fun origin => ⟨validated.origin, origin, token⟩

/-- `UOMPGatewayStorageProvider.__init__`; nothing where it raises. -/
def storageProvider (net : NetLib) (tables : IpTables) (env : GatewayEnv)
    (resolve : PyStr → Nat → Option (List (Option HostValue))) (gatewayUrl : Json)
    (token : PyStr) : Option UompGatewayStorageProvider :=
  (validateGatewayOrigin net tables env resolve .none gatewayUrl).bind (providerOf net token)

/-- `pay_[0-9a-f]{32}\Z`. -/
def isPayloadId (id : PyStr) : Bool :=
  id.length = 36 && PyStr.startsWith id (py "pay_") && (id.drop 4).all isHexDigit

/-- `/v1/payload/(pay_[0-9a-f]{32})\Z`. -/
def isPayloadPath (path : PyStr) : Bool :=
  PyStr.startsWith path (py "/v1/payload/") && isPayloadId (path.drop 12)

namespace UompGatewayStorageProvider

variable (provider : UompGatewayStorageProvider)

/-- What `upload` returns when the gateway answers with `result`; nothing where
it raises. -/
def upload (result : Json) : Option PyStr :=
  match result with
  | .obj kvs =>
      match dictGet kvs (py "payload_id") with
      | some (.str payloadId) =>
          if isPayloadId payloadId then some (provider.base ++ py "/v1/payload/" ++ payloadId)
          else none
      | _ => none
  | _ => none

/-- `_validate_payload_url`; nothing where it raises. -/
def validatePayloadUrl (net : NetLib) : Json → Option PyStr
  | .str url => do
      guard (isPlainUrl url)
      let parsed ← urlsplit net url
      let port ← parsed.port
      let scheme := parsed.scheme.map asciiLower
      let originPort ← provider.origin.port
      let expectedPort := originPort.getD (if provider.origin.scheme = py "https" then 443 else 80)
      let actualPort := port.getD (if scheme = py "https" then 443 else 80)
      guard (scheme = provider.origin.scheme && (parsed.hostname net.lib).isSome
        && (parsed.hostname net.lib).map net.lib.lower = provider.origin.hostname net.lib
        && actualPort = expectedPort && parsed.username.isNone && parsed.password.isNone
        && parsed.query.isEmpty && parsed.fragment.isEmpty && isPayloadPath parsed.path)
      pure (provider.base ++ parsed.path)
  | _ => none

end UompGatewayStorageProvider

section payloads

variable {net : NetLib} {tables : IpTables} {env : GatewayEnv}
  {resolve : PyStr → Nat → Option (List (Option HostValue))} {allow : AllowPrivate} {url : Json}
  {validated : ValidatedGatewayOrigin} {port : Option Nat}

/-- The path of a payload is a path of the gateway. -/
theorem payloadPath_of {id : PyStr} (h : isPayloadId id = true) :
    isPayloadPath (py "/v1/payload/" ++ id) = true ∧ Delimited (py "/v1/payload/" ++ id) ∧
      ∀ c ∈ py "/v1/payload/" ++ id, 32 < c ∧ c < 127 ∧ c ≠ 63 ∧ c ≠ 35 ∧ c ≠ 92 := by
  have hdrop : (py "/v1/payload/" ++ id).drop 12 = id := @List.drop_left _ (py "/v1/payload/") _
  refine ⟨?_, ?_, ?_⟩
  · rw [isPayloadPath, hdrop, h, Bool.and_true]
    exact List.isPrefixOf_iff_prefix.2 (List.prefix_append _ _)
  · intro c hc
    obtain rfl : c = 47 := Option.some.inj hc.symm
    decide
  · simp only [isPayloadId, Bool.and_eq_true, List.all_eq_true] at h
    obtain ⟨⟨-, hstart⟩, hdigits⟩ := h
    obtain ⟨digits, rfl⟩ := List.isPrefixOf_iff_prefix.1 hstart
    have hrest : (py "pay_" ++ digits).drop 4 = digits := @List.drop_left _ (py "pay_") _
    rw [hrest] at hdigits
    intro c hc
    rw [← List.append_assoc, List.mem_append] at hc
    obtain hc | hc := hc
    · revert c hc
      decide
    · have hdigit := hdigits c hc
      simp only [isHexDigit, Bool.or_eq_true, Bool.and_eq_true, decide_eq_true_eq] at hdigit
      omega

/-- A host that can be rendered is in lower case. -/
theorem Renderable.lowered {hostname : PyStr} (h : Renderable hostname) :
    net.lib.lower hostname = hostname := by
  rw [net.lib.lower_ascii, h.lower]
  intro c hc
  have := h.chars c hc
  omega

/-- A payload URL under an accepted origin is accepted as it is. -/
theorem OriginParts.validatePayloadUrl (h : OriginParts validated port) (htakes : TakesHosts net)
    {origin : SplitResult} {token id : PyStr} (horigin : urlsplit net validated.origin = some origin)
    (hid : isPayloadId id = true) :
    UompGatewayStorageProvider.validatePayloadUrl ⟨validated.origin, origin, token⟩ net
      (.str (validated.origin ++ (py "/v1/payload/" ++ id))) =
        some (validated.origin ++ (py "/v1/payload/" ++ id)) := by
  obtain ⟨hpath, hstart, hchars⟩ := payloadPath_of hid
  have hporttext := isPortText_render (expectedPort validated.scheme) port
  obtain rfl : origin = originSplit validated port := by
    rw [h.self htakes] at horigin
    exact (Option.some.inj horigin).symm
  let netloc := renderHost validated.hostname ++ renderPort (expectedPort validated.scheme) port
  let parsed : SplitResult := ⟨validated.scheme, netloc, py "/v1/payload/" ++ id, [], []⟩
  have hparsed : urlsplit net (validated.origin ++ (py "/v1/payload/" ++ id)) = some parsed :=
    h.split htakes hstart fun c hc => ⟨(hchars c hc).2.2.1, (hchars c hc).2.2.2.1⟩
  have hplain : isPlainUrl (validated.origin ++ (py "/v1/payload/" ++ id)) = true := by
    refine isPlainUrl_iff.2 ⟨?_, ?_⟩
    · intro hnone
      have hempty := (List.append_eq_nil_iff.1 hnone).2
      exact absurd (List.append_eq_nil_iff.1 hempty).1 (by decide)
    · intro c hc
      obtain hc | hc := List.mem_append.1 hc
      · exact h.chars c hc
      · exact hchars c hc
  have hport : parsed.port = some (portRead (expectedPort validated.scheme) port) :=
    port_rendered h.host h.small rfl
  have hbasePort : (originSplit validated port).port =
      some (portRead (expectedPort validated.scheme) port) :=
    port_rendered h.host h.small rfl
  have hhost : parsed.hostname net.lib = some validated.hostname :=
    hostname_rendered h.host hporttext rfl
  have hbaseHost : (originSplit validated port).hostname net.lib = some validated.hostname :=
    hostname_rendered h.host hporttext rfl
  obtain ⟨husername, hpassword⟩ : parsed.username = none ∧ parsed.password = none :=
    userinfo_rendered h.host hporttext rfl
  refine guard_bind_iff.2 ⟨hplain, ?_⟩
  refine Option.bind_eq_some_iff.2 ⟨parsed, hparsed, ?_⟩
  refine Option.bind_eq_some_iff.2 ⟨_, hport, ?_⟩
  refine Option.bind_eq_some_iff.2 ⟨_, hbasePort, guard_bind_iff.2 ⟨?_, rfl⟩⟩
  rw [hhost, hbaseHost, husername, hpassword, Option.map_some, h.host.lowered, hpath]
  simp only [parsed, originSplit, h.lower]
  simp
  rfl

/-- **Gateway origins are canonical.**  The origin of an accepted URL is
accepted as it is, with the same host, port and addresses, and every payload
URL a provider of it hands out is one it accepts and leaves as it is. -/
theorem gatewayOrigin_canonical (htakes : TakesHosts net)
    (h : validateGatewayOrigin net tables env resolve allow url = some validated) :
    validateGatewayOrigin net tables env resolve allow (.str validated.origin) = some validated ∧
      ∀ token, ∃ provider, providerOf net token validated = some provider ∧
        (allow = .none → storageProvider net tables env resolve url token = some provider) ∧
        ∀ result payloadUrl, provider.upload result = some payloadUrl →
          provider.validatePayloadUrl net (.str payloadUrl) = some payloadUrl := by
  cases url with
  | str url =>
      refine ⟨validateGatewayOrigin_again htakes h, fun token => ?_⟩
      obtain ⟨port, hparts, -⟩ := originParts_of h
      have horigin := hparts.self htakes
      have hprovider : providerOf net token validated =
          some ⟨validated.origin, originSplit validated port, token⟩ := by
        rw [providerOf, horigin]
        rfl
      refine ⟨_, hprovider, ?_, ?_⟩
      · intro hallow
        subst hallow
        rw [storageProvider, h, Option.bind_some, hprovider]
      · intro result payloadUrl hupload
        unfold UompGatewayStorageProvider.upload at hupload
        split at hupload
        · split at hupload
          · split at hupload
            · rename_i hid
              obtain rfl := Option.some.inj hupload
              rw [List.append_assoc]
              exact hparts.validatePayloadUrl htakes horigin hid
            · cases hupload
          · cases hupload
        · cases hupload
  | _ => cases h

end payloads

/-- The network locations `urlsplit` takes: those without brackets, and those
whose brackets stand around an IPv6 address. -/
def checkHosts (netloc : PyStr) : Bool :=
  let bracketed := before 93 (after 91 netloc)
  if netloc.contains 91 != netloc.contains 93 then false
  else if netloc.contains 91 then (IPv6Address.ofStr bracketed).isSome
  else true

/-- Python on the URLs of the samples. -/
def hostsNet : NetLib where
  lib := asciiLib
  compressed s := (IpAddress.ofStr s).map IpAddress.str
  checkNetloc := checkHosts

theorem takesHosts_hostsNet : TakesHosts hostsNet := by
  refine ⟨?_, ?_⟩
  · intro netloc h
    have hopen : netloc.contains 91 = false := by
      rw [Bool.eq_false_iff, ne_eq, List.contains_iff_mem]
      exact fun hmem => (h 91 hmem).2.1 rfl
    have hclose : netloc.contains 93 = false := by
      rw [Bool.eq_false_iff, ne_eq, List.contains_iff_mem]
      exact fun hmem => (h 93 hmem).2.2 rfl
    simp only [hostsNet, checkHosts, hopen, hclose]
    rfl
  · intro host port hv6 _ hclose _ _
    have hafter : after 91 (91 :: host ++ 93 :: port) = host ++ 93 :: port := rfl
    have hopenMem : (91 :: host ++ 93 :: port).contains 91 = true := by simp
    have hcloseMem : (91 :: host ++ 93 :: port).contains 93 = true := by simp
    simp only [hostsNet, checkHosts, hopenMem, hcloseMem, hafter, before_append hclose, hv6]
    rfl

/-- A payload id of the gateway. -/
def samplePayloadId : PyStr := py "pay_0123456789abcdef0123456789abcdef"

/-- An address in brackets with a port of its own, and a payload under it. -/
theorem gatewayOrigin_canonical_sample : ∃ validated,
    validateGatewayOrigin hostsNet sampleTables ⟨py "on", none⟩
      (fun _ _ => some [some (.str (py "::1"))]) .none (.str (py "HTTP://[0:0::1]:08080/")) =
        some validated ∧
    validated.origin = py "http://[::1]:8080" ∧
    validateGatewayOrigin hostsNet sampleTables ⟨py "on", none⟩
      (fun _ _ => some [some (.str (py "::1"))]) .none (.str validated.origin) = some validated ∧
    ∃ provider, providerOf hostsNet (py "token") validated = some provider ∧
      provider.upload (.obj [(py "payload_id", .str samplePayloadId)]) =
        some (py "http://[::1]:8080/v1/payload/" ++ samplePayloadId) ∧
      provider.validatePayloadUrl hostsNet
          (.str (py "http://[::1]:8080/v1/payload/" ++ samplePayloadId)) =
        some (py "http://[::1]:8080/v1/payload/" ++ samplePayloadId) := by
  have hrun : validateGatewayOrigin hostsNet sampleTables ⟨py "on", none⟩
      (fun _ _ => some [some (.str (py "::1"))]) .none (.str (py "HTTP://[0:0::1]:08080/")) =
      some ⟨py "http://[::1]:8080", py "http", py "::1", 8080, [py "::1"]⟩ := by
    decide +kernel
  obtain ⟨hagain, hproviders⟩ := gatewayOrigin_canonical takesHosts_hostsNet hrun
  obtain ⟨provider, hprovider, -, hpayloads⟩ := hproviders (py "token")
  have hbase : provider.base = py "http://[::1]:8080" := by
    obtain ⟨origin, -, rfl⟩ := Option.map_eq_some_iff.1 hprovider
    rfl
  have hupload : provider.upload (.obj [(py "payload_id", .str samplePayloadId)]) =
      some (py "http://[::1]:8080/v1/payload/" ++ samplePayloadId) := by
    have hid : isPayloadId samplePayloadId = true := by decide
    simp [UompGatewayStorageProvider.upload, dictGet, hid, hbase]
    rfl
  exact ⟨_, hrun, rfl, hagain, provider, hprovider, hupload, hpayloads _ _ hupload⟩

end NotifySecurity
