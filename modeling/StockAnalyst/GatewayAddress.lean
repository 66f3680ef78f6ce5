import StockAnalyst.IpAddress

/-!
# Public gateway addresses

`_is_public_gateway_address` and `_validate_gateway_origin`.  An accepted
address is global and in no denied network, and so is every IPv4 address that
is written inside it.
-/

namespace NotifySecurity

open Python

/-! ## The tables of `ipaddress` -/

structure IpTables where
  isGlobal : IpAddress → Bool
  isPrivate : IpAddress → Bool
  isLinkLocal : IpAddress → Bool
  isMulticast : IpAddress → Bool
  isReserved : IpAddress → Bool
  isSiteLocal : IPv6Address → Bool
  isLoopback : IpAddress → Bool
  isUnspecified : IpAddress → Bool
  loopback_one : ∀ address : IPv6Address, address.ip = 1 → isLoopback (.v6 address) = true
  unspecified_zero : ∀ address : IPv6Address, address.ip = 0 → isUnspecified (.v6 address) = true

/-- `_EXPLICITLY_DENIED_GATEWAY_NETWORKS`: 192.0.0.0/24, 64:ff9b:1::/48 and
2002::/16. -/
def deniedGatewayNetworks : List IpNetwork :=
  [⟨4, 0xC0000000, 24⟩, ⟨6, 0x64FF9B0001 <<< 80, 48⟩, ⟨6, 0x2002 <<< 112, 16⟩]

/-- 64:ff9b::/96. -/
def nat64WellKnownPrefix : IpNetwork := ⟨6, 0x64FF9B <<< 96, 96⟩

/-- ::/96. -/
def ipv4CompatiblePrefix : IpNetwork := ⟨6, 0, 96⟩

/-- ::ffff:0:0:0/96. -/
def ipv4TranslatablePrefix : IpNetwork := ⟨6, 0xFFFF <<< 48, 96⟩

example : [py "192.0.0.0", py "64:ff9b:1::", py "2002::"].map
    (fun s => (IpAddress.ofStr s).map fun a => (a.version, a.ip)) =
      deniedGatewayNetworks.map fun net => some (net.version, net.networkAddress) := by
  decide +kernel

/-! ## The check -/

/-- `ip_address("::")` and `ip_address("::1")`. -/
def unspecifiedOrLoopback (address : IPv6Address) : Bool :=
  (address.ip = 0 || address.ip = 1) && address.scopeId.isNone

/-- `ip_address(int(normalized) & 0xFFFFFFFF)`. -/
def lowAddress (address : IPv6Address) : List IpAddress :=
  (IpAddress.ofInt ((address.ip &&& 0xFFFFFFFF : Nat) : Int)).toList

/-- `embedded_ipv4`. -/
def embeddedIpv4 : IpAddress → List IpAddress
  | .v4 _ => []
  | .v6 address =>
      address.ipv4Mapped.toList.map .v4 ++
        (if nat64WellKnownPrefix.contains (.v6 address) then lowAddress address else []) ++
        (if ipv4CompatiblePrefix.contains (.v6 address) && !unspecifiedOrLoopback address then
          lowAddress address else []) ++
        (if ipv4TranslatablePrefix.contains (.v6 address) then lowAddress address else []) ++
        (address.teredo.getD []).map .v4

/-- The low bits of an IPv6 address are an IPv4 address. -/
theorem lowAddress_eq (address : IPv6Address) :
    lowAddress address = [.v4 ⟨address.ip % 2 ^ 32, Nat.mod_lt _ (by decide)⟩] := by
  unfold lowAddress IpAddress.ofInt
  rw [if_neg (by omega), Int.toNat_natCast, IPv4Address.ofInt_low32]
  rfl

/-- Only IPv4 addresses are embedded. -/
theorem version_embeddedIpv4 {address value : IpAddress} (h : value ∈ embeddedIpv4 address) :
    value.version = 4 ∧ address.version = 6 := by
  cases address with
  | v4 address => cases h
  | v6 address =>
      refine ⟨?_, rfl⟩
      have hlow : ∀ {c : Prop} [Decidable c], value ∈ (if c then lowAddress address else []) →
          value.version = 4 := by
        intro c _ hmem
        split at hmem
        · rw [lowAddress_eq, List.mem_singleton] at hmem
          rw [hmem]
          rfl
        · cases hmem
      have hv4 : ∀ {values : List IPv4Address}, value ∈ values.map IpAddress.v4 →
          value.version = 4 := by
        intro values hmem
        obtain ⟨v, -, rfl⟩ := List.mem_map.1 hmem
        rfl
      simp only [embeddedIpv4, List.mem_append] at h
      obtain (((h | h) | h) | h) | h := h
      · exact hv4 h
      · exact hlow h
      · exact hlow h
      · exact hlow h
      · exact hv4 h

section check

variable (tables : IpTables)

/-- What is asked of the address object itself. -/
def isPublicObject (address : IpAddress) : Bool :=
  tables.isGlobal address && !tables.isLoopback address && !tables.isPrivate address
    && !tables.isLinkLocal address && !tables.isMulticast address
    && !tables.isUnspecified address && !tables.isReserved address
    && !(match address with
      | .v4 _ => false
      | .v6 address => tables.isSiteLocal address)

/-- `_is_public_gateway_address`. -/
def isPublicGatewayAddress (address : IpAddress) : Bool :=
  match _h : IpAddress.ofStr address.str with
  | none => false
  | some normalized =>
      if deniedGatewayNetworks.any (·.contains normalized) then false
      else if (embeddedIpv4 normalized).attach.any fun value =>
          !isPublicGatewayAddress value.1 then false
      else isPublicObject tables address
termination_by address.version
decreasing_by
  -- an embedded address is IPv4, and only an IPv6 address embeds one
  obtain rfl := Option.some.inj (_h.symm.trans address.ofStr_str)
  obtain ⟨hvalue, haddress⟩ := version_embeddedIpv4 value.2
  omega

variable {tables}

/-- An address is public where no network denies it and its embedded ones are
public. -/
theorem isPublicGatewayAddress_iff {address : IpAddress} :
    isPublicGatewayAddress tables address = true ↔
      (∀ network ∈ deniedGatewayNetworks, network.contains address = false) ∧
        (∀ value ∈ embeddedIpv4 address, isPublicGatewayAddress tables value = true) ∧
        isPublicObject tables address = true := by
  rw [isPublicGatewayAddress]
  split
  · rename_i hnone
    rw [IpAddress.ofStr_str] at hnone
    cases hnone
  · rename_i normalized hsome
    obtain rfl := Option.some.inj (hsome.symm.trans address.ofStr_str)
    by_cases hdenied : deniedGatewayNetworks.any (·.contains normalized) = true
    · rw [if_pos hdenied]
      obtain ⟨network, hmem, hin⟩ := List.any_eq_true.1 hdenied
      refine ⟨fun h => absurd h Bool.false_ne_true, fun h => ?_⟩
      rw [h.1 network hmem] at hin
      cases hin
    rw [if_neg hdenied]
    have hfree : ∀ network ∈ deniedGatewayNetworks, network.contains normalized = false := by
      simpa using hdenied
    by_cases hembedded : ((embeddedIpv4 normalized).attach.any fun value =>
        !isPublicGatewayAddress tables value.1) = true
    · rw [if_pos hembedded]
      obtain ⟨value, -, hvalue⟩ := List.any_eq_true.1 hembedded
      refine ⟨fun h => absurd h Bool.false_ne_true, fun h => ?_⟩
      rw [h.2.1 value.1 value.2] at hvalue
      cases hvalue
    rw [if_neg hembedded]
    have hpublic : ∀ value ∈ embeddedIpv4 normalized,
        isPublicGatewayAddress tables value = true := by
      intro value hvalue
      by_contra hnot
      refine hembedded (List.any_eq_true.2 ⟨⟨value, hvalue⟩, List.mem_attach _ _, ?_⟩)
      simpa using hnot
    exact ⟨fun h => ⟨hfree, hpublic, h⟩, fun h => h.2.2⟩

/-- What one call asks of an address, without those inside it. -/
def isClear (tables : IpTables) (address : IpAddress) : Bool :=
  deniedGatewayNetworks.all (fun network => !network.contains address) &&
    isPublicObject tables address

/-- The recursion ends one level down. -/
theorem isPublicGatewayAddress_eq (address : IpAddress) :
    isPublicGatewayAddress tables address =
      (isClear tables address && (embeddedIpv4 address).all (isClear tables)) := by
  have hclear : ∀ value, isClear tables value = true ↔
      (∀ network ∈ deniedGatewayNetworks, network.contains value = false) ∧
        isPublicObject tables value = true := by
    intro value
    simp [isClear]
  have hinner : ∀ value ∈ embeddedIpv4 address,
      (isPublicGatewayAddress tables value = true ↔ isClear tables value = true) := by
    intro value hvalue
    have hnone : embeddedIpv4 value = [] := by
      obtain ⟨hversion, -⟩ := version_embeddedIpv4 hvalue
      cases value with
      | v4 a => rfl
      | v6 a => cases hversion
    rw [isPublicGatewayAddress_iff, hclear, hnone]
    simp
  rw [Bool.eq_iff_iff, isPublicGatewayAddress_iff, Bool.and_eq_true, hclear, List.all_eq_true]
  constructor
  · intro h
    obtain ⟨hallowed, hembedded, hobject⟩ := h
    exact ⟨⟨hallowed, hobject⟩, fun value hvalue => (hinner value hvalue).1 (hembedded value hvalue)⟩
  · intro h
    obtain ⟨⟨hallowed, hobject⟩, hembedded⟩ := h
    exact ⟨hallowed, fun value hvalue => (hinner value hvalue).2 (hembedded value hvalue), hobject⟩

end check

/-! ## What is written inside an address -/

/-- An IPv4 address inside an IPv6 address, by the formats that carry one. -/
inductive Embeds : IpAddress → IPv4Address → Prop
  | mapped {a : IPv6Address} {e : IPv4Address} (net : a.ip / 2 ^ 32 = 0xFFFF)
      (host : e.ip = a.ip % 2 ^ 32) : Embeds (.v6 a) e
  | nat64 {a : IPv6Address} {e : IPv4Address} (net : a.ip / 2 ^ 32 = 0x64FF9B * 2 ^ 64)
      (host : e.ip = a.ip % 2 ^ 32) : Embeds (.v6 a) e
  | compatible {a : IPv6Address} {e : IPv4Address} (net : a.ip / 2 ^ 32 = 0)
      (host : e.ip = a.ip % 2 ^ 32) : Embeds (.v6 a) e
  | translatable {a : IPv6Address} {e : IPv4Address} (net : a.ip / 2 ^ 32 = 0xFFFF * 2 ^ 16)
      (host : e.ip = a.ip % 2 ^ 32) : Embeds (.v6 a) e
  | teredoServer {a : IPv6Address} {e : IPv4Address} (net : a.ip / 2 ^ 96 = 0x20010000)
      (host : e.ip = a.ip / 2 ^ 64 % 2 ^ 32) : Embeds (.v6 a) e
  | teredoClient {a : IPv6Address} {e : IPv4Address} (net : a.ip / 2 ^ 96 = 0x20010000)
      (host : e.ip = 2 ^ 32 - 1 - a.ip % 2 ^ 32) : Embeds (.v6 a) e

/-- A network of 96 bits holds the addresses that begin so. -/
theorem contains_96 {network : IpNetwork} {address : IPv6Address} {net : Nat}
    (hversion : network.version = 6) (hlength : network.prefixlen = 96)
    (hnet : network.networkAddress = net * 2 ^ 32) (hin : address.ip / 2 ^ 32 = net) :
    network.contains (.v6 address) = true := by
  have hbits : network.bits = 128 := by
    unfold IpNetwork.bits
    rw [hversion]
    rfl
  have hshift : network.bits - network.prefixlen = 32 := by rw [hbits, hlength]
  have hsame : (IpAddress.v6 address).version = network.version := hversion.symm
  have hbound : (IpAddress.v6 address).ip < 2 ^ network.bits := by
    rw [hbits]
    exact address.bound
  have hstart : network.networkAddress = net * 2 ^ (network.bits - network.prefixlen) := by
    rw [hshift]
    exact hnet
  refine (IpNetwork.contains_iff hsame hbound (by omega) hstart).2 ?_
  rw [hshift]
  exact hin

/-- An address embedded in the low bits is found there. -/
theorem mem_lowAddress {address : IPv6Address} {e : IPv4Address}
    (h : e.ip = address.ip % 2 ^ 32) : .v4 e ∈ lowAddress address := by
  rw [lowAddress_eq, List.mem_singleton]
  cases e
  congr

/-- A Teredo address embeds its server and its client. -/
theorem teredo_eq {address : IPv6Address} (h : address.ip / 2 ^ 96 = 0x20010000) :
    address.teredo = some [⟨address.ip / 2 ^ 64 % 2 ^ 32, Nat.mod_lt _ (by decide)⟩,
      ⟨(2 ^ 128 - 1 - address.ip) % 2 ^ 32, Nat.mod_lt _ (by decide)⟩] := by
  unfold IPv6Address.teredo
  rw [Nat.shiftRight_eq_div_pow, if_neg (by simpa using h), Nat.shiftRight_eq_div_pow]
  rw [List.mapM_cons, List.mapM_cons, List.mapM_nil, IPv4Address.ofInt_low32,
    IPv4Address.ofInt_low32]
  rfl

/-- The check looks at every embedded address; `::` and `::1` are no hosts. -/
theorem Embeds.checked {tables : IpTables} {address : IpAddress} {e : IPv4Address}
    (h : Embeds address e) (hobject : isPublicObject tables address = true) :
    .v4 e ∈ embeddedIpv4 address := by
  cases h with
  | @mapped a _ net host =>
      have hmapped : a.ipv4Mapped = some e := by
        unfold IPv6Address.ipv4Mapped
        rw [Nat.shiftRight_eq_div_pow, if_neg (by simpa using net), IPv4Address.ofInt_low32]
        cases e
        congr
        exact host.symm
      simp [embeddedIpv4, hmapped]
  | @nat64 a _ net host =>
      have hin : nat64WellKnownPrefix.contains (.v6 a) = true :=
        contains_96 rfl rfl (by decide) net
      simp [embeddedIpv4, hin, mem_lowAddress host]
  | @compatible a _ net host =>
      have hin : ipv4CompatiblePrefix.contains (.v6 a) = true :=
        contains_96 rfl rfl (by decide) net
      have hhost : unspecifiedOrLoopback a = false := by
        simp only [isPublicObject, Bool.and_eq_true, Bool.not_eq_true'] at hobject
        obtain ⟨⟨⟨⟨⟨⟨⟨-, hloop⟩, -⟩, -⟩, -⟩, hunspecified⟩, -⟩, -⟩ := hobject
        have hone : a.ip ≠ 1 := by
          intro heq
          rw [tables.loopback_one a heq] at hloop
          cases hloop
        have hzero : a.ip ≠ 0 := by
          intro heq
          rw [tables.unspecified_zero a heq] at hunspecified
          cases hunspecified
        simp [unspecifiedOrLoopback, hone, hzero]
      simp [embeddedIpv4, hin, hhost, mem_lowAddress host]
  | @translatable a _ net host =>
      have hin : ipv4TranslatablePrefix.contains (.v6 a) = true :=
        contains_96 rfl rfl (by decide) net
      simp [embeddedIpv4, hin, mem_lowAddress host]
  | @teredoServer a _ net host =>
      have hmem : e ∈ a.teredo.getD [] := by
        rw [teredo_eq net, Option.getD_some]
        cases e
        obtain rfl := host
        exact List.mem_cons_self
      simp [embeddedIpv4, hmem]
  | @teredoClient a _ net host =>
      have hbound := a.bound
      have hclient : e.ip = (2 ^ 128 - 1 - a.ip) % 2 ^ 32 := by
        rw [host]
        omega
      have hmem : e ∈ a.teredo.getD [] := by
        rw [teredo_eq net, Option.getD_some]
        cases e
        obtain rfl := hclient
        exact List.mem_cons_of_mem _ List.mem_cons_self
      simp [embeddedIpv4, hmem]

/-! ## Addresses for delivery -/

/-- Global, and in no denied network. -/
structure Routable (tables : IpTables) (address : IpAddress) : Prop where
  isGlobal : tables.isGlobal address = true
  allowed : ∀ network ∈ deniedGatewayNetworks, network.contains address = false

/-- Routable, with every IPv4 address inside. -/
structure PublicThroughout (tables : IpTables) (address : IpAddress) : Prop where
  routable : Routable tables address
  embedded : ∀ e, Embeds address e → Routable tables (.v4 e)

variable {tables : IpTables} {address : IpAddress}

/-- A public address is routable. -/
theorem isPublicGatewayAddress_routable (h : isPublicGatewayAddress tables address = true) :
    Routable tables address := by
  obtain ⟨hallowed, -, hobject⟩ := isPublicGatewayAddress_iff.1 h
  refine ⟨?_, hallowed⟩
  simp only [isPublicObject, Bool.and_eq_true] at hobject
  obtain ⟨⟨⟨⟨⟨⟨⟨hglobal, -⟩, -⟩, -⟩, -⟩, -⟩, -⟩, -⟩ := hobject
  exact hglobal

/-- **A public address is public throughout**, with all that it embeds. -/
theorem isPublicGatewayAddress_throughout (h : isPublicGatewayAddress tables address = true) :
    PublicThroughout tables address := by
  refine ⟨isPublicGatewayAddress_routable h, ?_⟩
  intro e he
  obtain ⟨-, hembedded, hobject⟩ := isPublicGatewayAddress_iff.1 h
  exact isPublicGatewayAddress_routable (hembedded _ (he.checked hobject))

/-! ## The origin -/

/-- The environment variables of the gateway checks. -/
structure GatewayEnv where
  /-- `ALLOW_PRIVATE_DELIVERY_GATEWAY`, empty where it is not set. -/
  allowPrivate : PyStr
  /-- `DELIVERY_GATEWAY_ALLOWED_HOSTS`. -/
  allowedHosts : Option PyStr

/-- The host of a resolver's answer, `answer[4][0]`. -/
inductive HostValue where
  | str (s : PyStr)
  | int (n : Int)
  | bytes (packed : List Nat)

/-- `ip_address(value)`; nothing where it raises. -/
def HostValue.ipAddress : HostValue → Option IpAddress
  | .str s => IpAddress.ofStr s
  | .int n => IpAddress.ofInt n
  | .bytes packed =>
      if packed.length = 4 then (IPv4Address.ofInt (ofGroups 256 packed)).map .v4
      else if packed.length = 16 then
        (IPv6Address.ofInt none (ofGroups 256 packed)).map .v6
      else none

/-- The argument `allow_private`. -/
inductive AllowPrivate where
  | none
  | bool (b : Bool)
  | other

structure ValidatedGatewayOrigin where
  origin : PyStr
  scheme : PyStr
  hostname : PyStr
  port : Nat
  addresses : List PyStr
  deriving DecidableEq

def isLabelEnd (c : Nat) : Bool := (97 ≤ c && c ≤ 122) || (48 ≤ c && c ≤ 57)

/-- `[a-z0-9](?:[a-z0-9-]{0,61}[a-z0-9])?\Z`. -/
def isHostLabel (label : PyStr) : Bool :=
  label.head?.any isLabelEnd && label.getLast?.any isLabelEnd && label.length ≤ 63
    && label.all fun c => isLabelEnd c || c = 45

/-- `_canonical_ascii_hostname`; nothing where it raises. -/
def canonicalAsciiHostname (hostname : PyStr) : Option PyStr :=
  if hostname.isEmpty || hostname.any (128 ≤ ·) || hostname.getLast? = some 46 then none
  else
    let lowered := hostname.map asciiLower
    match IpAddress.ofStr lowered with
    | some address => some address.str
    | none =>
        if 253 < lowered.length || (PyStr.split 46 lowered).any (!isHostLabel ·) then none
        else some lowered

/-- A rule of `_parse_gateway_host_rules`; nothing where it raises. -/
def gatewayHostRule (lib : PyLib) (raw : PyStr) : Option PyStr :=
  if raw.any (128 ≤ ·) then none
  else
    let rule := (PyStr.strip lib raw).map asciiLower
    if rule.head? = some 46 then
      (canonicalAsciiHostname rule.tail).bind fun canonical =>
        if (IpAddress.ofStr canonical).isSome then none else some (46 :: canonical)
    else canonicalAsciiHostname rule

/-- `_parse_gateway_host_rules`; nothing where it raises. -/
def parseGatewayHostRules (lib : PyLib) (configured : PyStr) : Option (List PyStr) :=
  let raw := PyStr.split 44 configured
  if raw.any fun item => (PyStr.strip lib item).isEmpty then none
  else raw.mapM (gatewayHostRule lib)

/-- `_gateway_host_allowed`; nothing where it raises. -/
def gatewayHostAllowed (lib : PyLib) (env : GatewayEnv) (hostname : PyStr) : Option Bool :=
  let rules := match env.allowedHosts with
    | none => some [py ".trycloudflare.com"]
    | some configured => parseGatewayHostRules lib configured
  rules.map fun rules => rules.any fun rule =>
    if rule.head? = some 46 then rule.isSuffixOf hostname && hostname != rule.tail
    else hostname = rule

/-- Only `https` origins are held to the allowlist. -/
def hostRuleHolds (lib : PyLib) (env : GatewayEnv) (scheme hostname : PyStr) : Option Bool :=
  if scheme = py "https" then gatewayHostAllowed lib env hostname else some true

/-- `allow_private` as a boolean; nothing where it raises. -/
def allowPrivateOf (lib : PyLib) (env : GatewayEnv) : AllowPrivate → Option Bool
  | .none => some ([py "1", py "true", py "yes", py "on"].contains
      (lib.lower (PyStr.strip lib env.allowPrivate)))
  | .bool b => some b
  | .other => none

/-- `port or default`. -/
def portOr (port : Option Nat) (default : Nat) : Nat :=
  match port with
  | none => default
  | some 0 => default
  | some n => n

/-- `_validate_gateway_origin`; nothing where it raises.  The resolver gives the
hosts of its answers, or nothing where it raises; an answer of another shape
gives none. -/
def validateGatewayOrigin (net : NetLib) (tables : IpTables) (env : GatewayEnv)
    (resolve : PyStr → Nat → Option (List (Option HostValue))) (allow : AllowPrivate) :
    Json → Option ValidatedGatewayOrigin
  | .str url => do
      guard (!url.isEmpty && url.all fun c => 32 < c && c < 127)
      -- `urlsplit` would drop an empty query or fragment
      guard (!url.contains 63 && !url.contains 35 && !url.contains 92)
      let parsed ← urlsplit net url
      let host ← parsed.hostname net.lib
      let port ← parsed.port
      let scheme := parsed.scheme.map asciiLower
      guard (!parsed.netloc.isEmpty && parsed.username.isNone && parsed.password.isNone
        && (parsed.path = [] || parsed.path = [47]) && parsed.query.isEmpty
        && parsed.fragment.isEmpty && (scheme = py "http" || scheme = py "https"))
      let hostname ← canonicalAsciiHostname host
      guard (hostname != py "localhost" && !(py ".localhost").isSuffixOf hostname)
      let allowPrivate ← allowPrivateOf net.lib env allow
      let expectedPort := if scheme = py "https" then 443 else 80
      guard (scheme != py "https" || port = none || port = some 443)
      guard (scheme != py "http" || allowPrivate)
      let allowed ← hostRuleHolds net.lib env scheme hostname
      guard allowed
      let answers ← resolve hostname (portOr port expectedPort)
      let addresses ← answers.mapM fun answer => answer.bind HostValue.ipAddress
      guard (!addresses.isEmpty)
      guard (scheme != py "http" || (allowPrivate && addresses.all tables.isLoopback))
      guard (scheme != py "https" || addresses.all (isPublicGatewayAddress tables))
      let renderedHost := if hostname.contains 58 then 91 :: hostname ++ [93] else hostname
      let renderedPort := match port with
        | none => []
        | some n => if n = expectedPort then [] else 58 :: intText n
      pure {
        origin := scheme ++ py "://" ++ renderedHost ++ renderedPort
        scheme := scheme
        hostname := hostname
        port := portOr port expectedPort
        addresses := (addresses.map IpAddress.str).eraseDups
      }
  | _ => none

/-- A guard lets through what meets its condition. -/
theorem guard_bind_iff {α : Type} {c : Prop} [Decidable c] {f : Unit → Option α} {a : α} :
    (guard c >>= f) = some a ↔ c ∧ f () = some a := by
  by_cases hc : c
  · simp [guard, hc]
  · simp [guard, hc]

/-- The addresses of an accepted `https` origin have passed the check. -/
theorem validateGatewayOrigin_https {net : NetLib} {env : GatewayEnv}
    {resolve : PyStr → Nat → Option (List (Option HostValue))} {allow : AllowPrivate} {url : Json}
    {validated : ValidatedGatewayOrigin}
    (h : validateGatewayOrigin net tables env resolve allow url = some validated)
    (hscheme : validated.scheme = py "https") :
    ∃ addresses : List IpAddress, addresses ≠ [] ∧
      addresses.all (isPublicGatewayAddress tables) = true ∧
      validated.addresses = (addresses.map IpAddress.str).eraseDups := by
  unfold validateGatewayOrigin at h
  split at h
  · obtain ⟨-, h⟩ := guard_bind_iff.1 h
    obtain ⟨-, h⟩ := guard_bind_iff.1 h
    obtain ⟨parsed, -, h⟩ := Option.bind_eq_some_iff.1 h
    obtain ⟨host, -, h⟩ := Option.bind_eq_some_iff.1 h
    obtain ⟨port, -, h⟩ := Option.bind_eq_some_iff.1 h
    obtain ⟨-, h⟩ := guard_bind_iff.1 h
    obtain ⟨hostname, -, h⟩ := Option.bind_eq_some_iff.1 h
    obtain ⟨-, h⟩ := guard_bind_iff.1 h
    obtain ⟨allowPrivate, -, h⟩ := Option.bind_eq_some_iff.1 h
    obtain ⟨-, h⟩ := guard_bind_iff.1 h
    obtain ⟨-, h⟩ := guard_bind_iff.1 h
    obtain ⟨allowed, -, h⟩ := Option.bind_eq_some_iff.1 h
    obtain ⟨-, h⟩ := guard_bind_iff.1 h
    obtain ⟨answers, -, h⟩ := Option.bind_eq_some_iff.1 h
    obtain ⟨addresses, -, h⟩ := Option.bind_eq_some_iff.1 h
    obtain ⟨hsome, h⟩ := guard_bind_iff.1 h
    obtain ⟨-, h⟩ := guard_bind_iff.1 h
    obtain ⟨hpublic, h⟩ := guard_bind_iff.1 h
    obtain rfl := Option.some.inj h
    refine ⟨addresses, by simpa using hsome, ?_, rfl⟩
    have hhttps : parsed.scheme.map asciiLower = py "https" := hscheme
    rw [hhttps] at hpublic
    simpa using hpublic
  · cases h

/-- **Public gateway addresses only.**  The check of an address ends one level
down, and an address it accepts is global and in no denied network, with every
IPv4 address inside it.  The addresses pinned for an accepted `https` origin
are texts of such addresses. -/
theorem gateway_public (tables : IpTables) :
    (∀ address, isPublicGatewayAddress tables address =
        (isClear tables address && (embeddedIpv4 address).all (isClear tables))) ∧
      (∀ address, isPublicGatewayAddress tables address = true → PublicThroughout tables address) ∧
      ∀ net env resolve allow url validated,
        validateGatewayOrigin net tables env resolve allow url = some validated →
        validated.scheme = py "https" →
        validated.addresses ≠ [] ∧ ∀ text ∈ validated.addresses,
          ∃ address, IpAddress.ofStr text = some address ∧ PublicThroughout tables address := by
  refine ⟨isPublicGatewayAddress_eq, fun address h => isPublicGatewayAddress_throughout h, ?_⟩
  intro net env resolve allow url validated h hscheme
  obtain ⟨addresses, hne, hall, hpinned⟩ := validateGatewayOrigin_https h hscheme
  rw [hpinned]
  refine ⟨?_, ?_⟩
  · intro hnone
    obtain ⟨address, rest, rfl⟩ := List.exists_cons_of_ne_nil hne
    have hmem : address.str ∈ ((address :: rest).map IpAddress.str).eraseDups := by
      rw [List.mem_eraseDups]
      exact List.mem_cons_self
    rw [hnone] at hmem
    cases hmem
  · intro text htext
    rw [List.mem_eraseDups] at htext
    obtain ⟨address, hmem, rfl⟩ := List.mem_map.1 htext
    exact ⟨address, IpAddress.ofStr_str address,
      isPublicGatewayAddress_throughout (List.all_eq_true.1 hall address hmem)⟩

/-- The addresses of the samples: two that are global, and nothing special. -/
def sampleTables : IpTables where
  isGlobal address := [py "8.8.8.8", py "2606:4700:4700::1111"].contains address.str
  isPrivate _ := false
  isLinkLocal _ := false
  isMulticast _ := false
  isReserved _ := false
  isSiteLocal _ := false
  isLoopback address := address.ip = 1
  isUnspecified address := address.ip = 0
  loopback_one := by
    intro address h
    simp [IpAddress.ip, h]
  unspecified_zero := by
    intro address h
    simp [IpAddress.ip, h]

def sampleNet : NetLib where
  lib := asciiLib
  compressed s := (IpAddress.ofStr s).map IpAddress.str
  checkNetloc _ := true

/-- Both sample addresses are pinned for a gateway under the default rule. -/
theorem gateway_public_sample : ∃ validated,
    validateGatewayOrigin sampleNet sampleTables ⟨[], none⟩
      (fun _ _ => some [some (.str (py "8.8.8.8")), some (.str (py "2606:4700:4700:0::1111"))])
      .none (.str (py "https://buyer.trycloudflare.com/")) = some validated ∧
    validated.addresses = [py "8.8.8.8", py "2606:4700:4700::1111"] ∧
    ∀ text ∈ validated.addresses, ∃ address, IpAddress.ofStr text = some address ∧
      PublicThroughout sampleTables address := by
  have hcheck : isPublicGatewayAddress sampleTables = fun address =>
      isClear sampleTables address && (embeddedIpv4 address).all (isClear sampleTables) :=
    funext isPublicGatewayAddress_eq
  have hrun : validateGatewayOrigin sampleNet sampleTables ⟨[], none⟩
      (fun _ _ => some [some (.str (py "8.8.8.8")), some (.str (py "2606:4700:4700:0::1111"))])
      .none (.str (py "https://buyer.trycloudflare.com/")) =
      some ⟨py "https://buyer.trycloudflare.com", py "https", py "buyer.trycloudflare.com", 443,
        [py "8.8.8.8", py "2606:4700:4700::1111"]⟩ := by
    unfold validateGatewayOrigin
    rw [hcheck]
    decide +kernel
  obtain ⟨-, -, hpinned⟩ := gateway_public sampleTables
  exact ⟨_, hrun, rfl, (hpinned _ _ _ _ _ _ hrun rfl).2⟩

end NotifySecurity
