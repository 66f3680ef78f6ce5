import StockAnalyst.GatewayAddress
import StockAnalyst.S3Urls

/-!
# Gateway origins are canonical

The origin `_validate_gateway_origin` returns is a fixed point of it.  Its host
is a fixed point of `_canonical_ascii_hostname`, either a name that needs no
brackets or an IPv6 address, and `urlsplit` finds it and the port again in the
rendered origin.
-/

namespace NotifySecurity

open Python

/-! ## Hosts -/

/-- Lower case twice is lower case. -/
theorem asciiLower_idem (c : Nat) : asciiLower (asciiLower c) = asciiLower c := by
  unfold asciiLower
  grind

/-- A text without capitals is its own lower case. -/
theorem map_asciiLower_of {s : PyStr} (h : ∀ c ∈ s, c < 65 ∨ 90 < c) : s.map asciiLower = s := by
  conv_rhs => rw [← List.map_id s]
  apply List.map_congr_left
  intro c hc
  have := h c hc
  unfold asciiLower
  grind

/-- The scope of an IPv6 address is kept as it was written. -/
theorem IPv6_str_parts {s : PyStr} {address : IPv6Address}
    (h : IPv6Address.ofStr s = some address) :
    58 ∈ s ∧ (address.str = address.text ∨
      ∃ front scope, s = front ++ 37 :: scope ∧ scope ≠ [] ∧
        address.str = address.text ++ 37 :: scope) := by
  unfold IPv6Address.ofStr at h
  split at h
  · cases h
  · obtain ⟨⟨front, scope⟩, hsplit, h⟩ := Option.bind_eq_some_iff.1 h
    obtain ⟨n, hn, haddress⟩ := Option.bind_eq_some_iff.1 h
    have hscope : address.scopeId = scope := by
      unfold IPv6Address.ofInt at haddress
      split at haddress
      · rw [← Option.some.inj haddress]
      · cases haddress
    have hcolon : 58 ∈ front := by
      by_contra hnone
      rw [ipv6FromString, PyStr.split_self hnone] at hn
      cases hn
    unfold IPv6Address.splitScopeId at hsplit
    split at hsplit
    · rename_i hpercent
      split at hsplit
      · rename_i hvalid
        obtain ⟨rfl, rfl⟩ := Prod.mk.inj (Option.some.inj hsplit)
        have hparts := before_append_after (List.contains_iff_mem.1 hpercent)
        refine ⟨?_, Or.inr ⟨_, _, hparts.symm, hvalid.1, ?_⟩⟩
        · rw [← hparts]
          exact List.mem_append_left _ hcolon
        · rw [IPv6Address.str, hscope]
      · cases hsplit
    · obtain ⟨rfl, rfl⟩ := Prod.mk.inj (Option.some.inj hsplit)
      refine ⟨hcolon, Or.inl ?_⟩
      rw [IPv6Address.str, hscope]

/-- A joined text ends with its last piece. -/
theorem join_last (sep piece : PyStr) (pieces : List PyStr) :
    ∃ front, PyStr.join sep (pieces ++ [piece]) = front ++ piece := by
  induction pieces with
  | nil => exact ⟨[], rfl⟩
  | cons p pieces ih =>
      obtain ⟨front, hfront⟩ := ih
      cases hrest : pieces ++ [piece] with
      | nil => simp at hrest
      | cons q rest =>
          rw [hrest] at hfront
          refine ⟨p ++ sep ++ front, ?_⟩
          rw [List.cons_append, hrest, PyStr.join, hfront, ← List.append_assoc]

/-- The text of an address does not end in a dot unless its scope does. -/
theorem str_last {s : PyStr} {address : IpAddress} (h : IpAddress.ofStr s = some address)
    (hs : s.getLast? ≠ some 46) : address.str.getLast? ≠ some 46 := by
  have hend : ∀ front text : PyStr, text ≠ [] → text.getLast? ≠ some 46 →
      (front ++ text).getLast? ≠ some 46 := by
    intro front text hne hlast
    rwa [List.getLast?_append_of_ne_nil _ hne]
  unfold IpAddress.ofStr at h
  split at h
  · rename_i v4 _
    obtain rfl := Option.some.inj h
    obtain ⟨front, hstr⟩ : ∃ front, v4.str = front ++ intText (v4.ip % 256 : Nat) := by
      rw [IPv4Address.str, groups, List.map_append]
      exact join_last _ _ _
    rw [IpAddress.str, hstr]
    apply hend _ _ (intText_ne_nil _)
    intro hlast
    have := intText_range _ 46 (List.mem_of_getLast? hlast)
    omega
  · obtain ⟨v6, hv6, rfl⟩ := Option.map_eq_some_iff.1 h
    obtain ⟨-, htext | ⟨front, scope, rfl, hne, hstr⟩⟩ := IPv6_str_parts hv6
    · rw [IpAddress.str, htext]
      intro hlast
      have := v6.text_range 46 (List.mem_of_getLast? hlast)
      omega
    · rw [List.getLast?_append_of_ne_nil _ (by simp), List.getLast?_cons_of_ne_nil hne] at hs
      rw [IpAddress.str, hstr]
      apply hend _ _ (by simp)
      rwa [List.getLast?_cons_of_ne_nil hne]

/-- A character of a host that needs no brackets. -/
def IsNameChar (c : Nat) : Prop := (48 ≤ c ∧ c ≤ 57) ∨ (97 ≤ c ∧ c ≤ 122) ∨ c = 45 ∨ c = 46

/-- A character of an IPv6 address that was written in `s`. -/
def IsAddressChar (s : PyStr) (c : Nat) : Prop := (48 ≤ c ∧ c ≤ 58) ∨ (97 ≤ c ∧ c ≤ 102) ∨ c ∈ s

/-- What a canonical host looks like. -/
structure CanonicalHost (host hostname : PyStr) : Prop where
  nonempty : hostname ≠ []
  ascii : ∀ c ∈ hostname, c < 128
  lower : hostname.map asciiLower = hostname
  again : canonicalAsciiHostname hostname = some hostname
  form : (∀ c ∈ hostname, IsNameChar c) ∨
    (IPv6Address.ofStr hostname).isSome ∧ 58 ∈ hostname ∧ 58 ∈ host.map asciiLower ∧
      ∀ c ∈ hostname, IsAddressChar (host.map asciiLower) c

/-- Lower case of ASCII is ASCII. -/
theorem asciiLower_lt {c : Nat} (h : c < 128) : asciiLower c < 128 := by
  unfold asciiLower
  grind

/-- A host in lower case ends in a dot only if the host does. -/
theorem lower_last {host : PyStr} (h : host.getLast? ≠ some 46) :
    (host.map asciiLower).getLast? ≠ some 46 := by
  intro hmapped
  rw [List.getLast?_map, Option.map_eq_some_iff] at hmapped
  obtain ⟨d, hd, hdot⟩ := hmapped
  have hsame : d = 46 := by
    unfold asciiLower at hdot
    grind
  exact h (hsame ▸ hd)

/-- A host that is an IP address is replaced by the text of the address. -/
theorem canonicalHost_address {host : PyStr} {address : IpAddress}
    (hascii : ∀ c ∈ host, c < 128) (hlast : host.getLast? ≠ some 46)
    (h : IpAddress.ofStr (host.map asciiLower) = some address) :
    CanonicalHost host address.str := by
  have hlower : ∀ c ∈ host.map asciiLower, c < 65 ∨ 90 < c := by
    intro c hc
    obtain ⟨d, -, rfl⟩ := List.mem_map.1 hc
    unfold asciiLower
    grind
  have hsmall : ∀ c ∈ host.map asciiLower, c < 128 := by
    intro c hc
    obtain ⟨d, hd, rfl⟩ := List.mem_map.1 hc
    exact asciiLower_lt (hascii d hd)
  have hchars : (∀ c ∈ address.str, IsNameChar c) ∨
      (IPv6Address.ofStr address.str).isSome ∧ 58 ∈ address.str ∧ 58 ∈ host.map asciiLower ∧
        ∀ c ∈ address.str, IsAddressChar (host.map asciiLower) c := by
    cases address with
    | v4 v4 =>
        left
        intro c hc
        have := v4.str_range c hc
        unfold IsNameChar
        omega
    | v6 v6 =>
        right
        have hv6 : IPv6Address.ofStr (host.map asciiLower) = some v6 := by
          unfold IpAddress.ofStr at h
          split at h
          · cases Option.some.inj h
          · obtain ⟨v6', hv6', heq⟩ := Option.map_eq_some_iff.1 h
            rwa [IpAddress.v6.inj heq] at hv6'
        obtain ⟨hcolon, hparts⟩ := IPv6_str_parts hv6
        refine ⟨?_, v6.colon_mem_str, hcolon, ?_⟩
        · rw [IpAddress.str, IPv6Address.ofStr_str]
          rfl
        · intro c hc
          obtain htext | ⟨front, scope, hhost, -, hstr⟩ := hparts
          · rw [IpAddress.str, htext] at hc
            have := v6.text_range c hc
            unfold IsAddressChar
            omega
          · rw [IpAddress.str, hstr, List.mem_append] at hc
            obtain hc | hc := hc
            · have := v6.text_range c hc
              unfold IsAddressChar
              omega
            · right; right
              rw [hhost]
              exact List.mem_append_right _ hc
  have hrange : ∀ c ∈ address.str, c < 128 ∧ (c < 65 ∨ 90 < c) := by
    intro c hc
    obtain hname | ⟨-, -, -, haddress⟩ := hchars
    · have := hname c hc
      unfold IsNameChar at this
      omega
    · obtain hdigit | hdigit | hmem := haddress c hc
      · omega
      · omega
      · exact ⟨hsmall c hmem, hlower c hmem⟩
  have hnonempty : address.str ≠ [] := by
    intro hnone
    have hagain := address.ofStr_str
    rw [hnone] at hagain
    cases hagain
  have hself := map_asciiLower_of fun c hc => (hrange c hc).2
  have hend : address.str.getLast? ≠ some 46 := str_last h (lower_last hlast)
  refine ⟨hnonempty, fun c hc => (hrange c hc).1, hself, ?_, hchars⟩
  unfold canonicalAsciiHostname
  rw [if_neg]
  · dsimp only
    rw [hself, address.ofStr_str]
  · simp only [Bool.or_eq_true, List.isEmpty_iff, List.any_eq_true, decide_eq_true_eq, not_or,
      not_exists, not_and, not_le]
    exact ⟨⟨hnonempty, fun c hc => (hrange c hc).1⟩, hend⟩

/-- **A canonical host is canonical.** -/
theorem canonicalHost_of {host hostname : PyStr}
    (h : canonicalAsciiHostname host = some hostname) : CanonicalHost host hostname := by
  have hcanonical := h
  unfold canonicalAsciiHostname at h
  split at h
  · cases h
  · rename_i hplain
    simp only [Bool.or_eq_true, List.isEmpty_iff, List.any_eq_true, decide_eq_true_eq, not_or,
      not_exists, not_and, not_le] at hplain
    obtain ⟨⟨hnonempty, hascii⟩, hlast⟩ := hplain
    dsimp only at h
    split at h
    · rename_i address haddress
      obtain rfl := Option.some.inj h
      exact canonicalHost_address hascii hlast haddress
    · rename_i hnone
      split at h
      · cases h
      · rename_i hlabels
        obtain rfl := Option.some.inj h
        have hself : (host.map asciiLower).map asciiLower = host.map asciiLower := by
          rw [List.map_map]
          exact List.map_congr_left fun c _ => asciiLower_idem c
        have hname : ∀ c ∈ host.map asciiLower, IsNameChar c := by
          simp only [Bool.or_eq_true, decide_eq_true_eq, List.any_eq_true, Bool.not_eq_true',
            not_or, not_exists, not_and, Bool.not_eq_false] at hlabels
          intro c hc
          by_cases hdot : c = 46
          · exact Or.inr (Or.inr (Or.inr hdot))
          · obtain ⟨label, hlabel, hmem⟩ := PyStr.mem_split hc hdot
            have hvalid := hlabels.2 label hlabel
            simp only [isHostLabel, Bool.and_eq_true, List.all_eq_true] at hvalid
            have hchar := hvalid.2 c hmem
            simp only [isLabelEnd, Bool.or_eq_true, Bool.and_eq_true, decide_eq_true_eq] at hchar
            unfold IsNameChar
            omega
        refine ⟨by simpa using hnonempty, ?_, hself, ?_, Or.inl hname⟩
        · intro c hc
          have := hname c hc
          unfold IsNameChar at this
          omega
        · have hcond : ¬ ((host.map asciiLower).isEmpty || (host.map asciiLower).any (128 ≤ ·)
              || (host.map asciiLower).getLast? = some 46) = true := by
            simp only [Bool.or_eq_true, List.isEmpty_iff, List.map_eq_nil_iff, List.any_map,
              List.any_eq_true, Function.comp_apply, decide_eq_true_eq, not_or, not_exists,
              not_and, not_le]
            exact ⟨⟨hnonempty, fun c hc => asciiLower_lt (hascii c hc)⟩, lower_last hlast⟩
          unfold canonicalAsciiHostname
          rw [if_neg hcond]
          dsimp only
          rw [hself, hnone]
          dsimp only
          rw [if_neg hlabels]

/-! ## The rendered origin -/

/-- What `urlsplit` takes for a network location: anything plain, and an IPv6
address in brackets, with a port or without one. -/
structure TakesHosts (net : NetLib) : Prop where
  plain : ∀ netloc, (∀ c ∈ netloc, c < 128 ∧ c ≠ 91 ∧ c ≠ 93) → net.checkNetloc netloc = true
  bracketed : ∀ host port : PyStr, (IPv6Address.ofStr host).isSome → (∀ c ∈ host, c < 128) →
    93 ∉ host → 64 ∉ host → (port = [] ∨ ∃ n : Nat, port = 58 :: intText n) →
    net.checkNetloc (91 :: host ++ 93 :: port) = true

/-- `rendered_host`. -/
def renderHost (hostname : PyStr) : PyStr :=
  if hostname.contains 58 then 91 :: hostname ++ [93] else hostname

/-- `rendered_port`. -/
def renderPort (expected : Nat) : Option Nat → PyStr
  | none => []
  | some n => if n = expected then [] else 58 :: intText n

/-- A host that can be rendered, and where it came from. -/
structure Renderable (hostname : PyStr) : Prop where
  nonempty : hostname ≠ []
  lower : hostname.map asciiLower = hostname
  chars : ∀ c ∈ hostname, 32 < c ∧ c < 127 ∧ c ≠ 63 ∧ c ≠ 35 ∧ c ≠ 92 ∧ c ≠ 47 ∧ c ≠ 64 ∧ c ≠ 93
  form : (58 ∉ hostname ∧ 91 ∉ hostname) ∨
    (58 ∈ hostname ∧ (IPv6Address.ofStr hostname).isSome)

section rendered

variable {net : NetLib} {hostname portText : PyStr} {parsed : SplitResult}

/-- The text of a port is empty, or a colon and digits. -/
def IsPortText (portText : PyStr) : Prop := portText = [] ∨ ∃ n : Nat, portText = 58 :: intText n

/-- The text of a port has digits and a colon. -/
theorem IsPortText.chars (h : IsPortText portText) : ∀ c ∈ portText, 48 ≤ c ∧ c ≤ 58 := by
  intro c hc
  obtain rfl | ⟨n, rfl⟩ := h
  · cases hc
  · obtain rfl | hc := List.mem_cons.1 hc
    · omega
    · have := intText_range n c hc
      omega

/-- A rendered host has no delimiter of a URL in it. -/
theorem renderHost_chars (h : Renderable hostname) : ∀ c ∈ renderHost hostname,
    32 < c ∧ c < 127 ∧ c ≠ 63 ∧ c ≠ 35 ∧ c ≠ 92 ∧ c ≠ 47 ∧ c ≠ 64 := by
  intro c hc
  have hsplit : c = 91 ∨ c = 93 ∨ c ∈ hostname := by
    unfold renderHost at hc
    split at hc
    · grind
    · exact Or.inr (Or.inr hc)
  obtain rfl | rfl | hc := hsplit
  · decide
  · decide
  · have := h.chars c hc
    omega

/-- The characters of a rendered network location. -/
theorem netloc_chars (h : Renderable hostname) (hport : IsPortText portText) :
    ∀ c ∈ renderHost hostname ++ portText,
      32 < c ∧ c < 127 ∧ c ≠ 63 ∧ c ≠ 35 ∧ c ≠ 92 ∧ c ≠ 47 ∧ c ≠ 64 := by
  intro c hc
  obtain hc | hc := List.mem_append.1 hc
  · exact renderHost_chars h c hc
  · have := hport.chars c hc
    omega

/-- The host and the port are taken apart as they were put together. -/
theorem hostinfo_rendered (h : Renderable hostname) (hport : IsPortText portText)
    (hnetloc : parsed.netloc = renderHost hostname ++ portText) :
    parsed.hostinfo = (hostname, portText.tail) := by
  have hwhole : parsed.netloc.rtakeWhile (· != 64) = parsed.netloc := by
    rw [List.rtakeWhile_eq_self_iff]
    intro c hc
    rw [hnetloc] at hc
    have := netloc_chars h hport c hc
    simpa using this.2.2.2.2.2.2
  have hportCut : before 58 portText = [] ∧ after 58 portText = portText.tail := by
    obtain rfl | ⟨n, rfl⟩ := hport
    · exact ⟨rfl, rfl⟩
    · simp [before, after]
  unfold SplitResult.hostinfo
  dsimp only
  rw [hwhole, hnetloc]
  obtain ⟨hcolon, hopen⟩ | ⟨hcolon, -⟩ := h.form
  · have hrender : renderHost hostname = hostname := by
      rw [renderHost, if_neg (by simpa using hcolon)]
    have hnone : (hostname ++ portText).contains 91 = false := by
      rw [Bool.eq_false_iff, ne_eq, List.contains_iff_mem, List.mem_append, not_or]
      refine ⟨hopen, fun hmem => ?_⟩
      have := hport.chars 91 hmem
      omega
    rw [hrender, hnone, if_neg Bool.false_ne_true]
    obtain rfl | ⟨n, rfl⟩ := hport
    · rw [List.append_nil, before_not_mem hcolon, after_not_mem hcolon]
      rfl
    · rw [before_append hcolon, after_append_sep hcolon]
      rfl
  · have hrender : renderHost hostname ++ portText = 91 :: (hostname ++ 93 :: portText) := by
      rw [renderHost, if_pos (List.contains_iff_mem.2 hcolon)]
      simp
    have hclose : 93 ∉ hostname := fun hmem => (h.chars 93 hmem).2.2.2.2.2.2.2 rfl
    have hafter : after 91 (91 :: (hostname ++ 93 :: portText)) = hostname ++ 93 :: portText := rfl
    rw [hrender, if_pos (by simp), hafter, before_append hclose, after_append_sep hclose,
      hportCut.2]

/-- The host that is read is the host that was rendered. -/
theorem hostname_rendered (h : Renderable hostname) (hport : IsPortText portText)
    (hnetloc : parsed.netloc = renderHost hostname ++ portText) :
    parsed.hostname net.lib = some hostname := by
  have hsame : ∀ c ∈ hostname, asciiLower c = c := by
    intro c hc
    exact List.map_inj_left.1 (h.lower.trans (List.map_id hostname).symm) c hc
  have hzone : net.lib.lower (before 37 hostname) = before 37 hostname := by
    rw [net.lib.lower_ascii]
    · conv_rhs => rw [← List.map_id (before 37 hostname)]
      exact List.map_congr_left fun c hc => hsame c ((List.takeWhile_sublist _).subset hc)
    · intro c hc
      have := h.chars c ((List.takeWhile_sublist _).subset hc)
      omega
  unfold SplitResult.hostname
  dsimp only
  rw [hostinfo_rendered h hport hnetloc, if_neg (by simpa using h.nonempty), hzone]
  exact congrArg some (List.takeWhile_append_dropWhile ..)

/-- A rendered origin names no user. -/
theorem userinfo_rendered (h : Renderable hostname) (hport : IsPortText portText)
    (hnetloc : parsed.netloc = renderHost hostname ++ portText) :
    parsed.username = none ∧ parsed.password = none := by
  have hnone : parsed.userinfo = none := by
    rw [SplitResult.userinfo, hnetloc, if_neg]
    intro hmem
    exact (netloc_chars h hport 64 (List.contains_iff_mem.1 hmem)).2.2.2.2.2.2 rfl
  unfold SplitResult.username SplitResult.password
  rw [hnone]
  exact ⟨rfl, rfl⟩

/-- The port that is read from the text of one. -/
def portRead (expected : Nat) : Option Nat → Option Nat
  | none => none
  | some n => if n = expected then none else some n

/-- A rendered port is the text of a port. -/
theorem isPortText_render (expected : Nat) (port : Option Nat) :
    IsPortText (renderPort expected port) := by
  cases port with
  | none => exact Or.inl rfl
  | some n =>
      by_cases hexpected : n = expected
      · exact Or.inl (if_pos hexpected)
      · exact Or.inr ⟨n, if_neg hexpected⟩

/-- The port that is read is the port that was rendered. -/
theorem port_rendered {expected : Nat} {port : Option Nat} (h : Renderable hostname)
    (hsmall : ∀ n ∈ port, n ≤ 65535)
    (hnetloc : parsed.netloc = renderHost hostname ++ renderPort expected port) :
    parsed.port = some (portRead expected port) := by
  have hinfo := hostinfo_rendered h (isPortText_render expected port) hnetloc
  unfold SplitResult.port
  dsimp only
  rw [hinfo]
  cases port with
  | none => rfl
  | some n =>
      by_cases hexpected : n = expected
      · simp [renderPort, portRead, hexpected]
      · have hn := hsmall n rfl
        have hdigits : (intText n).all (fun c => 48 ≤ c && c ≤ 57) = true := by
          rw [List.all_eq_true]
          intro c hc
          simpa using intText_range n c hc
        have hlength : (intText n).length ≤ 5 := length_intText_le (by decide) (by omega)
        have htext : (renderPort expected (some n)).tail = intText n := by
          rw [renderPort, if_neg hexpected]
          rfl
        dsimp only
        rw [htext, if_neg (by simpa using intText_ne_nil n), if_pos, natOf_intText, portRead,
          if_neg hexpected]
        simp only [natOf_intText, maxIntDigits, Bool.and_eq_true, decide_eq_true_eq]
        exact ⟨⟨hdigits, decide_eq_true (by omega)⟩, hn⟩

/-- `urlsplit` of a rendered origin, whatever path follows. -/
theorem urlsplit_rendered {scheme path : PyStr} (htakes : TakesHosts net)
    (hscheme : scheme = py "http" ∨ scheme = py "https") (h : Renderable hostname)
    (hport : IsPortText portText) (hstart : S3Storage.Delimited path)
    (hpath : ∀ c ∈ path, c ≠ 63 ∧ c ≠ 35) :
    urlsplit net (scheme ++ py "://" ++ (renderHost hostname ++ portText) ++ path) =
      some ⟨scheme, renderHost hostname ++ portText, path, [], []⟩ := by
  have hchars : ∀ c ∈ renderHost hostname ++ portText, isNetlocChar c = true := by
    intro c hc
    have := netloc_chars h hport c hc
    simp only [isNetlocChar, Bool.and_eq_true, bne_iff_ne]
    omega
  have hcheck : net.checkNetloc (renderHost hostname ++ portText) = true := by
    obtain ⟨hcolon, hopen⟩ | ⟨hcolon, hv6⟩ := h.form
    · apply htakes.plain
      intro c hc
      have hrender : renderHost hostname = hostname := by
        rw [renderHost, if_neg (by simpa using hcolon)]
      rw [hrender] at hc
      obtain hc | hc := List.mem_append.1 hc
      · have := h.chars c hc
        refine ⟨by omega, ?_, this.2.2.2.2.2.2.2⟩
        rintro rfl
        exact hopen hc
      · have := hport.chars c hc
        omega
    · rw [renderHost, if_pos (List.contains_iff_mem.2 hcolon), List.append_assoc]
      apply htakes.bracketed hostname portText hv6
      · intro c hc
        have := h.chars c hc
        omega
      · exact fun hmem => (h.chars 93 hmem).2.2.2.2.2.2.2 rfl
      · exact fun hmem => (h.chars 64 hmem).2.2.2.2.2.2.1 rfl
      · exact hport
  have hsplit : splitScheme (scheme ++ 58 :: (47 :: 47 :: (renderHost hostname ++ portText ++ path)))
      = (scheme, 47 :: 47 :: (renderHost hostname ++ portText ++ path)) := by
    obtain rfl | rfl := hscheme
    · rfl
    · rfl
  have hurl : scheme ++ py "://" ++ (renderHost hostname ++ portText) ++ path =
      scheme ++ 58 :: (47 :: 47 :: (renderHost hostname ++ portText ++ path)) := by
    rw [show py "://" = [58, 47, 47] by decide]
    simp
  have hquery : 63 ∉ path := fun hmem => (hpath 63 hmem).1 rfl
  have hfragment : 35 ∉ path := fun hmem => (hpath 35 hmem).2 rfl
  unfold urlsplit
  rw [hurl, hsplit]
  dsimp only
  rw [S3Storage.splitNetloc_delimited hchars hstart, if_pos hcheck, before_not_mem hfragment,
    before_not_mem hquery, after_not_mem hquery, after_not_mem hfragment]

end rendered

/-! ## Hosts of accepted URLs -/

section accepted

variable {net : NetLib} {url host hostname : PyStr} {parsed : SplitResult}

/-- Taking off the scheme only drops characters. -/
theorem splitScheme_sublist (url : PyStr) : (splitScheme url).2.Sublist url := by
  unfold splitScheme
  dsimp only
  split
  · exact (List.tail_sublist _).trans (List.dropWhile_sublist _)
  · exact .refl _

/-- The network location is a part of the URL. -/
theorem netloc_of_url (h : urlsplit net url = some parsed) :
    ∀ c ∈ parsed.netloc, c ∈ url ∧ isNetlocChar c = true := by
  unfold urlsplit at h
  dsimp only at h
  split at h
  · obtain rfl := Option.some.inj h
    intro c hc
    dsimp only at hc
    have hrest := (splitScheme_sublist url).subset (a := c)
    revert hrest hc
    generalize (splitScheme url).2 = rest
    intro hc hrest
    unfold splitNetloc at hc
    split at hc
    · exact ⟨hrest (List.mem_cons_of_mem _ (List.mem_cons_of_mem _
        ((List.takeWhile_sublist _).subset hc))), List.mem_takeWhile_imp hc⟩
    · cases hc
  · cases h

/-- Where the characters of a host come from: no `@`, and no bracket that
closes if there is a colon. -/
theorem hostinfo_chars (parsed : SplitResult) :
    (∀ c ∈ parsed.hostinfo.1, c ∈ parsed.netloc ∧ c ≠ 64) ∧
      (93 ∉ parsed.hostinfo.1 ∨ 58 ∉ parsed.hostinfo.1) := by
  have hinfo : ∀ c ∈ parsed.netloc.rtakeWhile (· != 64), c ∈ parsed.netloc ∧ c ≠ 64 := by
    intro c hc
    refine ⟨(List.rtakeWhile_suffix _ _).subset hc, ?_⟩
    simpa using List.mem_rtakeWhile_imp hc
  unfold SplitResult.hostinfo
  dsimp only
  split
  · refine ⟨fun c hc => hinfo c ?_, Or.inl (not_mem_before _ _)⟩
    exact (List.dropWhile_sublist _).subset (List.mem_of_mem_tail
      ((List.takeWhile_sublist _).subset hc))
  · refine ⟨fun c hc => hinfo c ?_, Or.inr (not_mem_before _ _)⟩
    exact (List.takeWhile_sublist _).subset hc

/-- A host in lower case is the host of the URL in lower case. -/
theorem hostname_lowered (hhost : parsed.hostname net.lib = some host)
    (hascii : ∀ c ∈ parsed.netloc, c < 128) :
    host.map asciiLower = parsed.hostinfo.1.map asciiLower := by
  unfold SplitResult.hostname at hhost
  dsimp only at hhost
  split at hhost
  · cases hhost
  · obtain rfl := Option.some.inj hhost
    rw [net.lib.lower_ascii]
    · conv_rhs => rw [← List.takeWhile_append_dropWhile (p := (· != 37)) (l := parsed.hostinfo.1)]
      rw [List.map_append, List.map_append, List.map_map]
      congr 1
      exact List.map_congr_left fun c _ => asciiLower_idem c
    · intro c hc
      exact hascii c ((hostinfo_chars parsed).1 c ((List.takeWhile_sublist _).subset hc)).1

/-- **The host of an accepted URL can be rendered.** -/
theorem renderable_of (hplain : ∀ c ∈ url, 32 < c ∧ c < 127 ∧ c ≠ 63 ∧ c ≠ 35 ∧ c ≠ 92)
    (hurl : urlsplit net url = some parsed) (hhost : parsed.hostname net.lib = some host)
    (hcanonical : canonicalAsciiHostname host = some hostname) : Renderable hostname := by
  have hform := canonicalHost_of hcanonical
  have hnetloc := netloc_of_url hurl
  obtain ⟨hchars, hbracket⟩ := hostinfo_chars parsed
  have hlowered := hostname_lowered hhost fun c hc => by
    have := hplain c (hnetloc c hc).1
    omega
  have hsource : ∀ c ∈ host.map asciiLower,
      32 < c ∧ c < 127 ∧ c ≠ 63 ∧ c ≠ 35 ∧ c ≠ 92 ∧ c ≠ 47 ∧ c ≠ 64 := by
    intro c hc
    rw [hlowered] at hc
    obtain ⟨d, hd, rfl⟩ := List.mem_map.1 hc
    obtain ⟨hd, hat⟩ := hchars d hd
    obtain ⟨hmem, hchar⟩ := hnetloc d hd
    have hd := hplain d hmem
    simp only [isNetlocChar, Bool.and_eq_true, bne_iff_ne] at hchar
    unfold asciiLower
    grind
  obtain hname | ⟨hv6, hcolon, hhostColon, haddress⟩ := hform.form
  · have hname : ∀ c ∈ hostname, 32 < c ∧ c < 127 ∧ c ≠ 63 ∧ c ≠ 35 ∧ c ≠ 92 ∧ c ≠ 47 ∧ c ≠ 64 ∧
        c ≠ 93 ∧ c ≠ 58 ∧ c ≠ 91 := by
      intro c hc
      have := hname c hc
      unfold IsNameChar at this
      omega
    refine ⟨hform.nonempty, hform.lower, fun c hc => ?_, Or.inl ⟨fun hmem => ?_, fun hmem => ?_⟩⟩
    · have := hname c hc
      omega
    · have := hname 58 hmem
      omega
    · have := hname 91 hmem
      omega
  · have hclose : 93 ∉ host.map asciiLower := by
      rw [hlowered] at hhostColon ⊢
      have hback : ∀ c, c = 58 ∨ c = 93 → ∀ d, asciiLower d = c → d = c := by
        intro c hc d hd
        unfold asciiLower at hd
        grind
      intro hmem
      obtain ⟨d, hd, hlow⟩ := List.mem_map.1 hmem
      obtain ⟨e, he, hlow'⟩ := List.mem_map.1 hhostColon
      obtain rfl := hback 93 (by simp) d hlow
      obtain rfl := hback 58 (by simp) e hlow'
      obtain hno | hno := hbracket
      · exact hno hd
      · exact hno he
    refine ⟨hform.nonempty, hform.lower, fun c hc => ?_, Or.inr ⟨hcolon, hv6⟩⟩
    obtain hdigit | hdigit | hmem := haddress c hc
    · omega
    · omega
    · have := hsource c hmem
      refine ⟨this.1, this.2.1, this.2.2.1, this.2.2.2.1, this.2.2.2.2.1, this.2.2.2.2.2.1,
        this.2.2.2.2.2.2, ?_⟩
      rintro rfl
      exact hclose hmem

end accepted

/-! ## The origin again -/

section origins

variable {net : NetLib} {tables : IpTables} {env : GatewayEnv}
  {resolve : PyStr → Nat → Option (List (Option HostValue))} {allow : AllowPrivate}
  {url scheme host hostname : PyStr} {port : Option Nat} {parsed : SplitResult}
  {validated : ValidatedGatewayOrigin}

/-- `expected_port`. -/
def expectedPort (scheme : PyStr) : Nat := if scheme = py "https" then 443 else 80

/-- `_validate_gateway_origin` from the canonical host on. -/
def originOf (net : NetLib) (tables : IpTables) (env : GatewayEnv)
    (resolve : PyStr → Nat → Option (List (Option HostValue))) (allow : AllowPrivate)
    (scheme hostname : PyStr) (port : Option Nat) : Option ValidatedGatewayOrigin := do
  guard (hostname != py "localhost" && !(py ".localhost").isSuffixOf hostname)
  let allowPrivate ← allowPrivateOf net.lib env allow
  guard (scheme != py "https" || port = none || port = some 443)
  guard (scheme != py "http" || allowPrivate)
  let allowed ← hostRuleHolds net.lib env scheme hostname
  guard allowed
  let answers ← resolve hostname (portOr port (expectedPort scheme))
  let addresses ← answers.mapM fun answer => answer.bind HostValue.ipAddress
  guard (!addresses.isEmpty)
  guard (scheme != py "http" || (allowPrivate && addresses.all tables.isLoopback))
  guard (scheme != py "https" || addresses.all (isPublicGatewayAddress tables))
  pure {
    origin := scheme ++ py "://" ++ renderHost hostname ++ renderPort (expectedPort scheme) port
    scheme := scheme
    hostname := hostname
    port := portOr port (expectedPort scheme)
    addresses := (addresses.map IpAddress.str).eraseDups
  }

/-- Every character of a URL is printable, and none ends its path. -/
def isPlainUrl (url : PyStr) : Bool :=
  (!url.isEmpty && url.all fun c => 32 < c && c < 127) &&
    (!url.contains 63 && !url.contains 35 && !url.contains 92)

/-- A URL with a host and nothing behind it. -/
def isBare (parsed : SplitResult) : Bool :=
  !parsed.netloc.isEmpty && parsed.username.isNone && parsed.password.isNone
    && (parsed.path = [] || parsed.path = [47]) && parsed.query.isEmpty
    && parsed.fragment.isEmpty && (parsed.scheme.map asciiLower = py "http"
      || parsed.scheme.map asciiLower = py "https")

/-- The checks of a URL, and what the rest makes of its parts. -/
theorem validateGatewayOrigin_iff :
    validateGatewayOrigin net tables env resolve allow (.str url) = some validated ↔
      isPlainUrl url = true ∧ ∃ parsed host port hostname, urlsplit net url = some parsed ∧
        parsed.hostname net.lib = some host ∧ parsed.port = some port ∧ isBare parsed = true ∧
        canonicalAsciiHostname host = some hostname ∧
        originOf net tables env resolve allow (parsed.scheme.map asciiLower) hostname port =
          some validated := by
  constructor
  · intro h
    unfold validateGatewayOrigin at h
    obtain ⟨hfirst, h⟩ := guard_bind_iff.1 h
    obtain ⟨hsecond, h⟩ := guard_bind_iff.1 h
    obtain ⟨parsed, hparsed, h⟩ := Option.bind_eq_some_iff.1 h
    obtain ⟨host, hhost, h⟩ := Option.bind_eq_some_iff.1 h
    obtain ⟨port, hport, h⟩ := Option.bind_eq_some_iff.1 h
    obtain ⟨hbare, h⟩ := guard_bind_iff.1 h
    obtain ⟨hostname, hhostname, h⟩ := Option.bind_eq_some_iff.1 h
    refine ⟨?_, parsed, host, port, hostname, hparsed, hhost, hport, hbare, hhostname, h⟩
    rw [isPlainUrl, hfirst, hsecond]
    rfl
  · intro ⟨hplain, parsed, host, port, hostname, hparsed, hhost, hport, hbare, hhostname, h⟩
    obtain ⟨hfirst, hsecond⟩ := (Bool.and_eq_true _ _).mp hplain
    unfold validateGatewayOrigin
    refine guard_bind_iff.2 ⟨hfirst, guard_bind_iff.2 ⟨hsecond, ?_⟩⟩
    refine Option.bind_eq_some_iff.2 ⟨parsed, hparsed, ?_⟩
    refine Option.bind_eq_some_iff.2 ⟨host, hhost, ?_⟩
    refine Option.bind_eq_some_iff.2 ⟨port, hport, guard_bind_iff.2 ⟨hbare, ?_⟩⟩
    exact Option.bind_eq_some_iff.2 ⟨hostname, hhostname, h⟩

/-- The fields of an origin that do not depend on its addresses. -/
theorem originOf_fields
    (h : originOf net tables env resolve allow scheme hostname port = some validated) :
    validated.scheme = scheme ∧ validated.hostname = hostname ∧
      validated.origin =
        scheme ++ py "://" ++ (renderHost hostname ++ renderPort (expectedPort scheme) port) := by
  unfold originOf at h
  obtain ⟨-, h⟩ := guard_bind_iff.1 h
  obtain ⟨allowPrivate, -, h⟩ := Option.bind_eq_some_iff.1 h
  obtain ⟨-, h⟩ := guard_bind_iff.1 h
  obtain ⟨-, h⟩ := guard_bind_iff.1 h
  obtain ⟨allowed, -, h⟩ := Option.bind_eq_some_iff.1 h
  obtain ⟨-, h⟩ := guard_bind_iff.1 h
  obtain ⟨answers, -, h⟩ := Option.bind_eq_some_iff.1 h
  obtain ⟨addresses, -, h⟩ := Option.bind_eq_some_iff.1 h
  obtain ⟨-, h⟩ := guard_bind_iff.1 h
  obtain ⟨-, h⟩ := guard_bind_iff.1 h
  obtain ⟨-, h⟩ := guard_bind_iff.1 h
  obtain rfl := Option.some.inj h
  exact ⟨rfl, rfl, by simp⟩

/-- The default port makes no difference when it is left out. -/
theorem originOf_portRead :
    originOf net tables env resolve allow scheme hostname (portRead (expectedPort scheme) port) =
      originOf net tables env resolve allow scheme hostname port := by
  cases port with
  | none => rfl
  | some n =>
      by_cases hn : n = expectedPort scheme
      · have hguard : (scheme != py "https" || decide ((none : Option Nat) = none)
            || decide ((none : Option Nat) = some 443)) =
            (scheme != py "https" || decide ((some n : Option Nat) = none)
              || decide ((some n : Option Nat) = some 443)) := by
          by_cases hscheme : scheme = py "https"
          · have h443 : n = 443 := by rw [hn, expectedPort, if_pos hscheme]
            simp [h443]
          · have hother : (scheme != py "https") = true := bne_iff_ne.2 hscheme
            rw [hother]
            rfl
        have hport : portOr (some n) (expectedPort scheme) = portOr none (expectedPort scheme) := by
          subst hn
          unfold portOr
          split <;> simp_all
        have hrender : renderPort (expectedPort scheme) (some n) =
            renderPort (expectedPort scheme) none := if_pos hn
        rw [portRead, if_pos hn]
        unfold originOf
        rw [hguard, hport, hrender]
      · rw [portRead, if_neg hn]

/-- A port that is read is one. -/
theorem port_small (h : parsed.port = some port) : ∀ n ∈ port, n ≤ 65535 := by
  unfold SplitResult.port at h
  dsimp only at h
  intro n hn
  split at h
  · rw [← Option.some.inj h] at hn
    cases hn
  · split at h
    · rename_i hcond
      rw [← Option.some.inj h] at hn
      obtain rfl := Option.some.inj hn
      simp only [Bool.and_eq_true, decide_eq_true_eq] at hcond
      exact hcond.2
    · cases h

/-- An accepted origin in its parts. -/
structure OriginParts (validated : ValidatedGatewayOrigin) (port : Option Nat) : Prop where
  scheme : validated.scheme = py "http" ∨ validated.scheme = py "https"
  host : Renderable validated.hostname
  canonical : canonicalAsciiHostname validated.hostname = some validated.hostname
  small : ∀ n ∈ port, n ≤ 65535
  origin : validated.origin = validated.scheme ++ py "://" ++
    (renderHost validated.hostname ++ renderPort (expectedPort validated.scheme) port)

/-- A plain URL is visible ASCII without the delimiters of queries and
fragments. -/
theorem isPlainUrl_iff : isPlainUrl url = true ↔
    url ≠ [] ∧ ∀ c ∈ url, 32 < c ∧ c < 127 ∧ c ≠ 63 ∧ c ≠ 35 ∧ c ≠ 92 := by
  simp only [isPlainUrl, Bool.and_eq_true, Bool.not_eq_true', List.all_eq_true,
    decide_eq_true_eq, Bool.eq_false_iff, ne_eq, List.contains_iff_mem]
  grind

/-- **An accepted origin has its parts**, and is made of them. -/
theorem originParts_of
    (h : validateGatewayOrigin net tables env resolve allow (.str url) = some validated) :
    ∃ port, OriginParts validated port ∧
      originOf net tables env resolve allow validated.scheme validated.hostname port =
        some validated := by
  obtain ⟨hplain, parsed, host, port, hostname, hparsed, hhost, hport, hbare, hhostname, h⟩ :=
    validateGatewayOrigin_iff.1 h
  obtain ⟨hscheme, hname, horigin⟩ := originOf_fields h
  have hschemes : parsed.scheme.map asciiLower = py "http" ∨
      parsed.scheme.map asciiLower = py "https" := by
    simp only [isBare, Bool.and_eq_true, Bool.or_eq_true, decide_eq_true_eq] at hbare
    exact hbare.2
  rw [← hscheme] at hschemes h horigin
  subst hname
  exact ⟨port, ⟨hschemes, renderable_of (isPlainUrl_iff.1 hplain).2 hparsed hhost hhostname,
    (canonicalHost_of hhostname).again, port_small hport, horigin⟩, h⟩

/-- An origin has visible ASCII characters. -/
theorem OriginParts.chars (h : OriginParts validated port) :
    ∀ c ∈ validated.origin, 32 < c ∧ c < 127 ∧ c ≠ 63 ∧ c ≠ 35 ∧ c ≠ 92 := by
  have hscheme : ∀ c ∈ validated.scheme ++ py "://",
      32 < c ∧ c < 127 ∧ c ≠ 63 ∧ c ≠ 35 ∧ c ≠ 92 := by
    obtain hscheme | hscheme := h.scheme
    · rw [hscheme]
      decide
    · rw [hscheme]
      decide
  intro c hc
  rw [h.origin] at hc
  obtain hc | hc := List.mem_append.1 hc
  · exact hscheme c hc
  · have := netloc_chars h.host (isPortText_render _ port) c hc
    omega

/-- An accepted origin, whatever path follows it, in its parts. -/
theorem OriginParts.split (h : OriginParts validated port) (htakes : TakesHosts net)
    {path : PyStr} (hstart : S3Storage.Delimited path) (hpath : ∀ c ∈ path, c ≠ 63 ∧ c ≠ 35) :
    urlsplit net (validated.origin ++ path) = some ⟨validated.scheme,
      renderHost validated.hostname ++ renderPort (expectedPort validated.scheme) port,
      path, [], []⟩ := by
  rw [h.origin]
  exact urlsplit_rendered htakes h.scheme h.host (isPortText_render _ port) hstart hpath

/-- The result of `urlsplit` for an accepted origin. -/
def originSplit (validated : ValidatedGatewayOrigin) (port : Option Nat) : SplitResult :=
  ⟨validated.scheme,
    renderHost validated.hostname ++ renderPort (expectedPort validated.scheme) port, [], [], []⟩

/-- An origin is split into its own parts. -/
theorem OriginParts.self (h : OriginParts validated port) (htakes : TakesHosts net) :
    urlsplit net validated.origin = some (originSplit validated port) := by
  have hsplit := h.split htakes (fun c hc => absurd hc (by simp))
    (fun c hc => absurd hc List.not_mem_nil)
  rwa [List.append_nil] at hsplit

/-- The scheme is in lower case. -/
theorem OriginParts.lower (h : OriginParts validated port) :
    validated.scheme.map asciiLower = validated.scheme := by
  obtain hscheme | hscheme := h.scheme
  · rw [hscheme]
    decide
  · rw [hscheme]
    decide

/-- **A gateway origin is a fixed point.** -/
theorem validateGatewayOrigin_again (htakes : TakesHosts net)
    (h : validateGatewayOrigin net tables env resolve allow (.str url) = some validated) :
    validateGatewayOrigin net tables env resolve allow (.str validated.origin) =
      some validated := by
  obtain ⟨port, hparts, horigin⟩ := originParts_of h
  have hport := isPortText_render (expectedPort validated.scheme) port
  have hnonempty : validated.origin ≠ [] := by
    rw [hparts.origin, show py "://" = [58, 47, 47] by decide]
    simp
  have hnetloc : (originSplit validated port).netloc =
      renderHost validated.hostname ++ renderPort (expectedPort validated.scheme) port := rfl
  refine validateGatewayOrigin_iff.2 ⟨isPlainUrl_iff.2 ⟨hnonempty, hparts.chars⟩, _, _, _, _,
    hparts.self htakes, hostname_rendered hparts.host hport hnetloc,
    port_rendered hparts.host hparts.small hnetloc, ?_, hparts.canonical, ?_⟩
  · obtain ⟨husername, hpassword⟩ := userinfo_rendered hparts.host hport hnetloc
    have hhost : (originSplit validated port).netloc ≠ [] := by
      rw [hnetloc, renderHost]
      split
      · simp
      · simpa using fun hnone => absurd hnone hparts.host.nonempty
    unfold isBare
    rw [husername, hpassword, List.isEmpty_eq_false_iff.2 hhost]
    simpa [originSplit, hparts.lower] using hparts.scheme
  · rw [show (originSplit validated port).scheme.map asciiLower = validated.scheme from
      hparts.lower, originOf_portRead]
    exact horigin

end origins

end NotifySecurity
