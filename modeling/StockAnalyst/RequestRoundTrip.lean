import StockAnalyst.GatewayEnvelope
import StockAnalyst.X402Envelope
import StockAnalyst.Checks

/-!
# Requests across the bridge

Every envelope the gateway builds is accepted by the agent, and the agent's
application gets the request of the event: its method, path, body, allowed
headers and source address.
-/

namespace X402Lambda

open Python X402 Checks

variable {lib : Lib} {event : Event}

/-! ## Headers -/

/-- The value of an allowed header passed every check. -/
def Sound (e : PyStr × PyStr) : Prop :=
  e.1 ∈ allowedHeaders ∧ isHeaderValue e.2 = true ∧ latin1Encode e.2 = some e.2

variable (lib) in
/-- The value stands in the items under some spelling of the name. -/
def Carries (items : List (PyStr × Json)) (name value : PyStr) : Prop :=
  ∃ rawName, (rawName, .str value) ∈ items ∧ lib.net.lib.lower rawName = name

variable (lib) in
/-- What the headers of an event have been recorded as. -/
structure Recorded (items : List (PyStr × Json)) (headers : List (PyStr × PyStr)) : Prop where
  nodup : (headers.map (·.1)).Nodup
  sound : ∀ e ∈ headers, Sound e
  carried : ∀ name ∈ allowedHeaders, ∀ value,
    headers.lookup name = some value ↔ Carries lib items name value

/-- The allowed items of an entry of `multiValueHeaders`. -/
def singleItems (e : PyStr × Json) : List (PyStr × Json) :=
  match e.2 with
  | .arr [value] => [(e.1, value)]
  | _ => []

variable {items : List (PyStr × Json)} {headers headers' : List (PyStr × PyStr)}
  {rawName : PyStr} {value : Json}

/-- An accepted name is written in lower case. -/
theorem headerName_ok {name : PyStr} (h : headerName lib rawName = .ok name) :
    name = lib.net.lib.lower rawName ∧ isHeaderName name = true := by
  unfold headerName at h
  dsimp only at h
  split at h
  · rename_i hname
    obtain rfl := Except.ok.inj h
    exact ⟨rfl, hname⟩
  · cases h

/-- What Latin-1 can hold is its own bytes. -/
theorem latin1Encode_some {s : PyStr} (h : latin1Encode s ≠ none) : latin1Encode s = some s := by
  unfold latin1Encode at h ⊢
  grind

/-- What one header does to the dictionary. -/
theorem recordHeader_ok (h : recordHeader lib headers rawName value = .ok headers') :
    (lib.net.lib.lower rawName ∉ allowedHeaders ∧ headers' = headers) ∨
      ∃ text, value = .str text ∧ Sound (lib.net.lib.lower rawName, text) ∧
        (∀ old, headers.lookup (lib.net.lib.lower rawName) = some old → old = text) ∧
        headers' = dictSet headers (lib.net.lib.lower rawName) text := by
  unfold recordHeader at h
  obtain ⟨name, hname, h⟩ := bind_eq_ok h
  obtain ⟨rfl, -⟩ := headerName_ok hname
  by_cases hallowed : lib.net.lib.lower rawName ∈ allowedHeaders
  · right
    have hcontains : allowedHeaders.contains (lib.net.lib.lower rawName) = true :=
      List.contains_iff_mem.2 hallowed
    rw [hcontains, Bool.not_true, if_neg Bool.false_ne_true] at h
    cases value with
    | str text =>
        simp only [unless_error] at h
        obtain ⟨hvalue, -, hlatin, hsame, h⟩ := h
        refine ⟨text, rfl, ⟨hallowed, by simpa using hvalue, ?_⟩, ?_, (Except.ok.inj h).symm⟩
        · exact latin1Encode_some (by simpa [Option.isNone_iff_eq_none] using hlatin)
        · intro old hold
          rw [hold] at hsame
          simpa using hsame
    | _ => cases h
  · left
    have hcontains : allowedHeaders.contains (lib.net.lib.lower rawName) = false := by
      simpa using hallowed
    rw [hcontains, Bool.not_false, if_pos rfl] at h
    exact ⟨hallowed, (Except.ok.inj h).symm⟩

/-- Headers of two lists. -/
theorem carries_append {items' : List (PyStr × Json)} {name text : PyStr} :
    Carries lib (items ++ items') name text ↔
      Carries lib items name text ∨ Carries lib items' name text := by
  simp only [Carries, List.mem_append, or_and_right, exists_or]

/-- A list of one header carries that one. -/
theorem carries_singleton {name text : PyStr} :
    Carries lib [(rawName, value)] name text ↔
      lib.net.lib.lower rawName = name ∧ value = .str text := by
  simp only [Carries, List.mem_singleton, Prod.mk.injEq]
  constructor
  · intro h
    obtain ⟨raw, ⟨rfl, rfl⟩, hlower⟩ := h
    exact ⟨hlower, rfl⟩
  · intro h
    exact ⟨rawName, ⟨rfl, h.2.symm⟩, h.1⟩

/-- An item under another name changes nothing. -/
theorem Recorded.other (h : Recorded lib items headers)
    (hother : lib.net.lib.lower rawName ∉ allowedHeaders) :
    Recorded lib (items ++ [(rawName, value)]) headers := by
  refine ⟨h.nodup, h.sound, ?_⟩
  intro name hname text
  rw [h.carried name hname text, carries_append, carries_singleton]
  constructor
  · exact Or.inl
  · intro hcarries
    obtain hcarries | ⟨rfl, -⟩ := hcarries
    · exact hcarries
    · exact absurd hname hother

/-- One header recorded. -/
theorem Recorded.record (h : Recorded lib items headers)
    (hrecord : recordHeader lib headers rawName value = .ok headers') :
    Recorded lib (items ++ [(rawName, value)]) headers' := by
  obtain ⟨hother, rfl⟩ | ⟨text, rfl, hsound, hsame, rfl⟩ := recordHeader_ok hrecord
  · exact h.other hother
  · refine ⟨nodup_dictSet h.nodup, ?_, ?_⟩
    · intro e he
      cases mem_dictSet he with
      | inl hold => exact h.sound e hold
      | inr hnew => exact hnew ▸ hsound
    · intro name hname text'
      rw [lookup_dictSet, carries_append, carries_singleton, ← h.carried name hname text']
      by_cases hkey : name = lib.net.lib.lower rawName
      · subst hkey
        rw [if_pos rfl, Option.some.injEq, Json.str.injEq]
        constructor
        · intro heq
          exact Or.inr ⟨rfl, heq⟩
        · intro hcarries
          obtain hold | ⟨-, heq⟩ := hcarries
          · exact (hsame text' hold).symm
          · exact heq
      · rw [if_neg hkey]
        constructor
        · exact Or.inl
        · intro hcarries
          obtain hold | ⟨heq, -⟩ := hcarries
          · exact hold
          · exact absurd heq.symm hkey

/-- One entry of `multiValueHeaders` recorded. -/
theorem Recorded.single {values : Json} (h : Recorded lib items headers)
    (hrecord : recordSingle lib headers rawName values = .ok headers') :
    Recorded lib (items ++ singleItems (rawName, values)) headers' := by
  unfold recordSingle at hrecord
  obtain ⟨name, hname, hrecord⟩ := bind_eq_ok hrecord
  obtain ⟨rfl, -⟩ := headerName_ok hname
  by_cases hallowed : lib.net.lib.lower rawName ∈ allowedHeaders
  · have hcontains : allowedHeaders.contains (lib.net.lib.lower rawName) = true :=
      List.contains_iff_mem.2 hallowed
    rw [hcontains, Bool.not_true, if_neg Bool.false_ne_true] at hrecord
    split at hrecord
    · exact h.record hrecord
    · cases hrecord
  · have hcontains : allowedHeaders.contains (lib.net.lib.lower rawName) = false := by
      simpa using hallowed
    rw [hcontains, Bool.not_false, if_pos rfl] at hrecord
    obtain rfl := Except.ok.inj hrecord
    unfold singleItems
    split
    · exact h.other hallowed
    · rwa [List.append_nil]

/-- The items of a mapping. -/
def itemList : Option Json → List (PyStr × Json)
  | some (.obj items) => items
  | _ => []

/-- The items of `headers` and of `multiValueHeaders`. -/
def headerItems (event : Event) : List (PyStr × Json) :=
  itemList (dictGet event (py "headers")) ++
    (itemList (dictGet event (py "multiValueHeaders"))).flatMap singleItems

/-- Accepted headers are read as their items. -/
theorem itemsOf_ok {value : Option Json} (h : itemsOf value = .ok items) :
    itemList value = items := by
  unfold itemsOf at h
  split at h
  · exact Except.ok.inj h
  · rename_i hnot
    split at h
    · cases h
    · rw [← Except.ok.inj h]
      unfold itemList
      split
      · exact absurd rfl (hnot _)
      · rfl

/-- The entries with several values are recorded value by value. -/
theorem Recorded.singles (entries : List (PyStr × Json)) (h : Recorded lib items headers)
    (hrecord : entries.foldlM (fun headers e => recordSingle lib headers e.1 e.2) headers =
      .ok headers') :
    Recorded lib (items ++ entries.flatMap singleItems) headers' := by
  refine foldlM_ok (fun seen headers => Recorded lib (items ++ seen.flatMap singleItems) headers)
    ?_ (by simpa using h) hrecord
  intro seen b a b' hb hstep
  have hnext := hb.single hstep
  simpa [List.flatMap_append] using hnext

/-- The dictionary of headers carries what the event carries. -/
theorem allowedHeadersOf_ok (h : allowedHeadersOf lib (dictGet event (py "headers"))
      (dictGet event (py "multiValueHeaders")) = .ok headers) :
    Recorded lib (headerItems event) headers := by
  unfold allowedHeadersOf at h
  obtain ⟨raws, hraws, h⟩ := bind_eq_ok h
  obtain ⟨first, hfirst, h⟩ := bind_eq_ok h
  have hempty : Recorded lib [] [] := by
    refine ⟨List.nodup_nil, by simp, ?_⟩
    intro name hname text
    simp [Carries]
  have hrecorded : Recorded lib raws first := by
    have hloop := foldlM_ok (fun seen headers => Recorded lib seen headers)
      (fun seen b a b' hb hstep => hb.record hstep) hempty hfirst
    simpa using hloop
  have hsingle : itemList (dictGet event (py "headers")) = raws := itemsOf_ok hraws
  unfold headerItems
  rw [hsingle]
  split at h
  · rename_i hmulti
    obtain rfl := Except.ok.inj h
    simpa [hmulti, itemList] using hrecorded
  · rename_i hmulti
    obtain rfl := Except.ok.inj h
    simpa [hmulti, itemList] using hrecorded
  · rename_i hmulti
    rw [hmulti]
    exact hrecorded.singles _ h
  · cases h

/-! ## The envelope read back -/

/-- Hexadecimal text is in lower case. -/
theorem toHex_lower {bs : List Nat} (h : ∀ b ∈ bs, b < 256) :
    (toHex bs).all isLowerHex = true := by
  rw [List.all_eq_true]
  intro c hc
  simpa [isLowerHex] using toHex_range h c hc

/-- A digest with its prefix is a request id. -/
theorem isRequestId_digest (message : List Nat) :
    isRequestId (py "x402gw_" ++ toHex (lib.sha256 message)) = true := by
  obtain ⟨hlength, hbytes⟩ := lib.sha256_digest message
  have hcount : (toHex (lib.sha256 message)).length = 64 := by
    rw [length_toHex, hlength]
  have hhead : (py "x402gw_").length = 7 := by decide
  have hdrop : (py "x402gw_" ++ toHex (lib.sha256 message)).drop 7 =
      toHex (lib.sha256 message) := @List.drop_left _ (py "x402gw_") _
  have hstart : PyStr.startsWith (py "x402gw_" ++ toHex (lib.sha256 message))
      (py "x402gw_") = true := List.isPrefixOf_iff_prefix.2 (List.prefix_append _ _)
  unfold isRequestId
  rw [List.length_append, hhead, hcount, hdrop, hstart, toHex_lower hbytes]
  rfl

/-- Allowed headers are names that the agent takes. -/
theorem isHeaderName_allowed {name : PyStr} (h : name ∈ allowedHeaders) :
    isHeaderName name = true ∧ requestHeaders.contains name = true := by
  have hall : ∀ name ∈ allowedHeaders,
      isHeaderName name = true ∧ requestHeaders.contains name = true := by decide
  exact hall name h

/-- The agent takes a sound header as it is. -/
theorem validateRequestHeader_sound {e : PyStr × PyStr} (h : Sound e) :
    validateRequestHeader e.1 (.str e.2) = .ok e := by
  obtain ⟨hname, hvalue, hlatin⟩ := h
  obtain ⟨hshape, hknown⟩ := isHeaderName_allowed hname
  simp [validateRequestHeader, hshape, List.contains_iff_mem.1 hknown, hvalue,
    isHeaderName_ascii hshape, hlatin]

/-- The agent takes sound headers as they are. -/
theorem validateRequestHeaders_sound (h : ∀ e ∈ headers, Sound e) :
    validateRequestHeaders (.obj (headers.map fun e => (e.1, .str e.2))) = .ok headers := by
  have hall := mapM_ok (g := id) fun e he => validateRequestHeader_sound (h e he)
  rw [List.map_id] at hall
  rw [validateRequestHeaders, List.mapM_map]
  exact hall

/-- The agent decodes the body that was sent. -/
theorem decodeRequestBody_encode {body : List Nat} (hbytes : ∀ b ∈ body, b < 256)
    (hlength : body.length ≤ maxRequestBytes) :
    decodeRequestBody (.str (base64Encode body)) = .ok body := by
  simp only [decodeRequestBody, base64Decode_encode hbytes]
  exact if_neg (not_lt.2 hlength)

/-- The agent reads back the request an envelope was made of. -/
theorem validateRequest_envelopeOf {method path sourceIp base expected : PyStr} {body : List Nat}
    (hroute : isRoute method path = true) (hsource : lib.net.compressed sourceIp = some sourceIp)
    (hbase : publicBase lib.net (.str base) = some base)
    (hexpected : publicBase lib.net (.str expected) = some base)
    (hbytes : ∀ b ∈ body, b < 256) (hlength : body.length ≤ maxRequestBytes)
    (hget : ¬ (method = py "GET" && !body.isEmpty)) (hheaders : ∀ e ∈ headers, Sound e) :
    validateRequest lib.net (.obj (envelopeOf lib method path [] sourceIp base headers body))
      expected = .ok ⟨py "x402gw_" ++ toHex (lib.sha256 (digestInput method path [] headers body)),
        method, path, [], headers, body, base, some sourceIp⟩ := by
  let envelope := envelopeOf lib method path [] sourceIp base headers body
  have hfields : envelopeFields (.obj envelope) = .ok envelope := rfl
  have hversion : validateVersion (field envelope (py "version")) = .ok () := rfl
  have hid : validateRequestId (field envelope (py "requestId")) = .ok (py "x402gw_" ++
      toHex (lib.sha256 (digestInput method path [] headers body))) :=
    if_pos (isRequestId_digest _)
  have hours : validatePublicBaseUrl lib.net (.str expected) = .ok base := by
    rw [validatePublicBaseUrl, hexpected]
  have htheirs : validatePublicBaseUrl lib.net (field envelope (py "publicBaseUrl")) =
      .ok base := by
    rw [show field envelope (py "publicBaseUrl") = .str base from rfl, validatePublicBaseUrl, hbase]
  have hallowed : validateRoute (field envelope (py "method")) (field envelope (py "path")) =
      .ok (method, path) := if_pos hroute
  have hquery : validateQueryString (field envelope (py "queryString")) = .ok [] := rfl
  have hbody : decodeRequestBody (field envelope (py "bodyBase64")) = .ok body :=
    decodeRequestBody_encode hbytes hlength
  have hlist : validateRequestHeaders (field envelope (py "headers")) = .ok headers :=
    validateRequestHeaders_sound hheaders
  have hip : sourceIpOf lib.net (dictGet envelope (py "sourceIp")) = .ok (some sourceIp) := by
    rw [show dictGet envelope (py "sourceIp") = some (.str sourceIp) from rfl, sourceIpOf,
      validateSourceIp, hsource]
    rfl
  change validateRequest lib.net (.obj envelope) expected = _
  clear_value envelope
  simp only [validateRequest, bind, Except.bind, hfields, hversion, hid, hours, htheirs,
    ne_eq, not_true_eq_false, if_false, hallowed, hquery, hbody, if_neg hget, hlist, hip]
  rfl

/-! ## The event an envelope was built from -/

/-- UTF-8 is made of bytes. -/
theorem utf8Char_bytes {c : Nat} {bs : List Nat} (hc : c < 0x110000) (h : utf8Char c = some bs) :
    ∀ b ∈ bs, b < 256 := by
  unfold utf8Char at h
  grind

/-- The UTF-8 of a text is made of bytes. -/
theorem utf8Encode_bytes {s : PyStr} {bs : List Nat} (hs : ∀ c ∈ s, c < 0x110000)
    (h : utf8Encode s = some bs) : ∀ b ∈ bs, b < 256 := by
  induction s generalizing bs with
  | nil =>
      obtain rfl := Option.some.inj h
      simp
  | cons c s ih =>
      obtain ⟨hc, htail⟩ := List.forall_mem_cons.1 hs
      obtain ⟨first, hfirst, h⟩ := Option.bind_eq_some_iff.1 h
      obtain ⟨rest, hrest, rfl⟩ := Option.map_eq_some_iff.1 h
      intro b hb
      cases List.mem_append.1 hb with
      | inl hb => exact utf8Char_bytes hc hfirst b hb
      | inr hb => exact ih htail hrest b hb

/-- A body is made of bytes. -/
theorem bodyBytes_bytes {encoded : Bool} {value : Option Json} {body : List Nat}
    (h : bodyBytes encoded value = .ok body) : ∀ b ∈ body, b < 256 := by
  unfold bodyBytes at h
  split at h
  · simp [← Except.ok.inj h]
  · simp [← Except.ok.inj h]
  · split at h
    · split at h
      · rename_i hdecode
        obtain rfl := Except.ok.inj h
        exact base64Decode_bytes hdecode
      · cases h
    · split at h
      · rename_i hencode
        obtain rfl := Except.ok.inj h
        obtain ⟨hpoints, hencode⟩ := Option.ite_none_right_eq_some.1 hencode
        exact utf8Encode_bytes (by simpa using hpoints) hencode
      · cases h
  · cases h

/-- An accepted body is made of bytes and within the limit. -/
theorem decodeBody_ok {body : List Nat} (h : decodeBody event = .ok body) :
    (∀ b ∈ body, b < 256) ∧ body.length ≤ maxBodyBytes := by
  unfold decodeBody at h
  obtain ⟨encoded, -, h⟩ := bind_eq_ok h
  obtain ⟨bytes, hbytes, h⟩ := bind_eq_ok h
  obtain ⟨hroom, h⟩ := unless_error.1 h
  obtain rfl := Except.ok.inj h
  exact ⟨bodyBytes_bytes hbytes, not_lt.1 hroom⟩

/-- What an envelope was built of. -/
structure Parts (lib : Lib) (event : Event) (publicBaseUrl : PyStr) where
  method : PyStr
  path : PyStr
  sourceIp : PyStr
  base : PyStr
  headers : List (PyStr × PyStr)
  body : List Nat
  route : validatedRoute event = .ok (method, path)
  source : trustedSourceIp lib event = .ok sourceIp
  publicBase : publicBase lib.net (.str publicBaseUrl) = some base
  decoded : decodeBody event = .ok body
  bodiless : ¬ (method = py "GET" && !body.isEmpty)
  recorded : Recorded lib (headerItems event) headers

/-- The checks an envelope was built after. -/
theorem buildEnvelope_ok {publicBaseUrl : PyStr} {envelope : List (PyStr × Json)}
    (h : buildEnvelope lib event publicBaseUrl = .ok envelope) :
    ∃ method path sourceIp base headers body,
      validatedRoute event = .ok (method, path) ∧ trustedSourceIp lib event = .ok sourceIp ∧
      validatedQuery event = .ok [] ∧ decodeBody event = .ok body ∧
      ¬ (method = py "GET" && !body.isEmpty) ∧
      allowedHeadersOf lib (dictGet event (py "headers"))
        (dictGet event (py "multiValueHeaders")) = .ok headers ∧
      publicBase lib.net (.str publicBaseUrl) = some base ∧
      envelope = envelopeOf lib method path [] sourceIp base headers body := by
  unfold buildEnvelope at h
  obtain ⟨⟨method, path⟩, hroute, h⟩ := bind_eq_ok h
  obtain ⟨sourceIp, hsource, h⟩ := bind_eq_ok h
  obtain ⟨query, hquery, h⟩ := bind_eq_ok h
  obtain ⟨body, hbody, h⟩ := bind_eq_ok h
  obtain ⟨hget, h⟩ := unless_error.1 h
  obtain ⟨headers, hheaders, h⟩ := bind_eq_ok h
  obtain ⟨base, hbase, h⟩ := bind_eq_ok h
  have hempty : query = [] := by
    unfold validatedQuery at hquery
    split at hquery
    · exact (Except.ok.inj hquery).symm
    · cases hquery
  have hpublic : publicBase lib.net (.str publicBaseUrl) = some base := by
    unfold validatePublicBase at hbase
    split at hbase
    · rename_i hsome
      rw [hsome, Except.ok.inj hbase]
    · cases hbase
  subst hempty
  exact ⟨method, path, sourceIp, base, headers, body, hroute, hsource, hquery, hbody, hget,
    hheaders, hpublic, (Except.ok.inj h).symm⟩

/-- **An envelope is its parts**, each one checked. -/
theorem buildEnvelope_parts {publicBaseUrl : PyStr} {envelope : List (PyStr × Json)}
    (h : buildEnvelope lib event publicBaseUrl = .ok envelope) :
    ∃ p : Parts lib event publicBaseUrl,
      envelope = envelopeOf lib p.method p.path [] p.sourceIp p.base p.headers p.body := by
  obtain ⟨method, path, sourceIp, base, headers, body, hroute, hsource, -, hbody, hget, hheaders,
    hpublic, rfl⟩ := buildEnvelope_ok h
  exact ⟨⟨method, path, sourceIp, base, headers, body, hroute, hsource, hpublic, hbody, hget,
    allowedHeadersOf_ok hheaders⟩, rfl⟩

/-- An accepted route is one of the routes. -/
theorem validatedRoute_ok {method path : PyStr} (h : validatedRoute event = .ok (method, path)) :
    isRoute method path = true := by
  unfold validatedRoute at h
  split at h
  · dsimp only at h
    split at h
    · rename_i hroute
      obtain ⟨rfl, rfl⟩ := Prod.mk.inj (Except.ok.inj h)
      exact hroute
    · cases h
  · cases h

/-- A trusted address is the canonical text of the caller's. -/
theorem trustedSourceIp_ok {ip : PyStr} (h : trustedSourceIp lib event = .ok ip) :
    ∃ value, lib.net.compressed value = some ip := by
  unfold trustedSourceIp at h
  split at h
  · rename_i value _
    split at h
    · rename_i hip
      exact ⟨value, by rw [hip, Except.ok.inj h]⟩
    · cases h
  · cases h

/-! ## The round trip -/

variable (lib event) in
/-- An ASGI request is the request of an event. -/
structure SameRequest (publicBaseUrl : PyStr) (r : AsgiRequest) : Prop where
  route : validatedRoute event = .ok (r.method, r.path)
  rawPath : r.rawPath = r.path
  query : r.queryString = []
  body : decodeBody event = .ok r.body
  names : ∀ e ∈ r.headers, e.1 ∈ allowedHeaders
  once : (r.headers.map (·.1)).Nodup
  values : ∀ name ∈ allowedHeaders, ∀ bytes, (name, bytes) ∈ r.headers ↔
    ∃ value, Carries lib (headerItems event) name value ∧ latin1Encode value = some bytes
  sourceIp : ∃ ip, trustedSourceIp lib event = .ok ip ∧ r.x402SourceIp = some ip
  base : publicBase lib.net (.str publicBaseUrl) = some r.x402PublicBaseUrl

/-- The recorded headers are those that the event carries. -/
theorem Recorded.values (h : Recorded lib items headers) {name : PyStr}
    (hname : name ∈ allowedHeaders) (bytes : List Nat) :
    (name, bytes) ∈ headers ↔
      ∃ value, Carries lib items name value ∧ latin1Encode value = some bytes := by
  rw [mem_iff_lookup h.nodup]
  constructor
  · intro hlookup
    have hsound := h.sound _ (mem_of_lookup hlookup)
    exact ⟨bytes, (h.carried name hname bytes).1 hlookup, hsound.2.2⟩
  · intro hcarries
    obtain ⟨value, hcarries, hlatin⟩ := hcarries
    have hlookup := (h.carried name hname value).2 hcarries
    have hsound := h.sound _ (mem_of_lookup hlookup)
    rw [hlookup, ← hlatin, hsound.2.2]

/-- **Requests cross the bridge unchanged.**  The agent, configured with the
same public base, accepts every envelope the gateway builds, and its
application gets the request of the event. -/
theorem request_round_trip
    (hip : ∀ value ip, lib.net.compressed value = some ip → lib.net.compressed ip = some ip)
    {publicBaseUrl expected : PyStr} {envelope : List (PyStr × Json)}
    (hexpected : expected = publicBaseUrl ∨
      validatePublicBaseUrl lib.net (.str publicBaseUrl) = .ok expected)
    (h : buildEnvelope lib event publicBaseUrl = .ok envelope) :
    ∃ request, validateRequest lib.net (.obj envelope) expected = .ok request ∧
      SameRequest lib event publicBaseUrl request.asgi := by
  obtain ⟨p, rfl⟩ := buildEnvelope_parts h
  obtain ⟨value, hvalue⟩ := trustedSourceIp_ok p.source
  obtain ⟨hbytes, hlength⟩ := decodeBody_ok p.decoded
  have hbase := publicBase_again p.publicBase
  have hsame : publicBase lib.net (.str expected) = some p.base := by
    obtain rfl | hagent := hexpected
    · exact p.publicBase
    · rw [validatePublicBaseUrl, p.publicBase] at hagent
      rw [← Except.ok.inj hagent]
      exact hbase
  refine ⟨_, validateRequest_envelopeOf (validatedRoute_ok p.route) (hip value _ hvalue) hbase
    hsame hbytes hlength p.bodiless p.recorded.sound, ?_⟩
  exact ⟨p.route, rfl, rfl, p.decoded, fun e he => (p.recorded.sound e he).1, p.recorded.nodup,
    fun name hname => p.recorded.values hname, ⟨p.sourceIp, p.source, rfl⟩, p.publicBase⟩

/-- Python's libraries on the texts of one request. -/
def sampleLib : Lib where
  net :=
    { lib := asciiLib
      compressed := fun value => if value = py "203.0.113.9" then some value else none
      checkNetloc := fun _ => true }
  sha256 := fun _ =>
    [232, 7, 253, 193, 255, 140, 174, 2, 246, 197, 255, 172, 60, 76, 186, 17, 186, 90, 237, 5,
      216, 179, 129, 63, 81, 2, 36, 140, 64, 211, 199, 244]
  sha256_digest := fun _ => by decide

/-- A paid request as API Gateway hands it over. -/
def sampleEvent : Event :=
  [(py "httpMethod", .str (py "POST")),
   (py "path", .str (py "/mainnet/x402/analyze/async")),
   (py "headers", .obj
     [(py "Content-Type", .str (py "application/json")),
      (py "PAYMENT-SIGNATURE", .str (py "c2ln")),
      (py "User-Agent", .str (py "curl"))]),
   (py "multiValueHeaders", .obj
     [(py "content-type", .arr [.str (py "application/json")])]),
   (py "queryStringParameters", .null),
   (py "requestContext", .obj
     [(py "domainName", .str (py "abcdefghij.execute-api.us-east-1.amazonaws.com")),
      (py "stage", .str (py "mainnet")),
      (py "identity", .obj [(py "sourceIp", .str (py "203.0.113.9"))])]),
   (py "body", .str (py "e30=")),
   (py "isBase64Encoded", .bool true)]

theorem request_round_trip_post : ∃ envelope request,
    buildEnvelope sampleLib sampleEvent (py "https://x402.example/") = .ok envelope ∧
    validateRequest sampleLib.net (.obj envelope) (py "https://x402.example") = .ok request ∧
    SameRequest sampleLib sampleEvent (py "https://x402.example/") request.asgi := by
  have hip : ∀ value ip, sampleLib.net.compressed value = some ip →
      sampleLib.net.compressed ip = some ip := by
    intro value ip h
    obtain ⟨rfl, heq⟩ := Option.ite_none_right_eq_some.1 h
    rw [← Option.some.inj heq]
    rfl
  have hbuilt : ∃ envelope, buildEnvelope sampleLib sampleEvent (py "https://x402.example/") =
      .ok envelope := ⟨_, rfl⟩
  obtain ⟨envelope, henvelope⟩ := hbuilt
  obtain ⟨request, haccepted, hsame⟩ := request_round_trip hip
    (Or.inr (by rfl : validatePublicBaseUrl sampleLib.net (.str (py "https://x402.example/")) =
      .ok (py "https://x402.example"))) henvelope
  exact ⟨envelope, request, henvelope, haccepted, hsame⟩

end X402Lambda
