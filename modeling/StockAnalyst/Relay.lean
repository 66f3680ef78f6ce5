import StockAnalyst.JsText
import Mathlib.Algebra.BigOperators.Group.List.Basic

/-!
# The payload relay of the buyer

The request handler of the reverse gateway: uploads into pages of memory under
byte and slot quotas, and downloads of what was stored.  The variables of the
handler and of each upload's closure are one state, and the events of the
requests are its steps.
-/

namespace Gateway

open Js

/-! ## State -/

structure RelayLimits where
  maxPayloadBytes : Nat
  maxRelayBytes : Nat
  maxPayloads : Nat

/-- `MAX_PAYLOAD_SEGMENTS`. -/
def maxPayloadSegments : Nat := 32

/-- `segmentBytes`: the limit divided into pages, rounded up. -/
def RelayLimits.segmentBytes (limits : RelayLimits) : Nat :=
  max 1 ((limits.maxPayloadBytes + (maxPayloadSegments - 1)) / maxPayloadSegments)

/-- A page of memory; a byte that was not written is `none`. -/
abbrev Buffer := List (Option UInt8)

/-- `Buffer.allocUnsafeSlow`. -/
def allocUnsafeSlow (bytes : Nat) : Buffer := List.replicate bytes none

/-- The variables of one upload. -/
structure Upload where
  segments : List Buffer
  receivedBytes : Nat
  reservedAllocatedBytes : Nat
  dataEvents : Nat
  writeSegment : Nat
  writeOffset : Nat
  terminal : Bool
  released : Bool
  /-- How often `release` got past its guard; the source does not count it. -/
  releases : Nat

/-- A stored payload.  Its segments are the array of an upload. -/
structure StoredPayload where
  allocatedBytes : Nat
  byteLength : Nat
  segments : Nat

/-- The variables of the handler. -/
structure Relay where
  payloads : List (JsStr × StoredPayload)
  uploads : List Upload
  storedAllocatedBytes : Int
  inFlightAllocatedBytes : Int
  activeUploads : Int

def Relay.empty : Relay := ⟨[], [], 0, 0, 0⟩

/-- `payloads.has`. -/
def Relay.has (s : Relay) (id : JsStr) : Bool := s.payloads.any (·.1 = id)

/-- `payloads.get`. -/
def Relay.get (s : Relay) (id : JsStr) : Option StoredPayload :=
  (s.payloads.find? (·.1 = id)).map (·.2)

/-! ## Answers -/

structure PayloadStorageObservation where
  allocatedBytes : Nat
  byteLength : Nat
  dataEvents : Nat
  segmentCount : Nat

/-- What a request is answered. -/
inductive Answer where
  | health
  | unauthorized
  | notFound
  | uploadError (status : Nat) (code message : String)
  | stored (id : JsStr) (size : Nat) (observation : PayloadStorageObservation)
  | payload (contentLength : Nat) (body : Buffer)
  | noRoute

/-- `sendUploadError`: nothing is sent on a dead connection. -/
def sendUploadError (alive : Bool) (status : Nat) (code message : String) :
    Option Answer :=
  if alive then some (.uploadError status code message) else none

/-! ## One upload -/

/-- The state while a callback of one upload runs, and its answer. -/
structure Turn where
  relay : Relay
  upload : Upload
  answer : Option Answer

/-- `release`. -/
def release (s : Relay) (u : Upload) (committed : Bool) : Relay × Upload :=
  if u.released then (s, u)
  else
    ({ s with
        inFlightAllocatedBytes := s.inFlightAllocatedBytes - u.reservedAllocatedBytes
        activeUploads := s.activeUploads - 1
        storedAllocatedBytes :=
          if committed then s.storedAllocatedBytes + u.reservedAllocatedBytes
          else s.storedAllocatedBytes },
      { u with
        released := true
        segments := if committed then u.segments else []
        releases := u.releases + 1 })

/-- `rejectUpload`. -/
def rejectUpload (s : Relay) (u : Upload) (alive : Bool) (status : Nat)
    (code message : String) : Turn :=
  if u.terminal then ⟨s, u, none⟩
  else
    let (s, u) := release s { u with terminal := true } false
    ⟨s, u, sendUploadError alive status code message⟩

/-- What `ensureRetainedCapacity` leaves behind. -/
structure Capacity where
  retained : Bool
  inFlight : Int
  upload : Upload

/-- The loop of `ensureRetainedCapacity`, with as many passes as may be needed.
`alloc n` says whether memory for the page with number `n` is found. -/
def allocate (limits : RelayLimits) (target : Nat) (alloc : Nat → Bool) :
    Nat → Int → Upload → Capacity
  | 0, inFlight, u => ⟨true, inFlight, u⟩
  | passes + 1, inFlight, u =>
      if u.reservedAllocatedBytes < target then
        let next := min limits.segmentBytes
          (limits.maxPayloadBytes - u.reservedAllocatedBytes)
        if next = 0 then ⟨false, inFlight, u⟩
        else
          let u := { u with reservedAllocatedBytes := u.reservedAllocatedBytes + next }
          if alloc u.segments.length then
            allocate limits target alloc passes (inFlight + next)
              { u with segments := u.segments ++ [allocUnsafeSlow next] }
          else ⟨false, inFlight + next, u⟩
      else ⟨true, inFlight, u⟩

/-- The bytes reserved for a payload of `bytes` bytes: whole pages, up to the
payload limit. -/
def RelayLimits.targetAllocatedBytes (limits : RelayLimits) (bytes : Nat) : Nat :=
  if bytes = 0 then 0
  else min limits.maxPayloadBytes
    ((bytes + (limits.segmentBytes - 1)) / limits.segmentBytes * limits.segmentBytes)

/-- `ensureRetainedCapacity`. -/
def ensureRetainedCapacity (limits : RelayLimits) (s : Relay) (u : Upload)
    (targetBytes : Nat) (alloc : Nat → Bool) : Capacity :=
  let target := limits.targetAllocatedBytes targetBytes
  if limits.maxRelayBytes - s.storedAllocatedBytes - s.inFlightAllocatedBytes <
      (target : Int) - u.reservedAllocatedBytes then
    ⟨false, s.inFlightAllocatedBytes, u⟩
  else
    allocate limits target alloc (target - u.reservedAllocatedBytes)
      s.inFlightAllocatedBytes u

/-- `chunk.copy(segment, offset, ..)` of all the bytes. -/
def Buffer.write (segment : Buffer) (offset : Nat) (bytes : List UInt8) : Buffer :=
  segment.take offset ++ bytes.map some ++ segment.drop (offset + bytes.length)

/-- The copy loop of a `data` event, with the passes that remain: whether every
byte found its page; nothing where the loop does not end. -/
def copyChunk : Nat → Upload → List UInt8 → Option (Bool × Upload)
  | _, u, [] => some (true, u)
  | 0, _, _ :: _ => none
  | passes + 1, u, chunk =>
      match u.segments[u.writeSegment]? with
      | none => some (false, u)
      | some segment =>
          let copied := min chunk.length (segment.length - u.writeOffset)
          let u := { u with
            segments := u.segments.set u.writeSegment
              (Buffer.write segment u.writeOffset (chunk.take copied))
            writeOffset := u.writeOffset + copied }
          let u := if u.writeOffset = segment.length then
              { u with writeSegment := u.writeSegment + 1, writeOffset := 0 }
            else u
          copyChunk passes u (chunk.drop copied)

/-- The listener of `data`. -/
def onData (limits : RelayLimits) (s : Relay) (u : Upload) (chunk : List UInt8)
    (alloc : Nat → Bool) (alive : Bool) : Option Turn :=
  if u.terminal then some ⟨s, u, none⟩
  else
    let u := { u with dataEvents := u.dataEvents + 1 }
    let nextReceivedBytes := u.receivedBytes + chunk.length
    if limits.maxPayloadBytes < nextReceivedBytes then
      some (rejectUpload s u alive 413 "PAYLOAD_TOO_LARGE" "Payload exceeds byte limit")
    else
      let capacity := ensureRetainedCapacity limits s u nextReceivedBytes alloc
      let s := { s with inFlightAllocatedBytes := capacity.inFlight }
      let u := capacity.upload
      if !capacity.retained then
        some (rejectUpload s u alive 507 "INSUFFICIENT_STORAGE" "Relay byte limit reached")
      else (copyChunk chunk.length u chunk).map fun (found, u) =>
        if found then ⟨s, { u with receivedBytes := nextReceivedBytes }, none⟩
        else rejectUpload s u alive 507 "INSUFFICIENT_STORAGE" "Relay byte limit reached"

/-- The listener of `end`.  `ids` is what the id factory returns; nothing where
every id it returns is taken. -/
def onEnd (s : Relay) (number : Nat) (u : Upload) (ids : List JsStr) : Option Turn :=
  if u.terminal then some ⟨s, u, none⟩
  else (ids.find? (fun id => !s.has id)).map fun id =>
    let payload : StoredPayload := ⟨u.reservedAllocatedBytes, u.receivedBytes, number⟩
    let s := { s with payloads := s.payloads ++ [(id, payload)] }
    let (s, u) := release s { u with terminal := true } true
    ⟨s, u, some (.stored id payload.byteLength
      ⟨payload.allocatedBytes, payload.byteLength, u.dataEvents, u.segments.length⟩)⟩

/-! ## Requests -/

structure Request where
  method : JsStr
  url : JsStr
  authorization : Option JsStr
  contentLength : Option JsStr

/-- `hasBearer`. -/
def hasBearer (req : Request) (token : JsStr) : Bool :=
  match req.authorization with
  | none => false
  | some header =>
      startsWith header (js "Bearer ") && decide (utf8 (header.drop 7) = utf8 token)

/-- The number a Content-Length states; nothing where it is not one. -/
def declaredLength (header : JsStr) : Option Nat :=
  if header.isEmpty || header.any (fun c => c < 48 || 57 < c) then none
  else some (header.foldl (fun n c => n * 10 + (c - 48)) 0)

/-- What an upload request is refused for before it takes a slot. -/
def uploadRefusal (limits : RelayLimits) (s : Relay) (req : Request) (token : JsStr)
    (alive : Bool) : Except (Option Answer) Nat :=
  if !hasBearer req token then .error (some .unauthorized)
  else
    match req.contentLength.map declaredLength with
    | some none =>
        .error (sendUploadError alive 400 "BAD_REQUEST" "Invalid Content-Length")
    | some (some declared) =>
        if limits.maxPayloadBytes < declared then
          .error (sendUploadError alive 413 "PAYLOAD_TOO_LARGE"
            "Payload exceeds byte limit")
        else slot declared
    | none => slot 0
where
  /-- The check of the slot limit. -/
  slot (declared : Nat) : Except (Option Answer) Nat :=
    if (limits.maxPayloads : Int) ≤ s.payloads.length + s.activeUploads then
      .error (sendUploadError alive 507 "INSUFFICIENT_STORAGE"
        "Payload slot limit reached")
    else .ok declared

def Upload.fresh : Upload := ⟨[], 0, 0, 0, 0, 0, false, false, 0⟩

/-- An upload that passed the first checks. -/
def openUpload (limits : RelayLimits) (s : Relay) (declared : Nat) (alloc : Nat → Bool)
    (alive : Bool) : Turn :=
  let s := { s with activeUploads := s.activeUploads + 1 }
  let capacity := ensureRetainedCapacity limits s Upload.fresh declared alloc
  let s := { s with inFlightAllocatedBytes := capacity.inFlight }
  if !capacity.retained then
    rejectUpload s capacity.upload alive 507 "INSUFFICIENT_STORAGE"
      "Relay byte limit reached"
  else ⟨s, capacity.upload, none⟩

/-- The id in a download path. -/
def payloadId (url : JsStr) : Option JsStr :=
  let id := url.drop 12
  if startsWith url (js "/v1/payload/") && startsWith id (js "pay_") &&
      (id.drop 4).length = 32 &&
      (id.drop 4).all (fun c => (48 ≤ c && c ≤ 57) || (97 ≤ c && c ≤ 102)) then some id
  else none

/-- The bytes that the loop over the segments writes. -/
def downloadBody : Nat → List Buffer → Buffer
  | _, [] => []
  | remaining, segment :: segments =>
      let bodyBytes := min remaining segment.length
      if remaining - bodyBytes = 0 then segment.take bodyBytes
      else segment.take bodyBytes ++ downloadBody (remaining - bodyBytes) segments

/-- The segments of a stored payload. -/
def Relay.segmentsOf (s : Relay) (payload : StoredPayload) : List Buffer :=
  (s.uploads[payload.segments]?.map (·.segments)).getD []

/-- A download or an existence check. -/
def download (s : Relay) (req : Request) (token : JsStr) : Answer :=
  if !hasBearer req token then .unauthorized
  else match (payloadId req.url).bind s.get with
    | none => .notFound
    | some payload =>
        if req.method = js "HEAD" || payload.byteLength = 0 then
          .payload payload.byteLength []
        else .payload payload.byteLength
          (downloadBody payload.byteLength (s.segmentsOf payload))

/-! ## Steps -/

/-- An event at the handler or at an upload it opened. -/
inductive Event where
  | request (req : Request) (alloc : Nat → Bool) (alive : Bool)
  | data (number : Nat) (chunk : List UInt8) (alloc : Nat → Bool) (alive : Bool)
  | finish (number : Nat) (ids : List JsStr)
  | aborted (number : Nat) (alive : Bool)
  | error (number : Nat) (alive : Bool)
  | close (number : Nat) (alive : Bool)

/-- Run a listener of an upload. -/
def listen (s : Relay) (number : Nat) (listener : Upload → Option Turn) :
    Option (Relay × Option Answer) :=
  (s.uploads[number]?.bind listener).map fun turn =>
    ({ turn.relay with uploads := turn.relay.uploads.set number turn.upload },
      turn.answer)

/-- The handler of one event. -/
def handle (limits : RelayLimits) (token : JsStr) (s : Relay) :
    Event → Option (Relay × Option Answer)
  | .request req alloc alive =>
      if req.method = js "GET" ∧ req.url = js "/v1/health" then some (s, some .health)
      else if req.method = js "POST" ∧ req.url = js "/v1/payload/upload" then
        match uploadRefusal limits s req token alive with
        | .error answer => some (s, answer)
        | .ok declared =>
            let turn := openUpload limits s declared alloc alive
            some ({ turn.relay with uploads := turn.relay.uploads ++ [turn.upload] },
              turn.answer)
      else if (req.method = js "GET" ∨ req.method = js "HEAD") ∧
          startsWith req.url (js "/v1/payload/") then
        some (s, some (download s req token))
      else some (s, some .noRoute)
  | .data number chunk alloc alive =>
      listen s number fun u => onData limits s u chunk alloc alive
  | .finish number ids => listen s number fun u => onEnd s number u ids
  | .aborted number alive => listen s number fun u =>
      some (rejectUpload s u alive 400 "BAD_REQUEST" "Upload aborted")
  | .error number alive => listen s number fun u =>
      some (rejectUpload s u alive 400 "BAD_REQUEST" "Upload failed")
  | .close number alive => listen s number fun u =>
      if u.terminal then some ⟨s, u, none⟩
      else some (rejectUpload s u alive 400 "BAD_REQUEST"
        "Upload closed before completion")

/-- The relay after a list of events. -/
def run (limits : RelayLimits) (token : JsStr) : Relay → List Event → Option Relay
  | s, [] => some s
  | s, event :: events =>
      (handle limits token s event).bind fun (s, _) => run limits token s events

end Gateway
