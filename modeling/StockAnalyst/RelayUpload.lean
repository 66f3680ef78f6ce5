import StockAnalyst.Relay

/-!
# The listeners of one upload

The pages of an upload keep their layout while bytes are copied into them, and
every listener moves the upload's reservation as a whole: what it adds to the
counters of the relay it adds to its own upload.
-/

namespace Gateway

open Js

variable {limits : RelayLimits} {token : JsStr} {s s' : Relay} {u u' : Upload}

/-! ## Pages -/

/-- A segment has a byte at least. -/
theorem RelayLimits.segmentBytes_pos (limits : RelayLimits) : 0 < limits.segmentBytes := by
  unfold segmentBytes
  omega

/-- The segments allowed hold the largest payload. -/
theorem RelayLimits.max_le_segments (limits : RelayLimits) :
    limits.maxPayloadBytes ≤ maxPayloadSegments * limits.segmentBytes := by
  unfold segmentBytes maxPayloadSegments
  omega

/-- The pages of an open upload: page after page up to the payload limit, and
the next byte has its place in the page it goes to. -/
structure Layout (limits : RelayLimits) (u : Upload) : Prop where
  page : ∀ n segment, u.segments[n]? = some segment →
    segment.length = min limits.segmentBytes
      (limits.maxPayloadBytes - n * limits.segmentBytes)
  used : ∀ n, n < u.segments.length → n * limits.segmentBytes < limits.maxPayloadBytes
  reserved : u.reservedAllocatedBytes =
    min limits.maxPayloadBytes (u.segments.length * limits.segmentBytes)
  place : u.writeSegment ≤ u.segments.length
  offset : ∀ segment, u.segments[u.writeSegment]? = some segment →
    u.writeOffset < segment.length
  full : u.writeSegment = u.segments.length → u.writeOffset = 0

/-- Every segment of an upload has a byte at least. -/
theorem Layout.page_pos (h : Layout limits u) {n : Nat} {segment : Buffer}
    (hn : u.segments[n]? = some segment) : 0 < segment.length := by
  obtain ⟨hlt, -⟩ := List.getElem?_eq_some_iff.1 hn
  have hused := h.used n hlt
  have hlength := h.page n segment hn
  have := limits.segmentBytes_pos
  omega

/-- No upload holds more pages than the limit. -/
theorem Layout.segments_le (h : Layout limits u) :
    u.segments.length ≤ maxPayloadSegments := by
  by_contra hmany
  have hlt : maxPayloadSegments < u.segments.length := Nat.lt_of_not_le hmany
  have hused := h.used maxPayloadSegments hlt
  have := limits.max_le_segments
  omega

/-- A page that was made for the next bytes. -/
theorem Layout.push (h : Layout limits u)
    (hroom : u.segments.length * limits.segmentBytes < limits.maxPayloadBytes) :
    Layout limits { u with
      reservedAllocatedBytes := u.reservedAllocatedBytes +
        min limits.segmentBytes (limits.maxPayloadBytes - u.reservedAllocatedBytes)
      segments := u.segments ++ [allocUnsafeSlow (min limits.segmentBytes
        (limits.maxPayloadBytes - u.reservedAllocatedBytes))] } := by
  have hreserved : u.reservedAllocatedBytes = u.segments.length * limits.segmentBytes := by
    have := h.reserved
    omega
  have hpos := limits.segmentBytes_pos
  refine ⟨?_, ?_, ?_, ?_, ?_, ?_⟩
  · intro n segment hn
    rcases Nat.lt_or_ge n u.segments.length with hlt | hge
    · rw [List.getElem?_append_left hlt] at hn
      exact h.page n segment hn
    · rw [List.getElem?_append_right hge] at hn
      have hzero : n - u.segments.length = 0 := by
        by_contra hne
        rw [List.getElem?_eq_none (by simp; omega)] at hn
        cases hn
      rw [hzero] at hn
      obtain rfl := Option.some.inj hn
      have hn' : n = u.segments.length := by omega
      simp [allocUnsafeSlow, hreserved, hn']
  · intro n hn
    simp only [List.length_append, List.length_cons, List.length_nil] at hn
    rcases Nat.lt_or_ge n u.segments.length with hlt | hge
    · exact h.used n hlt
    · have hn' : n = u.segments.length := by omega
      rw [hn']
      exact hroom
  · simp only [List.length_append, List.length_cons, List.length_nil, Nat.add_mul]
    omega
  · have := h.place
    simp only [List.length_append, List.length_cons, List.length_nil]
    omega
  · intro segment hn
    rcases Nat.lt_or_ge u.writeSegment u.segments.length with hlt | hge
    · rw [List.getElem?_append_left hlt] at hn
      exact h.offset segment hn
    · have hfull : u.writeSegment = u.segments.length := by
        have := h.place
        omega
      rw [List.getElem?_append_right hge, hfull, Nat.sub_self] at hn
      obtain rfl := Option.some.inj hn
      have hzero := h.full hfull
      simp only [allocUnsafeSlow, List.length_replicate]
      omega
  · intro hfull
    have := h.place
    simp only [List.length_append, List.length_cons, List.length_nil] at hfull
    omega

/-- A size that whole pages reach. -/
def RelayLimits.Reached (limits : RelayLimits) (target : Nat) : Prop :=
  target = limits.maxPayloadBytes ∨
    target ≤ limits.maxPayloadBytes ∧ ∃ pages, target = pages * limits.segmentBytes

/-- The target is one that growing can reach. -/
theorem RelayLimits.target_reached (limits : RelayLimits) (bytes : Nat) :
    limits.Reached (limits.targetAllocatedBytes bytes) := by
  unfold targetAllocatedBytes
  split
  · exact Or.inr ⟨Nat.zero_le _, 0, by simp⟩
  · rcases Nat.le_total limits.maxPayloadBytes ((bytes + (limits.segmentBytes - 1)) /
        limits.segmentBytes * limits.segmentBytes) with hle | hle
    · exact Or.inl (Nat.min_eq_left hle)
    · rw [Nat.min_eq_right hle]
      exact Or.inr ⟨hle, _, rfl⟩

/-- A target that can be reached is within the limit. -/
theorem RelayLimits.Reached.le {target : Nat} (h : limits.Reached target) :
    target ≤ limits.maxPayloadBytes := by
  rcases h with rfl | h
  · exact le_refl _
  · exact h.1

/-- A page below the target ends at or below the target. -/
theorem RelayLimits.Reached.next {target : Nat} (h : limits.Reached target) (pages : Nat)
    (hlt : pages * limits.segmentBytes < target) :
    min limits.maxPayloadBytes ((pages + 1) * limits.segmentBytes) ≤ target := by
  rcases h with rfl | ⟨-, all, rfl⟩
  · omega
  · have hpages : pages + 1 ≤ all := by
      by_contra hmany
      have hle : all ≤ pages := by omega
      have := Nat.mul_le_mul_right limits.segmentBytes hle
      omega
    have := Nat.mul_le_mul_right limits.segmentBytes hpages
    omega

/-- What the loop of `ensureRetainedCapacity` leaves: pages were added and
counted, and no more than the target was reserved. -/
structure Grown (limits : RelayLimits) (target : Nat) (inFlight : Int) (u : Upload)
    (c : Capacity) : Prop where
  same : ∃ segments reserved, c.upload =
    { u with segments := segments, reservedAllocatedBytes := reserved }
  counted : c.inFlight - c.upload.reservedAllocatedBytes =
    inFlight - u.reservedAllocatedBytes
  bound : c.upload.reservedAllocatedBytes ≤ max u.reservedAllocatedBytes target
  grown : c.retained = true →
    Layout limits c.upload ∧ target ≤ c.upload.reservedAllocatedBytes

/-- **Growing ends at the target** or where memory gives out. -/
theorem allocate_grown {target : Nat} (htarget : limits.Reached target)
    (alloc : Nat → Bool) (passes : Nat) {inFlight : Int} (h : Layout limits u)
    (hpasses : target - u.reservedAllocatedBytes ≤ passes) :
    Grown limits target inFlight u (allocate limits target alloc passes inFlight u) := by
  induction passes generalizing inFlight u with
  | zero =>
      refine ⟨⟨u.segments, u.reservedAllocatedBytes, rfl⟩, rfl, le_max_left _ _, ?_⟩
      intro _
      exact ⟨h, by simp only [allocate]; omega⟩
  | succ passes ih =>
      unfold allocate
      split
      · rename_i hbelow
        have hreserved : u.reservedAllocatedBytes =
            u.segments.length * limits.segmentBytes := by
          have := h.reserved
          have := htarget.le
          omega
        have hpos := limits.segmentBytes_pos
        have hle := htarget.le
        have hnext := htarget.next u.segments.length (by omega)
        rw [Nat.add_mul] at hnext
        dsimp only
        split
        · rename_i hzero
          omega
        · split
          · have hpush := h.push (by omega)
            obtain ⟨⟨segments, reserved, hsame⟩, hcounted, hbound, hgrown⟩ :=
              ih hpush (by
                  dsimp only
                  omega)
            refine ⟨⟨segments, reserved, hsame⟩, ?_, ?_, hgrown⟩
            · rw [hcounted]
              push_cast
              omega
            · refine le_trans hbound ?_
              dsimp only
              omega
          · refine ⟨⟨u.segments, _, rfl⟩, ?_, ?_, fun hfalse => by cases hfalse⟩
            · dsimp only
              push_cast
              omega
            · dsimp only
              omega
      · rename_i hreached
        refine ⟨⟨u.segments, u.reservedAllocatedBytes, rfl⟩, rfl, le_max_left _ _, ?_⟩
        intro _
        exact ⟨h, Nat.le_of_not_lt hreached⟩

/-- `ensureRetainedCapacity` stays within the byte limit of the relay. -/
theorem ensureRetainedCapacity_grown (h : Layout limits u) (bytes : Nat)
    (alloc : Nat → Bool)
    (hroom : s.storedAllocatedBytes + s.inFlightAllocatedBytes ≤ limits.maxRelayBytes) :
    Grown limits (limits.targetAllocatedBytes bytes) s.inFlightAllocatedBytes u
      (ensureRetainedCapacity limits s u bytes alloc) ∧
    s.storedAllocatedBytes + (ensureRetainedCapacity limits s u bytes alloc).inFlight ≤
      limits.maxRelayBytes := by
  unfold ensureRetainedCapacity
  dsimp only
  split
  · refine ⟨⟨⟨u.segments, _, rfl⟩, rfl, le_max_left _ _, fun hfalse => by cases hfalse⟩, ?_⟩
    exact hroom
  · rename_i hfits
    have hgrown : Grown limits (limits.targetAllocatedBytes bytes) s.inFlightAllocatedBytes u
        (allocate limits (limits.targetAllocatedBytes bytes) alloc
          (limits.targetAllocatedBytes bytes - u.reservedAllocatedBytes)
          s.inFlightAllocatedBytes u) :=
      allocate_grown (limits.target_reached bytes) alloc _ h (le_refl _)
    refine ⟨hgrown, ?_⟩
    have hcounted := hgrown.counted
    have hbound := hgrown.bound
    omega

/-! ## Copying -/

/-- Writing within a buffer keeps its length. -/
theorem Buffer.write_length {segment : Buffer} {offset : Nat} {bytes : List UInt8}
    (h : offset + bytes.length ≤ segment.length) :
    (Buffer.write segment offset bytes).length = segment.length := by
  simp only [Buffer.write, List.length_append, List.length_take, List.length_map,
    List.length_drop]
  omega

/-- Writing into the current page keeps the layout. -/
theorem Layout.write (h : Layout limits u) {segment written : Buffer}
    (hn : u.segments[u.writeSegment]? = some segment)
    (hlength : written.length = segment.length) (offset : Nat)
    (hoffset : offset < segment.length) :
    Layout limits { u with
      segments := u.segments.set u.writeSegment written, writeOffset := offset } := by
  obtain ⟨hlt, -⟩ := List.getElem?_eq_some_iff.1 hn
  refine ⟨?_, ?_, ?_, ?_, ?_, ?_⟩
  · intro n segment' hn'
    rw [List.getElem?_set] at hn'
    split at hn'
    · rename_i heq
      simp only [Option.some.injEq] at hn'
      rw [← hn', hlength, ← heq]
      exact h.page u.writeSegment segment hn
    · exact h.page n segment' hn'
  · simpa using h.used
  · simpa using h.reserved
  · simpa using h.place
  · intro segment' hn'
    simp only [List.getElem?_set, hlt, if_true, Option.some.injEq] at hn'
    rw [← hn', hlength]
    exact hoffset
  · intro hfull
    simp only [List.length_set] at hfull
    omega

/-- A page that is full leads to the next one. -/
theorem Layout.next (h : Layout limits u) {segment written : Buffer}
    (hn : u.segments[u.writeSegment]? = some segment)
    (hlength : written.length = segment.length) :
    Layout limits { u with
      segments := u.segments.set u.writeSegment written
      writeSegment := u.writeSegment + 1
      writeOffset := 0 } := by
  obtain ⟨hlt, -⟩ := List.getElem?_eq_some_iff.1 hn
  have hwrite := h.write hn hlength _ (h.offset segment hn)
  refine ⟨hwrite.page, hwrite.used, hwrite.reserved, ?_, ?_, fun _ => rfl⟩
  · simp only [List.length_set]
    omega
  · intro segment' hn'
    exact hwrite.page_pos hn'

/-- **The copy loop ends**, with the pages laid out as before. -/
theorem copyChunk_layout (passes : Nat) {chunk : List UInt8} (h : Layout limits u)
    (hpasses : chunk.length ≤ passes) :
    ∃ found segments writeSegment writeOffset, copyChunk passes u chunk =
        some (found, { u with
          segments := segments, writeSegment := writeSegment, writeOffset := writeOffset }) ∧
      Layout limits { u with
        segments := segments, writeSegment := writeSegment, writeOffset := writeOffset } := by
  induction passes generalizing u chunk with
  | zero =>
      obtain rfl := List.length_eq_zero_iff.1 (Nat.le_zero.1 hpasses)
      exact ⟨true, u.segments, u.writeSegment, u.writeOffset, rfl, h⟩
  | succ passes ih =>
      cases chunk with
      | nil => exact ⟨true, u.segments, u.writeSegment, u.writeOffset, rfl, h⟩
      | cons byte chunk =>
          unfold copyChunk
          cases hn : u.segments[u.writeSegment]? with
          | none => exact ⟨false, u.segments, u.writeSegment, u.writeOffset, rfl, h⟩
          | some segment =>
              have hoffset := h.offset segment hn
              dsimp only
              have hcopied : 1 ≤ min (byte :: chunk).length
                  (segment.length - u.writeOffset) := by
                simp only [List.length_cons]
                omega
              have hrest : ((byte :: chunk).drop (min (byte :: chunk).length
                  (segment.length - u.writeOffset))).length ≤ passes := by
                simp only [List.length_drop]
                omega
              have hwritten : (Buffer.write segment u.writeOffset ((byte :: chunk).take
                  (min (byte :: chunk).length (segment.length - u.writeOffset)))).length =
                  segment.length := by
                apply Buffer.write_length
                simp only [List.length_take]
                omega
              split
              · obtain ⟨found, segments, page, offset, heq, hlayout⟩ :=
                  ih (h.next hn hwritten) hrest
                exact ⟨found, segments, page, offset, heq, hlayout⟩
              · rename_i hnot
                obtain ⟨found, segments, page, offset, heq, hlayout⟩ :=
                  ih (h.write hn hwritten (u.writeOffset +
                    min (byte :: chunk).length (segment.length - u.writeOffset))
                    (by omega)) hrest
                exact ⟨found, segments, page, offset, heq, hlayout⟩

/-! ## Listeners -/

/-- What an upload that is not over has reserved. -/
def Upload.openBytes (u : Upload) : Int :=
  if u.released then 0 else u.reservedAllocatedBytes

/-- The slot of an upload that is not over. -/
def Upload.openSlot (u : Upload) : Int := if u.released then 0 else 1

/-- An upload between two events. -/
structure UploadOk (limits : RelayLimits) (u : Upload) : Prop where
  ended : u.terminal = u.released
  releases : u.releases = if u.released then 1 else 0
  layout : u.released = false → Layout limits u

/-- A turn that stores nothing: the counters change by what the upload's
reservation changes. -/
structure Keeps (limits : RelayLimits) (s : Relay) (u : Upload) (turn : Turn) : Prop where
  payloads : turn.relay.payloads = s.payloads
  uploads : turn.relay.uploads = s.uploads
  stored : turn.relay.storedAllocatedBytes = s.storedAllocatedBytes
  bytes : turn.relay.inFlightAllocatedBytes - turn.upload.openBytes =
    s.inFlightAllocatedBytes - u.openBytes
  slots : turn.relay.activeUploads - turn.upload.openSlot = s.activeUploads - u.openSlot
  fewer : turn.relay.activeUploads ≤ s.activeUploads
  room : turn.relay.storedAllocatedBytes + turn.relay.inFlightAllocatedBytes ≤
    limits.maxRelayBytes
  ok : UploadOk limits turn.upload

/-- An upload that is not over between two events. -/
structure Open (limits : RelayLimits) (u : Upload) : Prop where
  terminal : u.terminal = false
  released : u.released = false
  unreleased : u.releases = 0
  layout : Layout limits u

/-- An upload that has not ended is open. -/
theorem UploadOk.open_of (h : UploadOk limits u) (hterminal : u.terminal = false) :
    Open limits u := by
  have hreleased : u.released = false := by rw [← h.ended, hterminal]
  refine ⟨hterminal, hreleased, ?_, h.layout hreleased⟩
  rw [h.releases, hreleased]
  rfl

/-- An open upload is in order. -/
theorem Open.ok (h : Open limits u) : UploadOk limits u := by
  refine ⟨by rw [h.terminal, h.released], ?_, fun _ => h.layout⟩
  rw [h.unreleased, h.released]
  rfl

/-- Nothing happens to an upload that is over. -/
theorem UploadOk.over (h : UploadOk limits u)
    (hroom : s.storedAllocatedBytes + s.inFlightAllocatedBytes ≤ limits.maxRelayBytes)
    (answer : Option Answer) : Keeps limits s u ⟨s, u, answer⟩ :=
  ⟨rfl, rfl, rfl, rfl, rfl, le_refl _, hroom, h⟩

/-- A listener is under way: since it began with `s₀` and `u₀` only pages were
added to the upload, and counted. -/
structure Amid (limits : RelayLimits) (s₀ : Relay) (u₀ : Upload) (s : Relay) (u : Upload) :
    Prop where
  began : Open limits u₀
  terminal : u.terminal = false
  released : u.released = false
  unreleased : u.releases = 0
  payloads : s.payloads = s₀.payloads
  uploads : s.uploads = s₀.uploads
  stored : s.storedAllocatedBytes = s₀.storedAllocatedBytes
  active : s.activeUploads = s₀.activeUploads
  counted : s.inFlightAllocatedBytes - u.reservedAllocatedBytes =
    s₀.inFlightAllocatedBytes - u₀.reservedAllocatedBytes

/-- A rejection takes back the whole reservation, wherever in a listener it
happens. -/
theorem rejectUpload_keeps {s₀ : Relay} {u₀ : Upload} (h : Amid limits s₀ u₀ s u)
    (hroom : s₀.storedAllocatedBytes + s₀.inFlightAllocatedBytes ≤ limits.maxRelayBytes)
    {alive : Bool} {status : Nat} {code message : String} :
    Keeps limits s₀ u₀ (rejectUpload s u alive status code message) := by
  have hbegan := h.began.released
  have hcounted := h.counted
  have hactive := h.active
  have hstored := h.stored
  unfold rejectUpload release
  simp only [h.terminal, h.released, Bool.false_eq_true, if_false]
  refine ⟨h.payloads, h.uploads, hstored, ?_, ?_, ?_, ?_, ?_⟩
  · simp only [Upload.openBytes, hbegan, if_true, Bool.false_eq_true, if_false]
    omega
  · simp only [Upload.openSlot, hbegan, if_true, Bool.false_eq_true, if_false]
    omega
  · dsimp only
    omega
  · dsimp only
    omega
  · refine ⟨rfl, ?_, fun hfalse => by cases hfalse⟩
    simp [h.unreleased]

/-- A listener that goes on leaves what it counted. -/
theorem Amid.keeps {s₀ : Relay} {u₀ : Upload} (h : Amid limits s₀ u₀ s u)
    (hroom : s.storedAllocatedBytes + s.inFlightAllocatedBytes ≤ limits.maxRelayBytes)
    (hlayout : Layout limits u) : Keeps limits s₀ u₀ ⟨s, u, none⟩ := by
  have hcounted := h.counted
  have hactive := h.active
  refine ⟨h.payloads, h.uploads, h.stored, ?_, ?_, ?_, hroom, ?_⟩
  · simp only [Upload.openBytes, h.released, h.began.released, Bool.false_eq_true, if_false]
    omega
  · simp only [Upload.openSlot, h.released, h.began.released, hactive]
  · exact le_of_eq hactive
  · exact Open.ok ⟨h.terminal, h.released, h.unreleased, hlayout⟩

/-- Writing into pages counts nothing. -/
theorem Amid.copied {s₀ : Relay} {u₀ : Upload} (h : Amid limits s₀ u₀ s u)
    (segments : List Buffer) (writeSegment writeOffset : Nat) :
    Amid limits s₀ u₀ s { u with
      segments := segments, writeSegment := writeSegment, writeOffset := writeOffset } :=
  ⟨h.began, h.terminal, h.released, h.unreleased, h.payloads, h.uploads, h.stored, h.active,
    h.counted⟩

/-- Counting bytes leaves the upload amid. -/
theorem Amid.received {s₀ : Relay} {u₀ : Upload} (h : Amid limits s₀ u₀ s u)
    (receivedBytes : Nat) :
    Amid limits s₀ u₀ s { u with receivedBytes := receivedBytes } :=
  ⟨h.began, h.terminal, h.released, h.unreleased, h.payloads, h.uploads, h.stored, h.active,
    h.counted⟩

/-- A listener begins. -/
theorem Open.amid (h : Open limits u) : Amid limits s u s u :=
  ⟨h, h.terminal, h.released, h.unreleased, rfl, rfl, rfl, rfl, rfl⟩

/-- A rejected upload has ended. -/
theorem rejectUpload_ends {alive : Bool} {status : Nat} {code message : String} :
    (rejectUpload s u alive status code message).upload.terminal = true := by
  unfold rejectUpload release
  split
  · assumption
  · dsimp only
    split <;> rfl

/-- A rejection of an upload as it stands. -/
theorem UploadOk.rejected (h : UploadOk limits u)
    (hroom : s.storedAllocatedBytes + s.inFlightAllocatedBytes ≤ limits.maxRelayBytes)
    {alive : Bool} {status : Nat} {code message : String} :
    Keeps limits s u (rejectUpload s u alive status code message) ∧
      (u.terminal = true → (rejectUpload s u alive status code message).upload = u) := by
  cases hterminal : u.terminal with
  | true =>
      have hsame : rejectUpload s u alive status code message = ⟨s, u, none⟩ := by
        simp [rejectUpload, hterminal]
      rw [hsame]
      exact ⟨h.over hroom none, fun _ => rfl⟩
  | false =>
      have hopen := h.open_of hterminal
      exact ⟨rejectUpload_keeps hopen.amid hroom, fun hfalse => by cases hfalse⟩

/-- Pages that were reserved belong to the listener. -/
theorem Grown.amid {s₀ : Relay} {u₀ : Upload} {c : Capacity} {target : Nat}
    (hgrown : Grown limits target s.inFlightAllocatedBytes u c)
    (h : Amid limits s₀ u₀ s u) :
    Amid limits s₀ u₀ { s with inFlightAllocatedBytes := c.inFlight } c.upload := by
  have hcounted := hgrown.counted
  have hcounted' := h.counted
  obtain ⟨segments, reserved, hsame⟩ := hgrown.same
  refine ⟨h.began, ?_, ?_, ?_, h.payloads, h.uploads, h.stored, h.active, ?_⟩
  · rw [hsame]
    exact h.terminal
  · rw [hsame]
    exact h.released
  · rw [hsame]
    exact h.unreleased
  · dsimp only
    omega

/-- The listener of `data` always comes to an end, and stores nothing. -/
theorem onData_keeps (h : UploadOk limits u)
    (hroom : s.storedAllocatedBytes + s.inFlightAllocatedBytes ≤ limits.maxRelayBytes)
    (chunk : List UInt8) (alloc : Nat → Bool) (alive : Bool) :
    ∃ turn, onData limits s u chunk alloc alive = some turn ∧ Keeps limits s u turn ∧
      (u.terminal = true → turn.upload = u) := by
  unfold onData
  by_cases hterminal : u.terminal = true
  · rw [if_pos hterminal]
    exact ⟨_, rfl, h.over hroom none, fun _ => rfl⟩
  · rw [if_neg hterminal]
    have hopen := h.open_of (by simpa using hterminal)
    have hlayout : Layout limits { u with dataEvents := u.dataEvents + 1 } :=
      ⟨hopen.layout.page, hopen.layout.used, hopen.layout.reserved, hopen.layout.place,
        hopen.layout.offset, hopen.layout.full⟩
    have hbegan : Amid limits s u s { u with dataEvents := u.dataEvents + 1 } :=
      ⟨hopen, hopen.terminal, hopen.released, hopen.unreleased, rfl, rfl, rfl, rfl, rfl⟩
    obtain ⟨hgrown, hroom'⟩ := ensureRetainedCapacity_grown (s := s) hlayout
      (u.receivedBytes + chunk.length) alloc hroom
    have hamid := hgrown.amid hbegan
    dsimp only
    split
    · exact ⟨_, rfl, rejectUpload_keeps hbegan hroom, fun h => absurd h hterminal⟩
    · split
      · exact ⟨_, rfl, rejectUpload_keeps hamid hroom, fun h => absurd h hterminal⟩
      · rename_i hretained
        obtain ⟨hlayout', -⟩ := hgrown.grown (by simpa using hretained)
        obtain ⟨found, pages, page, offset, hcopy, hcopied⟩ :=
          copyChunk_layout chunk.length hlayout' (le_refl _)
        rw [hcopy]
        refine ⟨_, rfl, ?_, fun h => absurd h hterminal⟩
        have hafter := hamid.copied pages page offset
        dsimp only
        split
        · refine (hafter.received _).keeps hroom' ?_
          exact ⟨hcopied.page, hcopied.used, hcopied.reserved, hcopied.place, hcopied.offset,
            hcopied.full⟩
        · exact rejectUpload_keeps hafter hroom

/-- A turn that stores the payload of its upload under a fresh id. -/
structure Stores (s : Relay) (number : Nat) (u : Upload) (id : JsStr) (turn : Turn) :
    Prop where
  fresh : s.has id = false
  payloads : turn.relay.payloads =
    s.payloads ++ [(id, ⟨u.reservedAllocatedBytes, u.receivedBytes, number⟩)]
  uploads : turn.relay.uploads = s.uploads
  stored : turn.relay.storedAllocatedBytes =
    s.storedAllocatedBytes + u.reservedAllocatedBytes
  inFlight : turn.relay.inFlightAllocatedBytes =
    s.inFlightAllocatedBytes - u.reservedAllocatedBytes
  active : turn.relay.activeUploads = s.activeUploads - 1
  upload : turn.upload = { u with terminal := true, released := true, releases := 1 }

/-- The listener of `end` stores the payload of an upload that is not over. -/
theorem onEnd_stores (h : UploadOk limits u) {number : Nat} {ids : List JsStr}
    {turn : Turn} (hturn : onEnd s number u ids = some turn) :
    (u.terminal = true ∧ turn = ⟨s, u, none⟩) ∨
      Open limits u ∧ ∃ id ∈ ids, Stores s number u id turn := by
  unfold onEnd at hturn
  by_cases hterminal : u.terminal = true
  · rw [if_pos hterminal] at hturn
    exact Or.inl ⟨hterminal, (Option.some.inj hturn).symm⟩
  · rw [if_neg hterminal] at hturn
    have hopen := h.open_of (by simpa using hterminal)
    obtain ⟨id, hfind, rfl⟩ := Option.map_eq_some_iff.1 hturn
    have hfresh : s.has id = false := by
      have hfound := List.find?_some hfind
      simpa using hfound
    refine Or.inr ⟨hopen, id, List.mem_of_find?_eq_some hfind, ?_⟩
    simp only [release, hopen.released, Bool.false_eq_true, if_false, if_true]
    exact ⟨hfresh, rfl, rfl, rfl, rfl, rfl, by rw [hopen.unreleased]⟩

/-- A request that is accepted takes a slot and reserves what it declared. -/
theorem openUpload_keeps {declared : Nat} {alloc : Nat → Bool} {alive : Bool}
    (hroom : s.storedAllocatedBytes + s.inFlightAllocatedBytes ≤ limits.maxRelayBytes) :
    Keeps limits { s with activeUploads := s.activeUploads + 1 } Upload.fresh
      (openUpload limits s declared alloc alive) := by
  have hlayout : Layout limits Upload.fresh := by
    refine ⟨?_, ?_, ?_, le_refl _, ?_, fun _ => rfl⟩
    · intro n segment hn
      cases hn
    · intro n hn
      cases hn
    · simp [Upload.fresh]
    · intro segment hn
      cases hn
  have hbegan : Amid limits { s with activeUploads := s.activeUploads + 1 } Upload.fresh
      { s with activeUploads := s.activeUploads + 1 } Upload.fresh :=
    Open.amid ⟨rfl, rfl, rfl, hlayout⟩
  obtain ⟨hgrown, hroom'⟩ := ensureRetainedCapacity_grown
    (s := { s with activeUploads := s.activeUploads + 1 }) hlayout declared alloc hroom
  have hamid := hgrown.amid hbegan
  unfold openUpload
  dsimp only
  split
  · exact rejectUpload_keeps hamid hroom
  · rename_i hretained
    exact hamid.keeps hroom' (hgrown.grown (by simpa using hretained)).1

end Gateway
