import StockAnalyst.RelayQuota

/-!
# What is uploaded is what is downloaded

The pages of an open upload, read one after the other, begin with the bytes
received so far, and the write cursor stands behind them.  The listeners keep
that whatever the other requests do, a payload's pages stay as they were when
its upload ended, and a download reads them back page by page.
-/

namespace Gateway

open Js

variable {limits : RelayLimits} {token : JsStr} {s s' : Relay} {u u' : Upload}
  {bytes chunk : List UInt8}

/-! ## Pages as one text -/

section pages

variable {α : Type} {pages : List (List α)} {page : List α} {k m : Nat}

/-- The text up to a place inside a page. -/
theorem take_flatten_page (hk : pages[k]? = some page) (hm : m ≤ page.length) :
    pages.flatten.take ((pages.take k).flatten.length + m) =
      (pages.take k).flatten ++ page.take m := by
  obtain ⟨hlt, hget⟩ := List.getElem?_eq_some_iff.1 hk
  have hsplit : pages.flatten =
      (pages.take k).flatten ++ (page ++ (pages.drop (k + 1)).flatten) := by
    conv_lhs => rw [← List.take_append_drop k pages, List.drop_eq_getElem_cons hlt, hget]
    rw [List.flatten_append, List.flatten_cons]
  rw [hsplit, List.take_length_add_append, List.take_append_of_le_length hm]

/-- More pages behind a place change nothing before it. -/
theorem take_flatten_append (more : List (List α)) {n : Nat} (h : n ≤ pages.flatten.length) :
    (pages ++ more).flatten.take n = pages.flatten.take n := by
  rw [List.flatten_append, List.take_append_of_le_length h]

end pages

/-- The loop over the segments sends the text of the pages. -/
theorem downloadBody_eq (remaining : Nat) (segments : List Buffer) :
    downloadBody remaining segments = segments.flatten.take remaining := by
  induction segments generalizing remaining with
  | nil => simp [downloadBody]
  | cons segment segments ih =>
      unfold downloadBody
      dsimp only
      rw [List.flatten_cons]
      by_cases hlast : remaining ≤ segment.length
      · rw [Nat.min_eq_left hlast, Nat.sub_self, if_pos rfl,
          List.take_append_of_le_length hlast]
      · have hmore : segment.length ≤ remaining := by omega
        rw [Nat.min_eq_right hmore, if_neg (by omega), ih, List.take_length]
        conv_rhs => rw [show remaining = segment.length + (remaining - segment.length) by omega]
        rw [List.take_length_add_append]

/-! ## Writing -/

/-- The pages begin with the bytes, and the cursor stands behind them. -/
structure Written (u : Upload) (bytes : List UInt8) : Prop where
  cursor : (u.segments.take u.writeSegment).flatten.length + u.writeOffset = bytes.length
  bytes : u.segments.flatten.take bytes.length = bytes.map some

/-- Bytes copied into the current page, the cursor moved behind them or to the
next page where this one is full. -/
theorem Written.copy (h : Written u bytes) {segment : Buffer}
    (hn : u.segments[u.writeSegment]? = some segment)
    (hfits : u.writeOffset + chunk.length ≤ segment.length) (page offset : Nat)
    (hcursor : page = u.writeSegment ∧ offset = u.writeOffset + chunk.length ∨
      u.writeOffset + chunk.length = segment.length ∧ page = u.writeSegment + 1 ∧
        offset = 0) :
    Written { u with
      segments := u.segments.set u.writeSegment (Buffer.write segment u.writeOffset chunk)
      writeSegment := page, writeOffset := offset } (bytes ++ chunk) := by
  obtain ⟨hlt, -⟩ := List.getElem?_eq_some_iff.1 hn
  have hwritten : (Buffer.write segment u.writeOffset chunk).length = segment.length :=
    Buffer.write_length hfits
  have hself : (u.segments.set u.writeSegment
      (Buffer.write segment u.writeOffset chunk))[u.writeSegment]? =
        some (Buffer.write segment u.writeOffset chunk) := List.getElem?_set_self hlt
  have hbefore : (u.segments.set u.writeSegment
      (Buffer.write segment u.writeOffset chunk)).take u.writeSegment =
        u.segments.take u.writeSegment := List.take_set_of_le (le_refl _)
  have hcur := h.cursor
  constructor
  · cases hcursor with
    | inl hstay =>
        obtain ⟨rfl, rfl⟩ := hstay
        rw [hbefore, List.length_append]
        dsimp only
        omega
    | inr hnext =>
        obtain ⟨hfull, rfl, rfl⟩ := hnext
        rw [List.take_add_one, hself, hbefore]
        simp only [Option.toList_some, List.flatten_append, List.flatten_cons,
          List.flatten_nil, List.append_nil, List.length_append, hwritten]
        omega
  · have hold : bytes.map some = (u.segments.take u.writeSegment).flatten ++
        segment.take u.writeOffset := by
      rw [← h.bytes, ← hcur]
      exact take_flatten_page hn (by omega)
    have hnew : (Buffer.write segment u.writeOffset chunk).take
        (u.writeOffset + chunk.length) = segment.take u.writeOffset ++ chunk.map some := by
      have hlength : (segment.take u.writeOffset ++ chunk.map some).length =
          u.writeOffset + chunk.length := by
        simp only [List.length_append, List.length_take, List.length_map]
        omega
      unfold Buffer.write
      rw [← hlength, List.take_left]
    have hplace : (bytes ++ chunk).length =
        ((u.segments.set u.writeSegment
          (Buffer.write segment u.writeOffset chunk)).take u.writeSegment).flatten.length +
          (u.writeOffset + chunk.length) := by
      rw [hbefore, List.length_append]
      omega
    dsimp only
    rw [hplace, take_flatten_page hself (by omega), hbefore, hnew, List.map_append, hold,
      List.append_assoc]

/-- **The copy loop appends its chunk**, wherever the pages cut it. -/
theorem copyChunk_written (passes : Nat) (hlayout : Layout limits u) (h : Written u bytes)
    (hcopy : copyChunk passes u chunk = some (true, u')) : Written u' (bytes ++ chunk) := by
  induction passes generalizing u bytes chunk with
  | zero =>
      cases chunk with
      | nil =>
          obtain rfl := (Prod.mk.inj (Option.some.inj hcopy)).2
          rwa [List.append_nil]
      | cons byte chunk => cases hcopy
  | succ passes ih =>
      cases chunk with
      | nil =>
          obtain rfl := (Prod.mk.inj (Option.some.inj hcopy)).2
          rwa [List.append_nil]
      | cons byte chunk =>
          unfold copyChunk at hcopy
          cases hn : u.segments[u.writeSegment]? with
          | none =>
              rw [hn] at hcopy
              cases hcopy
          | some segment =>
              rw [hn] at hcopy
              dsimp only at hcopy
              have hoffset := hlayout.offset segment hn
              have hpart : ((byte :: chunk).take (min (byte :: chunk).length
                  (segment.length - u.writeOffset))).length =
                    min (byte :: chunk).length (segment.length - u.writeOffset) := by
                rw [List.length_take]
                omega
              have hfits : u.writeOffset + ((byte :: chunk).take (min (byte :: chunk).length
                  (segment.length - u.writeOffset))).length ≤ segment.length := by
                rw [hpart]
                omega
              have hlength := Buffer.write_length hfits
              have hwhole := List.take_append_drop (min (byte :: chunk).length
                (segment.length - u.writeOffset)) (byte :: chunk)
              split at hcopy
              · rename_i hfull
                have hwritten := h.copy hn hfits (u.writeSegment + 1) 0
                  (Or.inr ⟨by rw [hpart]; exact hfull, rfl, rfl⟩)
                have hrest := ih (hlayout.next hn hlength) hwritten hcopy
                rwa [List.append_assoc, hwhole] at hrest
              · rename_i hnot
                have hwritten := h.copy hn hfits u.writeSegment _ (Or.inl ⟨rfl, rfl⟩)
                rw [hpart] at hwritten
                have hrest := ih (hlayout.write hn hlength (u.writeOffset +
                  min (byte :: chunk).length (segment.length - u.writeOffset)) (by omega))
                  hwritten hcopy
                rwa [List.append_assoc, hwhole] at hrest

/-! ## Listeners -/

/-- What the listeners of an open upload have received. -/
structure Holds (u : Upload) (bytes : List UInt8) : Prop where
  received : u.receivedBytes = bytes.length
  written : Written u bytes

/-- Reserving adds pages and touches nothing else of the upload. -/
theorem allocate_extends (target : Nat) (alloc : Nat → Bool) (passes : Nat)
    (inFlight : Int) (u : Upload) :
    ∃ pages reserved, (allocate limits target alloc passes inFlight u).upload =
      { u with segments := u.segments ++ pages, reservedAllocatedBytes := reserved } := by
  induction passes generalizing inFlight u with
  | zero => exact ⟨[], u.reservedAllocatedBytes, by simp [allocate]⟩
  | succ passes ih =>
      unfold allocate
      dsimp only
      split
      · split
        · exact ⟨[], u.reservedAllocatedBytes, by simp⟩
        · split
          · obtain ⟨pages, reserved, heq⟩ := ih _ _
            exact ⟨_, reserved, by rw [heq, List.append_assoc]⟩
          · refine ⟨[], u.reservedAllocatedBytes + min limits.segmentBytes
              (limits.maxPayloadBytes - u.reservedAllocatedBytes), ?_⟩
            simp
      · exact ⟨[], u.reservedAllocatedBytes, by simp⟩

/-- Making room only adds segments to an upload. -/
theorem ensureRetainedCapacity_extends (limits : RelayLimits) (s : Relay) (u : Upload)
    (targetBytes : Nat) (alloc : Nat → Bool) :
    ∃ pages reserved, (ensureRetainedCapacity limits s u targetBytes alloc).upload =
      { u with segments := u.segments ++ pages, reservedAllocatedBytes := reserved } := by
  unfold ensureRetainedCapacity
  dsimp only
  split
  · exact ⟨[], u.reservedAllocatedBytes, by simp⟩
  · exact allocate_extends _ _ _ _ _

/-- The bytes stay where they are when pages are added. -/
theorem Written.extend (h : Written u bytes) (hplace : u.writeSegment ≤ u.segments.length)
    (pages : List Buffer) (reserved : Nat) :
    Written { u with
      segments := u.segments ++ pages, reservedAllocatedBytes := reserved } bytes := by
  have hlength : bytes.length ≤ u.segments.flatten.length := by
    have hcount := congrArg List.length h.bytes
    rw [List.length_take, List.length_map] at hcount
    omega
  constructor
  · dsimp only
    rw [List.take_append_of_le_length hplace]
    exact h.cursor
  · dsimp only
    rw [take_flatten_append pages hlength]
    exact h.bytes

/-- A rejected upload is at its end. -/
theorem rejectUpload_terminal {alive : Bool} {status : Nat} {code message : String} :
    (rejectUpload s u alive status code message).upload.terminal = false → False := by
  intro h
  rw [rejectUpload_ends] at h
  cases h

/-- A `data` event that the upload survives appends its chunk. -/
theorem onData_holds (hok : UploadOk limits u)
    (hroom : s.storedAllocatedBytes + s.inFlightAllocatedBytes ≤ limits.maxRelayBytes)
    (hopen : u.terminal = false) (h : Holds u bytes) {alloc : Nat → Bool} {alive : Bool}
    {turn : Turn} (hturn : onData limits s u chunk alloc alive = some turn)
    (hafter : turn.upload.terminal = false) : Holds turn.upload (bytes ++ chunk) := by
  have hstart := (hok.open_of hopen).layout
  have hlayout : Layout limits { u with dataEvents := u.dataEvents + 1 } :=
    ⟨hstart.page, hstart.used, hstart.reserved, hstart.place, hstart.offset, hstart.full⟩
  have hwritten : Written { u with dataEvents := u.dataEvents + 1 } bytes :=
    ⟨h.written.cursor, h.written.bytes⟩
  obtain ⟨hgrown, -⟩ := ensureRetainedCapacity_grown (s := s) hlayout
    (u.receivedBytes + chunk.length) alloc hroom
  obtain ⟨pages, reserved, hextends⟩ := ensureRetainedCapacity_extends limits s
    { u with dataEvents := u.dataEvents + 1 } (u.receivedBytes + chunk.length) alloc
  unfold onData at hturn
  rw [if_neg (by simp [hopen])] at hturn
  dsimp only at hturn
  split at hturn
  · obtain rfl := Option.some.inj hturn
    exact (rejectUpload_terminal hafter).elim
  · split at hturn
    · obtain rfl := Option.some.inj hturn
      exact (rejectUpload_terminal hafter).elim
    · rename_i hretained
      have hlayout' := (hgrown.grown (by simpa using hretained)).1
      obtain ⟨⟨found, u'⟩, hcopy, rfl⟩ := Option.map_eq_some_iff.1 hturn
      cases found with
      | false => exact (rejectUpload_terminal hafter).elim
      | true =>
          have hextended := hwritten.extend hstart.place pages reserved
          rw [← hextends] at hextended
          have hcopied := copyChunk_written _ hlayout' hextended hcopy
          refine ⟨?_, ⟨hcopied.cursor, hcopied.bytes⟩⟩
          change u.receivedBytes + chunk.length = (bytes ++ chunk).length
          rw [List.length_append, h.received]

/-- An upload that was accepted holds nothing yet. -/
theorem openUpload_holds {declared : Nat} {alloc : Nat → Bool} {alive : Bool}
    (hafter : (openUpload limits s declared alloc alive).upload.terminal = false) :
    Holds (openUpload limits s declared alloc alive).upload [] := by
  unfold openUpload at hafter ⊢
  dsimp only at hafter ⊢
  split
  · rename_i hrefused
    rw [if_pos hrefused] at hafter
    exact (rejectUpload_terminal hafter).elim
  · obtain ⟨pages, reserved, hextends⟩ := ensureRetainedCapacity_extends limits
      { s with activeUploads := s.activeUploads + 1 } Upload.fresh declared alloc
    dsimp only
    rw [hextends]
    exact ⟨rfl, rfl, rfl⟩

/-! ## Runs -/

/-- The bytes an event brings to an upload. -/
def Event.bytesFor (number : Nat) : Event → List UInt8
  | .data n chunk _ _ => if n = number then chunk else []
  | _ => []

/-- The concatenation of the chunks sent to an upload. -/
def sentTo (number : Nat) (events : List Event) : List UInt8 :=
  events.flatMap (Event.bytesFor number)

/-- What an upload has been sent, one event more. -/
theorem sentTo_concat (number : Nat) (events : List Event) (event : Event) :
    sentTo number (events ++ [event]) = sentTo number events ++ event.bytesFor number := by
  simp [sentTo]

/-- Every upload that is not over holds what was sent to it. -/
structure Carries (limits : RelayLimits) (s : Relay) (events : List Event) : Prop where
  ok : RelayOk limits s
  unopened : ∀ n, s.uploads.length ≤ n → sentTo n events = []
  holds : ∀ (n : Nat) (u : Upload), s.uploads[n]? = some u → u.terminal = false →
    Holds u (sentTo n events)

variable {events : List Event} {event : Event} {answer : Option Answer}

/-- What a listener leaves of the uploads: all but its own as they were. -/
theorem listen_uploads {number : Nat} {listener : Upload → Option Turn}
    (h : listen s number listener = some (s', answer))
    (hsame : ∀ u turn, s.uploads[number]? = some u → listener u = some turn →
      turn.relay.uploads = s.uploads) :
    ∃ u turn, s.uploads[number]? = some u ∧ listener u = some turn ∧
      s'.uploads = s.uploads.set number turn.upload := by
  obtain ⟨u, turn, hu, hturn, rfl, -⟩ := listen_eq_some h
  refine ⟨u, turn, hu, hturn, ?_⟩
  dsimp only
  rw [hsame u turn hu hturn]

/-- A listener whose own upload keeps to what was sent keeps all to it. -/
theorem Carries.listened (h : Carries limits s events) (hok : RelayOk limits s')
    {number : Nat} {u u' : Upload} (hu : s.uploads[number]? = some u)
    (huploads : s'.uploads = s.uploads.set number u')
    (hbytes : ∀ n, n ≠ number → event.bytesFor n = [])
    (hholds : u'.terminal = false →
      Holds u' (sentTo number events ++ event.bytesFor number)) :
    Carries limits s' (events ++ [event]) := by
  obtain ⟨hlt, -⟩ := List.getElem?_eq_some_iff.1 hu
  refine ⟨hok, ?_, ?_⟩
  · intro n hn
    rw [huploads, List.length_set] at hn
    rw [sentTo_concat, h.unopened n hn, hbytes n (by omega), List.append_nil]
  · intro n v hv hopen
    rw [huploads] at hv
    rw [sentTo_concat]
    by_cases heq : number = n
    · subst heq
      rw [List.getElem?_set_self hlt] at hv
      obtain rfl := Option.some.inj hv
      exact hholds hopen
    · rw [List.getElem?_set_ne heq] at hv
      rw [hbytes n (Ne.symm heq), List.append_nil]
      exact h.holds n v hv hopen

/-- An event that ends its upload, well or not. -/
theorem Carries.ended (h : Carries limits s events) {number : Nat}
    (hstep : handle limits token s event = some (s', answer))
    (hends : event.ends = some number) (hbytes : ∀ n, event.bytesFor n = [])
    (huploads : ∃ u u', s.uploads[number]? = some u ∧
      s'.uploads = s.uploads.set number u') : Carries limits s' (events ++ [event]) := by
  have hchange := handle_change h.ok hstep
  obtain ⟨u, u', hu, hset⟩ := huploads
  obtain ⟨v, hv, hterminal⟩ := hchange.ended hends
  obtain ⟨hlt, -⟩ := List.getElem?_eq_some_iff.1 hu
  rw [hset, List.getElem?_set_self hlt] at hv
  obtain rfl := Option.some.inj hv
  refine h.listened (h.ok.change hchange) hu hset (fun n _ => hbytes n) ?_
  intro hopen
  rw [hterminal] at hopen
  cases hopen

/-- **One event keeps every open upload to what was sent to it.** -/
theorem Carries.step (h : Carries limits s events)
    (hstep : handle limits token s event = some (s', answer)) :
    Carries limits s' (events ++ [event]) := by
  have hok := h.ok.change (handle_change h.ok hstep)
  have hrejects : ∀ {number : Nat} {alive : Bool} {status : Nat} {code message : String}
      (u : Upload) (turn : Turn),
      s.uploads[number]? = some u →
      some (rejectUpload s u alive status code message) = some turn →
      turn.relay.uploads = s.uploads := by
    intro number alive status code message u turn hu hturn
    obtain rfl := Option.some.inj hturn
    exact ((h.ok.upload hu).rejected (s := s) h.ok.room).1.uploads
  cases event with
  | request req alloc alive =>
      have hquiet : Carries limits s (events ++ [.request req alloc alive]) := by
        refine ⟨h.ok, fun n hn => ?_, fun n u hu hopen => ?_⟩
        · rw [sentTo_concat, h.unopened n hn]
          rfl
        · rw [sentTo_concat]
          exact (List.append_nil _).symm ▸ h.holds n u hu hopen
      dsimp only [handle] at hstep
      split at hstep
      · cases hstep
        exact hquiet
      · split at hstep
        · split at hstep
          · cases hstep
            exact hquiet
          · rename_i declared hfree
            cases hstep
            have huploads : (openUpload limits s declared alloc alive).relay.uploads =
                s.uploads := (openUpload_keeps h.ok.room).uploads
            refine ⟨hok, fun n hn => ?_, fun n u hu hopen => ?_⟩
            · dsimp only at hn
              rw [huploads, List.length_append] at hn
              rw [sentTo_concat, h.unopened n (by omega)]
              rfl
            · dsimp only at hu
              rw [huploads] at hu
              rw [sentTo_concat]
              by_cases hold : n < s.uploads.length
              · rw [List.getElem?_append_left hold] at hu
                exact (List.append_nil _).symm ▸ h.holds n u hu hopen
              · rw [List.getElem?_append_right (by omega)] at hu
                obtain ⟨hlt, hget⟩ := List.getElem?_eq_some_iff.1 hu
                rw [List.getElem_singleton] at hget
                rw [h.unopened n (by omega), ← hget]
                rw [← hget] at hopen
                exact openUpload_holds hopen
        · split at hstep
          · cases hstep
            exact hquiet
          · cases hstep
            exact hquiet
  | data number chunk alloc alive =>
      obtain ⟨u, turn, hu, hturn, huploads⟩ := listen_uploads hstep (fun u turn hu hturn => by
        obtain ⟨turn', hturn', hkeeps, -⟩ :=
          onData_keeps (s := s) (h.ok.upload hu) h.ok.room chunk alloc alive
        rw [Option.some.inj (hturn.symm.trans hturn')]
        exact hkeeps.uploads)
      refine h.listened hok hu huploads (fun n hn => if_neg (Ne.symm hn)) ?_
      intro hafter
      have hbytes : Event.bytesFor number (.data number chunk alloc alive) = chunk :=
        if_pos rfl
      rw [hbytes]
      cases hopen : u.terminal with
      | true =>
          obtain ⟨turn', hturn', -, hover⟩ :=
            onData_keeps (s := s) (h.ok.upload hu) h.ok.room chunk alloc alive
          rw [Option.some.inj (hturn.symm.trans hturn'), hover hopen, hopen] at hafter
          cases hafter
      | false =>
          exact onData_holds (h.ok.upload hu) h.ok.room hopen (h.holds number u hu hopen)
            hturn hafter
  | finish number ids =>
      obtain ⟨u, turn, hu, -, huploads⟩ := listen_uploads hstep (fun u turn hu hturn => by
        obtain ⟨-, rfl⟩ | ⟨-, id, -, hstores⟩ := onEnd_stores (h.ok.upload hu) hturn
        · rfl
        · exact hstores.uploads)
      exact h.ended hstep rfl (fun _ => rfl) ⟨u, turn.upload, hu, huploads⟩
  | aborted number alive =>
      obtain ⟨u, turn, hu, -, huploads⟩ := listen_uploads hstep hrejects
      exact h.ended hstep rfl (fun _ => rfl) ⟨u, turn.upload, hu, huploads⟩
  | error number alive =>
      obtain ⟨u, turn, hu, -, huploads⟩ := listen_uploads hstep hrejects
      exact h.ended hstep rfl (fun _ => rfl) ⟨u, turn.upload, hu, huploads⟩
  | close number alive =>
      obtain ⟨u, turn, hu, -, huploads⟩ := listen_uploads hstep (fun u turn hu hturn => by
        split at hturn
        · obtain rfl := Option.some.inj hturn
          rfl
        · exact hrejects u turn hu hturn)
      exact h.ended hstep rfl (fun _ => rfl) ⟨u, turn.upload, hu, huploads⟩

/-- After any events every open upload holds what was sent to it. -/
theorem Carries.run {sent : List Event} (h : Carries limits s sent)
    (hrun : Gateway.run limits token s events = some s') : Carries limits s' (sent ++ events) := by
  induction events generalizing s sent with
  | nil =>
      obtain rfl := Option.some.inj hrun
      rwa [List.append_nil]
  | cons event events ih =>
      obtain ⟨⟨s₁, answer⟩, hstep, hrest⟩ := Option.bind_eq_some_iff.1 hrun
      have hlast := ih (h.step hstep) hrest
      rwa [List.append_assoc] at hlast

theorem Carries.empty (limits : RelayLimits) : Carries limits Relay.empty [] :=
  ⟨RelayOk.empty limits, fun _ _ => rfl, fun n u hu => by cases hu⟩

/-! ## Stored payloads -/

/-- No event takes a payload away or puts one before it. -/
theorem Change.payloads (h : Change limits s event s') : s.payloads <+: s'.payloads := by
  cases h with
  | answered hends => exact List.prefix_refl _
  | @opened turn hends hfree hturn =>
      have hsame : turn.relay.payloads = s.payloads := hturn.payloads
      exact hsame ▸ List.prefix_refl _
  | @kept number u turn hu hturn hover hends =>
      have hsame : turn.relay.payloads = s.payloads := hturn.payloads
      exact hsame ▸ List.prefix_refl _
  | stored hevent hu hopen hturn =>
      dsimp only [Turn.after]
      rw [hturn.payloads]
      exact List.prefix_append _ _

/-- Payloads and the pages of finished uploads stay through any events. -/
theorem RelayOk.stays (h : RelayOk limits s)
    (hrun : Gateway.run limits token s events = some s') :
    s.payloads <+: s'.payloads ∧ ∀ (n : Nat) (u : Upload), s.uploads[n]? = some u →
      u.terminal = true → s'.uploads[n]? = some u := by
  induction events generalizing s with
  | nil =>
      obtain rfl := Option.some.inj hrun
      exact ⟨List.prefix_refl _, fun n u hu _ => hu⟩
  | cons event events ih =>
      obtain ⟨⟨s₁, answer⟩, hstep, hrest⟩ := Option.bind_eq_some_iff.1 hrun
      have hchange := handle_change h hstep
      obtain ⟨hpayloads, huploads⟩ := ih (h.change hchange) hrest
      exact ⟨hchange.payloads.trans hpayloads,
        fun n u hu hover => huploads n u (hchange.over hu hover) hover⟩

/-- A payload that is found stays the one that is found. -/
theorem Relay.get_of_prefix {id : JsStr} {payload : StoredPayload}
    (hhead : s.payloads <+: s'.payloads) (h : s.get id = some payload) :
    s'.get id = some payload := by
  obtain ⟨more, hmore⟩ := hhead
  obtain ⟨e, he, rfl⟩ := Option.map_eq_some_iff.1 h
  unfold Relay.get
  rw [← hmore, List.find?_append, he]
  rfl

/-- A payload that can be read is there. -/
theorem Relay.has_of_get {id : JsStr} {payload : StoredPayload}
    (h : s.get id = some payload) : s.has id = true := by
  obtain ⟨e, he, -⟩ := Option.map_eq_some_iff.1 h
  unfold Relay.has
  rw [List.any_eq_true]
  have hfound := List.find?_some he
  exact ⟨e, List.mem_of_find?_eq_some he, hfound⟩

/-- A rejected upload is not stored. -/
theorem rejectUpload_answer {alive : Bool} {status : Nat} {code message : String}
    {id : JsStr} {size : Nat} {observation : PayloadStorageObservation} :
    (rejectUpload s u alive status code message).answer ≠
      some (.stored id size observation) := by
  unfold rejectUpload sendUploadError
  split
  · simp
  · dsimp only
    split <;> simp

/-- Only the end of an upload is answered with a payload id. -/
theorem handle_stored {id : JsStr} {size : Nat} {observation : PayloadStorageObservation}
    (h : handle limits token s event = some (s', some (.stored id size observation))) :
    ∃ number ids, event = .finish number ids := by
  cases event with
  | finish number ids => exact ⟨number, ids, rfl⟩
  | request req alloc alive =>
      exfalso
      dsimp only [handle] at h
      split at h
      · cases h
      · split at h
        · split at h
          · rename_i answer hrefused
            cases h
            unfold uploadRefusal sendUploadError uploadRefusal.slot sendUploadError at hrefused
            grind
          · obtain ⟨-, hanswer⟩ := Prod.mk.inj (Option.some.inj h)
            unfold openUpload at hanswer
            dsimp only at hanswer
            split at hanswer
            · exact rejectUpload_answer hanswer
            · cases hanswer
        · split at h
          · obtain ⟨-, hanswer⟩ := Prod.mk.inj (Option.some.inj h)
            unfold download at hanswer
            grind
          · cases h
  | data number chunk alloc alive =>
      exfalso
      obtain ⟨u, turn, -, hturn, -, hanswer⟩ := listen_eq_some h
      unfold onData at hturn
      split at hturn
      · obtain rfl := Option.some.inj hturn
        cases hanswer
      · dsimp only at hturn
        split at hturn
        · obtain rfl := Option.some.inj hturn
          exact rejectUpload_answer hanswer.symm
        · split at hturn
          · obtain rfl := Option.some.inj hturn
            exact rejectUpload_answer hanswer.symm
          · obtain ⟨⟨found, u'⟩, -, rfl⟩ := Option.map_eq_some_iff.1 hturn
            cases found with
            | true => cases hanswer
            | false => exact rejectUpload_answer hanswer.symm
  | aborted number alive =>
      obtain ⟨u, turn, -, hturn, -, hanswer⟩ := listen_eq_some h
      obtain rfl := Option.some.inj hturn
      exact (rejectUpload_answer hanswer.symm).elim
  | error number alive =>
      obtain ⟨u, turn, -, hturn, -, hanswer⟩ := listen_eq_some h
      obtain rfl := Option.some.inj hturn
      exact (rejectUpload_answer hanswer.symm).elim
  | close number alive =>
      obtain ⟨u, turn, -, hturn, -, hanswer⟩ := listen_eq_some h
      split at hturn
      · obtain rfl := Option.some.inj hturn
        cases hanswer
      · obtain rfl := Option.some.inj hturn
        exact (rejectUpload_answer hanswer.symm).elim

/-- What the upload that is answered with an id left in the relay. -/
theorem RelayOk.finished (h : RelayOk limits s) {number : Nat} {ids : List JsStr}
    {id : JsStr} {size : Nat} {observation : PayloadStorageObservation}
    (hstep : handle limits token s (.finish number ids) =
      some (s', some (.stored id size observation))) :
    id ∈ ids ∧ s.has id = false ∧ ∃ u v : Upload, s.uploads[number]? = some u ∧
      u.terminal = false ∧ size = u.receivedBytes ∧ s'.uploads[number]? = some v ∧
      v.terminal = true ∧ v.segments = u.segments ∧
      s'.get id = some ⟨u.reservedAllocatedBytes, u.receivedBytes, number⟩ := by
  obtain ⟨u, turn, hu, hturn, rfl, hanswer⟩ := listen_eq_some hstep
  obtain ⟨hlt, -⟩ := List.getElem?_eq_some_iff.1 hu
  unfold onEnd at hturn
  split at hturn
  · obtain rfl := Option.some.inj hturn
    cases hanswer
  · rename_i hterminal
    have hopen := (h.upload hu).open_of (by simpa using hterminal)
    obtain ⟨id', hfind, rfl⟩ := Option.map_eq_some_iff.1 hturn
    have hfresh : s.has id' = false := by
      have hfound := List.find?_some hfind
      simpa using hfound
    simp only [Option.some.injEq, Answer.stored.injEq] at hanswer
    obtain ⟨rfl, rfl, -⟩ := hanswer
    have hnone : s.payloads.find? (fun e => decide (e.1 = id)) = none := by
      rw [List.find?_eq_none]
      intro e he hid
      have hhas : s.has id = true := List.any_eq_true.2 ⟨e, he, hid⟩
      rw [hfresh] at hhas
      cases hhas
    refine ⟨List.mem_of_find?_eq_some hfind, hfresh, u, _, hu, hopen.terminal, rfl,
      List.getElem?_set_self ?_, ?_⟩
    · simp only [release, hopen.released, Bool.false_eq_true, if_false]
      exact hlt
    · simp only [release, hopen.released, Bool.false_eq_true, if_false, if_true]
      refine ⟨trivial, trivial, ?_⟩
      unfold Relay.get
      simp only [List.find?_append, hnone, Option.none_or, List.find?_cons, decide_true,
        Option.map_some]

/-! ## Payload ids -/

/-- What the default id factory returns: `pay_` and sixteen random bytes. -/
def DefaultId (id : JsStr) : Prop :=
  ∃ random : List Nat, random.length = 16 ∧ (∀ b ∈ random, b < 256) ∧
    id = js "pay_" ++ Python.toHex random

/-- The path of a default id names it. -/
theorem payloadId_default {id : JsStr} (h : DefaultId id) :
    payloadId (js "/v1/payload/" ++ id) = some id := by
  obtain ⟨random, hlength, hbytes, rfl⟩ := h
  have hdrop : (js "/v1/payload/" ++ (js "pay_" ++ Python.toHex random)).drop 12 =
      js "pay_" ++ Python.toHex random := @List.drop_left _ (js "/v1/payload/") _
  have hdigits : (js "pay_" ++ Python.toHex random).drop 4 = Python.toHex random :=
    @List.drop_left _ (js "pay_") _
  have hcount : (Python.toHex random).length = 32 := by
    rw [Python.length_toHex, hlength]
  have hall : (Python.toHex random).all
      (fun c => (48 ≤ c && c ≤ 57) || (97 ≤ c && c ≤ 102)) = true := by
    rw [List.all_eq_true]
    intro c hc
    simpa using Python.toHex_range hbytes c hc
  have hpath : startsWith (js "/v1/payload/" ++ (js "pay_" ++ Python.toHex random))
      (js "/v1/payload/") = true := List.isPrefixOf_iff_prefix.2 (List.prefix_append _ _)
  have hhead : startsWith (js "pay_" ++ Python.toHex random) (js "pay_") = true :=
    List.isPrefixOf_iff_prefix.2 (List.prefix_append _ _)
  unfold payloadId
  simp only [hdrop, hpath, hhead, hdigits, hcount, hall, decide_true, Bool.and_self, if_true]

/-- A download request of a payload. -/
structure Downloads (token id : JsStr) (req : Request) : Prop where
  method : req.method = js "GET"
  url : req.url = js "/v1/payload/" ++ id
  bearer : hasBearer req token = true

/-- A download of a payload that is there answers the text of its pages. -/
theorem handle_download {id : JsStr} {payload : StoredPayload} {req : Request}
    (hid : DefaultId id) (hreq : Downloads token id req) (hget : s.get id = some payload)
    {alloc : Nat → Bool} {alive : Bool} :
    handle limits token s (.request req alloc alive) = some (s, some (.payload
      payload.byteLength ((s.segmentsOf payload).flatten.take payload.byteLength))) := by
  have hstart : startsWith req.url (js "/v1/payload/") = true := by
    rw [hreq.url]
    exact List.isPrefixOf_iff_prefix.2 (List.prefix_append _ _)
  have hhealth : req.url ≠ js "/v1/health" := by
    intro heq
    rw [heq] at hstart
    exact absurd hstart (by decide)
  have hpost : js "GET" ≠ js "POST" := by decide
  have hhead : js "GET" ≠ js "HEAD" := by decide
  dsimp only [handle]
  rw [if_neg (fun h => hhealth h.2), if_neg (fun h => hpost (hreq.method.symm.trans h.1)),
    if_pos ⟨Or.inl hreq.method, hstart⟩]
  unfold download
  rw [hreq.bearer, hreq.url, payloadId_default hid, Option.bind_some, hget]
  simp only [Bool.not_true, Bool.false_eq_true, if_false, hreq.method, hhead, decide_false,
    Bool.false_or, decide_eq_true_eq]
  by_cases hempty : payload.byteLength = 0
  · rw [if_pos hempty, hempty, List.take_zero]
  · rw [if_neg hempty, downloadBody_eq]

/-! ## The round trip -/

/-- **Relay round trip.**  Where the relay answers an event with a payload id,
the event is the end of an upload, and from then on, after any further events,
every download of the id answers the concatenation of the chunks sent to that
upload and its length.  The id was free before and is given to no other
upload. -/
theorem relay_round_trip {later : List Event} {id : JsStr} {size : Nat}
    {observation : PayloadStorageObservation} {s₁ s₂ : Relay}
    (hids : ∀ number ids, event = .finish number ids → ∀ id ∈ ids, DefaultId id)
    (hrun : run limits token Relay.empty events = some s)
    (hstored : handle limits token s event = some (s₁, some (.stored id size observation)))
    (hlater : run limits token s₁ later = some s₂) :
    ∃ number ids, event = .finish number ids ∧ size = (sentTo number events).length ∧
      s.has id = false ∧
      (∀ req alloc alive, Downloads token id req →
        handle limits token s₂ (.request req alloc alive) = some (s₂, some (.payload
          (sentTo number events).length ((sentTo number events).map some)))) ∧
      ∀ event' s₃ id' size' observation',
        handle limits token s₂ event' = some (s₃, some (.stored id' size' observation')) →
        id' ≠ id := by
  have hcarries := (Carries.empty limits).run hrun
  rw [List.nil_append] at hcarries
  obtain ⟨number, ids, rfl⟩ := handle_stored hstored
  obtain ⟨hmem, hfresh, u, v, hu, hopen, hsize, hv, hover, hsegments, hget⟩ :=
    hcarries.ok.finished hstored
  have hholds := hcarries.holds number u hu hopen
  have hok := hcarries.ok.change (handle_change hcarries.ok hstored)
  obtain ⟨hpayloads, huploads⟩ := hok.stays hlater
  have hget₂ := Relay.get_of_prefix hpayloads hget
  have hpages : s₂.segmentsOf ⟨u.reservedAllocatedBytes, u.receivedBytes, number⟩ =
      u.segments := by
    simp [Relay.segmentsOf, huploads number v hv hover, hsegments]
  refine ⟨number, ids, rfl, hsize.trans hholds.received, hfresh, ?_, ?_⟩
  · intro req alloc alive hreq
    rw [handle_download (hids number ids rfl id hmem) hreq hget₂, hpages]
    simp only [hholds.received, hholds.written.bytes]
  · intro event' s₃ id' size' observation' hstored' heq
    obtain ⟨number', ids', rfl⟩ := handle_stored hstored'
    have hok₂ := hok.run hlater
    have hfree := (hok₂.finished hstored').2.1
    rw [heq, Relay.has_of_get hget₂] at hfree
    cases hfree

/-! ### Two uploads at once -/

/-- An id made of one random byte. -/
def sampleId (byte : Nat) : JsStr := js "pay_" ++ Python.toHex (List.replicate 16 byte)

def sampleData (number : Nat) (chunk : List UInt8) : Event :=
  .data number chunk (fun _ => true) true

/-- Three chunks of the first upload, one of them empty, between those of a
second one that ends later. -/
def twoUploads : List Event :=
  [sampleUpload none, sampleData 0 [1, 2], sampleUpload (some (js "3")), sampleData 1 [9],
    sampleData 0 [], sampleData 0 [3]]

def sampleDownload (id : JsStr) : Request :=
  ⟨js "GET", js "/v1/payload/" ++ id, some (js "Bearer gw"), none⟩

/-- The second upload after the first one, whose id it is given as well. -/
def secondUpload (s : Relay) : Option Answer → Option Relay
  | some (.stored id _ _) =>
      if id = sampleId 7 then
        run sampleLimits (js "gw") s [sampleData 1 [8], .finish 1 [sampleId 7, sampleId 8]]
      else none
  | _ => none

/-- Three bytes sent in two chunks are downloaded as they were sent. -/
theorem relay_round_trip_two :
    ∃ s, handle sampleLimits (js "gw") s
        (.request (sampleDownload (sampleId 7)) (fun _ => true) true) =
      some (s, some (.payload 3 [some 1, some 2, some 3])) := by
  have hrun : ((run sampleLimits (js "gw") Relay.empty twoUploads).bind fun s =>
      (handle sampleLimits (js "gw") s (.finish 0 [sampleId 7])).bind fun stored =>
        secondUpload stored.1 stored.2).isSome = true := by
    decide +kernel
  obtain ⟨s₂, hrun⟩ := Option.isSome_iff_exists.1 hrun
  obtain ⟨s, hs, hrun⟩ := Option.bind_eq_some_iff.1 hrun
  obtain ⟨⟨s₁, answer⟩, hstored, hlater⟩ := Option.bind_eq_some_iff.1 hrun
  dsimp only at hlater
  unfold secondUpload at hlater
  split at hlater
  · split at hlater
    · rename_i id size observation hid
      subst hid
      have hids : ∀ number ids, Event.finish 0 [sampleId 7] = .finish number ids →
          ∀ id ∈ ids, DefaultId id := by
        intro number ids heq id hmem
        cases heq
        obtain rfl := List.mem_singleton.1 hmem
        exact ⟨List.replicate 16 7, by decide, by decide, rfl⟩
      obtain ⟨number, ids, hevent, -, -, hdownload, -⟩ :=
        relay_round_trip hids hs hstored hlater
      cases hevent
      exact ⟨s₂, hdownload (sampleDownload (sampleId 7)) _ _
        ⟨rfl, rfl, by decide⟩⟩
    · cases hlater
  · cases hlater

end Gateway
