import StockAnalyst.RelayUpload

/-!
# The quotas of the relay

The counters of the relay are the sums over what is stored and what is under
way, and a terminal event takes a reservation back once.  A payload is stored
by the one event that ends its upload well; from then on nothing writes to its
pages.
-/

namespace Gateway

open Js

variable {limits : RelayLimits} {token : JsStr} {s s' : Relay} {u u' : Upload}

/-! ## The relay between two events -/

/-- The stored payloads with their pages. -/
def Relay.contents (s : Relay) : List (JsStr × StoredPayload × List Buffer) :=
  s.payloads.map fun e => (e.1, e.2, s.segmentsOf e.2)

structure RelayOk (limits : RelayLimits) (s : Relay) : Prop where
  stored : s.storedAllocatedBytes = (s.payloads.map (fun e => (e.2.allocatedBytes : Int))).sum
  bytes : s.inFlightAllocatedBytes = (s.uploads.map Upload.openBytes).sum
  slots : s.activeUploads = (s.uploads.map Upload.openSlot).sum
  room : s.storedAllocatedBytes + s.inFlightAllocatedBytes ≤ limits.maxRelayBytes
  places : s.payloads.length + s.activeUploads ≤ limits.maxPayloads
  uploads : ∀ u ∈ s.uploads, UploadOk limits u
  kept : ∀ e ∈ s.payloads, ∃ u, s.uploads[e.2.segments]? = some u ∧ u.terminal = true ∧
    u.segments.length ≤ maxPayloadSegments

/-- Replacing one element changes a sum by the difference. -/
theorem sum_map_set {α : Type} (f : α → Int) {l : List α} {n : Nat} {a b : α}
    (h : l[n]? = some a) : ((l.set n b).map f).sum = (l.map f).sum - f a + f b := by
  induction l generalizing n with
  | nil => cases h
  | cons x l ih =>
      cases n with
      | zero =>
          obtain rfl := Option.some.inj h
          simp only [List.set_cons_zero, List.map_cons, List.sum_cons]
          omega
      | succ n =>
          have htail := ih (n := n) (by simpa using h)
          simp only [List.set_cons_succ, List.map_cons, List.sum_cons, htail]
          omega

/-- Counted things are not negative. -/
theorem sum_map_nonneg {α : Type} (f : α → Int) (hf : ∀ a, 0 ≤ f a) (l : List α) :
    0 ≤ (l.map f).sum := by
  induction l with
  | nil => exact le_refl _
  | cons x l ih =>
      have := hf x
      simp only [List.map_cons, List.sum_cons]
      omega

theorem Upload.openBytes_nonneg (u : Upload) : 0 ≤ u.openBytes := by
  unfold openBytes
  split <;> omega

theorem Upload.openSlot_nonneg (u : Upload) : 0 ≤ u.openSlot := by
  unfold openSlot
  split <;> omega

/-- What an upload that is over holds stays where it is. -/
theorem RelayOk.contents_set (h : RelayOk limits s) {number : Nat} {relay : Relay}
    (hu : s.uploads[number]? = some u) (hover : u.terminal = true → u' = u)
    (hpayloads : relay.payloads = s.payloads)
    (huploads : relay.uploads = s.uploads.set number u') : relay.contents = s.contents := by
  unfold Relay.contents
  rw [hpayloads]
  refine List.map_congr_left ?_
  intro e he
  obtain ⟨v, hv, hterminal, -⟩ := h.kept e he
  have hsame : relay.uploads[e.2.segments]? = some v := by
    rw [huploads, List.getElem?_set]
    split
    · rename_i heq
      rw [heq, hv] at hu
      obtain rfl := Option.some.inj hu
      obtain ⟨hlt, -⟩ := List.getElem?_eq_some_iff.1 hv
      simp [heq, hlt, hover hterminal]
    · exact hv
  simp [Relay.segmentsOf, hsame, hv]

/-- A turn that stores nothing keeps the accounts. -/
theorem RelayOk.keeps (h : RelayOk limits s) {number : Nat} {turn : Turn}
    (hu : s.uploads[number]? = some u) (hturn : Keeps limits s u turn)
    (hover : u.terminal = true → turn.upload = u) :
    RelayOk limits { turn.relay with
      uploads := turn.relay.uploads.set number turn.upload } := by
  have hbytes := hturn.bytes
  have hslots := hturn.slots
  refine ⟨?_, ?_, ?_, hturn.room, ?_, ?_, ?_⟩
  · rw [hturn.stored, hturn.payloads]
    exact h.stored
  · rw [hturn.uploads, sum_map_set Upload.openBytes hu]
    have := h.bytes
    dsimp only
    omega
  · rw [hturn.uploads, sum_map_set Upload.openSlot hu]
    have := h.slots
    dsimp only
    omega
  · have := h.places
    have := hturn.fewer
    rw [hturn.payloads]
    dsimp only
    omega
  · intro v hv
    rw [hturn.uploads] at hv
    rcases List.mem_or_eq_of_mem_set hv with hv | rfl
    · exact h.uploads v hv
    · exact hturn.ok
  · intro e he
    rw [hturn.payloads] at he
    obtain ⟨v, hv, hterminal, hpages⟩ := h.kept e he
    rw [hturn.uploads]
    by_cases heq : number = e.2.segments
    · rw [← heq, hu] at hv
      obtain rfl := Option.some.inj hv
      obtain ⟨hlt, -⟩ := List.getElem?_eq_some_iff.1 hu
      refine ⟨turn.upload, ?_, ?_, ?_⟩
      · rw [← heq, List.getElem?_set_self hlt]
      · rw [hover hterminal]
        exact hterminal
      · rw [hover hterminal]
        exact hpages
    · exact ⟨v, by rw [List.getElem?_set_ne heq]; exact hv, hterminal, hpages⟩

/-- A new upload takes a slot that was free. -/
theorem RelayOk.opened (h : RelayOk limits s) {turn : Turn}
    (hfree : s.payloads.length + s.activeUploads < limits.maxPayloads)
    (hturn : Keeps limits { s with activeUploads := s.activeUploads + 1 } Upload.fresh turn) :
    RelayOk limits { turn.relay with uploads := turn.relay.uploads ++ [turn.upload] } := by
  have hbytes := hturn.bytes
  have hslots := hturn.slots
  have hfresh : Upload.fresh.openBytes = 0 := rfl
  have hfresh' : Upload.fresh.openSlot = 1 := rfl
  refine ⟨?_, ?_, ?_, hturn.room, ?_, ?_, ?_⟩
  · rw [hturn.stored, hturn.payloads]
    exact h.stored
  · have := h.bytes
    rw [hturn.uploads]
    simp only [List.map_append, List.map_cons, List.map_nil, List.sum_append, List.sum_cons,
      List.sum_nil]
    dsimp only at hbytes
    omega
  · have := h.slots
    rw [hturn.uploads]
    simp only [List.map_append, List.map_cons, List.map_nil, List.sum_append, List.sum_cons,
      List.sum_nil]
    dsimp only at hslots
    omega
  · have hfewer := hturn.fewer
    rw [hturn.payloads]
    dsimp only at hfewer ⊢
    omega
  · intro v hv
    rw [hturn.uploads] at hv
    rcases List.mem_append.1 hv with hv | hv
    · exact h.uploads v hv
    · obtain rfl := List.mem_singleton.1 hv
      exact hturn.ok
  · intro e he
    rw [hturn.payloads] at he
    obtain ⟨v, hv, hrest⟩ := h.kept e he
    obtain ⟨hlt, -⟩ := List.getElem?_eq_some_iff.1 hv
    refine ⟨v, ?_, hrest⟩
    rw [hturn.uploads, List.getElem?_append_left hlt]
    exact hv

/-- A stored payload takes its bytes and its slot from its upload. -/
theorem RelayOk.stores (h : RelayOk limits s) {number : Nat} {id : JsStr} {turn : Turn}
    (hu : s.uploads[number]? = some u) (hopen : Open limits u)
    (hturn : Stores s number u id turn) :
    RelayOk limits { turn.relay with
      uploads := turn.relay.uploads.set number turn.upload } := by
  obtain ⟨hlt, -⟩ := List.getElem?_eq_some_iff.1 hu
  have hbytes : u.openBytes = u.reservedAllocatedBytes := by
    simp [Upload.openBytes, hopen.released]
  have hslot : u.openSlot = 1 := by
    simp [Upload.openSlot, hopen.released]
  have hstored := hturn.stored
  have hinFlight := hturn.inFlight
  have hactive := hturn.active
  refine ⟨?_, ?_, ?_, ?_, ?_, ?_, ?_⟩
  · rw [hstored, hturn.payloads, h.stored]
    simp
  · rw [hturn.uploads, sum_map_set Upload.openBytes hu, hturn.upload]
    have := h.bytes
    simp only [Upload.openBytes, if_true] at hbytes ⊢
    omega
  · rw [hturn.uploads, sum_map_set Upload.openSlot hu, hturn.upload]
    have := h.slots
    simp only [Upload.openSlot, if_true] at hslot ⊢
    omega
  · have := h.room
    dsimp only
    omega
  · have := h.places
    rw [hturn.payloads]
    simp only [List.length_append, List.length_cons, List.length_nil]
    push_cast
    omega
  · intro v hv
    rw [hturn.uploads] at hv
    rcases List.mem_or_eq_of_mem_set hv with hv | rfl
    · exact h.uploads v hv
    · rw [hturn.upload]
      exact ⟨rfl, rfl, fun hfalse => by cases hfalse⟩
  · intro e he
    rw [hturn.payloads] at he
    have hself : (turn.relay.uploads.set number turn.upload)[number]? = some turn.upload := by
      rw [hturn.uploads, List.getElem?_set_self hlt]
    have hpages : turn.upload.terminal = true ∧
        turn.upload.segments.length ≤ maxPayloadSegments := by
      rw [hturn.upload]
      exact ⟨rfl, hopen.layout.segments_le⟩
    by_cases heq : number = e.2.segments
    · exact ⟨turn.upload, by rw [← heq]; exact hself, hpages⟩
    · rcases List.mem_append.1 he with he | he
      · obtain ⟨v, hv, hrest⟩ := h.kept e he
        refine ⟨v, ?_, hrest⟩
        rw [hturn.uploads, List.getElem?_set_ne heq]
        exact hv
      · obtain rfl := List.mem_singleton.1 he
        exact absurd rfl heq

/-- The contents grow by the payload that was stored. -/
theorem RelayOk.contents_stores (h : RelayOk limits s) {number : Nat} {id : JsStr}
    {turn : Turn} (hu : s.uploads[number]? = some u) (hopen : Open limits u)
    (hturn : Stores s number u id turn) :
    Relay.contents { turn.relay with
      uploads := turn.relay.uploads.set number turn.upload } =
      s.contents ++ [(id, ⟨u.reservedAllocatedBytes, u.receivedBytes, number⟩, u.segments)] := by
  obtain ⟨hlt, -⟩ := List.getElem?_eq_some_iff.1 hu
  unfold Relay.contents
  rw [hturn.payloads, List.map_append]
  congr 1
  · refine List.map_congr_left ?_
    intro e he
    obtain ⟨v, hv, hterminal, -⟩ := h.kept e he
    have hne : number ≠ e.2.segments := by
      intro heq
      rw [← heq, hu] at hv
      obtain rfl := Option.some.inj hv
      rw [hopen.terminal] at hterminal
      cases hterminal
    simp [Relay.segmentsOf, hturn.uploads, List.getElem?_set_ne hne]
  · simp [Relay.segmentsOf, hturn.uploads, hlt, hturn.upload]

/-! ## Steps -/

/-- The event ended an upload that was not over and stored its payload. -/
def Event.StoresIn (event : Event) (s s' : Relay) : Prop :=
  ∃ number ids u id, event = .finish number ids ∧ s.uploads[number]? = some u ∧
    u.terminal = false ∧ s.has id = false ∧ s'.contents = s.contents ++
      [(id, ⟨u.reservedAllocatedBytes, u.receivedBytes, number⟩, u.segments)]

/-- What a listener of an upload does to the relay. -/
theorem listen_eq_some {number : Nat} {listener : Upload → Option Turn}
    {answer : Option Answer} (h : listen s number listener = some (s', answer)) :
    ∃ u turn, s.uploads[number]? = some u ∧ listener u = some turn ∧
      s' = { turn.relay with uploads := turn.relay.uploads.set number turn.upload } ∧
      answer = turn.answer := by
  obtain ⟨turn, hturn, heq⟩ := Option.map_eq_some_iff.1 h
  obtain ⟨u, hu, hlistener⟩ := Option.bind_eq_some_iff.1 hturn
  obtain ⟨hs, hanswer⟩ := Prod.mk.inj heq
  exact ⟨u, turn, hu, hlistener, hs.symm, hanswer.symm⟩

/-- Every upload of a relay in order is in order. -/
theorem RelayOk.upload (h : RelayOk limits s) {number : Nat}
    (hu : s.uploads[number]? = some u) : UploadOk limits u :=
  h.uploads u (List.mem_of_getElem? hu)

/-- An upload is let in only where a payload is still free. -/
theorem uploadRefusal_free {req : Request} {alive : Bool} {declared : Nat}
    (h : uploadRefusal limits s req token alive = .ok declared) :
    s.payloads.length + s.activeUploads < limits.maxPayloads := by
  have hslot : ∀ {n}, uploadRefusal.slot limits s alive n = .ok declared →
      s.payloads.length + s.activeUploads < limits.maxPayloads := by
    intro n hn
    unfold uploadRefusal.slot at hn
    split at hn
    · cases hn
    · omega
  unfold uploadRefusal at h
  split at h
  · cases h
  · split at h
    · cases h
    · split at h
      · cases h
      · exact hslot h
    · exact hslot h

/-- A new upload touches no payload. -/
theorem RelayOk.contents_opened (h : RelayOk limits s) {turn : Turn}
    (hturn : Keeps limits { s with activeUploads := s.activeUploads + 1 } Upload.fresh turn) :
    Relay.contents { turn.relay with uploads := turn.relay.uploads ++ [turn.upload] } =
      s.contents := by
  unfold Relay.contents
  rw [hturn.payloads]
  refine List.map_congr_left ?_
  intro e he
  obtain ⟨v, hv, -⟩ := h.kept e he
  obtain ⟨hlt, -⟩ := List.getElem?_eq_some_iff.1 hv
  simp [Relay.segmentsOf, hturn.uploads, List.getElem?_append_left hlt]

/-- The upload whose end the event is. -/
def Event.ends : Event → Option Nat
  | .finish number _ => some number
  | .aborted number _ => some number
  | .error number _ => some number
  | .close number _ => some number
  | _ => none

/-- The relay after a listener of an upload. -/
def Turn.after (turn : Turn) (number : Nat) : Relay :=
  { turn.relay with uploads := turn.relay.uploads.set number turn.upload }

/-- What one event can do to the relay. -/
inductive Change (limits : RelayLimits) (s : Relay) (event : Event) : Relay → Prop
  | answered (hends : event.ends = none) : Change limits s event s
  | opened {turn : Turn} (hends : event.ends = none)
      (hfree : s.payloads.length + s.activeUploads < limits.maxPayloads)
      (hturn : Keeps limits { s with activeUploads := s.activeUploads + 1 } Upload.fresh turn) :
      Change limits s event
        { turn.relay with uploads := turn.relay.uploads ++ [turn.upload] }
  | kept {number : Nat} {u : Upload} {turn : Turn} (hu : s.uploads[number]? = some u)
      (hturn : Keeps limits s u turn) (hover : u.terminal = true → turn.upload = u)
      (hends : ∀ n, event.ends = some n → n = number ∧ turn.upload.terminal = true) :
      Change limits s event (turn.after number)
  | stored {number : Nat} {ids : List JsStr} {u : Upload} {id : JsStr} {turn : Turn}
      (hevent : event = .finish number ids) (hu : s.uploads[number]? = some u)
      (hopen : Open limits u) (hturn : Stores s number u id turn) :
      Change limits s event (turn.after number)

/-- A listener that rejects the upload. -/
theorem RelayOk.rejects (h : RelayOk limits s) {event : Event} {number : Nat}
    (hu : s.uploads[number]? = some u) (hends : event.ends = some number) {alive : Bool}
    {status : Nat} {code message : String} :
    Change limits s event ((rejectUpload s u alive status code message).after number) := by
  obtain ⟨hkeeps, hover⟩ := (h.upload hu).rejected (s := s) h.room
  refine Change.kept hu hkeeps hover ?_
  intro n hn
  exact ⟨Option.some.inj (hn.symm.trans hends), rejectUpload_ends⟩

/-- A terminal event of an upload that is over. -/
theorem RelayOk.ignores (h : RelayOk limits s) {event : Event} {number : Nat}
    (hu : s.uploads[number]? = some u) (hends : event.ends = some number)
    (hterminal : u.terminal = true) :
    Change limits s event (Turn.after ⟨s, u, none⟩ number) := by
  refine Change.kept hu ((h.upload hu).over h.room none) (fun _ => rfl) ?_
  intro n hn
  exact ⟨Option.some.inj (hn.symm.trans hends), hterminal⟩

/-- **What a step does**, one case for each kind of event. -/
theorem handle_change (h : RelayOk limits s) {event : Event} {answer : Option Answer}
    (hstep : handle limits token s event = some (s', answer)) : Change limits s event s' := by
  cases event with
  | request req alloc alive =>
      dsimp only [handle] at hstep
      split at hstep
      · cases hstep
        exact Change.answered rfl
      · split at hstep
        · split at hstep
          · cases hstep
            exact Change.answered rfl
          · rename_i declared hfree
            cases hstep
            exact Change.opened rfl (uploadRefusal_free hfree) (openUpload_keeps h.room)
        · split at hstep
          · cases hstep
            exact Change.answered rfl
          · cases hstep
            exact Change.answered rfl
  | data number chunk alloc alive =>
      obtain ⟨u, turn, hu, hturn, rfl, -⟩ := listen_eq_some hstep
      obtain ⟨turn', hturn', hkeeps, hover⟩ :=
        onData_keeps (s := s) (h.upload hu) h.room chunk alloc alive
      obtain rfl := Option.some.inj (hturn.symm.trans hturn')
      exact Change.kept hu hkeeps hover (fun n hn => by cases hn)
  | finish number ids =>
      obtain ⟨u, turn, hu, hturn, rfl, -⟩ := listen_eq_some hstep
      rcases onEnd_stores (h.upload hu) hturn with ⟨hterminal, rfl⟩ | ⟨hopen, id, -, hstores⟩
      · exact h.ignores hu rfl hterminal
      · exact Change.stored rfl hu hopen hstores
  | aborted number alive =>
      obtain ⟨u, turn, hu, hturn, rfl, -⟩ := listen_eq_some hstep
      obtain rfl := Option.some.inj hturn
      exact h.rejects hu rfl
  | error number alive =>
      obtain ⟨u, turn, hu, hturn, rfl, -⟩ := listen_eq_some hstep
      obtain rfl := Option.some.inj hturn
      exact h.rejects hu rfl
  | close number alive =>
      obtain ⟨u, turn, hu, hturn, rfl, -⟩ := listen_eq_some hstep
      split at hturn
      · rename_i hterminal
        obtain rfl := Option.some.inj hturn
        exact h.ignores hu rfl hterminal
      · obtain rfl := Option.some.inj hturn
        exact h.rejects hu rfl

/-- **One event keeps the accounts.** -/
theorem RelayOk.change (h : RelayOk limits s) {event : Event}
    (hchange : Change limits s event s') : RelayOk limits s' := by
  cases hchange with
  | answered hends => exact h
  | opened hends hfree hturn => exact h.opened hfree hturn
  | kept hu hturn hover hends => exact h.keeps hu hturn hover
  | stored hevent hu hopen hturn => exact h.stores hu hopen hturn

/-- What is stored changes only where an event ends an upload well. -/
theorem RelayOk.contents_change (h : RelayOk limits s) {event : Event}
    (hchange : Change limits s event s') :
    s'.contents = s.contents ∨ event.StoresIn s s' := by
  cases hchange with
  | answered hends => exact Or.inl rfl
  | opened hends hfree hturn => exact Or.inl (h.contents_opened hturn)
  | kept hu hturn hover hends =>
      refine Or.inl (h.contents_set hu hover hturn.payloads ?_)
      dsimp only [Turn.after]
      rw [hturn.uploads]
  | @stored number ids u id turn hevent hu hopen hturn =>
      exact Or.inr ⟨number, ids, u, id, hevent, hu, hopen.terminal, hturn.fresh,
        h.contents_stores hu hopen hturn⟩

/-- An upload is over after its terminal event, whatever came before. -/
theorem Change.ended {event : Event} (h : Change limits s event s') {number : Nat}
    (hends : event.ends = some number) :
    ∃ u, s'.uploads[number]? = some u ∧ u.terminal = true := by
  cases h with
  | answered hnone => cases hnone.symm.trans hends
  | opened hnone => cases hnone.symm.trans hends
  | @kept n u turn hu hturn hover hends' =>
      obtain ⟨rfl, hterminal⟩ := hends' number hends
      obtain ⟨hlt, -⟩ := List.getElem?_eq_some_iff.1 hu
      refine ⟨turn.upload, ?_, hterminal⟩
      simp [Turn.after, hturn.uploads, hlt]
  | @stored n ids u id turn hevent hu hopen hturn =>
      rw [hevent] at hends
      obtain rfl := Option.some.inj hends
      obtain ⟨hlt, -⟩ := List.getElem?_eq_some_iff.1 hu
      refine ⟨turn.upload, ?_, by rw [hturn.upload]⟩
      simp [Turn.after, hturn.uploads, hlt]

/-- An upload that is over stays as it is. -/
theorem Change.over {event : Event} (h : Change limits s event s') {number : Nat}
    (hu : s.uploads[number]? = some u) (hterminal : u.terminal = true) :
    s'.uploads[number]? = some u := by
  obtain ⟨hlt, -⟩ := List.getElem?_eq_some_iff.1 hu
  cases h with
  | answered hnone => exact hu
  | opened hnone hfree hturn =>
      dsimp only
      rw [hturn.uploads, List.getElem?_append_left hlt]
      exact hu
  | @kept n v turn hv hturn hover hends =>
      dsimp only [Turn.after]
      rw [hturn.uploads]
      by_cases heq : n = number
      · subst heq
        obtain rfl := Option.some.inj (hu.symm.trans hv)
        rw [List.getElem?_set_self hlt, hover hterminal]
      · rw [List.getElem?_set_ne heq]
        exact hu
  | @stored n ids v id turn hevent hv hopen hturn =>
      dsimp only [Turn.after]
      rw [hturn.uploads]
      have hne : n ≠ number := by
        intro heq
        subst heq
        obtain rfl := Option.some.inj (hu.symm.trans hv)
        exact absurd (hterminal.symm.trans hopen.terminal) (by simp)
      rw [List.getElem?_set_ne hne]
      exact hu

/-- The empty relay is in order. -/
theorem RelayOk.empty (limits : RelayLimits) : RelayOk limits Relay.empty := by
  refine ⟨rfl, rfl, rfl, ?_, ?_, ?_, ?_⟩
  · simp [Relay.empty]
  · simp [Relay.empty]
  · intro u hu
    cases hu
  · intro e he
    cases he

/-- The accounts hold after any list of events. -/
theorem RelayOk.run {events : List Event} (h : RelayOk limits s)
    (hrun : Gateway.run limits token s events = some s') : RelayOk limits s' := by
  induction events generalizing s with
  | nil =>
      obtain rfl := Option.some.inj hrun
      exact h
  | cons event events ih =>
      obtain ⟨⟨s₁, answer⟩, hstep, hrest⟩ := Option.bind_eq_some_iff.1 hrun
      exact ih (h.change (handle_change h hstep)) hrest

/-- The upload an event belongs to. -/
def Event.number : Event → Option Nat
  | .request _ _ _ => none
  | .data number _ _ _ => some number
  | event => event.ends

/-- A listener of an upload that exists can be called. -/
theorem listen_total {number : Nat} {listener : Upload → Option Turn}
    (hlt : number < s.uploads.length)
    (htotal : ∀ u, s.uploads[number]? = some u → ∃ turn, listener u = some turn) :
    (listen s number listener).isSome = true := by
  have hu := List.getElem?_eq_getElem hlt
  obtain ⟨turn, hturn⟩ := htotal _ hu
  simp [listen, hu, hturn]

/-- **Every listener comes to an end**, the one of `end` where its factory
returns an id that is free. -/
theorem handle_total (h : RelayOk limits s) {event : Event}
    (hnumber : ∀ n, event.number = some n → n < s.uploads.length)
    (hids : ∀ n ids, event = .finish n ids → ∃ id ∈ ids, s.has id = false) :
    (handle limits token s event).isSome = true := by
  cases event with
  | request req alloc alive =>
      dsimp only [handle]
      split
      · rfl
      · split
        · split <;> rfl
        · split <;> rfl
  | data number chunk alloc alive =>
      refine listen_total (hnumber number rfl) ?_
      intro u hu
      obtain ⟨turn, hturn, -⟩ :=
        onData_keeps (s := s) (h.upload hu) h.room chunk alloc alive
      exact ⟨turn, hturn⟩
  | finish number ids =>
      refine listen_total (hnumber number rfl) ?_
      intro u hu
      obtain ⟨id, hid, hfree⟩ := hids number ids rfl
      unfold onEnd
      split
      · exact ⟨_, rfl⟩
      · have hfound : (ids.find? (fun id => !s.has id)).isSome = true := by
          rw [List.find?_isSome]
          exact ⟨id, hid, by simp [hfree]⟩
        obtain ⟨id', hid'⟩ := Option.isSome_iff_exists.1 hfound
        rw [hid']
        exact ⟨_, rfl⟩
  | aborted number alive => exact listen_total (hnumber number rfl) fun u _ => ⟨_, rfl⟩
  | error number alive => exact listen_total (hnumber number rfl) fun u _ => ⟨_, rfl⟩
  | close number alive =>
      refine listen_total (hnumber number rfl) ?_
      intro u hu
      split <;> exact ⟨_, rfl⟩

/-- **Relay quotas.**  After any list of events the relay is within its byte and
slot limits, its counters are the sums over stored payloads and open uploads,
an upload's reservation was released once if it is over and not before, and no
payload has more pages than the limit.  The next event comes to an end; it
changes what is stored only by ending an open upload well, it ends the upload
it is terminal for, and it leaves an upload that is over as it is. -/
theorem relay_quotas {events : List Event}
    (h : run limits token Relay.empty events = some s) :
    (s.storedAllocatedBytes + s.inFlightAllocatedBytes ≤ limits.maxRelayBytes ∧
      s.payloads.length + s.activeUploads ≤ limits.maxPayloads) ∧
    (s.storedAllocatedBytes = (s.payloads.map (fun e => (e.2.allocatedBytes : Int))).sum ∧
      s.inFlightAllocatedBytes = (s.uploads.map Upload.openBytes).sum ∧
      s.activeUploads = (s.uploads.map Upload.openSlot).sum) ∧
    (0 ≤ s.storedAllocatedBytes ∧ 0 ≤ s.inFlightAllocatedBytes ∧ 0 ≤ s.activeUploads) ∧
    (∀ u : Upload, u ∈ s.uploads → u.terminal = u.released ∧
      u.releases = if u.terminal then 1 else 0) ∧
    (∀ id payload segments, (id, payload, segments) ∈ s.contents →
      segments.length ≤ maxPayloadSegments) ∧
    ∀ event,
      ((∀ n, event.number = some n → n < s.uploads.length) →
        (∀ n ids, event = .finish n ids → ∃ id ∈ ids, s.has id = false) →
        (handle limits token s event).isSome = true) ∧
      ∀ s' answer, handle limits token s event = some (s', answer) →
        (s'.contents = s.contents ∨ event.StoresIn s s') ∧
        (∀ n, event.ends = some n → ∃ u : Upload, s'.uploads[n]? = some u ∧ u.terminal = true) ∧
        ∀ (n : Nat) (u : Upload), s.uploads[n]? = some u → u.terminal = true → s'.uploads[n]? = some u := by
  have hok : RelayOk limits s := (RelayOk.empty limits).run h
  refine ⟨⟨hok.room, hok.places⟩, ⟨hok.stored, hok.bytes, hok.slots⟩, ⟨?_, ?_, ?_⟩, ?_, ?_,
    ?_⟩
  · rw [hok.stored]
    exact sum_map_nonneg _ (fun e => by omega) _
  · rw [hok.bytes]
    exact sum_map_nonneg _ Upload.openBytes_nonneg _
  · rw [hok.slots]
    exact sum_map_nonneg _ Upload.openSlot_nonneg _
  · intro u hu
    have hupload := hok.uploads u hu
    exact ⟨hupload.ended, by rw [hupload.ended]; exact hupload.releases⟩
  · intro id payload segments hmem
    obtain ⟨e, he, heq⟩ := List.mem_map.1 hmem
    obtain ⟨-, heq⟩ := Prod.mk.inj heq
    obtain ⟨-, rfl⟩ := Prod.mk.inj heq
    obtain ⟨u, hu, -, hpages⟩ := hok.kept e he
    simpa [Relay.segmentsOf, hu] using hpages
  · intro event
    refine ⟨handle_total hok, ?_⟩
    intro s' answer hstep
    have hchange := handle_change hok hstep
    exact ⟨hok.contents_change hchange, fun n => hchange.ended, fun n u => hchange.over⟩

/-! ### A full relay -/

/-- A relay of twelve bytes. -/
def sampleLimits : RelayLimits := ⟨8, 12, 2⟩

def sampleUpload (declared : Option JsStr) : Event :=
  .request ⟨js "POST", js "/v1/payload/upload", some (js "Bearer gw"), declared⟩
    (fun _ => true) true

/-- One payload of eight bytes is stored, the next upload finds no memory for
five bytes, and is aborted and closed after that. -/
def sampleEvents : List Event :=
  [sampleUpload (some (js "8")),
   .data 0 (List.replicate 5 1) (fun _ => true) true,
   sampleUpload none,
   .data 0 (List.replicate 3 2) (fun _ => true) true,
   .finish 0 [js "pay_0"],
   .close 0 true,
   .data 1 (List.replicate 5 3) (fun _ => true) true,
   .aborted 1 false,
   .close 1 false]

/-- The rejected upload gave its slot back, and the stored payload is there. -/
theorem relay_quotas_full : ∃ s, run sampleLimits (js "gw") Relay.empty sampleEvents = some s ∧
    s.storedAllocatedBytes = 8 ∧ s.activeUploads = 0 ∧
    (∀ u : Upload, u ∈ s.uploads → u.terminal = u.released ∧
      u.releases = if u.terminal then 1 else 0) := by
  have hrun : (run sampleLimits (js "gw") Relay.empty sampleEvents).any (fun s =>
      decide (s.storedAllocatedBytes = 8) && decide (s.activeUploads = 0)) = true := by
    decide +kernel
  obtain ⟨s, hs, hcheck⟩ := (Option.any_eq_true _ _).1 hrun
  simp only [Bool.and_eq_true, decide_eq_true_eq] at hcheck
  exact ⟨s, hs, hcheck.1, hcheck.2, (relay_quotas hs).2.2.2.1⟩

end Gateway
