import Mathlib.Data.Finset.Card
import Mathlib.Data.Rat.Defs
import Mathlib.Data.List.Induction

/-!
# The life cycle of a deadline socket

A `_DeadlineSocket` shares its raw socket with the read streams that were made
of it.  The raw socket is closed by the last of them to go, or by a breach of
the deadline, and never a second time.  The invariant ties the four fields of
the socket to its streams over every order of operations.
-/

namespace UompStorage

/-- A `_DeadlineSocketIO`: `closed` of `io.RawIOBase`, and `_released`. -/
structure DeadlineSocketIO where
  closed : Bool
  released : Bool

/-- A `_DeadlineSocket` with the streams made of it, and how often its raw
socket has been closed. -/
structure DeadlineSocket where
  deadline : ℚ
  closed : Bool
  rawClosed : Bool
  makefileRefs : Int
  streams : List DeadlineSocketIO
  rawCloses : Nat

inductive SocketError where
  | closed
  | deadlineExceeded
  /-- The text wrapper does not take the encoding, the error handler or the
  newline. -/
  | notWrapped
  deriving DecidableEq

/-- An argument `mode` of `makefile`. -/
inductive Mode where
  | r
  | rb
  | other
  deriving DecidableEq

namespace DeadlineSocket

variable (socket : DeadlineSocket)

def init (deadline : ℚ) : DeadlineSocket := ⟨deadline, false, false, 0, [], 0⟩

def closeRaw : DeadlineSocket :=
  if !socket.rawClosed then { socket with rawClosed := true, rawCloses := socket.rawCloses + 1 }
  else socket

def abort : DeadlineSocket := { socket with closed := true }.closeRaw

def acquireMakefile : Except SocketError DeadlineSocket :=
  if socket.closed then .error .closed
  else .ok { socket with makefileRefs := socket.makefileRefs + 1 }

def releaseMakefile : DeadlineSocket :=
  let socket :=
    if 0 < socket.makefileRefs then { socket with makefileRefs := socket.makefileRefs - 1 }
    else socket
  if socket.closed && socket.makefileRefs = 0 then socket.closeRaw else socket

/-- `_prepare_operation`, which comes before every read and write. -/
def prepareOperation (now : ℚ) : Except SocketError Unit × DeadlineSocket :=
  if socket.deadline - now ≤ 0 then (.error .deadlineExceeded, socket.abort) else (.ok (), socket)

/-- `_DeadlineSocketIO.close` of the stream with this number. -/
def closeStream (n : Nat) : DeadlineSocket :=
  match socket.streams[n]? with
  | none => socket
  | some stream =>
      if stream.closed then socket
      else
        let released := if stream.released then socket else socket.releaseMakefile
        { released with streams := socket.streams.set n ⟨true, true⟩ }

/-- `makefile`.  A mode that is not for reading is left to the raw socket.  A
stream that cannot be wrapped in text is closed when it is collected. -/
def makefile (mode : Mode) (wraps : Bool) : Except SocketError (Option Nat) × DeadlineSocket :=
  if mode = .other then (.ok none, socket)
  else match socket.acquireMakefile with
    | .error e => (.error e, socket)
    | .ok acquired =>
        let opened := { acquired with streams := socket.streams ++ [⟨false, false⟩] }
        if mode = .r && !wraps then
          (.error .notWrapped, opened.closeStream socket.streams.length)
        else (.ok (some socket.streams.length), opened)

def close : DeadlineSocket :=
  if !socket.closed then
    let closed := { socket with closed := true }
    if closed.makefileRefs = 0 then closed.closeRaw else closed
  else socket

end DeadlineSocket

/-- An operation on one socket: those of `recv`, `recv_into`, `send` and
`sendall` are alike up to the raw socket. -/
inductive SocketOp where
  | makefile (mode : Mode) (wraps : Bool)
  | closeStream (n : Nat)
  | close
  | abort
  | operate (now : ℚ)

/-- The socket after an operation. -/
def DeadlineSocket.after (socket : DeadlineSocket) : SocketOp → DeadlineSocket
  | .makefile mode wraps => (socket.makefile mode wraps).2
  | .closeStream n => socket.closeStream n
  | .close => socket.close
  | .abort => socket.abort
  | .operate now => (socket.prepareOperation now).2

/-- The socket after some operations. -/
def DeadlineSocket.run (deadline : ℚ) (ops : List SocketOp) : DeadlineSocket :=
  ops.foldl DeadlineSocket.after (.init deadline)

/-- The operation breaches the deadline. -/
def SocketOp.aborts (deadline : ℚ) : SocketOp → Bool
  | .abort => true
  | .operate now => deadline - now ≤ 0
  | _ => false

/-- The operation closes the socket. -/
def SocketOp.closes : SocketOp → Bool
  | .close => true
  | _ => false

/-- The operation asks for a read stream. -/
def SocketOp.asks : SocketOp → Bool
  | .makefile mode _ => mode ≠ .other
  | _ => false

namespace DeadlineSocket

variable {socket : DeadlineSocket} {d : ℚ} {c a : Bool}

/-- The read streams that have not been closed. -/
def openStreams (socket : DeadlineSocket) : Nat := socket.streams.countP (!·.closed)

/-- The fields of a socket after `close` has been called or not (`c`) and the
deadline has been breached or not (`a`). -/
structure Sound (d : ℚ) (c a : Bool) (socket : DeadlineSocket) : Prop where
  deadline : socket.deadline = d
  closed : socket.closed = (c || a)
  refs : socket.makefileRefs = socket.openStreams
  raw : socket.rawClosed = (a || (c && socket.openStreams = 0))
  once : socket.rawCloses = if socket.rawClosed then 1 else 0
  released : ∀ stream ∈ socket.streams, stream.released = stream.closed

/-- A new socket is sound. -/
theorem sound_init (d : ℚ) : Sound d false false (init d) :=
  ⟨rfl, rfl, rfl, rfl, rfl, fun _ h => nomatch h⟩

/-- The raw socket is closed now, if it was not before. -/
theorem closeRaw_eq (h : socket.rawCloses = if socket.rawClosed then 1 else 0) :
    socket.closeRaw = { socket with rawClosed := true, rawCloses := 1 } := by
  cases socket with
  | mk deadline closed rawClosed refs streams rawCloses =>
      cases rawClosed with
      | true =>
          obtain rfl : rawCloses = 1 := h
          rfl
      | false =>
          obtain rfl : rawCloses = 0 := h
          rfl

/-! ## One operation -/

/-- Aborting keeps it sound. -/
theorem Sound.abort (h : Sound d c a socket) : Sound d c true socket.abort := by
  have hraw : socket.abort = { socket with closed := true, rawClosed := true, rawCloses := 1 } :=
    closeRaw_eq h.once
  rw [hraw]
  exact ⟨h.deadline, (Bool.or_true c).symm, h.refs, rfl, rfl, h.released⟩

/-- Closing keeps it sound. -/
theorem Sound.close (h : Sound d c a socket) : Sound d true a socket.close := by
  unfold DeadlineSocket.close
  by_cases hclosed : socket.closed = true
  · rw [hclosed, Bool.not_true, if_neg Bool.false_ne_true]
    refine ⟨h.deadline, by rw [hclosed, Bool.true_or], h.refs, ?_, h.once, h.released⟩
    have hca : (c || a) = true := h.closed ▸ hclosed
    rw [h.raw]
    cases a with
    | true => rfl
    | false =>
        have hc : c = true := by simpa using hca
        rw [hc]
  · have hopen : socket.closed = false := by simpa using hclosed
    have hca : (c || a) = false := h.closed ▸ hopen
    obtain ⟨rfl, rfl⟩ : c = false ∧ a = false := by simpa using hca
    rw [hopen, Bool.not_false, if_pos rfl]
    dsimp only
    by_cases hrefs : socket.makefileRefs = 0
    · have hnone : socket.openStreams = 0 := by
        have := h.refs
        omega
      have hraw : DeadlineSocket.closeRaw { socket with closed := true } =
          { socket with closed := true, rawClosed := true, rawCloses := 1 } := closeRaw_eq h.once
      rw [if_pos hrefs, hraw]
      refine ⟨h.deadline, rfl, h.refs, ?_, rfl, h.released⟩
      change true = (false || (true && decide (socket.openStreams = 0)))
      rw [hnone]
      rfl
    · have hsome : socket.openStreams ≠ 0 := by
        have := h.refs
        omega
      rw [if_neg hrefs]
      refine ⟨h.deadline, rfl, h.refs, ?_, h.once, h.released⟩
      change socket.rawClosed = (false || (true && decide (socket.openStreams = 0)))
      rw [h.raw, decide_eq_false hsome]
      rfl

/-- Closing an open stream leaves one open stream less. -/
theorem openStreams_set {n : Nat} {stream : DeadlineSocketIO} {streams : List DeadlineSocketIO}
    (hn : streams[n]? = some stream) (hopen : stream.closed = false) :
    (streams.set n ⟨true, true⟩).countP (!·.closed) + 1 = streams.countP (!·.closed) := by
  obtain ⟨hlt, hget⟩ := List.getElem?_eq_some_iff.1 hn
  have hpos : 0 < streams.countP (!·.closed) :=
    List.countP_pos_iff.2 ⟨stream, List.mem_of_getElem? hn, by rw [hopen]; rfl⟩
  rw [List.countP_set hlt, hget, hopen]
  simp only [Bool.not_false, Bool.not_true, if_true, Bool.false_eq_true, if_false]
  omega

/-- What `_release_makefile` does while a stream is open. -/
theorem releaseMakefile_eq (hpos : 0 < socket.makefileRefs)
    (honce : socket.rawCloses = if socket.rawClosed then 1 else 0) :
    socket.releaseMakefile =
      if socket.closed = true ∧ socket.makefileRefs = 1 then
        { socket with makefileRefs := socket.makefileRefs - 1, rawClosed := true, rawCloses := 1 }
      else { socket with makefileRefs := socket.makefileRefs - 1 } := by
  unfold releaseMakefile
  rw [if_pos hpos]
  by_cases hlast : socket.closed = true ∧ socket.makefileRefs = 1
  · have hcond : (socket.closed && decide (socket.makefileRefs - 1 = 0)) = true := by
      rw [hlast.1, hlast.2]
      rfl
    rw [if_pos hlast]
    exact (if_pos hcond).trans (closeRaw_eq honce)
  · have hcond : ¬ (socket.closed && decide (socket.makefileRefs - 1 = 0)) = true := by
      rw [Bool.and_eq_true, decide_eq_true_eq]
      intro h
      exact hlast ⟨h.1, by omega⟩
    rw [if_neg hlast]
    exact if_neg hcond

/-- Closing a stream keeps it sound. -/
theorem Sound.closeStream (h : Sound d c a socket) (n : Nat) : Sound d c a (socket.closeStream n) := by
  unfold DeadlineSocket.closeStream
  cases hn : socket.streams[n]? with
  | none => exact h
  | some stream =>
      dsimp only
      have hreleased := h.released stream (List.mem_of_getElem? hn)
      by_cases hclosed : stream.closed = true
      · rw [if_pos hclosed]
        exact h
      · have hopen : stream.closed = false := by simpa using hclosed
        rw [if_neg hclosed, hreleased, hopen, if_neg Bool.false_ne_true]
        have hcount := openStreams_set hn hopen
        have hrefs := h.refs
        have hpos : 0 < socket.makefileRefs := by
          unfold openStreams at hrefs
          omega
        have hmarked : ∀ s ∈ socket.streams.set n ⟨true, true⟩, s.released = s.closed := by
          intro s hs
          obtain hs | rfl := List.mem_or_eq_of_mem_set hs
          · exact h.released s hs
          · rfl
        rw [releaseMakefile_eq hpos h.once]
        by_cases hlast : socket.closed = true ∧ socket.makefileRefs = 1
        · have hnone : (socket.streams.set n ⟨true, true⟩).countP (!·.closed) = 0 := by
            unfold openStreams at hrefs
            omega
          have hca : (c || a) = true := h.closed ▸ hlast.1
          rw [if_pos hlast]
          refine ⟨h.deadline, h.closed, ?_, ?_, rfl, hmarked⟩
          · change socket.makefileRefs - 1 = ((socket.streams.set n ⟨true, true⟩).countP _ : Nat)
            omega
          · change true = (a || (c && decide ((socket.streams.set n ⟨true, true⟩).countP _ = 0)))
            rw [decide_eq_true hnone, Bool.and_true, Bool.or_comm, hca]
        · rw [if_neg hlast]
          refine ⟨h.deadline, h.closed, ?_, ?_, h.once, hmarked⟩
          · change socket.makefileRefs - 1 = ((socket.streams.set n ⟨true, true⟩).countP _ : Nat)
            unfold openStreams at hrefs
            omega
          · change socket.rawClosed =
              (a || (c && decide ((socket.streams.set n ⟨true, true⟩).countP _ = 0)))
            have hsome : socket.openStreams ≠ 0 := by omega
            have hclosed := h.closed
            rw [h.raw, decide_eq_false hsome, Bool.and_false, Bool.or_false]
            by_cases hleft : (socket.streams.set n ⟨true, true⟩).countP (!·.closed) = 0
            · have hsocket : socket.closed = false := by
                by_contra hcontra
                refine hlast ⟨by simpa using hcontra, ?_⟩
                unfold openStreams at hrefs
                omega
              obtain ⟨rfl, rfl⟩ : c = false ∧ a = false := by
                rw [hsocket] at hclosed
                simpa using hclosed.symm
              rfl
            · rw [decide_eq_false hleft, Bool.and_false, Bool.or_false]

/-- A read stream is refused once the socket is closed. -/
theorem makefile_closed (hclosed : socket.closed = true) {mode : Mode} (hmode : mode ≠ .other)
    (wraps : Bool) : socket.makefile mode wraps = (.error .closed, socket) := by
  unfold makefile acquireMakefile
  rw [if_neg hmode, if_pos hclosed]

/-- One more stream keeps it sound. -/
theorem Sound.opened (h : Sound d c a socket) (hopen : socket.closed = false) :
    Sound d c a { socket with
      makefileRefs := socket.makefileRefs + 1
      streams := socket.streams ++ [⟨false, false⟩] } := by
  obtain ⟨rfl, rfl⟩ : c = false ∧ a = false := by
    have hca := h.closed
    rw [hopen] at hca
    simpa using hca.symm
  refine ⟨h.deadline, h.closed, ?_, h.raw, h.once, ?_⟩
  · have hrefs := h.refs
    unfold openStreams at hrefs ⊢
    rw [List.countP_append, hrefs]
    rfl
  · intro stream hstream
    obtain hstream | hstream := List.mem_append.1 hstream
    · exact h.released stream hstream
    · obtain rfl := List.mem_singleton.1 hstream
      rfl

/-- Asking for a stream keeps it sound. -/
theorem Sound.makefile (h : Sound d c a socket) (mode : Mode) (wraps : Bool) :
    Sound d c a (socket.makefile mode wraps).2 := by
  by_cases hmode : mode = .other
  · unfold DeadlineSocket.makefile
    rw [if_pos hmode]
    exact h
  · by_cases hclosed : socket.closed = true
    · rw [makefile_closed hclosed hmode]
      exact h
    · have hopened := h.opened (by simpa using hclosed)
      unfold DeadlineSocket.makefile acquireMakefile
      rw [if_neg hmode, if_neg hclosed]
      dsimp only
      split
      · exact hopened.closeStream _
      · exact hopened

/-- **One operation.** -/
theorem Sound.after (h : Sound d c a socket) (op : SocketOp) :
    Sound d (c || op.closes) (a || op.aborts d) (socket.after op) := by
  cases op with
  | makefile mode wraps =>
      change Sound d (c || false) (a || false) (socket.makefile mode wraps).2
      rw [Bool.or_false, Bool.or_false]
      exact h.makefile mode wraps
  | closeStream n =>
      change Sound d (c || false) (a || false) (socket.closeStream n)
      rw [Bool.or_false, Bool.or_false]
      exact h.closeStream n
  | close =>
      change Sound d (c || true) (a || false) socket.close
      rw [Bool.or_true, Bool.or_false]
      exact h.close
  | abort =>
      change Sound d (c || false) (a || true) socket.abort
      rw [Bool.or_false, Bool.or_true]
      exact h.abort
  | operate now =>
      change Sound d (c || false) (a || decide (d - now ≤ 0)) (socket.prepareOperation now).2
      unfold prepareOperation
      rw [Bool.or_false, h.deadline]
      by_cases hlate : d - now ≤ 0
      · rw [if_pos hlate, decide_eq_true hlate, Bool.or_true]
        exact h.abort
      · rw [if_neg hlate, decide_eq_false hlate, Bool.or_false]
        exact h

/-! ## Every sequence of operations -/

/-- A run is the run before its last operation, and that one. -/
theorem run_snoc (deadline : ℚ) (ops : List SocketOp) (op : SocketOp) :
    run deadline (ops ++ [op]) = (run deadline ops).after op := by
  rw [run, List.foldl_append]
  rfl

/-- **Every run is sound.** -/
theorem sound_run (deadline : ℚ) (ops : List SocketOp) :
    Sound deadline (ops.any SocketOp.closes) (ops.any (SocketOp.aborts deadline))
      (run deadline ops) := by
  induction ops using List.reverseRecOn with
  | nil => exact sound_init deadline
  | append_singleton ops op ih =>
      have hstep := ih.after op
      rw [run_snoc, List.any_append, List.any_append]
      simpa using hstep

/-! ## The streams by the operations -/

/-- Some operation has closed the socket or breached its deadline. -/
def Ended (deadline : ℚ) (ops : List SocketOp) : Prop :=
  ∃ op ∈ ops, op.closes = true ∨ op.aborts deadline = true

/-- The read stream `n` is open after some operations: it was made before the
socket ended, after `n` others, and no later operation closes it. -/
def StreamOpen (deadline : ℚ) (ops : List SocketOp) (n : Nat) : Prop :=
  ∃ before mode wraps later, ops = before ++ .makefile mode wraps :: later ∧
    mode ≠ Mode.other ∧ (mode = .r → wraps = true) ∧ ¬ Ended deadline before ∧
    n = before.countP SocketOp.asks ∧ SocketOp.closeStream n ∉ later

/-- The stream `n` of the socket has not been closed. -/
def OpenAt (socket : DeadlineSocket) (n : Nat) : Prop :=
  ∃ stream, socket.streams[n]? = some stream ∧ stream.closed = false

/-- One more operation keeps what it does not close, and opens what it makes. -/
theorem streamOpen_snoc {deadline : ℚ} {ops : List SocketOp} {op : SocketOp} {n : Nat} :
    StreamOpen deadline (ops ++ [op]) n ↔
      (StreamOpen deadline ops n ∧ op ≠ .closeStream n) ∨
        ∃ mode wraps, op = .makefile mode wraps ∧ mode ≠ Mode.other ∧
          (mode = .r → wraps = true) ∧ ¬ Ended deadline ops ∧ n = ops.countP SocketOp.asks := by
  constructor
  · rintro ⟨before, mode, wraps, later, hops, hmode, hwraps, hended, hn, hlater⟩
    rcases List.eq_nil_or_concat later with rfl | ⟨later', op', rfl⟩
    · obtain ⟨rfl, hop⟩ := List.append_inj' hops rfl
      obtain rfl := List.singleton_inj.1 hop
      exact Or.inr ⟨mode, wraps, rfl, hmode, hwraps, hended, hn⟩
    · rw [List.concat_eq_append, ← List.cons_append, ← List.append_assoc] at hops
      obtain ⟨rfl, hop⟩ := List.append_inj' hops rfl
      obtain rfl := List.singleton_inj.1 hop
      rw [List.concat_eq_append, List.mem_append, List.mem_singleton, not_or] at hlater
      exact Or.inl ⟨⟨before, mode, wraps, later', rfl, hmode, hwraps, hended, hn, hlater.1⟩,
        Ne.symm hlater.2⟩
  · rintro (⟨⟨before, mode, wraps, later, rfl, hmode, hwraps, hended, hn, hlater⟩, hop⟩ |
      ⟨mode, wraps, rfl, hmode, hwraps, hended, hn⟩)
    · refine ⟨before, mode, wraps, later ++ [op], by simp, hmode, hwraps, hended, hn, ?_⟩
      rw [List.mem_append, List.mem_singleton, not_or]
      exact ⟨hlater, Ne.symm hop⟩
    · exact ⟨ops, mode, wraps, [], rfl, hmode, hwraps, hended, hn, List.not_mem_nil⟩

/-- A stream is open after `makefile` if it was or has just been opened. -/
theorem streamOpen_makefile {deadline : ℚ} {ops : List SocketOp} {mode : Mode} {wraps : Bool}
    {n : Nat} :
    StreamOpen deadline (ops ++ [.makefile mode wraps]) n ↔
      StreamOpen deadline ops n ∨ mode ≠ .other ∧ (mode = .r → wraps = true) ∧
        ¬ Ended deadline ops ∧ n = ops.countP SocketOp.asks := by
  rw [streamOpen_snoc]
  constructor
  · rintro (⟨h, -⟩ | ⟨mode', wraps', hop, h⟩)
    · exact Or.inl h
    · obtain ⟨rfl, rfl⟩ := SocketOp.makefile.inj hop
      exact Or.inr h
  · rintro (h | h)
    · exact Or.inl ⟨h, nofun⟩
    · exact Or.inr ⟨mode, wraps, rfl, h⟩

@[simp] theorem closeRaw_streams : socket.closeRaw.streams = socket.streams := by
  unfold closeRaw
  split <;> rfl

@[simp] theorem close_streams : socket.close.streams = socket.streams := by
  unfold DeadlineSocket.close
  dsimp only
  split
  · split <;> simp
  · rfl

@[simp] theorem abort_streams : socket.abort.streams = socket.streams := closeRaw_streams

/-- Closing a stream closes no other, and no stream is lost. -/
theorem openAt_closeStream {m n : Nat} :
    (socket.closeStream m).OpenAt n ↔ socket.OpenAt n ∧ m ≠ n := by
  unfold DeadlineSocket.closeStream
  cases hm : socket.streams[m]? with
  | none =>
      refine ⟨fun h => ⟨h, ?_⟩, And.left⟩
      rintro rfl
      obtain ⟨stream, hstream, -⟩ := h
      exact nomatch hm.symm.trans hstream
  | some stream =>
      dsimp only
      by_cases hclosed : stream.closed = true
      · rw [if_pos hclosed]
        refine ⟨fun h => ⟨h, ?_⟩, And.left⟩
        rintro rfl
        obtain ⟨stream', hstream, hopen⟩ := h
        obtain rfl := Option.some.inj (hm.symm.trans hstream)
        exact nomatch hclosed.symm.trans hopen
      · rw [if_neg hclosed]
        unfold OpenAt
        dsimp only
        rw [List.getElem?_set]
        by_cases hmn : m = n
        · subst hmn
          simp [(List.getElem?_eq_some_iff.1 hm).1]
        · simp [hmn]

@[simp] theorem length_closeStream {m : Nat} :
    (socket.closeStream m).streams.length = socket.streams.length := by
  unfold DeadlineSocket.closeStream
  split
  · rfl
  · split
    · rfl
    · simp

/-- A stream made last is open behind the others. -/
theorem openAt_opened {opened : DeadlineSocket} {n : Nat}
    (h : opened.streams = socket.streams ++ [⟨false, false⟩]) :
    opened.OpenAt n ↔ socket.OpenAt n ∨ n = socket.streams.length := by
  unfold OpenAt
  rw [h]
  rcases lt_trichotomy n socket.streams.length with hlt | rfl | hgt
  · rw [List.getElem?_append_left hlt]
    exact ⟨Or.inl, fun h => h.resolve_right hlt.ne⟩
  · simp
  · have hlength : (socket.streams ++ [(⟨false, false⟩ : DeadlineSocketIO)]).length ≤ n := by
      simpa using Nat.succ_le_of_lt hgt
    rw [List.getElem?_eq_none hlength, List.getElem?_eq_none hgt.le]
    simp [hgt.ne']

/-- A read stream is made behind the others; one that is not wrapped is closed
at once. -/
theorem openAt_makefile (hopen : ¬ socket.closed = true) {mode : Mode} (hmode : mode ≠ .other)
    {wraps : Bool} {n : Nat} :
    (socket.makefile mode wraps).2.OpenAt n ↔
      socket.OpenAt n ∨ (mode = .r → wraps = true) ∧ n = socket.streams.length := by
  unfold DeadlineSocket.makefile acquireMakefile
  rw [if_neg hmode, if_neg hopen]
  dsimp only
  by_cases hwraps : (mode = .r && !wraps) = true
  · rw [if_pos hwraps]
    obtain ⟨hr, hnot⟩ : mode = .r ∧ wraps = false := by simpa using hwraps
    dsimp only
    rw [openAt_closeStream, openAt_opened rfl]
    have hlength : socket.OpenAt n → socket.streams.length ≠ n := by
      rintro ⟨stream, hstream, -⟩ rfl
      simp at hstream
    simp only [hr, hnot, forall_const, Bool.false_eq_true, false_and, or_false]
    exact ⟨fun h => h.1.resolve_right (Ne.symm h.2), fun h => ⟨Or.inl h, hlength h⟩⟩
  · rw [if_neg hwraps]
    dsimp only
    rw [openAt_opened rfl]
    have hkept : mode = .r → wraps = true := by
      intro hr
      simpa [hr] using hwraps
    exact or_congr_right (and_iff_right hkept).symm

/-- An open socket makes one stream more. -/
theorem length_makefile (hopen : ¬ socket.closed = true) {mode : Mode} (hmode : mode ≠ .other)
    {wraps : Bool} :
    (socket.makefile mode wraps).2.streams.length = socket.streams.length + 1 := by
  unfold DeadlineSocket.makefile acquireMakefile
  rw [if_neg hmode, if_neg hopen]
  dsimp only
  split <;> simp

/-- A socket is closed where its run has ended. -/
theorem closed_run {deadline : ℚ} {ops : List SocketOp} :
    (run deadline ops).closed = true ↔ Ended deadline ops := by
  rw [(sound_run deadline ops).closed, Bool.or_eq_true, List.any_eq_true, List.any_eq_true]
  constructor
  · rintro (⟨op, hop, h⟩ | ⟨op, hop, h⟩)
    · exact ⟨op, hop, Or.inl h⟩
    · exact ⟨op, hop, Or.inr h⟩
  · rintro ⟨op, hop, h | h⟩
    · exact Or.inl ⟨op, hop, h⟩
    · exact Or.inr ⟨op, hop, h⟩

/-- Checking the deadline leaves the streams. -/
theorem prepareOperation_streams {now : ℚ} :
    (socket.prepareOperation now).2.streams = socket.streams := by
  unfold prepareOperation
  split
  · exact abort_streams
  · rfl

/-- An operation that does not touch the streams opens and closes none. -/
theorem openAt_congr {other : DeadlineSocket} (h : other.streams = socket.streams) {n : Nat} :
    other.OpenAt n ↔ socket.OpenAt n := by
  rw [OpenAt, OpenAt, h]

/-- The streams of a socket are those that the operations make. -/
theorem length_streams_run {deadline : ℚ} {ops : List SocketOp} (h : ¬ Ended deadline ops) :
    (run deadline ops).streams.length = ops.countP SocketOp.asks := by
  induction ops using List.reverseRecOn with
  | nil => rfl
  | append_singleton ops op ih =>
      have hended : ¬ Ended deadline ops := fun ⟨op', hop, hends⟩ =>
        h ⟨op', List.mem_append_left _ hop, hends⟩
      have hopen : ¬ (run deadline ops).closed = true := mt closed_run.1 hended
      rw [run_snoc, List.countP_append, List.countP_singleton, ← ih hended]
      cases op with
      | makefile mode wraps =>
          by_cases hmode : mode = .other
          · subst hmode
            rfl
          · have hasks : (SocketOp.makefile mode wraps).asks = true := decide_eq_true hmode
            rw [hasks, if_pos rfl]
            exact length_makefile hopen hmode
      | closeStream n => exact length_closeStream
      | close => exact congrArg List.length close_streams
      | abort => exact congrArg List.length abort_streams
      | operate now => exact congrArg List.length prepareOperation_streams

/-- The streams that have not been closed are those that are open by the
operations. -/
theorem openAt_run {deadline : ℚ} {ops : List SocketOp} {n : Nat} :
    (run deadline ops).OpenAt n ↔ StreamOpen deadline ops n := by
  induction ops using List.reverseRecOn with
  | nil =>
      constructor
      · intro ⟨stream, hstream, _⟩
        cases hstream
      · intro ⟨before, mode, wraps, later, hops, _⟩
        simp at hops
  | append_singleton ops op ih =>
      rw [run_snoc]
      cases op with
      | makefile mode wraps =>
          change (DeadlineSocket.makefile _ mode wraps).2.OpenAt n ↔ _
          rw [streamOpen_makefile, ← ih]
          by_cases hmode : mode = .other
          · subst hmode
            simp [DeadlineSocket.makefile]
          · by_cases hended : Ended deadline ops
            · rw [makefile_closed (closed_run.2 hended) hmode]
              simp [hended]
            · have hopen : ¬ (run deadline ops).closed = true := mt closed_run.1 hended
              rw [openAt_makefile hopen hmode, length_streams_run hended]
              simp [hmode, hended]
      | closeStream m =>
          change (DeadlineSocket.closeStream _ m).OpenAt n ↔ _
          rw [openAt_closeStream, streamOpen_snoc, ← ih]
          simp
      | close =>
          rw [streamOpen_snoc, ← ih]
          simpa [DeadlineSocket.after] using openAt_congr close_streams
      | abort =>
          rw [streamOpen_snoc, ← ih]
          simpa [DeadlineSocket.after] using openAt_congr abort_streams
      | operate now =>
          rw [streamOpen_snoc, ← ih]
          simpa [DeadlineSocket.after] using openAt_congr prepareOperation_streams

/-- No stream is open where each one is closed. -/
theorem openStreams_eq_zero :
    socket.openStreams = 0 ↔ ∀ n, ¬ socket.OpenAt n := by
  rw [openStreams, List.countP_eq_zero]
  constructor
  · intro h n ⟨stream, hstream, hopen⟩
    exact h stream (List.mem_of_getElem? hstream) (by rw [hopen]; rfl)
  · intro h stream hstream hopen
    obtain ⟨n, hn⟩ := List.getElem?_of_mem hstream
    exact h n ⟨stream, hn, by simpa using hopen⟩

/-- The open streams of a socket, by their numbers. -/
theorem exists_opened (socket : DeadlineSocket) :
    ∃ opened : Finset Nat, (∀ n, n ∈ opened ↔ socket.OpenAt n) ∧
      opened.card = socket.openStreams := by
  refine ⟨(socket.streams.findIdxs (!·.closed)).toFinset, ?_, ?_⟩
  · intro n
    rw [List.mem_toFinset, List.mem_findIdxs_iff_exists_getElem_pos]
    simp only [OpenAt, List.getElem?_eq_some_iff, Bool.not_eq_true']
    constructor
    · rintro ⟨hn, hopen⟩
      exact ⟨_, ⟨hn, rfl⟩, hopen⟩
    · rintro ⟨stream, ⟨hn, rfl⟩, hopen⟩
      exact ⟨hn, hopen⟩
  · rw [List.toFinset_card_of_nodup List.nodup_findIdxs, List.length_findIdxs]
    rfl

/-- The life cycle of a socket over some operations. -/
structure LifeCycle (deadline : ℚ) (ops : List SocketOp) : Prop where
  /-- The raw socket is closed at most once. -/
  once : (run deadline ops).rawCloses ≤ 1
  /-- It is closed after a breach of the deadline, or when the socket is closed
  and no stream is open. -/
  exactly : (run deadline ops).rawCloses = 1 ↔
    (∃ op ∈ ops, op.aborts deadline = true) ∨
      (∃ op ∈ ops, op.closes = true) ∧ ∀ n, ¬ StreamOpen deadline ops n
  /-- The references are the open streams. -/
  refs : ∃ opened : Finset Nat, (∀ n, n ∈ opened ↔ StreamOpen deadline ops n) ∧
    (run deadline ops).makefileRefs = opened.card
  nonneg : 0 ≤ (run deadline ops).makefileRefs
  /-- Before the end a read stream is made with the next number. -/
  accepts : ¬ Ended deadline ops → ∀ mode ≠ Mode.other, ∀ wraps, (mode = .r → wraps = true) →
    ((run deadline ops).makefile mode wraps).1 = .ok (some (ops.countP SocketOp.asks))
  /-- After a close or a breach no read stream is made, and nothing changes. -/
  refuses : Ended deadline ops → ∀ mode ≠ Mode.other, ∀ wraps,
    (run deadline ops).makefile mode wraps = (.error .closed, run deadline ops)

/-- **The life cycle of a deadline socket.**  Over every order of operations the
raw socket is closed at most once, exactly when the deadline was breached or the
socket is closed and every stream made of it is closed too; the references count
the open streams; and an ended socket makes no stream. -/
theorem lifeCycle (deadline : ℚ) (ops : List SocketOp) : LifeCycle deadline ops := by
  have h := sound_run deadline ops
  refine ⟨?_, ?_, ?_, ?_, ?_, ?_⟩
  · rw [h.once]
    split <;> omega
  · have hclosed : (run deadline ops).rawCloses = 1 ↔ (run deadline ops).rawClosed = true := by
      rw [h.once]
      cases (run deadline ops).rawClosed with
      | true => simp
      | false => simp
    rw [hclosed, h.raw, Bool.or_eq_true, Bool.and_eq_true, decide_eq_true_eq, List.any_eq_true,
      List.any_eq_true, openStreams_eq_zero]
    simp only [openAt_run]
  · obtain ⟨opened, hmem, hcard⟩ := exists_opened (run deadline ops)
    refine ⟨opened, fun n => (hmem n).trans openAt_run, ?_⟩
    rw [h.refs, hcard]
  · rw [h.refs]
    exact Int.natCast_nonneg _
  · intro hended mode hmode wraps hwraps
    have hopen : ¬ (run deadline ops).closed = true := mt closed_run.1 hended
    have hkept : ¬ (mode = .r && !wraps) = true := by simpa using hwraps
    rw [DeadlineSocket.makefile, if_neg hmode, acquireMakefile, if_neg hopen]
    dsimp only
    rw [if_neg hkept, length_streams_run hended]
  · intro hended mode hmode wraps
    exact makefile_closed (closed_run.2 hended) hmode wraps

/-- The order of `http.client`: the socket is closed before its stream. -/
example : (run 10 [.makefile .rb true, .close]).rawCloses = 0 ∧
    (run 10 [.makefile .rb true, .close, .closeStream 0, .closeStream 0]).rawCloses = 1 := by
  decide

end DeadlineSocket

end UompStorage
