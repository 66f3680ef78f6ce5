import Mathlib.Data.List.Basic
import Mathlib.Data.List.Infix

/-!
# Objects behind conditional writes

An object store keeps the latest content of a key under an entity tag that
names the version.  A writer names the tag it expects (or the absence of the
object), and the write lands only if that is still the current one; every
write that lands makes a version of its own.

A reply can be lost: a write may land and the caller still be told that the
precondition failed (its client retried after a lost reply), that another
write was in progress, or that the request failed.

The objects are functions of the history of landed writes.  `Version` says
that a tag was current at some time; the last section shows that a version
which is expected and still current is the latest write.
-/

namespace ConditionalStore

/-- A version of an object, with the content it was made for. -/
structure Tag (α : Type) where
  serial : Nat
  content : α

/-- What a conditional write tells its caller. -/
inductive PutReply (φ : Type) where
  | done (serial : Nat)
  | preconditionFailed
  | conflict
  | fault (f : φ)

variable {φ : Type}

/-- The outcomes of a write that expects the version `expect` where `held`
is the current one and `next` the version the write would make.  The last
argument says whether the write landed. -/
inductive Puts (held expect : Option Nat) (next : Nat) :
    PutReply φ → Bool → Prop
  | done (hcur : held = expect) : Puts held expect next (.done next) true
  | refused (hcur : held ≠ expect) :
      Puts held expect next .preconditionFailed false
  | refusedAfter (hcur : held = expect) :
      Puts held expect next .preconditionFailed true
  | busy : Puts held expect next .conflict false
  | busyAfter (hcur : held = expect) : Puts held expect next .conflict true
  | fault (f : φ) : Puts held expect next (.fault f) false
  | faultAfter (f : φ) (hcur : held = expect) :
      Puts held expect next (.fault f) true

variable {held expect : Option Nat} {next : Nat} {reply : PutReply φ}
  {landed : Bool}

/-- A write lands only on the version it expects. -/
theorem Puts.landed_current (h : Puts held expect next reply true) :
    held = expect := by
  cases h with
  | done hcur => exact hcur
  | refusedAfter hcur => exact hcur
  | busyAfter hcur => exact hcur
  | faultAfter f hcur => exact hcur

/-- An acknowledged write has landed, as the version it was told. -/
theorem Puts.done_landed {serial : Nat}
    (h : Puts (φ := φ) held expect next (.done serial) landed) :
    landed = true ∧ serial = next ∧ held = expect := by
  cases h with
  | done hcur => exact ⟨rfl, rfl, hcur⟩

/-! ## Objects as functions of the history -/

section history

variable {X K α : Type} [DecidableEq K] (put : X → Option (K × α))

/-- The object under a key: the newest landed write, with its version. -/
def current (key : K) : List X → Option (Tag α)
  | [] => none
  | x :: log =>
      match put x with
      | none => current key log
      | some (key', content) =>
          if key' = key then
            some ⟨((current key log).map (·.serial)).getD 0 + 1, content⟩
          else current key log

/-- The number of the current version; zero when there is no object. -/
def serial (key : K) (log : List X) : Nat :=
  ((current put key log).map (·.serial)).getD 0

/-- A tag was current at some time of the history. -/
def Version (key : K) (tag : Tag α) (log : List X) : Prop :=
  ∃ l, l <:+ log ∧ current put key l = some tag

variable {put} {key : K} {tag tag' : Tag α} {log log' : List X} {x : X}
  {content : α}

/-- What puts nothing changes no record. -/
theorem current_cons_none (h : put x = none) :
    current put key (x :: log) = current put key log := by
  simp [current, h]

/-- A put of another key changes no record. -/
theorem current_cons_other {key' : K} (h : put x = some (key', content))
    (hne : key' ≠ key) : current put key (x :: log) = current put key log := by
  simp [current, h, hne]

/-- A put is the newest version of its key. -/
theorem current_cons_put (h : put x = some (key, content)) :
    current put key (x :: log) = some ⟨serial put key log + 1, content⟩ := by
  simp [current, h, serial]

/-- What does not put a key leaves its record. -/
theorem current_cons_ne (h : ∀ c, put x ≠ some (key, c)) :
    current put key (x :: log) = current put key log := by
  cases hx : put x with
  | none => exact current_cons_none hx
  | some kc =>
      obtain ⟨key', c⟩ := kc
      refine current_cons_other hx ?_
      rintro rfl
      exact h c hx

/-- The newest version has the newest number. -/
theorem serial_of_current (h : current put key log = some tag) :
    serial put key log = tag.serial := by
  simp [serial, h]

/-- The current content was put by some event of the history. -/
theorem current_mem (h : current put key log = some tag) :
    ∃ x ∈ log, put x = some (key, tag.content) := by
  induction log with
  | nil => cases h
  | cons x log ih =>
      by_cases hx : ∃ c, put x = some (key, c)
      · obtain ⟨c, hc⟩ := hx
        rw [current_cons_put hc] at h
        cases h
        exact ⟨x, List.mem_cons_self, hc⟩
      · rw [current_cons_ne (fun c hc => hx ⟨c, hc⟩)] at h
        obtain ⟨y, hy, hput⟩ := ih h
        exact ⟨y, List.mem_cons_of_mem _ hy, hput⟩

/-- Numbers never go back. -/
theorem serial_le_cons : serial put key log ≤ serial put key (x :: log) := by
  by_cases hx : ∃ c, put x = some (key, c)
  · obtain ⟨c, hc⟩ := hx
    rw [serial_of_current (current_cons_put hc)]
    exact Nat.le_succ _
  · have hsame : current put key (x :: log) = current put key log :=
      current_cons_ne (fun c hc => hx ⟨c, hc⟩)
    simp [serial, hsame]

/-- Version numbers never go back. -/
theorem serial_mono (h : log <:+ log') :
    serial put key log ≤ serial put key log' := by
  obtain ⟨new, rfl⟩ := h
  induction new with
  | nil => exact Nat.le_refl _
  | cons x new ih => exact Nat.le_trans ih serial_le_cons

/-- While the version number stands still, so does the object. -/
theorem current_eq_of_serial (h : log <:+ log')
    (hserial : serial put key log' ≤ serial put key log) :
    current put key log' = current put key log := by
  obtain ⟨new, rfl⟩ := h
  induction new with
  | nil => rfl
  | cons x new ih =>
      rw [List.cons_append] at hserial ⊢
      have hmono : serial put key log ≤ serial put key (new ++ log) :=
        serial_mono ⟨new, rfl⟩
      by_cases hx : ∃ c, put x = some (key, c)
      · obtain ⟨c, hc⟩ := hx
        have hput : current put key (x :: (new ++ log)) =
            some ⟨serial put key (new ++ log) + 1, c⟩ := current_cons_put hc
        have hnew := serial_of_current hput
        simp only at hnew
        omega
      · have hsame : current put key (x :: (new ++ log)) =
            current put key (new ++ log) :=
          current_cons_ne (fun c hc => hx ⟨c, hc⟩)
        have hle : serial put key (new ++ log) ≤ serial put key log := by
          simpa [serial, hsame] using hserial
        rw [hsame, ih hle]

/-- The first version has number one. -/
theorem serial_pos (h : current put key log = some tag) : 0 < tag.serial := by
  induction log with
  | nil => cases h
  | cons x log ih =>
      by_cases hx : ∃ c, put x = some (key, c)
      · obtain ⟨c, hc⟩ := hx
        rw [current_cons_put hc] at h
        cases h
        exact Nat.succ_pos _
      · rw [current_cons_ne (fun c hc => hx ⟨c, hc⟩)] at h
        exact ih h

/-- The newest version is a version. -/
theorem Version.of_current (h : current put key log = some tag) :
    Version put key tag log := ⟨log, List.suffix_refl log, h⟩

/-- A version stays one in longer histories. -/
theorem Version.mono (h : Version put key tag log) (hsuf : log <:+ log') :
    Version put key tag log' := by
  obtain ⟨l, hl, hcur⟩ := h
  exact ⟨l, hl.trans hsuf, hcur⟩

/-- No version is newer than the newest. -/
theorem Version.serial_le (h : Version put key tag log) :
    tag.serial ≤ serial put key log := by
  obtain ⟨l, hl, hcur⟩ := h
  rw [← serial_of_current hcur]
  exact serial_mono hl

/-- **Fencing.**  A version whose number is current is the current one. -/
theorem Version.is_current (h : Version put key tag log)
    (hserial : serial put key log = tag.serial) :
    current put key log = some tag := by
  obtain ⟨l, hl, hcur⟩ := h
  rw [← hcur]
  apply current_eq_of_serial hl
  rw [hserial, serial_of_current hcur]

/-- A version number names one content. -/
theorem Version.unique (h : Version put key tag log)
    (h' : Version put key tag' log) (hserial : tag.serial = tag'.serial) :
    tag = tag' := by
  obtain ⟨l, hl, hcur⟩ := h
  obtain ⟨l', hl', hcur'⟩ := h'
  rw [← serial_of_current hcur, ← serial_of_current hcur'] at hserial
  rcases List.suffix_or_suffix_of_suffix hl hl' with hsuf | hsuf
  · have := current_eq_of_serial hsuf hserial.ge
    rw [hcur, hcur'] at this
    exact (Option.some.inj this).symm
  · have := current_eq_of_serial hsuf hserial.le
    rw [hcur, hcur'] at this
    exact Option.some.inj this

/-- Every version was made by a write. -/
theorem Version.landing (h : Version put key tag log) :
    ∃ x l, (x :: l) <:+ log ∧ put x = some (key, tag.content) ∧
      tag.serial = serial put key l + 1 := by
  obtain ⟨l, hl, hcur⟩ := h
  induction l with
  | nil => cases hcur
  | cons x l ih =>
      by_cases hx : ∃ c, put x = some (key, c)
      · obtain ⟨c, hc⟩ := hx
        rw [current_cons_put hc] at hcur
        cases hcur
        exact ⟨x, l, hl, hc, rfl⟩
      · rw [current_cons_ne (fun c hc => hx ⟨c, hc⟩)] at hcur
        exact ih ((List.suffix_cons x l).trans hl) hcur

/-- A version of a longer history is an older one or was just made. -/
theorem Version.cons (h : Version put key tag (x :: log)) :
    Version put key tag log ∨
      (put x = some (key, tag.content) ∧ tag.serial = serial put key log + 1) := by
  obtain ⟨l, hl, hcur⟩ := h
  rcases List.suffix_cons_iff.1 hl with rfl | hl
  · by_cases hx : ∃ c, put x = some (key, c)
    · obtain ⟨c, hc⟩ := hx
      rw [current_cons_put hc] at hcur
      cases hcur
      exact Or.inr ⟨hc, rfl⟩
    · rw [current_cons_ne (fun c hc => hx ⟨c, hc⟩)] at hcur
      exact Or.inl (Version.of_current hcur)
  · exact Or.inl ⟨l, hl, hcur⟩

end history

end ConditionalStore
