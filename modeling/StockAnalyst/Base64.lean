import Mathlib.Data.List.Basic
import Mathlib.Tactic.Common

/-!
# Base64

The standard encoding and the strict reader of `binascii`, which takes padded
text only and refuses everything outside the alphabet.  Bytes are numbers
below 256, and text is its code points.
-/

namespace Python

/-- One digit of base64. -/
def base64Digit (n : Nat) : Nat :=
  if n < 26 then 65 + n
  else if n < 52 then 71 + n
  else if n < 62 then n - 4
  else if n = 62 then 43
  else 47

/-- `base64.b64encode(data)`. -/
def base64Encode : List Nat → List Nat
  | [] => []
  | [a] => [base64Digit (a / 4), base64Digit (a % 4 * 16), 61, 61]
  | [a, b] => [base64Digit (a / 4), base64Digit (a % 4 * 16 + b / 16),
      base64Digit (b % 16 * 4), 61]
  | a :: b :: c :: rest =>
      base64Digit (a / 4) :: base64Digit (a % 4 * 16 + b / 16) ::
        base64Digit (b % 16 * 4 + c / 64) :: base64Digit (c % 64) ::
        base64Encode rest

/-- The value of a digit. -/
def base64Value (c : Nat) : Option Nat :=
  if 65 ≤ c ∧ c ≤ 90 then some (c - 65)
  else if 97 ≤ c ∧ c ≤ 122 then some (c - 71)
  else if 48 ≤ c ∧ c ≤ 57 then some (c + 4)
  else if c = 43 then some 62
  else if c = 47 then some 63
  else none

/-- The loop of `binascii.a2b_base64` in strict mode.  `quad` digits of a
group were read, `left` holds their bits that are not yet written, and `pads`
counts the padding since the last digit. -/
def a2bBase64 : List Nat → (quad left pads : Nat) → (padded : Bool) → Option (List Nat)
  | [], quad, _, _, _ => if quad = 0 then some [] else none
  | c :: rest, quad, left, pads, padded =>
      if c = 61 then
        if 2 ≤ quad then
          if 4 ≤ quad + (pads + 1) then
            if rest.isEmpty then some [] else none
          else a2bBase64 rest quad left (pads + 1) true
        else a2bBase64 rest quad left pads true
      else match base64Value c with
        | none => none
        | some v =>
            if padded then none
            else match quad with
              | 0 => a2bBase64 rest 1 v 0 padded
              | 1 => (a2bBase64 rest 2 (v % 16) 0 padded).map ((left * 4 + v / 16) :: ·)
              | 2 => (a2bBase64 rest 3 (v % 4) 0 padded).map ((left * 16 + v / 4) :: ·)
              | _ => (a2bBase64 rest 0 0 0 padded).map ((left * 64 + v) :: ·)

/-- `base64.b64decode(text, validate=True)`; nothing where it raises. -/
def base64Decode (text : List Nat) : Option (List Nat) :=
  if text.any (128 ≤ ·) then none
  else if text.head? = some 61 then none
  else a2bBase64 text 0 0 0 false

/-! ## The digits -/

/-- A digit is read as its value. -/
theorem base64Value_digit {n : Nat} (h : n < 64) : base64Value (base64Digit n) = some n := by
  have hall : ∀ n < 64, base64Value (base64Digit n) = some n := by decide
  exact hall n h

/-- Digits are visible ASCII, and none of them is a quote, a backslash or
padding. -/
theorem base64Digit_visible (n : Nat) : 43 ≤ base64Digit n ∧ base64Digit n ≤ 122 ∧
    base64Digit n ≠ 61 ∧ base64Digit n ≠ 92 := by
  unfold base64Digit
  grind

/-- The encoding is visible ASCII. -/
theorem base64Encode_visible (bs : List Nat) :
    ∀ c ∈ base64Encode bs, 43 ≤ c ∧ c ≤ 122 ∧ c ≠ 92 := by
  have hdigit : ∀ n, 43 ≤ base64Digit n ∧ base64Digit n ≤ 122 ∧ base64Digit n ≠ 92 :=
    fun n => ⟨(base64Digit_visible n).1, (base64Digit_visible n).2.1,
      (base64Digit_visible n).2.2.2⟩
  fun_induction base64Encode bs with
  | case1 => simp
  | case2 a => simp [hdigit]
  | case3 a b => simp [hdigit]
  | case4 a b c rest ih => simpa [hdigit] using ih

/-- Every group of up to three bytes takes four characters. -/
theorem base64Encode_length (bs : List Nat) :
    (base64Encode bs).length = (bs.length + 2) / 3 * 4 := by
  fun_induction base64Encode bs with
  | case1 => rfl
  | case2 a => simp
  | case3 a b => simp
  | case4 a b c rest ih =>
      simp only [List.length_cons, ih]
      omega

/-! ## The round trip -/

section reader

variable {n quad left pads : Nat} {rest : List Nat}

/-- The first digit of a group is kept. -/
theorem a2bBase64_first (h : n < 64) :
    a2bBase64 (base64Digit n :: rest) 0 left pads false = a2bBase64 rest 1 n 0 false := by
  rw [a2bBase64, if_neg (base64Digit_visible n).2.2.1, base64Value_digit h]
  rfl

/-- The second digit completes a byte. -/
theorem a2bBase64_second (h : n < 64) :
    a2bBase64 (base64Digit n :: rest) 1 left pads false =
      (a2bBase64 rest 2 (n % 16) 0 false).map ((left * 4 + n / 16) :: ·) := by
  rw [a2bBase64, if_neg (base64Digit_visible n).2.2.1, base64Value_digit h]
  rfl

/-- So does the third. -/
theorem a2bBase64_third (h : n < 64) :
    a2bBase64 (base64Digit n :: rest) 2 left pads false =
      (a2bBase64 rest 3 (n % 4) 0 false).map ((left * 16 + n / 4) :: ·) := by
  rw [a2bBase64, if_neg (base64Digit_visible n).2.2.1, base64Value_digit h]
  rfl

/-- So does the fourth, and the group ends. -/
theorem a2bBase64_fourth (h : n < 64) :
    a2bBase64 (base64Digit n :: rest) 3 left pads false =
      (a2bBase64 rest 0 0 0 false).map ((left * 64 + n) :: ·) := by
  rw [a2bBase64, if_neg (base64Digit_visible n).2.2.1, base64Value_digit h]
  rfl

/-- The strict reader takes back what was encoded, group by group. -/
theorem a2bBase64_encode {bs : List Nat} (h : ∀ b ∈ bs, b < 256) :
    a2bBase64 (base64Encode bs) 0 0 0 false = some bs := by
  fun_induction base64Encode bs with
  | case1 => rfl
  | case2 a =>
      have ha := h a (by simp)
      have hfirst : a / 4 * 4 + a % 4 * 16 / 16 = a := by omega
      rw [a2bBase64_first (by omega), a2bBase64_second (by omega), hfirst]
      simp [a2bBase64]
  | case3 a b =>
      have ha := h a (by simp)
      have hb := h b (by simp)
      have hfirst : a / 4 * 4 + (a % 4 * 16 + b / 16) / 16 = a := by omega
      have hsecond : (a % 4 * 16 + b / 16) % 16 * 16 + b % 16 * 4 / 4 = b := by omega
      rw [a2bBase64_first (by omega), a2bBase64_second (by omega),
        a2bBase64_third (by omega), hfirst, hsecond]
      simp [a2bBase64]
  | case4 a b c rest ih =>
      have ha := h a (by simp)
      have hb := h b (by simp)
      have hc := h c (by simp)
      have hfirst : a / 4 * 4 + (a % 4 * 16 + b / 16) / 16 = a := by omega
      have hsecond : (a % 4 * 16 + b / 16) % 16 * 16 + (b % 16 * 4 + c / 64) / 4 = b := by
        omega
      have hthird : (b % 16 * 4 + c / 64) % 4 * 64 + c % 64 = c := by omega
      rw [a2bBase64_first (by omega), a2bBase64_second (by omega),
        a2bBase64_third (by omega), a2bBase64_fourth (by omega), hfirst, hsecond, hthird,
        ih (fun x hx => h x (by simp [hx]))]
      rfl

end reader

/-- What was encoded is read back. -/
theorem base64Decode_encode {bs : List Nat} (h : ∀ b ∈ bs, b < 256) :
    base64Decode (base64Encode bs) = some bs := by
  have hascii : (base64Encode bs).any (128 ≤ ·) = false := by
    rw [List.any_eq_false]
    intro c hc
    have := base64Encode_visible bs c hc
    simp only [decide_eq_true_eq]
    omega
  have hhead : (base64Encode bs).head? ≠ some 61 := by
    fun_cases base64Encode bs <;> simp [(base64Digit_visible _).2.2.1]
  rw [base64Decode, hascii, if_neg Bool.false_ne_true, if_neg hhead, a2bBase64_encode h]

/-! ## What the reader returns -/

/-- A digit has a value below 64. -/
theorem base64Value_lt {c v : Nat} (h : base64Value c = some v) : v < 64 := by
  unfold base64Value at h
  grind

/-- The bits kept from an unfinished group. -/
def Left : (quad left : Nat) → Prop
  | 0, _ => True
  | 1, left => left < 64
  | 2, left => left < 16
  | _, left => left < 4

/-- What is decoded is made of bytes. -/
theorem a2bBase64_bytes {text bs : List Nat} {quad left pads : Nat} {padded : Bool}
    (hleft : Left quad left) (h : a2bBase64 text quad left pads padded = some bs) :
    ∀ b ∈ bs, b < 256 := by
  induction text generalizing quad left pads padded bs with
  | nil =>
      rw [a2bBase64] at h
      split at h
      · simp [← Option.some.inj h]
      · cases h
  | cons c rest ih =>
      rw [a2bBase64] at h
      by_cases hpad : c = 61
      · rw [if_pos hpad] at h
        split at h
        · split at h
          · split at h
            · simp [← Option.some.inj h]
            · cases h
          · exact ih hleft h
        · exact ih hleft h
      · rw [if_neg hpad] at h
        cases hvalue : base64Value c with
        | none => simp [hvalue] at h
        | some v =>
            have hv := base64Value_lt hvalue
            simp only [hvalue] at h
            split at h
            · cases h
            · match quad, hleft, h with
              | 0, _, h =>
                  have hkeep : Left 1 v := hv
                  exact ih hkeep h
              | 1, hleft, h =>
                  obtain ⟨tail, htail, rfl⟩ := Option.map_eq_some_iff.1 h
                  have hkeep : Left 2 (v % 16) := Nat.mod_lt _ (by decide)
                  exact List.forall_mem_cons.2
                    ⟨by have : left < 64 := hleft; omega, ih hkeep htail⟩
              | 2, hleft, h =>
                  obtain ⟨tail, htail, rfl⟩ := Option.map_eq_some_iff.1 h
                  have hkeep : Left 3 (v % 4) := Nat.mod_lt _ (by decide)
                  exact List.forall_mem_cons.2
                    ⟨by have : left < 16 := hleft; omega, ih hkeep htail⟩
              | _ + 3, hleft, h =>
                  obtain ⟨tail, htail, rfl⟩ := Option.map_eq_some_iff.1 h
                  have hkeep : Left 0 0 := trivial
                  exact List.forall_mem_cons.2
                    ⟨by have : left < 4 := hleft; omega, ih hkeep htail⟩

/-- So is what the whole text decodes to. -/
theorem base64Decode_bytes {text bs : List Nat} (h : base64Decode text = some bs) :
    ∀ b ∈ bs, b < 256 := by
  unfold base64Decode at h
  split at h
  · cases h
  · split at h
    · cases h
    · have hstart : Left 0 0 := trivial
      exact a2bBase64_bytes hstart h

end Python
