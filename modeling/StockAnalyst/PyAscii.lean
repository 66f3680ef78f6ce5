import StockAnalyst.PyLoads
import StockAnalyst.Base64
import Mathlib.Data.Nat.Digits.Lemmas

/-!
# Python's tables on ASCII text

What the Python documentation says of ASCII white space, letters and digits,
and that decimal text is read back by `int`.
-/

namespace Python

/-- ASCII upper case of one code point. -/
def asciiUpper (c : Nat) : Nat := if 97 ≤ c ∧ c ≤ 122 then c - 32 else c

/-- The tables agree with ASCII below 128. -/
structure PyLib.Ascii (lib : PyLib) : Prop where
  isSpace : ∀ c < 128, lib.isSpace c = ((9 ≤ c && c ≤ 13) || (28 ≤ c && c ≤ 32))
  isAlnum : ∀ c < 128, lib.isAlnum c =
    ((48 ≤ c && c ≤ 57) || (65 ≤ c && c ≤ 90) || (97 ≤ c && c ≤ 122))
  upper : ∀ s, (∀ c ∈ s, c < 128) → lib.upper s = s.map asciiUpper
  digitValue : ∀ c < 128, lib.digitValue c =
    if 48 ≤ c ∧ c ≤ 57 then some (c - 48) else none

/-- Python on ASCII text, without a codec. -/
def asciiLib : PyLib where
  floatRepr := fun _ _ => py "0.0"
  reprOf := fun _ => []
  isSpace := fun c => (9 ≤ c && c ≤ 13) || (28 ≤ c && c ≤ 32)
  isAlnum := fun c => (48 ≤ c && c ≤ 57) || (65 ≤ c && c ≤ 90) || (97 ≤ c && c ≤ 122)
  upper := List.map asciiUpper
  lower := List.map asciiLower
  lower_ascii := fun _ _ => rfl
  digitValue := fun c => if 48 ≤ c ∧ c ≤ 57 then some (c - 48) else none
  b64decode := fun _ => none
  b64encode := base64Encode
  utf8Decode := fun bs => if bs.all (· < 128) then some bs else none
  loadsFinite := fun _ => none

theorem asciiLib_ascii : asciiLib.Ascii :=
  ⟨fun _ _ => rfl, fun _ _ => rfl, fun _ _ => rfl, fun _ _ => rfl⟩

variable {lib : PyLib} {digits : PyStr}

/-- A digit is no white space. -/
theorem PyLib.Ascii.digit_not_space (hlib : lib.Ascii) {c : Nat} (h : 48 ≤ c ∧ c ≤ 57) :
    lib.isSpace c = false := by
  rw [hlib.isSpace c (by omega)]
  simp only [Bool.or_eq_false_iff, Bool.and_eq_false_iff, decide_eq_false_iff_not]
  omega

/-- A digit has its value. -/
theorem PyLib.Ascii.digit_value (hlib : lib.Ascii) {c : Nat} (h : 48 ≤ c ∧ c ≤ 57) :
    lib.digitValue c = some (c - 48) := by
  rw [hlib.digitValue c (by omega), if_pos h]

/-- A text without white space is stripped already. -/
theorem PyStr.strip_eq_self {s : PyStr} (h : ∀ c ∈ s, lib.isSpace c = false) :
    PyStr.strip lib s = s := by
  have hdrop : ∀ t : PyStr, (∀ c ∈ t, lib.isSpace c = false) →
      t.dropWhile lib.isSpace = t := by
    intro t ht
    cases t with
    | nil => rfl
    | cons c t => rw [List.dropWhile_cons, ht c List.mem_cons_self, if_neg Bool.false_ne_true]
  unfold PyStr.strip
  rw [hdrop s h, hdrop s.reverse (fun c hc => h c (List.mem_reverse.1 hc)),
    List.reverse_reverse]

/-! ## Decimal text -/

/-- Decimal digits run from `0` to `9`. -/
theorem natDigits_range (n : Nat) : ∀ c ∈ natDigits n, 48 ≤ c ∧ c ≤ 57 := by
  intro c hc
  obtain ⟨d, hd, rfl⟩ := List.mem_map.1 hc
  have := Nat.digits_lt_base (by decide : 1 < 10) (List.mem_reverse.1 hd)
  omega

/-- Digits are read as they are written. -/
theorem natOf_natDigits (n : Nat) : natOf (natDigits n) = n := by
  have hback : (natDigits n).reverse.map (· - 48) = Nat.digits 10 n := by
    unfold natDigits
    rw [← List.map_reverse, List.reverse_reverse, List.map_map]
    have hid : ((· - 48) ∘ (48 + ·) : Nat → Nat) = id := by
      funext d
      simp only [Function.comp_apply, id_eq]
      omega
    rw [hid, List.map_id]
  rw [natOf_eq_ofDigits, hback, Nat.ofDigits_digits]

/-- A natural number is written in its digits. -/
theorem intText_natCast (n : Nat) : intText n = if n = 0 then [48] else natDigits n := by
  unfold intText
  rw [if_neg (by omega)]
  by_cases hzero : n = 0
  · simp [hzero]
  · simp [hzero]

/-- A natural number is read as it is written. -/
theorem natOf_intText (n : Nat) : natOf (intText n) = n := by
  rw [intText_natCast]
  split
  · rename_i hzero
    rw [hzero]
    rfl
  · exact natOf_natDigits n

/-- A number has a digit at least. -/
theorem intText_ne_nil (n : Nat) : intText n ≠ [] := by
  intro hnone
  rw [intText_natCast] at hnone
  split at hnone
  · cases hnone
  · rename_i hzero
    have hvalue := natOf_natDigits n
    rw [hnone] at hvalue
    exact hzero hvalue.symm

/-- A decimal number is written in digits. -/
theorem intText_range (n : Nat) : ∀ c ∈ intText n, 48 ≤ c ∧ c ≤ 57 := by
  rw [intText_natCast]
  split
  · simp
  · exact natDigits_range n

/-- A number has no more digits than the power of ten above it. -/
theorem length_intText_le {n k : Nat} (hk : 0 < k) (h : n < 10 ^ k) :
    (intText n).length ≤ k := by
  rw [intText_natCast]
  split
  · exact hk
  · unfold natDigits
    rw [List.length_map, List.length_reverse]
    exact (Nat.digits_length_le_iff (by decide) n).2 h

/-- Plain digits are read one after the other. -/
theorem readDigits_digits (hlib : lib.Ascii) (hdigits : ∀ c ∈ digits, 48 ≤ c ∧ c ≤ 57)
    (hne : digits ≠ []) (acc : Nat) :
    readDigits lib digits acc = some (digits.foldl (fun n c => n * 10 + (c - 48)) acc) := by
  fun_induction readDigits lib digits acc with
  | case1 => contradiction
  | case2 c acc =>
      rw [hlib.digit_value (hdigits c List.mem_cons_self)]
      rfl
  | case3 c d rest acc hvalue =>
      rw [hlib.digit_value (hdigits c List.mem_cons_self)] at hvalue
      cases hvalue
  | case4 c acc v hvalue =>
      have hunder := hdigits 95 (List.mem_cons_of_mem c List.mem_cons_self)
      omega
  | case5 c acc v hvalue e tail ih =>
      have hunder := hdigits 95 (List.mem_cons_of_mem c List.mem_cons_self)
      omega
  | case6 c d rest acc v hvalue hunder ih =>
      rw [hlib.digit_value (hdigits c List.mem_cons_self)] at hvalue
      obtain rfl := Option.some.inj hvalue
      exact ih (fun x hx => hdigits x (List.mem_cons_of_mem c hx)) (by simp)

/-- `int` of plain digits is the number they stand for. -/
theorem intOfStr_digits (hlib : lib.Ascii) (hdigits : ∀ c ∈ digits, 48 ≤ c ∧ c ≤ 57)
    (hne : digits ≠ []) (hlength : digits.length ≤ maxIntDigits) :
    intOfStr lib digits = some (natOf digits : Int) := by
  have hstrip : PyStr.strip lib digits = digits :=
    PyStr.strip_eq_self (fun c hc => hlib.digit_not_space (hdigits c hc))
  have hplain : digits.filter (· != 95) = digits := by
    refine List.filter_eq_self.2 ?_
    intro x hx
    have := hdigits x hx
    simp only [bne_iff_ne, ne_eq]
    omega
  have hread := readDigits_digits hlib hdigits hne 0
  cases digits with
  | nil => contradiction
  | cons c rest =>
      have hc := hdigits c List.mem_cons_self
      have hplus : c ≠ 43 := by omega
      have hminus : c ≠ 45 := by omega
      unfold intOfStr
      simp only [hstrip]
      split
      · rename_i hhead
        exact absurd (List.cons.inj hhead).1 hplus
      · rename_i hhead
        exact absurd (List.cons.inj hhead).1 hminus
      · have hsign : (c :: rest).head? ≠ some 45 := by simp [hminus]
        rw [hplain, if_neg (by omega), hread]
        simp only [Option.bind_eq_bind, Option.bind_some, Option.pure_def, Option.map_some,
          if_neg hsign, natOf]

/-- `int(str(n))` is `n`. -/
theorem intOfStr_intText (hlib : lib.Ascii) {i : Int} (h : 0 ≤ i)
    (hlength : (intText i).length ≤ maxIntDigits) : intOfStr lib (intText i) = some i := by
  unfold intText at hlength ⊢
  rw [if_neg (by omega)] at hlength ⊢
  by_cases hzero : i = 0
  · rw [if_pos hzero, intOfStr_digits hlib (by simp) (by simp) (by decide), hzero]
    rfl
  · rw [if_neg hzero] at hlength ⊢
    have hne : natDigits i.natAbs ≠ [] := by
      simp only [natDigits, ne_eq, List.map_eq_nil_iff, List.reverse_eq_nil_iff,
        Nat.digits_eq_nil_iff_eq_zero]
      omega
    rw [intOfStr_digits hlib (natDigits_range _) hne hlength, natOf_natDigits]
    exact congrArg some (by omega)

end Python
