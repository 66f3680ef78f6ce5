import StockAnalyst.Deliverable

/-!
# `json.loads` and `json.dumps`

The decoder and the encoder of Python's `json` on the texts of manifests:
`json.dumps(json.loads(raw), sort_keys=True, separators=(",", ":"))`.  A float
is its shortest decimal digits and its exponent, as on the buyer's side.
-/

namespace Python

open JsonText Deliverable

/-! ## Decoding -/

/-- `scanstring`: the escapes of a high and a low surrogate are one code
point. -/
def scanPoints : Scan
  | [] => none
  | c :: rest =>
      if c = 0x22 then some ([], rest)
      else if c = 0x5C then
        match rest with
        | [] => none
        | e :: rest =>
            if e = 117 then
              match rest with
              | h₁ :: h₂ :: h₃ :: h₄ :: rest =>
                  (hexValue4 h₁ h₂ h₃ h₄).bind fun unit =>
                    match rest with
                    | b :: u :: l₁ :: l₂ :: l₃ :: l₄ :: after =>
                        let low := hexValue4 l₁ l₂ l₃ l₄
                        if isHigh unit ∧ b = 0x5C ∧ u = 117 ∧ low.any isLow then
                          (scanPoints after).map fun (value, last) =>
                            (combine unit (low.getD 0) :: value, last)
                        else (scanPoints (b :: u :: l₁ :: l₂ :: l₃ :: l₄ :: after)).map
                          fun (value, last) => (unit :: value, last)
                    | rest => (scanPoints rest).map fun (value, last) => (unit :: value, last)
              | _ => none
            else
              (escaped e).bind fun unit =>
                (scanPoints rest).map fun (value, last) => (unit :: value, last)
      else if c < 0x20 then none
      else (scanPoints rest).map fun (value, last) => (c :: value, last)
termination_by structural text => text

/-- A value of `json.loads`; the items of a dictionary are in the order they
were set. -/
inductive Loaded where
  | none
  | bool (b : Bool)
  | int (i : Int)
  | float (x : Double)
  | str (s : PyStr)
  | list (items : List Loaded)
  | dict (items : List (PyStr × Loaded))

def isDigit (c : Nat) : Bool := 48 ≤ c && c ≤ 57

/-- `([eE][-+]?[0-9]+)?` up to the end. -/
def isExponent : PyStr → Bool
  | [] => true
  | e :: rest =>
      let digits := if rest.head? = some 43 ∨ rest.head? = some 45 then rest.tail else rest
      (e = 101 || e = 69) && digits ≠ [] && digits.all isDigit

/-- `(\.[0-9]+)?([eE][-+]?[0-9]+)?` up to the end. -/
def isFraction (text : PyStr) : Bool :=
  if text.head? = some 46 then
    (text.tail.takeWhile isDigit) ≠ [] && isExponent (text.tail.dropWhile isDigit)
  else isExponent text

/-- `(-?(?:0|[1-9][0-9]*))(\.[0-9]+)?([eE][-+]?[0-9]+)?` up to the end. -/
def isNumber (word : PyStr) : Bool :=
  let unsigned := if word.head? = some 45 then word.tail else word
  isUnsignedInteger (unsigned.takeWhile isDigit) && isFraction (unsigned.dropWhile isDigit)

/-- The number decimal digits stand for. -/
def natOf (digits : PyStr) : Nat := digits.foldl (fun n c => n * 10 + (c - 48)) 0

/-- `int(lexeme)`. -/
def intOf (word : PyStr) : Int :=
  if word.head? = some 45 then -(natOf word.tail : Int) else natOf word

/-- The value of a word; nothing where the decoder raises. -/
def loadWord (number : PyStr → Double) (word : PyStr) : Option Loaded :=
  if word = py "null" then some .none
  else if word = py "true" then some (.bool true)
  else if word = py "false" then some (.bool false)
  else if word = py "NaN" then some (.float .nan)
  else if word = py "Infinity" then some (.float (.inf false))
  else if word = py "-Infinity" then some (.float (.inf true))
  else if isInteger word then
    if (word.filter isDigit).length ≤ maxIntDigits then some (.int (intOf word)) else none
  else if isNumber word then some (.float (number word))
  else none

mutual

def load (number : PyStr → Double) : Doc → Option Loaded
  | .word text => loadWord number text
  | .str value => some (.str value)
  | .arr items => (loadItems number items).map .list
  | .obj entries => (loadEntries number entries).map fun items => .dict (dictOf items)

def loadItems (number : PyStr → Double) : List Doc → Option (List Loaded)
  | [] => some []
  | d :: items => (load number d).bind fun x => (loadItems number items).map (x :: ·)

def loadEntries (number : PyStr → Double) :
    List (PyStr × Doc) → Option (List (PyStr × Loaded))
  | [] => some []
  | (key, d) :: entries =>
      (load number d).bind fun x => (loadEntries number entries).map ((key, x) :: ·)

end

/-- `json.loads(raw)`; nothing where it raises. -/
def loads (number : PyStr → Double) (raw : PyStr) : Option Loaded :=
  (read scanPoints raw).bind (load number)

/-! ## The values of the program -/

mutual

/-- A value of `json.loads` as the rest of the program handles it. -/
def loadedJson (float : Double → PyFloat) : Loaded → Json
  | .none => .null
  | .bool b => .bool b
  | .int i => .int i
  | .float x => .float (float x)
  | .str s => .str s
  | .list items => .arr (loadedItems float items)
  | .dict items => .obj (loadedDict float items)

def loadedItems (float : Double → PyFloat) : List Loaded → List Json
  | [] => []
  | x :: items => loadedJson float x :: loadedItems float items

def loadedDict (float : Double → PyFloat) :
    List (PyStr × Loaded) → List (PyStr × Json)
  | [] => []
  | (key, x) :: items => (key, loadedJson float x) :: loadedDict float items

end

/-- `json.loads`; numbers are read as `number` and `float` say. -/
def jsonLoads (number : PyStr → Double) (float : Double → PyFloat)
    (raw : PyStr) : Option Json :=
  (loads number raw).map (loadedJson float)

/-! ## Encoding -/

/-- The digits with zeros and the decimal point around them, up to the
position `vdigitsEnd`. -/
def digitLayout (digits : PyStr) (decpt vdigitsEnd : Int) : PyStr :=
  let len : Int := digits.length
  let zeros (n : Int) : PyStr := List.replicate n.toNat 48
  let vdigitsStart := if decpt ≤ 0 then decpt - 1 else 0
  let left := if decpt ≤ 0 then zeros (decpt - vdigitsStart) ++ 46 :: zeros (-decpt)
    else zeros (-vdigitsStart)
  let middle := if 0 < decpt ∧ decpt ≤ len then
    digits.take decpt.toNat ++ 46 :: digits.drop decpt.toNat else digits
  let right := if len < decpt then zeros (decpt - len) ++ 46 :: zeros (vdigitsEnd - decpt)
    else zeros (vdigitsEnd - len)
  left ++ middle ++ right

/-- A point at the end is deleted. -/
def dropPoint (text : PyStr) : PyStr :=
  if text.getLast? = some 46 then text.dropLast else text

/-- `%+.02d`. -/
def signedExponent (exp : Int) : PyStr :=
  (if exp < 0 then 45 else 43) :: padStart 2 (decimal exp.natAbs)

/-- `PyOS_double_to_string(x, 'r', 0, Py_DTSF_ADD_DOT_0)` on the digits of
`x` and the position of the decimal point. -/
def formatShort (sign digits : PyStr) (decpt : Int) : PyStr :=
  let len : Int := digits.length
  if decpt ≤ -4 ∨ 16 < decpt then
    dropPoint (sign ++ digitLayout digits 1 (if 1 < len then len else 1)) ++
      101 :: signedExponent (decpt - 1)
  else dropPoint (sign ++ digitLayout digits decpt (if decpt < len then len else decpt + 1))

/-- `floatstr`. -/
def floatText : Double → PyStr
  | .nan => py "NaN"
  | .inf false => py "Infinity"
  | .inf true => py "-Infinity"
  | .zero neg => formatShort (if neg then [45] else []) [48] 1
  | .finite neg lead digits exponent =>
      formatShort (if neg then [45] else []) (digitChar lead :: digits.map digitChar)
        (exponent + 1)

mutual

/-- `json.dumps(value, sort_keys=True, separators=(",", ":"))`; nothing where
it raises. -/
def Loaded.dumps : Loaded → Option PyStr
  | .none => some (py "null")
  | .bool b => some (if b then py "true" else py "false")
  | .int i => dumpsInt i
  | .float x => some (floatText x)
  | .str s => some (dumpsStr s)
  | .list items => (Loaded.dumpsItems items).map fun texts =>
      0x5B :: PyStr.join [0x2C] texts ++ [0x5D]
  | .dict items => (Loaded.dumpsDict items).map fun texts =>
      0x7B :: dumpsEntries (sortedEntries texts) ++ [0x7D]

def Loaded.dumpsItems : List Loaded → Option (List PyStr)
  | [] => some []
  | x :: items => (Loaded.dumps x).bind fun text =>
      (Loaded.dumpsItems items).map (text :: ·)

def Loaded.dumpsDict : List (PyStr × Loaded) → Option (List (PyStr × PyStr))
  | [] => some []
  | (key, x) :: items => (Loaded.dumps x).bind fun text =>
      (Loaded.dumpsDict items).map ((key, text) :: ·)

end


/-! ## Numbers are written as the buyer writes them -/

theorem dropPoint_of {text : PyStr} (h : text.getLast? ≠ some 46) : dropPoint text = text := by
  rw [dropPoint, if_neg h]

/-- A text that ends in no point keeps none at its end after more text. -/
theorem getLast_append (text : PyStr) {digits : PyStr} (hne : digits ≠ [])
    (hpoint : ∀ c ∈ digits, c ≠ 46) : (text ++ digits).getLast? ≠ some 46 := by
  intro hget
  rw [List.getLast?_append] at hget
  cases hlast : digits.getLast? with
  | none => exact hne (List.getLast?_eq_none_iff.1 hlast)
  | some c =>
      rw [hlast] at hget
      obtain rfl : c = 46 := by simpa using hget
      exact hpoint 46 (List.mem_of_getLast? hlast) rfl

section layout

variable {sign digits : PyStr} {decpt : Int} (hne : digits ≠ [])
  (hpoint : ∀ c ∈ digits, c ≠ 46)

include hne hpoint

/-- Below one: `0.`, zeros and the digits. -/
theorem formatShort_fraction (hlow : -4 < decpt) (hle : decpt ≤ 0) :
    formatShort sign digits decpt =
      sign ++ [48, 46] ++ List.replicate (-decpt).toNat 48 ++ digits := by
  have hpos : 0 < digits.length := List.length_pos_iff.2 hne
  have hone : (decpt - (decpt - 1)).toNat = 1 := by omega
  have hlayout : digitLayout digits decpt digits.length =
      [48, 46] ++ List.replicate (-decpt).toNat 48 ++ digits := by
    have hmiddle : ¬ (0 < decpt ∧ decpt ≤ (digits.length : Int)) := by omega
    have hright : ¬ (digits.length : Int) < decpt := by omega
    simp only [digitLayout, if_pos hle, if_neg hmiddle, if_neg hright, hone]
    simp
  rw [formatShort, if_neg (by omega), if_pos (by omega), hlayout, dropPoint_of]
  · simp
  · rw [← List.append_assoc]
    exact getLast_append _ hne hpoint

omit hne in
/-- Digits on both sides of the point, or a zero after it. -/
theorem formatShort_point (hpos : 0 < decpt) (hle : decpt ≤ 16) :
    formatShort sign digits decpt =
      if (digits.length : Int) ≤ decpt then
        sign ++ digits ++ List.replicate (decpt - digits.length).toNat 48 ++ [46, 48]
      else sign ++ digits.take decpt.toNat ++ 46 :: digits.drop decpt.toNat := by
  have hleft : ¬ decpt ≤ 0 := by omega
  rw [formatShort, if_neg (by omega)]
  by_cases hlt : decpt < digits.length
  · have hdrop : digits.drop decpt.toNat ≠ [] := by
      rw [ne_eq, List.drop_eq_nil_iff]
      omega
    have hlayout : digitLayout digits decpt digits.length =
        digits.take decpt.toNat ++ 46 :: digits.drop decpt.toNat := by
      have hmiddle : 0 < decpt ∧ decpt ≤ (digits.length : Int) := by omega
      have hright : ¬ (digits.length : Int) < decpt := by omega
      simp only [digitLayout, if_neg hleft, if_pos hmiddle, if_neg hright]
      simp
    rw [if_pos hlt, if_neg (by omega), hlayout, dropPoint_of]
    · simp
    · have hlast := getLast_append (sign ++ digits.take decpt.toNat ++ [46]) hdrop
        fun c hc => hpoint c (List.mem_of_mem_drop hc)
      simpa using hlast
  · rw [if_neg hlt, if_pos (by omega)]
    by_cases heq : decpt = digits.length
    · have hlayout : digitLayout digits decpt (decpt + 1) = digits ++ [46, 48] := by
        have hmiddle : 0 < decpt ∧ decpt ≤ (digits.length : Int) := by omega
        have hright : ¬ (digits.length : Int) < decpt := by omega
        simp only [digitLayout, if_neg hleft, if_pos hmiddle, if_neg hright]
        simp [heq]
      rw [hlayout, dropPoint_of]
      · simp [heq]
      · simp
    · have hlayout : digitLayout digits decpt (decpt + 1) =
          digits ++ List.replicate (decpt - digits.length).toNat 48 ++ [46, 48] := by
        have hmiddle : ¬ (0 < decpt ∧ decpt ≤ (digits.length : Int)) := by omega
        have hright : (digits.length : Int) < decpt := by omega
        simp only [digitLayout, if_neg hleft, if_neg hmiddle, if_pos hright]
        simp
      rw [hlayout, dropPoint_of]
      · simp
      · simp

/-- One digit before the point, and an exponent. -/
theorem formatShort_exponent (h : decpt ≤ -4 ∨ 16 < decpt) :
    formatShort sign digits decpt =
      sign ++ digits.take 1 ++ (if 1 < digits.length then 46 :: digits.drop 1 else []) ++
        101 :: signedExponent (decpt - 1) := by
  obtain ⟨d, rest, rfl⟩ := List.exists_cons_of_ne_nil hne
  rw [formatShort, if_pos h]
  cases rest with
  | nil =>
      have hlayout : digitLayout [d] 1 1 = [d, 46] := by simp [digitLayout]
      have hdrop : dropPoint (sign ++ [d, 46]) = sign ++ [d] := by
        have hlast : (sign ++ [d, 46]).getLast? = some 46 := by
          rw [List.getLast?_append]
          rfl
        rw [dropPoint, if_pos hlast, show sign ++ [d, 46] = (sign ++ [d]) ++ [46] by simp,
          List.dropLast_concat]
      simp [hlayout, hdrop]
  | cons e rest =>
      have hlen : ((d :: e :: rest).length : Int) = rest.length + 2 := by
        simp only [List.length_cons]
        omega
      have hlayout : digitLayout (d :: e :: rest) 1 (rest.length + 2) =
          d :: 46 :: e :: rest := by
        have hmiddle : (0 : Int) < 1 ∧ (1 : Int) ≤ rest.length + 2 := by omega
        have hright : ¬ (rest.length : Int) + 2 < 1 := by omega
        simp only [digitLayout, hlen, if_pos hmiddle, if_neg hright]
        simp
      have hrest : e :: rest ≠ [] := by simp
      have hlast := getLast_append (sign ++ [d, 46]) hrest
        fun c hc => hpoint c (List.mem_cons_of_mem _ hc)
      rw [hlen, if_pos (by omega), hlayout, dropPoint_of (by simpa using hlast)]
      simp

end layout

/-- `floatstr` writes what the buyer's `pythonFloat` writes. -/
theorem floatText_eq (x : Double) : floatText x = pythonFloat x := by
  cases x with
  | nan => rfl
  | inf neg => cases neg <;> rfl
  | zero neg => cases neg <;> decide
  | finite neg lead digits exponent =>
      have hne : digitChar lead :: digits.map digitChar ≠ [] := by simp
      have hpoint : ∀ c ∈ digitChar lead :: digits.map digitChar, c ≠ 46 := by
        intro c hc
        obtain rfl | hc := List.mem_cons.1 hc
        · unfold digitChar
          omega
        · obtain ⟨d, -, rfl⟩ := List.mem_map.1 hc
          unfold digitChar
          omega
      have hzero : Js.js "0." = [48, 46] := by decide
      have hend : Js.js ".0" = [46, 48] := by decide
      simp only [floatText, pythonFloat, hzero, hend]
      by_cases hfixed : -4 ≤ exponent ∧ exponent < 16
      · rw [if_pos hfixed]
        by_cases hsmall : exponent + 1 ≤ 0
        · rw [if_pos hsmall, formatShort_fraction hne hpoint (by omega) hsmall]
        · rw [if_neg hsmall, formatShort_point hpoint (by omega) (by omega)]
      · rw [if_neg hfixed, formatShort_exponent hne hpoint (by omega)]
        have hexp : exponent + 1 - 1 = exponent := by omega
        have hsign : (if exponent < 0 then 45 else 43 : Nat) = if 0 ≤ exponent then 43 else 45 := by
          by_cases hneg : exponent < 0
          · rw [if_pos hneg, if_neg (by omega)]
          · rw [if_neg hneg, if_pos (by omega)]
        rw [hexp, signedExponent, hsign]

/-! ### Integers -/

/-- A number is that of its decimal digits. -/
theorem natOf_eq_ofDigits (digits : PyStr) :
    natOf digits = Nat.ofDigits 10 (digits.reverse.map (· - 48)) := by
  unfold natOf
  rw [← List.foldr_reverse, Nat.ofDigits_eq_foldr, List.foldr_map]
  simp only [Nat.cast_id]
  congr 1
  funext c n
  omega

/-- Digits without a leading zero are those of their number. -/
theorem natDigits_natOf {c : Nat} {digits : PyStr} (hc : 49 ≤ c ∧ c ≤ 57)
    (hdigits : ∀ d ∈ digits, 48 ≤ d ∧ d ≤ 57) : natDigits (natOf (c :: digits)) = c :: digits := by
  have hall : ∀ d ∈ c :: digits, 48 ≤ d ∧ d ≤ 57 :=
    List.forall_mem_cons.2 ⟨by omega, hdigits⟩
  have hback : Nat.digits 10 (natOf (c :: digits)) = (c :: digits).reverse.map (· - 48) := by
    rw [natOf_eq_ofDigits]
    refine Nat.digits_ofDigits 10 (by decide) _ ?_ ?_
    · intro l hl
      obtain ⟨d, hd, rfl⟩ := List.mem_map.1 hl
      have := hall d (List.mem_reverse.1 hd)
      omega
    · intro hne
      simp only [List.reverse_cons, List.map_append, List.map_cons, List.map_nil,
        List.getLast_append_singleton]
      omega
  unfold natDigits
  rw [hback, ← List.map_reverse, List.reverse_reverse, List.map_map]
  have hid : ∀ d ∈ c :: digits, ((48 + ·) ∘ (· - 48)) d = d := by
    intro d hd
    have := hall d hd
    simp only [Function.comp_apply]
    omega
  rw [List.map_congr_left hid, List.map_id']

/-- A number that starts with a digit above zero is above zero. -/
theorem natOf_pos {c : Nat} {digits : PyStr} (hc : 49 ≤ c ∧ c ≤ 57)
    (hdigits : ∀ d ∈ digits, 48 ≤ d ∧ d ≤ 57) : natOf (c :: digits) ≠ 0 := by
  intro hzero
  have htext := natDigits_natOf hc hdigits
  rw [hzero] at htext
  simp [natDigits] at htext

theorem filter_digits {digits : PyStr} (h : ∀ d ∈ digits, 48 ≤ d ∧ d ≤ 57) :
    digits.filter isDigit = digits := by
  refine List.filter_eq_self.2 ?_
  intro d hd
  have := h d hd
  simp [isDigit, this]

/-- `str(int(lexeme))` is the lexeme, and `0` for `-0`. -/
theorem dumpsInt_intOf {word : PyStr} (h : isInteger word = true)
    (hlimit : (word.filter isDigit).length ≤ maxIntDigits) :
    dumpsInt (intOf word) = some (if word = Js.js "-0" then Js.js "0" else word) := by
  have hminus : Js.js "-0" = [45, 48] := by decide
  have hzero : Js.js "0" = [48] := by decide
  rw [hminus, hzero]
  simp only [isInteger, Bool.or_eq_true, Bool.and_eq_true, decide_eq_true_eq] at h
  obtain hunsigned | ⟨hhead, hunsigned⟩ := h
  · cases word with
    | nil => simp [isUnsignedInteger] at hunsigned
    | cons c digits =>
        simp only [isUnsignedInteger, Bool.or_eq_true, Bool.and_eq_true, decide_eq_true_eq,
          List.all_eq_true] at hunsigned
        obtain ⟨rfl, rfl⟩ | ⟨hc, hdigits⟩ := hunsigned
        · simp [intOf, natOf, dumpsInt, intText]
        · have hpos := natOf_pos hc hdigits
          have htext := natDigits_natOf hc hdigits
          have hint : intOf (c :: digits) = natOf (c :: digits) := by
            rw [intOf, if_neg (by simp; omega)]
          have hlength : (Nat.digits 10 (natOf (c :: digits))).length = (c :: digits).length := by
            simpa [natDigits] using congrArg List.length htext
          have hall : ∀ d ∈ c :: digits, 48 ≤ d ∧ d ≤ 57 :=
            List.forall_mem_cons.2 ⟨by omega, hdigits⟩
          rw [filter_digits hall] at hlimit
          have hne : c :: digits ≠ [45, 48] := by
            intro heq
            have := (List.cons.inj heq).1
            omega
          rw [dumpsInt, hint, Int.natAbs_natCast, if_pos (by omega), if_neg hne, intText,
            if_neg (by omega), if_neg (by omega), Int.natAbs_natCast, htext]
  · obtain ⟨rest, rfl⟩ := List.head?_eq_some_iff.1 hhead
    cases rest with
    | nil => simp [isUnsignedInteger] at hunsigned
    | cons c digits =>
        simp only [List.tail_cons, isUnsignedInteger, Bool.or_eq_true, Bool.and_eq_true,
          decide_eq_true_eq, List.all_eq_true] at hunsigned
        obtain ⟨rfl, rfl⟩ | ⟨hc, hdigits⟩ := hunsigned
        · simp [intOf, natOf, dumpsInt, intText]
        · have hpos := natOf_pos hc hdigits
          have htext := natDigits_natOf hc hdigits
          have hint : intOf (45 :: c :: digits) = -(natOf (c :: digits) : Int) := by
            rw [intOf, if_pos (by simp)]
            rfl
          have hlength : (Nat.digits 10 (natOf (c :: digits))).length = (c :: digits).length := by
            simpa [natDigits] using congrArg List.length htext
          have hall : ∀ d ∈ c :: digits, 48 ≤ d ∧ d ≤ 57 :=
            List.forall_mem_cons.2 ⟨by omega, hdigits⟩
          have hsign : isDigit 45 = false := by decide
          rw [List.filter_cons_of_neg (by simp [hsign]), filter_digits hall] at hlimit
          have hne : 45 :: c :: digits ≠ [45, 48] := by
            intro heq
            have := (List.cons.inj (List.cons.inj heq).2).1
            omega
          rw [dumpsInt, hint, Int.natAbs_neg, Int.natAbs_natCast, if_pos (by omega), if_neg hne,
            intText, if_pos (by omega), Int.natAbs_neg, Int.natAbs_natCast, htext]

end Python
