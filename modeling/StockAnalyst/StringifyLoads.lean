import StockAnalyst.DeepEqual
import StockAnalyst.DumpsLoads
import StockAnalyst.NotifyContext
import StockAnalyst.SortedJson
import StockAnalyst.StringifyText

/-!
# `json.loads` of `JSON.stringify`

A value that a JavaScript program writes with `JSON.stringify` is read by
`json.loads` as the same value: strings as their code points, objects with
their keys in order.  The keys of an object stay distinct, so a hook that
refuses duplicate keys accepts it.
-/

namespace JsonText

open Python Deliverable Js

/-! ## Literals -/

/-- What `JSON.stringify` writes for a code point, in code points. -/
def literalText (c : Nat) : List Nat := if c < 0x10000 then stringifyPoint c else [c]

/-- A code point is written as a short escape, as `\uXXXX` or as itself. -/
theorem literalText_forms (c : Nat) :
    (∃ e, e ≠ 117 ∧ escaped e = some c ∧ literalText c = [0x5C, e]) ∨
      (literalText c = unitEscape c ∧ c < 0x10000) ∨
      (literalText c = [c] ∧ c ≠ 0x22 ∧ c ≠ 0x5C ∧ ¬ c < 0x20 ∧ isHigh c = false ∧
        isLow c = false) := by
  by_cases hbmp : c < 0x10000
  · have hshort : ∀ e v, c = v → e ≠ 117 → escaped e = some v → literalText c = [0x5C, e] →
        ∃ e', e' ≠ 117 ∧ escaped e' = some c ∧ literalText c = [0x5C, e'] :=
      fun e v hv he hescaped htext => ⟨e, he, hv ▸ hescaped, htext⟩
    have htext : literalText c = stringifyPoint c := if_pos hbmp
    have hpoint := htext
    unfold stringifyPoint at hpoint
    split_ifs at hpoint with h₁ h₂ h₃ h₄ h₅ h₆ h₇ hescape
    · exact Or.inl (hshort 0x22 _ h₁ (by decide) rfl hpoint)
    · exact Or.inl (hshort 0x5C _ h₂ (by decide) rfl hpoint)
    · exact Or.inl (hshort 98 _ h₃ (by decide) rfl hpoint)
    · exact Or.inl (hshort 102 _ h₄ (by decide) rfl hpoint)
    · exact Or.inl (hshort 110 _ h₅ (by decide) rfl hpoint)
    · exact Or.inl (hshort 114 _ h₆ (by decide) rfl hpoint)
    · exact Or.inl (hshort 116 _ h₇ (by decide) rfl hpoint)
    · exact Or.inr (Or.inl ⟨hpoint, hbmp⟩)
    · simp only [Bool.or_eq_true, decide_eq_true_eq, not_or, Bool.not_eq_true] at hescape
      rw [Deliverable.pointUnits, if_pos hbmp] at hpoint
      exact Or.inr (Or.inr ⟨hpoint, h₁, h₂, hescape.1.1, hescape.1.2, hescape.2⟩)
  · have hsurrogate : isHigh c = false ∧ isLow c = false := by
      simp only [isHigh, isLow, Bool.and_eq_false_iff, decide_eq_false_iff_not]
      omega
    exact Or.inr (Or.inr ⟨if_neg hbmp, by omega, by omega, by omega, hsurrogate⟩)

/-- No low surrogate is escaped at the beginning, unless it is the point. -/
theorem lowEscape_literalText {c : Nat} (hlow : isLow c = false) (text : List Nat) :
    lowEscape (literalText c ++ text) = none := by
  obtain ⟨e, he, -, htext⟩ | ⟨htext, hbmp⟩ | ⟨htext, -, hslash, -⟩ := literalText_forms c
  · rw [htext]
    exact lowEscape_short he text
  · rw [htext, lowEscape_unit hbmp, hlow]
    rfl
  · rw [htext]
    exact lowEscape_head hslash text

/-- A code point that is not the first of a pair is read by itself. -/
theorem scanPoints_literalText {c : Nat} {text : List Nat}
    (halone : isHigh c = true → lowEscape text = none) :
    scanPoints (literalText c ++ text) =
      (scanPoints text).map fun (value, last) => (c :: value, last) := by
  obtain ⟨e, he, hescaped, htext⟩ | ⟨htext, hbmp⟩ | ⟨htext, hquote, hslash, hlow, -⟩ :=
    literalText_forms c
  · rw [htext]
    exact scanPoints_short he hescaped text
  · rw [htext]
    exact scanPoints_alone (hexValue4_unit hbmp) halone
  · rw [htext]
    exact scanPoints_plain hquote hslash hlow text

/-- A literal is read back as it was. -/
theorem scanPoints_literal {ps : List Nat} (hpair : NoPair ps) (rest : List Nat) :
    scanPoints (ps.flatMap literalText ++ 0x22 :: rest) = some (ps, rest) := by
  induction ps with
  | nil => exact scanPoints_quote rest
  | cons c ps ih =>
      rw [List.flatMap_cons, List.append_assoc]
      cases ps with
      | nil =>
          have hquote : scanPoints (literalText c ++ 0x22 :: rest) =
              (scanPoints (0x22 :: rest)).map fun (value, last) => (c :: value, last) :=
            scanPoints_literalText fun _ => lowEscape_head (by decide) rest
          rw [scanPoints_quote] at hquote
          exact hquote
      | cons d ps =>
          obtain ⟨hcd, hrest⟩ := hpair
          rw [scanPoints_literalText, ih hrest]
          · rfl
          · intro hhigh
            have hlow : isLow d = false := by simpa [hhigh] using hcd
            rw [List.flatMap_cons, List.append_assoc]
            exact lowEscape_literalText hlow _

/-- The text for a code point, in code units. -/
theorem stringifyPoint_literalText {c : Nat} (hc : c < 0x110000) :
    stringifyPoint c = utf16 (literalText c) ∧ ∀ d ∈ literalText c, Scalar d := by
  have hascii : ∀ text : List Nat, (∀ d ∈ text, d < 0x80) →
      text = utf16 text ∧ ∀ d ∈ text, Scalar d :=
    fun text htext => ⟨(utf16_ascii htext).symm, fun d hd => scalar_ascii (htext d hd)⟩
  have hbmp : c < 0x10000 → stringifyPoint c = literalText c := fun h => (if_pos h).symm
  obtain ⟨e, -, hescaped, htext⟩ | ⟨htext, hlt⟩ | ⟨htext, h₁, h₂, hlow, hsurrogate⟩ :=
    literalText_forms c
  · obtain ⟨he, hlt⟩ := escaped_lt hescaped
    rw [hbmp (by omega), htext]
    refine hascii _ ?_
    simpa using he
  · rw [hbmp hlt, htext]
    refine hascii _ ?_
    intro d hd
    have := unitEscape_ascii c d hd
    omega
  · rw [htext]
    refine ⟨?_, List.forall_mem_singleton.2 ⟨hsurrogate.1, hsurrogate.2, hc⟩⟩
    have hunits : utf16 [c] = Deliverable.pointUnits c := List.append_nil _
    by_cases hlt : c < 0x10000
    · rw [hbmp hlt, htext, hunits, Deliverable.pointUnits, if_pos hlt]
    · rw [hunits]
      unfold stringifyPoint
      rw [if_neg h₁, if_neg h₂, if_neg (by omega), if_neg (by omega), if_neg (by omega),
        if_neg (by omega), if_neg (by omega), if_neg (by simp [hlow, hsurrogate])]

/-- A literal in code points. -/
theorem points_stringify {value : JsStr} (h : ∀ u ∈ value, u < 0x10000) :
    points (stringify value) = 0x22 :: ((points value).flatMap literalText ++ [0x22]) := by
  have hquote : Scalar 0x22 := scalar_ascii (by decide)
  have hbody : ∀ ps : List Nat, (∀ c ∈ ps, c < 0x110000) →
      ps.flatMap stringifyPoint = utf16 (ps.flatMap literalText) ∧
        ∀ d ∈ ps.flatMap literalText, Scalar d := by
    intro ps hps
    induction ps with
    | nil => exact ⟨rfl, by simp⟩
    | cons c ps ih =>
        obtain ⟨hc, hps⟩ := List.forall_mem_cons.1 hps
        obtain ⟨hfirst, hscalar⟩ := stringifyPoint_literalText hc
        obtain ⟨htext, hrest⟩ := ih hps
        refine ⟨?_, ?_⟩
        · rw [List.flatMap_cons, List.flatMap_cons, utf16_append, ← hfirst, ← htext]
        · rw [List.flatMap_cons]
          exact List.forall_mem_append.2 ⟨hscalar, hrest⟩
  obtain ⟨htext, hscalar⟩ := hbody _ (points_lt h)
  have hall : ∀ d ∈ 0x22 :: ((points value).flatMap literalText ++ [0x22]), Scalar d :=
    List.forall_mem_cons.2 ⟨hquote, List.forall_mem_append.2
      ⟨hscalar, List.forall_mem_singleton.2 hquote⟩⟩
  have hunits : stringify value =
      utf16 (0x22 :: ((points value).flatMap literalText ++ [0x22])) := by
    rw [utf16_cons, utf16_append, ← htext]
    rfl
  rw [hunits, points_utf16 (noPair_of_scalar hall) fun d hd => (hall d hd).2.2]

/-- `json.loads` reads a literal of `JSON.stringify` as its code points. -/
theorem ok_points_stringify {value : JsStr} (h : ∀ u ∈ value, u < 0x10000) :
    (Lexeme.str (stringifyStyle.lit value) (points value)).Ok scanPoints := by
  refine ⟨(points value).flatMap literalText ++ [0x22], points_stringify h, ?_⟩
  intro rest
  rw [List.append_assoc]
  exact scanPoints_literal (noPair_rejoin value) rest

/-- A document written by `JSON.stringify` and read by `json.loads`. -/
theorem Doc.Units.read_points {d : Doc} (h : d.Units) :
    read scanPoints (points (d.print stringifyStyle.utf16)) = some (d.mapStr points) := by
  have hscalar : ∀ c ∈ d.print stringifyStyle, Scalar c := by
    refine Doc.forall_print (fun c hc => scalar_ascii (isPunct_ascii hc))
      (fun c hc => scalar_ascii (isSpace_ascii hc)) ?_ ?_ h
    · intro text hword c hc
      exact scalar_ascii (hword.2 c hc).2
    · intro value hvalue
      exact (wellFormed_stringify hvalue).points.2
  rw [← Doc.utf16_print _ h, points_utf16 (noPair_of_scalar hscalar) fun c hc => (hscalar c hc).2.2]
  refine Doc.read_print (h.mono ?_ ?_)
  · intro text hword
    exact ⟨hword.1, fun c hc => (hword.2 c hc).1⟩
  · intro value hvalue
    exact ok_points_stringify hvalue

end JsonText

namespace Js

open Python Deliverable JsonText NotifySecurity

/-! ## Values -/

/-- What `JSON.stringify` writes for a number; `numberText` is `String`. -/
def stringifyNumber (numberText : PyFloat → JsStr) : PyFloat → JsStr
  | .finite neg abs => numberText (.finite neg abs)
  | _ => js "null"

section values

variable (numberText : PyFloat → JsStr)

mutual

/-- The document that `JSON.stringify` prints. -/
def stringifyDoc : Value → Doc
  | .null => .word (js "null")
  | .bool b => .word (if b then js "true" else js "false")
  | .num x => .word (stringifyNumber numberText x)
  | .str s => .str s
  | .arr items => .arr (stringifyDocs items)
  | .obj entries => .obj (stringifyDocEntries entries)

def stringifyDocs : List Value → List Doc
  | [] => []
  | v :: items => stringifyDoc v :: stringifyDocs items

def stringifyDocEntries : List (JsStr × Value) → List (JsStr × Doc)
  | [] => []
  | (key, v) :: entries => (key, stringifyDoc v) :: stringifyDocEntries entries

end

/-- `JSON.stringify(v)`. -/
def stringifyValue (v : Value) : JsStr := (stringifyDoc numberText v).print stringifyStyle.utf16

end values

section carried

variable (number : PyFloat → Json)

mutual

/-- A value as a Python program has it, where `number` is what it has of a
number. -/
def carried : Value → Json
  | .null => .null
  | .bool b => .bool b
  | .num x => number x
  | .str s => .str (points s)
  | .arr items => .arr (carriedItems items)
  | .obj entries => .obj (carriedEntries entries)

def carriedItems : List Value → List Json
  | [] => []
  | v :: items => carried v :: carriedItems items

def carriedEntries : List (JsStr × Value) → List (PyStr × Json)
  | [] => []
  | (key, v) :: entries => (points key, carried v) :: carriedEntries entries

end

end carried

/-- The items of a list are carried one by one. -/
theorem carriedItems_eq_map {number : PyFloat → Json} (items : List Value) :
    carriedItems number items = items.map (carried number) := by
  induction items with
  | nil => rfl
  | cons v items ih => rw [carriedItems, ih, List.map_cons]

/-- The entries of an object are carried one by one. -/
theorem carriedEntries_eq_map {number : PyFloat → Json} (entries : List (JsStr × Value)) :
    carriedEntries number entries = entries.map fun e => (points e.1, carried number e.2) := by
  induction entries with
  | nil => rfl
  | cons e entries ih =>
      obtain ⟨key, v⟩ := e
      rw [carriedEntries, ih, List.map_cons]

/-- Strings of code units with the same code points are the same. -/
theorem points_inj {s t : JsStr} (hs : ∀ u ∈ s, u < 0x10000) (ht : ∀ u ∈ t, u < 0x10000)
    (h : points s = points t) : s = t := by
  rw [← utf16_points hs, h, utf16_points ht]

/-- A value is found under the code points of its key. -/
theorem lookup_points {α β : Type} (f : α → β) {entries : List (JsStr × α)}
    (hunits : ∀ e ∈ entries, ∀ u ∈ e.1, u < 0x10000) {key : JsStr}
    (hkey : ∀ u ∈ key, u < 0x10000) :
    (entries.map fun e => (points e.1, f e.2)).lookup (points key) =
      (entries.lookup key).map f := by
  induction entries with
  | nil => rfl
  | cons e entries ih =>
      obtain ⟨k, v⟩ := e
      obtain ⟨hk, hentries⟩ := List.forall_mem_cons.1 hunits
      rw [List.map_cons, List.lookup_cons, List.lookup_cons, ih hentries]
      by_cases heq : key = k
      · simp [heq]
      · have hpoints : points key ≠ points k := fun h => heq (points_inj hkey hk h)
        rw [beq_false_of_ne heq, beq_false_of_ne hpoints]

/-! ## Numbers -/

/-- What `String` writes and `float` reads of finite doubles.  Both zeros are
written as `0`. -/
structure NumberReads (codec : Codec) (numberText : PyFloat → JsStr) : Prop where
  whole : ∀ (neg : Bool) (n : ℕ), n ≤ 2 ^ 53 →
    numberText (.finite neg n) = intText (if neg then -(n : Int) else n)
  fraction : ∀ neg abs, IsDouble abs → abs.den ≠ 1 →
    isNumber (numberText (.finite neg abs)) = true ∧
      isInteger (numberText (.finite neg abs)) = false ∧
      codec.float (codec.number (numberText (.finite neg abs))) = .finite neg abs
  /-- A whole number beyond `2 ^ 53` is written with zeros behind its digits,
  or with an exponent. -/
  large : ∀ neg abs, IsDouble abs → abs.den = 1 → 2 ^ 53 < abs →
    isNumber (numberText (.finite neg abs)) = true ∧
      (isInteger (numberText (.finite neg abs)) = true ∧
          ((numberText (.finite neg abs)).filter isDigit).length ≤ maxIntDigits ∧
          2 ^ 53 ≤ |intOf (numberText (.finite neg abs))| ∨
        isInteger (numberText (.finite neg abs)) = false ∧
          codec.float (codec.number (numberText (.finite neg abs))) = .finite neg abs)

variable {codec : Codec} {numberText : PyFloat → JsStr}

/-- What a Python program has of a number that was written. -/
def numberJson (codec : Codec) (numberText : PyFloat → JsStr) (x : PyFloat) : Json :=
  (codec.word (stringifyNumber numberText x)).getD .null

/-- A number is carried as what its text is read as. -/
theorem numberJson_eq {neg : Bool} {abs : ℚ} {j : Json}
    (h : codec.word (numberText (.finite neg abs)) = some j) :
    numberJson codec numberText (.finite neg abs) = j := by
  rw [numberJson, stringifyNumber, h, Option.getD_some]

/-- The number as a whole number where it is one, up to `2 ^ 53`. -/
def numOf : PyFloat → Option NotifySecurity.Num
  | .finite neg abs =>
      if abs.den = 1 ∧ abs ≤ 2 ^ 53 then some (.int (if neg then -abs.num else abs.num))
      else some (.float neg abs)
  | _ => none

/-- The word of a number is no name. -/
theorem loadWord_number {number : PyStr → Double} {w : PyStr} (h : isNumber w = true) :
    loadWord number w =
      if isInteger w then
        if (w.filter isDigit).length ≤ maxIntDigits then some (.int (intOf w)) else none
      else some (.float (number w)) := by
  have hne : ∀ name : PyStr, isNumber name = false → w ≠ name := by
    intro name hname heq
    rw [heq, hname] at h
    cases h
  unfold loadWord
  rw [if_neg (hne _ (by decide)), if_neg (hne _ (by decide)), if_neg (hne _ (by decide)),
    if_neg (hne _ (by decide)), if_neg (hne _ (by decide)), if_neg (hne _ (by decide)), if_pos h]

/-- A small integer is read as it is written. -/
theorem word_intText {i : Int} (h : |i| ≤ 2 ^ 53) : codec.word (intText i) = some (.int i) := by
  have hlength : (intText i).length ≤ 17 := by
    have hdigits : (Nat.digits 10 i.natAbs).length ≤ 16 := by
      refine (Nat.digits_length_le_iff (by decide) _).2 ?_
      rw [Int.abs_eq_natAbs] at h
      omega
    unfold intText natDigits
    split_ifs <;> simp <;> omega
  have hfilter : ((intText i).filter isDigit).length ≤ maxIntDigits :=
    (List.length_filter_le _ _).trans (hlength.trans (by decide))
  rw [Codec.word, loadWord_number (isNumber_intText i), if_pos (isInteger_intText i),
    if_pos hfilter, intOf_intText]
  rfl

/-- A whole number is its numerator. -/
theorem natAbs_whole {abs : ℚ} (hnonneg : 0 ≤ abs) (hden : abs.den = 1) :
    (abs.num.natAbs : Int) = abs.num ∧ abs = (abs.num.natAbs : ℕ) := by
  have hcast : (abs.num.natAbs : Int) = abs.num := Int.natAbs_of_nonneg (Rat.num_nonneg.2 hnonneg)
  refine ⟨hcast, ?_⟩
  rw [← Int.cast_natCast, hcast, Rat.coe_int_num_of_den_eq_one hden]

/-- A small whole number is its numerator, and small. -/
theorem whole_natAbs {abs : ℚ} (hnonneg : 0 ≤ abs) (hden : abs.den = 1) (h : abs ≤ 2 ^ 53) :
    (abs.num.natAbs : Int) = abs.num ∧ abs = (abs.num.natAbs : ℕ) ∧ abs.num.natAbs ≤ 2 ^ 53 := by
  obtain ⟨hcast, hnum⟩ := natAbs_whole hnonneg hden
  refine ⟨hcast, hnum, ?_⟩
  rw [hnum] at h
  exact_mod_cast h

/-- What is read of a number: the whole number, a whole number that is larger
than it, or the double. -/
theorem numberJson_cases (hreads : NumberReads codec numberText) {neg : Bool} {abs : ℚ}
    (hdouble : IsDouble abs) :
    (codec.word (numberText (.finite neg abs)) =
        some (.int (if neg then -abs.num else abs.num)) ∧ abs.den = 1 ∧ abs ≤ 2 ^ 53) ∨
      (¬ (abs.den = 1 ∧ abs ≤ 2 ^ 53) ∧
        codec.word (numberText (.finite neg abs)) = some (.float (.finite neg abs))) ∨
      (abs.den = 1 ∧ 2 ^ 53 < abs ∧ ∃ i : Int, 2 ^ 53 ≤ |i| ∧
        codec.word (numberText (.finite neg abs)) = some (.int i)) := by
  have hfloat : isNumber (numberText (.finite neg abs)) = true →
      isInteger (numberText (.finite neg abs)) = false →
      codec.float (codec.number (numberText (.finite neg abs))) = .finite neg abs →
      codec.word (numberText (.finite neg abs)) = some (.float (.finite neg abs)) := by
    intro hnumber hinteger hvalue
    rw [Codec.word, loadWord_number hnumber, hinteger, if_neg (by decide), Option.map_some,
      loadedJson, hvalue]
  by_cases hden : abs.den = 1
  · obtain hsmall | hlarge := le_or_gt abs (2 ^ 53)
    · refine Or.inl ⟨?_, hden, hsmall⟩
      obtain ⟨hcast, hnum, hle⟩ := whole_natAbs hdouble.nonneg hden hsmall
      have hword := hreads.whole neg _ hle
      rw [← hnum, hcast] at hword
      have habs : |abs.num| ≤ 2 ^ 53 := by
        rw [← hcast, Nat.abs_cast]
        exact_mod_cast hle
      rw [hword]
      cases neg with
      | false => exact word_intText habs
      | true => exact word_intText (by rwa [if_pos rfl, abs_neg])
    · obtain ⟨hnumber, ⟨hinteger, hdigits, hvalue⟩ | ⟨hinteger, hvalue⟩⟩ :=
        hreads.large neg abs hdouble hden hlarge
      · refine Or.inr (Or.inr ⟨hden, hlarge, _, hvalue, ?_⟩)
        rw [Codec.word, loadWord_number hnumber, if_pos hinteger, if_pos hdigits]
        rfl
      · exact Or.inr (Or.inl
          ⟨fun h => absurd h.2 (not_le.2 hlarge), hfloat hnumber hinteger hvalue⟩)
  · obtain ⟨hnumber, hinteger, hvalue⟩ := hreads.fraction neg abs hdouble hden
    exact Or.inr (Or.inl ⟨fun h => hden h.1, hfloat hnumber hinteger hvalue⟩)

/-- What is read of a number the program can hold is no exception. -/
theorem word_number (hreads : NumberReads codec numberText) {x : PyFloat}
    (hx : (Value.num x).Held) :
    AsciiWord (stringifyNumber numberText x) ∧
      codec.word (stringifyNumber numberText x) = some (numberJson codec numberText x) := by
  have hnull : AsciiWord (js "null") := asciiWord_of_nameChars (by decide) (by decide)
  have hget : ∀ j, codec.word (stringifyNumber numberText x) = some j →
      codec.word (stringifyNumber numberText x) = some (numberJson codec numberText x) := by
    intro j hj
    rw [numberJson, hj, Option.getD_some]
  cases hx with
  | inf => exact ⟨hnull, rfl⟩
  | nan => exact ⟨hnull, rfl⟩
  | @finite neg abs hdouble =>
      have hword : AsciiWord (numberText (.finite neg abs)) := by
        by_cases hden : abs.den = 1
        · obtain hsmall | hlarge := le_or_gt abs (2 ^ 53)
          · obtain ⟨-, hnum, hle⟩ := whole_natAbs hdouble.nonneg hden hsmall
            rw [hnum, hreads.whole neg _ hle]
            exact isNumber_word (isNumber_intText _)
          · exact isNumber_word (hreads.large neg abs hdouble hden hlarge).1
        · exact isNumber_word (hreads.fraction neg abs hdouble hden).1
      refine ⟨hword, ?_⟩
      obtain ⟨h, -⟩ | ⟨-, h⟩ | ⟨-, -, i, -, h⟩ := @numberJson_cases _ _ hreads neg _ hdouble
      · exact hget _ h
      · exact hget _ h
      · exact hget _ h

/-- Only an integer is read as one. -/
theorem finiteNumber_eq_int {j : Json} {i : Int} :
    finiteNumber j = some (.int i) ↔ j = .int i := by
  constructor
  · intro h
    cases j with
    | int k => rw [NotifySecurity.Num.int.inj (Option.some.inj h)]
    | float x => cases x <;> simp [finiteNumber] at h
    | _ => cases h
  · intro h
    rw [h, finiteNumber]

/-- Within limits below `2 ^ 53` a number is what it was. -/
theorem finiteNumber_numberJson (hreads : NumberReads codec numberText) {x : PyFloat}
    (hx : (Value.num x).Held) {n : NotifySecurity.Num} (hn : |n.value| < 2 ^ 53) :
    finiteNumber (numberJson codec numberText x) = some n ↔ numOf x = some n := by
  cases hx with
  | inf => exact Iff.rfl
  | nan => exact Iff.rfl
  | @finite neg abs hdouble =>
      obtain ⟨hword, hwhole⟩ | ⟨hwhole, hword⟩ | ⟨-, hlarge, i, hi, hword⟩ :=
        @numberJson_cases _ _ hreads neg _ hdouble
      · rw [numberJson_eq hword, numOf, if_pos hwhole, finiteNumber]
      · rw [numberJson_eq hword, numOf, if_neg hwhole, finiteNumber]
      · -- neither the integer that is read nor the double is within the limit
        rw [numberJson_eq hword, numOf, if_neg fun h => absurd h.2 (not_le.2 hlarge), finiteNumber]
        refine iff_of_false ?_ ?_
        · intro heq
          obtain rfl := Option.some.inj heq
          have hvalue : |(i : ℚ)| < 2 ^ 53 := hn
          have hint : ((2 ^ 53 : Int) : ℚ) ≤ ((|i| : Int) : ℚ) := by exact_mod_cast hi
          rw [Int.cast_abs] at hint
          push_cast at hint
          exact absurd hvalue (not_lt.2 hint)
        · intro heq
          obtain rfl := Option.some.inj heq
          have hvalue : |(NotifySecurity.Num.float neg abs).value| = abs := by
            cases neg with
            | false => exact abs_of_nonneg hdouble.nonneg
            | true => exact (abs_neg abs).trans (abs_of_nonneg hdouble.nonneg)
          rw [hvalue] at hn
          exact absurd hn (not_lt.2 hlarge.le)

/-! ## The round trip -/

/-- The documents of a list, item by item. -/
theorem stringifyDocs_eq_map (items : List Value) :
    stringifyDocs numberText items = items.map (stringifyDoc numberText) := by
  induction items with
  | nil => rfl
  | cons v items ih => rw [stringifyDocs, ih, List.map_cons]

/-- The documents of an object, value by value. -/
theorem stringifyDocEntries_eq_map (entries : List (JsStr × Value)) :
    stringifyDocEntries numberText entries =
      entries.map fun e => (e.1, stringifyDoc numberText e.2) := by
  induction entries with
  | nil => rfl
  | cons e entries ih =>
      obtain ⟨key, v⟩ := e
      rw [stringifyDocEntries, ih, List.map_cons]

/-- Distinct keys have distinct code points. -/
theorem nodup_carriedEntries {number : PyFloat → Json} {entries : List (JsStr × Value)}
    (hunits : ∀ e ∈ entries, ∀ u ∈ e.1, u < 0x10000) (hkeys : (entries.map (·.1)).Nodup) :
    ((carriedEntries number entries).map (·.1)).Nodup := by
  rw [carriedEntries_eq_map, List.map_map]
  have hmap : (fun e : PyStr × Json => e.1) ∘ (fun e : JsStr × Value =>
      (points e.1, carried number e.2)) = points ∘ fun e => e.1 := rfl
  rw [hmap, ← List.map_map]
  refine hkeys.map_on ?_
  intro key hkey key' hkey' heq
  obtain ⟨e, he, rfl⟩ := List.mem_map.1 hkey
  obtain ⟨e', he', rfl⟩ := List.mem_map.1 hkey'
  exact points_inj (hunits e he) (hunits e' he') heq

/-- The document of a held value has code units. -/
theorem units_stringifyDoc (hreads : NumberReads codec numberText) {v : Value} (hv : v.Held) :
    (stringifyDoc numberText v).Units := by
  induction v using Value.induct with
  | null => exact .word (asciiWord_of_nameChars (by decide) (by decide))
  | bool b => exact .word (asciiWord_bool b)
  | num x => exact .word (word_number hreads hv).1
  | str s =>
      cases hv with
      | str hunits => exact .str hunits
  | arr items ih =>
      cases hv with
      | arr heach =>
          rw [stringifyDoc, stringifyDocs_eq_map]
          refine .arr ?_
          intro d hd
          obtain ⟨v, hmem, rfl⟩ := List.mem_map.1 hd
          exact ih v hmem (heach v hmem)
  | obj entries ih =>
      cases hv with
      | obj hunits hkeys heach =>
          rw [stringifyDoc, stringifyDocEntries_eq_map]
          refine .obj ?_ ?_
          · intro e he
            obtain ⟨e', hmem, rfl⟩ := List.mem_map.1 he
            exact hunits e' hmem
          · intro e he
            obtain ⟨e', hmem, rfl⟩ := List.mem_map.1 he
            exact ih e' hmem (heach e' hmem)

/-- **A held value is read back** as it is carried, without a key twice. -/
theorem loadUnique_stringifyDoc (hreads : NumberReads codec numberText) {v : Value}
    (hv : v.Held) :
    loadUnique codec.word ((stringifyDoc numberText v).mapStr points) =
      some (carried (numberJson codec numberText) v) := by
  induction v using Value.induct with
  | null => rfl
  | bool b => cases b <;> rfl
  | num x => exact (word_number hreads hv).2
  | str s => rfl
  | arr items ih =>
      cases hv with
      | arr heach =>
          have hitems : loadUniqueItems codec.word
              (Doc.mapItems points (stringifyDocs numberText items)) =
              some (carriedItems (numberJson codec numberText) items) := by
            induction items with
            | nil => rfl
            | cons v items ih' =>
                obtain ⟨hv, hitems⟩ := List.forall_mem_cons.1 heach
                obtain ⟨ihv, ihitems⟩ := List.forall_mem_cons.1 ih
                rw [stringifyDocs, Doc.mapItems, loadUniqueItems, ihv hv, Option.bind_some,
                  ih' ihitems hitems]
                rfl
          rw [stringifyDoc, Doc.mapStr, loadUnique, hitems]
          rfl
  | obj entries ih =>
      cases hv with
      | obj hunits hkeys heach =>
          have hentries : loadUniqueEntries codec.word
              (Doc.mapEntries points (stringifyDocEntries numberText entries)) =
              some (carriedEntries (numberJson codec numberText) entries) := by
            clear hkeys hunits
            induction entries with
            | nil => rfl
            | cons e entries ih' =>
                obtain ⟨key, v⟩ := e
                obtain ⟨hv, hentries⟩ := List.forall_mem_cons.1 heach
                obtain ⟨ihv, ihentries⟩ := List.forall_mem_cons.1 ih
                rw [stringifyDocEntries, Doc.mapEntries, loadUniqueEntries, ihv hv,
                  Option.bind_some, ih' ihentries hentries]
                rfl
          rw [stringifyDoc, Doc.mapStr, loadUnique, hentries, Option.bind_some,
            rejectDuplicateKeys_eq, if_pos (nodup_carriedEntries hunits hkeys)]
          rfl

/-- `json.loads` reads what `JSON.stringify` has written, duplicate keys
refused. -/
theorem loadsUnique_stringifyValue (hreads : NumberReads codec numberText) {v : Value}
    (hv : v.Held) :
    codec.loadsUnique (points (stringifyValue numberText v)) =
      some (carried (numberJson codec numberText) v) := by
  rw [Codec.loadsUnique, stringifyValue, (units_stringifyDoc hreads hv).read_points,
    Option.bind_some, loadUnique_stringifyDoc hreads hv]

/-! ## Without a hook -/

section loaded

variable (number : PyStr → Double) (numberText : PyFloat → JsStr)

mutual

/-- A value as `json.loads` has it after `JSON.stringify`. -/
def loadedValue : Value → Loaded
  | .null => .none
  | .bool b => .bool b
  | .num x => (loadWord number (stringifyNumber numberText x)).getD .none
  | .str s => .str (points s)
  | .arr items => .list (loadedValues items)
  | .obj entries => .dict (loadedValueEntries entries)

def loadedValues : List Value → List Loaded
  | [] => []
  | v :: items => loadedValue v :: loadedValues items

def loadedValueEntries : List (JsStr × Value) → List (PyStr × Loaded)
  | [] => []
  | (key, v) :: entries => (points key, loadedValue v) :: loadedValueEntries entries

end

end loaded

/-- The entries of an object are loaded one by one. -/
theorem loadedValueEntries_eq_map {number : PyStr → Double} (entries : List (JsStr × Value)) :
    loadedValueEntries number numberText entries =
      entries.map fun e => (points e.1, loadedValue number numberText e.2) := by
  induction entries with
  | nil => rfl
  | cons e entries ih =>
      obtain ⟨key, v⟩ := e
      rw [loadedValueEntries, ih, List.map_cons]

/-- Distinct keys stay distinct. -/
theorem nodup_loadedValueEntries {number : PyStr → Double} {entries : List (JsStr × Value)}
    (hunits : ∀ e ∈ entries, ∀ u ∈ e.1, u < 0x10000) (hkeys : (entries.map (·.1)).Nodup) :
    ((loadedValueEntries number numberText entries).map (·.1)).Nodup := by
  have hcarried := @nodup_carriedEntries (fun _ => .null) entries hunits hkeys
  rw [carriedEntries_eq_map, List.map_map] at hcarried
  rw [loadedValueEntries_eq_map, List.map_map]
  exact hcarried

/-- **A held value is loaded** value by value. -/
theorem load_stringifyDoc (hreads : NumberReads codec numberText) {v : Value} (hv : v.Held) :
    load codec.number ((stringifyDoc numberText v).mapStr points) =
      some (loadedValue codec.number numberText v) := by
  induction v using Value.induct with
  | null => rfl
  | bool b => cases b <;> rfl
  | num x =>
      obtain ⟨loaded, hloaded, -⟩ := Option.map_eq_some_iff.1 (word_number hreads hv).2
      rw [stringifyDoc, Doc.mapStr, load, loadedValue, hloaded, Option.getD_some]
  | str s => rfl
  | arr items ih =>
      cases hv with
      | arr heach =>
          have hitems : loadItems codec.number
              (Doc.mapItems points (stringifyDocs numberText items)) =
              some (loadedValues codec.number numberText items) := by
            induction items with
            | nil => rfl
            | cons v items ih' =>
                obtain ⟨hv, hitems⟩ := List.forall_mem_cons.1 heach
                obtain ⟨ihv, ihitems⟩ := List.forall_mem_cons.1 ih
                rw [stringifyDocs, Doc.mapItems, loadItems, ihv hv, Option.bind_some,
                  ih' ihitems hitems]
                rfl
          rw [stringifyDoc, Doc.mapStr, load, hitems]
          rfl
  | obj entries ih =>
      cases hv with
      | obj hunits hkeys heach =>
          have hentries : loadEntries codec.number
              (Doc.mapEntries points (stringifyDocEntries numberText entries)) =
              some (loadedValueEntries codec.number numberText entries) := by
            clear hkeys hunits
            induction entries with
            | nil => rfl
            | cons e entries ih' =>
                obtain ⟨key, v⟩ := e
                obtain ⟨hv, hentries⟩ := List.forall_mem_cons.1 heach
                obtain ⟨ihv, ihentries⟩ := List.forall_mem_cons.1 ih
                rw [stringifyDocEntries, Doc.mapEntries, loadEntries, ihv hv,
                  Option.bind_some, ih' ihentries hentries]
                rfl
          rw [stringifyDoc, Doc.mapStr, load, hentries, Option.map_some,
            dictOf_of_nodup (nodup_loadedValueEntries hunits hkeys)]
          rfl

/-- A whole number below `2 ^ 53` is read of that number. -/
theorem loadedValue_int (hreads : NumberReads codec numberText) {x : PyFloat}
    (hx : (Value.num x).Held) {i : Int} (hi : |i| < 2 ^ 53) :
    loadedValue codec.number numberText (.num x) = .int i ↔ numOf x = some (.int i) := by
  have hvalue : |(NotifySecurity.Num.int i).value| < 2 ^ 53 := by
    rw [NotifySecurity.Num.value]
    exact_mod_cast hi
  obtain ⟨loaded, hloaded, hjson⟩ := Option.map_eq_some_iff.1 (word_number hreads hx).2
  rw [← finiteNumber_numberJson hreads hx hvalue, finiteNumber_eq_int, ← hjson, loadedValue,
    hloaded, Option.getD_some]
  cases loaded <;> simp [loadedJson]

/-- `json.loads` reads what `JSON.stringify` has written. -/
theorem loads_stringifyValue (hreads : NumberReads codec numberText) {v : Value}
    (hv : v.Held) :
    loads codec.number (points (stringifyValue numberText v)) =
      some (loadedValue codec.number numberText v) := by
  rw [loads, stringifyValue, (units_stringifyDoc hreads hv).read_points, Option.bind_some,
    load_stringifyDoc hreads hv]

end Js
