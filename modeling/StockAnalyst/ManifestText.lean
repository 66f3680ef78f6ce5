import StockAnalyst.Deliverable
import StockAnalyst.Checks

/-!
# The canonical text of a manifest

`canonicalJson` writes the compact ASCII text of a document: its strings are
the ASCII literals, its keys stand in the order of their code points, and its
numbers and markers are words.
-/

namespace Deliverable

open Js JsonText Python Checks

/-! ## Code units and code points -/

/-- The code units of a list of code points. -/
def utf16 (ps : List Nat) : JsStr := ps.flatMap pointUnits

@[simp] theorem utf16_nil : utf16 [] = [] := rfl

@[simp] theorem utf16_cons (c : Nat) (ps : List Nat) :
    utf16 (c :: ps) = pointUnits c ++ utf16 ps := rfl

/-- The units of texts one after the other. -/
@[simp] theorem utf16_append (ps qs : List Nat) : utf16 (ps ++ qs) = utf16 ps ++ utf16 qs :=
  List.flatMap_append

/-- High surrogates are the first half of the range. -/
theorem isHigh_iff {c : Nat} : isHigh c = true ↔ 0xD800 ≤ c ∧ c < 0xDC00 := by
  simp [isHigh]

/-- Low surrogates are the second half. -/
theorem isLow_iff {c : Nat} : isLow c = true ↔ 0xDC00 ≤ c ∧ c < 0xE000 := by
  simp [isLow]

/-- The first unit of a code point is a low surrogate only where the code
point is one. -/
theorem utf16_head {c : Nat} {ps : List Nat} (hc : c < 0x110000) :
    ∃ u rest, utf16 (c :: ps) = u :: rest ∧ (isLow u = true → u = c) := by
  by_cases hbmp : c < 0x10000
  · exact ⟨c, utf16 ps, by simp [pointUnits, hbmp], fun _ => rfl⟩
  · refine ⟨highUnit c, lowUnit c :: utf16 ps, by simp [pointUnits, hbmp], ?_⟩
    intro hlow
    rw [isLow_iff] at hlow
    unfold highUnit at hlow
    omega

/-- Code points without a surrogate pair are read back from their units. -/
theorem points_utf16 {ps : List Nat} (hpair : NoPair ps) (hps : ∀ c ∈ ps, c < 0x110000) :
    points (utf16 ps) = ps := by
  induction ps with
  | nil => rfl
  | cons c ps ih =>
      obtain ⟨hc, hps⟩ := List.forall_mem_cons.1 hps
      have htail : NoPair ps := by
        cases ps with
        | nil => trivial
        | cons d ps => exact hpair.2
      have hrest := ih htail hps
      unfold points at hrest ⊢
      by_cases hbmp : c < 0x10000
      · have hunits : utf16 (c :: ps) = c :: utf16 ps := by simp [pointUnits, hbmp]
        rw [hunits]
        cases ps with
        | nil => rfl
        | cons d ps =>
            obtain ⟨u, rest, hu, hlow⟩ := @utf16_head _ ps (hps d List.mem_cons_self)
            have hno : ¬ (isHigh c && isLow u) := by
              intro hboth
              simp only [Bool.and_eq_true] at hboth
              have hd := hlow hboth.2
              subst hd
              exact hpair.1 (by simp [hboth])
            rw [hu] at hrest ⊢
            rw [rejoin, if_neg hno, hrest]
      · have hunits : utf16 (c :: ps) = highUnit c :: lowUnit c :: utf16 ps := by
          simp [pointUnits, hbmp]
        have hhigh : isHigh (highUnit c) = true := by
          rw [isHigh_iff]
          unfold highUnit
          omega
        have hlow : isLow (lowUnit c) = true := by
          rw [isLow_iff]
          unfold lowUnit
          omega
        have hcombine : combine (highUnit c) (lowUnit c) = c := by
          unfold combine highUnit lowUnit
          omega
        rw [hunits, rejoin, if_pos (by simp [hhigh, hlow]), hrest, hcombine]

/-- Code units are read back from their code points. -/
theorem utf16_points {s : JsStr} (hs : ∀ u ∈ s, u < 0x10000) : utf16 (points s) = s := by
  unfold points
  fun_induction rejoin s with
  | case1 => rfl
  | case2 c => simp [pointUnits, hs c List.mem_cons_self]
  | case3 hi lo rest hpair ih =>
      simp only [Bool.and_eq_true, isHigh_iff, isLow_iff] at hpair
      have hbig : ¬ combine hi lo < 0x10000 := Nat.not_lt.2 (combine_ge hi lo)
      have hhi : highUnit (combine hi lo) = hi := by
        unfold combine highUnit
        omega
      have hlo : lowUnit (combine hi lo) = lo := by
        unfold combine lowUnit
        omega
      have hrest := ih (fun u hu => hs u (by simp [hu]))
      rw [utf16_cons, pointUnits, if_neg hbig, hhi, hlo, hrest]
      rfl
  | case4 hi lo rest hpair ih =>
      have hrest := ih (fun u hu => hs u (List.mem_cons_of_mem _ hu))
      rw [utf16_cons, pointUnits, if_pos (hs hi List.mem_cons_self), hrest]
      rfl

/-- The code points of a string are code points. -/
theorem points_lt {s : JsStr} (hs : ∀ u ∈ s, u < 0x10000) : ∀ c ∈ points s, c < 0x110000 := by
  unfold points
  fun_induction rejoin s with
  | case1 => simp
  | case2 c =>
      intro d hd
      have hc := hs d hd
      omega
  | case3 hi lo rest hpair ih =>
      simp only [Bool.and_eq_true, isHigh_iff, isLow_iff] at hpair
      refine List.forall_mem_cons.2 ⟨?_, ih (fun u hu => hs u (by simp [hu]))⟩
      unfold combine
      omega
  | case4 hi lo rest hpair ih =>
      have hhi := hs hi List.mem_cons_self
      refine List.forall_mem_cons.2 ⟨by omega, ih (fun u hu => hs u (List.mem_cons_of_mem _ hu))⟩

/-! ## Strings -/

/-- A code point that is no surrogate. -/
def Scalar (c : Nat) : Prop := isHigh c = false ∧ isLow c = false ∧ c < 0x110000

/-- A text of Unicode characters has no pair. -/
theorem noPair_of_scalar {ps : List Nat} (h : ∀ c ∈ ps, Scalar c) : NoPair ps := by
  induction ps with
  | nil => trivial
  | cons c ps ih =>
      obtain ⟨hc, hps⟩ := List.forall_mem_cons.1 h
      exact NoPair.cons hc.1 (ih hps)

/-- ASCII text is its own code units. -/
theorem utf16_ascii {ps : List Nat} (h : ∀ c ∈ ps, c < 0x80) : utf16 ps = ps := by
  induction ps with
  | nil => rfl
  | cons c ps ih =>
      obtain ⟨hc, hps⟩ := List.forall_mem_cons.1 h
      rw [utf16_cons, ih hps, pointUnits, if_pos (by omega)]
      rfl

/-- What `JSON.stringify` writes for a code point is a list of code points
that are no surrogates, and their replacements are its ASCII text. -/
theorem stringifyPoint_points {c : Nat} (hc : c < 0x110000) :
    ∃ ps, stringifyPoint c = utf16 ps ∧ (∀ d ∈ ps, Scalar d) ∧
      ps.flatMap escapeCharacter = escapeChar c := by
  have hascii : ∀ text : List Nat, (∀ d ∈ text, 0x20 ≤ d ∧ d ≤ 0x7E) →
      text = utf16 text ∧ (∀ d ∈ text, Scalar d) ∧ text.flatMap escapeCharacter = text := by
    intro text htext
    refine ⟨(utf16_ascii fun d hd => ?_).symm, ?_, ?_⟩
    · have := htext d hd
      omega
    · intro d hd
      have := htext d hd
      refine ⟨?_, ?_, by omega⟩
      · simp only [isHigh, Bool.and_eq_false_iff, decide_eq_false_iff_not]
        omega
      · simp only [isLow, Bool.and_eq_false_iff, decide_eq_false_iff_not]
        omega
    · induction text with
      | nil => rfl
      | cons d text ih =>
          obtain ⟨hd, htext⟩ := List.forall_mem_cons.1 htext
          rw [List.flatMap_cons, ih htext, escapeCharacter, if_pos hd]
          rfl
  have hshort : ∀ e : Nat, 0x20 ≤ e ∧ e ≤ 0x7E →
      ∃ ps, [0x5C, e] = utf16 ps ∧ (∀ d ∈ ps, Scalar d) ∧
        ps.flatMap escapeCharacter = [0x5C, e] := by
    intro e he
    exact ⟨_, hascii [0x5C, e] (by simpa using he)⟩
  by_cases h₁ : c = 0x22
  · subst h₁
    exact hshort 0x22 (by decide)
  by_cases h₂ : c = 0x5C
  · subst h₂
    exact hshort 0x5C (by decide)
  by_cases h₃ : c = 0x08
  · subst h₃
    exact hshort 98 (by decide)
  by_cases h₄ : c = 0x0C
  · subst h₄
    exact hshort 102 (by decide)
  by_cases h₅ : c = 0x0A
  · subst h₅
    exact hshort 110 (by decide)
  by_cases h₆ : c = 0x0D
  · subst h₆
    exact hshort 114 (by decide)
  by_cases h₇ : c = 0x09
  · subst h₇
    exact hshort 116 (by decide)
  by_cases hescape : (c < 0x20 || isHigh c || isLow c) = true
  · have htext : stringifyPoint c = unitEscape c := by
      unfold stringifyPoint
      simp only [h₁, h₂, h₃, h₄, h₅, h₆, h₇, hescape, if_true, if_false]
    have hchar : escapeChar c = unitEscape c := by
      simp only [Bool.or_eq_true, decide_eq_true_eq, isHigh_iff, isLow_iff] at hescape
      unfold escapeChar
      rw [if_neg h₁, if_neg h₂, if_neg h₅, if_neg h₆, if_neg h₇, if_neg h₄, if_neg h₃,
        if_neg (by omega), if_pos (by omega)]
    rw [htext, hchar]
    exact ⟨_, hascii _ (unitEscape_ascii c)⟩
  · have htext : stringifyPoint c = pointUnits c := by
      unfold stringifyPoint
      simp only [h₁, h₂, h₃, h₄, h₅, h₆, h₇, hescape, if_false]
      rfl
    simp only [Bool.or_eq_true, decide_eq_true_eq, not_or, Bool.not_eq_true] at hescape
    refine ⟨[c], by simp [htext], ?_, ?_⟩
    · intro d hd
      obtain rfl := List.mem_singleton.1 hd
      exact ⟨hescape.1.2, hescape.2, hc⟩
    · unfold escapeChar escapeCharacter
      rw [if_neg h₁, if_neg h₂, if_neg h₅, if_neg h₆, if_neg h₇, if_neg h₄, if_neg h₃]
      by_cases hprint : 0x20 ≤ c ∧ c ≤ 0x7E
      · simp [hprint]
      · by_cases hbmp : c < 0x10000
        · simp [hprint, hbmp, show c ≤ 0xFFFF by omega]
        · simp [hprint, hbmp, show ¬ c ≤ 0xFFFF by omega, highUnit, lowUnit]

/-- An astral code point is written as its two code units. -/
theorem escapeChar_units {c : Nat} (hc : c < 0x110000) :
    (pointUnits c).flatMap escapeChar = escapeChar c := by
  by_cases hbmp : c < 0x10000
  · simp [pointUnits, hbmp]
  · have hhigh : escapeChar (highUnit c) = unitEscape (highUnit c) := by
      have hrange : 0xD800 ≤ highUnit c ∧ highUnit c < 0xDC00 := by
        unfold highUnit
        omega
      unfold escapeChar
      rw [if_neg (by omega), if_neg (by omega), if_neg (by omega), if_neg (by omega),
        if_neg (by omega), if_neg (by omega), if_neg (by omega), if_neg (by omega),
        if_pos (by omega)]
    have hlow : escapeChar (lowUnit c) = unitEscape (lowUnit c) := by
      have hrange : 0xDC00 ≤ lowUnit c ∧ lowUnit c < 0xE000 := by
        unfold lowUnit
        omega
      unfold escapeChar
      rw [if_neg (by omega), if_neg (by omega), if_neg (by omega), if_neg (by omega),
        if_neg (by omega), if_neg (by omega), if_neg (by omega), if_neg (by omega),
        if_pos (by omega)]
    have hchar : escapeChar c = unitEscape (highUnit c) ++ unitEscape (lowUnit c) := by
      unfold escapeChar
      rw [if_neg (by omega), if_neg (by omega), if_neg (by omega), if_neg (by omega),
        if_neg (by omega), if_neg (by omega), if_neg (by omega), if_neg (by omega),
        if_neg hbmp]
    simp [pointUnits, hbmp, hhigh, hlow, hchar]

/-- The ASCII text of code points is that of their units. -/
theorem dumpsStr_utf16 {ps : List Nat} (h : ∀ c ∈ ps, c < 0x110000) :
    dumpsStr (utf16 ps) = dumpsStr ps := by
  have htext : (utf16 ps).flatMap escapeChar = ps.flatMap escapeChar := by
    induction ps with
    | nil => rfl
    | cons c ps ih =>
        obtain ⟨hc, hps⟩ := List.forall_mem_cons.1 h
        rw [utf16_cons, List.flatMap_append, escapeChar_units hc, ih hps, List.flatMap_cons]
  unfold dumpsStr
  rw [htext]

/-- `jsonString` writes the ASCII literal of the string. -/
theorem jsonString_eq {s : JsStr} (hs : ∀ u ∈ s, u < 0x10000) : jsonString s = dumpsStr s := by
  have hall : ∀ ps : List Nat, (∀ c ∈ ps, c < 0x110000) →
      ∃ qs, ps.flatMap stringifyPoint = utf16 qs ∧ (∀ d ∈ qs, Scalar d) ∧
        qs.flatMap escapeCharacter = ps.flatMap escapeChar := by
    intro ps hps
    induction ps with
    | nil => exact ⟨[], rfl, by simp, rfl⟩
    | cons c ps ih =>
        obtain ⟨hc, hps⟩ := List.forall_mem_cons.1 hps
        obtain ⟨qs, hunits, hscalar, htext⟩ := ih hps
        obtain ⟨rs, hunits', hscalar', htext'⟩ := stringifyPoint_points hc
        refine ⟨rs ++ qs, ?_, ?_, ?_⟩
        · rw [List.flatMap_cons, hunits, hunits', utf16_append]
        · intro d hd
          obtain hd | hd := List.mem_append.1 hd
          · exact hscalar' d hd
          · exact hscalar d hd
        · rw [List.flatMap_append, htext, htext', List.flatMap_cons]
  obtain ⟨qs, hunits, hscalar, htext⟩ := hall (points s) (points_lt hs)
  have hquote : Scalar 0x22 := by
    unfold Scalar
    decide
  have hline : stringify s = utf16 (0x22 :: qs ++ [0x22]) := by
    unfold stringify
    rw [hunits]
    simp [pointUnits]
  have hscalars : ∀ d ∈ 0x22 :: qs ++ [0x22], Scalar d := by
    intro d hd
    simp only [List.cons_append, List.mem_cons, List.mem_append, List.not_mem_nil,
      or_false] at hd
    obtain rfl | hd | rfl := hd
    · exact hquote
    · exact hscalar d hd
    · exact hquote
  have hpoints : points (stringify s) = 0x22 :: qs ++ [0x22] := by
    rw [hline]
    exact points_utf16 (noPair_of_scalar hscalars) fun d hd => (hscalars d hd).2.2
  have hescape : escapeCharacter 0x22 = [0x22] := by decide
  calc jsonString s
      = 0x22 :: qs.flatMap escapeCharacter ++ [0x22] := by
        unfold jsonString
        rw [hpoints]
        simp [hescape]
    _ = dumpsStr (points s) := by
        rw [htext]
        rfl
    _ = dumpsStr s := by
        rw [← dumpsStr_utf16 (points_lt hs), utf16_points hs]


/-! ## The document of a value -/

/-- A value is a leaf, or a container of smaller values. -/
theorem JsonValue.induct {κ : Type} {P : JsonValue κ → Prop} (null : P .null)
    (bool : ∀ b, P (.bool b)) (str : ∀ value, P (.str value))
    (number : ∀ value, P (.number value)) (marker : ∀ k, P (.marker k))
    (arr : ∀ items, (∀ v ∈ items, P v) → P (.arr items))
    (obj : ∀ entries, (∀ e ∈ entries, P e.2) → P (.obj entries)) (v : JsonValue κ) : P v :=
  @JsonValue.rec κ P (fun items => ∀ v ∈ items, P v) (fun entries => ∀ e ∈ entries, P e.2)
    (fun e => P e.2) null bool str number marker arr obj (fun _ h => nomatch h)
    (fun _ _ hhead htail => List.forall_mem_cons.2 ⟨hhead, htail⟩)
    (fun _ h => nomatch h)
    (fun _ _ hhead htail => List.forall_mem_cons.2 ⟨hhead, htail⟩)
    (fun _ _ h => h) v

/-- The text of a number whose digits are within the limit. -/
def numberWord (lib : Lib) (value : JsStr) : JsStr :=
  if isInteger value then (if value = js "-0" then js "0" else value)
  else pythonFloat (lib.number value)

mutual

/-- The document a value is written as: keys in the order of their code
points, numbers and markers as words. -/
def JsonValue.doc (lib : Lib) : JsonValue PythonNonFinite → Doc
  | .null => .word (js "null")
  | .bool b => .word (if b then js "true" else js "false")
  | .str value => .str value
  | .number value => .word (numberWord lib value)
  | .marker k => .word k.value
  | .arr items => .arr (JsonValue.docs lib items)
  | .obj entries => .obj (sortedKeys (JsonValue.entryDocs lib entries))

def JsonValue.docs (lib : Lib) : List (JsonValue PythonNonFinite) → List Doc
  | [] => []
  | v :: items => v.doc lib :: JsonValue.docs lib items

def JsonValue.entryDocs (lib : Lib) :
    List (JsStr × JsonValue PythonNonFinite) → List (JsStr × Doc)
  | [] => []
  | (key, v) :: entries => (key, v.doc lib) :: JsonValue.entryDocs lib entries

end

variable {lib : Lib}

/-- The documents of a list, item by item. -/
theorem JsonValue.docs_eq_map (items : List (JsonValue PythonNonFinite)) :
    JsonValue.docs lib items = items.map (JsonValue.doc lib) := by
  induction items with
  | nil => rfl
  | cons v items ih => simp [JsonValue.docs, ih]

/-- The documents of an object, value by value. -/
theorem JsonValue.entryDocs_eq_map (entries : List (JsStr × JsonValue PythonNonFinite)) :
    JsonValue.entryDocs lib entries = entries.map fun e => (e.1, e.2.doc lib) := by
  induction entries with
  | nil => rfl
  | cons e entries ih => simp [JsonValue.entryDocs, ih]

/-- A list holds code units where its items do. -/
theorem JsonValue.unitsList_iff {κ : Type} {items : List (JsonValue κ)} :
    JsonValue.unitsList items = true ↔ ∀ v ∈ items, v.units = true := by
  induction items with
  | nil => simp [JsonValue.unitsList]
  | cons v items ih => simp [JsonValue.unitsList, ih]

/-- An object holds code units where its keys and values do. -/
theorem JsonValue.unitsEntries_iff {κ : Type} {entries : List (JsStr × JsonValue κ)} :
    JsonValue.unitsEntries entries = true ↔
      ∀ e ∈ entries, (∀ u ∈ e.1, u < 0x10000) ∧ e.2.units = true := by
  induction entries with
  | nil => simp [JsonValue.unitsEntries]
  | cons e entries ih => simp [JsonValue.unitsEntries, ih]

/-! ### Sorting -/

section sorting

variable {α β : Type}

/-- The order of own properties keeps the entries. -/
theorem ownEntries_perm (entries : List (JsStr × α)) : (ownEntries entries).Perm entries := by
  unfold ownEntries
  refine ((List.perm_insertionSort _ _).append_right _).trans ?_
  have hnone : (fun e : JsStr × α => (arrayIndex e.1).isNone) =
      fun e => !(arrayIndex e.1).isSome := by
    funext e
    cases arrayIndex e.1 <;> rfl
  rw [hnone]
  exact List.filter_append_perm _ _

/-- Sorting keeps the entries. -/
theorem sortedKeys_perm (entries : List (JsStr × α)) : (sortedKeys entries).Perm entries :=
  (List.perm_insertionSort _ _).trans (ownEntries_perm entries)

/-- The order depends on the keys only. -/
theorem sortedKeys_map (f : α → β) (entries : List (JsStr × α)) :
    sortedKeys (entries.map fun e => (e.1, f e.2)) =
      (sortedKeys entries).map fun e => (e.1, f e.2) := by
  unfold sortedKeys ownEntries
  rw [List.map_insertionSort _ (fun a b : JsStr × β =>
    compareUnicodeCodePoints a.1 b.1 ≤ 0) _ _ (fun a _ b _ => Iff.rfl), List.map_append,
    List.map_insertionSort _ (fun a b : JsStr × β =>
      (arrayIndex a.1).getD 0 ≤ (arrayIndex b.1).getD 0) _ _ (fun a _ b _ => Iff.rfl),
    List.filter_map, List.filter_map]
  rfl

end sorting


/-! ### Words -/

/-- A nonempty run of word characters of ASCII. -/
def AsciiWord (text : List Nat) : Prop :=
  text ≠ [] ∧ ∀ c ∈ text, isWord c = true ∧ c < 0x80

/-- The characters of numbers and names. -/
def isNameChar (c : Nat) : Prop :=
  (48 ≤ c ∧ c ≤ 57) ∨ (65 ≤ c ∧ c ≤ 90) ∨ (97 ≤ c ∧ c ≤ 122) ∨ c = 43 ∨ c = 45 ∨ c = 46

/-- Characters of names are ASCII and of words. -/
theorem isWord_of_nameChar {c : Nat} (h : isNameChar c) : isWord c = true ∧ c < 0x80 := by
  unfold isNameChar at h
  refine ⟨?_, by omega⟩
  rw [isWord_iff]
  simp only [isSpace, isPunct, Bool.or_eq_false_iff, decide_eq_false_iff_not]
  omega

/-- Characters of names make a word. -/
theorem asciiWord_of_nameChars {text : List Nat} (hne : text ≠ [])
    (h : ∀ c ∈ text, isNameChar c) : AsciiWord text :=
  ⟨hne, fun c hc => isWord_of_nameChar (h c hc)⟩

/-- Digits are characters of names. -/
theorem nameChar_digit {c : Nat} (h : 48 ≤ c ∧ c ≤ 57) : isNameChar c := Or.inl h

/-- Decimal digits are characters of names. -/
theorem natDigits_nameChars (n : Nat) : ∀ c ∈ natDigits n, isNameChar c := by
  intro c hc
  obtain ⟨d, hd, rfl⟩ := List.mem_map.1 hc
  have hlt := Nat.digits_lt_base (by decide : 1 < 10) (List.mem_reverse.1 hd)
  exact nameChar_digit (by omega)

/-- So is a decimal number. -/
theorem decimal_nameChars (n : Nat) : ∀ c ∈ decimal n, isNameChar c := by
  unfold decimal
  split
  · intro c hc
    obtain rfl := List.mem_singleton.1 hc
    exact nameChar_digit (by decide)
  · exact natDigits_nameChars n

/-- So are zeros. -/
theorem zeros_nameChars (n : Nat) : ∀ c ∈ List.replicate n 48, isNameChar c := by
  intro c hc
  obtain rfl := List.eq_of_mem_replicate hc
  exact nameChar_digit (by decide)

/-- So is a single digit. -/
theorem digitChar_nameChar (d : Fin 10) : isNameChar (digitChar d) := by
  have hlt := d.isLt
  unfold digitChar
  exact nameChar_digit (by omega)

/-- A float is written as one word. -/
theorem pythonFloat_word (x : Double) : AsciiWord (pythonFloat x) := by
  have hname : ∀ text : List Nat, text ≠ [] → (∀ c ∈ text, isWord c = true ∧ c < 0x80) →
      AsciiWord text := fun text hne h => ⟨hne, h⟩
  cases x with
  | nan => exact hname _ (by decide) (by decide)
  | inf neg => cases neg <;> exact hname _ (by decide) (by decide)
  | zero neg => cases neg <;> exact hname _ (by decide) (by decide)
  | finite neg lead digits exponent =>
      have hsign : ∀ c ∈ (if neg then [45] else [] : JsStr), isNameChar c := by
        cases neg <;> simp [isNameChar]
      have hdigits : ∀ c ∈ digitChar lead :: digits.map digitChar, isNameChar c := by
        intro c hc
        obtain rfl | hc := List.mem_cons.1 hc
        · exact digitChar_nameChar lead
        · obtain ⟨d, -, rfl⟩ := List.mem_map.1 hc
          exact digitChar_nameChar d
      have htake : ∀ n, ∀ c ∈ (digitChar lead :: digits.map digitChar).take n, isNameChar c :=
        fun n c hc => hdigits c (List.mem_of_mem_take hc)
      have hdrop : ∀ n, ∀ c ∈ (digitChar lead :: digits.map digitChar).drop n, isNameChar c :=
        fun n c hc => hdigits c (List.mem_of_mem_drop hc)
      have happend : ∀ {s t : List Nat}, (∀ c ∈ s, isNameChar c) → (∀ c ∈ t, isNameChar c) →
          ∀ c ∈ s ++ t, isNameChar c := by
        intro s t hs ht c hc
        obtain hc | hc := List.mem_append.1 hc
        · exact hs c hc
        · exact ht c hc
      have hcons : ∀ {d : Nat} {t : List Nat}, isNameChar d → (∀ c ∈ t, isNameChar c) →
          ∀ c ∈ d :: t, isNameChar c :=
        fun hd ht => List.forall_mem_cons.2 ⟨hd, ht⟩
      have hpoint : isNameChar 46 := by simp [isNameChar]
      have hzero : ∀ c ∈ js "0.", isNameChar c := by
        have : js "0." = [48, 46] := by decide
        simp [this, isNameChar]
      have hend : ∀ c ∈ js ".0", isNameChar c := by
        have : js ".0" = [46, 48] := by decide
        simp [this, isNameChar]
      unfold pythonFloat
      dsimp only
      split
      · split
        · exact asciiWord_of_nameChars (by simp)
            (happend (happend (happend hsign hzero) (zeros_nameChars _)) hdigits)
        · split
          · exact asciiWord_of_nameChars (by simp)
              (happend (happend (happend hsign hdigits) (zeros_nameChars _)) hend)
          · exact asciiWord_of_nameChars (by simp)
              (happend (happend hsign (htake _)) (hcons hpoint (hdrop _)))
      · refine asciiWord_of_nameChars (by simp) ?_
        refine happend (happend (happend hsign (htake _)) ?_) (hcons ?_ (hcons ?_ ?_))
        · split
          · exact hcons hpoint (hdrop _)
          · simp
        · simp [isNameChar]
        · split <;> simp [isNameChar]
        · exact happend (zeros_nameChars _) (decimal_nameChars _)

/-- An unsigned integer is digits, one at least. -/
theorem isUnsignedInteger_digits {value : JsStr} (h : isUnsignedInteger value = true) :
    value ≠ [] ∧ ∀ c ∈ value, 48 ≤ c ∧ c ≤ 57 := by
  cases value with
  | nil => simp [isUnsignedInteger] at h
  | cons c rest =>
      simp only [isUnsignedInteger, Bool.or_eq_true, Bool.and_eq_true, decide_eq_true_eq,
        List.all_eq_true] at h
      refine ⟨by simp, ?_⟩
      obtain ⟨rfl, rfl⟩ | ⟨hc, hrest⟩ := h
      · simp
      · exact List.forall_mem_cons.2 ⟨⟨by omega, hc.2⟩, hrest⟩

/-- An integer is characters of names, one at least. -/
theorem isInteger_nameChars {value : JsStr} (h : isInteger value = true) :
    value ≠ [] ∧ ∀ c ∈ value, isNameChar c := by
  simp only [isInteger, Bool.or_eq_true, Bool.and_eq_true, decide_eq_true_eq] at h
  obtain h | ⟨hhead, h⟩ := h
  · obtain ⟨hne, hdigits⟩ := isUnsignedInteger_digits h
    exact ⟨hne, fun c hc => nameChar_digit (hdigits c hc)⟩
  · obtain ⟨rest, rfl⟩ := List.head?_eq_some_iff.1 hhead
    obtain ⟨-, hdigits⟩ := isUnsignedInteger_digits h
    refine ⟨by simp, List.forall_mem_cons.2 ⟨by simp [isNameChar], ?_⟩⟩
    exact fun c hc => nameChar_digit (hdigits c hc)

/-- A number is written as one word. -/
theorem numberWord_word (value : JsStr) : AsciiWord (numberWord lib value) := by
  unfold numberWord
  split
  · rename_i hint
    split
    · exact ⟨by decide, by decide⟩
    · obtain ⟨hne, hchars⟩ := isInteger_nameChars hint
      exact asciiWord_of_nameChars hne hchars
  · exact pythonFloat_word _

/-- A word is printed as it stands. -/
theorem AsciiWord.printable {text : List Nat} (h : AsciiWord text) :
    (Doc.word text).Printable :=
  .word h.1 (fun c hc => (h.2 c hc).1) fun c hc => (h.2 c hc).2

/-- The document of a value can be printed. -/
theorem JsonValue.doc_printable {v : JsonValue PythonNonFinite} (h : v.units = true) :
    (v.doc lib).Printable := by
  have hword : ∀ text : List Nat, text ≠ [] → (∀ c ∈ text, isWord c = true ∧ c < 0x80) →
      (Doc.word text).Printable := fun text hne h => AsciiWord.printable ⟨hne, h⟩
  induction v using JsonValue.induct with
  | null => exact hword _ (by decide) (by decide)
  | bool b => cases b <;> exact hword _ (by decide) (by decide)
  | str value =>
      simp only [JsonValue.units, List.all_eq_true, decide_eq_true_eq] at h
      exact .str h
  | number value => exact (numberWord_word value).printable
  | marker k => cases k <;> exact hword _ (by decide) (by decide)
  | arr items ih =>
      rw [JsonValue.units, JsonValue.unitsList_iff] at h
      rw [JsonValue.doc, JsonValue.docs_eq_map]
      refine .arr ?_
      intro d hd
      obtain ⟨v, hv, rfl⟩ := List.mem_map.1 hd
      exact ih v hv (h v hv)
  | obj entries ih =>
      rw [JsonValue.units, JsonValue.unitsEntries_iff] at h
      rw [JsonValue.doc, JsonValue.entryDocs_eq_map]
      have hmem : ∀ e ∈ sortedKeys (entries.map fun e => (e.1, e.2.doc lib)),
          ∃ e' ∈ entries, e = (e'.1, e'.2.doc lib) := by
        intro e he
        obtain ⟨e', he', rfl⟩ := List.mem_map.1 ((sortedKeys_perm _).mem_iff.1 he)
        exact ⟨e', he', rfl⟩
      refine .obj ?_ ?_
      · intro e he
        obtain ⟨e', he', rfl⟩ := hmem e he
        exact (h e' he').1
      · intro e he
        obtain ⟨e', he', rfl⟩ := hmem e he
        exact ih e' he' (h e' he').2

/-! ### The text of a value -/

/-- A number that is written is its word. -/
theorem canonicalNumber_ok {value text : JsStr} (h : canonicalNumber lib value = .ok text) :
    text = numberWord lib value := by
  unfold canonicalNumber at h
  unfold numberWord
  split at h
  · rename_i hint
    rw [if_pos hint]
    by_cases hlimit : maxIntegerDigits <
        (if value.head? = some 45 then value.length - 1 else value.length)
    · rw [if_pos hlimit] at h
      cases h
    · rw [if_neg hlimit] at h
      exact (Except.ok.inj h).symm
  · rename_i hfloat
    rw [if_neg hfloat]
    exact (Except.ok.inj h).symm

/-- `canonicalJson` writes the compact text of the document of the value. -/
theorem canonicalJson_text {v : JsonValue PythonNonFinite} (hunits : v.units = true)
    {text : JsStr} (h : canonicalJson lib v = .ok text) : text = (v.doc lib).text := by
  induction v using JsonValue.induct generalizing text with
  | null => exact (Except.ok.inj h).symm
  | bool b => exact (Except.ok.inj h).symm
  | str value =>
      simp only [JsonValue.units, List.all_eq_true, decide_eq_true_eq] at hunits
      rw [← Except.ok.inj h]
      exact jsonString_eq hunits
  | number value => exact canonicalNumber_ok h
  | marker k => exact (Except.ok.inj h).symm
  | arr items ih =>
      rw [JsonValue.units, JsonValue.unitsList_iff] at hunits
      obtain ⟨texts, htexts, rfl⟩ := map_eq_ok h
      have hall : texts = Doc.texts (JsonValue.docs lib items) := by
        clear h
        induction items generalizing texts with
        | nil => exact (Except.ok.inj htexts).symm
        | cons v items ihl =>
            obtain ⟨text, htext, hrest⟩ := bind_eq_ok htexts
            obtain ⟨texts', htexts', rfl⟩ := map_eq_ok hrest
            have hhead := ih v List.mem_cons_self (hunits v List.mem_cons_self) htext
            have htail := ihl (fun v' hv' => ih v' (List.mem_cons_of_mem _ hv'))
              (fun v' hv' => hunits v' (List.mem_cons_of_mem _ hv')) texts' htexts'
            rw [hhead, htail]
            rfl
      rw [hall]
      rfl
  | obj entries ih =>
      rw [JsonValue.units, JsonValue.unitsEntries_iff] at hunits
      obtain ⟨texts, htexts, rfl⟩ := map_eq_ok h
      have hall : texts = (JsonValue.entryDocs lib entries).map fun e => (e.1, e.2.text) := by
        clear h
        induction entries generalizing texts with
        | nil => exact (Except.ok.inj htexts).symm
        | cons e entries ihl =>
            obtain ⟨text, htext, hrest⟩ := bind_eq_ok htexts
            obtain ⟨texts', htexts', rfl⟩ := map_eq_ok hrest
            have hhead := ih e List.mem_cons_self (hunits e List.mem_cons_self).2 htext
            have htail := ihl (fun e' he' => ih e' (List.mem_cons_of_mem _ he'))
              (fun e' he' => hunits e' (List.mem_cons_of_mem _ he')) texts' htexts'
            rw [hhead, htail]
            rfl
      have hkeys : ∀ e ∈ sortedKeys (JsonValue.entryDocs lib entries),
          jsonString e.1 = dumpsStr e.1 := by
        intro e he
        have hmem := (sortedKeys_perm _).mem_iff.1 he
        rw [JsonValue.entryDocs_eq_map] at hmem
        obtain ⟨e', he', rfl⟩ := List.mem_map.1 hmem
        exact jsonString_eq (hunits e' he').1
      have hlines : ((sortedKeys texts).map fun e => jsonString e.1 ++ 0x3A :: e.2) =
          Doc.entryTexts (sortedKeys (JsonValue.entryDocs lib entries)) := by
        rw [hall, sortedKeys_map, List.map_map, Doc.entryTexts_eq_map]
        refine List.map_congr_left ?_
        intro e he
        simp [hkeys e he]
      rw [hlines]
      rfl

end Deliverable
