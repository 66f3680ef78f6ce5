import Mathlib.Data.List.TakeWhile
import Mathlib.Data.Nat.Digits.Lemmas
import StockAnalyst.JsJson
import StockAnalyst.PyAscii

/-!
# What `json.dumps` prints

The agent writes a value in two ways: with the default separators and no
escapes in the body of an answer, and compactly in ASCII in a header.  Both are
documents, with code points or code units for their characters.
-/

namespace JsonText

open Python Deliverable

/-! ## Texts as code units -/

/-- The code units of a printed document are printed with the code units of
the literals. -/
def Style.utf16 (st : Style) : Style := { st with lit := fun s => Deliverable.utf16 (st.lit s) }

/-- Characters of the basic plane are their own code units. -/
theorem utf16_units {s : List Nat} (h : ∀ c ∈ s, c < 0x10000) : utf16 s = s := by
  induction s with
  | nil => rfl
  | cons c s ih =>
      obtain ⟨hc, hs⟩ := List.forall_mem_cons.1 h
      rw [utf16_cons, pointUnits, if_pos hc, ih hs]
      rfl

/-- Joined texts in code units. -/
theorem utf16_join (sep : List Nat) (pieces : List (List Nat)) :
    utf16 (PyStr.join sep pieces) = PyStr.join (utf16 sep) (pieces.map utf16) := by
  induction pieces with
  | nil => rfl
  | cons p pieces ih =>
      cases pieces with
      | nil => rfl
      | cons q pieces =>
          rw [PyStr.join, utf16_append, utf16_append, ih]
          rfl

/-- White space is its own code units. -/
theorem utf16_spaces {cs : List Nat} (h : ∀ c ∈ cs, isSpace c = true) : utf16 cs = cs := by
  refine utf16_units fun c hc => ?_
  have := (isSpace_lt (h c hc)).1
  omega

/-- So is the comma of a style. -/
theorem Style.utf16_comma (st : Style) : Deliverable.utf16 (0x2C :: st.comma) = 0x2C :: st.comma := by
  rw [utf16_cons, utf16_spaces st.comma_space]
  rfl

/-- Only the strings of a document look different in code units. -/
theorem Doc.utf16_print (st : Style) {S : List Nat → Prop} {d : Doc} (h : d.All AsciiWord S) :
    utf16 (d.print st) = d.print st.utf16 := by
  induction d using Doc.induct with
  | word text =>
      cases h with
      | word word => exact utf16_ascii fun c hc => (word.2 c hc).2
  | str value => rfl
  | arr items ih =>
      cases h with
      | arr each =>
          have hitems : (Doc.printItems st items).map utf16 = Doc.printItems st.utf16 items := by
            induction items with
            | nil => rfl
            | cons d items ih' =>
                obtain ⟨hd, hitems⟩ := List.forall_mem_cons.1 ih
                obtain ⟨hplain, heach⟩ := List.forall_mem_cons.1 each
                rw [Doc.printItems, Doc.printItems, List.map_cons, hd hplain, ih' hitems heach]
          rw [Doc.print, Doc.print, List.cons_append, utf16_cons, utf16_append, utf16_join, hitems,
            st.utf16_comma]
          rfl
  | obj entries ih =>
      cases h with
      | obj keys each =>
          have hentries : (Doc.printEntries st entries).map utf16 =
              Doc.printEntries st.utf16 entries := by
            induction entries with
            | nil => rfl
            | cons e entries ih' =>
                obtain ⟨he, hentries⟩ := List.forall_mem_cons.1 ih
                obtain ⟨hplain, heach⟩ := List.forall_mem_cons.1 each
                obtain ⟨-, hkeys⟩ := List.forall_mem_cons.1 keys
                rw [Doc.printEntries, Doc.printEntries, List.map_cons, utf16_append, utf16_append,
                  utf16_cons, utf16_spaces st.colon_space, he hplain, ih' hentries hkeys heach]
                rfl
          rw [Doc.print, Doc.print, List.cons_append, utf16_cons, utf16_append, utf16_join,
            hentries, st.utf16_comma]
          rfl

/-! ## Literals -/

/-- One character of `json.dumps(s, ensure_ascii=False)`. -/
def rawChar (c : Nat) : List Nat :=
  if c = 0x22 then [92, 0x22]
  else if c = 0x5C then [92, 0x5C]
  else if c = 0x0A then [92, 110]
  else if c = 0x0D then [92, 114]
  else if c = 0x09 then [92, 116]
  else if c = 0x0C then [92, 102]
  else if c = 0x08 then [92, 98]
  else if c < 0x20 then unitEscape c
  else [c]

/-- `json.dumps(s, ensure_ascii=False)` of a string. -/
def rawStr (s : PyStr) : List Nat := 0x22 :: s.flatMap rawChar ++ [0x22]

end JsonText

namespace Python

open JsonText Deliverable

open Js (JsStr)

/-! ## Documents of values -/

/-- A value is a scalar or a container of smaller values. -/
theorem Json.induct {P : Json → Prop} (null : P .null) (bool : ∀ b, P (.bool b))
    (int : ∀ i, P (.int i)) (float : ∀ x, P (.float x)) (str : ∀ s, P (.str s))
    (arr : ∀ xs, (∀ x ∈ xs, P x) → P (.arr xs))
    (obj : ∀ kvs, (∀ e ∈ kvs, P e.2) → P (.obj kvs)) (v : Json) : P v :=
  @Json.rec P (fun xs => ∀ x ∈ xs, P x) (fun kvs => ∀ e ∈ kvs, P e.2) (fun e => P e.2)
    null bool int float str arr obj (fun _ h => nomatch h)
    (fun _ _ hhead htail => List.forall_mem_cons.2 ⟨hhead, htail⟩)
    (fun _ h => nomatch h)
    (fun _ _ hhead htail => List.forall_mem_cons.2 ⟨hhead, htail⟩)
    (fun _ _ h => h) v

/-- The word of a float; nothing where `json.dumps` raises. -/
def PyFloat.word (lib : PyLib) (allowNan : Bool) : PyFloat → Option PyStr
  | .finite neg abs => some (lib.floatRepr neg abs)
  | .inf neg =>
      if allowNan then some (if neg then py "-Infinity" else py "Infinity") else none
  | .nan => if allowNan then some (py "NaN") else none

mutual

/-- The document `json.dumps(value, allow_nan=...)` prints; nothing where it
raises. -/
def Json.doc (lib : PyLib) (allowNan : Bool) : Json → Option Doc
  | .null => some (.word (py "null"))
  | .bool b => some (.word (if b then py "true" else py "false"))
  | .int i => (dumpsInt i).map .word
  | .float x => (x.word lib allowNan).map .word
  | .str s => some (.str s)
  | .arr xs => (Json.docs lib allowNan xs).map .arr
  | .obj kvs => (Json.docEntries lib allowNan kvs).map .obj

def Json.docs (lib : PyLib) (allowNan : Bool) : List Json → Option (List Doc)
  | [] => some []
  | x :: xs => (Json.doc lib allowNan x).bind fun d =>
      (Json.docs lib allowNan xs).map (d :: ·)

def Json.docEntries (lib : PyLib) (allowNan : Bool) :
    List (PyStr × Json) → Option (List (PyStr × Doc))
  | [] => some []
  | (k, x) :: kvs => (Json.doc lib allowNan x).bind fun d =>
      (Json.docEntries lib allowNan kvs).map ((k, d) :: ·)

end

/-- The printer of `json.dumps(value, ensure_ascii=False)`. -/
def rawStyle : Style := ⟨rawStr, [0x20], [0x20], blank_space, blank_space⟩

variable (lib : PyLib)

/-- `json.dumps(value, ensure_ascii=False).encode()`. -/
def rawBytes (v : Json) : Option (List Nat) :=
  (v.doc lib true).bind fun d => utf8Encode (d.print rawStyle)

/-! ## Numbers -/

/-- The characters of numbers. -/
def isNumberChar (c : Nat) : Prop :=
  (48 ≤ c ∧ c ≤ 57) ∨ c = 43 ∨ c = 45 ∨ c = 46 ∨ c = 69 ∨ c = 101

/-- Characters of numbers are characters of names. -/
theorem nameChar_of_numberChar {c : Nat} (h : isNumberChar c) : isNameChar c := by
  unfold isNumberChar at h
  unfold isNameChar
  omega

/-- Digits are characters of numbers. -/
theorem numberChar_of_isDigit {c : Nat} (h : isDigit c = true) : isNumberChar c := by
  simp only [isDigit, Bool.and_eq_true, decide_eq_true_eq] at h
  exact Or.inl h

/-- An exponent has characters of numbers. -/
theorem isExponent_chars {s : PyStr} (h : isExponent s = true) : ∀ c ∈ s, isNumberChar c := by
  cases s with
  | nil => simp
  | cons e rest =>
      simp only [isExponent, Bool.and_eq_true, Bool.or_eq_true, decide_eq_true_eq,
        List.all_eq_true] at h
      obtain ⟨⟨he, -⟩, hdigits⟩ := h
      refine List.forall_mem_cons.2 ⟨by unfold isNumberChar; omega, ?_⟩
      by_cases hsign : rest.head? = some 43 ∨ rest.head? = some 45
      · rw [if_pos hsign] at hdigits
        cases rest with
        | nil => simp
        | cons c rest =>
            refine List.forall_mem_cons.2 ⟨?_, fun d hd => numberChar_of_isDigit (hdigits d hd)⟩
            simp only [List.head?_cons, Option.some.injEq] at hsign
            unfold isNumberChar
            omega
      · rw [if_neg hsign] at hdigits
        exact fun d hd => numberChar_of_isDigit (hdigits d hd)

/-- A fraction has characters of numbers. -/
theorem isFraction_chars {s : PyStr} (h : isFraction s = true) : ∀ c ∈ s, isNumberChar c := by
  unfold isFraction at h
  by_cases hpoint : s.head? = some 46
  · obtain ⟨rest, rfl⟩ := List.head?_eq_some_iff.1 hpoint
    rw [if_pos hpoint, Bool.and_eq_true] at h
    refine List.forall_mem_cons.2 ⟨by simp [isNumberChar], ?_⟩
    intro c hc
    rw [List.tail_cons] at h
    rw [← List.takeWhile_append_dropWhile (p := isDigit) (l := rest)] at hc
    obtain hc | hc := List.mem_append.1 hc
    · exact numberChar_of_isDigit (List.mem_takeWhile_imp hc)
    · exact isExponent_chars h.2 c hc
  · rw [if_neg hpoint] at h
    exact isExponent_chars h

/-- A number has characters of numbers, one at least. -/
theorem isNumber_chars {w : PyStr} (h : isNumber w = true) :
    w ≠ [] ∧ ∀ c ∈ w, isNumberChar c := by
  unfold isNumber at h
  rw [Bool.and_eq_true] at h
  obtain ⟨hint, hfraction⟩ := h
  obtain ⟨hne, -⟩ := isUnsignedInteger_digits hint
  have hunsigned : ∀ s : PyStr, s.takeWhile isDigit ≠ [] →
      (∀ c ∈ s.dropWhile isDigit, isNumberChar c) → s ≠ [] ∧ ∀ c ∈ s, isNumberChar c := by
    intro s hs hright
    refine ⟨fun hnil => hs (by rw [hnil]; rfl), ?_⟩
    intro c hc
    rw [← List.takeWhile_append_dropWhile (p := isDigit) (l := s)] at hc
    obtain hc | hc := List.mem_append.1 hc
    · exact numberChar_of_isDigit (List.mem_takeWhile_imp hc)
    · exact hright c hc
  have hrest := hunsigned _ hne (isFraction_chars hfraction)
  by_cases hminus : w.head? = some 45
  · obtain ⟨rest, rfl⟩ := List.head?_eq_some_iff.1 hminus
    rw [if_pos hminus, List.tail_cons] at hrest
    exact ⟨by simp, List.forall_mem_cons.2 ⟨by simp [isNumberChar], hrest.2⟩⟩
  · rw [if_neg hminus] at hrest
    exact hrest

/-- A number is a word of ASCII. -/
theorem isNumber_word {w : PyStr} (h : isNumber w = true) : AsciiWord w := by
  obtain ⟨hne, hchars⟩ := isNumber_chars h
  exact asciiWord_of_nameChars hne fun c hc => nameChar_of_numberChar (hchars c hc)

/-- The digits of a positive number start with no zero. -/
theorem isUnsignedInteger_natDigits {n : Nat} (h : n ≠ 0) :
    isUnsignedInteger (natDigits n) = true := by
  have hne : Nat.digits 10 n ≠ [] := by rwa [ne_eq, Nat.digits_eq_nil_iff_eq_zero]
  have hlast := Nat.getLast_digit_ne_zero 10 h
  have hsplit := List.dropLast_append_getLast hne
  have hrange := natDigits_range n
  have htext : natDigits n = (48 + (Nat.digits 10 n).getLast hne) ::
      (Nat.digits 10 n).dropLast.reverse.map (48 + ·) := by
    unfold natDigits
    conv_lhs => rw [← hsplit]
    simp
  rw [htext] at hrange ⊢
  obtain ⟨hhead, htail⟩ := List.forall_mem_cons.1 hrange
  simp only [isUnsignedInteger, Bool.or_eq_true, Bool.and_eq_true, decide_eq_true_eq,
    List.all_eq_true]
  exact Or.inr ⟨⟨by omega, hhead.2⟩, htail⟩

/-- Decimal digits are digits throughout. -/
theorem takeWhile_natDigits (n : Nat) : (natDigits n).takeWhile isDigit = natDigits n ∧
    (natDigits n).dropWhile isDigit = [] := by
  have hall : ∀ c ∈ natDigits n, isDigit c = true := by
    intro c hc
    have := natDigits_range n c hc
    simp [isDigit, this]
  exact ⟨List.takeWhile_eq_self_iff.2 hall, List.dropWhile_eq_nil_iff.2 hall⟩

/-- `str` of an integer is a number. -/
theorem isNumber_intText (i : Int) : isNumber (intText i) = true := by
  have hdigits : ∀ n : Nat, n ≠ 0 → isUnsignedInteger ((natDigits n).takeWhile isDigit) = true ∧
      isFraction ((natDigits n).dropWhile isDigit) = true := by
    intro n hn
    rw [(takeWhile_natDigits n).1, (takeWhile_natDigits n).2]
    exact ⟨isUnsignedInteger_natDigits hn, rfl⟩
  unfold intText
  by_cases hneg : i < 0
  · rw [if_pos hneg]
    have := hdigits i.natAbs (by omega)
    simp [isNumber, this]
  · rw [if_neg hneg]
    by_cases hzero : i = 0
    · rw [if_pos hzero]
      rfl
    · rw [if_neg hzero]
      have hhead : (natDigits i.natAbs).head? ≠ some 45 := by
        intro hhead
        obtain ⟨rest, hrest⟩ := List.head?_eq_some_iff.1 hhead
        have := natDigits_range i.natAbs 45 (by rw [hrest]; exact List.mem_cons_self)
        omega
      have := hdigits i.natAbs (by omega)
      simp [isNumber, hhead, this]

/-- A natural number is written in digits. -/
theorem intText_digits (n : Nat) :
    isUnsignedInteger (intText n) = true ∧ ∀ c ∈ intText n, isDigit c = true := by
  constructor
  · rw [intText_natCast]
    by_cases hzero : n = 0
    · rw [if_pos hzero]
      rfl
    · rw [if_neg hzero]
      exact isUnsignedInteger_natDigits hzero
  · intro c hc
    simpa [isDigit] using intText_range n c hc

/-- `repr` of a finite float is a number of JSON. -/
def FloatNumbers (lib : PyLib) : Prop := ∀ neg abs, isNumber (lib.floatRepr neg abs) = true

/-! ## What `JSON.parse` makes of a value -/

mutual

/-- The value a JavaScript program reads; `number` reads a number. -/
def Json.js (number : JsStr → PyFloat) : Json → Js.Value
  | .null => .null
  | .bool b => .bool b
  | .int i => .num (number (intText i))
  | .float (.finite neg abs) => .num (number (lib.floatRepr neg abs))
  | .float x => .num x
  | .str s => .str (utf16 s)
  | .arr xs => .arr (Json.jsItems number xs)
  | .obj kvs => .obj (Js.recordOf (Json.jsEntries number kvs))

def Json.jsItems (number : JsStr → PyFloat) : List Json → List Js.Value
  | [] => []
  | x :: xs => Json.js number x :: Json.jsItems number xs

def Json.jsEntries (number : JsStr → PyFloat) : List (PyStr × Json) → List (JsStr × Js.Value)
  | [] => []
  | (k, x) :: kvs => (utf16 k, Json.js number x) :: Json.jsEntries number kvs

end

/-- Every string and every key satisfies `P`. -/
inductive Json.AllStr (P : PyStr → Prop) : Json → Prop
  | null : AllStr P .null
  | bool {b} : AllStr P (.bool b)
  | int {i} : AllStr P (.int i)
  | float {x} : AllStr P (.float x)
  | str {s} (str : P s) : AllStr P (.str s)
  | arr {xs} (each : ∀ x ∈ xs, AllStr P x) : AllStr P (.arr xs)
  | obj {kvs} (keys : ∀ e ∈ kvs, P e.1) (each : ∀ e ∈ kvs, AllStr P e.2) : AllStr P (.obj kvs)

/-- The characters of a Python string. -/
def CodePoints (s : PyStr) : Prop := ∀ c ∈ s, c < 0x110000

variable {lib}

/-- A list has documents when the first item and the rest do. -/
theorem Json.docs_cons {nan : Bool} {x : Json} {xs : List Json} {ds : List Doc}
    (h : Json.docs lib nan (x :: xs) = some ds) :
    ∃ d ds', x.doc lib nan = some d ∧ Json.docs lib nan xs = some ds' ∧ ds = d :: ds' := by
  obtain ⟨d, hd, hrest⟩ := Option.bind_eq_some_iff.1 h
  obtain ⟨ds', hds, rfl⟩ := Option.map_eq_some_iff.1 hrest
  exact ⟨d, ds', hd, hds, rfl⟩

/-- An object has documents when the first value and the rest do. -/
theorem Json.docEntries_cons {nan : Bool} {k : PyStr} {x : Json} {kvs : List (PyStr × Json)}
    {ds : List (PyStr × Doc)} (h : Json.docEntries lib nan ((k, x) :: kvs) = some ds) :
    ∃ d ds', x.doc lib nan = some d ∧ Json.docEntries lib nan kvs = some ds' ∧
      ds = (k, d) :: ds' := by
  obtain ⟨d, hd, hrest⟩ := Option.bind_eq_some_iff.1 h
  obtain ⟨ds', hds, rfl⟩ := Option.map_eq_some_iff.1 hrest
  exact ⟨d, ds', hd, hds, rfl⟩

instance (c : Nat) : Decidable (isNameChar c) :=
  inferInstanceAs (Decidable ((48 ≤ c ∧ c ≤ 57) ∨ (65 ≤ c ∧ c ≤ 90) ∨ (97 ≤ c ∧ c ≤ 122) ∨
    c = 43 ∨ c = 45 ∨ c = 46))

/-- Truth values are words. -/
theorem asciiWord_bool (b : Bool) : AsciiWord (if b then py "true" else py "false") := by
  cases b with
  | false => exact asciiWord_of_nameChars (by decide) (by decide)
  | true => exact asciiWord_of_nameChars (by decide) (by decide)

/-- The words of a printed value are ASCII words, its strings those of the
value. -/
theorem Json.doc_all (hfloat : FloatNumbers lib) {P : PyStr → Prop} {v : Json} {d : Doc}
    (h : v.doc lib false = some d) (hv : v.AllStr P) : d.All AsciiWord P := by
  induction hv generalizing d with
  | null =>
      obtain rfl := Option.some.inj h
      exact .word (asciiWord_of_nameChars (by decide) (by decide))
  | bool =>
      obtain rfl := Option.some.inj h
      exact .word (asciiWord_bool _)
  | int =>
      obtain ⟨w, hw, rfl⟩ := Option.map_eq_some_iff.1 h
      simp only [dumpsInt, Option.ite_none_right_eq_some, Option.some.injEq] at hw
      obtain ⟨-, rfl⟩ := hw
      exact .word (isNumber_word (isNumber_intText _))
  | @float x =>
      obtain ⟨w, hw, rfl⟩ := Option.map_eq_some_iff.1 h
      cases x with
      | finite neg abs =>
          obtain rfl := Option.some.inj hw
          exact .word (isNumber_word (hfloat neg abs))
      | inf neg => cases hw
      | nan => cases hw
  | str str =>
      obtain rfl := Option.some.inj h
      exact .str str
  | @arr xs each ih =>
      obtain ⟨ds, hds, rfl⟩ := Option.map_eq_some_iff.1 h
      refine .arr ?_
      clear h each
      induction xs generalizing ds with
      | nil =>
          obtain rfl := Option.some.inj hds
          simp
      | cons x xs ih' =>
          obtain ⟨hx, hxs⟩ := List.forall_mem_cons.1 ih
          obtain ⟨d, ds', hd, hds', rfl⟩ := Json.docs_cons hds
          exact List.forall_mem_cons.2 ⟨hx hd, ih' hxs ds' hds'⟩
  | @obj kvs keys each ih =>
      obtain ⟨ds, hds, rfl⟩ := Option.map_eq_some_iff.1 h
      have hentries : ∀ e ∈ ds, P e.1 ∧ e.2.All AsciiWord P := by
        clear h each
        induction kvs generalizing ds with
        | nil =>
            obtain rfl := Option.some.inj hds
            simp
        | cons e kvs ih' =>
            obtain ⟨hx, hxs⟩ := List.forall_mem_cons.1 ih
            obtain ⟨hkey, hkeys⟩ := List.forall_mem_cons.1 keys
            obtain ⟨d, ds', hd, hds', rfl⟩ := Json.docEntries_cons hds
            exact List.forall_mem_cons.2 ⟨⟨hkey, hx hd⟩, ih' hkeys hxs ds' hds'⟩
      exact .obj (fun e he => (hentries e he).1) (fun e he => (hentries e he).2)

end Python
