import StockAnalyst.ManifestLexemes

/-!
# What the buyer's scans do to a text

The three scans of `deliverable.ts` walk over the characters of a text.  On a
text made of lexemes they walk over the lexemes: the string tokens are the
string lexemes, and the protected texts are the texts of the lexemes with
sentinels in the place of some of them.
-/

namespace Deliverable

open Js JsonText Python

/-! ## String tokens -/

/-- Whether a colon comes next, after white space. -/
def nextIsColon : List Lexeme → Bool
  | .space _ :: ls => nextIsColon ls
  | .punct c :: _ => c = 0x3A
  | _ => false

/-- The string tokens of lexemes that start at an index. -/
def stringTokens : Nat → List Lexeme → List JsonStringToken
  | _, [] => []
  | index, .str literal value :: ls =>
      ⟨index, index + literal.length, value, nextIsColon ls⟩ ::
        stringTokens (index + literal.length) ls
  | index, .space _ :: ls => stringTokens (index + 1) ls
  | index, .punct _ :: ls => stringTokens (index + 1) ls
  | index, .word text :: ls => stringTokens (index + text.length) ls

/-- A word made of name characters. -/
def Lexeme.Named : Lexeme → Prop
  | .word text => ∀ c ∈ text, isNameChar c
  | _ => True

/-- Lexemes a scan understands: those of their text, with names for words. -/
structure Scannable (ls : List Lexeme) : Prop where
  lexed : Lexed scanUnits ls
  named : ∀ l ∈ ls, Lexeme.Named l

/-- What follows the first lexeme can be scanned. -/
theorem Scannable.tail {l : Lexeme} {ls : List Lexeme} (h : Scannable (l :: ls)) :
    Scannable ls :=
  ⟨h.lexed.tail, fun l' hl' => h.named l' (List.mem_cons_of_mem _ hl')⟩

/-- White space of JSON is white space of `\s`. -/
theorem isRegexSpace_space {c : Nat} (h : isSpace c = true) : isRegexSpace c = true := by
  simp only [isSpace, Bool.or_eq_true, decide_eq_true_eq] at h
  simp only [isRegexSpace, Bool.or_eq_true, Bool.and_eq_true, decide_eq_true_eq]
  omega

/-- Visible ASCII is no white space of `\s`. -/
theorem isRegexSpace_of_visible {c : Nat} (h : 0x21 ≤ c ∧ c ≤ 0x7F) : isRegexSpace c = false := by
  simp only [isRegexSpace, Bool.or_eq_false_iff, Bool.and_eq_false_iff, decide_eq_false_iff_not]
  omega

/-- Punctuation is visible. -/
theorem isPunct_visible {c : Nat} (h : isPunct c = true) : 0x21 ≤ c ∧ c ≤ 0x7F := by
  simp only [isPunct, Bool.or_eq_true, decide_eq_true_eq] at h
  omega

/-- Characters of names are visible, and neither a quote nor a colon. -/
theorem isNameChar_visible {c : Nat} (h : isNameChar c) :
    0x21 ≤ c ∧ c ≤ 0x7F ∧ c ≠ 0x22 ∧ c ≠ 0x3A := by
  unfold isNameChar at h
  omega

/-- `/\s/` skips to the next lexeme that is not white space. -/
theorem next_eq {ls : List Lexeme} (h : Scannable ls) :
    (decide (((textOf ls).dropWhile isRegexSpace).head? = some 0x3A)) = nextIsColon ls := by
  induction ls with
  | nil => rfl
  | cons l ls ih =>
      have hok := h.lexed.each l List.mem_cons_self
      have hnamed := h.named l List.mem_cons_self
      cases l with
      | space c =>
          have hspace := isRegexSpace_space (show isSpace c = true from hok)
          simpa [Lexeme.text, hspace, nextIsColon] using ih h.tail
      | punct c =>
          have hvisible := isRegexSpace_of_visible (isPunct_visible (show isPunct c = true from hok))
          simp [Lexeme.text, hvisible, nextIsColon]
      | word text =>
          obtain ⟨c, rest, rfl⟩ := List.exists_cons_of_ne_nil hok.1
          obtain ⟨hlow, hhigh, -, hcolon⟩ := isNameChar_visible (hnamed c List.mem_cons_self)
          simp [Lexeme.text, isRegexSpace_of_visible ⟨hlow, hhigh⟩, nextIsColon, hcolon]
      | str literal value =>
          obtain ⟨body, rfl, -⟩ := hok
          have hvisible : isRegexSpace 0x22 = false := by decide
          simp [Lexeme.text, hvisible, nextIsColon]

/-- The scan goes on over a plain character. -/
theorem closingQuote_skip {c : Nat} (hquote : c ≠ 0x22) (hslash : c ≠ 0x5C) (rest : JsStr) :
    closingQuote (c :: rest) = (closingQuote rest).map (· + 1) := by
  rw [closingQuote.eq_def]
  simp [hquote, hslash]

/-- The scan goes on over an escape. -/
theorem closingQuote_escape (e : Nat) (rest : JsStr) :
    closingQuote (0x5C :: e :: rest) = (closingQuote rest).map (· + 2) := by
  rw [closingQuote.eq_def]
  simp

/-- The closing quote is where the literal ends. -/
theorem closingQuote_eq {text value rest : JsStr} (h : scanUnits text = some (value, rest)) :
    ∃ n, closingQuote text = some n ∧ text.length = n + 1 + rest.length := by
  induction hlength : text.length using Nat.strong_induction_on generalizing text value with
  | _ m ih =>
      obtain ⟨hstep, -⟩ | ⟨u, after, value', hstep, hscan, -⟩ := scanUnits_step h
      · cases hstep
        refine ⟨0, ?_, ?_⟩
        · rw [closingQuote.eq_def]
          simp
        · rw [← hlength, List.length_cons]
          omega
      · have hshorter : after.length < text.length := by
          obtain ⟨head, hne, rfl, -⟩ := hstep.local
          have := List.length_pos_iff.2 hne
          rw [List.length_append]
          omega
        obtain ⟨n, hn, hafter⟩ := ih after.length (by omega) hscan rfl
        cases hstep with
        | unit hex =>
            obtain ⟨-, hdigits⟩ := hexValue4_some hex
            simp only [List.mem_cons, List.not_mem_nil, or_false, forall_eq_or_imp,
              forall_eq] at hdigits
            obtain ⟨ha, hb, hc, hd⟩ := hdigits
            refine ⟨n + 6, ?_, ?_⟩
            · rw [closingQuote_escape, closingQuote_skip ha.2.1 ha.2.2,
                closingQuote_skip hb.2.1 hb.2.2, closingQuote_skip hc.2.1 hc.2.2,
                closingQuote_skip hd.2.1 hd.2.2, hn]
              rfl
            · rw [← hlength]
              simp only [List.length_cons]
              omega
        | short he hu =>
            refine ⟨n + 2, ?_, ?_⟩
            · rw [closingQuote_escape, hn]
              rfl
            · rw [← hlength]
              simp only [List.length_cons]
              omega
        | plain hquote hslash hlow =>
            refine ⟨n + 1, ?_, ?_⟩
            · rw [closingQuote_skip hquote hslash, hn]
              rfl
            · rw [← hlength]
              simp only [List.length_cons]
              omega

/-- Outside strings the scan goes on to the next quote. -/
theorem scanStringsFrom_skip {text : JsStr} (h : ∀ c ∈ text, c ≠ 0x22) (fuel index : Nat)
    (rest : JsStr) :
    scanStringsFrom (fuel + text.length) index (text ++ rest) =
      scanStringsFrom fuel (index + text.length) rest := by
  induction text generalizing index with
  | nil => rfl
  | cons c text ih =>
      obtain ⟨hc, htext⟩ := List.forall_mem_cons.1 h
      have htail := ih htext (index + 1)
      rw [List.length_cons, List.cons_append, ← Nat.add_assoc, scanStringsFrom, if_pos hc, htail]
      congr 1
      omega

/-- **String tokens.**  The tokens are the string lexemes, in their places. -/
theorem scanStringsFrom_eq {ls : List Lexeme} (h : Scannable ls) (fuel index : Nat)
    (hfuel : (textOf ls).length ≤ fuel) :
    scanStringsFrom fuel index (textOf ls) = some (stringTokens index ls) := by
  induction ls generalizing fuel index with
  | nil => cases fuel <;> rfl
  | cons l ls ih =>
      have hok := h.lexed.each l List.mem_cons_self
      have hnamed := h.named l List.mem_cons_self
      rw [textOf_cons, List.length_append] at hfuel
      have hskip : (∀ c ∈ l.text, c ≠ 0x22) →
          scanStringsFrom fuel index (textOf (l :: ls)) =
            some (stringTokens (index + l.text.length) ls) := by
        intro hquote
        obtain ⟨fuel, rfl⟩ : ∃ n, fuel = n + l.text.length := ⟨fuel - l.text.length, by omega⟩
        rw [textOf_cons, scanStringsFrom_skip hquote]
        exact ih h.tail fuel _ (by omega)
      cases l with
      | space c =>
          have hc := (isSpace_lt (show isSpace c = true from hok)).2
          exact hskip (by simpa [Lexeme.text] using hc)
      | punct c =>
          have hc := (isPunct_ne (show isPunct c = true from hok)).2
          exact hskip (by simpa [Lexeme.text] using hc)
      | word text => exact hskip fun c hc => (isNameChar_visible (hnamed c hc)).2.2.1
      | str literal value =>
          obtain ⟨body, rfl, hbody⟩ := hok
          obtain ⟨n, hn, hlength⟩ := closingQuote_eq (hbody (textOf ls))
          rw [List.length_append] at hlength
          simp only [Lexeme.text, List.length_cons] at hfuel
          obtain ⟨fuel, rfl⟩ : ∃ m, fuel = m + 1 := ⟨fuel - 1, by omega⟩
          have hbodyLength : n + 1 = body.length := by omega
          have htake : (body ++ textOf ls).take (n + 1) = body := by
            rw [hbodyLength, List.take_left]
          have hdrop : (body ++ textOf ls).drop (n + 1) = textOf ls := by
            rw [hbodyLength, List.drop_left]
          have hliteral : parseLiteral (0x22 :: body) = some value := by
            have hscan := hbody []
            rw [List.append_nil] at hscan
            simp [parseLiteral, hscan]
          have hrest := ih h.tail fuel (index + n + 2) (by omega)
          have hstop : index + (0x22 :: body).length = index + n + 2 := by
            rw [List.length_cons]
            omega
          rw [textOf_cons, Lexeme.text, List.cons_append, scanStringsFrom, if_neg (by simp), hn]
          simp only [htake, hdrop, hliteral, Option.bind_some, hrest, Option.map_some, next_eq h.tail]
          rw [stringTokens, hstop]

/-- **The scanner finds the strings** where the lexemes have them. -/
theorem scanJsonStrings_eq {ls : List Lexeme} (h : Scannable ls) :
    scanJsonStrings (textOf ls) = some (stringTokens 0 ls) :=
  scanStringsFrom_eq h _ 0 (Nat.le_refl _)

/-- The strings are found in their order. -/
theorem stringTokens_start {ls : List Lexeme} {index : Nat} :
    ∀ token ∈ stringTokens index ls, index ≤ token.start := by
  induction ls generalizing index with
  | nil => simp [stringTokens]
  | cons l ls ih =>
      cases l with
      | str literal value =>
          refine List.forall_mem_cons.2 ⟨Nat.le_refl _, ?_⟩
          intro token htoken
          have := ih token htoken
          omega
      | space c =>
          intro token htoken
          have := ih token htoken
          omega
      | punct c =>
          intro token htoken
          have := ih token htoken
          omega
      | word text =>
          intro token htoken
          have := ih token htoken
          omega

/-- The values of the string tokens are the strings. -/
theorem stringTokens_values (index : Nat) (ls : List Lexeme) :
    (stringTokens index ls).map (·.value) =
      (tokens ls).filterMap fun tok => match tok with
        | .str value => some value
        | _ => none := by
  induction ls generalizing index with
  | nil => rfl
  | cons l ls ih => cases l <;> simp [stringTokens, ih]

/-! ## Keys -/

/-- The lexemes with a sentinel for the key `__proto__`. -/
def protectKeys (sentinel : JsStr) : List Lexeme → List Lexeme
  | [] => []
  | .str literal value :: ls =>
      (if nextIsColon ls ∧ value = protoKey then .str (stringify sentinel) sentinel
        else .str literal value) :: protectKeys sentinel ls
  | l :: ls => l :: protectKeys sentinel ls

/-- A slice grows with the piece that follows. -/
theorem slice_append (before piece rest : JsStr) {start : Nat} (h : start ≤ before.length) :
    slice (before ++ (piece ++ rest)) start (before ++ piece).length =
      slice (before ++ (piece ++ rest)) start before.length ++ piece := by
  have hlong : (before ++ (piece ++ rest)).take (before ++ piece).length = before ++ piece := by
    rw [← List.append_assoc, List.take_left]
  have hshort : (before ++ (piece ++ rest)).take before.length = before := List.take_left
  unfold slice
  rw [hlong, hshort, List.drop_append_of_le_length h]

/-- **Keys.**  The protected text is the text of the protected lexemes. -/
theorem protectKeysFrom_eq (sentinel : JsStr) (ls : List Lexeme) (before : JsStr)
    {previousEnd : Nat} (h : previousEnd ≤ before.length) :
    protectKeysFrom (before ++ textOf ls) sentinel previousEnd (stringTokens before.length ls) =
      slice (before ++ textOf ls) previousEnd before.length ++
        textOf (protectKeys sentinel ls) := by
  induction ls generalizing before previousEnd with
  | nil => simp [stringTokens, protectKeysFrom, protectKeys, slice]
  | cons l ls ih =>
      have hnext : ∀ tail, tail = textOf (protectKeys sentinel ls) →
          stringTokens before.length (l :: ls) = stringTokens (before ++ l.text).length ls →
          protectKeysFrom (before ++ textOf (l :: ls)) sentinel previousEnd
              (stringTokens before.length (l :: ls)) =
            slice (before ++ textOf (l :: ls)) previousEnd before.length ++
              (l.text ++ tail) := by
        intro tail htail htokens
        have hrest := @ih (before ++ l.text) previousEnd
          (by rw [List.length_append]; omega)
        rw [List.append_assoc] at hrest
        rw [htokens, textOf_cons, hrest, slice_append before l.text (textOf ls) h, htail,
          List.append_assoc]
      cases l with
      | space c =>
          exact hnext _ rfl (by simp [stringTokens, Lexeme.text])
      | punct c =>
          exact hnext _ rfl (by simp [stringTokens, Lexeme.text])
      | word text =>
          exact hnext _ rfl (by simp [stringTokens, Lexeme.text])
      | str literal value =>
          have hlength : before.length + literal.length = (before ++ literal).length := by
            rw [List.length_append]
          by_cases hproto : nextIsColon ls = true ∧ value = protoKey
          · have hrest := ih (before ++ literal) (Nat.le_refl _)
            rw [List.append_assoc] at hrest
            have hempty : slice (before ++ (literal ++ textOf ls)) (before ++ literal).length
                (before ++ literal).length = [] := by
              unfold slice
              rw [List.drop_take]
              simp
            rw [hempty, List.nil_append] at hrest
            have hcond : ((!nextIsColon ls) || decide (value ≠ protoKey)) = false := by
              simp [hproto.1, hproto.2]
            simp only [stringTokens, protectKeysFrom, hcond, Bool.false_eq_true, if_false,
              protectKeys, if_pos hproto, textOf_cons, Lexeme.text, hlength, hrest,
              List.append_assoc]
          · have hcond : ((!nextIsColon ls) || decide (value ≠ protoKey)) = true := by
              by_cases hcolon : nextIsColon ls = true
              · simp [hcolon, show value ≠ protoKey from fun heq => hproto ⟨hcolon, heq⟩]
              · simp [hcolon]
            have hrest := @ih (before ++ literal) previousEnd
              (by rw [List.length_append]; omega)
            rw [List.append_assoc] at hrest
            simp only [stringTokens, protectKeysFrom, hcond, if_true, protectKeys,
              if_neg hproto, textOf_cons, Lexeme.text, hlength, hrest,
              slice_append before literal (textOf ls) h, List.append_assoc]

/-- Protecting the keys of a text protects those of its lexemes. -/
theorem protectPrototypeKeys_eq (ls : List Lexeme) :
    protectPrototypeKeys (textOf ls) (stringTokens 0 ls) =
      let sentinel := freshSentinel ((stringTokens 0 ls).map (·.value)) (0 :: protoKey)
      (textOf (protectKeys sentinel ls), sentinel) := by
  have hkeys := protectKeysFrom_eq
    (freshSentinel ((stringTokens 0 ls).map (·.value)) (0 :: protoKey)) ls [] (Nat.le_refl 0)
  simp only [List.nil_append, List.length_nil, slice, List.take_zero, List.drop_nil] at hkeys
  simp only [protectPrototypeKeys, hkeys]

/-! ## Markers -/

/-- The marker a word is. -/
def markerOf (text : JsStr) : Option PythonNonFinite :=
  [.nan, .infinity, .negInfinity].find? fun k => text = k.value

/-- The sentinel of a marker. -/
def Sentinels.of (sentinels : Sentinels) (k : PythonNonFinite) : JsStr :=
  match sentinels.find? (fun e => e.2 = k) with
  | some (sentinel, _) => sentinel
  | none => []

/-- A lexeme with the sentinel for a marker. -/
def protectWord (sentinels : Sentinels) : Lexeme → Lexeme
  | .word text =>
      match markerOf text with
      | some k => .str (sentinels.textOf k) (sentinels.of k)
      | none => .word text
  | l => l

/-- A word that is a marker, or has neither an `N` nor an `I`. -/
def Lexeme.Settled : Lexeme → Prop
  | .word text => (markerOf text).isSome = true ∨ ∀ c ∈ text, c ≠ 78 ∧ c ≠ 73
  | _ => True

/-- Neighbours of a word among the lexemes. -/
def LexBeside : Lexeme → Lexeme → Prop
  | .word _, .space _ => True
  | .word _, .punct c => (Tok.punct c).closes = true
  | .word _, _ => False
  | .space _, _ => True
  | .punct c, .word _ => (Tok.punct c).opens = true
  | .str _ _, .word _ => False
  | _, _ => True

/-- No candidate starts here. -/
theorem matchNonFinite_none {c : Nat} {rest : JsStr} (hN : c ≠ 78) (hI : c ≠ 73)
    (hnext : c = 45 → rest.head? ≠ some 73) : matchNonFinite (c :: rest) = none := by
  have hnan : PythonNonFinite.nan.value = [78, 97, 78] := by decide
  have hinf : PythonNonFinite.infinity.value = [73, 110, 102, 105, 110, 105, 116, 121] := by
    decide
  have hneg : PythonNonFinite.negInfinity.value =
      [45, 73, 110, 102, 105, 110, 105, 116, 121] := by decide
  have hnegNo : startsWith (c :: rest) PythonNonFinite.negInfinity.value = false := by
    rw [hneg]
    cases rest with
    | nil => simp [startsWith, List.isPrefixOf]
    | cons d rest =>
        by_cases hminus : c = 45
        · have hd : d ≠ 73 := by simpa using hnext hminus
          simp [startsWith, List.isPrefixOf, Ne.symm hd]
        · simp [startsWith, List.isPrefixOf, Ne.symm hminus]
  have hnanNo : startsWith (c :: rest) PythonNonFinite.nan.value = false := by
    rw [hnan]
    simp [startsWith, List.isPrefixOf, Ne.symm hN]
  have hinfNo : startsWith (c :: rest) PythonNonFinite.infinity.value = false := by
    rw [hinf]
    simp [startsWith, List.isPrefixOf, Ne.symm hI]
  simp only [matchNonFinite, List.find?, hnegNo, hnanNo, hinfNo]

/-- A marker is matched where it stands. -/
theorem matchNonFinite_value (k : PythonNonFinite) (rest : JsStr) :
    matchNonFinite (k.value ++ rest) = some k := by
  have hnan : PythonNonFinite.nan.value = [78, 97, 78] := by decide
  have hinf : PythonNonFinite.infinity.value = [73, 110, 102, 105, 110, 105, 116, 121] := by
    decide
  have hneg : PythonNonFinite.negInfinity.value =
      [45, 73, 110, 102, 105, 110, 105, 116, 121] := by decide
  cases k <;> simp [matchNonFinite, hnan, hinf, hneg, startsWith, List.isPrefixOf]

/-- A marker is read of its own text. -/
theorem markerOf_some {text : JsStr} {k : PythonNonFinite} (h : markerOf text = some k) :
    text = k.value := by
  have hfound := List.find?_some h
  simpa using hfound

/-- Characters that start no candidate are copied. -/
theorem protectNonFiniteFrom_skip (sentinels : Sentinels) {text : JsStr}
    (h : ∀ c ∈ text, c ≠ 78 ∧ c ≠ 73) {rest : JsStr}
    (hrest : 45 ∈ text → rest.head? ≠ some 73) (fuel index : Nat) (before : Option Nat)
    {toks : List JsonStringToken} (htoks : ∀ t ∈ toks, index + text.length ≤ t.start) :
    protectNonFiniteFrom sentinels (fuel + text.length) index before (text ++ rest) toks =
      text ++ protectNonFiniteFrom sentinels fuel (index + text.length)
        (text.getLast?.or before) rest toks := by
  induction text generalizing index before with
  | nil => rfl
  | cons c text ih =>
      obtain ⟨⟨hN, hI⟩, htext⟩ := List.forall_mem_cons.1 h
      have hstart : (toks.head?.map (·.start)) ≠ some index := by
        cases toks with
        | nil => simp
        | cons t toks =>
            have hlate := htoks t List.mem_cons_self
            simp only [List.length_cons] at hlate
            simp only [List.head?_cons, Option.map_some, ne_eq, Option.some.injEq]
            omega
      have hnext : c = 45 → (text ++ rest).head? ≠ some 73 := by
        intro hminus
        cases text with
        | nil => exact hrest (by simp [hminus])
        | cons d text => simpa using (htext d List.mem_cons_self).2
      have htail := ih htext (fun hmem => hrest (List.mem_cons_of_mem _ hmem)) (index + 1)
        (some c) (fun t ht => by
          have hlate := htoks t ht
          simp only [List.length_cons] at hlate
          omega)
      have hlast : text.getLast?.or (some c) = (c :: text).getLast?.or before := by
        cases text with
        | nil => rfl
        | cons d text => simp [List.getLast?_cons]
      rw [List.length_cons, List.cons_append, ← Nat.add_assoc, protectNonFiniteFrom.eq_def]
      simp only [if_neg hstart, matchNonFinite_none hN hI hnext, List.cons_append]
      rw [htail, hlast, Nat.add_right_comm index 1, Nat.add_assoc index]

/-- A marker between its neighbours gives way to its sentinel. -/
theorem protectNonFiniteFrom_marker (sentinels : Sentinels) (k : PythonNonFinite) {rest : JsStr}
    {index : Nat} {before : Option Nat} {toks : List JsonStringToken}
    (hstart : ∀ t ∈ toks, index < t.start) (hbefore : validBefore before = true)
    (hafter : validAfter rest.head? = true) (fuel : Nat) :
    protectNonFiniteFrom sentinels (fuel + 1) index before (k.value ++ rest) toks =
      sentinels.textOf k ++ protectNonFiniteFrom sentinels fuel (index + k.value.length)
        k.value.getLast? rest toks := by
  have hno : (toks.head?.map (·.start)) ≠ some index := by
    intro hhead
    obtain ⟨t, ht, hindex⟩ := Option.map_eq_some_iff.1 hhead
    have hlate := hstart t (List.mem_of_mem_head? ht)
    omega
  have hmatch := matchNonFinite_value k rest
  have hdrop : (k.value ++ rest).drop k.value.length = rest := by simp
  obtain ⟨c, text, htext⟩ : ∃ c text, k.value ++ rest = c :: text := by
    cases k <;> exact ⟨_, _, rfl⟩
  rw [htext] at hmatch hdrop ⊢
  rw [protectNonFiniteFrom.eq_def]
  simp only [if_neg hno, hmatch, hdrop, hbefore, hafter, Bool.and_self, if_true]

/-- What follows a word ends it. -/
theorem validAfter_word {text : JsStr} {ls : List Lexeme} (h : Scannable ls)
    (hbeside : (Lexeme.word text :: ls).IsChain LexBeside) :
    validAfter (textOf ls).head? = true ∧ (textOf ls).head? ≠ some 73 := by
  cases ls with
  | nil => exact ⟨rfl, by simp⟩
  | cons l ls =>
      have hok := h.lexed.each l List.mem_cons_self
      have hnext := (List.isChain_cons_cons.1 hbeside).1
      cases l with
      | space c =>
          have hspace : isSpace c = true := hok
          have hlow := (isSpace_lt hspace).1
          refine ⟨by simp [Lexeme.text, validAfter, isRegexSpace_space hspace], ?_⟩
          simp only [textOf_cons, Lexeme.text, List.cons_append, List.head?_cons, ne_eq,
            Option.some.injEq]
          omega
      | punct c =>
          simp only [LexBeside, Tok.closes, Bool.or_eq_true, decide_eq_true_eq] at hnext
          refine ⟨?_, ?_⟩
          · simp only [textOf_cons, Lexeme.text, List.cons_append, List.head?_cons, validAfter,
              Bool.or_eq_true, decide_eq_true_eq]
            omega
          · simp only [textOf_cons, Lexeme.text, List.cons_append, List.head?_cons, ne_eq,
              Option.some.injEq]
            omega
      | word text => cases hnext
      | str literal value => cases hnext

/-- A word may start after this character. -/
def WordMayStart (before : Option Nat) : List Lexeme → Prop
  | .word _ :: _ => validBefore before = true
  | _ => True

/-- The word after a lexeme may start there. -/
theorem wordMayStart_next {l : Lexeme} {ls : List Lexeme} (h : (l :: ls).IsChain LexBeside)
    {before : Option Nat}
    (hspace : ∀ c, l = .space c → validBefore before = true)
    (hpunct : ∀ c, l = .punct c → (Tok.punct c).opens = true → validBefore before = true) :
    WordMayStart before ls := by
  cases ls with
  | nil => trivial
  | cons l' ls =>
      have hnext := (List.isChain_cons_cons.1 h).1
      cases l' with
      | word text =>
          cases l with
          | space c => exact hspace c rfl
          | punct c => exact hpunct c rfl hnext
          | word text' => cases hnext
          | str literal value => cases hnext
      | _ => trivial

/-- **Markers.**  The protected text is the text of the protected lexemes. -/
theorem protectNonFiniteFrom_eq (sentinels : Sentinels) {ls : List Lexeme} (h : Scannable ls)
    (hsettled : ∀ l ∈ ls, Lexeme.Settled l) (hbeside : ls.IsChain LexBeside)
    (fuel index : Nat) (before : Option Nat) (hfuel : (textOf ls).length ≤ fuel)
    (hbefore : WordMayStart before ls) :
    protectNonFiniteFrom sentinels fuel index before (textOf ls) (stringTokens index ls) =
      textOf (ls.map (protectWord sentinels)) := by
  induction ls generalizing fuel index before with
  | nil => cases fuel <;> rfl
  | cons l ls ih =>
      have hok := h.lexed.each l List.mem_cons_self
      obtain ⟨hset, hrestSettled⟩ := List.forall_mem_cons.1 hsettled
      have htailChain := hbeside.tail
      have hlength : l.text.length + (textOf ls).length ≤ fuel := by
        rwa [textOf_cons, List.length_append] at hfuel
      clear hfuel
      -- a lexeme without a candidate, which stays as it is
      have hcopy : (∀ c ∈ l.text, c ≠ 78 ∧ c ≠ 73) →
          (45 ∈ l.text → (textOf ls).head? ≠ some 73) →
          stringTokens index (l :: ls) = stringTokens (index + l.text.length) ls →
          protectWord sentinels l = l →
          WordMayStart (l.text.getLast?.or before) ls →
          protectNonFiniteFrom sentinels fuel index before (textOf (l :: ls))
            (stringTokens index (l :: ls)) = textOf ((l :: ls).map (protectWord sentinels)) := by
        intro hchars hminus htoks hsame hstart
        obtain ⟨fuel, rfl⟩ : ∃ n, fuel = n + l.text.length := ⟨fuel - l.text.length, by omega⟩
        rw [textOf_cons, htoks, protectNonFiniteFrom_skip sentinels hchars hminus fuel index
          before stringTokens_start, ih h.tail hrestSettled htailChain fuel _ _ (by omega) hstart,
          List.map_cons, textOf_cons, hsame]
      cases l with
      | space c =>
          have hspace : isSpace c = true := hok
          have hlow := (isSpace_lt hspace).1
          refine hcopy ?_ ?_ rfl rfl ?_
          · simp only [Lexeme.text, List.mem_singleton, forall_eq]
            omega
          · simp only [Lexeme.text, List.mem_singleton]
            omega
          · refine wordMayStart_next hbeside (fun c' hc' => ?_) (fun c' hc' => by cases hc')
            simp [Lexeme.text, validBefore, isRegexSpace_space hspace]
      | punct c =>
          have hpunct : isPunct c = true := hok
          have hcases := hpunct
          simp only [isPunct, Bool.or_eq_true, decide_eq_true_eq] at hcases
          refine hcopy ?_ ?_ rfl rfl ?_
          · simp only [Lexeme.text, List.mem_singleton, forall_eq]
            omega
          · simp only [Lexeme.text, List.mem_singleton]
            omega
          · refine wordMayStart_next hbeside (fun c' hc' => by cases hc') ?_
            intro c' hc' hopens
            obtain rfl : c = c' := by simpa using hc'
            simp only [Tok.opens, Bool.or_eq_true, decide_eq_true_eq] at hopens
            simp only [Lexeme.text, List.getLast?_singleton, Option.some_or, validBefore,
              Bool.or_eq_true, decide_eq_true_eq]
            omega
      | word text =>
          obtain ⟨hvalid, hnoI⟩ := validAfter_word h.tail hbeside
          have hnext : ∀ b, WordMayStart b ls := fun b =>
            wordMayStart_next hbeside (fun c hc => by cases hc) (fun c hc => by cases hc)
          cases hmarker : markerOf text with
          | none =>
              have hplain : ∀ c ∈ text, c ≠ 78 ∧ c ≠ 73 := by
                obtain hsome | hplain := hset
                · simp [hmarker] at hsome
                · exact hplain
              exact hcopy hplain (fun _ => hnoI) rfl (by simp [protectWord, hmarker]) (hnext _)
          | some k =>
              obtain rfl := markerOf_some hmarker
              have hpos : 0 < k.value.length := List.length_pos_iff.2 hok.1
              have hstart : ∀ t ∈ stringTokens index (.word k.value :: ls), index < t.start := by
                intro t ht
                have hlate : index + k.value.length ≤ t.start := @stringTokens_start ls _ t ht
                omega
              have hroom : k.value.length + (textOf ls).length ≤ fuel := hlength
              obtain ⟨fuel, rfl⟩ : ∃ n, fuel = n + 1 := ⟨fuel - 1, by omega⟩
              have hrest := ih h.tail hrestSettled htailChain fuel (index + k.value.length)
                k.value.getLast? (by omega) (hnext _)
              have hword : (protectWord sentinels (.word k.value)).text = sentinels.textOf k := by
                simp [protectWord, hmarker, Lexeme.text]
              rw [List.map_cons, textOf_cons, textOf_cons, hword, ← hrest]
              exact protectNonFiniteFrom_marker sentinels k hstart hbefore hvalid fuel
      | str literal value =>
          obtain ⟨body, rfl, -⟩ := hok
          have hnext : ∀ b, WordMayStart b ls := fun b =>
            wordMayStart_next hbeside (fun c hc => by cases hc) (fun c hc => by cases hc)
          simp only [Lexeme.text, List.length_cons] at hlength
          obtain ⟨fuel, rfl⟩ : ∃ n, fuel = n + 1 := ⟨fuel - 1, by omega⟩
          have hrest := ih h.tail hrestSettled htailChain fuel
            (index + (0x22 :: body).length) (0x22 :: body).getLast? (by omega) (hnext _)
          have hstop : index + (0x22 :: body).length - index = (0x22 :: body).length := by
            omega
          have htake : (0x22 :: (body ++ textOf ls)).take (0x22 :: body).length =
              0x22 :: body := by simp
          have hdrop : (0x22 :: (body ++ textOf ls)).drop (0x22 :: body).length = textOf ls := by
            simp
          rw [textOf_cons, Lexeme.text, List.cons_append, stringTokens, protectNonFiniteFrom]
          simp only [List.head?_cons, Option.map_some, if_true, hstop, htake, hdrop, hrest]
          rfl

/-- Protecting the markers of a text protects those of its lexemes. -/
theorem protectPythonNonFinite_eq {ls : List Lexeme} (h : Scannable ls)
    (hsettled : ∀ l ∈ ls, Lexeme.Settled l) (hbeside : ls.IsChain LexBeside) :
    protectPythonNonFinite (textOf ls) (stringTokens 0 ls) =
      let sentinels := nonFiniteSentinels ((stringTokens 0 ls).map (·.value))
        [.nan, .infinity, .negInfinity]
      (textOf (ls.map (protectWord sentinels)), sentinels) := by
  have hstart : WordMayStart none ls := by
    cases ls with
    | nil => trivial
    | cons l ls => cases l <;> trivial
  have htext := protectNonFiniteFrom_eq (nonFiniteSentinels
    ((stringTokens 0 ls).map (·.value)) [.nan, .infinity, .negInfinity]) h hsettled hbeside
    (textOf ls).length 0 none (Nat.le_refl _) hstart
  simp only [protectPythonNonFinite, htext]

end Deliverable
