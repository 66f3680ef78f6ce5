import StockAnalyst.JsonRewrite
import StockAnalyst.ManifestScan
import StockAnalyst.SettledDeliverable
import StockAnalyst.StringifyText

/-!
# Buyer and seller write one canonical text

Both sides read the same lexemes of a manifest.  The buyer's sentinels change
the keys `__proto__` and the words `NaN`, `Infinity` and `-Infinity` on their
way through the strict parser, and are taken back behind it.  What is left are
two printers of one document.
-/

namespace Deliverable

open Js JsonText Python Checks

/-! ## The strict parser -/

/-- The value of a word of strict JSON; a number keeps its lexeme. -/
def strictWord (word : JsStr) : Option (JsonValue Empty) :=
  if word = js "null" then some .null
  else if word = js "true" then some (.bool true)
  else if word = js "false" then some (.bool false)
  else if isNumber word then some (.number word)
  else none

mutual

/-- The value of a document of strict JSON. -/
def strictValue : Doc → Option (JsonValue Empty)
  | .word text => strictWord text
  | .str value => some (.str value)
  | .arr items => (strictItems items).map .arr
  | .obj entries => (strictEntries entries).map .obj

def strictItems : List Doc → Option (List (JsonValue Empty))
  | [] => some []
  | d :: items => (strictValue d).bind fun v => (strictItems items).map (v :: ·)

def strictEntries : List (JsStr × Doc) → Option (List (JsStr × JsonValue Empty))
  | [] => some []
  | (key, d) :: entries =>
      (strictValue d).bind fun v => (strictEntries entries).map ((key, v) :: ·)

end

/-- `parse` of `lossless-json` is a strict JSON parser that keeps the lexemes
of numbers.  Objects with a key twice or with the key `__proto__` are left
open: the code does not hand it any. -/
def Lib.Strict (lib : Lib) : Prop :=
  ∀ text d, (∀ u ∈ text, u < 0x10000) → read scanUnits text = some d → d.distinctKeys = true →
    d.hasKey protoKey = false → lib.parse text = strictValue d

/-! ## Sentinels -/

/-- The code units of a text of code points are 16 bits wide. -/
theorem utf16_lt {s : PyStr} (h : ∀ c ∈ s, c < 0x110000) : ∀ u ∈ utf16 s, u < 0x10000 := by
  intro u hu
  obtain ⟨c, hc, hu⟩ := List.mem_flatMap.1 hu
  have hlt := h c hc
  unfold pointUnits at hu
  split at hu
  · obtain rfl := List.mem_singleton.1 hu
    assumption
  · simp only [List.mem_cons, List.not_mem_nil, or_false] at hu
    unfold highUnit lowUnit at hu
    omega

/-- No text is longer than all of them together. -/
theorem length_le_sum {strings : List JsStr} {s : JsStr} (h : s ∈ strings) :
    s.length ≤ (strings.map List.length).sum := by
  induction strings with
  | nil => cases h
  | cons t strings ih =>
      rw [List.map_cons, List.sum_cons]
      obtain rfl | h := List.mem_cons.1 h
      · omega
      · have := ih h
        omega

/-- The sentinel grows until it is longer than every string. -/
theorem freshen_notMem {strings : List JsStr} {fuel : Nat} {sentinel : JsStr}
    (h : (strings.map List.length).sum < fuel + sentinel.length) :
    freshen strings fuel sentinel ∉ strings := by
  induction fuel generalizing sentinel with
  | zero =>
      intro hmem
      rw [freshen] at hmem
      have hle := length_le_sum hmem
      omega
  | succ fuel ih =>
      rw [freshen]
      split
      · apply ih
        rw [List.length_append, List.length_singleton]
        omega
      · assumption

/-- Freshening only appends zeros. -/
theorem freshen_eq (strings : List JsStr) (fuel : Nat) (sentinel : JsStr) :
    ∃ n, freshen strings fuel sentinel = sentinel ++ List.replicate n 0 := by
  induction fuel generalizing sentinel with
  | zero => exact ⟨0, by simp [freshen]⟩
  | succ fuel ih =>
      rw [freshen]
      split
      · obtain ⟨n, hn⟩ := ih (sentinel ++ [0])
        exact ⟨n + 1, by rw [hn, List.append_assoc, List.replicate_succ, List.singleton_append]⟩
      · exact ⟨0, by simp⟩

/-- A string made of code units that starts with a null character. -/
def NullStart (s : JsStr) : Prop := s.head? = some 0 ∧ ∀ u ∈ s, u < 0x10000

/-- A fresh sentinel is none of the texts and still starts with a zero. -/
theorem freshSentinel_spec (strings : List JsStr) {sentinel : JsStr} (h : NullStart sentinel) :
    freshSentinel strings sentinel ∉ strings ∧ NullStart (freshSentinel strings sentinel) := by
  refine ⟨freshen_notMem (by omega), ?_⟩
  obtain ⟨n, hn⟩ := freshen_eq strings ((strings.map List.length).sum + 1) sentinel
  unfold freshSentinel
  rw [hn]
  refine ⟨by rw [List.head?_append, h.1]; rfl, ?_⟩
  refine List.forall_mem_append.2 ⟨h.2, ?_⟩
  intro u hu
  rw [List.eq_of_mem_replicate hu]
  decide

/-- The protected key starts with a zero. -/
theorem nullStart_proto : NullStart (0 :: protoKey) := by
  unfold NullStart
  decide

/-- The marker of a number starts with a zero. -/
theorem nullStart_marker (k : PythonNonFinite) :
    NullStart (0 :: js "python-non-finite:" ++ k.value) := by
  unfold NullStart
  cases k <;> decide

/-- The sentinels are apart from the strings and from each other. -/
theorem nonFiniteSentinels_spec (strings : List JsStr) (ks : List PythonNonFinite) :
    (nonFiniteSentinels strings ks).map (·.2) = ks ∧
      ((nonFiniteSentinels strings ks).map (·.1)).Nodup ∧
      ∀ e ∈ nonFiniteSentinels strings ks, e.1 ∉ strings ∧ NullStart e.1 := by
  induction ks generalizing strings with
  | nil => simp [nonFiniteSentinels]
  | cons k ks ih =>
      have hfresh := freshSentinel_spec strings (nullStart_marker k)
      rw [nonFiniteSentinels]
      generalize freshSentinel strings (0 :: js "python-non-finite:" ++ k.value) = sentinel
        at hfresh ⊢
      obtain ⟨hmarkers, hnodup, heach⟩ := ih (sentinel :: strings)
      refine ⟨by simp [hmarkers], ?_, ?_⟩
      · rw [List.map_cons, List.nodup_cons]
        refine ⟨?_, hnodup⟩
        intro hmem
        obtain ⟨e, he, heq⟩ := List.mem_map.1 hmem
        exact (heach e he).1 (by rw [heq]; exact List.mem_cons_self)
      · refine List.forall_mem_cons.2 ⟨hfresh, ?_⟩
        intro e he
        obtain ⟨hnot, hnull⟩ := heach e he
        exact ⟨fun hmem => hnot (List.mem_cons_of_mem _ hmem), hnull⟩

/-- Sentinels that stand for every marker. -/
structure Sentinels.Proper (sentinels : Sentinels) : Prop where
  lookup_of : ∀ k, sentinels.lookup (sentinels.of k) = some k
  textOf : ∀ k, sentinels.textOf k = stringify (sentinels.of k)
  null : ∀ k, NullStart (sentinels.of k)

/-- What starts with a zero is not `__proto__`. -/
theorem NullStart.ne_proto {s : JsStr} (h : NullStart s) : s ≠ protoKey := by
  intro heq
  have hhead := h.1
  rw [heq] at hhead
  revert hhead
  decide

/-- A key of no entry is not found. -/
theorem lookup_eq_none {α : Type} {entries : List (JsStr × α)} {key : JsStr}
    (h : ∀ e ∈ entries, e.1 ≠ key) : entries.lookup key = none := by
  cases hlookup : entries.lookup key with
  | none => rfl
  | some a => exact absurd rfl (h _ (mem_of_lookup hlookup))

/-- The three sentinels of a text differ, and none is a key of it. -/
theorem sentinels_proper (strings : List JsStr) :
    (nonFiniteSentinels strings [.nan, .infinity, .negInfinity]).Proper := by
  obtain ⟨hmarkers, hnodup, heach⟩ :=
    nonFiniteSentinels_spec strings [.nan, .infinity, .negInfinity]
  generalize nonFiniteSentinels strings [.nan, .infinity, .negInfinity] = sentinels
    at hmarkers hnodup heach ⊢
  have hfind : ∀ k, ∃ s, sentinels.find? (fun e => e.2 = k) = some (s, k) ∧
      (s, k) ∈ sentinels := by
    intro k
    have hmem : k ∈ sentinels.map (·.2) := by
      rw [hmarkers]
      cases k <;> decide
    obtain ⟨e, he, hek⟩ := List.mem_map.1 hmem
    have hsome : (sentinels.find? fun e => decide (e.2 = k)).isSome = true :=
      List.find?_isSome.2 ⟨e, he, by simpa using hek⟩
    obtain ⟨⟨s, k'⟩, hfound⟩ := Option.isSome_iff_exists.1 hsome
    have heq : k' = k := by simpa using List.find?_some hfound
    subst heq
    exact ⟨s, hfound, List.mem_of_find?_eq_some hfound⟩
  constructor
  · intro k
    obtain ⟨s, hfound, hmem⟩ := hfind k
    rw [Sentinels.of, hfound]
    exact lookup_of_mem hnodup hmem
  · intro k
    obtain ⟨s, hfound, -⟩ := hfind k
    rw [Sentinels.textOf, Sentinels.of, hfound]
  · intro k
    obtain ⟨s, hfound, hmem⟩ := hfind k
    rw [Sentinels.of, hfound]
    exact (heach _ hmem).2

/-- No string of the text, and no key `__proto__`, is a sentinel. -/
theorem lookup_sentinels {strings : List JsStr} {s : JsStr} (h : s ∈ strings ∨ s = protoKey) :
    (nonFiniteSentinels strings [.nan, .infinity, .negInfinity]).lookup s = none := by
  obtain ⟨-, -, heach⟩ := nonFiniteSentinels_spec strings [.nan, .infinity, .negInfinity]
  apply lookup_eq_none
  intro e he heq
  obtain ⟨hnot, hnull⟩ := heach e he
  obtain h | h := h
  · exact hnot (by rw [heq]; exact h)
  · exact hnull.ne_proto (by rw [heq, h])

/-! ## Lexemes -/

/-- The scanner's look ahead sees a colon exactly where the next token is
one. -/
theorem nextIsColon_iff {ls : List Lexeme} :
    nextIsColon ls = true ↔ (tokens ls).head? = some (.punct 0x3A) := by
  induction ls with
  | nil => simp [nextIsColon]
  | cons l ls ih =>
      cases l with
      | space c => exact ih
      | punct c => simp [nextIsColon]
      | word text => simp [nextIsColon]
      | str literal value => simp [nextIsColon]

/-- From code points to code units. -/
def unitsOf : Rewriting := ⟨fun text => .word (utf16 text), utf16, utf16⟩

/-- The sentinels in the place of keys and words. -/
def protection (sentinel : JsStr) (sentinels : Sentinels) : Rewriting where
  word text := match markerOf text with
    | some k => .str (sentinels.of k)
    | none => .word text
  str value := value
  key key := if key = protoKey then sentinel else key

/-- Reading the lexemes in code units rewrites every string of the tokens. -/
theorem tokens_units (ls : List Lexeme) :
    tokens (ls.map unitLexeme) = rewriteToks unitsOf (tokens ls) := by
  induction ls with
  | nil => rfl
  | cons l ls ih =>
      cases l with
      | space c => exact ih
      | punct c => simp [unitLexeme, rewriteToks, ih]
      | word text => simp [unitLexeme, rewriteToks, ih, unitsOf, Doc.toks]
      | str literal value => simp [unitLexeme, rewriteToks, ih, unitsOf]

/-- The tokens of the text behind both protections. -/
theorem tokens_protection (sentinel : JsStr) (sentinels : Sentinels) (ls : List Lexeme) :
    tokens ((protectKeys sentinel ls).map (protectWord sentinels)) =
      rewriteToks (protection sentinel sentinels) (tokens ls) := by
  induction ls with
  | nil => rfl
  | cons l ls ih =>
      cases l with
      | space c => exact ih
      | punct c => simp [protectKeys, protectWord, rewriteToks, ih]
      | word text =>
          rw [tokens_word, rewriteToks, ← ih]
          cases hmarker : markerOf text with
          | none => simp [protectKeys, protectWord, protection, hmarker, Doc.toks]
          | some k => simp [protectKeys, protectWord, protection, hmarker, Doc.toks]
      | str literal value =>
          rw [tokens_str, rewriteToks, ← ih]
          by_cases hcolon : nextIsColon ls = true
          · rw [if_pos (nextIsColon_iff.1 hcolon)]
            by_cases hproto : value = protoKey
            · simp [protectKeys, protectWord, protection, hcolon, hproto]
            · simp [protectKeys, protectWord, protection, hcolon, hproto]
          · rw [if_neg fun h => hcolon (nextIsColon_iff.2 h)]
            simp [protectKeys, protectWord, protection, hcolon]

/-- Protecting the keys puts in nothing but the sentinel. -/
theorem mem_protectKeys {sentinel : JsStr} {ls : List Lexeme} {l : Lexeme}
    (h : l ∈ protectKeys sentinel ls) : l ∈ ls ∨ l = .str (stringify sentinel) sentinel := by
  induction ls with
  | nil => cases h
  | cons l' ls ih =>
      have hkeep : l ∈ l' :: protectKeys sentinel ls →
          l ∈ l' :: ls ∨ l = .str (stringify sentinel) sentinel := by
        intro h
        obtain rfl | h := List.mem_cons.1 h
        · exact Or.inl List.mem_cons_self
        · exact (ih h).imp_left (List.mem_cons_of_mem _)
      cases l' with
      | str literal value =>
          rw [protectKeys] at h
          split at h
          · obtain rfl | h := List.mem_cons.1 h
            · exact Or.inr rfl
            · exact (ih h).imp_left (List.mem_cons_of_mem _)
          · exact hkeep h
      | _ => exact hkeep h

/-- A string that is no key `__proto__` stays. -/
theorem str_mem_protectKeys {sentinel : JsStr} {ls : List Lexeme} {s : JsStr}
    (h : JsonText.Tok.str s ∈ tokens ls) (hs : s ≠ protoKey) :
    JsonText.Tok.str s ∈ tokens (protectKeys sentinel ls) := by
  induction ls with
  | nil => cases h
  | cons l ls ih =>
      cases l with
      | space c => exact ih h
      | punct c =>
          rw [tokens_punct, List.mem_cons] at h
          exact List.mem_cons_of_mem _ (ih (h.resolve_left (by simp)))
      | word text =>
          rw [tokens_word, List.mem_cons] at h
          exact List.mem_cons_of_mem _ (ih (h.resolve_left (by simp)))
      | str literal value =>
          rw [tokens_str, List.mem_cons] at h
          rw [protectKeys]
          obtain heq | h := h
          · obtain rfl : s = value := by simpa using heq
            rw [if_neg fun hkey => hs hkey.2, tokens_str]
            exact List.mem_cons_self
          · split
            · exact List.mem_cons_of_mem _ (ih h)
            · exact List.mem_cons_of_mem _ (ih h)

/-- A relation between neighbours that the changes of the members keep. -/
theorem isChain_of_forall₂ {α : Type} {R S : α → α → Prop} {l l' : List α}
    (hR : ∀ a b a' b', S a a' → S b b' → R a b → R a' b') (h : List.Forall₂ S l l')
    (hl : l.IsChain R) : l'.IsChain R := by
  induction h with
  | nil => exact .nil
  | @cons a a' l l' ha hrest ih =>
      cases hrest with
      | nil => exact .singleton _
      | @cons b b' l l' hb hrest =>
          obtain ⟨hab, htail⟩ := List.isChain_cons_cons.1 hl
          exact List.isChain_cons_cons.2 ⟨hR _ _ _ _ ha hb hab, ih htail⟩

/-- The same lexeme, or another string. -/
inductive SameKind : Lexeme → Lexeme → Prop
  | same (l : Lexeme) : SameKind l l
  | str (literal value literal' value' : JsStr) :
      SameKind (.str literal value) (.str literal' value')

/-- Protecting the keys leaves every lexeme of its kind. -/
theorem protectKeys_sameKind (sentinel : JsStr) (ls : List Lexeme) :
    List.Forall₂ SameKind ls (protectKeys sentinel ls) := by
  induction ls with
  | nil => exact .nil
  | cons l ls ih =>
      cases l with
      | str literal value =>
          rw [protectKeys]
          split
          · exact .cons (.str _ _ _ _) ih
          · exact .cons (.same _) ih
      | _ => exact .cons (.same _) ih

/-- Whether two lexemes must be kept apart depends on their kinds alone. -/
theorem SameKind.apart {a b a' b' : Lexeme} (ha : SameKind a a') (hb : SameKind b b')
    (h : Apart a b) : Apart a' b' := by
  cases ha with
  | str => trivial
  | same =>
      cases hb with
      | str => cases a <;> trivial
      | same => exact h

/-- Whether two lexemes may stand side by side depends on their kinds alone. -/
theorem SameKind.beside {a b a' b' : Lexeme} (ha : SameKind a a') (hb : SameKind b b')
    (h : LexBeside a b) : LexBeside a' b' := by
  cases ha with
  | str =>
      cases hb with
      | str => trivial
      | same => cases b <;> exact h
  | same =>
      cases hb with
      | str => cases a <;> exact h
      | same => exact h

section protectedText

variable {sentinel : JsStr} {ls : List Lexeme}

/-- The protected text can still be scanned. -/
theorem Scannable.protectKeys (h : Scannable ls) (hs : NullStart sentinel) :
    Scannable (protectKeys sentinel ls) := by
  refine ⟨⟨?_, ?_⟩, ?_⟩
  · intro l hl
    obtain hl | rfl := mem_protectKeys hl
    · exact h.lexed.each l hl
    · exact ok_stringify hs.2
  · exact isChain_of_forall₂ (fun _ _ _ _ ha hb => ha.apart hb) (protectKeys_sameKind sentinel ls)
      h.lexed.apart
  · intro l hl
    obtain hl | rfl := mem_protectKeys hl
    · exact h.named l hl
    · trivial

/-- The literal of a text of code units is one as well. -/
theorem stringify_lt {s : JsStr} (h : ∀ u ∈ s, u < 0x10000) : ∀ u ∈ stringify s, u < 0x10000 := by
  obtain ⟨ps, hps, heq⟩ := wellFormed_stringify h
  rw [heq]
  exact utf16_lt fun c hc => (hps c hc).2.2

/-- The text behind the protections is made of code units. -/
theorem protected_lt {sentinels : Sentinels} (h : ∀ u ∈ textOf ls, u < 0x10000)
    (hs : NullStart sentinel) (hproper : sentinels.Proper) :
    ∀ u ∈ textOf ((protectKeys sentinel ls).map (protectWord sentinels)), u < 0x10000 := by
  intro u hu
  obtain ⟨l, hl, hu⟩ := List.mem_flatMap.1 hu
  obtain ⟨l', hl', rfl⟩ := List.mem_map.1 hl
  have hsame : ∀ l ∈ ls, ∀ u ∈ l.text, u < 0x10000 :=
    fun l hl u hu => h u (List.mem_flatMap.2 ⟨l, hl, hu⟩)
  have hkept : ∀ u ∈ l'.text, u < 0x10000 := by
    obtain hl' | rfl := mem_protectKeys hl'
    · exact hsame l' hl'
    · exact stringify_lt hs.2
  cases l' with
  | word text =>
      cases hmarker : markerOf text with
      | none => exact hkept u (by simpa [protectWord, hmarker] using hu)
      | some k =>
          refine stringify_lt (hproper.null k).2 u ?_
          simpa [protectWord, hmarker, hproper.textOf, Lexeme.text] using hu
  | _ => exact hkept u hu

/-- Behind the protections the lexemes are those of their text. -/
theorem lexed_protectWord {sentinels : Sentinels} (h : Lexed scanUnits ls)
    (hs : sentinels.Proper) :
    Lexed scanUnits (ls.map (protectWord sentinels)) := by
  constructor
  · intro l hl
    obtain ⟨l', hl', rfl⟩ := List.mem_map.1 hl
    have hok := h.each l' hl'
    cases l' with
    | word text =>
        cases hmarker : markerOf text with
        | none => simpa [protectWord, hmarker] using hok
        | some k =>
            have hliteral := ok_stringify (hs.null k).2
            simpa [protectWord, hmarker, hs.textOf] using hliteral
    | _ => exact hok
  · rw [List.isChain_map]
    refine h.apart.imp ?_
    intro a b hab
    cases a with
    | word text =>
        cases b with
        | word text' => cases hab
        | _ =>
            simp only [protectWord]
            split <;> trivial
    | _ => trivial

end protectedText

/-- Neighbours among the tokens are neighbours among the lexemes. -/
theorem lexBeside_of_tokens {ls : List Lexeme} (h : (tokens ls).IsChain Beside) :
    ls.IsChain LexBeside := by
  induction ls with
  | nil => exact .nil
  | cons l ls ih =>
      have htail : (tokens ls).IsChain Beside := by
        cases l with
        | space c => exact h
        | _ => exact h.tail
      refine List.isChain_cons.2 ⟨?_, ih htail⟩
      intro l' hl'
      obtain ⟨rest, rfl⟩ := List.head?_eq_some_iff.1 hl'
      cases l with
      | space c => trivial
      | punct c =>
          cases l' with
          | word text => exact (List.isChain_cons_cons.1 h).1
          | _ => trivial
      | word text =>
          cases l' with
          | space c => trivial
          | punct c => exact (List.isChain_cons_cons.1 h).1
          | word text' => cases (List.isChain_cons_cons.1 h).1
          | str literal value => cases (List.isChain_cons_cons.1 h).1
      | str literal value =>
          cases l' with
          | word text => cases (List.isChain_cons_cons.1 h).1
          | _ => trivial

/-! ## Words that both sides read -/

/-- A word without `N` and `I` is no marker. -/
theorem markerOf_plain {w : JsStr} (h : ∀ c ∈ w, c ≠ 78 ∧ c ≠ 73) : markerOf w = none := by
  cases hmarker : markerOf w with
  | none => rfl
  | some k =>
      rw [markerOf_some hmarker] at h
      have hvalue : 78 ∈ k.value ∨ 73 ∈ k.value := by
        cases k <;> decide
      obtain hmem | hmem := hvalue
      · exact absurd rfl (h _ hmem).1
      · exact absurd rfl (h _ hmem).2

/-- Every marker is read as what it stands for. -/
theorem markerOf_value (k : PythonNonFinite) : markerOf k.value = some k := by
  cases k <;> decide

/-- A word of names in which no marker starts, or a marker. -/
def GoodWord (w : JsStr) : Prop := (∀ c ∈ w, isNameChar c) ∧ Lexeme.Settled (.word w)

/-- A word of name characters without `N` and `I` is good. -/
theorem goodWord_plain {w : JsStr} (h : ∀ c ∈ w, isNameChar c ∧ c ≠ 78 ∧ c ≠ 73) : GoodWord w :=
  ⟨fun c hc => (h c hc).1, Or.inr fun c hc => (h c hc).2⟩

/-- A word in lower case is good. -/
theorem goodWord_lower {w : JsStr} (h : ∀ c ∈ w, 97 ≤ c ∧ c ≤ 122) : GoodWord w := by
  apply goodWord_plain
  intro c hc
  have := h c hc
  unfold isNameChar
  omega

/-- The markers themselves are good words. -/
theorem goodWord_marker (k : PythonNonFinite) : GoodWord k.value := by
  refine ⟨?_, Or.inl (by rw [markerOf_value]; rfl)⟩
  have hvalue : ∀ c ∈ k.value, c = 45 ∨ (65 ≤ c ∧ c ≤ 90) ∨ (97 ≤ c ∧ c ≤ 122) := by
    cases k <;> decide
  intro c hc
  have := hvalue c hc
  unfold isNameChar
  omega

/-- Numbers are good words. -/
theorem goodWord_number {w : JsStr} (h : isNumber w = true) : GoodWord w := by
  apply goodWord_plain
  intro c hc
  have := (isNumber_chars h).2 c hc
  unfold isNumberChar at this
  unfold isNameChar
  omega

/-- An integer is a number. -/
theorem isNumber_of_isInteger {w : JsStr} (h : isInteger w = true) : isNumber w = true := by
  have hdigits : ∀ s : JsStr, isUnsignedInteger s = true →
      isUnsignedInteger (s.takeWhile isDigit) = true ∧ isFraction (s.dropWhile isDigit) = true := by
    intro s hs
    have hall : ∀ c ∈ s, isDigit c = true := by
      intro c hc
      have := (isUnsignedInteger_digits hs).2 c hc
      simp [isDigit, this]
    rw [List.takeWhile_eq_self_iff.2 hall, List.dropWhile_eq_nil_iff.2 hall]
    exact ⟨hs, rfl⟩
  simp only [isInteger, Bool.or_eq_true, Bool.and_eq_true, decide_eq_true_eq] at h
  unfold isNumber
  rw [Bool.and_eq_true]
  obtain h | ⟨hminus, h⟩ := h
  · have hhead : w.head? ≠ some 45 := by
      intro hminus
      obtain ⟨rest, rfl⟩ := List.head?_eq_some_iff.1 hminus
      have := (isUnsignedInteger_digits h).2 45 List.mem_cons_self
      omega
    rw [if_neg hhead]
    exact hdigits w h
  · rw [if_pos hminus]
    exact hdigits w.tail h

/-- The words of `json.loads`. -/
inductive WordLoads (number : PyStr → Double) : PyStr → Loaded → Prop
  | null : WordLoads number (py "null") .none
  | bool (b : Bool) : WordLoads number (if b then py "true" else py "false") (.bool b)
  | nan : WordLoads number (py "NaN") (.float .nan)
  | inf (neg : Bool) :
      WordLoads number (if neg then py "-Infinity" else py "Infinity") (.float (.inf neg))
  | int {w : PyStr} (integer : isInteger w = true)
      (limit : (w.filter isDigit).length ≤ maxIntDigits) : WordLoads number w (.int (intOf w))
  | float {w : PyStr} (number_w : isNumber w = true) (not_integer : isInteger w = false) :
      WordLoads number w (.float (number w))

/-- A word that `json.loads` takes is of one of the kinds it knows. -/
theorem wordLoads_of_loadWord {number : PyStr → Double} {w : PyStr} {x : Loaded}
    (h : loadWord number w = some x) : WordLoads number w x := by
  unfold loadWord at h
  split_ifs at h with hnull htrue hfalse hnan hinf hneg hint hlimit hnumber
  · obtain rfl := Option.some.inj h
    rw [hnull]
    exact .null
  · obtain rfl := Option.some.inj h
    rw [htrue]
    exact .bool true
  · obtain rfl := Option.some.inj h
    rw [hfalse]
    exact .bool false
  · obtain rfl := Option.some.inj h
    rw [hnan]
    exact .nan
  · obtain rfl := Option.some.inj h
    rw [hinf]
    exact .inf false
  · obtain rfl := Option.some.inj h
    rw [hneg]
    exact .inf true
  · obtain rfl := Option.some.inj h
    exact .int hint hlimit
  · obtain rfl := Option.some.inj h
    exact .float hnumber (by simpa using hint)

/-- Every word that `json.loads` takes is good. -/
theorem WordLoads.good {number : PyStr → Double} {w : PyStr} {x : Loaded}
    (h : WordLoads number w x) : GoodWord w := by
  cases h with
  | null => exact goodWord_lower (by decide)
  | bool b => cases b <;> exact goodWord_lower (by decide)
  | nan => exact goodWord_marker .nan
  | inf neg =>
      cases neg with
      | true => exact goodWord_marker .negInfinity
      | false => exact goodWord_marker .infinity
  | int integer limit => exact goodWord_number (isNumber_of_isInteger integer)
  | float hnumber hint => exact goodWord_number hnumber

/-- A list is loaded item by item. -/
theorem load_arr {number : PyStr → Double} {items : List Doc} {x : Loaded}
    (h : load number (.arr items) = some x) :
    ∃ xs, loadItems number items = some xs ∧ x = .list xs := by
  obtain ⟨xs, hxs, rfl⟩ := Option.map_eq_some_iff.1 h
  exact ⟨xs, hxs, rfl⟩

/-- An object is loaded entry by entry, the last of equal keys staying. -/
theorem load_obj {number : PyStr → Double} {entries : List (PyStr × Doc)} {x : Loaded}
    (h : load number (.obj entries) = some x) :
    ∃ xs, loadEntries number entries = some xs ∧ x = .dict (dictOf xs) := by
  obtain ⟨xs, hxs, rfl⟩ := Option.map_eq_some_iff.1 h
  exact ⟨xs, hxs, rfl⟩

/-- Every item of a loaded list is loaded. -/
theorem load_of_mem_items {number : PyStr → Double} {items : List Doc} {xs : List Loaded}
    (h : loadItems number items = some xs) : ∀ d ∈ items, ∃ x, load number d = some x := by
  induction items generalizing xs with
  | nil => simp
  | cons d items ih =>
      obtain ⟨x, hx, hrest⟩ := Option.bind_eq_some_iff.1 h
      obtain ⟨xs', hxs', rfl⟩ := Option.map_eq_some_iff.1 hrest
      exact List.forall_mem_cons.2 ⟨⟨x, hx⟩, ih hxs'⟩

/-- Every value of a loaded object is loaded. -/
theorem load_of_mem_entries {number : PyStr → Double} {entries : List (PyStr × Doc)}
    {xs : List (PyStr × Loaded)} (h : loadEntries number entries = some xs) :
    ∀ e ∈ entries, ∃ x, load number e.2 = some x := by
  induction entries generalizing xs with
  | nil => simp
  | cons e entries ih =>
      obtain ⟨x, hx, hrest⟩ := Option.bind_eq_some_iff.1 h
      obtain ⟨xs', hxs', rfl⟩ := Option.map_eq_some_iff.1 hrest
      exact List.forall_mem_cons.2 ⟨⟨x, hx⟩, ih hxs'⟩

/-- All words of a document that Python loads are good. -/
theorem load_words {number : PyStr → Double} {d : Doc} {x : Loaded}
    (h : load number d = some x) : ∀ tok ∈ d.toks, ∀ w, tok = .word w → GoodWord w := by
  induction d using Doc.induct generalizing x with
  | word text =>
      intro tok htok w hw
      obtain rfl := List.mem_singleton.1 htok
      obtain rfl : text = w := by simpa using hw
      exact (wordLoads_of_loadWord h).good
  | str value =>
      intro tok htok w hw
      obtain rfl := List.mem_singleton.1 htok
      cases hw
  | arr items ih =>
      rw [Doc.forall_toks_arr (by simp)]
      obtain ⟨xs, hxs, rfl⟩ := load_arr h
      intro d hd
      obtain ⟨x, hx⟩ := load_of_mem_items hxs d hd
      exact ih d hd hx
  | obj entries ih =>
      rw [Doc.forall_toks_obj (by simp)]
      obtain ⟨xs, hxs, rfl⟩ := load_obj h
      intro e he
      obtain ⟨x, hx⟩ := load_of_mem_entries hxs e he
      exact ⟨by simp, ih e he hx⟩

/-! ## Behind the protections -/

/-- What the buyer makes of lexemes: the protected document goes through the
strict parser, and the sentinels are taken back. -/
structure Restored (lib : Lib) (ls : List Lexeme) (d : Doc) (v : JsonValue PythonNonFinite)
    (sentinel : JsStr) (sentinels : Sentinels) (value : JsonValue Empty) : Prop where
  proper : sentinels.Proper
  plain : ∀ s, JsonText.Tok.str s ∈ tokens ls → s ≠ sentinel ∧ sentinels.lookup s = none
  strict : strictValue (d.rewrite (protection sentinel sentinels)) = some value
  restored : v = nullPrototypeRecords sentinel sentinels value

/-- The scanner's strings are the strings of the tokens. -/
theorem mem_stringTokens {ls : List Lexeme} {s : JsStr} :
    s ∈ (stringTokens 0 ls).map (·.value) ↔ JsonText.Tok.str s ∈ tokens ls := by
  rw [stringTokens_values, List.mem_filterMap]
  constructor
  · intro h
    obtain ⟨tok, htok, hs⟩ := h
    cases tok with
    | str value =>
        obtain rfl : value = s := by simpa using hs
        exact htok
    | _ => cases hs
  · intro h
    exact ⟨_, h, rfl⟩

/-- A fresh sentinel leaves distinct keys distinct. -/
theorem protection_distinct {sentinel : JsStr} {sentinels : Sentinels} {d : Doc}
    (hkeys : d.distinctKeys = true) (hplain : ∀ tok ∈ d.toks, ∀ s, tok = .str s → s ≠ sentinel) :
    (d.rewrite (protection sentinel sentinels)).distinctKeys = true := by
  refine Doc.distinctKeys_rewrite (P := fun s => s ≠ sentinel) ?_ ?_ hplain hkeys
  · intro text
    unfold protection
    dsimp only
    split <;> rfl
  · intro k k' hk hk' heq
    unfold protection at heq
    dsimp only at heq
    split_ifs at heq with h h' h'
    · rw [h, h']
    · exact absurd heq.symm hk'
    · exact absurd heq hk
    · exact heq

/-- No key of a protected document is `__proto__`. -/
theorem protection_noProto {sentinel : JsStr} {sentinels : Sentinels} (hs : NullStart sentinel)
    (d : Doc) : (d.rewrite (protection sentinel sentinels)).hasKey protoKey = false := by
  apply Doc.hasKey_rewrite
  · intro text
    unfold protection
    dsimp only
    split <;> rfl
  · intro k
    unfold protection
    dsimp only
    split
    · exact hs.ne_proto
    · assumption

/-- **Restored.**  A document whose words stand among the right neighbours is
what the buyer parses, once the sentinels are taken back. -/
theorem parseJson_restored {lib : Lib} (hstrict : lib.Strict) {ls : List Lexeme}
    (hscan : Scannable ls) (hsettled : ∀ l ∈ ls, Lexeme.Settled l) {d : Doc}
    (hunits : ∀ u ∈ textOf ls, u < 0x10000) (htoks : tokens ls = d.toks)
    (hkeys : d.distinctKeys = true) {v : JsonValue PythonNonFinite}
    (h : parseJson lib (textOf ls) = .ok v) :
    ∃ sentinel sentinels value, Restored lib ls d v sentinel sentinels value := by
  have hbeside : ls.IsChain LexBeside := by
    apply lexBeside_of_tokens
    have hchain := d.isChain_toks [] ⟨.nil, by simp⟩ (.punct 0x3A) rfl
    rw [htoks]
    simpa using hchain.tail
  unfold parseJson at h
  obtain ⟨stringToks, hstringToks, h⟩ := bind_eq_ok h
  obtain rfl : stringTokens 0 ls = stringToks := by
    have := orSyntax_ok hstringToks
    rw [scanJsonStrings_eq hscan] at this
    exact Option.some.inj this
  obtain ⟨_, -, h⟩ := bind_eq_ok h
  rw [protectPrototypeKeys_eq] at h
  have hfresh := freshSentinel_spec ((stringTokens 0 ls).map (·.value)) nullStart_proto
  generalize freshSentinel ((stringTokens 0 ls).map (·.value)) (0 :: protoKey) = sentinel
    at h hfresh
  obtain ⟨hnew, hnull⟩ := hfresh
  dsimp only at h
  have hscan' := hscan.protectKeys hnull
  obtain ⟨protectedToks, hprotectedToks, h⟩ := bind_eq_ok h
  obtain rfl : stringTokens 0 (protectKeys sentinel ls) = protectedToks := by
    have := orSyntax_ok hprotectedToks
    rw [scanJsonStrings_eq hscan'] at this
    exact Option.some.inj this
  have hsettled' : ∀ l ∈ protectKeys sentinel ls, Lexeme.Settled l := by
    intro l hl
    obtain hl | rfl := mem_protectKeys hl
    · exact hsettled l hl
    · trivial
  have hbeside' := isChain_of_forall₂ (fun _ _ _ _ ha hb => ha.beside hb)
    (protectKeys_sameKind sentinel ls) hbeside
  rw [protectPythonNonFinite_eq hscan' hsettled' hbeside'] at h
  have hproper := sentinels_proper ((stringTokens 0 (protectKeys sentinel ls)).map (·.value))
  have hlookup := @lookup_sentinels ((stringTokens 0 (protectKeys sentinel ls)).map (·.value))
  generalize nonFiniteSentinels ((stringTokens 0 (protectKeys sentinel ls)).map (·.value))
    [.nan, .infinity, .negInfinity] = sentinels at h hproper hlookup
  dsimp only at h
  obtain ⟨value, hparse, h⟩ := bind_eq_ok h
  have hplain : ∀ s, JsonText.Tok.str s ∈ tokens ls → s ≠ sentinel ∧ sentinels.lookup s = none := by
    intro s hs
    refine ⟨?_, ?_⟩
    · intro heq
      exact hnew (by rw [← heq]; exact mem_stringTokens.2 hs)
    · by_cases hproto : s = protoKey
      · exact hlookup (Or.inr hproto)
      · exact hlookup (Or.inl (mem_stringTokens.2 (str_mem_protectKeys hs hproto)))
  have hread : read scanUnits
      (textOf ((protectKeys sentinel ls).map (protectWord sentinels))) =
      some (d.rewrite (protection sentinel sentinels)) := by
    apply read_textOf (lexed_protectWord hscan'.lexed hproper)
    rw [tokens_protection, htoks, ← Doc.toks_rewrite]
    exact Doc.reads_iff.2 rfl
  have hdistinct : (d.rewrite (protection sentinel sentinels)).distinctKeys = true := by
    apply protection_distinct hkeys
    intro tok htok s hs
    rw [← htoks, hs] at htok
    exact (hplain s htok).1
  rw [hstrict _ _ (protected_lt hunits hnull hproper) hread hdistinct
    (protection_noProto hnull d)] at hparse
  exact ⟨sentinel, sentinels, value, hproper, hplain, orSyntax_ok hparse,
    (Except.ok.inj h).symm⟩

/-! ## Entries in order -/

/-- The order of texts, one character at a time. -/
theorem cons_le_cons {a b : Nat} {l r : List Nat} :
    a :: l ≤ b :: r ↔ a < b ∨ a = b ∧ l ≤ r := by
  rw [le_iff_lt_or_eq, le_iff_lt_or_eq, List.cons_lt_cons_iff, List.cons.injEq]
  grind

/-- The client's comparison of code points is the order of Python's texts. -/
theorem comparePoints_nonpos {l r : List Nat} : comparePoints l r ≤ 0 ↔ l ≤ r := by
  induction l generalizing r with
  | nil =>
      have hle : [] ≤ r := not_lt.1 (List.not_lt_nil r)
      cases r with
      | nil => simp [comparePoints]
      | cons b r =>
          simp only [comparePoints, hle, iff_true, List.length_nil, List.length_cons]
          omega
  | cons a l ih =>
      cases r with
      | nil =>
          have hnot : ¬ a :: l ≤ [] := not_le.2 (List.nil_lt_cons a l)
          simp only [comparePoints, hnot, iff_false, List.length_nil, List.length_cons]
          omega
      | cons b r =>
          rw [comparePoints, cons_le_cons]
          by_cases heq : a = b
          · rw [if_neg (by omega), ih]
            simp [heq]
          · rw [if_pos (by omega)]
            simp only [heq, false_and, or_false]
            omega

/-- The client compares keys by their code points. -/
theorem compare_nonpos (k k' : JsStr) :
    compareUnicodeCodePoints k k' ≤ 0 ↔ points k ≤ points k' := comparePoints_nonpos

/-- On what Python wrote, the client orders keys as Python does. -/
theorem compare_utf16 {k k' : PyStr} (hk : PyString k) (hk' : PyString k') :
    compareUnicodeCodePoints (utf16 k) (utf16 k') ≤ 0 ↔ k ≤ k' := by
  rw [compare_nonpos, points_utf16 hk.1 hk.2, points_utf16 hk'.1 hk'.2]

/-- The client's sort puts the keys in its order. -/
theorem pairwise_sortedKeys {α : Type} (texts : List (JsStr × α)) :
    (sortedKeys texts).Pairwise fun a b => compareUnicodeCodePoints a.1 b.1 ≤ 0 := by
  have htotal : Std.Total fun a b : JsStr × α => compareUnicodeCodePoints a.1 b.1 ≤ 0 := by
    constructor
    intro a b
    rw [compare_nonpos, compare_nonpos]
    exact le_total _ _
  have htrans : IsTrans (JsStr × α) fun a b => compareUnicodeCodePoints a.1 b.1 ≤ 0 := by
    constructor
    intro a b c hab hbc
    rw [compare_nonpos] at hab hbc ⊢
    exact le_trans hab hbc
  exact List.pairwise_insertionSort _ _

/-- Python's sort puts the keys in its order. -/
theorem pairwise_sortedEntries {α : Type} (entries : List (PyStr × α)) :
    (sortedEntries entries).Pairwise fun a b => a.1 ≤ b.1 := by
  have htotal : Std.Total fun a b : PyStr × α => a.1 ≤ b.1 := ⟨fun a b => le_total a.1 b.1⟩
  have htrans : IsTrans (PyStr × α) fun a b => a.1 ≤ b.1 :=
    ⟨fun _ _ _ hab hbc => le_trans hab hbc⟩
  exact List.pairwise_insertionSort _ entries

/-- `Object.keys(value).sort(compareUnicodeCodePoints)` is the order of
`sort_keys=True`. -/
theorem sortedKeys_eq {α : Type} {texts : List (JsStr × α)} {entries : List (PyStr × α)}
    (hperm : texts.Perm (entries.map fun e => (utf16 e.1, e.2)))
    (hnodup : (entries.map (·.1)).Nodup) (hkeys : ∀ e ∈ entries, PyString e.1) :
    sortedKeys texts = (sortedEntries entries).map fun e => (utf16 e.1, e.2) := by
  have hmem : ∀ e ∈ sortedEntries entries, e ∈ entries :=
    fun e he => (sortedEntries_perm entries).mem_iff.1 he
  have hboth : (sortedKeys texts).Perm ((sortedEntries entries).map fun e => (utf16 e.1, e.2)) :=
    ((sortedKeys_perm texts).trans hperm).trans ((sortedEntries_perm entries).symm.map _)
  have hright : ((sortedEntries entries).map fun e => (utf16 e.1, e.2)).Pairwise
      fun a b => compareUnicodeCodePoints a.1 b.1 ≤ 0 := by
    rw [List.pairwise_map]
    refine (pairwise_sortedEntries entries).imp_of_mem ?_
    intro a b ha hb hab
    exact (compare_utf16 (hkeys a (hmem a ha)) (hkeys b (hmem b hb))).2 hab
  refine List.Perm.eq_of_pairwise ?_ (pairwise_sortedKeys texts) hright hboth
  intro a b ha hb hab hba
  obtain ⟨e, he, rfl⟩ := List.mem_map.1 (hboth.mem_iff.1 ha)
  obtain ⟨e', he', rfl⟩ := List.mem_map.1 hb
  rw [compare_utf16 (hkeys e (hmem e he)) (hkeys e' (hmem e' he'))] at hab
  rw [compare_utf16 (hkeys e' (hmem e' he')) (hkeys e (hmem e he))] at hba
  rw [List.inj_on_of_nodup_map hnodup (hmem e he) (hmem e' he') (le_antisymm hab hba)]

section canonicalEntries

variable {lib : Lib} {entries entries' : List (JsStr × JsonValue PythonNonFinite)}
  {texts : List (JsStr × JsStr)}

/-- Entries have a canonical text when the first and the rest do. -/
theorem canonicalEntries_cons {e : JsStr × JsonValue PythonNonFinite} :
    canonicalEntries lib (e :: entries) = .ok texts ↔
      ∃ text texts', canonicalJson lib e.2 = .ok text ∧
        canonicalEntries lib entries = .ok texts' ∧ texts = (e.1, text) :: texts' := by
  constructor
  · intro h
    obtain ⟨text, htext, hrest⟩ := bind_eq_ok h
    obtain ⟨texts', htexts', rfl⟩ := map_eq_ok hrest
    exact ⟨text, texts', htext, htexts', rfl⟩
  · intro h
    obtain ⟨text, texts', htext, htexts', rfl⟩ := h
    rw [canonicalEntries, htext, Except.bind, htexts']
    rfl

/-- The texts of entries in another order. -/
theorem canonicalEntries_perm (hperm : entries.Perm entries')
    (h : canonicalEntries lib entries = .ok texts) :
    ∃ texts', canonicalEntries lib entries' = .ok texts' ∧ texts.Perm texts' := by
  induction hperm generalizing texts with
  | nil => exact ⟨texts, h, .refl _⟩
  | cons e _ ih =>
      obtain ⟨text, rest, htext, hrest, rfl⟩ := canonicalEntries_cons.1 h
      obtain ⟨rest', hrest', hperm⟩ := ih hrest
      exact ⟨_, canonicalEntries_cons.2 ⟨text, rest', htext, hrest', rfl⟩, hperm.cons _⟩
  | swap e e' _ =>
      obtain ⟨text', more, htext', hmore, rfl⟩ := canonicalEntries_cons.1 h
      obtain ⟨text, rest, htext, hrest, rfl⟩ := canonicalEntries_cons.1 hmore
      exact ⟨_, canonicalEntries_cons.2 ⟨text, _, htext,
        canonicalEntries_cons.2 ⟨text', rest, htext', hrest, rfl⟩, rfl⟩, .swap _ _ _⟩
  | trans _ _ ih ih' =>
      obtain ⟨middle, hmiddle, hperm⟩ := ih h
      obtain ⟨last, hlast, hperm'⟩ := ih' hmiddle
      exact ⟨last, hlast, hperm.trans hperm'⟩

/-- Canonical texts are listed under the keys of the object. -/
theorem canonicalEntries_keys (h : canonicalEntries lib entries = .ok texts) :
    texts.map (·.1) = entries.map (·.1) := by
  induction entries generalizing texts with
  | nil =>
      rw [← Except.ok.inj h]
      rfl
  | cons e entries ih =>
      obtain ⟨text, rest, -, hrest, rfl⟩ := canonicalEntries_cons.1 h
      rw [List.map_cons, List.map_cons, ih hrest]

/-- Renaming the keys renames those of the texts. -/
theorem canonicalEntries_rename (f : JsStr → JsStr)
    (h : canonicalEntries lib entries = .ok texts) :
    canonicalEntries lib (entries.map fun e => (f e.1, e.2)) =
      .ok (texts.map fun e => (f e.1, e.2)) := by
  induction entries generalizing texts with
  | nil =>
      rw [← Except.ok.inj h]
      rfl
  | cons e entries ih =>
      obtain ⟨text, rest, htext, hrest, rfl⟩ := canonicalEntries_cons.1 h
      exact canonicalEntries_cons.2 ⟨text, _, htext, ih hrest, rfl⟩

end canonicalEntries

/-! ## Two printers of one document -/

section agreement

variable {lib : Lib} {sentinel : JsStr} {sentinels : Sentinels}

/-- From the document Python reads to the one the strict parser is given. -/
def change (sentinel : JsStr) (sentinels : Sentinels) : Rewriting :=
  unitsOf.andThen (protection sentinel sentinels)

/-- The strict parser knows the changed document, and both sides write one
text. -/
def Agrees (lib : Lib) (sentinel : JsStr) (sentinels : Sentinels) (d : Doc) (x : Loaded) : Prop :=
  ∃ value text, strictValue (d.rewrite (change sentinel sentinels)) = some value ∧
    x.dumps = some text ∧
    canonicalJson lib (nullPrototypeRecords sentinel sentinels value) = .ok text

/-- Of the words only the markers are changed. -/
theorem rewrite_word {w : PyStr} (h : GoodWord w) :
    (Doc.word w).rewrite (change sentinel sentinels) =
      match markerOf w with
      | some k => .str (sentinels.of k)
      | none => .word w := by
  have hunits : utf16 w = w := utf16_ascii fun c hc => (isWord_of_nameChar (h.1 c hc)).2
  show (protection sentinel sentinels).word (utf16 w) = _
  rw [hunits]
  rfl

/-- A word that is no marker is written alike once both texts are known. -/
theorem agrees_plain {w : PyStr} {x : Loaded} {value : JsonValue Empty} {text : PyStr}
    (h : GoodWord w) (hmarker : markerOf w = none) (hvalue : strictWord w = some value)
    (hdumps : x.dumps = some text)
    (hcanonical : canonicalJson lib (nullPrototypeRecords sentinel sentinels value) = .ok text) :
    Agrees lib sentinel sentinels (.word w) x := by
  refine ⟨value, text, ?_, hdumps, hcanonical⟩
  rw [rewrite_word h, hmarker]
  exact hvalue

/-- A marker is put back as the word that Python writes. -/
theorem agrees_marker (hproper : sentinels.Proper) {k : PythonNonFinite} {x : Loaded}
    (hdumps : x.dumps = some k.value) :
    Agrees lib sentinel sentinels (.word k.value) x := by
  refine ⟨.str (sentinels.of k), k.value, ?_, hdumps, ?_⟩
  · rw [rewrite_word (goodWord_marker k), markerOf_value]
    rfl
  · rw [nullPrototypeRecords, hproper.lookup_of]
    rfl

/-- The client writes an integer as it stands, zero without its sign. -/
theorem canonicalNumber_integer {w : PyStr} (h : isInteger w = true)
    (hlimit : (w.filter isDigit).length ≤ maxIntDigits) :
    canonicalNumber lib w = .ok (if w = js "-0" then js "0" else w) := by
  have hcount : (if w.head? = some 45 then w.length - 1 else w.length) =
      (w.filter isDigit).length := by
    have hint := h
    simp only [isInteger, Bool.or_eq_true, Bool.and_eq_true, decide_eq_true_eq] at hint
    obtain hint | ⟨hminus, hint⟩ := hint
    · have hdigits := (isUnsignedInteger_digits hint).2
      have hhead : w.head? ≠ some 45 := by
        intro hminus
        obtain ⟨rest, rfl⟩ := List.head?_eq_some_iff.1 hminus
        have := hdigits 45 List.mem_cons_self
        omega
      rw [if_neg hhead, filter_digits hdigits]
    · obtain ⟨rest, rfl⟩ := List.head?_eq_some_iff.1 hminus
      have hdigits := (isUnsignedInteger_digits hint).2
      have hsign : isDigit 45 = false := by decide
      rw [if_pos hminus, List.filter_cons_of_neg (by simp [hsign]), List.length_cons]
      exact (congrArg List.length (filter_digits hdigits)).symm
  have hmax : maxIntegerDigits = maxIntDigits := rfl
  rw [canonicalNumber, if_pos h]
  dsimp only
  rw [hcount, hmax, if_neg (by omega)]

/-- The strict parser keeps a number as its text. -/
theorem strictWord_number {w : PyStr} (h : isNumber w = true) :
    strictWord w = some (.number w) := by
  have hne : ∀ text : PyStr, isNumber text = false → w ≠ text := by
    intro text htext heq
    rw [heq, htext] at h
    cases h
  unfold strictWord
  rw [if_neg (hne _ (by decide)), if_neg (hne _ (by decide)), if_neg (hne _ (by decide)),
    if_pos h]

/-- A number is no marker. -/
theorem markerOf_number {w : PyStr} (h : isNumber w = true) : markerOf w = none := by
  apply markerOf_plain
  intro c hc
  have := (isNumber_chars h).2 c hc
  unfold isNumberChar at this
  omega

/-- Both sides write a word alike. -/
theorem agrees_word (hproper : sentinels.Proper) {w : PyStr} {x : Loaded}
    (h : WordLoads lib.number w x) : Agrees lib sentinel sentinels (.word w) x := by
  have hgood := h.good
  cases h with
  | null => exact agrees_plain hgood (by decide) rfl rfl rfl
  | bool b =>
      cases b with
      | true => exact agrees_plain hgood (by decide) rfl rfl rfl
      | false => exact agrees_plain hgood (by decide) rfl rfl rfl
  | nan => exact agrees_marker (k := .nan) hproper rfl
  | inf neg =>
      cases neg with
      | true => exact agrees_marker (k := .negInfinity) hproper rfl
      | false => exact agrees_marker (k := .infinity) hproper rfl
  | int integer limit =>
      have hnumber := isNumber_of_isInteger integer
      exact agrees_plain hgood (markerOf_number hnumber) (strictWord_number hnumber)
        (dumpsInt_intOf integer limit) (canonicalNumber_integer integer limit)
  | float hnumber hint =>
      refine agrees_plain hgood (markerOf_number hnumber) (strictWord_number hnumber)
        (congrArg some (floatText_eq _)) ?_
      show canonicalNumber lib w = _
      rw [canonicalNumber, if_neg (by simp [hint])]

/-- A string of the manifest, which is no sentinel. -/
structure Plain (sentinel : JsStr) (sentinels : Sentinels) (s : PyStr) : Prop where
  python : PyString s
  notKey : utf16 s ≠ sentinel
  notMarker : sentinels.lookup (utf16 s) = none

/-- Both sides write the same literal of one string. -/
theorem jsonString_utf16 {s : PyStr} (h : ∀ c ∈ s, c < 0x110000) :
    jsonString (utf16 s) = dumpsStr s := by
  rw [jsonString_eq (utf16_lt h), dumpsStr_utf16 h]

/-- Lists agree where their items do. -/
theorem agrees_items {items : List Doc} {xs : List Loaded}
    (ih : ∀ d ∈ items, ∀ x, load lib.number d = some x → Agrees lib sentinel sentinels d x)
    (h : loadItems lib.number items = some xs) :
    ∃ values texts, strictItems (Doc.rewriteItems (change sentinel sentinels) items) = some values ∧
      Loaded.dumpsItems xs = some texts ∧
      canonicalItems lib (nullPrototypeItems sentinel sentinels values) = .ok texts := by
  induction items generalizing xs with
  | nil =>
      obtain rfl : [] = xs := Option.some.inj h
      exact ⟨[], [], rfl, rfl, rfl⟩
  | cons d items ihl =>
      obtain ⟨x, hx, hrest⟩ := Option.bind_eq_some_iff.1 h
      obtain ⟨xs', hxs', rfl⟩ := Option.map_eq_some_iff.1 hrest
      obtain ⟨value, text, hvalue, htext, hcanonical⟩ := ih d List.mem_cons_self x hx
      obtain ⟨values, texts, hvalues, htexts, hcanonicals⟩ :=
        ihl (fun d' hd' => ih d' (List.mem_cons_of_mem _ hd')) hxs'
      refine ⟨value :: values, text :: texts, ?_, ?_, ?_⟩
      · rw [Doc.rewriteItems, strictItems, hvalue, Option.bind_some, hvalues]
        rfl
      · rw [Loaded.dumpsItems, htext, Option.bind_some, htexts]
        rfl
      · rw [nullPrototypeItems, canonicalItems, hcanonical, Except.bind, hcanonicals]
        rfl

/-- Entries agree where their values do, key by key. -/
theorem agrees_entries {entries : List (PyStr × Doc)} {xs : List (PyStr × Loaded)}
    (ih : ∀ e ∈ entries, ∀ x, load lib.number e.2 = some x → Agrees lib sentinel sentinels e.2 x)
    (h : loadEntries lib.number entries = some xs) :
    ∃ values texts,
      strictEntries (Doc.rewriteEntries (change sentinel sentinels) entries) = some values ∧
      Loaded.dumpsDict xs = some texts ∧ xs.map (·.1) = entries.map (·.1) ∧
      texts.map (·.1) = entries.map (·.1) ∧
      canonicalEntries lib (nullPrototypeEntries sentinel sentinels values) =
        .ok (texts.map fun e => ((change sentinel sentinels).key e.1, e.2)) := by
  induction entries generalizing xs with
  | nil =>
      obtain rfl : [] = xs := Option.some.inj h
      exact ⟨[], [], rfl, rfl, rfl, rfl, rfl⟩
  | cons e entries ihl =>
      obtain ⟨key, d⟩ := e
      obtain ⟨x, hx, hrest⟩ := Option.bind_eq_some_iff.1 h
      obtain ⟨xs', hxs', rfl⟩ := Option.map_eq_some_iff.1 hrest
      obtain ⟨value, text, hvalue, htext, hcanonical⟩ := ih _ List.mem_cons_self x hx
      obtain ⟨values, texts, hvalues, htexts, hkeys, htextKeys, hcanonicals⟩ :=
        ihl (fun e' he' => ih e' (List.mem_cons_of_mem _ he')) hxs'
      refine ⟨((change sentinel sentinels).key key, value) :: values, (key, text) :: texts,
        ?_, ?_, ?_, ?_, ?_⟩
      · rw [Doc.rewriteEntries, strictEntries, hvalue, Option.bind_some, hvalues]
        rfl
      · rw [Loaded.dumpsDict, htext, Option.bind_some, htexts]
        rfl
      · rw [List.map_cons, List.map_cons, hkeys]
      · rw [List.map_cons, List.map_cons, htextKeys]
      · rw [nullPrototypeEntries]
        exact canonicalEntries_cons.2 ⟨text, _, hcanonical, hcanonicals, rfl⟩

/-- The record of changed keys has the keys of the manifest again. -/
theorem rename_change {k : PyStr} (h : Plain sentinel sentinels k) :
    (if (change sentinel sentinels).key k = sentinel then protoKey
      else (change sentinel sentinels).key k) = utf16 k := by
  have hkey : (change sentinel sentinels).key k =
      if utf16 k = protoKey then sentinel else utf16 k := rfl
  rw [hkey]
  by_cases hproto : utf16 k = protoKey
  · rw [if_pos hproto, if_pos rfl, hproto]
  · rw [if_neg hproto, if_neg h.notKey]

/-- Different strings of Python have different code units. -/
theorem utf16_inj {k k' : PyStr} (hk : PyString k) (hk' : PyString k')
    (h : utf16 k = utf16 k') : k = k' := by
  rw [← points_utf16 hk.1 hk.2, h, points_utf16 hk'.1 hk'.2]

/-- **Agreement.**  Both sides write a document alike. -/
theorem agrees_doc (hproper : sentinels.Proper) {d : Doc} {x : Loaded}
    (hkeys : d.distinctKeys = true)
    (hplain : ∀ tok ∈ d.toks, ∀ s, tok = .str s → Plain sentinel sentinels s)
    (h : load lib.number d = some x) : Agrees lib sentinel sentinels d x := by
  induction d using Doc.induct generalizing x with
  | word w => exact agrees_word hproper (wordLoads_of_loadWord h)
  | str s =>
      obtain rfl := Option.some.inj h
      have hs := hplain (.str s) List.mem_cons_self s rfl
      refine ⟨.str (utf16 s), dumpsStr s, rfl, rfl, ?_⟩
      rw [nullPrototypeRecords, hs.notMarker, ← jsonString_utf16 hs.python.2]
      rfl
  | arr items ih =>
      rw [Doc.distinctKeys, Doc.distinctItems_iff] at hkeys
      rw [Doc.forall_toks_arr (by simp)] at hplain
      obtain ⟨xs, hxs, rfl⟩ := load_arr h
      obtain ⟨values, texts, hvalues, htexts, hcanonical⟩ := agrees_items
        (fun d hd x hx => ih d hd (hkeys d hd) (hplain d hd) hx) hxs
      refine ⟨.arr values, 0x5B :: PyStr.join [0x2C] texts ++ [0x5D], ?_, ?_, ?_⟩
      · rw [Doc.rewrite, strictValue, hvalues]
        rfl
      · rw [Loaded.dumps, htexts]
        rfl
      · rw [nullPrototypeRecords, canonicalJson, hcanonical]
        rfl
  | obj entries ih =>
      rw [Doc.distinctKeys, Bool.and_eq_true, decide_eq_true_eq, Doc.distinctEntries_iff] at hkeys
      rw [Doc.forall_toks_obj (by simp)] at hplain
      obtain ⟨xs, hxs, rfl⟩ := load_obj h
      obtain ⟨values, texts, hvalues, htexts, hxsKeys, htextKeys, hcanonical⟩ := agrees_entries
        (fun e he x hx => ih e he (hkeys.2 e he) (hplain e he).2 hx) hxs
      have hplainText : ∀ e ∈ texts, Plain sentinel sentinels e.1 := by
        intro e he
        have hmem : e.1 ∈ entries.map (·.1) := by
          rw [← htextKeys]
          exact List.mem_map_of_mem he
        obtain ⟨e', he', heq⟩ := List.mem_map.1 hmem
        rw [← heq]
        exact (hplain e' he').1 _ rfl
      have hnodup : (texts.map (·.1)).Nodup := by
        rw [htextKeys]
        exact hkeys.1
      have hdict : dictOf xs = xs := dictOf_of_nodup (by rw [hxsKeys]; exact hkeys.1)
      -- the record of the buyer, in the order of its own keys
      obtain ⟨own, hown, hperm⟩ := canonicalEntries_perm
        (ownEntries_perm (nullPrototypeEntries sentinel sentinels values)).symm hcanonical
      have hrenamed := canonicalEntries_rename
        (fun key => if key = sentinel then protoKey else key) hown
      have hownKeys : (own.map fun e => (if e.1 = sentinel then protoKey else e.1, e.2)).Perm
          (texts.map fun e => (utf16 e.1, e.2)) := by
        refine (hperm.symm.map _).trans ?_
        rw [List.map_map]
        refine List.Perm.of_eq (List.map_congr_left ?_)
        intro e he
        exact congrArg (·, e.2) (rename_change (hplainText e he))
      have hkeysOwn : (((ownEntries (nullPrototypeEntries sentinel sentinels values)).map
          fun e => (if e.1 = sentinel then protoKey else e.1, e.2)).map (·.1)).Nodup := by
        rw [← canonicalEntries_keys hrenamed, (hownKeys.map (·.1)).nodup_iff, List.map_map]
        have hunits := (List.nodup_map_iff_inj_on (f := utf16) hnodup).2 (by
          intro k hk k' hk' heq
          obtain ⟨e, he, rfl⟩ := List.mem_map.1 hk
          obtain ⟨e', he', rfl⟩ := List.mem_map.1 hk'
          exact utf16_inj (hplainText e he).python (hplainText e' he').python heq)
        rw [List.map_map] at hunits
        exact hunits
      have hrecord : (ownEntries (nullPrototypeEntries sentinel sentinels values)).foldl
          (fun record e => dictSet record (if e.1 = sentinel then protoKey else e.1) e.2) [] =
          (ownEntries (nullPrototypeEntries sentinel sentinels values)).map
            fun e => (if e.1 = sentinel then protoKey else e.1, e.2) := by
        rw [← dictOf_of_nodup hkeysOwn, dictOf, List.foldl_map]
      have hlines : ((sortedKeys (own.map fun e =>
          (if e.1 = sentinel then protoKey else e.1, e.2))).map
            fun e => jsonString e.1 ++ 0x3A :: e.2) =
          (sortedEntries texts).map fun e => dumpsStr e.1 ++ 0x3A :: e.2 := by
        rw [sortedKeys_eq hownKeys hnodup fun e he => (hplainText e he).python, List.map_map]
        refine List.map_congr_left ?_
        intro e he
        have hstring := (hplainText e ((sortedEntries_perm texts).mem_iff.1 he)).python
        exact congrArg (· ++ 0x3A :: e.2) (jsonString_utf16 hstring.2)
      refine ⟨.obj values, 0x7B :: dumpsEntries (sortedEntries texts) ++ [0x7D], ?_, ?_, ?_⟩
      · rw [Doc.rewrite, strictValue, hvalues]
        rfl
      · rw [hdict, Loaded.dumps, htexts]
        rfl
      · rw [nullPrototypeRecords, hrecord, canonicalJson, hrenamed, dumpsEntries, ← hlines]
        rfl

end agreement

/-! ## A strict parser -/

/-- One step of the scanner reads a code unit. -/
theorem UnitStep.unit_lt {text rest : List Nat} {u : Nat} (h : UnitStep text (some u) rest)
    (htext : ∀ c ∈ text, c < 0x10000) : u < 0x10000 := by
  cases h with
  | unit hex => exact (hexValue4_some hex).1
  | short he hu =>
      have := escaped_lt hu
      omega
  | plain hquote hslash hlow => exact htext u List.mem_cons_self

/-- The scanner reads code units. -/
theorem scanUnits_lt {text value rest : List Nat} (htext : ∀ u ∈ text, u < 0x10000)
    (h : scanUnits text = some (value, rest)) : ∀ u ∈ value, u < 0x10000 := by
  induction hlength : text.length using Nat.strong_induction_on generalizing text value with
  | _ n ih =>
      obtain ⟨-, rfl⟩ | ⟨u, after, value', hstep, hscan, rfl⟩ := scanUnits_step h
      · simp
      · have hu := hstep.unit_lt htext
        obtain ⟨head, hne, rfl, -⟩ := hstep.local
        have hpos := List.length_pos_iff.2 hne
        refine List.forall_mem_cons.2 ⟨hu, ih after.length ?_ ?_ hscan rfl⟩
        · rw [← hlength, List.length_append]
          omega
        · exact fun u hu => htext u (List.mem_append_right _ hu)

/-- The strings of a text of code units are made of code units. -/
theorem read_units {text : JsStr} {d : Doc} (htext : ∀ u ∈ text, u < 0x10000)
    (h : read scanUnits text = some d) :
    ∀ tok ∈ d.toks, ∀ s, tok = .str s → ∀ u ∈ s, u < 0x10000 := by
  obtain ⟨ls, rfl, hlexed, hreads⟩ := read_eq_some h scanUnits_local
  intro tok htok s hs
  rw [← Doc.reads_iff.1 hreads, hs] at htok
  obtain ⟨l, hl, hlTok⟩ := List.mem_filterMap.1 htok
  cases l with
  | str literal value =>
      obtain rfl : value = s := by simpa [Lexeme.tok] using hlTok
      obtain ⟨body, rfl, hbody⟩ := hlexed.each _ hl
      refine scanUnits_lt ?_ (hbody [])
      intro u hu
      rw [List.append_nil] at hu
      exact htext u (List.mem_flatMap.2 ⟨_, hl, List.mem_cons_of_mem _ hu⟩)
  | _ => cases hlTok

/-- The value of a word holds code units. -/
theorem strictWord_units {w : JsStr} {v : JsonValue Empty} (h : strictWord w = some v) :
    v.units = true := by
  unfold strictWord at h
  split_ifs at h
  · rw [← Option.some.inj h]
    rfl
  · rw [← Option.some.inj h]
    rfl
  · rw [← Option.some.inj h]
    rfl
  · rw [← Option.some.inj h]
    rfl

/-- The value of a document holds code units. -/
theorem strictValue_units {d : Doc} {v : JsonValue Empty}
    (hstr : ∀ tok ∈ d.toks, ∀ s, tok = .str s → ∀ u ∈ s, u < 0x10000)
    (h : strictValue d = some v) : v.units = true := by
  induction d using Doc.induct generalizing v with
  | word w => exact strictWord_units h
  | str s =>
      rw [← Option.some.inj h, JsonValue.units]
      simpa using hstr (.str s) List.mem_cons_self s rfl
  | arr items ih =>
      rw [Doc.forall_toks_arr (by simp)] at hstr
      obtain ⟨values, hvalues, rfl⟩ := Option.map_eq_some_iff.1 h
      clear h
      rw [JsonValue.units]
      induction items generalizing values with
      | nil =>
          rw [← Option.some.inj hvalues]
          rfl
      | cons d items ihl =>
          obtain ⟨value, hvalue, hrest⟩ := Option.bind_eq_some_iff.1 hvalues
          obtain ⟨values', hvalues', rfl⟩ := Option.map_eq_some_iff.1 hrest
          have htail := ihl (fun d' hd' => ih d' (List.mem_cons_of_mem _ hd'))
            (fun d' hd' => hstr d' (List.mem_cons_of_mem _ hd')) values' hvalues'
          rw [JsonValue.unitsList, ih d List.mem_cons_self (hstr d List.mem_cons_self) hvalue,
            htail]
          rfl
  | obj entries ih =>
      rw [Doc.forall_toks_obj (by simp)] at hstr
      obtain ⟨values, hvalues, rfl⟩ := Option.map_eq_some_iff.1 h
      clear h
      rw [JsonValue.units]
      induction entries generalizing values with
      | nil =>
          rw [← Option.some.inj hvalues]
          rfl
      | cons e entries ihl =>
          obtain ⟨value, hvalue, hrest⟩ := Option.bind_eq_some_iff.1 hvalues
          obtain ⟨values', hvalues', rfl⟩ := Option.map_eq_some_iff.1 hrest
          have htail := ihl (fun e' he' => ih e' (List.mem_cons_of_mem _ he'))
            (fun e' he' => hstr e' (List.mem_cons_of_mem _ he')) values' hvalues'
          obtain ⟨hkey, hitem⟩ := hstr e List.mem_cons_self
          have hkeyUnits : (e.1.all fun u => decide (u < 0x10000)) = true := by
            simpa using hkey e.1 rfl
          rw [JsonValue.unitsEntries, hkeyUnits, ih e List.mem_cons_self hitem hvalue, htail]
          rfl

/-- A runtime whose parser is strict; it knows one float beside zero. -/
def strictLib : Lib where
  parse text :=
    if ∀ u ∈ text, u < 0x10000 then (read scanUnits text).bind strictValue else none
  parse_units text v h := by
    split at h
    · rename_i htext
      obtain ⟨d, hread, hvalue⟩ := Option.bind_eq_some_iff.1 h
      exact strictValue_units (read_units htext hread) hvalue
    · cases h
  number lexeme := if lexeme = js "1.5e3" then .finite false 1 [5] 3 else .zero false
  getAddress := Completion.digitAddress
  keccak256 bytes := bytes
  toLowerCase text := text
  keccak_lower _ := rfl

theorem strict_strictLib : strictLib.Strict := by
  intro text d htext hread _ _
  show (if ∀ u ∈ text, u < 0x10000 then (read scanUnits text).bind strictValue else none) = _
  rw [if_pos htext, hread]
  rfl

/-! ## Texts -/

/-- A good word is its own code units. -/
theorem word_of_unitLexeme {ls : List Lexeme} (h : ∀ tok ∈ tokens ls, ∀ w, tok = .word w →
    GoodWord w) {w : JsStr} (hw : Lexeme.word w ∈ ls.map unitLexeme) : GoodWord w := by
  obtain ⟨l, hl, hlw⟩ := List.mem_map.1 hw
  cases l with
  | word text =>
      have hgood : GoodWord text :=
        h (.word text) (List.mem_filterMap.2 ⟨.word text, hl, rfl⟩) text rfl
      have hunits : utf16 text = text :=
        utf16_ascii fun c hc => (isWord_of_nameChar (hgood.1 c hc)).2
      obtain rfl : utf16 text = w := by simpa [unitLexeme] using hlw
      rwa [hunits]
  | _ => cases hlw

/-- **Buyer and seller hash the same manifest.**  For a text of Unicode
characters without a key twice, which `json.loads` and `parseJson` accept,
`canonicalJson(parseJson(raw))` is
`json.dumps(json.loads(raw), sort_keys=True, separators=(",", ":"))`. -/
theorem canonicalJson_parseJson {lib : Lib} (hstrict : lib.Strict) {raw : PyStr}
    (hraw : ∀ c ∈ raw, Scalar c)
    (hkeys : ∀ d, read scanPoints raw = some d → d.distinctKeys = true)
    {x : Loaded} (hseller : loads lib.number raw = some x)
    {v : JsonValue PythonNonFinite} (hbuyer : parseJson lib (utf16 raw) = .ok v) :
    ∃ text, x.dumps = some text ∧ canonicalJson lib v = .ok text := by
  obtain ⟨d, hread, hload⟩ := Option.bind_eq_some_iff.1 hseller
  have hdistinct := hkeys d hread
  obtain ⟨ls, hls, hparse⟩ := Option.bind_eq_some_iff.1 hread
  have htoks : tokens ls = d.toks := Doc.reads_iff.1 (parse_eq_some.1 hparse)
  obtain ⟨hunits, hstrings⟩ := lexemes_units hraw hls
  obtain ⟨htext, hlexed⟩ := lexemes_sound scanUnits_local hunits
  have htextUnits : ∀ u ∈ textOf (ls.map unitLexeme), u < 0x10000 := by
    rw [htext]
    exact utf16_lt fun c hc => (hraw c hc).2.2
  rw [← htext] at hbuyer
  have hgood : ∀ w, Lexeme.word w ∈ ls.map unitLexeme → GoodWord w := by
    intro w hw
    refine word_of_unitLexeme ?_ hw
    rw [htoks]
    exact load_words hload
  have hscan : Scannable (ls.map unitLexeme) := by
    refine ⟨hlexed, ?_⟩
    intro l hl
    cases l with
    | word w => exact (hgood w hl).1
    | _ => trivial
  have hsettled : ∀ l ∈ ls.map unitLexeme, Lexeme.Settled l := by
    intro l hl
    cases l with
    | word w => exact (hgood w hl).2
    | _ => trivial
  have htoks' : tokens (ls.map unitLexeme) = (d.rewrite unitsOf).toks := by
    rw [tokens_units, htoks, Doc.toks_rewrite]
  rw [htoks] at hstrings
  have hdistinct' : (d.rewrite unitsOf).distinctKeys = true :=
    Doc.distinctKeys_rewrite (P := PyString) (fun _ => rfl) (fun _ _ => utf16_inj) hstrings
      hdistinct
  obtain ⟨sentinel, sentinels, value, hrestored⟩ :=
    parseJson_restored hstrict hscan hsettled htextUnits htoks' hdistinct' hbuyer
  have hplain : ∀ tok ∈ d.toks, ∀ s, tok = .str s → Plain sentinel sentinels s := by
    intro tok htok s hs
    have hpython := hstrings tok htok s hs
    have hmem : JsonText.Tok.str (utf16 s) ∈ tokens (ls.map unitLexeme) := by
      rw [hs, ← htoks] at htok
      obtain ⟨l, hl, hlTok⟩ := List.mem_filterMap.1 htok
      refine List.mem_filterMap.2 ⟨unitLexeme l, List.mem_map_of_mem hl, ?_⟩
      cases l with
      | str literal value =>
          obtain rfl : value = s := by simpa [Lexeme.tok] using hlTok
          rfl
      | _ => cases hlTok
    obtain ⟨hkey, hmarker⟩ := hrestored.plain _ hmem
    exact ⟨hpython, hkey, hmarker⟩
  obtain ⟨value', text, hvalue, hdumps, hcanonical⟩ :=
    agrees_doc hrestored.proper hdistinct hplain hload
  have hsame : value' = value := by
    have hstrictValue := hrestored.strict
    rw [Doc.rewrite_rewrite] at hstrictValue
    exact Option.some.inj (hvalue.symm.trans hstrictValue)
  rw [hsame, ← hrestored.restored] at hcanonical
  exact ⟨text, hdumps, hcanonical⟩

/-- A manifest with an astral key, a key `__proto__`, a lone surrogate and
markers. -/
def sampleRaw : PyStr :=
  py "\x7b\"\\ud83d\\ude00\": [NaN, -0, 1.5e3], \"__proto__\": \"\\ud800\"\x7d"

/-- Both sides accept the sample and write one text. -/
theorem canonicalJson_parseJson_sample :
    ∃ x v, loads strictLib.number sampleRaw = some x ∧
      parseJson strictLib (utf16 sampleRaw) = .ok v ∧
      ∃ text, x.dumps = some text ∧ canonicalJson strictLib v = .ok text := by
  have hraw : ∀ c ∈ sampleRaw, Scalar c := by
    intro c hc
    have hascii : ∀ c ∈ sampleRaw, c < 0x80 := by decide +kernel
    exact scalar_ascii (hascii c hc)
  have hkeys : ((read scanPoints sampleRaw).all Doc.distinctKeys) = true := by decide +kernel
  have hseller : (loads strictLib.number sampleRaw).isSome = true := by decide +kernel
  have hbuyer : (parseJson strictLib (utf16 sampleRaw)).toOption.isSome = true := by
    decide +kernel
  obtain ⟨x, hx⟩ := Option.isSome_iff_exists.1 hseller
  cases hv : parseJson strictLib (utf16 sampleRaw) with
  | error e =>
      rw [hv] at hbuyer
      cases hbuyer
  | ok v =>
      refine ⟨x, v, hx, rfl, ?_⟩
      refine canonicalJson_parseJson strict_strictLib hraw ?_ hx hv
      intro d hd
      rw [hd] at hkeys
      exact hkeys

end Deliverable
