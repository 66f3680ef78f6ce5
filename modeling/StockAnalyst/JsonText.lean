import Mathlib.Data.List.Chain
import StockAnalyst.PyJson

/-!
# JSON texts

The text of a JSON document as lexemes, the lexemes that are not white space
as tokens, and the tokens as a tree.  A word is any run of characters that are
not white space, punctuation or a quote; which words stand for values is up to
the language that reads them, and so is how a string literal is read.

A text can be read in two ways, by the functions `lexemes` and `parse` and by
the relations `Lexed` and `Reads`; the two agree.  The compact ASCII text of a
tree reads back as that tree.
-/

namespace JsonText

open Python

/-- A document: words and strings, in arrays and objects. -/
inductive Doc where
  | word (text : List Nat)
  | str (value : List Nat)
  | arr (items : List Doc)
  | obj (entries : List (List Nat × Doc))

/-- A document is a word, a string, or a container of smaller documents. -/
theorem Doc.induct {P : Doc → Prop} (word : ∀ text, P (.word text))
    (str : ∀ value, P (.str value))
    (arr : ∀ items, (∀ d ∈ items, P d) → P (.arr items))
    (obj : ∀ entries, (∀ e ∈ entries, P e.2) → P (.obj entries)) (d : Doc) : P d :=
  @Doc.rec P (fun items => ∀ d ∈ items, P d) (fun entries => ∀ e ∈ entries, P e.2)
    (fun e => P e.2) word str arr obj (fun _ h => nomatch h)
    (fun _ _ hhead htail => List.forall_mem_cons.2 ⟨hhead, htail⟩)
    (fun _ h => nomatch h)
    (fun _ _ hhead htail => List.forall_mem_cons.2 ⟨hhead, htail⟩)
    (fun _ _ h => h) d

/-! ## Lexemes -/

/-- White space of a JSON text. -/
def isSpace (c : Nat) : Bool := c = 0x20 || c = 0x09 || c = 0x0A || c = 0x0D

/-- `[ ] { } : ,` -/
def isPunct (c : Nat) : Bool :=
  c = 0x5B || c = 0x5D || c = 0x7B || c = 0x7D || c = 0x3A || c = 0x2C

/-- A character of a word. -/
def isWord (c : Nat) : Bool := !isSpace c && !isPunct c && c != 0x22

/-- A piece of a text; a string literal keeps its value. -/
inductive Lexeme where
  | space (c : Nat)
  | punct (c : Nat)
  | word (text : List Nat)
  | str (literal value : List Nat)
  deriving DecidableEq

/-- The characters of a lexeme. -/
def Lexeme.text : Lexeme → List Nat
  | .space c => [c]
  | .punct c => [c]
  | .word text => text
  | .str literal _ => literal

/-- The text the lexemes stand for. -/
def textOf (ls : List Lexeme) : List Nat := ls.flatMap Lexeme.text

@[simp] theorem textOf_nil : textOf [] = [] := rfl

@[simp] theorem textOf_cons (l : Lexeme) (ls : List Lexeme) :
    textOf (l :: ls) = l.text ++ textOf ls := rfl

/-- Texts of lexemes, one after the other. -/
@[simp] theorem textOf_append (ls ms : List Lexeme) :
    textOf (ls ++ ms) = textOf ls ++ textOf ms := List.flatMap_append

/-- How a language reads a string literal after its opening quote: the value,
and what follows the closing quote. -/
abbrev Scan := List Nat → Option (List Nat × List Nat)

/-- The lexemes of a text, read from left to right. -/
def lexemes (scan : Scan) : Nat → List Nat → Option (List Lexeme)
  | _, [] => some []
  | 0, _ :: _ => none
  | fuel + 1, c :: rest =>
      if isSpace c then (lexemes scan fuel rest).map (.space c :: ·)
      else if isPunct c then (lexemes scan fuel rest).map (.punct c :: ·)
      else if c = 0x22 then
        (scan rest).bind fun (value, after) =>
          (lexemes scan fuel after).map
            (.str (c :: rest.take (rest.length - after.length)) value :: ·)
      else
        (lexemes scan fuel (rest.dropWhile isWord)).map
          (.word (c :: rest.takeWhile isWord) :: ·)

/-- The body of a string literal with this value: it is read the same
whatever follows. -/
def Body (scan : Scan) (body value : List Nat) : Prop :=
  ∀ rest, scan (body ++ rest) = some (value, rest)

/-- What is read is read without looking at what follows. -/
def Local (scan : Scan) : Prop :=
  ∀ text value rest, scan text = some (value, rest) →
    ∃ body, text = body ++ rest ∧ Body scan body value

/-- A lexeme that stands for itself. -/
def Lexeme.Ok (scan : Scan) : Lexeme → Prop
  | .space c => isSpace c = true
  | .punct c => isPunct c = true
  | .word text => text ≠ [] ∧ ∀ c ∈ text, isWord c = true
  | .str literal value => ∃ body, literal = 0x22 :: body ∧ Body scan body value

/-- A word does not follow a word. -/
def Apart : Lexeme → Lexeme → Prop
  | .word _, .word _ => False
  | _, _ => True

/-- Lexemes that are those of their text. -/
structure Lexed (scan : Scan) (ls : List Lexeme) : Prop where
  each : ∀ l ∈ ls, l.Ok scan
  apart : ls.IsChain Apart

/-- What follows the first lexeme is lexed. -/
theorem Lexed.tail {scan : Scan} {l : Lexeme} {ls : List Lexeme}
    (h : Lexed scan (l :: ls)) : Lexed scan ls :=
  ⟨fun l' hl' => h.each l' (List.mem_cons_of_mem _ hl'), h.apart.tail⟩

/-- White space lies at or below the blank. -/
theorem isSpace_lt {c : Nat} (h : isSpace c = true) : c ≤ 0x20 ∧ c ≠ 0x22 := by
  simp only [isSpace, Bool.or_eq_true, decide_eq_true_eq] at h
  omega

/-- Punctuation is neither white space nor a quote. -/
theorem isPunct_ne {c : Nat} (h : isPunct c = true) : isSpace c = false ∧ c ≠ 0x22 := by
  simp only [isPunct, Bool.or_eq_true, decide_eq_true_eq] at h
  simp only [isSpace, Bool.or_eq_false_iff, decide_eq_false_iff_not]
  omega

/-- What is nothing else belongs to a word. -/
theorem isWord_iff {c : Nat} :
    isWord c = true ↔ isSpace c = false ∧ isPunct c = false ∧ c ≠ 0x22 := by
  simp [isWord, and_assoc]

/-- A lexeme has at least one character. -/
theorem Lexeme.Ok.length_pos {scan : Scan} {l : Lexeme} (h : l.Ok scan) :
    0 < l.text.length := by
  cases l with
  | space c => simp [Lexeme.text]
  | punct c => simp [Lexeme.text]
  | word text => exact List.length_pos_iff.2 h.1
  | str literal value =>
      obtain ⟨body, rfl, -⟩ := h
      simp [Lexeme.text]

/-- Every lexeme has a character at least. -/
theorem Lexed.length_le {scan : Scan} {ls : List Lexeme} (h : Lexed scan ls) :
    ls.length ≤ (textOf ls).length := by
  induction ls with
  | nil => simp
  | cons l ls ih =>
      have hpos := (h.each l List.mem_cons_self).length_pos
      have htail := ih h.tail
      simp only [textOf_cons, List.length_append, List.length_cons]
      omega

/-- What starts with no character of a word starts with no word. -/
theorem Lexed.head_apart {scan : Scan} {text : List Nat} {ls : List Lexeme}
    (h : Lexed scan ls) (hhead : ∀ c ∈ (textOf ls).head?, isWord c = false) :
    ∀ l ∈ ls.head?, Apart (.word text) l := by
  cases ls with
  | nil => simp
  | cons l ls =>
      intro l' hl'
      obtain rfl : l = l' := by simpa using hl'
      cases l with
      | word word =>
          obtain ⟨hne, hword⟩ := h.each _ List.mem_cons_self
          obtain ⟨c, rest, rfl⟩ := List.exists_cons_of_ne_nil hne
          have hc := hhead c (by simp [Lexeme.text])
          rw [hword c List.mem_cons_self] at hc
          cases hc
      | _ => trivial

/-- The lexemes read from a text are lexemes of that text. -/
theorem lexemes_sound {scan : Scan} (hlocal : Local scan) {fuel : Nat} {text : List Nat}
    {ls : List Lexeme} (h : lexemes scan fuel text = some ls) :
    textOf ls = text ∧ Lexed scan ls := by
  induction fuel generalizing text ls with
  | zero =>
      cases text with
      | nil =>
          obtain rfl : [] = ls := by simpa [lexemes] using h
          exact ⟨rfl, by simp, by simp⟩
      | cons c rest => simp [lexemes] at h
  | succ fuel ih =>
      cases text with
      | nil =>
          obtain rfl : [] = ls := by simpa [lexemes] using h
          exact ⟨rfl, by simp, by simp⟩
      | cons c rest =>
          rw [lexemes] at h
          by_cases hspace : isSpace c = true
          · rw [if_pos hspace] at h
            obtain ⟨ls', hls', rfl⟩ := Option.map_eq_some_iff.1 h
            obtain ⟨htext, hlexed⟩ := ih hls'
            refine ⟨by simp [Lexeme.text, htext], ?_, ?_⟩
            · exact List.forall_mem_cons.2 ⟨hspace, hlexed.each⟩
            · exact List.isChain_cons.2 ⟨fun l _ => trivial, hlexed.apart⟩
          rw [if_neg hspace] at h
          by_cases hpunct : isPunct c = true
          · rw [if_pos hpunct] at h
            obtain ⟨ls', hls', rfl⟩ := Option.map_eq_some_iff.1 h
            obtain ⟨htext, hlexed⟩ := ih hls'
            refine ⟨by simp [Lexeme.text, htext], ?_, ?_⟩
            · exact List.forall_mem_cons.2 ⟨hpunct, hlexed.each⟩
            · exact List.isChain_cons.2 ⟨fun l _ => trivial, hlexed.apart⟩
          rw [if_neg hpunct] at h
          by_cases hquote : c = 0x22
          · rw [if_pos hquote] at h
            obtain ⟨⟨value, after⟩, hscan, hrest⟩ := Option.bind_eq_some_iff.1 h
            obtain ⟨ls', hls', rfl⟩ := Option.map_eq_some_iff.1 hrest
            obtain ⟨htext, hlexed⟩ := ih hls'
            obtain ⟨body, rfl, hbody⟩ := hlocal _ _ _ hscan
            have htake : (body ++ after).take ((body ++ after).length - after.length) =
                body := by
              simp
            rw [htake]
            refine ⟨by simp [Lexeme.text, htext], ?_, ?_⟩
            · exact List.forall_mem_cons.2 ⟨⟨body, by rw [hquote], hbody⟩, hlexed.each⟩
            · exact List.isChain_cons.2 ⟨fun l _ => trivial, hlexed.apart⟩
          rw [if_neg hquote] at h
          obtain ⟨ls', hls', rfl⟩ := Option.map_eq_some_iff.1 h
          obtain ⟨htext, hlexed⟩ := ih hls'
          have hword : isWord c = true :=
            isWord_iff.2 ⟨by simpa using hspace, by simpa using hpunct, hquote⟩
          refine ⟨?_, ?_, ?_⟩
          · simp [Lexeme.text, htext, List.takeWhile_append_dropWhile]
          · refine List.forall_mem_cons.2 ⟨⟨by simp, ?_⟩, hlexed.each⟩
            refine List.forall_mem_cons.2 ⟨hword, ?_⟩
            intro c' hc'
            exact List.all_eq_true.1 List.all_takeWhile c' hc'
          · refine List.isChain_cons.2 ⟨hlexed.head_apart ?_, hlexed.apart⟩
            intro c' hc'
            rw [htext] at hc'
            have hdrop := List.head?_dropWhile_not isWord rest
            cases hhead : (rest.dropWhile isWord).head? with
            | none => simp [hhead] at hc'
            | some c'' =>
                rw [hhead] at hc' hdrop
                obtain rfl : c'' = c' := by simpa using hc'
                simpa using hdrop

/-- Lexemes are read from their text. -/
theorem lexemes_complete {scan : Scan} {fuel : Nat} {ls : List Lexeme}
    (h : Lexed scan ls) (hfuel : ls.length ≤ fuel) :
    lexemes scan fuel (textOf ls) = some ls := by
  induction ls generalizing fuel with
  | nil => cases fuel <;> rfl
  | cons l ls ih =>
      obtain ⟨fuel, rfl⟩ : ∃ n, fuel = n + 1 :=
        ⟨fuel - 1, by simp only [List.length_cons] at hfuel; omega⟩
      have htail := ih h.tail (Nat.le_of_succ_le_succ hfuel)
      have hok := h.each l List.mem_cons_self
      cases l with
      | space c => simp [Lexeme.text, lexemes, show isSpace c = true from hok, htail]
      | punct c =>
          obtain ⟨hspace, -⟩ := isPunct_ne hok
          simp [Lexeme.text, lexemes, hspace, show isPunct c = true from hok, htail]
      | str literal value =>
          obtain ⟨body, rfl, hbody⟩ := hok
          have hspace : isSpace 0x22 = false := by decide
          have hpunct : isPunct 0x22 = false := by decide
          simp [Lexeme.text, lexemes, hspace, hpunct, hbody (textOf ls), htail]
      | word text =>
          obtain ⟨hne, hword⟩ := hok
          obtain ⟨c, rest, rfl⟩ := List.exists_cons_of_ne_nil hne
          obtain ⟨hspace, hpunct, hquote⟩ := isWord_iff.1 (hword c List.mem_cons_self)
          have hrest : ∀ c' ∈ rest, isWord c' = true :=
            fun c' hc' => hword c' (List.mem_cons_of_mem _ hc')
          have hstop : (textOf ls).takeWhile isWord = [] := by
            cases ls with
            | nil => rfl
            | cons l' ls' =>
                have hok' := h.each l' (by simp)
                have hapart := (List.isChain_cons_cons.1 h.apart).1
                cases l' with
                | word _ => exact hapart.elim
                | space c' =>
                    have hc' : isSpace c' = true := hok'
                    simp [Lexeme.text, isWord, hc']
                | punct c' =>
                    have hc' : isPunct c' = true := hok'
                    simp [Lexeme.text, isWord, hc']
                | str literal value =>
                    obtain ⟨body, rfl, -⟩ := hok'
                    simp [Lexeme.text, isWord]
          have hdrop : (textOf ls).dropWhile isWord = textOf ls := by
            have hsplit := List.takeWhile_append_dropWhile (p := isWord) (l := textOf ls)
            rwa [hstop, List.nil_append] at hsplit
          simp only [textOf_cons, Lexeme.text, List.cons_append, lexemes, hspace, hpunct,
            hquote, Bool.false_eq_true, if_false]
          rw [List.takeWhile_append_of_pos hrest, List.dropWhile_append_of_pos hrest, hstop,
            hdrop, htail]
          simp

/-! ## Tokens -/

/-- A lexeme without its spelling. -/
inductive Tok where
  | punct (c : Nat)
  | word (text : List Nat)
  | str (value : List Nat)
  deriving DecidableEq

/-- The token of a lexeme; white space has none. -/
def Lexeme.tok : Lexeme → Option Tok
  | .space _ => none
  | .punct c => some (.punct c)
  | .word text => some (.word text)
  | .str _ value => some (.str value)

def tokens (ls : List Lexeme) : List Tok := ls.filterMap Lexeme.tok

@[simp] theorem tokens_nil : tokens [] = [] := rfl

@[simp] theorem tokens_space (c : Nat) (ls : List Lexeme) :
    tokens (.space c :: ls) = tokens ls := rfl

@[simp] theorem tokens_punct (c : Nat) (ls : List Lexeme) :
    tokens (.punct c :: ls) = .punct c :: tokens ls := rfl

@[simp] theorem tokens_word (text : List Nat) (ls : List Lexeme) :
    tokens (.word text :: ls) = .word text :: tokens ls := rfl

@[simp] theorem tokens_str (literal value : List Nat) (ls : List Lexeme) :
    tokens (.str literal value :: ls) = .str value :: tokens ls := rfl

mutual

/-- A value at the start of the tokens, and what follows it. -/
def parseValue : Nat → List Tok → Option (Doc × List Tok)
  | 0, _ => none
  | _ + 1, [] => none
  | _ + 1, .word text :: rest => some (.word text, rest)
  | _ + 1, .str value :: rest => some (.str value, rest)
  | fuel + 1, .punct c :: rest =>
      if c = 0x5B then
        if rest.head? = some (.punct 0x5D) then some (.arr [], rest.tail)
        else (parseItems fuel rest).map fun (items, after) => (.arr items, after)
      else if c = 0x7B then
        if rest.head? = some (.punct 0x7D) then some (.obj [], rest.tail)
        else (parseEntries fuel rest).map fun (entries, after) => (.obj entries, after)
      else none

/-- The items of an array, up to its closing bracket. -/
def parseItems : Nat → List Tok → Option (List Doc × List Tok)
  | 0, _ => none
  | fuel + 1, toks =>
      (parseValue fuel toks).bind fun
        | (d, .punct c :: rest) =>
            if c = 0x2C then
              (parseItems fuel rest).map fun (items, after) => (d :: items, after)
            else if c = 0x5D then some ([d], rest)
            else none
        | _ => none

/-- The entries of an object, up to its closing brace. -/
def parseEntries : Nat → List Tok → Option (List (List Nat × Doc) × List Tok)
  | fuel + 1, .str key :: .punct colon :: toks =>
      if colon = 0x3A then
        (parseValue fuel toks).bind fun
          | (d, .punct c :: rest) =>
              if c = 0x2C then
                (parseEntries fuel rest).map fun (entries, after) =>
                  ((key, d) :: entries, after)
              else if c = 0x7D then some ([(key, d)], rest)
              else none
          | _ => none
      else none
  | _, _ => none

end

/-- The document whose tokens these are. -/
def parse (toks : List Tok) : Option Doc :=
  match parseValue toks.length toks with
  | some (d, []) => some d
  | _ => none

/-- The document of a text. -/
def read (scan : Scan) (text : List Nat) : Option Doc :=
  (lexemes scan text.length text).bind fun ls => parse (tokens ls)

/-- What a run of tokens stands for inside a document. -/
inductive Part where
  | value (d : Doc)
  | items (ds : List Doc)
  | entries (es : List (List Nat × Doc))

/-- The tokens start with this part, and these follow it. -/
inductive Reads : List Tok → Part → List Tok → Prop
  | word {text rest} : Reads (.word text :: rest) (.value (.word text)) rest
  | str {value rest} : Reads (.str value :: rest) (.value (.str value)) rest
  | nil {rest} : Reads (.punct 0x5B :: .punct 0x5D :: rest) (.value (.arr [])) rest
  | arr {toks ds rest} (items : Reads toks (.items ds) rest) :
      Reads (.punct 0x5B :: toks) (.value (.arr ds)) rest
  | empty {rest} : Reads (.punct 0x7B :: .punct 0x7D :: rest) (.value (.obj [])) rest
  | obj {toks es rest} (entries : Reads toks (.entries es) rest) :
      Reads (.punct 0x7B :: toks) (.value (.obj es)) rest
  | item {toks d rest} (value : Reads toks (.value d) (.punct 0x5D :: rest)) :
      Reads toks (.items [d]) rest
  | items {toks d mid ds rest} (value : Reads toks (.value d) (.punct 0x2C :: mid))
      (more : Reads mid (.items ds) rest) : Reads toks (.items (d :: ds)) rest
  | entry {key toks d rest} (value : Reads toks (.value d) (.punct 0x7D :: rest)) :
      Reads (.str key :: .punct 0x3A :: toks) (.entries [(key, d)]) rest
  | entries {key toks d mid es rest} (value : Reads toks (.value d) (.punct 0x2C :: mid))
      (more : Reads mid (.entries es) rest) :
      Reads (.str key :: .punct 0x3A :: toks) (.entries ((key, d) :: es)) rest

/-- The parser returns the part. -/
def Part.Parsed (fuel : Nat) (toks rest : List Tok) : Part → Prop
  | .value d => parseValue fuel toks = some (d, rest)
  | .items ds => parseItems fuel toks = some (ds, rest)
  | .entries es => parseEntries fuel toks = some (es, rest)

/-- A part has at least one token. -/
theorem Reads.length_lt {toks rest : List Tok} {part : Part} (h : Reads toks part rest) :
    rest.length < toks.length := by
  induction h with
  | word => simp
  | str => simp
  | nil => simp only [List.length_cons]; omega
  | arr _ ih => simp only [List.length_cons]; omega
  | empty => simp only [List.length_cons]; omega
  | obj _ ih => simp only [List.length_cons]; omega
  | item _ ih => simp only [List.length_cons] at ih; omega
  | items _ _ ihv ihm => simp only [List.length_cons] at ihv; omega
  | entry _ ih => simp only [List.length_cons] at ih ⊢; omega
  | entries _ _ ihv ihm => simp only [List.length_cons] at ihv ⊢; omega

/-- No item starts with the closing bracket. -/
theorem Reads.items_head {toks rest : List Tok} {ds : List Doc}
    (h : Reads toks (.items ds) rest) : toks.head? ≠ some (.punct 0x5D) := by
  cases h with
  | item value => cases value <;> simp
  | items value _ => cases value <;> simp

/-- Entries do not begin with a closing brace. -/
theorem Reads.entries_head {toks rest : List Tok} {es : List (List Nat × Doc)}
    (h : Reads toks (.entries es) rest) : toks.head? ≠ some (.punct 0x7D) := by
  cases h <;> simp

/-- What the parser returns is there. -/
theorem parsed_reads (fuel : Nat) : ∀ {toks rest : List Tok} {part : Part},
    part.Parsed fuel toks rest → Reads toks part rest := by
  induction fuel with
  | zero =>
      intro toks rest part h
      cases part with
      | value d => simp [Part.Parsed, parseValue] at h
      | items ds => simp [Part.Parsed, parseItems] at h
      | entries es => simp [Part.Parsed, parseEntries] at h
  | succ fuel ih =>
      intro toks rest part h
      cases part with
      | value d =>
          simp only [Part.Parsed] at h
          cases toks with
          | nil => simp [parseValue] at h
          | cons tok toks =>
              cases tok with
              | word text =>
                  simp only [parseValue, Option.some.injEq, Prod.mk.injEq] at h
                  obtain ⟨rfl, rfl⟩ := h
                  exact .word
              | str value =>
                  simp only [parseValue, Option.some.injEq, Prod.mk.injEq] at h
                  obtain ⟨rfl, rfl⟩ := h
                  exact .str
              | punct c =>
                  rw [parseValue] at h
                  by_cases hopen : c = 0x5B
                  · subst hopen
                    rw [if_pos rfl] at h
                    by_cases hclose : toks.head? = some (.punct 0x5D)
                    · rw [if_pos hclose] at h
                      obtain ⟨toks, rfl⟩ := List.head?_eq_some_iff.1 hclose
                      obtain ⟨rfl, rfl⟩ : Doc.arr [] = d ∧ toks = rest := by simpa using h
                      exact .nil
                    · rw [if_neg hclose] at h
                      obtain ⟨⟨items, after⟩, hitems, heq⟩ := Option.map_eq_some_iff.1 h
                      obtain ⟨rfl, rfl⟩ := Prod.mk.inj heq
                      exact .arr (@ih _ _ (.items items) hitems)
                  rw [if_neg hopen] at h
                  by_cases hbrace : c = 0x7B
                  · subst hbrace
                    rw [if_pos rfl] at h
                    by_cases hclose : toks.head? = some (.punct 0x7D)
                    · rw [if_pos hclose] at h
                      obtain ⟨toks, rfl⟩ := List.head?_eq_some_iff.1 hclose
                      obtain ⟨rfl, rfl⟩ : Doc.obj [] = d ∧ toks = rest := by simpa using h
                      exact .empty
                    · rw [if_neg hclose] at h
                      obtain ⟨⟨entries, after⟩, hentries, heq⟩ := Option.map_eq_some_iff.1 h
                      obtain ⟨rfl, rfl⟩ := Prod.mk.inj heq
                      exact .obj (@ih _ _ (.entries entries) hentries)
                  · rw [if_neg hbrace] at h
                    cases h
      | items ds =>
          simp only [Part.Parsed, parseItems] at h
          obtain ⟨⟨d, after⟩, hvalue, hnext⟩ := Option.bind_eq_some_iff.1 h
          have hd := @ih _ _ (.value d) hvalue
          split at hnext
          · rename_i heq
            obtain ⟨rfl, rfl⟩ := Prod.mk.inj heq
            split at hnext
            · rename_i hcomma
              subst hcomma
              obtain ⟨⟨items, last⟩, hitems, heq'⟩ := Option.map_eq_some_iff.1 hnext
              obtain ⟨rfl, rfl⟩ := Prod.mk.inj heq'
              exact .items hd (@ih _ _ (.items items) hitems)
            · split at hnext
              · rename_i hclose
                subst hclose
                obtain ⟨rfl, rfl⟩ : [_] = ds ∧ _ = rest := by simpa using hnext
                exact .item hd
              · cases hnext
          · cases hnext
      | entries es =>
          simp only [Part.Parsed] at h
          match toks, h with
          | .str key :: .punct colon :: toks, h =>
              rw [parseEntries] at h
              by_cases hcolon : colon = 0x3A
              · subst hcolon
                rw [if_pos rfl] at h
                obtain ⟨⟨d, after⟩, hvalue, hnext⟩ := Option.bind_eq_some_iff.1 h
                have hd := @ih _ _ (.value d) hvalue
                split at hnext
                · rename_i heq
                  obtain ⟨rfl, rfl⟩ := Prod.mk.inj heq
                  split at hnext
                  · rename_i hcomma
                    subst hcomma
                    obtain ⟨⟨entries, last⟩, hentries, heq'⟩ := Option.map_eq_some_iff.1 hnext
                    obtain ⟨rfl, rfl⟩ := Prod.mk.inj heq'
                    exact .entries hd (@ih _ _ (.entries entries) hentries)
                  · split at hnext
                    · rename_i hclose
                      subst hclose
                      obtain ⟨rfl, rfl⟩ : [_] = es ∧ _ = rest := by simpa using hnext
                      exact .entry hd
                    · cases hnext
                · cases hnext
              · rw [if_neg hcolon] at h
                cases h

/-- What is there is returned, with fuel for its tokens. -/
theorem Reads.parsed {toks rest : List Tok} {part : Part} (h : Reads toks part rest) :
    ∀ fuel, toks.length ≤ fuel + rest.length → part.Parsed fuel toks rest := by
  have hsucc : ∀ {toks rest : List Tok} {part : Part} {fuel : Nat},
      Reads toks part rest → toks.length ≤ fuel + rest.length → ∃ n, fuel = n + 1 := by
    intro toks rest part fuel hreads hfuel
    have hlt := hreads.length_lt
    exact ⟨fuel - 1, by omega⟩
  induction h with
  | word =>
      intro fuel hfuel
      obtain ⟨fuel, rfl⟩ := hsucc .word hfuel
      rfl
  | str =>
      intro fuel hfuel
      obtain ⟨fuel, rfl⟩ := hsucc .str hfuel
      rfl
  | nil =>
      intro fuel hfuel
      obtain ⟨fuel, rfl⟩ := hsucc .nil hfuel
      rfl
  | empty =>
      intro fuel hfuel
      obtain ⟨fuel, rfl⟩ := hsucc .empty hfuel
      rfl
  | arr items ih =>
      intro fuel hfuel
      obtain ⟨fuel, rfl⟩ := hsucc (.arr items) hfuel
      have hitems := ih fuel (by simp only [List.length_cons] at hfuel; omega)
      simp only [Part.Parsed] at hitems ⊢
      simp [parseValue, items.items_head, hitems]
  | obj entries ih =>
      intro fuel hfuel
      obtain ⟨fuel, rfl⟩ := hsucc (.obj entries) hfuel
      have hentries := ih fuel (by simp only [List.length_cons] at hfuel; omega)
      have hhead := entries.entries_head
      simp only [Part.Parsed] at hentries ⊢
      simp [parseValue, hhead, hentries]
  | item value ih =>
      intro fuel hfuel
      obtain ⟨fuel, rfl⟩ := hsucc (.item value) hfuel
      have hvalue := ih fuel (by simp only [List.length_cons]; omega)
      simp only [Part.Parsed] at hvalue ⊢
      simp [parseItems, hvalue]
  | items value more ihv ihm =>
      intro fuel hfuel
      obtain ⟨fuel, rfl⟩ := hsucc (.items value more) hfuel
      have hmore := more.length_lt
      have hlt := value.length_lt
      simp only [List.length_cons] at hlt
      have hvalue := ihv fuel (by simp only [List.length_cons]; omega)
      have hitems := ihm fuel (by omega)
      simp only [Part.Parsed] at hvalue hitems ⊢
      simp [parseItems, hvalue, hitems]
  | entry value ih =>
      intro fuel hfuel
      obtain ⟨fuel, rfl⟩ := hsucc (.entry value) hfuel
      simp only [List.length_cons] at hfuel
      have hvalue := ih fuel (by simp only [List.length_cons]; omega)
      simp only [Part.Parsed] at hvalue ⊢
      simp [parseEntries, hvalue]
  | entries value more ihv ihm =>
      intro fuel hfuel
      obtain ⟨fuel, rfl⟩ := hsucc (.entries value more) hfuel
      have hmore := more.length_lt
      have hlt := value.length_lt
      simp only [List.length_cons] at hlt hfuel
      have hvalue := ihv fuel (by simp only [List.length_cons]; omega)
      have hentries := ihm fuel (by omega)
      simp only [Part.Parsed] at hvalue hentries ⊢
      simp [parseEntries, hvalue, hentries]

/-- The tokens of a document, and nothing after it. -/
theorem parse_eq_some {toks : List Tok} {d : Doc} :
    parse toks = some d ↔ Reads toks (.value d) [] := by
  constructor
  · intro h
    unfold parse at h
    split at h
    · rename_i d' hparsed
      obtain rfl : d' = d := by simpa using h
      exact @parsed_reads toks.length _ _ (.value d') hparsed
    · cases h
  · intro h
    have hparsed := h.parsed toks.length (by simp)
    simp only [Part.Parsed] at hparsed
    simp [parse, hparsed]

/-- What is read was lexed and parsed. -/
theorem read_eq_some {scan : Scan} {text : List Nat} {d : Doc} (h : read scan text = some d)
    (hlocal : Local scan) :
    ∃ ls, textOf ls = text ∧ Lexed scan ls ∧ Reads (tokens ls) (.value d) [] := by
  obtain ⟨ls, hls, hparse⟩ := Option.bind_eq_some_iff.1 h
  obtain ⟨htext, hlexed⟩ := lexemes_sound hlocal hls
  exact ⟨ls, htext, hlexed, parse_eq_some.1 hparse⟩

/-- What is lexed and parsed is read. -/
theorem read_textOf {scan : Scan} {ls : List Lexeme} {d : Doc} (hls : Lexed scan ls)
    (hreads : Reads (tokens ls) (.value d) []) : read scan (textOf ls) = some d := by
  unfold read
  rw [lexemes_complete hls hls.length_le, Option.bind_some]
  exact parse_eq_some.2 hreads

/-! ## The tokens of a document -/

mutual

/-- The tokens a document is read from. -/
def Doc.toks : Doc → List Tok
  | .word text => [.word text]
  | .str value => [.str value]
  | .arr [] => [.punct 0x5B, .punct 0x5D]
  | .arr (d :: items) => .punct 0x5B :: (d.toks ++ Doc.moreItems items)
  | .obj [] => [.punct 0x7B, .punct 0x7D]
  | .obj ((key, d) :: entries) =>
      .punct 0x7B :: .str key :: .punct 0x3A :: (d.toks ++ Doc.moreEntries entries)

/-- The items after an item, up to the closing bracket. -/
def Doc.moreItems : List Doc → List Tok
  | [] => [.punct 0x5D]
  | d :: items => .punct 0x2C :: (d.toks ++ Doc.moreItems items)

/-- The entries after an entry, up to the closing brace. -/
def Doc.moreEntries : List (List Nat × Doc) → List Tok
  | [] => [.punct 0x7D]
  | (key, d) :: entries =>
      .punct 0x2C :: .str key :: .punct 0x3A :: (d.toks ++ Doc.moreEntries entries)

end

/-- The tokens of a part of a document. -/
def Part.toks : Part → List Tok
  | .value d => d.toks
  | .items [] => []
  | .items (d :: ds) => d.toks ++ Doc.moreItems ds
  | .entries [] => []
  | .entries ((key, d) :: es) => .str key :: .punct 0x3A :: (d.toks ++ Doc.moreEntries es)

/-- A document is read from its tokens only. -/
theorem Reads.toks_eq {toks rest : List Tok} {part : Part} (h : Reads toks part rest) :
    toks = part.toks ++ rest := by
  induction h with
  | word => rfl
  | str => rfl
  | nil => rfl
  | empty => rfl
  | @arr toks ds rest items ih =>
      cases ds with
      | nil => cases items
      | cons d ds => rw [ih]; rfl
  | @obj toks es rest entries ih =>
      cases es with
      | nil => cases entries
      | cons e es => rw [ih]; rfl
  | item value ih => rw [ih]; simp [Part.toks, Doc.moreItems]
  | @items toks d mid ds rest value more ihv ihm =>
      cases ds with
      | nil => cases more
      | cons d' ds => rw [ihv, ihm]; simp [Part.toks, Doc.moreItems]
  | entry value ih => rw [ih]; simp [Part.toks, Doc.moreEntries]
  | @entries key toks d mid es rest value more ihv ihm =>
      cases es with
      | nil => cases more
      | cons e es => rw [ihv, ihm]; simp [Part.toks, Doc.moreEntries]

/-- The items of a list are read one after the other. -/
theorem reads_items {items : List Doc} (d : Doc)
    (h : ∀ d' ∈ d :: items, ∀ rest, Reads (d'.toks ++ rest) (.value d') rest) (rest : List Tok) :
    Reads (d.toks ++ Doc.moreItems items ++ rest) (.items (d :: items)) rest := by
  induction items generalizing d with
  | nil =>
      have hvalue := h d List.mem_cons_self (.punct 0x5D :: rest)
      simpa [Doc.moreItems] using Reads.item hvalue
  | cons d' items ih =>
      have hmore := ih d' (fun d'' hd'' => h d'' (List.mem_cons_of_mem _ hd''))
      have hvalue := h d List.mem_cons_self
        (.punct 0x2C :: (d'.toks ++ Doc.moreItems items ++ rest))
      simpa [Doc.moreItems] using Reads.items hvalue hmore

/-- The entries of an object are read one after the other. -/
theorem reads_entries {entries : List (List Nat × Doc)} (e : List Nat × Doc)
    (h : ∀ e' ∈ e :: entries, ∀ rest, Reads (e'.2.toks ++ rest) (.value e'.2) rest)
    (rest : List Tok) :
    Reads (.str e.1 :: .punct 0x3A :: (e.2.toks ++ Doc.moreEntries entries ++ rest))
      (.entries (e :: entries)) rest := by
  induction entries generalizing e with
  | nil =>
      have hvalue := h e List.mem_cons_self (.punct 0x7D :: rest)
      simpa [Doc.moreEntries] using @Reads.entry e.1 _ _ _ hvalue
  | cons e' entries ih =>
      have hmore := ih e' (fun e'' he'' => h e'' (List.mem_cons_of_mem _ he''))
      have hvalue := h e List.mem_cons_self
        (.punct 0x2C :: .str e'.1 :: .punct 0x3A ::
          (e'.2.toks ++ Doc.moreEntries entries ++ rest))
      simpa [Doc.moreEntries] using @Reads.entries e.1 _ _ _ _ _ hvalue hmore

/-- A document is read from its tokens. -/
theorem Doc.reads_toks (d : Doc) : ∀ rest, Reads (d.toks ++ rest) (.value d) rest := by
  induction d using Doc.induct with
  | word text => exact fun rest => .word
  | str value => exact fun rest => .str
  | arr items ih =>
      intro rest
      cases items with
      | nil => exact .nil
      | cons d items => exact .arr (reads_items d ih rest)
  | obj entries ih =>
      intro rest
      cases entries with
      | nil => exact .empty
      | cons e entries => exact .obj (reads_entries e ih rest)

/-- A document is read of its own tokens and of no others. -/
theorem Doc.reads_iff {toks : List Tok} {d : Doc} :
    Reads toks (.value d) [] ↔ toks = d.toks := by
  constructor
  · intro h
    simpa [Part.toks] using h.toks_eq
  · intro h
    have hreads := d.reads_toks []
    rw [List.append_nil] at hreads
    rw [h]
    exact hreads

/-! ### All tokens -/

section all

variable {P : Tok → Prop} (hpunct : ∀ c, isPunct c = true → P (.punct c))

include hpunct

/-- The tokens of further items, item by item. -/
theorem forall_moreItems (items : List Doc) :
    (∀ tok ∈ Doc.moreItems items, P tok) ↔ ∀ d ∈ items, ∀ tok ∈ d.toks, P tok := by
  induction items with
  | nil => simpa [Doc.moreItems] using hpunct 0x5D rfl
  | cons d items ih =>
      rw [Doc.moreItems, List.forall_mem_cons, List.forall_mem_append, ih,
        List.forall_mem_cons]
      exact ⟨fun h => h.2, fun h => ⟨hpunct 0x2C rfl, h⟩⟩

/-- The tokens of further entries, entry by entry. -/
theorem forall_moreEntries (entries : List (List Nat × Doc)) :
    (∀ tok ∈ Doc.moreEntries entries, P tok) ↔
      ∀ e ∈ entries, P (.str e.1) ∧ ∀ tok ∈ e.2.toks, P tok := by
  induction entries with
  | nil => simpa [Doc.moreEntries] using hpunct 0x7D rfl
  | cons e entries ih =>
      obtain ⟨key, d⟩ := e
      rw [Doc.moreEntries, List.forall_mem_cons, List.forall_mem_cons, List.forall_mem_cons,
        List.forall_mem_append, ih, List.forall_mem_cons]
      exact ⟨fun h => ⟨⟨h.2.1, h.2.2.2.1⟩, h.2.2.2.2⟩,
        fun h => ⟨hpunct 0x2C rfl, h.1.1, hpunct 0x3A rfl, h.1.2, h.2⟩⟩

/-- All tokens of an array are all tokens of its items. -/
theorem Doc.forall_toks_arr (items : List Doc) :
    (∀ tok ∈ (Doc.arr items).toks, P tok) ↔ ∀ d ∈ items, ∀ tok ∈ d.toks, P tok := by
  cases items with
  | nil => simpa [Doc.toks] using ⟨hpunct 0x5B rfl, hpunct 0x5D rfl⟩
  | cons d items =>
      rw [Doc.toks, List.forall_mem_cons, List.forall_mem_append, forall_moreItems hpunct,
        List.forall_mem_cons]
      exact ⟨fun h => h.2, fun h => ⟨hpunct 0x5B rfl, h⟩⟩

/-- All tokens of an object are its keys and all tokens of its entries. -/
theorem Doc.forall_toks_obj (entries : List (List Nat × Doc)) :
    (∀ tok ∈ (Doc.obj entries).toks, P tok) ↔
      ∀ e ∈ entries, P (.str e.1) ∧ ∀ tok ∈ e.2.toks, P tok := by
  cases entries with
  | nil => simpa [Doc.toks] using ⟨hpunct 0x7B rfl, hpunct 0x7D rfl⟩
  | cons e entries =>
      obtain ⟨key, d⟩ := e
      rw [Doc.toks, List.forall_mem_cons, List.forall_mem_cons, List.forall_mem_cons,
        List.forall_mem_append, forall_moreEntries hpunct, List.forall_mem_cons]
      exact ⟨fun h => ⟨⟨h.2.1, h.2.2.2.1⟩, h.2.2.2.2⟩,
        fun h => ⟨hpunct 0x7B rfl, h.1.1, hpunct 0x3A rfl, h.1.2, h.2⟩⟩

end all

/-! ### Neighbours -/

/-- `[ { : ,` -/
def Tok.opens : Tok → Bool
  | .punct c => c = 0x5B || c = 0x7B || c = 0x3A || c = 0x2C
  | _ => false

/-- `, ] }` -/
def Tok.closes : Tok → Bool
  | .punct c => c = 0x2C || c = 0x5D || c = 0x7D
  | _ => false

/-- A word stands after what opens a value and before what closes one. -/
def Beside : Tok → Tok → Prop
  | .word _, b => b.closes = true
  | a, .word _ => a.opens = true
  | _, _ => True

/-- Anything may stand before a closing mark. -/
theorem beside_of_closes {a b : Tok} (hb : b.closes = true) : Beside a b := by
  cases b with
  | punct c => cases a <;> trivial
  | _ => cases hb

/-- Anything may stand after an opening mark. -/
theorem beside_of_opens {a b : Tok} (ha : a.opens = true) : Beside a b := by
  cases a with
  | punct c => cases b <;> trivial
  | _ => cases ha

/-- What may stand after a value. -/
def Follows (rest : List Tok) : Prop :=
  rest.IsChain Beside ∧ ∀ b ∈ rest.head?, b.closes = true

/-- A closing mark may follow a value. -/
theorem Follows.close {rest : List Tok} (h : Follows rest) {c : Nat}
    (hc : (Tok.punct c).closes = true) : Follows (.punct c :: rest) :=
  ⟨List.isChain_cons.2 ⟨fun b hb => beside_of_closes (h.2 b hb), h.1⟩, by simpa using hc⟩

/-- Further items may follow a value. -/
theorem isChain_moreItems {items : List Doc}
    (h : ∀ d ∈ items, ∀ rest, Follows rest → ∀ a : Tok, a.opens = true →
      (a :: (d.toks ++ rest)).IsChain Beside) {rest : List Tok} (hrest : Follows rest) :
    Follows (Doc.moreItems items ++ rest) := by
  induction items with
  | nil => exact hrest.close rfl
  | cons d items ih =>
      have hmore := ih fun d' hd' => h d' (List.mem_cons_of_mem _ hd')
      have hchain := h d List.mem_cons_self _ hmore (.punct 0x2C) rfl
      exact ⟨by simpa [Doc.moreItems] using hchain, by simp [Doc.moreItems, Tok.closes]⟩

/-- Further entries may follow a value. -/
theorem isChain_moreEntries {entries : List (List Nat × Doc)}
    (h : ∀ e ∈ entries, ∀ rest, Follows rest → ∀ a : Tok, a.opens = true →
      (a :: (e.2.toks ++ rest)).IsChain Beside) {rest : List Tok} (hrest : Follows rest) :
    Follows (Doc.moreEntries entries ++ rest) := by
  induction entries with
  | nil => exact hrest.close rfl
  | cons e entries ih =>
      obtain ⟨key, d⟩ := e
      have hmore := ih fun e' he' => h e' (List.mem_cons_of_mem _ he')
      have hchain := h (key, d) List.mem_cons_self _ hmore (.punct 0x3A) rfl
      refine ⟨?_, by simp [Doc.moreEntries, Tok.closes]⟩
      simpa [Doc.moreEntries, Beside] using hchain

/-- Words have their neighbours all through a document. -/
theorem Doc.isChain_toks (d : Doc) : ∀ rest, Follows rest → ∀ a : Tok, a.opens = true →
    (a :: (d.toks ++ rest)).IsChain Beside := by
  induction d using Doc.induct with
  | word text =>
      intro rest hrest a ha
      refine List.isChain_cons_cons.2 ⟨beside_of_opens ha, ?_⟩
      exact List.isChain_cons.2 ⟨fun b hb => beside_of_closes (hrest.2 b hb), hrest.1⟩
  | str value =>
      intro rest hrest a ha
      refine List.isChain_cons_cons.2 ⟨beside_of_opens ha, ?_⟩
      exact List.isChain_cons.2 ⟨fun b hb => beside_of_closes (hrest.2 b hb), hrest.1⟩
  | arr items ih =>
      intro rest hrest a ha
      cases items with
      | nil =>
          have hclose := hrest.close (c := 0x5D) rfl
          refine List.isChain_cons_cons.2 ⟨beside_of_opens ha, ?_⟩
          exact List.isChain_cons_cons.2 ⟨beside_of_closes rfl, hclose.1⟩
      | cons d items =>
          have hmore := isChain_moreItems
            (fun d' hd' => ih d' (List.mem_cons_of_mem _ hd')) hrest
          have hchain := ih d List.mem_cons_self _ hmore (.punct 0x5B) rfl
          refine List.isChain_cons_cons.2 ⟨beside_of_opens ha, ?_⟩
          simpa using hchain
  | obj entries ih =>
      intro rest hrest a ha
      cases entries with
      | nil =>
          have hclose := hrest.close (c := 0x7D) rfl
          refine List.isChain_cons_cons.2 ⟨beside_of_opens ha, ?_⟩
          exact List.isChain_cons_cons.2 ⟨beside_of_closes rfl, hclose.1⟩
      | cons e entries =>
          obtain ⟨key, d⟩ := e
          have hmore := isChain_moreEntries
            (fun e' he' => ih e' (List.mem_cons_of_mem _ he')) hrest
          have hchain := ih (key, d) List.mem_cons_self _ hmore (.punct 0x3A) rfl
          refine List.isChain_cons_cons.2 ⟨beside_of_opens ha, ?_⟩
          simpa [Doc.toks, Beside] using hchain

/-- The tokens of a document may stand side by side. -/
theorem Doc.beside (d : Doc) : d.toks.IsChain Beside := by
  have hchain := d.isChain_toks [] ⟨by simp, by simp⟩ (.punct 0x2C) rfl
  rw [List.append_nil] at hchain
  exact (List.isChain_cons.1 hchain).2

/-! ## String literals as code units -/

/-- The number four hexadecimal digits stand for. -/
def hexValue4 (a b c d : Nat) : Option Nat :=
  (hexValue a).bind fun a => (hexValue b).bind fun b => (hexValue c).bind fun c =>
    (hexValue d).map fun d => ((a * 16 + b) * 16 + c) * 16 + d

/-- The character a backslash and one more character stand for. -/
def escaped (c : Nat) : Option Nat :=
  if c = 0x22 ∨ c = 0x5C ∨ c = 0x2F then some c
  else if c = 98 then some 0x08
  else if c = 102 then some 0x0C
  else if c = 110 then some 0x0A
  else if c = 114 then some 0x0D
  else if c = 116 then some 0x09
  else none

/-- A string literal after its opening quote, where `\\u` always stands for
one code unit. -/
def scanUnits : Scan
  | [] => none
  | c :: rest =>
      if c = 0x22 then some ([], rest)
      else if c = 0x5C then
        match rest with
        | [] => none
        | e :: rest =>
            if e = 117 then
              match rest with
              | h₁ :: h₂ :: h₃ :: h₄ :: rest =>
                  (hexValue4 h₁ h₂ h₃ h₄).bind fun unit =>
                    (scanUnits rest).map fun (value, after) => (unit :: value, after)
              | _ => none
            else
              (escaped e).bind fun unit =>
                (scanUnits rest).map fun (value, after) => (unit :: value, after)
      else if c < 0x20 then none
      else (scanUnits rest).map fun (value, after) => (c :: value, after)

/-- A quote ends the string. -/
@[simp] theorem scanUnits_quote (rest : List Nat) :
    scanUnits (0x22 :: rest) = some ([], rest) := by
  rw [scanUnits.eq_def]
  simp

/-- An escape `\u` is one code unit. -/
theorem scanUnits_unit (a b c d : Nat) (rest : List Nat) :
    scanUnits (0x5C :: 117 :: a :: b :: c :: d :: rest) =
      (hexValue4 a b c d).bind fun unit =>
        (scanUnits rest).map fun (value, after) => (unit :: value, after) := rfl

/-- A short escape is one code unit. -/
theorem scanUnits_escaped {e : Nat} (he : e ≠ 117) (rest : List Nat) :
    scanUnits (0x5C :: e :: rest) =
      (escaped e).bind fun unit =>
        (scanUnits rest).map fun (value, after) => (unit :: value, after) := by
  rw [scanUnits.eq_def]
  simp [he]

/-- Any other character stands for itself. -/
theorem scanUnits_plain {c : Nat} (hquote : c ≠ 0x22) (hslash : c ≠ 0x5C) (hlow : ¬ c < 0x20)
    (rest : List Nat) :
    scanUnits (c :: rest) =
      (scanUnits rest).map fun (value, after) => (c :: value, after) := by
  rw [scanUnits.eq_def]
  simp [hquote, hslash, hlow]

/-- A hexadecimal digit is read as its value. -/
theorem hexValue_hexDigit {n : Nat} (h : n < 16) : hexValue (hexDigit n) = some n := by
  have hall : ∀ n : Fin 16, hexValue (hexDigit n) = some n.val := by decide
  exact hall ⟨n, h⟩

/-- An escape of a code unit is read as that unit. -/
theorem scanUnits_unitEscape {u : Nat} (hu : u < 0x10000) (text : List Nat) :
    scanUnits (unitEscape u ++ text) =
      (scanUnits text).map fun (value, after) => (u :: value, after) := by
  have hvalue : ((u / 4096 % 16 * 16 + u / 256 % 16) * 16 + u / 16 % 16) * 16 + u % 16 = u := by
    omega
  have hhex : hexValue4 (hexDigit (u / 4096 % 16)) (hexDigit (u / 256 % 16))
      (hexDigit (u / 16 % 16)) (hexDigit (u % 16)) = some u := by
    simp only [hexValue4, hexValue_hexDigit (Nat.mod_lt _ (by decide : 0 < 16)),
      Option.bind_some, Option.map_some, hvalue]
  simp only [unitEscape, List.cons_append, List.nil_append]
  rw [scanUnits_unit, hhex, Option.bind_some]

/-- A character of the ASCII text of a string is read as that character. -/
theorem scanUnits_escapeChar {u : Nat} (hu : u < 0x10000) (text : List Nat) :
    scanUnits (escapeChar u ++ text) =
      (scanUnits text).map fun (value, after) => (u :: value, after) := by
  have hshort : ∀ e : Nat, e ≠ 117 → escaped e = some u →
      scanUnits ([0x5C, e] ++ text) =
        (scanUnits text).map fun (value, after) => (u :: value, after) := by
    intro e he hu
    simp only [List.cons_append, List.nil_append]
    rw [scanUnits_escaped he, hu, Option.bind_some]
  unfold escapeChar
  split_ifs with h₁ h₂ h₃ h₄ h₅ h₆ h₇ hprint
  · exact hshort 0x22 (by decide) (by rw [h₁]; rfl)
  · exact hshort 0x5C (by decide) (by rw [h₂]; rfl)
  · exact hshort 110 (by decide) (h₃ ▸ rfl)
  · exact hshort 114 (by decide) (h₄ ▸ rfl)
  · exact hshort 116 (by decide) (h₅ ▸ rfl)
  · exact hshort 102 (by decide) (h₆ ▸ rfl)
  · exact hshort 98 (by decide) (h₇ ▸ rfl)
  · exact scanUnits_plain h₁ h₂ (by omega) text
  · exact scanUnits_unitEscape hu text

/-- The ASCII text of a string reads back. -/
theorem scanUnits_dumpsStr {s : List Nat} (hs : ∀ u ∈ s, u < 0x10000) (rest : List Nat) :
    scanUnits (s.flatMap escapeChar ++ 0x22 :: rest) = some (s, rest) := by
  induction s with
  | nil => exact scanUnits_quote rest
  | cons u s ih =>
      obtain ⟨hu, hs⟩ := List.forall_mem_cons.1 hs
      rw [List.flatMap_cons, List.append_assoc, scanUnits_escapeChar hu, ih hs, Option.map_some]

end JsonText
