import StockAnalyst.JsonText

/-!
# Printing documents

A printer of documents chooses how it writes a string literal and the white
space behind a comma or a colon.  Whatever reads its literals reads its texts,
each string as the reader reads the literal.
-/

namespace JsonText

open Python

/-- How a document is printed. -/
structure Style where
  /-- A string literal with its quotes. -/
  lit : List Nat → List Nat
  comma : List Nat
  colon : List Nat
  comma_space : ∀ c ∈ comma, isSpace c = true
  colon_space : ∀ c ∈ colon, isSpace c = true

/-- The compact style puts nothing between. -/
theorem nothing_space : ∀ c ∈ ([] : List Nat), isSpace c = true := by simp

/-- The other style puts blanks between. -/
theorem blank_space : ∀ c ∈ [0x20], isSpace c = true := by simp [isSpace]

mutual

/-- The text of a document. -/
def Doc.print (st : Style) : Doc → List Nat
  | .word text => text
  | .str value => st.lit value
  | .arr items => 0x5B :: PyStr.join (0x2C :: st.comma) (Doc.printItems st items) ++ [0x5D]
  | .obj entries =>
      0x7B :: PyStr.join (0x2C :: st.comma) (Doc.printEntries st entries) ++ [0x7D]

def Doc.printItems (st : Style) : List Doc → List (List Nat)
  | [] => []
  | d :: items => d.print st :: Doc.printItems st items

def Doc.printEntries (st : Style) : List (List Nat × Doc) → List (List Nat)
  | [] => []
  | (key, d) :: entries =>
      (st.lit key ++ 0x3A :: st.colon ++ d.print st) :: Doc.printEntries st entries

end

mutual

/-- A document with every string replaced. -/
def Doc.mapStr (f : List Nat → List Nat) : Doc → Doc
  | .word text => .word text
  | .str value => .str (f value)
  | .arr items => .arr (Doc.mapItems f items)
  | .obj entries => .obj (Doc.mapEntries f entries)

def Doc.mapItems (f : List Nat → List Nat) : List Doc → List Doc
  | [] => []
  | d :: items => d.mapStr f :: Doc.mapItems f items

def Doc.mapEntries (f : List Nat → List Nat) : List (List Nat × Doc) → List (List Nat × Doc)
  | [] => []
  | (key, d) :: entries => (f key, d.mapStr f) :: Doc.mapEntries f entries

end

/-- A token with its string replaced. -/
def Tok.mapStr (f : List Nat → List Nat) : Tok → Tok
  | .str value => .str (f value)
  | tok => tok

/-- The white space behind a punctuation mark. -/
def Style.after (st : Style) (c : Nat) : List Nat :=
  if c = 0x2C then st.comma else if c = 0x3A then st.colon else []

/-- A style puts only white space between. -/
theorem Style.after_space (st : Style) (c : Nat) : ∀ x ∈ st.after c, isSpace x = true := by
  unfold Style.after
  split_ifs
  · exact st.comma_space
  · exact st.colon_space
  · simp

/-- The lexemes of a token in the printed text. -/
def Tok.printed (st : Style) (f : List Nat → List Nat) : Tok → List Lexeme
  | .punct c => .punct c :: (st.after c).map .space
  | .word text => [.word text]
  | .str value => [.str (st.lit value) (f value)]

/-- White space has no tokens. -/
theorem tokens_spaces (cs : List Nat) : tokens (cs.map .space) = [] := by
  induction cs with
  | nil => rfl
  | cons c cs ih => exact ih

/-- White space is its own text. -/
@[simp] theorem textOf_spaces (cs : List Nat) : textOf (cs.map .space) = cs := by
  induction cs with
  | nil => rfl
  | cons c cs ih => simp [Lexeme.text, ih]

/-- The tokens of lexemes one after the other. -/
theorem tokens_append (ls ms : List Lexeme) : tokens (ls ++ ms) = tokens ls ++ tokens ms :=
  List.filterMap_append

variable {st : Style} {f : List Nat → List Nat}

/-- What is printed has the tokens it was printed of. -/
theorem tokens_printed (toks : List Tok) :
    tokens (toks.flatMap (Tok.printed st f)) = toks.map (Tok.mapStr f) := by
  induction toks with
  | nil => rfl
  | cons tok toks ih =>
      rw [List.flatMap_cons, tokens_append, ih, List.map_cons]
      cases tok with
      | punct c =>
          rw [Tok.printed, tokens_punct, tokens_spaces]
          rfl
      | word text => rfl
      | str value => rfl

/-! ## The text of the lexemes -/

/-- A joined text, one piece at a time. -/
theorem join_cons (sep p : List Nat) (ps : List (List Nat)) :
    PyStr.join sep (p :: ps) = p ++ ps.flatMap (sep ++ ·) := by
  induction ps generalizing p with
  | nil => simp [PyStr.join]
  | cons q ps ih => simp [PyStr.join, ih]

/-- Further items are printed after commas. -/
theorem textOf_printItems {items : List Doc}
    (h : ∀ d ∈ items, textOf (d.toks.flatMap (Tok.printed st f)) = d.print st) :
    textOf ((Doc.moreItems items).flatMap (Tok.printed st f)) =
      (Doc.printItems st items).flatMap ((0x2C :: st.comma) ++ ·) ++ [0x5D] := by
  induction items with
  | nil => rfl
  | cons d items ih =>
      obtain ⟨hd, hitems⟩ := List.forall_mem_cons.1 h
      simp [Doc.moreItems, Doc.printItems, Tok.printed, Style.after, Lexeme.text, hd, ih hitems]

/-- Further entries are printed after commas. -/
theorem textOf_printEntries {entries : List (List Nat × Doc)}
    (h : ∀ e ∈ entries, textOf (e.2.toks.flatMap (Tok.printed st f)) = e.2.print st) :
    textOf ((Doc.moreEntries entries).flatMap (Tok.printed st f)) =
      (Doc.printEntries st entries).flatMap ((0x2C :: st.comma) ++ ·) ++ [0x7D] := by
  induction entries with
  | nil => rfl
  | cons e entries ih =>
      obtain ⟨key, d⟩ := e
      obtain ⟨hd, hentries⟩ := List.forall_mem_cons.1 h
      simp [Doc.moreEntries, Doc.printEntries, Tok.printed, Style.after, Lexeme.text, hd,
        ih hentries]

/-- The printed text is the text of the tokens with their white space. -/
theorem Doc.textOf_printed (d : Doc) : textOf (d.toks.flatMap (Tok.printed st f)) = d.print st := by
  induction d using Doc.induct with
  | word text => simp [Doc.toks, Doc.print, Tok.printed, Lexeme.text]
  | str value => simp [Doc.toks, Doc.print, Tok.printed, Lexeme.text]
  | arr items ih =>
      cases items with
      | nil => rfl
      | cons d items =>
          obtain ⟨hd, hitems⟩ := List.forall_mem_cons.1 ih
          simp [Doc.toks, Doc.print, Doc.printItems, join_cons, Tok.printed, Style.after,
            Lexeme.text, hd, textOf_printItems hitems]
  | obj entries ih =>
      cases entries with
      | nil => rfl
      | cons e entries =>
          obtain ⟨key, d⟩ := e
          obtain ⟨hd, hentries⟩ := List.forall_mem_cons.1 ih
          simp [Doc.toks, Doc.print, Doc.printEntries, join_cons, Tok.printed, Style.after,
            Lexeme.text, hd, textOf_printEntries hentries]

/-- What holds of the pieces and the separator holds of the joined text. -/
theorem forall_join {P : Nat → Prop} {sep : List Nat} {pieces : List (List Nat)}
    (hsep : ∀ c ∈ sep, P c) (h : ∀ p ∈ pieces, ∀ c ∈ p, P c) :
    ∀ c ∈ PyStr.join sep pieces, P c := by
  cases pieces with
  | nil => simp [PyStr.join]
  | cons p pieces =>
      obtain ⟨hp, hpieces⟩ := List.forall_mem_cons.1 h
      intro c hc
      rw [join_cons] at hc
      obtain hc | hc := List.mem_append.1 hc
      · exact hp c hc
      · obtain ⟨q, hq, hc⟩ := List.mem_flatMap.1 hc
        obtain hc | hc := List.mem_append.1 hc
        · exact hsep c hc
        · exact hpieces q hq c hc

/-! ## The tokens of a replaced document -/

/-- The strings of further items, changed. -/
theorem moreItems_mapStr {items : List Doc}
    (h : ∀ d ∈ items, (d.mapStr f).toks = d.toks.map (Tok.mapStr f)) :
    Doc.moreItems (Doc.mapItems f items) = (Doc.moreItems items).map (Tok.mapStr f) := by
  induction items with
  | nil => rfl
  | cons d items ih =>
      obtain ⟨hd, hitems⟩ := List.forall_mem_cons.1 h
      simp [Doc.mapItems, Doc.moreItems, Tok.mapStr, hd, ih hitems]

/-- The strings of further entries, changed. -/
theorem moreEntries_mapStr {entries : List (List Nat × Doc)}
    (h : ∀ e ∈ entries, (e.2.mapStr f).toks = e.2.toks.map (Tok.mapStr f)) :
    Doc.moreEntries (Doc.mapEntries f entries) =
      (Doc.moreEntries entries).map (Tok.mapStr f) := by
  induction entries with
  | nil => rfl
  | cons e entries ih =>
      obtain ⟨key, d⟩ := e
      obtain ⟨hd, hentries⟩ := List.forall_mem_cons.1 h
      simp [Doc.mapEntries, Doc.moreEntries, Tok.mapStr, hd, ih hentries]

/-- The tokens of a changed document are the changed tokens. -/
theorem Doc.toks_mapStr (d : Doc) : (d.mapStr f).toks = d.toks.map (Tok.mapStr f) := by
  induction d using Doc.induct with
  | word text => rfl
  | str value => rfl
  | arr items ih =>
      cases items with
      | nil => rfl
      | cons d items =>
          obtain ⟨hd, hitems⟩ := List.forall_mem_cons.1 ih
          simp [Doc.mapStr, Doc.mapItems, Doc.toks, Tok.mapStr, hd, moreItems_mapStr hitems]
  | obj entries ih =>
      cases entries with
      | nil => rfl
      | cons e entries =>
          obtain ⟨key, d⟩ := e
          obtain ⟨hd, hentries⟩ := List.forall_mem_cons.1 ih
          simp [Doc.mapStr, Doc.mapEntries, Doc.toks, Tok.mapStr, hd,
            moreEntries_mapStr hentries]

/-- Changing nothing. -/
theorem Doc.mapStr_id (d : Doc) : d.mapStr id = d := by
  induction d using Doc.induct with
  | word text => rfl
  | str value => rfl
  | arr items ih =>
      have hitems : Doc.mapItems id items = items := by
        induction items with
        | nil => rfl
        | cons d items ih' =>
            obtain ⟨hd, hitems⟩ := List.forall_mem_cons.1 ih
            rw [Doc.mapItems, hd, ih' hitems]
      rw [Doc.mapStr, hitems]
  | obj entries ih =>
      have hentries : Doc.mapEntries id entries = entries := by
        induction entries with
        | nil => rfl
        | cons e entries ih' =>
            obtain ⟨hd, hentries⟩ := List.forall_mem_cons.1 ih
            rw [Doc.mapEntries, hd, ih' hentries]
            rfl
      rw [Doc.mapStr, hentries]

/-! ## Reading back -/

/-- The words of a document satisfy `W`, its strings and keys `S`. -/
inductive Doc.All (W S : List Nat → Prop) : Doc → Prop
  | word {text} (word : W text) : All W S (.word text)
  | str {value} (str : S value) : All W S (.str value)
  | arr {items} (each : ∀ d ∈ items, All W S d) : All W S (.arr items)
  | obj {entries} (keys : ∀ e ∈ entries, S e.1) (each : ∀ e ∈ entries, All W S e.2) :
      All W S (.obj entries)

/-- A document of words and strings of a wider kind. -/
theorem Doc.All.mono {W W' S S' : List Nat → Prop} {d : Doc} (h : d.All W S)
    (hW : ∀ text, W text → W' text) (hS : ∀ value, S value → S' value) : d.All W' S' := by
  induction h with
  | word word => exact .word (hW _ word)
  | str str => exact .str (hS _ str)
  | arr each ih => exact .arr ih
  | obj keys each ih => exact .obj (fun e he => hS _ (keys e he)) ih

section characters

variable {P : Nat → Prop} {W S : List Nat → Prop}

/-- The characters of a printed document are those of its words, of its
literals, punctuation and white space. -/
theorem Doc.forall_print (hpunct : ∀ c, isPunct c = true → P c)
    (hspace : ∀ c, isSpace c = true → P c) (hword : ∀ text, W text → ∀ c ∈ text, P c)
    (hlit : ∀ value, S value → ∀ c ∈ st.lit value, P c) {d : Doc} (h : d.All W S) :
    ∀ c ∈ d.print st, P c := by
  have hcomma : ∀ c ∈ 0x2C :: st.comma, P c :=
    List.forall_mem_cons.2 ⟨hpunct _ rfl, fun c hc => hspace c (st.comma_space c hc)⟩
  have hcontainer : ∀ {a b : Nat} {pieces : List (List Nat)}, isPunct a = true →
      isPunct b = true → (∀ p ∈ pieces, ∀ c ∈ p, P c) →
      ∀ c ∈ a :: PyStr.join (0x2C :: st.comma) pieces ++ [b], P c := by
    intro a b pieces ha hb hpieces
    refine List.forall_mem_append.2 ⟨List.forall_mem_cons.2
      ⟨hpunct a ha, forall_join hcomma hpieces⟩, ?_⟩
    exact List.forall_mem_singleton.2 (hpunct b hb)
  induction h with
  | word word => exact hword _ word
  | str str => exact hlit _ str
  | @arr items each ih =>
      refine hcontainer rfl rfl ?_
      clear each
      induction items with
      | nil => simp [Doc.printItems]
      | cons d items ih' =>
          obtain ⟨hd, hitems⟩ := List.forall_mem_cons.1 ih
          exact List.forall_mem_cons.2 ⟨hd, ih' hitems⟩
  | @obj entries keys each ih =>
      refine hcontainer rfl rfl ?_
      clear each
      induction entries with
      | nil => simp [Doc.printEntries]
      | cons e entries ih' =>
          obtain ⟨he, hentries⟩ := List.forall_mem_cons.1 ih
          obtain ⟨hkey, hkeys⟩ := List.forall_mem_cons.1 keys
          refine List.forall_mem_cons.2 ⟨?_, ih' hkeys hentries⟩
          refine List.forall_mem_append.2 ⟨List.forall_mem_append.2 ⟨hlit _ hkey, ?_⟩, he⟩
          exact List.forall_mem_cons.2 ⟨hpunct _ rfl, fun c hc => hspace c (st.colon_space c hc)⟩

end characters

/-- A word that can be printed. -/
def Word (text : List Nat) : Prop := text ≠ [] ∧ ∀ c ∈ text, isWord c = true

/-- Words that can be printed, and strings whose literals read as `f` says. -/
abbrev Doc.Readable (scan : Scan) (st : Style) (f : List Nat → List Nat) (d : Doc) : Prop :=
  d.All Word fun value => (Lexeme.str (st.lit value) (f value)).Ok scan

/-- Each lexeme of the token stands for itself. -/
def Tok.Readable (scan : Scan) (st : Style) (f : List Nat → List Nat) (tok : Tok) : Prop :=
  ∀ l ∈ tok.printed st f, l.Ok scan

variable {scan : Scan}

/-- Punctuation is read back. -/
theorem Tok.readable_punct {c : Nat} (hc : isPunct c = true) :
    (Tok.punct c).Readable scan st f := by
  intro l hl
  obtain rfl | hl := List.mem_cons.1 hl
  · exact hc
  · obtain ⟨x, hx, rfl⟩ := List.mem_map.1 hl
    exact st.after_space c x hx

/-- A string is read back where its literal is. -/
theorem Tok.readable_str {value : List Nat} (h : (Lexeme.str (st.lit value) (f value)).Ok scan) :
    (Tok.str value).Readable scan st f := by
  intro l hl
  obtain rfl := List.mem_singleton.1 hl
  exact h

/-- Every token of a readable document is read back. -/
theorem Doc.readable_toks {d : Doc} (h : d.Readable scan st f) :
    ∀ tok ∈ d.toks, tok.Readable scan st f := by
  induction d using Doc.induct with
  | word text =>
      cases h with
      | word word =>
          intro tok htok l hl
          obtain rfl := List.mem_singleton.1 htok
          obtain rfl := List.mem_singleton.1 hl
          exact word
  | str value =>
      cases h with
      | str str =>
          intro tok htok
          obtain rfl := List.mem_singleton.1 htok
          exact Tok.readable_str str
  | arr items ih =>
      cases h with
      | arr each =>
          exact (Doc.forall_toks_arr (fun c hc => Tok.readable_punct hc) items).2
            fun d hd => ih d hd (each d hd)
  | obj entries ih =>
      cases h with
      | obj keys each =>
          exact (Doc.forall_toks_obj (fun c hc => Tok.readable_punct hc) entries).2
            fun e he => ⟨Tok.readable_str (keys e he), ih e he (each e he)⟩

/-- The first lexeme of a token is a word only if the token is. -/
theorem Tok.apart_printed {tok next : Tok} (h : Beside tok next) {l : Lexeme}
    (hl : (next.printed st f).head? = some l) {text : List Nat} (htok : tok = .word text) :
    Apart (.word text) l := by
  subst htok
  cases next with
  | word text' => cases h
  | punct c =>
      obtain rfl := Option.some.inj hl
      trivial
  | str value =>
      obtain rfl := Option.some.inj hl
      trivial

/-- White space may stand before anything. -/
theorem isChain_spaces {cs : List Nat} {ls : List Lexeme} (h : ls.IsChain Apart) :
    (cs.map Lexeme.space ++ ls).IsChain Apart := by
  induction cs with
  | nil => exact h
  | cons c cs ih => exact List.isChain_cons.2 ⟨fun _ _ => trivial, ih⟩

/-- What may stand side by side is printed apart. -/
theorem isChain_printed {toks : List Tok} (h : toks.IsChain Beside) :
    (toks.flatMap (Tok.printed st f)).IsChain Apart := by
  induction toks with
  | nil => exact List.IsChain.nil
  | cons tok toks ih =>
      obtain ⟨hnext, hrest⟩ := List.isChain_cons.1 h
      have htail := ih hrest
      rw [List.flatMap_cons]
      cases tok with
      | punct c => exact List.isChain_cons.2 ⟨fun _ _ => trivial, isChain_spaces htail⟩
      | str value => exact List.isChain_cons.2 ⟨fun _ _ => trivial, htail⟩
      | word text =>
          refine List.isChain_cons.2 ⟨?_, htail⟩
          intro l hl
          cases toks with
          | nil => cases hl
          | cons next toks =>
              have hhead : (next.printed st f).head? = some l := by
                cases next <;> exact hl
              exact Tok.apart_printed (hnext next rfl) hhead rfl

/-- **Round trip.**  A printed document reads as the document with every
string as its literal is read. -/
theorem Doc.read_print {d : Doc} (h : d.Readable scan st f) :
    read scan (d.print st) = some (d.mapStr f) := by
  rw [← d.textOf_printed (f := f)]
  have hlexed : Lexed scan (d.toks.flatMap (Tok.printed st f)) := by
    refine ⟨?_, isChain_printed d.beside⟩
    intro l hl
    obtain ⟨tok, htok, hl⟩ := List.mem_flatMap.1 hl
    exact Doc.readable_toks h tok htok l hl
  refine read_textOf hlexed ?_
  rw [tokens_printed, ← d.toks_mapStr]
  exact Doc.reads_iff.2 rfl

end JsonText
