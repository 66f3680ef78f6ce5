import StockAnalyst.PrintedText

/-!
# Compact ASCII texts of documents

The text of a document without white space, in which strings are written with
`\uXXXX` escapes.  It reads back as the document, so two documents with one
text are equal: a hash of the text commits to the document.
-/

namespace JsonText

open Python

mutual

/-- The compact text of a document. -/
def Doc.text : Doc → List Nat
  | .word text => text
  | .str value => dumpsStr value
  | .arr items => 0x5B :: PyStr.join [0x2C] (Doc.texts items) ++ [0x5D]
  | .obj entries => 0x7B :: PyStr.join [0x2C] (Doc.entryTexts entries) ++ [0x7D]

def Doc.texts : List Doc → List (List Nat)
  | [] => []
  | d :: items => d.text :: Doc.texts items

def Doc.entryTexts : List (List Nat × Doc) → List (List Nat)
  | [] => []
  | (key, d) :: entries => (dumpsStr key ++ 0x3A :: d.text) :: Doc.entryTexts entries

end

/-- The texts of an object, entry by entry. -/
theorem Doc.entryTexts_eq_map (entries : List (List Nat × Doc)) :
    Doc.entryTexts entries = entries.map fun e => dumpsStr e.1 ++ 0x3A :: e.2.text := by
  induction entries with
  | nil => rfl
  | cons e entries ih =>
      obtain ⟨key, d⟩ := e
      rw [Doc.entryTexts, List.map_cons, ih]

/-- Words are ASCII words and strings are made of code units. -/
inductive Doc.Printable : Doc → Prop
  | word {text} (ne : text ≠ []) (chars : ∀ c ∈ text, isWord c = true)
      (ascii : ∀ c ∈ text, c < 0x80) : Printable (.word text)
  | str {value} (units : ∀ u ∈ value, u < 0x10000) : Printable (.str value)
  | arr {items} (each : ∀ d ∈ items, Printable d) : Printable (.arr items)
  | obj {entries} (keys : ∀ e ∈ entries, ∀ u ∈ e.1, u < 0x10000)
      (each : ∀ e ∈ entries, Printable e.2) : Printable (.obj entries)

/-! ## The text is ASCII -/

/-- An escape is visible ASCII. -/
theorem unitEscape_ascii (u : Nat) : ∀ c ∈ unitEscape u, 0x20 ≤ c ∧ c ≤ 0x7E := by
  have h₁ := hexDigit_range (n := u / 4096 % 16) (Nat.mod_lt _ (by decide))
  have h₂ := hexDigit_range (n := u / 256 % 16) (Nat.mod_lt _ (by decide))
  have h₃ := hexDigit_range (n := u / 16 % 16) (Nat.mod_lt _ (by decide))
  have h₄ := hexDigit_range (n := u % 16) (Nat.mod_lt _ (by decide))
  intro c hc
  simp only [unitEscape, List.mem_cons, List.not_mem_nil, or_false] at hc
  omega

/-- An escaped character is ASCII. -/
theorem escapeChar_ascii (u : Nat) : ∀ c ∈ escapeChar u, c < 0x80 := by
  have hescape : ∀ u, ∀ c ∈ unitEscape u, c < 0x80 := by
    intro u c hc
    have := unitEscape_ascii u c hc
    omega
  unfold escapeChar
  split_ifs with h₁ h₂ h₃ h₄ h₅ h₆ h₇ hprint hbmp
  · decide
  · decide
  · decide
  · decide
  · decide
  · decide
  · decide
  · intro c hc
    obtain rfl := List.mem_singleton.1 hc
    omega
  · exact hescape u
  · intro c hc
    obtain hc | hc := List.mem_append.1 hc
    · exact hescape _ c hc
    · exact hescape _ c hc

/-- A literal is ASCII. -/
theorem dumpsStr_ascii (s : List Nat) : ∀ c ∈ dumpsStr s, c < 0x80 := by
  intro c hc
  simp only [dumpsStr, List.cons_append, List.mem_cons, List.mem_append, List.mem_flatMap,
    List.not_mem_nil, or_false] at hc
  obtain rfl | ⟨u, -, hu⟩ | rfl := hc
  · decide
  · exact escapeChar_ascii u c hu
  · decide

/-! ## Printing -/

/-- The printer of compact ASCII texts. -/
def compactStyle : Style := ⟨dumpsStr, [], [], nothing_space, nothing_space⟩

/-- The canonical text is the compact one. -/
theorem Doc.text_eq_print (d : Doc) : d.text = d.print compactStyle := by
  induction d using Doc.induct with
  | word text => rfl
  | str value => rfl
  | arr items ih =>
      have hitems : Doc.texts items = Doc.printItems compactStyle items := by
        induction items with
        | nil => rfl
        | cons d items ih' =>
            obtain ⟨hd, hitems⟩ := List.forall_mem_cons.1 ih
            rw [Doc.texts, Doc.printItems, hd, ih' hitems]
      rw [Doc.text, Doc.print, hitems]
      rfl
  | obj entries ih =>
      have hentries : Doc.entryTexts entries = Doc.printEntries compactStyle entries := by
        induction entries with
        | nil => rfl
        | cons e entries ih' =>
            obtain ⟨hd, hentries⟩ := List.forall_mem_cons.1 ih
            rw [Doc.entryTexts, Doc.printEntries, hd, ih' hentries]
            simp [compactStyle]
      rw [Doc.text, Doc.print, hentries]
      rfl

/-- The words of a printable document are ASCII. -/
theorem Doc.Printable.ascii {d : Doc} (h : d.Printable) :
    d.All (fun text => ∀ c ∈ text, c < 0x80) fun _ => True := by
  induction h with
  | word _ _ ascii => exact .word ascii
  | str _ => exact .str trivial
  | arr _ ih => exact .arr ih
  | obj _ _ ih => exact .obj (fun _ _ => trivial) ih

/-- White space is ASCII. -/
theorem isSpace_ascii {c : Nat} (h : isSpace c = true) : c < 0x80 := by
  have := (isSpace_lt h).1
  omega

/-- Punctuation is ASCII. -/
theorem isPunct_ascii {c : Nat} (h : isPunct c = true) : c < 0x80 := by
  simp only [isPunct, Bool.or_eq_true, decide_eq_true_eq] at h
  omega

/-- The text of a printable document is ASCII. -/
theorem Doc.text_ascii {d : Doc} (h : d.Printable) : ∀ c ∈ d.text, c < 0x80 := by
  rw [d.text_eq_print]
  exact Doc.forall_print (fun c hc => isPunct_ascii hc) (fun c hc => isSpace_ascii hc)
    (fun _ h => h) (fun value _ => dumpsStr_ascii value) h.ascii

/-! ## Reading back -/

/-- The literal of a string in the compact text. -/
theorem ok_dumpsStr {value : List Nat} (h : ∀ u ∈ value, u < 0x10000) :
    (Lexeme.str (dumpsStr value) value).Ok scanUnits := by
  refine ⟨value.flatMap escapeChar ++ [0x22], rfl, ?_⟩
  intro rest
  rw [List.append_assoc]
  exact scanUnits_dumpsStr h rest

/-- A printable document is read back. -/
theorem Doc.Printable.readable {d : Doc} (h : d.Printable) :
    d.Readable scanUnits compactStyle id := by
  induction h with
  | word ne chars _ => exact .word ⟨ne, chars⟩
  | str units => exact .str (ok_dumpsStr units)
  | arr each ih => exact .arr ih
  | obj keys each ih => exact .obj (fun e he => ok_dumpsStr (keys e he)) ih

/-- **Round trip.**  The compact text of a document reads as the document. -/
theorem Doc.read_text {d : Doc} (h : d.Printable) : read scanUnits d.text = some d := by
  rw [d.text_eq_print, Doc.read_print h.readable, Doc.mapStr_id]

/-- Documents with one text are equal. -/
theorem Doc.text_injective {d d' : Doc} (h : d.Printable) (h' : d'.Printable)
    (htext : d.text = d'.text) : d = d' := by
  have hread := Doc.read_text h
  rw [htext, Doc.read_text h'] at hread
  exact (Option.some.inj hread).symm

end JsonText
