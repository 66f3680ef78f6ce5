import StockAnalyst.CanonicalText

/-!
# Texts with the default separators

`json.dumps(value)` puts a blank behind every comma and colon.  Whatever reads
the string literals of such a text reads the document, each string as the
reader reads it.
-/

namespace JsonText

open Python

mutual

/-- The text of a document with the separators `", "` and `": "`. -/
def Doc.spaced : Doc → List Nat
  | .word text => text
  | .str value => dumpsStr value
  | .arr items => 0x5B :: PyStr.join [0x2C, 0x20] (Doc.spacedItems items) ++ [0x5D]
  | .obj entries => 0x7B :: PyStr.join [0x2C, 0x20] (Doc.spacedEntries entries) ++ [0x7D]

def Doc.spacedItems : List Doc → List (List Nat)
  | [] => []
  | d :: items => d.spaced :: Doc.spacedItems items

def Doc.spacedEntries : List (List Nat × Doc) → List (List Nat)
  | [] => []
  | (key, d) :: entries => (dumpsStr key ++ 0x3A :: 0x20 :: d.spaced) :: Doc.spacedEntries entries

end

/-- The printer of `json.dumps(value)`. -/
def spacedStyle : Style := ⟨dumpsStr, [0x20], [0x20], blank_space, blank_space⟩

theorem Doc.spaced_eq_print (d : Doc) : d.spaced = d.print spacedStyle := by
  induction d using Doc.induct with
  | word text => rfl
  | str value => rfl
  | arr items ih =>
      have hitems : Doc.spacedItems items = Doc.printItems spacedStyle items := by
        induction items with
        | nil => rfl
        | cons d items ih' =>
            obtain ⟨hd, hitems⟩ := List.forall_mem_cons.1 ih
            rw [Doc.spacedItems, Doc.printItems, hd, ih' hitems]
      rw [Doc.spaced, Doc.print, hitems]
      rfl
  | obj entries ih =>
      have hentries : Doc.spacedEntries entries = Doc.printEntries spacedStyle entries := by
        induction entries with
        | nil => rfl
        | cons e entries ih' =>
            obtain ⟨hd, hentries⟩ := List.forall_mem_cons.1 ih
            rw [Doc.spacedEntries, Doc.printEntries, hd, ih' hentries]
            simp [spacedStyle]
      rw [Doc.spaced, Doc.print, hentries]
      rfl

/-- Words that can be printed, in every place of a document. -/
inductive Doc.Worded : Doc → Prop
  | word {text} (ne : text ≠ []) (chars : ∀ c ∈ text, isWord c = true) : Worded (.word text)
  | str (value) : Worded (.str value)
  | arr {items} (each : ∀ d ∈ items, Worded d) : Worded (.arr items)
  | obj {entries} (each : ∀ e ∈ entries, Worded e.2) : Worded (.obj entries)

variable {f : List Nat → List Nat} {scan : Scan}

/-- Where every literal can be read, the words decide. -/
theorem Doc.Worded.readable {st : Style} {d : Doc} (h : d.Worded)
    (hstr : ∀ value, (Lexeme.str (st.lit value) (f value)).Ok scan) : d.Readable scan st f := by
  induction h with
  | word ne chars => exact .word ⟨ne, chars⟩
  | str value => exact .str (hstr value)
  | arr each ih => exact .arr ih
  | obj each ih => exact .obj (fun e _ => hstr e.1) ih

/-- **Round trip.**  The spaced text of a document reads as the document with
every string as its literal is read. -/
theorem Doc.read_spaced {d : Doc} (h : d.Worded)
    (hstr : ∀ value, (Lexeme.str (dumpsStr value) (f value)).Ok scan) :
    read scan d.spaced = some (d.mapStr f) := by
  have hread : d.Readable scan spacedStyle f := h.readable hstr
  rw [d.spaced_eq_print]
  exact Doc.read_print hread

end JsonText
