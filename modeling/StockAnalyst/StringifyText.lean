import StockAnalyst.PyDumps
import StockAnalyst.Utf8

/-!
# Texts with `JSON.stringify` literals

`JSON.stringify` escapes lone surrogates, so its literals are well-formed, and
`JSON.parse` reads each back as the string.  Printed compactly, a document is
determined by its text, and the text by its UTF-8 bytes.
-/

namespace Js

open Python Deliverable

/-! ## Well-formed strings -/

/-- The code units of a list of scalar values: no surrogate stands alone. -/
def WellFormed (s : JsStr) : Prop := ∃ ps, (∀ c ∈ ps, Scalar c) ∧ s = utf16 ps

theorem scalar_ascii {c : Nat} (h : c < 0x80) : Scalar c := by
  refine ⟨?_, ?_, by omega⟩
  · simp only [isHigh, Bool.and_eq_false_iff, decide_eq_false_iff_not]
    omega
  · simp only [isLow, Bool.and_eq_false_iff, decide_eq_false_iff_not]
    omega

theorem wellFormed_ascii {s : JsStr} (h : ∀ c ∈ s, c < 0x80) : WellFormed s :=
  ⟨s, fun c hc => scalar_ascii (h c hc), (Deliverable.utf16_ascii h).symm⟩

/-- A text without lone surrogates is that of its code points. -/
theorem WellFormed.points {s : JsStr} (h : WellFormed s) :
    utf16 (points s) = s ∧ ∀ c ∈ Deliverable.points s, Scalar c := by
  obtain ⟨ps, hps, rfl⟩ := h
  have hread := points_utf16 (noPair_of_scalar hps) fun c hc => (hps c hc).2.2
  rw [hread]
  exact ⟨rfl, hps⟩

/-- A unit that is no high surrogate is encoded by itself. -/
theorem utf8_cons_scalar {c : Nat} (hhigh : isHigh c = false) (hlow : isLow c = false)
    (s : JsStr) : utf8 (c :: s) = utf8Point c ++ utf8 s := by
  cases s with
  | nil => simp [utf8, hhigh, hlow]
  | cons d s => simp [utf8, hhigh, hlow]

/-- The bytes of a well-formed string are those of its scalar values. -/
theorem utf8_utf16 {ps : List Nat} (h : ∀ c ∈ ps, Scalar c) :
    utf8 (utf16 ps) = ps.flatMap utf8Point := by
  induction ps with
  | nil => rfl
  | cons c ps ih =>
      obtain ⟨⟨hhigh, hlow, hlt⟩, hps⟩ := List.forall_mem_cons.1 h
      rw [utf16_cons, List.flatMap_cons, ← ih hps]
      by_cases hbmp : c < 0x10000
      · rw [Deliverable.pointUnits, if_pos hbmp, List.singleton_append, utf8_cons_scalar hhigh hlow]
      · have hpair : isHigh (highUnit c) = true ∧ isLow (lowUnit c) = true ∧
            combine (highUnit c) (lowUnit c) = c := by
          rw [isHigh_iff, isLow_iff]
          unfold highUnit lowUnit combine
          omega
        rw [Deliverable.pointUnits, if_neg hbmp, List.cons_append, List.cons_append,
          List.nil_append, utf8, hpair.1, hpair.2.1, hpair.2.2]
        rfl

/-- An ASCII string is its own code points. -/
theorem points_ascii {s : JsStr} (h : ∀ c ∈ s, c < 0x80) : Deliverable.points s = s := by
  have hpoints := points_utf16 (noPair_of_scalar fun c hc => scalar_ascii (h c hc)) fun c hc =>
    (scalar_ascii (h c hc)).2.2
  rwa [Deliverable.utf16_ascii h] at hpoints

/-- The bytes of a well-formed string. -/
theorem utf8Encode_points {s : JsStr} (h : WellFormed s) :
    utf8Encode (points s) = some (utf8 s) := by
  obtain ⟨ps, hps, rfl⟩ := h
  rw [points_utf16 (noPair_of_scalar hps) fun c hc => (hps c hc).2.2, utf8_utf16 hps]
  induction ps with
  | nil => rfl
  | cons c ps ih =>
      obtain ⟨⟨hhigh, hlow, hlt⟩, hps⟩ := List.forall_mem_cons.1 hps
      have hchar : utf8Char c = some (utf8Point c) := by
        simp only [isHigh, isLow, Bool.and_eq_false_iff, decide_eq_false_iff_not] at hhigh hlow
        have hsurrogate : ¬ (0xD800 ≤ c ∧ c < 0xE000) := by omega
        unfold utf8Char utf8Point
        rw [if_neg hsurrogate]
        split_ifs <;> rfl
      rw [utf8Encode, hchar, Option.bind_some, ih hps]
      rfl

/-- The bytes of a well-formed string are bytes. -/
theorem WellFormed.utf8_lt {s : JsStr} (h : WellFormed s) : ∀ b ∈ utf8 s, b < 256 := by
  obtain ⟨ps, hps, rfl⟩ := h
  rw [utf8_utf16 hps]
  intro b hb
  obtain ⟨c, hc, hb⟩ := List.mem_flatMap.1 hb
  have hlt := (hps c hc).2.2
  unfold utf8Point at hb
  split_ifs at hb
  · simp only [List.mem_singleton] at hb
    omega
  · simp only [List.mem_cons, List.not_mem_nil, or_false] at hb
    omega
  · simp only [List.mem_cons, List.not_mem_nil, or_false] at hb
    omega
  · simp only [List.mem_cons, List.not_mem_nil, or_false] at hb
    omega

/-- A list of code points is determined by its bytes. -/
theorem flatMap_utf8Point_inj {ps qs : List Nat}
    (h : ps.flatMap utf8Point = qs.flatMap utf8Point) : ps = qs := by
  induction ps generalizing qs with
  | nil =>
      cases qs with
      | nil => rfl
      | cons d qs => exact absurd (List.append_eq_nil_iff.1 h.symm).1 (utf8Point_ne_nil d)
  | cons c ps ih =>
      cases qs with
      | nil => exact absurd (List.append_eq_nil_iff.1 h).1 (utf8Point_ne_nil c)
      | cons d qs =>
          obtain ⟨rfl, hrest⟩ := utf8Point_append_inj h
          rw [ih hrest]

/-- A well-formed string is determined by its bytes. -/
theorem WellFormed.utf8_inj {s t : JsStr} (hs : WellFormed s) (ht : WellFormed t)
    (h : utf8 s = utf8 t) : s = t := by
  obtain ⟨ps, hps, rfl⟩ := hs
  obtain ⟨qs, hqs, rfl⟩ := ht
  rw [utf8_utf16 hps, utf8_utf16 hqs] at h
  rw [flatMap_utf8Point_inj h]

end Js

namespace JsonText

open Python Deliverable Js

/-! ## Literals -/

/-- What `JSON.stringify` writes for a code point is read as its units. -/
theorem scanUnits_stringifyPoint {c : Nat} (hc : c < 0x110000) (text : List Nat) :
    scanUnits (stringifyPoint c ++ text) =
      (scanUnits text).map fun (value, after) => (Deliverable.pointUnits c ++ value, after) := by
  have hshort : ∀ e : Nat, e ≠ 117 → escaped e = some c → c < 0x10000 →
      scanUnits ([0x5C, e] ++ text) =
        (scanUnits text).map fun (value, after) => (Deliverable.pointUnits c ++ value, after) := by
    intro e he hescaped hbmp
    simp only [List.cons_append, List.nil_append]
    rw [scanUnits_escaped he, hescaped, Option.bind_some, Deliverable.pointUnits, if_pos hbmp]
    rfl
  unfold stringifyPoint
  split_ifs with h₁ h₂ h₃ h₄ h₅ h₆ h₇ hescape
  · exact hshort 0x22 (by decide) (by rw [h₁]; rfl) (by omega)
  · exact hshort 0x5C (by decide) (by rw [h₂]; rfl) (by omega)
  · exact hshort 98 (by decide) (h₃ ▸ rfl) (by omega)
  · exact hshort 102 (by decide) (h₄ ▸ rfl) (by omega)
  · exact hshort 110 (by decide) (h₅ ▸ rfl) (by omega)
  · exact hshort 114 (by decide) (h₆ ▸ rfl) (by omega)
  · exact hshort 116 (by decide) (h₇ ▸ rfl) (by omega)
  · have hbmp : c < 0x10000 := by
      simp only [Bool.or_eq_true, decide_eq_true_eq, isHigh_iff, isLow_iff] at hescape
      omega
    rw [scanUnits_unitEscape hbmp, Deliverable.pointUnits, if_pos hbmp]
    rfl
  · simp only [Bool.or_eq_true, decide_eq_true_eq, not_or] at hescape
    by_cases hbmp : c < 0x10000
    · rw [Deliverable.pointUnits, if_pos hbmp]
      exact scanUnits_plain h₁ h₂ hescape.1.1 text
    · have hhigh : 0xD800 ≤ highUnit c := by
        unfold highUnit
        omega
      have hlow : 0xDC00 ≤ lowUnit c := by
        unfold lowUnit
        omega
      rw [Deliverable.pointUnits, if_neg hbmp]
      simp only [List.cons_append, List.nil_append]
      rw [scanUnits_plain (by omega) (by omega) (by omega),
        scanUnits_plain (by omega) (by omega) (by omega), Option.map_map]
      rfl

/-- **A literal that was written is scanned back.** -/
theorem scanUnits_stringify {ps : List Nat} (hps : ∀ c ∈ ps, c < 0x110000) (rest : List Nat) :
    scanUnits (ps.flatMap stringifyPoint ++ 0x22 :: rest) = some (utf16 ps, rest) := by
  induction ps with
  | nil => exact scanUnits_quote rest
  | cons c ps ih =>
      obtain ⟨hc, hps⟩ := List.forall_mem_cons.1 hps
      rw [List.flatMap_cons, List.append_assoc, scanUnits_stringifyPoint hc, ih hps,
        Option.map_some]
      rfl

/-- The literal of a string reads as the string. -/
theorem ok_stringify {value : JsStr} (h : ∀ u ∈ value, u < 0x10000) :
    (Lexeme.str (stringify value) value).Ok scanUnits := by
  refine ⟨(points value).flatMap stringifyPoint ++ [0x22], rfl, ?_⟩
  intro rest
  rw [List.append_assoc]
  have hread := scanUnits_stringify (points_lt h) rest
  rwa [utf16_points h] at hread

/-- A literal is well-formed, whatever the string is. -/
theorem wellFormed_stringify {value : JsStr} (h : ∀ u ∈ value, u < 0x10000) :
    WellFormed (stringify value) := by
  have hquote : Scalar 0x22 := scalar_ascii (by decide)
  have hbody : ∀ ps : List Nat, (∀ c ∈ ps, c < 0x110000) →
      WellFormed (ps.flatMap stringifyPoint) := by
    intro ps hps
    induction ps with
    | nil => exact ⟨[], by simp, rfl⟩
    | cons c ps ih =>
        obtain ⟨hc, hps⟩ := List.forall_mem_cons.1 hps
        obtain ⟨qs, hqs, htext⟩ := ih hps
        obtain ⟨first, hfirst, hscalar, -⟩ := stringifyPoint_points hc
        refine ⟨first ++ qs, List.forall_mem_append.2 ⟨hscalar, hqs⟩, ?_⟩
        rw [List.flatMap_cons, hfirst, htext, utf16_append]
  obtain ⟨ps, hps, htext⟩ := hbody _ (points_lt h)
  refine ⟨0x22 :: ps ++ [0x22], ?_, ?_⟩
  · exact List.forall_mem_append.2
      ⟨List.forall_mem_cons.2 ⟨hquote, hps⟩, List.forall_mem_singleton.2 hquote⟩
  · rw [stringify, htext, List.cons_append, List.cons_append, utf16_cons, utf16_append]
    rfl

/-! ## Documents -/

/-- The printer of compact texts with `JSON.stringify` literals, in code
points. -/
def stringifyStyle : Style :=
  ⟨fun value => points (stringify value), [], [], nothing_space, nothing_space⟩

/-- Words are ASCII words, and strings are made of code units. -/
abbrev Doc.Units (d : Doc) : Prop := d.All AsciiWord fun value => ∀ u ∈ value, u < 0x10000

/-- The style writes the literals of `stringify`. -/
theorem lit_stringifyStyle {value : JsStr} (h : ∀ u ∈ value, u < 0x10000) :
    stringifyStyle.utf16.lit value = stringify value :=
  (wellFormed_stringify h).points.1

/-- A document of code units can be read back. -/
theorem Doc.Units.readable {d : Doc} (h : d.Units) :
    d.Readable scanUnits stringifyStyle.utf16 id := by
  refine h.mono ?_ ?_
  · intro text hword
    exact ⟨hword.1, fun c hc => (hword.2 c hc).1⟩
  · intro value hvalue
    rw [lit_stringifyStyle hvalue]
    exact ok_stringify hvalue

/-- Documents with one text are equal. -/
theorem Doc.Units.print_inj {d d' : Doc} (h : d.Units) (h' : d'.Units)
    (htext : d.print stringifyStyle.utf16 = d'.print stringifyStyle.utf16) : d = d' := by
  have hread := Doc.read_print h.readable
  rw [htext, Doc.read_print h'.readable, Doc.mapStr_id, Doc.mapStr_id] at hread
  exact (Option.some.inj hread).symm

/-- The text of a document is well-formed. -/
theorem Doc.Units.wellFormed {d : Doc} (h : d.Units) :
    WellFormed (d.print stringifyStyle.utf16) := by
  refine ⟨d.print stringifyStyle, ?_, (Doc.utf16_print _ h).symm⟩
  refine Doc.forall_print (fun c hc => scalar_ascii (isPunct_ascii hc))
    (fun c hc => scalar_ascii (isSpace_ascii hc)) ?_ ?_ h
  · intro text hword c hc
    exact scalar_ascii (hword.2 c hc).2
  · intro value hvalue
    exact (wellFormed_stringify hvalue).points.2

end JsonText
