import StockAnalyst.SpacedText
import StockAnalyst.ManifestLexemes

/-!
# The round trip of strings through `json`

`json.loads` reads what `json.dumps` writes of any string: the escapes stand
for code units, and a pair of surrogates is read as one code point.
-/

namespace Python

open JsonText Deliverable

/-! ## Reading one character -/

/-- A quote ends the string. -/
theorem scanPoints_quote (rest : List Nat) : scanPoints (0x22 :: rest) = some ([], rest) := by
  rw [scanPoints.eq_def]
  rfl

/-- A short escape is one code point. -/
theorem scanPoints_short {e u : Nat} (he : e ≠ 117) (hu : escaped e = some u)
    (text : List Nat) :
    scanPoints (0x5C :: e :: text) =
      (scanPoints text).map fun (value, last) => (u :: value, last) := by
  rw [scanPoints.eq_def]
  simp [he, hu]

/-- Any other character stands for itself. -/
theorem scanPoints_plain {c : Nat} (hquote : c ≠ 0x22) (hslash : c ≠ 0x5C)
    (hlow : ¬ c < 0x20) (text : List Nat) :
    scanPoints (c :: text) =
      (scanPoints text).map fun (value, last) => (c :: value, last) := by
  rw [scanPoints.eq_def]
  simp [hquote, hslash, hlow]

/-- Two escapes of a pair are one code point. -/
theorem scanPoints_pair {a b c d unit low : Nat} {text after : List Nat}
    (hunit : hexValue4 a b c d = some unit) (hhigh : isHigh unit = true)
    (hlow : lowEscape text = some (low, after)) :
    scanPoints (0x5C :: 117 :: a :: b :: c :: d :: text) =
      (scanPoints after).map fun (value, last) => (combine unit low :: value, last) := by
  rw [scanPoints.eq_def]
  unfold lowEscape at hlow
  split at hlow
  · dsimp only at hlow
    split at hlow
    · rename_i hcond
      obtain ⟨rfl, rfl⟩ := Prod.mk.inj (Option.some.inj hlow)
      simp [hunit, hhigh, hcond]
    · cases hlow
  · cases hlow

/-- An escape without a partner is one code point. -/
theorem scanPoints_alone {a b c d unit : Nat} {text : List Nat}
    (hunit : hexValue4 a b c d = some unit)
    (halone : isHigh unit = true → lowEscape text = none) :
    scanPoints (0x5C :: 117 :: a :: b :: c :: d :: text) =
      (scanPoints text).map fun (value, last) => (unit :: value, last) := by
  rw [scanPoints.eq_def]
  simp only [if_false, if_true, hunit, Option.bind_some,
    show (0x5C : Nat) ≠ 0x22 by decide]
  split
  · rename_i b u l₁ l₂ l₃ l₄ after
    by_cases hcond : isHigh unit = true ∧ b = 0x5C ∧ u = 117 ∧
        (hexValue4 l₁ l₂ l₃ l₄).any isLow = true
    · have hnone := halone hcond.1
      simp [lowEscape, hcond.2] at hnone
    · rw [if_neg hcond]
  · rfl

/-! ## Escapes -/

/-- The text of one code unit in a literal. -/
def Escapes (text : List Nat) (u : Nat) : Prop :=
  u < 0x10000 ∧ (text = unitEscape u ∨ text = escapeChar u)

/-- Four digits of a code unit are read as that unit. -/
theorem hexValue4_unit {u : Nat} (hu : u < 0x10000) :
    hexValue4 (hexDigit (u / 4096 % 16)) (hexDigit (u / 256 % 16))
      (hexDigit (u / 16 % 16)) (hexDigit (u % 16)) = some u := by
  have hvalue : ((u / 4096 % 16 * 16 + u / 256 % 16) * 16 + u / 16 % 16) * 16 + u % 16 = u := by
    omega
  simp only [hexValue4, hexValue_hexDigit (Nat.mod_lt _ (by decide : 0 < 16)),
    Option.bind_some, Option.map_some, hvalue]

/-- The escape of a low surrogate is seen ahead. -/
theorem lowEscape_unit {u : Nat} (hu : u < 0x10000) (text : List Nat) :
    lowEscape (unitEscape u ++ text) = if isLow u = true then some (u, text) else none := by
  simp [unitEscape, lowEscape, hexValue4_unit hu]

/-- Only a backslash begins an escape. -/
theorem lowEscape_head {c : Nat} (hc : c ≠ 0x5C) (text : List Nat) :
    lowEscape (c :: text) = none := by
  unfold lowEscape
  split
  · rename_i heq
    obtain ⟨rfl, -⟩ := List.cons.inj heq
    simp [hc]
  · rfl

/-- A short escape is no low surrogate. -/
theorem lowEscape_short {e : Nat} (he : e ≠ 117) (text : List Nat) :
    lowEscape (0x5C :: e :: text) = none := by
  unfold lowEscape
  split
  · rename_i heq
    obtain ⟨-, htail⟩ := List.cons.inj heq
    obtain ⟨rfl, -⟩ := List.cons.inj htail
    simp [he]
  · rfl

/-- How one code unit is written: bare, as a short escape, or as `\uXXXX`. -/
theorem Escapes.forms {text : List Nat} {u : Nat} (h : Escapes text u) :
    text = unitEscape u ∨ (∃ e, e ≠ 117 ∧ escaped e = some u ∧ text = [0x5C, e] ∧ u < 0x7F) ∨
      (text = [u] ∧ 0x20 ≤ u ∧ u ≤ 0x7E ∧ u ≠ 0x22 ∧ u ≠ 0x5C) := by
  obtain ⟨hu, rfl | rfl⟩ := h
  · exact Or.inl rfl
  have hshort : ∀ e v, u = v → e ≠ 117 → escaped e = some v → v < 0x7F →
      ∃ e', e' ≠ 117 ∧ escaped e' = some u ∧ [0x5C, e] = [0x5C, e'] ∧ u < 0x7F := by
    intro e v hv he hescaped hlow
    subst hv
    exact ⟨e, he, hescaped, rfl, hlow⟩
  unfold escapeChar
  split_ifs with h₁ h₂ h₃ h₄ h₅ h₆ h₇ hprint
  · exact Or.inr (Or.inl (hshort 0x22 _ h₁ (by decide) rfl (by decide)))
  · exact Or.inr (Or.inl (hshort 0x5C _ h₂ (by decide) rfl (by decide)))
  · exact Or.inr (Or.inl (hshort 110 _ h₃ (by decide) rfl (by decide)))
  · exact Or.inr (Or.inl (hshort 114 _ h₄ (by decide) rfl (by decide)))
  · exact Or.inr (Or.inl (hshort 116 _ h₅ (by decide) rfl (by decide)))
  · exact Or.inr (Or.inl (hshort 102 _ h₆ (by decide) rfl (by decide)))
  · exact Or.inr (Or.inl (hshort 98 _ h₇ (by decide) rfl (by decide)))
  · exact Or.inr (Or.inr ⟨rfl, hprint.1, hprint.2, h₁, h₂⟩)
  · exact Or.inl rfl

/-- Low surrogates begin at `DC00`. -/
theorem isLow_ge {c : Nat} (h : isLow c = true) : 0xDC00 ≤ c := by
  simp only [isLow, Bool.and_eq_true, decide_eq_true_eq] at h
  exact h.1

/-- High surrogates begin at `D800`. -/
theorem isHigh_ge {c : Nat} (h : isHigh c = true) : 0xD800 ≤ c := by
  simp only [isHigh, Bool.and_eq_true, decide_eq_true_eq] at h
  exact h.1

/-- An escaped low surrogate is seen ahead. -/
theorem Escapes.lowEscape {text rest : List Nat} {u : Nat} (h : Escapes text u) :
    lowEscape (text ++ rest) = if isLow u = true then some (u, rest) else none := by
  have hplain : u < 0x7F → ¬ isLow u = true := by
    intro hu hlow
    have := isLow_ge hlow
    omega
  obtain rfl | ⟨e, he, -, rfl, hu⟩ | ⟨rfl, -, hu, -, hslash⟩ := h.forms
  · exact lowEscape_unit h.1 rest
  · rw [if_neg (hplain hu)]
    exact lowEscape_short he rest
  · rw [if_neg (hplain (by omega))]
    exact lowEscape_head hslash rest

/-- A unit that is not the first of a pair is read by itself. -/
theorem Escapes.scan {text rest : List Nat} {u : Nat} (h : Escapes text u)
    (halone : isHigh u = true → Deliverable.lowEscape rest = none) :
    scanPoints (text ++ rest) =
      (scanPoints rest).map fun (value, last) => (u :: value, last) := by
  obtain rfl | ⟨e, he, hescaped, rfl, -⟩ | ⟨rfl, hlow, -, hquote, hslash⟩ := h.forms
  · exact scanPoints_alone (hexValue4_unit h.1) halone
  · exact scanPoints_short he hescaped rest
  · exact scanPoints_plain hquote hslash (by omega) rest

/-- An escaped high surrogate is joined to the low one ahead. -/
theorem Escapes.scan_pair {text rest after : List Nat} {u low : Nat} (h : Escapes text u)
    (hhigh : isHigh u = true) (hlow : Deliverable.lowEscape rest = some (low, after)) :
    scanPoints (text ++ rest) =
      (scanPoints after).map fun (value, last) => (combine u low :: value, last) := by
  have hge := isHigh_ge hhigh
  obtain rfl | ⟨e, -, -, rfl, hu⟩ | ⟨rfl, -, hu, -⟩ := h.forms
  · exact scanPoints_pair (hexValue4_unit h.1) hhigh hlow
  · omega
  · omega

/-- **The literal of code units** is read as the units, surrogate pairs
joined. -/
theorem scanPoints_escapes (rest : List Nat) : ∀ ps : List (List Nat × Nat),
    (∀ p ∈ ps, Escapes p.1 p.2) →
    scanPoints (ps.flatMap Prod.fst ++ 0x22 :: rest) = some (rejoin (ps.map Prod.snd), rest)
  | [], _ => scanPoints_quote rest
  | [p], h => by
      have hp := h p List.mem_cons_self
      have hscan := @Escapes.scan p.1 (0x22 :: rest) p.2 hp
        (fun _ => lowEscape_head (by decide) rest)
      simpa [rejoin, scanPoints_quote] using hscan
  | p :: q :: ps, h => by
      obtain ⟨hp, htail⟩ := List.forall_mem_cons.1 h
      obtain ⟨hq, hps⟩ := List.forall_mem_cons.1 htail
      simp only [List.flatMap_cons, List.append_assoc, List.map_cons]
      by_cases hpair : isHigh p.2 = true ∧ isLow q.2 = true
      · have hlow := @Escapes.lowEscape q.1 (ps.flatMap Prod.fst ++ 0x22 :: rest) q.2 hq
        rw [if_pos hpair.2] at hlow
        rw [hp.scan_pair hpair.1 hlow, scanPoints_escapes rest ps hps]
        simp [rejoin, hpair]
      · have halone : isHigh p.2 = true →
            Deliverable.lowEscape (q.1 ++ (ps.flatMap Prod.fst ++ 0x22 :: rest)) = none := by
          intro hhigh
          rw [hq.lowEscape, if_neg fun hlow => hpair ⟨hhigh, hlow⟩]
        have hrest := scanPoints_escapes rest (q :: ps) htail
        simp only [List.flatMap_cons, List.append_assoc, List.map_cons] at hrest
        rw [hp.scan halone, hrest]
        simp [rejoin, hpair]

/-! ## Strings -/

/-- The escapes of a string with the code units they stand for. -/
def escapes (s : PyStr) : List (List Nat × Nat) :=
  s.flatMap fun c =>
    if c < 0x10000 then [(escapeChar c, c)]
    else [(unitEscape (highUnit c), highUnit c % 0x10000),
      (unitEscape (lowUnit c), lowUnit c)]

/-- What `json.loads` reads of the literal `json.dumps` writes. -/
def loadedStr (s : PyStr) : PyStr := rejoin ((escapes s).map Prod.snd)

/-- An escape shows the last 16 bits. -/
theorem unitEscape_mod (u : Nat) : unitEscape (u % 0x10000) = unitEscape u := by
  unfold unitEscape
  rw [show u % 0x10000 / 4096 % 16 = u / 4096 % 16 by omega,
    show u % 0x10000 / 256 % 16 = u / 256 % 16 by omega,
    show u % 0x10000 / 16 % 16 = u / 16 % 16 by omega,
    show u % 0x10000 % 16 = u % 16 by omega]

/-- The escapes of a text are its escaped characters. -/
theorem escapes_text (s : PyStr) : (escapes s).flatMap Prod.fst = s.flatMap escapeChar := by
  induction s with
  | nil => rfl
  | cons c s ih =>
      unfold escapes at ih ⊢
      rw [List.flatMap_cons, List.flatMap_cons, List.flatMap_append, ih]
      congr 1
      by_cases hc : c < 0x10000
      · simp [hc]
      · simp [hc, escapeChar, show c ≠ 0x22 by omega, show c ≠ 0x5C by omega,
          show c ≠ 0x0A by omega, show c ≠ 0x0D by omega, show c ≠ 0x09 by omega,
          show c ≠ 0x0C by omega, show c ≠ 0x08 by omega, show ¬ c ≤ 0x7E by omega]

/-- Every one of them escapes what it stands for. -/
theorem escapes_each (s : PyStr) : ∀ p ∈ escapes s, Escapes p.1 p.2 := by
  intro p hp
  obtain ⟨c, -, hp⟩ := List.mem_flatMap.1 hp
  by_cases hc : c < 0x10000
  · rw [if_pos hc] at hp
    obtain rfl := List.mem_singleton.1 hp
    exact ⟨hc, Or.inr rfl⟩
  · rw [if_neg hc] at hp
    obtain rfl | rfl : p = (unitEscape (highUnit c), highUnit c % 0x10000) ∨
        p = (unitEscape (lowUnit c), lowUnit c) := by simpa using hp
    · exact ⟨Nat.mod_lt _ (by decide), Or.inl (unitEscape_mod _).symm⟩
    · exact ⟨by simp only [lowUnit]; omega, Or.inl rfl⟩

/-- The literal of a string is read by `json.loads`. -/
theorem ok_loadedStr (s : PyStr) : (Lexeme.str (dumpsStr s) (loadedStr s)).Ok scanPoints := by
  refine ⟨s.flatMap escapeChar ++ [0x22], rfl, ?_⟩
  intro rest
  rw [List.append_assoc, ← escapes_text]
  exact scanPoints_escapes rest (escapes s) (escapes_each s)

/-- ASCII is Unicode. -/
theorem scalar_of_ascii {c : Nat} (h : c < 0x80) : Scalar c := by
  simp only [Scalar, isHigh, isLow, Bool.and_eq_false_iff, decide_eq_false_iff_not]
  omega

/-- ASCII text has no pair. -/
theorem noPair_of_ascii {s : PyStr} (h : ∀ c ∈ s, c < 0x80) : NoPair s :=
  noPair_of_scalar fun c hc => scalar_of_ascii (h c hc)

/-- An ASCII string is read as it was. -/
theorem loadedStr_ascii {s : PyStr} (h : ∀ c ∈ s, c < 0x80) : loadedStr s = s := by
  have hunits : (escapes s).map Prod.snd = s := by
    induction s with
    | nil => rfl
    | cons c s ih =>
        obtain ⟨hc, hs⟩ := List.forall_mem_cons.1 h
        have htail := ih hs
        unfold escapes at htail ⊢
        rw [List.flatMap_cons, if_pos (by omega), List.map_append, htail]
        rfl
  unfold loadedStr
  rw [hunits, (rejoin_eq_self_iff s).2 (noPair_of_ascii h)]

end Python
