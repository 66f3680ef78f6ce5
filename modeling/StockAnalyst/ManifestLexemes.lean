import StockAnalyst.ManifestText
import StockAnalyst.PyLoads

/-!
# The lexemes of a manifest on both sides

Python reads code points, the buyer reads their UTF-16 code units.  Both read
the same lexemes: a string literal has the same value, once in code points and
once in code units.
-/

namespace Deliverable

open Js JsonText Python

/-! ## Code units -/

/-- A hexadecimal digit is visible ASCII, and its value below sixteen. -/
theorem hexValue_lt {c n : Nat} (h : hexValue c = some n) : c < 0x80 ∧ n < 16 ∧ c ≠ 0x22 ∧
    c ≠ 0x5C ∧ 0x20 ≤ c := by
  unfold hexValue at h
  split_ifs at h
  · obtain rfl := Option.some.inj h
    omega
  · obtain rfl := Option.some.inj h
    omega
  · obtain rfl := Option.some.inj h
    omega

/-- Four digits that stand for a number. -/
theorem hexValue4_some {a b c d n : Nat} (h : hexValue4 a b c d = some n) :
    n < 0x10000 ∧ ∀ x ∈ [a, b, c, d], x < 0x80 ∧ x ≠ 0x22 ∧ x ≠ 0x5C := by
  obtain ⟨a', ha, h⟩ := Option.bind_eq_some_iff.1 h
  obtain ⟨b', hb, h⟩ := Option.bind_eq_some_iff.1 h
  obtain ⟨c', hc, h⟩ := Option.bind_eq_some_iff.1 h
  obtain ⟨d', hd, h⟩ := Option.map_eq_some_iff.1 h
  have ha' := hexValue_lt ha
  have hb' := hexValue_lt hb
  have hc' := hexValue_lt hc
  have hd' := hexValue_lt hd
  refine ⟨by omega, ?_⟩
  simp only [List.mem_cons, List.not_mem_nil, or_false, forall_eq_or_imp, forall_eq]
  omega

/-- A short escape and what it stands for are ASCII. -/
theorem escaped_lt {e u : Nat} (h : escaped e = some u) : e < 0x80 ∧ u < 0x80 := by
  unfold escaped at h
  split_ifs at h <;> (obtain rfl := Option.some.inj h; omega)

/-- The value and the rest after one more unit. -/
theorem push_eq_some {r : Option (List Nat × List Nat)} {u : Nat} {value rest : List Nat}
    (h : r.map (fun (value, after) => (u :: value, after)) = some (value, rest)) :
    ∃ value', r = some (value', rest) ∧ value = u :: value' := by
  obtain ⟨⟨value', rest'⟩, hr, heq⟩ := Option.map_eq_some_iff.1 h
  obtain ⟨rfl, rfl⟩ := Prod.mk.inj heq
  exact ⟨value', hr, rfl⟩

/-- How a string literal goes on: it ends, or one unit is read. -/
inductive UnitStep : List Nat → Option Nat → List Nat → Prop
  | quote {rest} : UnitStep (0x22 :: rest) none rest
  | unit {a b c d u rest} (hex : hexValue4 a b c d = some u) :
      UnitStep (0x5C :: 117 :: a :: b :: c :: d :: rest) (some u) rest
  | short {e u rest} (he : e ≠ 117) (hu : escaped e = some u) :
      UnitStep (0x5C :: e :: rest) (some u) rest
  | plain {c rest} (hquote : c ≠ 0x22) (hslash : c ≠ 0x5C) (hlow : ¬ c < 0x20) :
      UnitStep (c :: rest) (some c) rest

/-- A literal that was read, one step at a time. -/
theorem scanUnits_step {text value rest : List Nat} (h : scanUnits text = some (value, rest)) :
    (UnitStep text none rest ∧ value = []) ∨
      ∃ u after value', UnitStep text (some u) after ∧
        scanUnits after = some (value', rest) ∧ value = u :: value' := by
  rw [scanUnits.eq_def] at h
  cases text with
  | nil => cases h
  | cons c text =>
      dsimp only at h
      by_cases hquote : c = 0x22
      · rw [if_pos hquote] at h
        obtain ⟨rfl, rfl⟩ := Prod.mk.inj (Option.some.inj h)
        subst hquote
        exact Or.inl ⟨.quote, rfl⟩
      rw [if_neg hquote] at h
      by_cases hslash : c = 0x5C
      · rw [if_pos hslash] at h
        subst hslash
        cases text with
        | nil => cases h
        | cons e text =>
            dsimp only at h
            by_cases he : e = 117
            · rw [if_pos he] at h
              subst he
              split at h
              · obtain ⟨u, hu, h⟩ := Option.bind_eq_some_iff.1 h
                obtain ⟨value', hrest, rfl⟩ := push_eq_some h
                exact Or.inr ⟨u, _, value', .unit hu, hrest, rfl⟩
              · cases h
            · rw [if_neg he] at h
              obtain ⟨u, hu, h⟩ := Option.bind_eq_some_iff.1 h
              obtain ⟨value', hrest, rfl⟩ := push_eq_some h
              exact Or.inr ⟨u, _, value', .short he hu, hrest, rfl⟩
      · rw [if_neg hslash] at h
        by_cases hlow : c < 0x20
        · rw [if_pos hlow] at h
          cases h
        · rw [if_neg hlow] at h
          obtain ⟨value', hrest, rfl⟩ := push_eq_some h
          exact Or.inr ⟨c, _, value', .plain hquote hslash hlow, hrest, rfl⟩

/-- A step reads its own characters only. -/
theorem UnitStep.local {text rest : List Nat} {u : Option Nat} (h : UnitStep text u rest) :
    ∃ head, head ≠ [] ∧ text = head ++ rest ∧ ∀ rest', UnitStep (head ++ rest') u rest' := by
  cases h with
  | quote => exact ⟨[0x22], by simp, rfl, fun rest' => .quote⟩
  | unit hex => exact ⟨[0x5C, 117, _, _, _, _], by simp, rfl, fun rest' => .unit hex⟩
  | short he hu => exact ⟨[0x5C, _], by simp, rfl, fun rest' => .short he hu⟩
  | plain hquote hslash hlow => exact ⟨[_], by simp, rfl, fun rest' => .plain hquote hslash hlow⟩

/-- The scanner of units stops where the string ends. -/
theorem UnitStep.scan_none {text rest : List Nat} (h : UnitStep text none rest) :
    scanUnits text = some ([], rest) := by
  cases h
  exact scanUnits_quote rest

/-- The scanner of units goes on after each unit. -/
theorem UnitStep.scan_some {text rest : List Nat} {u : Nat} (h : UnitStep text (some u) rest) :
    scanUnits text = (scanUnits rest).map fun (value, after) => (u :: value, after) := by
  cases h with
  | unit hex => rw [scanUnits_unit, hex, Option.bind_some]
  | short he hu => rw [scanUnits_escaped he, hu, Option.bind_some]
  | plain hquote hslash hlow => exact scanUnits_plain hquote hslash hlow rest

/-- A literal is read without looking at what follows. -/
theorem scanUnits_local : Local scanUnits := by
  intro text
  induction hlength : text.length using Nat.strong_induction_on generalizing text with
  | _ n ih =>
      intro value rest h
      obtain ⟨hstep, rfl⟩ | ⟨u, after, value', hstep, hscan, rfl⟩ := scanUnits_step h
      · obtain ⟨head, -, rfl, hlocal⟩ := hstep.local
        exact ⟨head, rfl, fun rest' => (hlocal rest').scan_none⟩
      · obtain ⟨head, hne, rfl, hlocal⟩ := hstep.local
        have hpos := List.length_pos_iff.2 hne
        obtain ⟨body, rfl, hbody⟩ := ih after.length
          (by rw [← hlength, List.length_append]; omega) after rfl value' rest hscan
        refine ⟨head ++ body, by simp, ?_⟩
        intro rest'
        rw [List.append_assoc, (hlocal _).scan_some, hbody rest', Option.map_some]

/-! ## Code points -/

/-- The escape of a low surrogate, and what follows it. -/
def lowEscape : List Nat → Option (Nat × List Nat)
  | b :: u :: l₁ :: l₂ :: l₃ :: l₄ :: after =>
      let low := hexValue4 l₁ l₂ l₃ l₄
      if b = 0x5C ∧ u = 117 ∧ low.any isLow then some (low.getD 0, after) else none
  | _ => none

/-- A low surrogate seen ahead is the next unit. -/
theorem lowEscape_some {text after : List Nat} {low : Nat}
    (h : lowEscape text = some (low, after)) : isLow low = true ∧ UnitStep text (some low) after := by
  unfold lowEscape at h
  split at h
  · dsimp only at h
    split at h
    · rename_i hcond
      obtain ⟨rfl, rfl, hlow⟩ := hcond
      obtain ⟨low', hhex, hlow'⟩ := (Option.any_eq_true _ _).1 hlow
      rw [hhex] at h
      obtain ⟨rfl, rfl⟩ := Prod.mk.inj (Option.some.inj h)
      exact ⟨hlow', .unit hhex⟩
    · cases h
  · cases h

/-- An escaped low surrogate is seen ahead. -/
theorem lowEscape_of_unit {a b c d low : Nat} {after : List Nat}
    (hhex : hexValue4 a b c d = some low) (hlow : isLow low = true) :
    lowEscape (0x5C :: 117 :: a :: b :: c :: d :: after) = some (low, after) := by
  simp [lowEscape, hhex, hlow]

/-- How Python reads a literal on: as the buyer does, but two escapes of a
surrogate pair are read at once. -/
def PointStep (text : List Nat) (u : Option Nat) (rest : List Nat) : Prop :=
  (UnitStep text u rest ∧
    ∀ a b c d unit, text = 0x5C :: 117 :: a :: b :: c :: d :: rest → u = some unit →
      isHigh unit = true → lowEscape rest = none) ∨
  ∃ high mid low, UnitStep text (some high) mid ∧ isHigh high = true ∧
    lowEscape mid = some (low, rest) ∧ u = some (combine high low)

/-- The scanner of code points takes one step and goes on. -/
theorem scanPoints_step {text value rest : List Nat} (h : scanPoints text = some (value, rest)) :
    (PointStep text none rest ∧ value = []) ∨
      ∃ u after value', PointStep text (some u) after ∧
        scanPoints after = some (value', rest) ∧ value = u :: value' := by
  rw [scanPoints.eq_def] at h
  cases text with
  | nil => cases h
  | cons c text =>
      dsimp only at h
      by_cases hquote : c = 0x22
      · rw [if_pos hquote] at h
        obtain ⟨rfl, rfl⟩ := Prod.mk.inj (Option.some.inj h)
        subst hquote
        exact Or.inl ⟨Or.inl ⟨.quote, by simp⟩, rfl⟩
      rw [if_neg hquote] at h
      by_cases hslash : c = 0x5C
      · rw [if_pos hslash] at h
        subst hslash
        cases text with
        | nil => cases h
        | cons e text =>
            dsimp only at h
            by_cases he : e = 117
            · rw [if_pos he] at h
              subst he
              split at h
              · rename_i h₁ h₂ h₃ h₄ text
                obtain ⟨unit, hunit, h⟩ := Option.bind_eq_some_iff.1 h
                split at h
                · rename_i b u l₁ l₂ l₃ l₄ after
                  split at h
                  · rename_i hcond
                    obtain ⟨hhigh, hb, hu, hlow⟩ := hcond
                    obtain ⟨value', hrest, rfl⟩ := push_eq_some h
                    refine Or.inr ⟨_, _, value', Or.inr ⟨unit, _, _, .unit hunit, hhigh, ?_, rfl⟩, hrest, rfl⟩
                    simp [lowEscape, hb, hu, hlow]
                  · rename_i hcond
                    obtain ⟨value', hrest, rfl⟩ := push_eq_some h
                    refine Or.inr ⟨unit, _, value', Or.inl ⟨.unit hunit, ?_⟩, hrest, rfl⟩
                    intro a b' c d unit' _ hsame hhigh
                    obtain rfl := Option.some.inj hsame
                    simp only [lowEscape]
                    rw [if_neg]
                    intro hboth
                    exact hcond ⟨hhigh, hboth⟩
                · rename_i hshort
                  obtain ⟨value', hrest, rfl⟩ := push_eq_some h
                  refine Or.inr ⟨unit, _, value', Or.inl ⟨.unit hunit, ?_⟩, hrest, rfl⟩
                  intro a b c d unit' _ _ _
                  unfold lowEscape
                  split
                  · exact absurd rfl (hshort _ _ _ _ _ _ _)
                  · rfl
              · cases h
            · rw [if_neg he] at h
              obtain ⟨u, hu, h⟩ := Option.bind_eq_some_iff.1 h
              obtain ⟨value', hrest, rfl⟩ := push_eq_some h
              refine Or.inr ⟨u, _, value', Or.inl ⟨.short he hu, ?_⟩, hrest, rfl⟩
              intro a b c d unit htext
              exact absurd (List.cons.inj (List.cons.inj htext).2).1 he
      · rw [if_neg hslash] at h
        by_cases hlow : c < 0x20
        · rw [if_pos hlow] at h
          cases h
        · rw [if_neg hlow] at h
          obtain ⟨value', hrest, rfl⟩ := push_eq_some h
          refine Or.inr ⟨c, _, value', Or.inl ⟨.plain hquote hslash hlow, ?_⟩, hrest, rfl⟩
          intro a b c' d unit htext
          exact absurd (List.cons.inj htext).1 hslash

/-- A code point of the basic plane is its own unit. -/
theorem pointUnits_bmp {c : Nat} (h : c < 0x10000) : pointUnits c = [c] := by
  rw [pointUnits, if_pos h]

/-- What a pair stands for is that pair of units. -/
theorem pointUnits_combine {high low : Nat} (hhigh : isHigh high = true)
    (hlow : isLow low = true) : pointUnits (combine high low) = [high, low] := by
  rw [isHigh_iff] at hhigh
  rw [isLow_iff] at hlow
  have hbig : ¬ combine high low < 0x10000 := Nat.not_lt.2 (combine_ge high low)
  rw [pointUnits, if_neg hbig]
  unfold highUnit lowUnit combine
  simp only [List.cons.injEq, and_true]
  omega

/-- A step over code points that are no surrogates, in their units. -/
theorem UnitStep.scan_utf16 {text rest : List Nat} {u : Nat} (h : UnitStep text (some u) rest)
    (htext : ∀ c ∈ text, Scalar c) :
    scanUnits (utf16 text) =
      (scanUnits (utf16 rest)).map fun (value, after) => (pointUnits u ++ value, after) := by
  have hslash : pointUnits 0x5C = [0x5C] := rfl
  cases h with
  | unit hex =>
      obtain ⟨hu, hdigits⟩ := hexValue4_some hex
      have hdigit : ∀ x < 0x80, pointUnits x = [x] := fun x hx => pointUnits_bmp (by omega)
      simp only [List.mem_cons, List.not_mem_nil, or_false, forall_eq_or_imp, forall_eq] at hdigits
      obtain ⟨ha, hb, hc, hd⟩ := hdigits
      have hletter : pointUnits 117 = [117] := rfl
      simp only [utf16_cons, hslash, hletter, hdigit _ ha.1, hdigit _ hb.1, hdigit _ hc.1,
        hdigit _ hd.1, pointUnits_bmp hu, List.cons_append, List.nil_append]
      rw [scanUnits_unit, hex, Option.bind_some]
  | @short e _ _ he hu =>
      obtain ⟨hlt, hult⟩ := escaped_lt hu
      simp only [utf16_cons, hslash, pointUnits_bmp (show e < 0x10000 by omega),
        List.cons_append, List.nil_append]
      rw [scanUnits_escaped he, hu, Option.bind_some, pointUnits_bmp (by omega)]
      rfl
  | plain hquote hback hlow =>
      by_cases hbmp : u < 0x10000
      · simp only [utf16_cons, pointUnits_bmp hbmp, List.cons_append, List.nil_append]
        rw [scanUnits_plain hquote hback hlow]
      · obtain ⟨-, -, hlt⟩ := htext u List.mem_cons_self
        have hhigh : 0xD800 ≤ highUnit u := by
          unfold highUnit
          omega
        have hlow' : 0xDC00 ≤ lowUnit u := by
          unfold lowUnit
          omega
        simp only [utf16_cons, pointUnits, if_neg hbmp, List.cons_append, List.nil_append]
        rw [scanUnits_plain (by omega) (by omega) (by omega),
          scanUnits_plain (by omega) (by omega) (by omega), Option.map_map]
        rfl

/-- An escape is the only way to a surrogate in a text without any. -/
theorem UnitStep.surrogate {text rest : List Nat} {u : Nat} (h : UnitStep text (some u) rest)
    (htext : ∀ c ∈ text, Scalar c) (hu : isHigh u = true ∨ isLow u = true) :
    ∃ a b c d, text = 0x5C :: 117 :: a :: b :: c :: d :: rest ∧ hexValue4 a b c d = some u := by
  rw [isHigh_iff, isLow_iff] at hu
  cases h with
  | unit hex => exact ⟨_, _, _, _, rfl, hex⟩
  | short he hescaped =>
      have := escaped_lt hescaped
      omega
  | plain hquote hslash hlow =>
      obtain ⟨hhigh, hlow', -⟩ := htext u List.mem_cons_self
      rw [← Bool.not_eq_true, isHigh_iff] at hhigh
      rw [← Bool.not_eq_true, isLow_iff] at hlow'
      omega

/-- A unit that is read is one. -/
theorem UnitStep.lt {text rest : List Nat} {u : Nat} (h : UnitStep text (some u) rest)
    (htext : ∀ c ∈ text, Scalar c) : u < 0x110000 := by
  cases h with
  | unit hex =>
      have := (hexValue4_some hex).1
      omega
  | short he hescaped =>
      have := escaped_lt hescaped
      omega
  | plain hquote hslash hlow => exact (htext u List.mem_cons_self).2.2

/-- A step reads a character at least. -/
theorem PointStep.suffix {text rest : List Nat} {u : Option Nat} (h : PointStep text u rest) :
    ∃ head, head ≠ [] ∧ text = head ++ rest := by
  obtain ⟨h, -⟩ | ⟨high, mid, low, h, -, hlow, -⟩ := h
  · obtain ⟨head, hne, htext, -⟩ := h.local
    exact ⟨head, hne, htext⟩
  · obtain ⟨head, hne, rfl, -⟩ := h.local
    obtain ⟨head', -, rfl, -⟩ := (lowEscape_some hlow).2.local
    exact ⟨head ++ head', by simp [hne], by simp⟩

/-- What Python reads of a literal, and the buyer reads of its units. -/
structure SameLiteral (text value rest : List Nat) : Prop where
  body : ∃ head, text = head ++ rest
  units : scanUnits (utf16 text) = some (utf16 value, utf16 rest)
  noPair : NoPair value
  points : ∀ c ∈ value, c < 0x110000
  low : ∀ d ∈ value.head?, isLow d = true → ∃ after, lowEscape text = some (d, after)

/-- **One literal.**  The buyer reads the units of the string Python reads. -/
theorem scanPoints_units {text value rest : List Nat} (htext : ∀ c ∈ text, Scalar c)
    (h : scanPoints text = some (value, rest)) : SameLiteral text value rest := by
  induction hlength : text.length using Nat.strong_induction_on generalizing text value with
  | _ n ih =>
      obtain ⟨hstep, rfl⟩ | ⟨u, after, value', hstep, hscan, rfl⟩ := scanPoints_step h
      · obtain ⟨head, -, hbody⟩ := hstep.suffix
        refine ⟨⟨head, hbody⟩, ?_, trivial, by simp, by simp⟩
        obtain ⟨hstep, -⟩ | ⟨_, _, _, _, _, _, heq⟩ := hstep
        · cases hstep
          simp [pointUnits]
        · cases heq
      · obtain ⟨head, hne, hhead⟩ := hstep.suffix
        have hpos := List.length_pos_iff.2 hne
        have hafter : ∀ c ∈ after, Scalar c := fun c hc => htext c (by simp [hhead, hc])
        obtain ⟨⟨head', hhead'⟩, hunits, hpair, hpoints, hlow⟩ :=
          ih after.length (by rw [← hlength, hhead, List.length_append]; omega) hafter hscan rfl
        refine ⟨⟨head ++ head', by rw [hhead, hhead']; simp⟩, ?_, ?_, ?_, ?_⟩
        · obtain ⟨hstep, -⟩ | ⟨high, mid, low, hstep, hhigh, hmid, heq⟩ := hstep
          · rw [hstep.scan_utf16 htext, hunits]
            rfl
          · obtain ⟨hisLow, hlowStep⟩ := lowEscape_some hmid
            obtain ⟨head₁, -, htext₁, -⟩ := hstep.local
            have hmidScalar : ∀ c ∈ mid, Scalar c :=
              fun c hc => htext c (by rw [htext₁]; simp [hc])
            have hhighUnits : pointUnits high = [high] :=
              pointUnits_bmp (by rw [isHigh_iff] at hhigh; omega)
            have hlowUnits : pointUnits low = [low] :=
              pointUnits_bmp (by rw [isLow_iff] at hisLow; omega)
            rw [hstep.scan_utf16 htext, hlowStep.scan_utf16 hmidScalar, hunits,
              Option.some.inj heq, utf16_cons, pointUnits_combine hhigh hisLow, hhighUnits,
              hlowUnits]
            rfl
        · obtain ⟨hstep, alone⟩ | ⟨high, mid, low, -, -, -, heq⟩ := hstep
          · by_cases hhigh : isHigh u = true
            · obtain ⟨a, b, c, d, hform, -⟩ := hstep.surrogate htext (Or.inl hhigh)
              have hnone := alone a b c d u hform rfl hhigh
              cases value' with
              | nil => trivial
              | cons d' value' =>
                  refine ⟨?_, hpair⟩
                  intro hboth
                  simp only [Bool.and_eq_true] at hboth
                  obtain ⟨last, hlast⟩ := hlow d' rfl hboth.2
                  rw [hnone] at hlast
                  cases hlast
            · exact NoPair.cons (by simpa using hhigh) hpair
          · rw [Option.some.inj heq]
            exact NoPair.cons (isHigh_combine _ _) hpair
        · refine List.forall_mem_cons.2 ⟨?_, hpoints⟩
          obtain ⟨hstep, -⟩ | ⟨high, mid, low, -, hhigh, hmid, heq⟩ := hstep
          · exact hstep.lt htext
          · have hisLow := (lowEscape_some hmid).1
            rw [isHigh_iff] at hhigh
            rw [isLow_iff] at hisLow
            rw [Option.some.inj heq]
            unfold combine
            omega
        · intro d hd hisLow
          obtain rfl : u = d := by simpa using hd
          obtain ⟨hstep, -⟩ | ⟨high, mid, low, -, -, -, heq⟩ := hstep
          · obtain ⟨a, b, c, e, hform, hhex⟩ := hstep.surrogate htext (Or.inr hisLow)
            rw [hform]
            exact ⟨after, lowEscape_of_unit hhex hisLow⟩
          · rw [Option.some.inj heq, isLow_combine] at hisLow
            cases hisLow

/-! ## Lexemes -/

/-- A lexeme of the code points as a lexeme of their units. -/
def unitLexeme : Lexeme → Lexeme
  | .space c => .space c
  | .punct c => .punct c
  | .word text => .word (utf16 text)
  | .str literal value => .str (utf16 literal) (utf16 value)

/-- A string as Python can read it. -/
def PyString (s : PyStr) : Prop := NoPair s ∧ ∀ c ∈ s, c < 0x110000

/-- Beyond ASCII everything belongs to words. -/
theorem isWord_high {c : Nat} (h : 0x80 ≤ c) : isWord c = true := by
  rw [isWord_iff]
  simp only [isSpace, isPunct, Bool.or_eq_false_iff, decide_eq_false_iff_not]
  omega

/-- The units of a code point belong to words as it does. -/
theorem isWord_units (c : Nat) : ∀ u ∈ pointUnits c, isWord u = isWord c := by
  intro u hu
  by_cases hbmp : c < 0x10000
  · rw [pointUnits_bmp hbmp] at hu
    rw [List.mem_singleton.1 hu]
  · rw [pointUnits, if_neg hbmp] at hu
    have hc : isWord c = true := isWord_high (by omega)
    have hu' : 0x80 ≤ u := by
      simp only [List.mem_cons, List.not_mem_nil, or_false] at hu
      unfold highUnit lowUnit at hu
      omega
    rw [hc, isWord_high hu']

/-- A run of word characters is one in units. -/
theorem takeWhile_units (text : List Nat) :
    (utf16 text).takeWhile isWord = utf16 (text.takeWhile isWord) ∧
      (utf16 text).dropWhile isWord = utf16 (text.dropWhile isWord) := by
  induction text with
  | nil => exact ⟨rfl, rfl⟩
  | cons c text ih =>
      have hunits := isWord_units c
      rw [utf16_cons]
      by_cases hword : isWord c = true
      · have hall : ∀ u ∈ pointUnits c, isWord u = true :=
          fun u hu => by rw [hunits u hu, hword]
        rw [List.takeWhile_append_of_pos hall, List.dropWhile_append_of_pos hall, ih.1, ih.2,
          List.takeWhile_cons_of_pos hword, List.dropWhile_cons_of_pos hword, utf16_cons]
        exact ⟨rfl, rfl⟩
      · have hbmp : c < 0x10000 := by
          by_contra hbig
          exact hword (isWord_high (by omega))
        rw [pointUnits_bmp hbmp]
        simp [hword, pointUnits_bmp hbmp]

/-- **Same lexemes.**  Where Python reads lexemes the buyer reads them in
units, and the strings are such as Python can read. -/
theorem lexemes_units {fuel : Nat} {text : List Nat} {ls : List Lexeme}
    (htext : ∀ c ∈ text, Scalar c) (h : lexemes scanPoints fuel text = some ls) :
    lexemes scanUnits fuel (utf16 text) = some (ls.map unitLexeme) ∧
      ∀ tok ∈ tokens ls, ∀ s, tok = .str s → PyString s := by
  induction fuel generalizing text ls with
  | zero =>
      cases text with
      | nil =>
          obtain rfl : [] = ls := by simpa [lexemes] using h
          exact ⟨rfl, by simp⟩
      | cons c rest => simp [lexemes] at h
  | succ fuel ih =>
      cases text with
      | nil =>
          obtain rfl : [] = ls := by simpa [lexemes] using h
          exact ⟨rfl, by simp⟩
      | cons c rest =>
          obtain ⟨hc, hrest⟩ := List.forall_mem_cons.1 htext
          rw [lexemes] at h
          by_cases hspace : isSpace c = true
          · rw [if_pos hspace] at h
            obtain ⟨ls', hls', rfl⟩ := Option.map_eq_some_iff.1 h
            obtain ⟨hunits, hstrings⟩ := ih hrest hls'
            have hlt := (isSpace_lt hspace).1
            rw [utf16_cons, pointUnits_bmp (by omega)]
            simp only [List.cons_append, List.nil_append, lexemes, hspace, if_true, hunits]
            exact ⟨rfl, hstrings⟩
          rw [if_neg hspace] at h
          by_cases hpunct : isPunct c = true
          · rw [if_pos hpunct] at h
            obtain ⟨ls', hls', rfl⟩ := Option.map_eq_some_iff.1 h
            obtain ⟨hunits, hstrings⟩ := ih hrest hls'
            have hlt : c < 0x10000 := by
              simp only [isPunct, Bool.or_eq_true, decide_eq_true_eq] at hpunct
              omega
            rw [utf16_cons, pointUnits_bmp hlt]
            simp only [List.cons_append, List.nil_append, lexemes, hspace, hpunct, if_true,
              if_false, Bool.false_eq_true, hunits]
            refine ⟨rfl, ?_⟩
            intro tok htok s hs
            rw [tokens_punct] at htok
            obtain rfl | htok := List.mem_cons.1 htok
            · cases hs
            · exact hstrings tok htok s hs
          rw [if_neg hpunct] at h
          by_cases hquote : c = 0x22
          · rw [if_pos hquote] at h
            obtain ⟨⟨value, after⟩, hscan, hafter⟩ := Option.bind_eq_some_iff.1 h
            obtain ⟨ls', hls', rfl⟩ := Option.map_eq_some_iff.1 hafter
            have hsame := scanPoints_units hrest hscan
            obtain ⟨body, rfl⟩ := hsame.body
            have hafterScalar : ∀ c ∈ after, Scalar c := fun c hc => hrest c (by simp [hc])
            obtain ⟨hunits, hstrings⟩ := ih hafterScalar hls'
            have htake : (body ++ after).take ((body ++ after).length - after.length) =
                body := by
              simp
            have htake' : (utf16 body ++ utf16 after).take
                ((utf16 body ++ utf16 after).length - (utf16 after).length) = utf16 body := by
              simp
            have hunits' := hsame.units
            rw [utf16_append] at hunits'
            subst hquote
            rw [utf16_cons, pointUnits_bmp (by decide), utf16_append, htake]
            simp only [List.cons_append, List.nil_append, lexemes, hspace, hpunct, if_true,
              if_false, Bool.false_eq_true, hunits', Option.bind_some, hunits, Option.map_some,
              htake']
            refine ⟨rfl, ?_⟩
            intro tok htok s hs
            rw [tokens_str] at htok
            obtain rfl | htok := List.mem_cons.1 htok
            · obtain rfl : value = s := by simpa using hs
              exact ⟨hsame.noPair, hsame.points⟩
            · exact hstrings tok htok s hs
          rw [if_neg hquote] at h
          obtain ⟨ls', hls', rfl⟩ := Option.map_eq_some_iff.1 h
          have hdropScalar : ∀ c ∈ rest.dropWhile isWord, Scalar c :=
            fun c hc => hrest c ((List.dropWhile_sublist isWord).subset hc)
          obtain ⟨hunits, hstrings⟩ := ih hdropScalar hls'
          have hword : isWord c = true :=
            isWord_iff.2 ⟨by simpa using hspace, by simpa using hpunct, hquote⟩
          obtain ⟨u, more, hmore⟩ : ∃ u more, pointUnits c = u :: more := by
            unfold pointUnits
            split <;> exact ⟨_, _, rfl⟩
          have hwordUnits : ∀ v ∈ pointUnits c, isWord v = true :=
            fun v hv => by rw [isWord_units c v hv, hword]
          rw [hmore] at hwordUnits
          obtain ⟨hu, hmoreWord⟩ := List.forall_mem_cons.1 hwordUnits
          obtain ⟨huspace, hupunct, huquote⟩ := isWord_iff.1 hu
          obtain ⟨htake, hdrop⟩ := takeWhile_units rest
          rw [utf16_cons, hmore]
          simp only [List.cons_append, lexemes, huspace, hupunct, huquote, if_false,
            Bool.false_eq_true]
          rw [List.takeWhile_append_of_pos hmoreWord, List.dropWhile_append_of_pos hmoreWord,
            htake, hdrop, hunits]
          refine ⟨?_, ?_⟩
          · simp [unitLexeme, hmore]
          · intro tok htok s hs
            rw [tokens_word] at htok
            obtain rfl | htok := List.mem_cons.1 htok
            · cases hs
            · exact hstrings tok htok s hs

end Deliverable
