import StockAnalyst.JsText

/-!
# UTF-8 is read back in one way

The bytes of a code point are a prefix code, so a text without lone surrogates
is determined by its bytes, in Python and in JavaScript.
-/

namespace Js

open Python

/-- The bytes of two code points begin the same text only if the code points
are the same. -/
theorem utf8Point_append_inj {c d : Nat} {s t : List Nat}
    (h : utf8Point c ++ s = utf8Point d ++ t) : c = d ∧ s = t := by
  unfold utf8Point at h
  split at h
  · split at h
    · simpa using h
    · grind
  · split at h
    · split at h
      · grind
      · split at h
        · simp only [List.cons_append, List.nil_append, List.cons.injEq] at h
          exact ⟨by omega, h.2.2⟩
        · grind
    · split at h
      · split at h
        · grind
        · split at h
          · grind
          · split at h
            · simp only [List.cons_append, List.nil_append, List.cons.injEq] at h
              exact ⟨by omega, h.2.2.2⟩
            · grind
      · split at h
        · grind
        · split at h
          · grind
          · split at h
            · grind
            · simp only [List.cons_append, List.nil_append, List.cons.injEq] at h
              exact ⟨by omega, h.2.2.2.2⟩

/-- No byte of a code point is zero but that of zero itself. -/
theorem utf8Point_ne_zero {c : Nat} (hc : c ≠ 0) : 0 ∉ utf8Point c := by
  unfold utf8Point
  grind

/-- A code point has a byte at least. -/
theorem utf8Point_ne_nil (c : Nat) : utf8Point c ≠ [] := by
  unfold utf8Point
  grind

end Js

namespace Python

open Js

/-- What is encoded are the bytes of the code point. -/
theorem utf8Char_eq {c : Nat} {bs : List Nat} (h : utf8Char c = some bs) : bs = utf8Point c := by
  unfold utf8Char at h
  unfold utf8Point
  grind

/-- A text is encoded one code point at a time. -/
theorem utf8Encode_cons {c : Nat} {s : PyStr} {bs : List Nat} (h : utf8Encode (c :: s) = some bs) :
    ∃ rest, utf8Encode s = some rest ∧ bs = utf8Point c ++ rest := by
  obtain ⟨first, hfirst, h⟩ := Option.bind_eq_some_iff.1 h
  obtain ⟨rest, hrest, rfl⟩ := Option.map_eq_some_iff.1 h
  exact ⟨rest, hrest, by rw [utf8Char_eq hfirst]⟩

/-- A text that can be encoded is determined by its bytes. -/
theorem utf8Encode_inj {s t : PyStr} {bs : List Nat} (hs : utf8Encode s = some bs)
    (ht : utf8Encode t = some bs) : s = t := by
  induction s generalizing t bs with
  | nil =>
      obtain rfl := Option.some.inj hs
      cases t with
      | nil => rfl
      | cons d t =>
          obtain ⟨rest, -, hrest⟩ := utf8Encode_cons ht
          exact absurd (List.append_eq_nil_iff.1 hrest.symm).1 (utf8Point_ne_nil d)
  | cons c s ih =>
      obtain ⟨rest, hrest, rfl⟩ := utf8Encode_cons hs
      cases t with
      | nil =>
          have hnil := Option.some.inj ht
          exact absurd (List.append_eq_nil_iff.1 hnil.symm).1 (utf8Point_ne_nil c)
      | cons d t =>
          obtain ⟨rest', hrest', heq⟩ := utf8Encode_cons ht
          obtain ⟨rfl, rfl⟩ := utf8Point_append_inj heq
          rw [ih hrest hrest']

/-- A text without a zero has no zero byte. -/
theorem utf8Encode_ne_zero {s : PyStr} {bs : List Nat} (hs : 0 ∉ s)
    (h : utf8Encode s = some bs) : 0 ∉ bs := by
  induction s generalizing bs with
  | nil =>
      obtain rfl := Option.some.inj h
      simp
  | cons c s ih =>
      obtain ⟨rest, hrest, rfl⟩ := utf8Encode_cons h
      rw [List.mem_cons, not_or] at hs
      rw [List.mem_append, not_or]
      exact ⟨utf8Point_ne_zero (Ne.symm hs.1), ih hs.2 hrest⟩

end Python
