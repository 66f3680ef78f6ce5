import Mathlib.Data.List.Basic

/-!
# Literals put into a text

A text with literals in it keeps its own characters in order, and everything
else in it is a literal.  Replacing the matches of a pattern keeps this when no
match begins inside a literal.  Nothing here names a particular pattern,
literal or character.
-/

namespace Markup

variable {α : Type} {L L' : List α → Prop} {p q s t : List α}

/-- `s` is the text `p` with literals put between its characters. -/
inductive Tagged (L : List α → Prop) : List α → List α → Prop
  | nil : Tagged L [] []
  | char (c : α) {p s : List α} (rest : Tagged L p s) : Tagged L (c :: p) (c :: s)
  | literal {l p s : List α} (h : L l) (rest : Tagged L p s) : Tagged L p (l ++ s)

namespace Tagged

theorem self (s : List α) : Tagged L s s := by
  induction s with
  | nil => exact .nil
  | cons c s ih => exact .char c ih

/-- A tag alone is tagged text. -/
theorem of_literal {l : List α} (h : L l) : Tagged L [] l := by
  have htagged := Tagged.literal h .nil
  rwa [List.append_nil] at htagged

/-- Tagged texts one after the other are tagged. -/
theorem append (hs : Tagged L p s) (ht : Tagged L q t) : Tagged L (p ++ q) (s ++ t) := by
  induction hs with
  | nil => exact ht
  | char c _ ih => exact .char c ih
  | literal h _ ih =>
      rw [List.append_assoc]
      exact .literal h ih

theorem mono (h : Tagged L p s) (hL : ∀ l, L l → L' l) : Tagged L' p s := by
  induction h with
  | nil => exact .nil
  | char c _ ih => exact .char c ih
  | literal h _ ih => exact .literal (hL _ h) ih

/-- Between two literals. -/
theorem wrap {opening closing : List α} (hopening : L opening) (hclosing : L closing)
    (h : Tagged L p s) : Tagged L p (opening ++ s ++ closing) := by
  have hclosed := h.append (of_literal hclosing)
  rw [List.append_nil] at hclosed
  rw [List.append_assoc]
  exact .literal hopening hclosed

/-- A character no literal begins with is one of the text. -/
theorem uncons {c : α} (hempty : ∀ l, L l → l ≠ []) (hc : ∀ l, L l → l.head? ≠ some c)
    (h : Tagged L p (c :: s)) : ∃ p', p = c :: p' ∧ Tagged L p' s := by
  generalize hs : c :: s = u at h
  cases h with
  | nil => cases hs
  | char d rest =>
      obtain ⟨rfl, rfl⟩ := List.cons.inj hs
      exact ⟨_, rfl, rest⟩
  | @literal l _ _ hl rest =>
      cases l with
      | nil => exact absurd rfl (hempty _ hl)
      | cons d l =>
          obtain ⟨rfl, -⟩ := List.cons.inj hs
          exact absurd rfl (hc _ hl)

/-- So are several. -/
theorem unappend (hempty : ∀ l, L l → l ≠ []) (hs : ∀ c ∈ s, ∀ l, L l → l.head? ≠ some c)
    (h : Tagged L p (s ++ t)) : ∃ p', p = s ++ p' ∧ Tagged L p' t := by
  induction s generalizing p with
  | nil => exact ⟨p, rfl, h⟩
  | cons c s ih =>
      obtain ⟨hc, hs⟩ := List.forall_mem_cons.1 hs
      obtain ⟨p', rfl, hrest⟩ := h.uncons hempty hc
      obtain ⟨p'', rfl, hdone⟩ := ih hs hrest
      exact ⟨p'', rfl, hdone⟩

/-- A character that is in no literal cuts the text in two. -/
theorem split {c : α} (hc : ∀ l, L l → c ∉ l) (h : Tagged L p (s ++ c :: t)) :
    ∃ p₁ p₂, p = p₁ ++ c :: p₂ ∧ Tagged L p₁ s ∧ Tagged L p₂ t := by
  generalize hu : s ++ c :: t = u at h
  induction h generalizing s with
  | nil => simp at hu
  | char d rest ih =>
      cases s with
      | nil =>
          obtain ⟨rfl, rfl⟩ := List.cons.inj hu
          exact ⟨[], _, rfl, .nil, rest⟩
      | cons e s =>
          obtain ⟨rfl, hrest⟩ := List.cons.inj hu
          obtain ⟨p₁, p₂, rfl, hs, ht⟩ := ih hrest
          exact ⟨e :: p₁, p₂, rfl, .char e hs, ht⟩
  | @literal l _ _ hl rest ih =>
      obtain ⟨x, hs, hx⟩ | ⟨x, hl', hx⟩ := List.append_eq_append_iff.1 hu
      · cases x with
        | nil =>
            rw [List.append_nil] at hs
            subst hs
            obtain ⟨p₁, p₂, rfl, hp₁, hp₂⟩ := ih (s := []) hx
            refine ⟨p₁, p₂, rfl, ?_, hp₂⟩
            have hempty := Tagged.literal hl hp₁
            rwa [List.append_nil] at hempty
        | cons d x =>
            obtain ⟨rfl, -⟩ := List.cons.inj hx
            exact absurd (hs ▸ List.mem_append_right s List.mem_cons_self) (hc l hl)
      · subst hl'
        obtain ⟨p₁, p₂, rfl, hp₁, hp₂⟩ := ih hx.symm
        exact ⟨p₁, p₂, rfl, .literal hl hp₁, hp₂⟩

end Tagged

/-! ## Replacing -/

/-- `text.replace(pattern, replacement)` of a global pattern.  `matchAt` gives
the length of the match that begins at a place, from the character before it
and the text from there on; `skip` characters of a match are left to pass. -/
def replaceAll (matchAt : Option α → List α → Option Nat) (replacement : List α → List α) :
    (skip : Nat) → Option α → List α → List α
  | _, _, [] => []
  | skip + 1, _, c :: s => replaceAll matchAt replacement skip (some c) s
  | 0, before, c :: s =>
      match matchAt before (c :: s) with
      | some n =>
          replacement ((c :: s).take n) ++ replaceAll matchAt replacement (n - 1) (some c) s
      | none => c :: replaceAll matchAt replacement 0 (some c) s

variable {matchAt : Option α → List α → Option Nat} {replacement : List α → List α}

/-- Skipped characters are not looked at. -/
theorem replaceAll_skip (n : Nat) (before : Option α) (s : List α) :
    ∃ before', replaceAll matchAt replacement n before s =
      replaceAll matchAt replacement 0 before' (s.drop n) := by
  induction s generalizing n before with
  | nil => exact ⟨none, by simp [replaceAll]⟩
  | cons c s ih =>
      cases n with
      | zero => exact ⟨before, rfl⟩
      | succ n => exact ih n (some c)

/-- Where no match begins nothing is replaced. -/
theorem replaceAll_append (before : Option α) {l : List α}
    (hl : ∀ a c b before, l = a ++ c :: b → matchAt before (c :: (b ++ s)) = none) :
    ∃ before', replaceAll matchAt replacement 0 before (l ++ s) =
      l ++ replaceAll matchAt replacement 0 before' s := by
  induction l generalizing before with
  | nil => exact ⟨before, rfl⟩
  | cons c l ih =>
      have hnone := hl [] c l before rfl
      obtain ⟨before', hrest⟩ := ih (some c) fun a d b before hab =>
        hl (c :: a) d b before (by rw [hab, List.cons_append])
      refine ⟨before', ?_⟩
      rw [List.cons_append, replaceAll, hnone]
      simp only [hrest, List.cons_append]

/-- Cutting out the matches leaves a part of the text. -/
theorem replaceAll_nil_sublist (n : Nat) (before : Option α) (s : List α) :
    (replaceAll matchAt (fun _ => []) n before s).Sublist s := by
  induction s generalizing n before with
  | nil => rw [replaceAll]
  | cons c s ih =>
      cases n with
      | succ n => exact (ih n (some c)).cons c
      | zero =>
          cases hmatch : matchAt before (c :: s) with
          | some n =>
              simp only [replaceAll, hmatch, List.nil_append]
              exact (ih (n - 1) (some c)).cons c
          | none =>
              simp only [replaceAll, hmatch]
              exact (ih 0 (some c)).cons_cons c

/-- A pattern whose matches begin outside the literals, and whose matches are
replaced by a part of their text with literals in it. -/
structure Respects (L : List α → Prop) (matchAt : Option α → List α → Option Nat)
    (replacement : List α → List α) : Prop where
  literal : ∀ l, L l → ∀ a c b s before, l = a ++ c :: b →
    matchAt before (c :: (b ++ s)) = none
  found : ∀ p s before n, Tagged L p s → matchAt before s = some n → 0 < n ∧
    ∃ p₁ p₂ q, p = p₁ ++ p₂ ∧ q.Sublist p₁ ∧ Tagged L q (replacement (s.take n)) ∧
      Tagged L p₂ (s.drop n)

/-- By induction on the length of the text: past a match, a literal or a
character the rest is shorter. -/
theorem Respects.replaceAll (h : Respects L matchAt replacement) (hempty : ∀ l, L l → l ≠ [])
    (hs : Tagged L p s) (before : Option α) :
    ∃ q, q.Sublist p ∧ Tagged L q (replaceAll matchAt replacement 0 before s) := by
  induction hn : s.length using Nat.strongRecOn generalizing p s before with
  | ind n ih =>
    cases hs with
    | nil => exact ⟨[], .refl [], .nil⟩
    | @char c p s rest =>
        cases hmatch : matchAt before (c :: s) with
        | none =>
            obtain ⟨q, hq, htagged⟩ := ih s.length (by simp at hn; omega) rest (some c) rfl
            refine ⟨c :: q, hq.cons_cons c, ?_⟩
            simp only [Markup.replaceAll, hmatch]
            exact .char c htagged
        | some k =>
            obtain ⟨hpos, p₁, p₂, q, hp, hq, hreplaced, hrest⟩ :=
              h.found _ _ before k (.char c rest) hmatch
            obtain ⟨before', hskip⟩ : ∃ before', Markup.replaceAll matchAt replacement (k - 1)
                (some c) s = Markup.replaceAll matchAt replacement 0 before' (s.drop (k - 1)) :=
              replaceAll_skip (k - 1) (some c) s
            have hdrop : (c :: s).drop k = s.drop (k - 1) := by
              obtain ⟨k, rfl⟩ : ∃ j, k = j + 1 := ⟨k - 1, by omega⟩
              rfl
            rw [hdrop] at hrest
            obtain ⟨q', hq', htagged⟩ := ih (s.drop (k - 1)).length
              (by simp at hn ⊢; omega) hrest before' rfl
            refine ⟨q ++ q', ?_, ?_⟩
            · rw [hp]
              exact hq.append hq'
            · simp only [Markup.replaceAll, hmatch, hskip]
              exact hreplaced.append htagged
    | @literal l p s hl rest =>
        obtain ⟨before', hpass⟩ : ∃ before', Markup.replaceAll matchAt replacement 0 before
            (l ++ s) = l ++ Markup.replaceAll matchAt replacement 0 before' s :=
          replaceAll_append before fun a c b before hab => h.literal l hl a c b s before hab
        have hlength : 0 < l.length := List.length_pos_iff.2 (hempty l hl)
        obtain ⟨q, hq, htagged⟩ := ih s.length (by simp at hn; omega) rest before' rfl
        refine ⟨q, hq, ?_⟩
        rw [hpass]
        exact .literal hl htagged

end Markup
