import Mathlib.Data.List.Induction

/-!
# Computations that may fail

What is known of a check, a chain of checks or a loop that returned a result.
-/

namespace Checks

variable {ε α β : Type}

theorem map_eq_ok {f : α → β} {r : Except ε α} {b : β} (h : r.map f = .ok b) :
    ∃ a, r = .ok a ∧ f a = b := by
  cases r with
  | error e => cases h
  | ok a => exact ⟨a, rfl, Except.ok.inj h⟩

theorem bind_eq_ok {f : α → Except ε β} {r : Except ε α} {b : β} (h : (r >>= f) = .ok b) :
    ∃ a, r = .ok a ∧ f a = .ok b := by
  cases r with
  | error e => cases h
  | ok a => exact ⟨a, rfl, h⟩

/-- A check that was passed on the way to a result. -/
theorem unless_error {c : Prop} [Decidable c] {e : ε} {x : Except ε α} {a : α} :
    (if c then .error e else x) = .ok a ↔ ¬ c ∧ x = .ok a := by
  by_cases hc : c
  · simp [hc]
  · simp [hc]

/-- **The rule of a loop.**  What holds before it and is kept by every pass
that does not fail holds after it, of the items it went through. -/
theorem foldlM_ok {f : β → α → Except ε β} (I : List α → β → Prop)
    (hstep : ∀ seen b a b', I seen b → f b a = .ok b' → I (seen ++ [a]) b') {items : List α}
    {b b' : β} (hinit : I [] b) (h : items.foldlM f b = .ok b') : I items b' := by
  induction items using List.reverseRecOn generalizing b' with
  | nil =>
      obtain rfl := Except.ok.inj h
      exact hinit
  | append_singleton items a ih =>
      rw [List.foldlM_append] at h
      obtain ⟨before, hbefore, h⟩ := bind_eq_ok h
      rw [List.foldlM_cons] at h
      obtain ⟨last, hlast, h⟩ := bind_eq_ok h
      obtain rfl := Except.ok.inj h
      exact hstep items before a last (ih hbefore) hlast

/-- A loop whose passes do not fail is a fold. -/
theorem foldlM_eq_foldl {f : β → α → Except ε β} {g : β → α → β} {items : List α} {b : β}
    (h : ∀ b, ∀ a ∈ items, f b a = .ok (g b a)) : items.foldlM f b = .ok (items.foldl g b) := by
  induction items generalizing b with
  | nil => rfl
  | cons a items ih =>
      rw [List.foldlM_cons, h b a List.mem_cons_self]
      exact ih fun b a ha => h b a (List.mem_cons_of_mem _ ha)

/-- Checks that all pass return their results in order. -/
theorem mapM_ok {f : α → Except ε β} {g : α → β} {items : List α}
    (h : ∀ a ∈ items, f a = .ok (g a)) : items.mapM f = .ok (items.map g) := by
  induction items with
  | nil => rfl
  | cons a items ih =>
      obtain ⟨ha, htail⟩ := List.forall_mem_cons.1 h
      rw [List.mapM_cons, ha, ih htail]
      rfl

/-- Every result comes from a check. -/
theorem mapM_mem {f : α → Except ε β} {items : List α} {bs : List β}
    (h : items.mapM f = .ok bs) : ∀ b ∈ bs, ∃ a ∈ items, f a = .ok b := by
  induction items generalizing bs with
  | nil =>
      obtain rfl := Except.ok.inj h
      simp
  | cons a items ih =>
      rw [List.mapM_cons] at h
      obtain ⟨first, hfirst, h⟩ := bind_eq_ok h
      obtain ⟨rest, hrest, h⟩ := bind_eq_ok h
      obtain rfl := Except.ok.inj h
      intro b hb
      cases List.mem_cons.1 hb with
      | inl heq => exact ⟨a, List.mem_cons_self, heq ▸ hfirst⟩
      | inr hb =>
          obtain ⟨a', ha', hok⟩ := ih hrest b hb
          exact ⟨a', List.mem_cons_of_mem _ ha', hok⟩

end Checks
