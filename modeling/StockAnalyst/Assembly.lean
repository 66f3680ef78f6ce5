import Mathlib.Data.List.Basic

/-!
# Texts put together from literals and fields

A text is assembled from fixed literals and from fields of a known shape when
it is a concatenation of such texts.  What is assembled stays assembled under
concatenation, and what holds of every literal and every field holds of the
characters of the whole.
-/

namespace Assembly

variable {α β : Type} {L F : List α → Prop} {s t : List α}

/-- A concatenation of literals and fields. -/
inductive Assembled (L F : List α → Prop) : List α → Prop
  | nil : Assembled L F []
  | literal {s t : List α} (h : L s) (rest : Assembled L F t) : Assembled L F (s ++ t)
  | field {s t : List α} (h : F s) (rest : Assembled L F t) : Assembled L F (s ++ t)

namespace Assembled

/-- A literal is assembled. -/
theorem of_literal (h : L s) : Assembled L F s := by
  have hs := Assembled.literal (F := F) h .nil
  rwa [List.append_nil] at hs

/-- A field is assembled. -/
theorem of_field (h : F s) : Assembled L F s := by
  have hs := Assembled.field (L := L) h .nil
  rwa [List.append_nil] at hs

/-- Assembled texts one after the other are assembled. -/
theorem append (hs : Assembled L F s) (ht : Assembled L F t) : Assembled L F (s ++ t) := by
  induction hs with
  | nil => exact ht
  | literal h _ ih =>
      rw [List.append_assoc]
      exact .literal h ih
  | field h _ ih =>
      rw [List.append_assoc]
      exact .field h ih

/-- So are many. -/
theorem flatMap {items : List β} {f : β → List α} (h : ∀ b ∈ items, Assembled L F (f b)) :
    Assembled L F (items.flatMap f) := by
  induction items with
  | nil => exact .nil
  | cons b items ih =>
      obtain ⟨hb, hitems⟩ := List.forall_mem_cons.1 h
      rw [List.flatMap_cons]
      exact hb.append (ih hitems)

/-- More literals and more fields assemble no less. -/
theorem mono {L' F' : List α → Prop} (h : Assembled L F s) (hL : ∀ s, L s → L' s)
    (hF : ∀ s, F s → F' s) : Assembled L' F' s := by
  induction h with
  | nil => exact .nil
  | literal h _ ih => exact .literal (hL _ h) ih
  | field h _ ih => exact .field (hF _ h) ih

end Assembled

end Assembly
