import Mathlib.Data.Nat.Prime.Basic
import Mathlib.Data.Rat.Lemmas
import Mathlib.Tactic.Positivity
import StockAnalyst.JsJson

/-!
# Deep equality of JSON values

Two values are deeply equal when they have the same structure, the same
strings and the same numbers; the order of the keys of an object and the sign
of a zero do not count.
-/

namespace Js

open Python

/-- The magnitude of a finite double. -/
def IsDouble (abs : ℚ) : Prop :=
  ∃ (m : ℕ) (e : ℤ), m < 2 ^ 53 ∧ -1074 ≤ e ∧ e ≤ 971 ∧ abs = m * (2 : ℚ) ^ e

/-- The denominator of a double is a power of two. -/
theorem IsDouble.den {abs : ℚ} (h : IsDouble abs) : ∃ k, abs.den = 2 ^ k := by
  obtain ⟨m, e, -, -, -, rfl⟩ := h
  obtain ⟨k, hk⟩ : ∃ k : ℕ, (m * (2 : ℚ) ^ e).den ∣ 2 ^ k := by
    obtain ⟨n, rfl | rfl⟩ := e.eq_nat_or_neg
    · refine ⟨0, ?_⟩
      have hnat : (m * (2 : ℚ) ^ (n : ℤ)) = ((m * 2 ^ n : ℕ) : ℚ) := by push_cast; rfl
      rw [hnat, Rat.den_natCast]
      exact Nat.dvd_refl 1
    · refine ⟨n, ?_⟩
      have hdiv : (m * (2 : ℚ) ^ (-(n : ℤ))) = Rat.divInt m ((2 ^ n : ℕ) : ℤ) := by
        rw [zpow_neg, Rat.divInt_eq_div]
        push_cast
        rfl
      rw [hdiv]
      exact_mod_cast Rat.den_dvd m ((2 ^ n : ℕ) : ℤ)
  obtain ⟨k', -, hk'⟩ := (Nat.dvd_prime_pow Nat.prime_two).1 hk
  exact ⟨k', hk'⟩

theorem IsDouble.nonneg {abs : ℚ} (h : IsDouble abs) : 0 ≤ abs := by
  obtain ⟨m, e, -, -, -, rfl⟩ := h
  exact mul_nonneg (Nat.cast_nonneg m) (zpow_nonneg (by norm_num) e)

/-- A value a JavaScript program can hold: finite numbers are doubles, strings
are code units, and the keys of an object are distinct. -/
inductive Value.Held : Value → Prop
  | null : Held .null
  | bool {b} : Held (.bool b)
  | finite {neg abs} (double : IsDouble abs) : Held (.num (.finite neg abs))
  | inf {neg} : Held (.num (.inf neg))
  | nan : Held (.num .nan)
  | str {s : JsStr} (units : ∀ u ∈ s, u < 0x10000) : Held (.str s)
  | arr {items} (each : ∀ v ∈ items, Held v) : Held (.arr items)
  | obj {entries : List (JsStr × Value)} (units : ∀ e ∈ entries, ∀ u ∈ e.1, u < 0x10000)
      (keys : (entries.map (·.1)).Nodup) (each : ∀ e ∈ entries, Held e.2) : Held (.obj entries)

/-- A whole number below `2 ^ 53` is held. -/
theorem held_num {n : ℕ} (h : n < 2 ^ 53) : (Value.num (.finite false n)).Held :=
  .finite ⟨n, 0, h, by decide, by decide, by simp⟩

/-- `x === y`. -/
def sameNumber : PyFloat → PyFloat → Bool
  | .finite neg abs, .finite neg' abs' => abs = abs' && (neg = neg' || abs = 0)
  | .inf neg, .inf neg' => neg = neg'
  | _, _ => false

mutual

/-- Deep equality up to the order of keys. -/
def deepEqual : Value → Value → Bool
  | .null, .null => true
  | .bool b, .bool b' => b = b'
  | .num x, .num y => sameNumber x y
  | .str s, .str t => s = t
  | .arr items, .arr items' => deepEqualItems items items'
  | .obj entries, .obj entries' =>
      entries.length = entries'.length && deepEqualEntries entries entries'
  | _, _ => false

def deepEqualItems : List Value → List Value → Bool
  | [], [] => true
  | v :: items, v' :: items' => deepEqual v v' && deepEqualItems items items'
  | _, _ => false

/-- Each key leads to equal values in both objects. -/
def deepEqualEntries : List (JsStr × Value) → List (JsStr × Value) → Bool
  | [], _ => true
  | (key, v) :: entries, entries' =>
      (match entries'.lookup key with
        | some v' => deepEqual v v'
        | none => false) && deepEqualEntries entries entries'

end

/-- Lists are equal item by item. -/
theorem deepEqualItems_iff {items items' : List Value} :
    deepEqualItems items items' = true ↔
      List.Forall₂ (fun v v' => deepEqual v v' = true) items items' := by
  induction items generalizing items' with
  | nil => cases items' <;> simp [deepEqualItems]
  | cons v items ih =>
      cases items' with
      | nil => simp [deepEqualItems]
      | cons v' items' => simp [deepEqualItems, ih]

/-- Objects are equal key by key. -/
theorem deepEqualEntries_iff {entries entries' : List (JsStr × Value)} :
    deepEqualEntries entries entries' = true ↔
      ∀ e ∈ entries, ∃ v', entries'.lookup e.1 = some v' ∧ deepEqual e.2 v' = true := by
  induction entries with
  | nil => simp [deepEqualEntries]
  | cons e entries ih =>
      obtain ⟨key, v⟩ := e
      rw [deepEqualEntries, Bool.and_eq_true, ih, List.forall_mem_cons]
      cases entries'.lookup key with
      | none => simp
      | some v' => simp

/-! ## Items and entries -/

/-- Items have the same images when they are related one by one. -/
theorem map_eq_map_iff {α β : Type} {f : α → β} {R : α → α → Prop} {items items' : List α}
    (h : ∀ a ∈ items, ∀ a' ∈ items', f a = f a' ↔ R a a') :
    items.map f = items'.map f ↔ List.Forall₂ R items items' := by
  induction items generalizing items' with
  | nil => cases items' <;> simp
  | cons a items ih =>
      cases items' with
      | nil => simp
      | cons a' items' =>
          have htail := ih fun b hb b' hb' =>
            h b (List.mem_cons_of_mem _ hb) b' (List.mem_cons_of_mem _ hb')
          rw [List.map_cons, List.map_cons, List.cons.injEq, List.forall₂_cons,
            h a List.mem_cons_self a' List.mem_cons_self, htail]

section entries

variable {α β : Type} {entries entries' : List (JsStr × α)}

/-- Entries in the order of their keys are determined by the entries. -/
theorem sortedEntries_eq_iff (hkeys : (entries.map (·.1)).Nodup) :
    sortedEntries entries = sortedEntries entries' ↔ entries.Perm entries' := by
  constructor
  · intro h
    exact (sortedEntries_perm entries).symm.trans (h ▸ sortedEntries_perm entries')
  · intro hperm
    have htotal : Std.Total fun a b : JsStr × α => a.1 ≤ b.1 := ⟨fun a b => le_total a.1 b.1⟩
    have htrans : IsTrans (JsStr × α) fun a b => a.1 ≤ b.1 :=
      ⟨fun _ _ _ hab hbc => le_trans hab hbc⟩
    have hsorted := List.pairwise_insertionSort (fun a b : JsStr × α => a.1 ≤ b.1)
    refine List.Perm.eq_of_pairwise ?_ (hsorted entries) (hsorted entries')
      (((sortedEntries_perm entries).trans hperm).trans (sortedEntries_perm entries').symm)
    intro a b ha hb hab hba
    have hb' := hperm.mem_iff.2 ((sortedEntries_perm entries').mem_iff.1 hb)
    exact List.inj_on_of_nodup_map hkeys ((sortedEntries_perm entries).mem_iff.1 ha) hb'
      (le_antisymm hab hba)

/-- Images of entries with distinct keys are a permutation of each other when
each key leads to values with one image. -/
theorem perm_map_iff {f : α → β} (hkeys : (entries.map (·.1)).Nodup)
    (hkeys' : (entries'.map (·.1)).Nodup) :
    (entries.map fun e => (e.1, f e.2)).Perm (entries'.map fun e => (e.1, f e.2)) ↔
      entries.length = entries'.length ∧
        ∀ e ∈ entries, ∃ a, entries'.lookup e.1 = some a ∧ f e.2 = f a := by
  constructor
  · intro hperm
    refine ⟨by simpa using hperm.length_eq, ?_⟩
    intro e he
    have hmem := hperm.mem_iff.1 (List.mem_map_of_mem (f := fun e => (e.1, f e.2)) he)
    obtain ⟨⟨key, a⟩, ha, heq⟩ := List.mem_map.1 hmem
    obtain ⟨rfl, hvalue⟩ := Prod.mk.inj heq
    exact ⟨a, lookup_of_mem hkeys' ha, hvalue.symm⟩
  · intro ⟨hlength, hentries⟩
    have hnodup : (entries.map fun e => (e.1, f e.2)).Nodup := by
      refine List.Nodup.of_map (·.1) ?_
      rwa [List.map_map]
    have hsubset : (entries.map fun e => (e.1, f e.2)) ⊆ entries'.map fun e => (e.1, f e.2) := by
      intro x hx
      obtain ⟨e, he, rfl⟩ := List.mem_map.1 hx
      obtain ⟨a, ha, hvalue⟩ := hentries e he
      rw [hvalue]
      exact List.mem_map.2 ⟨(e.1, a), mem_of_lookup ha, rfl⟩
    refine (List.subperm_of_subset hnodup hsubset).perm_of_length_le ?_
    rw [List.length_map, List.length_map, hlength]

end entries

end Js
