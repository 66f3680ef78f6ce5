import Mathlib.Algebra.Order.BigOperators.Group.List
import StockAnalyst.PandasSeries

/-!
# The relative strength index

`_rsi` compares the rises and the falls among the last fourteen changes.  The
first change of a series is undefined, so fourteen changes need fifteen closes,
and a window without a fall has its quotient replaced by NaN: these are the
series for which `fetch_technical_signals` reports NaN.
-/

namespace Analysis

open Pandas

/-- `_rsi(close, period)`; nothing where it is NaN.  The default period is 14. -/
def rsi (close : Series) (period : ℕ) : Option ℚ :=
  let delta := diff close
  let gain := rollingMean period (clipLower delta)
  let loss := rollingMean period (neg (clipUpper delta))
  let rs := div gain (replaceZero loss)
  (last (rs.map (Option.map fun r => 100 - 100 / (1 + r)))).map roundTwo

/-- `rsi_14` in `fetch_technical_signals`; nothing outside for `None`. -/
def rsi14 (close : Series) : Option (Option ℚ) :=
  if 14 ≤ close.length then some (rsi close 14) else none

/-! ## The window -/

/-- The changes from each price to the next. -/
def changes (prices : List ℚ) : List ℚ :=
  List.zipWith (fun next last => next - last) prices.tail prices

/-- The last changes. -/
def window (prices : List ℚ) (period : ℕ) : List ℚ :=
  (changes prices).drop ((changes prices).length - period)

theorem length_changes (prices : List ℚ) : (changes prices).length = prices.length - 1 := by
  simp [changes]

/-- Defined closes have an undefined change first and then defined ones. -/
theorem diff_prices {prices : List ℚ} (hne : prices ≠ []) :
    diff (prices.map some) = none :: (changes prices).map some := by
  cases prices with
  | nil => exact absurd rfl hne
  | cons p prices =>
      simp only [List.map_cons, diff, changes, List.tail_cons]
      rw [← List.map_cons, List.zipWith_map, List.map_zipWith]
      rfl

/-- The mean over the last changes needs as many of them. -/
theorem getLast?_rollingMean_changes {period : ℕ} (hperiod : 0 < period) (f : ℚ → ℚ)
    {prices : List ℚ} (hne : prices ≠ []) :
    (rollingMean period ((diff (prices.map some)).map (Option.map f))).getLast? =
      some (if prices.length ≤ period then none
        else some (((window prices period).map f).sum / period)) := by
  have hpos := List.length_pos_iff.2 hne
  have hlength := length_changes prices
  rw [diff_prices hne, List.map_cons, List.map_map, getLast?_rollingMean (by simp)]
  simp only [List.length_cons, List.length_map, hlength, Option.map_none]
  by_cases hfull : prices.length ≤ period
  · rw [if_pos hfull]
    by_cases hshort : prices.length - 1 + 1 < period
    · rw [if_pos hshort]
    · -- The undefined first change is in the window.
      have hdrop : prices.length - 1 + 1 - period = 0 := by omega
      rw [if_neg hshort, hdrop, List.drop_zero, mean_none List.mem_cons_self]
  · have hk : prices.length - 1 + 1 - period = prices.length - 1 - period + 1 := by omega
    have hwindow : ((changes prices).map (Option.map f ∘ some)).drop (prices.length - 1 - period) =
        ((window prices period).map f).map some := by
      rw [window, hlength, List.map_map, List.map_drop]
      rfl
    have hcount : ((window prices period).map f).length = period := by
      rw [List.length_map, window, List.length_drop, hlength]
      omega
    rw [if_neg hfull, if_neg (by omega), hk, List.drop_succ_cons, hwindow, mean_some, hcount]

/-! ## Rises and falls -/

section sums

variable {xs : List ℚ}

theorem rises_nonneg : 0 ≤ (xs.map fun x => max x 0).sum := by
  apply List.sum_nonneg
  intro y hy
  obtain ⟨x, -, rfl⟩ := List.mem_map.1 hy
  exact le_max_right x 0

theorem falls_nonneg : 0 ≤ (xs.map fun x => -min x 0).sum := by
  apply List.sum_nonneg
  intro y hy
  obtain ⟨x, -, rfl⟩ := List.mem_map.1 hy
  exact neg_nonneg.2 (min_le_right x 0)

/-- The falls add up to nothing when there is none. -/
theorem falls_eq_zero_iff : (xs.map fun x => -min x 0).sum = 0 ↔ ∀ x ∈ xs, 0 ≤ x := by
  induction xs with
  | nil => simp
  | cons x xs ih =>
      have hhead : 0 ≤ -min x 0 := neg_nonneg.2 (min_le_right x 0)
      rw [List.map_cons, List.sum_cons, List.forall_mem_cons, ← ih,
        add_eq_zero_iff_of_nonneg hhead falls_nonneg, neg_eq_zero, min_eq_right_iff]

end sums

/-! ## The index -/

/-- The falls are the negated changes, cut off at zero. -/
theorem neg_clipUpper (xs : Series) :
    neg (clipUpper xs) = xs.map (Option.map fun x => -min x 0) := by
  rw [neg, clipUpper, List.map_map]
  congr 1
  funext x
  cases x with
  | none => rfl
  | some x => rfl

/-- The mean rise and the mean fall among the last changes. -/
def meanRise (prices : List ℚ) (period : ℕ) : ℚ :=
  ((window prices period).map fun x => max x 0).sum / period

def meanFall (prices : List ℚ) (period : ℕ) : ℚ :=
  ((window prices period).map fun x => -min x 0).sum / period

/-- The index of defined closes. -/
theorem rsi_prices {period : ℕ} (hperiod : 0 < period) {prices : List ℚ} (hne : prices ≠ []) :
    rsi (prices.map some) period =
      if prices.length ≤ period ∨ meanFall prices period = 0 then none
      else some (roundTwo
        (100 - 100 / (1 + meanRise prices period / meanFall prices period))) := by
  have hgain := getLast?_rollingMean_changes hperiod (fun x => max x 0) hne
  have hloss := getLast?_rollingMean_changes hperiod (fun x => -min x 0) hne
  rw [← neg_clipUpper] at hloss
  have hfalls : (replaceZero (rollingMean period (neg (clipUpper (diff (prices.map some)))))).getLast? =
      some (if prices.length ≤ period ∨ meanFall prices period = 0 then none
        else some (meanFall prices period)) := by
    rw [replaceZero, List.getLast?_map, hloss, Option.map_some]
    by_cases hshort : prices.length ≤ period
    · simp [hshort]
    · by_cases hzero : meanFall prices period = 0
      · have hsum := hzero
        unfold meanFall at hsum
        simp [hshort, hzero, hsum]
      · have hsum := hzero
        unfold meanFall at hsum
        simp only [hshort, hzero, if_false, Option.some.injEq, hsum, or_self]
        rfl
  have hquotient := getLast?_div (by simp [replaceZero, clipUpper, neg]) hgain hfalls
  simp only [rsi, last]
  rw [List.getLast?_map]
  have hclip : clipLower (diff (prices.map some)) =
      (diff (prices.map some)).map (Option.map fun x => max x 0) := rfl
  rw [hclip, hquotient]
  by_cases hnone : prices.length ≤ period ∨ meanFall prices period = 0
  · simp [hnone]
  · rw [not_or] at hnone
    simp [hnone.1, hnone.2, meanRise]

/-- A fall among the last changes is a mean fall. -/
theorem meanFall_eq_zero_iff {period : ℕ} (hperiod : 0 < period) {prices : List ℚ} :
    meanFall prices period = 0 ↔ ∀ d ∈ window prices period, 0 ≤ d := by
  have hcast : (period : ℚ) ≠ 0 := Nat.cast_ne_zero.2 (by omega)
  rw [meanFall, div_eq_zero_iff, or_iff_left hcast, falls_eq_zero_iff]

/-- A defined index is from 0 to 100. -/
theorem rsi_between {period : ℕ} (hperiod : 0 < period) {prices : List ℚ} (hne : prices ≠ [])
    {r : ℚ} (h : rsi (prices.map some) period = some r) : 0 ≤ r ∧ r ≤ 100 := by
  rw [rsi_prices hperiod hne] at h
  obtain ⟨hnone, h⟩ := Option.ite_none_left_eq_some.1 h
  obtain rfl := Option.some.inj h
  have hquotient : 0 ≤ meanRise prices period / meanFall prices period :=
    div_nonneg (div_nonneg rises_nonneg (Nat.cast_nonneg _))
      (div_nonneg falls_nonneg (Nat.cast_nonneg _))
  have hpart : 100 / (1 + meanRise prices period / meanFall prices period) ≤ 100 :=
    div_le_self (by norm_num) (by linarith)
  have hpos : 0 ≤ 100 / (1 + meanRise prices period / meanFall prices period) :=
    div_nonneg (by norm_num) (by linarith)
  have hround := @roundTwo_between
    (100 - 100 / (1 + meanRise prices period / meanFall prices period)) 0 100
    (by push_cast; linarith) (by push_cast; linarith)
  exact_mod_cast hround

/-- It is defined when there are more closes than the period, and a fall among
the last changes. -/
theorem rsi_defined_iff {period : ℕ} (hperiod : 0 < period) {prices : List ℚ}
    (hne : prices ≠ []) :
    (∃ r, rsi (prices.map some) period = some r) ↔
      period < prices.length ∧ ∃ d ∈ window prices period, d < 0 := by
  have hfalls : (∃ d ∈ window prices period, d < 0) ↔ meanFall prices period ≠ 0 := by
    rw [ne_eq, meanFall_eq_zero_iff hperiod]
    push Not
    rfl
  rw [rsi_prices hperiod hne, hfalls]
  by_cases hshort : prices.length ≤ period
  · simp [hshort]
  · by_cases hzero : meanFall prices period = 0
    · simp [hzero]
    · simp [hshort, hzero, not_le.1 hshort]

/-! ## What is reported -/

/-- The value of `rsi_14` or `weekly_rsi` is as it should be: a number from 0
to 100, and 100 where the last changes have rises and no falls. -/
def Proper (reported : Option (Option ℚ)) (prices : List ℚ) : Prop :=
  ∃ r, reported = some (some r) ∧ 0 ≤ r ∧ r ≤ 100 ∧
    ((∃ d ∈ window prices 14, 0 < d) → (∀ d ∈ window prices 14, 0 ≤ d) → r = 100)

/-- The index is as it should be exactly when it is defined. -/
theorem proper_iff {prices : List ℚ} (hne : prices ≠ []) :
    Proper (some (rsi (prices.map some) 14)) prices ↔
      14 < prices.length ∧ ∃ d ∈ window prices 14, d < 0 := by
  have hdefined := rsi_defined_iff (by decide : 0 < 14) hne
  constructor
  · intro hproper
    obtain ⟨r, hr, -⟩ := hproper
    exact hdefined.1 ⟨r, Option.some.inj hr⟩
  · intro hproper
    obtain ⟨r, hr⟩ := hdefined.2 hproper
    obtain ⟨hlow, hhigh⟩ := rsi_between (by decide) hne hr
    obtain ⟨-, d, hd, hfall⟩ := hproper
    exact ⟨r, by rw [hr], hlow, hhigh, fun _ hnone => absurd (hnone d hd) (not_le.2 hfall)⟩

/-- **What is reported.**  `rsi_14` of fourteen closes or more is as it should
be exactly when there is one close more and a fall among the last changes. -/
theorem rsi14_proper_iff (prices : List ℚ) (hgate : 14 ≤ prices.length) :
    Proper (rsi14 (prices.map some)) prices ↔
      15 ≤ prices.length ∧ ∃ d ∈ window prices 14, d < 0 := by
  have hne : prices ≠ [] := List.ne_nil_of_length_pos (by omega)
  have hreported : rsi14 (prices.map some) = some (rsi (prices.map some) 14) := by
    rw [rsi14, if_pos (by rwa [List.length_map])]
  rw [hreported, proper_iff hne]
  rfl

/-- Fifteen closes that end with a fall. -/
theorem rsi14_proper_falling :
    Proper (rsi14 ([10, 11, 12, 13, 14, 15, 16, 17, 18, 19, 20, 21, 22, 23, 22].map some))
      [10, 11, 12, 13, 14, 15, 16, 17, 18, 19, 20, 21, 22, 23, 22] :=
  (rsi14_proper_iff [10, 11, 12, 13, 14, 15, 16, 17, 18, 19, 20, 21, 22, 23, 22]
    (by decide)).2 ⟨by decide, -1, by decide +kernel, by norm_num⟩

/-- Fourteen closes that go up and down, and fifteen that only go up. -/
def fourteenCloses : List ℚ := [10, 11, 10, 11, 10, 11, 10, 11, 10, 11, 10, 11, 10, 11]

def risingCloses : List ℚ := [10, 11, 12, 13, 14, 15, 16, 17, 18, 19, 20, 21, 22, 23, 24]

/-- Both are let through and have no index. -/
theorem rsi14_undefined :
    ((∀ p ∈ fourteenCloses, 0 < p) ∧ 14 ≤ fourteenCloses.length ∧
      ¬ Proper (rsi14 (fourteenCloses.map some)) fourteenCloses) ∧
    (∀ p ∈ risingCloses, 0 < p) ∧ 14 ≤ risingCloses.length ∧
      ¬ Proper (rsi14 (risingCloses.map some)) risingCloses := by
  have hundefined : ∀ prices : List ℚ, rsi14 (prices.map some) = some none →
      ¬ Proper (rsi14 (prices.map some)) prices := by
    intro prices hnan hproper
    obtain ⟨r, hr, -⟩ := hproper
    rw [hnan] at hr
    cases hr
  exact ⟨⟨by decide +kernel, by decide, hundefined _ (by decide +kernel)⟩,
    by decide +kernel, by decide, hundefined _ (by decide +kernel)⟩

end Analysis
