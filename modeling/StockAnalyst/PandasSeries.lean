import Mathlib.Algebra.Order.Floor.Ring
import Mathlib.Data.Rat.Floor
import Mathlib.Tactic.Linarith

/-!
# Series of numbers with undefined elements

The operations of a pandas `Series` that an indicator needs, on exact
rationals.  An element that is NaN is `none`, and NaN in gives NaN out.
-/

namespace Pandas

/-- A series of floats; nothing for NaN. -/
abbrev Series := List (Option ℚ)

/-- `series.diff()`. -/
def diff : Series → Series
  | [] => []
  | x :: xs => none :: List.zipWith (Option.map₂ fun next last => next - last) xs (x :: xs)

/-- `series.clip(lower=0)`. -/
def clipLower (xs : Series) : Series := xs.map (Option.map fun x => max x 0)

/-- `series.clip(upper=0)`. -/
def clipUpper (xs : Series) : Series := xs.map (Option.map fun x => min x 0)

/-- `-series`. -/
def neg (xs : Series) : Series := xs.map (Option.map fun x => -x)

/-- The mean of a window, which is undefined as soon as an element is. -/
def mean (window : Series) : Option ℚ :=
  (window.mapM id).map fun xs => xs.sum / xs.length

/-- `series.rolling(period).mean()`: a window that is not full has no mean. -/
def rollingMean (period : ℕ) (xs : Series) : Series :=
  (List.range xs.length).map fun i =>
    if i + 1 < period then none else mean ((xs.take (i + 1)).drop (i + 1 - period))

/-- `series.replace(0, float("nan"))`. -/
def replaceZero (xs : Series) : Series := xs.map fun x => if x = some 0 then none else x

/-- `left / right`, where no divisor is zero. -/
def div (xs ys : Series) : Series := List.zipWith (Option.map₂ fun x y => x / y) xs ys

/-- `series.iloc[-1]`; nothing for NaN and where the series is empty. -/
def last (xs : Series) : Option ℚ := xs.getLast?.join

/-- The nearest integer, and the even one of two. -/
def roundHalfEven (q : ℚ) : ℤ :=
  if q - ⌊q⌋ < 1 / 2 ∨ (q - ⌊q⌋ = 1 / 2 ∧ ⌊q⌋ % 2 = 0) then ⌊q⌋ else ⌊q⌋ + 1

/-- `round(x, 2)`. -/
def roundTwo (x : ℚ) : ℚ := roundHalfEven (x * 100) / 100

/-! ## Rounding -/

/-- Rounding stays between integers. -/
theorem roundHalfEven_between {q : ℚ} {low high : ℤ} (hlow : (low : ℚ) ≤ q) (hhigh : q ≤ high) :
    low ≤ roundHalfEven q ∧ roundHalfEven q ≤ high := by
  have hfloor : low ≤ ⌊q⌋ := Int.le_floor.2 hlow
  have hle : ⌊q⌋ ≤ high := Int.cast_le.1 ((Int.floor_le q).trans hhigh)
  unfold roundHalfEven
  split
  · exact ⟨hfloor, hle⟩
  · rename_i hup
    have hhalf : ¬ q - ⌊q⌋ < 1 / 2 := fun h => hup (Or.inl h)
    have hlt : ((⌊q⌋ : ℤ) : ℚ) < high := by linarith
    have := Int.cast_lt.1 hlt
    exact ⟨by omega, by omega⟩

/-- Rounding stays between whole bounds. -/
theorem roundTwo_between {x : ℚ} {low high : ℤ} (hlow : (low : ℚ) ≤ x) (hhigh : x ≤ high) :
    (low : ℚ) ≤ roundTwo x ∧ roundTwo x ≤ high := by
  obtain ⟨hl, hh⟩ := @roundHalfEven_between (x * 100) (low * 100) (high * 100)
    (by push_cast; linarith) (by push_cast; linarith)
  have hl' : ((low * 100 : ℤ) : ℚ) ≤ roundHalfEven (x * 100) := Int.cast_le.2 hl
  have hh' : ((roundHalfEven (x * 100) : ℤ) : ℚ) ≤ (high * 100 : ℤ) := Int.cast_le.2 hh
  push_cast at hl' hh'
  unfold roundTwo
  exact ⟨by linarith, by linarith⟩

/-! ## The last elements -/

/-- The mean of numbers is their sum over their count. -/
theorem mean_some (xs : List ℚ) : mean (xs.map some) = some (xs.sum / xs.length) := by
  have hall : (xs.map some).mapM id = some xs := by
    induction xs with
    | nil => rfl
    | cons x xs ih => simp [List.mapM_cons, ih]
  rw [mean, hall]
  rfl

/-- A window with a gap has no mean. -/
theorem mean_none {window : Series} (h : none ∈ window) : mean window = none := by
  have hnone : window.mapM id = none := by
    induction window with
    | nil => cases h
    | cons x window ih =>
        cases x with
        | none => rfl
        | some x =>
            obtain h | h := List.mem_cons.1 h
            · cases h
            · simp [List.mapM_cons, ih h]
  rw [mean, hnone]
  rfl

/-- A rolling mean has a value for each of the series. -/
@[simp] theorem length_rollingMean (period : ℕ) (xs : Series) :
    (rollingMean period xs).length = xs.length := by
  simp [rollingMean]

/-- A difference has a value for each of the series. -/
@[simp] theorem length_diff (xs : Series) : (diff xs).length = xs.length := by
  cases xs with
  | nil => rfl
  | cons x xs => simp [diff]

/-- The last rolling mean is that of the last elements. -/
theorem getLast?_rollingMean {period : ℕ} {xs : Series} (hne : xs ≠ []) :
    (rollingMean period xs).getLast? =
      some (if xs.length < period then none else mean (xs.drop (xs.length - period))) := by
  have hpos := List.length_pos_iff.2 hne
  have hlast : xs.length - 1 + 1 = xs.length := by omega
  rw [List.getLast?_eq_getElem?, length_rollingMean, rollingMean, List.getElem?_map,
    List.getElem?_range (by omega), Option.map_some, hlast, List.take_length]

/-- The last quotient is that of the last elements. -/
theorem getLast?_div {xs ys : Series} {x y : Option ℚ} (hlength : xs.length = ys.length)
    (hx : xs.getLast? = some x) (hy : ys.getLast? = some y) :
    (div xs ys).getLast? = some (Option.map₂ (fun x y => x / y) x y) := by
  rw [List.getLast?_eq_getElem?] at hx hy ⊢
  rw [← hlength] at hy
  rw [div, List.length_zipWith, ← hlength, Nat.min_self, List.getElem?_zipWith, hx, hy]

end Pandas
