import StockAnalyst.DumpsLoads
import StockAnalyst.PyDumps

/-!
# Sorted JSON

`json.dumps(value, sort_keys=True, separators=(",", ":"), allow_nan=False)`, and
`json.loads` with a `parse_constant` that raises.  The decoder makes of the
encoder's text the value with sorted keys and with surrogate pairs joined; this
is equal to the value exactly when no string has such a pair.
-/

namespace Python

open JsonText Deliverable

/-! ## Decoding -/

/-- The value of a word; nothing where the decoder or `parse_constant` raises. -/
def readWord (number : PyStr → PyFloat) (word : PyStr) : Option Json :=
  if word = py "null" then some .null
  else if word = py "true" then some (.bool true)
  else if word = py "false" then some (.bool false)
  else if isInteger word then
    if (word.filter isDigit).length ≤ maxIntDigits then some (.int (intOf word)) else none
  else if isNumber word then some (.float (number word))
  else none

mutual

def readJson (number : PyStr → PyFloat) : Doc → Option Json
  | .word text => readWord number text
  | .str value => some (.str value)
  | .arr items => (readItems number items).map .arr
  | .obj entries => (readEntries number entries).map fun items => .obj (dictOf items)

def readItems (number : PyStr → PyFloat) : List Doc → Option (List Json)
  | [] => some []
  | d :: items => (readJson number d).bind fun x => (readItems number items).map (x :: ·)

def readEntries (number : PyStr → PyFloat) :
    List (PyStr × Doc) → Option (List (PyStr × Json))
  | [] => some []
  | (key, d) :: entries =>
      (readJson number d).bind fun x => (readEntries number entries).map ((key, x) :: ·)

end

/-- `json.loads(raw, parse_constant=...)`; nothing where it raises. -/
def loadsFinite (number : PyStr → PyFloat) (raw : PyStr) : Option Json :=
  (read scanPoints raw).bind (readJson number)

/-! ## Values -/

mutual

/-- A value with the entries of every object in the order of their keys. -/
def Json.sorted : Json → Json
  | .arr xs => .arr (Json.sortedItems xs)
  | .obj kvs => .obj (sortedEntries (Json.sortedValues kvs))
  | x => x

def Json.sortedItems : List Json → List Json
  | [] => []
  | x :: xs => x.sorted :: Json.sortedItems xs

def Json.sortedValues : List (PyStr × Json) → List (PyStr × Json)
  | [] => []
  | (k, x) :: kvs => (k, x.sorted) :: Json.sortedValues kvs

end

instance : DecidablePred CodePoints :=
  fun s => inferInstanceAs (Decidable (∀ c ∈ s, c < 0x110000))

instance : DecidablePred NoPair := fun s => decidable_of_iff _ (rejoin_eq_self_iff s)

/-- A value a Python program can hold: characters are code points, keys of an
object are distinct, and finite floats are doubles. -/
inductive Json.Held (isDouble : ℚ → Prop) : Json → Prop
  | null : Held isDouble .null
  | bool {b} : Held isDouble (.bool b)
  | int {i} : Held isDouble (.int i)
  | finite {neg abs} (double : isDouble abs) : Held isDouble (.float (.finite neg abs))
  | inf {neg} : Held isDouble (.float (.inf neg))
  | nan : Held isDouble (.float .nan)
  | str {s} (points : CodePoints s) : Held isDouble (.str s)
  | arr {xs} (each : ∀ x ∈ xs, Held isDouble x) : Held isDouble (.arr xs)
  | obj {kvs} (points : ∀ e ∈ kvs, CodePoints e.1) (keys : (kvs.map (·.1)).Nodup)
      (each : ∀ e ∈ kvs, Held isDouble e.2) : Held isDouble (.obj kvs)

/-- What Python's floats do: `repr` writes a number that is no integer, and
`float` reads it back. -/
structure FloatLib (lib : PyLib) where
  /-- `float(text)`. -/
  number : PyStr → PyFloat
  /-- The magnitudes of finite floats. -/
  isDouble : ℚ → Prop
  numbers : FloatNumbers lib
  not_integer : ∀ neg abs, isInteger (lib.floatRepr neg abs) = false
  number_repr : ∀ neg abs, isDouble abs → number (lib.floatRepr neg abs) = .finite neg abs

/-! ## Sorting -/

section entries

variable {α β : Type}

/-- Sorting looks at the keys only. -/
theorem sortedEntries_map (f : α → β) (kvs : List (PyStr × α)) :
    sortedEntries (kvs.map fun e => (e.1, f e.2)) =
      (sortedEntries kvs).map fun e => (e.1, f e.2) := by
  symm
  exact List.map_insertionSort _ _ _ _ fun a _ b _ => Iff.rfl

/-- Sorted entries stay as they are. -/
theorem sortedEntries_sortedEntries (kvs : List (PyStr × α)) :
    sortedEntries (sortedEntries kvs) = sortedEntries kvs := by
  have htotal : Std.Total fun a b : PyStr × α => a.1 ≤ b.1 := ⟨fun a b => le_total a.1 b.1⟩
  have htrans : IsTrans (PyStr × α) fun a b => a.1 ≤ b.1 := ⟨fun _ _ _ hab hbc => le_trans hab hbc⟩
  exact (List.pairwise_insertionSort _ kvs).insertionSort_eq

/-- Sorting keeps the entries. -/
theorem mem_sortedEntries {kvs : List (PyStr × α)} {e : PyStr × α} :
    e ∈ sortedEntries kvs ↔ e ∈ kvs := (sortedEntries_perm kvs).mem_iff

/-- Sorting keeps keys distinct. -/
theorem nodup_sortedEntries {kvs : List (PyStr × α)} :
    ((sortedEntries kvs).map (·.1)).Nodup ↔ (kvs.map (·.1)).Nodup :=
  ((sortedEntries_perm kvs).map (·.1)).nodup_iff

end entries

/-- The items of a list are sorted one by one. -/
theorem Json.sortedItems_eq_map (xs : List Json) : Json.sortedItems xs = xs.map Json.sorted := by
  induction xs with
  | nil => rfl
  | cons x xs ih => simp [Json.sortedItems, ih]

/-- The values of an object are sorted one by one. -/
theorem Json.sortedValues_eq_map (kvs : List (PyStr × Json)) :
    Json.sortedValues kvs = kvs.map fun e => (e.1, e.2.sorted) := by
  induction kvs with
  | nil => rfl
  | cons e kvs ih => simp [Json.sortedValues, ih]

/-- The tokens of a list are those of its items. -/
theorem Json.toksList_eq_flatMap (xs : List Json) : Json.toksList xs = xs.flatMap Json.toks := by
  induction xs with
  | nil => rfl
  | cons x xs ih => simp [Json.toksList, ih]

/-- Sorting leaves a value equal to what it was. -/
theorem Json.toks_sorted (v : Json) : v.sorted.toks = v.toks := by
  induction v using Json.induct with
  | arr xs ih =>
      have hitems : (xs.map Json.sorted).flatMap Json.toks = xs.flatMap Json.toks := by
        rw [List.flatMap_map]
        exact List.flatMap_congr fun x hx => ih x hx
      simp only [Json.sorted, Json.toks, Json.sortedItems_eq_map, Json.toksList_eq_flatMap,
        List.length_map, hitems]
  | obj kvs ih =>
      have hvalues : Json.toksObj (Json.sortedValues kvs) = Json.toksObj kvs := by
        rw [Json.sortedValues_eq_map, Json.toksObj_eq_map, Json.toksObj_eq_map, List.map_map]
        exact List.map_congr_left fun e he => Prod.ext rfl (ih e he)
      have hsort : sortedEntries (Json.toksObj (sortedEntries (Json.sortedValues kvs))) =
          sortedEntries (Json.toksObj kvs) := by
        rw [Json.toksObj_eq_map, ← sortedEntries_map, sortedEntries_sortedEntries,
          ← Json.toksObj_eq_map, hvalues]
      have hlength : (sortedEntries (Json.sortedValues kvs)).length = kvs.length := by
        rw [(sortedEntries_perm _).length_eq, Json.sortedValues_eq_map, List.length_map]
      simp only [Json.sorted, Json.toks, hsort, hlength]
  | _ => rfl

/-- A sorted value stays as it is. -/
theorem Json.sorted_sorted (v : Json) : v.sorted.sorted = v.sorted := by
  induction v using Json.induct with
  | arr xs ih =>
      simp only [Json.sorted, Json.sortedItems_eq_map, List.map_map, Json.arr.injEq]
      exact List.map_congr_left fun x hx => ih x hx
  | obj kvs ih =>
      have hvalues : Json.sortedValues (Json.sortedValues kvs) = Json.sortedValues kvs := by
        simp only [Json.sortedValues_eq_map, List.map_map]
        exact List.map_congr_left fun e he => Prod.ext rfl (ih e he)
      simp only [Json.sorted, Json.obj.injEq]
      rw [Json.sortedValues_eq_map, ← sortedEntries_map, sortedEntries_sortedEntries,
        ← Json.sortedValues_eq_map, hvalues]
  | _ => rfl

/-- The items of a sorted list are sorted. -/
theorem Json.sorted_items {xs : List Json} (h : (Json.arr xs).sorted = .arr xs) :
    ∀ x ∈ xs, x.sorted = x := by
  intro x hx
  rw [← Json.arr.inj h, Json.sortedItems_eq_map] at hx
  obtain ⟨y, -, rfl⟩ := List.mem_map.1 hx
  exact y.sorted_sorted

/-- The values of a sorted object are sorted. -/
theorem Json.sorted_values {kvs : List (PyStr × Json)} (h : (Json.obj kvs).sorted = .obj kvs) :
    ∀ e ∈ kvs, e.2.sorted = e.2 := by
  intro e he
  rw [← Json.obj.inj h, mem_sortedEntries, Json.sortedValues_eq_map] at he
  obtain ⟨e', -, rfl⟩ := List.mem_map.1 he
  exact e'.2.sorted_sorted

/-- The keys of a sorted object are in order. -/
theorem Json.sorted_keys {kvs : List (PyStr × Json)} (h : (Json.obj kvs).sorted = .obj kvs) :
    (kvs.map (·.1)).Pairwise (· ≤ ·) := by
  have htotal : Std.Total fun a b : PyStr × Json => a.1 ≤ b.1 := ⟨fun a b => le_total a.1 b.1⟩
  have htrans : IsTrans (PyStr × Json) fun a b => a.1 ≤ b.1 := ⟨fun _ _ _ hab hbc => le_trans hab hbc⟩
  rw [List.pairwise_map, ← Json.obj.inj h]
  exact List.pairwise_insertionSort _ _

/-- What a program can hold it can hold sorted. -/
theorem Json.Held.sorted {isDouble : ℚ → Prop} {v : Json} (h : v.Held isDouble) :
    v.sorted.Held isDouble := by
  induction h with
  | arr _ ih =>
      rw [Json.sorted, Json.sortedItems_eq_map]
      exact .arr (List.forall_mem_map.2 ih)
  | @obj kvs points keys _ ih =>
      rw [Json.sorted, Json.sortedValues_eq_map]
      refine .obj ?_ ?_ ?_
      · intro e he
        obtain ⟨e', he', rfl⟩ := List.mem_map.1 (mem_sortedEntries.1 he)
        exact points e' he'
      · rw [nodup_sortedEntries, List.map_map]
        exact keys
      · intro e he
        obtain ⟨e', he', rfl⟩ := List.mem_map.1 (mem_sortedEntries.1 he)
        exact ih e' he'
  | str points => exact .str points
  | finite double => exact .finite double
  | null => exact .null
  | bool => exact .bool
  | int => exact .int
  | inf => exact .inf
  | nan => exact .nan

/-! ## The encoder prints the sorted value -/

section traverse

variable {α β : Type} [Inhabited β] (f : α → Option β)

/-- `f` at every value, where it is defined at all of them. -/
def traverseValues (kvs : List (PyStr × α)) : Option (List (PyStr × β)) :=
  if kvs.all fun e => (f e.2).isSome then some (kvs.map fun e => (e.1, (f e.2).getD default))
  else none

/-- The traversal, one entry at a time. -/
theorem traverseValues_cons (k : PyStr) (x : α) (kvs : List (PyStr × α)) :
    traverseValues f ((k, x) :: kvs) =
      (f x).bind fun y => (traverseValues f kvs).map ((k, y) :: ·) := by
  unfold traverseValues
  cases hx : f x with
  | none => simp [hx]
  | some y => by_cases hall : kvs.all fun e => (f e.2).isSome <;> simp [hx, hall]

/-- Sorting before or after the traversal is the same. -/
theorem traverseValues_sorted (kvs : List (PyStr × α)) :
    traverseValues f (sortedEntries kvs) = (traverseValues f kvs).map sortedEntries := by
  have hall : (sortedEntries kvs).all (fun e => (f e.2).isSome) =
      kvs.all fun e => (f e.2).isSome := by
    rw [Bool.eq_iff_iff, List.all_eq_true, List.all_eq_true]
    simp only [mem_sortedEntries]
  have hmap : sortedEntries (kvs.map fun e => (e.1, (f e.2).getD default)) =
      (sortedEntries kvs).map fun e => (e.1, (f e.2).getD default) :=
    sortedEntries_map (fun x => (f x).getD default) kvs
  unfold traverseValues
  rw [hall, ← hmap]
  by_cases hsome : kvs.all fun e => (f e.2).isSome
  · rw [if_pos hsome, if_pos hsome, Option.map_some]
  · rw [if_neg hsome, if_neg hsome, Option.map_none]

/-- A traversal through `g`, with the values prepared and finished. -/
theorem traverseValues_map {γ δ : Type} [Inhabited δ] {g : γ → Option δ} {pre : α → γ}
    {post : δ → β} {kvs : List (PyStr × α)} (h : ∀ e ∈ kvs, f e.2 = (g (pre e.2)).map post) :
    traverseValues f kvs = (traverseValues g (kvs.map fun e => (e.1, pre e.2))).map
      (List.map fun e => (e.1, post e.2)) := by
  induction kvs with
  | nil => rfl
  | cons e kvs ih =>
      obtain ⟨he, hkvs⟩ := List.forall_mem_cons.1 h
      obtain ⟨k, x⟩ := e
      rw [List.map_cons, traverseValues_cons, traverseValues_cons, he, ih hkvs]
      cases g (pre x) with
      | none => rfl
      | some y => cases traverseValues g (kvs.map fun e => (e.1, pre e.2)) <;> rfl

end traverse

instance : Inhabited Doc := ⟨.arr []⟩

variable {lib : PyLib}

/-- The texts of an object are a traversal of its values. -/
theorem Json.dumpsObj_eq_traverse (kvs : List (PyStr × Json)) :
    Json.dumpsObj lib kvs = traverseValues (Json.dumps lib) kvs := by
  induction kvs with
  | nil => rfl
  | cons e kvs ih => rw [Json.dumpsObj, traverseValues_cons, ih]

/-- The documents of an object are a traversal of its values. -/
theorem Json.docEntries_eq_traverse (nan : Bool) (kvs : List (PyStr × Json)) :
    Json.docEntries lib nan kvs = traverseValues (Json.doc lib nan) kvs := by
  induction kvs with
  | nil => rfl
  | cons e kvs ih => rw [Json.docEntries, traverseValues_cons, ih]

/-- `json.dumps` with sorted keys is the compact text of the sorted value. -/
theorem Json.dumps_eq_text (v : Json) : v.dumps lib = (v.sorted.doc lib false).map Doc.text := by
  induction v using Json.induct with
  | null => rfl
  | bool b => rfl
  | int i =>
      show dumpsInt i = ((dumpsInt i).map Doc.word).map Doc.text
      cases dumpsInt i <;> rfl
  | float x => cases x <;> rfl
  | str s => rfl
  | arr xs ih =>
      have hitems : Json.dumpsList lib xs =
          (Json.docs lib false (Json.sortedItems xs)).map Doc.texts := by
        induction xs with
        | nil => rfl
        | cons x xs ih' =>
            obtain ⟨hx, hxs⟩ := List.forall_mem_cons.1 ih
            rw [Json.dumpsList, Json.sortedItems, Json.docs, hx, ih' hxs]
            cases x.sorted.doc lib false with
            | none => rfl
            | some d => cases Json.docs lib false (Json.sortedItems xs) <;> rfl
      rw [Json.dumps, Json.sorted, Json.doc, hitems]
      cases Json.docs lib false (Json.sortedItems xs) <;> rfl
  | obj kvs ih =>
      have hvalues := traverseValues_map (f := Json.dumps lib) (g := Json.doc lib false) ih
      rw [← Json.sortedValues_eq_map] at hvalues
      rw [Json.dumps, Json.sorted, Json.doc, Json.dumpsObj_eq_traverse, hvalues,
        Json.docEntries_eq_traverse, traverseValues_sorted]
      cases traverseValues (Json.doc lib false) (Json.sortedValues kvs) with
      | none => rfl
      | some ds =>
          simp only [Option.map_some, Option.some.injEq, Doc.text, Doc.entryTexts_eq_map,
            dumpsEntries]
          rw [sortedEntries_map Doc.text ds, List.map_map]
          rfl

/-- The text of the sorted value is that of the value. -/
theorem Json.dumps_sorted (v : Json) : v.sorted.dumps lib = v.dumps lib := by
  rw [Json.dumps_eq_text, Json.dumps_eq_text, Json.sorted_sorted]

/-! ## The decoder reads the text -/

/-- The text of an integer is one. -/
theorem isInteger_intText (i : Int) : isInteger (intText i) = true := by
  unfold intText
  by_cases hneg : i < 0
  · rw [if_pos hneg]
    simp [isInteger, isUnsignedInteger_natDigits (n := i.natAbs) (by omega)]
  · rw [if_neg hneg]
    by_cases hzero : i = 0
    · rw [if_pos hzero]
      rfl
    · rw [if_neg hzero]
      simp [isInteger, isUnsignedInteger_natDigits (n := i.natAbs) (by omega)]

/-- Digits have no sign before them. -/
theorem head_natDigits (n : Nat) : (natDigits n).head? ≠ some 45 := by
  intro hhead
  have := natDigits_range n 45 (List.mem_of_head? hhead)
  omega

/-- `int(str(i))`. -/
theorem intOf_intText (i : Int) : intOf (intText i) = i := by
  unfold intText
  by_cases hneg : i < 0
  · rw [if_pos hneg, intOf, if_pos (by simp), List.tail_cons, natOf_natDigits]
    omega
  · rw [if_neg hneg]
    by_cases hzero : i = 0
    · rw [if_pos hzero, hzero]
      rfl
    · rw [if_neg hzero, intOf, if_neg (head_natDigits _), natOf_natDigits]
      omega

/-- The encoder and the decoder count the same digits. -/
theorem filter_intText {i : Int} (h : (Nat.digits 10 i.natAbs).length ≤ maxIntDigits) :
    ((intText i).filter isDigit).length ≤ maxIntDigits := by
  have hfilter : (natDigits i.natAbs).filter isDigit = natDigits i.natAbs :=
    filter_digits (natDigits_range _)
  have hlength : (natDigits i.natAbs).length ≤ maxIntDigits := by
    simpa [natDigits] using h
  unfold intText
  by_cases hneg : i < 0
  · rw [if_pos hneg, List.filter_cons_of_neg (by decide), hfilter]
    exact hlength
  · rw [if_neg hneg]
    by_cases hzero : i = 0
    · rw [if_pos hzero]
      decide
    · rw [if_neg hzero, hfilter]
      exact hlength

/-- A number is none of the constants. -/
theorem readWord_number {number : PyStr → PyFloat} {w : PyStr} (h : isNumber w = true) :
    readWord number w = if isInteger w then
      if (w.filter isDigit).length ≤ maxIntDigits then some (.int (intOf w)) else none
      else some (.float (number w)) := by
  have hnot : ∀ c : PyStr, isNumber c = false → w ≠ c := by
    intro c hc heq
    rw [heq, hc] at h
    cases h
  rw [readWord, if_neg (hnot _ (by decide)), if_neg (hnot _ (by decide)),
    if_neg (hnot _ (by decide)), if_pos h]

/-! ### Strings -/

/-- The high unit of an astral code point is a high surrogate. -/
theorem isHigh_highUnit {c : Nat} (h : c < 0x110000) : isHigh (highUnit c) = true := by
  rw [isHigh_iff, highUnit]
  omega

/-- The high unit is no low surrogate. -/
theorem isLow_highUnit {c : Nat} (h : c < 0x110000) : isLow (highUnit c) = false := by
  rw [← Bool.not_eq_true, isLow_iff, highUnit]
  omega

/-- The low unit is a low surrogate. -/
theorem isLow_lowUnit (c : Nat) : isLow (lowUnit c) = true := by
  rw [isLow_iff, lowUnit]
  omega

/-- The two units stand for the code point. -/
theorem combine_units {c : Nat} (hc : 0x10000 ≤ c) : combine (highUnit c) (lowUnit c) = c := by
  unfold combine highUnit lowUnit
  omega

/-- The code units of one code point. -/
def pointUnits (c : Nat) : List Nat :=
  if c < 0x10000 then [c] else [highUnit c % 0x10000, lowUnit c]

/-- What the escapes of a text stand for are its units. -/
theorem pointUnits_eq (s : PyStr) : (escapes s).map Prod.snd = s.flatMap pointUnits := by
  unfold escapes
  rw [List.map_flatMap]
  apply List.flatMap_congr
  intro c hc
  by_cases hlt : c < 0x10000 <;> simp [pointUnits, hlt]

/-- An astral code point is its two units. -/
theorem pointUnits_astral {c : Nat} (h : c < 0x110000) (hc : 0x10000 ≤ c) :
    pointUnits c = [highUnit c, lowUnit c] := by
  have hmod : highUnit c % 0x10000 = highUnit c := by
    unfold highUnit
    omega
  rw [pointUnits, if_neg (by omega), hmod]

/-- A code unit before the units of a code point that is no low surrogate. -/
theorem rejoin_cons_units {u c : Nat} {rest : PyStr} (h : c < 0x110000) (hlow : isLow c = false) :
    rejoin (u :: (pointUnits c ++ rest)) = u :: rejoin (pointUnits c ++ rest) := by
  by_cases hc : c < 0x10000
  · rw [pointUnits, if_pos hc, List.singleton_append, rejoin, if_neg (by simp [hlow])]
  · rw [pointUnits_astral h (by omega), List.cons_append, rejoin,
      if_neg (by simp [isLow_highUnit h])]

/-- The two units of an astral code point are joined again. -/
theorem rejoin_units_astral {c : Nat} (h : c < 0x110000) (hc : 0x10000 ≤ c) (rest : PyStr) :
    rejoin (pointUnits c ++ rest) = c :: rejoin rest := by
  rw [pointUnits_astral h hc, List.cons_append, List.cons_append, List.nil_append, rejoin,
    if_pos (by simp [isHigh_highUnit h, isLow_lowUnit]), combine_units hc]

/-- Surrogates are code points of the basic plane. -/
theorem surrogate_lt {c : Nat} (h : isHigh c = true ∨ isLow c = true) : c < 0x10000 := by
  rw [isHigh_iff, isLow_iff] at h
  omega

/-- The decoder joins the surrogates of a string as `rejoin` does: the two
escapes of one code point are the code point again. -/
theorem loadedStr_eq {s : PyStr} (h : CodePoints s) : loadedStr s = rejoin s := by
  rw [loadedStr, pointUnits_eq]
  fun_induction rejoin s with
  | case1 => rfl
  | case2 c =>
      by_cases hc : c < 0x10000
      · simp [pointUnits, hc, rejoin]
      · have hjoin := rejoin_units_astral (h c List.mem_cons_self) (by omega) []
        simpa [rejoin] using hjoin
  | case3 hi lo rest hpair ih =>
      simp only [Bool.and_eq_true] at hpair
      have hhi := surrogate_lt (Or.inl hpair.1)
      have hlo := surrogate_lt (Or.inr hpair.2)
      have hrest := ih fun c hc => h c (List.mem_cons_of_mem _ (List.mem_cons_of_mem _ hc))
      simp only [List.flatMap_cons, pointUnits, if_pos hhi, if_pos hlo, List.cons_append,
        List.nil_append]
      rw [rejoin, if_pos (by simp [hpair]), hrest]
  | case4 hi lo rest hpair ih =>
      obtain ⟨hhi, htail⟩ := List.forall_mem_cons.1 h
      have hrest := ih htail
      by_cases hc : hi < 0x10000
      · rw [List.flatMap_cons, pointUnits, if_pos hc, List.singleton_append, ← hrest,
          List.flatMap_cons]
        by_cases hlow : isLow lo = true
        · have hlo := surrogate_lt (Or.inr hlow)
          rw [pointUnits, if_pos hlo, List.singleton_append, rejoin, if_neg hpair]
        · exact rejoin_cons_units (htail lo List.mem_cons_self) (by simpa using hlow)
      · rw [List.flatMap_cons, rejoin_units_astral hhi (by omega), hrest]

/-! ### Values -/

variable {fl : FloatLib lib}

/-- `json.loads` reads the document of a sorted value as `Json.reload` of the
value. -/
theorem Json.readJson_doc {v : Json} {d : Doc} (hv : v.Held fl.isDouble)
    (hsorted : v.sorted = v) (h : v.doc lib false = some d) :
    readJson fl.number (d.mapStr loadedStr) = some v.reload := by
  induction hv generalizing d with
  | null =>
      obtain rfl := Option.some.inj h
      rfl
  | @bool b =>
      obtain rfl := Option.some.inj h
      cases b <;> rfl
  | @int i =>
      obtain ⟨w, hw, rfl⟩ := Option.map_eq_some_iff.1 h
      simp only [dumpsInt, Option.ite_none_right_eq_some, Option.some.injEq] at hw
      obtain ⟨hlimit, rfl⟩ := hw
      rw [Doc.mapStr, readJson, readWord_number (isNumber_intText i), if_pos (isInteger_intText i),
        if_pos (filter_intText hlimit), intOf_intText]
      rfl
  | @finite neg abs double =>
      obtain rfl := Option.some.inj h
      rw [Doc.mapStr, readJson, readWord_number (fl.numbers neg abs),
        if_neg (by rw [fl.not_integer]; decide), fl.number_repr neg abs double]
      rfl
  | inf => cases h
  | nan => cases h
  | @str s points =>
      obtain rfl := Option.some.inj h
      rw [Doc.mapStr, readJson, loadedStr_eq points]
      rfl
  | @arr xs _ ih =>
      obtain ⟨ds, hds, rfl⟩ := Option.map_eq_some_iff.1 h
      replace hsorted := Json.sorted_items hsorted
      have hitems : readItems fl.number (Doc.mapItems loadedStr ds) =
          some (Json.reloadList xs) := by
        clear h
        induction xs generalizing ds with
        | nil =>
            obtain rfl := Option.some.inj hds
            rfl
        | cons x xs ih' =>
            obtain ⟨hx, hxs⟩ := List.forall_mem_cons.1 ih
            obtain ⟨hxsorted, hxssorted⟩ := List.forall_mem_cons.1 hsorted
            obtain ⟨d, ds', hd, hds', rfl⟩ := Json.docs_cons hds
            rw [Doc.mapItems, readItems, hx hxsorted hd, ih' (by grind) hxs ds' hds' hxssorted]
            rfl
      rw [Doc.mapStr, readJson, hitems]
      rfl
  | @obj kvs points _ _ ih =>
      obtain ⟨ds, hds, rfl⟩ := Option.map_eq_some_iff.1 h
      have hkeys := Json.sorted_keys hsorted
      replace hsorted := Json.sorted_values hsorted
      have hentries : readEntries fl.number (Doc.mapEntries loadedStr ds) =
          some (Json.reloadObj kvs) := by
        clear h hkeys
        induction kvs generalizing ds with
        | nil =>
            obtain rfl := Option.some.inj hds
            rfl
        | cons e kvs ih' =>
            obtain ⟨hx, hxs⟩ := List.forall_mem_cons.1 ih
            obtain ⟨hk, hks⟩ := List.forall_mem_cons.1 points
            obtain ⟨hxsorted, hxssorted⟩ := List.forall_mem_cons.1 hsorted
            obtain ⟨d, ds', hd, hds', rfl⟩ := Json.docEntries_cons hds
            rw [Doc.mapEntries, readEntries, hx hxsorted hd,
              ih' hks (by grind) (by grind) hxs ds' hds' hxssorted, loadedStr_eq hk]
            rfl
      rw [Doc.mapStr, readJson, hentries, Option.map_some, Json.reload,
        mergeKeys_of_sorted (by rw [List.length_map, Json.length_reloadObj]) hkeys]

/-- The strings a program can hold are of code points. -/
theorem Json.Held.allStr {isDouble : ℚ → Prop} {v : Json} (h : v.Held isDouble) :
    v.AllStr CodePoints := by
  induction h with
  | str points => exact .str points
  | arr _ ih => exact .arr ih
  | obj points _ _ ih => exact .obj points ih
  | null => exact .null
  | bool => exact .bool
  | int => exact .int
  | _ => exact .float

/-- **The decoder on the encoder's text.** -/
theorem Json.loads_dumps {v : Json} {text : PyStr} (hv : v.Held fl.isDouble)
    (h : v.dumps lib = some text) : loadsFinite fl.number text = some v.sorted.reload := by
  rw [Json.dumps_eq_text] at h
  obtain ⟨d, hd, rfl⟩ := Option.map_eq_some_iff.1 h
  have hall := Json.doc_all fl.numbers hd hv.sorted.allStr
  have hread : d.Readable scanPoints compactStyle loadedStr :=
    hall.mono (fun _ hw => ⟨hw.1, fun c hc => (hw.2 c hc).1⟩) fun s _ => ok_loadedStr s
  rw [loadsFinite, d.text_eq_print, Doc.read_print hread]
  exact Json.readJson_doc hv.sorted v.sorted_sorted hd

/-- ASCII text is its own UTF-8. -/
theorem utf8Encode_ascii {s : PyStr} (h : ∀ c ∈ s, c < 0x80) : utf8Encode s = some s := by
  induction s with
  | nil => rfl
  | cons c s ih =>
      obtain ⟨hc, hs⟩ := List.forall_mem_cons.1 h
      rw [utf8Encode, utf8Char, if_pos hc, ih hs]
      rfl

/-- The text is ASCII. -/
theorem Json.dumps_ascii {v : Json} {text : PyStr} (hv : v.Held fl.isDouble)
    (h : v.dumps lib = some text) : ∀ c ∈ text, c < 0x80 := by
  rw [Json.dumps_eq_text] at h
  obtain ⟨d, hd, rfl⟩ := Option.map_eq_some_iff.1 h
  have hall := Json.doc_all fl.numbers hd hv.sorted.allStr
  rw [d.text_eq_print]
  refine Doc.forall_print (fun c hc => isPunct_ascii hc) (fun c hc => isSpace_ascii hc)
    (fun w hw c hc => ?_) (fun value _ => dumpsStr_ascii value) hall
  exact (hw.2 c hc).2

/-! ## Values that read back equal -/

/-- Distinct keys and strings without a surrogate pair are read as they were. -/
theorem Json.reload_eq_self {isDouble : ℚ → Prop} {v : Json} (hv : v.Held isDouble)
    (h : v.AllStr NoPair) : v.reload = v := by
  induction hv with
  | str _ =>
      cases h with
      | str hpair => rw [Json.reload, (rejoin_eq_self_iff _).2 hpair]
  | @arr xs _ ih =>
      cases h with
      | arr each =>
          have hitems : Json.reloadList xs = xs := by
            induction xs with
            | nil => rfl
            | cons x xs ih' =>
                obtain ⟨hx, hxs⟩ := List.forall_mem_cons.1 each
                rw [Json.reloadList, ih x List.mem_cons_self hx,
                  ih' (by grind) (fun y hy => ih y (List.mem_cons_of_mem _ hy)) hxs]
          rw [Json.reload, hitems]
  | @obj kvs _ keys _ ih =>
      cases h with
      | obj hkeys each =>
          have hobj : Json.reloadObj kvs = kvs := Json.reloadObj_of_fixed fun e he =>
            ⟨(rejoin_eq_self_iff _).2 (hkeys e he), ih e he (each e he)⟩
          rw [Json.reload, hobj, mergeKeys, if_pos keys]
  | _ => rfl

/-! ### Characters

Joining a pair drops a character and nothing adds one, so a value that reads
back equal had no pair. -/

def Tok.chars : Tok → Nat
  | .str s => s.length
  | _ => 0

/-- The characters in the strings and keys of a value. -/
def Json.chars (v : Json) : Nat := (v.toks.map Tok.chars).sum

def charsOf (kvs : List (PyStr × Json)) : Nat := (kvs.map fun e => e.1.length + e.2.chars).sum

/-- A list has the characters of its items. -/
theorem Json.chars_arr (xs : List Json) : (Json.arr xs).chars = (xs.map Json.chars).sum := by
  unfold Json.chars
  rw [Json.toks, Json.toksList_eq_flatMap]
  induction xs with
  | nil => rfl
  | cons x xs ih =>
      simp only [List.map_cons, Tok.chars, List.sum_cons, Nat.zero_add, List.flatMap_cons,
        List.map_append, List.sum_append] at ih ⊢
      rw [ih]

/-- An object has the characters of its keys and values. -/
theorem Json.chars_obj (kvs : List (PyStr × Json)) : (Json.obj kvs).chars = charsOf kvs := by
  have hsum : ∀ es : List (PyStr × List Tok),
      ((es.flatMap fun e => Tok.str e.1 :: e.2).map Tok.chars).sum =
        (es.map fun e => e.1.length + (e.2.map Tok.chars).sum).sum := by
    intro es
    induction es with
    | nil => rfl
    | cons e es ih => simp [Tok.chars, ih, Nat.add_assoc]
  unfold Json.chars charsOf
  rw [Json.toks, List.map_cons, List.sum_cons, hsum,
    ((sortedEntries_perm (Json.toksObj kvs)).map _).sum_eq, Json.toksObj_eq_map, List.map_map]
  simp only [Tok.chars, Nat.zero_add]
  rfl

/-- Setting a key adds no more than that key and its value. -/
theorem charsOf_dictSet (d : List (PyStr × Json)) (k : PyStr) (v : Json) :
    charsOf (dictSet d k v) ≤ charsOf d + (k.length + v.chars) := by
  induction d with
  | nil => simp [dictSet, charsOf]
  | cons e d ih =>
      unfold charsOf at ih ⊢
      by_cases hk : e.1 = k
      · simp only [dictSet, hk, if_true, List.map_cons, List.sum_cons]
        omega
      · simp only [dictSet, hk, if_false, List.map_cons, List.sum_cons]
        omega

/-- A dictionary has no more characters than its items. -/
theorem charsOf_dictOf (items : List (PyStr × Json)) : charsOf (dictOf items) ≤ charsOf items := by
  have hgen : ∀ (items d : List (PyStr × Json)),
      charsOf (items.foldl (fun d e => dictSet d e.1 e.2) d) ≤ charsOf d + charsOf items := by
    intro items
    induction items with
    | nil => exact fun d => Nat.le_refl _
    | cons e items ih =>
        intro d
        have hset := charsOf_dictSet d e.1 e.2
        have hrest := ih (dictSet d e.1 e.2)
        simp only [charsOf, List.map_cons, List.sum_cons, List.foldl_cons] at hset hrest ⊢
        omega
  calc charsOf (dictOf items) ≤ charsOf ([] : List (PyStr × Json)) + charsOf items := hgen items []
    _ = charsOf items := Nat.zero_add _

/-- A text that joining does not shorten has no pair. -/
theorem noPair_of_length {s : PyStr} (h : s.length ≤ (rejoin s).length) : NoPair s := by
  fun_induction rejoin s with
  | case1 => trivial
  | case2 c => trivial
  | case3 hi lo rest hpair ih =>
      have := rejoin_length_le rest
      simp only [List.length_cons] at h
      omega
  | case4 hi lo rest hpair ih => exact ⟨hpair, ih (by simpa using h)⟩

/-- Reading a value back adds no character, and keeps them all only where there
is no pair. -/
theorem Json.chars_reload (v : Json) :
    v.reload.chars ≤ v.chars ∧ (v.chars ≤ v.reload.chars → v.AllStr NoPair) := by
  induction v using Json.induct with
  | str s =>
      have hlength : ∀ t : PyStr, (Json.str t).chars = t.length := fun t => rfl
      rw [Json.reload, hlength, hlength]
      exact ⟨rejoin_length_le s, fun h => .str (noPair_of_length h)⟩
  | arr xs ih =>
      have hitems : ((Json.reloadList xs).map Json.chars).sum ≤ (xs.map Json.chars).sum ∧
          ((xs.map Json.chars).sum ≤ ((Json.reloadList xs).map Json.chars).sum →
            ∀ x ∈ xs, x.AllStr NoPair) := by
        induction xs with
        | nil => simp [Json.reloadList]
        | cons x xs ih' =>
            obtain ⟨hx, hxs⟩ := List.forall_mem_cons.1 ih
            obtain ⟨hle, heq⟩ := ih' hxs
            simp only [Json.reloadList, List.map_cons, List.sum_cons]
            refine ⟨by omega, fun h => List.forall_mem_cons.2 ⟨hx.2 (by omega), heq (by omega)⟩⟩
      rw [Json.reload, Json.chars_arr, Json.chars_arr]
      exact ⟨hitems.1, fun h => .arr (hitems.2 h)⟩
  | obj kvs ih =>
      have hitems : charsOf (Json.reloadObj kvs) ≤ charsOf kvs ∧
          (charsOf kvs ≤ charsOf (Json.reloadObj kvs) →
            ∀ e ∈ kvs, NoPair e.1 ∧ e.2.AllStr NoPair) := by
        induction kvs with
        | nil => simp [Json.reloadObj]
        | cons e kvs ih' =>
            obtain ⟨hx, hxs⟩ := List.forall_mem_cons.1 ih
            obtain ⟨hle, heq⟩ := ih' hxs
            have hkey := rejoin_length_le e.1
            simp only [charsOf, Json.reloadObj, List.map_cons, List.sum_cons] at hle heq ⊢
            refine ⟨by omega, fun h => ?_⟩
            refine List.forall_mem_cons.2 ⟨⟨?_, hx.2 (by omega)⟩, heq (by omega)⟩
            exact noPair_of_length (by omega)
      obtain ⟨items, hperm, hreload⟩ := Json.reload_obj kvs
      have hdict := charsOf_dictOf items
      have hsum : charsOf items = charsOf (Json.reloadObj kvs) := (hperm.map _).sum_eq
      rw [hreload, Json.chars_obj, Json.chars_obj]
      refine ⟨by omega, fun h => ?_⟩
      have hall := hitems.2 (by omega)
      exact .obj (fun e he => (hall e he).1) fun e he => (hall e he).2
  | null => exact ⟨Nat.le_refl _, fun _ => .null⟩
  | bool b => exact ⟨Nat.le_refl _, fun _ => .bool⟩
  | int i => exact ⟨Nat.le_refl _, fun _ => .int⟩
  | float x => exact ⟨Nat.le_refl _, fun _ => .float⟩

/-- Sorting keeps the strings. -/
theorem Json.allStr_sorted {P : PyStr → Prop} {v : Json} : v.sorted.AllStr P ↔ v.AllStr P := by
  induction v using Json.induct with
  | arr xs ih =>
      rw [Json.sorted, Json.sortedItems_eq_map]
      constructor
      · intro h
        cases h with
        | arr each => exact .arr fun x hx => (ih x hx).1 (each _ (List.mem_map_of_mem hx))
      · intro h
        cases h with
        | arr each => exact .arr (List.forall_mem_map.2 fun x hx => (ih x hx).2 (each x hx))
  | obj kvs ih =>
      have hmem : ∀ e, e ∈ sortedEntries (Json.sortedValues kvs) ↔
          ∃ e' ∈ kvs, (e'.1, e'.2.sorted) = e := by
        intro e
        rw [mem_sortedEntries, Json.sortedValues_eq_map, List.mem_map]
      rw [Json.sorted]
      constructor
      · intro h
        cases h with
        | obj keys each =>
            exact .obj (fun e he => keys (e.1, e.2.sorted) ((hmem _).2 ⟨e, he, rfl⟩)) fun e he =>
              (ih e he).1 (each (e.1, e.2.sorted) ((hmem _).2 ⟨e, he, rfl⟩))
      · intro h
        cases h with
        | obj keys each =>
            refine .obj (fun e he => ?_) fun e he => ?_
            · obtain ⟨e', he', rfl⟩ := (hmem e).1 he
              exact keys e' he'
            · obtain ⟨e', he', rfl⟩ := (hmem e).1 he
              exact (ih e' he').2 (each e' he')
  | _ => exact Iff.rfl

/-- **Read back equal.**  A value equals what is read of its text exactly when
no high surrogate stands before a low one in it. -/
theorem Json.reload_pyEq_iff {isDouble : ℚ → Prop} {v : Json} (hv : v.Held isDouble) :
    v.sorted.reload.pyEq v = true ↔ v.AllStr NoPair := by
  rw [Json.pyEq_iff]
  constructor
  · intro h
    have hchars : v.sorted.chars = v.sorted.reload.chars := by
      rw [Json.chars, Json.chars, h, Json.toks_sorted]
    exact Json.allStr_sorted.1 (v.sorted.chars_reload.2 (Nat.le_of_eq hchars))
  · intro h
    rw [Json.reload_eq_self hv.sorted (Json.allStr_sorted.2 h), Json.toks_sorted]

end Python
