import StockAnalyst.ManifestText
import StockAnalyst.PyLoads

/-!
# `JSON.parse` and `JSON.stringify`

The values of JSON in a JavaScript program.  A number is a double, given by its
sign and its exact magnitude; the entries of an object are in the order of
`Object.keys`.
-/

namespace Js

open Python JsonText Deliverable

inductive Value where
  | null
  | bool (b : Bool)
  | num (x : PyFloat)
  | str (s : JsStr)
  | arr (items : List Value)
  | obj (entries : List (JsStr × Value))

/-- A value is a scalar or a container of smaller values. -/
theorem Value.induct {P : Value → Prop} (null : P .null) (bool : ∀ b, P (.bool b))
    (num : ∀ x, P (.num x)) (str : ∀ s, P (.str s))
    (arr : ∀ items, (∀ v ∈ items, P v) → P (.arr items))
    (obj : ∀ entries, (∀ e ∈ entries, P e.2) → P (.obj entries)) (v : Value) : P v :=
  @Value.rec P (fun items => ∀ v ∈ items, P v) (fun entries => ∀ e ∈ entries, P e.2)
    (fun e => P e.2) null bool num str arr obj (fun _ h => nomatch h)
    (fun _ _ hhead htail => List.forall_mem_cons.2 ⟨hhead, htail⟩)
    (fun _ h => nomatch h)
    (fun _ _ hhead htail => List.forall_mem_cons.2 ⟨hhead, htail⟩)
    (fun _ _ h => h) v

/-! ## Reading -/

/-- The object that assignments build, as `Object.keys` lists it. -/
def recordOf {α : Type} (entries : List (JsStr × α)) : List (JsStr × α) :=
  ownEntries (dictOf entries)

/-- The value of a word; nothing where `JSON.parse` throws. -/
def wordValue (number : JsStr → PyFloat) (word : JsStr) : Option Value :=
  if word = js "null" then some .null
  else if word = js "true" then some (.bool true)
  else if word = js "false" then some (.bool false)
  else if isNumber word then some (.num (number word))
  else none

mutual

def valueOf (number : JsStr → PyFloat) : Doc → Option Value
  | .word text => wordValue number text
  | .str value => some (.str value)
  | .arr items => (valuesOf number items).map .arr
  | .obj entries => (entriesOf number entries).map fun es => .obj (recordOf es)

def valuesOf (number : JsStr → PyFloat) : List Doc → Option (List Value)
  | [] => some []
  | d :: items => (valueOf number d).bind fun v => (valuesOf number items).map (v :: ·)

def entriesOf (number : JsStr → PyFloat) :
    List (JsStr × Doc) → Option (List (JsStr × Value))
  | [] => some []
  | (key, d) :: entries =>
      (valueOf number d).bind fun v => (entriesOf number entries).map ((key, v) :: ·)

end

/-- `JSON.parse(text)`, where `number` reads a number; nothing where it
throws. -/
def parse (number : JsStr → PyFloat) (text : JsStr) : Option Value :=
  (read scanUnits text).bind (valueOf number)

/-! ## Objects -/

section records

variable {α : Type} {entries : List (JsStr × α)}

/-- A permutation of entries with distinct keys has the same entries. -/
theorem lookup_perm {entries' : List (JsStr × α)} (hperm : entries'.Perm entries)
    (hkeys : (entries.map (·.1)).Nodup) (key : JsStr) :
    entries'.lookup key = entries.lookup key := by
  have hkeys' := (hperm.map (·.1)).nodup_iff.2 hkeys
  refine Option.ext fun a => ?_
  rw [← mem_iff_lookup hkeys', ← mem_iff_lookup hkeys, hperm.mem_iff]

end records

/-- The keys of every object are distinct. -/
inductive Value.Distinct : Value → Prop
  | null : Distinct .null
  | bool {b} : Distinct (.bool b)
  | num {x} : Distinct (.num x)
  | str {s} : Distinct (.str s)
  | arr {items} (each : ∀ v ∈ items, Distinct v) : Distinct (.arr items)
  | obj {entries : List (JsStr × Value)} (keys : (entries.map (·.1)).Nodup)
      (each : ∀ e ∈ entries, Distinct e.2) : Distinct (.obj entries)

end Js
