import Mathlib.Data.Rat.Defs
import Mathlib.Data.List.Sort
import Mathlib.Data.List.Lex
import Mathlib.Order.Lex
import Mathlib.Data.Nat.Digits.Defs

/-!
# Python strings and JSON values

The values a Python program holds after `json.loads`, with the three
operations on them that compare or copy a whole value: `==`, `json.dumps` with
sorted keys and compact separators, and the round trip through the text.

A string is a list of code points.  Python strings may hold surrogate code
points, and `json.loads` of bytes decodes them with `surrogatepass`, so a
high surrogate can stand directly before a low one.  `json.dumps` writes both
as `\uXXXX` escapes and `json.loads` then reads the two escapes as one astral
character: the round trip is not the identity on such strings.
-/

namespace Python

/-- A Python string: its code points, surrogates included. -/
abbrev PyStr := List Nat

instance : LawfulBEq PyStr := inferInstance

/-- A string literal of the source; all that occur are ASCII, so their code
points are their bytes. -/
def py (s : String) : PyStr := s.toByteArray.data.toList.map UInt8.toNat

/-- A float that `json.loads` can produce.  A finite one is its sign and the
exact rational magnitude, so that `-0.0` is not `0.0` in the text. -/
inductive PyFloat where
  | finite (neg : Bool) (abs : ℚ)
  | inf (neg : Bool)
  | nan
  deriving DecidableEq

/-- A value of `json.loads`; the pairs of an object are in insertion order. -/
inductive Json where
  | null
  | bool (b : Bool)
  | int (i : Int)
  | float (x : PyFloat)
  | str (s : PyStr)
  | arr (xs : List Json)
  | obj (kvs : List (PyStr × Json))

/-- ASCII lower case of one code point. -/
def asciiLower (c : Nat) : Nat := if 65 ≤ c ∧ c ≤ 90 then c + 32 else c

/-- What the model takes from Python's own tables, number formatting and
codecs.  Bytes are numbers below 256. -/
structure PyLib where
  /-- `repr` of a finite float. -/
  floatRepr : Bool → ℚ → PyStr
  /-- `str` of a value that is not a string, `repr` of one that is. -/
  reprOf : Json → PyStr
  isSpace : Nat → Bool
  isAlnum : Nat → Bool
  upper : PyStr → PyStr
  lower : PyStr → PyStr
  lower_ascii : ∀ s, (∀ c ∈ s, c < 128) → lower s = s.map asciiLower
  /-- The value of a Unicode decimal digit. -/
  digitValue : Nat → Option Nat
  /-- `base64.b64decode(data, validate=True)`. -/
  b64decode : List Nat → Option (List Nat)
  b64encode : List Nat → List Nat
  /-- `data.decode("utf-8", errors="strict")`. -/
  utf8Decode : List Nat → Option PyStr
  /-- `json.loads` that refuses non-finite numbers. -/
  loadsFinite : PyStr → Option Json

namespace PyStr

/-- `s.strip()`. -/
def strip (lib : PyLib) (s : PyStr) : PyStr :=
  ((s.dropWhile lib.isSpace).reverse.dropWhile lib.isSpace).reverse

/-- `s.split(sep)` for a one-character separator. -/
def split (sep : Nat) : PyStr → List PyStr
  | [] => [[]]
  | c :: s =>
      if c = sep then [] :: split sep s
      else match split sep s with
        | [] => [[c]]
        | piece :: rest => (c :: piece) :: rest

/-- `sep.join(pieces)`. -/
def join (sep : PyStr) : List PyStr → PyStr
  | [] => []
  | [s] => s
  | s :: t :: rest => s ++ sep ++ join sep (t :: rest)

/-- The characters of a joined text are of the pieces or the separator. -/
theorem mem_join {sep : PyStr} {pieces : List PyStr} {c : Nat} (h : c ∈ join sep pieces) :
    c ∈ sep ∨ ∃ p ∈ pieces, c ∈ p := by
  fun_induction join sep pieces with
  | case1 => cases h
  | case2 s => exact Or.inr ⟨s, List.mem_cons_self, h⟩
  | case3 s t rest ih =>
      obtain h | h := List.mem_append.1 h
      · obtain h | h := List.mem_append.1 h
        · exact Or.inr ⟨s, List.mem_cons_self, h⟩
        · exact Or.inl h
      · obtain hsep | ⟨p, hp, hc⟩ := ih h
        · exact Or.inl hsep
        · exact Or.inr ⟨p, List.mem_cons_of_mem _ hp, hc⟩

/-- `s.startswith(head)`. -/
def startsWith (s head : PyStr) : Bool := head.isPrefixOf s

end PyStr

/-- `d.get(key)` on the pairs of an object. -/
def dictGet (kvs : List (PyStr × Json)) (key : PyStr) : Option Json :=
  kvs.lookup key

/-- `d[key] = value`: an existing key keeps its place. -/
def dictSet {α : Type} (kvs : List (PyStr × α)) (key : PyStr) (value : α) :
    List (PyStr × α) :=
  match kvs with
  | [] => [(key, value)]
  | (k, v) :: rest =>
      if k = key then (k, value) :: rest else (k, v) :: dictSet rest key value

/-! ## Equality -/

/-- One token of the canonical form of a value. -/
inductive Tok where
  | null
  | num (q : ℚ)
  | inf (neg : Bool)
  | nan
  | str (s : PyStr)
  | arr (n : Nat)
  | obj (n : Nat)
  deriving DecidableEq

/-- The canonical form of a number: `True == 1 == 1.0` in Python. -/
def PyFloat.tok : PyFloat → Tok
  | .finite neg abs => .num (if neg then -abs else abs)
  | .inf neg => .inf neg
  | .nan => .nan

/-- Entries of a mapping in the order of their keys. -/
def sortedEntries {α : Type} (kvs : List (PyStr × α)) : List (PyStr × α) :=
  kvs.insertionSort (fun a b => a.1 ≤ b.1)

mutual

/-- Canonical form of a value: containers announce their length, and the
entries of an object are sorted by key. -/
def Json.toks : Json → List Tok
  | .null => [.null]
  | .bool b => [.num (if b then 1 else 0)]
  | .int i => [.num i]
  | .float x => [x.tok]
  | .str s => [.str s]
  | .arr xs => .arr xs.length :: Json.toksList xs
  | .obj kvs =>
      .obj kvs.length ::
        (sortedEntries (Json.toksObj kvs)).flatMap (fun e => .str e.1 :: e.2)

def Json.toksList : List Json → List Tok
  | [] => []
  | x :: xs => x.toks ++ Json.toksList xs

def Json.toksObj : List (PyStr × Json) → List (PyStr × List Tok)
  | [] => []
  | (k, x) :: kvs => (k, x.toks) :: Json.toksObj kvs

end

/-- Python's `a == b` on values of `json.loads`: numbers by value, lists
element by element, dictionaries without regard to order. -/
def Json.pyEq (a b : Json) : Bool := decide (a.toks = b.toks)

/-- Values are equal when their tokens are. -/
theorem Json.pyEq_iff {a b : Json} : a.pyEq b = true ↔ a.toks = b.toks := by
  simp [Json.pyEq]

/-- Equality is reflexive. -/
@[simp] theorem Json.pyEq_refl (a : Json) : a.pyEq a = true := by
  simp [Json.pyEq]

/-- Equality is symmetric. -/
theorem Json.pyEq_symm {a b : Json} (h : a.pyEq b = true) :
    b.pyEq a = true := by
  rw [Json.pyEq_iff] at h ⊢
  exact h.symm

/-- Equality is transitive. -/
theorem Json.pyEq_trans {a b c : Json} (hab : a.pyEq b = true)
    (hbc : b.pyEq c = true) : a.pyEq c = true := by
  rw [Json.pyEq_iff] at hab hbc ⊢
  exact hab.trans hbc

/-- Only a string equals a string. -/
theorem Json.pyEq_str {a : Json} {s : PyStr} (h : a.pyEq (.str s) = true) :
    a = .str s := by
  rw [Json.pyEq_iff] at h
  cases a with
  | str s' =>
      simp only [Json.toks, List.cons.injEq, Tok.str.injEq, and_true] at h
      rw [h]
  | float x =>
      cases x <;> simp [Json.toks, PyFloat.tok] at h
  | _ => simp [Json.toks] at h

/-! ### Equal objects have equal members

The canonical form of a value ends where the value ends, so the canonical
forms of two objects are equal entry by entry. -/

/-- No other canonical form starts with `ts`. -/
def Delimited (ts : List Tok) : Prop :=
  ∀ (b : Json) (s t : List Tok), ts ++ s = b.toks ++ t → ts = b.toks ∧ s = t

/-- A token that is the whole canonical form of a value. -/
def Tok.Scalar : Tok → Prop
  | .arr _ => False
  | .obj _ => False
  | _ => True

/-- A canonical form is one scalar token, or starts with a container token. -/
theorem Json.toks_head (b : Json) :
    (∃ y, b.toks = [y] ∧ y.Scalar) ∨
      (∃ ys, b = .arr ys) ∨ ∃ kvs, b = .obj kvs := by
  cases b with
  | arr ys => exact Or.inr (Or.inl ⟨ys, rfl⟩)
  | obj kvs => exact Or.inr (Or.inr ⟨kvs, rfl⟩)
  | float x => cases x <;> exact Or.inl ⟨_, rfl, trivial⟩
  | null => exact Or.inl ⟨_, rfl, trivial⟩
  | bool b => exact Or.inl ⟨_, rfl, trivial⟩
  | int i => exact Or.inl ⟨_, rfl, trivial⟩
  | str s => exact Or.inl ⟨_, rfl, trivial⟩

/-- The token of a scalar ends by itself. -/
theorem delimited_scalar {y : Tok} (hy : y.Scalar) : Delimited [y] := by
  intro b s t h
  rcases b.toks_head with ⟨z, hz, -⟩ | ⟨ys, rfl⟩ | ⟨kvs, rfl⟩
  · rw [hz] at h ⊢
    simp only [List.cons_append, List.nil_append, List.cons.injEq] at h
    exact ⟨by rw [h.1], h.2⟩
  · simp only [Json.toks, List.cons_append, List.cons.injEq] at h
    rw [h.1] at hy
    exact hy.elim
  · simp only [Json.toks, List.cons_append, List.cons.injEq] at h
    rw [h.1] at hy
    exact hy.elim

/-- Entries with delimited values are read back one by one. -/
theorem delimited_entries {es fs : List (PyStr × List Tok)} {s t : List Tok}
    (hes : ∀ e ∈ es, Delimited e.2) (hfs : ∀ f ∈ fs, ∃ b : Json, f.2 = b.toks)
    (hlen : es.length = fs.length)
    (h : es.flatMap (fun e => .str e.1 :: e.2) ++ s =
      fs.flatMap (fun e => .str e.1 :: e.2) ++ t) : es = fs ∧ s = t := by
  induction es generalizing fs with
  | nil =>
      obtain rfl := List.length_eq_zero_iff.1 hlen.symm
      exact ⟨rfl, h⟩
  | cons e es ih =>
      cases fs with
      | nil => cases hlen
      | cons f fs =>
          simp only [List.flatMap_cons, List.cons_append, List.append_assoc,
            List.cons.injEq, Tok.str.injEq] at h
          obtain ⟨hkey, hrest⟩ := h
          obtain ⟨b, hb⟩ := hfs f List.mem_cons_self
          rw [hb] at hrest
          obtain ⟨hval, htail⟩ := hes e List.mem_cons_self b _ _ hrest
          obtain ⟨htl, hst⟩ := ih (fun e' he' => hes e' (List.mem_cons_of_mem _ he'))
            (fun f' hf' => hfs f' (List.mem_cons_of_mem _ hf'))
            (Nat.succ.inj hlen) htail
          exact ⟨by rw [htl, Prod.ext hkey (hval.trans hb.symm)], hst⟩

/-- Sorting keeps the entries. -/
theorem sortedEntries_perm {α : Type} (kvs : List (PyStr × α)) :
    (sortedEntries kvs).Perm kvs := List.perm_insertionSort _ kvs

/-- The tokens of an object, value by value. -/
theorem Json.toksObj_eq_map (kvs : List (PyStr × Json)) :
    Json.toksObj kvs = kvs.map (fun e => (e.1, e.2.toks)) := by
  induction kvs with
  | nil => rfl
  | cons e kvs ih => simp [Json.toksObj, ih]

/-- Sorted entries hold canonical forms of the members. -/
theorem mem_sortedEntries_toksObj {kvs : List (PyStr × Json)}
    {e : PyStr × List Tok} (h : e ∈ sortedEntries (Json.toksObj kvs)) :
    ∃ v, (e.1, v) ∈ kvs ∧ e.2 = v.toks := by
  have hmem := (sortedEntries_perm _).mem_iff.1 h
  rw [Json.toksObj_eq_map] at hmem
  obtain ⟨⟨k, v⟩, hkv, rfl⟩ := List.mem_map.1 hmem
  exact ⟨v, hkv, rfl⟩

mutual

/-- The tokens of a value say where it ends. -/
theorem Json.toks_delimited : ∀ a : Json, Delimited a.toks
  | .null => delimited_scalar trivial
  | .bool _ => delimited_scalar trivial
  | .int _ => delimited_scalar trivial
  | .float (.finite _ _) => delimited_scalar trivial
  | .float (.inf _) => delimited_scalar trivial
  | .float .nan => delimited_scalar trivial
  | .str _ => delimited_scalar trivial
  | .arr xs => by
      intro b s t h
      rcases b.toks_head with ⟨z, hz, hscalar⟩ | ⟨ys, rfl⟩ | ⟨kvs, rfl⟩
      · rw [hz] at h
        simp only [Json.toks, List.cons_append, List.nil_append,
          List.cons.injEq] at h
        rw [← h.1] at hscalar
        exact hscalar.elim
      · simp only [Json.toks, List.cons_append, List.cons.injEq,
          Tok.arr.injEq] at h ⊢
        obtain ⟨htoks, hst⟩ := Json.toksList_delimited xs ys s t h.1 h.2
        exact ⟨⟨h.1, htoks⟩, hst⟩
      · simp only [Json.toks, List.cons_append, List.cons.injEq,
          reduceCtorEq, false_and] at h
  | .obj kvs => by
      intro b s t h
      rcases b.toks_head with ⟨z, hz, hscalar⟩ | ⟨ys, rfl⟩ | ⟨kvs', rfl⟩
      · rw [hz] at h
        simp only [Json.toks, List.cons_append, List.nil_append,
          List.cons.injEq] at h
        rw [← h.1] at hscalar
        exact hscalar.elim
      · simp only [Json.toks, List.cons_append, List.cons.injEq,
          reduceCtorEq, false_and] at h
      · simp only [Json.toks, List.cons_append, List.cons.injEq,
          Tok.obj.injEq] at h ⊢
        have hdelim : ∀ e ∈ sortedEntries (Json.toksObj kvs), Delimited e.2 :=
          fun e he => Json.toksObj_delimited kvs e
            ((sortedEntries_perm _).mem_iff.1 he)
        have hvals : ∀ f ∈ sortedEntries (Json.toksObj kvs'),
            ∃ b : Json, f.2 = b.toks := by
          intro f hf
          obtain ⟨v, -, hv⟩ := mem_sortedEntries_toksObj hf
          exact ⟨v, hv⟩
        have hlen : (sortedEntries (Json.toksObj kvs)).length =
            (sortedEntries (Json.toksObj kvs')).length := by
          rw [(sortedEntries_perm _).length_eq, (sortedEntries_perm _).length_eq,
            Json.toksObj_eq_map, Json.toksObj_eq_map, List.length_map,
            List.length_map]
          exact h.1
        obtain ⟨hentries, hst⟩ := delimited_entries hdelim hvals hlen h.2
        exact ⟨⟨h.1, by rw [hentries]⟩, hst⟩

theorem Json.toksList_delimited : ∀ (xs ys : List Json) (s t : List Tok),
    xs.length = ys.length → Json.toksList xs ++ s = Json.toksList ys ++ t →
    Json.toksList xs = Json.toksList ys ∧ s = t
  | [], ys, s, t, hlen, h => by
      obtain rfl := List.length_eq_zero_iff.1 hlen.symm
      exact ⟨rfl, h⟩
  | x :: xs, [], s, t, hlen, h => nomatch hlen
  | x :: xs, y :: ys, s, t, hlen, h => by
      simp only [Json.toksList, List.append_assoc] at h ⊢
      obtain ⟨hhead, htail⟩ := Json.toks_delimited x y _ _ h
      obtain ⟨hrest, hst⟩ :=
        Json.toksList_delimited xs ys s t (Nat.succ.inj hlen) htail
      exact ⟨by rw [hhead, hrest], hst⟩

theorem Json.toksObj_delimited : ∀ kvs : List (PyStr × Json),
    ∀ e ∈ Json.toksObj kvs, Delimited e.2
  | [] => by simp [Json.toksObj]
  | (k, x) :: kvs => by
      intro e he
      rcases List.mem_cons.1 he with rfl | he
      · exact Json.toks_delimited x
      · exact Json.toksObj_delimited kvs e he

end

/-- An entry is found under its key where the keys are distinct. -/
theorem lookup_of_mem {α : Type} {entries : List (PyStr × α)} {key : PyStr} {a : α}
    (hkeys : (entries.map (·.1)).Nodup) (h : (key, a) ∈ entries) :
    entries.lookup key = some a := by
  induction entries with
  | nil => cases h
  | cons e entries ih =>
      rw [List.map_cons, List.nodup_cons] at hkeys
      obtain ⟨key', a'⟩ := e
      by_cases heq : key = key'
      · subst heq
        obtain h | h := List.mem_cons.1 h
        · obtain ⟨-, rfl⟩ := Prod.mk.inj h
          simp
        · exact absurd (List.mem_map_of_mem h) hkeys.1
      · obtain h | h := List.mem_cons.1 h
        · exact absurd (Prod.mk.inj h).1 heq
        · rw [List.lookup_cons, beq_eq_false_iff_ne.2 heq]
          exact ih hkeys.2 h

/-- What is found is an entry. -/
theorem mem_of_lookup {α : Type} {entries : List (PyStr × α)} {key : PyStr} {a : α}
    (h : entries.lookup key = some a) : (key, a) ∈ entries := by
  induction entries with
  | nil => cases h
  | cons e entries ih =>
      obtain ⟨key', a'⟩ := e
      rw [List.lookup_cons] at h
      split at h
      · rename_i heq
        obtain rfl := beq_iff_eq.1 heq
        obtain rfl := Option.some.inj h
        exact List.mem_cons_self
      · exact List.mem_cons_of_mem _ (ih h)

/-- Where the keys are distinct, the entries are what is found. -/
theorem mem_iff_lookup {α : Type} {entries : List (PyStr × α)} {key : PyStr} {a : α}
    (hkeys : (entries.map (·.1)).Nodup) : (key, a) ∈ entries ↔ entries.lookup key = some a :=
  ⟨lookup_of_mem hkeys, mem_of_lookup⟩

/-- An entry of a dictionary is found under its key. -/
theorem dictGet_of_mem {kvs : List (PyStr × Json)} {k : PyStr} {v : Json}
    (hnodup : (kvs.map (·.1)).Nodup) (h : (k, v) ∈ kvs) : dictGet kvs k = some v :=
  lookup_of_mem hnodup h

/-- A member of an object is a member, up to `==`, of any equal object with
distinct keys. -/
theorem Json.pyEq_obj_get {a b : List (PyStr × Json)} {k : PyStr} {v : Json}
    (h : (Json.obj a).pyEq (.obj b) = true) (hnodup : (b.map (·.1)).Nodup)
    (hv : dictGet b k = some v) :
    ∃ v', dictGet a k = some v' ∧ v'.pyEq v = true := by
  rw [Json.pyEq_iff] at h
  simp only [Json.toks, List.cons.injEq, Tok.obj.injEq] at h
  have hentries : sortedEntries (Json.toksObj a) =
      sortedEntries (Json.toksObj b) := by
    refine (delimited_entries (s := []) (t := []) ?_ ?_ ?_ (by rw [h.2])).1
    · exact fun e he => Json.toksObj_delimited a e
        ((sortedEntries_perm _).mem_iff.1 he)
    · intro f hf
      obtain ⟨v, -, hv⟩ := mem_sortedEntries_toksObj hf
      exact ⟨v, hv⟩
    · rw [(sortedEntries_perm _).length_eq, (sortedEntries_perm _).length_eq,
        Json.toksObj_eq_map, Json.toksObj_eq_map, List.length_map,
        List.length_map]
      exact h.1
  have hperm : (Json.toksObj a).Perm (Json.toksObj b) :=
    (sortedEntries_perm _).symm.trans (hentries ▸ sortedEntries_perm _)
  rw [Json.toksObj_eq_map, Json.toksObj_eq_map] at hperm
  have hkeys : (a.map (·.1)).Perm (b.map (·.1)) := by
    have := hperm.map (fun e : PyStr × List Tok => e.1)
    simpa [List.map_map, Function.comp_def] using this
  have hnodup' : (a.map (·.1)).Nodup := hkeys.nodup_iff.2 hnodup
  have hmem : (k, v) ∈ b := by
    obtain ⟨l₁, l₂, rfl, -⟩ := List.lookup_eq_some_iff.1 hv
    simp
  have hmem' := hperm.mem_iff.2 (List.mem_map_of_mem (f := fun e => (e.1, e.2.toks)) hmem)
  obtain ⟨⟨k', v'⟩, hkv', heq⟩ := List.mem_map.1 hmem'
  obtain ⟨rfl, htoks⟩ := Prod.mk.inj heq
  exact ⟨v', dictGet_of_mem hnodup' hkv', Json.pyEq_iff.2 htoks⟩

/-! ## Conversions -/

/-- Truth value of `d.get(key)`. -/
def truthy : Option Json → Bool
  | none => false
  | some .null => false
  | some (.bool b) => b
  | some (.int i) => i != 0
  | some (.float (.finite _ abs)) => abs != 0
  | some (.float _) => true
  | some (.str s) => !s.isEmpty
  | some (.arr xs) => !xs.isEmpty
  | some (.obj kvs) => !kvs.isEmpty

/-- `str(value)`. -/
def pyStr (lib : PyLib) : Json → PyStr
  | .str s => s
  | v => lib.reprOf v

/-- Digits with single underscores between them, read as a number. -/
def readDigits (lib : PyLib) : PyStr → Nat → Option Nat
  | [], _ => none
  | [c], acc => (lib.digitValue c).map (acc * 10 + ·)
  | c :: d :: rest, acc =>
      match lib.digitValue c with
      | none => none
      | some v =>
          if d = 95 then
            match rest with
            | [] => none
            | e :: tail => readDigits lib (e :: tail) (acc * 10 + v)
          else readDigits lib (d :: rest) (acc * 10 + v)

/-- The longest integer text Python converts either way. -/
def maxIntDigits : Nat := 4300

/-- `int(s)` for a string; nothing where it raises. -/
def intOfStr (lib : PyLib) (s : PyStr) : Option Int :=
  let body := PyStr.strip lib s
  let unsigned := match body with
    | 43 :: rest => rest
    | 45 :: rest => rest
    | rest => rest
  if maxIntDigits < (unsigned.filter (· != 95)).length then none
  else (readDigits lib unsigned 0).map
    (fun n => if body.head? = some 45 then -(n : Int) else n)

/-- `int(value)`; nothing where it raises. -/
def pyInt (lib : PyLib) : Json → Option Int
  | .int i => some i
  | .bool b => some (if b then 1 else 0)
  | .float (.finite neg abs) => some (if neg then -abs.floor else abs.floor)
  | .str s => intOfStr lib s
  | _ => none

/-- A lower-case hexadecimal digit. -/
def hexDigit (n : Nat) : Nat := if n < 10 then 48 + n else 87 + n

/-- Value of an ASCII hexadecimal digit. -/
def hexValue (c : Nat) : Option Nat :=
  if 48 ≤ c ∧ c ≤ 57 then some (c - 48)
  else if 97 ≤ c ∧ c ≤ 102 then some (c - 87)
  else if 65 ≤ c ∧ c ≤ 70 then some (c - 55)
  else none

/-- The ASCII white space `bytes.fromhex` skips between byte pairs. -/
def isAsciiSpace (c : Nat) : Bool := c = 32 || (9 ≤ c && c ≤ 13)

/-- `bytes.fromhex(s)`; nothing where it raises. -/
def fromHex : PyStr → Option (List Nat)
  | [] => some []
  | [c] => if isAsciiSpace c then some [] else none
  | c :: d :: rest =>
      if isAsciiSpace c then fromHex (d :: rest)
      else match hexValue c, hexValue d with
        | some hi, some lo => (fromHex rest).map ((hi * 16 + lo) :: ·)
        | _, _ => none

/-- `data.hex()`. -/
def toHex (bs : List Nat) : PyStr :=
  bs.flatMap (fun b => [hexDigit (b / 16), hexDigit (b % 16)])

/-- A hexadecimal digit is a decimal one or a letter from `a` to `f`. -/
theorem hexDigit_range {n : Nat} (h : n < 16) :
    48 ≤ hexDigit n ∧ hexDigit n ≤ 57 ∨ 97 ≤ hexDigit n ∧ hexDigit n ≤ 102 := by
  unfold hexDigit
  split <;> omega

/-- Different digits are written differently. -/
theorem hexDigit_inj {m n : Nat} (hm : m < 16) (hn : n < 16)
    (h : hexDigit m = hexDigit n) : m = n := by
  unfold hexDigit at h
  split at h <;> split at h <;> omega

/-- A byte is written in two digits. -/
@[simp] theorem length_toHex (bs : List Nat) : (toHex bs).length = 2 * bs.length := by
  induction bs with
  | nil => rfl
  | cons x bs ih =>
      simp only [toHex, List.flatMap_cons, List.length_append, List.length_cons] at ih ⊢
      rw [ih]
      simp only [List.length_nil]
      omega

/-- Hexadecimal text has hexadecimal digits. -/
theorem toHex_range {bs : List Nat} (h : ∀ b ∈ bs, b < 256) :
    ∀ c ∈ toHex bs, 48 ≤ c ∧ c ≤ 57 ∨ 97 ≤ c ∧ c ≤ 102 := by
  intro c hc
  obtain ⟨b, hb, hc⟩ := List.mem_flatMap.1 hc
  have hlt := h b hb
  simp only [List.mem_cons, List.not_mem_nil, or_false] at hc
  obtain rfl | rfl := hc
  · exact hexDigit_range (by omega)
  · exact hexDigit_range (by omega)

/-- Different bytes are written differently. -/
theorem toHex_inj {bs bs' : List Nat} (hbs : ∀ b ∈ bs, b < 256) (hbs' : ∀ b ∈ bs', b < 256)
    (h : toHex bs = toHex bs') : bs = bs' := by
  induction bs generalizing bs' with
  | nil =>
      cases bs' with
      | nil => rfl
      | cons b' bs' => simp [toHex] at h
  | cons b bs ih =>
      cases bs' with
      | nil => simp [toHex] at h
      | cons b' bs' =>
          have hb := hbs b List.mem_cons_self
          have hb' := hbs' b' List.mem_cons_self
          simp only [toHex, List.flatMap_cons, List.cons_append, List.nil_append,
            List.cons.injEq] at h
          obtain ⟨hhigh, hlow, hrest⟩ := h
          have hhigh' := hexDigit_inj (by omega) (by omega) hhigh
          have hlow' := hexDigit_inj (by omega) (by omega) hlow
          have htail := ih (fun c hc => hbs c (List.mem_cons_of_mem b hc))
            (fun c hc => hbs' c (List.mem_cons_of_mem b' hc)) hrest
          have hhead : b = b' := by omega
          rw [hhead, htail]

/-- `s.zfill(width)`: zeros go after a leading sign. -/
def zfill (width : Nat) (s : PyStr) : PyStr :=
  let pad := List.replicate (width - s.length) 48
  match s with
  | 43 :: rest => 43 :: (pad ++ rest)
  | 45 :: rest => 45 :: (pad ++ rest)
  | rest => pad ++ rest

mutual

/-- Nesting depth of a value; a scalar has depth one. -/
def Json.depth : Json → Nat
  | .arr xs => Json.depthList xs + 1
  | .obj kvs => Json.depthObj kvs + 1
  | _ => 1

def Json.depthList : List Json → Nat
  | [] => 0
  | x :: xs => max x.depth (Json.depthList xs)

def Json.depthObj : List (PyStr × Json) → Nat
  | [] => 0
  | (_, x) :: kvs => max x.depth (Json.depthObj kvs)

end

/-! ## UTF-8 -/

/-- UTF-8 bytes of one code point; nothing for a surrogate. -/
def utf8Char (c : Nat) : Option (List Nat) :=
  if c < 0x80 then some [c]
  else if c < 0x800 then some [0xC0 + c / 0x40, 0x80 + c % 0x40]
  else if 0xD800 ≤ c ∧ c < 0xE000 then none
  else if c < 0x10000 then
    some [0xE0 + c / 0x1000, 0x80 + c / 0x40 % 0x40, 0x80 + c % 0x40]
  else some [0xF0 + c / 0x40000, 0x80 + c / 0x1000 % 0x40,
    0x80 + c / 0x40 % 0x40, 0x80 + c % 0x40]

/-- `s.encode("utf-8")`; nothing where it raises. -/
def utf8Encode : PyStr → Option (List Nat)
  | [] => some []
  | c :: s => (utf8Char c).bind fun b => (utf8Encode s).map (b ++ ·)

mutual

/-- The text of the value, written without escapes, has no lone surrogate. -/
def Json.utf8Safe : Json → Bool
  | .str s => (utf8Encode s).isSome
  | .arr xs => Json.utf8SafeList xs
  | .obj kvs => Json.utf8SafeObj kvs
  | _ => true

def Json.utf8SafeList : List Json → Bool
  | [] => true
  | x :: xs => x.utf8Safe && Json.utf8SafeList xs

def Json.utf8SafeObj : List (PyStr × Json) → Bool
  | [] => true
  | (k, x) :: kvs =>
      (utf8Encode k).isSome && x.utf8Safe && Json.utf8SafeObj kvs

end

/-! ## `json.dumps` -/

/-- The escape of one UTF-16 code unit. -/
def unitEscape (u : Nat) : List Nat :=
  [92, 117, hexDigit (u / 4096 % 16), hexDigit (u / 256 % 16),
    hexDigit (u / 16 % 16), hexDigit (u % 16)]

/-- High surrogate of an astral code point. -/
def highUnit (c : Nat) : Nat := 0xD800 + (c - 0x10000) / 0x400

/-- Low surrogate of an astral code point. -/
def lowUnit (c : Nat) : Nat := 0xDC00 + (c - 0x10000) % 0x400

/-- `ensure_ascii` text of one code point. -/
def escapeChar (c : Nat) : List Nat :=
  if c = 0x22 then [92, 0x22]
  else if c = 0x5C then [92, 0x5C]
  else if c = 0x0A then [92, 110]
  else if c = 0x0D then [92, 114]
  else if c = 0x09 then [92, 116]
  else if c = 0x0C then [92, 102]
  else if c = 0x08 then [92, 98]
  else if 0x20 ≤ c ∧ c ≤ 0x7E then [c]
  else if c < 0x10000 then unitEscape c
  else unitEscape (highUnit c) ++ unitEscape (lowUnit c)

/-- `json.dumps` of a string. -/
def dumpsStr (s : PyStr) : List Nat := 0x22 :: s.flatMap escapeChar ++ [0x22]

/-- Decimal digits of a natural number, most significant first. -/
def natDigits (n : Nat) : List Nat := (Nat.digits 10 n).reverse.map (48 + ·)

/-- `str` of an integer. -/
def intText (i : Int) : List Nat :=
  if i < 0 then 45 :: natDigits i.natAbs
  else if i = 0 then [48]
  else natDigits i.natAbs

/-- Text of a number, or nothing where `json.dumps(allow_nan=False)` raises. -/
def PyFloat.text (lib : PyLib) : PyFloat → Option (List Nat)
  | .finite neg abs => some (lib.floatRepr neg abs)
  | .inf _ => none
  | .nan => none

/-- `json.dumps` of an integer. -/
def dumpsInt (i : Int) : Option (List Nat) :=
  if (Nat.digits 10 i.natAbs).length ≤ maxIntDigits then some (intText i)
  else none

/-- Entries of an object joined by commas, keys and values by colons. -/
def dumpsEntries (es : List (PyStr × List Nat)) : List Nat :=
  PyStr.join [0x2C] (es.map (fun e => dumpsStr e.1 ++ 0x3A :: e.2))

mutual

/-- `json.dumps(value, sort_keys=True, separators=(",", ":"), allow_nan=False)`:
nothing where it raises `ValueError`. -/
def Json.dumps (lib : PyLib) : Json → Option (List Nat)
  | .null => some (py "null")
  | .bool b => some (if b then py "true" else py "false")
  | .int i => dumpsInt i
  | .float x => x.text lib
  | .str s => some (dumpsStr s)
  | .arr xs => (Json.dumpsList lib xs).map
      (fun ts => 0x5B :: PyStr.join [0x2C] ts ++ [0x5D])
  | .obj kvs => (Json.dumpsObj lib kvs).map
      (fun es => 0x7B :: dumpsEntries (sortedEntries es) ++ [0x7D])

def Json.dumpsList (lib : PyLib) : List Json → Option (List (List Nat))
  | [] => some []
  | x :: xs => (Json.dumps lib x).bind fun t =>
      (Json.dumpsList lib xs).map (t :: ·)

def Json.dumpsObj (lib : PyLib) :
    List (PyStr × Json) → Option (List (PyStr × List Nat))
  | [] => some []
  | (k, x) :: kvs => (Json.dumps lib x).bind fun t =>
      (Json.dumpsObj lib kvs).map ((k, t) :: ·)

end

/-! ## The round trip `json.loads(json.dumps(value))` -/

/-- A code point in the high surrogate range. -/
def isHigh (c : Nat) : Bool := 0xD800 ≤ c && c < 0xDC00

/-- A code point in the low surrogate range. -/
def isLow (c : Nat) : Bool := 0xDC00 ≤ c && c < 0xE000

/-- The code point two surrogate escapes stand for. -/
def combine (hi lo : Nat) : Nat :=
  0x10000 + (hi - 0xD800) * 0x400 + (lo - 0xDC00)

/-- A string after the round trip: a high surrogate directly before a low one
has become one astral code point. -/
def rejoin : PyStr → PyStr
  | [] => []
  | [c] => [c]
  | hi :: lo :: rest =>
      if isHigh hi && isLow lo then combine hi lo :: rejoin rest
      else hi :: rejoin (lo :: rest)

/-- The dictionary a list of items builds: the last value of a key wins. -/
def dictOf {α : Type} (items : List (PyStr × α)) : List (PyStr × α) :=
  items.foldl (fun d e => dictSet d e.1 e.2) []

/-- The dictionary read back of a text with sorted keys: `keys` as they were
written, `items` as they are read.  Of the items whose keys have become equal
the last in the text stays.  Where no keys have, the items keep their order,
since a dictionary compares without one. -/
def mergeKeys {α : Type} (keys : List PyStr) (items : List (PyStr × α)) : List (PyStr × α) :=
  if (items.map (·.1)).Nodup then items
  else dictOf ((sortedEntries (keys.zip items)).map (·.2))

mutual

/-- A value after the round trip with sorted keys. -/
def Json.reload : Json → Json
  | .null => .null
  | .bool b => .bool b
  | .int i => .int i
  | .float x => .float x
  | .str s => .str (rejoin s)
  | .arr xs => .arr (Json.reloadList xs)
  | .obj kvs => .obj (mergeKeys (kvs.map (·.1)) (Json.reloadObj kvs))

def Json.reloadList : List Json → List Json
  | [] => []
  | x :: xs => x.reload :: Json.reloadList xs

def Json.reloadObj : List (PyStr × Json) → List (PyStr × Json)
  | [] => []
  | (k, x) :: kvs => (rejoin k, x.reload) :: Json.reloadObj kvs

end

/-! ## Strings without a surrogate pair -/

/-- No high surrogate stands directly before a low one. -/
def NoPair : PyStr → Prop
  | [] => True
  | [_] => True
  | hi :: lo :: rest => ¬ (isHigh hi && isLow lo) ∧ NoPair (lo :: rest)

/-- What a pair stands for is astral. -/
theorem combine_ge (hi lo : Nat) : 0x10000 ≤ combine hi lo := by
  unfold combine
  omega

/-- High surrogates lie below the low ones. -/
theorem isHigh_lt {c : Nat} (h : isHigh c = true) : c < 0xDC00 := by
  simp only [isHigh, Bool.and_eq_true, decide_eq_true_eq] at h
  exact h.2

/-- The round trip never lengthens a string. -/
theorem rejoin_length_le (s : PyStr) : (rejoin s).length ≤ s.length := by
  fun_induction rejoin s with
  | case1 => simp
  | case2 c => simp
  | case3 hi lo rest hpair ih =>
      simp only [List.length_cons]
      omega
  | case4 hi lo rest hpair ih =>
      simp only [List.length_cons] at ih ⊢
      omega

/-- The round trip keeps exactly the strings without such a pair. -/
theorem rejoin_eq_self_iff (s : PyStr) : rejoin s = s ↔ NoPair s := by
  fun_induction rejoin s with
  | case1 => simp [NoPair]
  | case2 c => simp [NoPair]
  | case3 hi lo rest hpair ih =>
      constructor
      · intro h
        have hhead : combine hi lo = hi := (List.cons.inj h).1
        have hge := combine_ge hi lo
        have hlt : hi < 0xDC00 := isHigh_lt (by
          simp only [Bool.and_eq_true] at hpair
          exact hpair.1)
        omega
      · intro h
        exact absurd hpair h.1
  | case4 hi lo rest hpair ih =>
      rw [List.cons_inj_right, ih]
      exact ⟨fun h => ⟨hpair, h⟩, fun h => h.2⟩

/-- What a pair stands for is no high surrogate. -/
theorem isHigh_combine (hi lo : Nat) : isHigh (combine hi lo) = false := by
  have hge := combine_ge hi lo
  simp only [isHigh, Bool.and_eq_false_iff, decide_eq_false_iff_not]
  omega

/-- What a pair stands for is no low surrogate. -/
theorem isLow_combine (hi lo : Nat) : isLow (combine hi lo) = false := by
  have hge := combine_ge hi lo
  simp only [isLow, Bool.and_eq_false_iff, decide_eq_false_iff_not]
  omega

/-- A code point that is not a high surrogate opens no pair. -/
theorem NoPair.cons {c : Nat} {s : PyStr} (hc : isHigh c = false)
    (hs : NoPair s) : NoPair (c :: s) := by
  cases s with
  | nil => trivial
  | cons d s => exact ⟨by simp [hc], hs⟩

/-- The first code point after the round trip is the old one or astral. -/
theorem rejoin_cons_head (c : Nat) (s : PyStr) :
    ∃ d t, rejoin (c :: s) = d :: t ∧ (d = c ∨ isLow d = false) := by
  cases s with
  | nil => exact ⟨c, [], rfl, Or.inl rfl⟩
  | cons e s =>
      by_cases hpair : isHigh c && isLow e
      · exact ⟨combine c e, rejoin s, by simp [rejoin, hpair],
          Or.inr (isLow_combine c e)⟩
      · exact ⟨c, rejoin (e :: s), by simp [rejoin, hpair], Or.inl rfl⟩

/-- One round trip leaves no pair. -/
theorem noPair_rejoin (s : PyStr) : NoPair (rejoin s) := by
  fun_induction rejoin s with
  | case1 => trivial
  | case2 c => trivial
  | case3 hi lo rest hpair ih => exact NoPair.cons (isHigh_combine hi lo) ih
  | case4 hi lo rest hpair ih =>
      obtain ⟨d, t, hhead, hd⟩ := rejoin_cons_head lo rest
      rw [hhead] at ih ⊢
      refine ⟨?_, ih⟩
      rcases hd with rfl | hlow
      · exact hpair
      · simp [hlow]

/-- A second round trip changes nothing. -/
@[simp] theorem rejoin_rejoin (s : PyStr) : rejoin (rejoin s) = rejoin s :=
  (rejoin_eq_self_iff _).2 (noPair_rejoin s)

/-! ## The round trip is idempotent -/

section dictSet

variable {α : Type}

/-- A new key is appended. -/
theorem dictSet_of_fresh {d : List (PyStr × α)} {k : PyStr} {v : α}
    (h : ∀ e ∈ d, e.1 ≠ k) : dictSet d k v = d ++ [(k, v)] := by
  induction d with
  | nil => rfl
  | cons e d ih =>
      have hne : e.1 ≠ k := h e List.mem_cons_self
      have htail := ih (fun e' he' => h e' (List.mem_cons_of_mem _ he'))
      simp [dictSet, hne, htail]

/-- Setting a key brings in that entry alone. -/
theorem mem_dictSet {d : List (PyStr × α)} {k : PyStr} {v : α}
    {e : PyStr × α} (h : e ∈ dictSet d k v) : e ∈ d ∨ e = (k, v) := by
  induction d with
  | nil => exact Or.inr (List.mem_singleton.1 h)
  | cons e' d ih =>
      by_cases hk : e'.1 = k
      · simp only [dictSet, hk, if_true, List.mem_cons] at h
        rcases h with h | h
        · exact Or.inr h
        · exact Or.inl (List.mem_cons_of_mem _ h)
      · simp only [dictSet, hk, if_false, List.mem_cons] at h
        rcases h with h | h
        · exact Or.inl (h ▸ List.mem_cons_self)
        · exact (ih h).imp_left (List.mem_cons_of_mem _)

/-- Setting a key keeps the keys distinct. -/
theorem nodup_dictSet {d : List (PyStr × α)} {k : PyStr} {v : α}
    (h : (d.map (·.1)).Nodup) : ((dictSet d k v).map (·.1)).Nodup := by
  induction d with
  | nil => simp [dictSet]
  | cons e d ih =>
      simp only [List.map_cons, List.nodup_cons, List.mem_map, not_exists,
        not_and] at h
      obtain ⟨hhead, htail⟩ := h
      by_cases hk : e.1 = k
      · simp only [dictSet, hk, if_true, List.map_cons, List.nodup_cons,
          List.mem_map, not_exists, not_and]
        exact ⟨fun x hx => hk ▸ hhead x hx, htail⟩
      · simp only [dictSet, hk, if_false, List.map_cons, List.nodup_cons,
          List.mem_map, not_exists, not_and]
        refine ⟨fun x hx => ?_, ih htail⟩
        rcases mem_dictSet hx with hmem | rfl
        · exact hhead x hmem
        · exact fun heq => hk heq.symm

/-- What is set is found, and other keys are as before. -/
theorem lookup_dictSet (d : List (PyStr × α)) (k : PyStr) (v : α) (key : PyStr) :
    (dictSet d k v).lookup key = if key = k then some v else d.lookup key := by
  induction d with
  | nil =>
      by_cases hkey : key = k
      · simp [dictSet, hkey]
      · simp [dictSet, hkey, List.lookup_cons, beq_eq_false_iff_ne.2 hkey]
  | cons e d ih =>
      obtain ⟨k', v'⟩ := e
      by_cases hk : k' = k
      · by_cases hkey : key = k
        · simp [dictSet, hk, hkey]
        · simp [dictSet, hk, hkey, List.lookup_cons, beq_eq_false_iff_ne.2 hkey]
      · by_cases hkey : key = k'
        · subst hkey
          simp [dictSet, hk]
        · simp only [dictSet, hk, if_false, List.lookup_cons, beq_eq_false_iff_ne.2 hkey, ih]

/-- Setting many keys brings in those entries alone. -/
theorem mem_foldl_dictSet {items d : List (PyStr × α)} {e : PyStr × α}
    (h : e ∈ items.foldl (fun d e => dictSet d e.1 e.2) d) :
    e ∈ d ∨ e ∈ items := by
  induction items generalizing d with
  | nil => exact Or.inl h
  | cons x items ih =>
      rcases ih h with h' | h'
      · rcases mem_dictSet h' with hd | rfl
        · exact Or.inl hd
        · exact Or.inr List.mem_cons_self
      · exact Or.inr (List.mem_cons_of_mem _ h')

/-- The entries of a dictionary are among its items. -/
theorem mem_dictOf {items : List (PyStr × α)} {e : PyStr × α}
    (h : e ∈ dictOf items) : e ∈ items := by
  rcases mem_foldl_dictSet h with h' | h'
  · cases h'
  · exact h'

/-- The keys of a dictionary are distinct. -/
theorem nodup_dictOf (items : List (PyStr × α)) :
    ((dictOf items).map (·.1)).Nodup := by
  have hgen : ∀ (items d : List (PyStr × α)), (d.map (·.1)).Nodup →
      ((items.foldl (fun d e => dictSet d e.1 e.2) d).map (·.1)).Nodup := by
    intro items
    induction items with
    | nil => exact fun d hd => hd
    | cons x items ih => exact fun d hd => ih _ (nodup_dictSet hd)
  exact hgen items [] (by simp)

/-- Items with distinct keys are already a dictionary. -/
theorem dictOf_of_nodup {items : List (PyStr × α)}
    (h : (items.map (·.1)).Nodup) : dictOf items = items := by
  have hgen : ∀ (items d : List (PyStr × α)),
      ((d ++ items).map (·.1)).Nodup →
      items.foldl (fun d e => dictSet d e.1 e.2) d = d ++ items := by
    intro items
    induction items with
    | nil => simp
    | cons x items ih =>
        intro d hd
        have hfresh : ∀ e ∈ d, e.1 ≠ x.1 := by
          intro e he heq
          simp only [List.map_append, List.map_cons, List.nodup_append] at hd
          exact hd.2.2 e.1 (List.mem_map_of_mem he) x.1 List.mem_cons_self heq
        rw [List.foldl_cons, dictSet_of_fresh hfresh, ih]
        · simp
        · simpa using hd
  exact hgen items [] (by simpa using h)

/-- The last of equal keys wins, in some order of the items. -/
theorem mergeKeys_eq {keys : List PyStr} {items : List (PyStr × α)}
    (h : keys.length = items.length) :
    ∃ items', items'.Perm items ∧ mergeKeys keys items = dictOf items' := by
  unfold mergeKeys
  by_cases hnodup : (items.map (·.1)).Nodup
  · rw [if_pos hnodup]
    exact ⟨items, List.Perm.refl items, (dictOf_of_nodup hnodup).symm⟩
  · rw [if_neg hnodup]
    refine ⟨_, ?_, rfl⟩
    have hperm := (sortedEntries_perm (keys.zip items)).map (·.2)
    rwa [List.map_snd_zip (Nat.le_of_eq h.symm)] at hperm

/-- Where the keys are sorted, the order of the text is that of the items. -/
theorem mergeKeys_of_sorted {keys : List PyStr} {items : List (PyStr × α)}
    (h : keys.length = items.length) (hsorted : keys.Pairwise (· ≤ ·)) :
    mergeKeys keys items = dictOf items := by
  unfold mergeKeys
  by_cases hnodup : (items.map (·.1)).Nodup
  · rw [if_pos hnodup, dictOf_of_nodup hnodup]
  · have hzip : (keys.zip items).Pairwise fun a b => a.1 ≤ b.1 := by
      rw [← List.map_fst_zip (Nat.le_of_eq h), List.pairwise_map] at hsorted
      exact hsorted
    have htext : sortedEntries (keys.zip items) = keys.zip items := hzip.insertionSort_eq
    rw [if_neg hnodup, htext, List.map_snd_zip (Nat.le_of_eq h.symm)]

end dictSet

/-- Reading back keeps the number of items. -/
theorem Json.length_reloadObj (kvs : List (PyStr × Json)) :
    (Json.reloadObj kvs).length = kvs.length := by
  induction kvs with
  | nil => rfl
  | cons e kvs ih => simp [Json.reloadObj, ih]

/-- The items of an object that has been read back. -/
theorem Json.reload_obj (kvs : List (PyStr × Json)) :
    ∃ items, items.Perm (Json.reloadObj kvs) ∧ (Json.obj kvs).reload = .obj (dictOf items) := by
  have hlength : (kvs.map (·.1)).length = (Json.reloadObj kvs).length := by
    rw [List.length_map, Json.length_reloadObj]
  obtain ⟨items, hperm, hitems⟩ := mergeKeys_eq hlength
  exact ⟨items, hperm, congrArg Json.obj hitems⟩

/-- Items that read back as they are. -/
theorem Json.reloadObj_of_fixed {kvs : List (PyStr × Json)}
    (h : ∀ e ∈ kvs, rejoin e.1 = e.1 ∧ e.2.reload = e.2) :
    Json.reloadObj kvs = kvs := by
  induction kvs with
  | nil => rfl
  | cons e kvs ih =>
      obtain ⟨hkey, hval⟩ := h e List.mem_cons_self
      have htail := ih (fun e' he' => h e' (List.mem_cons_of_mem _ he'))
      simp [Json.reloadObj, hkey, hval, htail]

mutual

/-- What was read back reads back unchanged. -/
theorem Json.reload_reload : ∀ x : Json, x.reload.reload = x.reload
  | .null => rfl
  | .bool _ => rfl
  | .int _ => rfl
  | .float _ => rfl
  | .str s => by simp [Json.reload]
  | .arr xs => by simp [Json.reload, Json.reloadList_reloadList xs]
  | .obj kvs => by
      obtain ⟨items, hperm, hreload⟩ := Json.reload_obj kvs
      have hfixed : ∀ e ∈ dictOf items, rejoin e.1 = e.1 ∧ e.2.reload = e.2 :=
        fun e he => Json.reloadObj_fixed kvs e (hperm.mem_iff.1 (mem_dictOf he))
      rw [hreload, Json.reload, Json.reloadObj_of_fixed hfixed, mergeKeys,
        if_pos (nodup_dictOf items)]

theorem Json.reloadList_reloadList :
    ∀ xs : List Json, Json.reloadList (Json.reloadList xs) = Json.reloadList xs
  | [] => rfl
  | x :: xs => by
      simp [Json.reloadList, Json.reload_reload x,
        Json.reloadList_reloadList xs]

/-- What was read back is fixed, key and value. -/
theorem Json.reloadObj_fixed : ∀ kvs : List (PyStr × Json),
    ∀ e ∈ Json.reloadObj kvs, rejoin e.1 = e.1 ∧ e.2.reload = e.2
  | [] => by simp [Json.reloadObj]
  | (k, x) :: kvs => by
      intro e he
      rcases List.mem_cons.1 he with rfl | he
      · exact ⟨rejoin_rejoin k, Json.reload_reload x⟩
      · exact Json.reloadObj_fixed kvs e he

end

end Python
