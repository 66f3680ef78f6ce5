import StockAnalyst.JobRecord
import StockAnalyst.CanonicalText
import Mathlib.Data.Nat.Digits.Lemmas

/-!
# The size of stored records

Reading a value back never makes its JSON text longer, and a failed analysis
that is put back into the queue has no longer text either.  A record that fits
into the store therefore still fits when its buyer resumes the job.
-/

namespace Python

open JsonText

variable {lib : PyLib}

/-! ## Sizes of texts -/

/-- The size of an object's text without its braces, and one comma more. -/
def entrySizes (es : List (PyStr × List Nat)) : Nat :=
  (es.map fun e => (dumpsStr e.1).length + e.2.length + 2).sum

@[simp] theorem entrySizes_nil : entrySizes [] = 0 := rfl

@[simp] theorem entrySizes_cons (e : PyStr × List Nat) (es : List (PyStr × List Nat)) :
    entrySizes (e :: es) = (dumpsStr e.1).length + e.2.length + 2 + entrySizes es := by
  simp [entrySizes]

/-- A joined text is as long as its pieces and the commas between. -/
theorem length_join (pieces : List (List Nat)) :
    (PyStr.join [0x2C] pieces).length = (pieces.map fun p => p.length + 1).sum - 1 := by
  cases pieces with
  | nil => rfl
  | cons p pieces =>
      have hmore : (pieces.flatMap ([0x2C] ++ ·)).length =
          (pieces.map fun p => p.length + 1).sum := by
        induction pieces with
        | nil => rfl
        | cons q pieces ih =>
            simp only [List.flatMap_cons, List.length_append, List.length_singleton, ih,
              List.map_cons, List.sum_cons]
            omega
      rw [join_cons, List.length_append, hmore, List.map_cons, List.sum_cons]
      omega

/-- The entries of an object, in any order, are as long as their sizes. -/
theorem length_dumpsEntries (es : List (PyStr × List Nat)) :
    (dumpsEntries (sortedEntries es)).length = entrySizes es - 1 := by
  have hperm := (sortedEntries_perm es).map fun e : PyStr × List Nat =>
    (dumpsStr e.1 ++ 0x3A :: e.2).length + 1
  have hsum := hperm.sum_nat
  unfold dumpsEntries
  rw [length_join, List.map_map]
  have hsame : (fun p : List Nat => p.length + 1) ∘ (fun e : PyStr × List Nat =>
      dumpsStr e.1 ++ 0x3A :: e.2) = fun e => (dumpsStr e.1 ++ 0x3A :: e.2).length + 1 := rfl
  rw [hsame, hsum]
  unfold entrySizes
  congr 2
  refine List.map_congr_left ?_
  intro e _
  rw [List.length_append, List.length_cons]
  omega

/-! ## Objects -/

theorem dumpsObj_nil : Json.dumpsObj lib [] = some [] := rfl

/-- An object has texts when the first value and the rest do. -/
theorem dumpsObj_cons {k : PyStr} {x : Json} {kvs : List (PyStr × Json)}
    {es : List (PyStr × List Nat)} :
    Json.dumpsObj lib ((k, x) :: kvs) = some es ↔
      ∃ t es', x.dumps lib = some t ∧ Json.dumpsObj lib kvs = some es' ∧ es = (k, t) :: es' := by
  constructor
  · intro h
    obtain ⟨t, ht, h⟩ := Option.bind_eq_some_iff.1 h
    obtain ⟨es', hes', rfl⟩ := Option.map_eq_some_iff.1 h
    exact ⟨t, es', ht, hes', rfl⟩
  · intro h
    obtain ⟨t, es', ht, hes', rfl⟩ := h
    simp [Json.dumpsObj, ht, hes']

/-- The text of an object is that of its sorted entries in braces. -/
theorem dumps_obj {kvs : List (PyStr × Json)} {t : List Nat} :
    (Json.obj kvs).dumps lib = some t ↔
      ∃ es, Json.dumpsObj lib kvs = some es ∧
        t = 0x7B :: dumpsEntries (sortedEntries es) ++ [0x7D] := by
  rw [Json.dumps, Option.map_eq_some_iff]
  constructor
  · intro h
    obtain ⟨es, hes, rfl⟩ := h
    exact ⟨es, hes, rfl⟩
  · intro h
    obtain ⟨es, hes, rfl⟩ := h
    exact ⟨es, hes, rfl⟩

/-- Setting a key makes an object longer by its entry at most. -/
theorem dumpsObj_dictSet {kvs : List (PyStr × Json)} {es : List (PyStr × List Nat)} {k : PyStr}
    {x : Json} {t : List Nat} (hkvs : Json.dumpsObj lib kvs = some es)
    (hx : x.dumps lib = some t) :
    ∃ es', Json.dumpsObj lib (dictSet kvs k x) = some es' ∧
      entrySizes es' ≤ entrySizes es + ((dumpsStr k).length + t.length + 2) := by
  induction kvs generalizing es with
  | nil =>
      obtain rfl := Option.some.inj hkvs
      exact ⟨[(k, t)], dumpsObj_cons.2 ⟨t, [], hx, rfl, rfl⟩, by simp⟩
  | cons e kvs ih =>
      obtain ⟨key, y⟩ := e
      obtain ⟨u, es', hu, hes', rfl⟩ := dumpsObj_cons.1 hkvs
      by_cases hkey : key = k
      · subst hkey
        refine ⟨(key, t) :: es', ?_, ?_⟩
        · rw [dictSet, if_pos rfl]
          exact dumpsObj_cons.2 ⟨t, es', hx, hes', rfl⟩
        · simp only [entrySizes_cons]
          omega
      · obtain ⟨fs, hfs, hsize⟩ := ih hes'
        refine ⟨(key, u) :: fs, ?_, ?_⟩
        · rw [dictSet, if_neg hkey]
          exact dumpsObj_cons.2 ⟨u, fs, hu, hfs, rfl⟩
        · simp only [entrySizes_cons]
          omega

/-- Setting many keys adds no more than their sizes. -/
theorem dumpsObj_foldl {items d : List (PyStr × Json)} {es fs : List (PyStr × List Nat)}
    (hd : Json.dumpsObj lib d = some es) (hitems : Json.dumpsObj lib items = some fs) :
    ∃ gs, Json.dumpsObj lib (items.foldl (fun d e => dictSet d e.1 e.2) d) = some gs ∧
      entrySizes gs ≤ entrySizes es + entrySizes fs := by
  induction items generalizing d es fs with
  | nil =>
      obtain rfl := Option.some.inj hitems
      exact ⟨es, hd, by simp⟩
  | cons e items ih =>
      obtain ⟨k, x⟩ := e
      obtain ⟨t, fs', ht, hfs', rfl⟩ := dumpsObj_cons.1 hitems
      obtain ⟨es', hes', hsize⟩ := dumpsObj_dictSet hd ht
      obtain ⟨gs, hgs, hsize'⟩ := ih hes' hfs'
      refine ⟨gs, hgs, ?_⟩
      dsimp only at hsize
      simp only [entrySizes_cons]
      omega

/-- The order of the entries does not matter for their size. -/
theorem dumpsObj_perm {items items' : List (PyStr × Json)} {es : List (PyStr × List Nat)}
    (hperm : items'.Perm items) (h : Json.dumpsObj lib items = some es) :
    ∃ es', Json.dumpsObj lib items' = some es' ∧ entrySizes es' = entrySizes es := by
  induction hperm generalizing es with
  | nil => exact ⟨es, h, rfl⟩
  | cons e _ ih =>
      obtain ⟨t, es, ht, hes, rfl⟩ := dumpsObj_cons.1 h
      obtain ⟨es', hes', hsize⟩ := ih hes
      exact ⟨_, dumpsObj_cons.2 ⟨t, es', ht, hes', rfl⟩, by simp only [entrySizes_cons, hsize]⟩
  | swap e e' _ =>
      obtain ⟨t, es, ht, hes, rfl⟩ := dumpsObj_cons.1 h
      obtain ⟨t', es', ht', hes', rfl⟩ := dumpsObj_cons.1 hes
      refine ⟨_, dumpsObj_cons.2 ⟨t', _, ht', dumpsObj_cons.2 ⟨t, es', ht, hes', rfl⟩, rfl⟩, ?_⟩
      simp only [entrySizes_cons]
      omega
  | trans _ _ ih ih' =>
      obtain ⟨es', hes', hsize⟩ := ih' h
      obtain ⟨es'', hes'', hsize'⟩ := ih hes'
      exact ⟨es'', hes'', hsize'.trans hsize⟩

/-! ## Reading back -/

/-- The escapes of a surrogate pair are those of the code point it stands
for. -/
theorem dumpsStr_rejoin (s : PyStr) : dumpsStr (rejoin s) = dumpsStr s := by
  have hchars : (rejoin s).flatMap escapeChar = s.flatMap escapeChar := by
    fun_induction rejoin s with
    | case1 => rfl
    | case2 c => rfl
    | case3 hi lo rest hpair ih =>
        simp only [isHigh, isLow, Bool.and_eq_true, decide_eq_true_eq] at hpair
        have hunit : ∀ u, 0x7F ≤ u → u < 0x10000 → escapeChar u = unitEscape u := by
          intro u hge hlt
          unfold escapeChar
          simp only [show u ≠ 0x22 by omega, show u ≠ 0x5C by omega, show u ≠ 0x0A by omega,
            show u ≠ 0x0D by omega, show u ≠ 0x09 by omega, show u ≠ 0x0C by omega,
            show u ≠ 0x08 by omega, show ¬ (0x20 ≤ u ∧ u ≤ 0x7E) by omega, hlt, if_false,
            if_true]
        have hpoint : escapeChar (combine hi lo) = unitEscape hi ++ unitEscape lo := by
          have hge := combine_ge hi lo
          have hup : highUnit (combine hi lo) = hi := by
            unfold highUnit combine
            omega
          have hdown : lowUnit (combine hi lo) = lo := by
            unfold lowUnit combine
            omega
          unfold escapeChar
          generalize combine hi lo = c at *
          simp only [show c ≠ 0x22 by omega, show c ≠ 0x5C by omega, show c ≠ 0x0A by omega,
            show c ≠ 0x0D by omega, show c ≠ 0x09 by omega, show c ≠ 0x0C by omega,
            show c ≠ 0x08 by omega, show ¬ (0x20 ≤ c ∧ c ≤ 0x7E) by omega,
            show ¬ c < 0x10000 by omega, if_false, hup, hdown]
        rw [List.flatMap_cons, List.flatMap_cons, List.flatMap_cons, hpoint, ih,
          hunit hi (by omega) (by omega), hunit lo (by omega) (by omega), List.append_assoc]
    | case4 hi lo rest hpair ih =>
        rw [List.flatMap_cons, List.flatMap_cons, ih]
  unfold dumpsStr
  rw [hchars]

mutual

/-- A value read back has a text, and no longer one. -/
theorem Json.reload_dumps : ∀ (x : Json) (t : List Nat), x.dumps lib = some t →
    ∃ t', x.reload.dumps lib = some t' ∧ t'.length ≤ t.length
  | .null, t, h => ⟨t, h, le_refl _⟩
  | .bool _, t, h => ⟨t, h, le_refl _⟩
  | .int _, t, h => ⟨t, h, le_refl _⟩
  | .float _, t, h => ⟨t, h, le_refl _⟩
  | .str s, t, h => by
      obtain rfl := Option.some.inj h
      exact ⟨dumpsStr (rejoin s), rfl, by rw [dumpsStr_rejoin]⟩
  | .arr xs, t, h => by
      obtain ⟨ts, hts, rfl⟩ := Option.map_eq_some_iff.1 h
      obtain ⟨ts', hts', hsize⟩ := Json.reloadList_dumps xs ts hts
      refine ⟨0x5B :: PyStr.join [0x2C] ts' ++ [0x5D], ?_, ?_⟩
      · rw [Json.reload, Json.dumps, hts', Option.map_some]
      · simp only [List.length_append, List.length_cons, length_join]
        omega
  | .obj kvs, t, h => by
      obtain ⟨es, hes, rfl⟩ := dumps_obj.1 h
      obtain ⟨fs, hfs, hsize⟩ := Json.reloadObj_dumps kvs es hes
      obtain ⟨items, hperm, hreload⟩ := Json.reload_obj kvs
      obtain ⟨fs', hfs', hsame⟩ := dumpsObj_perm hperm hfs
      obtain ⟨gs, hgs, hsize'⟩ := dumpsObj_foldl dumpsObj_nil hfs'
      rw [hreload]
      refine ⟨_, dumps_obj.2 ⟨gs, hgs, rfl⟩, ?_⟩
      simp only [List.length_append, List.length_cons, length_dumpsEntries]
      rw [entrySizes_nil] at hsize'
      omega

theorem Json.reloadList_dumps : ∀ (xs : List Json) (ts : List (List Nat)),
    Json.dumpsList lib xs = some ts →
    ∃ ts', Json.dumpsList lib (Json.reloadList xs) = some ts' ∧
      (ts'.map fun p => p.length + 1).sum ≤ (ts.map fun p => p.length + 1).sum
  | [], ts, h => ⟨ts, h, le_refl _⟩
  | x :: xs, ts, h => by
      obtain ⟨t, ht, h⟩ := Option.bind_eq_some_iff.1 h
      obtain ⟨ts, hts, rfl⟩ := Option.map_eq_some_iff.1 h
      obtain ⟨t', ht', hsize⟩ := Json.reload_dumps x t ht
      obtain ⟨ts', hts', hsize'⟩ := Json.reloadList_dumps xs ts hts
      refine ⟨t' :: ts', ?_, ?_⟩
      · rw [Json.reloadList, Json.dumpsList, ht', Option.bind_some, hts', Option.map_some]
      · simp only [List.map_cons, List.sum_cons]
        omega

theorem Json.reloadObj_dumps : ∀ (kvs : List (PyStr × Json)) (es : List (PyStr × List Nat)),
    Json.dumpsObj lib kvs = some es →
    ∃ es', Json.dumpsObj lib (Json.reloadObj kvs) = some es' ∧ entrySizes es' ≤ entrySizes es
  | [], es, h => ⟨es, h, le_refl _⟩
  | (k, x) :: kvs, es, h => by
      obtain ⟨t, es, ht, hes, rfl⟩ := dumpsObj_cons.1 h
      obtain ⟨t', ht', hsize⟩ := Json.reload_dumps x t ht
      obtain ⟨es', hes', hsize'⟩ := Json.reloadObj_dumps kvs es hes
      refine ⟨(rejoin k, t') :: es', ?_, ?_⟩
      · rw [Json.reloadObj]
        exact dumpsObj_cons.2 ⟨t', es', ht', hes', rfl⟩
      · simp only [entrySizes_cons, dumpsStr_rejoin]
        omega

end

/-! ## Changed entries -/

variable (lib) in
/-- Every text of the first value gives one of the second, longer by at most
`slack`. -/
def Widens (slack : Int) (x y : Json) : Prop :=
  ∀ t, x.dumps lib = some t →
    ∃ t', y.dumps lib = some t' ∧ (t'.length : Int) ≤ t.length + slack

variable (lib) in
/-- Two objects with the same keys, whose values differ by `slack` in all. -/
inductive Resized : Int → List (PyStr × Json) → List (PyStr × Json) → Prop
  | same (kvs : List (PyStr × Json)) : Resized 0 kvs kvs
  | keep {slack kvs kvs'} (e : PyStr × Json) (rest : Resized slack kvs kvs') :
      Resized slack (e :: kvs) (e :: kvs')
  | change {slack slack' kvs kvs' k x y} (value : Widens lib slack' x y)
      (rest : Resized slack kvs kvs') :
      Resized (slack + slack') ((k, x) :: kvs) ((k, y) :: kvs')

/-- Entries that are as they were do not count. -/
theorem Resized.append {slack : Int} {kvs kvs' : List (PyStr × Json)}
    (h : Resized lib slack kvs kvs') (rest : List (PyStr × Json)) :
    Resized lib slack (kvs ++ rest) (kvs' ++ rest) := by
  induction h with
  | same kvs => exact .same _
  | keep e _ ih => exact .keep e ih
  | change value _ ih => exact .change value ih

/-- Resized entries are longer by the slack at most. -/
theorem Resized.dumpsObj {slack : Int} {kvs kvs' : List (PyStr × Json)}
    {es : List (PyStr × List Nat)} (h : Resized lib slack kvs kvs')
    (hes : Json.dumpsObj lib kvs = some es) :
    ∃ es', Json.dumpsObj lib kvs' = some es' ∧
      (entrySizes es' : Int) ≤ entrySizes es + slack := by
  induction h generalizing es with
  | same kvs => exact ⟨es, hes, by omega⟩
  | keep e _ ih =>
      obtain ⟨k, x⟩ := e
      obtain ⟨t, es', ht, hes', rfl⟩ := dumpsObj_cons.1 hes
      obtain ⟨fs, hfs, hsize⟩ := ih hes'
      refine ⟨(k, t) :: fs, dumpsObj_cons.2 ⟨t, fs, ht, hfs, rfl⟩, ?_⟩
      simp only [entrySizes_cons, Nat.cast_add]
      omega
  | @change slack slack' kvs kvs' k x y value _ ih =>
      obtain ⟨t, es', ht, hes', rfl⟩ := dumpsObj_cons.1 hes
      obtain ⟨t', ht', hvalue⟩ := value t ht
      obtain ⟨fs, hfs, hsize⟩ := ih hes'
      refine ⟨(k, t') :: fs, dumpsObj_cons.2 ⟨t', fs, ht', hfs, rfl⟩, ?_⟩
      simp only [entrySizes_cons, Nat.cast_add]
      omega

/-- An object whose entries do not grow has a text that does not. -/
theorem Resized.dumps {slack : Int} {kvs kvs' : List (PyStr × Json)} {t : List Nat}
    (h : Resized lib slack kvs kvs') (hslack : slack ≤ 0)
    (ht : (Json.obj kvs).dumps lib = some t) :
    ∃ t', (Json.obj kvs').dumps lib = some t' ∧ t'.length ≤ t.length := by
  obtain ⟨es, hes, rfl⟩ := dumps_obj.1 ht
  obtain ⟨es', hes', hsize⟩ := h.dumpsObj hes
  refine ⟨_, dumps_obj.2 ⟨es', hes', rfl⟩, ?_⟩
  simp only [List.length_append, List.length_cons, length_dumpsEntries]
  omega

/-! ## Integers -/

/-- An integer has a character at least. -/
theorem intText_pos (i : Int) : 1 ≤ (intText i).length := by
  unfold intText
  split_ifs with hneg hzero
  · simp
  · simp
  · have hne : Nat.digits 10 i.natAbs ≠ [] := Nat.digits_ne_nil_iff_ne_zero.2 (by omega)
    have hpos := List.length_pos_iff.2 hne
    simp only [natDigits, List.length_map, List.length_reverse]
    omega

/-- A number of milliseconds up to the year 2286 has thirteen digits. -/
theorem intText_milliseconds {now : Int} (hlow : 0 ≤ now) (hhigh : now < 10 ^ 13) :
    (Nat.digits 10 now.natAbs).length ≤ 13 ∧ (intText now).length ≤ 13 := by
  have hdigits : (Nat.digits 10 now.natAbs).length ≤ 13 := by
    refine (Nat.digits_length_le_iff (by decide) _).2 ?_
    omega
  refine ⟨hdigits, ?_⟩
  unfold intText
  split_ifs with hneg hzero
  · omega
  · decide
  · simpa [natDigits] using hdigits

end Python

namespace X402

open Python JobRecord

variable {lib : PyLib} {r : JobRecord} {now : Int}

/-- A record can be stored where its text is within the limit. -/
theorem encodable_iff :
    encodable lib r = true ↔
      ∃ body, r.toJson.dumps lib = some body ∧ body.length ≤ maxJobBytes := by
  unfold encodable encode
  cases hbody : r.toJson.dumps lib with
  | none => simp
  | some body =>
      by_cases hlarge : maxJobBytes < body.length
      · simp [hlarge]
      · simpa [hlarge] using Nat.le_of_not_lt hlarge

/-- Two records whose texts differ by no more than `slack`. -/
def Refits (lib : PyLib) (slack : Int) (r r' : JobRecord) : Prop :=
  ∃ kvs kvs', r.toJson = .obj kvs ∧ r'.toJson = .obj kvs' ∧ Resized lib slack kvs kvs'

/-- A record that does not grow can be stored. -/
theorem Refits.encodable {r' : JobRecord} {slack : Int} (h : Refits lib slack r r')
    (hslack : slack ≤ 0) (hr : encodable lib r = true) : encodable lib r' = true := by
  obtain ⟨kvs, kvs', hkvs, hkvs', hresized⟩ := h
  obtain ⟨body, hbody, hsize⟩ := encodable_iff.1 hr
  rw [hkvs] at hbody
  obtain ⟨body', hbody', hle⟩ := hresized.dumps hslack hbody
  rw [← hkvs'] at hbody'
  exact encodable_iff.2 ⟨body', hbody', le_trans hle hsize⟩

/-- A record that fits still fits as it reads back. -/
theorem encodable_reload (h : encodable lib r = true) : encodable lib r.reload = true := by
  have hrequest : Widens lib 0 r.request r.request.reload := by
    intro t ht
    obtain ⟨t', ht', hle⟩ := Json.reload_dumps r.request t ht
    exact ⟨t', ht', by omega⟩
  have hrefits : Refits lib (0 + 0) r r.reload :=
    ⟨_, _, rfl, rfl, ((((Resized.keep _ <| .keep _ <| .keep _ <| .keep _ <| .keep _ <|
      .keep _ <| .keep _ <| .keep _ <| .keep _ <| .keep _ <| .keep _ <| .keep _ <|
      .change hrequest <| .same _).append _).append _).append _).append _⟩
  exact hrefits.encodable (le_refl _) h

/-- A failed analysis that fits still fits when it is put back into the queue:
the error code that goes is longer than any time that comes. -/
theorem encodable_requeued {code : ErrorCode} (h : encodable lib r = true)
    (hstatus : r.status = .failed) (howner : r.leaseOwner = none)
    (hlease : r.leaseExpiresAt = none) (hcode : r.errorCode = some code)
    (hretry : r.retryable = some true) (hlow : 0 ≤ now) (hhigh : now < 10 ^ 13) :
    encodable lib (r.requeued now) = true := by
  have hwidens : ∀ {x y : Json} (t t' : List Nat), x.dumps lib = some t →
      y.dumps lib = some t' → Widens lib ((t'.length : Int) - t.length) x y := by
    intro x y t t' hx hy u hu
    obtain rfl := Option.some.inj (hx.symm.trans hu)
    exact ⟨t', hy, by omega⟩
  have hfailed : Widens lib 0 (.str r.status.text) (.str Status.queued.text) := by
    rw [hstatus]
    exact hwidens (dumpsStr Status.failed.text) (dumpsStr Status.queued.text) rfl rfl
  have hupdated : Widens lib 12 (.int r.updatedAt) (.int now) := by
    intro t ht
    obtain ⟨hdigits, hlength⟩ := intText_milliseconds hlow hhigh
    have hnow : (Json.int now).dumps lib = some (intText now) :=
      if_pos (le_trans hdigits (by decide))
    obtain ⟨-, ht⟩ := Option.ite_none_right_eq_some.1 ht
    obtain rfl := Option.some.inj ht
    have := intText_pos r.updatedAt
    exact ⟨intText now, hnow, by omega⟩
  have hcodes : Widens lib (-12) (optStr (r.errorCode.map ErrorCode.text)) .null := by
    rw [hcode]
    intro t ht
    obtain rfl := Option.some.inj ht
    refine ⟨py "null", rfl, ?_⟩
    cases code <;> decide
  have hretryable : Widens lib 0 (optBool r.retryable) .null := by
    rw [hretry]
    exact hwidens (py "true") (py "null") rfl rfl
  have hexpires : Widens lib 0 (optInt r.leaseExpiresAt) .null := by
    rw [hlease]
    exact hwidens (py "null") (py "null") rfl rfl
  have howners : Widens lib 0 (optStr r.leaseOwner) .null := by
    rw [howner]
    exact hwidens (py "null") (py "null") rfl rfl
  have hrefits : Refits lib (0 + 0 + -12 + 12 + 0 + 0 + 0) r (r.requeued now) :=
    ⟨_, _, rfl, rfl, ((((Resized.keep _ <| .keep _ <| .keep _ <| .keep _ <| .keep _ <|
      .keep _ <| .keep _ <| .keep _ <| .keep _ <| .keep _ <| .keep _ <| .change hfailed <|
      .keep _ <| .keep _ <| .keep _ <| .keep _ <| .keep _ <| .change howners <|
      .change hexpires <| .keep _ <| .change hupdated <| .keep _ <| .change hcodes <|
      .change hretryable <| .same []).append _).append _).append _).append _⟩
  exact hrefits.encodable (by decide) h

end X402
