import StockAnalyst.JsonText

/-!
# Rewriting documents

A change of the words, the strings and the keys of a document.  On the tokens
of the document the change is local: a key is a string before a colon.
-/

namespace JsonText

/-- What becomes of words, of strings and of keys. -/
structure Rewriting where
  word : List Nat → Doc
  str : List Nat → List Nat
  key : List Nat → List Nat

mutual

/-- The document after a change. -/
def Doc.rewrite (f : Rewriting) : Doc → Doc
  | .word text => f.word text
  | .str value => .str (f.str value)
  | .arr items => .arr (Doc.rewriteItems f items)
  | .obj entries => .obj (Doc.rewriteEntries f entries)

def Doc.rewriteItems (f : Rewriting) : List Doc → List Doc
  | [] => []
  | d :: items => d.rewrite f :: Doc.rewriteItems f items

def Doc.rewriteEntries (f : Rewriting) : List (List Nat × Doc) → List (List Nat × Doc)
  | [] => []
  | (key, d) :: entries => (f.key key, d.rewrite f) :: Doc.rewriteEntries f entries

end

/-- The items of a list are rewritten one by one. -/
theorem Doc.rewriteItems_eq_map (f : Rewriting) (items : List Doc) :
    Doc.rewriteItems f items = items.map (Doc.rewrite f) := by
  induction items with
  | nil => rfl
  | cons d items ih => simp [Doc.rewriteItems, ih]

/-- The entries of an object are rewritten one by one. -/
theorem Doc.rewriteEntries_eq_map (f : Rewriting) (entries : List (List Nat × Doc)) :
    Doc.rewriteEntries f entries = entries.map fun e => (f.key e.1, e.2.rewrite f) := by
  induction entries with
  | nil => rfl
  | cons e entries ih => simp [Doc.rewriteEntries, ih]

/-- One change after another. -/
def Rewriting.andThen (f g : Rewriting) : Rewriting where
  word text := (f.word text).rewrite g
  str value := g.str (f.str value)
  key key := g.key (f.key key)

/-- Two rewritings are one. -/
theorem Doc.rewrite_rewrite (f g : Rewriting) (d : Doc) :
    (d.rewrite f).rewrite g = d.rewrite (f.andThen g) := by
  induction d using Doc.induct with
  | word text => rfl
  | str value => rfl
  | arr items ih =>
      simp only [Doc.rewrite, Doc.rewriteItems_eq_map, List.map_map, Doc.arr.injEq]
      exact List.map_congr_left ih
  | obj entries ih =>
      simp only [Doc.rewrite, Doc.rewriteEntries_eq_map, List.map_map, Doc.obj.injEq]
      refine List.map_congr_left ?_
      intro e he
      simp [ih e he, Rewriting.andThen]

/-! ## The same on tokens -/

/-- The tokens after a change. -/
def rewriteToks (f : Rewriting) : List Tok → List Tok
  | [] => []
  | .punct c :: rest => .punct c :: rewriteToks f rest
  | .word text :: rest => (f.word text).toks ++ rewriteToks f rest
  | .str value :: rest =>
      .str (if rest.head? = some (.punct 0x3A) then f.key value else f.str value) ::
        rewriteToks f rest

/-- A string that is no key is rewritten as a value. -/
theorem rewriteToks_str {f : Rewriting} {value : List Nat} {rest : List Tok}
    (h : rest.head? ≠ some (.punct 0x3A)) :
    rewriteToks f (.str value :: rest) = .str (f.str value) :: rewriteToks f rest := by
  rw [rewriteToks, if_neg h]

/-- A string before a colon is rewritten as a key. -/
theorem rewriteToks_key {f : Rewriting} {key : List Nat} {rest : List Tok} :
    rewriteToks f (.str key :: .punct 0x3A :: rest) =
      .str (f.key key) :: .punct 0x3A :: rewriteToks f rest := by
  simp [rewriteToks]

/-- Further items are rewritten. -/
theorem rewriteToks_moreItems {f : Rewriting} {items : List Doc}
    (h : ∀ d ∈ items, ∀ rest : List Tok, rest.head? ≠ some (.punct 0x3A) →
      rewriteToks f (d.toks ++ rest) = (d.rewrite f).toks ++ rewriteToks f rest)
    (rest : List Tok) :
    (Doc.moreItems items ++ rest).head? ≠ some (.punct 0x3A) ∧
      rewriteToks f (Doc.moreItems items ++ rest) =
        Doc.moreItems (Doc.rewriteItems f items) ++ rewriteToks f rest := by
  induction items with
  | nil => exact ⟨by simp [Doc.moreItems], rfl⟩
  | cons d items ih =>
      obtain ⟨hd, hitems⟩ := List.forall_mem_cons.1 h
      obtain ⟨hhead, hmore⟩ := ih hitems
      refine ⟨by simp [Doc.moreItems], ?_⟩
      simp only [Doc.moreItems, Doc.rewriteItems, List.cons_append, List.append_assoc,
        rewriteToks, hd _ hhead, hmore]

/-- Further entries are rewritten. -/
theorem rewriteToks_moreEntries {f : Rewriting} {entries : List (List Nat × Doc)}
    (h : ∀ e ∈ entries, ∀ rest : List Tok, rest.head? ≠ some (.punct 0x3A) →
      rewriteToks f (e.2.toks ++ rest) = (e.2.rewrite f).toks ++ rewriteToks f rest)
    (rest : List Tok) :
    (Doc.moreEntries entries ++ rest).head? ≠ some (.punct 0x3A) ∧
      rewriteToks f (Doc.moreEntries entries ++ rest) =
        Doc.moreEntries (Doc.rewriteEntries f entries) ++ rewriteToks f rest := by
  induction entries with
  | nil => exact ⟨by simp [Doc.moreEntries], rfl⟩
  | cons e entries ih =>
      obtain ⟨key, d⟩ := e
      obtain ⟨hd, hentries⟩ := List.forall_mem_cons.1 h
      obtain ⟨hhead, hmore⟩ := ih hentries
      refine ⟨by simp [Doc.moreEntries], ?_⟩
      simp only [Doc.moreEntries, Doc.rewriteEntries, List.cons_append, List.append_assoc]
      rw [rewriteToks, rewriteToks_key, hd _ hhead, hmore]

/-- The tokens of a changed document are the changed tokens. -/
theorem Doc.rewriteToks_toks (f : Rewriting) (d : Doc) :
    ∀ rest : List Tok, rest.head? ≠ some (.punct 0x3A) →
      rewriteToks f (d.toks ++ rest) = (d.rewrite f).toks ++ rewriteToks f rest := by
  induction d using Doc.induct with
  | word text => exact fun rest _ => rfl
  | str value =>
      intro rest hrest
      exact rewriteToks_str hrest
  | arr items ih =>
      intro rest hrest
      cases items with
      | nil => rfl
      | cons d items =>
          obtain ⟨hd, hitems⟩ := List.forall_mem_cons.1 ih
          obtain ⟨hhead, hmore⟩ := rewriteToks_moreItems hitems rest
          simp only [Doc.toks, Doc.rewrite, Doc.rewriteItems, List.cons_append,
            List.append_assoc, rewriteToks, hd _ hhead, hmore]
  | obj entries ih =>
      intro rest hrest
      cases entries with
      | nil => rfl
      | cons e entries =>
          obtain ⟨key, d⟩ := e
          obtain ⟨hd, hentries⟩ := List.forall_mem_cons.1 ih
          obtain ⟨hhead, hmore⟩ := rewriteToks_moreEntries hentries rest
          simp only [Doc.toks, Doc.rewrite, Doc.rewriteEntries, List.cons_append,
            List.append_assoc]
          rw [rewriteToks, rewriteToks_key, hd _ hhead, hmore]

/-- The tokens of a rewritten document are the rewritten tokens. -/
theorem Doc.toks_rewrite (f : Rewriting) (d : Doc) :
    (d.rewrite f).toks = rewriteToks f d.toks := by
  have h := d.rewriteToks_toks f [] (by simp)
  simpa [rewriteToks] using h.symm

/-! ## Keys -/

mutual

/-- No object has a key twice. -/
def Doc.distinctKeys : Doc → Bool
  | .word _ => true
  | .str _ => true
  | .arr items => Doc.distinctItems items
  | .obj entries => decide (entries.map (·.1)).Nodup && Doc.distinctEntries entries

def Doc.distinctItems : List Doc → Bool
  | [] => true
  | d :: items => d.distinctKeys && Doc.distinctItems items

def Doc.distinctEntries : List (List Nat × Doc) → Bool
  | [] => true
  | (_, d) :: entries => d.distinctKeys && Doc.distinctEntries entries

end

/-- Keys are distinct in a list where they are in its items. -/
theorem Doc.distinctItems_iff {items : List Doc} :
    Doc.distinctItems items = true ↔ ∀ d ∈ items, d.distinctKeys = true := by
  induction items with
  | nil => simp [Doc.distinctItems]
  | cons d items ih => simp [Doc.distinctItems, ih]

/-- Keys are distinct in the values of an object where they are in each. -/
theorem Doc.distinctEntries_iff {entries : List (List Nat × Doc)} :
    Doc.distinctEntries entries = true ↔ ∀ e ∈ entries, e.2.distinctKeys = true := by
  induction entries with
  | nil => simp [Doc.distinctEntries]
  | cons e entries ih => simp [Doc.distinctEntries, ih]

mutual

/-- Some object has this key. -/
def Doc.hasKey (key : List Nat) : Doc → Bool
  | .word _ => false
  | .str _ => false
  | .arr items => Doc.itemsHaveKey key items
  | .obj entries => Doc.entriesHaveKey key entries

def Doc.itemsHaveKey (key : List Nat) : List Doc → Bool
  | [] => false
  | d :: items => d.hasKey key || Doc.itemsHaveKey key items

def Doc.entriesHaveKey (key : List Nat) : List (List Nat × Doc) → Bool
  | [] => false
  | (key', d) :: entries => key' == key || d.hasKey key || Doc.entriesHaveKey key entries

end

/-- A list lacks a key where its items do. -/
theorem Doc.itemsHaveKey_iff {key : List Nat} {items : List Doc} :
    Doc.itemsHaveKey key items = false ↔ ∀ d ∈ items, d.hasKey key = false := by
  induction items with
  | nil => simp [Doc.itemsHaveKey]
  | cons d items ih => simp [Doc.itemsHaveKey, ih]

/-- An object lacks a key where its entries do. -/
theorem Doc.entriesHaveKey_iff {key : List Nat} {entries : List (List Nat × Doc)} :
    Doc.entriesHaveKey key entries = false ↔
      ∀ e ∈ entries, e.1 ≠ key ∧ e.2.hasKey key = false := by
  induction entries with
  | nil => simp [Doc.entriesHaveKey]
  | cons e entries ih => simp [Doc.entriesHaveKey, ih, and_assoc]

/-- Keys that stay apart stay distinct. -/
theorem Doc.distinctKeys_rewrite {f : Rewriting} {P : List Nat → Prop} {d : Doc}
    (hword : ∀ text, (f.word text).distinctKeys = true)
    (hkey : ∀ k k', P k → P k' → f.key k = f.key k' → k = k')
    (hP : ∀ tok ∈ d.toks, ∀ s, tok = .str s → P s)
    (h : d.distinctKeys = true) : (d.rewrite f).distinctKeys = true := by
  induction d using Doc.induct with
  | word text => exact hword text
  | str value => rfl
  | arr items ih =>
      rw [Doc.distinctKeys, Doc.distinctItems_iff] at h
      rw [Doc.forall_toks_arr (by simp)] at hP
      rw [Doc.rewrite, Doc.rewriteItems_eq_map, Doc.distinctKeys, Doc.distinctItems_iff]
      intro d hd
      obtain ⟨d', hd', rfl⟩ := List.mem_map.1 hd
      exact ih d' hd' (hP d' hd') (h d' hd')
  | obj entries ih =>
      rw [Doc.distinctKeys, Bool.and_eq_true, decide_eq_true_eq, Doc.distinctEntries_iff] at h
      rw [Doc.forall_toks_obj (by simp)] at hP
      rw [Doc.rewrite, Doc.rewriteEntries_eq_map, Doc.distinctKeys, Bool.and_eq_true,
        decide_eq_true_eq, Doc.distinctEntries_iff]
      constructor
      · rw [List.map_map]
        have hnodup := (List.nodup_map_iff_inj_on (f := f.key) h.1).2 (by
          intro k hk k' hk' heq
          obtain ⟨e, he, rfl⟩ := List.mem_map.1 hk
          obtain ⟨e', he', rfl⟩ := List.mem_map.1 hk'
          exact hkey _ _ ((hP e he).1 _ rfl) ((hP e' he').1 _ rfl) heq)
        rw [List.map_map] at hnodup
        exact hnodup
      · intro e he
        obtain ⟨e', he', rfl⟩ := List.mem_map.1 he
        exact ih e' he' (hP e' he').2 (h.2 e' he')

/-- A key that no key becomes is gone. -/
theorem Doc.hasKey_rewrite {f : Rewriting} {key : List Nat} (d : Doc)
    (hword : ∀ text, (f.word text).hasKey key = false) (hkey : ∀ k, f.key k ≠ key) :
    (d.rewrite f).hasKey key = false := by
  induction d using Doc.induct with
  | word text => exact hword text
  | str value => rfl
  | arr items ih =>
      rw [Doc.rewrite, Doc.rewriteItems_eq_map, Doc.hasKey, Doc.itemsHaveKey_iff]
      intro d hd
      obtain ⟨d', hd', rfl⟩ := List.mem_map.1 hd
      exact ih d' hd'
  | obj entries ih =>
      rw [Doc.rewrite, Doc.rewriteEntries_eq_map, Doc.hasKey, Doc.entriesHaveKey_iff]
      intro e he
      obtain ⟨e', he', rfl⟩ := List.mem_map.1 he
      exact ⟨hkey e'.1, ih e' he'⟩

end JsonText
