import StockAnalyst.PromptBuilder
import StockAnalyst.DumpsLoads
import StockAnalyst.Scheduler

/-!
# The symbols of a paid analysis

Admission takes letters, digits, dots, carets and dashes; the prompt takes
tickers.  The symbols an analysis is made for are the admitted ones, without
duplicates and in their order, exactly when every admitted symbol is a ticker.
-/

namespace X402

open Python Coroutine JsonText

/-! ## Tickers -/

/-- One to five capitals, and after a dot one or two more. -/
def TickerText (t : PyStr) : Prop :=
  ∃ letters suffix, t = letters ++ suffix ∧ 1 ≤ letters.length ∧ letters.length ≤ 5 ∧
    (∀ c ∈ letters, isUpperLetter c = true) ∧
    (suffix = [] ∨ ∃ share, suffix = 46 :: share ∧ 1 ≤ share.length ∧ share.length ≤ 2 ∧
      ∀ c ∈ share, isUpperLetter c = true)

/-- A run is at least `k` long where the first `k` characters belong to it. -/
theorem le_length_takeWhile {p : Nat → Bool} {l : List Nat} {k : Nat} :
    k ≤ (l.takeWhile p).length ↔ k ≤ l.length ∧ ∀ c ∈ l.take k, p c = true := by
  induction l generalizing k with
  | nil => simp
  | cons a l ih =>
      cases k with
      | zero => simp
      | succ k =>
          by_cases ha : p a = true
          · simp only [List.takeWhile_cons, ha, if_true, List.length_cons, List.take_succ_cons,
              List.forall_mem_cons, Nat.add_le_add_iff_right, true_and]
            exact ih
          · simp [ha]

/-- At least `k` letters are counted where the first `k` characters are
letters. -/
theorem le_letterCount {most k : Nat} {s : PyStr} :
    k ≤ letterCount most s ↔
      k ≤ most ∧ k ≤ s.length ∧ ∀ c ∈ s.take k, isUpperLetter c = true := by
  unfold letterCount
  rw [le_length_takeWhile, List.length_take, Nat.le_min]
  constructor
  · intro h
    obtain ⟨⟨hmost, hlen⟩, hall⟩ := h
    rw [List.take_take, Nat.min_eq_left hmost] at hall
    exact ⟨hmost, hlen, hall⟩
  · intro h
    obtain ⟨hmost, hlen, hall⟩ := h
    rw [List.take_take, Nat.min_eq_left hmost]
    exact ⟨⟨hmost, hlen⟩, hall⟩

/-- A match takes some letters, or some letters, a dot and some letters. -/
theorem mem_tickerLengths {s : PyStr} {n : Nat} :
    n ∈ tickerLengths s ↔ ∃ m, m < letterCount 5 s ∧
      (n = m + 1 ∨ ∃ rest j, s.drop (m + 1) = 46 :: rest ∧ j < letterCount 2 rest ∧
        n = m + j + 3) := by
  unfold tickerLengths
  simp only [List.mem_flatMap, List.mem_reverse, List.mem_range, List.mem_append,
    List.mem_singleton]
  constructor
  · intro h
    obtain ⟨m, hm, hdot | hplain⟩ := h
    · split at hdot
      · rename_i rest hdrop
        obtain ⟨j, hj, rfl⟩ := List.mem_map.1 hdot
        exact ⟨m, hm, Or.inr ⟨rest, j, hdrop, by simpa using hj, rfl⟩⟩
      · cases hdot
    · exact ⟨m, hm, Or.inl hplain⟩
  · intro h
    obtain ⟨m, hm, hplain | ⟨rest, j, hdrop, hj, hn⟩⟩ := h
    · exact ⟨m, hm, Or.inr hplain⟩
    · refine ⟨m, hm, Or.inl ?_⟩
      rw [hdrop]
      exact List.mem_map.2 ⟨j, by simpa using hj, hn.symm⟩

/-- What a match takes is a ticker. -/
theorem tickerText_take {s : PyStr} {n : Nat} (h : n ∈ tickerLengths s) :
    n ≤ s.length ∧ TickerText (s.take n) := by
  obtain ⟨m, hm, rfl | ⟨rest, j, hdrop, hj, rfl⟩⟩ := mem_tickerLengths.1 h
  · obtain ⟨hmost, hlen, hall⟩ := le_letterCount.1 hm
    refine ⟨hlen, s.take (m + 1), [], by simp, ?_, ?_, hall, Or.inl rfl⟩
    · rw [List.length_take]; omega
    · rw [List.length_take]; omega
  · obtain ⟨hmost, hlen, hall⟩ := le_letterCount.1 hm
    obtain ⟨hmost', hlen', hall'⟩ := le_letterCount.1 hj
    have hsplit : s = s.take (m + 1) ++ 46 :: rest := by
      rw [← hdrop, List.take_append_drop]
    have hlength : s.length = m + 1 + (rest.length + 1) := by
      have := congrArg List.length hsplit
      rw [List.length_append, List.length_take, List.length_cons] at this
      omega
    have htake : s.take (m + j + 3) = s.take (m + 1) ++ 46 :: rest.take (j + 1) := by
      have hfront : (s.take (m + 1)).length = m + 1 := by rw [List.length_take]; omega
      conv_lhs => rw [hsplit]
      rw [List.take_append, List.take_of_length_le (by omega), hfront,
        show m + j + 3 - (m + 1) = (j + 1) + 1 by omega, List.take_succ_cons]
    refine ⟨by omega, s.take (m + 1), 46 :: rest.take (j + 1), htake, ?_, ?_, hall,
      Or.inr ⟨_, rfl, ?_, ?_, hall'⟩⟩
    · rw [List.length_take]; omega
    · rw [List.length_take]; omega
    · rw [List.length_take]; omega
    · rw [List.length_take]; omega

/-- A ticker is matched as a whole. -/
theorem mem_tickerLengths_of_text {t : PyStr} (h : TickerText t) :
    t.length ∈ tickerLengths t := by
  obtain ⟨letters, suffix, rfl, hpos, hmost, hall, hsuffix⟩ := h
  obtain ⟨m, hm⟩ : ∃ m, letters.length = m + 1 := ⟨letters.length - 1, by omega⟩
  have hcount : m + 1 ≤ letterCount 5 (letters ++ suffix) := by
    refine le_letterCount.2 ⟨by omega, by rw [List.length_append]; omega, ?_⟩
    rw [← hm, List.take_left]
    exact hall
  refine mem_tickerLengths.2 ⟨m, hcount, ?_⟩
  obtain rfl | ⟨share, rfl, hpos', hmost', hall'⟩ := hsuffix
  · exact Or.inl (by rw [List.append_nil, hm])
  · refine Or.inr ⟨share, share.length - 1, ?_, ?_, ?_⟩
    · rw [← hm, List.drop_left]
    · refine le_letterCount.2 ⟨by omega, by omega, ?_⟩
      intro c hc
      exact hall' c (List.mem_of_mem_take hc)
    · rw [List.length_append, List.length_cons]; omega

/-- The check of a ticker is its shape. -/
theorem isTicker_iff {t : PyStr} : isTicker t = true ↔ TickerText t := by
  unfold isTicker
  rw [List.contains_iff_mem]
  constructor
  · intro h
    have htext := (tickerText_take h).2
    rwa [List.take_length] at htext
  · exact mem_tickerLengths_of_text

/-- Capitals and dots. -/
theorem TickerText.chars {t : PyStr} (h : TickerText t) :
    ∀ c ∈ t, c = 46 ∨ (65 ≤ c ∧ c ≤ 90) := by
  obtain ⟨letters, suffix, rfl, -, -, hall, hsuffix⟩ := h
  have hupper : ∀ {c}, isUpperLetter c = true → 65 ≤ c ∧ c ≤ 90 := by
    intro c hc
    simpa [isUpperLetter] using hc
  intro c hc
  obtain hc | hc := List.mem_append.1 hc
  · exact Or.inr (hupper (hall c hc))
  obtain rfl | ⟨share, rfl, -, -, hshare⟩ := hsuffix
  · cases hc
  obtain rfl | hc := List.mem_cons.1 hc
  · exact Or.inl rfl
  · exact Or.inr (hupper (hshare c hc))

/-- A matched text is matched as a whole. -/
theorem isTicker_take {s : PyStr} {n : Nat} (h : n ∈ tickerLengths s) :
    isTicker (s.take n) = true := isTicker_iff.2 (tickerText_take h).2

/-- A ticker found in a task has one of the possible lengths. -/
theorem taskTicker_mem {lib : PyLib} {before : Option Nat} {s : PyStr} {n : Nat}
    (h : taskTicker lib before s = some n) : n ∈ tickerLengths s := by
  unfold taskTicker at h
  split at h
  · exact List.mem_of_find?_eq_some h
  · cases h

/-- The words found in a task are tickers. -/
theorem isTicker_of_found {lib : PyLib} {skip : Nat} {before : Option Nat} {s : PyStr} :
    ∀ t ∈ findTickers lib skip before s, isTicker t = true := by
  fun_induction findTickers lib skip before s with
  | case1 skip before => simp
  | case2 skip before c s ih => exact ih
  | case3 before c s hnone ih => exact ih
  | case4 before c s n hsome ih =>
      exact List.forall_mem_cons.2 ⟨isTicker_take (taskTicker_mem hsome), ih⟩

/-! ## The symbols of the terms -/

/-- Only tickers are kept. -/
theorem isTicker_of_kept {acc : List PyStr} {xs : List Json}
    (hacc : ∀ t ∈ acc, isTicker t = true) : ∀ t ∈ keepTickers acc xs, isTicker t = true := by
  have hsnoc : ∀ {acc : List PyStr} {value : PyStr}, (∀ t ∈ acc, isTicker t = true) →
      isTicker value = true → ∀ t ∈ acc ++ [value], isTicker t = true := by
    intro acc value hacc hvalue t ht
    obtain ht | ht := List.mem_append.1 ht
    · exact hacc t ht
    · obtain rfl := List.mem_singleton.1 ht
      exact hvalue
  fun_induction keepTickers acc xs with
  | case1 acc => exact hacc
  | case2 acc value rest hkeep hfull =>
      exact hsnoc hacc (Bool.and_eq_true _ _ ▸ hkeep).1
  | case3 acc value rest hkeep hroom ih =>
      exact ih (hsnoc hacc (Bool.and_eq_true _ _ ▸ hkeep).1)
  | case4 acc value rest hskip ih => exact ih hacc
  | case5 acc x rest hx ih => exact ih hacc

/-- Of tickers, as many as a request may have, only duplicates are left out. -/
theorem keepTickers_tickers {acc symbols : List PyStr}
    (hticker : ∀ t ∈ symbols, isTicker t = true)
    (hroom : acc.length + symbols.length ≤ maxSymbols) :
    keepTickers acc (symbols.map .str) =
      acc ++ (symbols.filter fun s => !acc.contains s).eraseDups := by
  induction symbols generalizing acc with
  | nil => simp [keepTickers]
  | cons s symbols ih =>
      obtain ⟨hs, htail⟩ := List.forall_mem_cons.1 hticker
      rw [List.length_cons] at hroom
      rw [List.map_cons]
      by_cases hseen : acc.contains s = true
      · have hskip : keepTickers acc (.str s :: symbols.map .str) =
            keepTickers acc (symbols.map .str) := by
          simp only [keepTickers, hs, hseen, Bool.not_true, Bool.and_false, if_false,
            Bool.false_eq_true]
        have hout : (s :: symbols).filter (fun x => !acc.contains x) =
            symbols.filter fun x => !acc.contains x := by
          rw [List.filter_cons, hseen, Bool.not_true, if_neg Bool.false_ne_true]
        rw [hskip, ih htail (by omega), hout]
      · have hnew : acc.contains s = false := by simpa using hseen
        have hfilter : (symbols.filter fun x => !acc.contains x).filter (fun b => !b == s) =
            symbols.filter fun x => !(acc ++ [s]).contains x := by
          rw [List.filter_filter]
          congr 1
          funext x
          by_cases hx : x = s
          · simp [hx]
          · simp [hx]
        have hkeep : keepTickers acc (.str s :: symbols.map .str) =
            keepTickers (acc ++ [s]) (symbols.map .str) := by
          simp only [keepTickers, hs, hnew, Bool.not_false, Bool.and_true, if_true]
          split
          · rename_i hfull
            rw [List.length_append, List.length_singleton] at hfull
            obtain rfl : symbols = [] := List.length_eq_zero_iff.1 (by omega)
            rfl
          · rfl
        have hin : (s :: symbols).filter (fun x => !acc.contains x) =
            s :: symbols.filter fun x => !acc.contains x := by
          rw [List.filter_cons, hnew, Bool.not_false, if_pos rfl]
        have hlength : (acc ++ [s]).length + symbols.length ≤ maxSymbols := by
          rw [List.length_append, List.length_singleton]
          omega
        rw [hkeep, ih htail hlength, hin, List.eraseDups_cons, hfilter,
          List.append_assoc, List.singleton_append]

/-- The symbols of a task are tickers. -/
theorem isTicker_of_normalized (lib : PyLib) (loads : PyStr → Option Json) (taskJson : PyStr) :
    ∀ t ∈ (normalizeJobFields lib loads taskJson).2.1, isTicker t = true := by
  have hchoice : ∀ kept words : List PyStr, (∀ t ∈ kept, isTicker t = true) →
      (∀ t ∈ words, isTicker t = true) →
      ∀ t ∈ (if kept = [] then words.eraseDups.take maxSymbols else kept),
        isTicker t = true := by
    intro kept words hkept hwords t ht
    by_cases hnone : kept = []
    · rw [if_pos hnone] at ht
      exact hwords t (List.mem_eraseDups.1 (List.mem_of_mem_take ht))
    · rw [if_neg hnone] at ht
      exact hkept t ht
  unfold normalizeJobFields
  refine hchoice _ _ ?_ isTicker_of_found
  split
  · exact isTicker_of_kept (by simp)
  · simp

/-! ## The task read back -/

section task

variable (number : PyStr → Deliverable.Double) (float : Deliverable.Double → PyFloat)

/-- A list of strings is read back string by string. -/
theorem mapItems_str (symbols : List PyStr) :
    Doc.mapItems loadedStr (symbols.map .str) = (symbols.map loadedStr).map .str := by
  induction symbols with
  | nil => rfl
  | cons s symbols ih => simp [Doc.mapItems, Doc.mapStr, ih]

/-- A list of strings is loaded as it is. -/
theorem loadItems_str (symbols : List PyStr) :
    loadItems number (symbols.map .str) = some (symbols.map .str) := by
  induction symbols with
  | nil => rfl
  | cons s symbols ih => simp [loadItems, load, ih]

/-- Loaded strings are strings of JSON. -/
theorem loadedItems_str (symbols : List PyStr) :
    loadedItems float (symbols.map .str) = symbols.map .str := by
  induction symbols with
  | nil => rfl
  | cons s symbols ih => simp [loadedItems, loadedJson, ih]

/-- The words of a task's document can be printed. -/
theorem taskDoc_worded (symbols : List PyStr) (analysisType : PyStr) :
    (taskDoc symbols analysisType).Worded := by
  have hsymbols : (Doc.arr (symbols.map .str)).Worded := by
    refine .arr ?_
    intro d hd
    obtain ⟨s, -, rfl⟩ := List.mem_map.1 hd
    exact .str s
  have hterms : (Doc.obj [(py "symbols", .arr (symbols.map .str)),
      (py "analysis_type", .str analysisType)]).Worded :=
    .obj (List.forall_mem_cons.2 ⟨hsymbols, List.forall_mem_singleton.2 (.str _)⟩)
  exact .obj (List.forall_mem_cons.2 ⟨.str _, List.forall_mem_singleton.2 hterms⟩)

/-- The task is read back, its strings as their literals are read. -/
theorem jsonLoads_task (symbols : List PyStr) (analysisType : PyStr) :
    jsonLoads number float (taskDoc symbols analysisType).spaced =
      some (.obj [(py "task", .str (loadedStr (py "Analyze " ++ PyStr.join (py ", ") symbols))),
        (py "terms", .obj [(py "symbols", .arr ((symbols.map loadedStr).map .str)),
          (py "analysis_type", .str (loadedStr analysisType))])]) := by
  have hkeys : ∀ key ∈ [py "task", py "terms", py "symbols", py "analysis_type"],
      loadedStr key = key := by
    intro key hkey
    have hascii : ∀ key ∈ [py "task", py "terms", py "symbols", py "analysis_type"],
        ∀ c ∈ key, c < 0x80 := by decide
    exact loadedStr_ascii (hascii key hkey)
  simp only [List.forall_mem_cons] at hkeys
  obtain ⟨htask, hterms, hsymbols, htype, -⟩ := hkeys
  have hread := Doc.read_spaced (taskDoc_worded symbols analysisType) ok_loadedStr
  have hmap : (taskDoc symbols analysisType).mapStr loadedStr =
      .obj [(py "task", .str (loadedStr (py "Analyze " ++ PyStr.join (py ", ") symbols))),
        (py "terms", .obj [(py "symbols", .arr ((symbols.map loadedStr).map .str)),
          (py "analysis_type", .str (loadedStr analysisType))])] := by
    simp only [taskDoc, Doc.mapStr, Doc.mapEntries, mapItems_str, htask, hterms, hsymbols, htype]
  have hterms' : dictOf [(py "symbols", Loaded.list ((symbols.map loadedStr).map .str)),
      (py "analysis_type", Loaded.str (loadedStr analysisType))] =
      [(py "symbols", Loaded.list ((symbols.map loadedStr).map .str)),
        (py "analysis_type", Loaded.str (loadedStr analysisType))] :=
    dictOf_of_nodup (by simp; decide)
  unfold jsonLoads loads
  rw [hread, Option.bind_some, hmap]
  simp only [load, loadEntries, loadItems_str, Option.bind_some, Option.map_some, hterms']
  rw [dictOf_of_nodup (by simp; decide)]
  simp only [loadedJson, loadedDict, loadedItems_str]

/-- The symbols of the task: the tickers among them, or those of its words. -/
theorem normalized_symbols (lib : PyLib) (symbols : List PyStr) (analysisType : PyStr) :
    (normalizeJobFields lib (jsonLoads number float)
      (taskDoc symbols analysisType).spaced).2.1 =
      let kept := keepTickers [] ((symbols.map loadedStr).map .str)
      if kept = [] then
        (findTickers lib 0 none
          (loadedStr (py "Analyze " ++ PyStr.join (py ", ") symbols))).eraseDups.take maxSymbols
      else kept := by
  unfold normalizeJobFields
  rw [jsonLoads_task]
  have hterms : (py "terms" == py "task") = false := by decide
  simp only [dictGet, List.lookup_cons, hterms, beq_self_eq_true]

/-- A task of tickers gives back its symbols without duplicates. -/
theorem normalized_tickers (lib : PyLib) {symbols : List PyStr} (hne : symbols ≠ [])
    (hroom : symbols.length ≤ maxSymbols) (hticker : ∀ t ∈ symbols, isTicker t = true)
    (analysisType : PyStr) :
    (normalizeJobFields lib (jsonLoads number float)
      (taskDoc symbols analysisType).spaced).2.1 = symbols.eraseDups := by
  have hplain : symbols.map loadedStr = symbols := by
    refine (List.map_congr_left ?_).trans (List.map_id symbols)
    intro t ht
    refine loadedStr_ascii ?_
    intro c hc
    have := (isTicker_iff.1 (hticker t ht)).chars c hc
    omega
  have hempty : ([] : List PyStr).length + symbols.length ≤ maxSymbols := by simpa using hroom
  have hkept := keepTickers_tickers hticker hempty
  have hall : symbols.filter (fun s => !([] : List PyStr).contains s) = symbols := by simp
  rw [hall, List.nil_append] at hkept
  have hsome : symbols.eraseDups ≠ [] := by
    obtain ⟨t, ht⟩ := List.exists_mem_of_ne_nil _ hne
    exact List.ne_nil_of_mem (List.mem_eraseDups.2 ht)
  rw [normalized_symbols, hplain]
  dsimp only
  rw [hkept, if_neg hsome]

end task

/-! ## Admission -/

variable {D : Deployment} {request : List (PyStr × Json)} {normalized : Json} {r : JobRecord}

/-- The symbols of a normalized request. -/
def admittedSymbols : Json → List PyStr
  | .obj kvs =>
      match dictGet kvs (py "symbols") with
      | some (.arr xs) => (strings xs).getD []
      | _ => []
  | _ => []

/-- A list of strings is read as these. -/
theorem strings_str (symbols : List PyStr) : strings (symbols.map .str) = some symbols := by
  induction symbols with
  | nil => rfl
  | cons s symbols ih => simp [strings, ih]

/-- A list of strings is stored string by string. -/
theorem reloadList_str (symbols : List PyStr) :
    Json.reloadList (symbols.map .str) = (symbols.map rejoin).map .str := by
  induction symbols with
  | nil => rfl
  | cons s symbols ih => simp [Json.reloadList, Json.reload, ih]

/-- What an admitted request looks like. -/
theorem normalizeRequest_some (h : normalizeRequest D request = some normalized) :
    ∃ analysisType portfolio riskProfile,
      normalized = .obj [(py "symbols", .arr ((admittedSymbols normalized).map .str)),
        (py "analysisType", .str analysisType), (py "portfolio", .arr portfolio),
        (py "riskProfile", .obj riskProfile)] ∧
      admittedSymbols normalized ≠ [] ∧ (admittedSymbols normalized).length ≤ maxSymbols ∧
      ∀ s ∈ admittedSymbols normalized, isSymbol D s = true := by
  unfold normalizeRequest at h
  extract_lets lib symbols at h
  by_cases hbad : ¬ (1 ≤ symbols.length ∧ symbols.length ≤ 10) ∨ ¬ symbols.all (isSymbol D)
  · rw [if_pos hbad] at h
    cases h
  rw [if_neg hbad] at h
  obtain ⟨hrange, hsymbol⟩ := not_or.1 hbad
  obtain ⟨hpos, hmost⟩ := not_not.1 hrange
  split at h
  · split at h
    · cases h
    · split at h
      · cases h
      · obtain rfl := Option.some.inj h
        have hallowedted : ∀ rest, admittedSymbols (.obj ((py "symbols",
            .arr (symbols.map .str)) :: rest)) = symbols := by
          intro rest
          simp [admittedSymbols, dictGet, strings_str]
        rw [hallowedted]
        refine ⟨_, _, _, rfl, ?_, hmost, List.all_eq_true.1 (not_not.1 hsymbol)⟩
        exact List.ne_nil_of_length_pos hpos
  · cases h

/-- The stored request still has the admitted symbols. -/
theorem reload_normalized {symbols : List PyStr} {analysisType : PyStr} {portfolio : List Json}
    {riskProfile : List (PyStr × Json)} :
    (Json.obj [(py "symbols", .arr (symbols.map .str)), (py "analysisType", .str analysisType),
      (py "portfolio", .arr portfolio), (py "riskProfile", .obj riskProfile)]).reload =
      .obj [(py "symbols", .arr ((symbols.map rejoin).map .str)),
        (py "analysisType", .str (rejoin analysisType)), (py "portfolio", (Json.arr portfolio).reload),
        (py "riskProfile", (Json.obj riskProfile).reload)] := by
  have hkeys : rejoin (py "symbols") = py "symbols" ∧
      rejoin (py "analysisType") = py "analysisType" ∧
      rejoin (py "portfolio") = py "portfolio" ∧
      rejoin (py "riskProfile") = py "riskProfile" := by decide
  obtain ⟨hsymbols, htype, hportfolio, hrisk⟩ := hkeys
  have hdistinct : [py "symbols", py "analysisType", py "portfolio", py "riskProfile"].Nodup := by
    decide
  have hlist := reloadList_str symbols
  simp only [Json.reload, Json.reloadObj, hsymbols, htype, hportfolio, hrisk, hlist]
  exact congrArg Json.obj (if_pos hdistinct)

/-! ## What the stream is called with -/

/-- A call of the stream is made for these symbols, by its prompt and by the
list it is handed. -/
def Eff.Hands (symbols : List PyStr) : Eff → Prop
  | .streamWork _ _ prompt _ handed =>
      handed = symbols ∧ stocksOf prompt = PyStr.join (py ", ") symbols
  | _ => True

/-- Every inner call hands the same prompt and the same symbols. -/
theorem consumeLoop_hands {prompt : PyStr} {handed symbols : List PyStr}
    (hhanded : handed = symbols) (hprompt : stocksOf prompt = PyStr.join (py ", ") symbols) :
    ∀ remaining, Prog.Within (Eff.Hands symbols) (consumeLoop r prompt handed remaining) := by
  intro remaining
  induction remaining with
  | zero => exact Async.within_throw _
  | succ remaining ih =>
      have honce : Prog.Within (Eff.Hands symbols)
          (consumeReportOnce r prompt handed (3 - remaining)) := by
        refine Async.within_bind (Async.within_await ⟨hhanded, hprompt⟩) fun _ => ?_
        refine Async.within_bind (Async.within_await trivial) fun reply => ?_
        refine Async.within_bind (Async.within_ofExcept _) fun _ => ?_
        split
        · exact Async.within_throw _
        · exact Async.within_pure _
      have hwait : Prog.Within (Eff.Hands symbols)
          (waitFor (consumeReportOnce r prompt handed (3 - remaining))) := by
        refine Async.within_bind (Async.within_attempt honce) fun result => ?_
        split
        · refine Async.within_bind (Async.within_await trivial) fun late => ?_
          split
          · exact Async.within_throw _
          · exact Async.within_throw _
        · exact Async.within_ofExcept _
      refine Async.within_bind (Async.within_attempt hwait) fun result => ?_
      split
      · exact Async.within_pure _
      · split
        · exact Async.within_throw _
        · exact ih
      · exact Async.within_throw _

/-- The first thing the loop does is to call the stream. -/
theorem consumeLoop_first {prompt : PyStr} {handed symbols : List PyStr}
    (h : Prog.Within (Eff.Hands symbols) (consumeLoop r prompt handed 3)) :
    handed = symbols ∧ stocksOf prompt = PyStr.join (py ", ") symbols := by
  obtain ⟨k, hk⟩ : ∃ k, consumeLoop r prompt handed 3 = Prog.op (.streamWork r.jobId
      (r.leaseOwner.getD []) prompt (sessionId r 1) handed) k := ⟨_, rfl⟩
  rw [hk] at h
  cases h with
  | op effect rest => exact effect

/-- The stocks of a prompt are its list of symbols. -/
theorem stocksOf_prompt {lib : PyLib} {loads : PyStr → Option Json} {taskJson : PyStr}
    (rest : List PyStr → PyStr → Json → Json → PyStr) (portfolio riskProfile : Json)
    (hline : ∀ c ∈ symbolList (normalizeJobFields lib loads taskJson).2.1, c ≠ 10) :
    stocksOf (buildStockAnalysisPrompt lib loads rest taskJson portfolio riskProfile).1 =
      symbolList (normalizeJobFields lib loads taskJson).2.1 := by
  unfold stocksOf buildStockAnalysisPrompt
  dsimp only
  rw [List.append_assoc, List.drop_left, List.takeWhile_append_of_pos (by simpa using hline)]
  simp

/-- The stocks of a prompt stand on one line. -/
theorem symbolList_line {symbols : List PyStr} (h : ∀ t ∈ symbols, isTicker t = true) :
    ∀ c ∈ symbolList symbols, c ≠ 10 := by
  intro c hc
  unfold symbolList at hc
  by_cases hnone : symbols = []
  · rw [if_pos hnone] at hc
    have hplain : ∀ c ∈ py "the requested stocks", c ≠ 10 := by decide
    exact hplain c hc
  · rw [if_neg hnone] at hc
    obtain hc | ⟨t, ht, hc⟩ := PyStr.mem_join hc
    · have hsep : ∀ c ∈ py ", ", c ≠ 10 := by decide
      exact hsep c hc
    · have := (isTicker_iff.1 (h t ht)).chars c hc
      omega

/-- Admitted symbols never read as the words for no symbols. -/
theorem join_ne_requested (hascii : D.verify.lib.Ascii) {symbols : List PyStr}
    (hsymbol : ∀ s ∈ symbols, isSymbol D s = true) :
    PyStr.join (py ", ") symbols ≠ py "the requested stocks" := by
  intro heq
  match symbols, hsymbol, heq with
  | [], _, heq => exact absurd heq (by decide)
  | [s], hsymbol, heq =>
      -- the words have a blank, and no symbol has one
      have hblank : 32 ∈ s := by
        rw [show s = py "the requested stocks" from heq]
        decide
      have hs := hsymbol s List.mem_cons_self
      unfold isSymbol at hs
      have hchar := List.all_eq_true.1 (Bool.and_eq_true _ _ ▸ hs).2 32 hblank
      rw [hascii.isAlnum 32 (by decide)] at hchar
      exact absurd hchar (by decide)
  | s :: t :: symbols, _, heq =>
      -- two symbols have a comma between them, and the words have none
      have hcomma : 44 ∈ PyStr.join (py ", ") (s :: t :: symbols) := by
        rw [join_cons]
        exact List.mem_append_right _ (by simp [show (44 : Nat) ∈ py ", " by decide])
      rw [heq] at hcomma
      exact absurd hcomma (by decide)

/-- An analysis, with the task made of the symbols of its request. -/
theorem consumeReport_eq {number : PyStr → Deliverable.Double}
    {float : Deliverable.Double → PyFloat} {rest : List PyStr → PyStr → Json → Json → PyStr}
    (hbuild : ∀ taskJson portfolio riskProfile,
      D.buildPrompt taskJson portfolio riskProfile = .ok (buildStockAnalysisPrompt D.verify.lib
        (jsonLoads number float) rest taskJson portfolio riskProfile))
    (symbols : List PyStr) {kvs : List (PyStr × Json)} (hrequest : r.request = .obj kvs)
    (hsymbols : dictGet kvs (py "symbols") = some (.arr (symbols.map .str))) :
    ∃ analysisType portfolio riskProfile,
      let built := buildStockAnalysisPrompt D.verify.lib (jsonLoads number float) rest
        (taskDoc symbols analysisType).spaced portfolio riskProfile
      consumeReport D r =
        consumeLoop r built.1 (if built.2 = [] then symbols else built.2) 3 := by
  refine ⟨pyStr D.verify.lib (getOr kvs (py "analysisType") (.str (py "comprehensive"))),
    getOr kvs (py "portfolio") (.arr []), getOr kvs (py "riskProfile") (.obj []), ?_⟩
  unfold consumeReport
  simp only [hrequest, hsymbols, strings_str, hbuild, Async.ofExcept_ok_bind]

/-- **Symbols are preserved.**  Whatever happens during an analysis, its
prompts and the calls of its stream are for the admitted symbols without
duplicates exactly when every admitted symbol is a ticker. -/
theorem symbols_preserved (hascii : D.verify.lib.Ascii) {number : PyStr → Deliverable.Double}
    {float : Deliverable.Double → PyFloat} {rest : List PyStr → PyStr → Json → Json → PyStr}
    (hbuild : ∀ taskJson portfolio riskProfile,
      D.buildPrompt taskJson portfolio riskProfile = .ok (buildStockAnalysisPrompt D.verify.lib
        (jsonLoads number float) rest taskJson portfolio riskProfile))
    (hallowed : normalizeRequest D request = some normalized)
    (hstored : r.request = normalized.reload) :
    Prog.Within (Eff.Hands (admittedSymbols normalized).eraseDups) (consumeReport D r) ↔
      ∀ s ∈ admittedSymbols normalized, isTicker s = true := by
  obtain ⟨_, _, _, hnormalized, hne, hroom, hsymbol⟩ := normalizeRequest_some hallowed
  have hrequest := hstored
  rw [hnormalized, reload_normalized] at hrequest
  obtain ⟨analysisType, portfolio, riskProfile, hreport⟩ := consumeReport_eq hbuild
    ((admittedSymbols normalized).map rejoin) hrequest (by simp [dictGet])
  have hline := symbolList_line (isTicker_of_normalized D.verify.lib (jsonLoads number float)
    (taskDoc ((admittedSymbols normalized).map rejoin) analysisType).spaced)
  have hstocks := stocksOf_prompt rest portfolio riskProfile hline
  dsimp only at hreport
  rw [hreport]
  constructor
  · intro hwithin s hs
    obtain ⟨hhanded, hprompt⟩ := consumeLoop_first hwithin
    have hs' := List.mem_eraseDups.2 hs
    split at hhanded
    · rename_i hnone
      have hnone' : (normalizeJobFields D.verify.lib (jsonLoads number float)
          (taskDoc ((admittedSymbols normalized).map rejoin) analysisType).spaced).2.1 = [] := hnone
      rw [hstocks, hnone'] at hprompt
      refine absurd hprompt.symm (join_ne_requested hascii ?_)
      intro s hs
      exact hsymbol s (List.mem_eraseDups.1 hs)
    · rw [← hhanded] at hs'
      exact isTicker_of_normalized _ _ _ s hs'
  · intro hticker
    have hplain : (admittedSymbols normalized).map rejoin = admittedSymbols normalized := by
      refine (List.map_congr_left ?_).trans (List.map_id _)
      intro s hs
      refine (rejoin_eq_self_iff s).2 (noPair_of_ascii ?_)
      intro c hc
      have := (isTicker_iff.1 (hticker s hs)).chars c hc
      omega
    rw [hplain] at hstocks ⊢
    have hfields := normalized_tickers number float D.verify.lib hne hroom hticker analysisType
    have hsome : (admittedSymbols normalized).eraseDups ≠ [] := by
      obtain ⟨s, hs⟩ := List.exists_mem_of_ne_nil _ hne
      exact List.ne_nil_of_mem (List.mem_eraseDups.2 hs)
    have hbuilt : (buildStockAnalysisPrompt D.verify.lib (jsonLoads number float) rest
        (taskDoc (admittedSymbols normalized) analysisType).spaced portfolio riskProfile).2 =
        (admittedSymbols normalized).eraseDups := hfields
    refine consumeLoop_hands ?_ ?_ 3
    · rw [hbuilt, if_neg hsome]
    · rw [hstocks, hfields, symbolList, if_neg hsome]

/-! ## A run of the sample deployment -/

/-- The sample deployment with its prompts. -/
def promptSample : Deployment :=
  { sample with
    buildPrompt := fun taskJson portfolio riskProfile => .ok (buildStockAnalysisPrompt sampleLib
      (jsonLoads (fun _ => .nan) (fun _ => .nan)) (fun _ _ _ _ => []) taskJson portfolio
      riskProfile) }

/-- A claimed job of the sample deployment. -/
def claimedRecord (request : Json) : JobRecord where
  jobId := sampleJob
  paymentKey := py "09d869214130f81d330643f0f62f468a"
  paymentStatus := .settled
  paymentMode := py "paid"
  asset := uToken.asset
  paymentProofDigest := none
  pendingSettlementReference := none
  settlementReference := some (py "0xabc")
  reportId := none
  address := samplePayer
  status := .running
  request := request
  jobTokenHash := []
  competitionEventId := []
  settledAt := some 1
  attempt := 1
  leaseOwner := some (py "worker-0")
  leaseExpiresAt := some 120000
  createdAt := 1
  updatedAt := 1
  expiresAt := 604800001
  errorCode := none
  retryable := none
  rateLimitWalletDigest := none
  rateLimitReservationId := none
  rateLimitReservedAt := none
  rateLimitState := none

/-- A normalized request for these symbols and nothing else. -/
def requestFor (symbols : List PyStr) : Json :=
  .obj [(py "symbols", .arr (symbols.map .str)), (py "analysisType", .str (py "comprehensive")),
    (py "portfolio", .arr []), (py "riskProfile", .obj [])]

theorem symbols_preserved_bnb :
    normalizeRequest promptSample [(py "symbols", .str (py "bnb, brk.b, bnb"))] =
        some (requestFor [py "BNB", py "BRK.B", py "BNB"]) ∧
      (Prog.Within (Eff.Hands [py "BNB", py "BRK.B"])
          (consumeReport promptSample
            (claimedRecord (requestFor [py "BNB", py "BRK.B", py "BNB"]).reload)) ↔
        ∀ s ∈ [py "BNB", py "BRK.B", py "BNB"], isTicker s = true) := by
  have hallowed : normalizeRequest promptSample [(py "symbols", .str (py "bnb, brk.b, bnb"))] =
      some (requestFor [py "BNB", py "BRK.B", py "BNB"]) := rfl
  exact ⟨hallowed, symbols_preserved sampleLib_ascii (D := promptSample) (fun _ _ _ => rfl) hallowed
    rfl⟩

/-- A request for `bnb, btc-usd` is admitted and stored with both symbols, and
every analysis of it is made for `BNB` alone. -/
theorem symbols_dropped :
    normalizeRequest promptSample [(py "symbols", .str (py "bnb, btc-usd"))] =
        some (requestFor [py "BNB", py "BTC-USD"]) ∧
      Prog.Within (Eff.Hands [py "BNB"]) (consumeReport promptSample
        (claimedRecord (requestFor [py "BNB", py "BTC-USD"]).reload)) ∧
      ¬ Prog.Within
        (Eff.Hands (admittedSymbols (requestFor [py "BNB", py "BTC-USD"])).eraseDups)
        (consumeReport promptSample
          (claimedRecord (requestFor [py "BNB", py "BTC-USD"]).reload)) := by
  obtain ⟨analysisType, portfolio, riskProfile, hreport⟩ := consumeReport_eq (D := promptSample)
    (r := claimedRecord (requestFor [py "BNB", py "BTC-USD"]).reload)
    (fun _ _ _ => rfl) [py "BNB", py "BTC-USD"] reload_normalized rfl
  have hfields := normalized_symbols (fun _ => .nan) (fun _ => .nan) sampleLib
    [py "BNB", py "BTC-USD"] analysisType
  have hkept : keepTickers [] (([py "BNB", py "BTC-USD"].map loadedStr).map .str) =
      [py "BNB"] := by decide +kernel
  dsimp only at hfields hreport
  rw [hkept, if_neg (List.cons_ne_nil _ _)] at hfields
  have hstocks := stocksOf_prompt (fun _ _ _ _ => []) portfolio riskProfile
    (symbolList_line (isTicker_of_normalized sampleLib
      (jsonLoads (fun _ => .nan) (fun _ => .nan))
      (taskDoc [py "BNB", py "BTC-USD"] analysisType).spaced))
  rw [hfields] at hstocks
  have hbuilt : (buildStockAnalysisPrompt sampleLib (jsonLoads (fun _ => .nan) (fun _ => .nan))
      (fun _ _ _ _ => []) (taskDoc [py "BNB", py "BTC-USD"] analysisType).spaced portfolio
      riskProfile).2 = [py "BNB"] := hfields
  refine ⟨rfl, ?_, ?_⟩
  · rw [hreport]
    refine consumeLoop_hands ?_ hstocks 3
    rw [show promptSample.verify.lib = sampleLib from rfl, hbuilt,
      if_neg (List.cons_ne_nil _ _)]
  · intro hwithin
    rw [hreport] at hwithin
    obtain ⟨hhanded, -⟩ := consumeLoop_first hwithin
    rw [show promptSample.verify.lib = sampleLib from rfl, hbuilt,
      if_neg (List.cons_ne_nil _ _)] at hhanded
    exact absurd hhanded (by decide +kernel)

end X402
