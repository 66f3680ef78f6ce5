import StockAnalyst.S3Storage

/-!
# The URL of a stored object

How `urlsplit` splits the public base and the URL of a key under it, and that
`_key_from_url` finds the key and the digest again exactly when the base holds
no `?` or `#`.
-/

namespace S3Storage

open Python

/-! ## URLs under a base -/

/-- Nothing, or text that ends a network location. -/
def Delimited (tail : PyStr) : Prop := ∀ c ∈ tail.head?, isNetlocChar c = false

/-- What `urlsplit` makes of the text behind the network location. -/
def splitTail (scheme netloc tail : PyStr) : SplitResult :=
  ⟨scheme, netloc, before 63 (before 35 tail), after 63 (before 35 tail), after 35 tail⟩

/-- The network location ends at the first delimiter. -/
theorem splitNetloc_delimited {netloc tail : PyStr} (hchars : ∀ c ∈ netloc, isNetlocChar c = true)
    (htail : Delimited tail) : splitNetloc (47 :: 47 :: (netloc ++ tail)) = (netloc, tail) := by
  have hstop : tail.takeWhile isNetlocChar = [] ∧ tail.dropWhile isNetlocChar = tail := by
    cases tail with
    | nil => exact ⟨rfl, rfl⟩
    | cons c rest =>
        have hc : isNetlocChar c = false := htail c rfl
        simp [hc]
  rw [splitNetloc, List.takeWhile_append_of_pos hchars, List.dropWhile_append_of_pos hchars,
    hstop.1, hstop.2, List.append_nil]

/-- What follows the network location begins with a delimiter. -/
theorem delimited_of_splitNetloc {text netloc tail : PyStr} (hne : netloc ≠ [])
    (h : splitNetloc text = (netloc, tail)) : Delimited tail := by
  unfold splitNetloc at h
  split at h
  · obtain ⟨-, rfl⟩ := Prod.mk.inj h
    intro c hc
    have hfirst := List.head?_dropWhile_not isNetlocChar (by assumption)
    rw [hc] at hfirst
    simpa using hfirst
  · exact absurd (Prod.mk.inj h).1.symm hne

/-- A URL with a scheme and a network location, in its parts. -/
theorem urlsplit_parts {net : NetLib} {url : PyStr} {parsed : SplitResult}
    (h : urlsplit net url = some parsed) (hscheme : parsed.scheme ≠ [])
    (hnetloc : parsed.netloc ≠ []) :
    ∃ head tail, url = head ++ 58 :: 47 :: 47 :: (parsed.netloc ++ tail) ∧
      (∀ c ∈ head, isSchemeChar c = true) ∧ (∀ c ∈ parsed.netloc, isNetlocChar c = true) ∧
      Delimited tail ∧
      parsed = splitTail parsed.scheme parsed.netloc tail ∧
      ∀ tail', Delimited tail' →
        urlsplit net (head ++ 58 :: 47 :: 47 :: (parsed.netloc ++ tail')) =
          some (splitTail parsed.scheme parsed.netloc tail') := by
  unfold urlsplit at h
  rcases hsplit : splitScheme url with ⟨scheme, rest⟩
  rcases hlocation : splitNetloc rest with ⟨netloc, tail⟩
  simp only [hsplit, hlocation] at h
  by_cases hcheck : net.checkNetloc netloc = true
  · rw [if_pos hcheck] at h
    obtain rfl := Option.some.inj h
    obtain ⟨head, hurl, hhead, hscheme'⟩ := splitScheme_some hscheme hsplit
    obtain ⟨hrest, hchars, -⟩ := splitNetloc_some hnetloc hlocation
    refine ⟨head, tail, ?_, hhead, hchars, ?_, rfl, ?_⟩
    · rw [hurl, hrest]
      rfl
    · exact delimited_of_splitNetloc hnetloc hlocation
    · intro tail' htail'
      unfold urlsplit
      rw [hscheme']
      dsimp only
      rw [splitNetloc_delimited hchars htail', if_pos hcheck]
      rfl
  · rw [if_neg hcheck] at h
    cases h

/-! ## Cleaning -/

/-- Cleaning leaves a plain ending as it is. -/
theorem cleanUrl_append {a b : PyStr} (ha : a.dropWhile (· ≤ 0x20) ≠ [])
    (hb : ∀ c ∈ b, c ≠ 9 ∧ c ≠ 13 ∧ c ≠ 10) : cleanUrl (a ++ b) = cleanUrl a ++ b := by
  have hfilter : b.filter (fun c => c != 9 && c != 13 && c != 10) = b := by
    apply List.filter_eq_self.2
    intro c hc
    have := hb c hc
    simp [this]
  unfold cleanUrl
  rw [List.dropWhile_append, if_neg (by simpa using ha), List.filter_append, hfilter]

/-- Cleaning drops control characters and white space only. -/
theorem mem_cleanUrl {url : PyStr} {c : Nat} (hc : 0x20 < c) : c ∈ cleanUrl url ↔ c ∈ url := by
  have hkeep : (c != 9 && c != 13 && c != 10) = true := by
    simp only [Bool.and_eq_true, bne_iff_ne]
    omega
  have hsplit := List.takeWhile_append_dropWhile (p := (· ≤ 0x20)) (l := url)
  have hfirst : c ∉ url.takeWhile (· ≤ 0x20) := by
    intro hmem
    have := List.mem_takeWhile_imp hmem
    simp only [decide_eq_true_eq] at this
    omega
  rw [cleanUrl, List.mem_filter, and_iff_left hkeep]
  constructor
  · exact fun h => (List.dropWhile_sublist _).subset h
  · intro h
    rw [← hsplit, List.mem_append] at h
    exact h.resolve_left hfirst

/-- A text ends with the slashes that are stripped. -/
theorem rstripSlash_split (value : PyStr) :
    ∃ n, value = rstripSlash value ++ List.replicate n 47 := by
  induction value using List.reverseRecOn with
  | nil => exact ⟨0, rfl⟩
  | append_singleton value c ih =>
      by_cases hc : c = 47
      · obtain ⟨n, hn⟩ := ih
        refine ⟨n + 1, ?_⟩
        have hstrip : rstripSlash (value ++ [c]) = rstripSlash value := by
          rw [rstripSlash, List.rdropWhile_concat, if_pos (by simpa using hc)]
          rfl
        rw [hstrip, hc, List.replicate_succ', ← List.append_assoc, ← hn]
      · refine ⟨0, ?_⟩
        rw [rstripSlash, List.rdropWhile_concat, if_neg (by simpa using hc)]
        simp

/-- The parts of a base URL that has lost the slashes at its end. -/
theorem base_parts {net : NetLib} {value : PyStr} {parsed : SplitResult}
    (h : urlsplit net (cleanUrl value) = some parsed) (hscheme : parsed.scheme ≠ [])
    (hnetloc : parsed.netloc ≠ []) :
    ∃ head tail n,
      cleanUrl (rstripSlash value) = head ++ 58 :: 47 :: 47 :: (parsed.netloc ++ tail) ∧
      (∀ c ∈ head, isSchemeChar c = true) ∧ (∀ c ∈ parsed.netloc, isNetlocChar c = true) ∧
      Delimited tail ∧
      parsed = splitTail parsed.scheme parsed.netloc (tail ++ List.replicate n 47) ∧
      (rstripSlash value).dropWhile (· ≤ 0x20) ≠ [] ∧
      ∀ tail', Delimited tail' →
        urlsplit net (head ++ 58 :: 47 :: 47 :: (parsed.netloc ++ tail')) =
          some (splitTail parsed.scheme parsed.netloc tail') := by
  obtain ⟨head, tail, hurl, hhead, hchars, htail, hparsed, hsplit⟩ :=
    urlsplit_parts h hscheme hnetloc
  obtain ⟨n, hn⟩ := rstripSlash_split value
  have hstart : (rstripSlash value).dropWhile (· ≤ 0x20) ≠ [] := by
    have hcolon : 58 ∈ value := by
      rw [← mem_cleanUrl (by decide), hurl]
      simp
    rw [hn, List.mem_append] at hcolon
    intro hnil
    rw [List.dropWhile_eq_nil_iff] at hnil
    obtain hcolon | hcolon := hcolon
    · exact absurd (hnil 58 hcolon) (by decide)
    · exact absurd (List.eq_of_mem_replicate hcolon) (by decide)
  have hslashes : ∀ c ∈ List.replicate n 47, c ≠ 9 ∧ c ≠ 13 ∧ c ≠ 10 := by
    intro c hc
    rw [List.eq_of_mem_replicate hc]
    decide
  have hclean : cleanUrl (rstripSlash value) ++ List.replicate n 47 =
      (head ++ 58 :: 47 :: 47 :: parsed.netloc) ++ tail := by
    rw [← cleanUrl_append hstart hslashes, ← hn, hurl]
    simp
  obtain ⟨middle, hbase, hrest⟩ : ∃ middle,
      cleanUrl (rstripSlash value) = (head ++ 58 :: 47 :: 47 :: parsed.netloc) ++ middle ∧
        tail = middle ++ List.replicate n 47 := by
    obtain ⟨middle, hbase, hrest⟩ | ⟨middle, hlong, hrest⟩ := List.append_eq_append_iff.1 hclean
    · -- the slashes at the end do not reach into the network location
      cases middle using List.reverseRecOn with
      | nil => exact ⟨[], by simpa using hbase.symm, by simpa using hrest.symm⟩
      | append_singleton middle c =>
          have hc : c = 47 := by
            apply List.eq_of_mem_replicate (n := n)
            rw [hrest]
            simp
          have hmem : c ∈ parsed.netloc := by
            obtain ⟨front, d, hnet⟩ := List.eq_nil_or_concat parsed.netloc |>.resolve_left hnetloc
            have hbase' : (head ++ 58 :: 47 :: 47 :: front) ++ [d] =
                (cleanUrl (rstripSlash value) ++ middle) ++ [c] := by
              rw [List.append_assoc _ middle, ← hbase, hnet]
              simp
            have hlast := List.append_inj_right' hbase' rfl
            rw [hnet, (List.cons.inj hlast).1]
            simp
          exact absurd (hchars c hmem) (by rw [hc]; decide)
    · exact ⟨middle, hlong, hrest⟩
  refine ⟨head, middle, n, by simpa using hbase, hhead, hchars, ?_, hrest ▸ hparsed, hstart, hsplit⟩
  intro c hc
  apply htail c
  cases middle with
  | nil => cases hc
  | cons d middle => rw [hrest]; exact hc

/-! ## Configurations -/

section config

variable {rt : Runtime} {config : S3StorageConfig}

/-- The characters of a prefix and of a stem. -/
def SafeText (value : PyStr) : Prop :=
  value.head?.any isAlphanumeric = true ∧ ∀ c ∈ value, isSegmentChar c = true ∨ c = 47

/-- What `from_env` has checked. -/
structure Configured (rt : Runtime) (config : S3StorageConfig) : Prop where
  base : ∃ value parsed, config.publicBase = rstripSlash value ∧
    urlsplit rt.net (cleanUrl value) = some parsed ∧ parsed.scheme = py "https" ∧
    parsed.netloc ≠ [] ∧ parsed.query = [] ∧ parsed.fragment = [] ∧
    (parsed.path = [] ∨ parsed.path = py "/")
  pathPrefix : SafeText config.pathPrefix

/-- A URL with a host has a network location. -/
theorem netloc_of_hostname {lib : PyLib} {parsed : SplitResult}
    (h : isFalsy (parsed.hostname lib) = false) : parsed.netloc ≠ [] := by
  intro hnil
  have hnone : parsed.hostname lib = none := by
    simp [SplitResult.hostname, SplitResult.hostinfo, hnil, before, after]
  rw [hnone] at h
  exact absurd h (by decide)

/-- Segments joined by slashes are safe. -/
theorem safeText_join {segments : List PyStr} (hne : segments ≠ [])
    (h : ∀ s ∈ segments, isSegment s = true) : SafeText (PyStr.join (py "/") segments) := by
  have hsegment : ∀ s, isSegment s = true → s.head?.any isAlphanumeric = true ∧
      ∀ c ∈ s, isSegmentChar c = true := by
    intro s hs
    simp only [isSegment, Bool.and_eq_true, List.all_eq_true] at hs
    exact ⟨hs.1.1, hs.2⟩
  have hslash : py "/" = [47] := by decide
  cases segments with
  | nil => exact absurd rfl hne
  | cons s segments =>
      obtain ⟨hhead, hchars⟩ := hsegment s (h s List.mem_cons_self)
      rw [hslash, JsonText.join_cons]
      constructor
      · rw [List.head?_append]
        cases s with
        | nil => simp at hhead
        | cons c s => exact hhead
      · intro c hc
        obtain hc | hc := List.mem_append.1 hc
        · exact Or.inl (hchars c hc)
        · obtain ⟨t, ht, hc⟩ := List.mem_flatMap.1 hc
          obtain rfl | hc := List.mem_cons.1 hc
          · exact Or.inr rfl
          · exact Or.inl ((hsegment t (h t (List.mem_cons_of_mem _ ht))).2 c hc)

/-- **An accepted environment** is a configuration. -/
theorem fromEnv_configured {env : Env} (h : S3StorageConfig.fromEnv rt env = .ok config) :
    Configured rt config := by
  unfold S3StorageConfig.fromEnv at h
  dsimp only at h
  split at h
  · cases h
  split at h
  · cases h
  split at h
  · cases h
  cases hparsed : urlsplitText rt.net ((env.get (py "DELIVERABLE_PUBLIC_BASE") []).strip rt.net.lib)
    with
  | error e =>
      rw [hparsed] at h
      cases h
  | ok parsed =>
      rw [hparsed] at h
      simp only [Except.bind] at h
      split at h
      · cases h
      split at h
      · cases h
      split at h
      · cases h
      · rename_i horigin hsegments
        obtain rfl := Except.ok.inj h
        have horigin' : isOrigin rt.net parsed = true := by simpa using horigin
        simp only [isOrigin, Bool.and_eq_true, decide_eq_true_eq, Bool.or_eq_true,
          Bool.not_eq_true', List.isEmpty_iff] at horigin'
        obtain ⟨⟨⟨⟨⟨⟨hscheme, hhost⟩, -⟩, -⟩, hquery⟩, hfragment⟩, hpath⟩ := horigin'
        simp only [Bool.or_eq_true, not_or, Bool.not_eq_true, List.any_eq_false,
          Bool.not_eq_false'] at hsegments
        unfold urlsplitText at hparsed
        split at hparsed
        · cases hparsed
        · rename_i parsed' hsplit
          obtain rfl := Except.ok.inj hparsed
          refine ⟨⟨_, _, rfl, hsplit, hscheme, netloc_of_hostname hhost, hquery, hfragment,
            hpath⟩, ?_⟩
          apply safeText_join
          · cases stripSlashes (((env.get (py "DELIVERABLE_S3_PREFIX") (py "deliverables"))).strip
                rt.net.lib) with
            | nil => simp [PyStr.split]
            | cons c rest =>
                unfold PyStr.split
                split_ifs
                · simp
                · split <;> simp
          · intro s hs
            simpa using hsegments.2 s hs

/-! ## The URL of an object -/

/-- Behind a separator and more text there is something. -/
theorem after_of_mem {sep : Nat} {s t : PyStr} (h : sep ∈ s) (ht : t ≠ []) :
    after sep (s ++ t) ≠ [] := by
  have hne : s.dropWhile (· != sep) ≠ [] := by
    intro hnil
    have := List.dropWhile_eq_nil_iff.1 hnil sep h
    simp at this
  unfold after
  rw [List.dropWhile_append, if_neg (by simpa using hne)]
  cases hdrop : s.dropWhile (· != sep) with
  | nil => exact absurd hdrop hne
  | cons c rest => simp [ht]

/-- The base holds neither a query nor a fragment, not even an empty one. -/
def S3StorageConfig.Plain (config : S3StorageConfig) : Prop :=
  63 ∉ config.publicBase ∧ 35 ∉ config.publicBase

/-- How the base and the URL of a key under it are split. -/
theorem urlsplit_key (h : Configured rt config) {key : PyStr}
    (hkey : ∀ c ∈ key, isSegmentChar c = true ∨ c = 47) :
    ∃ netloc tail,
      urlsplitText rt.net config.publicBase = .ok (splitTail (py "https") netloc tail) ∧
      urlsplitText rt.net (config.publicBase ++ 47 :: key) =
        .ok (splitTail (py "https") netloc (tail ++ 47 :: key)) ∧
      (config.Plain ↔ 63 ∉ tail ∧ 35 ∉ tail) ∧
      (config.Plain → tail = [] ∨ tail = [47]) := by
  obtain ⟨value, parsed, hbase, hparsed, hscheme, hnetloc, hquery, hfragment, hpath⟩ := h.base
  have hsome : parsed.scheme ≠ [] := by
    rw [hscheme]
    decide
  obtain ⟨head, tail, n, hclean, hhead, hchars, htail, hshape, hstart, hsplit⟩ :=
    base_parts hparsed hsome hnetloc
  rw [hscheme] at hsplit hshape
  have hdelim : Delimited (tail ++ 47 :: key) := by
    intro c hc
    cases tail with
    | nil =>
        obtain rfl := Option.some.inj hc
        decide
    | cons d tail => exact htail c hc
  have hkey' : ∀ c ∈ 47 :: key, c ≠ 9 ∧ c ≠ 13 ∧ c ≠ 10 := by
    intro c hc
    have hclass : isSegmentChar c = true ∨ c = 47 :=
      (List.mem_cons.1 hc).elim (fun heq => Or.inr heq) (hkey c)
    obtain hclass | rfl := hclass
    · refine ⟨?_, ?_, ?_⟩
      · rintro rfl
        exact absurd hclass (by decide)
      · rintro rfl
        exact absurd hclass (by decide)
      · rintro rfl
        exact absurd hclass (by decide)
    · decide
  have hmem : ∀ c, 0x20 < c → c ≠ 58 → c ≠ 47 → isSchemeChar c = false → isNetlocChar c = false →
      (c ∈ config.publicBase ↔ c ∈ tail) := by
    intro c hlow hcolon hslash hschemeChar hnetlocChar
    rw [hbase, ← mem_cleanUrl hlow, hclean]
    simp only [List.mem_append, List.mem_cons]
    constructor
    · rintro (hc | hc | hc | hc | hc | hc)
      · exact absurd (hhead c hc) (by simp [hschemeChar])
      · exact absurd hc hcolon
      · exact absurd hc hslash
      · exact absurd hc hslash
      · exact absurd (hchars c hc) (by simp [hnetlocChar])
      · exact hc
    · intro hc
      simp [hc]
  have hquestion := hmem 63 (by decide) (by decide) (by decide) (by decide) (by decide)
  have hhash := hmem 35 (by decide) (by decide) (by decide) (by decide) (by decide)
  have hplain : config.Plain ↔ 63 ∉ tail ∧ 35 ∉ tail := by
    rw [S3StorageConfig.Plain, hquestion, hhash]
  refine ⟨parsed.netloc, tail, ?_, ?_, hplain, ?_⟩
  · rw [urlsplitText, hbase, hclean, hsplit tail htail]
  · have happend := cleanUrl_append hstart hkey'
    rw [urlsplitText, hbase, happend, hclean]
    have hurl := hsplit _ hdelim
    simp only [List.append_assoc, List.cons_append] at hurl ⊢
    rw [hurl]
  · intro hp
    obtain ⟨hno63, hno35⟩ := hplain.1 hp
    have hfree : ∀ c, c ∉ tail → c ≠ 47 → c ∉ tail ++ List.replicate n 47 := by
      intro c hc hne hmem
      obtain hmem | hmem := List.mem_append.1 hmem
      · exact hc hmem
      · exact hne (List.eq_of_mem_replicate hmem)
    have hpath' : parsed.path = tail ++ List.replicate n 47 := by
      rw [hshape, splitTail, before_not_mem (hfree 35 hno35 (by decide)),
        before_not_mem (hfree 63 hno63 (by decide))]
    have hslash : py "/" = [47] := by decide
    rw [hpath', hslash] at hpath
    cases tail with
    | nil => exact Or.inl rfl
    | cons c rest =>
        obtain hpath | hpath := hpath
        · cases hpath
        · have hrest : rest = [] := by
            have := (List.cons.inj hpath).2
            exact (List.append_eq_nil_iff.1 this).1
          exact Or.inr (by rw [(List.cons.inj hpath).1, hrest])

/-- A segment begins with a letter or digit and has few characters, all of
segments. -/
theorem isSegment_iff {value : PyStr} : isSegment value = true ↔
    value.head?.any isAlphanumeric = true ∧ value.length ≤ 200 ∧
      ∀ c ∈ value, isSegmentChar c = true := by
  simp only [isSegment, Bool.and_eq_true, decide_eq_true_eq, List.all_eq_true, and_assoc]

/-- A stem and a digest of 64 hexadecimal characters. -/
structure ObjectName (stem digest : PyStr) : Prop where
  stem : isSegment stem = true
  length : digest.length = 64
  hex : ∀ c ∈ digest, isHexDigit c = true

/-- The name of an object is taken apart as it was put together. -/
theorem ObjectName.matched {stem digest : PyStr} (h : ObjectName stem digest) :
    matchObject (stem ++ py "-" ++ digest ++ py ".json") = some (stem, digest) := by
  have hdash : py "-" = [45] := by decide
  have hjson : py ".json" = [46, 106, 115, 111, 110] := by decide
  have hcut : (stem ++ py "-" ++ digest ++ py ".json").length - 70 = stem.length := by
    simp [hdash, hjson, h.length]
  have hsplit : stem ++ py "-" ++ digest ++ py ".json" = stem ++ (45 :: digest ++ py ".json") := by
    simp [hdash]
  have hdigest : ((45 :: digest ++ py ".json").drop 1).take 64 = digest := by
    rw [List.cons_append, List.drop_one, List.tail_cons, ← h.length, List.take_left]
  have hend : (45 :: digest ++ py ".json").drop 65 = py ".json" := by
    rw [show 65 = (45 :: digest).length by simp [h.length], List.drop_left]
  have hlength : (45 :: digest ++ py ".json").length = 70 := by
    simp [hjson, h.length]
  have hall : digest.all isHexDigit = true := List.all_eq_true.2 h.hex
  unfold matchObject
  rw [hcut]
  simp only [hsplit, List.take_left, List.drop_left, hdigest, hend, hlength, h.stem, hall]
  rfl

/-- Hexadecimal digits are characters of segments. -/
theorem isHexDigit_segment {c : Nat} (h : isHexDigit c = true) : isSegmentChar c = true := by
  simp only [isHexDigit, isSegmentChar, isAlphanumeric, isLowerOrDigit, Bool.or_eq_true,
    Bool.and_eq_true, decide_eq_true_eq] at h ⊢
  omega

/-- The name of an object has no slash. -/
theorem ObjectName.chars {stem digest : PyStr} (h : ObjectName stem digest) :
    ∀ c ∈ stem ++ py "-" ++ digest ++ py ".json", isSegmentChar c = true := by
  intro c hc
  simp only [List.mem_append] at hc
  obtain ((hc | hc) | hc) | hc := hc
  · exact (isSegment_iff.1 h.stem).2.2 c hc
  · revert c
    decide
  · exact isHexDigit_segment (h.hex c hc)
  · revert c
    decide

/-- **The key of a URL.**  `_key_from_url` finds the key and the digest again
where the base is plain, and refuses the URL where it is not. -/
theorem keyFromUrl_object (h : Configured rt config) {stem digest : PyStr}
    (hname : ObjectName stem digest) :
    let key := config.pathPrefix ++ py "/" ++ stem ++ py "-" ++ digest ++ py ".json"
    (config.Plain → keyFromUrl rt config (config.publicBase ++ py "/" ++ key) = .ok (key, digest)) ∧
      (¬ config.Plain → keyFromUrl rt config (config.publicBase ++ py "/" ++ key) =
        .error (.storage "deliverable URL must use the configured public base")) := by
  intro key
  have hslash : py "/" = [47] := by decide
  obtain ⟨hhead, hstart⟩ := h.pathPrefix
  have hkeyEq : key =
      (config.pathPrefix ++ py "/") ++ (stem ++ py "-" ++ digest ++ py ".json") := by
    simp [key]
  have hkey : ∀ c ∈ key, isSegmentChar c = true ∨ c = 47 := by
    intro c hc
    rw [hkeyEq, hslash] at hc
    obtain hc | hc := List.mem_append.1 hc
    · obtain hc | hc := List.mem_append.1 hc
      · exact hstart c hc
      · exact Or.inr (List.mem_singleton.1 hc)
    · exact Or.inl (hname.chars c hc)
  obtain ⟨netloc, tail, hbaseSplit, hurlSplit, hplain, htail⟩ := urlsplit_key h hkey
  have hurl : config.publicBase ++ py "/" ++ key = config.publicBase ++ 47 :: key := by
    simp [hslash]
  have hnot : ∀ c, isSegmentChar c = false → c ≠ 47 → c ∉ 47 :: key := by
    intro c hclass hne hc
    obtain hc | hc := List.mem_cons.1 hc
    · exact hne hc
    · obtain hc | hc := hkey c hc
      · rw [hclass] at hc
        cases hc
      · exact hne hc
  have h63 := hnot 63 (by decide) (by decide)
  have h35 := hnot 35 (by decide) (by decide)
  have h37 := hnot 37 (by decide) (by decide)
  unfold keyFromUrl
  rw [hurl, hurlSplit, hbaseSplit]
  simp only [Except.bind]
  constructor
  · intro hp
    obtain ⟨hno63, hno35⟩ := hplain.1 hp
    have hfree : ∀ c, c ∉ tail → c ∉ 47 :: key → c ∉ tail ++ 47 :: key := by
      intro c hc hc' hmem
      exact (List.mem_append.1 hmem).elim hc hc'
    have hparts : splitTail (py "https") netloc (tail ++ 47 :: key) =
        ⟨py "https", netloc, tail ++ 47 :: key, [], []⟩ := by
      rw [splitTail, before_not_mem (hfree 35 hno35 h35), before_not_mem (hfree 63 hno63 h63),
        after_not_mem (hfree 63 hno63 h63), after_not_mem (hfree 35 hno35 h35)]
    have hfirst : key.head? ≠ some 47 := by
      rw [hkeyEq, List.append_assoc, List.head?_append]
      cases hp : config.pathPrefix with
      | nil => simp [hp] at hhead
      | cons c rest =>
          rw [hp] at hhead
          rintro heq
          obtain rfl : c = 47 := Option.some.inj heq
          exact absurd hhead (by simp [isAlphanumeric, isLowerOrDigit])
    have hpath : (tail ++ 47 :: key).dropWhile (· = 47) = key := by
      have hdrop : key.dropWhile (· = 47) = key := by
        cases hk : key with
        | nil => rfl
        | cons c rest =>
            rw [hk] at hfirst
            have hc : c ≠ 47 := fun heq => hfirst (by rw [heq]; rfl)
            simp [hc]
      obtain rfl | rfl := htail hp
      · simpa using hdrop
      · simpa using hdrop
    have hstart : PyStr.startsWith key (config.pathPrefix ++ py "/") = true := by
      rw [hkeyEq]
      exact List.isPrefixOf_iff_prefix.2 (List.prefix_append _ _)
    have hlonger : key ≠ config.pathPrefix ++ py "/" := by
      intro heq
      have hlength := congrArg List.length heq
      rw [hkeyEq] at hlength
      simp [hname.length] at hlength
    have hpercent : key.contains 37 = false := by
      rw [← Bool.not_eq_true, List.contains_iff_mem]
      exact fun hc => h37 (List.mem_cons_of_mem _ hc)
    have hrest : key.drop (config.pathPrefix ++ py "/").length =
        stem ++ py "-" ++ digest ++ py ".json" := by
      rw [hkeyEq, List.drop_left]
    have hflat : (stem ++ py "-" ++ digest ++ py ".json").contains 47 = false := by
      rw [← Bool.not_eq_true, List.contains_iff_mem]
      intro hc
      exact absurd (hname.chars 47 hc) (by decide)
    simp only [hparts, hpath, hstart, hpercent, hrest, hname.matched, hflat]
    simp [hlonger, splitTail]
  · intro hp
    rw [hplain] at hp
    have hrefused : (splitTail (py "https") netloc (tail ++ 47 :: key)).query ≠ [] ∨
        (splitTail (py "https") netloc (tail ++ 47 :: key)).fragment ≠ [] := by
      by_cases hhash : 35 ∈ tail
      · exact Or.inr (after_of_mem hhash (by simp))
      · have hquestion : 63 ∈ tail := by
          by_contra hno
          exact hp ⟨hno, hhash⟩
        have hfree : 35 ∉ tail ++ 47 :: key := fun hc => (List.mem_append.1 hc).elim hhash h35
        refine Or.inl ?_
        rw [splitTail, before_not_mem hfree]
        exact after_of_mem hquestion (by simp)
    rw [if_pos]
    obtain hquery | hfragment := hrefused
    · simp [hquery]
    · simp [hfragment]

end config

end S3Storage
