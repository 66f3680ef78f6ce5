import StockAnalyst.PyAscii
import Mathlib.Data.List.DropRight

/-!
# URLs in Python

`urllib.parse.urlsplit` and the properties of its result, for text without
white space and control characters, and what is left of a public base URL when
the slashes at its end go.
-/

namespace Python

/-- What Python takes from its tables of addresses and of Unicode. -/
structure NetLib where
  lib : PyLib
  /-- `ip_address(value).compressed`; nothing where it raises. -/
  compressed : PyStr → Option PyStr
  /-- `urlsplit` takes the network location: brackets stand around an IP
  address, and compatibility normalisation makes no delimiter. -/
  checkNetloc : PyStr → Bool

/-- The part of a string before a separator. -/
def before (sep : Nat) (s : PyStr) : PyStr := s.takeWhile (· != sep)

/-- The part of a string after the first separator. -/
def after (sep : Nat) (s : PyStr) : PyStr := (s.dropWhile (· != sep)).tail

/-- A result of `urlsplit`. -/
structure SplitResult where
  scheme : PyStr
  netloc : PyStr
  path : PyStr
  query : PyStr
  fragment : PyStr

def isAsciiAlpha (c : Nat) : Bool := (65 ≤ c && c ≤ 90) || (97 ≤ c && c ≤ 122)

/-- `scheme_chars`. -/
def isSchemeChar (c : Nat) : Bool :=
  isAsciiAlpha c || (48 ≤ c && c ≤ 57) || c = 43 || c = 45 || c = 46

/-- The scheme of a URL and what follows it. -/
def splitScheme (url : PyStr) : PyStr × PyStr :=
  let head := before 58 url
  if url.contains 58 && head.head?.any isAsciiAlpha && head.all isSchemeChar then
    (head.map asciiLower, after 58 url)
  else ([], url)

/-- No delimiter of a network location. -/
def isNetlocChar (c : Nat) : Bool := c != 47 && c != 63 && c != 35

/-- `_splitnetloc`, where a network location follows. -/
def splitNetloc : PyStr → PyStr × PyStr
  | 47 :: 47 :: rest => (rest.takeWhile isNetlocChar, rest.dropWhile isNetlocChar)
  | rest => ([], rest)

/-- `urlsplit(url)`; nothing where it raises. -/
def urlsplit (net : NetLib) (url : PyStr) : Option SplitResult :=
  let scheme := (splitScheme url).1
  let netloc := (splitNetloc (splitScheme url).2).1
  let rest := (splitNetloc (splitScheme url).2).2
  if net.checkNetloc netloc then
    some ⟨scheme, netloc, before 63 (before 35 rest), after 63 (before 35 rest), after 35 rest⟩
  else none

namespace SplitResult

variable (parsed : SplitResult)

/-- What stands before the last `@`, if there is one. -/
def userinfo : Option PyStr :=
  if parsed.netloc.contains 64 then some (parsed.netloc.rdropWhile (· != 64)).dropLast
  else none

def username : Option PyStr := parsed.userinfo.map (before 58)

def password : Option PyStr :=
  parsed.userinfo.bind fun info => if info.contains 58 then some (after 58 info) else none

/-- The host and the text of the port. -/
def hostinfo : PyStr × PyStr :=
  let info := parsed.netloc.rtakeWhile (· != 64)
  if info.contains 91 then
    (before 93 (after 91 info), after 58 (after 93 (after 91 info)))
  else (before 58 info, after 58 info)

/-- The zone of a scoped address keeps its letters. -/
def hostname (lib : PyLib) : Option PyStr :=
  let host := parsed.hostinfo.1
  if host.isEmpty then none
  else some (lib.lower (before 37 host) ++ host.dropWhile (· != 37))

/-- `parsed.port`; nothing where it raises. -/
def port : Option (Option Nat) :=
  let text := parsed.hostinfo.2
  if text.isEmpty then some none
  else if text.all (fun c => 48 ≤ c && c ≤ 57) && text.length ≤ maxIntDigits
      && natOf text ≤ 65535 then some (some (natOf text))
  else none

end SplitResult

/-- A bare origin or prefix under `https`. -/
def SplitResult.isPublic (net : NetLib) (parsed : SplitResult) : Bool :=
  match parsed.port with
  | none => false
  | some port =>
      parsed.scheme = py "https" && !parsed.netloc.isEmpty
        && (parsed.hostname net.lib).any (!·.isEmpty)
        && parsed.username.isNone && parsed.password.isNone
        && parsed.query.isEmpty && parsed.fragment.isEmpty
        && port.all (fun n => 1 ≤ n && n ≤ 65535)

/-- `value.rstrip("/")`. -/
def rstripSlash (value : PyStr) : PyStr := value.rdropWhile (· = 47)

/-- The checks of a public base URL, and the URL without slashes at its end. -/
def publicBase (net : NetLib) : Json → Option PyStr
  | .str value =>
      if value.isEmpty || value.any (· ≤ 0x20) then none
      else match urlsplit net value with
        | none => none
        | some parsed => if parsed.isPublic net then some (rstripSlash value) else none
  | _ => none

/-! ## Without the slashes at the end -/

/-- What has nothing after a separator has no front part that does. -/
theorem after_append {sep : Nat} {s t : PyStr} (h : after sep (s ++ t) = []) :
    after sep s = [] := by
  unfold after at h ⊢
  rw [List.dropWhile_append] at h
  split at h
  · rename_i hnone
    rw [List.isEmpty_iff.1 hnone]
    rfl
  · rename_i hsome
    cases hrest : s.dropWhile (· != sep) with
    | nil => rfl
    | cons c rest => simp_all

/-- A front part ends no later than the whole. -/
theorem before_of_start {sep : Nat} {s t : PyStr} (h : s <+: t) : before sep s <+: before sep t := by
  obtain ⟨rest, rfl⟩ := h
  unfold before
  rw [List.takeWhile_append]
  split
  · rename_i hall
    rw [(List.takeWhile_prefix _).eq_of_length hall]
    exact List.prefix_append _ _
  · exact List.prefix_rfl

/-- Nothing follows in a front part where nothing does in the whole. -/
theorem after_of_start {sep : Nat} {s t : PyStr} (h : s <+: t) (hnone : after sep t = []) :
    after sep s = [] := by
  obtain ⟨rest, rfl⟩ := h
  exact after_append hnone

/-- Stripping slashes leaves a front part. -/
theorem rstripSlash_start (value : PyStr) : rstripSlash value <+: value :=
  List.rdropWhile_prefix _ _

/-- Stripping twice is stripping once. -/
@[simp] theorem rstripSlash_rstripSlash (value : PyStr) :
    rstripSlash (rstripSlash value) = rstripSlash value :=
  List.rdropWhile_idempotent _ _

/-- Slashes go from the end only. -/
theorem rstripSlash_append {s t : PyStr} (hs : s ≠ []) (hlast : s.getLast hs ≠ 47) :
    rstripSlash (s ++ t) = s ++ rstripSlash t := by
  induction t using List.reverseRecOn with
  | nil =>
      have hself : rstripSlash s = s :=
        List.rdropWhile_eq_self_iff.2 (fun hl => by simpa using hlast)
      rw [List.append_nil, hself]
      simp [rstripSlash]
  | append_singleton t c ih =>
      unfold rstripSlash at ih ⊢
      rw [← List.append_assoc, List.rdropWhile_concat, List.rdropWhile_concat, ih]
      by_cases hslash : c = 47
      · simp [hslash]
      · simp [hslash]

/-- A string around its first separator. -/
theorem before_append_after {sep : Nat} {s : PyStr} (h : sep ∈ s) :
    before sep s ++ sep :: after sep s = s := by
  have hdrop : s.dropWhile (· != sep) = sep :: after sep s := by
    cases hdrop : s.dropWhile (· != sep) with
    | nil =>
        rw [List.dropWhile_eq_nil_iff] at hdrop
        simpa using hdrop sep h
    | cons c tail =>
        have hc := List.head?_dropWhile_not (· != sep) s
        rw [hdrop] at hc
        rw [after, hdrop]
        simp_all
  rw [← hdrop]
  exact List.takeWhile_append_dropWhile ..

/-- What stands before the first separator. -/
theorem before_append {sep : Nat} {s : PyStr} (h : sep ∉ s) (t : PyStr) :
    before sep (s ++ sep :: t) = s := by
  rw [before, List.takeWhile_append_of_pos]
  · simp
  · intro c hc
    simpa using fun heq : c = sep => h (heq ▸ hc)

/-- What stands after the first separator. -/
theorem after_append_sep {sep : Nat} {s : PyStr} (h : sep ∉ s) (t : PyStr) :
    after sep (s ++ sep :: t) = t := by
  rw [after, List.dropWhile_append_of_pos]
  · simp
  · intro c hc
    simpa using fun heq : c = sep => h (heq ▸ hc)

/-- Without a separator the whole text stands before it. -/
theorem before_not_mem {sep : Nat} {s : PyStr} (h : sep ∉ s) : before sep s = s := by
  rw [before, List.takeWhile_eq_self_iff]
  intro c hc
  simpa using fun heq : c = sep => h (heq ▸ hc)

/-- Without a separator nothing stands after it. -/
theorem after_not_mem {sep : Nat} {s : PyStr} (h : sep ∉ s) : after sep s = [] := by
  have hdrop : s.dropWhile (· != sep) = [] := by
    rw [List.dropWhile_eq_nil_iff]
    intro c hc
    simpa using fun heq : c = sep => h (heq ▸ hc)
  rw [after, hdrop]
  rfl

/-- No separator stands before the first one. -/
theorem not_mem_before (sep : Nat) (s : PyStr) : sep ∉ before sep s := by
  intro hmem
  simpa using List.mem_takeWhile_imp hmem

/-- A URL with a scheme ends its scheme at the first colon. -/
theorem splitScheme_some {url scheme rest : PyStr} (hne : scheme ≠ [])
    (h : splitScheme url = (scheme, rest)) :
    ∃ head, url = head ++ 58 :: rest ∧ (∀ c ∈ head, isSchemeChar c = true) ∧
      ∀ rest', splitScheme (head ++ 58 :: rest') = (scheme, rest') := by
  unfold splitScheme at h
  dsimp only at h
  split at h
  · rename_i hcond
    obtain ⟨rfl, rfl⟩ := Prod.mk.inj h
    simp only [Bool.and_eq_true, List.contains_iff_mem] at hcond
    obtain ⟨⟨hcolon, halpha⟩, hchars⟩ := hcond
    refine ⟨before 58 url, (before_append_after hcolon).symm, List.all_eq_true.1 hchars,
      fun rest' => ?_⟩
    have hfree := not_mem_before 58 url
    unfold splitScheme
    simp only [before_append hfree, after_append_sep hfree, halpha, hchars]
    simp
  · exact absurd (Prod.mk.inj h).1.symm hne

/-- A network location ends at its first delimiter, whatever is left of what
follows. -/
theorem splitNetloc_some {url netloc rest : PyStr} (hne : netloc ≠ [])
    (h : splitNetloc url = (netloc, rest)) :
    url = 47 :: 47 :: netloc ++ rest ∧ (∀ c ∈ netloc, isNetlocChar c = true) ∧
      ∀ rest', rest' <+: rest → splitNetloc (47 :: 47 :: netloc ++ rest') = (netloc, rest') := by
  unfold splitNetloc at h
  split at h
  · rename_i text
    obtain ⟨rfl, rfl⟩ := Prod.mk.inj h
    have hchars : ∀ c ∈ text.takeWhile isNetlocChar, isNetlocChar c = true :=
      fun c hc => List.mem_takeWhile_imp hc
    refine ⟨by simp, hchars, fun rest' hrest => ?_⟩
    have hstop : rest'.takeWhile isNetlocChar = [] ∧ rest'.dropWhile isNetlocChar = rest' := by
      cases rest' with
      | nil => exact ⟨rfl, rfl⟩
      | cons c tail =>
          obtain ⟨more, hmore⟩ := hrest
          have hc := List.head?_dropWhile_not isNetlocChar text
          rw [← hmore] at hc
          have hc : isNetlocChar c = false := by simpa using hc
          simp [hc]
    simp only [splitNetloc, List.cons_append]
    rw [List.takeWhile_append_of_pos hchars, List.dropWhile_append_of_pos hchars, hstop.1,
      hstop.2, List.append_nil]
  · exact absurd (Prod.mk.inj h).1.symm hne

/-- Slashes at the end belong to the path. -/
theorem urlsplit_rstripSlash {net : NetLib} {value : PyStr} {parsed : SplitResult}
    (h : urlsplit net value = some parsed) (hscheme : parsed.scheme ≠ [])
    (hnetloc : parsed.netloc ≠ []) (hquery : parsed.query = [])
    (hfragment : parsed.fragment = []) :
    ∃ path, urlsplit net (rstripSlash value) =
      some ⟨parsed.scheme, parsed.netloc, path, [], []⟩ := by
  unfold urlsplit at h
  rcases hsplit : splitScheme value with ⟨scheme, rest⟩
  rcases hlocation : splitNetloc rest with ⟨netloc, tail⟩
  simp only [hsplit, hlocation] at h
  split at h
  · rename_i hcheck
    obtain rfl := Option.some.inj h
    obtain ⟨head, hvalue, -, hscheme'⟩ := splitScheme_some hscheme hsplit
    obtain ⟨hrest, hchars, hnetloc'⟩ := splitNetloc_some hnetloc hlocation
    have hend : rstripSlash value = head ++ 58 :: (47 :: 47 :: netloc ++ rstripSlash tail) := by
      have hne : head ++ 58 :: 47 :: 47 :: netloc ≠ [] := by simp
      have hlast : (head ++ 58 :: 47 :: 47 :: netloc).getLast hne ≠ 47 := by
        have hmem : (head ++ 58 :: 47 :: 47 :: netloc).getLast hne = netloc.getLast hnetloc := by
          simp [List.getLast_cons, hnetloc]
        rw [hmem]
        have hchar := hchars _ (List.getLast_mem hnetloc)
        intro hslash
        rw [hslash] at hchar
        exact absurd hchar (by decide)
      calc rstripSlash value = rstripSlash ((head ++ 58 :: 47 :: 47 :: netloc) ++ tail) := by
            rw [hvalue, hrest]
            simp
        _ = _ := by
            rw [rstripSlash_append hne hlast]
            simp
    have hshort := rstripSlash_start tail
    have hquery' := after_of_start (before_of_start hshort) hquery
    have hfragment' := after_of_start hshort hfragment
    refine ⟨before 63 (before 35 (rstripSlash tail)), ?_⟩
    unfold urlsplit
    rw [hend, hscheme']
    dsimp only
    rw [hnetloc' _ hshort, if_pos hcheck, hquery', hfragment']
  · cases h

/-- The path has no part in the checks. -/
theorem SplitResult.isPublic_path {net : NetLib} {parsed : SplitResult}
    (h : parsed.isPublic net = true) :
    parsed.scheme ≠ [] ∧ parsed.netloc ≠ [] ∧ parsed.query = [] ∧ parsed.fragment = [] ∧
      ∀ path, SplitResult.isPublic net ⟨parsed.scheme, parsed.netloc, path, [], []⟩ = true := by
  have hparts := h
  unfold isPublic at hparts
  split at hparts
  · cases hparts
  · simp only [Bool.and_eq_true, decide_eq_true_eq, Bool.not_eq_true',
      List.isEmpty_iff, List.isEmpty_eq_false_iff] at hparts
    obtain ⟨⟨⟨⟨⟨⟨⟨hscheme, hnetloc⟩, -⟩, -⟩, -⟩, hquery⟩, hfragment⟩, -⟩ := hparts
    refine ⟨by rw [hscheme]; decide, hnetloc, hquery, hfragment, fun path => ?_⟩
    cases parsed
    obtain rfl := hquery
    obtain rfl := hfragment
    exact h

/-- A public base URL is accepted again, and unchanged, once it has lost the
slashes at its end. -/
theorem publicBase_again {net : NetLib} {value : Json} {base : PyStr}
    (h : publicBase net value = some base) : publicBase net (.str base) = some base := by
  cases value with
  | str value =>
      simp only [publicBase] at h
      by_cases hplain : value.isEmpty || value.any (· ≤ 0x20)
      · rw [if_pos hplain] at h
        cases h
      · rw [if_neg hplain] at h
        cases hparsed : urlsplit net value with
        | none => simp [hparsed] at h
        | some parsed =>
            simp only [hparsed] at h
            by_cases hpublic : parsed.isPublic net
            · rw [if_pos hpublic] at h
              obtain rfl := Option.some.inj h
              obtain ⟨hscheme, hnetloc, hquery, hfragment, hpath⟩ := SplitResult.isPublic_path hpublic
              obtain ⟨path, hagain⟩ :=
                urlsplit_rstripSlash hparsed hscheme hnetloc hquery hfragment
              have hsome : rstripSlash value ≠ [] := by
                intro hnone
                rw [hnone] at hagain
                simp only [urlsplit, splitScheme, List.contains_nil, Bool.false_and,
                  Bool.false_eq_true, if_false] at hagain
                grind
              have hvisible : (rstripSlash value).any (· ≤ 0x20) = false := by
                simp only [Bool.or_eq_true, not_or, Bool.not_eq_true] at hplain
                rw [List.any_eq_false] at hplain ⊢
                exact fun c hc => hplain.2 c ((rstripSlash_start value).subset hc)
              simp only [publicBase, hvisible, hagain, List.isEmpty_eq_false_iff.2 hsome,
                Bool.or_self, Bool.false_eq_true, if_false, hpath path, if_true,
                rstripSlash_rstripSlash]
            · rw [if_neg hpublic] at h
              cases h
  | _ => cases h

end Python
