import StockAnalyst.ReportHtml
import Mathlib.Data.List.TakeWhile
import Mathlib.Data.List.Infix

/-!
# The report page is inert

What is printed from a report and its metadata is a part of their escaped text
with fixed literals in it, whatever the Markdown rewrites do.
-/

namespace PdfReport

open Js Markup
open Python (PyStr.join PyStr.split)

/-! ## Tags -/

/-- The tags of `inlineToHtml`. -/
def inlineTags : List JsStr :=
  [js "<strong>", js "</strong>", js "<em>", js "</em>", js "<code>", js "</code>",
    js "<span class=\"badge badge-buy\">", js "<span class=\"badge badge-hold\">",
    js "<span class=\"badge badge-sell\">", js "<span class=\"pos\">",
    js "<span class=\"neg\">", js "</span>"]

abbrev Inline : JsStr → JsStr → Prop := Tagged (· ∈ inlineTags)

/-- No inline tag is empty. -/
theorem inlineTags_ne_nil : ∀ l ∈ inlineTags, l ≠ [] := by decide

/-- Every inline tag opens with `<`. -/
theorem inlineTags_head : ∀ l ∈ inlineTags, l.head? = some 60 := by decide

variable {p s t : JsStr}

/-- Text without `<` is not a tag. -/
theorem Inline.unappend (hs : ∀ c ∈ s, c ≠ 60) (h : Inline p (s ++ t)) :
    ∃ p', p = s ++ p' ∧ Inline p' t := by
  apply Tagged.unappend inlineTags_ne_nil _ h
  intro c hc l hl hhead
  rw [inlineTags_head l hl] at hhead
  exact hs c hc (Option.some.inj hhead).symm

/-! ## Matches -/

/-- A marked span ends where its closing mark begins. -/
theorem contentLength_spec {mark : JsStr} {ok : Nat → Bool} {n : Nat}
    (h : contentLength mark ok s = some n) :
    ∃ rest, s = s.take n ++ mark ++ rest ∧ n ≤ s.length := by
  induction s generalizing n with
  | nil =>
      unfold contentLength at h
      split at h
      · rename_i hmark
        obtain rfl := Option.some.inj h
        obtain ⟨rest, hrest⟩ := List.isPrefixOf_iff_prefix.1 hmark
        exact ⟨rest, hrest.symm, Nat.zero_le _⟩
      · cases h
  | cons c s ih =>
      unfold contentLength at h
      split at h
      · rename_i hmark
        obtain rfl := Option.some.inj h
        obtain ⟨rest, hrest⟩ := List.isPrefixOf_iff_prefix.1 hmark
        exact ⟨rest, hrest.symm, Nat.zero_le _⟩
      · split at h
        · obtain ⟨k, hk, rfl⟩ := Option.map_eq_some_iff.1 h
          obtain ⟨rest, hrest, hlength⟩ := ih hk
          refine ⟨rest, ?_, Nat.succ_le_succ hlength⟩
          rw [List.take_succ_cons, List.cons_append, List.cons_append, ← hrest]
        · cases h

/-- A match between two marks. -/
theorem delimited_spec {mark : JsStr} {ok : Nat → Bool} {n : Nat}
    (h : delimited mark ok s = some n) : ∃ content rest,
      s = mark ++ content ++ mark ++ rest ∧ n = content.length + 2 * mark.length ∧
        content ≠ [] := by
  unfold delimited at h
  split at h
  · rename_i hmark
    obtain ⟨tail, rfl⟩ := List.isPrefixOf_iff_prefix.1 hmark
    rw [List.drop_left] at h
    cases tail with
    | nil => cases h
    | cons c tail =>
        dsimp only at h
        split at h
        · obtain ⟨k, hk, rfl⟩ := Option.map_eq_some_iff.1 h
          obtain ⟨rest, hrest, hlength⟩ := contentLength_spec hk
          refine ⟨c :: tail.take k, rest, ?_, ?_, List.cons_ne_nil _ _⟩
          · simp only [List.append_assoc, List.cons_append] at hrest ⊢
            rw [← hrest]
          · rw [List.length_cons, List.length_take, Nat.min_eq_left hlength]
            omega
        · cases h
  · cases h

/-- A text is its longest run of `f` and the rest. -/
theorem takeWhile_split (f : Nat → Bool) (s : JsStr) :
    s = s.takeWhile f ++ s.drop (s.takeWhile f).length :=
  (List.prefix_iff_eq_append.1 (List.takeWhile_prefix f)).symm

/-- Digits are no markup. -/
theorem digits_ne (s : JsStr) : ∀ c ∈ s.takeWhile isDigit, c ≠ 60 := by
  intro c hc
  have hdigit := List.mem_takeWhile_imp hc
  rintro rfl
  cases hdigit

/-- A percentage has no `<`. -/
theorem percentLength_spec {n : Nat} (h : percentLength s = some n) :
    ∃ matched rest, s = matched ++ rest ∧ n = matched.length ∧ ∀ c ∈ matched, c ≠ 60 := by
  have hdigits := takeWhile_split isDigit s
  unfold percentLength at h
  dsimp only at h
  split at h
  · cases h
  · split at h
    · rename_i rest hrest
      rw [hrest] at hdigits
      obtain rfl := Option.some.inj h
      refine ⟨s.takeWhile isDigit ++ [37], rest, ?_, by simp, ?_⟩
      · rw [List.append_assoc]
        exact hdigits
      · intro c hc
        rcases List.mem_append.1 hc with hc | hc
        · exact digits_ne s c hc
        · rw [List.mem_singleton.1 hc]
          decide
    · rename_i rest hrest
      rw [hrest] at hdigits
      split at h
      · rename_i hdecimals
        obtain rfl := Option.some.inj h
        have hfraction := takeWhile_split isDigit rest
        obtain ⟨-, hhead⟩ := (Bool.and_eq_true _ _).mp hdecimals
        obtain ⟨rest', hrest'⟩ := List.head?_eq_some_iff.1 (of_decide_eq_true hhead)
        rw [hrest'] at hfraction
        refine ⟨s.takeWhile isDigit ++ 46 :: (rest.takeWhile isDigit ++ [37]), rest', ?_, ?_, ?_⟩
        · rw [List.append_assoc, List.cons_append, List.append_assoc, List.singleton_append,
            ← hfraction]
          exact hdigits
        · simp only [List.length_append, List.length_cons, List.length_nil]
          omega
        · intro c hc
          rcases List.mem_append.1 hc with hc | hc
          · exact digits_ne s c hc
          · rcases List.mem_cons.1 hc with rfl | hc
            · decide
            · rcases List.mem_append.1 hc with hc | hc
              · exact digits_ne rest c hc
              · rw [List.mem_singleton.1 hc]
                decide
      · cases h
    · cases h

/-! ## The rewrites -/

/-- A text between two inline tags is inline. -/
theorem Inline.wrap {opening closing : JsStr} (hopening : opening ∈ inlineTags)
    (hclosing : closing ∈ inlineTags) (h : Inline p s) : Inline p (opening ++ s ++ closing) :=
  Tagged.wrap hopening hclosing h

/-- A rewrite that puts what it matches between two tags. -/
theorem respects_wrapped {matchAt : Option Nat → JsStr → Option Nat} {opening closing : JsStr}
    (hliteral : ∀ l ∈ inlineTags, ∀ a c b s before, l = a ++ c :: b →
      matchAt before (c :: (b ++ s)) = none)
    (hmatch : ∀ s before n, matchAt before s = some n → 0 < n ∧ ∃ matched rest,
      s = matched ++ rest ∧ n = matched.length ∧ ∀ c ∈ matched, c ≠ 60)
    (hopening : opening ∈ inlineTags) (hclosing : closing ∈ inlineTags) :
    Respects (· ∈ inlineTags) matchAt (wrapped opening closing) := by
  refine ⟨hliteral, ?_⟩
  intro p s before n hs hn
  obtain ⟨hpos, matched, rest, rfl, rfl, hplain⟩ := hmatch s before n hn
  obtain ⟨p', rfl, hrest⟩ := Inline.unappend hplain hs
  refine ⟨hpos, matched, p', matched, rfl, .refl _, ?_, ?_⟩
  · rw [List.take_left]
    exact Inline.wrap hopening hclosing (.self matched)
  · rw [List.drop_left]
    exact hrest

/-- A rewrite that puts what stands between two marks between two tags.  The
mark repeats one character that is in no tag. -/
theorem respects_unwrapped {m : Nat} {n : Nat} {ok : Nat → Bool} {opening closing : JsStr}
    (hm : ∀ l ∈ inlineTags, m ∉ l) (hn : 0 < n)
    (hwrap : ∀ p s, Inline p s → Inline p (opening ++ s ++ closing)) :
    Respects (· ∈ inlineTags) (fun _ => delimited (List.replicate n m) ok)
      (unwrapped n opening closing) := by
  have hm60 : m ≠ 60 := by
    rintro rfl
    exact hm (js "<em>") (by decide) (by decide)
  refine ⟨?_, ?_⟩
  · intro l hl a c b s _ hab
    have hc : c ≠ m := by
      rintro rfl
      exact hm l hl (hab ▸ List.mem_append_right a List.mem_cons_self)
    obtain ⟨n, rfl⟩ : ∃ k, n = k + 1 := ⟨n - 1, by omega⟩
    simp [delimited, List.replicate_succ, hc.symm]
  · intro p s _ k hs hk
    obtain ⟨content, rest, rfl, rfl, hcontent⟩ := delimited_spec hk
    obtain ⟨n, rfl⟩ : ∃ k, n = k + 1 := ⟨n - 1, by omega⟩
    have hmark : ∀ c ∈ List.replicate (n + 1) m, c ≠ 60 := by
      intro c hc
      rw [(List.mem_replicate.1 hc).2]
      exact hm60
    simp only [List.append_assoc] at hs
    obtain ⟨p', rfl, hopened⟩ := Inline.unappend hmark hs
    rw [List.replicate_succ, List.cons_append] at hopened
    obtain ⟨pc, pr, rfl, htagged, hclosed⟩ := hopened.split hm
    obtain ⟨p₂, rfl, hrest⟩ := Inline.unappend (fun c hc => hmark c (by
      rw [List.replicate_succ]
      exact List.mem_cons_of_mem m hc)) hclosed
    have hsplit : List.replicate (n + 1) m ++ content ++ List.replicate (n + 1) m ++ rest =
        (List.replicate (n + 1) m ++ content ++ List.replicate (n + 1) m) ++ rest := rfl
    have hlength : content.length + 2 * (List.replicate (n + 1) m).length =
        (List.replicate (n + 1) m ++ content ++ List.replicate (n + 1) m).length := by
      simp only [List.length_append]
      omega
    refine ⟨by simp, List.replicate (n + 1) m ++ pc ++ List.replicate (n + 1) m, p₂, pc,
      ?_, ?_, ?_, ?_⟩
    · simp [List.replicate_succ]
    · rw [List.append_assoc]
      exact (List.sublist_append_left pc _).trans (List.sublist_append_right _ _)
    · rw [hsplit, hlength, List.take_left, unwrapped]
      have hinner : ((List.replicate (n + 1) m ++ content ++ List.replicate (n + 1) m).drop
          (n + 1)).take ((List.replicate (n + 1) m ++ content ++
            List.replicate (n + 1) m).length - 2 * (n + 1)) = content := by
        rw [List.append_assoc, List.drop_left' (List.length_replicate ..)]
        apply List.take_left'
        simp only [List.length_append, List.length_replicate]
        omega
      rw [hinner]
      exact hwrap pc content htagged
    · rw [hsplit, hlength, List.drop_left]
      exact hrest

/-- A rewrite of a text with tags in it that leaves out characters at most and
puts in tags at most. -/
def Rewrites (f : JsStr → JsStr) : Prop :=
  ∀ p s, Inline p s → ∃ q, q.Sublist p ∧ Inline q (f s)

/-- One rewriting after the other is a rewriting. -/
theorem Rewrites.comp {f g : JsStr → JsStr} (hg : Rewrites g) (hf : Rewrites f) :
    Rewrites fun s => g (f s) := by
  intro p s hs
  obtain ⟨q, hq, hfs⟩ := hf p s hs
  obtain ⟨r, hr, hgs⟩ := hg q (f s) hfs
  exact ⟨r, hr.trans hq, hgs⟩

/-- Replacing what respects the tags is a rewriting. -/
theorem rewrites_replaceAll {matchAt : Option Nat → JsStr → Option Nat}
    {replacement : JsStr → JsStr} (h : Respects (· ∈ inlineTags) matchAt replacement) :
    Rewrites (replaceAll matchAt replacement 0 none) :=
  fun _ _ hs => h.replaceAll inlineTags_ne_nil hs none

/-- No inline tag has a star in it. -/
theorem star_not_in_tag : ∀ l ∈ inlineTags, 42 ∉ l := by decide

theorem rewrites_strongEm : Rewrites strongEm := by
  have hmark : js "***" = List.replicate 3 42 := by decide
  unfold strongEm
  rw [hmark]
  apply rewrites_replaceAll
  apply respects_unwrapped star_not_in_tag (by decide)
  intro p s hs
  have hem := hs.wrap (show js "<em>" ∈ inlineTags by decide)
    (show js "</em>" ∈ inlineTags by decide)
  have hstrong := hem.wrap (show js "<strong>" ∈ inlineTags by decide)
    (show js "</strong>" ∈ inlineTags by decide)
  simpa only [List.append_assoc] using hstrong

theorem rewrites_strong : Rewrites strong := by
  have hmark : js "**" = List.replicate 2 42 := by decide
  unfold strong
  rw [hmark]
  apply rewrites_replaceAll
  apply respects_unwrapped star_not_in_tag (by decide)
  exact fun p s hs => hs.wrap (by decide) (by decide)

theorem rewrites_em : Rewrites em := by
  have hmark : js "*" = List.replicate 1 42 := by decide
  unfold em
  rw [hmark]
  apply rewrites_replaceAll
  apply respects_unwrapped star_not_in_tag (by decide)
  exact fun p s hs => hs.wrap (by decide) (by decide)

theorem rewrites_code : Rewrites code := by
  apply rewrites_replaceAll
  apply respects_unwrapped (m := 96) (n := 1) (by decide) (by decide)
  exact fun p s hs => hs.wrap (by decide) (by decide)

/-- A word of capital letters begins in no tag. -/
theorem rewrites_badge {word opening : JsStr} (hword : word ≠ [])
    (hcapital : ∀ c ∈ word, 65 ≤ c ∧ c ≤ 90) (hopening : opening ∈ inlineTags) :
    Rewrites (badge word opening) := by
  apply rewrites_replaceAll
  apply respects_wrapped _ _ hopening (by decide)
  · intro l hl a c b s before hab
    have htag : ∀ l ∈ inlineTags, ∀ c ∈ l, c < 65 ∨ 90 < c := by decide
    have hc := htag l hl c (hab ▸ List.mem_append_right a List.mem_cons_self)
    cases word with
    | nil => exact absurd rfl hword
    | cons w word =>
        have hw := hcapital w List.mem_cons_self
        have hne : w ≠ c := by omega
        simp [wordAt, hne]
  · intro s before n hn
    unfold wordAt at hn
    split at hn
    · rename_i hmatch
      obtain rfl := Option.some.inj hn
      simp only [Bool.and_eq_true] at hmatch
      obtain ⟨rest, hrest⟩ := List.isPrefixOf_iff_prefix.1 hmatch.1.2
      refine ⟨List.length_pos_iff.2 hword, word, rest, hrest.symm, rfl, ?_⟩
      intro c hc
      have := hcapital c hc
      omega
    · cases hn

/-- A sign that no tag has before a digit. -/
theorem rewrites_signed {signs opening : JsStr}
    (hsigns : ∀ l ∈ inlineTags, ∀ tail ∈ l.tails, tail.head?.any (signs.contains ·) = true →
      (tail.drop 1).head?.any (!isDigit ·) = true)
    (hplain : 60 ∉ signs) (hopening : opening ∈ inlineTags) :
    Rewrites (replaceAll (fun _ => signedPercent signs) (wrapped opening (js "</span>")) 0
      none) := by
  apply rewrites_replaceAll
  apply respects_wrapped _ _ hopening (by decide)
  · intro l hl a c b s before hab
    by_cases hc : signs.contains c = true
    · have htail : c :: b ∈ l.tails := by
        rw [List.mem_tails, hab]
        exact List.suffix_append a (c :: b)
      have hnext := hsigns l hl _ htail hc
      cases b with
      | nil => cases hnext
      | cons d b =>
          have hd : isDigit d = false := by simpa using hnext
          simp [signedPercent, percentLength, hd]
    · simp only [signedPercent, if_neg hc]
  · intro s before n hn
    cases s with
    | nil => cases hn
    | cons c s =>
        simp only [signedPercent] at hn
        split at hn
        · rename_i hc
          obtain ⟨k, hk, rfl⟩ := Option.map_eq_some_iff.1 hn
          obtain ⟨matched, rest, rfl, rfl, hmatched⟩ := percentLength_spec hk
          refine ⟨Nat.succ_pos _, c :: matched, rest, rfl, rfl, ?_⟩
          intro d hd
          rcases List.mem_cons.1 hd with rfl | hd
          · rintro rfl
            exact hplain (List.contains_iff_mem.1 hc)
          · exact hmatched d hd
        · cases hn

/-- All the inline steps together are a rewriting. -/
theorem rewrites_inlineToHtml : Rewrites inlineToHtml := by
  have hbuy : Rewrites (badge (js "BUY") (js "<span class=\"badge badge-buy\">")) :=
    rewrites_badge (by decide) (by decide) (by decide)
  have hhold : Rewrites (badge (js "HOLD") (js "<span class=\"badge badge-hold\">")) :=
    rewrites_badge (by decide) (by decide) (by decide)
  have hsell : Rewrites (badge (js "SELL") (js "<span class=\"badge badge-sell\">")) :=
    rewrites_badge (by decide) (by decide) (by decide)
  have hpositive : Rewrites positive := rewrites_signed (by decide) (by decide) (by decide)
  have hnegative : Rewrites negative := rewrites_signed (by decide) (by decide) (by decide)
  exact hnegative.comp (hpositive.comp (hsell.comp (hhold.comp (hbuy.comp
    (rewrites_code.comp (rewrites_em.comp (rewrites_strong.comp rewrites_strongEm)))))))

/-! ## Parts of lines -/

/-- Trimming only drops characters. -/
theorem trim_sublist (s : JsStr) : (trim s).Sublist s := by
  have hfront : (s.dropWhile isWhite).Sublist s := List.dropWhile_sublist isWhite
  have hback := List.dropWhile_sublist isWhite (l := (s.dropWhile isWhite).reverse)
  exact (List.reverse_sublist.1 (by simpa [trim] using hback)).trans hfront

/-- Splitting only drops separators. -/
theorem split_sublist (sep : Nat) (s : JsStr) : (PyStr.split sep s).flatten.Sublist s := by
  induction s with
  | nil => exact .refl []
  | cons c s ih =>
      unfold PyStr.split
      split
      · exact ih.cons c
      · split
        · rename_i hsplit
          rw [hsplit] at ih
          exact ih.cons_cons c
        · rename_i piece rest hsplit
          rw [hsplit] at ih
          exact ih.cons_cons c

/-- The rest of a line is what is left of it. -/
theorem restOfLine_eq {rest : JsStr} (h : restOfLine s = some rest) : rest = s := by
  unfold restOfLine at h
  split at h
  · exact (Option.some.inj h).symm
  · cases h

/-- A heading has a level from one to four and keeps its own text. -/
theorem heading_sublist {level : Nat} (h : heading s = some (level, t)) :
    1 ≤ level ∧ level ≤ 4 ∧ t.Sublist s := by
  unfold heading at h
  dsimp only at h
  split at h
  · rename_i hlevel
    split at h
    · rename_i rest hrest
      obtain ⟨t', ht', heq⟩ := Option.map_eq_some_iff.1 h
      obtain ⟨rfl, rfl⟩ := Prod.mk.inj heq
      rw [restOfLine_eq ht']
      simp only [Bool.and_eq_true, decide_eq_true_eq] at hlevel
      refine ⟨hlevel.1, hlevel.2, ?_⟩
      exact (List.sublist_cons_self 32 rest).trans (hrest ▸ List.drop_sublist _ s)
    · cases h
  · cases h

/-- An expression that takes a part of a line. -/
def Extracts (item : JsStr → Option JsStr) : Prop := ∀ s t, item s = some t → t.Sublist s

theorem extracts_quote : Extracts quote := by
  intro s t h
  unfold quote at h
  split at h
  · rw [restOfLine_eq h]
    exact List.drop_sublist 5 s
  · cases h

/-- Dropping the mark of a heading only drops characters. -/
theorem withoutHeading_sublist (s : JsStr) : (withoutHeading s).Sublist s := by
  unfold withoutHeading
  dsimp only
  split
  · exact (List.dropWhile_sublist isWhite).trans (List.drop_sublist _ s)
  · exact .refl s

theorem extracts_unordered : Extracts unordered := by
  intro s t h
  unfold unordered at h
  split at h
  · rename_i c rest hrest
    split at h
    · rw [restOfLine_eq h]
      have htail : rest.Sublist (c :: 32 :: rest) := ((List.Sublist.refl rest).cons 32).cons c
      exact htail.trans (hrest ▸ List.dropWhile_sublist isIndent)
    · cases h
  · cases h

theorem extracts_ordered : Extracts ordered := by
  intro s t h
  unfold ordered at h
  dsimp only at h
  split at h
  · cases h
  · split at h
    · rename_i rest hrest
      rw [restOfLine_eq h]
      have htail : rest.Sublist (46 :: 32 :: rest) := ((List.Sublist.refl rest).cons 32).cons 46
      exact (htail.trans (hrest ▸ List.drop_sublist _ _)).trans (List.dropWhile_sublist isIndent)
    · cases h

theorem extracts_tableRow : Extracts tableRow := by
  intro s t h
  unfold tableRow at h
  split at h
  · rename_i rest
    split at h
    · rw [restOfLine_eq h]
      exact (List.dropLast_sublist rest).cons 124
    · cases h
  · cases h

/-- The items of a run of lines and the lines after it are parts of those
lines. -/
theorem matching_sublist {item : JsStr → Option JsStr} (h : Extracts item) (lines : List JsStr) :
    ((matching item lines).1.flatten ++ (matching item lines).2.flatten).Sublist lines.flatten := by
  induction lines with
  | nil => exact .refl []
  | cons line lines ih =>
      unfold matching
      split
      · exact .refl _
      · rename_i content hcontent
        simp only [List.flatten_cons, List.append_assoc]
        exact (h line content hcontent).append ih

/-! ## Blocks -/

/-- The other literals of `mdToHtml`. -/
def blockTags : List JsStr :=
  [js "<hr>", js "<h1>", js "</h1>", js "<h2>", js "</h2>", js "<h3>", js "</h3>",
    js "<h4>", js "</h4>", js "<blockquote>", js "</blockquote>", js "<p>", js "</p>",
    js "<ul>", js "</ul>", js "<ol>", js "</ol>", js "<li>", js "</li>",
    js "<table>", js "</table>", js "<thead>", js "</thead>", js "<tbody>",
    js "</tbody>", js "<tr>", js "</tr>", js "<th>", js "</th>", js "<td>",
    js "</td>", [10]]

def bodyLiterals : List JsStr := inlineTags ++ blockTags

abbrev Body : JsStr → JsStr → Prop := Tagged (· ∈ bodyLiterals)

/-- A body between two block tags is a body. -/
theorem Body.wrap {opening closing : JsStr} (hopening : opening ∈ blockTags)
    (hclosing : closing ∈ blockTags) (h : Body p s) : Body p (opening ++ s ++ closing) :=
  Tagged.wrap (List.mem_append_right _ hopening) (List.mem_append_right _ hclosing) h

/-- What prints a part of a text with literals in it. -/
def Prints (f : JsStr → JsStr) : Prop := ∀ s, ∃ q, q.Sublist s ∧ Body q (f s)

/-- The inline steps print a body of what they are given. -/
theorem prints_inlineToHtml : Prints inlineToHtml := by
  intro s
  obtain ⟨q, hq, htagged⟩ := rewrites_inlineToHtml s s (.self s)
  exact ⟨q, hq, htagged.mono fun l hl => List.mem_append_left _ hl⟩

/-- Printing a part of a text prints a part of it. -/
theorem Prints.of_part {f g : JsStr → JsStr} (hf : Prints f) (hg : ∀ s, (g s).Sublist s) :
    Prints fun s => f (g s) := by
  intro s
  obtain ⟨q, hq, htagged⟩ := hf (g s)
  exact ⟨q, hq.trans (hg s), htagged⟩

/-- Block tags around what is printed leave it a body. -/
theorem Prints.wrap {f : JsStr → JsStr} {opening closing : JsStr} (hf : Prints f)
    (hopening : opening ∈ blockTags) (hclosing : closing ∈ blockTags) :
    Prints fun s => opening ++ f s ++ closing := by
  intro s
  obtain ⟨q, hq, htagged⟩ := hf s
  exact ⟨q, hq, Body.wrap hopening hclosing htagged⟩

/-- Parts printed one after the other are a body. -/
theorem Prints.flatMap {f : JsStr → JsStr} (hf : Prints f) (parts : List JsStr) :
    ∃ q, q.Sublist parts.flatten ∧ Body q (parts.flatMap f) := by
  induction parts with
  | nil => exact ⟨[], .refl [], .nil⟩
  | cons part parts ih =>
      obtain ⟨q, hq, htagged⟩ := hf part
      obtain ⟨q', hq', hrest⟩ := ih
      exact ⟨q ++ q', hq.append hq', htagged.append hrest⟩

/-- A list item prints its text. -/
theorem prints_listItem : Prints listItem :=
  (prints_inlineToHtml.of_part trim_sublist).wrap (by decide) (by decide)

/-- A row prints its cells. -/
theorem prints_cells {opening closing : JsStr} (hopening : opening ∈ blockTags)
    (hclosing : closing ∈ blockTags) :
    Prints fun row => (cells row).flatMap fun cell => opening ++ cell ++ closing := by
  intro row
  have hcell : Prints fun cell => opening ++ inlineToHtml (trim cell) ++ closing :=
    (prints_inlineToHtml.of_part trim_sublist).wrap hopening hclosing
  obtain ⟨q, hq, htagged⟩ := hcell.flatMap (PyStr.split 124 row)
  refine ⟨q, hq.trans (split_sublist 124 row), ?_⟩
  simp only [cells, List.flatMap_map]
  exact htagged

/-- A row of data prints its cells. -/
theorem prints_dataRow : Prints dataRow :=
  (prints_cells (by decide) (by decide)).wrap (by decide) (by decide)

/-- The row of headings prints its cells. -/
theorem prints_headerRow : Prints headerRow := by
  intro row
  obtain ⟨q, hq, htagged⟩ := prints_cells (show js "<th>" ∈ blockTags by decide)
    (show js "</th>" ∈ blockTags by decide) row
  have hrow := htagged.wrap (show js "<tr>" ∈ blockTags by decide)
    (show js "</tr>" ∈ blockTags by decide)
  have hhead := hrow.wrap (show js "<thead>" ∈ blockTags by decide)
    (show js "</thead>" ∈ blockTags by decide)
  have hbody := hhead.append (Tagged.of_literal (L := (· ∈ bodyLiterals))
    (l := js "<tbody>") (by decide))
  rw [List.append_nil] at hbody
  refine ⟨q, hq, ?_⟩
  simpa only [headerRow, List.append_assoc] using hbody

/-- The rows under the heading are a body. -/
theorem dataRows_body (rows : List JsStr) :
    ∃ q, q.Sublist rows.flatten ∧ Body q (dataRows rows) := by
  cases rows with
  | nil => exact ⟨[], .refl [], .nil⟩
  | cons second rows =>
      obtain ⟨q', hq', hrest⟩ := prints_dataRow.flatMap rows
      by_cases hseparator : (cells second).all isSeparator = true
      · rw [dataRows, if_pos hseparator, List.nil_append]
        exact ⟨q', hq'.trans (List.sublist_append_right second rows.flatten), hrest⟩
      · rw [dataRows, if_neg hseparator]
        obtain ⟨q, hq, htagged⟩ := prints_dataRow second
        exact ⟨q ++ q', hq.append hq', htagged.append hrest⟩

/-- A table is a body of its lines. -/
theorem table_body (first : JsStr) (rows : List JsStr) :
    ∃ q, q.Sublist (first ++ rows.flatten) ∧ Body q (table first rows) := by
  obtain ⟨q, hq, hhead⟩ := prints_headerRow first
  obtain ⟨q', hq', hrows⟩ := dataRows_body rows
  have hbody := (hhead.append hrows).append (Tagged.of_literal (L := (· ∈ bodyLiterals))
    (l := js "</tbody>") (by decide))
  have htable := Body.wrap (show js "<table>" ∈ blockTags by decide)
    (show js "</table>" ∈ blockTags by decide) hbody
  rw [List.append_nil] at htable
  refine ⟨q ++ q', hq.append hq', ?_⟩
  simpa only [table, List.append_assoc] using htable

/-- One block more, on a line of its own. -/
theorem join_cons {L : List JsStr} (hbreak : [10] ∈ L) {block : JsStr} {rest : List JsStr}
    {q q' : JsStr} (h : Tagged (· ∈ L) q block) (hrest : Tagged (· ∈ L) q' (PyStr.join [10] rest)) :
    Tagged (· ∈ L) (q ++ q') (PyStr.join [10] (block :: rest)) := by
  cases rest with
  | nil =>
      have hall := h.append hrest
      rwa [PyStr.join, List.append_nil] at hall
  | cons next rest =>
      have hnext := h.append (Tagged.literal (L := (· ∈ L)) hbreak hrest)
      rw [PyStr.join, List.append_assoc]
      exact hnext

/-- One block more is still a body. -/
theorem join_cons_body {block : JsStr} {rest : List JsStr} {q q' : JsStr} (h : Body q block)
    (hrest : Body q' (PyStr.join [10] rest)) : Body (q ++ q') (PyStr.join [10] (block :: rest)) :=
  join_cons (by decide) h hrest

/-- A run of items and what follows it are parts of the lines they came
from. -/
theorem matched_sublist {item : JsStr → Option JsStr} {line content q q' : JsStr}
    {lines : List JsStr} (hitem : Extracts item) (hline : item line = some content)
    (hq' : q'.Sublist (content ++ (matching item lines).1.flatten))
    (hq : q.Sublist (matching item lines).2.flatten) :
    (q' ++ q).Sublist (line :: lines).flatten := by
  have hlines := (hitem line content hline).append (matching_sublist hitem lines)
  rw [← List.append_assoc] at hlines
  exact (hq'.append hq).trans hlines

/-- The tags of the four levels are block tags. -/
theorem headingTags {level : Nat} (hone : 1 ≤ level) (hfour : level ≤ 4) :
    headingTag level ∈ blockTags ∧ headingEnd level ∈ blockTags := by
  have hcases : level = 1 ∨ level = 2 ∨ level = 3 ∨ level = 4 := by omega
  rcases hcases with rfl | rfl | rfl | rfl
  · decide
  · decide
  · decide
  · decide

/-- The body of the page: a part of the lines with literals in it. -/
theorem blocks_body (lines : List JsStr) :
    ∃ q, q.Sublist lines.flatten ∧ Body q (PyStr.join [10] (blocks lines)) := by
  fun_induction blocks lines with
  | case1 => exact ⟨[], .refl [], .nil⟩
  | case2 line lines hblank ih =>
      obtain ⟨q, hq, htagged⟩ := ih
      exact ⟨q, hq.trans (List.sublist_append_right line _), htagged⟩
  | case3 line lines hblank hrule ih =>
      obtain ⟨q, hq, htagged⟩ := ih
      refine ⟨q, hq.trans (List.sublist_append_right line _), ?_⟩
      exact join_cons_body (.of_literal (by decide)) htagged
  | case4 line lines hblank hrule level content hheading ih =>
      obtain ⟨q, hq, htagged⟩ := ih
      obtain ⟨hone, hfour, hcontent⟩ := heading_sublist hheading
      obtain ⟨hopening, hclosing⟩ := headingTags hone hfour
      obtain ⟨q', hq', hblock⟩ := prints_inlineToHtml content
      refine ⟨q' ++ q, (hq'.trans hcontent).append hq, ?_⟩
      exact join_cons_body (Body.wrap hopening hclosing hblock) htagged
  | case5 line lines hblank hrule hheading content hquote ih =>
      obtain ⟨q, hq, htagged⟩ := ih
      obtain ⟨q', hq', hblock⟩ := prints_inlineToHtml (withoutHeading content)
      have hquoted := hblock.wrap (show js "<p>" ∈ blockTags by decide)
        (show js "</p>" ∈ blockTags by decide)
      have hblockquote := hquoted.wrap (show js "<blockquote>" ∈ blockTags by decide)
        (show js "</blockquote>" ∈ blockTags by decide)
      have hcontent := (withoutHeading_sublist content).trans (extracts_quote line content hquote)
      refine ⟨q' ++ q, (hq'.trans hcontent).append hq, ?_⟩
      apply join_cons_body _ htagged
      simpa only [List.append_assoc] using hblockquote
  | case6 line lines hblank hrule hheading hquote content hitem ih =>
      obtain ⟨q, hq, htagged⟩ := ih
      obtain ⟨q', hq', hitems⟩ := prints_listItem.flatMap (content :: (matching unordered lines).1)
      refine ⟨q' ++ q, matched_sublist extracts_unordered hitem hq' hq, ?_⟩
      exact join_cons_body (Body.wrap (by decide) (by decide) hitems) htagged
  | case7 line lines hblank hrule hheading hquote hunordered content hitem ih =>
      obtain ⟨q, hq, htagged⟩ := ih
      obtain ⟨q', hq', hitems⟩ := prints_listItem.flatMap (content :: (matching ordered lines).1)
      refine ⟨q' ++ q, matched_sublist extracts_ordered hitem hq' hq, ?_⟩
      exact join_cons_body (Body.wrap (by decide) (by decide) hitems) htagged
  | case8 line lines hblank hrule hheading hquote hunordered hordered content hitem ih =>
      obtain ⟨q, hq, htagged⟩ := ih
      obtain ⟨q', hq', hrows⟩ := table_body content (matching tableRow lines).1
      exact ⟨q' ++ q, matched_sublist extracts_tableRow hitem hq' hq, join_cons_body hrows htagged⟩
  | case9 line lines hblank hrule hheading hquote hunordered hordered htable ih =>
      obtain ⟨q, hq, htagged⟩ := ih
      obtain ⟨q', hq', hblock⟩ := prints_inlineToHtml line
      refine ⟨q' ++ q, hq'.append hq, ?_⟩
      exact join_cons_body (Body.wrap (by decide) (by decide) hblock) htagged

/-- Cutting out the fences leaves a part of the text. -/
theorem withoutFences_sublist (s : JsStr) : (withoutFences s).Sublist s :=
  replaceAll_nil_sublist 0 none s

/-- **The Markdown becomes a body** of its escaped text. -/
theorem mdToHtml_body (md : JsStr) :
    ∃ q, q.Sublist (escapeHtml md) ∧ Body q (mdToHtml md) := by
  obtain ⟨q, hq, htagged⟩ := blocks_body (PyStr.split 10 (withoutFences (escapeHtml md)))
  exact ⟨q, (hq.trans (split_sublist 10 _)).trans (withoutFences_sublist _), htagged⟩

/-! ## The page -/

/-- The literals of the page. -/
def literals : List JsStr :=
  bodyLiterals ++ headLines ++ styleLines ++ headerLines ++ [logoLine] ++ firmLines ++ titleLines
    ++ bodyLines ++ footerLines
    ++ [js "    <div>Date: ", js "    <div>Report ID: #",
      js "  <div class=\"symbols\">Coverage: ", js "</div>"]

/-- The tags in a literal, from each `<` to the next `>`. -/
def tagsIn : JsStr → List JsStr
  | [] => []
  | c :: s => if c = 60 then (c :: s.takeWhile (· ≠ 62) ++ [62]) :: tagsIn s else tagsIn s

def fixedTags : List JsStr := literals.flatMap tagsIn

/-- Every tag of a literal ends in it. -/
def isClosed : JsStr → Bool
  | [] => true
  | c :: s => (c ≠ 60 || s.contains 62) && isClosed s

/-- Every literal closes the tags it opens. -/
theorem literals_closed : ∀ l ∈ literals, isClosed l = true := by decide +kernel

/-- A tag ends at its first `>`. -/
theorem closing_prefix (h : 62 ∈ s) : (s.takeWhile (· ≠ 62) ++ [62]) <+: s := by
  induction s with
  | nil => cases h
  | cons c s ih =>
      by_cases hc : c = 62
      · subst hc
        exact ⟨s, by simp⟩
      · have hs : 62 ∈ s := (List.mem_cons.1 h).resolve_left (Ne.symm hc)
        rw [List.takeWhile_cons_of_pos (by simpa using hc), List.cons_append]
        exact List.cons_prefix_cons.2 ⟨rfl, ih hs⟩

/-- A tag inside a literal is one of the literal's own tags. -/
theorem tag_of_closed {l before after : JsStr} (h : isClosed l = true)
    (hl : l = before ++ 60 :: after) : ∃ tag ∈ tagsIn l, tag <+: 60 :: after := by
  induction before generalizing l with
  | nil =>
      subst hl
      simp only [List.nil_append, isClosed, Bool.and_eq_true, ne_eq, not_true, decide_false,
        Bool.false_or] at h
      refine ⟨60 :: after.takeWhile (· ≠ 62) ++ [62], ?_, ?_⟩
      · simp [tagsIn]
      · exact List.cons_prefix_cons.2 ⟨rfl, closing_prefix (List.contains_iff_mem.1 h.1)⟩
  | cons c before ih =>
      subst hl
      rw [List.cons_append, isClosed, Bool.and_eq_true] at h
      obtain ⟨tag, htag, hprefix⟩ := ih h.2 rfl
      refine ⟨tag, ?_, hprefix⟩
      rw [List.cons_append, tagsIn]
      split
      · exact List.mem_cons_of_mem _ htag
      · exact htag

/-- Each `<` of a text without one of its own begins a tag of a literal. -/
theorem tag_of_tagged {L : List JsStr} {before after : JsStr}
    (hclosed : ∀ l ∈ L, isClosed l = true) (hp : 60 ∉ p) (h : Tagged (· ∈ L) p s)
    (hs : s = before ++ 60 :: after) : ∃ tag ∈ L.flatMap tagsIn, tag <+: 60 :: after := by
  induction h generalizing before with
  | nil => simp at hs
  | char c rest ih =>
      rw [List.mem_cons, not_or] at hp
      obtain ⟨hc, hp⟩ := hp
      cases before with
      | nil => exact absurd (List.cons.inj hs).1.symm hc
      | cons d before => exact ih hp (List.cons.inj hs).2
  | @literal l p s hl rest ih =>
      obtain ⟨x, hx, hs⟩ | ⟨x, hl', hx⟩ := List.append_eq_append_iff.1 hs
      · exact ih hp hs
      · cases x with
        | nil =>
            have hrest : s = [] ++ 60 :: after := hx.symm
            exact ih hp hrest
        | cons d x =>
            obtain ⟨rfl, hafter⟩ := List.cons.inj hx
            obtain ⟨tag, htag, hprefix⟩ := tag_of_closed (hclosed l hl) hl'
            refine ⟨tag, List.mem_flatMap.2 ⟨l, hl, htag⟩, ?_⟩
            rw [hafter]
            exact hprefix.trans (List.prefix_append (60 :: x) s)

/-- Escaped text has no bracket and no quote. -/
theorem escapeHtml_plain (value : JsStr) :
    ∀ c ∈ escapeHtml value, c ≠ 60 ∧ c ≠ 62 ∧ c ≠ 34 ∧ c ≠ 39 := by
  have hentity : ∀ entity ∈ [js "&amp;", js "&lt;", js "&gt;", js "&quot;", js "&#39;"],
      ∀ c ∈ entity, c ≠ 60 ∧ c ≠ 62 ∧ c ≠ 34 ∧ c ≠ 39 := by decide
  intro c hc
  obtain ⟨d, -, hc⟩ := List.mem_flatMap.1 hc
  unfold escapeChar at hc
  split at hc
  · exact hentity _ (by decide) c hc
  · split at hc
    · exact hentity _ (by decide) c hc
    · split at hc
      · exact hentity _ (by decide) c hc
      · split at hc
        · exact hentity _ (by decide) c hc
        · split at hc
          · exact hentity _ (by decide) c hc
          · rw [List.mem_singleton.1 hc]
            exact ⟨‹_›, ‹_›, ‹_›, ‹_›⟩

abbrev Page : JsStr → JsStr → Prop := Tagged (· ∈ literals)

/-- Lines of the page, with what they have of the text in them. -/
def Lines (q : JsStr) (lines : List JsStr) : Prop :=
  ∃ parts, List.Forall₂ Page parts lines ∧ parts.flatten = q

/-- Pages line after line are a page. -/
theorem Lines.append {q q' : JsStr} {lines lines' : List JsStr} (h : Lines q lines)
    (h' : Lines q' lines') : Lines (q ++ q') (lines ++ lines') := by
  obtain ⟨parts, hparts, rfl⟩ := h
  obtain ⟨parts', hparts', rfl⟩ := h'
  exact ⟨parts ++ parts', List.rel_append hparts hparts', List.flatten_append⟩

/-- A page is one line of itself. -/
theorem Lines.single {line : JsStr} (h : Page p line) : Lines p [line] :=
  ⟨[p], .cons h .nil, by simp⟩

/-- Fixed lines hold nothing of the texts. -/
theorem Lines.fixed {lines : List JsStr} (h : ∀ line ∈ lines, line ∈ literals) :
    Lines [] lines := by
  induction lines with
  | nil => exact ⟨[], .nil, rfl⟩
  | cons line lines ih =>
      obtain ⟨hline, hlines⟩ := List.forall_mem_cons.1 h
      exact (Lines.single (.of_literal hline)).append (ih hlines)

/-- Lines joined by breaks are a page. -/
theorem Lines.join {q : JsStr} {lines : List JsStr} (h : Lines q lines) :
    Page q (PyStr.join [10] lines) := by
  obtain ⟨parts, hparts, rfl⟩ := h
  have hbreak : [10] ∈ literals := by
    simp only [literals, bodyLiterals, List.append_assoc, List.mem_append]
    exact Or.inr (Or.inl (by decide))
  induction hparts with
  | nil => exact .nil
  | cons hline _ ih => exact join_cons hbreak hline ih

/-- The whole page holds the metadata and the body, and nothing else of
them. -/
theorem buildHtml_page {markdownHtml : JsStr} {info : ReportMeta} (h : Body p markdownHtml) :
    Page (info.date ++ info.jobId ++ info.symbols ++ p) (buildHtml markdownHtml info) := by
  have hdate : Page info.date (dateLine info.date) :=
    Tagged.wrap (by simp [literals]) (by simp [literals]) (.self _)
  have hjob : Page info.jobId (jobLine info.jobId) :=
    Tagged.wrap (by simp [literals]) (by simp [literals]) (.self _)
  have hsymbols : Page info.symbols (symbolsLine info.symbols) :=
    Tagged.wrap (by simp [literals]) (by simp [literals]) (.self _)
  have hbody : Page p markdownHtml := h.mono fun l hl => by
    simp only [literals, List.append_assoc]
    exact List.mem_append_left _ hl
  have htop : Lines [] (headLines ++ styleLines ++ headerLines ++ [logoLine] ++ firmLines) :=
    .fixed fun l hl => by
      simp only [literals, List.mem_append] at hl ⊢
      tauto
  have htitle : Lines [] titleLines := .fixed fun l hl => by
    simp only [literals, List.mem_append]
    tauto
  have hbelow : Lines [] bodyLines := .fixed fun l hl => by
    simp only [literals, List.mem_append]
    tauto
  have hfooter : Lines [] footerLines := .fixed fun l hl => by
    simp only [literals, List.mem_append]
    tauto
  have hfirst : Lines (info.date ++ info.jobId) [dateLine info.date, jobLine info.jobId] :=
    (Lines.single hdate).append (Lines.single hjob)
  have hall := (((((htop.append hfirst).append htitle).append (.single hsymbols)).append
    hbelow).append (.single hbody)).append hfooter
  simp only [List.nil_append, List.append_nil] at hall
  exact hall.join

/-- **The page is inert.**  Apart from the fixed literals it has in it a part
of the escaped metadata and report and nothing else, no `<`, `>` or quote among
that, and every `<` in the page begins one of the tags of the literals, which
stands there whole with its attributes. -/
theorem renderReportHtml_inert (reportText : JsStr) (info : ReportMeta) :
    ∃ kept, kept.Sublist (escapeHtml info.date ++ escapeHtml info.jobId ++
        escapeHtml info.symbols ++ escapeHtml reportText) ∧
      Page kept (renderReportHtml reportText info) ∧
      (∀ c ∈ kept, c ≠ 60 ∧ c ≠ 62 ∧ c ≠ 34 ∧ c ≠ 39) ∧
      ∀ before after, renderReportHtml reportText info = before ++ 60 :: after →
        ∃ tag ∈ fixedTags, tag <+: 60 :: after := by
  obtain ⟨q, hq, hbody⟩ := mdToHtml_body reportText
  let escaped : ReportMeta := ⟨escapeHtml info.jobId, escapeHtml info.date, escapeHtml info.symbols⟩
  have hpage : Page (escaped.date ++ escaped.jobId ++ escaped.symbols ++ q)
      (buildHtml (mdToHtml reportText) escaped) := buildHtml_page hbody
  have hkept := (List.Sublist.refl (escapeHtml info.date ++ escapeHtml info.jobId ++
    escapeHtml info.symbols)).append hq
  have hplain : ∀ c ∈ escapeHtml info.date ++ escapeHtml info.jobId ++ escapeHtml info.symbols ++ q,
      c ≠ 60 ∧ c ≠ 62 ∧ c ≠ 34 ∧ c ≠ 39 := by
    intro c hc
    have hmem := hkept.subset hc
    simp only [List.mem_append] at hmem
    rcases hmem with ((hc | hc) | hc) | hc
    · exact escapeHtml_plain _ c hc
    · exact escapeHtml_plain _ c hc
    · exact escapeHtml_plain _ c hc
    · exact escapeHtml_plain _ c hc
  refine ⟨_, hkept, hpage, hplain, ?_⟩
  intro before after hpage'
  exact tag_of_tagged literals_closed (fun h => (hplain 60 h).1 rfl) hpage hpage'

end PdfReport
