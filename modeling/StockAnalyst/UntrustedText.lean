import StockAnalyst.PyAscii
import Mathlib.Data.List.DropRight

/-!
# Untrusted text

`normalize_untrusted_text` puts third-party text on one line of bounded length.
Its result is in a normal form that the function leaves alone: no control
character, no white space but single spaces between other characters.
-/

namespace UntrustedText

open Python

variable (lib : PyLib)

/-- `unicodedata.category(char) == "Cc"`. -/
def isControl (c : Nat) : Bool := c < 32 || (127 ≤ c && c < 160)

def withoutControls (value : PyStr) : PyStr := value.map fun c => if isControl c then 32 else c

/-- `re.sub(r"\s+", " ", text)`, behind white space or not. -/
def collapse (behind : Bool) : PyStr → PyStr
  | [] => []
  | c :: text =>
      if lib.isSpace c then
        if behind then collapse true text else 32 :: collapse true text
      else c :: collapse false text

/-- The text on one line. -/
def normalized (value : PyStr) : PyStr :=
  PyStr.strip lib (collapse lib false (withoutControls value))

/-- `text.rstrip()`. -/
def rstrip (text : PyStr) : PyStr := text.rdropWhile lib.isSpace

/-- `text.rfind(" ")`. -/
def rfindSpace (text : PyStr) : Int :=
  if text.contains 32 then (text.length : Int) - 1 - (text.reverse.idxOf 32 : Nat) else -1

/-- A text that is too long, cut at a word where that keeps half of it. -/
def cut (text : PyStr) (available : Nat) : PyStr :=
  let candidate := rstrip lib (text.take available)
  let boundary := rfindSpace candidate
  if (available / 2 : Nat) ≤ boundary then rstrip lib (candidate.take boundary.toNat)
  else candidate

/-- `normalize_untrusted_text`. -/
def normalizeUntrustedText (value : Json) (maxChars : Int) : PyStr :=
  match value with
  | .str value =>
      if maxChars ≤ 0 then []
      else
        let text := normalized lib value
        if (text.length : Int) ≤ maxChars then text
        else cut lib text (maxChars - 1).toNat ++ [0x2026]
  | _ => []

/-! ## The normal form -/

/-- One line without control characters, its white space single spaces between
other characters. -/
structure Normal (text : PyStr) : Prop where
  controls : ∀ c ∈ text, isControl c = false
  spaces : ∀ c ∈ text, lib.isSpace c = true → c = 32
  single : text.IsChain fun a b => ¬ (a = 32 ∧ b = 32)
  first : text.head? ≠ some 32
  last : text.getLast? ≠ some 32

variable {lib} {text value : PyStr}

/-- No control character is left. -/
theorem withoutControls_controls : ∀ c ∈ withoutControls value, isControl c = false := by
  intro c hc
  obtain ⟨d, -, rfl⟩ := List.mem_map.1 hc
  by_cases hcontrol : isControl d = true
  · rw [if_pos hcontrol]
    decide
  · rw [if_neg hcontrol]
    simpa using hcontrol

/-- Collapsing leaves single blanks and what is no white space. -/
theorem mem_collapse {behind : Bool} {c : Nat} (hc : c ∈ collapse lib behind text) :
    c = 32 ∨ (c ∈ text ∧ lib.isSpace c = false) := by
  induction text generalizing behind with
  | nil => cases hc
  | cons d text ih =>
      have hrest : ∀ b, c ∈ collapse lib b text →
          c = 32 ∨ (c ∈ d :: text ∧ lib.isSpace c = false) := by
        intro b h
        obtain heq | ⟨hmem, hspace⟩ := ih h
        · exact Or.inl heq
        · exact Or.inr ⟨List.mem_cons_of_mem _ hmem, hspace⟩
      unfold collapse at hc
      by_cases hspace : lib.isSpace d = true
      · rw [if_pos hspace] at hc
        cases behind with
        | true => exact hrest true hc
        | false =>
            obtain heq | hc := List.mem_cons.1 hc
            · exact Or.inl heq
            · exact hrest true hc
      · rw [if_neg hspace] at hc
        obtain rfl | hc := List.mem_cons.1 hc
        · exact Or.inr ⟨List.mem_cons_self, by simpa using hspace⟩
        · exact hrest false hc

/-- Spaces stand alone, and none follows white space that was taken. -/
theorem collapse_single (hspace : lib.isSpace 32 = true) (behind : Bool) (text : PyStr) :
    ((collapse lib behind text).IsChain fun a b => ¬ (a = 32 ∧ b = 32)) ∧
      (behind = true → (collapse lib behind text).head? ≠ some 32) := by
  induction text generalizing behind with
  | nil => exact ⟨.nil, fun _ h => nomatch h⟩
  | cons c text ih =>
      unfold collapse
      by_cases hc : lib.isSpace c = true
      · obtain ⟨hchain, hhead⟩ := ih true
        rw [if_pos hc]
        cases behind with
        | true => exact ⟨hchain, hhead⟩
        | false =>
            refine ⟨?_, fun h => nomatch h⟩
            rw [if_neg Bool.false_ne_true, List.isChain_cons]
            refine ⟨fun b hb hboth => hhead rfl ?_, hchain⟩
            rw [hb, hboth.2]
      · obtain ⟨hchain, -⟩ := ih false
        have hne : c ≠ 32 := by
          rintro rfl
          exact hc hspace
        rw [if_neg hc, List.isChain_cons]
        exact ⟨⟨fun b _ hboth => hne hboth.1, hchain⟩,
          fun _ hhead => hne (Option.some.inj hhead)⟩

/-- Stripping takes white space from both ends. -/
theorem strip_eq (text : PyStr) : PyStr.strip lib text = rstrip lib (text.dropWhile lib.isSpace) :=
  rfl

/-- Stripping the end leaves a front part. -/
theorem rstrip_front (text : PyStr) : rstrip lib text <+: text :=
  List.rdropWhile_prefix _ _

/-- No white space is left at the end. -/
theorem rstrip_last {c : Nat} (h : (rstrip lib text).getLast? = some c) :
    lib.isSpace c = false := by
  have hne : rstrip lib text ≠ [] := by
    intro hnil
    rw [hnil] at h
    cases h
  have hlast : ¬ lib.isSpace ((rstrip lib text).getLast hne) = true :=
    List.rdropWhile_last_not lib.isSpace text hne
  rw [List.getLast?_eq_some_getLast hne] at h
  rw [← Option.some.inj h]
  simpa using hlast

/-- Stripping leaves a part of the text. -/
theorem strip_part (text : PyStr) : PyStr.strip lib text <:+: text := by
  rw [strip_eq]
  exact (rstrip_front _).isInfix.trans (List.dropWhile_suffix _).isInfix

/-- No white space is left at the beginning. -/
theorem strip_first {c : Nat} (h : (PyStr.strip lib text).head? = some c) :
    lib.isSpace c = false := by
  rw [strip_eq] at h
  obtain ⟨rest, hrest⟩ := (rstrip_front _ : rstrip lib (text.dropWhile lib.isSpace) <+: _)
  have hhead : (text.dropWhile lib.isSpace).head? = some c := by
    rw [← hrest, List.head?_append, h]
    rfl
  have hnot := List.head?_dropWhile_not lib.isSpace text
  rw [hhead] at hnot
  simpa using hnot

/-- **The text on one line is in normal form.** -/
theorem normal_normalized (hspace : lib.isSpace 32 = true) (value : PyStr) :
    Normal lib (normalized lib value) := by
  have hmem : ∀ c ∈ normalized lib value, c = 32 ∨
      (c ∈ withoutControls value ∧ lib.isSpace c = false) :=
    fun c hc => mem_collapse ((strip_part _).subset hc)
  refine ⟨fun c hc => ?_, fun c hc hc' => ?_, ?_, ?_, ?_⟩
  · obtain rfl | ⟨hc, -⟩ := hmem c hc
    · decide
    · exact withoutControls_controls c hc
  · obtain heq | ⟨-, hnot⟩ := hmem c hc
    · exact heq
    · rw [hnot] at hc'
      cases hc'
  · exact List.IsChain.infix (collapse_single hspace false _).1 (strip_part _)
  · intro hfirst
    rw [strip_first hfirst] at hspace
    cases hspace
  · intro hlast
    have hnot := rstrip_last hlast
    rw [hnot] at hspace
    cases hspace

/-! ## Text in normal form is left alone -/

/-- A text without controls stays as it is. -/
theorem withoutControls_self (h : ∀ c ∈ text, isControl c = false) : withoutControls text = text := by
  conv_rhs => rw [← List.map_id text]
  apply List.map_congr_left
  intro c hc
  rw [h c hc, if_neg Bool.false_ne_true, id]

/-- A text with single blanks stays as it is. -/
theorem collapse_self (hspaces : ∀ c ∈ text, lib.isSpace c = true → c = 32)
    (hsingle : text.IsChain fun a b => ¬ (a = 32 ∧ b = 32)) :
    collapse lib false text = text ∧
      (text.head? ≠ some 32 → collapse lib true text = text) := by
  induction text with
  | nil => exact ⟨rfl, fun _ => rfl⟩
  | cons c text ih =>
      obtain ⟨hc, hspaces⟩ := List.forall_mem_cons.1 hspaces
      obtain ⟨hnext, hsingle⟩ := List.isChain_cons.1 hsingle
      obtain ⟨hfree, hbehind⟩ := ih hspaces hsingle
      unfold collapse
      by_cases hspace : lib.isSpace c = true
      · obtain rfl := hc hspace
        have hhead : text.head? ≠ some 32 := fun hhead => hnext 32 hhead ⟨rfl, rfl⟩
        rw [if_pos hspace, if_pos hspace, hbehind hhead]
        exact ⟨rfl, fun h => absurd rfl h⟩
      · rw [if_neg hspace, if_neg hspace, hfree]
        exact ⟨rfl, fun _ => rfl⟩

/-- A text without white space at its ends stays as it is. -/
theorem strip_self (hfirst : ∀ c, text.head? = some c → lib.isSpace c = false)
    (hlast : ∀ c, text.getLast? = some c → lib.isSpace c = false) :
    PyStr.strip lib text = text := by
  have hdrop : text.dropWhile lib.isSpace = text := by
    cases text with
    | nil => rfl
    | cons c text => rw [List.dropWhile_cons, hfirst c rfl, if_neg Bool.false_ne_true]
  rw [strip_eq, hdrop, rstrip, List.rdropWhile_eq_self_iff]
  intro hne
  rw [hlast _ (List.getLast?_eq_some_getLast hne)]
  exact Bool.false_ne_true

/-- A normal text stays as it is. -/
theorem Normal.normalized_self (h : Normal lib text) : normalized lib text = text := by
  have hedge : ∀ c ∈ text, c ≠ 32 → lib.isSpace c = false := by
    intro c hc hne
    by_contra hspace
    exact hne (h.spaces c hc (by simpa using hspace))
  rw [normalized, withoutControls_self h.controls, (collapse_self h.spaces h.single).1]
  apply strip_self
  · intro c hc
    refine hedge c (List.mem_of_head? hc) ?_
    rintro rfl
    exact h.first hc
  · intro c hc
    refine hedge c (List.mem_of_getLast? hc) ?_
    rintro rfl
    exact h.last hc

/-! ## The cut -/

/-- A cut leaves a front part within the room there is. -/
theorem cut_front (text : PyStr) (available : Nat) :
    cut lib text available <+: text ∧ (cut lib text available).length ≤ available := by
  have hcandidate : rstrip lib (text.take available) <+: text.take available := rstrip_front _
  have hlength : (text.take available).length ≤ available := by
    rw [List.length_take]
    omega
  unfold cut
  dsimp only
  split
  · have hshort : rstrip lib ((rstrip lib (text.take available)).take
        (rfindSpace (rstrip lib (text.take available))).toNat) <+: text.take available :=
      ((rstrip_front _).trans (List.take_prefix _ _)).trans hcandidate
    exact ⟨hshort.trans (List.take_prefix _ _), hshort.length_le.trans hlength⟩
  · exact ⟨hcandidate.trans (List.take_prefix _ _), hcandidate.length_le.trans hlength⟩

/-- What is cut from a text in normal form, with the ellipsis behind it. -/
theorem Normal.ellipsis (hellipsis : lib.isSpace 0x2026 = false) (h : Normal lib text)
    {front : PyStr} (hfront : front <+: text) :
    Normal lib (front ++ [0x2026]) := by
  refine ⟨?_, ?_, ?_, ?_, ?_⟩
  · intro c hc
    obtain hc | hc := List.mem_append.1 hc
    · exact h.controls c (hfront.subset hc)
    · obtain rfl := List.mem_singleton.1 hc
      decide
  · intro c hc hspace
    obtain hc | hc := List.mem_append.1 hc
    · exact h.spaces c (hfront.subset hc) hspace
    · obtain rfl := List.mem_singleton.1 hc
      rw [hellipsis] at hspace
      cases hspace
  · have hsingle := List.IsChain.prefix h.single hfront
    refine List.isChain_append.2 ⟨hsingle, .singleton _, ?_⟩
    intro a _ b hb hboth
    obtain rfl : b = 0x2026 := (Option.some.inj hb).symm
    exact absurd hboth.2 (by decide)
  · cases front with
    | nil => decide
    | cons c front =>
        obtain ⟨rest, rfl⟩ := hfront
        exact h.first
  · simp

/-- A text that fits is normalized only. -/
theorem normalizeUntrustedText_short {maxChars : Int} (hmax : 0 < maxChars)
    (h : ((normalized lib value).length : Int) ≤ maxChars) :
    normalizeUntrustedText lib (.str value) maxChars = normalized lib value := by
  simp only [normalizeUntrustedText, if_neg (not_le.2 hmax), if_pos h]

/-- A text that does not fit is cut and gets an ellipsis. -/
theorem normalizeUntrustedText_long {maxChars : Int} (hmax : 0 < maxChars)
    (h : maxChars < ((normalized lib value).length : Int)) :
    normalizeUntrustedText lib (.str value) maxChars =
      cut lib (normalized lib value) (maxChars - 1).toNat ++ [0x2026] := by
  simp only [normalizeUntrustedText, if_neg (not_le.2 hmax), if_neg (not_le.2 h)]

/-- A text in normal form that fits is left alone. -/
theorem Normal.left_alone (h : Normal lib text) {maxChars : Int} (hmax : 0 < maxChars)
    (hfits : (text.length : Int) ≤ maxChars) :
    normalizeUntrustedText lib (.str text) maxChars = text := by
  have hself := h.normalized_self
  rw [normalizeUntrustedText_short hmax (by rwa [hself]), hself]

/-- **Untrusted text has a normal form.**  The result fits and is in normal
form, it is the whole text on one line or a proper prefix of it with an
ellipsis, and it is left alone. -/
theorem normalizeUntrustedText_normal (hlib : lib.Ascii) (hellipsis : lib.isSpace 0x2026 = false)
    (value : PyStr) {maxChars : Int} (hmax : 0 < maxChars) :
    ((normalizeUntrustedText lib (.str value) maxChars).length : Int) ≤ maxChars ∧
      Normal lib (normalizeUntrustedText lib (.str value) maxChars) ∧
      (((normalized lib value).length : Int) ≤ maxChars →
        normalizeUntrustedText lib (.str value) maxChars = normalized lib value) ∧
      (maxChars < ((normalized lib value).length : Int) →
        ∃ front, front <+: normalized lib value ∧ front ≠ normalized lib value ∧
          normalizeUntrustedText lib (.str value) maxChars = front ++ [0x2026]) ∧
      normalizeUntrustedText lib (.str (normalizeUntrustedText lib (.str value) maxChars))
        maxChars = normalizeUntrustedText lib (.str value) maxChars := by
  have hspace : lib.isSpace 32 = true := by rw [hlib.isSpace 32 (by decide)]; rfl
  have hnormal := normal_normalized hspace value
  by_cases hfits : ((normalized lib value).length : Int) ≤ maxChars
  · rw [normalizeUntrustedText_short hmax hfits]
    refine ⟨hfits, hnormal, fun _ => rfl, fun hlong => ?_, hnormal.left_alone hmax hfits⟩
    omega
  · have hlong : maxChars < ((normalized lib value).length : Int) := not_le.1 hfits
    obtain ⟨hfront, hlength⟩ := @cut_front lib (normalized lib value) (maxChars - 1).toNat
    have hroom : ((cut lib (normalized lib value) (maxChars - 1).toNat ++ [0x2026]).length : Int) ≤
        maxChars := by
      rw [List.length_append, List.length_singleton]
      omega
    have hresult := hnormal.ellipsis hellipsis hfront
    rw [normalizeUntrustedText_long hmax hlong]
    refine ⟨hroom, hresult, fun h => absurd h hfits, fun _ => ⟨_, hfront, ?_, rfl⟩,
      hresult.left_alone hmax hroom⟩
    intro hsame
    rw [hsame] at hlength
    omega

theorem normalizeUntrustedText_normal_sample :
    Normal asciiLib (normalizeUntrustedText asciiLib (.str (py " a\tlong \n head line ")) 12) ∧
      normalizeUntrustedText asciiLib (.str (py " a\tlong \n head line ")) 12 =
        py "a long" ++ [0x2026] :=
  ⟨(normalizeUntrustedText_normal asciiLib_ascii (by decide) (py " a\tlong \n head line ")
    (by decide : (0 : Int) < 12)).2.1, by decide⟩

end UntrustedText
