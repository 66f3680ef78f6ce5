import StockAnalyst.DeepEqual
import StockAnalyst.PendingRecord
import StockAnalyst.SortedJson
import StockAnalyst.StringifyText

/-!
# Pending bindings bind

`canonicalJson` prints a document with sorted keys, which its text determines,
and `pendingBindingMac` authenticates four parts with a length before each.
So a MAC binds the job, the payment proof and the request.
-/

namespace X402Async

open Python Js Deliverable JsonText

/-! ## Canonical texts -/

/-- What `String` and `Number` do on finite doubles.  Both zeros are `0`. -/
structure NumberTexts (node : Node) : Prop where
  isNumber : ∀ neg abs, IsDouble abs → isNumber (node.numberText (.finite neg abs)) = true
  reads : ∀ neg abs, IsDouble abs → (abs = 0 → neg = false) →
    node.number (node.numberText (.finite neg abs)) = .finite neg abs
  zero : node.numberText (.finite true 0) = node.numberText (.finite false 0)

variable (node : Node)

mutual

/-- The document whose text `canonicalJson` is. -/
def canonicalDoc : Value → Doc
  | .null => .word (js "null")
  | .bool b => .word (if b then js "true" else js "false")
  | .num x => .word (node.numberText x)
  | .str s => .str s
  | .arr items => .arr (canonicalDocs items)
  | .obj entries => .obj (sortedEntries (canonicalDocEntries entries))

def canonicalDocs : List Value → List Doc
  | [] => []
  | v :: items => canonicalDoc v :: canonicalDocs items

def canonicalDocEntries : List (JsStr × Value) → List (JsStr × Doc)
  | [] => []
  | (key, v) :: entries => (key, canonicalDoc v) :: canonicalDocEntries entries

end

variable {node : Node}

/-- The documents of a list, item by item. -/
theorem canonicalDocs_eq_map (items : List Value) :
    canonicalDocs node items = items.map (canonicalDoc node) := by
  induction items with
  | nil => rfl
  | cons v items ih => rw [canonicalDocs, ih, List.map_cons]

/-- The documents of an object, value by value. -/
theorem canonicalDocEntries_eq_map (entries : List (JsStr × Value)) :
    canonicalDocEntries node entries = entries.map fun e => (e.1, canonicalDoc node e.2) := by
  induction entries with
  | nil => rfl
  | cons e entries ih =>
      obtain ⟨key, v⟩ := e
      rw [canonicalDocEntries, ih, List.map_cons]

/-- Every sorted entry is one of the object. -/
theorem mem_canonicalDocEntries {entries : List (JsStr × Value)} {e : JsStr × Doc}
    (h : e ∈ sortedEntries (canonicalDocEntries node entries)) :
    ∃ v, (e.1, v) ∈ entries ∧ e.2 = canonicalDoc node v := by
  rw [mem_sortedEntries, canonicalDocEntries_eq_map] at h
  obtain ⟨⟨key, v⟩, hmem, rfl⟩ := List.mem_map.1 h
  exact ⟨v, hmem, rfl⟩

/-! ### What is accepted -/

/-- A list has a canonical text when the first item and the rest do. -/
theorem canonicalItems_cons {v : Value} {items : List Value} {texts : List JsStr}
    (h : canonicalItems node (v :: items) = some texts) :
    ∃ text rest, canonicalJson node v = some text ∧ canonicalItems node items = some rest ∧
      texts = text :: rest := by
  rw [canonicalItems] at h
  obtain ⟨text, htext, h⟩ := Option.bind_eq_some_iff.1 h
  obtain ⟨rest, hrest, rfl⟩ := Option.map_eq_some_iff.1 h
  exact ⟨text, rest, htext, hrest, rfl⟩

/-- An object has a canonical text when the first value and the rest do. -/
theorem canonicalEntries_cons {key : JsStr} {v : Value} {entries : List (JsStr × Value)}
    {texts : List (JsStr × JsStr)} (h : canonicalEntries node ((key, v) :: entries) = some texts) :
    ∃ text rest, canonicalJson node v = some text ∧ canonicalEntries node entries = some rest ∧
      texts = (key, text) :: rest := by
  rw [canonicalEntries] at h
  obtain ⟨text, htext, h⟩ := Option.bind_eq_some_iff.1 h
  obtain ⟨rest, hrest, rfl⟩ := Option.map_eq_some_iff.1 h
  exact ⟨text, rest, htext, hrest, rfl⟩

/-- The items of an array that is accepted are accepted. -/
theorem accepted_item {items : List Value} (h : (canonicalJson node (.arr items)).isSome = true) :
    ∀ v ∈ items, (canonicalJson node v).isSome = true := by
  rw [canonicalJson, Option.isSome_map] at h
  obtain ⟨texts, htexts⟩ := Option.isSome_iff_exists.1 h
  clear h
  induction items generalizing texts with
  | nil => exact fun v hv => absurd hv List.not_mem_nil
  | cons v items ih =>
      obtain ⟨text, rest, htext, hrest, rfl⟩ := canonicalItems_cons htexts
      exact List.forall_mem_cons.2 ⟨by rw [htext]; rfl, ih rest hrest⟩

/-- The members of an object that is accepted are accepted. -/
theorem accepted_entry {entries : List (JsStr × Value)}
    (h : (canonicalJson node (.obj entries)).isSome = true) :
    ∀ e ∈ entries, (canonicalJson node e.2).isSome = true := by
  rw [canonicalJson, Option.isSome_map] at h
  obtain ⟨texts, htexts⟩ := Option.isSome_iff_exists.1 h
  clear h
  induction entries generalizing texts with
  | nil => exact fun e he => absurd he List.not_mem_nil
  | cons e entries ih =>
      obtain ⟨key, v⟩ := e
      obtain ⟨text, rest, htext, hrest, rfl⟩ := canonicalEntries_cons htexts
      exact List.forall_mem_cons.2 ⟨by rw [htext]; rfl, ih rest hrest⟩

/-! ### The text of the document -/

/-- The document of a held value has code units. -/
theorem units_canonicalDoc (hnumbers : NumberTexts node) {v : Value} (hv : v.Held)
    (haccepted : (canonicalJson node v).isSome = true) : (canonicalDoc node v).Units := by
  induction v using Value.induct with
  | null => exact .word (asciiWord_of_nameChars (by decide) (by decide))
  | bool b => exact .word (asciiWord_bool b)
  | num x =>
      cases hv with
      | finite hdouble => exact .word (isNumber_word (hnumbers.isNumber _ _ hdouble))
      | inf => cases haccepted
      | nan => cases haccepted
  | str s =>
      cases hv with
      | str hunits => exact .str hunits
  | arr items ih =>
      cases hv with
      | arr heach =>
          rw [canonicalDoc, canonicalDocs_eq_map]
          refine .arr ?_
          intro d hd
          obtain ⟨v, hmem, rfl⟩ := List.mem_map.1 hd
          exact ih v hmem (heach v hmem) (accepted_item haccepted v hmem)
  | obj entries ih =>
      cases hv with
      | obj hunits hkeys heach =>
          rw [canonicalDoc]
          refine .obj ?_ ?_
          · intro e he
            obtain ⟨v, hmem, -⟩ := mem_canonicalDocEntries he
            exact hunits _ hmem
          · intro e he
            obtain ⟨v, hmem, hdoc⟩ := mem_canonicalDocEntries he
            rw [hdoc]
            exact ih _ hmem (heach _ hmem) (accepted_entry haccepted _ hmem)

/-- `canonicalJson` is the text of the document. -/
theorem canonicalJson_print {v : Value} (hv : v.Held) {text : JsStr}
    (h : canonicalJson node v = some text) :
    text = (canonicalDoc node v).print stringifyStyle.utf16 := by
  induction v using Value.induct generalizing text with
  | null => exact (Option.some.inj h).symm
  | bool b => exact (Option.some.inj h).symm
  | num x =>
      cases x with
      | finite neg abs => exact (Option.some.inj h).symm
      | inf neg => cases h
      | nan => cases h
  | str s =>
      cases hv with
      | str hunits =>
          rw [canonicalDoc, Doc.print, lit_stringifyStyle hunits]
          exact (Option.some.inj h).symm
  | arr items ih =>
      cases hv with
      | arr heach =>
          rw [canonicalJson] at h
          obtain ⟨texts, htexts, rfl⟩ := Option.map_eq_some_iff.1 h
          have hprint : texts = Doc.printItems stringifyStyle.utf16 (canonicalDocs node items) := by
            clear h
            induction items generalizing texts with
            | nil => exact (Option.some.inj htexts).symm
            | cons v items ih' =>
                obtain ⟨first, rest, hfirst, hrest, rfl⟩ := canonicalItems_cons htexts
                obtain ⟨hv, hitems⟩ := List.forall_mem_cons.1 heach
                obtain ⟨ihv, ihitems⟩ := List.forall_mem_cons.1 ih
                rw [canonicalDocs, Doc.printItems, ← ihv hv hfirst,
                  ← ih' ihitems hitems rest hrest]
          rw [canonicalDoc, Doc.print, ← hprint]
          rfl
  | obj entries ih =>
      cases hv with
      | obj hunits hkeys heach =>
          rw [canonicalJson] at h
          obtain ⟨texts, htexts, rfl⟩ := Option.map_eq_some_iff.1 h
          have hprint : texts = (canonicalDocEntries node entries).map fun e =>
              (e.1, e.2.print stringifyStyle.utf16) := by
            clear h hkeys hunits
            induction entries generalizing texts with
            | nil => exact (Option.some.inj htexts).symm
            | cons e entries ih' =>
                obtain ⟨key, v⟩ := e
                obtain ⟨first, rest, hfirst, hrest, rfl⟩ := canonicalEntries_cons htexts
                obtain ⟨hv, hentries⟩ := List.forall_mem_cons.1 heach
                obtain ⟨ihv, ihentries⟩ := List.forall_mem_cons.1 ih
                rw [canonicalDocEntries, List.map_cons, ← ihv hv hfirst,
                  ← ih' ihentries hentries rest hrest]
          have hentries : ∀ es : List (JsStr × Doc), (∀ e ∈ es, ∀ u ∈ e.1, u < 0x10000) →
              (es.map fun e => stringify e.1 ++ 0x3A :: e.2.print stringifyStyle.utf16) =
                Doc.printEntries stringifyStyle.utf16 es := by
            intro es hes
            induction es with
            | nil => rfl
            | cons e es ih' =>
                obtain ⟨he, hes⟩ := List.forall_mem_cons.1 hes
                rw [List.map_cons, Doc.printEntries, ih' hes, lit_stringifyStyle he]
                simp [stringifyStyle, Style.utf16]
          have hdocs : ∀ e ∈ sortedEntries (canonicalDocEntries node entries),
              ∀ u ∈ e.1, u < 0x10000 := by
            intro e he
            obtain ⟨v, hmem, -⟩ := mem_canonicalDocEntries he
            exact hunits _ hmem
          rw [canonicalDoc, Doc.print, ← hentries _ hdocs, hprint, sortedEntries_map, List.map_map]
          rfl

/-! ### One document, one value -/

/-- Numbers with one text are the same up to the sign of a zero. -/
theorem numberText_iff (hnumbers : NumberTexts node) {neg neg' : Bool} {abs abs' : ℚ}
    (hdouble : IsDouble abs) (hdouble' : IsDouble abs') :
    node.numberText (.finite neg abs) = node.numberText (.finite neg' abs') ↔
      sameNumber (.finite neg abs) (.finite neg' abs') = true := by
  -- The double without the sign of a zero has the same text, and is read back.
  have hclean : ∀ (neg : Bool) (abs : ℚ), IsDouble abs →
      ∃ sign, (sign = neg ∨ abs = 0) ∧ (abs = 0 → sign = false) ∧
        node.number (node.numberText (.finite neg abs)) = .finite sign abs := by
    intro neg abs hdouble
    by_cases hzero : abs = 0
    · subst hzero
      have hread := hnumbers.reads false 0 hdouble fun _ => rfl
      cases neg with
      | false => exact ⟨false, Or.inl rfl, fun _ => rfl, hread⟩
      | true => exact ⟨false, Or.inr rfl, fun _ => rfl, by rw [hnumbers.zero, hread]⟩
    · exact ⟨neg, Or.inl rfl, fun h => absurd h hzero,
        hnumbers.reads neg abs hdouble fun h => absurd h hzero⟩
  constructor
  · intro htext
    obtain ⟨sign, hsign, -, hread⟩ := hclean neg abs hdouble
    obtain ⟨sign', hsign', -, hread'⟩ := hclean neg' abs' hdouble'
    rw [htext, hread'] at hread
    obtain ⟨rfl, rfl⟩ := PyFloat.finite.inj hread
    simp only [sameNumber, decide_true, Bool.true_and, Bool.or_eq_true, decide_eq_true_eq]
    grind
  · intro hsame
    simp only [sameNumber, Bool.and_eq_true, Bool.or_eq_true, decide_eq_true_eq] at hsame
    obtain ⟨rfl, rfl | rfl⟩ := hsame
    · rfl
    · cases neg with
      | false =>
          cases neg' with
          | false => rfl
          | true => exact hnumbers.zero.symm
      | true =>
          cases neg' with
          | false => exact hnumbers.zero
          | true => rfl

/-- The text of a number is no other word. -/
theorem numberText_ne (hnumbers : NumberTexts node) {neg : Bool} {abs : ℚ}
    (hdouble : IsDouble abs) {word : JsStr} (hword : isNumber word = false) :
    node.numberText (.finite neg abs) ≠ word := by
  intro h
  rw [← h, hnumbers.isNumber neg abs hdouble] at hword
  cases hword

/-- A word of its own is the document of no number. -/
theorem numberDoc_ne (hnumbers : NumberTexts node) {word : JsStr} (hword : isNumber word = false)
    {x : PyFloat} (hx : (Value.num x).Held)
    (haccepted : (canonicalJson node (.num x)).isSome = true) :
    Doc.word word ≠ canonicalDoc node (.num x) := by
  intro h
  cases hx with
  | finite hdouble => exact numberText_ne hnumbers hdouble hword (Doc.word.inj h).symm
  | inf => cases haccepted
  | nan => cases haccepted

/-- Values that are accepted have one document when they are deeply equal. -/
theorem canonicalDoc_iff (hnumbers : NumberTexts node) {a b : Value} (ha : a.Held) (hb : b.Held)
    (hacca : (canonicalJson node a).isSome = true) (haccb : (canonicalJson node b).isSome = true) :
    canonicalDoc node a = canonicalDoc node b ↔ deepEqual a b = true := by
  have hnull : isNumber (js "null") = false := by decide
  have hbool : ∀ b : Bool, isNumber (if b then js "true" else js "false") = false := by decide
  have hwords : ∀ b : Bool, js "null" ≠ if b then js "true" else js "false" := by decide
  have hbools : ∀ b c : Bool, ((if b then js "true" else js "false") =
      if c then js "true" else js "false") ↔ b = c := by decide
  induction a using Value.induct generalizing b with
  | null =>
      cases b with
      | num x => exact iff_of_false (numberDoc_ne hnumbers hnull hb haccb) (by simp [deepEqual])
      | bool b => simpa [canonicalDoc, deepEqual] using hwords b
      | _ => simp [canonicalDoc, deepEqual]
  | bool c =>
      cases b with
      | num x => exact iff_of_false (numberDoc_ne hnumbers (hbool c) hb haccb) (by simp [deepEqual])
      | null => simpa [canonicalDoc, deepEqual] using (hwords c).symm
      | bool b =>
          rw [canonicalDoc, canonicalDoc, deepEqual, Doc.word.injEq, decide_eq_true_eq]
          exact hbools c b
      | _ => simp [canonicalDoc, deepEqual]
  | num x =>
      cases b with
      | null => exact iff_of_false (numberDoc_ne hnumbers hnull ha hacca).symm (by simp [deepEqual])
      | bool b =>
          exact iff_of_false (numberDoc_ne hnumbers (hbool b) ha hacca).symm (by simp [deepEqual])
      | num y =>
          cases ha with
          | finite hdouble =>
              cases hb with
              | finite hdouble' =>
                  rw [canonicalDoc, canonicalDoc, deepEqual, Doc.word.injEq]
                  exact numberText_iff hnumbers hdouble hdouble'
              | inf => cases haccb
              | nan => cases haccb
          | inf => cases hacca
          | nan => cases hacca
      | _ => simp [canonicalDoc, deepEqual]
  | str s => cases b <;> simp [canonicalDoc, deepEqual]
  | arr items ih =>
      cases b with
      | arr items' =>
          cases ha with
          | arr heach =>
              cases hb with
              | arr heach' =>
                  rw [canonicalDoc, canonicalDoc, Doc.arr.injEq, canonicalDocs_eq_map,
                    canonicalDocs_eq_map, deepEqual, deepEqualItems_iff]
                  apply map_eq_map_iff
                  intro v hv v' hv'
                  exact ih v hv (heach v hv) (heach' v' hv') (accepted_item hacca v hv)
                    (accepted_item haccb v' hv')
      | _ => simp [canonicalDoc, deepEqual]
  | obj entries ih =>
      cases b with
      | obj entries' =>
          cases ha with
          | obj hunits hkeys heach =>
              cases hb with
              | obj hunits' hkeys' heach' =>
                  have hnodup : ((entries.map fun e => (e.1, canonicalDoc node e.2)).map
                      (·.1)).Nodup := by
                    rwa [List.map_map]
                  rw [canonicalDoc, canonicalDoc, Doc.obj.injEq, canonicalDocEntries_eq_map,
                    canonicalDocEntries_eq_map, sortedEntries_eq_iff hnodup,
                    perm_map_iff hkeys hkeys', deepEqual, Bool.and_eq_true, decide_eq_true_eq,
                    deepEqualEntries_iff]
                  refine and_congr_right fun _ => forall₂_congr fun e he => exists_congr fun v' =>
                    and_congr_right fun hv' => ?_
                  have hmem' := mem_of_lookup hv'
                  exact ih e he (heach e he) (heach' _ hmem') (accepted_entry hacca e he)
                    (accepted_entry haccb _ hmem')
      | _ => simp [canonicalDoc, deepEqual]

/-- **Canonical texts.**  Two values have one text when they are deeply
equal. -/
theorem canonicalJson_iff (hnumbers : NumberTexts node) {a b : Value} (ha : a.Held) (hb : b.Held)
    {text text' : JsStr} (htext : canonicalJson node a = some text)
    (htext' : canonicalJson node b = some text') : text = text' ↔ deepEqual a b = true := by
  have hacca : (canonicalJson node a).isSome = true := by rw [htext]; rfl
  have haccb : (canonicalJson node b).isSome = true := by rw [htext']; rfl
  rw [← canonicalDoc_iff hnumbers ha hb hacca haccb, canonicalJson_print ha htext,
    canonicalJson_print hb htext']
  constructor
  · exact Doc.Units.print_inj (units_canonicalDoc hnumbers ha hacca)
      (units_canonicalDoc hnumbers hb haccb)
  · intro hdoc
    rw [hdoc]

/-- A canonical text is well-formed Unicode. -/
theorem wellFormed_canonicalJson (hnumbers : NumberTexts node) {a : Value} (ha : a.Held)
    {text : JsStr} (htext : canonicalJson node a = some text) : WellFormed text := by
  rw [canonicalJson_print ha htext]
  exact Doc.Units.wellFormed (units_canonicalDoc hnumbers ha (by rw [htext]; rfl))

/-! ## Messages -/

/-- A part with its length before it. -/
def frame (part : List Nat) : List Nat := uint32BE part.length ++ part

/-- Different lengths are framed differently. -/
theorem uint32BE_inj {m n : Nat} (hm : m < 4294967296) (hn : n < 4294967296)
    (h : uint32BE m = uint32BE n) : m = n := by
  simp only [uint32BE, List.cons.injEq] at h
  omega

/-- Framed parts are read back one by one. -/
theorem frames_inj {parts parts' : List (List Nat)}
    (hsmall : ∀ part ∈ parts, part.length < 4294967296)
    (hsmall' : ∀ part ∈ parts', part.length < 4294967296)
    (h : parts.flatMap frame = parts'.flatMap frame) : parts = parts' := by
  induction parts generalizing parts' with
  | nil =>
      cases parts' with
      | nil => rfl
      | cons part' parts' => cases h
  | cons part parts ih =>
      cases parts' with
      | nil => cases h
      | cons part' parts' =>
          obtain ⟨hpart, hparts⟩ := List.forall_mem_cons.1 hsmall
          obtain ⟨hpart', hparts'⟩ := List.forall_mem_cons.1 hsmall'
          rw [List.flatMap_cons, List.flatMap_cons, frame, frame, List.append_assoc,
            List.append_assoc] at h
          obtain ⟨hlengths, hrest⟩ := List.append_inj h rfl
          obtain ⟨rfl, htail⟩ := List.append_inj hrest (uint32BE_inj hpart hpart' hlengths)
          rw [ih hparts hparts' htail]

/-- What `pendingBindingMac` feeds to the MAC. -/
def bindingMessage (jobId paymentProof request : JsStr) : List Nat :=
  ([js "stockanalyst:x402-pending-binding:v1", jobId, paymentProof, request].map utf8).flatMap frame

/-- A part within the limit of `pendingBindingMac`. -/
def Fits (part : JsStr) : Prop := (utf8 part).length ≤ maxPendingBytes

/-- A MAC is that of the message of its record. -/
theorem pendingBindingMac_some {pending : PendingCreateRecord} {jobId jobToken : JsStr}
    {mac : List Nat} (h : pendingBindingMac node pending jobId jobToken = some mac) :
    isJobId jobId = true ∧ ∃ request, canonicalJson node (.obj pending.request) = some request ∧
      (Fits jobId ∧ Fits pending.paymentProof ∧ Fits request) ∧
      mac = node.hmacSha256 (utf8 jobToken)
        (bindingMessage jobId pending.paymentProof request) := by
  unfold pendingBindingMac at h
  obtain ⟨hguard, h⟩ := Option.ite_none_right_eq_some.1 h
  obtain ⟨request, hrequest, h⟩ := Option.bind_eq_some_iff.1 h
  obtain ⟨hsizes, h⟩ := Option.ite_none_left_eq_some.1 h
  have hparts : ∀ part ∈ [js "stockanalyst:x402-pending-binding:v1", jobId,
      pending.paymentProof, request], Fits part := by
    intro part hpart
    rw [List.any_eq_true] at hsizes
    by_contra hlong
    exact hsizes ⟨utf8 part, List.mem_map_of_mem hpart, decide_eq_true (not_le.1 hlong)⟩
  refine ⟨by grind, request, hrequest, ?_, (Option.some.inj h).symm⟩
  exact ⟨hparts _ (by simp), hparts _ (by simp), hparts _ (by simp)⟩

/-- The message determines the job, the proof and the request. -/
theorem bindingMessage_inj {jobId jobId' paymentProof paymentProof' request request' : JsStr}
    (hjob : WellFormed jobId) (hjob' : WellFormed jobId') (hproof : WellFormed paymentProof)
    (hproof' : WellFormed paymentProof') (hrequest : WellFormed request)
    (hrequest' : WellFormed request') (hfits : Fits jobId ∧ Fits paymentProof ∧ Fits request)
    (hfits' : Fits jobId' ∧ Fits paymentProof' ∧ Fits request')
    (h : bindingMessage jobId paymentProof request =
      bindingMessage jobId' paymentProof' request') :
    jobId = jobId' ∧ paymentProof = paymentProof' ∧ request = request' := by
  have hsmall : ∀ {a b c : JsStr}, Fits a ∧ Fits b ∧ Fits c →
      ∀ part ∈ [js "stockanalyst:x402-pending-binding:v1", a, b, c].map utf8,
        part.length < 4294967296 := by
    intro a b c ⟨ha, hb, hc⟩
    unfold Fits maxPendingBytes at ha hb hc
    have hlabel : (utf8 (js "stockanalyst:x402-pending-binding:v1")).length < 4294967296 := by
      decide +kernel
    simp only [List.map_cons, List.map_nil, List.forall_mem_cons]
    exact ⟨hlabel, by omega, by omega, by omega, fun part hpart => nomatch hpart⟩
  have hparts := frames_inj (hsmall hfits) (hsmall hfits') h
  simp only [List.map_cons, List.map_nil, List.cons.injEq, true_and, and_true] at hparts
  exact ⟨hjob.utf8_inj hjob' hparts.1, hproof.utf8_inj hproof' hparts.2.1,
    hrequest.utf8_inj hrequest' hparts.2.2⟩

/-- A job id is well-formed Unicode. -/
theorem wellFormed_jobId {jobId : JsStr} (h : isJobId jobId = true) : WellFormed jobId := by
  simp only [isJobId, Bool.and_eq_true] at h
  obtain ⟨⟨hstart, -⟩, hhex⟩ := h
  obtain ⟨digits, rfl⟩ := List.isPrefixOf_iff_prefix.1 hstart
  have hdigits : (js "x402_" ++ digits).drop 5 = digits := @List.drop_left _ (js "x402_") _
  rw [hdigits, List.all_eq_true] at hhex
  apply wellFormed_ascii
  intro c hc
  obtain hc | hc := List.mem_append.1 hc
  · have hall : ∀ c ∈ js "x402_", c < 0x80 := by decide
    exact hall c hc
  · have hdigit := hhex c hc
    simp only [isLowerHex, Bool.or_eq_true, Bool.and_eq_true, decide_eq_true_eq] at hdigit
    omega

/-! ## Bindings -/

/-- What bindings made with `node` bind. -/
structure Binding (node : Node) : Prop where
  /-- A MAC is that of the message of its record. -/
  fed : ∀ (pending : PendingCreateRecord) (jobId jobToken : JsStr) (mac : List Nat),
    pendingBindingMac node pending jobId jobToken = some mac →
      ∃ request, canonicalJson node (.obj pending.request) = some request ∧
        (Fits jobId ∧ Fits pending.paymentProof ∧ Fits request) ∧
        mac = node.hmacSha256 (utf8 jobToken) (bindingMessage jobId pending.paymentProof request)
  /-- Values are told apart by their texts. -/
  canonical : ∀ a b : Value, a.Held → b.Held → ∀ text text',
    canonicalJson node a = some text → canonicalJson node b = some text' →
      (text = text' ↔ deepEqual a b = true)
  /-- Parts are told apart by their message. -/
  message : ∀ jobId jobId' paymentProof paymentProof' request request' : JsStr,
    WellFormed jobId → WellFormed jobId' → WellFormed paymentProof → WellFormed paymentProof' →
    WellFormed request → WellFormed request' →
    Fits jobId ∧ Fits paymentProof ∧ Fits request →
    Fits jobId' ∧ Fits paymentProof' ∧ Fits request' →
      bindingMessage jobId paymentProof request = bindingMessage jobId' paymentProof' request' →
        jobId = jobId' ∧ paymentProof = paymentProof' ∧ request = request'
  /-- Two records with one MAC under one token, where no two messages have one
  digest under that token. -/
  mac : ∀ (pending pending' : PendingCreateRecord) (jobId jobId' jobToken : JsStr)
    (mac : List Nat), Function.Injective (node.hmacSha256 (utf8 jobToken)) →
    WellFormed pending.paymentProof → WellFormed pending'.paymentProof →
    (Value.obj pending.request).Held → (Value.obj pending'.request).Held →
    pendingBindingMac node pending jobId jobToken = some mac →
    pendingBindingMac node pending' jobId' jobToken = some mac →
      jobId = jobId' ∧ pending.paymentProof = pending'.paymentProof ∧
        deepEqual (.obj pending.request) (.obj pending'.request) = true

/-- **Bindings bind.** -/
theorem pendingBinding_injective (hnumbers : NumberTexts node) : Binding node where
  fed pending jobId jobToken mac h := (pendingBindingMac_some h).2
  canonical a b ha hb text text' htext htext' := canonicalJson_iff hnumbers ha hb htext htext'
  message _ _ _ _ _ _ hjob hjob' hproof hproof' hrequest hrequest' hfits hfits' h :=
    bindingMessage_inj hjob hjob' hproof hproof' hrequest hrequest' hfits hfits' h
  mac pending pending' jobId jobId' jobToken mac hcollision hproof hproof' hheld hheld' h h' := by
    obtain ⟨hjob, request, hrequest, hfits, rfl⟩ := pendingBindingMac_some h
    obtain ⟨hjob', request', hrequest', hfits', hmac⟩ := pendingBindingMac_some h'
    obtain ⟨rfl, hsame, rfl⟩ := bindingMessage_inj (wellFormed_jobId hjob)
      (wellFormed_jobId hjob') hproof hproof' (wellFormed_canonicalJson hnumbers hheld hrequest)
      (wellFormed_canonicalJson hnumbers hheld' hrequest') hfits hfits' (hcollision hmac)
    exact ⟨rfl, hsame, (canonicalJson_iff hnumbers hheld hheld' hrequest hrequest').1 rfl⟩

/-- The exact decimal of a double. -/
def exactDecimal (abs : ℚ) : JsStr :=
  let k := Nat.log2 abs.den
  intText (abs.num.natAbs * 5 ^ k : ℕ) ++ if k = 0 then [] else js "e-" ++ intText k

/-- The number of an exact decimal. -/
def decimalValue (text : JsStr) : ℚ :=
  natOf (text.takeWhile isDigit) / 10 ^ natOf ((text.dropWhile isDigit).drop 2)

/-- A program that writes doubles as exact decimals, with the message itself
for its MAC. -/
def decimalNode : Node where
  number text :=
    if text.head? = some 45 then .finite true (decimalValue text.tail)
    else .finite false (decimalValue text)
  numberText x :=
    match x with
    | .finite neg abs => if neg && abs ≠ 0 then 45 :: exactDecimal abs else exactDecimal abs
    | _ => []
  base64Text text := text
  base64Url text := text
  utf8Text bytes := bytes
  hmacSha256 _ message := message

/-- An exact decimal is an unsigned number. -/
theorem exactDecimal_parts (abs : ℚ) :
    isNumber (exactDecimal abs) = true ∧ (exactDecimal abs).head? ≠ some 45 ∧
      isNumber (45 :: exactDecimal abs) = true ∧
      decimalValue (exactDecimal abs) =
        (abs.num.natAbs * 5 ^ Nat.log2 abs.den : ℕ) / 10 ^ Nat.log2 abs.den := by
  obtain ⟨hunsigned, hdigits⟩ := intText_digits (abs.num.natAbs * 5 ^ Nat.log2 abs.den)
  have hexponent := (intText_digits (Nat.log2 abs.den)).2
  have hnil := intText_ne_nil (Nat.log2 abs.den)
  obtain ⟨rest, htext, hfraction, hstop, hpower⟩ : ∃ rest,
      exactDecimal abs = intText (abs.num.natAbs * 5 ^ Nat.log2 abs.den : ℕ) ++ rest ∧
        isFraction rest = true ∧ (∀ c ∈ rest.head?, isDigit c = false) ∧
        natOf (rest.drop 2) = Nat.log2 abs.den := by
    by_cases hk : Nat.log2 abs.den = 0
    · exact ⟨[], by simp only [exactDecimal, if_pos hk], rfl, by simp, by rw [hk]; rfl⟩
    · refine ⟨js "e-" ++ intText (Nat.log2 abs.den), by simp only [exactDecimal, if_neg hk], ?_,
        ?_, natOf_intText _⟩
      · have hjs : js "e-" = [101, 45] := rfl
        rw [hjs]
        simpa [isFraction, isExponent, hnil] using hexponent
      · intro c hc
        obtain rfl := Option.some.inj hc
        rfl
  have htake : (exactDecimal abs).takeWhile isDigit =
      intText (abs.num.natAbs * 5 ^ Nat.log2 abs.den : ℕ) := by
    rw [htext, List.takeWhile_append_of_pos hdigits]
    cases rest with
    | nil => simp
    | cons c rest => simp [hstop c rfl]
  have hdrop : (exactDecimal abs).dropWhile isDigit = rest := by
    rw [htext, List.dropWhile_append_of_pos hdigits]
    cases rest with
    | nil => simp
    | cons c rest => simp [hstop c rfl]
  have hhead : (exactDecimal abs).head? ≠ some 45 := by
    intro hminus
    obtain ⟨tail, htail⟩ := List.head?_eq_some_iff.1 hminus
    have hempty := htake
    rw [htail, List.takeWhile_cons, if_neg (by decide)] at hempty
    exact intText_ne_nil _ hempty.symm
  refine ⟨?_, hhead, ?_, ?_⟩
  · rw [isNumber, if_neg hhead, htake, hdrop, hunsigned, hfraction]
    rfl
  · rw [isNumber, if_pos List.head?_cons, List.tail_cons, htake, hdrop, hunsigned, hfraction]
    rfl
  · rw [decimalValue, htake, hdrop, natOf_intText, hpower]

/-- An exact decimal is read as its value. -/
theorem decimalValue_exactDecimal {abs : ℚ} (h : IsDouble abs) :
    decimalValue (exactDecimal abs) = abs := by
  obtain ⟨k, hk⟩ := h.den
  have hlog : Nat.log2 abs.den = k := by rw [hk, Nat.log2_two_pow]
  have hnum : (abs.num.natAbs : ℚ) = abs.num := by
    have hnonneg : 0 ≤ abs.num := Rat.num_nonneg.2 h.nonneg
    rw [← Int.cast_natCast, Int.natAbs_of_nonneg hnonneg]
  rw [(exactDecimal_parts abs).2.2.2, hlog]
  calc ((abs.num.natAbs * 5 ^ k : ℕ) : ℚ) / 10 ^ k
      = abs.num * 5 ^ k / (2 ^ k * 5 ^ k) := by
        rw [← mul_pow]
        push_cast
        rw [hnum]
        norm_num
    _ = abs.num / (abs.den : ℚ) := by
        rw [hk]
        push_cast
        rw [mul_div_mul_right _ _ (by positivity)]
    _ = abs := Rat.num_div_den abs

/-- Exact decimals tell numbers apart. -/
theorem numberTexts_decimalNode : NumberTexts decimalNode where
  isNumber neg abs hdouble := by
    obtain ⟨hnumber, -, hminus, -⟩ := exactDecimal_parts abs
    simp only [decimalNode]
    split
    · exact hminus
    · exact hnumber
  reads neg abs hdouble hzero := by
    obtain ⟨-, hhead, -, -⟩ := exactDecimal_parts abs
    have hvalue := decimalValue_exactDecimal hdouble
    simp only [decimalNode]
    cases neg with
    | false => simp [hhead, hvalue]
    | true =>
        have hne : abs ≠ 0 := fun h => nomatch hzero h
        simp [hne, hvalue]
  zero := rfl

theorem pendingBinding_injective_decimal : Binding decimalNode :=
  pendingBinding_injective numberTexts_decimalNode

end X402Async
