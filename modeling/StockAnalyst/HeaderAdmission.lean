import StockAnalyst.RequestRoundTrip

/-!
# Header admission

`_allowed_headers` reads two maps whose names may differ in case only.  What
it admits and what it records depend on the lowered entries alone and not on
their order, and every occurrence of an allowed name has the recorded value.
-/

namespace X402Lambda

open Python X402 Checks

variable {lib : Lib} {items items' entries entries' : List (PyStr × Json)}
  {headers headers' : List (PyStr × PyStr)}

variable (lib) in
/-- An entry under its lowered name. -/
def lowered (e : PyStr × Json) : PyStr × Json := (lib.net.lib.lower e.1, e.2)

/-- The value of an allowed header passes every check. -/
def Admissible (name text : PyStr) : Prop :=
  isHeaderValue text = true ∧
    ¬ (name = py "payment-signature" ∧ maxPaymentSignatureCharacters < text.length) ∧
    latin1Encode text ≠ none

/-- A lowered entry of `headers` that is not refused on its own. -/
def Admitted (e : PyStr × Json) : Prop :=
  isHeaderName e.1 = true ∧
    (e.1 ∈ allowedHeaders → ∃ text, e.2 = .str text ∧ Admissible e.1 text)

/-- A lowered entry of `multiValueHeaders` that is not refused on its own. -/
def AdmittedSingle (e : PyStr × Json) : Prop :=
  isHeaderName e.1 = true ∧
    (e.1 ∈ allowedHeaders → ∃ text, e.2 = .arr [.str text] ∧ Admissible e.1 text)

/-- No allowed name has two values. -/
def Agree (items : List (PyStr × Json)) : Prop :=
  ∀ name ∈ allowedHeaders, ∀ a b, (name, .str a) ∈ items → (name, .str b) ∈ items → a = b

/-- A header is carried where it stands in lower case. -/
theorem carries_iff {name value : PyStr} :
    Carries lib items name value ↔ (name, .str value) ∈ items.map (lowered lib) := by
  rw [List.mem_map]
  constructor
  · intro ⟨rawName, hmem, hname⟩
    exact ⟨(rawName, .str value), hmem, by rw [lowered, hname]⟩
  · intro ⟨e, hmem, he⟩
    obtain ⟨hname, hvalue⟩ := Prod.mk.inj he
    exact ⟨e.1, hvalue ▸ hmem, hname⟩

/-! ## One entry -/

/-- When one header is recorded, and as what. -/
theorem recordHeader_iff {rawName : PyStr} {value : Json} :
    recordHeader lib headers rawName value = .ok headers' ↔
      Admitted (lib.net.lib.lower rawName, value) ∧
        ((lib.net.lib.lower rawName ∉ allowedHeaders ∧ headers' = headers) ∨
          lib.net.lib.lower rawName ∈ allowedHeaders ∧ ∃ text, value = .str text ∧
            (∀ old, headers.lookup (lib.net.lib.lower rawName) = some old → old = text) ∧
            headers' = dictSet headers (lib.net.lib.lower rawName) text) := by
  unfold recordHeader headerName
  dsimp only
  by_cases hname : isHeaderName (lib.net.lib.lower rawName) = true
  · rw [if_pos hname]
    change (if (!allowedHeaders.contains (lib.net.lib.lower rawName)) = true then _ else _) = _ ↔ _
    by_cases hmem : lib.net.lib.lower rawName ∈ allowedHeaders
    · rw [List.contains_iff_mem.2 hmem, Bool.not_true, if_neg Bool.false_ne_true]
      cases value with
      | str text =>
          have hsame : ¬ (headers.lookup (lib.net.lib.lower rawName)).any (· != text) = true ↔
              ∀ old, headers.lookup (lib.net.lib.lower rawName) = some old → old = text := by
            cases headers.lookup (lib.net.lib.lower rawName) with
            | none => simp
            | some old => simp
          simp only [unless_error, hsame]
          constructor
          · intro ⟨hvalue, hlength, hlatin, hagree, hset⟩
            refine ⟨⟨hname, fun _ => ⟨text, rfl, by simpa using hvalue, by simpa using hlength, ?_⟩⟩,
              Or.inr ⟨hmem, text, rfl, hagree, (Except.ok.inj hset).symm⟩⟩
            simpa [Option.isNone_iff_eq_none] using hlatin
          · intro ⟨⟨_, hadmitted⟩, hresult⟩
            obtain ⟨text', htext, hvalue, hlength, hlatin⟩ := hadmitted hmem
            obtain rfl := Json.str.inj htext
            obtain ⟨hother, -⟩ | ⟨-, text', htext, hagree, rfl⟩ := hresult
            · exact absurd hmem hother
            · obtain rfl := Json.str.inj htext
              exact ⟨by simpa using hvalue, by simpa using hlength,
                by simpa [Option.isNone_iff_eq_none] using hlatin, hagree, rfl⟩
      | _ =>
          constructor
          · intro h
            cases h
          · intro ⟨⟨_, hadmitted⟩, _⟩
            obtain ⟨text, htext, _⟩ := hadmitted hmem
            cases htext
    · have hcontains : allowedHeaders.contains (lib.net.lib.lower rawName) = false := by
        simpa using hmem
      rw [hcontains, Bool.not_false, if_pos rfl]
      constructor
      · intro h
        exact ⟨⟨hname, fun hallowed => absurd hallowed hmem⟩,
          Or.inl ⟨hmem, (Except.ok.inj h).symm⟩⟩
      · intro ⟨_, hresult⟩
        obtain ⟨-, rfl⟩ | ⟨hallowed, -⟩ := hresult
        · rfl
        · exact absurd hallowed hmem
  · rw [if_neg hname]
    constructor
    · intro h
      cases h
    · intro ⟨⟨hvalid, _⟩, _⟩
      exact absurd hvalid hname

/-- A header is refused with one code only. -/
theorem recordHeader_error {rawName : PyStr} {value : Json} {error : RequestError}
    (h : recordHeader lib headers rawName value = .error error) :
    error = .requestHeaderNotAllowed := by
  unfold recordHeader headerName at h
  simp only [bind, Except.bind, pure, Except.pure] at h
  grind

/-- When one entry of `multiValueHeaders` is recorded, and as what. -/
theorem recordSingle_iff {rawName : PyStr} {values : Json} :
    recordSingle lib headers rawName values = .ok headers' ↔
      AdmittedSingle (lib.net.lib.lower rawName, values) ∧
        ((lib.net.lib.lower rawName ∉ allowedHeaders ∧ headers' = headers) ∨
          lib.net.lib.lower rawName ∈ allowedHeaders ∧ ∃ text, values = .arr [.str text] ∧
            (∀ old, headers.lookup (lib.net.lib.lower rawName) = some old → old = text) ∧
            headers' = dictSet headers (lib.net.lib.lower rawName) text) := by
  unfold recordSingle headerName
  dsimp only
  by_cases hname : isHeaderName (lib.net.lib.lower rawName) = true
  · rw [if_pos hname]
    change (if (!allowedHeaders.contains (lib.net.lib.lower rawName)) = true then _ else _) = _ ↔ _
    by_cases hmem : lib.net.lib.lower rawName ∈ allowedHeaders
    · rw [List.contains_iff_mem.2 hmem, Bool.not_true, if_neg Bool.false_ne_true]
      constructor
      · intro h
        split at h
        · rename_i value
          obtain ⟨⟨_, hadmitted⟩, hresult⟩ := recordHeader_iff.1 h
          obtain ⟨text, htext, hadmissible⟩ := hadmitted hmem
          dsimp only at htext
          subst htext
          refine ⟨⟨hname, fun _ => ⟨text, rfl, hadmissible⟩⟩, ?_⟩
          obtain ⟨hother, -⟩ | ⟨-, text', htext, hagree, hset⟩ := hresult
          · exact absurd hmem hother
          · obtain rfl := Json.str.inj htext
            exact Or.inr ⟨hmem, text, rfl, hagree, hset⟩
        · cases h
      · intro ⟨⟨_, hadmitted⟩, hresult⟩
        obtain ⟨text, htext, hadmissible⟩ := hadmitted hmem
        dsimp only at htext
        subst htext
        refine recordHeader_iff.2 ⟨⟨hname, fun _ => ⟨text, rfl, hadmissible⟩⟩, ?_⟩
        obtain ⟨hother, -⟩ | ⟨-, text', htext, hagree, hset⟩ := hresult
        · exact absurd hmem hother
        · obtain ⟨htext, -⟩ := List.cons.inj (Json.arr.inj htext)
          obtain rfl := Json.str.inj htext
          exact Or.inr ⟨hmem, text, rfl, hagree, hset⟩
    · have hcontains : allowedHeaders.contains (lib.net.lib.lower rawName) = false := by
        simpa using hmem
      rw [hcontains, Bool.not_false, if_pos rfl]
      constructor
      · intro h
        exact ⟨⟨hname, fun hallowed => absurd hallowed hmem⟩,
          Or.inl ⟨hmem, (Except.ok.inj h).symm⟩⟩
      · intro ⟨_, hresult⟩
        obtain ⟨-, rfl⟩ | ⟨hallowed, -⟩ := hresult
        · rfl
        · exact absurd hallowed hmem
  · rw [if_neg hname]
    constructor
    · intro h
      cases h
    · intro ⟨⟨_, hvalid⟩, _⟩
      exact absurd ‹_› hname

/-- A header of several values is refused with the same code. -/
theorem recordSingle_error {rawName : PyStr} {values : Json} {error : RequestError}
    (h : recordSingle lib headers rawName values = .error error) :
    error = .requestHeaderNotAllowed := by
  unfold recordSingle headerName at h
  simp only [bind, Except.bind, pure, Except.pure] at h
  have hrecord : ∀ value, recordHeader lib headers rawName value = .error error →
      error = .requestHeaderNotAllowed := fun _ => recordHeader_error
  grind

/-! ## The two loops -/

/-- Headers among agreeing ones agree. -/
theorem Agree.mono (h : Agree entries) (hsub : ∀ e ∈ items, e ∈ entries) : Agree items :=
  fun name hname a b ha hb => h name hname a b (hsub _ ha) (hsub _ hb)

/-- Values that have been recorded agree. -/
theorem Recorded.agree (h : Recorded lib items headers) : Agree (items.map (lowered lib)) := by
  intro name hname a b ha hb
  have hfirst := (h.carried name hname a).2 (carries_iff.2 ha)
  have hsecond := (h.carried name hname b).2 (carries_iff.2 hb)
  rw [hfirst] at hsecond
  exact Option.some.inj hsecond

/-- A header that agrees with the ones before has the value recorded. -/
theorem agree_append_lookup {seen : List (PyStr × Json)} {rawName text old : PyStr}
    (h : Recorded lib seen headers) (hmem : lib.net.lib.lower rawName ∈ allowedHeaders)
    (hagree : Agree ((seen ++ [(rawName, Json.str text)]).map (lowered lib)))
    (hold : headers.lookup (lib.net.lib.lower rawName) = some old) : old = text := by
  have hcarried := carries_iff.1 ((h.carried _ hmem old).1 hold)
  apply hagree _ hmem
  · rw [List.map_append]
    exact List.mem_append_left _ hcarried
  · rw [List.map_append]
    exact List.mem_append_right _ (List.mem_singleton_self _)

variable (lib) in
/-- What one pass of a loop records: which items an entry adds, and which
entries are refused on their own. -/
structure Pass (record : List (PyStr × PyStr) → PyStr × Json →
      Except RequestError (List (PyStr × PyStr)))
    (part : PyStr × Json → List (PyStr × Json)) (Passes : PyStr × Json → Prop) : Prop where
  keeps : ∀ seen headers headers' e, Recorded lib seen headers →
    record headers e = .ok headers' → Recorded lib (seen ++ part e) headers'
  passes : ∀ headers headers' e, record headers e = .ok headers' → Passes (lowered lib e)
  records : ∀ seen headers e, Recorded lib seen headers → Passes (lowered lib e) →
    Agree ((seen ++ part e).map (lowered lib)) → ∃ headers', record headers e = .ok headers'
  refuses : ∀ headers e error, record headers e = .error error → error = .requestHeaderNotAllowed

/-- The loop over headers passes what is admitted. -/
theorem pass_recordHeader :
    Pass lib (fun headers e => recordHeader lib headers e.1 e.2) (fun e => [e]) Admitted := by
  refine ⟨fun _ _ _ _ h hrecord => h.record hrecord,
    fun _ _ _ hrecord => (recordHeader_iff.1 hrecord).1, ?_, fun _ _ _ => recordHeader_error⟩
  intro seen headers e h hadmitted hagree
  by_cases hmem : lib.net.lib.lower e.1 ∈ allowedHeaders
  · obtain ⟨text, htext, -⟩ := hadmitted.2 hmem
    obtain ⟨rawName, value⟩ := e
    dsimp only [lowered] at htext
    subst htext
    exact ⟨_, recordHeader_iff.2 ⟨hadmitted, Or.inr ⟨hmem, text, rfl,
      fun old hold => agree_append_lookup h hmem hagree hold, rfl⟩⟩⟩
  · exact ⟨headers, recordHeader_iff.2 ⟨hadmitted, Or.inl ⟨hmem, rfl⟩⟩⟩

/-- The loop over several values passes what is admitted. -/
theorem pass_recordSingle :
    Pass lib (fun headers e => recordSingle lib headers e.1 e.2) singleItems AdmittedSingle := by
  refine ⟨fun _ _ _ _ h hrecord => h.single hrecord,
    fun _ _ _ hrecord => (recordSingle_iff.1 hrecord).1, ?_, fun _ _ _ => recordSingle_error⟩
  intro seen headers e h hadmitted hagree
  by_cases hmem : lib.net.lib.lower e.1 ∈ allowedHeaders
  · obtain ⟨text, htext, -⟩ := hadmitted.2 hmem
    obtain ⟨rawName, values⟩ := e
    dsimp only [lowered] at htext
    subst htext
    exact ⟨_, recordSingle_iff.2 ⟨hadmitted, Or.inr ⟨hmem, text, rfl,
      fun old hold => agree_append_lookup h hmem hagree hold, rfl⟩⟩⟩
  · exact ⟨headers, recordSingle_iff.2 ⟨hadmitted, Or.inl ⟨hmem, rfl⟩⟩⟩

namespace Pass

variable {record : List (PyStr × PyStr) → PyStr × Json →
    Except RequestError (List (PyStr × PyStr))}
  {part : PyStr × Json → List (PyStr × Json)} {Passes : PyStr × Json → Prop}
  {seen : List (PyStr × Json)}

/-- A loop that passes has recorded all it was given. -/
theorem loop_keeps (hpass : Pass lib record part Passes) (h : Recorded lib seen headers)
    (hloop : items.foldlM record headers = .ok headers') :
    Recorded lib (seen ++ items.flatMap part) headers' := by
  refine foldlM_ok (fun done headers => Recorded lib (seen ++ done.flatMap part) headers)
    ?_ (by simpa using h) hloop
  intro done b e b' hb hstep
  have hnext := hpass.keeps _ _ _ _ hb hstep
  simpa [List.flatMap_append] using hnext

/-- A loop goes through when every entry passes and no two values differ. -/
theorem loop_iff (hpass : Pass lib record part Passes) (h : Recorded lib seen headers) :
    (∃ headers', items.foldlM record headers = .ok headers') ↔
      (∀ e ∈ items, Passes (lowered lib e)) ∧
        Agree ((seen ++ items.flatMap part).map (lowered lib)) := by
  constructor
  · intro ⟨headers', hloop⟩
    refine ⟨?_, (hpass.loop_keeps h hloop).agree⟩
    clear h
    induction items generalizing headers with
    | nil => simp
    | cons e items ih =>
        rw [List.foldlM_cons] at hloop
        obtain ⟨next, hstep, hrest⟩ := bind_eq_ok hloop
        exact List.forall_mem_cons.2 ⟨hpass.passes _ _ _ hstep, ih hrest⟩
  · intro ⟨hpasses, hagree⟩
    induction items generalizing seen headers with
    | nil => exact ⟨headers, rfl⟩
    | cons e items ih =>
        obtain ⟨hfirst, hpasses⟩ := List.forall_mem_cons.1 hpasses
        rw [List.flatMap_cons, ← List.append_assoc] at hagree
        have hagree' : Agree ((seen ++ part e).map (lowered lib)) := by
          apply hagree.mono
          intro x hx
          rw [List.map_append]
          exact List.mem_append_left _ hx
        obtain ⟨next, hstep⟩ := hpass.records seen headers e h hfirst hagree'
        obtain ⟨headers', hrest⟩ := ih (hpass.keeps _ _ _ _ h hstep) hpasses hagree
        refine ⟨headers', ?_⟩
        rw [List.foldlM_cons, hstep]
        exact hrest

/-- A loop refuses with one code only. -/
theorem loop_error (hpass : Pass lib record part Passes) {error : RequestError}
    (hloop : items.foldlM record headers = .error error) : error = .requestHeaderNotAllowed := by
  induction items generalizing headers with
  | nil => cases hloop
  | cons e items ih =>
      rw [List.foldlM_cons] at hloop
      cases hstep : record headers e with
      | error first =>
          rw [hstep] at hloop
          obtain rfl := Except.error.inj hloop
          exact hpass.refuses _ _ _ hstep
      | ok next =>
          rw [hstep] at hloop
          exact ih hloop

end Pass

/-! ## The two maps -/

/-- The outcome over two mappings. -/
theorem allowedHeadersOf_iff :
    (∃ headers, allowedHeadersOf lib (some (.obj items)) (some (.obj entries)) = .ok headers) ↔
      (∀ e ∈ items, Admitted (lowered lib e)) ∧ (∀ e ∈ entries, AdmittedSingle (lowered lib e)) ∧
        Agree ((items ++ entries.flatMap singleItems).map (lowered lib)) := by
  have hempty : Recorded lib [] [] := ⟨List.nodup_nil, by simp, by simp [Carries]⟩
  constructor
  · intro hok
    obtain ⟨headers, h⟩ := hok
    obtain ⟨raws, hraws, h⟩ := bind_eq_ok h
    obtain rfl := Except.ok.inj hraws
    obtain ⟨first, hfirst, hsecond⟩ := bind_eq_ok h
    have hrecorded := pass_recordHeader.loop_keeps hempty hfirst
    have hadmitted := ((pass_recordHeader.loop_iff hempty).1 ⟨first, hfirst⟩).1
    obtain ⟨hsingle, hagree⟩ := (pass_recordSingle.loop_iff hrecorded).1 ⟨headers, hsecond⟩
    exact ⟨hadmitted, hsingle, by simpa using hagree⟩
  · intro hitems
    obtain ⟨hadmitted, hsingle, hagree⟩ := hitems
    have hagree' : Agree (([] ++ items.flatMap fun e => [e]).map (lowered lib)) := by
      apply hagree.mono
      intro e he
      rw [List.map_append]
      exact List.mem_append_left _ (by simpa using he)
    obtain ⟨first, hfirst⟩ := (pass_recordHeader.loop_iff hempty).2 ⟨hadmitted, hagree'⟩
    have hrecorded := pass_recordHeader.loop_keeps hempty hfirst
    obtain ⟨headers, hsecond⟩ :=
      (pass_recordSingle.loop_iff hrecorded).2 ⟨hsingle, by simpa using hagree⟩
    refine ⟨headers, ?_⟩
    simp only [allowedHeadersOf, itemsOf, bind, Except.bind] at hfirst ⊢
    rw [hfirst]
    exact hsecond

/-- Headers are refused with one code only. -/
theorem allowedHeadersOf_error {error : RequestError}
    (h : allowedHeadersOf lib (some (.obj items)) (some (.obj entries)) = .error error) :
    error = .requestHeaderNotAllowed := by
  simp only [allowedHeadersOf, itemsOf, bind, Except.bind] at h
  split at h
  · rename_i hfirst
    obtain rfl := Except.error.inj h
    exact pass_recordHeader.loop_error hfirst
  · exact pass_recordSingle.loop_error h

/-- Two mappings with the same entries, in any order and with any ASCII case
of the names. -/
def SameMap (items items' : List (PyStr × Json)) : Prop :=
  ∃ shuffled, shuffled.Perm items' ∧
    List.Forall₂ (fun e e' => e.1.map asciiLower = e'.1.map asciiLower ∧ e.2 = e'.2) items shuffled

/-- The same rejection, or dictionaries with the same entries. -/
def SameOutcome : Except RequestError (List (PyStr × PyStr)) →
    Except RequestError (List (PyStr × PyStr)) → Prop
  | .ok headers, .ok headers' =>
      (headers.map (·.1)).Nodup ∧ (headers'.map (·.1)).Nodup ∧ headers.Perm headers'
  | .error error, .error error' => error = error'
  | _, _ => False

/-- Names that differ in ASCII case are lowered alike. -/
def FoldsAscii (lib : Lib) : Prop :=
  ∀ s t : PyStr, s.map asciiLower = t.map asciiLower → lib.net.lib.lower s = lib.net.lib.lower t

/-- Maps that differ in order and case are alike in lower case. -/
theorem SameMap.lowered (hlower : FoldsAscii lib) (h : SameMap items items') :
    (items.map (lowered lib)).Perm (items'.map (lowered lib)) := by
  obtain ⟨shuffled, hperm, hsame⟩ := h
  have heq : items.map (X402Lambda.lowered lib) = shuffled.map (X402Lambda.lowered lib) := by
    clear hperm
    induction hsame with
    | nil => rfl
    | cons hentry _ ih =>
        rw [List.map_cons, List.map_cons, ih, X402Lambda.lowered, X402Lambda.lowered,
          hlower _ _ hentry.1, hentry.2]
  rw [heq]
  exact hperm.map _

/-- Lower case reaches every single value. -/
theorem singleItems_lowered (e : PyStr × Json) :
    singleItems (lowered lib e) = (singleItems e).map (lowered lib) := by
  obtain ⟨rawName, value⟩ := e
  unfold singleItems lowered
  dsimp only
  split <;> rfl

/-- So it does in all entries. -/
theorem flatMap_singleItems_lowered :
    (entries.flatMap singleItems).map (lowered lib) =
      (entries.map (lowered lib)).flatMap singleItems := by
  rw [List.map_flatMap, List.flatMap_map]
  congr 1
  funext e
  exact (singleItems_lowered e).symm

/-- Two dictionaries that record the same lowered items are the same. -/
theorem Recorded.perm (h : Recorded lib items headers) (h' : Recorded lib items' headers')
    (hperm : (items.map (lowered lib)).Perm (items'.map (lowered lib))) :
    headers.Perm headers' := by
  refine (List.perm_ext_iff_of_nodup (List.Nodup.of_map _ h.nodup)
    (List.Nodup.of_map _ h'.nodup)).2 ?_
  intro e
  have hcarried : ∀ name ∈ allowedHeaders, ∀ text,
      headers.lookup name = some text ↔ headers'.lookup name = some text := by
    intro name hname text
    rw [h.carried name hname text, h'.carried name hname text, carries_iff, carries_iff,
      hperm.mem_iff]
  obtain ⟨name, text⟩ := e
  rw [mem_iff_lookup h.nodup, mem_iff_lookup h'.nodup]
  constructor
  · intro hlookup
    have hname : name ∈ allowedHeaders := (h.sound _ (mem_of_lookup hlookup)).1
    exact (hcarried name hname text).1 hlookup
  · intro hlookup
    have hname : name ∈ allowedHeaders := (h'.sound _ (mem_of_lookup hlookup)).1
    exact (hcarried name hname text).2 hlookup

/-- Accepted headers are the recorded ones of both maps. -/
theorem recorded_of_maps
    (h : allowedHeadersOf lib (some (.obj items)) (some (.obj entries)) = .ok headers) :
    Recorded lib (items ++ entries.flatMap singleItems) headers := by
  have hempty : Recorded lib [] [] := ⟨List.nodup_nil, by simp, by simp [Carries]⟩
  obtain ⟨raws, hraws, h⟩ := bind_eq_ok h
  obtain rfl := Except.ok.inj hraws
  obtain ⟨first, hfirst, hsecond⟩ := bind_eq_ok h
  have hrecorded := pass_recordHeader.loop_keeps hempty hfirst
  simpa using pass_recordSingle.loop_keeps hrecorded hsecond

/-- What goes through is a matter of the lowered entries. -/
theorem admits_of_perm (hitems : (items.map (lowered lib)).Perm (items'.map (lowered lib)))
    (hentries : (entries.map (lowered lib)).Perm (entries'.map (lowered lib)))
    (h : ∃ headers, allowedHeadersOf lib (some (.obj items)) (some (.obj entries)) = .ok headers) :
    ∃ headers, allowedHeadersOf lib (some (.obj items')) (some (.obj entries')) = .ok headers := by
  obtain ⟨hadmitted, hsingle, hagree⟩ := allowedHeadersOf_iff.1 h
  refine allowedHeadersOf_iff.2 ⟨?_, ?_, ?_⟩
  · intro e he
    obtain ⟨e', he', heq⟩ := List.mem_map.1 (hitems.mem_iff.2 (List.mem_map_of_mem he))
    exact heq ▸ hadmitted e' he'
  · intro e he
    obtain ⟨e', he', heq⟩ := List.mem_map.1 (hentries.mem_iff.2 (List.mem_map_of_mem he))
    exact heq ▸ hsingle e' he'
  · apply hagree.mono
    intro e he
    rw [List.map_append, flatMap_singleItems_lowered] at he ⊢
    exact (hitems.append (hentries.flatMap_right singleItems)).mem_iff.2 he

/-- **Order and case do not matter**: both are refused or both record the
same. -/
theorem sameOutcome_maps
    (hitems : (items.map (lowered lib)).Perm (items'.map (lowered lib)))
    (hentries : (entries.map (lowered lib)).Perm (entries'.map (lowered lib))) :
    SameOutcome (allowedHeadersOf lib (some (.obj items)) (some (.obj entries)))
      (allowedHeadersOf lib (some (.obj items')) (some (.obj entries'))) := by
  cases hresult : allowedHeadersOf lib (some (.obj items)) (some (.obj entries)) with
  | ok headers =>
      obtain ⟨headers', hresult'⟩ := admits_of_perm hitems hentries ⟨headers, hresult⟩
      rw [hresult']
      have hrecorded := recorded_of_maps hresult
      have hrecorded' := recorded_of_maps hresult'
      refine ⟨hrecorded.nodup, hrecorded'.nodup, hrecorded.perm hrecorded' ?_⟩
      rw [List.map_append, List.map_append, flatMap_singleItems_lowered,
        flatMap_singleItems_lowered]
      exact hitems.append (hentries.flatMap_right singleItems)
  | error error =>
      cases hresult' : allowedHeadersOf lib (some (.obj items')) (some (.obj entries')) with
      | ok headers' =>
          obtain ⟨headers, hok⟩ := admits_of_perm hitems.symm hentries.symm ⟨headers', hresult'⟩
          rw [hresult] at hok
          cases hok
      | error error' =>
          rw [allowedHeadersOf_error hresult, allowedHeadersOf_error hresult']
          rfl

/-- The same value, or two mappings with the same entries. -/
def Alike (value value' : Option Json) : Prop :=
  value = value' ∨ ∃ items items',
    value = some (.obj items) ∧ value' = some (.obj items') ∧ SameMap items items'

/-- A map is the same as itself. -/
theorem SameMap.refl (items : List (PyStr × Json)) : SameMap items items :=
  ⟨items, .refl _, List.forall₂_same.2 fun _ _ => ⟨rfl, rfl⟩⟩

/-- `raw_headers` is refused, or read as a mapping. -/
theorem Alike.itemsOf {raw raw' : Option Json} (h : Alike raw raw') :
    (∃ error, itemsOf raw = .error error ∧ itemsOf raw' = .error error) ∨
      ∃ items items', itemsOf raw = .ok items ∧ itemsOf raw' = .ok items' ∧
        SameMap items items' := by
  obtain rfl | ⟨items, items', rfl, rfl, hsame⟩ := h
  · cases hitems : X402Lambda.itemsOf raw with
    | error error => exact Or.inl ⟨error, rfl, rfl⟩
    | ok items => exact Or.inr ⟨items, items, rfl, rfl, .refl items⟩
  · exact Or.inr ⟨items, items', rfl, rfl, hsame⟩

/-- The headers are read off their items. -/
theorem allowedHeadersOf_items {raw multi : Option Json} (h : itemsOf raw = .ok items) :
    allowedHeadersOf lib raw multi = allowedHeadersOf lib (some (.obj items)) multi := by
  unfold allowedHeadersOf
  rw [h]
  rfl

/-- The second loop comes after the first. -/
theorem allowedHeadersOf_split (raw multi : Option Json) :
    allowedHeadersOf lib raw multi = (allowedHeadersOf lib raw none).bind fun headers =>
      match multi with
      | none => .ok headers
      | some .null => .ok headers
      | some (.obj items) => items.foldlM (fun headers e => recordSingle lib headers e.1 e.2) headers
      | some _ => .error .invalidRequestHeaders := by
  unfold allowedHeadersOf
  cases itemsOf raw with
  | error error => rfl
  | ok items =>
      simp only [bind, Except.bind]
      cases items.foldlM (fun headers e => recordHeader lib headers e.1 e.2) [] with
      | error error => rfl
      | ok headers => rfl

/-- `multi_value_headers` is read as a mapping, or refused after the first
loop. -/
theorem allowedHeadersOf_multi (multi : Option Json) :
    (∀ raw, allowedHeadersOf lib raw multi =
        allowedHeadersOf lib raw (some (.obj (itemList multi)))) ∨
      ∀ raw, allowedHeadersOf lib raw multi =
        (allowedHeadersOf lib raw (some (.obj []))).bind fun _ => .error .invalidRequestHeaders := by
  have hempty : ∀ raw, allowedHeadersOf lib raw (some (.obj [])) =
      allowedHeadersOf lib raw none := by
    intro raw
    rw [allowedHeadersOf_split]
    cases allowedHeadersOf lib raw none with
    | error error => rfl
    | ok headers => rfl
  cases multi with
  | none => exact Or.inl fun raw => (hempty raw).symm
  | some value =>
      cases value with
      | obj entries => exact Or.inl fun raw => rfl
      | null => exact Or.inl fun raw => (hempty raw).symm
      | _ =>
          right
          intro raw
          rw [hempty, allowedHeadersOf_split]

/-- Outcomes that are refused anyway are the same. -/
theorem SameOutcome.refused {first second : Except RequestError (List (PyStr × PyStr))}
    {error : RequestError} (h : SameOutcome first second) :
    SameOutcome (first.bind fun _ => .error error) (second.bind fun _ => .error error) := by
  cases first with
  | error e =>
      cases second with
      | error e' => exact h
      | ok headers' => exact False.elim h
  | ok headers =>
      cases second with
      | error e' => exact False.elim h
      | ok headers' => rfl

/-- Alike events have the same outcome. -/
theorem sameOutcome_alike (hlower : FoldsAscii lib) {raw raw' multi multi' : Option Json}
    (hraw : Alike raw raw') (hmulti : Alike multi multi') :
    SameOutcome (allowedHeadersOf lib raw multi) (allowedHeadersOf lib raw' multi') := by
  obtain ⟨error, hitems, hitems'⟩ | ⟨items, items', hitems, hitems', hsame⟩ := hraw.itemsOf
  · have hrefused : ∀ raw multi, itemsOf raw = .error error →
        allowedHeadersOf lib raw multi = .error error := by
      intro raw multi h
      unfold allowedHeadersOf
      rw [h]
      rfl
    rw [hrefused raw multi hitems, hrefused raw' multi' hitems']
    rfl
  · rw [allowedHeadersOf_items hitems, allowedHeadersOf_items hitems']
    obtain rfl | ⟨entries, entries', rfl, rfl, hsame'⟩ := hmulti
    · obtain hread | hrefused := @allowedHeadersOf_multi lib multi
      · rw [hread, hread]
        exact sameOutcome_maps (hsame.lowered hlower) (.refl _)
      · rw [hrefused, hrefused]
        exact (sameOutcome_maps (hsame.lowered hlower) (.refl _)).refused
    · exact sameOutcome_maps (hsame.lowered hlower) (hsame'.lowered hlower)

/-- What every occurrence of an allowed name carried. -/
theorem occurrences_maps
    (h : allowedHeadersOf lib (some (.obj items)) (some (.obj entries)) = .ok headers) :
    (∀ e ∈ items, lib.net.lib.lower e.1 ∈ allowedHeaders → ∃ text, e.2 = .str text ∧
        headers.lookup (lib.net.lib.lower e.1) = some text) ∧
      ∀ e ∈ entries, lib.net.lib.lower e.1 ∈ allowedHeaders → ∃ text, e.2 = .arr [.str text] ∧
        headers.lookup (lib.net.lib.lower e.1) = some text := by
  have hrecorded := recorded_of_maps h
  obtain ⟨hadmitted, hsingle, -⟩ := allowedHeadersOf_iff.1 ⟨headers, h⟩
  constructor
  · intro e he hname
    obtain ⟨text, htext, -⟩ := (hadmitted e he).2 hname
    refine ⟨text, htext, (hrecorded.carried _ hname text).2 ⟨e.1, ?_, rfl⟩⟩
    apply List.mem_append_left
    exact htext ▸ he
  · intro e he hname
    obtain ⟨text, htext, -⟩ := (hsingle e he).2 hname
    refine ⟨text, htext, (hrecorded.carried _ hname text).2 ⟨e.1, ?_, rfl⟩⟩
    apply List.mem_append_right
    refine List.mem_flatMap.2 ⟨e, he, ?_⟩
    have hvalue : e.2 = .arr [.str text] := htext
    rw [singleItems, hvalue]
    exact List.mem_singleton_self _

/-- **No header is smuggled.**  The outcome does not depend on the order of
the entries or on the ASCII case of the names, and every occurrence of an
allowed name carried the value that is in the result. -/
theorem allowedHeadersOf_no_smuggling (hlower : FoldsAscii lib)
    {raw raw' multi multi' : Option Json} (hraw : Alike raw raw') (hmulti : Alike multi multi') :
    SameOutcome (allowedHeadersOf lib raw multi) (allowedHeadersOf lib raw' multi') ∧
      ∀ headers, allowedHeadersOf lib raw multi = .ok headers →
        (∀ e ∈ itemList raw, lib.net.lib.lower e.1 ∈ allowedHeaders → ∃ text, e.2 = .str text ∧
            headers.lookup (lib.net.lib.lower e.1) = some text) ∧
          ∀ e ∈ itemList multi, lib.net.lib.lower e.1 ∈ allowedHeaders →
            ∃ text, e.2 = .arr [.str text] ∧
              headers.lookup (lib.net.lib.lower e.1) = some text := by
  refine ⟨sameOutcome_alike hlower hraw hmulti, ?_⟩
  intro headers h
  obtain ⟨items, hitems, -⟩ := bind_eq_ok h
  rw [allowedHeadersOf_items hitems] at h
  rw [itemsOf_ok hitems]
  obtain hread | hrefused := @allowedHeadersOf_multi lib multi
  · rw [hread] at h
    exact occurrences_maps h
  · rw [hrefused] at h
    obtain ⟨first, -, h⟩ := bind_eq_ok h
    cases h

theorem foldsAscii_sampleLib : FoldsAscii sampleLib := fun _ _ h => h

/-- Headers of a paid request, in two spellings. -/
def paidHeaders : Json :=
  .obj [(py "Accept", .str (py "*/*")), (py "Payment-Signature", .str (py "c2ln"))]

def paidHeadersShuffled : Json :=
  .obj [(py "PAYMENT-signature", .str (py "c2ln")), (py "accept", .str (py "*/*"))]

/-- A paid request with its headers shuffled. -/
theorem allowedHeadersOf_no_smuggling_paid :
    SameOutcome
        (allowedHeadersOf sampleLib (some paidHeaders)
          (some (.obj [(py "ACCEPT", .arr [.str (py "*/*")])])))
        (allowedHeadersOf sampleLib (some paidHeadersShuffled)
          (some (.obj [(py "ACCEPT", .arr [.str (py "*/*")])]))) ∧
      ∃ headers, allowedHeadersOf sampleLib (some paidHeaders)
          (some (.obj [(py "ACCEPT", .arr [.str (py "*/*")])])) = .ok headers ∧
        headers.lookup (py "payment-signature") = some (py "c2ln") := by
  have hraw : Alike (some paidHeaders) (some paidHeadersShuffled) := by
    refine Or.inr ⟨_, _, rfl, rfl, _, List.Perm.swap _ _ [], ?_⟩
    exact .cons ⟨by decide, rfl⟩ (.cons ⟨by decide, rfl⟩ .nil)
  obtain ⟨hsame, hoccurs⟩ := allowedHeadersOf_no_smuggling foldsAscii_sampleLib hraw
    (Or.inl rfl : Alike (some (.obj [(py "ACCEPT", .arr [.str (py "*/*")])])) _)
  obtain ⟨headers, hok⟩ : ∃ headers, allowedHeadersOf sampleLib (some paidHeaders)
      (some (.obj [(py "ACCEPT", .arr [.str (py "*/*")])])) = .ok headers := ⟨_, rfl⟩
  obtain ⟨text, htext, hlookup⟩ := (hoccurs headers hok).1
    (py "Payment-Signature", .str (py "c2ln")) (List.mem_cons_of_mem _ (List.mem_singleton_self _))
    (by decide)
  have hname : sampleLib.net.lib.lower (py "Payment-Signature") = py "payment-signature" := by decide
  rw [hname, ← Json.str.inj htext] at hlookup
  exact ⟨hsame, headers, hok, hlookup⟩

end X402Lambda
