import StockAnalyst.Completion

/-!
# Only what was committed is settled

A run of `completeSubmittedJob` calls `settle` once, after the manifest it
fetched was accepted for the job and the commitment, or it raises without
calling it.  What was accepted for one commitment is one content.
-/

namespace Deliverable

open Js JsonText Python Checks

variable {lib : Lib}

/-! ## Parsed values -/

/-- The keys of every object are distinct. -/
inductive JsonValue.Distinct {κ : Type} : JsonValue κ → Prop
  | null : Distinct .null
  | bool {b} : Distinct (.bool b)
  | str {value} : Distinct (.str value)
  | number {value} : Distinct (.number value)
  | marker {k} : Distinct (.marker k)
  | arr {items} (each : ∀ v ∈ items, Distinct v) : Distinct (.arr items)
  | obj {entries : List (JsStr × JsonValue κ)} (keys : (entries.map (·.1)).Nodup)
      (each : ∀ e ∈ entries, Distinct e.2) : Distinct (.obj entries)

section record

variable {α : Type} (rename : JsStr → JsStr)

/-- The record that assignments build. -/
theorem nodup_record (items : List (JsStr × α)) {record : List (JsStr × α)}
    (h : (record.map (·.1)).Nodup) :
    ((items.foldl (fun record e => dictSet record (rename e.1) e.2) record).map (·.1)).Nodup := by
  induction items generalizing record with
  | nil => exact h
  | cons e items ih => exact ih (nodup_dictSet h)

/-- The entries of a record are those of its items, renamed. -/
theorem mem_record {items record : List (JsStr × α)} {e : JsStr × α}
    (h : e ∈ items.foldl (fun record e => dictSet record (rename e.1) e.2) record) :
    e ∈ record ∨ ∃ e' ∈ items, e = (rename e'.1, e'.2) := by
  induction items generalizing record with
  | nil => exact Or.inl h
  | cons x items ih =>
      obtain h | ⟨e', he', heq⟩ := ih h
      · obtain h | h := mem_dictSet h
        · exact Or.inl h
        · exact Or.inr ⟨x, List.mem_cons_self, h⟩
      · exact Or.inr ⟨e', List.mem_cons_of_mem _ he', heq⟩

end record

section nullPrototype

variable (sentinel : JsStr) (markers : Sentinels)

/-- The items of a list, one by one. -/
theorem nullPrototypeItems_eq_map (items : List (JsonValue Empty)) :
    nullPrototypeItems sentinel markers items =
      items.map (nullPrototypeRecords sentinel markers) := by
  induction items with
  | nil => rfl
  | cons v items ih => simp [nullPrototypeItems, ih]

/-- The values of an object, one by one. -/
theorem nullPrototypeEntries_eq_map (entries : List (JsStr × JsonValue Empty)) :
    nullPrototypeEntries sentinel markers entries =
      entries.map fun e => (e.1, nullPrototypeRecords sentinel markers e.2) := by
  induction entries with
  | nil => rfl
  | cons e entries ih => simp [nullPrototypeEntries, ih]

/-- The entries of a record come from the entries of the object. -/
theorem mem_nullPrototype {entries : List (JsStr × JsonValue Empty)}
    {e : JsStr × JsonValue PythonNonFinite}
    (h : e ∈ (ownEntries (nullPrototypeEntries sentinel markers entries)).foldl
      (fun record e => dictSet record (if e.1 = sentinel then protoKey else e.1) e.2) []) :
    ∃ e' ∈ entries, e = (if e'.1 = sentinel then protoKey else e'.1,
      nullPrototypeRecords sentinel markers e'.2) := by
  obtain h | ⟨e', he', rfl⟩ := mem_record (fun key => if key = sentinel then protoKey else key) h
  · cases h
  · rw [(ownEntries_perm _).mem_iff, nullPrototypeEntries_eq_map] at he'
    obtain ⟨e'', he'', rfl⟩ := List.mem_map.1 he'
    exact ⟨e'', he'', rfl⟩

/-- Records have distinct keys. -/
theorem nullPrototypeRecords_distinct (v : JsonValue Empty) :
    (nullPrototypeRecords sentinel markers v).Distinct := by
  induction v using JsonValue.induct with
  | null => exact .null
  | bool b => exact .bool
  | str value =>
      rw [nullPrototypeRecords]
      split
      · exact .marker
      · exact .str
  | number value => exact .number
  | marker k => exact k.elim
  | arr items ih =>
      rw [nullPrototypeRecords, nullPrototypeItems_eq_map]
      refine .arr ?_
      intro v hv
      obtain ⟨v', hv', rfl⟩ := List.mem_map.1 hv
      exact ih v' hv'
  | obj entries ih =>
      rw [nullPrototypeRecords]
      refine .obj (nodup_record (fun key => if key = sentinel then protoKey else key) _
        List.nodup_nil) ?_
      intro e he
      obtain ⟨e', he', rfl⟩ := mem_nullPrototype sentinel markers he
      exact ih e' he'

/-- Records of code units hold code units. -/
theorem nullPrototypeRecords_units {v : JsonValue Empty} (h : v.units = true) :
    (nullPrototypeRecords sentinel markers v).units = true := by
  induction v using JsonValue.induct with
  | null => rfl
  | bool b => rfl
  | str value =>
      rw [nullPrototypeRecords]
      split
      · rfl
      · exact h
  | number value => rfl
  | marker k => exact k.elim
  | arr items ih =>
      rw [JsonValue.units, JsonValue.unitsList_iff] at h
      rw [nullPrototypeRecords, nullPrototypeItems_eq_map, JsonValue.units,
        JsonValue.unitsList_iff]
      intro v hv
      obtain ⟨v', hv', rfl⟩ := List.mem_map.1 hv
      exact ih v' hv' (h v' hv')
  | obj entries ih =>
      rw [JsonValue.units, JsonValue.unitsEntries_iff] at h
      rw [nullPrototypeRecords, JsonValue.units, JsonValue.unitsEntries_iff]
      intro e he
      obtain ⟨e', he', rfl⟩ := mem_nullPrototype sentinel markers he
      refine ⟨?_, ih e' he' (h e' he').2⟩
      dsimp only
      split
      · have hproto : ∀ u ∈ protoKey, u < 0x10000 := by decide
        exact hproto
      · exact (h e' he').1

end nullPrototype

/-- What is no syntax error was parsed. -/
theorem orSyntax_ok {α : Type} {r : Option α} {a : α} (h : orSyntax r = .ok a) : r = some a := by
  cases r with
  | none => cases h
  | some a' => rw [Except.ok.inj h]

/-- A parsed value has distinct keys, and strings of code units. -/
theorem parseJson_ok {rawText : JsStr} {v : JsonValue PythonNonFinite}
    (h : parseJson lib rawText = .ok v) : v.Distinct ∧ v.units = true := by
  unfold parseJson at h
  obtain ⟨tokens, -, h⟩ := bind_eq_ok h
  obtain ⟨-, -, h⟩ := bind_eq_ok h
  obtain ⟨protectedTokens, -, h⟩ := bind_eq_ok h
  obtain ⟨parsed, hparse, h⟩ := bind_eq_ok h
  rw [← Except.ok.inj h]
  exact ⟨nullPrototypeRecords_distinct _ _ parsed,
    nullPrototypeRecords_units _ _ (lib.parse_units _ _ (orSyntax_ok hparse))⟩

/-- A parsed manifest has distinct keys and holds code units. -/
theorem parseManifest_ok {rawText : JsStr} {v : JsonValue PythonNonFinite}
    (h : parseManifest lib rawText = .ok v) : v.Distinct ∧ v.units = true := by
  unfold parseManifest at h
  split at h
  · rename_i hparse
    rw [← Except.ok.inj h]
    exact parseJson_ok hparse
  · cases h
  · cases h

/-! ## Content -/

/-- The value of a key, where the document is an object. -/
def docField (key : JsStr) : Doc → Option Doc
  | .obj entries => entries.lookup key
  | _ => none

/-- A field of a value is a field of its document. -/
theorem docField_doc {entries : List (JsStr × JsonValue PythonNonFinite)}
    (h : (JsonValue.obj entries).Distinct) {key : JsStr} {v : JsonValue PythonNonFinite}
    (hv : entries.lookup key = some v) :
    docField key ((JsonValue.obj entries).doc lib) = some (v.doc lib) ∧ v.Distinct := by
  cases h with
  | obj keys each =>
      have hmem := mem_of_lookup hv
      refine ⟨?_, each _ hmem⟩
      rw [JsonValue.doc, docField, JsonValue.entryDocs_eq_map]
      refine lookup_of_mem ?_ ?_
      · have hperm := (sortedKeys_perm (entries.map fun e => (e.1, e.2.doc lib))).map (·.1)
        rw [hperm.nodup_iff, List.map_map]
        exact keys
      · rw [(sortedKeys_perm _).mem_iff]
        exact List.mem_map.2 ⟨(key, v), hmem, rfl⟩

/-- What passes as an object is one. -/
theorem object_ok {v : JsonValue PythonNonFinite} {field : String}
    {entries : List (JsStr × JsonValue PythonNonFinite)} (h : object v field = .ok entries) :
    v = .obj entries := by
  unfold object at h
  split at h
  · obtain rfl := Except.ok.inj h
    rfl
  · cases h

/-- A required member is found under its key. -/
theorem required_ok {entries : List (JsStr × JsonValue PythonNonFinite)} {key : JsStr}
    {field : String} {v : JsonValue PythonNonFinite} (h : required entries key field = .ok v) :
    entries.lookup key = some v := by
  unfold required at h
  split at h
  · rename_i hlookup
    obtain rfl := Except.ok.inj h
    exact hlookup
  · cases h

/-- What passes as a string is one. -/
theorem string_ok {v : JsonValue PythonNonFinite} {field : String} {s : JsStr}
    (h : string v field = .ok s) : v = .str s := by
  unfold string at h
  split at h
  · obtain rfl := Except.ok.inj h
    rfl
  · cases h

/-- What is not refused does not meet the condition. -/
theorem refuseIf_ok {p : Prop} [Decidable p] {message : String} {u : Unit}
    (h : refuseIf p message = .ok u) : ¬ p := by
  intro hp
  rw [refuseIf, if_pos hp] at h
  cases h

/-- ASCII text is its own UTF-8. -/
theorem utf8_ascii {s : JsStr} (h : ∀ c ∈ s, c < 0x80) : utf8 s = s := by
  have hpoint : ∀ c, c < 0x80 → isHigh c = false ∧ isLow c = false ∧ utf8Point c = [c] := by
    intro c hc
    refine ⟨?_, ?_, by rw [utf8Point, if_pos hc]⟩
    · simp only [isHigh, Bool.and_eq_false_iff, decide_eq_false_iff_not]
      omega
    · simp only [isLow, Bool.and_eq_false_iff, decide_eq_false_iff_not]
      omega
  induction s with
  | nil => rfl
  | cons c s ih =>
      obtain ⟨hc, hs⟩ := List.forall_mem_cons.1 h
      obtain ⟨hhigh, hlow, htext⟩ := hpoint c hc
      cases s with
      | nil => simp [utf8, hhigh, hlow, htext]
      | cons d s => simp [utf8, hhigh, hlow, htext, ih hs]

/-- The content is a field of the document of the manifest. -/
theorem responseContent_ok {manifest : List (JsStr × JsonValue PythonNonFinite)}
    (hdistinct : (JsonValue.obj manifest).Distinct) {content : JsStr}
    (h : responseContent manifest = .ok content) :
    (docField (js "response") ((JsonValue.obj manifest).doc lib)).bind
      (docField (js "content")) = some (.str content) := by
  unfold responseContent at h
  obtain ⟨responseValue, hresponseValue, h⟩ := bind_eq_ok h
  obtain ⟨response, hresponse, h⟩ := bind_eq_ok h
  obtain ⟨contentValue, hcontentValue, h⟩ := bind_eq_ok h
  obtain ⟨content', hcontent, h⟩ := bind_eq_ok h
  obtain ⟨_, _, h⟩ := bind_eq_ok h
  obtain ⟨_, _, h⟩ := bind_eq_ok h
  obtain rfl := Except.ok.inj h
  obtain rfl := object_ok hresponse
  obtain rfl := string_ok hcontent
  obtain ⟨hfield, hdistinct'⟩ := docField_doc hdistinct (required_ok hresponseValue)
  obtain ⟨hfield', -⟩ := docField_doc hdistinct' (required_ok hcontentValue)
  rw [hfield, Option.bind_some, hfield']
  rfl

/-- What an accepted manifest is: its canonical text has the hash that was
committed, and the content is a field of its document. -/
theorem verify_ok {rawText : JsStr} {expected : DeliverableExpectation} {content : JsStr}
    (h : verifyDeliverableManifest lib rawText expected = .ok content) :
    ∃ d : Doc, d.Printable ∧
      lib.keccak256 d.text = lib.toLowerCase expected.commitment ∧
      (docField (js "response") d).bind (docField (js "content")) = some (.str content) := by
  unfold verifyDeliverableManifest at h
  obtain ⟨_, _, h⟩ := bind_eq_ok h
  obtain ⟨parsed, hparsed, h⟩ := bind_eq_ok h
  obtain ⟨manifest, hmanifest, h⟩ := bind_eq_ok h
  obtain ⟨_, _, h⟩ := bind_eq_ok h
  obtain ⟨content', hcontent, h⟩ := bind_eq_ok h
  obtain ⟨text, htext, h⟩ := bind_eq_ok h
  obtain ⟨_, hhash, h⟩ := bind_eq_ok h
  obtain rfl := Except.ok.inj h
  obtain rfl := object_ok hmanifest
  obtain ⟨hdistinct, hunits⟩ := parseManifest_ok hparsed
  have hprintable : ((JsonValue.obj manifest).doc lib).Printable :=
    JsonValue.doc_printable hunits
  have hline := canonicalJson_text hunits htext
  have hequal := refuseIf_ok hhash
  rw [hline, utf8_ascii (Doc.text_ascii hprintable), lib.keccak_lower, ne_eq,
    Classical.not_not] at hequal
  exact ⟨_, hprintable, hequal, responseContent_ok hdistinct hcontent⟩

/-- Manifests accepted for one commitment have one content, unless their
canonical texts are a collision. -/
theorem verify_content {rawText rawText' : JsStr} {expected expected' : DeliverableExpectation}
    {content content' : JsStr}
    (h : verifyDeliverableManifest lib rawText expected = .ok content)
    (h' : verifyDeliverableManifest lib rawText' expected' = .ok content')
    (hcommitment : expected.commitment = expected'.commitment)
    (hfree : Function.Injective lib.keccak256) : content = content' := by
  obtain ⟨d, hd, hhash, hcontent⟩ := verify_ok h
  obtain ⟨d', hd', hhash', hcontent'⟩ := verify_ok h'
  have htext : d.text = d'.text := hfree (by rw [hhash, hhash', hcommitment])
  rw [Doc.text_injective hd hd' htext, hcontent'] at hcontent
  injection hcontent with heq
  injection heq with heq
  exact heq.symm

end Deliverable

namespace Completion

open Js Deliverable Coroutine

variable {rt : Runtime} {params : CompletionParams}

/-! ## Runs -/

/-- A call that settles. -/
def Call.isSettle : Call → Bool
  | .settle _ => true
  | _ => false

/-- The calls of a run with their replies. -/
abbrev Calls := List (Σ call, Reply call)

/-- The calls have fetched a text and the commitment of the job, and the
manifest in the text was accepted. -/
def Accepted (rt : Runtime) (params : CompletionParams) (calls : Calls) : Prop :=
  ∃ url response rawText commitment reportText,
    ⟨.fetchDeliverable url, (.ok response : Except Unit Response)⟩ ∈ calls ∧
    readBoundedBody rt response = .ok rawText ∧
    ⟨.getDeliverableCommitment params.jobId, (.ok commitment : Except Bool JsStr)⟩ ∈ calls ∧
    verifyDeliverableManifest rt.toLib rawText
      ⟨params.jobId, params.chainId, params.contracts, commitment⟩ = .ok reportText

/-- One call of `settle` after an accepted manifest, or none and an error. -/
structure SettlesOnce (rt : Runtime) (params : CompletionParams) (calls : Calls)
    (outcome : Except Thrown CompletionResult) : Prop where
  once : (calls.filter (·.1.isSettle)).length ≤ 1
  after : ∀ before call rest, calls = before ++ call :: rest → call.1.isSettle = true →
    call.1 = .settle params.jobId ∧ Accepted rt params before
  throws : (∀ call ∈ calls, call.1.isSettle = false) →
    ∃ reason, outcome = .error (.blocked reason)

/-- A run that was blocked has settled nothing. -/
theorem settlesOnce_blocked {calls : Calls} {reason : String}
    (h : ∀ call ∈ calls, call.1.isSettle = false) :
    SettlesOnce rt params calls (.error (.blocked reason)) := by
  constructor
  · rw [List.filter_eq_nil_iff.2 (fun call hcall => by simp [h call hcall])]
    exact Nat.zero_le 1
  · intro before call rest hcalls hsettle
    rw [h call (by rw [hcalls]; simp)] at hsettle
    cases hsettle
  · intro _
    exact ⟨reason, rfl⟩

/-- A run whose last call settles what was accepted before. -/
theorem settlesOnce_settled {calls : Calls} {reply : Reply (.settle params.jobId)}
    {outcome : Except Thrown CompletionResult}
    (h : ∀ call ∈ calls, call.1.isSettle = false) (haccepted : Accepted rt params calls) :
    SettlesOnce rt params (calls ++ [⟨.settle params.jobId, reply⟩]) outcome := by
  constructor
  · rw [List.filter_append, List.filter_eq_nil_iff.2 (fun call hcall => by simp [h call hcall])]
    exact List.length_filter_le _ _
  · intro before call rest hcalls hsettle
    obtain ⟨more, hmore, hlast⟩ | ⟨more, hmore, hlast⟩ := List.append_eq_append_iff.1 hcalls
    · cases more with
      | nil =>
          obtain ⟨rfl, rfl⟩ := List.cons.inj hlast
          rw [List.append_nil] at hmore
          rw [hmore]
          exact ⟨rfl, haccepted⟩
      | cons call' more => simp at hlast
    · cases more with
      | nil =>
          obtain ⟨rfl, rfl⟩ := List.cons.inj hlast
          rw [List.append_nil] at hmore
          rw [← hmore]
          exact ⟨rfl, haccepted⟩
      | cons call' more =>
          obtain ⟨rfl, -⟩ := List.cons.inj hlast
          rw [h call (by rw [hmore]; simp)] at hsettle
          cases hsettle
  · intro hnone
    have hlast := hnone ⟨.settle params.jobId, reply⟩ (by simp)
    cases hlast

/-- A failure becomes a blocked completion. -/
theorem orBlocked_error {ε α : Type} {reason : String} {r : Except ε α} {x : Thrown}
    (h : orBlocked reason r = .error x) : ∃ reason, x = .blocked reason := by
  cases r with
  | ok a => cases h
  | error e => exact ⟨reason, (Except.error.inj h).symm⟩

/-- A success stays one. -/
theorem orBlocked_ok {ε α : Type} {reason : String} {r : Except ε α} {a : α}
    (h : orBlocked reason r = .ok a) : r = .ok a := by
  cases r with
  | ok a' => rw [Except.ok.inj h]
  | error e => cases h

/-- A refused URL blocks the completion. -/
theorem checkUrl_error {url : Unknown} {x : Thrown} (h : checkUrl rt url = .error x) :
    ∃ reason, x = .blocked reason := by
  unfold checkUrl at h
  split at h
  · exact ⟨_, (Except.error.inj h).symm⟩
  · exact ⟨_, (Except.error.inj h).symm⟩
  · exact ⟨_, (Except.error.inj h).symm⟩
  · exact ⟨_, (Except.error.inj h).symm⟩
  · split at h
    · exact ⟨_, (Except.error.inj h).symm⟩
    · split at h
      · exact ⟨_, (Except.error.inj h).symm⟩
      · cases h

/-- A refused response blocks the completion. -/
theorem checkResponse_error {response : Response} {x : Thrown}
    (h : checkResponse response = .error x) : ∃ reason, x = .blocked reason := by
  unfold checkResponse at h
  split at h
  · exact ⟨_, (Except.error.inj h).symm⟩
  · cases h

/-- An accepted response is used as it is. -/
theorem checkResponse_ok {response response' : Response}
    (h : checkResponse response = .ok response') : response = response' := by
  unfold checkResponse at h
  split at h
  · cases h
  · exact Except.ok.inj h

/-- A missing body or commitment blocks the completion. -/
theorem bodyAndCommitment_error {body : Except Thrown JsStr} {commitment : Except Bool JsStr}
    {x : Thrown} (h : bodyAndCommitment body commitment = .error x) :
    ∃ reason, x = .blocked reason := by
  unfold bodyAndCommitment at h
  dsimp only at h
  split at h
  · cases h
  · exact ⟨_, (Except.error.inj h).symm⟩
  · exact ⟨_, (Except.error.inj h).symm⟩
  · exact ⟨_, (Except.error.inj h).symm⟩

/-- With both, the body and the commitment are those. -/
theorem bodyAndCommitment_ok {body : Except Thrown JsStr} {commitment : Except Bool JsStr}
    {rawText committed : JsStr} (h : bodyAndCommitment body commitment = .ok (rawText, committed)) :
    body = .ok rawText ∧ commitment = .ok committed := by
  unfold bodyAndCommitment at h
  dsimp only at h
  split at h
  · obtain ⟨rfl, rfl⟩ := Prod.mk.inj (Except.ok.inj h)
    exact ⟨rfl, rfl⟩
  · cases h
  · cases h
  · cases h

/-- A refused manifest blocks the completion. -/
theorem checkManifest_error {rawText commitment : JsStr} {x : Thrown}
    (h : checkManifest rt params rawText commitment = .error x) :
    ∃ reason, x = .blocked reason := by
  unfold checkManifest at h
  split at h
  · cases h
  · exact ⟨_, (Except.error.inj h).symm⟩

/-- The report text is that of the verified manifest. -/
theorem checkManifest_ok {rawText commitment reportText : JsStr}
    (h : checkManifest rt params rawText commitment = .ok reportText) :
    verifyDeliverableManifest rt.toLib rawText
      ⟨params.jobId, params.chainId, params.contracts, commitment⟩ = .ok reportText := by
  unfold checkManifest at h
  split at h
  · rename_i hverify
    rw [hverify, Except.ok.inj h]
  · cases h

/-- **Every run** settles once after an accepted manifest, or is blocked. -/
theorem completeSubmittedJob_settles {calls : Calls} {outcome : Except Thrown CompletionResult}
    (h : Prog.Trace (completeSubmittedJob rt params) calls outcome) :
    SettlesOnce rt params calls outcome := by
  unfold completeSubmittedJob at h
  obtain ⟨urlReply, calls, rfl, ⟨x, hx, rfl, rfl⟩ | ⟨unknown, hunknown, h⟩⟩ := Async.trace_await h
  · obtain ⟨reason, rfl⟩ := orBlocked_error hx
    exact settlesOnce_blocked (by simp [Call.isSettle])
  obtain ⟨x, hx, rfl, rfl⟩ | ⟨url, hurl, h⟩ := Async.trace_ofExcept h
  · obtain ⟨reason, rfl⟩ := checkUrl_error hx
    exact settlesOnce_blocked (by simp [Call.isSettle])
  obtain ⟨fetchReply, calls, rfl, ⟨x, hx, rfl, rfl⟩ | ⟨response, hresponse, h⟩⟩ :=
    Async.trace_await h
  · obtain ⟨reason, rfl⟩ := orBlocked_error hx
    exact settlesOnce_blocked (by simp [Call.isSettle])
  obtain ⟨x, hx, rfl, rfl⟩ | ⟨response', hcheck, h⟩ := Async.trace_ofExcept h
  · obtain ⟨reason, rfl⟩ := checkResponse_error hx
    exact settlesOnce_blocked (by simp [Call.isSettle])
  obtain ⟨commitmentReply, calls, rfl, ⟨x, hx, rfl, rfl⟩ | ⟨⟨rawText, commitment⟩, hboth, h⟩⟩ :=
    Async.trace_await h
  · obtain ⟨reason, rfl⟩ := bodyAndCommitment_error hx
    exact settlesOnce_blocked (by simp [Call.isSettle])
  obtain ⟨x, hx, rfl, rfl⟩ | ⟨reportText, hreport, h⟩ := Async.trace_ofExcept h
  · obtain ⟨reason, rfl⟩ := checkManifest_error hx
    exact settlesOnce_blocked (by simp [Call.isSettle])
  obtain ⟨renderReply, calls, rfl, ⟨x, hx, rfl, rfl⟩ | ⟨rendered, hrendered, h⟩⟩ :=
    Async.trace_await h
  · cases hx
  obtain ⟨hbody, hcommitment⟩ := bodyAndCommitment_ok hboth
  have hfetched := orBlocked_ok hresponse
  rw [← checkResponse_ok hcheck] at hbody
  have hverify := checkManifest_ok hreport
  have haccepted : Accepted rt params
      [⟨.getDeliverableUrl params.jobId params.fundTxBlock, urlReply⟩,
        ⟨.fetchDeliverable url, fetchReply⟩,
        ⟨.getDeliverableCommitment params.jobId, commitmentReply⟩,
        ⟨.renderReport reportText, renderReply⟩] := by
    refine ⟨url, response, rawText, commitment, reportText, ?_, hbody, ?_, hverify⟩
    · rw [← hfetched]
      simp
    · rw [← hcommitment]
      simp
  obtain ⟨settleReply, calls, rfl, ⟨x, hx, rfl, rfl⟩ | ⟨settleTx, hsettled, h⟩⟩ :=
    Async.trace_await h
  · exact settlesOnce_settled (by simp [Call.isSettle]) haccepted
  · cases h
    exact settlesOnce_settled (by simp [Call.isSettle]) haccepted

/-- An accepted manifest is settled. -/
theorem completeSubmittedJob_run {url rawText commitment reportText settleTx : JsStr}
    {response : Response} (hurl : checkUrl rt (.string url) = .ok url)
    (hok : response.ok = true) (hbody : readBoundedBody rt response = .ok rawText)
    (hverify : verifyDeliverableManifest rt.toLib rawText
      ⟨params.jobId, params.chainId, params.contracts, commitment⟩ = .ok reportText) :
    Prog.Trace (completeSubmittedJob rt params)
      [⟨.getDeliverableUrl params.jobId params.fundTxBlock,
          (.ok (.string url) : Except Unit Unknown)⟩,
        ⟨.fetchDeliverable url, (.ok response : Except Unit Response)⟩,
        ⟨.getDeliverableCommitment params.jobId, (.ok commitment : Except Bool JsStr)⟩,
        ⟨.renderReport reportText, (.ok () : Except JsStr Unit)⟩,
        ⟨.settle params.jobId, (.ok settleTx : Except JsStr JsStr)⟩]
      (.ok ⟨reportText, settleTx, none⟩) := by
  have hresponse : checkResponse response = .ok response := by
    unfold checkResponse
    rw [hok]
    rfl
  have hreport : checkManifest rt params rawText commitment = .ok reportText := by
    unfold checkManifest
    rw [hverify]
  have hboth : bodyAndCommitment (readBoundedBody rt response)
      (.ok commitment : Except Bool JsStr) = .ok (rawText, commitment) := by
    rw [hbody]
    rfl
  unfold completeSubmittedJob
  refine Async.bind_run (t := [_]) (a := .string url) (.op (.ret _)) ?_
  refine Async.bind_run (t := []) (a := url) ?_ ?_
  · rw [hurl]
    exact .ret _
  refine Async.bind_run (t := [_]) (a := response) (.op (.ret _)) ?_
  refine Async.bind_run (t := []) (a := response) ?_ ?_
  · rw [hresponse]
    exact .ret _
  refine Async.bind_run (t := [_]) (a := (rawText, commitment)) ?_ ?_
  · rw [← hboth]
    exact .op (.ret _)
  refine Async.bind_run (t := []) (a := reportText) ?_ ?_
  · rw [hreport]
    exact .ret _
  refine Async.bind_run (t := [_]) (a := .ok ()) (.op (.ret _)) ?_
  exact Async.bind_run (t := [_]) (a := settleTx) (.op (.ret _)) (.ret _)

/-- **Only what was committed.**  Every run of `completeSubmittedJob` calls
`settle` once, for its job and after it accepted the manifest it fetched, or
is blocked without a call.  Two texts accepted for one commitment have one
content, as long as the hash has no collision. -/
theorem settles_committed :
    (∀ (params : CompletionParams) (calls : Calls) (outcome : Except Thrown CompletionResult),
      Prog.Trace (completeSubmittedJob rt params) calls outcome →
      SettlesOnce rt params calls outcome) ∧
    ((∀ bytes bytes', rt.keccak256 bytes = rt.keccak256 bytes' → bytes = bytes') →
      ∀ rawText rawText' expected expected' content content',
        verifyDeliverableManifest rt.toLib rawText expected = .ok content →
        verifyDeliverableManifest rt.toLib rawText' expected' = .ok content' →
        expected.commitment = expected'.commitment → content = content') := by
  constructor
  · intro params calls outcome h
    exact completeSubmittedJob_settles h
  · intro hfree rawText rawText' expected expected' content content' h h' hcommitment
    exact verify_content h h' hcommitment fun bytes bytes' heq => hfree bytes bytes' heq

/-- Three addresses of decimal digits, which are their own checksummed form. -/
def sampleCommerce : JsStr := js "0x1010101010101010101010101010101010101010"
def sampleRouter : JsStr := js "0x2020202020202020202020202020202020202020"
def samplePolicy : JsStr := js "0x3030303030303030303030303030303030303030"

/-- `getAddress` on addresses of decimal digits. -/
def digitAddress (text : JsStr) : Except String JsStr :=
  if text.length = 42 && text.take 2 = js "0x" && (text.drop 2).all fun c => 48 ≤ c && c ≤ 57 then
    .ok text
  else .error "invalid address"

/-- The text of a manifest with one reported line. -/
def sampleText : JsStr :=
  js "\x7b\"version\":1,\"job_id\":7,\"chain_id\":56,\"contracts\":\x7b\"commerce\":\"" ++
  sampleCommerce ++ js "\",\"router\":\"" ++ sampleRouter ++ js "\",\"policy\":\"" ++
  samplePolicy ++ js "\"\x7d,\"response\":" ++
  js "\x7b\"content\":\"done\",\"content_type\":\"text/plain\"\x7d\x7d"

def sampleContracts : DeliverableContracts := ⟨sampleCommerce, sampleRouter, samplePolicy⟩

/-- What `parse` makes of it. -/
def sampleValue : JsonValue Empty :=
  .obj [(js "version", .number (js "1")), (js "job_id", .number (js "7")),
    (js "chain_id", .number (js "56")),
    (js "contracts", .obj [(js "commerce", .str sampleCommerce), (js "router", .str sampleRouter),
      (js "policy", .str samplePolicy)]),
    (js "response", .obj [(js "content", .str (js "done")),
      (js "content_type", .str (js "text/plain"))])]

theorem sampleValue_units : sampleValue.units = true := by decide +kernel

/-- A runtime for the sample: every text is its own hash. -/
def sampleRuntime : Runtime where
  parse text := if text = sampleText then some sampleValue else none
  parse_units text v h := by
    split at h
    · rw [← Option.some.inj h]
      exact sampleValue_units
    · cases h
  number _ := .nan
  getAddress := digitAddress
  keccak256 bytes := bytes
  toLowerCase text := text
  keccak_lower _ := rfl
  urlProtocol _ := some (js "https:")
  utf8Decode bytes := bytes

/-- The canonical text of the sample. -/
def sampleCommitment : JsStr :=
  js "\x7b\"chain_id\":56,\"contracts\":\x7b\"commerce\":\"" ++ sampleCommerce ++
  js "\",\"policy\":\"" ++ samplePolicy ++ js "\",\"router\":\"" ++ sampleRouter ++
  js "\"\x7d,\"job_id\":7,\"response\":" ++
  js "\x7b\"content\":\"done\",\"content_type\":\"text/plain\"\x7d,\"version\":1\x7d"

def sampleParams : CompletionParams := ⟨7, none, 56, sampleContracts⟩

def sampleResponse : Response := ⟨true, 200, none, some [some sampleText], false⟩

/-- The sample's body is read whole. -/
theorem readBoundedBody_sample :
    readBoundedBody sampleRuntime sampleResponse = .ok sampleText := by
  have hsize : ¬ maxPayloadBytes < sampleText.length := by decide +kernel
  simp [readBoundedBody, sampleResponse, readChunks, hsize, Except.map, sampleRuntime]

/-- The sample's manifest is the one committed to. -/
theorem verify_sample : verifyDeliverableManifest sampleRuntime.toLib sampleText
    ⟨sampleParams.jobId, sampleParams.chainId, sampleParams.contracts, sampleCommitment⟩ =
      .ok (js "done") := by
  decide +kernel

/-- The sample job is settled, and whatever text is accepted for its
commitment has its content. -/
theorem settles_committed_sample :
    (∃ calls outcome, Prog.Trace (completeSubmittedJob sampleRuntime sampleParams) calls outcome ∧
      (∃ call ∈ calls, call.1.isSettle = true) ∧
      SettlesOnce sampleRuntime sampleParams calls outcome) ∧
    ∀ rawText content, verifyDeliverableManifest sampleRuntime.toLib rawText
        ⟨sampleParams.jobId, sampleParams.chainId, sampleParams.contracts, sampleCommitment⟩ =
          .ok content → content = js "done" := by
  obtain ⟨honce, hcontent⟩ := @settles_committed sampleRuntime
  constructor
  · have hurl : checkUrl sampleRuntime (.string (js "https://host/1")) =
        .ok (js "https://host/1") := rfl
    have hrun : Prog.Trace (completeSubmittedJob sampleRuntime sampleParams) _
        (.ok ⟨js "done", js "0x1", none⟩) :=
      completeSubmittedJob_run hurl rfl readBoundedBody_sample verify_sample
    exact ⟨_, _, hrun, ⟨_, List.mem_of_getLast? rfl, rfl⟩, honce _ _ _ hrun⟩
  · intro rawText content h
    exact hcontent (fun _ _ heq => heq) _ _ _ _ _ _ h verify_sample rfl

end Completion
