import StockAnalyst.PromptBuilder
import StockAnalyst.PyAscii
import Mathlib.Data.Finset.Card

/-!
# The validated report

`report_pipeline`: the answer of the model is searched for JSON objects, first
behind the fences and then at every brace, and the first one that validates is
rendered.  Where there is none the model is asked once more, and where there is
none again a fixed text is the report.  The decoder of `json`, the schema, the
renderer and the runner of the model are parameters.
-/

namespace ReportPipeline

open Python X402

abbrev Dict : Type := List (PyStr × Json)

/-! ## The answer of the model -/

def maxModelResponseBytes : Nat := 2097152
def maxJsonCandidates : Nat := 64
def maxLoggedValidationIssues : Nat := 20

/-- `SAFE_FAILURE_REPORT`. -/
def safeFailureReport : PyStr :=
  py "# Report generation unavailable" ++ [10, 10] ++
  py "The analysis engine could not produce a valid structured report. No unvalidated" ++ [10] ++
  py "model output was delivered. Please retry with a new job."

/-- The `code` of a log line. -/
inductive ResponseError where
  | invalidResponseType
  | responseTooLarge
  | invalidUtf8
  | noJsonCandidate
  deriving DecidableEq

/-- `_response_error_code(value)`; `none` is a value that is no text. -/
def responseErrorCode : Option PyStr → Option ResponseError
  | none => some .invalidResponseType
  | some value =>
      if maxModelResponseBytes < value.length then some .responseTooLarge
      else match utf8Encode value with
        | none => some .invalidUtf8
        | some bytes =>
            if maxModelResponseBytes < bytes.length then some .responseTooLarge else none

/-! ## Fences -/

/-- `re.IGNORECASE` on the letters of `json`; the long s is an s there. -/
def foldCase (c : Nat) : Nat := if c = 0x17F then 115 else asciiLower c

/-- `(?:json\b)?` at the beginning of a text: how long it is. -/
def languageLength (lib : PyLib) (s : PyStr) : Nat :=
  if (s.take 4).map foldCase = py "json" ∧ wordBoundary lib s[3]? s[4]? then 4 else 0

/-- The length of the match of `_FENCE_OPEN` at the beginning of a text.  No
shorter match of a part could be followed by a brace, so none is tried. -/
def fenceLength (lib : PyLib) (s : PyStr) : Option Nat :=
  if (s.take 3) = [96, 96, 96] then
    let language := languageLength lib (s.drop 3)
    let blank := ((s.drop (3 + language)).takeWhile lib.isSpace).length
    if s[3 + language + blank]? = some 123 then some (3 + language + blank) else none
  else none

/-- `match.end()` for the matches of `_FENCE_OPEN.finditer(text)`: the search
goes on behind a match. -/
def fenceEnds (lib : PyLib) : Nat → Nat → PyStr → List Nat
  | _, _, [] => []
  | skip + 1, offset, _ :: s => fenceEnds lib skip (offset + 1) s
  | 0, offset, c :: s =>
      match fenceLength lib (c :: s) with
      | none => fenceEnds lib 0 (offset + 1) s
      | some n => (offset + n) :: fenceEnds lib (n - 1) (offset + 1) s

/-- The offsets `text.find("\x7b", offset)` goes through. -/
def braceOffsets : Nat → PyStr → List Nat
  | _, [] => []
  | offset, c :: s =>
      if c = 123 then offset :: braceOffsets (offset + 1) s else braceOffsets (offset + 1) s

/-! ## Candidates -/

/-- The variables `seen_offsets` and `attempt_count`. -/
structure Attempts where
  seenOffsets : List Nat
  attemptCount : Nat
  deriving DecidableEq

section Candidates

variable (decode : PyStr → Option Json) (text : PyStr)

/-- The object at the beginning of the rest of the text; `decode` is
`raw_decode`, which gives nothing where it raises. -/
def dictAt (offset : Nat) : Option Dict :=
  match decode (text.drop offset) with
  | some (.obj kvs) => some kvs
  | _ => none

/-- `decode_at(offset)`. -/
def decodeAt (offset : Nat) (attempts : Attempts) : Option Dict × Attempts :=
  if offset ∈ attempts.seenOffsets ∨ maxJsonCandidates ≤ attempts.attemptCount then
    (none, attempts)
  else
    (dictAt decode text offset,
      { seenOffsets := offset :: attempts.seenOffsets
        attemptCount := attempts.attemptCount + 1 })

/-- The loop over the fences. -/
def fencedCandidates : List Nat → Attempts → List Dict × Attempts
  | [], attempts => ([], attempts)
  | offset :: rest, attempts =>
      let tried := decodeAt decode text offset attempts
      if maxJsonCandidates ≤ tried.2.attemptCount then (tried.1.toList, tried.2)
      else
        let later := fencedCandidates rest tried.2
        (tried.1.toList ++ later.1, later.2)

/-- The loop over the braces. -/
def bareCandidates : List Nat → Attempts → List Dict
  | [], _ => []
  | offset :: rest, attempts =>
      if maxJsonCandidates ≤ attempts.attemptCount then []
      else
        let tried := decodeAt decode text offset attempts
        tried.1.toList ++ bareCandidates rest tried.2

/-- `_json_candidates(text)`, all that is yielded. -/
def jsonCandidates (lib : PyLib) : List Dict :=
  let fenced := fencedCandidates decode text (fenceEnds lib 0 0 text)
    { seenOffsets := [], attemptCount := 0 }
  if maxJsonCandidates ≤ fenced.2.attemptCount then fenced.1
  else fenced.1 ++ bareCandidates decode text (braceOffsets 0 text) fenced.2

end Candidates

/-! ## What is logged of a failed validation -/

/-- A part of the location of an issue. -/
inductive LocationPart where
  | index (i : Int)
  | name (s : PyStr)

/-- What is read of an issue of a `ValidationError`: `type` is `none` where it
is no text. -/
structure Issue where
  loc : List LocationPart
  type : Option PyStr

/-- `[A-Za-z_]`. -/
def isNameStart (c : Nat) : Bool := isUpperLetter c || (97 ≤ c && c ≤ 122) || c = 95

/-- A text of at most 64 characters that `_SAFE_LOCATION_PART` matches. -/
def isSafePart (s : PyStr) : Bool :=
  s.length ≤ 64 && s.head?.any isNameStart && s.all fun c => isNameStart c || isDigit c

def safeLocation : LocationPart → LocationPart
  | .index i => .index i
  | .name s => if isSafePart s then .name s else .name (py "<field>")

def safeType (type : Option PyStr) : PyStr :=
  type.elim (py "validation_error") fun s => if isSafePart s then s else py "validation_error"

/-- An issue as it is logged. -/
structure LoggedIssue where
  location : List LocationPart
  errorType : PyStr

/-- `_sanitized_validation_issues(error)`. -/
def sanitizedValidationIssues (errors : List Issue) : List LoggedIssue :=
  (errors.map fun issue =>
    { location := issue.loc.map safeLocation, errorType := safeType issue.type }).take
      maxLoggedValidationIssues

/-- The warnings of the pipeline. -/
inductive LogLine where
  | parseFailed (code : ResponseError)
  | validationFailed (issues : List LoggedIssue)
  | analysesMissing (symbols : List PyStr) (sessionId : PyStr)

/-! ## The pipeline -/

/-- The prompt of the second attempt. -/
def correction : PyStr :=
  py "Your previous response could not be parsed as valid JSON matching " ++
  py "the StockReport schema. Output ONLY the corrected JSON object " ++ [0x2014] ++
  py " no text before or after it, no code fences. Ensure the analyses array " ++
  py "has one entry per symbol and all required fields are present."

section Pipeline

/- `raw_decode`, `StockReport.model_validate`, `render_report` and the symbols
of the analyses of a report. -/
variable {Report Error : Type} (lib : PyLib) (decode : PyStr → Option Json)
  (modelValidate : Dict → Except (List Issue) Report) (renderReport : Report → PyStr)
  (analyses : Report → List PyStr)

/-- The first candidate that validates; else the issues of the first that does
not. -/
def firstValid : List Dict → List LoggedIssue → Except (List LoggedIssue) Report
  | [], issues => .error issues
  | candidate :: rest, issues =>
      match modelValidate candidate with
      | .ok report => .ok report
      | .error errors =>
          firstValid rest
            (if issues.isEmpty then sanitizedValidationIssues errors else issues)

/-- `parse(value)` and what it logs. -/
def parse (value : Option PyStr) : Option Report × List LogLine :=
  match responseErrorCode value with
  | some code => (none, [.parseFailed code])
  | none =>
      match firstValid modelValidate (jsonCandidates decode (value.getD []) lib) [] with
      | .ok report => (some report, [])
      | .error issues =>
          (none, [if issues.isEmpty then .parseFailed .noJsonCandidate
            else .validationFailed issues])

/-- `report` rendered, after a warning where symbols have no analysis. -/
def finish (symbols : List PyStr) (sessionId : PyStr) (report : Report) :
    PyStr × List LogLine :=
  let returned := (analyses report).map lib.upper
  let missing := symbols.filter fun symbol => !returned.contains (lib.upper symbol)
  (renderReport report, if missing.isEmpty then [] else [.analysesMissing missing sessionId])

/-- What a call of the pipeline does: the prompts it sends, what it logs, and
the report or the error of the runner. -/
structure Generation (Error : Type) where
  prompts : List PyStr
  logged : List LogLine
  result : Except Error PyStr

/-- The report of an answer that has been parsed, or the fixed text. -/
def deliver (symbols : List PyStr) (sessionId : PyStr) (prompts : List PyStr)
    (logged : List LogLine) (report : Option Report) : Generation Error :=
  match report with
  | none => { prompts, logged, result := .ok safeFailureReport }
  | some report =>
      let finished := finish lib renderReport analyses symbols sessionId report
      { prompts, logged := logged ++ finished.2, result := .ok finished.1 }

/- The runner answers a session by the prompts it has been sent in it, the
last one last; the answer is `none` where it is no text. -/
variable (callRunner : PyStr → List PyStr → Except Error (Option PyStr))

/-- The second attempt, after what the first one logged. -/
def correctReport (prompt sessionId : PyStr) (symbols : List PyStr) (logged : List LogLine) :
    Generation Error :=
  match callRunner sessionId [prompt, correction] with
  | .error e => { prompts := [prompt, correction], logged, result := .error e }
  | .ok again =>
      let parsed := parse lib decode modelValidate again
      deliver lib renderReport analyses symbols sessionId [prompt, correction]
        (logged ++ parsed.2) parsed.1

/-- `generate_validated_report`; no symbols are an empty list of them. -/
def generateValidatedReport (prompt sessionId : PyStr) (symbols : List PyStr) :
    Generation Error :=
  match callRunner sessionId [prompt] with
  | .error e => { prompts := [prompt], logged := [], result := .error e }
  | .ok raw =>
      match parse lib decode modelValidate raw with
      | (some report, logged) =>
          deliver lib renderReport analyses symbols sessionId [prompt] logged (some report)
      | (none, logged) =>
          correctReport lib decode modelValidate renderReport analyses callRunner prompt
            sessionId symbols logged

end Pipeline

/-! ## Offsets -/

/-- The offsets of the braces are where the braces are. -/
theorem mem_braceOffsets {offset : Nat} {s : PyStr} {start : Nat} :
    offset ∈ braceOffsets start s ↔ start ≤ offset ∧ s[offset - start]? = some 123 := by
  induction s generalizing start with
  | nil => simp [braceOffsets]
  | cons c s ih =>
      rcases Nat.lt_trichotomy offset start with hlt | rfl | hlt
      · have hno : offset ∉ braceOffsets (start + 1) s := fun h => by
          have := (ih.1 h).1
          omega
        by_cases hc : c = 123
        · rw [braceOffsets, if_pos hc, List.mem_cons]
          refine iff_of_false (fun h => h.elim (by omega) hno) fun h => by omega
        · rw [braceOffsets, if_neg hc]
          exact iff_of_false hno fun h => by omega
      · have hno : offset ∉ braceOffsets (offset + 1) s := fun h => by
          have := (ih.1 h).1
          omega
        by_cases hc : c = 123
        · simp [braceOffsets, hc]
        · simpa [braceOffsets, hc] using hno
      · have hsub : offset - start = offset - (start + 1) + 1 := by omega
        have hget : (c :: s)[offset - start]? = s[offset - (start + 1)]? := by
          rw [hsub, List.getElem?_cons_succ]
        rw [hget]
        have hiff : offset ∈ braceOffsets start (c :: s) ↔ offset ∈ braceOffsets (start + 1) s := by
          by_cases hc : c = 123
          · rw [braceOffsets, if_pos hc, List.mem_cons, or_iff_right (by omega)]
          · rw [braceOffsets, if_neg hc]
        rw [hiff, ih]
        exact and_congr_left' (by omega)

/-- There are as many offsets as braces. -/
theorem length_braceOffsets {s : PyStr} {start : Nat} :
    (braceOffsets start s).length = s.count 123 := by
  induction s generalizing start with
  | nil => rfl
  | cons c s ih =>
      by_cases hc : c = 123
      · rw [braceOffsets, if_pos hc, List.length_cons, ih, hc, List.count_cons_self]
      · rw [braceOffsets, if_neg hc, ih, List.count_cons_of_ne hc]

/-- A match of the fence ends before a brace. -/
theorem fenceLength_brace {lib : PyLib} {s : PyStr} {n : Nat} (h : fenceLength lib s = some n) :
    s[n]? = some 123 := by
  by_cases hticks : s.take 3 = [96, 96, 96]
  · rw [fenceLength, if_pos hticks] at h
    obtain ⟨hbrace, hn⟩ := Option.ite_none_right_eq_some.1 h
    rw [← Option.some.inj hn]
    exact hbrace
  · rw [fenceLength, if_neg hticks] at h
    cases h

/-- A fence ends before a brace. -/
theorem brace_of_mem_fenceEnds {lib : PyLib} {offset : Nat} {s : PyStr} {skip start : Nat}
    (h : offset ∈ fenceEnds lib skip start s) :
    start ≤ offset ∧ s[offset - start]? = some 123 := by
  induction s generalizing skip start with
  | nil => cases skip <;> cases h
  | cons c s ih =>
      have hnext : ∀ {skip : Nat}, offset ∈ fenceEnds lib skip (start + 1) s →
          start ≤ offset ∧ (c :: s)[offset - start]? = some 123 := fun h => by
        obtain ⟨hle, hget⟩ := ih h
        have hsub : offset - start = offset - (start + 1) + 1 := by omega
        exact ⟨by omega, by rw [hsub, List.getElem?_cons_succ, hget]⟩
      cases skip with
      | succ skip => exact hnext h
      | zero =>
          cases hfence : fenceLength lib (c :: s) with
          | none =>
              rw [fenceEnds, hfence] at h
              exact hnext h
          | some n =>
              rw [fenceEnds, hfence] at h
              obtain rfl | h := List.mem_cons.1 h
              · refine ⟨Nat.le_add_right start n, ?_⟩
                rw [Nat.add_sub_cancel_left]
                exact fenceLength_brace hfence
              · exact hnext h

/-- Every offset in the order in which it comes up. -/
def offsets (lib : PyLib) (text : PyStr) : List Nat :=
  fenceEnds lib 0 0 text ++ braceOffsets 0 text

/-- Every brace is tried, fenced or bare. -/
theorem mem_offsets {lib : PyLib} {text : PyStr} {offset : Nat} :
    offset ∈ offsets lib text ↔ text[offset]? = some 123 := by
  rw [offsets, List.mem_append, mem_braceOffsets, Nat.sub_zero]
  constructor
  · rintro (h | h)
    · exact (brace_of_mem_fenceEnds h).2
    · exact h.2
  · exact fun h => Or.inr ⟨Nat.zero_le offset, h⟩

/-! ## Candidates -/

/-- The offsets at which the text is decoded. -/
def triedOffsets (lib : PyLib) (text : PyStr) : List Nat :=
  (offsets lib text).eraseDups.take maxJsonCandidates

/-- What is tried of the offsets after some attempts. -/
def remaining (offsets : List Nat) (attempts : Attempts) : List Nat :=
  ((offsets.filter fun o => !attempts.seenOffsets.contains o).eraseDups).take
    (maxJsonCandidates - attempts.attemptCount)

section Candidates

variable {decode : PyStr → Option Json} {text : PyStr}

/-- Every offset handed to `decode_at`. -/
def tryAll (decode : PyStr → Option Json) (text : PyStr) :
    List Nat → Attempts → List Dict × Attempts
  | [], attempts => ([], attempts)
  | offset :: rest, attempts =>
      let tried := decodeAt decode text offset attempts
      let later := tryAll decode text rest tried.2
      (tried.1.toList ++ later.1, later.2)

/-- Beyond the limit nothing is decoded. -/
theorem decodeAt_limit {offset : Nat} {attempts : Attempts}
    (h : maxJsonCandidates ≤ attempts.attemptCount) :
    decodeAt decode text offset attempts = (none, attempts) := by
  rw [decodeAt, if_pos (Or.inr h)]

/-- Nothing is tried at the limit. -/
theorem tryAll_limit {offsets : List Nat} {attempts : Attempts}
    (h : maxJsonCandidates ≤ attempts.attemptCount) :
    tryAll decode text offsets attempts = ([], attempts) := by
  induction offsets with
  | nil => rfl
  | cons offset rest ih => simp [tryAll, decodeAt_limit h, ih]

/-- Trying offsets one after the other. -/
theorem tryAll_append {xs ys : List Nat} {attempts : Attempts} :
    tryAll decode text (xs ++ ys) attempts =
      ((tryAll decode text xs attempts).1 ++
          (tryAll decode text ys (tryAll decode text xs attempts).2).1,
        (tryAll decode text ys (tryAll decode text xs attempts).2).2) := by
  induction xs generalizing attempts with
  | nil => simp [tryAll]
  | cons offset xs ih => simp [tryAll, ih]

/-- The loop over the fences leaves nothing out that would be tried. -/
theorem fencedCandidates_eq {offsets : List Nat} {attempts : Attempts} :
    fencedCandidates decode text offsets attempts = tryAll decode text offsets attempts := by
  induction offsets generalizing attempts with
  | nil => rfl
  | cons offset rest ih =>
      by_cases hlimit :
          maxJsonCandidates ≤ (decodeAt decode text offset attempts).2.attemptCount
      · simp [fencedCandidates, tryAll, hlimit, tryAll_limit hlimit]
      · simp [fencedCandidates, tryAll, hlimit, ih]

/-- The bare candidates are what trying their offsets gives. -/
theorem bareCandidates_eq {offsets : List Nat} {attempts : Attempts} :
    bareCandidates decode text offsets attempts = (tryAll decode text offsets attempts).1 := by
  induction offsets generalizing attempts with
  | nil => rfl
  | cons offset rest ih =>
      by_cases hlimit : maxJsonCandidates ≤ attempts.attemptCount
      · rw [bareCandidates, if_pos hlimit, tryAll_limit hlimit]
      · simp [bareCandidates, tryAll, hlimit, ih]

/-- What is tried gives the dictionaries at the offsets that are left. -/
theorem tryAll_eq {offsets : List Nat} {attempts : Attempts} :
    (tryAll decode text offsets attempts).1 =
      (remaining offsets attempts).filterMap (dictAt decode text) := by
  induction offsets generalizing attempts with
  | nil => simp [tryAll, remaining]
  | cons offset rest ih =>
      by_cases hlimit : maxJsonCandidates ≤ attempts.attemptCount
      · rw [tryAll_limit hlimit, remaining, Nat.sub_eq_zero_of_le hlimit]
        rfl
      by_cases hseen : offset ∈ attempts.seenOffsets
      · have hstep : decodeAt decode text offset attempts = (none, attempts) := by
          rw [decodeAt, if_pos (Or.inl hseen)]
        have hsame : remaining (offset :: rest) attempts = remaining rest attempts := by
          simp [remaining, hseen]
        simp [tryAll, hstep, ih, hsame]
      · -- a new offset comes first, and is dropped from the rest
        have hstep : decodeAt decode text offset attempts =
            (dictAt decode text offset,
              { seenOffsets := offset :: attempts.seenOffsets
                attemptCount := attempts.attemptCount + 1 }) := by
          rw [decodeAt, if_neg (not_or.2 ⟨hseen, hlimit⟩)]
        have hcount : maxJsonCandidates - attempts.attemptCount =
            maxJsonCandidates - (attempts.attemptCount + 1) + 1 := by omega
        have hrest : remaining (offset :: rest) attempts =
            offset :: remaining rest
              { seenOffsets := offset :: attempts.seenOffsets
                attemptCount := attempts.attemptCount + 1 } := by
          have hfilter : ((rest.filter fun o => !attempts.seenOffsets.contains o).filter
              fun o => !o == offset) =
              rest.filter fun o => !(offset :: attempts.seenOffsets).contains o := by
            rw [List.filter_filter]
            refine List.filter_congr fun o _ => ?_
            rw [List.contains_cons, Bool.not_or]
          rw [remaining, remaining, List.filter_cons_of_pos (by simpa using hseen),
            List.eraseDups_cons, hfilter, hcount, List.take_succ_cons]
        rw [hrest, tryAll, hstep, ih, List.filterMap_cons]
        cases dictAt decode text offset <;> rfl

/-- The two loops decode the text at the offsets behind a fence and then at
every brace, each once and up to the limit. -/
theorem jsonCandidates_eq {lib : PyLib} :
    jsonCandidates decode text lib =
      (triedOffsets lib text).filterMap (dictAt decode text) := by
  have hall : jsonCandidates decode text lib =
      (tryAll decode text (offsets lib text) { seenOffsets := [], attemptCount := 0 }).1 := by
    rw [jsonCandidates, offsets, tryAll_append]
    simp only [fencedCandidates_eq, bareCandidates_eq]
    split
    · next hlimit => rw [tryAll_limit hlimit, List.append_nil]
    · rfl
  have hremaining : remaining (offsets lib text) { seenOffsets := [], attemptCount := 0 } =
      triedOffsets lib text := by
    simp [remaining, triedOffsets]
  rw [hall, tryAll_eq, hremaining]

end Candidates

/-- A text with at most as many braces as there are attempts is searched at
every one of them. -/
theorem mem_triedOffsets {lib : PyLib} {text : PyStr}
    (hcount : text.count 123 ≤ maxJsonCandidates) {offset : Nat}
    (h : text[offset]? = some 123) : offset ∈ triedOffsets lib text := by
  have hsubset : (offsets lib text).eraseDups ⊆ braceOffsets 0 text := fun o ho =>
    mem_braceOffsets.2 ⟨Nat.zero_le o, mem_offsets.1 (List.mem_eraseDups.1 ho)⟩
  have hlength : (offsets lib text).eraseDups.length ≤ maxJsonCandidates := by
    refine (List.Subperm.length_le (nodup_eraseDups.subperm hsubset)).trans ?_
    rw [length_braceOffsets]
    exact hcount
  rw [triedOffsets, List.take_of_length_le hlength, List.mem_eraseDups]
  exact mem_offsets.2 h

/-! ## Reports -/

section Reports

variable {Report Error : Type} {lib : PyLib} {decode : PyStr → Option Json}
  {modelValidate : Dict → Except (List Issue) Report}

/-- The valid report at an offset. -/
def reportAt (decode : PyStr → Option Json) (modelValidate : Dict → Except (List Issue) Report)
    (text : PyStr) (offset : Nat) : Option Report :=
  (dictAt decode text offset).bind fun candidate => (modelValidate candidate).toOption

/-- The first report of an answer: the answer is within its limits, the report
stands at an offset that is tried, and none stands at an earlier one. -/
def FirstReport (lib : PyLib) (decode : PyStr → Option Json)
    (modelValidate : Dict → Except (List Issue) Report) (answer : Option PyStr)
    (report : Report) : Prop :=
  ∃ text, answer = some text ∧ responseErrorCode answer = none ∧
    (triedOffsets lib text).findSome? (reportAt decode modelValidate text) = some report

/-- The first valid candidate is the first that validates. -/
theorem firstValid_eq {candidates : List Dict} {issues : List LoggedIssue} :
    (firstValid modelValidate candidates issues).toOption =
      candidates.findSome? fun candidate => (modelValidate candidate).toOption := by
  induction candidates generalizing issues with
  | nil => rfl
  | cons candidate rest ih =>
      cases hvalid : modelValidate candidate with
      | ok report => simp [firstValid, hvalid, Except.toOption]
      | error errors =>
          rw [firstValid, hvalid, List.findSome?_cons_of_isNone (by simp [hvalid, Except.toOption])]
          exact ih

/-- A report is parsed exactly where it is the first of the answer. -/
theorem parse_iff {answer : Option PyStr} {report : Report} :
    (parse lib decode modelValidate answer).1 = some report ↔
      FirstReport lib decode modelValidate answer report := by
  have hcandidates (text : PyStr) :
      (firstValid modelValidate (jsonCandidates decode text lib) []).toOption =
        (triedOffsets lib text).findSome? (reportAt decode modelValidate text) := by
    rw [firstValid_eq, jsonCandidates_eq, ← List.head?_filterMap, List.filterMap_filterMap,
      List.head?_filterMap]
    rfl
  cases answer with
  | none => exact iff_of_false nofun fun h => by cases h.choose_spec.1
  | some text =>
      have hfirst : FirstReport lib decode modelValidate (some text) report ↔
          responseErrorCode (some text) = none ∧
            (triedOffsets lib text).findSome? (reportAt decode modelValidate text) =
              some report :=
        ⟨fun ⟨_, htext, h⟩ => Option.some.inj htext ▸ h, fun h => ⟨text, rfl, h⟩⟩
      rw [hfirst, ← hcandidates]
      cases hcode : responseErrorCode (some text) with
      | some code => simp [parse, hcode]
      | none =>
          cases hvalid : firstValid modelValidate (jsonCandidates decode text lib) [] <;>
            simp [parse, hcode, hvalid, Except.toOption]

/-- An answer without a report is parsed as none. -/
theorem parse_none_iff {answer : Option PyStr} :
    (parse lib decode modelValidate answer).1 = none ↔
      ∀ report, ¬ FirstReport lib decode modelValidate answer report := by
  rw [Option.eq_none_iff_forall_not_mem]
  exact forall_congr' fun report => not_congr parse_iff

/-! ## What is logged -/

/-- A part of a location that says nothing but a position or a short name. -/
def LocationPart.Safe : LocationPart → Prop
  | .index _ => True
  | .name s => s = py "<field>" ∨ isSafePart s = true

structure LoggedIssue.Safe (issue : LoggedIssue) : Prop where
  location : ∀ part ∈ issue.location, part.Safe
  errorType : isSafePart issue.errorType = true

/-- A log line that carries no text of the model but short names. -/
def LogLine.Safe (symbols : List PyStr) (sessionId : PyStr) : LogLine → Prop
  | .parseFailed _ => True
  | .validationFailed issues =>
      issues.length ≤ maxLoggedValidationIssues ∧ ∀ issue ∈ issues, issue.Safe
  | .analysesMissing missing session => session = sessionId ∧ ∀ s ∈ missing, s ∈ symbols

/-- A sanitized location is safe. -/
theorem safe_safeLocation (part : LocationPart) : (safeLocation part).Safe := by
  cases part with
  | index i => trivial
  | name s =>
      by_cases hsafe : isSafePart s = true
      · rw [safeLocation, if_pos hsafe]
        exact Or.inr hsafe
      · rw [safeLocation, if_neg hsafe]
        exact Or.inl rfl

/-- A sanitized type is safe. -/
theorem safe_safeType (type : Option PyStr) : isSafePart (safeType type) = true := by
  have hdefault : isSafePart (py "validation_error") = true := by decide
  cases type with
  | none => exact hdefault
  | some s =>
      by_cases hsafe : isSafePart s = true
      · rw [safeType, Option.elim_some, if_pos hsafe]
        exact hsafe
      · rw [safeType, Option.elim_some, if_neg hsafe]
        exact hdefault

/-- Sanitized issues are few and safe. -/
theorem safe_sanitizedValidationIssues (errors : List Issue) :
    (sanitizedValidationIssues errors).length ≤ maxLoggedValidationIssues ∧
      ∀ issue ∈ sanitizedValidationIssues errors, issue.Safe := by
  refine ⟨List.length_take_le _ _, fun logged hlogged => ?_⟩
  obtain ⟨issue, -, rfl⟩ := List.mem_map.1 (List.mem_of_mem_take hlogged)
  refine ⟨fun part hpart => ?_, safe_safeType issue.type⟩
  obtain ⟨raw, -, rfl⟩ := List.mem_map.1 hpart
  exact safe_safeLocation raw

/-- What a refusal logs is few and safe. -/
theorem safe_firstValid {candidates : List Dict} {issues logged : List LoggedIssue}
    (hissues : issues.length ≤ maxLoggedValidationIssues ∧ ∀ issue ∈ issues, issue.Safe)
    (h : firstValid modelValidate candidates issues = .error logged) :
    logged.length ≤ maxLoggedValidationIssues ∧ ∀ issue ∈ logged, issue.Safe := by
  induction candidates generalizing issues with
  | nil => cases h; exact hissues
  | cons candidate rest ih =>
      cases hvalid : modelValidate candidate with
      | ok report => rw [firstValid, hvalid] at h; cases h
      | error errors =>
          rw [firstValid, hvalid] at h
          refine ih ?_ h
          split
          · exact safe_sanitizedValidationIssues errors
          · exact hissues

variable {symbols : List PyStr} {sessionId : PyStr}

/-- What parsing an answer logs is safe. -/
theorem safe_parse {answer : Option PyStr} {line : LogLine}
    (h : line ∈ (parse lib decode modelValidate answer).2) : line.Safe symbols sessionId := by
  cases hcode : responseErrorCode answer with
  | some code =>
      rw [parse, hcode] at h
      cases List.mem_singleton.1 h
      trivial
  | none =>
      cases hvalid : firstValid modelValidate (jsonCandidates decode (answer.getD []) lib) [] with
      | ok report => simp [parse, hcode, hvalid] at h
      | error issues =>
          have hsafe := safe_firstValid ⟨Nat.zero_le _, List.forall_mem_nil _⟩ hvalid
          simp only [parse, hcode, hvalid, List.mem_singleton] at h
          subst h
          split
          · trivial
          · exact hsafe

variable {renderReport : Report → PyStr} {analyses : Report → List PyStr}

/-- What finishing a report logs is safe. -/
theorem safe_finish {report : Report} {line : LogLine}
    (h : line ∈ (finish lib renderReport analyses symbols sessionId report).2) :
    line.Safe symbols sessionId := by
  simp only [finish] at h
  split at h
  · cases h
  · cases List.mem_singleton.1 h
    exact ⟨rfl, fun s hs => List.mem_of_mem_filter hs⟩

/-! ## A call of the pipeline -/

variable {callRunner : PyStr → List PyStr → Except Error (Option PyStr)} {prompt : PyStr}

/-- A first answer with a report is the only one that is asked for. -/
theorem generate_first {answer : Option PyStr} {report : Report}
    (hcall : callRunner sessionId [prompt] = .ok answer)
    (hreport : FirstReport lib decode modelValidate answer report) :
    generateValidatedReport lib decode modelValidate renderReport analyses callRunner prompt
        sessionId symbols =
      deliver lib renderReport analyses symbols sessionId [prompt]
        (parse lib decode modelValidate answer).2 (some report) := by
  rw [generateValidatedReport, hcall]
  cases hparse : parse lib decode modelValidate answer with
  | mk parsed logged =>
      have hfirst := parse_iff.2 hreport
      rw [hparse] at hfirst
      cases hfirst
      simp only [hparse]

/-- After an answer without a report there is a second attempt. -/
theorem generate_again {answer : Option PyStr}
    (hcall : callRunner sessionId [prompt] = .ok answer)
    (hnone : ∀ report, ¬ FirstReport lib decode modelValidate answer report) :
    generateValidatedReport lib decode modelValidate renderReport analyses callRunner prompt
        sessionId symbols =
      correctReport lib decode modelValidate renderReport analyses callRunner prompt sessionId
        symbols (parse lib decode modelValidate answer).2 := by
  rw [generateValidatedReport, hcall]
  cases hparse : parse lib decode modelValidate answer with
  | mk parsed logged =>
      have hfirst := parse_none_iff.2 hnone
      rw [hparse] at hfirst
      cases hfirst
      simp only [hparse]

/-- What delivering a report logs is safe. -/
theorem safe_deliver {prompts : List PyStr} {logged : List LogLine}
    (hlogged : ∀ line ∈ logged, line.Safe symbols sessionId) (report : Option Report) :
    ∀ line ∈ (@deliver Report Error lib renderReport analyses symbols sessionId prompts logged
      report).logged, line.Safe symbols sessionId := by
  cases report with
  | none => exact hlogged
  | some report =>
      intro line hline
      exact (List.mem_append.1 hline).elim (hlogged line) safe_finish

/-- The corrected answer is delivered after both prompts. -/
theorem correctReport_ok {again : Option PyStr} {logged : List LogLine}
    (hcall : callRunner sessionId [prompt, correction] = .ok again) :
    correctReport lib decode modelValidate renderReport analyses callRunner prompt sessionId
        symbols logged =
      deliver lib renderReport analyses symbols sessionId [prompt, correction]
        (logged ++ (parse lib decode modelValidate again).2)
        (parse lib decode modelValidate again).1 := by
  rw [correctReport, hcall]

/-- What a generation may do, by the answers of the runner. -/
structure Generation.Sound (lib : PyLib) (decode : PyStr → Option Json)
    (modelValidate : Dict → Except (List Issue) Report) (renderReport : Report → PyStr)
    (callRunner : PyStr → List PyStr → Except Error (Option PyStr))
    (prompt sessionId : PyStr) (symbols : List PyStr) (generation : Generation Error) : Prop where
  /-- The model is asked once, or twice where its first answer holds no report. -/
  prompts : generation.prompts = [prompt] ∨
    generation.prompts = [prompt, correction] ∧
      ∃ answer, callRunner sessionId [prompt] = .ok answer ∧
        ∀ report, ¬ FirstReport lib decode modelValidate answer report
  logged : ∀ line ∈ generation.logged, line.Safe symbols sessionId
  failed : ∀ e, generation.result = .error e → callRunner sessionId generation.prompts = .error e
  /-- A validated report of the last answer is delivered or, where that holds
  none after two attempts, the fixed text. -/
  delivered : ∀ text, generation.result = .ok text →
    ∃ answer, callRunner sessionId generation.prompts = .ok answer ∧
      ((∃ report, FirstReport lib decode modelValidate answer report ∧
          text = renderReport report) ∨
        generation.prompts = [prompt, correction] ∧ text = safeFailureReport ∧
          ∀ report, ¬ FirstReport lib decode modelValidate answer report)

/-- The report of the last answer, or the fixed text, is sound. -/
theorem sound_deliver {prompts : List PyStr} {logged : List LogLine} {answer : Option PyStr}
    (hprompts : prompts = [prompt] ∨
      prompts = [prompt, correction] ∧
        ∃ answer, callRunner sessionId [prompt] = .ok answer ∧
          ∀ report, ¬ FirstReport lib decode modelValidate answer report)
    (hlogged : ∀ line ∈ logged, line.Safe symbols sessionId)
    (hcall : callRunner sessionId prompts = .ok answer) {report : Option Report}
    (hparse : (parse lib decode modelValidate answer).1 = report)
    (htwice : report = none → prompts = [prompt, correction]) :
    Generation.Sound lib decode modelValidate renderReport callRunner prompt sessionId symbols
      (deliver lib renderReport analyses symbols sessionId prompts logged report) := by
  have hsafe := @safe_deliver Report Error lib _ _ renderReport analyses prompts _ hlogged report
  cases report with
  | none =>
      refine ⟨hprompts, hsafe, nofun, fun text htext => ⟨answer, hcall, Or.inr ?_⟩⟩
      cases htext
      exact ⟨htwice rfl, rfl, parse_none_iff.1 hparse⟩
  | some report =>
      refine ⟨hprompts, hsafe, nofun, fun text htext => ⟨answer, hcall, Or.inl ?_⟩⟩
      cases htext
      exact ⟨report, parse_iff.1 hparse, rfl⟩

/-- Whatever the model answers, nothing is delivered but a validated report or
the fixed text, and nothing of the answers is logged but short names. -/
theorem delivered_report (lib : PyLib) (decode : PyStr → Option Json)
    (modelValidate : Dict → Except (List Issue) Report) (renderReport : Report → PyStr)
    (analyses : Report → List PyStr)
    (callRunner : PyStr → List PyStr → Except Error (Option PyStr))
    (prompt sessionId : PyStr) (symbols : List PyStr) :
    Generation.Sound lib decode modelValidate renderReport callRunner prompt sessionId symbols
      (generateValidatedReport lib decode modelValidate renderReport analyses callRunner prompt
        sessionId symbols) := by
  cases hcall : callRunner sessionId [prompt] with
  | error e =>
      rw [generateValidatedReport, hcall]
      refine ⟨Or.inl rfl, List.forall_mem_nil _, fun e' he => ?_, nofun⟩
      cases he
      exact hcall
  | ok answer =>
      by_cases hreport : ∃ report, FirstReport lib decode modelValidate answer report
      · obtain ⟨report, hreport⟩ := hreport
        rw [generate_first hcall hreport]
        exact sound_deliver (Or.inl rfl) (fun _ => safe_parse) hcall (parse_iff.2 hreport) nofun
      · have hnone := not_exists.1 hreport
        have hlogged : ∀ line ∈ (parse lib decode modelValidate answer).2,
            line.Safe symbols sessionId := fun _ => safe_parse
        rw [generate_again hcall hnone]
        cases hagain : callRunner sessionId [prompt, correction] with
        | error e =>
            rw [correctReport, hagain]
            refine ⟨Or.inr ⟨rfl, answer, hcall, hnone⟩, hlogged, fun e' he => ?_, nofun⟩
            cases he
            exact hagain
        | ok again =>
            rw [correctReport_ok hagain]
            refine sound_deliver (Or.inr ⟨rfl, answer, hcall, hnone⟩) (fun line hline => ?_)
              hagain rfl fun _ => rfl
            exact (List.mem_append.1 hline).elim (hlogged line) safe_parse

/-- A text within its limits and with at most as many braces as are tried has
a first report if a valid one stands at any of its braces. -/
theorem firstReport_of_reportAt {text : PyStr} (hcode : responseErrorCode (some text) = none)
    (hcount : text.count 123 ≤ maxJsonCandidates) {offset : Nat}
    (hbrace : text[offset]? = some 123) {report : Report}
    (hreport : reportAt decode modelValidate text offset = some report) :
    ∃ found, FirstReport lib decode modelValidate (some text) found := by
  have hsome : ((triedOffsets lib text).findSome?
      (reportAt decode modelValidate text)).isSome := by
    rw [List.findSome?_isSome_iff]
    exact ⟨offset, mem_triedOffsets hcount hbrace, by rw [hreport]; rfl⟩
  obtain ⟨found, hfound⟩ := Option.isSome_iff_exists.1 hsome
  exact ⟨found, text, rfl, hcode, hfound⟩

/-- A report the model writes anywhere in a text that is not too long and has
few braces is not missed, whatever stands around it, in the first answer and in
the second. -/
theorem found_report (lib : PyLib) (decode : PyStr → Option Json)
    (modelValidate : Dict → Except (List Issue) Report) (renderReport : Report → PyStr)
    (analyses : Report → List PyStr)
    (callRunner : PyStr → List PyStr → Except Error (Option PyStr))
    (prompt sessionId : PyStr) (symbols : List PyStr) {text : PyStr}
    (hcode : responseErrorCode (some text) = none)
    (hcount : text.count 123 ≤ maxJsonCandidates) {offset : Nat}
    (hbrace : text[offset]? = some 123) {report : Report}
    (hreport : reportAt decode modelValidate text offset = some report) :
    ∃ found, FirstReport lib decode modelValidate (some text) found ∧
      (callRunner sessionId [prompt] = .ok (some text) →
        (generateValidatedReport lib decode modelValidate renderReport analyses callRunner
          prompt sessionId symbols).prompts = [prompt] ∧
        (generateValidatedReport lib decode modelValidate renderReport analyses callRunner
          prompt sessionId symbols).result = .ok (renderReport found)) ∧
      ∀ answer, callRunner sessionId [prompt] = .ok answer →
        (∀ report, ¬ FirstReport lib decode modelValidate answer report) →
        callRunner sessionId [prompt, correction] = .ok (some text) →
        (generateValidatedReport lib decode modelValidate renderReport analyses callRunner
          prompt sessionId symbols).result = .ok (renderReport found) := by
  obtain ⟨found, hfound⟩ := @firstReport_of_reportAt _ lib _ _ _ hcode hcount _ hbrace _ hreport
  refine ⟨found, hfound, fun hcall => ?_, fun answer hcall hnone hagain => ?_⟩
  · rw [generate_first hcall hfound]
    exact ⟨rfl, rfl⟩
  · rw [generate_again hcall hnone, correctReport, hagain]
    simp only [parse_iff.2 hfound, deliver, finish]

end Reports

/-- An answer with an aside before the object. -/
@[irreducible] def asideAnswer : PyStr :=
  py "\x7bx\x7d \x7b\"executive_summary\":\"Calm.\",\"macro_snapshot\":\x7b\"vix\":\"15\"," ++
  py "\"vix_signal\":\"\",\"fed_rate\":\"\",\"fed_rate_signal\":\"\",\"treasury_10y\":\"\"," ++
  py "\"treasury_10y_signal\":\"\",\"cpi_yoy\":\"\",\"unemployment\":\"\"," ++
  py "\"macro_posture\":\"\"\x7d,\"analyses\":[],\"portfolio_actions\":[],\"stop_losses\":[],\"watchlist\":[]," ++
  py "\"risk_factors\":[]\x7d"

/-- The summary of an object that has the fields of a report. -/
def sampleValidate (kvs : Dict) : Except (List Issue) PyStr :=
  if kvs.map (·.1) = [py "executive_summary", py "macro_snapshot", py "analyses",
      py "portfolio_actions", py "stop_losses", py "watchlist", py "risk_factors"] then
    .ok (pyStr asciiLib ((dictGet kvs (py "executive_summary")).getD .null))
  else .error [{ loc := [], type := some (py "missing") }]

def sampleDecode : PyStr → Option Json := jsonLoads (fun _ => .nan) fun _ => .nan

theorem found_report_aside :
    ∃ found, FirstReport asciiLib sampleDecode sampleValidate (some asideAnswer) found ∧
      (@generateValidatedReport PyStr Unit asciiLib sampleDecode sampleValidate id (fun _ => [])
        (fun _ _ => .ok (some asideAnswer)) [] [] []).result = .ok found := by
  obtain ⟨found, hfound, hfirst, -⟩ := @found_report PyStr Unit asciiLib sampleDecode
    sampleValidate id (fun _ => []) (fun _ _ => .ok (some asideAnswer)) [] [] [] asideAnswer
    (by decide +kernel) (by decide +kernel) 4 (by decide +kernel) (py "Calm.")
    (by decide +kernel)
  exact ⟨found, hfound, (hfirst rfl).2⟩

end ReportPipeline
