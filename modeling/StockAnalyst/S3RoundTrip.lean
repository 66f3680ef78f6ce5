import StockAnalyst.S3Urls

/-!
# Deliverables read back

`download` of the URL that `upload` returned.  The two accept different things:
a stored object is read back exactly when its text is within the limit of
`download`, no surrogate pair is in it, and the public base holds no `?` or `#`.
Whatever `download` returns is the object whose text has the digest in the URL.
-/

namespace S3Storage

open Python

section config

variable {rt : Runtime} {config : S3StorageConfig}

/-! ## Objects -/

/-- A segment without `.json` is one. -/
theorem isSegment_removeJsonSuffix {value : PyStr} (h : isSegment value = true) :
    isSegment (removeJsonSuffix value) = true := by
  obtain ⟨hhead, hlength, hchars⟩ := isSegment_iff.1 h
  unfold removeJsonSuffix
  split
  · rename_i hsuffix
    obtain ⟨front, hfront⟩ := List.isSuffixOf_iff_suffix.1 hsuffix
    have hjson : (py ".json").length = 5 := by decide
    have htake : value.take (value.length - 5) = front := by
      rw [← hfront, List.length_append, hjson, Nat.add_sub_cancel, List.take_left]
    rw [htake]
    cases front with
    | nil =>
        rw [← hfront] at hhead
        exact absurd hhead (by decide)
    | cons c front =>
        rw [← hfront] at hhead hlength hchars
        apply isSegment_iff.2
        refine ⟨hhead, ?_, fun d hd => hchars d (List.mem_append_left _ hd)⟩
        rw [List.length_append] at hlength
        omega
  · exact h

/-- A stem that is accepted is a segment. -/
theorem safeStem_segment {filename : Option PyStr} {stem : PyStr}
    (h : safeStem filename = .ok stem) : isSegment stem = true := by
  unfold safeStem at h
  dsimp only at h
  generalize (if isFalsy filename then py "manifest.json" else filename.getD []) = value at h
  by_cases hsegment : isSegment value = true
  · rw [if_pos hsegment] at h
    obtain rfl := Except.ok.inj h
    exact isSegment_removeJsonSuffix hsegment
  · rw [if_neg hsegment] at h
    cases h

/-- The name of an object is its stem and its digest. -/
theorem objectName (rt : Runtime) {stem : PyStr} (h : isSegment stem = true) (body : List Nat) :
    ObjectName stem (toHex (rt.sha256 body)) := by
  obtain ⟨hlength, hbytes⟩ := rt.sha256_digest body
  refine ⟨h, ?_, ?_⟩
  · rw [length_toHex, hlength]
  · intro c hc
    simpa [isHexDigit] using toHex_range hbytes c hc

/-- The stored bytes are the text. -/
theorem canonicalBytes_eq {value : Json} (hvalue : value.Held rt.floats.isDouble) :
    canonicalBytes rt value = value.dumps rt.net.lib := by
  unfold canonicalBytes
  cases htext : value.dumps rt.net.lib with
  | none => rfl
  | some text => exact utf8Encode_ascii (Json.dumps_ascii hvalue htext)

/-- What a successful `upload` has stored and returned. -/
theorem upload_ok {accepts : PutObject → Bool} {data : Json} {filename : Option PyStr}
    {put : PutObject} {url : PyStr} (hdata : data.Held rt.floats.isDouble)
    (h : upload rt config accepts data filename = .ok (put, url)) :
    ∃ kvs stem, data = .obj kvs ∧ isSegment stem = true ∧
      data.dumps rt.net.lib = some put.body ∧ put.bucket = config.bucket ∧
      put.key = objectKey rt config stem put.body ∧
      url = config.publicBase ++ py "/" ++ put.key := by
  unfold upload at h
  split at h
  · rename_i kvs
    split at h
    · cases h
    · rename_i body hbody
      cases hstem : safeStem filename with
      | error e =>
          rw [hstem] at h
          cases h
      | ok stem =>
          rw [hstem] at h
          simp only [Except.bind] at h
          split at h
          · obtain ⟨rfl, rfl⟩ := Prod.mk.inj (Except.ok.inj h)
            rw [canonicalBytes_eq hdata] at hbody
            exact ⟨kvs, stem, rfl, safeStem_segment hstem, hbody, rfl, rfl, rfl⟩
          · cases h
  · cases h

/-- What the stored bytes are read as. -/
theorem checkBody_dumps {data : Json} {kvs : List (PyStr × Json)} {body : List Nat}
    (hdata : data.Held rt.floats.isDouble) (hobj : data = .obj kvs)
    (hbody : data.dumps rt.net.lib = some body) :
    (∃ value, checkBody rt (toHex (rt.sha256 body)) body = .ok value ∧ value.pyEq data = true) ↔
      data.AllStr NoPair := by
  have hload : (rt.net.lib.utf8Decode body).bind (loadsFinite rt.floats.number) =
      some data.sorted.reload := by
    rw [rt.utf8_ascii body (Json.dumps_ascii hdata hbody)]
    exact Json.loads_dumps hdata hbody
  obtain ⟨kvs', hkvs⟩ : ∃ kvs', data.sorted.reload = .obj kvs' := by
    rw [hobj]
    exact ⟨_, rfl⟩
  constructor
  · rintro ⟨value, hvalue, heq⟩
    rw [checkBody, hload, hkvs] at hvalue
    dsimp only at hvalue
    have hsame : value = data.sorted.reload := by
      split at hvalue
      · cases hvalue
      · split at hvalue
        · cases hvalue
        · split at hvalue
          · cases hvalue
          · rw [hkvs]
            exact (Except.ok.inj hvalue).symm
    rw [hsame] at heq
    exact (Json.reload_pyEq_iff hdata).1 heq
  · intro hpair
    have hself : data.sorted.reload = data.sorted :=
      Json.reload_eq_self hdata.sorted (Json.allStr_sorted.2 hpair)
    have hcanonical : canonicalBytes rt (.obj kvs') = some body := by
      rw [← hkvs, hself, canonicalBytes_eq hdata.sorted, Json.dumps_sorted, hbody]
    refine ⟨data.sorted.reload, ?_, (Json.reload_pyEq_iff hdata).2 hpair⟩
    rw [checkBody, hload, hkvs]
    simp only [hcanonical]
    simp

/-- Whatever is returned is the object whose text was served. -/
theorem checkBody_ok {digest : PyStr} {body : List Nat} {value : Json}
    (h : checkBody rt digest body = .ok value) :
    canonicalBytes rt value = some body ∧ toHex (rt.sha256 body) = digest ∧
      (rt.net.lib.utf8Decode body).bind (loadsFinite rt.floats.number) = some value := by
  unfold checkBody at h
  split at h
  · cases h
  · rename_i kvs hload
    split at h
    · cases h
    · rename_i canonical hcanonical
      by_cases hbody : canonical = body
      · rw [if_neg (by simpa using hbody)] at h
        by_cases hdigest : toHex (rt.sha256 canonical) = digest
        · rw [if_neg (by simpa using hdigest)] at h
          obtain rfl := Except.ok.inj h
          rw [hbody] at hcanonical hdigest
          exact ⟨hcanonical, hdigest, hload⟩
        · rw [if_pos hdigest] at h
          cases h
      · rw [if_pos hbody] at h
        cases h
  · cases h

/-! ## Round trip -/

/-- The length of the sorted compact text of a value. -/
def textLength (rt : Runtime) (data : Json) : Nat := ((data.dumps rt.net.lib).getD []).length

/-- The service serves the bytes of a stored object. -/
def Serves (get : PyStr → PyStr → Option GetObject) (put : PutObject) : Prop :=
  ∃ response, get put.bucket put.key = some response ∧ response.body = put.body ∧
    (response.contentLength = none ∨ response.contentLength = some (put.body.length : Int))

/-- **What was uploaded is downloaded** exactly where it is plain, without a
pair and within the limit. -/
theorem download_upload_iff (h : Configured rt config) {accepts : PutObject → Bool} {data : Json}
    {filename : Option PyStr} {put : PutObject} {url : PyStr}
    {get : PyStr → PyStr → Option GetObject} (hdata : data.Held rt.floats.isDouble)
    (hput : upload rt config accepts data filename = .ok (put, url)) (hget : Serves get put) :
    (∃ value, download rt config get url = .ok value ∧ value.pyEq data = true) ↔
      config.Plain ∧ data.AllStr NoPair ∧ textLength rt data ≤ maxDownloadBytes := by
  obtain ⟨kvs, stem, hobj, hstem, hbody, hbucket, hkey, hurl⟩ := upload_ok hdata hput
  obtain ⟨response, hserved, hsame, hdeclared⟩ := hget
  rw [hbucket] at hserved
  obtain ⟨hfound, hrefused⟩ := keyFromUrl_object h (objectName rt hstem put.body)
  rw [← objectKey, ← hkey, ← hurl] at hfound hrefused
  have hlength : textLength rt data = put.body.length := by
    rw [textLength, hbody, Option.getD_some]
  rw [hlength]
  by_cases hplain : config.Plain
  · by_cases hsize : put.body.length ≤ maxDownloadBytes
    · have hcheck : download rt config get url =
          checkBody rt (toHex (rt.sha256 put.body)) put.body := by
        have htake : response.body.take (maxDownloadBytes + 1) = put.body := by
          rw [hsame]
          exact List.take_of_length_le (by omega)
        have hsmall : ¬ ((maxDownloadBytes : Int) < response.contentLength.getD 0) := by
          obtain hnone | hsome := hdeclared
          · rw [hnone, Option.getD_none]
            omega
          · rw [hsome, Option.getD_some]
            omega
        rw [download, hfound hplain]
        simp only [Except.bind, hserved, htake]
        rw [if_neg hsmall, if_neg (by omega)]
      rw [hcheck, checkBody_dumps hdata hobj hbody]
      exact ⟨fun hpair => ⟨hplain, hpair, hsize⟩, fun hall => hall.2.1⟩
    · constructor
      · rintro ⟨value, hvalue, -⟩
        rw [download, hfound hplain] at hvalue
        simp only [Except.bind, hserved] at hvalue
        split at hvalue
        · cases hvalue
        · rw [if_pos] at hvalue
          · cases hvalue
          · rw [List.length_take, hsame]
            omega
      · exact fun hall => absurd hall.2.2 hsize
  · constructor
    · rintro ⟨value, hvalue, -⟩
      rw [download, hrefused hplain] at hvalue
      cases hvalue
    · exact fun hall => absurd hall.1 hplain

/-! ## What a URL commits to -/

/-- The digest a URL names. -/
def Names (rt : Runtime) (url digest : PyStr) : Prop :=
  ∃ parsed front, urlsplitText rt.net url = .ok parsed ∧
    parsed.path = front ++ py "-" ++ digest ++ py ".json"

/-- A name that is taken apart is that stem and that digest. -/
theorem matchObject_eq {remainder stem digest : PyStr}
    (h : matchObject remainder = some (stem, digest)) :
    remainder = stem ++ py "-" ++ digest ++ py ".json" := by
  unfold matchObject at h
  dsimp only at h
  split at h
  · rename_i hcond
    obtain ⟨rfl, rfl⟩ := Prod.mk.inj (Option.some.inj h)
    simp only [Bool.and_eq_true, decide_eq_true_eq] at hcond
    obtain ⟨⟨⟨-, hdash⟩, -⟩, hjson⟩ := hcond
    have hsplit := List.take_append_drop (remainder.length - 70) remainder
    cases hrest : remainder.drop (remainder.length - 70) with
    | nil =>
        rw [hrest] at hdash
        cases hdash
    | cons c rest =>
        rw [hrest] at hdash hjson hsplit
        obtain rfl := Option.some.inj hdash
        have htail : rest = rest.take 64 ++ rest.drop 64 := (List.take_append_drop 64 rest).symm
        rw [List.drop_succ_cons] at hjson
        rw [List.drop_one, List.tail_cons, ← hjson]
        have hminus : py "-" = [45] := by decide
        calc remainder = remainder.take (remainder.length - 70) ++ 45 :: rest := hsplit.symm
          _ = _ := by
            rw [hminus]
            conv_lhs => rw [htail]
            simp
  · cases h

/-- A key that is accepted is named by its URL. -/
theorem keyFromUrl_names {url key digest : PyStr}
    (h : keyFromUrl rt config url = .ok (key, digest)) : Names rt url digest := by
  unfold keyFromUrl at h
  cases hparsed : urlsplitText rt.net url with
  | error e =>
      rw [hparsed] at h
      cases h
  | ok parsed =>
      rw [hparsed] at h
      cases hbase : urlsplitText rt.net config.publicBase with
      | error e =>
          rw [hbase] at h
          cases h
      | ok base =>
          rw [hbase] at h
          simp only [Except.bind] at h
          split at h
          · cases h
          split at h
          · cases h
          rename_i hpath
          split at h
          · rename_i stem digest' hmatch
            split at h
            · cases h
            · obtain ⟨-, rfl⟩ := Prod.mk.inj (Except.ok.inj h)
              have hrest := matchObject_eq hmatch
              refine ⟨parsed,
                parsed.path.takeWhile (· = 47) ++ (config.pathPrefix ++ py "/") ++ stem, hparsed, ?_⟩
              simp only [Bool.or_eq_true, not_or, Bool.not_eq_true, Bool.not_eq_false',
                decide_eq_false_iff_not] at hpath
              obtain ⟨tail, htail⟩ := List.isPrefixOf_iff_prefix.1 hpath.1.1
              rw [← htail, List.drop_left] at hrest
              calc parsed.path = parsed.path.takeWhile (· = 47) ++ parsed.path.dropWhile (· = 47) :=
                    (List.takeWhile_append_dropWhile ..).symm
                _ = _ := by
                  rw [← htail, hrest]
                  simp
          · cases h

/-- A download that succeeds has read the object its URL names. -/
theorem download_ok {get : PyStr → PyStr → Option GetObject} {url : PyStr} {value : Json}
    (h : download rt config get url = .ok value) :
    ∃ key digest response, keyFromUrl rt config url = .ok (key, digest) ∧
      get config.bucket key = some response ∧
      checkBody rt digest response.body = .ok value := by
  unfold download at h
  cases hkey : keyFromUrl rt config url with
  | error e =>
      rw [hkey] at h
      cases h
  | ok found =>
      obtain ⟨key, digest⟩ := found
      rw [hkey] at h
      simp only [Except.bind] at h
      cases hserved : get config.bucket key with
      | none =>
          rw [hserved] at h
          cases h
      | some response =>
          rw [hserved] at h
          dsimp only at h
          split at h
          · cases h
          split at h
          · cases h
          rename_i hsize
          have htake : response.body.take (maxDownloadBytes + 1) = response.body := by
            rw [List.length_take] at hsize
            exact List.take_of_length_le (by omega)
          rw [htake] at h
          exact ⟨key, digest, response, rfl, hserved, h⟩

/-- Two objects of one URL have texts with one digest. -/
theorem download_unique {get get' : PyStr → PyStr → Option GetObject} {url : PyStr}
    {value value' : Json} (h : download rt config get url = .ok value)
    (h' : download rt config get' url = .ok value')
    (hsha : ∀ body body', canonicalBytes rt value = some body →
      canonicalBytes rt value' = some body' → rt.sha256 body = rt.sha256 body' → body = body') :
    value = value' := by
  obtain ⟨key, digest, response, hkey, -, hcheck⟩ := download_ok h
  obtain ⟨key', digest', response', hkey', -, hcheck'⟩ := download_ok h'
  rw [hkey] at hkey'
  obtain ⟨-, rfl⟩ := Prod.mk.inj (Except.ok.inj hkey')
  obtain ⟨hbytes, hdigest, hload⟩ := checkBody_ok hcheck
  obtain ⟨hbytes', hdigest', hload'⟩ := checkBody_ok hcheck'
  have hbody : response.body = response'.body := by
    apply hsha _ _ hbytes hbytes'
    exact toHex_inj (rt.sha256_digest _).2 (rt.sha256_digest _).2 (hdigest.trans hdigest'.symm)
  rw [hbody, hload'] at hload
  exact (Option.some.inj hload).symm

end config

/-- **Deliverables read back.**  An object that `upload` stored is downloaded
again, equal to what it was, exactly when the base is plain, no surrogate pair
stands in its strings and its text is within the limit of `download`.  Whatever
`download` returns has the text that was served and the digest its URL names,
and one URL returns one object. -/
theorem deliverable_read_back (rt : Runtime) (env : Env) (config : S3StorageConfig)
    (henv : S3StorageConfig.fromEnv rt env = .ok config) :
    (∀ accepts data filename put url, data.Held rt.floats.isDouble →
      upload rt config accepts data filename = .ok (put, url) →
      ∀ get, Serves get put →
        ((∃ value, download rt config get url = .ok value ∧ value.pyEq data = true) ↔
          config.Plain ∧ data.AllStr NoPair ∧ textLength rt data ≤ maxDownloadBytes)) ∧
    (∀ get url value, download rt config get url = .ok value →
      ∃ key digest response, Names rt url digest ∧ get config.bucket key = some response ∧
        canonicalBytes rt value = some response.body ∧
        toHex (rt.sha256 response.body) = digest) ∧
    (∀ get get' url value value', download rt config get url = .ok value →
      download rt config get' url = .ok value' →
      (∀ body body', canonicalBytes rt value = some body → canonicalBytes rt value' = some body' →
        rt.sha256 body = rt.sha256 body' → body = body') → value = value') := by
  have hconfig := fromEnv_configured henv
  refine ⟨fun _ _ _ _ _ hdata hput _ hget => download_upload_iff hconfig hdata hput hget, ?_,
    fun _ _ _ _ _ h h' hsha => download_unique h h' hsha⟩
  intro get url value h
  obtain ⟨key, digest, response, hkey, hserved, hcheck⟩ := download_ok h
  obtain ⟨hbytes, hdigest, -⟩ := checkBody_ok hcheck
  exact ⟨key, digest, response, keyFromUrl_names hkey, hserved, hbytes, hdigest⟩

/-! ### One object -/

/-- `repr` of a float of magnitude 1.5. -/
def sampleRepr (neg : Bool) : PyStr := (if neg then [45] else []) ++ py "1.5"

/-- Python's library on the texts of one object. -/
def sampleRuntime : Runtime where
  net :=
    { lib := { asciiLib with floatRepr := fun neg _ => sampleRepr neg }
      compressed := fun _ => none
      checkNetloc := fun _ => true }
  floats :=
    { number := fun text => .finite (text.head? = some 45) (3 / 2)
      isDouble := fun abs => abs = 3 / 2
      numbers := fun neg _ => (by decide : ∀ neg, isNumber (sampleRepr neg) = true) neg
      not_integer := fun neg _ =>
        (by decide : ∀ neg, Deliverable.isInteger (sampleRepr neg) = false) neg
      number_repr := fun neg abs h => by
        rw [h]
        cases neg <;> rfl }
  sha256 := fun _ =>
    [63, 20, 199, 30, 138, 195, 75, 244, 160, 219, 69, 198, 182, 18, 248, 252, 72, 21, 107, 188,
      228, 199, 196, 89, 196, 64, 75, 207, 31, 60, 35, 251]
  sha256_digest := fun _ => by decide
  utf8_ascii := fun s h => if_pos (List.all_eq_true.2 fun c hc => decide_eq_true (h c hc))

def sampleEnv : Env :=
  [(py "DELIVERABLE_S3_BUCKET", py "stock-analyst"),
    (py "DELIVERABLE_PUBLIC_BASE", py "https://cdn.example/")]

def sampleConfig : S3StorageConfig :=
  ⟨py "stock-analyst", py "https://cdn.example", py "deliverables"⟩

def sampleData : Json :=
  .obj [(py "b", .arr [.float (.finite false (3 / 2)), .bool true, .null]),
    (py "a", .str [99, 97, 102, 0xE9])]

def samplePut : PutObject where
  bucket := py "stock-analyst"
  key := py "deliverables/job-3f14c71e8ac34bf4a0db45c6b612f8fc48156bbce4c7c459c4404bcf1f3c23fb.json"
  body := py "\x7b\"a\":\"caf\\u00e9\",\"b\":[1.5,true,null]\x7d"

def sampleUrl : PyStr := sampleConfig.publicBase ++ py "/" ++ samplePut.key

def sampleGet (bucket key : PyStr) : Option GetObject :=
  if bucket = samplePut.bucket ∧ key = samplePut.key then
    some ⟨some samplePut.body.length, samplePut.body⟩
  else none

theorem held_sampleData : sampleData.Held sampleRuntime.floats.isDouble := by
  apply Json.Held.obj (by decide) (by decide)
  simp only [List.forall_mem_cons, List.not_mem_nil, false_imp_iff, implies_true, and_true]
  refine ⟨.arr ?_, .str (by decide)⟩
  simp only [List.forall_mem_cons, List.not_mem_nil, false_imp_iff, implies_true, and_true]
  exact ⟨.finite rfl, .bool, .null⟩

theorem allStr_sampleData : sampleData.AllStr NoPair := by
  apply Json.AllStr.obj (by decide)
  simp only [List.forall_mem_cons, List.not_mem_nil, false_imp_iff, implies_true, and_true]
  refine ⟨.arr ?_, .str (by decide)⟩
  simp only [List.forall_mem_cons, List.not_mem_nil, false_imp_iff, implies_true, and_true]
  exact ⟨.float, .bool, .null⟩

/-- The sample's deliverable is uploaded and read back. -/
theorem deliverable_read_back_sample :
    ∃ value, download sampleRuntime sampleConfig sampleGet sampleUrl = .ok value ∧
      value.pyEq sampleData = true ∧
      ∀ value', download sampleRuntime sampleConfig sampleGet sampleUrl = .ok value' →
        value = value' := by
  obtain ⟨hround, hcommit, hone⟩ := deliverable_read_back sampleRuntime sampleEnv sampleConfig rfl
  have hput : upload sampleRuntime sampleConfig (fun _ => true) sampleData (some (py "job.json")) =
      .ok (samplePut, sampleUrl) := rfl
  have hserves : Serves sampleGet samplePut :=
    ⟨⟨some samplePut.body.length, samplePut.body⟩, if_pos ⟨rfl, rfl⟩, rfl, Or.inr rfl⟩
  have hlength : textLength sampleRuntime sampleData = 37 := by decide
  have hplain : sampleConfig.Plain := by
    unfold S3StorageConfig.Plain
    decide
  obtain ⟨value, hvalue, heq⟩ :=
    (hround _ _ _ _ _ held_sampleData hput sampleGet hserves).2
      ⟨hplain, allStr_sampleData, by rw [hlength]; decide⟩
  refine ⟨value, hvalue, heq, fun value' hvalue' => hone _ _ _ _ _ hvalue hvalue' ?_⟩
  intro body body' hbody hbody' _
  obtain ⟨key, digest, response, -, hserved, hbytes, -⟩ := hcommit _ _ _ hvalue
  obtain ⟨key', digest', response', -, hserved', hbytes', -⟩ := hcommit _ _ _ hvalue'
  have hsame : ∀ key response, sampleGet sampleConfig.bucket key = some response →
      response.body = samplePut.body := by
    intro key response h
    unfold sampleGet at h
    split at h
    · obtain rfl := Option.some.inj h
      rfl
    · cases h
  rw [hbytes, hsame _ _ hserved] at hbody
  rw [hbytes', hsame _ _ hserved'] at hbody'
  exact (Option.some.inj hbody).symm.trans (Option.some.inj hbody')

/-! ### An object that is stored and not read back -/

/-- A literal is at least as long as its text. -/
theorem length_dumpsStr (s : PyStr) : s.length ≤ (dumpsStr s).length := by
  have hchar : ∀ c, 1 ≤ (escapeChar c).length := by
    intro c
    unfold escapeChar
    split_ifs <;> simp [unitEscape]
  have hsum : s.length ≤ (s.flatMap escapeChar).length := by
    induction s with
    | nil => simp
    | cons c s ih =>
        have := hchar c
        simp only [List.flatMap_cons, List.length_append, List.length_cons]
        omega
  simp only [dumpsStr, List.length_append, List.length_cons]
  omega

/-- A report of `n` letters. -/
def longReport (n : Nat) : Json := .obj [(py "report", .str (List.replicate n 97))]

theorem held_longReport (n : Nat) : (longReport n).Held sampleRuntime.floats.isDouble := by
  have hkey : CodePoints (py "report") := by decide
  have hreport : CodePoints (List.replicate n 97) := by
    intro c hc
    rw [List.eq_of_mem_replicate hc]
    decide
  apply Json.Held.obj (List.forall_mem_singleton.2 hkey) (List.nodup_singleton _)
  intro e he
  rw [List.mem_singleton.1 he]
  exact .str hreport

/-- The text of a long report, and its length. -/
theorem dumps_longReport (n : Nat) :
    ∃ text, (longReport n).dumps sampleRuntime.net.lib = some text ∧ n < text.length := by
  refine ⟨0x7B :: dumpsEntries [(py "report", dumpsStr (List.replicate n 97))] ++ [0x7D], rfl, ?_⟩
  have hlength := length_dumpsStr (List.replicate n 97)
  rw [List.length_replicate] at hlength
  simp only [dumpsEntries, List.map_cons, List.map_nil, PyStr.join, List.length_append,
    List.length_cons]
  omega

/-- A report of 2 MiB or more is stored under a plain base, and `download`
refuses it. -/
theorem long_report_refused {n : Nat} (hn : maxDownloadBytes ≤ n) :
    ∃ put url, upload sampleRuntime sampleConfig (fun _ => true) (longReport n)
        (some (py "job.json")) = .ok (put, url) ∧
      ∀ get, Serves get put → ¬ ∃ value, download sampleRuntime sampleConfig get url = .ok value ∧
        value.pyEq (longReport n) = true := by
  obtain ⟨text, htext, hlong⟩ := dumps_longReport n
  have hheld := held_longReport n
  have hbytes : canonicalBytes sampleRuntime (longReport n) = some text := by
    rw [canonicalBytes_eq hheld, htext]
  have hconfig : Configured sampleRuntime sampleConfig :=
    @fromEnv_configured sampleRuntime sampleConfig sampleEnv rfl
  obtain ⟨put, url, hput⟩ : ∃ put url, upload sampleRuntime sampleConfig (fun _ => true)
      (longReport n) (some (py "job.json")) = .ok (put, url) := by
    rw [longReport] at hbytes ⊢
    rw [upload, hbytes]
    exact ⟨_, _, rfl⟩
  refine ⟨put, url, hput, fun get hget hread => ?_⟩
  obtain ⟨-, -, hsize⟩ := (download_upload_iff hconfig hheld hput hget).1 hread
  rw [textLength, htext, Option.getD_some] at hsize
  omega

theorem long_report_unreadable :
    ∃ put url, upload sampleRuntime sampleConfig (fun _ => true) (longReport (2 * 1024 * 1024))
        (some (py "job.json")) = .ok (put, url) ∧
      ∀ get, Serves get put → ¬ ∃ value, download sampleRuntime sampleConfig get url = .ok value ∧
        value.pyEq (longReport (2 * 1024 * 1024)) = true :=
  long_report_refused (Nat.le_refl _)

end S3Storage
