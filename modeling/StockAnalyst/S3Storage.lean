import StockAnalyst.SortedJson
import StockAnalyst.UrlSplit

/-!
# Deliverables in S3

`s3_storage.py`: the configuration, `upload` and `download`.  An object is
stored under a key that names the SHA-256 of its sorted compact JSON text.
-/

namespace S3Storage

open Python

/-- What the provider takes from Python's library. -/
structure Runtime where
  net : NetLib
  floats : FloatLib net.lib
  sha256 : List Nat → List Nat
  sha256_digest : ∀ m, (sha256 m).length = 32 ∧ ∀ b ∈ sha256 m, b < 256
  utf8_ascii : ∀ s, (∀ c ∈ s, c < 0x80) → net.lib.utf8Decode s = some s

/-- What a call raises. -/
inductive Raised where
  /-- `S3StorageError`. -/
  | storage (message : String)
  /-- Of `urlsplit`. -/
  | valueError
  /-- Of the S3 client. -/
  | client
  deriving DecidableEq

def maxDownloadBytes : Nat := 2 * 1024 * 1024

/-! ## Patterns -/

def isLowerOrDigit (c : Nat) : Bool := (97 ≤ c && c ≤ 122) || (48 ≤ c && c ≤ 57)

def isAlphanumeric (c : Nat) : Bool := isLowerOrDigit c || (65 ≤ c && c ≤ 90)

/-- `[A-Za-z0-9._-]`. -/
def isSegmentChar (c : Nat) : Bool := isAlphanumeric c || c = 46 || c = 95 || c = 45

/-- `_BUCKET_RE`: `[a-z0-9][a-z0-9.-]{1,61}[a-z0-9]\Z`. -/
def isBucket (value : PyStr) : Bool :=
  3 ≤ value.length && value.length ≤ 63 && value.head?.any isLowerOrDigit
    && value.getLast?.any isLowerOrDigit
    && value.all fun c => isLowerOrDigit c || c = 46 || c = 45

/-- `_SEGMENT_RE`: `[A-Za-z0-9][A-Za-z0-9._-]{0,199}\Z`. -/
def isSegment (value : PyStr) : Bool :=
  value.head?.any isAlphanumeric && value.length ≤ 200 && value.all isSegmentChar

/-- `[0-9a-f]`. -/
def isHexDigit (c : Nat) : Bool := (48 ≤ c && c ≤ 57) || (97 ≤ c && c ≤ 102)

/-- `_OBJECT_RE`: the groups `stem` and `digest`.  The digest has 64 characters,
so both groups stand at fixed places from the end. -/
def matchObject (remainder : PyStr) : Option (PyStr × PyStr) :=
  let stem := remainder.take (remainder.length - 70)
  let rest := remainder.drop (remainder.length - 70)
  let digest := (rest.drop 1).take 64
  if isSegment stem && rest.length = 70 && rest.head? = some 45 && digest.all isHexDigit
      && rest.drop 65 = py ".json" then some (stem, digest)
  else none

/-! ## URLs -/

/-- `_WHATWG_C0_CONTROL_OR_SPACE` goes at the start, and
`_UNSAFE_URL_BYTES_TO_REMOVE` everywhere. -/
def cleanUrl (url : PyStr) : PyStr :=
  (url.dropWhile (· ≤ 0x20)).filter fun c => c != 9 && c != 13 && c != 10

/-- `urlsplit(url)` of any text. -/
def urlsplitText (net : NetLib) (url : PyStr) : Except Raised SplitResult :=
  match urlsplit net (cleanUrl url) with
  | none => .error .valueError
  | some parsed => .ok parsed

/-- `not value` of an optional string. -/
def isFalsy (value : Option PyStr) : Bool := (value.getD []).isEmpty

def stripSlashes (value : PyStr) : PyStr := rstripSlash (value.dropWhile (· = 47))

/-! ## Configuration -/

structure S3StorageConfig where
  bucket : PyStr
  publicBase : PyStr
  pathPrefix : PyStr
  deriving DecidableEq

/-- The environment variables that are set. -/
abbrev Env := List (PyStr × PyStr)

/-- `env.get(name, fallback)`. -/
def Env.get (env : Env) (name fallback : PyStr) : PyStr := (env.lookup name).getD fallback

/-- An HTTPS origin without a path. -/
def isOrigin (net : NetLib) (parsed : SplitResult) : Bool :=
  parsed.scheme = py "https" && !isFalsy (parsed.hostname net.lib)
    && isFalsy parsed.username && isFalsy parsed.password
    && parsed.query.isEmpty && parsed.fragment.isEmpty
    && (parsed.path = [] || parsed.path = py "/")

/-- `S3StorageConfig.from_env`. -/
def S3StorageConfig.fromEnv (rt : Runtime) (env : Env) : Except Raised S3StorageConfig :=
  let lib := rt.net.lib
  let bucket := (env.get (py "DELIVERABLE_S3_BUCKET") []).strip lib
  let publicBase := (env.get (py "DELIVERABLE_PUBLIC_BASE") []).strip lib
  if bucket.isEmpty != publicBase.isEmpty then
    .error (.storage "DELIVERABLE_S3_BUCKET and DELIVERABLE_PUBLIC_BASE must be set together")
  else if bucket.isEmpty then .error (.storage "S3 deliverable storage is not configured")
  else if !isBucket bucket then .error (.storage "DELIVERABLE_S3_BUCKET is invalid")
  else (urlsplitText rt.net publicBase).bind fun parsed =>
    if parsed.port.isNone then
      .error (.storage "DELIVERABLE_PUBLIC_BASE has an invalid port")
    else if !isOrigin rt.net parsed then
      .error (.storage "DELIVERABLE_PUBLIC_BASE must be an HTTPS origin without a path")
    else
      let pathPrefix :=
        stripSlashes ((env.get (py "DELIVERABLE_S3_PREFIX") (py "deliverables")).strip lib)
      let segments := PyStr.split 47 pathPrefix
      if pathPrefix.isEmpty || segments.any (!isSegment ·) then
        .error (.storage "DELIVERABLE_S3_PREFIX is invalid")
      else .ok ⟨bucket, rstripSlash publicBase, PyStr.join (py "/") segments⟩

/-! ## Upload -/

/-- The arguments of `put_object`. -/
structure PutObject where
  bucket : PyStr
  key : PyStr
  body : List Nat
  contentType : PyStr := py "application/json"
  cacheControl : PyStr := py "public,max-age=31536000,immutable"

/-- `value.removesuffix(".json")`. -/
def removeJsonSuffix (value : PyStr) : PyStr :=
  if (py ".json").isSuffixOf value then value.take (value.length - 5) else value

/-- `_safe_stem`. -/
def safeStem (filename : Option PyStr) : Except Raised PyStr :=
  let value := if isFalsy filename then py "manifest.json" else filename.getD []
  if isSegment value then .ok (removeJsonSuffix value)
  else .error (.storage "filename must be one safe basename")

section provider

variable (rt : Runtime) (config : S3StorageConfig)

/-- `json.dumps(...).encode("utf-8")`; nothing where either raises. -/
def canonicalBytes (value : Json) : Option (List Nat) :=
  (value.dumps rt.net.lib).bind utf8Encode

/-- The key of an object. -/
def objectKey (stem body : PyStr) : PyStr :=
  config.pathPrefix ++ py "/" ++ stem ++ py "-" ++ toHex (rt.sha256 body) ++ py ".json"

/-- `upload`: the object it stores and the URL it returns.  `accepts` is the
answer of the service to `put_object`. -/
def upload (accepts : PutObject → Bool) (data : Json) (filename : Option PyStr) :
    Except Raised (PutObject × PyStr) :=
  match data with
  | .obj kvs =>
      match canonicalBytes rt (.obj kvs) with
      | none => .error (.storage "S3 deliverable is not valid JSON")
      | some body => (safeStem filename).bind fun stem =>
          let key := objectKey rt config stem body
          let put : PutObject := { bucket := config.bucket, key := key, body := body }
          if accepts put then .ok (put, config.publicBase ++ py "/" ++ key)
          else .error .client
  | _ => .error (.storage "S3 deliverable root must be an object")

/-! ## Download -/

/-- `_key_from_url`. -/
def keyFromUrl (url : PyStr) : Except Raised (PyStr × PyStr) :=
  (urlsplitText rt.net url).bind fun parsed =>
    (urlsplitText rt.net config.publicBase).bind fun base =>
      if parsed.scheme ≠ py "https" || parsed.netloc ≠ base.netloc || !parsed.query.isEmpty
          || !parsed.fragment.isEmpty then
        .error (.storage "deliverable URL must use the configured public base")
      else
        let path := parsed.path.dropWhile (· = 47)
        let head := config.pathPrefix ++ py "/"
        if !PyStr.startsWith path head || path = head || path.contains 37 then
          .error (.storage "deliverable URL must stay under the configured prefix")
        else
          let remainder := path.drop head.length
          match matchObject remainder with
          | some (_, digest) =>
              if remainder.contains 47 then
                .error (.storage "deliverable object key must be content-addressed")
              else .ok (path, digest)
          | none => .error (.storage "deliverable object key must be content-addressed")

/-- The answer to `get_object`. -/
structure GetObject where
  contentLength : Option Int
  body : List Nat

/-- What `download` makes of the bytes it was served. -/
def checkBody (digest : PyStr) (body : List Nat) : Except Raised Json :=
  match (rt.net.lib.utf8Decode body).bind (loadsFinite rt.floats.number) with
  | none => .error (.storage "S3 deliverable is not valid UTF-8 JSON")
  | some (.obj kvs) =>
      match canonicalBytes rt (.obj kvs) with
      | none => .error (.storage "S3 deliverable is not valid canonical JSON")
      | some canonical =>
          if canonical ≠ body then .error (.storage "S3 deliverable JSON is not canonical")
          else if toHex (rt.sha256 canonical) ≠ digest then
            .error (.storage "S3 deliverable digest does not match its key")
          else .ok (.obj kvs)
  | some _ => .error (.storage "S3 deliverable root must be an object")

/-- `download`; `get` is what the service serves for a bucket and a key. -/
def download (get : PyStr → PyStr → Option GetObject) (url : PyStr) : Except Raised Json :=
  (keyFromUrl rt config url).bind fun (key, digest) =>
    match get config.bucket key with
    | none => .error .client
    | some response =>
        if maxDownloadBytes < response.contentLength.getD 0 then
          .error (.storage "S3 deliverable exceeds 2 MiB")
        else
          let body := response.body.take (maxDownloadBytes + 1)
          if maxDownloadBytes < body.length then
            .error (.storage "S3 deliverable exceeds 2 MiB")
          else checkBody rt digest body

end provider

end S3Storage
