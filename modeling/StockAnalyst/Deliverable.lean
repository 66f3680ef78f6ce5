import StockAnalyst.CanonicalText
import StockAnalyst.JsText

/-!
# The deliverable manifest as the buyer reads it

`deliverable.ts`: the scan of the string tokens, the guard against duplicate
keys and deep nesting, the three layers of sentinels around the lossless
parser, the canonical text, and the checks of the manifest.

A text is its UTF-16 code units.  A position in a text is carried along with
the rest of the text after it, so a loop over an index is a recursion over
that rest, with the length of the text as fuel.
-/

namespace Deliverable

open Js JsonText Python

/-! ## Values -/

def maxIntegerDigits : Nat := 4300

def maxIntegerDigitsLabel : String := "4,300"

def maxJsonNestingDepth : Nat := 128

/-- `MAX_PAYLOAD_BYTES` of the gateway. -/
def maxPayloadBytes : Nat := 2 * 1024 * 1024

inductive PythonNonFinite where
  | nan
  | infinity
  | negInfinity
  deriving DecidableEq

def PythonNonFinite.value : PythonNonFinite → JsStr
  | .nan => js "NaN"
  | .infinity => js "Infinity"
  | .negInfinity => js "-Infinity"

/-- A value whose numbers are lexemes, with markers `κ` beside the values of
JSON.  The entries of an object are in the order they were set. -/
inductive JsonValue (κ : Type) where
  | null
  | bool (b : Bool)
  | str (value : JsStr)
  | number (value : JsStr)
  | marker (k : κ)
  | arr (items : List (JsonValue κ))
  | obj (entries : List (JsStr × JsonValue κ))

/-- A finite double is its sign, its shortest decimal digits `d.ddd` and the
exponent of ten. -/
inductive Double where
  | nan
  | inf (neg : Bool)
  | zero (neg : Bool)
  | finite (neg : Bool) (lead : Fin 10) (digits : List (Fin 10)) (exponent : Int)

mutual

/-- All strings are made of code units. -/
def JsonValue.units {κ : Type} : JsonValue κ → Bool
  | .str value => value.all (· < 0x10000)
  | .arr items => JsonValue.unitsList items
  | .obj entries => JsonValue.unitsEntries entries
  | _ => true

def JsonValue.unitsList {κ : Type} : List (JsonValue κ) → Bool
  | [] => true
  | v :: items => v.units && JsonValue.unitsList items

def JsonValue.unitsEntries {κ : Type} : List (JsStr × JsonValue κ) → Bool
  | [] => true
  | (key, v) :: entries =>
      key.all (· < 0x10000) && v.units && JsonValue.unitsEntries entries

end

/-- What the code takes from its packages and from the runtime's tables. -/
structure Lib where
  /-- `parse` of `lossless-json`; nothing where it throws. -/
  parse : JsStr → Option (JsonValue Empty)
  parse_units : ∀ text v, parse text = some v → v.units = true
  /-- `Number(lexeme)`. -/
  number : JsStr → Double
  getAddress : JsStr → Except String JsStr
  /-- The hexadecimal text of the hash of these bytes. -/
  keccak256 : List Nat → JsStr
  toLowerCase : JsStr → JsStr
  keccak_lower : ∀ bytes, toLowerCase (keccak256 bytes) = keccak256 bytes

/-! ## String tokens -/

structure JsonStringToken where
  start : Nat
  stop : Nat
  value : JsStr
  isObjectKey : Bool
  deriving DecidableEq

/-- `/\s/`. -/
def isRegexSpace (c : Nat) : Bool :=
  (9 ≤ c && c ≤ 13) || c = 0x20 || c = 0xA0 || c = 0x1680 || (0x2000 ≤ c && c ≤ 0x200A) ||
    c = 0x2028 || c = 0x2029 || c = 0x202F || c = 0x205F || c = 0x3000 || c = 0xFEFF

/-- How far the closing quote is. -/
def closingQuote : JsStr → Option Nat
  | [] => none
  | c :: rest =>
      if c = 0x22 then some 0
      else if c = 0x5C then
        match rest with
        | [] => none
        | _ :: rest => (closingQuote rest).map (· + 2)
      else (closingQuote rest).map (· + 1)

/-- `JSON.parse` of a text that starts with a quote. -/
def parseLiteral (literal : JsStr) : Option JsStr :=
  match scanUnits literal.tail with
  | some (value, []) => some value
  | _ => none

/-- `scanJsonStrings` from an index on. -/
def scanStringsFrom : Nat → Nat → JsStr → Option (List JsonStringToken)
  | 0, _, _ => some []
  | _ + 1, _, [] => some []
  | fuel + 1, index, c :: rest =>
      if c ≠ 0x22 then scanStringsFrom fuel (index + 1) rest
      else
        match closingQuote rest with
        | none => some []
        | some n =>
            let stop := index + n + 2
            let after := rest.drop (n + 1)
            (parseLiteral (c :: rest.take (n + 1))).bind fun value =>
              let next := (after.dropWhile isRegexSpace).head?
              (scanStringsFrom fuel stop after).map
                (⟨index, stop, value, next = some 0x3A⟩ :: ·)

/-- The string tokens of a text; nothing where `JSON.parse` throws. -/
def scanJsonStrings (rawText : JsStr) : Option (List JsonStringToken) :=
  scanStringsFrom rawText.length 0 rawText

/-! ## Duplicate keys and nesting -/

inductive JsonError where
  | invalid
  | nestingDepth
  deriving DecidableEq

inductive JsonContainerScope where
  | object (keys : List JsStr)
  | array

/-- The scopes after a string token; the innermost scope comes first. -/
def noteKey (token : JsonStringToken) :
    List JsonContainerScope → Except JsonError (List JsonContainerScope)
  | .object keys :: outer =>
      if token.isObjectKey then
        if token.value ∈ keys then .error .invalid
        else .ok (.object (token.value :: keys) :: outer)
      else .ok (.object keys :: outer)
  | scopes => .ok scopes

/-- The scopes after a character outside of strings. -/
def noteChar (c : Nat) (scopes : List JsonContainerScope) :
    Except JsonError (List JsonContainerScope) :=
  if c = 0x7B ∨ c = 0x5B then
    if maxJsonNestingDepth ≤ scopes.length then .error .nestingDepth
    else .ok ((if c = 0x7B then .object [] else .array) :: scopes)
  else
    match scopes with
    | .object _ :: outer => .ok (if c = 0x7D then outer else scopes)
    | .array :: outer => .ok (if c = 0x5D then outer else scopes)
    | [] => .ok []

/-- `rejectDuplicateObjectKeys` from an index on. -/
def rejectFrom : Nat → Nat → JsStr → List JsonStringToken → List JsonContainerScope →
    Except JsonError Unit
  | 0, _, _, _, _ => .ok ()
  | _ + 1, _, [], _, _ => .ok ()
  | fuel + 1, index, c :: rest, tokens, scopes =>
      match tokens with
      | token :: tokens =>
          if token.start = index then
            (noteKey token scopes).bind fun scopes =>
              rejectFrom fuel token.stop ((c :: rest).drop (token.stop - index)) tokens scopes
          else (noteChar c scopes).bind fun scopes =>
              rejectFrom fuel (index + 1) rest (token :: tokens) scopes
      | [] => (noteChar c scopes).bind fun scopes =>
          rejectFrom fuel (index + 1) rest [] scopes

def rejectDuplicateObjectKeys (rawText : JsStr) (stringTokens : List JsonStringToken) :
    Except JsonError Unit :=
  rejectFrom rawText.length 0 rawText stringTokens []

/-! ## Strings -/

/-- The UTF-16 code units of a code point. -/
def pointUnits (c : Nat) : JsStr := if c < 0x10000 then [c] else [highUnit c, lowUnit c]

/-- `[...value]`, as code points. -/
def points (value : JsStr) : List Nat := rejoin value

/-- One code point inside `JSON.stringify`. -/
def stringifyPoint (c : Nat) : JsStr :=
  if c = 0x22 then [0x5C, 0x22]
  else if c = 0x5C then [0x5C, 0x5C]
  else if c = 0x08 then [0x5C, 98]
  else if c = 0x0C then [0x5C, 102]
  else if c = 0x0A then [0x5C, 110]
  else if c = 0x0D then [0x5C, 114]
  else if c = 0x09 then [0x5C, 116]
  else if c < 0x20 || isHigh c || isLow c then unitEscape c
  else pointUnits c

/-- `JSON.stringify` of a string. -/
def stringify (value : JsStr) : JsStr :=
  0x22 :: (points value).flatMap stringifyPoint ++ [0x22]

/-- The replacement of a character that is not printable ASCII. -/
def escapeCharacter (point : Nat) : JsStr :=
  if 0x20 ≤ point ∧ point ≤ 0x7E then [point]
  else if point ≤ 0xFFFF then unitEscape point
  else
    let shifted := point - 0x10000
    let high := 0xD800 + shifted / 0x400
    let low := 0xDC00 + shifted % 0x400
    unitEscape high ++ unitEscape low

def jsonString (value : JsStr) : JsStr :=
  (points (stringify value)).flatMap escapeCharacter

def comparePoints : List Nat → List Nat → Int
  | l :: left, r :: right =>
      let difference : Int := l - r
      if difference ≠ 0 then difference else comparePoints left right
  | left, right => left.length - right.length

def compareUnicodeCodePoints (left right : JsStr) : Int :=
  comparePoints (points left) (points right)

/-! ## Sentinels -/

/-- `while (strings.has(sentinel)) sentinel += "\u0000"`. -/
def freshen (strings : List JsStr) : Nat → JsStr → JsStr
  | 0, sentinel => sentinel
  | fuel + 1, sentinel =>
      if sentinel ∈ strings then freshen strings fuel (sentinel ++ [0]) else sentinel

/-- The sentinel that is none of the strings. -/
def freshSentinel (strings : List JsStr) (sentinel : JsStr) : JsStr :=
  freshen strings ((strings.map List.length).sum + 1) sentinel

def protoKey : JsStr := js "__proto__"

/-- `text.slice(start, stop)`. -/
def slice (text : JsStr) (start stop : Nat) : JsStr := (text.take stop).drop start

/-- The loop of `protectPrototypeKeys`, with what follows the last token. -/
def protectKeysFrom (rawText sentinel : JsStr) : Nat → List JsonStringToken → JsStr
  | previousEnd, [] => rawText.drop previousEnd
  | previousEnd, token :: tokens =>
      if !token.isObjectKey || token.value ≠ protoKey then
        protectKeysFrom rawText sentinel previousEnd tokens
      else slice rawText previousEnd token.start ++ stringify sentinel ++
        protectKeysFrom rawText sentinel token.stop tokens

/-- The protected text and the sentinel. -/
def protectPrototypeKeys (rawText : JsStr) (tokens : List JsonStringToken) : JsStr × JsStr :=
  let sentinel := freshSentinel (tokens.map (·.value)) (0 :: protoKey)
  (protectKeysFrom rawText sentinel 0 tokens, sentinel)

abbrev Sentinels := List (JsStr × PythonNonFinite)

/-- The sentinels of the non-finite numbers, each apart from the strings and
from the sentinels before it. -/
def nonFiniteSentinels (strings : List JsStr) : List PythonNonFinite → Sentinels
  | [] => []
  | k :: ks =>
      let sentinel := freshSentinel strings (0 :: js "python-non-finite:" ++ k.value)
      (sentinel, k) :: nonFiniteSentinels (sentinel :: strings) ks

/-- The first candidate the text starts with. -/
def matchNonFinite (text : JsStr) : Option PythonNonFinite :=
  [.negInfinity, .infinity, .nan].find? fun candidate => startsWith text candidate.value

/-- `/[\s\[{: ,]/`. -/
def validBefore (before : Option Nat) : Bool :=
  match before with
  | none => true
  | some c => isRegexSpace c || c = 0x5B || c = 0x7B || c = 0x3A || c = 0x20 || c = 0x2C

/-- `/[\s,\]}]/`. -/
def validAfter (after : Option Nat) : Bool :=
  match after with
  | none => true
  | some c => isRegexSpace c || c = 0x2C || c = 0x5D || c = 0x7D

/-- The text in place of a marker. -/
def Sentinels.textOf (sentinels : Sentinels) (k : PythonNonFinite) : JsStr :=
  match sentinels.find? (fun e => e.2 = k) with
  | some (sentinel, _) => stringify sentinel
  | none => []

/-- `protectPythonNonFinite` from an index on, with the character before it. -/
def protectNonFiniteFrom (sentinels : Sentinels) :
    Nat → Nat → Option Nat → JsStr → List JsonStringToken → JsStr
  | 0, _, _, _, _ => []
  | _ + 1, _, _, [], _ => []
  | fuel + 1, index, before, c :: rest, tokens =>
      if (tokens.head?.map (·.start)) = some index then
        match tokens with
        | token :: tokens =>
            let literal := (c :: rest).take (token.stop - index)
            literal ++ protectNonFiniteFrom sentinels fuel token.stop literal.getLast?
              ((c :: rest).drop (token.stop - index)) tokens
        | [] => []
      else
        match matchNonFinite (c :: rest) with
        | some k =>
            let length := k.value.length
            let after := (c :: rest).drop length
            if validBefore before && validAfter after.head? then
              sentinels.textOf k ++ protectNonFiniteFrom sentinels fuel (index + length)
                k.value.getLast? after tokens
            else c :: protectNonFiniteFrom sentinels fuel (index + 1) (some c) rest tokens
        | none => c :: protectNonFiniteFrom sentinels fuel (index + 1) (some c) rest tokens

/-- The protected text and the sentinels. -/
def protectPythonNonFinite (rawText : JsStr) (tokens : List JsonStringToken) :
    JsStr × Sentinels :=
  let sentinels := nonFiniteSentinels (tokens.map (·.value)) [.nan, .infinity, .negInfinity]
  (protectNonFiniteFrom sentinels rawText.length 0 none rawText tokens, sentinels)

/-! ## Parsing -/

/-- The number a key stands for, when `Object.keys` lists it as an index. -/
def arrayIndex (key : JsStr) : Option Nat :=
  let value := key.foldl (fun n c => n * 10 + (c - 48)) 0
  if key ≠ [] ∧ key.all (fun c => 48 ≤ c && c ≤ 57) ∧ (key.head? = some 48 → key = [48]) ∧
      value < 2 ^ 32 - 1 then some value
  else none

/-- Entries in the order of `Object.keys`: indices first, in their order. -/
def ownEntries {α : Type} (entries : List (JsStr × α)) : List (JsStr × α) :=
  (entries.filter fun e => (arrayIndex e.1).isSome).insertionSort
      (fun a b => (arrayIndex a.1).getD 0 ≤ (arrayIndex b.1).getD 0) ++
    entries.filter fun e => (arrayIndex e.1).isNone

mutual

def nullPrototypeRecords (sentinel : JsStr) (markers : Sentinels) :
    JsonValue Empty → JsonValue PythonNonFinite
  | .str value =>
      match markers.lookup value with
      | some k => .marker k
      | none => .str value
  | .null => .null
  | .bool b => .bool b
  | .number value => .number value
  | .arr items => .arr (nullPrototypeItems sentinel markers items)
  | .obj entries => .obj
      ((ownEntries (nullPrototypeEntries sentinel markers entries)).foldl
        (fun record e => dictSet record (if e.1 = sentinel then protoKey else e.1) e.2) [])

def nullPrototypeItems (sentinel : JsStr) (markers : Sentinels) :
    List (JsonValue Empty) → List (JsonValue PythonNonFinite)
  | [] => []
  | v :: items =>
      nullPrototypeRecords sentinel markers v :: nullPrototypeItems sentinel markers items

def nullPrototypeEntries (sentinel : JsStr) (markers : Sentinels) :
    List (JsStr × JsonValue Empty) → List (JsStr × JsonValue PythonNonFinite)
  | [] => []
  | (key, v) :: entries =>
      (key, nullPrototypeRecords sentinel markers v) ::
        nullPrototypeEntries sentinel markers entries

end

section lib

variable (lib : Lib)

/-- A value, or an error where the source throws a `SyntaxError`. -/
def orSyntax {α : Type} : Option α → Except JsonError α
  | some a => .ok a
  | none => .error .invalid

def parseJson (rawText : JsStr) : Except JsonError (JsonValue PythonNonFinite) := do
  let stringTokens ← orSyntax (scanJsonStrings rawText)
  rejectDuplicateObjectKeys rawText stringTokens
  let (protectedText, sentinel) := protectPrototypeKeys rawText stringTokens
  let protectedTokens ← orSyntax (scanJsonStrings protectedText)
  let (nonFiniteText, sentinels) := protectPythonNonFinite protectedText protectedTokens
  let value ← orSyntax (lib.parse nonFiniteText)
  return nullPrototypeRecords sentinel sentinels value

/-! ## The canonical text -/

/-- `String(n)`. -/
def decimal (n : Nat) : JsStr := if n = 0 then [48] else natDigits n

/-- `text.padStart(width, "0")`. -/
def padStart (width : Nat) (text : JsStr) : JsStr :=
  List.replicate (width - text.length) 48 ++ text

def digitChar (d : Fin 10) : Nat := 48 + d.val

def pythonFloat : Double → JsStr
  | .nan => js "NaN"
  | .inf false => js "Infinity"
  | .inf true => js "-Infinity"
  | .zero true => js "-0.0"
  | .zero false => js "0.0"
  | .finite neg lead tail exponent =>
      let sign : JsStr := if neg then [45] else []
      let digits := digitChar lead :: tail.map digitChar
      if -4 ≤ exponent ∧ exponent < 16 then
        let point := exponent + 1
        if point ≤ 0 then
          sign ++ js "0." ++ List.replicate (-point).toNat 48 ++ digits
        else if (digits.length : Int) ≤ point then
          sign ++ digits ++ List.replicate (point - digits.length).toNat 48 ++ js ".0"
        else sign ++ digits.take point.toNat ++ 46 :: digits.drop point.toNat
      else
        let fraction := if 1 < digits.length then 46 :: digits.drop 1 else []
        let exponentSign := if 0 ≤ exponent then 43 else 45
        sign ++ digits.take 1 ++ fraction ++ 101 :: exponentSign ::
          padStart 2 (decimal exponent.natAbs)

/-- `/^(0|[1-9][0-9]*)$/`. -/
def isUnsignedInteger : JsStr → Bool
  | [] => false
  | c :: rest => (c = 48 && rest = []) || (49 ≤ c && c ≤ 57 && rest.all fun d => 48 ≤ d && d ≤ 57)

/-- `/^-?(?:0|[1-9][0-9]*)$/`. -/
def isInteger (value : JsStr) : Bool :=
  isUnsignedInteger value || (value.head? = some 45 && isUnsignedInteger value.tail)

def canonicalNumber (value : JsStr) : Except String JsStr :=
  if isInteger value then
    let digitCount := if value.head? = some 45 then value.length - 1 else value.length
    if maxIntegerDigits < digitCount then
      .error ("DeliverableManifest integer exceeds the " ++ maxIntegerDigitsLabel ++
        "-digit limit")
    else .ok (if value = js "-0" then js "0" else value)
  else .ok (pythonFloat (lib.number value))

/-- Entries in the order of `Object.keys(value).sort(compareUnicodeCodePoints)`. -/
def sortedKeys {α : Type} (entries : List (JsStr × α)) : List (JsStr × α) :=
  (ownEntries entries).insertionSort fun a b => compareUnicodeCodePoints a.1 b.1 ≤ 0

mutual

def canonicalJson : JsonValue PythonNonFinite → Except String JsStr
  | .null => .ok (js "null")
  | .bool b => .ok (if b then js "true" else js "false")
  | .str value => .ok (jsonString value)
  | .number value => canonicalNumber lib value
  | .marker k => .ok k.value
  | .arr items => (canonicalItems items).map fun texts =>
      0x5B :: PyStr.join [0x2C] texts ++ [0x5D]
  | .obj entries => (canonicalEntries entries).map fun texts =>
      0x7B :: PyStr.join [0x2C]
        ((sortedKeys texts).map fun e => jsonString e.1 ++ 0x3A :: e.2) ++ [0x7D]

def canonicalItems : List (JsonValue PythonNonFinite) → Except String (List JsStr)
  | [] => .ok []
  | v :: items => (canonicalJson v).bind fun text =>
      (canonicalItems items).map (text :: ·)

def canonicalEntries :
    List (JsStr × JsonValue PythonNonFinite) → Except String (List (JsStr × JsStr))
  | [] => .ok []
  | (key, v) :: entries => (canonicalJson v).bind fun text =>
      (canonicalEntries entries).map ((key, text) :: ·)

end

/-! ## The checks of the manifest -/

structure DeliverableContracts where
  commerce : JsStr
  router : JsStr
  policy : JsStr

structure DeliverableExpectation where
  jobId : Int
  chainId : Int
  contracts : DeliverableContracts
  commitment : JsStr

/-- The message about a field of the manifest. -/
def fieldError (field problem : String) : String :=
  "DeliverableManifest." ++ field ++ problem

def object (value : JsonValue PythonNonFinite) (field : String) :
    Except String (List (JsStr × JsonValue PythonNonFinite)) :=
  match value with
  | .obj entries => .ok entries
  | _ => .error (fieldError field " must be an object")

def required (value : List (JsStr × JsonValue PythonNonFinite)) (key : JsStr)
    (field : String) : Except String (JsonValue PythonNonFinite) :=
  match value.lookup key with
  | some v => .ok v
  | none => .error (fieldError field " is required")

def integer (value : JsonValue PythonNonFinite) (field : String) : Except String Nat :=
  match value with
  | .number value =>
      if !isUnsignedInteger value then .error (fieldError field " must be an unsigned integer")
      else if maxIntegerDigits < value.length then
        .error (fieldError field
          (" integer exceeds the " ++ maxIntegerDigitsLabel ++ "-digit limit"))
      else .ok (value.foldl (fun n c => n * 10 + (c - 48)) 0)
  | _ => .error (fieldError field " must be an unsigned integer")

def string (value : JsonValue PythonNonFinite) (field : String) : Except String JsStr :=
  match value with
  | .str value => .ok value
  | _ => .error (fieldError field " must be a string")

def address (value : JsonValue PythonNonFinite) (field : String) : Except String JsStr :=
  match (string value field).bind lib.getAddress with
  | .ok checksummed => .ok checksummed
  | .error _ => .error (fieldError field " must be an EVM address")

/-- `if (condition) throw new Error(message)`. -/
def refuseIf (condition : Prop) [Decidable condition] (message : String) : Except String Unit :=
  if condition then .error message else .ok ()

/-- One pass of the loop over the three contracts. -/
def checkContract (contracts : List (JsStr × JsonValue PythonNonFinite)) (key : JsStr)
    (name : String) (expected : JsStr) : Except String Unit := do
  let value ← required contracts key ("contracts." ++ name)
  let actual ← address lib value ("contracts." ++ name)
  let expected ← lib.getAddress expected
  refuseIf (actual ≠ expected)
    ("DeliverableManifest contracts." ++ name ++ " does not match configuration")

/-- `parseJson` with the messages of its `catch`. -/
def parseManifest (rawText : JsStr) : Except String (JsonValue PythonNonFinite) :=
  match parseJson lib rawText with
  | .ok parsed => .ok parsed
  | .error .nestingDepth => .error "DeliverableManifest exceeds the maximum JSON nesting depth"
  | .error .invalid => .error "DeliverableManifest is not valid JSON"

/-- The checks of the version, the job, the chain and the contracts. -/
def checkExpectation (manifest : List (JsStr × JsonValue PythonNonFinite))
    (expected : DeliverableExpectation) : Except String Unit := do
  let version ← integer (← required manifest (js "version") "version") "version"
  refuseIf (version ≠ 1) "Unsupported DeliverableManifest version"
  let jobId ← integer (← required manifest (js "job_id") "job_id") "job_id"
  refuseIf (jobId ≠ expected.jobId) "DeliverableManifest job_id does not match the current job"
  let chainId ← integer (← required manifest (js "chain_id") "chain_id") "chain_id"
  refuseIf (chainId ≠ expected.chainId)
    "DeliverableManifest chain_id does not match the current chain"
  let contracts ← object (← required manifest (js "contracts") "contracts") "contracts"
  checkContract lib contracts (js "commerce") "commerce" expected.contracts.commerce
  checkContract lib contracts (js "router") "router" expected.contracts.router
  checkContract lib contracts (js "policy") "policy" expected.contracts.policy

/-- The content of the response. -/
def responseContent (manifest : List (JsStr × JsonValue PythonNonFinite)) :
    Except String JsStr := do
  let response ← object (← required manifest (js "response") "response") "response"
  let content ← string (← required response (js "content") "response.content")
    "response.content"
  let _contentType ← string (← required response (js "content_type") "response.content_type")
    "response.content_type"
  return content

/-- The content of a manifest that was accepted. -/
def verifyDeliverableManifest (rawText : JsStr) (expected : DeliverableExpectation) :
    Except String JsStr := do
  refuseIf (maxPayloadBytes < (utf8 rawText).length)
    "DeliverableManifest size exceeds the 2 MiB limit"
  let parsed ← parseManifest lib rawText
  let manifest ← object parsed "root"
  checkExpectation lib manifest expected
  let content ← responseContent manifest
  let actual := lib.keccak256 (utf8 (← canonicalJson lib parsed))
  refuseIf (lib.toLowerCase actual ≠ lib.toLowerCase expected.commitment)
    "DeliverableManifest commitment does not match the on-chain deliverable"
  return content

end lib

end Deliverable
