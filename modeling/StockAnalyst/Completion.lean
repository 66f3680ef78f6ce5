import StockAnalyst.ManifestText
import StockAnalyst.Coroutine

/-!
# Settling a submitted job

`completion.ts`: the buyer reads the address of the deliverable, downloads it,
checks it against the commitment on chain, and settles.  The dependencies are
effects, and a run is the list of the calls with the replies they received.
-/

namespace Completion

open Js Deliverable Coroutine

/-- A value of type `unknown`. -/
inductive Unknown where
  | null
  | undefined
  | string (s : JsStr)
  | other

/-- What `response.body.getReader()` yields: the chunks until it is done, with
`none` for a read that rejects. -/
structure Response where
  ok : Bool
  status : Nat
  contentLength : Option JsStr
  body : Option (List (Option (List Nat)))
  /-- Whether `reader.cancel()` rejects. -/
  cancelRejects : Bool

inductive Thrown where
  /-- `SettlementBlockedError`. -/
  | blocked (reason : String)
  /-- `SettlementAttemptError`. -/
  | attempt (cause : JsStr)
  | other

structure CompletionParams where
  jobId : Int
  fundTxBlock : Option Nat
  chainId : Int
  contracts : DeliverableContracts

structure CompletionResult where
  reportText : JsStr
  settleTx : JsStr
  renderError : Option JsStr

/-- A call of a dependency. -/
inductive Call where
  | getDeliverableUrl (jobId : Int) (fundTxBlock : Option Nat)
  | getDeliverableCommitment (jobId : Int)
  | fetchDeliverable (url : JsStr)
  | renderReport (reportText : JsStr)
  | settle (jobId : Int)

/-- What a call comes back with; a rejection of the commitment says whether it
came before the body could not be read. -/
def Reply : Call → Type
  | .getDeliverableUrl _ _ => Except Unit Unknown
  | .getDeliverableCommitment _ => Except Bool JsStr
  | .fetchDeliverable _ => Except Unit Response
  | .renderReport _ => Except JsStr Unit
  | .settle _ => Except JsStr JsStr

/-- What the code takes from the runtime beside `Lib`. -/
structure Runtime extends Lib where
  /-- The protocol of `new URL(url)`; nothing where it throws. -/
  urlProtocol : JsStr → Option JsStr
  /-- `Buffer.toString("utf8")`. -/
  utf8Decode : List Nat → JsStr

variable (rt : Runtime)

/-- `/^[0-9]+$/` and `BigInt(declared) <= MAX_PAYLOAD_BYTES`. -/
def declaredFits (declared : JsStr) : Bool :=
  declared ≠ [] && declared.all (fun c => 48 ≤ c && c ≤ 57) &&
    declared.foldl (fun n c => n * 10 + (c - 48)) 0 ≤ maxPayloadBytes

/-- The loop over the chunks. -/
def readChunks (cancelRejects : Bool) (bytes : List Nat) :
    List (Option (List Nat)) → Except Thrown (List Nat)
  | [] => .ok bytes
  | none :: _ => .error .other
  | some chunk :: reads =>
      if maxPayloadBytes < bytes.length + chunk.length then
        .error (if cancelRejects then .other
          else .blocked "deliverable exceeds the 2 MiB limit")
      else readChunks cancelRejects (bytes ++ chunk) reads

def readBoundedBody (response : Response) : Except Thrown JsStr :=
  if response.contentLength.any fun declared => !declaredFits declared then
    .error (.blocked "deliverable exceeds the 2 MiB limit")
  else
    match response.body with
    | none => .ok []
    | some reads => (readChunks response.cancelRejects [] reads).map rt.utf8Decode

/-- `Promise.all` of the body and the commitment, and its `catch`. -/
def bodyAndCommitment (body : Except Thrown JsStr) (commitment : Except Bool JsStr) :
    Except Thrown (JsStr × JsStr) :=
  let unreadable : Thrown :=
    .blocked "deliverable body or on-chain commitment could not be read"
  match body, commitment with
  | .ok rawText, .ok commitment => .ok (rawText, commitment)
  | .error (.blocked reason), .ok _ => .error (.blocked reason)
  | .error (.blocked reason), .error false => .error (.blocked reason)
  | _, _ => .error unreadable

/-- The address of the deliverable, when it is a usable URL. -/
def checkUrl (url : Unknown) : Except Thrown JsStr :=
  match url with
  | .null => .error (.blocked "deliverable URL is missing")
  | .undefined => .error (.blocked "deliverable URL is missing")
  | .string [] => .error (.blocked "deliverable URL is missing")
  | .other => .error (.blocked "deliverable URL must be a string")
  | .string url =>
      match rt.urlProtocol url with
      | none => .error (.blocked "deliverable URL is malformed")
      | some protocol =>
          if protocol ≠ js "http:" ∧ protocol ≠ js "https:" then
            .error (.blocked "deliverable URL must use HTTP or HTTPS")
          else .ok url

/-- `String(status)`. -/
def statusText (status : Nat) : String := toString status

def checkResponse (response : Response) : Except Thrown Response :=
  if !response.ok then
    .error (.blocked ("deliverable download returned HTTP " ++ statusText response.status))
  else .ok response

/-- A rejection becomes a `SettlementBlockedError`. -/
def orBlocked {ε α : Type} (reason : String) : Except ε α → Except Thrown α
  | .ok a => .ok a
  | .error _ => .error (.blocked reason)

/-- The report, checked against the commitment. -/
def checkManifest (params : CompletionParams) (rawText commitment : JsStr) :
    Except Thrown JsStr :=
  match verifyDeliverableManifest rt.toLib rawText
      ⟨params.jobId, params.chainId, params.contracts, commitment⟩ with
  | .ok reportText => .ok reportText
  | .error message => .error (.blocked message)

def completeSubmittedJob (params : CompletionParams) :
    Async Call Reply Thrown CompletionResult := do
  let url ← Async.await (.getDeliverableUrl params.jobId params.fundTxBlock)
    (orBlocked "deliverable URL could not be read")
  let url ← Async.ofExcept (checkUrl rt url)
  let response ← Async.await (.fetchDeliverable url) (orBlocked "deliverable download failed")
  let response ← Async.ofExcept (checkResponse response)
  let (rawText, commitment) ← Async.await (.getDeliverableCommitment params.jobId)
    (bodyAndCommitment (readBoundedBody rt response))
  let reportText ← Async.ofExcept (checkManifest rt params rawText commitment)
  let rendered ← Async.await (.renderReport reportText) Except.ok
  -- an error with an empty message is not reported
  let renderError : Option JsStr := match rendered with
    | .ok () => none
    | .error message => if message = [] then none else some message
  let settleTx ← Async.await (.settle params.jobId) fun
    | .ok settleTx => .ok settleTx
    | .error cause => .error (.attempt cause)
  return ⟨reportText, settleTx, renderError⟩

end Completion
