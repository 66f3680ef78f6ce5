import StockAnalyst.JobRecord
import StockAnalyst.Base64
import StockAnalyst.UrlSplit

/-!
# What both ends of the bridge write down

The gateway and the agent are deployed apart, and each has its own copy of the
routes, the header names and the limits of the messages between them.
-/

namespace X402

open Python

/-- `[a-z0-9-]+\Z`. -/
def isHeaderName (name : PyStr) : Bool :=
  !name.isEmpty && name.all (fun c => (97 ≤ c && c ≤ 122) || (48 ≤ c && c ≤ 57) || c = 45)

/-- `/x402/jobs/x402_[0-9a-f]{32}(?:/resume)?\Z`. -/
def isJobPath (path : PyStr) : Bool :=
  PyStr.startsWith path (py "/x402/jobs/") && isJobId ((path.drop 11).take 37) &&
    (path.drop 48 = [] || path.drop 48 = py "/resume")

/-- `path.endswith("/resume")`. -/
def isResume (path : PyStr) : Bool := (py "/resume").isSuffixOf path

/-- The routes: the price, the paid analysis, a job and its resumption. -/
def isRoute (method path : PyStr) : Bool :=
  (method = py "GET" && path = py "/x402/price") ||
    (method = py "POST" && path = py "/x402/analyze/async") ||
    (isJobPath path && ((method = py "GET" && !isResume path) ||
      (method = py "POST" && isResume path)))

/-- No line break and no NUL. -/
def isHeaderValue (value : PyStr) : Bool := !value.any (fun c => c = 13 || c = 10 || c = 0)

/-- `value.encode("latin-1")`; nothing where it raises. -/
def latin1Encode (value : PyStr) : Option (List Nat) :=
  if value.all (· < 256) then some value else none

/-- `value.encode("ascii")`; nothing where it raises. -/
def asciiEncode (value : PyStr) : Option (List Nat) :=
  if value.all (· < 128) then some value else none

/-- `set(d) == keys`. -/
def hasExactly (kvs : List (PyStr × Json)) (keys : List PyStr) : Bool :=
  kvs.all (fun e => keys.contains e.1) && keys.all (fun k => (kvs.map (·.1)).contains k)

/-! ## Messages -/

/-- A value in a message of an ASGI application or of an HTTP transport; of the
types no check accepts, only the truth of the value is kept. -/
inductive Value where
  | none
  | bool (b : Bool)
  | int (i : Int)
  | str (s : PyStr)
  | bytes (bs : List (Fin 256))
  | tuple (xs : List Value)
  | list (xs : List Value)
  | other (truth : Bool)

/-- A message: a dictionary with text keys. -/
abbrev Message := List (PyStr × Value)

/-- `bool(message.get(key, False))`. -/
def isTrue : Option Value → Bool
  | some (.bool b) => b
  | some (.int i) => i != 0
  | some (.str s) => !s.isEmpty
  | some (.bytes bs) => !bs.isEmpty
  | some (.tuple xs) => !xs.isEmpty
  | some (.list xs) => !xs.isEmpty
  | some (.other truth) => truth
  | _ => false

/-- The bytes as numbers. -/
def byteValues (bs : List (Fin 256)) : List Nat := bs.map Fin.val

theorem byteValues_lt (bs : List (Fin 256)) : ∀ b ∈ byteValues bs, b < 256 := by
  intro b hb
  obtain ⟨c, -, rfl⟩ := List.mem_map.1 hb
  exact c.2

theorem isHeaderName_ascii {name : PyStr} (h : isHeaderName name = true) :
    asciiEncode name = some name := by
  unfold isHeaderName at h
  simp only [Bool.and_eq_true, List.all_eq_true] at h
  refine if_pos (List.all_eq_true.2 fun c hc => ?_)
  have := h.2 c hc
  simp only [Bool.or_eq_true, Bool.and_eq_true, decide_eq_true_eq] at this
  simp only [decide_eq_true_eq]
  omega

end X402
