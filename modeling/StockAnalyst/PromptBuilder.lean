import StockAnalyst.PyLoads

/-!
# The prompt of an analysis

`prompt_builder`: the task of a job is read back from its text, its tickers
are taken from the terms or, where no symbol of the terms is a ticker, from the
words of the task, and the prompt is made for those tickers.  What follows the
list of stocks in the prompt is a parameter; no later step takes it apart.
-/

namespace X402

open Python

/-! ## Tickers -/

/-- `[A-Z]`. -/
def isUpperLetter (c : Nat) : Bool := 65 ≤ c && c ≤ 90

/-- How many letters the text begins with, up to a limit. -/
def letterCount (most : Nat) (s : PyStr) : Nat :=
  ((s.take most).takeWhile isUpperLetter).length

/-- The lengths at which `[A-Z]{1,5}(?:\.[A-Z]{1,2})?` can match the beginning
of a text, in the order in which they are tried. -/
def tickerLengths (s : PyStr) : List Nat :=
  (List.range (letterCount 5 s)).reverse.flatMap fun n =>
    (match s.drop (n + 1) with
      | 46 :: rest => (List.range (letterCount 2 rest)).reverse.map (fun m => n + m + 3)
      | _ => []) ++ [n + 1]

/-- `_TICKER_PATTERN.fullmatch(value)`. -/
def isTicker (value : PyStr) : Bool := (tickerLengths value).contains value.length

/-- `\w`. -/
def isWordChar (lib : PyLib) (c : Nat) : Bool := lib.isAlnum c || c = 95

/-- `\b` between two neighbours; there is none at an end of the text. -/
def wordBoundary (lib : PyLib) (before after : Option Nat) : Bool :=
  before.any (isWordChar lib) != after.any (isWordChar lib)

/-- The length of the match of `_TASK_TICKER_PATTERN` at the beginning of a
text with the given code point before it. -/
def taskTicker (lib : PyLib) (before : Option Nat) (s : PyStr) : Option Nat :=
  if wordBoundary lib before s.head? then
    (tickerLengths s).find? fun n =>
      wordBoundary lib (s.take n).getLast? (s.drop n).head?
  else none

/-- `_TASK_TICKER_PATTERN.findall(task)`: the search goes on behind a match. -/
def findTickers (lib : PyLib) : Nat → Option Nat → PyStr → List PyStr
  | _, _, [] => []
  | skip + 1, _, c :: s => findTickers lib skip (some c) s
  | 0, before, c :: s =>
      match taskTicker lib before (c :: s) with
      | none => findTickers lib 0 (some c) s
      | some n => (c :: s).take n :: findTickers lib (n - 1) (some c) s

/-! ## Job fields -/

def maxSymbols : Nat := 10

/-- The loop over the symbols of the terms: tickers that are not there yet, up
to the limit. -/
def keepTickers (symbols : List PyStr) : List Json → List PyStr
  | [] => symbols
  | .str value :: rest =>
      if isTicker value && !symbols.contains value then
        if (symbols ++ [value]).length = maxSymbols then symbols ++ [value]
        else keepTickers (symbols ++ [value]) rest
      else keepTickers symbols rest
  | _ :: rest => keepTickers symbols rest

/-- Nothing stands twice in a list without its duplicates. -/
theorem nodup_eraseDups {α : Type} [BEq α] [LawfulBEq α] {xs : List α} :
    xs.eraseDups.Nodup := by
  match xs with
  | [] => exact List.nodup_nil
  | x :: xs =>
      rw [List.eraseDups_cons, List.nodup_cons]
      refine ⟨?_, nodup_eraseDups⟩
      rw [List.mem_eraseDups]
      simp
termination_by xs.length
decreasing_by exact Nat.lt_succ_of_le (List.length_filter_le _ _)

/-- `_normalize_job_fields` of a text; `loads` is `json.loads`. -/
def normalizeJobFields (lib : PyLib) (loads : PyStr → Option Json) (taskJson : PyStr) :
    PyStr × List PyStr × PyStr :=
  let parsed : List (PyStr × Json) := match loads taskJson with
    | some (.obj kvs) => kvs
    | _ => [(py "task", .str taskJson), (py "terms", .obj [])]
  let task : PyStr := match dictGet parsed (py "task") with
    | some (.str s) => s
    | _ => []
  let decoded : Option Json := match dictGet parsed (py "terms") with
    | some (.str s) => loads s
    | terms => terms
  let terms : List (PyStr × Json) := match decoded with
    | some (.obj kvs) => kvs
    | _ => []
  let kept : List PyStr := match dictGet terms (py "symbols") with
    | some (.arr xs) => keepTickers [] xs
    | _ => []
  let symbols : List PyStr :=
    if kept = [] then (findTickers lib 0 none task).eraseDups.take maxSymbols else kept
  let analysisType : PyStr := match dictGet terms (py "analysis_type") with
    | some (.str s) =>
        if s ∈ [py "comprehensive", py "fundamental", py "technical"] then s
        else py "comprehensive"
    | _ => py "comprehensive"
  (task, symbols, analysisType)

/-! ## The prompt -/

/-- The beginning of the prompt, up to the list of stocks. -/
def promptOpening : PyStr :=
  py "You are a senior equity analyst at a top-tier investment bank. " ++
  py "A client has paid for a professional, actionable research report." ++ [10, 10] ++
  py "STOCKS TO ANALYZE: "

/-- `symbol_list`. -/
def symbolList (symbols : List PyStr) : PyStr :=
  if symbols = [] then py "the requested stocks" else PyStr.join (py ", ") symbols

/-- `_build_stock_analysis_prompt`.  What follows the list of stocks is made of
the symbols, the analysis type and the client's context. -/
def buildStockAnalysisPrompt (lib : PyLib) (loads : PyStr → Option Json)
    (rest : List PyStr → PyStr → Json → Json → PyStr) (taskJson : PyStr)
    (portfolio riskProfile : Json) : PyStr × List PyStr :=
  let (_, symbols, analysisType) := normalizeJobFields lib loads taskJson
  (promptOpening ++ symbolList symbols ++ 10 :: rest symbols analysisType portfolio riskProfile,
    symbols)

/-- The stocks a prompt asks for: the rest of its line. -/
def stocksOf (prompt : PyStr) : PyStr :=
  (prompt.drop promptOpening.length).takeWhile (· != 10)

end X402
