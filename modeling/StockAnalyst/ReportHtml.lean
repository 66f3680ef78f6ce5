import StockAnalyst.Markup
import StockAnalyst.JsText

/-!
# The report as HTML

`pdf-report.ts` up to `renderReportHtml`: the Markdown of a report is escaped
and then rewritten line by line into the body of a fixed page.
-/

namespace PdfReport

open Js Markup
open Python (PyStr.join PyStr.split)

/-! ## Characters -/

/-- What `trim` removes and `\s` matches. -/
def isWhite (c : Nat) : Bool :=
  (9 ≤ c && c ≤ 13) || c = 32 || c = 0xA0 || c = 0x1680 || (0x2000 ≤ c && c ≤ 0x200A)
    || c = 0x2028 || c = 0x2029 || c = 0x202F || c = 0x205F || c = 0x3000 || c = 0xFEFF

/-- What `.` matches. -/
def isDot (c : Nat) : Bool := !(c = 10 || c = 13 || c = 0x2028 || c = 0x2029)

def isDigit (c : Nat) : Bool := 48 ≤ c && c ≤ 57

/-- `\w`. -/
def isWord (c : Nat) : Bool :=
  isDigit c || (65 ≤ c && c ≤ 90) || (97 ≤ c && c ≤ 122) || c = 95

def trim (s : JsStr) : JsStr := ((s.dropWhile isWhite).reverse.dropWhile isWhite).reverse

/-! ## Escaping -/

def escapeChar (c : Nat) : JsStr :=
  if c = 38 then js "&amp;"
  else if c = 60 then js "&lt;"
  else if c = 62 then js "&gt;"
  else if c = 34 then js "&quot;"
  else if c = 39 then js "&#39;"
  else [c]

def escapeHtml (value : JsStr) : JsStr := value.flatMap escapeChar

/-! ## Inline markup -/

/-- The length of the shortest content before `mark`, of characters in `ok`. -/
def contentLength (mark : JsStr) (ok : Nat → Bool) : JsStr → Option Nat
  | [] => if mark.isPrefixOf [] then some 0 else none
  | c :: s =>
      if mark.isPrefixOf (c :: s) then some 0
      else if ok c then (contentLength mark ok s).map (· + 1) else none

/-- A content of one character at least between two marks. -/
def delimited (mark : JsStr) (ok : Nat → Bool) (s : JsStr) : Option Nat :=
  if mark.isPrefixOf s then
    match s.drop mark.length with
    | [] => none
    | c :: rest =>
        if ok c then (contentLength mark ok rest).map (· + (1 + 2 * mark.length)) else none
  else none

/-- `\b(word)\b`. -/
def wordAt (word : JsStr) (before : Option Nat) (s : JsStr) : Option Nat :=
  if !before.any isWord && word.isPrefixOf s && !(s.drop word.length).head?.any isWord then
    some word.length
  else none

/-- `\d+(?:\.\d+)?%`. -/
def percentLength (s : JsStr) : Option Nat :=
  let digits := (s.takeWhile isDigit).length
  if digits = 0 then none
  else
    match s.drop digits with
    | 37 :: _ => some (digits + 1)
    | 46 :: rest =>
        let decimals := (rest.takeWhile isDigit).length
        if decimals ≠ 0 && (rest.drop decimals).head? = some 37 then
          some (digits + 1 + decimals + 1)
        else none
    | _ => none

/-- A percentage after one of the signs. -/
def signedPercent (signs : JsStr) : JsStr → Option Nat
  | [] => none
  | c :: s => if signs.contains c then (percentLength s).map (· + 1) else none

/-- The content of a match between two marks, between two tags. -/
def unwrapped (length : Nat) (opening closing : JsStr) (matched : JsStr) : JsStr :=
  opening ++ (matched.drop length).take (matched.length - 2 * length) ++ closing

/-- A match, between two tags. -/
def wrapped (opening closing : JsStr) (matched : JsStr) : JsStr := opening ++ matched ++ closing

def strong (s : JsStr) : JsStr :=
  replaceAll (fun _ => delimited (js "**") isDot)
    (unwrapped 2 (js "<strong>") (js "</strong>")) 0 none s

def strongEm (s : JsStr) : JsStr :=
  replaceAll (fun _ => delimited (js "***") isDot)
    (unwrapped 3 (js "<strong>" ++ js "<em>") (js "</em>" ++ js "</strong>")) 0 none s

def em (s : JsStr) : JsStr :=
  replaceAll (fun _ => delimited (js "*") isDot)
    (unwrapped 1 (js "<em>") (js "</em>")) 0 none s

def code (s : JsStr) : JsStr :=
  replaceAll (fun _ => delimited [96] (· ≠ 96))
    (unwrapped 1 (js "<code>") (js "</code>")) 0 none s

def badge (word : JsStr) (opening : JsStr) (s : JsStr) : JsStr :=
  replaceAll (wordAt word) (wrapped opening (js "</span>")) 0 none s

def positive (s : JsStr) : JsStr :=
  replaceAll (fun _ => signedPercent [43])
    (wrapped (js "<span class=\"pos\">") (js "</span>")) 0 none s

def negative (s : JsStr) : JsStr :=
  replaceAll (fun _ => signedPercent [0x2212, 45])
    (wrapped (js "<span class=\"neg\">") (js "</span>")) 0 none s

def inlineToHtml (s : JsStr) : JsStr :=
  let s := code (em (strong (strongEm s)))
  let s := badge (js "BUY") (js "<span class=\"badge badge-buy\">") s
  let s := badge (js "HOLD") (js "<span class=\"badge badge-hold\">") s
  let s := badge (js "SELL") (js "<span class=\"badge badge-sell\">") s
  negative (positive s)

/-! ## Lines -/

/-- `(.+)$`: what is left of a line. -/
def restOfLine (s : JsStr) : Option JsStr := if s ≠ [] && s.all isDot then some s else none

/-- `/^---+$/`. -/
def isRule (line : JsStr) : Bool := 3 ≤ line.length && line.all (· = 45)

/-- `/^(#{1,4}) (.+)$/`. -/
def heading (line : JsStr) : Option (Nat × JsStr) :=
  let level := (line.takeWhile (· = 35)).length
  if 1 ≤ level && level ≤ 4 then
    match line.drop level with
    | 32 :: rest => (restOfLine rest).map (level, ·)
    | _ => none
  else none

/-- `/^&gt; (.+)$/`. -/
def quote (line : JsStr) : Option JsStr :=
  if (js "&gt; ").isPrefixOf line then restOfLine (line.drop 5) else none

/-- `content.replace(/^#{1,4}\s+/, "")`. -/
def withoutHeading (content : JsStr) : JsStr :=
  let level := (content.takeWhile (· = 35)).length
  if 1 ≤ level && level ≤ 4 && (content.drop level).head?.any isWhite then
    (content.drop level).dropWhile isWhite
  else content

def isIndent (c : Nat) : Bool := c = 32 || c = 9

/-- `/^[ \t]*[-*] (.+)$/`. -/
def unordered (line : JsStr) : Option JsStr :=
  match line.dropWhile isIndent with
  | c :: 32 :: rest => if c = 45 || c = 42 then restOfLine rest else none
  | _ => none

/-- `/^[ \t]*\d+\. (.+)$/`. -/
def ordered (line : JsStr) : Option JsStr :=
  let line := line.dropWhile isIndent
  let digits := (line.takeWhile isDigit).length
  if digits = 0 then none
  else
    match line.drop digits with
    | 46 :: 32 :: rest => restOfLine rest
    | _ => none

/-- `/^\|(.+)\|$/`. -/
def tableRow (line : JsStr) : Option JsStr :=
  match line with
  | 124 :: rest => if rest.getLast? = some 124 then restOfLine rest.dropLast else none
  | _ => none

/-- `/^[-|: ]+$/`. -/
def isSeparator (cell : JsStr) : Bool :=
  cell ≠ [] && cell.all fun c => c = 45 || c = 124 || c = 58 || c = 32

/-- The lines an expression matches up to the first that it does not, by what
it takes from them, and the lines from there on. -/
def matching (item : JsStr → Option JsStr) : List JsStr → List JsStr × List JsStr
  | [] => ([], [])
  | line :: lines =>
      match item line with
      | none => ([], line :: lines)
      | some content => (content :: (matching item lines).1, (matching item lines).2)

theorem length_matching (item : JsStr → Option JsStr) (lines : List JsStr) :
    (matching item lines).2.length ≤ lines.length := by
  induction lines with
  | nil => exact le_rfl
  | cons line lines ih =>
      unfold matching
      split
      · exact le_rfl
      · exact ih.trans (Nat.le_succ _)

def listItem (content : JsStr) : JsStr :=
  js "<li>" ++ inlineToHtml (trim content) ++ js "</li>"

def cells (row : JsStr) : List JsStr :=
  (PyStr.split 124 row).map fun cell => inlineToHtml (trim cell)

def headerRow (row : JsStr) : JsStr :=
  js "<thead>" ++ js "<tr>"
    ++ (cells row).flatMap (fun cell => js "<th>" ++ cell ++ js "</th>")
    ++ js "</tr>" ++ js "</thead>" ++ js "<tbody>"

def dataRow (row : JsStr) : JsStr :=
  js "<tr>" ++ (cells row).flatMap (fun cell => js "<td>" ++ cell ++ js "</td>")
    ++ js "</tr>"

/-- The rows after the first; a second row of separators is left out. -/
def dataRows : List JsStr → JsStr
  | [] => []
  | second :: rows =>
      (if (cells second).all isSeparator then [] else dataRow second) ++ rows.flatMap dataRow

def table (first : JsStr) (rows : List JsStr) : JsStr :=
  js "<table>" ++ headerRow first ++ dataRows rows ++ js "</tbody>" ++ js "</table>"

/-- `<h1>` to `<h4>`. -/
def headingTag (level : Nat) : JsStr := js "<h" ++ [48 + level] ++ js ">"

def headingEnd (level : Nat) : JsStr := js "</h" ++ [48 + level] ++ js ">"

/-- The loop of `mdToHtml`: the blocks of the lines. -/
def blocks : List JsStr → List JsStr
  | [] => []
  | line :: lines =>
      if (trim line).isEmpty then blocks lines
      else if isRule line then js "<hr>" :: blocks lines
      else match heading line with
      | some (level, content) =>
          (headingTag level ++ inlineToHtml content ++ headingEnd level) :: blocks lines
      | none =>
      match quote line with
      | some content =>
          (js "<blockquote>" ++ js "<p>" ++ inlineToHtml (withoutHeading content)
            ++ js "</p>" ++ js "</blockquote>") :: blocks lines
      | none =>
      match unordered line with
      | some content =>
          (js "<ul>" ++ (content :: (matching unordered lines).1).flatMap listItem
            ++ js "</ul>") :: blocks (matching unordered lines).2
      | none =>
      match ordered line with
      | some content =>
          (js "<ol>" ++ (content :: (matching ordered lines).1).flatMap listItem
            ++ js "</ol>") :: blocks (matching ordered lines).2
      | none =>
      match tableRow line with
      | some content =>
          table content (matching tableRow lines).1 :: blocks (matching tableRow lines).2
      | none => (js "<p>" ++ inlineToHtml line ++ js "</p>") :: blocks lines
termination_by lines => lines.length
decreasing_by
  all_goals
    simp only [List.length_cons]
    first
      | omega
      | exact Nat.lt_succ_of_le (length_matching _ _)

/-- ``/```[\s\S]*?```/``. -/
def fence (s : JsStr) : Option Nat :=
  if [96, 96, 96].isPrefixOf s then
    (contentLength [96, 96, 96] (fun _ => true) (s.drop 3)).map (· + 6)
  else none

def withoutFences (s : JsStr) : JsStr := replaceAll (fun _ => fence) (fun _ => []) 0 none s

def mdToHtml (md : JsStr) : JsStr :=
  PyStr.join [10] (blocks (PyStr.split 10 (withoutFences (escapeHtml md))))

/-! ## The page -/

structure ReportMeta where
  jobId : JsStr
  date : JsStr
  symbols : JsStr

/-- A rule of the style sheet. -/
def rule (selector : String) (declarations : List String) : JsStr :=
  js selector ++ 0x7B :: PyStr.join [59] (declarations.map js) ++ [0x7D]

/-- A heading in the style sheet. -/
def banner (title : String) : JsStr :=
  js "/* " ++ [0x2500, 0x2500] ++ js " " ++ js title ++ js " " ++ [0x2500, 0x2500] ++ js " */"

/-- The page down to its style sheet. -/
def headLines : List JsStr :=
  [js "<!DOCTYPE html>",
    js "<html lang=\"en\">",
    js "<head>",
    js "<meta charset=\"UTF-8\"/>",
    js "<meta name=\"viewport\" content=\"width=device-width,initial-scale=1\"/>",
    js "<style>"]

/-- The style sheet of `buildHtml`. -/
def styleLines : List JsStr :=
  [js ":root \x7b",
    js "  --navy:  #1a2744;",
    js "  --navy2: #243460;",
    js "  --gold:  #c4a046;",
    js "  --light: #f4f6fb;",
    js "  --border:#dde2ee;",
    js "  --green: #155f34;",
    js "  --amber: #8a4f00;",
    js "  --red:   #991b1b;",
    js "\x7d",
    rule "*" ["box-sizing:border-box", "margin:0", "padding:0"],
    rule "body" ["font-family:Georgia,serif", "font-size:10pt", "color:#1e2535", "line-height:1.55",
      "background:#fff"],
    js "",
    banner "Header",
    rule ".hdr" ["background:var(--navy)", "padding:18px 36px", "display:flex",
      "justify-content:space-between", "align-items:center"],
    rule ".logo" ["display:flex", "align-items:center", "gap:14px"],
    rule ".logo-text .firm" ["font-family:Arial,sans-serif", "font-size:22pt", "font-weight:700",
      "letter-spacing:.5px", "color:var(--gold)"],
    rule ".logo-text .tag" ["font-family:Arial,sans-serif", "font-size:7.5pt", "color:#7a96bf",
      "letter-spacing:2px", "text-transform:uppercase", "margin-top:2px"],
    rule ".hdr-meta" ["text-align:right", "font-family:Arial,sans-serif", "font-size:8pt",
      "color:#7a96bf", "line-height:1.8"],
    rule ".hdr-meta .conf" ["color:#e8be56", "font-weight:bold", "letter-spacing:1px",
      "font-size:7pt", "text-transform:uppercase"],
    js "",
    banner "Title bar",
    rule ".title-bar" ["background:var(--light)", "border-left:5px solid var(--gold)",
      "border-bottom:1px solid var(--border)", "padding:14px 36px"],
    rule ".title-bar h1" ["font-family:Arial,sans-serif", "font-size:15pt", "color:var(--navy)",
      "font-weight:700"],
    rule ".title-bar .symbols" ["font-family:Arial,sans-serif", "font-size:9pt", "color:#4a5e80",
      "margin-top:3px"],
    js "",
    banner "Body content",
    rule ".body" ["padding:20px 36px 80px"],
    js "",
    js "/* Headings */",
    rule "h1" ["font-family:Arial,sans-serif", "font-size:16pt", "color:var(--navy)",
      "font-weight:700", "margin:24px 0 10px", "border-bottom:2px solid var(--gold)",
      "padding-bottom:6px"],
    rule "h2" ["font-family:Arial,sans-serif", "font-size:13pt", "color:var(--navy)",
      "font-weight:700", "margin:20px 0 8px", "border-bottom:2px solid var(--gold)",
      "padding-bottom:5px"],
    rule "h3" ["font-family:Arial,sans-serif", "font-size:11pt", "color:var(--navy2)",
      "font-weight:700", "margin:16px 0 6px"],
    rule "h4" ["font-family:Arial,sans-serif", "font-size:10pt", "color:#3a4f6e", "font-weight:700",
      "margin:12px 0 5px"],
    rule "hr" ["border:none", "border-top:1px solid var(--border)", "margin:18px 0"],
    js "",
    js "/* Tables */",
    rule "table" ["width:100%", "border-collapse:collapse", "margin:10px 0 16px", "font-size:9pt",
      "font-family:Arial,sans-serif"],
    rule "th" ["background:var(--navy)", "color:#fff", "padding:7px 10px", "text-align:left",
      "font-weight:600", "font-size:8.5pt"],
    rule "td" ["border:1px solid var(--border)", "padding:6px 10px", "vertical-align:top"],
    rule "tr:nth-child(even) td" ["background:var(--light)"],
    js "",
    js "/* Blockquotes (verdict banners) */",
    rule "blockquote" ["background:#eef1f9", "border-left:5px solid var(--navy)",
      "padding:10px 16px", "margin:10px 0 16px", "border-radius:0 4px 4px 0"],
    rule "blockquote p" ["margin:0", "font-family:Arial,sans-serif", "font-size:10.5pt",
      "font-weight:700", "color:var(--navy)"],
    js "",
    js "/* Lists */",
    rule "ul,ol" ["padding-left:22px", "margin:6px 0 10px"],
    rule "li" ["margin:4px 0"],
    rule "p" ["margin:5px 0 10px"],
    rule "strong" ["color:var(--navy)"],
    rule "em" ["color:#5a6f8a"],
    js "",
    js "/* Code (used for tickers) */",
    rule "code" ["background:#e8ecf4", "border-radius:3px", "padding:1px 5px",
      "font-family:monospace", "font-size:9pt", "color:var(--navy)"],
    js "",
    js "/* BUY / HOLD / SELL inline badges " ++ [0x2014]
      ++ js " applied by trusted Markdown conversion */",
    rule ".badge" ["display:inline-block", "padding:2px 9px", "border-radius:3px",
      "font-family:Arial,sans-serif", "font-weight:700", "font-size:9pt", "color:#fff",
      "letter-spacing:.5px"],
    rule ".badge-buy" ["background:var(--green)"],
    rule ".badge-hold" ["background:var(--amber)"],
    rule ".badge-sell" ["background:var(--red)"],
    js "",
    js "/* Positive / negative colouring */",
    rule ".pos" ["color:var(--green)", "font-weight:bold"],
    rule ".neg" ["color:var(--red)", "font-weight:bold"],
    js "",
    banner "Footer",
    rule ".ftr" ["position:fixed", "bottom:0", "left:0", "right:0", "background:var(--navy)",
      "color:#7a96bf", "font-family:Arial,sans-serif", "font-size:7pt", "padding:7px 36px",
      "display:flex", "justify-content:space-between", "align-items:center"],
    rule ".ftr .left" ["letter-spacing:.3px"],
    rule ".ftr .right" ["color:#4a6088"],
    js "",
    banner "Page numbers",
    rule "@page" ["size:A4", "margin:0"],
    js "@media print\x7b",
    rule "  .ftr" ["position:fixed", "bottom:0"],
    rule "  .no-break" ["page-break-inside:avoid"],
    js "\x7d"]

/-- `LOGO_SVG`. -/
def logoLines : List JsStr :=
  [js "<svg width=\"54\" height=\"54\" viewBox=\"0 0 54 54\" "
      ++ js "xmlns=\"http://www.w3.org/2000/svg\">",
    js "  <polygon points=\"27,2 52,15.5 52,38.5 27,52 2,38.5 2,15.5\" fill=\"#c4a046\"/>",
    js "  <polygon points=\"27,8 46,18.5 46,35.5 27,46 8,35.5 8,18.5\" fill=\"#1a2744\"/>",
    js "  <polyline points=\"13,38 22,26 31,30 41,14\" stroke=\"#c4a046\" "
      ++ js "stroke-width=\"2.5\" fill=\"none\" stroke-linecap=\"round\" "
      ++ js "stroke-linejoin=\"round\"/>",
    js "  <circle cx=\"22\" cy=\"26\" r=\"2.2\" fill=\"#c4a046\"/>",
    js "  <circle cx=\"31\" cy=\"30\" r=\"2.2\" fill=\"#c4a046\"/>",
    js "  <circle cx=\"41\" cy=\"14\" r=\"3\" fill=\"white\"/>",
    js "  <circle cx=\"13\" cy=\"38\" r=\"2.2\" fill=\"#aab8d4\"/>",
    js "</svg>"]

/-- The page from its style sheet down to the logo. -/
def headerLines : List JsStr :=
  [js "</style>",
    js "</head>",
    js "<body>",
    js "",
    js "<!-- Header -->",
    js "<div class=\"hdr\">",
    js "  <div class=\"logo\">"]

/-- The page from the logo down to the date. -/
def firmLines : List JsStr :=
  [js "    <div class=\"logo-text\">",
    js "      <div class=\"firm\">ChainAnalyst</div>",
    js "      <div class=\"tag\">Blockchain-Settled Research</div>",
    js "    </div>",
    js "  </div>",
    js "  <div class=\"hdr-meta\">",
    js "    <div class=\"conf\">Confidential " ++ [0x2014] ++ js " Client Use Only</div>"]

/-- The page from the report id down to the symbols. -/
def titleLines : List JsStr :=
  [js "    <div>Network: BSC Testnet</div>",
    js "  </div>",
    js "</div>",
    js "",
    js "<!-- Title bar -->",
    js "<div class=\"title-bar\">",
    js "  <h1>Personalised Stock Analysis Report</h1>"]

/-- The page from the symbols down to the report. -/
def bodyLines : List JsStr :=
  [js "</div>",
    js "",
    js "<!-- Body -->",
    js "<div class=\"body\" id=\"report-body\">"]

/-- The page below the report. -/
def footerLines : List JsStr :=
  [js "</div>",
    js "",
    js "<!-- Footer -->",
    js "<div class=\"ftr\">",
    js "  <span class=\"left\">ChainAnalyst &nbsp;|&nbsp; Blockchain-Settled AI "
      ++ js "Research &nbsp;|&nbsp; Powered by BNB Chain ERC-8183</span>",
    js "  <span class=\"right\">This report is for informational purposes only "
      ++ js "and does not constitute investment advice.</span>",
    js "</div>",
    js "",
    js "</body>",
    js "</html>"]

def logoLine : JsStr := js "    " ++ PyStr.join [10] logoLines

def dateLine (date : JsStr) : JsStr := js "    <div>Date: " ++ date ++ js "</div>"

def jobLine (jobId : JsStr) : JsStr := js "    <div>Report ID: #" ++ jobId ++ js "</div>"

def symbolsLine (symbols : JsStr) : JsStr :=
  js "  <div class=\"symbols\">Coverage: " ++ symbols ++ js "</div>"

def buildHtml (markdownHtml : JsStr) (info : ReportMeta) : JsStr :=
  PyStr.join [10] (headLines ++ styleLines ++ headerLines ++ [logoLine] ++ firmLines
    ++ [dateLine info.date, jobLine info.jobId] ++ titleLines ++ [symbolsLine info.symbols]
    ++ bodyLines ++ [markdownHtml] ++ footerLines)

def renderReportHtml (reportText : JsStr) (info : ReportMeta) : JsStr :=
  buildHtml (mdToHtml reportText)
    ⟨escapeHtml info.jobId, escapeHtml info.date, escapeHtml info.symbols⟩

end PdfReport
