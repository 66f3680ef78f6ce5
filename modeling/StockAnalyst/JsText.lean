import StockAnalyst.PyJson

/-!
# JavaScript strings

A string is its list of UTF-16 code units; a surrogate may stand alone.
-/

namespace Js

open Python

/-- A string as code units. -/
abbrev JsStr := List Nat

/-- An ASCII literal. -/
def js (s : String) : JsStr := s.toByteArray.data.toList.map UInt8.toNat

/-- The UTF-8 bytes of a code point. -/
def utf8Point (c : Nat) : List Nat :=
  if c < 0x80 then [c]
  else if c < 0x800 then [0xC0 + c / 64, 0x80 + c % 64]
  else if c < 0x10000 then [0xE0 + c / 4096, 0x80 + c / 64 % 64, 0x80 + c % 64]
  else [0xF0 + c / 262144, 0x80 + c / 4096 % 64, 0x80 + c / 64 % 64, 0x80 + c % 64]

/-- `Buffer.from(value, "utf8")`: a surrogate without its partner becomes
U+FFFD. -/
def utf8 : JsStr → List Nat
  | [] => []
  | [c] => if isHigh c || isLow c then utf8Point 0xFFFD else utf8Point c
  | c :: d :: rest =>
      if isHigh c && isLow d then utf8Point (combine c d) ++ utf8 rest
      else (if isHigh c || isLow c then utf8Point 0xFFFD else utf8Point c) ++
        utf8 (d :: rest)

/-- `value.startsWith(start)`. -/
def startsWith (value start : JsStr) : Bool := start.isPrefixOf value

end Js
