import StockAnalyst.PyJson

/-!
# The payment token registry

The four paid tokens, their transfer methods, and the lookup by asset address
that every later stage uses.
-/

namespace X402

open Python

/-- How a token is moved by the facilitator. -/
inductive TransferMethod where
  | eip3009
  | permit2Exact
  deriving DecidableEq

/-- The wire name of a transfer method. -/
def TransferMethod.text : TransferMethod → PyStr
  | .eip3009 => py "eip3009"
  | .permit2Exact => py "permit2-exact"

/-- A registered payment token. -/
structure PaymentToken where
  symbol : PyStr
  address : PyStr
  decimals : Nat
  domainName : PyStr
  domainVersion : PyStr
  transferMethod : TransferMethod
  deriving DecidableEq

def uToken : PaymentToken where
  symbol := py "U"
  address := py "0xcE24439F2D9C6a2289F741120FE202248B666666"
  decimals := 18
  domainName := py "United Stables"
  domainVersion := py "1"
  transferMethod := .eip3009

def usd1Token : PaymentToken where
  symbol := py "USD1"
  address := py "0x8d0D000Ee44948FC98c9B98A4FA4921476f08B0d"
  decimals := 18
  domainName := py "World Liberty Financial USD"
  domainVersion := py "1"
  transferMethod := .eip3009

def usdcToken : PaymentToken where
  symbol := py "USDC"
  address := py "0x8AC76a51cc950d9822D68b83fE1Ad97B32Cd580d"
  decimals := 18
  domainName := py "USD Coin"
  domainVersion := py "1"
  transferMethod := .permit2Exact

def usdtToken : PaymentToken where
  symbol := py "USDT"
  address := py "0x55d398326f99059fF775485246999027B3197955"
  decimals := 18
  domainName := py "Tether USD"
  domainVersion := py "1"
  transferMethod := .permit2Exact

/-- The registry, in the order in which it is offered. -/
def tokens : List PaymentToken := [uToken, usd1Token, usdcToken, usdtToken]

/-- `token.address.lower()`; registry addresses are ASCII. -/
def PaymentToken.asset (token : PaymentToken) : PyStr :=
  token.address.map asciiLower

/-- The token whose address is the given asset in any letter case. -/
def tokenByAsset (lib : PyLib) : Option Json → Option PaymentToken
  | some (.str asset) => tokens.find? (fun t => t.asset = lib.lower asset)
  | _ => none

theorem tokenByAsset_mem {lib : PyLib} {asset : Option Json}
    {token : PaymentToken} (h : tokenByAsset lib asset = some token) :
    token ∈ tokens := by
  unfold tokenByAsset at h
  split at h
  · exact List.mem_of_find?_eq_some h
  · cases h

/-- Registered tokens differ in their addresses. -/
theorem token_of_asset {token token' : PaymentToken} (h : token ∈ tokens)
    (h' : token' ∈ tokens) (hasset : token.asset = token'.asset) : token = token' := by
  have hall : ∀ t ∈ tokens, ∀ t' ∈ tokens, t.asset = t'.asset → t = t' := by
    decide
  exact hall token h token' h' hasset

end X402
