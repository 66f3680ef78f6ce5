import Mathlib.Algebra.Group.Nat.Defs
import Mathlib.Data.List.Dedup
import Mathlib.Data.List.Lex
import Mathlib.Data.List.Sort

/-!
# Typed structured data

How a message of struct types is hashed for a signature.  A struct type is
encoded as its name with its members, followed by the struct types it refers to
in the order of their names.  A struct is hashed behind the hash of its type,
and a message behind the hash of the domain it is for.  Bytes and characters
are numbers below 256.
-/

namespace Eip712

abbrev Bytes : Type := List Nat

/-- The characters of an ASCII text. -/
def ascii (s : String) : Bytes := s.toList.map Char.toNat

/-! ## Types -/

inductive MemberType where
  | uint256
  | address
  | bytes32
  | string
  | struct (name : Bytes)
  deriving DecidableEq

structure Member where
  type : MemberType
  name : Bytes
  deriving DecidableEq

structure StructType where
  name : Bytes
  members : List Member
  deriving DecidableEq

def MemberType.text : MemberType → Bytes
  | .uint256 => ascii "uint256"
  | .address => ascii "address"
  | .bytes32 => ascii "bytes32"
  | .string => ascii "string"
  | .struct name => name

def Member.text (m : Member) : Bytes := m.type.text ++ 0x20 :: m.name

/-- A struct type without the types it refers to. -/
def StructType.text (t : StructType) : Bytes :=
  t.name ++ 0x28 :: (List.intercalate [0x2C] (t.members.map Member.text)) ++ [0x29]

/-- The struct types that a type refers to by its members. -/
def StructType.references (t : StructType) : List Bytes :=
  t.members.filterMap fun m =>
    match m.type with
    | .struct name => some name
    | _ => none

variable (types : List StructType)

def typeNamed (name : Bytes) : Option StructType := types.find? (·.name = name)

/-- The struct types that are reached by at most `depth` references. -/
def reached : Nat → Bytes → List Bytes
  | 0, _ => []
  | depth + 1, name =>
      match typeNamed types name with
      | none => []
      | some t => t.references.flatMap fun name => name :: reached depth name

/-- The encoding of a struct type; nothing where there is none of that name. -/
def encodeType (name : Bytes) : Option Bytes :=
  (typeNamed types name).map fun t =>
    let names := ((reached types types.length name).filter (· ≠ name)).dedup
    t.text ++ ((names.insertionSort (· ≤ ·)).filterMap (typeNamed types)).flatMap StructType.text

/-! ## Values -/

inductive Value where
  | uint (n : Nat)
  | address (bytes : Bytes)
  | word (bytes : Bytes)
  | text (bytes : Bytes)
  | struct (values : List Value)

/-- Thirty-two bytes, the highest first. -/
def word (n : Nat) : Bytes := (List.range 32).map fun i => n / 256 ^ (31 - i) % 256

variable (keccak : Bytes → Bytes)

mutual

/-- The word that stands for a value; nothing for a value that is not of the
type. -/
def encodeValue : MemberType → Value → Option Bytes
  | .uint256, .uint n => if n < 2 ^ 256 then some (word n) else none
  | .address, .address bytes =>
      if bytes.length = 20 then some (List.replicate 12 0 ++ bytes) else none
  | .bytes32, .word bytes => if bytes.length = 32 then some bytes else none
  | .string, .text bytes => some (keccak bytes)
  | .struct name, .struct values => do
      let t ← typeNamed types name
      let encoded ← encodeType types name
      let data ← encodeMembers t.members values
      return keccak (keccak encoded ++ data)
  | _, _ => none

def encodeMembers : List Member → List Value → Option Bytes
  | [], [] => some []
  | m :: members, v :: values =>
      (encodeValue m.type v).bind fun data => (encodeMembers members values).map (data ++ ·)
  | _, _ => none

end

section encoding

variable {types : List StructType} {keccak : Bytes → Bytes} {name : Bytes} {t : StructType}

/-- One type is found under its own name. -/
@[simp] theorem typeNamed_singleton : typeNamed [t] t.name = some t := by
  simp [typeNamed]

/-- A struct type without struct members is encoded as itself. -/
theorem encodeType_flat (ht : typeNamed types name = some t) (hflat : t.references = []) :
    encodeType types name = some t.text := by
  have hreached : ∀ depth, reached types depth name = [] := by
    intro depth
    cases depth with
    | zero => rfl
    | succ depth => simp [reached, ht, hflat]
  simp [encodeType, ht, hreached, List.dedup_nil]

/-- A struct is hashed behind the hash of its type. -/
theorem encodeValue_struct {encoded : Bytes} (ht : typeNamed types name = some t)
    (hencoded : encodeType types name = some encoded) (values : List Value) :
    encodeValue types keccak (.struct name) (.struct values) =
      (encodeMembers types keccak t.members values).map fun data =>
        keccak (keccak encoded ++ data) := by
  rw [encodeValue, ht, hencoded]
  cases hdata : encodeMembers types keccak t.members values <;> simp [hdata]

/-- A number is encoded as its word where it fits. -/
@[simp] theorem encodeValue_uint {n : Nat} :
    encodeValue types keccak .uint256 (.uint n) = if n < 2 ^ 256 then some (word n) else none := by
  rw [encodeValue]

/-- An address is padded to a word. -/
theorem encodeValue_address {bytes : Bytes} (h : bytes.length = 20) :
    encodeValue types keccak .address (.address bytes) =
      some (List.replicate 12 0 ++ bytes) := by
  rw [encodeValue, if_pos h]

/-- A word is encoded as it is. -/
theorem encodeValue_word {bytes : Bytes} (h : bytes.length = 32) :
    encodeValue types keccak .bytes32 (.word bytes) = some bytes := by
  rw [encodeValue, if_pos h]

/-- A text is encoded as its hash. -/
@[simp] theorem encodeValue_text {bytes : Bytes} :
    encodeValue types keccak .string (.text bytes) = some (keccak bytes) := by
  rw [encodeValue]

@[simp] theorem encodeMembers_nil : encodeMembers types keccak [] [] = some [] := by
  rw [encodeMembers]

/-- Members are encoded one after the other. -/
@[simp] theorem encodeMembers_cons {m : Member} {members : List Member} {v : Value}
    {values : List Value} :
    encodeMembers types keccak (m :: members) (v :: values) =
      (encodeValue types keccak m.type v).bind fun data =>
        (encodeMembers types keccak members values).map (data ++ ·) := by
  rw [encodeMembers]

end encoding

/-- A message with its types and the domain it is for. -/
structure Message where
  /-- The members of the domain that are set. -/
  domain : List (Member × Value)
  types : List StructType
  primaryType : Bytes
  values : List Value

def Message.domainType (m : Message) : StructType :=
  ⟨ascii "EIP712Domain", m.domain.map (·.1)⟩

/-- What is signed. -/
def Message.digest (m : Message) : Option Bytes := do
  let separator ← encodeValue [m.domainType] keccak (.struct m.domainType.name)
    (.struct (m.domain.map (·.2)))
  let hash ← encodeValue m.types keccak (.struct m.primaryType) (.struct m.values)
  return keccak (0x19 :: 0x01 :: separator ++ hash)

end Eip712
