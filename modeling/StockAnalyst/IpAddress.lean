import StockAnalyst.UrlSplit
import StockAnalyst.PyDumps
import Mathlib.Data.Nat.Digits.Lemmas

/-!
# IP addresses in Python

Addresses and networks of `ipaddress`, and the text of an address:
`ip_address(str(address))` is that address again.
-/

namespace Python

/-! ## Addresses -/

structure IPv4Address where
  ip : Nat
  bound : ip < 2 ^ 32
  deriving DecidableEq

/-- A scope id stands after `%` in the text of its address. -/
def ScopeId : Type := { s : PyStr // s ≠ [] ∧ 37 ∉ s ∧ 47 ∉ s }

instance : DecidableEq ScopeId := inferInstanceAs (DecidableEq (Subtype _))

structure IPv6Address where
  ip : Nat
  scopeId : Option ScopeId
  bound : ip < 2 ^ 128
  deriving DecidableEq

inductive IpAddress where
  | v4 (address : IPv4Address)
  | v6 (address : IPv6Address)
  deriving DecidableEq

/-- `IPv4Address(n)`. -/
def IPv4Address.ofInt (n : Nat) : Option IPv4Address :=
  if h : n < 2 ^ 32 then some ⟨n, h⟩ else none

/-- `IPv6Address(n)`, with a scope. -/
def IPv6Address.ofInt (scopeId : Option ScopeId) (n : Nat) : Option IPv6Address :=
  if h : n < 2 ^ 128 then some ⟨n, scopeId, h⟩ else none

/-- `ip_address(n)`: the version is the first one the number fits. -/
def IpAddress.ofInt (n : Int) : Option IpAddress :=
  if n < 0 then none
  else
    match IPv4Address.ofInt n.toNat with
    | some address => some (.v4 address)
    | none => (IPv6Address.ofInt none n.toNat).map .v6

namespace IpAddress

def version : IpAddress → Nat
  | .v4 _ => 4
  | .v6 _ => 6

/-- `int(address)`. -/
def ip : IpAddress → Nat
  | .v4 address => address.ip
  | .v6 address => address.ip

end IpAddress

/-! ## Networks -/

structure IpNetwork where
  version : Nat
  networkAddress : Nat
  prefixlen : Nat

namespace IpNetwork

def bits (network : IpNetwork) : Nat := if network.version = 4 then 32 else 128

/-- `netmask`: ones on the first bits. -/
def netmask (network : IpNetwork) : Nat :=
  (2 ^ network.prefixlen - 1) <<< (network.bits - network.prefixlen)

/-- `address in network`. -/
def contains (network : IpNetwork) (address : IpAddress) : Bool :=
  address.version = network.version && address.ip &&& network.netmask = network.networkAddress

end IpNetwork

/-- Masking the high bits divides by the low ones. -/
theorem and_mask {x high low : Nat} (h : x < 2 ^ (high + low)) :
    x &&& ((2 ^ high - 1) <<< low) = x / 2 ^ low * 2 ^ low := by
  rw [← Nat.shiftLeft_eq, ← Nat.shiftRight_eq_div_pow]
  refine Nat.eq_of_testBit_eq ?_
  intro i
  rw [Nat.testBit_and, Nat.testBit_shiftLeft, Nat.testBit_shiftLeft, Nat.testBit_shiftRight,
    Nat.testBit_two_pow_sub_one]
  by_cases hlow : low ≤ i
  · by_cases hhigh : i - low < high
    · simp [hlow, hhigh]
    · have hzero : x.testBit i = false := by
        refine Nat.testBit_lt_two_pow (h.trans_le (Nat.pow_le_pow_right (by decide) ?_))
        omega
      simp [hlow, hhigh, hzero]
  · simp [hlow]

/-- An address is in a network when the two agree before the last bits. -/
theorem IpNetwork.contains_iff {network : IpNetwork} {address : IpAddress} {net : Nat}
    (hversion : address.version = network.version) (hbound : address.ip < 2 ^ network.bits)
    (hlength : network.prefixlen ≤ network.bits)
    (hnet : network.networkAddress = net * 2 ^ (network.bits - network.prefixlen)) :
    network.contains address = true ↔
      address.ip / 2 ^ (network.bits - network.prefixlen) = net := by
  have hmask : address.ip &&& network.netmask =
      address.ip / 2 ^ (network.bits - network.prefixlen) *
        2 ^ (network.bits - network.prefixlen) := by
    refine and_mask ?_
    rwa [Nat.add_sub_cancel' hlength]
  unfold IpNetwork.contains
  rw [hversion, hmask, hnet]
  simp only [decide_true, Bool.true_and, decide_eq_true_eq]
  exact Nat.mul_left_inj (Nat.two_pow_pos _).ne'

/-! ## Embedded addresses -/

namespace IPv6Address

variable (address : IPv6Address)

/-- `ipv4_mapped`. -/
def ipv4Mapped : Option IPv4Address :=
  if address.ip >>> 32 ≠ 0xFFFF then none
  else IPv4Address.ofInt (address.ip &&& 0xFFFFFFFF)

/-- `teredo`: the server and the client. -/
def teredo : Option (List IPv4Address) :=
  if address.ip >>> 96 ≠ 0x20010000 then none
  else
    [address.ip >>> 64 &&& 0xFFFFFFFF, (2 ^ 128 - 1 - address.ip) &&& 0xFFFFFFFF].mapM
      IPv4Address.ofInt

end IPv6Address

/-- The last 32 bits of a number. -/
theorem low32 (n : Nat) : n &&& 0xFFFFFFFF = n % 2 ^ 32 := Nat.and_two_pow_sub_one_eq_mod n 32

/-- The last 32 bits are an IPv4 address. -/
theorem IPv4Address.ofInt_low32 (n : Nat) :
    IPv4Address.ofInt (n &&& 0xFFFFFFFF) = some ⟨n % 2 ^ 32, Nat.mod_lt _ (by decide)⟩ := by
  have hlt : n % 2 ^ 32 < 2 ^ 32 := Nat.mod_lt _ (by decide)
  unfold IPv4Address.ofInt
  simp only [low32, dif_pos hlt]

/-! ## Positional text -/

/-- The digits of a number, the most significant first, and as many as asked
for. -/
def groups (base : Nat) : Nat → Nat → List Nat
  | 0, _ => []
  | count + 1, n => groups base count (n / base) ++ [n % base]

/-- The number of which these are the digits. -/
def ofGroups (base : Nat) (digits : List Nat) : Nat := digits.foldl (fun n d => n * base + d) 0

/-- There are as many groups as asked for. -/
theorem length_groups (base count n : Nat) : (groups base count n).length = count := by
  induction count generalizing n with
  | zero => rfl
  | succ count ih => rw [groups, List.length_append, ih, List.length_singleton]

/-- Every group is a digit of the base. -/
theorem groups_lt {base : Nat} (hbase : 0 < base) (count n : Nat) :
    ∀ d ∈ groups base count n, d < base := by
  induction count generalizing n with
  | zero => simp [groups]
  | succ count ih =>
      intro d hd
      rw [groups, List.mem_append, List.mem_singleton] at hd
      obtain hd | rfl := hd
      · exact ih _ d hd
      · exact Nat.mod_lt _ hbase

/-- The groups of a number stand for it. -/
theorem ofGroups_groups {base : Nat} (count n : Nat) (h : n < base ^ count) :
    ofGroups base (groups base count n) = n := by
  induction count generalizing n with
  | zero =>
      obtain rfl : n = 0 := by simpa using h
      rfl
  | succ count ih =>
      have hdiv : n / base < base ^ count := by
        refine Nat.div_lt_of_lt_mul ?_
        rwa [Nat.mul_comm, ← Nat.pow_succ]
      have hfront := ih (n / base) hdiv
      unfold ofGroups at hfront ⊢
      rw [groups, List.foldl_append, hfront, List.foldl_cons, List.foldl_nil]
      exact Nat.div_add_mod' n base

/-- Splitting leaves a piece at least. -/
theorem PyStr.split_ne_nil (sep : Nat) (s : PyStr) : PyStr.split sep s ≠ [] := by
  cases s with
  | nil => simp [PyStr.split]
  | cons c s =>
      unfold PyStr.split
      split
      · simp
      · split <;> simp

/-- A piece ends at the first separator. -/
theorem PyStr.split_append {sep : Nat} {s : PyStr} (h : sep ∉ s) (rest : PyStr) :
    PyStr.split sep (s ++ sep :: rest) = s :: PyStr.split sep rest := by
  induction s with
  | nil => simp [PyStr.split]
  | cons c s ih =>
      obtain ⟨hc, hs⟩ := not_or.1 (List.mem_cons.not.1 h)
      rw [List.cons_append, PyStr.split, if_neg (fun heq => hc heq.symm), ih hs]

/-- A text without separators is one piece. -/
theorem PyStr.split_self {sep : Nat} {s : PyStr} (h : sep ∉ s) : PyStr.split sep s = [s] := by
  induction s with
  | nil => rfl
  | cons c s ih =>
      obtain ⟨hc, hs⟩ := not_or.1 (List.mem_cons.not.1 h)
      rw [PyStr.split, if_neg (fun heq => hc heq.symm), ih hs]

/-- Splitting a joined text gives the pieces back. -/
theorem PyStr.split_join {sep : Nat} {pieces : List PyStr} (hne : pieces ≠ [])
    (h : ∀ p ∈ pieces, sep ∉ p) : PyStr.split sep (PyStr.join [sep] pieces) = pieces := by
  fun_induction PyStr.join [sep] pieces with
  | case1 => contradiction
  | case2 s => exact PyStr.split_self (h s List.mem_cons_self)
  | case3 s t rest ih =>
      obtain ⟨hs, hrest⟩ := List.forall_mem_cons.1 h
      rw [List.append_assoc, List.singleton_append, PyStr.split_append hs, ih (by simp) hrest]

/-- Every other character of a text is in one of its pieces. -/
theorem PyStr.mem_split {sep c : Nat} {s : PyStr} (hc : c ∈ s) (hsep : c ≠ sep) :
    ∃ p ∈ PyStr.split sep s, c ∈ p := by
  induction s with
  | nil => cases hc
  | cons d s ih =>
      unfold PyStr.split
      obtain rfl | hc := List.mem_cons.1 hc
      · rw [if_neg hsep]
        split
        · exact ⟨_, List.mem_cons_self, List.mem_cons_self⟩
        · exact ⟨_, List.mem_cons_self, List.mem_cons_self⟩
      · obtain ⟨p, hp, hcp⟩ := ih hc
        split
        · exact ⟨p, List.mem_cons_of_mem _ hp, hcp⟩
        · split
          · rename_i hnone
            exact absurd hnone (PyStr.split_ne_nil sep s)
          · rename_i first rest hsome
            rw [hsome] at hp
            obtain rfl | hp := List.mem_cons.1 hp
            · exact ⟨_, List.mem_cons_self, List.mem_cons_of_mem _ hcp⟩
            · exact ⟨p, List.mem_cons_of_mem _ hp, hcp⟩

/-! ## IPv4 text -/

/-- `_parse_octet`; nothing where it raises. -/
def parseOctet (s : PyStr) : Option Nat :=
  if s = [] ∨ !s.all (fun c => 48 ≤ c && c ≤ 57) ∨ 3 < s.length ∨
      (s ≠ [48] ∧ s.head? = some 48) ∨ 255 < natOf s then none
  else some (natOf s)

namespace IPv4Address

/-- `str(address)`. -/
def str (address : IPv4Address) : PyStr :=
  PyStr.join [46] ((groups 256 4 address.ip).map fun octet : Nat => intText octet)

/-- `IPv4Address(s)`; nothing where it raises. -/
def ofStr (s : PyStr) : Option IPv4Address :=
  if s.contains 47 ∨ (PyStr.split 46 s).length ≠ 4 then none
  else ((PyStr.split 46 s).mapM parseOctet).bind fun octets => ofInt (ofGroups 256 octets)

end IPv4Address

/-- An octet is read as it is written. -/
theorem parseOctet_intText {n : Nat} (h : n < 256) : parseOctet (intText n) = some n := by
  rw [intText_natCast]
  by_cases hzero : n = 0
  · rw [if_pos hzero, hzero]
    decide
  rw [if_neg hzero]
  have hunsigned := isUnsignedInteger_natDigits hzero
  have hlength : (natDigits n).length ≤ 3 := by
    unfold natDigits
    rw [List.length_map, List.length_reverse]
    exact (Nat.digits_length_le_iff (by decide) n).2 (by omega)
  have hall : (natDigits n).all (fun c => 48 ≤ c && c ≤ 57) = true := by
    refine List.all_eq_true.2 ?_
    intro c hc
    simpa using natDigits_range n c hc
  have hne : natDigits n ≠ [] := by
    intro hnone
    rw [hnone] at hunsigned
    cases hunsigned
  have hhead : (natDigits n).head? ≠ some 48 := by
    intro hsome
    obtain ⟨rest, hrest⟩ := List.head?_eq_some_iff.1 hsome
    rw [hrest] at hunsigned
    have hnil : rest = [] := by simpa [Deliverable.isUnsignedInteger] using hunsigned
    have hvalue := natOf_natDigits n
    rw [hrest, hnil] at hvalue
    exact hzero hvalue.symm
  unfold parseOctet
  rw [natOf_natDigits, if_neg]
  simp only [hne, hall, hhead, false_or, Bool.not_true, Bool.false_eq_true, and_false, not_or]
  omega

/-- A list read item by item, where every item is the text of its number. -/
theorem mapM_texts {α β : Type} {text : α → β} {read : β → Option α} {ns : List α}
    (h : ∀ n ∈ ns, read (text n) = some n) : (ns.map text).mapM read = some ns := by
  induction ns with
  | nil => rfl
  | cons n ns ih =>
      obtain ⟨hn, hns⟩ := List.forall_mem_cons.1 h
      rw [List.map_cons, List.mapM_cons, hn, ih hns]
      rfl

/-- No character but digits and dots is in the text of an IPv4 address. -/
theorem IPv4Address.str_range (address : IPv4Address) :
    ∀ c ∈ address.str, c = 46 ∨ (48 ≤ c ∧ c ≤ 57) := by
  intro c hc
  obtain hc | ⟨p, hp, hc⟩ := PyStr.mem_join hc
  · exact Or.inl (List.mem_singleton.1 hc)
  · obtain ⟨octet, -, rfl⟩ := List.mem_map.1 hp
    exact Or.inr (intText_range octet c hc)

/-- **An IPv4 address is read as it is written.** -/
theorem IPv4Address.ofStr_str (address : IPv4Address) : ofStr address.str = some address := by
  have hsplit : PyStr.split 46 address.str =
      (groups 256 4 address.ip).map fun octet : Nat => intText octet := by
    refine PyStr.split_join ?_ ?_
    · intro hnone
      have := congrArg List.length hnone
      rw [List.length_map, length_groups] at this
      cases this
    · intro p hp hdot
      obtain ⟨octet, -, rfl⟩ := List.mem_map.1 hp
      have := intText_range octet 46 hdot
      omega
  have hslash : address.str.contains 47 = false := by
    rw [List.contains_eq_mem, decide_eq_false_iff_not]
    intro hmem
    have := address.str_range 47 hmem
    omega
  have hoctets : ((groups 256 4 address.ip).map fun octet : Nat => intText octet).mapM parseOctet =
      some (groups 256 4 address.ip) := by
    refine mapM_texts ?_
    intro n hn
    exact parseOctet_intText (groups_lt (by decide) 4 _ n hn)
  have hvalue : ofGroups 256 (groups 256 4 address.ip) = address.ip :=
    ofGroups_groups 4 address.ip (by have := address.bound; norm_num at this ⊢; exact this)
  unfold ofStr
  rw [hslash, hsplit, List.length_map, length_groups, hoctets]
  simp only [Bool.false_eq_true, ne_eq, not_true_eq_false, or_self, if_false, Option.bind_some]
  rw [hvalue, IPv4Address.ofInt, dif_pos address.bound]

/-- No IPv4 address is written with a colon. -/
theorem IPv4Address.ofStr_colon {s : PyStr} (h : 58 ∈ s) : ofStr s = none := by
  unfold ofStr
  obtain ⟨p, hp, hc⟩ := PyStr.mem_split h (by decide : 58 ≠ 46)
  have hbad : parseOctet p = none := by
    unfold parseOctet
    refine if_pos (Or.inr (Or.inl ?_))
    rw [Bool.not_eq_true', List.all_eq_false]
    exact ⟨58, hc, by decide⟩
  have hnone : (PyStr.split 46 s).mapM parseOctet = none := by
    generalize PyStr.split 46 s = pieces at hp
    induction pieces with
    | nil => cases hp
    | cons q rest ih =>
        rw [List.mapM_cons]
        obtain rfl | hp := List.mem_cons.1 hp
        · rw [hbad]
          rfl
        · cases parseOctet q with
          | none => rfl
          | some n =>
              rw [ih hp]
              rfl
  rw [hnone]
  split <;> rfl

/-! ## IPv6 text -/

/-- `'%x' % n`. -/
def hexText (n : Nat) : PyStr :=
  if n = 0 then [48] else (Nat.digits 16 n).reverse.map hexDigit

/-- `_parse_hextet`; nothing where it raises. -/
def parseHextet (s : PyStr) : Option Nat :=
  if s = [] ∨ 4 < s.length then none else (s.mapM hexValue).map (ofGroups 16)

/-- The longest run of zeros so far and the one that goes on: where they start
and how long they are. -/
def zeroRun (best current : Nat × Nat) (index : Nat) : List PyStr → Nat × Nat
  | [] => best
  | hextet :: rest =>
      if hextet = [48] then
        let current := (if current.2 = 0 then index else current.1, current.2 + 1)
        zeroRun (if best.2 < current.2 then current else best) current (index + 1) rest
      else zeroRun best (0, 0) (index + 1) rest

/-- `_compress_hextets`. -/
def compressHextets (hextets : List PyStr) : List PyStr :=
  let best := zeroRun (0, 0) (0, 0) 0 hextets
  if 1 < best.2 then
    (if best.1 = 0 then [[]] else []) ++ hextets.take best.1 ++ [[]] ++
      (hextets.drop (best.1 + best.2) ++ if best.1 + best.2 = hextets.length then [[]] else [])
  else hextets

/-- The number of the hextets around a run of zeros. -/
def ofHextets (high : List PyStr) (skipped : Nat) (low : List PyStr) : Option Nat :=
  (high.mapM parseHextet).bind fun high => (low.mapM parseHextet).map fun low =>
    ofGroups 65536 (high ++ List.replicate skipped 0 ++ low)

/-- An IPv4 address in place of the last two hextets. -/
def expandSuffix (parts : List PyStr) : Option (List PyStr) :=
  let last := parts.getLast?.getD []
  if last.contains 46 then
    (IPv4Address.ofStr last).map fun address =>
      parts.dropLast ++ [hexText (address.ip >>> 16 &&& 0xFFFF), hexText (address.ip &&& 0xFFFF)]
  else some parts

/-- What stands on one side of `::`: nothing, where the side is at an end of the
text and empty; nothing is read where it only begins or ends with a colon. -/
def sideOf (outer : Option PyStr) (side : List PyStr) : Option (List PyStr) :=
  if outer = some [] then (if side.length = 1 then some [] else none) else some side

/-- The number of the parts between the colons. -/
def ipv6FromParts (parts : List PyStr) : Option Nat :=
  let inner := parts.tail.dropLast
  if 9 < parts.length ∨ 1 < inner.count [] then none
  else if inner.count [] = 1 then
    let skip := inner.idxOf [] + 1
    (sideOf parts.head? (parts.take skip)).bind fun high =>
      (sideOf parts.getLast? (parts.drop (skip + 1))).bind fun low =>
        if high.length + low.length < 8 then
          ofHextets high (8 - (high.length + low.length)) low
        else none
  else if parts.length ≠ 8 then none
  else ofHextets parts 0 []

/-- `_ip_int_from_string` of an IPv6 address; nothing where it raises. -/
def ipv6FromString (s : PyStr) : Option Nat :=
  if (PyStr.split 58 s).length < 3 then none
  else (expandSuffix (PyStr.split 58 s)).bind ipv6FromParts

namespace IPv6Address

/-- The text without the scope. -/
def text (address : IPv6Address) : PyStr :=
  PyStr.join [58] (compressHextets ((groups 65536 8 address.ip).map hexText))

/-- `str(address)`. -/
def str (address : IPv6Address) : PyStr :=
  match address.scopeId with
  | none => address.text
  | some scope => address.text ++ 37 :: scope.1

/-- `_split_scope_id`; nothing where it raises. -/
def splitScopeId (s : PyStr) : Option (PyStr × Option ScopeId) :=
  if s.contains 37 then
    if h : after 37 s ≠ [] ∧ 37 ∉ after 37 s ∧ 47 ∉ after 37 s then
      some (before 37 s, some ⟨after 37 s, h⟩)
    else none
  else some (s, none)

/-- `IPv6Address(s)`; nothing where it raises. -/
def ofStr (s : PyStr) : Option IPv6Address :=
  if s.contains 47 then none
  else (splitScopeId s).bind fun parts => (ipv6FromString parts.1).bind (ofInt parts.2)

end IPv6Address

namespace IpAddress

/-- `str(address)`. -/
def str : IpAddress → PyStr
  | .v4 address => address.str
  | .v6 address => address.str

/-- `ip_address(s)`; nothing where it raises. -/
def ofStr (s : PyStr) : Option IpAddress :=
  match IPv4Address.ofStr s with
  | some address => some (.v4 address)
  | none => (IPv6Address.ofStr s).map .v6

end IpAddress

/-! ### Hextets -/

/-- Hexadecimal text has hexadecimal digits. -/
theorem hexText_chars {n : Nat} : ∀ c ∈ hexText n, ∃ d < 16, c = hexDigit d := by
  intro c hc
  unfold hexText at hc
  split at hc
  · exact ⟨0, by decide, List.mem_singleton.1 hc⟩
  · obtain ⟨d, hd, rfl⟩ := List.mem_map.1 hc
    exact ⟨d, Nat.digits_lt_base (by decide) (List.mem_reverse.1 hd), rfl⟩

/-- A number has a digit at least. -/
theorem hexText_ne_nil (n : Nat) : hexText n ≠ [] := by
  unfold hexText
  split
  · simp
  · rename_i hzero
    simpa [Nat.digits_eq_nil_iff_eq_zero] using hzero

/-- Hexadecimal digits are decimal ones and letters from `a` to `f`. -/
theorem hexText_range {n : Nat} : ∀ c ∈ hexText n, (48 ≤ c ∧ c ≤ 57) ∨ (97 ≤ c ∧ c ≤ 102) := by
  intro c hc
  obtain ⟨d, hd, rfl⟩ := hexText_chars c hc
  unfold hexDigit
  split <;> omega

/-- No separator is a hexadecimal digit. -/
theorem not_mem_hexText {n c : Nat} (hc : c < 48 ∨ (57 < c ∧ c < 97)) : c ∉ hexText n := by
  intro hmem
  have := hexText_range c hmem
  omega

/-- A hextet is read as it is written. -/
theorem parseHextet_hexText {n : Nat} (h : n < 65536) : parseHextet (hexText n) = some n := by
  have hlength : (hexText n).length ≤ 4 := by
    unfold hexText
    split
    · simp
    · rw [List.length_map, List.length_reverse]
      exact (Nat.digits_length_le_iff (by decide) n).2 (by norm_num; omega)
  unfold parseHextet
  rw [if_neg (by simp [hexText_ne_nil, hlength])]
  unfold hexText
  by_cases hzero : n = 0
  · rw [if_pos hzero, hzero]
    decide
  · have hread : ((Nat.digits 16 n).reverse.map hexDigit).mapM hexValue =
        some (Nat.digits 16 n).reverse := by
      refine mapM_texts ?_
      intro d hd
      exact JsonText.hexValue_hexDigit (Nat.digits_lt_base (by decide) (List.mem_reverse.1 hd))
    rw [if_neg hzero, hread, Option.map_some]
    have hvalue : ofGroups 16 (Nat.digits 16 n).reverse = n := by
      unfold ofGroups
      rw [List.foldl_reverse]
      have hfold := Nat.ofDigits_digits 16 n
      rw [Nat.ofDigits_eq_foldr] at hfold
      have hstep : (fun (d m : Nat) => m * 16 + d) = fun d m => (d : Nat) + 16 * m := by
        funext d m
        omega
      rw [hstep]
      exact hfold
    rw [hvalue]

/-! ### Runs of zeros -/

/-- A run of zeros of a list. -/
def ZeroRun (run : Nat × Nat) (hextets : List PyStr) : Prop :=
  ∃ high low, hextets = high ++ List.replicate run.2 [48] ++ low ∧ high.length = run.1

/-- A run of zeros stays one when a hextet follows. -/
theorem ZeroRun.snoc {run : Nat × Nat} {hextets : List PyStr} (h : ZeroRun run hextets)
    (hextet : PyStr) : ZeroRun run (hextets ++ [hextet]) := by
  obtain ⟨high, low, hsplit, hlength⟩ := h
  refine ⟨high, low ++ [hextet], ?_, hlength⟩
  rw [hsplit, List.append_assoc]

/-- The loop finds a run of zeros: the best so far is one, and the current one
goes on to the end. -/
theorem zeroRun_spec {best current : Nat × Nat} {hextets seen : List PyStr}
    (hbest : ZeroRun best seen)
    (hcurrent : ∃ high, seen = high ++ List.replicate current.2 [48] ∧
      (current.2 ≠ 0 → high.length = current.1)) :
    ZeroRun (zeroRun best current seen.length hextets) (seen ++ hextets) := by
  induction hextets generalizing best current seen with
  | nil =>
      rw [List.append_nil]
      exact hbest
  | cons h rest ih =>
      have hlength : seen.length + 1 = (seen ++ [h]).length := by simp
      have hjoin : seen ++ h :: rest = (seen ++ [h]) ++ rest := by simp
      unfold zeroRun
      rw [hjoin, hlength]
      by_cases hzero : h = [48]
      · rw [if_pos hzero]
        obtain ⟨high, hseen, hstart⟩ := hcurrent
        have hnow : seen ++ [h] = high ++ List.replicate (current.2 + 1) [48] := by
          rw [hseen, hzero, List.append_assoc, ← List.replicate_succ']
        have hhigh : high.length = if current.2 = 0 then seen.length else current.1 := by
          by_cases hnone : current.2 = 0
          · rw [if_pos hnone, hseen, hnone]
            simp
          · rw [if_neg hnone]
            exact hstart hnone
        refine ih ?_ ⟨high, hnow, fun _ => hhigh⟩
        by_cases hbetter : best.2 < current.2 + 1
        · rw [if_pos hbetter]
          exact ⟨high, [], by rw [hnow, List.append_nil], hhigh⟩
        · rw [if_neg hbetter]
          exact hbest.snoc h
      · rw [if_neg hzero]
        exact ih (hbest.snoc h) ⟨seen ++ [h], by simp, fun hne => absurd rfl hne⟩

/-- What the scan has found is a run of zeros. -/
theorem zeroRun_run (hextets : List PyStr) :
    ZeroRun (zeroRun (0, 0) (0, 0) 0 hextets) hextets := by
  have h : ZeroRun (0, 0) ([] : List PyStr) := ⟨[], [], rfl, rfl⟩
  have hrun : ZeroRun (zeroRun (0, 0) (0, 0) ([] : List PyStr).length hextets) ([] ++ hextets) :=
    zeroRun_spec h ⟨[], rfl, fun hne => absurd rfl hne⟩
  exact hrun

/-! ### Reading the text back -/

/-- One side of `::` as it stands among the parts. -/
def outerSide (side : List PyStr) : List PyStr := if side = [] then [[]] else side

/-- An outer side has a part at least. -/
theorem length_outerSide (side : List PyStr) : 1 ≤ (outerSide side).length := by
  unfold outerSide
  split
  · simp
  · rename_i hne
    exact List.length_pos_iff.2 hne

/-- The compressed hextets are the hextets, or leave out a run of zeros. -/
theorem compressHextets_cases (hextets : List PyStr) :
    compressHextets hextets = hextets ∨ ∃ high n low, 1 < n ∧
      hextets = high ++ List.replicate n [48] ++ low ∧
      compressHextets hextets = outerSide high ++ [[]] ++ outerSide low := by
  unfold compressHextets
  obtain ⟨high, low, hsplit, hhigh⟩ := zeroRun_run hextets
  generalize zeroRun (0, 0) (0, 0) 0 hextets = best at hsplit hhigh
  dsimp only
  by_cases hlong : 1 < best.2
  · rw [if_pos hlong]
    refine Or.inr ⟨high, best.2, low, hlong, hsplit, ?_⟩
    have htake : hextets.take best.1 = high := by
      rw [hsplit, List.append_assoc, ← hhigh, List.take_left]
    have hdrop : hextets.drop (best.1 + best.2) = low := by
      rw [hsplit]
      refine List.drop_left' ?_
      rw [List.length_append, List.length_replicate, hhigh]
    have hlength : hextets.length = best.1 + best.2 + low.length := by
      rw [hsplit, List.length_append, List.length_append, List.length_replicate, hhigh]
    rw [htake, hdrop, hlength]
    have hleft : (if best.1 = 0 then [[]] else []) ++ high = outerSide high := by
      unfold outerSide
      by_cases hnone : high = []
      · rw [← hhigh, hnone]
        rfl
      · have hsome : best.1 ≠ 0 := by
          rw [← hhigh]
          exact (List.length_pos_iff.2 hnone).ne'
        rw [if_neg hsome, if_neg hnone]
        rfl
    have hright : low ++ (if best.1 + best.2 = best.1 + best.2 + low.length then [[]] else []) =
        outerSide low := by
      unfold outerSide
      by_cases hnone : low = []
      · rw [hnone]
        simp
      · have hsome : low.length ≠ 0 := (List.length_pos_iff.2 hnone).ne'
        rw [if_neg (by omega), if_neg hnone, List.append_nil]
    rw [hleft, hright]
  · rw [if_neg hlong]
    exact Or.inl rfl

/-- A left side is taken back from the parts. -/
theorem sideOf_head {side rest : List PyStr} (h : [] ∉ side) :
    sideOf (outerSide side ++ rest).head? (outerSide side) = some side := by
  unfold outerSide sideOf
  cases side with
  | nil => rfl
  | cons p ps =>
      have hp : p ≠ [] := fun hnone => h (hnone ▸ List.mem_cons_self)
      simp [hp]

/-- A right side is taken back from the parts. -/
theorem sideOf_last {side rest : List PyStr} (h : [] ∉ side) :
    sideOf (rest ++ outerSide side).getLast? (outerSide side) = some side := by
  have hne : outerSide side ≠ [] := List.length_pos_iff.1 (length_outerSide side)
  rw [List.getLast?_append_of_ne_nil _ hne]
  unfold outerSide sideOf
  cases side with
  | nil => rfl
  | cons p ps =>
      have hlast : (p :: ps).getLast? ≠ some [] := fun hlast => h (List.mem_of_getLast? hlast)
      simp only [List.cons_ne_nil, if_false, if_neg hlast]

/-- Parts with `::` among them are the hextets around the zeros. -/
theorem ipv6FromParts_skip {high low : List PyStr} (hhigh : [] ∉ high) (hlow : [] ∉ low)
    (hlength : high.length + low.length < 7) :
    ipv6FromParts (outerSide high ++ [[]] ++ outerSide low) =
      ofHextets high (8 - (high.length + low.length)) low := by
  have hbound : ∀ {side : List PyStr}, (outerSide side).length ≤ side.length + 1 := by
    intro side
    unfold outerSide
    split <;> simp
  obtain ⟨p, ps, hfront⟩ := List.exists_cons_of_length_pos (length_outerSide high)
  have hback : outerSide low ≠ [] := List.length_pos_iff.1 (length_outerSide low)
  have hinner : (outerSide high ++ [[]] ++ outerSide low).tail.dropLast =
      ps ++ [[]] ++ (outerSide low).dropLast := by
    rw [hfront, List.cons_append, List.cons_append, List.tail_cons,
      List.dropLast_append_of_ne_nil hback]
  have hleft : [] ∉ ps := by
    unfold outerSide at hfront
    split at hfront
    · obtain ⟨-, rfl⟩ := List.cons.inj hfront
      exact List.not_mem_nil
    · rw [hfront] at hhigh
      exact fun hmem => hhigh (List.mem_cons_of_mem _ hmem)
  have hright : [] ∉ (outerSide low).dropLast := by
    unfold outerSide
    split
    · exact List.not_mem_nil
    · exact fun hmem => hlow (List.dropLast_subset _ hmem)
  have hcount : (ps ++ [[]] ++ (outerSide low).dropLast).count [] = 1 := by
    rw [List.count_append, List.count_append, List.count_eq_zero_of_not_mem hleft,
      List.count_eq_zero_of_not_mem hright]
    rfl
  have hskip : (ps ++ [[]] ++ (outerSide low).dropLast).idxOf [] + 1 = (outerSide high).length := by
    rw [List.append_assoc, List.idxOf_append_of_notMem hleft, hfront]
    simp
  have htotal : ¬ 9 < (outerSide high ++ [[]] ++ outerSide low).length := by
    have h1 : (outerSide high).length ≤ high.length + 1 := hbound
    have h2 : (outerSide low).length ≤ low.length + 1 := hbound
    simp only [List.length_append, List.length_singleton]
    omega
  have htake : (outerSide high ++ [[]] ++ outerSide low).take (outerSide high).length =
      outerSide high := by
    rw [List.append_assoc, List.take_left]
  have hdrop : (outerSide high ++ [[]] ++ outerSide low).drop ((outerSide high).length + 1) =
      outerSide low := List.drop_left' (by simp)
  unfold ipv6FromParts
  dsimp only
  rw [hinner, hcount, hskip, htake, hdrop, if_neg (not_or.2 ⟨htotal, by decide⟩), if_pos rfl,
    List.append_assoc, sideOf_head hhigh, ← List.append_assoc, sideOf_last hlow]
  simp only [Option.bind_some]
  rw [if_pos (by omega)]

/-- Eight parts that are not empty are all the hextets. -/
theorem ipv6FromParts_all {parts : List PyStr} (h : [] ∉ parts) (hlength : parts.length = 8) :
    ipv6FromParts parts = ofHextets parts 0 [] := by
  have hnone : [] ∉ parts.tail.dropLast :=
    fun hmem => h (List.mem_of_mem_tail (List.dropLast_subset _ hmem))
  unfold ipv6FromParts
  dsimp only
  rw [List.count_eq_zero_of_not_mem hnone, hlength]
  simp

/-- Different hextets are written differently. -/
theorem hexText_inj {m n : Nat} (hm : m < 65536) (hn : n < 65536) (h : hexText m = hexText n) :
    m = n := by
  refine Option.some.inj ?_
  rw [← parseHextet_hexText hm, ← parseHextet_hexText hn, h]

/-- The hextets of a number, with a run of zeros left out or not, are read as
the number. -/
theorem ofHextets_hexTexts {high low : List PyStr} {values : List Nat} {n : Nat}
    (hvalues : ∀ v ∈ values, v < 65536)
    (hsplit : values.map hexText = high ++ List.replicate n [48] ++ low) :
    ofHextets high n low = some (ofGroups 65536 values) := by
  obtain ⟨front, lows, rfl, hfront, hlows⟩ := List.map_eq_append_iff.1 hsplit
  obtain ⟨highs, zeros, rfl, hhighs, hzeros⟩ := List.map_eq_append_iff.1 hfront
  have hread : ∀ {vs : List Nat}, (∀ v ∈ vs, v < 65536) →
      (vs.map hexText).mapM parseHextet = some vs := by
    intro vs hvs
    exact mapM_texts fun v hv => parseHextet_hexText (hvs v hv)
  have hhigh : ∀ v ∈ highs, v < 65536 := fun v hv => hvalues v (by simp [hv])
  have hlow : ∀ v ∈ lows, v < 65536 := fun v hv => hvalues v (by simp [hv])
  have hzero : zeros = List.replicate n 0 := by
    refine List.eq_replicate_iff.2 ⟨?_, ?_⟩
    · have := congrArg List.length hzeros
      rwa [List.length_map, List.length_replicate] at this
    · intro v hv
      have htext : hexText v ∈ List.replicate n [48] := by
        rw [← hzeros]
        exact List.mem_map_of_mem hv
      exact hexText_inj (hvalues v (by simp [hv])) (by decide) (List.eq_of_mem_replicate htext)
  unfold ofHextets
  rw [← hhighs, ← hlows, hread hhigh, hread hlow, hzero]
  rfl

/-- The parts of a text that is all hextets and colons. -/
structure HexParts (parts : List PyStr) : Prop where
  chars : ∀ p ∈ parts, 46 ∉ p ∧ 58 ∉ p
  length : 3 ≤ parts.length

/-- Parts joined by colons are read as these parts. -/
theorem HexParts.read {parts : List PyStr} (h : HexParts parts) :
    ipv6FromString (PyStr.join [58] parts) = ipv6FromParts parts := by
  have hne : parts ≠ [] := List.length_pos_iff.1 (by have := h.length; omega)
  have hsplit := PyStr.split_join hne fun p hp => (h.chars p hp).2
  have hsuffix : expandSuffix parts = some parts := by
    unfold expandSuffix
    rw [List.getLast?_eq_some_getLast hne, Option.getD_some]
    have hdot := (h.chars _ (List.getLast_mem hne)).1
    rw [if_neg (by simpa using hdot)]
  unfold ipv6FromString
  rw [hsplit, hsuffix, if_neg (by have := h.length; omega), Option.bind_some]

namespace IPv6Address

variable (address : IPv6Address)

/-- The compressed hextets are parts that are read as the address. -/
theorem hexParts : HexParts (compressHextets ((groups 65536 8 address.ip).map hexText)) ∧
    ipv6FromParts (compressHextets ((groups 65536 8 address.ip).map hexText)) =
      some address.ip := by
  have hvalues := groups_lt (by decide : 0 < 65536) 8 address.ip
  have hlength : ((groups 65536 8 address.ip).map hexText).length = 8 := by
    rw [List.length_map, length_groups]
  have hvalue : ofGroups 65536 (groups 65536 8 address.ip) = address.ip :=
    ofGroups_groups 8 address.ip (by have := address.bound; norm_num at this ⊢; exact this)
  have hchars : ∀ p ∈ (groups 65536 8 address.ip).map hexText, 46 ∉ p ∧ 58 ∉ p ∧ p ≠ [] := by
    intro p hp
    obtain ⟨v, -, rfl⟩ := List.mem_map.1 hp
    exact ⟨not_mem_hexText (by omega), not_mem_hexText (by omega), hexText_ne_nil v⟩
  obtain hsame | ⟨high, n, low, hn, hsplit, hcompress⟩ :=
    compressHextets_cases ((groups 65536 8 address.ip).map hexText)
  · rw [hsame]
    refine ⟨⟨fun p hp => ⟨(hchars p hp).1, (hchars p hp).2.1⟩, by omega⟩, ?_⟩
    rw [ipv6FromParts_all (fun hmem => (hchars [] hmem).2.2 rfl) hlength,
      ofHextets_hexTexts (n := 0) hvalues (by simp), hvalue]
  · have hsides : ∀ p, p ∈ high ∨ p ∈ low → 46 ∉ p ∧ 58 ∉ p ∧ p ≠ [] := by
      intro p hp
      refine hchars p ?_
      rw [hsplit, List.mem_append, List.mem_append]
      obtain hp | hp := hp
      · exact Or.inl (Or.inl hp)
      · exact Or.inr hp
    have htotal : high.length + n + low.length = 8 := by
      rw [hsplit, List.length_append, List.length_append, List.length_replicate] at hlength
      exact hlength
    have hskip := ipv6FromParts_skip (fun hmem => (hsides [] (Or.inl hmem)).2.2 rfl)
      (fun hmem => (hsides [] (Or.inr hmem)).2.2 rfl) (by omega : high.length + low.length < 7)
    have houter : ∀ {side : List PyStr} (p : PyStr), p ∈ outerSide side → p = [] ∨ p ∈ side := by
      intro side p hp
      unfold outerSide at hp
      split at hp
      · exact Or.inl (List.mem_singleton.1 hp)
      · exact Or.inr hp
    have hempty : 46 ∉ ([] : PyStr) ∧ 58 ∉ ([] : PyStr) := ⟨List.not_mem_nil, List.not_mem_nil⟩
    rw [hcompress]
    refine ⟨⟨?_, ?_⟩, ?_⟩
    · intro p hp
      have hcases : p = [] ∨ p ∈ high ∨ p ∈ low := by
        rw [List.mem_append, List.mem_append, List.mem_singleton] at hp
        obtain (hp | hp) | hp := hp
        · exact (houter p hp).imp_right Or.inl
        · exact Or.inl hp
        · exact (houter p hp).imp_right Or.inr
      obtain rfl | hside := hcases
      · exact hempty
      · exact ⟨(hsides p hside).1, (hsides p hside).2.1⟩
    · have h1 := length_outerSide high
      have h2 := length_outerSide low
      simp only [List.length_append, List.length_singleton]
      omega
    · have hcount : 8 - (high.length + low.length) = n := by omega
      rw [hskip, hcount, ofHextets_hexTexts hvalues hsplit, hvalue]

/-- The compressed text is read as the address. -/
theorem ipv6FromString_text : ipv6FromString address.text = some address.ip := by
  obtain ⟨hparts, hvalue⟩ := address.hexParts
  unfold text
  rw [hparts.read, hvalue]

/-- The part before the scope is hexadecimal digits and colons. -/
theorem text_range : ∀ c ∈ address.text, (48 ≤ c ∧ c ≤ 58) ∨ (97 ≤ c ∧ c ≤ 102) := by
  intro c hmem
  unfold text at hmem
  obtain hsep | ⟨p, hp, hmem⟩ := PyStr.mem_join hmem
  · have := List.mem_singleton.1 hsep
    omega
  · have hpart : p = [] ∨ p ∈ (groups 65536 8 address.ip).map hexText := by
      obtain hsame | ⟨high, n, low, -, hsplit, hcompress⟩ :=
        compressHextets_cases ((groups 65536 8 address.ip).map hexText)
      · exact Or.inr (hsame ▸ hp)
      · rw [hcompress, List.mem_append, List.mem_append, List.mem_singleton] at hp
        unfold outerSide at hp
        rw [hsplit]
        grind
    obtain rfl | hpart := hpart
    · cases hmem
    · obtain ⟨v, -, rfl⟩ := List.mem_map.1 hpart
      have := hexText_range c hmem
      omega

/-- No separator of the whole text is in the part before the scope. -/
theorem not_mem_text {c : Nat} (hc : c < 48 ∨ (58 < c ∧ c < 97)) : c ∉ address.text := by
  intro hmem
  have := address.text_range c hmem
  omega

/-- The scope is split off as it was written. -/
theorem splitScopeId_str : splitScopeId address.str = some (address.text, address.scopeId) := by
  have hpercent : 37 ∉ address.text := address.not_mem_text (by omega)
  unfold str splitScopeId
  cases hscope : address.scopeId with
  | none =>
      dsimp only
      rw [if_neg (by simpa using hpercent)]
  | some scope =>
      have hbefore := before_append hpercent scope.1
      have hafter := after_append_sep hpercent scope.1
      dsimp only
      rw [if_pos (by simp), hafter, hbefore, dif_pos scope.2]
      rfl

/-- **An IPv6 address is read as it is written.** -/
theorem ofStr_str : ofStr address.str = some address := by
  have hslash : 47 ∉ address.str := by
    have htext : 47 ∉ address.text := address.not_mem_text (by omega)
    unfold str
    split
    · exact htext
    · rename_i scope hscope
      rw [List.mem_append, List.mem_cons]
      rintro (hmem | hmem | hmem)
      · exact htext hmem
      · cases hmem
      · exact scope.2.2.2 hmem
  unfold ofStr
  rw [if_neg (by simpa using hslash), splitScopeId_str, Option.bind_some]
  dsimp only
  rw [ipv6FromString_text, Option.bind_some, ofInt, dif_pos address.bound]

/-- The text of an IPv6 address has a colon. -/
theorem colon_mem_str : 58 ∈ address.str := by
  have htext : 58 ∈ address.text := by
    obtain ⟨hparts, -⟩ := address.hexParts
    have hlength := hparts.length
    unfold text
    generalize compressHextets ((groups 65536 8 address.ip).map hexText) = parts at hlength
    match parts, hlength with
    | p :: q :: rest, _ =>
        rw [PyStr.join]
        simp
  unfold str
  split
  · exact htext
  · exact List.mem_append_left _ htext

end IPv6Address

/-- **`ip_address(str(address))` is the address.** -/
theorem IpAddress.ofStr_str (address : IpAddress) : ofStr address.str = some address := by
  cases address with
  | v4 address =>
      unfold ofStr str
      rw [IPv4Address.ofStr_str]
  | v6 address =>
      unfold ofStr str
      dsimp only
      rw [IPv4Address.ofStr_colon address.colon_mem_str, IPv6Address.ofStr_str]
      rfl

end Python
