import StockAnalyst.PendingBinding
import StockAnalyst.StringifyLoads

/-!
# The handshake of a funded job

The buyer writes its context once and signs that text with the job; the seller
checks the signature and reads the text.  What the seller works with is what
the buyer gave, field by field, and a context that is refused is one no valid
context agrees with.
-/

namespace NotifyAuth

open Python Js JsonText Deliverable NotifySecurity

/-! ## The buyer -/

/-- `NotifyOptions`.  The portfolio and the risk profile are what the memory
guard answered. -/
structure NotifyOptions where
  gatewayUrl : Option JsStr
  gatewayToken : Option JsStr
  portfolio : Option (List Value)
  riskProfile : Option Value

/-- Whether a condition on the value holds. -/
def truthy : Value → Bool
  | .null => false
  | .bool b => b
  | .num (.finite _ abs) => abs ≠ 0
  | .num (.inf _) => true
  | .num .nan => false
  | .str s => s ≠ []
  | .arr _ => true
  | .obj _ => true

/-- The assignment of a value that is truthy. -/
def contextEntry (key : JsStr) (value : Option Value) : List (JsStr × Value) :=
  (value.filter truthy).toList.map fun v => (key, v)

namespace NotifyOptions

variable (options : NotifyOptions)

/-- The portfolio, unless it has no length. -/
def holdings : Option (List Value) := options.portfolio.filter fun items => !items.isEmpty

/-- The object of `buildNotifyContext`. -/
def contextEntries : List (JsStr × Value) :=
  contextEntry (js "delivery_gateway_url") (options.gatewayUrl.map .str) ++
    contextEntry (js "delivery_gateway_token") (options.gatewayToken.map .str) ++
    contextEntry (js "portfolio") (options.holdings.map .arr) ++
    contextEntry (js "risk_profile") options.riskProfile

/-- Options a program can hold. -/
structure Held : Prop where
  gatewayUrl : ∀ url ∈ options.gatewayUrl, ∀ u ∈ url, u < 0x10000
  gatewayToken : ∀ token ∈ options.gatewayToken, ∀ u ∈ token, u < 0x10000
  portfolio : ∀ items ∈ options.portfolio, ∀ v ∈ items, v.Held
  riskProfile : ∀ v ∈ options.riskProfile, v.Held

end NotifyOptions

/-- `buildNotifyContext`. -/
def buildNotifyContext (numberText : PyFloat → JsStr) (options : NotifyOptions) : JsStr :=
  stringifyValue numberText (.obj options.contextEntries)

/-! ## What a context agrees with -/

/-- An object with the four fields of a holding, in any order. -/
inductive IsHolding (holding : Holding) : Value → Prop
  | mk {entries : List (JsStr × Value)} {symbol currency : JsStr} {shares avgCost : PyFloat}
      (fields : entries.Perm [(js "symbol", .str symbol), (js "shares", .num shares),
        (js "avgCost", .num avgCost), (js "currency", .str currency)])
      (symbol_eq : points symbol = holding.symbol)
      (currency_eq : points currency = holding.currency)
      (shares_eq : numOf shares = some holding.shares)
      (avgCost_eq : numOf avgCost = some holding.avgCost) : IsHolding holding (.obj entries)

/-- An object with the three fields of a risk profile, in any order. -/
inductive IsRiskProfile (profile : RiskProfile) : Value → Prop
  | mk {entries : List (JsStr × Value)} {tolerance : JsStr} {horizonMonths : PyFloat}
      {indicators : List JsStr}
      (fields : entries.Perm [(js "tolerance", .str tolerance),
        (js "horizonMonths", .num horizonMonths),
        (js "preferredIndicators", .arr (indicators.map .str))])
      (tolerance_eq : points tolerance = profile.tolerance)
      (horizonMonths_eq : numOf horizonMonths = some (.int profile.horizonMonths))
      (indicators_eq : indicators.map points = profile.preferredIndicators) :
      IsRiskProfile profile (.obj entries)

/-- A context with the data of the buyer's options. -/
structure Agrees (options : NotifyOptions) (context : JobContext) : Prop where
  gatewayUrl : context.gatewayUrl = (options.gatewayUrl.filter (· ≠ [])).map points
  gatewayToken : context.gatewayToken = (options.gatewayToken.filter (· ≠ [])).map points
  portfolio : List.Forall₂ IsHolding context.portfolio (options.portfolio.getD [])
  riskProfile : Option.Rel IsRiskProfile context.riskProfile (options.riskProfile.filter truthy)

/-! ## Objects with given fields -/

section fields

variable {α : Type} {entries fields : List (JsStr × α)}

/-- Entries are the given fields when they have no other keys and each field is
found. -/
theorem perm_fields_iff (hkeys : (entries.map (·.1)).Nodup) (hfields : (fields.map (·.1)).Nodup) :
    entries.Perm fields ↔
      (∀ e ∈ entries, e.1 ∈ fields.map (·.1)) ∧ ∀ f ∈ fields, entries.lookup f.1 = some f.2 := by
  constructor
  · intro hperm
    refine ⟨fun e he => List.mem_map_of_mem (hperm.mem_iff.1 he), ?_⟩
    intro f hf
    exact (mem_iff_lookup hkeys).1 (hperm.mem_iff.2 hf)
  · intro ⟨hkeysOf, hlookup⟩
    refine (List.perm_ext_iff_of_nodup hkeys.of_map hfields.of_map).2 ?_
    intro e
    constructor
    · intro he
      obtain ⟨f, hf, hkey⟩ := List.mem_map.1 (hkeysOf e he)
      have hfound := hlookup f hf
      rw [hkey, (mem_iff_lookup hkeys).1 he] at hfound
      have heq : f = e := Prod.ext hkey (Option.some.inj hfound).symm
      exact heq ▸ hf
    · intro he
      exact (mem_iff_lookup hkeys).2 (hlookup e he)

end fields

section carried

variable {number : PyFloat → Json} {entries : List (JsStr × Value)}

/-- A key is found under its code points. -/
theorem dictGet_carriedEntries (hunits : ∀ e ∈ entries, ∀ u ∈ e.1, u < 0x10000) {key : JsStr}
    (hkey : ∀ u ∈ key, u < 0x10000) :
    dictGet (carriedEntries number entries) (points key) =
      (entries.lookup key).map (carried number) := by
  rw [dictGet, carriedEntries_eq_map]
  exact lookup_points (carried number) hunits hkey

/-- Python checks the keys of an object as the client names them. -/
theorem hasKeys_carriedEntries (hunits : ∀ e ∈ entries, ∀ u ∈ e.1, u < 0x10000)
    {keys : List JsStr} (hascii : ∀ key ∈ keys, (∀ u ∈ key, u < 0x10000) ∧ points key = key) :
    hasKeys (carriedEntries number entries) keys = true ↔
      (∀ key ∈ keys, key ∈ entries.map (·.1)) ∧ ∀ e ∈ entries, e.1 ∈ keys := by
  have hmem : ∀ key ∈ keys, ∀ e ∈ entries, points e.1 = key ↔ e.1 = key := by
    intro key hkey e he
    obtain ⟨hlt, hpoints⟩ := hascii key hkey
    refine ⟨fun h => points_inj (hunits e he) hlt (h.trans hpoints.symm), ?_⟩
    intro h
    rw [h, hpoints]
  rw [hasKeys, carriedEntries_eq_map, Bool.and_eq_true, List.all_eq_true, List.all_eq_true]
  refine and_congr (forall₂_congr fun key hkey => ?_) ?_
  · rw [List.contains_iff_mem, List.map_map]
    constructor
    · intro h
      obtain ⟨e, he, heq⟩ := List.mem_map.1 h
      exact List.mem_map.2 ⟨e, he, (hmem key hkey e he).1 heq⟩
    · intro h
      obtain ⟨e, he, heq⟩ := List.mem_map.1 h
      exact List.mem_map.2 ⟨e, he, (hmem key hkey e he).2 heq⟩
  · rw [List.forall_mem_map]
    refine forall₂_congr fun e he => ?_
    rw [List.contains_iff_mem]
    constructor
    · intro h
      exact (hmem _ h e he).1 rfl ▸ h
    · intro h
      have hpoints : points e.1 = e.1 := (hmem _ h e he).2 rfl
      exact (congrArg (· ∈ keys) hpoints).mpr h

end carried

/-! ## Holdings and risk profiles -/

section parsed

variable {codec : Codec} {numberText : PyFloat → JsStr}

/-- What is read of a number is a number or nothing. -/
theorem numberJson_scalar (hreads : NumberReads codec numberText) {x : PyFloat}
    (hx : (Value.num x).Held) :
    numberJson codec numberText x = .null ∨ (∃ i, numberJson codec numberText x = .int i) ∨
      ∃ y, numberJson codec numberText x = .float y := by
  cases hx with
  | inf => exact Or.inl rfl
  | nan => exact Or.inl rfl
  | @finite neg abs hdouble =>
      obtain ⟨h, -⟩ | ⟨-, h⟩ | ⟨-, -, i, -, h⟩ := @numberJson_cases _ _ hreads neg _ hdouble
      · exact Or.inr (Or.inl ⟨_, numberJson_eq h⟩)
      · exact Or.inr (Or.inr ⟨_, numberJson_eq h⟩)
      · exact Or.inr (Or.inl ⟨_, numberJson_eq h⟩)

/-- A string comes of a string. -/
theorem carried_eq_str (hreads : NumberReads codec numberText) {v : Value} (hv : v.Held)
    {s : PyStr} : carried (numberJson codec numberText) v = .str s ↔
      ∃ t, v = .str t ∧ points t = s := by
  cases v with
  | num x =>
      obtain h | ⟨i, h⟩ | ⟨y, h⟩ := numberJson_scalar hreads hv <;> simp [carried, h]
  | _ => simp [carried]

/-- A list comes of an array. -/
theorem carried_eq_arr (hreads : NumberReads codec numberText) {v : Value} (hv : v.Held)
    {items : List Json} : carried (numberJson codec numberText) v = .arr items ↔
      ∃ vs, v = .arr vs ∧ carriedItems (numberJson codec numberText) vs = items := by
  cases v with
  | num x =>
      obtain h | ⟨i, h⟩ | ⟨y, h⟩ := numberJson_scalar hreads hv <;> simp [carried, h]
  | _ => simp [carried]

/-- A number within the limits comes of that number. -/
theorem finiteNumber_carried (hreads : NumberReads codec numberText) {v : Value} (hv : v.Held)
    {n : NotifySecurity.Num} (hn : |n.value| < 2 ^ 53) :
    finiteNumber (carried (numberJson codec numberText) v) = some n ↔
      ∃ x, v = .num x ∧ numOf x = some n := by
  cases v with
  | num x => simp [carried, finiteNumber_numberJson hreads hv hn]
  | _ => simp [carried, finiteNumber]

section lookups

variable {entries : List (JsStr × Value)} {key : JsStr}

/-- Python finds a string under a key where the client has put one. -/
theorem lookup_str (hreads : NumberReads codec numberText) (heach : ∀ e ∈ entries, e.2.Held)
    {s : PyStr} :
    (entries.lookup key).map (carried (numberJson codec numberText)) = some (.str s) ↔
      ∃ t, entries.lookup key = some (.str t) ∧ points t = s := by
  rw [Option.map_eq_some_iff]
  constructor
  · intro ⟨v, hlookup, hv⟩
    obtain ⟨t, rfl, ht⟩ := (carried_eq_str hreads (heach _ (mem_of_lookup hlookup))).1 hv
    exact ⟨t, hlookup, ht⟩
  · intro ⟨t, hlookup, ht⟩
    exact ⟨_, hlookup, by rw [carried, ht]⟩

/-- Python finds a list under a key where the client has put one. -/
theorem lookup_arr (hreads : NumberReads codec numberText) (heach : ∀ e ∈ entries, e.2.Held)
    {items : List Json} :
    (entries.lookup key).map (carried (numberJson codec numberText)) = some (.arr items) ↔
      ∃ vs, entries.lookup key = some (.arr vs) ∧
        carriedItems (numberJson codec numberText) vs = items := by
  rw [Option.map_eq_some_iff]
  constructor
  · intro ⟨v, hlookup, hv⟩
    obtain ⟨vs, rfl, hvs⟩ := (carried_eq_arr hreads (heach _ (mem_of_lookup hlookup))).1 hv
    exact ⟨vs, hlookup, hvs⟩
  · intro ⟨vs, hlookup, hvs⟩
    exact ⟨_, hlookup, by rw [carried, hvs]⟩

/-- Python finds a small number under a key where the client has put it. -/
theorem lookup_num (hreads : NumberReads codec numberText) (heach : ∀ e ∈ entries, e.2.Held)
    {n : NotifySecurity.Num} (hn : |n.value| < 2 ^ 53) :
    ((entries.lookup key).map (carried (numberJson codec numberText))).bind finiteNumber =
        some n ↔
      ∃ x, entries.lookup key = some (.num x) ∧ numOf x = some n := by
  constructor
  · intro h
    obtain ⟨j, hj, h⟩ := Option.bind_eq_some_iff.1 h
    obtain ⟨v, hlookup, rfl⟩ := Option.map_eq_some_iff.1 hj
    obtain ⟨x, rfl, hx⟩ :=
      (finiteNumber_carried hreads (heach _ (mem_of_lookup hlookup)) hn).1 h
    exact ⟨x, hlookup, hx⟩
  · intro ⟨x, hlookup, hx⟩
    rw [hlookup, Option.map_some, Option.bind_some]
    exact (finiteNumber_carried hreads (heach _ (mem_of_lookup hlookup)) hn).2 ⟨x, rfl, hx⟩

end lookups

/-- ASCII keys are their own code points. -/
theorem ascii_keys {keys : List JsStr} (h : ∀ key ∈ keys, ∀ c ∈ key, c < 0x80) :
    ∀ key ∈ keys, (∀ u ∈ key, u < 0x10000) ∧ points key = key := by
  intro key hkey
  have hascii := h key hkey
  refine ⟨fun u hu => ?_, points_ascii hascii⟩
  have := hascii u hu
  omega

/-- A number within the limits is exact in both languages. -/
theorem abs_lt_of_limits {x : ℚ} (hlow : 0 ≤ x) (hhigh : x ≤ maxValue) : |x| < 2 ^ 53 := by
  have hmax : maxValue < 2 ^ 53 := by
    rw [maxValue]
    norm_num
  rw [abs_of_nonneg hlow]
  exact lt_of_le_of_lt hhigh hmax

def holdingKeys : List JsStr := [js "symbol", js "shares", js "avgCost", js "currency"]

/-- The keys of a holding are ASCII. -/
theorem ascii_holdingKeys :
    ∀ key ∈ holdingKeys, (∀ u ∈ key, u < 0x10000) ∧ points key = key :=
  ascii_keys (by decide)

/-- The value under a key of a read object. -/
theorem dictGet_ascii {number : PyFloat → Json} {entries : List (JsStr × Value)}
    (hunits : ∀ e ∈ entries, ∀ u ∈ e.1, u < 0x10000) {key : JsStr}
    (hkey : (∀ u ∈ key, u < 0x10000) ∧ points key = key) :
    dictGet (carriedEntries number entries) key = (entries.lookup key).map (carried number) := by
  have h := @dictGet_carriedEntries number entries hunits key hkey.1
  rwa [hkey.2] at h

/-- **A holding is read field by field**: Python takes it exactly where the
client's fields are its fields. -/
theorem holding_fields (hreads : NumberReads codec numberText) {entries : List (JsStr × Value)}
    (hunits : ∀ e ∈ entries, ∀ u ∈ e.1, u < 0x10000) (hkeys : (entries.map (·.1)).Nodup)
    (heach : ∀ e ∈ entries, e.2.Held) (holding : Holding)
    (hshares : |holding.shares.value| < 2 ^ 53) (hcost : |holding.avgCost.value| < 2 ^ 53) :
    hasKeys (carriedEntries (numberJson codec numberText) entries) holdingKeys = true ∧
        dictGet (carriedEntries (numberJson codec numberText) entries) (js "symbol") =
          some (.str holding.symbol) ∧
        dictGet (carriedEntries (numberJson codec numberText) entries) (js "currency") =
          some (.str holding.currency) ∧
        (dictGet (carriedEntries (numberJson codec numberText) entries) (js "shares")).bind
          finiteNumber = some holding.shares ∧
        (dictGet (carriedEntries (numberJson codec numberText) entries) (js "avgCost")).bind
          finiteNumber = some holding.avgCost ↔
      IsHolding holding (.obj entries) := by
  have hascii := ascii_holdingKeys
  have hfields : ∀ a b c d : Value, (([(js "symbol", a), (js "shares", b), (js "avgCost", c),
      (js "currency", d)] : List (JsStr × Value)).map (·.1)).Nodup := by
    intro a b c d
    show holdingKeys.Nodup
    decide
  rw [hasKeys_carriedEntries hunits hascii, dictGet_ascii hunits (hascii _ (by decide)),
    dictGet_ascii hunits (hascii _ (by decide)), dictGet_ascii hunits (hascii _ (by decide)),
    dictGet_ascii hunits (hascii _ (by decide)), lookup_str hreads heach,
    lookup_str hreads heach, lookup_num hreads heach hshares, lookup_num hreads heach hcost]
  constructor
  · intro ⟨⟨_, hsub⟩, ⟨symbol, hsymbol, hs⟩, ⟨currency, hcurrency, hc⟩, ⟨shares, hsharesAt, hn⟩,
      ⟨avgCost, hcostAt, ha⟩⟩
    refine .mk ((perm_fields_iff hkeys (hfields _ _ _ _)).2 ⟨hsub, ?_⟩) hs hc hn ha
    simp only [List.forall_mem_cons, List.not_mem_nil, false_implies, implies_true, and_true]
    exact ⟨hsymbol, hsharesAt, hcostAt, hcurrency⟩
  · intro h
    cases h with
    | mk fields hs hc hn ha =>
        obtain ⟨hsub, hlookup⟩ := (perm_fields_iff hkeys (hfields _ _ _ _)).1 fields
        simp only [List.forall_mem_cons, List.not_mem_nil, false_implies, implies_true,
          and_true] at hlookup
        obtain ⟨hsymbol, hsharesAt, hcostAt, hcurrency⟩ := hlookup
        refine ⟨⟨?_, hsub⟩, ⟨_, hsymbol, hs⟩, ⟨_, hcurrency, hc⟩, ⟨_, hsharesAt, hn⟩,
          ⟨_, hcostAt, ha⟩⟩
        intro key hkey
        exact (fields.map (·.1)).mem_iff.2 hkey

/-- A holding is accepted as an object with its four fields. -/
theorem parseHolding_carried (hreads : NumberReads codec numberText) {v : Value} (hv : v.Held)
    {holding : Holding} :
    parseHolding (carried (numberJson codec numberText) v) = some holding ↔
      IsHolding holding v := by
  have hother : (∀ entries, v ≠ .obj entries) → ¬ IsHolding holding v := by
    intro hne h
    cases h with
    | mk fields => exact hne _ rfl
  cases v with
  | obj entries =>
      cases hv with
      | obj hunits hkeys heach =>
          rw [carried, parseHolding_iff]
          exact holding_fields hreads hunits hkeys heach holding
            (abs_lt_of_limits holding.shares_ok.1.le holding.shares_ok.2)
            (abs_lt_of_limits holding.avgCost_ok.1 holding.avgCost_ok.2)
  | num x =>
      refine iff_of_false ?_ (hother (by simp))
      obtain h | ⟨i, h⟩ | ⟨y, h⟩ := numberJson_scalar hreads hv <;> simp [carried, h, parseHolding]
  | _ => exact iff_of_false (by simp [carried, parseHolding]) (hother (by simp))

def riskProfileKeys : List JsStr := [js "tolerance", js "horizonMonths", js "preferredIndicators"]

/-- The keys of a risk profile are ASCII. -/
theorem ascii_riskProfileKeys :
    ∀ key ∈ riskProfileKeys, (∀ u ∈ key, u < 0x10000) ∧ points key = key :=
  ascii_keys (by decide)

/-- The strings of a read array come of strings. -/
theorem strItems_carriedItems (hreads : NumberReads codec numberText) {vs : List Value}
    (hvs : ∀ v ∈ vs, v.Held) {texts : List PyStr} :
    strItems (carriedItems (numberJson codec numberText) vs) = some texts ↔
      ∃ indicators : List JsStr, vs = indicators.map .str ∧ indicators.map points = texts := by
  rw [strItems, mapM_eq_some_iff, carriedItems_eq_map, List.forall₂_map_left_iff]
  constructor
  · intro h
    induction h with
    | nil => exact ⟨[], rfl, rfl⟩
    | @cons v text vs texts hv _ ih =>
        obtain ⟨hheld, hrest⟩ := List.forall_mem_cons.1 hvs
        obtain ⟨indicators, rfl, rfl⟩ := ih hrest
        have hstr : carried (numberJson codec numberText) v = .str text := by
          split at hv
          · rename_i s hs
            rw [hs, Option.some.inj hv]
          · cases hv
        obtain ⟨t, rfl, rfl⟩ := (carried_eq_str hreads hheld).1 hstr
        exact ⟨t :: indicators, rfl, rfl⟩
  · intro h
    obtain ⟨indicators, rfl, rfl⟩ := h
    rw [List.forall₂_map_left_iff, List.forall₂_map_right_iff]
    exact List.forall₂_same.2 fun _ _ => rfl

/-- **A risk profile is read field by field**, as a holding is. -/
theorem riskProfile_fields (hreads : NumberReads codec numberText)
    {entries : List (JsStr × Value)} (hunits : ∀ e ∈ entries, ∀ u ∈ e.1, u < 0x10000)
    (hkeys : (entries.map (·.1)).Nodup) (heach : ∀ e ∈ entries, e.2.Held)
    (profile : RiskProfile)
    (hmonths : |(NotifySecurity.Num.int profile.horizonMonths).value| < 2 ^ 53) :
    hasKeys (carriedEntries (numberJson codec numberText) entries) riskProfileKeys = true ∧
        dictGet (carriedEntries (numberJson codec numberText) entries) (js "tolerance") =
          some (.str profile.tolerance) ∧
        dictGet (carriedEntries (numberJson codec numberText) entries) (js "horizonMonths") =
          some (.int profile.horizonMonths) ∧
        (∃ items,
          dictGet (carriedEntries (numberJson codec numberText) entries)
            (js "preferredIndicators") = some (.arr items) ∧
          strItems items = some profile.preferredIndicators) ↔
      IsRiskProfile profile (.obj entries) := by
  have hascii := ascii_riskProfileKeys
  have hfields : ∀ a b c : Value, (([(js "tolerance", a), (js "horizonMonths", b),
      (js "preferredIndicators", c)] : List (JsStr × Value)).map (·.1)).Nodup := by
    intro a b c
    show riskProfileKeys.Nodup
    decide
  have hint : ∀ j : Option Json, j = some (.int profile.horizonMonths) ↔
      j.bind finiteNumber = some (.int profile.horizonMonths) := by
    intro j
    simp [Option.bind_eq_some_iff, finiteNumber_eq_int]
  rw [hasKeys_carriedEntries hunits hascii, dictGet_ascii hunits (hascii _ (by decide)),
    dictGet_ascii hunits (hascii _ (by decide)), dictGet_ascii hunits (hascii _ (by decide)),
    lookup_str hreads heach, hint, lookup_num hreads heach hmonths]
  constructor
  · intro ⟨⟨_, hsub⟩, ⟨tolerance, htolerance, ht⟩, ⟨months, hmonthsAt, hm⟩, items, hitems, hs⟩
    obtain ⟨vs, hvs, rfl⟩ := (lookup_arr hreads heach).1 hitems
    have hheld : ∀ v ∈ vs, v.Held := by
      cases heach _ (mem_of_lookup hvs) with
      | arr each => exact each
    obtain ⟨indicators, rfl, hi⟩ := (strItems_carriedItems hreads hheld).1 hs
    refine .mk ((perm_fields_iff hkeys (hfields _ _ _)).2 ⟨hsub, ?_⟩) ht hm hi
    simp only [List.forall_mem_cons, List.not_mem_nil, false_implies, implies_true, and_true]
    exact ⟨htolerance, hmonthsAt, hvs⟩
  · intro h
    cases h with
    | @mk _ _ _ indicators fields ht hm hi =>
        obtain ⟨hsub, hlookup⟩ := (perm_fields_iff hkeys (hfields _ _ _)).1 fields
        simp only [List.forall_mem_cons, List.not_mem_nil, false_implies, implies_true,
          and_true] at hlookup
        obtain ⟨htolerance, hmonthsAt, hvs⟩ := hlookup
        have hheld : ∀ v ∈ indicators.map Value.str, v.Held := by
          cases heach _ (mem_of_lookup hvs) with
          | arr each => exact each
        refine ⟨⟨?_, hsub⟩, ⟨_, htolerance, ht⟩, ⟨_, hmonthsAt, hm⟩, _,
          (lookup_arr hreads heach).2 ⟨_, hvs, rfl⟩,
          (strItems_carriedItems hreads hheld).2 ⟨_, rfl, hi⟩⟩
        intro key hkey
        exact (fields.map (·.1)).mem_iff.2 hkey

/-- A risk profile is accepted as an object with its three fields. -/
theorem parseRiskProfile_carried (hreads : NumberReads codec numberText) {v : Value}
    (hv : v.Held) {profile : RiskProfile} :
    parseRiskProfile (carried (numberJson codec numberText) v) = some profile ↔
      IsRiskProfile profile v := by
  have hother : (∀ entries, v ≠ .obj entries) → ¬ IsRiskProfile profile v := by
    intro hne h
    cases h with
    | mk fields => exact hne _ rfl
  cases v with
  | obj entries =>
      cases hv with
      | obj hunits hkeys heach =>
          have hlow : (0 : ℚ) ≤ (NotifySecurity.Num.int profile.horizonMonths).value := by
            have := profile.horizonMonths_ok.1
            rw [NotifySecurity.Num.value]
            exact_mod_cast (show (0 : Int) ≤ profile.horizonMonths by omega)
          have hhigh : (NotifySecurity.Num.int profile.horizonMonths).value ≤ maxValue := by
            have := profile.horizonMonths_ok.2
            rw [maxValue, NotifySecurity.Num.value]
            exact_mod_cast (show profile.horizonMonths ≤ 10 ^ 12 by omega)
          rw [carried, parseRiskProfile_iff]
          exact riskProfile_fields hreads hunits hkeys heach profile
            (abs_lt_of_limits hlow hhigh)
  | num x =>
      refine iff_of_false ?_ (hother (by simp))
      obtain h | ⟨i, h⟩ | ⟨y, h⟩ := numberJson_scalar hreads hv <;>
        simp [carried, h, parseRiskProfile]
  | _ => exact iff_of_false (by simp [carried, parseRiskProfile]) (hother (by simp))

/-- Pairs in one order are pairs in the other. -/
theorem forall₂_swap {α β : Type} {R : α → β → Prop} {S : β → α → Prop} {as : List α}
    {bs : List β} (h : ∀ a ∈ as, ∀ b, R a b ↔ S b a) :
    List.Forall₂ R as bs ↔ List.Forall₂ S bs as := by
  induction as generalizing bs with
  | nil => cases bs <;> simp
  | cons a as ih =>
      obtain ⟨ha, has⟩ := List.forall_mem_cons.1 h
      cases bs with
      | nil => simp
      | cons b bs => rw [List.forall₂_cons, List.forall₂_cons, ha b, ih has]

/-- A portfolio is accepted as an array of holdings, up to their number. -/
theorem parsePortfolio_carried (hreads : NumberReads codec numberText) {vs : List Value}
    (hvs : ∀ v ∈ vs, v.Held) {portfolio : List Holding} (hlength : portfolio.length ≤ maxHoldings) :
    parsePortfolio (.arr (carriedItems (numberJson codec numberText) vs)) = some portfolio ↔
      List.Forall₂ IsHolding portfolio vs := by
  have hitems : (carriedItems (numberJson codec numberText) vs).mapM parseHolding =
      some portfolio ↔ List.Forall₂ IsHolding portfolio vs := by
    rw [mapM_eq_some_iff, carriedItems_eq_map, List.forall₂_map_left_iff]
    exact forall₂_swap fun v hv holding => parseHolding_carried hreads (hvs v hv)
  rw [← hitems, parsePortfolio]
  constructor
  · intro h
    split at h
    · cases h
    · exact h
  · intro h
    rw [if_neg, h]
    rw [(mapM_eq_some_iff.1 h).length_eq]
    omega

/-! ## The context -/

/-- An option stands under its key where it is truthy. -/
theorem lookup_contextEntry (key key' : JsStr) (value : Option Value) :
    (contextEntry key value).lookup key' =
      if key' = key then value.filter truthy else none := by
  unfold contextEntry
  cases value.filter truthy with
  | none => simp
  | some v =>
      by_cases h : key' = key
      · simp [h]
      · simp [List.lookup_cons, h, beq_false_of_ne h]

/-- The entry of an option is the option. -/
theorem mem_contextEntry {key : JsStr} {value : Option Value} {e : JsStr × Value}
    (h : e ∈ contextEntry key value) : e.1 = key ∧ value.filter truthy = some e.2 := by
  obtain ⟨v, hv, rfl⟩ := List.mem_map.1 h
  exact ⟨rfl, Option.mem_toList.1 hv⟩

namespace NotifyOptions

variable {options : NotifyOptions}

/-- The value under a root key. -/
theorem lookup_contextEntries :
    options.contextEntries.lookup (js "delivery_gateway_url") =
        (options.gatewayUrl.map .str).filter truthy ∧
      options.contextEntries.lookup (js "delivery_gateway_token") =
        (options.gatewayToken.map .str).filter truthy ∧
      options.contextEntries.lookup (js "portfolio") = options.holdings.map .arr ∧
      options.contextEntries.lookup (js "risk_profile") = options.riskProfile.filter truthy := by
  have hportfolio : (options.holdings.map Value.arr).filter truthy =
      options.holdings.map .arr := by
    cases options.holdings <;> rfl
  have hkeys : ([js "delivery_gateway_url", js "delivery_gateway_token", js "portfolio",
      js "risk_profile"] : List JsStr).Nodup := by decide
  simp only [List.nodup_cons, List.mem_cons, List.not_mem_nil, or_false, not_or] at hkeys
  obtain ⟨⟨h₁₂, h₁₃, h₁₄⟩, ⟨h₂₃, h₂₄⟩, h₃₄, -⟩ := hkeys
  unfold contextEntries
  simp only [List.lookup_append, lookup_contextEntry, hportfolio]
  simp [h₁₂, h₁₃, h₁₄, h₂₃, h₂₄, h₃₄, Ne.symm h₁₂, Ne.symm h₁₃, Ne.symm h₁₄, Ne.symm h₂₃,
    Ne.symm h₂₄, Ne.symm h₃₄]

/-- The context has the four keys at most, each once. -/
theorem keys_contextEntries :
    (options.contextEntries.map (·.1)).Sublist [js "delivery_gateway_url",
      js "delivery_gateway_token", js "portfolio", js "risk_profile"] := by
  have hone : ∀ (key : JsStr) (value : Option Value),
      ((contextEntry key value).map (·.1)).Sublist [key] := by
    intro key value
    unfold contextEntry
    cases value.filter truthy <;> simp
  unfold contextEntries
  simp only [List.map_append, List.append_assoc]
  exact (hone _ _).append ((hone _ _).append ((hone _ _).append (hone _ _)))

/-- A context made of held options is held. -/
theorem Held.entries (h : options.Held) : (Value.obj options.contextEntries).Held := by
  have hascii : ∀ key ∈ [js "delivery_gateway_url", js "delivery_gateway_token",
      js "portfolio", js "risk_profile"], (∀ u ∈ key, u < 0x10000) ∧ points key = key :=
    ascii_keys (by decide)
  have hgiven : ∀ {key : JsStr} {value : Option Value} {e : JsStr × Value},
      e ∈ contextEntry key value → value = some e.2 := by
    intro key value e he
    exact (Option.filter_eq_some_iff.1 (mem_contextEntry he).2).1
  refine .obj ?_ (keys_contextEntries.nodup (by decide)) ?_
  · intro e he
    exact (hascii _ (keys_contextEntries.subset (List.mem_map_of_mem he))).1
  · intro e he
    unfold contextEntries at he
    simp only [List.mem_append] at he
    obtain ((he | he) | he) | he := he
    · obtain ⟨url, hurl, heq⟩ := Option.map_eq_some_iff.1 (hgiven he)
      exact heq ▸ .str (h.gatewayUrl url hurl)
    · obtain ⟨token, htoken, heq⟩ := Option.map_eq_some_iff.1 (hgiven he)
      exact heq ▸ .str (h.gatewayToken token htoken)
    · obtain ⟨items, hitems, heq⟩ := Option.map_eq_some_iff.1 (hgiven he)
      exact heq ▸ .arr (h.portfolio items (Option.filter_eq_some_iff.1 hitems).1)
    · exact h.riskProfile _ (hgiven he)

end NotifyOptions

/-- A string that is there is within the limits. -/
theorem optionalString_iff {values : List (PyStr × Json)} {key : PyStr} {least most : Nat}
    {given value : Option PyStr} (h : dictGet values key = given.map .str) :
    optionalString values key least most = some value ↔
      value = given ∧ ∀ s ∈ value, least ≤ s.length ∧ s.length ≤ most := by
  constructor
  · intro hvalue
    refine ⟨?_, optionalString_length hvalue⟩
    rw [optionalString, h] at hvalue
    cases given with
    | none => exact (Option.some.inj hvalue).symm
    | some s =>
        simp only [Option.map_some] at hvalue
        split at hvalue
        · exact (Option.some.inj hvalue).symm
        · cases hvalue
  · intro ⟨heq, hlength⟩
    subst heq
    rw [optionalString, h]
    cases value with
    | none => rfl
    | some s => exact if_pos (hlength s rfl)

/-- The string of an option, unless it is empty. -/
theorem carried_string {number : PyFloat → Json} (value : Option JsStr) :
    ((value.map .str).filter truthy).map (carried number) =
      ((value.filter (· ≠ [])).map points).map .str := by
  cases value with
  | none => rfl
  | some s =>
      cases s with
      | nil => rfl
      | cons c s => rfl

section root

variable {options : NotifyOptions} {parsed : List (PyStr × Json)} {number : PyFloat → Json}

/-- The values under the root keys of what is read. -/
theorem dictGet_contextEntries (hheld : options.Held) :
    dictGet (carriedEntries number options.contextEntries) (js "delivery_gateway_url") =
        ((options.gatewayUrl.filter (· ≠ [])).map points).map .str ∧
      dictGet (carriedEntries number options.contextEntries) (js "delivery_gateway_token") =
        ((options.gatewayToken.filter (· ≠ [])).map points).map .str ∧
      (dictGet (carriedEntries number options.contextEntries) (js "portfolio")).getD (.arr []) =
        .arr (carriedItems number (options.portfolio.getD [])) ∧
      dictGet (carriedEntries number options.contextEntries) (js "risk_profile") =
        (options.riskProfile.filter truthy).map (carried number) := by
  have hascii : ∀ key ∈ [js "delivery_gateway_url", js "delivery_gateway_token",
      js "portfolio", js "risk_profile"], (∀ u ∈ key, u < 0x10000) ∧ points key = key :=
    ascii_keys (by decide)
  obtain ⟨hurl, htoken, hportfolio, hrisk⟩ := @NotifyOptions.lookup_contextEntries options
  cases hheld.entries with
  | obj hunits hkeys heach =>
      refine ⟨?_, ?_, ?_, ?_⟩
      · rw [dictGet_ascii hunits (hascii _ (by decide)), hurl, carried_string]
      · rw [dictGet_ascii hunits (hascii _ (by decide)), htoken, carried_string]
      · rw [dictGet_ascii hunits (hascii _ (by decide)), hportfolio]
        unfold NotifyOptions.holdings
        cases options.portfolio with
        | none => rfl
        | some items => cases items <;> rfl
      · rw [dictGet_ascii hunits (hascii _ (by decide)), hrisk]

/-- The keys of what is read are root keys. -/
theorem rootKeys_contextEntries :
    (carriedEntries number options.contextEntries).all (fun kv => rootKeys.contains kv.1) =
      true := by
  have hascii : ∀ key ∈ [js "delivery_gateway_url", js "delivery_gateway_token",
      js "portfolio", js "risk_profile"], (∀ u ∈ key, u < 0x10000) ∧ points key = key :=
    ascii_keys (by decide)
  rw [carriedEntries_eq_map, List.all_eq_true]
  intro kv hkv
  obtain ⟨e, he, rfl⟩ := List.mem_map.1 hkv
  have hkey := NotifyOptions.keys_contextEntries.subset (List.mem_map_of_mem he)
  rw [List.contains_iff_mem, (hascii _ hkey).2]
  exact hkey

end root

/-- The fields of what the buyer wrote make a context exactly when it agrees
with the options. -/
theorem contextOf_carried (hreads : NumberReads codec numberText) {options : NotifyOptions}
    (hheld : options.Held) {digest : PyStr} {context : JobContext} :
    contextOf digest (carriedEntries (numberJson codec numberText) options.contextEntries) =
        some context ↔
      Agrees options context ∧ context.digest = digest := by
  obtain ⟨hurl, htoken, hportfolio, hrisk⟩ :=
    @dictGet_contextEntries options (numberJson codec numberText) hheld
  have hitems : ∀ v ∈ options.portfolio.getD [], v.Held := by
    intro v hv
    cases hlist : options.portfolio with
    | none =>
        rw [hlist] at hv
        cases hv
    | some items =>
        rw [hlist] at hv
        exact hheld.portfolio items hlist v hv
  have hprofile : rootRiskProfile
        (carriedEntries (numberJson codec numberText) options.contextEntries) =
        some context.riskProfile ↔
      Option.Rel IsRiskProfile context.riskProfile (options.riskProfile.filter truthy) := by
    rw [rootRiskProfile]
    have hget : dictGet (carriedEntries (numberJson codec numberText) options.contextEntries)
        (py "risk_profile") = (options.riskProfile.filter truthy).map
          (carried (numberJson codec numberText)) := hrisk
    rw [hget]
    cases hgiven : options.riskProfile.filter truthy with
    | none =>
        cases context.riskProfile with
        | none => exact iff_of_true rfl .none
        | some profile => exact iff_of_false (by simp) (fun h => nomatch h)
    | some v =>
        have hv := hheld.riskProfile v (Option.filter_eq_some_iff.1 hgiven).1
        simp only [Option.map_some, Option.map_eq_some_iff]
        constructor
        · intro ⟨profile, hparsed, heq⟩
          rw [← heq]
          exact .some ((parseRiskProfile_carried hreads hv).1 hparsed)
        · intro h
          cases hrisk : context.riskProfile with
          | none =>
              rw [hrisk] at h
              cases h
          | some profile =>
              rw [hrisk] at h
              cases h with
              | some h => exact ⟨profile, (parseRiskProfile_carried hreads hv).2 h, rfl⟩
  have hstrings := fun least most value =>
    (@optionalString_iff _ (py "delivery_gateway_url") least most _ value hurl)
  have htokens := fun least most value =>
    (@optionalString_iff _ (py "delivery_gateway_token") least most _ value htoken)
  have hholdings : parsePortfolio ((dictGet
        (carriedEntries (numberJson codec numberText) options.contextEntries)
        (py "portfolio")).getD (.arr [])) = some context.portfolio ↔
      List.Forall₂ IsHolding context.portfolio (options.portfolio.getD []) :=
    (congrArg (parsePortfolio · = some context.portfolio) hportfolio).to_iff.trans
      (parsePortfolio_carried hreads hitems context.portfolio_ok)
  rw [contextOf_iff, hstrings, htokens, hholdings, hprofile]
  constructor
  · intro ⟨⟨hurl, _⟩, ⟨htoken, _⟩, hportfolio, hrisk, _, hdigest⟩
    exact ⟨⟨hurl, htoken, hportfolio, hrisk⟩, hdigest⟩
  · intro ⟨hagrees, hdigest⟩
    exact ⟨⟨hagrees.gatewayUrl, fun url h => ⟨Nat.zero_le _, context.gatewayUrl_ok url h⟩⟩,
      ⟨hagrees.gatewayToken, fun token h => (context.gatewayToken_ok token h).1⟩,
      hagrees.portfolio, hagrees.riskProfile,
      fun token h => (context.gatewayToken_ok token h).2, hdigest⟩

/-- The text of a context is well-formed Unicode. -/
theorem wellFormed_buildNotifyContext (hreads : NumberReads codec numberText)
    {options : NotifyOptions} (hheld : options.Held) :
    WellFormed (buildNotifyContext numberText options) :=
  (units_stringifyDoc hreads hheld.entries).wellFormed

/-- **The context of a buyer.**  The seller reads the text that the buyer wrote
as a context exactly when the text is short enough and the context agrees with
the buyer's options. -/
theorem parseSignedContext_buildNotifyContext (hreads : NumberReads codec numberText)
    {options : NotifyOptions} (hheld : options.Held) {context : JobContext} :
    parseSignedContext codec (points (buildNotifyContext numberText options)) = some context ↔
      (utf8 (buildNotifyContext numberText options)).length ≤ maxContextBytes ∧
        Agrees options context ∧
        context.digest = codec.sha256 (utf8 (buildNotifyContext numberText options)) := by
  have hbytes : utf8Encode (points (buildNotifyContext numberText options)) =
      some (utf8 (buildNotifyContext numberText options)) :=
    utf8Encode_points (wellFormed_buildNotifyContext hreads hheld)
  have hloads : codec.loadsUnique (points (buildNotifyContext numberText options)) =
      some (.obj (carriedEntries (numberJson codec numberText) options.contextEntries)) :=
    loadsUnique_stringifyValue hreads hheld.entries
  rw [parseSignedContext, hbytes, Option.bind_some]
  by_cases hlength : maxContextBytes < (utf8 (buildNotifyContext numberText options)).length
  · rw [if_pos hlength]
    exact iff_of_false (by simp) fun h => absurd h.1 (Nat.not_le.2 hlength)
  · rw [if_neg hlength, hloads]
    simp only [rootKeys_contextEntries, if_true]
    rw [contextOf_carried hreads hheld]
    exact ⟨fun h => ⟨Nat.not_lt.1 hlength, h⟩, fun h => h.2⟩

end parsed

/-! ## The authorization -/

/-- `CONTRACTS`. -/
def contractsChainId : Int := 97

def contractsCommerce : PyStr := py "0xa206c0517b6371c6638cd9e4a42cc9f02a33b0de"

/-- A wallet. -/
structure Signer where
  address : PyStr
  /-- `signTypedData`. -/
  signTypedData : TypedData → JsStr

/-- The types of `NOTIFY_TYPES`, behind the type the library adds for the
fields of `NOTIFY_DOMAIN`. -/
def signedTypes : List (PyStr × List (PyStr × PyStr)) :=
  [(py "EIP712Domain",
      [(py "name", py "string"), (py "version", py "string"), (py "chainId", py "uint256"),
        (py "verifyingContract", py "address")]),
    (py "NotifyFunded",
      [(py "jobId", py "uint256"), (py "context", py "string"), (py "expiresAt", py "uint64"),
        (py "nonce", py "bytes32")])]

/-- What `createNotifyAuthorization` has signed. -/
def signedData (jobId : Int) (context : JsStr) (expiresAt : Int) (nonce : JsStr) : TypedData where
  types := signedTypes
  primaryType := py "NotifyFunded"
  domain := ⟨py "stockanalyst-notify-funded", py "1", contractsChainId, contractsCommerce⟩
  message := ⟨jobId, points context, expiresAt, points nonce⟩

/-- `createNotifyAuthorization`, `nowSeconds` after the epoch. -/
def createNotifyAuthorization (signer : Signer) (jobId : Int) (context : JsStr)
    (nowSeconds : ℕ) (nonce : JsStr) : Value :=
  let expiresAt := nowSeconds + 300
  let signature := signer.signTypedData (signedData jobId context expiresAt nonce)
  .obj [(js "context", .str context), (js "expires_at", .num (.finite false (expiresAt : ℕ))),
    (js "nonce", .str nonce), (js "signature", .str (signature.drop 2))]

/-- What a wallet signs is recovered as its address, from the message with the
contract's address in any case. -/
structure Signs (eth : Ethereum) (signer : Signer) : Prop where
  text : ∀ data, ∃ digits, signer.signTypedData data = 48 :: 120 :: digits ∧
    digits.length = 130 ∧ digits.all isHexChar = true
  recovers : ∀ data contract, eth.toChecksumAddress data.domain.verifyingContract = some contract →
    eth.recover { data with domain := { data.domain with verifyingContract := contract } }
      ((signer.signTypedData data).drop 2) = .signer signer.address

section authorization

variable {codec : Codec} {numberText : PyFloat → JsStr} {eth : Ethereum} {signer : Signer}
  {jobId : Int} {nowSeconds : ℕ} {context nonce : JsStr}

/-- Hexadecimal digits are ASCII and no `x`. -/
theorem isHexChar_ascii {c : Nat} (h : isHexChar c = true) : c < 0x80 ∧ c ≠ 120 := by
  unfold isHexChar hexValue at h
  split_ifs at h <;> first | omega | cases h

/-- A nonce is ASCII. -/
theorem isNonce_ascii {s : PyStr} (h : isNonce s = true) : ∀ c ∈ s, c < 0x80 := by
  unfold isNonce at h
  split at h
  · rw [Bool.and_eq_true, List.all_eq_true] at h
    intro c hc
    obtain rfl | rfl | hc := List.mem_cons.1 hc |>.imp_right List.mem_cons.1
    · decide
    · decide
    · exact (isHexChar_ascii (h.2 c hc)).1
  · cases h

/-- A signature without its `0x`. -/
theorem isSignature_digits {digits : JsStr} (hlength : digits.length = 130)
    (hhex : digits.all isHexChar = true) : isSignature digits = true := by
  have hbare : (py "0x").isPrefixOf digits = false := by
    rw [Bool.eq_false_iff]
    intro hprefix
    obtain ⟨rest, hrest⟩ := List.isPrefixOf_iff_prefix.1 hprefix
    have hx : 120 ∈ digits := hrest ▸ List.mem_append_left _ (by decide)
    exact (isHexChar_ascii (List.all_eq_true.1 hhex 120 hx)).2 rfl
  rw [isSignature, hbare]
  simp [hlength, hhex]

/-- A small whole number is carried as an integer. -/
theorem numberJson_nat (hreads : NumberReads codec numberText) {n : ℕ} (h : n ≤ 2 ^ 53) :
    numberJson codec numberText (.finite false (n : ℚ)) = .int n := by
  refine numberJson_eq ?_
  rw [hreads.whole false n h]
  refine word_intText ?_
  rw [if_neg (by decide), Nat.abs_cast]
  exact_mod_cast h

/-- The envelope that the seller takes out of an authorization. -/
theorem envelopeOf_created (hreads : NumberReads codec numberText) (hsigns : Signs eth signer)
    (hnonce : isNonce nonce = true) (hnow : nowSeconds + 300 ≤ 2 ^ 53) :
    ∃ entries envelope,
      carried (numberJson codec numberText)
        (createNotifyAuthorization signer jobId context nowSeconds nonce) = .obj entries ∧
      hasKeys entries authorizationKeys = true ∧ envelopeOf entries = some envelope ∧
      envelope.context = points context ∧ envelope.expiresAt = (nowSeconds + 300 : ℕ) ∧
      envelope.nonce = nonce ∧
      envelope.signature = (signer.signTypedData
        (signedData jobId context (nowSeconds + 300 : ℕ) nonce)).drop 2 := by
  obtain ⟨digits, htext, hlength, hhex⟩ :=
    hsigns.text (signedData jobId context (nowSeconds + 300 : ℕ) nonce)
  have hdigits : points digits = digits :=
    points_ascii fun c hc => (isHexChar_ascii (List.all_eq_true.1 hhex c hc)).1
  have hnonceText : points nonce = nonce := points_ascii (isNonce_ascii hnonce)
  have hexpires : (0 : Int) ≤ (nowSeconds + 300 : ℕ) ∧
      ((nowSeconds + 300 : ℕ) : Int) ≤ maxUint64 := by
    unfold maxUint64
    omega
  have hexpiresJson := @numberJson_nat codec numberText hreads _ hnow
  have hdrop : points ((signer.signTypedData
      (signedData jobId context (nowSeconds + 300 : ℕ) nonce)).drop 2) = digits := by
    rw [htext]
    exact hdigits
  refine ⟨[(py "context", .str (points context)),
    (py "expires_at", .int (nowSeconds + 300 : ℕ)), (py "nonce", .str nonce),
    (py "signature", .str digits)], ⟨points context, (nowSeconds + 300 : ℕ), nonce, digits,
    hexpires, hnonce, isSignature_digits hlength hhex⟩, ?_, rfl,
    envelopeOf_iff.2 ⟨rfl, rfl, rfl, rfl⟩, rfl, rfl, rfl, ?_⟩
  · rw [createNotifyAuthorization, carried]
    simp only [carriedEntries, carried, hexpiresJson, hnonceText, hdrop]
    rfl
  · rw [htext]
    rfl

/-- The typed data that the seller rebuilds is what the buyer has signed, with
the contract's address as the seller writes it. -/
theorem buildNotifyTypedData_created {verifyingContract contract : PyStr}
    (hcontract : eth.toChecksumAddress verifyingContract = some contract)
    (hjob : 0 ≤ jobId ∧ jobId ≤ maxUint256) (hnonce : isNonce nonce = true) {expiresAt : Int}
    (hexpires : 0 ≤ expiresAt ∧ expiresAt ≤ maxUint64) :
    buildNotifyTypedData eth jobId (points context) expiresAt nonce contractsChainId
        verifyingContract =
      some { signedData jobId context expiresAt nonce with
        domain := { (signedData jobId context expiresAt nonce).domain with
          verifyingContract := contract } } := by
  have hchain : 0 ≤ contractsChainId ∧ contractsChainId ≤ maxUint256 := by decide
  have hnonceText : points nonce = nonce := points_ascii (isNonce_ascii hnonce)
  rw [buildNotifyTypedData, if_neg (not_not.2 hjob), if_neg (not_not.2 hexpires),
    if_neg (not_not.2 hchain), if_neg (by rw [hnonce]; decide), hcontract, Option.map_some]
  unfold signedData
  rw [hnonceText]
  rfl

/-- The seller's answer to an authorization that the buyer made. -/
theorem verifyNotifyAuthorization_created (hreads : NumberReads codec numberText)
    (hsigns : Signs eth signer) (hnonce : isNonce nonce = true)
    (hnow : nowSeconds + 300 ≤ 2 ^ 53) (hjob : 0 ≤ jobId ∧ jobId ≤ maxUint256)
    (hcontext : WellFormed context) {verifyingContract contract : PyStr}
    (hcontract : eth.toChecksumAddress verifyingContract = some contract)
    (hcommerce : eth.toChecksumAddress contractsCommerce = some contract)
    {expectedClient client address : PyStr}
    (hclient : eth.toChecksumAddress expectedClient = some client)
    (haddress : eth.toChecksumAddress signer.address = some address) (now : Int) :
    verifyNotifyAuthorization codec eth
        (carried (numberJson codec numberText)
          (createNotifyAuthorization signer jobId context nowSeconds nonce))
        jobId expectedClient contractsChainId verifyingContract now =
      if maxContextBytes < (utf8 context).length then .error (.refused .invalidContext)
      else if (nowSeconds + 300 : ℕ) < now - 30 then .error (.refused .authorizationExpired)
      else if now + 600 < (nowSeconds + 300 : ℕ) then .error (.refused .invalidAuthorization)
      else if address ≠ client then .error (.refused .callerNotJobClient)
      else
        (parseSignedContext codec (points context)).elim (.error (.refused .invalidContext))
          .ok := by
  obtain ⟨entries, envelope, hentries, hkeys, henvelope, htext, hexpires, hnonceAt, hsignature⟩ :=
    @envelopeOf_created codec numberText eth signer jobId nowSeconds context nonce hreads hsigns
      hnonce hnow
  have hpresent : authorizationKeys.all (fun key => (entries.map (·.1)).contains key) = true := by
    rw [hasKeys, Bool.and_eq_true] at hkeys
    exact hkeys.1
  have hbytes : utf8Encode envelope.context = some (utf8 context) := by
    rw [htext]
    exact utf8Encode_points hcontext
  have hdata := @buildNotifyTypedData_created eth jobId context nonce _ _ hcontract hjob
    hnonce _ (hexpires ▸ envelope.expiresAt_ok)
  have hrecover := hsigns.recovers (signedData jobId context (nowSeconds + 300 : ℕ) nonce) contract
    hcommerce
  rw [verifyNotifyAuthorization, hentries, preflightNotifyAuthorization]
  rw [if_neg (not_not.2 hpresent), if_neg (not_not.2 hkeys), henvelope]
  simp only [hbytes, hexpires]
  by_cases hlength : maxContextBytes < (utf8 context).length
  · rw [if_pos hlength, if_pos hlength]
  rw [if_neg hlength, if_neg hlength]
  by_cases hexpired : ((nowSeconds + 300 : ℕ) : Int) < now - 30
  · rw [if_pos hexpired, if_pos hexpired]
  rw [if_neg hexpired, if_neg hexpired]
  by_cases hfar : now + 600 < ((nowSeconds + 300 : ℕ) : Int)
  · rw [if_pos hfar, if_pos hfar]
  rw [if_neg hfar, if_neg hfar, hclient]
  simp only [htext, hexpires, hnonceAt, hsignature, hdata, hrecover, haddress]
  cases parseSignedContext codec (points context) <;> rfl

/-- **The handshake.**  The seller accepts the authorization of the job's client
for its options exactly when its clock is not more than 330 seconds ahead of
the buyer's or 300 behind, the context is not too long, and the context is one
that agrees with the options. -/
theorem handshake (hreads : NumberReads codec numberText) (hsigns : Signs eth signer)
    (hnonce : isNonce nonce = true) (hnow : nowSeconds + 300 ≤ 2 ^ 53)
    (hjob : 0 ≤ jobId ∧ jobId ≤ maxUint256) {options : NotifyOptions} (hheld : options.Held)
    {verifyingContract contract : PyStr}
    (hcontract : eth.toChecksumAddress verifyingContract = some contract)
    (hcommerce : eth.toChecksumAddress contractsCommerce = some contract)
    {expectedClient client : PyStr} (hclient : eth.toChecksumAddress expectedClient = some client)
    (haddress : eth.toChecksumAddress signer.address = some client) (now : Int)
    (accepted : JobContext) :
    verifyNotifyAuthorization codec eth
        (carried (numberJson codec numberText)
          (createNotifyAuthorization signer jobId (buildNotifyContext numberText options)
            nowSeconds nonce))
        jobId expectedClient contractsChainId verifyingContract now = .ok accepted ↔
      (now - 330 ≤ nowSeconds ∧ nowSeconds ≤ now + 300) ∧
        (utf8 (buildNotifyContext numberText options)).length ≤ maxContextBytes ∧
        Agrees options accepted ∧
        accepted.digest = codec.sha256 (utf8 (buildNotifyContext numberText options)) := by
  rw [verifyNotifyAuthorization_created hreads hsigns hnonce hnow hjob
    (wellFormed_buildNotifyContext hreads hheld) hcontract hcommerce hclient haddress,
    ← parseSignedContext_buildNotifyContext hreads hheld]
  constructor
  · intro h
    split_ifs at h with hlength hexpired hfar
    cases hparse : parseSignedContext codec (points (buildNotifyContext numberText options)) with
    | none =>
        rw [hparse] at h
        cases h
    | some context =>
        rw [hparse] at h
        obtain rfl := Except.ok.inj h
        exact ⟨by omega, rfl⟩
  · intro ⟨hclock, hparse⟩
    have hlength := ((parseSignedContext_buildNotifyContext hreads hheld).1 hparse).1
    rw [if_neg (Nat.not_lt.2 hlength), if_neg (by omega), if_neg (by omega),
      if_neg (not_not.2 rfl), hparse]
    rfl

end authorization

/-! ## What the seller accepts -/

section accepted

variable {codec : Codec} {eth : Ethereum} {authorization : Json} {now : Int}

/-- An authorization that passes the first checks. -/
theorem preflight_ok {envelope : Envelope}
    (h : preflightNotifyAuthorization authorization now = .ok envelope) :
    ∃ entries encoded, authorization = .obj entries ∧ hasKeys entries authorizationKeys = true ∧
      envelopeOf entries = some envelope ∧ utf8Encode envelope.context = some encoded ∧
      encoded.length ≤ maxContextBytes ∧ now - 30 ≤ envelope.expiresAt ∧
      envelope.expiresAt ≤ now + 600 := by
  unfold preflightNotifyAuthorization at h
  split at h
  · rename_i entries
    split_ifs at h with hpresent hkeys
    split at h
    · cases h
    · rename_i found hfound
      split at h
      · cases h
      · rename_i encoded hencoded
        split_ifs at h with hlength hexpired hfar
        obtain rfl := Except.ok.inj h
        exact ⟨entries, encoded, rfl, hkeys, hfound, hencoded, by omega, by omega,
          by omega⟩
  · cases h

/-- The typed data of a call with valid arguments. -/
theorem buildNotifyTypedData_some {jobId expiresAt chainId : Int}
    {context nonce verifyingContract : PyStr} {data : TypedData}
    (h : buildNotifyTypedData eth jobId context expiresAt nonce chainId verifyingContract =
      some data) :
    ∃ contract, eth.toChecksumAddress verifyingContract = some contract ∧
      data = ⟨notifyTypes, py "NotifyFunded",
        ⟨py "stockanalyst-notify-funded", py "1", chainId, contract⟩,
        ⟨jobId, context, expiresAt, nonce⟩⟩ := by
  unfold buildNotifyTypedData at h
  split_ifs at h
  obtain ⟨contract, hcontract, rfl⟩ := Option.map_eq_some_iff.1 h
  exact ⟨contract, hcontract, rfl⟩

/-- The digest of a context is that of its text. -/
theorem parseSignedContext_digest {raw : PyStr} {encoded : List Nat} {context : JobContext}
    (hencoded : utf8Encode raw = some encoded) (h : parseSignedContext codec raw = some context) :
    context.digest = codec.sha256 encoded := by
  rw [parseSignedContext, hencoded, Option.bind_some] at h
  split at h
  · cases h
  · split at h
    · split at h
      · exact (contextOf_iff.1 h).2.2.2.2.2
      · cases h
    · cases h

/-- **What is accepted was signed.**  An authorization is accepted only within
its time, when the client of the job is recovered from the job, the exact text
and the contract; and what the prompt is made of is the context as it was
accepted. -/
theorem accepted_signed {jobId chainId : Int} {expectedClient verifyingContract : PyStr}
    {context : JobContext}
    (h : verifyNotifyAuthorization codec eth authorization jobId expectedClient chainId
      verifyingContract now = .ok context) :
    ∃ entries envelope encoded contract address,
      (authorization = .obj entries ∧ hasKeys entries authorizationKeys = true ∧
        envelopeOf entries = some envelope) ∧
      (now - 30 ≤ envelope.expiresAt ∧ envelope.expiresAt ≤ now + 600) ∧
      (utf8Encode envelope.context = some encoded ∧ encoded.length ≤ maxContextBytes ∧
        context.digest = codec.sha256 encoded) ∧
      eth.toChecksumAddress verifyingContract = some contract ∧
      eth.recover ⟨notifyTypes, py "NotifyFunded",
        ⟨py "stockanalyst-notify-funded", py "1", chainId, contract⟩,
        ⟨jobId, envelope.context, envelope.expiresAt, envelope.nonce⟩⟩ envelope.signature =
          .signer address ∧
      (eth.toChecksumAddress address).isSome = true ∧
      eth.toChecksumAddress address = eth.toChecksumAddress expectedClient ∧
      X402.normalizeContext context.portfolioForPrompt context.riskProfileForPrompt =
        (context.portfolio, context.riskProfile) := by
  unfold verifyNotifyAuthorization at h
  split at h
  · cases h
  rename_i envelope hpreflight
  obtain ⟨entries, encoded, hentries, hkeys, henvelope, hencoded, hlength, hlow, hhigh⟩ :=
    preflight_ok hpreflight
  split at h
  · rename_i expected data hexpected hdata
    obtain ⟨contract, hcontract, rfl⟩ := buildNotifyTypedData_some hdata
    split at h
    · cases h
    · cases h
    rename_i address hrecover
    split at h
    · cases h
    rename_i recovered hrecovered
    split_ifs at h with hclient
    rw [not_not] at hclient
    split at h
    · cases h
    rename_i accepted hparse
    obtain rfl := Except.ok.inj h
    refine ⟨entries, envelope, encoded, contract, address, ⟨hentries, hkeys, henvelope⟩,
      ⟨hlow, hhigh⟩, ⟨hencoded, hlength, parseSignedContext_digest hencoded hparse⟩, hcontract,
      hrecover, ?_, ?_, normalizeContext_forPrompt accepted⟩
    · rw [hrecovered]
      rfl
    · rw [hrecovered, hclient, hexpected]
  · cases h

end accepted

/-! ## A recorded handshake -/

/-- The value of the decimal digits of a double. -/
def decimalFloat : Double → PyFloat
  | .finite neg lead digits exponent =>
      .finite neg (natOf ((lead :: digits).map digitChar) * (10 : ℚ) ^ (exponent - digits.length))
  | .zero neg => .finite neg 0
  | .inf neg => .inf neg
  | .nan => .nan

def decimalDigit (c : Nat) : Fin 10 := ⟨(c - 48) % 10, Nat.mod_lt _ (by decide)⟩

/-- The digits of a number with a fraction or a negative exponent. -/
def decimalDigits (text : PyStr) : Double :=
  let neg := text.head? = some 45
  let unsigned := if neg then text.tail else text
  let rest := unsigned.dropWhile isDigit
  let fraction := if rest.head? = some 46 then rest.tail else []
  let scale := if rest.head? = some 46 then fraction.length else natOf (rest.drop 2)
  match (unsigned.takeWhile isDigit ++ fraction).map decimalDigit with
  | [] => .nan
  | lead :: digits => .finite neg lead digits ((digits.length : Int) - scale)

/-- The price in the recorded context is written as JavaScript writes it, other
doubles as exact decimals. -/
def recordedText : PyFloat → JsStr
  | .finite neg abs =>
      if neg = false ∧ abs = 761 / 4 then js "190.25"
      else X402Async.decimalNode.numberText (.finite neg abs)
  | _ => js "null"

def recordedCodec : Codec where
  number := decimalDigits
  float := decimalFloat
  sha256 _ := py "e379cedfcfb1f9afb686e3fa9140eb9396ce6c1d6c42d8d48d6e7d2c8cfe0b9a"

/-- Digits are read and written alike. -/
theorem map_digitChar {whole : PyStr} (h : ∀ c ∈ whole, isDigit c = true) :
    (whole.map decimalDigit).map digitChar = whole := by
  rw [List.map_map]
  refine (List.map_congr_left ?_).trans (List.map_id whole)
  intro c hc
  have hdigit := h c hc
  simp only [isDigit, Bool.and_eq_true, decide_eq_true_eq] at hdigit
  simp only [Function.comp_apply, digitChar, decimalDigit, id_eq]
  omega

/-- Digits behind a minus sign and before an exponent. -/
theorem decimalFloat_digits {whole : PyStr} (hne : whole ≠ [])
    (hdigits : ∀ c ∈ whole, isDigit c = true) (neg : Bool) (scale : ℕ) :
    decimalFloat (decimalDigits ((if neg then [45] else []) ++
        (whole ++ 101 :: 45 :: intText scale))) = .finite neg (natOf whole / 10 ^ scale) := by
  have hhead : (whole ++ 101 :: 45 :: intText scale).head? ≠ some 45 := by
    cases whole with
    | nil => exact absurd rfl hne
    | cons c rest =>
        intro h
        have hc := hdigits c List.mem_cons_self
        rw [Option.some.inj h] at hc
        cases hc
  have hsplit : ∀ text : PyStr, text = (if neg then [45] else []) ++
        (whole ++ 101 :: 45 :: intText scale) →
      (decide (text.head? = some 45)) = neg ∧
        (if text.head? = some 45 then text.tail else text) =
          whole ++ 101 :: 45 :: intText scale := by
    intro text htext
    subst htext
    cases neg with
    | false => exact ⟨decide_eq_false hhead, if_neg hhead⟩
    | true => exact ⟨rfl, rfl⟩
  obtain ⟨hneg, hunsigned⟩ := hsplit _ rfl
  have htake : (whole ++ 101 :: 45 :: intText scale).takeWhile isDigit = whole := by
    rw [List.takeWhile_append_of_pos hdigits]
    exact List.append_nil _
  have hdrop : (whole ++ 101 :: 45 :: intText scale).dropWhile isDigit =
      101 :: 45 :: intText scale := by
    rw [List.dropWhile_append_of_pos hdigits]
    rfl
  have hscale : natOf ((101 :: 45 :: intText scale).drop 2) = scale := natOf_intText scale
  have hchars := map_digitChar hdigits
  unfold decimalDigits
  simp only [hneg, hunsigned, htake, hdrop, List.head?_cons, Option.some.injEq,
    show ¬ (101 : ℕ) = 46 by decide, if_false, List.append_nil, hscale]
  cases hmap : whole.map decimalDigit with
  | nil => exact absurd (List.map_eq_nil_iff.1 hmap) hne
  | cons lead digits =>
      rw [hmap] at hchars
      simp only [decimalFloat, hchars]
      congr 1
      rw [sub_sub_cancel_left, zpow_neg, zpow_natCast, div_eq_mul_inv]

/-- A whole number is written with its digits. -/
theorem recordedText_whole (neg : Bool) (n : ℕ) :
    recordedText (.finite neg n) = intText (if neg then -(n : Int) else n) := by
  have hprice : (n : ℚ) ≠ 761 / 4 := by
    intro h
    have hfour : ((n * 4 : ℕ) : ℚ) = (761 : ℕ) := by
      push_cast
      rw [h]
      norm_num
    have := Nat.cast_injective hfour
    omega
  have hdecimal : X402Async.exactDecimal (n : ℚ) = intText n := by
    have hzero : Nat.log2 (n : ℚ).den = 0 := by
      rw [Rat.den_natCast]
      rfl
    simp only [X402Async.exactDecimal, hzero, if_true, pow_zero, mul_one, Rat.num_natCast,
      Int.natAbs_natCast, List.append_nil]
  rw [recordedText, if_neg fun h => hprice h.2]
  simp only [X402Async.decimalNode, hdecimal]
  cases neg with
  | false => rfl
  | true =>
      by_cases hn : n = 0
      · subst hn
        rfl
      · have hq : (n : ℚ) ≠ 0 := Nat.cast_ne_zero.2 hn
        simp only [Bool.true_and, decide_eq_true_eq, hq, ne_eq, not_false_eq_true, if_true]
        unfold intText
        rw [if_neg (by omega), if_neg (by omega), if_pos (by omega), Int.natAbs_neg]

/-- An integer has digits and a sign in it. -/
theorem isInteger_char {w : PyStr} (h : isInteger w = true) :
    ∀ c ∈ w, 48 ≤ c ∧ c ≤ 57 ∨ c = 45 := by
  simp only [isInteger, Bool.or_eq_true, Bool.and_eq_true, decide_eq_true_eq] at h
  obtain h | ⟨hhead, h⟩ := h
  · exact fun c hc => Or.inl ((isUnsignedInteger_digits h).2 c hc)
  · obtain ⟨rest, rfl⟩ := List.head?_eq_some_iff.1 hhead
    exact List.forall_mem_cons.2
      ⟨Or.inr rfl, fun c hc => Or.inl ((isUnsignedInteger_digits h).2 c hc)⟩

/-- A number with a fraction is written with an exponent and read back. -/
theorem recordedText_fraction {neg : Bool} {abs : ℚ} (hdouble : IsDouble abs)
    (hden : abs.den ≠ 1) (hprice : ¬ (neg = false ∧ abs = 761 / 4)) :
    isNumber (recordedText (.finite neg abs)) = true ∧
      isInteger (recordedText (.finite neg abs)) = false ∧
      decimalFloat (decimalDigits (recordedText (.finite neg abs))) = .finite neg abs := by
  obtain ⟨hnumber, -, hminus, hvalue⟩ := X402Async.exactDecimal_parts abs
  obtain ⟨k, hk⟩ := hdouble.den
  have hscale : Nat.log2 abs.den ≠ 0 := by
    rw [hk, Nat.log2_two_pow]
    rintro rfl
    exact hden hk
  have hzero : abs ≠ 0 := by
    rintro rfl
    exact hden rfl
  have hexact : X402Async.exactDecimal abs =
      intText (abs.num.natAbs * 5 ^ Nat.log2 abs.den : ℕ) ++
        101 :: 45 :: intText (Nat.log2 abs.den) := by
    simp only [X402Async.exactDecimal, if_neg hscale]
    rfl
  have htext : recordedText (.finite neg abs) = (if neg then [45] else []) ++
      (intText (abs.num.natAbs * 5 ^ Nat.log2 abs.den : ℕ) ++
        101 :: 45 :: intText (Nat.log2 abs.den)) := by
    rw [recordedText, if_neg hprice, ← hexact]
    simp only [X402Async.decimalNode, ne_eq, hzero, not_false_eq_true, decide_true, Bool.and_true]
    cases neg <;> rfl
  have hmem : 101 ∈ recordedText (.finite neg abs) := by
    rw [htext]
    exact List.mem_append_right _ (List.mem_append_right _ List.mem_cons_self)
  refine ⟨?_, ?_, ?_⟩
  · rw [htext, ← hexact]
    cases neg with
    | false => exact hnumber
    | true => exact hminus
  · rw [Bool.eq_false_iff]
    intro hinteger
    have := isInteger_char hinteger _ hmem
    omega
  · rw [htext, decimalFloat_digits (intText_ne_nil _) (intText_digits _).2]
    rw [natOf_intText, ← hvalue, X402Async.decimalValue_exactDecimal hdouble]

/-- A whole double has few digits. -/
theorem intText_double_length {abs : ℚ} (hdouble : IsDouble abs) (hden : abs.den = 1) (neg : Bool) :
    (intText (if neg then -(abs.num.natAbs : Int) else abs.num.natAbs)).length ≤ maxIntDigits := by
  obtain ⟨-, hnum⟩ := natAbs_whole hdouble.nonneg hden
  have hlt : abs.num.natAbs < 10 ^ 1024 := by
    obtain ⟨m, e, hm, -, he, habs⟩ := hdouble
    have hpower : (2 : ℚ) ^ e ≤ 2 ^ 971 := by
      rw [← zpow_natCast]
      exact zpow_le_zpow_right₀ (by norm_num) he
    have hle : abs < 10 ^ 1024 := by
      rw [habs]
      calc (m : ℚ) * 2 ^ e ≤ 2 ^ 53 * 2 ^ 971 := by
            refine mul_le_mul ?_ hpower (zpow_nonneg (by norm_num) e) (by positivity)
            exact_mod_cast hm.le
        _ = 2 ^ 1024 := by rw [← pow_add]
        _ < 10 ^ 1024 := pow_lt_pow_left₀ (by norm_num) (by norm_num) (by norm_num)
    rw [hnum] at hle
    exact_mod_cast hle
  have hdigits : (Nat.digits 10 abs.num.natAbs).length ≤ 1024 :=
    (Nat.digits_length_le_iff (by decide) _).2 hlt
  have hnat : (if neg then -(abs.num.natAbs : Int) else abs.num.natAbs).natAbs =
      abs.num.natAbs := by
    cases neg with
    | false => exact Int.natAbs_natCast _
    | true => exact (Int.natAbs_neg _).trans (Int.natAbs_natCast _)
  unfold intText natDigits
  rw [hnat]
  unfold maxIntDigits
  split_ifs <;> simp <;> omega

/-- The recorded codec reads the numbers that the recorded client writes. -/
theorem numberReads_recorded : NumberReads recordedCodec recordedText where
  whole neg n _ := recordedText_whole neg n
  fraction neg abs hdouble hden := by
    by_cases hprice : neg = false ∧ abs = 761 / 4
    · obtain ⟨rfl, rfl⟩ := hprice
      rw [recordedText, if_pos ⟨rfl, rfl⟩]
      refine ⟨by decide, by decide, ?_⟩
      have hdigits : recordedCodec.number (js "190.25") = .finite false 1 [9, 0, 2, 5] 2 := rfl
      have hvalue : natOf ((1 :: [9, 0, 2, 5]).map digitChar) = 19025 := rfl
      rw [hdigits]
      simp only [recordedCodec, decimalFloat, hvalue]
      norm_num
    · exact recordedText_fraction hdouble hden hprice
  large neg abs hdouble hden hlarge := by
    obtain ⟨-, hnum⟩ := natAbs_whole hdouble.nonneg hden
    have hbig : 2 ^ 53 < abs.num.natAbs := by
      rw [hnum] at hlarge
      exact_mod_cast hlarge
    have hlength := intText_double_length hdouble hden neg
    rw [hnum, recordedText_whole]
    refine ⟨isNumber_intText _, Or.inl ⟨isInteger_intText _, ?_, ?_⟩⟩
    · exact (List.length_filter_le _ _).trans hlength
    · rw [intOf_intText]
      cases neg with
      | false =>
          rw [if_neg (by decide), Nat.abs_cast]
          exact_mod_cast hbig.le
      | true =>
          rw [if_pos rfl, abs_neg, Nat.abs_cast]
          exact_mod_cast hbig.le

def recordedAddress : PyStr := py "0xFCAd0B19bB29D4674531d6f115237E16AfCE377c"

@[irreducible] def recordedSignature : PyStr :=
  py "d1a2acb265316e1699d53309bbc1665ab50b3923f7ce5406aa28666e234a0f60239e8cb08cbcdaae7d565a5546bd9959479fd60922056b2ac8f466a169d4dbe21b"

def recordedNonce : JsStr :=
  js "0x1111111111111111111111111111111111111111111111111111111111111111"

def recordedSigner : Signer where
  address := recordedAddress
  signTypedData _ := js "0x" ++ recordedSignature

def recordedEthereum : Ethereum where
  toChecksumAddress address :=
    if address = contractsCommerce then some (py "0xa206c0517B6371C6638CD9e4a42Cc9f02A33B0DE")
    else if address = recordedAddress then some recordedAddress
    else none
  recover _ signature :=
    if signature = recordedSignature then .signer recordedAddress else .invalid

/-- The recorded signer signs what the recorded recovery recovers. -/
theorem signs_recorded : Signs recordedEthereum recordedSigner where
  text _ := ⟨recordedSignature, rfl, by decide +kernel, by decide +kernel⟩
  recovers data contract _ := by
    have hdrop : (recordedSigner.signTypedData data).drop 2 = recordedSignature :=
      List.drop_left' rfl
    rw [hdrop]
    exact if_pos rfl

def recordedOptions : NotifyOptions where
  gatewayUrl := some (js "https://buyer.trycloudflare.com")
  gatewayToken := some (js "relay-token")
  portfolio := some [.obj [(js "symbol", .str (js "AAPL")),
    (js "shares", .num (.finite false (10 : ℕ))), (js "avgCost", .num (.finite false (761 / 4))),
    (js "currency", .str (js "USD"))]]
  riskProfile := some (.obj [(js "tolerance", .str (js "moderate")),
    (js "horizonMonths", .num (.finite false (12 : ℕ))),
    (js "preferredIndicators", .arr [.str (js "RSI-14"), .str (js "MACD")])])

/-- The text that is signed. -/
theorem recordedOptions_text : buildNotifyContext recordedText recordedOptions =
    js ("\x7b\"delivery_gateway_url\":\"https://buyer.trycloudflare.com\"," ++
      "\"delivery_gateway_token\":\"relay-token\",\"portfolio\":[\x7b\"symbol\":\"AAPL\"," ++
      "\"shares\":10,\"avgCost\":190.25,\"currency\":\"USD\"\x7d],\"risk_profile\":" ++
      "\x7b\"tolerance\":\"moderate\",\"horizonMonths\":12,\"preferredIndicators\":" ++
      "[\"RSI-14\",\"MACD\"]\x7d\x7d") := by
  have hten : recordedText (.finite false (10 : ℕ)) = js "10" := recordedText_whole false 10
  have htwelve : recordedText (.finite false (12 : ℕ)) = js "12" := recordedText_whole false 12
  have hprice : recordedText (.finite false (761 / 4)) = js "190.25" := if_pos ⟨rfl, rfl⟩
  have hdoc : stringifyDoc recordedText (.obj recordedOptions.contextEntries) =
      .obj [(js "delivery_gateway_url", .str (js "https://buyer.trycloudflare.com")),
        (js "delivery_gateway_token", .str (js "relay-token")),
        (js "portfolio", .arr [.obj [(js "symbol", .str (js "AAPL")),
          (js "shares", .word (js "10")),
          (js "avgCost", .word (js "190.25")), (js "currency", .str (js "USD"))]]),
        (js "risk_profile", .obj [(js "tolerance", .str (js "moderate")),
          (js "horizonMonths", .word (js "12")),
          (js "preferredIndicators", .arr [.str (js "RSI-14"), .str (js "MACD")])])] := by
    rw [← hten, ← hprice, ← htwelve]
    rfl
  rw [buildNotifyContext, stringifyValue, hdoc]
  decide +kernel

/-- The recorded context fits the seller's limit. -/
theorem recorded_length :
    (utf8 (buildNotifyContext recordedText recordedOptions)).length ≤ maxContextBytes := by
  rw [recordedOptions_text]
  decide +kernel

/-- The recorded holding is within the limits. -/
theorem apple_limits :
    isHoldingSymbol (py "AAPL") = true ∧ isCurrency (py "USD") = true ∧
      (0 < (NotifySecurity.Num.int 10).value ∧ (NotifySecurity.Num.int 10).value ≤ maxValue) ∧
      (0 ≤ (NotifySecurity.Num.float false (761 / 4)).value ∧
        (NotifySecurity.Num.float false (761 / 4)).value ≤ maxValue) := by
  refine ⟨by decide, by decide, ?_, ?_⟩
  · norm_num [NotifySecurity.Num.value, maxValue]
  · norm_num [NotifySecurity.Num.value, maxValue]

/-- The recorded risk profile is within the limits. -/
theorem moderate_limits :
    py "moderate" ∈ riskTolerances ∧ ((1 : Int) ≤ 12 ∧ (12 : Int) ≤ 600) ∧
      (∀ indicator ∈ [py "RSI-14", py "MACD"], indicator ∈ supportedIndicators) ∧
      [py "RSI-14", py "MACD"].Nodup := by
  decide

/-- The recorded relay is within the limits. -/
theorem relay_limits :
    (py "https://buyer.trycloudflare.com").length ≤ maxGatewayUrlLength ∧
      (1 ≤ (py "relay-token").length ∧ (py "relay-token").length ≤ maxGatewayTokenLength) ∧
      13 ∉ py "relay-token" ∧ 10 ∉ py "relay-token" := by
  decide

def recordedContext : JobContext where
  digest := py "e379cedfcfb1f9afb686e3fa9140eb9396ce6c1d6c42d8d48d6e7d2c8cfe0b9a"
  gatewayUrl := some (py "https://buyer.trycloudflare.com")
  gatewayToken := some (py "relay-token")
  portfolio := [⟨py "AAPL", .int 10, .float false (761 / 4), py "USD", apple_limits.1,
    apple_limits.2.1, apple_limits.2.2.1, apple_limits.2.2.2⟩]
  riskProfile := some ⟨py "moderate", 12, [py "RSI-14", py "MACD"], moderate_limits.1,
    moderate_limits.2.1, moderate_limits.2.2.1, moderate_limits.2.2.2⟩
  gatewayUrl_ok := forall_mem_some relay_limits.1
  gatewayToken_ok := forall_mem_some relay_limits.2
  portfolio_ok := Nat.le_of_ble_eq_true rfl

/-- A small whole number is read as an integer. -/
theorem numOf_nat (n : ℕ) (h : n ≤ 2 ^ 53) : numOf (.finite false n) = some (.int n) := by
  have hle : (n : ℚ) ≤ 2 ^ 53 := by exact_mod_cast h
  rw [numOf, if_pos ⟨Rat.den_natCast n, hle⟩, Rat.num_natCast]
  rfl

/-- The recorded context agrees with the recorded options. -/
theorem agrees_recorded : Agrees recordedOptions recordedContext where
  gatewayUrl := rfl
  gatewayToken := rfl
  portfolio := by
    have hprice : numOf (.finite false (761 / 4)) = some (.float false (761 / 4)) := by
      have hden := Rat.den_div_eq_of_coprime (a := 761) (b := 4) (by decide) (by decide)
      simp only [Int.cast_ofNat] at hden
      refine if_neg fun h => ?_
      rw [h.1] at hden
      cases hden
    exact .cons (.mk (.refl _) rfl rfl (numOf_nat 10 (by decide)) hprice) .nil
  riskProfile :=
    .some (@IsRiskProfile.mk _ _ _ _ [js "RSI-14", js "MACD"] (.refl _) rfl
      (numOf_nat 12 (by decide)) rfl)

/-- The recorded options are held. -/
theorem held_recorded : recordedOptions.Held where
  gatewayUrl := forall_mem_some (by decide)
  gatewayToken := forall_mem_some (by decide)
  portfolio := by
    intro items hitems
    obtain rfl := Option.some.inj hitems
    have hprice : (Value.num (.finite false (761 / 4))).Held :=
      .finite ⟨761, -2, by decide, by decide, by decide, by norm_num⟩
    refine List.forall_mem_singleton.2 (.obj (by decide) ?_ ?_)
    · show [js "symbol", js "shares", js "avgCost", js "currency"].Nodup
      decide
    · simp only [List.forall_mem_cons]
      exact ⟨.str (by decide), held_num (by decide), hprice, .str (by decide), by simp⟩
  riskProfile := by
    intro v hv
    obtain rfl := Option.some.inj hv
    refine .obj (by decide) ?_ ?_
    · show [js "tolerance", js "horizonMonths", js "preferredIndicators"].Nodup
      decide
    · simp only [List.forall_mem_cons]
      refine ⟨.str (by decide), held_num (by decide), .arr ?_, by simp⟩
      simp only [List.forall_mem_cons]
      exact ⟨.str (by decide), .str (by decide), by simp⟩

/-- The seller's answer to the recorded authorization. -/
def recordedAnswer (now : Int) : Except Failure JobContext :=
  verifyNotifyAuthorization recordedCodec recordedEthereum
    (carried (numberJson recordedCodec recordedText)
      (createNotifyAuthorization recordedSigner 1152921504606846983
        (buildNotifyContext recordedText recordedOptions) 1800000000 recordedNonce))
    1152921504606846983 recordedAddress contractsChainId contractsCommerce now

/-- The recorded context is accepted in its time and refused after it. -/
theorem handshake_recorded : recordedAnswer 1800000010 = .ok recordedContext ∧
    recordedAnswer 1800000331 ≠ .ok recordedContext := by
  have hiff := fun now => @handshake _ _ _ recordedSigner 1152921504606846983 1800000000
    recordedNonce numberReads_recorded signs_recorded (by decide) (by norm_num)
    (by decide) recordedOptions held_recorded contractsCommerce _ rfl rfl recordedAddress _ rfl
    rfl now recordedContext
  refine ⟨(hiff 1800000010).2 ⟨by decide, recorded_length, agrees_recorded, rfl⟩, ?_⟩
  intro h
  exact absurd ((hiff 1800000331).1 h).1 (by decide)

theorem recorded_accepted : recordedAnswer 1800000010 = .ok recordedContext := by
  have hwell := wellFormed_buildNotifyContext numberReads_recorded held_recorded
  have hparse := (parseSignedContext_buildNotifyContext numberReads_recorded held_recorded).2
    ⟨recorded_length, agrees_recorded, rfl⟩
  have hanswer := @verifyNotifyAuthorization_created _ _ _ recordedSigner 1152921504606846983
    1800000000 _ recordedNonce numberReads_recorded signs_recorded (by decide)
    (by norm_num) (by decide) hwell contractsCommerce _ rfl rfl recordedAddress _ _ rfl rfl
    1800000010
  rw [recordedAnswer, hanswer, if_neg (Nat.not_lt.2 recorded_length), if_neg (by decide),
    if_neg (by decide), if_neg (not_not.2 rfl), hparse]
  rfl

/-- The recorded portfolio is the one in the prompt. -/
theorem accepted_signed_recorded :
    X402.normalizeContext recordedContext.portfolioForPrompt recordedContext.riskProfileForPrompt =
      (recordedContext.portfolio, recordedContext.riskProfile) := by
  obtain ⟨entries, envelope, encoded, contract, address, hfacts⟩ :=
    accepted_signed recorded_accepted
  exact hfacts.2.2.2.2.2.2.2

end NotifyAuth
