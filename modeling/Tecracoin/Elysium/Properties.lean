/-
  The property database of `sp.cpp` and the questions asked of it.
-/
import Tecracoin.Elysium.Tally

namespace Tecracoin.Elysium

open Data

def ELYSIUM_PROPERTY_TYPE_INDIVISIBLE : Nat := 1
def ELYSIUM_PROPERTY_TYPE_DIVISIBLE : Nat := 2
def ELYSIUM_PROPERTY_TYPE_DIVISIBLE_REPLACING : Nat := 66
def ELYSIUM_PROPERTY_TYPE_DIVISIBLE_APPENDING : Nat := 130

def MAX_DENOMINATIONS : Nat := 255

namespace SpEntry

/-- `Entry::Entry()`, with the null values of the fields it does not set. -/
def null : SpEntry where
  issuer := []
  propType := 0
  prevPropId := 0
  category := []
  subcategory := []
  name := []
  url := []
  data := []
  numTokens := 0
  propertyDesired := 0
  deadline := 0
  earlyBird := 0
  percentage := 0
  closeEarly := false
  maxTokens := false
  missedTokens := 0
  timeclosed := 0
  txidClose := 0
  txid := 0
  creationBlock := 0
  updateBlock := 0
  fixed := false
  manual := false
  sigmaStatus := .SoftDisabled
  denominations := []
  historicalData := .empty

def isDivisible (sp : SpEntry) : Bool :=
  sp.propType == ELYSIUM_PROPERTY_TYPE_DIVISIBLE ||
    sp.propType == ELYSIUM_PROPERTY_TYPE_DIVISIBLE_REPLACING ||
    sp.propType == ELYSIUM_PROPERTY_TYPE_DIVISIBLE_APPENDING

end SpEntry

namespace SigmaStatus

/-- `IsSigmaStatusValid`. -/
def isValid : SigmaStatus → Bool
  | .invalid _ => false
  | _ => true

def isEnabledFlag (status : SigmaStatus) : Bool :=
  status == .SoftEnabled || status == .HardEnabled

end SigmaStatus

namespace CMPSPInfo

/-- One of the two properties that exist from the start. -/
def implied (systemAddress : Address) (name : String) : SpEntry :=
  { SpEntry.null with
    issuer := systemAddress
    propType := ELYSIUM_PROPERTY_TYPE_DIVISIBLE
    numTokens := 700000
    category := "N/A".toList
    subcategory := "N/A".toList
    name := name.toList
    url := "https://www.tecracoin.io".toList
    data := (name ++ " serve as the binding between TecraCoin, smart properties and contracts " ++
      "created on the Elysium Layer.").toList }

/-- `CMPSPInfo()` of an empty database. -/
def initial (systemAddress : Address) : CMPSPInfo where
  sps := .empty
  impliedElysium := implied systemAddress "Elysium"
  impliedTelysium := implied systemAddress "Test Elysium"
  nextSpid := 3
  nextTestSpid := TEST_ECO_PROPERTY_1

variable (db : CMPSPInfo)

def peekNextSPID (ecosystem : Nat) : PropertyId :=
  if ecosystem = ELYSIUM_PROPERTY_ELYSIUM then db.nextSpid
  else if ecosystem = ELYSIUM_PROPERTY_TELYSIUM then db.nextTestSpid
  else 0

def getSP (propertyId : PropertyId) : Option SpEntry :=
  if propertyId = ELYSIUM_PROPERTY_ELYSIUM then some db.impliedElysium
  else if propertyId = ELYSIUM_PROPERTY_TELYSIUM then some db.impliedTelysium
  else db.sps.get? propertyId

/-- `updateSP`: refused for the two implied properties. -/
def updateSP (propertyId : PropertyId) (info : SpEntry) : Option CMPSPInfo :=
  if propertyId = ELYSIUM_PROPERTY_ELYSIUM ∨ propertyId = ELYSIUM_PROPERTY_TELYSIUM then none
  else some { db with sps := db.sps.set CMPTally.ltProperty propertyId info }

/-- `putSP`: the identifier the entry is filed under, and the database. The counters are `uint32_t`.
    -/
def putSP (ecosystem : Nat) (info : SpEntry) : PropertyId × CMPSPInfo :=
  let propertyId := db.peekNextSPID ecosystem
  let written := { db with sps := db.sps.set CMPTally.ltProperty propertyId info }
  if ecosystem = ELYSIUM_PROPERTY_ELYSIUM then
    (propertyId, { written with nextSpid := (db.nextSpid + 1) % 2 ^ 32 })
  else if ecosystem = ELYSIUM_PROPERTY_TELYSIUM then
    (propertyId, { written with nextTestSpid := (db.nextTestSpid + 1) % 2 ^ 32 })
  else (propertyId, written)

def isPropertyIdValid (propertyId : PropertyId) : Bool :=
  propertyId != 0 &&
    propertyId < db.peekNextSPID (if propertyId < TEST_ECO_PROPERTY_1 then 1 else 2)

def isPropertyDivisible (propertyId : PropertyId) : Bool :=
  match db.getSP propertyId with
  | some sp => sp.isDivisible
  | none => true

end CMPSPInfo

/-- The state `clear_all_state` leaves. -/
def Ledger.cleared (systemAddress : Address) : Ledger where
  mpTallyMap := .empty
  feeCache := .empty
  distributionThresholds := .empty
  metadex := .empty
  myOffers := .empty
  myAccepts := .empty
  myCrowds := .empty
  mySps := .initial systemAddress
  setFreezingEnabledProperties := []
  setFrozenAddresses := []

/-- `ConvertTo256(number)`. -/
def convertTo256 (number : Int) : Op Nat := do
  Op.ensure (decide (0 ≤ number)) (.asserts "number >= 0")
  pure number.toNat

/-- `ConvertTo64(number)`. -/
def convertTo64 (number : Nat) : Op Int := do
  Op.ensure (decide ((number : Int) ≤ MAX_INT_8_BYTES))
    (.asserts "number <= uint256_const::max_int64")
  pure number

def divideAndRoundUp (numerator denominator : Nat) : Nat :=
  if numerator = 0 then 0 else 1 + (numerator - 1) / denominator

variable {denominator : Nat} {E : Abort → Prop} {s : Ledger} {numerator : Nat}

/-- Rounded up: the least `q` with `numerator ≤ q * denominator`. -/
lemma divideAndRoundUp_le_iff {q : Nat} (h : 0 < denominator) :
    divideAndRoundUp numerator denominator ≤ q ↔ numerator ≤ q * denominator := by
  unfold divideAndRoundUp
  split_ifs with hzero
  · simp [hzero]
  · constructor
    · intro hle
      have hlt : (numerator - 1) / denominator < q := by omega
      have hmul := (Nat.div_lt_iff_lt_mul h).mp hlt
      omega
    · intro hle
      have hlt : (numerator - 1) / denominator < q := (Nat.div_lt_iff_lt_mul h).mpr (by omega)
      omega

lemma le_divideAndRoundUp_mul (numerator : Nat) (h : 0 < denominator) :
    numerator ≤ divideAndRoundUp numerator denominator * denominator :=
  (divideAndRoundUp_le_iff h).mp le_rfl

lemma divideAndRoundUp_eq_ceil (h : 0 < denominator) :
    (divideAndRoundUp numerator denominator : Int) = ⌈(numerator : ℚ) / denominator⌉ := by
  have hpos : (0 : ℚ) < denominator := by exact_mod_cast h
  refine le_antisymm ?_ (Int.ceil_le.mpr ?_)
  · have hceil : 0 ≤ ⌈(numerator : ℚ) / denominator⌉ := Int.ceil_nonneg (by positivity)
    obtain ⟨q, hq⟩ := Int.eq_ofNat_of_zero_le hceil
    have hle : (numerator : ℚ) / denominator ≤ (q : Int) := by
      rw [← hq]
      exact Int.le_ceil _
    rw [div_le_iff₀ hpos] at hle
    rw [hq]
    exact_mod_cast (divideAndRoundUp_le_iff h).mpr (by exact_mod_cast hle)
  · rw [div_le_iff₀ hpos]
    exact_mod_cast le_divideAndRoundUp_mul numerator h

lemma convertTo256_ends {number : Int} (h : number < 0 → ∀ e, E e) :
    Op.Ends E (convertTo256 number) s (fun n s' => s' = s ∧ (n : Int) = number) := by
  exact Op.ends_ensure_bind (fun hc => h (not_le.mp hc) _)
    (fun hc => Op.ends_pure ⟨rfl, Int.toNat_of_nonneg hc⟩)

lemma convertTo64_ends {number : Nat} (h : MAX_INT_8_BYTES < number → ∀ e, E e) :
    Op.Ends E (convertTo64 number) s (fun n s' => s' = s ∧ n = number ∧ n ≤ MAX_INT_8_BYTES) := by
  exact Op.ends_ensure_bind (fun hc => h (not_le.mp hc) _) (fun hc => Op.ends_pure ⟨rfl, rfl, hc⟩)

end Tecracoin.Elysium
