/-
  The crowdsales of `sp.cpp`: what a participation creates, the bonus an issuer
  has missed, and the end of a crowdsale.

  The products of `calculateFundraiser` stay below `2^256` for the arguments it
  gets, so they are natural numbers here.
-/
import Tecracoin.Elysium.Fees

namespace Tecracoin.Elysium

open Data

/-- The order of `std::map<std::string, _>`. -/
def ltText (a b : Text) : Bool := a < b

/-- `assert(_my_sps->getSP(propertyId, sp))`. -/
def assertSP (propertyId : PropertyId) : Op SpEntry := do
  let s ← get
  match s.mySps.getSP propertyId with
  | some sp => pure sp
  | none => throw (.asserts "_my_sps->getSP(propertyId, sp)")

/-- `assert(_my_sps->updateSP(propertyId, sp))`. -/
def assertUpdateSP (propertyId : PropertyId) (sp : SpEntry) : Op Unit := do
  let s ← get
  match s.mySps.updateSP propertyId sp with
  | some db => set { s with mySps := db }
  | none => throw (.asserts "_my_sps->updateSP(propertyId, sp)")

/-- `chainActive[block]->GetBlockHash()`. -/
def blockHashAt (env : Env) (block : Int) : Op Uint256 :=
  match env.chainActive block with
  | some hash => pure hash
  | none => throw (.undefined "chainActive[block]")

namespace Ledger

def getCrowd (s : Ledger) (address : Address) : Option CMPCrowd := s.myCrowds.get? address

def withCrowd (s : Ledger) (address : Address) (crowd : CMPCrowd) : Ledger :=
  { s with myCrowds := s.myCrowds.set ltText address crowd }

def withoutCrowd (s : Ledger) (address : Address) : Ledger :=
  { s with myCrowds := s.myCrowds.erase address }

end Ledger

/-! ## What a participation creates -/

def WEEKS_SEC : Nat := 604800
def PRECISION : Nat := 1000000000000
def PERCENTAGE_PRECISION : Nat := 100
def SATOSHI_PRECISION : Nat := 100000000

def bonusSeconds (fundraiserSecs currentSecs : Int) : Op Nat :=
  if currentSecs < fundraiserSecs then do
    let fundraiser ← convertTo256 fundraiserSecs
    let current ← convertTo256 currentSecs
    pure (fundraiser - current)
  else pure 0

def bonusPercentage (seconds bonusPerc : Nat) : Nat :=
  let weeks := seconds / WEEKS_SEC * PRECISION + seconds % WEEKS_SEC * PRECISION / WEEKS_SEC
  (PRECISION * PERCENTAGE_PRECISION + weeks * bonusPerc) / PERCENTAGE_PRECISION

/-- `createdTokens`, with all its decimal places. -/
def createdTokens (inflateAmount : Bool) (amount numProps bonus : Nat) : Nat :=
  (if inflateAmount then amount * SATOSHI_PRECISION else amount) * numProps * bonus

def createdTokensInt (created : Nat) : Nat := created / PRECISION / SATOSHI_PRECISION

def issuerTokensInt (created issuerPerc : Nat) : Nat :=
  let issuerPercentage := issuerPerc * PRECISION / PERCENTAGE_PRECISION
  created / SATOSHI_PRECISION / PRECISION * (issuerPercentage / 100) * PRECISION /
    PRECISION / SATOSHI_PRECISION / 100

def maxInt64 : Nat := 9223372036854775807

/-- The last part of `calculateFundraiser`: if the tokens would exceed what can ever exist, the rest
    is divided between user and issuer in proportion. -/
def limitTokens (total created issuer : Nat) : Op (Nat × Nat × Bool) :=
  if maxInt64 < total + created + issuer then do
    let maxCreatable := maxInt64 - total
    Op.ensure (decide (maxCreatable ≠ 0)) (.throws "Division by zero")
    let ratio := (created + issuer) * PRECISION * SATOSHI_PRECISION / maxCreatable
    Op.ensure (decide (ratio ≠ 0)) (.throws "Division by zero")
    let issuer' := issuer * PRECISION * SATOSHI_PRECISION / ratio
    Op.ensure (decide (issuer' ≤ maxCreatable)) (.asserts "issuerTokens_int <= maxCreatable")
    pure (maxCreatable - issuer', issuer', true)
  else pure (created, issuer, false)

/-- What a participation creates for user and issuer, and whether it closes the crowdsale. -/
structure FundraiserTokens where
  user : Int
  issuer : Int
  closes : Bool
deriving DecidableEq

def calculateFundraiser (inflateAmount : Bool) (amtTransfer : Int) (bonusPerc : Nat)
    (fundraiserSecs currentSecs numProps : Int) (issuerPerc : Nat) (totalTokens : Int) :
    Op FundraiserTokens := do
  let seconds ← bonusSeconds fundraiserSecs currentSecs
  let amount ← convertTo256 amtTransfer
  let props ← convertTo256 numProps
  let created := createdTokens inflateAmount amount props (bonusPercentage seconds bonusPerc)
  let total ← convertTo256 totalTokens
  let (user256, issuer256, closes) ← limitTokens total (createdTokensInt created)
    (issuerTokensInt created issuerPerc)
  let user ← convertTo64 user256
  let issuer ← convertTo64 issuer256
  pure ⟨user, issuer, closes⟩

/-! ## The bonus of the issuer -/

/-- The bonus an issuer should have got and has not, cut off at what can ever exist. -/
def missedBonus (percentage issuerCreated userCreated : Nat) : Nat :=
  let exactBonus := userCreated * percentage / 100
  if exactBonus < issuerCreated then 0
  else
    let amountMissing := exactBonus - issuerCreated
    let amountTotal := userCreated + issuerCreated
    if maxInt64 < amountTotal + amountMissing then maxInt64 - amountTotal else amountMissing

def getMissedIssuerBonus (sp : SpEntry) (crowdsale : CMPCrowd) : Op Int := do
  let s ← get
  -- consistency check
  Op.ensure (decide (s.getTotalTokens crowdsale.propertyId
      = crowdsale.iCreated + crowdsale.uCreated))
    (.asserts "getTotalTokens(propertyId) == issuerCreated + userCreated")
  let issuerCreated ← convertTo256 crowdsale.iCreated
  let userCreated ← convertTo256 crowdsale.uCreated
  convertTo64 (missedBonus sp.percentage issuerCreated userCreated)

/-! ## The end of a crowdsale -/

def eraseMaxedCrowdsale (env : Env) (address : Address) (blockTime block : Int) : Op Unit := do
  let s ← get
  match s.getCrowd address with
  | none => pure ()
  | some crowdsale => do
      let sp ← assertSP crowdsale.propertyId
      let updateBlock ← blockHashAt env block
      assertUpdateSP crowdsale.propertyId { sp with
        historicalData := crowdsale.txFundraiserData
        closeEarly := true
        maxTokens := true
        timeclosed := blockTime
        updateBlock := updateBlock }
      -- no calculate fractional calls here, no more tokens (at MAX)
      modify (fun s => s.withoutCrowd address)

end Tecracoin.Elysium
