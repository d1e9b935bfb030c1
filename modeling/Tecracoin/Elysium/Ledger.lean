/-
  The state of the Elysium layer: the maps and databases of `elysium.cpp`,
  `dex.h`, `mdex.h`, `sp.h`, `fees.h` and `property.h`, and the part of the node
  and of `rules.cpp` that the layer reads.

  Amounts are `int64_t` in the code; they are integers here, and every
  operation that can leave the range checks it as the code does.  A map keyed
  by a text that is put together from several values (`"seller-property"`,
  `"seller-property+buyer"`) is keyed by these values.  Log databases that no
  decision reads (trade list, transaction list, fee history) are left out.
-/
import Tecracoin.Data.Abort
import Tecracoin.Data.StdMap
import Tecracoin.Primitives.Transaction

namespace Tecracoin.Elysium

open Data

/-- A `std::string` of the protocol: base58 addresses and property names. -/
abbrev Text := List Char

abbrev Address := Text

/-- `uint32_t` property identifiers. -/
abbrev PropertyId := Nat

def ELYSIUM_PROPERTY_TCR : PropertyId := 0
def ELYSIUM_PROPERTY_ELYSIUM : PropertyId := 1
def ELYSIUM_PROPERTY_TELYSIUM : PropertyId := 2
def TEST_ECO_PROPERTY_1 : PropertyId := 0x80000003

def MAX_INT_8_BYTES : Int := 9223372036854775807
def MIN_INT_8_BYTES : Int := -9223372036854775808

def isTestEcosystemProperty (propertyId : PropertyId) : Bool :=
  propertyId == ELYSIUM_PROPERTY_TELYSIUM || TEST_ECO_PROPERTY_1 ≤ propertyId

def isMainEcosystemProperty (propertyId : PropertyId) : Bool :=
  propertyId != ELYSIUM_PROPERTY_TCR && !isTestEcosystemProperty propertyId

/-- How the layer stops without a result. -/
inductive Abort
  /-- `assert(expression)` does not hold: the process aborts. -/
  | asserts (expression : String)
  /-- An exception that nothing catches. -/
  | throws (what : String)
  /-- Undefined behaviour, such as reading past the end. -/
  | undefined (what : String)
  /-- A loop that never ends. -/
  | diverges (loop : String)
deriving DecidableEq

/-! ## Balances -/

inductive TallyType
  | BALANCE
  | SELLOFFER_RESERVE
  | ACCEPT_RESERVE
  | PENDING
  | METADEX_RESERVE
deriving DecidableEq

/-- `CMPTally::BalanceRecord`: one amount per tally type. -/
structure BalanceRecord where
  balance : Int
  selloffer : Int
  accept : Int
  pending : Int
  metadex : Int
deriving DecidableEq

structure CMPTally where
  mpToken : StdMap PropertyId BalanceRecord
deriving DecidableEq

/-! ## Exchanges -/

/-- `CMPMetaDEx`: an order on the token exchange. -/
structure CMPMetaDEx where
  block : Int
  txid : Uint256
  idx : Nat
  property : PropertyId
  amountForsale : Int
  desiredProperty : PropertyId
  amountDesired : Int
  amountRemaining : Int
  subaction : Nat
  addr : Address
deriving DecidableEq

/-- `md_Set`: the orders at one price, by block and index. -/
abbrev MdSet := List CMPMetaDEx

abbrev MdPricesMap := StdMap ℚ MdSet

abbrev MdPropertiesMap := StdMap PropertyId MdPricesMap

/-- `CMPOffer`: a sell offer for coins. -/
structure CMPOffer where
  offerBlock : Int
  offerAmountOriginal : Int
  property : PropertyId
  tcrDesiredOriginal : Int
  minFee : Int
  blocktimelimit : Nat
  txid : Uint256
  subaction : Nat
deriving DecidableEq

/-- `CMPAccept`: an accepted part of a sell offer. -/
structure CMPAccept where
  acceptAmountOriginal : Int
  acceptAmountRemaining : Int
  blocktimelimit : Nat
  property : PropertyId
  offerAmountOriginal : Int
  tcrDesiredOriginal : Int
  offerTxid : Uint256
  block : Int
deriving DecidableEq

/-- What `STR_SELLOFFER_ADDR_PROP_COMBO` puts together. -/
structure OfferKey where
  seller : Address
  property : PropertyId
deriving DecidableEq

/-- What `STR_ACCEPT_ADDR_PROP_ADDR_COMBO` puts together. -/
structure AcceptKey where
  seller : Address
  property : PropertyId
  buyer : Address
deriving DecidableEq

/-! ## Properties and crowdsales -/

inductive SigmaStatus
  | SoftDisabled
  | SoftEnabled
  | HardDisabled
  | HardEnabled
  /-- A byte of a payload that is none of the four. -/
  | invalid (code : Nat)
deriving DecidableEq

/-- `CMPSPInfo::Entry`. -/
structure SpEntry where
  issuer : Address
  propType : Nat
  prevPropId : PropertyId
  category : Text
  subcategory : Text
  name : Text
  url : Text
  data : Text
  numTokens : Int
  propertyDesired : PropertyId
  deadline : Int
  earlyBird : Nat
  percentage : Nat
  closeEarly : Bool
  maxTokens : Bool
  missedTokens : Int
  timeclosed : Int
  txidClose : Uint256
  txid : Uint256
  creationBlock : Uint256
  updateBlock : Uint256
  fixed : Bool
  manual : Bool
  sigmaStatus : SigmaStatus
  denominations : List Int
  historicalData : StdMap Uint256 (List Int)
deriving DecidableEq

/-- `CMPSPInfo`: the entries under `'s'`, the two implied properties and the next free identifiers.
    -/
structure CMPSPInfo where
  sps : StdMap PropertyId SpEntry
  impliedElysium : SpEntry
  impliedTelysium : SpEntry
  nextSpid : PropertyId
  nextTestSpid : PropertyId
deriving DecidableEq

/-- `CMPCrowd`: a live crowdsale. -/
structure CMPCrowd where
  propertyId : PropertyId
  nValue : Int
  propertyDesired : PropertyId
  deadline : Int
  earlyBird : Nat
  percentage : Nat
  uCreated : Int
  iCreated : Int
  txFundraiserData : StdMap Uint256 (List Int)
deriving DecidableEq

/-! ## The state -/

/-- `feeCacheItem`: a block and the amount cached after it. -/
abbrev FeeCacheItem := Int × Int

structure Ledger where
  mpTallyMap : StdMap Address CMPTally
  feeCache : StdMap PropertyId (List FeeCacheItem)
  distributionThresholds : StdMap PropertyId Int
  metadex : MdPropertiesMap
  myOffers : StdMap OfferKey CMPOffer
  myAccepts : StdMap AcceptKey CMPAccept
  myCrowds : StdMap Address CMPCrowd
  mySps : CMPSPInfo
  setFreezingEnabledProperties : List (PropertyId × Int)
  setFrozenAddresses : List (Address × PropertyId)
deriving DecidableEq

/-- A computation over the Elysium state. -/
abbrev Op (α : Type) := Data.Op Abort Ledger α

/-! ## Rules and the node -/

inductive Feature
  | FEATURE_CLASS_C
  | FEATURE_METADEX
  | FEATURE_BETTING
  | FEATURE_GRANTEFFECTS
  | FEATURE_DEXMATH
  | FEATURE_SENDALL
  | FEATURE_SPCROWDCROSSOVER
  | FEATURE_TRADEALLPAIRS
  | FEATURE_FEES
  | FEATURE_STOV1
  | FEATURE_FREEZENOTICE
  | FEATURE_SIGMA
deriving DecidableEq

structure TransactionRestriction where
  txType : Nat
  txVersion : Nat
  allowWildcard : Bool
  activationBlock : Int

/-- What the layer reads besides its own state. A run may meet a different one at every step:
    feature activations change it. -/
structure Env where
  /-- The activation block of each feature in `ConsensusParams()`. -/
  featureBlock : Feature → Int
  /-- `ConsensusParams().GetRestrictions()`. -/
  restrictions : List TransactionRestriction
  /-- The block hash of `chainActive[block]`, if there is one. -/
  chainActive : Int → Option Uint256
  /-- `PROPERTY_CREATION_FEE_BLOCK`, `_RECEIVER` and `PROPERTY_CREATION_FEE`. -/
  creationFeeBlock : Int
  creationFeeReceiver : Address
  creationFee : Int
  /-- `ELYSIUM_FREEZE_WAIT_PERIOD`. -/
  freezeWaitPeriod : Int
  /-- `elysium_debug_fees`: pruning the fee cache depends on it. -/
  debugFees : Bool
  /-- `GetSystemAddress().ToString()`. -/
  systemAddress : Address
  /-- `legacy::calculateDesiredBTC` and `legacy::calculateDExPurchase`, in floating point. -/
  legacyDesiredBTC : Int → Int → Int → Int
  legacyDExPurchase : Int → Int → Int → Int
  /-- `CheckDeactivationAuthorization`, `CheckActivationAuthorization` and `CheckAlertAuthorization`
      of the sender. -/
  deactivationAuthorized : Address → Bool
  activationAuthorized : Address → Bool
  alertAuthorized : Address → Bool
  /-- The answer of `ActivateFeature`. -/
  activateFeature : Option Feature → Int → Bool

namespace Env

/-- A node on which every feature is active from the start and no oracle accepts anything. -/
def quiet : Env where
  featureBlock _ := 0
  restrictions := []
  chainActive _ := some 0
  creationFeeBlock := 0
  creationFeeReceiver := []
  creationFee := 0
  freezeWaitPeriod := 0
  debugFees := false
  systemAddress := []
  legacyDesiredBTC _ _ _ := 0
  legacyDExPurchase _ _ _ := 0
  deactivationAuthorized _ := false
  activationAuthorized _ := false
  alertAuthorized _ := false
  activateFeature _ _ := false

def isFeatureActivated (env : Env) (feature : Feature) (transactionBlock : Int) : Bool :=
  env.featureBlock feature ≤ transactionBlock

def isTransactionTypeAllowed (env : Env) (txBlock : Int) (txProperty : PropertyId)
    (txType version : Nat) : Bool :=
  env.restrictions.any fun entry =>
    entry.txType == txType && entry.txVersion == version &&
      -- a property identifier of 0 may be used as wildcard
      !(txProperty == ELYSIUM_PROPERTY_TCR && !entry.allowWildcard) &&
      (isTestEcosystemProperty txProperty || entry.activationBlock ≤ txBlock)

def isRequireCreationFee (env : Env) (ecosystem : Nat) (block : Int) : Bool :=
  ecosystem == ELYSIUM_PROPERTY_ELYSIUM && env.creationFeeBlock ≤ block

end Env

end Tecracoin.Elysium
