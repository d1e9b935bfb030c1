/-
  `tx.cpp`: what each kind of transaction checks and does.

  Most functions check first and then act.  Their checks stand in a table of
  conditions and codes (`checked`): the first condition that holds rejects the
  transaction with its code, and nothing has happened by then.
-/
import Tecracoin.Elysium.Crowdsale
import Tecracoin.Elysium.DEx
import Tecracoin.Elysium.MetaDEx

namespace Tecracoin.Elysium

open Data Op

def PKT_ERROR : Int := -9000
def PKT_ERROR_SP : Int := -40000
def PKT_ERROR_CROWD : Int := -45000
def PKT_ERROR_STO : Int := -50000
def PKT_ERROR_SEND : Int := -60000
def PKT_ERROR_TRADEOFFER : Int := -70000
def PKT_ERROR_METADEX : Int := -80000
def PKT_ERROR_TOKENS : Int := -82000
def PKT_ERROR_SEND_ALL : Int := -83000

def MP_TX_PKT_V0 : Nat := 0
def MP_TX_PKT_V1 : Nat := 1

/-- `ActionTypes`. -/
def NEW : Nat := 1
def UPDATE : Nat := 2
def CANCEL : Nat := 3

/-- `TransactionType`, as far as it is interpreted. -/
inductive TransactionType
  | SIMPLE_SEND
  | SEND_TO_OWNERS
  | SEND_ALL
  | TRADE_OFFER
  | ACCEPT_OFFER_BTC
  | METADEX_TRADE
  | METADEX_CANCEL_PRICE
  | METADEX_CANCEL_PAIR
  | METADEX_CANCEL_ECOSYSTEM
  | CREATE_PROPERTY_FIXED
  | CREATE_PROPERTY_VARIABLE
  | CLOSE_CROWDSALE
  | CREATE_PROPERTY_MANUAL
  | GRANT_PROPERTY_TOKENS
  | REVOKE_PROPERTY_TOKENS
  | CHANGE_ISSUER_ADDRESS
  | ENABLE_FREEZING
  | DISABLE_FREEZING
  | FREEZE_PROPERTY_TOKENS
  | UNFREEZE_PROPERTY_TOKENS
  | SIMPLE_SPEND
  | CREATE_DENOMINATION
  | SIMPLE_MINT
  | DEACTIVATION
  | ACTIVATION
  | ALERT
  | unknown (code : Nat)
deriving DecidableEq

/-- The number of a type in a payload. -/
def TransactionType.code : TransactionType → Nat
  | .SIMPLE_SEND => 0
  | .SEND_TO_OWNERS => 3
  | .SEND_ALL => 4
  | .TRADE_OFFER => 20
  | .ACCEPT_OFFER_BTC => 22
  | .METADEX_TRADE => 25
  | .METADEX_CANCEL_PRICE => 26
  | .METADEX_CANCEL_PAIR => 27
  | .METADEX_CANCEL_ECOSYSTEM => 28
  | .CREATE_PROPERTY_FIXED => 50
  | .CREATE_PROPERTY_VARIABLE => 51
  | .CLOSE_CROWDSALE => 53
  | .CREATE_PROPERTY_MANUAL => 54
  | .GRANT_PROPERTY_TOKENS => 55
  | .REVOKE_PROPERTY_TOKENS => 56
  | .CHANGE_ISSUER_ADDRESS => 70
  | .ENABLE_FREEZING => 71
  | .DISABLE_FREEZING => 72
  | .FREEZE_PROPERTY_TOKENS => 185
  | .UNFREEZE_PROPERTY_TOKENS => 186
  | .SIMPLE_SPEND => 1024
  | .CREATE_DENOMINATION => 1025
  | .SIMPLE_MINT => 1026
  | .DEACTIVATION => 65533
  | .ACTIVATION => 65534
  | .ALERT => 65535
  | .unknown code => code

/-- `CMPTransaction`, after its payload has been parsed. The numbers are unsigned as in the code;
    `interpreted` is the answer of `interpret_Transaction`. -/
structure CMPTransaction where
  rpcOnly : Bool
  interpreted : Bool
  txid : Uint256
  block : Int
  blockTime : Int
  txIdx : Nat
  txFeePaid : Int
  sender : Address
  receiver : Address
  referenceAmount : Option Int
  type : TransactionType
  version : Nat
  nValue : Nat
  nNewValue : Nat
  property : PropertyId
  distributionProperty : PropertyId
  ecosystem : Nat
  propType : Nat
  category : Text
  subcategory : Text
  name : Text
  url : Text
  data : Text
  deadline : Nat
  earlyBird : Nat
  percentage : Nat
  desiredProperty : PropertyId
  desiredValue : Nat
  amountDesired : Nat
  blocktimelimit : Nat
  minFee : Nat
  subaction : Nat
  /-- The feature of an activation message, if its number is known. -/
  feature : Option Feature
  activationBlock : Int
  sigmaStatus : SigmaStatus
deriving DecidableEq

/-- A quiet node that permits the first version of some types. -/
def Env.permitting (types : List TransactionType) : Env :=
  { Env.quiet with restrictions := types.map (fun type => ⟨type.code, 0, true, 0⟩) }

/-- `static_cast<int64_t>` of an unsigned number. -/
def toInt64 (value : Nat) : Int := Int.bmod value (2 ^ 64)

/-- The first check that fails answers; if none does, the body runs. -/
def checked (checks : List (Bool × Int)) (body : Op Int) : Op Int :=
  match checks.find? (fun check => check.1) with
  | some check => pure check.2
  | none => body

lemma checked_ends {E : Abort → Prop} {checks : List (Bool × Int)} {body : Op Int} {s : Ledger}
    {Q : Int → Ledger → Prop} (hrejected : ∀ check ∈ checks, check.1 = true → Q check.2 s)
    (hbody : (∀ check ∈ checks, check.1 = false) → Op.Ends E body s Q) :
    Op.Ends E (checked checks body) s Q := by
  unfold checked
  cases hfind : checks.find? (fun check => check.1) with
  | some check =>
    exact ends_pure (hrejected check (List.mem_of_find?_eq_some hfind) (List.find?_some hfind))
  | none =>
    refine hbody (fun check hmem => ?_)
    have hnone := List.find?_eq_none.mp hfind check hmem
    rwa [Bool.not_eq_true] at hnone

lemma toInt64_of_le {value : Nat}
    (h : (value : Int) ≤ MAX_INT_8_BYTES) : toInt64 value = value := by
  unfold MAX_INT_8_BYTES at h
  refine Int.bmod_eq_of_le ?_ ?_
  · omega
  · omega

variable (env : Env) (tx : CMPTransaction)

namespace CMPTransaction

/-- `SetNull`. -/
def null : CMPTransaction where
  rpcOnly := true
  interpreted := false
  txid := 0
  block := -1
  blockTime := 0
  txIdx := 0
  txFeePaid := 0
  sender := []
  receiver := []
  referenceAmount := none
  type := .SIMPLE_SEND
  version := 0
  nValue := 0
  nNewValue := 0
  property := 0
  distributionProperty := 0
  ecosystem := 0
  propType := 0
  category := []
  subcategory := []
  name := []
  url := []
  data := []
  deadline := 0
  earlyBird := 0
  percentage := 0
  desiredProperty := 0
  desiredValue := 0
  amountDesired := 0
  blocktimelimit := 0
  minFee := 0
  subaction := 0
  feature := none
  activationBlock := 0
  sigmaStatus := .SoftDisabled

/-- `receiver`, or the sender if it is empty. -/
def orSelf : CMPTransaction :=
  if tx.receiver = [] then { tx with receiver := tx.sender } else tx

/-- The type is not permitted for a property at the block. -/
def notAllowed (property : PropertyId) : Bool :=
  !env.isTransactionTypeAllowed tx.block property tx.type.code tx.version

/-- `nValue <= 0 || MAX_INT_8_BYTES < nValue`. -/
def outOfRange (value : Nat) : Bool := decide (value = 0) || decide (MAX_INT_8_BYTES < value)

/-- `chainActive[block] == NULL`. -/
def notInChain : Bool := (env.chainActive tx.block).isNone

/-- The ecosystem is neither of the two. -/
def invalidEcosystem : Bool :=
  decide (ELYSIUM_PROPERTY_ELYSIUM ≠ tx.ecosystem) &&
    decide (ELYSIUM_PROPERTY_TELYSIUM ≠ tx.ecosystem)

/-- The sender has less than the value. -/
def insufficient (s : Ledger) (value : Nat) : Bool :=
  decide (s.getMPbalance tx.sender tx.property .BALANCE < toInt64 value)

def checkPropertyCreationFee : Bool :=
  match tx.referenceAmount with
  | none => false
  | some amount => !tx.receiver.isEmpty && decide (tx.receiver = env.creationFeeReceiver) &&
      decide (env.creationFee ≤ amount)

/-- The fee for the creation of a property is required and not paid. -/
def creationFeeMissing : Bool :=
  env.isRequireCreationFee tx.ecosystem tx.block && !tx.checkPropertyCreationFee env

/-- The property type is neither of the two. -/
def invalidPropType : Bool :=
  decide (ELYSIUM_PROPERTY_TYPE_INDIVISIBLE ≠ tx.propType) &&
    decide (ELYSIUM_PROPERTY_TYPE_DIVISIBLE ≠ tx.propType)

end CMPTransaction

open CMPTransaction

/-- The block hash read at the start of a function, after the check for NULL. -/
def Env.blockHash (block : Int) : Uint256 := (env.chainActive block).getD 0

/-! ## Sends -/

/-- The crowdsale after a participation. -/
def CMPCrowd.participated (crowd : CMPCrowd) (tx : CMPTransaction) (tokens : FundraiserTokens) :
    CMPCrowd :=
  { crowd with
    uCreated := crowd.uCreated + tokens.user
    iCreated := crowd.iCreated + tokens.issuer
    txFundraiserData := crowd.txFundraiserData.insert StdMap.unordered tx.txid
      [tx.nValue, tx.blockTime, tokens.user, tokens.issuer] }

/-- The call of `calculateFundraiser` for a participation in a crowdsale. -/
def participationTokens (crowd : CMPCrowd) (sp : SpEntry) (s : Ledger) : Op FundraiserTokens :=
  calculateFundraiser (!s.mySps.isPropertyDivisible tx.property) tx.nValue sp.earlyBird sp.deadline
    tx.blockTime sp.numTokens sp.percentage (s.getTotalTokens crowd.propertyId)

/-- `logicHelper_CrowdsaleParticipation`. -/
def crowdsaleParticipation : Op Int := do
  let s ← get
  match s.getCrowd tx.receiver with
  | none => pure (PKT_ERROR_CROWD - 1)
  | some crowd =>
    if crowd.propertyDesired ≠ tx.property then pure (PKT_ERROR_CROWD - 2)
    else do
      let sp ← assertSP crowd.propertyId
      let tokens ← participationTokens tx crowd sp s
      modify (fun s => s.withCrowd tx.receiver (crowd.participated tx tokens))
      -- credit tokens for this fundraiser
      when (decide (0 < tokens.user))
        (assertTally tx.sender crowd.propertyId tokens.user .BALANCE)
      when (decide (0 < tokens.issuer))
        (assertTally tx.receiver crowd.propertyId tokens.issuer .BALANCE)
      notifyTotalTokensChanged env crowd.propertyId tx.block
      -- close the crowdsale, if it has reached the maximum
      when tokens.closes (eraseMaxedCrowdsale env tx.receiver tx.blockTime tx.block)
      pure (if tokens.user = 0 ∧ tokens.issuer = 0 then PKT_ERROR_CROWD - 3 else 0)

/-- Move tokens from the sender to the receiver, who may have a crowdsale. -/
def sendTokens : Op Int := do
  assertTally tx.sender tx.property (-tx.nValue) .BALANCE
  assertTally tx.receiver tx.property tx.nValue .BALANCE
  let _ ← crowdsaleParticipation env tx
  pure 0

def logicMathSimpleSend : Op Int := do
  let s ← get
  checked
    [(tx.notAllowed env tx.property, PKT_ERROR_SEND - 22),
      (outOfRange tx.nValue, PKT_ERROR_SEND - 23),
      (!s.mySps.isPropertyIdValid tx.property, PKT_ERROR_SEND - 24),
      (tx.insufficient s tx.nValue, PKT_ERROR_SEND - 25)]
    (sendTokens env tx.orSelf)

/-- The loop of `logicMath_SendToOwners`: what has been sent. -/
def payOwners (sender : Address) (property : PropertyId) (receivers : List (Int × Address)) :
    Op Int :=
  receivers.foldlM (fun sentSoFar receiver => do
    assertTally sender property (-receiver.1) .BALANCE
    assertTally receiver.2 property receiver.1 .BALANCE
    pure (sentSoFar + receiver.1)) 0

/-- The part of `logicMath_SendToOwners` after the checks. -/
def sendToOwners : Op Int := do
  let distributeTo := if tx.version = MP_TX_PKT_V0 then tx.property else tx.distributionProperty
  let receivers ← stoGetReceivers tx.sender distributeTo tx.nValue
  if receivers.isEmpty then pure (PKT_ERROR_STO - 26)
  else do
    let sentSoFar ← payOwners tx.sender tx.property receivers
    ensure (sentSoFar == (tx.nValue : Int)) (.asserts "sent_so_far == (int64_t)nValue")
    when (decide (tx.version = MP_TX_PKT_V0))
      (notifyTotalTokensChanged env ELYSIUM_PROPERTY_ELYSIUM tx.block)
    pure 0

def logicMathSendToOwners : Op Int := do
  let s ← get
  checked
    [(tx.notAllowed env tx.property, PKT_ERROR_STO - 22),
      (outOfRange tx.nValue, PKT_ERROR_STO - 23),
      (!s.mySps.isPropertyIdValid tx.property, PKT_ERROR_STO - 24),
      (decide (MP_TX_PKT_V0 < tx.version) && !s.mySps.isPropertyIdValid tx.distributionProperty,
        PKT_ERROR_STO - 24),
      (tx.insufficient s tx.nValue, PKT_ERROR_STO - 25)]
    (sendToOwners env tx)

/-- Whether `logicMath_SendAll` looks at a property of the sender. -/
def sendsProperty (s : Ledger) (propertyId : PropertyId) : Bool :=
  !(decide (tx.ecosystem = ELYSIUM_PROPERTY_ELYSIUM) && isTestEcosystemProperty propertyId) &&
    !(decide (tx.ecosystem = ELYSIUM_PROPERTY_TELYSIUM) && isMainEcosystemProperty propertyId) &&
    -- do not transfer tokens from a frozen property
    !s.isAddressFrozen tx.sender propertyId

/-- The loop of `logicMath_SendAll`: the number of properties sent. -/
def sendAllProperties (tx : CMPTransaction) : List PropertyId → Op Nat
  | [] => pure 0
  | propertyId :: rest => do
      let s ← get
      let moneyAvailable := s.money tx.sender propertyId .BALANCE
      if sendsProperty tx s propertyId = true ∧ 0 < moneyAvailable then do
        assertTally tx.sender propertyId (-moneyAvailable) .BALANCE
        assertTally tx.receiver propertyId moneyAvailable .BALANCE
        let more ← sendAllProperties tx rest
        pure (more + 1)
      else sendAllProperties tx rest

/-- The part of `logicMath_SendAll` after the first check. The iterator of the tally stops at
    property 0. -/
def sendAll : Op Int := do
  let s ← get
  match s.mpTallyMap.get? tx.sender with
  | none => pure (PKT_ERROR_SEND_ALL - 54)
  | some tally => do
      let numberOfPropertiesSent ← sendAllProperties tx
        (tally.mpToken.keys.takeWhile (fun propertyId => propertyId ≠ 0))
      pure (if numberOfPropertiesSent = 0 then PKT_ERROR_SEND_ALL - 55 else 0)

def logicMathSendAll : Op Int :=
  checked [(tx.notAllowed env tx.ecosystem, PKT_ERROR_SEND_ALL - 22)] (sendAll tx.orSelf)

/-! ## The exchange for coins -/

/-- The terms of the offer in a transaction. -/
def CMPTransaction.terms : OfferTerms :=
  ⟨tx.nValue, tx.block, toInt64 tx.amountDesired, toInt64 tx.minFee, tx.blocktimelimit, tx.txid⟩

/-- What a trade offer asks for. -/
inductive OfferAction
  | create
  | update
  | destroy
  | reject (code : Int)
deriving DecidableEq

/-- The action of a transaction of version 0: it depends on the amount and on whether there is an
    offer. -/
def offerActionV0 (exists_ : Bool) : OfferAction :=
  if tx.nValue ≠ 0 then if exists_ then .update else .create
  else if exists_ then .destroy else .reject (PKT_ERROR_TRADEOFFER - 49)

/-- The action of a transaction of version 1, which names it. -/
def offerActionV1 (exists_ : Bool) : OfferAction :=
  if exists_ = true ∧ CANCEL ≠ tx.subaction ∧ UPDATE ≠ tx.subaction then
    .reject (PKT_ERROR_TRADEOFFER - 48)
  else if exists_ = false ∧ NEW ≠ tx.subaction then .reject (PKT_ERROR_TRADEOFFER - 49)
  else if tx.subaction = NEW then .create
  else if tx.subaction = UPDATE then .update
  else if tx.subaction = CANCEL then .destroy
  else .reject (PKT_ERROR - 999)

/-- Which action a trade offer is. -/
def offerAction (exists_ : Bool) : OfferAction :=
  if tx.version = MP_TX_PKT_V0 then offerActionV0 tx exists_
  else if tx.version = MP_TX_PKT_V1 then offerActionV1 tx exists_
  else .reject (PKT_ERROR - 500)

/-- The part of `logicMath_TradeOffer` after the checks. -/
def tradeOfferAction : OfferAction → Op Int
  | .create => dexOfferCreate env tx.sender tx.property tx.terms
  | .update => dexOfferUpdate env tx.sender tx.property tx.terms
  | .destroy => dexOfferDestroy tx.sender tx.property
  | .reject code => pure code

def logicMathTradeOffer : Op Int := do
  let s ← get
  checked
    [(tx.notAllowed env tx.property, PKT_ERROR_TRADEOFFER - 22),
      (decide (MAX_INT_8_BYTES < tx.nValue), PKT_ERROR_TRADEOFFER - 23),
      (decide (ELYSIUM_PROPERTY_TELYSIUM ≠ tx.property) &&
        decide (ELYSIUM_PROPERTY_ELYSIUM ≠ tx.property), PKT_ERROR_TRADEOFFER - 47)]
    (tradeOfferAction env tx (offerAction tx (s.offerExists tx.sender tx.property)))

/-- `logicMath_AcceptOffer_BTC`. -/
def logicMathAcceptOffer : Op Int :=
  checked
    [(tx.notAllowed env tx.property, DEX_ERROR_ACCEPT - 22),
      (outOfRange tx.nValue, DEX_ERROR_ACCEPT - 23)]
    (dexAcceptCreate tx.sender tx.receiver tx.property tx.nValue tx.block tx.txFeePaid)

/-! ## The token exchange -/

/-- The checks of the two properties of a transaction for the token exchange. -/
def pairChecks (s : Ledger) : List (Bool × Int) :=
  [(tx.notAllowed env tx.property, PKT_ERROR_METADEX - 22),
    (decide (tx.property = tx.desiredProperty), PKT_ERROR_METADEX - 29),
    (isTestEcosystemProperty tx.property != isTestEcosystemProperty tx.desiredProperty,
      PKT_ERROR_METADEX - 30),
    (!s.mySps.isPropertyIdValid tx.property, PKT_ERROR_METADEX - 31),
    (!s.mySps.isPropertyIdValid tx.desiredProperty, PKT_ERROR_METADEX - 32)]

/-- The checks of the two amounts. -/
def amountChecks : List (Bool × Int) :=
  [(outOfRange tx.nNewValue, PKT_ERROR_METADEX - 33),
    (outOfRange tx.desiredValue, PKT_ERROR_METADEX - 34)]

/-- Neither side is ELYSIUM or TELYSIUM. -/
def CMPTransaction.withoutRootToken : Bool :=
  decide (tx.property ≠ ELYSIUM_PROPERTY_ELYSIUM) &&
    decide (tx.desiredProperty ≠ ELYSIUM_PROPERTY_ELYSIUM) &&
    decide (tx.property ≠ ELYSIUM_PROPERTY_TELYSIUM) &&
    decide (tx.desiredProperty ≠ ELYSIUM_PROPERTY_TELYSIUM)

def logicMathMetaDExTrade : Op Int := do
  let s ← get
  checked
    (pairChecks env tx s ++ amountChecks tx ++
      [(!env.isFeatureActivated .FEATURE_TRADEALLPAIRS tx.block && tx.withoutRootToken,
          PKT_ERROR_METADEX - 35),
        (tx.insufficient s tx.nNewValue, PKT_ERROR_METADEX - 25)])
    (metaDExAdd env tx.sender tx.property tx.nNewValue tx.block tx.desiredProperty tx.desiredValue
      tx.txid tx.txIdx)

def logicMathMetaDExCancelPrice : Op Int := do
  let s ← get
  checked (pairChecks env tx s ++ amountChecks tx)
    (metaDExCancelAtPrice tx.sender tx.property tx.nNewValue tx.desiredProperty tx.desiredValue)

def logicMathMetaDExCancelPair : Op Int := do
  let s ← get
  checked (pairChecks env tx s) (metaDExCancelAllForPair tx.sender tx.property tx.desiredProperty)

def logicMathMetaDExCancelEcosystem : Op Int :=
  checked
    [(tx.notAllowed env tx.ecosystem, PKT_ERROR_METADEX - 22),
      (tx.invalidEcosystem, PKT_ERROR_METADEX - 21)]
    (metaDExCancelEverything tx.sender tx.ecosystem)

/-! ## Properties -/

/-- The fields every new property takes from its transaction. -/
def CMPTransaction.newSP : SpEntry :=
  { SpEntry.null with
    issuer := tx.sender
    txid := tx.txid
    propType := tx.propType
    category := tx.category
    subcategory := tx.subcategory
    name := tx.name
    url := tx.url
    data := tx.data
    creationBlock := env.blockHash tx.block
    updateBlock := env.blockHash tx.block }

/-- The sigma status of a new property, once the feature is active. -/
def CMPTransaction.newSigmaStatus : SigmaStatus :=
  if env.isFeatureActivated .FEATURE_SIGMA tx.block then tx.sigmaStatus else .SoftDisabled

/-- A sigma status that is rejected, once the feature is active. -/
def CMPTransaction.invalidSigmaStatus : Bool :=
  env.isFeatureActivated .FEATURE_SIGMA tx.block && !tx.sigmaStatus.isValid

/-- `putSP`, and the assertion on its answer. -/
def putNewSP (ecosystem : Nat) (sp : SpEntry) : Op PropertyId := do
  let s ← get
  let (propertyId, db) := s.mySps.putSP ecosystem sp
  set { s with mySps := db }
  ensure (decide (0 < propertyId)) (.asserts "propertyId > 0")
  pure propertyId

def logicMathCreatePropertyFixed : Op Int :=
  checked
    [(tx.notInChain env, PKT_ERROR_SP - 20),
      (tx.invalidEcosystem, PKT_ERROR_SP - 21),
      (tx.notAllowed env tx.ecosystem, PKT_ERROR_SP - 22),
      (outOfRange tx.nValue, PKT_ERROR_SP - 23),
      (tx.invalidPropType, PKT_ERROR_SP - 36),
      (tx.name.isEmpty, PKT_ERROR_SP - 37),
      (tx.creationFeeMissing env, PKT_ERROR_SP - 105),
      (tx.invalidSigmaStatus env, PKT_ERROR_SP - 900)] do
    let propertyId ← putNewSP tx.ecosystem { tx.newSP env with
      sigmaStatus := tx.newSigmaStatus env
      numTokens := tx.nValue
      fixed := true }
    assertTally tx.sender propertyId tx.nValue .BALANCE
    notifyTotalTokensChanged env propertyId tx.block
    pure 0

def logicMathCreatePropertyVariable : Op Int := do
  let s ← get
  checked
    [(tx.notInChain env, PKT_ERROR_SP - 20),
      (tx.invalidEcosystem, PKT_ERROR_SP - 21),
      (env.isFeatureActivated .FEATURE_SPCROWDCROSSOVER tx.block &&
        isTestEcosystemProperty tx.ecosystem != isTestEcosystemProperty tx.property,
        PKT_ERROR_SP - 50),
      (tx.notAllowed env tx.ecosystem, PKT_ERROR_SP - 22),
      (outOfRange tx.nValue, PKT_ERROR_SP - 23),
      (!s.mySps.isPropertyIdValid tx.property, PKT_ERROR_SP - 24),
      (tx.invalidPropType, PKT_ERROR_SP - 36),
      (tx.name.isEmpty, PKT_ERROR_SP - 37),
      (decide (tx.deadline = 0) || decide (toInt64 tx.deadline < tx.blockTime), PKT_ERROR_SP - 38),
      ((s.getCrowd tx.sender).isSome, PKT_ERROR_SP - 39),
      (tx.creationFeeMissing env, PKT_ERROR_SP - 105)] do
    let propertyId ← putNewSP tx.ecosystem { tx.newSP env with
      numTokens := tx.nValue
      propertyDesired := tx.property
      deadline := toInt64 tx.deadline
      earlyBird := tx.earlyBird
      percentage := tx.percentage }
    modify (fun s => s.withCrowd tx.sender
      ⟨propertyId, tx.nValue, tx.property, toInt64 tx.deadline, tx.earlyBird, tx.percentage, 0, 0,
        .empty⟩)
    pure 0

/-- The part of `logicMath_CloseCrowdsale` after the checks. -/
def closeCrowdsale (crowd : CMPCrowd) : Op Int := do
  let sp ← assertSP tx.property
  let missedTokens ← getMissedIssuerBonus sp crowd
  assertUpdateSP tx.property { sp with
    historicalData := crowd.txFundraiserData
    updateBlock := env.blockHash tx.block
    closeEarly := true
    timeclosed := tx.blockTime
    txidClose := tx.txid
    missedTokens := missedTokens }
  when (decide (0 < missedTokens)) (assertTally sp.issuer tx.property missedTokens .BALANCE)
  modify (fun s => s.withoutCrowd tx.sender)
  pure 0

def logicMathCloseCrowdsale : Op Int := do
  let s ← get
  checked
    [(tx.notInChain env, PKT_ERROR_SP - 20),
      (tx.notAllowed env tx.property, PKT_ERROR_SP - 22),
      (!s.mySps.isPropertyIdValid tx.property, PKT_ERROR_SP - 24)]
    (match s.getCrowd tx.sender with
    | none => pure (PKT_ERROR_SP - 40)
    | some crowd =>
      if tx.property ≠ crowd.propertyId then pure (PKT_ERROR_SP - 41)
      else closeCrowdsale env tx crowd)

def logicMathCreatePropertyManaged : Op Int :=
  checked
    [(tx.notInChain env, PKT_ERROR_SP - 20),
      (tx.invalidEcosystem, PKT_ERROR_SP - 21),
      (tx.notAllowed env tx.ecosystem, PKT_ERROR_SP - 22),
      (tx.invalidPropType, PKT_ERROR_SP - 36),
      (tx.name.isEmpty, PKT_ERROR_SP - 37),
      (tx.creationFeeMissing env, PKT_ERROR_SP - 105),
      (tx.invalidSigmaStatus env, PKT_ERROR_SP - 900)] do
    let _ ← putNewSP tx.ecosystem { tx.newSP env with
      sigmaStatus := tx.newSigmaStatus env
      manual := true }
    pure 0

/-! ## Managed properties -/

/-- The part of `logicMath_GrantTokens` after the checks. -/
def grantTokens (sp : SpEntry) : Op Int := do
  -- persist the number of granted tokens
  assertUpdateSP tx.property { sp with
    historicalData := sp.historicalData.insert StdMap.unordered tx.txid [tx.nValue, 0]
    updateBlock := env.blockHash tx.block }
  assertTally tx.receiver tx.property tx.nValue .BALANCE
  -- until the feature is active, granting tokens can be a crowdsale participation
  when (!env.isFeatureActivated .FEATURE_GRANTEFFECTS tx.block) do
    let _ ← crowdsaleParticipation env tx
    pure ()
  notifyTotalTokensChanged env tx.property tx.block
  pure 0

def logicMathGrantTokens : Op Int := do
  let s ← get
  checked
    [(tx.notInChain env, PKT_ERROR_SP - 20),
      (tx.notAllowed env tx.property, PKT_ERROR_TOKENS - 22),
      (outOfRange tx.nValue, PKT_ERROR_TOKENS - 23),
      (!s.mySps.isPropertyIdValid tx.property, PKT_ERROR_TOKENS - 24)] do
    let sp ← assertSP tx.property
    checked
      [(!sp.manual, PKT_ERROR_TOKENS - 42),
        (decide (tx.sender ≠ sp.issuer), PKT_ERROR_TOKENS - 43),
        (decide (MAX_INT_8_BYTES - s.getTotalTokens tx.property < tx.nValue),
          PKT_ERROR_TOKENS - 44)]
      (grantTokens env tx.orSelf sp)

def logicMathRevokeTokens : Op Int := do
  let s ← get
  checked
    [(tx.notInChain env, PKT_ERROR_TOKENS - 20),
      (tx.notAllowed env tx.property, PKT_ERROR_TOKENS - 22),
      (outOfRange tx.nValue, PKT_ERROR_TOKENS - 23),
      (!s.mySps.isPropertyIdValid tx.property, PKT_ERROR_TOKENS - 24)] do
    let sp ← assertSP tx.property
    checked
      [(!sp.manual, PKT_ERROR_TOKENS - 42), (tx.insufficient s tx.nValue, PKT_ERROR_TOKENS - 25)] do
      assertTally tx.sender tx.property (-tx.nValue) .BALANCE
      assertUpdateSP tx.property { sp with
        historicalData := sp.historicalData.insert StdMap.unordered tx.txid [0, tx.nValue]
        updateBlock := env.blockHash tx.block }
      notifyTotalTokensChanged env tx.property tx.block
      pure 0

/-- The checks all functions about an existing property start with, and its entry. -/
def onProperty (body : SpEntry → Op Int) : Op Int := do
  let s ← get
  checked
    [(tx.notInChain env, PKT_ERROR_TOKENS - 20),
      (tx.notAllowed env tx.property, PKT_ERROR_TOKENS - 22),
      (!s.mySps.isPropertyIdValid tx.property, PKT_ERROR_TOKENS - 24)]
    (assertSP tx.property >>= body)

def logicMathChangeIssuer : Op Int :=
  onProperty env tx fun sp => do
    let s ← get
    checked
      [(decide (tx.sender ≠ sp.issuer), PKT_ERROR_TOKENS - 43),
        ((s.getCrowd tx.sender).isSome, PKT_ERROR_TOKENS - 39),
        (tx.receiver.isEmpty, PKT_ERROR_TOKENS - 45),
        ((s.getCrowd tx.receiver).isSome, PKT_ERROR_TOKENS - 46)] do
      assertUpdateSP tx.property { sp with
        issuer := tx.receiver
        updateBlock := env.blockHash tx.block }
      pure 0

/-! ## Freezing -/

/-- `std::set::insert`. -/
def insertSet {α : Type} [DecidableEq α] (lt : α → α → Bool) (x : α) (xs : List α) : List α :=
  if x ∈ xs then xs
  else xs.takeWhile (fun y => lt y x) ++ x :: xs.dropWhile (fun y => lt y x)

/-- The order of `setFreezingEnabledProperties`. -/
def ltEnabled (a b : PropertyId × Int) : Bool := a.1 < b.1 || (a.1 == b.1 && a.2 < b.2)

/-- The order of `setFrozenAddresses`. -/
def ltFrozen (a b : Address × PropertyId) : Bool := ltText a.1 b.1 || (a.1 == b.1 && a.2 < b.2)

def Ledger.isFreezingEnabled (s : Ledger) (propertyId : PropertyId) (block : Int) : Bool :=
  s.setFreezingEnabledProperties.any (fun item => item.1 == propertyId && item.2 ≤ block)

def enableFreezing (propertyId : PropertyId) (liveBlock : Int) : Op Unit := do
  modify (fun s => { s with
    setFreezingEnabledProperties :=
      insertSet ltEnabled (propertyId, liveBlock) s.setFreezingEnabledProperties })
  let s ← get
  ensure (s.isFreezingEnabled propertyId liveBlock)
    (.asserts "isFreezingEnabled(propertyId, liveBlock)")

/-- The loop of `disableFreezing` over the frozen addresses. After an address is erased the
    assertion looks at the next one, which is frozen, or past the end. -/
def unfreezeAll (propertyId : PropertyId) : List (Address × PropertyId) → Op Unit
  | [] => pure ()
  | entry :: rest =>
    if entry.2 = propertyId then do
      modify (fun s => { s with setFrozenAddresses := s.setFrozenAddresses.erase entry })
      match rest with
      | [] => throw (.undefined "setFrozenAddresses.end()")
      | next :: _ => do
          let s ← get
          ensure (!s.isAddressFrozen next.1 next.2)
            (.asserts "!isAddressFrozen((*it).first, (*it).second)")
          unfreezeAll propertyId rest
    else unfreezeAll propertyId rest

def disableFreezing (propertyId : PropertyId) : Op Unit := do
  let s ← get
  let liveBlock := (
    (s.setFreezingEnabledProperties.filter (fun item => item.1 = propertyId)).getLast?.map
    Prod.snd).getD 0
  ensure (decide (0 < liveBlock)) (.asserts "liveBlock > 0")
  modify (fun s => { s with
    setFreezingEnabledProperties := s.setFreezingEnabledProperties.erase (propertyId, liveBlock) })
  unfreezeAll propertyId s.setFrozenAddresses
  let s ← get
  ensure (!s.isFreezingEnabled propertyId liveBlock)
    (.asserts "!isFreezingEnabled(propertyId, liveBlock)")

def freezeAddress (address : Address) (propertyId : PropertyId) : Op Unit := do
  modify (fun s => { s with
    setFrozenAddresses := insertSet ltFrozen (address, propertyId) s.setFrozenAddresses })
  let s ← get
  ensure (s.isAddressFrozen address propertyId) (.asserts "isAddressFrozen(address, propertyId)")

def unfreezeAddress (address : Address) (propertyId : PropertyId) : Op Unit := do
  modify (fun s => { s with
    setFrozenAddresses := s.setFrozenAddresses.filter
      (fun entry => entry ≠ (address, propertyId)) })
  let s ← get
  ensure (!s.isAddressFrozen address propertyId)
    (.asserts "!isAddressFrozen(address, propertyId)")

/-- The checks of the four freeze functions: their own ones come last. -/
def onManagedProperty (own : Ledger → List (Bool × Int)) (body : Op Unit) : Op Int :=
  onProperty env tx fun sp => do
    let s ← get
    checked
      ([(!sp.manual, PKT_ERROR_TOKENS - 42),
        (decide (tx.sender ≠ sp.issuer), PKT_ERROR_TOKENS - 43)] ++ own s)
      (body >>= fun _ => pure 0)

def logicMathEnableFreezing : Op Int :=
  onManagedProperty env tx
    (fun s => [(s.isFreezingEnabled tx.property tx.block, PKT_ERROR_TOKENS - 49)])
    (enableFreezing tx.property
      (if env.isFeatureActivated .FEATURE_FREEZENOTICE tx.block
        then env.freezeWaitPeriod + tx.block else tx.block))

def logicMathDisableFreezing : Op Int :=
  onManagedProperty env tx
    (fun s => [(!s.isFreezingEnabled tx.property tx.block, PKT_ERROR_TOKENS - 47)])
    (disableFreezing tx.property)

def logicMathFreezeTokens : Op Int :=
  onManagedProperty env tx
    (fun s => [(!s.isFreezingEnabled tx.property tx.block, PKT_ERROR_TOKENS - 47),
      (s.isAddressFrozen tx.receiver tx.property, PKT_ERROR_TOKENS - 50)])
    (freezeAddress tx.receiver tx.property)

def logicMathUnfreezeTokens : Op Int :=
  onManagedProperty env tx
    (fun s => [(!s.isFreezingEnabled tx.property tx.block, PKT_ERROR_TOKENS - 47),
      (!s.isAddressFrozen tx.receiver tx.property, PKT_ERROR_TOKENS - 48)])
    (unfreezeAddress tx.receiver tx.property)

/-! ## Denominations and messages -/

def logicMathCreateDenomination : Op Int := do
  let s ← get
  checked
    [(tx.notInChain env, PKT_ERROR_TOKENS - 20),
      (tx.notAllowed env tx.property, PKT_ERROR_TOKENS - 22),
      (outOfRange tx.nValue, PKT_ERROR_TOKENS - 23),
      (!s.mySps.isPropertyIdValid tx.property, PKT_ERROR_TOKENS - 24)] do
    let sp ← assertSP tx.property
    checked
      [(decide (tx.sender ≠ sp.issuer), PKT_ERROR_TOKENS - 43),
        (!sp.sigmaStatus.isEnabledFlag, PKT_ERROR_TOKENS - 901),
        (decide (MAX_DENOMINATIONS ≤ sp.denominations.length), PKT_ERROR_TOKENS - 902),
        (sp.denominations.contains (tx.nValue : Int), PKT_ERROR_TOKENS - 903)] do
      assertUpdateSP tx.property { sp with
        denominations := sp.denominations ++ [(tx.nValue : Int)]
        updateBlock := env.blockHash tx.block }
      pure 0

/-- The exchanges closed by the deactivation of a feature. -/
def closeExchanges (feature : Option Feature) : Op Unit := do
  when (decide (feature = some .FEATURE_METADEX)) (metaDExShutdown >>= fun _ => pure ())
  when (decide (feature = some .FEATURE_TRADEALLPAIRS))
    (metaDExShutdownAllpair >>= fun _ => pure ())

/-- `DeactivateFeature`: its effect is on the rules the next transaction meets. -/
def deactivateFeature : Bool :=
  match tx.feature with
  | some feature => env.isFeatureActivated feature tx.block
  | none => false

def logicMathDeactivation : Op Int :=
  checked
    [(tx.notAllowed env tx.property, PKT_ERROR - 22),
      (!env.deactivationAuthorized tx.sender, PKT_ERROR - 51),
      (!deactivateFeature env tx, PKT_ERROR - 54)] do
    closeExchanges tx.feature
    pure 0

def logicMathActivation : Op Int :=
  checked
    [(tx.notAllowed env tx.property, PKT_ERROR - 22),
      (!env.activationAuthorized tx.sender, PKT_ERROR - 51),
      (!env.activateFeature tx.feature tx.activationBlock, PKT_ERROR - 54)]
    (pure 0)

/-- `logicMath_Alert`: alerts are not part of the state. -/
def logicMathAlert : Op Int :=
  checked
    [(tx.notAllowed env tx.property, PKT_ERROR - 22),
      (!env.alertAuthorized tx.sender, PKT_ERROR - 51)]
    (pure 0)

/-! ## Dispatch -/

/-- The switch of `interpretPacket`. -/
def executePacket : Op Int :=
  match tx.type with
  | .SIMPLE_SEND => logicMathSimpleSend env tx
  | .SEND_TO_OWNERS => logicMathSendToOwners env tx
  | .SEND_ALL => logicMathSendAll env tx
  | .TRADE_OFFER => logicMathTradeOffer env tx
  | .ACCEPT_OFFER_BTC => logicMathAcceptOffer env tx
  | .METADEX_TRADE => logicMathMetaDExTrade env tx
  | .METADEX_CANCEL_PRICE => logicMathMetaDExCancelPrice env tx
  | .METADEX_CANCEL_PAIR => logicMathMetaDExCancelPair env tx
  | .METADEX_CANCEL_ECOSYSTEM => logicMathMetaDExCancelEcosystem env tx
  | .CREATE_PROPERTY_FIXED => logicMathCreatePropertyFixed env tx
  | .CREATE_PROPERTY_VARIABLE => logicMathCreatePropertyVariable env tx
  | .CLOSE_CROWDSALE => logicMathCloseCrowdsale env tx
  | .CREATE_PROPERTY_MANUAL => logicMathCreatePropertyManaged env tx
  | .GRANT_PROPERTY_TOKENS => logicMathGrantTokens env tx
  | .REVOKE_PROPERTY_TOKENS => logicMathRevokeTokens env tx
  | .CHANGE_ISSUER_ADDRESS => logicMathChangeIssuer env tx
  | .ENABLE_FREEZING => logicMathEnableFreezing env tx
  | .DISABLE_FREEZING => logicMathDisableFreezing env tx
  | .FREEZE_PROPERTY_TOKENS => logicMathFreezeTokens env tx
  | .UNFREEZE_PROPERTY_TOKENS => logicMathUnfreezeTokens env tx
  | .CREATE_DENOMINATION => logicMathCreateDenomination env tx
  | .DEACTIVATION => logicMathDeactivation env tx
  | .ACTIVATION => logicMathActivation env tx
  | .ALERT => logicMathAlert env tx
  | .SIMPLE_SPEND => pure (PKT_ERROR - 100)
  | .SIMPLE_MINT => pure (PKT_ERROR - 100)
  | .unknown _ => pure (PKT_ERROR - 100)

def interpretPacket : Op Int := do
  let s ← get
  checked
    [(tx.rpcOnly, PKT_ERROR - 1),
      (!tx.interpreted, PKT_ERROR - 2),
      (s.isAddressFrozen tx.sender tx.property, PKT_ERROR - 3)]
    (executePacket env tx)

end Tecracoin.Elysium
