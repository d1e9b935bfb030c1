/-
  `dex.cpp`: sell offers for coins, the accepts of buyers, payments and the
  expiry of accepts.

  A seller's tokens move from the balance to `SELLOFFER_RESERVE` when they are
  offered, from there to `ACCEPT_RESERVE` when a buyer accepts, and from there
  to the buyer when the buyer pays.  An accept outlives its offer.
-/
import Tecracoin.Elysium.Properties

namespace Tecracoin.Elysium

open Data

def DEX_ERROR_SELLOFFER : Int := -10000
def DEX_ERROR_ACCEPT : Int := -20000
def DEX_ERROR_PAYMENT : Int := -30000

namespace Ledger

variable (s : Ledger) (addressSeller : Address) (propertyId : PropertyId)

/-- `DEx_getOffer`. -/
def getOffer : Option CMPOffer :=
  s.myOffers.get? ⟨addressSeller, propertyId⟩

/-- `DEx_offerExists`. -/
def offerExists : Bool :=
  (s.getOffer addressSeller propertyId).isSome

/-- `DEx_getAccept`. -/
def getAccept
    (addressBuyer : Address) : Option CMPAccept :=
  s.myAccepts.get? ⟨addressSeller, propertyId, addressBuyer⟩

/-- `DEx_acceptExists`. -/
def acceptExists
    (addressBuyer : Address) : Bool :=
  (s.getAccept addressSeller propertyId addressBuyer).isSome

def withOffer (key : OfferKey) (offer : CMPOffer) : Ledger :=
  { s with myOffers := s.myOffers.insert StdMap.unordered key offer }

def withoutOffer (key : OfferKey) : Ledger :=
  { s with myOffers := s.myOffers.erase key }

def withAccept (key : AcceptKey) (accept : CMPAccept) : Ledger :=
  { s with myAccepts := s.myAccepts.insert StdMap.unordered key accept }

/-- The ledger after a write through a pointer to an accept. -/
def changeAccept (key : AcceptKey) (accept : CMPAccept) : Ledger :=
  { s with myAccepts := s.myAccepts.set StdMap.unordered key accept }

def withoutAccept (key : AcceptKey) : Ledger :=
  { s with myAccepts := s.myAccepts.erase key }

end Ledger

/-- Move tokens of a seller from one bucket to another. -/
def moveReserve (seller : Address) (propertyId : PropertyId) (amount : Int)
    (source target : TallyType) : Op Unit := do
  assertTally seller propertyId (-amount) source
  assertTally seller propertyId amount target

/-! ## Sell offers -/

variable (env : Env)

/-- What is offered and desired: before the integer math, an offer of more than the seller has is
    cut down, and the desired amount with it. -/
def adjustedOffer (amountOffered amountDesired balanceReallyAvailable : Int) : Int × Int :=
  if balanceReallyAvailable < amountOffered then
    (balanceReallyAvailable,
      env.legacyDesiredBTC amountOffered amountDesired balanceReallyAvailable)
  else (amountOffered, amountDesired)

/-- The terms of a sell offer. -/
structure OfferTerms where
  amountOffered : Int
  block : Int
  amountDesired : Int
  minAcceptFee : Int
  paymentWindow : Nat
  txid : Uint256
deriving DecidableEq

def dexOfferCreate (addressSeller : Address) (propertyId : PropertyId)
    (terms : OfferTerms) : Op Int := do
  -- sanity checks
  if terms.paymentWindow = 0 then pure (DEX_ERROR_SELLOFFER - 101)
  else if terms.amountDesired = 0 then pure (DEX_ERROR_SELLOFFER - 101)
  else
    let s ← get
    if s.offerExists addressSeller propertyId then pure (DEX_ERROR_SELLOFFER - 10)
    else if env.isFeatureActivated .FEATURE_DEXMATH terms.block = true ∧
        s.getMPbalance addressSeller propertyId .BALANCE < terms.amountOffered then
      pure (DEX_ERROR_SELLOFFER - 25)
    else
      let adjusted := adjustedOffer env terms.amountOffered terms.amountDesired
        (s.getMPbalance addressSeller propertyId .BALANCE)
      if 0 < adjusted.1 then do
        moveReserve addressSeller propertyId adjusted.1 .BALANCE .SELLOFFER_RESERVE
        modify (fun s => s.withOffer ⟨addressSeller, propertyId⟩
          ⟨terms.block, adjusted.1, propertyId, adjusted.2, terms.minAcceptFee,
            terms.paymentWindow, terms.txid, 0⟩)
        pure 0
      else pure DEX_ERROR_SELLOFFER

def dexOfferDestroy (addressSeller : Address) (propertyId : PropertyId) : Op Int := do
  let s ← get
  if !s.offerExists addressSeller propertyId then pure (DEX_ERROR_SELLOFFER - 11)
  else do
    let amountReserved := s.getMPbalance addressSeller propertyId .SELLOFFER_RESERVE
    -- return the remaining reserved amount back to the seller
    Op.when (decide (0 < amountReserved))
      (moveReserve addressSeller propertyId amountReserved .SELLOFFER_RESERVE .BALANCE)
    modify (fun s => s.withoutOffer ⟨addressSeller, propertyId⟩)
    pure 0

def dexOfferUpdate (addressSeller : Address) (propertyId : PropertyId)
    (terms : OfferTerms) : Op Int := do
  let s ← get
  if !s.offerExists addressSeller propertyId then pure (DEX_ERROR_SELLOFFER - 12)
  else do
    let rc ← dexOfferDestroy addressSeller propertyId
    -- if the old offer was destroyed successfully, try to create a new one
    if rc = 0 then dexOfferCreate env addressSeller propertyId terms else pure rc

/-! ## Accepts -/

/-- What a buyer can reserve of what is still for sale. -/
def reservable (amountRemainingForSale amountAccepted : Int) : Int :=
  if amountAccepted ≤ amountRemainingForSale then amountAccepted else amountRemainingForSale

variable (addressBuyer addressSeller : Address)

def dexAcceptCreate (propertyId : PropertyId) (amountAccepted block feePaid : Int) : Op Int := do
  let s ← get
  match s.getOffer addressSeller propertyId with
  | none => pure (DEX_ERROR_ACCEPT - 15)
  | some offer =>
    -- the older accept is the valid one: do not accept any new ones
    if s.acceptExists addressSeller propertyId addressBuyer then pure (DEX_ERROR_ACCEPT - 205)
    else if feePaid < offer.minFee then pure (DEX_ERROR_ACCEPT - 105)
    else
      let amountReserved :=
        reservable (s.getMPbalance addressSeller propertyId .SELLOFFER_RESERVE) amountAccepted
      if 0 < amountReserved then do
        moveReserve addressSeller propertyId amountReserved .SELLOFFER_RESERVE .ACCEPT_RESERVE
        modify (fun s => s.withAccept ⟨addressSeller, propertyId, addressBuyer⟩
          ⟨amountReserved, amountReserved, offer.blocktimelimit, offer.property,
            offer.offerAmountOriginal, offer.tcrDesiredOriginal, offer.txid, block⟩)
        pure 0
      else pure (DEX_ERROR_ACCEPT - 10)

/-- Where the rest of an accept goes: back to the offer it was made on, or to the balance if that
    offer is gone. -/
def acceptReturn (offer : Option CMPOffer) (accept : CMPAccept) : TallyType :=
  match offer with
  | none => .BALANCE
  | some offer => if offer.txid = accept.offerTxid then .SELLOFFER_RESERVE else .BALANCE

def dexAcceptDestroy (propertyId : PropertyId) (fForceErase : Bool) : Op Int := do
  let s ← get
  match s.getAccept addressSeller propertyId addressBuyer with
  | none => pure (DEX_ERROR_ACCEPT - 20)
  | some accept => do
      Op.when (decide (0 < accept.acceptAmountRemaining))
        (moveReserve addressSeller propertyId accept.acceptAmountRemaining .ACCEPT_RESERVE
          (acceptReturn (s.getOffer addressSeller propertyId) accept))
      Op.when fForceErase
        (modify (fun s => s.withoutAccept ⟨addressSeller, propertyId, addressBuyer⟩))
      pure 0

/-! ## Payments -/

def calculateDExPurchase (amountOffered amountDesired amountPaid : Int) : Op Int := do
  let amountOffered256 ← convertTo256 amountOffered
  let amountDesired256 ← convertTo256 amountDesired
  let amountPaid256 ← convertTo256 amountPaid
  convertTo64 (divideAndRoundUp (amountPaid256 * amountOffered256) amountDesired256)

/-- The amount purchased, with or without the integer math. -/
def dexPurchase (amountOffered amountDesired amountPaid block : Int) : Op Int :=
  if env.isFeatureActivated .FEATURE_DEXMATH block then
    calculateDExPurchase amountOffered amountDesired amountPaid
  else pure (env.legacyDExPurchase amountOffered amountDesired amountPaid)

/-- The accept a payment is for: of the main token first, then of the test token. -/
def Ledger.paidAccept (s : Ledger) (addressSeller addressBuyer : Address) :
    Option (PropertyId × CMPAccept) :=
  match s.getAccept addressSeller ELYSIUM_PROPERTY_ELYSIUM addressBuyer with
  | some accept => some (ELYSIUM_PROPERTY_ELYSIUM, accept)
  | none => (s.getAccept addressSeller ELYSIUM_PROPERTY_TELYSIUM addressBuyer).map
      (fun accept => (ELYSIUM_PROPERTY_TELYSIUM, accept))

/-- Close an accept that is paid for, and the offer with it if nothing is left in its reserves. -/
def closeAccept (propertyId : PropertyId) : Op Unit := do
  let s ← get
  let reserveSell := s.getMPbalance addressSeller propertyId .SELLOFFER_RESERVE
  let reserveAccept := s.getMPbalance addressSeller propertyId .ACCEPT_RESERVE
  let _ ← dexAcceptDestroy addressBuyer addressSeller propertyId true
  Op.when (decide (reserveSell = 0) && decide (reserveAccept = 0)) do
    let _ ← dexOfferDestroy addressSeller propertyId
    pure ()

def dexPayment (addressSeller addressBuyer : Address) (amountPaid block : Int) : Op Int := do
  let s ← get
  match s.paidAccept addressSeller addressBuyer with
  -- there must be an active accept order for this payment
  | none => pure (DEX_ERROR_PAYMENT - 1)
  | some (propertyId, accept) =>
    if accept.tcrDesiredOriginal = 0 then pure (DEX_ERROR_PAYMENT - 2)
    else do
      let purchased ← dexPurchase env accept.offerAmountOriginal accept.tcrDesiredOriginal
        amountPaid block
      -- the buyer gets only what is in the accept
      let amountPurchased := min accept.acceptAmountRemaining purchased
      Op.when (decide (0 < amountPurchased)) do
        assertTally addressSeller propertyId (-amountPurchased) .ACCEPT_RESERVE
        assertTally addressBuyer propertyId amountPurchased .BALANCE
      -- `reduceAcceptAmountRemaining_andIsZero`
      modify (fun s => s.changeAccept ⟨addressSeller, propertyId, addressBuyer⟩
        { accept with acceptAmountRemaining := accept.acceptAmountRemaining - amountPurchased })
      Op.when (decide (accept.acceptAmountRemaining ≤ amountPurchased))
        (closeAccept addressBuyer addressSeller propertyId)
      pure (if 0 < amountPurchased then 0 else DEX_ERROR_PAYMENT)

/-! ## Expiry -/

/-- Whether the payment window of an accept is over. -/
def CMPAccept.expired (accept : CMPAccept) (blockNow : Int) : Bool :=
  (accept.blocktimelimit : Int) ≤ blockNow - accept.block

/-- The loop of `eraseExpiredAccepts` over some accepts. -/
def eraseAccepts (blockNow : Int) : List (AcceptKey × CMPAccept) → Op Nat
  | [] => pure 0
  | (key, accept) :: rest =>
    if accept.expired blockNow then do
      let _ ← dexAcceptDestroy key.buyer key.seller key.property false
      modify (fun s => s.withoutAccept key)
      let more ← eraseAccepts blockNow rest
      pure (more + 1)
    else eraseAccepts blockNow rest

def eraseExpiredAccepts (blockNow : Int) : Op Nat := do
  let s ← get
  eraseAccepts blockNow s.myAccepts.entries

end Tecracoin.Elysium
