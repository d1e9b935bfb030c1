/-
  `mdex.cpp`: the token exchange.

  The order book is a map from properties to maps from unit prices to sets of
  orders.  While the code walks through a set it erases and re-inserts orders;
  an order keeps its place in the set (its block and index do not change), so a
  walk is a recursion over the orders of a level that gives the orders left at
  that level, which are then stored.
-/
import Tecracoin.Elysium.Fees

namespace Tecracoin.Elysium

open Data Op

def METADEX_ERROR : Int := -81000

variable (env : Env)

section

variable (o : CMPMetaDEx)

namespace CMPMetaDEx

def unitPrice : ℚ :=
  if o.amountForsale ≠ 0 then (o.amountDesired : ℚ) / o.amountForsale else 0

def inversePrice : ℚ :=
  if o.amountDesired ≠ 0 then (o.amountForsale : ℚ) / o.amountDesired else 0

/-- Block and index: what `MetaDEx_compare` compares. -/
def position : Int × Nat := (o.block, o.idx)

/-- `MetaDEx_compare`. -/
def before (o o' : CMPMetaDEx) : Bool :=
  if o.block = o'.block then o.idx < o'.idx else o.block < o'.block

end CMPMetaDEx

/-- The order of `std::map<rational_t, _>`. -/
def ltPrice (p q : ℚ) : Bool := p < q

/-- `md_Set::insert`, if no order has the same block and index. -/
def insertOrder (indexes : MdSet) : Option MdSet :=
  if indexes.any (fun o' => o'.position = o.position) then none
  else some (indexes.takeWhile (fun o' => o'.before o) ++
    o :: indexes.dropWhile (fun o' => o'.before o))

section

variable (book : MdPropertiesMap) (prop : PropertyId)

/-- The price map of a property, empty if there is none. -/
def pricesOf : MdPricesMap :=
  (book.get? prop).getD .empty

/-- The set at a price of a property, empty if there is none. -/
def levelOf (price : ℚ) : MdSet :=
  ((pricesOf book prop).get? price).getD []

/-- The book with another set at a price of a property. -/
def storeLevel (price : ℚ) (indexes : MdSet) : MdPropertiesMap :=
  book.set CMPTally.ltProperty prop ((pricesOf book prop).set ltPrice price indexes)

def metaDExInsert : Option MdPropertiesMap :=
  (insertOrder o (levelOf book o.property o.unitPrice)).map
    (storeLevel book o.property o.unitPrice)

end

namespace Ledger

/-- The ledger with another set at a price of a property. -/
def withLevel (s : Ledger) (prop : PropertyId) (price : ℚ) (indexes : MdSet) : Ledger :=
  { s with metadex := storeLevel s.metadex prop price indexes }

end Ledger

/-! ## Matching two orders -/

/-- `nCouldBuy`: the quotient `iCouldBuy`, or all that is left of the old order. -/
def couldBuyAmount (iCouldBuy oldRemaining : Nat) (amountRemaining : Int) : Op Int :=
  if iCouldBuy < oldRemaining then convertTo64 iCouldBuy else pure amountRemaining

/-- The part of `x_Trade` that decides on a fill: `nCouldBuy` and `nWouldPay`, or nothing if the two
    orders do not trade. -/
def matchAmounts (sellersPrice : ℚ) (pnew pold : CMPMetaDEx) : Op (Option (Int × Int)) := do
  ensure (decide (pold.unitPrice = sellersPrice)) (.asserts "pold->unitPrice() == sellersPrice")
  -- does the desired property match?
  if pold.desiredProperty ≠ pnew.property then
    pure none
  else
    -- preconditions
    ensure (decide (0 < pold.amountRemaining)) (.asserts "0 < pold->getAmountRemaining()")
    ensure (decide (0 < pnew.amountRemaining)) (.asserts "0 < pnew->getAmountRemaining()")
    ensure (decide (pnew.property ≠ pnew.desiredProperty))
      (.asserts "pnew->getProperty() != pnew->getDesProperty()")
    ensure (decide (pnew.property = pold.desiredProperty))
      (.asserts "pnew->getProperty() == pold->getDesProperty()")
    ensure (decide (pold.property = pnew.desiredProperty))
      (.asserts "pold->getProperty() == pnew->getDesProperty()")
    ensure (decide (pold.unitPrice ≤ pnew.inversePrice))
      (.asserts "pold->unitPrice() <= pnew->inversePrice()")
    ensure (decide (pnew.unitPrice ≤ pold.inversePrice))
      (.asserts "pnew->unitPrice() <= pold->inversePrice()")
    -- how many tokens can be bought at the seller's price, rounded down
    let newRemaining ← convertTo256 pnew.amountRemaining
    let forsale ← convertTo256 pold.amountForsale
    let desired ← convertTo256 pold.amountDesired
    ensure (decide (desired ≠ 0)) (.throws "Division by zero")
    let oldRemaining ← convertTo256 pold.amountRemaining
    let nCouldBuy ← couldBuyAmount (newRemaining * forsale / desired) oldRemaining
      pold.amountRemaining
    if nCouldBuy = 0 then
      pure none
    else
      -- what they cost, rounded up
      let couldBuy ← convertTo256 nCouldBuy
      ensure (decide (forsale ≠ 0)) (.throws "Division by zero")
      let nWouldPay ← convertTo64 (divideAndRoundUp (couldBuy * desired) forsale)
      if pnew.inversePrice < (nWouldPay : ℚ) / nCouldBuy then
        pure none
      else
        -- postconditions
        ensure (decide (pold.unitPrice ≤ (nWouldPay : ℚ) / nCouldBuy))
          (.asserts "xEffectivePrice >= pold->unitPrice()")
        ensure (decide ((nWouldPay : ℚ) / nCouldBuy ≤ pnew.inversePrice))
          (.asserts "xEffectivePrice <= pnew->inversePrice()")
        ensure (decide (0 ≤ pold.amountRemaining - nCouldBuy)) (.asserts "0 <= seller_amountLeft")
        ensure (decide (0 ≤ pnew.amountRemaining - nWouldPay)) (.asserts "0 <= buyer_amountLeft")
        ensure (decide (pold.amountRemaining = pold.amountRemaining - nCouldBuy + nCouldBuy))
          (.asserts "seller_amountForSale == seller_amountLeft + buyer_amountGot")
        ensure (decide (pnew.amountRemaining = pnew.amountRemaining - nWouldPay + nWouldPay))
          (.asserts "buyer_amountOffered == buyer_amountLeft + seller_amountGot")
        pure (some (nCouldBuy, nWouldPay))

/-- Whether the fill of an order pays a fee. -/
def feeApplies (pnew pold : CMPMetaDEx) : Bool :=
  env.isFeatureActivated .FEATURE_FEES pnew.block &&
    (decide (ELYSIUM_PROPERTY_TELYSIUM < pold.property) &&
      decide (ELYSIUM_PROPERTY_TELYSIUM < pold.desiredProperty))

/-- `tradingFee`: 0.05 % of what the buyer got. -/
def tradingFee (pnew pold : CMPMetaDEx) (buyerAmountGot : Int) : Int :=
  if feeApplies env pnew pold then buyerAmountGot.tdiv 2000 else 0

/-- The part of `x_Trade` that moves the tokens of a fill. -/
def settle (pnew pold : CMPMetaDEx) (buyerAmountGot sellerAmountGot : Int) : Op Unit := do
  let fee := tradingFee env pnew pold buyerAmountGot
  when (feeApplies env pnew pold) (addFee env pnew.desiredProperty pnew.block fee)
  -- transfer the payment property from buyer to seller
  assertTally pnew.addr pnew.property (-sellerAmountGot) .BALANCE
  assertTally pold.addr pold.desiredProperty sellerAmountGot .BALANCE
  -- transfer the market (the one being sold) property from seller to buyer
  assertTally pold.addr pold.property (-buyerAmountGot) .METADEX_RESERVE
  assertTally pnew.addr pnew.desiredProperty (buyerAmountGot - fee) .BALANCE

/-- One turn of the loop of `x_Trade`: the two orders after a fill, or nothing if there is none. -/
def tradeOffer (sellersPrice : ℚ) (pnew pold : CMPMetaDEx) :
    Op (Option (CMPMetaDEx × CMPMetaDEx)) := do
  match ← matchAmounts sellersPrice pnew pold with
  | none => pure none
  | some (buyerAmountGot, sellerAmountGot) =>
    settle env pnew pold buyerAmountGot sellerAmountGot
    pure (some ({ pnew with amountRemaining := pnew.amountRemaining - sellerAmountGot },
      { pold with amountRemaining := pold.amountRemaining - buyerAmountGot }))

/-! ## Matching an order against the book -/

inductive MatchReturnType
  | NOTHING
  | TRADED
  | TRADED_MOREINSELLER
  | TRADED_MOREINBUYER
deriving DecidableEq

/-- The state of the loops of `x_Trade`. -/
structure Matching where
  pnew : CMPMetaDEx
  newReturn : MatchReturnType
  bBuyerSatisfied : Bool
deriving DecidableEq

/-- The state after a fill. -/
def Matching.filled (pnew seller : CMPMetaDEx) : Matching where
  pnew := pnew
  newReturn :=
    if 0 < seller.amountRemaining then .TRADED_MOREINSELLER
    else if 0 < pnew.amountRemaining then .TRADED_MOREINBUYER
    else .TRADED
  bBuyerSatisfied := decide (pnew.amountRemaining = 0)

/-- The seller's order after a fill, if there is something left of it. -/
def sellerReplacement (seller : CMPMetaDEx) : MdSet :=
  if 0 < seller.amountRemaining then [seller] else []

/-- The loop over the orders at one price: the state after it, and the orders left. -/
def tradeOffers (env : Env) (sellersPrice : ℚ) : Matching → MdSet → Op (Matching × MdSet)
  | m, [] => pure (m, [])
  | m, pold :: rest => do
      match ← tradeOffer env sellersPrice m.pnew pold with
      | none => do
          let (m', rest') ← tradeOffers env sellersPrice m rest
          pure (m', pold :: rest')
      | some (pnew, seller) =>
        if pnew.amountRemaining = 0 then
          pure (.filled pnew seller, sellerReplacement seller ++ rest)
        else do
          let (m', rest') ← tradeOffers env sellersPrice (.filled pnew seller) rest
          pure (m', sellerReplacement seller ++ rest')

/-- The loop over the prices of the desired property. -/
def tradeLevels (env : Env) (propertyDesired : PropertyId) :
    Matching → List (ℚ × MdSet) → Op Matching
  | m, [] => pure m
  | m, (sellersPrice, offers) :: levels =>
    if m.pnew.inversePrice < sellersPrice then
      tradeLevels env propertyDesired m levels
    else do
      let (m', offers') ← tradeOffers env sellersPrice m offers
      modify (fun s => s.withLevel propertyDesired sellersPrice offers')
      if m'.bBuyerSatisfied then pure m' else tradeLevels env propertyDesired m' levels

def xTrade (pnew : CMPMetaDEx) : Op Matching := do
  let s ← get
  tradeLevels env pnew.desiredProperty ⟨pnew, .NOTHING, false⟩
    (pricesOf s.metadex pnew.desiredProperty).entries

def metaDExAdd (senderAddr : Address) (prop : PropertyId) (amount : Int) (block : Int)
    (propertyDesired : PropertyId) (amountDesired : Int) (txid : Uint256) (idx : Nat) : Op Int := do
  let newMdex : CMPMetaDEx :=
    ⟨block, txid, idx, prop, amount, propertyDesired, amountDesired, amount, 1, senderAddr⟩
  -- ensure this is not a badly priced trade (for example due to zero amounts)
  if newMdex.unitPrice ≤ 0 then
    pure (METADEX_ERROR - 66)
  else
    -- match against existing trades, the remainder will be put into the order book
    let m ← xTrade env newMdex
    if 0 < m.pnew.amountRemaining then do
      let s ← get
      match metaDExInsert m.pnew s.metadex with
      | none => pure (METADEX_ERROR - 70)
      | some book =>
        set { s with metadex := book }
        -- move tokens into reserve
        assertTally senderAddr prop (-m.pnew.amountRemaining) .BALANCE
        assertTally senderAddr prop m.pnew.amountRemaining .METADEX_RESERVE
        pure 0
    else pure 0

/-! ## Cancelling orders -/

/-- Move what is left of an order from the reserve back to the balance. -/
def releaseOrder : Op Unit := do
  assertTally o.addr o.property (-o.amountRemaining) .METADEX_RESERVE
  assertTally o.addr o.property o.amountRemaining .BALANCE

end

/-- The loop over the orders at one price of the cancel functions: the orders left, and whether one
    was removed. -/
def cancelOffers (removes : CMPMetaDEx → Bool) : MdSet → Op (MdSet × Bool)
  | [] => pure ([], false)
  | o :: rest =>
    if removes o then do
      releaseOrder o
      let (rest', _) ← cancelOffers removes rest
      pure (rest', true)
    else do
      let (rest', removed) ← cancelOffers removes rest
      pure (o :: rest', removed)

/-- The loop over some prices of a property. -/
def cancelLevels (removes : CMPMetaDEx → Bool) (prop : PropertyId) : List (ℚ × MdSet) → Op Bool
  | [] => pure false
  | (price, indexes) :: levels => do
      let (indexes', removed) ← cancelOffers removes indexes
      modify (fun s => s.withLevel prop price indexes')
      let more ← cancelLevels removes prop levels
      pure (removed || more)

/-- The loop over some properties. -/
def cancelProperties (removes : CMPMetaDEx → Bool) : List (PropertyId × MdPricesMap) → Op Bool
  | [] => pure false
  | (prop, prices) :: properties => do
      let removed ← cancelLevels removes prop prices.entries
      let more ← cancelProperties removes properties
      pure (removed || more)

variable (senderAddr : Address)

/-- The orders of an address that desire a property. -/
def ofPair (propertyDesired : PropertyId) (o : CMPMetaDEx) : Bool :=
  !(decide (o.desiredProperty ≠ propertyDesired) || decide (o.addr ≠ senderAddr))

def metaDExCancelAtPrice (prop : PropertyId) (amount : Int)
    (propertyDesired : PropertyId) (amountDesired : Int) : Op Int := do
  let mdex : CMPMetaDEx :=
    ⟨0, 0, 0, prop, amount, propertyDesired, amountDesired, amount, 2, senderAddr⟩
  let s ← get
  match s.metadex.get? prop with
  | none => pure (METADEX_ERROR - 20 - 1)
  | some prices => do
      let removed ← cancelLevels (ofPair senderAddr propertyDesired) prop
        (prices.entries.filter (fun level => mdex.unitPrice = level.1))
      pure (if removed then 0 else METADEX_ERROR - 20)

def metaDExCancelAllForPair (prop propertyDesired : PropertyId) : Op Int := do
  let s ← get
  match s.metadex.get? prop with
  | none => pure (METADEX_ERROR - 30 - 1)
  | some prices => do
      let removed ← cancelLevels (ofPair senderAddr propertyDesired) prop prices.entries
      pure (if removed then 0 else METADEX_ERROR - 30)

/-- Whether `MetaDEx_CANCEL_EVERYTHING` looks at the orders of a property. -/
def inEcosystem (ecosystem : Nat) (prop : PropertyId) : Bool :=
  !(isMainEcosystemProperty ecosystem && !isMainEcosystemProperty prop) &&
    !(isTestEcosystemProperty ecosystem && !isTestEcosystemProperty prop)

def metaDExCancelEverything (ecosystem : Nat) : Op Int := do
  let s ← get
  let removed ← cancelProperties (fun o => decide (o.addr = senderAddr))
    (s.metadex.entries.filter (fun e => inEcosystem ecosystem e.1))
  pure (if removed then 0 else METADEX_ERROR - 40)

def metaDExShutdown : Op Int := do
  let s ← get
  let _ ← cancelProperties (fun _ => true) s.metadex.entries
  pure 0

/-- An order without the root token on either side. -/
def allPair (o : CMPMetaDEx) : Bool :=
  decide (ELYSIUM_PROPERTY_TELYSIUM < o.desiredProperty) &&
    decide (ELYSIUM_PROPERTY_TELYSIUM < o.property)

/-- The loop over the orders at one price of `MetaDEx_SHUTDOWN_ALLPAIR`. Its iterator is advanced
    only when an order is removed: one that stays is looked at for ever. -/
def shutdownOffers : MdSet → Op MdSet
  | [] => pure []
  | o :: rest =>
    if allPair o then do
      releaseOrder o
      shutdownOffers rest
    else throw (.diverges "MetaDEx_SHUTDOWN_ALLPAIR")

def shutdownLevels (prop : PropertyId) : List (ℚ × MdSet) → Op Unit
  | [] => pure ()
  | (price, indexes) :: levels => do
      let indexes' ← shutdownOffers indexes
      modify (fun s => s.withLevel prop price indexes')
      shutdownLevels prop levels

def shutdownProperties : List (PropertyId × MdPricesMap) → Op Unit
  | [] => pure ()
  | (prop, prices) :: properties => do
      shutdownLevels prop prices.entries
      shutdownProperties properties

def metaDExShutdownAllpair : Op Int := do
  let s ← get
  shutdownProperties s.metadex.entries
  pure 0

end Tecracoin.Elysium
