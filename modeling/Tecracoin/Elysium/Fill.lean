/-
  What a fill of `x_Trade` is: its two amounts and the tokens it moves.

  The quantity is rounded down and the payment up, both over exact products of
  64-bit amounts.  The bounds are shown for integers first (`quantity` and
  `payment`); the prices of the orders are quotients of these integers.
-/
import Tecracoin.Elysium.MetaDEx

namespace Tecracoin.Elysium

open Data Op Ledger

variable {pnew pold : CMPMetaDEx} {amount n p : Int} {s : Ledger} {E : Abort → Prop}
  {desired forsale : Nat} {env : Env} {t : TallyType} {a : Address} {sellersPrice : ℚ}

/-- An amount of the protocol that is not zero. -/
def InRange (amount : Int) : Prop := 1 ≤ amount ∧ amount ≤ MAX_INT_8_BYTES

instance (amount : Int) : Decidable (InRange amount) :=
  inferInstanceAs (Decidable (1 ≤ amount ∧ amount ≤ MAX_INT_8_BYTES))

/-- The amounts of an order are amounts of the protocol. -/
structure CMPMetaDEx.AmountsInRange (o : CMPMetaDEx) : Prop where
  forsale : InRange o.amountForsale
  desired : InRange o.amountDesired
  remaining : InRange o.amountRemaining

/-- A resting order and an incoming one that wants what it sells, at prices that cross. -/
structure Crosses (pnew pold : CMPMetaDEx) : Prop where
  incoming : pnew.AmountsInRange
  resting : pold.AmountsInRange
  distinct : pnew.property ≠ pnew.desiredProperty
  wants : pold.desiredProperty = pnew.property
  sells : pold.property = pnew.desiredProperty
  prices : pold.unitPrice ≤ pnew.inversePrice

/-- The amounts of a fill: `n` tokens are sold for `p`. -/
structure Fair (pnew pold : CMPMetaDEx) (n p : Int) : Prop where
  atLeastOne : 1 ≤ n
  seller : pold.unitPrice ≤ (p : ℚ) / n
  buyer : (p : ℚ) / n ≤ pnew.inversePrice
  sellerHas : n ≤ pold.amountRemaining
  buyerHas : p ≤ pnew.amountRemaining
  affordable : n * pold.unitPrice ≤ pnew.amountRemaining
  largest : ∀ q : Int, q ≤ pold.amountRemaining → q * pold.unitPrice ≤ pnew.amountRemaining → q ≤ n

/-! ## Prices -/

section Prices

variable {o o' : CMPMetaDEx}

lemma unitPrice_eq (h : 1 ≤ o.amountForsale) :
    o.unitPrice = (o.amountDesired : ℚ) / o.amountForsale := by
  have hne : o.amountForsale ≠ 0 := by omega
  rw [CMPMetaDEx.unitPrice, if_pos hne]

lemma inversePrice_eq (h : 1 ≤ o.amountDesired) :
    o.inversePrice = (o.amountForsale : ℚ) / o.amountDesired := by
  have hne : o.amountDesired ≠ 0 := by omega
  rw [CMPMetaDEx.inversePrice, if_pos hne]

lemma CMPMetaDEx.AmountsInRange.inversePrice_eq_inv (h : o.AmountsInRange) :
    o.inversePrice = o.unitPrice⁻¹ := by
  rw [inversePrice_eq h.desired.1, unitPrice_eq h.forsale.1, inv_div]

lemma CMPMetaDEx.AmountsInRange.unitPrice_pos (h : o.AmountsInRange) : 0 < o.unitPrice := by
  rw [unitPrice_eq h.forsale.1]
  have hdesired : (0 : ℚ) < o.amountDesired := by exact_mod_cast h.desired.1
  have hforsale : (0 : ℚ) < o.amountForsale := by exact_mod_cast h.forsale.1
  exact div_pos hdesired hforsale

/-- Crossing prices cross from the other side too. -/
lemma Crosses.prices' (h : Crosses o o') : o.unitPrice ≤ o'.inversePrice := by
  have hcross := h.prices
  rw [h.incoming.inversePrice_eq_inv] at hcross
  rw [h.resting.inversePrice_eq_inv]
  rwa [le_inv_comm₀ h.incoming.unitPrice_pos h.resting.unitPrice_pos]

/-- What `q` tokens cost at the price of an order, in integers. -/
lemma mul_unitPrice_le_iff (h : 1 ≤ o.amountForsale) {q r : Int} :
    (q : ℚ) * o.unitPrice ≤ r ↔ q * o.amountDesired ≤ r * o.amountForsale := by
  have hforsale : (0 : ℚ) < o.amountForsale := by exact_mod_cast h
  rw [unitPrice_eq h, ← mul_div_assoc, div_le_iff₀ hforsale]
  exact_mod_cast Iff.rfl

lemma unitPrice_le_div_iff (h : 1 ≤ o.amountForsale) (hn : 1 ≤ n) :
    o.unitPrice ≤ (p : ℚ) / n ↔ n * o.amountDesired ≤ p * o.amountForsale := by
  have hforsale : (0 : ℚ) < o.amountForsale := by exact_mod_cast h
  have hnpos : (0 : ℚ) < n := by exact_mod_cast hn
  rw [unitPrice_eq h, div_le_div_iff₀ hforsale hnpos, mul_comm]
  exact_mod_cast Iff.rfl

end Prices

/-! ## The two amounts -/

/-- What can be bought: at most what is left of the resting order, and as much of it as the incoming
    order can pay for. -/
structure Quantity (pnew pold : CMPMetaDEx) (n : Int) : Prop where
  nonneg : 0 ≤ n
  sellerHas : n ≤ pold.amountRemaining
  affordable : n * pold.amountDesired ≤ pnew.amountRemaining * pold.amountForsale
  largest : ∀ q : Int, q ≤ pold.amountRemaining →
    q * pold.amountDesired ≤ pnew.amountRemaining * pold.amountForsale → q ≤ n

/-- Rounded down and cut off, the quantity is the largest one. -/
lemma quantity {newRemaining : Nat} (hremaining : (newRemaining : Int) = pnew.amountRemaining)
    (hforsale : (forsale : Int) = pold.amountForsale)
    (hdesired : (desired : Int) = pold.amountDesired) (hpos : 0 < desired)
    (hold : 0 ≤ pold.amountRemaining) :
    Quantity pnew pold (min ((newRemaining * forsale / desired : Nat) : Int)
      pold.amountRemaining) := by
  have hfloor : ((newRemaining * forsale / desired : Nat) : Int) * desired ≤
      newRemaining * forsale := by
    exact_mod_cast Nat.div_mul_le_self _ _
  refine ⟨le_min (Int.natCast_nonneg _) hold, min_le_right _ _, ?_, fun q hq hafford => ?_⟩
  · rw [← hremaining, ← hforsale, ← hdesired]
    have hmul := mul_le_mul_of_nonneg_right
      (min_le_left ((newRemaining * forsale / desired : Nat) : Int) pold.amountRemaining)
      (by omega : (0 : Int) ≤ desired)
    omega
  · rw [← hremaining, ← hforsale, ← hdesired] at hafford
    refine le_min ?_ hq
    -- an affordable quantity is at most the quotient
    have hdiv : q ≤ (newRemaining * forsale : Int) / desired :=
      (Int.le_ediv_iff_mul_le (by omega)).mpr hafford
    exact_mod_cast hdiv

/-- Rounded up, the payment covers the price and stays within what the buyer has. -/
lemma payment (h : Quantity pnew pold n) {couldBuy : Nat} (hcouldBuy : (couldBuy : Int) = n)
    (hforsale : (forsale : Int) = pold.amountForsale)
    (hdesired : (desired : Int) = pold.amountDesired) (hpos : 0 < forsale)
    (hnew : 0 ≤ pnew.amountRemaining) :
    n * pold.amountDesired
        ≤ (divideAndRoundUp (couldBuy * desired) forsale : Int) * pold.amountForsale ∧
      (divideAndRoundUp (couldBuy * desired) forsale : Int) ≤ pnew.amountRemaining := by
  have hcover := le_divideAndRoundUp_mul (couldBuy * desired) hpos
  obtain ⟨remaining, hremaining⟩ := Int.eq_ofNat_of_zero_le hnew
  have hafford := h.affordable
  rw [← hcouldBuy, ← hdesired, ← hforsale]
  rw [← hcouldBuy, ← hdesired, ← hforsale, hremaining] at hafford
  refine ⟨by exact_mod_cast hcover, ?_⟩
  rw [hremaining]
  have hle : divideAndRoundUp (couldBuy * desired) forsale ≤ remaining :=
    (divideAndRoundUp_le_iff hpos).mpr (by exact_mod_cast hafford)
  exact_mod_cast hle

/-- A quantity of at least one and its payment are fair, if the buyer's price allows it. -/
lemma Quantity.fair (h : Quantity pnew pold n) (hforsale : 1 ≤ pold.amountForsale) (hn : n ≠ 0)
    (hcover : n * pold.amountDesired ≤ p * pold.amountForsale) (hp : p ≤ pnew.amountRemaining)
    (hprice : (p : ℚ) / n ≤ pnew.inversePrice) : Fair pnew pold n p := by
  have hone : 1 ≤ n := by
    have := h.nonneg
    omega
  exact ⟨hone, (unitPrice_le_div_iff hforsale hone).mpr hcover, hprice, h.sellerHas, hp,
    (mul_unitPrice_le_iff hforsale).mpr h.affordable,
    fun q hq hafford => h.largest q hq ((mul_unitPrice_le_iff hforsale).mp hafford)⟩

/-- What is asked of the decision on a fill: the order is filed under its price, and if it wants the
    other order's property the two cross. -/
structure Tradable (sellersPrice : ℚ) (pnew pold : CMPMetaDEx) : Prop where
  filed : pold.unitPrice = sellersPrice
  crosses : pold.desiredProperty = pnew.property → Crosses pnew pold

/-- What a decision for a fill says about the two orders. -/
structure Matched (pnew pold : CMPMetaDEx) (n p : Int) : Prop where
  wants : pold.desiredProperty = pnew.property
  sells : pold.property = pnew.desiredProperty
  distinct : pnew.property ≠ pnew.desiredProperty
  fair : Fair pnew pold n p

/-- Deciding on a fill changes nothing, does not fail for orders that cross, and decides on fair
    amounts. -/
lemma matchAmounts_ends (hE : ¬ Tradable sellersPrice pnew pold → ∀ e, E e) :
    Op.Ends E (matchAmounts sellersPrice pnew pold) s (fun r s' => s' = s ∧
      ∀ n p, r = some (n, p) → Matched pnew pold n p) := by
  refine ends_ensure_bind (fun hc => hE (fun h => hc h.filed) _) (fun _ => ?_)
  refine ends_ite (fun _ => ends_pure ⟨rfl, nofun⟩) (fun hwants => ?_)
  rw [not_not] at hwants
  have hE' : ¬ Crosses pnew pold → ∀ e, E e := hE ∘ mt (fun h => h.crosses hwants)
  -- preconditions
  refine ends_ensure_bind (fun hc => hE' (fun h => ?_) _) (fun hold => ?_)
  · have := h.resting.remaining.1
    omega
  refine ends_ensure_bind (fun hc => hE' (fun h => ?_) _) (fun hnew => ?_)
  · have := h.incoming.remaining.1
    omega
  refine ends_ensure_bind (fun hc => hE' (fun h => hc h.distinct) _) (fun hdistinct => ?_)
  refine ends_ensure_bind (fun hc => hE' (fun h => hc h.wants.symm) _) (fun _ => ?_)
  refine ends_ensure_bind (fun hc => hE' (fun h => hc h.sells) _) (fun hsells => ?_)
  refine ends_ensure_bind (fun hc => hE' (fun h => hc h.prices) _) (fun _ => ?_)
  refine ends_ensure_bind (fun hc => hE' (fun h => hc h.prices') _) (fun _ => ?_)
  -- the quantity
  refine ends_bind (convertTo256_ends (fun hneg => absurd hneg (by omega))) ?_
  rintro newRemaining s ⟨rfl, hnewRemaining⟩
  refine ends_bind (convertTo256_ends (fun hneg => hE' (fun h => ?_))) ?_
  · have := h.resting.forsale.1
    omega
  rintro forsale s ⟨rfl, hforsale⟩
  refine ends_bind (convertTo256_ends (fun hneg => hE' (fun h => ?_))) ?_
  · have := h.resting.desired.1
    omega
  rintro desired s ⟨rfl, hdesired⟩
  refine ends_ensure_bind (fun hc => hE' (fun h => ?_) _) (fun hdesiredNe => ?_)
  · have := h.resting.desired.1
    omega
  have hdesiredPos : 0 < desired := Nat.pos_of_ne_zero hdesiredNe
  refine ends_bind (convertTo256_ends (fun hneg => absurd hneg (by omega))) ?_
  rintro oldRemaining s ⟨rfl, holdRemaining⟩
  have hquantity := quantity hnewRemaining hforsale hdesired hdesiredPos (by omega)
  refine ends_bind (Q := fun n s' => s' = s ∧ Quantity pnew pold n) ?_ ?_
  · unfold couldBuyAmount
    refine ends_ite (fun hless => ?_) (fun hmore => ?_)
    · have hmin : min ((newRemaining * forsale / desired : Nat) : Int) pold.amountRemaining
          = (newRemaining * forsale / desired : Nat) := by
        omega
      rw [hmin] at hquantity
      refine (convertTo64_ends (fun hbig => hE' (fun h => ?_))).post (fun n s' hn => ?_)
      · have := h.resting.remaining.2
        omega
      · exact ⟨hn.1, hn.2.1 ▸ hquantity⟩
    · have hmin : min ((newRemaining * forsale / desired : Nat) : Int) pold.amountRemaining
          = pold.amountRemaining := by
        omega
      rw [hmin] at hquantity
      exact ends_pure ⟨rfl, hquantity⟩
  rintro n s ⟨rfl, hquantity⟩
  refine ends_ite (fun _ => ends_pure ⟨rfl, nofun⟩) (fun hn => ?_)
  -- the payment
  refine ends_bind (convertTo256_ends (fun hneg =>
    absurd hneg (by have := hquantity.nonneg; omega))) ?_
  rintro couldBuy s ⟨rfl, hcouldBuy⟩
  refine ends_ensure_bind (fun hc => hE' (fun h => ?_) _) (fun hforsaleNe => ?_)
  · have := h.resting.forsale.1
    omega
  have hforsalePos : 0 < forsale := Nat.pos_of_ne_zero hforsaleNe
  have hpayment := payment hquantity hcouldBuy hforsale hdesired hforsalePos (by omega)
  refine ends_bind (convertTo64_ends (fun hbig => hE' (fun h => ?_))) ?_
  · have := h.incoming.remaining.2
    omega
  rintro p s ⟨rfl, rfl, -⟩
  refine ends_ite (fun _ => ends_pure ⟨rfl, nofun⟩) (fun hprice => ?_)
  have hfair := hquantity.fair (by omega) hn hpayment.1 hpayment.2 (not_lt.mp hprice)
  -- postconditions
  have hsellerHas := hfair.sellerHas
  refine ends_ensure_bind (absurd hfair.seller) (fun _ => ?_)
  refine ends_ensure_bind (absurd hfair.buyer) (fun _ => ?_)
  refine ends_ensure_bind (fun hc => by omega) (fun _ => ?_)
  refine ends_ensure_bind (fun hc => by omega) (fun _ => ?_)
  refine ends_ensure_bind (fun hc => by omega) (fun _ => ?_)
  refine ends_ensure_bind (fun hc => by omega) (fun _ => ?_)
  refine ends_pure ⟨rfl, fun n' p' hsome => ?_⟩
  obtain ⟨rfl, rfl⟩ := Prod.mk.inj (Option.some.inj hsome)
  exact ⟨hwants, hsells, hdistinct, hfair⟩

/-! ## The tokens moved -/

/-- No negative tally or cache, and no property beyond the range. -/
structure Sound (s : Ledger) : Prop where
  nonneg : s.Nonneg
  cached : ∀ p, 0 ≤ s.getCachedAmount p
  capped : ∀ p, s.total p ≤ MAX_INT_8_BYTES

lemma Sound.cleared (systemAddress : Address) : Sound (.cleared systemAddress) :=
  ⟨fun _ _ _ _ => le_rfl, fun _ => le_rfl, fun _ => show (0 : Int) ≤ MAX_INT_8_BYTES by decide⟩

/-- What a property's balances and one reserve hold together is not more than there is of it. -/
lemma Ledger.Nonneg.balance_add_reserve (h : s.Nonneg) (p : PropertyId) (a : Address) :
    s.bucketSum p .BALANCE + s.money a p .METADEX_RESERVE + s.getCachedAmount p ≤ s.total p := by
  have hreserve := h.money_le (t := .METADEX_RESERVE) (by decide) a p
  have hsell := h.bucketSum_nonneg (t := .SELLOFFER_RESERVE) (by decide) p
  have haccept := h.bucketSum_nonneg (t := .ACCEPT_RESERVE) (by decide) p
  unfold Ledger.total Ledger.supply
  omega

/-- No bucket holds more than there is of the property. -/
lemma Sound.money_le_total (h : Sound s) (ht : t ≠ .PENDING)
    (a : Address) (p : PropertyId) : s.money a p t ≤ s.total p := by
  have hmoney := h.nonneg.money_le ht a p
  have hcached := h.cached p
  have hbalance := h.nonneg.bucketSum_nonneg (t := .BALANCE) (by decide) p
  have hsell := h.nonneg.bucketSum_nonneg (t := .SELLOFFER_RESERVE) (by decide) p
  have haccept := h.nonneg.bucketSum_nonneg (t := .ACCEPT_RESERVE) (by decide) p
  have hreserve := h.nonneg.bucketSum_nonneg (t := .METADEX_RESERVE) (by decide) p
  unfold Ledger.total Ledger.supply
  cases t with
  | PENDING => exact absurd rfl ht
  | _ => omega

lemma Ledger.total_updated {who : Address} {propertyId : PropertyId}
    {ttype : TallyType} (h : s.CanUpdate who propertyId amount ttype) (p : PropertyId) :
    (s.updated who propertyId amount ttype).total p
      = s.total p + if p = propertyId ∧ ttype ≠ .PENDING then amount else 0 := by
  have hcached : (s.updated who propertyId amount ttype).getCachedAmount p =
      s.getCachedAmount p := rfl
  have hsupply := supply_updated h p
  unfold Ledger.total
  omega

section

variable (h : Sound s) (ht : t ≠ .PENDING) {p : PropertyId} (hpos : 0 < amount)
include h ht hpos

/-- New tokens that fit can be credited, and the ledger stays sound. -/
lemma Sound.canCredit
    (hfits : s.total p + amount ≤ MAX_INT_8_BYTES) : s.CanUpdate a p amount t := by
  have hle := h.money_le_total ht a p
  exact canUpdate_credit hpos (h.nonneg a p t ht) (by omega)

lemma Sound.credited
    (hfits : s.total p + amount ≤ MAX_INT_8_BYTES) : Sound (s.updated a p amount t) := by
  have hcan := h.canCredit ht (a := a) hpos hfits
  refine ⟨h.nonneg.updated hcan, h.cached, fun q => ?_⟩
  have hcap := h.capped q
  rw [total_updated hcan]
  split_ifs with hsame
  · rw [hsame.1]
    exact hfits
  · omega

end

/-- The fee of a fill has gone to the fee cache: `s1` is what `AddFee` leaves. -/
structure FeePaid (env : Env) (pnew pold : CMPMetaDEx) (n : Int) (s s1 : Ledger) : Prop where
  run : feeApplies env pnew pold = true →
    addFee env pnew.desiredProperty pnew.block (tradingFee env pnew pold n) s = .ok ((), s1)
  none : feeApplies env pnew pold = false → s1 = s
  moved : FeesUpTo pnew.block s →
    FeesMoved pnew.block pnew.desiredProperty (tradingFee env pnew pold n) s s1

/-- The tokens of a fill are moved one after another, after the fee. -/
structure Settled (env : Env) (pnew pold : CMPMetaDEx) (n p : Int) (s s1 s' : Ledger) : Prop where
  fee : FeePaid env pnew pold n s s1
  buyerPays : s1.CanUpdate pnew.addr pnew.property (-p) .BALANCE
  sellerGets : (s1.updated pnew.addr pnew.property (-p) .BALANCE).CanUpdate
    pold.addr pold.desiredProperty p .BALANCE
  sellerGives : ((s1.updated pnew.addr pnew.property (-p) .BALANCE).updated
    pold.addr pold.desiredProperty p .BALANCE).CanUpdate
    pold.addr pold.property (-n) .METADEX_RESERVE
  buyerGets : (((s1.updated pnew.addr pnew.property (-p) .BALANCE).updated
    pold.addr pold.desiredProperty p .BALANCE).updated
    pold.addr pold.property (-n) .METADEX_RESERVE).CanUpdate
    pnew.addr pnew.desiredProperty (n - tradingFee env pnew pold n) .BALANCE
  final : s' = (((s1.updated pnew.addr pnew.property (-p) .BALANCE).updated
    pold.addr pold.desiredProperty p .BALANCE).updated
    pold.addr pold.property (-n) .METADEX_RESERVE).updated
    pnew.addr pnew.desiredProperty (n - tradingFee env pnew pold n) .BALANCE

/-- What a fill of `n` for `p` with fee `fee` adds to one bucket. -/
def fillDelta (pnew pold : CMPMetaDEx) (n p fee : Int) (a : Address) (q : PropertyId)
    (t : TallyType) : Int :=
  (if a = pnew.addr ∧ q = pnew.property ∧ t = .BALANCE then -p else 0) +
    (if a = pold.addr ∧ q = pold.desiredProperty ∧ t = .BALANCE then p else 0) +
    (if a = pold.addr ∧ q = pold.property ∧ t = .METADEX_RESERVE then -n else 0) +
    (if a = pnew.addr ∧ q = pnew.desiredProperty ∧ t = .BALANCE then n - fee else 0)

lemma tradingFee_nonneg (env : Env) (pnew pold : CMPMetaDEx) (hn : 0 ≤ n) :
    0 ≤ tradingFee env pnew pold n := by
  unfold tradingFee
  split_ifs
  · exact Int.tdiv_nonneg hn (by decide)
  · exact le_rfl

lemma tradingFee_lt (env : Env) (pnew pold : CMPMetaDEx) (hn : 1 ≤ n) :
    tradingFee env pnew pold n < n := by
  unfold tradingFee
  split_ifs
  · rw [Int.tdiv_eq_ediv_of_nonneg (by omega)]
    omega
  · omega

namespace Settled

variable {s1 s' : Ledger}

section
variable (h : Settled env pnew pold n p s s1 s')
include h

/-- Exactly the amounts of the fill change hands. -/
lemma money (a : Address) (q : PropertyId) (t : TallyType) :
    s'.money a q t
      = s1.money a q t + fillDelta pnew pold n p (tradingFee env pnew pold n) a q t := by
  rw [h.final, money_updated h.buyerGets, money_updated h.sellerGives,
    money_updated h.sellerGets, money_updated h.buyerPays]
  unfold fillDelta
  ring

lemma getCacheHistory (q : PropertyId) : s'.getCacheHistory q = s1.getCacheHistory q := by
  rw [h.final]
  rfl

end

variable (h : Settled env pnew pold n p s s1 s') (hfees : FeesUpTo pnew.block s)
include h hfees

/-- A fill between matching orders creates and destroys nothing. -/
lemma total (hwants : pold.desiredProperty = pnew.property)
    (hsells : pold.property = pnew.desiredProperty) (q : PropertyId) : s'.total q = s.total q := by
  rw [h.final, total_updated h.buyerGets, total_updated h.sellerGives, total_updated h.sellerGets,
    total_updated h.buyerPays, (h.fee.moved hfees).total, hwants, hsells]
  simp only [ne_eq, reduceCtorEq, not_false_eq_true, and_true]
  split_ifs <;> omega

lemma feesUpTo : FeesUpTo pnew.block s' := by
  intro q item hitem
  rw [h.getCacheHistory] at hitem
  exact (h.fee.moved hfees).feesUpTo q item hitem

lemma onlyFunds : OnlyFunds s s' := by
  have hupdates : OnlyFunds s1 s' := by
    rw [h.final]
    rfl
  exact (h.fee.moved hfees).rest.trans hupdates

end Settled

/-- What is asked of a settlement: both sides have what they give away. -/
structure Settleable (pnew pold : CMPMetaDEx) (n p : Int) (s : Ledger) : Prop where
  sound : Sound s
  fees : FeesUpTo pnew.block s
  payment : 1 ≤ p
  buyerHas : p ≤ s.money pnew.addr pnew.property .BALANCE
  sellerHas : n ≤ s.money pold.addr pold.property .METADEX_RESERVE
  thawed : s.isAddressFrozen pnew.addr pnew.property = false

/-- The fee of a trade goes to the cache. -/
lemma feePaid_ends (hsells : pold.property = pnew.desiredProperty) (hn : 1 ≤ n)
    (hE : ∀ e, (Settleable pnew pold n p s → NoFeeReceiver s pnew.desiredProperty e) → E e) :
    Op.Ends E (Op.when (feeApplies env pnew pold)
        (addFee env pnew.desiredProperty pnew.block (tradingFee env pnew pold n))) s
      (fun _ s1 => FeePaid env pnew pold n s s1) := by
  have hfee := tradingFee_nonneg env pnew pold (n := n) (by omega)
  have hless := tradingFee_lt env pnew pold hn
  refine ends_when (fun hpays => ?_) (fun hfree => ?_)
  · by_cases hfees : FeesUpTo pnew.block s
    · refine ((addFee_ends hfees hfee (fun e he => hE e (fun hset => he ?_))).and_run).post
        (fun _ s1 hrun => ⟨fun _ => hrun.2, fun h => ?_, fun _ => hrun.1⟩)
      · -- the seller's reserve makes room for the fee
        have hroom := (hset.sound.nonneg.balance_add_reserve pnew.desiredProperty pold.addr).trans
          (hset.sound.capped _)
        have hreserve := hset.sellerHas
        rw [hsells] at hreserve
        exact ⟨hset.sound.nonneg, hset.sound.cached _, by omega⟩
      · rw [hpays] at h
        cases h
    · refine ends_of_ok (fun e => hE e (fun hset => absurd hset.fees hfees)) (fun _ s1 hrun => ?_)
      refine ⟨fun _ => hrun, fun h => ?_, fun h => absurd h hfees⟩
      rw [hpays] at h
      cases h
  · have hzero : tradingFee env pnew pold n = 0 := by
      rw [tradingFee, hfree]
      rfl
    refine ⟨fun h => ?_, fun _ => rfl, fun h => ?_⟩
    · rw [hfree] at h
      cases h
    · rw [hzero]
      exact .refl h _

/-- A settlement moves the tokens of the fill; if both sides have them it can only be stopped by a
    fee distribution that finds no receiver. -/
lemma settle_ends (hmatched : Matched pnew pold n p)
    (hE : ∀ e, (Settleable pnew pold n p s → NoFeeReceiver s pnew.desiredProperty e) → E e) :
    Op.Ends E (settle env pnew pold n p) s
      (fun _ s' => ∃ s1, Settled env pnew pold n p s s1 s') := by
  have hn := hmatched.fair.atLeastOne
  have hfee := tradingFee_nonneg env pnew pold (n := n) (by omega)
  have hless := tradingFee_lt env pnew pold hn
  have hE' : ¬ Settleable pnew pold n p s → ∀ e, E e := fun hnot e => hE e (fun h => absurd h hnot)
  refine ends_bind (feePaid_ends hmatched.sells hn hE) ?_
  rintro _ s1 hpaid
  -- the buyer's payment is not touched by the fee, which is in the other property
  refine ends_bind (assertTally_ends (hE' ∘ mt (fun hset => ?_))) ?_
  · have hmoved := hpaid.moved hset.fees
    refine canUpdate_debit (by have := hset.payment; omega) ?_ (fun _ => ?_)
    · rw [hmoved.other _ _ _ (fun h => hmatched.distinct h.1)]
      exact hset.buyerHas
    · rw [hmoved.rest.isAddressFrozen]
      exact hset.thawed
  rintro _ s2 ⟨hbuyerPays, rfl⟩
  refine ends_bind (assertTally_ends (hE' ∘ mt (fun hset => ?_))) ?_
  · have hmoved := hpaid.moved hset.fees
    have hnonneg := (hmoved.nonneg hset.sound.nonneg).updated hbuyerPays
    have hle := hnonneg.money_le (t := .BALANCE) (by decide) pold.addr pnew.property
    have hroom := (hset.sound.nonneg.balance_add_reserve pnew.property pold.addr).trans
      (hset.sound.capped _)
    have hreserve := hset.sound.nonneg pold.addr pnew.property .METADEX_RESERVE (by decide)
    have hcached := hset.sound.cached pnew.property
    rw [bucketSum_updated hbuyerPays, if_pos ⟨rfl, rfl⟩,
      hmoved.bucketSum _ _ (fun h => hmatched.distinct h.1)] at hle
    rw [hmatched.wants]
    exact canUpdate_credit (by have := hset.payment; omega) (hnonneg _ _ _ (by decide)) (by omega)
  rintro _ s3 ⟨hsellerGets, rfl⟩
  refine ends_bind (assertTally_ends (hE' ∘ mt (fun hset => ?_))) ?_
  · have hmoved := hpaid.moved hset.fees
    refine canUpdate_debit (by omega) ?_ nofun
    rw [money_updated hsellerGets, money_updated hbuyerPays,
      hmoved.other pold.addr pold.property .METADEX_RESERVE (fun h => nomatch h.2)]
    simp only [reduceCtorEq, and_false, if_false, add_zero]
    exact hset.sellerHas
  rintro _ s4 ⟨hsellerGives, rfl⟩
  refine (assertTally_ends (hE' ∘ mt (fun hset => ?_))).post ?_
  · have hmoved := hpaid.moved hset.fees
    have hnonneg1 := hmoved.nonneg hset.sound.nonneg
    have hnonneg := ((hnonneg1.updated hbuyerPays).updated hsellerGets).updated hsellerGives
    have hle := hnonneg.money_le (t := .BALANCE) (by decide) pnew.addr pnew.desiredProperty
    have hne : pnew.desiredProperty ≠ pnew.property := fun h => hmatched.distinct h.symm
    have hne' : pnew.desiredProperty ≠ pold.desiredProperty := by
      rw [hmatched.wants]
      exact hne
    rw [bucketSum_updated hsellerGives, bucketSum_updated hsellerGets,
      bucketSum_updated hbuyerPays] at hle
    simp only [hne, hne', reduceCtorEq, false_and, and_false, if_false, add_zero] at hle
    -- with the fee the property has grown by it, but the seller still holds `n`
    have htotal := hmoved.total pnew.desiredProperty
    rw [if_pos rfl] at htotal
    have hcap := hset.sound.capped pnew.desiredProperty
    have hroom := hnonneg1.balance_add_reserve pnew.desiredProperty pold.addr
    have hhas := hset.sellerHas
    rw [hmatched.sells, ← hmoved.other pold.addr pnew.desiredProperty .METADEX_RESERVE
      (fun h => nomatch h.2)] at hhas
    have hcached := hmoved.cached hset.sound.cached hfee pnew.desiredProperty
    exact canUpdate_credit (by omega) (hnonneg _ _ _ (by decide)) (by omega)
  · rintro _ s5 ⟨hbuyerGets, rfl⟩
    exact ⟨s1, hpaid, hbuyerPays, hsellerGets, hsellerGives, hbuyerGets, rfl⟩

/-! ## One turn of the loop -/

/-- A fill is paid for. -/
lemma Fair.payment_pos (h : Fair pnew pold n p) (hprice : 0 < pold.unitPrice) : 1 ≤ p := by
  have hn : (0 : ℚ) < n := by exact_mod_cast h.atLeastOne
  have hquotient : (0 : ℚ) < p / n := lt_of_lt_of_le hprice h.seller
  have hp : (0 : ℚ) < p := (div_pos_iff_of_pos_right hn).mp hquotient
  exact_mod_cast hp

/-- An order of which `amount` was traded. -/
def CMPMetaDEx.reduced (o : CMPMetaDEx) (amount : Int) : CMPMetaDEx :=
  { o with amountRemaining := o.amountRemaining - amount }

/-- What a turn that trades has done. -/
structure Filled (env : Env) (pnew pold : CMPMetaDEx) (r : Option (CMPMetaDEx × CMPMetaDEx))
    (n p : Int) (s s1 s' : Ledger) : Prop where
  matched : Matched pnew pold n p
  settled : Settled env pnew pold n p s s1 s'
  orders : r = some (pnew.reduced p, pold.reduced n)

/-- A turn does nothing or fills the orders; if every fill they allow can be settled it is only
    stopped by a fee distribution that finds no receiver. -/
lemma tradeOffer_ends (hE : ∀ e, (Tradable sellersPrice pnew pold →
      (∀ n p, Matched pnew pold n p → Settleable pnew pold n p s) →
        NoFeeReceiver s pnew.desiredProperty e) → E e) :
    Op.Ends E (tradeOffer env sellersPrice pnew pold) s (fun r s' =>
      (r = none ∧ s' = s) ∨ ∃ n p s1, Filled env pnew pold r n p s s1 s') := by
  refine ends_bind (matchAmounts_ends (fun hnot e => hE e (fun h => absurd h hnot))) ?_
  rintro amounts s ⟨rfl, hmatched⟩
  cases amounts with
  | none => exact ends_pure (.inl ⟨rfl, rfl⟩)
  | some amounts =>
    obtain ⟨n, p⟩ := amounts
    have hm := hmatched n p rfl
    refine ends_bind (settle_ends hm (fun e he => hE e (fun _ hset => he (hset n p hm)))) ?_
    rintro _ s' ⟨s1, hsettled⟩
    exact ends_pure (.inr ⟨n, p, s1, hm, hsettled, rfl⟩)

/-- Two crossing orders: the decision on the fill never fails, and the fill is fair; it moves
    exactly its two amounts, less the fee of a two thousandth that has gone to the fee cache before.
    -/
theorem crossing_orders_fill (env : Env) {pnew pold : CMPMetaDEx} (h : Crosses pnew pold)
    (s : Ledger) :
    ∃ amounts, matchAmounts pold.unitPrice pnew pold s = .ok (amounts, s) ∧
      (amounts = none → tradeOffer env pold.unitPrice pnew pold s = .ok (none, s)) ∧
      ∀ n p, amounts = some (n, p) → Fair pnew pold n p ∧
        (tradingFee env pnew pold n = if feeApplies env pnew pold then n / 2000 else 0) ∧
        (∀ r s', tradeOffer env pold.unitPrice pnew pold s = .ok (r, s') →
          r = some (pnew.reduced p, pold.reduced n) ∧
          ∃ s1, FeePaid env pnew pold n s s1 ∧
            (∀ a q t, s'.money a q t
              = s1.money a q t + fillDelta pnew pold n p (tradingFee env pnew pold n) a q t) ∧
            (∀ q, s'.getCacheHistory q = s1.getCacheHistory q) ∧
            (FeesUpTo pnew.block s → ∀ q, s'.total q = s.total q)) ∧
        (Settleable pnew pold n p s → ∀ e, tradeOffer env pold.unitPrice pnew pold s = .error e →
            NoFeeReceiver s pnew.desiredProperty e) := by
  have hmatch : Op.Ends (fun _ => False) (matchAmounts pold.unitPrice pnew pold) s (fun r s' =>
      s' = s ∧ ∀ n p, r = some (n, p) → Matched pnew pold n p) :=
    matchAmounts_ends (fun hnot => absurd ⟨rfl, fun _ => h⟩ hnot)
  obtain ⟨amounts, s', hrun⟩ : ∃ amounts s', matchAmounts pold.unitPrice pnew pold s
      = .ok (amounts, s') := by
    cases hrun : matchAmounts pold.unitPrice pnew pold s with
    | ok r => exact ⟨r.1, r.2, rfl⟩
    | error e => exact (hmatch.of_error hrun).elim
  obtain ⟨rfl, hmatched⟩ := hmatch.of_ok hrun
  refine ⟨amounts, hrun, fun hnone => ?_, fun n p hsome => ?_⟩
  · subst hnone
    exact bind_of_ok hrun
  subst hsome
  have hm := hmatched n p rfl
  -- what is left of the turn is the settlement
  have hturn : tradeOffer env pold.unitPrice pnew pold s' = (settle env pnew pold n p >>= fun _ =>
          pure (some (pnew.reduced p, pold.reduced n))) s' :=
    bind_of_ok hrun
  have hends : Op.Ends
      (fun e => Settleable pnew pold n p s' → NoFeeReceiver s' pnew.desiredProperty e)
      (settle env pnew pold n p >>= fun _ => pure (some (pnew.reduced p, pold.reduced n))) s'
      (fun r s'' => r = some (pnew.reduced p, pold.reduced n) ∧
        ∃ s1, Settled env pnew pold n p s' s1 s'') :=
    ends_bind (settle_ends hm (fun e he => he))
      (fun _ _ hsettled => ends_pure ⟨rfl, hsettled⟩)
  refine ⟨hm.fair, ?_, fun r s'' hok => ?_, fun hset e herror => ?_⟩
  · have hnonneg : 0 ≤ n := by
      have := hm.fair.atLeastOne
      omega
    rw [tradingFee, Int.tdiv_eq_ediv_of_nonneg hnonneg]
  · rw [hturn] at hok
    obtain ⟨hr, s1, hsettled⟩ := hends.of_ok hok
    exact ⟨hr, s1, hsettled.fee, hsettled.money, hsettled.getCacheHistory,
      fun hfees => hsettled.total hfees hm.wants hm.sells⟩
  · rw [hturn] at herror
    exact hends.of_error herror hset

/-- A resting order of 10 tokens at the price 2, and an incoming one that offers
    7 and asks for 3. -/
def restingOrder : CMPMetaDEx := ⟨1, 1, 0, 4, 10, 3, 20, 10, 1, ['A']⟩
def incomingOrder : CMPMetaDEx := ⟨2, 2, 0, 3, 7, 4, 3, 7, 1, ['B']⟩

lemma incomingOrder_crosses : Crosses incomingOrder restingOrder where
  incoming := ⟨by decide, by decide, by decide⟩
  resting := ⟨by decide, by decide, by decide⟩
  distinct := by decide
  wants := rfl
  sells := rfl
  prices := by decide +kernel

theorem crossing_orders_fill_three :
    Crosses incomingOrder restingOrder ∧
      ∃ amounts, matchAmounts restingOrder.unitPrice incomingOrder restingOrder
          (.cleared []) = .ok (amounts, .cleared []) ∧
        amounts = some (3, 6) ∧ Fair incomingOrder restingOrder 3 6 := by
  refine ⟨incomingOrder_crosses, ?_⟩
  obtain ⟨amounts, hrun, _, hfill⟩ :=
    crossing_orders_fill .quiet incomingOrder_crosses (.cleared [])
  have hvalue : matchAmounts restingOrder.unitPrice incomingOrder restingOrder (.cleared [])
      = .ok (some (3, 6), .cleared []) := by decide +kernel
  have hamounts : amounts = some (3, 6) := by
    rw [hvalue] at hrun
    exact (congrArg Prod.fst (Except.ok.inj hrun)).symm
  exact ⟨amounts, hrun, hamounts, (hfill 3 6 hamounts).1⟩

end Tecracoin.Elysium
