/-
  The loops of `x_Trade` and `MetaDEx_ADD`: an incoming order is matched against
  the levels of the property it desires, and what is left of it goes into the
  book.

  As for the cancel functions there is one lemma per loop.  It says what a run
  that ends has done, and that with the invariant of the book and a buyer who
  has the tokens the run is only stopped by a fee distribution that finds no
  receiver.
-/
import Tecracoin.Elysium.Cancel

namespace Tecracoin.Elysium

open Data Op Ledger List

variable {s s' s'' s1 : Ledger} {o o' pnew pnew' pold : CMPMetaDEx} {block n p : Int} {env : Env}
  {price : ℚ} {E : Abort → Prop} {rest : MdSet} {m : Matching}
  {r : Option (CMPMetaDEx × CMPMetaDEx)} {prop : PropertyId}

/-- The assertion in `DistributeCache`, which fails if nobody holds the token whose holders get the
    fees. -/
def FeeStops (e : Abort) : Prop := e = .asserts "sent_so_far == cachedAmount"

/-! ## One fill -/

/-- The part of an order's data that no trade changes. -/
def CMPMetaDEx.SameOrder (o o' : CMPMetaDEx) : Prop :=
  o' = { o with amountRemaining := o'.amountRemaining }

lemma CMPMetaDEx.SameOrder.exists_eq (h : o.SameOrder o') :
    ∃ left, o' = { o with amountRemaining := left } :=
  ⟨_, h⟩

lemma CMPMetaDEx.SameOrder.trans {o'' : CMPMetaDEx} (h : o.SameOrder o') (h' : o'.SameOrder o'') :
    o.SameOrder o'' := by
  unfold SameOrder at *
  rw [h', h]

lemma OpenOrder.inRange (h : OpenOrder o) : o.AmountsInRange :=
  ⟨h.forsale, h.desired, h.remaining, le_trans h.atMost h.forsale.2⟩

/-- The buyer of an incoming order has the tokens. -/
structure Incoming (pnew : CMPMetaDEx) (s : Ledger) : Prop where
  amounts : pnew.AmountsInRange
  distinct : pnew.property ≠ pnew.desiredProperty
  buyerHas : pnew.amountRemaining ≤ s.money pnew.addr pnew.property .BALANCE
  thawed : s.isAddressFrozen pnew.addr pnew.property = false

/-- What is asked of the walk through the orders at one price. -/
structure Buying (price : ℚ) (pnew : CMPMetaDEx) (os : MdSet) (s : Ledger) : Prop where
  sound : Sound s
  incoming : Incoming pnew s
  crosses : price ≤ pnew.inversePrice
  opened : ∀ o ∈ os, OpenOrder o
  filed : ∀ o ∈ os, o.property = pnew.desiredProperty ∧ o.unitPrice = price
  covered : ∀ a p, openAmount a p os ≤ s.money a p .METADEX_RESERVE

namespace Buying

section
variable (h : Buying price pnew (pold :: rest) s)
include h

lemma rest_nonneg (a : Address) (p : PropertyId) : 0 ≤ openAmount a p rest :=
  openAmount_nonneg (fun o ho => (h.opened o (.tail _ ho)).remaining.le)

lemma sellerHas : pold.amountRemaining ≤ s.money pold.addr pold.property .METADEX_RESERVE := by
  have hcovered := h.covered pold.addr pold.property
  have hrest := h.rest_nonneg pold.addr pold.property
  rw [openAmount_cons, if_pos ⟨rfl, rfl⟩] at hcovered
  omega

lemma tradable : Tradable price pnew pold where
  filed := (h.filed pold (.head _)).2
  crosses hwants := by
    obtain ⟨hsells, hprice⟩ := h.filed pold (.head _)
    refine ⟨h.incoming.amounts, (h.opened pold (.head _)).inRange, h.incoming.distinct,
      hwants, hsells, ?_⟩
    rw [hprice]
    exact h.crosses

lemma settleable (hfees : FeesUpTo pnew.block s) (hm : Matched pnew pold n p) :
    Settleable pnew pold n p s where
  sound := h.sound
  fees := hfees
  payment := hm.fair.payment_pos (h.opened pold (.head _)).inRange.unitPrice_pos
  buyerHas := le_trans hm.fair.buyerHas h.incoming.buyerHas
  sellerHas := le_trans hm.fair.sellerHas h.sellerHas
  thawed := h.incoming.thawed

/-- An order that does not trade is passed over. -/
lemma skip : Buying price pnew rest s where
  sound := h.sound
  incoming := h.incoming
  crosses := h.crosses
  opened o ho := h.opened o (.tail _ ho)
  filed o ho := h.filed o (.tail _ ho)
  covered a p := by
    have hcovered := h.covered a p
    have hpold := (h.opened pold (.head _)).remaining
    rw [openAmount_cons] at hcovered
    split_ifs at hcovered <;> omega

end

end Buying

namespace Settled

section
variable (h : Settled env pnew pold n p s s1 s')
include h

lemma sound (hs : Sound s) (hfees : FeesUpTo pnew.block s) (hm : Matched pnew pold n p) :
    Sound s' where
  nonneg := by
    rw [h.final]
    exact (((((h.fee.moved hfees).nonneg hs.nonneg).updated h.buyerPays).updated
      h.sellerGets).updated h.sellerGives).updated h.buyerGets
  cached q := by
    have hn := hm.fair.atLeastOne
    have hfee := tradingFee_nonneg env pnew pold (n := n) (by omega)
    have hcached := (h.fee.moved hfees).cached hs.cached hfee q
    unfold getCachedAmount at hcached ⊢
    rw [h.getCacheHistory]
    exact hcached
  capped q := by
    rw [h.total hfees hm.wants hm.sells]
    exact hs.capped q

/-- The seller's reserve goes down by what is sold; no other reserve changes. -/
lemma reserve (hfees : FeesUpTo pnew.block s) (a : Address) (q : PropertyId) :
    s'.money a q .METADEX_RESERVE = s.money a q .METADEX_RESERVE -
      if pold.addr = a ∧ pold.property = q then n else 0 := by
  rw [h.money, (h.fee.moved hfees).other a q .METADEX_RESERVE (fun hsame => nomatch hsame.2)]
  unfold fillDelta
  simp only [reduceCtorEq, and_false, and_true, if_false]
  by_cases hsame : pold.addr = a ∧ pold.property = q
  · rw [if_pos hsame, if_pos ⟨hsame.1.symm, hsame.2.symm⟩]
    ring
  · rw [if_neg hsame, if_neg (fun h => hsame ⟨h.1.symm, h.2.symm⟩)]
    ring

/-- The buyer pays no more than the payment. -/
lemma buyerKeeps (hfees : FeesUpTo pnew.block s) (hm : Matched pnew pold n p) (hp : 0 ≤ p) :
    s.money pnew.addr pnew.property .BALANCE - p ≤ s'.money pnew.addr pnew.property .BALANCE := by
  have hne : pnew.property ≠ pold.property := by
    rw [hm.sells]
    exact hm.distinct
  rw [h.money, (h.fee.moved hfees).other pnew.addr pnew.property .BALANCE
    (fun hsame => hm.distinct hsame.1)]
  unfold fillDelta
  simp only [hm.distinct, hne, reduceCtorEq, and_true, and_false, if_true, if_false]
  split_ifs <;> omega

end

end Settled

/-- The orders that stand for a filled one in its level. -/
lemma thinned_replacement {rest' : MdSet} (hn : 0 ≤ n) (htail : Thinned rest rest') :
    Thinned (pold :: rest) (sellerReplacement (pold.reduced n) ++ rest') := by
  unfold sellerReplacement
  split_ifs with hleft
  · have hatMost : (pold.reduced n).amountRemaining ≤ pold.amountRemaining := by
      unfold CMPMetaDEx.reduced
      dsimp only
      omega
    exact .cons ⟨rfl, hleft, hatMost⟩ htail
  · exact .drop htail

lemma openAmount_replacement (h : n ≤ pold.amountRemaining) (a : Address) (q : PropertyId) :
    openAmount a q (sellerReplacement (pold.reduced n))
      = (if pold.addr = a ∧ pold.property = q then pold.amountRemaining else 0) -
        if pold.addr = a ∧ pold.property = q then n else 0 := by
  have hleft : (pold.reduced n).amountRemaining = pold.amountRemaining - n := rfl
  have haddr : (pold.reduced n).addr = pold.addr := rfl
  have hprop : (pold.reduced n).property = pold.property := rfl
  unfold sellerReplacement
  split_ifs with hpos hsame hsame
  · rw [openAmount_cons, openAmount_nil, haddr, hprop, if_pos hsame, hleft]
    ring
  · rw [openAmount_cons, openAmount_nil, haddr, hprop, if_neg hsame]
    ring
  · rw [openAmount_nil]
    omega
  · rw [openAmount_nil]
    ring

/-! ## The orders at one price -/

/-- What the walk through a level has achieved for an incoming order whose buyer has the tokens. -/
structure Bought (pnew pnew' : CMPMetaDEx) (os os' : MdSet) (s s' : Ledger) : Prop where
  sound : Sound s'
  thinned : Thinned os os'
  follow : ReservesFollow os os' s s'
  left : 0 ≤ pnew'.amountRemaining
  atMost : pnew'.amountRemaining ≤ pnew.amountRemaining
  buyerHas : pnew'.amountRemaining ≤ s'.money pnew.addr pnew.property .BALANCE

section

variable (h : Buying price pnew (pold :: rest) s) (hfees : FeesUpTo pnew.block s)
  (hfilled : Filled env pnew pold r n p s s1 s')
include h hfees hfilled

/-- A fill, as a walk through one order. -/
lemma Buying.bought : Bought pnew (pnew.reduced p) (pold :: rest)
      (sellerReplacement (pold.reduced n) ++ rest) s s' := by
  have hm := hfilled.matched
  have hset := h.settleable hfees hm
  have hn := hm.fair.atLeastOne
  have hpay := hset.payment
  have hhas := hm.fair.buyerHas
  have hleft : (pnew.reduced p).amountRemaining = pnew.amountRemaining - p := rfl
  refine ⟨hfilled.settled.sound h.sound hfees hm, ?_, fun a q => ?_, ?_, ?_, ?_⟩
  · refine thinned_replacement (by omega) (.refl (fun o ho => ?_))
    exact (h.opened o (.tail _ ho)).remaining
  · rw [hfilled.settled.reserve hfees, openAmount_append,
      openAmount_replacement hm.fair.sellerHas, openAmount_cons]
    ring
  · rw [hleft]
    omega
  · rw [hleft]
    omega
  · have hkeeps := hfilled.settled.buyerKeeps hfees hm (by omega)
    have hbalance := h.incoming.buyerHas
    rw [hleft]
    omega

/-- What is left to do after a fill that did not satisfy the buyer. -/
lemma Buying.next
    (hleft : (pnew.reduced p).amountRemaining ≠ 0) : Buying price (pnew.reduced p) rest s' := by
  have hbought := h.bought hfees hfilled
  have hpos := hbought.left
  have hatMost := le_trans hbought.atMost h.incoming.amounts.remaining.2
  have hfrozen := (hfilled.settled.onlyFunds hfees).isAddressFrozen pnew.addr pnew.property
  refine ⟨hbought.sound,
    ⟨⟨h.incoming.amounts.forsale, h.incoming.amounts.desired, by omega, hatMost⟩,
    h.incoming.distinct, hbought.buyerHas, ?_⟩, h.crosses,
    (forall_mem_cons.mp h.opened).2,
    (forall_mem_cons.mp h.filed).2, fun a q => ?_⟩
  · exact hfrozen.trans h.incoming.thawed
  · -- the reserves still cover the orders that are left
    have hfollow := hbought.follow a q
    have hcovered := h.covered a q
    have hreplaced : 0 ≤ openAmount a q (sellerReplacement (pold.reduced n)) := by
      refine openAmount_nonneg (fun o ho => ?_)
      unfold sellerReplacement at ho
      split_ifs at ho with hremaining
      · rw [mem_singleton] at ho
        exact ho ▸ hremaining.le
      · cases ho
    rw [openAmount_append] at hfollow
    omega

end

/-- What the walk through the orders at one price does. -/
structure Walked (pnew : CMPMetaDEx) (m m' : Matching) (s s' : Ledger) : Prop where
  feesUpTo : FeesUpTo pnew.block s'
  rest : OnlyFunds s s'
  same : pnew.SameOrder m'.pnew
  /-- Without a fill the state of the loops is what it was. -/
  unfilled : m' = m ∨ m'.bBuyerSatisfied = decide (m'.pnew.amountRemaining = 0)

lemma tradeOffers_ends {os : MdSet} (hfees : FeesUpTo m.pnew.block s)
    (hE : ∀ e, (Buying price m.pnew os s → FeeStops e) → E e) :
    Op.Ends E (tradeOffers env price m os) s (fun r s' =>
      Walked m.pnew m r.1 s s' ∧
      (Buying price m.pnew os s → Bought m.pnew r.1.pnew os r.2 s s')) := by
  induction os generalizing m s with
  | nil =>
    refine ends_pure ⟨⟨hfees, .refl s, rfl, .inl rfl⟩, fun h => ?_⟩
    have hremaining : 0 ≤ m.pnew.amountRemaining :=
      le_trans (by decide) h.incoming.amounts.remaining.1
    exact ⟨h.sound, .nil, fun _ _ => rfl, hremaining, le_rfl, h.incoming.buyerHas⟩
  | cons pold os ih =>
    refine ends_bind (tradeOffer_ends (fun e he => hE e (fun h => ?_))) ?_
    · exact (he h.tradable (fun n p hm => h.settleable hfees hm)).1
    rintro r s1 (⟨rfl, rfl⟩ | ⟨n, p, s0, hfilled⟩)
    · -- no fill: the order stays as it is
      refine ends_bind (ih hfees (fun e he => hE e (fun h => he h.skip))) ?_
      rintro ⟨m', os'⟩ s' ⟨hwalked, hbought⟩
      dsimp only at hwalked hbought
      refine ends_pure ⟨hwalked, fun h => ?_⟩
      obtain ⟨hsound, hthinned, hfollow, hleft, hatMost, hhas⟩ := hbought h.skip
      refine ⟨hsound, .cons (.refl (h.opened pold (.head _)).remaining) hthinned,
        fun a q => ?_, hleft, hatMost, hhas⟩
      have hstep := hfollow a q
      rw [openAmount_cons, openAmount_cons]
      omega
    · have hfees' := hfilled.settled.feesUpTo hfees
      have hfunds := hfilled.settled.onlyFunds hfees
      rw [hfilled.orders]
      refine ends_ite (fun hsatisfied => ?_) (fun hleft => ?_)
      · exact ends_pure ⟨⟨hfees', hfunds, rfl, .inr rfl⟩, fun h => h.bought hfees hfilled⟩
      · refine ends_bind (ih (m := .filled (m.pnew.reduced p) (pold.reduced n))
          hfees' (fun e he => hE e (fun h => he (h.next hfees hfilled hleft)))) ?_
        rintro ⟨m', os'⟩ s' ⟨hwalked, hbought⟩
        dsimp only at hwalked hbought
        have hreduced : m.pnew.SameOrder (m.pnew.reduced p) := rfl
        refine ends_pure
          ⟨⟨hwalked.feesUpTo, hfunds.trans hwalked.rest, hreduced.trans hwalked.same, ?_⟩,
          fun h => ?_⟩
        · rcases hwalked.unfilled with hm | hm
          · rw [show m' = _ from hm]
            exact .inr rfl
          · exact .inr hm
        · have hfill := h.bought hfees hfilled
          obtain ⟨hsound, hthinned, hfollow, hleft', hatMost, hhas⟩ :=
            hbought (h.next hfees hfilled hleft)
          have hn := hfilled.matched.fair.atLeastOne
          refine ⟨hsound, thinned_replacement (by omega) hthinned, fun a q => ?_, hleft',
            le_trans hatMost hfill.atMost, hhas⟩
          have hstep := hfollow a q
          have hstep' := hfill.follow a q
          rw [openAmount_append] at hstep' ⊢
          omega

/-! ## The levels -/

/-- Only tallies, the fee cache and the book may have changed. -/
def ExchangeOnly (s s' : Ledger) : Prop :=
  s' = { s with
    mpTallyMap := s'.mpTallyMap
    feeCache := s'.feeCache
    distributionThresholds := s'.distributionThresholds
    metadex := s'.metadex }

namespace ExchangeOnly

lemma trans (h : ExchangeOnly s s') (h' : ExchangeOnly s' s'') : ExchangeOnly s s'' := by
  unfold ExchangeOnly at *
  rw [h'.trans (by rw [h])]

lemma of_onlyFunds (h : OnlyFunds s s') : ExchangeOnly s s' := by
  unfold ExchangeOnly
  rw [h]

lemma withLevel (s : Ledger) (prop : PropertyId) (price : ℚ) (indexes : MdSet) :
    ExchangeOnly s (s.withLevel prop price indexes) := rfl

lemma isAddressFrozen (h : ExchangeOnly s s') (a : Address) (p : PropertyId) :
    s'.isAddressFrozen a p = s.isAddressFrozen a p := by
  rw [show s' = _ from h]
  rfl

end ExchangeOnly

/-- What matching against some levels has done. -/
structure LevelsMatched (pnew pnew' : CMPMetaDEx) (s s' : Ledger) : Prop where
  feesUpTo : FeesUpTo pnew.block s'
  rest : ExchangeOnly s s'
  same : pnew.SameOrder pnew'

/-- What it has done for a buyer who has the tokens. -/
structure Traded (pnew pnew' : CMPMetaDEx) (s s' : Ledger) : Prop where
  market : Market s'
  left : 0 ≤ pnew'.amountRemaining
  atMost : pnew'.amountRemaining ≤ pnew.amountRemaining
  buyerHas : pnew'.amountRemaining ≤ s'.money pnew.addr pnew.property .BALANCE
  positions : ∀ o' ∈ orders s'.metadex, ∃ o ∈ orders s.metadex, o'.position = o.position

/-- A sound book and an incoming order. -/
structure Ready (pnew : CMPMetaDEx) (s : Ledger) : Prop where
  market : Market s
  incoming : Incoming pnew s

/-- The book lets an incoming order buy from a level whose price it accepts. -/
lemma Ready.buying (h : Ready pnew s) (hprice : price ≤ pnew.inversePrice) :
    Buying price pnew (levelOf s.metadex pnew.desiredProperty price) s where
  sound := h.market.sound
  incoming := h.incoming
  crosses := hprice
  opened o ho := h.market.book.opened o (mem_orders_of_mem_levelOf ho)
  filed o ho := h.market.book.filed _ _ o ho
  covered a p := by
    have hcovered := (h.market.releasable (fun _ => true) pnew.desiredProperty price).covered a p
    rwa [filter_true] at hcovered

/-- A level walked through and stored. -/
lemma Bought.traded {os' : MdSet} (h : Bought pnew pnew' (levelOf s.metadex prop price) os' s s1)
    (hs : Market s) (hfunds : OnlyFunds s s1) :
    Traded pnew pnew' s (s1.withLevel prop price os') where
  market := by
    refine ⟨hs.book.withLevel hfunds.metadex h.thinned h.follow, ?_⟩
    exact ⟨h.sound.nonneg, h.sound.cached, h.sound.capped⟩
  left := h.left
  atMost := h.atMost
  buyerHas := h.buyerHas
  positions := by
    intro o' ho'
    have hperm : (orders (s1.withLevel prop price os').metadex).Perm
        (os' ++ elsewhere s.metadex prop price) := by
      rw [← hfunds.metadex]
      exact orders_storeLevel _ _ _ _
    rcases mem_append.mp (hperm.mem_iff.mp ho') with hlevel | helse
    · obtain ⟨o, ho, hshrunk⟩ := h.thinned.shrunk o' hlevel
      exact ⟨o, mem_orders_of_mem_levelOf ho, hshrunk.position⟩
    · exact ⟨o', (orders_perm s.metadex prop price).mem_iff.mpr (mem_append_right _ helse), rfl⟩

lemma Traded.trans {pnew'' : CMPMetaDEx}
    (h : Traded pnew pnew' s s') (h' : Traded pnew' pnew'' s' s'') (hsame : pnew.SameOrder pnew') :
    Traded pnew pnew'' s s'' where
  market := h'.market
  left := h'.left
  atMost := le_trans h'.atMost h.atMost
  buyerHas := by
    obtain ⟨left, rfl⟩ := hsame.exists_eq
    exact h'.buyerHas
  positions := by
    intro o'' ho''
    obtain ⟨o', ho', hposition'⟩ := h'.positions o'' ho''
    obtain ⟨o, ho, hposition⟩ := h.positions o' ho'
    exact ⟨o, ho, hposition'.trans hposition⟩

/-- The order that goes on after a level. -/
lemma Traded.incoming (h : Traded pnew pnew' s s')
    (hnew : Incoming pnew s) (hsame : pnew.SameOrder pnew') (hrest : ExchangeOnly s s')
    (hleft : pnew'.amountRemaining ≠ 0) : Incoming pnew' s' := by
  have hatMost := le_trans h.atMost hnew.amounts.remaining.2
  have hone : 1 ≤ pnew'.amountRemaining := lt_of_le_of_ne h.left hleft.symm
  obtain ⟨left, rfl⟩ := hsame.exists_eq
  exact ⟨⟨hnew.amounts.forsale, hnew.amounts.desired, hone, hatMost⟩, hnew.distinct, h.buyerHas,
    (hrest.isAddressFrozen _ _).trans hnew.thawed⟩

/-- The loop over the prices. An order that is ready is stopped by its fee only. -/
lemma tradeLevels_ends {levels : List (ℚ × MdSet)} (hfees : FeesUpTo m.pnew.block s)
    (hopen : m.bBuyerSatisfied = false) (hnodup : (levels.map Prod.fst).Nodup)
    (hlevels : ∀ level ∈ levels,
      (pricesOf s.metadex m.pnew.desiredProperty).get? level.1 = some level.2)
    (hE : ∀ e, (Ready m.pnew s → FeeStops e) → E e) :
    Op.Ends E (tradeLevels env m.pnew.desiredProperty m levels) s (fun m' s' =>
      LevelsMatched m.pnew m'.pnew s s' ∧ (Ready m.pnew s → Traded m.pnew m'.pnew s s')) := by
  induction levels generalizing m s with
  | nil =>
    refine ends_pure ⟨⟨hfees, rfl, rfl⟩, fun h => ?_⟩
    have hremaining : 0 ≤ m.pnew.amountRemaining :=
      le_trans (by decide) h.incoming.amounts.remaining.1
    exact ⟨h.market, hremaining, le_rfl, h.incoming.buyerHas, fun o ho => ⟨o, ho, rfl⟩⟩
  | cons level levels ih =>
    obtain ⟨price, offers⟩ := level
    rw [map_cons, nodup_cons] at hnodup
    have hget := hlevels (price, offers) (.head _)
    have hlevel : levelOf s.metadex m.pnew.desiredProperty price = offers := by
      rw [levelOf, hget, Option.getD_some]
    refine ends_ite (fun _ => ?_) (fun hprice => ?_)
    · exact ih hfees hopen hnodup.2 (forall_mem_cons.mp hlevels).2 hE
    rw [not_lt] at hprice
    have hbuying (h : Ready m.pnew s) : Buying price m.pnew offers s := by
      rw [← hlevel]
      exact h.buying hprice
    refine ends_bind (tradeOffers_ends hfees (fun e he => hE e (fun h => he (hbuying h)))) ?_
    rintro ⟨m', offers'⟩ s1 ⟨hwalked, hbought⟩
    dsimp only at hwalked hbought
    refine ends_modify_bind ?_
    have hfunds := hwalked.rest
    have hdesired : m'.pnew.desiredProperty = m.pnew.desiredProperty := by
      rw [show m'.pnew = _ from hwalked.same]
    have hblock : m'.pnew.block = m.pnew.block := by rw [show m'.pnew = _ from hwalked.same]
    have hstored : LevelsMatched m.pnew m'.pnew s
        (s1.withLevel m.pnew.desiredProperty price offers') :=
      ⟨hwalked.feesUpTo, (ExchangeOnly.of_onlyFunds hfunds).trans (.withLevel _ _ _ _),
        hwalked.same⟩
    have htraded (h : Ready m.pnew s) :
        Traded m.pnew m'.pnew s (s1.withLevel m.pnew.desiredProperty price offers') := by
      have hb := hbought (hbuying h)
      rw [← hlevel] at hb
      exact hb.traded h.market hfunds
    refine ends_ite (fun _ => ends_pure ⟨hstored, htraded⟩) (fun hmore => ?_)
    rw [Bool.not_eq_true] at hmore
    have hready (h : Ready m.pnew s) :
        Ready m'.pnew (s1.withLevel m.pnew.desiredProperty price offers') := by
      refine ⟨(htraded h).market, (htraded h).incoming h.incoming hwalked.same hstored.rest ?_⟩
      -- the buyer is not satisfied: nothing was filled, or something is left
      rcases hwalked.unfilled with hm | hm
      · have hremaining := h.incoming.amounts.remaining.1
        rw [hm]
        omega
      · rw [hmore] at hm
        exact of_decide_eq_false hm.symm
    have hrest : ∀ level ∈ levels, (pricesOf (s1.withLevel m.pnew.desiredProperty price
        offers').metadex m'.pnew.desiredProperty).get? level.1 = some level.2 := by
      intro level hmem
      have hne : level.1 ≠ price := fun heq =>
        hnodup.1 (heq ▸ mem_map.mpr ⟨level, hmem, rfl⟩)
      rw [hdesired, withLevel, pricesOf_storeLevel_self, StdMap.get?_set_of_ne hne, hfunds.metadex]
      exact hlevels level (.tail _ hmem)
    have hfees' : FeesUpTo m'.pnew.block (s1.withLevel m.pnew.desiredProperty price offers') := by
      rw [hblock]
      exact hstored.feesUpTo
    have hnext := ih hfees' hmore hnodup.2 hrest (fun e he => hE e (fun h => he (hready h)))
    rw [hdesired] at hnext
    refine hnext.post (fun m'' s' hdone => ?_)
    obtain ⟨hmatched, hdone'⟩ := hdone
    refine ⟨⟨?_, hstored.rest.trans hmatched.rest, hwalked.same.trans hmatched.same⟩, fun h => ?_⟩
    · rw [← hblock]
      exact hmatched.feesUpTo
    · exact (htraded h).trans (hdone' (hready h)) hwalked.same

lemma xTrade_ends (hfees : FeesUpTo pnew.block s)
    (hE : ∀ e, (Ready pnew s → FeeStops e) → E e) : Op.Ends E (xTrade env pnew) s (fun m s' =>
      LevelsMatched pnew m.pnew s s' ∧ (Ready pnew s → Traded pnew m.pnew s s')) := by
  refine ends_get_bind ?_
  exact tradeLevels_ends (m := ⟨pnew, .NOTHING, false⟩) hfees rfl
    (pricesOf s.metadex pnew.desiredProperty).nodupKeys
    (fun level hmem => StdMap.get?_eq_some_iff.mpr hmem) hE

/-! ## Adding an order -/

/-- The order `MetaDEx_ADD` makes. -/
def newOrder (senderAddr : Address) (prop : PropertyId) (amount block : Int)
    (propertyDesired : PropertyId) (amountDesired : Int) (txid : Uint256) (idx : Nat) :
    CMPMetaDEx :=
  ⟨block, txid, idx, prop, amount, propertyDesired, amountDesired, amount, 1, senderAddr⟩

/-- An order whose buyer has the tokens, at a position of its own. -/
structure Placeable (o : CMPMetaDEx) (s : Ledger) : Prop where
  incoming : Incoming o s
  whole : o.amountRemaining = o.amountForsale
  fresh : o.position ∉ (orders s.metadex).map CMPMetaDEx.position

/-- What `MetaDEx_ADD` has done. -/
structure Added (o : CMPMetaDEx) (s s' : Ledger) : Prop where
  feesUpTo : FeesUpTo o.block s'
  placed : Market s → Placeable o s → Market s' ∧
    ∀ o' ∈ orders s'.metadex, o'.position = o.position ∨
      ∃ x ∈ orders s.metadex, o'.position = x.position

lemma insertOrder_of_fresh {indexes : MdSet}
    (h : ∀ o' ∈ indexes, o'.position ≠ o.position) :
    ∃ indexes', insertOrder o indexes = some indexes' := by
  unfold insertOrder
  have hany : indexes.any (fun o' => o'.position = o.position) = false := by
    rw [any_eq_false]
    intro o' ho'
    simpa using h o' ho'
  rw [hany]
  exact ⟨_, rfl⟩

lemma metaDExInsert_of_fresh {book : MdPropertiesMap}
    (h : ∀ o' ∈ levelOf book o.property o.unitPrice, o'.position ≠ o.position) :
    ∃ book', metaDExInsert o book = some book' := by
  obtain ⟨indexes, hindexes⟩ := insertOrder_of_fresh h
  exact ⟨_, by rw [metaDExInsert, hindexes, Option.map_some]⟩

namespace CMPMetaDEx.SameOrder

section
variable (h : o.SameOrder o')
include h

lemma property : o'.property = o.property := by rw [show o' = _ from h]

lemma addr : o'.addr = o.addr := by rw [show o' = _ from h]

lemma position : o'.position = o.position := by
  rw [show o' = _ from h]
  rfl

end

end CMPMetaDEx.SameOrder

/-- The rest of an order that is put into the book. -/
lemma Placeable.openOrder (h : Placeable o s) (htraded : Traded o o' s s1)
    (hsame : o.SameOrder o') (hleft : 0 < o'.amountRemaining) : OpenOrder o' := by
  have hatMost := htraded.atMost.trans h.whole.le
  obtain ⟨left, rfl⟩ := hsame.exists_eq
  exact ⟨h.incoming.amounts.forsale, h.incoming.amounts.desired, hleft, hatMost,
    h.incoming.distinct⟩

lemma Traded.fresh (htraded : Traded o o' s s1) (h : Placeable o s) (hsame : o.SameOrder o') :
    o'.position ∉ (orders s1.metadex).map CMPMetaDEx.position := by
  intro hmem
  obtain ⟨x', hx', hposition'⟩ := mem_map.mp hmem
  obtain ⟨x, hx, hposition⟩ := htraded.positions x' hx'
  refine h.fresh (mem_map.mpr ⟨x, hx, ?_⟩)
  rw [← hposition, hposition', hsame.position]

/-- A new order is added. If it can be placed, it is stopped by its fee only. -/
lemma metaDExAdd_ends {senderAddr : Address} {amount : Int} {propertyDesired : PropertyId}
    {amountDesired : Int} {txid : Uint256} {idx : Nat}
    (ho : o = newOrder senderAddr prop amount block propertyDesired amountDesired txid idx)
    (hfees : FeesUpTo block s) (hE : ∀ e, (Market s → Placeable o s → FeeStops e) → E e) :
    Op.Ends E (metaDExAdd env senderAddr prop amount block propertyDesired amountDesired txid idx) s
      (fun _ s' => Added o s s') := by
  have hblock : o.block = block := by rw [ho]; rfl
  have haddr : o.addr = senderAddr := by rw [ho]; rfl
  have hprop : o.property = prop := by rw [ho]; rfl
  rw [← hblock] at hfees
  refine ends_ite (fun hbad => ?_) (fun _ => ?_)
  · refine ends_pure ⟨hfees, fun _ hplace => ?_⟩
    have hpos := hplace.incoming.amounts.unitPrice_pos
    rw [ho] at hpos
    exact absurd hpos (not_lt.mpr hbad)
  refine ends_bind (Q := fun m s1 => LevelsMatched o m.pnew s s1 ∧
    (Ready o s → Traded o m.pnew s s1)) ?_ ?_
  · have htrade : Op.Ends E (xTrade env o) s (fun m s1 => LevelsMatched o m.pnew s s1 ∧
        (Ready o s → Traded o m.pnew s s1)) :=
      xTrade_ends hfees (fun e he => hE e (fun h hplace => he ⟨h, hplace.incoming⟩))
    rw [ho] at htrade ⊢
    exact htrade
  rintro m s1 ⟨hmatched, htraded⟩
  have hsame := hmatched.same
  refine ends_ite (fun hleft => ?_) (fun hnone => ?_)
  · refine ends_get_bind ?_
    cases hinsert : metaDExInsert m.pnew s1.metadex with
    | none =>
      refine ends_pure ⟨hmatched.feesUpTo, fun h hplace => ?_⟩
      -- this needs an order at the same position where the new one would be put
      have hfresh : ∀ o' ∈ levelOf s1.metadex m.pnew.property m.pnew.unitPrice,
          o'.position ≠ m.pnew.position := fun o' ho' heq =>
        (htraded ⟨h, hplace.incoming⟩).fresh hplace hsame
          (heq ▸ mem_map_of_mem (mem_orders_of_mem_levelOf ho'))
      obtain ⟨book, hbook⟩ := metaDExInsert_of_fresh hfresh
      rw [hinsert] at hbook
      cases hbook
    | some book =>
      refine ends_set_bind ?_
      have hmoney (a : Address) (p : PropertyId) (t : TallyType) :
          ({ s1 with metadex := book } : Ledger).money a p t = s1.money a p t := rfl
      have hsound (h : Market s) (hplace : Placeable o s) : Sound { s1 with metadex := book } := by
        have hs1 := (htraded ⟨h, hplace.incoming⟩).market.sound
        exact ⟨hs1.nonneg, hs1.cached, hs1.capped⟩
      refine transfer_bind_ends (by decide) (by decide) (fun hcannot e => hE e (fun h hplace =>
        absurd ?_ hcannot)) (fun s2 hmoved => ?_)
      · have hthawed := hplace.incoming.thawed
        have hhas := (htraded ⟨h, hplace.incoming⟩).buyerHas
        rw [haddr, hprop] at hthawed hhas
        exact ⟨hsound h hplace, hleft, hhas,
          fun _ => (hmatched.rest.isAddressFrozen senderAddr prop).trans hthawed⟩
      have hbook : s2.metadex = book := by rw [hmoved.rest]
      refine ends_pure ⟨?_, fun h hplace => ?_⟩
      · rw [hmoved.rest]
        exact hmatched.feesUpTo
      have htr := htraded ⟨h, hplace.incoming⟩
      have hopen := hplace.openOrder htr hsame hleft
      have hfresh := htr.fresh hplace hsame
      have hperm : (orders book).Perm (m.pnew :: orders s1.metadex) := by
        obtain ⟨indexes, hindexes, rfl⟩ := Option.map_eq_some_iff.mp hinsert
        exact orders_insert hindexes
      refine ⟨⟨htr.market.book.insert hopen hfresh hinsert hbook (fun a p => ?_),
        hmoved.sound (hsound h hplace)⟩, fun o' ho' => ?_⟩
      · rw [hmoved.money, hmoney, hsame.addr, hsame.property, haddr, hprop]
        simp only [reduceCtorEq, and_false, and_true, if_false, sub_zero, eq_comm]
      · rw [hbook] at ho'
        rcases mem_cons.mp (hperm.mem_iff.mp ho') with rfl | hold
        · exact .inl hsame.position
        · exact .inr (htr.positions o' hold)
  · refine ends_pure ⟨hmatched.feesUpTo, fun h hplace => ?_⟩
    have htr := htraded ⟨h, hplace.incoming⟩
    exact ⟨htr.market, fun o' ho' => .inr (htr.positions o' ho')⟩

end Tecracoin.Elysium
