/-
  The reserves of the token exchange over whole runs.

  A run takes transactions of the exchange through `interpretPacket`, in the
  order of their positions in the chain, and anything else that leaves the book
  and its reserves alone.  That a position is used once is what keeps the
  positions in the book apart.
-/
import Tecracoin.Elysium.Trade
import Tecracoin.Elysium.Tx
import Tecracoin.Data.Run

namespace Tecracoin.Elysium

open Data Op Ledger List

variable {p q : Int × Nat} {tx : CMPTransaction} {s s' : Ledger} {x : Exchange}

/-- Earlier in the chain: by block, then by index in the block. -/
def Precedes (p q : Int × Nat) : Prop := p.1 < q.1 ∨ (p.1 = q.1 ∧ p.2 < q.2)

instance (p q : Int × Nat) : Decidable (Precedes p q) :=
  inferInstanceAs (Decidable (p.1 < q.1 ∨ (p.1 = q.1 ∧ p.2 < q.2)))

lemma Precedes.block_le (h : Precedes p q) : p.1 ≤ q.1 := by
  rcases h with h | h <;> omega

lemma Precedes.trans {r : Int × Nat} (h : Precedes p q) (h' : Precedes q r) : Precedes p r := by
  unfold Precedes at *
  omega

lemma Precedes.ne (h : Precedes p q) : p ≠ q := by
  rintro rfl
  unfold Precedes at h
  omega

/-- The position of a transaction in the chain. -/
def CMPTransaction.position (tx : CMPTransaction) : Int × Nat := (tx.block, tx.txIdx)

/-- The types of transactions that reach the token exchange. -/
def TransactionType.exchange : TransactionType → Bool
  | .METADEX_TRADE => true
  | .METADEX_CANCEL_PRICE => true
  | .METADEX_CANCEL_PAIR => true
  | .METADEX_CANCEL_ECOSYSTEM => true
  | .DEACTIVATION => true
  | _ => false

/-! ## Runs -/

/-- The ledger, and the position of the last transaction of the exchange. -/
structure Exchange where
  ledger : Ledger
  now : Int × Nat

inductive ExchangeStep
  | packet (env : Env) (tx : CMPTransaction)
  /-- Anything that leaves the book and its reserves alone. -/
  | other (next : Exchange)

namespace Exchange

def step : ExchangeStep → Exchange → Option Exchange
  | .packet env tx, x =>
    match interpretPacket env tx x.ledger with
    | .ok (_, s) => some ⟨s, tx.position⟩
    | .error _ => none
  | .other next, _ => some next

/-- Transactions come one after another; what else happens leaves the exchange alone and keeps the
    ledger sound. -/
def allowed : ExchangeStep → Exchange → Prop
  | .packet _ tx, x => tx.type.exchange = true ∧ Precedes x.now tx.position
  | .other next, x =>
    next.ledger.metadex = x.ledger.metadex ∧
    (∀ a p, next.ledger.money a p .METADEX_RESERVE = x.ledger.money a p .METADEX_RESERVE) ∧
    Sound next.ledger ∧ FeesUpTo next.now.1 next.ledger ∧
      (x.now = next.now ∨ Precedes x.now next.now)

/-- Nothing is on the exchange. -/
structure Opening (x : Exchange) : Prop where
  book : orders x.ledger.metadex = []
  reserve : ∀ a p, x.ledger.money a p .METADEX_RESERVE = 0
  sound : Sound x.ledger
  fees : FeesUpTo x.now.1 x.ledger

/-- What holds in every state of a run. -/
structure Inv (x : Exchange) : Prop where
  market : Market x.ledger
  past : ∀ o ∈ orders x.ledger.metadex, o.position = x.now ∨ Precedes o.position x.now
  fees : FeesUpTo x.now.1 x.ledger

lemma Opening.inv (h : Opening x) : Inv x := by
  have hnone (o : CMPMetaDEx) : o ∉ orders x.ledger.metadex := by
    rw [h.book]
    exact not_mem_nil
  refine ⟨⟨⟨fun a p => ?_, fun prop price o ho => ?_, fun o ho => ?_, ?_⟩, h.sound⟩,
    fun o ho => ?_, h.fees⟩
  · rw [h.reserve, h.book, openAmount_nil]
  · exact absurd (mem_orders_of_mem_levelOf ho) (hnone o)
  · exact absurd ho (hnone o)
  · rw [h.book]
    exact nodup_nil
  · exact absurd ho (hnone o)

end Exchange

/-! ## One transaction -/

/-- What a transaction of the exchange does to a market. -/
structure ExchangeDone (tx : CMPTransaction) (s s' : Ledger) : Prop where
  market : Market s'
  fees : FeesUpTo tx.block s'
  positions : ∀ o' ∈ orders s'.metadex, o'.position = tx.position ∨
    ∃ o ∈ orders s.metadex, o'.position = o.position

/-- How a transaction of the exchange can be stopped. -/
def ExchangeStops (e : Abort) : Prop := FeeStops e ∨ NeverEnds e

/-- What is asked of a transaction of the exchange. -/
structure Executable (tx : CMPTransaction) (s : Ledger) : Prop where
  market : Market s
  fresh : ∀ o ∈ orders s.metadex, o.position ≠ tx.position
  thawed : s.isAddressFrozen tx.sender tx.property = false

lemma CancelDone.exchangeDone (h : CancelDone s s') (hfees : FeesUpTo tx.block s)
    (hs : Market s) : ExchangeDone tx s s' := by
  obtain ⟨os, hremoved⟩ := h.removed
  refine ⟨h.market hs, ?_, fun o' ho' => .inr ⟨o', ?_, rfl⟩⟩
  · rw [hremoved.rest]
    exact hfees
  · exact hremoved.orders.mem_iff.mpr (mem_append_right _ ho')

lemma ExchangeDone.refl (hfees : FeesUpTo tx.block s) (hs : Market s) : ExchangeDone tx s s :=
  ⟨hs, hfees, fun o' ho' => .inr ⟨o', ho', rfl⟩⟩

lemma ExchangeDone.trans {s'' : Ledger} (h : ExchangeDone tx s s')
    (h' : ExchangeDone tx s' s'') : ExchangeDone tx s s'' where
  market := h'.market
  fees := h'.fees
  positions o'' ho'' := by
    rcases h'.positions o'' ho'' with hnew | ⟨o', ho', hposition'⟩
    · exact .inl hnew
    · rw [hposition']
      exact h.positions o' ho'

section Functions

variable {E : Abort → Prop} {env : Env}

lemma inRange_of_checked {value : Nat} (h : CMPTransaction.outOfRange value = false) :
    InRange value := by
  simp only [CMPTransaction.outOfRange, Bool.or_eq_false_iff, decide_eq_false_iff_not, not_lt] at h
  exact ⟨by omega, h.2⟩

lemma logicMathMetaDExTrade_ends (hfees : FeesUpTo tx.block s)
    (hE : ∀ e, (Executable tx s → ExchangeStops e) → E e) :
    Op.Ends E (logicMathMetaDExTrade env tx) s
      (fun _ s' => Executable tx s → ExchangeDone tx s s') := by
  refine ends_get_bind (checked_ends (fun _ _ _ hexec => .refl hfees hexec.market)
    (fun hpass => ?_))
  simp only [pairChecks, amountChecks, cons_append, nil_append, forall_mem_cons] at hpass
  obtain ⟨-, hdistinct, -, -, -, hvalue, hdesired, -, hbalance, -⟩ := hpass
  have hvalue' := inRange_of_checked hvalue
  have hbalance' : (tx.nNewValue : Int) ≤ s.money tx.sender tx.property .BALANCE := by
    have hle := not_lt.mp (of_decide_eq_false hbalance)
    rwa [toInt64_of_le hvalue'.2, getMPbalance_balance] at hle
  -- the order of a trade that passes the checks can be placed
  have hplace (hexec : Executable tx s) : Placeable (newOrder tx.sender tx.property tx.nNewValue
      tx.block tx.desiredProperty tx.desiredValue tx.txid tx.txIdx) s := by
    refine ⟨⟨⟨hvalue', inRange_of_checked hdesired, hvalue'⟩, of_decide_eq_false hdistinct,
      hbalance', hexec.thawed⟩, rfl, fun hmem => ?_⟩
    obtain ⟨o, ho, hposition⟩ := mem_map.mp hmem
    exact hexec.fresh o ho hposition
  refine (metaDExAdd_ends rfl hfees (fun e he => hE e (fun hexec => ?_))).post
    (fun rc s' hadded hexec => ?_)
  · exact .inl (he hexec.market (hplace hexec))
  · obtain ⟨hmarket, hpositions⟩ := hadded.placed hexec.market (hplace hexec)
    exact ⟨hmarket, hadded.feesUpTo, hpositions⟩

lemma closeExchanges_ends {feature : Option Feature} (hfees : FeesUpTo tx.block s)
    (hE : ∀ e, (Market s → ExchangeStops e) → E e) :
    Op.Ends E (closeExchanges feature) s (fun _ s' => Market s → ExchangeDone tx s s') := by
  have hE' : ¬ Market s → ∀ e, E e := fun hnot e => hE e (fun h => absurd h hnot)
  refine ends_bind (Q := fun _ s' => Market s → ExchangeDone tx s s')
    (ends_when (fun _ => ?_) (fun _ hs => .refl hfees hs)) ?_
  · refine ends_bind (metaDExShutdown_ends hE') (fun rc s' hdone => ?_)
    exact ends_pure (hdone.1.exchangeDone hfees)
  · intro _ s1 hfirst
    refine ends_when (fun _ => ?_) (fun _ => hfirst)
    refine ends_bind (metaDExShutdownAllpair_ends (fun e he => hE e (fun _ => .inr he))
      (fun hnot e => hE e (fun h => absurd (hfirst h).market hnot))) (fun rc s' hdone => ?_)
    exact ends_pure (fun hs =>
      (hfirst hs).trans (hdone.2.exchangeDone (hfirst hs).fees (hfirst hs).market))

/-- A transaction of the exchange keeps the market, and is only stopped by a fee distribution or by
    a loop that never ends. -/
lemma executePacket_exchange_ends (htype : tx.type.exchange = true) (hfees : FeesUpTo tx.block s)
    (hE : ∀ e, (Executable tx s → ExchangeStops e) → E e) :
    Op.Ends E (executePacket env tx) s (fun _ s' => Executable tx s → ExchangeDone tx s s') := by
  have hE' : ¬ Market s → ∀ e, E e := fun hnot e => hE e (fun h => absurd h.market hnot)
  have hreject : Executable tx s → ExchangeDone tx s s := fun hexec => .refl hfees hexec.market
  unfold executePacket
  cases hcase : tx.type with
  | METADEX_TRADE => exact logicMathMetaDExTrade_ends hfees hE
  | METADEX_CANCEL_PRICE =>
    refine ends_get_bind (checked_ends (fun _ _ _ => hreject) (fun _ => ?_))
    exact (metaDExCancelAtPrice_ends hE').post
      (fun rc s' hdone hexec => hdone.exchangeDone hfees hexec.market)
  | METADEX_CANCEL_PAIR =>
    refine ends_get_bind (checked_ends (fun _ _ _ => hreject) (fun _ => ?_))
    exact (metaDExCancelAllForPair_ends hE').post
      (fun rc s' hdone hexec => hdone.exchangeDone hfees hexec.market)
  | METADEX_CANCEL_ECOSYSTEM =>
    refine checked_ends (fun _ _ _ => hreject) (fun _ => ?_)
    exact (metaDExCancelEverything_ends hE').post
      (fun rc s' hdone hexec => hdone.exchangeDone hfees hexec.market)
  | DEACTIVATION =>
    refine checked_ends (fun _ _ _ => hreject) (fun _ => ?_)
    refine ends_bind (closeExchanges_ends hfees
      (fun e he => hE e (fun hexec => he hexec.market))) (fun _ s' hdone => ?_)
    exact ends_pure (fun hexec => hdone hexec.market)
  | _ =>
    rw [hcase] at htype
    cases htype

lemma interpretPacket_exchange_ends (htype : tx.type.exchange = true)
    (hfees : FeesUpTo tx.block s) (hfresh : ∀ o ∈ orders s.metadex, o.position ≠ tx.position)
    (hE : ∀ e, (Market s → ExchangeStops e) → E e) :
    Op.Ends E (interpretPacket env tx) s (fun _ s' => Market s → ExchangeDone tx s s') := by
  refine ends_get_bind (checked_ends (fun _ _ _ hs => .refl hfees hs) (fun hpass => ?_))
  simp only [forall_mem_cons] at hpass
  have hexec (hs : Market s) : Executable tx s := ⟨hs, hfresh, hpass.2.2.1⟩
  exact (executePacket_exchange_ends htype hfees
    (fun e he => hE e (fun hs => he (hexec hs)))).post (fun rc s' hdone hs => hdone (hexec hs))

end Functions

/-! ## Whole runs -/

namespace Exchange

/-- What comes later comes after all orders of the book. -/
lemma Inv.precedes (h : Inv x) (hnext : Precedes x.now now') (ho : o ∈ orders x.ledger.metadex) :
    Precedes o.position now' := by
  rcases h.past o ho with hnow | hbefore
  · rw [hnow]
    exact hnext
  · exact hbefore.trans hnext

lemma Inv.packet_ends (h : Inv x) (env : Env) (hallowed : allowed (.packet env tx) x) :
    Op.Ends ExchangeStops (interpretPacket env tx) x.ledger
      (fun _ s' => Inv ⟨s', tx.position⟩) := by
  obtain ⟨htype, hnext⟩ := hallowed
  have hfees : FeesUpTo tx.block x.ledger := h.fees.mono hnext.block_le
  refine (interpretPacket_exchange_ends htype hfees (fun _ ho => (h.precedes hnext ho).ne)
    (fun e he => he h.market)).post
    (fun rc s' hdone => ?_)
  obtain ⟨hmarket, hfees', hpositions⟩ := hdone h.market
  refine ⟨hmarket, fun o' ho' => ?_, hfees'⟩
  rcases hpositions o' ho' with hnew | ⟨o, ho, hposition⟩
  · exact .inl hnew
  · right
    rw [hposition]
    exact h.precedes hnext ho

lemma Inv.step {y : Exchange} (h : Inv x) {a : ExchangeStep} (hallowed : allowed a x)
    (hstep : step a x = some y) : Inv y := by
  cases a with
  | packet env tx =>
    have hends := h.packet_ends env hallowed
    simp only [Exchange.step] at hstep
    split at hstep
    · case h_1 hrun =>
        cases hstep
        exact hends.of_ok hrun
    · cases hstep
  | other next =>
    cases hstep
    obtain ⟨hbook, hreserve, hsound, hfees, hnow⟩ := hallowed
    refine ⟨⟨⟨fun a p => ?_, ?_, ?_, ?_⟩, hsound⟩, fun o ho => ?_, hfees⟩
    · rw [hreserve, hbook]
      exact h.market.book.reserve a p
    · rw [hbook]
      exact h.market.book.filed
    · rw [hbook]
      exact h.market.book.opened
    · rw [hbook]
      exact h.market.book.positions
    · rw [hbook] at ho
      rcases hnow with hsame | hlater
      · rw [← hsame]
        exact h.past o ho
      · exact .inr (h.precedes hlater ho)

/-- In every state of a run the reserves match the order book, every order is filed under its
    property and price with something left of it, positions are used once, and the next transaction
    of the exchange fails no assertion on a tally. -/
theorem reserves_match_book {x0 x : Exchange} (hstart : Opening x0)
    (hrun : Reaches Exchange.step allowed x0 x) :
    (∀ a p, x.ledger.money a p .METADEX_RESERVE = openAmount a p (orders x.ledger.metadex)) ∧
      (∀ o ∈ orders x.ledger.metadex, 0 < o.amountRemaining ∧ o.amountRemaining ≤ o.amountForsale) ∧
      (∀ prop price, ∀ o ∈ levelOf x.ledger.metadex prop price,
        o.property = prop ∧ o.unitPrice = price) ∧
      ((orders x.ledger.metadex).map CMPMetaDEx.position).Nodup ∧
      (∀ env tx e, allowed (.packet env tx) x → interpretPacket env tx x.ledger = .error e →
        FeeStops e ∨ NeverEnds e) := by
  have hinv : Inv x :=
    hrun.invariant hstart.inv (fun _ _ _ h hallowed hstep => h.step hallowed hstep)
  refine ⟨hinv.market.book.reserve, fun o ho => ?_, hinv.market.book.filed,
    hinv.market.book.positions, fun env tx e hallowed herror => ?_⟩
  · have hopen := hinv.market.book.opened o ho
    exact ⟨hopen.remaining, hopen.atMost⟩
  · exact (hinv.packet_ends env hallowed).of_error herror

/-! A run: one order, one that it meets in part, and a cancel of the rest. -/

/-- The ledger with two user properties and no tokens. -/
def sampleProperties : Ledger :=
  { cleared [] with
    mySps := (((CMPSPInfo.initial []).putSP 1 SpEntry.null).2.putSP 1 SpEntry.null).2 }

/-- One address has 10 tokens of the first user property, another 10 of ELYSIUM. -/
def sampleStart : Exchange where
  ledger := (sampleProperties.updated ['A'] 3 10 .BALANCE).updated ['B'] 1 10 .BALANCE
  now := (0, 0)

lemma sampleStart_opening : Opening sampleStart where
  book := rfl
  reserve a p := by
    unfold sampleStart
    rw [money_updated_eq, money_updated_eq]
    simp only [reduceCtorEq, and_false, if_false]
    rfl
  sound := by
    have hcleared := Sound.cleared []
    have hempty : Sound sampleProperties := ⟨hcleared.nonneg, hcleared.cached, hcleared.capped⟩
    have hfirst : Sound (sampleProperties.updated ['A'] 3 10 .BALANCE) :=
      hempty.credited (by decide) (by decide) (by decide)
    exact hfirst.credited (by decide) (by decide) (by decide +kernel)
  fees p item hitem := by cases hitem

/-- The order of an address at a position in the chain. -/
def sampleTrade (block : Int) (sender : Address) (property : PropertyId) (nNewValue : Nat)
    (desiredProperty : PropertyId) (desiredValue : Nat) : CMPTransaction :=
  { CMPTransaction.null with
    rpcOnly := false
    interpreted := true
    block := block
    sender := sender
    type := .METADEX_TRADE
    property := property
    nNewValue := nNewValue
    desiredProperty := desiredProperty
    desiredValue := desiredValue }

def sampleEnv : Env := .permitting [.METADEX_TRADE, .METADEX_CANCEL_PAIR]

/-- An order, one that it fills in part, and a cancel of what is left of the second. -/
def sampleSteps : List ExchangeStep :=
  [.packet sampleEnv (sampleTrade 1 ['A'] 3 10 1 20),
    .packet sampleEnv (sampleTrade 2 ['B'] 1 7 3 3),
    .packet sampleEnv { sampleTrade 3 ['B'] 1 0 3 0 with type := .METADEX_CANCEL_PAIR }]

/-- A test for transactions that are allowed. -/
def admits : ExchangeStep → Exchange → Bool
  | .packet _ tx, x => tx.type.exchange && decide (Precedes x.now tx.position)
  | .other _, _ => false

lemma allowed_of_admits (a : ExchangeStep) (x : Exchange) (h : admits a x = true) :
    allowed a x := by
  cases a with
  | packet env tx => simpa [admits, allowed] using h
  | other next => cases h

theorem reserves_match_book_sample :
    ∃ x, Reaches Exchange.step allowed sampleStart x ∧
      (orders x.ledger.metadex).map CMPMetaDEx.amountRemaining = [7] ∧
      x.ledger.money ['A'] 3 .METADEX_RESERVE
        = openAmount ['A'] 3 (orders x.ledger.metadex) := by
  have hsome : (runTested Exchange.step admits sampleSteps sampleStart).isSome = true := by
    decide +kernel
  obtain ⟨x, hx⟩ := Option.isSome_iff_exists.mp hsome
  have hrun := reaches_of_runTested allowed_of_admits sampleSteps .start hx
  have hbook : ((runTested Exchange.step admits sampleSteps sampleStart).map
      (fun x => (orders x.ledger.metadex).map CMPMetaDEx.amountRemaining)) = some [7] := by
    decide +kernel
  rw [hx] at hbook
  exact ⟨x, hrun, Option.some.inj hbook, (reserves_match_book sampleStart_opening hrun).1 _ _⟩

/-! ## The emergency shutdown -/

/-- Neither side of the order is ELYSIUM or TELYSIUM. -/
def rootFree (o : CMPMetaDEx) : Bool :=
  decide (o.property ≠ ELYSIUM_PROPERTY_ELYSIUM ∧ o.property ≠ ELYSIUM_PROPERTY_TELYSIUM ∧
    o.desiredProperty ≠ ELYSIUM_PROPERTY_ELYSIUM ∧ o.desiredProperty ≠ ELYSIUM_PROPERTY_TELYSIUM)

/-- What the shutdown is for: it ends, the orders without a root token are gone and their tokens are
    back in the balances, and nothing else has changed. -/
def ShutsDownAllpair (s : Ledger) : Prop :=
  ∃ s', metaDExShutdownAllpair s = .ok (0, s') ∧
    (orders s'.metadex).Perm ((orders s.metadex).filter (fun o => !rootFree o)) ∧
    (∀ a p t, s'.money a p t
      = s.money a p t + releaseDelta (openAmount a p ((orders s.metadex).filter rootFree)) t) ∧
    s' = { s with
      mpTallyMap := s'.mpTallyMap
      metadex := s'.metadex }

lemma rootFree_of_allPair (h : allPair o = true) : rootFree o = true := by
  rw [allPair, Bool.and_eq_true] at h
  have hdesired := of_decide_eq_true h.1
  have hproperty := of_decide_eq_true h.2
  have hbelow : ELYSIUM_PROPERTY_ELYSIUM < ELYSIUM_PROPERTY_TELYSIUM := by decide
  exact decide_eq_true ⟨(hbelow.trans hproperty).ne', hproperty.ne', (hbelow.trans hdesired).ne',
    hdesired.ne'⟩

/-- The shutdown works exactly for a book in which it has every order to remove: the first other one
    stops it for ever. -/
theorem shuts_down_allpair_iff {x0 x : Exchange} (hstart : Opening x0)
    (hrun : Reaches Exchange.step allowed x0 x) :
    ShutsDownAllpair x.ledger ↔ ∀ o ∈ orders x.ledger.metadex, allPair o = true := by
  have hinv : Inv x :=
    hrun.invariant hstart.inv (fun _ _ _ h hallowed hstep => h.step hallowed hstep)
  constructor
  · rintro ⟨s', hok, -⟩
    have hends := metaDExShutdownAllpair_ends (s := x.ledger) (E := fun _ => True)
      (fun _ _ => trivial) (fun _ _ => trivial)
    exact (hends.of_ok hok).1
  · intro hall
    have hends := metaDExShutdown_ends (E := fun _ => False) (absurd hinv.market)
    -- no order cuts the loop short, so it does what `MetaDEx_SHUTDOWN` does
    have hsame := congrFun ((metaDExShutdownAllpair_truncates).whole hall) x.ledger
    have hfree (o : CMPMetaDEx) (ho : o ∈ orders x.ledger.metadex) : rootFree o = true :=
      rootFree_of_allPair (hall o ho)
    cases hok : metaDExShutdown x.ledger with
    | error e => exact (hends.of_error hok).elim
    | ok r =>
      obtain ⟨-, hrc, hremoved⟩ := hends.of_ok (a := r.1) hok
      refine ⟨r.2, ?_, ?_, ?_, hremoved.rest⟩
      · rw [← hrc]
        exact hsame.trans hok
      · have hempty : orders r.2.metadex = [] := by
          have hlength := hremoved.orders.length_eq
          rw [length_append] at hlength
          exact length_eq_zero_iff.mp (by omega)
        rw [hempty, filter_eq_nil_iff.mpr (fun o ho => by simp [hfree o ho])]
      · rw [filter_eq_self.mpr hfree]
        exact hremoved.money

/-- The first order of the sample, for ELYSIUM, is in the book. -/
theorem elysium_order_not_shut_down :
    ∃ x, Reaches Exchange.step allowed sampleStart x ∧ ¬ ShutsDownAllpair x.ledger := by
  have hloops : (runTested Exchange.step admits (sampleSteps.take 1) sampleStart).map
      (fun x => (metaDExShutdownAllpair x.ledger).isOk) = some false := by
    decide +kernel
  obtain ⟨x, hx, hnot⟩ := Option.map_eq_some_iff.mp hloops
  refine ⟨x, reaches_of_runTested allowed_of_admits _ .start hx, ?_⟩
  rintro ⟨s', hok, -⟩
  rw [hok] at hnot
  cases hnot

/-- An order of one user property for the other is taken out, and its tokens are given back. -/
theorem shuts_down_allpair_iff_user_pair :
    ∃ x, Reaches Exchange.step allowed sampleStart x ∧ ShutsDownAllpair x.ledger ∧
      (orders x.ledger.metadex).map CMPMetaDEx.amountRemaining = [10] ∧
      x.ledger.money ['A'] 3 .BALANCE = 0 ∧
      ∃ s', metaDExShutdownAllpair x.ledger = .ok (0, s') ∧
        orders s'.metadex = [] ∧ s'.money ['A'] 3 .BALANCE = 10 := by
  have hrun : (runTested Exchange.step admits
      [.packet sampleEnv (sampleTrade 1 ['A'] 3 10 4 20)] sampleStart).map
      (fun x => ((orders x.ledger.metadex).map (fun o => (allPair o, o.amountRemaining)),
        x.ledger.money ['A'] 3 .BALANCE,
        openAmount ['A'] 3 ((orders x.ledger.metadex).filter rootFree),
        (orders x.ledger.metadex).filter (fun o => !rootFree o)))
      = some ([(true, 10)], 0, 10, []) := by
    decide +kernel
  obtain ⟨x, hx, hbook⟩ := Option.map_eq_some_iff.mp hrun
  obtain ⟨horders, hbalance, hamount, hkept⟩ := by simpa only [Prod.mk.injEq] using hbook
  have hreached := reaches_of_runTested allowed_of_admits _ .start hx
  have hall : ∀ o ∈ orders x.ledger.metadex, allPair o = true := by
    intro o ho
    have hmem := mem_map_of_mem (f := fun o => (allPair o, o.amountRemaining)) ho
    rw [horders, mem_singleton] at hmem
    exact congrArg Prod.fst hmem
  obtain ⟨s', hok, hperm, hmoney, hrest⟩ :=
    (shuts_down_allpair_iff sampleStart_opening hreached).mpr hall
  refine ⟨x, hreached, ⟨s', hok, hperm, hmoney, hrest⟩, ?_, hbalance, s', hok, ?_, ?_⟩
  · have hremaining := congrArg (map Prod.snd) horders
    rwa [map_map] at hremaining
  · rw [hkept] at hperm
    exact hperm.eq_nil
  · rw [hmoney, hbalance, hamount]
    rfl

end Exchange

end Tecracoin.Elysium
