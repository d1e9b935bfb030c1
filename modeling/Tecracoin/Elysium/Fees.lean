/-
  `fees.cpp`: the cache of trading fees and its distribution to the holders of
  the root token, and the total of a property (`getTotalTokens`).

  The cache of a property is a text of `block:amount` items, read back as a set
  ordered by block.  It is modelled by that set, as an ordered list: the last
  item is the current amount.  This is the amount of the latest block only as
  long as blocks come in order (`FeesUpTo`).
-/
import Tecracoin.Elysium.Sto

namespace Tecracoin.Elysium

open Data Ledger Op List

variable {amount block d d' : Int} {s s' s'' : Ledger} {p : PropertyId} {E : Abort → Prop}
  {env : Env}
  {item : FeeCacheItem} {items : List FeeCacheItem}

def ELYSIUM_FEE_THRESHOLD : Int := 100000

def MAX_STATE_HISTORY : Int := 50

/-- Insert into the set of items. -/
def insertItem (item : FeeCacheItem) : List FeeCacheItem → List FeeCacheItem
  | [] => [item]
  | x :: xs =>
    if item.1 < x.1 ∨ (item.1 = x.1 ∧ item.2 < x.2) then item :: x :: xs
    else if item = x then x :: xs
    else x :: insertItem item xs

variable (debugFees : Bool)

/-- The items `PruneCache` writes again. The `continue` that skips a matured item stands inside the
    branch for debug output, so without it nothing is skipped. -/
def keptItems (block : Int) (items : List FeeCacheItem) : List FeeCacheItem :=
  if debugFees then items.filter (fun item => block - MAX_STATE_HISTORY ≤ item.1) else items

/-- `PruneCache` on the items of a property. -/
def pruneItems (block : Int) (items : List FeeCacheItem) : List FeeCacheItem :=
  match items with
  | [] => []
  | first :: rest =>
    if block - MAX_STATE_HISTORY ≤ first.1 then items
    -- never prune down to nothing
    else if (keptItems debugFees block items).isEmpty then
      [(first :: rest).getLast (cons_ne_nil _ _)]
    else keptItems debugFees block items

namespace Ledger

section
variable (s : Ledger) (propertyId : PropertyId)

def getCacheHistory : List FeeCacheItem :=
  (s.feeCache.get? propertyId).getD []

def getCachedAmount : Int :=
  match (s.getCacheHistory propertyId).getLast? with
  | some mostRecentItem => mostRecentItem.2
  | none => 0

/-- Replace the item of a block, then `PruneCache`. -/
def writeFee (env : Env) (propertyId : PropertyId) (block amount : Int) : Ledger :=
  let others := (s.getCacheHistory propertyId).filter (fun item => item.1 ≠ block)
  let items := pruneItems env.debugFees block (insertItem (block, amount) others)
  { s with feeCache := s.feeCache.set CMPTally.ltProperty propertyId items }

/-- `distributionThresholds[propertyId]`. -/
def distributionThreshold : Int :=
  (s.distributionThresholds.get? propertyId).getD 0

/-- The tokens of a property: in the tallies and in the fee cache. -/
def total : Int :=
  s.supply propertyId + s.getCachedAmount propertyId

def getTotalTokens : Int :=
  match s.mySps.getSP propertyId with
  | none => 0
  | some property => if property.fixed then property.numTokens else s.total propertyId

def updateDistributionThresholds : Ledger :=
  let threshold := (s.getTotalTokens propertyId).tdiv ELYSIUM_FEE_THRESHOLD
  let distributionThreshold := if threshold ≤ 0 then 1 else threshold
  { s with
    distributionThresholds :=
      s.distributionThresholds.set CMPTally.ltProperty propertyId distributionThreshold }

end

end Ledger

/-- The sender under which fees are distributed. -/
def feeDistribution : Address :=
  ['F', 'E', 'E', 'D', 'I', 'S', 'T', 'R', 'I', 'B', 'U', 'T', 'I', 'O', 'N']

/-- The property whose holders get the fees in a property. -/
def feeReceiverProperty (propertyId : PropertyId) : PropertyId :=
  if isTestEcosystemProperty propertyId then ELYSIUM_PROPERTY_TELYSIUM else ELYSIUM_PROPERTY_ELYSIUM

/-- The loop of `DistributeCache`: what has been sent. -/
def creditReceivers (propertyId : PropertyId) (receivers : List (Int × Address)) : Op Int :=
  receivers.foldlM (fun sentSoFar receiver => do
    assertTally receiver.2 propertyId receiver.1 .BALANCE
    pure (sentSoFar + receiver.1)) 0

section

variable (env : Env) (propertyId : PropertyId) (block : Int)

def distributeCache : Op Unit := do
  let s ← get
  let receivers ← stoGetReceivers feeDistribution (feeReceiverProperty propertyId)
    (s.getCachedAmount propertyId)
  let sentSoFar ← creditReceivers propertyId receivers
  ensure (sentSoFar == s.getCachedAmount propertyId) (.asserts "sent_so_far == cachedAmount")
  modify (fun s => s.writeFee env propertyId block 0)

def evalCache : Op Unit := do
  let s ← get
  if s.distributionThreshold propertyId ≤ s.getCachedAmount propertyId then
    distributeCache env propertyId block
  else pure ()

/-- `AddFee`. A cache that would leave the range shuts the node down. -/
def addFee (block amount : Int) : Op Unit := do
  let s ← get
  let current := s.getCachedAmount propertyId
  ensure (!(decide (0 < current) && decide (MAX_INT_8_BYTES - current < amount)))
    (.throws "Shutting down due to fee cache overflow")
  modify (fun s => s.writeFee env propertyId block (current + amount))
  evalCache env propertyId block

def notifyTotalTokensChanged : Op Unit := do
  modify (fun s => s.updateDistributionThresholds propertyId)
  evalCache env propertyId block

end

/-! ## Writing the cache -/

/-- No fee has been cached at a later block. -/
def FeesUpTo (block : Int) (s : Ledger) : Prop :=
  ∀ p, ∀ item ∈ s.getCacheHistory p, item.1 ≤ block

lemma insertItem_of_forall_lt
    (h : ∀ x ∈ items, x.1 < item.1) : insertItem item items = items ++ [item] := by
  induction items with
  | nil => rfl
  | cons x xs ih =>
    have hx := h x (.head _)
    have hne : item ≠ x := by
      rintro rfl
      omega
    have hlate : ¬ (item.1 < x.1 ∨ (item.1 = x.1 ∧ item.2 < x.2)) := by omega
    rw [insertItem, if_neg hlate, if_neg hne, ih (forall_mem_cons.mp h).2, cons_append]

lemma mem_of_mem_pruneItems {debugFees : Bool}
    (h : item ∈ pruneItems debugFees block items) : item ∈ items := by
  unfold pruneItems at h
  split at h
  · exact h
  · split_ifs at h with hyoung hempty
    · exact h
    · rw [mem_singleton] at h
      rw [h]
      exact getLast_mem _
    · unfold keptItems at h
      split_ifs at h
      · exact mem_of_mem_filter h
      · exact h

/-- The item of the current block is not pruned. -/
lemma getLast?_keptItems (block amount : Int) (items : List FeeCacheItem) :
    (keptItems debugFees block (items ++ [(block, amount)])).getLast? = some (block, amount) := by
  have hyoung : block - MAX_STATE_HISTORY ≤ block := by
    have : (0 : Int) ≤ MAX_STATE_HISTORY := by decide
    omega
  unfold keptItems
  split_ifs
  · rw [filter_append, filter_cons_of_pos (by simpa using hyoung), filter_nil, getLast?_append]
    rfl
  · rw [getLast?_append]
    rfl

lemma getLast?_pruneItems :
    (pruneItems debugFees block (items ++ [(block, amount)])).getLast? = some (block, amount) := by
  have hlast : (items ++ [(block, amount)]).getLast? = some (block, amount) := by simp
  have hkept := getLast?_keptItems debugFees block amount items
  generalize items ++ [(block, amount)] = all at hlast hkept
  unfold pruneItems
  cases all with
  | nil => cases hlast
  | cons first rest =>
    dsimp only
    split_ifs with hyoung hempty
    · exact hlast
    · rw [isEmpty_iff.mp hempty] at hkept
      cases hkept
    · exact hkept

namespace Ledger

variable {q : PropertyId}

lemma getCacheHistory_writeFee :
    (s.writeFee env p block amount).getCacheHistory q
      = if q = p then pruneItems env.debugFees block
          (insertItem (block, amount) ((s.getCacheHistory p).filter (fun item => item.1 ≠ block)))
        else s.getCacheHistory q := by
  unfold getCacheHistory writeFee
  split_ifs with hq
  · subst hq
    rw [StdMap.get?_set_self]
    rfl
  · rw [StdMap.get?_set_of_ne hq]

/-- The cache of a property after a write, blocks coming in order. -/
lemma getCachedAmount_writeFee (h : FeesUpTo block s) (env : Env)
    (p : PropertyId) (amount : Int) (q : PropertyId) :
    (s.writeFee env p block amount).getCachedAmount q
      = if q = p then amount else s.getCachedAmount q := by
  unfold getCachedAmount
  rw [getCacheHistory_writeFee]
  split_ifs with hq
  · have hbefore :
        ∀ x ∈ (s.getCacheHistory p).filter (fun item => item.1 ≠ block), x.1 < block := by
      intro x hx
      obtain ⟨hmem, hne⟩ := mem_filter.mp hx
      have hle := h p x hmem
      have hne' : x.1 ≠ block := by simpa using hne
      omega
    rw [insertItem_of_forall_lt hbefore, getLast?_pruneItems]
  · rfl

@[simp] lemma bucketSum_writeFee {t : TallyType} :
    (s.writeFee env p block amount).bucketSum q t = s.bucketSum q t := rfl

end Ledger

lemma mem_insertItem {x : FeeCacheItem}
    (h : x ∈ insertItem item items) : x = item ∨ x ∈ items := by
  induction items with
  | nil => exact .inl (mem_singleton.mp h)
  | cons y ys ih =>
    rw [insertItem] at h
    split_ifs at h with hlt heq
    · exact mem_cons.mp h
    · exact .inr h
    · rcases mem_cons.mp h with rfl | h
      · exact .inr (.head _)
      · exact (ih h).imp_right (.tail _)

lemma FeesUpTo.writeFee (h : FeesUpTo block s) (env : Env)
    (p : PropertyId) (amount : Int) : FeesUpTo block (s.writeFee env p block amount) := by
  intro q item hitem
  rw [getCacheHistory_writeFee] at hitem
  split_ifs at hitem with hq
  · rcases mem_insertItem (mem_of_mem_pruneItems hitem) with rfl | hold
    · exact le_rfl
    · exact h p item (mem_of_mem_filter hold)
  · exact h q item hitem

lemma FeesUpTo.mono {block' : Int} (h : FeesUpTo block s)
    (hle : block ≤ block') : FeesUpTo block' s :=
  fun p item hitem => (h p item hitem).trans hle

/-! ## What the fee functions change -/

/-- Only tallies, fee cache and thresholds differ. -/
def OnlyFunds (s s' : Ledger) : Prop :=
  s' = { s with
    mpTallyMap := s'.mpTallyMap
    feeCache := s'.feeCache
    distributionThresholds := s'.distributionThresholds }

namespace OnlyFunds

lemma refl (s : Ledger) : OnlyFunds s s := rfl

section

variable (h : OnlyFunds s s')
include h

lemma trans (h' : OnlyFunds s' s'') : OnlyFunds s s'' := by
  unfold OnlyFunds at *
  rw [h'.trans (by rw [h])]

lemma metadex : s'.metadex = s.metadex := by
  rw [show s' = _ from h]

lemma setFrozenAddresses : s'.setFrozenAddresses = s.setFrozenAddresses := by
  rw [show s' = _ from h]

lemma isAddressFrozen (a : Address) (p : PropertyId) :
    s'.isAddressFrozen a p = s.isAddressFrozen a p := by
  rw [Ledger.isAddressFrozen, h.setFrozenAddresses]
  rfl

end

end OnlyFunds

/-- Only balances of `p` differ, and none is smaller. -/
structure BalancesGrow (p : PropertyId) (s s' : Ledger) : Prop where
  other : ∀ a q t, ¬ (q = p ∧ t = .BALANCE) → s'.money a q t = s.money a q t
  balance : ∀ a, s.money a p .BALANCE ≤ s'.money a p .BALANCE

namespace BalancesGrow

lemma of_same (h : s'.money = s.money) : BalancesGrow p s s' :=
  ⟨fun _ _ _ _ => by rw [h], fun _ => by rw [h]⟩

lemma trans (h : BalancesGrow p s s') (h' : BalancesGrow p s' s'') : BalancesGrow p s s'' where
  other a q t hqt := (h'.other a q t hqt).trans (h.other a q t hqt)
  balance a := (h.balance a).trans (h'.balance a)

lemma nonneg (h : BalancesGrow p s s') (hs : s.Nonneg) : s'.Nonneg := by
  intro a q t ht
  by_cases hqt : q = p ∧ t = .BALANCE
  · obtain ⟨rfl, rfl⟩ := hqt
    exact (hs a q _ ht).trans (h.balance a)
  · rw [h.other a q t hqt]
    exact hs a q t ht

end BalancesGrow

/-- Balances of `p` are credited, with `d` in all. -/
structure Credits (p : PropertyId) (d : Int) (s s' : Ledger) : Prop
    extends BalancesGrow p s s' where
  bucketSum : ∀ q t, s'.bucketSum q t
    = s.bucketSum q t + if q = p ∧ t = TallyType.BALANCE then d else 0
  rest : s' = { s with mpTallyMap := s'.mpTallyMap }

namespace Credits

lemma refl (p : PropertyId) (s : Ledger) : Credits p 0 s s :=
  ⟨.of_same rfl, fun _ _ => by simp, rfl⟩

lemma trans (h : Credits p d s s') (h' : Credits p d' s' s'') : Credits p (d + d') s s'' where
  toBalancesGrow := h.toBalancesGrow.trans h'.toBalancesGrow
  bucketSum q t := by
    rw [h'.bucketSum, h.bucketSum]
    split_ifs <;> omega
  rest := by rw [h'.rest.trans (by rw [h.rest])]

lemma updated {a : Address} (hpos : 0 < amount) (hcan : s.CanUpdate a p amount .BALANCE) :
    Credits p amount s (s.updated a p amount .BALANCE) where
  other b q t hqt := by
    rw [money_updated hcan, if_neg (fun h => hqt h.2), add_zero]
  balance b := by
    rw [money_updated hcan]
    split_ifs <;> omega
  bucketSum q t := bucketSum_updated hcan q t
  rest := rfl

lemma getCacheHistory (h : Credits p d s s') (q : PropertyId) :
    s'.getCacheHistory q = s.getCacheHistory q := by
  rw [h.rest]
  rfl

lemma getCachedAmount (h : Credits p d s s') (q : PropertyId) :
    s'.getCachedAmount q = s.getCachedAmount q := by
  rw [h.rest]
  rfl

end Credits

/-- What is asked of a round of credits: they fit into the range together. -/
structure Creditable (s : Ledger) (p : PropertyId) (amount : Int) : Prop where
  nonneg : s.Nonneg
  fits : s.bucketSum p .BALANCE + amount ≤ MAX_INT_8_BYTES

/-- The receivers are credited what they are to get. -/
lemma creditReceivers_ends
    {receivers : List (Int × Address)} (hpos : ∀ receiver ∈ receivers, 0 < receiver.1)
    (hE : ¬ Creditable s p (sumAmounts receivers) → ∀ e, E e) :
    Op.Ends E (creditReceivers p receivers) s (fun sent s' =>
      sent = sumAmounts receivers ∧ Credits p (sumAmounts receivers) s s') := by
  refine ends_foldlM (fun done sent s' => sent = sumAmounts done ∧ Credits p (sumAmounts done) s s')
    ⟨rfl, Credits.refl p s⟩ ?_
  rintro done receiver rest hsplit sent s1 ⟨rfl, hdone⟩
  have hreceiver : 0 < receiver.1 := hpos receiver (hsplit ▸ by simp)
  refine ends_bind (assertTally_ends (fun hcannot => hE (fun h => ?_))) ?_
  · -- what is still to come does not make the balance smaller
    refine hcannot ?_
    have hnonneg := hdone.nonneg h.nonneg
    have hle := hnonneg.money_le (t := .BALANCE) (by decide) receiver.2 p
    have hrest : 0 ≤ sumAmounts rest :=
      sumAmounts_nonneg (fun r hr => hpos r (hsplit ▸ by simp [hr]))
    have hfits := h.fits
    rw [hsplit, sumAmounts_append, sumAmounts_cons] at hfits
    rw [hdone.bucketSum, if_pos ⟨rfl, rfl⟩] at hle
    exact canUpdate_credit hreceiver (hnonneg _ _ _ (by decide)) (by omega)
  · rintro _ s2 ⟨hcan, rfl⟩
    have hsum : sumAmounts (done ++ [receiver]) = sumAmounts done + receiver.1 := by
      rw [sumAmounts_append, sumAmounts_cons, sumAmounts_nil, add_zero]
    refine ends_pure ⟨hsum.symm, ?_⟩
    rw [hsum]
    exact hdone.trans (Credits.updated hreceiver hcan)

/-- The fee cache of `p` takes `d` in; it may then be paid out to balances. -/
structure FeesMoved (block : Int) (p : PropertyId) (d : Int) (s s' : Ledger) : Prop
    extends BalancesGrow p s s' where
  total : ∀ q, s'.total q = s.total q + if q = p then d else 0
  bucketSum : ∀ q t, ¬ (q = p ∧ t = .BALANCE) → s'.bucketSum q t = s.bucketSum q t
  cached : (∀ q, 0 ≤ s.getCachedAmount q) → 0 ≤ d → ∀ q, 0 ≤ s'.getCachedAmount q
  feesUpTo : FeesUpTo block s'
  rest : OnlyFunds s s'

namespace FeesMoved

lemma refl (h : FeesUpTo block s) (p : PropertyId) : FeesMoved block p 0 s s where
  toBalancesGrow := .of_same rfl
  total q := by simp
  bucketSum _ _ _ := rfl
  cached h _ := h
  feesUpTo := h
  rest := .refl s

lemma trans (h : FeesMoved block p d s s') (h' : FeesMoved block p d' s' s'') (hd : 0 ≤ d)
    (hd' : 0 ≤ d') : FeesMoved block p (d + d') s s'' where
  total q := by
    rw [h'.total, h.total]
    split_ifs <;> omega
  toBalancesGrow := h.toBalancesGrow.trans h'.toBalancesGrow
  bucketSum q t hqt := (h'.bucketSum q t hqt).trans (h.bucketSum q t hqt)
  cached hs _ := h'.cached (h.cached hs hd) hd'
  feesUpTo := h'.feesUpTo
  rest := h.rest.trans h'.rest

end FeesMoved

/-- Writing a larger amount into the cache. -/
lemma feesMoved_writeFee (h : FeesUpTo block s) (env : Env) (p : PropertyId) (d : Int) :
    FeesMoved block p d s (s.writeFee env p block (s.getCachedAmount p + d)) where
  total q := by
    have hsupply : (s.writeFee env p block (s.getCachedAmount p + d)).supply q = s.supply q := rfl
    unfold Ledger.total
    rw [hsupply, getCachedAmount_writeFee h]
    split_ifs with hq
    · subst hq
      omega
    · omega
  toBalancesGrow := .of_same rfl
  bucketSum _ _ _ := rfl
  cached hs hd q := by
    rw [getCachedAmount_writeFee h]
    split_ifs
    · have := hs p
      omega
    · exact hs q
  feesUpTo := h.writeFee env p _
  rest := rfl

/-- What is asked of a distribution: it fits into the range. -/
structure Payable (s : Ledger) (p : PropertyId) : Prop where
  nonneg : s.Nonneg
  cached : 0 ≤ s.getCachedAmount p
  fits : s.bucketSum p .BALANCE + s.getCachedAmount p ≤ MAX_INT_8_BYTES

lemma Payable.divisible (h : Payable s p) : Divisible s (s.getCachedAmount p) := by
  have hsum := h.nonneg.bucketSum_nonneg (t := .BALANCE) (by decide) p
  have hfits := h.fits
  exact ⟨h.nonneg, h.cached, by omega⟩

/-- Why a distribution of what fits into the range can stop the node: nobody holds the token whose
    holders get the fees. -/
def NoFeeReceiver (s : Ledger) (p : PropertyId) (e : Abort) : Prop :=
  e = .asserts "sent_so_far == cachedAmount" ∧
    s.stoOwners feeDistribution (feeReceiverProperty p) = []

/-- A distribution empties the cache into balances. -/
lemma distributeCache_ends (hE : ∀ e, (Payable s p → NoFeeReceiver s p e) → E e) :
    Op.Ends E (distributeCache env p block) s
      (fun _ s' => FeesUpTo block s → FeesMoved block p 0 s s') := by
  refine ends_get_bind ?_
  refine ends_bind (stoGetReceivers_ends
    (fun hnot e => hE e (fun hpay => absurd hpay.divisible hnot))) ?_
  rintro receivers s ⟨rfl, hpos, -, hsum⟩
  have hE' : ¬ Creditable s p (sumAmounts receivers) → ∀ e, E e := by
    intro hnot e
    refine hE e (fun hpay => absurd ?_ hnot)
    have hle := (hsum hpay.divisible).1
    have hfits := hpay.fits
    exact ⟨hpay.nonneg, by omega⟩
  refine ends_bind (creditReceivers_ends hpos hE') ?_
  rintro sent s1 ⟨rfl, hcredits⟩
  refine ends_bind (ends_ensure (fun hc => ?_)) ?_
  · -- the pieces add up, so there was no owner
    refine hE _ (fun hpay => ⟨rfl, ?_⟩)
    by_contra howner
    rw [((hsum hpay.divisible).2 howner).sum, beq_self_eq_true] at hc
    cases hc
  rintro _ s1 ⟨rfl, hsent⟩
  have hsent' : sumAmounts receivers = s.getCachedAmount p := by simpa using hsent
  refine ends_modify (fun h => ?_)
  have hupTo : FeesUpTo block s1 := by
    intro q item hitem
    rw [hcredits.getCacheHistory] at hitem
    exact h q item hitem
  have hcachedAfter := getCachedAmount_writeFee hupTo env p 0
  refine ⟨⟨hcredits.other, hcredits.balance⟩, fun q => ?_, fun q t hqt => ?_, fun hs _ q => ?_,
    hupTo.writeFee env p 0, ?_⟩
  · have hsupply : (s1.writeFee env p block 0).supply q = s1.supply q := rfl
    unfold Ledger.total
    rw [hsupply, hcachedAfter]
    unfold Ledger.supply
    rw [hcredits.bucketSum, hcredits.bucketSum, hcredits.bucketSum, hcredits.bucketSum,
      hcredits.getCachedAmount]
    by_cases hq : q = p
    · subst hq
      simp [hsent']
      ring
    · simp [hq]
  · rw [bucketSum_writeFee, hcredits.bucketSum, if_neg hqt, add_zero]
  · rw [hcachedAfter]
    split_ifs
    · exact le_rfl
    · rw [hcredits.getCachedAmount]
      exact hs q
  · unfold OnlyFunds
    rw [hcredits.rest]
    rfl

lemma evalCache_ends (hE : ∀ e, (Payable s p → NoFeeReceiver s p e) → E e) :
    Op.Ends E (evalCache env p block) s
      (fun _ s' => FeesUpTo block s → FeesMoved block p 0 s s') :=
  ends_get_bind (ends_ite (fun _ => distributeCache_ends hE)
    (fun _ => ends_pure (fun h => .refl h p)))

/-- What is asked of `AddFee`: the cache and the balances stay in range. -/
structure FeeFits (s : Ledger) (p : PropertyId) (amount : Int) : Prop where
  nonneg : s.Nonneg
  cached : 0 ≤ s.getCachedAmount p
  fits : s.bucketSum p .BALANCE + s.getCachedAmount p + amount ≤ MAX_INT_8_BYTES

/-- `AddFee` moves the fee into the cache, or from there to balances. -/
lemma addFee_ends (h : FeesUpTo block s) (hamount : 0 ≤ amount)
    (hE : ∀ e, (FeeFits s p amount → NoFeeReceiver s p e) → E e) :
    Op.Ends E (addFee env p block amount) s (fun _ s' => FeesMoved block p amount s s') := by
  refine ends_get_bind ?_
  refine ends_bind (ends_ensure (fun hc => hE _ (fun hfits => ?_))) ?_
  · have hsum := hfits.nonneg.bucketSum_nonneg (t := .BALANCE) (by decide) p
    have hroom := hfits.fits
    simp only [Bool.not_eq_false', Bool.and_eq_true, decide_eq_true_eq] at hc
    omega
  rintro _ s ⟨rfl, _⟩
  refine ends_modify_bind ?_
  have hwrite := feesMoved_writeFee h env p amount
  refine (evalCache_ends (fun e he => hE e (fun hfits => ?_))).post (fun _ s' hmoved => ?_)
  · have hcached := getCachedAmount_writeFee h env p (s.getCachedAmount p + amount) p
    rw [if_pos rfl] at hcached
    have hroom := hfits.fits
    have hbefore := hfits.cached
    refine he ⟨hwrite.nonneg hfits.nonneg, ?_, ?_⟩
    · rw [hcached]
      omega
    · rw [hcached, bucketSum_writeFee]
      omega
  · have hboth := hwrite.trans (hmoved hwrite.feesUpTo) hamount le_rfl
    rwa [add_zero] at hboth

lemma notifyTotalTokensChanged_ends (hE : ∀ e, (Payable s p → NoFeeReceiver s p e) → E e) :
    Op.Ends E (notifyTotalTokensChanged env p block) s (fun _ _ => True) :=
  ends_modify_bind ((evalCache_ends (s := s.updateDistributionThresholds p) (fun e he =>
    hE e (fun hpay => he ⟨hpay.nonneg, hpay.cached, hpay.fits⟩))).post (fun _ _ _ => trivial))

end Tecracoin.Elysium
