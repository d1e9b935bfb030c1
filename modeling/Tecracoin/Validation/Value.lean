/-
  Where the value of an accepted block comes from.

  `ConnectBlock` compares amounts one transaction at a time for ordinary
  transactions only.  A sigma spend may pay out more than its denominations; its
  fee is then negative and lowers what the coinbase may pay.  So the whole block
  is accounted for through the sum of the fees: `totalFees` is that sum as an
  integer, `nFees` is what the 64-bit loop keeps of it, and the limit on the
  coinbase closes the account.  At most `nMaxSigmaInputPerBlock` fees are
  negative, so wrapping can only lower the limit.
-/
import Tecracoin.Validation.Effects

namespace Tecracoin.Validation

open Data Tecracoin.Sigma Coins CTransaction List

variable {u v w : PartialMap COutPoint Coin} {acc nHeight nSpendHeight x : Int}
  {coinbase tx : CTransaction} {undo : List Coin} {view : CCoinsViewCache}
  {undos : List (List Coin)} {txid : Uint256} {crypto : Crypto} {vin : List CTxIn} {env : TxEnv}
  {ctx : ConnectContext}

/-! ## Amounts as integers -/

/-- The sum of the outputs. -/
def valueOut (tx : CTransaction) : Int := (tx.vout.map CTxOut.nValue).sum

/-- The sum of the values of some coins. -/
def coinsValue (coins : List Coin) : Int := (coins.map (fun coin => coin.out.nValue)).sum

lemma coinsValue_nil : coinsValue [] = 0 := rfl

lemma coinsValue_append {coins coins' : List Coin} :
    coinsValue (coins ++ coins') = coinsValue coins + coinsValue coins' := by
  rw [coinsValue, map_append, sum_append]
  rfl

section

variable (crypto : Crypto)

/-- The denomination an input spends, if its script can be read. -/
def inputDenomination (txin : CTxIn) : CAmount :=
  ((crypto.readCoinSpend (txin.scriptSig.drop 1)).map
    (fun spend => denominationToInteger spend.denomination)).getD 0

/-- The script of the input holds a spend. -/
def Readable (txin : CTxIn) : Prop :=
  ∃ spend, crypto.readCoinSpend (txin.scriptSig.drop 1) = some spend

/-- The denominations of the sigma spend inputs of a transaction. -/
def sigmaSpendValue (tx : CTransaction) : Int :=
  if tx.isSigmaSpend then
    ((tx.vin.filter (fun txin => txin.scriptSig.isSigmaSpend)).map (inputDenomination crypto)).sum
  else 0

/-- The unspent coins after a transaction. -/
def afterTx (txid : Uint256) (tx : CTransaction) (nHeight : Int)
    (u : PartialMap COutPoint Coin) : PartialMap COutPoint Coin :=
  (u.without (inputs tx)).extend (newCoins txid tx nHeight)

/-- The coins a list of transactions spends, among them outputs of earlier transactions of the list.
    -/
def spentCoins (getHash : CTransaction → Uint256) (nHeight : Int) :
    PartialMap COutPoint Coin → List CTransaction → List Coin
  | _, [] => []
  | u, tx :: vtx =>
    (inputs tx).filterMap u ++ spentCoins getHash nHeight (afterTx (getHash tx) tx nHeight u) vtx

/-- The transaction has a fee of its own. -/
def paysFee (tx : CTransaction) : Bool := tx.isSigmaSpend || tx.spendsCoins

/-- The fee of a transaction that spends the coins `undo`; it may be negative. -/
def fee (tx : CTransaction) (undo : List Coin) : Int :=
  if paysFee tx then coinsValue undo + sigmaSpendValue crypto tx - valueOut tx else 0

def totalFees (vtx : List CTransaction) (undos : List (List Coin)) : Int :=
  (List.zipWith (fee crypto) vtx undos).sum

end

/-! ## Undo data and spent coins -/

section Spent

variable {getHash : CTransaction → Uint256}

lemma map_eq_map_of_zip {K V W : Type} {f : K → W} {g : V → W} {keys : List K}
    {values : List V} (hlength : values.length = keys.length)
    (h : ∀ e ∈ keys.zip values, f e.1 = g e.2) : keys.map f = values.map g := by
  rw [← forall₂_eq_eq_eq, forall₂_map_left_iff, forall₂_map_right_iff, forall₂_iff_zip]
  exact ⟨hlength.symm, fun hmem => h _ hmem⟩

lemma filterMap_inputs (h : TxEffect txid tx nHeight undo u v) :
    (inputs tx).filterMap u = undo := by
  have hmap : (inputs tx).map u = undo.map some := map_eq_map_of_zip h.length_undo h.spent
  calc (inputs tx).filterMap u = ((inputs tx).map u).filterMap id := by
        rw [filterMap_map]
        rfl
    _ = undo := by
        rw [hmap, filterMap_map]
        exact filterMap_some

/-- The undo data of a block is the list of the coins it spends. -/
lemma Effects.spentCoins_eq {vtx : List CTransaction}
    (h : Effects getHash nHeight vtx undos u w) :
    spentCoins getHash nHeight u vtx = undos.flatten := by
  induction h with
  | nil _ => rfl
  | cons effect _ _ ih =>
    rw [spentCoins, flatten_cons, filterMap_inputs effect, afterTx, ← effect.result, ih]

end Spent

/-! ## What the code computes -/

section Code

variable {v : Int} {st : CSigmaState} {flags : CheckFlags} {c c' : CheckState}

/-- A sum that is tested for the money range has not wrapped. -/
lemma wrap64_of_moneyRange (hacc : 0 ≤ acc ∧ acc ≤ MAX_MONEY)
    (h : ¬ (!moneyRange v || !moneyRange (wrap64 (acc + v))) = true) :
    wrap64 (acc + v) = acc + v ∧ 0 ≤ acc + v ∧ acc + v ≤ MAX_MONEY := by
  rw [Bool.not_eq_true, Bool.or_eq_false_iff, Bool.not_eq_false', Bool.not_eq_false',
    moneyRange_iff, moneyRange_iff] at h
  have hexact : wrap64 (acc + v) = acc + v := by
    rw [MAX_MONEY_eq] at hacc h
    apply wrap64_of_range <;> omega
  exact ⟨hexact, hexact ▸ h.2⟩

lemma sumValueOut_eq {vout : List CTxOut} (hacc : 0 ≤ acc ∧ acc ≤ MAX_MONEY)
    (h : sumValueOut acc vout = some v) :
    v = acc + (vout.map CTxOut.nValue).sum ∧ 0 ≤ v ∧ v ≤ MAX_MONEY := by
  -- the accumulator stays in the money range, so no step wraps
  induction vout generalizing acc with
  | nil =>
    cases h
    exact ⟨(Int.add_zero _).symm, hacc⟩
  | cons txout vout ih =>
    simp only [sumValueOut] at h
    split_ifs at h with hrange
    obtain ⟨hexact, hsum⟩ := wrap64_of_moneyRange hacc hrange
    rw [hexact] at h
    obtain ⟨hv, hbounds⟩ := ih hsum h
    refine ⟨?_, hbounds⟩
    rw [hv, map_cons, sum_cons, Int.add_assoc]

/-- A value that `GetValueOut` returns is the sum of the outputs. -/
lemma getValueOut_eq (h : tx.getValueOut = some v) : v = valueOut tx ∧ 0 ≤ v ∧ v ≤ MAX_MONEY := by
  obtain ⟨hv, hbounds⟩ := sumValueOut_eq ⟨Int.le_refl 0, by decide⟩ h
  exact ⟨hv.trans (Int.zero_add _), hbounds⟩

/-- The values of the coins that the inputs name. -/
def inputsValue (view : CCoinsViewCache) (vin : List CTxIn) : Int :=
  (vin.map (fun txin => (view.accessCoin txin.prevout).out.nValue)).sum

lemma sumInputs_eq (hacc : 0 ≤ acc ∧ acc ≤ MAX_MONEY)
    (h : sumInputs view nSpendHeight acc vin = .ok v) :
    v = acc + inputsValue view vin ∧
      vin.foldl (fun nResult txin =>
        wrap64 (nResult + (view.accessCoin txin.prevout).out.nValue)) acc = v := by
  induction vin generalizing acc with
  | nil =>
    cases h
    exact ⟨(Int.add_zero _).symm, rfl⟩
  | cons txin vin ih =>
    simp only [sumInputs] at h
    split_ifs at h with hspent hmature hrange
    obtain ⟨hexact, hsum⟩ := wrap64_of_moneyRange hacc hrange
    obtain ⟨hv, hfold⟩ := ih (hexact.symm ▸ hsum) h
    refine ⟨?_, hfold⟩
    rw [hv, hexact, inputsValue, inputsValue, map_cons, sum_cons, Int.add_assoc]

/-- What passing `CheckTxInputs` means for an ordinary transaction. -/
lemma checkTxInputs_ok
    (hspends : tx.spendsCoins = true) (h : checkTxInputs view nSpendHeight tx = .ok ()) :
    view.getValueIn tx = inputsValue view tx.vin ∧ valueOut tx ≤ inputsValue view tx.vin := by
  revert h
  fun_cases checkTxInputs with
  | case7 _ nValueIn hsum nValueOut hvalue hbelow =>
    intro _
    obtain ⟨hin, hfold⟩ := sumInputs_eq ⟨Int.le_refl 0, by decide⟩ hsum
    obtain ⟨hout, -, -⟩ := getValueOut_eq hvalue
    rw [Int.zero_add] at hin
    rw [hin, hout, not_lt] at hbelow
    refine ⟨?_, hbelow⟩
    rw [CCoinsViewCache.getValueIn, hspends, Bool.not_true, if_neg (by decide), hfold, hin]
  | _ => exact nofun

/-- The loop of `GetSigmaSpendInput` stays far below `2 ^ 63`. -/
lemma sumDenominations_eq (hacc : 0 ≤ acc ∧ acc + 10000000000 * vin.length < 2 ^ 63)
    (hread : ∀ txin ∈ vin, Readable crypto txin) :
    sumDenominations crypto acc vin = some (acc + (vin.map (inputDenomination crypto)).sum) := by
  induction vin generalizing acc with
  | nil =>
    rw [sumDenominations, map_nil, sum_nil, Int.add_zero]
  | cons txin vin ih =>
    obtain ⟨spend, hspend⟩ := hread txin (.head _)
    have hdenomination : inputDenomination crypto txin =
        denominationToInteger spend.denomination := by
      rw [inputDenomination, hspend]
      rfl
    have hpos : (0 : Int) < denominationToInteger spend.denomination :=
      denominationToInteger_pos _
    have hle : (10000000000 : Int) ≥ denominationToInteger spend.denomination :=
      denominationToInteger_le _
    rw [length_cons] at hacc
    rw [sumDenominations, hspend, map_cons, sum_cons, hdenomination, ← Int.add_assoc]
    dsimp only
    rw [wrap64_of_range (by omega) (by omega)]
    exact ih (by omega) (forall_mem_cons.mp hread).2

lemma isCoinBase_vin (h : tx.isCoinBase = true) : ∃ txin, tx.vin = [txin] := by
  unfold isCoinBase at h
  split at h
  · rename_i txin hvin
    exact ⟨txin, hvin⟩
  · cases h

section

variable (hspend : tx.isSigmaSpend = true)
include hspend

lemma sigmaSpendValue_of_forall
    (hall : ∀ txin ∈ tx.vin, txin.scriptSig.isSigmaSpend = true) :
    sigmaSpendValue crypto tx = (tx.vin.map (inputDenomination crypto)).sum := by
  rw [sigmaSpendValue, if_pos hspend, filter_eq_self.mpr hall]

/-- The inputs of a sigma spend that has passed are spends, and few. The only input of a coinbase
    has not been looked at and may be unreadable. -/
lemma spendInputs_of_checkTransaction {dup : Bool} {u : Unit}
    (h : checkTransaction env st dup flags tx c = .ok u c') :
    (∀ txin ∈ tx.vin, txin.scriptSig.isSigmaSpend = true) ∧ tx.vin.length ≤ 35 ∧
      ((∀ txin ∈ tx.vin, Readable env.crypto txin) ∨ ∃ txin, tx.vin = [txin]) := by
  cases hcb : tx.isCoinBase with
  | true =>
    obtain ⟨txin, hvin⟩ := isCoinBase_vin hcb
    rw [isSigmaSpend, hvin] at hspend
    simp only [any_cons, any_nil, Bool.or_false, CTxIn.isSigmaSpend, Bool.and_eq_true] at hspend
    rw [hvin]
    exact ⟨by simpa using hspend.2, by simp, .inr ⟨txin, rfl⟩⟩
  | false =>
    obtain ⟨-, -, -, hsigma⟩ := checkTransaction_ok h
    have hkind : tx.isZerocoinV3SigmaTransaction = true := by
      rw [isZerocoinV3SigmaTransaction, hspend]
      rfl
    obtain ⟨hlength, hall⟩ := checkSigmaTransaction_inputs hspend (hsigma hcb hkind).2
    rw [show env.params.nMaxSigmaInputPerTransaction = 35 from
      (Params.sigmaInputLimits env.chainType).1] at hlength
    exact ⟨fun txin htxin => (hall txin htxin).1, hlength,
      .inl (fun txin htxin => (hall txin htxin).2)⟩

/-- For a transaction that has passed, `GetSigmaSpendInput` is the sum of the denominations. -/
lemma getSigmaSpendInput_eq {u : Unit}
    (h : checkTransaction env st false flags tx c = .ok u c') :
    getSigmaSpendInput env.crypto tx = sigmaSpendValue env.crypto tx := by
  obtain ⟨hscripts, hlength, hinputs⟩ := spendInputs_of_checkTransaction hspend h
  rw [getSigmaSpendInput, hspend, Bool.not_true, if_neg (by decide),
    sigmaSpendValue_of_forall hspend hscripts]
  by_cases hread : ∀ txin ∈ tx.vin, Readable env.crypto txin
  · rw [sumDenominations_eq ⟨Int.le_refl 0, by omega⟩ hread, Int.zero_add]
    rfl
  · obtain ⟨txin, hvin⟩ := hinputs.resolve_left hread
    have hnone : env.crypto.readCoinSpend (txin.scriptSig.drop 1) = none := by
      simpa [hvin, Readable, Option.eq_none_iff_forall_ne_some] using hread
    rw [hvin, sumDenominations, map_singleton, sum_singleton, inputDenomination, hnone]
    rfl

end

end Code

/-! ## The fees of the loop -/

section Fees

variable {st : CSigmaState} {vtx block : List CTransaction} {s s' : ConnectBlockState}

/-- The coins an ordinary transaction spends have the values it was checked with. -/
lemma coinsValue_undo (hspends : tx.spendsCoins = true)
    (h : TxEffect txid tx nHeight undo view.unspent v) :
    coinsValue undo = inputsValue view tx.vin := by
  have hvalue : ∀ e ∈ (inputs tx).zip undo, (view.accessCoin e.1).out.nValue = e.2.out.nValue := by
    intro e he
    rw [(CCoinsViewCache.unspent_eq_some_iff.mp (h.spent e he)).1]
  have hmap := map_eq_map_of_zip (f := fun o => (view.accessCoin o).out.nValue)
    (g := fun coin => coin.out.nValue) h.length_undo hvalue
  rw [coinsValue, ← hmap, inputs, if_pos hspends, map_map]
  rfl

/-- A transaction of another kind spends no coins of the UTXO set. -/
lemma undo_eq_nil
    (hspends : tx.spendsCoins = false) (h : TxEffect txid tx nHeight undo u v) : undo = [] := by
  have hlength := h.length_undo
  rw [inputs, hspends, if_neg (by decide)] at hlength
  exact length_eq_zero_iff.mp hlength

lemma totalFees_cons {vtx : List CTransaction} :
    totalFees crypto (tx :: vtx) (undo :: undos) =
      fee crypto tx undo + totalFees crypto vtx undos := by
  rw [totalFees, zipWith_cons_cons, sum_cons]
  rfl

lemma sigmaSpendValue_of_not (h : tx.isSigmaSpend = false) : sigmaSpendValue crypto tx = 0 := by
  rw [sigmaSpendValue, h, if_neg (by decide)]

lemma sigmaSpendValue_nonneg (crypto : Crypto) (tx : CTransaction) :
    0 ≤ sigmaSpendValue crypto tx := by
  unfold sigmaSpendValue
  split_ifs
  · refine sum_nonneg (forall_mem_map.mpr (fun txin _ => ?_))
    rw [inputDenomination]
    cases crypto.readCoinSpend (txin.scriptSig.drop 1) with
    | none => exact Int.le_refl 0
    | some spend => exact Int.le_of_lt (denominationToInteger_pos _)
  · exact Int.le_refl 0

/-- One round adds the fee of its transaction, which is negative for a sigma spend at most, and then
    not by much. -/
lemma Round.fee_added {isFirst : Bool} (hround : Round env st nHeight isFirst tx undo s s')
    (heffect : TxEffect (env.crypto.getHash tx) tx nHeight undo s.view.unspent v)
    (hx : s.nFees = wrap64 x) :
    s'.nFees = wrap64 (x + fee env.crypto tx undo) ∧
      fee env.crypto tx undo ≥ -(MAX_MONEY * ((if tx.isSigmaSpend then 1 else 0 : Nat) : Int)) := by
  cases hsigma : tx.isSigmaSpend with
  | true =>
    obtain ⟨nValueOut, c, c', hvalue, hfees, hcheck⟩ := hround.fees.sigma hsigma
    obtain ⟨hout, hnonneg, hmax⟩ := getValueOut_eq hvalue
    have hspends : tx.spendsCoins = false := by
      cases hspends : tx.spendsCoins with
      | false => rfl
      | true =>
        rw [not_isSigmaSpend_of_spendsCoins hspends] at hsigma
        cases hsigma
    have hfee : fee env.crypto tx undo = sigmaSpendValue env.crypto tx - valueOut tx := by
      rw [fee, paysFee, hsigma, Bool.true_or, if_pos rfl, undo_eq_nil hspends heffect,
        coinsValue_nil, Int.zero_add]
    have hspendValue := sigmaSpendValue_nonneg env.crypto tx
    constructor
    · -- the fees are added in 64 bits, so only the last sum has to be wrapped
      rw [hfees, getSigmaSpendInput_eq hsigma hcheck, hout, hfee, hx, wrap64_wrap64_add,
        Int.add_comm, wrap64_wrap64_add, Int.add_comm]
    · rw [hout, MAX_MONEY_eq] at hmax
      rw [hfee, if_pos rfl, MAX_MONEY_eq]
      omega
  | false =>
    rw [if_neg (by decide), Int.natCast_zero, Int.mul_zero, Int.neg_zero]
    cases hspends : tx.spendsCoins with
    | true =>
      obtain ⟨nValueOut, hvalue, hfees, hchecked⟩ := hround.fees.ordinary hspends
      obtain ⟨hout, -, -⟩ := getValueOut_eq hvalue
      obtain ⟨hin, hbelow⟩ := checkTxInputs_ok hspends hchecked
      have hfee : fee env.crypto tx undo = inputsValue s.view tx.vin - valueOut tx := by
        rw [fee, paysFee, hspends, Bool.or_true, if_pos rfl, coinsValue_undo hspends heffect,
          sigmaSpendValue_of_not hsigma, Int.add_zero]
      rw [hfees, hin, hout, hfee, hx, wrap64_wrap64_add, Int.add_comm, wrap64_wrap64_add,
        Int.add_comm]
      exact ⟨rfl, by omega⟩
    | false =>
      have hfee : fee env.crypto tx undo = 0 := by
        rw [fee, paysFee, hsigma, hspends]
        rfl
      rw [hfee, Int.add_zero, hround.fees.other hsigma hspends]
      exact ⟨hx, Int.le_refl 0⟩

/-- The rounds add up the fees; each sigma spend lowers the sum by `MAX_MONEY` at most. -/
lemma Rounds.fees_added (hheight : 0 ≤ nHeight) (h : Rounds env st nHeight vtx undos s s')
    (hpending : Pending env block s) (hsub : ∀ tx ∈ vtx, tx ∈ block)
    (hwf : ∀ tx ∈ vtx, WellFormed tx) (hx : s.nFees = wrap64 x) :
    s'.nFees = wrap64 (x + totalFees env.crypto vtx undos) ∧
      totalFees env.crypto vtx undos ≥
        -(MAX_MONEY * (vtx.countP isSigmaSpend : Nat)) := by
  rw [MAX_MONEY_eq]
  -- induction on the rounds, with the exact sum `x` of the fees so far
  induction h generalizing x with
  | nil s =>
    rw [totalFees, zipWith_nil_left, sum_nil, Int.add_zero]
    exact ⟨hx, by simp⟩
  | cons round _ ih =>
    obtain ⟨heffect, -, hnext⟩ := round.effect hheight hpending
      (hsub _ (.head _)) (hwf _ (.head _))
    obtain ⟨hfirst, hlow⟩ := round.fee_added heffect hx
    rw [MAX_MONEY_eq] at hlow
    obtain ⟨hrest, hbounds⟩ := ih hnext (forall_mem_cons.mp hsub).2
      (forall_mem_cons.mp hwf).2 hfirst
    rw [hrest, totalFees_cons, countP_cons]
    exact ⟨by rw [Int.add_assoc], by omega⟩

/-- The fees are what comes in and is not paid out by a transaction with a fee of its own. -/
lemma Effects.totalFees_eq {getHash : CTransaction → Uint256}
    (h : Effects getHash nHeight vtx undos u w) :
    totalFees crypto vtx undos = coinsValue undos.flatten +
      (vtx.map (sigmaSpendValue crypto)).sum - ((vtx.filter paysFee).map valueOut).sum := by
  induction h with
  | nil _ => rfl
  | @cons tx vtx undo undos u v w effect _ _ ih =>
    have hflatten : coinsValue (undo :: undos).flatten =
        coinsValue undo + coinsValue undos.flatten := by
      rw [flatten_cons, coinsValue_append]
    rw [totalFees_cons, ih, hflatten, map_cons, sum_cons, fee]
    cases hpays : paysFee tx with
    | true =>
      rw [filter_cons_of_pos hpays, map_cons, sum_cons, if_pos rfl]
      omega
    | false =>
      have hkinds := Bool.or_eq_false_iff.mp hpays
      rw [filter_cons_of_neg (by rw [hpays]; decide), if_neg (by decide),
        sigmaSpendValue_of_not hkinds.1, undo_eq_nil hkinds.2 effect, coinsValue_nil]
      omega

end Fees

/-! ## The block -/

section Block

variable {fJustCheck : Bool} {pindex : BlockId} {block : CBlock env} {s : ChainState}
  {c : Connected}

lemma getBlockSubsidy_nonneg {chainType : ChainType} :
    0 ≤ getBlockSubsidy (.ofChain chainType) nHeight := by
  unfold getBlockSubsidy
  simp only
  split_ifs
  · exact Int.le_refl 0
  · cases chainType <;> decide
  · exact Int.le_refl 0
  · exact Int.ediv_nonneg (by decide) (Int.pow_nonneg (by decide))

/-- The coinbase pays out no more than the fees and the subsidy, as the 64-bit sum has them. -/
lemma checkReward_ok {nFees : CAmount} (h : checkReward env ctx nHeight coinbase nFees = .ok ()) :
    0 ≤ valueOut coinbase ∧
      valueOut coinbase ≤ wrap64 (nFees + getBlockSubsidy env.params nHeight) := by
  revert h
  fun_cases checkReward with
  | case5 _ _ nValueOut hvalue hlimit =>
    intro _
    obtain ⟨hout, hnonneg, -⟩ := getValueOut_eq hvalue
    rw [← hout]
    exact ⟨hnonneg, not_lt.mp hlimit⟩
  | _ => exact nofun

/-- The exact sum of the fees of an accepted block: the loop keeps it modulo `2 ^ 64`, and it is far
    above `-2 ^ 63`. -/
lemma Accepted.fees (h : Accepted env ctx fJustCheck pindex block s c)
    (hheight : 0 ≤ pindex.nHeight) :
    ∃ undo, Effects env.crypto.getHash pindex.nHeight block.vtx (undo :: c.vtxundo) s.view.unspent
        c.view.unspent ∧
      c.nFees = wrap64 (totalFees env.crypto block.vtx (undo :: c.vtxundo)) ∧
      totalFees env.crypto block.vtx (undo :: c.vtxundo) ≥ -(50 * MAX_MONEY) := by
  obtain ⟨coinbase, rest, undo, start, next, last, hrun⟩ := h.run
  have hwf := h.passed.wellFormed
  obtain ⟨heffect, hnext, heffects, -⟩ := hrun.effects hheight hwf
  refine ⟨undo, heffects, ?_⟩
  have hcount := countP_le_of_checkSigmaBlock hrun.sigmaBlock
  have hlimit : env.params.nMaxSigmaInputPerBlock = 50 :=
    (Params.sigmaInputLimits env.chainType).2
  rw [hrun.vtx] at hwf hnext hcount ⊢
  have hzero : start.nFees = wrap64 0 := hrun.noFees.trans (by decide)
  obtain ⟨hfirst, hlow⟩ := hrun.first.fee_added heffect hzero
  obtain ⟨hlast, hlowRest⟩ := hrun.others.fees_added hheight hnext
    (fun tx htx => mem_cons_of_mem _ htx) (forall_mem_cons.mp hwf).2 hfirst
  rw [totalFees_cons]
  constructor
  · rw [hrun.nFees, hlast, Int.zero_add]
  · rw [MAX_MONEY_eq] at hlow hlowRest ⊢
    rw [countP_cons, hlimit] at hcount
    omega

/-- In a block without zerocoin spends and remints, only a coinbase has no fee of its own. -/
lemma paysFee_of_not_coinbase (hcoinbase : tx.isCoinBase = false)
    (hspend : tx.isZerocoinSpend = false) (hremint : tx.isZerocoinRemint = false) :
    paysFee tx = true := by
  rw [paysFee, spendsCoins, isPrivacySpend, hcoinbase, hspend, hremint]
  cases tx.isSigmaSpend <;> rfl

/-- What the transactions of a block bring in: the coins they spend and the denominations of their
    sigma spends. -/
def valueIn (env : TxEnv) (nHeight : Int) (u : PartialMap COutPoint Coin)
    (vtx : List CTransaction) : Int :=
  coinsValue (spentCoins env.crypto.getHash nHeight u vtx) +
    (vtx.map (sigmaSpendValue env.crypto)).sum

lemma inputs_of_isCoinBase (h : tx.isCoinBase = true) : inputs tx = [] := by
  rw [inputs, spendsCoins, h]
  rfl

lemma valueIn_coinbase_nonneg (env : TxEnv) (nHeight : Int) (u : PartialMap COutPoint Coin)
    (h : coinbase.isCoinBase = true) : 0 ≤ valueIn env nHeight u [coinbase] := by
  rw [valueIn, spentCoins, spentCoins, inputs_of_isCoinBase h, map_singleton, sum_singleton]
  have hsigma := sigmaSpendValue_nonneg env.crypto coinbase
  rw [filterMap_nil, append_nil, coinsValue_nil]
  omega

lemma WellFormed.valueOut_nonneg (h : WellFormed tx) : 0 ≤ valueOut tx :=
  sum_nonneg (forall_mem_map.mpr h.nonneg)

/-- The limit on the coinbase of an accepted block, with the wrapped sum of the fees replaced by the
    exact one. -/
lemma Accepted.reward_le (h : Accepted env ctx fJustCheck pindex block s c)
    (hheight : 0 ≤ pindex.nHeight) :
    ∃ coinbase rest, block.vtx = coinbase :: rest ∧
      valueOut coinbase + ((block.vtx.filter paysFee).map valueOut).sum ≤
        valueIn env pindex.nHeight s.view.unspent block.vtx +
          getBlockSubsidy env.params pindex.nHeight := by
  obtain ⟨undo, heffects, hfees, hlow⟩ := h.fees hheight
  obtain ⟨coinbase, rest, _, _, _, last, hrun⟩ := h.run
  refine ⟨coinbase, rest, hrun.vtx, ?_⟩
  have hsubsidy : (0 : Int) ≤ getBlockSubsidy env.params pindex.nHeight :=
    getBlockSubsidy_nonneg
  obtain ⟨hnonneg, hlimit⟩ := checkReward_ok hrun.reward
  rw [← hrun.nFees, hfees, wrap64_wrap64_add] at hlimit
  rw [MAX_MONEY_eq] at hlow
  have hexact := hlimit.trans (wrap64_le (by omega))
  rw [heffects.totalFees_eq] at hexact
  rw [valueIn, heffects.spentCoins_eq]
  omega

/-- An accepted block pays out at most what it brings in and the subsidy, as integers. The fees the
    code has summed up are exact unless the block brings in `2 ^ 63` or more. -/
theorem block_conserves_value (hheight : 0 ≤ pindex.nHeight)
    (hkinds : ∀ tx ∈ block.vtx, tx.isZerocoinSpend = false ∧ tx.isZerocoinRemint = false)
    (hgenesis : block.hash = ctx.hashGenesisBlock →
      ∃ coinbase, block.vtx = [coinbase] ∧ valueOut coinbase = 0)
    (h : connectBlock env ctx fJustCheck pindex block s = .ok c) :
    (block.vtx.map valueOut).sum ≤
        valueIn env pindex.nHeight s.view.unspent block.vtx +
          getBlockSubsidy env.params pindex.nHeight ∧
      (block.hash ≠ ctx.hashGenesisBlock →
        valueIn env pindex.nHeight s.view.unspent block.vtx < 2 ^ 63 →
        c.nFees = valueIn env pindex.nHeight s.view.unspent block.vtx -
          ((block.vtx.filter paysFee).map valueOut).sum) := by
  rcases connectBlock_ok h with ⟨hhash, -, -, hpassed⟩ | haccepted
  · refine ⟨?_, fun hother => absurd hhash hother⟩
    obtain ⟨coinbase, hvtx, hzero⟩ := hgenesis hhash
    have hsubsidy : (0 : Int) ≤ getBlockSubsidy env.params pindex.nHeight :=
      getBlockSubsidy_nonneg
    have hin := valueIn_coinbase_nonneg env pindex.nHeight s.view.unspent (hpassed.coinbase hvtx).1
    rw [hvtx, map_singleton, sum_singleton, hzero]
    omega
  · refine ⟨?_, ?_⟩
    · obtain ⟨coinbase, rest, hvtx, hlimit⟩ := haccepted.reward_le hheight
      obtain ⟨-, hothers⟩ := haccepted.passed.coinbase hvtx
      have hcoinbase := haccepted.passed.wellFormed coinbase (hvtx ▸ .head _)
      have hnonneg := hcoinbase.valueOut_nonneg
      rw [hvtx] at hkinds hlimit ⊢
      have hrest : rest.filter paysFee = rest := by
        apply filter_eq_self.mpr
        intro tx htx
        obtain ⟨hspend, hremint⟩ := hkinds tx (.tail _ htx)
        exact paysFee_of_not_coinbase (hothers tx htx) hspend hremint
      rw [filter_cons, hrest] at hlimit
      rw [map_cons, sum_cons]
      split_ifs at hlimit with hsigma
      · -- a coinbase that is a sigma spend too has been counted among the fees
        rw [map_cons, sum_cons] at hlimit
        omega
      · exact hlimit
    · intro _ hsmall
      obtain ⟨undo, heffects, hfees, hlow⟩ := haccepted.fees hheight
      have hout : 0 ≤ ((block.vtx.filter paysFee).map valueOut).sum :=
        sum_nonneg (forall_mem_map.mpr (fun tx htx =>
          (haccepted.passed.wellFormed tx (mem_of_mem_filter htx)).valueOut_nonneg))
      rw [MAX_MONEY_eq] at hlow
      rw [valueIn, heffects.spentCoins_eq] at hsmall ⊢
      rw [hfees]
      rw [heffects.totalFees_eq] at hlow ⊢
      apply wrap64_of_range <;> omega

open Validation.Sample in
theorem block_conserves_value_sigma :
    ∃ c, connectSigmaBlock 0 0 = .ok c ∧
      ((sigmaBlock 0 0).vtx.map valueOut).sum ≤
        valueIn testEnv 2 oneMint.view.unspent (sigmaBlock 0 0).vtx +
          getBlockSubsidy testEnv.params 2 := by
  have hkinds : ∀ tx ∈ (sigmaBlock 0 0).vtx,
      tx.isZerocoinSpend = false ∧ tx.isZerocoinRemint = false := by
    decide
  obtain ⟨c, hc⟩ := exists_ok (x := connectSigmaBlock 0 0) (by decide +kernel)
  exact ⟨c, hc, (block_conserves_value (by decide) hkinds (fun h => absurd h (by decide)) hc).1⟩

/-! ## A single sigma spend -/

/-- What the coinbase leaves of the subsidy and of the fees of the transactions other than `tx`.
    The outputs of `tx` do not enter. -/
def unclaimed (env : TxEnv) (nHeight : Int) (u : PartialMap COutPoint Coin)
    (vtx : List CTransaction) (tx : CTransaction) : Int :=
  getBlockSubsidy env.params nHeight + coinsValue (spentCoins env.crypto.getHash nHeight u vtx) +
    ((vtx.erase tx).map (sigmaSpendValue env.crypto)).sum -
      (((vtx.erase tx).filter paysFee).map valueOut).sum - ((vtx.map valueOut).headD 0)

/-- A sigma spend of an accepted block pays out at most its denominations and what the rest of the
    block leaves unclaimed: no other test of `ConnectBlock` compares the two. -/
lemma Accepted.spend_le (h : Accepted env ctx fJustCheck pindex block s c)
    (hheight : 0 ≤ pindex.nHeight) (htx : tx ∈ block.vtx) (hspend : tx.isSigmaSpend = true) :
    valueOut tx ≤ sigmaSpendValue env.crypto tx +
      unclaimed env pindex.nHeight s.view.unspent block.vtx tx := by
  obtain ⟨coinbase, rest, hvtx, hlimit⟩ := h.reward_le hheight
  have hperm := perm_cons_erase htx
  have hin : (block.vtx.map (sigmaSpendValue env.crypto)).sum = sigmaSpendValue env.crypto tx +
      ((block.vtx.erase tx).map (sigmaSpendValue env.crypto)).sum := by
    rw [(hperm.map _).sum_eq, map_cons, sum_cons]
  have hout : ((block.vtx.filter paysFee).map valueOut).sum = valueOut tx +
      (((block.vtx.erase tx).filter paysFee).map valueOut).sum := by
    rw [((hperm.filter paysFee).map _).sum_eq,
      filter_cons_of_pos (by rw [paysFee, hspend]; rfl), map_cons, sum_cons]
  have hhead : (block.vtx.map valueOut).headD 0 = valueOut coinbase := by
    rw [hvtx]
    rfl
  rw [valueIn, hin, hout] at hlimit
  rw [unclaimed, hhead]
  omega

end Block

open Validation.Sample in
/-- One unit is left unclaimed, and the spend of one coin pays out one unit more. -/
lemma sigmaBlock_spends_unclaimed :
    ∃ c, connectSigmaBlock 1 1 = .ok c ∧
      ∃ tx ∈ (sigmaBlock 1 1).vtx, tx.isSigmaSpend = true ∧
        unclaimed testEnv 2 oneMint.view.unspent (sigmaBlock 1 1).vtx tx = 1 ∧
        valueOut tx = sigmaSpendValue testEnv.crypto tx + 1 := by
  obtain ⟨c, hc⟩ := exists_ok (x := connectSigmaBlock 1 1) (by decide +kernel)
  exact ⟨c, hc, by decide +kernel⟩

/-- The sigma spends of every accepted block in which at most `room` is unclaimed are covered by
    their denominations, exactly when there is no room. -/
theorem sigma_spends_covered_iff {room : Int} :
    (∀ {env : TxEnv} {ctx : ConnectContext} {fJustCheck : Bool} {pindex : BlockId}
        {block : CBlock env} {s : ChainState} {c : Connected}, 0 ≤ pindex.nHeight →
      (block.hash = ctx.hashGenesisBlock →
        ∃ coinbase, block.vtx = [coinbase] ∧ valueOut coinbase = 0) →
      connectBlock env ctx fJustCheck pindex block s = .ok c →
      ∀ tx ∈ block.vtx, tx.isSigmaSpend = true →
        unclaimed env pindex.nHeight s.view.unspent block.vtx tx ≤ room →
        valueOut tx ≤ sigmaSpendValue env.crypto tx) ↔ room ≤ 0 := by
  constructor
  · intro hcovered
    by_contra hroom
    obtain ⟨c, hc, tx, htx, hspend, hunclaimed, hout⟩ := sigmaBlock_spends_unclaimed
    have hle := hcovered (by decide) (fun h => absurd h (by decide)) hc tx htx hspend
      (hunclaimed.trans_le (by omega))
    omega
  · intro hroom env ctx fJustCheck pindex block s c hheight hgenesis h tx htx hspend hunclaimed
    rcases connectBlock_ok h with ⟨hhash, -, -, -⟩ | haccepted
    · obtain ⟨coinbase, hvtx, hzero⟩ := hgenesis hhash
      rw [hvtx, mem_singleton] at htx
      rw [htx, hzero]
      exact sigmaSpendValue_nonneg _ _
    · have hle := haccepted.spend_le hheight htx hspend
      omega

open Validation.Sample in
/-- A coinbase that claims the whole subsidy leaves nothing to the spend. -/
theorem sigma_spends_covered_iff_claimed :
    ∃ c, connectSigmaBlock 0 0 = .ok c ∧
      ∃ tx ∈ (sigmaBlock 0 0).vtx, tx.isSigmaSpend = true ∧
        valueOut tx ≤ sigmaSpendValue testEnv.crypto tx := by
  obtain ⟨c, hc⟩ := exists_ok (x := connectSigmaBlock 0 0) (by decide +kernel)
  obtain ⟨tx, htx, hspend, hunclaimed⟩ : ∃ tx ∈ (sigmaBlock 0 0).vtx, tx.isSigmaSpend = true ∧
      unclaimed testEnv 2 oneMint.view.unspent (sigmaBlock 0 0).vtx tx ≤ 0 := by
    decide +kernel
  exact ⟨c, hc, tx, htx, hspend, sigma_spends_covered_iff.mpr (Int.le_refl 0) (by decide)
    (fun h => absurd h (by decide)) hc tx htx hspend hunclaimed⟩

open Validation.Sample in
/-- A block is accepted whose sigma spend of one coin pays out two. -/
theorem overpaying_spend_accepted :
    ∃ c, connectSigmaBlock COIN COIN = .ok c ∧
      ∃ tx ∈ (sigmaBlock COIN COIN).vtx, tx.isSigmaSpend = true ∧
        sigmaSpendValue testEnv.crypto tx < valueOut tx := by
  obtain ⟨c, hc⟩ := exists_ok (x := connectSigmaBlock COIN COIN) (by decide +kernel)
  exact ⟨c, hc, by decide +kernel⟩

end Tecracoin.Validation
