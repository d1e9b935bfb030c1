/-
  What an accepted block does to the unspent coins.  `connectTransaction_ok`
  takes one round of the loop of `ConnectBlock` apart; `Effects` chains what the
  transactions do, each on the coins the ones before it have left, together with
  the undo data; `connectAll_effects` and `connectBlock_ok` are the loop and the
  call.
-/
import Tecracoin.Sigma.CheckSpec
import Tecracoin.Validation.ConnectBlock

namespace Tecracoin.Validation

open Data Tecracoin.Sigma Coins PartialMap Eff List

variable {vtx : List CTransaction} {view : CCoinsViewCache} {s s' : CheckState}
  {undos : List (List Coin)} {u : Unit} {isFirst : Bool} {st : CSigmaState} {tx : CTransaction}
  {nHeight : Int} {env : TxEnv} {ctx : ConnectContext}

/-- The transactions one after the other, with the coins each of them spends. No output of a
    transaction exists before it. -/
inductive Effects (getHash : CTransaction → Uint256) (nHeight : Int) :
    List CTransaction → List (List Coin) → PartialMap COutPoint Coin →
      PartialMap COutPoint Coin → Prop
  | nil (u : PartialMap COutPoint Coin) : Effects getHash nHeight [] [] u u
  | cons {tx : CTransaction} {vtx : List CTransaction} {undo : List Coin}
      {undos : List (List Coin)} {u v w : PartialMap COutPoint Coin}
      (effect : TxEffect (getHash tx) tx nHeight undo u v)
      (fresh : ∀ out ∈ outputs (getHash tx) tx, u out.1 = none)
      (rest : Effects getHash nHeight vtx undos v w) :
      Effects getHash nHeight (tx :: vtx) (undo :: undos) u w

/-- An outpoint of another transaction can only be spent. -/
lemma Effects.of_other {getHash : CTransaction → Uint256} {u w : PartialMap COutPoint Coin}
    (h : Effects getHash nHeight vtx undos u w) {o : COutPoint}
    (ho : ∀ tx ∈ vtx, getHash tx ≠ o.hash) : w o = u.without (vtx.flatMap inputs) o := by
  induction h with
  | nil u => rw [flatMap_nil, without_nil]
  | @cons tx vtx undo undos u v w effect _ _ ih =>
    have hnew := (ho tx (.head _)).symm
    have hv : v o = u.without (inputs tx) o := by
      rw [effect.result, extend_of_notMem (notMem_newCoins hnew)]
    rw [ih (forall_mem_cons.mp ho).2, flatMap_cons, without_append]
    show (if o ∈ vtx.flatMap inputs then none else v o) = if o ∈ vtx.flatMap inputs then none else _
    rw [hv]

/-! ## What CheckBlock leaves to rely on -/

/-- What the transaction checks of `CheckBlock` say about a transaction by itself. -/
structure WellFormed (tx : CTransaction) : Prop where
  size : tx.vout.length < 2 ^ 32
  nonneg : ∀ txout ∈ tx.vout, 0 ≤ txout.nValue
  inRange : tx.getValueOut.isSome = true
  nodup : (inputs tx).Nodup

lemma wellFormed_of_checkTransaction {flags : CheckFlags}
    (h : checkTransaction env st true flags tx s = .ok u s') : WellFormed tx := by
  obtain ⟨hsize, houts, hdup, -⟩ := checkTransaction_ok h
  refine ⟨length_vout_lt_of_checkTxSize hsize, nonneg_of_checkTxOutputs houts,
    isSome_of_checkTxOutputs houts, ?_⟩
  unfold inputs
  split_ifs with hspends
  · have hprivacy : tx.isPrivacySpend = false := by
      rw [CTransaction.spendsCoins, Bool.and_eq_true, Bool.not_eq_true'] at hspends
      simpa using hspends.2
    exact prevouts_nodup_of_checkDuplicateInputs hprivacy (hdup rfl)
  · exact nodup_nil

lemma checked_of_checkBlockTransactions {isVerifyDB : Bool}
    (h : checkBlockTransactions env st isVerifyDB nHeight vtx s = .ok u s') :
    ∀ tx ∈ vtx, ∃ flags s s', checkTransaction env st true flags tx s = .ok () s' := by
  induction vtx generalizing s with
  | nil => exact fun tx htx => (nomatch htx)
  | cons tx vtx ih =>
    obtain ⟨_, s1, hfirst, hrest⟩ := bind_ok_iff.mp h
    intro tx' htx'
    rcases mem_cons.mp htx' with rfl | htx'
    · exact ⟨_, s, s1, hfirst⟩
    · exact ih hrest tx' htx'

section

variable (h : PassedCheckBlock env vtx)
include h

lemma PassedCheckBlock.checked (htx : tx ∈ vtx) :
    ∃ st flags s s', checkTransaction env st true flags tx s = .ok () s' := by
  obtain ⟨-, st, isVerifyDB, nHeight, s, s', hchecks⟩ := h
  exact ⟨st, checked_of_checkBlockTransactions hchecks tx htx⟩

lemma PassedCheckBlock.wellFormed : ∀ tx ∈ vtx, WellFormed tx := by
  intro tx htx
  obtain ⟨_, _, _, _, hcheck⟩ := h.checked htx
  exact wellFormed_of_checkTransaction hcheck

lemma PassedCheckBlock.coinbase {rest : List CTransaction} {coinbase : CTransaction}
    (hvtx : vtx = coinbase :: rest) :
    coinbase.isCoinBase = true ∧ ∀ tx ∈ rest, tx.isCoinBase = false := by
  obtain ⟨hfirst, -⟩ := h
  rw [hvtx, coinbaseFirst, Bool.and_eq_true, Bool.not_eq_true', any_eq_false] at hfirst
  refine ⟨hfirst.1, ?_⟩
  intro tx htx
  simpa using hfirst.2 tx htx

end

/-! ## One round of the loop -/

section Block

variable {s s' : ConnectBlockState}

lemma onCheck_ok_iff {m : Eff Failure CheckState Unit} :
    onCheck m s = .ok u s' ↔ ∃ c, m s.check = .ok () c ∧ s' = { s with check := c } := by
  unfold onCheck
  cases hm : m s.check with
  | ok _ c =>
    simp only [EStateM.Result.ok.injEq, true_and]
    constructor
    · rintro rfl
      exact ⟨c, rfl, rfl⟩
    · rintro ⟨c', rfl, rfl⟩
      rfl
  | error e c => simp

lemma addFees_ok_iff {nValueIn : CAmount} :
    addFees nValueIn tx s = .ok u s' ↔ ∃ nValueOut, tx.getValueOut = some nValueOut ∧
      s' = { s with nFees := wrap64 (s.nFees + wrap64 (nValueIn - nValueOut)) } := by
  unfold addFees
  cases tx.getValueOut with
  | none => simp
  | some nValueOut => simp

section
variable (env : TxEnv) (st : CSigmaState) (nHeight : Int) (tx : CTransaction)
  (s : ConnectBlockState) (nFees : CAmount)

/-- What a sigma spend adds to the fees. -/
def SigmaFees : Prop :=
  ∃ nValueOut c c', tx.getValueOut = some nValueOut ∧
    nFees = wrap64 (s.nFees + wrap64 (getSigmaSpendInput env.crypto tx - nValueOut)) ∧
    checkTransaction env st false (connectFlags nHeight (env.crypto.getHash tx)) tx c = .ok () c'

/-- The amount the loop adds to the fees for a transaction, and the checks the transaction has
    passed for it. -/
structure FeesAdded : Prop where
  sigma : tx.isSigmaSpend = true → SigmaFees env st nHeight tx s nFees
  ordinary : tx.spendsCoins = true → ∃ nValueOut, tx.getValueOut = some nValueOut ∧
    nFees = wrap64 (s.nFees + wrap64 (s.view.getValueIn tx - nValueOut)) ∧
    checkTxInputs s.view nHeight tx = .ok ()
  other : tx.isSigmaSpend = false → tx.spendsCoins = false → nFees = s.nFees

end

/-- The info of the block is there and still open. -/
def InfoOpen (c : CheckState) : Prop :=
  ∃ info, c.sigmaTxInfo = some info ∧ info.fInfoIsComplete = false

lemma infoOpen_of_checkTransaction {hashTx : Uint256} {c c' : CheckState} (hopen : InfoOpen c)
    (h : checkTransaction env st false (connectFlags nHeight hashTx) tx c = .ok u c') :
    InfoOpen c' := by
  by_cases hkind : tx.isCoinBase = true ∨ tx.isZerocoinV3SigmaTransaction = false
  · rw [checkTransaction_unchanged hkind h]
    exact hopen
  · rw [not_or, Bool.not_eq_true, Bool.not_eq_false] at hkind
    obtain ⟨info, hinfo, hinfoOpen⟩ := hopen
    obtain ⟨-, -, -, hsigma⟩ := checkTransaction_ok h
    obtain ⟨-, hcheck⟩ := hsigma hkind.1 hkind.2
    obtain ⟨info', hinfo', hrecorded, -⟩ := checkSigmaTransaction_ok hinfo hinfoOpen hcheck
    exact ⟨info', hinfo', hrecorded.isOpen⟩

lemma not_isSigmaSpend_of_spendsCoins (h : tx.spendsCoins = true) : tx.isSigmaSpend = false := by
  simp only [CTransaction.spendsCoins, CTransaction.isPrivacySpend, Bool.and_eq_true,
    Bool.not_eq_true', Bool.or_eq_false_iff] at h
  exact h.2.1.2

/-- A round that passes: the fees, the info and the coins have moved on, and the transaction is
    recorded. -/
structure Round (env : TxEnv) (st : CSigmaState) (nHeight : Int) (isFirst : Bool)
    (tx : CTransaction) (undo : List Coin) (s s' : ConnectBlockState) : Prop where
  /-- On every network a second transaction of one id is refused. -/
  notDuplicate : 0 ≤ nHeight → env.crypto.getHash tx ∉ s.txIds
  haveInputs : s.view.haveInputs tx = true
  updated : 0 ≤ nHeight →
    s.view.updateCoins (env.crypto.getHash tx) tx nHeight = .ok (undo, s'.view)
  fees : FeesAdded env st nHeight tx s s'.nFees
  infoOpen : InfoOpen s.check → InfoOpen s'.check
  vtxundo : s'.vtxundo = if isFirst then s.vtxundo else s.vtxundo ++ [undo]
  txIds : s'.txIds = env.crypto.getHash tx :: s.txIds

lemma haveInputs_of_checkInputsFinal
    (h : checkInputsFinal ctx tx view = .ok ()) : view.haveInputs tx = true := by
  unfold checkInputsFinal at h
  split_ifs at h with hhave
  · simpa using hhave

/-- Nothing to ask about a transaction without outpoints in the UTXO set. -/
lemma haveInputs_of_not_spendsCoins (h : tx.spendsCoins = false) : view.haveInputs tx = true := by
  rw [CCoinsViewCache.haveInputs, h]
  rfl

/-- The part of a round between the first checks and the coins: it changes nothing but the fees and
    the info. -/
lemma checkAgainstMints_ok
    (h : Eff.when (isZerocoinOrSigma tx) (checkAgainstMints env st nHeight tx) s = .ok u s') :
    ∃ nFees c, s' = { s with nFees := nFees, check := c } ∧ (InfoOpen s.check → InfoOpen c) ∧
      (tx.isSigmaSpend = true → SigmaFees env st nHeight tx s nFees) ∧
      (tx.isSigmaSpend = false → nFees = s.nFees) := by
  rcases when_ok_iff.mp h with ⟨-, h⟩ | ⟨hkind, rfl⟩
  case inr =>
    exact ⟨_, _, rfl, id, fun hyes => by simp [isZerocoinOrSigma, hyes] at hkind, fun _ => rfl⟩
  simp only [checkAgainstMints, bind_ok_iff, when_ok_iff, tryCatch_throw_ok_iff,
    addFees_ok_iff, onCheck_ok_iff] at h
  obtain ⟨_, s1, hfees, c, hcheck, rfl⟩ := h
  have hopen : InfoOpen s1.check → InfoOpen c := fun h => infoOpen_of_checkTransaction h hcheck
  rcases hfees with ⟨hsigma, nValueOut, hvalue, rfl⟩ | ⟨hsigma, rfl⟩
  · exact ⟨_, c, rfl, hopen, fun _ => ⟨nValueOut, s.check, c, hvalue, rfl, hcheck⟩,
      fun hno => by cases hsigma.symm.trans hno⟩
  · exact ⟨_, c, rfl, hopen, fun hyes => (by cases hsigma.symm.trans hyes), fun _ => rfl⟩

lemma checkInputs_ok (h : checkInputs ctx nHeight tx view s = .ok u s') :
    ∃ nValueOut, tx.getValueOut = some nValueOut ∧
      s' = { s with nFees := wrap64 (s.nFees + wrap64 (view.getValueIn tx - nValueOut)) } ∧
      checkTxInputs view nHeight tx = .ok () := by
  simp only [checkInputs, bind_ok_iff, lift_ok_iff, addFees_ok_iff] at h
  obtain ⟨_, s1, ⟨nValueOut, hvalue, rfl⟩, _, _, ⟨hinputs, rfl⟩, -, rfl⟩ := h
  exact ⟨nValueOut, hvalue, rfl, hinputs⟩

/-- The middle of a round, for each kind of transaction. -/
lemma middle_ok {s1 s2 : ConnectBlockState} {u1 u2 : Unit}
    (hmints : Eff.when (isZerocoinOrSigma tx) (checkAgainstMints env st nHeight tx) s = .ok u1 s1)
    (hinputs : Eff.when tx.spendsCoins (checkInputs ctx nHeight tx s.view) s1 = .ok u2 s2) :
    ∃ nFees c, s2 = { s with nFees := nFees, check := c } ∧ (InfoOpen s.check → InfoOpen c) ∧
      FeesAdded env st nHeight tx s nFees := by
  obtain ⟨nFees, c, rfl, hopen, hsigma, hother⟩ := checkAgainstMints_ok hmints
  rcases when_ok_iff.mp hinputs with ⟨hspends, hinputs⟩ | ⟨hspends, rfl⟩
  · -- the fee comes from the inputs
    have hno := not_isSigmaSpend_of_spendsCoins hspends
    obtain ⟨nValueOut, hvalue, rfl, hchecked⟩ := checkInputs_ok hinputs
    exact ⟨_, c, rfl, hopen, fun hyes => (by cases hno.symm.trans hyes),
      fun _ => ⟨nValueOut, hvalue, by rw [hother hno], hchecked⟩,
      fun _ habs => by cases hspends.symm.trans habs⟩
  · exact ⟨nFees, c, rfl, hopen, hsigma, fun habs => (by cases hspends.symm.trans habs),
      fun hno _ => hother hno⟩

lemma connectTransaction_ok (h : connectTransaction env ctx st nHeight isFirst tx s = .ok u s') :
    ∃ undo, Round env st nHeight isFirst tx undo s s' := by
  simp only [connectTransaction, bind_ok_iff, get_ok_iff, failIf_ok_iff,
    lift_ok_iff, modify_ok_iff, exists_and_left, exists_eq_left, and_assoc,
    exists_const] at h
  obtain ⟨hdup, _, s1, hfinal, _, s2, hmints, -, _, s3, hinputs, updated, hupdated, rfl⟩ := h
  obtain ⟨rfl, hhave⟩ : s1 = s ∧ s.view.haveInputs tx = true := by
    rcases when_ok_iff.mp hfinal with ⟨-, hfinal⟩ | ⟨hno, rfl⟩
    · obtain ⟨hfinal, rfl⟩ := lift_ok_iff.mp hfinal
      exact ⟨rfl, haveInputs_of_checkInputsFinal hfinal⟩
    · exact ⟨rfl, haveInputs_of_not_spendsCoins hno⟩
  obtain ⟨nFees, c, rfl, hopen, hfees⟩ := middle_ok hmints hinputs
  have hnew : 0 ≤ nHeight → s1.txIds.contains (env.crypto.getHash tx) = false := by
    intro hheight
    rwa [decide_eq_true (show HF_TNODE_HEIGHT ≤ nHeight from hheight), Bool.or_true,
      Bool.and_true] at hdup
  refine ⟨updated.1, fun hheight hmem => ?_, hhave, fun hheight => ?_, hfees, hopen, rfl, rfl⟩
  · cases (hnew hheight).symm.trans (contains_iff_mem.mpr hmem)
  · rw [hnew hheight] at hupdated
    exact hupdated

/-! ## The loop -/

/-- Rounds of transactions after the first one. -/
inductive Rounds (env : TxEnv) (st : CSigmaState) (nHeight : Int) :
    List CTransaction → List (List Coin) → ConnectBlockState → ConnectBlockState → Prop
  | nil (s : ConnectBlockState) : Rounds env st nHeight [] [] s s
  | cons {tx : CTransaction} {vtx : List CTransaction} {undo : List Coin}
      {undos : List (List Coin)} {s s1 s' : ConnectBlockState}
      (round : Round env st nHeight false tx undo s s1)
      (rest : Rounds env st nHeight vtx undos s1 s') :
      Rounds env st nHeight (tx :: vtx) (undo :: undos) s s'

lemma connectTransactions_ok (h : connectTransactions env ctx st nHeight vtx s = .ok u s') :
    ∃ undos, Rounds env st nHeight vtx undos s s' := by
  induction vtx generalizing s with
  | nil =>
    obtain ⟨-, rfl⟩ := pure_ok_iff.mp h
    exact ⟨[], .nil s'⟩
  | cons tx vtx ih =>
    obtain ⟨_, s1, hfirst, hrest⟩ := bind_ok_iff.mp h
    obtain ⟨undo, hround⟩ := connectTransaction_ok hfirst
    obtain ⟨undos, hrounds⟩ := ih hrest
    exact ⟨undo :: undos, .cons hround hrounds⟩

/-- The whole loop: the coinbase, the others, and the limit on the coinbase. -/
lemma connectAll_ok (h : connectAll env ctx st nHeight vtx s = .ok u s') :
    ∃ coinbase rest undo undos s1, vtx = coinbase :: rest ∧
      Round env st nHeight true coinbase undo s s1 ∧ Rounds env st nHeight rest undos s1 s' ∧
      checkReward env ctx nHeight coinbase s'.nFees = .ok () := by
  cases vtx with
  | nil => exact absurd h (by simp [connectAll])
  | cons coinbase rest =>
    simp only [connectAll, bind_ok_iff, failIf_ok_iff, get_ok_iff, lift_ok_iff] at h
    obtain ⟨_, s1, hfirst, _, s2, hrest, _, _, ⟨-, rfl⟩, _, _, ⟨rfl, rfl⟩, hreward, rfl⟩ := h
    obtain ⟨undo, hround⟩ := connectTransaction_ok hfirst
    obtain ⟨undos, hrounds⟩ := connectTransactions_ok hrest
    exact ⟨coinbase, rest, undo, undos, s1, rfl, hround, hrounds, hreward⟩

lemma Rounds.infoOpen (h : Rounds env st nHeight vtx undos s s')
    (hopen : InfoOpen s.check) : InfoOpen s'.check := by
  induction h with
  | nil _ => exact hopen
  | cons round _ ih => exact ih (round.infoOpen hopen)

lemma Rounds.vtxundo (h : Rounds env st nHeight vtx undos s s') :
    s'.vtxundo = s.vtxundo ++ undos := by
  induction h with
  | nil _ => exact (append_nil _).symm
  | cons round _ ih =>
    rw [ih, round.vtxundo, if_neg (by decide), append_assoc, singleton_append]

/-- The view while the transactions of `block` are connected: an output whose transaction has not
    had its turn does not exist. -/
structure Pending (env : TxEnv) (block : List CTransaction) (s : ConnectBlockState) : Prop where
  coherent : s.view.Coherent
  fresh : ∀ tx ∈ block, env.crypto.getHash tx ∉ s.txIds →
    ∀ out ∈ outputs (env.crypto.getHash tx) tx, s.view.unspent out.1 = none

variable {block : List CTransaction}

/-- One round takes effect on the coins; its outputs are new. -/
lemma Round.effect {undo : List Coin} (hheight : 0 ≤ nHeight)
    (hround : Round env st nHeight isFirst tx undo s s') (hpending : Pending env block s)
    (hmem : tx ∈ block) (hwf : WellFormed tx) :
    TxEffect (env.crypto.getHash tx) tx nHeight undo s.view.unspent s'.view.unspent ∧
      (∀ out ∈ outputs (env.crypto.getHash tx) tx, s.view.unspent out.1 = none) ∧
      Pending env block s' := by
  have hnew := hpending.fresh tx hmem (hround.notDuplicate hheight)
  have hhave : ∀ prevout ∈ inputs tx, s.view.unspent prevout ≠ none := by
    intro prevout hprevout
    have hinputs := hround.haveInputs
    unfold inputs at hprevout
    split_ifs at hprevout with hspends
    · rw [CCoinsViewCache.haveInputs, hspends, Bool.not_true, Bool.false_or, all_eq_true] at hinputs
      obtain ⟨txin, htxin, rfl⟩ := mem_map.mp hprevout
      have hcoin := hinputs txin htxin
      rw [CCoinsViewCache.haveCoin_eq] at hcoin
      exact Option.isSome_iff_ne_none.mp hcoin
    · cases hprevout
  obtain ⟨heffect, hcoherent⟩ := CCoinsViewCache.updateCoins_effect hpending.coherent hwf.size
    hwf.nodup hhave hnew (hround.updated hheight)
  refine ⟨heffect, hnew, hcoherent, ?_⟩
  intro tx' htx' hnotin out hout
  rw [hround.txIds, mem_cons, not_or] at hnotin
  have hother : out.1.hash ≠ env.crypto.getHash tx := by
    rw [hash_of_mem_outputs hout]
    exact hnotin.1
  rw [heffect.result, extend_of_notMem (notMem_newCoins hother)]
  exact without_eq_none (hpending.fresh tx' htx' hnotin.2 out hout)

lemma Rounds.effects (hheight : 0 ≤ nHeight)
    (h : Rounds env st nHeight vtx undos s s') (hpending : Pending env block s)
    (hsub : ∀ tx ∈ vtx, tx ∈ block) (hwf : ∀ tx ∈ vtx, WellFormed tx) :
    Effects env.crypto.getHash nHeight vtx undos s.view.unspent s'.view.unspent ∧
      s'.view.Coherent := by
  induction h with
  | nil s => exact ⟨.nil _, hpending.coherent⟩
  | cons round _ ih =>
    obtain ⟨heffect, hfresh, hnext⟩ := round.effect hheight hpending
      (hsub _ (.head _)) (hwf _ (.head _))
    obtain ⟨hrest, hcoherent⟩ := ih hnext (forall_mem_cons.mp hsub).2
      (forall_mem_cons.mp hwf).2
    exact ⟨.cons heffect hfresh hrest, hcoherent⟩

end Block

/-! ## The call -/

section Call

variable {fJustCheck : Bool} {pindex : BlockId} {block : CBlock env} {s : ChainState}
  {c : Connected}

lemma runCheck_ok_iff {σ : Type} {m : Eff Failure σ Unit} {s s' : σ} :
    runCheck m s = .ok s' ↔ m s = .ok () s' := by
  unfold runCheck
  cases hm : m s with
  | ok _ s1 => simp
  | error e s1 => simp

/-- The BIP30 check fetches entries and finds none of the outputs. -/
lemma checkBIP30_ok {view' : CCoinsViewCache}
    (hview : view.Coherent) (h : checkBIP30 env vtx view = .ok view') :
    view'.unspent = view.unspent ∧ view'.Coherent ∧
      ∀ tx ∈ vtx, ∀ out ∈ outputs (env.crypto.getHash tx) tx, view.unspent out.1 = none := by
  unfold checkBIP30 at h
  simp only at h
  split_ifs at h with hany
  cases h
  refine ⟨foldl_frame CCoinsViewCache.unspent (fun view o _ => view.unspent_fetchCoin o) view,
    List.foldlRecOn (motive := CCoinsViewCache.Coherent) _ _ hview
      (fun _ hcoherent o _ => hcoherent.fetchCoin o), ?_⟩
  intro tx htx out hout
  rw [Bool.not_eq_true, any_eq_false] at hany
  have hno := hany out.1 (mem_flatMap.mpr ⟨tx, htx, mem_map_of_mem hout⟩)
  rw [CCoinsViewCache.haveCoin_eq, Bool.not_eq_true, Option.isSome_eq_false_iff,
    Option.isNone_iff_eq_none] at hno
  exact hno

/-- An accepted block other than the genesis block, taken apart. -/
structure Accepted (env : TxEnv) (ctx : ConnectContext) (fJustCheck : Bool) (pindex : BlockId)
    (block : CBlock env) (s : ChainState) (c : Connected) : Prop where
  passed : PassedCheckBlock env block.vtx
  loop : ∃ view chain connected, checkBIP30 env block.vtx s.view = .ok view ∧
    connectAll env ctx s.sigmaState pindex.nHeight block.vtx
      ⟨view, ⟨chain, some .empty⟩, [], 0, 0, []⟩ = .ok () connected ∧
    c.view = connected.view ∧ c.vtxundo = connected.vtxundo ∧ c.nFees = connected.nFees ∧
    ∃ sigma, connectBlockSigma env.crypto env.params
      (some ⟨block.vtx, connected.check.sigmaTxInfo.map CSigmaTxInfo.complete⟩) fJustCheck
      ⟨s.sigmaState, .fresh pindex⟩ = .ok () sigma

lemma connectBlock_ok (h : connectBlock env ctx fJustCheck pindex block s = .ok c) :
    (block.hash = ctx.hashGenesisBlock ∧ c.view = s.view ∧ c.vtxundo = [] ∧
        PassedCheckBlock env block.vtx) ∨
      Accepted env ctx fJustCheck pindex block s c := by
  obtain ⟨checked, hchecked, h⟩ := except_bind_ok_iff.mp h
  have hpassed : PassedCheckBlock env block.vtx :=
    CheckBlockCall.passed_of_checkBlock (s := ⟨s.chainActive, block.fChecked⟩) block.passed
      (.inl (congrArg outcome (runCheck_ok_iff.mp hchecked)))
  split_ifs at h with hbest hevo hgenesis
  · cases h
    exact .inl ⟨hgenesis, rfl, rfl, hpassed⟩
  · right
    obtain ⟨view, hview, h⟩ := except_bind_ok_iff.mp h
    obtain ⟨connected, hconnected, h⟩ := except_bind_ok_iff.mp h
    obtain ⟨_, -, h⟩ := except_bind_ok_iff.mp h
    obtain ⟨_, -, h⟩ := except_bind_ok_iff.mp h
    obtain ⟨sigma, hsigma, h⟩ := except_bind_ok_iff.mp h
    cases h
    exact ⟨hpassed, view, checked.chain, connected, hview, runCheck_ok_iff.mp hconnected, rfl, rfl,
      rfl, sigma, runCheck_ok_iff.mp hsigma⟩

lemma accepted_of_connectBlock (hgenesis : block.hash ≠ ctx.hashGenesisBlock)
    (h : connectBlock env ctx fJustCheck pindex block s = .ok c) :
    Accepted env ctx fJustCheck pindex block s c :=
  (connectBlock_ok h).resolve_left (fun hfirst => hgenesis hfirst.1)

/-- The loop of an accepted block, from the view the BIP30 check has left. -/
structure LoopRun (env : TxEnv) (ctx : ConnectContext) (nHeight : Int) (block : CBlock env)
    (s : ChainState) (c : Connected) (coinbase : CTransaction) (rest : List CTransaction)
    (undo : List Coin) (start next last : ConnectBlockState) : Prop where
  vtx : block.vtx = coinbase :: rest
  unspent : start.view.unspent = s.view.unspent
  pending : Pending env block.vtx start
  noFees : start.nFees = 0
  first : Round env s.sigmaState nHeight true coinbase undo start next
  others : Rounds env s.sigmaState nHeight rest c.vtxundo next last
  reward : checkReward env ctx nHeight coinbase last.nFees = .ok ()
  view : c.view = last.view
  nFees : c.nFees = last.nFees
  sigmaBlock : checkSigmaBlock env.crypto env.params block.vtx = true

lemma Accepted.run (h : Accepted env ctx fJustCheck pindex block s c) :
    ∃ coinbase rest undo start next last,
      LoopRun env ctx pindex.nHeight block s c coinbase rest undo start next last := by
  obtain ⟨view, chain, connected, hbip30, hloop, hview, hundo, hfees, sigma, hsigma⟩ := h.loop
  obtain ⟨hunspent, hcoherent, hfresh⟩ := checkBIP30_ok s.coherent hbip30
  obtain ⟨coinbase, rest, undo, undos, next, hvtx, hround, hrounds, hreward⟩ := connectAll_ok hloop
  have hpending : Pending env block.vtx ⟨view, ⟨chain, some .empty⟩, [], 0, 0, []⟩ := by
    refine ⟨hcoherent, ?_⟩
    intro tx htx _ out hout
    show view.unspent out.1 = none
    rw [hunspent]
    exact hfresh tx htx out hout
  have hundos : undos = c.vtxundo := by
    rw [hundo, hrounds.vtxundo, hround.vtxundo, if_pos rfl, nil_append]
  obtain ⟨info, hinfo, -⟩ : InfoOpen connected.check :=
    hrounds.infoOpen (hround.infoOpen ⟨.empty, rfl, rfl⟩)
  rw [hinfo, Option.map_some] at hsigma
  rw [hundos] at hrounds
  exact ⟨coinbase, rest, undo, ⟨view, ⟨chain, some .empty⟩, [], 0, 0, []⟩, next, connected,
    { vtx := hvtx
      unspent := hunspent
      pending := hpending
      noFees := rfl
      first := hround
      others := hrounds
      reward := hreward
      view := hview
      nFees := hfees
      sigmaBlock := (connectBlockSigma_ok hsigma).1 }⟩

/-- The coinbase and the rounds take effect on the coins one after the other. -/
lemma LoopRun.effects {coinbase : CTransaction} {rest : List CTransaction} {undo : List Coin}
    {start next last : ConnectBlockState} (hheight : 0 ≤ nHeight)
    (h : LoopRun env ctx nHeight block s c coinbase rest undo start next last)
    (hwf : ∀ tx ∈ block.vtx, WellFormed tx) :
    TxEffect (env.crypto.getHash coinbase) coinbase nHeight undo start.view.unspent
        next.view.unspent ∧ Pending env block.vtx next ∧
      Effects env.crypto.getHash nHeight block.vtx (undo :: c.vtxundo) s.view.unspent
        c.view.unspent ∧ c.view.Coherent := by
  have hpending := h.pending
  rw [h.vtx] at hwf hpending ⊢
  obtain ⟨heffect, hfresh, hnext⟩ := h.first.effect hheight hpending (.head _)
    (hwf coinbase (.head _))
  obtain ⟨heffects, hcoherent⟩ := h.others.effects hheight hnext
    (fun tx htx => mem_cons_of_mem _ htx) (forall_mem_cons.mp hwf).2
  rw [h.view, ← h.unspent]
  exact ⟨heffect, hnext, .cons heffect hfresh heffects, hcoherent⟩

/-- What an accepted block does to the unspent coins; the undo data of the coinbase is not kept. -/
lemma Accepted.effects (h : Accepted env ctx fJustCheck pindex block s c)
    (hheight : 0 ≤ pindex.nHeight) :
    ∃ undo, Effects env.crypto.getHash pindex.nHeight block.vtx (undo :: c.vtxundo) s.view.unspent
      c.view.unspent ∧ c.view.Coherent := by
  obtain ⟨coinbase, rest, undo, start, next, last, hrun⟩ := h.run
  exact ⟨undo, (hrun.effects hheight h.passed.wellFormed).2.2⟩

end Call

end Tecracoin.Validation
