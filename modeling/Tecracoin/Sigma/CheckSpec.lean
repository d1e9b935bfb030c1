/-
  What the sigma checks establish when they pass, one lemma per function, in
  the mode `ConnectBlock` calls them in (one open `CSigmaTxInfo`, stateful,
  neither `isVerifyDB` nor `isCheckWallet`), and what they can do to the chain
  whatever their outcome.

  Later modules cite these lemmas and never unfold a check.
-/
import Tecracoin.Sigma.Check

namespace Tecracoin.Sigma

open Data Eff CSigmaTxInfo List

variable {s s' : CheckState} {info info' : CSigmaTxInfo} {u : Unit}
  {chain chain' : List CBlockIndex} {tx : CTransaction} {vtx : List CTransaction}
  {denoms : List CoinDenomination} {spend : CoinSpend} {nHeight : Int} {vin : List CTxIn}
  {coins : List PublicCoin} {seen : List Scalar} {id : Nat} {firstBlock : Option BlockId}

variable {crypto : Crypto} {params : Params} {st : CSigmaState}

/-! ## Serials and mints of a transaction -/

/-- The serial numbers of the inputs of a sigma spend. Every input counts: the checks refuse a sigma
    spend with an input of another kind. -/
def txSerials (crypto : Crypto) (tx : CTransaction) : List Scalar :=
  if tx.isSigmaSpend then tx.vin.filterMap (inputSerial crypto) else []

/-- Some output has a sigma mint script. -/
def hasSigmaMintOutput (tx : CTransaction) : Bool :=
  tx.vout.any (fun txout => txout.scriptPubKey.isSigmaMint)

/-- The coin a sigma mint output stands for. -/
def mintOf (crypto : Crypto) (txout : CTxOut) : Option PublicCoin :=
  if txout.scriptPubKey.isSigmaMint then
    match parseSigmaMintScript crypto txout.scriptPubKey, integerToDenomination txout.nValue with
    | some value, some denomination => some ⟨value, denomination⟩
    | _, _ => none
  else none

/-- The mints of a transaction that is checked at `height`. -/
def txMints (crypto : Crypto) (params : Params) (height : Int) (tx : CTransaction) :
    List PublicCoin :=
  if isSigmaAllowed params height then tx.vout.filterMap (mintOf crypto) else []

/-! ## Info updates -/

-- the check has an info, and it is still open
variable (hinfo : s.sigmaTxInfo = some info) (hopen : info.fInfoIsComplete = false)

include hinfo in
lemma seen_eq (hashTx : Uint256) : s.seen hashTx = info.zcTransactions.contains hashTx := by
  simp [CheckState.seen, hinfo]

include hinfo hopen in
@[simp] lemma updateInfo_some {f : CSigmaTxInfo → CSigmaTxInfo} :
    (s.updateInfo f).sigmaTxInfo = some (f info) := by
  simp [CheckState.updateInfo, hinfo, hopen]

lemma checkSigmaSpendSerial_ok_iff {serial : Scalar} {fConnectTip : Bool} :
    checkSigmaSpendSerial st (some info) serial nHeight fConnectTip = .ok () ↔
      (info.fInfoIsComplete = false → serial ∉ info.spentSerials.keys) ∧
        ((nHeight = intMax ∨ fConnectTip = true) → st.isUsedCoinSerial serial = false) := by
  rw [← StdMap.contains_iff]
  unfold checkSigmaSpendSerial
  cases hc : info.fInfoIsComplete <;> cases hk : info.spentSerials.contains serial <;>
    cases hu : st.isUsedCoinSerial serial <;> cases fConnectTip <;>
      by_cases hn : nHeight = intMax <;> simp [hc, hk, hn, Failure.dosError]

/-! ## Spend inputs -/

lemma parseSigmaSpend_serial {txin : CTxIn} (h : parseSigmaSpend crypto txin = .ok (spend, id)) :
    inputSerial crypto txin = some spend.coinSerialNumber := by
  revert h
  fun_cases parseSigmaSpend with
  | case1 | case2 => exact nofun
  | case3 _ _ _ hread =>
    intro h
    rw [inputSerial, hread, Option.map_some, (Prod.mk.inj (Except.ok.inj h)).1]

/-- `spendDenominations` passes only when every input is a sigma spend script that can be read. -/
lemma spendDenominations_ok (h : spendDenominations crypto vin = .ok denoms) :
    ∀ txin ∈ vin, txin.scriptSig.isSigmaSpend = true ∧
      ∃ spend, crypto.readCoinSpend (txin.scriptSig.drop 1) = some spend := by
  fun_induction spendDenominations generalizing denoms with
  | case1 => exact fun txin htxin => (nomatch htxin)
  | case2 | case3 | case4 | case5 => cases h
  | case6 txin vin hscript _ spend hread _ _ ih =>
    obtain ⟨rest, hrest, -⟩ := except_map_ok_iff.mp h
    exact forall_mem_cons.mpr ⟨⟨by simpa using hscript, spend, hread⟩, ih hrest⟩

/-- What the input loop does to the info, given the serials it accepted. -/
structure SpendsRecorded (serials : List Scalar) (info info' : CSigmaTxInfo) : Prop where
  isOpen : info'.fInfoIsComplete = false
  zcTransactions : info'.zcTransactions = info.zcTransactions
  mints : info'.mints = info.mints
  mem_keys : ∀ x, x ∈ info'.spentSerials.keys ↔ x ∈ serials ∨ x ∈ info.spentSerials.keys

section Spend

variable {hashTx txHash : Uint256}
include hinfo hopen

/-- A passed input: its serial is new in the transaction, new in the block unless the transaction
    was already listed, and recorded. -/
lemma checkSpendInput_ok {d : CoinDenomination}
    (h : checkSpendInput crypto params st (connectFlags nHeight hashTx) txHash spend id d seen s
      = .ok u s') :
    spend.coinSerialNumber ∉ seen ∧
      (hashTx ∉ info.zcTransactions → spend.coinSerialNumber ∉ info.spentSerials.keys) ∧
      s'.sigmaTxInfo = some (info.addSerial spend.coinSerialNumber ⟨spend.denomination, id⟩) := by
  unfold checkSpendInput at h
  cases hg : st.getCoinGroupInfo d id with
  | none => simp [hg] at h
  | some coinGroup =>
    simp only [hg, bind_ok_iff, get_ok_iff, lift_ok_iff, modify_ok_iff,
      failIf_ok_iff, when_ok_iff, exists_and_left, exists_eq_left, and_assoc,
      exists_const] at h
    obtain ⟨walked, -, -, -, u1, s1, hserial, hnew, hset⟩ := h
    have hs1 : s1.sigmaTxInfo = some info := by
      rcases hserial with ⟨-, -, rfl⟩ | ⟨-, rfl⟩ <;> exact hinfo
    refine ⟨by simpa using hnew, fun hzc => ?_, ?_⟩
    · rcases hserial with ⟨-, hcheck, -⟩ | ⟨hseen, -⟩
      · rw [hinfo] at hcheck
        exact (checkSigmaSpendSerial_ok_iff.mp hcheck).1 hopen
      · rw [seen_eq (show CheckState.sigmaTxInfo ⟨walked.2, s.sigmaTxInfo⟩ = some info from hinfo)]
          at hseen
        simp only [connectFlags, Bool.not_eq_eq_eq_not, Bool.not_false, contains_iff_mem] at hseen
        exact absurd hseen hzc
    · rcases hset with ⟨-, rfl⟩ | ⟨hc, -⟩
      · exact updateInfo_some hs1 hopen
      · simp [connectFlags] at hc

/-- The input loop: the serials of the inputs are distinct, new in the transaction, new in the block
    unless the transaction was already listed, and recorded. -/
lemma checkSpendInputs_ok
    (h : checkSpendInputs crypto params st (connectFlags nHeight hashTx) txHash vin denoms seen s
      = .ok u s') :
    ∃ info', s'.sigmaTxInfo = some info' ∧
      SpendsRecorded (vin.filterMap (inputSerial crypto)) info info' ∧
      (vin.filterMap (inputSerial crypto)).Nodup ∧
      (∀ x ∈ vin.filterMap (inputSerial crypto), x ∉ seen) ∧
      (hashTx ∉ info.zcTransactions →
        ∀ x ∈ vin.filterMap (inputSerial crypto), x ∉ info.spentSerials.keys) := by
  -- induction on the inputs; the serials seen so far and the info vary
  induction vin generalizing denoms seen s info with
  | nil =>
    simp only [checkSpendInputs, pure_ok_iff] at h
    rw [h.2]
    exact ⟨info, hinfo, ⟨hopen, rfl, rfl, by simp⟩, by simp, by simp, by simp⟩
  | cons txin vin ih =>
    unfold checkSpendInputs at h
    rcases hp : parseSigmaSpend crypto txin with e | ⟨spend, id⟩
    · cases e <;> simp [hp] at h
    · rw [hp] at h
      simp only [connectFlags, bind_ok_iff, failIf_ok_iff, Bool.not_true,
        Bool.false_eq_true, if_false, and_assoc, exists_and_left, exists_eq_left,
        exists_const] at h
      obtain ⟨-, h⟩ := h
      cases denoms with
      | nil => simp at h
      | cons d denoms =>
        simp only [bind_ok_iff] at h
        obtain ⟨_, s1, hfirst, hrest⟩ := h
        obtain ⟨hseen, hblock, hinfo1⟩ := checkSpendInput_ok hinfo hopen hfirst
        obtain ⟨info', hinfo', hrec, hnodup, hseen', hblock'⟩ := ih hinfo1 hopen hrest
        have hkeys : ∀ x, x ∈ (info.addSerial spend.coinSerialNumber
            ⟨spend.denomination, id⟩).spentSerials.keys ↔
            x = spend.coinSerialNumber ∨ x ∈ info.spentSerials.keys :=
          fun x => StdMap.mem_keys_insert
        have hserials : (txin :: vin).filterMap (inputSerial crypto) =
            spend.coinSerialNumber :: vin.filterMap (inputSerial crypto) := by
          rw [filterMap_cons, parseSigmaSpend_serial hp]
        refine ⟨info', hinfo', ⟨hrec.isOpen, hrec.zcTransactions, hrec.mints, ?_⟩, ?_, ?_, ?_⟩
        · intro x
          rw [hrec.mem_keys, hkeys, hserials, mem_cons]
          tauto
        · rw [hserials, nodup_cons]
          exact ⟨fun hmem => hseen' _ hmem (.head _), hnodup⟩
        · rw [hserials, forall_mem_cons]
          exact ⟨hseen, fun x hx hmem => hseen' x hx (.tail _ hmem)⟩
        · rw [hserials, forall_mem_cons]
          exact fun hzc => ⟨hblock hzc,
            fun x hx hmem => hblock' hzc x hx ((hkeys x).mpr (.inr hmem))⟩

/-- A passed spend transaction: as its input loop, and listed afterwards. -/
lemma checkSigmaSpendTransaction_ok {realHeight : Int}
    (h : checkSigmaSpendTransaction crypto params st (connectFlags nHeight hashTx) realHeight tx
      denoms s = .ok u s') :
    ∃ info', s'.sigmaTxInfo = some info' ∧ info'.fInfoIsComplete = false ∧
      info'.mints = info.mints ∧
      (∀ x ∈ info'.zcTransactions, x = hashTx ∨ x ∈ info.zcTransactions) ∧
      (∀ x, x ∈ info'.spentSerials.keys ↔
        x ∈ tx.vin.filterMap (inputSerial crypto) ∨ x ∈ info.spentSerials.keys) ∧
      (tx.vin.filterMap (inputSerial crypto)).Nodup ∧
      (hashTx ∉ info.zcTransactions →
        ∀ x ∈ tx.vin.filterMap (inputSerial crypto), x ∉ info.spentSerials.keys) := by
  unfold checkSigmaSpendTransaction at h
  simp only [bind_ok_iff, failIf_ok_iff, when_ok_iff, modify_ok_iff, and_assoc,
    exists_and_left, exists_eq_left, exists_const] at h
  obtain ⟨-, u1, s1, hloop, s2, hlist, -, rfl⟩ := h
  obtain ⟨info1, hinfo1, hrec, hnodup, -, hblock⟩ := checkSpendInputs_ok hinfo hopen hloop
  rcases hlist with ⟨-, rfl⟩ | ⟨-, rfl⟩
  · refine ⟨info1.addTransaction hashTx, updateInfo_some hinfo1 hrec.isOpen, hrec.isOpen,
      hrec.mints, ?_, hrec.mem_keys, hnodup, hblock⟩
    intro x hx
    rw [addTransaction, mem_append, mem_singleton, hrec.zcTransactions] at hx
    exact hx.symm
  · refine ⟨info1, hinfo1, hrec.isOpen, hrec.mints, ?_, hrec.mem_keys, hnodup, hblock⟩
    intro x hx
    rw [hrec.zcTransactions] at hx
    exact .inr hx

end Spend

/-! ## Mint outputs -/

/-- The mints collected so far are distinct and none of them is on the chain. -/
structure MintsFresh (st : CSigmaState) (info : CSigmaTxInfo) : Prop where
  nodup : (info.mints.map PublicCoin.value).Nodup
  fresh : ∀ mint ∈ info.mints, st.hasCoin mint = false

lemma mintsFresh_empty : MintsFresh st .empty :=
  ⟨by simp [empty], by simp [empty]⟩

lemma MintsFresh.congr
    (h : MintsFresh st info) (hm : info'.mints = info.mints) : MintsFresh st info' :=
  ⟨by rw [hm]; exact h.nodup, by rw [hm]; exact h.fresh⟩

lemma MintsFresh.perm
    (h : MintsFresh st info) (hm : info'.mints.Perm info.mints) : MintsFresh st info' :=
  ⟨(hm.map _).nodup_iff.mpr h.nodup, fun mint hmint => h.fresh mint (hm.mem_iff.mp hmint)⟩

section Mint

variable {hashTx : Uint256}
include hinfo hopen

/-- A mint that passes is recorded. -/
lemma checkSigmaMintTransaction_ok {txout : CTxOut}
    (h : checkSigmaMintTransaction crypto st (connectFlags nHeight hashTx) txout s = .ok u s') :
    ∃ pubCoin, s'.sigmaTxInfo = some (info.addMint pubCoin hashTx) ∧
      (txout.scriptPubKey.isSigmaMint = true → mintOf crypto txout = some pubCoin) ∧
      (MintsFresh st info → MintsFresh st (info.addMint pubCoin hashTx)) := by
  unfold checkSigmaMintTransaction at h
  cases hp : parseSigmaMintScript crypto txout.scriptPubKey with
  | none => simp [hp] at h
  | some value =>
    cases hd : integerToDenomination txout.nValue with
    | none => simp [hp, hd] at h
    | some denomination =>
      simp only [hp, hd, bind_ok_iff, get_ok_iff, failIf_ok_iff,
        modify_ok_iff, and_assoc, exists_and_left, exists_eq_left, exists_const] at h
      obtain ⟨hdouble, -, rfl⟩ := h
      refine ⟨⟨value, denomination⟩, updateInfo_some hinfo hopen,
        fun hmint => by simp [mintOf, hmint, hp, hd], fun hfresh => ?_⟩
      rw [hinfo] at hdouble
      simp only [hopen, connectFlags, Bool.not_false, Bool.true_and, Bool.and_true,
        Bool.or_eq_false_iff, any_eq_false, decide_eq_true_eq] at hdouble
      obtain ⟨hstate, hblock⟩ := hdouble
      have hnew : value ∉ info.mints.map PublicCoin.value := by
        intro hmem
        obtain ⟨mint, hmint, hv⟩ := mem_map.mp hmem
        exact hblock mint hmint hv
      refine ⟨?_, ?_⟩
      · rw [addMint, map_append, map_singleton, nodup_append_comm, singleton_append, nodup_cons]
        exact ⟨hnew, hfresh.nodup⟩
      · intro mint hmem
        rw [addMint, mem_append, mem_singleton] at hmem
        rcases hmem with hmem | rfl
        · exact hfresh.fresh mint hmem
        · exact hstate

/-- The output loop: it leaves the serials alone, adds the mints and keeps them fresh, and lists the
    transaction only if it has a mint output. -/
lemma checkMintOutputs_ok {vout : List CTxOut}
    (h : checkMintOutputs crypto st (connectFlags nHeight hashTx) vout s = .ok u s') :
    ∃ info', s'.sigmaTxInfo = some info' ∧ info'.fInfoIsComplete = false ∧
      info'.spentSerials = info.spentSerials ∧
      info'.mints = info.mints ++ vout.filterMap (mintOf crypto) ∧
      (MintsFresh st info → MintsFresh st info') ∧
      (∀ x ∈ info'.zcTransactions, x = hashTx ∨ x ∈ info.zcTransactions) ∧
      (vout.any (fun txout => txout.scriptPubKey.isSigmaMint) = false →
        info'.zcTransactions = info.zcTransactions) := by
  induction vout generalizing s info with
  | nil =>
    simp only [checkMintOutputs, pure_ok_iff] at h
    rw [h.2]
    exact ⟨info, hinfo, hopen, rfl, by simp, id, fun x hx => .inr hx, fun _ => rfl⟩
  | cons txout vout ih =>
    simp only [checkMintOutputs, bind_ok_iff, when_ok_iff] at h
    obtain ⟨u1, s1, hfirst, hrest⟩ := h
    rcases hfirst with ⟨hm, hfirst⟩ | ⟨hm, rfl⟩
    · obtain ⟨pubCoin, hinfo1, hcoin, hfresh1⟩ := checkSigmaMintTransaction_ok hinfo hopen hfirst
      obtain ⟨info', hinfo', hopen', hsp, hmints, hfresh, hzc, -⟩ := ih hinfo1 hopen hrest
      refine ⟨info', hinfo', hopen', hsp, ?_, fun hf => hfresh (hfresh1 hf), ?_, ?_⟩
      · rw [hmints, filterMap_cons_some (hcoin hm), addMint, append_assoc, singleton_append]
      · intro x hx
        have hx' := hzc x hx
        rw [addMint, mem_append, mem_singleton] at hx'
        tauto
      · intro hno
        simp [hm] at hno
    · obtain ⟨info', hinfo', hopen', hsp, hmints, hfresh, hzc, hno⟩ := ih hinfo hopen hrest
      have hnone : mintOf crypto txout = none := by simp [mintOf, hm]
      refine ⟨info', hinfo', hopen', hsp, by rw [hmints, filterMap_cons_none hnone], hfresh,
        hzc, fun hany => hno ?_⟩
      rw [any_cons, Bool.or_eq_false_iff] at hany
      exact hany.2

end Mint

/-! ## Transactions -/

/-- A mint output of the transaction is looked at: sigma is allowed at the height of the check and
    the transaction has one. -/
def mintsChecked (params : Params) (nHeight : Int) (chain : List CBlockIndex)
    (tx : CTransaction) : Bool :=
  isSigmaAllowed params (realHeight nHeight chain) && hasSigmaMintOutput tx

/-- What a passed transaction does to the info of its block. -/
structure TxRecorded (crypto : Crypto) (params : Params) (st : CSigmaState) (height : Int)
    (hashTx : Uint256) (tx : CTransaction) (info info' : CSigmaTxInfo) : Prop where
  isOpen : info'.fInfoIsComplete = false
  mints : info'.mints = info.mints ++ txMints crypto params height tx
  mintsFresh : MintsFresh st info → MintsFresh st info'
  mem_zcTransactions : ∀ x ∈ info'.zcTransactions, x = hashTx ∨ x ∈ info.zcTransactions
  mem_keys : ∀ x, x ∈ info'.spentSerials.keys ↔
    x ∈ txSerials crypto tx ∨ x ∈ info.spentSerials.keys

include hinfo hopen in
/-- `CheckSigmaTransaction` as `ConnectBlock` calls it: the serials of the transaction are distinct
    and recorded; they are also new in the block if the transaction was not listed before its spends
    were looked at. -/
lemma checkSigmaTransaction_ok {hashTx : Uint256}
    (h : checkSigmaTransaction crypto params st (connectFlags nHeight hashTx) tx s = .ok u s') :
    ∃ info', s'.sigmaTxInfo = some info' ∧
      TxRecorded crypto params st (realHeight nHeight s.chain) hashTx tx info info' ∧
      (txSerials crypto tx).Nodup ∧
      (hashTx ∉ info.zcTransactions → mintsChecked params nHeight s.chain tx = false →
        ∀ x ∈ txSerials crypto tx, x ∉ info.spentSerials.keys) := by
  unfold checkSigmaTransaction at h
  simp only [bind_ok_iff, get_ok_iff, failIf_ok_iff, when_ok_iff,
    lift_ok_iff, and_assoc, exists_and_left, exists_eq_left, exists_const] at h
  obtain ⟨-, u1, s1, hmint, hspend⟩ := h
  -- the info after the outputs
  obtain ⟨info1, hinfo1, hopen1, hsp1, hm1, hfresh1, hzc1, hno1⟩ :
      ∃ info1, s1.sigmaTxInfo = some info1 ∧ info1.fInfoIsComplete = false ∧
      info1.spentSerials = info.spentSerials ∧
      info1.mints = info.mints ++ txMints crypto params (realHeight nHeight s.chain) tx ∧
      (MintsFresh st info → MintsFresh st info1) ∧
      (∀ x ∈ info1.zcTransactions, x = hashTx ∨ x ∈ info.zcTransactions) ∧
      (mintsChecked params nHeight s.chain tx = false →
        info1.zcTransactions = info.zcTransactions) := by
    rcases hmint with ⟨hallow, hmint⟩ | ⟨hallow, rfl⟩
    · obtain ⟨info1, h1, h2, h3, hm, h4, h5, h6⟩ := checkMintOutputs_ok hinfo hopen hmint
      simp only [connectFlags] at hallow
      refine ⟨info1, h1, h2, h3, by rw [hm, txMints, if_pos hallow], h4, h5, fun hno => h6 ?_⟩
      simpa [mintsChecked, hallow, hasSigmaMintOutput] using hno
    · simp only [connectFlags] at hallow
      exact ⟨info, hinfo, hopen, rfl, by simp [txMints, hallow], id, fun x hx => .inr hx,
        fun _ => rfl⟩
  rcases hspend with ⟨hs, -, -, denoms, -, hspend⟩ | ⟨hs, rfl⟩
  · have hser : txSerials crypto tx = tx.vin.filterMap (inputSerial crypto) := by
      rw [txSerials, if_pos hs]
    rcases hspend with ⟨-, hspend⟩ | ⟨hv, -⟩
    · obtain ⟨info2, hinfo2, hopen2, hm2, hzc2, hkeys2, hnodup, hblock⟩ :=
        checkSigmaSpendTransaction_ok hinfo1 hopen1 hspend
      refine ⟨info2, hinfo2, ⟨hopen2, hm2.trans hm1, fun hf => (hfresh1 hf).congr hm2, ?_, ?_⟩,
        ?_, ?_⟩
      · intro x hx
        rcases hzc2 x hx with hx | hx
        · exact .inl hx
        · exact hzc1 x hx
      · intro x
        rw [hkeys2, hsp1, hser]
      · rw [hser]
        exact hnodup
      · intro hzc hno
        rw [hser, ← hsp1]
        apply hblock
        rw [hno1 hno]
        exact hzc
    · simp [connectFlags] at hv
  · have hser : txSerials crypto tx = [] := by
      rw [txSerials, if_neg (by simp [hs])]
    refine ⟨info1, hinfo1, ⟨hopen1, hm1, hfresh1, hzc1, ?_⟩, by simp [hser], by simp [hser]⟩
    intro x
    rw [hsp1, hser]
    simp

/-- A passed sigma spend keeps to the limit on its inputs, and each of them can be read. -/
lemma checkSigmaTransaction_inputs {flags : CheckFlags} (hspend : tx.isSigmaSpend = true)
    (h : checkSigmaTransaction crypto params st flags tx s = .ok u s') :
    tx.vin.length ≤ params.nMaxSigmaInputPerTransaction ∧
      ∀ txin ∈ tx.vin, txin.scriptSig.isSigmaSpend = true ∧
        ∃ spend, crypto.readCoinSpend (txin.scriptSig.drop 1) = some spend := by
  unfold checkSigmaTransaction at h
  simp only [bind_ok_iff, get_ok_iff, failIf_ok_iff, when_ok_iff,
    lift_ok_iff, and_assoc, exists_and_left, exists_eq_left, exists_const] at h
  obtain ⟨-, _, _, -, hpart⟩ := h
  rcases hpart with ⟨-, hcount, -, denoms, hdenoms, -⟩ | ⟨hno, -⟩
  · exact ⟨by simpa using hcount, spendDenominations_ok hdenoms⟩
  · rw [hspend] at hno
    cases hno

/-! ## CheckSigmaBlock -/

/-- Every sigma spend counts at least once. -/
lemma countP_le_of_sumSpends {amount amount' : Nat} {value value' : CAmount}
    (h : sumSpends crypto params amount value vtx = some (amount', value')) :
    amount + vtx.countP CTransaction.isSigmaSpend ≤ amount' := by
  fun_induction sumSpends with
  | case1 =>
    obtain ⟨rfl, -⟩ := Prod.mk.inj (Option.some.inj h)
    exact Nat.le_refl _
  | case2 | case3 => cases h
  | case4 amount value tx vtx _ _ ih =>
    have hrest := ih h
    rw [countP_cons]
    split_ifs with hspend
    · have hone : 0 < txSpendsAmount tx := by
        obtain ⟨txin, htxin, hsigma⟩ := any_eq_true.mp hspend
        have hmem : txin ∈
            tx.vin.filter (fun txin => txin.isSigmaSpend || txin.isZerocoinRemint) := by
          rw [mem_filter, hsigma]
          exact ⟨htxin, rfl⟩
        exact length_pos_of_mem hmem
      omega
    · omega

lemma countP_le_of_checkSigmaBlock (h : checkSigmaBlock crypto params vtx = true) :
    vtx.countP CTransaction.isSigmaSpend ≤ params.nMaxSigmaInputPerBlock := by
  revert h
  fun_cases checkSigmaBlock with
  | case1 => exact nofun
  | case2 _ _ hsum =>
    have hcount := countP_le_of_sumSpends hsum
    rw [Bool.and_eq_true, decide_eq_true_eq]
    omega

/-! ## What the checks write

The checks update the info, and the stateful ones write to the chain by walking
it.  A relation that updates and walks respect is respected by every check,
whether it passes or not. -/

section Writes

variable {R : CheckState → CheckState → Prop}

/-- Every walk for a group of `st` relates the states before and after it. -/
def WalksKeep (st : CSigmaState) (R : CheckState → CheckState → Prop) : Prop :=
  ∀ d id coinGroup hash s coins chain, st.getCoinGroupInfo d id = some coinGroup →
    anonymitySet (d, id) coinGroup hash s.chain = .ok (coins, chain) → R s { s with chain := chain }

/-- The relation on check states that only looks at the chain. -/
def OnChain (R : List CBlockIndex → List CBlockIndex → Prop) (s s' : CheckState) : Prop :=
  R s.chain s'.chain

variable [IsPreorder CheckState R]
  (hupd : ∀ (f : CSigmaTxInfo → CSigmaTxInfo) s, R s (s.updateInfo f))
include hupd

variable (flags : CheckFlags)

lemma checkSpendInput_keeps (hwalk : WalksKeep st R) (txHash : Uint256) (d : CoinDenomination) :
    Eff.Keeps R (checkSpendInput crypto params st flags txHash spend id d seen) := by
  -- everything after the walk leaves the chain alone
  intro s
  unfold checkSpendInput
  cases hg : st.getCoinGroupInfo d id with
  | none => exact refl_of R s
  | some coinGroup =>
    simp only [get_bind_apply]
    cases hw : anonymitySet (d, (id : Int)) coinGroup spend.accumulatorBlockHash s.chain with
    | error e =>
      rw [lift_error_bind_apply]
      exact refl_of R s
    | ok walked =>
      obtain ⟨coins, chain'⟩ := walked
      rw [lift_ok_bind_apply, modify_bind_apply]
      refine trans_of R (hwalk _ _ _ _ _ _ _ hg hw) ?_
      refine keeps_bind (R := R) keeps_failIf (fun _ => ?_) ⟨chain', s.sigmaTxInfo⟩
      refine keeps_bind keeps_failIf (fun _ => ?_)
      refine keeps_bind keeps_get (fun _ => ?_)
      refine keeps_bind (keeps_when _ keeps_lift) (fun _ => ?_)
      refine keeps_bind keeps_failIf (fun _ => ?_)
      exact keeps_when _ (keeps_modify (hupd _))

section
variable {flags} (hwalk : flags.fStatefulSigmaCheck = true → WalksKeep st R)
include hwalk

lemma checkSpendInputs_keeps {txHash : Uint256} :
    Eff.Keeps R (checkSpendInputs crypto params st flags txHash vin denoms seen) := by
  induction vin generalizing denoms seen with
  | nil => exact keeps_pure
  | cons txin vin ih =>
    unfold checkSpendInputs
    rcases parseSigmaSpend crypto txin with e | ⟨spend, id⟩
    · cases e
      · exact keeps_throw
      · exact keeps_throw
    · refine keeps_bind keeps_failIf (fun _ => ?_)
      split_ifs with hstateless
      · exact ih
      · rw [Bool.not_eq_true, Bool.not_eq_false'] at hstateless
        cases denoms with
        | nil => exact keeps_throw
        | cons d denoms =>
          exact keeps_bind (checkSpendInput_keeps hupd flags (hwalk hstateless) txHash d)
            (fun _ => ih)

lemma checkSigmaSpendTransaction_keeps {realHeight : Int} :
    Eff.Keeps R (checkSigmaSpendTransaction crypto params st flags realHeight tx denoms) := by
  refine keeps_bind keeps_failIf (fun _ => ?_)
  refine keeps_bind (checkSpendInputs_keeps hupd hwalk) (fun _ => ?_)
  refine keeps_bind (keeps_when _ (keeps_modify (hupd _))) (fun _ => ?_)
  exact keeps_failIf

omit hwalk in
lemma checkMintOutputs_keeps {vout : List CTxOut} :
    Eff.Keeps R (checkMintOutputs crypto st flags vout) := by
  induction vout with
  | nil => exact keeps_pure
  | cons txout vout ih =>
    refine keeps_bind (keeps_when _ ?_) (fun _ => ih)
    unfold checkSigmaMintTransaction
    cases parseSigmaMintScript crypto txout.scriptPubKey with
    | none => exact keeps_throw
    | some value =>
      cases integerToDenomination txout.nValue with
      | none => exact keeps_throw
      | some d =>
        refine keeps_bind keeps_get (fun _ => ?_)
        refine keeps_bind keeps_failIf (fun _ => ?_)
        refine keeps_bind keeps_failIf (fun _ => ?_)
        exact keeps_modify (hupd _)

lemma checkSigmaTransaction_keeps :
    Eff.Keeps R (checkSigmaTransaction crypto params st flags tx) := by
  refine keeps_bind keeps_get (fun _ => ?_)
  refine keeps_bind keeps_failIf (fun _ => ?_)
  refine keeps_bind (keeps_when _ (checkMintOutputs_keeps hupd)) (fun _ => ?_)
  refine keeps_when _ ?_
  refine keeps_bind keeps_failIf (fun _ => ?_)
  refine keeps_bind keeps_failIf (fun _ => ?_)
  refine keeps_bind keeps_lift (fun _ => ?_)
  exact keeps_when _ (checkSigmaSpendTransaction_keeps hupd hwalk)

end

lemma checkSigmaTransactions_keeps (hwalk : WalksKeep st R) :
    Eff.Keeps R (checkSigmaTransactions crypto params st nHeight vtx) := by
  induction vtx with
  | nil => exact keeps_pure
  | cons tx vtx ih =>
    exact keeps_bind (checkSigmaTransaction_keeps hupd (fun _ => hwalk)) (fun _ => ih)

end Writes

/-! ## Lengths survive the walks -/

def KeepsLength {α : Type} (walk : ChainWalk α) : Prop :=
  ∀ ⦃chain a chain'⦄, walk chain = .ok (a, chain') → chain'.length = chain.length

lemma KeepsLength.walkFrom {α : Type} {walk : ChainWalk α} {start : Option BlockId}
    (hwalk : KeepsLength walk) : KeepsLength (CSigmaState.walkFrom start walk) := by
  intro chain a chain' h
  fun_induction CSigmaState.walkFrom generalizing chain' with
  | case1 | case3 => cases h
  | case2 => exact hwalk h
  | case4 _ _ _ _ _ hrec ih =>
    obtain ⟨rfl, rfl⟩ := h
    exact congrArg Nat.succ (ih hrec)

lemma keepsLength_collectCoins {key : GroupKey} : KeepsLength (collectCoins key firstBlock) := by
  intro chain coins chain' h
  fun_induction collectCoins generalizing coins chain' with
  | case1 | case3 => cases h
  | case2 =>
    obtain ⟨rfl, rfl⟩ := h
    rfl
  | case4 _ _ _ _ _ hrec ih =>
    obtain ⟨rfl, rfl⟩ := h
    exact congrArg Nat.succ (ih hrec)

lemma KeepsLength.seekAccumulator {walk : ChainWalk (List PublicCoin)} {hash : Uint256}
    (hwalk : KeepsLength walk) : KeepsLength (Sigma.seekAccumulator firstBlock hash walk) := by
  intro chain coins chain' h
  fun_induction Sigma.seekAccumulator generalizing chain' with
  | case1 | case3 => cases h
  | case2 => exact hwalk h
  | case4 _ _ _ _ _ hrec ih =>
    obtain ⟨rfl, rfl⟩ := h
    exact congrArg Nat.succ (ih hrec)

lemma walksKeep_length :
    WalksKeep st (OnChain (fun chain chain' => chain'.length = chain.length)) :=
  fun _ _ _ _ _ _ _ _ h => keepsLength_collectCoins.seekAccumulator.walkFrom h

instance : IsPreorder CheckState (OnChain (fun chain chain' => chain'.length = chain.length)) where
  refl _ := rfl
  trans _ _ _ h h' := h'.trans h

lemma checkSigmaTransaction_length {flags : CheckFlags}
    (h : checkSigmaTransaction crypto params st flags tx s = .ok u s') :
    s'.chain.length = s.chain.length :=
  (checkSigmaTransaction_keeps (fun _ _ => rfl) (fun _ => walksKeep_length)).of_ok h

/-! ## The mints of a block -/

/-- The mints the checks of a block collect. -/
def blockMints (crypto : Crypto) (params : Params) (height : Int) (vtx : List CTransaction) :
    List PublicCoin :=
  vtx.flatMap (txMints crypto params height)

include hinfo hopen in
/-- The checks of a block collect its mints, distinct and new on the chain. -/
lemma checkSigmaTransactions_mints
    (h : checkSigmaTransactions crypto params st nHeight vtx s = .ok u s') :
    ∃ info', s'.sigmaTxInfo = some info' ∧
      info'.mints = info.mints ++ blockMints crypto params (realHeight nHeight s.chain) vtx ∧
      (MintsFresh st info → MintsFresh st info') := by
  induction vtx generalizing s info with
  | nil =>
    simp only [checkSigmaTransactions, pure_ok_iff] at h
    rw [h.2]
    exact ⟨info, hinfo, by simp [blockMints], id⟩
  | cons tx vtx ih =>
    simp only [checkSigmaTransactions, bind_ok_iff] at h
    obtain ⟨u1, s1, hfirst, hrest⟩ := h
    obtain ⟨info1, hinfo1, hrec1, -, -⟩ := checkSigmaTransaction_ok hinfo hopen hfirst
    have hlen := checkSigmaTransaction_length hfirst
    have hheight : realHeight nHeight s1.chain = realHeight nHeight s.chain := by
      rw [realHeight, realHeight, chainHeight, chainHeight, hlen]
    obtain ⟨info', hinfo', hmints, hfresh⟩ := ih hinfo1 hrec1.isOpen hrest
    refine ⟨info', hinfo', ?_, fun hf => hfresh (hrec1.mintsFresh hf)⟩
    rw [hmints, hrec1.mints, hheight, blockMints, blockMints, flatMap_cons, append_assoc]

/-! ## `ConnectBlockSigma` -/

/-- What a successful `ConnectBlockSigma` with a completed info has done. -/
lemma connectBlockSigma_ok {s s' : ConnectState} {fJustCheck : Bool}
    (h : connectBlockSigma crypto params (some ⟨vtx, some info⟩) fJustCheck s = .ok u s') :
    checkSigmaBlock crypto params vtx = true ∧
      ∃ s1, connectSerials info fJustCheck info.spentSerials.entries
          (if fJustCheck then s else s.clearIndex) = .ok () s1 ∧
        (fJustCheck = false → s1.sigmaState.addMintsToStateAndBlockIndex s1.pindexNew info.mints =
          .ok (s'.sigmaState, s'.pindexNew)) := by
  simp only [connectBlockSigma, Option.bind_some, Option.map_some, bind_ok_iff, failIf_ok_iff,
    when_ok_iff, modify_ok_iff, get_ok_iff, lift_ok_iff, set_ok_iff, and_assoc, exists_and_left,
    exists_eq_left, exists_const] at h
  obtain ⟨s0, hclear, hblock, u1, s1, hserials, hadd⟩ := h
  refine ⟨by simpa using hblock, s1, ?_, ?_⟩
  · rcases hclear with ⟨hfalse, rfl⟩ | ⟨htrue, rfl⟩ <;> simp_all
  · rintro rfl
    rcases hadd with ⟨-, added, hadded, rfl⟩ | ⟨hfalse, -⟩
    · exact hadded
    · cases hfalse

end Tecracoin.Sigma
