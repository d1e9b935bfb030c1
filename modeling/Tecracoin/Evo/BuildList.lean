/-
  `CDeterministicMNManager::BuildNewListFromBlock`: the masternode list after a
  block, from the list of the block before it.

  The function runs through five phases: confirmations, the decay of penalties,
  the special transactions, spent collaterals, and the payee.  Each phase is a
  function of its own here, and so is the effect of each kind of transaction on
  the state of a masternode.
-/
import Tecracoin.Evo.ProviderTx

namespace Tecracoin.Evo

open Data Llmq

/-! ## deterministicmns.h -/

variable (env : EvoEnv) (chain : CChain) (utxo : UTXO) (nHeight : Int) (newList : MNList)
  (tx : CTransaction)

namespace CDeterministicMNState

/-- `CDeterministicMNState(proTx)`. -/
def ofProRegTx (proTx : CProRegTx) : MNState where
  nRegisteredHeight := -1
  nLastPaidHeight := 0
  nPoSePenalty := 0
  nPoSeRevivedHeight := -1
  nPoSeBanHeight := -1
  nRevocationReason := 0
  confirmedHash := 0
  confirmedHashWithProRegTxHash := 0
  keyIDOwner := proTx.keyIDOwner
  pubKeyOperator := proTx.pubKeyOperator
  keyIDVoting := proTx.keyIDVoting
  addr := proTx.addr
  scriptPayout := proTx.scriptPayout
  scriptOperatorPayout := []

def resetOperatorFields (state : MNState) : MNState :=
  { state with
    pubKeyOperator := .null
    addr := .null
    scriptOperatorPayout := []
    nRevocationReason := 0 }

def banIfNotBanned (height : Int) (state : MNState) : MNState :=
  if state.nPoSeBanHeight = -1 then { state with nPoSeBanHeight := height } else state

def updateConfirmedHash (proTxHash confirmedHash : Uint256) (state : MNState) : MNState :=
  { state with
    confirmedHash := confirmedHash
    confirmedHashWithProRegTxHash := env.sha256Pair proTxHash confirmedHash }

end CDeterministicMNState

/-! ## The payee -/

def compareByLastPaidGetHeight (dmn : MN) : Int :=
  let height := dmn.pdmnState.nLastPaidHeight
  if dmn.pdmnState.nPoSeRevivedHeight ≠ -1 ∧ dmn.pdmnState.nPoSeRevivedHeight > height then
    dmn.pdmnState.nPoSeRevivedHeight
  else if height = 0 then dmn.pdmnState.nRegisteredHeight
  else height

def compareByLastPaid (a b : MN) : Bool :=
  let ah := compareByLastPaidGetHeight a
  let bh := compareByLastPaidGetHeight b
  if ah = bh then !hashLe b.proTxHash a.proTxHash else decide (ah < bh)

/-- The better payee of the best so far and another masternode. -/
def betterPayee (best : Option MN) (dmn : MN) : Option MN :=
  match best with
  | none => some dmn
  | some b => if compareByLastPaid dmn b then some dmn else some b

def CDeterministicMNList.getMNPayee (l : MNList) : Option MN := l.validMNs.foldl betterPayee none

/-! ## Confirmations and the decay of penalties -/

/-- One masternode of the old list in the confirmation loop. -/
def confirmMN (pindexPrev : CBlock) (prevHeight : Int) (newList : MNList)
    (dmn : MN) : Except Failure MNList :=
  if dmn.pdmnState.confirmedHash ≠ 0 then .ok newList
  else if nEvoTnodeMinimumConfirmations env.chainType ≤
      prevHeight - dmn.pdmnState.nRegisteredHeight then
    newList.updateMNByHash dmn.proTxHash
      (dmn.pdmnState.updateConfirmedHash env dmn.proTxHash pindexPrev.hash)
  else .ok newList

/-- Whether `DecreasePoSePenalties` collects the masternode. -/
def decays (dmn : MN) : Bool :=
  decide (0 < dmn.pdmnState.nPoSePenalty) && decide (dmn.pdmnState.nPoSeBanHeight = -1)

def decreasePoSePenalties (mnList : MNList) : Except Failure MNList :=
  ((mnList.validMNs.filter decays).map CDeterministicMN.proTxHash).foldlM
    CDeterministicMNList.poSeDecrease mnList

/-! ## Registrations -/

/-- The masternode a registration makes: banned from the start without an address. -/
def newMN (internalId : Nat) (tx : CTransaction) (proTx : CProRegTx) : MN where
  proTxHash := env.getHash tx
  internalId := internalId
  collateralOutpoint := proRegOutpoint env tx proTx
  nOperatorReward := proTx.nOperatorReward
  pdmnState :=
    { CDeterministicMNState.ofProRegTx proTx with
      nRegisteredHeight := nHeight
      nPoSeBanHeight := if proTx.addr = .null then nHeight else -1 }

/-- `!GetUTXOCoin(collateral) || coin.out.nValue != 10000 * COIN`. -/
def collateralMissing (outpoint : COutPoint) : Bool :=
  match utxo outpoint with
  | none => true
  | some coin => decide (coin.out.nValue ≠ collateralAmount)

/-- A registration on the collateral of a masternode removes it, unless that one was registered in
    the same block. -/
def removeReplaced (outpoint : COutPoint) : Except Failure MNList :=
  match newList.getMNByCollateral outpoint with
  | none => .ok newList
  | some replacedDmn =>
    if replacedDmn.pdmnState.nRegisteredHeight = nHeight then
      .error (.dos 100 REJECT_CONFLICT "protx-dup")
    else newList.removeMN replacedDmn.proTxHash

/-- The list with one more registration counted; the counter is a `uint32_t`. -/
def countRegistration (l : MNList) : MNList :=
  { l with nTotalRegisteredCount := (l.nTotalRegisteredCount + 1) % 2 ^ 32 }

def processProRegTx : Except Failure MNList :=
  match env.getProRegTx tx.vExtraPayload with
  | none => .error (.asserts "false")
  | some proTx => do
      rejectIf (decide (proTx.collateralOutpoint.hash ≠ 0) &&
        collateralMissing utxo (proRegOutpoint env tx proTx))
        (.dos 100 REJECT_INVALID "bad-protx-collateral")
      let l ← removeReplaced nHeight (countRegistration newList) (proRegOutpoint env tx proTx)
      rejectIf (l.hasUniqueProperty proTx.addr) (.dos 100 REJECT_CONFLICT "bad-protx-dup-addr")
      rejectIf (l.hasUniqueProperty proTx.keyIDOwner || l.hasUniqueProperty proTx.pubKeyOperator)
        (.dos 100 REJECT_CONFLICT "bad-protx-dup-key")
      l.addMN (newMN env nHeight newList.nTotalRegisteredCount tx proTx)

/-! ## Updates and revocations -/

/-- All keys are set: a banned masternode with a new address may be revived. -/
def keysSet (state : MNState) : Bool :=
  state.pubKeyOperator.isValid && decide (state.keyIDVoting ≠ 0) && decide (state.keyIDOwner ≠ 0)

/-- What a `CProUpServTx` makes of a state. -/
def serviceState (proTx : CProUpServTx) (state : MNState) : MNState :=
  let newState :=
    { state with addr := proTx.addr, scriptOperatorPayout := proTx.scriptOperatorPayout }
  if newState.nPoSeBanHeight ≠ -1 ∧ keysSet newState = true then
    { newState with nPoSePenalty := 0, nPoSeBanHeight := -1, nPoSeRevivedHeight := nHeight }
  else newState

/-- What a `CProUpRegTx` makes of a state: another operator key resets the operator's fields and
    bans the masternode. -/
def registrarState (proTx : CProUpRegTx) (state : MNState) : MNState :=
  let newState :=
    if state.pubKeyOperator ≠ proTx.pubKeyOperator then
      state.resetOperatorFields.banIfNotBanned nHeight
    else state
  { newState with
    pubKeyOperator := proTx.pubKeyOperator
    keyIDVoting := proTx.keyIDVoting
    scriptPayout := proTx.scriptPayout }

/-- What a `CProUpRevTx` makes of a state. -/
def revokedState (proTx : CProUpRevTx) (state : MNState) : MNState :=
  { state.resetOperatorFields.banIfNotBanned nHeight with nRevocationReason := proTx.nReason }

def processProUpServTx : Except Failure MNList :=
  match env.getProUpServTx tx.vExtraPayload with
  | none => .error (.asserts "false")
  | some proTx => do
      let dupAddr ← newList.usedBy proTx.addr
        (fun dmn => decide (dmn.proTxHash ≠ proTx.proTxHash))
      rejectIf dupAddr (.dos 100 REJECT_CONFLICT "bad-protx-dup-addr")
      let dmn ← mnOrReject newList proTx.proTxHash
      newList.updateMNByHash proTx.proTxHash (serviceState nHeight proTx dmn.pdmnState)

def processProUpRegTx : Except Failure MNList :=
  match env.getProUpRegTx tx.vExtraPayload with
  | none => .error (.asserts "false")
  | some proTx => do
      let dmn ← mnOrReject newList proTx.proTxHash
      newList.updateMNByHash proTx.proTxHash (registrarState nHeight proTx dmn.pdmnState)

def processProUpRevTx : Except Failure MNList :=
  match env.getProUpRevTx tx.vExtraPayload with
  | none => .error (.asserts "false")
  | some proTx => do
      let dmn ← mnOrReject newList proTx.proTxHash
      newList.updateMNByHash proTx.proTxHash (revokedState nHeight proTx dmn.pdmnState)

/-! ## Quorum commitments -/

/-- Member `i` of a quorum is punished when its bit is not set. A missing bit stands for a read past
    the end of the vector. -/
def punishMember (qc : CFinalCommitment) (mnList : MNList) (member : MN × Nat) :
    Except Failure MNList :=
  if !mnList.hasMN member.1.proTxHash then .ok mnList
  else
    match qc.validMembers[member.2]? with
    | none => .error .nullDereference
    | some true => .ok mnList
    | some false => do
        let penalty ← mnList.calcPenalty 66
        mnList.poSePunish member.1.proTxHash penalty

def handleQuorumCommitment (params : LLMQParams) (qc : CFinalCommitment)
    (mnList : MNList) : Except Failure MNList :=
  (getAllQuorumMembers env params qc.quorumHash).zipIdx.foldlM (punishMember qc) mnList

def processQuorumCommitmentTx : Except Failure MNList :=
  match env.getFinalCommitmentTx tx.vExtraPayload with
  | none => .error (.asserts "false")
  | some qc =>
    if qc.commitment.isNull then .ok newList
    else
      match env.table.llmqs.get? qc.commitment.llmqType with
      | none => .error (.throws "map::at")
      | some params =>
        let quorumHeight := qc.nHeight - qc.nHeight % params.dkgInterval
        if getBlockHash chain quorumHeight ≠ some qc.commitment.quorumHash then
          .error (.dos 100 REJECT_INVALID "bad-qc-quorum-hash")
        else handleQuorumCommitment env params qc.commitment newList

/-! ## The block -/

/-- One transaction of the block, in the first loop. -/
def processTx : Except Failure MNList :=
  if tx.nVersion ≠ 3 then .ok newList
  else
    match tx.nType with
    | .TRANSACTION_PROVIDER_REGISTER => processProRegTx env utxo chain.length newList tx
    | .TRANSACTION_PROVIDER_UPDATE_SERVICE => processProUpServTx env chain.length newList tx
    | .TRANSACTION_PROVIDER_UPDATE_REGISTRAR => processProUpRegTx env chain.length newList tx
    | .TRANSACTION_PROVIDER_UPDATE_REVOKE => processProUpRevTx env chain.length newList tx
    | .TRANSACTION_QUORUM_COMMITMENT => processQuorumCommitmentTx env chain newList tx
    | _ => .ok newList

/-- One input of the block, in the second loop. -/
def removeSpent (prevout : COutPoint) : Except Failure MNList :=
  match newList.getMNByCollateral prevout with
  | none => .ok newList
  | some dmn =>
    if dmn.collateralOutpoint = prevout then newList.removeMN dmn.proTxHash else .ok newList

/-- The outpoints that the transactions name as inputs. -/
def prevouts (vtx : List CTransaction) : List COutPoint :=
  vtx.flatMap (fun tx => tx.vin.map CTxIn.prevout)

/-- The payee of the old list is paid once more if it is still there. -/
def markPaid (payee : Option MN) (newList : MNList) : Except Failure MNList :=
  match payee with
  | none => .ok newList
  | some dmn =>
    match newList.getMN dmn.proTxHash with
    | none => .ok newList
    | some current =>
      newList.updateMNByHash dmn.proTxHash { current.pdmnState with nLastPaidHeight := nHeight }

/-- The list `newList` starts from: the block hash is not known yet. -/
def startList (oldList : MNList) : MNList :=
  { oldList with blockHash := 0, nHeight := chain.length }

/-- The phases before the transactions: confirmations and the decay of penalties. -/
def upkeep (oldList : MNList) : Except Failure MNList :=
  match chain.getLast? with
  | none => .error .nullDereference
  | some pindexPrev => do
      let l ← oldList.allMNs.foldlM (confirmMN env pindexPrev ((chain.length : Int) - 1))
        (startList chain oldList)
      decreasePoSePenalties l

/-- `BuildNewListFromBlock` for a block with the transactions `vtx` on top of `chain`; the coinbase
    is skipped. -/
def buildNewListFromBlock (oldList : MNList) (vtx : List CTransaction) : Except Failure MNList := do
  let l ← upkeep env chain oldList
  let l ← (vtx.drop 1).foldlM (processTx env chain utxo) l
  let l ← (prevouts (vtx.drop 1)).foldlM removeSpent l
  markPaid chain.length oldList.getMNPayee l

end Tecracoin.Evo
