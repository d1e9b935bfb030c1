/-
  The sigma checks of `sigma.cpp`: `CheckSigmaSpendTransaction`,
  `CheckSigmaMintTransaction`, `CheckSigmaTransaction`, `CheckSigmaBlock` and
  `ConnectBlockSigma`.

  The global `sigmaState` is only read while a transaction is checked.  What a
  check writes is the `CSigmaTxInfo` of the block and, through `operator[]`,
  the block indexes it walks over; both are the state of the computation and
  both survive a `return false`.
-/
import Tecracoin.Data.Eff
import Tecracoin.Sigma.State

namespace Tecracoin.Sigma

open Data Eff

/-! ## CSigmaTxInfo -/

structure CSigmaTxInfo where
  zcTransactions : List Uint256
  mints : List PublicCoin
  spentSerials : StdMap Scalar CSpendCoinInfo
  fInfoIsComplete : Bool

namespace CSigmaTxInfo

def empty : CSigmaTxInfo := ⟨[], [], .empty, false⟩

variable (info : CSigmaTxInfo)

/-- `Complete()`: sort the mints by their serialisation and close the info. -/
def complete : CSigmaTxInfo :=
  { info with
    mints := info.mints.insertionSort (fun m1 m2 => m1.serializedLe m2 = true)
    fInfoIsComplete := true }

/-- The mints and the transaction id a passed mint check adds. -/
def addMint (pubCoin : PublicCoin) (hashTx : Uint256) : CSigmaTxInfo :=
  { info with
    mints := info.mints ++ [pubCoin]
    zcTransactions := info.zcTransactions ++ [hashTx] }

/-- `spentSerials.insert(...)`: the first spend of a serial stays. -/
def addSerial (serial : Scalar) (coinInfo : CSpendCoinInfo) : CSigmaTxInfo :=
  { info with spentSerials := info.spentSerials.insert StdMap.unordered serial coinInfo }

def addTransaction (hashTx : Uint256) : CSigmaTxInfo :=
  { info with zcTransactions := info.zcTransactions ++ [hashTx] }

end CSigmaTxInfo

/-- What a sigma check can write. -/
structure CheckState where
  chain : List CBlockIndex
  sigmaTxInfo : Option CSigmaTxInfo

/-- `chainActive.Height()`. -/
def chainHeight (chain : List CBlockIndex) : Int := (chain.length : Int) - 1

/-- Apply a change to the info if there is one and it is not complete. -/
def CheckState.updateInfo (f : CSigmaTxInfo → CSigmaTxInfo) (s : CheckState) : CheckState :=
  { s with
    sigmaTxInfo := s.sigmaTxInfo.map (fun info => if info.fInfoIsComplete then info else f info) }

/-- `sigmaTxInfo && sigmaTxInfo->zcTransactions.count(hashTx) > 0`. -/
def CheckState.seen (s : CheckState) (hashTx : Uint256) : Bool :=
  match s.sigmaTxInfo with
  | none => false
  | some info => info.zcTransactions.contains hashTx

/-! ## The anonymity set -/

/-- Find the block with hash `accumulatorBlockHash`, or stop at the first block of the group. -/
def seekAccumulator (firstBlock : Option BlockId) (accumulatorBlockHash : Uint256)
    (walk : ChainWalk (List PublicCoin)) : ChainWalk (List PublicCoin)
  | [] => .error .nullDereference
  | index :: below =>
    if some index.toBlockId = firstBlock ∨ index.phashBlock = accumulatorBlockHash then
      walk (index :: below)
    else match seekAccumulator firstBlock accumulatorBlockHash walk below with
      | .error e => .error e
      | .ok (coins, below) => .ok (coins, index :: below)

/-- Collect the coins under `key` down to the first block of the group, touching the key in every
    block. -/
def collectCoins (key : GroupKey) (firstBlock : Option BlockId) : ChainWalk (List PublicCoin)
  | [] => .error .nullDereference
  | index :: below =>
    if some index.toBlockId = firstBlock then .ok (index.coinsAt key, index.touch key :: below)
    else match collectCoins key firstBlock below with
      | .error e => .error e
      | .ok (coins, below) => .ok (index.coinsAt key ++ coins, index.touch key :: below)

/-- The walk of `CheckSigmaSpendTransaction`: the anonymity set of a spend of group `key` against
    block `accumulatorBlockHash`, and the chain with the keys the walk has created. -/
def anonymitySet (key : GroupKey) (coinGroup : SigmaCoinGroupInfo)
    (accumulatorBlockHash : Uint256) (chain : List CBlockIndex) :
    Except Failure (List PublicCoin × List CBlockIndex) :=
  CSigmaState.walkFrom coinGroup.lastBlock
    (seekAccumulator coinGroup.firstBlock accumulatorBlockHash
      (collectCoins key coinGroup.firstBlock)) chain

/-! ## CheckSigmaSpendSerial -/

def checkSigmaSpendSerial (st : CSigmaState) (sigmaTxInfo : Option CSigmaTxInfo)
    (serial : Scalar) (nHeight : Int) (fConnectTip : Bool) : Except Failure Unit :=
  let inThisBlock := match sigmaTxInfo with
    | none => false
    | some info => !info.fInfoIsComplete && info.spentSerials.contains serial
  if inThisBlock then .error (.dosError 0)
  else if st.isUsedCoinSerial serial && (decide (nHeight = intMax) || fConnectTip) then
    .error (.dosError 0)
  else .ok ()

/-! ## CheckSigmaSpendTransaction -/

section Checks

variable (crypto : Crypto) (params : Params) (st : CSigmaState) (flags : CheckFlags)

/-- The transaction without its spend scripts, whose hash the proof signs. -/
def withoutSpendScripts (tx : CTransaction) : CTransaction :=
  { tx with
    vin := tx.vin.map
      (fun txin => if txin.scriptSig.isSigmaSpend then { txin with scriptSig := [] } else txin) }

/-- The flags every sigma check of one transaction is called with. -/
structure CheckFlags where
  hashTx : Uint256
  isVerifyDB : Bool
  nHeight : Int
  isCheckWallet : Bool
  fStatefulSigmaCheck : Bool

/-- `fShouldPad`. -/
def shouldPad (nHeight : Int) (chain : List CBlockIndex) : Bool :=
  (decide (nHeight ≠ intMax) && decide (params.nSigmaPaddingBlock ≤ nHeight)) ||
    (decide (nHeight = intMax) && decide (params.nSigmaPaddingBlock ≤ chainHeight chain))

/-- The stateful part of the loop body for one input: the anonymity set, the proof and the serial
    number. -/
def checkSpendInput (txHashForMetadata : Uint256) (spend : CoinSpend)
    (coinGroupId : Nat) (denomination : CoinDenomination) (txSerials : List Scalar) :
    Eff Failure CheckState Unit := do
  match st.getCoinGroupInfo denomination coinGroupId with
  | none =>
    throw (.dos 100 NO_MINT_ZEROCOIN
      "CheckSigmaSpendTransaction: Error: no coins were minted with such parameters")
  | some coinGroup =>
    let s ← get
    let walked ← lift
      (anonymitySet (denomination, coinGroupId) coinGroup spend.accumulatorBlockHash s.chain)
    modify (fun s => { s with chain := walked.2 })
    let fPadding := decide (ZEROCOIN_TX_VERSION_3_1 ≤ spend.version)
    failIf (!flags.isVerifyDB && fPadding != shouldPad params flags.nHeight s.chain)
      (.dosError 1)
    failIf (!crypto.verify spend walked.1
      ⟨coinGroupId, spend.accumulatorBlockHash, txHashForMetadata⟩ fPadding) .bare
    let s ← get
    -- no duplicate check for an exact copy of a transaction seen in this block
    let serialCheck :=
      checkSigmaSpendSerial st s.sigmaTxInfo spend.coinSerialNumber flags.nHeight false
    when (!s.seen flags.hashTx) (lift serialCheck)
    failIf (txSerials.contains spend.coinSerialNumber) (.dosError 100)
    when (!flags.isVerifyDB && !flags.isCheckWallet)
      (modify (CheckState.updateInfo
        (fun info => info.addSerial spend.coinSerialNumber ⟨spend.denomination, coinGroupId⟩)))

/-- The loop of `CheckSigmaSpendTransaction` over the inputs. -/
def checkSpendInputs (flags : CheckFlags) (txHashForMetadata : Uint256) :
    List CTxIn → List CoinDenomination → List Scalar → Eff Failure CheckState Unit
  | [], _, _ => pure ()
  | txin :: vin, targetDenominations, txSerials =>
    match parseSigmaSpend crypto txin with
    | .error .CBadTxIn =>
      throw (.dos 100 REJECT_MALFORMED "CheckSigmaSpendTransaction: invalid spend transaction")
    | .error .iosFailure => throw (.throws "std::ios_base::failure")
    | .ok (spend, coinGroupId) => do
        failIf
          (spend.version != ZEROCOIN_TX_VERSION_3 && spend.version != ZEROCOIN_TX_VERSION_3_1)
          (.dos 100 NSEQUENCE_INCORRECT
            "CTransaction::CheckTransaction() : Error: incorrect spend transaction verion")
        if !flags.fStatefulSigmaCheck then
          checkSpendInputs flags txHashForMetadata vin targetDenominations.tail txSerials
        else match targetDenominations with
          | [] => throw .nullDereference
          | denomination :: targetDenominations => do
              checkSpendInput crypto params st flags txHashForMetadata spend coinGroupId
                denomination txSerials
              checkSpendInputs flags txHashForMetadata vin targetDenominations
                (spend.coinSerialNumber :: txSerials)

def checkSigmaSpendTransaction (nRealHeight : Int) (tx : CTransaction)
    (targetDenominations : List CoinDenomination) : Eff Failure CheckState Unit := do
  let fUpdate := !flags.isVerifyDB && !flags.isCheckWallet
  failIf
    (fUpdate && decide (params.nDisableUnpaddedSigmaBlock ≤ nRealHeight) &&
      decide (nRealHeight < params.nSigmaPaddingBlock)) (.dosError 100)
  checkSpendInputs crypto params st flags (crypto.getHash (withoutSpendScripts tx)) tx.vin
    targetDenominations []
  let hasSigmaSpendInputs := tx.vin.any (fun txin => txin.scriptSig.isSigmaSpend)
  let hasNonSigmaInputs := tx.vin.any (fun txin => !txin.scriptSig.isSigmaSpend)
  when (fUpdate && hasSigmaSpendInputs)
    (modify (CheckState.updateInfo (fun info => info.addTransaction flags.hashTx)))
  failIf (hasSigmaSpendInputs && hasNonSigmaInputs)
    (.dos 100 REJECT_MALFORMED
      "CheckSigmaSpendTransaction: can't mix zerocoin spend input with regular ones")

/-! ## CheckSigmaMintTransaction -/

def checkSigmaMintTransaction (txout : CTxOut) : Eff Failure CheckState Unit := do
  match parseSigmaMintScript crypto txout.scriptPubKey with
  | none =>
    throw (.dos 100 PUBCOIN_NOT_VALIDATE
      "CTransaction::CheckTransaction() : PubCoin validation failed")
  | some pubCoinValue =>
    match integerToDenomination txout.nValue with
    | none =>
      throw (.returnsFalse ((CValidationState.valid.DoSError 100).DoS 100 PUBCOIN_NOT_VALIDATE
        "CTransaction::CheckSigmaTransaction() : PubCoin validation failed, unknown denomination"))
    | some denomination =>
      let pubCoin : PublicCoin := ⟨pubCoinValue, denomination⟩
      let s ← get
      let hasCoin := st.hasCoin pubCoin || (match s.sigmaTxInfo with
        | none => false
        | some info =>
          !info.fInfoIsComplete &&
            info.mints.any (fun mint => decide (mint.value = pubCoin.value)))
      failIf (hasCoin && flags.fStatefulSigmaCheck)
        (.dos 100 PUBCOIN_NOT_VALIDATE "CheckSigmaTransaction: double mint")
      failIf (!crypto.validate pubCoin)
        (.dos 100 PUBCOIN_NOT_VALIDATE "CheckSigmaTransaction : PubCoin validation failed")
      modify (CheckState.updateInfo (fun info => info.addMint pubCoin flags.hashTx))

/-- The loop of `CheckSigmaTransaction` over the outputs. -/
def checkMintOutputs (flags : CheckFlags) : List CTxOut → Eff Failure CheckState Unit
  | [] => pure ()
  | txout :: vout => do
      when txout.scriptPubKey.isSigmaMint (checkSigmaMintTransaction crypto st flags txout)
      checkMintOutputs flags vout

/-! ## CheckSigmaTransaction -/

/-- The denominations of the inputs, or the failure of the first bad input. -/
def spendDenominations : List CTxIn → Except Failure (List CoinDenomination)
  | [] => .ok []
  | txin :: vin =>
    if !txin.scriptSig.isSigmaSpend then
      .error (.dos 100 REJECT_MALFORMED
        "CheckSigmaSpendTransaction: can't mix zerocoin spend input with regular ones")
    else if txin.prevout.n.toNat < 1 ∨ intMax ≤ txin.prevout.n.toNat then .error .bare
    else match crypto.readCoinSpend (txin.scriptSig.drop 1) with
      | none => .error (.throws "std::ios_base::failure")
      | some spend =>
        match integerToDenomination (denominationToInteger spend.denomination) with
        | none => .error (.dosError 100)
        | some denomination => (spendDenominations vin).map (denomination :: ·)

/-- `IsSigmaAllowed(height)`. -/
def isSigmaAllowed (height : Int) : Bool := decide (params.nSigmaStartBlock ≤ height)

def realHeight (nHeight : Int) (chain : List CBlockIndex) : Int :=
  if nHeight = intMax then chainHeight chain else nHeight

def checkSigmaTransaction (tx : CTransaction) : Eff Failure CheckState Unit := do
  let s ← get
  let realHeight := realHeight flags.nHeight s.chain
  let allowSigma := isSigmaAllowed params realHeight
  failIf
    (!flags.isVerifyDB && !flags.isCheckWallet && allowSigma && st.isSurgeConditionDetected)
    (.dos 100 REJECT_INVALID "Sigma surge protection is ON.")
  when allowSigma (checkMintOutputs crypto st flags tx.vout)
  when tx.isSigmaSpend do
    failIf (decide (tx.vin.length > params.nMaxSigmaInputPerTransaction))
      (.dos 100 REJECT_INVALID "bad-txns-spend-invalid")
    failIf (decide (getSpendAmount crypto tx > params.nMaxValueSigmaSpendPerTransaction))
      (.dos 100 REJECT_INVALID "bad-txns-spend-invalid")
    let denominations ← lift (spendDenominations crypto tx.vin)
    when (!flags.isVerifyDB)
      (checkSigmaSpendTransaction crypto params st flags realHeight tx denominations)

/-- The flags `ConnectBlock` passes for a transaction of a block at `nHeight`. -/
def connectFlags (nHeight : Int) (hashTx : Uint256) : CheckFlags :=
  ⟨hashTx, false, nHeight, false, true⟩

/-- `ConnectBlock`'s sigma checks: one transaction after the other, with one shared info. -/
def checkSigmaTransactions (nHeight : Int) : List CTransaction → Eff Failure CheckState Unit
  | [] => pure ()
  | tx :: vtx => do
      checkSigmaTransaction crypto params st (connectFlags nHeight (crypto.getHash tx)) tx
      checkSigmaTransactions nHeight vtx

end Checks

/-! ## CheckSigmaBlock and ConnectBlockSigma -/

structure CBlock where
  vtx : List CTransaction
  sigmaTxInfo : Option CSigmaTxInfo

section Connect

variable (crypto : Crypto) (params : Params)

/-- `txSpendsValue` of `CheckSigmaBlock`. -/
def txSpendsValue (tx : CTransaction) : CAmount :=
  if tx.isZerocoinRemint then crypto.remintAmount tx else getSpendAmount crypto tx

/-- `txSpendsAmount` of `CheckSigmaBlock`. -/
def txSpendsAmount (tx : CTransaction) : Nat :=
  (tx.vin.filter (fun txin => txin.isSigmaSpend || txin.isZerocoinRemint)).length

/-- The loop of `CheckSigmaBlock` with its two sums; `none` is a transaction over its own limit. -/
def sumSpends (blockSpendsAmount : Nat) (blockSpendsValue : CAmount) :
    List CTransaction → Option (Nat × CAmount)
  | [] => some (blockSpendsAmount, blockSpendsValue)
  | tx :: vtx =>
    if txSpendsAmount tx > params.nMaxSigmaInputPerTransaction then none
    else if txSpendsValue crypto tx > params.nMaxValueSigmaSpendPerTransaction then none
    else
      sumSpends (blockSpendsAmount + txSpendsAmount tx)
        (wrap64 (blockSpendsValue + txSpendsValue crypto tx)) vtx

/-- `CheckSigmaBlock`; every refusal is `DoS(100, REJECT_INVALID, "bad-txns-spend-invalid")`. -/
def checkSigmaBlock (vtx : List CTransaction) : Bool :=
  match sumSpends crypto params 0 0 vtx with
  | none => false
  | some (blockSpendsAmount, blockSpendsValue) =>
    decide (blockSpendsAmount ≤ params.nMaxSigmaInputPerBlock) &&
      decide (blockSpendsValue ≤ params.nMaxValueSigmaSpendPerBlock)

/-- What `ConnectBlockSigma` can write. -/
structure ConnectState where
  sigmaState : CSigmaState
  pindexNew : CBlockIndex

/-- Record one serial of the block in the index and in the state. -/
def ConnectState.addSerial (serial : Scalar × CSpendCoinInfo) (s : ConnectState) : ConnectState :=
  ⟨s.sigmaState.addSpend serial.1 serial.2,
    { s.pindexNew with
      sigmaSpentSerials :=
        s.pindexNew.sigmaSpentSerials.insert StdMap.unordered serial.1 serial.2 }⟩

/-- The loop of `ConnectBlockSigma` over the serials: each one is checked against the state that the
    ones before it have already been added to. -/
def connectSerials (info : CSigmaTxInfo) (fJustCheck : Bool) :
    List (Scalar × CSpendCoinInfo) → Eff Failure ConnectState Unit
  | [] => pure ()
  | serial :: rest => do
      let s ← get
      lift (checkSigmaSpendSerial s.sigmaState (some info) serial.1 s.pindexNew.nHeight true)
      when (!fJustCheck) (modify (ConnectState.addSerial serial))
      connectSerials info fJustCheck rest

/-- The maps of the index are cleared before anything is checked. -/
def ConnectState.clearIndex (s : ConnectState) : ConnectState :=
  { s with pindexNew := CBlockIndex.fresh s.pindexNew.toBlockId }

def connectBlockSigma (pblock : Option CBlock) (fJustCheck : Bool) :
    Eff Failure ConnectState Unit :=
  match pblock.bind (fun block => block.sigmaTxInfo.map (fun info => (block, info))) with
  | some (block, info) => do
      when (!fJustCheck) (modify ConnectState.clearIndex)
      failIf (!checkSigmaBlock crypto params block.vtx)
        (.dos 100 REJECT_INVALID "bad-txns-spend-invalid")
      connectSerials info fJustCheck info.spentSerials.entries
      when (!fJustCheck) do
        let s ← get
        let added ← lift (s.sigmaState.addMintsToStateAndBlockIndex s.pindexNew info.mints)
        set (ConnectState.mk added.1 added.2)
  | none =>
    when (!fJustCheck)
      (modify (fun s => { s with sigmaState := s.sigmaState.addBlock s.pindexNew }))

end Connect

end Tecracoin.Sigma
