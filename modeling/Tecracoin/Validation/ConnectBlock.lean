/-
  `ConnectBlock` of `validation.cpp` with the functions of its loop:
  `CheckTxInputs`, `GetBlockSubsidy` and `GetSigmaSpendInput`.

  Scripts, sequence locks, masternode payments, special transactions and the old
  zerocoin state are only asked; `ConnectContext` has one field per question.
  Amounts are added as `int64_t`.  Index databases and the undo file are not
  modelled: what `ConnectBlock` writes is the view and the undo data.
-/
import Tecracoin.Coins.UpdateCoins
import Tecracoin.Sigma.Node
import Tecracoin.Validation.CheckBlock

namespace Tecracoin.Validation

open Data Tecracoin.Sigma Coins Eff

def HF_TNODE_HEIGHT : Int := 0

def COINBASE_MATURITY : Int := 400

/-- The answers of the rest of the node during one call of `ConnectBlock`. -/
structure ConnectContext extends BlockAnswers where
  hashGenesisBlock : Uint256
  /-- `hashPrevBlock == view.GetBestBlock()`. -/
  isBestBlock : Bool
  /-- `evoDb->VerifyBestBlock(pprev)`; true without a previous block. -/
  fHasBestBlock : Bool
  sequenceLocks : CTransaction → List Nat → Bool
  transactionSigOpCost : CTransaction → CCoinsViewCache → Nat
  /-- The script part of `CheckInputs`. -/
  scriptChecks : CTransaction → Except Failure Unit
  /-- `control.Wait()`. -/
  controlWait : Bool
  isBlockValueValid : CAmount → Bool
  isBlockPayeeValid : CAmount → Bool
  processSpecialTxsInBlock : Except Failure Unit
  connectBlockZC : Except Failure Unit

/-! ## CheckTxInputs -/

/-- What a thrown `GetValueOut` says. -/
def valueOutOfRange : Failure := .throws "GetValueOut: value out of range"

/-- The loop of `CheckTxInputs` over the inputs. -/
def sumInputs (view : CCoinsViewCache) (nSpendHeight : Int) (nValueIn : CAmount) :
    List CTxIn → Except Failure CAmount
  | [] => .ok nValueIn
  | txin :: vin =>
    let coin := view.accessCoin txin.prevout
    if coin.isSpent then .error (.asserts "!coin.IsSpent()")
    else if coin.fCoinBase ∧ nSpendHeight - coin.nHeight < COINBASE_MATURITY then
      .error (.invalid REJECT_INVALID "bad-txns-premature-spend-of-coinbase")
    else if !moneyRange coin.out.nValue || !moneyRange (wrap64 (nValueIn + coin.out.nValue)) then
      .error (.dos 100 REJECT_INVALID "bad-txns-inputvalues-outofrange")
    else sumInputs view nSpendHeight (wrap64 (nValueIn + coin.out.nValue)) vin

def checkTxInputs (view : CCoinsViewCache) (nSpendHeight : Int) (tx : CTransaction) :
    Except Failure Unit :=
  if !view.haveInputs tx then .error (.invalid 0 "")
  else match sumInputs view nSpendHeight 0 tx.vin with
    | .error e => .error e
    | .ok nValueIn =>
      match tx.getValueOut with
      | none => .error valueOutOfRange
      | some nValueOut =>
        if nValueIn < nValueOut then .error (.dos 100 REJECT_INVALID "bad-txns-in-belowout")
        else if wrap64 (nValueIn - nValueOut) < 0 then
          .error (.dos 100 REJECT_INVALID "bad-txns-fee-negative")
        else if !moneyRange (wrap64 (nValueIn - nValueOut)) then
          .error (.dos 100 REJECT_INVALID "bad-txns-fee-outofrange")
        else .ok ()

/-! ## Amounts -/

def getBlockSubsidy (params : Params) (nHeight : Int) : CAmount :=
  if nHeight = 0 then 0
  else if nHeight = 1 then params.nPremineSubsidy * COIN
  else
    let halvings := nHeight / params.nSubsidyHalvingInterval
    if 64 ≤ halvings then 0 else 11250000000 / 2 ^ halvings.toNat

/-- The loop of `GetSigmaSpendInput`; `none` is an input that cannot be read. -/
def sumDenominations (crypto : Crypto) (sum : CAmount) : List CTxIn → Option CAmount
  | [] => some sum
  | txin :: vin =>
    match crypto.readCoinSpend (txin.scriptSig.drop 1) with
    | none => none
    | some spend =>
      sumDenominations crypto (wrap64 (sum + denominationToInteger spend.denomination)) vin

def getSigmaSpendInput (crypto : Crypto) (tx : CTransaction) : CAmount :=
  if !tx.isSigmaSpend then 0 else (sumDenominations crypto 0 tx.vin).getD 0

/-! ## ConnectBlock -/

structure ConnectBlockState where
  view : CCoinsViewCache
  /-- The block indexes and `block.sigmaTxInfo`. -/
  check : CheckState
  vtxundo : List (List Coin)
  nFees : CAmount
  nSigOpsCost : Nat
  txIds : List Uint256

/-- Run a check of the sigma module. -/
def onCheck (m : Eff Failure CheckState Unit) : Eff Failure ConnectBlockState Unit :=
  fun s =>
    match m s.check with
    | .ok _ c => .ok () { s with check := c }
    | .error e c => .error e { s with check := c }

/-- `return state.DoS(100, error(…), REJECT_INVALID, "bad-txns-zerocoin")` after a check that has
    failed. -/
def statefulCheckFailed : Failure → Failure
  | .returnsFalse state => .returnsFalse (state.DoS 100 REJECT_INVALID "bad-txns-zerocoin")
  | failure => failure

/-- `nFees += nValueIn - tx.GetValueOut()`. -/
def addFees (nValueIn : CAmount) (tx : CTransaction) : Eff Failure ConnectBlockState Unit :=
  match tx.getValueOut with
  | none => throw valueOutOfRange
  | some nValueOut =>
    modify (fun s => { s with nFees := wrap64 (s.nFees + wrap64 (nValueIn - nValueOut)) })

/-- The kinds of transactions that are checked against the minted coins. -/
def isZerocoinOrSigma (tx : CTransaction) : Bool :=
  tx.isZerocoinSpend || tx.isZerocoinMint || tx.isSigmaSpend || tx.isSigmaMint ||
    tx.isZerocoinRemint

section ConnectBlock

variable (env : TxEnv) (ctx : ConnectContext) (st : CSigmaState) (nHeight : Int)

/-- The inputs of an ordinary transaction are there and final. -/
def checkInputsFinal (tx : CTransaction) (view : CCoinsViewCache) : Except Failure Unit :=
  if !view.haveInputs tx then
    .error (.dos 100 REJECT_INVALID "bad-txns-inputs-missingorspent")
  else if !ctx.sequenceLocks tx
      (tx.vin.map (fun txin => (view.accessCoin txin.prevout).nHeight)) then
    .error (.dos 100 REJECT_INVALID "bad-txns-nonfinal")
  else .ok ()

/-- The stateful check of zerocoin and sigma transactions. -/
def checkAgainstMints (tx : CTransaction) : Eff Failure ConnectBlockState Unit := do
  when tx.isSigmaSpend (addFees (getSigmaSpendInput env.crypto tx) tx)
  tryCatch
    (onCheck (checkTransaction env st false (connectFlags nHeight (env.crypto.getHash tx)) tx))
    (fun failure => throw (statefulCheckFailed failure))

/-- `CheckInputs` of an ordinary transaction, with its fee. -/
def checkInputs (tx : CTransaction) (view : CCoinsViewCache) :
    Eff Failure ConnectBlockState Unit := do
  addFees (view.getValueIn tx) tx
  lift (checkTxInputs view nHeight tx)
  lift (ctx.scriptChecks tx)

/-- What the loop records about a transaction at its end. -/
def ConnectBlockState.record (isFirst : Bool) (txHash : Uint256) (nSigOpsCost : Nat)
    (updated : List Coin × CCoinsViewCache) (s : ConnectBlockState) : ConnectBlockState :=
  { s with
    view := updated.2
    vtxundo := if isFirst then s.vtxundo else s.vtxundo ++ [updated.1]
    nSigOpsCost := nSigOpsCost
    txIds := txHash :: s.txIds }

/-- The body of the loop for one transaction. -/
def connectTransaction (isFirst : Bool) (tx : CTransaction) :
    Eff Failure ConnectBlockState Unit := do
  let txHash := env.crypto.getHash tx
  let s ← get
  let hasDuplicateInTheSameBlock := s.txIds.contains txHash
  failIf (hasDuplicateInTheSameBlock &&
    (decide (env.chainType ≠ .chainMain) || decide (HF_TNODE_HEIGHT ≤ nHeight)))
    (.dos 100 REJECT_INVALID "bad-txns-duplicatetxid")
  when tx.spendsCoins (lift (checkInputsFinal ctx tx s.view))
  when (isZerocoinOrSigma tx) (checkAgainstMints env st nHeight tx)
  let nSigOpsCost := s.nSigOpsCost + ctx.transactionSigOpCost tx s.view
  failIf (decide (nSigOpsCost > MAX_BLOCK_SIGOPS_COST))
    (.dos 100 REJECT_INVALID "bad-blk-sigops")
  when tx.spendsCoins (checkInputs ctx nHeight tx s.view)
  -- a duplicate would not update the coins; every height denies it above
  let updated ← lift
    (if hasDuplicateInTheSameBlock then .ok ([], s.view)
      else s.view.updateCoins txHash tx nHeight)
  modify (ConnectBlockState.record isFirst txHash nSigOpsCost updated)

/-- The loop over the transactions after the first one. -/
def connectTransactions : List CTransaction → Eff Failure ConnectBlockState Unit
  | [] => pure ()
  | tx :: vtx => do
      connectTransaction env ctx st nHeight false tx
      connectTransactions vtx

/-- The BIP30 check: no output of the block may exist yet. The entries it looks at are in the cache
    afterwards. -/
def checkBIP30 (vtx : List CTransaction) (view : CCoinsViewCache) :
    Except Failure CCoinsViewCache :=
  let outpoints := vtx.flatMap (fun tx => (outputs (env.crypto.getHash tx) tx).map Prod.fst)
  if outpoints.any view.haveCoin then .error (.dos 100 REJECT_INVALID "bad-txns-BIP30")
  else .ok (outpoints.foldl CCoinsViewCache.fetchCoin view)

def isDIP3Enforced : Bool := decide (env.params.DIP0003EnforcementHeight ≤ nHeight)

/-- The coinbase may pay out the fees and the subsidy. -/
def checkReward (coinbase : CTransaction) (nFees : CAmount) : Except Failure Unit :=
  let blockSubsidy := getBlockSubsidy env.params nHeight
  let blockReward := wrap64 (nFees + blockSubsidy)
  match coinbase.getValueOut with
  | none => .error valueOutOfRange
  | some nValueOut =>
    if nValueOut > blockReward then .error (.dos 100 REJECT_INVALID "bad-cb-amount")
    else if !ctx.isBlockValueValid blockReward then
      .error (.dos 0 REJECT_INVALID "bad-cb-amount")
    else if !ctx.isBlockPayeeValid
        (if isDIP3Enforced env nHeight then blockSubsidy else blockReward) then
      .error (.dos 0 REJECT_INVALID "bad-cb-payee")
    else .ok ()

/-- The whole loop, from a view that has passed the BIP30 check. -/
def connectAll (vtx : List CTransaction) : Eff Failure ConnectBlockState Unit :=
  match vtx with
  | [] => throw .nullDereference
  | coinbase :: rest => do
      connectTransaction env ctx st nHeight true coinbase
      connectTransactions env ctx st nHeight rest
      failIf (!ctx.controlWait) (.dos 100 0 "")
      let s ← get
      lift (checkReward env ctx nHeight coinbase s.nFees)

end ConnectBlock

/-- What `ConnectBlock` reads and writes. -/
structure ChainState where
  sigmaState : CSigmaState
  chainActive : List CBlockIndex
  view : CCoinsViewCache
  /-- The flags of the cache are true. -/
  coherent : view.Coherent

/-- What an accepted block leaves. -/
structure Connected where
  sigmaState : CSigmaState
  pindex : CBlockIndex
  chain : List CBlockIndex
  view : CCoinsViewCache
  vtxundo : List (List Coin)
  nFees : CAmount

/-- A call of an effect as a plain result. -/
def runCheck {σ : Type} (m : Eff Failure σ Unit) (s : σ) : Except Failure σ :=
  match m s with
  | .ok _ s' => .ok s'
  | .error e _ => .error e

def evoDbInconsistent : Failure :=
  .returnsFalse ⟨0, 0, "Found EvoDB inconsistency, you must reindex to continue"⟩

/-- `CheckBlock(block, state, params, !fJustCheck, !fJustCheck, pindex->nHeight, false)`. -/
def ConnectContext.checkBlockCall (ctx : ConnectContext) (fJustCheck : Bool) (nHeight : Int)
    (vtx : List CTransaction) : CheckBlockCall where
  toBlockAnswers := ctx.toBlockAnswers
  vtx := vtx
  fCheckPOW := !fJustCheck
  fCheckMerkleRoot := !fJustCheck
  nHeight := nHeight
  isVerifyDB := false

/-- `ConnectBlock` for the block index `pindex`, a child of the tip. -/
def connectBlock (env : TxEnv) (ctx : ConnectContext) (fJustCheck : Bool) (pindex : BlockId)
    (block : CBlock env) (s : ChainState) : Except Failure Connected := do
  let checked ← runCheck ((ctx.checkBlockCall fJustCheck pindex.nHeight block.vtx).checkBlock env
    s.sigmaState) ⟨s.chainActive, block.fChecked⟩
  if !ctx.isBestBlock then .error (.asserts "hashPrevBlock == view.GetBestBlock()")
  else if decide (env.params.DIP0003Height ≤ pindex.nHeight) && !ctx.fHasBestBlock then
    .error evoDbInconsistent
  else if block.hash = ctx.hashGenesisBlock then
    .ok ⟨s.sigmaState, .fresh pindex, checked.chain, s.view, [], 0⟩
  else do
    let view ← checkBIP30 env block.vtx s.view
    let connected ← runCheck (connectAll env ctx s.sigmaState pindex.nHeight block.vtx)
      ⟨view, ⟨checked.chain, some .empty⟩, [], 0, 0, []⟩
    ctx.processSpecialTxsInBlock
    ctx.connectBlockZC
    let sigma ← runCheck (connectBlockSigma env.crypto env.params
      (some ⟨block.vtx, connected.check.sigmaTxInfo.map CSigmaTxInfo.complete⟩) fJustCheck)
      ⟨s.sigmaState, .fresh pindex⟩
    .ok ⟨sigma.sigmaState, sigma.pindexNew, connected.check.chain, connected.view,
      connected.vtxundo, connected.nFees⟩

/-! ## A small instance -/

namespace Sample

open Tecracoin.Sigma.Sample

/-- A node that has no objection. -/
def permissive : ConnectContext where
  toBlockAnswers := soundBlock
  hashGenesisBlock := 0
  isBestBlock := true
  fHasBestBlock := true
  sequenceLocks _ _ := true
  transactionSigOpCost _ _ := 0
  scriptChecks _ := .ok ()
  controlWait := true
  isBlockValueValid _ := true
  isBlockPayeeValid _ := true
  processSpecialTxsInBlock := .ok ()
  connectBlockZC := .ok ()

/-- A coinbase, a payment from the coin `⟨9, 0⟩`, and a second payment from the output of the first.
    -/
def paymentBlock : CBlock regtestEnv where
  hash := 7
  vtx :=
    [tx 1 [⟨⟨0, 0xffffffff⟩, [0x52, 0x00], 0⟩] [⟨114 * COIN, [0x51]⟩],
      tx 2 [⟨⟨9, 0⟩, [], 0⟩] [⟨2 * COIN, [0x51]⟩, ⟨0, [OP_RETURN]⟩],
      tx 3 [⟨⟨2, 0⟩, [], 0⟩] [⟨COIN, [0x51]⟩]]
  fChecked := false
  passed := fun h => (nomatch h)

/-- One coin of `nHeight`, nothing cached. -/
def oneCoin (nHeight : Nat) (script : CScript := [0x51]) : ChainState where
  sigmaState := .reset
  chainActive := []
  view := ⟨fun o => if o = ⟨9, 0⟩ then some ⟨⟨3 * COIN, script⟩, false, nHeight⟩ else none, .empty⟩
  coherent := CCoinsViewCache.coherent_of_empty

/-- One coin has been minted. -/
def oneMint : ChainState :=
  { oneCoin 1 with sigmaState := minted.sigmaState, chainActive := minted.chainActive }

/-- A coinbase that leaves `left` of the subsidy, a mint from the coin `⟨9, 0⟩` with change, and a
    spend of one coin that pays out `excess` more. -/
def sigmaBlock (left excess : CAmount) : CBlock testEnv where
  hash := 2
  vtx :=
    [tx 2 [⟨⟨0, 0xffffffff⟩, [0x52, 0x00], 0⟩] [⟨11250000000 - left, [0x51]⟩],
      tx 3 [⟨⟨9, 0⟩, [], 0⟩] [mintOutput 8, ⟨2 * COIN, [0x51]⟩],
      tx 4 [spendInput 1 5] [⟨COIN + excess, [0x51]⟩]]
  fChecked := false
  passed := fun h => (nomatch h)

/-- Connects it at height 2, to a chain with one minted coin. -/
abbrev connectSigmaBlock (left excess : CAmount) : Except Failure Connected :=
  connectBlock testEnv permissive false ⟨2, 2⟩ (sigmaBlock left excess) oneMint

end Sample

end Tecracoin.Validation
