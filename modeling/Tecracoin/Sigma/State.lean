/-
  `CSigmaState` of `sigma.cpp`: the global sigma state, and the part of
  `CBlockIndex` (`chain.h`) it reads and writes.

  A `CBlockIndex *` is a `BlockId`, the hash and the height of the block, and
  `none` is the null pointer.  `pprev` is followed through a list: a chain is
  its block indexes from the tip down to the genesis block, so the ancestors of
  a block are the rest of the list behind it.

  Reads through `operator[]` are modelled with the entry they create.
-/
import Tecracoin.Data.StdMap
import Tecracoin.Sigma.Coin

namespace Tecracoin.Sigma

open Data StdMap

/-! ## Block indexes -/

/-- The identity of a `CBlockIndex`: what a pointer to it is compared by, and its height. -/
structure BlockId where
  phashBlock : Uint256
  nHeight : Int
deriving DecidableEq

/-- `pair<sigma::CoinDenomination, int>`. -/
abbrev GroupKey := CoinDenomination × Int

/-- `operator<` of the key type of `sigmaMintedPubCoins`. -/
def GroupKey.lt (a b : GroupKey) : Bool :=
  decide (a.1.code < b.1.code) || (decide (a.1.code = b.1.code) && decide (a.2 < b.2))

/-- The sigma fields of `CBlockIndex`. -/
structure CBlockIndex extends BlockId where
  sigmaMintedPubCoins : StdMap GroupKey (List PublicCoin)
  sigmaSpentSerials : StdMap Scalar CSpendCoinInfo

namespace CBlockIndex

/-- A fresh index entry, before its block is connected. -/
def fresh (id : BlockId) : CBlockIndex := ⟨id, .empty, .empty⟩

/-- The coins recorded under a key; none when the key is absent. -/
def coinsAt (index : CBlockIndex) (key : GroupKey) : List PublicCoin :=
  (index.sigmaMintedPubCoins.get? key).getD []

/-- `index->sigmaMintedPubCoins[key]` as a side effect: the key exists afterwards, with an empty
    vector if it did not before. -/
def touch (index : CBlockIndex) (key : GroupKey) : CBlockIndex :=
  { index with
    sigmaMintedPubCoins := index.sigmaMintedPubCoins.insert GroupKey.lt key [] }

/-- `index->sigmaMintedPubCoins[key].push_back(coin)`. -/
def pushCoin (key : GroupKey) (index : CBlockIndex) (coin : PublicCoin) : CBlockIndex :=
  { index with
    sigmaMintedPubCoins :=
      index.sigmaMintedPubCoins.set GroupKey.lt key (index.coinsAt key ++ [coin]) }

end CBlockIndex

/-! ## CSigmaState::Containers -/

/-- Key of the mint and spend counters: group id, then denomination. -/
abbrev MetaKey := Int × CoinDenomination

def MetaKey.lt (a b : MetaKey) : Bool :=
  decide (a.1 < b.1) || (decide (a.1 = b.1) && decide (a.2.code < b.2.code))

/-- `metainfo_container_t`: `map<int, map<CoinDenomination, size_t>>`, flattened. -/
abbrev MetaInfo := StdMap MetaKey UInt64

namespace MetaInfo

/-- `metaInfo[groupId][denom]` as a side effect. -/
def touch (m : MetaInfo) (key : MetaKey) : MetaInfo := m.insert MetaKey.lt key 0

/-- `metaInfo[groupId][denom]` as a value. -/
def count (m : MetaInfo) (key : MetaKey) : UInt64 := (m.get? key).getD 0

/-- `metaInfo[groupId][denom] += delta`. -/
def add (m : MetaInfo) (key : MetaKey) (delta : UInt64) : MetaInfo :=
  m.set MetaKey.lt key (m.count key + delta)

end MetaInfo

/-- `CSigmaState::Containers`, with the `surgeCondition` flag it refers to. -/
structure Containers where
  mintedPubCoins : StdMap GroupElement CMintedCoinInfo
  usedCoinSerials : StdMap Scalar CSpendCoinInfo
  mintMetaInfo : MetaInfo
  spendMetaInfo : MetaInfo
  surgeCondition : Bool

namespace Containers

def reset : Containers := ⟨.empty, .empty, .empty, .empty, false⟩

/-- The loop of `CheckSurgeCondition` over the spend counters, which stops at the first counter
    above its mint counter. -/
def surgeLoop (mintMetaInfo : MetaInfo) : List (MetaKey × UInt64) → Bool × MetaInfo
  | [] => (false, mintMetaInfo)
  | (key, nSpends) :: rest =>
    let mintMetaInfo := mintMetaInfo.touch key
    if nSpends > mintMetaInfo.count key then (true, mintMetaInfo)
    else surgeLoop mintMetaInfo rest

variable (c : Containers)

def checkSurgeCondition (groupId : Int) (denom : CoinDenomination) : Containers :=
  let spendMetaInfo := c.spendMetaInfo.touch (groupId, denom)
  let mintMetaInfo := c.mintMetaInfo.touch (groupId, denom)
  let result := decide (spendMetaInfo.count (groupId, denom) > mintMetaInfo.count (groupId, denom))
  let loop := if result then (true, mintMetaInfo) else surgeLoop mintMetaInfo spendMetaInfo.entries
  { c with
    spendMetaInfo := spendMetaInfo
    mintMetaInfo := loop.2
    surgeCondition := loop.1 }

def addMint (pubCoin : PublicCoin) (coinInfo : CMintedCoinInfo) : Containers :=
  checkSurgeCondition
    { c with
      mintedPubCoins := c.mintedPubCoins.insert unordered pubCoin.value coinInfo
      mintMetaInfo := c.mintMetaInfo.add (coinInfo.coinGroupId, coinInfo.denomination) 1 }
    coinInfo.coinGroupId coinInfo.denomination

def removeMint (pubCoin : PublicCoin) : Containers :=
  match c.mintedPubCoins.get? pubCoin.value with
  | none => c
  | some coinInfo =>
    checkSurgeCondition
      { c with
        mintedPubCoins := c.mintedPubCoins.erase pubCoin.value
        mintMetaInfo := c.mintMetaInfo.add (coinInfo.coinGroupId, coinInfo.denomination) (-1) }
      coinInfo.coinGroupId coinInfo.denomination

def addSpend (serial : Scalar) (coinInfo : CSpendCoinInfo) : Containers :=
  checkSurgeCondition
    { c with
      usedCoinSerials := c.usedCoinSerials.set unordered serial coinInfo
      spendMetaInfo := c.spendMetaInfo.add (coinInfo.coinGroupId, coinInfo.denomination) 1 }
    coinInfo.coinGroupId coinInfo.denomination

def removeSpend (serial : Scalar) : Containers :=
  match c.usedCoinSerials.get? serial with
  | none => c
  | some coinInfo =>
    checkSurgeCondition
      { c with
        usedCoinSerials := c.usedCoinSerials.erase serial
        spendMetaInfo := c.spendMetaInfo.add (coinInfo.coinGroupId, coinInfo.denomination) (-1) }
      coinInfo.coinGroupId coinInfo.denomination

end Containers

/-! ## CSigmaState -/

/-- First and last block of a coin group and its number of coins. -/
structure SigmaCoinGroupInfo where
  firstBlock : Option BlockId
  lastBlock : Option BlockId
  nCoins : Nat
deriving DecidableEq

/-- `SigmaCoinGroupInfo()`. -/
def SigmaCoinGroupInfo.empty : SigmaCoinGroupInfo := ⟨none, none, 0⟩

structure CSigmaState where
  coinGroups : StdMap GroupKey SigmaCoinGroupInfo
  latestCoinIds : StdMap CoinDenomination Int
  mempoolCoinSerials : StdMap Scalar Uint256
  mempoolMints : StdMap GroupElement Unit
  containers : Containers

/-- A walk down the chain, which may touch keys in the blocks. -/
abbrev ChainWalk (α : Type) := List CBlockIndex → Except Failure (α × List CBlockIndex)

namespace CSigmaState

/-- The state `Reset` leaves, which is also the initial one. -/
def reset : CSigmaState := ⟨.empty, .empty, .empty, .empty, .reset⟩

variable (st : CSigmaState)

def isUsedCoinSerial (coinSerial : Scalar) : Bool :=
  st.containers.usedCoinSerials.contains coinSerial

def hasCoin (pubCoin : PublicCoin) : Bool :=
  st.containers.mintedPubCoins.contains pubCoin.value

def isSurgeConditionDetected : Bool := st.containers.surgeCondition

section

variable (denomination : CoinDenomination)

/-- `GetCoinGroupInfo`; `none` is its `false`. -/
def getCoinGroupInfo (groupId : Int) : Option SigmaCoinGroupInfo :=
  st.coinGroups.get? (denomination, groupId)

def getLatestCoinID : Int :=
  (st.latestCoinIds.get? denomination).getD 0

def addSpend (serial : Scalar) (coinInfo : CSpendCoinInfo) : CSigmaState :=
  { st with containers := st.containers.addSpend serial coinInfo }

/-- `coinGroups[key] = group`. -/
def setGroup (key : GroupKey) (group : SigmaCoinGroupInfo) : CSigmaState :=
  { st with coinGroups := st.coinGroups.set unordered key group }

/-- `latestCoinIds[denomination] = id`. -/
def setLatest (id : Int) : CSigmaState :=
  { st with latestCoinIds := st.latestCoinIds.set unordered denomination id }

/-- `coinGroups[key]` as a value. -/
def groupAt (key : GroupKey) : SigmaCoinGroupInfo :=
  (st.coinGroups.get? key).getD .empty

/-! ### AddMintsToStateAndBlockIndex -/

/-- Put `nMints` more coins of block `index` into a group that has room: a group without coins
    starts at this block. -/
def extendGroup (coinGroup : SigmaCoinGroupInfo) (index : BlockId) (nMints : Nat) :
    Except Failure SigmaCoinGroupInfo :=
  if coinGroup.nCoins = 0 then
    if coinGroup.firstBlock ≠ none then .error (.asserts "coinGroup.firstBlock == nullptr")
    else if coinGroup.lastBlock ≠ none then .error (.asserts "coinGroup.lastBlock == nullptr")
    else .ok ⟨some index, some index, coinGroup.nCoins + nMints⟩
  else if coinGroup.firstBlock = none then .error (.asserts "coinGroup.firstBlock != nullptr")
  else match coinGroup.lastBlock with
    | none => .error (.asserts "coinGroup.lastBlock != nullptr")
    | some lastBlock =>
      if lastBlock.nHeight ≤ index.nHeight then
        .ok ⟨coinGroup.firstBlock, some index, coinGroup.nCoins + nMints⟩
      else .error (.asserts "coinGroup.lastBlock->nHeight <= index->nHeight")

/-- The id mints of a denomination go to unless the group is full. -/
def currentGroupId : Int :=
  if st.getLatestCoinID denomination < 1 then 1 else st.getLatestCoinID denomination

/-- `latestCoinIds` and `coinGroups` after the current group has been looked up: both references
    leave an entry behind, also if the group is then not used. -/
def openCurrentGroup : CSigmaState :=
  (st.setLatest denomination (st.currentGroupId denomination)).setGroup
    (denomination, st.currentGroupId denomination)
    (st.groupAt (denomination, st.currentGroupId denomination))

end

/-- The group part of `AddMintsToStateAndBlockIndex` for the `nMints > 0` mints of one denomination:
    extend the current group, or open the next one if the mints do not all fit. Returns the id the
    mints get. -/
def assignGroup (index : BlockId) (denomination : CoinDenomination)
    (nMints : Nat) : Except Failure (CSigmaState × Int) :=
  let mintCoinGroupId := st.currentGroupId denomination
  let coinGroup := st.groupAt (denomination, mintCoinGroupId)
  let st := st.openCurrentGroup denomination
  if coinGroup.nCoins + nMints ≤ ZC_SPEND_V3_COINSPERID_LIMIT then
    match extendGroup coinGroup index nMints with
    | .error e => .error e
    | .ok coinGroup =>
      .ok (st.setGroup (denomination, mintCoinGroupId) coinGroup, mintCoinGroupId)
  else
    .ok ((st.setLatest denomination (mintCoinGroupId + 1)).setGroup
      (denomination, mintCoinGroupId + 1) ⟨some index, some index, nMints⟩, mintCoinGroupId + 1)

/-- The inner loop over the mints of one denomination. -/
def recordMints (id : Int) : List PublicCoin → CSigmaState × CBlockIndex → CSigmaState × CBlockIndex
  | [], s => s
  | mint :: mints, (st, index) =>
    recordMints id mints
      ({ st with
          containers := st.containers.addMint mint ⟨mint.denomination, id, index.nHeight⟩ },
        CBlockIndex.pushCoin (mint.denomination, id) index mint)

/-- `blockDenomMints`: the mints of the block by denomination, without the denominations that have
    none. The iteration order of the hash map is not specified; the one fixed here is that of the
    enumeration. -/
def blockDenomMints (mints : List PublicCoin) : List (CoinDenomination × List PublicCoin) :=
  ([.SIGMA_DENOM_0_05, .SIGMA_DENOM_0_1, .SIGMA_DENOM_0_5, .SIGMA_DENOM_1, .SIGMA_DENOM_10,
      .SIGMA_DENOM_25, .SIGMA_DENOM_100].map
    (fun d => (d, mints.filter (fun mint => decide (mint.denomination = d))))).filter
    (fun e => !e.2.isEmpty)

/-- The outer loop over `blockDenomMints`. -/
def addDenomMints : List (CoinDenomination × List PublicCoin) → CSigmaState × CBlockIndex →
    Except Failure (CSigmaState × CBlockIndex)
  | [], s => .ok s
  | (denomination, mints) :: rest, (st, index) =>
    match assignGroup st index.toBlockId denomination mints.length with
    | .error e => .error e
    | .ok (st, id) => addDenomMints rest (recordMints id mints (st, index))

section

variable (st : CSigmaState) (index : CBlockIndex)

def addMintsToStateAndBlockIndex
    (mints : List PublicCoin) : Except Failure (CSigmaState × CBlockIndex) :=
  addDenomMints (blockDenomMints mints) (st, index)

/-! ### AddBlock -/

/-- One iteration of `AddBlock` over `sigmaMintedPubCoins`. -/
def addBlockCoins (index : BlockId) (st : CSigmaState) (pubCoins : GroupKey × List PublicCoin) :
    CSigmaState :=
  let coinGroup := st.groupAt pubCoins.1
  let st :=
    if pubCoins.2.isEmpty then st
    else st.setGroup pubCoins.1
      ⟨if coinGroup.firstBlock = none then some index else coinGroup.firstBlock, some index,
        coinGroup.nCoins + pubCoins.2.length⟩
  let st := st.setLatest pubCoins.1.1 pubCoins.1.2
  { st with
    containers := pubCoins.2.foldl
      (fun c coin => c.addMint coin ⟨pubCoins.1.1, pubCoins.1.2, index.nHeight⟩) st.containers }

def addBlock : CSigmaState :=
  index.sigmaSpentSerials.entries.foldl (fun st serial => st.addSpend serial.1 serial.2)
    (index.sigmaMintedPubCoins.entries.foldl (addBlockCoins index.toBlockId) st)

/-- `BuildSigmaStateFromIndex`: `AddBlock` for every block of the chain, from the genesis block up.
    -/
def buildSigmaStateFromIndex (chain : List CBlockIndex) : CSigmaState :=
  chain.reverse.foldl addBlock st

/-! ### RemoveBlock -/

/-- The walk that rolls `lastBlock` back: `below` are the ancestors of `lastBlock`. -/
def rollBackLastBlock (key : GroupKey) (firstBlock : Option BlockId) (lastBlock : BlockId) :
    List CBlockIndex → Except Failure BlockId
  | [] =>
    if some lastBlock = firstBlock then
      .error (.asserts "coinGroup.lastBlock != coinGroup.firstBlock")
    else .error .nullDereference
  | prev :: below =>
    if some lastBlock = firstBlock then
      .error (.asserts "coinGroup.lastBlock != coinGroup.firstBlock")
    else if prev.sigmaMintedPubCoins.contains key then .ok prev.toBlockId
    else rollBackLastBlock key firstBlock prev.toBlockId below

/-- `latestCoinIds[denomination]--`, erasing the entry when it reaches zero. -/
def decrementLatest (denomination : CoinDenomination) : CSigmaState :=
  let id := st.getLatestCoinID denomination - 1
  if id = 0 then { st with latestCoinIds := st.latestCoinIds.erase denomination }
  else st.setLatest denomination id

/-- One iteration of the first loop of `RemoveBlock`. -/
def removeBlockCoins (index : BlockId) (below : List CBlockIndex) (st : CSigmaState)
    (coin : GroupKey × List PublicCoin) : Except Failure CSigmaState :=
  let coinGroup := st.groupAt coin.1
  let nMintsToForget := coin.2.length
  if coinGroup.nCoins < nMintsToForget then
    .error (.asserts "coinGroup.nCoins >= nMintsToForget")
  else if coinGroup.nCoins - nMintsToForget = 0 then
    .ok (decrementLatest { st with coinGroups := st.coinGroups.erase coin.1 } coin.1.1)
  else if coinGroup.lastBlock ≠ some index then .error (.asserts "coinGroup.lastBlock == index")
  else match rollBackLastBlock coin.1 coinGroup.firstBlock index below with
    | .error e => .error e
    | .ok lastBlock =>
      .ok (st.setGroup coin.1
        ⟨coinGroup.firstBlock, some lastBlock, coinGroup.nCoins - nMintsToForget⟩)

/-- Roll back one mint recorded under `key`. -/
def removeBlockMint (key : GroupKey) (st : CSigmaState) (coin : PublicCoin) :
    Except Failure CSigmaState :=
  match st.containers.mintedPubCoins.get? coin.value with
  | none => .error (.asserts "coinIt != coins.second")
  | some coinInfo =>
    if coinInfo.denomination = key.1 ∧ coinInfo.coinGroupId = key.2 then
      .ok { st with containers := st.containers.removeMint coin }
    else .error (.asserts "coinIt != coins.second")

def removeBlockMints (st : CSigmaState) (pubCoins : GroupKey × List PublicCoin) :
    Except Failure CSigmaState :=
  pubCoins.2.foldlM (removeBlockMint pubCoins.1) st

def removeBlockSpend (st : CSigmaState) (serial : Scalar × CSpendCoinInfo) : CSigmaState :=
  { st with containers := st.containers.removeSpend serial.1 }

/-- `RemoveBlock`; `below` are the ancestors of the removed block. -/
def removeBlock (below : List CBlockIndex) : Except Failure CSigmaState := do
  -- roll back accumulator updates
  let st ← index.sigmaMintedPubCoins.entries.foldlM (removeBlockCoins index.toBlockId below) st
  -- roll back mints
  let st ← index.sigmaMintedPubCoins.entries.foldlM removeBlockMints st
  -- roll back spends
  return index.sigmaSpentSerials.entries.foldl removeBlockSpend st

/-! ### GetCoinSetForSpend -/

/-- What `GetCoinSetForSpend` hands back: the count, `blockHash_out` and `coins_out`. -/
structure CoinSet where
  numberOfCoins : Nat
  blockHash : Option Uint256
  coins : List PublicCoin
deriving DecidableEq

def CoinSet.empty : CoinSet := ⟨0, none, []⟩

/-- The body of the loop: block `block` with `maxHeight`. -/
def CoinSet.addBlock (maxHeight : Int) (key : GroupKey) (acc : CoinSet) (block : CBlockIndex) :
    CoinSet :=
  if (block.coinsAt key).length > 0 ∧ block.nHeight ≤ maxHeight then
    ⟨acc.numberOfCoins + (block.coinsAt key).length,
      if acc.numberOfCoins = 0 then some block.phashBlock else acc.blockHash,
      acc.coins ++ block.coinsAt key⟩
  else acc

/-- The loop from `lastBlock` (the head of the list) down to `firstBlock`. It touches the key in
    every block it passes. -/
def coinSetLoop (maxHeight : Int) (key : GroupKey) (firstBlock : Option BlockId) :
    CoinSet → ChainWalk CoinSet
  | _, [] => .error .nullDereference
  | acc, block :: below =>
    let acc := acc.addBlock maxHeight key block
    if some block.toBlockId = firstBlock then .ok (acc, block.touch key :: below)
    else match coinSetLoop maxHeight key firstBlock acc below with
      | .error e => .error e
      | .ok (acc, below) => .ok (acc, block.touch key :: below)

/-- Start a walk at the block a pointer refers to, and put the walked part of the chain back below
    the blocks above it. -/
def walkFrom {α : Type} (start : Option BlockId) (walk : ChainWalk α) : ChainWalk α
  | [] => .error .nullDereference
  | block :: below =>
    if start = some block.toBlockId then walk (block :: below)
    else match walkFrom start walk below with
      | .error e => .error e
      | .ok (a, below) => .ok (a, block :: below)

/-- `GetCoinSetForSpend`, with the chain as it stands afterwards. -/
def getCoinSetForSpend (chain : List CBlockIndex) (maxHeight : Int)
    (denomination : CoinDenomination) (coinGroupID : Int) :
    Except Failure (CoinSet × List CBlockIndex) :=
  match st.coinGroups.get? (denomination, coinGroupID) with
  | none => .ok (.empty, chain)
  | some coinGroup =>
    walkFrom coinGroup.lastBlock
      (coinSetLoop maxHeight (denomination, coinGroupID) coinGroup.firstBlock .empty) chain

end

/-! ### The mempool part -/

/-- `AddSpendToMempool`: serials before the first conflicting one stay added. -/
def addSpendToMempool (txHash : Uint256) : List Scalar → CSigmaState → Bool × CSigmaState
  | [], st => (true, st)
  | coinSerial :: coinSerials, st =>
    if st.isUsedCoinSerial coinSerial || st.mempoolCoinSerials.contains coinSerial then (false, st)
    else
      addSpendToMempool txHash coinSerials
        { st with
          mempoolCoinSerials := st.mempoolCoinSerials.set unordered coinSerial txHash }

variable (st : CSigmaState) (coinSerial : Scalar)

def removeSpendFromMempool : CSigmaState :=
  { st with mempoolCoinSerials := st.mempoolCoinSerials.erase coinSerial }

def addMintsToMempool (pubCoins : List GroupElement) : CSigmaState :=
  { st with
    mempoolMints := pubCoins.foldl (fun m pubCoin => m.insert unordered pubCoin ())
      st.mempoolMints }

def removeMintFromMempool (pubCoin : GroupElement) : CSigmaState :=
  { st with mempoolMints := st.mempoolMints.erase pubCoin }

/-- `GetMempoolConflictingTxHash`; the null hash when there is none. -/
def getMempoolConflictingTxHash : Uint256 :=
  (st.mempoolCoinSerials.get? coinSerial).getD 0

def canAddSpendToMempool : Bool :=
  !st.isUsedCoinSerial coinSerial && !st.mempoolCoinSerials.contains coinSerial

def canAddMintToMempool (pubCoin : GroupElement) : Bool :=
  !st.mempoolMints.contains pubCoin

end CSigmaState

end Tecracoin.Sigma
