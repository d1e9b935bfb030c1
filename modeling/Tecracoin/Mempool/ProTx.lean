/-
  The provider transactions of the memory pool: the five indexes that
  `addUnchecked` and `removeUnchecked` keep for them, and
  `existsProviderTxConflict`, which looks into these indexes.

  The flag `isKeyChangeProTx` of a pool entry is kept beside the entries, as the
  list of the ids that have it.
-/
import Tecracoin.Evo.ProviderTx
import Tecracoin.Mempool.Pool

namespace Tecracoin.Mempool

open Data Evo StdMap

/-- The memory pool with its indexes of provider transactions. -/
structure ProTxPool where
  pool : CTxMemPool
  /-- A multimap: all transactions that refer to an existing provider transaction. -/
  mapProTxRefs : List (Uint256 × Uint256)
  mapProTxAddresses : StdMap CService Uint256
  mapProTxPubKeyIDs : StdMap CKeyID Uint256
  mapProTxBlsPubKeyHashes : StdMap Uint256 Uint256
  mapProTxCollaterals : StdMap COutPoint Uint256
  /-- The entries with `isKeyChangeProTx`. -/
  keyChangeProTxs : List Uint256

namespace ProTxPool

def empty : ProTxPool := ⟨.empty, [], .empty, .empty, .empty, .empty, []⟩

section Operations

variable (env : EvoEnv) (blsHash : CBLSPublicKey → Uint256)

/-! ## addUnchecked -/

/-- The branch of `addUnchecked` for a registration. -/
def addProRegTx (hash : Uint256) (proTx : CProRegTx) (p : ProTxPool) : ProTxPool :=
  { p with
    mapProTxRefs :=
      if proTx.collateralOutpoint.hash ≠ 0 then
        p.mapProTxRefs ++ [(hash, proTx.collateralOutpoint.hash)]
      else p.mapProTxRefs
    mapProTxAddresses := p.mapProTxAddresses.insert unordered proTx.addr hash
    mapProTxPubKeyIDs := p.mapProTxPubKeyIDs.insert unordered proTx.keyIDOwner hash
    mapProTxBlsPubKeyHashes :=
      p.mapProTxBlsPubKeyHashes.insert unordered (blsHash proTx.pubKeyOperator) hash
    mapProTxCollaterals :=
      if proTx.collateralOutpoint.hash ≠ 0 then
        p.mapProTxCollaterals.insert unordered proTx.collateralOutpoint hash
      else p.mapProTxCollaterals }

/-- The flag of an entry that changes the operator key. -/
def markKeyChange (hash : Uint256) (isKeyChange : Bool) (p : ProTxPool) : ProTxPool :=
  if isKeyChange then { p with keyChangeProTxs := hash :: p.keyChangeProTxs } else p

/-- The part of `addUnchecked` for provider transactions. -/
def addProTx (mnList : MNList) (tx : CTransaction) (p : ProTxPool) : Except Failure ProTxPool :=
  match tx.nType with
  | .TRANSACTION_PROVIDER_REGISTER =>
    match env.getProRegTx tx.vExtraPayload with
    | none => .error (.asserts "ok")
    | some proTx => .ok (p.addProRegTx blsHash (env.getHash tx) proTx)
  | .TRANSACTION_PROVIDER_UPDATE_SERVICE =>
    match env.getProUpServTx tx.vExtraPayload with
    | none => .error (.asserts "ok")
    | some proTx =>
      .ok { p with
        mapProTxRefs := p.mapProTxRefs ++ [(proTx.proTxHash, env.getHash tx)]
        mapProTxAddresses :=
          p.mapProTxAddresses.insert unordered proTx.addr (env.getHash tx) }
  | .TRANSACTION_PROVIDER_UPDATE_REGISTRAR =>
    match env.getProUpRegTx tx.vExtraPayload with
    | none => .error (.asserts "ok")
    | some proTx =>
      match mnList.getMN proTx.proTxHash with
      | none => .error (.asserts "dmn")
      | some dmn =>
        .ok (markKeyChange (env.getHash tx)
          (decide (dmn.pdmnState.pubKeyOperator ≠ proTx.pubKeyOperator))
          { p with
            mapProTxRefs := p.mapProTxRefs ++ [(proTx.proTxHash, env.getHash tx)]
            mapProTxBlsPubKeyHashes :=
              p.mapProTxBlsPubKeyHashes.insert unordered
                (blsHash proTx.pubKeyOperator) (env.getHash tx) })
  | .TRANSACTION_PROVIDER_UPDATE_REVOKE =>
    match env.getProUpRevTx tx.vExtraPayload with
    | none => .error (.asserts "ok")
    | some proTx =>
      match mnList.getMN proTx.proTxHash with
      | none => .error (.asserts "dmn")
      | some dmn =>
        .ok (markKeyChange (env.getHash tx)
          (decide (dmn.pdmnState.pubKeyOperator ≠ .null))
          { p with mapProTxRefs := p.mapProTxRefs ++ [(proTx.proTxHash, env.getHash tx)] })
  | _ => .ok p

/-- `addUnchecked` at a tip with the masternode list `mnList`. -/
def addUnchecked (mnList : MNList) (entry : CTxMemPoolEntry) (p : ProTxPool) :
    Except Failure ProTxPool :=
  addProTx env blsHash mnList entry.tx
    { p with pool := p.pool.addUnchecked (env.getHash entry.tx) entry }

/-! ## removeUnchecked -/

/-- `eraseProTxRef(proTxHash, txHash)`. -/
def eraseProTxRef (proTxHash txHash : Uint256) (refs : List (Uint256 × Uint256)) :
    List (Uint256 × Uint256) :=
  refs.filter (fun ref => !(decide (ref.1 = proTxHash) && decide (ref.2 = txHash)))

/-- The part of `removeUnchecked` for provider transactions. The keys are erased whoever has them.
    -/
def removeProTx (tx : CTransaction) (p : ProTxPool) : Except Failure ProTxPool :=
  match tx.nType with
  | .TRANSACTION_PROVIDER_REGISTER =>
    match env.getProRegTx tx.vExtraPayload with
    | none => .error (.asserts "false")
    | some proTx =>
      .ok { p with
        mapProTxRefs :=
          if proTx.collateralOutpoint.isNull then p.mapProTxRefs
          else eraseProTxRef (env.getHash tx) proTx.collateralOutpoint.hash p.mapProTxRefs
        mapProTxAddresses := p.mapProTxAddresses.erase proTx.addr
        mapProTxPubKeyIDs := p.mapProTxPubKeyIDs.erase proTx.keyIDOwner
        mapProTxBlsPubKeyHashes :=
          p.mapProTxBlsPubKeyHashes.erase (blsHash proTx.pubKeyOperator)
        mapProTxCollaterals := p.mapProTxCollaterals.erase proTx.collateralOutpoint }
  | .TRANSACTION_PROVIDER_UPDATE_SERVICE =>
    match env.getProUpServTx tx.vExtraPayload with
    | none => .error (.asserts "false")
    | some proTx =>
      .ok { p with
        mapProTxRefs := eraseProTxRef proTx.proTxHash (env.getHash tx) p.mapProTxRefs
        mapProTxAddresses := p.mapProTxAddresses.erase proTx.addr }
  | .TRANSACTION_PROVIDER_UPDATE_REGISTRAR =>
    match env.getProUpRegTx tx.vExtraPayload with
    | none => .error (.asserts "false")
    | some proTx =>
      .ok { p with
        mapProTxRefs := eraseProTxRef proTx.proTxHash (env.getHash tx) p.mapProTxRefs
        mapProTxBlsPubKeyHashes :=
          p.mapProTxBlsPubKeyHashes.erase (blsHash proTx.pubKeyOperator) }
  | .TRANSACTION_PROVIDER_UPDATE_REVOKE =>
    match env.getProUpRevTx tx.vExtraPayload with
    | none => .error (.asserts "false")
    | some proTx =>
      .ok { p with
        mapProTxRefs := eraseProTxRef proTx.proTxHash (env.getHash tx) p.mapProTxRefs }
  | _ => .ok p

/-- `removeUnchecked` of an entry of the pool. -/
def removeUnchecked (it : Uint256) (p : ProTxPool) : Except Failure ProTxPool :=
  match p.pool.mapTx.get? it with
  | none => .error .nullDereference
  | some entry =>
    (removeProTx env blsHash entry.tx p).map (fun p =>
      { p with
        pool := p.pool.removeUnchecked it
        keyChangeProTxs := p.keyChangeProTxs.filter (fun hash => decide (hash ≠ it)) })

/-! ## clear -/

/-- `_clear`: of the five indexes two are cleared. -/
def clear (p : ProTxPool) : ProTxPool :=
  { p with
    pool := .empty
    mapProTxAddresses := .empty
    mapProTxPubKeyIDs := .empty
    keyChangeProTxs := [] }

/-! ## existsProviderTxConflict -/

def hasKeyChangeInMempool (p : ProTxPool) (proTxHash : Uint256) : Bool :=
  p.mapProTxRefs.any (fun ref =>
    decide (ref.1 = proTxHash) && p.pool.contains ref.2 && decide (ref.2 ∈ p.keyChangeProTxs))

/-- `it != map.end() && it->second != proTxHash`. -/
def heldByOther {K : Type} [DecidableEq K] (map : StdMap K Uint256) (key : K)
    (proTxHash : Uint256) : Bool :=
  match map.get? key with
  | none => false
  | some hash => decide (hash ≠ proTxHash)

def existsProviderTxConflict (mnList : MNList) (p : ProTxPool) (tx : CTransaction) : Bool :=
  match tx.nType with
  | .TRANSACTION_PROVIDER_REGISTER =>
    match env.getProRegTx tx.vExtraPayload with
    | none => true
    | some proTx =>
      p.mapProTxAddresses.contains proTx.addr || p.mapProTxPubKeyIDs.contains proTx.keyIDOwner ||
        p.mapProTxBlsPubKeyHashes.contains (blsHash proTx.pubKeyOperator) ||
        (decide (proTx.collateralOutpoint.hash ≠ 0) &&
          (p.mapProTxCollaterals.contains proTx.collateralOutpoint ||
            p.pool.mapNextTx.contains proTx.collateralOutpoint))
  | .TRANSACTION_PROVIDER_UPDATE_SERVICE =>
    match env.getProUpServTx tx.vExtraPayload with
    | none => true
    | some proTx => heldByOther p.mapProTxAddresses proTx.addr proTx.proTxHash
  | .TRANSACTION_PROVIDER_UPDATE_REGISTRAR =>
    match env.getProUpRegTx tx.vExtraPayload with
    | none => true
    | some proTx =>
      match mnList.getMN proTx.proTxHash with
      | none => true
      | some dmn =>
        -- only one change of the operator key at a time
        (decide (dmn.pdmnState.pubKeyOperator ≠ proTx.pubKeyOperator) &&
          p.hasKeyChangeInMempool proTx.proTxHash) ||
        heldByOther p.mapProTxBlsPubKeyHashes (blsHash proTx.pubKeyOperator) proTx.proTxHash
  | .TRANSACTION_PROVIDER_UPDATE_REVOKE =>
    match env.getProUpRevTx tx.vExtraPayload with
    | none => true
    | some proTx =>
      match mnList.getMN proTx.proTxHash with
      | none => true
      | some dmn =>
        decide (dmn.pdmnState.pubKeyOperator ≠ .null) &&
          p.hasKeyChangeInMempool proTx.proTxHash
  | _ => false

end Operations

end ProTxPool

end Tecracoin.Mempool
