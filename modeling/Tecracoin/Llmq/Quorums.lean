/-
  `llmq/quorums.cpp`: quorum objects built from mined commitments, and their
  caches.

  Of a quorum object the parts that come from the commitment are kept; its
  verification vector and secret key share are filled in later and are not
  read here.  The scan cache drops entries when it grows
  (`unordered_lru_cache`); which ones is not modelled, entries may go at any
  time.
-/
import Tecracoin.Llmq.BlockProcessor

namespace Tecracoin.Llmq

open Data

structure CQuorum where
  qc : CFinalCommitment
  pindexQuorum : Uint256
  minedBlockHash : Uint256
  members : List CBLSPublicKey
deriving DecidableEq

/-- The block processor with the caches of `CQuorumManager`. -/
structure ManagerState where
  core : ProcessorState
  quorumsCache : StdMap QuorumKey CQuorum
  scanQuorumsCache : StdMap QuorumKey (List CQuorum)
deriving DecidableEq

def ManagerState.fresh : ManagerState := ⟨.fresh, .empty, .empty⟩

variable (env : LlmqEnv)

/-- `BuildQuorumFromCommitment`: it reports success whether or not the contributions could be read.
    -/
def buildQuorumFromCommitment (qc : CFinalCommitment) (pindexQuorum : Uint256)
    (minedBlockHash : Uint256) : Except Failure CQuorum :=
  if qc.quorumHash ≠ pindexQuorum then
    .error (.asserts "qc.quorumHash == pindexQuorum->GetBlockHash()")
  else
    .ok ⟨qc, pindexQuorum, minedBlockHash, env.getAllQuorumMembers qc.llmqType pindexQuorum⟩

/-- `GetQuorum` once the commitment is known to be mined. -/
def getMinedQuorum (key : QuorumKey) (s : ManagerState) :
    Except Failure (Option CQuorum × ManagerState) :=
  match s.quorumsCache.get? key with
  | some quorum => .ok (some quorum, s)
  | none =>
    match s.core.db.getMinedCommitment key with
    | none => .ok (none, s)
    | some (qc, minedBlockHash) =>
      (buildQuorumFromCommitment env qc key.2 minedBlockHash).map (fun quorum =>
        (some quorum, { s with quorumsCache := s.quorumsCache.insert StdMap.unordered key quorum }))

/-- `GetQuorum(llmqType, pindexQuorum)`: `none` is the null pointer. -/
def getQuorum (key : QuorumKey) (s : ManagerState) :
    Except Failure (Option CQuorum × ManagerState) :=
  match hasMinedCommitment key s.core with
  | .error e _ => .error e
  | .ok hasQuorum core =>
    if hasQuorum then getMinedQuorum env key { s with core := core }
    else .ok (none, { s with core := core })

/-- The loop of `ScanQuorums` over the base blocks. -/
def collectQuorums (env : LlmqEnv) (type : LLMQType) :
    List Uint256 → ManagerState → Except Failure (List CQuorum × ManagerState)
  | [], s => .ok ([], s)
  | base :: rest, s =>
    match getQuorum env (type, base) s with
    | .error e => .error e
    | .ok (none, _) => .error (.asserts "quorum != nullptr")
    | .ok (some quorum, s) =>
      (collectQuorums env type rest s).map (fun r => (quorum :: r.1, r.2))

/-- `ScanQuorums` past its cache, for `pindexStart` the tip of `chain`. -/
def scanFresh (params : LLMQParams) (chain : CChain) (pindexStart : CBlock)
    (maxCount : Nat) (s : ManagerState) : Except Failure (List CQuorum × ManagerState) := do
  let storeCache := decide (maxCount ≤ params.signingActiveQuorumCount + 1)
  let maxCount2 := if storeCache then params.signingActiveQuorumCount + 1 else maxCount
  let quorumIndexes ← getMinedCommitmentsUntilBlock s.core.db chain params.type maxCount2
  let r ← collectQuorums env params.type quorumIndexes s
  let scanQuorumsCache :=
    if storeCache then
      r.2.scanQuorumsCache.set StdMap.unordered (params.type, pindexStart.hash) r.1
    else r.2.scanQuorumsCache
  .ok (r.1.take maxCount, { r.2 with scanQuorumsCache := scanQuorumsCache })

/-- `ScanQuorums` for `pindexStart` the tip of `chain`. -/
def scanQuorums (params : LLMQParams) (chain : CChain) (maxCount : Nat)
    (s : ManagerState) : Except Failure (List CQuorum × ManagerState) :=
  match chain.getLast? with
  | none => .error .nullDereference
  | some pindexStart =>
    if maxCount ≤ params.signingActiveQuorumCount + 1 then
      match s.scanQuorumsCache.get? (params.type, pindexStart.hash) with
      | some result => .ok (result.take maxCount, s)
      | none => scanFresh env params chain pindexStart maxCount s
    else scanFresh env params chain pindexStart maxCount s

end Tecracoin.Llmq
