/-
  `llmq/quorums_blockprocessor.cpp`: which commitments a block must carry,
  what is stored for them, and the commitments offered to miners.

  The evo database is seen through its current transaction, as one map per key
  prefix (`Tecracoin.Db.EvoDb` says why that is the same).  The functions run
  over the database and the processor's own containers together, since a
  rolled back block gives the first back and keeps the second.
-/
import Tecracoin.Data.Eff
import Tecracoin.Llmq.Commitment

namespace Tecracoin.Llmq

open Data Eff StdMap

/-- What identifies a quorum. -/
abbrev QuorumKey := LLMQType × Uint256

def CFinalCommitment.key (qc : CFinalCommitment) : QuorumKey := (qc.llmqType, qc.quorumHash)

/-- The entries of the evo database under the prefixes of the processor. -/
structure QuorumDb where
  /-- `DB_MINED_COMMITMENT`: the commitment and the hash of its block. -/
  minedCommitment : StdMap QuorumKey (CFinalCommitment × Uint256)
  /-- `DB_MINED_COMMITMENT_BY_INVERSED_HEIGHT`: mined height to quorum height. -/
  minedByHeight : StdMap (LLMQType × Nat) Nat
  /-- `DB_BEST_BLOCK_UPGRADE`. -/
  bestBlockUpgrade : Option Uint256
deriving DecidableEq

structure CQuorumBlockProcessor where
  minableCommitmentsByQuorum : StdMap QuorumKey Uint256
  minableCommitments : StdMap Uint256 CFinalCommitment
  hasMinedCommitmentCache : StdMap QuorumKey Bool
deriving DecidableEq

/-- What the processor reads and writes. -/
structure ProcessorState where
  db : QuorumDb
  processor : CQuorumBlockProcessor
deriving DecidableEq

def ProcessorState.fresh : ProcessorState := ⟨⟨.empty, .empty, none⟩, ⟨.empty, .empty, .empty⟩⟩

/-! ## Minable commitments -/

variable (env : LlmqEnv)

/-- The order of `std::map<std::pair<LLMQType, uint256>, …>` plays no role: the map is never
    iterated. -/
def addMinableCommitment (fqc : CFinalCommitment) (p : CQuorumBlockProcessor) :
    Except Failure CQuorumBlockProcessor :=
  let commitmentHash := env.serializeHash fqc
  match p.minableCommitmentsByQuorum.get? fqc.key with
  | none =>
    .ok { p with
      minableCommitmentsByQuorum :=
        p.minableCommitmentsByQuorum.set unordered fqc.key commitmentHash
      minableCommitments :=
        p.minableCommitments.insert unordered commitmentHash fqc }
  | some oldHash =>
    match p.minableCommitments.get? oldHash with
    | none => .error (.throws "map::at")
    | some oldFqc =>
      if fqc.countSigners > oldFqc.countSigners then
        -- the index is overwritten first, so it is the new hash that is erased
        .ok { p with
          minableCommitmentsByQuorum :=
            p.minableCommitmentsByQuorum.set unordered fqc.key commitmentHash
          minableCommitments :=
            (p.minableCommitments.erase commitmentHash).insert unordered
              commitmentHash fqc }
      else .ok p

/-! ## Sessions and windows -/

/-- `GetBlockHash` of `validation.cpp` for a height that is not negative. -/
def getBlockHash (chain : CChain) (nBlockHeight : Nat) : Option Uint256 :=
  (chain[nBlockHeight]?).map CBlock.hash

/-- `GetQuorumBlockHash`: the hash of the first block of the session, `none` for the null hash. That
    block is not in the chain yet when it is itself the block being processed. -/
def getQuorumBlockHash (params : LLMQParams) (chain : CChain) (nHeight : Nat) : Option Uint256 :=
  getBlockHash chain (nHeight - nHeight % params.dkgInterval)

def isMiningPhase (params : LLMQParams) (nHeight : Nat) : Bool :=
  let phaseIndex := nHeight % params.dkgInterval
  decide (params.dkgMiningWindowStart ≤ phaseIndex) &&
    decide (phaseIndex ≤ params.dkgMiningWindowEnd)

/-- `HasMinedCommitment`: answers are remembered in the cache. -/
def hasMinedCommitment (key : QuorumKey) : Eff Failure ProcessorState Bool := do
  let s ← get
  match s.processor.hasMinedCommitmentCache.get? key with
  | some answer => pure answer
  | none => do
      let answer := s.db.minedCommitment.contains key
      set { s with processor := { s.processor with
        hasMinedCommitmentCache :=
          s.processor.hasMinedCommitmentCache.insert unordered key answer } }
      pure answer

/-- The answer of `HasMinedCommitment`. -/
def minedAnswer (s : ProcessorState) (key : QuorumKey) : Bool :=
  (s.processor.hasMinedCommitmentCache.get? key).getD (s.db.minedCommitment.contains key)

/-- The state after the question has been asked. -/
def rememberMined (s : ProcessorState) (key : QuorumKey) : ProcessorState :=
  { s with processor := { s.processor with
    hasMinedCommitmentCache := s.processor.hasMinedCommitmentCache.insert unordered key
      (s.db.minedCommitment.contains key) } }

lemma hasMinedCommitment_apply {key : QuorumKey} (s : ProcessorState) :
    hasMinedCommitment key s = .ok (minedAnswer s key) (rememberMined s key) := by
  rw [hasMinedCommitment, get_bind_apply, minedAnswer, rememberMined]
  cases hget : s.processor.hasMinedCommitmentCache.get? key with
  | some answer =>
    rw [insert_of_contains (contains_of_get? hget)]
    rfl
  | none => rfl

def QuorumDb.getMinedCommitment (db : QuorumDb) (key : QuorumKey) :
    Option (CFinalCommitment × Uint256) :=
  db.minedCommitment.get? key

/-- `IsCommitmentRequired` for a block on top of `chain`. -/
def isCommitmentRequired (params : LLMQParams) (chain : CChain) (nHeight : Nat) :
    Eff Failure ProcessorState Bool :=
  match getQuorumBlockHash params chain nHeight with
  | none => pure false
  | some quorumHash => do
      let hasMined ← hasMinedCommitment (params.type, quorumHash)
      pure (isMiningPhase params nHeight && !hasMined)

variable {params : LLMQParams} {chain : CChain} {nHeight : Nat}

lemma isCommitmentRequired_of_none (h : getQuorumBlockHash params chain nHeight = none)
    (s : ProcessorState) : isCommitmentRequired params chain nHeight s = .ok false s := by
  rw [isCommitmentRequired, h]
  rfl

/-- Required in the mining phase, unless it is mined already. -/
lemma isCommitmentRequired_of_some {quorumHash : Uint256}
    (h : getQuorumBlockHash params chain nHeight = some quorumHash) (s : ProcessorState) :
    isCommitmentRequired params chain nHeight s =
      .ok (isMiningPhase params nHeight && !minedAnswer s (params.type, quorumHash))
        (rememberMined s (params.type, quorumHash)) := by
  rw [isCommitmentRequired, h]
  refine bind_ok_iff.mpr ⟨_, _, hasMinedCommitment_apply s, rfl⟩

/-! ## Blocks -/

/-- The loop of `GetCommitmentsFromBlock`. -/
def collectCommitments (env : LlmqEnv) :
    List CTransaction → StdMap LLMQType CFinalCommitment →
      Except Failure (StdMap LLMQType CFinalCommitment)
  | [], ret => .ok ret
  | tx :: vtx, ret =>
    if tx.nType = .TRANSACTION_QUORUM_COMMITMENT then
      match env.getTxPayload tx with
      | none => .error (.dos 100 REJECT_INVALID "bad-tx-payload")
      | some qc =>
        if ret.contains qc.commitment.llmqType then
          .error (.dos 100 REJECT_INVALID "bad-qc-dup")
        else
          collectCommitments env vtx
            (ret.insert LLMQType.lt qc.commitment.llmqType qc.commitment)
    else collectCommitments env vtx ret

def getCommitmentsFromBlock (block : CBlock) (nHeight : Nat) :
    Except Failure (StdMap LLMQType CFinalCommitment) := do
  let ret ← collectCommitments env block.vtx .empty
  if nHeight < env.DIP0003Height ∧ ret.entries ≠ [] then
    .error (.dos 100 REJECT_INVALID "bad-qc-premature")
  else .ok ret

variable (chain : CChain)

/-- One round of the loop over all quorum types in `ProcessBlock`. -/
def checkType (qcs : StdMap LLMQType CFinalCommitment) (params : LLMQParams) :
    Eff Failure ProcessorState Unit := do
  let required ← isCommitmentRequired params chain chain.length
  failIf (qcs.contains params.type && !required)
    (.dos 100 REJECT_INVALID "bad-qc-not-allowed")
  failIf (!qcs.contains params.type && required)
    (.dos 100 REJECT_INVALID "bad-qc-missing")

def checkTypes (chain : CChain) (qcs : StdMap LLMQType CFinalCommitment) :
    List LLMQParams → Eff Failure ProcessorState Unit
  | [] => pure ()
  | params :: rest => do
      checkType chain qcs params
      checkTypes chain qcs rest

/-- The two entries written for a non-null commitment of a block at `nHeight`. -/
def QuorumDb.store (db : QuorumDb) (nHeight : Nat) (blockHash : Uint256) (params : LLMQParams)
    (qc : CFinalCommitment) : QuorumDb :=
  { db with
    minedCommitment :=
      db.minedCommitment.set unordered (params.type, qc.quorumHash) (qc, blockHash)
    minedByHeight :=
      db.minedByHeight.set unordered (params.type, nHeight)
        (nHeight - nHeight % params.dkgInterval) }

/-- The end of `ProcessCommitment`: store the commitment and forget the cached answer. -/
def storeCommitment (nHeight : Nat) (blockHash : Uint256) (params : LLMQParams)
    (qc : CFinalCommitment) (s : ProcessorState) : ProcessorState :=
  { db := s.db.store nHeight blockHash params qc
    processor := { s.processor with
      hasMinedCommitmentCache :=
        s.processor.hasMinedCommitmentCache.erase (params.type, qc.quorumHash) } }

/-- `ProcessCommitment` for a non-null commitment of the session's quorum. -/
def processNonNull (blockHash : Uint256) (params : LLMQParams)
    (qc : CFinalCommitment) : Eff Failure ProcessorState Unit := do
  let hasMined ← hasMinedCommitment (params.type, qc.quorumHash)
  failIf hasMined (.dos 100 REJECT_INVALID "bad-qc-dup")
  failIf (!isMiningPhase params chain.length) (.dos 100 REJECT_INVALID "bad-qc-height")
  failIf (!qc.verify env (env.getAllQuorumMembers params.type qc.quorumHash) true)
    (.dos 100 REJECT_INVALID "bad-qc-invalid")
  modify (storeCommitment chain.length blockHash params qc)

def processCommitment (blockHash : Uint256)
    (qc : CFinalCommitment) : Eff Failure ProcessorState Unit :=
  match env.table.llmqs.get? qc.llmqType with
  | none => throw (.throws "map::at")
  | some params =>
    if getQuorumBlockHash params chain chain.length ≠ some qc.quorumHash then
      throw (.dos 100 REJECT_INVALID "bad-qc-block")
    else if qc.isNull then
      failIf (!qc.verifyNull env) (.dos 100 REJECT_INVALID "bad-qc-invalid-null")
    else processNonNull env chain blockHash params qc

def processCommitments (env : LlmqEnv) (chain : CChain) (blockHash : Uint256) :
    List CFinalCommitment → Eff Failure ProcessorState Unit
  | [] => pure ()
  | qc :: rest => do
      processCommitment env chain blockHash qc
      processCommitments env chain blockHash rest

def writeBestBlock (hash : Uint256) (s : ProcessorState) : ProcessorState :=
  { s with db := { s.db with bestBlockUpgrade := some hash } }

/-- `ProcessBlock` for a block on top of `chain`. -/
def processBlock (block : CBlock) : Eff Failure ProcessorState Unit :=
  if chain.length < env.DIP0003Height then modify (writeBestBlock block.hash)
  else do
    let qcs ← lift (getCommitmentsFromBlock env block chain.length)
    checkTypes chain qcs (env.table.llmqs.entries.map Prod.snd)
    processCommitments env chain block.hash (qcs.entries.map Prod.snd)
    modify (writeBestBlock block.hash)

/-- One commitment of the loop of `UndoBlock`. -/
def undoCommitment (nHeight : Nat) (qc : CFinalCommitment) (s : ProcessorState) :
    Except Failure ProcessorState :=
  if qc.isNull then .ok s
  else do
    let processor ← addMinableCommitment env qc { s.processor with
      hasMinedCommitmentCache := s.processor.hasMinedCommitmentCache.erase qc.key }
    .ok
      { db := { s.db with
          minedCommitment := s.db.minedCommitment.erase qc.key
          minedByHeight := s.db.minedByHeight.erase (qc.llmqType, nHeight) }
        processor := processor }

/-- `UndoBlock` for the block on top of `chain`. -/
def undoBlock (block : CBlock) (s : ProcessorState) : Except Failure ProcessorState := do
  let qcs ← getCommitmentsFromBlock env block chain.length
  let s ← (qcs.entries.map Prod.snd).foldlM
    (fun s qc => undoCommitment env chain.length qc s) s
  match chain.getLast? with
  | none => .error .nullDereference
  | some pprev => .ok (writeBestBlock pprev.hash s)

/-! ## The mined commitments of a chain -/

/-- The iteration of `GetMinedCommitmentsUntilBlock` over the keys of one type: keys are ordered by
    falling mined height, and height 0 is the end. -/
def QuorumDb.minedUntil (db : QuorumDb) (type : LLMQType) : Nat → List Nat
  | 0 => []
  | n + 1 =>
    match db.minedByHeight.get? (type, n + 1) with
    | some quorumHeight => quorumHeight :: db.minedUntil type n
    | none => db.minedUntil type n

/-- `pindex->GetAncestor(quorumHeight)` for each entry. -/
def ancestorHashes (chain : CChain) : List Nat → Except Failure (List Uint256)
  | [] => .ok []
  | quorumHeight :: rest =>
    match getBlockHash chain quorumHeight with
    | none => .error (.asserts "quorumIndex")
    | some hash => (ancestorHashes chain rest).map (hash :: ·)

/-- `GetMinedCommitmentsUntilBlock` for the tip of `chain`. -/
def getMinedCommitmentsUntilBlock (db : QuorumDb) (chain : CChain) (type : LLMQType)
    (maxCount : Nat) : Except Failure (List Uint256) :=
  ancestorHashes chain ((db.minedUntil type (chain.length - 1)).take maxCount)

/-- `GetMinedAndActiveCommitmentsUntilBlock` for the tip of `chain`: the base blocks of every type.
    -/
def getMinedAndActiveCommitmentsUntilBlock (db : QuorumDb) (chain : CChain) :
    Except Failure (StdMap LLMQType (List Uint256)) :=
  env.table.llmqs.mapM (fun _ params =>
    getMinedCommitmentsUntilBlock db chain params.type params.signingActiveQuorumCount)

/-! ## Offering a commitment to a miner -/

/-- `GetMinableCommitment`: `none` when no commitment is to be mined. -/
def getMinableCommitment (params : LLMQParams) (chain : CChain) (nHeight : Nat) :
    Eff Failure ProcessorState (Option CFinalCommitment) := do
  let required ← isCommitmentRequired params chain nHeight
  if !required then pure none
  else
    match getQuorumBlockHash params chain nHeight with
    | none => pure none
    | some quorumHash => do
        let s ← get
        match s.processor.minableCommitmentsByQuorum.get? (params.type, quorumHash) with
        | none => pure (some (.forQuorum params quorumHash))
        | some hash =>
          match s.processor.minableCommitments.get? hash with
          | none => throw (.throws "map::at")
          | some qc => pure (some qc)

/-- The early test of `ProcessMessage`: the stored commitment of the quorum has at most as many
    signers as the one received. -/
def dropsEarly (p : CQuorumBlockProcessor) (qc : CFinalCommitment) : Bool :=
  match p.minableCommitmentsByQuorum.get? qc.key with
  | none => false
  | some hash =>
    match p.minableCommitments.get? hash with
    | none => false
    | some known => decide (known.countSigners ≤ qc.countSigners)

/-- What `ProcessMessage` does with a `QFCOMMITMENT`. -/
inductive MessageOutcome
  /-- `Misbehaving(pfrom->id, howmuch)`. -/
  | misbehaving (howmuch : Nat)
  /-- Ignored, the sender is not punished. -/
  | ignored
  /-- Passed to `AddMinableCommitment`. -/
  | added
deriving DecidableEq

def processMessage (qc : CFinalCommitment)
    (p : CQuorumBlockProcessor) : Except Failure (MessageOutcome × CQuorumBlockProcessor) :=
  if qc.isNull then .ok (.misbehaving 100, p)
  else
    match env.table.llmqs.get? qc.llmqType with
    | none => .ok (.misbehaving 100, p)
    | some params =>
      match CChain.find chain qc.quorumHash with
      | none => .ok (.ignored, p)
      | some quorumHeight =>
        if quorumHeight - quorumHeight % params.dkgInterval ≠ quorumHeight then
          .ok (.misbehaving 100, p)
        else if dropsEarly p qc then .ok (.ignored, p)
        else if !qc.verify env (env.getAllQuorumMembers params.type qc.quorumHash) true then
          .ok (.misbehaving 100, p)
        else (addMinableCommitment env qc p).map (fun p' => (.added, p'))

end Tecracoin.Llmq
