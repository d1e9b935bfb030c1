/-
  The quorum code as one state machine: the active chain, the evo database and
  all caches in front of it, and the steps by which a node changes them.

  A block is processed inside a database transaction.  When it is refused, or
  was only to be checked, the database is as before and the caches are as the
  attempt left them.
-/
import Tecracoin.Data.Run
import Tecracoin.Llmq.CbTx
import Tecracoin.Llmq.Quorums

namespace Tecracoin.Llmq

open Data Eff

structure LlmqState where
  chainActive : CChain
  manager : ManagerState
  rootCache : QuorumRootCache

namespace LlmqState

/-- A node that has only its genesis block. -/
def start (genesis : CBlock) : LlmqState := ⟨[genesis], .fresh, ⟨.empty, .empty⟩⟩

def db (s : LlmqState) : QuorumDb := s.manager.core.db

def withCore (s : LlmqState) (core : ProcessorState) : LlmqState :=
  { s with manager := { s.manager with core := core } }

/-- `CScopedDBTransaction::Rollback`. -/
def withDb (s : LlmqState) (db : QuorumDb) : LlmqState :=
  s.withCore { s.manager.core with db := db }

end LlmqState

/-! ## specialtx.cpp -/

variable (env : BlockEnv)

/-- `CheckSpecialTx` for a block on top of `chain`. -/
def checkSpecialTx (chain : CChain) (tx : CTransaction) : Except Failure Unit :=
  if tx.nVersion ≠ 3 ∨ tx.nType = .TRANSACTION_NORMAL then .ok ()
  else if chain.length < env.DIP0003Height then .error (.dos 10 REJECT_INVALID "bad-tx-type")
  else if tx.nType = .TRANSACTION_QUORUM_COMMITMENT then
    checkLLMQCommitment env.toLlmqEnv chain tx
  else env.checkSpecialTxOther chain tx

def checkSpecialTxs (env : BlockEnv) (chain : CChain) : List CTransaction → Except Failure Unit
  | [] => .ok ()
  | tx :: vtx => do
      checkSpecialTx env chain tx
      checkSpecialTxs env chain vtx

/-- The quorum part of `CheckCbTxMerkleRoots`. -/
def checkQuorumsRoot (block : CBlock) (cbTx : CCbTx) : Eff Failure LlmqState Unit := do
  let s ← get
  let r ← lift (calcCbTxMerkleRootQuorums env s.db s.chainActive block s.rootCache)
  modify (fun s => { s with rootCache := r.2 })
  failIf r.1.2 (.dos 100 REJECT_INVALID "bad-cbtx-quorummerkleroot")
  failIf (decide (r.1.1 ≠ cbTx.merkleRootQuorums))
    (.dos 100 REJECT_INVALID "bad-cbtx-quorummerkleroot")

/-- `CheckCbTxMerkleRoots`: a coinbase payload of version 1 has no quorum root. -/
def checkCbTxMerkleRoots (block : CBlock) : Eff Failure LlmqState Unit :=
  match block.vtx.head? with
  | none => throw .nullDereference
  | some coinbase =>
    if coinbase.nType ≠ .TRANSACTION_COINBASE then pure ()
    else
      match env.getCbTx coinbase with
      | none => throw (.dos 100 REJECT_INVALID "bad-cbtx-payload")
      | some cbTx => do
          let s ← get
          lift (env.checkMNListRoot s.chainActive block cbTx)
          when (decide (2 ≤ cbTx.nVersion)) (checkQuorumsRoot env block cbTx)

/-- `ProcessBlock` of the processor, on the whole state. -/
def processBlockOn (env : LlmqEnv) (block : CBlock) : Eff Failure LlmqState Unit := fun s =>
  match processBlock env s.chainActive block s.manager.core with
  | .ok _ core => .ok () (s.withCore core)
  | .error e core => .error e (s.withCore core)

/-- `ProcessSpecialTxsInBlock`, without the masternode list. -/
def processSpecialTxsInBlock (block : CBlock) (fCheckCbTxMerleRoots : Bool) :
    Eff Failure LlmqState Unit := do
  let s ← get
  lift (checkSpecialTxs env s.chainActive block.vtx)
  processBlockOn env.toLlmqEnv block
  when fCheckCbTxMerleRoots (checkCbTxMerkleRoots env block)

/-! ## Steps -/

inductive LlmqOp
  /-- Connect a block that everything else accepts. -/
  | connect (block : CBlock) (fCheckCbTxMerleRoots : Bool)
  /-- Process a block in a transaction that is rolled back in the end. -/
  | tryConnect (block : CBlock) (fCheckCbTxMerleRoots : Bool)
  /-- Disconnect the tip. -/
  | disconnect
  /-- `CalcCbTxMerkleRootQuorums` for a block being assembled. -/
  | calcRoot (block : CBlock)
  | getQuorum (key : QuorumKey)
  | scanQuorums (params : LLMQParams) (nHeight : Nat) (maxCount : Nat)
  /-- The scan cache drops an entry. -/
  | evict (key : QuorumKey)
  | hasMinedCommitment (key : QuorumKey)
  | getMinableCommitment (params : LLMQParams) (nHeight : Nat)
  | message (qc : CFinalCommitment)
  | addMinableCommitment (qc : CFinalCommitment)

/-- The state after an attempt to connect: extended when the block was accepted and is to stay,
    rolled back when it was refused. An exception or a failed assertion ends the run. -/
def afterConnect (s : LlmqState) (block : CBlock) (keep : Bool) :
    EStateM.Result Failure LlmqState Unit → Option LlmqState
  | .ok _ s' =>
    if keep then some { s' with chainActive := s.chainActive ++ [block] }
    else some (s'.withDb s.db)
  | .error (.returnsFalse _) s' => some (s'.withDb s.db)
  | .error _ _ => none

/-- Disconnect the tip of the chain; the genesis block stays. -/
def disconnectTip (env : LlmqEnv) (s : LlmqState) : Option LlmqState :=
  match s.chainActive.getLast? with
  | none => none
  | some block =>
    match undoBlock env s.chainActive.dropLast block s.manager.core with
    | .error _ => none
    | .ok core => some { s.withCore core with chainActive := s.chainActive.dropLast }

def LlmqState.withManager (s : LlmqState) (manager : ManagerState) : LlmqState :=
  { s with manager := manager }

def LlmqState.withProcessor (s : LlmqState) (processor : CQuorumBlockProcessor) : LlmqState :=
  s.withCore { s.manager.core with processor := processor }

/-- The state an effect over the processor leaves. -/
def finalCore {α : Type} (s : LlmqState) :
    EStateM.Result Failure ProcessorState α → Option LlmqState
  | .ok _ core => some (s.withCore core)
  | .error _ _ => none

def step : LlmqOp → LlmqState → Option LlmqState
  | .connect block fCheck, s =>
    -- a block index has one hash and one place in the chain
    if block.hash ∈ s.chainActive.map CBlock.hash then none
    else afterConnect s block true (processSpecialTxsInBlock env block fCheck s)
  | .tryConnect block fCheck, s =>
    if block.hash ∈ s.chainActive.map CBlock.hash then none
    else afterConnect s block false (processSpecialTxsInBlock env block fCheck s)
  | .disconnect, s =>
    if s.chainActive.length ≤ 1 then none else disconnectTip env.toLlmqEnv s
  | .calcRoot block, s =>
    (calcCbTxMerkleRootQuorums env s.db s.chainActive block s.rootCache).toOption.map
      (fun r => { s with rootCache := r.2 })
  | .getQuorum key, s =>
    (getQuorum env.toLlmqEnv key s.manager).toOption.map (fun r => s.withManager r.2)
  | .scanQuorums params nHeight maxCount, s =>
    (scanQuorums env.toLlmqEnv params (s.chainActive.take (nHeight + 1)) maxCount
      s.manager).toOption.map (fun r => s.withManager r.2)
  | .evict key, s =>
    some (s.withManager
      { s.manager with scanQuorumsCache := s.manager.scanQuorumsCache.erase key })
  | .hasMinedCommitment key, s => finalCore s (hasMinedCommitment key s.manager.core)
  | .getMinableCommitment params nHeight, s =>
    finalCore s (getMinableCommitment params s.chainActive nHeight s.manager.core)
  | .message qc, s =>
    (processMessage env.toLlmqEnv s.chainActive qc s.manager.core.processor).toOption.map
      (fun r => s.withProcessor r.2)
  | .addMinableCommitment qc, s =>
    (addMinableCommitment env.toLlmqEnv qc s.manager.core.processor).toOption.map
      s.withProcessor

end Tecracoin.Llmq
