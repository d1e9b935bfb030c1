/-
  `consensus/params.h` (quorum types and their parameters, with the values of
  `chainparams.cpp`) and `llmq/quorums_commitment.cpp`: final commitments and
  the check of a commitment transaction.

  A block index is its hash; the active chain is the list of its blocks, the
  genesis block first, so a height is a position in the list.
-/
import Tecracoin.Bls.Keys
import Tecracoin.Consensus.Params
import Tecracoin.Data.StdMap

namespace Tecracoin.Llmq

open Data

/-! ## consensus/params.h, chainparams.cpp -/

/-- `LLMQType`; commitments carry it as a byte, so codes of no enumerator occur. -/
inductive LLMQType
  | LLMQ_50_60
  | LLMQ_400_60
  | LLMQ_400_85
  | LLMQ_10_70
  | LLMQ_5_60
  | other (code : UInt8)
deriving DecidableEq

/-- The value of the enumerator, which orders the types. -/
def LLMQType.code : LLMQType → UInt8
  | .LLMQ_50_60 => 1
  | .LLMQ_400_60 => 2
  | .LLMQ_400_85 => 3
  | .LLMQ_10_70 => 4
  | .LLMQ_5_60 => 100
  | .other code => code

def LLMQType.lt (a b : LLMQType) : Bool := decide (a.code < b.code)

/-- The parameters of a quorum type. A session starts at every multiple of `dkgInterval`, and its
    mining window opens after its first block. -/
structure LLMQParams where
  type : LLMQType
  size : Nat
  minSize : Nat
  dkgInterval : Nat
  dkgMiningWindowStart : Nat
  dkgMiningWindowEnd : Nat
  signingActiveQuorumCount : Nat
  dkgInterval_pos : 0 < dkgInterval
  windowStart_pos : 0 < dkgMiningWindowStart
  signingActiveQuorumCount_pos : 0 < signingActiveQuorumCount

def llmq5_60 : LLMQParams :=
  ⟨.LLMQ_5_60, 5, 3, 24, 10, 18, 2, by decide, by decide, by decide⟩

def llmq10_70 : LLMQParams :=
  ⟨.LLMQ_10_70, 10, 8, 24, 10, 18, 2, by decide, by decide, by decide⟩

def llmq50_60 : LLMQParams :=
  ⟨.LLMQ_50_60, 50, 40, 18, 10, 16, 16, by decide, by decide, by decide⟩

def llmq400_60 : LLMQParams :=
  ⟨.LLMQ_400_60, 400, 300, 12 * 12, 20, 28, 4, by decide, by decide, by decide⟩

def llmq400_85 : LLMQParams :=
  ⟨.LLMQ_400_85, 400, 350, 12 * 24, 20, 48, 4, by decide, by decide, by decide⟩

/-- `Consensus::Params::llmqs`: each type under its own key. -/
structure LLMQTable where
  llmqs : StdMap LLMQType LLMQParams
  type_eq : ∀ p ∈ llmqs.entries, p.2.type = p.1

namespace LLMQTable

/-- `llmqs[type] = params` for a list of parameters of distinct types. -/
def ofList (params : List LLMQParams) (h : (params.map LLMQParams.type).Nodup) : LLMQTable where
  llmqs := ⟨params.map (fun p => (p.type, p)), by simpa [Function.comp_def] using h⟩
  type_eq := List.forall_mem_map.mpr (fun _ _ => rfl)

/-- The types of a network, in the order of their codes. -/
def ofChain : ChainType → LLMQTable
  | .chainMain => ofList [llmq50_60, llmq400_60, llmq400_85] (by decide)
  | .chainTestnet => ofList [llmq50_60, llmq400_60, llmq400_85, llmq10_70] (by decide)
  | .chainRegtest => ofList [llmq50_60, llmq400_60, llmq400_85, llmq5_60] (by decide)

variable {type : LLMQType} {params : LLMQParams}

lemma type_of_get? (table : LLMQTable) (h : table.llmqs.get? type = some params) :
    params.type = type :=
  table.type_eq _ (StdMap.get?_eq_some_iff.mp h)

lemma mem_of_get? (table : LLMQTable) (h : table.llmqs.get? type = some params) :
    params ∈ table.llmqs.entries.map Prod.snd :=
  List.mem_map.mpr ⟨_, StdMap.get?_eq_some_iff.mp h, rfl⟩

end LLMQTable

/-! ## quorums_commitment.h -/

structure CFinalCommitment where
  nVersion : Nat
  llmqType : LLMQType
  quorumHash : Uint256
  signers : List Bool
  validMembers : List Bool
  quorumPublicKey : CBLSPublicKey
  quorumVvecHash : Uint256
  quorumSig : CBLSSignature
  membersSig : CBLSSignature
deriving DecidableEq

def CFinalCommitment.CURRENT_VERSION : Nat := 1

structure CFinalCommitmentTxPayload where
  nVersion : Nat
  nHeight : Nat
  commitment : CFinalCommitment
deriving DecidableEq

def CFinalCommitmentTxPayload.CURRENT_VERSION : Nat := 1

/-- What the quorum code takes from elsewhere: the consensus parameters, the parser of a
    transaction's payload, the members of a quorum (their operator keys, by type and base block) and
    the cryptography. -/
structure LlmqEnv where
  table : LLMQTable
  DIP0003Height : Nat
  getTxPayload : CTransaction → Option CFinalCommitmentTxPayload
  getAllQuorumMembers : LLMQType → Uint256 → List CBLSPublicKey
  buildCommitmentHash : CFinalCommitment → Uint256
  verifySecureAggregated : CBLSSignature → List CBLSPublicKey → Uint256 → Bool
  verifyInsecure : CBLSSignature → CBLSPublicKey → Uint256 → Bool
  /-- `SerializeHash` of a commitment. -/
  serializeHash : CFinalCommitment → Uint256

namespace CFinalCommitment

/-- `CFinalCommitment(params, quorumHash)`: the null commitment of a quorum. -/
def forQuorum (params : LLMQParams) (quorumHash : Uint256) : CFinalCommitment where
  nVersion := CURRENT_VERSION
  llmqType := params.type
  quorumHash := quorumHash
  signers := List.replicate params.size false
  validMembers := List.replicate params.size false
  quorumPublicKey := .null
  quorumVvecHash := 0
  quorumSig := .null
  membersSig := .null

variable (qc : CFinalCommitment)

def countSigners : Nat := qc.signers.count true

def countValidMembers : Nat := qc.validMembers.count true

def isNull : Bool :=
  decide (qc.countSigners = 0) && decide (qc.countValidMembers = 0) &&
    !qc.quorumPublicKey.isValid && decide (qc.quorumVvecHash = 0) &&
    !qc.membersSig.isValid && !qc.quorumSig.isValid

def verifySizes (params : LLMQParams) : Bool :=
  decide (qc.signers.length = params.size) && decide (qc.validMembers.length = params.size)

/-- The keys of the members whose signer bit is set. -/
def signingKeys (members : List CBLSPublicKey) : List CBLSPublicKey :=
  ((members.zip qc.signers).filter Prod.snd).map Prod.fst

def verify (env : LlmqEnv) (qc : CFinalCommitment) (members : List CBLSPublicKey)
    (checkSigs : Bool) : Bool :=
  if qc.nVersion = 0 ∨ qc.nVersion > CURRENT_VERSION then false
  else
    match env.table.llmqs.get? qc.llmqType with
    | none => false
    | some params =>
      qc.verifySizes params &&
      decide (params.minSize ≤ qc.countValidMembers) &&
      decide (params.minSize ≤ qc.countSigners) &&
      qc.quorumPublicKey.isValid && decide (qc.quorumVvecHash ≠ 0) &&
      qc.membersSig.isValid && qc.quorumSig.isValid &&
      -- no bit beyond the members
      (qc.validMembers.drop members.length).all (!·) &&
      (qc.signers.drop members.length).all (!·) &&
      (!checkSigs ||
        (env.verifySecureAggregated qc.membersSig (qc.signingKeys members)
            (env.buildCommitmentHash qc) &&
          env.verifyInsecure qc.quorumSig qc.quorumPublicKey (env.buildCommitmentHash qc)))

def verifyNull (env : LlmqEnv) (qc : CFinalCommitment) : Bool :=
  match env.table.llmqs.get? qc.llmqType with
  | none => false
  | some params => qc.isNull && qc.verifySizes params

end CFinalCommitment

/-! ## The active chain and the check of a commitment transaction -/

/-- A block as far as the quorum code reads it. -/
structure CBlock where
  hash : Uint256
  vtx : List CTransaction
  /-- The null hash stands for "no block". -/
  hash_ne_zero : hash ≠ 0
deriving DecidableEq

/-- `CChain`: the blocks of the active chain by height. -/
abbrev CChain := List CBlock

/-- The block with the given hash in the chain, with its height. -/
def CChain.find (chain : CChain) (hash : Uint256) : Option Nat :=
  chain.findIdx? (fun block => decide (block.hash = hash))

/-- `CheckLLMQCommitment` for a block on top of `chain`. A quorum hash that is unknown and one that
    is not on the chain give the same error. -/
def checkLLMQCommitment (env : LlmqEnv) (chain : CChain) (tx : CTransaction) :
    Except Failure Unit :=
  match env.getTxPayload tx with
  | none => .error (.dos 100 REJECT_INVALID "bad-qc-payload")
  | some qcTx =>
    if qcTx.nVersion = 0 ∨ qcTx.nVersion > CFinalCommitmentTxPayload.CURRENT_VERSION then
      .error (.dos 100 REJECT_INVALID "bad-qc-version")
    else if qcTx.nHeight ≠ chain.length then
      .error (.dos 100 REJECT_INVALID "bad-qc-height")
    else if (CChain.find chain qcTx.commitment.quorumHash).isNone then
      .error (.dos 100 REJECT_INVALID "bad-qc-quorum-hash")
    else if !env.table.llmqs.contains qcTx.commitment.llmqType then
      .error (.dos 100 REJECT_INVALID "bad-qc-type")
    else if qcTx.commitment.isNull then
      if qcTx.commitment.verifyNull env then .ok ()
      else .error (.dos 100 REJECT_INVALID "bad-qc-invalid-null")
    else if
      qcTx.commitment.verify env
        (env.getAllQuorumMembers qcTx.commitment.llmqType qcTx.commitment.quorumHash) false
    then .ok ()
    else .error (.dos 100 REJECT_INVALID "bad-qc-invalid")

end Tecracoin.Llmq
