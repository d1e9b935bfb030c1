/-
  `evo/cbtx.cpp`: the merkle root over the active quorum commitments that a
  coinbase transaction declares.

  `CalcCbTxMerkleRootQuorums` keeps two static variables, the base blocks of
  the last call and the commitment hashes found for them, and takes the hashes
  from there when the base blocks are the same.  They are passed and returned
  here as `QuorumRootCache`.  The root over the masternode list is not part of
  this model and enters as a check of its own.
-/
import Tecracoin.Llmq.BlockProcessor

namespace Tecracoin.Llmq

open Data

/-! ## uint256: the order of `std::sort` -/

/-- The bytes of a `uint256` in memory order, least significant first. -/
def hashBytes (x : Uint256) : List Nat :=
  (List.range 32).map (fun i => x.toNat / 2 ^ (8 * i) % 2 ^ 8)

/-- `!(b < a)`, where `<` is `memcmp` on the bytes. -/
def hashLe (a b : Uint256) : Bool := decide (hashBytes a ≤ hashBytes b)

lemma hashBytes_injective {x y : Uint256} (h : hashBytes x = hashBytes y) : x = y := by
  apply BitVec.eq_of_getLsbD_eq
  intro i hi
  -- bit `i` sits in byte `i / 8`
  have hbyte : x.toNat / 2 ^ (8 * (i / 8)) % 2 ^ 8 = y.toNat / 2 ^ (8 * (i / 8)) % 2 ^ 8 := by
    have hmem : i / 8 < 32 := by omega
    have hx := congrArg (fun l => l[i / 8]?) h
    simpa [hashBytes, hmem] using hx
  have hbit := congrArg (fun n => n.testBit (i % 8)) hbyte
  have hlt : i % 8 < 8 := Nat.mod_lt _ (by decide)
  have hpos : i % 8 + 8 * (i / 8) = i := by omega
  simp only [Nat.testBit_mod_two_pow, Nat.testBit_div_two_pow, hlt, decide_true, Bool.true_and,
    hpos, BitVec.testBit_toNat] at hbit
  exact hbit

/-- `std::sort` on hashes. -/
def sortHashes (hashes : List Uint256) : List Uint256 := hashes.mergeSort hashLe

/-- Sorting forgets the order in which the hashes were collected. -/
lemma sortHashes_congr {l l' : List Uint256} (h : l.Perm l') : sortHashes l = sortHashes l' := by
  have hsorted : ∀ l : List Uint256, (sortHashes l).Pairwise (fun a b => hashLe a b = true) := by
    intro l
    apply List.pairwise_mergeSort
    · intro a b c hab hbc
      simp only [hashLe, decide_eq_true_eq] at hab hbc ⊢
      exact le_trans hab hbc
    · intro a b
      simp only [hashLe, Bool.or_eq_true, decide_eq_true_eq]
      exact le_total _ _
  refine List.Perm.eq_of_pairwise ?_ (hsorted l) (hsorted l') ?_
  · intro a b _ _ hab hba
    simp only [hashLe, decide_eq_true_eq] at hab hba
    exact hashBytes_injective (le_antisymm hab hba)
  · exact (List.mergeSort_perm l _).trans (h.trans (List.mergeSort_perm l' _).symm)

/-! ## cbtx.h -/

structure CCbTx where
  nVersion : Nat
  nHeight : Nat
  merkleRootMNList : Uint256
  merkleRootQuorums : Uint256
deriving DecidableEq

/-- What the checks of a block's special transactions take from elsewhere. -/
structure BlockEnv extends LlmqEnv where
  getCbTx : CTransaction → Option CCbTx
  /-- `ComputeMerkleRoot`: the root, and whether the list is mutated. -/
  computeMerkleRoot : List Uint256 → Uint256 × Bool
  /-- The masternode part of `CheckCbTxMerkleRoots`. -/
  checkMNListRoot : CChain → CBlock → CCbTx → Except Failure Unit
  /-- `CheckSpecialTx` for the other transaction types. -/
  checkSpecialTxOther : CChain → CTransaction → Except Failure Unit
  /-- Only version 3 transactions are serialised with a payload. -/
  getTxPayload_version : ∀ tx, tx.nVersion ≠ 3 → getTxPayload tx = none

instance : Coe BlockEnv LlmqEnv := ⟨BlockEnv.toLlmqEnv⟩

/-- The static variables of `CalcCbTxMerkleRootQuorums`. -/
structure QuorumRootCache where
  quorumsCached : StdMap LLMQType (List Uint256)
  qcHashesCached : StdMap LLMQType (List Uint256)
deriving DecidableEq

/-! ## Collecting the hashes -/

/-- The hashes of the commitments mined for a list of base blocks. -/
def commitmentHashes (env : LlmqEnv) (db : QuorumDb) (type : LLMQType) :
    List Uint256 → Except Failure (List Uint256)
  | [] => .ok []
  | base :: rest =>
    match db.getMinedCommitment (type, base) with
    | none => .error (.asserts "found")
    | some mined => (commitmentHashes env db type rest).map (env.serializeHash mined.1 :: ·)

/-- The hashes for all types, from the database. -/
def qcHashesOf (env : LlmqEnv) (db : QuorumDb) (quorums : StdMap LLMQType (List Uint256)) :
    Except Failure (StdMap LLMQType (List Uint256)) :=
  quorums.mapM (fun type bases => commitmentHashes env db type bases)

/-- The hashes for all types, from the cache when the base blocks are those of the last call. -/
def qcHashesCachedOf (env : LlmqEnv) (db : QuorumDb) (quorums : StdMap LLMQType (List Uint256))
    (cache : QuorumRootCache) : Except Failure (StdMap LLMQType (List Uint256) × QuorumRootCache) :=
  if quorums = cache.quorumsCached then .ok (cache.qcHashesCached, cache)
  else (qcHashesOf env db quorums).map (fun qcHashes => (qcHashes, ⟨quorums, qcHashes⟩))

/-- `v.pop_back()` when full, then `v.emplace_back(qcHash)`. -/
def pushHash (maxCount : Nat) (v : List Uint256) (qcHash : Uint256) : List Uint256 :=
  (if v.length = maxCount then v.dropLast else v) ++ [qcHash]

/-- The loop over the block's own commitments. -/
def mergeBlock (env : LlmqEnv) :
    List CTransaction → StdMap LLMQType (List Uint256) →
      Except Failure (StdMap LLMQType (List Uint256))
  | [], qcHashes => .ok qcHashes
  | tx :: vtx, qcHashes =>
    if tx.nVersion = 3 ∧ tx.nType = .TRANSACTION_QUORUM_COMMITMENT then
      match env.getTxPayload tx with
      | none => .error (.asserts "false")
      | some qc =>
        if qc.commitment.isNull then mergeBlock env vtx qcHashes
        else
          match env.table.llmqs.get? qc.commitment.llmqType with
          | none => .error (.throws "map::at")
          | some params =>
            let v := pushHash params.signingActiveQuorumCount
              ((qcHashes.get? params.type).getD []) (env.serializeHash qc.commitment)
            if v.length ≤ params.signingActiveQuorumCount then
              mergeBlock env vtx (qcHashes.set LLMQType.lt params.type v)
            else .error (.asserts "v.size() <= params.signingActiveQuorumCount")
    else mergeBlock env vtx qcHashes

/-- The sorted hashes the merkle tree is built over. -/
def qcHashesVec (qcHashes : StdMap LLMQType (List Uint256)) : List Uint256 :=
  sortHashes (qcHashes.entries.flatMap Prod.snd)

/-- `CalcCbTxMerkleRootQuorums` for a block on top of `chain`: the root and the mutation flag. -/
def calcCbTxMerkleRootQuorums (env : BlockEnv) (db : QuorumDb) (chain : CChain) (block : CBlock)
    (cache : QuorumRootCache) : Except Failure ((Uint256 × Bool) × QuorumRootCache) := do
  let quorums ← getMinedAndActiveCommitmentsUntilBlock env.toLlmqEnv db chain
  let found ← qcHashesCachedOf env.toLlmqEnv db quorums cache
  let qcHashes ← mergeBlock env.toLlmqEnv (block.vtx.drop 1) found.1
  .ok (env.computeMerkleRoot (qcHashesVec qcHashes), found.2)

/-- The root over the commitments that the database reports for the tip of `chain`: what the
    function is for, without a cache and without a block to come. -/
def quorumMerkleRoot (env : BlockEnv) (db : QuorumDb) (chain : CChain) :
    Except Failure (Uint256 × Bool) := do
  let quorums ← getMinedAndActiveCommitmentsUntilBlock env.toLlmqEnv db chain
  let qcHashes ← qcHashesOf env.toLlmqEnv db quorums
  .ok (env.computeMerkleRoot (qcHashesVec qcHashes))

end Tecracoin.Llmq
