/-
  A call of `CheckBlock` in `validation.cpp` with all its arguments and the mark
  `fChecked` it leaves in the block object.  The infos it creates for a block
  without them are not read before `ConnectBlock` and are left out.

  The mark is set before the last check, `CheckSigmaBlock`, so a block that only
  this check rejects is accepted by the next call.
-/
import Tecracoin.Sigma.CheckSpec
import Tecracoin.Sigma.Node
import Tecracoin.Validation.CheckTransaction

namespace Tecracoin.Validation

open Data Tecracoin.Sigma Eff

def MAX_BLOCK_SIGOPS_COST : Nat := 400000

def WITNESS_SCALE_FACTOR : Nat := 4

/-! ## Blocks -/

/-- The first transaction is a coinbase and no other one is. -/
def coinbaseFirst : List CTransaction → Bool
  | [] => false
  | coinbase :: rest => coinbase.isCoinBase && !rest.any CTransaction.isCoinBase

/-- The transaction loop of `CheckBlock`: no state is consulted and no info is filled. -/
def checkBlockTransactions (env : TxEnv) (st : CSigmaState) (isVerifyDB : Bool) (nHeight : Int) :
    List CTransaction → Eff Failure CheckState Unit
  | [] => pure ()
  | tx :: vtx => do
      checkTransaction env st true ⟨env.crypto.getHash tx, isVerifyDB, nHeight, false, false⟩ tx
      checkBlockTransactions env st isVerifyDB nHeight vtx

/-- The transactions passed `CheckBlock`, at some time and height. -/
def PassedCheckBlock (env : TxEnv) (vtx : List CTransaction) : Prop :=
  coinbaseFirst vtx = true ∧ ∃ st isVerifyDB nHeight s s',
    checkBlockTransactions env st isVerifyDB nHeight vtx s = .ok () s'

/-- A block. Only `CheckBlock` sets `fChecked`. -/
structure CBlock (env : TxEnv) where
  hash : Uint256
  vtx : List CTransaction
  fChecked : Bool
  passed : fChecked = true → PassedCheckBlock env vtx

/-! ## The call -/

/-- What a call can write: the block indexes and the mark of the block. -/
structure BlockState where
  chain : List CBlockIndex
  fChecked : Bool

/-- What the node answers about a block. -/
structure BlockAnswers where
  zerocoinGetNHeight : Int
  /-- `CheckProofOfWork(block.GetPoWHash(nHeight), …)`. `GetPoWHash` caches the hash it has returned
      and does not use the height. -/
  checkProofOfWork : Bool
  /-- `hashMerkleRoot == BlockMerkleRoot(block, &mutated)`. -/
  merkleRootMatches : Bool
  mutated : Bool
  isMTP : Bool
  checkMerkleTreeProof : Bool
  /-- `GetSerializeSize(block)`. -/
  serializeSize : Nat
  /-- The sum of `GetLegacySigOpCount`. -/
  nSigOps : Nat

/-- A call: the arguments and the answers. -/
structure CheckBlockCall extends BlockAnswers where
  vtx : List CTransaction
  fCheckPOW : Bool
  fCheckMerkleRoot : Bool
  nHeight : Int
  isVerifyDB : Bool

namespace CheckBlockCall

section
variable (env : TxEnv) (st : CSigmaState) (call : CheckBlockCall)

/-- `CheckBlockHeader` and the Merkle root. -/
def checkHeader : Except Failure Unit := do
  rejectIf (call.fCheckPOW && !call.checkProofOfWork) (.dos 50 REJECT_INVALID "high-hash")
  if call.fCheckMerkleRoot then
    rejectIf (!call.merkleRootMatches) (.dos 100 REJECT_INVALID "bad-txnmrklroot")
    rejectIf call.mutated (.dos 100 REJECT_INVALID "bad-txns-duplicate")
    rejectIf (call.isMTP && !call.checkMerkleTreeProof) (.dos 100 REJECT_INVALID "bad-diffbits")

/-- The checks before the transaction loop. -/
def checkShape : Except Failure Unit := do
  call.checkHeader
  rejectIf (call.vtx.isEmpty || decide (call.vtx.length > MAX_BLOCK_BASE_SIZE) ||
    decide (call.serializeSize > MAX_BLOCK_BASE_SIZE)) (.dos 100 REJECT_INVALID "bad-blk-length")
  rejectIf (!(call.vtx.take 1).any CTransaction.isCoinBase)
    (.dos 100 REJECT_INVALID "bad-cb-missing")
  rejectIf ((call.vtx.drop 1).any CTransaction.isCoinBase)
    (.dos 100 REJECT_INVALID "bad-cb-multiple")

/-- The transaction loop; it gets `NULL` for the infos. -/
def checkTransactions : Eff Failure BlockState Unit := fun s =>
  let nHeight := if call.nHeight = intMax then call.zerocoinGetNHeight else call.nHeight
  match checkBlockTransactions env st call.isVerifyDB nHeight call.vtx ⟨s.chain, none⟩ with
  | .ok _ c => .ok () { s with chain := c.chain }
  | .error e c => .error e { s with chain := c.chain }

/-- The checks before the mark. -/
def earlierChecks : Eff Failure BlockState Unit := do
  Eff.lift call.checkShape
  call.checkTransactions env st
  Eff.failIf (decide (call.nSigOps * WITNESS_SCALE_FACTOR > MAX_BLOCK_SIGOPS_COST))
    (.dos 100 REJECT_INVALID "bad-blk-sigops")

def checkBlock : Eff Failure BlockState Unit := do
  let s ← get
  if s.fChecked then pure ()
  else do
    call.earlierChecks env st
    Eff.when (call.fCheckPOW && call.fCheckMerkleRoot)
      (modify (fun s => { s with fChecked := true }))
    Eff.failIf (!checkSigmaBlock env.crypto env.params call.vtx)
      (.dos 100 REJECT_INVALID "bad-txns-spend-invalid")

end

/-! ## The checks before the mark write nothing -/

/-- Nothing is written, unless there is an info to fill. -/
def Unwritten (c c' : CheckState) : Prop := c.sigmaTxInfo = none → c' = c

instance : IsPreorder CheckState Unwritten where
  refl _ _ := rfl
  trans a b c hab hbc := by
    intro hnone
    obtain rfl := hab hnone
    exact hbc hnone

variable {env : TxEnv} {st : CSigmaState} {call : CheckBlockCall} {s : BlockState}

/-- A check that is not stateful writes to the info only. -/
lemma checkTransaction_unwritten {flags : CheckFlags} (hflags : flags.fStatefulSigmaCheck = false)
    (tx : CTransaction) : Eff.Keeps Unwritten (checkTransaction env st true flags tx) := by
  have hupd : ∀ (f : CSigmaTxInfo → CSigmaTxInfo) c, Unwritten c (c.updateInfo f) := by
    rintro f ⟨chain, info⟩ rfl
    rfl
  refine keeps_bind keeps_lift (fun _ => ?_)
  refine keeps_bind keeps_lift (fun _ => ?_)
  refine keeps_bind (keeps_when _ keeps_lift) (fun _ => ?_)
  split_ifs
  · exact keeps_lift
  · refine keeps_bind keeps_failIf (fun _ => ?_)
    refine keeps_bind (keeps_when _ ?_) (fun _ => keeps_lift)
    refine keeps_bind keeps_failIf (fun _ => ?_)
    refine checkSigmaTransaction_keeps hupd (fun hstateful => ?_)
    rw [hflags] at hstateful
    cases hstateful

lemma checkBlockTransactions_unwritten {isVerifyDB : Bool} {nHeight : Int}
    {vtx : List CTransaction} :
    Eff.Keeps Unwritten (checkBlockTransactions env st isVerifyDB nHeight vtx) := by
  induction vtx with
  | nil => exact fun _ _ => rfl
  | cons tx vtx ih =>
    exact keeps_bind (checkTransaction_unwritten rfl tx) (fun _ => ih)

lemma checkTransactions_keeps : Eff.Keeps Eq (call.checkTransactions env st) := by
  intro s
  unfold checkTransactions
  extract_lets nHeight
  have hkeeps : Unwritten ⟨s.chain, none⟩ (finalState
      (checkBlockTransactions env st call.isVerifyDB nHeight call.vtx ⟨s.chain, none⟩)) :=
    checkBlockTransactions_unwritten _
  cases hrun : checkBlockTransactions env st call.isVerifyDB nHeight call.vtx ⟨s.chain, none⟩ with
  | ok _ c | error _ c =>
    rw [hrun] at hkeeps
    obtain rfl : c = ⟨s.chain, none⟩ := hkeeps rfl
    rfl

lemma earlierChecks_keeps : Eff.Keeps Eq (call.earlierChecks env st) := by
  refine keeps_bind keeps_lift (fun _ => ?_)
  exact keeps_bind checkTransactions_keeps (fun _ => keeps_failIf)

/-! ## Calling it twice -/

/-- `CheckSigmaBlock` rejects a block that has no mark yet and passes every other check of a call
    that may set the mark. -/
structure OnlySigmaBlockFails (env : TxEnv) (st : CSigmaState) (call : CheckBlockCall)
    (s : BlockState) : Prop where
  unchecked : s.fChecked = false
  marks : (call.fCheckPOW && call.fCheckMerkleRoot) = true
  passes : call.earlierChecks env st s = .ok () s
  sigmaBlock : checkSigmaBlock env.crypto env.params call.vtx = false

/-- The transactions have passed before the mark is set. -/
lemma passed_of_earlierChecks {u : Unit} {s' : BlockState}
    (h : call.earlierChecks env st s = .ok u s') : PassedCheckBlock env call.vtx := by
  simp only [earlierChecks, bind_ok_iff, lift_ok_iff] at h
  obtain ⟨_, _, ⟨hshape, -⟩, _, s1, htxs, -⟩ := h
  simp only [checkShape, except_bind_ok_iff, rejectIf_ok_iff] at hshape
  obtain ⟨_, -, _, -, _, hfirst, hrest⟩ := hshape
  constructor
  · cases hvtx : call.vtx with
    | nil => simp [hvtx] at hfirst
    | cons coinbase rest =>
      rw [hvtx] at hfirst hrest
      simp only [List.take_succ_cons, List.take_zero, List.any_cons, List.any_nil, Bool.or_false,
        Bool.not_eq_false'] at hfirst
      rw [List.drop_succ_cons, List.drop_zero] at hrest
      rw [coinbaseFirst, hfirst, hrest]
      rfl
  · unfold checkTransactions at htxs
    extract_lets nHeight at htxs
    cases hrun : checkBlockTransactions env st call.isVerifyDB nHeight call.vtx ⟨_, none⟩ with
    | ok _ c => exact ⟨st, _, nHeight, _, c, hrun⟩
    | error e c =>
      rw [hrun] at htxs
      cases htxs

lemma checkBlock_eq_error {e : Failure} {s' : BlockState} (hunchecked : s.fChecked = false)
    (hrun : call.earlierChecks env st s = .error e s') : call.checkBlock env st s = .error e s := by
  have hsame : s = finalState (call.earlierChecks env st s) := earlierChecks_keeps s
  rw [hrun] at hsame
  obtain rfl : s = s' := hsame
  rw [checkBlock, get_bind_apply, if_neg (by simp [hunchecked])]
  simp only [bind, EStateM.bind, hrun]

/-- A call that accepts the block or leaves it marked, from a mark that was true, has seen the
    transactions pass: marks stay true, as the field `passed` of a block asks. -/
lemma passed_of_checkBlock (hmark : s.fChecked = true → PassedCheckBlock env call.vtx)
    (h : outcome (call.checkBlock env st s) = .ok () ∨
      (finalState (call.checkBlock env st s)).fChecked = true) : PassedCheckBlock env call.vtx := by
  cases hchecked : s.fChecked with
  | true => exact hmark hchecked
  | false =>
    cases hrun : call.earlierChecks env st s with
    | ok _ s1 => exact passed_of_earlierChecks hrun
    | error e s1 =>
      rw [checkBlock_eq_error hchecked hrun] at h
      rcases h with h | h
      · cases h
      · exact hmark h

lemma outcome_of_fChecked (hchecked : s.fChecked = true) :
    outcome (call.checkBlock env st s) = .ok () := by
  rw [checkBlock, get_bind_apply, if_pos hchecked]
  rfl

/-- A block that passes the earlier checks is left to `CheckSigmaBlock`. -/
lemma checkBlock_eq (hunchecked : s.fChecked = false)
    (hpasses : call.earlierChecks env st s = .ok () s) :
    call.checkBlock env st s = failIf (!checkSigmaBlock env.crypto env.params call.vtx)
      (.dos 100 REJECT_INVALID "bad-txns-spend-invalid")
      (if call.fCheckPOW && call.fCheckMerkleRoot then { s with fChecked := true } else s) := by
  rw [checkBlock, get_bind_apply, if_neg (by simp [hunchecked]), bind_of_ok hpasses,
    when_modify_bind_apply]

/-- A call that does not set the mark leaves the block as it is. -/
lemma finalState_checkBlock (h : ¬ (s.fChecked = false ∧
      (call.fCheckPOW && call.fCheckMerkleRoot) = true ∧ call.earlierChecks env st s = .ok () s)) :
    finalState (call.checkBlock env st s) = s := by
  cases hchecked : s.fChecked with
  | true =>
    rw [checkBlock, get_bind_apply, if_pos hchecked]
    rfl
  | false =>
    cases hrun : call.earlierChecks env st s with
    | error e s1 =>
      rw [checkBlock_eq_error hchecked hrun]
      rfl
    | ok _ s1 =>
      have hkeeps : s = finalState (call.earlierChecks env st s) := earlierChecks_keeps s
      rw [hrun] at hkeeps
      obtain rfl : s = s1 := hkeeps
      rw [checkBlock_eq hchecked hrun, finalState_failIf]
      exact if_neg (fun hmarks => h ⟨hchecked, hmarks, hrun⟩)

/-- A second call with the same arguments returns what the first has returned, unless
    `CheckSigmaBlock` was the only check to reject the block. -/
theorem checkBlock_repeatable_iff (env : TxEnv) (st : CSigmaState) (call : CheckBlockCall)
    (s : BlockState) :
    outcome (call.checkBlock env st (finalState (call.checkBlock env st s))) =
        outcome (call.checkBlock env st s) ↔ ¬ OnlySigmaBlockFails env st call s := by
  by_cases hmarks : s.fChecked = false ∧ (call.fCheckPOW && call.fCheckMerkleRoot) = true ∧
      call.earlierChecks env st s = .ok () s
  · -- the second call passes, whatever the first has returned
    obtain ⟨hunchecked, hboth, hpasses⟩ := hmarks
    rw [checkBlock_eq hunchecked hpasses, finalState_failIf, if_pos hboth, outcome_of_fChecked rfl]
    cases hsigma : checkSigmaBlock env.crypto env.params call.vtx with
    | true => exact iff_of_true rfl (fun h => Bool.noConfusion (hsigma.symm.trans h.sigmaBlock))
    | false => exact iff_of_false nofun (not_not.mpr ⟨hunchecked, hboth, hpasses, hsigma⟩)
  · rw [finalState_checkBlock hmarks]
    exact iff_of_true rfl (fun h => hmarks ⟨h.unchecked, h.marks, h.passes⟩)

end CheckBlockCall

namespace Sample

open Tecracoin.Sigma.Sample

def regtestEnv : TxEnv where
  chainType := .chainRegtest
  crypto := toyCrypto
  serializeSize tx := tx.vout.length
  length_vout_le _ := Nat.le_refl _
  checkZerocoinTransaction _ _ := .ok ()

def testEnv : TxEnv := { regtestEnv with chainType := .chainTestnet }

/-- A block with nothing to object to. -/
def soundBlock : BlockAnswers where
  zerocoinGetNHeight := 2
  checkProofOfWork := true
  merkleRootMatches := true
  mutated := false
  isMTP := false
  checkMerkleTreeProof := true
  serializeSize := 1000
  nSigOps := 0

end Sample

open Validation.Sample Tecracoin.Sigma.Sample in
/-- Two spends of 26 inputs each: every one is within the limit of a transaction, together they
    exceed that of a block. -/
def crowdedCall : CheckBlockCall where
  toBlockAnswers := soundBlock
  vtx :=
    let vin := (List.range 26).map (fun serial => spendInput 1 (.ofNat serial))
    [tx 2 [⟨⟨0, 0xffffffff⟩, [0x52, 0x00], 0⟩] [⟨COIN, [0x51]⟩],
      tx 3 vin [⟨COIN, [0x51]⟩], tx 4 vin [⟨COIN, [0x51]⟩]]
  fCheckPOW := true
  fCheckMerkleRoot := true
  nHeight := 2
  isVerifyDB := false

open Validation.Sample Tecracoin.Sigma.Sample in
theorem rejected_block_accepted_again :
    let run := crowdedCall.checkBlock testEnv minted.sigmaState
    let first := run ⟨minted.chainActive, false⟩
    outcome first = .error (.dos 100 REJECT_INVALID "bad-txns-spend-invalid") ∧
      outcome (run (finalState first)) = .ok () := by
  decide +kernel

end Tecracoin.Validation
