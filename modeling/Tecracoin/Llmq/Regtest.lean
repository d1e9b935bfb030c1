/-
  A run on the regtest parameters: plain blocks up to the activation height,
  and a block on top that mines a commitment.  The first block the rules look
  at has height 10500 and lies in the window of the small quorum whose session
  started at height 10488, so two different blocks can be mined there.

  The chain is too long to be evaluated; each step is shown to succeed by the
  theorem that says which blocks are accepted.
-/
import Tecracoin.Llmq.Reachable
import Tecracoin.Llmq.Minable

namespace Tecracoin.Llmq

open Data CBlock StdMap List

variable {s : LlmqState} {k n : Nat} {env : BlockEnv} {block : CBlock} {fCheck : Bool}

/-! ## Steps that succeed -/

/-- The same commitments are stored for miners. -/
def SameMinable (s t : ProcessorState) : Prop :=
  t.processor.minableCommitments = s.processor.minableCommitments ∧
    t.processor.minableCommitmentsByQuorum = s.processor.minableCommitmentsByQuorum

instance : IsPreorder ProcessorState SameMinable where
  refl _ := ⟨rfl, rfl⟩
  trans _ _ _ h h' := ⟨h'.1.trans h.1, h'.2.trans h.2⟩

lemma sameMinable_processBlock {env : LlmqEnv} {chain : CChain} :
    Eff.Keeps SameMinable (processBlock env chain block) :=
  keeps_processBlock (fun _ _ => ⟨rfl, rfl⟩) (fun _ _ _ _ _ => ⟨rfl, rfl⟩) (fun _ _ => ⟨rfl, rfl⟩)

/-- Processing a block that passes every check, when the quorum root is not looked at. -/
lemma processSpecialTxsInBlock_succeeds {qcs : StdMap LLMQType CFinalCommitment}
    (h : ChainInv env s) (hcheck : checkSpecialTxs env s.chainActive block.vtx = .ok ())
    (hrule : SessionRule env s.chainActive block)
    (hqcs : getCommitmentsFromBlock env block s.chainActive.length = .ok qcs)
    (hverifies : ∀ qc ∈ blockCommitments env block, Verifies env qc)
    (hroot : ∀ t, Eff.when fCheck (checkCbTxMerkleRoots env block) t = .ok () t) :
    ∃ core, SameMinable s.manager.core core ∧
      processSpecialTxsInBlock env block fCheck s = .ok () (s.withCore core) := by
  obtain ⟨core, hcore⟩ := processBlock_succeeds h.db h.cache hrule hqcs hverifies
  refine ⟨core, (sameMinable_processBlock).of_ok hcore, ?_⟩
  refine Eff.bind_ok_iff.mpr ⟨s, s, rfl, ?_⟩
  refine Eff.bind_ok_iff.mpr ⟨(), s, ?_, ?_⟩
  · rw [hcheck]
    rfl
  · refine Eff.bind_ok_iff.mpr ⟨(), s.withCore core, ?_, hroot _⟩
    rw [processBlockOn, hcore]

lemma step_connect_of_ok {core : ProcessorState} (hnew : block.hash ∉ s.chainActive.map hash)
    (hok : processSpecialTxsInBlock env block fCheck s = .ok () (s.withCore core)) :
    step env (.connect block fCheck) s =
      some { s.withCore core with chainActive := s.chainActive ++ [block] } := by
  rw [step, if_neg hnew, hok]
  rfl

/-- Disconnecting the top block when nothing is stored for miners. -/
lemma disconnect_succeeds {lower : CChain} {last : CBlock} (type : LLMQType)
    (qc : CFinalCommitment) (hchain : s.chainActive = (lower ++ [last]) ++ [block])
    (hqcs : getCommitmentsFromBlock env block (lower ++ [last]).length =
      .ok (empty.insert LLMQType.lt type qc))
    (hminable : s.manager.core.processor.minableCommitmentsByQuorum = .empty) :
    ∃ core, step env .disconnect s =
      some { s.withCore core with chainActive := lower ++ [last] } := by
  obtain ⟨core, hcore⟩ : ∃ core, undoCommitment env (lower ++ [last]).length qc s.manager.core
      = .ok core := by
    unfold undoCommitment
    split_ifs
    · exact ⟨_, rfl⟩
    · rw [addMinableCommitment]
      simp only [hminable, get?_empty]
      exact ⟨_, rfl⟩
  refine ⟨writeBestBlock last.hash core, ?_⟩
  have hundo : undoBlock env (lower ++ [last]) block s.manager.core =
      .ok (writeBestBlock last.hash core) := by
    refine except_bind_ok_iff.mpr ⟨_, hqcs, ?_⟩
    refine except_bind_ok_iff.mpr ⟨core, ?_, ?_⟩
    · exact foldlM_cons_ok_iff.mpr ⟨core, hcore, rfl⟩
    · rw [getLast?_concat]
  have hlong : ¬s.chainActive.length ≤ 1 := by
    rw [hchain, length_append, length_append, length_singleton, length_singleton]
    omega
  rw [step, if_neg hlong, disconnectTip, hchain, getLast?_concat]
  simp only [dropLast_concat]
  rw [hundo]

namespace Sample

/-! ## Blocks -/

/-- The hash of the block at a height. -/
def hashOf (n : Nat) : Uint256 := BitVec.ofNat 256 (n % 20000 + 1)

lemma hashOf_toNat (n : Nat) : (hashOf n).toNat = n % 20000 + 1 := by
  have hlt : n % 20000 < 20000 := Nat.mod_lt _ (by decide)
  have hsmall : n % 20000 + 1 < 2 ^ 256 :=
    Nat.lt_of_lt_of_le (Nat.succ_lt_succ hlt) (by decide)
  rw [hashOf, BitVec.toNat_ofNat, Nat.mod_eq_of_lt hsmall]

lemma hashOf_ne_zero (n : Nat) : hashOf n ≠ 0 := by
  intro hzero
  have hnat := hashOf_toNat n
  rw [hzero] at hnat
  exact absurd hnat.symm (Nat.succ_ne_zero _)

lemma hashOf_inj {m : Nat} (hn : n < 20000) (hm : m < 20000) (h : hashOf n = hashOf m) :
    n = m := by
  have hnat := congrArg BitVec.toNat h
  rw [hashOf_toNat, hashOf_toNat] at hnat
  omega

def coinbaseInput : CTxIn := ⟨⟨0, 0xffffffff⟩, [0x52, 0x00], 0⟩

/-- A block with a coinbase of version 1. -/
def plainBlock (n : Nat) : CBlock :=
  ⟨hashOf n, [⟨1, .TRANSACTION_NORMAL, [coinbaseInput], [], 0, []⟩], hashOf_ne_zero n⟩

/-- The blocks below height `n`. -/
@[irreducible] def plainChain (n : Nat) : CChain := (List.range n).map plainBlock

/-- Two commitments for the quorum based at height 10488. -/
def rival (other : Bool) : CFinalCommitment :=
  if other then commitment (hashOf 10488) [true, true, true, true, false] 102
  else commitment (hashOf 10488) [true, true, true, false, false] 101

/-- The first byte of a sample payload says what it holds. -/
def samplePayload (tx : CTransaction) : Option CFinalCommitmentTxPayload :=
  if tx.nVersion = 3 then
    match tx.vExtraPayload with
    | [1] => some ⟨1, 10500, rival false⟩
    | [2] => some ⟨1, 10500, rival true⟩
    | _ => none
  else none

/-- Regtest with hashes that are easy to read: a commitment's hash is that of its verification
    vector, and the root over one hash is that hash. -/
def regtestBlockEnv : BlockEnv where
  toLlmqEnv := { regtestEnv with getTxPayload := samplePayload }
  getCbTx := fun tx => some ⟨tx.vExtraPayload.length, 10500, 0, 0⟩
  computeMerkleRoot := fun hashes => (hashes.headD 0, false)
  checkMNListRoot := fun _ _ _ => .ok ()
  checkSpecialTxOther := fun _ _ => .ok ()
  getTxPayload_version := fun _ hversion => if_neg hversion

/-- A block with a coinbase payload of version 1 that mines one of the two. -/
def minedBlock (other : Bool) : CBlock :=
  ⟨hashOf (if other then 15002 else 15001),
    [⟨3, .TRANSACTION_COINBASE, [coinbaseInput], [], 0, [0]⟩,
      ⟨3, .TRANSACTION_QUORUM_COMMITMENT, [], [], 0, [if other then 2 else 1]⟩],
    hashOf_ne_zero _⟩

/-- One of the commitments is mined on top of the plain blocks. -/
abbrev minedChain (other : Bool) : CChain := plainChain 10500 ++ [minedBlock other]

/-! ## The chain of plain blocks -/

lemma plainChain_length : (plainChain n).length = n := by
  rw [plainChain, length_map, length_range]

lemma plainChain_succ : plainChain (n + 1) = plainChain n ++ [plainBlock n] := by
  rw [plainChain, range_succ, map_append, map_singleton, plainChain]

lemma plainChain_getElem? (h : k < n) : (plainChain n)[k]? = some (plainBlock k) := by
  rw [plainChain, getElem?_map, getElem?_range h, Option.map_some]

lemma hashOf_not_mem_plainChain (hk : k < 20000) (hn : n ≤ k) :
    hashOf k ∉ (plainChain n).map hash := by
  intro hmem
  obtain ⟨block, hblock, hhash⟩ := mem_map.mp hmem
  rw [plainChain] at hblock
  obtain ⟨m, hm, rfl⟩ := mem_map.mp hblock
  rw [mem_range] at hm
  have heq : m = k := hashOf_inj (by omega) hk hhash
  omega

lemma blockCommitments_plainBlock : blockCommitments regtestBlockEnv (plainBlock n) = [] := rfl

lemma not_minedIn_plainChain (key : QuorumKey) : ¬MinedIn regtestBlockEnv (plainChain n) key := by
  rintro ⟨block, hblock, qc, hmines, _⟩
  rw [plainChain] at hblock
  obtain ⟨m, _, rfl⟩ := mem_map.mp hblock
  have hmem := hmines.1
  rw [blockCommitments_plainBlock] at hmem
  cases hmem

variable (other : Bool)

lemma blockCommitments_minedBlock :
    blockCommitments regtestBlockEnv (minedBlock other) = [rival other] := by
  cases other
  · rfl
  · rfl

lemma rival_isNull : (rival other).isNull = false := by
  cases other
  · rfl
  · rfl

lemma mines_minedBlock : Mines regtestBlockEnv (minedBlock other) (rival other) := by
  refine ⟨?_, rival_isNull other⟩
  rw [blockCommitments_minedBlock]
  exact mem_singleton_self _

lemma rival_key : (rival other).key = (.LLMQ_5_60, hashOf 10488) := by
  cases other
  · rfl
  · rfl

/-! ## The run -/

/-- Before the activation height a block without commitments obeys the rule. -/
lemma sessionRule_plainBlock (hn : n < 10500) :
    SessionRule regtestBlockEnv (plainChain n) (plainBlock n) where
  premature := fun _ => rfl
  distinct := nodup_nil
  ofSession := by
    intro qc hqc
    rw [blockCommitments_plainBlock] at hqc
    cases hqc
  required := by
    intro hactive
    rw [plainChain_length] at hactive
    exact absurd hactive (Nat.not_le_of_lt hn)

/-- At a height outside the windows of the large quorums only the small one can be mined. -/
lemma window_small_quorum {h : Nat}
    (hlarge : isMiningPhase llmq50_60 h = false ∧ isMiningPhase llmq400_60 h = false ∧
      isMiningPhase llmq400_85 h = false) {type : LLMQType} {params : LLMQParams}
    (hparams : regtestBlockEnv.table.llmqs.get? type = some params)
    (hphase : isMiningPhase params h = true) : type = .LLMQ_5_60 ∧ params = llmq5_60 := by
  have hmem := get?_eq_some_iff.mp hparams
  have hlisted : (type, params) = (.LLMQ_50_60, llmq50_60) ∨
      (type, params) = (.LLMQ_400_60, llmq400_60) ∨
      (type, params) = (.LLMQ_400_85, llmq400_85) ∨
      (type, params) = (.LLMQ_5_60, llmq5_60) := by
    simpa [regtestBlockEnv, regtestEnv, LLMQTable.ofChain, LLMQTable.ofList, llmq50_60,
      llmq400_60, llmq400_85, llmq5_60] using hmem
  rcases hlisted with heq | heq | heq | heq
  · rw [(Prod.mk.inj heq).2, hlarge.1] at hphase
    cases hphase
  · rw [(Prod.mk.inj heq).2, hlarge.2.1] at hphase
    cases hphase
  · rw [(Prod.mk.inj heq).2, hlarge.2.2] at hphase
    cases hphase
  · exact Prod.mk.inj heq

/-- Block 10500 lies in the window of the small quorum and of no other. -/
lemma sessionRule_minedBlock :
    SessionRule regtestBlockEnv (plainChain 10500) (minedBlock other) where
  premature := by
    intro hlow
    rw [plainChain_length] at hlow
    exact absurd hlow (Nat.lt_irrefl 10500)
  distinct := by
    rw [blockCommitments_minedBlock]
    exact nodup_singleton _
  ofSession := by
    intro qc hqc
    rw [blockCommitments_minedBlock, mem_singleton] at hqc
    subst hqc
    refine ⟨llmq5_60, ?_, ?_, ?_, not_minedIn_plainChain _⟩
    · cases other
      · rfl
      · rfl
    · rw [plainChain_length, getQuorumBlockHash, getBlockHash]
      show Option.map hash (plainChain 10500)[10488]? = _
      rw [plainChain_getElem? (by decide)]
      exact congrArg some (congrArg Prod.snd (rival_key other)).symm
    · rw [plainChain_length]
      decide
  required := by
    intro _ type params quorumHash hparams _ hphase _
    rw [plainChain_length] at hphase
    rw [blockCommitments_minedBlock]
    refine ⟨rival other, mem_singleton_self _, ?_⟩
    obtain ⟨rfl, _⟩ := window_small_quorum (by decide) hparams hphase
    exact congrArg Prod.fst (rival_key other)

/-- A state on a chain of plain blocks in which nothing is cached. -/
structure PlainState (n : Nat) (s : LlmqState) : Prop where
  chain : s.chainActive = plainChain n
  minable : s.manager.core.processor.minableCommitmentsByQuorum = .empty
  quorums : s.manager.quorumsCache = .empty
  root : s.rootCache = ⟨.empty, .empty⟩

/-- A plain block is processed wherever no commitment is due. -/
lemma process_plainBlock (hinv : ChainInv regtestBlockEnv s)
    (hrule : SessionRule regtestBlockEnv s.chainActive (plainBlock n)) :
    ∃ core, SameMinable s.manager.core core ∧
      processSpecialTxsInBlock regtestBlockEnv (plainBlock n) fCheck s
        = .ok () (s.withCore core) := by
  have hqcs : getCommitmentsFromBlock regtestBlockEnv (plainBlock n)
      s.chainActive.length = .ok .empty := by
    refine except_bind_ok_iff.mpr ⟨.empty, rfl, ?_⟩
    exact if_neg (fun h => h.2 rfl)
  refine processSpecialTxsInBlock_succeeds hinv rfl hrule hqcs (fun qc hqc => nomatch hqc) ?_
  intro t
  cases fCheck
  · rfl
  · rfl

lemma connect_plainBlock (hn : n < 10500) (hinv : ChainInv regtestBlockEnv s)
    (hs : PlainState n s) :
    ∃ t, step regtestBlockEnv (.connect (plainBlock n) true) s = some t ∧ PlainState (n + 1) t := by
  have hnew : (plainBlock n).hash ∉ s.chainActive.map hash := by
    rw [hs.chain]
    exact hashOf_not_mem_plainChain (by omega) (Nat.le_refl n)
  obtain ⟨core, hminable, hok⟩ := process_plainBlock hinv (hs.chain ▸ sessionRule_plainBlock hn)
  refine ⟨_, step_connect_of_ok hnew hok, ?_, hminable.2.trans hs.minable, hs.quorums, hs.root⟩
  rw [plainChain_succ, ← hs.chain]

/-- What the allowed operations reach from the genesis block. -/
abbrev RegtestReaches (allowed : LlmqOp → LlmqState → Prop) : LlmqState → Prop :=
  Reaches (step regtestBlockEnv) allowed (.start (plainBlock 0))

/-- Plain blocks can be connected up to the activation height. -/
lemma reaches_plainChain (allowed : LlmqOp → LlmqState → Prop)
    (hallowed : ∀ n s, allowed (.connect (plainBlock n) true) s) (hn : n < 10500) :
    ∃ s, RegtestReaches allowed s ∧ PlainState (n + 1) s := by
  induction n with
  | zero => exact ⟨_, .start, by rw [plainChain]; rfl, rfl, rfl, rfl⟩
  | succ n ih =>
    obtain ⟨s, hreach, hs⟩ := ih (Nat.lt_of_succ_lt hn)
    have hinv := chainInv_of_reaches blockCommitments_plainBlock hreach
    obtain ⟨t, hstep, ht⟩ := connect_plainBlock hn hinv hs
    exact ⟨t, .next _ hreach (hallowed (n + 1) s) hstep, ht⟩

lemma checkSpecialTxs_minedBlock :
    checkSpecialTxs regtestBlockEnv (plainChain 10500) (minedBlock other).vtx = .ok () := by
  have hfound : (CChain.find (plainChain 10500) (hashOf 10488)).isNone = false := by
    have hany :
        (plainChain 10500).any (fun block => decide (block.hash = hashOf 10488)) = true := by
      refine any_eq_true.mpr ⟨plainBlock 10488, ?_, decide_eq_true rfl⟩
      exact mem_of_getElem? (plainChain_getElem? (by decide))
    rw [Option.isNone_eq_false_iff, CChain.find, findIdx?_isSome]
    exact hany
  have hheight : ¬(10500 ≠ (plainChain 10500).length) := by
    rw [plainChain_length]
    exact fun h => h rfl
  have hactive : ¬(plainChain 10500).length < regtestBlockEnv.DIP0003Height := by
    rw [plainChain_length]
    exact Nat.lt_irrefl 10500
  have hcommitment : ∀ tx qc, tx.nVersion = 3 → tx.nType = .TRANSACTION_QUORUM_COMMITMENT →
      samplePayload tx = some ⟨1, 10500, rival qc⟩ →
      checkSpecialTx regtestBlockEnv (plainChain 10500) tx = .ok () := by
    intro tx qc hversion htype hpayload
    have hspecial : ¬(tx.nVersion ≠ 3 ∨ tx.nType = .TRANSACTION_NORMAL) := by
      rw [hversion, htype]
      decide
    have hhash : (rival qc).quorumHash = hashOf 10488 := congrArg Prod.snd (rival_key qc)
    rw [checkSpecialTx, if_neg hspecial, if_neg hactive, if_pos htype, checkLLMQCommitment]
    have hread : LlmqEnv.getTxPayload regtestBlockEnv tx = _ := hpayload
    simp only [hread, hhash, hfound, hheight]
    cases qc
    · rfl
    · rfl
  have hcoinbase : checkSpecialTx regtestBlockEnv (plainChain 10500)
      ⟨3, .TRANSACTION_COINBASE, [coinbaseInput], [], 0, [0]⟩ = .ok () := by
    rw [checkSpecialTx, if_neg (by decide), if_neg hactive]
    rfl
  refine except_bind_ok_iff.mpr ⟨(), hcoinbase, except_bind_ok_iff.mpr ⟨(), ?_, rfl⟩⟩
  refine hcommitment _ other rfl rfl ?_
  cases other
  · rfl
  · rfl

lemma process_minedBlock {other : Bool} (hinv : ChainInv regtestBlockEnv s)
    (hchain : s.chainActive = plainChain 10500) :
    ∃ core, SameMinable s.manager.core core ∧
      processSpecialTxsInBlock regtestBlockEnv (minedBlock other) fCheck s
        = .ok () (s.withCore core) := by
  have hqcs : getCommitmentsFromBlock regtestBlockEnv (minedBlock other) s.chainActive.length =
      .ok (empty.insert LLMQType.lt .LLMQ_5_60 (rival other)) := by
    rw [hchain, plainChain_length]
    cases other
    · rfl
    · rfl
  have hverifies : ∀ qc ∈ blockCommitments regtestBlockEnv (minedBlock other),
      Verifies regtestBlockEnv qc := by
    intro qc hqc
    rw [blockCommitments_minedBlock, mem_singleton] at hqc
    rw [hqc, Verifies, if_neg (by rw [rival_isNull]; exact Bool.false_ne_true)]
    cases other
    · rfl
    · rfl
  refine processSpecialTxsInBlock_succeeds hinv (hchain ▸ checkSpecialTxs_minedBlock other)
    (hchain ▸ sessionRule_minedBlock other) hqcs hverifies ?_
  intro t
  cases fCheck
  · rfl
  · rfl

lemma minedBlock_hash_new : (minedBlock other).hash ∉ (plainChain 10500).map hash := by
  cases other
  · exact hashOf_not_mem_plainChain (by decide) (by decide)
  · exact hashOf_not_mem_plainChain (by decide) (by decide)

lemma connect_minedBlock (hinv : ChainInv regtestBlockEnv s)
    (hchain : s.chainActive = plainChain 10500) :
    ∃ core, SameMinable s.manager.core core ∧
      step regtestBlockEnv (.connect (minedBlock other) true) s =
        some { s.withCore core with chainActive := minedChain other } := by
  obtain ⟨core, hminable, hok⟩ := process_minedBlock hinv hchain
  refine ⟨core, hminable, ?_⟩
  rw [step_connect_of_ok (hchain ▸ minedBlock_hash_new other) hok, hchain]

/-- Undoing the mined block leaves the plain chain. -/
lemma disconnect_minedBlock (hchain : s.chainActive = plainChain 10500 ++ [minedBlock other])
    (hminable : s.manager.core.processor.minableCommitmentsByQuorum = .empty) :
    ∃ core, step regtestBlockEnv .disconnect s =
      some { s.withCore core with chainActive := plainChain 10500 } := by
  rw [plainChain_succ] at hchain ⊢
  refine disconnect_succeeds .LLMQ_5_60 (rival other) hchain ?_ hminable
  rw [← plainChain_succ, plainChain_length]
  cases other
  · rfl
  · rfl

/-- A state with one of the commitments mined on top of the plain chain. -/
def withMined (s : LlmqState) (core : ProcessorState) : LlmqState :=
  { s.withCore core with chainActive := minedChain other }

/-- The first commitment is mined. -/
lemma reaches_minedBlock (allowed : LlmqOp → LlmqState → Prop)
    (hplain : ∀ n s, allowed (.connect (plainBlock n) true) s)
    (hmined : ∀ s, PlainState 10500 s → allowed (.connect (minedBlock false) true) s) :
    ∃ s core, PlainState 10500 s ∧ SameMinable s.manager.core core ∧
      RegtestReaches allowed (withMined false s core) := by
  obtain ⟨s, hreach, hs⟩ := reaches_plainChain allowed hplain (n := 10499) (by decide)
  have hinv := chainInv_of_reaches blockCommitments_plainBlock hreach
  obtain ⟨core, hminable, hstep⟩ := connect_minedBlock false hinv hs.chain
  exact ⟨s, core, hs, hminable, hreach.next _ (hmined s hs) hstep⟩

/-- The block of the first commitment is replaced by that of the other. -/
lemma reaches_remined (hreach : RegtestReaches (fun _ _ => True) s)
    (hchain : s.chainActive = minedChain false)
    (hminable : s.manager.core.processor.minableCommitmentsByQuorum = .empty) :
    ∃ core, RegtestReaches (fun _ _ => True) (withMined true s core) := by
  obtain ⟨core, hundo⟩ := disconnect_minedBlock false hchain hminable
  have hundone := hreach.next LlmqOp.disconnect trivial hundo
  obtain ⟨core', _, hstep⟩ := connect_minedBlock true
    (chainInv_of_reaches blockCommitments_plainBlock hundone) rfl
  exact ⟨core', hundone.next (LlmqOp.connect (minedBlock true) true) trivial hstep⟩

end Sample

end Tecracoin.Llmq
