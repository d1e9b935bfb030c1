/-
  The serials the sigma state marks as spent in the memory pool, against the
  sigma spends that are in it.

  The marks are set when a sigma spend is accepted and cleared when a block that
  spends the serial is connected; a transaction that leaves the pool in any
  other way leaves its marks behind (`step_of_isRemoval`).  What
  keeps the two together is the ban: `CheckTransaction` is called for a loose
  transaction with a height above every `DIP0003Height`, so no sigma spend gets
  in at all.
-/
import Tecracoin.Mempool.Accept
import Tecracoin.Sigma.NodeInv

namespace Tecracoin.Mempool

open Data Tecracoin.Sigma CTxMemPool CSigmaState

variable {zerocoinConflict : CTxIn → Uint256} {vtx : List CTransaction}
  {pool : CTxMemPool} {hash : Uint256}

/-! ## Operations on the node -/

section Operations

variable (env : TxEnv)

/-- Remove the transaction that is in conflict with an input of a block, unless it is the
    transaction of the block itself. -/
def removeConflicting (conflictingTxHash thisTxHash : Uint256) (pool : CTxMemPool) :
    Except Failure CTxMemPool :=
  if conflictingTxHash ≠ 0 ∧ conflictingTxHash ≠ thisTxHash then
    match pool.get conflictingTxHash with
    | none => .ok pool
    | some tx => pool.removeRecursive env.crypto.getHash tx
  else .ok pool

/-- The loop body of `RemoveConflictingPrivacyTransactionsFromMempool` for one input of a sigma
    spend. -/
def removeConflictingSpend (tx : CTransaction) (s : MempoolNode) (txin : CTxIn) :
    Except Failure MempoolNode :=
  let zcSpendSerial := getSigmaSpendSerialNumber env.crypto tx txin
  (removeConflicting env (s.sigmaState.getMempoolConflictingTxHash zcSpendSerial)
    (env.crypto.getHash tx) s.mempool).map
    (fun pool => (s.setPool pool).setSigmaState (s.sigmaState.removeSpendFromMempool zcSpendSerial))

/-- The inputs of one transaction; `zerocoinConflict` is what the old zerocoin state answers for an
    input. -/
def removeConflictingInputs (zerocoinConflict : CTxIn → Uint256) (tx : CTransaction)
    (s : MempoolNode) : Except Failure MempoolNode :=
  if tx.isZerocoinSpend || tx.isZerocoinRemint then
    (tx.vin.foldlM
      (fun pool txin =>
        removeConflicting env (zerocoinConflict txin) (env.crypto.getHash tx) pool) s.mempool).map
      (fun pool => s.setPool pool)
  else if tx.isSigmaSpend then tx.vin.foldlM (removeConflictingSpend env tx) s
  else .ok s

/-- The mints of one transaction; a script that does not parse leaves the default group element. -/
def removeMints (tx : CTransaction) (s : MempoolNode) : MempoolNode :=
  s.setSigmaState ((tx.vout.filter (fun txout => txout.scriptPubKey.isSigmaMint)).foldl
    (fun st txout =>
      st.removeMintFromMempool ((parseSigmaMintScript env.crypto txout.scriptPubKey).getD 0))
    s.sigmaState)

def removeConflictingPrivacyTransactionsFromMempool (zerocoinConflict : CTxIn → Uint256)
    (vtx : List CTransaction) (s : MempoolNode) : Except Failure MempoolNode :=
  vtx.foldlM
    (fun s tx => (removeConflictingInputs env zerocoinConflict tx s).map (removeMints env tx)) s

/-- `ConnectTip`: connect the block, take what conflicts with it out of the pool, then what it
    contains. -/
def connectTip (hash : Uint256) (vtx : List CTransaction) (zerocoinConflict : CTxIn → Uint256)
    (proTxConflicts : CTransaction → List Uint256) (s : MempoolNode) : Except Failure MempoolNode :=
  match s.node.connectBlock env.crypto env.params hash vtx with
  | none => .error .bare
  | some node => do
      let s ← removeConflictingPrivacyTransactionsFromMempool env zerocoinConflict vtx
        { s with node := node }
      let pool ← s.mempool.removeForBlock env.crypto.getHash proTxConflicts vtx
      return s.setPool pool

/-- Does one of the inputs refer to the block? -/
def referencesBlock (hash : Uint256) : List CTxIn → Except Failure Bool
  | [] => .ok false
  | txin :: vin =>
    if txin.isSigmaSpend then
      match parseSigmaSpend env.crypto txin with
      | .error .CBadTxIn => .error (.throws "CBadTxIn")
      | .error .iosFailure => .error (.throws "std::ios_base::failure")
      | .ok (spend, _) =>
        if spend.accumulatorBlockHash = hash then .ok true else referencesBlock hash vin
    else referencesBlock hash vin

def removeSigmaSpendsReferencingBlock (hash : Uint256) (pool : CTxMemPool) :
    Except Failure CTxMemPool := do
  let txnToRemove ← (pool.mapTx.entries.map (fun e => e.2.tx)).filterM
    (fun tx => if tx.isSigmaSpend then referencesBlock env hash tx.vin else .ok false)
  pool.removeAllRecursive env.crypto.getHash txnToRemove

/-- `DisconnectTipSigma`. -/
def disconnectTip (s : MempoolNode) : Except Failure MempoolNode :=
  match s.node.chainActive.head?, s.node.disconnectTip with
  | some tip, some node =>
    (removeSigmaSpendsReferencingBlock env tip.phashBlock s.mempool).map
      (fun pool => ⟨node, pool⟩)
  | _, _ => .error .nullDereference

inductive Op
  | accept (ctx : AcceptContext) (tx : CTransaction)
  | removeRecursive (tx : CTransaction)
  | expire (time : Int)
  | trimToSize (dynamicMemoryUsage : CTxMemPool → Nat)
      (descendantScore : CTxMemPool → Uint256 → Nat) (sizelimit : Nat)
  | removeForReorg (stale : CTxMemPoolEntry → Bool)
  | connectTip (hash : Uint256) (vtx : List CTransaction) (zerocoinConflict : CTxIn → Uint256)
      (proTxConflicts : CTransaction → List Uint256)
  | disconnectTip

/-- One operation of the node; a replacement is part of an acceptance. -/
def step : Op → MempoolNode → Option MempoolNode
  | .accept ctx tx, s => Node.survivor (acceptToMemoryPoolWorker env ctx tx s)
  | .removeRecursive tx, s =>
    ((s.mempool.removeRecursive env.crypto.getHash tx).map (fun pool => s.setPool pool)).toOption
  | .expire time, s => some (s.setPool (s.mempool.expire time))
  | .trimToSize usage score sizelimit, s =>
    some (s.setPool (s.mempool.trimToSize usage score sizelimit))
  | .removeForReorg stale, s => some (s.setPool (s.mempool.removeForReorg stale))
  | .connectTip hash vtx zerocoinConflict proTxConflicts, s =>
    (connectTip env hash vtx zerocoinConflict proTxConflicts s).toOption
  | .disconnectTip, s => (disconnectTip env s).toOption

/-- A node that has just been started. -/
def initial : MempoolNode := ⟨.initial, .empty⟩

/-- States a node gets to by any operations. -/
def Reachable (s : MempoolNode) : Prop := Reaches (step env) (fun _ _ => True) initial s

end Operations

variable {env : TxEnv} {op : Op} {s s' s'' : MempoolNode}

/-! ## The sigma state does not touch the marks when blocks come and go -/

section Frame

variable {st st' : CSigmaState} {mints : List PublicCoin} {index : CBlockIndex}

lemma assignGroup_marks {index : BlockId} {d : CoinDenomination} {n : Nat} {id : Int}
    (h : st.assignGroup index d n = .ok (st', id)) :
    st'.mempoolCoinSerials = st.mempoolCoinSerials := by
  revert h
  fun_cases assignGroup with
  | case1 => exact nofun
  | case2 | case3 =>
    intro h
    obtain ⟨rfl, -⟩ := Prod.mk.inj (Except.ok.inj h)
    rfl

lemma recordMints_marks {id : Int} :
    (recordMints id mints (st, index)).1.mempoolCoinSerials = st.mempoolCoinSerials := by
  induction mints generalizing st index with
  | nil => rfl
  | cons mint mints ih => exact ih

lemma addMints_marks {index' : CBlockIndex}
    (h : st.addMintsToStateAndBlockIndex index mints = .ok (st', index')) :
    st'.mempoolCoinSerials = st.mempoolCoinSerials := by
  unfold addMintsToStateAndBlockIndex at h
  generalize blockDenomMints mints = groups at h
  induction groups generalizing st index with
  | nil => cases h; rfl
  | cons group groups ih =>
    simp only [addDenomMints] at h
    split at h
    · cases h
    · rename_i st1 id hassign
      have hrest := ih h
      rw [hrest, recordMints_marks, assignGroup_marks hassign]

lemma connectBlock_marks {crypto : Crypto} {params : Params} {node node' : Node}
    (h : node.connectBlock crypto params hash vtx = some node') :
    node'.sigmaState.mempoolCoinSerials = node.sigmaState.mempoolCoinSerials := by
  simp only [Node.connectBlock] at h
  split_ifs at h
  split at h
  · cases h
  · rename_i u checked hcheck
    split at h
    · cases h
    · rename_i u' connected hconnect
      obtain ⟨info, hinfo, -, -⟩ := checkSigmaTransactions_mints rfl rfl hcheck
      rw [hinfo, Option.map_some] at hconnect
      obtain ⟨-, s, hserials, hadded⟩ := connectBlockSigma_ok hconnect
      have hmarks : s.sigmaState.mempoolCoinSerials = node.sigmaState.mempoolCoinSerials :=
        connectSerials_rule
          (P := fun s => s.sigmaState.mempoolCoinSerials = node.sigmaState.mempoolCoinSerials)
          (fun s serial hs _ => hs) rfl hserials
      rw [← Option.some.inj h]
      exact (addMints_marks (hadded rfl)).trans hmarks

lemma removeBlock_marks {tip : CBlockIndex} {below : List CBlockIndex}
    (h : st.removeBlock tip below = .ok st') : st'.mempoolCoinSerials = st.mempoolCoinSerials := by
  obtain ⟨st1, st2, h1, h2, rfl⟩ := removeBlock_ok_iff.mp h
  have hcoins : st1.mempoolCoinSerials = st.mempoolCoinSerials := by
    refine foldlM_invariant (P := fun s => s.mempoolCoinSerials = st.mempoolCoinSerials)
      (fun coin _ s s' hs hstep => ?_) rfl h1
    simp only [removeBlockCoins, decrementLatest] at hstep
    split_ifs at hstep
    · cases hstep; exact hs
    · cases hstep; exact hs
    · split at hstep
      · cases hstep
      · cases hstep; exact hs
  have hmints : st2.mempoolCoinSerials = st1.mempoolCoinSerials := by
    refine foldlM_invariant (P := fun s => s.mempoolCoinSerials = st1.mempoolCoinSerials)
      (fun coins _ s s' hs hstep => ?_) rfl h2
    refine foldlM_invariant (P := fun s => s.mempoolCoinSerials = st1.mempoolCoinSerials)
      (fun coin _ s s' hs hmint => ?_) hs hstep
    rw [removeBlockMint_ok hmint]
    exact hs
  rw [← hcoins, ← hmints]
  exact foldl_frame mempoolCoinSerials (fun _ _ _ => by rfl) _

end Frame

/-! ## Leaving the pool -/

/-- Transactions left the pool and marks were cleared, nothing else. -/
structure Removes (s s' : MempoolNode) : Prop where
  pool : s.mempool.Removal s'.mempool
  marks : ∀ serial hash, s'.sigmaState.mempoolCoinSerials.get? serial = some hash →
    s.sigmaState.mempoolCoinSerials.get? serial = some hash

namespace Removes

variable {tx : CTransaction}

lemma refl (s : MempoolNode) : Removes s s := ⟨.refl, fun _ _ h => h⟩

lemma trans (h : Removes s s') (h' : Removes s' s'') : Removes s s'' :=
  ⟨h.pool.trans h'.pool, fun serial hash hget => h.marks serial hash (h'.marks serial hash hget)⟩

lemma setPool (h : s.mempool.Removal pool) : Removes s (s.setPool pool) :=
  ⟨h, fun _ _ hget => hget⟩

lemma foldlM {α : Type} {f : MempoolNode → α → Except Failure MempoolNode} {as : List α}
    (hf : ∀ a s s', f s a = .ok s' → Removes s s') (h : as.foldlM f s = .ok s') : Removes s s' :=
  foldlM_invariant (P := Removes s) (fun a _ _ _ hs hstep => hs.trans (hf a _ _ hstep)) (.refl s) h

lemma conflicting {conflictHash thisHash : Uint256} {pool' : CTxMemPool}
    (h : removeConflicting env conflictHash thisHash pool = .ok pool') : pool.Removal pool' := by
  revert h
  fun_cases removeConflicting with
  | case1 | case3 =>
    rintro ⟨⟩
    exact .refl
  | case2 => exact removal_removeRecursive

lemma conflictingSpend {txin : CTxIn} (h : removeConflictingSpend env tx s txin = .ok s') :
    Removes s s' := by
  obtain ⟨pool, hpool, rfl⟩ := except_map_ok_iff.mp h
  exact ⟨conflicting hpool, fun serial hash hget => (StdMap.get?_erase_eq_some hget).2⟩

lemma conflictingInputs
    (h : removeConflictingInputs env zerocoinConflict tx s = .ok s') : Removes s s' := by
  simp only [removeConflictingInputs] at h
  split_ifs at h
  · obtain ⟨pool, hpool, rfl⟩ := except_map_ok_iff.mp h
    exact setPool (removal_foldlM (fun _ _ _ => conflicting) hpool)
  · exact foldlM (fun _ _ _ => conflictingSpend) h
  · exact Except.ok.inj h ▸ .refl s

lemma mints (env : TxEnv) (tx : CTransaction) (s : MempoolNode) :
    Removes s (removeMints env tx s) := by
  refine ⟨.refl, fun serial hash hget => ?_⟩
  have hmarks : (removeMints env tx s).sigmaState.mempoolCoinSerials =
      s.sigmaState.mempoolCoinSerials :=
    foldl_frame mempoolCoinSerials (fun _ _ _ => by rfl) _
  exact hmarks ▸ hget

lemma privacyTransactions
    (h : removeConflictingPrivacyTransactionsFromMempool env zerocoinConflict vtx s = .ok s') :
    Removes s s' := by
  refine foldlM (fun tx s s' hstep => ?_) h
  obtain ⟨mid, hmid, rfl⟩ := except_map_ok_iff.mp hstep
  exact (conflictingInputs hmid).trans (mints env tx mid)

lemma connectTip {proTxConflicts : CTransaction → List Uint256}
    (h : connectTip env hash vtx zerocoinConflict proTxConflicts s = .ok s') : Removes s s' := by
  simp only [Mempool.connectTip] at h
  split at h
  · cases h
  · rename_i node hconnect
    obtain ⟨mid, hmid, hrest⟩ := except_bind_ok_iff.mp h
    obtain ⟨pool, hpool, hlast⟩ := except_bind_ok_iff.mp hrest
    have hnode : Removes s { s with node := node } :=
      ⟨.refl, fun serial hash hget => (connectBlock_marks hconnect) ▸ hget⟩
    rw [← Except.ok.inj hlast]
    exact hnode.trans ((privacyTransactions hmid).trans (setPool (removal_removeForBlock hpool)))

end Removes

lemma disconnectTip_ok_marks {env : TxEnv} {s s' : MempoolNode}
    (h : disconnectTip env s = .ok s') :
    s.mempool.Removal s'.mempool ∧
      s'.sigmaState.mempoolCoinSerials = s.sigmaState.mempoolCoinSerials := by
  simp only [disconnectTip] at h
  split at h
  · rename_i tip node htip hnode
    obtain ⟨pool, hpool, rfl⟩ := except_map_ok_iff.mp h
    obtain ⟨txs, -, hremove⟩ := except_bind_ok_iff.mp hpool
    obtain ⟨tip, -, hblock⟩ := disconnectTip_ok hnode
    exact ⟨removal_foldlM (fun _ _ _ => removal_removeRecursive) hremove, removeBlock_marks hblock⟩
  · cases h

/-! ## Marks and spends -/

/-- Operations by which transactions leave the pool other than into a block. -/
def Op.isRemoval : Op → Bool
  | .removeRecursive _ | .expire _ | .trimToSize .. | .removeForReorg _ | .disconnectTip => true
  | .accept .. | .connectTip .. => false

lemma step_of_isRemoval (hop : op.isRemoval = true) (h : step env op s = some s') :
    s.mempool.Removal s'.mempool ∧
      s'.sigmaState.mempoolCoinSerials = s.sigmaState.mempoolCoinSerials := by
  cases op with
  | accept | connectTip => cases hop
  | removeRecursive tx =>
    obtain ⟨pool, hpool, rfl⟩ := except_map_ok_iff.mp (toOption_eq_some_iff.mp h)
    exact ⟨removal_removeRecursive hpool, rfl⟩
  | expire | removeForReorg =>
    cases h
    exact ⟨removal_removeStaged _, rfl⟩
  | trimToSize usage score sizelimit =>
    cases h
    exact ⟨removal_trimToSize, rfl⟩
  | disconnectTip => exact disconnectTip_ok_marks (toOption_eq_some_iff.mp h)

/-- Whatever is not an acceptance removes. -/
lemma removes_of_step (hop : ∀ ctx tx, op ≠ .accept ctx tx)
    (h : step env op s = some s') : Removes s s' := by
  by_cases hremoval : op.isRemoval = true
  · obtain ⟨hpool, hmarks⟩ := step_of_isRemoval hremoval h
    exact ⟨hpool, fun _ _ hget => hmarks ▸ hget⟩
  · cases op with
    | accept ctx tx => exact absurd rfl (hop ctx tx)
    | connectTip hash vtx zerocoinConflict proTxConflicts =>
      exact .connectTip (toOption_eq_some_iff.mp h)
    | _ => exact absurd rfl hremoval

/-- A serial is spent by a sigma spend that is in the pool. -/
def SpentInMempool (crypto : Crypto) (s : MempoolNode) (serial : Scalar) : Prop :=
  ∃ hash entry, s.mempool.mapTx.get? hash = some entry ∧ entry.tx.isSigmaSpend = true ∧
    serial ∈ spendSerials crypto entry.tx

/-- The ban at work: no sigma spend in the pool and no mark. -/
structure Banned (s : MempoolNode) : Prop where
  pool : ∀ hash entry, s.mempool.mapTx.get? hash = some entry → entry.tx.isSigmaSpend = false
  marks : ∀ serial, s.sigmaState.mempoolCoinSerials.get? serial = none

lemma Banned.removes (hs : Banned s) (h : Removes s s') : Banned s' := by
  refine ⟨fun hash entry hget => hs.pool hash entry (h.pool.shrinks hash entry hget),
    fun serial => ?_⟩
  refine Option.eq_none_iff_forall_ne_some.mpr (fun hash hget => ?_)
  exact absurd ((h.marks serial hash hget).symm.trans (hs.marks serial)) (by simp)

lemma Banned.accept (hs : Banned s) {ctx : AcceptContext} {tx : CTransaction}
    (h : Node.survivor (acceptToMemoryPoolWorker env ctx tx s) = some s') : Banned s' := by
  have hrun := accept_attempted env ctx tx s
  rw [survivor_eq_some h] at hrun
  refine ⟨fun hash entry hget => ?_, fun serial => hrun.serials ▸ hs.marks serial⟩
  rcases hrun.pool with hsame | ⟨hspend, conflicts, _, _, hpool⟩
  · exact hs.pool hash entry (hsame ▸ hget)
  · rw [hpool] at hget
    rcases get?_storedPool hget with hold | hnew
    · exact hs.pool hash entry hold
    · simp only [CTransaction.isPrivacySpend, Bool.or_eq_false_iff] at hspend
      rw [hnew]
      exact hspend.1.2

lemma Banned.step (hs : Banned s) (h : step env op s = some s') : Banned s' := by
  by_cases haccept : ∃ ctx tx, op = .accept ctx tx
  · obtain ⟨ctx, tx, rfl⟩ := haccept
    exact hs.accept h
  · exact hs.removes (removes_of_step (fun ctx tx heq => haccept ⟨ctx, tx, heq⟩) h)

lemma banned_of_reachable (h : Reachable env s) : Banned s :=
  Reaches.invariant h ⟨fun _ _ hget => (nomatch hget), fun _ => rfl⟩
    (fun _ _ _ hs _ hstep => hs.step hstep)

/-- In every state of every run the marked serials are exactly those that sigma spends in the pool
    spend, so a serial that no transaction of the pool and no block spends can be spent. -/
theorem mempool_serials_exact (h : Reachable env s) :
    (∀ serial, s.sigmaState.mempoolCoinSerials.contains serial = true ↔
      SpentInMempool env.crypto s serial) ∧
    ∀ serial, s.sigmaState.isUsedCoinSerial serial = false →
      ¬ SpentInMempool env.crypto s serial →
      s.sigmaState.canAddSpendToMempool serial = true := by
  have hbanned := banned_of_reachable h
  have hmarks : ∀ serial, s.sigmaState.mempoolCoinSerials.contains serial = false :=
    fun serial => by rw [StdMap.contains, hbanned.marks serial]; rfl
  constructor
  · intro serial
    rw [hmarks serial]
    constructor
    · intro habs
      cases habs
    · rintro ⟨hash, entry, hget, hspend, -⟩
      rw [hbanned.pool hash entry hget] at hspend
      cases hspend
  · intro serial hunused _
    rw [canAddSpendToMempool, hunused, hmarks serial]
    rfl

/-! ## A small run -/

namespace Sample

open Tecracoin.Sigma.Sample

def toyEnv : TxEnv where
  chainType := .chainTestnet
  crypto := toyCrypto
  serializeSize tx := tx.vout.length
  length_vout_le _ := le_refl _
  checkZerocoinTransaction _ _ := .ok ()

/-- A node that raises no objection and has the one coin `⟨9, 0⟩`. -/
def permissive : AcceptContext where
  isCheckWalletTransaction := false
  markZcoinSpendTransactionSerial := true
  fOverrideMempoolLimit := false
  nAbsurdFee := 0
  nAcceptTime := 100
  now := 100
  checkZerocoinTransaction := .ok ()
  prematureWitness := false
  fRequireStandard := true
  nonStandard := none
  checkFinalTx := true
  fEnableReplacement := true
  zerocoinSerials := .ok ()
  haveCoin prevout := decide (prevout = ⟨9, 0⟩)
  areInputsStandard := true
  isWitnessStandard := true
  hasWitness := false
  nFees := 0
  rateLimited := false
  withinChainLimits := true
  checkSpecialTx := .ok ()
  existsProviderTxConflict := false
  spendsConflicting := false
  replacementLowersFeeRate := false
  tooManyReplacements := false
  replacementAddsUnconfirmed := false
  replacementLowersFees := false
  replacementUnderpaysRelay := false
  checkInputs := .ok ()
  spendsCoinbase := false
  dynamicMemoryUsage pool := pool.mapTx.entries.length
  descendantScore _ _ := 0
  mempoolSizeLimit := 10
  mempoolExpiry := 50

def payment : CTransaction := tx 2 [⟨⟨9, 0⟩, [], 0⟩] [⟨COIN, [0x51]⟩]

def spendTx : CTransaction := tx 3 [spendInput 1 5] [⟨COIN, [0x51]⟩]

/-- Two blocks, of which the second mints a coin; a payment is accepted and a spend of the coin is
    not. -/
def acceptedOps : List Op :=
  [.connectTip 0 [] (fun _ => 0) (fun _ => []),
    .connectTip 1 [mintTx 1 7] (fun _ => 0) (fun _ => []),
    .accept permissive payment, .accept permissive spendTx]

def accepted : MempoolNode where
  node := minted
  mempool :=
    { mapTx := ⟨[(2, ⟨payment, 100, false⟩)], by decide⟩
      mapNextTx := ⟨[(⟨9, 0⟩, payment)], by decide⟩
      mapLinks := ⟨[(2, ⟨[], []⟩)], by decide⟩ }

lemma accepted_reachable : Reachable toyEnv accepted :=
  reaches_of_runSteps acceptedOps .start rfl (fun _ _ _ => trivial)

end Sample

open Sample in
theorem mempool_serials_exact_accepted :
    Reachable toyEnv accepted ∧
      (∀ serial, accepted.sigmaState.mempoolCoinSerials.contains serial = true ↔
        SpentInMempool toyEnv.crypto accepted serial) ∧
      ∀ serial, accepted.sigmaState.isUsedCoinSerial serial = false →
        ¬ SpentInMempool toyEnv.crypto accepted serial →
        accepted.sigmaState.canAddSpendToMempool serial = true :=
  ⟨accepted_reachable, mempool_serials_exact accepted_reachable⟩

end Tecracoin.Mempool
