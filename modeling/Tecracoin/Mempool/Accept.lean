/-
  `AcceptToMemoryPoolWorker` of `validation.cpp`: how a loose transaction gets
  into the memory pool and how the serials it spends get into the sigma state.

  Fees, signature checks and the other questions the function only asks are
  answered by `AcceptContext`, one field per question, so every result holds for
  every answer.  Their order and their reject reasons are those of the source.
-/
import Tecracoin.Mempool.Pool
import Tecracoin.Sigma.Node
import Tecracoin.Validation.CheckTransaction

namespace Tecracoin.Mempool

open Data Tecracoin.Sigma CTxMemPool Eff

/-- The node as the memory pool sees it. -/
structure MempoolNode where
  node : Node
  mempool : CTxMemPool

namespace MempoolNode

def sigmaState (s : MempoolNode) : CSigmaState := s.node.sigmaState

def setPool (pool : CTxMemPool) (s : MempoolNode) : MempoolNode := { s with mempool := pool }

def setSigmaState (st : CSigmaState) (s : MempoolNode) : MempoolNode :=
  { s with node := { s.node with sigmaState := st } }

end MempoolNode

/-- The arguments of one call and the answers of the rest of the node. -/
structure AcceptContext where
  isCheckWalletTransaction : Bool
  markZcoinSpendTransactionSerial : Bool
  fOverrideMempoolLimit : Bool
  nAbsurdFee : CAmount
  nAcceptTime : Int
  now : Int
  /-- `CheckZerocoinTransaction`. -/
  checkZerocoinTransaction : Except Failure Unit
  /-- A witness without `-prematurewitness`. -/
  prematureWitness : Bool
  /-- `fRequireStandard` and the reason of `IsStandardTx`, if it has one. -/
  fRequireStandard : Bool
  nonStandard : Option String
  checkFinalTx : Bool
  fEnableReplacement : Bool
  /-- The serials of old zerocoin spends against `CZerocoinState`. -/
  zerocoinSerials : Except Failure Unit
  /-- `view.HaveCoin`, over the UTXO set and the pool. -/
  haveCoin : COutPoint → Bool
  areInputsStandard : Bool
  isWitnessStandard : Bool
  hasWitness : Bool
  nFees : CAmount
  rateLimited : Bool
  /-- `CalculateMemPoolAncestors` stays within the limits. -/
  withinChainLimits : Bool
  checkSpecialTx : Except Failure Unit
  existsProviderTxConflict : Bool
  /-- An ancestor in the pool would be replaced. -/
  spendsConflicting : Bool
  replacementLowersFeeRate : Bool
  tooManyReplacements : Bool
  replacementAddsUnconfirmed : Bool
  replacementLowersFees : Bool
  replacementUnderpaysRelay : Bool
  checkInputs : Except Failure Unit
  spendsCoinbase : Bool
  dynamicMemoryUsage : CTxMemPool → Nat
  descendantScore : CTxMemPool → Uint256 → Nat
  mempoolSizeLimit : Nat
  mempoolExpiry : Int

/-- `if (condition) return …`, one after the other. -/
def failFirst : List (Bool × Failure) → Except Failure Unit
  | [] => .ok ()
  | (condition, failure) :: rest => if condition then .error failure else failFirst rest

section Accept

variable (env : TxEnv) (ctx : AcceptContext) (tx : CTransaction)

/-- `CheckTransaction` with the height of a loose transaction. -/
def checkLooseTransaction (st : CSigmaState) : Eff Failure CheckState Unit :=
  checkTransaction { env with checkZerocoinTransaction := fun _ _ => ctx.checkZerocoinTransaction }
    st true ⟨env.crypto.getHash tx, false, intMax, ctx.isCheckWalletTransaction, true⟩ tx

/-- Run a check of the sigma module on the active chain, without an info. -/
def onChain (check : CSigmaState → Eff Failure CheckState Unit) : Eff Failure MempoolNode Unit :=
  fun s =>
    match check s.sigmaState ⟨s.node.chainActive, none⟩ with
    | .ok _ c => .ok () { s with node := { s.node with chainActive := c.chain } }
    | .error e c => .error e { s with node := { s.node with chainActive := c.chain } }

/-- Old zerocoin transactions are let in for a while after sigma starts. -/
def zerocoinGrace (height : Int) : Except Failure Unit :=
  failFirst
    [(tx.isZerocoinMint && decide (height > env.params.nSigmaStartBlock +
        env.params.nZerocoinV2MintMempoolGracefulPeriod),
      .dos 100 REJECT_INVALID "bad-txns-zerocoin"),
     (tx.isZerocoinSpend && decide (height > env.params.nSigmaStartBlock +
        env.params.nZerocoinV2SpendMempoolGracefulPeriod),
      .dos 100 REJECT_INVALID "bad-txns-zerocoin")]

/-- The checks from `ContextualCheckTransaction` to the ban of zerocoin and sigma spends. -/
def looseChecks (height : Int) (pool : CTxMemPool) : Except Failure Unit := do
  contextualCheckTransaction env (height + 1) tx
  failFirst
    [(decide (3 ≤ tx.nVersion) && decide (tx.nType = .TRANSACTION_QUORUM_COMMITMENT),
      .dos 100 REJECT_INVALID "qc-not-allowed"),
     (tx.isCoinBase, .dos 100 REJECT_INVALID "coinbase"),
     (ctx.prematureWitness, .dos 0 REJECT_NONSTANDARD "no-witness-yet"),
     (ctx.fRequireStandard && ctx.nonStandard.isSome,
      .dos 0 REJECT_NONSTANDARD (ctx.nonStandard.getD "")),
     (!ctx.checkFinalTx, .dos 0 REJECT_NONSTANDARD "non-final"),
     (pool.contains (env.crypto.getHash tx),
      .invalid REJECT_ALREADY_KNOWN "txn-already-in-mempool"),
     (tx.isPrivacySpend && decide (height > env.params.DIP0003Height),
      .dos 100 REJECT_INVALID "bad-txns-zerocoin")]

/-- The serials a transaction spends, in input order. -/
def spendSerials (crypto : Crypto) (tx : CTransaction) : List Scalar :=
  tx.vin.map (getSigmaSpendSerialNumber crypto tx)

/-- The loop over the inputs of a sigma spend. -/
def checkSpendSerials (st : CSigmaState) : List Scalar → Except Failure Unit
  | [] => .ok ()
  | serial :: serials =>
    if serial = 0 then .error (.invalid REJECT_INVALID "txn-invalid-zerocoin-spend")
    else if !st.canAddSpendToMempool serial then
      .error (.invalid REJECT_CONFLICT "txn-mempool-conflict")
    else checkSpendSerials st serials

/-- `fReplacementOptOut` of a transaction in the pool. -/
def replacementOptOut (conflicting : CTransaction) : Bool :=
  !conflicting.vin.any (fun txin => decide (txin.nSequence < 0xffffffff - 1))

/-- `setConflicts`: the spenders in the pool of the outpoints `tx` spends. With replacement switched
    off they are not even looked at. -/
def setConflicts (pool : CTxMemPool) : Except Failure (List Uint256) :=
  tx.vin.foldlM
    (fun conflicts txin =>
      match pool.mapNextTx.get? txin.prevout with
      | none => .ok conflicts
      | some conflicting =>
        if env.crypto.getHash conflicting ∈ conflicts ∨ ctx.fEnableReplacement = false then
          .ok conflicts
        else if replacementOptOut conflicting then
          .error (.invalid REJECT_CONFLICT "txn-mempool-conflict")
        else .ok (conflicts.insert (env.crypto.getHash conflicting))) []

/-- The serial checks of the three kinds of spends, or the conflicts of an ordinary transaction. -/
def spendConflicts (st : CSigmaState) (pool : CTxMemPool) : Except Failure (List Uint256) :=
  if tx.isZerocoinSpend || tx.isZerocoinRemint then ctx.zerocoinSerials.map (fun _ => [])
  else if tx.isSigmaSpend then
    (checkSpendSerials st (spendSerials env.crypto tx)).map (fun _ => [])
  else setConflicts env ctx tx pool

/-- `zcMintPubcoinsV3`: the coins the outputs mint. -/
def mintPubcoins (height : Int) (st : CSigmaState) :
    List CTxOut → Except Failure (List GroupElement)
  | [] => .ok []
  | txout :: vout =>
    if txout.scriptPubKey.isSigmaMint then
      if height > env.params.DIP0003Height then
        .error (.dos 100 REJECT_INVALID "bad-sigma-mint")
      else match parseSigmaMintScript env.crypto txout.scriptPubKey with
        | none => .error (.dos 100 PUBCOIN_NOT_VALIDATE "bad-txns-zerocoin")
        | some pubCoin =>
          if !st.canAddMintToMempool pubCoin then
            .error (.invalid REJECT_CONFLICT "txn-mempool-conflict")
          else (mintPubcoins height st vout).map (pubCoin :: ·)
    else mintPubcoins height st vout

/-- The outputs must not exist yet, the inputs must. -/
def checkCoins : Except Failure Unit :=
  failFirst
    [((List.range tx.vout.length).any
        (fun out => ctx.haveCoin ⟨env.crypto.getHash tx, UInt32.ofNat out⟩),
      .invalid REJECT_ALREADY_KNOWN "txn-already-known"),
     (!tx.isPrivacySpend && tx.vin.any (fun txin => !ctx.haveCoin txin.prevout), .bare)]

section

variable (conflicts : List Uint256)

/-- A replacement must be worth it. -/
def replacementChecks : Except Failure Unit :=
  if conflicts.isEmpty then .ok ()
  else
    failFirst
      [(ctx.replacementLowersFeeRate, .dos 0 REJECT_INSUFFICIENTFEE "insufficient fee"),
       (ctx.tooManyReplacements, .dos 0 REJECT_NONSTANDARD "too many potential replacements"),
       (ctx.replacementAddsUnconfirmed, .dos 0 REJECT_NONSTANDARD "replacement-adds-unconfirmed"),
       (ctx.replacementLowersFees, .dos 0 REJECT_INSUFFICIENTFEE "insufficient fee"),
       (ctx.replacementUnderpaysRelay, .dos 0 REJECT_INSUFFICIENTFEE "insufficient fee")]

/-- Relay policy, ancestors, special transactions, replacement and scripts; not for old zerocoin
    spends and remints. -/
def policyChecks : Except Failure Unit := do
  failFirst
    [(ctx.fRequireStandard && !ctx.areInputsStandard,
      .invalid REJECT_NONSTANDARD "bad-txns-nonstandard-inputs"),
     (ctx.hasWitness && ctx.fRequireStandard && !ctx.isWitnessStandard,
      .dos 0 REJECT_NONSTANDARD "bad-witness-nonstandard"),
     (ctx.rateLimited, .dos 0 REJECT_INSUFFICIENTFEE "rate limited free transaction"),
     (decide (ctx.nAbsurdFee ≠ 0) && decide (ctx.nFees > ctx.nAbsurdFee),
      .invalid REJECT_HIGHFEE "absurdly-high-fee"),
     (!ctx.withinChainLimits, .dos 0 REJECT_NONSTANDARD "too-long-mempool-chain")]
  ctx.checkSpecialTx
  failFirst
    [(ctx.existsProviderTxConflict, .dos 0 REJECT_DUPLICATE "protx-dup"),
     (ctx.spendsConflicting, .dos 10 REJECT_INVALID "bad-txns-spends-conflicting-tx")]
  replacementChecks ctx conflicts
  ctx.checkInputs

def limitMempoolSize (pool : CTxMemPool) : CTxMemPool :=
  (pool.expire (ctx.now - ctx.mempoolExpiry)).trimToSize ctx.dynamicMemoryUsage
    ctx.descendantScore ctx.mempoolSizeLimit

/-- The pool with the transaction in place of what it replaces, trimmed. -/
def storedPool (pool : CTxMemPool) : CTxMemPool :=
  let stored := (pool.removeWithDescendants (conflicts.filter pool.contains)).addUnchecked
    (env.crypto.getHash tx) ⟨tx, ctx.nAcceptTime, ctx.spendsCoinbase⟩
  if ctx.fOverrideMempoolLimit then stored else limitMempoolSize ctx stored

/-- Store the transaction. The pool keeps its changes also if the transaction itself has been
    trimmed and is reported as refused. -/
def storeTransaction : Eff Failure MempoolNode Unit := do
  let hash := env.crypto.getHash tx
  let s ← get
  if tx.isZerocoinSpend || tx.isZerocoinRemint then
    set (s.setPool (s.mempool.addUnchecked hash ⟨tx, ctx.now, false⟩))
  else do
    lift (policyChecks ctx conflicts)
    let pool := storedPool env ctx tx conflicts s.mempool
    set (s.setPool pool)
    failIf (!ctx.fOverrideMempoolLimit && !pool.contains hash)
      (.dos 0 REJECT_INSUFFICIENTFEE "mempool full")

end

/-- Mark the serials and the mints of an accepted transaction. -/
def markSerials (mints : List GroupElement) : Eff Failure MempoolNode Unit := do
  when (tx.isSigmaSpend && ctx.markZcoinSpendTransactionSerial)
    (modify (fun s => s.setSigmaState
      (s.sigmaState.addSpendToMempool (env.crypto.getHash tx) (spendSerials env.crypto tx)).2))
  when ctx.markZcoinSpendTransactionSerial
    (modify (fun s => s.setSigmaState (s.sigmaState.addMintsToMempool mints)))

def acceptToMemoryPoolWorker : Eff Failure MempoolNode Unit := do
  let s ← get
  let height := chainHeight s.node.chainActive
  lift (zerocoinGrace env tx height)
  onChain (checkLooseTransaction env ctx tx)
  lift (looseChecks env ctx tx height s.mempool)
  let conflicts ← lift (spendConflicts env ctx tx s.sigmaState s.mempool)
  let mints ← lift (mintPubcoins env height s.sigmaState tx.vout)
  lift (checkCoins env ctx tx)
  storeTransaction env ctx tx conflicts
  markSerials env ctx tx mints

end Accept

/-! ## What an attempt can do -/

section Spec

variable {env : TxEnv} {ctx : AcceptContext} {tx : CTransaction} {pool : CTxMemPool}

/-- A check on the active chain may touch keys of block indexes, nothing else. -/
def SamePool (s s' : MempoolNode) : Prop :=
  s'.mempool = s.mempool ∧ s'.sigmaState = s.sigmaState

/-- Loose transactions are checked with a height at which sigma is denied. -/
lemma checkLooseTransaction_refuses (hspend : tx.isPrivacySpend = true) {st : CSigmaState}
    {s s' : CheckState} {u : Unit} : checkLooseTransaction env ctx tx st s ≠ .ok u s' := by
  intro h
  have hdup := (checkTransaction_ok h).2.2.1 rfl
  have hreject := rejectSigma_of_checkDuplicateInputs hspend hdup
  have hlt := Params.DIP0003Height_lt_intMax env.chainType
  simp only [rejectSigma, decide_eq_false_iff_not, not_lt] at hreject
  exact absurd hreject (not_le.mpr hlt)

lemma removal_limitMempoolSize : pool.Removal (limitMempoolSize ctx pool) :=
  (removal_removeStaged _).trans removal_trimToSize

lemma get?_storedPool {conflicts : List Uint256} {hash : Uint256} {entry : CTxMemPoolEntry}
    (h : (storedPool env ctx tx conflicts pool).mapTx.get? hash = some entry) :
    pool.mapTx.get? hash = some entry ∨ entry.tx = tx := by
  have hstored : ∀ pool' : CTxMemPool,
      CTxMemPool.Shrinks ((pool.removeWithDescendants (conflicts.filter pool.contains)).addUnchecked
        (env.crypto.getHash tx) ⟨tx, ctx.nAcceptTime, ctx.spendsCoinbase⟩) pool' →
      pool'.mapTx.get? hash = some entry → pool.mapTx.get? hash = some entry ∨ entry.tx = tx := by
    intro pool' hshrinks hget
    rcases get?_addUnchecked (hshrinks hash entry hget) with hold | hnew
    · exact .inl (shrinks_removeStaged _ hash entry hold)
    · exact .inr (congrArg CTxMemPoolEntry.tx hnew)
  simp only [storedPool] at h
  split_ifs at h
  · exact hstored _ (.refl _) h
  · exact hstored _ (removal_limitMempoolSize).shrinks h

lemma failFirst_ok {checks : List (Bool × Failure)} (h : failFirst checks = .ok ())
    (check : Bool × Failure) (hmem : check ∈ checks) : check.1 = false := by
  fun_induction failFirst with
  | case1 => cases hmem
  | case2 => cases h
  | case3 condition failure rest hcondition ih =>
    rcases List.mem_cons.mp hmem with rfl | hmem
    · exact Bool.eq_false_iff.mpr hcondition
    · exact ih h hmem

lemma looseChecks_new {height : Int} (h : looseChecks env ctx tx height pool = .ok ()) :
    pool.contains (env.crypto.getHash tx) = false := by
  obtain ⟨_, _, hchecks⟩ := except_bind_ok_iff.mp h
  have hnew := failFirst_ok hchecks (pool.contains (env.crypto.getHash tx),
    .invalid REJECT_ALREADY_KNOWN "txn-already-in-mempool") (by simp)
  exact hnew

/-- What an attempt leaves: the pool as it was, or an ordinary transaction stored in it. No serial
    is marked. -/
structure Attempted (env : TxEnv) (ctx : AcceptContext) (tx : CTransaction) (s t : MempoolNode) :
    Prop where
  serials : t.sigmaState.mempoolCoinSerials = s.sigmaState.mempoolCoinSerials
  pool : t.mempool = s.mempool ∨ tx.isPrivacySpend = false ∧ ∃ conflicts,
    setConflicts env ctx tx s.mempool = .ok conflicts ∧
    s.mempool.contains (env.crypto.getHash tx) = false ∧
    t.mempool = storedPool env ctx tx conflicts s.mempool

lemma SamePool.attempted {s t : MempoolNode} (h : SamePool s t) : Attempted env ctx tx s t :=
  ⟨congrArg CSigmaState.mempoolCoinSerials h.2, .inl h.1⟩

/-- A spend of minted coins does not get past the checks, whatever the rest of the node answers. -/
lemma accept_attempted (env : TxEnv) (ctx : AcceptContext) (tx : CTransaction) (s : MempoolNode) :
    Attempted env ctx tx s (finalState (acceptToMemoryPoolWorker env ctx tx s)) := by
  have hlift {α : Type} (x : Except Failure α) (P : Prop) :
      Eff.Triple (fun t => SamePool s t ∧ P) (lift x) (fun a t => SamePool s t ∧ P ∧ x = .ok a)
        (Attempted env ctx tx s) := by
    intro t ht
    cases x with
    | error e => exact ht.1.attempted
    | ok a => exact ⟨ht.1, ht.2, rfl⟩
  refine Triple.finalState (P := fun t => t = s) ?_ rfl
  refine triple_bind (Q := fun u t => SamePool s t ∧ u = s)
    (fun t ht => ⟨ht ▸ ⟨rfl, rfl⟩, ht⟩) (fun u => ?_)
  refine triple_bind (hlift _ _) (fun _ => ?_)
  refine triple_bind (Q := fun _ t => SamePool s t ∧ u = s ∧ tx.isPrivacySpend = false)
    (fun t ht => ?_) (fun _ => ?_)
  · rw [onChain]
    cases hcheck : checkLooseTransaction env ctx tx t.sigmaState ⟨t.node.chainActive, none⟩ with
    | ok _ c =>
      exact ⟨ht.1, ht.2.1, Bool.eq_false_iff.mpr
        (fun hspend => checkLooseTransaction_refuses hspend hcheck)⟩
    | error e c => exact SamePool.attempted ht.1
  refine triple_bind (hlift _ _) (fun _ => ?_)
  refine triple_bind (hlift _ _) (fun conflicts => ?_)
  refine triple_bind (hlift _ _) (fun mints => ?_)
  refine triple_bind (hlift _ _) (fun _ => ?_)
  rintro t ⟨⟨htpool, htstate⟩, ⟨⟨⟨⟨rfl, hspend⟩, hloose⟩, hconflicts⟩, _⟩, _⟩
  -- an ordinary transaction goes through `setConflicts` and is stored
  have hkind : (tx.isZerocoinSpend || tx.isZerocoinRemint) = false ∧ tx.isSigmaSpend = false := by
    simpa [CTransaction.isPrivacySpend, and_assoc, and_comm, and_left_comm] using hspend
  rw [spendConflicts, hkind.1, hkind.2] at hconflicts
  refine triple_bind (P := fun t' => t' = t) (Q := fun _ => Attempted env ctx tx u) ?_
    (fun _ => ?_) t rfl
  · rintro _ rfl
    rename_i t
    have hstored : Attempted env ctx tx u
        (t.setPool (storedPool env ctx tx conflicts t.mempool)) :=
      ⟨congrArg CSigmaState.mempoolCoinSerials htstate, .inr ⟨hspend, conflicts, hconflicts,
        looseChecks_new hloose, by rw [htpool]; rfl⟩⟩
    rw [storeTransaction, get_bind_apply, hkind.1]
    cases hpolicy : policyChecks ctx conflicts with
    | error e => exact SamePool.attempted ⟨htpool, htstate⟩
    | ok _ => exact triple_pass (P := Attempted env ctx tx u) (fun _ h _ => h) _ hstored
  · rw [markSerials, hkind.2]
    refine triple_bind (Q := fun _ => Attempted env ctx tx u) (triple_pure (fun t ht => ht))
      (fun _ => ?_)
    unfold when
    split_ifs
    · exact triple_modify (fun t ht => ⟨ht.serials, ht.pool⟩)
    · exact triple_pure (fun t ht => ht)

end Spec

end Tecracoin.Mempool
