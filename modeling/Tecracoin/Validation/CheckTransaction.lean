/-
  `CheckTransaction` and `ContextualCheckTransaction` of `validation.cpp`: the
  checks of one transaction on its own, which the memory pool and the block
  checks share.

  `CheckTransaction` hands sigma transactions on to `CheckSigmaTransaction`,
  unless the height it is called with lies above `DIP0003Height`: from there on
  it denies them.  The old zerocoin check and the serialised size are parameters.
-/
import Tecracoin.Sigma.Check

namespace Tecracoin

open Data Tecracoin.Sigma Eff

def MAX_BLOCK_BASE_SIZE : Nat := 2000000

def MAX_TX_EXTRA_PAYLOAD : Nat := 10000

/-- The network and what the transaction checks call without looking inside. -/
structure TxEnv where
  chainType : ChainType
  crypto : Crypto
  /-- `GetSerializeSize(tx)` without the witness. -/
  serializeSize : CTransaction → Nat
  /-- Every output takes at least one byte. -/
  length_vout_le : ∀ tx, tx.vout.length ≤ serializeSize tx
  /-- `CheckZerocoinTransaction`, the check against the old zerocoin state. -/
  checkZerocoinTransaction : CheckFlags → CTransaction → Except Failure Unit

namespace TxEnv

/-- `Params().GetConsensus()`. -/
def params (env : TxEnv) : Params := .ofChain env.chainType

end TxEnv

section CheckTransaction

variable (env : TxEnv) (tx : CTransaction)

/-- The checks that do not depend on any context: the transaction is not empty and not too large. -/
def checkTxSize : Except Failure Unit :=
  let allowEmptyTxInOut := decide (tx.nType = .TRANSACTION_QUORUM_COMMITMENT)
  if !allowEmptyTxInOut && tx.vin.isEmpty then
    .error (.dos 10 REJECT_INVALID "bad-txns-vin-empty")
  else if !allowEmptyTxInOut && tx.vout.isEmpty then
    .error (.dos 10 REJECT_INVALID "bad-txns-vout-empty")
  else if env.serializeSize tx > MAX_BLOCK_BASE_SIZE then
    .error (.dos 100 REJECT_INVALID "bad-txns-oversize")
  else if tx.vExtraPayload.length > MAX_TX_EXTRA_PAYLOAD then
    .error (.dos 100 REJECT_INVALID "bad-txns-payload-oversize")
  else .ok ()

/-- The loop over the outputs, with the sum so far. -/
def checkTxOutputs (nValueOut : CAmount) : List CTxOut → Except Failure Unit
  | [] => .ok ()
  | txout :: vout =>
    if txout.nValue < 0 then .error (.dos 100 REJECT_INVALID "bad-txns-vout-negative")
    else if txout.nValue > MAX_MONEY then
      .error (.dos 100 REJECT_INVALID "bad-txns-vout-toolarge")
    else if !moneyRange (wrap64 (nValueOut + txout.nValue)) then
      .error (.dos 100 REJECT_INVALID "bad-txns-txouttotal-toolarge")
    else checkTxOutputs (wrap64 (nValueOut + txout.nValue)) vout

/-- `fRejectSigma`. -/
def rejectSigma (nHeight : Int) : Bool := decide (nHeight > env.params.DIP0003Height)

/-- The duplicate check: spends of minted coins are told apart by their scripts, other inputs by
    their outpoints. -/
def checkDuplicateInputs (nHeight : Int) (tx : CTransaction) : Except Failure Unit :=
  if tx.isPrivacySpend then
    if rejectSigma env nHeight then .error (.dos 100 REJECT_INVALID "bad-sigma")
    else if (tx.vin.map CTxIn.scriptSig).Nodup then .ok ()
    else .error (.dos 100 REJECT_INVALID "bad-txns-spend-inputs-duplicate")
  else if (tx.vin.map CTxIn.prevout).Nodup then .ok ()
  else .error (.dos 100 REJECT_INVALID "bad-txns-inputs-duplicate")

/-- The script length of a coinbase; a coinbase of special type needs no height. -/
def checkCoinbaseLength : Except Failure Unit :=
  let minCbSize := if tx.nType = .TRANSACTION_COINBASE then 1 else 2
  let size := (tx.vin.headD ⟨⟨0, 0⟩, [], 0⟩).scriptSig.length
  if size < minCbSize ∨ size > 100 then .error (.dos 100 REJECT_INVALID "bad-cb-length")
  else .ok ()

def hasNullPrevout : Bool :=
  tx.vin.any (fun txin =>
    txin.prevout.isNull && !(txin.scriptSig.isZerocoinSpend || txin.isZerocoinRemint))

def checkTransaction (st : CSigmaState) (fCheckDuplicateInputs : Bool) (flags : CheckFlags)
    (tx : CTransaction) : Eff Failure CheckState Unit := do
  Eff.lift (checkTxSize env tx)
  Eff.lift (checkTxOutputs 0 tx.vout)
  Eff.when fCheckDuplicateInputs (Eff.lift (checkDuplicateInputs env flags.nHeight tx))
  if tx.isCoinBase then Eff.lift (checkCoinbaseLength tx)
  else do
    Eff.failIf (hasNullPrevout tx) (.dos 10 REJECT_INVALID "bad-txns-prevout-null")
    Eff.when tx.isZerocoinV3SigmaTransaction do
      Eff.failIf (rejectSigma env flags.nHeight) .bare
      checkSigmaTransaction env.crypto env.params st flags tx
    Eff.lift (env.checkZerocoinTransaction flags tx)

/-- `ContextualCheckTransaction`; `nHeight` is the height of the next block. -/
def contextualCheckTransaction (nHeight : Int) (tx : CTransaction) : Except Failure Unit :=
  if env.params.DIP0003Height ≤ nHeight then
    if 3 ≤ tx.nVersion then
      match tx.nType with
      | .other _ => .error (.dos 100 REJECT_INVALID "bad-txns-type")
      | nType =>
        if tx.isCoinBase && decide (nType ≠ .TRANSACTION_COINBASE) then
          .error (.dos 100 REJECT_INVALID "bad-txns-cb-type")
        else .ok ()
    else if tx.nType ≠ .TRANSACTION_NORMAL then .error (.dos 100 REJECT_INVALID "bad-txns-type")
    else .ok ()
  else if 3 ≤ tx.nVersion then .error (.dos 100 REJECT_INVALID "bad-txns-type")
  else .ok ()

end CheckTransaction

/-! ## What a passed check says -/

section Passed

variable {env : TxEnv} {st : CSigmaState} {flags : CheckFlags} {tx : CTransaction}
  {s s' : CheckState} {u : Unit} {dup : Bool} {nHeight : Int} {vout : List CTxOut}
  {nValueOut : CAmount}

/-- The checks that an accepted transaction has passed. -/
lemma checkTransaction_ok (h : checkTransaction env st dup flags tx s = .ok u s') :
    checkTxSize env tx = .ok () ∧ checkTxOutputs 0 tx.vout = .ok () ∧
      (dup = true → checkDuplicateInputs env flags.nHeight tx = .ok ()) ∧
      (tx.isCoinBase = false → tx.isZerocoinV3SigmaTransaction = true →
        rejectSigma env flags.nHeight = false ∧
          checkSigmaTransaction env.crypto env.params st flags tx s = .ok () s') := by
  simp only [checkTransaction, bind_ok_iff, lift_ok_iff, when_ok_iff] at h
  obtain ⟨_, s0, ⟨hsize, hs0⟩, _, s1, ⟨houts, hs1⟩, _, s2, hdup, hrest⟩ := h
  have hs2 : s2 = s ∧ (dup = true → checkDuplicateInputs env flags.nHeight tx = .ok ()) := by
    rcases hdup with ⟨-, hok, hs2⟩ | ⟨hd, hs2⟩
    · exact ⟨hs2.trans (hs1.trans hs0), fun _ => hok⟩
    · exact ⟨hs2.trans (hs1.trans hs0), fun hd' => absurd (hd.symm.trans hd') (by decide)⟩
  refine ⟨hsize, houts, hs2.2, fun hcb hsigma => ?_⟩
  rw [if_neg (by simp [hcb]), hs2.1] at hrest
  simp only [bind_ok_iff, failIf_ok_iff, lift_ok_iff, when_ok_iff, hsigma] at hrest
  obtain ⟨_, _, ⟨-, rfl⟩, _, _, hwhen, -, rfl⟩ := hrest
  rcases hwhen with ⟨-, _, _, ⟨hreject, rfl⟩, hcheck⟩ | ⟨habs, -⟩
  · exact ⟨hreject, hcheck⟩
  · exact absurd habs (by decide)

/-- Only sigma transactions other than a coinbase touch the info. -/
lemma checkTransaction_unchanged
    (hkind : tx.isCoinBase = true ∨ tx.isZerocoinV3SigmaTransaction = false)
    (h : checkTransaction env st dup flags tx s = .ok u s') : s' = s := by
  simp only [checkTransaction, bind_ok_iff, lift_ok_iff, when_ok_iff] at h
  obtain ⟨_, s0, ⟨-, hs0⟩, _, s1, ⟨-, hs1⟩, _, s2, hdup, hrest⟩ := h
  have hs2 : s2 = s := by
    rcases hdup with ⟨-, -, hs2⟩ | ⟨-, hs2⟩ <;> exact hs2.trans (hs1.trans hs0)
  rw [hs2] at hrest
  split_ifs at hrest with hcb
  · exact (lift_ok_iff.mp hrest).2
  · have hsigma : tx.isZerocoinV3SigmaTransaction = false := hkind.resolve_left hcb
    simp only [bind_ok_iff, failIf_ok_iff, lift_ok_iff, when_ok_iff, hsigma]
      at hrest
    obtain ⟨_, s3, ⟨-, hs3⟩, _, s4, hwhen, -, hs'⟩ := hrest
    rcases hwhen with ⟨habs, -⟩ | ⟨-, hs4⟩
    · cases habs
    · exact hs'.trans (hs4.trans hs3)

/-- The spends of minted coins pass the duplicate check only where sigma is not denied. -/
lemma rejectSigma_of_checkDuplicateInputs (hspend : tx.isPrivacySpend = true)
    (h : checkDuplicateInputs env nHeight tx = .ok ()) : rejectSigma env nHeight = false := by
  simp only [checkDuplicateInputs, hspend, if_true] at h
  split_ifs at h with hreject
  · simpa using hreject

lemma prevouts_nodup_of_checkDuplicateInputs (hspend : tx.isPrivacySpend = false)
    (h : checkDuplicateInputs env nHeight tx = .ok ()) : (tx.vin.map CTxIn.prevout).Nodup := by
  simp only [checkDuplicateInputs, hspend, Bool.false_eq_true, if_false] at h
  split_ifs at h with hnodup
  · exact hnodup

lemma nonneg_of_checkTxOutputs (h : checkTxOutputs nValueOut vout = .ok ()) :
    ∀ txout ∈ vout, 0 ≤ txout.nValue := by
  induction vout generalizing nValueOut with
  | nil => exact fun txout htxout => (nomatch htxout)
  | cons txout vout ih =>
    simp only [checkTxOutputs] at h
    split_ifs at h with hnegative hlarge hsum
    intro txout' htxout'
    rcases List.mem_cons.mp htxout' with rfl | htxout'
    · exact not_lt.mp hnegative
    · exact ih h txout' htxout'

/-- After these checks `GetValueOut` does not throw. -/
lemma isSome_of_checkTxOutputs (h : checkTxOutputs nValueOut vout = .ok ()) :
    (CTransaction.sumValueOut nValueOut vout).isSome = true := by
  induction vout generalizing nValueOut with
  | nil => rfl
  | cons txout vout ih =>
    simp only [checkTxOutputs] at h
    split_ifs at h with hnegative hlarge hsum
    have hrange : moneyRange txout.nValue = true :=
      moneyRange_iff.mpr ⟨not_lt.mp hnegative, not_lt.mp hlarge⟩
    simp only [CTransaction.sumValueOut]
    rw [if_neg]
    · exact ih h
    · rw [hrange, Bool.not_true, Bool.false_or]
      exact hsum

lemma length_vout_lt_of_checkTxSize (h : checkTxSize env tx = .ok ()) :
    tx.vout.length < 2 ^ 32 := by
  have hle := env.length_vout_le tx
  simp only [checkTxSize] at h
  split_ifs at h with h1 h2 h3
  rw [MAX_BLOCK_BASE_SIZE] at h3
  omega

end Passed

end Tecracoin
