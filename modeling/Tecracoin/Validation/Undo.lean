/-
  `DisconnectBlock` takes back what `ConnectBlock` has done to the unspent coins.

  One transaction is undone by `disconnectTransaction_spec`, against `TxEffect`;
  a block by induction on `Effects`, whose reverse order is the order of the loop.
  What it needs of the coins is `Restorable`: a coin of height 0, or one with an
  unspendable script, cannot be put back by `ApplyTxInUndo`.
-/
import Tecracoin.Validation.DisconnectBlock
import Tecracoin.Validation.Effects

namespace Tecracoin.Validation

open Data Tecracoin.Sigma Coins PartialMap CCoinsViewCache CTxIn List

variable {o : COutPoint} {view : CCoinsViewCache} {undo : Coin} {s : DisconnectState}
  {env : TxEnv} {nHeight : Int} {u : PartialMap COutPoint Coin}

/-- Every coin can be put back by `ApplyTxInUndo`. -/
def Restorable (u : PartialMap COutPoint Coin) : Prop :=
  ∀ o coin, u o = some coin → coin.nHeight ≠ 0 ∧
    coin.out.scriptPubKey.isUnspendable = false ∧ coin.isSpent = false

/-! ## Outputs -/

/-- The loop over the outputs, for outputs the view has. -/
lemma disconnectOutputs_spec {outs : List (COutPoint × CTxOut)} (hview : s.view.Coherent)
    (hnodup : (outs.map Prod.fst).Nodup)
    (hthere : ∀ out ∈ outs, out.2.scriptPubKey.isUnspendable = false →
      ∃ coin, s.view.unspent out.1 = some coin ∧ coin.out = out.2) :
    (disconnectOutputs outs s).view.unspent = s.view.unspent.without
        ((outs.filter (fun out => !out.2.scriptPubKey.isUnspendable)).map Prod.fst) ∧
      (disconnectOutputs outs s).view.Coherent ∧ (disconnectOutputs outs s).fClean = s.fClean := by
  -- induction on the outputs; the later ones are untouched by spending the first
  induction outs generalizing s with
  | nil => exact ⟨without_nil.symm, hview, rfl⟩
  | cons out outs ih =>
    rw [map_cons, nodup_cons] at hnodup
    cases hscript : out.2.scriptPubKey.isUnspendable with
    | true =>
      have hstep : disconnectOutputs (out :: outs) s = disconnectOutputs outs s := by
        rw [disconnectOutputs, foldl_cons, if_pos hscript]
        rfl
      rw [hstep, filter_cons_of_neg (by simp [hscript])]
      exact ih hview hnodup.2 (forall_mem_cons.mp hthere).2
    | false =>
      obtain ⟨coin, hcoin, hmatch⟩ := hthere out (.head _) hscript
      obtain ⟨hspent, hcoherent⟩ := spendCoin_spec hview
      have hclean : decide (out.2 = (s.view.spendCoin out.1).1.out) = true := by
        rw [spendCoin_unspent hcoin]
        exact decide_eq_true hmatch.symm
      have hstep : disconnectOutputs (out :: outs) s =
          disconnectOutputs outs ⟨(s.view.spendCoin out.1).2, s.fClean⟩ := by
        rw [disconnectOutputs, foldl_cons, if_neg (by simp [hscript])]
        simp only [hclean, Bool.and_true]
        rfl
      have hlater : ∀ out' ∈ outs, out'.2.scriptPubKey.isUnspendable = false →
          ∃ coin, (s.view.spendCoin out.1).2.unspent out'.1 = some coin ∧
            coin.out = out'.2 := by
        intro out' hout' hscript'
        have hne : out'.1 ≠ out.1 := fun he => hnodup.1 (he ▸ mem_map_of_mem hout')
        rw [hspent, without_of_notMem (by simpa using hne)]
        exact hthere out' (.tail _ hout') hscript'
      obtain ⟨hunspent, hview', hclean'⟩ :=
        ih (s := ⟨(s.view.spendCoin out.1).2, s.fClean⟩) hcoherent hnodup.2 hlater
      rw [hstep]
      refine ⟨?_, hview', hclean'⟩
      rw [hunspent, filter_cons_of_pos (by simp [hscript]), map_cons,
        ← singleton_append, without_append, ← hspent]

/-! ## Inputs -/

section Inputs

variable {coin : Coin}

/-- A coin that is not there, with a height and a spendable script, is put back. -/
lemma applyTxInUndo_spec (hview : s.view.Coherent) (hnone : s.view.unspent o = none)
    (hheight : coin.nHeight ≠ 0) (hscript : coin.out.scriptPubKey.isUnspendable = false)
    (hspent : coin.isSpent = false) :
    ∃ s', applyTxInUndo o coin s = .ok s' ∧ s'.view.Coherent ∧ s'.fClean = s.fClean ∧
      s'.view.unspent = s.view.unspent.extend [(o, coin)] := by
  have hfetched := hview.fetchCoin o
  have hsame := unspent_fetchCoin s.view o
  have hnone' : (s.view.fetchCoin o).unspent o = none := by
    rw [hsame]
    exact hnone
  obtain ⟨view, hadd⟩ := addCoin_total hspent hnone' coin.fCoinBase
  have hclean : s.view.haveCoin o = false := by
    rw [haveCoin_eq, hnone]
    rfl
  refine ⟨⟨view, s.fClean⟩, ?_, hfetched.addCoin (fun _ => hnone') hadd, rfl, ?_⟩
  · simp only [applyTxInUndo, if_neg hheight, restoreCoin, hadd, hclean, Bool.not_false,
      Bool.and_true]
  · show view.unspent = _
    rw [unspent_addCoin hadd, hsame, CCoinsViewCache.binding, if_neg (by simp [hscript])]

/-- The loop over the inputs puts every coin back. -/
lemma restoreInputs_spec {entries : List (COutPoint × Coin)} (hview : s.view.Coherent)
    (hnone : ∀ e ∈ entries, s.view.unspent e.1 = none) (hnodup : (entries.map Prod.fst).Nodup)
    (hcoins : ∀ e ∈ entries, e.2.nHeight ≠ 0 ∧ e.2.out.scriptPubKey.isUnspendable = false ∧
      e.2.isSpent = false) :
    ∃ s', restoreInputs entries s = .ok s' ∧ s'.view.Coherent ∧ s'.fClean = s.fClean ∧
      s'.view.unspent = s.view.unspent.extend entries := by
  -- the loop reaches the first entry last
  induction entries with
  | nil => exact ⟨s, rfl, hview, rfl, extend_nil.symm⟩
  | cons entry entries ih =>
    rw [map_cons, nodup_cons] at hnodup
    obtain ⟨mid, hmid, hcoherent, hclean, hunspent⟩ :=
      ih (forall_mem_cons.mp hnone).2 hnodup.2
        (forall_mem_cons.mp hcoins).2
    have hnoneMid : mid.view.unspent entry.1 = none := by
      rw [hunspent, extend_of_notMem hnodup.1]
      exact hnone entry (.head _)
    obtain ⟨hheight, hscript, hspent⟩ := hcoins entry (.head _)
    obtain ⟨last, hlast, hcoherent', hclean', hunspent'⟩ :=
      applyTxInUndo_spec hcoherent hnoneMid hheight hscript hspent
    refine ⟨last, ?_, hcoherent', hclean'.trans hclean, ?_⟩
    · rw [restoreInputs, reverse_cons, foldlM_append, except_bind_ok_iff]
      refine ⟨mid, hmid, ?_⟩
      rw [foldlM_cons_ok_iff]
      exact ⟨last, hlast, rfl⟩
    · rw [hunspent', hunspent, ← extend_append, singleton_append]

end Inputs

/-! ## One transaction -/

section Transaction

variable {txid : Uint256} {tx : CTransaction} {undo : List Coin} {v : PartialMap COutPoint Coin}

/-- A spendable output of the transaction is there after it. -/
lemma output_of_effect (h : TxEffect txid tx nHeight undo u v) (hwf : WellFormed tx)
    {out : COutPoint × CTxOut} (hout : out ∈ outputs txid tx)
    (hscript : out.2.scriptPubKey.isUnspendable = false) :
    v out.1 = some (.ofOutput out.2 nHeight tx.isCoinBase) := by
  have hnew : (out.1, Coin.ofOutput out.2 nHeight tx.isCoinBase) ∈ newCoins txid tx nHeight :=
    mem_newCoins.mpr ⟨out, hout, hscript, rfl⟩
  rw [h.result]
  exact extend_of_nodup (nodup_newCoins hwf.size) hnew

/-- The coins that a transaction makes can be put back, from height 1 on. -/
lemma restorable_of_effect (h : TxEffect txid tx nHeight undo u v) (hwf : WellFormed tx)
    (hlow : 1 ≤ nHeight) (hhigh : nHeight < 2 ^ 31) (hu : Restorable u) : Restorable v := by
  intro o coin hcoin
  rw [h.result] at hcoin
  by_cases hnew : o ∈ (newCoins txid tx nHeight).map Prod.fst
  · obtain ⟨e, he, rfl⟩ := mem_map.mp hnew
    rw [extend_of_nodup (nodup_newCoins hwf.size) he] at hcoin
    cases hcoin
    obtain ⟨out, hout, hscript, rfl⟩ := mem_newCoins.mp he
    have hvalue : 0 ≤ out.2.nValue := by
      obtain ⟨p, hp, rfl⟩ := mem_map.mp hout
      exact hwf.nonneg p.1 (fst_mem_of_mem_zipIdx hp)
    refine ⟨?_, hscript, ?_⟩
    · show (nHeight % 2 ^ 31).toNat ≠ 0
      omega
    · show decide (out.2.nValue = -1) = false
      rw [decide_eq_false_iff_not]
      intro hneg
      rw [hneg] at hvalue
      exact absurd hvalue (by decide)
  · rw [extend_of_notMem hnew] at hcoin
    by_cases hspent : o ∈ inputs tx
    · rw [without_of_mem hspent] at hcoin
      cases hcoin
    · rw [without_of_notMem hspent] at hcoin
      exact hu o coin hcoin

/-- Disconnecting a transaction takes its effect back. -/
lemma disconnectTransaction_spec
    (h : TxEffect (env.crypto.getHash tx) tx nHeight undo u v) (hwf : WellFormed tx)
    (hfresh : ∀ out ∈ outputs (env.crypto.getHash tx) tx, u out.1 = none) (hu : Restorable u)
    {txundo : Option (List Coin)} (hundo : tx.spendsCoins = true → txundo = some undo)
    (hview : s.view.Coherent) (hsame : s.view.unspent = v) :
    ∃ s', disconnectTransaction env tx txundo s = .ok s' ∧ s'.view.Coherent ∧
      s'.fClean = s.fClean ∧ s'.view.unspent = u := by
  -- the outputs are spent
  obtain ⟨hunspent, hcoherent, hclean⟩ := disconnectOutputs_spec hview (nodup_outputs hwf.size)
    (fun out hout hscript => ⟨_, by rw [hsame]; exact output_of_effect h hwf hout hscript, rfl⟩)
  -- then the coins of the undo data are put back
  have hkeys : ((inputs tx).zip undo).map Prod.fst = inputs tx := by
    apply map_fst_zip
    rw [h.length_undo]
  have hrestored : (v.without ((spendableOutputs (env.crypto.getHash tx) tx).map Prod.fst)).extend
      ((inputs tx).zip undo) = u := by
    have hnewAbsent : ∀ e ∈ newCoins (env.crypto.getHash tx) tx nHeight, u e.1 = none := by
      intro e he
      obtain ⟨out, hout, -, rfl⟩ := mem_newCoins.mp he
      exact hfresh out hout
    have hback := extend_without_restore h.spent hnewAbsent
    rw [hkeys, ← h.result, keys_newCoins, without_reverse] at hback
    exact hback
  have hnone : ∀ e ∈ (inputs tx).zip undo,
      (disconnectOutputs (outputs (env.crypto.getHash tx) tx) s).view.unspent e.1 = none := by
    intro e he
    have hin : e.1 ∈ inputs tx := (of_mem_zip he).1
    have hnew : e.1 ∉ (newCoins (env.crypto.getHash tx) tx nHeight).map Prod.fst := by
      intro hbound
      obtain ⟨e', he', heq⟩ := mem_map.mp hbound
      obtain ⟨out, hout, -, rfl⟩ := mem_newCoins.mp he'
      have habsent := hfresh out hout
      rw [show out.1 = e.1 from heq, h.spent e he] at habsent
      cases habsent
    have hspendable : e.1 ∉ (spendableOutputs (env.crypto.getHash tx) tx).map Prod.fst := by
      rwa [keys_newCoins, mem_reverse] at hnew
    rw [hunspent, hsame]
    show v.without ((spendableOutputs (env.crypto.getHash tx) tx).map Prod.fst) e.1 = none
    rw [without_of_notMem hspendable, h.result, extend_of_notMem hnew, without_of_mem hin]
  obtain ⟨s', hok, hcoherent', hclean', hunspent'⟩ := restoreInputs_spec hcoherent hnone
    (hkeys.symm ▸ hwf.nodup) (fun e he => hu e.1 e.2 (h.spent e he))
  have hvalue : tx.getValueOut.isNone = false := by
    rw [Option.isNone_eq_false_iff]
    exact hwf.inRange
  refine ⟨s', ?_, hcoherent', hclean'.trans hclean, ?_⟩
  · unfold disconnectTransaction
    rw [except_bind_ok_iff]
    refine ⟨s', ?_, by rw [hvalue, Bool.and_false, if_neg (by decide)]⟩
    unfold restoreTransaction
    cases hspends : tx.spendsCoins with
    | true =>
      have hins : inputs tx = tx.vin.map prevout := by
        rw [inputs, if_pos hspends]
      have hlength : undo.length = tx.vin.length := by
        rw [h.length_undo, hins, length_map]
      rw [if_pos rfl, hundo hspends]
      simp only [hlength, ne_eq, not_true_eq_false, if_false]
      rw [← hins]
      exact hok
    | false =>
      have hins : inputs tx = [] := by
        rw [inputs, hspends]
        rfl
      rw [hins] at hok
      rw [if_neg (by decide)]
      exact hok
  · rw [hunspent', hunspent, hsame]
    exact hrestored

end Transaction

/-! ## The block -/

section Block

variable {vtx : List CTransaction} {undos : List (List Coin)} {w : PartialMap COutPoint Coin}

section
variable (h : Effects env.crypto.getHash nHeight vtx undos u w)
include h

/-- The loop undoes the transactions, the last one first. The undo data may lack the lists of
    transactions that spend no coins. -/
lemma Effects.disconnect (hwf : ∀ tx ∈ vtx, WellFormed tx) (hlow : 1 ≤ nHeight)
    (hhigh : nHeight < 2 ^ 31) (hu : Restorable u) {txundos : List (Option (List Coin))}
    (hundos : List.Forall₂ (fun entry txundo =>
      entry.1.spendsCoins = true → txundo = some entry.2) (vtx.zip undos) txundos)
    (hview : s.view.Coherent) (hsame : s.view.unspent = w) :
    ∃ s', disconnectTransactions env (vtx.zip txundos) s = .ok s' ∧ s'.view.Coherent ∧
      s'.fClean = s.fClean ∧ s'.view.unspent = u := by
  induction h generalizing txundos with
  | nil u => exact ⟨s, rfl, hview, rfl, hsame⟩
  | @cons tx vtx undo undos u v w effect fresh rest ih =>
    rw [zip_cons_cons] at hundos
    cases hundos with
    | @cons _ txundo _ txundos hfirst hrest =>
      have hwfFirst := hwf tx (.head _)
      obtain ⟨mid, hmid, hcoherent, hclean, hunspent⟩ :=
        ih (forall_mem_cons.mp hwf).2
          (restorable_of_effect effect hwfFirst hlow hhigh hu) hrest hsame
      obtain ⟨last, hlast, hcoherent', hclean', hunspent'⟩ :=
        disconnectTransaction_spec effect hwfFirst fresh hu hfirst hcoherent hunspent
      refine ⟨last, ?_, hcoherent', hclean'.trans hclean, hunspent'⟩
      rw [zip_cons_cons, disconnectTransactions, reverse_cons, foldlM_append, except_bind_ok_iff]
      refine ⟨mid, hmid, ?_⟩
      rw [foldlM_cons_ok_iff]
      exact ⟨last, hlast, rfl⟩

lemma Effects.length_undos : undos.length = vtx.length := by
  induction h with
  | nil _ => rfl
  | cons _ _ _ ih => exact congrArg Nat.succ ih

end

lemma forall₂_zip_some (hlength : undos.length = vtx.length) :
    List.Forall₂ (fun (entry : CTransaction × List Coin) txundo =>
      entry.1.spendsCoins = true → txundo = some entry.2) (vtx.zip undos) (undos.map some) := by
  induction vtx generalizing undos with
  | nil =>
    rw [length_eq_zero_iff.mp hlength]
    exact .nil
  | cons tx vtx ih =>
    cases undos with
    | nil => cases hlength
    | cons undo undos => exact .cons (fun _ => rfl) (ih (Nat.succ.inj hlength))

/-- What `DisconnectBlock` asks the rest of the node is answered as for the tip. -/
structure DisconnectContext.IsTip (ctx : DisconnectContext) : Prop where
  isBestBlock : ctx.isBestBlock = true
  fHasBestBlock : ctx.fHasBestBlock = true
  undoAvailable : ctx.undoAvailable = true
  undoSpecialTxsInBlock : ctx.undoSpecialTxsInBlock = true
  indexesWritten : ctx.indexesWritten = true

variable {ctx : ConnectContext} {dctx : DisconnectContext} {pindex : BlockId} {block : CBlock env}
  {chain : ChainState} {c : Connected}

/-- Disconnecting undoes connecting, for a block of height 1 or more on a view whose coins have a
    height and a spendable script. -/
theorem disconnect_undoes_connect (hlow : 1 ≤ pindex.nHeight) (hhigh : pindex.nHeight < 2 ^ 31)
    (hgenesis : block.hash ≠ ctx.hashGenesisBlock)
    (hcoins : ∀ o coin, chain.view.unspent o = some coin →
      coin.nHeight ≠ 0 ∧ coin.out.scriptPubKey.isUnspendable = false)
    (h : connectBlock env ctx false pindex block chain = .ok c) (hdctx : dctx.IsTip) :
    ∃ view, disconnectBlock env dctx pindex block c.vtxundo c.view =
        .ok (.DISCONNECT_OK, some view) ∧
      view.unspent = chain.view.unspent := by
  have haccepted := accepted_of_connectBlock hgenesis h
  obtain ⟨undo, heffects, hcoherent⟩ := haccepted.effects (by omega)
  have hrestorable : Restorable chain.view.unspent := by
    intro o coin hcoin
    obtain ⟨hheight, hscript⟩ := hcoins o coin hcoin
    exact ⟨hheight, hscript, (unspent_eq_some_iff.mp hcoin).2⟩
  have hlength := heffects.length_undos
  -- only the coinbase, which spends no coins, has no undo data
  have hundos : List.Forall₂ (fun (entry : CTransaction × List Coin) txundo =>
      entry.1.spendsCoins = true → txundo = some entry.2)
      (block.vtx.zip (undo :: c.vtxundo)) (none :: c.vtxundo.map some) := by
    obtain ⟨coinbase, rest, _, _, _, _, hrun⟩ := haccepted.run
    rw [hrun.vtx] at hlength ⊢
    have hno : coinbase.spendsCoins = false := by
      rw [CTransaction.spendsCoins, (haccepted.passed.coinbase hrun.vtx).1]
      rfl
    have hrest := forall₂_zip_some (Nat.succ.inj hlength)
    refine .cons (fun hspends => ?_) hrest
    rw [hno] at hspends
    cases hspends
  obtain ⟨s', hok, -, hclean, hunspent⟩ := heffects.disconnect (s := ⟨c.view, true⟩)
    haccepted.passed.wellFormed hlow hhigh hrestorable hundos hcoherent rfl
  refine ⟨s'.view, ?_, hunspent⟩
  rw [length_cons] at hlength
  simp only [disconnectBlock, hdctx.isBestBlock, hdctx.fHasBestBlock, hdctx.undoAvailable,
    hdctx.undoSpecialTxsInBlock, hdctx.indexesWritten, hlength, hok, hclean, Bool.not_true,
    Bool.and_false, Bool.false_eq_true, if_false, if_true, ne_eq, not_true_eq_false]

end Block

namespace Sample

/-- The node agrees to disconnect the tip. -/
def agreeing : DisconnectContext := ⟨true, true, true, true, true⟩

lemma unspent_oneCoin {nHeight : Nat} {coin : Coin}
    (h : (oneCoin nHeight).view.unspent o = some coin) :
    o = ⟨9, 0⟩ ∧ coin = ⟨⟨3 * COIN, [0x51]⟩, false, nHeight⟩ := by
  obtain ⟨haccess, hspent⟩ := unspent_eq_some_iff.mp h
  rw [accessCoin_of_not_cached rfl] at haccess
  by_cases ho : o = ⟨9, 0⟩
  · subst ho
    exact ⟨rfl, haccess.symm⟩
  · have hbase : (oneCoin nHeight).view.base o = none := if_neg ho
    rw [hbase] at haccess
    rw [← haccess] at hspent
    cases hspent

end Sample

open Validation.Sample in
theorem disconnect_undoes_connect_payments :
    ∃ c view, connectBlock regtestEnv permissive false ⟨7, 2⟩ paymentBlock (oneCoin 1) = .ok c ∧
      disconnectBlock regtestEnv agreeing ⟨7, 2⟩ paymentBlock c.vtxundo c.view =
        .ok (.DISCONNECT_OK, some view) ∧
      view.unspent = (oneCoin 1).view.unspent := by
  obtain ⟨c, hc⟩ : ∃ c,
      connectBlock regtestEnv permissive false ⟨7, 2⟩ paymentBlock (oneCoin 1) = .ok c := ⟨_, rfl⟩
  have hcoins : ∀ o coin, (oneCoin 1).view.unspent o = some coin →
      coin.nHeight ≠ 0 ∧ coin.out.scriptPubKey.isUnspendable = false := by
    intro o coin hcoin
    obtain ⟨-, rfl⟩ := unspent_oneCoin hcoin
    decide
  have htip : agreeing.IsTip := ⟨rfl, rfl, rfl, rfl, rfl⟩
  obtain ⟨view, hok, hview⟩ := disconnect_undoes_connect (by decide) (by decide) (by decide) hcoins
    hc htip
  exact ⟨c, view, hc, hok, hview⟩

/-! ## Coins of height 0 -/

/-- Without another output of the transaction, a coin of height 0 is not put back. -/
lemma accessByTxid_of_none {txid : Uint256} {n remaining : Nat}
    (h : ∀ m, view.unspent ⟨txid, m⟩ = none) :
    (accessByTxid txid n remaining view).1.isSpent = true := by
  induction remaining generalizing n view with
  | zero => rfl
  | succ remaining ih =>
    have hfetched : ∀ m, (view.fetchCoin ⟨txid, UInt32.ofNat n⟩).unspent ⟨txid, m⟩ = none := by
      rw [unspent_fetchCoin]
      exact h
    have hspent := unspent_eq_none_iff.mp (hfetched (UInt32.ofNat n))
    rw [accessByTxid]
    simp only [hspent, Bool.not_true, Bool.false_eq_true, if_false]
    exact ih hfetched

lemma applyTxInUndo_failed (hheight : undo.nHeight = 0)
    (h : ∀ m, s.view.unspent ⟨o.hash, m⟩ = none) : applyTxInUndo o undo s = .error .failed := by
  have hnone : ∀ m, (s.view.fetchCoin o).unspent ⟨o.hash, m⟩ = none := by
    rw [unspent_fetchCoin]
    exact h
  simp only [applyTxInUndo, if_pos hheight, accessByTxid_of_none hnone, Bool.not_true,
    Bool.false_eq_true, if_false]

/-- A transaction with one input, a coin of height 0, is not undone. -/
lemma disconnectTransaction_of_failed (env : TxEnv) {tx : CTransaction}
    (hspends : tx.spendsCoins = true) (hvin : tx.vin.map prevout = [o]) (hheight : undo.nHeight = 0)
    (h : ∀ m, (disconnectOutputs (outputs (env.crypto.getHash tx) tx) s).view.unspent
      ⟨o.hash, m⟩ = none) : disconnectTransaction env tx (some [undo]) s = .error .failed := by
  have hlength : [undo].length = tx.vin.length := by
    rw [← length_map prevout, hvin]
    rfl
  have hinputs : restoreInputs ((tx.vin.map prevout).zip [undo])
      (disconnectOutputs (outputs (env.crypto.getHash tx) tx) s) = .error .failed := by
    rw [hvin, restoreInputs, zip_cons_cons, zip_nil_left, reverse_singleton,
      foldlM_cons, applyTxInUndo_failed hheight h]
    rfl
  have hrestore : restoreTransaction tx (some [undo])
      (disconnectOutputs (outputs (env.crypto.getHash tx) tx) s) = .error .failed := by
    rw [restoreTransaction, if_pos hspends]
    simp only [hlength, ne_eq, not_true_eq_false, if_false]
    exact hinputs
  rw [disconnectTransaction, hrestore]
  rfl

lemma disconnectBlock_of_failed {env : TxEnv} {ctx : DisconnectContext} {pindex : BlockId}
    {block : CBlock env} {vtxundo : List (List Coin)} (hbest : ctx.isBestBlock = true)
    (h : disconnectTransactions env (block.vtx.zip (none :: vtxundo.map some)) ⟨view, true⟩ =
      .error .failed) :
    disconnectBlock env ctx pindex block vtxundo view = .ok (.DISCONNECT_FAILED, none) := by
  unfold disconnectBlock
  rw [hbest, h, Bool.not_true, if_neg (by decide)]
  split_ifs <;> rfl

namespace Sample

open Tecracoin.Sigma.Sample

def rewardTx : CTransaction := tx 1 [⟨⟨0, 0xffffffff⟩, [0x52, 0x00], 0⟩] [⟨COIN, [0x51]⟩]

def paymentTx : CTransaction := tx 2 [⟨⟨9, 0⟩, [], 0⟩] [⟨2 * COIN, [0x51]⟩]

/-- A coinbase and a payment from the coin `⟨9, 0⟩`. -/
def spendBlock : CBlock regtestEnv where
  hash := 7
  vtx := [rewardTx, paymentTx]
  fChecked := false
  passed := fun h => (nomatch h)

/-- After the payment no output of the transaction with id 9 is unspent. -/
lemma unspent_after_spendBlock {c : Connected}
    (h : connectBlock regtestEnv permissive false ⟨7, 2⟩ spendBlock (oneCoin 0) = .ok c) :
    c.view.Coherent ∧ ∀ m, c.view.unspent ⟨9, m⟩ = none := by
  obtain ⟨undo, heffects, hcoherent⟩ :=
    (accepted_of_connectBlock (by decide) h).effects (by decide)
  refine ⟨hcoherent, fun m => ?_⟩
  have hother : ∀ tx ∈ spendBlock.vtx, regtestEnv.crypto.getHash tx ≠ 9 := by decide
  rw [heffects.of_other hother]
  by_cases hm : m = 0
  · subst hm
    exact without_of_mem (by decide)
  · have hnotin : (⟨9, m⟩ : COutPoint) ∉ spendBlock.vtx.flatMap inputs := by
      intro hmem
      have hone : spendBlock.vtx.flatMap inputs = [⟨9, 0⟩] := by decide
      rw [hone, mem_singleton] at hmem
      exact hm (congrArg COutPoint.n hmem)
    rw [without_of_notMem hnotin]
    refine Option.eq_none_iff_forall_ne_some.mpr (fun coin hcoin => ?_)
    exact absurd (congrArg COutPoint.n (unspent_oneCoin hcoin).1) hm

end Sample

open Validation.Sample in
/-- A coin of height 0 that a block spends cannot be put back, and the block cannot be disconnected.
    -/
lemma disconnect_height_zero_coin {c : Connected}
    (hc : connectBlock regtestEnv permissive false ⟨7, 2⟩ spendBlock (oneCoin 0) = .ok c)
    (hundo : c.vtxundo = [[⟨⟨3 * COIN, [0x51]⟩, false, 0⟩]]) :
    disconnectBlock regtestEnv agreeing ⟨7, 2⟩ spendBlock c.vtxundo c.view =
      .ok (.DISCONNECT_FAILED, none) := by
  rw [hundo]
  obtain ⟨hcoherent, hnone⟩ := unspent_after_spendBlock hc
  -- the output of the payment is spent first
  have houtput : ∀ m, (c.view.spendCoin ⟨2, 0⟩).2.unspent ⟨9, m⟩ = none := by
    intro m
    rw [(spendCoin_spec hcoherent).1]
    exact without_eq_none (hnone m)
  have hlast := disconnectTransaction_of_failed regtestEnv (s := ⟨c.view, true⟩)
    (show paymentTx.spendsCoins = true by decide)
    (show paymentTx.vin.map prevout = [⟨9, 0⟩] from rfl)
    (show (⟨⟨3 * COIN, [0x51]⟩, false, 0⟩ : Coin).nHeight = 0 from rfl) houtput
  apply disconnectBlock_of_failed rfl
  rw [disconnectTransactions]
  show (disconnectTransaction regtestEnv paymentTx (some [⟨⟨3 * COIN, [0x51]⟩, false, 0⟩])
    ⟨c.view, true⟩ >>= _) = _
  rw [hlast]
  rfl

open Validation.Sample in
/-- Two coins that a block spends and that are not put back: one of height 0, with which
    disconnecting fails, and one with an unspendable script, which `AddCoin` drops. -/
theorem unrestorable_coins :
    (∃ c, connectBlock regtestEnv permissive false ⟨7, 2⟩ spendBlock (oneCoin 0) = .ok c ∧
      disconnectBlock regtestEnv agreeing ⟨7, 2⟩ spendBlock c.vtxundo c.view =
        .ok (.DISCONNECT_FAILED, none)) ∧
    ∃ c view, connectBlock regtestEnv permissive false ⟨7, 2⟩ spendBlock (oneCoin 1 [OP_RETURN]) =
        .ok c ∧
      disconnectBlock regtestEnv agreeing ⟨7, 2⟩ spendBlock c.vtxundo c.view =
        .ok (.DISCONNECT_OK, some view) ∧
      (oneCoin 1 [OP_RETURN]).view.unspent ⟨9, 0⟩ ≠ none ∧ view.unspent ⟨9, 0⟩ = none :=
  ⟨⟨_, rfl, disconnect_height_zero_coin rfl rfl⟩, _, _, rfl, rfl, by decide, by decide⟩

end Tecracoin.Validation
