/-
  What one transaction does to the unspent coins: `AddCoins` of `coins.cpp`,
  `UpdateCoins` of `validation.cpp`, and the questions `HaveInputs` and
  `GetValueIn` that a transaction asks of a view.

  `TxEffect` says it on the unspent coins alone: the inputs are taken out, each
  with the coin that goes into the undo data, and the spendable outputs are put
  in.  `updateCoins_effect` is the step from the cache to that.
-/
import Tecracoin.Coins.View

namespace Tecracoin

open List

/-- `!IsCoinBase() && !IsZerocoinSpend() && !IsSigmaSpend() && !IsZerocoinRemint()`: the inputs are
    outpoints of the UTXO set. -/
def CTransaction.spendsCoins (tx : CTransaction) : Bool := !tx.isCoinBase && !tx.isPrivacySpend

namespace Coins

open Data PartialMap UInt32

/-- The outpoints of a transaction with the outputs they name. -/
def outputs (txid : Uint256) (tx : CTransaction) : List (COutPoint × CTxOut) :=
  tx.vout.zipIdx.map (fun p => (⟨txid, ofNat p.2⟩, p.1))

/-- The outpoints a transaction takes out of the UTXO set. -/
def inputs (tx : CTransaction) : List COutPoint :=
  if tx.spendsCoins then tx.vin.map CTxIn.prevout else []

namespace CCoinsViewCache

def haveInputs (view : CCoinsViewCache) (tx : CTransaction) : Bool :=
  !tx.spendsCoins || tx.vin.all (fun txin => view.haveCoin txin.prevout)

def getValueIn (view : CCoinsViewCache) (tx : CTransaction) : CAmount :=
  if !tx.spendsCoins then 0
  else tx.vin.foldl
    (fun nResult txin => wrap64 (nResult + (view.accessCoin txin.prevout).out.nValue)) 0

/-- `AddCoins`; a coinbase may overwrite. -/
def addCoins (txid : Uint256) (tx : CTransaction) (nHeight : Int) (view : CCoinsViewCache) :
    Except Failure CCoinsViewCache :=
  (outputs txid tx).foldlM
    (fun view out =>
      view.addCoin out.1 (.ofOutput out.2 nHeight tx.isCoinBase) tx.isCoinBase) view

/-- The loop of `UpdateCoins` over the inputs, with the coins it moves out. -/
def spendCoins : List COutPoint → CCoinsViewCache → List Coin × CCoinsViewCache
  | [], view => ([], view)
  | prevout :: prevouts, view =>
    let spent := view.spendCoin prevout
    let rest := spendCoins prevouts spent.2
    (spent.1 :: rest.1, rest.2)

/-- `UpdateCoins`, with `txundo.vprevout`. -/
def updateCoins (txid : Uint256) (tx : CTransaction) (nHeight : Int) (view : CCoinsViewCache) :
    Except Failure (List Coin × CCoinsViewCache) :=
  let spent := spendCoins (inputs tx) view
  (spent.2.addCoins txid tx nHeight).map (fun view => (spent.1, view))

end CCoinsViewCache

/-! ## On the unspent coins -/

/-- The bindings the outputs of a transaction make, the last output first. -/
def newCoins (txid : Uint256) (tx : CTransaction) (nHeight : Int) : List (COutPoint × Coin) :=
  (outputs txid tx).reverse.flatMap
    (fun out => CCoinsViewCache.binding out.1 (.ofOutput out.2 nHeight tx.isCoinBase))

/-- One transaction on the unspent coins, with the coins it spends. -/
structure TxEffect (txid : Uint256) (tx : CTransaction) (nHeight : Int) (undo : List Coin)
    (u u' : PartialMap COutPoint Coin) : Prop where
  length_undo : undo.length = (inputs tx).length
  spent : ∀ e ∈ (inputs tx).zip undo, u e.1 = some e.2
  result : u' = (u.without (inputs tx)).extend (newCoins txid tx nHeight)

variable {txid : Uint256} {tx : CTransaction} {nHeight : Int} {e : COutPoint × Coin}

lemma hash_of_mem_outputs {out : COutPoint × CTxOut} (h : out ∈ outputs txid tx) :
    out.1.hash = txid := by
  obtain ⟨p, -, rfl⟩ := mem_map.mp h
  rfl

/-- Indexes below `2 ^ 32` name different outputs. -/
lemma nodup_outputs (hlength : tx.vout.length < 2 ^ 32) :
    ((outputs txid tx).map Prod.fst).Nodup := by
  have hkeys : (outputs txid tx).map Prod.fst =
      (tx.vout.zipIdx.map Prod.snd).map (fun i => (⟨txid, ofNat i⟩ : COutPoint)) := by
    rw [outputs, map_map, map_map]
    rfl
  rw [hkeys, zipIdx_map_snd]
  apply List.Nodup.map_on _ nodup_range'
  intro i hi j hj heq
  rw [mem_range'_1] at hi hj
  have hlt : ∀ k, k < 0 + tx.vout.length → k < size := by
    intro k hk
    show k < 4294967296
    omega
  have hval := congrArg toNat (congrArg COutPoint.n heq)
  rw [toNat_ofNat_of_lt' (hlt i hi.2), toNat_ofNat_of_lt' (hlt j hj.2)] at hval
  exact hval

/-- The spendable outputs of a transaction, whose loop order `DisconnectBlock` shares. -/
def spendableOutputs (txid : Uint256) (tx : CTransaction) : List (COutPoint × CTxOut) :=
  (outputs txid tx).filter (fun out => !out.2.scriptPubKey.isUnspendable)

lemma newCoins_eq :
    newCoins txid tx nHeight = (spendableOutputs txid tx).reverse.map
      (fun out => (out.1, .ofOutput out.2 nHeight tx.isCoinBase)) := by
  rw [newCoins, spendableOutputs, ← filter_reverse]
  -- output by output, a binding is kept exactly when the output is
  induction (outputs txid tx).reverse with
  | nil => rfl
  | cons out outs ih =>
    rw [flatMap_cons, ih, CCoinsViewCache.binding]
    cases hscript : out.2.scriptPubKey.isUnspendable <;> simp [hscript, Coin.ofOutput]

lemma mem_newCoins :
    e ∈ newCoins txid tx nHeight ↔ ∃ out ∈ outputs txid tx,
      out.2.scriptPubKey.isUnspendable = false ∧
        e = (out.1, .ofOutput out.2 nHeight tx.isCoinBase) := by
  simp only [newCoins_eq, spendableOutputs, mem_map, mem_reverse, mem_filter,
    Bool.not_eq_true', and_assoc, eq_comm (a := e)]

lemma keys_newCoins :
    (newCoins txid tx nHeight).map Prod.fst =
      ((spendableOutputs txid tx).map Prod.fst).reverse := by
  rw [newCoins_eq, map_map, ← map_reverse]
  rfl

lemma nodup_newCoins (hlength : tx.vout.length < 2 ^ 32) :
    ((newCoins txid tx nHeight).map Prod.fst).Nodup := by
  rw [keys_newCoins, nodup_reverse]
  exact (nodup_outputs hlength).sublist (List.Sublist.map _ filter_sublist)

/-- The new coins carry the id of the transaction. -/
lemma notMem_newCoins {o : COutPoint} (h : o.hash ≠ txid) :
    o ∉ (newCoins txid tx nHeight).map Prod.fst := by
  intro hbound
  obtain ⟨e, he, rfl⟩ := mem_map.mp hbound
  obtain ⟨out, hout, -, rfl⟩ := mem_newCoins.mp he
  exact h (hash_of_mem_outputs hout)

/-! ## From the cache to the unspent coins -/

namespace CCoinsViewCache

variable {view view' : CCoinsViewCache}

section
variable (hview : Coherent view) {prevouts : List COutPoint}
include hview

/-- Every output that can be spent becomes a coin. -/
lemma addCoins_spec {outs : List (COutPoint × CTxOut)} {coinbase : Bool}
    (hnew : coinbase = false → ∀ out ∈ outs, view.unspent out.1 = none)
    (hnodup : (outs.map Prod.fst).Nodup) (h : outs.foldlM (fun view out =>
      view.addCoin out.1 (.ofOutput out.2 nHeight coinbase) coinbase) view = .ok view') :
    view'.unspent = view.unspent.extend
      (outs.reverse.flatMap (fun out => binding out.1 (.ofOutput out.2 nHeight coinbase))) ∧
      Coherent view' := by
  -- induction on the outputs: the ones still to come stay unbound
  induction outs generalizing view with
  | nil =>
    cases h
    exact ⟨extend_nil.symm, hview⟩
  | cons out outs ih =>
    obtain ⟨mid, hadd, hrest⟩ := foldlM_cons_ok_iff.mp h
    have hunspent := unspent_addCoin hadd
    have hmid : Coherent mid := hview.addCoin (fun hcb => hnew hcb out (.head _)) hadd
    rw [map_cons, nodup_cons] at hnodup
    have hnewMid : coinbase = false → ∀ out' ∈ outs, mid.unspent out'.1 = none := by
      intro hcb out' hout'
      have hne : out'.1 ≠ out.1 := fun he => hnodup.1 (he ▸ mem_map_of_mem hout')
      rw [hunspent, extend_of_notMem]
      · exact hnew hcb out' (.tail _ hout')
      · intro hmem
        unfold binding at hmem
        split_ifs at hmem
        · cases hmem
        · exact hne (mem_singleton.mp hmem)
    obtain ⟨hresult, hcoherent⟩ := ih hmid hnewMid hnodup.2 hrest
    refine ⟨?_, hcoherent⟩
    rw [hresult, hunspent, ← extend_append, reverse_cons, flatMap_append, flatMap_singleton]

lemma spendCoins_spec :
    (spendCoins prevouts view).2.unspent = view.unspent.without prevouts ∧
      Coherent (spendCoins prevouts view).2 ∧
      (spendCoins prevouts view).1.length = prevouts.length := by
  induction prevouts generalizing view with
  | nil => exact ⟨without_nil.symm, hview, rfl⟩
  | cons prevout prevouts ih =>
    obtain ⟨hspent, hmid⟩ := spendCoin_spec hview
    obtain ⟨hrest, hcoherent, hlength⟩ := ih hmid
    refine ⟨?_, hcoherent, congrArg Nat.succ hlength⟩
    show (spendCoins prevouts (view.spendCoin prevout).2).2.unspent = _
    rw [hrest, hspent, ← without_append, singleton_append]

/-- The coins moved out are the ones the view had. -/
lemma spendCoins_moved (hnodup : prevouts.Nodup)
    (hhave : ∀ prevout ∈ prevouts, view.unspent prevout ≠ none) :
    ∀ e ∈ prevouts.zip (spendCoins prevouts view).1, view.unspent e.1 = some e.2 := by
  induction prevouts generalizing view with
  | nil => exact fun e he => (nomatch he)
  | cons prevout prevouts ih =>
    obtain ⟨hspent, hmid⟩ := spendCoin_spec hview
    rw [nodup_cons] at hnodup
    -- the later inputs are other outpoints
    have hsame : ∀ o ∈ prevouts, (view.spendCoin prevout).2.unspent o = view.unspent o := by
      intro o ho
      have hne : o ≠ prevout := fun he => hnodup.1 (he ▸ ho)
      rw [hspent, without_of_notMem (by simpa using hne)]
    intro e he
    rcases mem_cons.mp he with rfl | he
    · obtain ⟨coin, hcoin⟩ := Option.ne_none_iff_exists'.mp (hhave prevout (.head _))
      show view.unspent prevout = some (view.spendCoin prevout).1
      rw [spendCoin_unspent hcoin, hcoin]
    · have hmem : e.1 ∈ prevouts := (of_mem_zip he).1
      rw [← hsame e.1 hmem]
      apply ih hmid hnodup.2 _ e he
      intro o ho
      rw [hsame o ho]
      exact hhave o (.tail _ ho)

/-- `UpdateCoins` has the effect of the transaction on the unspent coins, if its inputs are there
    and its outputs are not. -/
lemma updateCoins_effect (hlength : tx.vout.length < 2 ^ 32) (hnodup : (inputs tx).Nodup)
    (hhave : ∀ prevout ∈ inputs tx, view.unspent prevout ≠ none)
    (hnew : ∀ out ∈ outputs txid tx, view.unspent out.1 = none) {undo : List Coin}
    (h : view.updateCoins txid tx nHeight = .ok (undo, view')) :
    TxEffect txid tx nHeight undo view.unspent view'.unspent ∧ Coherent view' := by
  obtain ⟨added, hadded, heq⟩ := except_map_ok_iff.mp h
  obtain ⟨rfl, rfl⟩ := Prod.mk.inj heq
  obtain ⟨hspent, hmid, hundo⟩ := spendCoins_spec hview
  have hnewMid : tx.isCoinBase = false →
      ∀ out ∈ outputs txid tx, (spendCoins (inputs tx) view).2.unspent out.1 = none := by
    intro _ out hout
    rw [hspent]
    exact without_eq_none (hnew out hout)
  obtain ⟨hresult, hcoherent⟩ := addCoins_spec hmid hnewMid (nodup_outputs hlength) hadded
  refine ⟨⟨hundo, spendCoins_moved hview hnodup hhave, ?_⟩, hcoherent⟩
  rw [hresult, hspent]
  rfl

end

end CCoinsViewCache

end Coins
end Tecracoin
