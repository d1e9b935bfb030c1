/-
  `DisconnectBlock` and `ApplyTxInUndo` of `validation.cpp`: the transactions of
  a block are undone from the last one to the first, each by spending its
  outputs and putting the coins of its undo data back.

  A coin of height 0 stands for undo data of an older version without height;
  `ApplyTxInUndo` then looks for another output of the same transaction.  The
  undo file, the index databases and the masternode state are only asked
  (`DisconnectContext`).  Where `DISCONNECT_FAILED` is returned the source leaves
  the view in an indeterminate state, and the model returns none.
-/
import Tecracoin.Validation.ConnectBlock

namespace Tecracoin.Validation

open Data Tecracoin.Sigma Coins

inductive DisconnectResult
  | DISCONNECT_OK
  | DISCONNECT_UNCLEAN
  | DISCONNECT_FAILED
deriving DecidableEq

/-- The answers of the rest of the node during one call of `DisconnectBlock`. -/
structure DisconnectContext where
  /-- `pindex->GetBlockHash() == view.GetBestBlock()`. -/
  isBestBlock : Bool
  /-- `evoDb->VerifyBestBlock(pindex)`. -/
  fHasBestBlock : Bool
  /-- The undo data has a position and can be read. -/
  undoAvailable : Bool
  undoSpecialTxsInBlock : Bool
  /-- The address index, if there is one, could be written. -/
  indexesWritten : Bool

/-- Why the loop ends early. -/
inductive DisconnectStop
  /-- `return DISCONNECT_FAILED`. -/
  | failed
  | failure (failure : Failure)

/-- `MAX_BLOCK_BASE_SIZE / GetSerializeSize(CTxOut())`. -/
def MAX_OUTPUTS_PER_BLOCK : Nat := MAX_BLOCK_BASE_SIZE / 9

/-- The loop of `AccessByTxid`, with the outputs still to look at; what it looks at is in the cache
    afterwards. -/
def accessByTxid (txid : Uint256) (n : Nat) : Nat → CCoinsViewCache → Coin × CCoinsViewCache
  | 0, view => (.empty, view)
  | remaining + 1, view =>
    let iter : COutPoint := ⟨txid, UInt32.ofNat n⟩
    let fetched := view.fetchCoin iter
    if !(fetched.accessCoin iter).isSpent then (fetched.accessCoin iter, fetched)
    else accessByTxid txid (n + 1) remaining fetched

/-- The view and `fClean`. -/
structure DisconnectState where
  view : CCoinsViewCache
  fClean : Bool

/-- `view.AddCoin(out, std::move(undo), undo.fCoinBase)`. -/
def restoreCoin (out : COutPoint) (undo : Coin) (s : DisconnectState) :
    Except DisconnectStop DisconnectState :=
  match s.view.addCoin out undo undo.fCoinBase with
  | .error e => .error (.failure e)
  | .ok view => .ok { s with view := view }

def applyTxInUndo (out : COutPoint) (undo : Coin) (s : DisconnectState) :
    Except DisconnectStop DisconnectState :=
  let fClean := s.fClean && !s.view.haveCoin out
  let view := s.view.fetchCoin out
  if undo.nHeight = 0 then
    let found := accessByTxid out.hash 0 MAX_OUTPUTS_PER_BLOCK view
    if !found.1.isSpent then
      restoreCoin out { undo with nHeight := found.1.nHeight, fCoinBase := found.1.fCoinBase }
        ⟨found.2, fClean⟩
    else .error .failed
  else restoreCoin out undo ⟨view, fClean⟩

/-- The loop over the outputs: each one must be there and match. -/
def disconnectOutputs (outs : List (COutPoint × CTxOut)) (s : DisconnectState) : DisconnectState :=
  outs.foldl
    (fun s out =>
      if out.2.scriptPubKey.isUnspendable then s
      else
        let spent := s.view.spendCoin out.1
        ⟨spent.2, s.fClean && decide (out.2 = spent.1.out)⟩) s

/-- The inputs, from the last one to the first. -/
def restoreInputs (entries : List (COutPoint × Coin)) (s : DisconnectState) :
    Except DisconnectStop DisconnectState :=
  entries.reverse.foldlM (fun s entry => applyTxInUndo entry.1 entry.2 s) s

/-- The part of the loop body that restores the inputs. `txundo` is `vtxundo[i-1]`, which the first
    transaction does not have. -/
def restoreTransaction (tx : CTransaction) (txundo : Option (List Coin)) (s : DisconnectState) :
    Except DisconnectStop DisconnectState :=
  if tx.spendsCoins then
    match txundo with
    | none => .error (.failure .nullDereference)
    | some vprevout =>
      if vprevout.length ≠ tx.vin.length then .error .failed
      else restoreInputs ((tx.vin.map CTxIn.prevout).zip vprevout) s
  else .ok s

section DisconnectBlock

variable (env : TxEnv) (ctx : DisconnectContext)

/-- The body of the loop. -/
def disconnectTransaction (tx : CTransaction) (txundo : Option (List Coin)) (s : DisconnectState) :
    Except DisconnectStop DisconnectState := do
  let restored ← restoreTransaction tx txundo
    (disconnectOutputs (outputs (env.crypto.getHash tx) tx) s)
  -- the fee of a sigma spend is summed up for the address index
  if tx.isSigmaSpend && tx.getValueOut.isNone then .error (.failure valueOutOfRange)
  else .ok restored

/-- The loop, from the last transaction to the first. -/
def disconnectTransactions (entries : List (CTransaction × Option (List Coin)))
    (s : DisconnectState) : Except DisconnectStop DisconnectState :=
  entries.reverse.foldlM (fun s entry => disconnectTransaction env entry.1 entry.2 s) s

/-- `DisconnectBlock`, with the view if it is not left indeterminate. -/
def disconnectBlock (pindex : BlockId) (block : CBlock env) (vtxundo : List (List Coin))
    (view : CCoinsViewCache) : Except Failure (DisconnectResult × Option CCoinsViewCache) :=
  if !ctx.isBestBlock then .error (.asserts "pindex->GetBlockHash() == view.GetBestBlock()")
  else if decide (env.params.DIP0003Height ≤ pindex.nHeight) && !ctx.fHasBestBlock then
    .ok (.DISCONNECT_FAILED, none)
  else if !ctx.undoAvailable then .ok (.DISCONNECT_FAILED, none)
  else if vtxundo.length + 1 ≠ block.vtx.length then .ok (.DISCONNECT_FAILED, none)
  else if !ctx.undoSpecialTxsInBlock then .ok (.DISCONNECT_FAILED, none)
  else
    match disconnectTransactions env (block.vtx.zip (none :: vtxundo.map some)) ⟨view, true⟩ with
    | .error .failed => .ok (.DISCONNECT_FAILED, none)
    | .error (.failure e) => .error e
    | .ok s =>
      if !ctx.indexesWritten then .ok (.DISCONNECT_FAILED, none)
      else .ok (if s.fClean then .DISCONNECT_OK else .DISCONNECT_UNCLEAN, some s.view)

end DisconnectBlock

end Tecracoin.Validation
