/-
  The outpoints that the transactions of the memory pool spend, and
  `mapNextTx`, which is to say who spends them.

  `addUnchecked` inserts into `mapNextTx` and keeps an older entry silently, so
  everything rests on the conflicts having been removed before.  With
  replacement switched off `AcceptToMemoryPoolWorker` neither refuses nor
  removes them.
-/
import Tecracoin.Data.KeyIndex
import Tecracoin.Mempool.Serials

namespace Tecracoin.Mempool

open Data Tecracoin.Sigma CTxMemPool Eff

/-- An ordinary transaction spends the outpoint. -/
def Spends (tx : CTransaction) (prevout : COutPoint) : Prop :=
  tx.isPrivacySpend = false ∧ prevout ∈ tx.vin.map CTxIn.prevout

def spentBy (tx : CTransaction) : List COutPoint :=
  if tx.isPrivacySpend then [] else tx.vin.map CTxIn.prevout

lemma mem_spentBy {tx : CTransaction} {prevout : COutPoint} :
    prevout ∈ spentBy tx ↔ Spends tx prevout := by
  unfold spentBy Spends
  cases tx.isPrivacySpend <;> simp

/-- `mapNextTx` maps exactly the spent outpoints to their spenders. -/
structure SpendsExact (getHash : CTransaction → Uint256) (pool : CTxMemPool) : Prop where
  keys : ∀ hash entry, pool.mapTx.get? hash = some entry → hash = getHash entry.tx
  next : ∀ prevout tx, pool.mapNextTx.get? prevout = some tx ↔
    ∃ hash entry, pool.mapTx.get? hash = some entry ∧ entry.tx = tx ∧ Spends tx prevout

variable {getHash : CTransaction → Uint256} {pool pool' : CTxMemPool} {entry : CTxMemPoolEntry}

namespace SpendsExact

lemma empty (getHash : CTransaction → Uint256) : SpendsExact getHash .empty where
  keys := nofun
  next := fun _ _ => ⟨nofun, fun ⟨_, _, hget, _⟩ => nomatch hget⟩

lemma iff_indexed : SpendsExact getHash pool ↔
    (∀ hash entry, pool.mapTx.get? hash = some entry → hash = getHash entry.tx) ∧
      Indexed (fun entry : CTxMemPoolEntry => spentBy entry.tx) (fun _ entry => entry.tx)
        pool.mapTx pool.mapNextTx := by
  have hnext (prevout : COutPoint) (tx : CTransaction) : (∃ hash entry,
      pool.mapTx.get? hash = some entry ∧ entry.tx = tx ∧ Spends tx prevout) ↔
      ∃ hash entry, pool.mapTx.get? hash = some entry ∧ entry.tx = tx ∧
        prevout ∈ spentBy entry.tx := by
    refine exists₂_congr (fun hash entry => and_congr_right (fun _ => and_congr_right ?_))
    rintro rfl
    exact mem_spentBy.symm
  exact ⟨fun h => ⟨h.keys, fun prevout tx => (h.next prevout tx).trans (hnext prevout tx)⟩,
    fun h => ⟨h.1, fun prevout tx => (h.2 prevout tx).trans (hnext prevout tx).symm⟩⟩

lemma unique (h : SpendsExact getHash pool) {hash hash' : Uint256}
    {entry entry' : CTxMemPoolEntry} {prevout : COutPoint}
    (hget : pool.mapTx.get? hash = some entry) (hget' : pool.mapTx.get? hash' = some entry')
    (hspends : Spends entry.tx prevout) (hspends' : Spends entry'.tx prevout) : hash = hash' := by
  have hnext := (h.next prevout entry.tx).mpr ⟨hash, entry, hget, rfl, hspends⟩
  have hnext' := (h.next prevout entry'.tx).mpr ⟨hash', entry', hget', rfl, hspends'⟩
  have htx : entry.tx = entry'.tx := Option.some.inj (hnext.symm.trans hnext')
  rw [h.keys hash entry hget, h.keys hash' entry' hget', htx]

lemma congr (h : SpendsExact getHash pool) (htx : pool'.mapTx = pool.mapTx)
    (hnext : pool'.mapNextTx = pool.mapNextTx) : SpendsExact getHash pool' where
  keys := htx ▸ h.keys
  next := by
    rw [htx, hnext]
    exact h.next

end SpendsExact

/-! ## Leaving -/

namespace CTxMemPool

lemma mapNextTx_removeUnchecked {it : Uint256} (hget : pool.mapTx.get? it = some entry) :
    (pool.removeUnchecked it).mapNextTx =
      (spentBy entry.tx).foldl (fun next prevout => next.erase prevout) pool.mapNextTx := by
  rw [removeUnchecked, hget]
  simp only [spentBy]
  split_ifs
  · rfl
  · rw [List.foldl_map]

lemma mapNextTx_addUnchecked {hash : Uint256} :
    (pool.addUnchecked hash entry).mapNextTx = (spentBy entry.tx).foldl
      (fun next prevout => next.insert StdMap.unordered prevout entry.tx) pool.mapNextTx := by
  rw [addUnchecked, frame_updateAncestorsOf mapNextTx (fun _ _ => rfl)]
  exact foldl_frame mapNextTx (fun _ _ _ => by rfl) _

end CTxMemPool

namespace SpendsExact

variable (h : SpendsExact getHash pool)
include h

lemma removeUnchecked (it : Uint256) : SpendsExact getHash (pool.removeUnchecked it) := by
  cases hit : pool.mapTx.get? it with
  | none =>
    have hsame : pool.removeUnchecked it = pool := by rw [CTxMemPool.removeUnchecked, hit]
    rw [hsame]
    exact h
  | some removed =>
    refine iff_indexed.mpr ⟨?_, ?_⟩
    · rw [mapTx_removeUnchecked]
      exact StdMap.forall_erase h.keys
    · rw [mapTx_removeUnchecked, mapNextTx_removeUnchecked hit]
      refine (iff_indexed.mp h).2.remove hit (fun hash entry hget htx => ?_)
      rw [h.keys hash entry hget, h.keys it removed hit, htx]

lemma removeStaged (stage : List Uint256) : SpendsExact getHash (pool.removeStaged stage) := by
  refine List.foldlRecOn _ _ ?_ (fun pool hpool it _ => hpool.removeUnchecked it)
  exact h.congr (frame_updateForRemoveFromMempool stage mapTx (fun _ _ => rfl) pool)
    (frame_updateForRemoveFromMempool stage mapNextTx (fun _ _ => rfl) pool)

lemma removal (hremoval : pool.Removal pool') : SpendsExact getHash pool' :=
  hremoval.invariant (fun stage _ hpool => hpool.removeStaged stage) h

/-! ## Entering -/

lemma addUnchecked (entry : CTxMemPoolEntry) (hnew : pool.contains (getHash entry.tx) = false)
    (hfree : ∀ prevout, Spends entry.tx prevout → pool.mapNextTx.get? prevout = none) :
    SpendsExact getHash (pool.addUnchecked (getHash entry.tx) entry) := by
  have hnone : pool.mapTx.get? (getHash entry.tx) = none := by
    simpa [CTxMemPool.contains, StdMap.contains] using hnew
  refine iff_indexed.mpr ⟨?_, ?_⟩
  · rw [mapTx_addUnchecked]
    exact StdMap.forall_insert h.keys rfl
  · rw [mapTx_addUnchecked, mapNextTx_addUnchecked]
    exact (iff_indexed.mp h).2.add _ _ hnone
      (fun prevout hmem => hfree prevout (mem_spentBy.mp hmem))

end SpendsExact

/-! ## Replacing -/

/-- `CalculateDescendants` keeps what the set holds and adds the entry. -/
lemma CTxMemPool.mem_calculateDescendants_self (pool : CTxMemPool) (set : List Uint256)
    (it : Uint256) : it ∈ pool.calculateDescendants set it ∧
      ∀ x ∈ set, x ∈ pool.calculateDescendants set it := by
  unfold CTxMemPool.calculateDescendants
  split_ifs with hmem
  · exact ⟨hmem, fun x hx => hx⟩
  · rw [worklist]
    exact ⟨subset_worklist _ _ it (.head _),
      fun x hx => subset_worklist _ _ x (.tail _ hx)⟩

lemma CTxMemPool.mem_foldl_calculateDescendants (pool : CTxMemPool) {txToRemove : List Uint256}
    (set : List Uint256) {x : Uint256} (hx : x ∈ txToRemove ∨ x ∈ set) :
    x ∈ txToRemove.foldl pool.calculateDescendants set := by
  induction txToRemove generalizing set with
  | nil => exact hx.resolve_left List.not_mem_nil
  | cons it rest ih =>
    obtain ⟨hself, hset⟩ := pool.mem_calculateDescendants_self set it
    refine ih _ ?_
    rcases hx with hx | hx
    · rcases List.mem_cons.mp hx with rfl | hx
      · exact .inr hself
      · exact .inl hx
    · exact .inr (hset x hx)

section Accept

variable {env : TxEnv} {ctx : AcceptContext} {tx : CTransaction}
  {conflicts : List Uint256}

/-- With replacement on, every spender in the pool of an outpoint of `tx` is among the conflicts. -/
lemma mem_setConflicts (hreplace : ctx.fEnableReplacement = true)
    (h : setConflicts env ctx tx pool = .ok conflicts) {txin : CTxIn} (htxin : txin ∈ tx.vin)
    {conflicting : CTransaction} (hnext : pool.mapNextTx.get? txin.prevout = some conflicting) :
    env.crypto.getHash conflicting ∈ conflicts := by
  refine foldlM_brings (Q := fun conflicts => env.crypto.getHash conflicting ∈ conflicts) htxin
    ?_ ?_ h
  · intro start result hrun
    simp only [hnext] at hrun
    split_ifs at hrun with hknown hoptout
    · cases hrun
      refine hknown.resolve_right ?_
      rw [hreplace]
      exact Bool.noConfusion
    · cases hrun
      exact List.mem_insert_self
  · intro other _ start result hstart hrun
    split at hrun
    · exact Except.ok.inj hrun ▸ hstart
    · split_ifs at hrun
      · exact Except.ok.inj hrun ▸ hstart
      · exact Except.ok.inj hrun ▸ List.mem_insert_of_mem hstart

/-- Replacement is on, or nothing in the pool spends an outpoint of `tx`. -/
def Unopposed (ctx : AcceptContext) (tx : CTransaction) (pool : CTxMemPool) : Prop :=
  ctx.fEnableReplacement = true ∨
    ∀ txin ∈ tx.vin, pool.mapNextTx.get? txin.prevout = none

lemma spendsExact_storedPool (h : SpendsExact env.crypto.getHash pool)
    (hnew : pool.contains (env.crypto.getHash tx) = false)
    (hconflicts : setConflicts env ctx tx pool = .ok conflicts)
    (hunopposed : Unopposed ctx tx pool) :
    SpendsExact env.crypto.getHash (storedPool env ctx tx conflicts pool) := by
  have hremoved := h.removeStaged
    ((conflicts.filter pool.contains).foldl pool.calculateDescendants [])
  have hgone : (pool.removeWithDescendants (conflicts.filter pool.contains)).contains
      (env.crypto.getHash tx) = false := by
    have hnone : pool.mapTx.get? (env.crypto.getHash tx) = none := by
      simpa [CTxMemPool.contains, StdMap.contains] using hnew
    rw [CTxMemPool.contains, StdMap.contains, CTxMemPool.removeWithDescendants,
      mapTx_removeStaged, hnone, ite_self]
    rfl
  have hfree : ∀ prevout, Spends tx prevout →
      (pool.removeWithDescendants (conflicts.filter pool.contains)).mapNextTx.get? prevout
        = none := by
    intro prevout hspends
    refine Option.eq_none_iff_forall_ne_some.mpr (fun spender hspender => ?_)
    -- the spender was in the pool before, and it is a conflict
    obtain ⟨hash, entry, hget, rfl, hspends'⟩ := (hremoved.next prevout spender).mp hspender
    have hold := shrinks_removeStaged _ hash entry hget
    have hnext := (h.next prevout entry.tx).mpr ⟨hash, entry, hold, rfl, hspends'⟩
    obtain ⟨txin, htxin, rfl⟩ := List.mem_map.mp hspends.2
    rcases hunopposed with hreplace | hunspent
    · have hconflict := mem_setConflicts hreplace hconflicts htxin hnext
      rw [← h.keys hash entry hold] at hconflict
      have hcontained : hash ∈ conflicts.filter pool.contains :=
        List.mem_filter.mpr ⟨hconflict, StdMap.contains_of_get? hold⟩
      rw [mapTx_removeStaged, if_pos (pool.mem_foldl_calculateDescendants []
        (.inl hcontained))] at hget
      cases hget
    · rw [hunspent txin htxin] at hnext
      cases hnext
  have hstored := hremoved.addUnchecked ⟨tx, ctx.nAcceptTime, ctx.spendsCoinbase⟩ hgone hfree
  simp only [storedPool]
  split_ifs
  · exact hstored
  · exact hstored.removal removal_limitMempoolSize

end Accept

/-! ## Runs -/

/-- Every call of `AcceptToMemoryPoolWorker` is unopposed. -/
def AcceptsUnopposed : Op → MempoolNode → Prop
  | .accept ctx tx, s => Unopposed ctx tx s.mempool
  | _, _ => True

lemma spendsExact_step {env : TxEnv} {op : Op} {s s' : MempoolNode}
    (h : SpendsExact env.crypto.getHash s.mempool) (hallowed : AcceptsUnopposed op s)
    (hstep : step env op s = some s') : SpendsExact env.crypto.getHash s'.mempool := by
  by_cases haccept : ∃ ctx tx, op = .accept ctx tx
  · obtain ⟨ctx, tx, rfl⟩ := haccept
    have hrun := accept_attempted env ctx tx s
    rw [survivor_eq_some hstep] at hrun
    rcases hrun.pool with hsame | ⟨_, conflicts, hconflicts, hnew, hpool⟩
    · rw [hsame]
      exact h
    · rw [hpool]
      exact spendsExact_storedPool h hnew hconflicts hallowed
  · exact h.removal (removes_of_step (fun ctx tx heq => haccept ⟨ctx, tx, heq⟩) hstep).pool

/-- In every run in which each acceptance is unopposed, no two ordinary transactions of the pool
    spend one outpoint, and `mapNextTx` maps exactly the spent outpoints to their spenders. -/
theorem mempool_no_double_spend (env : TxEnv) {s : MempoolNode}
    (h : Reaches (step env) AcceptsUnopposed initial s) :
    (∀ hash hash' entry entry' prevout, s.mempool.mapTx.get? hash = some entry →
      s.mempool.mapTx.get? hash' = some entry' → Spends entry.tx prevout →
      Spends entry'.tx prevout → hash = hash') ∧
    ∀ prevout tx, s.mempool.mapNextTx.get? prevout = some tx ↔
      ∃ hash entry, s.mempool.mapTx.get? hash = some entry ∧ entry.tx = tx ∧ Spends tx prevout := by
  have hexact : SpendsExact env.crypto.getHash s.mempool :=
    h.invariant (P := fun s => SpendsExact env.crypto.getHash s.mempool) (.empty _)
      (fun _ _ _ hs hallowed hstep => spendsExact_step hs hallowed hstep)
  exact ⟨fun _ _ _ _ _ hget hget' hspends hspends' => hexact.unique hget hget' hspends hspends',
    hexact.next⟩

namespace Sample

open Tecracoin.Sigma.Sample

/-- The coin of `payment` once more. -/
def secondPayment : CTransaction := tx 4 [⟨⟨9, 0⟩, [], 0⟩] [⟨COIN, [0x52]⟩]

def replacingOps : List Op := acceptedOps ++ [.accept permissive secondPayment]

end Sample

open Sample in
/-- A second payment from the coin replaces the first. -/
theorem mempool_no_double_spend_replaced :
    ∃ s, Reaches (step toyEnv) AcceptsUnopposed initial s ∧
      (∀ hash entry, s.mempool.mapTx.get? hash = some entry → Spends entry.tx ⟨9, 0⟩ → hash = 4) ∧
      s.mempool.mapNextTx.get? ⟨9, 0⟩ = some secondPayment := by
  have hallowed : ∀ op ∈ replacingOps, ∀ s, AcceptsUnopposed op s := by
    simp [replacingOps, acceptedOps, AcceptsUnopposed, Unopposed, permissive]
  have hreach : Reaches (step toyEnv) AcceptsUnopposed initial _ :=
    reaches_of_runSteps replacingOps .start rfl hallowed
  obtain ⟨hunique, hnext⟩ := mempool_no_double_spend toyEnv hreach
  refine ⟨_, hreach, fun hash entry hget hspends => ?_,
    (hnext _ _).mpr ⟨4, _, rfl, rfl, rfl, .head _⟩⟩
  exact hunique hash 4 entry _ _ hget rfl hspends ⟨rfl, .head _⟩

namespace Sample

/-- A node started with `-mempoolreplacement=0`. -/
def noReplacement : AcceptContext := { permissive with fEnableReplacement := false }

def doubleSpendOps : List Op :=
  [.connectTip 0 [] (fun _ => 0) (fun _ => []), .accept noReplacement payment,
    .accept noReplacement secondPayment]

end Sample

open Sample in
/-- Without replacement both spenders of one coin are accepted, and `mapNextTx` knows the first of
    them only. -/
theorem both_spenders_accepted :
    ∃ s, Reachable toyEnv s ∧
      (∃ entry, s.mempool.mapTx.get? 2 = some entry ∧ Spends entry.tx ⟨9, 0⟩) ∧
      (∃ entry, s.mempool.mapTx.get? 4 = some entry ∧ Spends entry.tx ⟨9, 0⟩) ∧
      s.mempool.mapNextTx.get? ⟨9, 0⟩ = some payment := by
  refine ⟨_, reaches_of_runSteps doubleSpendOps .start rfl (fun _ _ _ => trivial), ?_⟩
  exact ⟨⟨_, rfl, rfl, .head _⟩, ⟨_, rfl, rfl, .head _⟩, rfl⟩

end Tecracoin.Mempool
