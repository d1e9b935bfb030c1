/-
  `CTxMemPool` of `txmempool.cpp`: the transactions, the map from spent
  outpoints to their spenders, the links between parents and children, and every
  way a transaction enters or leaves the pool.

  Iterators and transaction pointers are transaction ids and transactions.  Fee
  and size statistics only decide which transactions a trim takes first; the
  order they induce is a parameter of `trimToSize`.
-/
import Tecracoin.Consensus.Params
import Tecracoin.Data.Eff
import Tecracoin.Data.StdMap
import Tecracoin.Data.Worklist

namespace Tecracoin.Mempool

open Data StdMap

structure CTxMemPoolEntry where
  tx : CTransaction
  nTime : Int
  spendsCoinbase : Bool

structure TxLinks where
  parents : List Uint256
  children : List Uint256

structure CTxMemPool where
  mapTx : StdMap Uint256 CTxMemPoolEntry
  mapNextTx : StdMap COutPoint CTransaction
  mapLinks : StdMap Uint256 TxLinks

namespace CTxMemPool

def empty : CTxMemPool := ⟨.empty, .empty, .empty⟩

/-- `exists(hash)`. -/
def contains (pool : CTxMemPool) (hash : Uint256) : Bool := pool.mapTx.contains hash

/-- `get(hash)`. -/
def get (pool : CTxMemPool) (hash : Uint256) : Option CTransaction :=
  (pool.mapTx.get? hash).map CTxMemPoolEntry.tx

section

variable (pool : CTxMemPool) (it : Uint256)

/-- `mapLinks[it]`. -/
def linksOf : TxLinks := (pool.mapLinks.get? it).getD ⟨[], []⟩

/-! ## Links -/

def setLinks (links : TxLinks) (pool : CTxMemPool) : CTxMemPool :=
  { pool with mapLinks := pool.mapLinks.set unordered it links }

def updateChild (entry child : Uint256) (add : Bool) (pool : CTxMemPool) : CTxMemPool :=
  let links := pool.linksOf entry
  pool.setLinks entry
    { links with
      children := if add then links.children.insert child else links.children.erase child }

def updateParent (entry parent : Uint256) (add : Bool) (pool : CTxMemPool) : CTxMemPool :=
  let links := pool.linksOf entry
  pool.setLinks entry
    { links with
      parents := if add then links.parents.insert parent else links.parents.erase parent }

/-- `UpdateAncestorsOf`: add or remove `it` as a child of each of its parents. -/
def updateAncestorsOf (add : Bool) (pool : CTxMemPool) (it : Uint256) : CTxMemPool :=
  (pool.linksOf it).parents.foldl (fun pool parent => pool.updateChild parent it add) pool

def updateChildrenForRemoval : CTxMemPool :=
  (pool.linksOf it).children.foldl (fun pool child => pool.updateParent child it false) pool

def updateForRemoveFromMempool (stage : List Uint256) (pool : CTxMemPool) : CTxMemPool :=
  stage.foldl updateChildrenForRemoval (stage.foldl (updateAncestorsOf false) pool)

/-! ## Entering -/

/-- `addUnchecked`: only ordinary spends take part in `mapNextTx` and have parents in the pool. -/
def addUnchecked (hash : Uint256) (entry : CTxMemPoolEntry) (pool : CTxMemPool) : CTxMemPool :=
  let prevouts := if entry.tx.isPrivacySpend then [] else entry.tx.vin.map CTxIn.prevout
  let pool : CTxMemPool :=
    { mapTx := pool.mapTx.insert unordered hash entry
      mapNextTx := prevouts.foldl
        (fun next prevout => next.insert unordered prevout entry.tx) pool.mapNextTx
      mapLinks := pool.mapLinks.insert unordered hash ⟨[], []⟩ }
  let parents := (prevouts.map COutPoint.hash).filter pool.contains
  updateAncestorsOf true
    (parents.foldl (fun pool parent => pool.updateParent hash parent true) pool) hash

/-! ## Leaving -/

def removeUnchecked : CTxMemPool :=
  match pool.mapTx.get? it with
  | none => pool
  | some entry =>
    { mapTx := pool.mapTx.erase it
      mapNextTx :=
        if entry.tx.isPrivacySpend then pool.mapNextTx
        else entry.tx.vin.foldl (fun next txin => next.erase txin.prevout) pool.mapNextTx
      mapLinks := pool.mapLinks.erase it }

def removeStaged (stage : List Uint256) (pool : CTxMemPool) : CTxMemPool :=
  stage.foldl removeUnchecked (pool.updateForRemoveFromMempool stage)

/-- Every id that is a child of something. -/
def allChildren : List Uint256 :=
  pool.mapLinks.entries.flatMap (fun links => links.2.children)

/-- `CalculateDescendants(entryit, setDescendants)`. -/
def calculateDescendants (setDescendants : List Uint256) (entryit : Uint256) : List Uint256 :=
  if entryit ∈ setDescendants then setDescendants
  else worklist (fun it => (pool.linksOf it).children) (pool.allChildren.length + 1) [entryit]
    setDescendants

/-- `CalculateDescendants` for every entry of a set, then `RemoveStaged`. -/
def removeWithDescendants (txToRemove : List Uint256) (pool : CTxMemPool) : CTxMemPool :=
  pool.removeStaged (txToRemove.foldl pool.calculateDescendants [])

/-- The children of a transaction that is not in the pool itself, found through the outpoints it
    creates. -/
def childrenOfOutputs (getHash : CTransaction → Uint256)
    (origTx : CTransaction) : Except Failure (List Uint256) :=
  (List.range origTx.vout.length).foldlM
    (fun txToRemove i =>
      match pool.mapNextTx.get? ⟨getHash origTx, UInt32.ofNat i⟩ with
      | none => .ok txToRemove
      | some next =>
        if pool.contains (getHash next) then .ok (txToRemove.insert (getHash next))
        else .error (.asserts "nextit != mapTx.end()")) []

end

section Remove

variable (getHash : CTransaction → Uint256)

def removeRecursive (origTx : CTransaction) (pool : CTxMemPool) : Except Failure CTxMemPool :=
  if pool.contains (getHash origTx) then .ok (pool.removeWithDescendants [getHash origTx])
  else (pool.childrenOfOutputs getHash origTx).map pool.removeWithDescendants

/-- `removeRecursive` for one transaction after the other. -/
def removeAllRecursive (txs : List CTransaction) (pool : CTxMemPool) : Except Failure CTxMemPool :=
  txs.foldlM (fun pool tx => pool.removeRecursive getHash tx) pool

/-- `removeForReorg`; `stale` says which entries are no longer final or spend an immature coinbase.
    -/
def removeForReorg (stale : CTxMemPoolEntry → Bool) (pool : CTxMemPool) : CTxMemPool :=
  pool.removeWithDescendants ((pool.mapTx.entries.filter (fun e => stale e.2)).map Prod.fst)

/-- `removeConflicts`: the other spenders of the outpoints `tx` spends. -/
def removeConflicts (tx : CTransaction) (pool : CTxMemPool) : Except Failure CTxMemPool :=
  tx.vin.foldlM
    (fun pool txin =>
      match pool.mapNextTx.get? txin.prevout with
      | none => .ok pool
      | some txConflict =>
        if getHash txConflict ≠ getHash tx then pool.removeRecursive getHash txConflict
        else .ok pool) pool

/-- `removeProTxConflicts`: for each conflicting id in the pool, its transaction goes; `conflicts`
    are the ids the provider transaction indexes give. -/
def removeProTxConflicts (conflicts : List Uint256) (pool : CTxMemPool) :
    Except Failure CTxMemPool :=
  conflicts.foldlM
    (fun pool hash =>
      match pool.get hash with
      | none => .ok pool
      | some tx => pool.removeRecursive getHash tx) pool

/-- One iteration of `removeForBlock`. -/
def removeForBlockTx (proTxConflicts : CTransaction → List Uint256) (pool : CTxMemPool)
    (tx : CTransaction) : Except Failure CTxMemPool := do
  let pool := if pool.contains (getHash tx) then pool.removeStaged [getHash tx] else pool
  let pool ← pool.removeConflicts getHash tx
  pool.removeProTxConflicts getHash (proTxConflicts tx)

def removeForBlock (proTxConflicts : CTransaction → List Uint256) (vtx : List CTransaction)
    (pool : CTxMemPool) : Except Failure CTxMemPool :=
  vtx.foldlM (removeForBlockTx getHash proTxConflicts) pool

/-- `Expire(time)`. -/
def expire (time : Int) (pool : CTxMemPool) : CTxMemPool :=
  pool.removeWithDescendants
    ((pool.mapTx.entries.filter (fun e => decide (e.2.nTime < time))).map Prod.fst)

/-- The loop of `TrimToSize`: while the pool is too large, the entry with the lowest descendant
    score goes, with its descendants. -/
def trimLoop (dynamicMemoryUsage : CTxMemPool → Nat) (descendantScore : CTxMemPool → Uint256 → Nat)
    (sizelimit : Nat) : Nat → CTxMemPool → CTxMemPool
  | 0, pool => pool
  | fuel + 1, pool =>
    match pool.mapTx.keys.argmin (descendantScore pool) with
    | none => pool
    | some it =>
      if dynamicMemoryUsage pool > sizelimit then
        trimLoop dynamicMemoryUsage descendantScore sizelimit fuel
          (pool.removeWithDescendants [it])
      else pool

/-- `TrimToSize(sizelimit)`; every iteration takes at least one entry. -/
def trimToSize (dynamicMemoryUsage : CTxMemPool → Nat)
    (descendantScore : CTxMemPool → Uint256 → Nat) (sizelimit : Nat) (pool : CTxMemPool) :
    CTxMemPool :=
  trimLoop dynamicMemoryUsage descendantScore sizelimit pool.mapTx.entries.length pool

end Remove

/-! ## Descendants -/

/-- The rounds `calculateDescendants` is given are enough: it finds a transaction with everything
    that hangs on it through the child links. -/
theorem mem_calculateDescendants_iff (pool : CTxMemPool) (it x : Uint256) :
    x ∈ pool.calculateDescendants [] it ↔
      Relation.ReflTransGen (fun a b => b ∈ (pool.linksOf a).children) it x := by
  have hU : ∀ a, ∀ b ∈ (pool.linksOf a).children, b ∈ insert it pool.allChildren.toFinset := by
    intro a b hb
    rw [Finset.mem_insert, List.mem_toFinset, allChildren, List.mem_flatMap]
    right
    unfold linksOf at hb
    cases hget : pool.mapLinks.get? a with
    | none => rw [hget] at hb; cases hb
    | some links =>
      rw [hget] at hb
      exact ⟨(a, links), get?_eq_some_iff.mp hget, hb⟩
  have hcard : (insert it pool.allChildren.toFinset).card ≤ pool.allChildren.length + 1 :=
    (Finset.card_insert_le _ _).trans (by have := pool.allChildren.toFinset_card_le; omega)
  rw [calculateDescendants, if_neg List.not_mem_nil]
  exact mem_worklist_iff hU (Finset.mem_insert_self _ _) hcard

/-! ## What leaving does to the transactions -/

section Spec

variable {pool pool' pool'' : CTxMemPool} {getHash : CTransaction → Uint256}

variable (stage : List Uint256) {hash : Uint256} {entry : CTxMemPoolEntry}

section Links

-- what does not look at the links
variable {γ : Type} (view : CTxMemPool → γ)
  (hview : ∀ pool links, view { pool with mapLinks := links } = view pool)
include hview

lemma frame_updateAncestorsOf (add : Bool) (pool : CTxMemPool) (it : Uint256) :
    view (pool.updateAncestorsOf add it) = view pool :=
  foldl_frame view (fun pool _ _ => hview pool _) pool

lemma frame_updateChildrenForRemoval (it : Uint256) :
    view (pool.updateChildrenForRemoval it) = view pool :=
  foldl_frame view (fun pool _ _ => hview pool _) pool

lemma frame_updateForRemoveFromMempool (pool : CTxMemPool) :
    view (pool.updateForRemoveFromMempool stage) = view pool :=
  (foldl_frame view (fun _ it _ => frame_updateChildrenForRemoval view hview it) _).trans
    (foldl_frame view (fun pool it _ => frame_updateAncestorsOf view hview false pool it) pool)

end Links

lemma mapTx_addUnchecked :
    (pool.addUnchecked hash entry).mapTx = pool.mapTx.insert unordered hash entry := by
  unfold addUnchecked
  rw [frame_updateAncestorsOf mapTx (fun _ _ => rfl)]
  exact foldl_frame mapTx (fun _ _ _ => by rfl) _

lemma get?_addUnchecked {hash' : Uint256} {entry' : CTxMemPoolEntry}
    (h : (pool.addUnchecked hash entry).mapTx.get? hash' = some entry') :
    pool.mapTx.get? hash' = some entry' ∨ entry' = entry := by
  rw [mapTx_addUnchecked] at h
  exact (get?_insert_eq_some h).symm.imp_right And.right

lemma mapTx_removeUnchecked (it : Uint256) :
    (pool.removeUnchecked it).mapTx = pool.mapTx.erase it := by
  unfold removeUnchecked
  split
  · case h_1 hnone => exact (erase_of_get?_none hnone).symm
  · rfl

/-- `RemoveStaged` takes the staged transactions and leaves the others. -/
lemma mapTx_removeStaged :
    (pool.removeStaged stage).mapTx.get? hash =
      if hash ∈ stage then none else pool.mapTx.get? hash := by
  have hfold (pool : CTxMemPool) :
      (stage.foldl removeUnchecked pool).mapTx = stage.foldl erase pool.mapTx :=
    (List.foldl_hom mapTx (fun pool it => (mapTx_removeUnchecked it).symm)).symm
  rw [removeStaged, hfold, frame_updateForRemoveFromMempool stage mapTx (fun _ _ => rfl),
    get?_foldl_erase]

/-- Every transaction of `pool'` was in `pool`. -/
def Shrinks (pool pool' : CTxMemPool) : Prop :=
  ∀ hash entry, pool'.mapTx.get? hash = some entry → pool.mapTx.get? hash = some entry

lemma Shrinks.refl (pool : CTxMemPool) : Shrinks pool pool := fun _ _ h => h

lemma Shrinks.trans (h : Shrinks pool pool') (h' : Shrinks pool' pool'') : Shrinks pool pool'' :=
  fun hash entry hget => h hash entry (h' hash entry hget)

lemma shrinks_removeStaged : Shrinks pool (pool.removeStaged stage) := by
  intro hash entry hget
  rw [mapTx_removeStaged] at hget
  split_ifs at hget
  exact hget

/-- What removing can do: `RemoveStaged` for one set after the other. -/
def Removal (pool pool' : CTxMemPool) : Prop :=
  Relation.ReflTransGen (fun pool pool' => ∃ stage, pool' = pool.removeStaged stage) pool pool'

/-- What every `RemoveStaged` keeps is kept. -/
lemma Removal.invariant {P : CTxMemPool → Prop} (h : Removal pool pool')
    (hstage : ∀ stage pool, P pool → P (pool.removeStaged stage)) (hpool : P pool) : P pool' := by
  induction h with
  | refl => exact hpool
  | tail _ hstep ih =>
    obtain ⟨stage, rfl⟩ := hstep
    exact hstage stage _ ih

lemma Removal.shrinks (h : Removal pool pool') : Shrinks pool pool' :=
  h.invariant (fun stage _ hs => hs.trans (shrinks_removeStaged stage)) (.refl pool)

lemma removal_removeStaged : Removal pool (pool.removeStaged stage) :=
  .single ⟨stage, rfl⟩

lemma removal_removeRecursive {origTx : CTransaction}
    (h : pool.removeRecursive getHash origTx = .ok pool') : Removal pool pool' := by
  unfold removeRecursive at h
  split_ifs at h
  · exact Except.ok.inj h ▸ removal_removeStaged _
  · obtain ⟨txToRemove, -, rfl⟩ := except_map_ok_iff.mp h
    exact removal_removeStaged _

lemma removal_foldlM {α : Type} {f : CTxMemPool → α → Except Failure CTxMemPool} {as : List α}
    (hf : ∀ a pool pool', f pool a = .ok pool' → Removal pool pool')
    (h : as.foldlM f pool = .ok pool') : Removal pool pool' :=
  foldlM_invariant (P := Removal pool) (fun a _ _ _ hs hstep => hs.trans (hf a _ _ hstep))
    .refl h

lemma removal_removeConflicts {tx : CTransaction}
    (h : pool.removeConflicts getHash tx = .ok pool') : Removal pool pool' := by
  refine removal_foldlM (fun txin pool pool' hstep => ?_) h
  split at hstep
  · exact Except.ok.inj hstep ▸ .refl
  · split_ifs at hstep
    · exact removal_removeRecursive hstep
    · exact Except.ok.inj hstep ▸ .refl

lemma removal_removeProTxConflicts {conflicts : List Uint256}
    (h : pool.removeProTxConflicts getHash conflicts = .ok pool') : Removal pool pool' := by
  refine removal_foldlM (fun hash pool pool' hstep => ?_) h
  split at hstep
  · exact Except.ok.inj hstep ▸ .refl
  · exact removal_removeRecursive hstep

lemma removal_removeForBlock {proTxConflicts : CTransaction → List Uint256}
    {vtx : List CTransaction} (h : pool.removeForBlock getHash proTxConflicts vtx = .ok pool') :
    Removal pool pool' := by
  refine removal_foldlM (fun tx pool pool' hstep => ?_) h
  have hfirst : Removal pool
      (if pool.contains (getHash tx) then pool.removeStaged [getHash tx] else pool) := by
    split_ifs
    · exact removal_removeStaged _
    · exact .refl
  obtain ⟨mid, hmid, hlast⟩ := except_bind_ok_iff.mp hstep
  exact hfirst.trans ((removal_removeConflicts hmid).trans (removal_removeProTxConflicts hlast))

lemma removal_trimToSize {usage : CTxMemPool → Nat} {score : CTxMemPool → Uint256 → Nat}
    {sizelimit : Nat} : Removal pool (pool.trimToSize usage score sizelimit) := by
  unfold trimToSize
  generalize pool.mapTx.entries.length = fuel
  fun_induction trimLoop with
  | case1 | case2 | case4 => exact .refl
  | case3 => exact (removal_removeStaged _).trans ‹_›

end Spec

end CTxMemPool

end Tecracoin.Mempool
