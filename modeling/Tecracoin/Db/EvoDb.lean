/-
  `CEvoDB` of `evo/evodb.h`: two transactions stacked in front of a database.
  `curDBTransaction` collects what one block changes and is committed into
  `rootDBTransaction`, or dropped when the block fails; `rootDBTransaction` is
  written to the database in one batch when the caches are flushed.

  `Layers` is what the stack is for: three maps, where a write changes the
  upper one, a commit copies a map down and a rollback copies one up.  The
  theorem at the end says that the code is exactly that.
-/
import Tecracoin.Data.Eff
import Tecracoin.Db.Transaction

namespace Tecracoin.Db

open Data CDBTransaction StdMap Cell

variable {T : Type}

/-! ## dbwrapper.h: the database and its batches -/

/-- `CDBWrapper`: the bytes under each key. -/
abbrev CDBWrapper := StdMap Key (List UInt8)

section

variable (db : CDBWrapper) (C : Codec T)

namespace CDBWrapper

def read (db : CDBWrapper) (t : T) (ssKey : Key) : Except Failure (Option (C.Val t)) :=
  match db.get? ssKey with
  | none => .ok none
  | some bytes => .ok (C.decode t bytes)

def keyExists (ssKey : Key) : Bool := db.contains ssKey

/-- What the database shows. -/
def view (db : CDBWrapper) : PartialMap Key (Cell C) :=
  fun k => (db.get? k).map stored

lemma answers [DecidableEq T] (C : Codec T) (db : CDBWrapper) :
    Answers C (db.read C) db.keyExists (db.view C) where
  read := by
    intro t k
    rw [read, view]
    cases get? db k <;> rfl
  keyExists := by
    intro k
    rw [keyExists, view, contains, Option.isSome_map]

end CDBWrapper

/-- One entry of a `leveldb::WriteBatch`. -/
inductive BatchOp
  | put (ssKey : Key) (bytes : List UInt8)
  | delete (ssKey : Key)

/-- `CDBBatch`: the entries, first to last. -/
abbrev CDBBatch := List BatchOp

variable (batch : CDBBatch)

namespace CDBBatch

def write {C : Codec T} (batch : CDBBatch) (ssKey : Key) (v : ValueHolder C) : CDBBatch :=
  batch ++ [.put ssKey (C.encode v.1 v.2)]

def erase (ssKey : Key) : CDBBatch := batch ++ [.delete ssKey]

end CDBBatch

namespace CDBWrapper

def applyOp : BatchOp → CDBWrapper
  | .put k bytes => db.set less k bytes
  | .delete k => erase db k

/-- `WriteBatch`: the entries take effect in order. -/
def writeBatch : CDBWrapper := batch.foldl applyOp db

variable {db : CDBWrapper}

lemma view_put (k : Key) {bytes : List UInt8} :
    view C (db.set less k bytes) = Function.update (view C db) k (some (.stored bytes)) := by
  refine Function.eq_update_iff.mpr ⟨by simp [view], fun k' hk => ?_⟩
  rw [view, view, get?_set_of_ne hk]

lemma view_delete (k : Key) : view C (erase db k) = Function.update (view C db) k none := by
  refine Function.eq_update_iff.mpr ⟨by simp [view], fun k' hk => ?_⟩
  rw [view, view, get?_erase_of_ne hk]

lemma writeBatch_snoc {op : BatchOp} :
    db.writeBatch (batch ++ [op]) = (db.writeBatch batch).applyOp op := by
  rw [writeBatch, List.foldl_append]
  rfl

end CDBWrapper

end

/-- The bytes a cell becomes when it is written to the database. -/
def Cell.onDisk {C : Codec T} : Cell C → Cell C
  | .held v => .stored (C.encode v.1 v.2)
  | .stored bytes => .stored bytes

/-- Committing the pending changes of a transaction as one batch. -/
lemma view_writeBatch_commit {C : Codec T} {tx : CDBTransaction C} (h : tx.WellFormed)
    (db : CDBWrapper) :
    (db.writeBatch (tx.commit CDBBatch.erase CDBBatch.write []).1).view C =
      fun k => (tx.view (db.view C) k).map onDisk := by
  have hshows := shows_commit CDBBatch.erase CDBBatch.write
    (fun batch => (db.writeBatch batch).view C) (fun v => stored (C.encode v.1 v.2))
    (fun batch k => by
      rw [CDBBatch.erase, CDBWrapper.writeBatch_snoc]
      exact CDBWrapper.view_delete C k)
    (fun batch k v => by
      rw [CDBBatch.write, CDBWrapper.writeBatch_snoc]
      exact CDBWrapper.view_put C k)
    h []
  funext k
  rw [hshows, CDBTransaction.view]
  split
  · rfl
  · cases tx.writes.get? k with
    | some v => rfl
    | none =>
      -- what the database already holds is bytes
      show db.view C k = (db.view C k).map onDisk
      rw [CDBWrapper.view]
      cases get? db k <;> rfl

/-! ## evo/evodb.h -/

structure CEvoDB (C : Codec T) where
  db : CDBWrapper
  rootBatch : CDBBatch
  rootDBTransaction : CDBTransaction C
  curDBTransaction : CDBTransaction C

namespace CEvoDB

variable {C : Codec T}

/-- The constructor, over a database that may already hold data. -/
def fresh (db : CDBWrapper) : CEvoDB C := ⟨db, [], .empty, .empty⟩

def read [DecidableEq T] (e : CEvoDB C) (t : T) (key : Key) : Except Failure (Option (C.Val t)) :=
  e.curDBTransaction.read (e.rootDBTransaction.read (e.db.read C)) t key

section
variable (e : CEvoDB C)

def keyExists (key : Key) : Bool :=
  e.curDBTransaction.keyExists (e.rootDBTransaction.keyExists e.db.keyExists) key

def write (key : Key) (v : ValueHolder C) : CEvoDB C :=
  { e with curDBTransaction := e.curDBTransaction.write key v }

def erase (key : Key) : CEvoDB C :=
  { e with curDBTransaction := e.curDBTransaction.erase key }

def beginTransaction : Except Failure (CEvoDB C) :=
  if e.curDBTransaction.isClean then .ok e else .error (.asserts "dbTx.IsClean()")

/-- `CScopedDBTransaction::Commit` on the current transaction. -/
def commit : CEvoDB C :=
  let r := e.curDBTransaction.commit CDBTransaction.erase CDBTransaction.write e.rootDBTransaction
  { e with rootDBTransaction := r.1, curDBTransaction := r.2 }

/-- `CScopedDBTransaction::Rollback` on the current transaction. -/
def rollback : CEvoDB C := { e with curDBTransaction := e.curDBTransaction.clear }

def commitRootTransaction : Except Failure (CEvoDB C) :=
  if e.curDBTransaction.isClean then
    let r := e.rootDBTransaction.commit CDBBatch.erase CDBBatch.write e.rootBatch
    .ok { e with db := e.db.writeBatch r.1, rootBatch := [], rootDBTransaction := r.2 }
  else .error (.asserts "curDBTransaction.IsClean()")

def getMemoryUsage : Nat := e.rootDBTransaction.getMemoryUsage

end

end CEvoDB

/-- One use of the store. -/
inductive EvoOp (C : Codec T)
  | write (key : Key) (v : ValueHolder C)
  | erase (key : Key)
  | beginTransaction
  | commit
  | rollback
  | commitRootTransaction

def CEvoDB.step {C : Codec T} (e : CEvoDB C) : EvoOp C → Except Failure (CEvoDB C)
  | .write k v => .ok (e.write k v)
  | .erase k => .ok (e.erase k)
  | .beginTransaction => e.beginTransaction
  | .commit => .ok e.commit
  | .rollback => .ok e.rollback
  | .commitRootTransaction => e.commitRootTransaction

/-! ## What the stack is for -/

/-- Three plain maps: what is on disk, what is committed, what is current. -/
structure Layers (C : Codec T) where
  disk : PartialMap Key (Cell C)
  root : PartialMap Key (Cell C)
  cur : PartialMap Key (Cell C)

namespace Layers

variable {C : Codec T}

def fresh (disk : PartialMap Key (Cell C)) : Layers C := ⟨disk, disk, disk⟩

def step (L : Layers C) : EvoOp C → Layers C
  | .write k v => { L with cur := Function.update L.cur k (some (.held v)) }
  | .erase k => { L with cur := Function.update L.cur k none }
  | .beginTransaction => L
  | .commit => { L with root := L.cur }
  | .rollback => { L with cur := L.root }
  | .commitRootTransaction => fresh (fun k => (L.root k).map onDisk)

end Layers

/-- The store shows the three maps, and its two transactions are in order. -/
structure Shows {C : Codec T} (e : CEvoDB C) (L : Layers C) : Prop where
  disk : e.db.view C = L.disk
  root : e.rootDBTransaction.view L.disk = L.root
  cur : e.curDBTransaction.view L.root = L.cur
  rootWellFormed : e.rootDBTransaction.WellFormed
  curWellFormed : e.curDBTransaction.WellFormed
  rootBatch : e.rootBatch = []

namespace Shows

variable {C : Codec T} {e e' : CEvoDB C} {L : Layers C}

lemma fresh (db : CDBWrapper) : Shows (CEvoDB.fresh db : CEvoDB C) (.fresh (db.view C)) where
  disk := rfl
  root := rfl
  cur := rfl
  rootWellFormed := wellFormed_empty
  curWellFormed := wellFormed_empty
  rootBatch := rfl

lemma write (h : Shows e L) (k : Key) (v : ValueHolder C) :
    Shows (e.write k v) (L.step (.write k v)) :=
  { h with
    cur := by
      rw [CEvoDB.write, Layers.step, view_write, h.cur]
    curWellFormed := h.curWellFormed.write k v }

lemma erase (h : Shows e L) (k : Key) : Shows (e.erase k) (L.step (.erase k)) :=
  { h with
    cur := by
      rw [CEvoDB.erase, Layers.step, view_erase, h.cur]
    curWellFormed := h.curWellFormed.erase k }

lemma commit (h : Shows e L) : Shows e.commit (L.step .commit) :=
  { h with
    root := by
      rw [CEvoDB.commit, Layers.step, view_commit h.curWellFormed, h.root, h.cur]
    cur := rfl
    rootWellFormed := h.rootWellFormed.commit e.curDBTransaction
    curWellFormed := wellFormed_empty }

lemma rollback (h : Shows e L) : Shows e.rollback (L.step .rollback) :=
  { h with
    cur := rfl
    curWellFormed := wellFormed_empty }

lemma view_of_isClean {tx : CDBTransaction C} (h : tx.isClean = true)
    {parent : PartialMap Key (Cell C)} : tx.view parent = parent := by
  rw [CDBTransaction.isClean, Bool.and_eq_true, List.isEmpty_iff, List.isEmpty_iff] at h
  funext k
  simp [CDBTransaction.view, contains, get?, h.1, h.2, lookup]

lemma commitRootTransaction (h : Shows e L) (hok : e.commitRootTransaction = .ok e') :
    Shows e' (L.step .commitRootTransaction) := by
  unfold CEvoDB.commitRootTransaction at hok
  split at hok
  case isFalse => cases hok
  case isTrue hclean =>
    cases hok
    have hdisk : (e.db.writeBatch (e.rootDBTransaction.commit CDBBatch.erase CDBBatch.write
        e.rootBatch).1).view C = fun k => (L.root k).map onDisk := by
      rw [h.rootBatch, view_writeBatch_commit h.rootWellFormed, h.disk, h.root]
    exact
      { disk := hdisk
        root := rfl
        cur := view_of_isClean hclean
        rootWellFormed := wellFormed_empty
        curWellFormed := h.curWellFormed
        rootBatch := rfl }

lemma step (h : Shows e L) (op : EvoOp C) (hok : e.step op = .ok e') : Shows e' (L.step op) := by
  cases op with
  | write k v => exact Except.ok.inj hok ▸ h.write k v
  | erase k => exact Except.ok.inj hok ▸ h.erase k
  | beginTransaction =>
    simp only [CEvoDB.step, CEvoDB.beginTransaction] at hok
    split at hok
    · exact Except.ok.inj hok ▸ h
    · cases hok
  | commit => exact Except.ok.inj hok ▸ h.commit
  | rollback => exact Except.ok.inj hok ▸ h.rollback
  | commitRootTransaction => exact h.commitRootTransaction hok

/-- Every run of the store is a run of the three maps. -/
lemma run (h : Shows e L) (ops : List (EvoOp C)) (hok : ops.foldlM CEvoDB.step e = .ok e') :
    Shows e' (ops.foldl Layers.step L) := by
  induction ops generalizing e L with
  | nil => exact Except.ok.inj hok ▸ h
  | cons op ops ih =>
    obtain ⟨e1, he1, hrest⟩ := foldlM_cons_ok_iff.mp hok
    exact ih (h.step op he1) hrest

lemma answers [DecidableEq T] (h : Shows e L) : Answers C e.read e.keyExists L.cur := by
  have hroot := e.rootDBTransaction.answers (e.db.answers C)
  rw [h.disk, h.root] at hroot
  have hcur := e.curDBTransaction.answers hroot
  rw [h.cur] at hcur
  exact hcur

end Shows

/-! ## The layers behave like one map -/

open CDBTransaction in
/-- For a transaction over any parent: after any operations it answers from the parent overlaid with
    them, its size count is exact, dropping it leaves the parent's answers, and committing it makes
    the target answer the same and leaves nothing pending. For the two stacked transactions: every
    run answers from the current one of three plain maps. -/
theorem transactions_behave_like_one_map [DecidableEq T] (C : Codec T)
    {parentRead : (t : T) → Key → Except Failure (Option (C.Val t))} {parentExists : Key → Bool}
    {parent : PartialMap Key (Cell C)} (hparent : Answers C parentRead parentExists parent)
    (ops targetOps : List (Op C)) (db : CDBWrapper) (evoOps : List (EvoOp C)) {e : CEvoDB C}
    (hrun : evoOps.foldlM CEvoDB.step (CEvoDB.fresh db) = .ok e) :
    let tx : CDBTransaction C := ops.foldl perform .empty
    let target : CDBTransaction C := targetOps.foldl perform .empty
    let committed := tx.commit CDBTransaction.erase CDBTransaction.write target
    let batch := (tx.commit CDBBatch.erase CDBBatch.write []).1
    (Answers C (tx.read parentRead) (tx.keyExists parentExists) (overlay parent ops) ∧
      tx.memoryUsage = tx.pendingSize ∧ 0 ≤ tx.memoryUsage) ∧
    (Answers C (committed.1.read parentRead) (committed.1.keyExists parentExists)
        (overlay (overlay parent targetOps) ops) ∧
      committed.1.memoryUsage = committed.1.pendingSize ∧ committed.2 = .empty) ∧
    (db.writeBatch batch).view C = (fun k => (overlay (db.view C) ops k).map onDisk) ∧
    (Answers C (tx.clear.read parentRead) (tx.clear.keyExists parentExists) parent ∧
      tx.clear.isClean = true) ∧
    (Answers C e.read e.keyExists (evoOps.foldl Layers.step (.fresh (db.view C))).cur ∧
      e.rootDBTransaction.memoryUsage = e.rootDBTransaction.pendingSize ∧
      e.curDBTransaction.memoryUsage = e.curDBTransaction.pendingSize ∧
      e.getMemoryUsage = e.rootDBTransaction.pendingSize) := by
  intro tx target committed batch
  have htx : tx.WellFormed := wellFormed_foldl_perform
  have htarget : target.WellFormed := wellFormed_foldl_perform
  have hcommitted : committed.1.WellFormed := htarget.commit tx
  have hshows := (Shows.fresh db).run evoOps hrun
  refine ⟨⟨?_, htx.accounted, ?_⟩, ⟨?_, hcommitted.accounted, rfl⟩, ?_, ⟨?_, rfl⟩,
    hshows.answers, hshows.rootWellFormed.accounted, hshows.curWellFormed.accounted, ?_⟩
  · rw [← view_foldl_perform ops]
    exact tx.answers hparent
  · rw [htx.accounted]
    exact Int.natCast_nonneg _
  · have hview : committed.1.view parent = overlay (overlay parent targetOps) ops := by
      rw [view_commit htx, view_foldl_perform, view_foldl_perform]
    rw [← hview]
    exact committed.1.answers hparent
  · rw [view_writeBatch_commit htx, view_foldl_perform]
  · exact tx.clear.answers hparent
  · rw [CEvoDB.getMemoryUsage, getMemoryUsage, hshows.rootWellFormed.accounted]
    exact Int.toNat_natCast _

namespace Sample

/-- One value type, a byte. -/
def byteCodec : Codec Unit where
  Val := fun _ => UInt8
  encode := fun _ b => [b]
  decode := fun _ bytes => bytes.head?

/-- One block's writes, committed and flushed, then a write that is rolled back. -/
def blockRun : List (EvoOp byteCodec) :=
  [.beginTransaction, .write [1] ⟨(), (7 : UInt8)⟩, .erase [2], .commit, .commitRootTransaction,
    .write [1] ⟨(), (8 : UInt8)⟩, .rollback]

end Sample

open Sample in
theorem transactions_behave_like_one_map_blockRun :
    ∃ e : CEvoDB byteCodec, blockRun.foldlM CEvoDB.step (CEvoDB.fresh .empty) = .ok e ∧
      e.read () [1] = .ok (some (7 : UInt8)) := by
  obtain ⟨e, he⟩ : ∃ e : CEvoDB byteCodec,
      blockRun.foldlM CEvoDB.step (CEvoDB.fresh .empty) = .ok e := ⟨_, rfl⟩
  have h := transactions_behave_like_one_map byteCodec
    (CDBWrapper.answers byteCodec .empty) [] [] .empty blockRun he
  exact ⟨e, he, (h.2.2.2.2.1.read () [1]).trans rfl⟩

end Tecracoin.Db
