/-
  `CDBTransaction` of `dbwrapper.h`: writes and erases held back in front of a
  parent store until they are committed or dropped.

  A transaction keeps the value objects themselves, each under the C++ type it
  was written with, and checks that type with a `dynamic_cast` when the value
  is read back; a store on disk keeps bytes and decodes them at whatever type
  the reader asks for.  Both kinds of content are a `Cell`, so what a store
  shows is one partial map from keys to cells whatever the number of layers.
-/
import Tecracoin.Consensus.Params
import Tecracoin.Data.PartialMap

namespace Tecracoin.Db

open Data StdMap PartialMap List

/-- A serialised key, `CDataStream`. -/
abbrev Key := List UInt8

/-- `DataStreamCmp::less`: `std::lexicographical_compare` on the bytes. -/
def less : Key → Key → Bool
  | [], [] => false
  | [], _ :: _ => true
  | _ :: _, [] => false
  | a :: as, b :: bs => if a < b then true else if b < a then false else less as bs

/-- The value types of a store, with their serialisation. -/
structure Codec (T : Type) where
  Val : T → Type
  encode : (t : T) → Val t → List UInt8
  decode : (t : T) → List UInt8 → Option (Val t)

variable {T : Type}

/-- `ValueHolderImpl<V>`: a value and the type it was written with. -/
abbrev ValueHolder (C : Codec T) := (t : T) × C.Val t

/-- `ValueHolder::memoryUsage`, which is `GetSerializeSize` of the value. -/
def ValueHolder.memoryUsage {C : Codec T} (v : ValueHolder C) : Nat := (C.encode v.1 v.2).length

/-- What a store holds under a key. -/
inductive Cell (C : Codec T)
  /-- A pending value. -/
  | held (v : ValueHolder C)
  /-- Bytes on disk. -/
  | stored (bytes : List UInt8)

/-- Read a cell at type `t`. A pending value of another type is an exception; bytes that do not
    decode are reported as absent. -/
def readCell [DecidableEq T] (C : Codec T) (t : T) :
    Option (Cell C) → Except Failure (Option (C.Val t))
  | none => .ok none
  | some (.stored bytes) => .ok (C.decode t bytes)
  | some (.held v) =>
    if h : v.1 = t then .ok (some (h ▸ v.2))
    else .error (.throws "Read called with V != previously written type")

/-- `Read` and `Exists` of a store answer from the map `u`. -/
structure Answers [DecidableEq T] (C : Codec T)
    (read : (t : T) → Key → Except Failure (Option (C.Val t))) (keyExists : Key → Bool)
    (u : PartialMap Key (Cell C)) : Prop where
  read : ∀ t k, read t k = readCell C t (u k)
  keyExists : ∀ k, keyExists k = (u k).isSome

structure CDBTransaction (C : Codec T) where
  writes : StdMap Key (ValueHolder C)
  deletes : StdMap Key Unit
  memoryUsage : Int

namespace CDBTransaction

variable {C : Codec T} {tx : CDBTransaction C} {parent : PartialMap Key (Cell C)}

def empty : CDBTransaction C := ⟨.empty, .empty, 0⟩

section

variable (tx : CDBTransaction C)

def write (ssKey : Key) (v : ValueHolder C) : CDBTransaction C :=
  let memoryUsage :=
    if tx.deletes.contains ssKey then tx.memoryUsage - ssKey.length else tx.memoryUsage
  let memoryUsage := match tx.writes.get? ssKey with
    | some old => memoryUsage - (ssKey.length + old.memoryUsage)
    | none => memoryUsage
  { writes := tx.writes.set less ssKey v
    deletes := tx.deletes.erase ssKey
    memoryUsage := memoryUsage + (ssKey.length + v.memoryUsage) }

def erase (ssKey : Key) : CDBTransaction C :=
  let memoryUsage := match tx.writes.get? ssKey with
    | some old => tx.memoryUsage - (ssKey.length + old.memoryUsage)
    | none => tx.memoryUsage
  { writes := tx.writes.erase ssKey
    deletes := tx.deletes.insert less ssKey ()
    memoryUsage :=
      if tx.deletes.contains ssKey then memoryUsage else memoryUsage + ssKey.length }

/-- `Read`, over the parent's `Read`. -/
def read [DecidableEq T] (parentRead : (t : T) → Key → Except Failure (Option (C.Val t)))
    (tx : CDBTransaction C) (t : T) (ssKey : Key) : Except Failure (Option (C.Val t)) :=
  if tx.deletes.contains ssKey then .ok none
  else
    match tx.writes.get? ssKey with
    | some v =>
      if h : v.1 = t then .ok (some (h ▸ v.2))
      else .error (.throws "Read called with V != previously written type")
    | none => parentRead t ssKey

/-- `Exists`, over the parent's `Exists`. -/
def keyExists (parentExists : Key → Bool) (tx : CDBTransaction C) (ssKey : Key) : Bool :=
  if tx.deletes.contains ssKey then false
  else if tx.writes.contains ssKey then true
  else parentExists ssKey

def clear (_ : CDBTransaction C) : CDBTransaction C := empty

/-- `Commit`, for any target with its own `Erase` and `Write`. -/
def commit {τ : Type} (targetErase : τ → Key → τ) (targetWrite : τ → Key → ValueHolder C → τ)
    (tx : CDBTransaction C) (target : τ) : τ × CDBTransaction C :=
  let target := tx.deletes.keys.foldl targetErase target
  let target := tx.writes.entries.foldl (fun target p => targetWrite target p.1 p.2) target
  (target, tx.clear)

def isClean : Bool := tx.writes.entries.isEmpty && tx.deletes.entries.isEmpty

/-- `GetMemoryUsage`: a negative sum would be reported as 0. -/
def getMemoryUsage : Nat := tx.memoryUsage.toNat

/-! ## What a transaction shows -/

/-- The contents seen through a transaction in front of the parent's contents. -/
def view (parent : PartialMap Key (Cell C)) : PartialMap Key (Cell C) :=
  fun k =>
    if tx.deletes.contains k then none else ((tx.writes.get? k).map Cell.held).or (parent k)

/-- A transaction answers from what it shows, when its parent does. -/
lemma answers [DecidableEq T] {parent : PartialMap Key (Cell C)}
    {parentRead : (t : T) → Key → Except Failure (Option (C.Val t))} {parentExists : Key → Bool}
    (h : Answers C parentRead parentExists parent) (tx : CDBTransaction C) :
    Answers C (tx.read parentRead) (tx.keyExists parentExists) (tx.view parent) where
  read := by
    intro t k
    unfold read view
    split
    · rfl
    · cases tx.writes.get? k with
      | none => exact h.read t k
      | some v => rfl
  keyExists := by
    intro k
    unfold keyExists view
    split
    · rfl
    · unfold StdMap.contains
      cases tx.writes.get? k with
      | none => exact h.keyExists k
      | some v => rfl

lemma view_write (k : Key) (v : ValueHolder C) :
    (tx.write k v).view parent = Function.update (tx.view parent) k (some (.held v)) := by
  refine Function.eq_update_iff.mpr ⟨by simp [view, write], fun k' hk => ?_⟩
  have hdeletes : (tx.write k v).deletes.contains k' = tx.deletes.contains k' :=
    contains_erase_of_ne hk
  have hwrites : (tx.write k v).writes.get? k' = tx.writes.get? k' := get?_set_of_ne hk
  rw [view, view, hdeletes, hwrites]

lemma view_erase (k : Key) :
    (tx.erase k).view parent = Function.update (tx.view parent) k none := by
  refine Function.eq_update_iff.mpr ⟨by simp [view, erase], fun k' hk => ?_⟩
  have hdeletes : (tx.erase k).deletes.contains k' = tx.deletes.contains k' :=
    contains_insert_of_ne _ hk
  have hwrites : (tx.erase k).writes.get? k' = tx.writes.get? k' := get?_erase_of_ne hk
  rw [view, view, hdeletes, hwrites]

/-! ## The two containers and the size count -/

/-- Key and value sizes of the pending writes, key sizes of the pending erases. -/
def pendingSize : Nat :=
  tx.writes.sum (fun k v => k.length + v.memoryUsage) + tx.deletes.sum (fun k _ => k.length)

end

/-- No key is written and erased, and the count is the size of what is pending. -/
structure WellFormed (tx : CDBTransaction C) : Prop where
  disjoint : ∀ k, tx.deletes.contains k = true → tx.writes.get? k = none
  accounted : tx.memoryUsage = tx.pendingSize

lemma wellFormed_empty : (empty : CDBTransaction C).WellFormed :=
  ⟨fun _ _ => rfl, rfl⟩

/-- What the entry under a key adds to a total. -/
lemma sum_split {V : Type} (f : Key → V → Nat) (m : StdMap Key V) (k : Key) :
    m.sum f = ((m.get? k).elim 0 (f k)) + (m.erase k).sum f := by
  cases h : m.get? k with
  | none => simp [erase_of_get?_none h]
  | some v => exact sum_of_get? f h

lemma WellFormed.write (h : tx.WellFormed) (k : Key) (v : ValueHolder C) :
    (tx.write k v).WellFormed where
  disjoint := by
    intro k' hk'
    by_cases hk : k' = k
    · subst hk
      simp [CDBTransaction.write] at hk'
    · rw [CDBTransaction.write, contains_erase_of_ne hk] at hk'
      rw [CDBTransaction.write, get?_set_of_ne hk]
      exact h.disjoint k' hk'
  accounted := by
    have hcount := h.accounted
    rw [pendingSize, sum_split _ tx.writes k, sum_split _ tx.deletes k] at hcount
    simp only [CDBTransaction.write, pendingSize, StdMap.sum_set]
    cases hw : tx.writes.get? k <;> cases hd : tx.deletes.get? k
    all_goals
      simp only [hw, hd, Option.elim] at hcount
      simp only [StdMap.contains, hd, Option.isSome, Bool.false_eq_true, if_false, if_true]
      omega

lemma WellFormed.erase (h : tx.WellFormed) (k : Key) : (tx.erase k).WellFormed where
  disjoint := by
    intro k' hk'
    by_cases hk : k' = k
    · subst hk
      simp [CDBTransaction.erase]
    · rw [CDBTransaction.erase, contains_insert_of_ne _ hk] at hk'
      rw [CDBTransaction.erase, get?_erase_of_ne hk]
      exact h.disjoint k' hk'
  accounted := by
    have hcount := h.accounted
    rw [pendingSize, sum_split _ tx.writes k, sum_split _ tx.deletes k] at hcount
    simp only [CDBTransaction.erase, pendingSize, StdMap.insert]
    cases hw : tx.writes.get? k <;> cases hd : tx.deletes.get? k
    all_goals
      simp only [hw, hd, Option.elim] at hcount
      simp only [StdMap.contains, hd, Option.isSome, Bool.false_eq_true, if_false, if_true,
        StdMap.sum_set, sum_split (fun k (_ : Unit) => k.length) tx.deletes k, Option.elim]
      omega

/-! ## Sequences of operations -/

/-- One operation that changes a transaction. -/
inductive Op (C : Codec T)
  | write (ssKey : Key) (v : ValueHolder C)
  | erase (ssKey : Key)

def Op.key : Op C → Key
  | .write k _ => k
  | .erase k => k

/-- What a key holds after the operation on it. -/
def Op.cell : Op C → Option (Cell C)
  | .write _ v => some (.held v)
  | .erase _ => none

def perform (tx : CDBTransaction C) : Op C → CDBTransaction C
  | .write k v => tx.write k v
  | .erase k => tx.erase k

/-- A parent's contents overlaid with the last write or erase of each key. -/
def overlay (parent : PartialMap Key (Cell C)) (ops : List (Op C)) : PartialMap Key (Cell C) :=
  fun k =>
    match ops.reverse.find? (fun op => decide (op.key = k)) with
    | some op => op.cell
    | none => parent k

lemma overlay_snoc {ops : List (Op C)} {op : Op C} :
    overlay parent (ops ++ [op]) = Function.update (overlay parent ops) op.key op.cell := by
  funext k
  by_cases hk : k = op.key
  · subst hk
    simp [overlay]
  · have hne : op.key ≠ k := fun h => hk h.symm
    simp [overlay, hne, Function.update_of_ne hk]

lemma view_perform {op : Op C} :
    (tx.perform op).view parent = Function.update (tx.view parent) op.key op.cell := by
  cases op with
  | write k v => exact view_write tx k v
  | erase k => exact view_erase tx k

lemma WellFormed.perform (h : tx.WellFormed) (op : Op C) : (tx.perform op).WellFormed := by
  cases op with
  | write k v => exact h.write k v
  | erase k => exact h.erase k

/-- A transaction after a sequence of operations shows the overlay. -/
lemma view_foldl_perform (ops : List (Op C)) :
    (ops.foldl perform empty).view parent = overlay parent ops := by
  induction ops using reverseRecOn with
  | nil => rfl
  | append_singleton ops op ih =>
    rw [foldl_append, foldl_cons, foldl_nil, view_perform, ih, overlay_snoc]

lemma wellFormed_foldl_perform {ops : List (Op C)} :
    (ops.foldl perform (empty : CDBTransaction C)).WellFormed :=
  foldlRecOn _ _ wellFormed_empty (fun _ h op _ => h.perform op)

/-! ## Commit -/

/-- Committing to a target whose `Erase` and `Write` change one key each makes the target show what
    the transaction shows in front of it. -/
lemma shows_commit {τ : Type} (targetErase : τ → Key → τ)
    (targetWrite : τ → Key → ValueHolder C → τ) (shows : τ → PartialMap Key (Cell C))
    (toCell : ValueHolder C → Cell C)
    (herase : ∀ s k, shows (targetErase s k) = Function.update (shows s) k none)
    (hwrite : ∀ s k v, shows (targetWrite s k v) = Function.update (shows s) k (some (toCell v)))
    (h : tx.WellFormed) (target : τ) (k : Key) :
    shows (tx.commit targetErase targetWrite target).1 k =
      if tx.deletes.contains k then none
      else ((tx.writes.get? k).map toCell).or (shows target k) := by
  have hkeys : (tx.writes.entries.map (fun e => (e.1, toCell e.2))).map Prod.fst
      = tx.writes.keys := by
    simp [StdMap.keys]
  have hnodup : ((tx.writes.entries.map (fun e => (e.1, toCell e.2))).map Prod.fst).Nodup :=
    hkeys ▸ tx.writes.nodupKeys
  -- first the pending erases, then the pending writes
  have hcommit : shows (tx.commit targetErase targetWrite target).1 =
      ((shows target).without tx.deletes.keys).extend
        (tx.writes.entries.map (fun e => (e.1, toCell e.2))) := by
    rw [← foldl_update_some hnodup, ← foldl_update_none, foldl_map,
      foldl_hom shows (fun s k => (herase s k).symm),
      foldl_hom shows (fun s e => (hwrite s e.1 e.2).symm)]
    rfl
  rw [hcommit]
  cases hw : tx.writes.get? k with
  | none =>
    have hk : k ∉ tx.writes.keys := get?_eq_none_iff.mp hw
    rw [extend_of_notMem (hkeys ▸ hk)]
    by_cases hd : tx.deletes.contains k = true
    · rw [without_of_mem (contains_iff.mp hd), if_pos hd]
    · rw [without_of_notMem (fun hmem => hd (contains_iff.mpr hmem)), if_neg hd]
      rfl
  | some v =>
    -- a written key is not erased, so the write decides
    have hd : tx.deletes.contains k ≠ true := fun hd => by
      rw [h.disjoint k hd] at hw
      cases hw
    have hmem : (k, toCell v) ∈ tx.writes.entries.map (fun e => (e.1, toCell e.2)) :=
      mem_map.mpr ⟨(k, v), get?_eq_some_iff.mp hw, rfl⟩
    rw [extend_of_nodup hnodup hmem, if_neg hd]
    rfl

lemma view_commit (h : tx.WellFormed) (target : CDBTransaction C)
    (parent : PartialMap Key (Cell C)) :
    (tx.commit erase write target).1.view parent = tx.view (target.view parent) := by
  funext k
  exact shows_commit erase write (fun s => view s parent) Cell.held
    view_erase view_write h target k

lemma WellFormed.commit {target : CDBTransaction C} (h : target.WellFormed)
    (tx : CDBTransaction C) :
    (tx.commit CDBTransaction.erase CDBTransaction.write target).1.WellFormed := by
  have hdeletes : (tx.deletes.keys.foldl CDBTransaction.erase target).WellFormed :=
    foldlRecOn _ _ h (fun _ hs k _ => hs.erase k)
  exact foldlRecOn _ _ hdeletes (fun _ hs e _ => hs.write e.1 e.2)

end CDBTransaction

end Tecracoin.Db
