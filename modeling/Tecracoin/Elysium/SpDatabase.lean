/-
  The database behind `CMPSPInfo` (`sp.cpp`) with all its keys: an entry under
  `'s'` and the identifier, the identifier under `'t'` and the transaction that
  created the property, and the entry an update replaced under `'b'`, the block of
  the update and the identifier.  `popBlock` undoes a block with the help of the
  last ones.

  A block is a list of `putSP` and `updateSP` calls with its hash in them.  Whether
  `popBlock` brings the entries and the index back is settled property by
  property: there is one slot for the entries an update replaces, so that an
  existing property must be updated at most once.
-/
import Tecracoin.Elysium.Properties

namespace Tecracoin.Elysium

open Data StdMap SpEntry List

variable {d : SpDatabase} {w : SpWrite} {b : SpBlock} {info : SpEntry} {v' : SpView}
  {block : Uint256} {p : PropertyId}

/-- The database of `CMPSPInfo`, with the `'t'` and the `'b'` entries. -/
structure SpDatabase extends CMPSPInfo where
  txIndex : StdMap Uint256 PropertyId
  prevSps : StdMap (Uint256 × PropertyId) SpEntry
deriving DecidableEq

/-- An operation of the batch `popBlock` writes. -/
inductive SpBatchOp
  | deleteSp (propertyId : PropertyId)
  | deleteTx (txid : Uint256)
  | putSp (propertyId : PropertyId) (info : SpEntry)
  | deletePrev (block : Uint256) (propertyId : PropertyId)
deriving DecidableEq

namespace SpDatabase

variable (d)

/-- `updateSP`: the entry that is there moves to the key of the block. -/
def updateSP (propertyId : PropertyId) (info : SpEntry) : Option SpDatabase :=
  (d.toCMPSPInfo.updateSP propertyId info).map fun sps =>
    { toCMPSPInfo := sps
      txIndex := d.txIndex
      prevSps := match d.sps.get? propertyId with
        | some old => d.prevSps.set StdMap.unordered (info.updateBlock, propertyId) old
        | none => d.prevSps }

/-- `putSP`: the entry and the index are written whatever was there. -/
def putSP (ecosystem : Nat) (info : SpEntry) : PropertyId × SpDatabase :=
  let put := d.toCMPSPInfo.putSP ecosystem info
  (put.1,
    { toCMPSPInfo := put.2
      txIndex := d.txIndex.set StdMap.unordered info.txid put.1
      prevSps := d.prevSps })

/-! ## `popBlock` -/

/-- What the loop of `popBlock` adds to the batch for one entry; `-3` if there is nothing to go back
    to. -/
def popOps (block : Uint256) (propertyId : PropertyId) (info : SpEntry) :
    Except Int (List SpBatchOp) :=
  if info.updateBlock = block then
    if info.updateBlock = info.creationBlock then
      .ok [.deleteSp propertyId, .deleteTx info.txid]
    else
      match d.prevSps.get? (info.updateBlock, propertyId) with
      | some prev => .ok [.putSp propertyId prev, .deletePrev info.updateBlock propertyId]
      | none => .error (-3)
  else .ok []

/-- One more property is left, unless the block created it. -/
def remains (block : Uint256) (info : SpEntry) : Int :=
  if info.updateBlock = block ∧ info.updateBlock = info.creationBlock then 0 else 1

/-- The loop of `popBlock`: how many properties remain, and the batch. -/
def popLoop (d : SpDatabase) (block : Uint256) :
    List (PropertyId × SpEntry) → Except Int (Int × List SpBatchOp)
  | [] => .ok (0, [])
  | (propertyId, info) :: rest => do
      let ops ← d.popOps block propertyId info
      let (remaining, batch) ← d.popLoop block rest
      pure (remains block info + remaining, ops ++ batch)

/-- What an operation of a batch writes. -/
def applyOp : SpBatchOp → SpDatabase
  | .deleteSp propertyId => { d with sps := d.sps.erase propertyId }
  | .deleteTx txid => { d with txIndex := d.txIndex.erase txid }
  | .putSp propertyId info => { d with sps := d.sps.set CMPTally.ltProperty propertyId info }
  | .deletePrev block propertyId => { d with prevSps := d.prevSps.erase (block, propertyId) }

/-- `popBlock`: the number of properties that remain, or a negative code and the database as it was.
    -/
def popBlock (block : Uint256) : Int × SpDatabase :=
  match d.popLoop block d.sps.entries with
  | .ok (remaining, batch) => (remaining, batch.foldl applyOp d)
  | .error code => (code, d)

end SpDatabase

/-! ## What the keys are bound to -/

/-- An entry that a call has written: by `putSP` or by `updateSP`. -/
structure SpWrite where
  creates : Bool
  property : PropertyId
  info : SpEntry

/-- The three kinds of keys as functions. -/
structure SpView where
  sps : PropertyId → Option SpEntry
  tx : Uint256 → Option PropertyId
  prev : Uint256 → PropertyId → Option SpEntry

namespace SpView

variable (v : SpView)

/-- What one write changes. -/
def write (w : SpWrite) : SpView where
  sps := Function.update v.sps w.property (some w.info)
  tx := if w.creates then Function.update v.tx w.info.txid (some w.property) else v.tx
  prev := fun block p =>
    if w.creates = false ∧ block = w.info.updateBlock ∧ p = w.property then
      (v.sps p).or (v.prev block p)
    else v.prev block p

/-- What several writes change. -/
def writeAll (ws : List SpWrite) : SpView := ws.foldl write v

/-- The block created the entry: `popBlock` deletes it. -/
def CreatedIn (block : Uint256) (info : SpEntry) : Prop :=
  info.updateBlock = block ∧ info.creationBlock = block

instance (block : Uint256) (info : SpEntry) : Decidable (CreatedIn block info) :=
  inferInstanceAs (Decidable (_ ∧ _))

/-- What `popBlock` makes of an entry. -/
def rolledBack (block : Uint256) (p : PropertyId) (info : SpEntry) : Option SpEntry :=
  if info.updateBlock = block then
    if info.creationBlock = block then none else v.prev block p
  else some info

/-- Every entry the block has updated has one to go back to. -/
def CanPop (block : Uint256) : Prop :=
  ∀ p info, v.sps p = some info → info.updateBlock = block → info.creationBlock ≠ block →
    v.prev block p ≠ none

/-- The index entry belongs to a property that `popBlock` deletes. -/
def Unlinked (block : Uint256) (txid : Uint256) : Prop :=
  ∃ p info, v.sps p = some info ∧ CreatedIn block info ∧ info.txid = txid

/-- What `popBlock` changes, apart from the keys of the block itself. -/
structure Popped (block : Uint256) (v v' : SpView) : Prop where
  sps : ∀ p, v'.sps p = (v.sps p).bind (v.rolledBack block p)
  unlinked : ∀ txid, v.Unlinked block txid → v'.tx txid = none
  tx : ∀ txid, ¬v.Unlinked block txid → v'.tx txid = v.tx txid
  prev : ∀ other p, other ≠ block → v'.prev other p = v.prev other p

end SpView

open SpView

namespace SpDatabase

def view (d : SpDatabase) : SpView where
  sps := d.sps.get?
  tx := d.txIndex.get?
  prev := fun block p => d.prevSps.get? (block, p)

/-! ### The loop of `popBlock` -/

section
variable {d0 d1 d' : SpDatabase} {es : List (PropertyId × SpEntry)} {code : Int}

/-- Some entries have been rolled back: `d0` has become `d'`. -/
structure Undone (d : SpDatabase) (block : Uint256) (es : List (PropertyId × SpEntry))
    (d0 d' : SpDatabase) : Prop where
  sps : ∀ p, p ∉ es.map Prod.fst → d'.sps.get? p = d0.sps.get? p
  rolled : ∀ e ∈ es, d'.sps.get? e.1 = d.view.rolledBack block e.1 e.2
  tx : ∀ txid, d'.txIndex.get? txid
    = if ∃ e ∈ es, CreatedIn block e.2 ∧ e.2.txid = txid then none
      else d0.txIndex.get? txid
  prev : ∀ other p, other ≠ block → d'.prevSps.get? (other, p) = d0.prevSps.get? (other, p)

lemma Undone.nil : Undone d block [] d0 d0 where
  sps := fun _ _ => rfl
  rolled := by simp
  tx := by simp
  prev := fun _ _ _ => rfl

lemma Undone.append {es' : List (PropertyId × SpEntry)} (h : Undone d block es d0 d1)
    (h' : Undone d block es' d1 d') (hdisjoint : ∀ p ∈ es.map Prod.fst, p ∉ es'.map Prod.fst) :
    Undone d block (es ++ es') d0 d' where
  sps := by
    intro p hp
    rw [map_append, mem_append, not_or] at hp
    rw [h'.sps p hp.2, h.sps p hp.1]
  rolled := by
    intro e he
    rcases mem_append.mp he with he | he
    · rw [h'.sps e.1 (hdisjoint e.1 (mem_map_of_mem he)), h.rolled e he]
    · exact h'.rolled e he
  tx := by
    intro txid
    rw [h'.tx, h.tx, ← ite_or]
    simp only [mem_append, or_and_right, exists_or, or_comm]
  prev := by
    intro other p hother
    rw [h'.prev other p hother, h.prev other p hother]

/-- One property is undone. -/
lemma Undone.single (hsps : ∀ q, q ≠ p → d'.sps.get? q = d0.sps.get? q)
    (hrolled : d'.sps.get? p = d.view.rolledBack block p info)
    (htx : ∀ txid, d'.txIndex.get? txid
      = if CreatedIn block info ∧ info.txid = txid then none else d0.txIndex.get? txid)
    (hprev : ∀ other q, other ≠ block → d'.prevSps.get? (other, q) = d0.prevSps.get? (other, q)) :
    Undone d block [(p, info)] d0 d' where
  sps := by simpa using hsps
  rolled := by simpa using hrolled
  tx := by simpa using htx
  prev := hprev

lemma undone_popOps {ops : List SpBatchOp} (hops : d.popOps block p info = .ok ops)
    (hinfo : d0.sps.get? p = some info) : Undone d block [(p, info)] d0 (ops.foldl applyOp d0) := by
  revert hops
  fun_cases popOps with
  | case1 hupdate hcreation =>
    -- the block created the property
    rintro ⟨⟩
    have hcreated : CreatedIn block info := ⟨hupdate, hcreation ▸ hupdate⟩
    refine .single (fun q hq => get?_erase_of_ne hq) ?_ (fun txid => ?_) (fun _ _ _ => rfl)
    · rw [rolledBack, if_pos hcreated.1, if_pos hcreated.2]
      exact get?_erase_self
    · split_ifs with htx
      · rw [← htx.2]
        exact get?_erase_self
      · exact get?_erase_of_ne (fun h => htx ⟨hcreated, h.symm⟩)
  | case2 hupdate hcreation old hprev =>
    -- the block updated it
    rintro ⟨⟩
    have hnot : info.creationBlock ≠ block := fun h => hcreation (hupdate.trans h.symm)
    refine .single (fun q hq => get?_set_of_ne hq) ?_ (fun txid => ?_) (fun other q hother => ?_)
    · rw [rolledBack, if_pos hupdate, if_neg hnot]
      rw [hupdate] at hprev
      exact get?_set_self.trans hprev.symm
    · exact (if_neg (fun h => hnot h.1.2)).symm
    · have hkey : (other, q) ≠ (info.updateBlock, p) :=
        fun h => hother ((Prod.ext_iff.mp h).1.trans hupdate)
      exact get?_erase_of_ne hkey
  | case3 => simp
  | case4 hupdate =>
    rintro ⟨⟩
    refine .single (fun _ _ => rfl) ?_ (fun txid => ?_) (fun _ _ _ => rfl)
    · rw [rolledBack, if_neg hupdate]
      exact hinfo
    · exact (if_neg (fun h => hupdate h.1.1)).symm

/-- The loop has nothing to go back to for an updated entry without a slot. -/
lemma popOps_error_iff :
    d.popOps block p info = .error code ↔ (info.updateBlock = block ∧
      info.creationBlock ≠ block ∧ d.view.prev block p = none) ∧ code = -3 := by
  have hview : d.view.prev block p = d.prevSps.get? (block, p) := rfl
  rw [popOps, hview]
  split_ifs with hupdate hcreation
  · simp [← hcreation, hupdate]
  · subst hupdate
    cases d.prevSps.get? (info.updateBlock, p) <;> simp [Ne.symm hcreation, eq_comm]
  · simp [hupdate]

lemma popLoop_error_iff :
    d.popLoop block es = .error code ↔ ∃ e ∈ es, d.popOps block e.1 e.2 = .error code := by
  induction es with
  | nil => simp [popLoop]
  | cons e es ih =>
    rw [exists_mem_cons_iff, ← ih, popLoop]
    cases hops : d.popOps block e.1 e.2 with
    | ok ops => cases d.popLoop block es <;> simp [bind, Except.bind, pure, Except.pure]
    | error c =>
      change (.error c : Except Int (Int × List SpBatchOp)) = .error code ↔ _
      rw [Except.error.injEq, Except.error.injEq]
      refine ⟨.inl, fun h => h.elim id (fun hrest => ?_)⟩
      -- all errors have the same code
      obtain ⟨e', -, hops'⟩ := ih.mp hrest
      rw [(popOps_error_iff.mp hops).2, (popOps_error_iff.mp hops').2]

lemma remains_nonneg : 0 ≤ remains block info := by
  unfold remains
  split <;> decide

/-- The loop rolls back the entries it has seen. -/
lemma undone_popLoop {n : Int} {batch : List SpBatchOp}
    (hloop : d.popLoop block es = .ok (n, batch)) (hnodup : (es.map Prod.fst).Nodup)
    (hes : ∀ e ∈ es, d0.sps.get? e.1 = some e.2) :
    0 ≤ n ∧ Undone d block es d0 (batch.foldl applyOp d0) := by
  induction es generalizing n batch d0 with
  | nil =>
    cases hloop
    exact ⟨le_refl _, Undone.nil⟩
  | cons e es ih =>
    obtain ⟨p, info⟩ := e
    obtain ⟨ops, hops, hloop⟩ := except_bind_ok_iff.mp hloop
    obtain ⟨⟨m, batch'⟩, hrest, hlast⟩ := except_bind_ok_iff.mp hloop
    cases hlast
    rw [map_cons, nodup_cons] at hnodup
    have hhead := undone_popOps hops (hes (p, info) (.head _))
    have htail : ∀ e ∈ es, (ops.foldl applyOp d0).sps.get? e.1 = some e.2 := by
      intro e he
      have hne : e.1 ∉ [(p, info)].map Prod.fst := by
        simp only [map_cons, map_nil, mem_singleton]
        intro h
        have hkey : e.1 ∈ es.map Prod.fst := mem_map_of_mem he
        exact hnodup.1 (h ▸ hkey)
      rw [hhead.sps e.1 hne]
      exact hes e (.tail _ he)
    obtain ⟨hm, hundone⟩ := ih hrest hnodup.2 htail
    have hremains : 0 ≤ remains block info := remains_nonneg
    refine ⟨by omega, ?_⟩
    rw [foldl_append]
    refine hhead.append hundone ?_
    simp only [map_cons, map_nil, mem_singleton, forall_eq]
    exact hnodup.1

end

lemma popBlock_spec (h : d.view.CanPop block) :
    0 ≤ (d.popBlock block).1 ∧ Popped block d.view (d.popBlock block).2.view := by
  have hes : ∀ e ∈ d.sps.entries, d.sps.get? e.1 = some e.2 :=
    fun e he => get?_eq_some_iff.mpr he
  obtain ⟨n, batch, hloop⟩ : ∃ n batch, d.popLoop block d.sps.entries = .ok (n, batch) := by
    cases hloop : d.popLoop block d.sps.entries with
    | ok r => exact ⟨r.1, r.2, rfl⟩
    | error code =>
      -- an error means an updated entry without an older one
      obtain ⟨e, he, hops⟩ := popLoop_error_iff.mp hloop
      obtain ⟨⟨hupdate, hcreation, hprev⟩, -⟩ := popOps_error_iff.mp hops
      exact absurd hprev (h e.1 e.2 (hes e he) hupdate hcreation)
  obtain ⟨hn, hundone⟩ := undone_popLoop hloop d.sps.nodupKeys hes
  have hpop : d.popBlock block = (n, batch.foldl applyOp d) := by rw [popBlock, hloop]
  rw [hpop]
  refine ⟨hn, ?_, ?_, ?_, ?_⟩
  · intro p
    cases hp : d.sps.get? p with
    | none =>
      have hnone : p ∉ d.sps.entries.map Prod.fst := get?_eq_none_iff.mp hp
      show (batch.foldl applyOp d).sps.get? p = (d.sps.get? p).bind _
      rw [hundone.sps p hnone, hp]
      rfl
    | some info =>
      have hmem : (p, info) ∈ d.sps.entries := get?_eq_some_iff.mp hp
      show (batch.foldl applyOp d).sps.get? p = (d.sps.get? p).bind _
      rw [hundone.rolled (p, info) hmem, hp]
      rfl
  · rintro txid ⟨p, info, hp, hcreated, rfl⟩
    exact (hundone.tx _).trans (if_pos ⟨(p, info), get?_eq_some_iff.mp hp, hcreated, rfl⟩)
  · intro txid hlinked
    refine (hundone.tx txid).trans (if_neg ?_)
    rintro ⟨e, he, hcreated, htx⟩
    exact hlinked ⟨e.1, e.2, hes e he, hcreated, htx⟩
  · exact hundone.prev

lemma popBlock_of_not (h : ¬d.view.CanPop block) : d.popBlock block = (-3, d) := by
  unfold CanPop at h
  push Not at h
  obtain ⟨p, info, hp, hupdate, hcreation, hprev⟩ := h
  rw [popBlock, popLoop_error_iff.mpr ⟨(p, info), get?_eq_some_iff.mp hp,
    popOps_error_iff.mpr ⟨⟨hupdate, hcreation, hprev⟩, rfl⟩⟩]

end SpDatabase

/-! ## Blocks -/

/-- A call of `putSP` or `updateSP`. -/
inductive SpCall
  | put (ecosystem : Nat) (info : SpEntry)
  | update (propertyId : PropertyId) (info : SpEntry)

/-- The entry of a call carries the hash of the block, a new one as the block of its creation as
    well. -/
def SpCall.Stamped (block : Uint256) : SpCall → Prop
  | .put _ info => info.updateBlock = block ∧ info.creationBlock = block
  | .update _ info => info.updateBlock = block

/-- The calls of one block. -/
structure SpBlock where
  hash : Uint256
  calls : List SpCall
  stamped : ∀ c ∈ calls, c.Stamped hash

open SpBlock

/-- The entry of a write carries the hash, as that of a call does. -/
def SpWrite.Stamped (block : Uint256) (w : SpWrite) : Prop :=
  w.info.updateBlock = block ∧ (w.creates = true → w.info.creationBlock = block)

namespace SpDatabase

variable (d)

/-- The database after a call. -/
def applyCall : SpCall → SpDatabase
  | .put ecosystem info => (d.putSP ecosystem info).2
  | .update propertyId info => (d.updateSP propertyId info).getD d

/-- What a call writes; nothing for the two implied properties. -/
def written : SpCall → List SpWrite
  | .put ecosystem info => [⟨true, (d.putSP ecosystem info).1, info⟩]
  | .update propertyId info =>
    if propertyId = ELYSIUM_PROPERTY_ELYSIUM ∨ propertyId = ELYSIUM_PROPERTY_TELYSIUM then []
    else [⟨false, propertyId, info⟩]

/-- The writes of some calls, in their order. -/
def log (d : SpDatabase) : List SpCall → List SpWrite
  | [] => []
  | c :: cs => d.written c ++ (d.applyCall c).log cs

/-- The database after a block. -/
def connect (b : SpBlock) : SpDatabase := b.calls.foldl applyCall d

lemma get?_set_eq_update {K V : Type} [DecidableEq K] (lt : K → K → Bool) (m : StdMap K V) (k : K)
    (x : V) : (m.set lt k x).get? = Function.update m.get? k (some x) := by
  funext k'
  by_cases hk : k' = k
  · subst hk
    simp
  · rw [get?_set_of_ne hk, Function.update_of_ne hk]

lemma prev_updateSP (q : PropertyId) :
    (match d.sps.get? p with
      | some old => d.prevSps.set StdMap.unordered (info.updateBlock, p) old
      | none => d.prevSps).get? (block, q)
      = if block = info.updateBlock ∧ q = p then
          (d.sps.get? q).or (d.prevSps.get? (block, q))
        else d.prevSps.get? (block, q) := by
  by_cases hkey : block = info.updateBlock ∧ q = p
  · obtain ⟨rfl, rfl⟩ := hkey
    rw [if_pos ⟨rfl, rfl⟩]
    cases d.sps.get? q <;> simp
  · have hne : (block, q) ≠ (info.updateBlock, p) :=
      fun h => hkey ⟨(Prod.ext_iff.mp h).1, (Prod.ext_iff.mp h).2⟩
    rw [if_neg hkey]
    cases d.sps.get? p with
    | none => rfl
    | some old => exact get?_set_of_ne hne

/-- A call changes the keys as what it writes says. -/
lemma view_applyCall {c : SpCall} : (d.applyCall c).view = d.view.writeAll (d.written c) := by
  cases c with
  | put ecosystem info =>
    have hsps : (d.toCMPSPInfo.putSP ecosystem info).2.sps
        = d.sps.set CMPTally.ltProperty (d.toCMPSPInfo.putSP ecosystem info).1 info := by
      unfold CMPSPInfo.putSP
      split_ifs <;> rfl
    show SpView.mk _ _ _ = SpView.mk _ _ _
    congr 1
    · show (d.toCMPSPInfo.putSP ecosystem info).2.sps.get? = _
      rw [hsps, get?_set_eq_update]
      rfl
    · exact get?_set_eq_update ..
  | update p info =>
    rw [applyCall, updateSP, CMPSPInfo.updateSP, written]
    split_ifs with himplied
    · rfl
    · show SpView.mk _ _ _ = SpView.mk _ _ _
      congr 1
      · exact get?_set_eq_update ..
      · funext block q
        refine (prev_updateSP d q).trans ?_
        simp only [true_and]
        rfl

lemma view_foldl_applyCall (cs : List SpCall) :
    (cs.foldl applyCall d).view = d.view.writeAll (d.log cs) := by
  induction cs generalizing d with
  | nil => rfl
  | cons c cs ih =>
    rw [foldl_cons, ih, view_applyCall, log, writeAll, writeAll,
      writeAll, foldl_append]

variable {d} in
lemma stamped_log {cs : List SpCall}
    (hcs : ∀ c ∈ cs, c.Stamped block) : ∀ w ∈ d.log cs, w.Stamped block := by
  induction cs generalizing d with
  | nil => simp [log]
  | cons c cs ih =>
    intro w hw
    rw [log, mem_append] at hw
    rcases hw with hw | hw
    · have hc := hcs c (.head _)
      cases c with
      | put ecosystem info =>
        rw [written, mem_singleton] at hw
        subst hw
        exact ⟨hc.1, fun _ => hc.2⟩
      | update propertyId info =>
        rw [written] at hw
        split_ifs at hw
        · cases hw
        · rw [mem_singleton] at hw
          subst hw
          exact ⟨hc, nofun⟩
    · exact ih (forall_mem_cons.mp hcs).2 w hw

end SpDatabase

namespace SpView

variable {v : SpView} {ws : List SpWrite}

lemma writeAll_snoc : v.writeAll (ws ++ [w]) = (v.writeAll ws).write w := by
  simp [writeAll]

/-- The writes that concern a property. -/
def on (p : PropertyId) (ws : List SpWrite) : List SpWrite := ws.filter (fun w => w.property = p)

/-- The creations that index a transaction. -/
def indexing (txid : Uint256) (ws : List SpWrite) : List SpWrite :=
  ws.filter (fun w => w.creates ∧ w.info.txid = txid)

lemma on_snoc_self (h : w.property = p) : on p (ws ++ [w]) = on p ws ++ [w] := by
  simp [on, h]

lemma on_snoc_of_ne (h : w.property ≠ p) : on p (ws ++ [w]) = on p ws := by
  simp [on, h]

/-- The entry of a property is the one written last. -/
lemma sps_writeAll :
    (v.writeAll ws).sps p = ((on p ws).getLast?.map SpWrite.info).or (v.sps p) := by
  induction ws using List.reverseRecOn with
  | nil => rfl
  | append_singleton ws w ih =>
    rw [writeAll_snoc, write]
    by_cases hw : w.property = p
    · rw [on_snoc_self hw, ← hw]
      simp
    · rw [on_snoc_of_ne hw, ← ih]
      exact Function.update_of_ne (Ne.symm hw) _ _

/-- The index entry of a transaction is the one written last. -/
lemma tx_writeAll {txid : Uint256} :
    (v.writeAll ws).tx txid =
      ((indexing txid ws).getLast?.map SpWrite.property).or (v.tx txid) := by
  induction ws using List.reverseRecOn with
  | nil => rfl
  | append_singleton ws w ih =>
    rw [writeAll_snoc, write]
    by_cases hw : w.creates = true ∧ w.info.txid = txid
    · have hindexing : indexing txid (ws ++ [w]) = indexing txid ws ++ [w] := by
        simp [indexing, hw.1, hw.2]
      rw [hindexing, ← hw.2]
      simp [hw.1]
    · have hindexing : indexing txid (ws ++ [w]) = indexing txid ws := by
        simp only [indexing, filter_append, filter_cons, filter_nil]
        simp [hw]
      rw [hindexing, ← ih]
      by_cases hcreates : w.creates = true
      · have hne : txid ≠ w.info.txid := fun h => hw ⟨hcreates, h.symm⟩
        simp only [hcreates, if_true]
        exact Function.update_of_ne hne _ _
      · simp [hcreates]

/-- The slot of an update that comes last holds what was there before it. -/
lemma prev_writeAll {before : List SpWrite} (hws : ∀ w ∈ ws, w.Stamped block)
    (hon : on p ws = before ++ [w]) (hupdates : w.creates = false) :
    ∃ rest, (v.writeAll ws).prev block p
      = ((before.getLast?.map SpWrite.info).or (v.sps p)).or rest := by
  induction ws using List.reverseRecOn with
  | nil => simp [on] at hon
  | append_singleton ws u ih =>
    rw [writeAll_snoc, write]
    have hu : u.Stamped block := hws u (by simp)
    by_cases hp : u.property = p
    · rw [on_snoc_self hp] at hon
      obtain ⟨hbefore, hlast⟩ := append_inj' hon rfl
      have huw : u = w := by simpa using hlast
      refine ⟨(v.writeAll ws).prev block p, ?_⟩
      dsimp only
      rw [if_pos ⟨huw ▸ hupdates, hu.1.symm, hp.symm⟩, sps_writeAll, hbefore]
    · rw [on_snoc_of_ne hp] at hon
      dsimp only
      rw [if_neg (fun h => hp h.2.2.symm)]
      exact ih (fun w hw => hws w (mem_append_left _ hw)) hon

lemma prev_writeAll_of_ne (hws : ∀ w ∈ ws, w.Stamped block) {other : Uint256}
    (hother : other ≠ block) : (v.writeAll ws).prev other p = v.prev other p := by
  induction ws using List.reverseRecOn with
  | nil => rfl
  | append_singleton ws u ih =>
    have hu : u.Stamped block := hws u (by simp)
    rw [writeAll_snoc, write]
    dsimp only
    rw [if_neg (fun h => hother (h.2.1.trans hu.1))]
    exact ih (fun w hw => hws w (mem_append_left _ hw))

/-! ### One block -/

/-- No entry carries the hash of the block yet. -/
def Fresh (v : SpView) (block : Uint256) : Prop :=
  ∀ p info, v.sps p = some info → info.updateBlock ≠ block

/-- The writes of a block on one property can be undone: the last one names the block as the creator
    of a property that did not exist, or it is the only one on a property that did. -/
def UndoableOn (v : SpView) (block : Uint256) (ws : List SpWrite) (p : PropertyId) : Prop :=
  ∀ w, (on p ws).getLast? = some w →
    if w.info.creationBlock = block then v.sps p = none else v.sps p ≠ none ∧ on p ws = [w]

/-- The transaction is the one of a property the block has created, as it was written last. -/
def Unlinks (block : Uint256) (ws : List SpWrite) (txid : Uint256) : Prop :=
  ∃ w, (on w.property ws).getLast? = some w ∧ w.info.creationBlock = block ∧ w.info.txid = txid

/-- The writes of a block on the index can be undone: the transactions of created properties had no
    entry, and no other entry is changed. -/
def UndoableIndex (v : SpView) (block : Uint256) (ws : List SpWrite) (txid : Uint256) : Prop :=
  (Unlinks block ws txid → v.tx txid = none) ∧
    (¬Unlinks block ws txid →
      ∀ w, (indexing txid ws).getLast? = some w → v.tx txid = some w.property)

lemma mem_of_getLast?_on (h : (on p ws).getLast? = some w) : w ∈ ws ∧ w.property = p := by
  have hmem := mem_of_getLast? h
  simpa [on] using hmem

section
variable (hfresh : v.Fresh block)
include hfresh

/-- An entry with the hash is one the block has written last. -/
lemma sps_writeAll_updated (hinfo : (v.writeAll ws).sps p = some info)
    (hupdate : info.updateBlock = block) : ∃ w, (on p ws).getLast? = some w ∧ w.info = info := by
  rw [sps_writeAll] at hinfo
  cases hlast : (on p ws).getLast? with
  | none =>
    rw [hlast] at hinfo
    exact absurd hupdate (hfresh p info hinfo)
  | some w =>
    rw [hlast] at hinfo
    exact ⟨w, rfl, by simpa using hinfo⟩

section
variable (hws : ∀ w ∈ ws, w.Stamped block)
include hws

lemma unlinked_writeAll_iff (txid : Uint256) :
    (v.writeAll ws).Unlinked block txid ↔ Unlinks block ws txid := by
  constructor
  · rintro ⟨p, info, hinfo, ⟨hupdate, hcreation⟩, htx⟩
    obtain ⟨w, hw, rfl⟩ := sps_writeAll_updated hfresh hinfo hupdate
    have hp := (mem_of_getLast?_on hw).2
    subst hp
    exact ⟨w, hw, hcreation, htx⟩
  · rintro ⟨w, hw, hcreation, htx⟩
    refine ⟨w.property, w.info, ?_, ⟨?_, hcreation⟩, htx⟩
    · rw [sps_writeAll, hw]
      rfl
    · exact (hws w (mem_of_getLast?_on hw).1).1

/-- One property comes back if and only if its writes can be undone. -/
lemma rolledBack_writeAll_iff (p : PropertyId) :
    ((∀ info, (v.writeAll ws).sps p = some info → info.updateBlock = block →
        info.creationBlock ≠ block → (v.writeAll ws).prev block p ≠ none) ∧
      ((v.writeAll ws).sps p).bind ((v.writeAll ws).rolledBack block p) = v.sps p) ↔
      v.UndoableOn block ws p := by
  cases hlast : (on p ws).getLast? with
  | none =>
    -- the block has not touched the property
    have hsame : (v.writeAll ws).sps p = v.sps p := by rw [sps_writeAll, hlast]; rfl
    rw [hsame]
    refine iff_of_true ⟨?_, ?_⟩ ?_
    · exact fun info hinfo hupdate => absurd hupdate (hfresh p info hinfo)
    · cases hp : v.sps p with
      | none => rfl
      | some info => exact if_neg (hfresh p info hp)
    · intro w hw
      rw [hlast] at hw
      cases hw
  | some w =>
    obtain ⟨hmem, -⟩ := mem_of_getLast?_on hlast
    have hupdate : w.info.updateBlock = block := (hws w hmem).1
    have hentry : (v.writeAll ws).sps p = some w.info := by rw [sps_writeAll, hlast]; rfl
    have hundoable : v.UndoableOn block ws p ↔
        if w.info.creationBlock = block then v.sps p = none
        else v.sps p ≠ none ∧ on p ws = [w] := by
      simp [UndoableOn, hlast]
    rw [hundoable, hentry, Option.bind_some, rolledBack, if_pos hupdate]
    by_cases hcreation : w.info.creationBlock = block
    · -- the property is deleted
      simp [hcreation, eq_comm]
    · -- the property gets back what is in the slot
      rw [if_neg hcreation, if_neg hcreation]
      have hupdates : w.creates = false := by
        by_contra hcreates
        exact hcreation ((hws w hmem).2 (by simpa using hcreates))
      obtain ⟨before, hon⟩ := getLast?_eq_some_iff.mp hlast
      obtain ⟨rest, hslot⟩ := prev_writeAll hws hon hupdates
      have hslots : (∀ info, some w.info = some info → info.updateBlock = block →
          info.creationBlock ≠ block → (v.writeAll ws).prev block p ≠ none) ↔
          (v.writeAll ws).prev block p ≠ none := by
        constructor
        · exact fun h => h w.info rfl hupdate hcreation
        · exact fun h _ _ _ _ => h
      rw [hslots]
      cases hp : v.sps p with
      | none => simp
      | some old =>
        have hold : old.updateBlock ≠ block := hfresh p old hp
        rw [hslot, hp]
        cases hbefore : before.getLast? with
        | none =>
          have hnil : before = [] := getLast?_eq_none_iff.mp hbefore
          simp [hon, hnil]
        | some u =>
          -- the slot holds what an earlier write of the block has left
          have hu : u ∈ on p ws := hon ▸ mem_append_left _ (mem_of_getLast? hbefore)
          have hstamp : u.info.updateBlock = block := (hws u (mem_of_mem_filter hu)).1
          have hne : u.info ≠ old := fun h => hold (h ▸ hstamp)
          have hlong : before ++ [w] ≠ [w] := by
            intro h
            have hnil : before = [] := by simpa using h
            rw [hnil] at hbefore
            cases hbefore
          simp [hne, hon, hlong]

/-- One index entry comes back if and only if its writes can be undone. -/
lemma tx_writeAll_iff (h : Popped block (v.writeAll ws) v') (txid : Uint256) :
    v'.tx txid = v.tx txid ↔ v.UndoableIndex block ws txid := by
  have hunlinked := unlinked_writeAll_iff hfresh hws txid
  by_cases hunlinks : Unlinks block ws txid
  · rw [h.unlinked txid (hunlinked.mpr hunlinks)]
    simp [UndoableIndex, hunlinks, eq_comm]
  · rw [h.tx txid (fun hu => hunlinks (hunlinked.mp hu)), tx_writeAll]
    simp only [UndoableIndex, hunlinks, false_implies, not_false_eq_true, true_and, true_implies]
    cases hlast : (indexing txid ws).getLast? with
    | none => simp
    | some w => simp [eq_comm]

end

end

/-- The two agree in all that `popBlock` of the block looks at. -/
structure Like (block : Uint256) (v v' : SpView) : Prop where
  sps : v.sps = v'.sps
  tx : v.tx = v'.tx
  prev : v.prev block = v'.prev block

lemma Like.canPop_iff (h : Like block v v') : v.CanPop block ↔ v'.CanPop block := by
  unfold CanPop
  rw [h.sps, h.prev]

/-- Up to the slots of other blocks, views that are alike are popped alike. -/
lemma Like.popped {v1 : SpView} (h : Like block v v1) (hpop : Popped block v v') :
    Popped block v1 { v' with prev := v1.prev } := by
  have hrolled : v.rolledBack block = v1.rolledBack block := by
    funext p info
    rw [rolledBack, rolledBack, h.prev]
  have hunlinked (txid : Uint256) : v.Unlinked block txid ↔ v1.Unlinked block txid := by
    unfold Unlinked
    rw [h.sps]
  constructor
  · intro p
    rw [← h.sps, ← hrolled]
    exact hpop.sps p
  · exact fun txid hu => hpop.unlinked txid ((hunlinked txid).mpr hu)
  · intro txid hu
    rw [← h.tx]
    exact hpop.tx txid (fun hv => hu ((hunlinked txid).mp hv))
  · exact fun _ _ _ => rfl

end SpView

namespace SpDatabase

/-- The same entry for every property and the same index. -/
def SameContent (d d' : SpDatabase) : Prop :=
  d.view.sps = d'.view.sps ∧ d.view.tx = d'.view.tx

/-- What the calls of a block write can be undone, from the database before it. -/
structure Undoable (d : SpDatabase) (b : SpBlock) : Prop where
  property : ∀ p, d.view.UndoableOn b.hash (d.log b.calls) p
  index : ∀ txid, d.view.UndoableIndex b.hash (d.log b.calls) txid

lemma view_connect : (d.connect b).view = d.view.writeAll (d.log b.calls) :=
  view_foldl_applyCall d b.calls

/-- Popping a block, from a database that is like the one after the block, brings back the one
    before it if and only if the writes can be undone. -/
lemma popBlock_restores_iff {d1 : SpDatabase} (hfresh : d.view.Fresh b.hash)
    (hlike : Like b.hash d1.view (d.connect b).view) :
    (0 ≤ (d1.popBlock b.hash).1 ∧ SameContent (d1.popBlock b.hash).2 d) ↔ d.Undoable b := by
  have hws : ∀ w ∈ d.log b.calls, w.Stamped b.hash := stamped_log b.stamped
  rw [view_connect] at hlike
  have hproperty := rolledBack_writeAll_iff hfresh hws
  by_cases hcan : d1.view.CanPop b.hash
  · obtain ⟨hcount, hpop⟩ := popBlock_spec hcan
    have hpop' := hlike.popped hpop
    have hcan' := hlike.canPop_iff.mp hcan
    have htx := tx_writeAll_iff hfresh hws hpop'
    constructor
    · rintro ⟨-, hsps, hindex⟩
      refine ⟨fun p => (hproperty p).mp ⟨hcan' p, ?_⟩, fun txid => (htx txid).mp ?_⟩
      · rw [← hpop'.sps p]
        exact congrFun hsps p
      · exact congrFun hindex txid
    · intro h
      refine ⟨hcount, ?_, ?_⟩
      · funext p
        exact (hpop'.sps p).trans ((hproperty p).mpr (h.property p)).2
      · funext txid
        exact (htx txid).mpr (h.index txid)
  · rw [popBlock_of_not hcan]
    refine iff_of_false (fun h => absurd h.1 (by simp)) (fun h => hcan ?_)
    exact hlike.canPop_iff.mpr (fun p => ((hproperty p).mpr (h.property p)).1)

/-! ### Many blocks -/

/-- The database after some blocks. -/
def connectBlocks (d : SpDatabase) (blocks : List SpBlock) : SpDatabase := blocks.foldl connect d

/-- `popBlock` for one block after another, as long as the count is not negative. -/
def popBlocks (d : SpDatabase) : List Uint256 → Option SpDatabase
  | [] => some d
  | block :: rest =>
    if 0 ≤ (d.popBlock block).1 then (d.popBlock block).2.popBlocks rest else none

section
variable {d' : SpDatabase} {hashes : List Uint256}

lemma popBlocks_append {hashes' : List Uint256} :
    d.popBlocks (hashes ++ hashes') =
      (d.popBlocks hashes).bind (fun d' => d'.popBlocks hashes') := by
  induction hashes generalizing d with
  | nil => rfl
  | cons block rest ih =>
    rw [cons_append, popBlocks, popBlocks]
    split
    · exact ih
    · rfl

lemma prev_popBlocks (h : d.popBlocks hashes = some d') (hblock : block ∉ hashes) :
    d'.view.prev block = d.view.prev block := by
  induction hashes generalizing d with
  | nil =>
    cases h
    rfl
  | cons other rest ih =>
    rw [mem_cons, not_or] at hblock
    rw [popBlocks] at h
    split_ifs at h with hcount
    have hcan : d.view.CanPop other := by
      by_contra hnot
      rw [popBlock_of_not hnot] at hcount
      exact absurd hcount (by simp)
    rw [ih h hblock.2]
    funext p
    exact (popBlock_spec hcan).2.prev block p hblock.1

lemma prev_connectBlocks {blocks : List SpBlock} (hblock : block ∉ blocks.map hash) :
    (d.connectBlocks blocks).view.prev block = d.view.prev block := by
  induction blocks generalizing d with
  | nil => rfl
  | cons b rest ih =>
    rw [map_cons, mem_cons, not_or] at hblock
    refine (ih hblock.2).trans ?_
    funext p
    rw [view_connect]
    exact prev_writeAll_of_ne (stamped_log b.stamped) hblock.1

/-- A block puts no hash but its own into the entries. -/
lemma fresh_connect (hfresh : d.view.Fresh block) (hne : block ≠ b.hash) :
    (d.connect b).view.Fresh block := by
  intro p info hinfo hupdate
  rw [view_connect] at hinfo
  obtain ⟨w, hw, rfl⟩ := sps_writeAll_updated hfresh hinfo hupdate
  have hstamp := stamped_log b.stamped w (mem_of_getLast?_on hw).1
  exact hne (hupdate.symm.trans hstamp.1)

end

/-- Popping the blocks from the tip down to the `k`-th brings back the state before that. -/
def RestoresAt (d : SpDatabase) (blocks : List SpBlock) (k : Nat) : Prop :=
  ∃ d', (d.connectBlocks blocks).popBlocks ((blocks.drop k).reverse.map hash) = some d' ∧
    d'.SameContent (d.connectBlocks (blocks.take k))

/-- The first block comes back last, after those above it have. -/
lemma restoresAt_zero_iff {rest : List SpBlock}
    (hfresh : d.view.Fresh b.hash) (hnew : b.hash ∉ rest.map hash)
    (hrest : (d.connect b).RestoresAt rest 0) : d.RestoresAt (b :: rest) 0 ↔ d.Undoable b := by
  obtain ⟨d1, hpop, hsame⟩ := hrest
  have hlike : Like b.hash d1.view (d.connect b).view := by
    refine ⟨hsame.1, hsame.2, ?_⟩
    rw [prev_popBlocks hpop (by simpa using hnew), prev_connectBlocks hnew]
  have hhashes : ((b :: rest).drop 0).reverse.map hash
      = (rest.drop 0).reverse.map hash ++ [b.hash] := by
    simp
  have hall : (d.connectBlocks (b :: rest)).popBlocks (((b :: rest).drop 0).reverse.map hash)
      = if 0 ≤ (d1.popBlock b.hash).1 then some (d1.popBlock b.hash).2 else none := by
    rw [hhashes, popBlocks_append]
    show (((d.connect b).connectBlocks rest).popBlocks _).bind _ = _
    rw [hpop]
    rfl
  rw [← popBlock_restores_iff hfresh hlike, RestoresAt, hall]
  split_ifs with hcount
  · simp [hcount, connectBlocks]
  · simp [hcount]

/-- Blocks of distinct hashes that no entry carries are undone from the tip downward, each down to
    the state before it, if and only if the writes of each can be undone. -/
theorem popBlocks_restore_iff (d : SpDatabase) (blocks : List SpBlock)
    (hdistinct : (blocks.map hash).Nodup) (hfresh : ∀ b ∈ blocks, d.view.Fresh b.hash) :
    (∀ k ≤ blocks.length, d.RestoresAt blocks k) ↔
      ∀ k b, blocks[k]? = some b → (d.connectBlocks (blocks.take k)).Undoable b := by
  induction blocks generalizing d with
  | nil =>
    refine iff_of_true ?_ (by simp)
    intro k _
    exact ⟨d, by simp [popBlocks, connectBlocks], by simp [connectBlocks, SameContent]⟩
  | cons b rest ih =>
    rw [map_cons, nodup_cons] at hdistinct
    have hrest := ih (d.connect b) hdistinct.2 (fun b' hb' =>
      fresh_connect (hfresh b' (.tail _ hb'))
        (fun h => hdistinct.1 (h ▸ mem_map_of_mem hb')))
    have hzero := restoresAt_zero_iff (hfresh b (.head _)) hdistinct.1
    constructor
    · intro h
      have habove : ∀ k ≤ rest.length, (d.connect b).RestoresAt rest k :=
        fun k hk => h (k + 1) (Nat.succ_le_succ hk)
      intro k b' hb'
      cases k with
      | zero =>
        have hbb : b = b' := by simpa using hb'
        exact hbb ▸ (hzero (habove 0 (Nat.zero_le _))).mp (h 0 (Nat.zero_le _))
      | succ k => exact hrest.mp habove k b' hb'
    · intro h
      have habove := hrest.mpr (fun k b' hb' => h (k + 1) b' hb')
      intro k hk
      cases k with
      | zero => exact (hzero (habove 0 (Nat.zero_le _))).mpr (h 0 b rfl)
      | succ k => exact habove k (Nat.le_of_succ_le_succ hk)

/-! ### Two updates in one block -/

/-- A database with property 3, created by block 1. -/
def oneProperty : SpDatabase where
  toCMPSPInfo := (CMPSPInfo.initial []).putSP ELYSIUM_PROPERTY_ELYSIUM
    { null with creationBlock := 1, updateBlock := 1, txid := 7 } |>.2
  txIndex := StdMap.empty.set StdMap.unordered 7 3
  prevSps := .empty

/-- Block 2 updates the property `n` times, each time with other tokens. -/
def updatingBlock (n : Nat) : SpBlock where
  hash := 2
  calls := (List.range n).map fun i => .update 3
    { null with creationBlock := 1, updateBlock := 2, txid := 7, numTokens := i + 1 }
  stamped := forall_mem_map.mpr (fun _ _ => rfl)

lemma fresh_oneProperty : oneProperty.view.Fresh 2 := by
  intro p info hinfo
  have hmem := get?_eq_some_iff.mp hinfo
  have hentries : ∀ e ∈ oneProperty.sps.entries, e.2.updateBlock ≠ 2 := by decide +kernel
  exact hentries _ hmem

/-- A block whose only write is an update of an existing property. -/
lemma undoable_of_single_update (hlog : d.log b.calls = [w]) (hupdates : w.creates = false)
    (hcreation : w.info.creationBlock ≠ b.hash) (hexists : d.view.sps w.property ≠ none) :
    d.Undoable b := by
  have hlast {p : PropertyId} {u : SpWrite} (hu : (on p [w]).getLast? = some u) :
      u = w ∧ w.property = p := by
    have hmem := mem_of_getLast?_on hu
    have huw : u = w := by simpa using hmem.1
    exact ⟨huw, huw ▸ hmem.2⟩
  constructor
  · intro p u hu
    rw [hlog] at hu ⊢
    obtain ⟨rfl, rfl⟩ := hlast hu
    rw [if_neg hcreation]
    exact ⟨hexists, by simp [on]⟩
  · intro txid
    have hunlinks : ¬Unlinks b.hash (d.log b.calls) txid := by
      rintro ⟨u, hu, hblock, -⟩
      rw [hlog] at hu
      obtain ⟨rfl, -⟩ := hlast hu
      exact hcreation hblock
    refine ⟨fun h => absurd h hunlinks, fun _ u hu => ?_⟩
    simp [hlog, indexing, hupdates] at hu

/-- One update is undone. -/
theorem popBlocks_restore_one_update : oneProperty.RestoresAt [updatingBlock 1] 0 := by
  have hdistinct : ([updatingBlock 1].map hash).Nodup := nodup_singleton _
  have hfresh : ∀ b ∈ [updatingBlock 1], oneProperty.view.Fresh b.hash := by
    intro b hb
    rw [mem_singleton.mp hb]
    exact fresh_oneProperty
  refine (popBlocks_restore_iff oneProperty _ hdistinct hfresh).mpr ?_ 0 (Nat.zero_le _)
  intro k b hb
  cases k with
  | zero =>
    have hb : updatingBlock 1 = b := by simpa using hb
    subst hb
    exact undoable_of_single_update rfl rfl (by decide) (by decide +kernel)
  | succ k => simp at hb

/-- Two updates are not undone: the slot holds what the first one wrote. -/
theorem popBlocks_keeps_first_update : ¬oneProperty.RestoresAt [updatingBlock 2] 0 := by
  rintro ⟨d', hpop, hsame, -⟩
  have hkept : ((oneProperty.connectBlocks [updatingBlock 2]).popBlocks [2]).map
      (fun d => (d.sps.get? 3).map numTokens) = some (some 1) := by
    decide +kernel
  have hbefore : (oneProperty.sps.get? 3).map numTokens = some 0 := by decide +kernel
  have hsps : d'.sps.get? 3 = oneProperty.sps.get? 3 := congrFun hsame 3
  have hpop : (oneProperty.connectBlocks [updatingBlock 2]).popBlocks [2] = some d' := hpop
  rw [hpop, Option.map_some, hsps, hbefore] at hkept
  exact absurd hkept (by decide)

end SpDatabase

end Tecracoin.Elysium
