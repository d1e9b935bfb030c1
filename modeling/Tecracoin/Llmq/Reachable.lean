/-
  What holds in every state a node can reach.

  `ChainInv` ties the chain to the database and to the cache of answers.  It is
  kept by every step, and a step either leaves the record alone, adds a block
  that obeys the session rule, or takes the top block away (`DbMove`).
-/
import Tecracoin.Llmq.Mined

namespace Tecracoin.Llmq

open Data Eff CBlock List

variable {s t : LlmqState} {env : LlmqEnv} {block genesis : CBlock} {chain : CChain}
  {r : List CQuorum × ManagerState} {params : LLMQParams} {maxCount : Nat} {vtx : List CTransaction}

structure ChainInv (env : LlmqEnv) (s : LlmqState) : Prop where
  nodup : (s.chainActive.map hash).Nodup
  rule : ∀ lower block upper, s.chainActive = lower ++ block :: upper →
    SessionRule env lower block
  db : DbExact env s.chainActive s.db
  cache : CacheOk s.db s.manager.core.processor

lemma chainInv_start
    (hgenesis : blockCommitments env genesis = []) : ChainInv env (.start genesis) where
  nodup := nodup_singleton _
  rule := by
    intro lower block upper hchain
    obtain ⟨rfl, hb⟩ | ⟨-, hb⟩ := append_eq_singleton_iff.mp hchain.symm
    case inr => cases hb
    obtain ⟨rfl, rfl⟩ := List.cons.inj hb
    refine ⟨fun _ => hgenesis, by simp [hgenesis], by simp [hgenesis], ?_⟩
    intro _ type params quorumHash _ hquorum
    exact absurd hquorum (by simp [getQuorumBlockHash, getBlockHash])
  db := by
    have hnone : ∀ qc, ¬Mines env genesis qc := by
      intro qc hmines
      have hmem := hmines.1
      rw [hgenesis] at hmem
      cases hmem
    constructor
    · rintro key qc blockHash
      refine ⟨by rintro ⟨⟩, ?_⟩
      rintro ⟨b, hb, hmines, _⟩
      obtain rfl := mem_singleton.mp hb
      exact absurd hmines (hnone qc)
    · intro type h quorumHeight
      refine ⟨by rintro ⟨⟩, ?_⟩
      rintro ⟨b, qc, params, hb, hmines, _⟩
      obtain rfl := mem_singleton.mp (mem_of_getElem? hb)
      exact absurd hmines (hnone qc)
  cache := nofun

/-! ## The checks before and after `ProcessBlock` -/

/-- A commitment transaction of a block that passes `CheckSpecialTx` is not before the activation
    height and has a payload. -/
lemma commitment_of_checkSpecialTxs {env : BlockEnv}
    (hok : checkSpecialTxs env chain vtx = .ok ()) {tx : CTransaction} (htx : tx ∈ vtx)
    (hversion : tx.nVersion = 3) (htype : tx.nType = .TRANSACTION_QUORUM_COMMITMENT) :
    env.DIP0003Height ≤ chain.length ∧ (env.getTxPayload tx).isSome = true := by
  induction vtx with
  | nil => cases htx
  | cons head vtx ih =>
    obtain ⟨_, hhead, hrest⟩ := except_bind_ok_iff.mp hok
    rcases mem_cons.mp htx with rfl | htx
    · have hspecial : ¬(tx.nVersion ≠ 3 ∨ tx.nType = .TRANSACTION_NORMAL) := by
        rw [hversion, htype]
        decide
      rw [checkSpecialTx, if_neg hspecial, if_pos htype] at hhead
      split at hhead
      · cases hhead
      · rename_i hlow
        rw [checkLLMQCommitment] at hhead
        split at hhead
        · cases hhead
        · rename_i payload hpayload
          rw [hpayload]
          exact ⟨not_lt.mp hlow, rfl⟩
    · exact ih hrest htx

lemma premature_of_checkSpecialTxs {env : BlockEnv} (hok : checkSpecialTxs env chain vtx = .ok ())
    (hlow : chain.length < env.DIP0003Height) : commitmentsOf env vtx = [] := by
  refine filterMap_eq_nil_iff.mpr (fun tx htx => ?_)
  by_cases htype : tx.nType = .TRANSACTION_QUORUM_COMMITMENT
  · -- the transaction passed, so it has no payload
    have hversion : tx.nVersion ≠ 3 := fun hversion =>
      absurd (commitment_of_checkSpecialTxs hok htx hversion htype).1 (not_le.mpr hlow)
    rw [if_pos htype, env.getTxPayload_version tx hversion, Option.map_none]
  · exact if_neg htype

/-- Only the root cache may have changed. -/
def CacheOnly (s t : LlmqState) : Prop := t.chainActive = s.chainActive ∧ t.manager = s.manager

instance : IsPreorder LlmqState CacheOnly where
  refl _ := ⟨rfl, rfl⟩
  trans _ _ _ h h' := ⟨h'.1.trans h.1, h'.2.trans h.2⟩

lemma checkCbTxMerkleRoots_keeps (env : BlockEnv) (block : CBlock) :
    Eff.Keeps CacheOnly (checkCbTxMerkleRoots env block) := by
  unfold checkCbTxMerkleRoots
  split
  · exact keeps_throw
  · split_ifs
    · exact keeps_pure
    · split
      · exact keeps_throw
      · refine keeps_bind keeps_get (fun s => ?_)
        refine keeps_bind keeps_lift (fun _ => ?_)
        refine keeps_when _ ?_
        refine keeps_bind keeps_get (fun s => ?_)
        refine keeps_bind keeps_lift (fun r => ?_)
        refine keeps_bind (keeps_modify (fun s => ⟨rfl, rfl⟩)) (fun _ => ?_)
        exact keeps_bind keeps_failIf (fun _ => keeps_failIf)

/-- A state that differs from `s` in its processor only, past the root cache. -/
def SameBut (s t : LlmqState) (core : ProcessorState) : Prop :=
  t.chainActive = s.chainActive ∧ t.manager = { s.manager with core := core }

/-- The roots are checked after everything else, so their check decides about the postcondition. -/
lemma processSpecialTxsInBlock_rule {env : BlockEnv} {fCheck : Bool} (h : ChainInv env s)
    {Q : Unit → LlmqState → Prop} {E : LlmqState → Prop}
    (hE : ∀ core, CacheOk s.db core.processor → E (s.withCore core))
    (hroots : ∀ core, Accepted env s.chainActive block s.db core →
      Eff.Triple (fun t => t = s.withCore core)
        (when fCheck (checkCbTxMerkleRoots env block)) Q E) :
    Eff.Triple (fun t => t = s) (processSpecialTxsInBlock env block fCheck) Q E := by
  rintro _ rfl
  rename_i s
  rw [processSpecialTxsInBlock, get_bind_apply]
  cases hcheck : checkSpecialTxs env s.chainActive block.vtx with
  | error e => exact hE s.manager.core h.cache
  | ok _ =>
    have hrun := processBlock_triple h.db h.cache
      (premature_of_checkSpecialTxs hcheck) (fun _ _ hcore => hcore) s.manager.core rfl
    rw [lift_ok_bind_apply]
    refine triple_bind (P := fun t => t = s) (Q := fun _ t => ∃ core, t = s.withCore core ∧
      Accepted env s.chainActive block s.db core) ?_ (fun _ => ?_) s rfl
    · intro t ht
      rw [ht, processBlockOn]
      cases hproc : processBlock env s.chainActive block s.manager.core with
      | error e core =>
        rw [hproc] at hrun
        exact hE core hrun
      | ok _ core =>
        rw [hproc] at hrun
        exact ⟨core, rfl, hrun⟩
    · rintro t ⟨core, ht, hcore⟩
      exact hroots core hcore t ht

/-- A refused block leaves nothing behind but cache entries. -/
lemma processSpecialTxsInBlock_triple {env : BlockEnv} (block : CBlock) (fCheck : Bool)
    (h : ChainInv env s) :
    Eff.Triple (fun t => t = s) (processSpecialTxsInBlock env block fCheck)
      (fun _ t => ∃ core, SameBut s t core ∧ Accepted env s.chainActive block s.db core)
      (fun t => ∃ core, SameBut s t core ∧ CacheOk s.db core.processor) := by
  refine processSpecialTxsInBlock_rule h (fun core hcore => ⟨core, ⟨rfl, rfl⟩, hcore⟩) ?_
  rintro core hcore _ rfl
  have hkeeps := keeps_when fCheck (checkCbTxMerkleRoots_keeps env block) (s.withCore core)
  cases hroot : Eff.when fCheck (checkCbTxMerkleRoots env block) (s.withCore core) with
  | error e t =>
    rw [hroot] at hkeeps
    exact ⟨core, ⟨hkeeps.1, hkeeps.2⟩, hcore.old⟩
  | ok _ t =>
    rw [hroot] at hkeeps
    exact ⟨core, ⟨hkeeps.1, hkeeps.2⟩, hcore⟩

/-! ## What the effects of the processor can do -/

section Keeps

variable {R : ProcessorState → ProcessorState → Prop}
  (hremember : ∀ s key, R s (rememberMined s key))

include hremember

lemma keeps_hasMinedCommitment {key : QuorumKey} : Eff.Keeps R (hasMinedCommitment key) := by
  intro s
  rw [hasMinedCommitment_apply]
  exact hremember s key

variable [IsPreorder ProcessorState R]

lemma keeps_isCommitmentRequired (nHeight : Nat) :
    Eff.Keeps R (isCommitmentRequired params chain nHeight) := by
  unfold isCommitmentRequired
  split
  · exact keeps_pure
  · exact keeps_bind (keeps_hasMinedCommitment hremember) (fun _ => keeps_pure)

lemma keeps_getMinableCommitment (nHeight : Nat) :
    Eff.Keeps R (getMinableCommitment params chain nHeight) := by
  refine keeps_bind (keeps_isCommitmentRequired hremember nHeight) (fun required => ?_)
  split
  · exact keeps_pure
  · split
    · exact keeps_pure
    · refine keeps_bind keeps_get (fun s => ?_)
      split
      · exact keeps_pure
      · split
        · exact keeps_throw
        · exact keeps_pure

lemma keeps_checkTypes (qcs : StdMap LLMQType CFinalCommitment) {table : List LLMQParams} :
    Eff.Keeps R (checkTypes chain qcs table) := by
  induction table with
  | nil => exact keeps_pure
  | cons params rest ih =>
    refine keeps_bind ?_ (fun _ => ih)
    refine keeps_bind (keeps_isCommitmentRequired hremember _) (fun required => ?_)
    exact keeps_bind keeps_failIf (fun _ => keeps_failIf)

variable (hstore : ∀ nHeight blockHash params qc s,
  R s (storeCommitment nHeight blockHash params qc s))

include hstore

lemma keeps_processCommitment {blockHash : Uint256} {qc : CFinalCommitment} :
    Eff.Keeps R (processCommitment env chain blockHash qc) := by
  unfold processCommitment
  split
  · exact keeps_throw
  · split_ifs
    · exact keeps_throw
    · exact keeps_failIf
    · refine keeps_bind (keeps_hasMinedCommitment hremember) (fun _ => ?_)
      refine keeps_bind keeps_failIf (fun _ => ?_)
      refine keeps_bind keeps_failIf (fun _ => ?_)
      refine keeps_bind keeps_failIf (fun _ => ?_)
      exact keeps_modify (hstore _ _ _ _)

lemma keeps_processCommitments (blockHash : Uint256) {qcs : List CFinalCommitment} :
    Eff.Keeps R (processCommitments env chain blockHash qcs) := by
  induction qcs with
  | nil => exact keeps_pure
  | cons qc rest ih =>
    exact keeps_bind (keeps_processCommitment hremember hstore) (fun _ => ih)

lemma keeps_processBlock (hbest : ∀ hash s, R s (writeBestBlock hash s)) :
    Eff.Keeps R (processBlock env chain block) := by
  unfold processBlock
  split_ifs
  · exact keeps_modify (hbest _)
  · refine keeps_bind keeps_lift (fun qcs => ?_)
    refine keeps_bind (keeps_checkTypes hremember qcs) (fun _ => ?_)
    exact keeps_bind (keeps_processCommitments hremember hstore block.hash)
      (fun _ => keeps_modify (hbest _))

end Keeps

/-! ## Steps that only read -/

/-- The database is the same, and a cache that agreed with it still does. -/
def Quiet (s t : ProcessorState) : Prop :=
  t.db = s.db ∧ (CacheOk s.db s.processor → CacheOk s.db t.processor)

lemma Quiet.refl (s : ProcessorState) : Quiet s s := ⟨rfl, id⟩

instance : IsPreorder ProcessorState Quiet where
  refl := .refl
  trans s t u h h' := by
    refine ⟨h'.1.trans h.1, fun hcache => ?_⟩
    have hlater := h'.2
    rw [h.1] at hlater
    exact hlater (h.2 hcache)

lemma quiet_rememberMined (s : ProcessorState) (key : QuorumKey) :
    Quiet s (rememberMined s key) :=
  ⟨rfl, fun hcache => cacheOk_rememberMined hcache rfl⟩

lemma quiet_of_cache_eq {s : ProcessorState} {processor : CQuorumBlockProcessor}
    (h : processor.hasMinedCommitmentCache = s.processor.hasMinedCommitmentCache) :
    Quiet s { s with processor := processor } :=
  ⟨rfl, fun hcache key answer hget => hcache key answer (h ▸ hget)⟩

lemma quiet_processMessage {qc : CFinalCommitment}
    {s : ProcessorState} {r : MessageOutcome × CQuorumBlockProcessor}
    (h : processMessage env chain qc s.processor = .ok r) :
    Quiet s { s with processor := r.2 } := by
  apply quiet_of_cache_eq
  unfold processMessage at h
  repeat' split at h
  all_goals first
    | (cases h
       rfl)
    | skip
  obtain ⟨p', hadd, rfl⟩ := except_map_ok_iff.mp h
  exact hasMinedCommitmentCache_addMinableCommitment hadd

lemma getQuorum_core {key : QuorumKey} {s : ManagerState} {r : Option CQuorum × ManagerState}
    (h : getQuorum env key s = .ok r) : r.2.core = rememberMined s.core key := by
  rw [getQuorum, hasMinedCommitment_apply] at h
  simp only at h
  split at h
  · revert h
    fun_cases getMinedQuorum with
    | case1 | case2 =>
      rintro ⟨⟩
      rfl
    | case3 =>
      intro h
      obtain ⟨quorum, _, rfl⟩ := except_map_ok_iff.mp h
      rfl
  · cases h
    rfl

section Scan

variable {P : ProcessorState → StdMap QuorumKey CQuorum → Prop} {s : ManagerState}
  (hget : ∀ key s r, P s.core s.quorumsCache → getQuorum env key s = .ok r →
    P r.2.core r.2.quorumsCache) (hs : P s.core s.quorumsCache)
include hget hs

lemma collectQuorums_keeps {type : LLMQType} {bases : List Uint256}
    (h : collectQuorums env type bases s = .ok r) : P r.2.core r.2.quorumsCache := by
  fun_induction collectQuorums generalizing r with
  | case1 =>
    cases h
    exact hs
  | case2 | case3 => cases h
  | case4 base rest s quorum s1 hfirst ih =>
    obtain ⟨r', hrest, rfl⟩ := except_map_ok_iff.mp h
    have hlast : P r'.2.core r'.2.quorumsCache := ih (hget _ _ _ hs hfirst) hrest
    exact hlast

lemma scanFresh_keeps {pindexStart : CBlock}
    (h : scanFresh env params chain pindexStart maxCount s = .ok r) :
    P r.2.core r.2.quorumsCache := by
  obtain ⟨bases, _, hrest⟩ := except_bind_ok_iff.mp h
  obtain ⟨r', hcollect, hlast⟩ := except_bind_ok_iff.mp hrest
  have hkept : P r'.2.core r'.2.quorumsCache := collectQuorums_keeps hget hs hcollect
  cases hlast
  exact hkept

/-- What every lookup keeps, a scan keeps; its own cache is not looked at. -/
lemma scanQuorums_keeps (h : scanQuorums env params chain maxCount s = .ok r) :
    P r.2.core r.2.quorumsCache := by
  revert h
  fun_cases scanQuorums with
  | case1 => exact nofun
  | case2 =>
    rintro ⟨⟩
    exact hs
  | case3 | case4 => exact scanFresh_keeps hget hs

end Scan

lemma quiet_scanQuorums {s : ManagerState}
    (h : scanQuorums env params chain maxCount s = .ok r) : Quiet s.core r.2.core := by
  refine scanQuorums_keeps (P := fun core _ => Quiet s.core core) ?_ (Quiet.refl _) h
  intro key t r' ht hget
  rw [getQuorum_core hget]
  exact trans_of Quiet ht (quiet_rememberMined _ _)

/-! ## Steps -/

/-- What a step does to the chain and its record. -/
inductive DbMove (env : LlmqEnv) (s t : LlmqState) : LlmqOp → Prop
  | same {op : LlmqOp} : t.chainActive = s.chainActive → t.db = s.db → DbMove env s t op
  | extended {block : CBlock} {fCheck : Bool} :
      block.hash ∉ s.chainActive.map hash → SessionRule env s.chainActive block →
      t.chainActive = s.chainActive ++ [block] → DbMove env s t (.connect block fCheck)
  | shortened {block : CBlock} : s.chainActive = t.chainActive ++ [block] →
      DbMove env s t .disconnect

/-- A step that leaves chain and database alone keeps the invariant. -/
lemma ChainInv.of_quiet (h : ChainInv env s) (hchain : t.chainActive = s.chainActive)
    (hquiet : Quiet s.manager.core t.manager.core) : ChainInv env t := by
  have hdb : t.db = s.db := hquiet.1
  refine ⟨by rw [hchain]; exact h.nodup, by rw [hchain]; exact h.rule, ?_, ?_⟩
  · rw [hchain, hdb]
    exact h.db
  · rw [hdb]
    exact hquiet.2 h.cache

/-- A block that obeys the session rule goes on top. -/
lemma ChainInv.append (h : ChainInv env s) (hnew : block.hash ∉ s.chainActive.map hash)
    (hrule : SessionRule env s.chainActive block)
    (hchain : t.chainActive = s.chainActive ++ [block])
    (hdb : DbExact env (s.chainActive ++ [block]) t.db)
    (hcache : CacheOk t.db t.manager.core.processor) : ChainInv env t where
  nodup := by
    rw [hchain, map_append, map_singleton, nodup_append]
    refine ⟨h.nodup, nodup_singleton _, ?_⟩
    intro hash hhash hash' hhash' heq
    rw [mem_singleton] at hhash'
    exact hnew (hhash' ▸ heq ▸ hhash)
  rule := by
    intro lower b upper hsplit
    rw [hchain] at hsplit
    -- the split is at the new block or below it
    rcases eq_nil_or_concat upper with rfl | ⟨upper', last, rfl⟩
    · obtain ⟨rfl, hb⟩ := append_inj' hsplit rfl
      obtain rfl := (List.cons.inj hb).1
      exact hrule
    · have hsplit' : s.chainActive ++ [block] = (lower ++ b :: upper') ++ [last] := by
        rw [hsplit, append_assoc, cons_append, concat_eq_append]
      exact h.rule lower b upper' (append_inj' hsplit' rfl).1
  db := hchain ▸ hdb
  cache := hcache

lemma ChainInv.dropTop (h : ChainInv env s) (hchain : s.chainActive = t.chainActive ++ [block])
    (hdb : DbExact env t.chainActive t.db)
    (hcache : CacheOk t.db t.manager.core.processor) : ChainInv env t where
  nodup := by
    have hnodup := h.nodup
    rw [hchain, map_append] at hnodup
    exact (nodup_append.mp hnodup).1
  rule := by
    intro lower b upper hsplit
    refine h.rule lower b (upper ++ [block]) ?_
    rw [hchain, hsplit, append_assoc, cons_append]
  db := hdb
  cache := hcache

/-- A block is kept only if it obeys the session rule; otherwise nothing is stored. -/
lemma afterConnect_move {env : BlockEnv} {fCheck keep : Bool}
    (h : ChainInv env s) (hnew : block.hash ∉ s.chainActive.map hash)
    (hs : afterConnect s block keep (processSpecialTxsInBlock env block fCheck s) = some t) :
    ChainInv env t ∧
      ((t.chainActive = s.chainActive ∧ t.db = s.db) ∨
        (keep = true ∧ SessionRule env s.chainActive block ∧
          t.chainActive = s.chainActive ++ [block])) ∧
      t.manager.quorumsCache = s.manager.quorumsCache := by
  have hrun := processSpecialTxsInBlock_triple block fCheck h s rfl
  -- without the block the database is as it was; only caches may have changed
  have hrolled : ∀ u core, SameBut s u core → CacheOk s.db core.processor →
      ChainInv env (u.withDb s.db) ∧
        ((u.withDb s.db).chainActive = s.chainActive ∧ (u.withDb s.db).db = s.db) ∧
        (u.withDb s.db).manager.quorumsCache = s.manager.quorumsCache := by
    intro u core hsame hcache
    refine ⟨h.of_quiet hsame.1 ⟨rfl, fun _ => ?_⟩, ⟨hsame.1, rfl⟩, ?_⟩
    · show CacheOk s.db u.manager.core.processor
      rw [hsame.2]
      exact hcache
    · show u.manager.quorumsCache = s.manager.quorumsCache
      rw [hsame.2]
  cases hres : processSpecialTxsInBlock env block fCheck s with
  | error e u =>
    rw [hres] at hrun hs
    obtain ⟨core, hsame, hcache⟩ := hrun
    cases e with
    | returnsFalse reject =>
      cases hs
      exact (hrolled u core hsame hcache).imp_right (And.imp_left .inl)
    | _ => cases hs
  | ok _ u =>
    rw [hres] at hrun hs
    obtain ⟨core, hsame, hbase, hown, hdb, hrule⟩ := hrun
    cases keep with
    | false =>
      cases hs
      exact (hrolled u core hsame hbase).imp_right (And.imp_left .inl)
    | true =>
      cases hs
      have hcore : u.manager.core = core := by rw [hsame.2]
      refine ⟨h.append hnew hrule rfl ?_ ?_, .inr ⟨rfl, hrule, rfl⟩, ?_⟩
      · rw [LlmqState.db, hcore]
        exact hdb
      · rw [LlmqState.db, hcore]
        exact hown
      · show u.manager.quorumsCache = s.manager.quorumsCache
        rw [hsame.2]

lemma disconnectTip_move (h : ChainInv env s) (hs : disconnectTip env s = some t) :
    ChainInv env t ∧ (∃ block, s.chainActive = t.chainActive ++ [block]) ∧
      t.manager.quorumsCache = s.manager.quorumsCache := by
  unfold disconnectTip at hs
  split at hs
  · cases hs
  · rename_i block hlast
    split at hs
    · cases hs
    · rename_i core hundo
      cases hs
      have hchain : s.chainActive = s.chainActive.dropLast ++ [block] :=
        (dropLast_append_getLast? block hlast).symm
      have hexact := h.db
      rw [hchain] at hexact
      have hrule := h.rule _ block [] hchain
      have hfresh : ∀ qc, Mines env block qc → ¬MinedIn env s.chainActive.dropLast qc.key := by
        intro qc hmines
        obtain ⟨_, _, _, _, hnot⟩ := hrule.ofSession qc hmines.1
        exact hnot
      obtain ⟨hdb, hcache⟩ := undoBlock_ok hexact h.cache hfresh hundo
      exact ⟨h.dropTop hchain hdb hcache, ⟨block, hchain⟩, rfl⟩

lemma finalCore_eq_some {α : Type} {r : EStateM.Result Failure ProcessorState α}
    (h : finalCore s r = some t) : ∃ a core, r = .ok a core ∧ t = s.withCore core := by
  cases r with
  | ok a core => exact ⟨a, core, rfl, (Option.some.inj h).symm⟩
  | error e core => cases h

lemma step_move {env : BlockEnv} {op : LlmqOp} (h : ChainInv env s)
    (hs : step env op s = some t) : ChainInv env t ∧ DbMove env s t op := by
  -- most operations write to caches only
  have hread : t.chainActive = s.chainActive → Quiet s.manager.core t.manager.core →
      ChainInv env t ∧ DbMove env s t op :=
    fun hchain hquiet => ⟨h.of_quiet hchain hquiet, .same hchain hquiet.1⟩
  cases op with
  | connect block fCheck =>
    obtain ⟨hnew, hs⟩ := Option.ite_none_left_eq_some.mp hs
    obtain ⟨hinv, hmove, _⟩ := afterConnect_move h hnew hs
    rcases hmove with ⟨hchain, hdb⟩ | ⟨_, hrule, hchain⟩
    · exact ⟨hinv, .same hchain hdb⟩
    · exact ⟨hinv, .extended hnew hrule hchain⟩
  | tryConnect block fCheck =>
    obtain ⟨hnew, hs⟩ := Option.ite_none_left_eq_some.mp hs
    obtain ⟨hinv, hmove, _⟩ := afterConnect_move h hnew hs
    rcases hmove with ⟨hchain, hdb⟩ | ⟨hkeep, _⟩
    · exact ⟨hinv, .same hchain hdb⟩
    · cases hkeep
  | disconnect =>
    obtain ⟨_, hs⟩ := Option.ite_none_left_eq_some.mp hs
    obtain ⟨hinv, ⟨block, hchain⟩, _⟩ := disconnectTip_move h hs
    exact ⟨hinv, .shortened hchain⟩
  | calcRoot block =>
    obtain ⟨r, _, rfl⟩ := Option.map_eq_some_iff.mp hs
    exact hread rfl (Quiet.refl _)
  | getQuorum key =>
    obtain ⟨r, hr, rfl⟩ := Option.map_eq_some_iff.mp hs
    refine hread rfl ?_
    show Quiet s.manager.core r.2.core
    rw [getQuorum_core (toOption_eq_some_iff.mp hr)]
    exact quiet_rememberMined _ _
  | scanQuorums params nHeight maxCount =>
    obtain ⟨r, hr, rfl⟩ := Option.map_eq_some_iff.mp hs
    exact hread rfl (quiet_scanQuorums (toOption_eq_some_iff.mp hr))
  | evict key =>
    cases hs
    exact hread rfl (Quiet.refl _)
  | hasMinedCommitment key =>
    rw [step, hasMinedCommitment_apply] at hs
    cases hs
    exact hread rfl (quiet_rememberMined _ _)
  | getMinableCommitment params nHeight =>
    obtain ⟨answer, core, hres, rfl⟩ := finalCore_eq_some hs
    exact hread rfl ((keeps_getMinableCommitment quiet_rememberMined nHeight).of_ok hres)
  | message qc =>
    obtain ⟨r, hr, rfl⟩ := Option.map_eq_some_iff.mp hs
    exact hread rfl (quiet_processMessage (toOption_eq_some_iff.mp hr))
  | addMinableCommitment qc =>
    obtain ⟨p, hp, rfl⟩ := Option.map_eq_some_iff.mp hs
    exact hread rfl (quiet_of_cache_eq
      (hasMinedCommitmentCache_addMinableCommitment (toOption_eq_some_iff.mp hp)))

lemma chainInv_of_reaches {env : BlockEnv} {allowed : LlmqOp → LlmqState → Prop}
    (hgenesis : blockCommitments env genesis = [])
    (h : Reaches (step env) allowed (.start genesis) s) : ChainInv env s :=
  h.invariant (chainInv_start hgenesis) (fun _ _ _ hinv _ hs => (step_move hinv hs).1)

end Tecracoin.Llmq
