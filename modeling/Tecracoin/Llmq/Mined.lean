/-
  What the evo database says about the active chain.

  An accepted block obeys the session rule relative to the blocks below it:
  it carries one commitment for each type that is due and none besides.  The
  database holds the non-null commitments of the chain, and the cache of
  answers agrees with it.  The three are kept together by every step
  (`ChainInv`), since each decision of the code rests on all of them.
-/
import Tecracoin.Llmq.Node

namespace Tecracoin.Llmq

open Data StdMap Eff List

variable {s s' : ProcessorState} {env : LlmqEnv} {base db : QuorumDb} {chain : CChain}
  {qc : CFinalCommitment} {h nHeight : Nat} {key : QuorumKey} {block : CBlock}
  {qcs : List CFinalCommitment} {done : List LLMQType} {type : LLMQType} {params : LLMQParams}
  {E : ProcessorState → Prop}

/-! ## The commitments of a block -/

/-- The commitments carried by a list of transactions, in block order. -/
def commitmentsOf (env : LlmqEnv) (vtx : List CTransaction) : List CFinalCommitment :=
  vtx.filterMap (fun tx =>
    if tx.nType = .TRANSACTION_QUORUM_COMMITMENT then
      (env.getTxPayload tx).map CFinalCommitmentTxPayload.commitment
    else none)

def blockCommitments (env : LlmqEnv) (block : CBlock) : List CFinalCommitment :=
  commitmentsOf env block.vtx

/-- The block carries `qc`, and it is not a null commitment. -/
def Mines (env : LlmqEnv) (block : CBlock) (qc : CFinalCommitment) : Prop :=
  qc ∈ blockCommitments env block ∧ qc.isNull = false

/-- Some block of the chain mines a commitment for the quorum. -/
def MinedIn (env : LlmqEnv) (chain : CChain) (key : QuorumKey) : Prop :=
  ∃ block ∈ chain, ∃ qc, Mines env block qc ∧ qc.key = key

/-- `qcs` is the map of a list of commitments by their types. -/
structure ByType (qcs : StdMap LLMQType CFinalCommitment) (cs : List CFinalCommitment) : Prop where
  mem : ∀ type qc, qcs.get? type = some qc ↔ qc ∈ cs ∧ qc.llmqType = type
  nodup : (cs.map CFinalCommitment.llmqType).Nodup

lemma collectCommitments_ok {vtx : List CTransaction}
    {ret ret' : StdMap LLMQType CFinalCommitment} {cs : List CFinalCommitment}
    (hret : ByType ret cs) (h : collectCommitments env vtx ret = .ok ret') :
    ByType ret' (cs ++ commitmentsOf env vtx) := by
  fun_induction collectCommitments generalizing cs with
  | case1 =>
    cases h
    simpa [commitmentsOf] using hret
  | case2 | case3 => cases h
  | case4 tx vtx ret htype payload hpayload hnew ih =>
    rw [Bool.not_eq_true] at hnew
    have hfree : ∀ qc ∈ cs, qc.llmqType ≠ payload.commitment.llmqType := by
      intro qc hqc heq
      cases hnew.symm.trans (contains_of_get? ((hret.mem _ _).mpr ⟨hqc, heq⟩))
    have hcons : commitmentsOf env (tx :: vtx) = payload.commitment :: commitmentsOf env vtx := by
      simp [commitmentsOf, htype, hpayload]
    rw [hcons, append_cons]
    refine ih ⟨fun type qc => ?_, ?_⟩ h
    · rw [insert_of_not_contains hnew, get?_eq_some_iff, mem_entries_set, ← get?_eq_some_iff,
        hret.mem, mem_append, mem_singleton, Prod.mk.injEq]
      grind
    · rw [map_append, map_singleton, nodup_append]
      exact ⟨hret.nodup, nodup_singleton _, by simpa using hfree⟩
  | case5 tx vtx ret htype ih =>
    have hskip : commitmentsOf env (tx :: vtx) = commitmentsOf env vtx := by
      simp [commitmentsOf, htype]
    rw [hskip]
    exact ih hret h

lemma byType_of_getCommitmentsFromBlock {qcs : StdMap LLMQType CFinalCommitment}
    (h : getCommitmentsFromBlock env block nHeight = .ok qcs) :
    ByType qcs (blockCommitments env block) := by
  obtain ⟨ret, hret, hrest⟩ := except_bind_ok_iff.mp h
  split at hrest
  · cases hrest
  · cases hrest
    have hempty : ByType .empty [] := ⟨by simp, by simp⟩
    exact collectCommitments_ok hempty hret

namespace ByType

variable {qcs : StdMap LLMQType CFinalCommitment} {cs : List CFinalCommitment}

lemma mem_values (h : ByType qcs cs) : qc ∈ qcs.entries.map Prod.snd ↔ qc ∈ cs := by
  constructor
  · intro hqc
    obtain ⟨e, he, rfl⟩ := mem_map.mp hqc
    exact ((h.mem e.1 e.2).mp (get?_eq_some_iff.mpr he)).1
  · intro hqc
    have hget := (h.mem qc.llmqType qc).mpr ⟨hqc, rfl⟩
    exact mem_map.mpr ⟨(qc.llmqType, qc), get?_eq_some_iff.mp hget, rfl⟩

lemma contains_iff (h : ByType qcs cs) :
    qcs.contains type = true ↔ ∃ qc ∈ cs, qc.llmqType = type := by
  rw [StdMap.contains, Option.isSome_iff_exists]
  constructor
  · rintro ⟨qc, hqc⟩
    obtain ⟨hmem, htype⟩ := (h.mem _ _).mp hqc
    exact ⟨qc, hmem, htype⟩
  · rintro ⟨qc, hmem, htype⟩
    exact ⟨qc, (h.mem _ _).mpr ⟨hmem, htype⟩⟩

/-- The values stand under their own types, so their types are distinct too. -/
lemma nodup_values (h : ByType qcs cs) :
    ((qcs.entries.map Prod.snd).map CFinalCommitment.llmqType).Nodup := by
  have hkeys : (qcs.entries.map Prod.snd).map CFinalCommitment.llmqType
      = qcs.entries.map Prod.fst := by
    rw [map_map]
    refine map_congr_left (fun e he => ?_)
    exact ((h.mem e.1 e.2).mp (get?_eq_some_iff.mpr he)).2
  rw [hkeys]
  exact qcs.nodupKeys

end ByType

/-! ## The cache of answers -/

/-- Every cached answer is the one the database would give. -/
def CacheOk (db : QuorumDb) (p : CQuorumBlockProcessor) : Prop :=
  ∀ key answer, p.hasMinedCommitmentCache.get? key = some answer →
    answer = db.minedCommitment.contains key

section

variable (hcache : CacheOk base s.processor)
  (hagree : s.db.minedCommitment.get? key = base.minedCommitment.get? key)
include hcache hagree

/-- The answer is the database's when the cached one is that of a database that agrees on the key.
    -/
lemma minedAnswer_eq : minedAnswer s key = base.minedCommitment.contains key := by
  rw [minedAnswer]
  cases hget : s.processor.hasMinedCommitmentCache.get? key with
  | some answer => exact hcache key answer hget
  | none => rw [Option.getD_none, StdMap.contains, hagree, StdMap.contains]

lemma cacheOk_rememberMined : CacheOk base (rememberMined s key).processor := by
  refine forall_insert hcache ?_
  rw [StdMap.contains, hagree, StdMap.contains]

end

/-- A commitment of the type is due for the next block, by the database. -/
def Required (chain : CChain) (db : QuorumDb) (params : LLMQParams) : Prop :=
  ∃ quorumHash, getQuorumBlockHash params chain chain.length = some quorumHash ∧
    isMiningPhase params chain.length = true ∧
    db.minedCommitment.contains (params.type, quorumHash) = false

lemma isCommitmentRequired_triple :
    Eff.Triple (fun s => s.db = db ∧ CacheOk db s.processor)
      (isCommitmentRequired params chain chain.length)
      (fun required s =>
        (s.db = db ∧ CacheOk db s.processor) ∧ (required = true ↔ Required chain db params)) E := by
  rintro s ⟨rfl, hcache⟩
  cases hquorum : getQuorumBlockHash params chain chain.length with
  | none =>
    rw [isCommitmentRequired_of_none hquorum]
    refine ⟨⟨rfl, hcache⟩, ⟨fun h => absurd h Bool.false_ne_true, ?_⟩⟩
    rintro ⟨quorumHash, hsome, _⟩
    rw [hquorum] at hsome
    cases hsome
  | some quorumHash =>
    rw [isCommitmentRequired_of_some hquorum]
    refine ⟨⟨rfl, cacheOk_rememberMined hcache rfl⟩, ?_⟩
    rw [minedAnswer_eq hcache rfl, Bool.and_eq_true, Bool.not_eq_true']
    constructor
    · rintro ⟨hphase, hmined⟩
      exact ⟨quorumHash, hquorum, hphase, hmined⟩
    · rintro ⟨quorumHash', hquorum', hphase, hmined⟩
      rw [hquorum, Option.some.injEq] at hquorum'
      exact ⟨hphase, hquorum' ▸ hmined⟩

/-- The loop passes if exactly the required types have a commitment. -/
lemma checkTypes_triple {qcs : StdMap LLMQType CFinalCommitment} {table : List LLMQParams}
    (hE : (¬∀ params ∈ table, qcs.contains params.type = true ↔ Required chain db params) →
      ∀ s, CacheOk db s.processor → E s) :
    Eff.Triple (fun s => s.db = db ∧ CacheOk db s.processor) (checkTypes chain qcs table)
      (fun _ s => (s.db = db ∧ CacheOk db s.processor) ∧
        ∀ params ∈ table, qcs.contains params.type = true ↔ Required chain db params) E := by
  induction table with
  | nil => exact triple_pure (fun s hs => ⟨hs, by simp⟩)
  | cons params rest ih =>
    rw [forall_mem_cons] at hE
    refine triple_bind (Q := fun _ s => (s.db = db ∧ CacheOk db s.processor) ∧
      (qcs.contains params.type = true ↔ Required chain db params)) ?_ (fun _ => ?_)
    · refine triple_bind isCommitmentRequired_triple (fun required => ?_)
      -- either refusal means that the map and the answer differ
      have hwrong : ∀ s, ((s.db = db ∧ CacheOk db s.processor) ∧
          (required = true ↔ Required chain db params)) →
          qcs.contains params.type ≠ required → E s :=
        fun s hs hne => hE (fun h => hne (Bool.eq_iff_iff.mpr (h.1.trans hs.2.symm))) s hs.1.2
      refine triple_bind (triple_failIf (Q := fun _ s =>
          ((s.db = db ∧ CacheOk db s.processor) ∧ (required = true ↔ Required chain db params)) ∧
            (qcs.contains params.type && !required) = false)
        (fun s hs hc => hwrong s hs (by grind)) (fun s hs hc => ⟨hs, hc⟩)) (fun _ => ?_)
      refine triple_failIf (fun s hs hc => hwrong s hs.1 (by grind))
        (fun s hs hmissing => ⟨hs.1.1, ?_⟩)
      rw [← hs.1.2, show qcs.contains params.type = required by grind]
    · intro s hs
      exact (ih (fun hnot => hE (fun h => hnot h.2))).weaken (fun _ h => h)
        (fun _ _ hrest => ⟨hrest.1, forall_mem_cons.mpr ⟨hs.2, hrest.2⟩⟩) s hs.1

/-! ## Storing the commitments of a block -/

/-- The database after one commitment has been processed. -/
def storeOne (env : LlmqEnv) (nHeight : Nat) (blockHash : Uint256) (db : QuorumDb)
    (qc : CFinalCommitment) : QuorumDb :=
  if qc.isNull then db
  else
    match env.table.llmqs.get? qc.llmqType with
    | none => db
    | some params => db.store nHeight blockHash params qc

/-- What `ProcessCommitment` has found out about a commitment. -/
def Processed (env : LlmqEnv) (chain : CChain) (base : QuorumDb) (qc : CFinalCommitment) : Prop :=
  ∃ params, env.table.llmqs.get? qc.llmqType = some params ∧
    getQuorumBlockHash params chain chain.length = some qc.quorumHash ∧
    (qc.isNull = false → base.minedCommitment.contains qc.key = false)

/-- A state on the way through the commitments of a block: `base` is the database before the block,
    and only keys of the types `done` differ. -/
structure Tracks (base : QuorumDb) (done : List LLMQType) (s : ProcessorState) : Prop where
  agree : ∀ key : QuorumKey, key.1 ∉ done →
    s.db.minedCommitment.get? key = base.minedCommitment.get? key
  /-- What is cached was true before the block. -/
  cache : CacheOk base s.processor
  /-- Nothing is cached for a key that has been written. -/
  fresh : ∀ key, s.db.minedCommitment.get? key ≠ base.minedCommitment.get? key →
    s.processor.hasMinedCommitmentCache.get? key = none

lemma Tracks.cacheOk (h : Tracks base done s) : CacheOk s.db s.processor := by
  intro key answer hget
  by_cases hagree : s.db.minedCommitment.get? key = base.minedCommitment.get? key
  · rw [h.cache key answer hget, StdMap.contains, StdMap.contains, hagree]
  · rw [h.fresh key hagree] at hget
    cases hget

/-- Before the first commitment. -/
lemma Tracks.of_db_eq (hdb : s.db = base)
    (hcache : CacheOk base s.processor) : Tracks base [] s where
  agree := fun key _ => by rw [hdb]
  cache := hcache
  fresh := fun key hne => absurd (by rw [hdb]) hne

lemma Tracks.rememberMined (h : Tracks base done s) (hkey : key.1 ∉ done) :
    Tracks base done (rememberMined s key) where
  agree := h.agree
  cache := cacheOk_rememberMined h.cache (h.agree key hkey)
  fresh := by
    intro key' hne
    have hkk : key' ≠ key := by
      rintro rfl
      exact hne (h.agree key' hkey)
    rw [Llmq.rememberMined, get?_insert_of_ne hkk]
    exact h.fresh key' hne

lemma Tracks.store (h : Tracks base done s) (nHeight : Nat) (blockHash : Uint256)
    (params : LLMQParams) (qc : CFinalCommitment) :
    Tracks base (params.type :: done) (storeCommitment nHeight blockHash params qc s) where
  agree := by
    intro key hkey
    have hne : key ≠ (params.type, qc.quorumHash) := by
      rintro rfl
      exact hkey (.head _)
    rw [storeCommitment, QuorumDb.store, get?_set_of_ne hne]
    exact h.agree key (fun hmem => hkey (.tail _ hmem))
  cache := forall_erase h.cache
  fresh := by
    intro key hne
    by_cases hkey : key = (params.type, qc.quorumHash)
    · subst hkey
      exact get?_erase_self
    · rw [storeCommitment, QuorumDb.store, get?_set_of_ne hkey] at hne
      rw [storeCommitment, get?_erase_of_ne hkey]
      exact h.fresh key hne

lemma Tracks.mono {done' : List LLMQType}
    (h : Tracks base done s) (hsub : ∀ type ∈ done, type ∈ done') : Tracks base done' s :=
  { h with agree := fun key hkey => h.agree key (fun hmem => hkey (hsub _ hmem)) }

/-- The commitment passes the signature and size checks of `ProcessCommitment`. -/
def Verifies (env : LlmqEnv) (qc : CFinalCommitment) : Prop :=
  if qc.isNull then qc.verifyNull env = true
  else qc.verify env (env.getAllQuorumMembers qc.llmqType qc.quorumHash) true = true

/-- No check of `ProcessCommitment` stands in the way of the commitment. -/
def Ready (env : LlmqEnv) (chain : CChain) (base : QuorumDb) (qc : CFinalCommitment) : Prop :=
  Verifies env qc ∧ base.minedCommitment.contains qc.key = false ∧
    ∃ params, env.table.llmqs.get? qc.llmqType = some params ∧
      getQuorumBlockHash params chain chain.length = some qc.quorumHash ∧
      isMiningPhase params chain.length = true

/-- One round: the commitment is stored, or it is not ready. -/
lemma processCommitment_triple {blockHash : Uint256} (hnew : qc.llmqType ∉ done)
    (hE : ¬Ready env chain base qc → ∀ s, CacheOk base s.processor → E s) :
    Eff.Triple (fun s => s.db = db ∧ Tracks base done s)
      (processCommitment env chain blockHash qc)
      (fun _ s => (s.db = storeOne env chain.length blockHash db qc ∧
        Tracks base (qc.llmqType :: done) s) ∧ Processed env chain base qc) E := by
  unfold processCommitment
  unfold Ready Verifies at hE
  cases hparams : env.table.llmqs.get? qc.llmqType with
  | none => exact triple_throw (fun s hs => hE (by simp [hparams]) s hs.2.cache)
  | some params =>
    have htype : params.type = qc.llmqType := env.table.type_of_get? hparams
    simp only [hparams, Option.some.injEq, exists_eq_left'] at hE
    simp only
    split_ifs with hblock hnull
    · exact triple_throw (fun s hs => hE (fun h => hblock h.2.2.1) s hs.2.cache)
    · refine triple_failIf (fun s hs hc => hE (by simp_all) s hs.2.cache)
        (fun s hs _ => ⟨⟨?_, ?_⟩, ?_⟩)
      · rw [storeOne, if_pos hnull]
        exact hs.1
      · exact hs.2.mono (fun type hmem => mem_cons_of_mem _ hmem)
      · refine ⟨params, hparams, not_not.mp hblock, fun hnot => ?_⟩
        rw [hnull] at hnot
        cases hnot
    · -- the key has not been written yet, so the answer is that of `base`
      have hkey : (params.type, qc.quorumHash) = qc.key := by rw [htype, CFinalCommitment.key]
      rw [processNonNull, hkey]
      refine triple_bind (Q := fun hasMined s => (s.db = db ∧ Tracks base done s) ∧
        hasMined = base.minedCommitment.contains qc.key) ?_ (fun hasMined => ?_)
      · rintro s ⟨rfl, htracks⟩
        rw [hasMinedCommitment_apply]
        exact ⟨⟨rfl, htracks.rememberMined hnew⟩,
          minedAnswer_eq htracks.cache (htracks.agree qc.key hnew)⟩
      · refine triple_bind (triple_failIf (Q := fun _ s =>
            (s.db = db ∧ Tracks base done s) ∧ base.minedCommitment.contains qc.key = false)
          (fun s hs hc => hE (by simp_all) s hs.1.2.cache)
          (fun s hs hmined => ⟨hs.1, hs.2 ▸ hmined⟩)) (fun _ => ?_)
        -- the two later tests change nothing
        refine triple_bind (triple_pass
          (fun s hs hc => hE (by simp_all) s hs.1.2.cache)) (fun _ => ?_)
        refine triple_bind (triple_pass
          (fun s hs hc => hE (by simp_all) s hs.1.2.cache)) (fun _ => ?_)
        refine triple_modify (fun s hs => ⟨⟨?_, ?_⟩, params, hparams, not_not.mp hblock, ?_⟩)
        · rw [storeOne, if_neg hnull, hparams, storeCommitment, hs.1.1]
        · exact htype ▸ hs.1.2.store chain.length blockHash params qc
        · exact fun _ => hs.2

/-- The loop stores the commitments, or stops at one that is not ready. -/
lemma processCommitments_triple {blockHash : Uint256}
    (hnodup : (qcs.map CFinalCommitment.llmqType).Nodup) (hnew : ∀ qc ∈ qcs, qc.llmqType ∉ done)
    (hE : (¬∀ qc ∈ qcs, Ready env chain base qc) → ∀ s, CacheOk base s.processor → E s) :
    Eff.Triple (fun s => s.db = db ∧ Tracks base done s)
      (processCommitments env chain blockHash qcs)
      (fun _ s => s.db = qcs.foldl (storeOne env chain.length blockHash) db ∧
        (CacheOk base s.processor ∧ CacheOk s.db s.processor) ∧
        ∀ qc ∈ qcs, Processed env chain base qc) E := by
  induction qcs generalizing db done with
  | nil => exact triple_pure (fun s hs => ⟨hs.1, ⟨hs.2.cache, hs.2.cacheOk⟩, by simp⟩)
  | cons qc rest ih =>
    rw [map_cons, nodup_cons] at hnodup
    have hrest : ∀ qc' ∈ rest, qc'.llmqType ∉ qc.llmqType :: done := by
      intro qc' hqc' hmem
      rcases mem_cons.mp hmem with heq | hmem
      · exact hnodup.1 (heq ▸ mem_map_of_mem hqc')
      · exact hnew qc' (.tail _ hqc') hmem
    rw [forall_mem_cons] at hE
    refine triple_bind (processCommitment_triple (hnew qc (.head _))
      (fun hnot => hE (fun h => hnot h.1))) (fun _ => ?_)
    intro s hs
    exact (ih hnodup.2 hrest (fun hnot => hE (fun h => hnot h.2))).weaken (fun _ h => h)
      (fun _ _ hrun => ⟨hrun.1, hrun.2.1, forall_mem_cons.mpr ⟨hs.2, hrun.2.2⟩⟩) s hs.1

section Lookups

variable {blockHash : Uint256}

lemma storeOne_of_params (hnull : qc.isNull = false)
    (hparams : env.table.llmqs.get? qc.llmqType = some params) (db : QuorumDb) :
    storeOne env nHeight blockHash db qc = db.store nHeight blockHash params qc := by
  rw [storeOne, if_neg (by rw [hnull]; exact Bool.false_ne_true), hparams]

/-- Only a non-null commitment of a known type is written, under its own keys. -/
lemma storeOne_cases :
    storeOne env nHeight blockHash db qc = db ∨ qc.isNull = false ∧ ∃ params,
      params.type = qc.llmqType ∧
        storeOne env nHeight blockHash db qc = db.store nHeight blockHash params qc := by
  cases hnull : qc.isNull with
  | true => exact .inl (if_pos hnull)
  | false =>
    cases hparams : env.table.llmqs.get? qc.llmqType with
    | none =>
      rw [storeOne, if_neg (by rw [hnull]; exact Bool.false_ne_true), hparams]
      exact .inl rfl
    | some params =>
      exact .inr ⟨rfl, params, env.table.type_of_get? hparams, storeOne_of_params hnull hparams db⟩

/-- Commitments of other keys leave an entry alone, whatever their types. -/
lemma foldl_storeOne_mined_of_ne (hne : ∀ qc ∈ qcs, qc.isNull = false → qc.key ≠ key) :
    (qcs.foldl (storeOne env nHeight blockHash) db).minedCommitment.get? key
      = db.minedCommitment.get? key := by
  refine foldl_frame (fun db => db.minedCommitment.get? key) (fun db qc hqc => ?_) db
  obtain heq | ⟨hnull, params, htype, heq⟩ := storeOne_cases
  · rw [heq]
  · rw [heq, QuorumDb.store, htype]
    exact get?_set_of_ne (fun h => hne qc hqc hnull h.symm)

lemma foldl_storeOne_byHeight_of_ne
    (hne : ∀ qc ∈ qcs, qc.isNull = false → qc.llmqType = type → h ≠ nHeight) :
    (qcs.foldl (storeOne env nHeight blockHash) db).minedByHeight.get? (type, h)
      = db.minedByHeight.get? (type, h) := by
  refine foldl_frame (fun db => db.minedByHeight.get? (type, h)) (fun db qc hqc => ?_) db
  obtain heq | ⟨hnull, params, htype, heq⟩ := storeOne_cases
  · rw [heq]
  · rw [heq, QuorumDb.store, htype, get?_set_of_ne]
    intro hkey
    obtain ⟨hqc', hh⟩ := Prod.mk.injEq .. ▸ hkey
    exact hne qc hqc hnull hqc'.symm hh

/-- With distinct types each non-null commitment ends up stored. -/
lemma foldl_storeOne_self (hnodup : (qcs.map CFinalCommitment.llmqType).Nodup) (hmem : qc ∈ qcs)
    (hnull : qc.isNull = false) (hparams : env.table.llmqs.get? qc.llmqType = some params)
    (db : QuorumDb) :
    (qcs.foldl (storeOne env nHeight blockHash) db).minedCommitment.get? qc.key
        = some (qc, blockHash) ∧
      (qcs.foldl (storeOne env nHeight blockHash) db).minedByHeight.get? (qc.llmqType, nHeight)
        = some (nHeight - nHeight % params.dkgInterval) := by
  induction qcs generalizing db with
  | nil => cases hmem
  | cons head rest ih =>
    rw [map_cons, nodup_cons] at hnodup
    rcases mem_cons.mp hmem with rfl | hmem
    · -- the later commitments are of other types
      have hother : ∀ qc' ∈ rest, qc'.llmqType ≠ qc.llmqType :=
        fun qc' hqc' heq => hnodup.1 (heq ▸ mem_map_of_mem hqc')
      have htype : params.type = qc.llmqType := env.table.type_of_get? hparams
      rw [foldl_cons, foldl_storeOne_mined_of_ne, foldl_storeOne_byHeight_of_ne,
        storeOne_of_params hnull hparams]
      · constructor
        · rw [QuorumDb.store, htype]
          exact get?_set_self
        · rw [QuorumDb.store, htype]
          exact get?_set_self
      · exact fun qc' hqc' _ htype' => absurd htype' (hother qc' hqc')
      · exact fun qc' hqc' _ hkey => hother qc' hqc' (congrArg Prod.fst hkey)
    · exact ih hnodup.2 hmem _

end Lookups

/-! ## The database and the chain -/

/-- The database holds exactly the non-null commitments of the chain. -/
structure DbExact (env : LlmqEnv) (chain : CChain) (db : QuorumDb) : Prop where
  mined : ∀ key qc blockHash, db.minedCommitment.get? key = some (qc, blockHash) ↔
    ∃ block ∈ chain, Mines env block qc ∧ qc.key = key ∧ block.hash = blockHash
  byHeight : ∀ type h quorumHeight, db.minedByHeight.get? (type, h) = some quorumHeight ↔
    ∃ block qc params, chain[h]? = some block ∧ Mines env block qc ∧ qc.llmqType = type ∧
      env.table.llmqs.get? type = some params ∧ quorumHeight = h - h % params.dkgInterval

lemma DbExact.contains_iff (h : DbExact env chain db) :
    db.minedCommitment.contains key = true ↔ MinedIn env chain key := by
  rw [StdMap.contains, Option.isSome_iff_exists]
  constructor
  · rintro ⟨⟨qc, blockHash⟩, hget⟩
    obtain ⟨block, hblock, hmines, hkey, _⟩ := (h.mined _ _ _).mp hget
    exact ⟨block, hblock, qc, hmines, hkey⟩
  · rintro ⟨block, hblock, qc, hmines, hkey⟩
    exact ⟨(qc, block.hash), (h.mined _ _ _).mpr ⟨block, hblock, hmines, hkey, rfl⟩⟩

lemma DbExact.not_contains_iff (h : DbExact env chain db) :
    db.minedCommitment.contains key = false ↔ ¬MinedIn env chain key := by
  rw [← h.contains_iff, Bool.not_eq_true]

/-- The rule a block obeys relative to the blocks below it. -/
structure SessionRule (env : LlmqEnv) (lower : CChain) (block : CBlock) : Prop where
  premature : lower.length < env.DIP0003Height → blockCommitments env block = []
  distinct : ((blockCommitments env block).map CFinalCommitment.llmqType).Nodup
  ofSession : ∀ qc ∈ blockCommitments env block, ∃ params,
    env.table.llmqs.get? qc.llmqType = some params ∧
    getQuorumBlockHash params lower lower.length = some qc.quorumHash ∧
    isMiningPhase params lower.length = true ∧ ¬MinedIn env lower qc.key
  required : env.DIP0003Height ≤ lower.length → ∀ type params quorumHash,
    env.table.llmqs.get? type = some params →
    getQuorumBlockHash params lower lower.length = some quorumHash →
    isMiningPhase params lower.length = true → ¬MinedIn env lower (type, quorumHash) →
    ∃ qc ∈ blockCommitments env block, qc.llmqType = type

lemma getElem?_snoc_iff {b : CBlock} :
    (chain ++ [block])[h]? = some b ↔ chain[h]? = some b ∨ (h = chain.length ∧ b = block) := by
  rcases Nat.lt_or_ge h chain.length with hlt | hge
  · rw [getElem?_append_left hlt, or_iff_left (fun heq => absurd heq.1 (Nat.ne_of_lt hlt))]
  · rw [getElem?_append_right hge, getElem?_singleton, getElem?_eq_none hge]
    split_ifs with hzero
    · simp [Nat.le_antisymm (Nat.le_of_sub_eq_zero hzero) hge, eq_comm]
    · simp [show h ≠ chain.length by omega]

/-- Storing the commitments of a block extends the record by that block. -/
lemma DbExact.append (h : DbExact env chain db) (block : CBlock) (qcs : List CFinalCommitment)
    (hqcs : ∀ qc, qc ∈ qcs ↔ qc ∈ blockCommitments env block)
    (hnodup : (qcs.map CFinalCommitment.llmqType).Nodup) (hnew : ∀ qc ∈ qcs, qc.isNull = false →
      (∃ params, env.table.llmqs.get? qc.llmqType = some params) ∧ ¬MinedIn env chain qc.key) :
    DbExact env (chain ++ [block]) (qcs.foldl (storeOne env chain.length block.hash) db) where
  mined := by
    intro key qc blockHash
    by_cases hwritten : ∃ qc' ∈ qcs, qc'.isNull = false ∧ qc'.key = key
    · obtain ⟨qc', hmem, hnull, rfl⟩ := hwritten
      obtain ⟨⟨params, hparams⟩, hfresh⟩ := hnew qc' hmem hnull
      rw [(foldl_storeOne_self hnodup hmem hnull hparams db).1, Option.some.injEq, Prod.mk.injEq]
      constructor
      · rintro ⟨rfl, rfl⟩
        exact ⟨block, mem_append_cons_self, ⟨(hqcs qc').mp hmem, hnull⟩, rfl, rfl⟩
      · rintro ⟨b, hb, hmines, hkey, rfl⟩
        -- the key is new, so the block that mines it is the one on top
        rcases mem_append.mp hb with hb | hb
        · exact absurd ⟨b, hb, qc, hmines, hkey⟩ hfresh
        · obtain rfl := mem_singleton.mp hb
          have hqc : qc ∈ qcs := (hqcs qc).mpr hmines.1
          have htype : qc'.llmqType = qc.llmqType := (congrArg Prod.fst hkey).symm
          exact ⟨inj_on_of_nodup_map hnodup hmem hqc htype, rfl⟩
    · have hne : ∀ qc' ∈ qcs, qc'.isNull = false → qc'.key ≠ key :=
        fun qc' hmem hnull hkey => hwritten ⟨qc', hmem, hnull, hkey⟩
      rw [foldl_storeOne_mined_of_ne hne, h.mined]
      constructor
      · rintro ⟨b, hb, hrest⟩
        exact ⟨b, mem_append_left _ hb, hrest⟩
      · rintro ⟨b, hb, hmines, hkey, hhash⟩
        rcases mem_append.mp hb with hb | hb
        · exact ⟨b, hb, hmines, hkey, hhash⟩
        · obtain rfl := mem_singleton.mp hb
          exact absurd hkey (hne qc ((hqcs qc).mpr hmines.1) hmines.2)
  byHeight := by
    intro type n quorumHeight
    by_cases hwritten : n = chain.length ∧ ∃ qc' ∈ qcs, qc'.isNull = false ∧ qc'.llmqType = type
    · obtain ⟨rfl, qc', hmem, hnull, rfl⟩ := hwritten
      obtain ⟨⟨params, hparams⟩, _⟩ := hnew qc' hmem hnull
      rw [(foldl_storeOne_self hnodup hmem hnull hparams db).2, Option.some.injEq]
      constructor
      · rintro rfl
        exact ⟨block, qc', params, getElem?_concat_length, ⟨(hqcs qc').mp hmem, hnull⟩, rfl,
          hparams, rfl⟩
      · rintro ⟨b, qc, params', _, _, _, hparams', rfl⟩
        rw [hparams, Option.some.injEq] at hparams'
        rw [hparams']
    · have hne : ∀ qc' ∈ qcs, qc'.isNull = false → qc'.llmqType = type → n ≠ chain.length :=
        fun qc' hmem hnull htype hn => hwritten ⟨hn, qc', hmem, hnull, htype⟩
      rw [foldl_storeOne_byHeight_of_ne hne, h.byHeight]
      constructor
      · rintro ⟨b, qc, params, hb, hrest⟩
        exact ⟨b, qc, params, getElem?_snoc_iff.mpr (.inl hb), hrest⟩
      · rintro ⟨b, qc, params, hb, hmines, htype, hrest⟩
        rcases getElem?_snoc_iff.mp hb with hb | ⟨hn, rfl⟩
        · exact ⟨b, qc, params, hb, hmines, htype, hrest⟩
        · exact absurd hn (hne qc ((hqcs qc).mpr hmines.1) hmines.2 htype)

/-! ## Accepting a block -/

section
variable {qcs : StdMap LLMQType CFinalCommitment} (hdb : DbExact env chain db)
  (hbyType : ByType qcs (blockCommitments env block))
  (hrequired : ∀ params ∈ env.table.llmqs.entries.map Prod.snd,
    qcs.contains params.type = true ↔ Required chain db params)
  (hprocessed : ∀ qc ∈ qcs.entries.map Prod.snd, Processed env chain db qc)
include hdb hbyType hrequired hprocessed

/-- A carried commitment was required, so it is the session's and its quorum had none. -/
lemma ofSession_of_checks (hqc : qc ∈ blockCommitments env block) :
    ∃ params, env.table.llmqs.get? qc.llmqType = some params ∧
      getQuorumBlockHash params chain chain.length = some qc.quorumHash ∧
      isMiningPhase params chain.length = true ∧ ¬MinedIn env chain qc.key := by
  obtain ⟨params, hparams, hquorum, _⟩ := hprocessed qc (hbyType.mem_values.mpr hqc)
  have htype : params.type = qc.llmqType := env.table.type_of_get? hparams
  have hcontains : qcs.contains params.type = true :=
    hbyType.contains_iff.mpr ⟨qc, hqc, htype.symm⟩
  obtain ⟨quorumHash, hquorum', hphase, hnot⟩ :=
    (hrequired params (env.table.mem_of_get? hparams)).mp hcontains
  rw [hquorum, Option.some.injEq] at hquorum'
  rw [htype, ← hquorum'] at hnot
  exact ⟨params, hparams, hquorum, hphase, hdb.not_contains_iff.mp hnot⟩

lemma sessionRule_of_checks
    (hpremature : chain.length < env.DIP0003Height → blockCommitments env block = []) :
    SessionRule env chain block where
  premature := hpremature
  distinct := hbyType.nodup
  ofSession := fun _ hqc => ofSession_of_checks hdb hbyType hrequired hprocessed hqc
  required := by
    intro _ type params quorumHash hparams hquorum hphase hnot
    have htype : params.type = type := env.table.type_of_get? hparams
    have hreq : Required chain db params :=
      ⟨quorumHash, hquorum, hphase, hdb.not_contains_iff.mpr (htype ▸ hnot)⟩
    have hcontains := (hrequired params (env.table.mem_of_get? hparams)).mpr hreq
    rw [htype] at hcontains
    exact hbyType.contains_iff.mp hcontains

end

section
variable {qcs : StdMap LLMQType CFinalCommitment} (hdb : DbExact env chain db)
  (hbyType : ByType qcs (blockCommitments env block)) (hrule : SessionRule env chain block)
include hdb hbyType hrule

/-- The types that have a commitment are those that need one. -/
lemma required_of_rule (hlow : env.DIP0003Height ≤ chain.length)
    (hmem : params ∈ env.table.llmqs.entries.map Prod.snd) :
    qcs.contains params.type = true ↔ Required chain db params := by
  obtain ⟨⟨type, _⟩, hentry, rfl⟩ := mem_map.mp hmem
  have hparams := get?_eq_some_iff.mpr hentry
  have htype := env.table.type_of_get? hparams
  rw [htype, hbyType.contains_iff]
  constructor
  · rintro ⟨qc, hqc, rfl⟩
    obtain ⟨params', hparams', hquorum, hphase, hnot⟩ := hrule.ofSession qc hqc
    cases hparams.symm.trans hparams'
    refine ⟨qc.quorumHash, hquorum, hphase, ?_⟩
    rw [htype]
    exact hdb.not_contains_iff.mpr hnot
  · rintro ⟨quorumHash, hquorum, hphase, hnot⟩
    rw [htype] at hnot
    exact hrule.required hlow type _ quorumHash hparams hquorum hphase
      (hdb.not_contains_iff.mp hnot)

lemma ready_of_rule (hverifies : ∀ qc ∈ blockCommitments env block, Verifies env qc)
    (hmem : qc ∈ qcs.entries.map Prod.snd) : Ready env chain db qc := by
  have hqc := hbyType.mem_values.mp hmem
  obtain ⟨params, hparams, hquorum, hphase, hnot⟩ := hrule.ofSession qc hqc
  exact ⟨hverifies qc hqc, hdb.not_contains_iff.mpr hnot, params, hparams, hquorum, hphase⟩

end

/-- What an accepted block leaves. The cache also agrees with the old database, to which a caller
    may roll back. -/
structure Accepted (env : LlmqEnv) (chain : CChain) (block : CBlock) (old : QuorumDb)
    (t : ProcessorState) : Prop where
  old : CacheOk old t.processor
  own : CacheOk t.db t.processor
  exact : DbExact env (chain ++ [block]) t.db
  rule : SessionRule env chain block

/-- `ProcessBlock` from a state `s` that records the chain. Only a block that breaks the session
    rule, or whose commitments do not parse or verify, is refused. -/
lemma processBlock_triple (hdb : DbExact env chain s.db) (hcache : CacheOk s.db s.processor)
    (hpremature : chain.length < env.DIP0003Height → blockCommitments env block = [])
    (hE : ¬(SessionRule env chain block ∧
        (∃ qcs, getCommitmentsFromBlock env block chain.length = .ok qcs) ∧
        ∀ qc ∈ blockCommitments env block, Verifies env qc) →
      ∀ t, CacheOk s.db t.processor → E t) :
    Eff.Triple (fun t => t = s) (processBlock env chain block)
      (fun _ => Accepted env chain block s.db) E := by
  unfold processBlock
  split_ifs with hlow
  · refine triple_modify ?_
    rintro _ rfl
    -- before the activation the block has no commitments at all
    have hempty := hpremature hlow
    have hexact := hdb.append block [] (by simp [hempty]) (by simp) (by simp)
    refine ⟨hcache, hcache, { mined := hexact.mined, byHeight := hexact.byHeight }, ?_⟩
    exact ⟨fun _ => hempty, by simp [hempty], by simp [hempty], fun hge => by omega⟩
  · refine triple_bind (Q := fun qcs t => t = s ∧ ByType qcs (blockCommitments env block))
      ?_ (fun qcs => ?_)
    · rintro _ rfl
      cases hqcs : getCommitmentsFromBlock env block chain.length with
      | error e => exact hE (fun h => by simp [hqcs] at h) _ hcache
      | ok qcs => exact ⟨rfl, byType_of_getCommitmentsFromBlock hqcs⟩
    rintro t ⟨ht, hbyType⟩
    refine triple_bind (checkTypes_triple (fun hnot => hE (fun h => hnot (fun _ =>
      required_of_rule hdb hbyType h.1 (Nat.le_of_not_lt hlow))))) (fun _ => ?_) t
      ⟨by rw [ht], by rw [ht]; exact hcache⟩
    rintro u ⟨⟨hudb, hucache⟩, hrequired⟩
    refine triple_bind (processCommitments_triple hbyType.nodup_values
      (fun _ _ => not_mem_nil) (fun hnot => hE (fun h => hnot (fun _ =>
        ready_of_rule hdb hbyType h.1 h.2.2)))) (fun _ => ?_) u ⟨hudb, .of_db_eq hudb hucache⟩
    refine triple_modify ?_
    rintro v ⟨hvdb, ⟨hbase, hown⟩, hprocessed⟩
    have hexact := hdb.append block _ (fun qc => hbyType.mem_values)
      hbyType.nodup_values (fun qc hqc _ => by
        obtain ⟨params, hparams, _, _, hnot⟩ :=
          ofSession_of_checks hdb hbyType hrequired hprocessed (hbyType.mem_values.mp hqc)
        exact ⟨⟨params, hparams⟩, hnot⟩)
    rw [← hvdb] at hexact
    exact ⟨hbase, hown, { mined := hexact.mined, byHeight := hexact.byHeight },
      sessionRule_of_checks hdb hbyType hrequired hprocessed hpremature⟩

/-- A block that obeys the session rule and whose commitments parse and verify is accepted. -/
lemma processBlock_succeeds {qcs : StdMap LLMQType CFinalCommitment}
    (hdb : DbExact env chain s.db) (hcache : CacheOk s.db s.processor)
    (hrule : SessionRule env chain block)
    (hqcs : getCommitmentsFromBlock env block chain.length = .ok qcs)
    (hverifies : ∀ qc ∈ blockCommitments env block, Verifies env qc) :
    ∃ s', processBlock env chain block s = .ok () s' :=
  have hrun := processBlock_triple hdb hcache hrule.premature
    (fun hnot _ _ => hnot ⟨hrule, ⟨qcs, hqcs⟩, hverifies⟩)
  have ⟨_, s', hs'⟩ := hrun.succeeds rfl
  ⟨s', hs'⟩

/-! ## Undoing a block -/

/-- The database after one commitment has been undone. -/
def eraseOne (nHeight : Nat) (db : QuorumDb) (qc : CFinalCommitment) : QuorumDb :=
  if qc.isNull then db
  else { db with
    minedCommitment := db.minedCommitment.erase qc.key
    minedByHeight := db.minedByHeight.erase (qc.llmqType, nHeight) }

/-- A new minable commitment does not touch the cached answers. -/
lemma hasMinedCommitmentCache_addMinableCommitment {fqc : CFinalCommitment}
    {p p' : CQuorumBlockProcessor} (h : addMinableCommitment env fqc p = .ok p') :
    p'.hasMinedCommitmentCache = p.hasMinedCommitmentCache := by
  revert h
  fun_cases addMinableCommitment with
  | case2 => exact nofun
  | case1 | case3 | case4 =>
    rintro ⟨⟩
    rfl

lemma undoCommitment_ok (hcache : CacheOk s.db s.processor)
    (hok : undoCommitment env nHeight qc s = .ok s') :
    s'.db = eraseOne nHeight s.db qc ∧ CacheOk s'.db s'.processor := by
  unfold undoCommitment at hok
  split at hok
  case isTrue hnull =>
    cases hok
    exact ⟨(if_pos hnull).symm, hcache⟩
  case isFalse hnull =>
    obtain ⟨processor, hadd, hrest⟩ := except_bind_ok_iff.mp hok
    cases hrest
    refine ⟨(if_neg hnull).symm, ?_⟩
    intro key answer hget
    rw [hasMinedCommitmentCache_addMinableCommitment hadd] at hget
    obtain ⟨hkey, hget⟩ := get?_erase_eq_some hget
    rw [hcache key answer hget, StdMap.contains, StdMap.contains, get?_erase_of_ne hkey]

lemma undoCommitments_ok (hcache : CacheOk s.db s.processor)
    (hok : qcs.foldlM (fun s qc => undoCommitment env nHeight qc s) s = .ok s') :
    s'.db = qcs.foldl (eraseOne nHeight) s.db ∧ CacheOk s'.db s'.processor := by
  induction qcs generalizing s with
  | nil =>
    cases hok
    exact ⟨rfl, hcache⟩
  | cons qc rest ih =>
    obtain ⟨s1, hs1, hrest⟩ := foldlM_cons_ok_iff.mp hok
    obtain ⟨hdb1, hcache1⟩ := undoCommitment_ok hcache hs1
    obtain ⟨hdb, hcache'⟩ := ih hcache1 hrest
    exact ⟨by rw [hdb, hdb1, foldl_cons], hcache'⟩

/-- The undo loop erases the keys of the commitments that are not null. -/
lemma foldl_eraseOne (db : QuorumDb) :
    (qcs.foldl (eraseOne nHeight) db).minedCommitment =
        ((qcs.filter (fun qc => !qc.isNull)).map CFinalCommitment.key).foldl
          (fun m key => m.erase key) db.minedCommitment ∧
      (qcs.foldl (eraseOne nHeight) db).minedByHeight =
        ((qcs.filter (fun qc => !qc.isNull)).map (fun qc => (qc.llmqType, nHeight))).foldl
          (fun m key => m.erase key) db.minedByHeight := by
  induction qcs generalizing db with
  | nil => exact ⟨rfl, rfl⟩
  | cons qc rest ih =>
    rw [foldl_cons, (ih _).1, (ih _).2]
    cases hnull : qc.isNull with
    | true => simp [eraseOne, hnull]
    | false => simp [eraseOne, hnull]

/-- Erasing what the top block mines leaves the record of the blocks below. -/
lemma DbExact.dropTop (h : DbExact env (chain ++ [block]) db)
    (hqcs : ∀ qc, qc ∈ qcs ↔ qc ∈ blockCommitments env block)
    (hnew : ∀ qc, Mines env block qc → ¬MinedIn env chain qc.key) :
    DbExact env chain (qcs.foldl (eraseOne chain.length) db) where
  mined := by
    intro key qc blockHash
    have herased : key ∈ (qcs.filter (fun qc => !qc.isNull)).map CFinalCommitment.key ↔
        ∃ qc, Mines env block qc ∧ qc.key = key := by
      simp [Mines, hqcs]
    rw [(foldl_eraseOne db).1, get?_foldl_erase]
    split_ifs with hmem
    · obtain ⟨qc', hmines', rfl⟩ := herased.mp hmem
      -- what the last block mines is not mined below it
      refine ⟨False.elim, ?_⟩
      rintro ⟨b, hb, hmines, hkey, _⟩
      exact absurd ⟨b, hb, qc, hmines, hkey⟩ (hnew qc' hmines')
    · rw [h.mined]
      constructor
      · rintro ⟨b, hb, hmines, hkey, hhash⟩
        rcases mem_append.mp hb with hb | hb
        · exact ⟨b, hb, hmines, hkey, hhash⟩
        · obtain rfl := mem_singleton.mp hb
          exact absurd (herased.mpr ⟨qc, hmines, hkey⟩) hmem
      · rintro ⟨b, hb, hrest⟩
        exact ⟨b, mem_append_left _ hb, hrest⟩
  byHeight := by
    intro type n quorumHeight
    have herased : (type, n) ∈
        (qcs.filter (fun qc => !qc.isNull)).map (fun qc => (qc.llmqType, chain.length)) ↔
        n = chain.length ∧ ∃ qc, Mines env block qc ∧ qc.llmqType = type := by
      simp only [mem_map, mem_filter, hqcs, Bool.not_eq_true', Prod.mk.injEq, Mines]
      constructor
      · rintro ⟨qc, hmines, htype, hn⟩
        exact ⟨hn.symm, qc, hmines, htype⟩
      · rintro ⟨hn, qc, hmines, htype⟩
        exact ⟨qc, hmines, htype, hn.symm⟩
    rw [(foldl_eraseOne db).2, get?_foldl_erase]
    split_ifs with hmem
    · obtain ⟨rfl, _⟩ := herased.mp hmem
      refine ⟨False.elim, ?_⟩
      rintro ⟨b, qc, params, hb, _⟩
      rw [getElem?_eq_none (Nat.le_refl _)] at hb
      cases hb
    · rw [h.byHeight]
      constructor
      · rintro ⟨b, qc, params, hb, hmines, htype, hrest⟩
        rcases getElem?_snoc_iff.mp hb with hb | ⟨hn, rfl⟩
        · exact ⟨b, qc, params, hb, hmines, htype, hrest⟩
        · exact absurd (herased.mpr ⟨hn, qc, hmines, htype⟩) hmem
      · rintro ⟨b, qc, params, hb, hrest⟩
        exact ⟨b, qc, params, getElem?_snoc_iff.mpr (.inl hb), hrest⟩

lemma undoBlock_ok (hdb : DbExact env (chain ++ [block]) s.db) (hcache : CacheOk s.db s.processor)
    (hnew : ∀ qc, Mines env block qc → ¬MinedIn env chain qc.key)
    (hok : undoBlock env chain block s = .ok s') :
    DbExact env chain s'.db ∧ CacheOk s'.db s'.processor := by
  obtain ⟨qcs, hqcs, hrest⟩ := except_bind_ok_iff.mp hok
  obtain ⟨s1, hs1, hlast⟩ := except_bind_ok_iff.mp hrest
  obtain ⟨hdb1, hcache1⟩ := undoCommitments_ok hcache hs1
  have hbyType := byType_of_getCommitmentsFromBlock hqcs
  have hexact := hdb.dropTop (fun qc => hbyType.mem_values) hnew
  rw [← hdb1] at hexact
  split at hlast
  · cases hlast
  · cases hlast
    exact ⟨{ mined := hexact.mined, byHeight := hexact.byHeight }, hcache1⟩

end Tecracoin.Llmq
