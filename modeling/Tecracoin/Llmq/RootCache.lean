/-
  The quorum merkle root and its cache along runs.

  The cache is keyed by base blocks.  As long as every cached hash is that of
  the commitment mined for its base block, the cached and the computed hashes
  are the same, and the block's own commitments are merged as the database
  window will have them.  A block that mines another commitment for a cached
  base block breaks this, unless its own root check has refreshed the cache.
-/
import Tecracoin.Llmq.Active
import Tecracoin.Llmq.Lookups

namespace Tecracoin.Llmq

open Data Eff StdMap List

variable {env : BlockEnv} {s t : LlmqState} {α β γ : Type} {chain : CChain} {db : QuorumDb}
  {genesis : CBlock} {op : LlmqOp} {cache : QuorumRootCache} {f : α → β} {g : α → γ} {as : List α}
  {block : CBlock}

/-! ## The cache and the database -/

/-- `hash` is cached for the quorum. -/
def CachedHash (cache : QuorumRootCache) (type : LLMQType) (base hash : Uint256) : Prop :=
  ∃ e e', (e, e') ∈ cache.quorumsCached.entries.zip cache.qcHashesCached.entries ∧ e.1 = type ∧
    (base, hash) ∈ e.2.zip e'.2

/-- A cached hash is that of the commitment mined for the quorum, if there is one. -/
structure RootOk (env : LlmqEnv) (db : QuorumDb) (cache : QuorumRootCache) : Prop where
  length : cache.quorumsCached.entries.length = cache.qcHashesCached.entries.length
  shape : ∀ e e', (e, e') ∈ cache.quorumsCached.entries.zip cache.qcHashesCached.entries →
    e.1 = e'.1 ∧ e.2.length = e'.2.length
  values : ∀ type base hash qc blockHash, CachedHash cache type base hash →
    db.minedCommitment.get? (type, base) = some (qc, blockHash) → hash = env.serializeHash qc

/-- The cache after a call that did not use it. -/
def freshCache (env : LlmqEnv) (chain : CChain) : QuorumRootCache :=
  ⟨activeBases env chain, activeHashes env chain⟩

lemma mem_zip_map {b : β} {c : γ} (h : (b, c) ∈ (as.map f).zip (as.map g)) :
    ∃ a ∈ as, b = f a ∧ c = g a := by
  rw [zip_map'] at h
  obtain ⟨a, ha, heq⟩ := mem_map.mp h
  obtain ⟨rfl, rfl⟩ := Prod.mk.inj heq
  exact ⟨a, ha, rfl, rfl⟩

/-- A list whose elements are determined by the ones beside them. -/
lemma eq_map_of_zip {cs : List γ} (hlength : (as.map f).length = cs.length)
    (h : ∀ a ∈ as, ∀ c, (f a, c) ∈ (as.map f).zip cs → c = g a) : cs = as.map g := by
  symm
  rw [← forall₂_eq_eq_eq, forall₂_map_left_iff, forall₂_iff_zip]
  refine ⟨length_map f ▸ hlength, fun {a c} hmem => ?_⟩
  refine (h a (of_mem_zip hmem).1 c ?_).symm
  rw [zip_map_left]
  exact mem_map_of_mem hmem

lemma cachedHash_freshCache {env : LlmqEnv} {type : LLMQType}
    {base hash : Uint256} (h : CachedHash (freshCache env chain) type base hash) :
    ∃ qc ∈ latestMined env type chain, base = qc.quorumHash ∧ hash = env.serializeHash qc := by
  obtain ⟨e, e', hmem, htype, hpair⟩ := h
  obtain ⟨entry, _, rfl, rfl⟩ := mem_zip_map hmem
  obtain ⟨qc, hqc, hbase, hhash⟩ := mem_zip_map hpair
  obtain rfl : entry.1 = type := htype
  exact ⟨qc, mem_of_mem_take hqc, hbase, hhash⟩

lemma rootOk_freshCache {env : LlmqEnv}
    (hrec : Records env chain db) : RootOk env db (freshCache env chain) where
  length := (length_map _).trans (length_map _).symm
  shape := by
    intro e e' hmem
    obtain ⟨entry, _, rfl, rfl⟩ := mem_zip_map hmem
    exact ⟨rfl, (length_map _).trans (length_map _).symm⟩
  values := by
    intro type base hash qc blockHash hcached hget
    obtain ⟨qc', hqc', rfl, rfl⟩ := cachedHash_freshCache hcached
    obtain ⟨blockHash', hget'⟩ := hrec.mined_of_latest hqc'
    rw [hget', Option.some.injEq] at hget
    rw [(Prod.mk.inj hget).1]

/-- A cache for the base blocks of the chain holds the hashes of its commitments. -/
lemma RootOk.eq_freshCache {env : LlmqEnv} (h : RootOk env db cache) (hrec : Records env chain db)
    (hbases : cache.quorumsCached = activeBases env chain) : cache = freshCache env chain := by
  obtain ⟨quorumsCached, qcHashesCached⟩ := cache
  obtain rfl : quorumsCached = activeBases env chain := hbases
  rw [freshCache, QuorumRootCache.mk.injEq]
  refine ⟨rfl, ext ?_⟩
  refine eq_map_of_zip h.length ?_
  rintro entry _ ⟨type, hashes⟩ hmem
  obtain ⟨htype, hlength⟩ := h.shape _ _ hmem
  have hhashes : hashes = (activeCommitments env chain entry.1 entry.2).map env.serializeHash := by
    refine eq_map_of_zip hlength ?_
    intro qc hqc hash hpair
    obtain ⟨blockHash, hget⟩ := hrec.mined_of_latest (mem_of_mem_take hqc)
    exact h.values entry.1 qc.quorumHash hash qc blockHash ⟨_, _, hmem, rfl, hpair⟩ hget
  rw [hhashes, show type = entry.1 from htype.symm]

/-! ## One call -/

/-- In a state with a sound cache the call computes the hashes of the active commitments, merges the
    block and leaves the fresh cache; `db` may already record the block. -/
lemma calcCbTxMerkleRootQuorums_eq (hinv : ChainInv env s) (hne : s.chainActive ≠ [])
    (hroot : RootOk env s.db s.rootCache) (hrec : Records env s.chainActive db) (block : CBlock) :
    calcCbTxMerkleRootQuorums env db s.chainActive block s.rootCache =
      (mergeBlock env (block.vtx.drop 1) (activeHashes env s.chainActive)).map
        (fun merged => (env.computeMerkleRoot (qcHashesVec merged),
          freshCache env s.chainActive)) := by
  have hfound : qcHashesCachedOf env db (activeBases env s.chainActive)
      s.rootCache = .ok (activeHashes env s.chainActive, freshCache env s.chainActive) := by
    unfold qcHashesCachedOf
    split_ifs with hbases
    · rw [hroot.eq_freshCache hinv.db.records hbases.symm]
      rfl
    · rw [hrec.qcHashesOf_eq]
      rfl
  rw [calcCbTxMerkleRootQuorums, hinv.getMinedAndActive_eq hrec hne]
  show (qcHashesCachedOf env db (activeBases env s.chainActive) s.rootCache >>= fun found => _) = _
  rw [hfound]
  show (mergeBlock env (block.vtx.drop 1)
    (activeHashes env s.chainActive) >>= fun qcHashes => _) = _
  cases mergeBlock env (block.vtx.drop 1) (activeHashes env s.chainActive) with
  | error e => rfl
  | ok merged => rfl

/-- The hashes merged for a block are those of the chain with the block. -/
lemma mergeBlock_active (hcheck : checkSpecialTxs env chain block.vtx = .ok ())
    (hrule : SessionRule env chain block)
    (hcoinbase : ∀ tx, block.vtx.head? = some tx → tx.nType ≠ .TRANSACTION_QUORUM_COMMITMENT) :
    ∃ merged, mergeBlock env (block.vtx.drop 1) (activeHashes env chain)
        = .ok merged ∧
      qcHashesVec merged = qcHashesVec (activeHashes env (chain ++ [block])) := by
  have hcommitments : commitmentsOf env (block.vtx.drop 1) = blockCommitments env block := by
    rw [blockCommitments]
    cases hvtx : block.vtx with
    | nil => rfl
    | cons coinbase rest =>
      have hne := hcoinbase coinbase (by rw [hvtx, head?_cons])
      simp [commitmentsOf, hne]
  obtain ⟨merged, hmerged, hget⟩ := mergeBlock_ok (block.vtx.drop 1) (activeHashes env chain)
    (fun tx htx hversion htype =>
      (commitment_of_checkSpecialTxs hcheck (mem_of_mem_drop htx) hversion htype).2)
    env.getTxPayload_version (by rw [hcommitments]; exact hrule.distinct)
    (by
      intro qc hqc
      rw [hcommitments] at hqc
      obtain ⟨params, hparams, _⟩ := hrule.ofSession qc hqc
      refine ⟨params, _, hparams, by rw [activeHashes, get?_mapVals, hparams]; rfl, ?_⟩
      rw [length_map]
      exact length_take_le _ _)
  refine ⟨merged, hmerged, sortHashes_congr (flatMap_perm (fun type => ?_))⟩
  rw [hget, hcommitments, activeHashes, activeHashes, get?_mapVals, get?_mapVals]
  cases hparams : env.table.llmqs.get? type with
  | none => exact .none
  | some params =>
    refine .some ?_
    show (pushMined env type (minedOf env type block) _).Perm _
    unfold pushMined
    simp only [hparams, activeCommitments, latestMined_append, map_take]
    -- the block mines a commitment of the type, or it does not
    cases minedOf env type block with
    | none => exact List.Perm.refl _
    | some qc => exact pushHash_take_perm params.signingActiveQuorumCount_pos

/-! ## Blocks and the cache -/

/-- The quorum root of the block is checked: its coinbase has a payload of version 2 at least. -/
def ChecksRoot (env : BlockEnv) (block : CBlock) : Prop :=
  ∃ coinbase cbTx, block.vtx.head? = some coinbase ∧ coinbase.nType = .TRANSACTION_COINBASE ∧
    env.getCbTx coinbase = some cbTx ∧ 2 ≤ cbTx.nVersion

section BlockCheck

variable {block : CBlock}

/-- The state `t` has got past `ProcessBlock`, coming from `s`. -/
def Processing (env : LlmqEnv) (s t : LlmqState) : Prop :=
  t.chainActive = s.chainActive ∧ t.rootCache = s.rootCache ∧ Records env s.chainActive t.db

section

variable (hinv : ChainInv env s) (hne : s.chainActive ≠ []) (hroot : RootOk env s.db s.rootCache)
include hinv hne hroot

lemma checkQuorumsRoot_triple (cbTx : CCbTx) :
    Eff.Triple (Processing env s) (checkQuorumsRoot env block cbTx)
      (fun _ t => t.rootCache = freshCache env s.chainActive)
      (fun t => t.rootCache = s.rootCache ∨ t.rootCache = freshCache env s.chainActive) := by
  rintro t ⟨hchain, hcache, hrec⟩
  have hcalc := calcCbTxMerkleRootQuorums_eq hinv hne hroot hrec block
  rw [← hchain, ← hcache] at hcalc
  rw [checkQuorumsRoot, get_bind_apply, hcalc]
  cases hmerge : mergeBlock env (block.vtx.drop 1)
      (activeHashes env t.chainActive) with
  | error e => exact .inl hcache
  | ok merged =>
    -- the cache is written before the root is compared
    simp only [Except.map, lift_ok_bind_apply, modify_bind_apply]
    refine triple_bind (P := fun u : LlmqState => u.rootCache = freshCache env s.chainActive)
      (Q := fun _ u => u.rootCache = freshCache env s.chainActive)
      (triple_pass (fun u hu _ => .inr hu))
      (fun _ => triple_pass (fun u hu _ => .inr hu)) _ ?_
    exact congrArg (freshCache env) hchain

lemma checkCbTxMerkleRoots_triple : Eff.Triple (Processing env s) (checkCbTxMerkleRoots env block)
      (fun _ t => t.rootCache = freshCache env s.chainActive ∨
        (t.rootCache = s.rootCache ∧ ¬ChecksRoot env block))
      (fun t => t.rootCache = s.rootCache ∨ t.rootCache = freshCache env s.chainActive) := by
  unfold checkCbTxMerkleRoots
  cases hhead : block.vtx.head? with
  | none => exact triple_throw (fun t ht => .inl ht.2.1)
  | some coinbase =>
    simp only
    have hchecks : ChecksRoot env block ↔ coinbase.nType = .TRANSACTION_COINBASE ∧
        ∃ cbTx, env.getCbTx coinbase = some cbTx ∧ 2 ≤ cbTx.nVersion := by
      simp [ChecksRoot, hhead]
    split_ifs with htype
    · exact triple_pure (fun t ht => .inr ⟨ht.2.1, fun hroot => htype (hchecks.mp hroot).1⟩)
    · cases hcb : env.getCbTx coinbase with
      | none => exact triple_throw (fun t ht => .inl ht.2.1)
      | some cbTx =>
        refine triple_bind (Q := fun _ => Processing env s) (fun t ht => ht) (fun u => ?_)
        refine triple_bind (Q := fun _ => Processing env s) (fun t ht => ?_) (fun _ => ?_)
        · cases env.checkMNListRoot u.chainActive block cbTx with
          | error e => exact .inl ht.2.1
          | ok _ => exact ht
        · by_cases hversion : 2 ≤ cbTx.nVersion
          · rw [decide_eq_true hversion]
            exact (checkQuorumsRoot_triple hinv hne hroot cbTx).weaken (fun _ ht => ht)
              (fun _ _ => .inl)
          · rw [decide_eq_false hversion]
            refine triple_pure (fun t ht => .inr ⟨ht.2.1, fun hroot => ?_⟩)
            obtain ⟨-, cbTx', hcb', hversion'⟩ := hchecks.mp hroot
            rw [hcb, Option.some.injEq] at hcb'
            exact hversion (hcb' ▸ hversion')

end

/-- A block whose root is checked leaves the root of the chain in the cache. -/
lemma processSpecialTxsInBlock_rootCache (block : CBlock) (hinv : ChainInv env s)
    (hne : s.chainActive ≠ []) (hroot : RootOk env s.db s.rootCache) (fCheck : Bool) :
    Eff.Triple (fun t => t = s) (processSpecialTxsInBlock env block fCheck)
      (fun _ t => t.rootCache = freshCache env s.chainActive ∨
        (t.rootCache = s.rootCache ∧ ¬(fCheck = true ∧ ChecksRoot env block)))
      (fun t => t.rootCache = s.rootCache ∨ t.rootCache = freshCache env s.chainActive) := by
  refine processSpecialTxsInBlock_rule hinv (fun _ _ => .inl rfl) (fun core hcore => ?_)
  have hpast : ∀ t, t = s.withCore core → Processing env s t := by
    rintro _ rfl
    exact ⟨rfl, rfl, hcore.exact.records_below⟩
  cases fCheck with
  | false => exact triple_pure (fun t ht => .inr ⟨(hpast t ht).2.1, fun h => nomatch h.1⟩)
  | true =>
    refine (checkCbTxMerkleRoots_triple hinv hne hroot).weaken hpast ?_
    intro _ t ht
    exact ht.imp_right (fun h => ⟨h.1, fun hboth => h.2 hboth.2⟩)

end BlockCheck

/-! ## Runs -/

/-- A block that is connected has its quorum root checked, or no other hash is cached for a quorum
    it mines a commitment of. -/
def NoForeignHash (env : BlockEnv) : LlmqOp → LlmqState → Prop
  | .connect block fCheck, s =>
    (fCheck = true ∧ ChecksRoot env block) ∨
    ∀ qc hash, Mines env.toLlmqEnv block qc →
      CachedHash s.rootCache qc.llmqType qc.quorumHash hash → hash = env.serializeHash qc
  | _, _ => True

/-- The invariant of runs for the root cache. -/
structure RootInv (env : BlockEnv) (s : LlmqState) : Prop where
  chain : ChainInv env.toLlmqEnv s
  nonempty : s.chainActive ≠ []
  root : RootOk env.toLlmqEnv s.db s.rootCache

lemma rootInv_start
    (hgenesis : blockCommitments env genesis = []) : RootInv env (.start genesis) where
  chain := chainInv_start hgenesis
  nonempty := cons_ne_nil _ _
  root := by
    refine ⟨rfl, ?_, ?_⟩
    · intro e e' hmem
      cases hmem
    · rintro type base hash qc blockHash ⟨e, e', hmem, _⟩
      cases hmem

lemma RootOk.of_db_eq {env : LlmqEnv} {db' : QuorumDb}
    (h : RootOk env db cache) (hdb : ∀ key mined, db'.minedCommitment.get? key = some mined →
      db.minedCommitment.get? key = some mined) : RootOk env db' cache where
  length := h.length
  shape := h.shape
  values := fun type base hash qc blockHash hcached hget =>
    h.values type base hash qc blockHash hcached (hdb _ _ hget)

/-- The cache after a block has been tried: the old one, or the fresh one of the chain before, and
    certainly the latter after a connected block whose root was checked. -/
lemma afterConnect_rootCache (h : RootInv env s) {fCheck keep : Bool}
    (hafter : afterConnect s block keep (processSpecialTxsInBlock env block fCheck s) = some t) :
    (t.rootCache = s.rootCache ∨ t.rootCache = freshCache env s.chainActive) ∧
      (t.chainActive = s.chainActive ++ [block] → fCheck = true ∧ ChecksRoot env block →
        t.rootCache = freshCache env s.chainActive) := by
  have hrun := processSpecialTxsInBlock_rootCache block h.chain h.nonempty h.root fCheck s rfl
  cases hres : processSpecialTxsInBlock env block fCheck s with
  | error e u =>
    have hsame := processSpecialTxsInBlock_triple block fCheck h.chain s rfl
    rw [hres] at hrun hsame hafter
    cases e with
    | returnsFalse reject =>
      cases hafter
      obtain ⟨core, hcore, _⟩ := hsame
      refine ⟨hrun, fun hchain => ?_⟩
      have hlength := congrArg List.length (hcore.1.symm.trans hchain)
      rw [length_append, length_singleton] at hlength
      omega
    | _ => cases hafter
  | ok _ u =>
    rw [hres] at hrun hafter
    have hcache : t.rootCache = u.rootCache := by
      cases keep <;> exact Option.some.inj hafter ▸ rfl
    rw [hcache]
    rcases hrun with hfresh | ⟨hold, hnot⟩
    · exact ⟨.inr hfresh, fun _ _ => hfresh⟩
    · exact ⟨.inl hold, fun _ hboth => absurd hboth hnot⟩

lemma step_rootCache (h : RootInv env s) (hs : step env op s = some t) :
    t.rootCache = s.rootCache ∨ t.rootCache = freshCache env s.chainActive := by
  cases op with
  | connect | tryConnect =>
    exact (afterConnect_rootCache h (Option.ite_none_left_eq_some.mp hs).2).1
  | disconnect =>
    obtain ⟨_, hs⟩ := Option.ite_none_left_eq_some.mp hs
    unfold disconnectTip at hs
    split at hs
    · cases hs
    · split at hs
      · cases hs
      · cases hs
        exact .inl rfl
  | calcRoot block =>
    obtain ⟨r, hr, rfl⟩ := Option.map_eq_some_iff.mp hs
    have hcalc := toOption_eq_some_iff.mp hr
    rw [calcCbTxMerkleRootQuorums_eq h.chain h.nonempty h.root h.chain.db.records] at hcalc
    obtain ⟨merged, _, rfl⟩ := except_map_ok_iff.mp hcalc
    exact .inr rfl
  | getQuorum | scanQuorums | message | addMinableCommitment =>
    obtain ⟨r, _, rfl⟩ := Option.map_eq_some_iff.mp hs
    exact .inl rfl
  | evict =>
    cases hs
    exact .inl rfl
  | hasMinedCommitment | getMinableCommitment =>
    obtain ⟨_, core, _, rfl⟩ := finalCore_eq_some hs
    exact .inl rfl

lemma rootInv_step (h : RootInv env s)
    (hallowed : NoForeignHash env op s) (hs : step env op s = some t) : RootInv env t := by
  obtain ⟨hinv, hmove⟩ := step_move h.chain hs
  have hroot : RootOk env s.db t.rootCache := by
    rcases step_rootCache h hs with hold | hnew
    · rw [hold]
      exact h.root
    · rw [hnew]
      exact rootOk_freshCache h.chain.db.records
  cases hmove with
  | same hchain hdb => exact ⟨hinv, hchain ▸ h.nonempty, hdb ▸ hroot⟩
  | @extended block fCheck hnewhash hrule hchain =>
    have hexact := hinv.db
    rw [hchain] at hexact
    have hfreshOk := rootOk_freshCache hexact.records_below
    refine ⟨hinv, hchain ▸ concat_ne_nil _ _, ?_⟩
    obtain ⟨hcache, hfresh⟩ := afterConnect_rootCache h (Option.ite_none_left_eq_some.mp hs).2
    rcases hcache with hold | hnew
    · rcases hallowed with hchecked | hforeign
      · rw [hfresh hchain hchecked]
        exact hfreshOk
      · -- a cached hash could only be wrong for a quorum that this block mines again
        rw [hold]
        refine ⟨h.root.length, h.root.shape, ?_⟩
        intro type base hash qc blockHash hcached hget
        rcases mined_of_append h.chain.db hexact hget with hbelow | ⟨hmines, hkey, _⟩
        · exact h.root.values type base hash qc blockHash hcached hbelow
        · obtain ⟨rfl, rfl⟩ := Prod.mk.inj hkey
          exact hforeign qc hash hmines hcached
    · rw [hnew]
      exact hfreshOk
  | @shortened block hchain =>
    have hexact := h.chain.db
    rw [hchain] at hexact
    have hlong : t.chainActive ≠ [] := by
      intro hempty
      have hshort : s.chainActive.length ≤ 1 := by
        rw [hchain, hempty]
        exact Nat.le_refl 1
      rw [step, if_pos hshort] at hs
      cases hs
    exact ⟨hinv, hlong, hroot.of_db_eq (fun key mined hget => mined_append hinv.db hexact hget)⟩

lemma rootInv_of_reaches (hgenesis : blockCommitments env genesis = [])
    (h : Reaches (step env) (NoForeignHash env) (.start genesis) s) : RootInv env s :=
  h.invariant (rootInv_start hgenesis) (fun _ _ _ hinv hallowed hs => rootInv_step hinv hallowed hs)

/-- In a run that connects no block over a foreign hash, every call for a block that can be
    connected returns the root over the commitments active after that block, whatever the cache
    holds. It does so before the block is processed and, as during a connect, with the block already
    in the database. -/
theorem cached_quorum_root_correct (env : BlockEnv) {genesis block : CBlock} {s t : LlmqState}
    (hgenesis : blockCommitments env.toLlmqEnv genesis = [])
    (hreach : Reaches (step env) (NoForeignHash env) (.start genesis) s)
    (hnew : block.hash ∉ s.chainActive.map CBlock.hash)
    (hok : processSpecialTxsInBlock env block false s = .ok () t)
    (hcoinbase : ∀ tx, block.vtx.head? = some tx → tx.nType ≠ .TRANSACTION_QUORUM_COMMITMENT) :
    ∃ root, quorumMerkleRoot env t.db (s.chainActive ++ [block]) = .ok root ∧
      ∀ db ∈ [s.db, t.db], ∃ cache,
        calcCbTxMerkleRootQuorums env db s.chainActive block s.rootCache = .ok (root, cache) := by
  have hinv := rootInv_of_reaches hgenesis hreach
  obtain ⟨core, hsame, _, hown, hexact, hrule⟩ :=
    (processSpecialTxsInBlock_triple block false hinv.chain).of_ok rfl hok
  have hdb : t.db = core.db := by rw [LlmqState.db, hsame.2]
  have hcheck : checkSpecialTxs env s.chainActive block.vtx = .ok () := by
    obtain ⟨_, _, hget, hrest⟩ := bind_ok_iff.mp hok
    obtain ⟨rfl, rfl⟩ := get_ok_iff.mp hget
    obtain ⟨_, _, hlift, _⟩ := bind_ok_iff.mp hrest
    exact (lift_ok_iff.mp hlift).1
  -- the state with the block connected
  have hafter : ChainInv env.toLlmqEnv
      { s.withCore core with chainActive := s.chainActive ++ [block] } :=
    hinv.chain.append hnew hrule rfl hexact hown
  obtain ⟨merged, hmerged, hvec⟩ := mergeBlock_active hcheck hrule hcoinbase
  have hrecords : Records env.toLlmqEnv (s.chainActive ++ [block]) t.db :=
    hdb ▸ hexact.records
  have hroot := hafter.quorumMerkleRoot_eq hrecords (concat_ne_nil _ _)
  refine ⟨_, hroot, ?_⟩
  have hcalc : ∀ db, Records env.toLlmqEnv s.chainActive db → ∃ cache,
      calcCbTxMerkleRootQuorums env db s.chainActive block s.rootCache =
        .ok (env.computeMerkleRoot (qcHashesVec
          (activeHashes env.toLlmqEnv (s.chainActive ++ [block]))), cache) := by
    intro db hrec
    refine ⟨freshCache env.toLlmqEnv s.chainActive, ?_⟩
    rw [calcCbTxMerkleRootQuorums_eq hinv.chain hinv.nonempty hinv.root hrec, hmerged, ← hvec]
    rfl
  intro db hmem
  rcases mem_pair.mp hmem with rfl | rfl
  · exact hcalc _ hinv.chain.db.records
  · exact hcalc _ (by rw [hdb]; exact hexact.records_below)

namespace Sample

variable {type : LLMQType}

lemma latestMined_plainChain {n : Nat} :
    latestMined regtestBlockEnv type (plainChain n) = [] := by
  refine eq_nil_iff_forall_not_mem.mpr (fun qc hqc => ?_)
  obtain ⟨_, block, hblock, hmines⟩ := mem_latestMined hqc
  exact not_minedIn_plainChain qc.key ⟨block, hblock, qc, hmines, rfl⟩

variable (other : Bool)

/-- The small quorum is the only active one. -/
lemma latestMined_minedBlock :
    latestMined regtestBlockEnv type (minedChain other) =
      if type = .LLMQ_5_60 then [rival other] else [] := by
  have hnodup : ((blockCommitments regtestBlockEnv (minedBlock other)).map
      CFinalCommitment.llmqType).Nodup := by
    rw [blockCommitments_minedBlock]
    exact nodup_singleton _
  have hrival : (rival other).llmqType = .LLMQ_5_60 := congrArg Prod.fst (rival_key other)
  rw [latestMined_append, latestMined_plainChain, append_nil]
  split_ifs with htype
  · rw [htype, minedOf_of_mines hnodup (mines_minedBlock other) hrival]
    rfl
  · rw [minedOf_eq_none]
    · rfl
    · intro qc hmines heq
      have hmem := hmines.1
      rw [blockCommitments_minedBlock, mem_singleton] at hmem
      exact htype (heq.symm.trans (hmem ▸ hrival))

lemma activeHashes_minedBlock :
    qcHashesVec (activeHashes regtestBlockEnv (minedChain other))
      = [(rival other).quorumVvecHash] := by
  have hentries : (activeHashes regtestBlockEnv
      (minedChain other)).entries.flatMap Prod.snd
        = [(rival other).quorumVvecHash] := by
    simp only [activeHashes, mapVals, activeCommitments, latestMined_minedBlock]
    rfl
  rw [qcHashesVec, hentries, sortHashes, mergeSort_singleton]

/-- Both blocks make the same quorum active. -/
lemma activeBases_minedBlock : activeBases regtestBlockEnv (minedChain true)
    = activeBases regtestBlockEnv (minedChain false) := by
  simp only [activeBases, activeCommitments, latestMined_minedBlock]
  rfl

lemma activeHashes_append_plainBlock {n : Nat} :
    activeHashes regtestBlockEnv (chain ++ [plainBlock n])
      = activeHashes regtestBlockEnv chain := by
  have hnone : ∀ type, minedOf regtestBlockEnv type (plainBlock n) = none :=
    fun type => minedOf_eq_none (fun qc hmines => nomatch hmines.1)
  simp only [activeHashes, activeCommitments, latestMined_append, hnone]
  rfl

/-- With the quorum mined, a block without commitments may follow. -/
lemma sessionRule_after_minedBlock :
    SessionRule regtestBlockEnv (minedChain other) (plainBlock 10501) where
  premature := fun _ => rfl
  distinct := nodup_nil
  ofSession := fun qc hqc => nomatch hqc
  required := by
    intro _ type params quorumHash hparams hquorum hphase hnot
    have hlength : (minedChain other).length = 10501 := by
      rw [length_append, plainChain_length, length_singleton]
    rw [hlength] at hquorum hphase
    obtain ⟨rfl, rfl⟩ := window_small_quorum (by decide) hparams hphase
    refine absurd ⟨minedBlock other, mem_append_cons_self, rival other,
      mines_minedBlock other, ?_⟩ hnot
    have hbase : getBlockHash (minedChain other) 10488 = some (hashOf 10488) := by
      rw [getBlockHash, getElem?_append_left (by rw [plainChain_length]; decide),
        plainChain_getElem? (by decide)]
      rfl
    have hheight : getQuorumBlockHash llmq5_60 (minedChain other) 10501
        = getBlockHash (minedChain other) 10488 := rfl
    rw [hheight, hbase, Option.some.injEq] at hquorum
    rw [rival_key, hquorum]

end Sample

open Sample in
/-- The root of the block that mines the first commitment. -/
theorem cached_quorum_root_correct_minedBlock :
    ∃ s t root, RegtestReaches (NoForeignHash regtestBlockEnv) s ∧
      processSpecialTxsInBlock regtestBlockEnv (minedBlock false) false s = .ok () t ∧
      quorumMerkleRoot regtestBlockEnv t.db (s.chainActive ++ [minedBlock false]) = .ok root ∧
      ∃ cache, calcCbTxMerkleRootQuorums regtestBlockEnv s.db s.chainActive (minedBlock false)
        s.rootCache = .ok (root, cache) := by
  obtain ⟨s, hreach, hs⟩ := reaches_plainChain (NoForeignHash regtestBlockEnv)
    (fun n s => .inr (fun qc hash hmines _ => nomatch hmines.1)) (n := 10499) (by decide)
  have hinv := chainInv_of_reaches blockCommitments_plainBlock hreach
  obtain ⟨core, _, hok⟩ := process_minedBlock hinv hs.chain
  obtain ⟨root, hroot, hcalls⟩ := cached_quorum_root_correct regtestBlockEnv
    blockCommitments_plainBlock hreach (hs.chain ▸ minedBlock_hash_new false) hok
    (fun tx htx => by
      cases htx
      decide)
  exact ⟨s, _, root, hreach, hok, hroot, hcalls _ (.head _)⟩

open Sample in
/-- A call after the first block fills the cache. The block is replaced by the one with the other
    commitment, and the next call still returns the root over the first. -/
theorem remined_quorum_root_stale :
    ∃ s t cache, RegtestReaches (fun _ _ => True) s ∧
      processSpecialTxsInBlock regtestBlockEnv (plainBlock 10501) false s = .ok () t ∧
      quorumMerkleRoot regtestBlockEnv t.db (s.chainActive ++ [plainBlock 10501])
        = .ok (102, false) ∧
      calcCbTxMerkleRootQuorums regtestBlockEnv s.db s.chainActive (plainBlock 10501) s.rootCache
        = .ok ((101, false), cache) := by
  have hallowed : ∀ s, PlainState 10500 s →
      NoForeignHash regtestBlockEnv (.connect (minedBlock false) true) s := by
    refine fun s hs => .inr ?_
    rintro qc hash _ ⟨e, e', hmem, _⟩
    rw [hs.root] at hmem
    cases hmem
  obtain ⟨s0, core1, hs0, hminable1, hreach1⟩ := reaches_minedBlock (NoForeignHash regtestBlockEnv)
    (fun n s => .inr (fun qc hash hmines _ => nomatch hmines.1)) hallowed
  have hinv1 := rootInv_of_reaches blockCommitments_plainBlock hreach1
  -- a call for the next block leaves the hash of the first commitment
  obtain ⟨s2, hs2, hstep2⟩ : ∃ s2 : LlmqState, s2 = { withMined false s0 core1 with
        rootCache := freshCache regtestBlockEnv.toLlmqEnv (minedChain false) } ∧
      step regtestBlockEnv (.calcRoot (plainBlock 10501)) (withMined false s0 core1) = some s2 := by
    refine ⟨_, rfl, Option.map_eq_some_iff.mpr ⟨_, toOption_eq_some_iff.mpr
      (calcCbTxMerkleRootQuorums_eq hinv1.chain hinv1.nonempty hinv1.root
        hinv1.chain.db.records (plainBlock 10501)), rfl⟩⟩
  have hreach2 : RegtestReaches (fun _ _ => True) s2 :=
    (hreach1.mono (fun _ _ _ => trivial)).next _ trivial hstep2
  obtain ⟨core4, hreach4⟩ := reaches_remined hreach2 (congrArg LlmqState.chainActive hs2)
    (by rw [hs2]; exact hminable1.2.trans hs0.minable)
  have hinv4 := chainInv_of_reaches blockCommitments_plainBlock hreach4
  obtain ⟨core5, _, hok5⟩ := process_plainBlock hinv4 (sessionRule_after_minedBlock true)
  refine ⟨_, _, freshCache regtestBlockEnv.toLlmqEnv (minedChain false), hreach4, hok5,
    ?_, ?_⟩
  · obtain ⟨core, hsame, _, hown, hexact, hrule⟩ := (processSpecialTxsInBlock_triple
      (plainBlock 10501) false hinv4).of_ok rfl hok5
    obtain rfl : core5 = core := congrArg ManagerState.core hsame.2
    have hnew : (plainBlock 10501).hash ∉ (minedChain true).map CBlock.hash := by
      rw [map_append, mem_append, not_or]
      exact ⟨hashOf_not_mem_plainChain (by decide) (by decide), by decide⟩
    have hafter := (hinv4.append hnew hrule rfl hexact hown :
      ChainInv regtestBlockEnv.toLlmqEnv { s2.withCore core5 with
        chainActive := minedChain true ++ [plainBlock 10501] })
    have hroot := hafter.quorumMerkleRoot_eq hexact.records (concat_ne_nil _ _)
    refine hroot.trans ?_
    rw [activeHashes_append_plainBlock, activeHashes_minedBlock]
    rfl
  · have hbases := hinv4.getMinedAndActive_eq hinv4.db.records (concat_ne_nil _ _)
    refine except_bind_ok_iff.mpr ⟨_, hbases, ?_⟩
    refine except_bind_ok_iff.mpr ⟨(activeHashes regtestBlockEnv.toLlmqEnv
      (minedChain false), freshCache regtestBlockEnv.toLlmqEnv
      (minedChain false)), ?_, ?_⟩
    · -- the base blocks are those of the cache
      rw [qcHashesCachedOf]
      show (if activeBases regtestBlockEnv.toLlmqEnv (minedChain true)
        = s2.rootCache.quorumsCached then _ else _) = _
      rw [if_pos (by rw [activeBases_minedBlock, hs2]; rfl)]
      show Except.ok (s2.rootCache.qcHashesCached, s2.rootCache) = _
      rw [hs2]
      rfl
    · refine except_bind_ok_iff.mpr ⟨_, rfl, ?_⟩
      rw [activeHashes_minedBlock]
      rfl

end Tecracoin.Llmq
