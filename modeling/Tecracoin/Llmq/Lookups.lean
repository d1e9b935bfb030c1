/-
  `CQuorumManager::GetQuorum` and reorganisations.

  Quorum objects are cached under their type and base block and are never
  removed.  Undoing a commitment hides the object, because the question whether
  a commitment is mined is asked first; mining another commitment for the same
  base block shows the old object again.  The theorem says exactly when that
  happens.
-/
import Tecracoin.Llmq.Regtest

namespace Tecracoin.Llmq

open Data StdMap

variable {env : LlmqEnv} {s t : LlmqState} {db db' : QuorumDb} {chain : CChain} {key : QuorumKey}
  {qc : CFinalCommitment} {m : ManagerState} {blockHash : Uint256} {block : CBlock} {op : LlmqOp}
  {r : Option CQuorum × ManagerState}

/-- A cached object of a quorum with a mined commitment is the one that would be built from it. -/
def QuorumsOk (db : QuorumDb) (quorumsCache : StdMap QuorumKey CQuorum) : Prop :=
  ∀ key quorum mined, quorumsCache.get? key = some quorum →
    db.minedCommitment.get? key = some mined → mined = (quorum.qc, quorum.minedBlockHash)

/-- Commitments are stored under their own quorum. -/
def KeysOk (db : QuorumDb) : Prop :=
  ∀ key qc blockHash, db.minedCommitment.get? key = some (qc, blockHash) → qc.key = key

lemma DbExact.keysOk (h : DbExact env chain db) : KeysOk db := by
  intro key qc blockHash hget
  obtain ⟨_, _, _, hkey, _⟩ := (h.mined key qc blockHash).mp hget
  exact hkey

/-! ## One lookup -/

/-- The object built from what the database holds. -/
def builtQuorum (env : LlmqEnv) (qc : CFinalCommitment) (blockHash : Uint256) : CQuorum :=
  ⟨qc, qc.quorumHash, blockHash, env.getAllQuorumMembers qc.llmqType qc.quorumHash⟩

section
variable (hcache : CacheOk m.core.db m.core.processor)
include hcache

lemma getQuorum_of_not_mined (hget : m.core.db.minedCommitment.get? key = none) :
    getQuorum env key m = .ok (none, { m with core := rememberMined m.core key }) := by
  have hanswer : minedAnswer m.core key = false := by
    rw [minedAnswer_eq hcache rfl, contains_of_get?_none hget]
  rw [getQuorum, hasMinedCommitment_apply, hanswer]
  rfl

section
variable (hget : m.core.db.minedCommitment.get? key = some (qc, blockHash))
include hget

lemma getQuorum_of_mined :
    getQuorum env key m = getMinedQuorum env key { m with core := rememberMined m.core key } := by
  have hanswer : minedAnswer m.core key = true := by
    rw [minedAnswer_eq hcache rfl, contains_of_get? hget]
  rw [getQuorum, hasMinedCommitment_apply, hanswer]
  rfl

lemma getQuorum_of_cached {quorum : CQuorum} (hquorum : m.quorumsCache.get? key = some quorum) :
    getQuorum env key m = .ok (some quorum, { m with core := rememberMined m.core key }) := by
  rw [getQuorum_of_mined hcache hget, getMinedQuorum]
  simp only [hquorum]

end

lemma getQuorum_of_uncached (hkeys : KeysOk m.core.db)
    (hget : m.core.db.minedCommitment.get? key = some (qc, blockHash))
    (hquorum : m.quorumsCache.get? key = none) :
    getQuorum env key m = .ok (some (builtQuorum env qc blockHash), { m with
        core := rememberMined m.core key
        quorumsCache :=
          m.quorumsCache.insert unordered key (builtQuorum env qc blockHash) }) := by
  have hhash : qc.quorumHash = key.2 := congrArg Prod.snd (hkeys key qc blockHash hget)
  have hbuild : buildQuorumFromCommitment env qc key.2 blockHash
      = .ok (builtQuorum env qc blockHash) := by
    rw [buildQuorumFromCommitment, if_neg (not_not.mpr hhash), ← hhash, builtQuorum]
  rw [getQuorum_of_mined hcache hget, getMinedQuorum]
  have hmined : (rememberMined m.core key).db.getMinedCommitment key = some (qc, blockHash) := hget
  simp only [hquorum, hmined, hbuild]
  rfl

end

/-- A lookup returns an object exactly when a commitment is mined, and leaves the cache in order. -/
lemma getQuorum_spec (env : LlmqEnv) (hcache : CacheOk m.core.db m.core.processor)
    (hkeys : KeysOk m.core.db) (key : QuorumKey) :
    ∃ r, getQuorum env key m = .ok r ∧
      (r.1 = none ↔ m.core.db.minedCommitment.get? key = none) ∧
      (QuorumsOk m.core.db m.quorumsCache → QuorumsOk m.core.db r.2.quorumsCache ∧
        ∀ quorum, r.1 = some quorum →
          m.core.db.minedCommitment.get? key = some (quorum.qc, quorum.minedBlockHash)) := by
  cases hget : m.core.db.minedCommitment.get? key with
  | none =>
    refine ⟨_, getQuorum_of_not_mined hcache hget, ⟨fun _ => rfl, fun _ => rfl⟩, ?_⟩
    exact fun hok => ⟨hok, fun quorum hsome => nomatch hsome⟩
  | some mined =>
    obtain ⟨qc, blockHash⟩ := mined
    cases hquorum : m.quorumsCache.get? key with
    | some quorum =>
      refine ⟨_, getQuorum_of_cached hcache hget hquorum, ⟨nofun, nofun⟩, ?_⟩
      intro hok
      refine ⟨hok, fun quorum' hsome => ?_⟩
      rw [← Option.some.inj hsome]
      exact congrArg some (hok key quorum _ hquorum hget)
    | none =>
      refine ⟨_, getQuorum_of_uncached hcache hkeys hget hquorum, ⟨nofun, nofun⟩, ?_⟩
      intro hok
      refine ⟨?_, fun quorum' hsome => ?_⟩
      · intro key' quorum' mined hcached hmined
        rcases get?_insert_eq_some hcached with ⟨rfl, rfl⟩ | hcached
        · rw [hget, Option.some.injEq] at hmined
          rw [← hmined]
          rfl
        · exact hok key' quorum' mined hcached hmined
      · rw [← Option.some.inj hsome]
        rfl

lemma getQuorum_db (h : getQuorum env key m = .ok r) : r.2.core.db = m.core.db := by
  rw [getQuorum_core h]
  rfl

section
variable (hcache : CacheOk m.core.db m.core.processor)
include hcache

lemma quorumsOk_getQuorum (hkeys : KeysOk m.core.db) (hok : QuorumsOk m.core.db m.quorumsCache)
    (h : getQuorum env key m = .ok r) : QuorumsOk m.core.db r.2.quorumsCache := by
  obtain ⟨r', hr', _, hkeep⟩ := getQuorum_spec env hcache hkeys key
  cases hr'.symm.trans h
  exact (hkeep hok).1

lemma quorumsOk_scanQuorums {params : LLMQParams} {maxCount : Nat}
    {r : List CQuorum × ManagerState} (hkeys : KeysOk m.core.db)
    (hok : QuorumsOk m.core.db m.quorumsCache)
    (h : scanQuorums env params chain maxCount m = .ok r) :
    QuorumsOk m.core.db r.2.quorumsCache := by
  refine (scanQuorums_keeps (P := fun core quorumsCache => core.db = m.core.db ∧
    CacheOk m.core.db core.processor ∧ QuorumsOk m.core.db quorumsCache) ?_
    ⟨rfl, hcache, hok⟩ h).2.2
  rintro key t r' ⟨hdb, hcache, hok⟩ hget
  rw [← hdb] at hcache hok hkeys ⊢
  have hok' := quorumsOk_getQuorum hcache hkeys hok hget
  rw [getQuorum_core hget]
  exact ⟨rfl, cacheOk_rememberMined hcache rfl, hok'⟩

end

/-! ## Steps -/

/-- Connecting a block meets no cached object of a quorum it mines, or the one that belongs to this
    commitment in this block. -/
def NoForeignObject (env : LlmqEnv) : LlmqOp → LlmqState → Prop
  | .connect block _, s =>
    ∀ qc quorum, Mines env block qc → s.manager.quorumsCache.get? qc.key = some quorum →
      (qc, block.hash) = (quorum.qc, quorum.minedBlockHash)
  | _, _ => True

/-- Blocks that are on both chains have the same commitments recorded. -/
lemma mined_of_append (h : DbExact env chain db) (h' : DbExact env (chain ++ [block]) db')
    (hget : db'.minedCommitment.get? key = some (qc, blockHash)) :
    db.minedCommitment.get? key = some (qc, blockHash) ∨
      (Mines env block qc ∧ qc.key = key ∧ block.hash = blockHash) := by
  obtain ⟨b, hb, hmines, hkey, hhash⟩ := (h'.mined key qc blockHash).mp hget
  rcases List.mem_append.mp hb with hb | hb
  · exact .inl ((h.mined key qc blockHash).mpr ⟨b, hb, hmines, hkey, hhash⟩)
  · obtain rfl := List.mem_singleton.mp hb
    exact .inr ⟨hmines, hkey, hhash⟩

lemma mined_append (h : DbExact env chain db) (h' : DbExact env (chain ++ [block]) db')
    {mined : CFinalCommitment × Uint256} (hget : db.minedCommitment.get? key = some mined) :
    db'.minedCommitment.get? key = some mined := by
  obtain ⟨b, hb, hrest⟩ := (h.mined key mined.1 mined.2).mp hget
  exact (h'.mined key mined.1 mined.2).mpr ⟨b, List.mem_append_left _ hb, hrest⟩

lemma step_quorumsCache {env : BlockEnv} (hinv : ChainInv env s)
    (hok : QuorumsOk s.db s.manager.quorumsCache) (hs : step env op s = some t) :
    t.manager.quorumsCache = s.manager.quorumsCache ∨
      (t.db = s.db ∧ QuorumsOk s.db t.manager.quorumsCache) := by
  have hkeys := hinv.db.keysOk
  cases op with
  | connect | tryConnect =>
    obtain ⟨hnew, hs⟩ := Option.ite_none_left_eq_some.mp hs
    exact .inl (afterConnect_move hinv hnew hs).2.2
  | disconnect =>
    obtain ⟨_, hs⟩ := Option.ite_none_left_eq_some.mp hs
    exact .inl (disconnectTip_move hinv hs).2.2
  | getQuorum key =>
    obtain ⟨r, hr, rfl⟩ := Option.map_eq_some_iff.mp hs
    have hget := toOption_eq_some_iff.mp hr
    exact .inr ⟨getQuorum_db hget, quorumsOk_getQuorum hinv.cache hkeys hok hget⟩
  | scanQuorums params nHeight maxCount =>
    obtain ⟨r, hr, rfl⟩ := Option.map_eq_some_iff.mp hs
    have hscan := toOption_eq_some_iff.mp hr
    exact .inr ⟨(quiet_scanQuorums hscan).1, quorumsOk_scanQuorums hinv.cache hkeys hok hscan⟩
  | calcRoot | message | addMinableCommitment =>
    obtain ⟨r, _, rfl⟩ := Option.map_eq_some_iff.mp hs
    exact .inl rfl
  | evict =>
    cases hs
    exact .inl rfl
  | hasMinedCommitment | getMinableCommitment =>
    obtain ⟨_, core, _, rfl⟩ := finalCore_eq_some hs
    exact .inl rfl

lemma quorumsOk_step {env : BlockEnv} (hinv : ChainInv env s)
    (hok : QuorumsOk s.db s.manager.quorumsCache) (hallowed : NoForeignObject env op s)
    (hs : step env op s = some t) : QuorumsOk t.db t.manager.quorumsCache := by
  rcases step_quorumsCache hinv hok hs with hsame | ⟨hdb, hok'⟩
  · obtain ⟨hinv', hmove⟩ := step_move hinv hs
    rw [hsame]
    cases hmove with
    | same hchain hdb =>
      rw [hdb]
      exact hok
    | @extended block fCheck hnew hrule hchain =>
      have hexact := hinv'.db
      rw [hchain] at hexact
      rintro key quorum ⟨qc, blockHash⟩ hcached hget
      rcases mined_of_append hinv.db hexact hget with hold | ⟨hmines, rfl, rfl⟩
      · exact hok key quorum _ hcached hold
      · exact hallowed qc quorum hmines hcached
    | @shortened block hchain =>
      have hexact := hinv.db
      rw [hchain] at hexact
      exact fun key quorum mined hcached hget =>
        hok key quorum mined hcached (mined_append hinv'.db hexact hget)
  · rw [hdb]
    exact hok'

/-! ## Lookups along runs -/

/-- Every lookup in the state answers for the active chain. -/
def LookupsFollow (env : LlmqEnv) (s : LlmqState) : Prop :=
  ∀ key, ∃ r, getQuorum env key s.manager = .ok r ∧
    (r.1 = none ↔ ¬MinedIn env s.chainActive key) ∧
    ∀ quorum, r.1 = some quorum →
      s.db.getMinedCommitment key = some (quorum.qc, quorum.minedBlockHash)

lemma minedIn_iff_get? (h : DbExact env chain db) :
    db.minedCommitment.get? key = none ↔ ¬MinedIn env chain key := by
  rw [← h.not_contains_iff, contains, Option.isSome_eq_false_iff, Option.isNone_iff_eq_none]

lemma lookupsFollow_of_quorumsOk (hinv : ChainInv env s)
    (hok : QuorumsOk s.db s.manager.quorumsCache) : LookupsFollow env s := by
  intro key
  obtain ⟨r, hr, hnone, hkeep⟩ :=
    getQuorum_spec env (m := s.manager) hinv.cache hinv.db.keysOk key
  exact ⟨r, hr, hnone.trans (minedIn_iff_get? hinv.db), (hkeep hok).2⟩

lemma quorumsOk_of_reaches {env : BlockEnv} {genesis : CBlock}
    (hgenesis : blockCommitments env genesis = [])
    (h : Reaches (step env) (NoForeignObject env) (.start genesis) s) :
    ChainInv env s ∧ QuorumsOk s.db s.manager.quorumsCache := by
  refine h.invariant (P := fun s => ChainInv env s ∧
    QuorumsOk s.db s.manager.quorumsCache) ⟨chainInv_start hgenesis, ?_⟩ ?_
  · exact nofun
  · rintro op s t ⟨hinv, hok⟩ hallowed hs
    exact ⟨(step_move hinv hs).1, quorumsOk_step hinv hok hallowed hs⟩

/-- `GetQuorum` never fails and returns null exactly for quorums without a mined commitment, in
    every run. When no block was connected over a foreign object it returns what the active chain
    stores, and connecting such a block breaks that at once. -/
theorem quorum_lookups_follow_iff (env : BlockEnv) {genesis : CBlock}
    (hgenesis : blockCommitments env.toLlmqEnv genesis = []) :
    (∀ s, Reaches (step env) (fun _ _ => True) (.start genesis) s → ∀ key,
      ∃ r, getQuorum env.toLlmqEnv key s.manager = .ok r ∧
        (r.1 = none ↔ ¬MinedIn env.toLlmqEnv s.chainActive key)) ∧
    ∀ s, Reaches (step env) (NoForeignObject env.toLlmqEnv) (.start genesis) s →
      LookupsFollow env.toLlmqEnv s ∧
      ∀ block fCheck t, step env (.connect block fCheck) s = some t →
        t.chainActive = s.chainActive ++ [block] →
        (LookupsFollow env.toLlmqEnv t ↔
          NoForeignObject env.toLlmqEnv (.connect block fCheck) s) := by
  refine ⟨?_, ?_⟩
  · intro s hreach key
    have hinv := chainInv_of_reaches hgenesis hreach
    obtain ⟨r, hr, hnone, _⟩ :=
      getQuorum_spec env.toLlmqEnv (m := s.manager) hinv.cache hinv.db.keysOk key
    exact ⟨r, hr, hnone.trans (minedIn_iff_get? hinv.db)⟩
  · intro s hreach
    obtain ⟨hinv, hok⟩ := quorumsOk_of_reaches hgenesis hreach
    refine ⟨lookupsFollow_of_quorumsOk hinv hok, ?_⟩
    intro block fCheck t hs hchain
    have hinv' := (step_move hinv hs).1
    constructor
    · intro hfollow qc quorum hmines hcached
      -- the object is still cached, and the new commitment makes it visible
      have hcached' : t.manager.quorumsCache.get? qc.key = some quorum := by
        obtain ⟨hnew, hs⟩ := Option.ite_none_left_eq_some.mp hs
        rw [(afterConnect_move hinv hnew hs).2.2]
        exact hcached
      have hstored : t.db.minedCommitment.get? qc.key = some (qc, block.hash) := by
        exact (hinv'.db.mined _ _ _).mpr
          ⟨block, hchain ▸ List.mem_append_cons_self, hmines, rfl, rfl⟩
      obtain ⟨r, hr, _, hanswer⟩ := hfollow qc.key
      rw [getQuorum_of_cached hinv'.cache hstored hcached'] at hr
      have hreturned : r.1 = some quorum := (congrArg Prod.fst (Except.ok.inj hr)).symm
      exact Option.some.inj (hstored.symm.trans (hanswer quorum hreturned))
    · intro hallowed
      exact lookupsFollow_of_quorumsOk hinv' (quorumsOk_step hinv hok hallowed hs)

open Sample in
/-- The first of the two commitments is looked up after it has been mined. -/
theorem quorum_lookups_follow_iff_minedBlock :
    ∃ s, RegtestReaches (NoForeignObject regtestBlockEnv.toLlmqEnv) s ∧
      minedBlock false ∈ s.chainActive ∧ LookupsFollow regtestBlockEnv.toLlmqEnv s := by
  obtain ⟨s, core, _, _, hreach⟩ := reaches_minedBlock (NoForeignObject regtestBlockEnv.toLlmqEnv)
    (fun n s qc quorum hmines _ => nomatch hmines.1)
    (fun s hs qc quorum _ hcached => by
      rw [hs.quorums, get?_empty] at hcached
      cases hcached)
  exact ⟨_, hreach, List.mem_append_cons_self,
    ((quorum_lookups_follow_iff regtestBlockEnv blockCommitments_plainBlock).2 _ hreach).1⟩

open Sample in
lemma stored_of_minedBlock {s : LlmqState} {chain : CChain} {other : Bool}
    (h : ChainInv regtestBlockEnv s) (hchain : s.chainActive = chain ++ [minedBlock other]) :
    s.db.minedCommitment.get? (.LLMQ_5_60, hashOf 10488)
      = some (rival other, (minedBlock other).hash) :=
  (h.db.mined _ _ _).mpr ⟨_, hchain ▸ List.mem_append_cons_self,
    mines_minedBlock other, rival_key other, rfl⟩

open Sample in
/-- The block with the first commitment is connected, the quorum is looked up, the block is replaced
    by the one with the other commitment: the lookup still returns the first. -/
theorem remined_quorum_stale :
    ∃ s quorum m, RegtestReaches (fun _ _ => True) s ∧
      getQuorum regtestBlockEnv.toLlmqEnv (.LLMQ_5_60, hashOf 10488) s.manager
        = .ok (some quorum, m) ∧
      quorum.qc = rival false ∧ quorum.minedBlockHash = (minedBlock false).hash ∧
      s.db.getMinedCommitment (.LLMQ_5_60, hashOf 10488)
        = some (rival true, (minedBlock true).hash) ∧
      rival false ≠ rival true := by
  obtain ⟨s0, core1, hs0, hminable1, hreach1⟩ := reaches_minedBlock (fun _ _ => True)
    (fun _ _ => trivial) (fun _ _ => trivial)
  have hinv1 := chainInv_of_reaches blockCommitments_plainBlock hreach1
  -- the lookup builds the object of the first commitment
  have hstored1 := stored_of_minedBlock hinv1 rfl
  have hempty1 : s0.manager.quorumsCache.get? (.LLMQ_5_60, hashOf 10488) = none := by
    rw [hs0.quorums, get?_empty]
  obtain ⟨s2, hstep2, hs2⟩ : ∃ s2,
      step regtestBlockEnv (.getQuorum (.LLMQ_5_60, hashOf 10488)) (withMined false s0 core1)
        = some s2 ∧
      s2 = (withMined false s0 core1).withManager
        { s0.manager with
          core := rememberMined core1 (.LLMQ_5_60, hashOf 10488)
          quorumsCache := s0.manager.quorumsCache.insert unordered
            (.LLMQ_5_60, hashOf 10488)
            (builtQuorum regtestBlockEnv.toLlmqEnv (rival false) (minedBlock false).hash) } := by
    refine ⟨_, ?_, rfl⟩
    exact Option.map_eq_some_iff.mpr ⟨_, toOption_eq_some_iff.mpr
      (getQuorum_of_uncached hinv1.cache hinv1.db.keysOk hstored1 hempty1), rfl⟩
  have hreach2 := hreach1.next (LlmqOp.getQuorum (.LLMQ_5_60, hashOf 10488)) trivial hstep2
  have hcached2 : s2.manager.quorumsCache.get? (.LLMQ_5_60, hashOf 10488)
      = some (builtQuorum regtestBlockEnv.toLlmqEnv (rival false) (minedBlock false).hash) := by
    rw [hs2]
    show (s0.manager.quorumsCache.insert _ _ _).get? _ = _
    rw [get?_insert_self, hempty1, Option.getD_none]
  obtain ⟨core4, hreach4⟩ := reaches_remined hreach2 (congrArg LlmqState.chainActive hs2)
    (by rw [hs2]; exact hminable1.2.trans hs0.minable)
  have hinv4 := chainInv_of_reaches blockCommitments_plainBlock hreach4
  have hstored4 := stored_of_minedBlock hinv4 rfl
  exact ⟨_, _, _, hreach4, getQuorum_of_cached hinv4.cache hstored4 hcached2, rfl, rfl, hstored4,
    by decide⟩

end Tecracoin.Llmq
