/-
  The commitments of a chain, session by session.

  The code decides by hashes: a commitment is due when the database has none
  for the base block of the session.  Hashes are distinct along a chain, so the
  base block stands for the session, and the rule each block obeys becomes a
  statement about heights.
-/
import Tecracoin.Llmq.Regtest

namespace Tecracoin.Llmq

open Data List

variable {h h' : Nat} {qc qc' : CFinalCommitment} {block : CBlock} {chain : CChain}
  {params : LLMQParams} {env : LlmqEnv} {s : LlmqState}

/-- The commitments of one type that a block carries. -/
def carried (env : LlmqEnv) (type : LLMQType) (block : CBlock) : List CFinalCommitment :=
  (blockCommitments env block).filter (fun qc => decide (qc.llmqType = type))

/-- The block at height `h` mines the non-null commitment `qc` of the type. -/
def MinesAt (env : LlmqEnv) (chain : CChain) (type : LLMQType) (h : Nat) (qc : CFinalCommitment) :
    Prop :=
  ∃ block, chain[h]? = some block ∧ Mines env block qc ∧ qc.llmqType = type

/-- Both heights belong to the session that starts at one multiple of `dkgInterval`. -/
def SameSession (params : LLMQParams) (h h' : Nat) : Prop :=
  h / params.dkgInterval = h' / params.dkgInterval

/-- The commitments of one type along a chain. -/
structure SessionsOk (env : LlmqEnv) (type : LLMQType) (params : LLMQParams) (chain : CChain) :
    Prop where
  /-- A session has at most one non-null commitment. -/
  unique : ∀ h h' qc qc', MinesAt env chain type h qc → MinesAt env chain type h' qc' →
    SameSession params h h' → h = h' ∧ qc = qc'
  /-- A block of the window carries one commitment of its session as long as no non-null one has
      been mined; it is null when a later block mines one. -/
  window : ∀ h block, chain[h]? = some block → env.DIP0003Height ≤ h →
    isMiningPhase params h = true →
    (∀ h' < h, SameSession params h h' → ∀ qc, ¬MinesAt env chain type h' qc) →
    ∃ qc, carried env type block = [qc] ∧
      getBlockHash chain (h - h % params.dkgInterval) = some qc.quorumHash ∧
      ∀ h' > h, SameSession params h h' → ∀ qc', MinesAt env chain type h' qc' →
        qc.isNull = true
  /-- Any other block carries none. -/
  outside : ∀ h block, chain[h]? = some block →
    (isMiningPhase params h = false ∨ h < env.DIP0003Height ∨
      ∃ h' < h, SameSession params h h' ∧ ∃ qc, MinesAt env chain type h' qc) →
    carried env type block = []

/-! ## Sessions and base blocks -/

lemma take_length_of_getElem? (hblock : chain[h]? = some block) : (chain.take h).length = h := by
  exact length_take_of_le (Nat.le_of_lt (List.getElem?_eq_some_iff.mp hblock).1)

lemma ChainInv.rule_at (hinv : ChainInv env s) (hblock : s.chainActive[h]? = some block) :
    SessionRule env (s.chainActive.take h) block := by
  obtain ⟨hlt, hget⟩ := List.getElem?_eq_some_iff.mp hblock
  refine hinv.rule _ _ (s.chainActive.drop (h + 1)) ?_
  rw [← hget, cons_getElem_drop_succ, take_append_drop]

lemma ChainInv.height_unique (hinv : ChainInv env s) {hash : Uint256}
    (hh : getBlockHash s.chainActive h = some hash)
    (hh' : getBlockHash s.chainActive h' = some hash) : h = h' := by
  have hmap : ∀ n, getBlockHash s.chainActive n = (s.chainActive.map CBlock.hash)[n]? := by
    intro n
    rw [getBlockHash, getElem?_map]
  rw [hmap] at hh hh'
  exact (getElem?_inj (List.getElem?_eq_some_iff.mp hh).1 hinv.nodup).mp (hh.trans hh'.symm)

/-- Inside a session the base block is below, and it does not change when the chain grows. -/
lemma getQuorumBlockHash_take (hphase : isMiningPhase params h = true) :
    getQuorumBlockHash params (chain.take h) h
      = getBlockHash chain (h - h % params.dkgInterval) := by
  have hpos : 0 < h % params.dkgInterval := by
    have hstart := params.windowStart_pos
    simp only [isMiningPhase, Bool.and_eq_true, decide_eq_true_eq] at hphase
    omega
  have hle : h % params.dkgInterval ≤ h := Nat.mod_le _ _
  rw [getQuorumBlockHash, getBlockHash, getBlockHash, getElem?_take_of_lt (by omega)]

lemma sameSession_iff :
    SameSession params h h' ↔ h - h % params.dkgInterval = h' - h' % params.dkgInterval := by
  have hbase : ∀ n, n - n % params.dkgInterval = params.dkgInterval * (n / params.dkgInterval) := by
    intro n
    have hn := Nat.div_add_mod n params.dkgInterval
    omega
  rw [SameSession, hbase, hbase]
  exact (Nat.mul_right_inj (Nat.ne_of_gt params.dkgInterval_pos)).symm

section Heights

variable {type : LLMQType}

section
variable (hinv : ChainInv env s)
include hinv

/-- A carried commitment is for the base block of the session of its height. -/
lemma ChainInv.base_of_carried (hparams : env.table.llmqs.get? type = some params)
    (hblock : s.chainActive[h]? = some block) (hqc : qc ∈ blockCommitments env block)
    (htype : qc.llmqType = type) :
    isMiningPhase params h = true ∧
      getBlockHash s.chainActive (h - h % params.dkgInterval) = some qc.quorumHash ∧
      ¬MinedIn env (s.chainActive.take h) (type, qc.quorumHash) := by
  obtain ⟨params', hparams', hquorum, hphase, hnot⟩ := (hinv.rule_at hblock).ofSession qc hqc
  rw [htype, hparams, Option.some.injEq] at hparams'
  subst hparams'
  rw [take_length_of_getElem? hblock] at hquorum hphase
  rw [getQuorumBlockHash_take hphase] at hquorum
  rw [CFinalCommitment.key, htype] at hnot
  exact ⟨hphase, hquorum, hnot⟩

/-- The base block has a commitment below `h` when an earlier block of the session mines one. -/
lemma ChainInv.minedIn_take_iff (hparams : env.table.llmqs.get? type = some params)
    (hblock : s.chainActive[h]? = some block) {base : Uint256}
    (hbase : getBlockHash s.chainActive (h - h % params.dkgInterval) = some base) :
    MinedIn env (s.chainActive.take h) (type, base) ↔
      ∃ h' < h, SameSession params h h' ∧ ∃ qc, MinesAt env s.chainActive type h' qc := by
  constructor
  · rintro ⟨b, hb, qc, hmines, hkey⟩
    obtain ⟨h', hlt, hget⟩ := getElem_of_mem hb
    rw [take_length_of_getElem? hblock] at hlt
    have hb' : s.chainActive[h']? = some b := by
      rw [getElem_take] at hget
      exact List.getElem?_eq_some_iff.mpr ⟨_, hget⟩
    have htype : qc.llmqType = type := congrArg Prod.fst hkey
    obtain ⟨_, hbase', _⟩ := hinv.base_of_carried hparams hb' hmines.1 htype
    rw [show qc.quorumHash = base from congrArg Prod.snd hkey] at hbase'
    exact ⟨h', hlt, sameSession_iff.mpr (hinv.height_unique hbase hbase'), qc, b, hb',
      hmines, htype⟩
  · rintro ⟨h', hlt, hsession, qc, b, hb, hmines, htype⟩
    obtain ⟨_, hbase', _⟩ := hinv.base_of_carried hparams hb hmines.1 htype
    rw [← sameSession_iff.mp hsession, hbase, Option.some.injEq] at hbase'
    refine ⟨b, ?_, qc, hmines, by rw [CFinalCommitment.key, htype, hbase']⟩
    refine mem_of_getElem? (i := h') ?_
    rw [getElem?_take_of_lt hlt, hb]

variable (hparams : env.table.llmqs.get? type = some params)
  (hmines : MinesAt env s.chainActive type h qc) (hmines' : MinesAt env s.chainActive type h' qc')
  (hsession : SameSession params h h')
include hparams hmines hmines' hsession

/-- The first non-null commitment of a session shuts out the later ones. -/
lemma ChainInv.not_mined_twice : ¬h < h' := by
  intro hlt
  obtain ⟨b', hb', hm', htype'⟩ := hmines'
  obtain ⟨_, hbase, hnot⟩ := hinv.base_of_carried hparams hb' hm'.1 htype'
  exact hnot ((hinv.minedIn_take_iff hparams hb' hbase).mpr ⟨h, hlt, hsession.symm, qc, hmines⟩)

lemma ChainInv.unique_at : h = h' ∧ qc = qc' := by
  have hnot := hinv.not_mined_twice hparams hmines hmines' hsession
  have hnot' := hinv.not_mined_twice hparams hmines' hmines hsession.symm
  have hheight : h = h' := by omega
  subst hheight
  obtain ⟨b, hb, hm, htype⟩ := hmines
  obtain ⟨b', hb', hm', htype'⟩ := hmines'
  rw [hb, Option.some.injEq] at hb'
  subst hb'
  -- two commitments of one type in a block are the same
  exact ⟨rfl, inj_on_of_nodup_map (hinv.rule_at hb).distinct hm.1 hm'.1
    (htype.trans htype'.symm)⟩

end

lemma filter_type_eq_singleton {qcs : List CFinalCommitment}
    (hnodup : (qcs.map CFinalCommitment.llmqType).Nodup) (hqc : qc ∈ qcs)
    (htype : qc.llmqType = type) : qcs.filter (fun qc => decide (qc.llmqType = type)) = [qc] := by
  refine perm_singleton.mp ((perm_ext_iff_of_nodup (hnodup.of_map.filter _)
    (nodup_singleton _)).mpr (fun q => ?_))
  rw [mem_filter, decide_eq_true_iff, mem_singleton]
  constructor
  · rintro ⟨hq, hqtype⟩
    exact inj_on_of_nodup_map hnodup hq hqc (hqtype.trans htype.symm)
  · rintro rfl
    exact ⟨hqc, htype⟩

lemma ChainInv.sessionsOk (hinv : ChainInv env s)
    (hparams : env.table.llmqs.get? type = some params) :
    SessionsOk env type params s.chainActive where
  unique := fun _ _ _ _ hmines hmines' hsession => hinv.unique_at hparams hmines hmines' hsession
  window := by
    intro h block hblock hactive hphase hnone
    have hlength := take_length_of_getElem? hblock
    have hrule := hinv.rule_at hblock
    -- the base block is in the chain
    have hlt : h - h % params.dkgInterval < s.chainActive.length := by
      have hh := (List.getElem?_eq_some_iff.mp hblock).1
      omega
    obtain ⟨base, hbase⟩ : ∃ base,
        getBlockHash s.chainActive (h - h % params.dkgInterval) = some base :=
      ⟨_, by rw [getBlockHash, getElem?_eq_getElem hlt, Option.map_some]⟩
    have hfree : ¬MinedIn env (s.chainActive.take h) (type, base) := by
      rw [hinv.minedIn_take_iff hparams hblock hbase]
      rintro ⟨h', hh', hsession, qc, hmines⟩
      exact hnone h' hh' hsession qc hmines
    obtain ⟨qc, hqc, htype⟩ := hrule.required (by rw [hlength]; exact hactive) type params base
      hparams (by rw [hlength, getQuorumBlockHash_take hphase, hbase])
      (by rw [hlength]; exact hphase) hfree
    refine ⟨qc, filter_type_eq_singleton hrule.distinct hqc htype, ?_, ?_⟩
    · exact (hinv.base_of_carried hparams hblock hqc htype).2.1
    · intro h' hh' hsession qc' hmines'
      by_contra hnull
      rw [Bool.not_eq_true] at hnull
      have hmines : MinesAt env s.chainActive type h qc := ⟨block, hblock, ⟨hqc, hnull⟩, htype⟩
      exact absurd (hinv.unique_at hparams hmines hmines' hsession).1 (Nat.ne_of_lt hh')
  outside := by
    intro h block hblock hreason
    refine filter_eq_nil_iff.mpr (fun qc hqc htrue => ?_)
    have htype := of_decide_eq_true htrue
    obtain ⟨hphase, hbase, hnot⟩ := hinv.base_of_carried hparams hblock hqc htype
    rcases hreason with hout | hearly | hmined
    · rw [hphase] at hout
      cases hout
    · have hempty := (hinv.rule_at hblock).premature
        (by rw [take_length_of_getElem? hblock]; exact hearly)
      rw [hempty] at hqc
      cases hqc
    · exact hnot ((hinv.minedIn_take_iff hparams hblock hbase).mpr hmined)

end Heights

/-! ## Along every run -/

/-- In every state that a node reaches by connecting and disconnecting blocks, the sessions of every
    quorum type are in order, and the database holds exactly the non-null commitments of the active
    chain. -/
theorem one_commitment_per_session (env : BlockEnv) {genesis : CBlock} {s : LlmqState}
    (hgenesis : blockCommitments env.toLlmqEnv genesis = [])
    (hreach : Reaches (step env) (fun _ _ => True) (.start genesis) s) :
    (∀ type params, env.table.llmqs.get? type = some params →
      SessionsOk env.toLlmqEnv type params s.chainActive) ∧
    (∀ block ∈ s.chainActive, ∀ qc ∈ blockCommitments env.toLlmqEnv block,
      env.table.llmqs.contains qc.llmqType = true) ∧
    (∀ key qc blockHash, s.db.getMinedCommitment key = some (qc, blockHash) ↔
      ∃ block ∈ s.chainActive, Mines env.toLlmqEnv block qc ∧ qc.key = key ∧
        block.hash = blockHash) := by
  have hinv := chainInv_of_reaches hgenesis hreach
  refine ⟨fun type params hparams => hinv.sessionsOk hparams, ?_, hinv.db.mined⟩
  intro block hblock qc hqc
  obtain ⟨h, hget⟩ := getElem?_of_mem hblock
  obtain ⟨params, hparams, _⟩ := (hinv.rule_at hget).ofSession qc hqc
  exact StdMap.contains_of_get? hparams

open Sample in
/-- The block at height 10500 carries the commitment of its session. -/
theorem one_commitment_per_session_minedBlock :
    ∃ s, RegtestReaches (fun _ _ => True) s ∧
      s.chainActive[10500]? = some (minedBlock false) ∧
      SessionsOk regtestBlockEnv.toLlmqEnv .LLMQ_5_60 llmq5_60 s.chainActive := by
  obtain ⟨s, core, _, _, hreach⟩ := reaches_minedBlock (fun _ _ => True) (fun _ _ => trivial)
    (fun _ _ => trivial)
  refine ⟨_, hreach, ?_, (one_commitment_per_session regtestBlockEnv
    blockCommitments_plainBlock hreach).1 _ _ rfl⟩
  have htop := getElem?_concat_length (l := plainChain 10500) (a := minedBlock false)
  rw [plainChain_length] at htop
  exact htop

open Sample in
/-- The session that starts at height 10488 has its non-null commitment at height 10500, and the
    block at height 10499, which lies in the window before it, carries none: the activation height
    is inside the window. -/
theorem window_before_activation_empty :
    ∃ s, RegtestReaches (fun _ _ => True) s ∧
      MinesAt regtestBlockEnv.toLlmqEnv s.chainActive .LLMQ_5_60 10500 (rival false) ∧
      SameSession llmq5_60 10499 10500 ∧ isMiningPhase llmq5_60 10499 = true ∧
      s.chainActive[10499]? = some (plainBlock 10499) ∧
      carried regtestBlockEnv.toLlmqEnv .LLMQ_5_60 (plainBlock 10499) = [] := by
  obtain ⟨s, core, _, _, hreach⟩ := reaches_minedBlock (fun _ _ => True) (fun _ _ => trivial)
    (fun _ _ => trivial)
  have htop := getElem?_concat_length (l := plainChain 10500) (a := minedBlock false)
  rw [plainChain_length] at htop
  refine ⟨_, hreach, ⟨minedBlock false, htop, ⟨?_, rival_isNull false⟩, rfl⟩, rfl, by decide,
    ?_, rfl⟩
  · rw [blockCommitments_minedBlock]
    exact mem_singleton_self _
  · exact (getElem?_append_left (by rw [plainChain_length]; decide)).trans
      (plainChain_getElem? (by decide))

end Tecracoin.Llmq
