/-
  The active quorums of a chain, and what the database and the merkle root
  function report of them.

  `latestMined` is the purpose: the non-null commitments of a type along the
  chain, latest first.  The iteration over the database by falling height finds
  their base blocks, and the hashes collected for these are the commitments'
  own.
-/
import Tecracoin.Llmq.Sessions

namespace Tecracoin.Llmq

open Data CFinalCommitment StdMap List

variable {env : LlmqEnv} {chain : CChain} {type : LLMQType} {db : QuorumDb} {block : CBlock}
  {qc : CFinalCommitment} {qcs : List CFinalCommitment} {maxCount : Nat}

/-- The non-null commitment of the type that a block mines. -/
def minedOf (env : LlmqEnv) (type : LLMQType) (block : CBlock) : Option CFinalCommitment :=
  ((carried env type block).filter (fun qc => !qc.isNull)).head?

/-- The non-null commitments of the type along the chain, latest first. -/
def latestMined (env : LlmqEnv) (type : LLMQType) (chain : CChain) : List CFinalCommitment :=
  chain.reverse.filterMap (minedOf env type)

/-- The commitments of the active quorums. -/
def activeCommitments (env : LlmqEnv) (chain : CChain) (type : LLMQType) (params : LLMQParams) :
    List CFinalCommitment :=
  (latestMined env type chain).take params.signingActiveQuorumCount

lemma latestMined_append :
    latestMined env type (chain ++ [block])
      = (minedOf env type block).toList ++ latestMined env type chain := by
  rw [latestMined, reverse_append, reverse_singleton, singleton_append, filterMap_cons, latestMined]
  cases minedOf env type block with
  | none => rfl
  | some qc => rfl

lemma mines_of_minedOf (h : minedOf env type block = some qc) :
    Mines env block qc ∧ qc.llmqType = type := by
  have hmem := mem_of_head? h
  rw [mem_filter, carried, mem_filter] at hmem
  obtain ⟨⟨hqc, htype⟩, hnull⟩ := hmem
  refine ⟨⟨hqc, ?_⟩, of_decide_eq_true htype⟩
  rw [← Bool.not_eq_true']
  exact hnull

/-- With distinct types it is the only one. -/
lemma minedOf_of_mines (hnodup : ((blockCommitments env block).map llmqType).Nodup)
    (hmines : Mines env block qc) (htype : qc.llmqType = type) :
    minedOf env type block = some qc := by
  rw [minedOf, carried, filter_type_eq_singleton hnodup hmines.1 htype,
    filter_cons_of_pos (by rw [hmines.2]; rfl), head?_cons]

lemma minedOf_eq_none
    (h : ∀ qc, Mines env block qc → qc.llmqType ≠ type) : minedOf env type block = none := by
  refine Option.eq_none_iff_forall_ne_some.mpr (fun qc hmined => ?_)
  obtain ⟨hmines, htype⟩ := mines_of_minedOf hmined
  exact absurd htype (h qc hmines)

lemma mem_latestMined (h : qc ∈ latestMined env type chain) :
    qc.llmqType = type ∧ ∃ block ∈ chain, Mines env block qc := by
  obtain ⟨block, hblock, hmined⟩ := mem_filterMap.mp h
  obtain ⟨hmines, htype⟩ := mines_of_minedOf hmined
  exact ⟨htype, block, mem_reverse.mp hblock, hmines⟩

/-! ## What the database reports -/

/-- The database records the blocks of the chain; it may record more blocks on top. -/
structure Records (env : LlmqEnv) (chain : CChain) (db : QuorumDb) : Prop where
  mined : ∀ block ∈ chain, ∀ qc, Mines env block qc →
    db.minedCommitment.get? qc.key = some (qc, block.hash)
  byHeight : ∀ type h quorumHeight, h < chain.length →
    (db.minedByHeight.get? (type, h) = some quorumHeight ↔
      ∃ block qc params, chain[h]? = some block ∧ Mines env block qc ∧ qc.llmqType = type ∧
        env.table.llmqs.get? type = some params ∧ quorumHeight = h - h % params.dkgInterval)

lemma DbExact.records (h : DbExact env chain db) : Records env chain db where
  mined := fun block hblock _ hmines => (h.mined _ _ _).mpr ⟨block, hblock, hmines, rfl, rfl⟩
  byHeight := fun type n quorumHeight _ => h.byHeight type n quorumHeight

lemma DbExact.records_below (h : DbExact env (chain ++ [block]) db) : Records env chain db where
  mined := fun b hb qc hmines =>
    (h.mined _ _ _).mpr ⟨b, mem_append_left _ hb, hmines, rfl, rfl⟩
  byHeight := by
    intro type n quorumHeight hn
    rw [h.byHeight, getElem?_append_left hn]

lemma Records.mined_of_latest (h : Records env chain db) (hqc : qc ∈ latestMined env type chain) :
    ∃ blockHash, db.minedCommitment.get? (type, qc.quorumHash) = some (qc, blockHash) := by
  obtain ⟨htype, block, hblock, hmines⟩ := mem_latestMined hqc
  have hget := h.mined block hblock qc hmines
  rw [key, htype] at hget
  exact ⟨block.hash, hget⟩

section Reported

variable {s : LlmqState} {params : LLMQParams}

/-- The genesis block mines nothing: its session has no base block below it. -/
lemma ChainInv.genesis_empty (hinv : ChainInv env s) {genesis : CBlock}
    (hgenesis : s.chainActive[0]? = some genesis) : blockCommitments env genesis = [] := by
  refine eq_nil_iff_forall_not_mem.mpr (fun qc hqc => ?_)
  obtain ⟨params, _, hquorum, _⟩ := (hinv.rule_at hgenesis).ofSession qc hqc
  rw [take_zero] at hquorum
  exact absurd hquorum (by simp [getQuorumBlockHash, getBlockHash])

/-- The heights found by the iteration lead to the base blocks of the latest commitments. -/
lemma ChainInv.minedUntil_bases (hinv : ChainInv env s) (hrec : Records env s.chainActive db)
    (hparams : env.table.llmqs.get? type = some params) {n : Nat} (hn : n < s.chainActive.length) :
    List.Forall₂ (fun quorumHeight qc =>
        getBlockHash s.chainActive quorumHeight = some qc.quorumHash)
      (db.minedUntil type n) (latestMined env type (s.chainActive.take (n + 1))) := by
  -- height by height, as the scan goes; the genesis block mines nothing
  induction n with
  | zero =>
    obtain ⟨genesis, hgenesis⟩ : ∃ genesis, s.chainActive[0]? = some genesis :=
      ⟨_, getElem?_eq_getElem hn⟩
    have htake : s.chainActive.take (0 + 1) = [] ++ [genesis] := by
      rw [take_add_one, hgenesis, take_zero]
      rfl
    have hnone : minedOf env type genesis = none := by
      refine minedOf_eq_none (fun qc hmines => ?_)
      have hmem := hmines.1
      rw [hinv.genesis_empty hgenesis] at hmem
      cases hmem
    rw [htake, latestMined_append, hnone]
    exact .nil
  | succ n ih =>
    obtain ⟨block, hblock⟩ : ∃ block, s.chainActive[n + 1]? = some block :=
      ⟨_, getElem?_eq_getElem hn⟩
    have hrest := ih (by omega)
    rw [take_add_one, hblock, Option.toList_some, latestMined_append]
    rw [QuorumDb.minedUntil]
    cases hmined : minedOf env type block with
    | some qc =>
      obtain ⟨hmines, htype⟩ := mines_of_minedOf hmined
      have hget := (hrec.byHeight type (n + 1) _ hn).mpr
        ⟨block, qc, params, hblock, hmines, htype, hparams, rfl⟩
      rw [hget]
      exact .cons (hinv.base_of_carried hparams hblock hmines.1 htype).2.1 hrest
    | none =>
      have hget : db.minedByHeight.get? (type, n + 1) = none := by
        refine Option.eq_none_iff_forall_ne_some.mpr (fun quorumHeight hget => ?_)
        obtain ⟨b, qc, _, hb, hmines, htype, _⟩ :=
          (hrec.byHeight type (n + 1) quorumHeight hn).mp hget
        rw [hblock, Option.some.injEq] at hb
        subst hb
        rw [minedOf_of_mines (hinv.rule_at hblock).distinct hmines htype] at hmined
        cases hmined
      rw [hget]
      exact hrest

lemma ancestorHashes_of_bases {heights : List Nat}
    (h : List.Forall₂ (fun quorumHeight qc => getBlockHash chain quorumHeight = some qc.quorumHash)
      heights qcs) : ancestorHashes chain heights = .ok (qcs.map quorumHash) := by
  induction h with
  | nil => rfl
  | cons hhead _ ih =>
    rw [ancestorHashes, hhead]
    simp only [ih]
    rfl

/-- `GetMinedCommitmentsUntilBlock` reports the base blocks of the active quorums. -/
lemma ChainInv.getMinedCommitmentsUntilBlock_eq (hinv : ChainInv env s)
    (hrec : Records env s.chainActive db) (hparams : env.table.llmqs.get? type = some params)
    (hne : s.chainActive ≠ []) :
    getMinedCommitmentsUntilBlock db s.chainActive type params.signingActiveQuorumCount =
      .ok ((activeCommitments env s.chainActive type params).map quorumHash) := by
  have hpos := length_pos_of_ne_nil hne
  have hbases := hinv.minedUntil_bases hrec hparams (n := s.chainActive.length - 1) (by omega)
  have hall : s.chainActive.length - 1 + 1 = s.chainActive.length := by omega
  rw [hall, take_length] at hbases
  exact ancestorHashes_of_bases (forall₂_take _ hbases)

end Reported

lemma commitmentHashes_of_mined (h : ∀ qc ∈ qcs, ∃ blockHash,
      db.minedCommitment.get? (type, qc.quorumHash) = some (qc, blockHash)) :
    commitmentHashes env db type (qcs.map quorumHash) = .ok (qcs.map env.serializeHash) := by
  induction qcs with
  | nil => rfl
  | cons qc rest ih =>
    obtain ⟨blockHash, hget⟩ := h qc (.head _)
    rw [map_cons, commitmentHashes, QuorumDb.getMinedCommitment, hget]
    simp only [ih (forall_mem_cons.mp h).2]
    rfl

/-! ## All types together -/

/-- The base blocks of the active quorums, by type. -/
def activeBases (env : LlmqEnv) (chain : CChain) : StdMap LLMQType (List Uint256) :=
  env.table.llmqs.mapVals (fun type params =>
    (activeCommitments env chain type params).map quorumHash)

/-- The hashes of the active commitments, by type. -/
def activeHashes (env : LlmqEnv) (chain : CChain) : StdMap LLMQType (List Uint256) :=
  env.table.llmqs.mapVals (fun type params =>
    (activeCommitments env chain type params).map env.serializeHash)

section AllTypes

variable {s : LlmqState}

lemma ChainInv.getMinedAndActive_eq (hinv : ChainInv env s)
    (hrec : Records env s.chainActive db) (hne : s.chainActive ≠ []) :
    getMinedAndActiveCommitmentsUntilBlock env db s.chainActive
      = .ok (activeBases env s.chainActive) := by
  refine mapM_eq_mapVals (fun e he => ?_)
  have hparams : env.table.llmqs.get? e.1 = some e.2 := get?_eq_some_iff.mpr he
  rw [env.table.type_of_get? hparams]
  exact hinv.getMinedCommitmentsUntilBlock_eq hrec hparams hne

lemma Records.qcHashesOf_eq (hrec : Records env chain db) :
    qcHashesOf env db (activeBases env chain) = .ok (activeHashes env chain) := by
  refine mapM_mapVals (fun e _ => commitmentHashes_of_mined (fun qc hqc => ?_))
  exact hrec.mined_of_latest (mem_of_mem_take hqc)

end AllTypes

/-- The root over the active commitments is what the database yields. -/
lemma ChainInv.quorumMerkleRoot_eq {env : BlockEnv} {s : LlmqState}
    (hinv : ChainInv env s) (hrec : Records env s.chainActive db) (hne : s.chainActive ≠ []) :
    quorumMerkleRoot env db s.chainActive =
      .ok (env.computeMerkleRoot (qcHashesVec (activeHashes env s.chainActive))) := by
  refine except_bind_ok_iff.mpr ⟨_, hinv.getMinedAndActive_eq hrec hne, ?_⟩
  exact except_bind_ok_iff.mpr ⟨_, hrec.qcHashesOf_eq, rfl⟩

/-! ## The block's own commitments -/

lemma pushHash_length {v : List Uint256} (qcHash : Uint256) (hmax : 0 < maxCount)
    (hv : v.length ≤ maxCount) : (pushHash maxCount v qcHash).length ≤ maxCount := by
  unfold pushHash
  split_ifs with hfull
  · rw [length_append, length_dropLast, length_singleton]
    omega
  · rw [length_append, length_singleton]
    omega

/-- Popping the last of a full list before pushing is taking one less. -/
lemma pushHash_take_perm (hmax : 0 < maxCount) {hashes : List Uint256} {qcHash : Uint256} :
    (pushHash maxCount (hashes.take maxCount) qcHash).Perm ((qcHash :: hashes).take maxCount) := by
  obtain ⟨n, rfl⟩ : ∃ n, maxCount = n + 1 := ⟨maxCount - 1, by omega⟩
  have hkept : (if (hashes.take (n + 1)).length = n + 1 then (hashes.take (n + 1)).dropLast
      else hashes.take (n + 1)) = hashes.take n := by
    rw [length_take]
    split_ifs with hfull
    · have hmin : min (n + 1 - 1) (n + 1) = n := by omega
      rw [dropLast_eq_take, length_take, hfull, take_take, hmin]
    · rw [take_of_length_le (by omega), take_of_length_le (by omega)]
  rw [pushHash, hkept, take_succ_cons]
  exact perm_append_singleton _ _

/-- The first non-null commitment of the type. -/
def minedAmong (type : LLMQType) (qcs : List CFinalCommitment) : Option CFinalCommitment :=
  ((qcs.filter (fun qc => decide (qc.llmqType = type))).filter (fun qc => !qc.isNull)).head?

/-- The hashes of a type with the one of a commitment pushed. -/
def pushMined (env : LlmqEnv) (type : LLMQType) (qc : Option CFinalCommitment)
    (v : List Uint256) : List Uint256 :=
  match env.table.llmqs.get? type, qc with
  | some params, some qc => pushHash params.signingActiveQuorumCount v (env.serializeHash qc)
  | _, _ => v

lemma pushMined_none : pushMined env type none = id := by
  funext v
  unfold pushMined
  cases env.table.llmqs.get? type <;> rfl

lemma minedAmong_cons (h : qc.isNull = true ∨ qc.llmqType ≠ type) :
    minedAmong type (qc :: qcs) = minedAmong type qcs := by
  unfold minedAmong
  by_cases htype : qc.llmqType = type
  · rw [filter_cons_of_pos (by simpa using htype),
      filter_cons_of_neg (by simp [h.resolve_right (not_not.mpr htype)])]
  · rw [filter_cons_of_neg (by simpa using htype)]

/-- What the loop over a block's transactions does to each type. -/
lemma mergeBlock_ok (vtx : List CTransaction) (qcHashes : StdMap LLMQType (List Uint256))
    (hpayload : ∀ tx ∈ vtx, tx.nVersion = 3 → tx.nType = .TRANSACTION_QUORUM_COMMITMENT →
      (env.getTxPayload tx).isSome = true)
    (hversion : ∀ tx, tx.nVersion ≠ 3 → env.getTxPayload tx = none)
    (hnodup : ((commitmentsOf env vtx).map llmqType).Nodup)
    (hknown : ∀ qc ∈ commitmentsOf env vtx, ∃ params v,
      env.table.llmqs.get? qc.llmqType = some params ∧ qcHashes.get? qc.llmqType = some v ∧
        v.length ≤ params.signingActiveQuorumCount) :
    ∃ merged, mergeBlock env vtx qcHashes = .ok merged ∧ ∀ type, merged.get? type =
      (qcHashes.get? type).map (pushMined env type (minedAmong type (commitmentsOf env vtx))) := by
  induction vtx generalizing qcHashes with
  | nil =>
    refine ⟨qcHashes, rfl, fun type => ?_⟩
    show _ = (qcHashes.get? type).map (pushMined env type none)
    rw [pushMined_none, Option.map_id_apply]
  | cons tx vtx ih =>
    have hpayload' := fun tx' htx' => hpayload tx' (.tail _ htx')
    by_cases hcommit : tx.nVersion = 3 ∧ tx.nType = .TRANSACTION_QUORUM_COMMITMENT
    · obtain ⟨payload, hsome⟩ := Option.isSome_iff_exists.mp
        (hpayload tx (.head _) hcommit.1 hcommit.2)
      have hcons : commitmentsOf env (tx :: vtx) = payload.commitment :: commitmentsOf env vtx := by
        simp [commitmentsOf, hcommit.2, hsome]
      rw [hcons] at hnodup hknown ⊢
      rw [map_cons, nodup_cons] at hnodup
      obtain ⟨⟨params, v, hparams, hv, hlength⟩, hrest⟩ := forall_mem_cons.mp hknown
      rw [mergeBlock, if_pos hcommit, hsome]
      simp only
      cases hnull : payload.commitment.isNull with
      | true =>
        rw [if_pos rfl]
        obtain ⟨merged, hmerged, hget⟩ := ih _ hpayload' hnodup.2 hrest
        exact ⟨merged, hmerged, fun type => by rw [hget, minedAmong_cons (.inl hnull)]⟩
      | false =>
        have htype := env.table.type_of_get? hparams
        have hpushlen := pushHash_length (env.serializeHash payload.commitment)
          params.signingActiveQuorumCount_pos hlength
        rw [if_neg Bool.false_ne_true, hparams]
        simp only [htype, hv, Option.getD_some, if_pos hpushlen]
        have hother (qc : CFinalCommitment) (hqc : qc ∈ commitmentsOf env vtx) :
            qc.llmqType ≠ payload.commitment.llmqType :=
          fun heq => hnodup.1 (heq ▸ mem_map_of_mem hqc)
        obtain ⟨merged, hmerged, hget⟩ := ih (qcHashes.set LLMQType.lt payload.commitment.llmqType
          (pushHash params.signingActiveQuorumCount v (env.serializeHash payload.commitment)))
          hpayload' hnodup.2 (fun qc hqc => by
          rw [get?_set_of_ne (hother qc hqc)]
          exact hrest qc hqc)
        refine ⟨merged, hmerged, fun type => ?_⟩
        rw [hget]
        by_cases hsame : payload.commitment.llmqType = type
        · subst hsame
          have hlater : minedAmong payload.commitment.llmqType (commitmentsOf env vtx) = none := by
            rw [minedAmong, filter_eq_nil_iff.mpr (fun qc hqc heq =>
              hother qc hqc (of_decide_eq_true heq))]
            rfl
          have hfirst : minedAmong payload.commitment.llmqType
              (payload.commitment :: commitmentsOf env vtx) = some payload.commitment := by
            simp [minedAmong, hnull]
          rw [get?_set_self, hlater, pushMined_none, hfirst, hv]
          simp only [Option.map_some, pushMined, hparams, id]
        · rw [get?_set_of_ne (Ne.symm hsame), minedAmong_cons (.inr hsame)]
    · -- another transaction: it has no commitment
      have hskip : commitmentsOf env (tx :: vtx) = commitmentsOf env vtx := by
        by_cases htype : tx.nType = .TRANSACTION_QUORUM_COMMITMENT
        · have hne : tx.nVersion ≠ 3 := fun hv => hcommit ⟨hv, htype⟩
          simp [commitmentsOf, htype, hversion tx hne]
        · simp [commitmentsOf, htype]
      rw [hskip] at hnodup hknown ⊢
      rw [mergeBlock, if_neg hcommit]
      exact ih _ hpayload' hnodup hknown

end Tecracoin.Llmq
