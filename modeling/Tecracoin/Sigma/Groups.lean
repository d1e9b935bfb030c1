/-
  The shape of `coinGroups` under `AddMintsToStateAndBlockIndex`, `RemoveBlock`
  and `AddBlock` alone, for blocks with any mints.

  Ids without gaps, bounds, counts and the size limit hold in every state as long
  as the first mints of a denomination fit into one group.  A first block with
  more mints than that leaves an empty group 1 behind and puts its mints into
  group 2.
-/
import Tecracoin.Sigma.ExactInv
import Tecracoin.Sigma.NodeInv

namespace Tecracoin.Sigma

open Data CSigmaState Sample List

/-! ## The operations -/

namespace Groups

inductive Op
  /-- A new block with the given hash and mints. -/
  | addMints (hash : Uint256) (mints : List PublicCoin)
  | removeBlock
  /-- `Reset`, then `AddBlock` for the blocks of the chain from the genesis block up, all but the
      highest `missing` ones. -/
  | addBlocks (missing : Nat)

def addMints (hash : Uint256) (mints : List PublicCoin) (node : Node) : Option Node :=
  if node.chainActive.any (fun index => decide (index.phashBlock = hash)) then none
  else match node.sigmaState.addMintsToStateAndBlockIndex
      (.fresh ⟨hash, node.chainActive.length⟩) mints with
    | .error _ => none
    | .ok (st, index) => some ⟨st, index :: node.chainActive⟩

def step : Op → Node → Option Node
  | .addMints hash mints, node => addMints hash mints node
  | .removeBlock, node => node.disconnectTip
  | .addBlocks missing, node =>
    some ⟨reset.buildSigmaStateFromIndex (node.chainActive.drop missing),
      node.chainActive.drop missing⟩

/-- The mints of a denomination whose current group is empty fit into a group. -/
def FirstMintsFit : Op → Node → Prop
  | .addMints _ mints, node => ∀ d,
      (node.sigmaState.groupAt (d, node.sigmaState.currentGroupId d)).nCoins = 0 →
      (mintsFor d mints).length ≤ ZC_SPEND_V3_COINSPERID_LIMIT
  | _, _ => True

/-- The blocks of the chain with coins of a group. -/
def blocksWith (k : GroupKey) (chain : List CBlockIndex) : List CBlockIndex :=
  chain.filter (fun b => decide (b.coinsAt k ≠ []))

/-- The coins of a group in the blocks between two heights. -/
def coinsBetween (k : GroupKey) (low high : Int) (chain : List CBlockIndex) : List PublicCoin :=
  coinsOf k (chain.filter (fun b => decide (low ≤ b.nHeight ∧ b.nHeight ≤ high)))

/-- Well-formed groups. -/
structure WellFormed (node : Node) : Prop where
  ids : ∀ d i, (node.sigmaState.getCoinGroupInfo d i).isSome = true ↔
    1 ≤ i ∧ i ≤ node.sigmaState.getLatestCoinID d
  bounds : ∀ d i group, node.sigmaState.getCoinGroupInfo d i = some group → 1 ≤ group.nCoins ∧
    ∃ first ∈ node.chainActive, ∃ last ∈ node.chainActive,
      group.firstBlock = some first.toBlockId ∧ group.lastBlock = some last.toBlockId ∧
      first.nHeight ≤ last.nHeight ∧
      group.nCoins = (coinsBetween (d, i) first.nHeight last.nHeight node.chainActive).length
  limit : ∀ d i group, node.sigmaState.getCoinGroupInfo d i = some group →
    2 ≤ (blocksWith (d, i) node.chainActive).length →
    group.nCoins ≤ ZC_SPEND_V3_COINSPERID_LIMIT

end Groups

open Groups

/-! ## Bounds and counts -/

variable {st st' : CSigmaState} {b index index' : CBlockIndex} {chain : List CBlockIndex}
  {k : GroupKey} {d : CoinDenomination} {id : Int} {mints : List PublicCoin}

/-- No block below the first one has coins. -/
lemma firstOf_le {first : BlockId} (hok : ChainOk chain) (h : firstOf k chain = some first)
    (hb : b ∈ chain) (hcoins : b.coinsAt k ≠ []) : first.nHeight ≤ b.nHeight := by
  induction chain with
  | nil => cases hb
  | cons a below ih =>
    by_cases hbelow : coinsOf k below = []
    · -- only the head has coins
      rcases mem_cons.mp hb with rfl | hb
      · rw [firstOf_cons_of_dead hbelow hcoins, Option.some.injEq] at h
        rw [← h]
      · exact absurd (flatMap_eq_nil_iff.mp hbelow b hb) hcoins
    · rw [firstOf_cons_of_alive hbelow] at h
      rcases mem_cons.mp hb with rfl | hb
      · obtain ⟨b', hb', rfl, -⟩ := exists_of_firstOf h
        have hlt := hok.tail.nHeight_lt hb'
        have hheight := hok.head.nHeight
        omega
      · exact ih hok.tail h hb

/-- Leaving out blocks without coins of the group loses no coins. -/
lemma coinsOf_filter {p : CBlockIndex → Bool} (h : ∀ b ∈ chain, b.coinsAt k ≠ [] → p b = true) :
    coinsOf k (chain.filter p) = coinsOf k chain := by
  induction chain with
  | nil => rfl
  | cons b below ih =>
    have ih := ih (forall_mem_cons.mp h).2
    cases hp : p b with
    | true => rw [filter_cons_of_pos hp, coinsOf_cons, coinsOf_cons, ih]
    | false =>
      have hnone : b.coinsAt k = [] := by
        by_contra hne
        rw [h b (.head _) hne] at hp
        cases hp
      rw [filter_cons_of_neg (by simp [hp]), coinsOf_cons, hnone, ih, nil_append]

/-- An agreeing group has its coins between its two blocks. -/
lemma GroupAgrees.bounds {group : SigmaCoinGroupInfo} (hok : ChainOk chain)
    (h : GroupAgrees k chain group) :
    ∃ first ∈ chain, ∃ last ∈ chain, group.firstBlock = some first.toBlockId ∧
      group.lastBlock = some last.toBlockId ∧ first.nHeight ≤ last.nHeight ∧
      group.nCoins = (coinsBetween k first.nHeight last.nHeight chain).length := by
  obtain ⟨above, last, rest, heq, hlast, -, hnone⟩ := h.lastBlock
  cases hfirst : firstOf k chain with
  | none => exact absurd (firstOf_eq_none_iff.mp hfirst) h.alive
  | some id =>
    obtain ⟨first, hmem, rfl, hcoins⟩ := exists_of_firstOf hfirst
    have hlow : ∀ b ∈ chain, b.coinsAt k ≠ [] → first.nHeight ≤ b.nHeight :=
      fun b hb hc => firstOf_le hok hfirst hb hc
    -- above the last block of the group there are no coins of it
    have hhigh : ∀ b ∈ chain, b.coinsAt k ≠ [] → b.nHeight ≤ last.nHeight := by
      intro b hb hc
      rw [heq] at hb hok
      rcases mem_append.mp hb with hb | hb
      · exact absurd (flatMap_eq_nil_iff.mp hnone b hb) hc
      · have hok' : ChainOk (last :: rest) := hok.of_append
        rcases mem_cons.mp hb with rfl | hb
        · exact Int.le_refl _
        · have hlt := hok'.tail.nHeight_lt hb
          have hheight := hok'.head.nHeight
          omega
    have hlastmem : last ∈ chain := heq ▸ mem_append_cons_self
    refine ⟨first, hmem, last, hlastmem, h.firstBlock.trans hfirst, hlast,
      hhigh first hmem hcoins, ?_⟩
    rw [h.nCoins, coinsBetween, coinsOf_filter]
    intro b hb hc
    exact decide_eq_true ⟨hlow b hb hc, hhigh b hb hc⟩

/-! ## The size limit -/

/-- Groups with coins from two or more blocks stay within the limit. -/
def Limited (chain : List CBlockIndex) : Prop :=
  ∀ k, 2 ≤ (blocksWith k chain).length →
    (coinsOf k chain).length ≤ ZC_SPEND_V3_COINSPERID_LIMIT

lemma Limited.nil : Limited [] := fun _ htwo => absurd htwo (Nat.not_succ_le_zero 1)

lemma length_blocksWith_cons :
    (blocksWith k (b :: chain)).length =
      (blocksWith k chain).length + if b.coinsAt k = [] then 0 else 1 := by
  rw [blocksWith, blocksWith, filter_cons]
  by_cases hb : b.coinsAt k = [] <;> simp [hb]

lemma Limited.tail (h : Limited (b :: chain)) : Limited chain := by
  intro k htwo
  have hlimit := h k (by rw [length_blocksWith_cons]; omega)
  rw [coinsOf_cons, length_append] at hlimit
  omega

lemma Limited.drop (h : Limited chain) (n : Nat) : Limited (chain.drop n) := by
  induction n generalizing chain with
  | zero => exact h
  | succ n ih =>
    cases chain with
    | nil => exact h
    | cons b below => exact ih h.tail

lemma Limited.cons_bare (h : Limited chain) (hb : b.keys = []) : Limited (b :: chain) := by
  intro k htwo
  rw [length_blocksWith_cons, if_pos (coinsAt_of_bare hb k)] at htwo
  rw [coinsOf_cons_bare hb]
  exact h k htwo

/-- The mints of one denomination keep the limit: they join a group that has room for them, or start
    a new one. -/
lemma Limited.keyAdded (h : Limited (index :: chain)) (hinv : GroupInv st (index :: chain))
    (hnone : index.idOf d = none) (ha : KeyAdded d mints st index id st' index') :
    Limited (index' :: chain) := by
  intro k htwo
  by_cases hk : k = (d, id)
  · subst hk
    obtain ⟨hcoins, hbelow⟩ := ha.adds.coins_of_none hnone chain
    have halive : coinsOf (d, id) chain ≠ [] := by
      intro hnil
      have hzero : blocksWith (d, id) chain = [] := by
        rw [blocksWith, filter_eq_nil_iff]
        intro b hb
        simp [flatMap_eq_nil_iff.mp hnil b hb]
      rw [length_blocksWith_cons, hzero, length_nil] at htwo
      split_ifs at htwo <;> omega
    obtain ⟨st1, hassigned, -⟩ := ha.assigned
    have hcurrent := hassigned.current_of_alive hinv (by rw [hbelow]; exact halive)
    rcases hassigned.id with ⟨-, hroom⟩ | ⟨hid, -⟩
    · rw [groupAt_nCoins hinv, hbelow] at hroom
      rw [coinsOf_cons, hcoins, length_append]
      omega
    · omega
  · have hsame : index'.coinsAt k = index.coinsAt k := ha.adds.other k hk
    rw [length_blocksWith_cons, hsame, ← length_blocksWith_cons] at htwo
    rw [coinsOf_cons, hsame, ← coinsOf_cons]
    exact h k htwo

/-! ## Every run -/

namespace Groups

variable {node node' : Node}

/-- A block of mints is new and goes on top. -/
lemma addMints_ok {hash : Uint256} (h : addMints hash mints node = some node') :
    (∀ b ∈ node.chainActive, b.phashBlock ≠ hash) ∧
      ∃ index, node.sigmaState.addMintsToStateAndBlockIndex
          (.fresh ⟨hash, node.chainActive.length⟩) mints = .ok (node'.sigmaState, index) ∧
        node'.chainActive = index :: node.chainActive := by
  rw [addMints] at h
  split_ifs at h with hany
  split at h
  · cases h
  · rename_i st index hadd
    rw [← Option.some.inj h]
    refine ⟨fun b hb heq => hany ?_, index, hadd, rfl⟩
    exact any_eq_true.mpr ⟨b, hb, decide_eq_true heq⟩

/-- What every state of a run has. -/
structure Inv (node : Node) : Prop where
  groups : ExactInv node.sigmaState node.chainActive
  limited : Limited node.chainActive

lemma Inv.step {op : Op} (h : Inv node) (hfits : FirstMintsFit op node)
    (hstep : step op node = some node') : Inv node' := by
  cases op with
  | addMints hash mints =>
    obtain ⟨hnew, index, hadd, hchain⟩ := addMints_ok hstep
    have hinv : GroupInv node.sigmaState
        (.fresh ⟨hash, node.chainActive.length⟩ :: node.chainActive) :=
      h.groups.inv.cons_bare rfl rfl hnew
    have hroom : ∀ d, latestOf d node.chainActive = none →
        (mintsFor d mints).length ≤ ZC_SPEND_V3_COINSPERID_LIMIT :=
      fun d hd => hfits d ((current_empty_iff h.groups.inv).mpr hd)
    have hlimited := addMints_rule (P := fun st index => GroupInv st (index :: node.chainActive) ∧
        Limited (index :: node.chainActive))
      (fun _ _ _ _ _ _ hp hnone ha => ⟨hp.1.keyAdded hnone ha, hp.2.keyAdded hp.1 hnone ha⟩)
      rfl ⟨hinv, h.limited.cons_bare rfl⟩ hadd
    refine ⟨?_, ?_⟩
    · rw [hchain]
      exact (h.groups.cons_bare hinv rfl).addMints rfl hroom hadd
    · rw [hchain]
      exact hlimited.2
  | removeBlock =>
    obtain ⟨tip, hchain, hremove⟩ := disconnectTip_ok hstep
    obtain ⟨hexact, hlimited⟩ := h
    rw [hchain] at hexact hlimited
    exact ⟨hexact.removeBlock hremove, hlimited.tail⟩
  | addBlocks missing =>
    rw [← Option.some.inj hstep]
    exact ⟨ExactInv.rebuilt (h.groups.inv.ok.drop missing) (h.groups.contiguous.drop missing),
      h.limited.drop missing⟩

lemma Inv.wellFormed (h : Inv node) : WellFormed node := by
  have hinv := h.groups.inv
  -- an entry is an agreeing group
  have hentry : ∀ d i group, node.sigmaState.getCoinGroupInfo d i = some group →
      GroupAgrees (d, i) node.chainActive group := by
    intro d i group hget
    by_cases halive : coinsOf (d, i) node.chainActive = []
    · rw [getCoinGroupInfo, h.groups.dead _ halive] at hget
      cases hget
    · obtain ⟨g, hg, hagrees⟩ := hinv.alive _ halive
      rw [getCoinGroupInfo, hg, Option.some.injEq] at hget
      rw [← hget]
      exact hagrees
  refine ⟨?_, ?_, ?_⟩
  · intro d i
    cases hlatest : latestOf d node.chainActive with
    | none =>
      have hzero : node.sigmaState.getLatestCoinID d = 0 := by
        rw [getLatestCoinID, h.groups.latestNone d hlatest, Option.getD_none]
      have hdead := h.groups.dead _ (coinsOf_of_latest_none hinv.ok hlatest i)
      rw [getCoinGroupInfo, hdead, hzero]
      simp only [Option.isSome_none, Bool.false_eq_true, false_iff]
      omega
    | some m =>
      rw [getLatestCoinID_of_get? (hinv.latest d m hlatest)]
      constructor
      · intro hsome
        obtain ⟨group, hget⟩ := Option.isSome_iff_exists.mp hsome
        obtain ⟨m', hm', hone, hle⟩ := hinv.ok.alive_le_latest (hentry d i group hget).alive
        rw [hlatest, Option.some.injEq] at hm'
        exact ⟨hone, by omega⟩
      · rintro ⟨hone, hle⟩
        have halive := h.groups.contiguous.noGap d m i (hinv.ok.latest_spec hlatest).2 hone hle
        obtain ⟨group, hget, -⟩ := hinv.alive _ halive
        exact Option.isSome_iff_exists.mpr ⟨group, hget⟩
  · intro d i group hget
    have hagrees := hentry d i group hget
    refine ⟨?_, hagrees.bounds hinv.ok⟩
    rw [hagrees.nCoins]
    exact length_pos_iff.mpr hagrees.alive
  · intro d i group hget htwo
    rw [(hentry d i group hget).nCoins]
    exact h.limited _ htwo

end Groups

/-- In every state of a run of mints, roll backs and replays, of any blocks, the groups are well
    formed, provided that the mints of a denomination whose current group is empty always fit into
    one group. -/
theorem coin_groups_wellFormed {node : Node}
    (h : Reaches step Groups.FirstMintsFit .initial node) : Groups.WellFormed node :=
  (h.invariant (P := Groups.Inv) ⟨ExactInv.reset, Limited.nil⟩
    (fun _ _ _ hinv hfits hstep => hinv.step hfits hstep)).wellFormed

/-- A block with coins of two denominations is removed again. -/
def replacedOps : List Op :=
  [.addMints 0 [], .addMints 1 [⟨7, .SIGMA_DENOM_1⟩],
    .addMints 2 [⟨9, .SIGMA_DENOM_1⟩, ⟨11, .SIGMA_DENOM_10⟩], .removeBlock,
    .addMints 3 [⟨13, .SIGMA_DENOM_1⟩]]

/-- The group of the first denomination has coins of two blocks, and the other has no group. -/
theorem coin_groups_wellFormed_replaced : ∃ node, runSteps step replacedOps .initial = some node ∧
    (node.sigmaState.getCoinGroupInfo .SIGMA_DENOM_1 1).map (·.nCoins) = some 2 ∧
    node.sigmaState.getLatestCoinID .SIGMA_DENOM_10 = 0 ∧ Groups.WellFormed node := by
  have hfits : ∀ op ∈ replacedOps, ∀ node, Groups.FirstMintsFit op node := by
    intro op hop node
    simp only [replacedOps, mem_cons, not_mem_nil, or_false] at hop
    rcases hop with rfl | rfl | rfl | rfl | rfl
    on_goal 4 => trivial
    all_goals exact fun d _ => length_mintsFor_le_limit (by decide)
  exact ⟨_, rfl, rfl, rfl,
    coin_groups_wellFormed (reaches_of_runSteps replacedOps .start rfl hfits)⟩

/-! ## A first block over the limit -/

lemma mintsFor_self (hd : ∀ mint ∈ mints, mint.denomination = d) : mintsFor d mints = mints := by
  rw [mintsFor, filter_eq_self]
  exact fun mint hmint => decide_eq_true (hd mint hmint)

lemma mintsFor_other (hd : ∀ mint ∈ mints, mint.denomination = d) (d' : CoinDenomination)
    (hne : d' ≠ d) : mintsFor d' mints = [] := by
  rw [mintsFor, filter_eq_nil_iff]
  intro mint hmint
  simp [hd mint hmint, hne.symm]

/-- The groups after `n` mints, too many for one group, in the first block. -/
def skippedState (hash : Uint256) (n : Nat) : CSigmaState :=
  ((reset.openCurrentGroup .SIGMA_DENOM_1).setLatest .SIGMA_DENOM_1 2).setGroup
    (.SIGMA_DENOM_1, 2) ⟨some ⟨hash, 0⟩, some ⟨hash, 0⟩, n⟩

/-- From the empty state, more mints of one denomination than a group holds go to group 2, and group
    1 stays empty. -/
lemma addMints_over_limit (hash : Uint256)
    (hd : ∀ mint ∈ mints, mint.denomination = .SIGMA_DENOM_1)
    (hover : ZC_SPEND_V3_COINSPERID_LIMIT < mints.length) :
    ∃ node, addMints hash mints .initial = some node ∧
      node.sigmaState.getCoinGroupInfo .SIGMA_DENOM_1 1 = some .empty := by
  have hne : mints ≠ [] := by
    rintro rfl
    exact Nat.not_lt_zero _ hover
  have hblock : blockDenomMints mints = [(.SIGMA_DENOM_1, mints)] := by
    have hother := mintsFor_other hd
    show ([.SIGMA_DENOM_0_05, .SIGMA_DENOM_0_1, .SIGMA_DENOM_0_5, .SIGMA_DENOM_1, .SIGMA_DENOM_10,
      .SIGMA_DENOM_25, .SIGMA_DENOM_100].map (fun d => (d, mintsFor d mints))).filter
      (fun e => !e.2.isEmpty) = _
    simp only [map_cons, map_nil, mintsFor_self hd, hother .SIGMA_DENOM_0_05 (by decide),
      hother .SIGMA_DENOM_0_1 (by decide), hother .SIGMA_DENOM_0_5 (by decide),
      hother .SIGMA_DENOM_10 (by decide), hother .SIGMA_DENOM_25 (by decide),
      hother .SIGMA_DENOM_100 (by decide)]
    simp [hne]
  -- no group has room for so many mints, so the first one stays empty
  have hassign : reset.assignGroup (CBlockIndex.fresh ⟨hash, 0⟩).toBlockId
      .SIGMA_DENOM_1 mints.length = .ok (skippedState hash mints.length, 2) := by
    have hfull : ¬ SigmaCoinGroupInfo.empty.nCoins + mints.length ≤
        ZC_SPEND_V3_COINSPERID_LIMIT := by
      show ¬ 0 + mints.length ≤ _
      omega
    exact if_neg hfull
  have hadd : reset.addMintsToStateAndBlockIndex (.fresh ⟨hash, 0⟩) mints =
      .ok (recordMints 2 mints (skippedState hash mints.length, .fresh ⟨hash, 0⟩)) := by
    rw [addMintsToStateAndBlockIndex, hblock, addDenomMints, hassign]
    rfl
  have hst := (recordMints_spec hne hd 2 (skippedState hash mints.length) (.fresh ⟨hash, 0⟩)).2
  refine ⟨⟨(recordMints 2 mints (skippedState hash mints.length, .fresh ⟨hash, 0⟩)).1,
    [(recordMints 2 mints (skippedState hash mints.length, .fresh ⟨hash, 0⟩)).2]⟩, ?_, ?_⟩
  · show (match reset.addMintsToStateAndBlockIndex (.fresh ⟨hash, 0⟩) mints with
      | .error _ => none
      | .ok (st, index) => some (Node.mk st [index])) = _
    rw [hadd]
  · show StdMap.get? (recordMints 2 mints _).1.coinGroups (.SIGMA_DENOM_1, 1) = _
    rw [hst]
    rfl

namespace Sample

/-- Distinct coins, one more than a group holds. -/
def oversized : List PublicCoin :=
  (List.range (ZC_SPEND_V3_COINSPERID_LIMIT + 1)).map
    (fun i => ⟨BitVec.ofNat 272 i, .SIGMA_DENOM_1⟩)

end Sample

/-- A first block with one mint more than a group holds leaves a group 1 without coins and without
    blocks. -/
theorem oversized_first_block_skips_group :
    ∃ node, Reaches step (fun _ _ => True) .initial node ∧
      step (.addMints 0 oversized) .initial = some node ∧
      node.sigmaState.getCoinGroupInfo .SIGMA_DENOM_1 1 = some .empty ∧
      ¬ Groups.WellFormed node := by
  have hd : ∀ mint ∈ oversized, mint.denomination = .SIGMA_DENOM_1 :=
    forall_mem_map.mpr (fun _ _ => rfl)
  have hover : ZC_SPEND_V3_COINSPERID_LIMIT < oversized.length := by
    rw [oversized, length_map, length_range]
    exact Nat.lt_succ_self _
  obtain ⟨node, hadd, hempty⟩ := addMints_over_limit 0 hd hover
  refine ⟨node, .next (.addMints 0 oversized) .start trivial hadd, hadd, hempty, ?_⟩
  intro hwell
  exact absurd (hwell.bounds _ _ _ hempty).1 (by decide)

end Tecracoin.Sigma
