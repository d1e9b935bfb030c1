/-
  When `RemoveBlock` on the tip runs to its end.

  Its assertions hold as long as the last block of every group is the highest
  block that has the key of the group.  Connecting, reading and disconnecting
  keep this.  A restart does not: it takes the highest block with coins, so if a
  read has left the key without coins in a higher block, and that block becomes
  the tip, then `RemoveBlock` finds the group's last block below the tip.
-/
import Tecracoin.Sigma.Refinement

namespace Tecracoin.Sigma

open Data Sample CSigmaState CBlockIndex Node List

variable {st st' : CSigmaState} {b tip : CBlockIndex} {below : List CBlockIndex}
  {k : GroupKey} {es : List (GroupKey × List PublicCoin)}

/-! ## The first loop -/

/-- The walk back finds a block: it starts above the first block of the group, which has the key. -/
lemma rollBackLastBlock_total (hok : ChainOk (b :: below)) (halive : coinsOf k below ≠ []) :
    ∃ last, rollBackLastBlock k (firstOf k below) b.toBlockId below = .ok last := by
  induction below generalizing b with
  | nil => exact absurd rfl halive
  | cons prev rest ih =>
    have hfirst : some b.toBlockId ≠ firstOf k (prev :: rest) := by
      intro heq
      obtain ⟨b', hb', hid, -⟩ := exists_of_firstOf heq.symm
      exact hok.toBlockId_ne hb' hid
    rw [rollBackLastBlock, if_neg hfirst]
    by_cases hkey : k ∈ prev.keys
    · rw [if_pos (contains_key_iff.mpr hkey)]
      exact ⟨_, rfl⟩
    · have hnone := coinsAt_eq_nil_of_notMem hkey
      rw [coinsOf_cons, hnone, nil_append] at halive
      rw [if_neg (fun hmem => hkey (contains_key_iff.mp hmem)), firstOf_cons_of_no_coins hnone]
      exact ih hok.tail halive

/-- One iteration: the counts are large enough, and the last block is the tip. -/
lemma removeBlockCoins_total (hinv : GroupInv st (tip :: below))
    (hlast : LastIs topKeyOf st (tip :: below)) (hk : k ∈ tip.keys) :
    ∃ st', removeBlockCoins tip.toBlockId below st (k, tip.coinsAt k) = .ok st' := by
  obtain ⟨-, halive⟩ := hinv.tip_alive hk
  obtain ⟨hget, hagrees⟩ := groupAt_alive hinv halive
  have hcount : (st.groupAt k).nCoins = (tip.coinsAt k).length + (coinsOf k below).length := by
    rw [hagrees.nCoins, coinsOf_cons, length_append]
  have htop : (st.groupAt k).lastBlock = some tip.toBlockId := by
    rw [hlast k _ halive hget, topKeyOf, if_pos hk]
  by_cases hbelow : coinsOf k below = []
  · rw [hbelow, length_nil, Nat.add_zero] at hcount
    exact ⟨_, removeBlockCoins_ok_iff.mpr ⟨by omega, .inl ⟨hcount, rfl⟩⟩⟩
  · have hpos : 0 < (coinsOf k below).length := length_pos_iff.mpr hbelow
    obtain ⟨last, hroll⟩ := rollBackLastBlock_total hinv.ok hbelow
    rw [← firstOf_cons_of_alive (b := tip) hbelow, ← hagrees.firstBlock] at hroll
    exact ⟨_, removeBlockCoins_ok_iff.mpr ⟨by omega, .inr ⟨by omega, htop, last, hroll, rfl⟩⟩⟩

/-- The whole loop, followed as in `removeCoins_rule`. -/
lemma removeCoins_total (hnodup : (es.map Prod.fst).Nodup)
    (hinv : GroupInv st (tip.withEntries es hnodup :: below))
    (hlast : LastIs topKeyOf st (tip.withEntries es hnodup :: below)) :
    ∃ st', es.foldlM (removeBlockCoins tip.toBlockId below) st = .ok st' := by
  induction es generalizing st with
  | nil => exact ⟨st, rfl⟩
  | cons e es ih =>
    obtain ⟨k, coins⟩ := e
    have hk : k ∈ (tip.withEntries ((k, coins) :: es) hnodup).keys := mem_cons_self
    have hr : RemovesKey k (tip.withEntries ((k, coins) :: es) hnodup)
        (tip.withEntries es (nodup_cons.mp hnodup).2) := removesKey_withEntries hnodup
    obtain ⟨st1, hfirst⟩ := removeBlockCoins_total hinv hlast hk
    have hrem := hinv.keyRemoved hk hfirst
    obtain ⟨st', hrest⟩ := ih (nodup_cons.mp hnodup).2 (hinv.removeKey hk hr hrem)
      (hlast.removeKey topKeyOf_marks hr hrem (fun _ => rfl))
    rw [coinsAt_withEntries_cons] at hfirst
    exact ⟨st', foldlM_cons_ok_iff.mpr ⟨st1, hfirst, hrest⟩⟩

/-! ## The second loop -/

/-- The coin is in the container with the given key. -/
def Recorded (st : CSigmaState) (k : GroupKey) (value : GroupElement) : Prop :=
  ∃ info, st.containers.mintedPubCoins.get? value = some info ∧ info.denomination = k.1 ∧
    info.coinGroupId = k.2

lemma removeBlockMint_total {coin : PublicCoin} (h : Recorded st k coin.value) :
    removeBlockMint k st coin = .ok { st with containers := st.containers.removeMint coin } := by
  obtain ⟨info, hget, hkey⟩ := h
  simp only [removeBlockMint, hget]
  rw [if_pos hkey]

/-- Removing other values keeps a coin recorded. -/
lemma Recorded.forgets {values : List GroupElement} {value : GroupElement}
    (h : Recorded st k value) (hf : Forgets values st.containers st'.containers)
    (hvalue : value ∉ values) : Recorded st' k value := by
  obtain ⟨info, hget, hkey⟩ := h
  exact ⟨info, by rw [hf.1, if_neg hvalue, hget], hkey⟩

lemma removeMints_total {coins : List PublicCoin} (hnodup : (coins.map PublicCoin.value).Nodup)
    (h : ∀ coin ∈ coins, Recorded st k coin.value) :
    ∃ st', coins.foldlM (removeBlockMint k) st = .ok st' := by
  induction coins generalizing st with
  | nil => exact ⟨st, rfl⟩
  | cons coin coins ih =>
    rw [map_cons, nodup_cons] at hnodup
    have hfirst := removeBlockMint_total (h coin (.head _))
    have hforgets : Forgets [coin.value] st.containers (st.containers.removeMint coin) := by
      exact forgets_removeMint _ _
    have hlater : ∀ coin' ∈ coins,
        Recorded { st with containers := st.containers.removeMint coin } k coin'.value := by
      intro coin' hcoin'
      refine (h coin' (.tail _ hcoin')).forgets hforgets ?_
      rw [mem_singleton]
      exact fun heq => hnodup.1 (heq ▸ mem_map_of_mem hcoin')
    obtain ⟨st', hrest⟩ := ih hnodup.2 hlater
    exact ⟨st', foldlM_cons_ok_iff.mpr ⟨_, hfirst, hrest⟩⟩

lemma removeBlockMints_total (hnodup : (es.flatMap (fun e => e.2.map PublicCoin.value)).Nodup)
    (h : ∀ e ∈ es, ∀ coin ∈ e.2, Recorded st e.1 coin.value) :
    ∃ st', es.foldlM removeBlockMints st = .ok st' := by
  induction es generalizing st with
  | nil => exact ⟨st, rfl⟩
  | cons e es ih =>
    rw [flatMap_cons, nodup_append'] at hnodup
    obtain ⟨hnodup1, hnodup2, hdisjoint⟩ := hnodup
    obtain ⟨st1, hfirst⟩ := removeMints_total hnodup1 (h e (.head _))
    have hforgets := removeMints_forgets hfirst
    obtain ⟨st', hrest⟩ := ih hnodup2 (fun e' he' coin hcoin =>
      (h e' (.tail _ he') coin hcoin).forgets hforgets (fun hmem =>
        hdisjoint hmem (mem_flatMap.mpr ⟨e', he', mem_map_of_mem hcoin⟩)))
    exact ⟨st', foldlM_cons_ok_iff.mpr ⟨st1, hfirst, hrest⟩⟩

/-- No coin value stands twice in the tip. -/
lemma MintInv.nodup_tip (h : MintInv st (tip :: below)) :
    (tip.sigmaMintedPubCoins.entries.flatMap (fun e => e.2.map PublicCoin.value)).Nodup := by
  have hcoins : ∀ e ∈ tip.sigmaMintedPubCoins.entries, tip.coinsAt e.1 = e.2 := by
    intro e he
    rw [coinsAt, StdMap.get?_eq_some_iff.mpr he, Option.getD_some]
  have hmem : ∀ e ∈ tip.sigmaMintedPubCoins.entries, ∀ value ∈ e.2.map PublicCoin.value,
      (value, (⟨e.1.1, e.1.2, tip.nHeight⟩ : CMintedCoinInfo)) ∈ chainMints (tip :: below) := by
    intro e he value hvalue
    obtain ⟨coin, hcoin, rfl⟩ := mem_map.mp hvalue
    rw [mem_chainMints_cons, mem_mintsOf]
    exact .inl ⟨e.1, coin, by rw [hcoins e he]; exact hcoin, rfl, rfl⟩
  rw [nodup_flatMap]
  constructor
  · intro e he
    rw [← hcoins e he]
    exact h.distinct tip (.head _) e.1
  · -- a value under two keys would be recorded with two infos
    have hkeys : tip.sigmaMintedPubCoins.entries.Pairwise (fun e e' => e.1 ≠ e'.1) :=
      pairwise_map.mp tip.sigmaMintedPubCoins.nodupKeys
    refine hkeys.imp_of_mem (fun {e e'} he he' hne value hvalue hvalue' => hne ?_)
    have heq := h.unique (hmem e he value hvalue) (hmem e' he' value hvalue')
    exact Prod.ext (congrArg CMintedCoinInfo.denomination heq)
      (congrArg CMintedCoinInfo.coinGroupId heq)

lemma removeBlock_total (hinv : GroupInv st (tip :: below))
    (hlast : LastIs topKeyOf st (tip :: below)) (hmints : MintInv st (tip :: below)) :
    ∃ st', st.removeBlock tip below = .ok st' := by
  obtain ⟨st1, hcoins⟩ := removeCoins_total tip.sigmaMintedPubCoins.nodupKeys hinv hlast
  have hrecorded : ∀ e ∈ tip.sigmaMintedPubCoins.entries, ∀ coin ∈ e.2,
      Recorded st1 e.1 coin.value := by
    intro e he coin hcoin
    refine ⟨⟨e.1.1, e.1.2, tip.nHeight⟩, ?_, rfl, rfl⟩
    rw [removeCoins_containers hcoins, hmints.minted, mem_chainMints_cons, mem_mintsOf]
    refine .inl ⟨e.1, coin, ?_, rfl, rfl⟩
    rw [coinsAt, StdMap.get?_eq_some_iff.mpr he, Option.getD_some]
    exact hcoin
  obtain ⟨st2, hmints'⟩ := removeBlockMints_total hmints.nodup_tip hrecorded
  exact ⟨_, removeBlock_ok_iff.mpr ⟨st1, st2, hcoins, hmints', rfl⟩⟩

/-! ## Every run -/

variable {crypto : Crypto} {params : Params} {node node' : Node}

/-- A restart happens only where the highest block that has the key of a group with coins has coins
    under it. -/
def RestartsClean : Node.Op → Node → Prop
  | .restart, node => ∀ k, coinsOf k node.chainActive ≠ [] →
      topKeyOf k node.chainActive = lastOf k node.chainActive
  | _, _ => True

/-- What every state of a run of such steps has. -/
structure DisconnectInv (node : Node) : Prop where
  groups : GroupInv node.sigmaState node.chainActive
  last : LastIs topKeyOf node.sigmaState node.chainActive
  containers : ContainerInv node

lemma DisconnectInv.step {op : Node.Op} (h : DisconnectInv node) (hclean : RestartsClean op node)
    (hstep : step crypto params op node = some node') : DisconnectInv node' := by
  have hinv := h.groups
  refine ⟨step_groupInv hinv hstep, ?_, h.containers.step hinv hstep⟩
  cases step_cases hinv hstep with
  | connects hconnects => exact h.last.connects topKeyOf_marks hinv hconnects
  | disconnects hchain hremove =>
    have hlast := h.last
    rw [hchain] at hinv hlast
    exact hlast.removeBlock topKeyOf_marks hinv (fun _ _ _ => rfl) hremove
  | touches htouches => exact h.last.touches topKeyOf_marks htouches
  | restarts => exact LastIs.rebuilt hclean

/-- In every run of connections, verifications, queries, disconnections and restarts, in which every
    restart meets the condition, `RemoveBlock` on the current tip fails no assertion. -/
theorem disconnect_tip_never_aborts (h : Reaches (step crypto params) RestartsClean .initial node)
    {tip : CBlockIndex} {below : List CBlockIndex} (hchain : node.chainActive = tip :: below) :
    ∃ st, node.sigmaState.removeBlock tip below = .ok st := by
  obtain ⟨hgroups, hlast, hcontainers⟩ : DisconnectInv node :=
    h.invariant ⟨GroupInv.reset, LastIs.reset, MintInv.reset, SpendInv.reset⟩
      (fun _ _ _ hinv hclean hstep => hinv.step hclean hstep)
  have hmints := hcontainers.mints
  rw [hchain] at hgroups hlast hmints
  exact removeBlock_total hgroups hlast hmints

lemma restartsClean_queried : RestartsClean .restart queried := by
  intro k hcoins
  by_cases hk : k = (.SIGMA_DENOM_1, 1)
  · subst hk
    rfl
  · refine absurd ?_ hcoins
    simp [coinsOf, coinsAt, queried, minted, StdMap.get?, StdMap.lookup, StdMap.empty, Ne.symm hk]

/-- A query has marked the block between two minting blocks. After a restart the upper one can be
    disconnected. -/
theorem disconnect_tip_never_aborts_restarted :
    ∃ tip below st, queried.chainActive = tip :: below ∧
      queried.rebuilt.removeBlock tip below = .ok st := by
  have hops : ∀ op ∈ mintedOps ++ queriedOps, ∀ node, RestartsClean op node := by
    intro op hop node
    simp only [mintedOps, queriedOps, cons_append, nil_append,
      mem_cons, not_mem_nil, or_false] at hop
    rcases hop with rfl | rfl | rfl | rfl | rfl <;> trivial
  have hrun : runSteps (step toyCrypto .testnet)
      (mintedOps ++ queriedOps) .initial = some queried := by
    rw [runSteps_append, runSteps_mintedOps, Option.bind_some, runSteps_queriedOps]
  have hreaches : Reaches (step toyCrypto .testnet) RestartsClean .initial
      { queried with sigmaState := queried.rebuilt } :=
    .next .restart (reaches_of_runSteps _ .start hrun hops) restartsClean_queried rfl
  obtain ⟨st, hst⟩ := disconnect_tip_never_aborts hreaches rfl
  exact ⟨_, _, st, rfl, hst⟩

/-- The upper block is disconnected first, then the node is restarted: `RemoveBlock` on the tip
    stops at `assert(coinGroup.lastBlock == index)`. -/
theorem restart_makes_disconnect_abort : ∃ node, runSteps (step toyCrypto .testnet)
        (mintedOps ++ queriedOps ++ [.disconnectTip, .restart]) .initial =
          some node ∧
      ∃ tip below, node.chainActive = tip :: below ∧
        node.sigmaState.removeBlock tip below =
          .error (.asserts "coinGroup.lastBlock == index") := by
  refine ⟨{ rolledBack with sigmaState := rolledBack.rebuilt }, ?_, _, _, rfl, ?_⟩
  · rw [runSteps_append, runSteps_append, runSteps_mintedOps, Option.bind_some,
      runSteps_queriedOps, Option.bind_some]
    show queried.disconnectTip.bind (runSteps _ [Node.Op.restart]) = _
    rw [disconnectTip_queried]
    rfl
  · rfl

end Tecracoin.Sigma
