/-
  The incrementally kept sigma state against the one `BuildSigmaStateFromIndex`
  builds from the block indexes of the active chain.

  Two things make them differ.  When the tip is disconnected, the last block of a
  group that keeps coins is set to the next lower block that has the key of the
  group; a read may have left the key there without coins, and then the rebuilt
  state has a lower last block.  And a first block with more mints of a
  denomination than a group holds leaves an empty group behind that the rebuilt
  state does not have.
-/
import Tecracoin.Sigma.ContainerInv
import Tecracoin.Sigma.ExactInv
import Tecracoin.Sigma.LastBlock

namespace Tecracoin.Sigma

open Data Sample SigmaCoinGroupInfo Node

/-! ## Every run -/

variable {crypto : Crypto} {params : Params} {node node' : Node}

/-- What the four containers of the state are compared by. -/
structure SameAsRebuilt (node : Node) : Prop where
  coinGroups : ∀ k, node.sigmaState.coinGroups.get? k = node.rebuilt.coinGroups.get? k
  latestCoinIds : ∀ d, node.sigmaState.latestCoinIds.get? d = node.rebuilt.latestCoinIds.get? d
  mintedPubCoins : ∀ value, node.sigmaState.containers.mintedPubCoins.get? value =
    node.rebuilt.containers.mintedPubCoins.get? value
  usedCoinSerials : ∀ serial, node.sigmaState.containers.usedCoinSerials.get? serial =
    node.rebuilt.containers.usedCoinSerials.get? serial

/-- The steps that keep the state in line with the rebuilt one. A block brings no more mints of a
    denomination whose current group is empty than a group holds; and below a disconnected tip, the
    next block with the key of a group that keeps coins has coins under it. -/
def KeepsRebuilt (crypto : Crypto) (params : Params) : Node.Op → Node → Prop
  | .connectBlock _ vtx, node => ∀ d,
      (node.sigmaState.groupAt (d, node.sigmaState.currentGroupId d)).nCoins = 0 →
      (mintsFor d (blockMints crypto params
        (realHeight node.chainActive.length node.chainActive)
        (sigmaTransactions vtx))).length ≤ ZC_SPEND_V3_COINSPERID_LIMIT
  | .disconnectTip, node => ∀ tip below, node.chainActive = tip :: below →
      ∀ k ∈ tip.keys, coinsOf k below ≠ [] → topKeyOf k below = lastOf k below
  | _, _ => True

/-- What every state of a run of such steps has. -/
structure RefinementInv (node : Node) : Prop where
  groups : ExactInv node.sigmaState node.chainActive
  last : LastIs lastOf node.sigmaState node.chainActive
  containers : ContainerInv node

/-- Connecting a block, if it keeps what a rebuild would give. -/
lemma RefinementInv.connects {hash : Uint256} {vtx : List CTransaction} {chain : List CBlockIndex}
    {info : CSigmaTxInfo} {s : ConnectState} {index : CBlockIndex} (h : RefinementInv node)
    (hkeeps : KeepsRebuilt crypto params (.connectBlock hash vtx) node)
    (hc : Connects crypto params hash vtx node chain info s index node') : RefinementInv node' := by
  have hserials := hc.serialsAdded
  have hinv := hc.groupInv_bare h.groups.inv
  have hgroups : ExactInv s.sigmaState (s.pindexNew :: chain) :=
    ((h.groups.touches hc.touches).congr_state hserials.groups.1 hserials.groups.2).cons_bare hinv
      hserials.bare
  have hroom : ∀ d, latestOf d chain = none →
      (mintsFor d info.mints).length ≤ ZC_SPEND_V3_COINSPERID_LIMIT := by
    intro d hd
    rw [hc.touches.latest d] at hd
    have hlength : (mintsFor d info.mints).length = _ := (hc.mints.filter _).length_eq
    rw [hlength]
    exact hkeeps d ((current_empty_iff h.groups.inv).mpr hd)
  refine ⟨?_, h.last.connects lastOf_marks h.groups.inv hc, h.containers.connects hc⟩
  rw [hc.chain]
  exact hgroups.addMints hserials.bare hroom hc.added

lemma RefinementInv.step {op : Node.Op} (h : RefinementInv node)
    (hkeeps : KeepsRebuilt crypto params op node)
    (hstep : step crypto params op node = some node') : RefinementInv node' := by
  have hinv := h.groups.inv
  have hcontainers := h.containers.step hinv hstep
  cases step_cases hinv hstep with
  | connects hconnects => exact h.connects hkeeps hconnects
  | disconnects hchain hremove =>
    have hkeys := hkeeps _ _ hchain
    obtain ⟨hgroups, hlast, -⟩ := h
    rw [hchain] at hinv hgroups hlast
    exact ⟨hgroups.removeBlock hremove, hlast.removeBlock lastOf_marks hinv hkeys hremove,
      hcontainers⟩
  | touches htouches =>
    exact ⟨h.groups.touches htouches, h.last.touches lastOf_marks htouches, hcontainers⟩
  | restarts =>
    exact ⟨ExactInv.rebuilt hinv.ok h.groups.contiguous, LastIs.rebuilt (fun _ _ => rfl),
      hcontainers⟩

lemma RefinementInv.sameAsRebuilt (h : RefinementInv node) : SameAsRebuilt node where
  coinGroups k := by
    rw [rebuilt, rebuilt_group, groupOf]
    by_cases halive : coinsOf k node.chainActive = []
    · rw [if_pos halive]
      exact h.groups.dead k halive
    · obtain ⟨g, hget, hagrees⟩ := h.groups.inv.alive k halive
      rw [if_neg halive, hget, ← hagrees.firstBlock, ← h.last k g halive hget, ← hagrees.nCoins]
  latestCoinIds d := by
    rw [rebuilt, rebuilt_latest]
    cases hlatest : latestOf d node.chainActive with
    | none => exact h.groups.latestNone d hlatest
    | some m => exact h.groups.inv.latest d m hlatest
  mintedPubCoins value := by
    apply Option.ext
    intro info
    rw [h.containers.mints.minted, rebuilt, h.containers.mints.rebuilt.minted]
  usedCoinSerials serial := by
    apply Option.ext
    intro info
    rw [h.containers.spends.used, rebuilt, h.containers.spends.rebuilt.used]

/-- In every run of connections, disconnections, verifications and queries whose steps all meet the
    condition, the state stays equal to the rebuilt one. -/
theorem incremental_eq_rebuilt
    (h : Reaches (step crypto params) (KeepsRebuilt crypto params) .initial node) :
    SameAsRebuilt node := by
  have hinv : RefinementInv node :=
    h.invariant ⟨ExactInv.reset, LastIs.reset, MintInv.reset, SpendInv.reset⟩
      (fun _ _ _ hinv hkeeps hstep => hinv.step hkeeps hstep)
  exact hinv.sameAsRebuilt

/-- A chain with one minted coin, whose block is then disconnected. -/
theorem incremental_eq_rebuilt_minted :
    SameAsRebuilt minted ∧ ∃ node, minted.disconnectTip = some node ∧ SameAsRebuilt node := by
  have hrun : Reaches (step toyCrypto .testnet)
      (KeepsRebuilt toyCrypto .testnet) .initial minted := by
    refine .next (.connectBlock 1 [mintTx 1 7]) (.next (.connectBlock 0 []) .start ?_ rfl) ?_ rfl
    · exact fun d _ => length_mintsFor_le_limit (by decide)
    · exact fun d _ => length_mintsFor_le_limit (by decide +kernel)
  refine ⟨incremental_eq_rebuilt hrun, _, rfl,
    incremental_eq_rebuilt (.next .disconnectTip hrun ?_ rfl)⟩
  -- nothing is minted below the tip
  rintro tip below hchain k - halive
  obtain ⟨-, rfl⟩ := List.cons.inj hchain
  exact absurd rfl halive

/-! ## A key without coins -/

namespace Sample

open CoinDenomination in
/-- Blocks 1 and 3 mint one coin each, block 2 none; a coin set has been queried, so block 2 has the
    key of the group without coins. -/
def queried : Node where
  sigmaState :=
    { minted.sigmaState with
      coinGroups := ⟨[((SIGMA_DENOM_1, 1), ⟨some ⟨1, 1⟩, some ⟨3, 3⟩, 2⟩)], by decide⟩
      containers :=
        { minted.sigmaState.containers with
          mintedPubCoins :=
            ⟨[(7, ⟨SIGMA_DENOM_1, 1, 1⟩), (9, ⟨SIGMA_DENOM_1, 1, 3⟩)], by decide⟩
          mintMetaInfo := ⟨[((1, SIGMA_DENOM_1), 2)], by decide⟩ } }
  chainActive :=
    ⟨⟨3, 3⟩, ⟨[((SIGMA_DENOM_1, 1), [⟨9, SIGMA_DENOM_1⟩])], by decide⟩, .empty⟩ ::
      ⟨⟨2, 2⟩, ⟨[((SIGMA_DENOM_1, 1), [])], by decide⟩, .empty⟩ :: minted.chainActive

open CoinDenomination in
/-- The same after block 3 has been disconnected. -/
def rolledBack : Node where
  sigmaState :=
    { minted.sigmaState with
      coinGroups := ⟨[((SIGMA_DENOM_1, 1), ⟨some ⟨1, 1⟩, some ⟨2, 2⟩, 1⟩)], by decide⟩ }
  chainActive := queried.chainActive.tail

def queriedOps : List Node.Op :=
  [.connectBlock 2 [], .connectBlock 3 [mintTx 2 9], .queryCoinSet 3 .SIGMA_DENOM_1 1]

lemma runSteps_queriedOps :
    runSteps (step toyCrypto .testnet) queriedOps minted = some queried := by rfl

lemma disconnectTip_queried : queried.disconnectTip = some rolledBack := by rfl

end Sample

/-- Two blocks mint, the one between them does not, a coin set is queried and the upper block is
    disconnected: the last block of the group is now the one between, while the rebuilt state has
    the lower one. -/
theorem disconnect_leaves_read_block_as_last : runSteps (step toyCrypto .testnet)
        (mintedOps ++ queriedOps ++ [.disconnectTip]) .initial =
      some rolledBack ∧
    (rolledBack.sigmaState.coinGroups.get? (.SIGMA_DENOM_1, 1)).map
      lastBlock = some (some ⟨2, 2⟩) ∧
    (rolledBack.rebuilt.coinGroups.get? (.SIGMA_DENOM_1, 1)).map
      lastBlock = some (some ⟨1, 1⟩) ∧
    ¬ SameAsRebuilt rolledBack := by
  have hstate : (rolledBack.sigmaState.coinGroups.get? (.SIGMA_DENOM_1, 1)).map
      lastBlock = some (some ⟨2, 2⟩) := by rfl
  have hrebuilt : (rolledBack.rebuilt.coinGroups.get? (.SIGMA_DENOM_1, 1)).map
      lastBlock = some (some ⟨1, 1⟩) := by rfl
  refine ⟨?_, hstate, hrebuilt, fun hsame => ?_⟩
  · rw [runSteps_append, runSteps_append, runSteps_mintedOps, Option.bind_some,
      runSteps_queriedOps, Option.bind_some]
    show queried.disconnectTip.bind some = _
    rw [disconnectTip_queried, Option.bind_some]
  · rw [hsame.coinGroups, hrebuilt] at hstate
    cases hstate

end Tecracoin.Sigma
