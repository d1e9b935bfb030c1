/-
  Which block `lastBlock` of a group is.  `AddBlock` puts it at the highest block
  with coins of the group, `RemoveBlock` at the highest block that has the key of
  the group; the two differ when a read has left a key without coins.

  Both readings are kept by the same steps for the same reasons, so they are
  treated together, as a function from a group and a chain to a block.
-/
import Tecracoin.Sigma.NodeInv

namespace Tecracoin.Sigma

open Data

/-- A way to name a block of a group that only depends on the coins and the key of the group: the
    head if it has coins of the group, the block named below if the head does not have the key. -/
structure Marks (mark : GroupKey → List CBlockIndex → Option BlockId) : Prop where
  head : ∀ {k : GroupKey} {b : CBlockIndex} {rest : List CBlockIndex},
    b.coinsAt k ≠ [] → mark k (b :: rest) = some b.toBlockId
  skip : ∀ {k : GroupKey} {b : CBlockIndex} {rest : List CBlockIndex},
    k ∉ b.keys → mark k (b :: rest) = mark k rest
  congr : ∀ {k : GroupKey} {b b' : CBlockIndex} {rest : List CBlockIndex},
    b'.toBlockId = b.toBlockId → b'.coinsAt k = b.coinsAt k → (k ∈ b'.keys ↔ k ∈ b.keys) →
      mark k (b' :: rest) = mark k (b :: rest)
  touches : ∀ {k : GroupKey} {chain chain' : List CBlockIndex},
    Touches chain chain' → mark k chain' = mark k chain

lemma lastOf_marks : Marks lastOf where
  head := lastOf_cons_of_coins
  skip hk := lastOf_cons_of_no_coins (CBlockIndex.coinsAt_eq_nil_of_notMem hk)
  congr hid hcoins _ := by rw [lastOf, lastOf, hid, hcoins]
  touches ht := (ht.same.at_key).lastOf_eq

lemma topKeyOf_marks : Marks topKeyOf where
  head hb := by rw [topKeyOf, if_pos (CBlockIndex.mem_keys_of_coinsAt hb)]
  skip hk := by rw [topKeyOf, if_neg hk]
  congr hid _ hkeys := by
    rw [topKeyOf, topKeyOf, hid]
    simp only [hkeys]
  touches ht := ht.top _

variable {mark : GroupKey → List CBlockIndex → Option BlockId} {st st' : CSigmaState}
  {b index index' tip tip' : CBlockIndex} {chain chain' below : List CBlockIndex} {k : GroupKey}
  {d : CoinDenomination} {id : Int}

variable (mark st chain) in
/-- The last block of every group with coins is the marked one. -/
def LastIs : Prop :=
  ∀ k g, coinsOf k chain ≠ [] → st.coinGroups.get? k = some g → g.lastBlock = mark k chain

namespace LastIs

lemma reset : LastIs mark .reset [] := fun _ _ hne => absurd rfl hne

lemma touches (h : LastIs mark st chain) (hm : Marks mark) (ht : Touches chain chain') :
    LastIs mark st chain' := by
  intro k g halive hget
  rw [(ht.same.at_key).coinsOf_eq] at halive
  rw [hm.touches ht]
  exact h k g halive hget

lemma congr_state (h : LastIs mark st chain) (hg : st'.coinGroups = st.coinGroups) :
    LastIs mark st' chain := by
  intro k g
  rw [hg]
  exact h k g

lemma cons_bare_iff (hm : Marks mark) (hb : b.keys = []) :
    LastIs mark st (b :: chain) ↔ LastIs mark st chain := by
  have hskip (k : GroupKey) : mark k (b :: chain) = mark k chain := hm.skip (by simp [hb])
  simp only [LastIs, coinsOf_cons_bare hb, hskip]

/-- Rebuilding, where the highest block with coins is the marked one. -/
lemma rebuilt (hmark : ∀ k, coinsOf k chain ≠ [] → mark k chain = lastOf k chain) :
    LastIs mark (CSigmaState.reset.buildSigmaStateFromIndex chain) chain := by
  intro k g halive hget
  rw [rebuilt_group, groupOf, if_neg halive, Option.some.injEq] at hget
  rw [← hget, hmark k halive]

lemma keyAdded {mints : List PublicCoin} (h : LastIs mark st (index :: chain))
    (hm : Marks mark) (hinv : GroupInv st (index :: chain))
    (ha : KeyAdded d mints st index id st' index') : LastIs mark st' (index' :: chain) := by
  obtain ⟨st1, hassigned, rfl⟩ := ha.assigned
  intro k g halive hget
  by_cases hk : k = (d, id)
  · subst hk
    have hcoins : index'.coinsAt (d, id) ≠ [] := by
      rw [ha.adds.coins]
      exact fun hnil => ha.ne_nil (List.append_eq_nil_iff.mp hnil).2
    have hlast : g.lastBlock = some index.toBlockId := by
      have hg := hassigned.group.symm.trans hget
      rw [Option.some.injEq] at hg
      rw [← hg]
      split_ifs <;> rfl
    rw [hlast, hm.head hcoins, ha.adds.id]
  · have hkeys : k ∈ index'.keys ↔ k ∈ index.keys := by
      rw [ha.adds.keys]
      exact ⟨fun hor => hor.resolve_left hk, .inr⟩
    rw [coinsOf_cons, ha.adds.other k hk, ← coinsOf_cons] at halive
    rw [hm.congr ha.adds.id (ha.adds.other k hk) hkeys]
    refine h k g halive ?_
    by_cases hcur : k = (d, st.currentGroupId d)
    · have hg := (hassigned.current k hk hcur).symm.trans hget
      rw [← hg]
      exact (groupAt_alive hinv halive).1
    · exact (hassigned.other k hk hcur).symm.trans hget

/-- Forgetting one key, if the next lower block with the key is the marked one. -/
lemma removeKey (h : LastIs mark st (tip :: below)) (hm : Marks mark)
    (hr : RemovesKey k tip tip') (hrem : KeyRemoved st k below st')
    (hmark : coinsOf k below ≠ [] → topKeyOf k below = mark k below) :
    LastIs mark st' (tip' :: below) := by
  intro k' g halive hget
  by_cases hk' : k' = k
  · subst hk'
    rw [hr.coinsOf_self] at halive
    obtain ⟨last, htop, hg, -⟩ := hrem.kept halive
    rw [hg, Option.some.injEq] at hget
    rw [hm.skip hr.gone, ← hmark halive, htop, ← hget]
  · rw [(hr.sameCoinsAt hk').coinsOf_eq] at halive
    rw [hrem.other k' hk'] at hget
    rw [hm.congr hr.id (hr.coins k' hk') (hr.keys k' hk')]
    exact h k' g halive hget

lemma removeBlock (h : LastIs mark st (tip :: below)) (hm : Marks mark)
    (hinv : GroupInv st (tip :: below))
    (hmark : ∀ k ∈ tip.keys, coinsOf k below ≠ [] → topKeyOf k below = mark k below)
    (hok : st.removeBlock tip below = .ok st') : LastIs mark st' below := by
  -- the keys that are left at any time are keys of the removed block
  have hbare := removeBlock_rule (P := fun st tip' => LastIs mark st (tip' :: below) ∧
      ∀ k ∈ tip'.keys, k ∈ tip.keys) hinv
    (fun _ _ k _ _ _ ⟨h, hsub⟩ hk hr hrem => ⟨h.removeKey hm hr hrem (hmark k (hsub k hk)),
      fun k' hk' => hsub k' (hr.mem_keys hk').2⟩)
    (fun _ _ _ hsame ⟨h, hsub⟩ => ⟨h.congr_state hsame.1, hsub⟩) ⟨h, fun _ hk => hk⟩ hok
  exact (cons_bare_iff hm rfl).mp hbare.2.1

lemma connects {hash : Uint256} {vtx : List CTransaction} {info : CSigmaTxInfo} {s : ConnectState}
    {crypto : Crypto} {params : Params} {node node' : Node}
    (h : LastIs mark node.sigmaState node.chainActive) (hm : Marks mark)
    (hinv : GroupInv node.sigmaState node.chainActive)
    (hc : Connects crypto params hash vtx node chain info s index node') :
    LastIs mark node'.sigmaState node'.chainActive := by
  have hserials := hc.serialsAdded
  have hlast : LastIs mark s.sigmaState (s.pindexNew :: chain) :=
    (cons_bare_iff hm hserials.bare).mpr ((h.touches hm hc.touches).congr_state hserials.groups.1)
  rw [hc.chain]
  refine (addMints_rule (P := fun st index => GroupInv st (index :: chain) ∧
    LastIs mark st (index :: chain)) ?_ hserials.bare ⟨hc.groupInv_bare hinv, hlast⟩ hc.added).2
  exact fun _ _ _ _ _ _ hp hnone ha => ⟨hp.1.keyAdded hnone ha, hp.2.keyAdded hm hp.1 ha⟩

end LastIs

end Tecracoin.Sigma
