/-
  The invariant that ties `coinGroups` and `latestCoinIds` to the active chain,
  and its preservation by `AddMintsToStateAndBlockIndex`, `RemoveBlock` and the
  walks.

  Mints are added to, and rolled back from, the tip one key at a time, and the
  invariant holds for the chain with the tip as it stands after each key, so one
  lemma per key carries both loops.
-/
import Tecracoin.Sigma.Walk

namespace Tecracoin.Sigma

open Data CBlockIndex StdMap CSigmaState ChainOk List

variable {k : GroupKey} {n : Nat} {b : BlockId} {P : CSigmaState → CBlockIndex → Prop}
  {g : SigmaCoinGroupInfo} {st st' : CSigmaState} {chain chain' : List CBlockIndex}

/-- The groups and latest ids of the state agree with the chain. A group without coins may leave an
    empty entry behind, and a denomination without coins the latest id 1. -/
structure GroupInv (st : CSigmaState) (chain : List CBlockIndex) : Prop where
  ok : ChainOk chain
  alive : ∀ k, coinsOf k chain ≠ [] →
    ∃ g, st.coinGroups.get? k = some g ∧ GroupAgrees k chain g
  dead : ∀ k g, coinsOf k chain = [] → st.coinGroups.get? k = some g → g = .empty
  latest : ∀ d m, latestOf d chain = some m → st.latestCoinIds.get? d = some m
  latestNone : ∀ d, latestOf d chain = none →
    st.latestCoinIds.get? d = none ∨ st.latestCoinIds.get? d = some 1

namespace GroupInv

lemma reset : GroupInv .reset [] where
  ok := trivial
  alive _ h := absurd rfl h
  dead _ _ _ h := by cases h
  latest _ _ h := by cases h
  latestNone _ _ := .inl rfl

section

variable (h : GroupInv st chain)
include h

lemma congr_state (hg : st'.coinGroups = st.coinGroups)
    (hl : st'.latestCoinIds = st.latestCoinIds) : GroupInv st' chain :=
  ⟨h.ok, by rw [hg]; exact h.alive, by rw [hg]; exact h.dead, by rw [hl]; exact h.latest,
    by rw [hl]; exact h.latestNone⟩

/-- A chain on which the groups look the same. -/
lemma congr_chain (hok : ChainOk chain')
    (hcoins : ∀ k, coinsOf k chain' = coinsOf k chain)
    (hagrees : ∀ k g, GroupAgrees k chain g → GroupAgrees k chain' g)
    (hlatest : ∀ d, latestOf d chain' = latestOf d chain) : GroupInv st chain' where
  ok := hok
  alive k hk := by
    rw [hcoins k] at hk
    obtain ⟨g, hg, hgroup⟩ := h.alive k hk
    exact ⟨g, hg, hagrees k g hgroup⟩
  dead k g hk := by
    rw [hcoins k] at hk
    exact h.dead k g hk
  latest d m hm := by
    rw [hlatest d] at hm
    exact h.latest d m hm
  latestNone d hd := by
    rw [hlatest d] at hd
    exact h.latestNone d hd

lemma touches (ht : Touches chain chain') : GroupInv st chain' :=
  h.congr_chain (ht.ok h.ok) (fun _ => (ht.same.at_key).coinsOf_eq)
    (fun _ _ hgroup => hgroup.congr ht.same.at_key) ht.latest

/-- Every walk of a check keeps the invariant, because a group that a walk can finish on agrees with
    the chain. -/
lemma agrees_of_walk
    {α : Type} {walk : ChainWalk α}
    {a : α × List CBlockIndex} (hg : st.coinGroups.get? k = some g)
    (hw : walkFrom g.lastBlock walk chain = .ok a) : GroupAgrees k chain g := by
  by_cases hk : coinsOf k chain = []
  · -- an empty entry has no last block to start from
    rw [h.dead k g hk hg] at hw
    have hnone : ∀ c : List CBlockIndex, walkFrom none walk c = .error .nullDereference := by
      intro c
      induction c with
      | nil => rfl
      | cons b c ih => simp [walkFrom, ih]
    rw [SigmaCoinGroupInfo.empty, hnone] at hw
    cases hw
  · obtain ⟨g', hg', hagrees⟩ := h.alive k hk
    rw [hg, Option.some.injEq] at hg'
    rw [hg']
    exact hagrees

end

/-- A key of the tip names a group with coins that is the current one. -/
lemma tip_alive {tip : CBlockIndex} {below : List CBlockIndex} (h : GroupInv st (tip :: below))
    (hk : k ∈ tip.keys) :
    latestOf k.1 (tip :: below) = some k.2 ∧ coinsOf k (tip :: below) ≠ [] := by
  have hlatest : latestOf k.1 (tip :: below) = some k.2 :=
    latestOf_of_mem h.ok.head hk
  exact ⟨hlatest, (h.ok.latest_spec hlatest).2⟩

end GroupInv

/-! ## Adding mints -/

section AddMints

variable {index index' : CBlockIndex} {d : CoinDenomination} {id : Int}

/-- `index'` is `index` with coins added under `k`. -/
structure AddsCoins (k : GroupKey) (mints : List PublicCoin) (index index' : CBlockIndex) :
    Prop where
  id : index'.toBlockId = index.toBlockId
  spent : index'.sigmaSpentSerials = index.sigmaSpentSerials
  coins : index'.coinsAt k = index.coinsAt k ++ mints
  other : ∀ k' ≠ k, index'.coinsAt k' = index.coinsAt k'
  keys : ∀ k', k' ∈ index'.keys ↔ k' = k ∨ k' ∈ index.keys

lemma addsCoins_pushCoin (k : GroupKey) (index : CBlockIndex) (coin : PublicCoin) :
    AddsCoins k [coin] index (pushCoin k index coin) where
  id := rfl
  spent := rfl
  coins := by
    rw [pushCoin, coinsAt, get?_set_self, Option.getD_some]
  other k' hk' := by
    rw [pushCoin, coinsAt, get?_set_of_ne hk', coinsAt]
  keys k' := mem_keys_set

lemma AddsCoins.trans {m1 m2 : List PublicCoin} {a b c : CBlockIndex}
    (h1 : AddsCoins k m1 a b) (h2 : AddsCoins k m2 b c) : AddsCoins k (m1 ++ m2) a c where
  id := h2.id.trans h1.id
  spent := h2.spent.trans h1.spent
  coins := by rw [h2.coins, h1.coins, append_assoc]
  other k' hk' := (h2.other k' hk').trans (h1.other k' hk')
  keys k' := by
    rw [h2.keys, h1.keys]
    tauto

/-- Recording the mints of one denomination adds them under their key, and only the containers of
    the state change. -/
lemma recordMints_spec {mints : List PublicCoin} (hne : mints ≠ [])
    (hd : ∀ mint ∈ mints, mint.denomination = d) (id : Int) (st : CSigmaState)
    (index : CBlockIndex) :
    AddsCoins (d, id) mints index (recordMints id mints (st, index)).2 ∧
      (recordMints id mints (st, index)).1 =
        { st with
          containers := mints.foldl
            (fun c mint => c.addMint mint ⟨d, id, index.nHeight⟩) st.containers } := by
  induction mints generalizing st index with
  | nil => exact absurd rfl hne
  | cons mint mints ih =>
    have hmint := hd mint (.head _)
    have hfirst := addsCoins_pushCoin (d, id) index mint
    rw [recordMints, hmint]
    cases mints with
    | nil => exact ⟨hfirst, rfl⟩
    | cons mint' mints =>
      obtain ⟨hrest, hst⟩ := ih (cons_ne_nil _ _) (forall_mem_cons.mp hd).2
        { st with containers := st.containers.addMint mint ⟨d, id, index.nHeight⟩ }
        (pushCoin (d, id) index mint)
      exact ⟨hfirst.trans hrest, hst⟩

/-- `extendGroup` on a group without coins starts it, and otherwise keeps its first block. -/
lemma extendGroup_ok {g' : SigmaCoinGroupInfo} (h : extendGroup g b n = .ok g') :
    g' = ⟨if g.nCoins = 0 then some b else g.firstBlock, some b, g.nCoins + n⟩ := by
  unfold extendGroup at h
  split_ifs at h with h0
  · rw [if_pos h0]
    exact (Except.ok.inj h).symm
  · rw [if_neg h0]
    split at h
    · cases h
    · split_ifs at h
      exact (Except.ok.inj h).symm

/-- What `assignGroup` leaves: the group the mints go to, the latest id, and possibly an entry for
    the current group; nothing else changes. -/
structure Assigned (st : CSigmaState) (b : BlockId) (d : CoinDenomination) (n : Nat)
    (st' : CSigmaState) (id : Int) : Prop where
  containers : st'.containers = st.containers
  group : st'.coinGroups.get? (d, id) = some
    (if id = st.currentGroupId d then
      ⟨if (st.groupAt (d, id)).nCoins = 0 then some b else (st.groupAt (d, id)).firstBlock, some b,
        (st.groupAt (d, id)).nCoins + n⟩
    else ⟨some b, some b, n⟩)
  current : ∀ k, k ≠ (d, id) → k = (d, st.currentGroupId d) →
    st'.coinGroups.get? k = some (st.groupAt k)
  other : ∀ k, k ≠ (d, id) → k ≠ (d, st.currentGroupId d) →
    st'.coinGroups.get? k = st.coinGroups.get? k
  latest : st'.latestCoinIds.get? d = some id
  latestOther : ∀ d' ≠ d, st'.latestCoinIds.get? d' = st.latestCoinIds.get? d'
  id : (id = st.currentGroupId d ∧
      (st.groupAt (d, id)).nCoins + n ≤ ZC_SPEND_V3_COINSPERID_LIMIT) ∨
    (id = st.currentGroupId d + 1 ∧
      ZC_SPEND_V3_COINSPERID_LIMIT < (st.groupAt (d, st.currentGroupId d)).nCoins + n)

lemma assignGroup_ok (h : st.assignGroup b d n = .ok (st', id)) : Assigned st b d n st' id := by
  simp only [assignGroup] at h
  split_ifs at h with hlimit
  · split at h
    · cases h
    · rename_i g' hextend
      obtain ⟨rfl, rfl⟩ := Prod.mk.inj (Except.ok.inj h)
      have hg' := extendGroup_ok hextend
      refine ⟨rfl, ?_, ?_, ?_, ?_, ?_, .inl ⟨rfl, hlimit⟩⟩
      · rw [if_pos rfl, setGroup, get?_set_self, hg']
      · exact fun k hne heq => absurd heq hne
      · intro k hne _
        rw [setGroup, openCurrentGroup, setGroup, get?_set_of_ne hne, get?_set_of_ne hne]
        rfl
      · exact get?_set_self
      · exact fun d' hd' => get?_set_of_ne hd'
  · obtain ⟨rfl, rfl⟩ := Prod.mk.inj (Except.ok.inj h)
    have hid : st.currentGroupId d + 1 ≠ st.currentGroupId d := by omega
    refine ⟨rfl, ?_, ?_, ?_, ?_, ?_, .inr ⟨rfl, by omega⟩⟩
    · rw [if_neg hid, setGroup, get?_set_self]
    · rintro k hne rfl
      rw [setGroup, get?_set_of_ne hne]
      exact get?_set_self
    · intro k hne hne'
      rw [setGroup, get?_set_of_ne hne]
      exact get?_set_of_ne hne'
    · exact get?_set_self
    · intro d' hd'
      rw [setGroup, setLatest, get?_set_of_ne hd']
      exact get?_set_of_ne hd'

variable {mints : List PublicCoin}

lemma currentGroupId_of_latest (h : GroupInv st chain) {m : Int}
    (hm : latestOf d chain = some m) : st.currentGroupId d = m := by
  have hone := (h.ok.latest_spec hm).1
  rw [currentGroupId, getLatestCoinID, h.latest d m hm, Option.getD_some, if_neg (by omega)]

lemma currentGroupId_of_none (h : GroupInv st chain) (hnone : latestOf d chain = none) :
    st.currentGroupId d = 1 := by
  rw [currentGroupId, getLatestCoinID]
  rcases h.latestNone d hnone with hl | hl <;> rw [hl] <;> rfl

lemma coinsOf_of_latest_none (hok : ChainOk chain) (hnone : latestOf d chain = none) (i : Int) :
    coinsOf (d, i) chain = [] := by
  by_contra hne
  obtain ⟨m, hm, -⟩ := hok.alive_le_latest hne
  rw [hnone] at hm
  cases hm

section
variable (h : GroupInv st chain)
include h

lemma groupAt_dead (hk : coinsOf k chain = []) : st.groupAt k = .empty := by
  rw [groupAt]
  cases hg : st.coinGroups.get? k with
  | none => rfl
  | some g => exact h.dead k g hk hg

lemma groupAt_alive (hk : coinsOf k chain ≠ []) :
    st.coinGroups.get? k = some (st.groupAt k) ∧ GroupAgrees k chain (st.groupAt k) := by
  obtain ⟨g, hg, hagrees⟩ := h.alive k hk
  have hat : st.groupAt k = g := by rw [groupAt, hg, Option.getD_some]
  rw [hat]
  exact ⟨hg, hagrees⟩

lemma groupAt_nCoins (k : GroupKey) : (st.groupAt k).nCoins = (coinsOf k chain).length := by
  by_cases hk : coinsOf k chain = []
  · rw [groupAt_dead h hk, hk]
    rfl
  · exact (groupAt_alive h hk).2.nCoins

/-- The id mints get fits the chain below their block. -/
lemma Assigned.id_fits (ha : Assigned st index.toBlockId d n st' id) :
    (latestOf d chain = none → id = 1 ∨ id = 2) ∧
      (∀ m, latestOf d chain = some m → id = m ∨ id = m + 1) := by
  constructor
  · intro hnone
    have hcur := currentGroupId_of_none h hnone
    rcases ha.id with ⟨hid, -⟩ | ⟨hid, -⟩ <;> omega
  · intro m hm
    have hcur := currentGroupId_of_latest h hm
    rcases ha.id with ⟨hid, -⟩ | ⟨hid, -⟩ <;> omega

/-- Mints that go to a group with coins go to the current one. -/
lemma Assigned.current_of_alive (ha : Assigned st index.toBlockId d n st' id)
    (hne : coinsOf (d, id) chain ≠ []) : id = st.currentGroupId d := by
  obtain ⟨m, hm, -, hle⟩ := h.ok.alive_le_latest hne
  have hcur := currentGroupId_of_latest h hm
  rcases ha.id with ⟨hid', -⟩ | ⟨hid', -⟩ <;> omega

end

/-- The coins of a denomination that had none in the block. -/
lemma AddsCoins.coins_of_none (ha : AddsCoins (d, id) mints index index')
    (hnone : index.idOf d = none) (chain : List CBlockIndex) :
    index'.coinsAt (d, id) = mints ∧ coinsOf (d, id) (index :: chain) = coinsOf (d, id) chain := by
  have hempty := coinsAt_eq_nil_of_notMem (idOf_eq_none_iff.mp hnone id)
  constructor
  · rw [ha.coins, hempty, nil_append]
  · rw [coinsOf_cons, hempty, nil_append]

lemma AddsCoins.idOf_other (ha : AddsCoins (d, id) mints index index')
    (hok : BlockOk index' chain) {d' : CoinDenomination} (hd' : d' ≠ d) :
    index'.idOf d' = index.idOf d' := by
  cases hid : index.idOf d' with
  | some i =>
    exact idOf_of_mem hok ((ha.keys _).mpr (.inr (mem_keys_of_idOf hid)))
  | none =>
    rw [idOf_eq_none_iff] at hid ⊢
    intro i hmem
    rcases (ha.keys _).mp hmem with hk | hmem
    · exact hd' (congrArg Prod.fst hk)
    · exact hid i hmem

section

variable (h : GroupInv st (index :: chain)) (hnone : index.idOf d = none) (hne : mints ≠ [])
  (ha : Assigned st index.toBlockId d mints.length st' id)
  (hadd : AddsCoins (d, id) mints index index')
include h hnone hne ha hadd

/-- The group that receives the mints agrees with the chain afterwards. -/
lemma Assigned.group_agrees :
    ∃ g, st'.coinGroups.get? (d, id) = some g ∧ GroupAgrees (d, id) (index' :: chain) g := by
  obtain ⟨hcoins, hbelow⟩ := hadd.coins_of_none hnone chain
  have hall : coinsOf (d, id) (index' :: chain) = mints ++ coinsOf (d, id) chain := by
    rw [coinsOf_cons, hcoins]
  have halive : coinsOf (d, id) (index' :: chain) ≠ [] := by
    rw [hall]
    exact fun hnil => hne (append_eq_nil_iff.mp hnil).1
  have hlast : ∃ above b rest, index' :: chain = above ++ b :: rest ∧
      some index.toBlockId = some b.toBlockId ∧ (d, id) ∈ b.keys ∧ coinsOf (d, id) above = [] :=
    ⟨[], index', chain, rfl, by rw [hadd.id], (hadd.keys _).mpr (.inl rfl), rfl⟩
  have hcount := groupAt_nCoins h (d, id)
  rw [hbelow] at hcount
  by_cases hchain : coinsOf (d, id) chain = []
  · -- the group starts with this block
    have hfirst : firstOf (d, id) (index' :: chain) = some index.toBlockId := by
      rw [firstOf_cons_of_dead hchain (by rw [hcoins]; exact hne), hadd.id]
    rw [hchain, length_nil] at hcount
    refine ⟨_, ha.group, ?_⟩
    rw [hcount, if_pos rfl, Nat.zero_add, ite_self]
    exact ⟨halive, by rw [hall, hchain, append_nil], hfirst.symm, hlast⟩
  · -- the group goes on: it is the current one
    have halive' : coinsOf (d, id) (index :: chain) ≠ [] := by
      rw [hbelow]
      exact hchain
    have hcur := ha.current_of_alive h halive'
    have hagrees := (groupAt_alive h halive').2
    have hne0 : (st.groupAt (d, id)).nCoins ≠ 0 := by
      rw [hcount]
      exact fun hzero => hchain (length_eq_zero_iff.mp hzero)
    refine ⟨_, ha.group, ?_⟩
    rw [if_pos hcur, if_neg hne0]
    refine ⟨halive, ?_, ?_, hlast⟩
    · rw [hcount, hall, length_append, Nat.add_comm]
    · rw [hagrees.firstBlock, firstOf_cons_of_alive hchain, firstOf_cons_of_alive hchain]

/-- One key of the new tip: choosing the group and recording the mints of one denomination keeps the
    invariant. -/
lemma GroupInv.addKey : GroupInv st' (index' :: chain) := by
  have hnokey := idOf_eq_none_iff.mp hnone
  have hlatest : latestOf d (index :: chain) = latestOf d chain := latestOf_cons_of_none hnone
  have hcoins := (hadd.coins_of_none hnone chain).1
  have hother {d' : CoinDenomination} {i : Int} (hk : (d', i) ∈ index.keys) : (d', i) ≠ (d, id) :=
    fun heq => hnokey id (heq ▸ hk)
  obtain ⟨hfits, hfits'⟩ := ha.id_fits h
  rw [hlatest] at hfits
  have hblock : BlockOk index' chain := by
    have hb := h.ok.head
    refine ⟨?_, ?_, ?_, ?_, ?_⟩
    · rw [congrArg BlockId.nHeight hadd.id]
      exact hb.nHeight
    · rw [congrArg BlockId.phashBlock hadd.id]
      exact hb.hash
    · intro d' i j hi hj
      rcases (hadd.keys _).mp hi with hki | hi <;> rcases (hadd.keys _).mp hj with hkj | hj
      · exact (congrArg Prod.snd hki).trans (congrArg Prod.snd hkj).symm
      · obtain rfl : d' = d := congrArg Prod.fst hki
        exact absurd hj (hnokey j)
      · obtain rfl : d' = d := congrArg Prod.fst hkj
        exact absurd hi (hnokey i)
      · exact hb.unique d' i j hi hj
    · intro d' i hk hnone'
      rcases (hadd.keys _).mp hk with hk | hk
      · obtain ⟨rfl, rfl⟩ := Prod.mk.inj hk
        exact ⟨hfits hnone', by rw [hcoins]; exact hne⟩
      · rw [hadd.other _ (hother hk)]
        exact hb.first d' i hk hnone'
    · intro d' i m hk hm
      rcases (hadd.keys _).mp hk with hk | hk
      · obtain ⟨rfl, rfl⟩ := Prod.mk.inj hk
        rcases hfits' m (hlatest.trans hm) with heq | heq
        · exact .inl heq
        · exact .inr ⟨heq, by rw [hcoins]; exact hne⟩
      · rw [hadd.other _ (hother hk)]
        exact hb.later d' i m hk hm
  have hsame : ∀ k, k ≠ (d, id) → SameCoinsAt k (index :: chain) (index' :: chain) := by
    intro k hk
    refine .cons ⟨hadd.id, hadd.other k hk, fun hmem => (hadd.keys k).mpr (.inr hmem)⟩ ?_
    exact SameCoinsAt.refl chain
  refine ⟨⟨h.ok.tail, hblock⟩, ?_, ?_, ?_, ?_⟩
  · -- groups with coins
    intro k halive
    by_cases hk : k = (d, id)
    · subst hk
      exact ha.group_agrees h hnone hne hadd
    · have halive' : coinsOf k (index :: chain) ≠ [] := by
        rw [← (hsame k hk).coinsOf_eq]
        exact halive
      obtain ⟨hget, hagrees⟩ := groupAt_alive h halive'
      refine ⟨st.groupAt k, ?_, hagrees.congr (hsame k hk)⟩
      by_cases hcur : k = (d, st.currentGroupId d)
      · exact ha.current k hk hcur
      · rw [ha.other k hk hcur, hget]
  · -- entries without coins
    intro k g hdead hget
    have hk : k ≠ (d, id) := by
      rintro rfl
      rw [coinsOf_cons, hcoins, append_eq_nil_iff] at hdead
      exact hne hdead.1
    rw [(hsame k hk).coinsOf_eq] at hdead
    by_cases hcur : k = (d, st.currentGroupId d)
    · rw [ha.current k hk hcur, Option.some.injEq] at hget
      rw [← hget]
      exact groupAt_dead h hdead
    · rw [ha.other k hk hcur] at hget
      exact h.dead k g hdead hget
  · -- latest ids
    intro d' m hm
    by_cases hd' : d' = d
    · subst hd'
      rw [latestOf_of_mem hblock ((hadd.keys _).mpr (.inl rfl)), Option.some.injEq] at hm
      rw [ha.latest, hm]
    · rw [latestOf, hadd.idOf_other hblock hd'] at hm
      rw [ha.latestOther d' hd']
      exact h.latest d' m hm
  · intro d' hnone'
    by_cases hd' : d' = d
    · subst hd'
      rw [latestOf_of_mem hblock ((hadd.keys _).mpr (.inl rfl))] at hnone'
      cases hnone'
    · rw [latestOf, hadd.idOf_other hblock hd'] at hnone'
      rw [ha.latestOther d' hd']
      exact h.latestNone d' hnone'

end

/-- One iteration of the outer loop of `AddMintsToStateAndBlockIndex`. -/
structure KeyAdded (d : CoinDenomination) (mints : List PublicCoin) (st : CSigmaState)
    (index : CBlockIndex) (id : Int) (st' : CSigmaState) (index' : CBlockIndex) : Prop where
  ne_nil : mints ≠ []
  denomination : ∀ mint ∈ mints, mint.denomination = d
  assigned : ∃ st1, Assigned st index.toBlockId d mints.length st1 id ∧
    st' = { st1 with
      containers := mints.foldl (fun c mint => c.addMint mint ⟨d, id, index.nHeight⟩)
        st.containers }
  adds : AddsCoins (d, id) mints index index'

lemma GroupInv.keyAdded (h : GroupInv st (index :: chain)) (hnone : index.idOf d = none)
    (ha : KeyAdded d mints st index id st' index') : GroupInv st' (index' :: chain) := by
  obtain ⟨st1, hassigned, rfl⟩ := ha.assigned
  exact (h.addKey hnone ha.ne_nil hassigned ha.adds).congr_state rfl rfl

/-- The outer loop: what every iteration keeps, the loop keeps. -/
lemma addDenomMints_rule {entries : List (CoinDenomination × List PublicCoin)}
    (hstep : ∀ d mints st index id st' index', (d, mints) ∈ entries → P st index →
      index.idOf d = none → KeyAdded d mints st index id st' index' → P st' index')
    (hnodup : (entries.map Prod.fst).Nodup)
    (hentries : ∀ e ∈ entries, e.2 ≠ [] ∧ ∀ mint ∈ e.2, mint.denomination = e.1)
    (hfresh : ∀ e ∈ entries, index.idOf e.1 = none) (h : P st index)
    (hok : addDenomMints entries (st, index) = .ok (st', index')) : P st' index' := by
  induction entries generalizing st index with
  | nil =>
    obtain ⟨rfl, rfl⟩ := Prod.mk.inj (Except.ok.inj hok)
    exact h
  | cons e entries ih =>
    obtain ⟨d, mints⟩ := e
    rw [addDenomMints] at hok
    rw [map_cons, nodup_cons] at hnodup
    split at hok
    · cases hok
    · rename_i st1 id hassign
      obtain ⟨hne, hd⟩ := hentries _ (.head _)
      obtain ⟨hadds, hst⟩ := recordMints_spec hne hd id st1 index
      have hassigned := assignGroup_ok hassign
      rw [hassigned.containers] at hst
      have hkey : KeyAdded d mints st index id (recordMints id mints (st1, index)).1
          (recordMints id mints (st1, index)).2 :=
        ⟨hne, hd, ⟨st1, hassigned, hst⟩, hadds⟩
      have hnext := hstep _ _ _ _ _ _ _ (.head _) h (hfresh _ (.head _)) hkey
      refine ih (fun d mints st index id st' index' hmem =>
        hstep d mints st index id st' index' (.tail _ hmem)) hnodup.2
        (forall_mem_cons.mp hentries).2 ?_ hnext hok
      -- the other denominations have no key yet
      intro e he
      have hnone := idOf_eq_none_iff.mp (hfresh e (.tail _ he))
      rw [idOf_eq_none_iff]
      intro i hmem
      rcases (hadds.keys _).mp hmem with hk | hmem
      · have hd' : e.1 = d := congrArg Prod.fst hk
        exact hnodup.1 (mem_map.mpr ⟨e, he, hd'⟩)
      · exact hnone i hmem

/-- The mints of one denomination. -/
def mintsFor (d : CoinDenomination) (mints : List PublicCoin) : List PublicCoin :=
  mints.filter (fun mint => decide (mint.denomination = d))

/-- `AddMintsToStateAndBlockIndex` into an index without coins: what every iteration keeps holds at
    the end. -/
lemma addMints_rule (hstep : ∀ d st index id st' index', P st index → index.idOf d = none →
      KeyAdded d (mintsFor d mints) st index id st' index' → P st' index')
    (hfresh : index.keys = []) (h : P st index)
    (hok : st.addMintsToStateAndBlockIndex index mints = .ok (st', index')) : P st' index' := by
  have hmem : ∀ e ∈ blockDenomMints mints, e.2 = mintsFor e.1 mints ∧ e.2 ≠ [] := by
    intro e he
    obtain ⟨hmem, hne⟩ := mem_filter.mp he
    obtain ⟨d, -, rfl⟩ := mem_map.mp hmem
    refine ⟨rfl, fun hnil => ?_⟩
    rw [isEmpty_iff.mpr hnil] at hne
    cases hne
  refine addDenomMints_rule ?_ ?_ ?_ ?_ h hok
  · intro d mints' st index id st' index' he
    rw [show mints' = mintsFor d mints from (hmem _ he).1]
    exact hstep d st index id st' index'
  · refine List.Nodup.sublist (filter_sublist.map _) ?_
    rw [map_map]
    simp
  · intro e he
    refine ⟨(hmem e he).2, fun mint hmint => ?_⟩
    rw [(hmem e he).1] at hmint
    simpa using (mem_filter.mp hmint).2
  · intro e _
    rw [idOf_eq_none_iff, hfresh]
    simp

end AddMints

end Tecracoin.Sigma
