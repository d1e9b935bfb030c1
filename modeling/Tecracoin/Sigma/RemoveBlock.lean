/-
  `RemoveBlock` on the tip of a chain that the groups agree with.

  The first loop forgets the tip key by key.  Between two iterations the groups
  agree with the chain whose tip has the remaining keys only, so the loop is
  followed with a tip that shrinks from the removed block to a block without
  keys, which no group can see.
-/
import Tecracoin.Sigma.GroupInv

namespace Tecracoin.Sigma

open Data CBlockIndex CSigmaState List

variable {block index : BlockId} {d : CoinDenomination} {P : CSigmaState → CBlockIndex → Prop}
  {k' : GroupKey} {m : Int} {es : List (GroupKey × List PublicCoin)}

variable {st st' : CSigmaState} {b tip tip' : CBlockIndex} {chain below : List CBlockIndex}
  {k : GroupKey}

/-! ## Blocks without keys -/

section
variable (hb : b.keys = [])
include hb

lemma coinsAt_of_bare (k : GroupKey) : b.coinsAt k = [] :=
  coinsAt_eq_nil_of_notMem (by simp [hb])

lemma coinsOf_cons_bare (k : GroupKey) (chain : List CBlockIndex) :
    coinsOf k (b :: chain) = coinsOf k chain := by
  rw [coinsOf_cons, coinsAt_of_bare hb, nil_append]

lemma latestOf_cons_bare (d : CoinDenomination) : latestOf d (b :: chain) = latestOf d chain :=
  latestOf_cons_of_none (idOf_eq_none_iff.mpr (by simp [hb]))

/-- No group can tell a block without keys on top of the chain. -/
lemma groupAgrees_cons_bare {g : SigmaCoinGroupInfo} :
    GroupAgrees k (b :: chain) g ↔ GroupAgrees k chain g := by
  have hcoins := coinsOf_cons_bare hb k chain
  have hfirst : firstOf k (b :: chain) = firstOf k chain :=
    firstOf_cons_of_no_coins (coinsAt_of_bare hb k)
  constructor
  · intro h
    refine ⟨by rw [← hcoins]; exact h.alive, by rw [← hcoins]; exact h.nCoins,
      by rw [← hfirst]; exact h.firstBlock, ?_⟩
    obtain ⟨above, b', rest, heq, hlast, hk, hnone⟩ := h.lastBlock
    cases above with
    | nil =>
      obtain ⟨rfl, -⟩ := List.cons.inj heq
      rw [hb] at hk
      cases hk
    | cons a above =>
      obtain ⟨-, rfl⟩ := List.cons.inj heq
      rw [coinsOf_cons, append_eq_nil_iff] at hnone
      exact ⟨above, b', rest, rfl, hlast, hk, hnone.2⟩
  · intro h
    refine ⟨by rw [hcoins]; exact h.alive, by rw [hcoins]; exact h.nCoins,
      by rw [hfirst]; exact h.firstBlock, ?_⟩
    obtain ⟨above, b', rest, rfl, hlast, hk, hnone⟩ := h.lastBlock
    exact ⟨b :: above, b', rest, rfl, hlast, hk, by rw [coinsOf_cons_bare hb, hnone]⟩

end

lemma GroupInv.cons_bare (h : GroupInv st chain) (hb : b.keys = [])
    (hheight : b.nHeight = chain.length) (hhash : ∀ b' ∈ chain, b'.phashBlock ≠ b.phashBlock) :
    GroupInv st (b :: chain) :=
  h.congr_chain ⟨h.ok, hheight, hhash, by simp [hb], by simp [hb], by simp [hb]⟩
    (fun k => coinsOf_cons_bare hb k chain) (fun _ _ => (groupAgrees_cons_bare hb).mpr)
    (latestOf_cons_bare hb)

lemma GroupInv.of_cons_bare (h : GroupInv st (b :: chain)) (hb : b.keys = []) :
    GroupInv st chain :=
  h.congr_chain h.ok.tail (fun k => (coinsOf_cons_bare hb k chain).symm)
    (fun _ _ => (groupAgrees_cons_bare hb).mp) (fun d => (latestOf_cons_bare hb d).symm)

/-! ## The roll back of one key -/

/-- The walk of `RemoveBlock` ends at the highest block below that has the key. -/
lemma rollBackLastBlock_ok {firstBlock : Option BlockId} {lastBlock : BlockId}
    (h : rollBackLastBlock k firstBlock lastBlock below = .ok block) :
    topKeyOf k below = some block := by
  fun_induction rollBackLastBlock with
  | case1 | case2 | case3 => cases h
  | case4 _ prev below _ hkey =>
    rw [topKeyOf, if_pos (contains_key_iff.mp hkey), Except.ok.inj h]
  | case5 _ prev below _ hkey ih =>
    rw [topKeyOf, if_neg (fun hmem => hkey (contains_key_iff.mpr hmem))]
    exact ih h

/-- The blocks above the highest one that has the key have no coins of the group. -/
lemma split_of_topKeyOf (h : topKeyOf k chain = some block) :
    ∃ above b rest, chain = above ++ b :: rest ∧ b.toBlockId = block ∧ k ∈ b.keys ∧
      coinsOf k above = [] := by
  induction chain with
  | nil => cases h
  | cons b below ih =>
    rw [topKeyOf] at h
    split_ifs at h with hk
    · exact ⟨[], b, below, rfl, Option.some.inj h, hk, rfl⟩
    · obtain ⟨above, b', rest, rfl, hid, hk', hnone⟩ := ih h
      refine ⟨b :: above, b', rest, rfl, hid, hk', ?_⟩
      rw [coinsOf_cons, coinsAt_eq_nil_of_notMem hk, hnone, append_nil]

/-- The two ways an iteration of the first loop succeeds. -/
lemma removeBlockCoins_ok_iff {coins : List PublicCoin} :
    removeBlockCoins index below st (k, coins) = .ok st' ↔
      coins.length ≤ (st.groupAt k).nCoins ∧
        (((st.groupAt k).nCoins = coins.length ∧
          st' = decrementLatest { st with coinGroups := st.coinGroups.erase k } k.1) ∨
        ((st.groupAt k).nCoins ≠ coins.length ∧ (st.groupAt k).lastBlock = some index ∧
          ∃ lastBlock, rollBackLastBlock k (st.groupAt k).firstBlock index below =
              .ok lastBlock ∧
            st' = st.setGroup k ⟨(st.groupAt k).firstBlock, some lastBlock,
              (st.groupAt k).nCoins - coins.length⟩)) := by
  simp only [removeBlockCoins]
  split_ifs with hless hzero hlast
  · simp
    omega
  · have heq : (st.groupAt k).nCoins = coins.length := by omega
    simp [heq, eq_comm]
  · simp [hlast]
    omega
  · have hne : (st.groupAt k).nCoins ≠ coins.length := by omega
    have hle : coins.length ≤ (st.groupAt k).nCoins := by omega
    rw [not_not] at hlast
    cases hroll : rollBackLastBlock k (st.groupAt k).firstBlock index below with
    | error e => simp [hne]
    | ok lastBlock => simp [hne, hle, hlast, eq_comm]

/-- `tip'` is `tip` without the key `k`. -/
structure RemovesKey (k : GroupKey) (tip tip' : CBlockIndex) : Prop where
  id : tip'.toBlockId = tip.toBlockId
  gone : k ∉ tip'.keys
  coins : ∀ k' ≠ k, tip'.coinsAt k' = tip.coinsAt k'
  keys : ∀ k' ≠ k, (k' ∈ tip'.keys ↔ k' ∈ tip.keys)

namespace RemovesKey

section
variable (h : RemovesKey k tip tip')
include h

lemma mem_keys (hk' : k' ∈ tip'.keys) : k' ≠ k ∧ k' ∈ tip.keys := by
  have hne : k' ≠ k := by
    rintro rfl
    exact h.gone hk'
  exact ⟨hne, (h.keys k' hne).mp hk'⟩

lemma blockOk (hb : BlockOk tip below) : BlockOk tip' below where
  nHeight := by
    rw [congrArg BlockId.nHeight h.id]
    exact hb.nHeight
  hash := by
    rw [congrArg BlockId.phashBlock h.id]
    exact hb.hash
  unique d i j hi hj := hb.unique d i j (h.mem_keys hi).2 (h.mem_keys hj).2
  first d i hk hnone := by
    rw [h.coins _ (h.mem_keys hk).1]
    exact hb.first d i (h.mem_keys hk).2 hnone
  later d i m hk hm := by
    rw [h.coins _ (h.mem_keys hk).1]
    exact hb.later d i m (h.mem_keys hk).2 hm

lemma sameCoinsAt (hk' : k' ≠ k) : SameCoinsAt k' (tip :: below) (tip' :: below) :=
  .cons ⟨h.id, h.coins k' hk', (h.keys k' hk').mpr⟩ (SameCoinsAt.refl below)

lemma coinsOf_self : coinsOf k (tip' :: below) = coinsOf k below := by
  rw [coinsOf_cons, coinsAt_eq_nil_of_notMem h.gone, nil_append]

/-- The denomination of the key is recorded below only. -/
lemma latestOf_self (hb : BlockOk tip below) (hk : k ∈ tip.keys) :
    latestOf k.1 (tip' :: below) = latestOf k.1 below := by
  refine latestOf_cons_of_none (idOf_eq_none_iff.mpr ?_)
  intro i hi
  obtain ⟨hne, hmem⟩ := h.mem_keys hi
  exact hne (Prod.ext rfl (hb.unique k.1 i k.2 hmem hk))

lemma latestOf_other (hb : BlockOk tip below) (hd : d ≠ k.1) :
    latestOf d (tip' :: below) = latestOf d (tip :: below) := by
  have hne : ∀ i, (d, i) ≠ k := by
    rintro i rfl
    exact hd rfl
  cases hid : tip.idOf d with
  | none =>
    rw [latestOf_cons_of_none hid]
    rw [idOf_eq_none_iff] at hid
    exact latestOf_cons_of_none (idOf_eq_none_iff.mpr
      (fun i hi => hid i ((h.keys _ (hne i)).mp hi)))
  | some i =>
    rw [latestOf_cons_of_idOf hid]
    exact ChainOk.latestOf_of_mem (h.blockOk hb) ((h.keys _ (hne i)).mpr (mem_keys_of_idOf hid))

end

end RemovesKey

/-! ## The state after one key -/

lemma getLatestCoinID_of_get?
    (h : st.latestCoinIds.get? d = some m) : st.getLatestCoinID d = m := by
  rw [getLatestCoinID, h, Option.getD_some]

lemma decrementLatest_get?_self (h : st.latestCoinIds.get? d = some m) :
    (st.decrementLatest d).latestCoinIds.get? d = if m = 1 then none else some (m - 1) := by
  have hm := getLatestCoinID_of_get? h
  simp only [decrementLatest, hm]
  split_ifs with hzero hone hone
  · exact StdMap.get?_erase_self
  · omega
  · omega
  · exact StdMap.get?_set_self

lemma decrementLatest_get?_of_ne {d' : CoinDenomination} (h : d' ≠ d) :
    (st.decrementLatest d).latestCoinIds.get? d' = st.latestCoinIds.get? d' := by
  simp only [decrementLatest]
  split_ifs
  · exact StdMap.get?_erase_of_ne h
  · exact StdMap.get?_set_of_ne h

@[simp] lemma decrementLatest_coinGroups : (st.decrementLatest d).coinGroups = st.coinGroups := by
  simp only [decrementLatest]
  split_ifs <;> rfl

@[simp] lemma decrementLatest_containers : (st.decrementLatest d).containers = st.containers := by
  simp only [decrementLatest]
  split_ifs <;> rfl

/-- What an iteration of the first loop does for a key of the tip, in terms of the chain below. -/
structure KeyRemoved (st : CSigmaState) (k : GroupKey) (below : List CBlockIndex)
    (st' : CSigmaState) : Prop where
  other : ∀ k' ≠ k, st'.coinGroups.get? k' = st.coinGroups.get? k'
  latestOther : ∀ d ≠ k.1, st'.latestCoinIds.get? d = st.latestCoinIds.get? d
  emptied : coinsOf k below = [] → st'.coinGroups.get? k = none ∧
    st'.latestCoinIds.get? k.1 = if k.2 = 1 then none else some (k.2 - 1)
  kept : coinsOf k below ≠ [] → ∃ last, topKeyOf k below = some last ∧
    st'.coinGroups.get? k = some ⟨firstOf k below, some last, (coinsOf k below).length⟩ ∧
    st'.latestCoinIds.get? k.1 = some k.2

lemma GroupInv.keyRemoved (h : GroupInv st (tip :: below)) (hk : k ∈ tip.keys)
    (hok : removeBlockCoins tip.toBlockId below st (k, tip.coinsAt k) = .ok st') :
    KeyRemoved st k below st' := by
  obtain ⟨hlatest, halive⟩ := h.tip_alive hk
  obtain ⟨-, hagrees⟩ := groupAt_alive h halive
  have hget := h.latest _ _ hlatest
  have hcount : (st.groupAt k).nCoins = (tip.coinsAt k).length + (coinsOf k below).length := by
    rw [hagrees.nCoins, coinsOf_cons, length_append]
  obtain ⟨-, ⟨heq, rfl⟩ | ⟨hne, -, last, hroll, rfl⟩⟩ := removeBlockCoins_ok_iff.mp hok
  · -- the group goes away with the tip
    have hempty : coinsOf k below = [] := length_eq_zero_iff.mp (by omega)
    refine ⟨?_, ?_, ?_, fun hne => absurd hempty hne⟩
    · intro k' hk'
      rw [decrementLatest_coinGroups]
      exact StdMap.get?_erase_of_ne hk'
    · intro d hd
      exact decrementLatest_get?_of_ne hd
    · intro _
      rw [decrementLatest_coinGroups]
      exact ⟨StdMap.get?_erase_self, decrementLatest_get?_self hget⟩
  · have hbelow : coinsOf k below ≠ [] := by
      intro hempty
      rw [hempty, length_nil, Nat.add_zero] at hcount
      exact hne hcount
    refine ⟨fun k' hk' => StdMap.get?_set_of_ne hk', fun _ _ => rfl,
      fun hempty => absurd hempty hbelow, fun _ => ⟨last, rollBackLastBlock_ok hroll, ?_, hget⟩⟩
    rw [setGroup, StdMap.get?_set_self, hagrees.firstBlock,
      firstOf_cons_of_alive hbelow, hcount, Nat.add_sub_cancel_left]

/-- The latest id below the tip, from the key of the tip. -/
lemma latestOf_below (hok : ChainOk (tip :: below)) (hk : k ∈ tip.keys) :
    (coinsOf k below ≠ [] → latestOf k.1 below = some k.2) ∧
      (coinsOf k below = [] → ∀ m, latestOf k.1 below = some m → k.2 = m + 1) := by
  constructor
  · intro hbelow
    obtain ⟨m, hm, -, hle⟩ := hok.tail.alive_le_latest hbelow
    obtain ⟨m', hm', hle'⟩ := hok.latestOf_mono hm
    rw [ChainOk.latestOf_of_mem hok.head hk, Option.some.injEq] at hm'
    rw [hm, show m = k.2 by omega]
  · intro hempty m hm
    rcases hok.head.later k.1 k.2 m hk hm with heq | ⟨heq, -⟩
    · -- the latest group below has coins
      have halive := (hok.tail.latest_spec hm).2
      rw [← heq] at halive
      exact absurd hempty halive
    · exact heq

/-- One key of the tip: forgetting its coins keeps the invariant. -/
lemma GroupInv.removeKey (h : GroupInv st (tip :: below)) (hk : k ∈ tip.keys)
    (hr : RemovesKey k tip tip') (hrem : KeyRemoved st k below st') :
    GroupInv st' (tip' :: below) := by
  have hblock := h.ok.head
  obtain ⟨hlatest, hlatest'⟩ := latestOf_below h.ok hk
  -- groups with coins, groups without, the latest ids, and denominations without one
  refine ⟨⟨h.ok.tail, hr.blockOk hblock⟩, ?_, ?_, ?_, ?_⟩
  · intro k' halive
    by_cases hk' : k' = k
    · subst hk'
      rw [hr.coinsOf_self] at halive
      obtain ⟨last, htop, hget, -⟩ := hrem.kept halive
      obtain ⟨above, b, rest, heq, hid, hkey, hnone⟩ := split_of_topKeyOf htop
      refine ⟨_, hget, ⟨by rw [hr.coinsOf_self]; exact halive, by rw [hr.coinsOf_self], ?_, ?_⟩⟩
      · exact (firstOf_cons_of_alive halive).symm
      · refine ⟨tip' :: above, b, rest, by rw [heq]; rfl, by rw [hid], hkey, ?_⟩
        rw [hr.coinsOf_self]
        exact hnone
    · rw [(hr.sameCoinsAt hk').coinsOf_eq] at halive
      obtain ⟨g, hget, hagrees⟩ := h.alive k' halive
      exact ⟨g, (hrem.other k' hk').trans hget, hagrees.congr (hr.sameCoinsAt hk')⟩
  · intro k' g hdead hget
    by_cases hk' : k' = k
    · subst hk'
      rw [hr.coinsOf_self] at hdead
      rw [(hrem.emptied hdead).1] at hget
      cases hget
    · rw [(hr.sameCoinsAt hk').coinsOf_eq] at hdead
      rw [hrem.other k' hk'] at hget
      exact h.dead k' g hdead hget
  · intro d m hm
    by_cases hd : d = k.1
    · subst hd
      rw [hr.latestOf_self hblock hk] at hm
      by_cases hbelow : coinsOf k below = []
      · have heq := hlatest' hbelow m hm
        have hone := (h.ok.tail.latest_spec hm).1
        rw [(hrem.emptied hbelow).2, if_neg (by omega), heq, Int.add_sub_cancel]
      · obtain ⟨-, -, -, hget⟩ := hrem.kept hbelow
        rw [hget, ← hlatest hbelow, hm]
    · rw [hr.latestOf_other hblock hd] at hm
      rw [hrem.latestOther d hd]
      exact h.latest d m hm
  · intro d hnone
    by_cases hd : d = k.1
    · subst hd
      rw [hr.latestOf_self hblock hk] at hnone
      have hbelow : coinsOf k below = [] := coinsOf_of_latest_none h.ok.tail hnone k.2
      rw [(hrem.emptied hbelow).2]
      rcases (hblock.first k.1 k.2 hk hnone).1 with heq | heq
      · exact .inl (if_pos heq)
      · rw [heq]
        exact .inr rfl
    · rw [hr.latestOf_other hblock hd] at hnone
      rw [hrem.latestOther d hd]
      exact h.latestNone d hnone

/-! ## The whole block -/

/-- `b` with the given entries left in `sigmaMintedPubCoins`. -/
def CBlockIndex.withEntries (b : CBlockIndex) (es : List (GroupKey × List PublicCoin))
    (h : (es.map Prod.fst).Nodup) : CBlockIndex :=
  { b with sigmaMintedPubCoins := ⟨es, h⟩ }

section WithEntries

variable {coins : List PublicCoin} (h : (((k, coins) :: es).map Prod.fst).Nodup)

lemma coinsAt_withEntries_cons : (tip.withEntries ((k, coins) :: es) h).coinsAt k = coins := by
  simp [withEntries, coinsAt, StdMap.get?, StdMap.lookup]

lemma removesKey_withEntries : RemovesKey k (tip.withEntries ((k, coins) :: es) h)
      (tip.withEntries es (nodup_cons.mp h).2) where
  id := rfl
  gone := (nodup_cons.mp h).1
  coins k' hk' := by
    simp [withEntries, coinsAt, StdMap.get?, StdMap.lookup, hk'.symm]
  keys k' hk' := by
    simp [withEntries, CBlockIndex.keys, StdMap.keys, hk']

end WithEntries

/-- The first loop: what every iteration keeps, for a tip that loses the key of the iteration, holds
    at the end for a tip without keys. -/
lemma removeCoins_rule
    (hstep : ∀ st tip k tip' st', P st tip → k ∈ tip.keys → RemovesKey k tip tip' →
      removeBlockCoins tip.toBlockId below st (k, tip.coinsAt k) = .ok st' → P st' tip')
    (hnodup : (es.map Prod.fst).Nodup) (h : P st (tip.withEntries es hnodup))
    (hok : es.foldlM (removeBlockCoins tip.toBlockId below) st = .ok st') :
    P st' (tip.withEntries [] nodup_nil) := by
  induction es generalizing st with
  | nil => exact Except.ok.inj hok ▸ h
  | cons e es ih =>
    obtain ⟨k, coins⟩ := e
    obtain ⟨st1, hfirst, hrest⟩ := foldlM_cons_ok_iff.mp hok
    refine ih (nodup_cons.mp hnodup).2 ?_ hrest
    refine hstep st (tip.withEntries ((k, coins) :: es) hnodup) k _ st1 h
      mem_cons_self (removesKey_withEntries hnodup) ?_
    rw [coinsAt_withEntries_cons]
    exact hfirst

/-- The three loops of `RemoveBlock`: groups, mints, serials. -/
lemma removeBlock_ok_iff :
    st.removeBlock tip below = .ok st' ↔ ∃ st1 st2,
      tip.sigmaMintedPubCoins.entries.foldlM
        (removeBlockCoins tip.toBlockId below) st = .ok st1 ∧
      tip.sigmaMintedPubCoins.entries.foldlM removeBlockMints st1 = .ok st2 ∧
      st' = tip.sigmaSpentSerials.entries.foldl removeBlockSpend st2 := by
  simp only [removeBlock, except_bind_ok_iff, pure, Except.pure, Except.ok.injEq,
    exists_and_left, eq_comm (a := st')]

/-- A roll back of a mint only touches the containers. -/
lemma removeBlockMint_ok {coin : PublicCoin} (h : removeBlockMint k st coin = .ok st') :
    st' = { st with containers := st.containers.removeMint coin } := by
  rw [removeBlockMint] at h
  cases hget : st.containers.mintedPubCoins.get? coin.value with
  | none => simp [hget] at h
  | some info =>
    simp only [hget] at h
    split_ifs at h
    exact (Except.ok.inj h).symm

/-- The groups as the first loop left them. -/
def SameGroups (st st' : CSigmaState) : Prop :=
  st'.coinGroups = st.coinGroups ∧ st'.latestCoinIds = st.latestCoinIds

lemma removeMints_sameGroups (hok : es.foldlM removeBlockMints st = .ok st') :
    SameGroups st st' := by
  refine foldlM_invariant (P := SameGroups st) ?_ ⟨rfl, rfl⟩ hok
  intro pubCoins _ st1 st2 h1 hok1
  refine foldlM_invariant (P := SameGroups st) ?_ h1 hok1
  intro coin _ st3 st4 h3 hok3
  rw [removeBlockMint_ok hok3]
  exact h3

lemma removeSpends_sameGroups (es : List (Scalar × CSpendCoinInfo)) (st : CSigmaState) :
    SameGroups st (es.foldl removeBlockSpend st) := by
  induction es generalizing st with
  | nil => exact ⟨rfl, rfl⟩
  | cons e es ih => exact ih _

/-- `RemoveBlock`: what every iteration of the first loop keeps, beside the invariant, holds for the
    groups at the end. -/
lemma removeBlock_rule (hinv : GroupInv st (tip :: below))
    (hstep : ∀ st tip k tip' st', GroupInv st (tip :: below) → P st tip → k ∈ tip.keys →
      RemovesKey k tip tip' → KeyRemoved st k below st' → P st' tip')
    (hcongr : ∀ st st' tip, SameGroups st st' → P st tip → P st' tip) (h : P st tip)
    (hok : st.removeBlock tip below = .ok st') :
    GroupInv st' (tip.withEntries [] nodup_nil :: below) ∧
      P st' (tip.withEntries [] nodup_nil) := by
  obtain ⟨st1, st2, hcoins, hmints, rfl⟩ := removeBlock_ok_iff.mp hok
  obtain ⟨hinv1, h1⟩ := removeCoins_rule (P := fun st tip => GroupInv st (tip :: below) ∧ P st tip)
    (fun st tip k tip' st' ⟨hinv, h⟩ hk hr hok => ⟨hinv.removeKey hk hr (hinv.keyRemoved hk hok),
      hstep st tip k tip' st' hinv h hk hr (hinv.keyRemoved hk hok)⟩)
    tip.sigmaMintedPubCoins.nodupKeys ⟨hinv, h⟩ hcoins
  have hsame := removeMints_sameGroups hmints
  have hsame' := removeSpends_sameGroups tip.sigmaSpentSerials.entries st2
  exact ⟨(hinv1.congr_state hsame.1 hsame.2).congr_state hsame'.1 hsame'.2,
    hcongr _ _ _ hsame' (hcongr _ _ _ hsame h1)⟩

lemma GroupInv.removeBlock (h : GroupInv st (tip :: below))
    (hok : st.removeBlock tip below = .ok st') : GroupInv st' below :=
  (removeBlock_rule (P := fun _ _ => True) h (fun _ _ _ _ _ _ _ _ _ _ => trivial)
    (fun _ _ _ _ _ => trivial) trivial hok).1.of_cons_bare rfl

end Tecracoin.Sigma
