/-
  `mintedPubCoins` and `usedCoinSerials` against the chain: the entries of the
  two containers are exactly the mints and the serials that the block indexes
  record.

  A mint is recorded with its group and the height of its block, and the
  container has one entry per coin value.  So agreement alone says that a value
  is minted in one block and under one key only, which is what `RemoveBlock`
  relies on when it erases by value.
-/
import Tecracoin.Sigma.NodeInv

namespace Tecracoin.Sigma

open Data StdMap CBlockIndex CSigmaState List

variable {info : CMintedCoinInfo} {value : GroupElement} {mints : List PublicCoin}
  {s : ConnectState} {e : GroupElement × CMintedCoinInfo} {es : List (GroupKey × List PublicCoin)}

variable {st st' : CSigmaState} {b index index' tip : CBlockIndex}
  {chain chain' below : List CBlockIndex} {k : GroupKey} {d : CoinDenomination} {id : Int}
  {c : Containers} {serial : Scalar} {coins : List PublicCoin}

/-! ## Mints of the chain -/

/-- The mints a block index records, with the info `AddMint` gets for them. -/
def mintsOf (b : CBlockIndex) : List (GroupElement × CMintedCoinInfo) :=
  b.sigmaMintedPubCoins.entries.flatMap
    (fun e => e.2.map (fun coin => (coin.value, ⟨e.1.1, e.1.2, b.nHeight⟩)))

def chainMints (chain : List CBlockIndex) : List (GroupElement × CMintedCoinInfo) :=
  chain.flatMap mintsOf

lemma mem_mintsOf :
    (value, info) ∈ mintsOf b ↔
      ∃ k, ∃ coin ∈ b.coinsAt k, coin.value = value ∧ info = ⟨k.1, k.2, b.nHeight⟩ := by
  rw [mintsOf, mem_flatMap]
  constructor
  · rintro ⟨⟨k, coins⟩, he, hmem⟩
    obtain ⟨coin, hcoin, heq⟩ := mem_map.mp hmem
    obtain ⟨rfl, rfl⟩ := Prod.mk.inj heq
    refine ⟨k, coin, ?_, rfl, rfl⟩
    rw [coinsAt, get?_eq_some_iff.mpr he]
    exact hcoin
  · rintro ⟨k, coin, hcoin, rfl, rfl⟩
    rw [coinsAt] at hcoin
    cases hget : b.sigmaMintedPubCoins.get? k with
    | none =>
      rw [hget] at hcoin
      cases hcoin
    | some coins =>
      rw [hget] at hcoin
      exact ⟨(k, coins), get?_eq_some_iff.mp hget, mem_map.mpr ⟨coin, hcoin, rfl⟩⟩

lemma mem_chainMints_cons :
    e ∈ chainMints (b :: below) ↔ e ∈ mintsOf b ∨ e ∈ chainMints below := by
  rw [chainMints, flatMap_cons, mem_append]
  rfl

lemma mintsOf_bare (hb : b.keys = []) : mintsOf b = [] := by
  rw [mintsOf, map_eq_nil_iff.mp hb, flatMap_nil]

lemma mem_chainMints_of_sameCoins
    (hs : SameCoins chain chain') : e ∈ chainMints chain' ↔ e ∈ chainMints chain := by
  induction hs with
  | nil => rfl
  | cons hb _ ih =>
    obtain ⟨value, info⟩ := e
    rw [mem_chainMints_cons, mem_chainMints_cons, ih, mem_mintsOf, mem_mintsOf]
    simp only [hb.coins, congrArg BlockId.nHeight hb.id]

/-! ## Mints of the state -/

/-- The minted coins of the state are the mints of the chain, and no coin stands twice under one
    key. -/
structure MintInv (st : CSigmaState) (chain : List CBlockIndex) : Prop where
  minted : ∀ value info, st.containers.mintedPubCoins.get? value = some info ↔
    (value, info) ∈ chainMints chain
  distinct : ∀ b ∈ chain, ∀ k, ((b.coinsAt k).map PublicCoin.value).Nodup

namespace MintInv

lemma reset : MintInv .reset [] := ⟨fun _ _ => by simp [CSigmaState.reset, Containers.reset,
  chainMints], by simp⟩

section
variable (h : MintInv st chain)
include h

lemma congr_state (hm : st'.containers.mintedPubCoins = st.containers.mintedPubCoins) :
    MintInv st' chain :=
  ⟨by rw [hm]; exact h.minted, h.distinct⟩

lemma of_sameCoins (hs : SameCoins chain chain') : MintInv st chain' where
  minted value info := by rw [h.minted, mem_chainMints_of_sameCoins hs]
  distinct b' hb' k := by
    obtain ⟨b, hb, hsame⟩ := hs.exists_of_mem hb'
    rw [hsame.coins]
    exact h.distinct b hb k

lemma cons_bare (hb : b.keys = []) : MintInv st (b :: chain) where
  minted value info := by
    rw [h.minted, mem_chainMints_cons, mintsOf_bare hb]
    simp
  distinct b' hb' k := by
    rcases mem_cons.mp hb' with rfl | hb'
    · rw [coinsAt_of_bare hb]
      exact nodup_nil
    · exact h.distinct b' hb' k

lemma unique {info' : CMintedCoinInfo} (h1 : (value, info) ∈ chainMints chain)
    (h2 : (value, info') ∈ chainMints chain) : info = info' := by
  rw [← h.minted] at h1 h2
  rw [h1, Option.some.injEq] at h2
  exact h2

end

end MintInv

/-! ### Adding mints -/

lemma foldl_addMint_get? :
    (mints.foldl (fun c mint => c.addMint mint info) c).mintedPubCoins.get? value =
      (c.mintedPubCoins.get? value).or
        (if value ∈ mints.map PublicCoin.value then some info else none) := by
  rw [← get?_foldl_insert_const, foldl_map]
  congr 1
  exact (foldl_hom Containers.mintedPubCoins (fun _ _ => rfl)).symm

lemma foldl_addMint_used :
    (mints.foldl (fun c mint => c.addMint mint info) c).usedCoinSerials = c.usedCoinSerials :=
  foldl_frame Containers.usedCoinSerials (fun _ _ _ => by rfl) c

lemma AddsCoins.mem_coinsAt (ha : AddsCoins k mints index index') {k' : GroupKey}
    {coin : PublicCoin} :
    coin ∈ index'.coinsAt k' ↔ coin ∈ index.coinsAt k' ∨ (k' = k ∧ coin ∈ mints) := by
  by_cases hk : k' = k
  · subst hk
    rw [ha.coins, mem_append, and_iff_right rfl]
  · rw [ha.other k' hk, or_iff_left (fun hmint => hk hmint.1)]

lemma AddsCoins.mem_mintsOf (ha : AddsCoins k mints index index') :
    (value, info) ∈ mintsOf index' ↔ (value, info) ∈ mintsOf index ∨
      (value ∈ mints.map PublicCoin.value ∧ info = ⟨k.1, k.2, index.nHeight⟩) := by
  have hheight : index'.nHeight = index.nHeight := congrArg BlockId.nHeight ha.id
  simp only [Sigma.mem_mintsOf, hheight, ha.mem_coinsAt]
  constructor
  · rintro ⟨k', coin, hcoin | ⟨rfl, hcoin⟩, rfl, rfl⟩
    · exact .inl ⟨k', coin, hcoin, rfl, rfl⟩
    · exact .inr ⟨mem_map_of_mem hcoin, rfl⟩
  · rintro (⟨k', coin, hcoin, rfl, rfl⟩ | ⟨hmem, rfl⟩)
    · exact ⟨k', coin, .inl hcoin, rfl, rfl⟩
    · obtain ⟨coin, hcoin, rfl⟩ := mem_map.mp hmem
      exact ⟨k, coin, .inr ⟨rfl, hcoin⟩, rfl, rfl⟩

lemma MintInv.keyAdded (h : MintInv st (index :: chain))
    (hnone : index.idOf d = none) (ha : KeyAdded d mints st index id st' index')
    (hfresh : ∀ mint ∈ mints, st.containers.mintedPubCoins.get? mint.value = none)
    (hnodup : (mints.map PublicCoin.value).Nodup) : MintInv st' (index' :: chain) := by
  obtain ⟨st1, -, rfl⟩ := ha.assigned
  refine ⟨fun value info => ?_, fun b hb k => ?_⟩
  · show (mints.foldl _ st.containers).mintedPubCoins.get? value = some info ↔ _
    rw [foldl_addMint_get?, mem_chainMints_cons, ha.adds.mem_mintsOf, or_right_comm,
      ← mem_chainMints_cons, ← h.minted]
    by_cases hmem : value ∈ mints.map PublicCoin.value
    · obtain ⟨mint, hmint, rfl⟩ := mem_map.mp hmem
      rw [hfresh mint hmint, if_pos hmem]
      simp [hmem, eq_comm]
    · simp [hmem]
  · rcases mem_cons.mp hb with rfl | hb
    · by_cases hk : k = (d, id)
      · subst hk
        rw [(ha.adds.coins_of_none hnone chain).1]
        exact hnodup
      · rw [ha.adds.other k hk]
        exact h.distinct index (.head _) k
    · exact h.distinct b (.tail _ hb) k

/-- `AddMintsToStateAndBlockIndex` records distinct new mints. -/
lemma MintInv.addMints (h : MintInv st (index :: chain)) (hbare : index.keys = [])
    (hfresh : ∀ mint ∈ mints, st.containers.mintedPubCoins.get? mint.value = none)
    (hnodup : (mints.map PublicCoin.value).Nodup)
    (hok : st.addMintsToStateAndBlockIndex index mints = .ok (st', index')) :
    MintInv st' (index' :: chain) := by
  have hchain : ∀ mint ∈ mints, ∀ info, (mint.value, info) ∉ chainMints chain := by
    intro mint hmint info hmem
    have hget := (h.minted mint.value info).mpr (mem_chainMints_cons.mpr (.inr hmem))
    rw [hfresh mint hmint] at hget
    cases hget
  -- so far the new tip has mints of the block only, each under its denomination
  refine (addMints_rule (P := fun st index => MintInv st (index :: chain) ∧
    ∀ k, ∀ coin ∈ index.coinsAt k, coin ∈ mints ∧ coin.denomination = k.1)
    ?_ hbare ⟨h, ?_⟩ hok).1
  · rintro d st1 index1 id st2 index2 ⟨hinv, hown⟩ hnone ha
    refine ⟨hinv.keyAdded hnone ha ?_ ?_, ?_⟩
    · intro mint hmint
      obtain ⟨hmint, hd⟩ := mem_filter.mp hmint
      rw [decide_eq_true_eq] at hd
      refine Option.eq_none_iff_forall_ne_some.mpr (fun info hget => ?_)
      rw [hinv.minted, mem_chainMints_cons] at hget
      rcases hget with hget | hget
      · -- a coin of the tip with this value would be this very mint
        obtain ⟨k, coin, hcoin, hvalue, -⟩ := mem_mintsOf.mp hget
        obtain ⟨hmem, hk⟩ := hown k coin hcoin
        have heq : coin = mint := inj_on_of_nodup_map hnodup hmem hmint hvalue
        have hkey : (d, k.2) ∈ index1.keys := by
          rw [show (d, k.2) = k from Prod.ext (by rw [← hd, ← heq, hk]) rfl]
          exact mem_keys_of_coinsAt (ne_nil_of_mem hcoin)
        exact absurd hkey (idOf_eq_none_iff.mp hnone k.2)
      · exact absurd hget (hchain mint hmint info)
    · exact hnodup.sublist (filter_sublist.map _)
    · intro k coin hcoin
      rcases ha.adds.mem_coinsAt.mp hcoin with hold | ⟨rfl, hnew⟩
      · exact hown k coin hold
      · exact ⟨(mem_filter.mp hnew).1, ha.denomination coin hnew⟩
  · intro k coin hcoin
    rw [coinsAt_of_bare hbare] at hcoin
    cases hcoin

/-! ## What RemoveBlock erases -/

variable (c : Containers) (coin : PublicCoin)

lemma removeMint_mintedPubCoins :
    (c.removeMint coin).mintedPubCoins = c.mintedPubCoins.erase coin.value := by
  rw [Containers.removeMint]
  cases hget : c.mintedPubCoins.get? coin.value with
  | none => exact (erase_of_get?_none hget).symm
  | some info => rfl

lemma removeMint_usedCoinSerials : (c.removeMint coin).usedCoinSerials = c.usedCoinSerials := by
  rw [Containers.removeMint]
  cases c.mintedPubCoins.get? coin.value <;> rfl

lemma removeSpend_usedCoinSerials :
    (c.removeSpend serial).usedCoinSerials = c.usedCoinSerials.erase serial := by
  rw [Containers.removeSpend]
  cases hget : c.usedCoinSerials.get? serial with
  | none => exact (erase_of_get?_none hget).symm
  | some info => rfl

lemma removeSpend_mintedPubCoins : (c.removeSpend serial).mintedPubCoins = c.mintedPubCoins := by
  rw [Containers.removeSpend]
  cases c.usedCoinSerials.get? serial <;> rfl

/-- The minted coins with the given values are gone, nothing else has changed. -/
def Forgets (values : List GroupElement) (c c' : Containers) : Prop :=
  (∀ value, c'.mintedPubCoins.get? value =
    if value ∈ values then none else c.mintedPubCoins.get? value) ∧
    c'.usedCoinSerials = c.usedCoinSerials

lemma Forgets.trans {v1 v2 : List GroupElement} {c1 c2 c3 : Containers}
    (h1 : Forgets v1 c1 c2) (h2 : Forgets v2 c2 c3) : Forgets (v1 ++ v2) c1 c3 := by
  refine ⟨fun value => ?_, h2.2.trans h1.2⟩
  rw [h2.1, h1.1]
  by_cases hv : value ∈ v2 <;> simp [hv]

lemma forgets_removeMint : Forgets [coin.value] c (c.removeMint coin) := by
  refine ⟨fun value => ?_, removeMint_usedCoinSerials _ _⟩
  rw [removeMint_mintedPubCoins]
  exact get?_foldl_erase [coin.value] _ _

lemma removeMints_forgets (hok : coins.foldlM (removeBlockMint k) st = .ok st') :
    Forgets (coins.map PublicCoin.value) st.containers st'.containers := by
  induction coins generalizing st with
  | nil =>
    rw [← Except.ok.inj hok]
    exact ⟨by simp, rfl⟩
  | cons coin coins ih =>
    obtain ⟨st1, hfirst, hrest⟩ := foldlM_cons_ok_iff.mp hok
    have hst1 := removeBlockMint_ok hfirst
    have hforgets : Forgets [coin.value] st.containers st1.containers := by
      rw [hst1]
      exact forgets_removeMint _ _
    exact hforgets.trans (ih hrest)

lemma removeBlockMints_forgets (hok : es.foldlM removeBlockMints st = .ok st') :
    Forgets (es.flatMap (fun e => e.2.map PublicCoin.value)) st.containers st'.containers := by
  induction es generalizing st with
  | nil =>
    rw [← Except.ok.inj hok]
    exact ⟨by simp, rfl⟩
  | cons e es ih =>
    obtain ⟨st1, hfirst, hrest⟩ := foldlM_cons_ok_iff.mp hok
    exact (removeMints_forgets hfirst).trans (ih hrest)

lemma removeCoins_containers {index : BlockId}
    (hok : es.foldlM (removeBlockCoins index below) st = .ok st') :
    st'.containers = st.containers := by
  refine foldlM_invariant (P := fun s : CSigmaState => s.containers = st.containers) ?_ rfl hok
  intro e _ s s' hs hstep
  obtain ⟨-, ⟨-, rfl⟩ | ⟨-, -, last, -, rfl⟩⟩ := removeBlockCoins_ok_iff.mp hstep
  · rw [decrementLatest_containers]
    exact hs
  · exact hs

lemma removeSpends_get? {es : List (Scalar × CSpendCoinInfo)} :
    (∀ serial, (es.foldl removeBlockSpend st).containers.usedCoinSerials.get? serial =
        if serial ∈ es.map Prod.fst then none else st.containers.usedCoinSerials.get? serial) ∧
      (es.foldl removeBlockSpend st).containers.mintedPubCoins = st.containers.mintedPubCoins := by
  constructor
  · intro serial
    rw [← get?_foldl_erase, foldl_map]
    congr 1
    exact (foldl_hom (fun st : CSigmaState => st.containers.usedCoinSerials)
      (fun _ _ => (removeSpend_usedCoinSerials _).symm)).symm
  · exact foldl_frame (fun st : CSigmaState => st.containers.mintedPubCoins)
      (fun _ _ _ => removeSpend_mintedPubCoins _) st

/-- The mints and serials of the removed block go, the others stay. -/
lemma removeBlock_containers (hok : st.removeBlock tip below = .ok st') :
    (∀ value, st'.containers.mintedPubCoins.get? value =
      if value ∈ (mintsOf tip).map Prod.fst then none
      else st.containers.mintedPubCoins.get? value) ∧
    (∀ serial, st'.containers.usedCoinSerials.get? serial =
      if serial ∈ tip.sigmaSpentSerials.keys then none
      else st.containers.usedCoinSerials.get? serial) := by
  obtain ⟨st1, st2, hcoins, hmints, rfl⟩ := removeBlock_ok_iff.mp hok
  obtain ⟨hused, hminted⟩ := removeSpends_get?
  obtain ⟨hvalues, hserials⟩ := removeBlockMints_forgets hmints
  have hkeep := removeCoins_containers hcoins
  have hmap : (mintsOf tip).map Prod.fst =
      tip.sigmaMintedPubCoins.entries.flatMap (fun e => e.2.map PublicCoin.value) := by
    rw [mintsOf, map_flatMap]
    simp only [map_map]
    rfl
  refine ⟨fun value => ?_, fun serial => ?_⟩
  · rw [hminted, hvalues, hkeep, hmap]
  · rw [hused, hserials, hkeep]
    rfl

lemma MintInv.removeBlock (h : MintInv st (tip :: below)) (hchain : ChainOk (tip :: below))
    (hok : st.removeBlock tip below = .ok st') : MintInv st' below where
  minted value info := by
    rw [(removeBlock_containers hok).1]
    -- a value of the tip is not minted below, because the recorded heights differ
    have hapart : ∀ info', value ∈ (mintsOf tip).map Prod.fst →
        (value, info') ∉ chainMints below := by
      intro info' hmem hbelow
      obtain ⟨⟨value', info1⟩, htip, rfl⟩ := mem_map.mp hmem
      have heq := h.unique (mem_chainMints_cons.mpr (.inl htip))
        (mem_chainMints_cons.mpr (.inr hbelow))
      obtain ⟨k, -, -, -, rfl⟩ := mem_mintsOf.mp htip
      obtain ⟨b, hb, hmem⟩ := mem_flatMap.mp hbelow
      obtain ⟨k', -, -, -, rfl⟩ := mem_mintsOf.mp hmem
      have hlt := hchain.tail.nHeight_lt hb
      have hheight := hchain.head.nHeight
      have hsame : tip.nHeight = b.nHeight := congrArg CMintedCoinInfo.nHeight heq
      omega
    by_cases hmem : value ∈ (mintsOf tip).map Prod.fst
    · rw [if_pos hmem]
      exact ⟨nofun, fun hbelow => absurd hbelow (hapart info hmem)⟩
    · rw [if_neg hmem, h.minted, mem_chainMints_cons]
      refine ⟨fun hor => hor.resolve_left ?_, .inr⟩
      exact fun htip => hmem (mem_map_of_mem htip)
  distinct b hb k := h.distinct b (.tail _ hb) k

/-! ## Serials of the chain -/

/-- The used serials of the state are the serials of the chain, and no serial is in two blocks. -/
structure SpendInv (st : CSigmaState) (chain : List CBlockIndex) : Prop where
  used : ∀ serial info, st.containers.usedCoinSerials.get? serial = some info ↔
    ∃ b ∈ chain, b.sigmaSpentSerials.get? serial = some info
  distinct : chain.Pairwise (fun b b' =>
    ∀ serial ∈ b.sigmaSpentSerials.keys, serial ∉ b'.sigmaSpentSerials.keys)

namespace SpendInv

lemma reset : SpendInv .reset [] :=
  ⟨fun _ _ => by simp [CSigmaState.reset, Containers.reset], .nil⟩

section
variable (h : SpendInv st chain)
include h

lemma congr_state (hu : st'.containers.usedCoinSerials = st.containers.usedCoinSerials) :
    SpendInv st' chain :=
  ⟨by rw [hu]; exact h.used, h.distinct⟩

/-- Only the serials of the blocks count. -/
lemma congr_spent
    (hs : chain'.map sigmaSpentSerials = chain.map sigmaSpentSerials) : SpendInv st chain' := by
  have hmem : ∀ (chain : List CBlockIndex) serial info,
      (∃ b ∈ chain, b.sigmaSpentSerials.get? serial = some info) ↔
        ∃ m ∈ chain.map sigmaSpentSerials, m.get? serial = some info := by
    simp
  refine ⟨fun serial info => ?_, ?_⟩
  · rw [h.used, hmem, hmem, hs]
  · have hdistinct : (chain.map sigmaSpentSerials).Pairwise
        (fun m m' => ∀ serial ∈ m.keys, serial ∉ m'.keys) := pairwise_map.mpr h.distinct
    rw [← hs] at hdistinct
    exact pairwise_map.mp hdistinct

lemma of_sameCoins (hs : SameCoins chain chain') : SpendInv st chain' := by
  have hmap : chain'.map sigmaSpentSerials = chain.map sigmaSpentSerials := by
    clear h
    induction hs with
    | nil => rfl
    | cons hb _ ih => rw [map_cons, map_cons, hb.spent, ih]
  exact h.congr_spent hmap

lemma cons_bare (hb : b.sigmaSpentSerials = .empty) : SpendInv st (b :: chain) where
  used serial info := by
    rw [h.used]
    simp [hb]
  distinct := by
    refine pairwise_cons.mpr ⟨fun b' _ serial hserial => ?_, h.distinct⟩
    rw [hb] at hserial
    cases hserial

end

/-- A serial of the tip that was not used before. -/
lemma addSerial {serial : Scalar × CSpendCoinInfo}
    (h : SpendInv s.sigmaState (s.pindexNew :: chain))
    (hunused : s.sigmaState.isUsedCoinSerial serial.1 = false) :
    SpendInv (s.addSerial serial).sigmaState ((s.addSerial serial).pindexNew :: chain) := by
  have hnone : s.sigmaState.containers.usedCoinSerials.get? serial.1 = none := by
    simpa [isUsedCoinSerial, StdMap.contains] using hunused
  -- a serial that the state does not know is in no block
  have hnew : ∀ b ∈ s.pindexNew :: chain, b.sigmaSpentSerials.get? serial.1 = none := by
    intro b hb
    refine Option.eq_none_iff_forall_ne_some.mpr (fun info hget => ?_)
    have hused := (h.used serial.1 info).mpr ⟨b, hb, hget⟩
    rw [hnone] at hused
    cases hused
  have htip := hnew _ (.head _)
  refine ⟨fun serial' info => ?_, ?_⟩
  · show (s.sigmaState.containers.usedCoinSerials.set StdMap.unordered serial.1 serial.2).get?
      serial' = some info ↔ _
    rw [exists_mem_cons_iff]
    show _ ↔ (s.pindexNew.sigmaSpentSerials.insert StdMap.unordered serial.1 serial.2).get?
      serial' = some info ∨ _
    by_cases hs : serial' = serial.1
    · subst hs
      rw [get?_set_self, get?_insert_self, htip, Option.getD_none]
      refine ⟨.inl, fun hor => hor.resolve_right ?_⟩
      rintro ⟨b, hb, hget⟩
      rw [hnew b (.tail _ hb)] at hget
      cases hget
    · rw [get?_set_of_ne hs, get?_insert_of_ne hs, h.used, exists_mem_cons_iff]
  · rw [pairwise_cons]
    have hold := pairwise_cons.mp h.distinct
    refine ⟨fun b hb serial' hserial => ?_, hold.2⟩
    rcases mem_keys_insert.mp hserial with rfl | hserial
    · exact get?_eq_none_iff.mp (hnew b (.tail _ hb))
    · exact hold.1 b hb serial' hserial

lemma removeBlock (h : SpendInv st (tip :: below)) (hok : st.removeBlock tip below = .ok st') :
    SpendInv st' below where
  used serial info := by
    rw [(removeBlock_containers hok).2]
    have hold := h.used serial info
    rw [exists_mem_cons_iff] at hold
    by_cases hmem : serial ∈ tip.sigmaSpentSerials.keys
    · rw [if_pos hmem]
      refine ⟨nofun, fun ⟨b, hb, hget⟩ => ?_⟩
      exact absurd (mem_keys_of_get? hget) ((pairwise_cons.mp h.distinct).1 b hb serial hmem)
    · rw [if_neg hmem, hold, get?_eq_none_iff.mpr hmem]
      simp
  distinct := (pairwise_cons.mp h.distinct).2

end SpendInv

/-! ## Rebuilding the containers -/

lemma lookup_map_value :
    StdMap.lookup value (coins.map (fun coin => (coin.value, info))) =
      if value ∈ coins.map PublicCoin.value then some info else none := by
  induction coins with
  | nil => rfl
  | cons coin coins ih =>
    rw [map_cons, StdMap.lookup, ih]
    by_cases hv : coin.value = value
    · simp [hv]
    · simp [hv, Ne.symm hv]

lemma addBlock_minted :
    (st.addBlock b).containers.mintedPubCoins.get? value =
      (st.containers.mintedPubCoins.get? value).or (StdMap.lookup value (mintsOf b)) := by
  have hspends (es : List (Scalar × CSpendCoinInfo)) (st : CSigmaState) :
      (es.foldl (fun st serial => st.addSpend serial.1 serial.2) st).containers.mintedPubCoins =
        st.containers.mintedPubCoins :=
    foldl_frame (fun st : CSigmaState => st.containers.mintedPubCoins) (fun _ _ _ => by rfl) st
  have hmints : ∀ (es : List (GroupKey × List PublicCoin)) (st : CSigmaState),
      (es.foldl (addBlockCoins b.toBlockId) st).containers.mintedPubCoins.get? value =
        (st.containers.mintedPubCoins.get? value).or (StdMap.lookup value (es.flatMap
          (fun e => e.2.map (fun coin => (coin.value, ⟨e.1.1, e.1.2, b.nHeight⟩))))) := by
    intro es
    induction es with
    | nil => exact fun st => (Option.or_none).symm
    | cons e es ih =>
      intro st
      have hstep : (addBlockCoins b.toBlockId st e).containers =
          e.2.foldl (fun c coin => c.addMint coin ⟨e.1.1, e.1.2, b.nHeight⟩) st.containers := by
        rw [addBlockCoins]
        split_ifs <;> rfl
      rw [foldl_cons, ih, hstep, foldl_addMint_get?, flatMap_cons,
        StdMap.lookup_append, lookup_map_value, Option.or_assoc]
  rw [addBlock, hspends, hmints]
  rfl

lemma addBlock_used :
    (st.addBlock b).containers.usedCoinSerials.get? serial =
      (b.sigmaSpentSerials.get? serial).or (st.containers.usedCoinSerials.get? serial) := by
  have hmints (es : List (GroupKey × List PublicCoin)) (st : CSigmaState) :
      (es.foldl (addBlockCoins b.toBlockId) st).containers.usedCoinSerials =
        st.containers.usedCoinSerials := by
    refine foldl_frame (fun st : CSigmaState => st.containers.usedCoinSerials) (fun st e _ => ?_) st
    rw [addBlockCoins]
    split_ifs <;> exact foldl_addMint_used
  have hspends (es : List (Scalar × CSpendCoinInfo)) (st : CSigmaState) :
      (es.foldl (fun st serial => st.addSpend serial.1 serial.2) st).containers.usedCoinSerials =
        es.foldl (fun m e => m.set StdMap.unordered e.1 e.2) st.containers.usedCoinSerials :=
    (foldl_hom (fun st : CSigmaState => st.containers.usedCoinSerials) (fun _ _ => rfl)).symm
  rw [addBlock, hspends, get?_foldl_set, hmints,
    lookup_reverse b.sigmaSpentSerials.nodupKeys]
  rfl

lemma rebuilt_minted :
    (reset.buildSigmaStateFromIndex chain).containers.mintedPubCoins.get? value =
      StdMap.lookup value (chainMints chain.reverse) := by
  induction chain with
  | nil => rfl
  | cons b below ih =>
    rw [buildSigmaStateFromIndex_cons, addBlock_minted, ih, ← StdMap.lookup_append,
      chainMints, chainMints, reverse_cons, flatMap_append, flatMap_singleton]

/-- The rebuilt minted coins, if no value is minted twice. -/
lemma MintInv.rebuilt (h : MintInv st chain) :
    MintInv (CSigmaState.reset.buildSigmaStateFromIndex chain) chain := by
  have hmem (e : GroupElement × CMintedCoinInfo) :
      e ∈ chainMints chain.reverse ↔ e ∈ chainMints chain := by
    simp [chainMints]
  refine ⟨fun value info => ?_, h.distinct⟩
  rw [rebuilt_minted, ← hmem]
  exact lookup_eq_some_iff (fun _ _ h1 h2 => h.unique ((hmem _).mp h1) ((hmem _).mp h2))

/-- The rebuilt used serials, if no serial is in two blocks. -/
lemma SpendInv.rebuilt (h : SpendInv st chain) :
    SpendInv (CSigmaState.reset.buildSigmaStateFromIndex chain) chain := by
  refine ⟨?_, h.distinct⟩
  have hdistinct := h.distinct
  clear h
  induction chain with
  | nil => exact SpendInv.reset.used
  | cons b below ih =>
    intro serial info
    rw [pairwise_cons] at hdistinct
    have hbelow := ih hdistinct.2 serial info
    rw [buildSigmaStateFromIndex_cons, addBlock_used, Option.or_eq_some_iff, hbelow,
      exists_mem_cons_iff]
    constructor
    · rintro (hget | ⟨-, hget⟩)
      · exact .inl hget
      · exact .inr hget
    · rintro (hget | ⟨b', hb', hget⟩)
      · exact .inl hget
      · refine .inr ⟨get?_eq_none_iff.mpr (fun hmem => ?_), b', hb', hget⟩
        exact hdistinct.1 b' hb' serial hmem (mem_keys_of_get? hget)

/-! ## Every operation -/

variable {crypto : Crypto} {params : Params} {node node' : Node}

/-- Both containers of a node. -/
structure ContainerInv (node : Node) : Prop where
  mints : MintInv node.sigmaState node.chainActive
  spends : SpendInv node.sigmaState node.chainActive

lemma ContainerInv.touches (h : ContainerInv node) (hst : node'.sigmaState = node.sigmaState)
    (ht : Touches node.chainActive node'.chainActive) : ContainerInv node' :=
  ⟨by rw [hst]; exact h.mints.of_sameCoins ht.same,
    by rw [hst]; exact h.spends.of_sameCoins ht.same⟩

lemma ContainerInv.connects {hash : Uint256} {vtx : List CTransaction} {info : CSigmaTxInfo}
    (h : ContainerInv node) (hc : Connects crypto params hash vtx node chain info s index node') :
    ContainerInv node' := by
  have hserials := hc.serialsAdded
  constructor
  · have hmints : MintInv s.sigmaState (s.pindexNew :: chain) :=
      ((h.mints.of_sameCoins hc.touches.same).cons_bare hserials.bare).congr_state hserials.minted
    rw [hc.chain]
    refine hmints.addMints hserials.bare ?_ hc.mintsFresh.nodup hc.added
    intro mint hmint
    rw [hserials.minted]
    simpa [hasCoin, StdMap.contains] using hc.mintsFresh.fresh mint hmint
  · have hspends : SpendInv s.sigmaState (s.pindexNew :: chain) :=
      connectSerials_rule (P := fun s => SpendInv s.sigmaState (s.pindexNew :: chain))
        (fun _ _ hs hunused => hs.addSerial hunused)
        ((h.spends.of_sameCoins hc.touches.same).cons_bare rfl) hc.serials
    rw [hc.chain]
    refine addMints_rule (P := fun st index => SpendInv st (index :: chain)) ?_ hserials.bare
      hspends hc.added
    intro d st index id st' index' hs _ ha
    obtain ⟨st1, -, rfl⟩ := ha.assigned
    refine (hs.congr_state foldl_addMint_used).congr_spent ?_
    rw [map_cons, map_cons, ha.adds.spent]

lemma ContainerInv.step {op : Node.Op} (h : ContainerInv node)
    (hinv : GroupInv node.sigmaState node.chainActive)
    (hstep : Node.step crypto params op node = some node') : ContainerInv node' := by
  cases step_cases hinv hstep with
  | connects hconnects => exact h.connects hconnects
  | disconnects hchain hremove =>
    obtain ⟨hmints, hspends⟩ := h
    rw [hchain] at hinv hmints hspends
    exact ⟨hmints.removeBlock hinv.ok hremove, hspends.removeBlock hremove⟩
  | touches htouches => exact h.touches rfl htouches
  | restarts => exact ⟨h.mints.rebuilt, h.spends.rebuilt⟩

end Tecracoin.Sigma
