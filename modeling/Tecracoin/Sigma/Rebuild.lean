/-
  What `BuildSigmaStateFromIndex` computes from an empty state, read off the
  chain: for every group the blocks and the number of its coins, for every
  denomination the latest recorded id, and the mints and serials of the blocks.

  Unlike `RemoveBlock`, `AddBlock` only looks at coins when it sets the last
  block of a group, so keys without coins are not visible in the groups; the
  latest id does see them.
-/
import Tecracoin.Sigma.RemoveBlock

namespace Tecracoin.Sigma

open Data StdMap CSigmaState List

variable {st : CSigmaState} {b : CBlockIndex} {chain below : List CBlockIndex} {k : GroupKey}

variable (st : CSigmaState) (b : CBlockIndex)

lemma buildSigmaStateFromIndex_cons :
    st.buildSigmaStateFromIndex (b :: below) = (st.buildSigmaStateFromIndex below).addBlock b := by
  rw [buildSigmaStateFromIndex, reverse_cons, foldl_append]
  rfl

lemma addBlock_sameGroups :
    SameGroups (b.sigmaMintedPubCoins.entries.foldl (addBlockCoins b.toBlockId) st)
      (st.addBlock b) :=
  ⟨foldl_frame coinGroups (fun _ _ _ => by rfl) _,
    foldl_frame latestCoinIds (fun _ _ _ => by rfl) _⟩

/-! ## Groups -/

/-- The entry of a group after a block with the given coins of the group. -/
def addGroup (index : BlockId) (coins : List PublicCoin) (group : Option SigmaCoinGroupInfo) :
    Option SigmaCoinGroupInfo :=
  if coins = [] then group
  else some ⟨if (group.getD .empty).firstBlock = none then some index
      else (group.getD .empty).firstBlock,
    some index, (group.getD .empty).nCoins + coins.length⟩

variable (index : BlockId) {es : List (GroupKey × List PublicCoin)} {d : CoinDenomination}

lemma addBlockCoins_group_self {coins : List PublicCoin} :
    (addBlockCoins index st (k, coins)).coinGroups.get? k =
      addGroup index coins (st.coinGroups.get? k) := by
  cases coins with
  | nil => rfl
  | cons coin coins => exact get?_set_self

lemma addBlockCoins_group_of_ne {k' : GroupKey} (coins : List PublicCoin) (hk : k ≠ k') :
    (addBlockCoins index st (k', coins)).coinGroups.get? k = st.coinGroups.get? k := by
  cases coins with
  | nil => rfl
  | cons coin coins => exact get?_set_of_ne hk

lemma foldl_addBlockCoins_group (hnodup : (es.map Prod.fst).Nodup) (st : CSigmaState) :
    (es.foldl (addBlockCoins index) st).coinGroups.get? k =
      addGroup index ((StdMap.lookup k es).getD []) (st.coinGroups.get? k) := by
  induction es generalizing st with
  | nil => rfl
  | cons e es ih =>
    obtain ⟨k', coins⟩ := e
    rw [map_cons, nodup_cons] at hnodup
    rw [foldl_cons, ih hnodup.2, StdMap.lookup]
    split_ifs with hk
    · -- the key does not come again
      subst hk
      rw [lookup_eq_none_iff.mpr hnodup.1, addBlockCoins_group_self]
      rfl
    · rw [addBlockCoins_group_of_ne st index coins (Ne.symm hk)]

/-- `AddBlock` on one group: only the coins of the block under its key count. -/
lemma addBlock_group :
    (st.addBlock b).coinGroups.get? k =
      addGroup b.toBlockId (b.coinsAt k) (st.coinGroups.get? k) := by
  rw [(addBlock_sameGroups st b).1]
  exact foldl_addBlockCoins_group b.toBlockId b.sigmaMintedPubCoins.nodupKeys st

/-- The entry of a group that agrees with the chain on the coins. -/
def groupOf (k : GroupKey) (chain : List CBlockIndex) : Option SigmaCoinGroupInfo :=
  if coinsOf k chain = [] then none
  else some ⟨firstOf k chain, lastOf k chain, (coinsOf k chain).length⟩

lemma groupOf_cons :
    groupOf k (b :: below) = addGroup b.toBlockId (b.coinsAt k) (groupOf k below) := by
  by_cases hb : b.coinsAt k = []
  · rw [addGroup, if_pos hb, groupOf, groupOf, coinsOf_cons, hb, nil_append,
      firstOf_cons_of_no_coins hb, lastOf_cons_of_no_coins hb]
  · have halive : coinsOf k (b :: below) ≠ [] := coinsOf_cons_ne_nil hb
    have hlength : (coinsOf k (b :: below)).length =
        (coinsOf k below).length + (b.coinsAt k).length := by
      rw [coinsOf_cons, length_append, Nat.add_comm]
    rw [addGroup, if_neg hb, groupOf, if_neg halive, lastOf_cons_of_coins hb, hlength, groupOf]
    by_cases hbelow : coinsOf k below = []
    · rw [if_pos hbelow, firstOf_cons_of_dead hbelow hb, hbelow]
      rfl
    · have hfirst : firstOf k below ≠ none := fun hnone => hbelow (firstOf_eq_none_iff.mp hnone)
      rw [if_neg hbelow, firstOf_cons_of_alive hbelow, Option.getD_some, if_neg hfirst]

lemma rebuilt_group :
    (reset.buildSigmaStateFromIndex chain).coinGroups.get? k = groupOf k chain := by
  induction chain with
  | nil => rfl
  | cons b below ih => rw [buildSigmaStateFromIndex_cons, addBlock_group, ih, groupOf_cons]

/-! ## Latest ids -/

lemma foldl_addBlockCoins_latest {st : CSigmaState} :
    (es.foldl (addBlockCoins index) st).latestCoinIds.get? d =
      (((es.map Prod.fst).reverse.find? (fun k => decide (k.1 = d))).map Prod.snd).or
        (st.latestCoinIds.get? d) := by
  induction es generalizing st with
  | nil => rfl
  | cons e es ih =>
    obtain ⟨k, coins⟩ := e
    have hstep : (addBlockCoins index st (k, coins)).latestCoinIds =
        st.latestCoinIds.set unordered k.1 k.2 := by
      cases coins <;> rfl
    rw [foldl_cons, ih, map_cons, reverse_cons, find?_append, hstep]
    cases (es.map Prod.fst).reverse.find? (fun k => decide (k.1 = d)) with
    | some k' => rfl
    | none =>
      by_cases hd : k.1 = d
      · subst hd
        simp [get?_set_self]
      · simp [hd, get?_set_of_ne (fun h => hd (Eq.symm h))]

lemma rebuilt_latest :
    (reset.buildSigmaStateFromIndex chain).latestCoinIds.get? d = latestOf d chain := by
  induction chain with
  | nil => rfl
  | cons b below ih =>
    rw [buildSigmaStateFromIndex_cons, (addBlock_sameGroups _ b).2, foldl_addBlockCoins_latest,
      ih, latestOf]
    show (b.idOf d).or (latestOf d below) = _
    cases b.idOf d <;> rfl

/-- The last block of a group has its key, and no block above has coins. -/
lemma split_of_coins (h : coinsOf k chain ≠ []) :
    ∃ above b rest, chain = above ++ b :: rest ∧ lastOf k chain = some b.toBlockId ∧
      b.coinsAt k ≠ [] ∧ coinsOf k above = [] := by
  induction chain with
  | nil => exact absurd rfl h
  | cons b below ih =>
    by_cases hb : b.coinsAt k = []
    · rw [coinsOf_cons, hb, nil_append] at h
      obtain ⟨above, b', rest, rfl, hlast, hcoins, hnone⟩ := ih h
      refine ⟨b :: above, b', rest, rfl, ?_, hcoins, ?_⟩
      · rw [lastOf_cons_of_no_coins hb, hlast]
      · rw [coinsOf_cons, hb, hnone, append_nil]
    · exact ⟨[], b, below, rfl, lastOf_cons_of_coins hb, hb, rfl⟩

lemma groupAgrees_of_coins (h : coinsOf k chain ≠ []) :
    GroupAgrees k chain ⟨firstOf k chain, lastOf k chain, (coinsOf k chain).length⟩ := by
  obtain ⟨above, b, rest, heq, hlast, hcoins, hnone⟩ := split_of_coins h
  exact ⟨h, rfl, rfl, above, b, rest, heq, hlast, CBlockIndex.mem_keys_of_coinsAt hcoins, hnone⟩

lemma GroupInv.rebuilt (hok : ChainOk chain) :
    GroupInv (CSigmaState.reset.buildSigmaStateFromIndex chain) chain where
  ok := hok
  alive k halive := by
    refine ⟨_, ?_, groupAgrees_of_coins halive⟩
    rw [rebuilt_group, groupOf, if_neg halive]
  dead k g hdead hget := by
    rw [rebuilt_group, groupOf, if_pos hdead] at hget
    cases hget
  latest d m hm := by rw [rebuilt_latest, hm]
  latestNone d hd := by
    rw [rebuilt_latest]
    exact .inl hd

end Tecracoin.Sigma
