/-
  The coin list a wallet gets from `GetCoinSetForSpend` and the one
  `CheckSigmaSpendTransaction` builds for a spend against the returned block.

  The list returned for a height is the coins of the group from some block with
  coins of the group down, and the block hash is the hash of that block.  As long
  as nothing is disconnected this lower part of the chain stays, and the walk of
  the verifier, wherever it starts, comes down to that block.
-/
import Tecracoin.Sigma.NodeInv

namespace Tecracoin.Sigma

open Data Sample CSigmaState List

variable {above rest : List CBlockIndex} {maxHeight : Int} {b : CBlockIndex}

variable {k : GroupKey} {chain : List CBlockIndex}

/-! ## What a coin set stands for -/

lemma coinSetOf_low {acc : CoinSet}
    (hpos : acc.numberOfCoins ≠ 0) (hlow : ∀ b ∈ chain, b.nHeight ≤ maxHeight) :
    (coinSetOf maxHeight k acc chain).blockHash = acc.blockHash ∧
      (coinSetOf maxHeight k acc chain).coins = acc.coins ++ coinsOf k chain := by
  induction chain generalizing acc with
  | nil => exact ⟨rfl, (append_nil _).symm⟩
  | cons b below ih =>
    have hb := hlow b (.head _)
    have hbelow : ∀ b' ∈ below, b'.nHeight ≤ maxHeight :=
      fun b' hb' => hlow b' (.tail _ hb')
    rw [coinSetOf_cons, coinsOf_cons]
    by_cases hcoins : b.coinsAt k = []
    · have hacc : acc.addBlock maxHeight k b = acc := by
        simp [CoinSet.addBlock, hcoins]
      rw [hacc, hcoins, nil_append]
      exact ih hpos hbelow
    · have hlen : (b.coinsAt k).length > 0 := length_pos_iff.mpr hcoins
      have hacc : acc.addBlock maxHeight k b = ⟨acc.numberOfCoins + (b.coinsAt k).length,
          acc.blockHash, acc.coins ++ b.coinsAt k⟩ := by
        rw [CoinSet.addBlock, if_pos ⟨hlen, hb⟩, if_neg hpos]
      have hpos' : (acc.addBlock maxHeight k b).numberOfCoins ≠ 0 := by
        rw [hacc]
        show acc.numberOfCoins + (b.coinsAt k).length ≠ 0
        omega
      obtain ⟨hhash, hlist⟩ := ih hpos' hbelow
      rw [hhash, hlist, hacc]
      exact ⟨rfl, append_assoc _ _ _⟩

/-- A coin set with coins: the hash names a block with coins of the group, and the coins are those
    of the group from that block down. -/
lemma coinSetOf_pos (hok : ChainOk chain)
    (hpos : 0 < (coinSetOf maxHeight k .empty chain).numberOfCoins) :
    ∃ above b rest, chain = above ++ b :: rest ∧ b.coinsAt k ≠ [] ∧
      (coinSetOf maxHeight k .empty chain).blockHash = some b.phashBlock ∧
      (coinSetOf maxHeight k .empty chain).coins = coinsOf k (b :: rest) := by
  induction chain with
  | nil => exact absurd hpos (Nat.lt_irrefl 0)
  | cons b below ih =>
    rw [coinSetOf_cons] at hpos ⊢
    by_cases hcounts : (b.coinsAt k).length > 0 ∧ b.nHeight ≤ maxHeight
    · -- the first block that counts
      have hacc : CoinSet.addBlock maxHeight k .empty b =
          ⟨0 + (b.coinsAt k).length, some b.phashBlock, b.coinsAt k⟩ := by
        rw [CoinSet.addBlock, if_pos hcounts]
        rfl
      have hlow : ∀ b' ∈ below, b'.nHeight ≤ maxHeight := by
        intro b' hb'
        have hlt := hok.tail.nHeight_lt hb'
        have hheight := hok.head.nHeight
        omega
      have hne : (CoinSet.addBlock maxHeight k .empty b).numberOfCoins ≠ 0 := by
        rw [hacc]
        show 0 + (b.coinsAt k).length ≠ 0
        omega
      obtain ⟨hhash, hlist⟩ := coinSetOf_low (k := k) hne hlow
      refine ⟨[], b, below, rfl, length_pos_iff.mp hcounts.1, ?_, ?_⟩
      · rw [hhash, hacc]
      · rw [hlist, hacc, coinsOf_cons]
    · have hacc : CoinSet.addBlock maxHeight k .empty b = .empty := by
        rw [CoinSet.addBlock, if_neg hcounts]
      rw [hacc] at hpos ⊢
      obtain ⟨above, b', rest, rfl, hcoins, hhash, hlist⟩ := ih hok.tail hpos
      exact ⟨b :: above, b', rest, rfl, hcoins, hhash, hlist⟩

/-! ## The walk of the verifier -/

lemma firstOf_append_of_alive (h : coinsOf k chain ≠ []) :
    firstOf k (above ++ chain) = firstOf k chain := by
  induction above with
  | nil => rfl
  | cons a above ih =>
    rw [cons_append, firstOf_cons_of_alive (coinsOf_append_ne_nil h), ih]

lemma accumulatorSuffix_append {first : Option BlockId} {hash : Uint256}
    (h : ∀ a ∈ above, some a.toBlockId ≠ first ∧ a.phashBlock ≠ hash) :
    accumulatorSuffix first hash (above ++ chain) = accumulatorSuffix first hash chain := by
  induction above with
  | nil => rfl
  | cons a above ih =>
    have ha := h a (.head _)
    rw [cons_append, accumulatorSuffix, if_neg (not_or.mpr ha)]
    exact ih (forall_mem_cons.mp h).2

/-- From any block above, the search for a block with coins of the group ends at that block. -/
lemma accumulatorSuffix_block (hok : ChainOk (above ++ b :: rest)) :
    accumulatorSuffix (firstOf k (b :: rest)) b.phashBlock (above ++ b :: rest) = b :: rest := by
  rw [accumulatorSuffix_append, accumulatorSuffix, if_pos (.inr rfl)]
  intro a ha
  refine ⟨fun hfirst => ?_, (hok.phashBlock_ne_of_append ha (.head _)).symm⟩
  -- the first block of the group is not above `b`
  obtain ⟨b', hb', hid, -⟩ := exists_of_firstOf hfirst.symm
  exact hok.phashBlock_ne_of_append ha hb' (congrArg BlockId.phashBlock hid)

/-- The anonymity set for a block with coins of the group. -/
lemma anonymitySet_block {st : CSigmaState} (hinv : GroupInv st (above ++ b :: rest))
    (hb : b.coinsAt k ≠ []) :
    ∃ group chain', st.getCoinGroupInfo k.1 k.2 = some group ∧
      anonymitySet k group b.phashBlock (above ++ b :: rest) =
        .ok (coinsOf k (b :: rest), chain') := by
  have halive : coinsOf k (b :: rest) ≠ [] := coinsOf_cons_ne_nil hb
  obtain ⟨group, hget, hagrees⟩ := hinv.alive k (coinsOf_append_ne_nil halive)
  obtain ⟨top, b1, rest1, chain', heq, hnone, hset, -⟩ :=
    anonymitySet_agrees hinv.ok hagrees
  refine ⟨group, chain', hget, ?_⟩
  -- the walk starts at or above `b`, because no block above its start has coins
  have hmid : ∃ mid, b1 :: rest1 = mid ++ b :: rest := by
    rcases append_eq_append_iff.mp heq with ⟨more, htop, hrest⟩ | ⟨mid, -, hrest⟩
    · cases more with
      | nil => exact ⟨[], by simpa using hrest.symm⟩
      | cons c more =>
        obtain ⟨rfl, -⟩ := List.cons.inj hrest
        rw [htop, coinsOf_append, append_eq_nil_iff, coinsOf_cons, append_eq_nil_iff] at hnone
        exact absurd hnone.2.1 hb
    · exact ⟨mid, hrest⟩
  obtain ⟨mid, hmid⟩ := hmid
  have hok : ChainOk (mid ++ b :: rest) := by
    rw [← hmid]
    have hok := hinv.ok
    rw [heq] at hok
    exact hok.of_append
  rw [hset, hmid, firstOf_append_of_alive halive, accumulatorSuffix_block hok]

/-! ## Along a run -/

variable {crypto : Crypto} {params : Params} {node node' : Node} {hash : Uint256}
  {coins : List PublicCoin}

/-- The chain has a block with the given hash and coins of the group, and from it down the coins of
    the group are the given ones. -/
structure HasSuffix (k : GroupKey) (hash : Uint256) (coins : List PublicCoin) (node : Node) :
    Prop where
  inv : GroupInv node.sigmaState node.chainActive
  split : ∃ above b rest, node.chainActive = above ++ b :: rest ∧ b.coinsAt k ≠ [] ∧
    b.phashBlock = hash ∧ coinsOf k (b :: rest) = coins

lemma HasSuffix.touches {chain' : List CBlockIndex} (h : HasSuffix k hash coins node)
    (ht : Touches node.chainActive chain') :
    ∃ above b rest, chain' = above ++ b :: rest ∧ b.coinsAt k ≠ [] ∧ b.phashBlock = hash ∧
      coinsOf k (b :: rest) = coins := by
  obtain ⟨above, b, rest, heq, hb, hhash, hcoins⟩ := h.split
  obtain ⟨above', b', rest', rfl, -, hb', hrest⟩ := (ht.same.at_key).split heq
  refine ⟨above', b', rest', rfl, by rw [hb'.coins]; exact hb, ?_, ?_⟩
  · rw [congrArg BlockId.phashBlock hb'.id, hhash]
  · rw [coinsOf_cons, hrest.coinsOf_eq, hb'.coins, ← coinsOf_cons, hcoins]

/-- Only disconnecting can take the suffix away. -/
lemma HasSuffix.step {op : Node.Op} (h : HasSuffix k hash coins node) (hop : op ≠ .disconnectTip)
    (hstep : Node.step crypto params op node = some node') : HasSuffix k hash coins node' := by
  refine ⟨step_groupInv h.inv hstep, ?_⟩
  cases step_cases h.inv hstep with
  | @connects _ _ _ _ _ index _ hconnects =>
    obtain ⟨above, b, rest, heq, hsuffix⟩ := h.touches hconnects.touches
    exact ⟨index :: above, b, rest, by rw [hconnects.chain, heq]; rfl, hsuffix⟩
  | disconnects => exact absurd rfl hop
  | touches htouches => exact h.touches htouches
  | restarts => exact h.split

/-- A coin set with coins gives a suffix of the chain. -/
lemma hasSuffix_of_coinSet {denomination : CoinDenomination} {id : Int}
    {set : CoinSet} (hinv : GroupInv node.sigmaState node.chainActive)
    (hset : node.sigmaState.getCoinSetForSpend node.chainActive maxHeight denomination id =
      .ok (set, chain)) (hpos : 0 < set.numberOfCoins) :
    ∃ hash, set.blockHash = some hash ∧ HasSuffix (denomination, id) hash set.coins node := by
  cases hget : node.sigmaState.coinGroups.get? (denomination, id) with
  | none =>
    rw [getCoinSetForSpend, hget] at hset
    rw [← (Prod.mk.inj (Except.ok.inj hset)).1] at hpos
    exact absurd hpos (Nat.lt_irrefl 0)
  | some group =>
    have hwalk := hset
    rw [getCoinSetForSpend, hget] at hwalk
    have hagrees := hinv.agrees_of_walk hget hwalk
    obtain ⟨chain', hok, -⟩ := getCoinSetForSpend_agrees hinv.ok hget hagrees
    rw [hok] at hset
    obtain ⟨rfl, -⟩ := Prod.mk.inj (Except.ok.inj hset)
    obtain ⟨above, b, rest, heq, hb, hhash, hcoins⟩ := coinSetOf_pos hinv.ok hpos
    exact ⟨b.phashBlock, hhash, hinv, above, b, rest, heq, hb, rfl, hcoins.symm⟩

/-- Prover and verifier use the same anonymity set: if `GetCoinSetForSpend` returns coins in a
    reachable state, then in that state, and in every state reached from it without disconnecting a
    block, the walk of `CheckSigmaSpendTransaction` for the returned block hash succeeds and builds
    exactly the returned list. -/
theorem coin_set_eq_anonymity_set {maxHeight : Int} {denomination : CoinDenomination} {id : Int}
    {set : CoinSet} {chain : List CBlockIndex}
    (hreachable : Node.Reachable crypto params node)
    (hset : node.sigmaState.getCoinSetForSpend node.chainActive maxHeight denomination id =
      .ok (set, chain)) (hpos : 0 < set.numberOfCoins) :
    ∃ hash, set.blockHash = some hash ∧
      ∀ node', Reaches (Node.step crypto params) (fun op _ => op ≠ .disconnectTip) node node' →
        ∃ group chain', node'.sigmaState.getCoinGroupInfo denomination id = some group ∧
          anonymitySet (denomination, id) group hash node'.chainActive =
            .ok (set.coins, chain') := by
  obtain ⟨hash, hhash, hsuffix⟩ := hasSuffix_of_coinSet (groupInv_of_reachable hreachable) hset hpos
  refine ⟨hash, hhash, fun node' hrun => ?_⟩
  have hsuffix' : HasSuffix (denomination, id) hash set.coins node' :=
    hrun.invariant hsuffix (fun _ _ _ h hop hstep => h.step hop hstep)
  have hinv := hsuffix'.inv
  obtain ⟨above, b, rest, heq, hb, rfl, hcoins⟩ := hsuffix'.split
  rw [heq] at hinv ⊢
  rw [← hcoins]
  exact anonymitySet_block hinv hb

/-- On the chain with one minted coin the wallet gets that coin. -/
theorem coin_set_eq_anonymity_set_minted :
    ∃ hash, (⟨1, some 1, [⟨7, .SIGMA_DENOM_1⟩]⟩ : CoinSet).blockHash = some hash ∧
      ∀ node', Reaches (Node.step toyCrypto .testnet) (fun op _ => op ≠ .disconnectTip)
          minted node' →
        ∃ group chain', node'.sigmaState.getCoinGroupInfo .SIGMA_DENOM_1 1 = some group ∧
          anonymitySet (.SIGMA_DENOM_1, 1) group hash node'.chainActive =
            .ok ([⟨7, .SIGMA_DENOM_1⟩], chain') := by
  have hset : minted.sigmaState.getCoinSetForSpend minted.chainActive 1
      .SIGMA_DENOM_1 1 =
        .ok (⟨1, some 1, [⟨7, .SIGMA_DENOM_1⟩]⟩, minted.chainActive) := by rfl
  exact coin_set_eq_anonymity_set minted_reachable hset (by decide)

end Tecracoin.Sigma
