/-
  The two walks over the chain, the anonymity set of `CheckSigmaSpendTransaction`
  and `GetCoinSetForSpend`: on a well-formed chain, for a group whose bounds
  agree with the chain, both run to their end, and what they return is read off
  the chain alone.

  A walk goes down from the last block of the group to its first.  Everything it
  passes lies where the group is the current one of its denomination, so the
  empty keys it leaves behind do not change the shape of the chain.
-/
import Tecracoin.Sigma.Chain
import Tecracoin.Sigma.Check

namespace Tecracoin.Sigma

open Data CBlockIndex CSigmaState List

variable {above chain chain' rest : List CBlockIndex} {k : GroupKey} {b : CBlockIndex}
  {group : SigmaCoinGroupInfo}

/-! ## Touching one group -/

/-- As `Touches`, except that the highest block with the key `k` may change. -/
structure Grown (k : GroupKey) (chain chain' : List CBlockIndex) : Prop where
  same : SameCoins chain chain'
  latest : ∀ d, latestOf d chain' = latestOf d chain
  top : ∀ k' ≠ k, topKeyOf k' chain' = topKeyOf k' chain
  ok : ChainOk chain'

namespace Grown

variable {below below' : List CBlockIndex}

lemma refl (hok : ChainOk below) : Grown k below below :=
  ⟨SameCoins.refl below, fun _ => rfl, fun _ _ => rfl, hok⟩

section

variable (h : Grown k below below') (hok : ChainOk (b :: below))
include h hok

/-- The keys of a block still fit after those of the current group were added below it and to it. -/
lemma blockOk_touch
    (hcur : latestOf k.1 (b :: below) = some k.2) : BlockOk (b.touch k) below' := by
  have hb := hok.head.congr h.same h.latest
  -- a key `(d, i)` of the touched block with `d = k.1` is `k` itself
  have hold : ∀ d i, (d, i) ∈ (b.touch k).keys → (d, i) ∈ b.keys ∨
      ((d, i) = k ∧ b.idOf d = none ∧ latestOf d below' = some i) := by
    intro d i hmem
    rcases mem_keys_touch.mp hmem with hk | hmem
    · subst hk
      cases hid : b.idOf d with
      | some j =>
        rw [latestOf_cons_of_idOf hid, Option.some.injEq] at hcur
        subst hcur
        exact .inl (mem_keys_of_idOf hid)
      | none =>
        rw [latestOf_cons_of_none hid, ← h.latest] at hcur
        exact .inr ⟨rfl, rfl, hcur⟩
    · exact .inl hmem
  refine ⟨hb.nHeight, hb.hash, ?_, ?_, ?_⟩
  · intro d i j hi hj
    rcases hold d i hi with hi | ⟨hki, hnone, -⟩ <;> rcases hold d j hj with hj | ⟨hkj, hnone', -⟩
    · exact hb.unique d i j hi hj
    · exact absurd hi (idOf_eq_none_iff.mp hnone' i)
    · exact absurd hj (idOf_eq_none_iff.mp hnone j)
    · exact congrArg Prod.snd (hki.trans hkj.symm)
  · intro d i hk hnone
    rw [coinsAt_touch]
    rcases hold d i hk with hk | ⟨-, -, hsome⟩
    · exact hb.first d i hk hnone
    · rw [hnone] at hsome
      cases hsome
  · intro d i m hk hm
    rw [coinsAt_touch]
    rcases hold d i hk with hk | ⟨-, -, hsome⟩
    · exact hb.later d i m hk hm
    · rw [hm, Option.some.injEq] at hsome
      exact .inl hsome.symm

lemma touch (hcur : latestOf k.1 (b :: below) = some k.2) :
    Grown k (b :: below) (b.touch k :: below') where
  same := .cons sameBlock_touch h.same
  latest d := by
    have hblock := h.blockOk_touch hok hcur
    by_cases hd : d = k.1
    · subst hd
      rw [hcur]
      exact ChainOk.latestOf_of_mem hblock (mem_keys_touch.mpr (.inl rfl))
    · cases hid : b.idOf d with
      | some i =>
        rw [latestOf_cons_of_idOf hid]
        exact ChainOk.latestOf_of_mem hblock (mem_keys_touch.mpr (.inr (mem_keys_of_idOf hid)))
      | none =>
        have hnone : (b.touch k).idOf d = none := by
          rw [idOf_eq_none_iff]
          intro i hmem
          rcases mem_keys_touch.mp hmem with hk | hmem
          · exact hd (congrArg Prod.fst hk)
          · exact idOf_eq_none_iff.mp hid i hmem
        rw [latestOf_cons_of_none hid, latestOf_cons_of_none hnone, h.latest d]
  top k' hk' := by
    have hiff : k' ∈ (b.touch k).keys ↔ k' ∈ b.keys := by
      rw [mem_keys_touch]
      exact ⟨fun hor => hor.resolve_left hk', .inr⟩
    rw [topKeyOf, topKeyOf, h.top k' hk']
    simp only [hiff]
    rfl
  ok := ⟨h.ok, h.blockOk_touch hok hcur⟩

/-- A block above the touched ones keeps fitting. -/
lemma cons : Grown k (b :: below) (b :: below') where
  same := .cons (SameBlock.refl b) h.same
  latest d := by rw [latestOf, latestOf, h.latest d]
  top k' hk' := by rw [topKeyOf, topKeyOf, h.top k' hk']
  ok := ⟨h.ok, hok.head.congr h.same h.latest⟩

end

/-- A block that has the key hides what happens to the key below it. -/
lemma touches (h : Grown k (b :: below) chain')
    (hk : k ∈ b.keys) : Touches (b :: below) chain' where
  same := h.same
  latest := h.latest
  ok _ := h.ok
  top k' := by
    by_cases hk' : k' = k
    · subst hk'
      cases h.same with
      | cons hb _ => rw [topKeyOf, topKeyOf, if_pos hk, if_pos (hb.keys k' hk), hb.id]
    · exact h.top k' hk'

end Grown

/-! ## The current group, on the way down -/

/-- Where a walk for group `k` is: the chain below has coins of the group, and the group is the
    current one of its denomination. -/
structure Current (k : GroupKey) (chain : List CBlockIndex) : Prop where
  ok : ChainOk chain
  alive : coinsOf k chain ≠ []
  latest : latestOf k.1 chain = some k.2

namespace Current

variable {below : List CBlockIndex}

/-- Above the first block of the group, the next block down is still on the way. -/
lemma down (h : Current k (b :: below)) (hne : some b.toBlockId ≠ firstOf k (b :: below)) :
    Current k below ∧ firstOf k below = firstOf k (b :: below) := by
  have hbelow : coinsOf k below ≠ [] := by
    intro hnil
    exact hne ((firstOf_eq_head_iff h.ok h.alive).mpr hnil).symm
  obtain ⟨m, hm, -, hle⟩ := h.ok.tail.alive_le_latest hbelow
  obtain ⟨m', hm', hle'⟩ := h.ok.latestOf_mono hm
  rw [h.latest, Option.some.injEq] at hm'
  have heq : m = k.2 := by omega
  refine ⟨⟨h.ok.tail, hbelow, ?_⟩, (firstOf_cons_of_alive hbelow).symm⟩
  rw [hm, heq]

/-- At the first block of the group nothing is left below. -/
lemma bottom (h : Current k (b :: below)) (heq : some b.toBlockId = firstOf k (b :: below)) :
    coinsOf k below = [] :=
  (firstOf_eq_head_iff h.ok h.alive).mp heq.symm

end Current

/-! ## The anonymity set -/

/-- Collecting from a block of the group down to the first one takes all coins of the group from
    that block on. -/
lemma collectCoins_current (h : Current k chain) :
    ∃ chain', collectCoins k (firstOf k chain) chain = .ok (coinsOf k chain, chain') ∧
      Grown k chain chain' := by
  induction chain with
  | nil => exact absurd rfl h.alive
  | cons b below ih =>
    by_cases hfirst : some b.toBlockId = firstOf k (b :: below)
    · refine ⟨b.touch k :: below, ?_, (Grown.refl h.ok.tail).touch h.ok h.latest⟩
      rw [collectCoins, if_pos hfirst, coinsOf_cons, h.bottom hfirst, append_nil]
    · obtain ⟨hbelow, heq⟩ := h.down hfirst
      obtain ⟨below', hcollect, hgrown⟩ := ih hbelow
      refine ⟨b.touch k :: below', ?_, hgrown.touch h.ok h.latest⟩
      rw [collectCoins, if_neg hfirst, ← heq, hcollect, coinsOf_cons]

/-- The part of the chain from the block with the given hash on, or from the first block of the
    group if that comes earlier. -/
def accumulatorSuffix (firstBlock : Option BlockId) (hash : Uint256) :
    List CBlockIndex → List CBlockIndex
  | [] => []
  | b :: below =>
    if some b.toBlockId = firstBlock ∨ b.phashBlock = hash then b :: below
    else accumulatorSuffix firstBlock hash below

lemma seekAccumulator_current (hash : Uint256) (h : Current k chain) :
    ∃ chain', seekAccumulator (firstOf k chain) hash (collectCoins k (firstOf k chain)) chain =
        .ok (coinsOf k (accumulatorSuffix (firstOf k chain) hash chain), chain') ∧
      Grown k chain chain' := by
  induction chain with
  | nil => exact absurd rfl h.alive
  | cons b below ih =>
    by_cases hstop : some b.toBlockId = firstOf k (b :: below) ∨ b.phashBlock = hash
    · obtain ⟨chain', hcollect, hgrown⟩ := collectCoins_current h
      refine ⟨chain', ?_, hgrown⟩
      rw [seekAccumulator, accumulatorSuffix, if_pos hstop, if_pos hstop, hcollect]
    · obtain ⟨hbelow, heq⟩ := h.down (fun hf => hstop (.inl hf))
      obtain ⟨below', hseek, hgrown⟩ := ih hbelow
      refine ⟨b :: below', ?_, hgrown.cons h.ok⟩
      rw [seekAccumulator, accumulatorSuffix, if_neg hstop, if_neg hstop, ← heq, hseek]

/-! ## Groups that agree with the chain -/

/-- The bounds and the count of a group agree with the chain: the last block has the key and no
    block above it has coins. -/
structure GroupAgrees (k : GroupKey) (chain : List CBlockIndex) (group : SigmaCoinGroupInfo) :
    Prop where
  alive : coinsOf k chain ≠ []
  nCoins : group.nCoins = (coinsOf k chain).length
  firstBlock : group.firstBlock = firstOf k chain
  lastBlock : ∃ above b rest, chain = above ++ b :: rest ∧
    group.lastBlock = some b.toBlockId ∧ k ∈ b.keys ∧ coinsOf k above = []

lemma GroupAgrees.congr (h : GroupAgrees k chain group)
    (hsame : SameCoinsAt k chain chain') : GroupAgrees k chain' group := by
  refine ⟨by rw [hsame.coinsOf_eq]; exact h.alive, by rw [hsame.coinsOf_eq]; exact h.nCoins,
    by rw [hsame.firstOf_eq]; exact h.firstBlock, ?_⟩
  obtain ⟨above, b, rest, heq, hlast, hk, hnone⟩ := h.lastBlock
  obtain ⟨above', b', rest', rfl, hab, hb, -⟩ := hsame.split heq
  exact ⟨above', b', rest', rfl, by rw [hlast, hb.id], hb.key hk,
    by rw [hab.coinsOf_eq]; exact hnone⟩

lemma firstOf_split (h : coinsOf k above = []) :
    firstOf k (above ++ chain) = firstOf k chain := by
  induction above with
  | nil => rfl
  | cons b above ih =>
    rw [coinsOf_cons, append_eq_nil_iff] at h
    rw [cons_append, firstOf_cons_of_no_coins h.1, ih h.2]

/-- The last block of an agreeing group is a place to walk from. -/
lemma GroupAgrees.current
    (hok : ChainOk (above ++ b :: rest)) (halive : coinsOf k (above ++ b :: rest) ≠ [])
    (hk : k ∈ b.keys) (hnone : coinsOf k above = []) : Current k (b :: rest) := by
  have hok' := hok.of_append
  refine ⟨hok', ?_, ?_⟩
  · rw [coinsOf_append, hnone, nil_append] at halive
    exact halive
  · exact ChainOk.latestOf_of_mem hok'.head hk

/-- A walk from a block of the chain leaves the blocks above it alone. -/
lemma walkFrom_append {α : Type} {walk : ChainWalk α}
    {a : α} (hne : ∀ b' ∈ above, b'.toBlockId ≠ b.toBlockId)
    (h : walk (b :: rest) = .ok (a, chain')) :
    walkFrom (some b.toBlockId) walk (above ++ b :: rest) = .ok (a, above ++ chain') := by
  induction above with
  | nil => rw [nil_append, walkFrom, if_pos rfl, h, nil_append]
  | cons b' above ih =>
    have hb' : some b.toBlockId ≠ some b'.toBlockId := by
      rw [Ne, Option.some.injEq]
      exact fun heq => hne b' (.head _) heq.symm
    rw [cons_append, walkFrom, if_neg hb', ih (forall_mem_cons.mp hne).2, cons_append]

/-- An agreeing group cuts the chain at its last block. -/
lemma GroupAgrees.split (hok : ChainOk chain) (h : GroupAgrees k chain group) :
    ∃ above b rest, chain = above ++ b :: rest ∧ group.lastBlock = some b.toBlockId ∧
      group.firstBlock = firstOf k (b :: rest) ∧ k ∈ b.keys ∧ coinsOf k above = [] ∧
      Current k (b :: rest) := by
  obtain ⟨above, b, rest, rfl, hlast, hk, hnone⟩ := h.lastBlock
  exact ⟨above, b, rest, rfl, hlast, h.firstBlock.trans (firstOf_split hnone), hk, hnone,
    GroupAgrees.current hok h.alive hk hnone⟩

/-- The walk of the verifier on an agreeing group: it succeeds, and returns the coins of the group
    from the accumulator block on. -/
lemma anonymitySet_agrees (hok : ChainOk chain) (h : GroupAgrees k chain group) {hash : Uint256} :
    ∃ above b rest chain', chain = above ++ b :: rest ∧ coinsOf k above = [] ∧
      anonymitySet k group hash chain =
        .ok (coinsOf k (accumulatorSuffix (firstOf k chain) hash (b :: rest)), chain') ∧
      Touches chain chain' := by
  obtain ⟨above, b, rest, rfl, hlast, hfirst, hk, hnone, hcur⟩ := h.split hok
  obtain ⟨chain', hseek, hgrown⟩ := seekAccumulator_current hash hcur
  refine ⟨above, b, rest, above ++ chain', rfl, hnone, ?_, (hgrown.touches hk).append above⟩
  rw [anonymitySet, hlast, hfirst, firstOf_split hnone]
  exact walkFrom_append (fun b' hmem => hok.toBlockId_ne_of_append hmem) hseek

/-! ## The coin set -/

section CoinSet

variable {maxHeight : Int} {acc : CoinSet}

/-- What `GetCoinSetForSpend` computes, read off the chain. -/
def coinSetOf (maxHeight : Int) (k : GroupKey) (acc : CoinSet)
    (chain : List CBlockIndex) : CoinSet :=
  chain.foldl (CoinSet.addBlock maxHeight k) acc

lemma coinSetOf_cons {below : List CBlockIndex} :
    coinSetOf maxHeight k acc (b :: below) =
      coinSetOf maxHeight k (acc.addBlock maxHeight k b) below := rfl

/-- Blocks without coins of the group do not count. -/
lemma coinSetOf_no_coins (h : coinsOf k chain = []) : coinSetOf maxHeight k acc chain = acc := by
  induction chain with
  | nil => rfl
  | cons b below ih =>
    rw [coinsOf_cons, append_eq_nil_iff] at h
    have hb : acc.addBlock maxHeight k b = acc := by
      simp [CoinSet.addBlock, h.1]
    rw [coinSetOf_cons, hb, ih h.2]

lemma coinSetLoop_current (maxHeight : Int) (acc : CoinSet) (h : Current k chain) :
    ∃ chain', coinSetLoop maxHeight k (firstOf k chain) acc chain =
        .ok (coinSetOf maxHeight k acc chain, chain') ∧ Grown k chain chain' := by
  induction chain generalizing acc with
  | nil => exact absurd rfl h.alive
  | cons b below ih =>
    by_cases hfirst : some b.toBlockId = firstOf k (b :: below)
    · refine ⟨b.touch k :: below, ?_, (Grown.refl h.ok.tail).touch h.ok h.latest⟩
      rw [coinSetLoop, if_pos hfirst, coinSetOf_cons, coinSetOf_no_coins (h.bottom hfirst)]
    · obtain ⟨hbelow, heq⟩ := h.down hfirst
      obtain ⟨below', hloop, hgrown⟩ := ih (acc.addBlock maxHeight k b) hbelow
      refine ⟨b.touch k :: below', ?_, hgrown.touch h.ok h.latest⟩
      rw [coinSetLoop, if_neg hfirst, ← heq, hloop, coinSetOf_cons]

/-- `GetCoinSetForSpend` on an agreeing group: it succeeds, and what it returns only depends on the
    chain. -/
lemma getCoinSetForSpend_agrees {st : CSigmaState} (hok : ChainOk chain)
    (hgroup : st.coinGroups.get? k = some group) (h : GroupAgrees k chain group) :
    ∃ chain', st.getCoinSetForSpend chain maxHeight k.1 k.2 =
        .ok (coinSetOf maxHeight k .empty chain, chain') ∧ Touches chain chain' := by
  obtain ⟨above, b, rest, rfl, hlast, hfirst, hk, hnone, hcur⟩ := h.split hok
  obtain ⟨chain', hloop, hgrown⟩ := coinSetLoop_current maxHeight .empty hcur
  refine ⟨above ++ chain', ?_, (hgrown.touches hk).append above⟩
  have hset : coinSetOf maxHeight k .empty (above ++ b :: rest) =
      coinSetOf maxHeight k .empty (b :: rest) := by
    rw [coinSetOf, foldl_append]
    exact congrArg (fun acc => coinSetOf maxHeight k acc (b :: rest)) (coinSetOf_no_coins hnone)
  rw [getCoinSetForSpend, hgroup, hset]
  show walkFrom group.lastBlock
    (coinSetLoop maxHeight k group.firstBlock .empty) (above ++ b :: rest) = _
  rw [hlast, hfirst]
  exact walkFrom_append (fun b' hmem => hok.toBlockId_ne_of_append hmem) hloop

end CoinSet

end Tecracoin.Sigma
