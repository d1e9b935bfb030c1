/-
  What a chain of block indexes says about the coin groups, without the sigma
  state: the coins of a group, its first and last block, the highest block whose
  map has the key of the group, and the latest id of a denomination.

  `ChainOk` is the shape of every chain the node builds: per denomination the
  ids of the recorded groups go up by at most one from block to block, a new id
  comes with coins, and no block has two ids of one denomination.  Keys without
  coins, which reads create, are allowed as long as they name the group that is
  current at their block.
-/
import Tecracoin.Sigma.State

namespace Tecracoin.Sigma

open Data CBlockIndex StdMap List

variable {a b b' : CBlockIndex} {above below below' c chain : List CBlockIndex} {k : GroupKey}
  {d : CoinDenomination} {i : Int}

/-! ## Keys of one block -/

namespace CBlockIndex

/-- The keys of `sigmaMintedPubCoins`, in map order. -/
def keys (b : CBlockIndex) : List GroupKey := b.sigmaMintedPubCoins.keys

lemma contains_key_iff : b.sigmaMintedPubCoins.contains k = true ↔ k ∈ b.keys :=
  contains_iff

/-- The group id the map of a block has for a denomination; the last one in map order if there are
    several. -/
def idOf (b : CBlockIndex) (d : CoinDenomination) : Option Int :=
  (b.keys.reverse.find? (fun k => decide (k.1 = d))).map Prod.snd

lemma mem_keys_of_idOf (h : b.idOf d = some i) : (d, i) ∈ b.keys := by
  obtain ⟨k, hk, rfl⟩ := Option.map_eq_some_iff.mp h
  have hd := find?_some hk
  have hmem := mem_of_find?_eq_some hk
  rw [decide_eq_true_eq] at hd
  rw [← hd]
  exact mem_reverse.mp hmem

lemma idOf_eq_none_iff : b.idOf d = none ↔ ∀ i, (d, i) ∉ b.keys := by
  rw [idOf, Option.map_eq_none_iff, find?_eq_none]
  constructor
  · intro h i hmem
    exact h (d, i) (mem_reverse.mpr hmem) (decide_eq_true rfl)
  · intro h k hk hd
    rw [decide_eq_true_eq] at hd
    exact h k.2 (hd ▸ mem_reverse.mp hk)

lemma coinsAt_eq_nil_of_notMem (h : k ∉ b.keys) : b.coinsAt k = [] := by
  rw [coinsAt, get?_eq_none_iff.mpr h, Option.getD_none]

lemma mem_keys_of_coinsAt (h : b.coinsAt k ≠ []) : k ∈ b.keys := by
  by_contra hk
  exact h (coinsAt_eq_nil_of_notMem hk)

lemma mem_keys_touch {k' : GroupKey} : k' ∈ (b.touch k).keys ↔ k' = k ∨ k' ∈ b.keys :=
  mem_keys_insert

@[simp] lemma coinsAt_touch (b : CBlockIndex) (k k' : GroupKey) :
    (b.touch k).coinsAt k' = b.coinsAt k' :=
  getD_insert

end CBlockIndex

/-! ## Groups along a chain -/

/-- The coins of a group, from the tip down. -/
def coinsOf (k : GroupKey) (chain : List CBlockIndex) : List PublicCoin :=
  chain.flatMap (fun b => b.coinsAt k)

/-- The lowest block with coins of the group. -/
def firstOf (k : GroupKey) : List CBlockIndex → Option BlockId
  | [] => none
  | b :: below =>
    match firstOf k below with
    | some first => some first
    | none => if b.coinsAt k = [] then none else some b.toBlockId

/-- The highest block with coins of the group. -/
def lastOf (k : GroupKey) : List CBlockIndex → Option BlockId
  | [] => none
  | b :: below => if b.coinsAt k = [] then lastOf k below else some b.toBlockId

/-- The highest block whose map has the key of the group. -/
def topKeyOf (k : GroupKey) : List CBlockIndex → Option BlockId
  | [] => none
  | b :: below => if k ∈ b.keys then some b.toBlockId else topKeyOf k below

/-- The latest id recorded for a denomination. -/
def latestOf (d : CoinDenomination) : List CBlockIndex → Option Int
  | [] => none
  | b :: below =>
    match b.idOf d with
    | some i => some i
    | none => latestOf d below

@[simp] lemma coinsOf_nil : coinsOf k [] = [] := rfl

@[simp] lemma coinsOf_cons : coinsOf k (b :: below) = b.coinsAt k ++ coinsOf k below := rfl

lemma coinsOf_append : coinsOf k (above ++ chain) = coinsOf k above ++ coinsOf k chain :=
  flatMap_append

lemma coinsOf_cons_ne_nil (h : b.coinsAt k ≠ []) : coinsOf k (b :: below) ≠ [] :=
  append_ne_nil_of_left_ne_nil h _

lemma coinsOf_append_ne_nil (h : coinsOf k chain ≠ []) : coinsOf k (above ++ chain) ≠ [] :=
  coinsOf_append ▸ append_ne_nil_of_right_ne_nil _ h

lemma firstOf_eq_none_iff : firstOf k chain = none ↔ coinsOf k chain = [] := by
  induction chain with
  | nil => simp [firstOf]
  | cons b below ih =>
    rw [firstOf, coinsOf_cons, append_eq_nil_iff]
    cases hf : firstOf k below with
    | none =>
      rw [hf] at ih
      simp [ih.mp rfl]
    | some first =>
      rw [hf] at ih
      simp only [reduceCtorEq, false_iff] at ih ⊢
      exact fun h => ih h.2

lemma firstOf_cons_of_alive (h : coinsOf k below ≠ []) :
    firstOf k (b :: below) = firstOf k below := by
  rw [firstOf]
  cases hf : firstOf k below with
  | none => exact absurd (firstOf_eq_none_iff.mp hf) h
  | some first => rfl

lemma firstOf_cons_of_dead (h : coinsOf k below = []) (hb : b.coinsAt k ≠ []) :
    firstOf k (b :: below) = some b.toBlockId := by
  rw [firstOf, firstOf_eq_none_iff.mpr h, if_neg hb]

lemma firstOf_cons_of_no_coins (hb : b.coinsAt k = []) :
    firstOf k (b :: below) = firstOf k below := by
  rw [firstOf]
  cases firstOf k below with
  | none => simp [hb]
  | some first => rfl

lemma lastOf_cons_of_coins (hb : b.coinsAt k ≠ []) :
    lastOf k (b :: below) = some b.toBlockId := by
  rw [lastOf, if_neg hb]

lemma lastOf_cons_of_no_coins (hb : b.coinsAt k = []) :
    lastOf k (b :: below) = lastOf k below := by
  rw [lastOf, if_pos hb]

lemma latestOf_cons_of_idOf (h : b.idOf d = some i) : latestOf d (b :: below) = some i := by
  rw [latestOf, h]

lemma latestOf_cons_of_none (h : b.idOf d = none) :
    latestOf d (b :: below) = latestOf d below := by
  rw [latestOf, h]

/-! ## Well-formed chains -/

/-- The keys of a block fit the chain below it. -/
structure BlockOk (b : CBlockIndex) (below : List CBlockIndex) : Prop where
  nHeight : b.nHeight = below.length
  hash : ∀ b' ∈ below, b'.phashBlock ≠ b.phashBlock
  unique : ∀ d i j, (d, i) ∈ b.keys → (d, j) ∈ b.keys → i = j
  /-- The first id of a denomination is 1, or 2 if the first block had too many mints for one group.
      -/
  first : ∀ d i, (d, i) ∈ b.keys → latestOf d below = none →
    (i = 1 ∨ i = 2) ∧ b.coinsAt (d, i) ≠ []
  later : ∀ d i m, (d, i) ∈ b.keys → latestOf d below = some m →
    i = m ∨ (i = m + 1 ∧ b.coinsAt (d, i) ≠ [])

/-- Every block fits the chain below it. -/
def ChainOk : List CBlockIndex → Prop
  | [] => True
  | b :: below => ChainOk below ∧ BlockOk b below

namespace ChainOk

variable {m : Int}

lemma tail (h : ChainOk (b :: below)) : ChainOk below := h.1

lemma head (h : ChainOk (b :: below)) : BlockOk b below := h.2

lemma of_append (h : ChainOk (above ++ chain)) : ChainOk chain := by
  induction above with
  | nil => exact h
  | cons b above ih => exact ih h.tail

lemma drop (h : ChainOk chain) (n : Nat) : ChainOk (chain.drop n) := by
  rw [← take_append_drop n chain] at h
  exact h.of_append

/-- With unique ids per block, the key decides the id. -/
lemma idOf_of_mem (h : BlockOk b below) (hk : (d, i) ∈ b.keys) : b.idOf d = some i := by
  cases hid : b.idOf d with
  | none => exact absurd hk (idOf_eq_none_iff.mp hid i)
  | some j =>
    rw [h.unique d j i (mem_keys_of_idOf hid) hk]

lemma latestOf_of_mem (h : BlockOk b below) (hk : (d, i) ∈ b.keys) :
    latestOf d (b :: below) = some i :=
  latestOf_cons_of_idOf (idOf_of_mem h hk)

lemma latestOf_mono (h : ChainOk (b :: below)) (hm : latestOf d below = some m) :
    ∃ m', latestOf d (b :: below) = some m' ∧ m ≤ m' := by
  cases hid : b.idOf d with
  | none => exact ⟨m, (latestOf_cons_of_none hid).trans hm, Int.le_refl m⟩
  | some i =>
    refine ⟨i, latestOf_cons_of_idOf hid, ?_⟩
    rcases h.head.later d i m (mem_keys_of_idOf hid) hm with rfl | ⟨rfl, -⟩
    · exact Int.le_refl i
    · omega

/-- The latest group of a denomination has coins, and its id is positive. -/
lemma latest_spec (h : ChainOk chain) (hm : latestOf d chain = some m) :
    1 ≤ m ∧ coinsOf (d, m) chain ≠ [] := by
  induction chain generalizing m with
  | nil => cases hm
  | cons b below ih =>
    rw [coinsOf_cons, Ne, append_eq_nil_iff, not_and_or]
    cases hid : b.idOf d with
    | none =>
      rw [latestOf_cons_of_none hid] at hm
      exact ⟨(ih h.tail hm).1, .inr (ih h.tail hm).2⟩
    | some i =>
      rw [latestOf_cons_of_idOf hid, Option.some.injEq] at hm
      subst hm
      have hk := mem_keys_of_idOf hid
      cases hbelow : latestOf d below with
      | none =>
        obtain ⟨hi, hcoins⟩ := h.head.first d i hk hbelow
        exact ⟨by omega, .inl hcoins⟩
      | some m' =>
        obtain ⟨hone, halive⟩ := ih h.tail hbelow
        rcases h.head.later d i m' hk hbelow with rfl | ⟨rfl, hcoins⟩
        · exact ⟨hone, .inr halive⟩
        · exact ⟨by omega, .inl hcoins⟩

/-- Ids of groups with coins lie between 1 and the latest one. -/
lemma alive_le_latest (h : ChainOk chain) (hc : coinsOf (d, i) chain ≠ []) :
    ∃ m, latestOf d chain = some m ∧ 1 ≤ i ∧ i ≤ m := by
  induction chain with
  | nil => exact absurd rfl hc
  | cons b below ih =>
    by_cases hbelow : coinsOf (d, i) below = []
    · have hcoins : b.coinsAt (d, i) ≠ [] := by
        rw [coinsOf_cons, hbelow, append_nil] at hc
        exact hc
      have hk := mem_keys_of_coinsAt hcoins
      have hlatest := latestOf_of_mem h.head hk
      exact ⟨i, hlatest, (latest_spec h hlatest).1, Int.le_refl i⟩
    · obtain ⟨m, hm, hone, hle⟩ := ih h.tail hbelow
      obtain ⟨m', hm', hle'⟩ := latestOf_mono h hm
      exact ⟨m', hm', hone, Int.le_trans hle hle'⟩

lemma toBlockId_ne (h : ChainOk (b :: below)) (hmem : b' ∈ below) :
    b'.toBlockId ≠ b.toBlockId := by
  intro heq
  exact h.head.hash b' hmem (congrArg BlockId.phashBlock heq)

lemma nHeight_lt (hok : ChainOk chain) (hb : b ∈ chain) : b.nHeight < chain.length := by
  induction chain with
  | nil => cases hb
  | cons a below ih =>
    rw [length_cons, Int.natCast_add]
    rcases mem_cons.mp hb with rfl | hb
    · have hheight := hok.head.nHeight
      omega
    · have hheight := ih hok.tail hb
      omega

lemma phashBlock_ne_of_append (h : ChainOk (above ++ chain)) (ha : a ∈ above)
    (hb : b ∈ chain) : b.phashBlock ≠ a.phashBlock := by
  induction above with
  | nil => cases ha
  | cons a' above ih =>
    rcases mem_cons.mp ha with rfl | ha
    · exact h.head.hash b (mem_append_right _ hb)
    · exact ih h.tail ha

lemma toBlockId_ne_of_append (h : ChainOk (above ++ b :: below))
    (hmem : b' ∈ above) : b'.toBlockId ≠ b.toBlockId := by
  intro heq
  exact h.phashBlock_ne_of_append hmem (.head _) (congrArg BlockId.phashBlock heq).symm

end ChainOk

lemma exists_of_firstOf {first : BlockId} (h : firstOf k chain = some first) :
    ∃ b ∈ chain, b.toBlockId = first ∧ b.coinsAt k ≠ [] := by
  induction chain with
  | nil => cases h
  | cons b below ih =>
    by_cases hbelow : coinsOf k below = []
    · by_cases hb : b.coinsAt k = []
      · rw [firstOf_cons_of_no_coins hb, firstOf_eq_none_iff.mpr hbelow] at h
        cases h
      · rw [firstOf_cons_of_dead hbelow hb, Option.some.injEq] at h
        exact ⟨b, .head _, h, hb⟩
    · rw [firstOf_cons_of_alive hbelow] at h
      obtain ⟨b', hmem, heq, hcoins⟩ := ih h
      exact ⟨b', .tail _ hmem, heq, hcoins⟩

/-- The first block of a group is the head exactly when nothing below has coins of the group. -/
lemma firstOf_eq_head_iff (hok : ChainOk (b :: below)) (halive : coinsOf k (b :: below) ≠ []) :
    firstOf k (b :: below) = some b.toBlockId ↔ coinsOf k below = [] := by
  constructor
  · intro h
    by_contra hbelow
    rw [firstOf_cons_of_alive hbelow] at h
    obtain ⟨b', hmem, heq, -⟩ := exists_of_firstOf h
    exact hok.toBlockId_ne hmem heq
  · intro hbelow
    rw [coinsOf_cons, hbelow, append_nil] at halive
    exact firstOf_cons_of_dead hbelow halive

/-! ## Chains with the same coins -/

/-- The second block has the coins of the first under key `k`, and has the key if the first does. -/
structure SameBlockAt (k : GroupKey) (b b' : CBlockIndex) : Prop where
  id : b'.toBlockId = b.toBlockId
  coins : b'.coinsAt k = b.coinsAt k
  key : k ∈ b.keys → k ∈ b'.keys

/-- Block by block the same coins under key `k`. -/
abbrev SameCoinsAt (k : GroupKey) : List CBlockIndex → List CBlockIndex → Prop :=
  List.Forall₂ (SameBlockAt k)

namespace SameCoinsAt

variable {chain' : List CBlockIndex}

lemma refl (chain : List CBlockIndex) : SameCoinsAt k chain chain :=
  forall₂_same.mpr (fun _ _ => ⟨rfl, rfl, id⟩)

section
variable (h : SameCoinsAt k chain chain')
include h

lemma coinsOf_eq : coinsOf k chain' = coinsOf k chain := by
  induction h with
  | nil => rfl
  | cons hb _ ih => rw [coinsOf_cons, coinsOf_cons, ih, hb.coins]

lemma firstOf_eq : firstOf k chain' = firstOf k chain := by
  induction h with
  | nil => rfl
  | cons hb _ ih => rw [firstOf, firstOf, ih, hb.coins, hb.id]

lemma lastOf_eq : lastOf k chain' = lastOf k chain := by
  induction h with
  | nil => rfl
  | cons hb _ ih => rw [lastOf, lastOf, ih, hb.coins, hb.id]

/-- A position of the first chain is a position of the second. -/
lemma split {rest : List CBlockIndex} (heq : chain = above ++ b :: rest) :
    ∃ above' b' rest', chain' = above' ++ b' :: rest' ∧ SameCoinsAt k above above' ∧
      SameBlockAt k b b' ∧ SameCoinsAt k rest rest' := by
  subst heq
  induction above generalizing chain' with
  | nil =>
    cases h with
    | cons hb hrest => exact ⟨[], _, _, rfl, .nil, hb, hrest⟩
  | cons a above ih =>
    cases h with
    | cons ha h =>
      obtain ⟨above', b', rest', rfl, h1, h2, h3⟩ := ih h
      exact ⟨_ :: above', b', rest', rfl, .cons ha h1, h2, h3⟩

end

end SameCoinsAt

/-- The second block has the coins and serials of the first, and at least its keys. -/
structure SameBlock (b b' : CBlockIndex) : Prop where
  id : b'.toBlockId = b.toBlockId
  spent : b'.sigmaSpentSerials = b.sigmaSpentSerials
  coins : ∀ k, b'.coinsAt k = b.coinsAt k
  keys : ∀ k ∈ b.keys, k ∈ b'.keys

lemma SameBlock.refl (b : CBlockIndex) : SameBlock b b := ⟨rfl, rfl, fun _ => rfl, fun _ h => h⟩

lemma SameBlock.trans {c : CBlockIndex} (h1 : SameBlock a b) (h2 : SameBlock b c) :
    SameBlock a c :=
  ⟨h2.id.trans h1.id, h2.spent.trans h1.spent, fun k => (h2.coins k).trans (h1.coins k),
    fun k hk => h2.keys k (h1.keys k hk)⟩

lemma sameBlock_touch : SameBlock b (b.touch k) :=
  ⟨rfl, rfl, fun k' => b.coinsAt_touch k k', fun _ hk => mem_keys_touch.mpr (.inr hk)⟩

/-- Block by block the same coins and serials. -/
abbrev SameCoins : List CBlockIndex → List CBlockIndex → Prop := List.Forall₂ SameBlock

namespace SameCoins

variable {chain' : List CBlockIndex}

lemma refl (chain : List CBlockIndex) : SameCoins chain chain :=
  forall₂_same.mpr (fun b _ => SameBlock.refl b)

lemma trans {a b : List CBlockIndex} (h1 : SameCoins a b) (h2 : SameCoins b c) :
    SameCoins a c := by
  induction h1 generalizing c with
  | nil => exact h2
  | cons hb _ ih =>
    cases h2 with
    | cons hb' h2 => exact .cons (hb.trans hb') (ih h2)

lemma at_key (h : SameCoins chain chain') : SameCoinsAt k chain chain' :=
  h.imp (fun _ _ hb => ⟨hb.id, hb.coins k, hb.keys k⟩)

lemma exists_of_mem (h : SameCoins chain chain') (hmem : b' ∈ chain') :
    ∃ b ∈ chain, SameBlock b b' := by
  induction h with
  | nil => cases hmem
  | cons hb _ ih =>
    rcases mem_cons.mp hmem with rfl | hmem
    · exact ⟨_, .head _, hb⟩
    · obtain ⟨b, hb, hsame⟩ := ih hmem
      exact ⟨b, .tail _ hb, hsame⟩

end SameCoins

/-- A block fits any chain with the same blocks and latest ids below it. -/
lemma BlockOk.congr (h : BlockOk b below) (hsame : SameCoins below below')
    (hlatest : ∀ d, latestOf d below' = latestOf d below) : BlockOk b below' where
  nHeight := h.nHeight.trans (congrArg _ hsame.length_eq)
  hash b' hmem := by
    obtain ⟨b0, hmem0, hb⟩ := hsame.exists_of_mem hmem
    rw [congrArg BlockId.phashBlock hb.id]
    exact h.hash b0 hmem0
  unique := h.unique
  first d i hk hnone := h.first d i hk (hlatest d ▸ hnone)
  later d i m hk hm := h.later d i m hk (hlatest d ▸ hm)

/-! ## What reads do to a chain -/

/-- The second chain is the first one after reads: the same coins, keys only added, and added so
    that neither the latest ids nor the highest block of any key change. -/
structure Touches (chain chain' : List CBlockIndex) : Prop where
  same : SameCoins chain chain'
  latest : ∀ d, latestOf d chain' = latestOf d chain
  top : ∀ k, topKeyOf k chain' = topKeyOf k chain
  ok : ChainOk chain → ChainOk chain'

namespace Touches

lemma refl (chain : List CBlockIndex) : Touches chain chain :=
  ⟨SameCoins.refl chain, fun _ => rfl, fun _ => rfl, id⟩

lemma trans {a b : List CBlockIndex} (h1 : Touches a b) (h2 : Touches b c) : Touches a c :=
  ⟨h1.same.trans h2.same, fun d => (h2.latest d).trans (h1.latest d),
    fun k => (h2.top k).trans (h1.top k), fun h => h2.ok (h1.ok h)⟩

/-- Reads below a block: the block fits the chain as before. -/
lemma cons (h : Touches below below') : Touches (b :: below) (b :: below') where
  same := .cons (SameBlock.refl b) h.same
  latest d := by rw [latestOf, latestOf, h.latest d]
  top k := by rw [topKeyOf, topKeyOf, h.top k]
  ok hok := ⟨h.ok hok.tail, hok.head.congr h.same h.latest⟩

lemma append (above : List CBlockIndex)
    (h : Touches below below') : Touches (above ++ below) (above ++ below') := by
  induction above with
  | nil => exact h
  | cons b above ih => exact ih.cons

end Touches

end Tecracoin.Sigma
