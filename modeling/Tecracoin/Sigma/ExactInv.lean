/-
  The stronger invariant that holds as long as no block opens a second group
  while the first one is empty: the state has entries for exactly the groups with
  coins and the denominations with coins, and the ids of a denomination run from
  1 without a gap.

  Only one step can break it.  If a block brings more mints of a denomination
  than a group may hold, and the current group has no coins, then the current
  group is skipped and its entry stays behind empty.
-/
import Tecracoin.Sigma.Rebuild

namespace Tecracoin.Sigma

open Data

variable {st st' : CSigmaState} {b index index' tip tip' : CBlockIndex}
  {chain chain' below : List CBlockIndex} {k : GroupKey} {d : CoinDenomination} {id : Int}
  {mints : List PublicCoin}

/-! ## Ids without gaps -/

/-- Below every group with coins, down to id 1, all groups of the denomination have coins. -/
def NoGap (chain : List CBlockIndex) : Prop :=
  ∀ d i j, coinsOf (d, i) chain ≠ [] → 1 ≤ j → j ≤ i → coinsOf (d, j) chain ≠ []

/-- `NoGap` at every height. -/
def Contiguous : List CBlockIndex → Prop
  | [] => True
  | b :: below => Contiguous below ∧ NoGap (b :: below)

lemma Contiguous.noGap (h : Contiguous chain) : NoGap chain := by
  cases chain with
  | nil => exact fun _ _ _ hne => absurd rfl hne
  | cons b below => exact h.2

lemma Contiguous.of_sameCoins (h : Contiguous chain) (hs : SameCoins chain chain') :
    Contiguous chain' := by
  induction hs with
  | nil => trivial
  | cons hb hs ih =>
    refine ⟨ih h.1, fun d i j halive hone hle => ?_⟩
    rw [((SameCoins.at_key (.cons hb hs)).coinsOf_eq)] at halive ⊢
    exact h.2 d i j halive hone hle

lemma Contiguous.drop (h : Contiguous chain) (n : Nat) : Contiguous (chain.drop n) := by
  induction n generalizing chain with
  | zero => exact h
  | succ n ih =>
    cases chain with
    | nil => exact h
    | cons b below => exact ih h.1

/-! ## The invariant -/

structure ExactInv (st : CSigmaState) (chain : List CBlockIndex) : Prop where
  inv : GroupInv st chain
  contiguous : Contiguous chain
  dead : ∀ k, coinsOf k chain = [] → st.coinGroups.get? k = none
  latestNone : ∀ d, latestOf d chain = none → st.latestCoinIds.get? d = none

namespace ExactInv

lemma reset : ExactInv .reset [] := ⟨GroupInv.reset, trivial, fun _ _ => rfl, fun _ _ => rfl⟩

lemma congr_state (h : ExactInv st chain) (hg : st'.coinGroups = st.coinGroups)
    (hl : st'.latestCoinIds = st.latestCoinIds) : ExactInv st' chain :=
  ⟨h.inv.congr_state hg hl, h.contiguous, by rw [hg]; exact h.dead, by rw [hl]; exact h.latestNone⟩

lemma touches (h : ExactInv st chain) (ht : Touches chain chain') : ExactInv st chain' where
  inv := h.inv.touches ht
  contiguous := h.contiguous.of_sameCoins ht.same
  dead k hk := by
    rw [(ht.same.at_key).coinsOf_eq] at hk
    exact h.dead k hk
  latestNone d hd := by
    rw [ht.latest d] at hd
    exact h.latestNone d hd

lemma rebuilt (hok : ChainOk chain) (hc : Contiguous chain) :
    ExactInv (CSigmaState.reset.buildSigmaStateFromIndex chain) chain where
  inv := GroupInv.rebuilt hok
  contiguous := hc
  dead k hk := by rw [rebuilt_group, groupOf, if_pos hk]
  latestNone d hd := by rw [rebuilt_latest, hd]

lemma cons_bare (h : ExactInv st chain) (hinv : GroupInv st (b :: chain)) (hb : b.keys = []) :
    ExactInv st (b :: chain) where
  inv := hinv
  contiguous := by
    refine ⟨h.contiguous, fun d i j halive hone hle => ?_⟩
    rw [coinsOf_cons_bare hb] at halive ⊢
    exact h.contiguous.noGap d i j halive hone hle
  dead k hk := by
    rw [coinsOf_cons_bare hb] at hk
    exact h.dead k hk
  latestNone d hd := by
    rw [latestOf_cons_bare hb] at hd
    exact h.latestNone d hd

lemma of_cons_bare (h : ExactInv st (b :: chain)) (hb : b.keys = []) : ExactInv st chain where
  inv := h.inv.of_cons_bare hb
  contiguous := h.contiguous.1
  dead k hk := by
    rw [← coinsOf_cons_bare hb] at hk
    exact h.dead k hk
  latestNone d hd := by
    rw [← latestOf_cons_bare hb] at hd
    exact h.latestNone d hd

end ExactInv

/-! ## Adding mints -/

/-- The current group of a denomination is empty exactly when the chain has no coins of the
    denomination. -/
lemma current_empty_iff (h : GroupInv st chain) :
    (st.groupAt (d, st.currentGroupId d)).nCoins = 0 ↔ latestOf d chain = none := by
  rw [groupAt_nCoins h, List.length_eq_zero_iff]
  constructor
  · intro hempty
    refine Option.eq_none_iff_forall_ne_some.mpr (fun m hlatest => ?_)
    rw [currentGroupId_of_latest h hlatest] at hempty
    exact absurd hempty (h.ok.latest_spec hlatest).2
  · exact fun hnone => coinsOf_of_latest_none h.ok hnone _

/-- A new group is opened only when the current one has coins. -/
lemma KeyAdded.current_alive (h : GroupInv st (index :: chain))
    (ha : KeyAdded d mints st index id st' index') (hnone : index.idOf d = none)
    (hroom : latestOf d chain = none → mints.length ≤ ZC_SPEND_V3_COINSPERID_LIMIT)
    (hid : id ≠ st.currentGroupId d) : coinsOf (d, st.currentGroupId d) (index :: chain) ≠ [] := by
  obtain ⟨st1, hassigned, -⟩ := ha.assigned
  intro hempty
  have hzero : (st.groupAt (d, st.currentGroupId d)).nCoins = 0 := by
    rw [groupAt_nCoins h, hempty]
    rfl
  have hlatest := (current_empty_iff h).mp hzero
  rw [latestOf_cons_of_none hnone] at hlatest
  have hfits := hroom hlatest
  rcases hassigned.id with ⟨heq, -⟩ | ⟨-, hfull⟩
  · exact hid heq
  · rw [hzero] at hfull
    omega

lemma AddsCoins.coinsOf_mono (ha : AddsCoins k mints index index') {k' : GroupKey}
    (h : coinsOf k' (index :: chain) ≠ []) : coinsOf k' (index' :: chain) ≠ [] := by
  by_cases hk : k' = k
  · subst hk
    rw [coinsOf_cons, Ne, List.append_eq_nil_iff] at h ⊢
    rw [ha.coins, List.append_eq_nil_iff]
    exact fun hnil => h ⟨hnil.1.1, hnil.2⟩
  · rw [coinsOf_cons, ha.other k' hk, ← coinsOf_cons]
    exact h

lemma ExactInv.keyAdded (h : ExactInv st (index :: chain)) (hnone : index.idOf d = none)
    (ha : KeyAdded d mints st index id st' index')
    (hroom : latestOf d chain = none → mints.length ≤ ZC_SPEND_V3_COINSPERID_LIMIT) :
    ExactInv st' (index' :: chain) := by
  have hcurrent := ha.current_alive h.inv hnone hroom
  have hinv' := h.inv.keyAdded hnone ha
  obtain ⟨st1, hassigned, rfl⟩ := ha.assigned
  have hself : coinsOf (d, id) (index' :: chain) ≠ [] :=
    coinsOf_cons_ne_nil (ha.adds.coins ▸ List.append_ne_nil_of_right_ne_nil _ ha.ne_nil)
  -- every id below the new one has coins
  have hbelow : ∀ j, 1 ≤ j → j < id → coinsOf (d, j) (index :: chain) ≠ [] := by
    intro j hone hlt
    by_cases hid : id = st.currentGroupId d
    · -- the current group has coins, or it is the first one
      cases hlatest : latestOf d (index :: chain) with
      | none =>
        have hcur := currentGroupId_of_none h.inv hlatest
        omega
      | some m =>
        have hcur := currentGroupId_of_latest h.inv hlatest
        exact h.contiguous.noGap d m j (h.inv.ok.latest_spec hlatest).2 hone (by omega)
    · have hsucc : id = st.currentGroupId d + 1 := by
        rcases hassigned.id with ⟨heq, -⟩ | ⟨heq, -⟩
        · exact absurd heq hid
        · exact heq
      exact h.contiguous.noGap d _ j (hcurrent hid) hone (by omega)
  refine ⟨hinv', ⟨h.contiguous.1, ?_⟩, ?_, ?_⟩
  · intro d' i j halive hone hle
    by_cases hk : (d', i) = (d, id)
    · obtain ⟨rfl, rfl⟩ := Prod.mk.inj hk
      by_cases hj : j = i
      · rw [hj]
        exact hself
      · exact ha.adds.coinsOf_mono (hbelow j hone (by omega))
    · have halive' : coinsOf (d', i) (index :: chain) ≠ [] := by
        rw [coinsOf_cons, ← ha.adds.other _ hk, ← coinsOf_cons]
        exact halive
      exact ha.adds.coinsOf_mono (h.contiguous.noGap d' i j halive' hone hle)
  · intro k hdead
    have hk : k ≠ (d, id) := by
      rintro rfl
      exact hself hdead
    have hdead' : coinsOf k (index :: chain) = [] := by
      by_contra hne
      exact ha.adds.coinsOf_mono hne hdead
    have hcur : k ≠ (d, st.currentGroupId d) := by
      rintro rfl
      exact hcurrent (fun heq => hk (by rw [heq])) hdead'
    exact (hassigned.other k hk hcur).trans (h.dead k hdead')
  · intro d' hlatest
    have hd' : d' ≠ d := by
      rintro rfl
      exact hself (coinsOf_of_latest_none hinv'.ok hlatest id)
    rw [latestOf, ha.adds.idOf_other hinv'.ok.head hd'] at hlatest
    exact (hassigned.latestOther d' hd').trans (h.latestNone d' hlatest)

lemma length_mintsFor_le_limit (hmints : mints.length ≤ 2) :
    (mintsFor d mints).length ≤ ZC_SPEND_V3_COINSPERID_LIMIT :=
  (List.length_filter_le _ _).trans (hmints.trans (by decide))

/-- `AddMintsToStateAndBlockIndex` keeps the invariant if the first mints of a denomination fit into
    one group. -/
lemma ExactInv.addMints (h : ExactInv st (index :: chain))
    (hbare : index.keys = []) (hroom : ∀ d, latestOf d chain = none →
      (mintsFor d mints).length ≤ ZC_SPEND_V3_COINSPERID_LIMIT)
    (hok : st.addMintsToStateAndBlockIndex index mints = .ok (st', index')) :
    ExactInv st' (index' :: chain) :=
  addMints_rule (P := fun st index => ExactInv st (index :: chain))
    (fun d _ _ _ _ _ hinv hnone ha => hinv.keyAdded hnone ha (hroom d)) hbare h hok

/-! ## Removing a block -/

lemma ExactInv.removeKey (h : ExactInv st (tip :: below)) (hk : k ∈ tip.keys)
    (hr : RemovesKey k tip tip') (hrem : KeyRemoved st k below st') :
    ExactInv st' (tip' :: below) := by
  have hblock := h.inv.ok.head
  have hinv' := h.inv.removeKey hk hr hrem
  -- the tip has no other key of the denomination
  have hgone : ∀ i, coinsOf (k.1, i) (tip' :: below) = coinsOf (k.1, i) below := by
    intro i
    rw [coinsOf_cons, CBlockIndex.coinsAt_eq_nil_of_notMem, List.nil_append]
    intro hi
    obtain ⟨hne, hmem⟩ := hr.mem_keys hi
    exact hne (Prod.ext rfl (hblock.unique k.1 i k.2 hmem hk))
  have hother : ∀ d ≠ k.1, ∀ i, coinsOf (d, i) (tip' :: below) = coinsOf (d, i) (tip :: below) := by
    intro d hd i
    have hne : (d, i) ≠ k := by
      rintro rfl
      exact hd rfl
    exact (hr.sameCoinsAt hne).coinsOf_eq
  refine ⟨hinv', ⟨h.contiguous.1, ?_⟩, ?_, ?_⟩
  · intro d i j halive hone hle
    by_cases hd : d = k.1
    · subst hd
      rw [hgone] at halive ⊢
      exact h.contiguous.1.noGap _ i j halive hone hle
    · rw [hother d hd] at halive ⊢
      exact h.contiguous.2 d i j halive hone hle
  · intro k' hdead
    by_cases hk' : k' = k
    · subst hk'
      rw [hr.coinsOf_self] at hdead
      exact (hrem.emptied hdead).1
    · rw [(hr.sameCoinsAt hk').coinsOf_eq] at hdead
      rw [hrem.other k' hk']
      exact h.dead k' hdead
  · intro d hlatest
    by_cases hd : d = k.1
    · subst hd
      rw [hr.latestOf_self hblock hk] at hlatest
      -- without coins below, the group of the tip is the first one
      have hone : k.2 = 1 := by
        by_contra hne
        obtain ⟨-, halive⟩ := h.inv.tip_alive hk
        obtain ⟨m, -, hle, -⟩ := h.inv.ok.alive_le_latest halive
        have hfirst := h.contiguous.2 k.1 k.2 1 halive (Int.le_refl 1) hle
        have hne' : (k.1, (1 : Int)) ≠ k := fun heq => hne (congrArg Prod.snd heq).symm
        rw [← (hr.sameCoinsAt hne').coinsOf_eq, hgone] at hfirst
        exact hfirst (coinsOf_of_latest_none h.inv.ok.tail hlatest 1)
      rw [(hrem.emptied (coinsOf_of_latest_none h.inv.ok.tail hlatest k.2)).2, if_pos hone]
    · rw [hr.latestOf_other hblock hd] at hlatest
      rw [hrem.latestOther d hd]
      exact h.latestNone d hlatest

lemma ExactInv.removeBlock (h : ExactInv st (tip :: below))
    (hok : st.removeBlock tip below = .ok st') : ExactInv st' below := by
  have hbare := removeBlock_rule (P := fun st tip => ExactInv st (tip :: below)) h.inv
    (fun _ _ _ _ _ _ h hk hr hrem => h.removeKey hk hr hrem)
    (fun _ _ _ hsame h => h.congr_state hsame.1 hsame.2) h hok
  exact hbare.2.of_cons_bare rfl

end Tecracoin.Sigma
