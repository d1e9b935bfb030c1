/-
  Surge protection: the counters of `CSigmaState::Containers` and the flag that
  `CheckSurgeCondition` computes from them.

  The scan stops at the first surge it finds and inserts zero counters on its
  way.  Neither matters for what the counters say, so after every call the flag
  is the answer for all groups at once.
-/
import Tecracoin.Data.Run
import Tecracoin.Sigma.State

namespace Tecracoin.Sigma

open Data StdMap MetaInfo

namespace MetaInfo

variable (m : MetaInfo) (key k : MetaKey)

@[simp] lemma count_touch : (m.touch key).count k = m.count k := by
  unfold touch count
  exact getD_insert

lemma count_add {delta : UInt64} :
    (m.add key delta).count k = if k = key then m.count k + delta else m.count k := by
  unfold add count
  split_ifs with hk
  · rw [hk, get?_set_self]
    rfl
  · rw [get?_set_of_ne hk]

variable {m key} in
/-- A key without an entry counts zero, which nothing is below. -/
lemma lt_count_iff {n : UInt64} : n < m.count key ↔ ∃ v, (key, v) ∈ m.entries ∧ n < v := by
  simp only [count, ← get?_eq_some_iff]
  cases m.get? key <;> simp

end MetaInfo

/-! ## Counting what is stored -/

section Counting

variable {K V : Type} [DecidableEq K] {keyOf : V → MetaKey} {m : StdMap K V} {info : MetaInfo}
  {k : K} {v : V}

/-- How many values with the key are stored. -/
def stored (keyOf : V → MetaKey) (m : StdMap K V) (key : MetaKey) : Nat :=
  m.entries.countP (fun e => decide (keyOf e.2 = key))

/-- The counters are right. -/
def Counted (keyOf : V → MetaKey) (m : StdMap K V) (info : MetaInfo) : Prop :=
  ∀ key, (info.count key).toNat = stored keyOf m key

lemma Counted.set (h : Counted keyOf m info) (hnone : m.get? k = none)
    (hroom : m.entries.length + 1 < 2 ^ 64) (v : V) :
    Counted keyOf (m.set StdMap.unordered k v) (info.add (keyOf v) 1) := by
  intro key
  have hle : stored keyOf m key ≤ m.entries.length := List.countP_le_length
  have hset : stored keyOf (m.set StdMap.unordered k v) key
      = stored keyOf m key + if keyOf v = key then 1 else 0 := by
    rw [stored, (set_perm _ m k v).countP_eq, erase_of_get?_none hnone, List.countP_cons, stored]
    simp
  rw [hset, count_add]
  by_cases hkey : key = keyOf v
  · rw [if_pos hkey, if_pos hkey.symm, UInt64.toNat_add, h key,
      show (1 : UInt64).toNat = 1 from rfl]
    omega
  · rw [if_neg hkey, if_neg (Ne.symm hkey), h key]
    rfl

/-- What is stored is counted, so its counter does not fall below zero. -/
lemma Counted.erase (h : Counted keyOf m info) (hget : m.get? k = some v) :
    info.count (keyOf v) ≠ 0 ∧ Counted keyOf (m.erase k) (info.add (keyOf v) (-1)) := by
  have hsplit (key : MetaKey) : (info.count key).toNat
      = stored keyOf (m.erase k) key + if keyOf v = key then 1 else 0 := by
    rw [h key, stored, (perm_of_get? hget).countP_eq, List.countP_cons, stored]
    simp
  constructor
  · intro hzero
    have hv := hsplit (keyOf v)
    rw [hzero, if_pos rfl] at hv
    cases hv
  · intro key
    have hkey := hsplit key
    have hlt := (info.count key).toNat_lt
    rw [count_add]
    by_cases heq : key = keyOf v
    · rw [if_pos heq.symm] at hkey
      rw [if_pos heq, UInt64.toNat_add, show (-1 : UInt64).toNat = 2 ^ 64 - 1 from rfl]
      omega
    · rw [if_neg (Ne.symm heq)] at hkey
      rw [if_neg heq]
      exact hkey

end Counting

namespace Containers

/-! ## The flag -/

lemma surgeLoop_spec {m : MetaInfo} {es : List (MetaKey × UInt64)} :
    ((surgeLoop m es).1 = true ↔ ∃ e ∈ es, m.count e.1 < e.2) ∧
      ∀ key, (surgeLoop m es).2.count key = m.count key := by
  fun_induction surgeLoop with
  | case1 => simp
  | case2 m key nSpends es touched hsurge => simpa [touched] using Or.inl hsurge
  | case3 m key nSpends es touched hsurge ih =>
    simp only [touched, count_touch] at hsurge ih ⊢
    simpa [hsurge] using ih

variable {c : Containers}

/-- The scan leaves the counters alone and finds a surge anywhere. -/
lemma checkSurgeCondition_spec (g : Int) (d : CoinDenomination) :
    (∀ key, (c.checkSurgeCondition g d).mintMetaInfo.count key = c.mintMetaInfo.count key) ∧
      (∀ key, (c.checkSurgeCondition g d).spendMetaInfo.count key = c.spendMetaInfo.count key) ∧
      ((c.checkSurgeCondition g d).surgeCondition = true ↔
        ∃ key, c.mintMetaInfo.count key < c.spendMetaInfo.count key) := by
  obtain ⟨hflag, hcount⟩ := surgeLoop_spec
  have hany : (∃ e ∈ (c.spendMetaInfo.touch (g, d)).entries,
      (c.mintMetaInfo.touch (g, d)).count e.1 < e.2) ↔
      ∃ key, c.mintMetaInfo.count key < c.spendMetaInfo.count key := by
    simp only [count_touch]
    constructor
    · rintro ⟨e, he, hlt⟩
      refine ⟨e.1, ?_⟩
      rw [← count_touch c.spendMetaInfo (g, d)]
      exact lt_count_iff.mpr ⟨e.2, he, hlt⟩
    · rintro ⟨key, hlt⟩
      rw [← count_touch c.spendMetaInfo (g, d)] at hlt
      obtain ⟨v, hv, hlt⟩ := lt_count_iff.mp hlt
      exact ⟨(key, v), hv, hlt⟩
  refine ⟨fun key => ?_, fun key => count_touch .., ?_⟩
  · simp only [checkSurgeCondition]
    split_ifs
    · exact count_touch ..
    · exact (hcount key).trans (count_touch ..)
  · simp only [checkSurgeCondition, count_touch]
    split_ifs with hsurge
    · exact iff_of_true rfl ⟨(g, d), of_decide_eq_true hsurge⟩
    · exact hflag.trans hany

/-! ## Every reachable state -/

inductive Call
  | addMint (pubCoin : PublicCoin) (coinInfo : CMintedCoinInfo)
  | removeMint (pubCoin : PublicCoin)
  | addSpend (serial : Scalar) (coinInfo : CSpendCoinInfo)
  | removeSpend (serial : Scalar)
  | reset

def call (c : Containers) : Call → Containers
  | .addMint pubCoin coinInfo => c.addMint pubCoin coinInfo
  | .removeMint pubCoin => c.removeMint pubCoin
  | .addSpend serial coinInfo => c.addSpend serial coinInfo
  | .removeSpend serial => c.removeSpend serial
  | .reset => reset

/-- What is added is not there yet, and the size of its container, a `size_t`, has room for one
    more. -/
def Call.Allowed : Call → Containers → Prop
  | .addMint pubCoin _, c =>
    c.mintedPubCoins.get? pubCoin.value = none ∧ c.mintedPubCoins.entries.length + 1 < 2 ^ 64
  | .addSpend serial _, c =>
    c.usedCoinSerials.get? serial = none ∧ c.usedCoinSerials.entries.length + 1 < 2 ^ 64
  | _, _ => True

/-- The mints that are recorded with a group and a denomination. -/
def mints (c : Containers) : MetaKey → Nat :=
  stored (fun info => (info.coinGroupId, info.denomination)) c.mintedPubCoins

def spends (c : Containers) : MetaKey → Nat :=
  stored (fun info => (info.coinGroupId, info.denomination)) c.usedCoinSerials

structure SurgeExact (c : Containers) : Prop where
  mints : ∀ key, (c.mintMetaInfo.count key).toNat = c.mints key
  spends : ∀ key, (c.spendMetaInfo.count key).toNat = c.spends key
  surge : c.surgeCondition = true ↔ ∃ key, c.mints key < c.spends key

lemma SurgeExact.reset : Containers.reset.SurgeExact where
  mints _ := rfl
  spends _ := rfl
  surge := ⟨nofun, fun ⟨_, hlt⟩ => nomatch hlt⟩

/-- After the scan the flag is right if the counters are. -/
lemma SurgeExact.check (hmints : ∀ key, (c.mintMetaInfo.count key).toNat = c.mints key)
    (hspends : ∀ key, (c.spendMetaInfo.count key).toNat = c.spends key) (g : Int)
    (d : CoinDenomination) : (c.checkSurgeCondition g d).SurgeExact := by
  obtain ⟨hm, hs, hflag⟩ := checkSurgeCondition_spec g d
  refine ⟨fun key => (hm key).symm ▸ hmints key, fun key => (hs key).symm ▸ hspends key, ?_⟩
  rw [hflag]
  simp only [UInt64.lt_iff_toNat_lt, hmints, hspends]
  rfl

lemma SurgeExact.call (h : c.SurgeExact) (a : Call) (ha : a.Allowed c) :
    (c.call a).SurgeExact := by
  cases a with
  | addMint pubCoin coinInfo =>
    have hnew : c.mintedPubCoins.insert StdMap.unordered pubCoin.value coinInfo
        = c.mintedPubCoins.set StdMap.unordered pubCoin.value coinInfo :=
      insert_of_not_contains (contains_of_get?_none ha.1)
    rw [Containers.call, addMint, hnew]
    apply SurgeExact.check
    · exact Counted.set h.mints ha.1 ha.2 coinInfo
    · exact h.spends
  | removeMint pubCoin =>
    rw [Containers.call, removeMint]
    split
    · exact h
    · rename_i coinInfo hget
      apply SurgeExact.check
      · exact (Counted.erase h.mints hget).2
      · exact h.spends
  | addSpend serial coinInfo =>
    apply SurgeExact.check
    · exact h.mints
    · exact Counted.set h.spends ha.1 ha.2 coinInfo
  | removeSpend serial =>
    rw [Containers.call, removeSpend]
    split
    · exact h
    · rename_i coinInfo hget
      apply SurgeExact.check
      · exact h.mints
      · exact (Counted.erase h.spends hget).2
  | reset => exact .reset

/-- In every state the counters are the numbers of what is stored, none is zero that a removal would
    take down, and the flag is on if and only if some group and denomination has more spends than
    mints. -/
theorem surge_exact {c : Containers}
    (h : Reaches (fun a c => some (c.call a)) Call.Allowed reset c) :
    c.SurgeExact ∧
      (∀ coin info, c.mintedPubCoins.get? coin = some info →
        c.mintMetaInfo.count (info.coinGroupId, info.denomination) ≠ 0) ∧
      ∀ serial info, c.usedCoinSerials.get? serial = some info →
        c.spendMetaInfo.count (info.coinGroupId, info.denomination) ≠ 0 := by
  have hexact : c.SurgeExact :=
    h.invariant .reset (fun a _ _ ht ha hs => Option.some.inj hs ▸ ht.call a ha)
  exact ⟨hexact, fun _ _ hget => (Counted.erase hexact.mints hget).1,
    fun _ _ hget => (Counted.erase hexact.spends hget).1⟩

/-- A spend whose group has no mint. -/
theorem surge_exact_lonelySpend : (reset.addSpend 5 ⟨.SIGMA_DENOM_1, 1⟩).SurgeExact :=
  (surge_exact (.next (.addSpend 5 ⟨.SIGMA_DENOM_1, 1⟩) .start ⟨rfl, by decide⟩ rfl)).1

end Containers

end Tecracoin.Sigma
