/-
  `coins.h` and `coins.cpp`: the unspent coins as a cache over a backing view.

  A coin is spent when its output is null.  The cache holds entries with two
  flags: `DIRTY` entries may differ from the backing view, and for `FRESH` ones
  the backing view has no unspent coin, so that a fresh entry can be dropped when
  it is spent.  What the view means is the partial map `unspent`; `Coherent` is
  what the flags promise, and under it every operation is the expected one on
  `unspent`.

  Reading functions return the coin only.  That `FetchCoin` also copies the entry
  it finds into the cache matters to `AddCoin` alone, which looks at the cache and
  not below; the callers that read before they add do the copy by `fetchCoin`.
-/
import Tecracoin.Consensus.Params
import Tecracoin.Data.Eff
import Tecracoin.Data.PartialMap

namespace Tecracoin.Coins

open Data StdMap PartialMap

/-! ## coins.h -/

structure Coin where
  out : CTxOut
  fCoinBase : Bool
  /-- A bit field of 31 bits. -/
  nHeight : Nat
deriving DecidableEq

namespace Coin

/-- `Coin(out, nHeight, fCoinBase)`. -/
def ofOutput (out : CTxOut) (nHeight : Int) (fCoinBase : Bool) : Coin :=
  ⟨out, fCoinBase, (nHeight % 2 ^ 31).toNat⟩

/-- `Coin()`, also what `Clear` leaves. -/
def empty : Coin := ⟨⟨-1, []⟩, false, 0⟩

/-- `out.IsNull()`. -/
def isSpent (coin : Coin) : Bool := decide (coin.out.nValue = -1)

end Coin

structure CCoinsCacheEntry where
  coin : Coin
  dirty : Bool
  fresh : Bool
deriving DecidableEq

/-- `CCoinsCacheEntry()`. -/
def CCoinsCacheEntry.empty : CCoinsCacheEntry := ⟨.empty, false, false⟩

structure CCoinsViewCache where
  /-- `base->GetCoin`. -/
  base : COutPoint → Option Coin
  cacheCoins : StdMap COutPoint CCoinsCacheEntry

namespace CCoinsViewCache

/-! ## coins.cpp -/

section
variable (view : CCoinsViewCache) (outpoint : COutPoint)

/-- `FetchCoin`: the cache with the entry of the backing view copied in. -/
def fetchCoin : CCoinsViewCache :=
  if view.cacheCoins.contains outpoint then view
  else match view.base outpoint with
    | none => view
    | some coin =>
      { view with
        cacheCoins :=
          view.cacheCoins.insert unordered outpoint ⟨coin, false, coin.isSpent⟩ }

def accessCoin : Coin :=
  (((view.fetchCoin outpoint).cacheCoins.get? outpoint).map CCoinsCacheEntry.coin).getD .empty

def haveCoin : Bool :=
  !(view.accessCoin outpoint).isSpent

/-- `AddCoin(outpoint, coin, possible_overwrite)`: unspendable outputs are dropped. -/
def addCoin (coin : Coin) (possible_overwrite : Bool) : Except Failure CCoinsViewCache :=
  if coin.isSpent then .error (.asserts "!coin.IsSpent()")
  else if coin.out.scriptPubKey.isUnspendable then .ok view
  else
    let entry := (view.cacheCoins.get? outpoint).getD .empty
    if !possible_overwrite && !entry.coin.isSpent then
      .error (.throws "Adding new coin that replaces non-pruned entry")
    else
      let fresh := !possible_overwrite && !entry.dirty
      .ok { view with
        cacheCoins :=
          view.cacheCoins.set unordered outpoint ⟨coin, true, entry.fresh || fresh⟩ }

/-- `SpendCoin(outpoint, &moveout)` with a fresh `moveout`. -/
def spendCoin : Coin × CCoinsViewCache :=
  let view := view.fetchCoin outpoint
  match view.cacheCoins.get? outpoint with
  | none => (.empty, view)
  | some entry =>
    (entry.coin,
      if entry.fresh then { view with cacheCoins := view.cacheCoins.erase outpoint }
      else
        { view with
          cacheCoins := view.cacheCoins.set unordered outpoint ⟨.empty, true, false⟩ })

/-! ## The meaning of a view -/

end

/-- The unspent coins. -/
def unspent (view : CCoinsViewCache) : PartialMap COutPoint Coin :=
  fun outpoint =>
    if (view.accessCoin outpoint).isSpent then none else some (view.accessCoin outpoint)

/-- What the flags of the cache promise about the backing view. -/
structure Coherent (view : CCoinsViewCache) : Prop where
  /-- An entry that is not dirty is a copy. -/
  clean : ∀ o entry, view.cacheCoins.get? o = some entry → entry.dirty = false →
    view.base o = some entry.coin
  /-- Below a fresh entry there is no unspent coin. -/
  fresh : ∀ o entry, view.cacheCoins.get? o = some entry → entry.fresh = true →
    ∀ coin, view.base o = some coin → coin.isSpent = true

/-- A cache without entries is coherent over any view. -/
lemma coherent_of_empty {base : COutPoint → Option Coin} : Coherent ⟨base, .empty⟩ :=
  ⟨fun _ _ h => (nomatch h), fun _ _ h => (nomatch h)⟩

section Spec

variable {view view' : CCoinsViewCache} {o o' : COutPoint} {coin : Coin} {overwrite : Bool}
  {entry : CCoinsCacheEntry}

/-- A coin is looked for in the cache first, then below. -/
lemma accessCoin_eq :
    view.accessCoin o = (((view.cacheCoins.get? o).map CCoinsCacheEntry.coin).or
      (view.base o)).getD .empty := by
  rw [accessCoin, fetchCoin, contains]
  cases h : view.cacheCoins.get? o with
  | some entry => simp [h]
  | none => cases hbase : view.base o <;> simp [h, get?_insert_self]

lemma accessCoin_of_cached (h : view.cacheCoins.get? o = some entry) :
    view.accessCoin o = entry.coin := by
  rw [accessCoin_eq, h]
  rfl

lemma accessCoin_of_not_cached (h : view.cacheCoins.get? o = none) :
    view.accessCoin o = (view.base o).getD .empty := by
  rw [accessCoin_eq, h]
  rfl

/-- An outpoint keeps its coin if its cache entry is unchanged. -/
lemma accessCoin_congr (hbase : view'.base = view.base)
    (hget : view'.cacheCoins.get? o = view.cacheCoins.get? o) :
    view'.accessCoin o = view.accessCoin o := by
  rw [accessCoin_eq, accessCoin_eq, hbase, hget]

/-- Only the coin a view finds decides what is unspent. -/
lemma unspent_congr (h : view'.accessCoin o = view.accessCoin o) :
    view'.unspent o = view.unspent o := by
  rw [unspent, unspent, h]

lemma unspent_eq_some_iff :
    view.unspent o = some coin ↔ view.accessCoin o = coin ∧ coin.isSpent = false := by
  rw [unspent]
  split_ifs with hspent
  · refine ⟨nofun, ?_⟩
    rintro ⟨rfl, hfalse⟩
    cases hspent.symm.trans hfalse
  · rw [Option.some.injEq, iff_self_and]
    rintro rfl
    exact Bool.eq_false_iff.mpr hspent

lemma unspent_eq_none_iff : view.unspent o = none ↔ (view.accessCoin o).isSpent = true := by
  rw [unspent]
  split_ifs with hspent
  · simp [hspent]
  · simp [hspent]

section
variable (view : CCoinsViewCache)

lemma haveCoin_eq : view.haveCoin o = (view.unspent o).isSome := by
  rw [haveCoin, unspent]
  cases (view.accessCoin o).isSpent <;> rfl

/-! ### FetchCoin -/

lemma fetchCoin_cases :
    view.fetchCoin o = view ∨
      ∃ coin, view.cacheCoins.get? o = none ∧ view.base o = some coin ∧
        view.fetchCoin o = { view with
          cacheCoins := view.cacheCoins.insert unordered o ⟨coin, false, coin.isSpent⟩ } := by
  fun_cases fetchCoin with
  | case1 | case2 => exact .inl rfl
  | case3 hnew coin hbase =>
    exact .inr ⟨coin, by simpa [contains] using hnew, hbase, rfl⟩

lemma accessCoin_fetchCoin : (view.fetchCoin o).accessCoin o' = view.accessCoin o' := by
  rcases fetchCoin_cases view with h | ⟨coin, hnone, hbase, h⟩
  · rw [h]
  · rw [h]
    by_cases heq : o' = o
    · subst heq
      have hcached : (view.cacheCoins.insert unordered o' ⟨coin, false, coin.isSpent⟩).get? o'
          = some ⟨coin, false, coin.isSpent⟩ := by
        rw [get?_insert_self, hnone]
        rfl
      rw [accessCoin_of_cached hcached, accessCoin_of_not_cached hnone, hbase]
      rfl
    · exact accessCoin_congr rfl (get?_insert_of_ne heq)

@[simp] lemma unspent_fetchCoin (o : COutPoint) : (view.fetchCoin o).unspent = view.unspent :=
  funext (fun _ => unspent_congr (accessCoin_fetchCoin view))

end

lemma Coherent.fetchCoin (h : Coherent view) (o : COutPoint) : Coherent (view.fetchCoin o) := by
  rcases fetchCoin_cases view with heq | ⟨coin, hnone, hbase, heq⟩
  · rw [heq]
    exact h
  · rw [heq]
    -- the new entry is a clean copy, fresh only if what it copies is spent
    refine ⟨forall_insert h.clean (fun _ => hbase), forall_insert h.fresh ?_⟩
    intro hfresh coin' hcoin'
    rw [hbase] at hcoin'
    cases hcoin'
    exact hfresh

/-! ### AddCoin and SpendCoin -/

/-- The view with one entry of the cache replaced. -/
def setEntry (view : CCoinsViewCache) (o : COutPoint) (entry : CCoinsCacheEntry) :
    CCoinsViewCache :=
  { view with cacheCoins := view.cacheCoins.set unordered o entry }

lemma accessCoin_setEntry_self : (view.setEntry o entry).accessCoin o = entry.coin :=
  accessCoin_of_cached get?_set_self

lemma accessCoin_setEntry_of_ne (h : o' ≠ o) :
    (view.setEntry o entry).accessCoin o' = view.accessCoin o' :=
  accessCoin_congr rfl (get?_set_of_ne h)

lemma Coherent.setEntry (h : Coherent view) (hdirty : entry.dirty = true)
    (hfresh : entry.fresh = true → ∀ coin, view.base o = some coin → coin.isSpent = true) :
    Coherent (view.setEntry o entry) := by
  refine ⟨forall_set h.clean (fun hclean => ?_), forall_set h.fresh hfresh⟩
  rw [hdirty] at hclean
  cases hclean

/-- The binding `AddCoin` adds: none for an unspendable output. -/
def binding (o : COutPoint) (coin : Coin) : List (COutPoint × Coin) :=
  if coin.out.scriptPubKey.isUnspendable then [] else [(o, coin)]

/-- An unspendable coin is skipped; another one overwrites a spent entry, or any if allowed. -/
lemma addCoin_ok (h : view.addCoin o coin overwrite = .ok view') :
    coin.isSpent = false ∧
      ((coin.out.scriptPubKey.isUnspendable = true ∧ view' = view) ∨
        (coin.out.scriptPubKey.isUnspendable = false ∧
          ∃ entry, entry = (view.cacheCoins.get? o).getD .empty ∧
            (overwrite = false → entry.coin.isSpent = true) ∧
            view' = view.setEntry o
              ⟨coin, true, entry.fresh || (!overwrite && !entry.dirty)⟩)) := by
  simp only [addCoin] at h
  split_ifs at h with hspent hunspendable hthrow
  · exact ⟨by simpa using hspent, .inl ⟨hunspendable, (Except.ok.inj h).symm⟩⟩
  · refine ⟨by simpa using hspent, .inr ⟨by simpa using hunspendable, _, rfl, ?_,
      (Except.ok.inj h).symm⟩⟩
    intro hoverwrite
    simpa [hoverwrite] using hthrow

lemma unspent_addCoin (h : view.addCoin o coin overwrite = .ok view') :
    view'.unspent = view.unspent.extend (binding o coin) := by
  obtain ⟨hspent, ⟨hscript, rfl⟩ | ⟨hscript, entry, -, -, rfl⟩⟩ := addCoin_ok h
  · rw [binding, if_pos hscript, extend_nil]
  · rw [binding, if_neg (by simp [hscript])]
    funext o'
    by_cases ho : o' = o
    · subst ho
      rw [extend, lookup, if_pos rfl, Option.some_or]
      exact unspent_eq_some_iff.mpr ⟨accessCoin_setEntry_self, hspent⟩
    · rw [extend_of_notMem (by simpa using ho)]
      exact unspent_congr (accessCoin_setEntry_of_ne ho)

/-- A new coin must not lie over an unspent one, unless it may overwrite. -/
lemma Coherent.addCoin (hview : Coherent view) (hnew : overwrite = false → view.unspent o = none)
    (h : view.addCoin o coin overwrite = .ok view') : Coherent view' := by
  obtain ⟨-, ⟨-, rfl⟩ | ⟨-, entry, hentry, hold, rfl⟩⟩ := addCoin_ok h
  · exact hview
  · apply hview.setEntry rfl
    intro hfresh below hbelow
    rw [Bool.or_eq_true, Bool.and_eq_true, Bool.not_eq_true', Bool.not_eq_true'] at hfresh
    cases hget : view.cacheCoins.get? o with
    | none =>
      rw [hget] at hentry
      subst hentry
      -- nothing cached: the view shows what lies below
      have hoverwrite : overwrite = false := by
        rcases hfresh with hfalse | hboth
        · cases hfalse
        · exact hboth.1
      have hnone := unspent_eq_none_iff.mp (hnew hoverwrite)
      rw [accessCoin_of_not_cached hget, hbelow] at hnone
      exact hnone
    | some cached =>
      rw [hget, Option.getD_some] at hentry
      subst hentry
      rcases hfresh with hfresh | ⟨hoverwrite, hclean⟩
      · exact hview.fresh o entry hget hfresh below hbelow
      · have hcopy := hview.clean o entry hget hclean
        rw [hbelow] at hcopy
        cases hcopy
        exact hold hoverwrite

/-- Where nothing is unspent, `AddCoin` goes through. -/
lemma addCoin_total (hspent : coin.isSpent = false) (hnew : view.unspent o = none)
    (overwrite : Bool) : ∃ view', view.addCoin o coin overwrite = .ok view' := by
  have hentry : ((view.cacheCoins.get? o).getD .empty).coin.isSpent = true := by
    cases hget : view.cacheCoins.get? o with
    | none => rfl
    | some entry =>
      have hnone := unspent_eq_none_iff.mp hnew
      rw [accessCoin_of_cached hget] at hnone
      exact hnone
  simp only [CCoinsViewCache.addCoin, hspent, hentry, Bool.not_true, Bool.and_false,
    Bool.false_eq_true, if_false]
  split_ifs
  · exact ⟨_, rfl⟩
  · exact ⟨_, rfl⟩

lemma spendCoin_of_none (h : (view.fetchCoin o).cacheCoins.get? o = none) :
    view.spendCoin o = (.empty, view.fetchCoin o) := by
  simp only [spendCoin, h]

lemma spendCoin_of_some (h : (view.fetchCoin o).cacheCoins.get? o = some entry) :
    view.spendCoin o = (entry.coin,
      if entry.fresh then
        { view.fetchCoin o with cacheCoins := (view.fetchCoin o).cacheCoins.erase o }
      else (view.fetchCoin o).setEntry o ⟨.empty, true, false⟩) := by
  simp only [spendCoin, h]
  rfl

lemma spendCoin_unspent (h : view.unspent o = some coin) : (view.spendCoin o).1 = coin := by
  obtain ⟨haccess, hspent⟩ := unspent_eq_some_iff.mp h
  unfold accessCoin at haccess
  cases hget : (view.fetchCoin o).cacheCoins.get? o with
  | none =>
    rw [hget] at haccess
    subst haccess
    cases hspent
  | some entry =>
    rw [hget] at haccess
    rw [spendCoin_of_some hget]
    exact haccess

/-- Two views that differ at `o` only, where the second has nothing unspent. -/
lemma unspent_eq_without (hself : (view'.accessCoin o).isSpent = true)
    (hother : ∀ o', o' ≠ o → view'.accessCoin o' = view.accessCoin o') :
    view'.unspent = view.unspent.without [o] := by
  funext o'
  by_cases ho : o' = o
  · subst ho
    rw [without_of_mem (.head _)]
    exact unspent_eq_none_iff.mpr hself
  · rw [without_of_notMem (by simpa using ho)]
    exact unspent_congr (hother o' ho)

/-- Spending takes the coin out; a fresh entry can be dropped because nothing unspent lies below it.
    -/
lemma spendCoin_spec (hview : Coherent view) :
    (view.spendCoin o).2.unspent = view.unspent.without [o] ∧ Coherent (view.spendCoin o).2 := by
  have hfetched := hview.fetchCoin o
  rw [← unspent_fetchCoin view o]
  cases hget : (view.fetchCoin o).cacheCoins.get? o with
  | none =>
    rw [spendCoin_of_none hget]
    refine ⟨unspent_eq_without ?_ (fun _ _ => rfl), hfetched⟩
    rw [accessCoin_fetchCoin, accessCoin, hget]
    rfl
  | some entry =>
    rw [spendCoin_of_some hget]
    generalize view.fetchCoin o = fetched at hfetched hget
    split_ifs with hfresh
    · constructor
      · apply unspent_eq_without
        · rw [accessCoin_of_not_cached get?_erase_self]
          cases hbase : fetched.base o with
          | none => rfl
          | some below => exact hfetched.fresh o entry hget hfresh below hbase
        · exact fun o' ho => accessCoin_congr rfl (get?_erase_of_ne ho)
      · -- the other entries are untouched
        exact ⟨forall_erase hfetched.clean, forall_erase hfetched.fresh⟩
    · constructor
      · apply unspent_eq_without
        · rw [accessCoin_setEntry_self]
          rfl
        · exact fun o' ho => accessCoin_setEntry_of_ne ho
      · exact hfetched.setEntry rfl nofun

end Spec

end CCoinsViewCache

end Tecracoin.Coins
