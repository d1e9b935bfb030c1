/-
  The skip pointers of the block index (`chain.cpp`).

  `GetAncestor` goes back by `pskip` where that does not lead below the height it looks
  for, and by `pprev` otherwise.  `FindFork` and `GetLocator` are built on it.

  Heights and steps are natural numbers.  They are an `int` in the code, and the
  step of a locator, which doubles, fits for every chain below height `2^30`.
-/
import Mathlib.Tactic

namespace Tecracoin.Chain

/-- The entries of the block index. -/
structure BlockMap (B : Type) where
  nHeight : B → Nat
  pprev : B → Option B
  pskip : B → Option B

def invertLowestOne (n : Nat) : Nat :=
  n &&& (n - 1)

def getSkipHeight (height : Nat) : Nat :=
  if height < 2 then 0
  else if height &&& 1 ≠ 0 then invertLowestOne (invertLowestOne (height - 1)) + 1
  else invertLowestOne height

lemma invertLowestOne_le (n : Nat) : invertLowestOne n ≤ n - 1 :=
  Nat.and_le_right

lemma getSkipHeight_lt {n : Nat} (h : 0 < n) : getSkipHeight n < n := by
  have h1 := invertLowestOne_le n
  have h2 := invertLowestOne_le (n - 1)
  have h3 := invertLowestOne_le (invertLowestOne (n - 1))
  unfold getSkipHeight
  split_ifs <;> omega

/-- Whether `pskip` is followed from `heightWalk`, if there is one. -/
def followsSkip (height heightWalk : Nat) : Bool :=
  let heightSkip := getSkipHeight heightWalk
  let heightSkipPrev := getSkipHeight (heightWalk - 1)
  heightSkip == height ||
    (heightSkip > height && !(heightSkipPrev + 2 < heightSkip && heightSkipPrev ≥ height))

lemma followsSkip_le {height heightWalk : Nat} (h : followsSkip height heightWalk) :
    height ≤ getSkipHeight heightWalk := by
  simp only [followsSkip, Bool.or_eq_true, beq_iff_eq, Bool.and_eq_true, decide_eq_true_eq] at h
  omega

variable {B : Type} {a b x : B} {i n : Nat}

namespace BlockMap

variable (m : BlockMap B)

/-- The loop of `GetAncestor`; `none` where it would go on from a null `pprev`. -/
def walk (height heightWalk : Nat) (pindexWalk : B) : Option B :=
  if height < heightWalk then
    match if followsSkip height heightWalk then m.pskip pindexWalk else none with
    | some pskip => walk height (getSkipHeight heightWalk) pskip
    | none =>
      match m.pprev pindexWalk with
      | some pprev => walk height (heightWalk - 1) pprev
      | none => none
  else some pindexWalk
termination_by heightWalk
decreasing_by
  · exact getSkipHeight_lt (by omega)
  · omega

/-- The inner `none` is the null pointer that the code returns. -/
def getAncestor (b : B) (height : Int) : Option (Option B) :=
  if height > m.nHeight b ∨ height < 0 then some none
  else (m.walk height.toNat (m.nHeight b) b).map some

/-- The `pskip` that `BuildSkip` leaves in a new entry. -/
def buildSkip (b : B) : Option (Option B) :=
  match m.pprev b with
  | some pprev => m.getAncestor pprev (getSkipHeight (m.nHeight b))
  | none => some none

/-- The block that is `n` generations back. -/
def up : Nat → B → Option B
  | 0, b => some b
  | n + 1, b => (m.pprev b).bind (up n)

def IsAncestor (a b : B) : Prop :=
  ∃ n, m.up n b = some a

variable {m}

lemma up_add (h : m.up i b = some a) : m.up (i + n) b = m.up n a := by
  induction i generalizing b with
  | zero =>
    obtain rfl := Option.some.inj h
    rw [Nat.zero_add]
  | succ i ih =>
    obtain ⟨p, hp, h⟩ := Option.bind_eq_some_iff.mp h
    rw [Nat.succ_add, up, hp]
    exact ih h

end BlockMap

open BlockMap

/-- A block tree whose skip pointers were set by `BuildSkip`. -/
structure BlockTree (B : Type) extends BlockMap B where
  root : ∀ b, pprev b = none → nHeight b = 0
  next : ∀ b p, pprev b = some p → nHeight b = nHeight p + 1
  skip : ∀ b, toBlockMap.buildSkip b = some (pskip b)

namespace BlockTree

variable (t : BlockTree B)

lemma up_height (h : t.up n b = some a) : t.nHeight b = t.nHeight a + n := by
  induction n generalizing b with
  | zero => rw [Option.some.inj h]; rfl
  | succ n ih =>
    obtain ⟨p, hp, h⟩ := Option.bind_eq_some_iff.mp h
    rw [t.next b p hp, ih h]
    rfl

lemma exists_up (h : n ≤ t.nHeight b) : ∃ a, t.up n b = some a := by
  induction n generalizing b with
  | zero => exact ⟨b, rfl⟩
  | succ n ih =>
    cases hp : t.pprev b with
    | none =>
      have := t.root b hp
      omega
    | some p =>
      have := t.next b p hp
      obtain ⟨a, ha⟩ := ih (b := p) (by omega)
      exact ⟨a, by rw [up, hp]; exact ha⟩

lemma walk_eq (h : n ≤ t.nHeight b) :
    t.walk n (t.nHeight b) b = t.up (t.nHeight b - n) b := by
  induction hn : t.nHeight b using Nat.strongRecOn generalizing n b with
  | _ _ ih =>
    subst hn
    rw [walk]
    split
    case isFalse hge =>
      rw [Nat.sub_eq_zero_of_le (Nat.not_lt.mp hge)]
      rfl
    case isTrue hlt =>
      obtain ⟨p, hp⟩ : ∃ p, t.pprev b = some p :=
        Option.ne_none_iff_exists'.mp fun e => by have := t.root b e; omega
      have hb := t.next b p hp
      have hprev {k : Nat} (hk : k ≤ t.nHeight p) :
          t.walk k (t.nHeight p) p = t.up (t.nHeight b - k) b := by
        rw [ih _ (by omega) hk rfl, show t.nHeight b - k = t.nHeight p - k + 1 by omega,
          up, hp]
        rfl
      have hlt' := getSkipHeight_lt (n := t.nHeight b) (by omega)
      split
      next s hs =>
        obtain ⟨hf, hs⟩ := Option.ite_none_right_eq_some.mp hs
        -- `pskip` was found from the predecessor, by a walk that is right there already
        have hskip := t.skip b
        simp only [buildSkip, hp, getAncestor, hs] at hskip
        rw [if_neg (by omega), Int.toNat_natCast, hprev (by omega)] at hskip
        have hup : t.up (t.nHeight b - getSkipHeight (t.nHeight b)) b = some s := by
          simpa using hskip
        have hs' := t.up_height hup
        have hle := followsSkip_le hf
        rw [show getSkipHeight (t.nHeight b) = t.nHeight s by omega,
          ih _ (by omega) (by omega) rfl, ← up_add hup]
        congr 1
        omega
      next =>
        rw [hp]
        simp only
        rw [show t.nHeight b - 1 = t.nHeight p by omega]
        exact hprev (by omega)

lemma up_eq_some_iff (h : n ≤ t.nHeight b) :
    t.up (t.nHeight b - n) b = some a ↔ t.IsAncestor a b ∧ t.nHeight a = n := by
  constructor
  · intro ha
    have := t.up_height ha
    exact ⟨⟨_, ha⟩, by omega⟩
  · rintro ⟨⟨n, hn⟩, rfl⟩
    rw [t.up_height hn, Nat.add_sub_cancel_left]
    exact hn

lemma isAncestor_le : t.IsAncestor a b → t.nHeight a ≤ t.nHeight b := by
  rintro ⟨n, hn⟩
  have := t.up_height hn
  omega

/-- Going back from `b`, a block no higher than `x` lies behind `x`. -/
lemma isAncestor_iff (hx : t.IsAncestor x b) (h : t.nHeight a ≤ t.nHeight x) :
    t.IsAncestor a b ↔ t.IsAncestor a x := by
  obtain ⟨i, hi⟩ := hx
  constructor
  · rintro ⟨n, hn⟩
    have h1 := t.up_height hi
    have h2 := t.up_height hn
    exact ⟨n - i, by rw [← up_add hi, ← hn]; congr 1; omega⟩
  · rintro ⟨n, hn⟩
    exact ⟨i + n, by rw [up_add hi, hn]⟩

/-- `GetAncestor` finds the ancestor, and never meets a null `pprev`. -/
lemma getAncestor_spec (b : B) (height : Int) :
    ∃ o, t.getAncestor b height = some o ∧
      (o.isSome ↔ 0 ≤ height ∧ height ≤ t.nHeight b) ∧
      ∀ a, o = some a ↔ t.IsAncestor a b ∧ t.nHeight a = height := by
  unfold getAncestor
  split
  next h =>
    refine ⟨none, rfl, iff_of_false nofun (by omega), fun a => iff_of_false nofun ?_⟩
    rintro ⟨ha, rfl⟩
    have := t.isAncestor_le ha
    omega
  next h =>
    obtain ⟨height, rfl⟩ := Int.eq_ofNat_of_zero_le (show 0 ≤ height by omega)
    have hle : height ≤ t.nHeight b := by omega
    obtain ⟨a, ha⟩ := t.exists_up (Nat.sub_le (t.nHeight b) height)
    rw [Int.toNat_natCast, t.walk_eq hle, ha]
    refine ⟨some a, rfl, iff_of_true rfl (by omega), fun a' => ?_⟩
    rw [← ha, t.up_eq_some_iff hle, Int.ofNat_inj]

end BlockTree

/-- The chain that `SetTip` leaves. -/
structure CChain {B : Type} (t : BlockTree B) where
  vChain : List B
  linked : ∀ i b, vChain[i + 1]? = some b → t.pprev b = vChain[i]?

namespace CChain

variable {t : BlockTree B} (c : CChain t)

lemma getElem?_eq_up (h : c.vChain[i + n]? = some b) : c.vChain[i]? = t.up n b := by
  induction n generalizing b with
  | zero => exact h
  | succ n ih =>
    obtain ⟨hlt, _⟩ := List.getElem?_eq_some_iff.mp h
    have hp := List.getElem?_eq_getElem (show i + n < c.vChain.length by omega)
    rw [up, (c.linked _ b h).trans hp]
    exact ih hp

variable [DecidableEq B]

def height : Int :=
  c.vChain.length - 1

def contains (b : B) : Bool :=
  c.vChain[t.nHeight b]? = some b

/-- The loop of `FindFork`. -/
def forkLoop (b : B) : Option B :=
  if c.contains b then some b
  else
    match _ : t.pprev b with
    | some p => forkLoop p
    | none => none
termination_by t.nHeight b
decreasing_by
  have := t.next b p ‹_›
  omega

def findFork : Option B → Option (Option B)
  | none => some none
  | some b =>
    if t.nHeight b > c.height then (t.getAncestor b c.height).map (·.bind c.forkLoop)
    else some (c.forkLoop b)

/-- The loop of `GetLocator`; `none` when the fuel is spent. -/
def locatorLoop : Nat → Nat → List B → Option B → Option (List B)
  | 0, _, _, _ => none
  | _ + 1, _, vHave, none => some vHave
  | fuel + 1, nStep, vHave, some b =>
    let vHave := vHave ++ [b]
    if t.nHeight b = 0 then some vHave
    else
      let nHeight := t.nHeight b - nStep
      let next := if c.contains b then some c.vChain[nHeight]? else t.getAncestor b nHeight
      next.bind (locatorLoop fuel (if vHave.length > 10 then nStep * 2 else nStep) vHave)

def getLocator (b : Option B) : Option (List B) :=
  let b := b.or c.vChain.getLast?
  c.locatorLoop ((b.map t.nHeight).getD 0 + 1) 1 [] b

/-- The highest block that the chain shares with the branch that ends with `b`. -/
def IsFork (b a : B) : Prop :=
  (c.contains a ∧ t.IsAncestor a b) ∧
    ∀ a', c.contains a' ∧ t.IsAncestor a' b → t.nHeight a' ≤ t.nHeight a

lemma contains_iff : c.contains b ↔ c.vChain[t.nHeight b]? = some b :=
  decide_eq_true_iff

lemma nHeight_le (h : c.contains b) : t.nHeight b ≤ c.height := by
  have := (List.getElem?_eq_some_iff.mp (c.contains_iff.mp h)).1
  unfold height
  omega

lemma isFork_congr (h : ∀ y, c.contains y → (t.IsAncestor y b ↔ t.IsAncestor y x)) :
    c.IsFork b a ↔ c.IsFork x a := by
  simp only [IsFork, and_congr_right (h _)]

lemma isFork_self (h : c.contains b) : c.IsFork b a ↔ b = a := by
  constructor
  · rintro ⟨⟨ha, hab⟩, hmax⟩
    have hle := hmax b ⟨h, 0, rfl⟩
    have heq := Nat.le_antisymm (t.isAncestor_le hab) hle
    rw [contains_iff] at h ha
    exact Option.some.inj (h.symm.trans (heq ▸ ha))
  · rintro rfl
    exact ⟨⟨h, 0, rfl⟩, fun a ha => t.isAncestor_le ha.2⟩

lemma forkLoop_eq_some_iff : c.forkLoop b = some a ↔ c.IsFork b a := by
  fun_induction c.forkLoop b with
  | case1 b h => rw [Option.some.injEq, c.isFork_self h]
  | case2 b h p hp ih =>
    refine ih.trans (c.isFork_congr fun y hy => ?_).symm
    constructor
    · rintro ⟨n, hn⟩
      cases n with
      | zero => exact absurd (Option.some.inj hn ▸ hy) h
      | succ n => exact ⟨n, by rwa [up, hp] at hn⟩
    · rintro ⟨n, hn⟩
      exact ⟨n + 1, by rwa [up, hp]⟩
  | case3 b h hp =>
    refine iff_of_false nofun ?_
    rintro ⟨⟨ha, n, hn⟩, _⟩
    cases n with
    | zero => exact h (Option.some.inj hn ▸ ha)
    | succ n => rw [up, hp] at hn; cases hn

lemma findFork_spec (b : B) :
    ∃ o, c.findFork (some b) = some o ∧ ∀ a, o = some a ↔ c.IsFork b a := by
  rw [findFork]
  split
  next hlt =>
    obtain ⟨o, ho, hsome, hspec⟩ := t.getAncestor_spec b c.height
    rw [ho]
    refine ⟨_, rfl, fun a => ?_⟩
    cases o with
    | none =>
      refine iff_of_false nofun fun h => ?_
      have := c.nHeight_le h.1.1
      exact absurd (hsome.mpr ⟨by omega, by omega⟩) nofun
    | some x =>
      obtain ⟨hx, hheight⟩ := (hspec x).mp rfl
      refine c.forkLoop_eq_some_iff.trans (c.isFork_congr fun y hy => ?_).symm
      have := c.nHeight_le hy
      exact t.isAncestor_iff hx (by omega)
  next => exact ⟨_, rfl, fun a => c.forkLoop_eq_some_iff⟩

/-- The blocks of a locator: ancestors of `b`, each below the one before, down to height 0. -/
structure Locates (t : BlockTree B) (b : B) (l : List B) : Prop where
  ancestors : ∀ a ∈ l, t.IsAncestor a b
  decreasing : l.Pairwise fun a a' => t.nHeight a' < t.nHeight a
  last : ∃ g, l.getLast? = some g ∧ t.nHeight g = 0

omit [DecidableEq B] in
/-- The block itself, before a locator for one of its ancestors. -/
lemma Locates.cons {l : List B} (ha : t.IsAncestor a b) (hlt : t.nHeight a < t.nHeight b)
    (h : Locates t a (a :: l)) : Locates t b (b :: a :: l) where
  ancestors := by
    refine List.forall_mem_cons.mpr ⟨⟨0, rfl⟩, fun x hx => ?_⟩
    have hxa := h.ancestors x hx
    exact (t.isAncestor_iff ha (t.isAncestor_le hxa)).mpr hxa
  decreasing := by
    refine List.pairwise_cons.mpr ⟨fun x hx => ?_, h.decreasing⟩
    exact Nat.lt_of_le_of_lt (t.isAncestor_le (h.ancestors x hx)) hlt
  last := h.last

/-- The chain finds the same ancestor as `GetAncestor`. -/
lemma next_eq (h : n ≤ t.nHeight b) :
    (if c.contains b then some c.vChain[n]? else t.getAncestor b n)
      = some (t.up (t.nHeight b - n) b) := by
  split
  next hb =>
    rw [contains_iff, ← Nat.add_sub_cancel' h] at hb
    rw [c.getElem?_eq_up hb]
  next =>
    obtain ⟨a, ha⟩ := t.exists_up (Nat.sub_le (t.nHeight b) n)
    rw [getAncestor, if_neg (by omega), Int.toNat_natCast, t.walk_eq h, ha]
    rfl

lemma locatorLoop_spec {fuel nStep : Nat} (vHave : List B) (hstep : 0 < nStep)
    (hfuel : t.nHeight b < fuel) :
    ∃ l, c.locatorLoop fuel nStep vHave (some b) = some (vHave ++ b :: l) ∧
      Locates t b (b :: l) := by
  induction fuel generalizing nStep vHave b with
  | zero => exact absurd hfuel (Nat.not_lt_zero _)
  | succ fuel ih =>
    simp only [locatorLoop]
    split
    next hzero =>
      refine ⟨[], rfl, fun a ha => ?_, List.pairwise_singleton .., b, rfl, hzero⟩
      exact ⟨0, congrArg some (List.mem_singleton.mp ha).symm⟩
    next hpos =>
      obtain ⟨a, ha⟩ := t.exists_up (Nat.sub_le (t.nHeight b) (t.nHeight b - nStep))
      have hheight := t.up_height ha
      rw [c.next_eq (Nat.sub_le ..), ha]
      have hstep' : 0 < if (vHave ++ [b]).length > 10 then nStep * 2 else nStep := by
        split <;> omega
      obtain ⟨l, hl, hlocates⟩ := ih (vHave ++ [b]) hstep' (show t.nHeight a < fuel by omega)
      refine ⟨a :: l, ?_, hlocates.cons ⟨_, ha⟩ (by omega)⟩
      exact hl.trans (congrArg some (List.append_cons ..).symm)

/-- In a block tree with skip pointers, `GetAncestor` finds the one ancestor at a height and follows
    no null pointer; `FindFork` returns the highest block that the chain shares with a branch, and
    `GetLocator` goes back from a block (or the tip) to the genesis block. -/
theorem skip_pointers_right (t : BlockTree B) (c : CChain t) (b : B) :
    (∀ height : Int, ∃ o, t.getAncestor b height = some o ∧
      (o.isSome ↔ 0 ≤ height ∧ height ≤ t.nHeight b) ∧
      ∀ a, o = some a ↔ t.IsAncestor a b ∧ t.nHeight a = height) ∧
    (∃ o, c.findFork (some b) = some o ∧ ∀ a, o = some a ↔ c.IsFork b a) ∧
    ∀ pindex, pindex.or c.vChain.getLast? = some b →
      ∃ l, c.getLocator pindex = some (b :: l) ∧ Locates t b (b :: l) := by
  refine ⟨t.getAncestor_spec b, c.findFork_spec b, fun pindex hb => ?_⟩
  simp only [getLocator, hb]
  exact c.locatorLoop_spec [] Nat.one_pos (Nat.lt_succ_self _)

/-! Five blocks in a row, and two more that branch off after the third. -/

def forkedMap : BlockMap (Fin 7) where
  nHeight := ![0, 1, 2, 3, 4, 3, 4]
  pprev := ![none, some 0, some 1, some 2, some 3, some 2, some 5]
  pskip := ![none, some 0, some 0, some 1, some 0, some 1, some 0]

lemma forkedMap_skip (b : Fin 7) : forkedMap.buildSkip b = some (forkedMap.pskip b) := by
  fin_cases b <;> simp [buildSkip, getAncestor, walk, forkedMap,
    getSkipHeight, invertLowestOne, followsSkip]

lemma forkedMap_heights : (∀ b, forkedMap.pprev b = none → forkedMap.nHeight b = 0) ∧
    ∀ b p, forkedMap.pprev b = some p → forkedMap.nHeight b = forkedMap.nHeight p + 1 := by
  decide

def forkedTree : BlockTree (Fin 7) :=
  ⟨forkedMap, forkedMap_heights.1, forkedMap_heights.2, forkedMap_skip⟩

def mainChain : List (Fin 7) := [0, 1, 2, 3, 4]

lemma mainChain_linked (i : Nat) (b : Fin 7) (h : mainChain[i + 1]? = some b) :
    forkedMap.pprev b = mainChain[i]? := by
  obtain ⟨hlt, rfl⟩ := List.getElem?_eq_some_iff.mp h
  have hfour : i < 4 := Nat.lt_of_succ_lt_succ hlt
  interval_cases i <;> rfl

def forkedChain : CChain forkedTree := ⟨mainChain, mainChain_linked⟩

/-- From the end of the branch, the ancestor at height 2 is the block where it leaves the chain. -/
theorem skip_pointers_right_forked :
    forkedTree.getAncestor 6 2 = some (some 2) ∧ forkedChain.IsFork 6 2 ∧
      ∃ l, forkedChain.getLocator (some 6) = some (6 :: l) ∧ Locates forkedTree 6 (6 :: l) := by
  obtain ⟨hancestor, hfork, hlocator⟩ := skip_pointers_right forkedTree forkedChain 6
  refine ⟨?_, ?_, hlocator (some 6) rfl⟩
  · obtain ⟨o, ho, -, hspec⟩ := hancestor 2
    rw [ho, (hspec 2).mpr ⟨⟨2, rfl⟩, rfl⟩]
  · obtain ⟨o, ho, hspec⟩ := hfork
    refine (hspec 2).mp (Option.some.inj (ho.symm.trans ?_))
    simp [findFork, forkLoop, contains, height, forkedChain, mainChain, forkedTree,
      forkedMap]

end CChain
end Tecracoin.Chain
