/-
  `sto.cpp`: how an amount is divided among the owners of a property.

  Each owner's piece is rounded up and cut off at what is left, so the pieces
  add up to the amount exactly as soon as there is an owner.
-/
import Tecracoin.Elysium.Properties

namespace Tecracoin.Elysium

open Data Op Ledger List

variable {amount tokens totalTokens will : Int} {s : Ledger} {address sender : Address}
  {owners : List (Int × Address)} {property : PropertyId} {E : Abort → Prop}
  {as bs : List (Int × Address)} {sentSoFar : Int}

/-- What an address owns of a property, in all four buckets. -/
def CMPTally.heldTokens (tally : CMPTally) (property : PropertyId) : Int :=
  tally.getMoney property .BALANCE + tally.getMoney property .SELLOFFER_RESERVE +
    tally.getMoney property .ACCEPT_RESERVE + tally.getMoney property .METADEX_RESERVE

/-- The order in which a set ordered by `SendToOwners_compare` is walked backwards: the larger
    amount first, then the smaller address. -/
def ReverseOwners (p q : Int × Address) : Prop := q.1 < p.1 ∨ (q.1 = p.1 ∧ ¬ q.2 < p.2)

instance : DecidableRel ReverseOwners := fun p q =>
  inferInstanceAs (Decidable (q.1 < p.1 ∨ (q.1 = p.1 ∧ ¬ q.2 < p.2)))

namespace Ledger

/-- The tallies other than the sender's. -/
def otherTallies (s : Ledger) (sender : Address) : List (Address × CMPTally) :=
  s.mpTallyMap.entries.filter (fun e => e.1 ≠ sender)

/-- `totalTokens`: what the others own together. -/
def stoTotal (s : Ledger) (sender : Address) (property : PropertyId) : Int :=
  ((s.otherTallies sender).map (fun e => e.2.heldTokens property)).sum

/-- `ownerAddrSet`, walked backwards. -/
def stoOwners (s : Ledger) (sender : Address) (property : PropertyId) : List (Int × Address) :=
  (((s.otherTallies sender).map (fun e => (e.2.heldTokens property, e.1))).filter
    (fun owner => 0 < owner.1)).insertionSort ReverseOwners

end Ledger

/-- The loop that splits the amount up; `sentSoFar` has been given away. -/
def stoPieces (amount totalTokens : Int) : Int → List (Int × Address) → Op (List (Int × Address))
  | _, [] => pure []
  | sentSoFar, (tokens, address) :: owners => do
      let owns ← convertTo256 tokens
      let amount256 ← convertTo256 amount
      let total256 ← convertTo256 totalTokens
      let shouldReceive ← convertTo64 (divideAndRoundUp (owns * amount256) total256)
      -- ensure that no more than available is distributed
      let willReallyReceive :=
        if amount - sentSoFar < shouldReceive then amount - sentSoFar else shouldReceive
      if 0 < willReallyReceive then do
        let more ← stoPieces amount totalTokens (sentSoFar + willReallyReceive) owners
        pure ((willReallyReceive, address) :: more)
      else pure []

/-- `STO_GetReceivers`: the receivers, in the order in which they are served. -/
def stoGetReceivers (sender : Address) (property : PropertyId) (amount : Int) :
    Op (List (Int × Address)) := do
  let s ← get
  let pieces ← stoPieces amount (s.stoTotal sender property) 0 (s.stoOwners sender property)
  pure (pieces.insertionSort ReverseOwners)

/-! ## The pieces add up -/

/-- The sum of the amounts of some owners or receivers. -/
def sumAmounts (owners : List (Int × Address)) : Int := (owners.map Prod.fst).sum

@[simp] lemma sumAmounts_nil : sumAmounts [] = 0 := rfl

@[simp] lemma sumAmounts_cons {owner : Int × Address} :
    sumAmounts (owner :: owners) = owner.1 + sumAmounts owners := by
  simp [sumAmounts]

lemma sumAmounts_append : sumAmounts (as ++ bs) = sumAmounts as + sumAmounts bs := by
  simp [sumAmounts]

lemma sumAmounts_perm (h : as.Perm bs) : sumAmounts as = sumAmounts bs :=
  (h.map Prod.fst).sum_eq

/-- What is asked of the loop: the owners own something, and not more than all tokens; what is left
    of the amount does not exceed their share. -/
structure Dividing (amount totalTokens sentSoFar : Int) (owners : List (Int × Address)) : Prop where
  positive : ∀ owner ∈ owners, 0 < owner.1
  bounded : sumAmounts owners ≤ totalTokens
  range : 0 ≤ sentSoFar ∧ sentSoFar ≤ amount ∧ amount ≤ MAX_INT_8_BYTES
  share : (amount - sentSoFar) * totalTokens ≤ sumAmounts owners * amount

lemma sumAmounts_nonneg (h : ∀ owner ∈ owners, 0 < owner.1) : 0 ≤ sumAmounts owners :=
  sum_nonneg (forall_mem_map.mpr (fun owner ho => (h owner ho).le))

lemma Dividing.next {piece : Nat}
    (h : Dividing amount totalTokens sentSoFar ((tokens, address) :: owners))
    (hpiece : tokens * amount ≤ piece * totalTokens)
    (hwill : will = if amount - sentSoFar < piece then amount - sentSoFar else (piece : Int)) :
    Dividing amount totalTokens (sentSoFar + will) owners := by
  have htokens : 0 < tokens := h.positive _ (.head _)
  have hrest : ∀ owner ∈ owners, 0 < owner.1 :=
    (forall_mem_cons.mp h.positive).2
  have hsum := sumAmounts_nonneg hrest
  have hbounded := h.bounded
  have hshare := h.share
  obtain ⟨hsent, hleft, hmax⟩ := h.range
  rw [sumAmounts_cons] at hbounded hshare
  have hamount : 0 ≤ amount := by omega
  refine ⟨hrest, by omega, ?_, ?_⟩
  · split_ifs at hwill <;> omega
  · split_ifs at hwill with hcut
    · -- cut off: nothing is left
      have hzero : amount - (sentSoFar + will) = 0 := by omega
      rw [hzero, zero_mul]
      exact mul_nonneg hsum hamount
    · rw [hwill]
      have hexpand : (amount - (sentSoFar + piece)) * totalTokens
          = (amount - sentSoFar) * totalTokens - piece * totalTokens := by ring
      have hexpand' : (tokens + sumAmounts owners) * amount
          = tokens * amount + sumAmounts owners * amount := by ring
      rw [hexpand]
      rw [hexpand'] at hshare
      omega

/-! ## Who gets how much -/

/-- The share of an owner: the amount in proportion to what is owned, rounded up. -/
def shareOf (amount totalTokens tokens : Int) : Int := ⌈((tokens * amount : Int) : ℚ) / totalTokens⌉

/-- The pieces go to the first owners, in their order; none is more than the owner's share, and all
    but the last are exactly that. -/
def InTurn (amount totalTokens : Int) (owners pieces : List (Int × Address)) : Prop :=
  ∀ i piece, pieces[i]? = some piece → ∃ tokens, owners[i]? = some (tokens, piece.2) ∧
    piece.1 ≤ shareOf amount totalTokens tokens ∧
    (i + 1 < pieces.length → piece.1 = shareOf amount totalTokens tokens)

lemma InTurn.nil (amount totalTokens : Int) (owners : List (Int × Address)) :
    InTurn amount totalTokens owners [] := by
  intro i piece h
  rw [getElem?_nil] at h
  cases h

lemma InTurn.cons {pieces : List (Int × Address)} (h : InTurn amount totalTokens owners pieces)
    (hle : will ≤ shareOf amount totalTokens tokens)
    (heq : pieces ≠ [] → will = shareOf amount totalTokens tokens) :
    InTurn amount totalTokens ((tokens, address) :: owners) ((will, address) :: pieces) := by
  intro i piece hget
  cases i with
  | zero =>
    cases hget
    refine ⟨tokens, rfl, hle, fun hmore => heq ?_⟩
    rintro rfl
    simp at hmore
  | succ i =>
    rw [getElem?_cons_succ] at hget
    obtain ⟨tokens', howner, hle', heq'⟩ := h i piece hget
    refine ⟨tokens', howner, hle', fun hmore => heq' ?_⟩
    rw [length_cons] at hmore
    omega

/-! ## The loop -/

/-- The piece of the next owner: it is the share, and not more than the amount. -/
lemma Dividing.head {owns amount256 total256 : Nat}
    (h : Dividing amount totalTokens sentSoFar ((tokens, address) :: owners))
    (howns : (owns : Int) = tokens) (hamount : (amount256 : Int) = amount)
    (htotal : (total256 : Int) = totalTokens) :
    0 < totalTokens ∧ divideAndRoundUp (owns * amount256) total256 ≤ amount256 ∧
      tokens * amount ≤ (divideAndRoundUp (owns * amount256) total256 : Int) * totalTokens ∧
      shareOf amount totalTokens tokens = divideAndRoundUp (owns * amount256) total256 := by
  have hpos : 0 < tokens := h.positive _ (.head _)
  have hsum := sumAmounts_nonneg (forall_mem_cons.mp h.positive).2
  have hbounded := h.bounded
  rw [sumAmounts_cons] at hbounded
  have htotalPos : 0 < total256 := by omega
  have hle : owns ≤ total256 := by omega
  subst howns hamount htotal
  refine ⟨by omega, (divideAndRoundUp_le_iff htotalPos).mpr ?_, ?_, ?_⟩
  · rw [Nat.mul_comm]
    exact Nat.mul_le_mul_left _ hle
  · exact_mod_cast le_divideAndRoundUp_mul (owns * amount256) htotalPos
  · rw [divideAndRoundUp_eq_ceil htotalPos, shareOf]
    push_cast
    rfl

/-- The loop does not fail and gives away all that is left. -/
lemma stoPieces_ends :
    ∀ {sentSoFar : Int},
      (¬ Dividing amount totalTokens sentSoFar owners → ∀ e, E e) →
      Op.Ends E (stoPieces amount totalTokens sentSoFar owners) s (fun pieces s' =>
        s' = s ∧ (∀ piece ∈ pieces, 0 < piece.1) ∧
        (pieces.map Prod.snd).Sublist (owners.map Prod.snd) ∧
        (Dividing amount totalTokens sentSoFar owners → sumAmounts pieces ≤ amount - sentSoFar ∧
            (owners ≠ [] → sumAmounts pieces = amount - sentSoFar) ∧
            InTurn amount totalTokens owners pieces)) := by
  induction owners with
  | nil =>
    intro sentSoFar _
    refine ends_pure ⟨rfl, fun _ h => absurd h not_mem_nil, .slnil, fun h => ?_⟩
    have := h.range
    exact ⟨by simp; omega, fun h => absurd rfl h, .nil amount totalTokens []⟩
  | cons owner owners ih =>
    obtain ⟨tokens, address⟩ := owner
    intro sentSoFar hE
    -- the four conversions: nothing is negative, and no piece exceeds the amount
    refine ends_bind (convertTo256_ends (fun hneg => hE (fun h => ?_))) ?_
    · have := h.positive _ (.head _)
      omega
    rintro owns _ ⟨rfl, howns⟩
    refine ends_bind (convertTo256_ends (fun hneg => hE (fun h => ?_))) ?_
    · have := h.range
      omega
    rintro amount256 _ ⟨rfl, hamount⟩
    refine ends_bind (convertTo256_ends (fun hneg => hE (fun h => ?_))) ?_
    · have hsum := sumAmounts_nonneg h.positive
      have := h.bounded
      omega
    rintro total256 s ⟨rfl, htotal⟩
    have hhead (h : Dividing amount totalTokens sentSoFar ((tokens, address) :: owners)) :=
      h.head howns hamount htotal
    refine ends_bind (convertTo64_ends (fun hbig => hE (fun h => ?_))) ?_
    · have hle := (hhead h).2.1
      have := h.range
      omega
    rintro shouldReceive s ⟨rfl, hshould, _⟩
    set piece := divideAndRoundUp (owns * amount256) total256
    generalize hwill : (if amount - sentSoFar < shouldReceive then amount - sentSoFar
      else shouldReceive) = will
    rw [hshould] at hwill
    refine ends_ite (fun hpos => ?_) (fun hnone => ?_)
    · refine ends_bind (ih (hE ∘ mt (fun h =>
        h.next (hhead h).2.2.1 hwill.symm))) ?_
      rintro more s' ⟨rfl, hmore, hsub, hsum⟩
      refine ends_pure ⟨rfl, ?_, ?_, fun h => ?_⟩
      · exact forall_mem_cons.mpr ⟨hpos, hmore⟩
      · rw [map_cons, map_cons]
        exact hsub.cons_cons _
      · obtain ⟨htot, -, hcover, hshare⟩ := hhead h
        have hnext := h.next hcover hwill.symm
        obtain ⟨hle, heq, hturn⟩ := hsum hnext
        rw [sumAmounts_cons]
        refine ⟨by simp only; omega, fun _ => ?_, hturn.cons ?_ (fun hmore' => ?_)⟩
        case refine_2 =>
          rw [hshare]
          split_ifs at hwill <;> omega
        case refine_3 =>
          -- if the piece was cut off, nothing is left for the others
          rw [hshare]
          split_ifs at hwill with hcut
          · obtain ⟨first, rest, rfl⟩ := exists_cons_of_ne_nil hmore'
            have hfirst := hmore first (.head _)
            have hrest := sumAmounts_nonneg (forall_mem_cons.mp hmore).2
            rw [sumAmounts_cons] at hle
            omega
          · omega
        cases owners with
        | cons o os =>
          have := heq (cons_ne_nil _ _)
          omega
        | nil =>
          -- the last owner: the share bound leaves nothing over
          have hshare := hnext.share
          rw [sumAmounts_nil, zero_mul] at hshare
          have hrange := hnext.range
          have hleft : amount - (sentSoFar + will) ≤ 0 := by
            by_contra hmoreLeft
            have := mul_pos (not_le.mp hmoreLeft) htot
            omega
          have hnonneg := sumAmounts_nonneg hmore
          omega
    · refine ends_pure ⟨rfl, fun _ h => absurd h not_mem_nil, nil_sublist _, fun h => ?_⟩
      have hrange := h.range
      -- nothing to give: all is given away, or the amount is zero
      have hdone : amount - sentSoFar = 0 := by
        split_ifs at hwill with hcut
        · omega
        · have hzero : piece = 0 := by omega
          have hle := (hhead h).2.2.1
          have hpos : 0 < tokens := h.positive _ (.head _)
          have hamount0 : amount ≤ 0 := by
            by_contra hbig
            have := mul_pos hpos (not_le.mp hbig)
            rw [hzero] at hle
            simp at hle
            omega
          omega
      exact ⟨by simp; omega, fun _ => by simp; omega, .nil amount totalTokens _⟩

/-! ## The receivers -/

/-- The owners other than the sender own together what the loop divides by. -/
lemma Ledger.Nonneg.sum_stoOwners (h : s.Nonneg) (sender : Address) (property : PropertyId) :
    sumAmounts (s.stoOwners sender property) = s.stoTotal sender property := by
  have hheld : ∀ e ∈ s.otherTallies sender, 0 ≤ e.2.heldTokens property := by
    intro e he
    have hmem := (mem_filter.mp he).1
    have hbalance := h.entry (t := .BALANCE) (by decide) property e hmem
    have hsell := h.entry (t := .SELLOFFER_RESERVE) (by decide) property e hmem
    have haccept := h.entry (t := .ACCEPT_RESERVE) (by decide) property e hmem
    have hmetadex := h.entry (t := .METADEX_RESERVE) (by decide) property e hmem
    unfold CMPTally.heldTokens
    omega
  unfold stoOwners stoTotal
  rw [sumAmounts_perm (perm_insertionSort _ _)]
  generalize s.otherTallies sender = tallies at hheld
  induction tallies with
  | nil => rfl
  | cons e es ih =>
    have hrest := ih (forall_mem_cons.mp hheld).2
    rw [map_cons, map_cons, sum_cons, ← hrest]
    by_cases hpos : 0 < e.2.heldTokens property
    · rw [filter_cons_of_pos (by simpa using hpos), sumAmounts_cons]
    · have hzero : e.2.heldTokens property = 0 :=
        le_antisymm (not_lt.mp hpos) (hheld e (.head _))
      rw [filter_cons_of_neg (by simpa using hpos), hzero, zero_add]

lemma Ledger.stoOwners_positive : ∀ owner ∈ s.stoOwners sender property, 0 < owner.1 := by
  intro owner howner
  rw [stoOwners, mem_insertionSort] at howner
  simpa using (mem_filter.mp howner).2

/-- What is asked of `STO_GetReceivers`: no tally is negative, and the amount is one of the
    protocol. -/
structure Divisible (s : Ledger) (amount : Int) : Prop where
  nonneg : s.Nonneg
  range : 0 ≤ amount ∧ amount ≤ MAX_INT_8_BYTES

lemma Divisible.dividing (h : Divisible s amount) (sender : Address) (property : PropertyId) :
    Dividing amount (s.stoTotal sender property) 0 (s.stoOwners sender property) := by
  have hsum := h.nonneg.sum_stoOwners sender property
  refine ⟨stoOwners_positive, le_of_eq hsum, ⟨le_rfl, h.range.1, h.range.2⟩, ?_⟩
  rw [hsum, sub_zero, mul_comm]

/-! ## The owners -/

/-- What an address owns of a property, in all four buckets. -/
def Ledger.held (s : Ledger) (a : Address) (property : PropertyId) : Int :=
  s.money a property .BALANCE + s.money a property .SELLOFFER_RESERVE +
    s.money a property .ACCEPT_RESERVE + s.money a property .METADEX_RESERVE

/-- The owners are the addresses that own something, but the sender. -/
lemma Ledger.mem_stoOwners {a : Address} :
    (tokens, a) ∈ s.stoOwners sender property ↔
      a ≠ sender ∧ s.held a property = tokens ∧ 0 < tokens := by
  rw [stoOwners, mem_insertionSort, mem_filter]
  simp only [mem_map, Prod.mk.injEq, otherTallies, mem_filter, decide_eq_true_eq, ne_eq,
    Prod.exists]
  constructor
  · rintro ⟨⟨address, tally, ⟨hmem, hne⟩, hheld, rfl⟩, hpos⟩
    have hget : s.mpTallyMap.get? address = some tally := StdMap.get?_eq_some_iff.mpr hmem
    refine ⟨hne, ?_, hpos⟩
    unfold held money
    rw [hget, Option.getD_some]
    exact hheld
  · rintro ⟨hne, hheld, hpos⟩
    cases hget : s.mpTallyMap.get? a with
    | none =>
      unfold held money at hheld
      rw [hget, Option.getD_none] at hheld
      simp only [CMPTally.getMoney_empty] at hheld
      omega
    | some tally =>
      unfold held money at hheld
      rw [hget, Option.getD_some] at hheld
      exact ⟨⟨a, tally, ⟨StdMap.get?_eq_some_iff.mp hget, hne⟩, hheld, rfl⟩, hpos⟩

lemma Ledger.nodup_stoOwners (s : Ledger) :
    ((s.stoOwners sender property).map Prod.snd).Nodup := by
  have hperm := (perm_insertionSort ReverseOwners (((s.otherTallies sender).map
    (fun e => (e.2.heldTokens property, e.1))).filter (fun owner => 0 < owner.1))).map Prod.snd
  refine hperm.nodup_iff.mpr ?_
  have hkeys : ((s.otherTallies sender).map
      (fun e => (e.2.heldTokens property, e.1))).map Prod.snd =
        (s.otherTallies sender).map Prod.fst := by
    rw [map_map]
    rfl
  have hnodup : ((s.otherTallies sender).map Prod.fst).Nodup :=
    s.mpTallyMap.nodupKeys.sublist ((filter_sublist).map Prod.fst)
  rw [← hkeys] at hnodup
  exact hnodup.sublist ((filter_sublist).map Prod.snd)

instance : IsTrans (Int × Address) ReverseOwners where
  trans p q r hpq hqr := by
    rcases hpq with hpq | ⟨hpq, hpq'⟩
    · rcases hqr with hqr | ⟨hqr, -⟩
      · exact .inl (by omega)
      · exact .inl (by omega)
    · rcases hqr with hqr | ⟨hqr, hqr'⟩
      · exact .inl (by omega)
      · refine .inr ⟨by omega, ?_⟩
        exact List.not_lt.mpr (List.le_trans (List.not_lt.mp hpq') (List.not_lt.mp hqr'))

instance : Std.Total ReverseOwners where
  total p q := by
    rcases lt_trichotomy p.1 q.1 with hlt | heq | hgt
    · exact .inr (.inl hlt)
    · rcases List.le_total p.2 q.2 with hle | hle
      · exact .inl (.inr ⟨heq.symm, hle⟩)
      · exact .inr (.inr ⟨heq, hle⟩)
    · exact .inl (.inl hgt)

lemma Ledger.stoOwners_decreasing (s : Ledger) :
    (s.stoOwners sender property).Pairwise (fun p q => q.1 ≤ p.1) := by
  refine (pairwise_insertionSort ReverseOwners _).imp (fun h => ?_)
  rcases h with h | h <;> omega

/-- How an amount is divided among the owners of a property: the pieces are positive, go to
    different owners and make up the amount; in the order of the loop, the larger owner first, each
    is the owner's share, but the last one may be less. -/
structure DividedAmong (s : Ledger) (sender : Address) (property : PropertyId) (amount : Int)
    (receivers : List (Int × Address)) : Prop where
  positive : ∀ receiver ∈ receivers, 0 < receiver.1
  distinct : (receivers.map Prod.snd).Nodup
  owners : ∀ receiver ∈ receivers, receiver.2 ≠ sender ∧ 0 < s.held receiver.2 property
  sum : sumAmounts receivers = amount
  inTurn : ∃ pieces, receivers.Perm pieces ∧
    InTurn amount (s.stoTotal sender property) (s.stoOwners sender property) pieces

/-- The receivers get positive pieces of the amount, all of it if there is an owner. -/
lemma stoGetReceivers_ends (hE : ¬ Divisible s amount → ∀ e, E e) :
    Op.Ends E (stoGetReceivers sender property amount) s (fun receivers s' =>
      s' = s ∧ (∀ receiver ∈ receivers, 0 < receiver.1) ∧
      (receivers ≠ [] → s.stoOwners sender property ≠ []) ∧
      (Divisible s amount → sumAmounts receivers ≤ amount ∧
        (s.stoOwners sender property ≠ [] → DividedAmong s sender property amount receivers))) := by
  refine ends_get_bind ?_
  refine ends_bind (stoPieces_ends (hE ∘ mt (fun h => h.dividing sender property))) ?_
  rintro pieces s ⟨rfl, hpos, hsub, hsum⟩
  have hperm := perm_insertionSort ReverseOwners pieces
  have hpositive : ∀ receiver ∈ pieces.insertionSort ReverseOwners, 0 < receiver.1 :=
    fun receiver hr => hpos receiver (hperm.mem_iff.mp hr)
  refine ends_pure ⟨rfl, hpositive, fun hsome hnone => hsome ?_, fun h => ?_⟩
  · rw [hnone, map_nil, sublist_nil, map_eq_nil_iff] at hsub
    rw [hsub, insertionSort_nil]
  obtain ⟨hle, heq, hturn⟩ := hsum (h.dividing sender property)
  rw [sumAmounts_perm hperm]
  rw [sub_zero] at hle heq
  refine ⟨hle, fun howner => ⟨hpositive, ?_, fun receiver hr => ?_, ?_, pieces, hperm, hturn⟩⟩
  · exact (hperm.map Prod.snd).nodup_iff.mpr ((s.nodup_stoOwners).sublist hsub)
  · have haddress := hsub.subset (mem_map_of_mem (hperm.mem_iff.mp hr))
    obtain ⟨⟨tokens, a⟩, hmem, hsame⟩ := mem_map.mp haddress
    obtain ⟨hne, hheld, htokens⟩ := mem_stoOwners.mp hmem
    rw [← hsame]
    exact ⟨hne, hheld ▸ htokens⟩
  · rw [sumAmounts_perm hperm]
    exact heq howner

end Tecracoin.Elysium
