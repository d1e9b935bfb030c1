/-
  The reserves of the exchange for coins.

  `ACCEPT_RESERVE` of a seller is what the open accepts of all buyers still
  reserve, also when the offer they were made on is gone or replaced; and
  `SELLOFFER_RESERVE` is empty without an offer.  Each function of `dex.cpp`
  keeps this, and in such a state none of them fails an assertion on a tally.
-/
import Tecracoin.Elysium.DEx
import Tecracoin.Elysium.Transfer
import Tecracoin.Data.Run

namespace Tecracoin.Elysium

open Data Op StdMap Ledger

variable {amount amountDesired amountOffered amountPaid block blockNow : Int} {accept : CMPAccept}
  {t t' : TallyType} {s s' s'' : Ledger} {terms : OfferTerms}

/-! ## What is reserved -/

/-- What one accept reserves of the tokens `p` of `a`. -/
def pledge (a : Address) (p : PropertyId) (key : AcceptKey) (accept : CMPAccept) : Int :=
  if key.seller = a ∧ key.property = p then accept.acceptAmountRemaining else 0

/-- What the accepts of all buyers reserve of the tokens `p` of `a`. -/
def pledged (accepts : StdMap AcceptKey CMPAccept) (a : Address) (p : PropertyId) : Int :=
  accepts.sum (pledge a p)

section Pledged

variable {accepts : StdMap AcceptKey CMPAccept} {key : AcceptKey} {old : CMPAccept}

lemma pledged_erase (hold : accepts.get? key = some old) (a : Address) (p : PropertyId) :
    pledged (accepts.erase key) a p = pledged accepts a p - pledge a p key old := by
  have hsum := sum_of_get? (pledge a p) hold
  unfold pledged
  omega

lemma pledged_change (hold : accepts.get? key = some old) (new : CMPAccept) (a : Address)
    (p : PropertyId) :
    pledged (accepts.set StdMap.unordered key new) a p
      = pledged accepts a p - pledge a p key old + pledge a p key new := by
  have herase := pledged_erase hold a p
  unfold pledged at herase ⊢
  rw [sum_set, herase]
  omega

/-- No accept reserves more than all of them together. -/
lemma remaining_le_pledged
    (hopen : ∀ key accept, accepts.get? key = some accept → 0 ≤ accept.acceptAmountRemaining)
    (hold : accepts.get? key = some old) :
    old.acceptAmountRemaining ≤ pledged accepts key.seller key.property := by
  have hnonneg : ∀ e ∈ accepts.entries, 0 ≤ pledge key.seller key.property e.1 e.2 := by
    intro e he
    have := hopen e.1 e.2 (get?_eq_some_iff.mpr he)
    unfold pledge
    split_ifs <;> omega
  have hle := le_sum_of_get? hnonneg hold
  rwa [pledge, if_pos ⟨rfl, rfl⟩] at hle

end Pledged

/-- The reserves match the offers and the accepts. -/
structure DExInv (s : Ledger) : Prop where
  sound : Sound s
  accepted : ∀ a p, s.money a p .ACCEPT_RESERVE = pledged s.myAccepts a p
  offered : ∀ a p, s.money a p .SELLOFFER_RESERVE ≠ 0 → s.offerExists a p = true
  remaining : ∀ key accept, s.myAccepts.get? key = some accept → 0 ≤ accept.acceptAmountRemaining

/-- Only tallies, offers and accepts may have changed. -/
structure DExOnly (s s' : Ledger) : Prop where
  rest : s' = { s with
    mpTallyMap := s'.mpTallyMap
    myOffers := s'.myOffers
    myAccepts := s'.myAccepts }

/-- What a function of `dex.cpp` does. -/
structure DExDone (s s' : Ledger) : Prop where
  only : DExOnly s s'
  inv : DExInv s → DExInv s'

namespace DExOnly

lemma refl (s : Ledger) : DExOnly s s := ⟨rfl⟩

lemma trans (h : DExOnly s s') (h' : DExOnly s' s'') : DExOnly s s'' where
  rest := by rw [h'.rest, h.rest]

lemma isAddressFrozen (h : DExOnly s s') (a : Address) (p : PropertyId) :
    s'.isAddressFrozen a p = s.isAddressFrozen a p := by
  rw [h.rest]
  rfl

end DExOnly

namespace DExDone

lemma refl (s : Ledger) : DExDone s s := ⟨.refl s, fun h => h⟩

lemma trans (h : DExDone s s') (h' : DExDone s' s'') : DExDone s s'' :=
  ⟨h.only.trans h'.only, fun hs => h'.inv (h.inv hs)⟩

end DExDone

lemma Transferred.zero (p : PropertyId) (a a' : Address) (t t' : TallyType) (s : Ledger) :
    Transferred p 0 a t a' t' s s where
  money b q u := by split_ifs <;> omega
  total _ := rfl
  sound hs := hs
  rest := rfl

/-! ## How the invariant is kept -/

variable {seller buyer : Address} {p : PropertyId}

section Keeps

variable {s1 : Ledger} {x : Int}

section

variable (h : DExInv s)
include h

/-- Offers change along with tokens that no accept reserves. -/
lemma DExInv.of_offers (hmoved : Transferred p x seller t buyer t' s s1)
    (ht : .ACCEPT_RESERVE ≠ t) (ht' : .ACCEPT_RESERVE ≠ t') {offers : StdMap OfferKey CMPOffer}
    (hoffered : ∀ a q, s1.money a q .SELLOFFER_RESERVE ≠ 0 → (offers.get? ⟨a, q⟩).isSome = true) :
    DExInv { s1 with myOffers := offers } := by
  have hsound := hmoved.sound h.sound
  have haccepts : ({ s1 with myOffers := offers } : Ledger).myAccepts = s.myAccepts :=
    hmoved.myAccepts
  refine ⟨⟨hsound.nonneg, hsound.cached, hsound.capped⟩, fun a q => ?_, hoffered, ?_⟩
  · rw [haccepts, ← h.accepted]
    exact hmoved.other a q ht ht'
  · rw [haccepts]
    exact h.remaining

/-- Accepts change along with the tokens they reserve. -/
lemma DExInv.of_accepts (hmoved : Transferred p x seller t buyer t' s s1)
    {accepts : StdMap AcceptKey CMPAccept}
    (haccepted : ∀ a q, s1.money a q .ACCEPT_RESERVE = pledged accepts a q)
    (hoffered : ∀ a q, s1.money a q .SELLOFFER_RESERVE ≠ 0 → s.offerExists a q = true)
    (hopen : ∀ key accept, accepts.get? key = some accept → 0 ≤ accept.acceptAmountRemaining) :
    DExInv { s1 with myAccepts := accepts } := by
  have hsound := hmoved.sound h.sound
  refine ⟨⟨hsound.nonneg, hsound.cached, hsound.capped⟩, haccepted, fun a q hreserve => ?_, hopen⟩
  rw [hmoved.myOffers]
  exact hoffered a q hreserve

/-- Tokens are put behind an offer. -/
lemma DExInv.placed
    (hmoved : Transferred p x seller .BALANCE seller .SELLOFFER_RESERVE s s1) (offer : CMPOffer) :
    DExInv (s1.withOffer ⟨seller, p⟩ offer) := by
  refine h.of_offers hmoved (by decide) (by decide) (fun a q hreserve => ?_)
  by_cases hkey : (⟨a, q⟩ : OfferKey) = ⟨seller, p⟩
  · rw [hkey, get?_insert_self, Option.isSome_some]
  · rw [get?_insert_of_ne hkey, hmoved.myOffers]
    refine h.offered a q ?_
    have hother : ¬ (a = seller ∧ q = p) := fun hsame => hkey (by rw [hsame.1, hsame.2])
    have hmoney : s1.money a q .SELLOFFER_RESERVE = s.money a q .SELLOFFER_RESERVE := by
      rw [hmoved.money, if_neg (fun hc => hother ⟨hc.1, hc.2.1⟩),
        if_neg (fun hc => hother ⟨hc.1, hc.2.1⟩)]
      omega
    rw [← hmoney]
    exact hreserve

/-- What is left behind an offer goes back, and the offer goes. -/
lemma DExInv.withdrawn (hmoved : Transferred p
      (max (s.money seller p .SELLOFFER_RESERVE) 0) seller .SELLOFFER_RESERVE seller .BALANCE
      s s1) :
    DExInv (s1.withoutOffer ⟨seller, p⟩) := by
  have hnonneg := h.sound.nonneg seller p .SELLOFFER_RESERVE (by decide)
  rw [max_eq_left hnonneg] at hmoved
  refine h.of_offers hmoved (by decide) (by decide) (fun a q hreserve => ?_)
  have hmoney := hmoved.money a q .SELLOFFER_RESERVE
  simp only [reduceCtorEq, and_false, and_true, if_false] at hmoney
  by_cases hsame : a = seller ∧ q = p
  · obtain ⟨rfl, rfl⟩ := hsame
    simp only [and_self, if_true] at hmoney
    omega
  · rw [if_neg hsame] at hmoney
    have hkey : (⟨a, q⟩ : OfferKey) ≠ ⟨seller, p⟩ := fun hc => hsame (OfferKey.mk.inj hc)
    rw [get?_erase_of_ne hkey, hmoved.myOffers]
    exact h.offered a q (by omega)

/-- A buyer reserves a part of what is offered. -/
lemma DExInv.reserved (hx : 0 ≤ x)
    (hmoved : Transferred p x seller .SELLOFFER_RESERVE seller .ACCEPT_RESERVE s s1)
    (hoffer : s.offerExists seller p = true) (habsent : s.myAccepts.get? ⟨seller, p, buyer⟩ = none)
    (haccept : accept.acceptAmountRemaining = x) :
    DExInv (s1.withAccept ⟨seller, p, buyer⟩ accept) := by
  rw [withAccept, hmoved.myAccepts]
  refine h.of_accepts hmoved (fun a q => ?_) (fun a q hreserve => ?_)
    (forall_insert h.remaining (haccept ▸ hx))
  · have hmoney := hmoved.money a q .ACCEPT_RESERVE
    simp only [reduceCtorEq, and_false, and_true, if_false] at hmoney
    rw [pledged, sum_insert_of_none habsent, pledge, haccept]
    refine hmoney.trans ?_
    rw [h.accepted, pledged]
    simp only [eq_comm, sub_zero, add_comm]
  · by_cases hkey : a = seller ∧ q = p
    · rw [hkey.1, hkey.2]
      exact hoffer
    · have hmoney := hmoved.money a q .SELLOFFER_RESERVE
      simp only [reduceCtorEq, and_false, and_true, if_false, if_neg hkey] at hmoney
      exact h.offered a q (by omega)

end

lemma acceptReturn_cases (offer : Option CMPOffer) (accept : CMPAccept) :
    acceptReturn offer accept = .BALANCE ∨
      acceptReturn offer accept = .SELLOFFER_RESERVE ∧ offer.isSome = true := by
  cases offer with
  | none => exact .inl rfl
  | some offer =>
    by_cases hsame : offer.txid = accept.offerTxid
    · exact .inr ⟨if_pos hsame, rfl⟩
    · exact .inl (if_neg hsame)

/-- The rest of an accept goes back, and the accept goes. -/
lemma DExInv.returned (h : DExInv s) {key : AcceptKey} (hget : s.myAccepts.get? key = some accept)
    (hmoved : Transferred key.property (max accept.acceptAmountRemaining 0) key.seller
      .ACCEPT_RESERVE key.seller (acceptReturn (s.getOffer key.seller key.property) accept) s s1) :
    DExInv (s1.withoutAccept key) := by
  rw [max_eq_left (h.remaining key accept hget)] at hmoved
  have htarget := acceptReturn_cases (s.getOffer key.seller key.property) accept
  rw [withoutAccept, hmoved.myAccepts]
  refine h.of_accepts hmoved (fun a q => ?_) (fun a q hreserve => ?_) (forall_erase h.remaining)
  · have hmoney := hmoved.money a q .ACCEPT_RESERVE
    have hnot : TallyType.ACCEPT_RESERVE ≠
        acceptReturn (s.getOffer key.seller key.property) accept := by
      rcases htarget with htarget | ⟨htarget, _⟩ <;> rw [htarget] <;> decide
    simp only [hnot, and_false, and_true, if_false, add_zero] at hmoney
    have haccepts := pledged_erase hget a q
    rw [pledge] at haccepts
    rw [haccepts, ← h.accepted]
    refine hmoney.trans ?_
    simp only [eq_comm]
  · have hmoney := hmoved.money a q .SELLOFFER_RESERVE
    simp only [reduceCtorEq, and_false, if_false, sub_zero] at hmoney
    by_cases hback : a = key.seller ∧ q = key.property ∧
        TallyType.SELLOFFER_RESERVE = acceptReturn (s.getOffer key.seller key.property) accept
    · obtain ⟨rfl, rfl, hsell⟩ := hback
      rcases htarget with htarget | ⟨_, hoffer⟩
      · rw [htarget] at hsell
        cases hsell
      · exact hoffer
    · rw [if_neg hback] at hmoney
      exact h.offered a q (by omega)

/-- A buyer gets a part of what is reserved. -/
lemma DExInv.paid (h : DExInv s) (hget : s.myAccepts.get? ⟨seller, p, buyer⟩ = some accept)
    (hmost : x ≤ accept.acceptAmountRemaining)
    (hmoved : Transferred p x seller .ACCEPT_RESERVE buyer .BALANCE s s1) :
    DExInv (s1.changeAccept ⟨seller, p, buyer⟩
      { accept with acceptAmountRemaining := accept.acceptAmountRemaining - x }) := by
  rw [changeAccept, hmoved.myAccepts]
  refine h.of_accepts hmoved (fun a q => ?_) (fun a q hreserve => ?_) (forall_set h.remaining ?_)
  · have hmoney := hmoved.money a q .ACCEPT_RESERVE
    simp only [reduceCtorEq, and_false, and_true, if_false, add_zero] at hmoney
    have haccepts := pledged_change hget
      { accept with acceptAmountRemaining := accept.acceptAmountRemaining - x } a q
    unfold pledge at haccepts
    rw [haccepts, ← h.accepted]
    refine hmoney.trans ?_
    simp only [eq_comm]
    split_ifs <;> omega
  · rw [hmoved.other a q (u := .SELLOFFER_RESERVE) (by decide) (by decide)] at hreserve
    exact h.offered a q hreserve
  · dsimp only
    omega

end Keeps

section Functions

variable {E : Abort → Prop} {env : Env}

/-- A transfer that is left out if there is nothing to move. -/
lemma transfer_when_ends (ht : t ≠ .PENDING)
    (ht' : t' ≠ .PENDING) (hE : ¬ (0 < amount → CanTransfer p amount seller t s) → ∀ e, E e) :
    Op.Ends E (Op.when (decide (0 < amount))
        (do assertTally seller p (-amount) t; assertTally buyer p amount t')) s
      (fun _ s' => Transferred p (max amount 0) seller t buyer t' s s') := by
  refine ends_when (fun hpos => ?_) (fun hnot => ?_)
  · have hpos' := of_decide_eq_true hpos
    rw [max_eq_left (le_of_lt hpos')]
    exact transfer_ends ht ht' (hE ∘ mt (fun h => h hpos'))
  · rw [max_eq_right (not_lt.mp (of_decide_eq_false hnot))]
    exact .zero p seller buyer t t' s

/-! ## Offers -/

lemma dexOfferCreate_ends (hE : ¬ (Sound s ∧ s.isAddressFrozen seller p = false) → ∀ e, E e) :
    Op.Ends E (dexOfferCreate env seller p terms) s (fun _ s' => DExDone s s') := by
  refine ends_ite (fun _ => ends_pure (.refl s)) (fun _ => ?_)
  refine ends_ite (fun _ => ends_pure (.refl s)) (fun _ => ?_)
  refine ends_get_bind ?_
  refine ends_ite (fun _ => ends_pure (.refl s)) (fun _ => ?_)
  refine ends_ite (fun _ => ends_pure (.refl s)) (fun _ => ?_)
  refine ends_ite (fun hpos => ?_) (fun _ => ends_pure (.refl s))
  have hhas : (adjustedOffer env terms.amountOffered terms.amountDesired
      (s.getMPbalance seller p .BALANCE)).1 ≤ s.money seller p .BALANCE := by
    rw [getMPbalance_balance, adjustedOffer]
    split_ifs with hless
    · exact le_rfl
    · exact not_lt.mp hless
  refine ends_bind (transfer_ends (by decide) (by decide)
    (hE ∘ mt (fun h => ⟨h.1, hpos, hhas, fun _ => h.2⟩))) (fun _ s1 hmoved => ?_)
  refine ends_modify_bind (ends_pure ⟨⟨?_⟩, fun hinv => hinv.placed hmoved _⟩)
  rw [withOffer, hmoved.rest]

lemma dexOfferDestroy_ends (hE : ¬ Sound s → ∀ e, E e) :
    Op.Ends E (dexOfferDestroy seller p) s (fun _ s' => DExDone s s') := by
  refine ends_get_bind ?_
  refine ends_ite (fun _ => ends_pure (.refl s)) (fun _ => ?_)
  rw [getMPbalance_selloffer]
  refine ends_bind (transfer_when_ends (by decide) (by decide) (hE ∘ mt (fun h =>
    fun hpos => ⟨h, hpos, le_rfl, nofun⟩))) (fun _ s1 hmoved => ?_)
  refine ends_modify_bind (ends_pure ⟨⟨?_⟩, fun hinv => hinv.withdrawn hmoved⟩)
  rw [withoutOffer, hmoved.rest]

lemma dexOfferUpdate_ends (hE : ¬ (DExInv s ∧ s.isAddressFrozen seller p = false) → ∀ e, E e) :
    Op.Ends E (dexOfferUpdate env seller p terms) s (fun _ s' => DExDone s s') := by
  refine ends_get_bind ?_
  refine ends_ite (fun _ => ends_pure (.refl s)) (fun _ => ?_)
  refine ends_bind (dexOfferDestroy_ends (hE ∘ mt (fun h => h.1.sound))) (fun rc s1 hdone => ?_)
  refine ends_ite (fun _ => ?_) (fun _ => ends_pure hdone)
  refine (dexOfferCreate_ends (hE ∘ mt (fun h => ⟨(hdone.inv h.1).sound, ?_⟩))).post
    (fun _ s' hcreated => hdone.trans hcreated)
  rw [hdone.only.isAddressFrozen]
  exact h.2

/-! ## Accepts -/

lemma dexAcceptCreate_ends {amountAccepted feePaid : Int} (hE : ¬ Sound s → ∀ e, E e) :
    Op.Ends E (dexAcceptCreate buyer seller p amountAccepted block feePaid) s
      (fun _ s' => DExDone s s') := by
  refine ends_get_bind ?_
  cases hoffer : s.getOffer seller p with
  | none => exact ends_pure (.refl s)
  | some offer =>
    refine ends_ite (fun _ => ends_pure (.refl s)) (fun hfree => ?_)
    refine ends_ite (fun _ => ends_pure (.refl s)) (fun _ => ?_)
    refine ends_ite (fun hpos => ?_) (fun _ => ends_pure (.refl s))
    have hhas : reservable (s.getMPbalance seller p .SELLOFFER_RESERVE) amountAccepted
        ≤ s.money seller p .SELLOFFER_RESERVE := by
      rw [getMPbalance_selloffer, reservable]
      split_ifs with hless
      · exact hless
      · exact le_rfl
    refine ends_bind (transfer_ends (by decide) (by decide) (hE ∘ mt (fun h =>
      ⟨h, hpos, hhas, nofun⟩))) (fun _ s1 hmoved => ?_)
    refine ends_modify_bind (ends_pure ⟨⟨?_⟩, fun hinv => ?_⟩)
    · rw [withAccept, hmoved.rest]
    · refine hinv.reserved (le_of_lt hpos) hmoved ?_ ?_ rfl
      · rw [offerExists, hoffer, Option.isSome_some]
      · rwa [Bool.not_eq_true, acceptExists, Option.isSome_eq_false_iff,
          Option.isNone_iff_eq_none] at hfree

/-- The rest of an accept goes back; the accept itself goes only if asked. -/
lemma dexAcceptDestroy_ends {fForceErase : Bool} (hE : ¬ DExInv s → ∀ e, E e) :
    Op.Ends E (dexAcceptDestroy buyer seller p fForceErase) s (fun _ s' =>
      match s.getAccept seller p buyer with
      | none => s' = s
      | some accept => ∃ s1, Transferred p (max accept.acceptAmountRemaining 0) seller
          .ACCEPT_RESERVE seller (acceptReturn (s.getOffer seller p) accept) s s1 ∧
        s' = if fForceErase then s1.withoutAccept ⟨seller, p, buyer⟩ else s1) := by
  refine ends_get_bind ?_
  cases hget : s.getAccept seller p buyer with
  | none => exact ends_pure rfl
  | some accept =>
    have htarget : acceptReturn (s.getOffer seller p) accept ≠ .PENDING := by
      rcases acceptReturn_cases (s.getOffer seller p) accept with h | ⟨h, _⟩ <;> rw [h] <;> decide
    refine ends_bind (transfer_when_ends (by decide) htarget (hE ∘ mt (fun h =>
      fun hpos => ⟨h.sound, hpos, ?_, nofun⟩))) (fun _ s1 hmoved => ?_)
    · rw [h.accepted]
      exact remaining_le_pledged h.remaining hget
    · cases fForceErase with
      | true => exact ⟨s1, hmoved, rfl⟩
      | false => exact ⟨s1, hmoved, rfl⟩

lemma dexAcceptDestroy_erase_ends (hE : ¬ DExInv s → ∀ e, E e) :
    Op.Ends E (dexAcceptDestroy buyer seller p true) s (fun _ s' => DExDone s s') := by
  refine (dexAcceptDestroy_ends hE).post (fun _ s' h => ?_)
  cases hget : s.getAccept seller p buyer with
  | none =>
    rw [hget] at h
    rw [h]
    exact .refl s
  | some accept =>
    rw [hget] at h
    obtain ⟨s1, hmoved, rfl⟩ := h
    refine ⟨⟨?_⟩, fun hinv => hinv.returned hget hmoved⟩
    rw [if_pos rfl, withoutAccept, hmoved.rest]

/-! ## Payments -/

/-- The assertions of `ConvertTo256` and `ConvertTo64`. -/
def ConversionStops (e : Abort) : Prop :=
  e = .asserts "number >= 0" ∨ e = .asserts "number <= uint256_const::max_int64"

lemma calculateDExPurchase_ends (hE : ∀ e, ConversionStops e → E e) :
    Op.Ends E (calculateDExPurchase amountOffered amountDesired amountPaid) s
      (fun purchased s' => s' = s ∧ 0 ≤ purchased) := by
  have hconvert (number : Int) : Op.Ends E (convertTo256 number) s (fun _ s' => s' = s) := by
    exact ends_ensure_bind (fun _ => hE _ (.inl rfl)) (fun _ => ends_pure rfl)
  refine ends_bind (hconvert amountOffered) ?_
  rintro offered s' rfl
  refine ends_bind (hconvert amountDesired) ?_
  rintro desired s' rfl
  refine ends_bind (hconvert amountPaid) ?_
  rintro paid s' rfl
  exact ends_ensure_bind (fun _ => hE _ (.inr rfl)) (fun _ => ends_pure ⟨rfl, Int.natCast_nonneg _⟩)

lemma dexPurchase_ends (hE : ∀ e, ConversionStops e → E e) :
    Op.Ends E (dexPurchase env amountOffered amountDesired amountPaid block) s
      (fun purchased s' => s' = s ∧
        (env.isFeatureActivated .FEATURE_DEXMATH block = true → 0 ≤ purchased)) := by
  refine ends_ite (fun _ => ?_) (fun hlegacy => ends_pure ⟨rfl, fun hmath => absurd hmath hlegacy⟩)
  exact (calculateDExPurchase_ends hE).post (fun _ _ h => ⟨h.1, fun _ => h.2⟩)

lemma closeAccept_ends (hE : ¬ DExInv s → ∀ e, E e) :
    Op.Ends E (closeAccept buyer seller p) s (fun _ s' => DExDone s s') := by
  refine ends_get_bind ?_
  refine ends_bind (dexAcceptDestroy_erase_ends hE) (fun _ s1 hdone => ?_)
  refine ends_when (fun _ => ?_) (fun _ => hdone)
  refine ends_bind (dexOfferDestroy_ends (hE ∘ mt (fun h => (hdone.inv h).sound)))
    (fun _ s2 hdestroyed => ?_)
  exact ends_pure (hdone.trans hdestroyed)

lemma paidAccept_eq_some (h : s.paidAccept seller buyer = some (p, accept)) :
    s.getAccept seller p buyer = some accept := by
  unfold paidAccept at h
  split at h
  · case h_1 hmain =>
      obtain ⟨rfl, rfl⟩ := Prod.mk.inj (Option.some.inj h)
      exact hmain
  · obtain ⟨test, htest, heq⟩ := Option.map_eq_some_iff.mp h
    obtain ⟨rfl, rfl⟩ := Prod.mk.inj heq
    exact htest

lemma dexPayment_ends
    (hE : ∀ e, (env.isFeatureActivated .FEATURE_DEXMATH block = true → DExInv s →
      ConversionStops e) → E e) :
    Op.Ends E (dexPayment env seller buyer amountPaid block) s (fun _ s' => DExOnly s s' ∧
      (env.isFeatureActivated .FEATURE_DEXMATH block = true → DExInv s → DExInv s')) := by
  refine ends_get_bind ?_
  cases hpaid : s.paidAccept seller buyer with
  | none => exact ends_pure ⟨.refl s, fun _ h => h⟩
  | some found =>
    obtain ⟨p, accept⟩ := found
    have hget := paidAccept_eq_some hpaid
    refine ends_ite (fun _ => ends_pure ⟨.refl s, fun _ h => h⟩) (fun _ => ?_)
    refine ends_bind (dexPurchase_ends (fun e he => hE e (fun _ _ => he))) ?_
    rintro purchased s' ⟨rfl, hpurchased⟩
    -- nothing is moved if nothing is bought
    have hhas (h : DExInv s') : min accept.acceptAmountRemaining purchased
        ≤ s'.money seller p .ACCEPT_RESERVE := by
      rw [h.accepted]
      exact (min_le_left _ _).trans (remaining_le_pledged h.remaining hget)
    refine ends_bind (transfer_when_ends (by decide) (by decide) (fun hcannot e => hE e (fun _ h =>
      absurd (fun hpos => ⟨h.sound, hpos, hhas h, nofun⟩) hcannot)))
      (fun _ s1 hmoved => ?_)
    refine ends_modify_bind ?_
    have honly (next : CMPAccept) : DExOnly s' (s1.changeAccept ⟨seller, p, buyer⟩ next) := by
      refine ⟨?_⟩
      rw [changeAccept, hmoved.rest]
    have hinv (hmath : env.isFeatureActivated .FEATURE_DEXMATH block = true) (h : DExInv s') :
        DExInv (s1.changeAccept ⟨seller, p, buyer⟩ { accept with
          acceptAmountRemaining := accept.acceptAmountRemaining
            - min accept.acceptAmountRemaining purchased }) := by
      have hbought : 0 ≤ min accept.acceptAmountRemaining purchased :=
        le_min (h.remaining _ _ hget) (hpurchased hmath)
      rw [max_eq_left hbought] at hmoved
      exact h.paid hget (min_le_left _ _) hmoved
    refine ends_bind (Q := fun _ s2 => DExOnly s' s2 ∧
      (env.isFeatureActivated .FEATURE_DEXMATH block = true → DExInv s' → DExInv s2))
      (ends_when (fun _ => ?_) (fun _ => ⟨honly _, hinv⟩)) (fun _ _ h => ends_pure h)
    exact (closeAccept_ends (fun hnot e => hE e (fun hmath h => absurd (hinv hmath h) hnot))).post
      (fun _ s2 hclosed =>
        ⟨(honly _).trans hclosed.only, fun hmath h => hclosed.inv (hinv hmath h)⟩)

/-! ## Expiry -/

/-- The loop looks at accepts that are still there when their turn comes. -/
lemma eraseAccepts_ends {accepts : List (AcceptKey × CMPAccept)}
    (hthere : ∀ e ∈ accepts, s.myAccepts.get? e.1 = some e.2)
    (hnodup : (accepts.map Prod.fst).Nodup) (hE : ¬ DExInv s → ∀ e, E e) :
    Op.Ends E (eraseAccepts blockNow accepts) s (fun _ s' => DExDone s s') := by
  induction accepts generalizing s with
  | nil => exact ends_pure (.refl s)
  | cons e accepts ih =>
    obtain ⟨key, accept⟩ := e
    have hget : s.getAccept key.seller key.property key.buyer = some accept :=
      hthere (key, accept) (.head _)
    rw [List.map_cons, List.nodup_cons] at hnodup
    refine ends_ite (fun _ => ?_) (fun _ => ?_)
    · refine ends_bind (dexAcceptDestroy_ends hE) (fun _ s1 hdestroyed => ?_)
      rw [hget] at hdestroyed
      obtain ⟨s1, hmoved, rfl⟩ := hdestroyed
      refine ends_modify_bind ?_
      have hdone : DExDone s (s1.withoutAccept key) := by
        refine ⟨⟨?_⟩, fun hinv => hinv.returned (hthere _ (.head _)) hmoved⟩
        rw [withoutAccept, hmoved.rest]
      refine ends_bind (ih (fun e he => ?_) hnodup.2 (hE ∘ mt hdone.inv))
        (fun _ s' hrest => ends_pure (hdone.trans hrest))
      have hother : e.1 ≠ key := by
        intro heq
        have hmem : e.1 ∈ accepts.map Prod.fst := List.mem_map_of_mem he
        rw [heq] at hmem
        exact hnodup.1 hmem
      unfold withoutAccept
      rw [get?_erase_of_ne hother, hmoved.myAccepts]
      exact hthere e (.tail _ he)
    · exact ih (List.forall_mem_cons.mp hthere).2 hnodup.2 hE

lemma eraseExpiredAccepts_ends (hE : ¬ DExInv s → ∀ e, E e) :
    Op.Ends E (eraseExpiredAccepts blockNow) s (fun _ s' => DExDone s s') :=
  ends_get_bind (eraseAccepts_ends (fun _ he => get?_eq_some_iff.mpr he) s.myAccepts.nodupKeys hE)

end Functions

/-! ## Whole runs -/

/-- The calls of `dex.cpp`, and anything that leaves its state alone. -/
inductive DExCall
  | offerCreate (env : Env) (seller : Address) (p : PropertyId) (terms : OfferTerms)
  | offerUpdate (env : Env) (seller : Address) (p : PropertyId) (terms : OfferTerms)
  | offerDestroy (seller : Address) (p : PropertyId)
  | acceptCreate (buyer seller : Address) (p : PropertyId) (amountAccepted block feePaid : Int)
  | payment (env : Env) (seller buyer : Address) (amountPaid block : Int)
  | expire (blockNow : Int)
  | other (next : Ledger)

namespace DExCall

/-- What a call does; its answer is dropped. -/
def run : DExCall → Op Unit
  | offerCreate env seller p terms => do
      let _ ← dexOfferCreate env seller p terms
  | offerUpdate env seller p terms => do
      let _ ← dexOfferUpdate env seller p terms
  | offerDestroy seller p => do
      let _ ← dexOfferDestroy seller p
  | acceptCreate buyer seller p amountAccepted block feePaid => do
      let _ ← dexAcceptCreate buyer seller p amountAccepted block feePaid
  | payment env seller buyer amountPaid block => do
      let _ ← dexPayment env seller buyer amountPaid block
  | expire blockNow => do
      let _ ← eraseExpiredAccepts blockNow
  | other next => set next

def step (c : DExCall) (s : Ledger) : Option Ledger :=
  match c.run s with
  | .ok (_, s') => some s'
  | .error _ => none

/-- A seller whose tokens are frozen cannot get as far as an offer; payments use the integer math;
    what else happens leaves offers, accepts and their reserves alone. -/
def allowed : DExCall → Ledger → Prop
  | offerCreate _ seller p _, s => s.isAddressFrozen seller p = false
  | offerUpdate _ seller p _, s => s.isAddressFrozen seller p = false
  | payment env _ _ _ block, _ => env.isFeatureActivated .FEATURE_DEXMATH block = true
  | other next, s => Sound next ∧ next.myOffers = s.myOffers ∧ next.myAccepts = s.myAccepts ∧
      (∀ a p, next.money a p .SELLOFFER_RESERVE = s.money a p .SELLOFFER_RESERVE) ∧
      (∀ a p, next.money a p .ACCEPT_RESERVE = s.money a p .ACCEPT_RESERVE)
  | _, _ => True

/-- In a state that matches no call is stopped by a tally, and the next state matches. -/
lemma run_ends {c : DExCall} (h : DExInv s) (hallowed : c.allowed s) :
    Op.Ends ConversionStops c.run s (fun _ s' => DExInv s') := by
  cases c with
  | offerCreate env seller p terms =>
    exact ends_bind (dexOfferCreate_ends (fun hnot => absurd ⟨h.sound, hallowed⟩ hnot))
      (fun _ s' hdone => ends_pure (hdone.inv h))
  | offerUpdate env seller p terms =>
    exact ends_bind (dexOfferUpdate_ends (fun hnot => absurd ⟨h, hallowed⟩ hnot))
      (fun _ s' hdone => ends_pure (hdone.inv h))
  | offerDestroy seller p =>
    exact ends_bind (dexOfferDestroy_ends (absurd h.sound))
      (fun _ s' hdone => ends_pure (hdone.inv h))
  | acceptCreate buyer seller p amountAccepted block feePaid =>
    exact ends_bind (dexAcceptCreate_ends (absurd h.sound))
      (fun _ s' hdone => ends_pure (hdone.inv h))
  | payment env seller buyer amountPaid block =>
    exact ends_bind (dexPayment_ends (fun e he => he hallowed h))
      (fun _ s' hdone => ends_pure (hdone.2 hallowed h))
  | expire blockNow =>
    exact ends_bind (eraseExpiredAccepts_ends (absurd h))
      (fun _ s' hdone => ends_pure (hdone.inv h))
  | other next =>
    -- the rest of the system leaves offers, accepts and reserves alone
    obtain ⟨hsound, hoffers, haccepts, hsell, haccept⟩ := hallowed
    have hinv : DExInv next := by
      refine ⟨hsound, fun a p => ?_, fun a p hreserve => ?_, ?_⟩
      · rw [haccept, haccepts]
        exact h.accepted a p
      · rw [hsell] at hreserve
        rw [offerExists, getOffer, hoffers]
        exact h.offered a p hreserve
      · rw [haccepts]
        exact h.remaining
    exact hinv

/-- Nothing is offered. -/
structure Opening (s : Ledger) : Prop where
  sound : Sound s
  accepts : s.myAccepts = .empty
  sell : ∀ a p, s.money a p .SELLOFFER_RESERVE = 0
  accept : ∀ a p, s.money a p .ACCEPT_RESERVE = 0

lemma Opening.inv (h : Opening s) : DExInv s where
  sound := h.sound
  accepted a p := by
    rw [h.accept, h.accepts]
    rfl
  offered a p hreserve := absurd (h.sell a p) hreserve
  remaining key accept hget := by
    rw [h.accepts] at hget
    cases hget

/-- In every state of a run what is reserved for accepts is what the open accepts of all buyers
    still reserve, tokens are held for an offer only if there is one, and the next call is not
    stopped by a tally. -/
theorem reserves_match_offers {s0 s : Ledger} (hstart : Opening s0)
    (hrun : Reaches step allowed s0 s) :
    (∀ seller p, s.money seller p .ACCEPT_RESERVE = pledged s.myAccepts seller p) ∧
      (∀ seller p, s.money seller p .SELLOFFER_RESERVE ≠ 0 → s.offerExists seller p = true) ∧
      (∀ c e, allowed c s → c.run s = .error e → ConversionStops e) := by
  have hinv : DExInv s := by
    refine hrun.invariant hstart.inv (fun c t u h hallowed hstep => ?_)
    have hends := run_ends h hallowed
    unfold step at hstep
    split at hstep
    · case h_1 hr =>
        cases hstep
        exact hends.of_ok hr
    · cases hstep
  exact ⟨hinv.accepted, hinv.offered,
    fun c e hallowed herror => (run_ends hinv hallowed).of_error herror⟩

/-- A seller with 10 tokens. -/
def sampleLedger : Ledger := (cleared []).updated ['A'] 1 10 .BALANCE

lemma sampleLedger_opening : Opening sampleLedger where
  sound := (Sound.cleared []).credited (by decide) (by decide) (by decide)
  accepts := rfl
  sell a p := by
    unfold sampleLedger
    rw [money_updated_eq]
    simp only [reduceCtorEq, and_false, if_false]
    rfl
  accept a p := by
    unfold sampleLedger
    rw [money_updated_eq]
    simp only [reduceCtorEq, and_false, if_false]
    rfl

/-- An offer of 10 tokens, an accept of 4 of them, the offer replaced by one of
    5 tokens, an accept of 2 of these, and a payment for a part of the first
    accept. -/
def sampleCalls : List DExCall :=
  [.offerCreate .quiet ['A'] 1 ⟨10, 1, 20, 0, 10, 7⟩,
    .acceptCreate ['B'] ['A'] 1 4 2 0,
    .offerUpdate .quiet ['A'] 1 ⟨5, 3, 20, 0, 10, 8⟩,
    .acceptCreate ['C'] ['A'] 1 2 4 0,
    .payment .quiet ['A'] ['B'] 6 5]

/-- A test for calls that are allowed. -/
def admits : DExCall → Ledger → Bool
  | offerCreate _ seller p _, s => !s.isAddressFrozen seller p
  | offerUpdate _ seller p _, s => !s.isAddressFrozen seller p
  | payment env _ _ _ block, _ => env.isFeatureActivated .FEATURE_DEXMATH block
  | other _, _ => false
  | _, _ => true

lemma allowed_of_admits (c : DExCall) (s : Ledger) (h : admits c s = true) : allowed c s := by
  cases c with
  | offerCreate | offerUpdate => simpa [admits, allowed] using h
  | payment env seller buyer amountPaid block => exact h
  | other next => cases h
  | _ => trivial

theorem reserves_match_offers_replaced :
    ∃ s, Reaches step allowed sampleLedger s ∧
      s.money ['A'] 1 .ACCEPT_RESERVE = 3 ∧ pledged s.myAccepts ['A'] 1 = 3 := by
  have hsome : (runTested step admits sampleCalls sampleLedger).isSome = true := by decide +kernel
  obtain ⟨s, hs⟩ := Option.isSome_iff_exists.mp hsome
  have hrun := reaches_of_runTested allowed_of_admits sampleCalls .start hs
  have hvalue : (runTested step admits sampleCalls sampleLedger).map
      (fun s => s.money ['A'] 1 .ACCEPT_RESERVE) = some 3 := by decide +kernel
  rw [hs] at hvalue
  have hmoney := Option.some.inj hvalue
  have hmatch := (reserves_match_offers sampleLedger_opening hrun).1 ['A'] 1
  exact ⟨s, hrun, hmoney, hmatch.symm.trans hmoney⟩

end DExCall

end Tecracoin.Elysium
