/-
  Send-to-owners: the pieces of `STO_GetReceivers` are paid one by one, and what
  was paid is compared with the amount.
-/
import Tecracoin.Elysium.Trade
import Tecracoin.Elysium.Tx

namespace Tecracoin.Elysium

open Data Ledger Op

/-- Tokens have gone from one bucket to another, once or more often. -/
structure Redistributed (s s' : Ledger) : Prop where
  sound : Sound s → Sound s'
  rest : s' = { s with mpTallyMap := s'.mpTallyMap }

variable {s s' s'' : Ledger}

namespace Redistributed

lemma refl (s : Ledger) : Redistributed s s := ⟨fun h => h, rfl⟩

lemma trans (h : Redistributed s s') (h' : Redistributed s' s'') : Redistributed s s'' where
  sound hs := h'.sound (h.sound hs)
  rest := by rw [h'.rest, h.rest]

lemma isAddressFrozen (h : Redistributed s s') (a : Address) (p : PropertyId) :
    s'.isAddressFrozen a p = s.isAddressFrozen a p := by
  rw [h.rest]
  rfl

end Redistributed

lemma Sound.payable (h : Sound s) (p : PropertyId) : Payable s p := by
  have hroom := (h.nonneg.balance_add_reserve p []).trans (h.capped p)
  have hreserve := h.nonneg [] p .METADEX_RESERVE (by decide)
  exact ⟨h.nonneg, h.cached p, by omega⟩

section Owners

variable {E : Abort → Prop} {env : Env} {sender : Address} {p : PropertyId} {tx : CMPTransaction}

/-- What is asked of the payments: the sender has all that is paid. -/
structure CanPay (sender : Address) (p : PropertyId) (receivers : List (Int × Address))
    (s : Ledger) : Prop where
  sound : Sound s
  thawed : s.isAddressFrozen sender p = false
  has : sumAmounts receivers ≤ s.money sender p .BALANCE

lemma payOwners_ends {receivers : List (Int × Address)}
    (hpos : ∀ receiver ∈ receivers, 0 < receiver.1)
    (hE : ¬ CanPay sender p receivers s → ∀ e, E e) :
    Op.Ends E (payOwners sender p receivers) s (fun sent s' =>
      sent = sumAmounts receivers ∧ Redistributed s s') := by
  refine (ends_foldlM (fun done sent s' => sent = sumAmounts done ∧ Redistributed s s' ∧
    s.money sender p .BALANCE - sumAmounts done ≤ s'.money sender p .BALANCE)
    ⟨rfl, .refl s, by simp⟩ ?_).post (fun _ _ h => ⟨h.1, h.2.1⟩)
  rintro done receiver rest hlist sent s1 ⟨rfl, hmoved, hleft⟩
  have hreceiver : 0 < receiver.1 := hpos receiver (by simp [hlist])
  have hrest : 0 ≤ sumAmounts rest := sumAmounts_nonneg (fun r hr => hpos r (by simp [hlist, hr]))
  refine transfer_bind_ends (by decide) (by decide) (hE ∘ mt (fun h => ?_))
    (fun s2 htransferred => ends_pure ?_)
  · have hhas := h.has
    rw [hlist, sumAmounts_append, sumAmounts_cons] at hhas
    refine ⟨hmoved.sound h.sound, hreceiver, by omega, fun _ => ?_⟩
    rw [hmoved.isAddressFrozen]
    exact h.thawed
  · refine ⟨?_, hmoved.trans ⟨htransferred.sound, htransferred.rest⟩, ?_⟩
    · rw [sumAmounts_append, sumAmounts_cons, sumAmounts_nil, add_zero]
    · rw [htransferred.money, sumAmounts_append, sumAmounts_cons, sumAmounts_nil,
        if_pos ⟨rfl, rfl, rfl⟩]
      split_ifs <;> omega

/-- What is asked of a send-to-owners: a sound ledger and a sender who has the tokens. -/
structure CanSendToOwners (tx : CMPTransaction) (s : Ledger) : Prop where
  sound : Sound s
  thawed : s.isAddressFrozen tx.sender tx.property = false
  range : (tx.nValue : Int) ≤ MAX_INT_8_BYTES
  has : (tx.nValue : Int) ≤ s.money tx.sender tx.property .BALANCE

/-- After the checks a send-to-owners can only be stopped by the distribution of fees it may set
    off. -/
lemma sendToOwners_ends (hE : ∀ e, (CanSendToOwners tx s → FeeStops e) → E e) :
    Op.Ends E (sendToOwners env tx) s (fun _ _ => True) := by
  have hE' {P : Prop} (himp : CanSendToOwners tx s → P) : ¬ P → ∀ e, E e :=
    fun hnot e => hE e (fun h => absurd (himp h) hnot)
  have hdivisible (h : CanSendToOwners tx s) : Divisible s tx.nValue :=
    ⟨h.sound.nonneg, by omega, h.range⟩
  refine ends_bind (stoGetReceivers_ends (hE' hdivisible)) ?_
  rintro receivers s ⟨rfl, hpos, howners, hdivided⟩
  refine ends_ite (fun _ => ends_pure trivial) (fun hsome => ?_)
  refine ends_bind (payOwners_ends hpos (hE' (fun h => ⟨h.sound, h.thawed,
    (hdivided (hdivisible h)).1.trans h.has⟩))) ?_
  rintro sent s1 ⟨rfl, hpaid⟩
  refine ends_bind (ends_ensure (fun hc => hE _ (fun h => ?_))) ?_
  · -- there are receivers, so the pieces add up
    have hreceivers : receivers ≠ [] := fun hnil => hsome (by rw [hnil]; rfl)
    have hsum := ((hdivided (hdivisible h)).2 (howners hreceivers)).sum
    rw [hsum, beq_self_eq_true] at hc
    cases hc
  rintro _ s1 ⟨rfl, -⟩
  refine ends_bind (Q := fun _ _ => True) (ends_when (fun _ => ?_) (fun _ => trivial))
    (fun _ _ _ => ends_pure trivial)
  exact notifyTotalTokensChanged_ends (fun e he => hE e (fun h =>
    (he ((hpaid.sound h.sound).payable _)).1))

lemma logicMathSendToOwners_ends
    (hE : ∀ e, (Sound s → s.isAddressFrozen tx.sender tx.property = false → FeeStops e) → E e) :
    Op.Ends E (logicMathSendToOwners env tx) s (fun _ _ => True) := by
  refine ends_get_bind (checked_ends (fun _ _ _ => trivial)
    (fun hpass => sendToOwners_ends (fun e he => hE e (fun hsound hthawed => he ?_))))
  simp only [List.forall_mem_cons] at hpass
  obtain ⟨-, hrange, -, -, hbalance, -⟩ := hpass
  have hvalue : (tx.nValue : Int) ≤ MAX_INT_8_BYTES := by
    rw [CMPTransaction.outOfRange, Bool.or_eq_false_iff] at hrange
    exact not_lt.mp (of_decide_eq_false hrange.2)
  have hle := not_lt.mp (of_decide_eq_false hbalance)
  rw [toInt64_of_le hvalue, getMPbalance_balance] at hle
  exact ⟨hsound, hthawed, hvalue, hle⟩

end Owners

/-- Without negative tallies an amount is divided exactly among the owners of a property whose
    supply is in range, as soon as there is one besides the sender. In a sound ledger a
    send-to-owners whose sender is not frozen fails none of its own assertions, and neither does a
    distribution of fees if somebody holds the token whose holders get them. -/
theorem sendToOwners_exact {s : Ledger} (hnonneg : s.Nonneg) :
    (∀ sender property amount, s.supply property ≤ MAX_INT_8_BYTES → 1 ≤ amount →
      amount ≤ MAX_INT_8_BYTES → (∃ a, a ≠ sender ∧ 0 < s.held a property) →
      ∃ receivers, stoGetReceivers sender property amount s = .ok (receivers, s) ∧
        DividedAmong s sender property amount receivers ∧
        (s.stoOwners sender property).Pairwise (fun p q => q.1 ≤ p.1)) ∧
    (∀ env tx e, Sound s → s.isAddressFrozen tx.sender tx.property = false →
      logicMathSendToOwners env tx s = .error e → FeeStops e) ∧
    (∀ env p block e, Sound s → (∃ a, a ≠ feeDistribution ∧ 0 < s.held a (feeReceiverProperty p)) →
      distributeCache env p block s ≠ .error e) := by
  have howner {sender : Address} {property : PropertyId}
      (h : ∃ a, a ≠ sender ∧ 0 < s.held a property) : s.stoOwners sender property ≠ [] := by
    obtain ⟨a, hne, hpos⟩ := h
    exact List.ne_nil_of_mem (mem_stoOwners.mpr ⟨hne, rfl, hpos⟩)
  refine ⟨fun sender property amount _ hpos hmax hsome => ?_,
    fun env tx e hs hthawed herror => ?_, fun env p block e hs hsome herror => ?_⟩
  · have hdivisible : Divisible s amount := ⟨hnonneg, by omega, hmax⟩
    have hends : Op.Ends (fun _ => False) (stoGetReceivers sender property amount) s _ :=
      stoGetReceivers_ends (absurd hdivisible)
    cases hrun : stoGetReceivers sender property amount s with
    | error e => exact (hends.of_error hrun).elim
    | ok r =>
      obtain ⟨receivers, s'⟩ := r
      obtain ⟨rfl, -, -, hdivided⟩ := hends.of_ok hrun
      exact ⟨receivers, rfl, (hdivided hdivisible).2 (howner hsome), s'.stoOwners_decreasing⟩
  · exact (logicMathSendToOwners_ends (fun e he => he hs hthawed)).of_error herror
  · have hends : Op.Ends (NoFeeReceiver s p) (distributeCache env p block) s _ :=
      distributeCache_ends (fun e he => he (hs.payable p))
    exact howner hsome (hends.of_error herror).2

/-- Three owners of 5, 3 and 1 tokens, and a sender. -/
def threeOwners : Ledger :=
  ((((cleared []).updated ['A'] 1 5 .BALANCE).updated ['B'] 1 3 .BALANCE).updated
    ['C'] 1 1 .BALANCE).updated ['S'] 1 4 .BALANCE

lemma threeOwners_sound : Sound threeOwners := by
  have hfirst : Sound ((cleared []).updated ['A'] 1 5 .BALANCE) :=
    (Sound.cleared []).credited (by decide) (by decide) (by decide)
  have hsecond : Sound (((cleared []).updated ['A'] 1 5 .BALANCE).updated ['B'] 1 3
      .BALANCE) := hfirst.credited (by decide) (by decide) (by decide +kernel)
  have hthird : Sound ((((cleared []).updated ['A'] 1 5 .BALANCE).updated ['B'] 1 3
      .BALANCE).updated ['C'] 1 1 .BALANCE) :=
    hsecond.credited (by decide) (by decide) (by decide +kernel)
  exact hthird.credited (by decide) (by decide) (by decide +kernel)

/-- Four tokens among them: shares of 3, 2 and 1, of which the second is cut off and the third is
    not served. -/
theorem sendToOwners_exact_three :
    ∃ receivers, stoGetReceivers ['S'] 1 4 threeOwners = .ok (receivers, threeOwners) ∧
      receivers = [(3, ['A']), (1, ['B'])] ∧
      DividedAmong threeOwners ['S'] 1 4 receivers := by
  obtain ⟨receivers, hrun, hdivided, -⟩ := (sendToOwners_exact threeOwners_sound.nonneg).1
    ['S'] 1 4 (by decide +kernel) (by decide) (by decide)
    ⟨['A'], by decide, by decide +kernel⟩
  have hvalue : stoGetReceivers ['S'] 1 4 threeOwners
      = .ok ([(3, ['A']), (1, ['B'])], threeOwners) := by decide +kernel
  refine ⟨receivers, hrun, ?_, hdivided⟩
  rw [hvalue] at hrun
  exact (congrArg Prod.fst (Except.ok.inj hrun)).symm

end Tecracoin.Elysium
