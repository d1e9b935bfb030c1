/-
  Tokens that go from one bucket to another: an asserted debit followed by an
  asserted credit of the same amount.  In a sound ledger such a pair fails only
  if the source does not have the amount or may not be debited.
-/
import Tecracoin.Elysium.Fill

namespace Tecracoin.Elysium

open Data Ledger

variable {p : PropertyId} {x : Int} {a : Address} {t : TallyType} {a' : Address} {t' : TallyType}
  {s s' : Ledger} {E : Abort → Prop}

lemma Sound.debited (h : Sound s) (hx : 0 ≤ x) (hcan : s.CanUpdate a p (-x) t) :
    Sound (s.updated a p (-x) t) := by
  refine ⟨h.nonneg.updated hcan, h.cached, fun q => ?_⟩
  have hcap := h.capped q
  rw [total_updated hcan]
  split_ifs <;> omega

section
variable (p x a t a' t' s s')

/-- `x` tokens have gone from the bucket `t` of `a` to the bucket `t'` of `a'`. -/
structure Transferred : Prop where
  money : ∀ b q u, s'.money b q u
    = s.money b q u - (if b = a ∧ q = p ∧ u = t then x else 0)
      + (if b = a' ∧ q = p ∧ u = t' then x else 0)
  total : ∀ q, s'.total q = s.total q
  sound : Sound s → Sound s'
  rest : s' = { s with mpTallyMap := s'.mpTallyMap }

/-- What is asked of a transfer. -/
structure CanTransfer : Prop where
  sound : Sound s
  positive : 0 < x
  has : x ≤ s.money a p t
  thawed : t = .BALANCE → s.isAddressFrozen a p = false

end

lemma CanTransfer.canDebit (h : CanTransfer p x a t s) : s.CanUpdate a p (-x) t :=
  canUpdate_debit h.positive h.has h.thawed

lemma CanTransfer.canCredit (h : CanTransfer p x a t s) (ht : t ≠ .PENDING)
    (ht' : t' ≠ .PENDING) : (s.updated a p (-x) t).CanUpdate a' p x t' := by
  have hx := h.positive
  have hcap := h.sound.capped p
  refine (h.sound.debited (by omega) h.canDebit).canCredit ht' hx ?_
  rw [total_updated h.canDebit, if_pos ⟨rfl, ht⟩]
  omega

lemma Transferred.of_updates (ht : t ≠ .PENDING) (ht' : t' ≠ .PENDING)
    (hdebit : s.CanUpdate a p (-x) t) (hcredit : (s.updated a p (-x) t).CanUpdate a' p x t') :
    Transferred p x a t a' t' s ((s.updated a p (-x) t).updated a' p x t') := by
  have htotal (q : PropertyId) :
      ((s.updated a p (-x) t).updated a' p x t').total q = s.total q := by
    rw [total_updated hcredit, total_updated hdebit]
    simp only [ht, ht', ne_eq, not_false_eq_true, and_true]
    split_ifs <;> omega
  refine ⟨fun b q u => ?_, htotal, fun hs => ⟨?_, hs.cached, fun q => ?_⟩, rfl⟩
  · rw [money_updated hcredit, money_updated hdebit]
    split_ifs <;> omega
  · exact (hs.nonneg.updated hdebit).updated hcredit
  · rw [htotal]
    exact hs.capped q

lemma transfer_ends (ht : t ≠ .PENDING) (ht' : t' ≠ .PENDING)
    (hE : ¬ CanTransfer p x a t s → ∀ e, E e) :
    Op.Ends E (do assertTally a p (-x) t; assertTally a' p x t') s
      (fun _ s' => Transferred p x a t a' t' s s') := by
  refine Op.ends_bind (assertTally_ends (hE ∘ mt (fun h => h.canDebit))) ?_
  rintro _ s1 ⟨hdebit, rfl⟩
  refine (assertTally_ends (hE ∘ mt (fun h => h.canCredit ht ht'))).post ?_
  rintro _ s2 ⟨hcredit, rfl⟩
  exact .of_updates ht ht' hdebit hcredit

/-- A debit and a credit, and what comes after them. -/
lemma transfer_bind_ends {α : Type} {f : Unit → Op α} {Q : α → Ledger → Prop} (ht : t ≠ .PENDING)
    (ht' : t' ≠ .PENDING) (hE : ¬ CanTransfer p x a t s → ∀ e, E e)
    (hf : ∀ s', Transferred p x a t a' t' s s' → Op.Ends E (f ()) s' Q) :
    Op.Ends E (assertTally a p (-x) t >>= fun _ => assertTally a' p x t' >>= f) s Q := by
  rw [← bind_assoc]
  exact Op.ends_bind (transfer_ends ht ht' hE) (fun _ => hf)

namespace Transferred

section
variable (h : Transferred p x a t a' t' s s')
include h

lemma other (b : Address) (q : PropertyId) {u : TallyType} (hu : u ≠ t) (hu' : u ≠ t') :
    s'.money b q u = s.money b q u := by
  rw [h.money]
  simp only [hu, hu', and_false, if_false]
  omega

lemma myOffers : s'.myOffers = s.myOffers := by rw [h.rest]

lemma myAccepts : s'.myAccepts = s.myAccepts := by rw [h.rest]

end

end Transferred

end Tecracoin.Elysium
