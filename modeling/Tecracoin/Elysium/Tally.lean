/-
  `tally.cpp` and the balance functions of `elysium.cpp`.

  Every token movement of the layer goes through `update_tally_map`.  What one
  call can do is said once here: it is possible (`CanUpdate`) and then changes
  one amount (`Ledger.updated`), or it changes no amount.  All later proofs
  speak about `Ledger.money`, the amount an address has in one bucket, and
  about `Ledger.bucketSum`, its sum over the addresses.
-/
import Tecracoin.Elysium.Ledger

namespace Tecracoin.Elysium

open Data StdMap CMPTally Op Ledger

variable {s : Ledger} {tally : CMPTally} {who address : Address} {propertyId : PropertyId}
  {amount : Int} {t ttype : TallyType} {E : Abort → Prop}

variable (r : BalanceRecord)

namespace BalanceRecord

/-- A record as `operator[]` creates it. -/
def zero : BalanceRecord := ⟨0, 0, 0, 0, 0⟩

/-- `balance[ttype]`. -/
def get : TallyType → Int
  | .BALANCE => r.balance
  | .SELLOFFER_RESERVE => r.selloffer
  | .ACCEPT_RESERVE => r.accept
  | .PENDING => r.pending
  | .METADEX_RESERVE => r.metadex

/-- `balance[ttype] = amount`. -/
def set (ttype : TallyType) (amount : Int) : BalanceRecord :=
  match ttype with
  | .BALANCE => { r with balance := amount }
  | .SELLOFFER_RESERVE => { r with selloffer := amount }
  | .ACCEPT_RESERVE => { r with accept := amount }
  | .PENDING => { r with pending := amount }
  | .METADEX_RESERVE => { r with metadex := amount }

@[simp] lemma get_zero (ttype : TallyType) : zero.get ttype = 0 := by cases ttype <;> rfl

lemma get_set {ttype' : TallyType} :
    (r.set ttype amount).get ttype' = if ttype' = ttype then amount else r.get ttype' := by
  cases ttype <;> cases ttype' <;> rfl

end BalanceRecord

namespace CMPTally

/-- `CMPTally()`. -/
def empty : CMPTally := ⟨.empty⟩

/-- The order of `std::map<uint32_t, _>`. -/
def ltProperty (p q : PropertyId) : Bool := p < q

variable (tally) {p : PropertyId}

section
variable (propertyId amount ttype)

def getMoney : Int :=
  match tally.mpToken.get? propertyId with
  | some record => record.get ttype
  | none => 0

def isOverflow (a b : Int) : Bool :=
  (0 < b && MAX_INT_8_BYTES - b < a) || (b < 0 && a < MIN_INT_8_BYTES - b)

/-- `updateMoney`: whether the update was made, and the tally. A failed update may leave an empty
    record behind. -/
def updateMoney : Bool × CMPTally :=
  if amount = 0 then (false, tally)
  else
    let touched := tally.mpToken.insert ltProperty propertyId .zero
    let record := (tally.mpToken.get? propertyId).getD .zero
    let now64 := record.get ttype
    if isOverflow now64 amount then (false, ⟨touched⟩)
    else if ttype ≠ .PENDING ∧ now64 + amount < 0 then (false, ⟨touched⟩)
    else (true, ⟨touched.set ltProperty propertyId (record.set ttype (now64 + amount))⟩)

lemma getMoney_eq :
    tally.getMoney propertyId ttype = ((tally.mpToken.get? propertyId).getD .zero).get ttype := by
  unfold getMoney
  cases tally.mpToken.get? propertyId <;> simp

/-- Whether the update can be made. -/
def CanUpdate : Prop :=
  amount ≠ 0 ∧ isOverflow (tally.getMoney propertyId ttype) amount = false ∧
    (ttype = .PENDING ∨ 0 ≤ tally.getMoney propertyId ttype + amount)

instance : Decidable (tally.CanUpdate propertyId amount ttype) := by
  unfold CanUpdate
  infer_instance

lemma updateMoney_iff :
    (tally.updateMoney propertyId amount ttype).1 = true ↔
      tally.CanUpdate propertyId amount ttype := by
  unfold updateMoney CanUpdate
  rw [getMoney_eq]
  generalize ((tally.mpToken.get? propertyId).getD .zero) = record
  by_cases hzero : amount = 0
  · simp [hzero]
  by_cases hover : isOverflow (record.get ttype) amount = true
  · simp [hzero, hover]
  rw [Bool.not_eq_true] at hover
  by_cases hpending : ttype = .PENDING
  · subst hpending
    simp [hzero, hover]
  · by_cases hneg : record.get ttype + amount < 0
    · simp [hzero, hover, hpending, hneg]
    · have hroom : 0 ≤ record.get ttype + amount := not_lt.mp hneg
      simp [hzero, hover, hpending, hneg, hroom]

end

@[simp] lemma getMoney_empty : empty.getMoney propertyId ttype = 0 := rfl

/-- An empty record is worth as much as none. -/
lemma getMoney_touched :
    (⟨tally.mpToken.insert ltProperty propertyId .zero⟩ : CMPTally).getMoney p ttype
      = tally.getMoney p ttype := by
  rw [getMoney_eq, getMoney_eq, getD_insert]

lemma getMoney_updateMoney :
    (tally.updateMoney propertyId amount ttype).2.getMoney p t
      = tally.getMoney p t + if tally.CanUpdate propertyId amount ttype ∧ p = propertyId ∧ t = ttype
          then amount else 0 := by
  have hanswer := updateMoney_iff tally propertyId amount ttype
  unfold updateMoney at hanswer ⊢
  by_cases hzero : amount = 0
  · simp [hzero, CanUpdate]
  rw [if_neg hzero] at hanswer ⊢
  by_cases hover : isOverflow (((tally.mpToken.get? propertyId).getD .zero).get ttype) amount = true
  · rw [if_pos hover] at hanswer ⊢
    have hcannot : ¬ tally.CanUpdate propertyId amount ttype := fun h => nomatch hanswer.mpr h
    simp [hcannot, getMoney_touched]
  rw [if_neg hover] at hanswer ⊢
  by_cases hneg : ttype ≠ .PENDING ∧
      ((tally.mpToken.get? propertyId).getD .zero).get ttype + amount < 0
  · rw [if_pos hneg] at hanswer ⊢
    have hcannot : ¬ tally.CanUpdate propertyId amount ttype := fun h => nomatch hanswer.mpr h
    simp [hcannot, getMoney_touched]
  rw [if_neg hneg] at hanswer ⊢
  have hcan : tally.CanUpdate propertyId amount ttype := hanswer.mp rfl
  rw [getMoney_eq, getMoney_eq tally]
  by_cases hp : p = propertyId
  · subst hp
    rw [get?_set_self, Option.getD_some, BalanceRecord.get_set]
    by_cases ht : t = ttype
    · subst ht
      simp [hcan]
    · simp [ht]
  · rw [get?_set_of_ne hp, get?_insert_of_ne hp]
    simp [hp]

end CMPTally

namespace Ledger

/-! ## Reading balances -/

section
variable (s address propertyId ttype)

/-- The amount of an address in one bucket. -/
def money : Int :=
  ((s.mpTallyMap.get? address).getD .empty).getMoney propertyId ttype

/-- `getMPbalance`: the accept reserve of a user property is not even looked up. -/
def getMPbalance : Int :=
  if ttype = .ACCEPT_RESERVE ∧ ELYSIUM_PROPERTY_TELYSIUM < propertyId then 0
  else match s.mpTallyMap.get? address with
    | some tally => tally.getMoney propertyId ttype
    | none => 0

def isAddressFrozen : Bool := s.setFrozenAddresses.contains (address, propertyId)

end

lemma getMPbalance_eq (h : ttype ≠ .ACCEPT_RESERVE ∨ propertyId ≤ ELYSIUM_PROPERTY_TELYSIUM) :
    s.getMPbalance address propertyId ttype = s.money address propertyId ttype := by
  have hread : ¬ (ttype = .ACCEPT_RESERVE ∧ ELYSIUM_PROPERTY_TELYSIUM < propertyId) := by
    rintro ⟨ht, hp⟩
    rcases h with h | h
    · exact h ht
    · exact absurd hp (not_lt.mpr h)
  unfold getMPbalance money
  rw [if_neg hread]
  cases s.mpTallyMap.get? address <;> rfl

@[simp] lemma getMPbalance_balance :
    s.getMPbalance address propertyId .BALANCE = s.money address propertyId .BALANCE :=
  getMPbalance_eq (.inl (by decide))

@[simp] lemma getMPbalance_selloffer :
    s.getMPbalance address propertyId .SELLOFFER_RESERVE
      = s.money address propertyId .SELLOFFER_RESERVE :=
  getMPbalance_eq (.inl (by decide))

/-! ## Updating a balance -/

section
variable (s who propertyId amount ttype)

/-- Whether `update_tally_map` can make the update. -/
def CanUpdate : Prop :=
  ((s.mpTallyMap.get? who).getD .empty).CanUpdate propertyId amount ttype ∧
    ¬ (ttype = .BALANCE ∧ amount < 0 ∧ s.isAddressFrozen who propertyId = true)

/-- The ledger after the update. -/
def updated : Ledger :=
  let tally := ((s.mpTallyMap.get? who).getD .empty).updateMoney propertyId amount ttype
  { s with mpTallyMap := s.mpTallyMap.set StdMap.unordered who tally.2 }

end

lemma money_updated_eq {a : Address} {p : PropertyId} :
    (s.updated who propertyId amount ttype).money a p t
      = s.money a p t + if ((s.mpTallyMap.get? who).getD .empty).CanUpdate propertyId amount ttype ∧
          a = who ∧ p = propertyId ∧ t = ttype then amount else 0 := by
  unfold money updated
  by_cases ha : a = who
  · subst ha
    rw [get?_set_self, Option.getD_some, getMoney_updateMoney]
    simp
  · rw [get?_set_of_ne ha]
    simp [ha]

/-- A possible update adds the amount to one bucket of one address. -/
lemma money_updated (h : s.CanUpdate who propertyId amount ttype)
    (a : Address) (p : PropertyId) (t : TallyType) :
    (s.updated who propertyId amount ttype).money a p t
      = s.money a p t + if a = who ∧ p = propertyId ∧ t = ttype then amount else 0 := by
  rw [money_updated_eq]
  simp [h.1]

lemma canUpdate_iff :
    s.CanUpdate who propertyId amount ttype ↔
      (amount ≠ 0 ∧ isOverflow (s.money who propertyId ttype) amount = false ∧
        (ttype = .PENDING ∨ 0 ≤ s.money who propertyId ttype + amount)) ∧
      ¬ (ttype = .BALANCE ∧ amount < 0 ∧ s.isAddressFrozen who propertyId = true) := Iff.rfl

/-- What is there can be taken out, unless it is frozen. -/
lemma canUpdate_debit (hpos : 0 < amount) (hhas : amount ≤ s.money who propertyId ttype)
    (hfrozen : ttype = .BALANCE → s.isAddressFrozen who propertyId = false) :
    s.CanUpdate who propertyId (-amount) ttype := by
  refine canUpdate_iff.mpr ⟨⟨by omega, ?_, .inr (by omega)⟩, ?_⟩
  · have hmin : MIN_INT_8_BYTES ≤ 0 := by decide
    simp only [isOverflow, Bool.or_eq_false_iff, Bool.and_eq_false_iff, decide_eq_false_iff_not]
    exact ⟨.inl (by omega), .inr (by omega)⟩
  · rintro ⟨hbalance, _, hfr⟩
    rw [hfrozen hbalance] at hfr
    cases hfr

/-- What fits into the range can be put in. -/
lemma canUpdate_credit (hpos : 0 < amount) (hnonneg : 0 ≤ s.money who propertyId ttype)
    (hfits : s.money who propertyId ttype + amount ≤ MAX_INT_8_BYTES) :
    s.CanUpdate who propertyId amount ttype := by
  refine canUpdate_iff.mpr ⟨⟨by omega, ?_, .inr (by omega)⟩, ?_⟩
  · simp only [isOverflow, Bool.or_eq_false_iff, Bool.and_eq_false_iff, decide_eq_false_iff_not]
    exact ⟨.inr (by omega), .inl (by omega)⟩
  · rintro ⟨_, hneg, _⟩
    omega

/-! ## Sums over the addresses -/

/-- What all addresses together have in one bucket. -/
def bucketSum (s : Ledger) (propertyId : PropertyId) (ttype : TallyType) : Int :=
  s.mpTallyMap.sum (fun _ tally => tally.getMoney propertyId ttype)

/-- What all addresses together have in the four buckets that hold tokens. -/
def supply (s : Ledger) (propertyId : PropertyId) : Int :=
  s.bucketSum propertyId .BALANCE + s.bucketSum propertyId .SELLOFFER_RESERVE +
    s.bucketSum propertyId .ACCEPT_RESERVE + s.bucketSum propertyId .METADEX_RESERVE

/-- A possible update adds the amount to one sum. -/
lemma bucketSum_updated (h : s.CanUpdate who propertyId amount ttype)
    (p : PropertyId) (t : TallyType) :
    (s.updated who propertyId amount ttype).bucketSum p t
      = s.bucketSum p t + if p = propertyId ∧ t = ttype then amount else 0 := by
  unfold bucketSum updated
  rw [sum_set, getMoney_updateMoney]
  simp only [h.1, true_and]
  cases hget : s.mpTallyMap.get? who with
  | some tally =>
    rw [sum_of_get? _ hget, Option.getD_some]
    omega
  | none =>
    rw [erase_of_get?_none hget, Option.getD_none, getMoney_empty]
    omega

lemma supply_updated (h : s.CanUpdate who propertyId amount ttype) (p : PropertyId) :
    (s.updated who propertyId amount ttype).supply p
      = s.supply p + if p = propertyId ∧ ttype ≠ .PENDING then amount else 0 := by
  unfold supply
  simp only [bucketSum_updated h]
  by_cases hp : p = propertyId
  · cases ttype <;> simp [hp] <;> ring
  · simp [hp]

/-- No address owes anything. -/
def Nonneg (s : Ledger) : Prop :=
  ∀ a p t, t ≠ TallyType.PENDING → 0 ≤ s.money a p t

lemma Nonneg.entry (h : s.Nonneg) (ht : t ≠ .PENDING)
    (p : PropertyId) : ∀ e ∈ s.mpTallyMap.entries, 0 ≤ e.2.getMoney p t := by
  intro e he
  have hget : s.mpTallyMap.get? e.1 = some e.2 := get?_eq_some_iff.mpr he
  have hmoney := h e.1 p t ht
  rwa [money, hget, Option.getD_some] at hmoney

lemma Nonneg.bucketSum_nonneg (h : s.Nonneg) (ht : t ≠ .PENDING)
    (p : PropertyId) : 0 ≤ s.bucketSum p t :=
  sum_nonneg (h.entry ht p)

lemma Nonneg.money_le (h : s.Nonneg) (ht : t ≠ .PENDING)
    (a : Address) (p : PropertyId) : s.money a p t ≤ s.bucketSum p t := by
  cases hget : s.mpTallyMap.get? a with
  | none =>
    have hzero : s.money a p t = 0 := by
      rw [money, hget, Option.getD_none, getMoney_empty]
    rw [hzero]
    exact h.bucketSum_nonneg ht p
  | some tally =>
    have hmoney : s.money a p t = tally.getMoney p t := by
      rw [money, hget, Option.getD_some]
    rw [hmoney]
    exact le_sum_of_get? (f := fun _ tally => getMoney tally p t) (h.entry ht p) hget

lemma Nonneg.updated (h : s.Nonneg) (hcan : s.CanUpdate who propertyId amount ttype) :
    (s.updated who propertyId amount ttype).Nonneg := by
  intro a p t ht
  rw [money_updated hcan]
  split_ifs with hsame
  · obtain ⟨rfl, rfl, rfl⟩ := hsame
    rcases (canUpdate_iff.mp hcan).1.2.2 with hpending | hroom
    · exact absurd hpending ht
    · exact hroom
  · have := h a p t ht
    omega

end Ledger

/-! ## `update_tally_map` -/

section
variable (who propertyId amount ttype)

/-- `update_tally_map(who, propertyId, amount, ttype)`. -/
def updateTallyMap : Op Bool := do
  if amount = 0 then
    pure false
  else
    let s ← get
    ensure (!(decide (ttype = .BALANCE ∧ amount < 0) && s.isAddressFrozen who propertyId))
      (.asserts "!isAddressFrozen(who, propertyId)")
    let tally := (s.mpTallyMap.get? who).getD .empty
    let bRet := (tally.updateMoney propertyId amount ttype).1
    let s' := s.updated who propertyId amount ttype
    set s'
    when (!bRet) (ensure
      (s.getMPbalance who propertyId ttype == s'.getMPbalance who propertyId ttype)
      (.asserts "before == after"))
    pure bRet

/-- `assert(update_tally_map(who, propertyId, amount, ttype))`. -/
def assertTally : Op Unit :=
  ensureM (updateTallyMap who propertyId amount ttype)
    (.asserts "update_tally_map(who, propertyId, amount, ttype)")

end

/-- The update is made, or it is not possible. -/
lemma updateTallyMap_ends
    (hfrozen : ttype = .BALANCE → amount < 0 → s.isAddressFrozen who propertyId = true →
      E (.asserts "!isAddressFrozen(who, propertyId)")) :
    Op.Ends E (updateTallyMap who propertyId amount ttype) s (fun ok s' =>
      (ok = true ∧ s.CanUpdate who propertyId amount ttype ∧
        s' = s.updated who propertyId amount ttype) ∨
      (ok = false ∧ ¬ s.CanUpdate who propertyId amount ttype ∧
        ∀ a p t, s'.money a p t = s.money a p t)) := by
  refine ends_ite (fun hzero => ?_) (fun hnonzero => ?_)
  · exact ends_pure (.inr ⟨rfl, fun hcan => hcan.1.1 hzero, fun _ _ _ => rfl⟩)
  refine ends_get_bind ?_
  refine ends_bind (ends_ensure (fun hc => ?_)) ?_
  · simp only [Bool.not_eq_false', Bool.and_eq_true, decide_eq_true_eq] at hc
    exact hfrozen hc.1.1 hc.1.2 hc.2
  rintro _ s' ⟨rfl, hthawed⟩
  have hthawed' : ¬ (ttype = .BALANCE ∧ amount < 0 ∧ s'.isAddressFrozen who propertyId = true) := by
    rintro ⟨hbalance, hneg, hfr⟩
    simp [hbalance, hneg, hfr] at hthawed
  have hanswer := updateMoney_iff ((s'.mpTallyMap.get? who).getD .empty) propertyId amount ttype
  refine ends_set_bind ?_
  by_cases hcan : ((s'.mpTallyMap.get? who).getD .empty).CanUpdate propertyId amount ttype
  · rw [hanswer.mpr hcan]
    exact .inl ⟨rfl, ⟨hcan, hthawed'⟩, rfl⟩
  · have hrefused := Bool.eq_false_iff.mpr (fun h => hcan (hanswer.mp h))
    have hmoney (a : Address) (p : PropertyId) (t : TallyType) :
        (s'.updated who propertyId amount ttype).money a p t = s'.money a p t := by
      rw [money_updated_eq]
      simp [hcan]
    -- the balances compared are the same: the update has changed no amount
    have hbalance : (s'.updated who propertyId amount ttype).getMPbalance who propertyId ttype
        = s'.getMPbalance who propertyId ttype := by
      by_cases hread : ttype = .ACCEPT_RESERVE ∧ ELYSIUM_PROPERTY_TELYSIUM < propertyId
      · simp [getMPbalance, hread]
      · have hread' := (not_and_or.mp hread).imp_right not_lt.mp
        rw [getMPbalance_eq hread', getMPbalance_eq hread', hmoney]
    rw [hrefused, hbalance, beq_self_eq_true]
    exact .inr ⟨rfl, fun h => hcan h.1, hmoney⟩

/-- An asserted update: possible, or the process aborts. -/
lemma assertTally_ends (hcannot : ¬ s.CanUpdate who propertyId amount ttype → ∀ e, E e) :
    Op.Ends E (assertTally who propertyId amount ttype) s (fun _ s' =>
      s.CanUpdate who propertyId amount ttype ∧ s' = s.updated who propertyId amount ttype) := by
  have hfrozen : ttype = .BALANCE → amount < 0 → s.isAddressFrozen who propertyId = true →
      E (.asserts "!isAddressFrozen(who, propertyId)") :=
    fun hbalance hneg hfr => hcannot (fun hcan => hcan.2 ⟨hbalance, hneg, hfr⟩) _
  refine (ends_ensureM (updateTallyMap_ends hfrozen) (fun s' h => ?_)).post (fun _ s' h => ?_)
  · rcases h with ⟨h, _⟩ | ⟨_, hcan, _⟩
    · cases h
    · exact hcannot hcan _
  · rcases h with ⟨_, hcan, rfl⟩ | ⟨h, _⟩
    · exact ⟨hcan, rfl⟩
    · cases h

end Tecracoin.Elysium
