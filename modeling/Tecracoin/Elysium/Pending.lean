/-
  `pending.cpp`: what the unconfirmed transactions of the wallet take from the
  balances shown.

  A transaction that is added with `fSubtract` is subtracted from the PENDING tally
  of its sender.  The record does not keep the flag: whatever is removed while the
  sender has a tally is given back, also the amount of a cancel, which has never
  been subtracted.  A cancel does no harm if nothing else of its sender is pending
  in the property when it is removed.
-/
import Tecracoin.Data.Run
import Tecracoin.Elysium.Properties

namespace Tecracoin.Elysium

open Data StdMap Ledger List

/-- The fields of a `CMPPending` that are read again. -/
structure CMPPending where
  src : Address
  prop : PropertyId
  amount : Int

/-- The tallies and `my_pending`. -/
structure PendingState where
  ledger : Ledger
  myPending : StdMap Uint256 CMPPending

inductive PendingCall
  | add (txid : Uint256) (pending : CMPPending) (fSubtract : Bool)
  | delete (txid : Uint256)
  | check (vecMemPoolTxids : List Uint256)

namespace PendingState

variable (s : PendingState)

def pendingAdd (txid : Uint256) (pending : CMPPending) (fSubtract : Bool) :
    Except Abort PendingState := do
  let (ok, ledger) ←
    if fSubtract then
      updateTallyMap pending.src pending.prop (-pending.amount) .PENDING s.ledger
    else .ok (true, s.ledger)
  .ok ⟨ledger, if ok then s.myPending.insert StdMap.unordered txid pending else s.myPending⟩

def pendingDelete (txid : Uint256) : Except Abort PendingState :=
  match s.myPending.get? txid with
  | none => .ok s
  | some pending =>
    if s.ledger.getMPbalance pending.src pending.prop .PENDING = 0 then
      .ok ⟨s.ledger, s.myPending.erase txid⟩
    else do
      let (_, ledger) ← updateTallyMap pending.src pending.prop pending.amount .PENDING s.ledger
      .ok ⟨ledger, s.myPending.erase txid⟩

/-- `PendingCheck`. After a record has been removed the loop advances the iterator that pointed to
    it. -/
def pendingCheck (vecMemPoolTxids : List Uint256) : Except Abort PendingState :=
  match s.myPending.keys.find? (fun txid => txid ∉ vecMemPoolTxids) with
  | none => .ok s
  | some txid => do
      let _ ← s.pendingDelete txid
      .error (.undefined "++it of an erased entry")

def call : PendingCall → Except Abort PendingState
  | .add txid pending fSubtract => s.pendingAdd txid pending fSubtract
  | .delete txid => s.pendingDelete txid
  | .check vecMemPoolTxids => s.pendingCheck vecMemPoolTxids

end PendingState

/-! ## What is pending -/

/-- What a transaction takes from an address. -/
def CMPPending.share (e : CMPPending) (a : Address) (p : PropertyId) : Int :=
  if a = e.src ∧ p = e.prop then e.amount else 0

/-- What a transaction takes if it was added with `fSubtract`; `added` has all transactions added so
    far, each with the flag. -/
def weight (added : List (Uint256 × Bool)) (a : Address) (p : PropertyId) (txid : Uint256)
    (e : CMPPending) : Int :=
  if (txid, true) ∈ added then e.share a p else 0

namespace PendingState

/-- What the pending transactions that were added with `fSubtract` take. -/
def taken (s : PendingState) (added : List (Uint256 × Bool)) (a : Address) (p : PropertyId) : Int :=
  s.myPending.sum (weight added a p)

/-- The tallies are what the subtracted transactions take, and each of these takes something. -/
structure Exact (added : List (Uint256 × Bool)) (s : PendingState) : Prop where
  known : ∀ txid e, s.myPending.get? txid = some e →
    txid ∈ added.map Prod.fst ∧ ((txid, true) ∈ added → 0 < e.amount)
  tally : ∀ a p, s.ledger.money a p .PENDING = -s.taken added a p

namespace Exact

variable {added : List (Uint256 × Bool)} {s : PendingState} {txid : Uint256} {e : CMPPending}
  {l : Ledger} {fSubtract : Bool} (h : Exact added s)
include h

lemma of_money (hmoney : ∀ a p, l.money a p .PENDING = s.ledger.money a p .PENDING) :
    Exact added ⟨l, s.myPending⟩ :=
  ⟨h.known, fun a p => (hmoney a p).trans (h.tally a p)⟩

/-- A transaction that was not known before does not change what the others take. -/
lemma record (hnew : txid ∉ added.map Prod.fst) (fSubtract : Bool) :
    Exact ((txid, fSubtract) :: added) s := by
  have hother {txid' : Uint256} {e' : CMPPending} (hget : s.myPending.get? txid' = some e') :
      (txid', true) ∈ (txid, fSubtract) :: added ↔ (txid', true) ∈ added := by
    have hne : txid' ≠ txid := fun hsame => hnew (hsame ▸ (h.known txid' e' hget).1)
    rw [mem_cons, or_iff_right (fun heq => hne (congrArg Prod.fst heq))]
  refine ⟨fun txid' e' hget => ?_, fun a p => ?_⟩
  · rw [hother hget]
    exact (h.known txid' e' hget).imp_left (.tail _)
  · rw [h.tally, taken, taken]
    refine congrArg (fun weights => -List.sum weights) (map_congr_left (fun entry hentry => ?_))
    simp only [weight, hother (get?_eq_some_iff.mpr hentry)]

lemma insert (hfree : s.myPending.get? txid = none) (hmem : txid ∈ added.map Prod.fst)
    (hpos : (txid, true) ∈ added → 0 < e.amount)
    (hmoney : ∀ a p, l.money a p .PENDING =
      s.ledger.money a p .PENDING - weight added a p txid e) :
    Exact added ⟨l, s.myPending.insert unordered txid e⟩ := by
  refine ⟨forall_insert h.known ⟨hmem, hpos⟩, fun a p => ?_⟩
  have hsum : taken ⟨l, s.myPending.insert unordered txid e⟩ added a p =
      weight added a p txid e + s.taken added a p := sum_insert_of_none hfree e
  rw [hmoney, h.tally, hsum]
  omega

lemma erase (hget : s.myPending.get? txid = some e)
    (hmoney : ∀ a p, l.money a p .PENDING =
      s.ledger.money a p .PENDING + weight added a p txid e) :
    Exact added ⟨l, s.myPending.erase txid⟩ := by
  refine ⟨forall_erase h.known, fun a p => ?_⟩
  have hsum : s.taken added a p =
      weight added a p txid e + taken ⟨l, s.myPending.erase txid⟩ added a p :=
    sum_of_get? _ hget
  rw [hmoney, h.tally, hsum]
  omega

lemma pendingAdd (hnew : txid ∉ added.map Prod.fst) (hpos : fSubtract = true → 0 ≤ e.amount) :
    Data.Ends (fun _ => False) (Exact ((txid, fSubtract) :: added))
      (s.pendingAdd txid e fSubtract) := by
  have hfree : s.myPending.get? txid = none :=
    Option.eq_none_iff_forall_ne_some.mpr (fun e' hget => hnew (h.known txid e' hget).1)
  have hflag : (txid, true) ∈ (txid, fSubtract) :: added ↔ fSubtract = true := by
    have hnone : (txid, true) ∉ added := fun hmem => hnew (mem_map_of_mem hmem)
    simp [hnone, eq_comm]
  have hrecorded := h.record hnew fSubtract
  have hknown : txid ∈ ((txid, fSubtract) :: added).map Prod.fst := .head _
  rw [PendingState.pendingAdd]
  cases fSubtract with
  | false =>
    refine hrecorded.insert hfree hknown (fun hmem => absurd (hflag.mp hmem) (by decide)) ?_
    intro a p
    simp [weight, hflag]
  | true =>
    refine Data.Ends.bind (updateTallyMap_ends nofun) (fun r hr => ?_)
    obtain ⟨ok, l⟩ := r
    rcases hr with ⟨rfl, hcan, rfl⟩ | ⟨rfl, -, hmoney⟩
    · have hnonzero := (canUpdate_iff.mp hcan).1.1
      have hnonneg := hpos rfl
      refine hrecorded.insert hfree hknown (fun _ => by omega) (fun a p => ?_)
      rw [money_updated hcan, weight, if_pos (hflag.mpr rfl), CMPPending.share]
      simp only [and_true]
      split_ifs <;> omega
    · exact hrecorded.of_money (fun a p => hmoney a p _)

/-- While a subtracted transaction is pending, the tally of its sender lacks its amount. -/
lemma tally_le (hget : s.myPending.get? txid = some e) (hsub : (txid, true) ∈ added) :
    s.ledger.money e.src e.prop .PENDING ≤ -e.amount ∧ 0 < e.amount := by
  have hnonneg : ∀ entry ∈ s.myPending.entries, 0 ≤ weight added e.src e.prop entry.1 entry.2 := by
    intro entry hentry
    have hpos := (h.known entry.1 entry.2 (get?_eq_some_iff.mpr hentry)).2
    unfold weight CMPPending.share
    split_ifs with hmem
    · exact (hpos hmem).le
    · exact le_rfl
    · exact le_rfl
  have hle := le_sum_of_get? hnonneg hget
  have hpos := (h.known txid e hget).2 hsub
  have htally := h.tally e.src e.prop
  rw [weight, if_pos hsub, CMPPending.share, if_pos ⟨rfl, rfl⟩] at hle
  rw [taken] at htally
  omega

lemma pendingDelete (hcareful : ∀ e ∈ s.myPending.get? txid, (txid, true) ∈ added ∨ e.amount = 0 ∨
      s.ledger.getMPbalance e.src e.prop .PENDING = 0) :
    Data.Ends (fun _ => False) (Exact added) (s.pendingDelete txid) := by
  rw [PendingState.pendingDelete]
  cases hget : s.myPending.get? txid with
  | none => exact h
  | some e =>
    have hread : s.ledger.getMPbalance e.src e.prop .PENDING =
        s.ledger.money e.src e.prop .PENDING :=
      getMPbalance_eq (.inl (by decide))
    dsimp only
    by_cases hsub : (txid, true) ∈ added
    · obtain ⟨hmissing, hpos⟩ := h.tally_le hget hsub
      have hcan : s.ledger.CanUpdate e.src e.prop e.amount .PENDING := by
        refine canUpdate_iff.mpr ⟨⟨hpos.ne', ?_, .inl rfl⟩, fun hb => nomatch hb.1⟩
        have hmax : 0 ≤ MAX_INT_8_BYTES := by decide
        simp only [CMPTally.isOverflow, Bool.or_eq_false_iff, Bool.and_eq_false_iff,
          decide_eq_false_iff_not]
        exact ⟨.inr (by omega), .inl (by omega)⟩
      rw [if_neg (by omega)]
      refine Data.Ends.bind (updateTallyMap_ends (by simp)) (fun r hr => ?_)
      obtain ⟨ok, l⟩ := r
      rcases hr with ⟨-, -, rfl⟩ | ⟨-, hcannot, -⟩
      · refine h.erase hget (fun a p => ?_)
        rw [money_updated hcan, weight, if_pos hsub, CMPPending.share]
        simp only [and_true]
      · exact absurd hcan hcannot
    · -- nothing may be given back
      have hsame : ∀ a p, s.ledger.money a p .PENDING =
          s.ledger.money a p .PENDING + weight added a p txid e := by simp [weight, hsub]
      split_ifs with hzero
      · exact h.erase hget hsame
      · have hamount : e.amount = 0 := by
          rcases hcareful e hget with hmem | hamount | hnone
          · exact absurd hmem hsub
          · exact hamount
          · exact absurd hnone hzero
        refine Data.Ends.bind (updateTallyMap_ends (by simp)) (fun r hr => ?_)
        obtain ⟨ok, l⟩ := r
        rcases hr with ⟨-, hcan, -⟩ | ⟨-, -, hmoney⟩
        · exact absurd hamount (canUpdate_iff.mp hcan).1.1
        · exact h.erase hget (fun a p => (hmoney a p _).trans (hsame a p))

end Exact

end PendingState

/-! ## Runs -/

/-- A state, and the transactions added so far, each with `fSubtract`. -/
structure PendingRun where
  state : PendingState
  added : List (Uint256 × Bool)

namespace PendingRun

open PendingState

def start (ledger : Ledger) : PendingRun := ⟨⟨ledger, .empty⟩, []⟩

/-- What a call adds to the record. -/
def recorded : PendingCall → List (Uint256 × Bool)
  | .add txid _ fSubtract => [(txid, fSubtract)]
  | _ => []

def step (c : PendingCall) (x : PendingRun) : Option PendingRun :=
  (x.state.call c).toOption.map fun s => ⟨s, recorded c ++ x.added⟩

/-- Each transaction is added once. -/
abbrev Once (c : PendingCall) (x : PendingRun) : Prop :=
  ((recorded c ++ x.added).map Prod.fst).Nodup

/-- Amounts that are subtracted are not negative. A transaction that was added without `fSubtract`
    is deleted when its sender has no tally in the property, or its amount is zero. `PendingCheck`
    finds all pending transactions in the pool. -/
def Careful : PendingCall → PendingRun → Prop
  | .add _ e fSubtract, _ => fSubtract = true → 0 ≤ e.amount
  | .delete txid, x => ∀ e ∈ x.state.myPending.get? txid, (txid, true) ∈ x.added ∨ e.amount = 0 ∨
      x.state.ledger.getMPbalance e.src e.prop .PENDING = 0
  | .check vecMemPoolTxids, x => x.state.myPending.keys ⊆ vecMemPoolTxids

instance : (c : PendingCall) → (x : PendingRun) → Decidable (Careful c x)
  | .add _ _ _, _ => inferInstanceAs (Decidable (_ → _))
  | .delete _, _ => inferInstanceAs (Decidable (∀ _ ∈ _, _))
  | .check _, _ => inferInstanceAs (Decidable ((_ : List Uint256) ⊆ _))

variable {x : PendingRun} {c : PendingCall}

lemma call_ends (h : x.state.Exact x.added) (honce : Once c x) (hcareful : Careful c x) :
    Data.Ends (fun _ => False) (Exact (recorded c ++ x.added)) (x.state.call c) := by
  cases c with
  | add txid e fSubtract => exact h.pendingAdd (nodup_cons.mp honce).1 hcareful
  | delete txid => exact h.pendingDelete hcareful
  | check vecMemPoolTxids =>
    have hnone : x.state.myPending.keys.find? (fun txid => txid ∉ vecMemPoolTxids) = none :=
      find?_eq_none.mpr (fun txid hmem => by simpa using hcareful hmem)
    rw [call, pendingCheck, hnone]
    exact h

/-- In every run of careful calls no call fails, and the PENDING tally of every address and property
    is what the pending transactions that were added with `fSubtract` take. -/
theorem pending_tally_exact {ledger : Ledger} (hledger : ∀ a p, ledger.money a p .PENDING = 0)
    (hrun : Reaches step (fun c x => Once c x ∧ Careful c x) (start ledger) x) :
    (∀ a p, x.state.ledger.money a p .PENDING = -x.state.taken x.added a p ∧
      (x.state.myPending = .empty → x.state.ledger.money a p .PENDING = 0)) ∧
    ∀ c, Once c x → Careful c x → ∃ s, x.state.call c = .ok s := by
  have hexact : x.state.Exact x.added := by
    refine hrun.invariant (P := fun x => x.state.Exact x.added) ⟨nofun, hledger⟩ ?_
    intro c x y h hallowed hstep
    obtain ⟨s, hcall, rfl⟩ := Option.map_eq_some_iff.mp hstep
    exact (call_ends h hallowed.1 hallowed.2).of_ok (toOption_eq_some_iff.mp hcall)
  refine ⟨fun a p => ⟨hexact.tally a p, fun hempty => ?_⟩, fun c honce hcareful => ?_⟩
  · rw [hexact.tally, taken, hempty]
    rfl
  · cases hcall : x.state.call c with
    | ok s => exact ⟨s, rfl⟩
    | error e => exact ((call_ends hexact honce hcareful).of_error hcall).elim

/-- A send of 10 tokens, and a cancel with amount 5 by the same address. -/
def sendAndCancel : List PendingCall := [.add 1 ⟨['A'], 3, 10⟩ true, .add 2 ⟨['A'], 3, 5⟩ false]

/-- The cancel is deleted while the send is pending: the sender gets its amount back. -/
theorem cancel_gives_back_send : ∃ x, Reaches step Once (start (cleared [])) x ∧
    x.state.ledger.money ['A'] 3 .PENDING = -5 ∧ x.state.taken x.added ['A'] 3 = 10 := by
  have hrun : (runTested step (fun c x => decide (Once c x)) (sendAndCancel ++ [.delete 2])
      (start (cleared []))).map
      (fun x => (x.state.ledger.money ['A'] 3 .PENDING, x.state.taken x.added ['A'] 3)) =
        some (-5, 10) := by
    decide +kernel
  obtain ⟨x, hx, htally⟩ := Option.map_eq_some_iff.mp hrun
  obtain ⟨hmoney, htaken⟩ := Prod.mk.inj htally
  exact ⟨x, reaches_of_runTested (fun _ _ => of_decide_eq_true) _ .start hx, hmoney, htaken⟩

/-- The send is deleted first, which gives its amount back, then the cancel, and another send of 4
    tokens follows. -/
theorem pending_tally_exact_cancel :
    ∃ x, Reaches step (fun c x => Once c x ∧ Careful c x) (start (cleared [])) x ∧
      x.added = [(3, true), (2, false), (1, true)] ∧ x.state.myPending.keys = [3] ∧
      x.state.ledger.money ['A'] 3 .PENDING = -4 := by
  have hrun : (runTested step (fun c x => decide (Once c x ∧ Careful c x)) (sendAndCancel ++
      [.check [1, 2], .delete 1, .delete 2, .add 3 ⟨['A'], 3, 4⟩ true]) (start (cleared []))).map
      (fun x => (x.added, x.state.myPending.keys, x.state.taken x.added ['A'] 3)) =
        some ([(3, true), (2, false), (1, true)], [3], 4) := by
    decide +kernel
  obtain ⟨x, hx, htaken⟩ := Option.map_eq_some_iff.mp hrun
  obtain ⟨hadded, hkeys, htaken⟩ := by simpa only [Prod.mk.injEq] using htaken
  have hreached := reaches_of_runTested (fun _ _ => of_decide_eq_true) _ .start hx
  refine ⟨x, hreached, hadded, hkeys, ?_⟩
  rw [((pending_tally_exact (fun _ _ => rfl) hreached).1 ['A'] 3).1, htaken]

end PendingRun

end Tecracoin.Elysium
