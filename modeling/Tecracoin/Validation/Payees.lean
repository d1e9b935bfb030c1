/-
  Whom the coinbase has to pay: `CheckFoundersInputs` of `zerocoin.cpp`, and
  `IsBlockPayeeValid` with `GetBlockTxOuts` of `masternode-payments.cpp`.

  Each check looks for an output of every payment and marks none as used.  Where two
  payments are equal one output serves both, and the payee is paid once; where no
  two are equal each has an output of its own.
-/
import Tecracoin.Evo.BuildList
import Tecracoin.Validation.ConnectBlock

namespace Tecracoin.Validation

open Data Evo List

def REJECT_FOUNDER_REWARD_MISSING : Nat := 0x45

def REJECT_INVALID_TNODE_PAYMENT : Nat := 0x50

def nStartRewardTime : Int := 1475020800

/-- The parameters of the rewards. On every network the checks below are in force after the premine
    only. -/
structure RewardParams extends Params where
  nTnodePaymentsStartBlock : Int
  nTnodePaymentsBugFixedAtBlock : Int
  rewardsStage2Start : Int
  rewardsStage3Start : Int
  rewardsStage4Start : Int
  rewardsStage5Start : Int
  rewardsStage6Start : Int
  getFounderScript : Fin 4 → CScript
  enforced : 1 < DIP0003EnforcementHeight

/-- What the checks ask the node: `GetAdjustedTime`, `tnodeSync.IsSynced` and, for the votes on
    legacy tnodes, `tnpayments.IsTransactionValid`. -/
structure NodeView where
  adjustedTime : Int
  synced : Bool
  legacyValid : List CTxOut → Bool
  fLiteMode : Bool
  hash160 : List UInt8 → CKeyID

section Checks

variable (r : RewardParams) (node : NodeView) (nHeight : Int) (mnList : MNList)
  (vout : List CTxOut)

/-- The value for the reward stage of the height, T0 to T6. -/
def RewardParams.atStage {α : Type} (t0 t1 t2 t3 t4 t5 t6 : α) : α :=
  if nHeight < r.nTnodePaymentsStartBlock then t0
  else if nHeight < r.rewardsStage2Start then t1
  else if nHeight < r.rewardsStage3Start then t2
  else if nHeight < r.rewardsStage4Start then t3
  else if nHeight < r.rewardsStage5Start then t4
  else if nHeight < r.rewardsStage6Start then t5
  else t6

def getTnodePayment : CAmount :=
  getBlockSubsidy r.toParams nHeight * r.atStage nHeight 0 39 15 15 20 20 25 / 100

/-- `FOUNDER_1` to `FOUNDER_3` with their rewards. -/
def founderPayments : List CTxOut :=
  let blockSubsidy := getBlockSubsidy r.toParams nHeight
  [⟨blockSubsidy * 10 / 100, r.getFounderScript 1⟩,
    ⟨blockSubsidy * r.atStage nHeight 79 40 64 55 40 35 20 / 100, r.getFounderScript 2⟩,
    ⟨blockSubsidy * r.atStage nHeight 10 10 10 15 20 20 25 / 100, r.getFounderScript 3⟩]

/-- Every founder is found. An output that pays one is not looked at for the next (`continue`). -/
def foundersFound : List CTxOut → List CTxOut → Bool
  | [], _ => true
  | founder :: founders, vout =>
    decide (founder ∈ vout) && foundersFound founders (vout.filter (· ≠ founder))

/-- `total_payment_tx`: the other outputs with the value of a tnode payment. -/
def totalPaymentTx : Nat :=
  vout.countP (fun output => decide (output ∉ founderPayments r nHeight ∧
    0 < getTnodePayment r nHeight ∧ getTnodePayment r nHeight = output.nValue))

def checkFoundersInputs : Except Failure Unit :=
  if 0 < nHeight ∧ nHeight < r.nSubsidyHalvingInterval * 10 then do
    rejectIf (r.chainType ≠ .chainTestnet ∧ node.adjustedTime ≤ nStartRewardTime)
      (.throws "CreateNewBlock() : Create new block too early")
    if nHeight = 1 then
      rejectIf (⟨r.nPremineSubsidy * COIN, r.getFounderScript 0⟩ ∉ vout)
        (.dos 100 REJECT_FOUNDER_REWARD_MISSING
          "CTransaction::CheckTransaction() : premine missing")
    else
      rejectIf (nHeight < r.DIP0003EnforcementHeight ∧
          ¬(if r.nTnodePaymentsBugFixedAtBlock < nHeight
            then node.synced → node.legacyValid vout else totalPaymentTx r nHeight vout ≤ 1))
        (.dos 100 REJECT_INVALID_TNODE_PAYMENT
          "CTransaction::CheckTransaction() : invalid tnode payment")
      rejectIf (!foundersFound (founderPayments r nHeight) vout)
        (.dos 100 REJECT_FOUNDER_REWARD_MISSING
          "CTransaction::CheckTransaction() : founders reward missing")
      rejectIf (1 < totalPaymentTx r nHeight vout ∨
          totalPaymentTx r nHeight vout = 1 ∧ node.synced ∧ !node.legacyValid vout)
        (.dos 100 REJECT_INVALID_TNODE_PAYMENT
          "CTransaction::CheckTransaction() : invalid tnode payment")
  else .ok ()

def getMasternodePayment (blockValue : CAmount) : CAmount :=
  if nHeight < 2520000 then blockValue * 15 / 100
  else if nHeight < 3366000 then blockValue * 2 / 10
  else blockValue * 25 / 100

def payIfPositive (nValue : CAmount) (scriptPubKey : CScript) : List CTxOut :=
  if 0 < nValue then [⟨nValue, scriptPubKey⟩] else []

variable (blockReward : CAmount)

/-- `GetBlockTxOuts` for the payee of the list. -/
def getBlockTxOuts (dmnPayee : MN) : List CTxOut :=
  let reward := getMasternodePayment nHeight blockReward
  let operatorReward :=
    if dmnPayee.nOperatorReward ≠ 0 ∧ dmnPayee.pdmnState.scriptOperatorPayout ≠ [] then
      reward * dmnPayee.nOperatorReward / 10000
    else 0
  payIfPositive (reward - operatorReward) dmnPayee.pdmnState.scriptPayout ++
    payIfPositive operatorReward dmnPayee.pdmnState.scriptOperatorPayout

/-- `CMasternodePayments::IsTransactionValid` with the list before the block. -/
def isTransactionValid : Except Failure Bool :=
  if nHeight < r.DIP0003EnforcementHeight then .ok true
  else
    match mnList.getMNPayee with
    | none => .ok true
    | some dmnPayee =>
      match (getBlockTxOuts nHeight blockReward dmnPayee).find? (· ∉ vout) with
      | none => .ok true
      | some txout =>
        if (extractDestination node.hash160 txout.scriptPubKey).isNone then
          .error (.asserts "false")
        else .ok false

def isBlockPayeeValid : Except Failure Bool :=
  if node.fLiteMode then .ok true else isTransactionValid r node nHeight mnList vout blockReward

/-! ## What is owed -/

/-- The payments that a block of the height owes. -/
def requiredPayments (dmnPayee : MN) : List CTxOut :=
  founderPayments r nHeight ++
    getBlockTxOuts nHeight (getBlockSubsidy r.toParams nHeight) dmnPayee

/-- A height of the founders' period with the payees enforced, and a list with a payee. -/
structure Enforced (dmnPayee : MN) : Prop where
  low : r.DIP0003EnforcementHeight ≤ nHeight
  high : nHeight < r.nSubsidyHalvingInterval * 10
  lite : node.fLiteMode = false
  payee : mnList.getMNPayee = some dmnPayee

/-- Every coinbase that passes both checks has a different output for each payment. -/
def PaysSeparately (dmnPayee : MN) : Prop :=
  ∀ vout, checkFoundersInputs r node nHeight vout = .ok () →
    isBlockPayeeValid r node nHeight mnList vout (getBlockSubsidy r.toParams nHeight) = .ok true →
    (requiredPayments r nHeight dmnPayee).Subperm vout

end Checks

section Payments

variable {r : RewardParams} {node : NodeView} {nHeight : Int} {mnList : MNList} {dmnPayee : MN}
  {vout founders : List CTxOut} {blockReward : CAmount}

lemma foundersFound_iff : foundersFound founders vout = true ↔
    founders.Nodup ∧ founders ⊆ vout := by
  induction founders generalizing vout with
  | nil => simp [foundersFound]
  | cons founder founders ih =>
    simp only [foundersFound, Bool.and_eq_true, decide_eq_true_eq, ih, nodup_cons,
      subset_def, mem_filter]
    grind

lemma Enforced.payees_iff (h : Enforced r node nHeight mnList dmnPayee) :
    isBlockPayeeValid r node nHeight mnList vout blockReward = .ok true ↔
      getBlockTxOuts nHeight blockReward dmnPayee ⊆ vout := by
  have hfound : (getBlockTxOuts nHeight blockReward dmnPayee).find? (· ∉ vout) = none ↔
      getBlockTxOuts nHeight blockReward dmnPayee ⊆ vout := by
    simp [subset_def]
  rw [← hfound]
  simp only [isBlockPayeeValid, h.lite, Bool.false_eq_true, if_false, isTransactionValid,
    if_neg (not_lt.mpr h.low), h.payee]
  cases (getBlockTxOuts nHeight blockReward dmnPayee).find? (· ∉ vout) with
  | none => simp
  | some txout =>
    dsimp only
    split_ifs <;> simp

/-- What `CheckFoundersInputs` asks of the outputs while payees are enforced. -/
lemma Enforced.founders_iff (h : Enforced r node nHeight mnList dmnPayee) :
    checkFoundersInputs r node nHeight vout = .ok () ↔
      (r.chainType ≠ .chainTestnet → nStartRewardTime < node.adjustedTime) ∧
        ((founderPayments r nHeight).Nodup ∧ founderPayments r nHeight ⊆ vout) ∧
        totalPaymentTx r nHeight vout ≤ 1 ∧
        (totalPaymentTx r nHeight vout = 1 → node.synced = true →
          node.legacyValid vout = true) := by
  have hlate : 1 < nHeight := r.enforced.trans_le h.low
  rw [checkFoundersInputs, if_pos ⟨by omega, h.high⟩, if_neg hlate.ne']
  simp [except_bind_ok_iff, foundersFound_iff, not_lt.mpr h.low]

/-- Two payments or fewer with a repetition are served by fewer outputs. -/
lemma exists_shared {outs : List CTxOut} (hfounders : founders.Nodup) (houts : outs.length ≤ 2)
    (h : ¬ (founders ++ outs).Nodup) :
    ∃ rest : List CTxOut, rest.length ≤ 1 ∧ rest.length < outs.length ∧
      outs ⊆ founders ++ rest := by
  match outs with
  | [] => exact absurd hfounders (by simpa using h)
  | [a] => exact ⟨[], by grind⟩
  | [a, b] =>
    by_cases ha : a ∈ founders
    · exact ⟨[b], by grind⟩
    · exact ⟨[a], by grind⟩

lemma length_payIfPositive {nValue : CAmount} {scriptPubKey : CScript} :
    (payIfPositive nValue scriptPubKey).length ≤ 1 := by
  unfold payIfPositive
  split_ifs <;> simp

lemma length_getBlockTxOuts : (getBlockTxOuts nHeight blockReward dmnPayee).length ≤ 2 := by
  rw [getBlockTxOuts, length_append]
  exact Nat.add_le_add length_payIfPositive length_payIfPositive

lemma totalPaymentTx_le (rest : List CTxOut) :
    totalPaymentTx r nHeight (founderPayments r nHeight ++ rest) ≤ rest.length := by
  rw [totalPaymentTx, countP_append, countP_eq_zero.mpr (by simp +contextual), zero_add]
  exact countP_le_length

/-- From the enforcement of the payees to the end of the founders' period: a coinbase pays everyone
    separately when no two payments are equal. When two are, and the founders' are not among
    themselves, a coinbase with too few outputs passes. -/
theorem paysSeparately_iff (h : Enforced r node nHeight mnList dmnPayee) :
    ((requiredPayments r nHeight dmnPayee).Nodup → PaysSeparately r node nHeight mnList dmnPayee) ∧
      ((founderPayments r nHeight).Nodup →
        (r.chainType ≠ .chainTestnet → nStartRewardTime < node.adjustedTime) →
        (∀ vout, node.legacyValid vout = true) →
        PaysSeparately r node nHeight mnList dmnPayee →
        (requiredPayments r nHeight dmnPayee).Nodup) := by
  constructor
  · intro hnodup vout hcheck hvalid
    have hfounders := (h.founders_iff.mp hcheck).2.1.2
    have houts := h.payees_iff.mp hvalid
    exact subperm_of_subset hnodup (append_subset.mpr ⟨hfounders, houts⟩)
  · intro hfounders htime hlegacy hpays
    by_contra hrepeated
    obtain ⟨rest, hone, hfewer, hserved⟩ :=
      exists_shared hfounders length_getBlockTxOuts hrepeated
    have hsub := hpays (founderPayments r nHeight ++ rest)
      (h.founders_iff.mpr ⟨htime, ⟨hfounders, subset_append_left _ _⟩,
        (totalPaymentTx_le rest).trans hone, fun _ _ => hlegacy _⟩)
      (h.payees_iff.mpr hserved)
    -- fewer outputs than payments
    have hlength := hsub.length_le
    rw [requiredPayments, length_append, length_append] at hlength
    omega

end Payments

/-! ## One output for two -/

namespace Sample

/-- The rewards of the main network, with one byte for the script of a founder. -/
def mainRewards : RewardParams :=
  { Params.main with
    nTnodePaymentsStartBlock := 600
    nTnodePaymentsBugFixedAtBlock := 0
    rewardsStage2Start := 71000
    rewardsStage3Start := 840000
    rewardsStage4Start := 1680000
    rewardsStage5Start := 2520000
    rewardsStage6Start := 3366000
    getFounderScript := fun i => [UInt8.ofNat i]
    enforced := by decide }

def syncedNode : NodeView := ⟨1600000000, true, fun _ => true, false, fun _ => 0⟩

/-- Half of the reward is for the operator, who has the script `operator`; the owner has the script
    of one byte 9. -/
def halfPayee (operator : CScript) : MN where
  proTxHash := 1
  internalId := 0
  collateralOutpoint := ⟨1, 0⟩
  nOperatorReward := 5000
  pdmnState := ⟨460000, 0, 0, -1, -1, 0, 0, 0, 0, .null, 0, .null, [9], operator⟩

def payeeList (dmn : MN) : MNList :=
  ⟨0, 469999, 1, ⟨[(1, dmn)], nodup_singleton _⟩, .empty, .empty⟩

end Sample

open Sample in
/-- An operator with a script of their own has an output of their own. -/
theorem paysSeparately_ownScript :
    PaysSeparately mainRewards syncedNode 470000 (payeeList (halfPayee [8])) (halfPayee [8]) :=
  (paysSeparately_iff ⟨by decide, by decide, rfl, rfl⟩).1 (by decide +kernel)

open Sample in
/-- The owner is also the operator: one output of half the reward is enough. -/
theorem sharedScript_not_separate :
    Enforced mainRewards syncedNode 470000 (payeeList (halfPayee [9])) (halfPayee [9]) ∧
      ¬ PaysSeparately mainRewards syncedNode 470000 (payeeList (halfPayee [9]))
        (halfPayee [9]) := by
  refine ⟨⟨by decide, by decide, rfl, rfl⟩, fun hpays => ?_⟩
  have hsub := hpays [⟨1125000000, [1]⟩, ⟨7200000000, [2]⟩, ⟨1125000000, [3]⟩, ⟨843750000, [9]⟩]
    (by decide +kernel) (by decide +kernel)
  exact absurd hsub.length_le (by decide +kernel)

end Tecracoin.Validation
