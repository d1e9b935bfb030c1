/-
  What `BuildNewListFromBlock` can do to a list, said once.

  `StateStep` lists the ways in which the state of a masternode changes,
  `ListStep` the ways in which the list does, both with the transaction that is
  the reason, if there is one.  Each phase of the function is shown to be a row
  of such steps, and to fail in an orderly way only, with `return false`.  One
  assertion is left: a registrar update can bring an operator key that another
  masternode of the new list has.
-/
import Tecracoin.Evo.BuildList
import Tecracoin.Evo.ListRuns
import Tecracoin.Evo.ProviderSpec

namespace Tecracoin.Evo

open Data Llmq CDeterministicMNList UniqueValue PropsExact List

variable {env : EvoEnv} {known : CTransaction → Prop} {chain : CChain} {utxo : UTXO} {nHeight : Int}
  {src : Option CTransaction} {proTxHash : Uint256} {oldList l l' : MNList}
  {vtx : List CTransaction}
  {tx : CTransaction} {proTx : CProRegTx} {l1 l2 : MNList} {dmn : MN} {state : MNState} {C : Prop}
  {qc : CFinalCommitment} {Φ : Uint256 → MN → Prop} {E : Failure → Prop}

/-- The function has returned `false`; nothing has crashed. -/
def ReturnsFalse (e : Failure) : Prop := ∃ state, e = .returnsFalse state

lemma returnsFalse_dos {level : Int} {code : Nat} {reason : String} :
    ReturnsFalse (.dos level code reason) :=
  ⟨_, rfl⟩

/-! ## The new states, field by field -/

lemma banIfNotBanned_eq {height : Int} :
    state.banIfNotBanned height = { state with nPoSeBanHeight :=
          if state.nPoSeBanHeight = -1 then height else state.nPoSeBanHeight } := by
  unfold CDeterministicMNState.banIfNotBanned
  split_ifs <;> rfl

/-- A service update revives a banned masternode whose keys are set. -/
def revives (state : MNState) : Prop := state.nPoSeBanHeight ≠ -1 ∧ keysSet state = true

instance (state : MNState) : Decidable (revives state) := inferInstanceAs (Decidable (_ ∧ _))

lemma serviceState_eq {proTx : CProUpServTx} :
    serviceState nHeight proTx state =
      { state with
        addr := proTx.addr
        scriptOperatorPayout := proTx.scriptOperatorPayout
        nPoSePenalty := if revives state then 0 else state.nPoSePenalty
        nPoSeBanHeight := if revives state then -1 else state.nPoSeBanHeight
        nPoSeRevivedHeight := if revives state then nHeight else state.nPoSeRevivedHeight } := by
  unfold serviceState
  by_cases hrevives : revives state
  · exact (if_pos hrevives).trans (by simp only [if_pos hrevives])
  · exact (if_neg hrevives).trans (by simp only [if_neg hrevives])

lemma registrarState_eq {proTx : CProUpRegTx} :
    registrarState nHeight proTx state =
      let changed := state.pubKeyOperator ≠ proTx.pubKeyOperator
      { state with
        pubKeyOperator := proTx.pubKeyOperator
        keyIDVoting := proTx.keyIDVoting
        scriptPayout := proTx.scriptPayout
        addr := if changed then .null else state.addr
        scriptOperatorPayout := if changed then [] else state.scriptOperatorPayout
        nRevocationReason := if changed then 0 else state.nRevocationReason
        nPoSeBanHeight :=
          if changed ∧ state.nPoSeBanHeight = -1 then nHeight else state.nPoSeBanHeight } := by
  unfold registrarState
  by_cases hsame : state.pubKeyOperator = proTx.pubKeyOperator
  · simp [hsame]
  · simp only [hsame, ne_eq, not_false_eq_true, if_true, true_and, banIfNotBanned_eq]
    rfl

lemma revokedState_eq {proTx : CProUpRevTx} :
    revokedState nHeight proTx state =
      { state with
        pubKeyOperator := .null
        addr := .null
        scriptOperatorPayout := []
        nRevocationReason := proTx.nReason
        nPoSeBanHeight :=
          if state.nPoSeBanHeight = -1 then nHeight else state.nPoSeBanHeight } := by
  unfold revokedState
  rw [banIfNotBanned_eq]
  rfl

/-! ## Steps -/

/-- What a block of height `nHeight` can make of the state of a masternode. The transaction is the
    one that is the reason. -/
inductive StateStep (env : EvoEnv) (nHeight : Int) : Option CTransaction → MN → MNState → Prop
  | confirmed (dmn : MN) (hash : Uint256) :
      StateStep env nHeight none dmn
        (dmn.pdmnState.updateConfirmedHash env dmn.proTxHash hash)
  | decreased (dmn : MN) (penalty : 0 < dmn.pdmnState.nPoSePenalty)
      (ban : dmn.pdmnState.nPoSeBanHeight = -1) :
      StateStep env nHeight none dmn
        { dmn.pdmnState with nPoSePenalty := dmn.pdmnState.nPoSePenalty - 1 }
  | paid (dmn : MN) :
      StateStep env nHeight none dmn { dmn.pdmnState with nLastPaidHeight := nHeight }
  | punished {tx : CTransaction} (dmn : MN) {maxPenalty penalty : Int}
      (special : IsSpecial tx .TRANSACTION_QUORUM_COMMITMENT) (max : 100 ≤ maxPenalty)
      (positive : 0 < penalty) :
      StateStep env nHeight (some tx) dmn (punishedState nHeight maxPenalty penalty dmn.pdmnState)
  | service {tx : CTransaction} (dmn : MN) {proTx : CProUpServTx}
      (pro : IsProUpServ env tx proTx)
      (hash : dmn.proTxHash = proTx.proTxHash) :
      StateStep env nHeight (some tx) dmn (serviceState nHeight proTx dmn.pdmnState)
  | registrar {tx : CTransaction} (dmn : MN) {proTx : CProUpRegTx}
      (pro : IsProUpReg env tx proTx)
      (hash : dmn.proTxHash = proTx.proTxHash) :
      StateStep env nHeight (some tx) dmn (registrarState nHeight proTx dmn.pdmnState)
  | revoked {tx : CTransaction} (dmn : MN) {proTx : CProUpRevTx}
      (pro : IsProUpRev env tx proTx)
      (hash : dmn.proTxHash = proTx.proTxHash) :
      StateStep env nHeight (some tx) dmn (revokedState nHeight proTx dmn.pdmnState)

/-- What a block of height `nHeight` can do to the list. -/
inductive ListStep (env : EvoEnv) (nHeight : Int) : Option CTransaction → MNList → MNList → Prop
  | change {src : Option CTransaction} {l : MNList} {dmn : MN} {state : MNState}
      (map : MnUniquePropertyMap) (get : l.mnMap.get? dmn.proTxHash = some dmn)
      (step : StateStep env nHeight src dmn state) :
      ListStep env nHeight src l (l.withUpdated { dmn with pdmnState := state } map)
  /-- Another registration takes the collateral. -/
  | replaced {tx : CTransaction} {l : MNList} {dmn : MN} {proTx : CProRegTx}
      (map : MnUniquePropertyMap) (get : l.mnMap.get? dmn.proTxHash = some dmn)
      (pro : IsProReg env tx proTx)
      (collateral : dmn.collateralOutpoint = proRegOutpoint env tx proTx)
      (earlier : dmn.pdmnState.nRegisteredHeight ≠ nHeight) :
      ListStep env nHeight (some tx) l (l.withRemoved dmn.proTxHash dmn map)
  | registered {tx : CTransaction} {l : MNList} {proTx : CProRegTx}
      (map : MnUniquePropertyMap) (new : l.mnMap.get? (env.getHash tx) = none)
      (pro : IsProReg env tx proTx) :
      ListStep env nHeight (some tx) l
        ((countRegistration l).withAdded
          (newMN env nHeight l.nTotalRegisteredCount tx proTx) map)
  /-- The collateral is spent. -/
  | spent {l : MNList} {dmn : MN} (map : MnUniquePropertyMap)
      (get : l.mnMap.get? dmn.proTxHash = some dmn) :
      ListStep env nHeight none l (l.withRemoved dmn.proTxHash dmn map)

/-- A row of steps with one reason. -/
abbrev Steps (env : EvoEnv) (nHeight : Int) (src : Option CTransaction) : MNList → MNList → Prop :=
  Relation.ReflTransGen (ListStep env nHeight src)

/-- The owner key and the height of registration are for life. -/
lemma StateStep.fixed (h : StateStep env nHeight src dmn state) :
    state.keyIDOwner = dmn.pdmnState.keyIDOwner ∧
      state.nRegisteredHeight = dmn.pdmnState.nRegisteredHeight := by
  cases h with
  | confirmed | decreased | paid | punished => exact ⟨rfl, rfl⟩
  | service =>
    rw [serviceState_eq]
    exact ⟨rfl, rfl⟩
  | registrar =>
    rw [registrarState_eq]
    exact ⟨rfl, rfl⟩
  | revoked =>
    rw [revokedState_eq]
    exact ⟨rfl, rfl⟩

lemma ListStep.nHeight_eq (h : ListStep env nHeight src l l') : l'.nHeight = l.nHeight := by
  cases h <;> rfl

lemma Steps.nHeight_eq (h : Steps env nHeight src l l') : l'.nHeight = l.nHeight := by
  induction h with
  | refl => rfl
  | tail _ hstep ih => exact hstep.nHeight_eq.trans ih

/-- An invariant of the masternodes of a list, each by itself. -/
lemma ListStep.forall_get (h : ListStep env nHeight src l l')
    (hl : ∀ proTxHash dmn, l.mnMap.get? proTxHash = some dmn → Φ proTxHash dmn)
    (hchange : ∀ dmn state, l.mnMap.get? dmn.proTxHash = some dmn → Φ dmn.proTxHash dmn →
      StateStep env nHeight src dmn state → Φ dmn.proTxHash { dmn with pdmnState := state })
    (hregister : ∀ tx proTx, src = some tx → IsProReg env tx proTx →
      Φ (env.getHash tx) (newMN env nHeight l.nTotalRegisteredCount tx proTx)) :
    ∀ proTxHash dmn, l'.mnMap.get? proTxHash = some dmn → Φ proTxHash dmn := by
  cases h with
  | @change _ _ dmn state map hget hstep =>
    exact StdMap.forall_set hl (hchange dmn state hget (hl _ _ hget) hstep)
  | replaced | spent => exact StdMap.forall_erase hl
  | @registered tx _ proTx map hnew hpro =>
    exact StdMap.forall_set hl (hregister tx proTx rfl hpro)

lemma Steps.forall_get (h : Steps env nHeight src l l')
    (hl : ∀ proTxHash dmn, l.mnMap.get? proTxHash = some dmn → Φ proTxHash dmn)
    (hchange : ∀ dmn state, Φ dmn.proTxHash dmn → StateStep env nHeight src dmn state →
      Φ dmn.proTxHash { dmn with pdmnState := state })
    (hregister : ∀ tx proTx internalId, src = some tx →
      IsProReg env tx proTx →
      Φ (env.getHash tx) (newMN env nHeight internalId tx proTx)) :
    ∀ proTxHash dmn, l'.mnMap.get? proTxHash = some dmn → Φ proTxHash dmn := by
  induction h with
  | refl => exact hl
  | tail _ hstep ih =>
    exact hstep.forall_get ih (fun dmn state _ => hchange dmn state)
      (fun tx proTx => hregister tx proTx _)

/-! ## Lists that no assertion is waiting for -/

namespace CDeterministicMNList

/-- The properties are indexed exactly, and every masternode has a collateral and an owner key. -/
structure Sound (l : MNList) : Prop where
  props : l.PropsExact
  solid : ∀ proTxHash dmn, l.mnMap.get? proTxHash = some dmn → dmn.Solid

variable {map : MnUniquePropertyMap}

section
variable (h : Sound l)
include h

/-- Hash, height and counter play no role. -/
lemma Sound.header (blockHash : Uint256) (height : Int) (count : Nat) :
    Sound { l with blockHash := blockHash, nHeight := height, nTotalRegisteredCount := count } :=
  ⟨⟨h.props.hash_eq, h.props.props⟩, h.solid⟩

lemma Sound.withUpdated (hget : l.mnMap.get? dmn.proTxHash = some dmn)
    (howner : state.keyIDOwner = dmn.pdmnState.keyIDOwner)
    (hexact : (l.withUpdated { dmn with pdmnState := state } map).PropsExact) :
    Sound (l.withUpdated { dmn with pdmnState := state } map) := by
  have hsolid := h.solid _ _ hget
  refine ⟨hexact, StdMap.forall_set h.solid ⟨hsolid.collateral, ?_⟩⟩
  show beq state.keyIDOwner nullValue = false
  rw [howner]
  exact hsolid.owner

lemma Sound.withRemoved (hexact : (l.withRemoved dmn.proTxHash dmn map).PropsExact) :
    Sound (l.withRemoved dmn.proTxHash dmn map) :=
  ⟨hexact, StdMap.forall_erase h.solid⟩

lemma Sound.withAdded (hsolid : dmn.Solid) (hexact : (l.withAdded dmn map).PropsExact) :
    Sound (l.withAdded dmn map) :=
  ⟨hexact, StdMap.forall_set h.solid hsolid⟩

/-- `UpdateMN` to a state with the same owner key: address and operator key have to be free. -/
lemma Sound.free_of_update (hget : l.mnMap.get? dmn.proTxHash = some dmn)
    (howner : state.keyIDOwner = dmn.pdmnState.keyIDOwner)
    (haddr : ∀ p ∈ propertyOf state.addr, ∀ other, l.Owned p other → other = dmn.proTxHash)
    (hkey : ∀ p ∈ propertyOf state.pubKeyOperator, ∀ other, l.Owned p other →
      other = dmn.proTxHash) :
    ∀ p, ({ dmn with pdmnState := state } : MN).Owns p → ∀ other, l.Owned p other →
      other = dmn.proTxHash := by
  have hown : ∀ p, dmn.Owns p → ∀ other, l.Owned p other → other = dmn.proTxHash :=
    fun p hp other howned => h.props.props.functional howned (owned_self hget hp)
  rintro p (hp | hp | hp | hp) other howned
  · exact hown p (.inl hp) other howned
  · exact haddr p hp other howned
  · have hp' : p ∈ propertyOf state.keyIDOwner := hp
    rw [howner] at hp'
    exact hown p (.inr (.inr (.inl hp'))) other howned
  · exact hkey p hp other howned

end

/-- Nobody leaves the list or changes the collateral. -/
def Stay (l l' : MNList) : Prop :=
  ∀ proTxHash dmn, l.mnMap.get? proTxHash = some dmn →
    ∃ dmn', l'.mnMap.get? proTxHash = some dmn' ∧
      dmn'.collateralOutpoint = dmn.collateralOutpoint

lemma Stay.refl (l : MNList) : Stay l l := fun _ dmn hget => ⟨dmn, hget, rfl⟩

lemma Stay.trans {l3 : MNList} (h1 : Stay l1 l2) (h2 : Stay l2 l3) : Stay l1 l3 := by
  intro proTxHash dmn hget
  obtain ⟨dmn2, hget2, hsame2⟩ := h1 proTxHash dmn hget
  obtain ⟨dmn3, hget3, hsame3⟩ := h2 proTxHash dmn2 hget2
  exact ⟨dmn3, hget3, hsame3.trans hsame2⟩

lemma stay_withUpdated (hget : l.mnMap.get? dmn.proTxHash = some dmn) :
    Stay l (l.withUpdated { dmn with pdmnState := state } map) := by
  intro proTxHash other hother
  rw [get?_withUpdated]
  split_ifs with hsame
  · subst hsame
    cases hget.symm.trans hother
    exact ⟨_, rfl, rfl⟩
  · exact ⟨other, hother, rfl⟩

variable (env nHeight src proTxHash l l') in
/-- Steps that change the entry of one masternode. -/
structure Touched : Prop where
  sound : Sound l'
  steps : Steps env nHeight src l l'
  others : ∀ other, other ≠ proTxHash → l'.mnMap.get? other = l.mnMap.get? other
  stay : Stay l l'

lemma Sound.touched (h : Sound l) : Touched env nHeight src proTxHash l l :=
  ⟨h, .refl, fun _ _ => rfl, .refl l⟩

section

variable (h : Sound l) (hget : l.mnMap.get? proTxHash = some dmn)
  (hstep : StateStep env nHeight src dmn state)
include h hget hstep

/-- An update is a step of the list. It fails only when the properties are not free. -/
lemma Sound.update_ends (hfree : C → ∀ p, ({ dmn with pdmnState := state } : MN).Owns p → ∀ other,
      l.Owned p other → other = dmn.proTxHash) :
    Ends (fun _ => ¬ C) (Touched env nHeight src proTxHash l)
      (l.updateMNByHash proTxHash state) := by
  obtain rfl := h.props.hash_eq proTxHash dmn hget
  cases hupdate : l.updateMNByHash dmn.proTxHash state with
  | ok l' =>
    obtain ⟨dmn', map, hget', _, rfl, hexact⟩ := h.props.of_updateMNByHash hupdate
    cases hget.symm.trans hget'
    refine ⟨h.withUpdated hget hstep.fixed.1 hexact, .single (.change map hget hstep), ?_,
      stay_withUpdated hget⟩
    intro other hne
    rw [get?_withUpdated]
    exact if_neg hne
  | error e =>
    intro hC
    obtain ⟨map, hok, _⟩ := h.props.updateMN hget state (hfree hC)
    rw [updateMNByHash_eq hget, hok] at hupdate
    cases hupdate

/-- An update that keeps the properties does not fail. -/
lemma Sound.update_same_ends (hsame : SameProps dmn.pdmnState state) :
    Ends E (Touched env nHeight src proTxHash l) (l.updateMNByHash proTxHash state) := by
  have hhash := h.props.hash_eq proTxHash dmn hget
  refine (h.update_ends (C := True) hget hstep (fun _ p hp other howned => ?_)).relay
    (fun _ hno => (hno trivial).elim)
  exact h.props.props.functional howned
    (owned_self (hhash ▸ hget) ((owns_of_sameProps hsame).mp hp))

end

lemma Sound.remove_ends (h : Sound l) (hget : l.mnMap.get? dmn.proTxHash = some dmn) :
    Ends E
      (fun l' => Sound l' ∧ ∃ map, l' = l.withRemoved dmn.proTxHash dmn map)
      (l.removeMN dmn.proTxHash) := by
  obtain ⟨map, hok, hexact⟩ := h.props.removeMN hget (h.solid _ _ hget)
  rw [hok]
  exact ⟨h.withRemoved hexact, map, rfl⟩

end CDeterministicMNList

/-! ## Confirmations, penalties and the payee -/

/-- A loop in which each of several masternodes has its own entry changed. -/
lemma each_ends {mns : List MN} {f : MNList → MN → Except Failure MNList} (h : Sound l)
    (hdistinct : mns.Pairwise (fun a b => a.proTxHash ≠ b.proTxHash))
    (hmns : ∀ dmn ∈ mns, l.mnMap.get? dmn.proTxHash = some dmn)
    (hf : ∀ dmn ∈ mns, ∀ l', Sound l' → l'.mnMap.get? dmn.proTxHash = some dmn →
      Ends E (Touched env nHeight none dmn.proTxHash l') (f l' dmn)) :
    Ends E (fun l' => Sound l' ∧ Steps env nHeight none l l' ∧ Stay l l') (mns.foldlM f l) := by
  -- the masternodes to come are as they were
  refine (ends_foldlM (fun done l' => (Sound l' ∧ Steps env nHeight none l l' ∧ Stay l l') ∧
    ∀ dmn ∈ mns, dmn ∉ done → l'.mnMap.get? dmn.proTxHash = some dmn)
    ⟨⟨h, .refl, .refl l⟩, fun dmn hmem _ => hmns dmn hmem⟩ ?_).post (fun _ hl => hl.1)
  rintro done dmn rest rfl l1 ⟨⟨hsound, hsteps, hstay⟩, hrest⟩
  have hapart := pairwise_append.mp hdistinct
  have hmem : dmn ∈ done ++ dmn :: rest := mem_append_cons_self
  have hnot : dmn ∉ done := fun hdone => hapart.2.2 dmn hdone dmn (.head _) rfl
  refine (hf dmn hmem l1 hsound (hrest dmn hmem hnot)).post ?_
  rintro l2 ⟨hsound2, hstep, hothers, hstay2⟩
  refine ⟨⟨hsound2, hsteps.trans hstep, hstay.trans hstay2⟩, fun other hother hnew => ?_⟩
  rw [mem_append, mem_singleton, not_or] at hnew
  rw [hothers]
  · exact hrest other hother hnew.1
  · -- what is neither done nor `dmn` comes after `dmn`
    rcases mem_append.mp hother with hdone | hlater
    · exact absurd hdone hnew.1
    · have hlater := (mem_cons.mp hlater).resolve_left hnew.2
      exact Ne.symm ((pairwise_cons.mp hapart.2.1).1 other hlater)

lemma confirmMN_ends {pindexPrev : CBlock} {prevHeight : Int} (h : Sound l)
    (hget : l.mnMap.get? dmn.proTxHash = some dmn) :
    Ends E (Touched env nHeight none dmn.proTxHash l)
      (confirmMN env pindexPrev prevHeight l dmn) := by
  unfold confirmMN
  split_ifs with hconfirmed henough
  · exact h.touched
  · exact h.update_same_ends hget (.confirmed dmn pindexPrev.hash) ⟨rfl, rfl, rfl⟩
  · exact h.touched

lemma poSeDecrease_ends (h : Sound l) (hget : l.mnMap.get? dmn.proTxHash = some dmn)
    (hdecays : decays dmn = true) : Ends E (Touched env nHeight none dmn.proTxHash l)
      (l.poSeDecrease dmn.proTxHash) := by
  rw [decays, Bool.and_eq_true, decide_eq_true_eq, decide_eq_true_eq] at hdecays
  rw [poSeDecrease_eq hget hdecays.1 hdecays.2]
  exact h.update_same_ends hget (.decreased dmn hdecays.1 hdecays.2) ⟨rfl, rfl, rfl⟩

lemma decreasePoSePenalties_ends (h : Sound l) :
    Ends E (fun l' => Sound l' ∧ Steps env nHeight none l l' ∧ Stay l l')
      (decreasePoSePenalties l) := by
  unfold decreasePoSePenalties
  rw [foldlM_map]
  have hsub : (l.validMNs.filter decays).Sublist l.allMNs :=
    filter_sublist.trans filter_sublist
  refine each_ends h ((h.props.pairwise_allMNs.imp And.left).sublist hsub) ?_ ?_
  · exact fun dmn hmem => (mem_allMNs_iff h.props).mp (hsub.subset hmem)
  · exact fun dmn hmem l' hsound hget =>
      poSeDecrease_ends hsound hget (mem_filter.mp hmem).2

lemma markPaid_ends (env : EvoEnv) (nHeight : Int) {payee : Option MN} (h : Sound l) :
    Ends E (fun l' => Sound l' ∧ Steps env nHeight none l l') (markPaid nHeight payee l) := by
  unfold markPaid
  cases payee with
  | none => exact ⟨h, .refl⟩
  | some dmn =>
    dsimp only
    cases hget : l.getMN dmn.proTxHash with
    | none => exact ⟨h, .refl⟩
    | some current =>
      have hstep : StateStep env nHeight none current _ := .paid current
      exact (h.update_same_ends hget hstep ⟨rfl, rfl, rfl⟩).post (fun _ hl => ⟨hl.sound, hl.steps⟩)

/-! ## The transactions -/

/-- What happens to the list for the sake of one transaction. -/
def AfterTx (env : EvoEnv) (nHeight : Int) (tx : CTransaction) (l l' : MNList) : Prop :=
  Sound l' ∧ Steps env nHeight (some tx) l l'

variable (env utxo nHeight l tx proTx) in
/-- Nothing in the list is in the way of the registration. A masternode with its collateral is
    replaced, and may have its address. -/
structure RegistrationFits : Prop where
  collateral : proTx.collateralOutpoint.hash ≠ 0 →
    collateralMissing utxo (proRegOutpoint env tx proTx) = false
  replaced : ∀ proTxHash dmn, l.mnMap.get? proTxHash = some dmn →
    dmn.collateralOutpoint = proRegOutpoint env tx proTx →
    dmn.pdmnState.nRegisteredHeight ≠ nHeight
  addr : ∀ proTxHash dmn, l.mnMap.get? proTxHash = some dmn → dmn.Owns (.service proTx.addr) →
    dmn.collateralOutpoint = proRegOutpoint env tx proTx
  owner : ∀ other, ¬ l.Owned (.keyID proTx.keyIDOwner) other
  operator : ∀ other, ¬ l.Owned (.pubKey proTx.pubKeyOperator.buf) other

/-- The collateral of a registration is free after a masternode that had it has been removed. -/
lemma removeReplaced_ends (h : Sound l) (hpro : IsProReg env tx proTx) :
    Ends (fun e => ReturnsFalse e ∧ ¬ ∀ proTxHash dmn, l.mnMap.get? proTxHash = some dmn →
        dmn.collateralOutpoint = proRegOutpoint env tx proTx →
        dmn.pdmnState.nRegisteredHeight ≠ nHeight)
      (fun l' => ∃ l1, l' = countRegistration l1 ∧ Sound l1 ∧
        l1.nTotalRegisteredCount = l.nTotalRegisteredCount ∧ Steps env nHeight (some tx) l l1 ∧
        (∀ proTxHash dmn, l1.mnMap.get? proTxHash = some dmn → l.mnMap.get? proTxHash = some dmn) ∧
        (∀ proTxHash dmn, l.mnMap.get? proTxHash = some dmn →
          l1.mnMap.get? proTxHash = some dmn ∨ dmn.pdmnState.nRegisteredHeight ≠ nHeight) ∧
        ∀ other, ¬ l1.Owned (.outpoint (proRegOutpoint env tx proTx)) other)
      (removeReplaced nHeight (countRegistration l) (proRegOutpoint env tx proTx)) := by
  have hcounted : Sound (countRegistration l) := h.header _ _ _
  unfold removeReplaced
  cases hmn : (countRegistration l).getMNByCollateral (proRegOutpoint env tx proTx) with
  | none =>
    refine ⟨l, rfl, h, rfl, .refl, fun _ _ hget => hget, fun _ _ hget => .inl hget,
      fun other howned => ?_⟩
    exact getUniquePropertyMN_eq_none hcounted.props hmn other howned
  | some dmn =>
    obtain ⟨hget, hcollateral⟩ := getMNByCollateral_eq_some hcounted.props hmn
    have howns := (getUniquePropertyMN_eq_some hcounted.props hmn).2
    dsimp only
    split_ifs with hearlier
    · exact ⟨returnsFalse_dos, fun hnone => hnone _ dmn hget hcollateral hearlier⟩
    · refine (hcounted.remove_ends hget).post ?_
      rintro l' ⟨hsound, map, rfl⟩
      have hsound1 : Sound (l.withRemoved dmn.proTxHash dmn map) := hsound.header _ _ _
      refine ⟨l.withRemoved dmn.proTxHash dmn map, rfl, hsound1, rfl,
        .single (.replaced map hget hpro hcollateral hearlier), ?_, ?_, ?_⟩
      · intro proTxHash other hother
        rw [get?_withRemoved] at hother
        split_ifs at hother
        exact hother
      · intro proTxHash other hother
        rw [get?_withRemoved]
        split_ifs with hsame
        · subst hsame
          cases hget.symm.trans hother
          exact .inr hearlier
        · exact .inl hother
      · rintro other ⟨owner, howner, hp⟩
        rw [get?_withRemoved] at howner
        split_ifs at howner with hsame
        exact hsame (h.props.props.functional ⟨owner, howner, hp⟩ ⟨dmn, hget, howns⟩)

/-- A registration that has passed its check is added, or the block is refused. -/
lemma processProRegTx_ends (h : Sound l) (hspecial : IsSpecial tx .TRANSACTION_PROVIDER_REGISTER)
    (hchecked : ProRegChecked env utxo oldList tx proTx) (hhash : env.getHash tx ≠ 0)
    (hagain : ∀ dmn, l.mnMap.get? (env.getHash tx) = some dmn →
      dmn.pdmnState.keyIDOwner = proTx.keyIDOwner) :
    Ends (fun e => ReturnsFalse e ∧ ¬ RegistrationFits env utxo nHeight l tx proTx)
      (AfterTx env nHeight tx l) (processProRegTx env utxo nHeight l tx) := by
  unfold processProRegTx
  rw [hchecked.payload]
  refine (ends_rejectIf (fun hmissing => ⟨returnsFalse_dos, fun hfits => ?missing⟩)).bind
    (fun _ _ => ?_)
  case missing =>
    rw [Bool.and_eq_true, decide_eq_true_eq] at hmissing
    exact Bool.false_ne_true ((hfits.collateral hmissing.1).symm.trans hmissing.2)
  refine ((removeReplaced_ends h ⟨hspecial, hchecked.payload⟩).relay
    (fun _ he => ⟨he.1, fun hfits => he.2 hfits.replaced⟩)).bind ?_
  rintro _ ⟨l1, rfl, hsound, hcount, hsteps, hsub, _, hcollateral⟩
  have hcounted : Sound (countRegistration l1) := hsound.header _ _ _
  have hbefore : ∀ {p other}, (countRegistration l1).Owned p other → l.Owned p other :=
    fun ⟨owner, howner, howns⟩ => ⟨owner, hsub _ _ howner, howns⟩
  refine (ends_rejectIf (fun hdup => ⟨returnsFalse_dos, fun hfits => ?dupAddr⟩)).bind
    (fun _ haddr => ?_)
  case dupAddr =>
    -- who has the address after the removal does not have the collateral
    obtain ⟨other, dmn, hget, howns⟩ := (hasUniqueProperty_iff hcounted.props _).mp hdup
    refine hcollateral other ⟨dmn, hget, .inl ?_⟩
    rw [← hfits.addr other dmn (hsub _ _ hget) howns]
    exact mem_propertyOf_iff.mpr ⟨(hsound.solid _ _ hget).collateral, rfl⟩
  refine (ends_rejectIf (fun hdup => ⟨returnsFalse_dos, fun hfits => ?dupKey⟩)).bind
    (fun _ hkeys => ?_)
  case dupKey =>
    rcases Bool.or_eq_true_iff.mp hdup with howner | hoperator
    · obtain ⟨other, howned⟩ := (hasUniqueProperty_iff hcounted.props _).mp howner
      exact hfits.owner other (hbefore howned)
    · obtain ⟨other, howned⟩ := (hasUniqueProperty_iff hcounted.props _).mp hoperator
      exact hfits.operator other (hbefore howned)
  rw [Bool.or_eq_false_iff] at hkeys
  rw [hasUniqueProperty_eq_false_iff hcounted.props] at haddr
  rw [hasUniqueProperty_eq_false_iff hcounted.props,
    hasUniqueProperty_eq_false_iff hcounted.props] at hkeys
  have howner : beq proTx.keyIDOwner nullValue = false :=
    decide_eq_false hchecked.owner
  -- a transaction that is in the list already brings its own owner key again
  have hnew : l1.mnMap.get? (env.getHash tx) = none := by
    refine Option.eq_none_iff_forall_ne_some.mpr (fun dmn hget => ?_)
    have hsame := hagain dmn (hsub _ _ hget)
    refine absurd ⟨dmn, hget, .inr (.inr (.inl ?_))⟩ (hkeys.1 (env.getHash tx))
    rw [hsame]
    exact mem_propertyOf_iff.mpr ⟨howner, rfl⟩
  have hsolid : (newMN env nHeight l1.nTotalRegisteredCount tx proTx).Solid := by
    refine ⟨?_, howner⟩
    show decide (proRegOutpoint env tx proTx = _) = false
    rw [decide_eq_false_iff_not]
    intro hnull
    have hnullHash := congrArg COutPoint.hash hnull
    unfold proRegOutpoint at hnullHash
    split_ifs at hnullHash with hown
    · exact hhash hnullHash
    · exact hown hnullHash
  have hfree : ∀ p, (newMN env nHeight l1.nTotalRegisteredCount tx proTx).Owns p →
      ∀ other, ¬ (countRegistration l1).Owned p other := by
    rintro p (hp | hp | hp | hp) other howned
    all_goals obtain rfl := (mem_propertyOf_iff.mp hp).2
    · exact hcollateral other howned
    · exact haddr other howned
    · exact hkeys.1 other howned
    · exact hkeys.2 other howned
  obtain ⟨map, hadd, hexact⟩ : ∃ map,
      (countRegistration l1).addMN (newMN env nHeight l1.nTotalRegisteredCount tx proTx) =
        .ok ((countRegistration l1).withAdded _ map) ∧ _ :=
    hcounted.props.addMN hnew hsolid hfree
  rw [← hcount, hadd]
  exact ⟨hcounted.withAdded hsolid hexact,
    hsteps.tail (.registered map hnew ⟨hspecial, hchecked.payload⟩)⟩

/-- A registration that has been added: its collateral was free, and what had to go for it is older
    than the block. -/
lemma processProRegTx_added (h : Sound l1)
    (hpro : IsProReg env tx proTx)
    (hrun : processProRegTx env utxo nHeight l1 tx = .ok l2) :
    ∃ l map, Sound l ∧ (∀ other, ¬ l.Owned (.outpoint (proRegOutpoint env tx proTx)) other) ∧
      l.mnMap.get? (env.getHash tx) = none ∧
      (∀ proTxHash dmn, l1.mnMap.get? proTxHash = some dmn →
        l.mnMap.get? proTxHash = some dmn ∨ dmn.pdmnState.nRegisteredHeight ≠ nHeight) ∧
      l2 = (countRegistration l).withAdded
        (newMN env nHeight l1.nTotalRegisteredCount tx proTx) map := by
  unfold processProRegTx at hrun
  rw [hpro.payload] at hrun
  simp only [except_bind_ok_iff, rejectIf_ok_iff] at hrun
  obtain ⟨_, _, l, hreplaced, _, _, _, _, hadd⟩ := hrun
  obtain ⟨l', rfl, hsound, _, _, _, hkept, hfree⟩ :=
    (removeReplaced_ends h hpro).of_ok hreplaced
  have hcounted : Sound (countRegistration l') := hsound.header _ _ _
  obtain ⟨hnew, _, map, hl2, _⟩ := hcounted.props.of_addMN hadd
  exact ⟨l', map, hsound, hfree, hnew, hkept, hl2⟩

/-- The update of a listed masternode whose new address and operator key are free. -/
lemma updateListed_ends {f : MNState → MNState} (h : Sound l)
    (hstep : ∀ dmn, dmn.proTxHash = proTxHash →
      StateStep env nHeight (some tx) dmn (f dmn.pdmnState))
    (hfree : C → ∀ dmn, dmn.proTxHash = proTxHash → l.mnMap.get? dmn.proTxHash = some dmn →
      (∀ p ∈ propertyOf (f dmn.pdmnState).addr, ∀ other, l.Owned p other → other = dmn.proTxHash) ∧
      ∀ p ∈ propertyOf (f dmn.pdmnState).pubKeyOperator, ∀ other, l.Owned p other →
        other = dmn.proTxHash) :
    Ends (fun e => (C → ReturnsFalse e) ∧ ¬ (C ∧ (l.mnMap.get? proTxHash).isSome))
      (AfterTx env nHeight tx l)
      (mnOrReject l proTxHash >>= fun dmn => l.updateMNByHash proTxHash (f dmn.pdmnState)) := by
  cases hget : l.mnMap.get? proTxHash with
  | none =>
    rw [mnOrReject, getMN, hget]
    exact ⟨fun _ => returnsFalse_dos, fun hfits => by cases hfits.2⟩
  | some dmn =>
    rw [mnOrReject, getMN, hget]
    have hhash := h.props.hash_eq _ _ hget
    refine (h.update_ends (C := C) hget (hstep dmn hhash) (fun hC => ?_)).mono
      (fun _ hno => ⟨fun hC => absurd hC hno, fun hfits => hno hfits.1⟩)
      (fun _ hl => ⟨hl.sound, hl.steps⟩)
    obtain ⟨haddr, hkey⟩ := hfree hC dmn hhash (hhash ▸ hget)
    exact h.free_of_update (hhash ▸ hget) (hstep dmn hhash).fixed.1 haddr hkey

/-- The masternode is there, and no other one has the new address. -/
structure ServiceFits (l : MNList) (proTx : CProUpServTx) : Prop where
  listed : (l.mnMap.get? proTx.proTxHash).isSome
  addr : ∀ other, l.Owned (.service proTx.addr) other → other = proTx.proTxHash

/-- The new address of a service update is checked against the list itself. -/
lemma processProUpServTx_ends {proTx : CProUpServTx} (h : Sound l)
    (hpro : IsProUpServ env tx proTx) :
    Ends (fun e => ReturnsFalse e ∧ ¬ ServiceFits l proTx) (AfterTx env nHeight tx l)
      (processProUpServTx env nHeight l tx) := by
  unfold processProUpServTx
  rw [hpro.payload]
  refine ((usedBy_ends h.props).relay (fun _ hno => hno.elim)).bind (fun dupAddr hanswer => ?_)
  refine (ends_rejectIf (fun hdup => ⟨returnsFalse_dos, fun hfits => ?dupAddr⟩)).bind
    (fun _ hfree => ?_)
  case dupAddr =>
    obtain ⟨other, owner, howner, howns, htest⟩ := hanswer.1 hdup
    rw [decide_eq_true_eq, h.props.hash_eq _ _ howner] at htest
    exact htest (hfits.addr other ⟨owner, howner, howns⟩)
  refine (updateListed_ends (C := True) (f := serviceState nHeight proTx) h
    (fun dmn => .service dmn hpro) (fun _ dmn hhash hget => ?_)).relay
    (fun _ he => ⟨he.1 trivial, fun hfits => he.2 ⟨trivial, hfits.listed⟩⟩)
  rw [serviceState_eq]
  constructor
  · rintro p hp other ⟨owner, howner, howns⟩
    obtain rfl := (mem_propertyOf_iff.mp hp).2
    have htest := hanswer.2 hfree other owner howner howns
    rw [decide_eq_false_iff_not, not_not, h.props.hash_eq _ _ howner] at htest
    rw [htest, hhash]
  · exact fun p hp other howned => h.props.props.functional howned
      (owned_self hget (.inr (.inr (.inr hp))))

/-- No other masternode of the list has the operator key that the transaction brings. -/
def KeyFree (env : EvoEnv) (l : MNList) (tx : CTransaction) : Prop :=
  ∀ proTx, IsProUpReg env tx proTx →
    ∀ other, l.Owned (.pubKey proTx.pubKeyOperator.buf) other → other = proTx.proTxHash

/-- The new operator key of a registrar update is not: the update stops at an assertion when another
    masternode has the key. -/
lemma processProUpRegTx_ends {proTx : CProUpRegTx} (h : Sound l)
    (hpro : IsProUpReg env tx proTx) :
    Ends (fun e => (KeyFree env l tx → ReturnsFalse e) ∧
        ¬ (KeyFree env l tx ∧ (l.mnMap.get? proTx.proTxHash).isSome)) (AfterTx env nHeight tx l)
      (processProUpRegTx env nHeight l tx) := by
  unfold processProUpRegTx
  rw [hpro.payload]
  refine updateListed_ends (f := registrarState nHeight proTx) h
    (fun dmn => .registrar dmn hpro) (fun hkey dmn hhash hget => ?_)
  rw [registrarState_eq]
  constructor
  · dsimp only
    split_ifs
    · exact fun p hp => absurd hp notMem_propertyOf_null
    · exact fun p hp other howned => h.props.props.functional howned
        (owned_self hget (.inr (.inl hp)))
  · intro p hp other howned
    obtain rfl := (mem_propertyOf_iff.mp hp).2
    exact (hkey proTx hpro other howned).trans hhash.symm

lemma processProUpRevTx_ends {proTx : CProUpRevTx} (h : Sound l)
    (hpro : IsProUpRev env tx proTx) :
    Ends (fun e => ReturnsFalse e ∧ l.mnMap.get? proTx.proTxHash = none) (AfterTx env nHeight tx l)
      (processProUpRevTx env nHeight l tx) := by
  unfold processProUpRevTx
  rw [hpro.payload]
  refine (updateListed_ends (C := True) (f := revokedState nHeight proTx) h
    (fun dmn => .revoked dmn hpro) (fun _ dmn _ _ => ?_)).relay
    (fun _ he => ⟨he.1 trivial, by simpa using he.2⟩)
  rw [revokedState_eq]
  exact ⟨fun p hp => absurd hp notMem_propertyOf_null, fun p hp => absurd hp notMem_propertyOf_null⟩

lemma calcPenalty_pos :
    ∃ penalty, l.calcPenalty 66 = .ok penalty ∧ 0 < penalty ∧ 100 ≤ l.calcMaxPoSePenalty := by
  have hmax : 100 ≤ l.calcMaxPoSePenalty := le_max_left _ _
  refine ⟨l.calcMaxPoSePenalty * 66 / 100, if_pos (by decide), ?_, hmax⟩
  omega

/-- A member is punished for a bit that is there. -/
lemma punishMember_ends {member : MN × Nat} (h : Sound l)
    (hspecial : IsSpecial tx .TRANSACTION_QUORUM_COMMITMENT) (hheight : l.nHeight = nHeight)
    (hbit : member.2 < qc.validMembers.length) :
    Ends E (AfterTx env nHeight tx l) (punishMember qc l member) := by
  unfold punishMember
  split_ifs with hmember
  · exact ⟨h, .refl⟩
  · rw [getElem?_eq_getElem hbit]
    cases qc.validMembers[member.2] with
    | true => exact ⟨h, .refl⟩
    | false =>
      obtain ⟨penalty, hpenalty, hpos, hmax⟩ := calcPenalty_pos
      rw [hpenalty]
      rw [Bool.not_eq_true, Bool.not_eq_false', hasMN] at hmember
      obtain ⟨dmn, hget⟩ := Option.isSome_iff_exists.mp hmember
      show Ends _ _ (l.poSePunish member.1.proTxHash penalty)
      rw [poSePunish_eq hpos hget, hheight]
      have hstep : StateStep env nHeight (some tx) dmn _ := .punished dmn hspecial hmax hpos
      exact (h.update_same_ends hget hstep sameProps_punishedState).post
        (fun _ hl => ⟨hl.sound, hl.steps⟩)

lemma handleQuorumCommitment_ends {params : LLMQParams} (h : Sound l)
    (hspecial : IsSpecial tx .TRANSACTION_QUORUM_COMMITMENT) (hheight : l.nHeight = nHeight)
    (hsize : qc.validMembers.length = params.size) :
    Ends E (AfterTx env nHeight tx l) (handleQuorumCommitment env params qc l) := by
  refine ends_foldlM (fun _ => AfterTx env nHeight tx l) ⟨h, .refl⟩ ?_
  rintro done member rest hmembers l1 ⟨hsound, hsteps⟩
  have hmem : member ∈ (getAllQuorumMembers env params qc.quorumHash).zipIdx :=
    hmembers ▸ mem_append_cons_self
  have hbit : member.2 < qc.validMembers.length := by
    have hindex := (mem_zipIdx hmem).2.1
    have hlength := length_calculateQuorum_le env (env.listOfQuorumBlock qc.quorumHash) params.size
      (env.quorumModifier params.type qc.quorumHash)
    unfold getAllQuorumMembers at hindex
    omega
  have hpunish : Ends E (AfterTx env nHeight tx l1) (punishMember qc l1 member) :=
    punishMember_ends hsound hspecial (hsteps.nHeight_eq.trans hheight) hbit
  exact hpunish.post (fun l2 hl2 => ⟨hl2.1, hsteps.trans hl2.2⟩)

lemma processQuorumCommitmentTx_ends {qc : CFinalCommitmentTxPayload} (h : Sound l)
    (hspecial : IsSpecial tx .TRANSACTION_QUORUM_COMMITMENT) (hheight : l.nHeight = nHeight)
    (hchecked : QuorumCommitmentChecked env tx qc) :
    Ends ReturnsFalse (AfterTx env nHeight tx l) (processQuorumCommitmentTx env chain l tx) := by
  unfold processQuorumCommitmentTx
  rw [hchecked.payload]
  dsimp only
  cases hnull : qc.commitment.isNull with
  | true => exact ⟨h, .refl⟩
  | false =>
    obtain ⟨params, hparams, hsize⟩ := hchecked.sizes hnull
    rw [if_neg Bool.false_ne_true, hparams]
    dsimp only
    split_ifs with hquorum
    · exact returnsFalse_dos
    · exact handleQuorumCommitment_ends h hspecial hheight hsize

variable (env utxo nHeight l tx) in
/-- Nothing in the list is in the way of the transaction. -/
structure Fits : Prop where
  registration : ∀ proTx, IsProReg env tx proTx → RegistrationFits env utxo nHeight l tx proTx
  service : ∀ proTx, IsProUpServ env tx proTx → ServiceFits l proTx
  keyFree : KeyFree env l tx
  registrar : ∀ proTx, IsProUpReg env tx proTx → (l.mnMap.get? proTx.proTxHash).isSome
  revocation : ∀ proTx, IsProUpRev env tx proTx → (l.mnMap.get? proTx.proTxHash).isSome
  /-- Commitments have conditions of their own. -/
  provider : ¬ IsSpecial tx .TRANSACTION_QUORUM_COMMITMENT

/-- One transaction that has passed its check against the old list. -/
lemma processTx_ends (h : Sound l) (hheight : l.nHeight = chain.length) (hchain : chain ≠ [])
    (hcheck : checkSpecialTx env chain utxo oldList tx = .ok ()) (hhash : env.getHash tx ≠ 0)
    (hagain : ∀ dmn proTx, l.mnMap.get? (env.getHash tx) = some dmn →
      env.getProRegTx tx.vExtraPayload = some proTx →
      dmn.pdmnState.keyIDOwner = proTx.keyIDOwner) :
    Ends (fun e => (KeyFree env l tx → ReturnsFalse e) ∧ ¬ Fits env utxo chain.length l tx)
      (AfterTx env chain.length tx l) (processTx env chain utxo l tx) := by
  unfold processTx
  split_ifs with hversion
  · exact ⟨h, .refl⟩
  · obtain ⟨nType, hspecial⟩ : ∃ nType, IsSpecial tx nType := ⟨_, not_not.mp hversion, rfl⟩
    rw [hspecial.type]
    cases nType with
    | TRANSACTION_PROVIDER_REGISTER =>
      obtain ⟨proTx, hchecked⟩ := checkProRegTx_ok hchain (hspecial.check nofun hcheck)
      exact (processProRegTx_ends h hspecial hchecked hhash
        (fun dmn hget => hagain dmn proTx hget hchecked.payload)).relay
        (fun _ he => ⟨fun _ => he.1, fun hfits =>
          he.2 (hfits.registration proTx ⟨hspecial, hchecked.payload⟩)⟩)
    | TRANSACTION_PROVIDER_UPDATE_SERVICE =>
      obtain ⟨proTx, hchecked⟩ := checkProUpServTx_ok hchain (hspecial.check nofun hcheck)
      exact (processProUpServTx_ends h ⟨hspecial, hchecked.payload⟩).relay
        (fun _ he => ⟨fun _ => he.1, fun hfits =>
          he.2 (hfits.service proTx ⟨hspecial, hchecked.payload⟩)⟩)
    | TRANSACTION_PROVIDER_UPDATE_REGISTRAR =>
      obtain ⟨proTx, hchecked⟩ := checkProUpRegTx_ok hchain (hspecial.check nofun hcheck)
      exact (processProUpRegTx_ends h ⟨hspecial, hchecked.payload⟩).relay
        (fun _ he => ⟨he.1, fun hfits => he.2 ⟨hfits.keyFree,
          hfits.registrar proTx ⟨hspecial, hchecked.payload⟩⟩⟩)
    | TRANSACTION_PROVIDER_UPDATE_REVOKE =>
      obtain ⟨proTx, hchecked⟩ := checkProUpRevTx_ok hchain (hspecial.check nofun hcheck)
      refine (processProUpRevTx_ends h ⟨hspecial, hchecked.payload⟩).relay
        (fun _ he => ⟨fun _ => he.1, fun hfits => ?_⟩)
      have hlisted := hfits.revocation proTx ⟨hspecial, hchecked.payload⟩
      rw [he.2] at hlisted
      cases hlisted
    | TRANSACTION_QUORUM_COMMITMENT =>
      obtain ⟨qc, hchecked⟩ := checkLLMQCommitment_ok (hspecial.check nofun hcheck)
      exact (processQuorumCommitmentTx_ends h hspecial hheight hchecked).relay
        (fun _ he => ⟨fun _ => he, fun hfits => hfits.provider hspecial⟩)
    | TRANSACTION_NORMAL | TRANSACTION_COINBASE | other => exact ⟨h, .refl⟩

lemma removeSpent_ends (prevout : COutPoint) (h : Sound l) :
    Ends E (fun l' => Sound l' ∧ Steps env nHeight none l l') (removeSpent l prevout) := by
  unfold removeSpent
  cases hmn : l.getMNByCollateral prevout with
  | none => exact ⟨h, .refl⟩
  | some owner =>
    obtain ⟨hget, hcollateral⟩ := getMNByCollateral_eq_some h.props hmn
    dsimp only
    rw [if_pos hcollateral]
    refine (h.remove_ends hget).post ?_
    rintro l' ⟨hsound, map, rfl⟩
    exact ⟨hsound, .single (.spent map hget)⟩

lemma removeSpentAll_ends (env : EvoEnv) (nHeight : Int) {outpoints : List COutPoint}
    (h : Sound l) : Ends E (fun l' => Sound l' ∧ Steps env nHeight none l l')
      (outpoints.foldlM removeSpent l) := by
  refine ends_foldlM (fun _ l' => Sound l' ∧ Steps env nHeight none l l') ⟨h, .refl⟩ ?_
  rintro done prevout rest _ l1 ⟨hsound, hsteps⟩
  exact (removeSpent_ends prevout hsound).post (fun _ hl => ⟨hl.1, hsteps.trans hl.2⟩)

/-! ## The block -/

/-- The hash tells the transactions that occur apart, and none of them has the null hash. -/
structure HashesApart (env : EvoEnv) (known : CTransaction → Prop) : Prop where
  injective : ∀ a b, known a → known b → env.getHash a = env.getHash b → a = b
  ne_zero : ∀ tx, known tx → env.getHash tx ≠ 0

/-- The masternode goes back to a registration: it has its owner key and its collateral. -/
def Registered (env : EvoEnv) (known : CTransaction → Prop) (proTxHash : Uint256) (dmn : MN) :
    Prop :=
  ∃ tx proTx, known tx ∧ env.getHash tx = proTxHash ∧
    env.getProRegTx tx.vExtraPayload = some proTx ∧
    dmn.pdmnState.keyIDOwner = proTx.keyIDOwner ∧
    dmn.collateralOutpoint = proRegOutpoint env tx proTx

namespace CDeterministicMNList

/-- A sound list whose masternodes go back to registrations. -/
structure Rooted (env : EvoEnv) (known : CTransaction → Prop) (l : MNList) : Prop where
  sound : Sound l
  registered : ∀ proTxHash dmn, l.mnMap.get? proTxHash = some dmn →
    Registered env known proTxHash dmn

end CDeterministicMNList

lemma CDeterministicMNList.Rooted.steps (h : Rooted env known l)
    (hsteps : Steps env nHeight src l l') (hsound : Sound l')
    (hknown : ∀ tx, src = some tx → known tx) : Rooted env known l' := by
  refine ⟨hsound, hsteps.forall_get h.registered ?_ ?_⟩
  · rintro dmn state ⟨tx, proTx, htx, hhash, hpayload, howner, hcollateral⟩ hstep
    exact ⟨tx, proTx, htx, hhash, hpayload, hstep.fixed.1.trans howner, hcollateral⟩
  · exact fun tx proTx _ hsrc hpro => ⟨tx, proTx, hknown tx hsrc, rfl, hpro.payload, rfl, rfl⟩

/-- A transaction that is in the list already has registered the same owner key. -/
lemma CDeterministicMNList.Rooted.again (h : Rooted env known l) (happart : HashesApart env known)
    (htx : known tx) (hget : l.mnMap.get? (env.getHash tx) = some dmn)
    (hpayload : env.getProRegTx tx.vExtraPayload = some proTx) :
    dmn.pdmnState.keyIDOwner = proTx.keyIDOwner := by
  obtain ⟨tx', proTx', htx', hhash, hpayload', howner, _⟩ := h.registered _ _ hget
  obtain rfl := happart.injective tx' tx htx' htx hhash
  rw [howner, Option.some.inj (hpayload'.symm.trans hpayload)]

variable (env known chain utxo oldList vtx) in
/-- Known transactions that have passed their checks against a list. -/
structure Vetted : Prop where
  apart : HashesApart env known
  old : Rooted env known oldList
  nonempty : chain ≠ []
  knows : ∀ tx ∈ vtx, known tx
  check : ∀ tx ∈ vtx, checkSpecialTx env chain utxo oldList tx = .ok ()

lemma Vetted.subset {txs : List CTransaction} (h : Vetted env known chain utxo oldList vtx)
    (hsub : txs ⊆ vtx) : Vetted env known chain utxo oldList txs :=
  ⟨h.apart, h.old, h.nonempty, fun tx htx => h.knows tx (hsub htx),
    fun tx htx => h.check tx (hsub htx)⟩

lemma Vetted.start (h : Vetted env known chain utxo oldList vtx) :
    Rooted env known (startList chain oldList) :=
  ⟨h.old.sound.header _ _ _, h.old.registered⟩

variable (env known chain utxo tx l1 l2) in
/-- One turn of the loop over the transactions. -/
structure TxTurn : Prop where
  rooted : Rooted env known l1
  run : processTx env chain utxo l1 tx = .ok l2
  sound : Sound l2
  steps : Steps env chain.length (some tx) l1 l2

/-- The loop over the transactions. `Φ` is any property of the list that each of them keeps, and `C`
    a condition under which no transaction brings an operator key that is taken. -/
lemma processTxs_ends (hvetted : Vetted env known chain utxo oldList vtx) (h : Rooted env known l)
    (hheight : l.nHeight = chain.length) (Φ : List CTransaction → MNList → Prop) (hstart : Φ [] l)
    (hstep : ∀ done tx rest, vtx = done ++ tx :: rest → ∀ l1 l2, Φ done l1 →
      TxTurn env known chain utxo tx l1 l2 → Φ (done ++ [tx]) l2)
    (hkeys : C → ∀ done tx rest, vtx = done ++ tx :: rest → ∀ l1, Sound l1 →
      Φ done l1 → KeyFree env l1 tx) :
    Ends (fun e => C → ReturnsFalse e)
      (fun l' => Rooted env known l' ∧ l'.nHeight = chain.length ∧ Φ vtx l')
      (vtx.foldlM (processTx env chain utxo) l) := by
  refine ends_foldlM (fun done l' => Rooted env known l' ∧ l'.nHeight = chain.length ∧ Φ done l')
    ⟨h, hheight, hstart⟩ ?_
  rintro done tx rest hvtx l1 ⟨hrooted, hheight1, hΦ⟩
  have hmem : tx ∈ vtx := hvtx ▸ mem_append_cons_self
  have htx := hvetted.knows tx hmem
  refine (processTx_ends hrooted.sound hheight1 hvetted.nonempty (hvetted.check tx hmem)
    (hvetted.apart.ne_zero tx htx)
    (fun dmn proTx => hrooted.again hvetted.apart htx)).and_eq.mono ?_ ?_
  · exact fun e he hC => he.1 (hkeys hC done tx rest hvtx l1 hrooted.sound hΦ)
  · rintro l2 ⟨⟨hsound2, hsteps⟩, hrun⟩
    exact ⟨hrooted.steps hsteps hsound2 (fun _ hsrc => Option.some.inj hsrc ▸ htx),
      hsteps.nHeight_eq.trans hheight1,
      hstep done tx rest hvtx l1 l2 hΦ ⟨hrooted, hrun, hsound2, hsteps⟩⟩

/-- The old list and the new one have the same masternodes at the start. -/
lemma upkeep_ends (h : Sound oldList) (hchain : chain ≠ []) : Ends E
      (fun l => Sound l ∧ Steps env chain.length none (startList chain oldList) l ∧ Stay oldList l)
      (upkeep env chain oldList) := by
  have hstart : Sound (startList chain oldList) := h.header _ _ _
  unfold upkeep
  rw [getLast?_eq_getLast_of_ne_nil hchain]
  have hconfirm : Ends E (fun l => Sound l ∧
        Steps env chain.length none (startList chain oldList) l ∧ Stay (startList chain oldList) l)
      (oldList.allMNs.foldlM (confirmMN env (chain.getLast hchain) ((chain.length : Int) - 1))
        (startList chain oldList)) :=
    each_ends hstart (h.props.pairwise_allMNs.imp And.left)
      (fun dmn hmem => (mem_allMNs_iff h.props).mp hmem)
      (fun dmn _ l' hl' hget => confirmMN_ends hl' hget)
  refine hconfirm.bind (fun l0 ⟨hsound0, hsteps0, hstay0⟩ => ?_)
  exact (decreasePoSePenalties_ends hsound0).post
    (fun _ hl => ⟨hl.1, hsteps0.trans hl.2.1, hstay0.trans hl.2.2⟩)

lemma Vetted.upkeep {start : MNList} (h : Vetted env known chain utxo oldList vtx)
    (hok : upkeep env chain oldList = .ok start) :
    Rooted env known start ∧ Steps env chain.length none (startList chain oldList) start := by
  obtain ⟨hsound, hsteps, _⟩ := (upkeep_ends (E := fun _ => True) h.old.sound h.nonempty).of_ok hok
  exact ⟨h.start.steps hsteps hsound nofun, hsteps⟩

lemma mem_of_drop_eq {n : Nat} {done rest : List CTransaction}
    (h : vtx.drop n = done ++ tx :: rest) : tx ∈ vtx := by
  exact mem_of_mem_drop (i := n) (h ▸ mem_append_cons_self)

variable (env known chain utxo oldList vtx l1 l2) in
/-- A list built from a block, with the lists between the phases. -/
structure Built (l3 newList : MNList) : Prop where
  upkeep : upkeep env chain oldList = .ok l1
  upkeepSteps : Steps env chain.length none (startList chain oldList) l1
  txs : (vtx.drop 1).foldlM (processTx env chain utxo) l1 = .ok l2
  spent : Steps env chain.length none l2 l3
  paid : Steps env chain.length none l3 newList
  rooted : Rooted env known newList

/-- `BuildNewListFromBlock` for transactions that have passed their checks. -/
lemma buildNewListFromBlock_ends (h : Vetted env known chain utxo oldList vtx)
    (Φ : List CTransaction → MNList → Prop)
    (hstart : ∀ l1, Steps env chain.length none (startList chain oldList) l1 → Φ [] l1)
    (hstep : ∀ done tx rest, vtx.drop 1 = done ++ tx :: rest → ∀ l1 l2, Φ done l1 →
      TxTurn env known chain utxo tx l1 l2 → Φ (done ++ [tx]) l2)
    (hkeys : C → ∀ done tx rest, vtx.drop 1 = done ++ tx :: rest → ∀ l1, Sound l1 →
      Φ done l1 → KeyFree env l1 tx) :
    Ends (fun e => C → ReturnsFalse e)
      (fun newList => ∃ l1 l2 l3, Built env known chain utxo oldList vtx l1 l2 l3 newList ∧
        Φ (vtx.drop 1) l2)
      (buildNewListFromBlock env chain utxo oldList vtx) := by
  have hnone : ∀ tx, (none : Option CTransaction) = some tx → known tx := nofun
  unfold buildNewListFromBlock
  refine (upkeep_ends h.old.sound h.nonempty).and_eq.bind
    (fun l1 ⟨⟨hsound1, hupkeep, _⟩, hrun⟩ => ?_)
  refine (processTxs_ends (h.subset (drop_subset 1 vtx))
    (h.start.steps hupkeep hsound1 hnone) hupkeep.nHeight_eq Φ (hstart l1 hupkeep) hstep
    hkeys).and_eq.bind (fun l2 ⟨⟨hrooted2, _, hΦ⟩, htxs⟩ => ?_)
  refine (removeSpentAll_ends env chain.length hrooted2.sound).bind
    (fun l3 ⟨hsound3, hsteps3⟩ => ?_)
  refine (markPaid_ends env chain.length hsound3).post (fun newList ⟨hsound, hsteps⟩ => ?_)
  exact ⟨l1, l2, l3,
    { upkeep := hrun
      upkeepSteps := hupkeep
      txs := htxs
      spent := hsteps3
      paid := hsteps
      rooted := (hrooted2.steps hsteps3 hsound3 hnone).steps hsteps hsound hnone }, hΦ⟩

end Tecracoin.Evo
