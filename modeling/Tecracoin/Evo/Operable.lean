/-
  Masternodes that are not banned can be operated.

  A masternode outside of the ban has an address and an operator key that is
  valid.  Everything that takes one of them away bans it in the same step, and
  only a service update lifts the ban.
-/
import Tecracoin.Evo.ListChain

namespace Tecracoin.Evo

open Data Llmq CDeterministicMNList

/-- The masternode is not banned. -/
def CDeterministicMN.Unbanned (dmn : MN) : Prop := dmn.pdmnState.nPoSeBanHeight = -1

instance (dmn : MN) : Decidable dmn.Unbanned := inferInstanceAs (Decidable (_ = _))

/-- What holds of every masternode, banned or not. -/
structure Operable (dmn : MN) : Prop where
  owner : dmn.pdmnState.keyIDOwner ≠ 0
  voting : dmn.pdmnState.keyIDVoting ≠ 0
  penalty : 0 ≤ dmn.pdmnState.nPoSePenalty
  addr : dmn.Unbanned → dmn.pdmnState.addr ≠ .null
  operator : dmn.Unbanned → dmn.pdmnState.pubKeyOperator.isValid = true

/-- The transaction is a service update of the masternode, and the ban is lifted. -/
structure Revives (env : EvoEnv) (nHeight : Int) (src : Option CTransaction) (dmn : MN) :
    Prop where
  reason : ∃ tx proTx, src = some tx ∧ IsProUpServ env tx proTx ∧ proTx.proTxHash = dmn.proTxHash
  unbanned : dmn.Unbanned
  penalty : dmn.pdmnState.nPoSePenalty = 0
  revivedHeight : dmn.pdmnState.nPoSeRevivedHeight = nHeight

variable {env : EvoEnv} {known : CTransaction → Prop} {chain : CChain} {utxo : UTXO}
  {oldList : MNList} {vtx : List CTransaction} {tx : CTransaction}
  {start l l1 l2 newList l3 : MNList}
  {nHeight height : Int} {src : Option CTransaction} {dmn : MN} {state : MNState}
  {proTxHash : Uint256}

/-! ## One step -/

/-- A ban that is set where there was none, at a height that is no marker. -/
lemma banned_of_height {ban : Int} (hheight : 0 ≤ height)
    (h : (if ban = -1 then height else ban) = -1) : False := by
  split_ifs at h with hban
  · omega
  · exact hban h

/-- A punishment can only set the ban. -/
lemma unbanned_of_punished {maxPenalty penalty : Int}
    (h : ({ dmn with pdmnState := punishedState nHeight maxPenalty penalty dmn.pdmnState } :
      MN).Unbanned) : dmn.Unbanned := by
  have h : (if maxPenalty ≤ min maxPenalty (dmn.pdmnState.nPoSePenalty + penalty) ∧
      dmn.pdmnState.nPoSeBanHeight = -1 then nHeight else dmn.pdmnState.nPoSeBanHeight) = -1 := h
  split_ifs at h with hover
  · exact hover.2
  · exact h

/-- The checks of the transactions keep the masternodes operable. -/
lemma StateStep.operable (h : StateStep env nHeight src dmn state) (hdmn : Operable dmn)
    (hheight : 0 ≤ nHeight) (hchain : chain ≠ [])
    (hcheck : ∀ tx, src = some tx → checkSpecialTx env chain utxo oldList tx = .ok ()) :
    Operable { dmn with pdmnState := state } := by
  have howner : state.keyIDOwner ≠ 0 := h.fixed.1 ▸ hdmn.owner
  cases h with
  | confirmed | paid => exact ⟨howner, hdmn.voting, hdmn.penalty, hdmn.addr, hdmn.operator⟩
  | decreased hpenalty hban =>
    refine ⟨howner, hdmn.voting, ?_, hdmn.addr, hdmn.operator⟩
    show 0 ≤ dmn.pdmnState.nPoSePenalty - 1
    omega
  | @punished tx _ maxPenalty penalty _ hmax hpos =>
    refine ⟨howner, hdmn.voting, ?_, fun hu => hdmn.addr (unbanned_of_punished hu),
      fun hu => hdmn.operator (unbanned_of_punished hu)⟩
    have hpenalty := hdmn.penalty
    show 0 ≤ min maxPenalty (dmn.pdmnState.nPoSePenalty + penalty)
    omega
  | @service tx _ proTx hpro hhash =>
    have hchecked := hpro.checked hchain (hcheck tx rfl)
    have haddr : proTx.addr ≠ .null := CService.ne_null_of_isValid hchecked.addr
    rw [serviceState_eq] at howner ⊢
    by_cases hrevives : revives dmn.pdmnState
    · -- the keys are tested before the ban is lifted
      have hkeys := hrevives.2
      simp only [keysSet, Bool.and_eq_true, decide_eq_true_eq] at hkeys
      refine ⟨howner, hdmn.voting, ?_, fun _ => haddr, fun _ => hkeys.1.1⟩
      simp only [if_pos hrevives, le_refl]
    · refine ⟨howner, hdmn.voting, ?_, fun _ => haddr, fun hu => hdmn.operator ?_⟩
      · simp only [if_neg hrevives]
        exact hdmn.penalty
      · simp only [CDeterministicMN.Unbanned, if_neg hrevives] at hu
        exact hu
  | @registrar tx _ proTx hpro hhash =>
    have hchecked := hpro.checked hchain (hcheck tx rfl)
    rw [registrarState_eq] at howner ⊢
    refine ⟨howner, hchecked.voting, hdmn.penalty, ?_, fun _ => hchecked.operator⟩
    by_cases hsame : dmn.pdmnState.pubKeyOperator = proTx.pubKeyOperator
    · simp only [hsame, ne_eq, not_true_eq_false, false_and, if_false]
      exact hdmn.addr
    · simp only [hsame, ne_eq, not_false_eq_true, true_and]
      exact fun hu => (banned_of_height hheight hu).elim
  | revoked =>
    rw [revokedState_eq] at howner ⊢
    exact ⟨howner, hdmn.voting, hdmn.penalty, fun hu => (banned_of_height hheight hu).elim,
      fun hu => (banned_of_height hheight hu).elim⟩

/-- A registration starts operable or banned. -/
lemma newMN_operable {proTx : CProRegTx} {internalId : Nat} (hheight : 0 ≤ nHeight)
    (hchecked : ProRegChecked env utxo oldList tx proTx) :
    Operable (newMN env nHeight internalId tx proTx) := by
  refine ⟨hchecked.owner, hchecked.voting, le_refl 0, fun hu hnull => ?_,
    fun _ => hchecked.operator⟩
  have hnull : proTx.addr = .null := hnull
  have hu : (if proTx.addr = .null then nHeight else -1) = -1 := hu
  rw [if_pos hnull] at hu
  omega

/-- A ban is lifted by a service update only, and nothing else touches the height of the revival. -/
lemma StateStep.unban (h : StateStep env nHeight src dmn state) :
    (¬ dmn.Unbanned → ({ dmn with pdmnState := state } : MN).Unbanned →
        Revives env nHeight src { dmn with pdmnState := state }) ∧
      (state.nPoSeRevivedHeight = dmn.pdmnState.nPoSeRevivedHeight ∨
        state.nPoSeRevivedHeight = nHeight) := by
  cases h with
  | confirmed | paid => exact ⟨fun hban hu => absurd hu hban, .inl rfl⟩
  | decreased _ _ hban => exact ⟨fun hno => absurd hban hno, .inl rfl⟩
  | punished =>
    exact ⟨fun hban hu => absurd (unbanned_of_punished hu) hban, .inl rfl⟩
  | @service tx _ proTx hpro hhash =>
    have hreason : ∃ tx' proTx', some tx = some tx' ∧
        IsProUpServ env tx' proTx' ∧ proTx'.proTxHash = dmn.proTxHash :=
      ⟨tx, proTx, rfl, hpro, hhash.symm⟩
    rw [serviceState_eq]
    by_cases hrevives : revives dmn.pdmnState
    · simp only [if_pos hrevives, or_true, and_true]
      exact fun _ _ => ⟨hreason, rfl, rfl, rfl⟩
    · simp only [if_neg hrevives, true_or, and_true]
      exact fun hban hu => absurd hu hban
  | @registrar tx _ proTx hpro hhash =>
    rw [registrarState_eq]
    refine ⟨fun hban hu => absurd ?_ hban, .inl rfl⟩
    exact (if_neg (fun h => hban h.2)).symm.trans hu
  | revoked =>
    rw [revokedState_eq]
    exact ⟨fun hban hu => absurd ((if_neg hban).symm.trans hu) hban, .inl rfl⟩

lemma IsSpecial.type_eq {nType nType' : TxType} (h : IsSpecial tx nType)
    (h' : IsSpecial tx nType') : nType = nType' :=
  h.type.symm.trans h'.type

/-- The transaction that has lifted the ban does nothing more. -/
lemma Revives.step (hdmn : Revives env nHeight src dmn)
    (h : StateStep env nHeight src dmn state) :
    Revives env nHeight src { dmn with pdmnState := state } := by
  obtain ⟨tx, proTx, rfl, hpro, hhash⟩ := hdmn.reason
  cases h with
  | punished _ hother => cases hpro.type_eq hother
  | registrar _ hother | revoked _ hother => cases hpro.type_eq hother.toIsSpecial
  | @service _ _ proTx' hpro' _ =>
    have hkept : ¬ revives dmn.pdmnState := fun hrevives => hrevives.1 hdmn.unbanned
    rw [serviceState_eq]
    simp only [if_neg hkept]
    exact ⟨⟨tx, proTx, rfl, hpro, hhash⟩, hdmn.unbanned, hdmn.penalty,
      hdmn.revivedHeight⟩

/-! ## A row of steps -/

/-- The transaction registers the masternode. -/
def Registers (env : EvoEnv) (src : Option CTransaction) (proTxHash : Uint256) : Prop :=
  ∃ tx proTx, src = some tx ∧ IsProReg env tx proTx ∧ env.getHash tx = proTxHash

/-- How the ban of a masternode has changed. -/
structure BanKept (env : EvoEnv) (nHeight : Int) (src : Option CTransaction) (old dmn : MN) :
    Prop where
  lifted : ¬ old.Unbanned → dmn.Unbanned → Revives env nHeight src dmn
  revived : old.pdmnState.nPoSeRevivedHeight = nHeight → dmn.pdmnState.nPoSeRevivedHeight = nHeight

/-- A masternode that is there after a row of steps was there before, or has just been registered.
    -/
lemma Steps.banKept (h : Steps env nHeight src l1 l2)
    (hget : l2.mnMap.get? proTxHash = some dmn) :
    (∃ old, l1.mnMap.get? proTxHash = some old ∧ BanKept env nHeight src old dmn) ∨
      Registers env src proTxHash := by
  refine h.forall_get (Φ := fun proTxHash dmn =>
    (∃ old, l1.mnMap.get? proTxHash = some old ∧ BanKept env nHeight src old dmn) ∨
      Registers env src proTxHash) ?_ ?_ ?_ proTxHash dmn hget
  · exact fun _ dmn hget => .inl ⟨dmn, hget, fun hban hu => absurd hu hban, fun hr => hr⟩
  · rintro dmn state (⟨old, hold, hkept⟩ | hregisters) hstep
    · refine .inl ⟨old, hold, fun hban hu => ?_, fun hrevived => ?_⟩
      · by_cases hmid : dmn.Unbanned
        · exact (hkept.lifted hban hmid).step hstep
        · exact hstep.unban.1 hmid hu
      · rcases hstep.unban.2 with hsame | hnow
        · exact hsame.trans (hkept.revived hrevived)
        · exact hnow
    · exact .inr hregisters
  · exact fun tx proTx _ hsrc hpro =>
      .inr ⟨tx, proTx, hsrc, hpro, rfl⟩

/-- Without a transaction a ban stays. -/
lemma Steps.banned (h : Steps env nHeight none l1 l2)
    (hget : l2.mnMap.get? proTxHash = some dmn) :
    ∃ old, l1.mnMap.get? proTxHash = some old ∧ (¬ old.Unbanned → ¬ dmn.Unbanned) ∧
      (old.pdmnState.nPoSeRevivedHeight = nHeight →
        dmn.pdmnState.nPoSeRevivedHeight = nHeight) := by
  rcases h.banKept hget with ⟨old, hold, hkept⟩ | ⟨_, _, hsrc, _⟩
  · refine ⟨old, hold, fun hban hu => ?_, hkept.revived⟩
    obtain ⟨_, _, hsrc, _⟩ := (hkept.lifted hban hu).reason
    cases hsrc
  · cases hsrc

/-! ## Nobody registers twice -/

/-- A masternode of the old list is not registered again. -/
lemma not_registers_old (h : Vetted env known chain utxo oldList vtx) (htx : tx ∈ vtx)
    (hget : oldList.mnMap.get? proTxHash = some dmn) : ¬ Registers env (some tx) proTxHash := by
  rintro ⟨_, proTx, hsrc, hpro, rfl⟩
  cases hsrc
  have hchecked := hpro.checked h.nonempty (h.check tx htx)
  -- it would bring the owner key that the masternode has in the old list
  refine hchecked.ownerFree h.old.sound.props (env.getHash tx) ⟨dmn, hget, ?_⟩
  exact CDeterministicMN.owns_keyID_iff.mpr
    ⟨h.old.again h.apart (h.knows tx htx) hget hpro.payload, hchecked.owner⟩

/-- Masternodes that are not in the old list are from this block. -/
def OldOrNew (nHeight : Int) (oldList l : MNList) : Prop :=
  ∀ proTxHash dmn, l.mnMap.get? proTxHash = some dmn →
    (∃ old, oldList.mnMap.get? proTxHash = some old) ∨ dmn.pdmnState.nRegisteredHeight = nHeight

lemma OldOrNew.steps (hl1 : OldOrNew nHeight oldList l1) (h : Steps env nHeight src l1 l2) :
    OldOrNew nHeight oldList l2 := by
  refine h.forall_get (Φ := fun proTxHash dmn =>
    (∃ old, oldList.mnMap.get? proTxHash = some old) ∨
      dmn.pdmnState.nRegisteredHeight = nHeight) hl1 ?_ ?_
  · rintro dmn state (hold | hnew) hstep
    · exact .inl hold
    · exact .inr (hstep.fixed.2.trans hnew)
  · exact fun _ _ _ _ _ => .inr rfl

/-- What is in the list when its turn comes is not registered by a transaction. -/
lemma TxTurn.not_registers (hvetted : Vetted env known chain utxo oldList vtx) (htx : tx ∈ vtx)
    (h : TxTurn env known chain utxo tx l1 l2) (holdOrNew : OldOrNew chain.length oldList l1)
    (hget : l1.mnMap.get? proTxHash = some dmn) : ¬ Registers env (some tx) proTxHash := by
  intro hregisters
  rcases holdOrNew _ _ hget with ⟨old, hgetOld⟩ | hnew
  · exact not_registers_old hvetted htx hgetOld hregisters
  · obtain ⟨_, proTx, hsrc, hpro, rfl⟩ := hregisters
    cases hsrc
    have hrun := h.run
    rw [processTx, if_neg (not_not.mpr hpro.version), hpro.type] at hrun
    obtain ⟨l, _, _, _, hnone, hkept, _⟩ :=
      processProRegTx_added h.rooted.sound hpro hrun
    rcases hkept _ _ hget with hstill | hearlier
    · rw [hnone] at hstill
      cases hstill
    · exact hearlier hnew

/-! ## The block -/

variable (env chain utxo oldList vtx tx l1 l2) in
/-- While the list of a block is built, transaction `tx` makes `l2` of `l1`. -/
def TxEffect : Prop :=
  ∃ start before after, upkeep env chain oldList = .ok start ∧
    vtx.drop 1 = before ++ tx :: after ∧
    before.foldlM (processTx env chain utxo) start = .ok l1 ∧
    processTx env chain utxo l1 tx = .ok l2

/-- What the transactions of the block lose, one of them loses. -/
lemma Built.txs_lose {P : MNList → Prop}
    (h : Built env known chain utxo oldList vtx l1 l2 l3 newList) (hl1 : P l1) (hnot : ¬ P l2) :
    ∃ tx l l', TxEffect env chain utxo oldList vtx tx l l' ∧ P l ∧ ¬ P l' := by
  obtain ⟨before, tx, after, l, l', hvtx, hbefore, hrun, hl, hlost⟩ := foldlM_loses h.txs hl1 hnot
  exact ⟨tx, l, l', ⟨l1, before, after, h.upkeep, hvtx, hbefore, hrun⟩, hl, hlost⟩

lemma oldOrNew_upkeep (h : Steps env chain.length none (startList chain oldList) start) :
    OldOrNew chain.length oldList start := by
  have hstart : OldOrNew chain.length oldList (startList chain oldList) :=
    fun _ dmn hget => .inl ⟨dmn, hget⟩
  exact hstart.steps h

section
variable (h : TxEffect env chain utxo oldList vtx tx l1 l2)
include h

lemma TxEffect.turn (hvetted : Vetted env known chain utxo oldList vtx) :
    tx ∈ vtx ∧ OldOrNew chain.length oldList l1 ∧ TxTurn env known chain utxo tx l1 l2 := by
  obtain ⟨start, before, after, hstart, hvtx, hbefore, hrun⟩ := h
  have hsplit : ∀ t ∈ before ++ tx :: after, t ∈ vtx := fun t ht =>
    List.mem_of_mem_drop (hvtx ▸ ht)
  have htx : tx ∈ vtx := hsplit tx List.mem_append_cons_self
  have hdone : before ⊆ vtx := fun t ht => hsplit t (List.mem_append_left _ ht)
  obtain ⟨hrooted, hsteps⟩ := hvetted.upkeep hstart
  have hloop := processTxs_ends (hvetted.subset hdone) hrooted hsteps.nHeight_eq
    (fun _ l => OldOrNew chain.length oldList l) (oldOrNew_upkeep hsteps)
    (fun _ _ _ _ _ _ holdOrNew hturn => holdOrNew.steps hturn.steps) (C := False)
    (fun hno => hno.elim)
  obtain ⟨hrooted1, hheight1, holdOrNew⟩ := hloop.of_ok hbefore
  obtain ⟨hsound2, hsteps2⟩ := (processTx_ends hrooted1.sound hheight1 hvetted.nonempty
    (hvetted.check tx htx) (hvetted.apart.ne_zero tx (hvetted.knows tx htx))
    (fun dmn proTx => hrooted1.again hvetted.apart (hvetted.knows tx htx))).of_ok hrun
  exact ⟨htx, holdOrNew, hrooted1, hrun, hsound2, hsteps2⟩

/-- A transaction that lifts a ban is a service update of the masternode. -/
lemma TxEffect.revives (hvetted : Vetted env known chain utxo oldList vtx) {dmn1 dmn2 : MN}
    (hget1 : l1.mnMap.get? proTxHash = some dmn1) (hget2 : l2.mnMap.get? proTxHash = some dmn2)
    (hbanned : ¬ dmn1.Unbanned) (hunbanned : dmn2.Unbanned) :
    Revives env chain.length (some tx) dmn2 := by
  obtain ⟨htx, holdOrNew, hturn⟩ := h.turn hvetted
  rcases hturn.steps.banKept hget2 with ⟨dmn, hget, hkept⟩ | hregisters
  · cases hget1.symm.trans hget
    exact hkept.lifted hbanned hunbanned
  · exact absurd hregisters (hturn.not_registers hvetted htx holdOrNew hget1)

end

/-- A masternode that is banned in the old list and not in the new one has been revived by a
    transaction of the block, and keeps the height of the revival. -/
lemma unban_traced (hvetted : Vetted env known chain utxo oldList vtx)
    (hbuilt : Built env known chain utxo oldList vtx l1 l2 l3 newList) {old : MN}
    (hgetOld : oldList.mnMap.get? proTxHash = some old) (hbanned : ¬ old.Unbanned)
    (hget : newList.mnMap.get? proTxHash = some dmn) (hunbanned : dmn.Unbanned) :
    dmn.pdmnState.nPoSeRevivedHeight = chain.length ∧
      ∃ tx l l' before after, TxEffect env chain utxo oldList vtx tx l l' ∧
        l.mnMap.get? proTxHash = some before ∧ ¬ before.Unbanned ∧
        l'.mnMap.get? proTxHash = some after ∧ after.Unbanned := by
  -- before the transactions the masternode is banned, after them it is not
  obtain ⟨dmn3, hget3, hban3, hrevived3⟩ := Steps.banned hbuilt.paid hget
  obtain ⟨dmn2, hget2, hban2, hrevived2⟩ := Steps.banned hbuilt.spent hget3
  have hunbanned2 : dmn2.Unbanned :=
    not_not.mp (fun hno => hban3 (hban2 hno) hunbanned)
  have hbanned1 : ∀ dmn1, l1.mnMap.get? proTxHash = some dmn1 → ¬ dmn1.Unbanned := by
    intro dmn1 hget1
    obtain ⟨old', hgetOld', hkept, _⟩ := Steps.banned hbuilt.upkeepSteps hget1
    cases hgetOld.symm.trans hgetOld'
    exact hkept hbanned
  obtain ⟨tx, l, l', heffect, hall, hlost⟩ := hbuilt.txs_lose
    (P := fun l => ∀ dmn, l.mnMap.get? proTxHash = some dmn → ¬ dmn.Unbanned)
    hbanned1 (fun hall => hall dmn2 hget2 hunbanned2)
  -- a masternode of the old list is not registered in the block
  have hfrom : ∀ {tx l l'}, TxEffect env chain utxo oldList vtx tx l l' → ∀ {dmn'},
      l'.mnMap.get? proTxHash = some dmn' → ∃ dmn, l.mnMap.get? proTxHash = some dmn ∧
        BanKept env chain.length (some tx) dmn dmn' := by
    intro tx l l' heffect dmn' hget'
    obtain ⟨htx, _, hturn⟩ := heffect.turn hvetted
    rcases hturn.steps.banKept hget' with hkept | hregisters
    · exact hkept
    · exact absurd hregisters (not_registers_old hvetted htx hgetOld)
  constructor
  · -- every masternode without a ban has been revived at this height
    have hrevived : ∀ dmn', l2.mnMap.get? proTxHash = some dmn' → dmn'.Unbanned →
        dmn'.pdmnState.nPoSeRevivedHeight = chain.length := by
      by_contra hnot
      obtain ⟨tx, l, l', heffect, hall, hlost⟩ := hbuilt.txs_lose (P := fun l =>
        ∀ dmn', l.mnMap.get? proTxHash = some dmn' → dmn'.Unbanned →
          dmn'.pdmnState.nPoSeRevivedHeight = (chain.length : Int))
        (fun dmn' hget' hu => absurd hu (hbanned1 dmn' hget')) hnot
      refine hlost (fun dmn' hget' hu => ?_)
      obtain ⟨dmn, hget, hkept⟩ := hfrom heffect hget'
      by_cases hban : dmn.Unbanned
      · exact hkept.revived (hall dmn hget hban)
      · exact (hkept.lifted hban hu).revivedHeight
    exact hrevived3 (hrevived2 (hrevived dmn2 hget2 hunbanned2))
  · push Not at hlost
    obtain ⟨dmn', hget', hunbanned'⟩ := hlost
    obtain ⟨dmn, hgetBefore, _⟩ := hfrom heffect hget'
    exact ⟨tx, l, l', dmn, dmn', heffect, hgetBefore, hall dmn hgetBefore, hget', hunbanned'⟩

/-! ## Every reachable list -/

variable {s : ListState}

def AllOperable (l : MNList) : Prop :=
  ∀ proTxHash dmn, l.mnMap.get? proTxHash = some dmn → Operable dmn

lemma ListReachable.operable (h : ListReachable env known s) (happart : HashesApart env known) :
    AllOperable s.list := by
  refine (h.forall_get (Φ := fun _ _ dmn => Operable dmn) happart (fun _ _ _ hdmn => hdmn) ?_ ?_).2
  · intro t utxo src dmn state hcheck hdmn hstep
    exact hstep.operable hdmn (Int.natCast_nonneg _) t.chain_ne hcheck
  · intro t utxo tx proTx internalId _ hcheck hpro
    have hchecked := hpro.checked t.chain_ne hcheck
    exact newMN_operable (Int.natCast_nonneg _) hchecked

/-- Every masternode of a reachable list that is not banned can be operated. And in every further
    block, a transaction that lifts a ban is a service update of the masternode, which clears the
    penalty and sets the height of the revival; a masternode that is banned before the block and not
    after it has been revived by such a transaction, at the height of the block. -/
theorem unbanned_operable (happart : HashesApart env known) (hreach : ListReachable env known s) :
    (∀ proTxHash dmn, s.list.mnMap.get? proTxHash = some dmn → dmn.Unbanned →
      dmn.pdmnState.addr ≠ .null ∧ dmn.pdmnState.pubKeyOperator.isValid = true ∧
        dmn.pdmnState.keyIDOwner ≠ 0 ∧ dmn.pdmnState.keyIDVoting ≠ 0 ∧
        0 ≤ dmn.pdmnState.nPoSePenalty) ∧
    ∀ op newList, (∀ tx ∈ op.block.vtx, known tx) → ChecksPass env op s →
      buildNewListFromBlock env s.chain op.utxo s.list op.block.vtx = .ok newList →
      (∀ tx l l' proTxHash before after, TxEffect env s.chain op.utxo s.list op.block.vtx tx l l' →
        l.mnMap.get? proTxHash = some before → ¬ before.Unbanned →
        l'.mnMap.get? proTxHash = some after → after.Unbanned →
        Revives env s.chain.length (some tx) after) ∧
      ∀ proTxHash old dmn, s.list.mnMap.get? proTxHash = some old → ¬ old.Unbanned →
        newList.mnMap.get? proTxHash = some dmn → dmn.Unbanned →
        dmn.pdmnState.nPoSeRevivedHeight = s.chain.length ∧
        ∃ tx l l' before after, TxEffect env s.chain op.utxo s.list op.block.vtx tx l l' ∧
          l.mnMap.get? proTxHash = some before ∧ ¬ before.Unbanned ∧
          l'.mnMap.get? proTxHash = some after ∧ after.Unbanned := by
  have hrooted := hreach.rooted happart
  constructor
  · intro proTxHash dmn hget hunbanned
    have hoperable := hreach.operable happart proTxHash dmn hget
    exact ⟨hoperable.addr hunbanned, hoperable.operator hunbanned, hoperable.owner,
      hoperable.voting, hoperable.penalty⟩
  · intro op newList hknown hcheck hbuild
    have hvetted : Vetted env known s.chain op.utxo s.list op.block.vtx :=
      ⟨happart, hrooted, s.chain_ne, hknown, hcheck⟩
    obtain ⟨l1, l2, l3, hbuilt⟩ := hvetted.built hbuild
    constructor
    · intro tx l l' proTxHash before after heffect hbefore hbanned hafter hunbanned
      exact heffect.revives hvetted hbefore hafter hbanned hunbanned
    · intro proTxHash old dmn hgetOld hbanned hget hunbanned
      exact unban_traced hvetted hbuilt hgetOld hbanned hget hunbanned

namespace Sample

/-- The first masternode gets an address. -/
def serviceBlock : BlockInput where
  block := ⟨3, [coinbase 101, specialTx .TRANSACTION_PROVIDER_UPDATE_SERVICE 5 []], three_ne⟩
  utxo := smallUtxo
  count := 1

/-- The list after the update. -/
def afterService : ListState :=
  afterFirst.extend serviceBlock
    ((buildNewListFromBlock smallEnv afterFirst.chain smallUtxo afterFirst.list
      serviceBlock.block.vtx).toOption.getD afterFirst.list)

lemma serviceBlock_checks : ChecksPass smallEnv serviceBlock afterFirst :=
  checkSpecialTxs_ok_iff.mp (by decide +kernel)

lemma connect_serviceBlock : connect smallEnv serviceBlock afterFirst = some afterService :=
  connect_of_build serviceBlock_checks (by decide +kernel)

lemma afterService_reachable : ListReachable smallEnv (· ∈ sampleTxs) afterService := by
  obtain ⟨s0, hstart, hreaches⟩ := afterFirst_reachable
  exact ⟨s0, hstart, hreaches.next serviceBlock (by decide +kernel) connect_serviceBlock⟩

end Sample

open Sample in
/-- The masternode is banned without an address and revived when it gets one. -/
theorem unbanned_operable_service :
    ∃ dmn dmn', afterFirst.list.mnMap.get? 1 = some dmn ∧ ¬ dmn.Unbanned ∧
      afterService.list.mnMap.get? 1 = some dmn' ∧ dmn'.Unbanned ∧
      dmn'.pdmnState.addr ≠ .null ∧ dmn'.pdmnState.nPoSeRevivedHeight = 10501 := by
  have hbanned : (afterFirst.list.mnMap.get? 1).any (fun dmn => !decide dmn.Unbanned) = true := by
    decide +kernel
  have hunbanned :
      (afterService.list.mnMap.get? 1).any (fun dmn => decide dmn.Unbanned) = true := by
    decide +kernel
  rw [Option.any_eq_true] at hbanned hunbanned
  obtain ⟨dmn, hget, hban⟩ := hbanned
  obtain ⟨dmn', hget', hunban⟩ := hunbanned
  rw [Bool.not_eq_true', decide_eq_false_iff_not] at hban
  rw [decide_eq_true_eq] at hunban
  have hfirst := unbanned_operable sampleTxs_apart afterFirst_reachable
  have hservice := unbanned_operable sampleTxs_apart afterService_reachable
  obtain ⟨newList, hbuild, hstate⟩ := (connect_eq_some connect_serviceBlock).2
  have hlist : newList.mnMap = afterService.list.mnMap := by rw [hstate]; rfl
  have hgetNew : newList.mnMap.get? 1 = some dmn' := by
    rw [hlist]
    exact hget'
  obtain ⟨hrevived, _⟩ := (hfirst.2 serviceBlock newList (by decide +kernel) serviceBlock_checks
    hbuild).2 1 dmn dmn' hget hban hgetNew hunban
  have hlength : afterFirst.chain.length = 10501 := by decide +kernel
  refine ⟨dmn, dmn', hget, hban, hget', hunban, (hservice.1 1 dmn' hget' hunban).1, ?_⟩
  rw [hrevived, hlength]
  rfl

/-! ## Heights -/

/-- The height is unset or lies between the registration and the tip. -/
def Within (registered length unset height : Int) : Prop :=
  height = unset ∨ registered ≤ height ∧ height < length

/-- The heights of a masternode in the order of their events. -/
structure Dated (length : Int) (state : MNState) : Prop where
  registered : 0 ≤ state.nRegisteredHeight ∧ state.nRegisteredHeight < length
  paid : Within state.nRegisteredHeight length 0 state.nLastPaidHeight
  banned : Within state.nRegisteredHeight length (-1) state.nPoSeBanHeight
  revived : Within state.nRegisteredHeight length (-1) state.nPoSeRevivedHeight
  last : state.nPoSeBanHeight = -1 ∨ state.nPoSeRevivedHeight ≤ state.nPoSeBanHeight

lemma StateStep.dated (h : StateStep env nHeight src dmn state)
    (hdmn : Dated (nHeight + 1) dmn.pdmnState) : Dated (nHeight + 1) state := by
  obtain ⟨hregistered, hpaid, hbanned, hrevived, hlast⟩ := hdmn
  have hnow : ∀ unset, Within dmn.pdmnState.nRegisteredHeight (nHeight + 1) unset nHeight :=
    fun _ => .inr ⟨by omega, by omega⟩
  have hle : dmn.pdmnState.nPoSeRevivedHeight ≤ nHeight := by
    unfold Within at hrevived
    omega
  cases h with
  | confirmed | decreased => exact ⟨hregistered, hpaid, hbanned, hrevived, hlast⟩
  | paid => exact ⟨hregistered, hnow 0, hbanned, hrevived, hlast⟩
  | service =>
    rw [serviceState_eq]
    refine ⟨hregistered, hpaid, ?_, ?_, ?_⟩ <;> split_ifs
    exacts [.inl rfl, hbanned, hnow _, hrevived, .inl rfl, hlast]
  | punished | registrar | revoked =>
    simp only [punishedState, registrarState_eq, revokedState_eq]
    refine ⟨hregistered, hpaid, ?_, hrevived, ?_⟩ <;> simp only <;> split_ifs
    exacts [hnow _, hbanned, .inr hle, hlast]

/-- Whatever the blocks, the heights of every masternode are in order. -/
theorem heights_ordered {s : ListState} (happart : HashesApart env known)
    (h : ListReachable env known s) (hget : s.list.mnMap.get? proTxHash = some dmn) :
    Dated s.chain.length dmn.pdmnState := by
  refine (h.forall_get (Φ := fun n _ dmn => Dated n dmn.pdmnState) happart ?_ ?_ ?_).2 _ dmn hget
  · rintro n - dmn ⟨hregistered, hpaid, hbanned, hrevived, hlast⟩
    have hnext {unset height} :
        Within dmn.pdmnState.nRegisteredHeight n unset height →
          Within _ (n + 1 : Nat) unset height :=
      Or.imp_right fun hin => ⟨hin.1, by omega⟩
    exact ⟨⟨hregistered.1, by omega⟩, hnext hpaid, hnext hbanned, hnext hrevived, hlast⟩
  · exact fun _ _ _ _ _ _ hdmn hstep => hstep.dated hdmn
  · intro t _ tx proTx _ _ _ _
    refine ⟨⟨t.chain.length.cast_nonneg, Int.lt_add_one_of_le le_rfl⟩, .inl rfl, ?_, .inl rfl, ?_⟩
    all_goals
      simp only [newMN]
      split_ifs
    · exact .inr ⟨le_rfl, Int.lt_add_one_of_le le_rfl⟩
    · exact .inl rfl
    · exact .inr (show (-1 : Int) ≤ t.chain.length by omega)
    · exact .inl rfl

open Sample in
theorem heights_ordered_service :
    ∃ dmn, afterService.list.mnMap.get? 1 = some dmn ∧
      Dated afterService.chain.length dmn.pdmnState := by
  have hsome : (afterService.list.mnMap.get? 1).isSome := by decide +kernel
  obtain ⟨dmn, hget⟩ := Option.isSome_iff_exists.1 hsome
  exact ⟨dmn, hget, heights_ordered sampleTxs_apart afterService_reachable hget⟩

end Tecracoin.Evo
