/-
  The masternode list update and its assertions.

  Addresses, collaterals and owner keys are checked against the new list before
  they are entered.  The operator key of a registrar update is not: it has been
  compared with the list of the previous block only.  A block in which an earlier
  transaction has brought the same key for another masternode stops the node at
  the assertion of `AddUniqueProperty`.  Without such a pair of transactions the
  function returns a list or `false`.
-/
import Tecracoin.Evo.ListChain

namespace Tecracoin.Evo

open Data Llmq CDeterministicMNList CDeterministicMN

/-! ## Operator keys within a block -/

/-- The transaction gives the masternode the operator key. -/
inductive BringsKey (env : EvoEnv) (tx : CTransaction) (proTxHash : Uint256)
    (key : CBLSPublicKey) : Prop
  | registration {proTx : CProRegTx} (pro : IsProReg env tx proTx)
      (hash : env.getHash tx = proTxHash) (operator : proTx.pubKeyOperator = key)
  | update {proTx : CProUpRegTx} (pro : IsProUpReg env tx proTx)
      (hash : proTx.proTxHash = proTxHash) (operator : proTx.pubKeyOperator = key)

/-- The transaction takes from the masternode the operator key it had. -/
inductive DropsKey (env : EvoEnv) (oldList : MNList) (tx : CTransaction) (proTxHash : Uint256) :
    Prop
  | update {proTx : CProUpRegTx} (pro : IsProUpReg env tx proTx)
      (hash : proTx.proTxHash = proTxHash)
  | revocation {proTx : CProUpRevTx} (pro : IsProUpRev env tx proTx)
      (hash : proTx.proTxHash = proTxHash)
  /-- Another registration takes the collateral. -/
  | replacement {proTx : CProRegTx} {dmn : MN}
      (pro : IsProReg env tx proTx)
      (get : oldList.mnMap.get? proTxHash = some dmn)
      (collateral : dmn.collateralOutpoint = proRegOutpoint env tx proTx)

/-- The masternode has the key from one of the transactions, and none of the later ones has taken it
    away. -/
def HasKeyFrom (env : EvoEnv) (oldList : MNList) (done : List CTransaction) (proTxHash : Uint256)
    (key : CBLSPublicKey) : Prop :=
  ∃ before tx between, done = before ++ tx :: between ∧ BringsKey env tx proTxHash key ∧
    ∀ t ∈ between, ¬ DropsKey env oldList t proTxHash

/-- No registrar update brings an operator key that another masternode has from an earlier
    transaction of the block. -/
def KeysApart (env : EvoEnv) (oldList : MNList) (vtx : List CTransaction) : Prop :=
  ∀ done tx rest, vtx = done ++ tx :: rest → ∀ proTx,
    IsProUpReg env tx proTx →
    ∀ other, HasKeyFrom env oldList done other proTx.pubKeyOperator → other = proTx.proTxHash

variable {env : EvoEnv} {known : CTransaction → Prop}

section Keys

variable {chain : CChain} {utxo : UTXO} {oldList l l1 l2 : MNList} {done : List CTransaction}
  {tx : CTransaction}
  {nHeight : Int} {src : Option CTransaction} {dmn : MN} {state : MNState} {proTxHash : Uint256}

/-- A state step keeps the operator key, drops it, or takes it from an update. -/
lemma StateStep.operator (h : StateStep env nHeight src dmn state) :
    state.pubKeyOperator = dmn.pdmnState.pubKeyOperator ∨ state.pubKeyOperator = .null ∨
      ∃ tx, src = some tx ∧ BringsKey env tx dmn.proTxHash state.pubKeyOperator := by
  cases h with
  | confirmed | decreased | paid | punished => exact .inl rfl
  | service =>
    rw [serviceState_eq]
    exact .inl rfl
  | @registrar tx _ proTx hpro hhash =>
    rw [registrarState_eq]
    exact .inr (.inr ⟨tx, rfl, .update hpro hhash.symm rfl⟩)
  | revoked =>
    rw [revokedState_eq]
    exact .inr (.inl rfl)

/-- After a transaction, an operator key is the one from before or has been brought by the
    transaction. -/
lemma Steps.operator (h : Steps env nHeight src l1 l2) (hget : l2.mnMap.get? proTxHash = some dmn)
    (hkey : dmn.pdmnState.pubKeyOperator ≠ .null) :
    (∃ dmn1, l1.mnMap.get? proTxHash = some dmn1 ∧
        dmn1.pdmnState.pubKeyOperator = dmn.pdmnState.pubKeyOperator) ∨
      ∃ tx, src = some tx ∧ BringsKey env tx proTxHash dmn.pdmnState.pubKeyOperator := by
  revert hkey
  refine h.forall_get (Φ := fun proTxHash dmn => dmn.pdmnState.pubKeyOperator ≠ .null →
    (∃ dmn1, l1.mnMap.get? proTxHash = some dmn1 ∧
        dmn1.pdmnState.pubKeyOperator = dmn.pdmnState.pubKeyOperator) ∨
      ∃ tx, src = some tx ∧ BringsKey env tx proTxHash dmn.pdmnState.pubKeyOperator)
    ?_ ?_ ?_ proTxHash dmn hget
  · exact fun _ dmn hget _ => .inl ⟨dmn, hget, rfl⟩
  · intro dmn state hdmn hstep hkey
    rcases hstep.operator with hsame | hnull | hbrings
    · rw [hsame] at hkey ⊢
      exact hdmn hkey
    · exact absurd hnull hkey
    · exact .inr hbrings
  · intro tx proTx internalId hsrc hpro _
    exact .inr ⟨tx, hsrc, .registration hpro rfl rfl⟩

/-! ## What becomes of a key that a transaction drops -/

lemma processProUpRegTx_operator {proTx : CProUpRegTx} (h : Sound l1)
    (hpayload : env.getProUpRegTx tx.vExtraPayload = some proTx)
    (hrun : processProUpRegTx env nHeight l1 tx = .ok l2)
    (hget : l2.mnMap.get? proTx.proTxHash = some dmn) :
    dmn.pdmnState.pubKeyOperator = proTx.pubKeyOperator := by
  unfold processProUpRegTx at hrun
  rw [hpayload] at hrun
  rw [except_bind_ok_iff] at hrun
  obtain ⟨old, _, hupdate⟩ := hrun
  obtain ⟨old', map, _, hhash, rfl, _⟩ := h.props.of_updateMNByHash hupdate
  rw [get?_withUpdated, if_pos hhash.symm] at hget
  cases hget
  rfl

lemma processProUpRevTx_operator {proTx : CProUpRevTx} (h : Sound l1)
    (hpayload : env.getProUpRevTx tx.vExtraPayload = some proTx)
    (hrun : processProUpRevTx env nHeight l1 tx = .ok l2)
    (hget : l2.mnMap.get? proTx.proTxHash = some dmn) : dmn.pdmnState.pubKeyOperator = .null := by
  unfold processProUpRevTx at hrun
  rw [hpayload] at hrun
  rw [except_bind_ok_iff] at hrun
  obtain ⟨old, _, hupdate⟩ := hrun
  obtain ⟨old', map, _, hhash, rfl, _⟩ := h.props.of_updateMNByHash hupdate
  rw [get?_withUpdated, if_pos hhash.symm] at hget
  cases hget
  show (revokedState nHeight proTx old.pdmnState).pubKeyOperator = .null
  rw [revokedState_eq]

/-- Two lists of known registrations agree on the collateral of a masternode. -/
lemma CDeterministicMNList.Rooted.collateral_eq (happart : HashesApart env known)
    (h1 : Rooted env known l1) (h2 : Rooted env known l2) {dmn1 dmn2 : MN}
    (hget1 : l1.mnMap.get? proTxHash = some dmn1) (hget2 : l2.mnMap.get? proTxHash = some dmn2) :
    dmn1.collateralOutpoint = dmn2.collateralOutpoint := by
  obtain ⟨tx1, proTx1, hknown1, hhash1, hpayload1, _, hcollateral1⟩ := h1.registered _ _ hget1
  obtain ⟨tx2, proTx2, hknown2, hhash2, hpayload2, _, hcollateral2⟩ := h2.registered _ _ hget2
  obtain rfl := happart.injective tx1 tx2 hknown1 hknown2 (hhash1.trans hhash2.symm)
  cases hpayload1.symm.trans hpayload2
  rw [hcollateral1, hcollateral2]

/-- A masternode that a transaction has taken the key from has one only if the transaction has
    brought it. -/
lemma TxTurn.operator_of_dropsKey (happart : HashesApart env known)
    (hold : Rooted env known oldList) (hknown : known tx) (h : TxTurn env known chain utxo tx l1 l2)
    (hdrops : DropsKey env oldList tx proTxHash) (hget : l2.mnMap.get? proTxHash = some dmn)
    (hkey : dmn.pdmnState.pubKeyOperator ≠ .null) :
    BringsKey env tx proTxHash dmn.pdmnState.pubKeyOperator := by
  have hrun := h.run
  have hrooted : Rooted env known l2 :=
    h.rooted.steps h.steps h.sound (fun _ hsrc => Option.some.inj hsrc ▸ hknown)
  cases hdrops with
  | update hpro hhash =>
    subst hhash
    rw [processTx, if_neg (not_not.mpr hpro.version), hpro.type] at hrun
    exact .update hpro rfl
      (processProUpRegTx_operator h.rooted.sound hpro.payload hrun hget).symm
  | revocation hpro hhash =>
    subst hhash
    rw [processTx, if_neg (not_not.mpr hpro.version), hpro.type] at hrun
    exact absurd (processProUpRevTx_operator h.rooted.sound hpro.payload hrun hget) hkey
  | replacement hpro hgetOld hcollateral =>
    rw [processTx, if_neg (not_not.mpr hpro.version), hpro.type] at hrun
    obtain ⟨l, map, hsound, hfree, _, _, hl2⟩ :=
      processProRegTx_added h.rooted.sound hpro hrun
    have hget' := hget
    rw [hl2, get?_withAdded] at hget'
    split_ifs at hget' with hhash
    · -- the masternode is the one that the transaction registers
      cases hget'
      exact .registration hpro hhash.symm rfl
    · have hsame := (hold.collateral_eq happart hrooted hgetOld hget).symm.trans hcollateral
      refine absurd ⟨dmn, hget', .inl ?_⟩ (hfree proTxHash)
      rw [← hsame]
      exact mem_propertyOf_iff.mpr ⟨(hsound.solid _ _ hget').collateral, rfl⟩

/-- The key of every masternode is the one of the old list or comes from a transaction of the block.
    -/
def KeysTraced (env : EvoEnv) (oldList : MNList) (done : List CTransaction) (l : MNList) : Prop :=
  ∀ proTxHash dmn, l.mnMap.get? proTxHash = some dmn → dmn.pdmnState.pubKeyOperator ≠ .null →
    (∃ old, oldList.mnMap.get? proTxHash = some old ∧
        old.pdmnState.pubKeyOperator = dmn.pdmnState.pubKeyOperator) ∨
      HasKeyFrom env oldList done proTxHash dmn.pdmnState.pubKeyOperator

lemma keysTraced_start (h : Steps env nHeight none (startList chain oldList) l) :
    KeysTraced env oldList [] l := by
  intro proTxHash dmn hget hkey
  rcases h.operator hget hkey with hold | ⟨_, hsrc, _⟩
  · exact .inl hold
  · cases hsrc

lemma KeysTraced.turn (happart : HashesApart env known) (hold : Rooted env known oldList)
    (hknown : known tx) (htraced : KeysTraced env oldList done l1)
    (h : TxTurn env known chain utxo tx l1 l2) : KeysTraced env oldList (done ++ [tx]) l2 := by
  intro proTxHash dmn hget hkey
  have hbrought : BringsKey env tx proTxHash dmn.pdmnState.pubKeyOperator →
      HasKeyFrom env oldList (done ++ [tx]) proTxHash dmn.pdmnState.pubKeyOperator :=
    fun hbrings => ⟨done, tx, [], rfl, hbrings, nofun⟩
  by_cases hdrops : DropsKey env oldList tx proTxHash
  · exact .inr (hbrought (h.operator_of_dropsKey happart hold hknown hdrops hget hkey))
  · rcases h.steps.operator hget hkey with ⟨dmn1, hget1, hsame⟩ | ⟨_, hsrc, hbrings⟩
    · rcases htraced proTxHash dmn1 hget1 (hsame ▸ hkey) with
        ⟨old, hgetOld, hkeyOld⟩ | ⟨before, tx', between, rfl, hbrings, hkept⟩
      · exact .inl ⟨old, hgetOld, hkeyOld.trans hsame⟩
      · refine .inr ⟨before, tx', between ++ [tx], by simp, hsame ▸ hbrings, ?_⟩
        intro t hmem
        rcases List.mem_append.mp hmem with hbetween | hlast
        · exact hkept t hbetween
        · exact List.mem_singleton.mp hlast ▸ hdrops
    · exact .inr (hbrought (Option.some.inj hsrc ▸ hbrings))

/-- A registrar update that has passed its check finds its key free, unless another masternode has
    the key from the block. -/
lemma keyFree_of_traced (hold : Sound oldList) (hchain : chain ≠ [])
    (hcheck : checkSpecialTx env chain utxo oldList tx = .ok ())
    (htraced : KeysTraced env oldList done l)
    (hapart : ∀ proTx, IsProUpReg env tx proTx →
      ∀ other, HasKeyFrom env oldList done other proTx.pubKeyOperator → other = proTx.proTxHash) :
    KeyFree env l tx := by
  rintro proTx hpro other ⟨dmn, hget, howns⟩
  obtain ⟨hkey, hne⟩ := owns_pubKey_iff.mp howns
  rcases htraced other dmn hget (hkey ▸ hne) with ⟨old, hgetOld, hsame⟩ | hfrom
  · -- the check against the old list has found the key free there
    have hchecked := hpro.checked hchain hcheck
    refine hchecked.operatorFree hold.props other ⟨old, hgetOld, ?_⟩
    exact owns_pubKey_iff.mpr ⟨hsame.trans hkey, hne⟩
  · exact hapart proTx hpro other (hkey ▸ hfrom)

end Keys

/-! ## The block -/

/-- No two masternodes of the list share a collateral, an address, an owner key or an operator key.
    The null address and the null key are not shared: they stand for none. -/
def NothingShared (l : MNList) : Prop :=
  ∀ proTxHash proTxHash' dmn dmn', proTxHash ≠ proTxHash' →
    l.mnMap.get? proTxHash = some dmn → l.mnMap.get? proTxHash' = some dmn' →
    dmn.collateralOutpoint ≠ dmn'.collateralOutpoint ∧
      (dmn.pdmnState.addr = dmn'.pdmnState.addr → dmn.pdmnState.addr = .null) ∧
      dmn.pdmnState.keyIDOwner ≠ dmn'.pdmnState.keyIDOwner ∧
      (dmn.pdmnState.pubKeyOperator = dmn'.pdmnState.pubKeyOperator →
        dmn.pdmnState.pubKeyOperator = .null)

lemma CDeterministicMNList.Sound.nothingShared {l : MNList} (h : Sound l) : NothingShared l := by
  intro proTxHash proTxHash' dmn dmn' hne hget hget'
  have hone : ∀ p, dmn.Owns p → ¬ dmn'.Owns p := fun p hp hp' =>
    hne (h.props.props.functional ⟨dmn, hget, hp⟩ ⟨dmn', hget', hp'⟩)
  have hsolid := h.solid _ _ hget
  refine ⟨fun hsame => ?_, fun hsame => ?_, fun hsame => ?_, fun hsame => ?_⟩
  · have howns : dmn.Owns (.outpoint dmn.collateralOutpoint) :=
      .inl (mem_propertyOf_iff.mpr ⟨hsolid.collateral, rfl⟩)
    refine hone _ howns (.inl ?_)
    rw [← hsame]
    exact mem_propertyOf_iff.mpr ⟨hsolid.collateral, rfl⟩
  · by_contra hnull
    exact hone _ (owns_service_iff.mpr ⟨rfl, hnull⟩) (owns_service_iff.mpr ⟨hsame.symm, hnull⟩)
  · have howner : dmn.pdmnState.keyIDOwner ≠ 0 := of_decide_eq_false hsolid.owner
    exact hone _ (owns_keyID_iff.mpr ⟨rfl, howner⟩) (owns_keyID_iff.mpr ⟨hsame.symm, howner⟩)
  · by_contra hnull
    exact hone _ (owns_pubKey_iff.mpr ⟨rfl, hnull⟩) (owns_pubKey_iff.mpr ⟨hsame.symm, hnull⟩)

/-- In every reachable state, a block whose transactions pass their checks: the list that
    `BuildNewListFromBlock` returns shares nothing, and when the operator keys of the block are
    apart, a list or `false` is returned. -/
theorem blockUpdate_orderly (happart : HashesApart env known) {s : ListState}
    (hreach : ListReachable env known s) {op : BlockInput}
    (hknown : ∀ tx ∈ op.block.vtx, known tx) (hcheck : ChecksPass env op s) :
    (∀ newList, buildNewListFromBlock env s.chain op.utxo s.list op.block.vtx = .ok newList →
        NothingShared newList) ∧
      (KeysApart env s.list (op.block.vtx.drop 1) → ∀ e,
        buildNewListFromBlock env s.chain op.utxo s.list op.block.vtx = .error e →
        ReturnsFalse e) := by
  have hrooted := hreach.rooted happart
  have hends := buildNewListFromBlock_ends ⟨happart, hrooted, s.chain_ne, hknown, hcheck⟩
    (KeysTraced env s.list) (fun _ => keysTraced_start)
    (fun done tx rest hvtx l1 l2 htraced hturn =>
      htraced.turn happart hrooted (hknown tx (mem_of_drop_eq hvtx)) hturn)
    (C := KeysApart env s.list (op.block.vtx.drop 1))
    (fun hapart done tx rest hvtx l1 _ htraced =>
      keyFree_of_traced hrooted.sound s.chain_ne (hcheck tx (mem_of_drop_eq hvtx)) htraced
        (hapart done tx rest hvtx))
  refine ⟨fun newList hok => ?_, fun hapart e herror => hends.of_error herror hapart⟩
  obtain ⟨_, _, _, hbuilt, _⟩ := hends.of_ok hok
  exact hbuilt.rooted.sound.nothingShared

namespace Sample

def secondBlock (vtx : List CTransaction) : BlockInput where
  block := ⟨3, coinbase 101 :: vtx, three_ne⟩
  utxo := smallUtxo
  count := 2

/-- A registration with operator key 8. -/
def registerTx : CTransaction := specialTx .TRANSACTION_PROVIDER_REGISTER 2 [7, 8]

/-- A registrar update that gives operator key 8 to the first masternode. -/
def sameKeyTx : CTransaction := specialTx .TRANSACTION_PROVIDER_UPDATE_REGISTRAR 3 [0, 8]

/-- A registrar update with operator key 9. -/
def otherKeyTx : CTransaction := specialTx .TRANSACTION_PROVIDER_UPDATE_REGISTRAR 4 [0, 9]

abbrev buildSecond (vtx : List CTransaction) : Except Failure MNList :=
  buildNewListFromBlock smallEnv afterFirst.chain smallUtxo afterFirst.list
    (secondBlock vtx).block.vtx

lemma keysApart_update_first : KeysApart smallEnv afterFirst.list [sameKeyTx, registerTx] := by
  rintro (_ | ⟨first, _ | ⟨second, done⟩⟩) tx rest hvtx proTx hpro other hkey
  · obtain ⟨before, _, _, hdone, _⟩ := hkey
    cases before <;> cases hdone
  · obtain ⟨_, rfl, _⟩ : first = sameKeyTx ∧ tx = registerTx ∧ rest = [] := by simp_all
    exact absurd hpro.type (by decide)
  · simp at hvtx

end Sample

open Sample in
/-- With operator keys 8 and 9 the block goes through. With key 8 in both, and the update first, the
    registration is refused. -/
theorem blockUpdate_orderly_second :
    (∃ newList, buildSecond [registerTx, otherKeyTx] = .ok newList ∧
      newList.getAllMNsCount = 2 ∧ NothingShared newList) ∧
    ∃ e, buildSecond [sameKeyTx, registerTx] = .error e ∧ ReturnsFalse e := by
  constructor
  · have hcheck : ChecksPass smallEnv (secondBlock [registerTx, otherKeyTx]) afterFirst :=
      checkSpecialTxs_ok_iff.mp (by decide +kernel)
    have horderly := blockUpdate_orderly sampleTxs_apart afterFirst_reachable
      (by decide +kernel) hcheck
    have hbuild : (buildSecond [registerTx, otherKeyTx]).map getAllMNsCount = .ok 2 := by
      decide +kernel
    obtain ⟨newList, hok, hcount⟩ := except_map_ok_iff.mp hbuild
    exact ⟨newList, hok, hcount, horderly.1 newList hok⟩
  · have hcheck : ChecksPass smallEnv (secondBlock [sameKeyTx, registerTx]) afterFirst :=
      checkSpecialTxs_ok_iff.mp (by decide +kernel)
    have horderly := blockUpdate_orderly sampleTxs_apart afterFirst_reachable
      (by decide +kernel) hcheck
    have hbuild : (buildSecond [sameKeyTx, registerTx]).isOk = false := by decide +kernel
    cases hrun : buildSecond [sameKeyTx, registerTx] with
    | ok newList => rw [hrun] at hbuild; cases hbuild
    | error e => exact ⟨e, rfl, horderly.2 keysApart_update_first e hrun⟩

open Sample in
/-- With operator key 8 in both, and the registration first, both transactions pass their checks and
    the node stops at an assertion. -/
theorem operator_key_twice_asserts :
    HashesApart smallEnv (· ∈ sampleTxs) ∧ ListReachable smallEnv (· ∈ sampleTxs) afterFirst ∧
      (∀ tx ∈ (secondBlock [registerTx, sameKeyTx]).block.vtx, tx ∈ sampleTxs) ∧
      ChecksPass smallEnv (secondBlock [registerTx, sameKeyTx]) afterFirst ∧
      buildSecond [registerTx, sameKeyTx] =
        .error (.asserts "!oldEntry || oldEntry->first == dmn->proTxHash") := by
  refine ⟨sampleTxs_apart, afterFirst_reachable, ?_, checkSpecialTxs_ok_iff.mp ?_, ?_⟩
  · decide +kernel
  · decide +kernel
  · decide +kernel

end Tecracoin.Evo
