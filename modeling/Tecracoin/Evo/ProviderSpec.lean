/-
  What a special transaction that passes its check brings along.

  Each check is taken apart once, into what the list update and the invariants
  use of it: the payload can be read, the keys that must not be null are not,
  and addresses and keys are not in other hands in the list of the previous
  block.
-/
import Tecracoin.Evo.Indexes
import Tecracoin.Evo.ProviderTx

namespace Tecracoin.Evo

open Data Llmq UniqueValue UniqueProperty

variable {u : Unit} {dmn : MN} {o : COutPoint} {addr : CService}

variable {env : EvoEnv} {chain : CChain} {utxo : UTXO} {mnList : MNList} {tx : CTransaction}

/-! ## Who has a property -/

namespace CDeterministicMN

/-- Only a property of its own kind can be the one in question. -/
lemma owns_outpoint_iff :
    dmn.Owns (.outpoint o) ↔ propertyOf dmn.collateralOutpoint = some (.outpoint o) :=
  ⟨fun howns => howns.of_kind.1 rfl, .inl⟩

lemma owns_service_iff : dmn.Owns (.service addr) ↔ dmn.pdmnState.addr = addr ∧ addr ≠ .null := by
  constructor
  · intro howns
    obtain ⟨hne, heq⟩ := mem_propertyOf_iff.mp (howns.of_kind.2.1 rfl)
    obtain rfl := service.inj heq
    exact ⟨rfl, of_decide_eq_false hne⟩
  · rintro ⟨rfl, hne⟩
    exact .inr (.inl (mem_propertyOf_iff.mpr ⟨decide_eq_false hne, rfl⟩))

lemma owns_keyID_iff {id : CKeyID} :
    dmn.Owns (.keyID id) ↔ dmn.pdmnState.keyIDOwner = id ∧ id ≠ 0 := by
  constructor
  · intro howns
    obtain ⟨hne, heq⟩ := mem_propertyOf_iff.mp (howns.of_kind.2.2.1 rfl)
    obtain rfl := keyID.inj heq
    exact ⟨rfl, of_decide_eq_false hne⟩
  · rintro ⟨rfl, hne⟩
    exact .inr (.inr (.inl (mem_propertyOf_iff.mpr ⟨decide_eq_false hne, rfl⟩)))

lemma owns_pubKey_iff {key : CBLSPublicKey} :
    dmn.Owns (.pubKey key.buf) ↔ dmn.pdmnState.pubKeyOperator = key ∧ key ≠ .null := by
  constructor
  · intro howns
    obtain ⟨hne, heq⟩ := mem_propertyOf_iff.mp (howns.of_kind.2.2.2 rfl)
    obtain rfl := CBLSPublicKey.buf_injective (pubKey.inj heq)
    exact ⟨rfl, of_decide_eq_false hne⟩
  · rintro ⟨rfl, hne⟩
    exact .inr (.inr (.inr (mem_propertyOf_iff.mpr ⟨decide_eq_false hne, rfl⟩)))

end CDeterministicMN

/-! ## Asking the index -/

namespace CDeterministicMNList

variable {T : Type} [UniqueValue T] {l : MNList} {v : T}

section
variable (h : l.PropsExact)
include h

lemma hasUniqueProperty_iff (v : T) :
    l.hasUniqueProperty v = true ↔ ∃ other, l.Owned (serializeHash v) other := by
  rw [hasUniqueProperty, h.props.contains_iff]

lemma hasUniqueProperty_eq_false_iff (v : T) :
    l.hasUniqueProperty v = false ↔ ∀ other, ¬ l.Owned (serializeHash v) other := by
  rw [← Bool.not_eq_true, hasUniqueProperty_iff h, not_exists]

/-- The owner that the index names is in the list. -/
lemma getUniquePropertyMN_of_owned {other : Uint256} (hget : l.mnMap.get? other = some dmn)
    (howns : dmn.Owns (serializeHash v)) : l.getUniquePropertyMN v = some dmn := by
  have hentry := h.props.get?_of (show l.Owned _ other from ⟨dmn, hget, howns⟩)
  rw [getUniquePropertyMN, hentry]
  exact hget

lemma getUniquePropertyMN_eq_some (hmn : l.getUniquePropertyMN v = some dmn) :
    l.mnMap.get? dmn.proTxHash = some dmn ∧ dmn.Owns (serializeHash v) := by
  rw [getUniquePropertyMN, Option.bind_eq_some_iff] at hmn
  obtain ⟨entry, hentry, hget⟩ := hmn
  obtain ⟨other, ⟨owner, howner, howns⟩, rfl⟩ := (h.props _ entry).mp hentry
  obtain rfl := Option.some.inj (howner.symm.trans hget)
  rw [h.hash_eq other owner howner]
  exact ⟨howner, howns⟩

lemma getUniquePropertyMN_eq_none (hmn : l.getUniquePropertyMN v = none) (other : Uint256) :
    ¬ l.Owned (serializeHash v) other := by
  rintro ⟨dmn, hget, howns⟩
  rw [getUniquePropertyMN_of_owned h hget howns] at hmn
  cases hmn

lemma getMNByCollateral_eq_some (hmn : l.getMNByCollateral o = some dmn) :
    l.mnMap.get? dmn.proTxHash = some dmn ∧ dmn.collateralOutpoint = o := by
  obtain ⟨hget, howns⟩ := getUniquePropertyMN_eq_some h hmn
  have hproperty := CDeterministicMN.owns_outpoint_iff.mp howns
  exact ⟨hget, outpoint.inj (mem_propertyOf_iff.mp hproperty).2⟩

/-- A question to an exact index has an answer, and the answer is about the owner. -/
lemma usedBy_ends {test : MN → Bool} : Ends (fun _ => False)
      (fun answer => (answer = true → ∃ other dmn, l.mnMap.get? other = some dmn ∧
          dmn.Owns (serializeHash v) ∧ test dmn = true) ∧
        (answer = false → ∀ other dmn, l.mnMap.get? other = some dmn →
          dmn.Owns (serializeHash v) → test dmn = false))
      (l.usedBy v test) := by
  unfold usedBy
  cases hhas : l.hasUniqueProperty v with
  | false =>
    refine ⟨nofun, fun _ other dmn hget howns => ?_⟩
    exact absurd ⟨dmn, hget, howns⟩ ((hasUniqueProperty_eq_false_iff h v).mp hhas other)
  | true =>
    obtain ⟨owner, dmn, hget, howns⟩ := (hasUniqueProperty_iff h v).mp hhas
    rw [if_pos rfl, getUniquePropertyMN_of_owned h hget howns]
    refine ⟨fun htest => ⟨owner, dmn, hget, howns, htest⟩, ?_⟩
    intro htest other dmn' hget' howns'
    -- a property has one owner
    obtain rfl := h.props.functional ⟨dmn, hget, howns⟩ ⟨dmn', hget', howns'⟩
    rw [hget] at hget'
    exact Option.some.inj hget' ▸ htest

end

end CDeterministicMNList

open CDeterministicMNList

/-! ## Parts of the checks -/

lemma payloadOrReject_ok_iff {α : Type} {payload : Option α} {ptx : α} :
    payloadOrReject payload = .ok ptx ↔ payload = some ptx := by
  cases payload <;> simp [payloadOrReject]

lemma mnOrReject_ok_iff {proTxHash : Uint256} :
    mnOrReject mnList proTxHash = .ok dmn ↔ mnList.mnMap.get? proTxHash = some dmn := by
  unfold mnOrReject getMN
  cases mnList.mnMap.get? proTxHash <;> simp

lemma withPrev_ok_iff {check : Except Failure Unit} :
    withPrev chain check = .ok u ↔ (chain ≠ [] → check = .ok ()) := by
  unfold withPrev
  by_cases hchain : chain = [] <;> simp [hchain]

lemma isValid_of_checkService (h : checkService env addr = .ok u) : addr.isValid = true := by
  simp only [checkService, except_bind_ok_iff, rejectIf_ok_iff] at h
  obtain ⟨_, hvalid, _⟩ := h
  simpa using hvalid

/-- The collateral of a registration that passes. -/
inductive CollateralChecked (env : EvoEnv) (utxo : UTXO) (tx : CTransaction) (proTx : CProRegTx) :
    Prop
  /-- An unspent coin of the right value. -/
  | outside (coin : Coins.Coin) (hash_ne : proTx.collateralOutpoint.hash ≠ 0)
      (unspent : utxo proTx.collateralOutpoint = some coin)
      (value : coin.out.nValue = collateralAmount)
  /-- An output of the transaction itself. -/
  | own (out : CTxOut) (hash_eq : proTx.collateralOutpoint.hash = 0)
      (output : tx.vout[proTx.collateralOutpoint.n.toNat]? = some out)
      (value : out.nValue = collateralAmount)

/-- The outpoint `CheckProRegTx` compares with is the one the list will have. -/
lemma proRegCollateral_ok {proTx : CProRegTx} {r : CTxDestination × CKeyID × COutPoint}
    (h : proRegCollateral env utxo tx proTx = .ok r) :
    CollateralChecked env utxo tx proTx ∧ r.2.2 = proRegOutpoint env tx proTx := by
  revert h
  fun_cases proRegCollateral with
  | case5 hhash coin hcoin hvalue =>
    rintro ⟨⟩
    exact ⟨.outside coin hhash hcoin (not_not.mp hvalue), (if_neg hhash).symm⟩
  | case9 hhash out hout hvalue =>
    rintro ⟨⟩
    exact ⟨.own out (not_not.mp hhash) hout (not_not.mp hvalue), (if_pos (not_not.mp hhash)).symm⟩
  | _ => exact nofun

/-! ## The five kinds of transactions -/

/-- A check with an answer about the payload it has read answers about any payload that is read. -/
lemma of_payload {α : Type} {read : Option α} {proTx : α} {P : α → Prop}
    (hpayload : read = some proTx) (h : ∃ proTx, P proTx)
    (hread : ∀ {proTx}, P proTx → read = some proTx) : P proTx := by
  obtain ⟨proTx', hP⟩ := h
  cases hpayload.symm.trans (hread hP)
  exact hP

/-- A registration that passes on top of a block. -/
structure ProRegChecked (env : EvoEnv) (utxo : UTXO) (mnList : MNList) (tx : CTransaction)
    (proTx : CProRegTx) : Prop where
  payload : env.getProRegTx tx.vExtraPayload = some proTx
  owner : proTx.keyIDOwner ≠ 0
  operator : proTx.pubKeyOperator.isValid = true
  voting : proTx.keyIDVoting ≠ 0
  collateral : CollateralChecked env utxo tx proTx
  /-- Who has the address has the collateral too. -/
  addrFree : mnList.PropsExact → ∀ other dmn, mnList.mnMap.get? other = some dmn →
    dmn.Owns (.service proTx.addr) → dmn.collateralOutpoint = proRegOutpoint env tx proTx
  ownerFree : mnList.PropsExact → ∀ other, ¬ mnList.Owned (.keyID proTx.keyIDOwner) other
  operatorFree : mnList.PropsExact →
    ∀ other, ¬ mnList.Owned (.pubKey proTx.pubKeyOperator.buf) other

lemma checkProRegTx_ok (hchain : chain ≠ [])
    (h : checkProRegTx env chain utxo mnList tx = .ok u) :
    ∃ proTx, ProRegChecked env utxo mnList tx proTx := by
  simp only [checkProRegTx, except_bind_ok_iff, rejectIf_ok_iff, payloadOrReject_ok_iff,
    withPrev_ok_iff] at h
  obtain ⟨_, _, proTx, hpayload, _, _, _, _, _, _, _, hkeys, _, _, _, _, _, _, _, _, collateral,
    hcollateral, _, _, _, hprev, _⟩ := h
  simp only [Bool.or_eq_false_iff, decide_eq_false_iff_not, Bool.not_eq_false'] at hkeys
  obtain ⟨hchecked, hsame⟩ := proRegCollateral_ok hcollateral
  have hlist := hprev hchain
  simp only [checkProRegTxPrev, except_bind_ok_iff, rejectIf_ok_iff, Bool.or_eq_false_iff] at hlist
  obtain ⟨dupAddr, hdupAddr, _, hfalse, _, ⟨howner, hoperator⟩, _⟩ := hlist
  refine ⟨proTx, hpayload, hkeys.1.1, hkeys.1.2, hkeys.2, hchecked, ?_, ?_, ?_⟩
  · intro hexact other dmn hget howns
    have htest := ((usedBy_ends hexact).of_ok hdupAddr).2 hfalse other dmn hget howns
    rw [decide_eq_false_iff_not, not_not, hsame] at htest
    exact htest
  · exact fun hexact => (hasUniqueProperty_eq_false_iff hexact _).mp howner
  · exact fun hexact => (hasUniqueProperty_eq_false_iff hexact _).mp hoperator

/-- A service update that passes on top of a block. -/
structure ProUpServChecked (env : EvoEnv) (mnList : MNList) (tx : CTransaction)
    (proTx : CProUpServTx) : Prop where
  payload : env.getProUpServTx tx.vExtraPayload = some proTx
  addr : proTx.addr.isValid = true
  known : ∃ dmn, mnList.mnMap.get? proTx.proTxHash = some dmn
  addrFree : mnList.PropsExact → ∀ other, mnList.Owned (.service proTx.addr) other →
    other = proTx.proTxHash

lemma checkProUpServTx_ok (hchain : chain ≠ [])
    (h : checkProUpServTx env chain mnList tx = .ok u) :
    ∃ proTx, ProUpServChecked env mnList tx proTx := by
  simp only [checkProUpServTx, except_bind_ok_iff, rejectIf_ok_iff, payloadOrReject_ok_iff,
    withPrev_ok_iff] at h
  obtain ⟨_, _, proTx, hpayload, _, _, _, haddr, hprev⟩ := h
  have hlist := hprev hchain
  simp only [checkProUpServTxPrev, except_bind_ok_iff, rejectIf_ok_iff, mnOrReject_ok_iff] at hlist
  obtain ⟨dmn, hget, dupAddr, hdupAddr, _, hfalse, _⟩ := hlist
  refine ⟨proTx, hpayload, isValid_of_checkService haddr, ⟨dmn, hget⟩, ?_⟩
  rintro hexact other ⟨owner, howner, howns⟩
  have htest := ((usedBy_ends hexact).of_ok hdupAddr).2 hfalse other owner howner howns
  rw [decide_eq_false_iff_not, not_not, hexact.hash_eq other owner howner] at htest
  exact htest

/-- A registrar update that passes on top of a block. -/
structure ProUpRegChecked (env : EvoEnv) (mnList : MNList) (tx : CTransaction)
    (proTx : CProUpRegTx) : Prop where
  payload : env.getProUpRegTx tx.vExtraPayload = some proTx
  operator : proTx.pubKeyOperator.isValid = true
  voting : proTx.keyIDVoting ≠ 0
  known : ∃ dmn, mnList.mnMap.get? proTx.proTxHash = some dmn
  operatorFree : mnList.PropsExact →
    ∀ other, mnList.Owned (.pubKey proTx.pubKeyOperator.buf) other → other = proTx.proTxHash

lemma checkProUpRegTx_ok (hchain : chain ≠ [])
    (h : checkProUpRegTx env chain utxo mnList tx = .ok u) :
    ∃ proTx, ProUpRegChecked env mnList tx proTx := by
  simp only [checkProUpRegTx, except_bind_ok_iff, rejectIf_ok_iff, payloadOrReject_ok_iff,
    withPrev_ok_iff] at h
  obtain ⟨_, _, proTx, hpayload, _, _, _, _, _, hkeys, _, _, hprev⟩ := h
  simp only [Bool.or_eq_false_iff, decide_eq_false_iff_not, Bool.not_eq_false'] at hkeys
  have hlist := hprev hchain
  simp only [checkProUpRegTxPrev, except_bind_ok_iff, rejectIf_ok_iff, mnOrReject_ok_iff] at hlist
  obtain ⟨dmn, hget, _, _, _, _, _, _, dupKey, hdupKey, _, hfalse, _⟩ := hlist
  refine ⟨proTx, hpayload, hkeys.1, hkeys.2, ⟨dmn, hget⟩, ?_⟩
  rintro hexact other ⟨owner, howner, howns⟩
  have htest := ((usedBy_ends hexact).of_ok hdupKey).2 hfalse other owner howner howns
  rw [decide_eq_false_iff_not, not_not, hexact.hash_eq other owner howner] at htest
  exact htest.symm

/-- A revocation that passes on top of a block. -/
structure ProUpRevChecked (env : EvoEnv) (mnList : MNList) (tx : CTransaction)
    (proTx : CProUpRevTx) : Prop where
  payload : env.getProUpRevTx tx.vExtraPayload = some proTx
  known : ∃ dmn, mnList.mnMap.get? proTx.proTxHash = some dmn

lemma checkProUpRevTx_ok (hchain : chain ≠ []) (h : checkProUpRevTx env chain mnList tx = .ok u) :
    ∃ proTx, ProUpRevChecked env mnList tx proTx := by
  simp only [checkProUpRevTx, except_bind_ok_iff, rejectIf_ok_iff, payloadOrReject_ok_iff,
    withPrev_ok_iff] at h
  obtain ⟨_, _, proTx, hpayload, _, _, _, _, hprev⟩ := h
  have hlist := hprev hchain
  simp only [checkProUpRevTxPrev, except_bind_ok_iff, mnOrReject_ok_iff] at hlist
  obtain ⟨dmn, hget, _⟩ := hlist
  exact ⟨proTx, hpayload, dmn, hget⟩

/-- A commitment that passes: its type is known, and it has a bit for every member that the quorum
    can have. -/
structure QuorumCommitmentChecked (env : EvoEnv) (tx : CTransaction)
    (qc : CFinalCommitmentTxPayload) : Prop where
  payload : env.getFinalCommitmentTx tx.vExtraPayload = some qc
  sizes : qc.commitment.isNull = false → ∃ params,
    env.table.llmqs.get? qc.commitment.llmqType = some params ∧
      qc.commitment.validMembers.length = params.size

lemma checkLLMQCommitment_ok (h : checkLLMQCommitment env.llmq chain tx = .ok u) :
    ∃ qc, QuorumCommitmentChecked env tx qc := by
  revert h
  fun_cases checkLLMQCommitment with
  | case6 qc hpayload _ _ _ _ hnull =>
    exact fun _ => ⟨qc, hpayload, fun hnot => (nomatch hnull.symm.trans hnot)⟩
  | case8 qc hpayload _ _ _ _ _ hverify =>
    refine fun _ => ⟨qc, hpayload, fun _ => ?_⟩
    revert hverify
    fun_cases CFinalCommitment.verify with
    | case1 | case2 => exact nofun
    | case3 _ params hparams =>
      intro hverify
      simp only [Bool.and_eq_true, CFinalCommitment.verifySizes, decide_eq_true_eq] at hverify
      exact ⟨params, hparams, hverify.1.1.1.1.1.1.1.1.1.2⟩
  | _ => exact nofun

/-! ## CheckSpecialTx -/

/-- A special transaction of the given type. -/
structure IsSpecial (tx : CTransaction) (nType : TxType) : Prop where
  version : tx.nVersion = 3
  type : tx.nType = nType

/-- A special transaction whose payload is read as `proTx`. -/
structure Carries {α : Type} (nType : TxType) (read : List UInt8 → Option α) (tx : CTransaction)
    (proTx : α) : Prop extends IsSpecial tx nType where
  payload : read tx.vExtraPayload = some proTx

section
variable (env : EvoEnv)

abbrev IsProReg := Carries .TRANSACTION_PROVIDER_REGISTER env.getProRegTx

abbrev IsProUpServ := Carries .TRANSACTION_PROVIDER_UPDATE_SERVICE env.getProUpServTx

abbrev IsProUpReg := Carries .TRANSACTION_PROVIDER_UPDATE_REGISTRAR env.getProUpRegTx

abbrev IsProUpRev := Carries .TRANSACTION_PROVIDER_UPDATE_REVOKE env.getProUpRevTx

end

/-- The check of a transaction of the given type, past the test of the height. -/
lemma IsSpecial.check {nType : TxType} (hspecial : IsSpecial tx nType)
    (hne : nType ≠ .TRANSACTION_NORMAL) (h : checkSpecialTx env chain utxo mnList tx = .ok u) :
    checkPayload env chain utxo mnList tx nType = .ok u := by
  unfold checkSpecialTx at h
  obtain ⟨hversion, rfl⟩ := hspecial
  rw [if_neg (fun hor => hor.elim (fun hother => hother hversion) hne)] at h
  split_ifs at h
  exact h

section
variable (hchain : chain ≠ []) (hcheck : checkSpecialTx env chain utxo mnList tx = .ok u)
include hchain hcheck

lemma IsProReg.checked {proTx : CProRegTx} (h : IsProReg env tx proTx) :
    ProRegChecked env utxo mnList tx proTx :=
  of_payload h.payload (checkProRegTx_ok hchain (h.check nofun hcheck)) (·.payload)

lemma IsProUpServ.checked {proTx : CProUpServTx} (h : IsProUpServ env tx proTx) :
    ProUpServChecked env mnList tx proTx :=
  of_payload h.payload (checkProUpServTx_ok hchain (h.check nofun hcheck)) (·.payload)

lemma IsProUpReg.checked {proTx : CProUpRegTx} (h : IsProUpReg env tx proTx) :
    ProUpRegChecked env mnList tx proTx :=
  of_payload h.payload (checkProUpRegTx_ok hchain (h.check nofun hcheck)) (·.payload)

lemma IsProUpRev.checked {proTx : CProUpRevTx} (h : IsProUpRev env tx proTx) :
    ProUpRevChecked env mnList tx proTx :=
  of_payload h.payload (checkProUpRevTx_ok hchain (h.check nofun hcheck)) (·.payload)

end

end Tecracoin.Evo
