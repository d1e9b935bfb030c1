/-
  Are the indexes of the provider transactions exact?

  `proTxKeys` says what a transaction contributes to the five indexes.  Adding and
  removing keep them exact as long as no update takes an address or an operator
  key from the very registration it refers to.  `clear` forgets three of the
  indexes, and what they still say makes later transactions look like conflicts.
-/
import Tecracoin.Evo.ListChain
import Tecracoin.Mempool.ProTx

namespace Tecracoin.Mempool

open Data Evo StdMap List

variable {proTxHash : Uint256} {K : Type} {ref : Uint256 × Uint256}

/-! ## Transactions by kind -/

/-- A transaction as the indexes see it. -/
inductive ProviderTx
  | register (proTx : CProRegTx)
  | service (proTx : CProUpServTx)
  | registrar (proTx : CProUpRegTx)
  | revoke (proTx : CProUpRevTx)
  /-- A provider transaction whose payload cannot be read. -/
  | unreadable
  | other

/-- What a provider transaction contributes to the indexes. -/
structure ProTxKeys where
  refs : List (Uint256 × Uint256)
  addresses : List CService
  pubKeyIDs : List CKeyID
  blsPubKeyHashes : List Uint256
  collaterals : List COutPoint

/-- Nothing at all. -/
def ProTxKeys.none : ProTxKeys := ⟨[], [], [], [], []⟩

section Kinds

variable (env : EvoEnv) (blsHash : CBLSPublicKey → Uint256)

def readPayload {α : Type} (kind : α → ProviderTx) : Option α → ProviderTx
  | none => .unreadable
  | some proTx => kind proTx

def readProTx (tx : CTransaction) : ProviderTx :=
  match tx.nType with
  | .TRANSACTION_PROVIDER_REGISTER => readPayload .register (env.getProRegTx tx.vExtraPayload)
  | .TRANSACTION_PROVIDER_UPDATE_SERVICE =>
    readPayload .service (env.getProUpServTx tx.vExtraPayload)
  | .TRANSACTION_PROVIDER_UPDATE_REGISTRAR =>
    readPayload .registrar (env.getProUpRegTx tx.vExtraPayload)
  | .TRANSACTION_PROVIDER_UPDATE_REVOKE =>
    readPayload .revoke (env.getProUpRevTx tx.vExtraPayload)
  | _ => .other

variable {env} {tx : CTransaction}

lemma readProTx_register {proTx : CProRegTx} (htype : tx.nType = .TRANSACTION_PROVIDER_REGISTER)
    (hpayload : env.getProRegTx tx.vExtraPayload = some proTx) :
    readProTx env tx = .register proTx := by
  rw [readProTx, htype, hpayload]
  rfl

lemma readProTx_service {proTx : CProUpServTx}
    (htype : tx.nType = .TRANSACTION_PROVIDER_UPDATE_SERVICE)
    (hpayload : env.getProUpServTx tx.vExtraPayload = some proTx) :
    readProTx env tx = .service proTx := by
  rw [readProTx, htype, hpayload]
  rfl

lemma readProTx_registrar {proTx : CProUpRegTx}
    (htype : tx.nType = .TRANSACTION_PROVIDER_UPDATE_REGISTRAR)
    (hpayload : env.getProUpRegTx tx.vExtraPayload = some proTx) :
    readProTx env tx = .registrar proTx := by
  rw [readProTx, htype, hpayload]
  rfl

lemma readProTx_revoke {proTx : CProUpRevTx}
    (htype : tx.nType = .TRANSACTION_PROVIDER_UPDATE_REVOKE)
    (hpayload : env.getProUpRevTx tx.vExtraPayload = some proTx) :
    readProTx env tx = .revoke proTx := by
  rw [readProTx, htype, hpayload]
  rfl

lemma readProTx_other (hregister : tx.nType ≠ .TRANSACTION_PROVIDER_REGISTER)
    (hservice : tx.nType ≠ .TRANSACTION_PROVIDER_UPDATE_SERVICE)
    (hregistrar : tx.nType ≠ .TRANSACTION_PROVIDER_UPDATE_REGISTRAR)
    (hrevoke : tx.nType ≠ .TRANSACTION_PROVIDER_UPDATE_REVOKE) : readProTx env tx = .other := by
  fun_cases readProTx env tx with
  | case5 => rfl
  | _ => contradiction

variable (env)

/-- The collateral that a registration names, when it is not its own output. -/
def externalCollateral (proTx : CProRegTx) : List COutPoint :=
  if proTx.collateralOutpoint.hash ≠ 0 then [proTx.collateralOutpoint] else []

def proTxKeys (tx : CTransaction) : ProTxKeys :=
  match readProTx env tx with
  | .register proTx =>
    { refs := (externalCollateral proTx).map (fun o => (env.getHash tx, o.hash))
      addresses := [proTx.addr]
      pubKeyIDs := [proTx.keyIDOwner]
      blsPubKeyHashes := [blsHash proTx.pubKeyOperator]
      collaterals := externalCollateral proTx }
  | .service proTx =>
    { ProTxKeys.none with
      refs := [(proTx.proTxHash, env.getHash tx)]
      addresses := [proTx.addr] }
  | .registrar proTx =>
    { ProTxKeys.none with
      refs := [(proTx.proTxHash, env.getHash tx)]
      blsPubKeyHashes := [blsHash proTx.pubKeyOperator] }
  | .revoke proTx => { ProTxKeys.none with refs := [(proTx.proTxHash, env.getHash tx)] }
  | .unreadable => .none
  | .other => .none

/-- The masternode that an update is about. -/
def ProviderTx.refersTo : ProviderTx → Option Uint256
  | .service proTx => some proTx.proTxHash
  | .registrar proTx => some proTx.proTxHash
  | .revoke proTx => some proTx.proTxHash
  | _ => none

/-- A registration and an update cannot contain the hashes of each other. -/
def NoHashCycle (known : CTransaction → Prop) : Prop :=
  ∀ reg upd proTx, known reg → known upd → readProTx env reg = .register proTx →
    (readProTx env upd).refersTo = some (env.getHash reg) →
    env.getHash upd ≠ proTx.collateralOutpoint.hash

end Kinds

namespace ProTxPool

variable {env : EvoEnv} {blsHash : CBLSPublicKey → Uint256} {known : CTransaction → Prop}
  {mnList : MNList} {p p' : ProTxPool} {tx : CTransaction} {map : StdMap K Uint256} {key : K}
  {hash : Uint256}

/-! ## Adding and removing, by the keys -/

/-- Every key of the list gets the transaction as its holder, unless it has one. -/
def emplaceAll {K : Type} [DecidableEq K] (hash : Uint256) (keys : List K)
    (map : StdMap K Uint256) : StdMap K Uint256 :=
  keys.foldl (fun map key => map.insert unordered key hash) map

def eraseAll {K : Type} [DecidableEq K] (keys : List K) (map : StdMap K Uint256) :
    StdMap K Uint256 :=
  keys.foldl (fun map key => map.erase key) map

/-- The indexes after a transaction with the given keys has been added. -/
structure KeysAdded (hash : Uint256) (keys : ProTxKeys) (p p' : ProTxPool) : Prop where
  pool : p'.pool = p.pool
  refs : p'.mapProTxRefs = p.mapProTxRefs ++ keys.refs
  addresses : p'.mapProTxAddresses = emplaceAll hash keys.addresses p.mapProTxAddresses
  pubKeyIDs : p'.mapProTxPubKeyIDs = emplaceAll hash keys.pubKeyIDs p.mapProTxPubKeyIDs
  blsPubKeyHashes :
    p'.mapProTxBlsPubKeyHashes = emplaceAll hash keys.blsPubKeyHashes p.mapProTxBlsPubKeyHashes
  collaterals : p'.mapProTxCollaterals = emplaceAll hash keys.collaterals p.mapProTxCollaterals

lemma KeysAdded.markKeyChange {keys : ProTxKeys} {flag : Bool} (h : KeysAdded hash keys p p') :
    KeysAdded hash keys p (p'.markKeyChange hash flag) := by
  cases flag with
  | false => exact h
  | true => exact ⟨h.pool, h.refs, h.addresses, h.pubKeyIDs, h.blsPubKeyHashes, h.collaterals⟩

lemma keysAdded_addProRegTx (proTx : CProRegTx) :
    KeysAdded hash
      { refs := (externalCollateral proTx).map (fun o => (hash, o.hash))
        addresses := [proTx.addr]
        pubKeyIDs := [proTx.keyIDOwner]
        blsPubKeyHashes := [blsHash proTx.pubKeyOperator]
        collaterals := externalCollateral proTx } p (p.addProRegTx blsHash hash proTx) := by
  unfold addProRegTx externalCollateral
  by_cases hhash : proTx.collateralOutpoint.hash = 0
  · simp only [hhash, ne_eq, not_true_eq_false, if_false]
    exact ⟨rfl, (append_nil _).symm, rfl, rfl, rfl, rfl⟩
  · simp only [hhash, ne_eq, not_false_eq_true, if_true]
    exact ⟨rfl, rfl, rfl, rfl, rfl, rfl⟩

lemma addProTx_ok (h : addProTx env blsHash mnList tx p = .ok p') :
    KeysAdded (env.getHash tx) (proTxKeys env blsHash tx) p p' ∧
      readProTx env tx ≠ .unreadable := by
  revert h
  unfold proTxKeys
  fun_cases addProTx env blsHash mnList tx p with
  | case1 | case3 | case5 | case6 | case8 | case9 => exact nofun
  | case2 htype proTx hpayload =>
    rw [readProTx_register htype hpayload]
    exact fun h => ⟨Except.ok.inj h ▸ keysAdded_addProRegTx proTx, nofun⟩
  | case4 htype proTx hpayload =>
    rw [readProTx_service htype hpayload]
    exact fun h => ⟨Except.ok.inj h ▸ ⟨rfl, rfl, rfl, rfl, rfl, rfl⟩, nofun⟩
  | case7 htype proTx hpayload =>
    rw [readProTx_registrar htype hpayload]
    rintro ⟨⟩
    exact ⟨KeysAdded.markKeyChange ⟨rfl, rfl, rfl, rfl, rfl, rfl⟩, nofun⟩
  | case10 htype proTx hpayload =>
    rw [readProTx_revoke htype hpayload]
    rintro ⟨⟩
    exact ⟨KeysAdded.markKeyChange ⟨rfl, rfl, rfl, rfl, rfl, rfl⟩, nofun⟩
  | case11 hreg hserv hregistrar hrev =>
    rw [readProTx_other hreg hserv hregistrar hrev]
    exact fun h => ⟨Except.ok.inj h ▸ ⟨rfl, (append_nil _).symm, rfl, rfl, rfl, rfl⟩, nofun⟩

/-- The pair of `mapProTxRefs` that removing a transaction erases. -/
def erasedRef (env : EvoEnv) (tx : CTransaction) : Option (Uint256 × Uint256) :=
  match readProTx env tx with
  | .register proTx =>
    if proTx.collateralOutpoint.isNull then none
    else some (env.getHash tx, proTx.collateralOutpoint.hash)
  | update => update.refersTo.map (fun proTxHash => (proTxHash, env.getHash tx))

lemma erasedRef_of_refersTo (h : (readProTx env tx).refersTo = some proTxHash) :
    erasedRef env tx = some (proTxHash, env.getHash tx) := by
  unfold erasedRef
  split
  · case h_1 hread =>
      rw [hread] at h
      cases h
  · rw [h]
    rfl

/-- The indexes after a transaction with the given keys has been removed. -/
structure KeysRemoved (env : EvoEnv) (tx : CTransaction) (keys : ProTxKeys) (p p' : ProTxPool) :
    Prop where
  pool : p'.pool = p.pool
  refs : p'.mapProTxRefs = p.mapProTxRefs.filter (fun ref => decide (erasedRef env tx ≠ some ref))
  addresses : p'.mapProTxAddresses = eraseAll keys.addresses p.mapProTxAddresses
  pubKeyIDs : p'.mapProTxPubKeyIDs = eraseAll keys.pubKeyIDs p.mapProTxPubKeyIDs
  blsPubKeyHashes :
    p'.mapProTxBlsPubKeyHashes = eraseAll keys.blsPubKeyHashes p.mapProTxBlsPubKeyHashes
  collaterals : p'.mapProTxCollaterals = eraseAll keys.collaterals p.mapProTxCollaterals

lemma eraseProTxRef_eq {txHash : Uint256} {refs : List (Uint256 × Uint256)} :
    eraseProTxRef proTxHash txHash refs =
      refs.filter (fun ref => decide (some (proTxHash, txHash) ≠ some ref)) := by
  refine filter_congr (fun ref _ => ?_)
  have hiff : ¬ (ref.1 = proTxHash ∧ ref.2 = txHash) ↔ some (proTxHash, txHash) ≠ some ref := by
    rw [ne_eq, Option.some.injEq, not_iff_not]
    constructor
    · rintro ⟨hfirst, hsecond⟩
      rw [← hfirst, ← hsecond]
    · rintro rfl
      exact ⟨rfl, rfl⟩
  rw [← Bool.decide_and, ← decide_not]
  exact decide_eq_decide.mpr hiff

/-- Own collaterals are not in the index, so that erasing one changes nothing. -/
lemma removeProTx_ends (hown : ∀ o, o.hash = 0 → p.mapProTxCollaterals.get? o = none) :
    Ends (fun _ => readProTx env tx = .unreadable)
      (KeysRemoved env tx (proTxKeys env blsHash tx) p) (removeProTx env blsHash tx p) := by
  -- of an update exactly the one reference is erased
  have hupdate : ∀ {kind proTxHash}, readProTx env tx = kind → kind.refersTo = some proTxHash →
      eraseProTxRef proTxHash (env.getHash tx) p.mapProTxRefs =
        p.mapProTxRefs.filter (fun ref => decide (erasedRef env tx ≠ some ref)) := by
    rintro kind proTxHash rfl hrefers
    rw [erasedRef_of_refersTo hrefers]
    exact eraseProTxRef_eq
  unfold proTxKeys
  fun_cases removeProTx env blsHash tx p with
  | case1 htype hnone | case3 htype hnone | case5 htype hnone | case7 htype hnone =>
    show readProTx env tx = .unreadable
    rw [readProTx, htype, hnone]
    rfl
  | case2 htype proTx hpayload =>
    have hread := readProTx_register htype hpayload
    rw [hread]
    refine ⟨rfl, ?_, rfl, rfl, rfl, ?_⟩
    · simp only [erasedRef, hread]
      split_ifs
      · exact (filter_true _).symm
      · exact eraseProTxRef_eq
    · simp only [externalCollateral]
      by_cases hhash : proTx.collateralOutpoint.hash = 0
      · simp only [hhash, ne_eq, not_true_eq_false, if_false]
        exact erase_of_get?_none (hown _ hhash)
      · simp only [hhash, ne_eq, not_false_eq_true, if_true]
        rfl
  | case4 htype proTx hpayload =>
    have hread := readProTx_service htype hpayload
    rw [hread]
    exact ⟨rfl, hupdate hread rfl, rfl, rfl, rfl, rfl⟩
  | case6 htype proTx hpayload =>
    have hread := readProTx_registrar htype hpayload
    rw [hread]
    exact ⟨rfl, hupdate hread rfl, rfl, rfl, rfl, rfl⟩
  | case8 htype proTx hpayload =>
    have hread := readProTx_revoke htype hpayload
    rw [hread]
    exact ⟨rfl, hupdate hread rfl, rfl, rfl, rfl, rfl⟩
  | case9 hreg hserv hregistrar hrev =>
    have hread : readProTx env tx = .other := readProTx_other hreg hserv hregistrar hrev
    rw [hread]
    refine ⟨rfl, ?_, rfl, rfl, rfl, rfl⟩
    simp only [erasedRef, hread, ProviderTx.refersTo]
    exact (filter_true _).symm

/-! ## Who contributes a reference -/

lemma nodup_refs : (proTxKeys env blsHash tx).refs.Nodup := by
  unfold proTxKeys
  cases readProTx env tx with
  | register proTx =>
    simp only [externalCollateral]
    split_ifs
    · exact nodup_singleton _
    · exact nodup_nil
  | service | registrar | revoke => exact nodup_singleton _
  | unreadable | other => exact nodup_nil

/-- The pair that is erased is the own registration with another transaction, or another
    registration with this one. -/
lemma erasedRef_eq_some (h : erasedRef env tx = some ref) :
    (∃ proTx, readProTx env tx = .register proTx ∧
      ref = (env.getHash tx, proTx.collateralOutpoint.hash)) ∨
      ∃ proTxHash, (readProTx env tx).refersTo = some proTxHash ∧
        ref = (proTxHash, env.getHash tx) := by
  unfold erasedRef at h
  split at h
  · case h_1 proTx hread =>
      split_ifs at h
      exact .inl ⟨proTx, hread, (Option.some.inj h).symm⟩
  · obtain ⟨proTxHash, hrefers, rfl⟩ := Option.map_eq_some_iff.mp h
    exact .inr ⟨proTxHash, hrefers, rfl⟩

/-- Every reference of a transaction is erased with it. -/
lemma erasedRef_of_mem (h : ref ∈ (proTxKeys env blsHash tx).refs) :
    erasedRef env tx = some ref := by
  unfold proTxKeys at h
  unfold erasedRef
  generalize readProTx env tx = kind at h ⊢
  cases kind with
  | register proTx =>
    simp only [mem_map] at h
    obtain ⟨o, ho, rfl⟩ := h
    unfold externalCollateral at ho
    split_ifs at ho with hhash
    · have hnull : proTx.collateralOutpoint.isNull = false := by
        rw [COutPoint.isNull, decide_eq_false hhash, Bool.false_and]
      rw [mem_singleton.mp ho]
      dsimp only
      rw [hnull]
      rfl
    · cases ho
  | service | registrar | revoke => exact (congrArg some (mem_singleton.mp h)).symm
  | unreadable | other => cases h

/-- Two transactions with different hashes have no reference in common. -/
lemma erasedRef_apart (hcycle : NoHashCycle env known) {tx' : CTransaction} (htx : known tx)
    (htx' : known tx') (hne : env.getHash tx' ≠ env.getHash tx)
    (hmem : ref ∈ (proTxKeys env blsHash tx').refs) : erasedRef env tx ≠ some ref := by
  intro herased
  have hform := erasedRef_eq_some (erasedRef_of_mem hmem)
  rcases erasedRef_eq_some herased with ⟨proTx, hread, rfl⟩ | ⟨proTxHash, hrefers, rfl⟩
  · rcases hform with ⟨proTx', _, hsame⟩ | ⟨proTxHash', hrefers', hsame⟩
    · exact hne (congrArg Prod.fst hsame).symm
    · obtain ⟨rfl, hhash⟩ := Prod.mk.inj hsame
      exact hcycle tx tx' proTx htx htx' hread hrefers' hhash.symm
  · rcases hform with ⟨proTx', hread', hsame⟩ | ⟨proTxHash', _, hsame⟩
    · obtain ⟨rfl, hhash⟩ := Prod.mk.inj hsame
      exact hcycle tx' tx proTx' htx' htx hread' hrefers hhash
    · exact hne (congrArg Prod.snd hsame).symm

/-! ## Exact indexes -/

variable (env blsHash known p) in
/-- The five indexes hold what the transactions of the pool contribute. -/
structure ProTxExact : Prop where
  hashes : ∀ hash entry, p.pool.mapTx.get? hash = some entry → env.getHash entry.tx = hash
  known : ∀ hash entry, p.pool.mapTx.get? hash = some entry → known entry.tx
  readable : ∀ hash entry, p.pool.mapTx.get? hash = some entry →
    readProTx env entry.tx ≠ .unreadable
  refs : RefIndexed (fun entry : CTxMemPoolEntry => (proTxKeys env blsHash entry.tx).refs)
    p.pool.mapTx p.mapProTxRefs
  addresses : KeyIndexed (fun entry : CTxMemPoolEntry => (proTxKeys env blsHash entry.tx).addresses)
    p.pool.mapTx p.mapProTxAddresses
  pubKeyIDs : KeyIndexed (fun entry : CTxMemPoolEntry => (proTxKeys env blsHash entry.tx).pubKeyIDs)
    p.pool.mapTx p.mapProTxPubKeyIDs
  blsPubKeyHashes :
    KeyIndexed (fun entry : CTxMemPoolEntry => (proTxKeys env blsHash entry.tx).blsPubKeyHashes)
      p.pool.mapTx p.mapProTxBlsPubKeyHashes
  collaterals :
    KeyIndexed (fun entry : CTxMemPoolEntry => (proTxKeys env blsHash entry.tx).collaterals)
      p.pool.mapTx p.mapProTxCollaterals

/-- None of the keys has a holder. -/
structure KeysFree (p : ProTxPool) (keys : ProTxKeys) : Prop where
  addresses : ∀ k ∈ keys.addresses, p.mapProTxAddresses.get? k = none
  pubKeyIDs : ∀ k ∈ keys.pubKeyIDs, p.mapProTxPubKeyIDs.get? k = none
  blsPubKeyHashes : ∀ k ∈ keys.blsPubKeyHashes, p.mapProTxBlsPubKeyHashes.get? k = none
  collaterals : ∀ k ∈ keys.collaterals, p.mapProTxCollaterals.get? k = none

lemma keysFree_none : KeysFree p .none := ⟨nofun, nofun, nofun, nofun⟩

lemma proTxExact_empty : ProTxExact env blsHash known .empty where
  hashes := nofun
  known := nofun
  readable := nofun
  refs := .empty _
  addresses := .empty _
  pubKeyIDs := .empty _
  blsPubKeyHashes := .empty _
  collaterals := .empty _

lemma hash_ne_zero_of_collateral {o : COutPoint}
    (h : o ∈ (proTxKeys env blsHash tx).collaterals) : o.hash ≠ 0 := by
  unfold proTxKeys at h
  split at h
  · simp only [externalCollateral] at h
    split_ifs at h with hhash
    · rw [mem_singleton.mp h]
      exact hhash
    · cases h
  all_goals cases h

lemma get?_of_contains_eq_false {V : Type} [DecidableEq K] {map : StdMap K V}
    (h : map.contains key = false) : map.get? key = none :=
  Option.not_isSome_iff_eq_none.mp (Bool.not_eq_true _ ▸ h)

lemma mapTx_addUnchecked {entry : CTxMemPoolEntry}
    (hok : addUnchecked env blsHash mnList entry p = .ok p') :
    p'.pool.mapTx = p.pool.mapTx.insert unordered (env.getHash entry.tx) entry :=
  (congrArg _ (addProTx_ok hok).1.pool).trans CTxMemPool.mapTx_addUnchecked

section

variable (h : ProTxExact env blsHash known p)
include h

lemma ProTxExact.own_collaterals (o : COutPoint)
    (ho : o.hash = 0) : p.mapProTxCollaterals.get? o = none :=
  h.collaterals.get?_eq_none_iff.mpr (fun _ _ _ hmem => hash_ne_zero_of_collateral hmem ho)

/-- A new transaction whose keys are free keeps the indexes exact. -/
lemma ProTxExact.addUnchecked (hcycle : NoHashCycle env known) {entry : CTxMemPoolEntry}
    (hknown : known entry.tx) (hnew : p.pool.contains (env.getHash entry.tx) = false)
    (hfree : KeysFree p (proTxKeys env blsHash entry.tx))
    (hok : addUnchecked env blsHash mnList entry p = .ok p') : ProTxExact env blsHash known p' := by
  obtain ⟨hadded, hreadable⟩ := addProTx_ok hok
  have hnone := get?_of_contains_eq_false hnew
  have hmapTx := mapTx_addUnchecked hok
  constructor
  case hashes => exact hmapTx ▸ forall_insert h.hashes rfl
  case known => exact hmapTx ▸ forall_insert h.known hknown
  case readable => exact hmapTx ▸ forall_insert h.readable hreadable
  case refs =>
    rw [hmapTx, hadded.refs]
    refine h.refs.add _ hnone nodup_refs ?_
    intro hash e hget ref hmem hmem'
    refine erasedRef_apart hcycle hknown (h.known hash e hget) ?_ hmem' (erasedRef_of_mem hmem)
    intro hsame
    rw [← hsame, h.hashes hash e hget, hget] at hnone
    cases hnone
  case addresses =>
    rw [hmapTx, hadded.addresses]
    exact h.addresses.add _ _ hnone hfree.addresses
  case pubKeyIDs =>
    rw [hmapTx, hadded.pubKeyIDs]
    exact h.pubKeyIDs.add _ _ hnone hfree.pubKeyIDs
  case blsPubKeyHashes =>
    rw [hmapTx, hadded.blsPubKeyHashes]
    exact h.blsPubKeyHashes.add _ _ hnone hfree.blsPubKeyHashes
  case collaterals =>
    rw [hmapTx, hadded.collaterals]
    exact h.collaterals.add _ _ hnone hfree.collaterals

lemma ProTxExact.removeUnchecked (hcycle : NoHashCycle env known) {it : Uint256}
    (hok : removeUnchecked env blsHash it p = .ok p') : ProTxExact env blsHash known p' := by
  unfold ProTxPool.removeUnchecked at hok
  cases hit : p.pool.mapTx.get? it with
  | none =>
    rw [hit] at hok
    cases hok
  | some entry =>
    rw [hit] at hok
    obtain ⟨q, hq, rfl⟩ := except_map_ok_iff.mp hok
    have hremoved := (removeProTx_ends h.own_collaterals).of_ok hq
    have hmapTx : (q.pool.removeUnchecked it).mapTx = p.pool.mapTx.erase it := by
      rw [CTxMemPool.mapTx_removeUnchecked, hremoved.pool]
    -- each of the four maps loses the keys of the entry
    have hindex : ∀ {K : Type} [DecidableEq K] {keysOf : CTxMemPoolEntry → List K}
        {map map' : StdMap K Uint256}, KeyIndexed keysOf p.pool.mapTx map →
        map' = eraseAll (keysOf entry) map →
        KeyIndexed keysOf (q.pool.removeUnchecked it).mapTx map' := by
      rintro K _ keysOf map _ hindexed rfl
      exact hmapTx ▸ hindexed.remove hit
    constructor
    case hashes => exact hmapTx ▸ forall_erase h.hashes
    case known => exact hmapTx ▸ forall_erase h.known
    case readable => exact hmapTx ▸ forall_erase h.readable
    case refs =>
      rw [hmapTx, show (_ : ProTxPool).mapProTxRefs = q.mapProTxRefs from rfl, hremoved.refs]
      refine h.refs.remove hit _ ?_ ?_
      · intro ref hmem
        rw [erasedRef_of_mem hmem]
        exact decide_eq_false (fun hne => hne rfl)
      · intro hash e hne hget ref hmem
        refine decide_eq_true (erasedRef_apart hcycle (h.known it entry hit)
          (h.known hash e hget) ?_ hmem)
        rw [h.hashes hash e hget, h.hashes it entry hit]
        exact hne
    case addresses => exact hindex h.addresses hremoved.addresses
    case pubKeyIDs => exact hindex h.pubKeyIDs hremoved.pubKeyIDs
    case blsPubKeyHashes => exact hindex h.blsPubKeyHashes hremoved.blsPubKeyHashes
    case collaterals => exact hindex h.collaterals hremoved.collaterals

/-- Clearing is harmless for a pool without provider transactions. -/
lemma ProTxExact.clear
    (hnone : ∀ hash entry, p.pool.mapTx.get? hash = some entry → readProTx env entry.tx = .other) :
    ProTxExact env blsHash known p.clear := by
  have hkeys : ∀ {hash entry}, p.pool.mapTx.get? hash = some entry →
      proTxKeys env blsHash entry.tx = .none := by
    intro hash entry hget
    rw [proTxKeys, hnone hash entry hget]
  have hrefs : p.mapProTxRefs = [] := by
    refine eq_nil_iff_forall_not_mem.mpr (fun ref hmem => ?_)
    obtain ⟨hash, entry, hget, href⟩ := (h.refs.2 ref).mp hmem
    dsimp only at href
    rw [hkeys hget] at href
    cases href
  have hempty : ∀ {K : Type} [DecidableEq K] {keysOf : CTxMemPoolEntry → List K}
      {map : StdMap K Uint256}, KeyIndexed keysOf p.pool.mapTx map →
      (∀ hash entry, p.pool.mapTx.get? hash = some entry → keysOf entry = []) →
      KeyIndexed keysOf .empty map := by
    intro K _ keysOf map hindexed hnil key hash
    constructor
    · intro hget
      obtain ⟨entry, hentry, hmem⟩ := (hindexed key hash).mp hget
      rw [hnil hash entry hentry] at hmem
      cases hmem
    · rintro ⟨entry, hentry, _⟩
      cases hentry
  constructor
  case hashes => exact nofun
  case known => exact nofun
  case readable => exact nofun
  case refs =>
    show RefIndexed _ _ p.mapProTxRefs
    rw [hrefs]
    exact .empty _
  case addresses => exact .empty _
  case pubKeyIDs => exact .empty _
  -- the two maps that are not cleared have no entry
  case blsPubKeyHashes =>
    exact hempty h.blsPubKeyHashes
      (fun hash entry hget => congrArg ProTxKeys.blsPubKeyHashes (hkeys hget))
  case collaterals =>
    exact hempty h.collaterals (fun hash entry hget => congrArg ProTxKeys.collaterals (hkeys hget))

end

/-! ## What a conflict says -/

/-- The two transactions have an address, a key or a collateral in common. -/
def SharesKey (keys keys' : ProTxKeys) : Prop :=
  (∃ k ∈ keys.addresses, k ∈ keys'.addresses) ∨ (∃ k ∈ keys.pubKeyIDs, k ∈ keys'.pubKeyIDs) ∨
    (∃ k ∈ keys.blsPubKeyHashes, k ∈ keys'.blsPubKeyHashes) ∨
    ∃ k ∈ keys.collaterals, k ∈ keys'.collaterals

variable (env blsHash p tx) in
/-- The update takes its address or its operator key from the registration it refers to, which is in
    the pool. -/
def TakesFromReferred : Prop :=
  ∃ proTxHash entry, (readProTx env tx).refersTo = some proTxHash ∧
    p.pool.mapTx.get? proTxHash = some entry ∧
    SharesKey (proTxKeys env blsHash tx) (proTxKeys env blsHash entry.tx)

lemma heldByOther_eq_false [DecidableEq K] (h : heldByOther map key proTxHash = false) :
    map.get? key = none ∨ map.get? key = some proTxHash := by
  unfold heldByOther at h
  cases hget : map.get? key with
  | none => exact .inl rfl
  | some hash =>
    rw [hget] at h
    exact .inr (congrArg some (not_not.mp (of_decide_eq_false h)))

/-- A transaction without conflict finds its keys free, unless the transaction it refers to holds
    one. -/
lemma keysFree_of_noConflict
    (hconflict : existsProviderTxConflict env blsHash mnList p tx = false)
    (hheld : ∀ proTxHash, (readProTx env tx).refersTo = some proTxHash →
      (∀ k ∈ (proTxKeys env blsHash tx).addresses, p.mapProTxAddresses.get? k ≠ some proTxHash) ∧
      ∀ k ∈ (proTxKeys env blsHash tx).blsPubKeyHashes,
        p.mapProTxBlsPubKeyHashes.get? k ≠ some proTxHash) :
    KeysFree p (proTxKeys env blsHash tx) := by
  obtain ⟨hnone1, hnone2, hnone3, hnone4⟩ := keysFree_none (p := p)
  revert hconflict hheld
  unfold proTxKeys
  fun_cases existsProviderTxConflict env blsHash mnList p tx with
  | case1 | case3 | case5 | case6 | case8 | case9 => simp
  | case2 htype proTx hpayload =>
    rw [readProTx_register htype hpayload]
    intro hconflict _
    simp only [Bool.or_eq_false_iff] at hconflict
    obtain ⟨⟨⟨haddress, howner⟩, hoperator⟩, hcollateral⟩ := hconflict
    refine ⟨?_, ?_, ?_, ?_⟩
    · exact fun k hk => mem_singleton.mp hk ▸ get?_of_contains_eq_false haddress
    · exact fun k hk => mem_singleton.mp hk ▸ get?_of_contains_eq_false howner
    · exact fun k hk => mem_singleton.mp hk ▸ get?_of_contains_eq_false hoperator
    · intro k hk
      simp only [externalCollateral] at hk
      split_ifs at hk with hhash
      · rw [decide_eq_true hhash, Bool.true_and, Bool.or_eq_false_iff] at hcollateral
        exact mem_singleton.mp hk ▸ get?_of_contains_eq_false hcollateral.1
      · cases hk
  | case4 htype proTx hpayload =>
    rw [readProTx_service htype hpayload]
    intro hconflict hheld
    refine ⟨?_, hnone2, hnone3, hnone4⟩
    intro k hk
    obtain rfl := mem_singleton.mp hk
    -- an address that its own masternode holds is no conflict
    exact (heldByOther_eq_false hconflict).resolve_right ((hheld proTx.proTxHash rfl).1 _ hk)
  | case7 htype proTx hpayload =>
    rw [readProTx_registrar htype hpayload]
    intro hconflict hheld
    refine ⟨hnone1, hnone2, ?_, hnone4⟩
    intro k hk
    obtain rfl := mem_singleton.mp hk
    have hother := (Bool.or_eq_false_iff.mp hconflict).2
    exact (heldByOther_eq_false hother).resolve_right ((hheld proTx.proTxHash rfl).2 _ hk)
  | case10 htype proTx hpayload =>
    rw [readProTx_revoke htype hpayload]
    exact fun _ _ => ⟨hnone1, hnone2, hnone3, hnone4⟩
  | case11 hreg hserv hregistrar hrev =>
    rw [readProTx_other hreg hserv hregistrar hrev]
    exact fun _ _ => keysFree_none

/-- With exact indexes, a key that the transaction it refers to holds is taken from that
    transaction. -/
lemma ProTxExact.keysFree (h : ProTxExact env blsHash known p)
    (hconflict : existsProviderTxConflict env blsHash mnList p tx = false)
    (htakes : ¬ TakesFromReferred env blsHash p tx) : KeysFree p (proTxKeys env blsHash tx) := by
  refine keysFree_of_noConflict hconflict (fun proTxHash hrefers => ⟨?_, ?_⟩)
  · intro k hk hheld
    obtain ⟨entry, hget, hmem⟩ := (h.addresses _ _).mp hheld
    exact htakes ⟨proTxHash, entry, hrefers, hget, .inl ⟨k, hk, hmem⟩⟩
  · intro k hk hheld
    obtain ⟨entry, hget, hmem⟩ := (h.blsPubKeyHashes _ _).mp hheld
    exact htakes ⟨proTxHash, entry, hrefers, hget, .inr (.inr (.inl ⟨k, hk, hmem⟩))⟩

variable (env blsHash mnList p tx) in
/-- Why a transaction is in conflict: a defect of its own, or a transaction that is in the pool. -/
inductive ConflictReason : Prop
  | unreadable (unreadable : readProTx env tx = .unreadable)
  | unknown {proTxHash : Uint256} (refers : (readProTx env tx).refersTo = some proTxHash)
      (missing : mnList.getMN proTxHash = none)
  | collateralSpent {proTx : CProRegTx} (registers : readProTx env tx = .register proTx)
      (spent : p.pool.mapNextTx.contains proTx.collateralOutpoint = true)
  | shares {hash : Uint256} {entry : CTxMemPoolEntry} (get : p.pool.mapTx.get? hash = some entry)
      (shares : SharesKey (proTxKeys env blsHash tx) (proTxKeys env blsHash entry.tx))
  | keyChange {hash proTxHash : Uint256} {entry : CTxMemPoolEntry}
      (refers : (readProTx env tx).refersTo = some proTxHash)
      (get : p.pool.mapTx.get? hash = some entry) (changes : hash ∈ p.keyChangeProTxs)

lemma hasKeyChangeInMempool_eq_true (h : p.hasKeyChangeInMempool proTxHash = true) :
    ∃ hash entry, p.pool.mapTx.get? hash = some entry ∧ hash ∈ p.keyChangeProTxs := by
  obtain ⟨ref, _, htest⟩ := any_eq_true.mp h
  simp only [Bool.and_eq_true, decide_eq_true_eq] at htest
  obtain ⟨entry, hget⟩ := Option.isSome_iff_exists.mp htest.1.2
  exact ⟨ref.2, entry, hget, htest.2⟩

lemma contains_of_heldByOther [DecidableEq K] (h : heldByOther map key proTxHash = true) :
    map.contains key = true := by
  unfold heldByOther at h
  cases hget : map.get? key with
  | none =>
    rw [hget] at h
    cases h
  | some hash => exact contains_of_get? hget

/-- With exact indexes, every conflict has its reason in the pool. -/
lemma ProTxExact.conflictReason (h : ProTxExact env blsHash known p)
    (hconflict : existsProviderTxConflict env blsHash mnList p tx = true) :
    ConflictReason env blsHash mnList p tx := by
  -- what a key of the transaction that is in an index says
  have hshares {hash entry} (hget : p.pool.mapTx.get? hash = some entry)
      (hkeys : SharesKey (proTxKeys env blsHash tx) (proTxKeys env blsHash entry.tx)) :
      ConflictReason env blsHash mnList p tx := .shares hget hkeys
  unfold proTxKeys at hshares
  revert hconflict
  fun_cases existsProviderTxConflict env blsHash mnList p tx with
  | case1 htype hnone | case3 htype hnone | case5 htype hnone | case8 htype hnone =>
    refine fun _ => .unreadable ?_
    rw [readProTx, htype, hnone]
    rfl
  | case2 htype proTx hpayload =>
    have hread := readProTx_register htype hpayload
    rw [hread] at hshares
    intro hconflict
    simp only [Bool.or_eq_true, Bool.and_eq_true, decide_eq_true_eq] at hconflict
    rcases hconflict with ((haddress | howner) | hoperator) | ⟨hhash, hcollateral | hspent⟩
    · obtain ⟨hash, entry, hget, hmem⟩ := h.addresses.exists_of_contains haddress
      exact hshares hget (.inl ⟨_, mem_singleton_self _, hmem⟩)
    · obtain ⟨hash, entry, hget, hmem⟩ := h.pubKeyIDs.exists_of_contains howner
      exact hshares hget (.inr (.inl ⟨_, mem_singleton_self _, hmem⟩))
    · obtain ⟨hash, entry, hget, hmem⟩ := h.blsPubKeyHashes.exists_of_contains hoperator
      exact hshares hget (.inr (.inr (.inl ⟨_, mem_singleton_self _, hmem⟩)))
    · obtain ⟨hash, entry, hget, hmem⟩ := h.collaterals.exists_of_contains hcollateral
      refine hshares hget (.inr (.inr (.inr ⟨_, ?_, hmem⟩)))
      show proTx.collateralOutpoint ∈ externalCollateral proTx
      rw [externalCollateral, if_pos hhash]
      exact mem_singleton_self _
    · exact .collateralSpent hread hspent
  | case4 htype proTx hpayload =>
    rw [readProTx_service htype hpayload] at hshares
    intro hconflict
    obtain ⟨hash, entry, hget, hmem⟩ :=
      h.addresses.exists_of_contains (contains_of_heldByOther hconflict)
    exact hshares hget (.inl ⟨_, mem_singleton_self _, hmem⟩)
  | case6 htype proTx hpayload hmn =>
    exact fun _ => .unknown (congrArg _ (readProTx_registrar htype hpayload)) hmn
  | case7 htype proTx hpayload =>
    have hread := readProTx_registrar htype hpayload
    rw [hread] at hshares
    intro hconflict
    rw [Bool.or_eq_true, Bool.and_eq_true] at hconflict
    rcases hconflict with ⟨_, hchange⟩ | hheld
    · obtain ⟨hash, entry, hget, hmem⟩ := hasKeyChangeInMempool_eq_true hchange
      exact .keyChange (congrArg _ hread) hget hmem
    · obtain ⟨hash, entry, hget, hmem⟩ :=
        h.blsPubKeyHashes.exists_of_contains (contains_of_heldByOther hheld)
      exact hshares hget (.inr (.inr (.inl ⟨_, mem_singleton_self _, hmem⟩)))
  | case9 htype proTx hpayload hmn =>
    exact fun _ => .unknown (congrArg _ (readProTx_revoke htype hpayload)) hmn
  | case10 htype proTx hpayload =>
    intro hconflict
    obtain ⟨hash, entry, hget, hmem⟩ :=
      hasKeyChangeInMempool_eq_true (Bool.and_eq_true_iff.mp hconflict).2
    exact .keyChange (congrArg _ (readProTx_revoke htype hpayload)) hget hmem
  | case11 => simp

/-! ## Runs -/

inductive ProTxOp
  /-- `addUnchecked` at a tip with the given masternode list. -/
  | addUnchecked (mnList : MNList) (entry : CTxMemPoolEntry)
  | removeUnchecked (it : Uint256)
  | clear

section Runs

variable (env : EvoEnv) (blsHash : CBLSPublicKey → Uint256)

def step : ProTxOp → ProTxPool → Option ProTxPool
  | .addUnchecked mnList entry, p => (p.addUnchecked env blsHash mnList entry).toOption
  | .removeUnchecked it, p => (p.removeUnchecked env blsHash it).toOption
  | .clear, p => some p.clear

/-- Transactions are added that are not in the pool and have no conflict. -/
def Allowed (known : CTransaction → Prop) : ProTxOp → ProTxPool → Prop
  | .addUnchecked mnList entry, p =>
    known entry.tx ∧ p.pool.contains (env.getHash entry.tx) = false ∧
      existsProviderTxConflict env blsHash mnList p entry.tx = false
  | .removeUnchecked _, _ => True
  | .clear, _ => True

/-- No update takes a key from the registration it refers to, and no provider transaction is left
    when the pool is cleared. -/
def Harmless : ProTxOp → ProTxPool → Prop
  | .addUnchecked _ entry, p => ¬ TakesFromReferred env blsHash p entry.tx
  | .removeUnchecked _, _ => True
  | .clear, p => ∀ hash entry, p.pool.mapTx.get? hash = some entry →
      readProTx env entry.tx = .other

end Runs

lemma ProTxExact.step (hcycle : NoHashCycle env known) {op : ProTxOp}
    (h : ProTxExact env blsHash known p) (hallowed : Allowed env blsHash known op p)
    (hharmless : Harmless env blsHash op p) (hstep : step env blsHash op p = some p') :
    ProTxExact env blsHash known p' := by
  cases op with
  | addUnchecked mnList entry =>
    obtain ⟨hknown, hnew, hconflict⟩ := hallowed
    exact h.addUnchecked hcycle hknown hnew (h.keysFree hconflict hharmless)
      (toOption_eq_some_iff.mp hstep)
  | removeUnchecked it => exact h.removeUnchecked hcycle (toOption_eq_some_iff.mp hstep)
  | clear => exact Option.some.inj hstep ▸ h.clear hharmless

/-- After every sequence of harmless operations the indexes are exact, every conflict has its reason
    in the pool, and every entry can be removed. -/
theorem proTxIndexes_exact (hcycle : NoHashCycle env known) {p : ProTxPool}
    (hreaches : Reaches (step env blsHash)
      (fun op p => Allowed env blsHash known op p ∧ Harmless env blsHash op p) .empty p) :
    ProTxExact env blsHash known p ∧
      (∀ mnList tx, existsProviderTxConflict env blsHash mnList p tx = true →
        ConflictReason env blsHash mnList p tx) ∧
      ∀ it, p.pool.contains it = true → ∃ p', p.removeUnchecked env blsHash it = .ok p' := by
  have hexact : ProTxExact env blsHash known p :=
    hreaches.invariant proTxExact_empty
      (fun op p p' h hop hstep => h.step hcycle hop.1 hop.2 hstep)
  refine ⟨hexact, fun mnList tx => hexact.conflictReason, fun it hcontains => ?_⟩
  obtain ⟨entry, hget⟩ := Option.isSome_iff_exists.mp hcontains
  unfold ProTxPool.removeUnchecked
  rw [hget]
  dsimp only
  cases hremove : removeProTx env blsHash entry.tx p with
  | error e =>
    have hunreadable := (removeProTx_ends hexact.own_collaterals).of_error hremove
    exact absurd hunreadable (hexact.readable it entry hget)
  | ok q => exact ⟨_, rfl⟩

/-! ## Forgotten by clear -/

namespace Sample

open Evo.Sample

/-- The hash of a key is its bytes. -/
def keyBytes (key : CBLSPublicKey) : Uint256 := BitVec.ofNat 256 key.buf

def entryOf (tx : CTransaction) : CTxMemPoolEntry := ⟨tx, 0, false⟩

/-- No sample registration names an output of another transaction. -/
def ownCollateral : ProviderTx → Bool
  | .register proTx => decide (proTx.collateralOutpoint.hash = 0)
  | _ => true

lemma sampleTxs_noCycle : NoHashCycle smallEnv (· ∈ sampleTxs) := by
  intro reg upd proTx hreg hupd hregister _ hsame
  have hown : ∀ tx ∈ sampleTxs, ownCollateral (readProTx smallEnv tx) = true := by decide +kernel
  have hzero := hown reg hreg
  rw [hregister, ownCollateral, decide_eq_true_eq] at hzero
  rw [hzero] at hsame
  exact sampleTxs_apart.ne_zero upd hupd hsame

/-- A registration with operator key 6, then its removal or a clear. -/
def firstAdded : ProTxPool :=
  (ProTxPool.empty.addUnchecked smallEnv keyBytes (.new 0 0 0)
    (entryOf (specialTx .TRANSACTION_PROVIDER_REGISTER 1 [5, 6]))).toOption.getD .empty

lemma firstAdded_step : step smallEnv keyBytes
    (.addUnchecked (.new 0 0 0) (entryOf (specialTx .TRANSACTION_PROVIDER_REGISTER 1 [5, 6])))
      .empty = some firstAdded := rfl

lemma firstAdded_allowed : Allowed smallEnv keyBytes (· ∈ sampleTxs)
    (.addUnchecked (.new 0 0 0) (entryOf (specialTx .TRANSACTION_PROVIDER_REGISTER 1 [5, 6])))
      .empty :=
  ⟨by decide +kernel, rfl, rfl⟩

end Sample

open Sample Evo.Sample in
/-- After the registration has been removed, nothing stands in the way of another one with the same
    operator key. -/
theorem proTxIndexes_exact_removed : ∃ p, firstAdded.removeUnchecked smallEnv keyBytes 1 = .ok p ∧
    ProTxExact smallEnv keyBytes (· ∈ sampleTxs) p ∧ p.pool.contains 1 = false := by
  have hadded : Reaches (step smallEnv keyBytes) (fun op p =>
      Allowed smallEnv keyBytes (· ∈ sampleTxs) op p ∧ Harmless smallEnv keyBytes op p)
      .empty firstAdded := by
    refine Reaches.start.next _ ⟨firstAdded_allowed, ?_⟩ firstAdded_step
    rintro ⟨_, _, hrefers, _⟩
    cases hrefers
  have hexact := proTxIndexes_exact sampleTxs_noCycle hadded
  obtain ⟨p, hok⟩ := hexact.2.2 1 rfl
  have hremoved := proTxIndexes_exact sampleTxs_noCycle
    (hadded.next (.removeUnchecked 1) ⟨trivial, trivial⟩ (toOption_eq_some_iff.mpr hok))
  refine ⟨p, hok, hremoved.1, ?_⟩
  have hgone : (firstAdded.removeUnchecked smallEnv keyBytes 1).map
      (fun p => p.pool.contains 1) = .ok false := rfl
  rw [hok] at hgone
  exact Except.ok.inj hgone

open Sample Evo.Sample in
/-- After a clear the pool is empty, and a registration with the operator key of one that is gone is
    in conflict. -/
theorem clear_leaves_conflict :
    Reaches (step smallEnv keyBytes) (Allowed smallEnv keyBytes (· ∈ sampleTxs)) .empty
        firstAdded.clear ∧
      firstAdded.clear.pool.mapTx = .empty ∧
      firstAdded.clear.mapProTxBlsPubKeyHashes.get? 6 = some 1 ∧
      existsProviderTxConflict smallEnv keyBytes (.new 0 0 0) firstAdded.clear
        (specialTx .TRANSACTION_PROVIDER_REGISTER 2 [7, 6]) = true := by
  refine ⟨?_, rfl, rfl, rfl⟩
  exact (Reaches.start.next _ firstAdded_allowed firstAdded_step).next .clear trivial rfl

end ProTxPool

end Tecracoin.Mempool
