/-
  Can the provider transactions of the pool be mined together?

  A pool is filled at one tip: every transaction passes `CheckSpecialTx` against
  the list of the tip and has no conflict in the pool.  Then no two of them bring
  the same address, key or collateral, and what they bring is not in other hands
  in the list.  One thing is not looked at: a registration may take the collateral
  of a masternode that another transaction of the pool updates.  A block with the
  two in this order is refused, because the masternode is gone when its update
  comes.  In every other order the block goes through.
-/
import Tecracoin.Evo.NoCrash
import Tecracoin.Evo.Operable
import Tecracoin.Mempool.ProTxIndexes

namespace Tecracoin
namespace Evo

open Data CDeterministicMNList List

variable {proTx : CProRegTx} {tx : CTransaction}

/-! ## Masternodes that are replaced -/

/-- The transaction registers a masternode with the collateral. -/
def TakesCollateral (env : EvoEnv) (tx : CTransaction) (o : COutPoint) : Prop :=
  ∃ proTx, IsProReg env tx proTx ∧ proRegOutpoint env tx proTx = o

section Replaced

variable {env : EvoEnv} {known : CTransaction → Prop} {chain : Llmq.CChain} {utxo : UTXO}
  {nHeight : Int} {mnList l1 l2 : MNList} {src : Option CTransaction}
  {proTxHash : Uint256} {dmn : MN} {state : MNState}

/-- The address of a masternode changes only with a service update. -/
lemma StateStep.addr (h : StateStep env nHeight src dmn state) :
    state.addr = dmn.pdmnState.addr ∨ state.addr = .null ∨
      ∃ tx proTx, src = some tx ∧ IsProUpServ env tx proTx ∧ proTx.addr = state.addr := by
  cases h with
  | confirmed | decreased | paid | punished => exact .inl rfl
  | @service tx _ proTx hpro =>
    rw [serviceState_eq]
    exact .inr (.inr ⟨tx, proTx, rfl, hpro, rfl⟩)
  | registrar =>
    rw [registrarState_eq]
    dsimp only
    split_ifs
    · exact .inr (.inl rfl)
    · exact .inl rfl
  | revoked =>
    rw [revokedState_eq]
    exact .inr (.inl rfl)

/-- The masternode is in the list, with the collateral. -/
def HasCollateral (l : MNList) (proTxHash : Uint256) (o : COutPoint) : Prop :=
  ∃ dmn, l.mnMap.get? proTxHash = some dmn ∧ dmn.collateralOutpoint = o

/-- A masternode stays in the list until a registration takes its collateral. -/
lemma ListStep.stays (h : ListStep env nHeight (some tx) l1 l2)
    (hget : l1.mnMap.get? proTxHash = some dmn) :
    HasCollateral l2 proTxHash dmn.collateralOutpoint ∨
      TakesCollateral env tx dmn.collateralOutpoint := by
  cases h with
  | change map hold => exact .inl (stay_withUpdated hold proTxHash dmn hget)
  | @replaced _ _ old proTx map hold hpro hcollateral =>
    rw [HasCollateral, get?_withRemoved]
    split_ifs with hsame
    · subst hsame
      cases hold.symm.trans hget
      exact .inr ⟨proTx, hpro, hcollateral.symm⟩
    · exact .inl ⟨dmn, hget, rfl⟩
  | @registered _ _ proTx map hnew =>
    rw [HasCollateral, get?_withAdded]
    split_ifs with hsame
    · have hnone : l1.mnMap.get? proTxHash = none := hsame ▸ hnew
      rw [hget] at hnone
      cases hnone
    · exact .inl ⟨dmn, hget, rfl⟩

lemma Steps.stays (h : Steps env nHeight (some tx) l1 l2)
    (hget : l1.mnMap.get? proTxHash = some dmn) :
    HasCollateral l2 proTxHash dmn.collateralOutpoint ∨
      TakesCollateral env tx dmn.collateralOutpoint := by
  induction h with
  | refl => exact .inl ⟨dmn, hget, rfl⟩
  | tail _ hstep ih =>
    rcases ih with ⟨dmn', hget', hsame⟩ | htakes
    · exact hsame ▸ ListStep.stays hstep hget'
    · exact .inr htakes

/-- After a registration has taken its collateral, a masternode of the old list is gone. -/
lemma TxTurn.gone (hvetted : Vetted env known chain utxo mnList vtx) (htx : tx ∈ vtx)
    (h : TxTurn env known chain utxo tx l1 l2) (hget : mnList.mnMap.get? proTxHash = some dmn)
    (htakes : TakesCollateral env tx dmn.collateralOutpoint) : l2.mnMap.get? proTxHash = none := by
  obtain ⟨proTx, hpro, hcollateral⟩ := htakes
  have hrooted : Rooted env known l2 :=
    h.rooted.steps h.steps h.sound (fun _ hsrc => Option.some.inj hsrc ▸ hvetted.knows tx htx)
  have hrun := h.run
  rw [processTx, if_neg (not_not.mpr hpro.version), hpro.type] at hrun
  obtain ⟨l, map, hsound, hfree, _, _, hl2⟩ :=
    processProRegTx_added h.rooted.sound hpro hrun
  have hother : proTxHash ≠ env.getHash tx := by
    rintro rfl
    exact not_registers_old hvetted htx hget ⟨tx, proTx, rfl, hpro, rfl⟩
  refine Option.eq_none_iff_forall_ne_some.mpr (fun dmn2 hget2 => ?_)
  -- it would still have the collateral, which is free
  have hsame := hvetted.old.collateral_eq hvetted.apart hrooted hget hget2
  rw [hl2, get?_withAdded] at hget2
  have hget' : l.mnMap.get? proTxHash = some dmn2 := (if_neg hother).symm.trans hget2
  refine absurd ⟨dmn2, hget', .inl ?_⟩ (hfree proTxHash)
  rw [hcollateral, hsame]
  exact mem_propertyOf_iff.mpr ⟨(hsound.solid _ _ hget').collateral, rfl⟩

/-- What is not in the list comes back with a registration only. -/
lemma Steps.stays_gone (h : Steps env nHeight (some tx) l1 l2)
    (hnone : l1.mnMap.get? proTxHash = none) (hnot : ¬ Registers env (some tx) proTxHash) :
    l2.mnMap.get? proTxHash = none := by
  have hall := Steps.forall_get (Φ := fun other _ => other ≠ proTxHash) h
    (fun other dmn hget hsame => by rw [hsame, hnone] at hget; cases hget)
    (fun _ _ hne _ => hne)
    (fun tx' proTx _ hsrc hpro hsame =>
      hnot ⟨tx', proTx, hsrc, hpro, hsame⟩)
  refine Option.eq_none_iff_forall_ne_some.mpr (fun dmn hget => ?_)
  exact absurd rfl (hall _ dmn hget)

end Replaced

end Evo

namespace Mempool

open Data Evo Evo.CDeterministicMNList Evo.CDeterministicMN ProTxPool List

variable {env : EvoEnv} {blsHash : CBLSPublicKey → Uint256} {known : CTransaction → Prop}
  {chain : Llmq.CChain} {s : ListState} {utxo : UTXO} {entry : CTxMemPoolEntry} {p p' : ProTxPool}
  {mnList oldList : MNList} {done done' txs : List CTransaction} {l l1 l2 : MNList} {nHeight : Int}
  {src : Option CTransaction} {tx : CTransaction} {proTxHash : Uint256} {dmn : MN} {state : MNState}

/-! ## Filling the pool -/

section
variable (env blsHash known s utxo entry p)

/-- What `AcceptToMemoryPool` asks of a provider transaction at the tip `s` with the unspent coins
    `utxo`. -/
structure Accepts : Prop where
  known : known entry.tx
  check : checkSpecialTx env s.chain utxo s.list entry.tx = .ok ()
  noConflict : existsProviderTxConflict env blsHash s.list p entry.tx = false
  notInPool : p.pool.contains (env.getHash entry.tx) = false
  /-- `txn-already-known`: no output of the transaction is among the coins. -/
  notInChain : ∀ n : UInt32, n.toNat < entry.tx.vout.length →
    utxo ⟨env.getHash entry.tx, n⟩ = none

/-- The pools that accepted transactions lead to, all at one tip. -/
def Filled : Prop :=
  Reaches (fun entry p => (p.addUnchecked env blsHash s.list entry).toOption)
    (Accepts env blsHash known s utxo) .empty p

end

/-! ## Keys and their holders -/

/-- Each of the keys has a holder. -/
structure KeysListed (p : ProTxPool) (keys : ProTxKeys) : Prop where
  addresses : ∀ k ∈ keys.addresses, p.mapProTxAddresses.get? k ≠ none
  pubKeyIDs : ∀ k ∈ keys.pubKeyIDs, p.mapProTxPubKeyIDs.get? k ≠ none
  blsPubKeyHashes : ∀ k ∈ keys.blsPubKeyHashes, p.mapProTxBlsPubKeyHashes.get? k ≠ none
  collaterals : ∀ k ∈ keys.collaterals, p.mapProTxCollaterals.get? k ≠ none

section Holders

variable {K : Type} [DecidableEq K] {map : StdMap K Uint256} {keys : List K} {hash holder : Uint256}
  {k : K} {keys1 keys2 : ProTxKeys}

lemma get?_emplaceAll : (emplaceAll hash keys map).get? k =
    (map.get? k).or (if k ∈ keys then some hash else none) :=
  StdMap.get?_foldl_insert_const _ _ _ _

lemma emplaceAll_ne_none (h : map.get? k ≠ none ∨ k ∈ keys) :
    (emplaceAll hash keys map).get? k ≠ none := by
  rw [get?_emplaceAll, ne_eq, Option.or_eq_none_iff, not_and_or]
  exact h.imp_right (fun hk => by rw [if_pos hk]; exact Option.some_ne_none _)

lemma emplaceAll_eq_some (h : (emplaceAll hash keys map).get? k = some holder) :
    map.get? k = some holder ∨ holder = hash := by
  rw [get?_emplaceAll, Option.or_eq_some_iff] at h
  refine h.imp_right (fun hnew => ?_)
  have hif := hnew.2
  split_ifs at hif
  exact (Option.some.inj hif).symm

lemma KeysListed.added (h : KeysListed p keys1) (hadded : KeysAdded hash keys2 p p') :
    KeysListed p' keys1 where
  addresses k hk := hadded.addresses ▸ emplaceAll_ne_none (.inl (h.addresses k hk))
  pubKeyIDs k hk := hadded.pubKeyIDs ▸ emplaceAll_ne_none (.inl (h.pubKeyIDs k hk))
  blsPubKeyHashes k hk :=
    hadded.blsPubKeyHashes ▸ emplaceAll_ne_none (.inl (h.blsPubKeyHashes k hk))
  collaterals k hk := hadded.collaterals ▸ emplaceAll_ne_none (.inl (h.collaterals k hk))

lemma keysListed_of_added (hadded : KeysAdded hash keys1 p p') : KeysListed p' keys1 where
  addresses _ hk := hadded.addresses ▸ emplaceAll_ne_none (.inr hk)
  pubKeyIDs _ hk := hadded.pubKeyIDs ▸ emplaceAll_ne_none (.inr hk)
  blsPubKeyHashes _ hk := hadded.blsPubKeyHashes ▸ emplaceAll_ne_none (.inr hk)
  collaterals _ hk := hadded.collaterals ▸ emplaceAll_ne_none (.inr hk)

lemma not_sharesKey (hfree : KeysFree p keys1) (hlisted : KeysListed p keys2) :
    ¬ SharesKey keys1 keys2 := by
  rintro (⟨k, hk1, hk2⟩ | ⟨k, hk1, hk2⟩ | ⟨k, hk1, hk2⟩ | ⟨k, hk1, hk2⟩)
  · exact hlisted.addresses k hk2 (hfree.addresses k hk1)
  · exact hlisted.pubKeyIDs k hk2 (hfree.pubKeyIDs k hk1)
  · exact hlisted.blsPubKeyHashes k hk2 (hfree.blsPubKeyHashes k hk1)
  · exact hlisted.collaterals k hk2 (hfree.collaterals k hk1)

lemma ProTxPool.SharesKey.symm (h : SharesKey keys1 keys2) : SharesKey keys2 keys1 := by
  have hswap : ∀ {α : Type} {a b : List α}, (∃ k ∈ a, k ∈ b) → ∃ k ∈ b, k ∈ a :=
    fun ⟨k, ha, hb⟩ => ⟨k, hb, ha⟩
  exact h.imp hswap (Or.imp hswap (Or.imp hswap hswap))

end Holders

/-! ## What the transactions do to the list -/

/-- The transaction updates or revokes the masternode. -/
def Updates (env : EvoEnv) (tx : CTransaction) (proTxHash : Uint256) : Prop :=
  tx.nVersion = 3 ∧ (readProTx env tx).refersTo = some proTxHash

/-- No update of a masternode comes after a registration that takes its collateral. -/
def UpdatesFirst (env : EvoEnv) (mnList : MNList) (txs : List CTransaction) : Prop :=
  ∀ before tx after, txs = before ++ tx :: after → ∀ proTxHash dmn,
    mnList.mnMap.get? proTxHash = some dmn → Updates env tx proTxHash →
    ∀ t ∈ before, ¬ TakesCollateral env t dmn.collateralOutpoint

lemma refersTo_readPayload {α : Type} {kind : α → ProviderTx} {payload : Option α}
    (h : (readPayload kind payload).refersTo = some proTxHash) :
    ∃ proTx, payload = some proTx ∧ (kind proTx).refersTo = some proTxHash := by
  cases payload with
  | none => cases h
  | some proTx => exact ⟨proTx, rfl, h⟩

section

variable (h : Updates env tx proTxHash)
include h

/-- An update is one of three transactions. -/
lemma Updates.cases :
    (∃ proTx, IsProUpServ env tx proTx ∧ proTx.proTxHash = proTxHash) ∨
      (∃ proTx, IsProUpReg env tx proTx ∧ proTx.proTxHash = proTxHash) ∨
      ∃ proTx, IsProUpRev env tx proTx ∧ proTx.proTxHash = proTxHash := by
  obtain ⟨hversion, hrefers⟩ := h
  unfold readProTx at hrefers
  generalize htype : tx.nType = nType at hrefers
  cases nType with
  | TRANSACTION_PROVIDER_REGISTER =>
    obtain ⟨_, _, hhash⟩ := refersTo_readPayload hrefers
    cases hhash
  | TRANSACTION_PROVIDER_UPDATE_SERVICE =>
    obtain ⟨proTx, hpayload, hhash⟩ := refersTo_readPayload hrefers
    exact .inl ⟨proTx, ⟨⟨hversion, htype⟩, hpayload⟩, Option.some.inj hhash⟩
  | TRANSACTION_PROVIDER_UPDATE_REGISTRAR =>
    obtain ⟨proTx, hpayload, hhash⟩ := refersTo_readPayload hrefers
    exact .inr (.inl ⟨proTx, ⟨⟨hversion, htype⟩, hpayload⟩, Option.some.inj hhash⟩)
  | TRANSACTION_PROVIDER_UPDATE_REVOKE =>
    obtain ⟨proTx, hpayload, hhash⟩ := refersTo_readPayload hrefers
    exact .inr (.inr ⟨proTx, ⟨⟨hversion, htype⟩, hpayload⟩, Option.some.inj hhash⟩)
  | _ => cases hrefers

/-- An update that passes its check is about a masternode of the list. -/
lemma Updates.listed (hchain : chain ≠ [])
    (hcheck : checkSpecialTx env chain utxo mnList tx = .ok ()) :
    ∃ dmn, mnList.mnMap.get? proTxHash = some dmn := by
  rcases h.cases with ⟨proTx, hpro, rfl⟩ | ⟨proTx, hpro, rfl⟩ | ⟨proTx, hpro, rfl⟩
  · exact (hpro.checked hchain hcheck).known
  · exact (hpro.checked hchain hcheck).known
  · exact (hpro.checked hchain hcheck).known

/-- An update that goes through has found its masternode. -/
lemma Updates.found
    (hrun : processTx env chain utxo l1 tx = .ok l2) :
    ∃ dmn, l1.mnMap.get? proTxHash = some dmn := by
  rcases h.cases with ⟨proTx, hpro, rfl⟩ | ⟨proTx, hpro, rfl⟩ | ⟨proTx, hpro, rfl⟩
  · rw [processTx, if_neg (not_not.mpr hpro.version), hpro.type] at hrun
    simp only [processProUpServTx, hpro.payload, except_bind_ok_iff, mnOrReject_ok_iff] at hrun
    obtain ⟨_, _, _, _, dmn, hget, _⟩ := hrun
    exact ⟨dmn, hget⟩
  · rw [processTx, if_neg (not_not.mpr hpro.version), hpro.type] at hrun
    simp only [processProUpRegTx, hpro.payload, except_bind_ok_iff, mnOrReject_ok_iff] at hrun
    obtain ⟨dmn, hget, _⟩ := hrun
    exact ⟨dmn, hget⟩
  · rw [processTx, if_neg (not_not.mpr hpro.version), hpro.type] at hrun
    simp only [processProUpRevTx, hpro.payload, except_bind_ok_iff, mnOrReject_ok_iff] at hrun
    obtain ⟨dmn, hget, _⟩ := hrun
    exact ⟨dmn, hget⟩

end

/-! ## A filled pool -/

variable (env blsHash known s utxo p) in
/-- What holds of a pool that has been filled at one tip. -/
structure Guarded : Prop where
  hashes : ∀ hash entry, p.pool.mapTx.get? hash = some entry → env.getHash entry.tx = hash
  known : ∀ hash entry, p.pool.mapTx.get? hash = some entry → known entry.tx
  check : ∀ hash entry, p.pool.mapTx.get? hash = some entry →
    checkSpecialTx env s.chain utxo s.list entry.tx = .ok ()
  notInChain : ∀ hash entry, p.pool.mapTx.get? hash = some entry → ∀ n : UInt32,
    n.toNat < entry.tx.vout.length → utxo ⟨hash, n⟩ = none
  addressHolders : ∀ k holder, p.mapProTxAddresses.get? k = some holder →
    ∃ entry, p.pool.mapTx.get? holder = some entry
  keyHolders : ∀ k holder, p.mapProTxBlsPubKeyHashes.get? k = some holder →
    ∃ entry, p.pool.mapTx.get? holder = some entry
  listed : ∀ hash entry, p.pool.mapTx.get? hash = some entry →
    KeysListed p (proTxKeys env blsHash entry.tx)
  /-- Two special transactions bring nothing in common. -/
  apart : ∀ hash entry hash' entry', p.pool.mapTx.get? hash = some entry →
    p.pool.mapTx.get? hash' = some entry' → hash ≠ hash' → entry.tx.nVersion = 3 →
    entry'.tx.nVersion = 3 →
    ¬ SharesKey (proTxKeys env blsHash entry.tx) (proTxKeys env blsHash entry'.tx)

/-- Every masternode of a reachable list is older than the next block and comes from a special
    transaction. -/
lemma reachable_registered (happart : HashesApart env known) (hreach : ListReachable env known s)
    (hget : s.list.mnMap.get? proTxHash = some dmn) :
    dmn.pdmnState.nRegisteredHeight < s.chain.length ∧
      ∃ tx, known tx ∧ Registers env (some tx) proTxHash := by
  refine (hreach.forall_get (Φ := fun n proTxHash dmn => dmn.pdmnState.nRegisteredHeight < n ∧
    ∃ tx, known tx ∧ Registers env (some tx) proTxHash) happart ?_ ?_ ?_).2 proTxHash dmn hget
  · rintro n proTxHash dmn ⟨hheight, hregisters⟩
    exact ⟨by omega, hregisters⟩
  · rintro t utxo src dmn state _ ⟨hheight, hregisters⟩ hstep
    exact ⟨hstep.fixed.2 ▸ hheight, hregisters⟩
  · intro t utxo tx proTx internalId hknown _ hpro
    exact ⟨Int.lt_succ _, tx, hknown, tx, proTx, rfl, hpro, rfl⟩

lemma guarded_empty : Guarded env blsHash known s utxo .empty := by
  constructor
  case apart => exact fun _ _ _ _ hget => nomatch hget
  all_goals exact fun _ _ hget => nomatch hget

section Filling

variable (h : Guarded env blsHash known s utxo p) (happart : HashesApart env known)
  (hreach : ListReachable env known s)
include h happart hreach

/-- The registration of a listed masternode is not in the pool. -/
lemma Guarded.not_listed (hget : s.list.mnMap.get? proTxHash = some dmn) :
    p.pool.mapTx.get? proTxHash = none := by
  refine Option.eq_none_iff_forall_ne_some.mpr (fun entry hentry => ?_)
  obtain ⟨_, tx, hknown, hregisters⟩ := reachable_registered happart hreach hget
  have hsame : env.getHash tx = env.getHash entry.tx := by
    obtain ⟨_, _, hsrc, _, hhash⟩ := hregisters
    rw [Option.some.inj hsrc, hhash, h.hashes _ _ hentry]
  obtain rfl := happart.injective tx entry.tx hknown (h.known _ _ hentry) hsame
  exact absurd hregisters (not_registers_old ⟨happart, hreach.rooted happart, s.chain_ne,
    forall_mem_singleton.mpr hknown, forall_mem_singleton.mpr (h.check _ _ hentry)⟩
    mem_cons_self hget)

/-- A special transaction that is accepted finds its keys free. -/
lemma Guarded.keysFree (haccepts : Accepts env blsHash known s utxo entry p)
    (hversion : entry.tx.nVersion = 3) : KeysFree p (proTxKeys env blsHash entry.tx) := by
  refine keysFree_of_noConflict haccepts.noConflict (fun proTxHash hrefers => ?_)
  -- the masternode that it updates is in the list, so its registration is not in the pool
  have hupdates : Updates env entry.tx proTxHash := ⟨hversion, hrefers⟩
  obtain ⟨dmn, hget⟩ := hupdates.listed s.chain_ne haccepts.check
  have hno : ¬∃ holder, p.pool.mapTx.get? proTxHash = some holder := by
    simp [h.not_listed happart hreach hget]
  exact ⟨fun k _ hheld => hno (h.addressHolders k proTxHash hheld),
    fun k _ hheld => hno (h.keyHolders k proTxHash hheld)⟩

lemma Guarded.accept (haccepts : Accepts env blsHash known s utxo entry p)
    (hok : p.addUnchecked env blsHash s.list entry = .ok p') :
    Guarded env blsHash known s utxo p' := by
  obtain ⟨hadded, _⟩ := addProTx_ok hok
  have hmapTx := mapTx_addUnchecked hok
  have hself : p'.pool.mapTx.get? (env.getHash entry.tx) = some entry := by
    rw [hmapTx, StdMap.get?_insert_self, get?_of_contains_eq_false haccepts.notInPool]
    rfl
  have hcases : ∀ {hash e}, p'.pool.mapTx.get? hash = some e →
      (hash = env.getHash entry.tx ∧ e = entry) ∨ p.pool.mapTx.get? hash = some e := by
    intro hash e hget
    exact StdMap.get?_insert_eq_some (hmapTx ▸ hget)
  have hholders {K : Type} [DecidableEq K] {map map' : StdMap K Uint256} {keys : List K}
      (hmap : map' = emplaceAll (env.getHash entry.tx) keys map)
      (hold : ∀ k holder, map.get? k = some holder → ∃ e, p.pool.mapTx.get? holder = some e) :
      ∀ k holder, map'.get? k = some holder → ∃ e, p'.pool.mapTx.get? holder = some e := by
    intro k holder hget
    rcases emplaceAll_eq_some (hmap ▸ hget) with hbefore | rfl
    · obtain ⟨e, he⟩ := hold k holder hbefore
      by_cases hsame : holder = env.getHash entry.tx
      · exact ⟨entry, hsame ▸ hself⟩
      · exact ⟨e, by rw [hmapTx, StdMap.get?_insert_of_ne hsame, he]⟩
    · exact ⟨entry, hself⟩
  -- the new transaction against one that is in the pool already
  have hfresh : ∀ {hash e}, p.pool.mapTx.get? hash = some e → entry.tx.nVersion = 3 →
      ¬ SharesKey (proTxKeys env blsHash entry.tx) (proTxKeys env blsHash e.tx) :=
    fun hget hversion => not_sharesKey (h.keysFree happart hreach haccepts hversion)
      (h.listed _ _ hget)
  constructor
  case hashes => exact hmapTx ▸ StdMap.forall_insert h.hashes rfl
  case known => exact hmapTx ▸ StdMap.forall_insert h.known haccepts.known
  case check => exact hmapTx ▸ StdMap.forall_insert h.check haccepts.check
  case notInChain => exact hmapTx ▸ StdMap.forall_insert h.notInChain haccepts.notInChain
  case addressHolders => exact hholders hadded.addresses h.addressHolders
  case keyHolders => exact hholders hadded.blsPubKeyHashes h.keyHolders
  case listed =>
    rw [hmapTx]
    refine StdMap.forall_insert (fun hash e hold => ?_) (keysListed_of_added hadded)
    have hlisted := h.listed hash e hold
    exact KeysListed.added
      (p := { p with pool := p.pool.addUnchecked (env.getHash entry.tx) entry })
      ⟨hlisted.addresses, hlisted.pubKeyIDs, hlisted.blsPubKeyHashes, hlisted.collaterals⟩ hadded
  case apart =>
    intro hash e hash' e' hget hget' hne hversion hversion'
    rcases hcases hget with ⟨rfl, rfl⟩ | hold
    · rcases hcases hget' with ⟨rfl, _⟩ | hold'
      · exact absurd rfl hne
      · exact hfresh hold' hversion
    · rcases hcases hget' with ⟨rfl, rfl⟩ | hold'
      · exact fun hshares => hfresh hold hversion' hshares.symm
      · exact h.apart hash e hash' e' hold hold' hne hversion hversion'

end Filling

lemma Filled.guarded (hfilled : Filled env blsHash known s utxo p)
    (happart : HashesApart env known) (hreach : ListReachable env known s) :
    Guarded env blsHash known s utxo p :=
  hfilled.invariant guarded_empty (fun _ _ _ h haccepts hstep =>
    h.accept happart hreach haccepts (toOption_eq_some_iff.mp hstep))

/-! ## Transactions of the pool in a block -/

/-- The transaction is in the pool. -/
def InPool (env : EvoEnv) (p : ProTxPool) (tx : CTransaction) : Prop :=
  ∃ entry, p.pool.mapTx.get? (env.getHash tx) = some entry ∧ entry.tx = tx

section
variable (h : Guarded env blsHash known s utxo p)
include h

lemma Guarded.knows (ht : InPool env p t) : known t := by
  obtain ⟨entry, hget, rfl⟩ := ht
  exact h.known _ _ hget

lemma Guarded.checked (ht : InPool env p t) :
    checkSpecialTx env s.chain utxo s.list t = .ok () := by
  obtain ⟨entry, hget, rfl⟩ := ht
  exact h.check _ _ hget

lemma Guarded.not_sharesKey (happart : HashesApart env known) (ht : InPool env p t)
    (htx : InPool env p tx) (hne : t ≠ tx) (hversion : t.nVersion = 3)
    (hversion' : tx.nVersion = 3) :
    ¬ SharesKey (proTxKeys env blsHash t) (proTxKeys env blsHash tx) := by
  have hinjective := happart.injective t tx (h.knows ht) (h.knows htx)
  obtain ⟨entry, hget, rfl⟩ := ht
  obtain ⟨entry', hget', rfl⟩ := htx
  exact h.apart _ _ _ _ hget hget' (fun hsame => hne (hinjective hsame)) hversion hversion'

/-- A coin that is unspent at the tip is no output of a transaction in the pool. -/
lemma Guarded.outside_ne_own (ht : InPool env p t) {out : CTxOut}
    (hown : t.vout[proTx.collateralOutpoint.n.toNat]? = some out)
    (hhash : proTx.collateralOutpoint.hash = 0) (hhash' : proTx'.collateralOutpoint.hash ≠ 0)
    {coin : Coins.Coin} (hcoin : utxo proTx'.collateralOutpoint = some coin) :
    proRegOutpoint env t proTx ≠ proRegOutpoint env tx proTx' := by
  intro hsame
  rw [proRegOutpoint, if_pos hhash, proRegOutpoint, if_neg hhash'] at hsame
  obtain ⟨entry, hget, rfl⟩ := ht
  have hsize := (List.getElem?_eq_some_iff.mp hown).1
  rw [← hsame, h.notInChain _ _ hget _ hsize] at hcoin
  cases hcoin

/-- Two registrations of the pool have different collaterals. -/
lemma Guarded.outpoint_ne (happart : HashesApart env known) (ht : InPool env p t)
    (htx : InPool env p tx) (hne : t ≠ tx) (hpro : IsProReg env t proTx)
    (hpro' : IsProReg env tx proTx')
    (hchecked : ProRegChecked env utxo s.list t proTx)
    (hchecked' : ProRegChecked env utxo s.list tx proTx') :
    proRegOutpoint env t proTx ≠ proRegOutpoint env tx proTx' := by
  -- an external collateral is an index key, an own one has the hash of its transaction
  cases hchecked.collateral with
  | outside coin hhash hcoin _ =>
    cases hchecked'.collateral with
    | outside coin' hhash' hcoin' _ =>
      intro hsame
      rw [proRegOutpoint, if_neg hhash, proRegOutpoint, if_neg hhash'] at hsame
      refine h.not_sharesKey happart ht htx hne hpro.version hpro'.version
        (.inr (.inr (.inr ⟨proTx.collateralOutpoint, ?_, ?_⟩)))
      · rw [proTxKeys, readProTx_register hpro.type hpro.payload]
        show _ ∈ externalCollateral proTx
        rw [externalCollateral, if_pos hhash]
        exact mem_singleton_self _
      · rw [proTxKeys, readProTx_register hpro'.type hpro'.payload]
        show _ ∈ externalCollateral proTx'
        rw [externalCollateral, if_pos hhash', hsame]
        exact mem_singleton_self _
    | own out' hhash' hown' => exact (h.outside_ne_own htx hown' hhash' hhash hcoin).symm
  | own out hhash hown =>
    cases hchecked'.collateral with
    | outside coin' hhash' hcoin' _ => exact h.outside_ne_own ht hown hhash hhash' hcoin'
    | own out' hhash' hown' =>
      intro hsame
      rw [proRegOutpoint, if_pos hhash, proRegOutpoint, if_pos hhash'] at hsame
      exact hne (happart.injective _ _ (h.knows ht) (h.knows htx) (congrArg COutPoint.hash hsame))

end

/-! ## The loop over the transactions -/

section
variable (env blsHash known s oldList done l proTxHash dmn)

/-- Where a masternode of the new list has its collateral, its keys and its address from: from the
    old list or from a transaction of the block. -/
structure Traced : Prop where
  origin : (∃ old, oldList.mnMap.get? proTxHash = some old ∧
      old.collateralOutpoint = dmn.collateralOutpoint ∧
      old.pdmnState.keyIDOwner = dmn.pdmnState.keyIDOwner ∧
      old.pdmnState.nRegisteredHeight = dmn.pdmnState.nRegisteredHeight) ∨
    ∃ t ∈ done, ∃ proTx, IsProReg env t proTx ∧
      dmn.collateralOutpoint = proRegOutpoint env t proTx ∧
      dmn.pdmnState.keyIDOwner = proTx.keyIDOwner
  addr : dmn.pdmnState.addr ≠ .null →
    (∃ old, oldList.mnMap.get? proTxHash = some old ∧
      old.pdmnState.addr = dmn.pdmnState.addr) ∨
    ∃ t ∈ done, t.nVersion = 3 ∧ dmn.pdmnState.addr ∈ (proTxKeys env blsHash t).addresses
  operator : dmn.pdmnState.pubKeyOperator ≠ .null →
    (∃ old, oldList.mnMap.get? proTxHash = some old ∧
      old.pdmnState.pubKeyOperator = dmn.pdmnState.pubKeyOperator) ∨
    ∃ t ∈ done, t.nVersion = 3 ∧
      blsHash dmn.pdmnState.pubKeyOperator ∈ (proTxKeys env blsHash t).blsPubKeyHashes

/-- The list after some transactions of the pool. -/
structure Mined : Prop where
  rooted : Rooted env known l
  height : l.nHeight = s.chain.length
  traced : ∀ proTxHash dmn, l.mnMap.get? proTxHash = some dmn →
    Traced env blsHash s.list done proTxHash dmn
  /-- Who is not replaced stays. -/
  stays : ∀ proTxHash old, s.list.mnMap.get? proTxHash = some old →
    HasCollateral l proTxHash old.collateralOutpoint ∨
      ∃ t ∈ done, TakesCollateral env t old.collateralOutpoint

end

lemma mem_blsPubKeyHashes_of_bringsKey {key : CBLSPublicKey}
    (h : BringsKey env tx proTxHash key) :
    tx.nVersion = 3 ∧ blsHash key ∈ (proTxKeys env blsHash tx).blsPubKeyHashes := by
  cases h with
  | registration hpro _ hoperator =>
    refine ⟨hpro.version, ?_⟩
    rw [proTxKeys, readProTx_register hpro.type hpro.payload]
    exact mem_singleton.mpr (congrArg blsHash hoperator.symm)
  | update hpro _ hoperator =>
    refine ⟨hpro.version, ?_⟩
    rw [proTxKeys, readProTx_registrar hpro.type hpro.payload]
    exact mem_singleton.mpr (congrArg blsHash hoperator.symm)

lemma Traced.mono (h : Traced env blsHash oldList done proTxHash dmn)
    (hsub : ∀ t ∈ done, t ∈ done') : Traced env blsHash oldList done' proTxHash dmn where
  origin := h.origin.imp_right (fun ⟨t, ht, hrest⟩ => ⟨t, hsub t ht, hrest⟩)
  addr hne := (h.addr hne).imp_right (fun ⟨t, ht, hrest⟩ => ⟨t, hsub t ht, hrest⟩)
  operator hne := (h.operator hne).imp_right (fun ⟨t, ht, hrest⟩ => ⟨t, hsub t ht, hrest⟩)

/-- A change of state is traced to the transaction that is its reason. -/
lemma Traced.change (h : Traced env blsHash oldList done dmn.proTxHash dmn)
    (hsrc : ∀ tx, src = some tx → tx ∈ done) (hstep : StateStep env nHeight src dmn state) :
    Traced env blsHash oldList done dmn.proTxHash { dmn with pdmnState := state } := by
  constructor
  · rcases h.origin with ⟨old, hget, hcollateral, howner, hheight⟩ |
      ⟨t, ht, proTx, hpro, hcollateral, howner⟩
    · exact .inl ⟨old, hget, hcollateral, howner.trans hstep.fixed.1.symm,
        hheight.trans hstep.fixed.2.symm⟩
    · exact .inr ⟨t, ht, proTx, hpro, hcollateral, hstep.fixed.1.trans howner⟩
  · intro hne
    rcases hstep.addr with hsame | hnull | ⟨tx, proTx, hreason, hpro, haddr⟩
    · exact hsame ▸ h.addr (hsame ▸ hne)
    · exact absurd hnull hne
    · refine .inr ⟨tx, hsrc tx hreason, hpro.version, ?_⟩
      rw [proTxKeys, readProTx_service hpro.type hpro.payload]
      exact mem_singleton.mpr haddr.symm
  · intro hne
    rcases hstep.operator with hsame | hnull | ⟨tx, hreason, hbrings⟩
    · exact hsame ▸ h.operator (hsame ▸ hne)
    · exact absurd hnull hne
    · exact .inr ⟨tx, hsrc tx hreason, mem_blsPubKeyHashes_of_bringsKey hbrings⟩

lemma traced_newMN (htx : tx ∈ done) (hpro : IsProReg env tx proTx) (internalId : Nat) :
    Traced env blsHash oldList done (env.getHash tx) (newMN env nHeight internalId tx proTx) := by
  have hread := readProTx_register hpro.type hpro.payload
  constructor
  · exact .inr ⟨tx, htx, proTx, hpro, rfl, rfl⟩
  · refine fun _ => .inr ⟨tx, htx, hpro.version, ?_⟩
    rw [proTxKeys, hread]
    exact mem_singleton_self _
  · refine fun _ => .inr ⟨tx, htx, hpro.version, ?_⟩
    rw [proTxKeys, hread]
    exact mem_singleton_self _

/-- The list before the first transaction: confirmations and penalties concern neither addresses nor
    keys. -/
lemma mined_start (hrooted : Rooted env known s.list) (hsound : Sound l)
    (h : Steps env s.chain.length none (startList s.chain s.list) l) (hstay : Stay s.list l) :
    Mined env blsHash known s [] l where
  rooted :=
    Rooted.steps (⟨hrooted.sound.header _ _ _, hrooted.registered⟩ :
      Rooted env known (startList s.chain s.list)) h hsound nofun
  height := Steps.nHeight_eq h
  traced := by
    have hnone : ∀ tx, (none : Option CTransaction) = some tx → tx ∈ ([] : List CTransaction) :=
      nofun
    refine Steps.forall_get h ?_ (fun dmn state hdmn hstep => hdmn.change hnone hstep) nofun
    intro proTxHash dmn hget
    exact ⟨.inl ⟨dmn, hget, rfl, rfl, rfl⟩, fun _ => .inl ⟨dmn, hget, rfl⟩,
      fun _ => .inl ⟨dmn, hget, rfl⟩⟩
  stays proTxHash old hget := .inl (hstay proTxHash old hget)

lemma Mined.turn (h : Mined env blsHash known s done l1) (hknown : known tx)
    (hafter : AfterTx env s.chain.length tx l1 l2) :
    Mined env blsHash known s (done ++ [tx]) l2 where
  rooted := h.rooted.steps hafter.2 hafter.1 (fun _ hsrc => Option.some.inj hsrc ▸ hknown)
  height := (Steps.nHeight_eq hafter.2).trans h.height
  traced := by
    have hlast : ∀ t, some tx = some t → t ∈ done ++ [tx] :=
      fun t hsrc => Option.some.inj hsrc ▸ mem_append_cons_self
    refine Steps.forall_get hafter.2 ?_ (fun dmn state hdmn hstep => hdmn.change hlast hstep) ?_
    · exact fun proTxHash dmn hget =>
        (h.traced proTxHash dmn hget).mono (fun _ ht => mem_append_left _ ht)
    · intro t proTx internalId hsrc hpro
      exact traced_newMN (hlast t hsrc) hpro internalId
  stays := by
    intro proTxHash old hget
    rcases h.stays proTxHash old hget with ⟨dmn, hget1, hsame⟩ | ⟨t, ht, htakes⟩
    · rcases Steps.stays hafter.2 hget1 with ⟨dmn', hget2, hsame'⟩ | htakes
      · exact .inl ⟨dmn', hget2, hsame'.trans hsame⟩
      · exact .inr ⟨tx, mem_append_cons_self, hsame ▸ htakes⟩
    · exact .inr ⟨t, mem_append_left _ ht, htakes⟩

section Guarded

variable (hguarded : Guarded env blsHash known s utxo p) (happart : HashesApart env known)
  (hreach : ListReachable env known s)
include hguarded happart hreach

section

variable (h : Mined env blsHash known s done l) (hdone : ∀ t ∈ done, InPool env p t ∧ t ≠ tx)
  (htx : InPool env p tx)
include h hdone htx

/-! What the next transaction of the pool brings, no transaction of the block has brought: the
    masternodes that have it are those of the old list. -/

omit hreach in
lemma Mined.old_addr (hversion : tx.nVersion = 3) {addr : CService}
    (hmem : addr ∈ (proTxKeys env blsHash tx).addresses) (hget : l.mnMap.get? proTxHash = some dmn)
    (howns : dmn.Owns (.service addr)) :
    ∃ old, s.list.mnMap.get? proTxHash = some old ∧ old.Owns (.service addr) := by
  obtain ⟨rfl, hne⟩ := owns_service_iff.mp howns
  rcases (h.traced _ _ hget).addr hne with ⟨old, hold, hsame⟩ | ⟨t, ht, hversion', hmem'⟩
  · exact ⟨old, hold, owns_service_iff.mpr ⟨hsame, hne⟩⟩
  · exact absurd (.inl ⟨_, hmem', hmem⟩) (hguarded.not_sharesKey happart (hdone t ht).1 htx
      (hdone t ht).2 hversion' hversion)

omit hreach in
lemma Mined.old_operator (hversion : tx.nVersion = 3) {key : CBLSPublicKey}
    (hmem : blsHash key ∈ (proTxKeys env blsHash tx).blsPubKeyHashes)
    (howned : l.Owned (.pubKey key.buf) proTxHash) :
    s.list.Owned (.pubKey key.buf) proTxHash := by
  obtain ⟨dmn, hget, howns⟩ := howned
  obtain ⟨rfl, hne⟩ := owns_pubKey_iff.mp howns
  rcases (h.traced _ _ hget).operator hne with ⟨old, hold, hsame⟩ | ⟨t, ht, hversion', hmem'⟩
  · exact ⟨old, hold, owns_pubKey_iff.mpr ⟨hsame, hne⟩⟩
  · exact absurd (.inr (.inr (.inl ⟨_, hmem', hmem⟩))) (hguarded.not_sharesKey happart
      (hdone t ht).1 htx (hdone t ht).2 hversion' hversion)

lemma Mined.registrationFits (hpro : IsProReg env tx proTx)
    (hchecked : ProRegChecked env utxo s.list tx proTx) :
    RegistrationFits env utxo s.chain.length l tx proTx := by
  have hrooted := hreach.rooted happart
  have hread := readProTx_register hpro.type hpro.payload
  constructor
  case collateral =>
    intro hhash
    cases hchecked.collateral with
    | outside coin _ hcoin hvalue =>
      rw [proRegOutpoint, if_neg hhash, collateralMissing, hcoin]
      exact decide_eq_false (not_not.mpr hvalue)
    | own _ hown => exact absurd hown hhash
  case replaced =>
    intro proTxHash dmn hget hcollateral
    rcases (h.traced _ _ hget).origin with ⟨old, hold, _, _, hheight⟩ |
      ⟨t, ht, proTx', hpro', hcollateral', _⟩
    · have hearlier := (reachable_registered happart hreach hold).1
      rw [hheight] at hearlier
      omega
    · -- two registrations of the pool do not share a collateral
      have hchecked' := hpro'.checked s.chain_ne (hguarded.checked (hdone t ht).1)
      exact absurd (hcollateral'.symm.trans hcollateral) (hguarded.outpoint_ne happart
        (hdone t ht).1 htx (hdone t ht).2 hpro' hpro hchecked' hchecked)
  case addr =>
    intro proTxHash dmn hget howns
    obtain ⟨old, hold, howns'⟩ := h.old_addr hguarded happart hdone htx hpro.version
      (by rw [proTxKeys, hread]; exact mem_singleton_self _) hget howns
    rw [← hrooted.collateral_eq happart h.rooted hold hget]
    exact hchecked.addrFree hrooted.sound.props proTxHash old hold howns'
  case owner =>
    rintro other ⟨dmn, hget, howns⟩
    obtain ⟨howner, hne⟩ := owns_keyID_iff.mp howns
    rcases (h.traced _ _ hget).origin with ⟨old, hold, _, hsame, _⟩ |
      ⟨t, ht, proTx', hpro', _, howner'⟩
    · exact hchecked.ownerFree hrooted.sound.props other ⟨old, hold,
        owns_keyID_iff.mpr ⟨hsame.trans howner, hne⟩⟩
    · refine hguarded.not_sharesKey happart (hdone t ht).1 htx (hdone t ht).2 hpro'.version
        hpro.version (.inr (.inl ⟨proTx'.keyIDOwner, ?_, ?_⟩))
      · rw [proTxKeys, readProTx_register hpro'.type hpro'.payload]
        exact mem_singleton_self _
      · rw [proTxKeys, hread]
        exact mem_singleton.mpr (howner'.symm.trans howner)
  case operator =>
    exact fun other howned => hchecked.operatorFree hrooted.sound.props other
      (h.old_operator hguarded happart hdone htx hpro.version
        (by rw [proTxKeys, hread]; exact mem_singleton_self _) howned)

/-- A transaction of the pool fits into the list, unless its masternode has been replaced. -/
lemma Mined.fits (hprovider : readProTx env tx ≠ .other)
    (hfirst : ∀ proTxHash dmn, s.list.mnMap.get? proTxHash = some dmn → Updates env tx proTxHash →
      ∀ t ∈ done, ¬ TakesCollateral env t dmn.collateralOutpoint) :
    Fits env utxo s.chain.length l tx := by
  have hprops := (hreach.rooted happart).sound.props
  have hchecktx := hguarded.checked htx
  have hlisted : ∀ proTxHash, Updates env tx proTxHash → (l.mnMap.get? proTxHash).isSome := by
    intro proTxHash hupdates
    obtain ⟨old, hold⟩ := hupdates.listed s.chain_ne hchecktx
    -- a masternode leaves the list with its collateral only
    rcases h.stays proTxHash old hold with ⟨dmn, hget, _⟩ | ⟨t, ht, htakes⟩
    · rw [hget]
      rfl
    · exact absurd htakes (hfirst proTxHash old hold hupdates t ht)
  constructor
  case registration =>
    intro proTx hpro
    exact h.registrationFits hguarded happart hreach hdone htx hpro
      (hpro.checked s.chain_ne hchecktx)
  case service =>
    intro proTx hpro
    have hread := readProTx_service hpro.type hpro.payload
    refine ⟨hlisted _ ⟨hpro.version, by rw [hread]; rfl⟩, ?_⟩
    rintro other ⟨dmn, hget, howns⟩
    exact (hpro.checked s.chain_ne hchecktx).addrFree hprops other
      (h.old_addr hguarded happart hdone htx hpro.version
        (by rw [proTxKeys, hread]; exact mem_singleton_self _) hget howns)
  case keyFree =>
    intro proTx hpro other howned
    have hread := readProTx_registrar hpro.type hpro.payload
    exact (hpro.checked s.chain_ne hchecktx).operatorFree hprops other (h.old_operator hguarded
      happart hdone htx hpro.version (by rw [proTxKeys, hread]; exact mem_singleton_self _) howned)
  case registrar =>
    intro proTx hpro
    exact hlisted _ ⟨hpro.version, by rw [readProTx_registrar hpro.type hpro.payload]; rfl⟩
  case revocation =>
    intro proTx hpro
    exact hlisted _ ⟨hpro.version, by rw [readProTx_revoke hpro.type hpro.payload]; rfl⟩
  case provider =>
    intro hspecial
    exact hprovider (by rw [readProTx, hspecial.type])

end

section

variable (hpool : ∀ tx ∈ txs, InPool env p tx)
include hpool

lemma Guarded.vetted :
    Vetted env known s.chain utxo s.list txs :=
  ⟨happart, hreach.rooted happart, s.chain_ne, fun tx htx => hguarded.knows (hpool tx htx),
    fun tx htx => hguarded.checked (hpool tx htx)⟩

/-- The block goes through when every update comes before the replacement of its masternode. -/
lemma Guarded.mineable
    (hprovider : ∀ tx ∈ txs, readProTx env tx ≠ .other) (hnodup : txs.Nodup)
    (hfirst : UpdatesFirst env s.list txs) (coinbase : CTransaction) :
    ∃ newList, buildNewListFromBlock env s.chain utxo s.list (coinbase :: txs) = .ok newList := by
  obtain ⟨_, hrooted, _, hknown, hcheck⟩ := hguarded.vetted happart hreach hpool
  have hends : Ends (fun _ => False) (fun _ => True)
      (buildNewListFromBlock env s.chain utxo s.list (coinbase :: txs)) := by
    unfold buildNewListFromBlock
    refine (upkeep_ends hrooted.sound s.chain_ne).bind (fun l1 ⟨hsound1, hsteps, hstay⟩ => ?_)
    have hloop : Ends (fun _ => False) (Mined env blsHash known s txs)
        (txs.foldlM (processTx env s.chain utxo) l1) := by
      -- before each transaction the list has what `Mined` says about those done
      refine ends_foldlM (Mined env blsHash known s) (mined_start hrooted hsound1 hsteps hstay) ?_
      intro done tx rest htxs l hmined
      have hmem : tx ∈ txs := htxs ▸ mem_append_cons_self
      have hsub : ∀ t ∈ done, t ∈ txs := fun t ht => htxs ▸ mem_append_left _ ht
      have hnew : ∀ t ∈ done, t ≠ tx := by
        rw [htxs] at hnodup
        exact fun t ht => (nodup_append.mp hnodup).2.2 t ht tx (.head _)
      have hfits := hmined.fits hguarded happart hreach
        (fun t ht => ⟨hpool t (hsub t ht), hnew t ht⟩) (hpool tx hmem)
        (hprovider tx hmem) (hfirst done tx rest htxs)
      exact (processTx_ends hmined.rooted.sound hmined.height s.chain_ne (hcheck tx hmem)
        (happart.ne_zero tx (hknown tx hmem))
        (fun dmn proTx => hmined.rooted.again happart (hknown tx hmem))).mono
        (fun _ he => he.2 hfits) (fun l' hafter => hmined.turn (hknown tx hmem) hafter)
    refine hloop.bind (fun l2 hmined => ?_)
    refine (removeSpentAll_ends env s.chain.length hmined.rooted.sound).bind
      (fun l3 ⟨hsound3, _⟩ => ?_)
    exact (markPaid_ends env s.chain.length hsound3).post (fun _ _ => trivial)
  cases hbuild : buildNewListFromBlock env s.chain utxo s.list (coinbase :: txs) with
  | ok newList => exact ⟨newList, rfl⟩
  | error e => exact (hends.of_error hbuild).elim

/-- In a block that goes through, no update comes after the replacement of its masternode. -/
lemma Guarded.updatesFirst {coinbase : CTransaction}
    {newList : MNList}
    (hbuild : buildNewListFromBlock env s.chain utxo s.list (coinbase :: txs) = .ok newList) :
    UpdatesFirst env s.list txs := by
  have hvetted := hguarded.vetted happart hreach hpool
  intro before tx after htxs proTxHash dmn hget hupdates t ht htakes
  simp only [buildNewListFromBlock, except_bind_ok_iff] at hbuild
  obtain ⟨l1, hupkeep, l2, hrun, _⟩ := hbuild
  obtain ⟨hrooted1, hsteps⟩ := hvetted.upkeep hupkeep
  -- once it has been replaced, the masternode does not come back
  have hends := processTxs_ends hvetted hrooted1 (Steps.nHeight_eq hsteps)
    (fun done l => (∀ t ∈ done, TakesCollateral env t dmn.collateralOutpoint →
        l.mnMap.get? proTxHash = none) ∧
      ∀ before tx after, done = before ++ tx :: after → Updates env tx proTxHash →
        ∀ t ∈ before, ¬ TakesCollateral env t dmn.collateralOutpoint)
    ⟨fun _ hnil => absurd hnil not_mem_nil,
      fun before _ _ hnil => by cases before <;> cases hnil⟩
    (by
      rintro done tx rest hvtx l l' ⟨hgone, hfirst⟩ hturn
      have hmem : tx ∈ txs := hvtx ▸ mem_append_cons_self
      constructor
      · intro t ht htakes
        rcases mem_append.mp ht with hdone | hlast
        · exact Steps.stays_gone hturn.steps (hgone t hdone htakes)
            (not_registers_old hvetted hmem hget)
        · rw [mem_singleton.mp hlast] at htakes
          exact hturn.gone hvetted hmem hget htakes
      · intro before tx' after hsplit hupdates t ht htakes
        rcases eq_nil_or_concat after with rfl | ⟨after', last, rfl⟩
        · obtain ⟨rfl, hsame⟩ := append_inj' hsplit rfl
          obtain rfl := singleton_inj.mp hsame
          obtain ⟨found, hfound⟩ := hupdates.found hturn.run
          rw [hgone t ht htakes] at hfound
          cases hfound
        · rw [concat_eq_append, ← cons_append, ← append_assoc] at hsplit
          obtain ⟨rfl, _⟩ := append_inj' hsplit rfl
          exact hfirst before tx' after' rfl hupdates t ht htakes)
    (C := False) (fun hno => hno.elim)
  exact (hends.of_ok hrun).2.2.2 before tx after htxs hupdates t ht htakes

end

end Guarded

/-- Provider transactions of a pool that has been filled at one tip, in a block on that tip:
    `BuildNewListFromBlock` returns a list exactly when no update comes after a registration that
    takes the collateral of its masternode. -/
theorem pool_mineable_iff (happart : HashesApart env known) (hreach : ListReachable env known s)
    (hfilled : Filled env blsHash known s utxo p) (hpool : ∀ tx ∈ txs, InPool env p tx)
    (hprovider : ∀ tx ∈ txs, readProTx env tx ≠ .other) (hnodup : txs.Nodup)
    (coinbase : CTransaction) :
    (∃ newList, buildNewListFromBlock env s.chain utxo s.list (coinbase :: txs) = .ok newList) ↔
      UpdatesFirst env s.list txs := by
  have hguarded := hfilled.guarded happart hreach
  constructor
  · rintro ⟨newList, hbuild⟩
    exact hguarded.updatesFirst happart hreach hpool hbuild
  · intro hfirst
    exact hguarded.mineable happart hreach hpool hprovider hnodup hfirst coinbase

/-! ## An update after the replacement -/

namespace Sample

open Evo.Sample ProTxPool.Sample

/-- A payload of three numbers is a registration on the first output of another transaction. -/
def poolEnv : EvoEnv :=
  { smallEnv with
    getProRegTx := fun payload =>
      match payload with
      | [owner, operator, hash] =>
        some { registration (BitVec.ofNat 160 owner.toNat) operator.toNat with
          collateralOutpoint := ⟨BitVec.ofNat 256 hash.toNat, 0⟩ }
      | payload => smallEnv.getProRegTx payload }

/-- An update of the masternode that transaction 1 has registered. -/
def serviceTx : CTransaction := specialTx .TRANSACTION_PROVIDER_UPDATE_SERVICE 5 []

/-- A registration on the collateral of the same masternode. -/
def replacementTx : CTransaction := specialTx .TRANSACTION_PROVIDER_REGISTER 6 [7, 8, 1]

def poolTxs : List CTransaction := replacementTx :: sampleTxs

lemma poolTxs_apart : HashesApart poolEnv (· ∈ poolTxs) where
  injective := by
    have hall : ∀ a ∈ poolTxs, ∀ b ∈ poolTxs,
        poolEnv.getHash a = poolEnv.getHash b → a = b := by decide +kernel
    exact fun a b ha hb => hall a ha b hb
  ne_zero := by decide +kernel

lemma afterFirst_reachable_pool : ListReachable poolEnv (· ∈ poolTxs) afterFirst := by
  refine ⟨smallStart, ⟨1, -1, 0, rfl⟩, Reaches.start.next firstBlock (by decide +kernel) ?_⟩
  refine connect_of_build (checkSpecialTxs_ok_iff.mp ?_) ?_
  · decide +kernel
  · decide +kernel

def servicePool : ProTxPool :=
  (ProTxPool.empty.addUnchecked poolEnv keyBytes afterFirst.list
    (entryOf serviceTx)).toOption.getD .empty

/-- Both transactions are in the pool. -/
def bothPool : ProTxPool :=
  (servicePool.addUnchecked poolEnv keyBytes afterFirst.list
    (entryOf replacementTx)).toOption.getD .empty

/-- Only an output of transaction 1 is unspent. -/
lemma smallUtxo_eq_none {hash : Uint256} (hne : hash ≠ 1) (n : UInt32) :
    smallUtxo ⟨hash, n⟩ = none :=
  if_neg (fun hsame => hne (congrArg COutPoint.hash hsame))

lemma bothPool_filled : Filled poolEnv keyBytes (· ∈ poolTxs) afterFirst smallUtxo bothPool := by
  have hservice : Filled poolEnv keyBytes (· ∈ poolTxs) afterFirst smallUtxo servicePool := by
    refine Reaches.start.next (entryOf serviceTx) ⟨?_, ?_, ?_, rfl, ?_⟩ rfl
    · decide +kernel
    · decide +kernel
    · decide +kernel
    · exact fun n _ => smallUtxo_eq_none (by decide +kernel) n
  refine hservice.next (entryOf replacementTx) ⟨?_, ?_, ?_, rfl, ?_⟩ ?_
  · decide +kernel
  · decide +kernel
  · decide +kernel
  · exact fun n _ => smallUtxo_eq_none (by decide +kernel) n
  · rfl

lemma inBothPool : ∀ tx ∈ [serviceTx, replacementTx], InPool poolEnv bothPool tx :=
  forall_mem_cons.mpr ⟨⟨entryOf serviceTx, rfl, rfl⟩,
    forall_mem_singleton.mpr ⟨entryOf replacementTx, rfl, rfl⟩⟩

lemma provider_both : ∀ tx ∈ [serviceTx, replacementTx], readProTx poolEnv tx ≠ .other :=
  forall_mem_cons.mpr ⟨nofun, forall_mem_singleton.mpr nofun⟩

end Sample

open Sample Evo.Sample in
/-- With the update first, the block goes through. -/
theorem pool_mineable_iff_updateFirst : ∃ newList,
    buildNewListFromBlock poolEnv afterFirst.chain smallUtxo afterFirst.list
      [coinbase 101, serviceTx, replacementTx] = .ok newList := by
  refine (pool_mineable_iff poolTxs_apart afterFirst_reachable_pool bothPool_filled inBothPool
    provider_both (by decide +kernel) (coinbase 101)).mpr ?_
  intro before tx after htxs proTxHash dmn _ _ t ht htakes
  obtain ⟨_, hspecial, _⟩ := htakes
  match before, htxs with
  | [], _ => cases ht
  | [_], htxs =>
    obtain ⟨hfirst, _⟩ := List.cons.inj htxs
    rw [mem_singleton.mp ht, ← hfirst] at hspecial
    exact nomatch hspecial.type
  | _ :: _ :: _, htxs =>
    have hlength := congrArg List.length htxs
    simp only [cons_append, length_cons, length_append, length_nil] at hlength
    omega

open Sample Evo.Sample ProTxPool.Sample in
/-- With the registration first, the masternode is gone when its update comes. -/
theorem replacement_before_update_refused :
    HashesApart poolEnv (· ∈ poolTxs) ∧ ListReachable poolEnv (· ∈ poolTxs) afterFirst ∧
      Filled poolEnv keyBytes (· ∈ poolTxs) afterFirst smallUtxo bothPool ∧
      (∀ tx ∈ [replacementTx, serviceTx], InPool poolEnv bothPool tx ∧ tx.vin = []) ∧
      buildNewListFromBlock poolEnv afterFirst.chain smallUtxo afterFirst.list
        [coinbase 101, replacementTx, serviceTx] =
          .error (.dos 100 REJECT_INVALID "bad-protx-hash") := by
  refine ⟨poolTxs_apart, afterFirst_reachable_pool, bothPool_filled, ?_, ?_⟩
  · exact forall_mem_cons.mpr ⟨⟨inBothPool _ (by simp), rfl⟩,
      forall_mem_singleton.mpr ⟨inBothPool _ (by simp), rfl⟩⟩
  · decide +kernel

end Mempool
end Tecracoin
