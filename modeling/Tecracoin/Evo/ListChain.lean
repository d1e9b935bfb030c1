/-
  The masternode list along a chain of blocks.

  A block is connected when each of its transactions passes `CheckSpecialTx`
  against the list of the block before it and `BuildNewListFromBlock` returns a
  list.  The runs start from the empty list at any block.
-/
import Tecracoin.Evo.BuildSpec

namespace Tecracoin.Evo

open Data Llmq CDeterministicMNList

/-- The checks of `ProcessSpecialTxsInBlock`, one transaction after the other. -/
def checkSpecialTxs (env : EvoEnv) (chain : CChain) (utxo : UTXO) (mnList : MNList) :
    List CTransaction → Except Failure Unit
  | [] => .ok ()
  | tx :: vtx => do
      checkSpecialTx env chain utxo mnList tx
      checkSpecialTxs env chain utxo mnList vtx

lemma checkSpecialTxs_ok_iff {env : EvoEnv} {chain : CChain} {utxo : UTXO} {mnList : MNList}
    {vtx : List CTransaction} :
    checkSpecialTxs env chain utxo mnList vtx = .ok () ↔
      ∀ tx ∈ vtx, checkSpecialTx env chain utxo mnList tx = .ok () := by
  induction vtx with
  | nil => simp [checkSpecialTxs]
  | cons tx vtx ih =>
    rw [checkSpecialTxs, except_bind_ok_iff, List.forall_mem_cons, ← ih]
    exact ⟨fun ⟨_, htx, hrest⟩ => ⟨htx, hrest⟩, fun ⟨htx, hrest⟩ => ⟨(), htx, hrest⟩⟩

/-- A chain and the list of its tip. -/
structure ListState where
  chain : CChain
  list : MNList
  chain_ne : chain ≠ []

/-- A block with the unspent coins it is checked against, and the number of registrations that the
    stored list has for the block: the list of a block is put together again from snapshots and
    differences, and the counter of the result is left open here. -/
structure BlockInput where
  block : CBlock
  utxo : UTXO
  count : Nat

/-- The state after a block for which the list `newList` has been built. -/
def ListState.extend (s : ListState) (op : BlockInput) (newList : MNList) : ListState where
  chain := s.chain ++ [op.block]
  list := { newList with blockHash := op.block.hash, nTotalRegisteredCount := op.count }
  chain_ne := List.concat_ne_nil _ _

/-- The new list of a block, when all its transactions pass their checks. -/
def checkAndBuild (env : EvoEnv) (op : BlockInput) (s : ListState) : Except Failure MNList := do
  checkSpecialTxs env s.chain op.utxo s.list op.block.vtx
  buildNewListFromBlock env s.chain op.utxo s.list op.block.vtx

def connect (env : EvoEnv) (op : BlockInput) (s : ListState) : Option ListState :=
  (checkAndBuild env op s).toOption.map (s.extend op)

/-- Every transaction of the block passes `CheckSpecialTx`. -/
def ChecksPass (env : EvoEnv) (op : BlockInput) (s : ListState) : Prop :=
  ∀ tx ∈ op.block.vtx, checkSpecialTx env s.chain op.utxo s.list tx = .ok ()

/-- The states that blocks of known transactions lead to from an empty list. -/
def ListReachable (env : EvoEnv) (known : CTransaction → Prop) (s : ListState) : Prop :=
  ∃ s0 : ListState, (∃ blockHash height count, s0.list = .new blockHash height count) ∧
    Reaches (connect env) (fun op _ => ∀ tx ∈ op.block.vtx, known tx) s0 s

section Chain

variable {env : EvoEnv} {known : CTransaction → Prop} {op : BlockInput} {s s' : ListState}
  {newList : MNList}

lemma connect_eq_some (h : connect env op s = some s') :
    ChecksPass env op s ∧ ∃ newList,
      buildNewListFromBlock env s.chain op.utxo s.list op.block.vtx = .ok newList ∧
        s' = s.extend op newList := by
  rw [connect, Option.map_eq_some_iff] at h
  obtain ⟨newList, hrun, rfl⟩ := h
  rw [toOption_eq_some_iff, checkAndBuild, except_bind_ok_iff] at hrun
  obtain ⟨_, hcheck, hbuild⟩ := hrun
  exact ⟨checkSpecialTxs_ok_iff.mp hcheck, newList, hbuild, rfl⟩

lemma connect_of_build (hcheck : ChecksPass env op s)
    (hbuild : buildNewListFromBlock env s.chain op.utxo s.list op.block.vtx = .ok newList) :
    connect env op s = some (s.extend op newList) := by
  have hchecks : checkSpecialTxs env s.chain op.utxo s.list op.block.vtx = .ok () :=
    checkSpecialTxs_ok_iff.mpr hcheck
  rw [connect, checkAndBuild, hchecks]
  show (buildNewListFromBlock env s.chain op.utxo s.list op.block.vtx).toOption.map _ = _
  rw [hbuild]
  rfl

lemma rooted_new {blockHash : Uint256} {height : Int} {count : Nat} :
    Rooted env known (.new blockHash height count) :=
  ⟨⟨propsExact_new, nofun⟩, nofun⟩

lemma CDeterministicMNList.Rooted.header {l : MNList} (h : Rooted env known l)
    (blockHash : Uint256) (count : Nat) :
    Rooted env known { l with blockHash := blockHash, nTotalRegisteredCount := count } :=
  ⟨h.sound.header _ _ _, h.registered⟩

/-- A list that has been built from a checked block. -/
lemma Vetted.built (h : Vetted env known s.chain op.utxo s.list op.block.vtx)
    (hbuild : buildNewListFromBlock env s.chain op.utxo s.list op.block.vtx = .ok newList) :
    ∃ l1 l2 l3, Built env known s.chain op.utxo s.list op.block.vtx l1 l2 l3 newList := by
  have hends := buildNewListFromBlock_ends h (fun _ _ => True) (fun _ _ => trivial)
    (fun _ _ _ _ _ _ _ _ => trivial) (C := False) (fun hno => hno.elim)
  obtain ⟨l1, l2, l3, hbuilt, _⟩ := hends.of_ok hbuild
  exact ⟨l1, l2, l3, hbuilt⟩

/-- A property of single masternodes that new blocks, changes of state and registrations keep, when
    the transactions behind them have passed their checks. The number is the length of the chain. -/
lemma ListReachable.forall_get {Φ : Nat → Uint256 → MN → Prop} (h : ListReachable env known s)
    (happart : HashesApart env known)
    (hnext : ∀ n proTxHash dmn, Φ n proTxHash dmn → Φ (n + 1) proTxHash dmn)
    (hchange : ∀ (t : ListState) utxo src dmn state,
      (∀ tx, src = some tx → checkSpecialTx env t.chain utxo t.list tx = .ok ()) →
      Φ (t.chain.length + 1) dmn.proTxHash dmn → StateStep env t.chain.length src dmn state →
      Φ (t.chain.length + 1) dmn.proTxHash { dmn with pdmnState := state })
    (hregister : ∀ (t : ListState) utxo tx proTx internalId, known tx →
      checkSpecialTx env t.chain utxo t.list tx = .ok () →
      IsProReg env tx proTx →
      Φ (t.chain.length + 1) (env.getHash tx) (newMN env t.chain.length internalId tx proTx)) :
    Rooted env known s.list ∧
      ∀ proTxHash dmn, s.list.mnMap.get? proTxHash = some dmn → Φ s.chain.length proTxHash dmn := by
  obtain ⟨s0, ⟨blockHash, height, count, hstart⟩, hreaches⟩ := h
  refine hreaches.invariant (P := fun s => Rooted env known s.list ∧
    ∀ proTxHash dmn, s.list.mnMap.get? proTxHash = some dmn → Φ s.chain.length proTxHash dmn)
    ⟨hstart ▸ rooted_new, ?_⟩ ?_
  · rw [hstart]
    exact nofun
  · rintro op t u ⟨hrooted, hall⟩ hknown hconnect
    obtain ⟨hcheck, newList, hbuild, rfl⟩ := connect_eq_some hconnect
    -- the steps without a transaction register nothing
    have hupkeep : ∀ {l l'}, Steps env t.chain.length none l l' →
        (∀ proTxHash dmn, l.mnMap.get? proTxHash = some dmn →
          Φ (t.chain.length + 1) proTxHash dmn) →
        ∀ proTxHash dmn, l'.mnMap.get? proTxHash = some dmn →
          Φ (t.chain.length + 1) proTxHash dmn :=
      fun hsteps hl => Steps.forall_get hsteps hl
        (fun dmn state => hchange t op.utxo none dmn state nofun) nofun
    have hends := buildNewListFromBlock_ends ⟨happart, hrooted, t.chain_ne, hknown, hcheck⟩
      (fun _ l => ∀ proTxHash dmn, l.mnMap.get? proTxHash = some dmn →
        Φ (t.chain.length + 1) proTxHash dmn)
      (fun l1 hsteps => hupkeep hsteps (fun _ _ hget => hnext _ _ _ (hall _ _ hget)))
      (fun done tx rest hvtx l1 l2 hl1 hturn => by
        have htx := mem_of_drop_eq hvtx
        refine Steps.forall_get hturn.steps hl1 (fun dmn state => hchange t op.utxo _ dmn state
          (fun _ hsrc => Option.some.inj hsrc ▸ hcheck tx htx)) ?_
        intro tx' proTx internalId hsrc hpro
        cases hsrc
        exact hregister t op.utxo _ proTx internalId (hknown _ htx) (hcheck _ htx) hpro)
      (C := False) (fun hno => hno.elim)
    obtain ⟨l1, l2, l3, hbuilt, hl2⟩ := hends.of_ok hbuild
    refine ⟨hbuilt.rooted.header _ _, ?_⟩
    have hlength : (t.extend op newList).chain.length = t.chain.length + 1 :=
      List.length_append
    rw [hlength]
    have hall' := hupkeep hbuilt.paid (hupkeep hbuilt.spent hl2)
    exact hall'

lemma ListReachable.rooted (h : ListReachable env known s) (happart : HashesApart env known) :
    Rooted env known s.list :=
  (h.forall_get (Φ := fun _ _ _ => True) happart (fun _ _ _ _ => trivial)
    (fun _ _ _ _ _ _ _ _ => trivial) (fun _ _ _ _ _ _ _ _ => trivial)).1

end Chain

/-! ## A small chain -/

namespace Sample

/-- Pays to the hash of a key. -/
def payToKey : CScript :=
  [0x76, 0xa9, 0x14] ++ List.replicate 20 9 ++ [0x88, 0xac]

/-- A registration with a collateral of its own and without an address. -/
def registration (owner : CKeyID) (operator : Nat) : CProRegTx where
  nVersion := 1
  nType := 0
  nMode := 0
  collateralOutpoint := ⟨0, 0⟩
  addr := .null
  keyIDOwner := owner
  pubKeyOperator := ⟨operator⟩
  keyIDVoting := owner
  nOperatorReward := 0
  scriptPayout := payToKey
  inputsHash := 0
  vchSig := []

/-- A registrar update of the masternode that transaction 1 has registered. -/
def registrarUpdate (operator : Nat) : CProUpRegTx where
  nVersion := 1
  proTxHash := 1
  nMode := 0
  pubKeyOperator := ⟨operator⟩
  keyIDVoting := 5
  scriptPayout := payToKey
  inputsHash := 0
  vchSig := []

/-- A service update of the masternode that transaction 1 has registered. -/
def serviceUpdate : CProUpServTx where
  nVersion := 1
  proTxHash := 1
  addr := ⟨0xffff01020304, 9999⟩
  scriptOperatorPayout := []
  inputsHash := 0
  sig := .null

/-- The regression test network. A payload is two numbers, and the lock time serves as the hash of a
    transaction. -/
def smallEnv : EvoEnv where
  chainType := .chainRegtest
  getHash tx := BitVec.ofNat 256 tx.nLockTime.toNat
  calcTxInputsHash _ := 0
  getProRegTx
    | [owner, operator] => some (registration (BitVec.ofNat 160 owner.toNat) operator.toNat)
    | _ => none
  getProUpServTx _ := some serviceUpdate
  getProUpRegTx
    | [_, operator] => some (registrarUpdate operator.toNat)
    | _ => none
  getProUpRevTx _ := none
  getCbTx _ := none
  getFinalCommitmentTx _ := none
  hash160 _ := 0
  makeSignString _ := ""
  hashProUpServTx _ := 0
  hashProUpRegTx _ := 0
  hashProUpRevTx _ := 0
  verifyMessage _ _ _ := true
  verifyHash _ _ _ := true
  verifyInsecure _ _ _ := true
  verifySecureAggregated _ _ _ := true
  buildCommitmentHash _ := 0
  hashCommitment _ := 0
  sha256Pair a _ := a
  quorumModifier _ _ := 0
  listOfQuorumBlock _ := .new 0 0 0

/-- A transaction with one output that could be a collateral. -/
def specialTx (nType : TxType) (nLockTime : UInt32) (payload : List UInt8) : CTransaction where
  nVersion := 3
  nType := nType
  vin := []
  vout := [⟨collateralAmount, payToKey⟩]
  nLockTime := nLockTime
  vExtraPayload := payload

def coinbase (nLockTime : UInt32) : CTransaction where
  nVersion := 1
  nType := .TRANSACTION_NORMAL
  vin := []
  vout := []
  nLockTime := nLockTime
  vExtraPayload := []

lemma one_ne : (1 : Uint256) ≠ 0 := by decide

lemma two_ne : (2 : Uint256) ≠ 0 := by decide

lemma three_ne : (3 : Uint256) ≠ 0 := by decide

/-- As many blocks as special transactions are not allowed in. -/
def smallChain : CChain := List.replicate 10500 ⟨1, [], one_ne⟩

def smallStart : ListState where
  chain := smallChain
  list := .new 1 (-1) 0
  chain_ne := by decide +kernel

/-- The first output of transaction 1 is unspent. -/
def smallUtxo : UTXO := fun o =>
  if o = ⟨1, 0⟩ then some ⟨⟨collateralAmount, payToKey⟩, false, 10500⟩ else none

/-- Transaction 1 registers a masternode with operator key 6. -/
def firstBlock : BlockInput where
  block := ⟨2, [coinbase 100, specialTx .TRANSACTION_PROVIDER_REGISTER 1 [5, 6]], two_ne⟩
  utxo := fun _ => none
  count := 1

/-- The list after the first block. -/
def afterFirst : ListState :=
  smallStart.extend firstBlock
    ((buildNewListFromBlock smallEnv smallChain firstBlock.utxo smallStart.list
      firstBlock.block.vtx).toOption.getD smallStart.list)

lemma connect_firstBlock : connect smallEnv firstBlock smallStart = some afterFirst := by
  refine connect_of_build (checkSpecialTxs_ok_iff.mp ?_) ?_
  · decide +kernel
  · decide +kernel

/-- The transactions of the sample blocks. -/
def sampleTxs : List CTransaction :=
  [coinbase 100, coinbase 101, coinbase 102,
    specialTx .TRANSACTION_PROVIDER_REGISTER 1 [5, 6],
    specialTx .TRANSACTION_PROVIDER_REGISTER 2 [7, 8],
    specialTx .TRANSACTION_PROVIDER_UPDATE_REGISTRAR 3 [0, 8],
    specialTx .TRANSACTION_PROVIDER_UPDATE_REGISTRAR 4 [0, 9],
    specialTx .TRANSACTION_PROVIDER_UPDATE_SERVICE 5 []]

lemma sampleTxs_apart : HashesApart smallEnv (· ∈ sampleTxs) where
  injective := by
    have hall : ∀ a ∈ sampleTxs, ∀ b ∈ sampleTxs,
        smallEnv.getHash a = smallEnv.getHash b → a = b := by decide +kernel
    exact fun a b ha hb => hall a ha b hb
  ne_zero := by decide +kernel

lemma afterFirst_reachable : ListReachable smallEnv (· ∈ sampleTxs) afterFirst :=
  ⟨smallStart, ⟨1, -1, 0, rfl⟩, Reaches.start.next firstBlock (by decide +kernel)
    connect_firstBlock⟩

end Sample

end Tecracoin.Evo
