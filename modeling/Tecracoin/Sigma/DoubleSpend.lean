/-
  Which blocks can carry one serial number twice.

  Three places look for a repeated serial: the set of serials of the
  transaction, the `spentSerials` of the block, and the used serials of the
  state when the block is connected.  The second look is skipped for a
  transaction that is already listed in `zcTransactions`, and the mint outputs
  of a transaction are checked, and list it, before its inputs are.  So within a
  block a serial can come back in a transaction that also mints; everywhere else
  the checks hold.
-/
import Tecracoin.Sigma.CheckSpec
import Tecracoin.Sigma.Node

namespace Tecracoin.Sigma

open Data Sample Eff List

variable {s s' : ConnectState} {info : CSigmaTxInfo} {u : Unit} {fJustCheck : Bool} {nHeight : Int}
  {vtx : List CTransaction}

variable {crypto : Crypto} {params : Params} {st : CSigmaState}

/-! ## The block -/

lemma mintsChecked_congr_length {chain chain' : List CBlockIndex}
    (h : chain'.length = chain.length) (tx : CTransaction) :
    mintsChecked params nHeight chain' tx = mintsChecked params nHeight chain tx := by
  simp only [mintsChecked, realHeight, chainHeight, h]

/-- All serial numbers of a block, with repetitions. -/
def blockSerials (crypto : Crypto) (vtx : List CTransaction) : List Scalar :=
  vtx.flatMap (txSerials crypto)

/-- What the checks of all transactions of a block establish together. `before` are the serials
    recorded when the first of them is checked. -/
structure BlockRecorded (crypto : Crypto) (params : Params) (st : CSigmaState) (nHeight : Int)
    (chain : List CBlockIndex) (vtx : List CTransaction) (info info' : CSigmaTxInfo) : Prop where
  isOpen : info'.fInfoIsComplete = false
  mem_keys : ∀ x, x ∈ info'.spentSerials.keys ↔
    x ∈ blockSerials crypto vtx ∨ x ∈ info.spentSerials.keys
  nodup : ∀ tx ∈ vtx, (txSerials crypto tx).Nodup
  new : ∀ tx ∈ vtx, mintsChecked params nHeight chain tx = false →
    ∀ x ∈ txSerials crypto tx, x ∉ info.spentSerials.keys
  separated : vtx.Pairwise (fun t1 t2 => mintsChecked params nHeight chain t2 = false →
    (txSerials crypto t1).Disjoint (txSerials crypto t2))

/-- The checks of a block record its serials. -/
lemma checkSigmaTransactions_ok {s s' : CheckState} (hinfo : s.sigmaTxInfo = some info)
    (hopen : info.fInfoIsComplete = false) (hids : (vtx.map crypto.getHash).Nodup)
    (hlisted : ∀ x ∈ info.zcTransactions, x ∉ vtx.map crypto.getHash)
    (h : checkSigmaTransactions crypto params st nHeight vtx s = .ok u s') :
    ∃ info', s'.sigmaTxInfo = some info' ∧
      BlockRecorded crypto params st nHeight s.chain vtx info info' := by
  -- induction on the transactions: no later one is listed when its turn comes
  induction vtx generalizing s info with
  | nil =>
    simp only [checkSigmaTransactions, pure_ok_iff] at h
    rw [h.2]
    exact ⟨info, hinfo, ⟨hopen, by simp [blockSerials], by simp, by simp, by simp⟩⟩
  | cons tx vtx ih =>
    simp only [checkSigmaTransactions, bind_ok_iff] at h
    obtain ⟨u1, s1, hfirst, hrest⟩ := h
    obtain ⟨info1, hinfo1, hrec1, hnodup1, hnew1⟩ := checkSigmaTransaction_ok hinfo hopen hfirst
    have hlen := checkSigmaTransaction_length hfirst
    rw [map_cons, nodup_cons] at hids
    have hlisted1 : ∀ x ∈ info1.zcTransactions, x ∉ vtx.map crypto.getHash := by
      intro x hx hmem
      rcases hrec1.mem_zcTransactions x hx with rfl | hx
      · exact hids.1 hmem
      · exact hlisted x hx (.tail _ hmem)
    obtain ⟨info', hinfo', hrec⟩ := ih hinfo1 hrec1.isOpen hids.2 hlisted1 hrest
    have hzc : crypto.getHash tx ∉ info.zcTransactions :=
      fun hmem => hlisted _ hmem (.head _)
    have hnew : ∀ t ∈ vtx, mintsChecked params nHeight s.chain t = false →
        ∀ x ∈ txSerials crypto t, x ∉ info1.spentSerials.keys := by
      intro t ht hm
      exact hrec.new t ht ((mintsChecked_congr_length hlen t).trans hm)
    refine ⟨info', hinfo', ⟨hrec.isOpen, ?_, ?_, ?_, ?_⟩⟩
    · intro x
      rw [hrec.mem_keys, hrec1.mem_keys, blockSerials, blockSerials, flatMap_cons, mem_append]
      tauto
    · intro t ht
      rcases mem_cons.mp ht with rfl | ht
      · exact hnodup1
      · exact hrec.nodup t ht
    · intro t ht hm x hx
      rcases mem_cons.mp ht with rfl | ht
      · exact hnew1 hzc hm x hx
      · exact fun hmem => hnew t ht hm x hx ((hrec1.mem_keys x).mpr (.inr hmem))
    · rw [pairwise_cons]
      refine ⟨fun t ht hm x hx1 hx2 => ?_, ?_⟩
      · exact hnew t ht hm x hx2 ((hrec1.mem_keys x).mpr (.inl hx1))
      · refine hrec.separated.imp (fun hsep hm => hsep ?_)
        exact (mintsChecked_congr_length hlen _).trans hm

/-! ## The used serials -/

lemma isUsedCoinSerial_addSpend {serial serial' : Scalar} {coinInfo : CSpendCoinInfo} :
    (st.addSpend serial coinInfo).isUsedCoinSerial serial' = true ↔
      serial' = serial ∨ st.isUsedCoinSerial serial' = true := by
  simp only [CSigmaState.isUsedCoinSerial, StdMap.contains_iff]
  exact StdMap.mem_keys_set

/-- The serial loop passes only when no serial it is given was used before. -/
lemma connectSerials_unused {serials : List (Scalar × CSpendCoinInfo)}
    (h : connectSerials info fJustCheck serials s = .ok u s') :
    ∀ e ∈ serials, s.sigmaState.isUsedCoinSerial e.1 = false := by
  induction serials generalizing s with
  | nil => simp
  | cons serial serials ih =>
    simp only [connectSerials, bind_ok_iff, get_ok_iff, lift_ok_iff,
      when_ok_iff, modify_ok_iff, and_assoc, exists_and_left, exists_eq_left,
      exists_const] at h
    obtain ⟨u1, hcheck, s1, hadd, hrest⟩ := h
    have hfirst := (checkSigmaSpendSerial_ok_iff.mp hcheck).2 (.inr rfl)
    intro e he
    rcases mem_cons.mp he with rfl | he
    · exact hfirst
    · have hlater := ih hrest e he
      rcases hadd with ⟨-, rfl⟩ | ⟨-, rfl⟩
      · rw [← Bool.not_eq_true] at hlater ⊢
        exact fun hused => hlater (isUsedCoinSerial_addSpend.mpr (.inr hused))
      · exact hlater

lemma connectBlockSigma_unused
    (h : connectBlockSigma crypto params (some ⟨vtx, some info⟩) fJustCheck s = .ok u s') :
    ∀ x ∈ info.spentSerials.keys, s.sigmaState.isUsedCoinSerial x = false := by
  obtain ⟨-, s1, hserials, -⟩ := connectBlockSigma_ok h
  have hst : (if fJustCheck then s else s.clearIndex).sigmaState = s.sigmaState := by
    split <;> rfl
  rw [← hst]
  exact forall_mem_map.mpr (connectSerials_unused hserials)

/-! ## Accepted blocks -/

/-- The sigma part of `ConnectBlock` accepts the block: every transaction passes
    `CheckSigmaTransaction` with one shared info, and `ConnectBlockSigma` returns `true` on the
    completed info. -/
def acceptsSigma (crypto : Crypto) (params : Params) (st : CSigmaState)
    (chain : List CBlockIndex) (pindexNew : CBlockIndex) (vtx : List CTransaction)
    (fJustCheck : Bool) : Bool :=
  match checkSigmaTransactions crypto params st pindexNew.nHeight vtx ⟨chain, some .empty⟩ with
  | .error _ _ => false
  | .ok _ checked =>
    match connectBlockSigma crypto params
        (some ⟨vtx, checked.sigmaTxInfo.map CSigmaTxInfo.complete⟩) fJustCheck
        ⟨st, pindexNew⟩ with
    | .error _ _ => false
    | .ok _ _ => true

/-- No serial of a transaction whose mint outputs are checked stands in a transaction before it. -/
def MintersSeparated (crypto : Crypto) (params : Params) (nHeight : Int)
    (chain : List CBlockIndex) (vtx : List CTransaction) : Prop :=
  vtx.Pairwise (fun t1 t2 => mintsChecked params nHeight chain t2 = true →
    (txSerials crypto t1).Disjoint (txSerials crypto t2))

/-- An accepted block spends no serial twice and none that was used before, exactly when no
    transaction with checked mint outputs repeats a serial of a transaction before it. -/
theorem accepted_serials_unique_iff {chain : List CBlockIndex} {pindexNew : CBlockIndex}
    {vtx : List CTransaction} {fJustCheck : Bool} (hids : (vtx.map crypto.getHash).Nodup)
    (haccepts : acceptsSigma crypto params st chain pindexNew vtx fJustCheck = true) :
    ((blockSerials crypto vtx).Nodup ∧
        ∀ serial ∈ blockSerials crypto vtx, st.isUsedCoinSerial serial = false) ↔
      MintersSeparated crypto params pindexNew.nHeight chain vtx := by
  unfold acceptsSigma at haccepts
  split at haccepts
  · cases haccepts
  · rename_i u checked hchecked
    obtain ⟨info, hinfo, hrec⟩ := checkSigmaTransactions_ok (s := ⟨chain, some .empty⟩) rfl rfl hids
      (by simp [CSigmaTxInfo.empty]) hchecked
    rw [hinfo, Option.map_some] at haccepts
    split at haccepts
    · cases haccepts
    · rename_i hconnect
      have hunused : ∀ x ∈ blockSerials crypto vtx, st.isUsedCoinSerial x = false := by
        intro x hx
        exact connectBlockSigma_unused hconnect x ((hrec.mem_keys x).mpr (.inl hx))
      constructor
      · rintro ⟨hnodup, -⟩
        refine List.Pairwise.imp ?_ (nodup_flatMap.mp hnodup).2
        intro t1 t2 hdisjoint _
        exact hdisjoint
      · intro hsep
        refine ⟨nodup_flatMap.mpr ⟨hrec.nodup, ?_⟩, hunused⟩
        -- a pair is separated by the block check or by the condition
        refine (hrec.separated.and hsep).imp (fun {t1 t2} hboth => ?_)
        cases hm : mintsChecked params pindexNew.nHeight chain t2 with
        | false => exact hboth.1 hm
        | true => exact hboth.2 hm

namespace Sample

/-- Two transactions spend `first` and `second`; the second also mints coin 9. -/
def spendAndMint (first second : UInt8) : List CTransaction :=
  [tx 2 [spendInput 1 first] [], tx 3 [spendInput 1 second] [mintOutput 9]]

end Sample

/-- The condition is not vacuous: a block with two serials and a mint. -/
theorem accepted_serials_unique_iff_distinct :
    (blockSerials toyCrypto (spendAndMint 5 6)).Nodup ∧
      MintersSeparated toyCrypto .testnet 2 minted.chainActive
        (spendAndMint 5 6) := by
  have hids : ((spendAndMint 5 6).map toyCrypto.getHash).Nodup := by decide +kernel
  have haccepts : acceptsSigma toyCrypto .testnet minted.sigmaState
      minted.chainActive (.fresh ⟨2, 2⟩) (spendAndMint 5 6) false = true := by
    decide +kernel
  have hnodup : (blockSerials toyCrypto (spendAndMint 5 6)).Nodup := by
    decide +kernel
  exact ⟨hnodup, (accepted_serials_unique_iff hids haccepts).mp ⟨hnodup, fun _ _ => rfl⟩⟩

/-- On a chain with one minted coin, a block is accepted whose two transactions spend the same
    serial, the second one minting a coin as well. -/
theorem repeated_serial_accepted :
    Node.Reachable toyCrypto .testnet minted ∧
      ((spendAndMint 5 5).map toyCrypto.getHash).Nodup ∧
      acceptsSigma toyCrypto .testnet minted.sigmaState minted.chainActive
        (.fresh ⟨2, 2⟩) (spendAndMint 5 5) false = true ∧
      ¬ (blockSerials toyCrypto (spendAndMint 5 5)).Nodup := by
  refine ⟨minted_reachable, ?_, ?_, ?_⟩
  · decide +kernel
  · decide +kernel
  · decide +kernel

end Tecracoin.Sigma
