/-
  The operations of a node one by one: what each of them leaves of the chain and
  the state, and that the groups agree with the chain in every reachable state.
-/
import Tecracoin.Sigma.CheckSpec
import Tecracoin.Sigma.Node
import Tecracoin.Sigma.Rebuild

namespace Tecracoin.Sigma

open Data Node Eff

variable {crypto : Crypto} {params : Params} {hash : Uint256} {vtx : List CTransaction}
  {node : Node}
  {chain : List CBlockIndex} {info : CSigmaTxInfo} {s : ConnectState} {index : CBlockIndex}
  {node' : Node} {st : CSigmaState} {op : Node.Op}

/-! ## Reads -/

/-- Only keys of the chain are touched, provided the groups agree with it. -/
def Reads (st : CSigmaState) (chain chain' : List CBlockIndex) : Prop :=
  GroupInv st chain → Touches chain chain'

instance : IsPreorder CheckState (OnChain (Reads st)) where
  refl s _ := Touches.refl s.chain
  trans _ _ _ h1 h2 h := (h1 h).trans (h2 (h.touches (h1 h)))

lemma walksKeep_reads : WalksKeep st (OnChain (Reads st)) := by
  intro d id group hash s coins chain' hgroup hwalk hinv
  have hagrees : GroupAgrees (d, id) s.chain group := hinv.agrees_of_walk hgroup hwalk
  obtain ⟨above, b, rest, chain1, -, -, hok, htouches⟩ := anonymitySet_agrees hinv.ok hagrees
  rw [hok, Except.ok.injEq, Prod.mk.injEq] at hwalk
  rw [← hwalk.2]
  exact htouches

lemma survivor_eq_some {σ : Type} {r : EStateM.Result Failure σ Unit} {s : σ}
    (h : survivor r = some s) : finalState r = s := by
  cases r with
  | ok _ _ => exact Option.some.inj h
  | error e _ =>
    cases e with
    | returnsFalse | throws => exact Option.some.inj h
    | asserts | nullDereference => cases h

/-- Verifying a spend creates keys in blocks and changes nothing else. -/
lemma verifySpend_touches {flags : CheckFlags} {nRealHeight : Int} {tx : CTransaction}
    {targetDenominations : List CoinDenomination} {sigmaTxInfo : Option CSigmaTxInfo}
    (hinv : GroupInv node.sigmaState node.chainActive)
    (h : node.verifySpend crypto params flags nRealHeight tx targetDenominations sigmaTxInfo =
      some node') :
    ∃ chain, Touches node.chainActive chain ∧ node' = { node with chainActive := chain } := by
  obtain ⟨s, hs, rfl⟩ := Option.map_eq_some_iff.mp h
  have hkeeps : Eff.Keeps (OnChain (Reads node.sigmaState)) (checkSigmaSpendTransaction crypto
      params node.sigmaState flags nRealHeight tx targetDenominations) :=
    checkSigmaSpendTransaction_keeps (fun _ s _ => Touches.refl s.chain)
      (fun _ => walksKeep_reads)
  have hreads := hkeeps ⟨node.chainActive, sigmaTxInfo⟩
  rw [survivor_eq_some hs] at hreads
  exact ⟨s.chain, hreads hinv, rfl⟩

lemma queryCoinSet_touches {maxHeight : Int} {denomination : CoinDenomination} {coinGroupID : Int}
    (hinv : GroupInv node.sigmaState node.chainActive)
    (h : node.queryCoinSet maxHeight denomination coinGroupID = some node') :
    ∃ chain, Touches node.chainActive chain ∧ node' = { node with chainActive := chain } := by
  rw [queryCoinSet] at h
  split at h
  · cases h
  · rename_i set chain hset
    refine ⟨chain, ?_, (Option.some.inj h).symm⟩
    cases hget : node.sigmaState.coinGroups.get? (denomination, coinGroupID) with
    | none =>
      rw [CSigmaState.getCoinSetForSpend, hget] at hset
      rw [← (Prod.mk.inj (Except.ok.inj hset)).2]
      exact Touches.refl _
    | some group =>
      have hwalk := hset
      rw [CSigmaState.getCoinSetForSpend, hget] at hwalk
      have hagrees := hinv.agrees_of_walk hget hwalk
      obtain ⟨chain', hok, htouches⟩ :=
        getCoinSetForSpend_agrees hinv.ok hget hagrees
      rw [hok] at hset
      rw [← (Prod.mk.inj (Except.ok.inj hset)).2]
      exact htouches

/-! ## Connecting a block -/

/-- The loop over the serials of a block: what recording one unused serial keeps, the loop keeps. -/
lemma connectSerials_rule {P : ConnectState → Prop}
    (hstep : ∀ s serial, P s → s.sigmaState.isUsedCoinSerial serial.1 = false →
      P (s.addSerial serial)) {serials : List (Scalar × CSpendCoinInfo)} {s' : ConnectState}
    {u : Unit} (h : P s) (hok : connectSerials info false serials s = .ok u s') : P s' := by
  induction serials generalizing s with
  | nil =>
    simp only [connectSerials, pure_ok_iff] at hok
    rw [hok.2]
    exact h
  | cons serial serials ih =>
    simp only [connectSerials, bind_ok_iff, get_ok_iff, lift_ok_iff,
      when_ok_iff, modify_ok_iff, and_assoc, exists_and_left, exists_eq_left,
      exists_const] at hok
    obtain ⟨u1, hcheck, s1, hadd, hrest⟩ := hok
    have hunused := (checkSigmaSpendSerial_ok_iff.mp hcheck).2 (.inr rfl)
    rcases hadd with ⟨-, rfl⟩ | ⟨hfalse, -⟩
    · exact ih (hstep s serial h hunused) hrest
    · cases hfalse

variable (crypto params hash vtx node chain info s index node') in
/-- An accepted block: its checks touch keys of the chain and collect its mints, its serials are
    recorded, and its mints are added to the new tip. -/
structure Connects : Prop where
  touches : Touches node.chainActive chain
  newHash : ∀ b ∈ chain, b.phashBlock ≠ hash
  mints : info.mints.Perm (blockMints crypto params
    (realHeight node.chainActive.length node.chainActive) (sigmaTransactions vtx))
  mintsFresh : MintsFresh node.sigmaState info
  serials : connectSerials info false info.spentSerials.entries
    ⟨node.sigmaState, .fresh ⟨hash, chain.length⟩⟩ = .ok () s
  added : s.sigmaState.addMintsToStateAndBlockIndex s.pindexNew info.mints =
    .ok (node'.sigmaState, index)
  chain : node'.chainActive = index :: chain

lemma connectBlock_connects (hinv : GroupInv node.sigmaState node.chainActive)
    (h : node.connectBlock crypto params hash vtx = some node') :
    ∃ chain info s index, Connects crypto params hash vtx node chain info s index node' := by
  simp only [connectBlock] at h
  split_ifs at h with hany
  split at h
  · cases h
  · rename_i u checked hcheck
    split at h
    · cases h
    · rename_i u' connected hconnect
      obtain ⟨info, hinfo, hmints, hfresh⟩ := checkSigmaTransactions_mints rfl rfl hcheck
      have htouches : Touches node.chainActive checked.chain :=
        (checkSigmaTransactions_keeps (fun _ s _ => Touches.refl s.chain)
          walksKeep_reads).of_ok hcheck hinv
      rw [hinfo, Option.map_some] at hconnect
      obtain ⟨-, s, hserials, hadded⟩ := connectBlockSigma_ok hconnect
      have hlength : checked.chain.length = node.chainActive.length :=
        htouches.same.length_eq.symm
      have hperm : info.complete.mints.Perm info.mints := List.perm_insertionSort _ _
      refine ⟨checked.chain, info.complete, s, connected.pindexNew, ⟨htouches, ?_, ?_,
        (hfresh mintsFresh_empty).perm hperm, ?_, ?_, ?_⟩⟩
      · intro b hb heq
        obtain ⟨b0, hb0, hsame⟩ := htouches.same.exists_of_mem hb
        rw [congrArg BlockId.phashBlock hsame.id] at heq
        exact hany (List.any_eq_true.mpr ⟨b0, hb0, decide_eq_true heq⟩)
      · rw [hmints] at hperm
        exact hperm
      · rw [hlength]
        exact hserials
      · rw [← Option.some.inj h]
        exact hadded rfl
      · rw [← Option.some.inj h]

/-- Serials leave the groups and the mints alone. -/
structure SerialsAdded (st : CSigmaState) (id : BlockId) (s : ConnectState) : Prop where
  groups : SameGroups st s.sigmaState
  minted : s.sigmaState.containers.mintedPubCoins = st.containers.mintedPubCoins
  index : s.pindexNew.toBlockId = id
  bare : s.pindexNew.keys = []

section
variable (h : Connects crypto params hash vtx node chain info s index node')
include h

lemma Connects.serialsAdded : SerialsAdded node.sigmaState ⟨hash, chain.length⟩ s := by
  refine connectSerials_rule ?_ ⟨⟨rfl, rfl⟩, rfl, rfl, rfl⟩ h.serials
  intro s serial hs _
  exact ⟨hs.groups, hs.minted, hs.index, hs.bare⟩

/-- The new tip before its mints: the groups agree with the longer chain. -/
lemma Connects.groupInv_bare (hinv : GroupInv node.sigmaState node.chainActive) :
    GroupInv s.sigmaState (s.pindexNew :: chain) := by
  have hserials := h.serialsAdded
  refine ((hinv.touches h.touches).congr_state hserials.groups.1 hserials.groups.2).cons_bare
    hserials.bare ?_ ?_
  · rw [congrArg BlockId.nHeight hserials.index]
  · rw [congrArg BlockId.phashBlock hserials.index]
    exact h.newHash

lemma Connects.groupInv (hinv : GroupInv node.sigmaState node.chainActive) :
    GroupInv node'.sigmaState node'.chainActive := by
  rw [h.chain]
  exact addMints_rule (P := fun st index => GroupInv st (index :: chain))
    (fun _ _ _ _ _ _ hinv hnone hadded => hinv.keyAdded hnone hadded)
    h.serialsAdded.bare (h.groupInv_bare hinv) h.added

end

/-! ## Every operation -/

lemma disconnectTip_ok (h : node.disconnectTip = some node') :
    ∃ tip, node.chainActive = tip :: node'.chainActive ∧
      node.sigmaState.removeBlock tip node'.chainActive = .ok node'.sigmaState := by
  rw [disconnectTip] at h
  split at h
  · cases h
  · rename_i tip below hchain
    split at h
    · cases h
    · rename_i st hremove
      rw [← Option.some.inj h]
      exact ⟨tip, hchain, hremove⟩

/-- What a step can do: verifications and queries only touch keys of the chain. -/
inductive StepCases (crypto : Crypto) (params : Params) (node : Node) : Node.Op → Node → Prop
  | connects {newHash txs below mints added tip next}
      (connects : Connects crypto params newHash txs node below mints added tip next) :
      StepCases crypto params node (.connectBlock newHash txs) next
  | disconnects {tip next} (chain : node.chainActive = tip :: next.chainActive)
      (removed : node.sigmaState.removeBlock tip next.chainActive = .ok next.sigmaState) :
      StepCases crypto params node .disconnectTip next
  | touches {op touched} (touches : Touches node.chainActive touched) :
      StepCases crypto params node op { node with chainActive := touched }
  | restarts : StepCases crypto params node .restart { node with sigmaState := node.rebuilt }

section

variable (hinv : GroupInv node.sigmaState node.chainActive)
  (h : step crypto params op node = some node')
include hinv h

lemma step_cases : StepCases crypto params node op node' := by
  cases op with
  | connectBlock hash vtx =>
    obtain ⟨chain, info, s, index, hconnects⟩ := connectBlock_connects hinv h
    exact .connects hconnects
  | disconnectTip =>
    obtain ⟨tip, hchain, hremove⟩ := disconnectTip_ok h
    exact .disconnects hchain hremove
  | verifySpend flags nRealHeight tx targetDenominations sigmaTxInfo =>
    obtain ⟨chain, htouches, rfl⟩ := verifySpend_touches hinv h
    exact .touches htouches
  | queryCoinSet maxHeight denomination coinGroupID =>
    obtain ⟨chain, htouches, rfl⟩ := queryCoinSet_touches hinv h
    exact .touches htouches
  | restart => exact Option.some.inj h ▸ .restarts

lemma step_groupInv : GroupInv node'.sigmaState node'.chainActive := by
  cases step_cases hinv h with
  | connects hconnects => exact hconnects.groupInv hinv
  | disconnects hchain hremove =>
    rw [hchain] at hinv
    exact hinv.removeBlock hremove
  | touches htouches => exact hinv.touches htouches
  | restarts => exact GroupInv.rebuilt hinv.ok

end

lemma groupInv_of_reachable (h : Node.Reachable crypto params node) :
    GroupInv node.sigmaState node.chainActive :=
  Reaches.invariant (P := fun node : Node => GroupInv node.sigmaState node.chainActive) h
    GroupInv.reset (fun _ _ _ hinv _ hstep => step_groupInv hinv hstep)

end Tecracoin.Sigma
