/-
  What a `ConnectBlockSigma` that returns `false` leaves behind.

  The maps of the block index are cleared before the first check, and the loop
  over the serials adds each serial to the state before it looks at the next
  one.  So a failed connect is without a trace only if the index held nothing
  and nothing was added before the check that failed.
-/
import Tecracoin.Sigma.DoubleSpend

namespace Tecracoin.Sigma

open Data Sample CSigmaState Eff

variable {e : Failure} {info : CSigmaTxInfo} {index : BlockId} {st : CSigmaState} {s : ConnectState}
  {nMints : Nat}

variable {crypto : Crypto} {params : Params}

/-! ## Where `false` can come from -/

lemma extendGroup_error {coinGroup : SigmaCoinGroupInfo}
    (h : extendGroup coinGroup index nMints = .error e) :
    ∃ expression, e = .asserts expression := by
  revert h
  fun_cases extendGroup <;> rintro ⟨⟩ <;> exact ⟨_, rfl⟩

/-- Adding mints can only stop at an assertion. -/
lemma assignGroup_error {d : CoinDenomination} (h : st.assignGroup index d nMints = .error e) :
    ∃ expression, e = .asserts expression := by
  revert h
  fun_cases assignGroup with
  | case1 _ _ _ _ hextend =>
    rintro ⟨⟩
    exact extendGroup_error hextend
  | case2 | case3 => exact nofun

lemma addDenomMints_error {mints : List (CoinDenomination × List PublicCoin)}
    {s : CSigmaState × CBlockIndex}
    (h : addDenomMints mints s = .error e) : ∃ expression, e = .asserts expression := by
  induction mints generalizing s with
  | nil => cases h
  | cons entry rest ih =>
    unfold addDenomMints at h
    split at h
    · rename_i hassign
      obtain ⟨expression, he⟩ := assignGroup_error hassign
      exact ⟨expression, (Except.error.inj h).symm.trans he⟩
    · exact ih h

/-! ## The serial loop -/

/-- Used serials stay used. -/
def StillUsed (s s' : ConnectState) : Prop :=
  ∀ x, s.sigmaState.isUsedCoinSerial x = true → s'.sigmaState.isUsedCoinSerial x = true

instance : IsPreorder ConnectState StillUsed where
  refl _ _ h := h
  trans _ _ _ h1 h2 x h := h2 x (h1 x h)

lemma connectSerials_keeps_used (info : CSigmaTxInfo) (fJustCheck : Bool)
    (serials : List (Scalar × CSpendCoinInfo)) :
    Eff.Keeps StillUsed (connectSerials info fJustCheck serials) := by
  induction serials with
  | nil => exact keeps_pure
  | cons serial serials ih =>
    refine keeps_bind keeps_get (fun _ => ?_)
    refine keeps_bind keeps_lift (fun _ => ?_)
    refine keeps_bind (keeps_when _ (keeps_modify ?_)) (fun _ => ih)
    intro s x hx
    exact isUsedCoinSerial_addSpend.mpr (.inr hx)

/-- The first serial of the block, in iteration order, was used before. -/
def firstSerialUsed (st : CSigmaState) (info : CSigmaTxInfo) : Bool :=
  match info.spentSerials.entries with
  | [] => false
  | serial :: _ => st.isUsedCoinSerial serial.1

section
variable (hcomplete : info.fInfoIsComplete = true)
include hcomplete

lemma checkSigmaSpendSerial_complete {serial : Scalar} {nHeight : Int} :
    checkSigmaSpendSerial st (some info) serial nHeight true =
      if st.isUsedCoinSerial serial then .error (.dosError 0) else .ok () := by
  cases hu : st.isUsedCoinSerial serial <;> simp [checkSigmaSpendSerial, hcomplete, hu]

/-- The loop on a completed info: a used first serial stops it where it stands, and otherwise the
    first serial is used from then on. -/
lemma connectSerials_cons (serial : Scalar × CSpendCoinInfo)
    (rest : List (Scalar × CSpendCoinInfo)) (s : ConnectState) :
    connectSerials info false (serial :: rest) s =
      if s.sigmaState.isUsedCoinSerial serial.1 then .error (.dosError 0) s
      else connectSerials info false rest (s.addSerial serial) := by
  conv_lhs => rw [connectSerials]
  rw [get_bind_apply, checkSigmaSpendSerial_complete hcomplete]
  cases s.sigmaState.isUsedCoinSerial serial.1 with
  | true => rfl
  | false => rfl

/-- A failed loop either stopped at the first serial, with nothing changed, or has made a serial
    used that was not. -/
lemma connectSerials_error {s' : ConnectState}
    (h : connectSerials info false info.spentSerials.entries s = .error e s') :
    (firstSerialUsed s.sigmaState info = true ∧ s' = s) ∨
      (firstSerialUsed s.sigmaState info = false ∧
        ∃ x, s.sigmaState.isUsedCoinSerial x = false ∧
          s'.sigmaState.isUsedCoinSerial x = true) := by
  unfold firstSerialUsed
  cases hentries : info.spentSerials.entries with
  | nil =>
    rw [hentries] at h
    cases h
  | cons serial rest =>
    rw [hentries, connectSerials_cons hcomplete] at h
    cases hused : s.sigmaState.isUsedCoinSerial serial.1 with
    | true =>
      rw [hused, if_pos rfl, EStateM.Result.error.injEq] at h
      exact .inl ⟨hused, h.2.symm⟩
    | false =>
      rw [hused, if_neg Bool.false_ne_true] at h
      have hkeeps := connectSerials_keeps_used info false rest (s.addSerial serial)
      rw [h] at hkeeps
      have hadded : s'.sigmaState.isUsedCoinSerial serial.1 = true :=
        hkeeps _ (isUsedCoinSerial_addSpend.mpr (.inl rfl))
      exact .inr ⟨hused, serial.1, hused, hadded⟩

end

/-! ## ConnectBlockSigma -/

lemma clearIndex_eq_self_iff :
    s.clearIndex = s ↔ s.pindexNew.sigmaMintedPubCoins.entries = [] ∧
      s.pindexNew.sigmaSpentSerials.entries = [] := by
  obtain ⟨st, id, minted, spent⟩ := s
  constructor
  · intro h
    have hindex := congrArg ConnectState.pindexNew h
    simp only [ConnectState.clearIndex, CBlockIndex.fresh, CBlockIndex.mk.injEq] at hindex
    exact ⟨by rw [← hindex.2.1]; rfl, by rw [← hindex.2.2]; rfl⟩
  · rintro ⟨hm, hs⟩
    have hminted : minted = .empty := StdMap.ext hm
    have hspent : spent = .empty := StdMap.ext hs
    rw [hminted, hspent]
    rfl

/-- `ConnectBlockSigma` with a completed info, stage by stage. -/
lemma connectBlockSigma_eq {vtx : List CTransaction} :
    connectBlockSigma crypto params (some ⟨vtx, some info⟩) false s =
      if checkSigmaBlock crypto params vtx then
        match connectSerials info false info.spentSerials.entries s.clearIndex with
        | .error e s' => .error e s'
        | .ok _ s' =>
          match s'.sigmaState.addMintsToStateAndBlockIndex s'.pindexNew info.mints with
          | .error e => .error e s'
          | .ok added => .ok () ⟨added.1, added.2⟩
      else .error (.dos 100 REJECT_INVALID "bad-txns-spend-invalid") s.clearIndex := by
  simp only [connectBlockSigma, Option.bind_some, Option.map_some]
  cases hb : checkSigmaBlock crypto params vtx with
  | false => rfl
  | true =>
    simp only [when, failIf, Bool.not_false, Bool.not_true, if_true, Bool.false_eq_true,
      if_false, bind, EStateM.bind, modify_apply, pure, EStateM.pure]
    cases connectSerials info false info.spentSerials.entries s.clearIndex with
    | error e s' => rfl
    | ok u s' =>
      simp only [get_apply]
      cases s'.sigmaState.addMintsToStateAndBlockIndex s'.pindexNew info.mints with
      | error e => rfl
      | ok added => rfl

/-- A `ConnectBlockSigma` that returns `false` leaves the state and the index entry as they were
    exactly when the index held no coins and no serials, and the block was refused by
    `CheckSigmaBlock` or by its very first serial. -/
theorem failed_connect_unchanged_iff {vtx : List CTransaction} {info : CSigmaTxInfo}
    {s s' : ConnectState} {state : CValidationState} (hcomplete : info.fInfoIsComplete = true)
    (h : connectBlockSigma crypto params (some ⟨vtx, some info⟩) false s =
      .error (.returnsFalse state) s') :
    s' = s ↔
      (s.pindexNew.sigmaMintedPubCoins.entries = [] ∧ s.pindexNew.sigmaSpentSerials.entries = []) ∧
      (checkSigmaBlock crypto params vtx = false ∨ firstSerialUsed s.sigmaState info = true) := by
  rw [connectBlockSigma_eq] at h
  rw [← clearIndex_eq_self_iff]
  cases hb : checkSigmaBlock crypto params vtx with
  | false =>
    rw [hb, if_neg Bool.false_ne_true, EStateM.Result.error.injEq] at h
    rw [← h.2]
    simp
  | true =>
    rw [hb, if_pos rfl] at h
    split at h
    · rename_i e1 s1 hserials
      obtain ⟨-, rfl⟩ := EStateM.Result.error.inj h
      rcases connectSerials_error hcomplete hserials with ⟨hused, rfl⟩ | ⟨hused, x, hx, hx'⟩
      · exact ⟨fun heq => ⟨heq, .inr hused⟩, fun hcond => hcond.1⟩
      · constructor
        · intro heq
          rw [heq] at hx'
          exact absurd (hx.symm.trans hx') Bool.false_ne_true
        · rintro ⟨-, hcond | hcond⟩
          · cases hcond
          · exact absurd (hused.symm.trans hcond) Bool.false_ne_true
    · rename_i s1 hserials
      split at h
      · rename_i e hmints
        obtain ⟨expression, he⟩ := addDenomMints_error hmints
        rw [he] at h
        simp at h
      · cases h

namespace Sample

/-- The state after block 1 of `minted`, with serial 6 spent since. -/
def spentSix : ConnectState :=
  ⟨minted.sigmaState.addSpend 6 ⟨.SIGMA_DENOM_1, 1⟩, .fresh ⟨3, 3⟩⟩

/-- A completed info with the given serials and no mints. -/
def spendsOf (serials : List (Scalar × CSpendCoinInfo))
    (hnodup : (serials.map Prod.fst).Nodup) : CSigmaTxInfo :=
  ⟨[], [], ⟨serials, hnodup⟩, true⟩

end Sample

/-- The condition is met: a block whose only serial is used leaves no trace. -/
theorem failed_connect_unchanged_only_serial :
    ∃ state s', connectBlockSigma toyCrypto .testnet
        (some ⟨[], some (spendsOf [(6, ⟨.SIGMA_DENOM_1, 1⟩)] (by decide))⟩) false
        spentSix = .error (.returnsFalse state) s' ∧ s' = spentSix := by
  have hfails : connectBlockSigma toyCrypto .testnet
      (some ⟨[], some (spendsOf [(6, ⟨.SIGMA_DENOM_1, 1⟩)] (by decide))⟩) false
      spentSix = .error (.returnsFalse (CValidationState.valid.DoSError 0))
        spentSix.clearIndex := by rfl
  refine ⟨_, _, hfails, (failed_connect_unchanged_iff rfl hfails).mpr ?_⟩
  exact ⟨⟨rfl, rfl⟩, .inr (by decide +kernel)⟩

/-- A block with the serials 5 and 6, of which only 6 is used, is refused, and 5 is used from then
    on. -/
theorem failed_connect_leaks_serial :
    ∃ state s', connectBlockSigma toyCrypto .testnet
        (some ⟨[], some (spendsOf
          [(5, ⟨.SIGMA_DENOM_1, 1⟩), (6, ⟨.SIGMA_DENOM_1, 1⟩)] (by decide))⟩) false
        spentSix = .error (.returnsFalse state) s' ∧
      spentSix.sigmaState.isUsedCoinSerial 5 = false ∧
      s'.sigmaState.isUsedCoinSerial 5 = true := by
  refine ⟨CValidationState.valid.DoSError 0,
    spentSix.clearIndex.addSerial (5, ⟨.SIGMA_DENOM_1, 1⟩), by rfl, ?_, ?_⟩
  · decide +kernel
  · decide +kernel

end Tecracoin.Sigma
