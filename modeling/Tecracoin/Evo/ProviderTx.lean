/-
  `evo/providertx.cpp`, `evo/specialtx.cpp` and `CheckCbTx` of `evo/cbtx.cpp`:
  the payloads by which masternodes are registered and changed, and the check of
  a special transaction against the list of the previous block.

  `pindexPrev` is the tip of `chain`, and null for the empty chain.  A masternode
  is kept with the operator key that its lazy wrapper stands for
  (`CBLSLazyWrapper.Represents`).  Parsers, hashes and signatures are parameters.
-/
import Tecracoin.Coins.View
import Tecracoin.Evo.DeterministicMN
import Tecracoin.Llmq.CbTx

namespace Tecracoin.Evo

open Data Llmq Coins

abbrev MNState := CDeterministicMNState CBLSPublicKey

abbrev MN := CDeterministicMN CBLSPublicKey

abbrev MNList := CDeterministicMNList CBLSPublicKey

/-! ## providertx.h -/

structure CProRegTx where
  nVersion : Nat
  nType : Nat
  nMode : Nat
  /-- A null hash refers to an output of the transaction itself. -/
  collateralOutpoint : COutPoint
  addr : CService
  keyIDOwner : CKeyID
  pubKeyOperator : CBLSPublicKey
  keyIDVoting : CKeyID
  nOperatorReward : Nat
  scriptPayout : CScript
  inputsHash : Uint256
  vchSig : List UInt8
deriving DecidableEq

structure CProUpServTx where
  nVersion : Nat
  proTxHash : Uint256
  addr : CService
  scriptOperatorPayout : CScript
  inputsHash : Uint256
  sig : CBLSSignature
deriving DecidableEq

structure CProUpRegTx where
  nVersion : Nat
  proTxHash : Uint256
  nMode : Nat
  pubKeyOperator : CBLSPublicKey
  keyIDVoting : CKeyID
  scriptPayout : CScript
  inputsHash : Uint256
  vchSig : List UInt8
deriving DecidableEq

structure CProUpRevTx where
  nVersion : Nat
  proTxHash : Uint256
  nReason : Nat
  inputsHash : Uint256
  sig : CBLSSignature
deriving DecidableEq

/-- `CProRegTx::CURRENT_VERSION`, which all four kinds are compared with. -/
def CProRegTx.CURRENT_VERSION : Nat := 1

def CProUpRevTx.REASON_LAST : Nat := 3

/-- `CCbTx::CURRENT_VERSION`. -/
def cbTxCurrentVersion : Nat := 2

/-- The value of a collateral. -/
def collateralAmount : CAmount := 10000 * COIN

/-- `DIP0008Height`, the same on every network. -/
def DIP0008Height : Int := intMax

def nEvoTnodeMinimumConfirmations : ChainType → Int
  | .chainMain => 15
  | .chainTestnet => 1
  | .chainRegtest => 1

/-! ## What is taken from elsewhere -/

/-- The network, the parsers of the payloads, and the cryptography. -/
structure EvoEnv where
  chainType : ChainType
  getHash : CTransaction → Uint256
  calcTxInputsHash : CTransaction → Uint256
  getProRegTx : List UInt8 → Option CProRegTx
  getProUpServTx : List UInt8 → Option CProUpServTx
  getProUpRegTx : List UInt8 → Option CProUpRegTx
  getProUpRevTx : List UInt8 → Option CProUpRevTx
  getCbTx : List UInt8 → Option CCbTx
  getFinalCommitmentTx : List UInt8 → Option CFinalCommitmentTxPayload
  /-- The hash of a public key. -/
  hash160 : List UInt8 → CKeyID
  makeSignString : CProRegTx → String
  /-- `SerializeHash` of the payloads that are signed. -/
  hashProUpServTx : CProUpServTx → Uint256
  hashProUpRegTx : CProUpRegTx → Uint256
  hashProUpRevTx : CProUpRevTx → Uint256
  /-- `CMessageSigner::VerifyMessage`. -/
  verifyMessage : CKeyID → List UInt8 → String → Bool
  /-- `CHashSigner::VerifyHash`. -/
  verifyHash : Uint256 → CKeyID → List UInt8 → Bool
  verifyInsecure : CBLSSignature → CBLSPublicKey → Uint256 → Bool
  verifySecureAggregated : CBLSSignature → List CBLSPublicKey → Uint256 → Bool
  buildCommitmentHash : CFinalCommitment → Uint256
  hashCommitment : CFinalCommitment → Uint256
  /-- The single SHA256 of two hashes, one after the other. -/
  sha256Pair : Uint256 → Uint256 → Uint256
  /-- `SerializeHash(std::make_pair(llmqType, quorumHash))`. -/
  quorumModifier : LLMQType → Uint256 → Uint256
  /-- `GetListForBlock` for the base block of a quorum. -/
  listOfQuorumBlock : Uint256 → MNList

/-- `GetUTXOCoin`: the unspent coins at the tip. -/
abbrev UTXO := PartialMap COutPoint Coin

variable (env : EvoEnv) (chain : CChain) (utxo : UTXO) (mnList : MNList) (tx : CTransaction)

namespace EvoEnv

/-- `Params().GetConsensus()`. -/
def params : Params := .ofChain env.chainType

/-- `Params().GetConsensus().llmqs`. -/
def table : LLMQTable := .ofChain env.chainType

end EvoEnv

/-! ## The members of a quorum -/

/-- `operator<` of `COutPoint`. -/
def outPointLt (a b : COutPoint) : Bool :=
  !hashLe b.hash a.hash || (decide (a.hash = b.hash) && decide (a.n < b.n))

namespace CDeterministicMNList

def calculateScores (l : MNList) (modifier : Uint256) : List (Nat × MN) :=
  (l.validMNs.filter (fun dmn => decide (dmn.pdmnState.confirmedHash ≠ 0))).map (fun dmn =>
    ((env.sha256Pair dmn.pdmnState.confirmedHashWithProRegTxHash modifier).toNat, dmn))

/-- The comparison of `CalculateQuorum`, the higher score first. -/
def scoreGe (a b : Nat × MN) : Bool :=
  if a.1 = b.1 then !outPointLt a.2.collateralOutpoint b.2.collateralOutpoint
  else decide (b.1 < a.1)

def calculateQuorum (l : MNList) (maxSize : Nat) (modifier : Uint256) : List MN :=
  (((calculateScores env l modifier).mergeSort scoreGe).take maxSize).map Prod.snd

lemma length_calculateQuorum_le (l : MNList) (maxSize : Nat)
    (modifier : Uint256) : (calculateQuorum env l maxSize modifier).length ≤ maxSize := by
  rw [calculateQuorum, List.length_map]
  exact List.length_take_le _ _

end CDeterministicMNList

/-- `CLLMQUtils::GetAllQuorumMembers` for a type with parameters `params`. -/
def getAllQuorumMembers (params : LLMQParams) (quorumHash : Uint256) : List MN :=
  (env.listOfQuorumBlock quorumHash).calculateQuorum env params.size
    (env.quorumModifier params.type quorumHash)

/-- What the quorum code sees of the environment: of the members it needs the operator keys. -/
def EvoEnv.llmq : LlmqEnv where
  table := env.table
  DIP0003Height := env.params.DIP0003Height.toNat
  getTxPayload tx := env.getFinalCommitmentTx tx.vExtraPayload
  getAllQuorumMembers type quorumHash :=
    match env.table.llmqs.get? type with
    | none => []
    | some params =>
      (getAllQuorumMembers env params quorumHash).map (fun dmn => dmn.pdmnState.pubKeyOperator)
  buildCommitmentHash := env.buildCommitmentHash
  verifySecureAggregated := env.verifySecureAggregated
  verifyInsecure := env.verifyInsecure
  serializeHash := env.hashCommitment

/-! ## providertx.cpp -/

def checkService (addr : CService) : Except Failure Unit := do
  rejectIf (!addr.isValid) (.dos 10 REJECT_INVALID "bad-protx-addr")
  rejectIf (decide (env.chainType ≠ .chainRegtest) && !addr.isRoutable)
    (.dos 10 REJECT_INVALID "bad-protx-addr")
  rejectIf
    (if env.chainType = .chainMain then decide (addr.port ≠ mainnetDefaultPort)
      else decide (addr.port = mainnetDefaultPort))
    (.dos 10 REJECT_INVALID "bad-protx-addr-port")
  rejectIf (!addr.isIPv4) (.dos 10 REJECT_INVALID "bad-protx-addr")

def checkInputsHash (inputsHash : Uint256) : Except Failure Unit :=
  rejectIf (decide (env.calcTxInputsHash tx ≠ inputsHash))
    (.dos 100 REJECT_INVALID "bad-protx-inputs-hash")

/-- `CheckHashSig` and `CheckStringSig`, once the signature has been verified. -/
def checkSig (verified : Bool) : Except Failure Unit :=
  rejectIf (!verified) (.dos 100 REJECT_INVALID "bad-protx-sig")

/-- `GetTxPayload(tx, ptx)` at the beginning of a check. -/
def payloadOrReject {α : Type} (payload : Option α) : Except Failure α :=
  match payload with
  | none => .error (.dos 100 REJECT_INVALID "bad-protx-payload")
  | some ptx => .ok ptx

/-- The version check the four kinds share. -/
def checkVersion (nVersion : Nat) : Except Failure Unit :=
  rejectIf (decide (nVersion = 0) || decide (nVersion > CProRegTx.CURRENT_VERSION))
    (.dos 100 REJECT_INVALID "bad-protx-version")

/-- `ExtractDestination(scriptPayout, payoutDest)` of a script that has to be of one of two kinds.
    -/
def payoutDest (scriptPayout : CScript) : Except Failure CTxDestination :=
  if !scriptPayout.isPayToPublicKeyHash && !scriptPayout.isPayToScriptHash then
    .error (.dos 10 REJECT_INVALID "bad-protx-payee")
  else
    match extractDestination env.hash160 scriptPayout with
    | none => .error (.dos 10 REJECT_INVALID "bad-protx-payee-dest")
    | some dest => .ok dest

/-- `HasUniqueProperty(v) && test(GetUniquePropertyMN(v))`. -/
def CDeterministicMNList.usedBy {T : Type} [UniqueValue T] (l : MNList) (v : T)
    (test : MN → Bool) : Except Failure Bool :=
  if l.hasUniqueProperty v then
    match l.getUniquePropertyMN v with
    | none => .error .nullDereference
    | some dmn => .ok (test dmn)
  else .ok false

/-- The collateral of a registration, an output of its own or another one. -/
def proRegOutpoint (proTx : CProRegTx) : COutPoint :=
  if proTx.collateralOutpoint.hash = 0 then ⟨env.getHash tx, proTx.collateralOutpoint.n⟩
  else proTx.collateralOutpoint

/-- The collateral of a `CProRegTx`: its destination, the key that has to sign (null for a
    collateral of the transaction itself), and its outpoint. -/
def proRegCollateral (ptx : CProRegTx) : Except Failure (CTxDestination × CKeyID × COutPoint) :=
  if ptx.collateralOutpoint.hash ≠ 0 then
    match utxo ptx.collateralOutpoint with
    | none => .error (.dos 10 REJECT_INVALID "bad-protx-collateral")
    | some coin =>
      if coin.out.nValue ≠ collateralAmount then
        .error (.dos 10 REJECT_INVALID "bad-protx-collateral")
      else
        match extractDestination env.hash160 coin.out.scriptPubKey with
        | none => .error (.dos 10 REJECT_INVALID "bad-protx-collateral-dest")
        | some dest =>
          match dest.getKeyID with
          | none => .error (.dos 10 REJECT_INVALID "bad-protx-collateral-pkh")
          | some keyForPayloadSig => .ok (dest, keyForPayloadSig, ptx.collateralOutpoint)
  else
    match tx.vout[ptx.collateralOutpoint.n.toNat]? with
    | none => .error (.dos 10 REJECT_INVALID "bad-protx-collateral-index")
    | some out =>
      if out.nValue ≠ collateralAmount then
        .error (.dos 10 REJECT_INVALID "bad-protx-collateral")
      else
        match extractDestination env.hash160 out.scriptPubKey with
        | none => .error (.dos 10 REJECT_INVALID "bad-protx-collateral-dest")
        | some dest => .ok (dest, 0, ⟨env.getHash tx, ptx.collateralOutpoint.n⟩)

/-- `deterministicMNManager->IsDIP3Enforced(pindexPrev->nHeight)`. -/
def isDIP3Enforced : Bool :=
  decide (env.params.DIP0003EnforcementHeight ≤ (chain.length : Int) - 1)

/-- The part of `CheckProRegTx` that needs the previous block. -/
def checkProRegTxPrev (ptx : CProRegTx) (collateralOutpoint : COutPoint) : Except Failure Unit := do
  -- an address may be used again for the same collateral, which replaces the old masternode
  let dupAddr ← mnList.usedBy ptx.addr
    (fun dmn => decide (dmn.collateralOutpoint ≠ collateralOutpoint))
  rejectIf dupAddr (.dos 10 REJECT_DUPLICATE "bad-protx-dup-addr")
  rejectIf (mnList.hasUniqueProperty ptx.keyIDOwner || mnList.hasUniqueProperty ptx.pubKeyOperator)
    (.dos 10 REJECT_DUPLICATE "bad-protx-dup-key")
  rejectIf (!isDIP3Enforced env chain && decide (ptx.keyIDOwner ≠ ptx.keyIDVoting))
    (.dos 10 REJECT_INVALID "bad-protx-key-not-same")

/-- `if (pindexPrev) …`. -/
def withPrev (check : Except Failure Unit) : Except Failure Unit :=
  if chain = [] then .ok () else check

/-- The signature of a `CProRegTx`: without a key to check, it has to be empty. -/
def checkPayloadSig (ptx : CProRegTx) (keyForPayloadSig : CKeyID) : Except Failure Unit :=
  if keyForPayloadSig ≠ 0 then
    checkSig (env.verifyMessage keyForPayloadSig ptx.vchSig (env.makeSignString ptx))
  else rejectIf (!ptx.vchSig.isEmpty) (.dos 100 REJECT_INVALID "bad-protx-sig")

/-- `if (ptx.addr != CService()) CheckService(…)`. -/
def checkServiceIfSet (addr : CService) : Except Failure Unit :=
  if addr = .null then .ok () else checkService env addr

def checkProRegTx : Except Failure Unit := do
  rejectIf (decide (tx.nType ≠ .TRANSACTION_PROVIDER_REGISTER))
    (.dos 100 REJECT_INVALID "bad-protx-type")
  let ptx ← payloadOrReject (env.getProRegTx tx.vExtraPayload)
  checkVersion ptx.nVersion
  rejectIf (decide (ptx.nType ≠ 0)) (.dos 100 REJECT_INVALID "bad-protx-type")
  rejectIf (decide (ptx.nMode ≠ 0)) (.dos 100 REJECT_INVALID "bad-protx-mode")
  rejectIf (decide (ptx.keyIDOwner = 0) || !ptx.pubKeyOperator.isValid ||
    decide (ptx.keyIDVoting = 0)) (.dos 10 REJECT_INVALID "bad-protx-key-null")
  let payout ← payoutDest env ptx.scriptPayout
  rejectIf (decide (payout = .keyID ptx.keyIDOwner) || decide (payout = .keyID ptx.keyIDVoting))
    (.dos 10 REJECT_INVALID "bad-protx-payee-reuse")
  checkServiceIfSet env ptx.addr
  rejectIf (decide (ptx.nOperatorReward > 10000))
    (.dos 10 REJECT_INVALID "bad-protx-operator-reward")
  let collateral ← proRegCollateral env utxo tx ptx
  rejectIf (decide (collateral.1 = .keyID ptx.keyIDOwner) ||
    decide (collateral.1 = .keyID ptx.keyIDVoting))
    (.dos 10 REJECT_INVALID "bad-protx-collateral-reuse")
  withPrev chain (checkProRegTxPrev env chain mnList ptx collateral.2.2)
  checkInputsHash env tx ptx.inputsHash
  checkPayloadSig env ptx collateral.2.1

/-- `mnList.GetMN(ptx.proTxHash)` at the beginning of the checks of an update. -/
def mnOrReject (proTxHash : Uint256) : Except Failure MN :=
  match mnList.getMN proTxHash with
  | none => .error (.dos 100 REJECT_INVALID "bad-protx-hash")
  | some dmn => .ok dmn

/-- The part of `CheckProUpServTx` that needs the previous block. -/
def checkProUpServTxPrev (ptx : CProUpServTx) : Except Failure Unit := do
  let mn ← mnOrReject mnList ptx.proTxHash
  let dupAddr ← mnList.usedBy ptx.addr (fun dmn => decide (dmn.proTxHash ≠ ptx.proTxHash))
  rejectIf dupAddr (.dos 10 REJECT_DUPLICATE "bad-protx-dup-addr")
  rejectIf (decide (ptx.scriptOperatorPayout ≠ []) && decide (mn.nOperatorReward = 0))
    (.dos 10 REJECT_INVALID "bad-protx-operator-payee")
  rejectIf (decide (ptx.scriptOperatorPayout ≠ []) &&
    (!ptx.scriptOperatorPayout.isPayToPublicKeyHash && !ptx.scriptOperatorPayout.isPayToScriptHash))
    (.dos 10 REJECT_INVALID "bad-protx-operator-payee")
  checkInputsHash env tx ptx.inputsHash
  checkSig (env.verifyInsecure ptx.sig mn.pdmnState.pubKeyOperator (env.hashProUpServTx ptx))

def checkProUpServTx : Except Failure Unit := do
  rejectIf (decide (tx.nType ≠ .TRANSACTION_PROVIDER_UPDATE_SERVICE))
    (.dos 100 REJECT_INVALID "bad-protx-type")
  let ptx ← payloadOrReject (env.getProUpServTx tx.vExtraPayload)
  checkVersion ptx.nVersion
  checkService env ptx.addr
  withPrev chain (checkProUpServTxPrev env mnList tx ptx)

/-- The collateral of a known masternode, for `CheckProUpRegTx`. -/
def collateralDest (dmn : MN) : Except Failure CTxDestination :=
  match utxo dmn.collateralOutpoint with
  | none => .error (.dos 100 REJECT_INVALID "bad-protx-collateral")
  | some coin =>
    match extractDestination env.hash160 coin.out.scriptPubKey with
    | none => .error (.dos 100 REJECT_INVALID "bad-protx-collateral-dest")
    | some dest => .ok dest

/-- The part of `CheckProUpRegTx` that needs the previous block. -/
def checkProUpRegTxPrev (ptx : CProUpRegTx) (payout : CTxDestination) : Except Failure Unit := do
  let dmn ← mnOrReject mnList ptx.proTxHash
  rejectIf (decide (payout = .keyID dmn.pdmnState.keyIDOwner) ||
    decide (payout = .keyID ptx.keyIDVoting)) (.dos 10 REJECT_INVALID "bad-protx-payee-reuse")
  let dest ← collateralDest env utxo dmn
  rejectIf (decide (dest = .keyID dmn.pdmnState.keyIDOwner) ||
    decide (dest = .keyID ptx.keyIDVoting)) (.dos 10 REJECT_INVALID "bad-protx-collateral-reuse")
  let dupKey ← mnList.usedBy ptx.pubKeyOperator
    (fun otherDmn => decide (ptx.proTxHash ≠ otherDmn.proTxHash))
  rejectIf dupKey (.dos 10 REJECT_DUPLICATE "bad-protx-dup-key")
  rejectIf (!isDIP3Enforced env chain && decide (dmn.pdmnState.keyIDOwner ≠ ptx.keyIDVoting))
    (.dos 10 REJECT_INVALID "bad-protx-key-not-same")
  checkInputsHash env tx ptx.inputsHash
  checkSig (env.verifyHash (env.hashProUpRegTx ptx) dmn.pdmnState.keyIDOwner ptx.vchSig)

def checkProUpRegTx : Except Failure Unit := do
  rejectIf (decide (tx.nType ≠ .TRANSACTION_PROVIDER_UPDATE_REGISTRAR))
    (.dos 100 REJECT_INVALID "bad-protx-type")
  let ptx ← payloadOrReject (env.getProUpRegTx tx.vExtraPayload)
  checkVersion ptx.nVersion
  rejectIf (decide (ptx.nMode ≠ 0)) (.dos 100 REJECT_INVALID "bad-protx-mode")
  rejectIf (!ptx.pubKeyOperator.isValid || decide (ptx.keyIDVoting = 0))
    (.dos 10 REJECT_INVALID "bad-protx-key-null")
  let payout ← payoutDest env ptx.scriptPayout
  withPrev chain (checkProUpRegTxPrev env chain utxo mnList tx ptx payout)

/-- The part of `CheckProUpRevTx` that needs the previous block. -/
def checkProUpRevTxPrev (ptx : CProUpRevTx) : Except Failure Unit := do
  let dmn ← mnOrReject mnList ptx.proTxHash
  checkInputsHash env tx ptx.inputsHash
  checkSig (env.verifyInsecure ptx.sig dmn.pdmnState.pubKeyOperator (env.hashProUpRevTx ptx))

def checkProUpRevTx : Except Failure Unit := do
  rejectIf (decide (tx.nType ≠ .TRANSACTION_PROVIDER_UPDATE_REVOKE))
    (.dos 100 REJECT_INVALID "bad-protx-type")
  let ptx ← payloadOrReject (env.getProUpRevTx tx.vExtraPayload)
  checkVersion ptx.nVersion
  rejectIf (decide (ptx.nReason > CProUpRevTx.REASON_LAST))
    (.dos 100 REJECT_INVALID "bad-protx-reason")
  withPrev chain (checkProUpRevTxPrev env mnList tx ptx)

/-! ## cbtx.cpp, specialtx.cpp -/

def checkCbTx : Except Failure Unit := do
  rejectIf (decide (tx.nType ≠ .TRANSACTION_COINBASE)) (.dos 100 REJECT_INVALID "bad-cbtx-type")
  rejectIf (!tx.isCoinBase) (.dos 100 REJECT_INVALID "bad-cbtx-invalid")
  match env.getCbTx tx.vExtraPayload with
  | none => .error (.dos 100 REJECT_INVALID "bad-cbtx-payload")
  | some cbTx => do
      rejectIf (decide (cbTx.nVersion = 0) || decide (cbTx.nVersion > cbTxCurrentVersion))
        (.dos 100 REJECT_INVALID "bad-cbtx-version")
      withPrev chain (rejectIf (decide (chain.length ≠ cbTx.nHeight))
        (.dos 100 REJECT_INVALID "bad-cbtx-height"))
      withPrev chain (rejectIf
        (decide (DIP0008Height ≤ (chain.length : Int) - 1) && decide (cbTx.nVersion < 2))
        (.dos 100 REJECT_INVALID "bad-cbtx-version"))

def checkPayload : TxType → Except Failure Unit
  | .TRANSACTION_PROVIDER_REGISTER => checkProRegTx env chain utxo mnList tx
  | .TRANSACTION_PROVIDER_UPDATE_SERVICE => checkProUpServTx env chain mnList tx
  | .TRANSACTION_PROVIDER_UPDATE_REGISTRAR => checkProUpRegTx env chain utxo mnList tx
  | .TRANSACTION_PROVIDER_UPDATE_REVOKE => checkProUpRevTx env chain mnList tx
  | .TRANSACTION_COINBASE => checkCbTx env chain tx
  | .TRANSACTION_QUORUM_COMMITMENT => checkLLMQCommitment env.llmq chain tx
  | _ => .error (.dos 10 REJECT_INVALID "bad-tx-type-check")

/-- `CheckSpecialTx` for a block on top of `chain`, whose tip has the coins `utxo` and the list
    `mnList`. -/
def checkSpecialTx : Except Failure Unit :=
  if tx.nVersion ≠ 3 ∨ tx.nType = .TRANSACTION_NORMAL then .ok ()
  else if chain ≠ [] ∧ (chain.length : Int) < env.params.DIP0003Height then
    .error (.dos 10 REJECT_INVALID "bad-tx-type")
  else checkPayload env chain utxo mnList tx tx.nType

end Tecracoin.Evo
