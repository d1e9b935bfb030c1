/-
  The sigma side of a running node: the global `sigmaState`, the active chain,
  and the operations that change them.  Blocks are connected as `ConnectBlock`
  does it (check every sigma transaction with one fresh info, `Complete`,
  `ConnectBlockSigma`), the tip is disconnected by `RemoveBlock`, spends are
  verified and coin sets queried with any arguments, and a restart rebuilds the
  state from the block indexes.
-/
import Tecracoin.Data.Run
import Tecracoin.Sigma.Check

namespace Tecracoin.Sigma

open Data

structure Node where
  sigmaState : CSigmaState
  /-- The active chain, tip first. -/
  chainActive : List CBlockIndex

namespace Node

/-- Nothing connected yet. -/
def initial : Node := ⟨.reset, []⟩

/-- The transactions `ConnectBlock` hands to `CheckSigmaTransaction`, through `CheckTransaction`. -/
def sigmaTransactions (vtx : List CTransaction) : List CTransaction :=
  vtx.filter (fun tx => tx.isZerocoinV3SigmaTransaction && !tx.isCoinBase)

/-- The process goes on after a check that returned, `true` or `false`, or that threw; it does not
    after a failed assertion or a null dereference. -/
def survivor {σ : Type} : EStateM.Result Failure σ Unit → Option σ
  | .ok _ s => some s
  | .error (.returnsFalse _) s => some s
  | .error (.throws _) s => some s
  | .error (.asserts _) _ => none
  | .error .nullDereference _ => none

section Operations

variable (crypto : Crypto) (params : Params)

/-- Connect a block with hash `hash` on top of the tip; `none` if it is refused or the process
    stops. -/
def connectBlock (hash : Uint256) (vtx : List CTransaction) (node : Node) : Option Node :=
  if node.chainActive.any (fun index => decide (index.phashBlock = hash)) then none
  else
    let nHeight : Int := node.chainActive.length
    match checkSigmaTransactions crypto params node.sigmaState nHeight (sigmaTransactions vtx)
        ⟨node.chainActive, some .empty⟩ with
    | .error _ _ => none
    | .ok _ checked =>
      match connectBlockSigma crypto params
          (some ⟨vtx, checked.sigmaTxInfo.map CSigmaTxInfo.complete⟩) false
          ⟨node.sigmaState, .fresh ⟨hash, nHeight⟩⟩ with
      | .error _ _ => none
      | .ok _ connected => some ⟨connected.sigmaState, connected.pindexNew :: checked.chain⟩

/-- `DisconnectTipSigma` on the tip. -/
def disconnectTip (node : Node) : Option Node :=
  match node.chainActive with
  | [] => none
  | tip :: below =>
    match node.sigmaState.removeBlock tip below with
    | .error _ => none
    | .ok st => some ⟨st, below⟩

/-- `CheckSigmaSpendTransaction` with any arguments. -/
def verifySpend (flags : CheckFlags) (nRealHeight : Int) (tx : CTransaction)
    (targetDenominations : List CoinDenomination) (sigmaTxInfo : Option CSigmaTxInfo)
    (node : Node) : Option Node :=
  (survivor (checkSigmaSpendTransaction crypto params node.sigmaState flags nRealHeight tx
    targetDenominations ⟨node.chainActive, sigmaTxInfo⟩)).map
    (fun s => { node with chainActive := s.chain })

/-- `GetCoinSetForSpend` with any arguments. -/
def queryCoinSet (maxHeight : Int) (denomination : CoinDenomination) (coinGroupID : Int)
    (node : Node) : Option Node :=
  match node.sigmaState.getCoinSetForSpend node.chainActive maxHeight denomination coinGroupID with
  | .error _ => none
  | .ok (_, chain) => some { node with chainActive := chain }

/-- The state a restart builds: `Reset`, then `AddBlock` for the block indexes of the active chain
    as they stand. -/
def rebuilt (node : Node) : CSigmaState :=
  CSigmaState.reset.buildSigmaStateFromIndex node.chainActive

inductive Op
  | connectBlock (hash : Uint256) (vtx : List CTransaction)
  | disconnectTip
  | verifySpend (flags : CheckFlags) (nRealHeight : Int) (tx : CTransaction)
      (targetDenominations : List CoinDenomination) (sigmaTxInfo : Option CSigmaTxInfo)
  | queryCoinSet (maxHeight : Int) (denomination : CoinDenomination) (coinGroupID : Int)
  | restart

def step : Op → Node → Option Node
  | .connectBlock hash vtx, node => node.connectBlock crypto params hash vtx
  | .disconnectTip, node => node.disconnectTip
  | .verifySpend flags nRealHeight tx targetDenominations sigmaTxInfo, node =>
    node.verifySpend crypto params flags nRealHeight tx targetDenominations sigmaTxInfo
  | .queryCoinSet maxHeight denomination coinGroupID, node =>
    node.queryCoinSet maxHeight denomination coinGroupID
  | .restart, node => some { node with sigmaState := node.rebuilt }

/-- States a node gets to from nothing, by any operations. -/
def Reachable (node : Node) : Prop :=
  Reaches (step crypto params) (fun _ _ => True) initial node

end Operations

end Node

/-! ## A small instance

Scripts and hashes cut down to what a short concrete history needs: a spend
script is the opcode, the block hash it refers to and the serial, one byte each;
a coin is the first byte behind the mint opcode; a transaction is named by its
lock time.  Every proof verifies. -/

namespace Sample

def toyCrypto : Crypto where
  readCoinSpend
    | [hash, serial] =>
      some ⟨ZEROCOIN_TX_VERSION_3_1, .SIGMA_DENOM_1, hash.toNat, serial.toNat, []⟩
    | _ => none
  verify _ _ _ _ := true
  deserialize bytes := (bytes.headD 0).toNat
  validate _ := true
  getHash tx := tx.nLockTime.toNat
  remintAmount _ := 0

/-- An output that mints the coin with value `coin`, for one whole coin. -/
def mintOutput (coin : UInt8) : CTxOut := ⟨COIN, OP_SIGMAMINT :: coin :: List.replicate 33 0⟩

/-- An input that spends `serial` from group 1 against block `hash`. -/
def spendInput (hash serial : UInt8) : CTxIn := ⟨⟨0, 1⟩, [OP_SIGMASPEND, hash, serial], 0⟩

/-- A transaction with the given id, inputs and outputs. -/
def tx (id : UInt32) (vin : List CTxIn) (vout : List CTxOut) : CTransaction :=
  ⟨1, .TRANSACTION_NORMAL, vin, vout, id, []⟩

/-- A transaction that spends an ordinary output and mints `coin`. -/
def mintTx (id : UInt32) (coin : UInt8) : CTransaction := tx id [⟨⟨1, 0⟩, [], 0⟩] [mintOutput coin]

open CoinDenomination in
/-- Testnet allows sigma from block 1: block 0 is empty, block 1 mints coin 7. -/
def minted : Node where
  sigmaState :=
    { coinGroups := ⟨[((SIGMA_DENOM_1, 1), ⟨some ⟨1, 1⟩, some ⟨1, 1⟩, 1⟩)], by decide⟩
      latestCoinIds := ⟨[(SIGMA_DENOM_1, 1)], by decide⟩
      mempoolCoinSerials := .empty
      mempoolMints := .empty
      containers :=
        { mintedPubCoins := ⟨[(7, ⟨SIGMA_DENOM_1, 1, 1⟩)], by decide⟩
          usedCoinSerials := .empty
          mintMetaInfo := ⟨[((1, SIGMA_DENOM_1), 1)], by decide⟩
          spendMetaInfo := ⟨[((1, SIGMA_DENOM_1), 0)], by decide⟩
          surgeCondition := false } }
  chainActive :=
    [⟨⟨1, 1⟩, ⟨[((SIGMA_DENOM_1, 1), [⟨7, SIGMA_DENOM_1⟩])], by decide⟩, .empty⟩,
      ⟨⟨0, 0⟩, .empty, .empty⟩]

def mintedOps : List Node.Op := [.connectBlock 0 [], .connectBlock 1 [mintTx 1 7]]

lemma runSteps_mintedOps :
    runSteps (Node.step toyCrypto .testnet) mintedOps .initial = some minted := by rfl

lemma minted_reachable : Node.Reachable toyCrypto .testnet minted :=
  reaches_of_runSteps mintedOps .start runSteps_mintedOps (fun _ _ _ => trivial)

end Sample

end Tecracoin.Sigma
