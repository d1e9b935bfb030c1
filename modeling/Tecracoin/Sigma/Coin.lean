/-
  `sigma/coin.h`, `sigma/coinspend.h`, `coin_containers.h` and the script
  parsers of `sigma.cpp`.

  Cryptography is a parameter: `Crypto` collects the functions the validation
  code calls without looking inside (proof verification, validity of a group
  element, the byte decoders, the transaction hash).  Nothing is assumed about
  them, so every result holds for every choice.
-/
import Tecracoin.Consensus.Params

namespace Tecracoin.Sigma

abbrev Scalar := BitVec 256

/-- `secp_primitives::GroupElement`, as its 34 serialised bytes read as one big-endian number, so
    that byte-string order is numeric order. -/
abbrev GroupElement := BitVec 272

/-- `GroupElement::memoryRequired()`. -/
def groupElementSize : Nat := 34

/-! ## sigma/coin.h -/

inductive CoinDenomination
  | SIGMA_DENOM_0_05
  | SIGMA_DENOM_0_1
  | SIGMA_DENOM_0_5
  | SIGMA_DENOM_1
  | SIGMA_DENOM_10
  | SIGMA_DENOM_25
  | SIGMA_DENOM_100
deriving DecidableEq

namespace CoinDenomination

/-- The underlying `uint8_t`. -/
def code : CoinDenomination → Nat
  | SIGMA_DENOM_0_05 => 5
  | SIGMA_DENOM_0_1 => 0
  | SIGMA_DENOM_0_5 => 1
  | SIGMA_DENOM_1 => 2
  | SIGMA_DENOM_10 => 3
  | SIGMA_DENOM_25 => 6
  | SIGMA_DENOM_100 => 4

end CoinDenomination

open CoinDenomination

def denominationToInteger : CoinDenomination → CAmount
  | SIGMA_DENOM_0_05 => 5 * CENT
  | SIGMA_DENOM_0_1 => 10 * CENT
  | SIGMA_DENOM_0_5 => 50 * CENT
  | SIGMA_DENOM_1 => COIN
  | SIGMA_DENOM_10 => 10 * COIN
  | SIGMA_DENOM_25 => 25 * COIN
  | SIGMA_DENOM_100 => 100 * COIN

/-- `IntegerToDenomination`; `none` is its `state.DoS(100, error(…))`. -/
def integerToDenomination (value : CAmount) : Option CoinDenomination :=
  if value = 5 * CENT then some SIGMA_DENOM_0_05
  else if value = 10 * CENT then some SIGMA_DENOM_0_1
  else if value = 50 * CENT then some SIGMA_DENOM_0_5
  else if value = 1 * COIN then some SIGMA_DENOM_1
  else if value = 10 * COIN then some SIGMA_DENOM_10
  else if value = 25 * COIN then some SIGMA_DENOM_25
  else if value = 100 * COIN then some SIGMA_DENOM_100
  else none

variable (d : CoinDenomination)

lemma denominationToInteger_pos : 0 < denominationToInteger d := by
  cases d <;> decide

lemma denominationToInteger_le : denominationToInteger d ≤ 100 * COIN := by
  cases d <;> decide

structure PublicCoin where
  value : GroupElement
  denomination : CoinDenomination
deriving DecidableEq

/-- `ds1.str() < ds2.str()` of `CSigmaTxInfo::Complete`: by the bytes of the value, then by the
    denomination byte. -/
def PublicCoin.serializedLe (m1 m2 : PublicCoin) : Bool :=
  decide (m1.value < m2.value) ||
    (decide (m1.value = m2.value) && decide (m1.denomination.code ≤ m2.denomination.code))

/-! ## sigma/coinspend.h -/

/-- `sigma::CoinSpend`. The proof and the signature are opaque bytes that only `Verify` reads. -/
structure CoinSpend where
  version : Int
  denomination : CoinDenomination
  accumulatorBlockHash : Uint256
  coinSerialNumber : Scalar
  proof : List UInt8
deriving DecidableEq

def ZEROCOIN_TX_VERSION_3 : Int := 30

def ZEROCOIN_TX_VERSION_3_1 : Int := 31

structure SpendMetaData where
  accumulatorId : Nat
  blockHash : Uint256
  txHash : Uint256
deriving DecidableEq

/-- What the sigma checks take from the cryptographic library and from the serialisation code. -/
structure Crypto where
  /-- `CoinSpend(params, stream)`; `none` is `std::ios_base::failure`. -/
  readCoinSpend : List UInt8 → Option CoinSpend
  /-- `CoinSpend::Verify`. -/
  verify : CoinSpend → List PublicCoin → SpendMetaData → Bool → Bool
  /-- `GroupElement::deserialize`. -/
  deserialize : List UInt8 → GroupElement
  /-- `PublicCoin::validate`. -/
  validate : PublicCoin → Bool
  /-- `CTransaction::GetHash`. -/
  getHash : CTransaction → Uint256
  /-- `CoinRemintToV3::GetAmount`. -/
  remintAmount : CTransaction → CAmount

/-! ## coin_containers.h -/

structure CMintedCoinInfo where
  denomination : CoinDenomination
  coinGroupId : Int
  nHeight : Int
deriving DecidableEq

structure CSpendCoinInfo where
  denomination : CoinDenomination
  coinGroupId : Int
deriving DecidableEq

/-! ## Script parsers of sigma.cpp -/

section Parse

variable (crypto : Crypto)

/-- `ParseSigmaMintScript`; `none` is `std::invalid_argument`. -/
def parseSigmaMintScript (script : CScript) : Option GroupElement :=
  if script.length < 1 then none
  else if (script.drop 1).length < groupElementSize then none
  else some (crypto.deserialize (script.drop 1))

/-- How `ParseSigmaSpend` can fail. -/
inductive ParseError
  | CBadTxIn
  | iosFailure
deriving DecidableEq

/-- `ParseSigmaSpend`: the group id stands in the outpoint index, the spend behind the opcode. -/
def parseSigmaSpend (txin : CTxIn) : Except ParseError (CoinSpend × Nat) :=
  let groupId := txin.prevout.n.toNat
  if groupId < 1 ∨ intMax ≤ groupId ∨ txin.scriptSig.length < 1 then .error .CBadTxIn
  else match crypto.readCoinSpend (txin.scriptSig.drop 1) with
    | none => .error .iosFailure
    | some spend => .ok (spend, groupId)

/-- `GetSpendAmount(const CTxIn&)`. -/
def getSpendAmountIn (txin : CTxIn) : CAmount :=
  if txin.isSigmaSpend then
    match parseSigmaSpend crypto txin with
    | .error _ => 0
    | .ok (spend, _) => denominationToInteger spend.denomination
  else 0

/-- `GetSpendAmount(const CTransaction&)`. -/
def getSpendAmount (tx : CTransaction) : CAmount :=
  tx.vin.foldl (fun sum txin => wrap64 (sum + getSpendAmountIn crypto txin)) 0

/-- The serial number an input carries, by the decoder both `CheckSigmaTransaction` and
    `GetSigmaSpendSerialNumber` use. -/
def inputSerial (txin : CTxIn) : Option Scalar :=
  (crypto.readCoinSpend (txin.scriptSig.drop 1)).map CoinSpend.coinSerialNumber

def getSigmaSpendSerialNumber (tx : CTransaction) (txin : CTxIn) : Scalar :=
  if !tx.isSigmaSpend then 0 else (inputSerial crypto txin).getD 0

end Parse

end Tecracoin.Sigma
