/-
  `amount.h`, `script/script.h` and `primitives/transaction.h`: amounts, the
  opcodes that mark zerocoin and sigma scripts, transactions, and the
  predicates by which validation tells the transaction kinds apart.

  A C++ `int`/`int64_t` is an `Int`; where a sum can leave the 64-bit range the
  function that computes it says so with `wrap64`.  A script is its bytes.
-/
import Mathlib.Tactic

namespace Tecracoin

abbrev Uint256 := BitVec 256

-- found first, so that membership tests do not depend on what a module imports
instance : LawfulBEq Uint256 := inferInstance

/-- `CAmount`: an `int64_t` number of the smallest unit. -/
abbrev CAmount := Int

/-- `CScript`: the raw bytes. -/
abbrev CScript := List UInt8

/-! ## amount.h -/

def intMax : Int := 2147483647

def COIN : CAmount := 100000000

def CENT : CAmount := 1000000

def MAX_MONEY : CAmount := 210000000 * COIN

def moneyRange (nValue : CAmount) : Bool := decide (0 ≤ nValue) && decide (nValue ≤ MAX_MONEY)

lemma MAX_MONEY_eq : (MAX_MONEY : Int) = 21000000000000000 := by decide

lemma moneyRange_iff {v : Int} : moneyRange v = true ↔ 0 ≤ v ∧ v ≤ MAX_MONEY := by
  simp [moneyRange]

/-- The value a 64-bit two's complement register holds for `x`. -/
def wrap64 (x : Int) : Int := (x + 2 ^ 63) % 2 ^ 64 - 2 ^ 63

variable {x : Int}

lemma wrap64_of_range (hlo : -2 ^ 63 ≤ x) (hhi : x < 2 ^ 63) : wrap64 x = x := by
  unfold wrap64
  omega

/-- Only the last sum of a chain of sums has to be wrapped. -/
lemma wrap64_wrap64_add {y : Int} : wrap64 (wrap64 x + y) = wrap64 (x + y) := by
  unfold wrap64
  omega

/-- A sum that is not too far below zero can only lose by wrapping. -/
lemma wrap64_le (hlo : -2 ^ 63 ≤ x) : wrap64 x ≤ x := by
  unfold wrap64
  omega

/-! ## script/script.h -/

def OP_RETURN : UInt8 := 0x6a

def OP_ZEROCOINMINT : UInt8 := 0xc1

def OP_ZEROCOINSPEND : UInt8 := 0xc2

def OP_SIGMAMINT : UInt8 := 0xc3

def OP_SIGMASPEND : UInt8 := 0xc4

def OP_ZEROCOINTOSIGMAREMINT : UInt8 := 0xc8

def MAX_SCRIPT_SIZE : Nat := 10000

namespace CScript

/-- The test all `CScript::IsZerocoin…`/`IsSigma…` predicates make: the script is not empty and
    starts with the opcode. -/
def startsWith (opcode : UInt8) (script : CScript) : Bool := script.head? == some opcode

def isZerocoinMint : CScript → Bool := startsWith OP_ZEROCOINMINT

def isZerocoinSpend : CScript → Bool := startsWith OP_ZEROCOINSPEND

def isSigmaMint : CScript → Bool := startsWith OP_SIGMAMINT

def isSigmaSpend : CScript → Bool := startsWith OP_SIGMASPEND

def isZerocoinRemint : CScript → Bool := startsWith OP_ZEROCOINTOSIGMAREMINT

def isUnspendable (script : CScript) : Bool :=
  startsWith OP_RETURN script || decide (script.length > MAX_SCRIPT_SIZE)

end CScript

/-! ## primitives/transaction.h -/

structure COutPoint where
  hash : Uint256
  n : UInt32
deriving DecidableEq

namespace COutPoint

/-- `hash.IsNull() && n == (uint32_t) -1`. -/
def isNull (o : COutPoint) : Bool := decide (o.hash = 0) && decide (o.n = 0xffffffff)

/-- `hash.IsNull() && n >= 1`: the outpoint of a sigma spend names the coin group. -/
def isSigmaMintGroup (o : COutPoint) : Bool := decide (o.hash = 0) && decide (1 ≤ o.n)

end COutPoint

structure CTxIn where
  prevout : COutPoint
  scriptSig : CScript
  nSequence : UInt32
deriving DecidableEq

namespace CTxIn

def isZerocoinSpend (txin : CTxIn) : Bool := txin.prevout.isNull && txin.scriptSig.isZerocoinSpend

def isSigmaSpend (txin : CTxIn) : Bool :=
  txin.prevout.isSigmaMintGroup && txin.scriptSig.isSigmaSpend

def isZerocoinRemint (txin : CTxIn) : Bool :=
  txin.prevout.isNull && txin.scriptSig.isZerocoinRemint

end CTxIn

structure CTxOut where
  nValue : CAmount
  scriptPubKey : CScript
deriving DecidableEq

/-- The special transaction types, `nType`. -/
inductive TxType
  | TRANSACTION_NORMAL
  | TRANSACTION_PROVIDER_REGISTER
  | TRANSACTION_PROVIDER_UPDATE_SERVICE
  | TRANSACTION_PROVIDER_UPDATE_REGISTRAR
  | TRANSACTION_PROVIDER_UPDATE_REVOKE
  | TRANSACTION_COINBASE
  | TRANSACTION_QUORUM_COMMITMENT
  | other (code : Int)
deriving DecidableEq

structure CTransaction where
  nVersion : Int
  nType : TxType
  vin : List CTxIn
  vout : List CTxOut
  nLockTime : UInt32
  vExtraPayload : List UInt8
deriving DecidableEq

namespace CTransaction

variable (tx : CTransaction)

def isZerocoinSpend : Bool := tx.vin.any CTxIn.isZerocoinSpend

def isSigmaSpend : Bool := tx.vin.any CTxIn.isSigmaSpend

def isZerocoinRemint : Bool := tx.vin.any CTxIn.isZerocoinRemint

def isZerocoinMint : Bool :=
  tx.vout.any (fun txout => txout.scriptPubKey.isZerocoinMint)

def isSigmaMint : Bool :=
  !tx.isZerocoinRemint && tx.vout.any (fun txout => txout.scriptPubKey.isSigmaMint)

def isZerocoinV3SigmaTransaction : Bool :=
  tx.isSigmaSpend || tx.isSigmaMint || tx.isZerocoinRemint

/-- One input with a null outpoint, unless its script starts with one of the two zerocoin opcodes. A
    sigma spend of group `0xffffffff` has a null outpoint too, so it is counted as a coinbase here.
    -/
def isCoinBase : Bool :=
  match tx.vin with
  | [txin] =>
    txin.prevout.isNull &&
      (txin.scriptSig.isEmpty ||
        !(txin.scriptSig.isZerocoinSpend || txin.scriptSig.isZerocoinRemint))
  | _ => false

/-- `IsZerocoinSpend() || IsSigmaSpend() || IsZerocoinRemint()`: the spends whose inputs are no
    outpoints of the UTXO set. -/
def isPrivacySpend : Bool :=
  tx.isZerocoinSpend || tx.isSigmaSpend || tx.isZerocoinRemint

/-- The loop of `GetValueOut`: `none` is the exception "value out of range". -/
def sumValueOut (nValueOut : CAmount) : List CTxOut → Option CAmount
  | [] => some nValueOut
  | txout :: vout =>
    let nValueOut := wrap64 (nValueOut + txout.nValue)
    if !moneyRange txout.nValue || !moneyRange nValueOut then none
    else sumValueOut nValueOut vout

def getValueOut : Option CAmount := sumValueOut 0 tx.vout

end CTransaction

end Tecracoin
