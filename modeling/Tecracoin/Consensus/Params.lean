/-
  `consensus/params.h` with the values of `chainparams.cpp`, and
  `consensus/validation.h`.

  Only parameters that a modelled function reads are kept.  The ways a
  modelled function can stop short of success are collected in `Failure`: a
  `false` return with the validation state it leaves, a C++ exception, a failed
  `assert`, and a null dereference.
-/
import Tecracoin.Primitives.Transaction

namespace Tecracoin

/-! ## consensus/params.h, chainparams.cpp -/

inductive ChainType
  | chainMain
  | chainTestnet
  | chainRegtest
deriving DecidableEq

/-- `ZC_SPEND_V3_COINSPERID_LIMIT`: coins a sigma group takes before mints move on to the next id.
    -/
def ZC_SPEND_V3_COINSPERID_LIMIT : Nat := 16000

structure Params where
  chainType : ChainType
  nSubsidyHalvingInterval : Int
  /-- In whole coins. -/
  nPremineSubsidy : Int
  nSigmaStartBlock : Int
  nSigmaPaddingBlock : Int
  nDisableUnpaddedSigmaBlock : Int
  nMaxSigmaInputPerBlock : Nat
  nMaxValueSigmaSpendPerBlock : CAmount
  nMaxSigmaInputPerTransaction : Nat
  nMaxValueSigmaSpendPerTransaction : CAmount
  nZerocoinV2MintMempoolGracefulPeriod : Int
  nZerocoinV2SpendMempoolGracefulPeriod : Int
  DIP0003Height : Int
  DIP0003EnforcementHeight : Int

variable (chainType : ChainType)

namespace Params

/-- What the three networks share. -/
def shared : Params where
  chainType := chainType
  nSubsidyHalvingInterval := 840000
  nPremineSubsidy := 21000000
  nSigmaStartBlock := 184200
  nSigmaPaddingBlock := 220720
  nDisableUnpaddedSigmaBlock := 219904
  nMaxSigmaInputPerBlock := 50
  nMaxValueSigmaSpendPerBlock := 600 * COIN
  nMaxSigmaInputPerTransaction := 35
  nMaxValueSigmaSpendPerTransaction := 500 * COIN
  nZerocoinV2MintMempoolGracefulPeriod := 4500
  nZerocoinV2SpendMempoolGracefulPeriod := 9000
  DIP0003Height := 450000
  DIP0003EnforcementHeight := 470000

def main : Params := shared .chainMain

def testnet : Params :=
  { shared .chainTestnet with
    nSigmaStartBlock := 1
    nSigmaPaddingBlock := 1
    nDisableUnpaddedSigmaBlock := 1
    nZerocoinV2MintMempoolGracefulPeriod := 500
    nZerocoinV2SpendMempoolGracefulPeriod := 1500
    DIP0003Height := 60000
    DIP0003EnforcementHeight := 63000 }

def regtest : Params :=
  { shared .chainRegtest with
    nSubsidyHalvingInterval := 210000
    nSigmaStartBlock := 400
    nSigmaPaddingBlock := 550
    nDisableUnpaddedSigmaBlock := 510
    nZerocoinV2MintMempoolGracefulPeriod := 2
    nZerocoinV2SpendMempoolGracefulPeriod := 10
    DIP0003Height := 10500
    DIP0003EnforcementHeight := 11500 }

/-- `Params()` for the selected network. -/
def ofChain : ChainType → Params
  | .chainMain => main
  | .chainTestnet => testnet
  | .chainRegtest => regtest

/-- Every network denies sigma long before the height a loose transaction is checked with. -/
lemma DIP0003Height_lt_intMax : (ofChain chainType).DIP0003Height < intMax := by
  cases chainType <;> decide

/-- The limits on sigma inputs are the same on every network. -/
lemma sigmaInputLimits :
    (ofChain chainType).nMaxSigmaInputPerTransaction = 35 ∧
      (ofChain chainType).nMaxSigmaInputPerBlock = 50 := by
  cases chainType <;> exact ⟨rfl, rfl⟩

end Params

/-! ## consensus/validation.h -/

def REJECT_MALFORMED : Nat := 0x01

def REJECT_INVALID : Nat := 0x10

def REJECT_OBSOLETE : Nat := 0x11

def REJECT_DUPLICATE : Nat := 0x12

def REJECT_NONSTANDARD : Nat := 0x40

def REJECT_INSUFFICIENTFEE : Nat := 0x42

def REJECT_HIGHFEE : Nat := 0x100

def REJECT_ALREADY_KNOWN : Nat := 0x101

def REJECT_CONFLICT : Nat := 0x102

def PUBCOIN_NOT_VALIDATE : Nat := 0x46

def NSEQUENCE_INCORRECT : Nat := 0x47

def NO_MINT_ZEROCOIN : Nat := 0x49

/-- `CValidationState` after a run: what the caller can read back. -/
structure CValidationState where
  nDoS : Int
  chRejectCode : Nat
  strRejectReason : String
deriving DecidableEq

namespace CValidationState

/-- A state no check has reported to. -/
def valid : CValidationState := ⟨0, 0, ""⟩

/-- `state.DoS(level, false, chRejectCode, strRejectReason)`: levels add up, the last code and
    reason stay. -/
def DoS (state : CValidationState) (level : Int) (chRejectCode : Nat)
    (strRejectReason : String) : CValidationState :=
  ⟨state.nDoS + level, chRejectCode, strRejectReason⟩

/-- `state.DoS(level, error(…))`: the text goes to the log only, so the code and the reason are
    reset to their defaults. -/
def DoSError (state : CValidationState) (level : Int) : CValidationState :=
  state.DoS level 0 ""

end CValidationState

/-- How a modelled function stops without success. -/
inductive Failure
  /-- `return false`, with the validation state as the function leaves it. -/
  | returnsFalse (state : CValidationState)
  /-- An exception that the function does not catch. -/
  | throws (what : String)
  /-- `assert(expression)` does not hold: the process aborts. -/
  | asserts (expression : String)
  /-- A null pointer is dereferenced. -/
  | nullDereference
deriving DecidableEq

namespace Failure

/-- `return state.DoS(level, false, chRejectCode, reason)` on a valid state. -/
def dos (level : Int) (chRejectCode : Nat) (reason : String) : Failure :=
  .returnsFalse (CValidationState.valid.DoS level chRejectCode reason)

/-- `return state.DoS(level, error(…))` on a valid state. -/
def dosError (level : Int) : Failure := .returnsFalse (CValidationState.valid.DoSError level)

/-- `return state.Invalid(false, chRejectCode, reason)` on a valid state. -/
def invalid (chRejectCode : Nat) (reason : String) : Failure := dos 0 chRejectCode reason

/-- A bare `return false`. -/
def bare : Failure := .returnsFalse .valid

end Failure

end Tecracoin
