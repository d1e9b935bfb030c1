/-
  `script/standard.cpp` and the reading half of `script/script.h`: how a script is
  read opcode by opcode, which standard type `Solver` finds in it, and where a
  script of that type pays to.

  `Solver` tests the fixed shapes first and then compares the script with three
  templates.  The template for a public key hash takes any push of 20 bytes, so
  it also finds scripts that the fixed shape misses.
-/
import Tecracoin.Primitives.Transaction

namespace Tecracoin

open CScript

abbrev CKeyID := BitVec 160

/-- `CTxDestination`, without the empty destination. -/
inductive CTxDestination
  | keyID (id : CKeyID)
  | scriptID (id : BitVec 160)
deriving DecidableEq

def OP_PUSHDATA1 : UInt8 := 0x4c

def OP_PUSHDATA2 : UInt8 := 0x4d

def OP_PUSHDATA4 : UInt8 := 0x4e

def OP_DUP : UInt8 := 0x76

def OP_EQUAL : UInt8 := 0x87

def OP_EQUALVERIFY : UInt8 := 0x88

def OP_HASH160 : UInt8 := 0xa9

def OP_CHECKSIG : UInt8 := 0xac

def OP_0 : UInt8 := 0x00

def OP_1 : UInt8 := 0x51

def OP_16 : UInt8 := 0x60

def OP_CHECKMULTISIG : UInt8 := 0xae

/-! The opcodes that only occur in templates. -/

def OP_SMALLINTEGER : UInt8 := 0xfa

def OP_PUBKEYS : UInt8 := 0xfb

def OP_PUBKEYHASH : UInt8 := 0xfd

def OP_PUBKEY : UInt8 := 0xfe

def OP_INVALIDOPCODE : UInt8 := 0xff

/-- `txnouttype`, without `TX_NONSTANDARD`. -/
inductive TxnOutType
  | TX_PUBKEY
  | TX_PUBKEYHASH
  | TX_SCRIPTHASH
  | TX_MULTISIG
  | TX_NULL_DATA
  | TX_WITNESS_V0_SCRIPTHASH
  | TX_WITNESS_V0_KEYHASH
  | TX_ZEROCOINMINT
  | TX_ZEROCOINMINTV3
deriving DecidableEq

/-- `ReadLE16`, `ReadLE32`. -/
def readLE (bytes : List UInt8) : Nat := bytes.foldr (fun byte n => byte.toNat + 256 * n) 0

namespace CScript

variable (script : CScript)

def isPayToPublicKeyHash : Bool :=
  decide (script.length = 25) &&
    decide (script.take 3 = [OP_DUP, OP_HASH160, 0x14]) &&
    decide (script.drop 23 = [OP_EQUALVERIFY, OP_CHECKSIG])

def isPayToScriptHash : Bool :=
  decide (script.length = 23) && decide (script.take 2 = [OP_HASH160, 0x14]) &&
    decide (script.drop 22 = [OP_EQUAL])

/-- The bytes that say how much an opcode pushes. -/
def pushSizeBytes (opcode : UInt8) : Nat :=
  if opcode < OP_PUSHDATA1 then 0
  else if opcode = OP_PUSHDATA1 then 1
  else if opcode = OP_PUSHDATA2 then 2
  else 4

/-- `GetOp` for an opcode that pushes: the pushed bytes and the rest. -/
def getPush : CScript → Option (List UInt8 × CScript)
  | [] => none
  | opcode :: rest =>
    if OP_PUSHDATA4 < opcode then none
    else if rest.length < pushSizeBytes opcode then none
    else
      let nSize :=
        if opcode < OP_PUSHDATA1 then opcode.toNat else readLE (rest.take (pushSizeBytes opcode))
      let rest := rest.drop (pushSizeBytes opcode)
      if rest.length < nSize then none else some (rest.take nSize, rest.drop nSize)

/-- `GetOp`: the opcode, the bytes it pushes and the rest of the script. -/
def getOp : CScript → Option (UInt8 × List UInt8 × CScript)
  | [] => none
  | opcode :: rest =>
    if opcode ≤ OP_PUSHDATA4 then
      (getPush (opcode :: rest)).map fun pushed => (opcode, pushed.1, pushed.2)
    else if opcode = OP_SIGMASPEND ∨ opcode = OP_SIGMAMINT then some (opcode, rest, [])
    else some (opcode, [], rest)

/-- What `GetOp` leaves is shorter than the script. -/
lemma length_getOp {script : CScript} {op : UInt8 × List UInt8 × CScript}
    (h : script.getOp = some op) : op.2.2.length < script.length := by
  cases script with
  | nil => cases h
  | cons opcode script =>
    rw [getOp] at h
    split_ifs at h
    · obtain ⟨pushed, hpush, rfl⟩ := Option.map_eq_some_iff.mp h
      unfold getPush at hpush
      dsimp only at hpush
      split_ifs at hpush
      all_goals
        cases hpush
        simp only [List.length_cons, List.length_drop]
        omega
    · cases h
      simp
    · cases h
      simp

def isPushOnly (script : CScript) : Bool :=
  match script with
  | [] => true
  | b :: bs =>
    match h : getOp (b :: bs) with
    | none => false
    | some (opcode, _, rest) =>
      if OP_16 < opcode then false
      else
        have := length_getOp h
        isPushOnly rest
termination_by script.length
decreasing_by exact this

/-- `CScript::DecodeOP_N` of a small integer. -/
def decodeOP_N (opcode : UInt8) : UInt8 := if opcode = OP_0 then 0 else opcode - 0x50

/-- `IsWitnessProgram`: the version and the program. -/
def isWitnessProgram : Option (UInt8 × List UInt8) :=
  match script with
  | version :: size :: program =>
    if script.length < 4 ∨ 42 < script.length then none
    else if version ≠ OP_0 ∧ (version < OP_1 ∨ OP_16 < version) then none
    else if size.toNat + 2 = script.length then some (decodeOP_N version, program)
    else none
  | _ => none

/-! ## Templates -/

/-- An opcode of a script with what it pushes and what follows. -/
abbrev ReadOp := UInt8 × List UInt8 × CScript

/-- The loop for `OP_PUBKEYS`: pushes of the size of a key become solutions. After the end of the
    script the opcode is invalid. -/
def takePubKeys (op : ReadOp) (vSolutions : List (List UInt8)) : ReadOp × List (List UInt8) :=
  if 33 ≤ op.2.1.length ∧ op.2.1.length ≤ 65 then
    match h : getOp op.2.2 with
    | none => ((OP_INVALIDOPCODE, [], []), vSolutions ++ [op.2.1])
    | some next =>
      have := length_getOp h
      takePubKeys next (vSolutions ++ [op.2.1])
  else (op, vSolutions)
termination_by op.2.2.length

/-- One opcode against one of the template: the solutions, or no match. -/
def matchOp (op : ReadOp) (opcode2 : UInt8) (vSolutions : List (List UInt8)) :
    Option (List (List UInt8)) :=
  if opcode2 = OP_PUBKEY then
    if op.2.1.length < 33 ∨ 65 < op.2.1.length then none else some (vSolutions ++ [op.2.1])
  else if opcode2 = OP_PUBKEYHASH then
    if op.2.1.length ≠ 20 then none else some (vSolutions ++ [op.2.1])
  else if opcode2 = OP_SMALLINTEGER then
    if op.1 = OP_0 ∨ (OP_1 ≤ op.1 ∧ op.1 ≤ OP_16) then some (vSolutions ++ [[decodeOP_N op.1]])
    else none
  else if op.1 ≠ opcode2 ∨ op.2.1 ≠ [] then none
  else some vSolutions

/-- The loop that compares a script with a template. The templates push nothing, so that a template
    is its opcodes. -/
def matchTemplate : CScript → List UInt8 → List (List UInt8) → Option (List (List UInt8))
  | script1, [], vSolutions => if script1 = [] then some vSolutions else none
  | script1, opcode2 :: template, vSolutions =>
    match getOp script1 with
    | none => none
    | some op =>
      if opcode2 = OP_PUBKEYS then
        let taken := takePubKeys op vSolutions
        match template with
        | [] => none
        | opcode2 :: template =>
          match matchOp taken.1 opcode2 taken.2 with
          | none => none
          | some vSolutions => matchTemplate taken.1.2.2 template vSolutions
      else
        match matchOp op opcode2 vSolutions with
        | none => none
        | some vSolutions => matchTemplate op.2.2 template vSolutions

def pubKeyTemplate : List UInt8 := [OP_PUBKEY, OP_CHECKSIG]

def pubKeyHashTemplate : List UInt8 :=
  [OP_DUP, OP_HASH160, OP_PUBKEYHASH, OP_EQUALVERIFY, OP_CHECKSIG]

def multisigTemplate : List UInt8 :=
  [OP_SMALLINTEGER, OP_PUBKEYS, OP_SMALLINTEGER, OP_CHECKMULTISIG]

/-- The additional checks for `TX_MULTISIG`: `m` of `n` keys, and `n` of them. -/
def multisigCounts (vSolutions : List (List UInt8)) : Bool :=
  let m := (vSolutions.headD []).headD 0
  let n := (vSolutions.getLastD []).headD 0
  decide (1 ≤ m) && decide (1 ≤ n) && decide (m ≤ n) && decide (vSolutions.length - 2 = n.toNat)

/-- The templates of `Solver`, in the order of the types. -/
def solveTemplates : Option (TxnOutType × List (List UInt8)) :=
  match matchTemplate script pubKeyTemplate [] with
  | some vSolutions => some (.TX_PUBKEY, vSolutions)
  | none =>
    match matchTemplate script pubKeyHashTemplate [] with
    | some vSolutions => some (.TX_PUBKEYHASH, vSolutions)
    | none =>
      match matchTemplate script multisigTemplate [] with
      | some vSolutions =>
        if multisigCounts vSolutions then some (.TX_MULTISIG, vSolutions) else none
      | none => none

/-- `Solver`: the type and the solutions. -/
def solver : Option (TxnOutType × List (List UInt8)) :=
  if script.isPayToScriptHash then some (.TX_SCRIPTHASH, [(script.drop 2).take 20])
  else if script.isPayToPublicKeyHash then some (.TX_PUBKEYHASH, [(script.drop 3).take 20])
  else if script.isZerocoinMint then
    if 150 < script.length then none else some (.TX_ZEROCOINMINT, [script.drop 2])
  else if script.isSigmaMint then
    if script.length ≠ 35 then none else some (.TX_ZEROCOINMINTV3, [script.drop 1])
  else
    match script.isWitnessProgram with
    | some (version, program) =>
      if version = 0 ∧ program.length = 20 then some (.TX_WITNESS_V0_KEYHASH, [program])
      else if version = 0 ∧ program.length = 32 then some (.TX_WITNESS_V0_SCRIPTHASH, [program])
      else none
    | none =>
      if script.head? = some OP_RETURN ∧ isPushOnly (script.drop 1) = true then
        some (.TX_NULL_DATA, [])
      else script.solveTemplates

end CScript

/-- `CPubKey::GetLen`. -/
def pubKeyLen (chHeader : UInt8) : Nat :=
  if chHeader = 2 ∨ chHeader = 3 then 33
  else if chHeader = 4 ∨ chHeader = 6 ∨ chHeader = 7 then 65
  else 0

/-- `CPubKey(vch).IsValid()`. -/
def pubKeyIsValid (vch : List UInt8) : Bool :=
  match vch with
  | [] => false
  | chHeader :: _ => decide (pubKeyLen chHeader ≠ 0) && decide (pubKeyLen chHeader = vch.length)

/-- `uint160(vch)`. -/
def uint160 (vch : List UInt8) : BitVec 160 := BitVec.ofNat 160 (readLE vch)

/-- `ExtractDestination`; `hash160` is the hash of a public key. -/
def extractDestination (hash160 : List UInt8 → CKeyID) (scriptPubKey : CScript) :
    Option CTxDestination :=
  match scriptPubKey.solver with
  | some (.TX_PUBKEY, vSolutions) =>
    let vch := vSolutions.headD []
    if pubKeyIsValid vch then some (.keyID (hash160 vch)) else none
  | some (.TX_PUBKEYHASH, vSolutions) => some (.keyID (uint160 (vSolutions.headD [])))
  | some (.TX_SCRIPTHASH, vSolutions) => some (.scriptID (uint160 (vSolutions.headD [])))
  | _ => none

/-- `ExtractDestinations`: the type, the destinations and how many have to sign. -/
def extractDestinations (hash160 : List UInt8 → CKeyID) (scriptPubKey : CScript) :
    Option (TxnOutType × List CTxDestination × Nat) :=
  match scriptPubKey.solver with
  | none => none
  | some (.TX_NULL_DATA, _) => none
  | some (.TX_MULTISIG, vSolutions) =>
    let keys := (vSolutions.drop 1).dropLast
    let addressRet := (keys.filter pubKeyIsValid).map
      (fun vch => CTxDestination.keyID (hash160 vch))
    if addressRet = [] then none
    else some (.TX_MULTISIG, addressRet, ((vSolutions.headD []).headD 0).toNat)
  | some (typeRet, _) =>
    (extractDestination hash160 scriptPubKey).map fun address => (typeRet, [address], 1)

def CTxDestination.getKeyID : CTxDestination → Option CKeyID
  | .keyID id => some id
  | .scriptID _ => none

end Tecracoin
