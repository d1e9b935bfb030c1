/-
  `evo/deterministicmns.h` and `.cpp`: the masternode list and the operations
  that change it.

  The list keeps two indexes beside the masternodes: from internal ids to
  registrations, and from the hashes of unique properties to their owners.  The
  hash of a property is taken as injective, so an index key is the property
  itself: the four kinds of properties serialise to different lengths and never
  meet.

  The list is generic in the type `K` of operator keys.  The code has lazily
  parsed keys there; `OperatorKey` lists what the list does with them, and
  `LawfulOperatorKey` what has to hold for the list to treat absent keys alike.
-/
import Tecracoin.Bls.Keys
import Tecracoin.Data.Eff
import Tecracoin.Data.OwnerIndex
import Tecracoin.Net.Address
import Tecracoin.Script.Standard

namespace Tecracoin.Evo

open Data CBLSPublicKey

/-! ## Unique properties -/

/-- What `SerializeHash` of a unique property stands for. -/
inductive UniqueProperty
  | outpoint (o : COutPoint)
  | service (addr : CService)
  | keyID (id : CKeyID)
  | pubKey (buf : Nat)
deriving DecidableEq

/-- What the property templates need of their type `T`. -/
class UniqueValue (T : Type) where
  /-- `static const T nullValue`. -/
  nullValue : T
  /-- `operator==`. -/
  beq : T → T → Bool
  serializeHash : T → UniqueProperty

open UniqueValue

/-- Values are equal if and only if their hashes are. -/
class LawfulUniqueValue (T : Type) [UniqueValue T] : Prop where
  beq_iff : ∀ v w : T, beq v w = true ↔ serializeHash v = serializeHash w

instance : UniqueValue COutPoint where
  nullValue := ⟨0, 0xffffffff⟩
  beq v w := decide (v = w)
  serializeHash := .outpoint

instance : LawfulUniqueValue COutPoint := ⟨by simp [beq, serializeHash]⟩

instance : UniqueValue CService where
  nullValue := .null
  beq v w := decide (v = w)
  serializeHash := .service

instance : LawfulUniqueValue CService := ⟨by simp [beq, serializeHash]⟩

instance : UniqueValue CKeyID where
  nullValue := 0
  beq v w := decide (v = w)
  serializeHash := .keyID

instance : LawfulUniqueValue CKeyID := ⟨by simp [beq, serializeHash]⟩

/-- What the list needs of the type of operator keys. -/
class OperatorKey (K : Type) extends UniqueValue K where
  /-- `Get().IsValid()`. -/
  isValid : K → Bool
  /-- The key after it has been written to a stream and read back. -/
  reread : K → K

/-- The keys that are not valid are those equal to the null key. A malformed wrapper breaks this:
    it differs from the null wrapper, and `Get` finds no valid key in it. -/
class LawfulOperatorKey (K : Type) [OperatorKey K] : Prop extends LawfulUniqueValue K where
  isValid_iff : ∀ key : K, OperatorKey.isValid key = true ↔ beq key nullValue = false
  isPubKey : ∀ key : K, ∃ buf, serializeHash key = .pubKey buf
  serializeHash_reread : ∀ key : K, serializeHash (OperatorKey.reread key) = serializeHash key

/-- Plain keys. -/
instance : OperatorKey CBLSPublicKey where
  nullValue := .null
  beq v w := decide (v = w)
  serializeHash key := .pubKey key.buf
  isValid := CBLSPublicKey.isValid
  reread key := key

instance : LawfulOperatorKey CBLSPublicKey where
  beq_iff v w := by
    simp only [beq, serializeHash, decide_eq_true_eq, UniqueProperty.pubKey.injEq]
    exact ⟨congrArg buf, buf_injective⟩
  isValid_iff _ := isValid_iff.trans decide_eq_false_iff_not.symm
  isPubKey _ := ⟨_, rfl⟩
  serializeHash_reread _ := rfl

section LazyKeys

variable {internalSetBuf : InternalSetBuf}

/-- The bytes that `Serialize` writes. -/
def CBLSLazyPublicKey.bytes (key : CBLSLazyPublicKey internalSetBuf) : Nat :=
  (key.wrapper.serialize.map Prod.fst).getD 0

/-- The keys of the code. What `Get` remembers in the wrapper is left out: only a wrapper with
    malformed bytes, which `Get` forgets, can tell. -/
instance : OperatorKey (CBLSLazyPublicKey internalSetBuf) where
  nullValue := ⟨.new⟩
  beq v w := v.wrapper.beq internalSetBuf w.wrapper
  serializeHash key := .pubKey (CBLSLazyPublicKey.bytes key)
  isValid key := (key.wrapper.get internalSetBuf).1.isValid
  reread key := ⟨key.wrapper.unserialize (CBLSLazyPublicKey.bytes key)⟩

namespace GenuineLazyKey

lemma bytes_eq (key : GenuineLazyKey internalSetBuf) :
    CBLSLazyPublicKey.bytes key.toCBLSLazyPublicKey = key.key.buf := by
  obtain ⟨w, hw, _⟩ := key.represents.serialize
  rw [CBLSLazyPublicKey.bytes, hw]
  rfl

lemma represents_reread (key : GenuineLazyKey internalSetBuf) :
    (OperatorKey.reread key.toCBLSLazyPublicKey).wrapper.Represents internalSetBuf key.key := by
  simp only [OperatorKey.reread, bytes_eq]
  exact CBLSLazyWrapper.represents_unserialize key.represents.genuine

/-- The operations of the wrapper. -/
instance : OperatorKey (GenuineLazyKey internalSetBuf) where
  nullValue := ⟨nullValue, .null, CBLSLazyWrapper.represents_new⟩
  beq v w := beq v.toCBLSLazyPublicKey w.toCBLSLazyPublicKey
  serializeHash key := serializeHash key.toCBLSLazyPublicKey
  isValid key := OperatorKey.isValid key.toCBLSLazyPublicKey
  reread key := ⟨OperatorKey.reread key.toCBLSLazyPublicKey, key.key, represents_reread key⟩

instance : LawfulOperatorKey (GenuineLazyKey internalSetBuf) where
  beq_iff v w := by
    refine (v.represents.beq_iff w.represents).trans ?_
    simp only [serializeHash, bytes_eq, UniqueProperty.pubKey.injEq]
    exact ⟨congrArg buf, buf_injective⟩
  isValid_iff key := by
    have hbeq := key.represents.beq_iff CBLSLazyWrapper.represents_new
    simp only [OperatorKey.isValid, key.represents.get.1]
    rw [isValid_iff, ne_eq, ← hbeq, Bool.not_eq_true]
    rfl
  isPubKey _ := ⟨_, rfl⟩
  serializeHash_reread key :=
    congrArg UniqueProperty.pubKey ((bytes_eq _).trans (bytes_eq key).symm)

end GenuineLazyKey

end LazyKeys

/-! ## deterministicmns.h -/

section Lists

variable (K : Type)

structure CDeterministicMNState where
  nRegisteredHeight : Int
  nLastPaidHeight : Int
  nPoSePenalty : Int
  nPoSeRevivedHeight : Int
  nPoSeBanHeight : Int
  nRevocationReason : Nat
  confirmedHash : Uint256
  confirmedHashWithProRegTxHash : Uint256
  keyIDOwner : CKeyID
  pubKeyOperator : K
  keyIDVoting : CKeyID
  addr : CService
  scriptPayout : CScript
  scriptOperatorPayout : CScript
deriving DecidableEq

structure CDeterministicMN where
  proTxHash : Uint256
  internalId : Nat
  collateralOutpoint : COutPoint
  nOperatorReward : Nat
  pdmnState : CDeterministicMNState K
deriving DecidableEq

/-- `mnUniquePropertyMap`: the owner of a property and a reference count. -/
abbrev MnUniquePropertyMap := OwnerIndex UniqueProperty Uint256

/-- The iteration order of the `immer::map`s depends on the bits of their keys; here it is the order
    of insertion, and nothing is proved from it. -/
structure CDeterministicMNList where
  blockHash : Uint256
  nHeight : Int
  /-- A `uint32_t`. -/
  nTotalRegisteredCount : Nat
  mnMap : StdMap Uint256 (CDeterministicMN K)
  mnInternalIdMap : StdMap Nat Uint256
  mnUniquePropertyMap : MnUniquePropertyMap
deriving DecidableEq

end Lists

variable {K T : Type} [OperatorKey K] [UniqueValue T]

/-! ## Adding, updating and deleting unique properties -/

section

variable (dmn : CDeterministicMN K)

def addUniqueProperty (v : T) (map : MnUniquePropertyMap) : Except Failure MnUniquePropertyMap :=
  if beq v nullValue then .error (.asserts "v != nullValue")
  else
    match map.acquire (serializeHash v) dmn.proTxHash with
    | none => .error (.asserts "!oldEntry || oldEntry->first == dmn->proTxHash")
    | some map => .ok map

def deleteUniqueProperty (oldValue : T) (map : MnUniquePropertyMap) :
    Except Failure MnUniquePropertyMap :=
  if beq oldValue nullValue then .error (.asserts "oldValue != nullValue")
  else
    match map.release (serializeHash oldValue) dmn.proTxHash with
    | none => .error (.asserts "p && p->first == dmn->proTxHash")
    | some map => .ok map

def updateUniqueProperty (oldValue newValue : T)
    (map : MnUniquePropertyMap) : Except Failure MnUniquePropertyMap :=
  if beq oldValue newValue then .ok map
  else
    (if beq oldValue nullValue then .ok map
      else deleteUniqueProperty dmn oldValue map).bind (fun map =>
    if beq newValue nullValue then .ok map
      else addUniqueProperty dmn newValue map)

end

/-- `if (c) AddUniqueProperty(dmn, v)`. -/
def addUniquePropertyIf (c : Bool) (dmn : CDeterministicMN K) (v : T)
    (map : MnUniquePropertyMap) : Except Failure MnUniquePropertyMap :=
  if c then addUniqueProperty dmn v map else .ok map

/-- `if (c) DeleteUniqueProperty(dmn, v)`. -/
def deleteUniquePropertyIf (c : Bool) (dmn : CDeterministicMN K) (v : T)
    (map : MnUniquePropertyMap) : Except Failure MnUniquePropertyMap :=
  if c then deleteUniqueProperty dmn v map else .ok map

namespace CDeterministicMNList

/-- `CDeterministicMNList(blockHash, height, totalRegisteredCount)`. -/
def new (blockHash : Uint256) (height : Int) (totalRegisteredCount : Nat) :
    CDeterministicMNList K :=
  ⟨blockHash, height, totalRegisteredCount, .empty, .empty, .empty⟩

def getAllMNsCount (l : CDeterministicMNList K) : Nat := l.mnMap.entries.length

/-- `ForEachMN(false, …)`: the masternodes in iteration order. -/
def allMNs (l : CDeterministicMNList K) : List (CDeterministicMN K) :=
  l.mnMap.entries.map Prod.snd

def isMNPoSeBanned (dmn : CDeterministicMN K) : Bool := decide (dmn.pdmnState.nPoSeBanHeight ≠ -1)

variable (l : CDeterministicMNList K)

/-- `ForEachMN(true, …)`. -/
def validMNs : List (CDeterministicMN K) :=
  l.allMNs.filter (fun dmn => !isMNPoSeBanned dmn)

def getMN (proTxHash : Uint256) : Option (CDeterministicMN K) :=
  l.mnMap.get? proTxHash

def hasMN (proTxHash : Uint256) : Bool := (l.getMN proTxHash).isSome

def hasUniqueProperty (v : T) : Bool :=
  l.mnUniquePropertyMap.contains (serializeHash v)

def getUniquePropertyMN (v : T) : Option (CDeterministicMN K) :=
  (l.mnUniquePropertyMap.get? (serializeHash v)).bind (fun entry => l.getMN entry.1)

def getMNByCollateral (collateralOutpoint : COutPoint) : Option (CDeterministicMN K) :=
  l.getUniquePropertyMN collateralOutpoint

/-! ## Adding, updating and removing masternodes -/

def addMN (dmn : CDeterministicMN K) : Except Failure (CDeterministicMNList K) :=
  if l.mnMap.contains dmn.proTxHash then .error (.asserts "!mnMap.find(dmn->proTxHash)")
  else do
    let map ← addUniqueProperty dmn dmn.collateralOutpoint l.mnUniquePropertyMap
    let map ← addUniquePropertyIf (decide (dmn.pdmnState.addr ≠ .null)) dmn
      dmn.pdmnState.addr map
    let map ← addUniqueProperty dmn dmn.pdmnState.keyIDOwner map
    let map ← addUniquePropertyIf (OperatorKey.isValid dmn.pdmnState.pubKeyOperator) dmn
      dmn.pdmnState.pubKeyOperator map
    .ok { l with
      mnMap := l.mnMap.set StdMap.unordered dmn.proTxHash dmn
      mnInternalIdMap := l.mnInternalIdMap.set StdMap.unordered dmn.internalId dmn.proTxHash
      mnUniquePropertyMap := map }

/-- `UpdateMN(oldDmn, pdmnState)`. -/
def updateMN (oldDmn : CDeterministicMN K)
    (pdmnState : CDeterministicMNState K) : Except Failure (CDeterministicMNList K) := do
  let dmn := { oldDmn with pdmnState := pdmnState }
  let oldState := oldDmn.pdmnState
  let map ← updateUniqueProperty dmn oldState.addr pdmnState.addr l.mnUniquePropertyMap
  let map ← updateUniqueProperty dmn oldState.keyIDOwner pdmnState.keyIDOwner map
  let map ← updateUniqueProperty dmn oldState.pubKeyOperator pdmnState.pubKeyOperator map
  .ok { l with
    mnMap := l.mnMap.set StdMap.unordered oldDmn.proTxHash dmn
    mnUniquePropertyMap := map }

variable (proTxHash : Uint256)

/-- `UpdateMN(proTxHash, pdmnState)`. -/
def updateMNByHash
    (pdmnState : CDeterministicMNState K) : Except Failure (CDeterministicMNList K) :=
  match l.mnMap.get? proTxHash with
  | none => .error (.asserts "oldDmn != nullptr")
  | some oldDmn => l.updateMN oldDmn pdmnState

def removeMN : Except Failure (CDeterministicMNList K) :=
  match l.getMN proTxHash with
  | none => .error (.asserts "dmn != nullptr")
  | some dmn => do
      let map ← deleteUniqueProperty dmn dmn.collateralOutpoint l.mnUniquePropertyMap
      let map ← deleteUniquePropertyIf (decide (dmn.pdmnState.addr ≠ .null)) dmn
        dmn.pdmnState.addr map
      let map ← deleteUniqueProperty dmn dmn.pdmnState.keyIDOwner map
      let map ← deleteUniquePropertyIf (OperatorKey.isValid dmn.pdmnState.pubKeyOperator) dmn
        dmn.pdmnState.pubKeyOperator map
      .ok { l with
        mnMap := l.mnMap.erase proTxHash
        mnInternalIdMap := l.mnInternalIdMap.erase dmn.internalId
        mnUniquePropertyMap := map }

/-! ## Proof of service -/

def calcMaxPoSePenalty : Int := max 100 (l.getAllMNsCount : Int)

def calcPenalty (percent : Int) : Except Failure Int :=
  if 0 < percent then .ok (l.calcMaxPoSePenalty * percent / 100)
  else .error (.asserts "percent > 0")

/-- The state of a punished masternode of a list of height `nHeight`. -/
def punishedState (nHeight maxPenalty penalty : Int) (state : CDeterministicMNState K) :
    CDeterministicMNState K :=
  let nPoSePenalty := min maxPenalty (state.nPoSePenalty + penalty)
  { state with
    nPoSePenalty := nPoSePenalty
    nPoSeBanHeight :=
      if maxPenalty ≤ nPoSePenalty ∧ state.nPoSeBanHeight = -1 then nHeight
      else state.nPoSeBanHeight }

def poSePunish (penalty : Int) : Except Failure (CDeterministicMNList K) :=
  if ¬ 0 < penalty then .error (.asserts "penalty > 0")
  else
    match l.getMN proTxHash with
    | none => .error (.asserts "dmn")
    | some dmn =>
      l.updateMNByHash proTxHash
        (punishedState l.nHeight l.calcMaxPoSePenalty penalty dmn.pdmnState)

def poSeDecrease : Except Failure (CDeterministicMNList K) :=
  match l.getMN proTxHash with
  | none => .error (.asserts "dmn")
  | some dmn =>
    if 0 < dmn.pdmnState.nPoSePenalty ∧ dmn.pdmnState.nPoSeBanHeight = -1 then
      l.updateMNByHash proTxHash
        { dmn.pdmnState with nPoSePenalty := dmn.pdmnState.nPoSePenalty - 1 }
    else
      .error (.asserts "dmn->pdmnState->nPoSePenalty > 0 && dmn->pdmnState->nPoSeBanHeight == -1")

/-! ## Serialisation -/

end CDeterministicMNList

/-- The masternode after it has been written to a stream and read back. -/
def CDeterministicMN.reread (dmn : CDeterministicMN K) : CDeterministicMN K :=
  { dmn with pdmnState :=
    { dmn.pdmnState with pubKeyOperator := OperatorKey.reread dmn.pdmnState.pubKeyOperator } }

/-- What `CDeterministicMNList::Serialize` writes: the indexes are not part of it. -/
structure MNListData (K : Type) where
  blockHash : Uint256
  nHeight : Int
  nTotalRegisteredCount : Nat
  mns : List (CDeterministicMN K)

namespace CDeterministicMNList

def serialize (l : CDeterministicMNList K) : MNListData K :=
  ⟨l.blockHash, l.nHeight, l.nTotalRegisteredCount, l.allMNs.map CDeterministicMN.reread⟩

/-- `Unserialize`: the indexes are built by adding one masternode after the other. -/
def unserialize (data : MNListData K) : Except Failure (CDeterministicMNList K) :=
  data.mns.foldlM addMN (new data.blockHash data.nHeight data.nTotalRegisteredCount)

end CDeterministicMNList

end Tecracoin.Evo
