/-
  The copies of a block header (`primitives/block.h`, `chain.h`, `txdb.cpp`).

  A block, its index entry, the entry's record on disk and a headers message each copy
  the header field by field.  The copy that a block makes of its own header leaves out
  `mtpHashValue`.
-/
import Tecracoin.Primitives.Transaction

namespace Tecracoin.Headers

/-- The fields that a header and an index entry have in common. -/
structure HeaderFields where
  nVersion : Int32
  hashMerkleRoot : Uint256
  nTime : UInt32
  nBits : UInt32
  nNonce : UInt32

/-- The fields of the MTP headers, as a new `CBlockHeader` has them. -/
structure MtpFields where
  nVersionMTP : Int32 := 0x1000
  mtpHashValue : Uint256 := 0
  reserved : Uint256 × Uint256 := (0, 0)

structure CBlockHeader extends HeaderFields, MtpFields where
  hashPrevBlock : Uint256
  /-- The bytes of the `CMTPHashData`. -/
  mtpHashData : Option (List UInt8) := none

structure CBlockIndex extends HeaderFields, MtpFields where
  /-- The hash of the predecessor. -/
  pprev : Option Uint256

structure HeaderParams where
  nMTPSwitchTime : UInt32
  /-- `lyra2z_hash` of the first 80 bytes, which end with `nNonce`. -/
  lyra2z : Uint256 → HeaderFields → Uint256
  checkProofOfWork : Uint256 → UInt32 → Bool

def ZC_GENESIS_BLOCK_TIME : UInt32 := 1539907200

/-- What a stream is made of. -/
inductive Word
  | int32 (n : Int32)
  | uint32 (n : UInt32)
  | hash (h : Uint256)
  | bytes (data : List UInt8)

section Copies

variable (params : HeaderParams)

def isMTP (nTime : UInt32) : Bool :=
  decide (ZC_GENESIS_BLOCK_TIME < nTime) && decide (params.nMTPSwitchTime ≤ nTime)

/-- The fields that are copied when the time is that of an MTP header. -/
def ifMTP (nTime : UInt32) (mtp unset : MtpFields) : MtpFields :=
  if isMTP params nTime then mtp else unset

def CBlockHeader.getHash (header : CBlockHeader) : Uint256 :=
  params.lyra2z header.hashPrevBlock header.toHeaderFields

def CBlockHeader.getPoWHash (header : CBlockHeader) : Uint256 :=
  if isMTP params header.nTime then header.mtpHashValue else header.getHash params

def CBlock.getBlockHeader (block : CBlockHeader) : CBlockHeader :=
  let header : CBlockHeader := ⟨block.toHeaderFields, {}, block.hashPrevBlock, none⟩
  if isMTP params header.nTime then
    { header with
      nVersionMTP := block.nVersionMTP
      mtpHashData := block.mtpHashData
      reserved := block.reserved }
  else header

/-- The constructor of `CBlockIndex`, and the same steps in `LoadBlockIndexGuts`.  There
    is no predecessor with a null hash. -/
def CBlockIndex.ofFields (hashPrev : Uint256) (fields : HeaderFields) (mtp : MtpFields) :
    CBlockIndex where
  toHeaderFields := fields
  toMtpFields := ifMTP params fields.nTime mtp { nVersionMTP := 0 }
  pprev := if hashPrev = 0 then none else some hashPrev

def CBlockIndex.getBlockHeader (index : CBlockIndex) : CBlockHeader where
  toHeaderFields := index.toHeaderFields
  toMtpFields := ifMTP params index.nTime index.toMtpFields {}
  hashPrevBlock := index.pprev.getD 0

/-! ## Streams -/

/-- What `CBlockHeader` and `CDiskBlockIndex` write. -/
def writeFields (hashPrev : Uint256) (fields : HeaderFields) (mtp : MtpFields)
    (data : List Word) : List Word :=
  [.int32 fields.nVersion, .hash hashPrev, .hash fields.hashMerkleRoot, .uint32 fields.nTime,
    .uint32 fields.nBits, .uint32 fields.nNonce] ++
    if isMTP params fields.nTime then
      [.int32 mtp.nVersionMTP, .hash mtp.mtpHashValue, .hash mtp.reserved.1,
        .hash mtp.reserved.2] ++ data
    else []

/-- What `CReadBlockHeader` and `CDiskBlockIndex` read, over the given MTP fields. -/
def readFields (unset : MtpFields) : List Word → Option (Uint256 × HeaderFields × MtpFields)
  | .int32 nVersion :: .hash hashPrev :: .hash root :: .uint32 nTime :: .uint32 nBits ::
      .uint32 nNonce :: s =>
    let fields : HeaderFields := ⟨nVersion, root, nTime, nBits, nNonce⟩
    if isMTP params nTime then
      match s with
      | .int32 nVersionMTP :: .hash value :: .hash first :: .hash second :: _ =>
        some (hashPrev, fields, ⟨nVersionMTP, value, first, second⟩)
      | _ => none
    else some (hashPrev, fields, unset)
  | _ => none

def CBlockHeader.write (header : CBlockHeader) : List Word :=
  writeFields params header.hashPrevBlock header.toHeaderFields header.toMtpFields
    (header.mtpHashData.toList.map .bytes)

/-- `CDiskBlockIndex::SerializationOp`. -/
def CBlockIndex.write (index : CBlockIndex) : List Word :=
  writeFields params (index.pprev.getD 0) index.toHeaderFields index.toMtpFields []

def readBlockHeader (s : List Word) : Option CBlockHeader :=
  (readFields params {} s).map (fun (hashPrev, fields, mtp) => ⟨fields, mtp, hashPrev, none⟩)

/-- One record of `LoadBlockIndexGuts`. -/
def loadBlockIndexGuts (record : List Word) : Option CBlockIndex := do
  let (hashPrev, fields, mtp) ← readFields params { nVersionMTP := 0 } record
  let index := CBlockIndex.ofFields params hashPrev fields mtp
  let powHash := (index.getBlockHeader params).getPoWHash params
  if params.checkProofOfWork powHash index.nBits then some index else none

/-! ## Agreement -/

/-- The header of a stored block.  Only MTP headers are read with MTP fields. -/
structure StoredHeader extends CBlockHeader where
  unread : isMTP params nTime = false → toMtpFields = {}
  proved : params.checkProofOfWork (toCBlockHeader.getPoWHash params) nBits = true

def StoredHeader.index (h : StoredHeader params) : CBlockIndex :=
  .ofFields params h.hashPrevBlock h.toHeaderFields h.toMtpFields

/-- All fields but the proof data. -/
def CBlockHeader.fields (header : CBlockHeader) : CBlockHeader :=
  { header with mtpHashData := none }

structure CopyOf (original copy : CBlockHeader) : Prop where
  fields : copy.fields = original.fields
  hash : copy.getHash params = original.getHash params
  powHash : copy.getPoWHash params = original.getPoWHash params

/-- The copies of the block, of its index entry, of the entry after a restart and of the
    message that is then sent. -/
structure CopiesAgree (h : StoredHeader params) : Prop where
  block : CopyOf params h.toCBlockHeader (CBlock.getBlockHeader params h.toCBlockHeader)
  index : CopyOf params h.toCBlockHeader (h.index.getBlockHeader params)
  disk : ∃ index, loadBlockIndexGuts params (h.index.write params) = some index ∧
    CopyOf params h.toCBlockHeader (index.getBlockHeader params) ∧
    ∃ copy, readBlockHeader params ((index.getBlockHeader params).write params) = some copy ∧
      CopyOf params h.toCBlockHeader copy

end Copies

variable {params : HeaderParams}

lemma CopyOf.of_fields {original copy : CBlockHeader} (h : copy.fields = original.fields) :
    CopyOf params original copy := by
  -- neither hash looks at the proof data
  have hhash := congrArg (CBlockHeader.getHash params) h
  have hpow := congrArg (CBlockHeader.getPoWHash params) h
  exact ⟨h, hhash, hpow⟩

lemma readFields_writeFields (unset : MtpFields) (hashPrev : Uint256) (fields : HeaderFields)
    (mtp : MtpFields) (data : List Word) :
    readFields params unset (writeFields params hashPrev fields mtp data) =
      some (hashPrev, fields, ifMTP params fields.nTime mtp unset) := by
  unfold writeFields ifMTP
  cases hmtp : isMTP params fields.nTime with
  | false => simp only [List.cons_append, readFields, hmtp, Bool.false_eq_true, if_false]
  | true => simp only [List.cons_append, List.nil_append, readFields, hmtp, if_true]

lemma ifMTP_ifMTP (nTime : UInt32) (mtp m m' : MtpFields) :
    ifMTP params nTime (ifMTP params nTime mtp m) m' = ifMTP params nTime mtp m' := by
  unfold ifMTP
  split_ifs <;> rfl

namespace StoredHeader

variable (h : StoredHeader params)

lemma ifMTP_self : ifMTP params h.nTime h.toMtpFields {} = h.toMtpFields := by
  unfold ifMTP
  split_ifs with hmtp
  · rfl
  · exact (h.unread (Bool.not_eq_true _ ▸ hmtp)).symm

lemma pprev_index : h.index.pprev.getD 0 = h.hashPrevBlock := by
  show (if h.hashPrevBlock = 0 then none else some h.hashPrevBlock).getD 0 = _
  split_ifs with hnull
  · exact hnull.symm
  · rfl

lemma copyOf_index : CopyOf params h.toCBlockHeader (h.index.getBlockHeader params) := by
  apply CopyOf.of_fields
  unfold CBlockIndex.getBlockHeader
  rw [pprev_index]
  unfold index CBlockIndex.ofFields
  rw [ifMTP_ifMTP, ifMTP_self]
  rfl

/-- The loader finds the entry that was written. -/
lemma load_index : loadBlockIndexGuts params (h.index.write params) = some h.index := by
  unfold loadBlockIndexGuts CBlockIndex.write
  rw [readFields_writeFields, pprev_index]
  have hindex : CBlockIndex.ofFields params h.hashPrevBlock h.index.toHeaderFields
      (ifMTP params h.index.nTime h.index.toMtpFields { nVersionMTP := 0 }) = h.index := by
    unfold index CBlockIndex.ofFields
    rw [ifMTP_ifMTP, ifMTP_ifMTP]
  dsimp only [Option.bind_eq_bind, Option.bind_some]
  rw [hindex, h.copyOf_index.powHash]
  exact if_pos h.proved

lemma read_message : readBlockHeader params ((h.index.getBlockHeader params).write params) =
    some (h.index.getBlockHeader params) := by
  rw [readBlockHeader, CBlockHeader.write, readFields_writeFields]
  unfold CBlockIndex.getBlockHeader
  rw [ifMTP_ifMTP]
  rfl

/-- Every copy but the one of the block agrees, and that one does unless there is a value
    that it leaves out. -/
theorem copies_agree_iff :
    CopiesAgree params h ↔ (isMTP params h.nTime = true → h.mtpHashValue = 0) := by
  constructor
  · intro hagree hmtp
    have hvalue := congrArg (·.mtpHashValue) hagree.block.fields
    unfold CBlock.getBlockHeader at hvalue
    dsimp only at hvalue
    rw [if_pos hmtp] at hvalue
    exact hvalue.symm
  · intro hvalue
    refine ⟨.of_fields ?_, h.copyOf_index, h.index, h.load_index, h.copyOf_index, _,
      h.read_message, h.copyOf_index⟩
    unfold CBlock.getBlockHeader CBlockHeader.fields
    dsimp only
    split_ifs with hmtp
    · rw [← hvalue hmtp]
    · rw [h.unread (Bool.not_eq_true _ ▸ hmtp)]

end StoredHeader

/-- The times of the main network, with small hashes. -/
def sampleParams : HeaderParams where
  nMTPSwitchTime := 1570701600
  lyra2z := fun _ fields => fields.hashMerkleRoot
  checkProofOfWork := fun hash _ => decide (hash < 9)

def minedHeader : StoredHeader sampleParams where
  nVersion := 2
  hashMerkleRoot := 5
  nTime := 1570701601
  nBits := 0
  nNonce := 0
  mtpHashValue := 7
  hashPrevBlock := 4
  mtpHashData := some []
  unread := nofun
  proved := by decide

/-- The header in a `CMerkleBlock` has lost its proof of work. -/
theorem mtpHashValue_left_out : minedHeader.getPoWHash sampleParams = 7 ∧
    (CBlock.getBlockHeader sampleParams minedHeader.toCBlockHeader).getPoWHash sampleParams = 0 ∧
    ¬ CopiesAgree sampleParams minedHeader :=
  ⟨by decide, by decide, fun hagree => absurd hagree.block.powHash (by decide)⟩

end Tecracoin.Headers
