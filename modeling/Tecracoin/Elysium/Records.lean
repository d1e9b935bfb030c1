/-
  The databases of trades and of transactions (`CMPTradeList` and `CMPTxList` of
  `elysium.cpp`) and what a reorganisation deletes from them.

  A value is a text of fields between colons.  It is modelled by the list of its
  fields: none is empty and none has a colon, so that `boost::split` finds them.
-/
import Tecracoin.Elysium.Ledger

namespace Tecracoin.Elysium

open Data List

/-- A field: a text, or a number in decimal digits. -/
inductive Field
  | text (s : Text)
  | number (n : Int)
deriving DecidableEq

/-- `atoi`: a `long`, cut down to an `int`. -/
def atoi : Field → Int32
  | .number n => .ofInt n
  | .text s =>
    let digits := (s.takeWhile Char.isDigit).foldl (fun n c => 10 * n + (c.toNat - 48)) 0
    .ofNat (min digits (2 ^ 63 - 1))

lemma atoi_number (n : Int32) : atoi (.number n.toInt) = n := Int32.ofInt_toInt n

/-- A record with its key: `txid` for a trade, `txid1+txid2` for a match. -/
inductive TradeRecord
  | trade (txid : Uint256) (address : Address) (propertyIdForSale propertyIdDesired : PropertyId)
      (blockNum : Int32) (blockIndex : Int)
  | matched (txid1 txid2 : Uint256) (address1 address2 : Address) (prop1 prop2 : PropertyId)
      (amount1 amount2 : Nat) (blockNum : Int32) (fee : Int)
deriving DecidableEq

namespace TradeRecord

def blockNum : TradeRecord → Int32
  | trade _ _ _ _ blockNum _ => blockNum
  | matched _ _ _ _ _ _ _ _ blockNum _ => blockNum

/-- The value `recordNewTrade` or `recordMatchedTrade` writes. -/
def value : TradeRecord → List Field
  | trade _ address propertyIdForSale propertyIdDesired blockNum blockIndex =>
    [.text address, .number propertyIdForSale, .number propertyIdDesired, .number blockNum.toInt,
      .number blockIndex]
  | matched _ _ address1 address2 prop1 prop2 amount1 amount2 blockNum fee =>
    [.text address1, .text address2, .number prop1, .number prop2, .number amount1,
      .number amount2, .number blockNum.toInt, .number fee]

/-- The block for a value, or the one of the iteration before. -/
def blockOf (block : Int32) : List Field → Int32
  | [_, _, _, _, _, _, field] => atoi field
  | [_, _, _, field, _] => atoi field
  | _ => block

/-- The loop of `deleteAboveBlock`, in the order of the iterator: how many records are deleted, and
    the others. -/
def deleteFrom (blockNum : Int32) : Int32 → List TradeRecord → Nat × List TradeRecord
  | _, [] => (0, [])
  | block, record :: records =>
    let rest := deleteFrom blockNum (blockOf block record.value) records
    if blockNum ≤ blockOf block record.value then (rest.1 + 1, rest.2)
    else (rest.1, record :: rest.2)

def deleteAboveBlock (records : List TradeRecord) (blockNum : Int32) : Nat × List TradeRecord :=
  deleteFrom blockNum 0 records

/-- Each match is on the same side of the block as the last trade before it. -/
def MatchesFollow (blockNum : Int32) : Int32 → List TradeRecord → Prop
  | _, [] => True
  | _, trade _ _ _ _ block _ :: records => MatchesFollow blockNum block records
  | block, matched _ _ _ _ _ _ _ _ own _ :: records =>
    (blockNum ≤ block ↔ blockNum ≤ own) ∧ MatchesFollow blockNum block records

lemma deleteFrom_sublist (blockNum block : Int32) (records : List TradeRecord) :
    (deleteFrom blockNum block records).2.Sublist records := by
  fun_induction deleteFrom with
  | case1 => exact List.Sublist.slnil
  | case2 _ record _ _ _ ih => exact ih.cons record
  | case3 _ record _ _ _ ih => exact ih.cons_cons record

/-- The records that have to be kept. -/
def below (blockNum : Int32) (records : List TradeRecord) : List TradeRecord :=
  records.filter (fun record => !decide (blockNum ≤ record.blockNum))

/-- One record: it is treated as it should be, and so are the others. -/
lemma kept_cons_iff {blockNum block : Int32} {record : TradeRecord}
    {kept records : List TradeRecord} (hkept : kept.Sublist records) :
    (if blockNum ≤ block then kept else record :: kept) = below blockNum (record :: records) ↔
      (blockNum ≤ block ↔ blockNum ≤ record.blockNum) ∧ kept = below blockNum records := by
  by_cases hown : blockNum ≤ record.blockNum
  · have hbelow : below blockNum (record :: records) = below blockNum records :=
      filter_cons_of_neg (by simpa using hown)
    rw [hbelow, iff_true_right hown]
    split_ifs with hblock
    · exact (and_iff_right hblock).symm
    · refine iff_of_false (fun heq => ?_) (fun h => hblock h.1)
      have hmem := (mem_filter.mp (heq ▸ mem_cons_self)).2
      exact absurd hown (by simpa using hmem)
  · have hbelow : below blockNum (record :: records) = record :: below blockNum records :=
      filter_cons_of_pos (by simpa using hown)
    rw [hbelow, iff_false_right hown]
    split_ifs with hblock
    · refine iff_of_false (fun heq => ?_) (fun h => h.1 hblock)
      -- what is kept would be longer than what is to be kept
      have hall : below blockNum kept = kept := by
        refine filter_eq_self.mpr (heq ▸ forall_mem_cons.mpr ⟨by simpa using hown, ?_⟩)
        exact fun r hr => (mem_filter.mp hr).2
      have hlength : (below blockNum kept).length ≤ (below blockNum records).length :=
        (hkept.filter _).length_le
      rw [hall, heq, length_cons] at hlength
      omega
    · rw [cons_inj_right, and_iff_right hblock]

/-- For every order of the records, exactly those of blocks at or above the given one are deleted if
    and only if the matches follow their trades. -/
lemma deleteFrom_eq_iff (blockNum block : Int32) (records : List TradeRecord) :
    (deleteFrom blockNum block records).2 = below blockNum records ↔
      MatchesFollow blockNum block records := by
  induction records generalizing block with
  | nil => simp [deleteFrom, below, MatchesFollow]
  | cons record records ih =>
    rw [deleteFrom, apply_ite Prod.snd, kept_cons_iff (deleteFrom_sublist _ _ records), ih]
    cases record with
    | trade txid address sale desired own index =>
      have hblock : blockOf block (trade txid address sale desired own index).value = own :=
        atoi_number own
      rw [hblock]
      exact and_iff_right Iff.rfl
    | matched => exact Iff.rfl

theorem deleteAboveBlock_exact_iff (records : List TradeRecord) (blockNum : Int32) :
    (deleteAboveBlock records blockNum).2 = below blockNum records ↔
      MatchesFollow blockNum 0 records :=
  deleteFrom_eq_iff blockNum 0 records

/-- Two trades, and their match in the second one's block between them. -/
def sampleTrades : List TradeRecord :=
  [.trade 1 ['A'] 3 4 100 1, .matched 1 2 ['B'] ['A'] 4 3 5 5 200 0, .trade 2 ['B'] 4 3 200 1]

theorem match_not_deleted : (deleteAboveBlock sampleTrades 200).2 ≠ below 200 sampleTrades := by
  decide +kernel

end TradeRecord

/-! ## Transactions -/

/-- A key: `txid` or `txid-C`, and with a number behind it that of a sub record. -/
structure TxKey where
  txid : Uint256
  cancel : Bool
  sub : Option Int
deriving DecidableEq

abbrev TxList := StdMap TxKey (List Field)

namespace TxList

/-- `pdb->Put`. -/
def put (db : TxList) : TxKey → List Field → TxList := StdMap.set StdMap.unordered db

/-- The value of the record of a transaction itself. -/
def master (fValid : Bool) (nBlock : Int32) (type : Nat) (nValue : Int) : List Field :=
  [.number fValid.toInt, .number nBlock.toInt, .number type, .number nValue]

/-- The number of a further sub record, from the fourth field of the master record. -/
def nextNumber (db : TxList) (key : TxKey) : Int :=
  match db.get? key with
  | some (_ :: _ :: _ :: field :: _) => (atoi field).toInt + 1
  | _ => 1

/-- The calls that write records. -/
inductive Call
  | recordTX (txid : Uint256) (fValid : Bool) (type nValue : Nat)
  | recordPaymentTX (txid : Uint256) (fValid : Bool) (vout : Nat) (propertyId : PropertyId)
      (nValue : Nat) (buyer seller : Address)
  /-- `txidSub` in hexadecimal digits. -/
  | recordMetaDExCancelTX (txidMaster : Uint256) (txidSub : Text) (fValid : Bool)
      (propertyId : PropertyId) (nValue : Nat)
  | recordSendAllSubRecord (txid : Uint256) (subRecordNumber : Int) (propertyId : PropertyId)
      (nValue : Int)

-- the block of a transaction, and the range
variable (nBlock : Uint256 → Int32) (startingBlock endingBlock : Int32)

def write (db : TxList) : Call → TxList
  | .recordTX txid fValid type nValue =>
    db.put ⟨txid, false, none⟩ (master fValid (nBlock txid) type nValue)
  | .recordPaymentTX txid fValid vout propertyId nValue buyer seller =>
    let number := db.nextNumber ⟨txid, false, none⟩
    (db.put ⟨txid, false, none⟩ (master fValid (nBlock txid) 99999999 (number % 2 ^ 64))).put
      ⟨txid, false, some (number % 2 ^ 32)⟩
      [.number vout, .text buyer, .text seller, .number propertyId, .number nValue]
  | .recordMetaDExCancelTX txid txidSub fValid propertyId nValue =>
    let refNumber := db.nextNumber ⟨txid, true, none⟩ % 2 ^ 32
    (db.put ⟨txid, true, none⟩ (master fValid (nBlock txid) 99992104 refNumber)).put
      ⟨txid, true, some refNumber⟩ [.text txidSub, .number propertyId, .number nValue]
  | .recordSendAllSubRecord txid subRecordNumber propertyId nValue =>
    db.put ⟨txid, false, some subRecordNumber⟩ [.number propertyId, .number nValue]

def written (calls : List Call) : TxList := calls.foldl (write nBlock) StdMap.empty

/-- The second field of a value is a block in the range. -/
def found : List Field → Bool
  | _ :: field :: _ => startingBlock ≤ atoi field && atoi field ≤ endingBlock
  | _ => false

def isMPinBlockRange (bDeleteFound : Bool) (db : TxList) : Bool × TxList :=
  let keys := (db.entries.filter (fun e => found startingBlock endingBlock e.2)).map Prod.fst
  (!keys.isEmpty, if bDeleteFound then keys.foldl StdMap.erase db else db)

/-- Exactly the records of transactions in the range are gone. -/
def DeletesExactly (db : TxList) : Prop :=
  ∀ key, (isMPinBlockRange startingBlock endingBlock true db).2.get? key =
    if startingBlock ≤ nBlock key.txid ∧ nBlock key.txid ≤ endingBlock then none else db.get? key

variable {nBlock} {db : TxList} {key : TxKey} {value : List Field}

lemma get?_deleted (db : TxList) (key : TxKey) :
    (isMPinBlockRange startingBlock endingBlock true db).2.get? key =
      if (db.get? key).any (found startingBlock endingBlock) then none else db.get? key := by
  rw [isMPinBlockRange, if_pos rfl, StdMap.get?_foldl_erase]
  refine if_congr ?_ rfl rfl
  rw [Option.any_eq_true]
  simp [StdMap.get?_eq_some_iff]

/-- The record of a transaction itself has the block of the transaction. -/
def Masters (nBlock : Uint256 → Int32) (db : TxList) : Prop :=
  ∀ key value, db.get? key = some value → key.sub = none →
    ∃ fValid type nValue, value = master fValid (nBlock key.txid) type nValue

lemma Masters.put (h : Masters nBlock db) (hvalue : key.sub = none →
      ∃ fValid type nValue, value = master fValid (nBlock key.txid) type nValue) :
    Masters nBlock (db.put key value) := by
  intro key' value' hget
  rcases StdMap.get?_set_eq_some hget with ⟨rfl, rfl⟩ | ⟨-, hget⟩
  · exact hvalue
  · exact h key' value' hget

lemma masters_written (calls : List Call) : Masters nBlock (written nBlock calls) := by
  refine List.foldlRecOn calls _ nofun (fun db h call _ => ?_)
  cases call with
  | recordTX => exact h.put (fun _ => ⟨_, _, _, rfl⟩)
  | recordPaymentTX | recordMetaDExCancelTX =>
    exact (h.put (fun _ => ⟨_, _, _, rfl⟩)).put nofun
  | recordSendAllSubRecord => exact h.put nofun

/-- Exactly the records of transactions in the range are deleted if and only if the second field of
    each sub record is in the range when its transaction is. -/
theorem isMPinBlockRange_exact_iff (nBlock : Uint256 → Int32) (calls : List Call) :
    DeletesExactly nBlock startingBlock endingBlock (written nBlock calls) ↔
      ∀ key value, key.sub ≠ none → (written nBlock calls).get? key = some value →
        (found startingBlock endingBlock value = true ↔
          startingBlock ≤ nBlock key.txid ∧ nBlock key.txid ≤ endingBlock) := by
  constructor
  · intro h key value _ hget
    have hkey := h key
    rw [get?_deleted, hget, Option.any_some] at hkey
    split_ifs at hkey with hfound hrange hrange
    · exact iff_of_true hfound hrange
    · exact iff_of_false hfound hrange
  · intro h key
    rw [get?_deleted]
    cases hget : (written nBlock calls).get? key with
    | none => rw [ite_self, ite_self]
    | some value =>
      refine if_congr ?_ rfl rfl
      by_cases hsub : key.sub = none
      · obtain ⟨fValid, type, nValue, rfl⟩ := masters_written calls key value hget hsub
        rw [Option.any_some, master, found, atoi_number, Bool.and_eq_true, decide_eq_true_eq,
          decide_eq_true_eq]
      · exact h key value hsub hget

/-- A transaction of block 5 that sends 100 tokens of property 3: the amount is no block of the
    range, and the sub record stays. -/
theorem sub_record_left_behind : ¬DeletesExactly (fun _ => 5) 5 5
    (written (fun _ => 5) [.recordSendAllSubRecord 7 1 3 100, .recordTX 7 true 4 1]) :=
  fun h => absurd (h ⟨7, false, some 1⟩) (by decide +kernel)

end TxList

end Tecracoin.Elysium
