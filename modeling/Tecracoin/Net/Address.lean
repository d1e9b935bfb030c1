/-
  `netaddress.cpp`: the service addresses of masternodes.

  The 16 address bytes are read as one number, most significant byte first, so
  byte `GetByte(n)` is the `n`-th from the right.  The scope of a link-local
  address is neither compared nor serialised and is left out.
-/
import Tecracoin.Consensus.Params

namespace Tecracoin

structure CService where
  ip : BitVec 128
  port : UInt16
deriving DecidableEq

namespace CService

/-- `CService()`. -/
def null : CService := ⟨0, 0⟩

variable (addr : CService)

def getByte (n : Nat) : Nat := addr.ip.toNat / 2 ^ (8 * n) % 2 ^ 8

/-- The first `n` bytes, for the comparisons by `memcmp`. -/
def leading (n : Nat) : Nat := addr.ip.toNat / 2 ^ (8 * (16 - n))

def isIPv4 : Bool := decide (addr.leading 12 = 0xffff)

def isTor : Bool := decide (addr.leading 6 = 0xfd87d87eeb43)

def isRFC1918 : Bool :=
  addr.isIPv4 &&
    (decide (addr.getByte 3 = 10) ||
      (decide (addr.getByte 3 = 192) && decide (addr.getByte 2 = 168)) ||
      (decide (addr.getByte 3 = 172) &&
        (decide (16 ≤ addr.getByte 2) && decide (addr.getByte 2 ≤ 31))))

def isRFC2544 : Bool :=
  addr.isIPv4 && decide (addr.getByte 3 = 198) &&
    (decide (addr.getByte 2 = 18) || decide (addr.getByte 2 = 19))

def isRFC3927 : Bool :=
  addr.isIPv4 && (decide (addr.getByte 3 = 169) && decide (addr.getByte 2 = 254))

def isRFC6598 : Bool :=
  addr.isIPv4 && decide (addr.getByte 3 = 100) && decide (64 ≤ addr.getByte 2) &&
    decide (addr.getByte 2 ≤ 127)

def isRFC5737 : Bool :=
  addr.isIPv4 &&
    ((decide (addr.getByte 3 = 192) && decide (addr.getByte 2 = 0) &&
        decide (addr.getByte 1 = 2)) ||
      (decide (addr.getByte 3 = 198) && decide (addr.getByte 2 = 51) &&
        decide (addr.getByte 1 = 100)) ||
      (decide (addr.getByte 3 = 203) && decide (addr.getByte 2 = 0) &&
        decide (addr.getByte 1 = 113)))

def isRFC3849 : Bool := decide (addr.leading 4 = 0x20010db8)

def isRFC4862 : Bool := decide (addr.leading 8 = 0xfe80000000000000)

def isRFC4193 : Bool := decide (addr.getByte 15 &&& 0xfe = 0xfc)

def isRFC4843 : Bool :=
  decide (addr.leading 3 = 0x200100) && decide (addr.getByte 12 &&& 0xf0 = 0x10)

def isLocal : Bool :=
  (addr.isIPv4 && (decide (addr.getByte 3 = 127) || decide (addr.getByte 3 = 0))) ||
    decide (addr.ip = 1)

def isValid : Bool :=
  -- an address shifted by three bytes
  if addr.leading 9 = 0xffff then false
  else if addr.ip = 0 then false
  else if addr.isRFC3849 then false
  else if addr.isIPv4 then
    decide (addr.ip.toNat % 2 ^ 32 ≠ 0xffffffff) && decide (addr.ip.toNat % 2 ^ 32 ≠ 0)
  else true

def isRoutable : Bool :=
  addr.isValid &&
    !(addr.isRFC1918 || addr.isRFC2544 || addr.isRFC3927 || addr.isRFC4862 || addr.isRFC6598 ||
      addr.isRFC5737 || (addr.isRFC4193 && !addr.isTor) || addr.isRFC4843 || addr.isLocal)

lemma ne_null_of_isValid {addr : CService} (h : addr.isValid = true) : addr ≠ null := by
  rintro rfl
  simp [isValid, null] at h

end CService

/-- `GetDefaultPort` of the main network. -/
def mainnetDefaultPort : UInt16 := 2718

end Tecracoin
