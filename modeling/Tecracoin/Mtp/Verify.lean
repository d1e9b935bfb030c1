/-
  `mtp_verify` (`crypto/MerkleTreeProof/mtp.cpp`) and the positions that its steps open.

  But for the first two of a lane, a block is filled from the one before it and from one
  that is constructed already. The prover passes over a nonce that challenges one of the
  first two; the verifier computes positions for these as for the others.
-/
import Tecracoin.Mtp.MerkleProof

namespace Tecracoin.Mtp

/-- The number of steps. -/
def MTP_L : Nat := 16

def LANES : Nat := 4

def ARGON2_SYNC_POINTS : Nat := 4

def segmentLength : Nat := M_COST / (LANES * ARGON2_SYNC_POINTS)

def laneLength : Nat := segmentLength * ARGON2_SYNC_POINTS

/-! ## Positions -/

/-- A difference of unsigned numbers. -/
def sub (width a b : Nat) : Nat := (a + 2 ^ width - b) % 2 ^ width

structure Position where
  pass : Nat
  lane : Nat
  slice : Nat
  index : Nat

def referenceAreaSize (position : Position) (sameLane : Bool) : Nat :=
  if position.pass = 0 then
    if position.slice = 0 then sub 32 position.index 1
    else if sameLane then sub 32 (position.slice * segmentLength + position.index) 1
    else sub 32 (position.slice * segmentLength) (if position.index = 0 then 1 else 0)
  else if sameLane then sub 32 (laneLength - segmentLength + position.index) 1
  else sub 32 (laneLength - segmentLength) (if position.index = 0 then 1 else 0)

/-- The number is mapped to `0 .. size - 1`, small numbers to the end. -/
def relativePosition (size pseudoRand : Nat) : Nat :=
  sub 64 (sub 32 size 1) (size * (pseudoRand * pseudoRand / 2 ^ 32) / 2 ^ 32)

def indexBeta (position : Position) (pseudoRand : Nat) (sameLane : Bool) : Nat :=
  let start := if position.pass = 0 ∨ position.slice = ARGON2_SYNC_POINTS - 1 then 0
    else (position.slice + 1) * segmentLength
  (start + relativePosition (referenceAreaSize position sameLane) pseudoRand) % laneLength

/-- `ij_prev`. -/
def ijPrev (ij : Nat) : Nat :=
  if ij % laneLength = 1 then ij - 1
  else if ij % laneLength = 0 then ij + laneLength - 1 else ij - 1

/-- `computed_ref_block`, from the first word of the previous block. -/
def computedRefBlock (ij prevBlockOpening : Nat) : Nat :=
  let lane := ij / laneLength
  let slice := (ij - lane * laneLength) / segmentLength
  let posIndex := ij - lane * laneLength - slice * segmentLength
  let refLane := if slice = 0 then lane else prevBlockOpening / 2 ^ 32 % LANES
  laneLength * refLane +
    indexBeta ⟨0, lane, slice, posIndex⟩ (prevBlockOpening % 2 ^ 32) (decide (refLane = lane))

/-- `init_blocks` of `mtp_hash1`. -/
def initBlock (ij : Nat) : Bool :=
  decide (ij % (M_COST / LANES) = 0) || decide (ij % (M_COST / LANES) = 1)

/-! ## The verifier -/

/-- `SetCompact`: the number, and whether it is negative or too large. -/
def setCompact (nCompact : Nat) : Nat × Bool × Bool :=
  let nSize := nCompact / 2 ^ 24
  let nWord := if nSize ≤ 3 then nCompact % 2 ^ 23 / 2 ^ (8 * (3 - nSize)) else nCompact % 2 ^ 23
  (nWord * 2 ^ (8 * (nSize - 3)) % 2 ^ 256, decide (nWord ≠ 0 ∧ nCompact / 2 ^ 23 % 2 = 1),
    decide (nWord ≠ 0 ∧ (34 < nSize ∨ 0xff < nWord ∧ 33 < nSize ∨ 0xffff < nWord ∧ 32 < nSize)))

/-- Blake2b and the functions of Argon2. -/
structure Library (Block D : Type) where
  /-- The word `v[0]`. -/
  opening : Block → Nat
  computeBlake2b : Block → D
  combinedHash : D → D → D
  initialHash : List UInt8 → List UInt8
  fillBlockMtp : Block → Block → Nat → List UInt8 → Block
  firstY : List UInt8 → D → Nat → Nat
  nextY : Nat → Block → Nat

/-- What `mtp_verify` is called with. -/
structure Submission (Block D : Type) where
  input : List UInt8
  target : Nat
  hashRootMtp : D
  nonce : Nat
  blockMtp : Nat → Block
  proofMtp : Nat → List D
  powLimit : Nat

namespace Submission

variable {Block D : Type} [DecidableEq D] (lib : Library Block D) (p : Submission Block D)

/-- `block_ij` of step `j`; the steps are counted from 0. -/
def blockIj (j ij : Nat) : Block :=
  lib.fillBlockMtp (p.blockMtp (2 * j)) (p.blockMtp (2 * j + 1))
    (computedRefBlock ij (lib.opening (p.blockMtp (2 * j)))) (lib.initialHash p.input)

/-- The array `y`. -/
def y : Nat → Nat
  | 0 => lib.firstY p.input p.hashRootMtp p.nonce
  | j + 1 => lib.nextY (y j) (p.blockIj lib j (y j % M_COST))

/-- The challenged position of step `j`. -/
def ij (j : Nat) : Nat := p.y lib j % M_COST

/-- The position of the reference block of step `j`. -/
def ijRef (j : Nat) : Nat := computedRefBlock (p.ij lib j) (lib.opening (p.blockMtp (2 * j)))

def stepPasses (j : Nat) : Bool :=
  checkProofOrdered lib.combinedHash (p.proofMtp (3 * j + 1)) p.hashRootMtp
      (lib.computeBlake2b (p.blockMtp (2 * j))) (ijPrev (p.ij lib j) + 1) &&
    checkProofOrdered lib.combinedHash (p.proofMtp (3 * j + 2)) p.hashRootMtp
      (lib.computeBlake2b (p.blockMtp (2 * j + 1))) (p.ijRef lib j + 1) &&
    checkProofOrdered lib.combinedHash (p.proofMtp (3 * j)) p.hashRootMtp
      (lib.computeBlake2b (p.blockIj lib j (p.ij lib j))) (p.ij lib j + 1)

def mtpVerify : Bool :=
  let (bnTarget, negative, overflow) := setCompact p.target
  (List.range MTP_L).all (p.stepPasses lib) &&
    !(negative || decide (bnTarget = 0) || overflow || decide (p.powLimit < bnTarget) ||
      decide (bnTarget < p.y lib MTP_L))

end Submission

/-! ## The filling rule -/

/-- The block at `ij` is filled from the one before it in its lane and from one that is constructed
    already: of its lane all but the previous one, of the others the finished slices. -/
structure Filled (ij prev ref : Nat) : Prop where
  notInit : 2 ≤ ij % laneLength
  prev : prev + 1 = ij ∧ prev / laneLength = ij / laneLength
  sameLane : ref / laneLength = ij / laneLength → ref < ij - 1
  otherLane : ref / laneLength ≠ ij / laneLength → ref / laneLength < LANES ∧
    ref % laneLength / segmentLength < ij % laneLength / segmentLength

variable {size pseudoRand : Nat}

lemma relativePosition_lt (hsize : 0 < size) (hmax : size < 2 ^ 32)
    (hrand : pseudoRand < 2 ^ 32) : relativePosition size pseudoRand < size := by
  have hsquare : pseudoRand * pseudoRand / 2 ^ 32 < 2 ^ 32 :=
    Nat.div_lt_of_lt_mul (Nat.mul_lt_mul'' hrand hrand)
  have hshare : size * (pseudoRand * pseudoRand / 2 ^ 32) / 2 ^ 32 < size := by
    refine Nat.div_lt_of_lt_mul ?_
    rw [Nat.mul_comm (2 ^ 32)]
    exact Nat.mul_lt_mul_of_pos_left hsquare hsize
  unfold relativePosition sub
  omega

/-- In the first pass the reference lies in the area. -/
lemma indexBeta_lt {lane slice index : Nat} {sameLane : Bool}
    (hsize : referenceAreaSize ⟨0, lane, slice, index⟩ sameLane = size) (hpos : 0 < size)
    (hmax : size < 2 ^ 32) (hrand : pseudoRand < 2 ^ 32) :
    indexBeta ⟨0, lane, slice, index⟩ pseudoRand sameLane < size := by
  have hrelative := relativePosition_lt hpos hmax hrand
  simp only [indexBeta, hsize, true_or, if_true, Nat.zero_add]
  exact (Nat.mod_le _ _).trans_lt hrelative

lemma initBlock_eq_false_iff {ij : Nat} : initBlock ij = false ↔ 2 ≤ ij % laneLength := by
  have hlane : M_COST / LANES = laneLength := by decide
  rw [initBlock, hlane, Bool.or_eq_false_iff, decide_eq_false_iff_not, decide_eq_false_iff_not]
  omega

/-- Past the first two blocks of a lane the computed positions follow the rule. -/
lemma filled_of_notInit {ij : Nat} {opening : Nat} (hij : 2 ≤ ij % laneLength) :
    Filled ij (ijPrev ij) (computedRefBlock ij opening) := by
  have hlane : laneLength = 1048576 := by decide
  have hsegment : segmentLength = 262144 := by decide
  have hrand : opening % 2 ^ 32 < 2 ^ 32 := Nat.mod_lt _ (by decide)
  have hprev : ijPrev ij = ij - 1 := by
    unfold ijPrev
    split_ifs <;> omega
  simp only [computedRefBlock]
  generalize hlanes : ij / laneLength = lane
  generalize hslice : (ij - lane * laneLength) / segmentLength = slice
  generalize hindex : ij - lane * laneLength - slice * segmentLength = index
  generalize href : (if slice = 0 then lane else opening / 2 ^ 32 % LANES) = refLane
  have hfirst := hij
  rw [hlane] at hfirst hlanes hslice hindex
  rw [hsegment] at hslice hindex
  by_cases hsame : refLane = lane
  · -- all blocks of the lane before the previous one
    have hsize : referenceAreaSize ⟨0, lane, slice, index⟩ (decide (refLane = lane))
        = ij - lane * 1048576 - 1 := by
      simp only [referenceAreaSize, decide_eq_true hsame, if_true, sub, hsegment]
      split_ifs <;> omega
    have hlt := indexBeta_lt hsize (by omega) (by omega) hrand
    refine ⟨hij, ?_, fun _ => ?_, fun hother => absurd ?_ hother⟩ <;> rw [hlane] <;> omega
  · have hslices : slice ≠ 0 := fun hzero => hsame (by rw [← href, if_pos hzero])
    have hlanes' : refLane < LANES := by
      rw [← href, if_neg hslices]
      exact Nat.mod_lt _ (by decide)
    -- the slices before this one, without their last block at its start
    have hsize : referenceAreaSize ⟨0, lane, slice, index⟩ (decide (refLane = lane))
        = slice * 262144 - if index = 0 then 1 else 0 := by
      simp only [referenceAreaSize, decide_eq_false hsame, if_true, if_neg hslices, sub, hsegment,
        Bool.false_eq_true, if_false]
      split_ifs <;> omega
    have hlt := indexBeta_lt hsize (by split_ifs <;> omega) (by split_ifs <;> omega) hrand
    refine ⟨hij, ?_, fun hsame' => absurd ?_ hsame, fun _ => ⟨?_, ?_⟩⟩
    · rw [hlane]
      omega
    · rw [hlane] at hsame'
      omega
    · rw [hlane]
      omega
    · rw [hlane, hsegment]
      omega

variable {Block D : Type} [DecidableEq D]

/-- The steps of an accepted input follow the filling rule exactly if none of them is challenged at
    one of the first two blocks of a lane. -/
theorem mtpVerify_filled_iff (lib : Library Block D) (p : Submission Block D) :
    (p.mtpVerify lib = true →
        ∀ j < MTP_L, Filled (p.ij lib j) (ijPrev (p.ij lib j)) (p.ijRef lib j)) ↔
      (p.mtpVerify lib = true → ∀ j < MTP_L, initBlock (p.ij lib j) = false) := by
  refine forall_congr' (fun _ => forall₂_congr (fun j _ => ?_))
  rw [initBlock_eq_false_iff]
  exact ⟨Filled.notInit, filled_of_notInit⟩

/-- Functions that are zero everywhere. -/
def zeroLibrary : Library Unit Unit :=
  ⟨fun _ => 0, fun _ => (), fun _ _ => (), id, fun _ _ _ _ => (), fun _ _ _ => 0, fun _ _ => 0⟩

/-- All challenges are at the first block of the first lane. -/
def zeroSubmission : Submission Unit Unit :=
  ⟨[], 0x03000001, (), 0, fun _ => (), fun _ => [], 1⟩

/-- A challenge at the first block of a lane is accepted, with the last block of the lane as the
    previous one. -/
theorem init_block_accepted :
    zeroSubmission.mtpVerify zeroLibrary = true ∧ zeroSubmission.ij zeroLibrary 0 = 0 ∧
      ijPrev 0 = 1048575 ∧
      ¬Filled 0 (ijPrev 0) (zeroSubmission.ijRef zeroLibrary 0) := by
  refine ⟨by decide +kernel, by decide, by decide, fun hfilled => ?_⟩
  exact absurd hfilled.notInit (by decide)

end Tecracoin.Mtp
