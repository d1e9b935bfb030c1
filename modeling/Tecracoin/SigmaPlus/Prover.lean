/-
  `R1ProofGenerator` and `SigmaPlusProver` (`sigma/r1_proof_generator.hpp`,
  `sigma/sigmaplus_prover.hpp`) as functions of the randomness they draw.

  The blinding factors of `A`, `C` and `D` are drawn again as long as the commitment is
  infinity; the list of the draws may be used up, which is the loop going on.
-/
import Tecracoin.SigmaPlus.Verifier

namespace Tecracoin.SigmaPlus

open List

/-- What the prover draws. -/
structure ProverCoins (F : Type) where
  rB : F
  /-- `Pk`. -/
  Pk : Nat → F
  /-- Entry `i` of row `j` of `a`, from the second entry on. -/
  a : Nat → Nat → F
  rA : List F
  rC : List F
  rD : List F

variable (n m : Nat)

section
variable {F G : Type} [Field F] [DecidableEq F] [AddCommGroup G] [DecidableEq G] [Module F G]

/-! ## The R1 proof -/

/-- A row of `a`: the first entry makes up for the others. -/
def blindingRow (n : Nat) (a : Nat → F) : List F :=
  (range (n - 1)).foldl (fun first i => first - a (i + 1)) 0 ::
    (range (n - 1)).map fun i => a (i + 1)

/-- `a_out`. -/
def blinding (coins : ProverCoins F) : List F :=
  ofRows m fun j => blindingRow n (coins.a j)

/-- `c` of `R1ProofGenerator::proof`. -/
def mixed (a b : List F) : List F :=
  (range (n * m)).map fun i => entry a i * (1 - 2 * entry b i)

/-- `d` of `R1ProofGenerator::proof`. -/
def negatedSquares (a : List F) : List F :=
  (range (n * m)).map fun i => -(entry a i * entry a i)

/-- The loop that draws a blinding factor until the commitment is not infinity. The commitment is
    added to the one of the last turn. -/
def drawUntil (commitment : F → G → G) : List F → G → Option (F × G)
  | [], _ => none
  | r :: draws, result =>
    let result := commitment r result
    if result = 0 then drawUntil commitment draws result else some (r, result)

/-- `f_` of `generate_final_response`. -/
def finalResponses (a b : List F) (x : F) : List F :=
  ofRows m fun j => (range (n - 1)).map fun i =>
    entry b (j * n + (i + 1)) * x + entry a (j * n + (i + 1))

/-! ## The polynomials -/

section

variable (sigma a : List F)

/-- `P_i_k[i]`: the coefficients of the product of the factors at the digits of `i`. -/
def coefficients (i : Nat) : List F :=
  let I := convertToNal i n m
  (range' 1 (m - 1)).foldl
    (fun c j => newFactor (entry sigma (j * n + I.getD j 0)) (entry a (j * n + I.getD j 0)) c)
    [entry a (I.getD 0 0), entry sigma (I.getD 0 0)]

/-- `partial_p_s` and the product of all factors at the digits `I`. -/
def partialProducts (I : List Nat) : List (List F) × List F :=
  (range m).reverse.foldl
    (fun state j => (state.1 ++ [state.2],
      newFactor (entry sigma (j * n + I.getD j 0)) (entry a (j * n + I.getD j 0)) state.2))
    ([], [1])

/-- `a_sum`: the blinding of a row after its digit in `I`. -/
def blindingSum (n : Nat) (a : List F) (I : List Nat) (j : Nat) : F :=
  (((range n).drop (I.getD j 0 + 1)).map fun i => entry a (j * n + i)).sum

/-- The loop that adds `polynomial[k]` to `p_i_sum[j + k]` for `k < count`. -/
def addShifted (p : List F) (polynomial : List F) (j count : Nat) : List F :=
  p.mapIdx fun i c => if j ≤ i ∧ i < j + count then c + entry polynomial (i - j) else c

/-- `p_i_sum`: the coefficients of the last polynomial, if it is padded. The coefficient of `X^m` is
    not completed. -/
def paddedCoefficients (lastIndex l : Nat) : List F :=
  let I := convertToNal lastIndex n m
  let lj := convertToNal l n m
  let products := partialProducts n m sigma a I
  (range m).foldl
    (fun p j =>
      let xSum : F := if I.getD j 0 + 1 ≤ lj.getD j 0 then 1 else 0
      let polynomial := newFactor xSum (blindingSum n a I j) (products.1.getD (m - j - 1) [])
      addShifted p polynomial j (m - j))
    products.2

/-- `P_i_k`. -/
def allCoefficients (size l : Nat) (fPadding : Bool) : List (List F) :=
  if fPadding then
    (range (size - 1)).map (coefficients n m sigma a)
      ++ [paddedCoefficients n m sigma a (size - 1) l]
  else (range size).map (coefficients n m sigma a)

end

/-! ## The proof -/

/-- `c_k`. -/
def gkCommit (P : SigmaParams G) (commits : List G) (P_i_k : List (List F)) (coins : ProverCoins F)
    (k : Nat) : G :=
  multiExponent commits (P_i_k.map fun c => entry c k) + commit P.g 0 (P.h.getD 0 0) (coins.Pk k)

/-- `z`. -/
def finalZ (m : Nat) (r : F) (coins : ProverCoins F) (x : F) : F :=
  r * x ^ m -
    ((range m).foldl (fun state k => (state.1 + coins.Pk k * state.2, state.2 * x))
      ((0 : F), (1 : F))).1

/-- `SigmaPlusProver::proof`. -/
def prove (generateChallenge : List G → F) (P : SigmaParams G) (commits : List G) (l : Nat) (r : F)
    (fPadding : Bool) (coins : ProverCoins F) : Option (SigmaPlusProof F G) := do
  -- assert(setSize > 0)
  guard (commits ≠ [])
  let sigma : List F := convertToSigma l P.n P.m
  let B := commitVector P.g P.h sigma coins.rB 0
  let a := blinding P.n P.m coins
  let (rA, A) ← drawUntil (commitVector P.g P.h a) coins.rA 0
  let (rC, C) ← drawUntil (commitVector P.g P.h (mixed P.n P.m a sigma)) coins.rC 0
  let (rD, D) ← drawUntil (commitVector P.g P.h (negatedSquares P.n P.m a)) coins.rD 0
  let P_i_k := allCoefficients P.n P.m sigma a commits.length l fPadding
  let Gk := (range P.m).map (gkCommit P commits P_i_k coins)
  let x := generateChallenge ([A, B, C, D] ++ Gk)
  pure
    { B := B
      r1Proof :=
        { A := A
          C := C
          D := D
          f := finalResponses P.n P.m a sigma x
          ZA := coins.rB * x + rA
          ZC := rC * x + rD }
      Gk := Gk
      z := finalZ P.m r coins x }

end

end Tecracoin.SigmaPlus
