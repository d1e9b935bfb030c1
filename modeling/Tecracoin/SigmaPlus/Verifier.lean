/-
  `R1ProofVerifier` and `SigmaPlusVerifier` (`sigma/r1_proof_verifier.hpp`,
  `sigma/sigmaplus_verifier.hpp`).

  Every element of the model is a member of its group: zero stands for infinity and for
  any element that the `isMember` tests refuse.  A proof that comes with too short
  vectors makes the source read past their ends; this is a verdict of its own.
-/
import Tecracoin.SigmaPlus.Primitives

namespace Tecracoin.SigmaPlus

structure R1Proof (F G : Type) where
  A : G
  C : G
  D : G
  f : List F
  ZA : F
  ZC : F
deriving DecidableEq

structure SigmaPlusProof (F G : Type) where
  B : G
  r1Proof : R1Proof F G
  Gk : List G
  z : F
deriving DecidableEq

/-- What a verification comes to. -/
inductive Verdict (α : Type)
  | accepted (value : α)
  | rejected
  /-- A vector is read past its end. -/
  | undefined
deriving DecidableEq

/-- Go on with what was accepted. -/
def Verdict.andThen {α β : Type} (v : Verdict α) (next : α → Verdict β) : Verdict β :=
  match v with
  | .accepted value => next value
  | .rejected => .rejected
  | .undefined => .undefined

/-- Reject unless the condition holds. -/
def Verdict.check (c : Bool) : Verdict Unit := if c then .accepted () else .rejected

section
variable {F G : Type} [Field F] [DecidableEq F] [AddCommGroup G] [DecidableEq G] [Module F G]

/-! ## The R1 proof -/

/-- `R1ProofVerifier::verify` without the final response. -/
def r1Verify (B : G) (proof : R1Proof F G) : Bool :=
  decide (proof.A ≠ 0) && decide (B ≠ 0) && decide (proof.C ≠ 0) && decide (proof.D ≠ 0) &&
    proof.f.all (fun y => decide (y ≠ 0)) && decide (proof.ZA ≠ 0) && decide (proof.ZC ≠ 0)

/-- A row of `f_out`: the first entry is what the others leave of the challenge. -/
def responseRow (n : Nat) (f : List F) (x : F) (j : Nat) : List F :=
  (x - ((List.range (n - 1)).map fun i => entry f (j * (n - 1) + i)).sum) ::
    (List.range (n - 1)).map fun i => entry f (j * (n - 1) + i)

/-- `f_out`. -/
def responses (P : SigmaParams G) (f : List F) (x : F) : List F :=
  ofRows P.m (responseRow P.n f x)

/-- `R1ProofVerifier::verify_final_response`: `f_out` if it accepts. -/
def verifyFinalResponse (P : SigmaParams G) (B : G) (proof : R1Proof F G) (x : F) :
    Verdict (List F) :=
  if proof.f.any (fun y => decide (y = x)) then .rejected
  else if proof.f.length < P.m * (P.n - 1) then .undefined
  else
    let fOut := responses P proof.f x
    if x • B + proof.A ≠ commitVector P.g P.h fOut proof.ZA 0 then .rejected
    else
      let fOutPrime := fOut.map fun y => y * (x - y)
      if x • proof.C + proof.D ≠ commitVector P.g P.h fOutPrime proof.ZC 0 then .rejected
      else .accepted fOut

/-! ## The whole proof -/

/-- The loop over `Gk`. -/
def gkVerify : Nat → List G → Verdict Unit
  | 0, _ => .accepted ()
  | _ + 1, [] => .undefined
  | m + 1, G0 :: Gk => if G0 = 0 then .rejected else gkVerify m Gk

/-- `f_i`: the product of the responses at the digits of `i`. -/
def responseAt (n m : Nat) (f : List F) (i : Nat) : F :=
  let I := convertToNal i n m
  (List.range m).foldl (fun fi j => fi * entry f (j * n + I.getD j 0)) 1

/-- `f_part_product` and the product of the responses at the digits `I`. -/
def responseProducts (n m : Nat) (f : List F) (I : List Nat) : List F × F :=
  (List.range m).reverse.foldl
    (fun state j => (state.1 ++ [state.2], state.2 * entry f (j * n + I.getD j 0))) ([], 1)

/-- The responses of a row after its digit in `I`. -/
def responseSum (n : Nat) (f : List F) (I : List Nat) (j : Nat) : F :=
  (((List.range n).drop (I.getD j 0 + 1)).map fun i => entry f (j * n + i)).sum

/-- The power of the last element of the list, if it is padded. -/
def paddedResponse (n m : Nat) (f : List F) (x : F) (lastIndex : Nat) : F :=
  let I := convertToNal lastIndex n m
  let products := responseProducts n m f I
  ((List.range m).foldl
    (fun state j => (state.1 + responseSum n f I j * state.2 * entry products.1 (m - j - 1),
      state.2 * x)) (products.2, 1)).1

/-- `f_i_`: the powers of the elements of the list. -/
def powers (P : SigmaParams G) (f : List F) (x : F) (size : Nat) (fPadding : Bool) : List F :=
  if fPadding then
    (List.range (size - 1)).map (responseAt P.n P.m f) ++ [paddedResponse P.n P.m f x (size - 1)]
  else (List.range size).map (responseAt P.n P.m f)

/-- `t2`. -/
def gkSum (m : Nat) (Gk : List G) (x : F) : G :=
  ((List.range m).foldl
    (fun state k => (state.1 + (-state.2) • Gk.getD k 0, state.2 * x)) ((0 : G), (1 : F))).1

/-- `SigmaPlusVerifier::verify` with a given challenge. -/
def verifyWith (P : SigmaParams G) (commits : List G) (proof : SigmaPlusProof F G)
    (fPadding : Bool) (x : F) : Verdict Unit :=
  (Verdict.check (r1Verify proof.B proof.r1Proof)).andThen fun _ =>
  (gkVerify P.m proof.Gk).andThen fun _ =>
  (verifyFinalResponse P proof.B proof.r1Proof x).andThen fun f =>
  if proof.z = 0 then .rejected
  else if commits = [] then .rejected
  else
    let t1 := multiExponent commits (powers P f x commits.length fPadding)
    let t2 := gkSum P.m proof.Gk x
    .check (decide (t1 + t2 = commit P.g 0 (P.h.getD 0 0) proof.z))

/-- The elements `generate_challenge` hashes. -/
def SigmaPlusProof.hashed (proof : SigmaPlusProof F G) : List G :=
  [proof.r1Proof.A, proof.B, proof.r1Proof.C, proof.r1Proof.D] ++ proof.Gk

/-- `SigmaPlusVerifier::verify`; `generateChallenge` hashes to a scalar. -/
def verify (generateChallenge : List G → F) (P : SigmaParams G) (commits : List G)
    (proof : SigmaPlusProof F G) (fPadding : Bool) : Verdict Unit :=
  verifyWith P commits proof fPadding (generateChallenge proof.hashed)

end

end Tecracoin.SigmaPlus
