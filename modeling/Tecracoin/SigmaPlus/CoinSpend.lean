/-
  `CoinSpend::Verify` and `signatureHash` (`sigma/coinspend.cpp`) for proofs whose vectors
  have any length, as they come from the network.
-/
import Tecracoin.SigmaPlus.Acceptance

namespace Tecracoin.SigmaPlus

open Verdict

/-- `GroupElement::memoryRequired()` and `Scalar::memoryRequired()`. -/
def groupSize : Nat := 34
def scalarSize : Nat := 32

/-- `CoinSpend`: the fields `Verify` looks at. -/
structure CoinSpend (F G : Type) where
  sigmaProof : SigmaPlusProof F G
  coinSerialNumber : F
  ecdsaPubkey : List UInt8
  ecdsaSignature : List UInt8

/-- The hashes and the curve library: `metahash` of the metadata and the serialised proof, the
    serial number of a public key that can be parsed, and the test of a signature. -/
structure SpendCrypto (F G Meta Hash : Type) where
  signatureHash : Meta → SigmaPlusProof F G → Hash
  serialNumber : List UInt8 → Option F
  ecdsaVerify : List UInt8 → List UInt8 → Hash → Bool
  generateChallenge : List G → F

def memoryRequired {G : Type} (P : SigmaParams G) : Nat :=
  groupSize + (groupSize * 3 + scalarSize * (P.m * (P.n - 1) + 2)) + groupSize * P.m + scalarSize

/-- How far `SigmaPlusProof::serialize` writes. -/
def serializedSize {F G : Type} (proof : SigmaPlusProof F G) : Nat :=
  groupSize + (groupSize * 3 + scalarSize * (proof.r1Proof.f.length + 2))
    + groupSize * proof.Gk.length + scalarSize

lemma Verdict.andThen_eq_undefined_iff {α β : Type} {v : Verdict α} {next : α → Verdict β} :
    v.andThen next = .undefined ↔ v = .undefined ∨ ∃ a, v = .accepted a ∧ next a = .undefined := by
  cases v <;> simp [andThen]

lemma Verdict.check_ne_undefined {c : Bool} : (check c = .undefined) = False := by
  cases c <;> simp [check]

section
variable {F G Meta Hash : Type} [Field F] [DecidableEq F] [AddCommGroup G] [DecidableEq G]
  [Module F G] (crypto : SpendCrypto F G Meta Hash) (P : SigmaParams G) (spend : CoinSpend F G)
  (anonymity_set : List G) (m : Meta) (fPadding : Bool)

/-- The tests of key and signature. -/
def signatureValid : Bool :=
  decide (spend.ecdsaPubkey.length = 33) && decide (spend.ecdsaSignature.length = 64) &&
    decide (crypto.serialNumber spend.ecdsaPubkey = some spend.coinSerialNumber) &&
    crypto.ecdsaVerify spend.ecdsaSignature spend.ecdsaPubkey
      (crypto.signatureHash m spend.sigmaProof)

/-- `CoinSpend::Verify`. `signatureHash` serialises the proof into a buffer of `memoryRequired`
    bytes. -/
def verifySpend : Verdict Unit :=
  if memoryRequired P < serializedSize spend.sigmaProof then .undefined
  else (check (signatureValid crypto spend m)).andThen fun _ =>
    verify crypto.generateChallenge P
      (anonymity_set.map (· + -(spend.coinSerialNumber • P.g))) spend.sigmaProof fPadding

/-- Every access is in range, and what is accepted has the shape of a proof. -/
def ShapeSafe : Prop :=
  verifySpend crypto P spend anonymity_set m fPadding ≠ .undefined ∧
    (verifySpend crypto P spend anonymity_set m fPadding = .accepted () →
      spend.sigmaProof.Gk.length = P.m ∧ spend.sigmaProof.r1Proof.f.length = P.m * (P.n - 1))

/-- The verification gets as far as an element that is not there. -/
def Missed : Prop :=
  let proof := spend.sigmaProof
  signatureValid crypto spend m = true ∧ r1Verify proof.B proof.r1Proof = true ∧
    0 ∉ proof.Gk.take P.m ∧
    (proof.Gk.length < P.m ∨ crypto.generateChallenge proof.hashed ∉ proof.r1Proof.f ∧
      proof.r1Proof.f.length < P.m * (P.n - 1))

variable {crypto P spend anonymity_set m fPadding}

omit [DecidableEq F] [Field F] [Module F G] in
lemma gkVerify_undefined_iff {n : Nat} {Gk : List G} :
    gkVerify n Gk = .undefined ↔ Gk.length < n ∧ 0 ∉ Gk.take n := by
  induction n generalizing Gk with
  | zero => simp [gkVerify]
  | succ n ih =>
    cases Gk with
    | nil => simp [gkVerify]
    | cons G0 Gk =>
      by_cases hzero : G0 = 0
      · simp [gkVerify, hzero]
      · simp [gkVerify, hzero, ih, Ne.symm hzero]

lemma verifyFinalResponse_undefined_iff {B : G} {proof : R1Proof F G} {x : F} :
    verifyFinalResponse P B proof x = .undefined ↔
      x ∉ proof.f ∧ proof.f.length < P.m * (P.n - 1) := by
  unfold verifyFinalResponse
  by_cases hx : x ∈ proof.f
  · simp [hx]
  · by_cases hshort : proof.f.length < P.m * (P.n - 1)
    · simp [hx, hshort]
    · simp only [hshort, and_false, iff_false]
      split_ifs <;> simp_all

/-- A read past the end: the vectors are too short and nothing is refused before. -/
lemma verifyWith_undefined_iff {commits : List G} {proof : SigmaPlusProof F G} {x : F} :
    verifyWith P commits proof fPadding x = .undefined ↔
      r1Verify proof.B proof.r1Proof = true ∧ 0 ∉ proof.Gk.take P.m ∧
        (proof.Gk.length < P.m ∨
          x ∉ proof.r1Proof.f ∧ proof.r1Proof.f.length < P.m * (P.n - 1)) := by
  have hrest (f : List F) : ¬(if proof.z = 0 then .rejected else if commits = [] then .rejected
      else check (decide (multiExponent commits (powers P f x commits.length fPadding)
        + gkSum P.m proof.Gk x = commit P.g 0 (P.h.getD 0 0) proof.z)) : Verdict Unit)
        = .undefined := by
    rw [check]
    split_ifs <;> simp
  simp only [verifyWith, andThen_eq_undefined_iff, check_eq_accepted_iff, check_ne_undefined,
    gkVerify_undefined_iff, verifyFinalResponse_undefined_iff, hrest, false_or, and_false,
    exists_false, or_false, Unique.exists_iff, PUnit.default_eq_unit, gkVerify_iff]
  have hlength := Nat.lt_or_ge proof.Gk.length P.m
  tauto

/-- The serialised proof must fit, and the verification must be over before it comes to an element
    that is missing. -/
theorem shapeSafe_iff (crypto : SpendCrypto F G Meta Hash) (P : SigmaParams G)
    (spend : CoinSpend F G) (anonymity_set : List G) (m : Meta) (fPadding : Bool) :
    ShapeSafe crypto P spend anonymity_set m fPadding ↔
      serializedSize spend.sigmaProof ≤ memoryRequired P ∧ ¬Missed crypto P spend m := by
  by_cases hfits : serializedSize spend.sigmaProof ≤ memoryRequired P
  · have hverify : verifySpend crypto P spend anonymity_set m fPadding
        = (check (signatureValid crypto spend m)).andThen fun _ =>
          verify crypto.generateChallenge P (anonymity_set.map
            (· + -(spend.coinSerialNumber • P.g))) spend.sigmaProof fPadding :=
      if_neg (not_lt.mpr hfits)
    have hundefined : verifySpend crypto P spend anonymity_set m fPadding = .undefined ↔
        Missed crypto P spend m := by
      simp only [hverify, andThen_eq_undefined_iff, check_ne_undefined, check_eq_accepted_iff,
        verify, verifyWith_undefined_iff, Missed, false_or, exists_const]
    rw [ShapeSafe, Ne, hundefined]
    refine ⟨fun h => ⟨hfits, h.1⟩, fun h => ⟨h.2, fun haccepted => ?_⟩⟩
    rw [hverify, andThen_eq_accepted_iff] at haccepted
    obtain ⟨_, -, haccepted⟩ := haccepted
    obtain ⟨-, hgk, -, hf, -⟩ := verifyWith_iff.mp haccepted
    have hGk := (gkVerify_iff.mp hgk).1
    -- neither vector is too short, so one that were too long would not have fitted
    simp only [serializedSize, memoryRequired, groupSize, scalarSize] at hfits
    omega
  · have hoverflow : verifySpend crypto P spend anonymity_set m fPadding = .undefined :=
      if_pos (not_le.mp hfits)
    exact ⟨fun h => absurd hoverflow h.1, fun h => absurd h.1 hfits⟩

end

/-- Two elements `Gk` where the parameters have one. -/
def longSpend : CoinSpend ℚ ℚ := ⟨⟨1, ⟨1, 1, 1, [1], 1, 1⟩, [1, 1], 1⟩, 1, [], []⟩

theorem longSpend_not_shapeSafe : ¬ShapeSafe
    (⟨fun _ _ => 0, fun _ => none, fun _ _ _ => true, fun _ => 5⟩ : SpendCrypto ℚ ℚ Unit Nat)
    ⟨1, [10, 100], 2, 1, le_rfl, le_rfl, rfl⟩ longSpend [5] () true := by
  rintro ⟨h, -⟩
  exact h (if_pos (by decide))

end Tecracoin.SigmaPlus
