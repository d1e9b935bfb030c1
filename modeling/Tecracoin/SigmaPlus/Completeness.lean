/-
  What `SigmaPlusProver::proof` builds for a commitment of the list that opens to `r` is
  accepted by `SigmaPlusVerifier::verify`, unless one of the values that are rejected
  outright has come up.
-/
import Tecracoin.SigmaPlus.Acceptance

namespace Tecracoin.SigmaPlus

open Finset Polynomial Data

/-! ## The rows -/

section
variable {F : Type} [Field F] {n m k size : Nat}

lemma sum_convertToSigma (hn : 0 < n) (l : Nat) {j : Nat} (hj : j < m) :
    ∑ i ∈ range n, entry (convertToSigma l n m : List F) (j * n + i) = 1 := by
  rw [sum_congr rfl (fun i hi => entry_convertToSigma l hj (mem_range.mp hi)),
    sum_ite_eq', if_pos (mem_range.mpr (digit_lt hn l))]

lemma convertToSigma_idempotent (hn : 0 < n) (l : Nat) (hk : k < n * m) :
    entry (convertToSigma l n m : List F) k * entry (convertToSigma l n m) k
      = entry (convertToSigma l n m) k := by
  obtain ⟨j, i, hj, hi, rfl⟩ := exists_row hn hk
  rw [entry_convertToSigma l hj hi]
  split <;> simp

lemma foldl_sub {t : Nat → F} {v : F} :
    (List.range k).foldl (fun first i => first - t i) v = v - ∑ i ∈ range k, t i := by
  induction k with
  | zero => simp
  | succ k ih =>
    rw [List.range_succ, List.foldl_append, ih, sum_range_succ, ← sub_sub]
    rfl

lemma sum_blinding (hn : 0 < n) (coins : ProverCoins F) {j : Nat} (hj : j < m) :
    ∑ i ∈ range n, entry (blinding n m coins) (j * n + i) = 0 := by
  have hrow : ∀ j, (blindingRow n (coins.a j)).length = n := by
    intro j
    simp only [blindingRow, List.length_cons, List.length_map, List.length_range]
    omega
  obtain ⟨n, rfl⟩ : ∃ k, n = k + 1 := ⟨n - 1, by omega⟩
  rw [blinding, sum_congr rfl (fun i hi => entry_ofRows hrow hj (mem_range.mp hi)),
    sum_range_succ']
  have hfirst : entry (blindingRow (n + 1) (coins.a j)) 0 = -∑ i ∈ range n, coins.a j (i + 1) := by
    rw [blindingRow, Nat.add_sub_cancel, foldl_sub, zero_sub]
    rfl
  have hothers : ∀ i ∈ range n, entry (blindingRow (n + 1) (coins.a j)) (i + 1)
      = coins.a j (i + 1) := by
    intro i hi
    simp [entry, blindingRow, List.getD_eq_getElem?_getD, mem_range.mp hi]
  rw [hfirst, sum_congr rfl hothers, add_neg_cancel]

/-- The verifier finds the responses again, also those at the first entry of a row. -/
lemma entry_responses (hn : 0 < n) (l : Nat) (coins : ProverCoins F) (x : F) (hk : k < n * m) :
    entry (ofRows m (responseRow n (finalResponses n m (blinding n m coins)
        (convertToSigma l n m) x) x)) k
      = entry (convertToSigma l n m) k * x + entry (blinding n m coins) k := by
  obtain ⟨j, i, hj, hi, rfl⟩ := exists_row hn hk
  have hone := sum_convertToSigma (F := F) hn l hj
  have hzero := sum_blinding hn coins hj
  generalize (convertToSigma l n m : List F) = sigma at hone ⊢
  generalize blinding n m coins = a at hzero ⊢
  obtain ⟨n, rfl⟩ : ∃ k, n = k + 1 := ⟨n - 1, by omega⟩
  rw [sum_range_succ'] at hone hzero
  have hgiven : ∀ i < n, entry (finalResponses (n + 1) m a sigma x) (j * n + i)
      = entry sigma (j * (n + 1) + (i + 1)) * x + entry a (j * (n + 1) + (i + 1)) := by
    intro i hi
    rw [finalResponses, Nat.add_sub_cancel, entry_ofRows (fun _ => by simp) hj hi]
    simp [entry, List.getD_eq_getElem?_getD, hi]
  rw [entry_ofRows (fun _ => by simp [responseRow]) hj hi, responseRow, Nat.add_sub_cancel]
  cases i with
  | zero =>
    -- the others leave of the challenge what belongs to the first entry
    rw [entry, List.getD_cons_zero, sum_map_range,
      sum_congr rfl (fun i hi => hgiven i (mem_range.mp hi)), sum_add_distrib,
      ← sum_mul, eq_sub_of_add_eq hone, eq_neg_of_add_eq_zero_left hzero]
    ring
  | succ i =>
    have hi : i < n := by omega
    rw [← hgiven i hi]
    simp [entry, List.getD_eq_getElem?_getD, hi]

/-! ## The coefficients -/

lemma entry_allCoefficients (hn : 2 ≤ n) (hm : 1 ≤ m) (l : Nat) {a : List F} (fPadding : Bool)
    {i : Nat} (hi : i < size) (hk : k < m) :
    entry ((allCoefficients n m (convertToSigma l n m) a size l fPadding).getD i []) k
      = (powerAt n m fPadding size
          (factor (matrix n (convertToSigma l n m)) (matrix n a)) X i).coeff k := by
  rw [allCoefficients, getD_padded hi, powerAt]
  split_ifs with hlast
  · rw [entry_paddedCoefficients hn l a (size - 1) hk, hlast.2]
  · rw [← coeff_toPoly_entry, toPoly_coefficients hn hm]

/-- The power of the list's elements, for responses on lines with the digits of `l`. -/
lemma powerAt_honest {l i : Nat} (hn : 0 < n) (hl : l < n ^ m) (hsize : size ≤ n ^ m)
    (hi : i < size) (fPadding : Bool) {f σ a : Nat → Nat → F} {x : F}
    (hσ : ∀ j i, j < m → i < n → σ j i = indicator n l j i)
    (hf : ∀ j i, j < m → i < n → f j i = a j i + σ j i * x) :
    powerAt n m fPadding size f x i
      = ∑ k ∈ range m, (powerAt n m fPadding size (factor σ a) X i).coeff k * x ^ k
        + (if i = selected fPadding size l then 1 else 0) * x ^ m := by
  have hvalue : powerAt n m fPadding size f x i
      = powerAt n m fPadding size (fun j i => (factor σ a j i).eval x) x i := by
    refine powerAt_congr hn (fun j i hj hi => ?_) fPadding size x i
    rw [eval_factor, hf j i hj hi]
  rw [hvalue, powerAt_eq_sum_coeff, powerAt_congr hn hσ, powerAt_indicator hn hl hi hsize]

end

/-! ## The prover -/

section
variable {F G : Type} [Field F] [DecidableEq F] [AddCommGroup G] [DecidableEq G] [Module F G]
  {commitment : F → G → G} {draws : List F} {r : F} {P : SigmaParams G} {coins : ProverCoins F}

omit [Field F] [DecidableEq F] [Module F G] in
/-- The loop ends with the first commitment that is not infinity. -/
lemma drawUntil_eq_some {A : G} (h : drawUntil commitment draws 0 = some (r, A)) :
    A = commitment r 0 := by
  induction draws with
  | nil => cases h
  | cons r' draws ih =>
    rw [drawUntil] at h
    split_ifs at h with hzero
    · exact ih (hzero ▸ h)
    · cases h
      rfl

omit [Field F] [DecidableEq F] [Module F G] in
lemma drawUntil_isSome (h : ∃ r ∈ draws, commitment r 0 ≠ 0) :
    ∃ r A, drawUntil commitment draws 0 = some (r, A) := by
  induction draws with
  | nil => simp at h
  | cons r' draws ih =>
    rw [drawUntil]
    split_ifs with hzero
    · rw [hzero]
      refine ih ?_
      simpa [hzero] using h
    · exact ⟨_, _, rfl⟩

omit [DecidableEq F] [DecidableEq G] in
lemma combine_commitments {u v : List F} {w : Nat → F} {x : F} {s : F}
    (hw : ∀ k < P.n * P.m, w k = entry u k * x + entry v k) :
    x • commitVector P.g P.h u r 0 + commitVector P.g P.h v s 0
      = (r * x + s) • P.g + ∑ k ∈ range (P.n * P.m), w k • P.h.getD k 0 := by
  have hsum : ∑ k ∈ range (P.n * P.m), w k • P.h.getD k 0
      = x • ∑ k ∈ range (P.n * P.m), entry u k • P.h.getD k 0
        + ∑ k ∈ range (P.n * P.m), entry v k • P.h.getD k 0 := by
    rw [smul_sum, ← sum_add_distrib]
    refine sum_congr rfl (fun k hk => ?_)
    rw [hw k (mem_range.mp hk), add_smul, mul_comm, mul_smul]
  rw [commitVector_eq_sum, commitVector_eq_sum, hsum, smul_add, add_smul, mul_comm r, mul_smul]
  exact add_add_add_comm _ _ _ _

section
variable {commits : List G} {l m : Nat} {x : F} {coeff : Nat → Nat → F} {power : Nat → F}
  (hpower : ∀ i < commits.length,
    power i = ∑ k ∈ range m, coeff i k * x ^ k + (if i = l then 1 else 0) * x ^ m)
include hpower

omit [DecidableEq F] [DecidableEq G] in
/-- The sum over the list, from the powers as polynomials in the challenge. -/
lemma sum_powers :
    ∑ i ∈ range commits.length, power i • commits.getD i 0
      = ∑ k ∈ range m, x ^ k • ∑ i ∈ range commits.length, coeff i k • commits.getD i 0
        + x ^ m • commits.getD l 0 := by
  have hlower : ∑ i ∈ range commits.length, (∑ k ∈ range m, coeff i k * x ^ k) • commits.getD i 0
      = ∑ k ∈ range m, x ^ k • ∑ i ∈ range commits.length, coeff i k • commits.getD i 0 := by
    simp only [sum_smul, smul_sum, smul_smul, mul_comm]
    exact sum_comm
  have htop : ∑ i ∈ range commits.length, ((if i = l then 1 else 0) * x ^ m) • commits.getD i 0
      = x ^ m • commits.getD l 0 := by
    -- outside of the list the default is zero
    rw [sum_eq_single l (fun i _ hne => by simp [hne]) (fun hl => by
      rw [List.getD_eq_default _ _ (by simpa using hl), smul_zero]), if_pos rfl, one_mul]
  rw [sum_congr rfl (fun i hi => by rw [hpower i (mem_range.mp hi), add_smul]),
    sum_add_distrib, hlower, htop]

omit [DecidableEq F] [DecidableEq G] in
lemma combine_powers {h0 : G} {r : F} (hopen : commits.getD l 0 = r • h0) (ρ : Nat → F) :
    ∑ i ∈ range commits.length, power i • commits.getD i 0
      = ∑ k ∈ range m, x ^ k •
          (∑ i ∈ range commits.length, coeff i k • commits.getD i 0 + ρ k • h0)
        + (r * x ^ m - ∑ k ∈ range m, ρ k * x ^ k) • h0 := by
  have hblind : ∑ k ∈ range m, x ^ k • ρ k • h0 = (∑ k ∈ range m, ρ k * x ^ k) • h0 := by
    simp only [sum_smul, smul_smul, mul_comm]
  rw [sum_powers hpower, hopen, smul_smul, mul_comm _ r]
  simp only [smul_add, sum_add_distrib, hblind, sub_smul]
  abel

end

omit [DecidableEq F] [DecidableEq G] in
/-- The commitments of the prover are to the coefficients of the polynomials. -/
lemma gkCommit_eq {commits : List G} {l : Nat} {fPadding : Bool} {k : Nat} (hk : k < P.m) :
    gkCommit P commits (allCoefficients P.n P.m (convertToSigma l P.n P.m) (blinding P.n P.m coins)
        commits.length l fPadding) coins k
      = ∑ i ∈ range commits.length, (powerAt P.n P.m fPadding commits.length
          (factor (matrix P.n (convertToSigma l P.n P.m)) (matrix P.n (blinding P.n P.m coins)))
          X i).coeff k • commits.getD i 0
        + coins.Pk k • P.h.getD 0 0 := by
  rw [gkCommit, multiExponent_eq_sum, commit, zero_smul, zero_add]
  congr 1
  refine sum_congr rfl (fun i hi => ?_)
  rw [← entry_allCoefficients P.two_le_n P.one_le_m l fPadding (mem_range.mp hi) hk]
  congr 1
  exact List.getD_map _ [] (fun c : List F => entry c k)

omit [DecidableEq F] in
lemma finalZ_eq {m : Nat} {x : F} :
    finalZ m r coins x = r * x ^ m - ∑ k ∈ range m, coins.Pk k * x ^ k := by
  have hloop := foldl_powers (fun k (y : F) => coins.Pk k * y) x 1 0 m
  simp only [one_mul] at hloop
  rw [finalZ, hloop, zero_add]

/-! ## The proof -/

/-- The values the verifier does not accept: an element at infinity, a zero response, or a response
    that is the challenge. -/
def Degenerate (proof : SigmaPlusProof F G) (x : F) : Prop :=
  proof.r1Proof.A = 0 ∨ proof.B = 0 ∨ proof.r1Proof.C = 0 ∨ proof.r1Proof.D = 0 ∨
    0 ∈ proof.Gk ∨ 0 ∈ proof.r1Proof.f ∨ proof.r1Proof.ZA = 0 ∨ proof.r1Proof.ZC = 0 ∨
    proof.z = 0 ∨ x ∈ proof.r1Proof.f

/-- The loops that draw blinding factors come to an end. -/
structure Drawn (P : SigmaParams G) (l : Nat) (coins : ProverCoins F) : Prop where
  A : ∃ r ∈ coins.rA, commitVector P.g P.h (blinding P.n P.m coins) r 0 ≠ 0
  C : ∃ r ∈ coins.rC, commitVector P.g P.h
    (mixed P.n P.m (blinding P.n P.m coins) (convertToSigma l P.n P.m)) r 0 ≠ 0
  D : ∃ r ∈ coins.rD,
    commitVector P.g P.h (negatedSquares P.n P.m (blinding P.n P.m coins)) r 0 ≠ 0

/-- The proof for the drawn blinding factors and a challenge. -/
def assembled (P : SigmaParams G) (commits : List G) (l : Nat) (r : F) (fPadding : Bool)
    (coins : ProverCoins F) (rA rC rD x : F) : SigmaPlusProof F G where
  B := commitVector P.g P.h (convertToSigma l P.n P.m) coins.rB 0
  r1Proof :=
    { A := commitVector P.g P.h (blinding P.n P.m coins) rA 0
      C := commitVector P.g P.h
        (mixed P.n P.m (blinding P.n P.m coins) (convertToSigma l P.n P.m)) rC 0
      D := commitVector P.g P.h (negatedSquares P.n P.m (blinding P.n P.m coins)) rD 0
      f := finalResponses P.n P.m (blinding P.n P.m coins) (convertToSigma l P.n P.m) x
      ZA := coins.rB * x + rA
      ZC := rC * x + rD }
  Gk := (List.range P.m).map (gkCommit P commits (allCoefficients P.n P.m
    (convertToSigma l P.n P.m) (blinding P.n P.m coins) commits.length l fPadding) coins)
  z := finalZ P.m r coins x

section
variable {P : SigmaParams G} {commits : List G} {l : Nat} {r : F} {fPadding : Bool}
  {coins : ProverCoins F} {generateChallenge : List G → F}

omit [DecidableEq F] in
lemma prove_eq_some {proof : SigmaPlusProof F G}
    (h : prove generateChallenge P commits l r fPadding coins = some proof) :
    ∃ rA rC rD, proof = assembled P commits l r fPadding coins rA rC rD
      (generateChallenge proof.hashed) := by
  simp only [prove, guard, Option.bind_eq_bind, Option.pure_def, Option.bind_eq_some_iff,
    Option.some.injEq, Prod.exists] at h
  obtain ⟨_, _, rA, A, hA, rC, C, hC, rD, D, hD, rfl⟩ := h
  refine ⟨rA, rC, rD, ?_⟩
  rw [drawUntil_eq_some hA, drawUntil_eq_some hC, drawUntil_eq_some hD]
  rfl

omit [DecidableEq F] in
lemma prove_isSome (hne : commits ≠ []) (h : Drawn P l coins) :
    ∃ proof, prove generateChallenge P commits l r fPadding coins = some proof := by
  obtain ⟨rA, A, hA⟩ := drawUntil_isSome h.A
  obtain ⟨rC, C, hC⟩ := drawUntil_isSome h.C
  obtain ⟨rD, D, hD⟩ := drawUntil_isSome h.D
  simp [prove, hne, hA, hC, hD]

-- what the index stands for opens to `r`; outside of the list that is zero
variable (hsize : commits.length ≤ P.n ^ P.m) (hl : l < P.n ^ P.m)
  (hopen : commits.getD (selected fPadding commits.length l) 0 = r • P.h.getD 0 0)
include hsize hl hopen

omit [DecidableEq F] [DecidableEq G] in
/-- What the prover builds satisfies the equations. -/
lemma assembled_equations (rA rC rD x : F) :
    Equations P commits (assembled P commits l r fPadding coins rA rC rD x) fPadding x
      (responses P (assembled P commits l r fPadding coins rA rC rD x).r1Proof.f x) := by
  have hn : 0 < P.n := by have := P.two_le_n; omega
  have hf : ∀ k < P.n * P.m,
      entry (responses P (assembled P commits l r fPadding coins rA rC rD x).r1Proof.f x) k
        = entry (convertToSigma l P.n P.m) k * x + entry (blinding P.n P.m coins) k :=
    fun k hk => entry_responses hn l coins x hk
  constructor
  · exact combine_commitments hf
  · refine combine_commitments (fun k hk => ?_)
    have hmixed : entry (mixed P.n P.m (blinding P.n P.m coins) (convertToSigma l P.n P.m)) k
        = entry (blinding P.n P.m coins) k * (1 - 2 * entry (convertToSigma l P.n P.m) k) := by
      simp [mixed, entry, List.getD_eq_getElem?_getD, hk]
    have hsquare : entry (negatedSquares P.n P.m (blinding P.n P.m coins)) k
        = -(entry (blinding P.n P.m coins) k * entry (blinding P.n P.m coins) k) := by
      simp [negatedSquares, entry, List.getD_eq_getElem?_getD, hk]
    -- with zeros and ones the square of the challenge cancels out
    rw [hf k hk, hmixed, hsquare]
    linear_combination (-x ^ 2) * convertToSigma_idempotent (F := F) hn l hk
  · have hpower := fun i (hi : i < commits.length) => powerAt_honest hn hl hsize hi fPadding
      (fun j i hj hi => entry_convertToSigma l hj hi)
      (fun j i hj hi => (hf _ (row_lt hj hi)).trans (add_comm _ _))
    refine (combine_powers hpower hopen coins.Pk).trans ?_
    congr 1
    · refine sum_congr rfl (fun k hk => ?_)
      refine congrArg (x ^ k • ·) ((gkCommit_eq (mem_range.mp hk)).symm.trans ?_)
      simp [assembled, List.getD_eq_getElem?_getD, mem_range.mp hk]
    · rw [assembled, finalZ_eq]

lemma verifyWith_assembled_iff (hne : commits ≠ []) (rA rC rD x : F) :
    verifyWith P commits (assembled P commits l r fPadding coins rA rC rD x) fPadding x
        = .accepted () ↔
      ¬Degenerate (assembled P commits l r fPadding coins rA rC rD x) x := by
  have hequations : Equations P commits (assembled P commits l r fPadding coins rA rC rD x) fPadding
      x _ := assembled_equations hsize hl hopen rA rC rD x
  have hlength : P.m * (P.n - 1)
      ≤ (assembled P commits l r fPadding coins rA rC rD x).r1Proof.f.length :=
    (length_ofRows (fun _ => by simp)).ge
  have hGk : (assembled P commits l r fPadding coins rA rC rD x).Gk.length = P.m := by
    simp [assembled]
  rw [verifyWith_iff, r1Verify_iff, gkVerify_iff, List.take_of_length_le hGk.le]
  simp only [hGk, le_refl, hlength, ne_eq, hne, hequations, Degenerate]
  tauto

end

/-- Every proof for a commitment of the list that opens to `r` is accepted unless it is degenerate,
    and a proof is built as soon as the draws allow it. -/
theorem prove_complete (generateChallenge : List G → F) (P : SigmaParams G) (commits : List G)
    (hsize : commits.length ≤ P.n ^ P.m) (l : Nat) (hl : l < commits.length) (r : F)
    (hopen : commits.getD l 0 = r • P.h.getD 0 0) (fPadding : Bool) (coins : ProverCoins F) :
    (∀ proof, prove generateChallenge P commits l r fPadding coins = some proof →
      (verify generateChallenge P commits proof fPadding = .accepted () ↔
        ¬Degenerate proof (generateChallenge proof.hashed))) ∧
      (Drawn P l coins →
        ∃ proof, prove generateChallenge P commits l r fPadding coins = some proof) := by
  have hne : commits ≠ [] := List.ne_nil_of_length_pos (by omega)
  have hselected : commits.getD (selected fPadding commits.length l) 0 = r • P.h.getD 0 0 := by
    have hl : selected fPadding commits.length l = l := by
      unfold selected
      split <;> omega
    rwa [hl]
  constructor
  · intro proof hproof
    obtain ⟨rA, rC, rD, hbuilt⟩ := prove_eq_some hproof
    rw [verify]
    generalize generateChallenge proof.hashed = x at hbuilt ⊢
    rw [hbuilt]
    exact verifyWith_assembled_iff hsize (hl.trans_le hsize) hselected hne rA rC rD x
  · exact prove_isSome hne

end

/-- Generators for two rows of two, over the rationals. -/
def sampleParams : SigmaParams ℚ where
  g := 1
  h := [10, 100, 1000, 10000]
  n := 2
  m := 2
  two_le_n := le_rfl
  one_le_m := by decide
  length_h := rfl

def sampleCoins : ProverCoins ℚ := ⟨2, fun _ => 4, fun _ _ => 7, [1], [1], [1]⟩

/-- A proof for the second of three commitments. -/
theorem prove_complete_second : ∃ proof,
    prove (fun _ => 5) sampleParams [5, 30, 8] 1 3 true sampleCoins = some proof ∧
      verify (fun _ => 5) sampleParams [5, 30, 8] proof true = .accepted () := by
  obtain ⟨hverify, hbuilt⟩ := prove_complete (fun _ => 5) sampleParams [5, 30, 8] (by decide) 1
    (by decide) 3 (by decide +kernel) true sampleCoins
  obtain ⟨proof, hproof⟩ := hbuilt
    ⟨⟨1, by decide +kernel⟩, ⟨1, by decide +kernel⟩, ⟨1, by decide +kernel⟩⟩
  refine ⟨proof, hproof, (hverify proof hproof).mpr ?_⟩
  have hgood : ∀ p ∈ prove (fun _ => 5) sampleParams [5, 30, 8] 1 3 true sampleCoins,
      ¬Degenerate p (5 : ℚ) := by
    unfold Degenerate
    decide +kernel
  exact hgood proof hproof

end Tecracoin.SigmaPlus
