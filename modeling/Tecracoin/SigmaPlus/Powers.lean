/-
  What the loops of verifier and prover compute: the verifier the powers of the elements
  of the list from the matrix of its responses, the prover the coefficients of the same
  powers with polynomials in the place of the responses.
-/
import Tecracoin.SigmaPlus.Polynomials

namespace Tecracoin.SigmaPlus

open Finset Polynomial Data

/-- A vector as a matrix with rows of `n` entries. -/
def matrix {F : Type} [Zero F] (n : Nat) (v : List F) (j i : Nat) : F := entry v (j * n + i)

section
variable {F : Type} [Field F] {n m : Nat} {f f' : Nat → Nat → F} {p : List F} {size i : Nat}
  {c : List F} {fPadding : Bool} {x : F}

/-! ## The verifier -/

lemma powerAt_congr (hn : 0 < n) (h : ∀ j i, j < m → i < n → f j i = f' j i) (fPadding : Bool)
    (size : Nat) (x : F) (i : Nat) :
    powerAt n m fPadding size f x i = powerAt n m fPadding size f' x i := by
  have hrow : rowProduct n m f i = rowProduct n m f' i :=
    prod_congr rfl (fun j hj => h j _ (mem_range.mp hj) (digit_lt hn i))
  have htail : strictTail n m f x i = strictTail n m f' x i := by
    refine sum_congr rfl (fun j hj => ?_)
    congr 1
    · congr 1
      exact sum_congr rfl (fun k hk => h j k (mem_range.mp hj) (mem_Ico.mp hk).2)
    · exact prod_congr rfl (fun k hk => h k _ (mem_Ico.mp hk).2 (digit_lt hn i))
  unfold powerAt tailValue
  rw [hrow, htail]

lemma responseAt_eq (hn : 2 ≤ n) (f : List F) (i : Nat) :
    responseAt n m f i = rowProduct n m (matrix n f) i := by
  rw [responseAt, foldl_mul, one_mul, rowProduct]
  refine prod_congr rfl (fun j hj => ?_)
  rw [getD_convertToNal hn (mem_range.mp hj)]
  rfl

/-- The products that are put aside at the digits of `s`. -/
lemma suffixProducts_digits {S R : Type} [CommRing R] {mul : Nat → S → S} {φ : S → R}
    {g : Nat → Nat → R} (hn : 2 ≤ n) (s : Nat)
    (hφ : ∀ j y, φ (mul j y) = φ y * g j ((convertToNal s n m).getD j 0)) {y : S} (hy : φ y = 1)
    (d : S) :
    φ (suffixProducts mul m [] y).2 = rowProduct n m g s ∧
      ∀ j < m, φ ((suffixProducts mul m [] y).1.getD (m - j - 1) d)
        = ∏ k ∈ Ico (j + 1) m, g k (digit n s k) := by
  constructor
  · rw [suffixProducts_all hφ, hy, one_mul]
    refine prod_congr rfl (fun j hj => ?_)
    rw [getD_convertToNal hn (mem_range.mp hj)]
  · intro j hj
    have h := suffixProducts_after hφ hj [] y d
    rw [List.length_nil, Nat.zero_add, hy, one_mul] at h
    refine Eq.trans h (prod_congr rfl (fun k hk => ?_))
    rw [getD_convertToNal hn (mem_Ico.mp hk).2]

lemma paddedResponse_eq (hn : 2 ≤ n) (f : List F) (x : F) (s : Nat) :
    paddedResponse n m f x s = tailValue n m (matrix n f) x s := by
  have hφ (j : Nat) (y : F) : y * entry f (j * n + (convertToNal s n m).getD j 0)
      = y * matrix n f j ((convertToNal s n m).getD j 0) := rfl
  obtain ⟨hall, hafter⟩ : (responseProducts n m f (convertToNal s n m)).2 = _ ∧ ∀ j < m,
      entry (responseProducts n m f (convertToNal s n m)).1 (m - j - 1) = _ :=
    suffixProducts_digits (φ := id) hn s hφ rfl 0
  have hsum {j : Nat} (hj : j < m) : responseSum n f (convertToNal s n m) j
      = ∑ i ∈ Ico (digit n s j + 1) n, matrix n f j i := by
    rw [responseSum, sum_map_drop_range, getD_convertToNal hn hj]
    rfl
  have hloop := foldl_powers (fun j xj => responseSum n f (convertToNal s n m) j * xj *
      entry (responseProducts n m f (convertToNal s n m)).1 (m - j - 1))
    x 1 (responseProducts n m f (convertToNal s n m)).2 m
  rw [paddedResponse, hloop]
  dsimp only
  rw [tailValue, hall, strictTail]
  congr 1
  refine sum_congr rfl (fun j hj => ?_)
  rw [hsum (mem_range.mp hj), hafter j (mem_range.mp hj), one_mul]

/-- A list whose last element may be another one. -/
lemma getD_padded {α : Type} {g : Nat → α} {last d : α} (hi : i < size) :
    (if fPadding then (List.range (size - 1)).map g ++ [last] else (List.range size).map g).getD i d
      = if fPadding = true ∧ i = size - 1 then last else g i := by
  cases fPadding with
  | false => simp [List.getD_eq_getElem?_getD, hi]
  | true =>
    simp only [if_true, true_and]
    by_cases hlast : i = size - 1
    · rw [if_pos hlast, List.getD_append_right _ _ _ _ (by simp [hlast])]
      simp [hlast]
    · have hlt : i < size - 1 := by omega
      rw [if_neg hlast, List.getD_append _ _ _ _ (by simpa using hlt)]
      simp [List.getD_eq_getElem?_getD, hlt]

lemma entry_powers {G : Type} {P : SigmaParams G} {f : List F} (hi : i < size) :
    entry (powers P f x size fPadding) i = powerAt P.n P.m fPadding size (matrix P.n f) x i := by
  rw [entry, powers, getD_padded hi, responseAt_eq P.two_le_n,
    paddedResponse_eq P.two_le_n, powerAt]
  exact ite_congr rfl (fun h => by rw [h.2]) (fun _ => rfl)

/-! ## The prover -/

lemma toPoly_newFactor {a : F} : toPoly (newFactor x a c) = toPoly c * (C a + C x * X) := by
  rw [newFactor, toPoly_zipWith_add (by simp), toPoly_concat_zero, toPoly_map_mul, toPoly, C_0,
    zero_add, toPoly_map_mul]
  ring

lemma length_newFactor {a : F} : (newFactor x a c).length = c.length + 1 := by
  simp [newFactor]

lemma coeff_toPoly_entry {k : Nat} : (toPoly c).coeff k = entry c k :=
  coeff_toPoly k

lemma toPoly_coefficients (hn : 2 ≤ n) (hm : 1 ≤ m) (sigma a : List F) (i : Nat) :
    toPoly (coefficients n m sigma a i)
      = rowProduct n m (factor (matrix n sigma) (matrix n a)) i := by
  have hloop (t : Nat) (d : List Nat) (c : List F) : toPoly ((List.range' 1 t).foldl
        (fun c j => newFactor (entry sigma (j * n + d.getD j 0))
          (entry a (j * n + d.getD j 0)) c) c)
        = toPoly c * ∏ j ∈ range t, factor (matrix n sigma) (matrix n a) (j + 1)
          (d.getD (j + 1) 0) := by
    induction t with
    | zero => simp
    | succ t ih =>
      rw [List.range'_concat, List.foldl_append, List.foldl_cons, List.foldl_nil, toPoly_newFactor,
        ih, prod_range_succ, mul_assoc, Nat.one_mul, Nat.add_comm 1 t]
      rfl
  obtain ⟨t, rfl⟩ : ∃ t, m = t + 1 := ⟨m - 1, by omega⟩
  rw [coefficients, Nat.add_sub_cancel, hloop, rowProduct, prod_range_succ', mul_comm]
  congr 1
  · refine prod_congr rfl (fun j hj => ?_)
    rw [getD_convertToNal hn (by have := mem_range.mp hj; omega)]
  · rw [getD_convertToNal hn (Nat.succ_pos t)]
    simp only [toPoly, factor, matrix, Nat.zero_mul, Nat.zero_add]
    ring

lemma entry_addShifted {polynomial : List F} {j count : Nat} (hi : i < p.length) :
    entry (addShifted p polynomial j count) i
      = if j ≤ i ∧ i < j + count then entry p i + entry polynomial (i - j) else entry p i := by
  simp [entry, addShifted, List.getD_eq_getElem?_getD, hi]

/-- The loop adds each polynomial at its place, up to the coefficient of `X^m`. -/
lemma entry_foldl_addShifted (q : Nat → List F) (hp : m ≤ p.length) {t : Nat} (ht : t ≤ m) :
    ((List.range t).foldl (fun p j => addShifted p (q j) j (m - j)) p).length = p.length ∧
      ∀ i < m, entry ((List.range t).foldl (fun p j => addShifted p (q j) j (m - j)) p) i
        = entry p i + (∑ j ∈ range t, toPoly (q j) * X ^ j).coeff i := by
  induction t with
  | zero => simp
  | succ t ih =>
    obtain ⟨hlength, hentry⟩ := ih (by omega)
    rw [List.range_succ, List.foldl_append, List.foldl_cons, List.foldl_nil]
    constructor
    · rw [addShifted, List.length_mapIdx, hlength]
    · intro i hi
      have hiff : (t ≤ i ∧ i < t + (m - t)) ↔ t ≤ i := by omega
      rw [entry_addShifted (by omega), hentry i hi, sum_range_succ, coeff_add,
        coeff_mul_X_pow', coeff_toPoly_entry, if_congr hiff rfl rfl]
      split
      · rw [add_assoc]
      · rw [add_zero]

lemma length_suffixProducts_newFactor {s a : Nat → F} (aside : List (List F)) (c : List F) :
    (suffixProducts (fun j => newFactor (s j) (a j)) m aside c).2.length = c.length + m := by
  induction m generalizing aside c with
  | zero => rfl
  | succ m ih =>
    rw [suffixProducts_succ, ih, length_newFactor]
    omega

/-- What the prover multiplies the product of the higher factors with. -/
lemma sum_factor_eq (hn : 0 < n) (l : Nat) (a : List F) {s j : Nat} (hj : j < m) :
    ∑ i ∈ Ico (s + 1) n, factor (matrix n (convertToSigma l n m)) (matrix n a) j i
      = C (∑ i ∈ Ico (s + 1) n, matrix n a j i) + C (if s + 1 ≤ digit n l j then 1 else 0) * X := by
  have hsigma : ∑ i ∈ Ico (s + 1) n, matrix n (convertToSigma l n m : List F) j i
      = if s + 1 ≤ digit n l j then 1 else 0 := by
    show ∑ i ∈ Ico (s + 1) n, entry (convertToSigma l n m : List F) (j * n + i) = _
    rw [sum_congr rfl (fun i hi => entry_convertToSigma l hj (mem_Ico.mp hi).2),
      sum_ite_eq']
    simp [digit_lt hn l]
  simp only [factor]
  rw [sum_add_distrib, ← sum_mul, ← hsigma, map_sum, map_sum]

/-- The product of the factors at the digits, and the products after each digit. -/
lemma toPoly_partialProducts (hn : 2 ≤ n) (sigma a : List F) (s : Nat) :
    toPoly (partialProducts n m sigma a (convertToNal s n m)).2
        = rowProduct n m (factor (matrix n sigma) (matrix n a)) s ∧
      ∀ j < m, toPoly ((partialProducts n m sigma a (convertToNal s n m)).1.getD (m - j - 1) [])
        = ∏ k ∈ Ico (j + 1) m, factor (matrix n sigma) (matrix n a) k (digit n s k) := by
  have hφ (j : Nat) (c : List F) :
      toPoly (newFactor (entry sigma (j * n + (convertToNal s n m).getD j 0))
        (entry a (j * n + (convertToNal s n m).getD j 0)) c)
        = toPoly c * factor (matrix n sigma) (matrix n a) j ((convertToNal s n m).getD j 0) :=
    toPoly_newFactor
  exact suffixProducts_digits hn s hφ (by simp [toPoly]) []

/-- The coefficients of the padded polynomial, all but the highest. -/
lemma entry_paddedCoefficients (hn : 2 ≤ n) (l : Nat) (a : List F) (s : Nat) {k : Nat}
    (hk : k < m) :
    entry (paddedCoefficients n m (convertToSigma l n m) a s l) k
      = (tailValue n m (factor (matrix n (convertToSigma l n m)) (matrix n a)) X s).coeff k := by
  have hsum {j : Nat} (hj : j < m) := sum_factor_eq (s := digit n s j) (by omega : 0 < n) l a hj
  generalize hsigma : (convertToSigma l n m : List F) = sigma at hsum ⊢
  obtain ⟨hall, hafter⟩ := toPoly_partialProducts (m := m) hn sigma a s
  have hlength : (partialProducts n m sigma a (convertToNal s n m)).2.length = 1 + m :=
    length_suffixProducts_newFactor [] [1]
  rw [paddedCoefficients]
  generalize partialProducts n m sigma a (convertToNal s n m) = products at hall hafter hlength ⊢
  have hloop := (entry_foldl_addShifted (fun j => newFactor
      (if (convertToNal s n m).getD j 0 + 1 ≤ (convertToNal l n m).getD j 0 then 1 else 0)
      (blindingSum n a (convertToNal s n m) j) (products.1.getD (m - j - 1) []))
    (hlength ▸ Nat.le_add_left m 1) le_rfl).2 k hk
  -- coefficient by coefficient: the product for `s` itself, then the sum over the positions
  refine Eq.trans hloop ?_
  rw [← coeff_toPoly_entry, hall, ← coeff_add, tailValue, strictTail]
  refine congrArg (fun tail : F[X] => (rowProduct n m _ s + tail).coeff k)
    (sum_congr rfl (fun j hj => ?_))
  have hj := mem_range.mp hj
  rw [toPoly_newFactor, hafter j hj, getD_convertToNal hn hj, getD_convertToNal hn hj,
    blindingSum, sum_map_drop_range, getD_convertToNal hn hj, hsum hj]
  simp only [matrix]
  ring

end

end Tecracoin.SigmaPlus
