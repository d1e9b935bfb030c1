/-
  Lists of coefficients as polynomials, the lowest coefficient first, and the loops
  that go with them: powers that are built up along a sum, and products that are
  remembered before each factor.
-/
import Mathlib.Tactic
import Mathlib.Data.List.GetD

namespace Tecracoin.Data

open Finset Polynomial

section
variable {R : Type} [CommRing R] {c : List R}

/-- The polynomial with the given coefficients. -/
noncomputable def toPoly : List R → R[X]
  | [] => 0
  | a :: c => C a + X * toPoly c

lemma coeff_toPoly (k : Nat) : (toPoly c).coeff k = c.getD k 0 := by
  induction c generalizing k with
  | nil => simp [toPoly]
  | cons a c ih =>
    cases k with
    | zero => simp [toPoly]
    | succ k => rw [toPoly, coeff_add, coeff_C_succ, zero_add, coeff_X_mul, ih, List.getD_cons_succ]

lemma toPoly_map_mul {a : R} : toPoly (c.map (a * ·)) = C a * toPoly c := by
  induction c with
  | nil => simp [toPoly]
  | cons b c ih =>
    rw [List.map_cons, toPoly, toPoly, ih, C_mul]
    ring

lemma toPoly_concat_zero : toPoly (c ++ [0]) = toPoly c := by
  induction c with
  | nil => simp [toPoly]
  | cons b c ih => rw [List.cons_append, toPoly, toPoly, ih]

lemma toPoly_zipWith_add {u v : List R} (h : u.length = v.length) :
    toPoly (List.zipWith (· + ·) u v) = toPoly u + toPoly v := by
  induction u generalizing v with
  | nil =>
    cases v with
    | nil => simp [toPoly]
    | cons b v => simp at h
  | cons a u ih =>
    cases v with
    | nil => simp at h
    | cons b v =>
      rw [List.zipWith_cons_cons, toPoly, toPoly, toPoly, ih (by simpa using h), C_add]
      ring

/-! ## The highest coefficient -/

/-- The degree is at most `d`, and the coefficient there is `c`. -/
structure Leads (p : R[X]) (d : Nat) (c : R) : Prop where
  degree : p.natDegree ≤ d
  top : p.coeff d = c

lemma leads_X_pow (j : Nat) : Leads (X ^ j : R[X]) j (1 ^ j) :=
  ⟨natDegree_X_pow_le j, by rw [coeff_X_pow_self, one_pow]⟩

namespace Leads

variable {p q : R[X]} {d e : Nat} {b c : R} {ι : Type} {s : Finset ι} {f : ι → R[X]} {g : ι → R}

lemma add (h : Leads p d b) (h' : Leads q d c) : Leads (p + q) d (b + c) :=
  ⟨natDegree_add_le_of_degree_le h.degree h'.degree, by rw [coeff_add, h.top, h'.top]⟩

lemma mul (h : Leads p d b) (h' : Leads q e c) : Leads (p * q) (d + e) (b * c) := by
  refine ⟨natDegree_mul_le_of_le h.degree h'.degree, ?_⟩
  rw [coeff_mul_add_eq_of_natDegree_le h.degree h'.degree, h.top, h'.top]

lemma sum (h : ∀ i ∈ s, Leads (f i) d (g i)) : Leads (∑ i ∈ s, f i) d (∑ i ∈ s, g i) := by
  refine ⟨natDegree_sum_le_of_forall_le _ _ (fun i hi => (h i hi).degree), ?_⟩
  rw [finsetSum_coeff]
  exact sum_congr rfl (fun i hi => (h i hi).top)

lemma prod (h : ∀ i ∈ s, Leads (f i) 1 (g i)) : Leads (∏ i ∈ s, f i) s.card (∏ i ∈ s, g i) := by
  induction s using cons_induction with
  | empty => exact ⟨by simp, by simp⟩
  | cons i s hi ih =>
    obtain ⟨hhead, htail⟩ := forall_mem_cons hi _ |>.mp h
    rw [prod_cons, prod_cons, card_cons, add_comm]
    exact hhead.mul (ih htail)

end Leads

end

/-! ## Sums along a list of indices -/

lemma sum_map_range {M : Type} [AddCommMonoid M] {m : Nat} {t : Nat → M} :
    ((List.range m).map t).sum = ∑ k ∈ range m, t k := by
  rw [← List.sum_toFinset t List.nodup_range, List.toFinset_range]

lemma sum_map_drop_range {M : Type} [AddCommMonoid M] {n d : Nat} {t : Nat → M} :
    (((List.range n).drop d).map t).sum = ∑ i ∈ Ico d n, t i := by
  rw [List.range_eq_range', List.drop_range', List.range'_eq_map_range, List.map_map, sum_map_range,
    sum_Ico_eq_sum_range]
  simp

section
variable {R M : Type} [CommSemiring R] [AddCommMonoid M]

/-- A sum whose terms use the powers of `x` that the loop builds up. -/
lemma foldl_powers (t : Nat → R → M) (x y : R) (v : M) (m : Nat) :
    (List.range m).foldl (fun state k => (state.1 + t k state.2, state.2 * x)) (v, y)
      = (v + ∑ k ∈ range m, t k (y * x ^ k), y * x ^ m) := by
  induction m with
  | zero => simp
  | succ m ih =>
    rw [List.range_succ, List.foldl_append, ih, sum_range_succ, ← add_assoc, pow_succ,
      ← mul_assoc]
    rfl

lemma foldl_mul {g : Nat → R} {y : R} {m : Nat} :
    (List.range m).foldl (fun p j => p * g j) y = y * ∏ j ∈ range m, g j := by
  induction m with
  | zero => simp
  | succ m ih =>
    rw [List.range_succ, List.foldl_append, ih, prod_range_succ, ← mul_assoc]
    rfl

end

/-! ## Products that are remembered -/

section
variable {S R : Type} [CommMonoid R] {mul : Nat → S → S} {m : Nat} {aside : List S}

/-- From the last factor down to the first, what has been multiplied so far is put aside before each
    factor. -/
def suffixProducts (mul : Nat → S → S) (m : Nat) (aside : List S) (s : S) : List S × S :=
  (List.range m).reverse.foldl (fun state j => (state.1 ++ [state.2], mul j state.2)) (aside, s)

lemma suffixProducts_succ {s : S} :
    suffixProducts mul (m + 1) aside s = suffixProducts mul m (aside ++ [s]) (mul m s) := by
  rw [suffixProducts, List.range_succ, List.reverse_append]
  rfl

/-- What was put aside stays there. -/
lemma getD_suffixProducts_aside {s d : S} {i : Nat} (hi : i < aside.length) :
    (suffixProducts mul m aside s).1.getD i d = aside.getD i d := by
  induction m generalizing aside s with
  | zero => rfl
  | succ m ih =>
    rw [suffixProducts_succ, ih (by rw [List.length_append]; omega), List.getD_append _ _ _ _ hi]

variable {φ : S → R} {g : Nat → R}

lemma suffixProducts_all (hφ : ∀ j s, φ (mul j s) = φ s * g j) (m : Nat) (aside : List S)
    (s : S) : φ (suffixProducts mul m aside s).2 = φ s * ∏ k ∈ range m, g k := by
  induction m generalizing aside s with
  | zero => simp [suffixProducts]
  | succ m ih =>
    rw [suffixProducts_succ, ih, hφ, prod_range_succ, mul_assoc, mul_comm (g m)]

/-- Before factor `j` the product is that of the factors after it. -/
lemma suffixProducts_after (hφ : ∀ j s, φ (mul j s) = φ s * g j) {j : Nat} (hj : j < m)
    (aside : List S) (s d : S) :
    φ ((suffixProducts mul m aside s).1.getD (aside.length + (m - j - 1)) d)
      = φ s * ∏ k ∈ Ico (j + 1) m, g k := by
  induction m generalizing aside s with
  | zero => omega
  | succ m ih =>
    rw [suffixProducts_succ]
    by_cases hjm : j = m
    · subst hjm
      have hindex : aside.length + (j + 1 - j - 1) = aside.length := by omega
      rw [hindex, getD_suffixProducts_aside (by simp), Finset.Ico_self, prod_empty, mul_one]
      simp
    · have hlt : j < m := by omega
      have hindex : aside.length + (m + 1 - j - 1) = (aside ++ [s]).length + (m - j - 1) := by
        rw [List.length_append, List.length_singleton]
        omega
      rw [hindex, ih hlt, hφ, prod_Ico_succ_top (by omega), mul_assoc, mul_comm (g m)]

end

end Tecracoin.Data
