/-
  The product that belongs to an index of the list, and the sum of these products from
  an index on, over any commutative ring.  The verifier computes them with its responses
  and the prover with linear polynomials; the responses are the values of these
  polynomials at the challenge.

  The sum from an index on is computed digit by digit: once a digit is larger, the lower
  ones run through everything, and each row of responses sums up to the challenge.
-/
import Tecracoin.Data.CoeffList
import Tecracoin.SigmaPlus.Prover

namespace Tecracoin.SigmaPlus

open Finset Polynomial Data

section
variable {R : Type} [CommRing R] {n s l : Nat} {f : Nat → Nat → R}

/-- The product of the entries at the digits of an index. -/
def rowProduct (n m : Nat) (f : Nat → Nat → R) (i : Nat) : R :=
  ∏ j ∈ range m, f j (digit n i j)

/-- The part of the sum after the index: digit `j` is the highest that is larger. -/
def strictTail (n m : Nat) (f : Nat → Nat → R) (x : R) (s : Nat) : R :=
  ∑ j ∈ range m, (∑ i ∈ Ico (digit n s j + 1) n, f j i) * x ^ j *
    ∏ k ∈ Ico (j + 1) m, f k (digit n s k)

/-- The sum from the index on. -/
def tailValue (n m : Nat) (f : Nat → Nat → R) (x : R) (s : Nat) : R :=
  rowProduct n m f s + strictTail n m f x s

/-! ## The lowest digit -/

lemma digit_zero {num : Nat} : digit n num 0 = num % n := by
  rw [digit, pow_zero, Nat.div_one]

lemma digit_succ {num j : Nat} : digit n num (j + 1) = digit n (num / n) j := by
  rw [digit, digit, pow_succ', Nat.div_div_eq_div_mul]

lemma rowProduct_succ {m : Nat} {i : Nat} :
    rowProduct n (m + 1) f i = f 0 (i % n) * rowProduct n m (fun j => f (j + 1)) (i / n) := by
  rw [rowProduct, prod_range_succ', digit_zero, mul_comm]
  simp only [digit_succ]
  rfl

lemma strictTail_succ {m : Nat} {x : R} :
    strictTail n (m + 1) f x s
      = (∑ i ∈ Ico (s % n + 1) n, f 0 i) * rowProduct n m (fun j => f (j + 1)) (s / n)
        + x * strictTail n m (fun j => f (j + 1)) x (s / n) := by
  have hlowest : ∏ k ∈ Ico 1 (m + 1), f k (digit n s k)
      = rowProduct n m (fun j => f (j + 1)) (s / n) := by
    rw [prod_Ico_eq_prod_range, rowProduct]
    simp only [Nat.add_sub_cancel, Nat.add_comm 1, digit_succ]
  have hshift (j : Nat) : ∏ k ∈ Ico (j + 1 + 1) (m + 1), f k (digit n s k)
      = ∏ k ∈ Ico (j + 1) m, f (k + 1) (digit n (s / n) k) := by
    rw [← prod_Ico_add' (fun k => f k (digit n s k)) (j + 1) m 1]
    simp only [digit_succ]
  rw [strictTail, sum_range_succ', digit_zero, pow_zero, mul_one, hlowest, add_comm,
    strictTail, mul_sum]
  congr 1
  refine sum_congr rfl (fun j _ => ?_)
  rw [hshift, digit_succ, pow_succ]
  ring

/-! ## The matrix of an index -/

/-- Row `j` has its one at digit `j` of the index. -/
def indicator (n l j i : Nat) : R := if i = digit n l j then 1 else 0

lemma indicator_succ : (fun j => indicator (R := R) n l (j + 1)) = indicator n (l / n) := by
  funext j i
  rw [indicator, indicator, digit_succ]

variable {n : Nat}

lemma rowProduct_indicator (m : Nat) {i : Nat} (hl : l < n ^ m) (hi : i < n ^ m) :
    rowProduct n m (indicator n l : Nat → Nat → R) i = if i = l then 1 else 0 := by
  induction m generalizing l i with
  | zero =>
    have hil : i = l := by
      rw [pow_zero] at hl hi
      omega
    rw [if_pos hil]
    exact prod_range_zero _
  | succ m ih =>
    have hlower {k : Nat} (hk : k < n ^ (m + 1)) : k / n < n ^ m :=
      Nat.div_lt_of_lt_mul (by rwa [← pow_succ'])
    rw [rowProduct_succ, indicator_succ, ih (hlower hl) (hlower hi), indicator, digit_zero]
    have hdigits : i = l ↔ i % n = l % n ∧ i / n = l / n := by
      constructor
      · rintro rfl
        exact ⟨rfl, rfl⟩
      · rintro ⟨hmod, hdiv⟩
        rw [← Nat.div_add_mod i n, ← Nat.div_add_mod l n, hmod, hdiv]
    by_cases hmod : i % n = l % n <;> by_cases hdiv : i / n = l / n <;>
      simp [hdigits, hmod, hdiv]

/-- A number is larger if its quotient is, or its remainder at the same quotient. -/
lemma lt_iff_div_mod (n s l : Nat) : s < l ↔ s / n < l / n ∨ (s / n = l / n ∧ s % n < l % n) := by
  have hs := Nat.div_add_mod s n
  have hl := Nat.div_add_mod l n
  constructor
  · intro h
    rcases (Nat.div_le_div_right (c := n) h.le).lt_or_eq with hlt | heq
    · exact .inl hlt
    · refine .inr ⟨heq, ?_⟩
      rw [heq] at hs
      omega
  · rintro (hlt | ⟨heq, hlt⟩)
    · exact Nat.lt_of_div_lt_div hlt
    · rw [heq] at hs
      omega

lemma strictTail_indicator (hn : 0 < n) (m : Nat) (hl : l < n ^ m) (hs : s < n ^ m) :
    strictTail n m (indicator n l : Nat → Nat → R) 1 s = if s < l then 1 else 0 := by
  induction m generalizing l s with
  | zero =>
    have hsl : ¬s < l := by
      rw [pow_zero] at hl hs
      omega
    rw [if_neg hsl]
    exact sum_range_zero _
  | succ m ih =>
    have hlower {k : Nat} (hk : k < n ^ (m + 1)) : k / n < n ^ m :=
      Nat.div_lt_of_lt_mul (by rwa [← pow_succ'])
    have hrow : ∑ i ∈ Ico (s % n + 1) n, indicator (R := R) n l 0 i
        = if s % n < l % n then 1 else 0 := by
      simp only [indicator, digit_zero, sum_ite_eq', mem_Ico]
      have hln := Nat.mod_lt l hn
      by_cases hlt : s % n < l % n
      · rw [if_pos ⟨hlt, hln⟩, if_pos hlt]
      · rw [if_neg (fun h => hlt h.1), if_neg hlt]
    rw [strictTail_succ, indicator_succ, hrow, one_mul, ih (hlower hl) (hlower hs),
      rowProduct_indicator m (hlower hl) (hlower hs)]
    have hiff := lt_iff_div_mod n s l
    by_cases hdiv : s / n < l / n
    · have hne : s / n ≠ l / n := by omega
      simp [hiff, hdiv, hne]
    · by_cases heq : s / n = l / n
      · simp [hiff, heq]
      · simp [hiff, hdiv, heq]

/-- With the matrix of an index the sum from `s` on is one if the index is in it. -/
lemma tailValue_indicator (hn : 0 < n) (m : Nat) (hl : l < n ^ m) (hs : s < n ^ m) :
    tailValue n m (indicator n l : Nat → Nat → R) 1 s = if s ≤ l then 1 else 0 := by
  rw [tailValue, rowProduct_indicator m hl hs, strictTail_indicator hn m hl hs]
  rcases lt_trichotomy s l with hlt | heq | hgt
  · rw [if_neg (by omega), if_pos hlt, if_pos hlt.le, zero_add]
  · rw [if_pos heq, if_neg (by omega), if_pos heq.le, add_zero]
  · rw [if_neg (by omega), if_neg (by omega), if_neg (by omega), zero_add]

end

/-! ## The power of an element of the list -/

section
variable {R : Type} [CommRing R] {i : Nat} {x : R}

/-- The power of element `i` of a list of `size` elements: with padding the last one stands for all
    indices from its own on. -/
def powerAt (n m : Nat) (fPadding : Bool) (size : Nat) (f : Nat → Nat → R) (x : R) (i : Nat) : R :=
  if fPadding = true ∧ i = size - 1 then tailValue n m f x i else rowProduct n m f i

/-- The element of the list an index stands for. -/
def selected (fPadding : Bool) (size l : Nat) : Nat := if fPadding then min l (size - 1) else l

lemma powerAt_indicator {n m size l : Nat} (hn : 0 < n) (hl : l < n ^ m) (hi : i < size)
    (hsize : size ≤ n ^ m) (fPadding : Bool) :
    powerAt n m fPadding size (indicator n l : Nat → Nat → R) 1 i
      = if i = selected fPadding size l then 1 else 0 := by
  have hin : i < n ^ m := hi.trans_le hsize
  unfold powerAt selected
  rw [tailValue_indicator hn m hl hin, rowProduct_indicator m hl hin]
  cases fPadding with
  | false => simp
  | true =>
    by_cases hlast : i = size - 1
    · have hiff : i ≤ l ↔ i = min l (size - 1) := by omega
      rw [if_pos ⟨rfl, hlast⟩, if_pos rfl]
      simp only [hiff]
    · have hiff : i = l ↔ i = min l (size - 1) := by omega
      rw [if_neg (fun h => hlast h.2), if_pos rfl]
      simp only [hiff]

/-! ## Linear polynomials -/

/-- The polynomial whose value at the challenge is a response. -/
noncomputable def factor (σ a : Nat → Nat → R) (j i : Nat) : R[X] := C (a j i) + C (σ j i) * X

variable {n m size : Nat} {σ a : Nat → Nat → R}

lemma leads_factor (j i : Nat) : Leads (factor σ a j i) 1 (σ j i) := by
  refine ⟨?_, by simp [factor, coeff_C]⟩
  rw [factor, add_comm]
  exact natDegree_linear_le

lemma eval_factor {j : Nat} : (factor σ a j i).eval x = a j i + σ j i * x := by
  simp [factor]

lemma leads_rowProduct : Leads (rowProduct n m (factor σ a) i) m (rowProduct n m σ i) := by
  have h := Leads.prod (s := range m) (fun j _ => leads_factor (σ := σ) (a := a) j (digit n i j))
  rwa [card_range] at h

lemma leads_strictTail (s : Nat) :
    Leads (strictTail n m (factor σ a) X s) m (strictTail n m σ 1 s) := by
  refine .sum (fun j hj => ?_)
  have hrow := Leads.sum (s := Ico (digit n s j + 1) n)
    (fun i _ => leads_factor (σ := σ) (a := a) j i)
  have hrest := Leads.prod (s := Ico (j + 1) m)
    (fun k _ => leads_factor (σ := σ) (a := a) k (digit n s k))
  have hdegree : 1 + j + (Ico (j + 1) m).card = m := by
    have hlt := mem_range.mp hj
    rw [Nat.card_Ico]
    omega
  have hterm := (hrow.mul (leads_X_pow j)).mul hrest
  rwa [hdegree] at hterm

variable (fPadding : Bool)

lemma leads_powerAt : Leads (powerAt n m fPadding size (factor σ a) X i) m
    (powerAt n m fPadding size σ 1 i) := by
  unfold powerAt tailValue
  split
  · exact (leads_rowProduct).add (leads_strictTail i)
  · exact leads_rowProduct

lemma eval_powerAt :
    (powerAt n m fPadding size (factor σ a) X i).eval x
      = powerAt n m fPadding size (fun j i => (factor σ a j i).eval x) x i := by
  have hrow : (rowProduct n m (factor σ a) i).eval x
      = rowProduct n m (fun j i => (factor σ a j i).eval x) i := by
    rw [rowProduct, rowProduct, eval_prod]
  have htail : (strictTail n m (factor σ a) X i).eval x
      = strictTail n m (fun j i => (factor σ a j i).eval x) x i := by
    simp only [strictTail, eval_finsetSum, eval_mul, eval_prod, eval_pow, eval_X]
  unfold powerAt tailValue
  split
  · rw [eval_add, hrow, htail]
  · exact hrow

/-- The value of the power at a challenge, with its highest coefficient apart. -/
lemma powerAt_eq_sum_coeff :
    powerAt n m fPadding size (fun j i => (factor σ a j i).eval x) x i
      = ∑ k ∈ range m, (powerAt n m fPadding size (factor σ a) X i).coeff k * x ^ k
        + powerAt n m fPadding size σ 1 i * x ^ m := by
  have hleads : Leads (powerAt n m fPadding size (factor σ a) X i) m _ := leads_powerAt fPadding
  rw [← eval_powerAt, eval_eq_sum_range' (Nat.lt_succ_of_le hleads.degree),
    sum_range_succ, hleads.top]

end

end Tecracoin.SigmaPlus
