/-
  The building blocks of the one-out-of-many proofs (`sigma/sigma_primitives.hpp`
  and `MultiExponent`), over any field of scalars and any module over it.

  Vectors are lists in row-major order: entry `i` of row `j` of a matrix with rows
  of `n` entries is entry `j * n + i` of the list.  Where the source indexes a vector
  the list is read with default zero; all vectors that are built here are long
  enough, and the verifier tests those it is given.
-/
import Mathlib.Tactic
import Mathlib.Data.List.GetD

namespace Tecracoin.SigmaPlus

open Finset List

/-! ## Row-major vectors -/

section
variable {F : Type} [Zero F] {n : Nat} {row : Nat → List F}

/-- `v[k]`. -/
def entry (v : List F) (k : Nat) : F := v.getD k 0

/-- A matrix of `m` rows as one vector. -/
def ofRows (m : Nat) (row : Nat → List F) : List F := (List.range m).flatMap row

lemma getD_flatten {rows : List (List F)} (hrows : ∀ row ∈ rows, row.length = n) {j i : Nat}
    (hi : i < n) : rows.flatten.getD (j * n + i) 0 = (rows.getD j []).getD i 0 := by
  induction rows generalizing j with
  | nil => simp
  | cons row rows ih =>
    have hrow : row.length = n := hrows row (.head _)
    rw [flatten_cons]
    cases j with
    | zero => rw [Nat.zero_mul, Nat.zero_add, getD_append _ _ _ _ (by omega)]; rfl
    | succ j =>
      rw [getD_append_right _ _ _ _ (by rw [hrow, Nat.succ_mul]; omega), hrow]
      have hindex : (j + 1) * n + i - n = j * n + i := by rw [Nat.succ_mul]; omega
      rw [hindex, ih (forall_mem_cons.mp hrows).2]
      rfl

lemma entry_ofRows {m : Nat} (hrow : ∀ j, (row j).length = n) {j i : Nat} (hj : j < m)
    (hi : i < n) : entry (ofRows m row) (j * n + i) = entry (row j) i := by
  have hrows : ∀ r ∈ (List.range m).map row, r.length = n :=
    forall_mem_map.mpr (fun j _ => hrow j)
  rw [entry, ofRows, flatMap_def, getD_flatten hrows hi, entry]
  congr 1
  simp [getD_eq_getElem?_getD, hj]

omit [Zero F] in
lemma length_ofRows {m : Nat} (hrow : ∀ j, (row j).length = n) :
    (ofRows m row).length = m * n := by
  induction m with
  | zero => simp [ofRows]
  | succ m ih =>
    rw [ofRows] at ih ⊢
    rw [range_succ, flatMap_append, length_append, ih, Nat.succ_mul]
    simp [hrow]

end

variable {n m j : Nat}

/-- Every index of a matrix is one of a row. -/
lemma row_lt {i : Nat} (hj : j < m) (hi : i < n) : j * n + i < n * m := by
  calc j * n + i < j * n + n := by omega
    _ = n * (j + 1) := by ring
    _ ≤ n * m := Nat.mul_le_mul_left n hj

lemma exists_row {k : Nat} (hn : 0 < n) (hk : k < n * m) :
    ∃ j i, j < m ∧ i < n ∧ k = j * n + i := by
  refine ⟨k / n, k % n, ?_, Nat.mod_lt _ hn, ?_⟩
  · exact Nat.div_lt_of_lt_mul hk
  · rw [Nat.mul_comm, Nat.div_add_mod]

/-! ## Commitments -/

/-- What prover and verifier agree on: generators for a matrix of `m` rows of `n`. -/
structure SigmaParams (G : Type) where
  g : G
  h : List G
  n : Nat
  m : Nat
  two_le_n : 2 ≤ n
  one_le_m : 1 ≤ m
  length_h : h.length = n * m

section
variable {F G : Type} [Field F] [AddCommGroup G] [Module F G]

/-- `MultiExponent(generators, powers).get_multiple()`. -/
def multiExponent (generators : List G) (powers : List F) : G :=
  (List.zipWith (fun power generator => power • generator) powers generators).sum

/-- `SigmaPrimitives::commit` of a vector: adds to `result`. -/
def commitVector (g : G) (h : List G) (exp : List F) (r : F) (result : G) : G :=
  result + (r • g + multiExponent h exp)

/-- `SigmaPrimitives::commit` of a single value. -/
def commit (g : G) (m : F) (h : G) (r : F) : G := m • g + r • h

lemma multiExponent_eq_sum {generators : List G} {powers : List F} :
    multiExponent generators powers
      = ∑ k ∈ range generators.length, entry powers k • generators.getD k 0 := by
  induction generators generalizing powers with
  | nil => simp [multiExponent]
  | cons generator generators ih =>
    cases powers with
    | nil => simp [multiExponent, entry]
    | cons power powers =>
      rw [length_cons, Finset.sum_range_succ']
      have hstep : multiExponent (generator :: generators) (power :: powers)
          = power • generator + multiExponent generators powers := by
        simp [multiExponent]
      rw [hstep, ih, add_comm]
      rfl

end

/-! ## Digits -/

/-- `convert_to_sigma`: for each digit a row with one entry one. -/
def convertToSigma {F : Type} [Zero F] [One F] (num n m : Nat) : List F :=
  match m with
  | 0 => []
  | m + 1 => (List.range n).map (fun i => if i = num % n then 1 else 0)
      ++ convertToSigma (num / n) n m

/-- `convert_to_nal`: the digits, the lowest first, resized to `m`. -/
def convertToNal (num n m : Nat) : List Nat := (n.digits num ++ List.replicate m 0).take m

/-- A digit of a number. -/
def digit (n num j : Nat) : Nat := num / n ^ j % n

lemma digit_lt (hn : 0 < n) (num : Nat) : digit n num j < n := Nat.mod_lt _ hn

lemma getD_convertToNal (hn : 2 ≤ n) {num : Nat} (hj : j < m) :
    (convertToNal num n m).getD j 0 = digit n num j := by
  have hdigits : (n.digits num).getD j 0 = digit n num j := Nat.getD_digits num j hn
  rw [convertToNal, getD_eq_getElem?_getD, getElem?_take_of_lt hj, ← getD_eq_getElem?_getD]
  by_cases hlength : j < (n.digits num).length
  · rw [getD_append _ _ _ _ hlength, hdigits]
  · rw [getD_append_right _ _ _ _ (not_lt.mp hlength), ← hdigits,
      getD_eq_default _ _ (not_lt.mp hlength)]
    rw [getD_eq_getElem?_getD, getElem?_replicate]
    split <;> rfl

lemma convertToSigma_eq_ofRows {F : Type} [Zero F] [One F] {num : Nat} :
    (convertToSigma num n m : List F)
      = ofRows m (fun j => (List.range n).map (fun i => if i = digit n num j then 1 else 0)) := by
  induction m generalizing num with
  | zero => rfl
  | succ m ih =>
    rw [convertToSigma, ih, ofRows, ofRows, range_succ_eq_map, flatMap_cons, flatMap_map]
    simp only [digit, pow_zero, Nat.div_one, Nat.div_div_eq_div_mul, pow_succ']

lemma entry_convertToSigma {F : Type} [Zero F] [One F] (num : Nat) {i : Nat} (hj : j < m)
    (hi : i < n) :
    entry (convertToSigma num n m : List F) (j * n + i) = if i = digit n num j then 1 else 0 := by
  rw [convertToSigma_eq_ofRows, entry_ofRows (fun _ => by simp) hj hi, entry]
  simp [getD_eq_getElem?_getD, hi]

/-! ## Coefficients -/

/-- `new_factor`: the coefficients of a polynomial times `a + x X`. The loop runs from the top down,
    so that every entry is made of the old ones. -/
def newFactor {F : Type} [Field F] (x a : F) (coefficients : List F) : List F :=
  List.zipWith (· + ·) (coefficients.map (a * ·) ++ [0]) (0 :: coefficients.map (x * ·))

end Tecracoin.SigmaPlus
