/-
  When the verifier accepts: its tests as equations between sums over the generators and
  over the list.
-/
import Tecracoin.SigmaPlus.Powers

namespace Tecracoin.SigmaPlus

open Finset Data Verdict

/-! ## Verdicts -/

lemma Verdict.andThen_eq_accepted_iff {α β : Type} {v : Verdict α} {next : α → Verdict β}
    {b : β} : v.andThen next = .accepted b ↔ ∃ a, v = .accepted a ∧ next a = .accepted b := by
  cases v <;> simp [Verdict.andThen]

lemma Verdict.check_eq_accepted_iff {c : Bool} {u : Unit} :
    Verdict.check c = .accepted u ↔ c = true := by
  cases c <;> simp [Verdict.check]

lemma Verdict.rejected_if_iff {α : Type} {c : Prop} [Decidable c] {v : Verdict α} {a : α} :
    (if c then .rejected else v) = .accepted a ↔ ¬c ∧ v = .accepted a := by
  by_cases hc : c <;> simp [hc]

lemma Verdict.undefined_if_iff {α : Type} {c : Prop} [Decidable c] {v : Verdict α} {a : α} :
    (if c then .undefined else v) = .accepted a ↔ ¬c ∧ v = .accepted a := by
  by_cases hc : c <;> simp [hc]

/-! ## Sums -/

section
variable {F G : Type} [Field F] [AddCommGroup G] [Module F G] {P : SigmaParams G}

lemma commitVector_eq_sum {exp : List F} {r : F} :
    commitVector P.g P.h exp r 0
      = r • P.g + ∑ k ∈ range (P.n * P.m), entry exp k • P.h.getD k 0 := by
  rw [commitVector, zero_add, multiExponent_eq_sum, P.length_h]

lemma gkSum_eq {m : Nat} {Gk : List G} {x : F} :
    gkSum m Gk x = -∑ k ∈ range m, x ^ k • Gk.getD k 0 := by
  have hloop := foldl_powers (fun k (y : F) => (-y) • Gk.getD k (0 : G)) x 1 0 m
  rw [gkSum, hloop, ← Finset.sum_neg_distrib]
  refine (zero_add _).trans (Finset.sum_congr rfl (fun k _ => ?_))
  rw [one_mul, neg_smul]

lemma multiExponent_powers {commits : List G} {f : List F} {x : F} {fPadding : Bool} :
    multiExponent commits (powers P f x commits.length fPadding)
      = ∑ i ∈ range commits.length,
        powerAt P.n P.m fPadding commits.length (matrix P.n f) x i • commits.getD i 0 := by
  rw [multiExponent_eq_sum]
  exact Finset.sum_congr rfl (fun i hi => by rw [entry_powers (mem_range.mp hi)])

/-- The equations of a proof for the responses `f`. -/
structure Equations (P : SigmaParams G) (commits : List G) (proof : SigmaPlusProof F G)
    (fPadding : Bool) (x : F) (f : List F) : Prop where
  first : x • proof.B + proof.r1Proof.A
    = proof.r1Proof.ZA • P.g + ∑ k ∈ range (P.n * P.m), entry f k • P.h.getD k 0
  second : x • proof.r1Proof.C + proof.r1Proof.D
    = proof.r1Proof.ZC • P.g + ∑ k ∈ range (P.n * P.m), (entry f k * (x - entry f k)) • P.h.getD k 0
  last : ∑ i ∈ range commits.length,
      powerAt P.n P.m fPadding commits.length (matrix P.n f) x i • commits.getD i 0
    = ∑ k ∈ range P.m, x ^ k • proof.Gk.getD k 0 + proof.z • P.h.getD 0 0

end

/-! ## The verifier -/

section
variable {F G : Type} [Field F] [DecidableEq F] [AddCommGroup G] [DecidableEq G]
  {proof : R1Proof F G}

lemma r1Verify_iff {B : G} : r1Verify B proof = true ↔
    proof.A ≠ 0 ∧ B ≠ 0 ∧ proof.C ≠ 0 ∧ proof.D ≠ 0 ∧ 0 ∉ proof.f ∧ proof.ZA ≠ 0 ∧
      proof.ZC ≠ 0 := by
  have hf : (∀ y ∈ proof.f, ¬y = 0) ↔ 0 ∉ proof.f :=
    ⟨fun h hzero => h 0 hzero rfl, fun h y hy hzero => h (hzero ▸ hy)⟩
  simp [r1Verify, and_assoc, hf]

lemma gkVerify_iff {m : Nat} {Gk : List G} :
    gkVerify m Gk = .accepted () ↔ m ≤ Gk.length ∧ 0 ∉ Gk.take m := by
  induction m generalizing Gk with
  | zero => simp [gkVerify]
  | succ m ih =>
    cases Gk with
    | nil => simp [gkVerify]
    | cons G0 Gk =>
      rw [gkVerify, rejected_if_iff, ih, List.take_succ_cons, List.mem_cons, not_or,
        List.length_cons, Nat.add_le_add_iff_right]
      tauto

variable [Module F G] {P : SigmaParams G}

/-- Both commitments have to open to the responses. -/
lemma verifyFinalResponse_iff {B : G} {x : F} {f : List F} :
    verifyFinalResponse P B proof x = .accepted f ↔
      x ∉ proof.f ∧ P.m * (P.n - 1) ≤ proof.f.length ∧
        x • B + proof.A = commitVector P.g P.h f proof.ZA 0 ∧
        x • proof.C + proof.D = commitVector P.g P.h (f.map fun y => y * (x - y)) proof.ZC 0 ∧
        f = responses P proof.f x := by
  have hfresh : ¬proof.f.any (fun y => decide (y = x)) = true ↔ x ∉ proof.f := by
    simp
  unfold verifyFinalResponse
  rw [rejected_if_iff, undefined_if_iff, rejected_if_iff,
    rejected_if_iff, hfresh, not_lt, not_not, not_not, Verdict.accepted.injEq]
  constructor
  · rintro ⟨hx, hlength, hfirst, hsecond, rfl⟩
    exact ⟨hx, hlength, hfirst, hsecond, rfl⟩
  · rintro ⟨hx, hlength, hfirst, hsecond, rfl⟩
    exact ⟨hx, hlength, hfirst, hsecond, rfl⟩

/-- A proof is accepted exactly if it is well formed and satisfies the equations. -/
lemma verifyWith_iff {commits : List G} {proof : SigmaPlusProof F G} {fPadding : Bool} {x : F} :
    verifyWith P commits proof fPadding x = .accepted () ↔
      r1Verify proof.B proof.r1Proof = true ∧ gkVerify P.m proof.Gk = .accepted () ∧
        x ∉ proof.r1Proof.f ∧ P.m * (P.n - 1) ≤ proof.r1Proof.f.length ∧ proof.z ≠ 0 ∧
        commits ≠ [] ∧ Equations P commits proof fPadding x (responses P proof.r1Proof.f x) := by
  have hprime (k : Nat) : entry ((responses P proof.r1Proof.f x).map fun y => y * (x - y)) k
      = entry (responses P proof.r1Proof.f x) k *
        (x - entry (responses P proof.r1Proof.f x) k) := by
    have h := List.getD_map (l := responses P proof.r1Proof.f x) (d := 0) (n := k)
      (fun y : F => y * (x - y))
    rwa [zero_mul] at h
  -- the loops of the verifier, as sums
  have hequations : Equations P commits proof fPadding x (responses P proof.r1Proof.f x) ↔
      x • proof.B + proof.r1Proof.A
          = commitVector P.g P.h (responses P proof.r1Proof.f x) proof.r1Proof.ZA 0 ∧
        x • proof.r1Proof.C + proof.r1Proof.D
          = commitVector P.g P.h ((responses P proof.r1Proof.f x).map fun y => y * (x - y))
            proof.r1Proof.ZC 0 ∧
        multiExponent commits (powers P (responses P proof.r1Proof.f x) x commits.length fPadding)
            + gkSum P.m proof.Gk x = commit P.g 0 (P.h.getD 0 0) proof.z := by
    rw [commitVector_eq_sum, commitVector_eq_sum, multiExponent_powers, gkSum_eq, commit, zero_smul,
      zero_add, ← sub_eq_add_neg, sub_eq_iff_eq_add']
    simp only [hprime]
    exact ⟨fun h => ⟨h.first, h.second, h.last⟩, fun h => ⟨h.1, h.2.1, h.2.2⟩⟩
  unfold verifyWith
  simp only [andThen_eq_accepted_iff, check_eq_accepted_iff,
    rejected_if_iff, verifyFinalResponse_iff, decide_eq_true_eq, hequations]
  constructor
  · rintro ⟨_, hr1, _, hgk, f, ⟨hx, hlength, hfirst, hsecond, rfl⟩, hz, hne, hlast⟩
    exact ⟨hr1, hgk, hx, hlength, hz, hne, hfirst, hsecond, hlast⟩
  · rintro ⟨hr1, hgk, hx, hlength, hz, hne, hfirst, hsecond, hlast⟩
    exact ⟨(), hr1, (), hgk, _, ⟨hx, hlength, hfirst, hsecond, rfl⟩, hz, hne, hlast⟩

end

end Tecracoin.SigmaPlus
