/-
  `MerkleTree::checkProofOrdered` (`crypto/MerkleTreeProof/merkle-tree.cpp`) and what the
  openings in a `CMTPHashData` commit to.

  Elements and the hashes of a proof have one size, so the concatenation that is hashed
  is the pair of its parts.  The number of hashes in a proof comes from the peer.
-/
import Mathlib.Tactic

namespace Tecracoin.Mtp

open List

/-- The number of leaves. -/
def M_COST : Nat := 1024 * 1024 * 4

/-- `1u << remaining`. A peer can send up to 255 hashes, and from 32 on the shift is undefined. The
    value given for it is the one of the usual processors; the proofs use only that it is positive.
    -/
def shifted (remaining : Nat) : Nat := 2 ^ (remaining % 32)

/-- The inner loop: an even index beyond the layer moves up. -/
def adjusted (index remaining : Nat) : Nat :=
  if _h : index % 2 = 0 ∧ shifted remaining ≤ index then adjusted (index / 2) remaining else index
termination_by index
decreasing_by
  have : 0 < shifted remaining := Nat.two_pow_pos _
  omega

section
variable {D : Type} (combinedHash : D → D → D)

/-- The pairs that are hashed on the way, and `tempHash` at its end. -/
def walk : List D → Nat → D → List (D × D) × D
  | [], _, tempHash => ([], tempHash)
  | next :: proof, index, tempHash =>
    let index := adjusted index (proof.length + 1)
    let pair := if index % 2 = 1 then (next, tempHash) else (tempHash, next)
    let rest := walk proof (index / 2) (combinedHash pair.1 pair.2)
    (pair :: rest.1, rest.2)

/-- `checkProofOrdered`; the index starts at 1. -/
def checkProofOrdered [DecidableEq D] (proof : List D) (root element : D) (index : Nat) : Bool :=
  decide ((walk combinedHash proof (index - 1) element).2 = root)

end

/-- What a proof of a `CMTPHashData` is given for. -/
structure Opening (D : Type) where
  index : Nat
  element : D
  proof : List D

section
variable {D : Type} (combinedHash : D → D → D)

def Opening.hashed (o : Opening D) : List (D × D) :=
  (walk combinedHash o.proof (o.index - 1) o.element).1

/-- Two different pairs with one hash are among those of two openings. -/
def Collide (o o' : Opening D) : Prop :=
  ∃ a ∈ o.hashed combinedHash, ∃ b ∈ o'.hashed combinedHash,
    a ≠ b ∧ combinedHash a.1 a.2 = combinedHash b.1 b.2

/-- The openings are those of one array of leaves, or show a collision. -/
def Consistent (os : List (Opening D)) : Prop :=
  (∃ leaves : Nat → Option D, ∀ o ∈ os, leaves o.index = some o.element) ∨
    ∃ o ∈ os, ∃ o' ∈ os, Collide combinedHash o o'

end

/-- Whatever the hash is, accepted openings with proofs of these lengths are consistent. -/
def Binding (lengths : Set Nat) : Prop :=
  ∀ (D : Type) [DecidableEq D] (combinedHash : D → D → D) (root : D) (os : List (Opening D)),
    (∀ o ∈ os, 1 ≤ o.index ∧ o.index ≤ M_COST ∧ o.proof.length ∈ lengths ∧
      checkProofOrdered combinedHash o.proof root o.element o.index = true) →
    Consistent combinedHash os

section
variable {D : Type} {combinedHash : D → D → D} {proof : List D}

/-- Walks of one length from one index turn the same way, so equal ends mean equal starts or a
    collision on the way. -/
lemma eq_of_walk {proof' : List D} (hlength : proof.length = proof'.length) {index : Nat} {e e' : D}
    (hend : (walk combinedHash proof index e).2 = (walk combinedHash proof' index e').2) :
    e = e' ∨ ∃ a ∈ (walk combinedHash proof index e).1, ∃ b ∈ (walk combinedHash proof' index e').1,
      a ≠ b ∧ combinedHash a.1 a.2 = combinedHash b.1 b.2 := by
  induction proof generalizing proof' index e e' with
  | nil =>
    rw [eq_nil_of_length_eq_zero hlength.symm] at hend
    exact .inl hend
  | cons next proof ih =>
    obtain ⟨next', proof', rfl⟩ := exists_cons_of_length_eq_add_one hlength.symm
    simp only [length_cons, Nat.add_right_cancel_iff] at hlength
    simp only [walk, hlength] at hend ⊢
    generalize adjusted index (proof'.length + 1) = index at hend ⊢
    rcases ih hlength hend with heq | ⟨a, ha, b, hb, hcollide⟩
    · by_cases hpair : (if index % 2 = 1 then (next, e) else (e, next))
          = if index % 2 = 1 then (next', e') else (e', next')
      · left
        split_ifs at hpair
        · exact congrArg Prod.snd hpair
        · exact congrArg Prod.fst hpair
      · exact .inr ⟨_, .head _, _, .head _, hpair, heq⟩
    · exact .inr ⟨a, .tail _ ha, b, .tail _ hb, hcollide⟩

lemma consistent_of_length [DecidableEq D] {root : D} {os : List (Opening D)}
    (hlength : ∀ o ∈ os, ∀ o' ∈ os, o.proof.length = o'.proof.length)
    (hos : ∀ o ∈ os, checkProofOrdered combinedHash o.proof root o.element o.index = true) :
    Consistent combinedHash os := by
  by_cases hcollide : ∃ o ∈ os, ∃ o' ∈ os, Collide combinedHash o o'
  · exact .inr hcollide
  · refine .inl ⟨fun i => (os.find? fun o => decide (o.index = i)).map Opening.element, ?_⟩
    intro o ho
    obtain ⟨o', hfind⟩ := Option.isSome_iff_exists.mp
      (find?_isSome (p := fun o' => decide (o'.index = o.index)).mpr ⟨o, ho, by simp⟩)
    have ho' : o' ∈ os := mem_of_find?_eq_some hfind
    have hindex : o'.index = o.index := by simpa using find?_some hfind
    have hend := (of_decide_eq_true (hos o' ho')).trans (of_decide_eq_true (hos o ho)).symm
    have hwalk := hindex ▸ hend
    rcases eq_of_walk (hlength o' ho' o ho) hwalk with heq | hshown
    · exact (congrArg (Option.map Opening.element) hfind).trans (congrArg some heq)
    · refine absurd ⟨o', ho', o, ho, ?_⟩ hcollide
      rw [Collide, Opening.hashed, Opening.hashed, hindex]
      exact hshown

/-- From the first leaf the walk always hashes on the right. -/
lemma walk_first {e : D} : (walk combinedHash proof 0 e).2 = proof.foldl combinedHash e := by
  induction proof generalizing e with
  | nil => rfl
  | cons next proof ih =>
    have hstay : adjusted 0 (proof.length + 1) = 0 := by
      rw [adjusted, dif_neg]
      exact fun h => absurd h.2 (not_le.mpr (Nat.two_pow_pos _))
    simp only [walk, hstay, foldl_cons]
    exact ih

end

/-- A hash without collisions. -/
def pairing (a b : Nat) : Nat := Nat.pair a b + 1

/-- With two lengths, an inner node passes for a leaf. -/
lemma not_binding {lengths : Set Nat} {n n' : Nat} (hn : n ∈ lengths) (hn' : n' ∈ lengths)
    (hlt : n < n') : ¬Binding lengths := by
  intro hbinding
  have hsplit : List.replicate n' 0 = List.replicate (n' - n) 0 ++ List.replicate n (0 : Nat) := by
    rw [replicate_append_replicate, Nat.sub_add_cancel hlt.le]
  have hleaf : (List.replicate (n' - n) 0).foldl pairing 0 ≠ 0 := by
    obtain ⟨k, hk⟩ := Nat.exists_eq_add_of_lt hlt
    rw [hk, Nat.add_assoc, Nat.add_sub_cancel_left, replicate_succ', foldl_append]
    exact Nat.succ_ne_zero _
  -- one root for both: the longer proof of the leaf 0, and the shorter one of an inner node
  have haccepted : ∀ o ∈ [(⟨1, 0, List.replicate n' 0⟩ : Opening Nat),
      ⟨1, (List.replicate (n' - n) 0).foldl pairing 0, List.replicate n 0⟩],
      1 ≤ o.index ∧ o.index ≤ M_COST ∧ o.proof.length ∈ lengths ∧ checkProofOrdered pairing o.proof
        ((List.replicate n' 0).foldl pairing 0) o.element o.index = true := by
    simp only [forall_mem_cons, not_mem_nil, false_implies, implies_true, and_true,
      checkProofOrdered, decide_eq_true_eq, Nat.sub_self, walk_first, length_replicate]
    refine ⟨⟨le_rfl, by decide, hn'⟩, le_rfl, by decide, hn, ?_⟩
    rw [hsplit, foldl_append]
  rcases hbinding Nat pairing _ _ haccepted with
    ⟨leaves, hleaves⟩ | ⟨o, -, o', -, a, -, b, -, hne, hsame⟩
  · have hfirst := hleaves _ (.head _)
    have hsecond := hleaves _ (.tail _ (.head _))
    exact hleaf (Option.some.inj (hsecond.symm.trans hfirst))
  · have hpair := Nat.pair_eq_pair.mp (Nat.succ.inj hsame)
    exact hne (Prod.ext hpair.1 hpair.2)

/-- Openings are bound to their positions exactly as long as all proofs have one length. -/
theorem binding_iff (lengths : Set Nat) : Binding lengths ↔ lengths.Subsingleton := by
  constructor
  · intro hbinding n hn n' hn'
    rcases lt_trichotomy n n' with hlt | heq | hlt
    · exact absurd hbinding (not_binding hn hn' hlt)
    · exact heq
    · exact absurd hbinding (not_binding hn' hn hlt)
  · intro hlengths D _ combinedHash root os hos
    exact consistent_of_length
      (fun o ho o' ho' => hlengths (hos o ho).2.2.1 (hos o' ho').2.2.1)
      (fun o ho => (hos o ho).2.2.2)

/-- A peer can send from 0 to 255 hashes for each proof. -/
theorem sent_openings_not_binding : ¬Binding {n | n < 256} :=
  @not_binding _ 0 1 (by decide) (by decide) one_pos

end Tecracoin.Mtp
