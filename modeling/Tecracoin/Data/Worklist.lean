/-
  The worklist algorithm: take an element off the stage, record it, and stage
  those of its successors that are not recorded yet, until the stage is empty.

  Every round records an element that was not recorded before, so as many rounds
  as there are unrecorded elements are enough.  With that many the result is
  exactly what can be reached from the stage.
-/
import Mathlib.Tactic

namespace Tecracoin.Data

open List

variable {α : Type} [DecidableEq α] {stage ys : List α} {x : α} {U : Finset α} {fuel : Nat}

/-- `stage.insert(y)` for every `y` of `ys`. -/
def stageAll (stage ys : List α) : List α := ys.foldl (fun stage y => stage.insert y) stage

/-- At most `fuel` rounds of the algorithm. -/
def worklist (succ : α → List α) : Nat → List α → List α → List α
  | 0, _, done => done
  | _ + 1, [], done => done
  | fuel + 1, x :: stage, done =>
    worklist succ fuel
      (stageAll stage ((succ x).filter (fun y => decide (y ∉ x :: done)))) (x :: done)

/-! ## The stage -/

lemma stageAll_eq_union : stageAll stage ys = ys.reverse ∪ stage :=
  foldl_eq_foldr_reverse

lemma mem_stageAll : x ∈ stageAll stage ys ↔ x ∈ ys ∨ x ∈ stage := by
  rw [stageAll_eq_union, mem_union_iff, mem_reverse]

lemma nodup_stageAll (h : stage.Nodup) : (stageAll stage ys).Nodup := by
  rw [stageAll_eq_union]
  exact h.union _

/-! ## The result -/

variable {succ : α → List α} {done : List α}

lemma subset_worklist (fuel : Nat) (done : List α) :
    ∀ x ∈ done, x ∈ worklist succ fuel stage done := by
  induction fuel generalizing stage done with
  | zero => exact fun x hx => hx
  | succ fuel ih =>
    cases stage with
    | nil => exact fun x hx => hx
    | cons y stage => exact fun x hx => ih _ x (.tail _ hx)

/-- Nothing is recorded that cannot be reached. -/
lemma reachable_of_mem_worklist (h : x ∈ worklist succ fuel stage done) :
    x ∈ done ∨ ∃ s ∈ stage, Relation.ReflTransGen (fun a b => b ∈ succ a) s x := by
  induction fuel generalizing stage done with
  | zero => exact .inl h
  | succ fuel ih =>
    cases stage with
    | nil => exact .inl h
    | cons y stage =>
      rcases ih h with hdone | ⟨s, hs, hreach⟩
      · rcases mem_cons.mp hdone with rfl | hdone
        · exact .inr ⟨x, .head _, .refl⟩
        · exact .inl hdone
      · rcases mem_stageAll.mp hs with hsucc | hs
        · have hy : s ∈ succ y := (mem_filter.mp hsucc).1
          exact .inr ⟨y, .head _, .head hy hreach⟩
        · exact .inr ⟨s, .tail _ hs, hreach⟩

/-- One round uses up one unrecorded element of `U`. -/
lemma card_sdiff_cons_lt (hU : x ∈ U) (hx : x ∉ done) :
    (U \ (x :: done).toFinset).card < (U \ done.toFinset).card := by
  rw [toFinset_cons, Finset.sdiff_insert]
  exact Finset.card_erase_lt_of_mem (by simp [hU, hx])

/-- What holds between two rounds. -/
structure Staged (succ : α → List α) (U : Finset α) (stage done : List α) : Prop where
  bounded : ∀ x ∈ stage, x ∈ U
  fresh : ∀ x ∈ stage, x ∉ done
  nodup : stage.Nodup
  closed : ∀ x ∈ done, ∀ y ∈ succ x, y ∈ done ∨ y ∈ stage

lemma Staged.round (hU : ∀ x, ∀ y ∈ succ x, y ∈ U) (h : Staged succ U (x :: stage) done) :
    Staged succ U (stageAll stage ((succ x).filter (fun y => decide (y ∉ x :: done))))
      (x :: done) := by
  obtain ⟨hbounded, hfresh, hnodup, hclosed⟩ := h
  obtain ⟨hx, hnodup⟩ := nodup_cons.mp hnodup
  refine ⟨?_, ?_, nodup_stageAll hnodup, ?_⟩ <;> simp only [mem_stageAll, mem_filter] <;> grind

/-- With enough rounds the result holds the stage and is closed under `succ`. -/
lemma worklist_closed (hU : ∀ x, ∀ y ∈ succ x, y ∈ U) (h : Staged succ U stage done)
    (hfuel : (U \ done.toFinset).card ≤ fuel) :
    (∀ x ∈ stage, x ∈ worklist succ fuel stage done) ∧
      ∀ x ∈ worklist succ fuel stage done, ∀ y ∈ succ x, y ∈ worklist succ fuel stage done := by
  induction fuel generalizing stage done with
  | zero =>
    cases stage with
    | nil => simpa [worklist] using h.closed
    | cons x stage =>
      -- a staged element would be an unrecorded one
      have := card_sdiff_cons_lt (h.bounded x (.head _)) (h.fresh x (.head _))
      omega
  | succ fuel ih =>
    cases stage with
    | nil => simpa [worklist] using h.closed
    | cons x stage =>
      have hlt := card_sdiff_cons_lt (h.bounded x (.head _)) (h.fresh x (.head _))
      obtain ⟨hin, hclosed⟩ := ih (h.round hU) (by omega)
      refine ⟨fun y hy => ?_, hclosed⟩
      rcases mem_cons.mp hy with rfl | hy
      · exact subset_worklist fuel (y :: done) y (.head _)
      · exact hin y (mem_stageAll.mpr (.inr hy))

/-- From one element, with nothing recorded: exactly what can be reached. -/
lemma mem_worklist_iff (hU : ∀ x, ∀ y ∈ succ x, y ∈ U) {s : α} (hs : s ∈ U)
    (hfuel : U.card ≤ fuel) :
    x ∈ worklist succ fuel [s] [] ↔ Relation.ReflTransGen (fun a b => b ∈ succ a) s x := by
  have hstart : Staged succ U [s] [] := ⟨by simpa using hs, by simp, by simp, by simp⟩
  obtain ⟨hin, hclosed⟩ := worklist_closed hU hstart (by simpa using hfuel)
  constructor
  · intro h
    rcases reachable_of_mem_worklist h with h | ⟨s', hs', hreach⟩
    · cases h
    · rw [mem_singleton] at hs'
      exact hs' ▸ hreach
  · intro hreach
    induction hreach with
    | refl => exact hin s (.head _)
    | tail _ hstep ih => exact hclosed _ ih _ hstep

end Tecracoin.Data
