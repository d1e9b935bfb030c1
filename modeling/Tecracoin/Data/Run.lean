/-
  Runs of a partial step function.  `Reaches step allowed s t` says that `t` is
  reached from `s` by steps each of which is allowed in the state it starts
  from; a step that has no successor ends the run.
-/
import Mathlib.Tactic

namespace Tecracoin.Data

variable {S A : Type} {step : A → S → Option S} {allowed allowed' : A → S → Prop} {s t u : S}

/-- `t` is reached from `s` by allowed steps. -/
inductive Reaches (step : A → S → Option S) (allowed : A → S → Prop) (s : S) : S → Prop
  | start : Reaches step allowed s s
  | next {t u : S} (a : A) : Reaches step allowed s t → allowed a t → step a t = some u →
      Reaches step allowed s u

namespace Reaches

/-- What holds at the start and is kept by every allowed step holds in every state reached. -/
lemma invariant {P : S → Prop} (h : Reaches step allowed s t) (hstart : P s)
    (hstep : ∀ a t u, P t → allowed a t → step a t = some u → P u) : P t := by
  induction h with
  | start => exact hstart
  | next a _ ha hs ih => exact hstep a _ _ ih ha hs

lemma mono (h : Reaches step allowed s t) (himp : ∀ a t, allowed a t → allowed' a t) :
    Reaches step allowed' s t := by
  induction h with
  | start => exact .start
  | next a _ ha hs ih => exact .next a ih (himp a _ ha) hs

end Reaches

/-- Run a list of steps, first to last. -/
def runSteps (step : A → S → Option S) : List A → S → Option S
  | [], s => some s
  | a :: as, s => (step a s).bind (runSteps step as)

lemma runSteps_append {as bs : List A} :
    runSteps step (as ++ bs) s = (runSteps step as s).bind (runSteps step bs) := by
  induction as generalizing s with
  | nil => rfl
  | cons a as ih =>
    rw [List.cons_append, runSteps, runSteps, Option.bind_assoc]
    exact Option.bind_congr (fun u _ => ih)

lemma reaches_of_runSteps (as : List A) {r t : S} (hr : Reaches step allowed r s)
    (h : runSteps step as s = some t) (hallowed : ∀ a ∈ as, ∀ s, allowed a s) :
    Reaches step allowed r t := by
  induction as generalizing s with
  | nil =>
    rw [runSteps, Option.some.injEq] at h
    exact h ▸ hr
  | cons a as ih =>
    obtain ⟨u, hu, hrest⟩ := Option.bind_eq_some_iff.mp h
    exact ih (.next a hr (hallowed a (.head _) s) hu) hrest
      (List.forall_mem_cons.mp hallowed).2

/-- Run a list of steps as long as a test admits them. -/
def runTested (step : A → S → Option S) (admits : A → S → Bool) : List A → S → Option S
  | [], s => some s
  | a :: as, s => if admits a s then (step a s).bind (runTested step admits as) else none

lemma reaches_of_runTested {admits : A → S → Bool}
    (hadmits : ∀ a s, admits a s = true → allowed a s) (as : List A) {r t : S}
    (hr : Reaches step allowed r s) (h : runTested step admits as s = some t) :
    Reaches step allowed r t := by
  induction as generalizing s with
  | nil =>
    rw [runTested, Option.some.injEq] at h
    exact h ▸ hr
  | cons a as ih =>
    rw [runTested] at h
    split_ifs at h with ha
    obtain ⟨u, hu, hrest⟩ := Option.bind_eq_some_iff.mp h
    exact ih (.next a hr (hadmits a s ha) hu) hrest

end Tecracoin.Data
