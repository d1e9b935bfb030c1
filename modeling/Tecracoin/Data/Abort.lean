/-
  Rules for computations over a state that may abort.  Unlike in
  `Data.Eff`, nothing survives an abort: a computation either ends in a state
  or there is no state to speak of.

  `Op.Ends E m s Q` says that `m`, started in `s`, ends with `Q` or aborts with
  an `e` for which `E e` holds.  With `E` true it is partial correctness; with
  `E` false the computation does not abort.  A function gets one such lemma
  whose `E` says what was wrong with the start when it aborts, and both
  readings follow from it.
-/
import Tecracoin.Data.Eff

namespace Tecracoin.Data

/-- A computation over the state `σ` that may abort with `ε`. -/
abbrev Op (ε σ α : Type) := StateT σ (Except ε) α

namespace Op

variable {ε σ α β : Type} {c : Bool} {e : ε} {a : α} {f : α → Op ε σ β} {R : β → σ → Prop}
  {g : σ → σ}

/-- `assert`: go on only if the condition holds. -/
def ensure (c : Bool) (e : ε) : Op ε σ Unit := if c then pure () else throw e

lemma ensure_of_true (h : c = true) : ensure c e = (pure () : Op ε σ Unit) :=
  if_pos h

lemma ensure_of_false (h : c = false) : ensure c e = (throw e : Op ε σ Unit) := by
  subst h
  rfl

/-- `assert(m)` for a computation that answers with a truth value. -/
def ensureM (m : Op ε σ Bool) (e : ε) : Op ε σ Unit := m >>= fun ok => ensure ok e

/-- Run `m` only when the condition holds. -/
def when (c : Bool) (m : Op ε σ Unit) : Op ε σ Unit := if c then m else pure ()

/-- From `s`, the computation ends with `Q` or aborts with `E`. -/
def Ends (E : ε → Prop) (m : Op ε σ α) (s : σ) (Q : α → σ → Prop) : Prop :=
  Data.Ends E (fun r => Q r.1 r.2) (m s)

variable {E : ε → Prop} {m : Op ε σ α} {s : σ} {Q Q' : α → σ → Prop}

section

variable (h : Ends E m s Q)
include h

lemma Ends.of_ok {s' : σ} (hm : m s = .ok (a, s')) : Q a s' :=
  Data.Ends.of_ok (Q := fun r : α × σ => Q r.1 r.2) h hm

lemma Ends.of_error (hm : m s = .error e) : E e :=
  Data.Ends.of_error h hm

lemma Ends.post (hQ : ∀ a s', Q a s' → Q' a s') : Ends E m s Q' :=
  Data.Ends.post h (fun r => hQ r.1 r.2)

/-- The postcondition may speak about the run itself. -/
lemma Ends.and_run : Ends E m s (fun a s' => Q a s' ∧ m s = .ok (a, s')) :=
  Data.Ends.and_eq h

end

/-- What every successful run satisfies, when an abort does not matter. -/
lemma ends_of_ok (hE : ∀ e, E e) (h : ∀ a s', m s = .ok (a, s') → Q a s') : Ends E m s Q := by
  unfold Ends
  cases hm : m s with
  | ok r => exact h r.1 r.2 hm
  | error e => exact hE e

lemma bind_apply : (m >>= f) s = (m s >>= fun r => f r.1 r.2) := rfl

lemma bind_of_ok {s' : σ} (h : m s = .ok (a, s')) : (m >>= f) s = f a s' := by
  rw [bind_apply, h]
  rfl

lemma ends_pure (h : Q a s) : Ends E (pure a) s Q := h

lemma ends_throw (h : E e) : Ends E (throw e : Op ε σ α) s Q := h

lemma ends_bind (hm : Ends E m s Q) (hf : ∀ a s', Q a s' → Ends E (f a) s' R) :
    Ends E (m >>= f) s R :=
  Data.Ends.bind hm (fun r hr => hf r.1 r.2 hr)

lemma ends_get_bind {f : σ → Op ε σ β} (h : Ends E (f s) s R) :
    Ends E (get >>= f) s R := h

lemma ends_modify {R : PUnit → σ → Prop} (h : R ⟨⟩ (g s)) :
    Ends E (modify g) s R := h

lemma ends_modify_bind {f : PUnit → Op ε σ β} (h : Ends E (f ⟨⟩) (g s) R) :
    Ends E (modify g >>= f) s R := h

lemma ends_set_bind {t : σ} {f : PUnit → Op ε σ β} (h : Ends E (f ⟨⟩) t R) :
    Ends E (set t >>= f) s R := h

lemma ends_ite {c : Prop} [Decidable c] {m' : Op ε σ α} (htrue : c → Ends E m s Q)
    (hfalse : ¬ c → Ends E m' s Q) : Ends E (if c then m else m') s Q := by
  by_cases hc : c
  · rw [if_pos hc]
    exact htrue hc
  · rw [if_neg hc]
    exact hfalse hc

lemma ends_ensure (herror : c = false → E e) :
    Ends E (ensure c e : Op ε σ Unit) s (fun _ s' => s' = s ∧ c = true) := by
  cases c with
  | true => exact ⟨rfl, rfl⟩
  | false => exact herror rfl

lemma ends_ensure_bind {p : Prop} [Decidable p] {f : Unit → Op ε σ β} (herror : ¬ p → E e)
    (h : p → Ends E (f ()) s R) : Ends E (ensure (decide p) e >>= f) s R := by
  refine ends_bind (ends_ensure (fun hc => herror (of_decide_eq_false hc))) ?_
  rintro _ s' ⟨rfl, hc⟩
  exact h (of_decide_eq_true hc)

lemma ends_ensureM {m : Op ε σ Bool} {Q : Bool → σ → Prop} (hm : Ends E m s Q)
    (herror : ∀ s', Q false s' → E e) : Ends E (ensureM m e) s (fun _ s' => Q true s') := by
  refine ends_bind hm (fun ok s' hQ => ?_)
  cases ok with
  | true => exact hQ
  | false => exact herror s' hQ

lemma ends_when {m : Op ε σ Unit} {Q : Unit → σ → Prop} (htrue : c = true → Ends E m s Q)
    (hfalse : c = false → Q () s) : Ends E (when c m) s Q := by
  cases c with
  | true => exact htrue rfl
  | false => exact hfalse rfl

lemma foldlM_apply {τ : Type} {f : τ → α → Op ε σ τ} {as : List α} {t : τ} :
    as.foldlM f t s = as.foldlM (fun r a => f r.1 a r.2) (t, s) := by
  induction as generalizing t s with
  | nil => rfl
  | cons a as ih =>
    rw [List.foldlM_cons, List.foldlM_cons, bind_apply]
    exact congrArg (f t a s >>= ·) (funext (fun r => ih))

/-- A loop whose invariant speaks about the elements that have had their turn. -/
lemma ends_foldlM {τ : Type} {f : τ → α → Op ε σ τ} (Inv : List α → τ → σ → Prop) {as : List α}
    {t : τ} (hstart : Inv [] t s)
    (hstep : ∀ done a rest, as = done ++ a :: rest → ∀ t s, Inv done t s →
      Ends E (f t a) s (Inv (done ++ [a]))) : Ends E (as.foldlM f t) s (Inv as) := by
  unfold Ends
  rw [foldlM_apply]
  exact Data.ends_foldlM (fun done (r : τ × σ) => Inv done r.1 r.2) hstart
    (fun done a rest has r => hstep done a rest has r.1 r.2)

/-! ## Computations that abort on the way -/

lemma bind_of_error (h : m s = .error e) : (m >>= f) s = .error e := by
  rw [bind_apply, h]
  rfl

/-- `m` is `m'` if `c` holds. Otherwise it always aborts, with `D` or where `m'` aborts. -/
structure Truncates (c : Prop) (D : ε → Prop) (m m' : Op ε σ α) : Prop where
  whole : c → m = m'
  aborts : ¬c → ∀ s, ∃ e, m s = .error e ∧ (D e ∨ m' s = .error e)

namespace Truncates

variable {c c' : Prop} {D : ε → Prop} {m' : Op ε σ α} {f' : α → Op ε σ β}

lemma refl (hc : c) (m : Op ε σ α) : Truncates c D m m := ⟨fun _ => rfl, fun h => absurd hc h⟩

lemma of_throw (hc : ¬c) (h : D e) : Truncates c D (throw e : Op ε σ α) m' :=
  ⟨fun h => absurd h hc, fun _ _ => ⟨e, rfl, .inl h⟩⟩

lemma bind (h : Truncates c D m m') (hf : ∀ a, Truncates c' D (f a) (f' a)) :
    Truncates (c ∧ c') D (m >>= f) (m' >>= f') where
  whole hc := by rw [h.whole hc.1, funext (fun a => (hf a).whole hc.2)]
  aborts hnot s := by
    by_cases hc : c
    · -- the first part is whole, so the second one stops
      rw [h.whole hc]
      cases hm : m' s with
      | error e => exact ⟨e, bind_of_error hm, .inr (bind_of_error hm)⟩
      | ok r =>
        rw [bind_of_ok hm, bind_of_ok hm]
        exact (hf r.1).aborts (fun hc' => hnot ⟨hc, hc'⟩) r.2
    · obtain ⟨e, he, hor⟩ := h.aborts hc s
      exact ⟨e, bind_of_error he, hor.imp_right bind_of_error⟩

lemma after (m : Op ε σ α) (hf : ∀ a, Truncates c D (f a) (f' a)) :
    Truncates c D (m >>= f) (m >>= f') := by
  have h := (refl (D := D) trivial m).bind hf
  rwa [true_and] at h

/-- What the one ends with, the other does if it is not cut off. -/
lemma ends (h : Truncates c D m m') (hends : Ends E m' s Q) (hD : ∀ e, D e → E e) :
    Ends E m s (fun a s' => c ∧ Q a s') := by
  by_cases hc : c
  · rw [h.whole hc]
    exact hends.post (fun _ _ hQ => ⟨hc, hQ⟩)
  · obtain ⟨e, he, hor⟩ := h.aborts hc s
    unfold Ends
    rw [he]
    exact hor.elim (hD e) hends.of_error

end Truncates

end Op

end Tecracoin.Data
