/-
  Rules for computations that carry a state and may stop with a failure, the
  state written so far surviving the failure (`EStateM`).

  Two ways to reason are offered.  When a computation is known to have
  succeeded, `run m s = .ok a s'` is taken apart with the `_ok_iff` lemmas, one
  per construct.  When only the final state matters, whatever the outcome,
  `Keeps R m` says that it stays related to the initial one by `R`.
-/
import Mathlib.Tactic

namespace Tecracoin.Data

/-- A computation over the state `σ` that may stop with a failure `ε`. -/
abbrev Eff (ε σ α : Type) := EStateM ε σ α

namespace Eff

variable {ε σ α β : Type} {a b : α} {c : Bool} {e : ε} {s s' : σ} {m : Eff ε σ α} {g : σ → σ}
  {f : α → Eff ε σ β}

/-- The state a computation ends in, successful or not. -/
def finalState : EStateM.Result ε σ α → σ
  | .ok _ s => s
  | .error _ s => s

/-- How a computation ends. -/
def outcome : EStateM.Result ε σ α → Except ε α
  | .ok a _ => .ok a
  | .error e _ => .error e

/-- Stop with `e` when the condition holds. -/
def failIf (c : Bool) (e : ε) : Eff ε σ Unit := if c then throw e else pure ()

/-- Run `m` only when the condition holds. -/
def when (c : Bool) (m : Eff ε σ Unit) : Eff ε σ Unit := if c then m else pure ()

/-- Run a computation that has no state of its own. -/
def lift (x : Except ε α) : Eff ε σ α :=
  match x with
  | .ok a => pure a
  | .error e => throw e

/-! ## Running one step -/

lemma get_bind_apply {f : σ → Eff ε σ α} : (get >>= f) s = f s s := rfl

lemma modify_bind_apply {f : PUnit → Eff ε σ α} : (modify g >>= f) s = f ⟨⟩ (g s) := rfl

lemma when_modify_bind_apply {f : Unit → Eff ε σ α} :
    (when c (modify g) >>= f) s = f () (if c then g s else s) := by
  cases c <;> rfl

lemma finalState_failIf : finalState (failIf c e s) = s := by
  cases c <;> rfl

lemma lift_ok_bind_apply : (lift (.ok a) >>= f) s = f a s := rfl

lemma lift_error_bind_apply : (lift (.error e) >>= f) s = .error e s := rfl

lemma bind_of_ok (h : m s = .ok a s') (f : α → Eff ε σ β) : (m >>= f) s = f a s' := by
  simp only [bind, EStateM.bind, h]

lemma throw_apply : (throw e : Eff ε σ α) s = .error e s := rfl

lemma get_apply : (get : Eff ε σ σ) s = .ok s s := rfl

lemma modify_apply {f : σ → σ} : (modify f : Eff ε σ PUnit) s = .ok () (f s) := rfl

/-! ## Successful runs -/

@[simp] lemma pure_ok_iff : (pure a : Eff ε σ α) s = .ok b s' ↔ b = a ∧ s' = s := by
  simp only [pure, EStateM.pure, EStateM.Result.ok.injEq]
  exact ⟨fun h => ⟨h.1.symm, h.2.symm⟩, fun h => ⟨h.1.symm, h.2.symm⟩⟩

@[simp] lemma throw_ok_iff : (throw e : Eff ε σ α) s = .ok b s' ↔ False := by
  simp [throw_apply]

@[simp] lemma get_ok_iff {t : σ} : (get : Eff ε σ σ) s = .ok t s' ↔ t = s ∧ s' = s := by
  simp only [get_apply, EStateM.Result.ok.injEq]
  exact ⟨fun h => ⟨h.1.symm, h.2.symm⟩, fun h => ⟨h.1.symm, h.2.symm⟩⟩

@[simp] lemma set_ok_iff {t : σ} {u : PUnit} : (set t : Eff ε σ PUnit) s = .ok u s' ↔ s' = t := by
  show EStateM.Result.ok () t = .ok u s' ↔ s' = t
  simp only [EStateM.Result.ok.injEq]
  exact ⟨fun h => h.2.symm, fun h => ⟨trivial, h.symm⟩⟩

@[simp] lemma modify_ok_iff {f : σ → σ} {u : PUnit} :
    (modify f : Eff ε σ PUnit) s = .ok u s' ↔ s' = f s := by
  simp only [modify_apply, EStateM.Result.ok.injEq]
  exact ⟨fun h => h.2.symm, fun h => ⟨trivial, h.symm⟩⟩

lemma bind_ok_iff {b : β} :
    (m >>= f) s = .ok b s' ↔ ∃ a s1, m s = .ok a s1 ∧ f a s1 = .ok b s' := by
  simp only [bind, EStateM.bind]
  cases hm : m s with
  | ok a s1 =>
    simp only [EStateM.Result.ok.injEq]
    constructor
    · exact fun h => ⟨a, s1, ⟨rfl, rfl⟩, h⟩
    · rintro ⟨a', s1', ⟨rfl, rfl⟩, h⟩
      exact h
  | error e s1 => simp

@[simp] lemma failIf_ok_iff {u : Unit} :
    (failIf c e : Eff ε σ Unit) s = .ok u s' ↔ c = false ∧ s' = s := by
  cases c <;> simp [failIf]

lemma when_ok_iff {m : Eff ε σ Unit} {u : Unit} :
    when c m s = .ok u s' ↔ (c = true ∧ m s = .ok u s') ∨ (c = false ∧ s' = s) := by
  cases c <;> simp [when]

@[simp] lemma lift_ok_iff {x : Except ε α} :
    (lift x : Eff ε σ α) s = .ok b s' ↔ x = .ok b ∧ s' = s := by
  cases x with
  | ok a =>
    simp only [lift, pure_ok_iff, Except.ok.injEq]
    exact ⟨fun h => ⟨h.1.symm, h.2⟩, fun h => ⟨h.1.symm, h.2⟩⟩
  | error e => simp [lift]

/-- Renaming a failure leaves the successful runs alone. -/
@[simp] lemma tryCatch_throw_ok_iff {f : ε → ε} :
    (tryCatch m (fun e => throw (f e)) : Eff ε σ α) s = .ok a s' ↔ m s = .ok a s' := by
  simp only [tryCatch, tryCatchThe, MonadExceptOf.tryCatch, EStateM.tryCatch]
  cases hm : m s with
  | ok b s1 => exact Iff.rfl
  | error e s1 => simp

/-! ## What survives, whatever the outcome -/

/-- Every run of `m` ends, with success or failure, in a state related by `R` to the one it started
    in. -/
def Keeps (R : σ → σ → Prop) (m : Eff ε σ α) : Prop := ∀ s, R s (finalState (m s))

lemma Keeps.of_ok {R : σ → σ → Prop} (hm : Keeps R m) (h : m s = .ok a s') : R s s' := by
  have hs := hm s
  rwa [h] at hs

section Rules

variable {R : σ → σ → Prop}

lemma keeps_modify {f : σ → σ} (h : ∀ s, R s (f s)) : Keeps R (modify f : Eff ε σ PUnit) :=
  fun s => h s

variable [IsPreorder σ R]

lemma keeps_pure : Keeps R (pure a : Eff ε σ α) :=
  fun s => refl_of R s

lemma keeps_throw : Keeps R (throw e : Eff ε σ α) :=
  fun s => refl_of R s

lemma keeps_get : Keeps R (get : Eff ε σ σ) :=
  fun s => refl_of R s

lemma keeps_failIf : Keeps R (failIf c e : Eff ε σ Unit) := by
  cases c
  · exact keeps_pure
  · exact keeps_throw

lemma keeps_when (c : Bool) {m : Eff ε σ Unit} (hm : Keeps R m) : Keeps R (when c m) := by
  cases c
  · exact keeps_pure
  · exact hm

lemma keeps_lift {x : Except ε α} : Keeps R (lift x : Eff ε σ α) := by
  cases x with
  | ok a => exact keeps_pure
  | error e => exact keeps_throw

lemma keeps_bind {f : α → Eff ε σ β} (hm : Keeps R m) (hf : ∀ a, Keeps R (f a)) :
    Keeps R (m >>= f) := by
  intro s
  have h1 := hm s
  simp only [bind, EStateM.bind]
  cases h : m s with
  | ok a s1 =>
    rw [h] at h1
    exact trans_of R h1 (hf a s1)
  | error e s1 =>
    rw [h] at h1
    exact h1

end Rules

/-! ## Pre- and postconditions

A triple has two postconditions, since a failed run keeps what it has written:
`Q` for success, with the result, and `E` for failure. -/

/-- From a state with `P`, `m` succeeds with `Q` or stops with `E`. -/
def Triple (P : σ → Prop) (m : Eff ε σ α) (Q : α → σ → Prop) (E : σ → Prop) : Prop :=
  ∀ s, P s → match m s with
    | .ok a s' => Q a s'
    | .error _ s' => E s'

section Triples

variable {P P' E : σ → Prop} {Q Q' : α → σ → Prop}

lemma Triple.of_ok (h : Triple P m Q E) (hs : P s) (hok : m s = .ok a s') : Q a s' := by
  have hrun := h s hs
  rwa [hok] at hrun

lemma Triple.succeeds (h : Triple P m Q (fun _ => False)) (hs : P s) :
    ∃ a s', m s = .ok a s' := by
  have hrun := h s hs
  cases hm : m s with
  | ok a s' => exact ⟨a, s', rfl⟩
  | error e s' =>
    rw [hm] at hrun
    exact hrun.elim

lemma Triple.finalState (h : Triple P m (fun _ => E) E) (hs : P s) : E (finalState (m s)) := by
  have hrun := h s hs
  cases hm : m s with
  | ok | error =>
    rw [hm] at hrun
    exact hrun

lemma Triple.weaken (h : Triple P m Q E) (hpre : ∀ s, P' s → P s)
    (hpost : ∀ a s, Q a s → Q' a s) : Triple P' m Q' E := by
  intro s hs
  have hrun := h s (hpre s hs)
  cases hm : m s with
  | ok a s' =>
    rw [hm] at hrun
    exact hpost a s' hrun
  | error e s' =>
    rw [hm] at hrun
    exact hrun

lemma triple_pure (h : ∀ s, P s → Q a s) : Triple P (pure a : Eff ε σ α) Q E :=
  fun s hs => h s hs

lemma triple_throw (h : ∀ s, P s → E s) : Triple P (throw e : Eff ε σ α) Q E :=
  fun s hs => h s hs

lemma triple_bind {R : β → σ → Prop} {f : α → Eff ε σ β} (hm : Triple P m Q E)
    (hf : ∀ a, Triple (Q a) (f a) R E) : Triple P (m >>= f) R E := by
  intro s hs
  have hrun := hm s hs
  simp only [bind, EStateM.bind]
  cases h : m s with
  | ok a s1 =>
    rw [h] at hrun
    exact hf a s1 hrun
  | error e s1 =>
    rw [h] at hrun
    exact hrun

lemma triple_failIf {Q : Unit → σ → Prop} (herror : ∀ s, P s → c = true → E s)
    (h : ∀ s, P s → c = false → Q () s) : Triple P (failIf c e : Eff ε σ Unit) Q E := by
  cases c with
  | false => exact fun s hs => h s hs rfl
  | true => exact fun s hs => herror s hs rfl

/-- A test about which nothing is remembered. -/
lemma triple_pass (herror : ∀ s, P s → c = true → E s) :
    Triple P (failIf c e : Eff ε σ Unit) (fun _ => P) E :=
  triple_failIf herror (fun _ hs _ => hs)

lemma triple_modify {f : σ → σ} {Q : PUnit → σ → Prop} (h : ∀ s, P s → Q ⟨⟩ (f s)) :
    Triple P (modify f : Eff ε σ PUnit) Q E :=
  fun s hs => h s hs

end Triples

end Eff

/-! ## Computations that can fail, without a state -/

variable {ε α β : Type} {x : Except ε α} {a : α} {b : β} {c : Bool} {e : ε}

lemma exists_ok (h : x.isOk = true) : ∃ a, x = .ok a := by
  cases x with
  | error e => cases h
  | ok a => exact ⟨a, rfl⟩

lemma except_bind_ok_iff {f : α → Except ε β} :
    (x >>= f) = .ok b ↔ ∃ a, x = .ok a ∧ f a = .ok b := by
  cases x with
  | error e => exact ⟨nofun, fun ⟨_, h, _⟩ => (by cases h)⟩
  | ok a => exact ⟨fun h => ⟨a, rfl, h⟩, fun ⟨_, h, h'⟩ => Except.ok.inj h ▸ h'⟩

/-- Stop with `e` when the condition holds. -/
def rejectIf (c : Bool) (e : ε) : Except ε Unit := if c then .error e else .ok ()

@[simp] lemma rejectIf_ok_iff {u : Unit} : rejectIf c e = .ok u ↔ c = false := by
  cases c <;> simp [rejectIf]

lemma except_map_ok_iff {f : α → β} : x.map f = .ok b ↔ ∃ a, x = .ok a ∧ f a = b := by
  cases x with
  | error e => exact ⟨nofun, fun ⟨_, h, _⟩ => (by cases h)⟩
  | ok a => exact ⟨fun h => ⟨a, rfl, Except.ok.inj h⟩, fun ⟨_, h, h'⟩ => Except.ok.inj h ▸ h' ▸ rfl⟩

lemma toOption_eq_some_iff : x.toOption = some a ↔ x = .ok a := by
  cases x <;> simp [Except.toOption]

section FoldlM

variable {ε σ α : Type} {f : σ → α → Except ε σ} {as : List α} {s t : σ} {P : σ → Prop}

/-- What no step changes, the fold does not change. -/
lemma foldl_frame {β γ : Type} {f : β → α → β} (view : β → γ)
    (h : ∀ b, ∀ a ∈ as, view (f b a) = view b) (b : β) : view (as.foldl f b) = view b :=
  List.foldlRecOn (motive := fun b' => view b' = view b) as f rfl
    (fun b' hb a ha => (h b' a ha).trans hb)

lemma foldlM_cons_ok_iff {a : α} :
    (a :: as).foldlM f s = .ok t ↔ ∃ s', f s a = .ok s' ∧ as.foldlM f s' = .ok t := by
  rw [List.foldlM_cons, except_bind_ok_iff]

/-- What every successful step keeps, the fold keeps. -/
lemma foldlM_invariant (hstep : ∀ a ∈ as, ∀ s s', P s → f s a = .ok s' → P s') (h : P s)
    (hok : as.foldlM f s = .ok t) : P t := by
  induction as generalizing s with
  | nil => exact Except.ok.inj hok ▸ h
  | cons a as ih =>
    obtain ⟨s', hs', hrest⟩ := foldlM_cons_ok_iff.mp hok
    exact ih (List.forall_mem_cons.mp hstep).2
      (hstep a (.head _) s s' h hs') hrest

/-- What one element brings about and no later one destroys holds in the end. -/
lemma foldlM_brings {Q : σ → Prop} {a : α} (ha : a ∈ as) (hstep : ∀ s s', f s a = .ok s' → Q s')
    (hkeep : ∀ b ∈ as, ∀ s s', Q s → f s b = .ok s' → Q s') (hok : as.foldlM f s = .ok t) :
    Q t := by
  induction as generalizing s with
  | nil => cases ha
  | cons b as ih =>
    obtain ⟨s', hs', hrest⟩ := foldlM_cons_ok_iff.mp hok
    have hkeep' := (List.forall_mem_cons.mp hkeep).2
    rcases List.mem_cons.mp ha with rfl | ha
    · exact foldlM_invariant hkeep' (hstep s s' hs') hrest
    · exact ih ha hkeep' hrest

/-- What holds before a loop and not after it has been lost at one of the steps. -/
lemma foldlM_loses (hok : as.foldlM f s = .ok t) (hs : P s) (ht : ¬ P t) :
    ∃ before a after s1 s2, as = before ++ a :: after ∧ before.foldlM f s = .ok s1 ∧
      f s1 a = .ok s2 ∧ P s1 ∧ ¬ P s2 := by
  induction as generalizing s with
  | nil => exact absurd (Except.ok.inj hok ▸ hs) ht
  | cons a as ih =>
    obtain ⟨s', hs', hrest⟩ := foldlM_cons_ok_iff.mp hok
    by_cases hkept : P s'
    · obtain ⟨before, b, after, s1, s2, rfl, hbefore, hstep, hs1, hs2⟩ := ih hrest hkept
      exact ⟨a :: before, b, after, s1, s2, rfl, foldlM_cons_ok_iff.mpr ⟨s', hs', hbefore⟩,
        hstep, hs1, hs2⟩
    · exact ⟨[], a, as, s, s', rfl, rfl, hs', hs, hkept⟩

end FoldlM

/-! ## Pre- and postconditions, without a state -/

/-- The computation succeeds with `Q` or fails with `E`. -/
def Ends {ε α : Type} (E : ε → Prop) (Q : α → Prop) : Except ε α → Prop
  | .ok a => Q a
  | .error e => E e

section Ends

variable {ε α β σ : Type} {E E' : ε → Prop} {Q Q' : α → Prop} {x : Except ε α}

section
variable (h : Ends E Q x)
include h

lemma Ends.of_ok {a : α} (hx : x = .ok a) : Q a := by
  rw [hx] at h
  exact h

lemma Ends.of_error {e : ε} (hx : x = .error e) : E e := by
  rw [hx] at h
  exact h

lemma Ends.mono (hE : ∀ e, E e → E' e) (hQ : ∀ a, Q a → Q' a) : Ends E' Q' x := by
  cases x with
  | ok a => exact hQ a h
  | error e => exact hE e h

lemma Ends.post (hQ : ∀ a, Q a → Q' a) : Ends E Q' x := h.mono (fun _ he => he) hQ

lemma Ends.relay (hE : ∀ e, E e → E' e) : Ends E' Q x := h.mono hE (fun _ hQ => hQ)

/-- The postcondition may speak about the run itself. -/
lemma Ends.and_eq : Ends E (fun a => Q a ∧ x = .ok a) x := by
  cases x with
  | ok a => exact ⟨h, rfl⟩
  | error e => exact h

lemma Ends.bind {R : β → Prop} {f : α → Except ε β} (hf : ∀ a, Q a → Ends E R (f a)) :
    Ends E R (x >>= f) := by
  cases x with
  | ok a => exact hf a h
  | error e => exact h

end

lemma ends_rejectIf {c : Bool} {e : ε} (herror : c = true → E e) :
    Ends E (fun _ => c = false) (rejectIf c e) := by
  cases c with
  | false => exact rfl
  | true => exact herror rfl

/-- A loop whose invariant speaks about the elements that have had their turn. -/
lemma ends_foldlM {f : σ → α → Except ε σ} (Inv : List α → σ → Prop) {as : List α} {s : σ}
    (hstart : Inv [] s) (hstep : ∀ done a rest, as = done ++ a :: rest → ∀ s, Inv done s →
      Ends E (Inv (done ++ [a])) (f s a)) : Ends E (Inv as) (as.foldlM f s) := by
  suffices h : ∀ done rest s, as = done ++ rest → Inv done s →
    Ends E (Inv as) (rest.foldlM f s) from
    h [] as s rfl hstart
  intro done rest s has hinv
  induction rest generalizing done s with
  | nil =>
    rw [List.append_nil] at has
    exact has ▸ hinv
  | cons a rest ih =>
    rw [List.foldlM_cons]
    refine (hstep done a rest has s hinv).bind (fun s' hs' => ih (done ++ [a]) s' ?_ hs')
    rw [has, List.append_assoc, List.singleton_append]

end Ends

end Tecracoin.Data
