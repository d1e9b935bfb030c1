/-
  A reference counted index: which owner holds a property, and how often.

  The intended use is an index in which every property is held once, so that
  the counts never matter.  `Exact` says which relation between properties and
  owners the index stands for, and the rules below say what taking, giving back
  and exchanging a property does to that relation.  Each rule comes with its
  converse: the operations are refused exactly when a property is in the wrong
  hands.
-/
import Tecracoin.Data.StdMap

namespace Tecracoin.Data

open StdMap

/-- Properties with their owner and the number of references. -/
abbrev OwnerIndex (P O : Type) := StdMap P (O × Nat)

namespace OwnerIndex

variable {P O : Type} [DecidableEq P]

/-- One more reference of `o` to `p`; refused when somebody else holds `p`. -/
def acquire [DecidableEq O] (idx : OwnerIndex P O) (p : P) (o : O) : Option (OwnerIndex P O) :=
  match idx.get? p with
  | none => some (idx.set unordered p (o, 1))
  | some (o', n) => if o' = o then some (idx.set unordered p (o, n + 1)) else none

/-- One reference of `o` to `p` less; refused when `o` does not hold `p`. -/
def release [DecidableEq O] (idx : OwnerIndex P O) (p : P) (o : O) : Option (OwnerIndex P O) :=
  match idx.get? p with
  | none => none
  | some (o', n) =>
    if o' = o then
      some (if n = 1 then idx.erase p else idx.set unordered p (o, n - 1))
    else none

/-- The index holds the properties of `R`, each once, and nothing else. -/
def Exact (idx : OwnerIndex P O) (R : P → O → Prop) : Prop :=
  ∀ p e, idx.get? p = some e ↔ ∃ o, R p o ∧ e = (o, 1)

namespace Exact

variable {idx idx' : OwnerIndex P O} {R R' : P → O → Prop} {p : P} {o o' : O}

lemma empty : Exact (.empty : OwnerIndex P O) (fun _ _ => False) := by
  intro p e
  simp

section
variable (h : Exact idx R)
include h

lemma congr (hiff : ∀ p o, R p o ↔ R' p o) : Exact idx R' := by
  intro p e
  rw [h p e]
  simp only [hiff]

lemma get?_of (hR : R p o) : idx.get? p = some (o, 1) :=
  (h p _).mpr ⟨o, hR, rfl⟩

lemma functional (hR : R p o) (hR' : R p o') : o = o' := by
  have hsame := (h.get?_of hR).symm.trans (h.get?_of hR')
  exact congrArg Prod.fst (Option.some.inj hsame)

lemma get?_eq_none_iff : idx.get? p = none ↔ ∀ o, ¬ R p o := by
  constructor
  · intro hnone o hR
    rw [h.get?_of hR] at hnone
    cases hnone
  · intro hfree
    refine Option.eq_none_iff_forall_ne_some.mpr (fun e hget => ?_)
    obtain ⟨o, hR, _⟩ := (h p e).mp hget
    exact absurd hR (hfree o)

lemma contains_iff : idx.contains p = true ↔ ∃ o, R p o := by
  rw [contains, Option.isSome_iff_exists]
  constructor
  · rintro ⟨e, he⟩
    obtain ⟨o, hR, _⟩ := (h p e).mp he
    exact ⟨o, hR⟩
  · rintro ⟨o, hR⟩
    exact ⟨_, h.get?_of hR⟩

end

/-! ## Taking a property -/

variable [DecidableEq O]

lemma acquire (h : Exact idx R) (hfree : ∀ o', ¬ R p o') (o : O) :
    ∃ idx', idx.acquire p o = some idx' ∧ Exact idx' (fun q o' => R q o' ∨ (q = p ∧ o' = o)) := by
  refine ⟨idx.set unordered p (o, 1), ?_, ?_⟩
  · rw [OwnerIndex.acquire, h.get?_eq_none_iff.mpr hfree]
  · intro q e
    by_cases hq : q = p
    · subst hq
      rw [get?_set_self]
      constructor
      · intro he
        exact ⟨o, .inr ⟨rfl, rfl⟩, (Option.some.inj he).symm⟩
      · rintro ⟨o', hR | ⟨_, rfl⟩, rfl⟩
        · exact absurd hR (hfree o')
        · rfl
    · rw [get?_set_of_ne hq, h q e]
      simp only [hq, false_and, or_false]

lemma acquire_of_other (h : Exact idx R) (hR : R p o') (hne : o' ≠ o) :
    idx.acquire p o = none := by
  rw [OwnerIndex.acquire, h.get?_of hR]
  exact if_neg hne

/-! ## Giving a property back -/

lemma release (h : Exact idx R) (hR : R p o) :
    ∃ idx', idx.release p o = some idx' ∧ Exact idx' (fun q o' => R q o' ∧ q ≠ p) := by
  refine ⟨idx.erase p, ?_, ?_⟩
  · rw [OwnerIndex.release, h.get?_of hR]
    simp
  · intro q e
    by_cases hq : q = p
    · subst hq
      simp
    · rw [get?_erase_of_ne hq, h q e]
      simp only [hq, ne_eq, not_false_eq_true, and_true]

end Exact

/-! ## Exchanging one property for another -/

variable [DecidableEq O]

/-- Take a property, where `none` stands for no property. -/
def acquire? (idx : OwnerIndex P O) (p : Option P) (o : O) : Option (OwnerIndex P O) :=
  match p with
  | none => some idx
  | some p => idx.acquire p o

def release? (idx : OwnerIndex P O) (p : Option P) (o : O) : Option (OwnerIndex P O) :=
  match p with
  | none => some idx
  | some p => idx.release p o

/-- Give `old` back and take `new`. -/
def exchange (idx : OwnerIndex P O) (old new : Option P) (o : O) : Option (OwnerIndex P O) :=
  if old = new then some idx else (idx.release? old o).bind (fun idx => idx.acquire? new o)

namespace Exact

variable {idx idx' : OwnerIndex P O} {R : P → O → Prop} {o : O} {old new p : Option P}

lemma acquire? (h : Exact idx R) (hfree : ∀ q ∈ p, ∀ o', ¬ R q o') (o : O) :
    ∃ idx', idx.acquire? p o = some idx' ∧ Exact idx' (fun q o' => R q o' ∨ (q ∈ p ∧ o' = o)) := by
  cases p with
  | none => exact ⟨idx, rfl, h.congr (by simp)⟩
  | some p =>
    obtain ⟨idx', hidx', hexact⟩ := h.acquire (hfree p rfl) o
    refine ⟨idx', hidx', hexact.congr (fun q o' => ?_)⟩
    rw [Option.mem_some, eq_comm (a := p)]

lemma release? (h : Exact idx R) (hR : ∀ q ∈ p, R q o) :
    ∃ idx', idx.release? p o = some idx' ∧ Exact idx' (fun q o' => R q o' ∧ q ∉ p) := by
  cases p with
  | none => exact ⟨idx, rfl, h.congr (by simp)⟩
  | some p =>
    obtain ⟨idx', hidx', hexact⟩ := h.release (hR p rfl)
    refine ⟨idx', hidx', hexact.congr (fun q o' => ?_)⟩
    rw [Option.mem_some, eq_comm (a := p)]

/-- What an exchange makes of the relation, unless the new property is in other hands. -/
lemma exchange (h : Exact idx R) (hold : ∀ p ∈ old, R p o) (hself : ∀ p ∈ new, R p o → new = old) :
    ((∀ p ∈ new, ∀ o', R p o' → o' = o) ∧ ∃ idx', idx.exchange old new o = some idx' ∧
      Exact idx' (fun q o' => (R q o' ∧ q ∉ old) ∨ (q ∈ new ∧ o' = o))) ∨
    (¬ (∀ p ∈ new, ∀ o', R p o' → o' = o) ∧ idx.exchange old new o = none) := by
  by_cases hsame : old = new
  · subst hsame
    refine .inl ⟨fun p hp o' hR => h.functional hR (hold p hp), idx, if_pos rfl,
      h.congr (fun q o' => ?_)⟩
    constructor
    · intro hR
      by_cases hq : q ∈ old
      · exact .inr ⟨hq, h.functional hR (hold q hq)⟩
      · exact .inl ⟨hR, hq⟩
    · rintro (⟨hR, _⟩ | ⟨hq, rfl⟩)
      · exact hR
      · exact hold q hq
  · -- first the old property goes, then the new one comes
    obtain ⟨idx1, hidx1, hexact1⟩ := h.release? hold
    rw [OwnerIndex.exchange, if_neg hsame, hidx1]
    by_cases hfree : ∀ q ∈ new, ∀ o', ¬ R q o'
    · obtain ⟨idx2, hidx2, hexact2⟩ := hexact1.acquire? (fun q hq o' hR => hfree q hq o' hR.1) o
      exact .inl ⟨fun p hp o' hR => absurd hR (hfree p hp o'), idx2, hidx2, hexact2⟩
    · push Not at hfree
      obtain ⟨q, hq, o', hR⟩ := hfree
      obtain rfl : new = some q := hq
      have hne : o' ≠ o := fun ho => hsame (hself q rfl (ho ▸ hR)).symm
      exact .inr ⟨fun hown => hne (hown q rfl o' hR),
        hexact1.acquire_of_other ⟨hR, fun hq => hsame hq⟩ hne⟩

end Exact

/-! ## Several exchanges in a row -/

/-- Exchange the properties of one owner, pair by pair. -/
def exchangeAll (idx : OwnerIndex P O) (ps : List (Option P × Option P)) (o : O) :
    Option (OwnerIndex P O) :=
  ps.foldlM (fun idx e => idx.exchange e.1 e.2 o) idx

/-- The two pairs have no property in common. -/
def Apart (e e' : Option P × Option P) : Prop :=
  ∀ p, p ∈ e.1 ∨ p ∈ e.2 → p ∉ e'.1 ∧ p ∉ e'.2

variable {idx : OwnerIndex P O} {o : O} {p : Option P}

lemma exchangeAll_nil : idx.exchangeAll [] o = some idx := rfl

lemma exchangeAll_cons {idx' : OwnerIndex P O} {e : Option P × Option P}
    {ps : List (Option P × Option P)} :
    idx.exchangeAll (e :: ps) o = some idx' ↔
      ∃ idx1, idx.exchange e.1 e.2 o = some idx1 ∧ idx1.exchangeAll ps o = some idx' := by
  rw [exchangeAll, List.foldlM_cons]
  exact Option.bind_eq_some_iff

lemma exchange_none_left : idx.exchange none p o = idx.acquire? p o := by
  cases p <;> rfl

lemma exchange_none_right : idx.exchange p none o = idx.release? p o := by
  cases p with
  | none => rfl
  | some p =>
    rw [exchange, if_neg (Option.some_ne_none p)]
    exact Option.bind_fun_some _

namespace Exact

variable {R : P → O → Prop} {o : O}

/-- The exchanges are made unless one of the new properties is in other hands. -/
lemma exchangeAll (h : Exact idx R) (ps : List (Option P × Option P))
    (hold : ∀ e ∈ ps, ∀ p ∈ e.1, R p o) (hself : ∀ e ∈ ps, ∀ p ∈ e.2, R p o → e.2 = e.1)
    (hapart : ps.Pairwise Apart) :
    ((∀ e ∈ ps, ∀ p ∈ e.2, ∀ o', R p o' → o' = o) ∧ ∃ idx', idx.exchangeAll ps o = some idx' ∧
      Exact idx' (fun q o' =>
        (R q o' ∧ ∀ e ∈ ps, q ∉ e.1) ∨ ((∃ e ∈ ps, q ∈ e.2) ∧ o' = o))) ∨
    (¬ (∀ e ∈ ps, ∀ p ∈ e.2, ∀ o', R p o' → o' = o) ∧ idx.exchangeAll ps o = none) := by
  induction ps generalizing idx R with
  | nil => exact .inl ⟨nofun, idx, rfl, h.congr (by simp)⟩
  | cons e ps ih =>
    obtain ⟨hrest, hapart⟩ := List.pairwise_cons.mp hapart
    rw [List.forall_mem_cons] at hold hself ⊢
    rw [OwnerIndex.exchangeAll, List.foldlM_cons]
    rcases h.exchange hold.1 hself.1 with ⟨hfirst, idx1, hidx1, hexact1⟩ | ⟨hfirst, hnone⟩
    · -- the first pair does not touch what the others are about
      have hnew : ∀ e' ∈ ps, ∀ p ∈ e'.2, ∀ o',
          (R p o' ∧ p ∉ e.1) ∨ (p ∈ e.2 ∧ o' = o) ↔ R p o' := by
        intro e' he' p hp o'
        constructor
        · rintro (⟨hR, _⟩ | ⟨hpe, _⟩)
          · exact hR
          · exact absurd hp (hrest e' he' p (.inr hpe)).2
        · exact fun hR => .inl ⟨hR, fun hpe => (hrest e' he' p (.inl hpe)).2 hp⟩
      have hold1 : ∀ e' ∈ ps, ∀ p ∈ e'.1, (R p o ∧ p ∉ e.1) ∨ (p ∈ e.2 ∧ o = o) :=
        fun e' he' p hp =>
          .inl ⟨hold.2 e' he' p hp, fun hpe => (hrest e' he' p (.inl hpe)).1 hp⟩
      rw [hidx1]
      rcases ih hexact1 hold1 (fun e' he' p hp hR =>
        hself.2 e' he' p hp ((hnew e' he' p hp o).mp hR))
        hapart with ⟨hothers, idx2, hidx2, hexact2⟩ | ⟨hothers, hnone⟩
      · refine .inl ⟨⟨hfirst, fun e' he' p hp o' hR =>
          hothers e' he' p hp o' ((hnew e' he' p hp o').mpr hR)⟩, idx2, hidx2,
          hexact2.congr (fun q o' => ?_)⟩
        simp only [List.forall_mem_cons, List.exists_mem_cons_iff]
        constructor
        · rintro (⟨⟨hR, hq⟩ | ⟨hq, rfl⟩, hothers⟩ | ⟨hq, rfl⟩)
          · exact .inl ⟨hR, hq, hothers⟩
          · exact .inr ⟨.inl hq, rfl⟩
          · exact .inr ⟨.inr hq, rfl⟩
        · rintro (⟨hR, hq, hothers⟩ | ⟨hq | hq, rfl⟩)
          · exact .inl ⟨.inl ⟨hR, hq⟩, hothers⟩
          · refine .inl ⟨.inr ⟨hq, rfl⟩, fun e' he' => ?_⟩
            exact (hrest e' he' q (.inr hq)).1
          · exact .inr ⟨hq, rfl⟩
      · exact .inr ⟨fun hall => hothers (fun e' he' p hp o' hR =>
          hall.2 e' he' p hp o' ((hnew e' he' p hp o').mp hR)), hnone⟩
    · rw [hnone]
      exact .inr ⟨fun hall => hfirst hall.1, rfl⟩

end Exact

end OwnerIndex
end Tecracoin.Data
