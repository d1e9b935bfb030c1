/-
  Secondary indexes over a map of entries.

  Every entry has a list of keys.  An index names for each key the entry that has
  it, by the key of the entry or by something else; a reference list holds pairs
  that the entries contribute.  The rules below say when adding and removing an
  entry keeps an index exact: the keys of a new entry have to be free, and the
  keys of a removed one may be erased blindly.
-/
import Tecracoin.Data.StdMap

namespace Tecracoin.Data

open StdMap

variable {K O E R V : Type} [DecidableEq K] [DecidableEq O]

/-- The index gives, for every key, the name of the entry that has it. -/
def Indexed (keysOf : E → List K) (nameOf : O → E → V) (entries : StdMap O E)
    (index : StdMap K V) : Prop :=
  ∀ k v, index.get? k = some v ↔ ∃ o e, entries.get? o = some e ∧ nameOf o e = v ∧ k ∈ keysOf e

variable (lt : O → O → Bool)

namespace Indexed

variable {keysOf : E → List K} {nameOf : O → E → V} {entries : StdMap O E} {index : StdMap K V}
  {o : O} {e : E} {k : K} (h : Indexed keysOf nameOf entries index)
include h

lemma get?_eq_none_iff : index.get? k = none ↔ ∀ o e, entries.get? o = some e → k ∉ keysOf e := by
  constructor
  · intro hnone o e hget hkey
    rw [(h k _).mpr ⟨o, e, hget, rfl, hkey⟩] at hnone
    cases hnone
  · intro hall
    refine Option.eq_none_iff_forall_ne_some.mpr (fun v hindex => ?_)
    obtain ⟨o, e, hget, -, hkey⟩ := (h k v).mp hindex
    exact absurd hkey (hall o e hget)

lemma add (lt' : K → K → Bool) (hnew : entries.get? o = none)
    (hfree : ∀ k ∈ keysOf e, index.get? k = none) : Indexed keysOf nameOf (entries.insert lt o e)
      ((keysOf e).foldl (fun index k => index.insert lt' k (nameOf o e)) index) := by
  intro k v
  -- the new entry, or what the index had
  rw [get?_foldl_insert_const]
  simp only [get?_insert_eq_some_iff hnew, or_and_right, exists_or, and_assoc,
    exists_and_left, exists_eq_left]
  rw [← h k v]
  by_cases hkey : k ∈ keysOf e
  · simp [hfree k hkey, hkey]
  · simp [hkey]

/-- The keys of a removed entry were its own, if no other entry has its name. -/
lemma remove (hget : entries.get? o = some e)
    (hname : ∀ o' e', entries.get? o' = some e' → nameOf o' e' = nameOf o e → o' = o) :
    Indexed keysOf nameOf (entries.erase o)
      ((keysOf e).foldl (fun index k => index.erase k) index) := by
  intro k v
  simp only [get?_foldl_erase, get?_erase_eq_some_iff, and_assoc]
  split_ifs with hkey
  · refine ⟨by simp, ?_⟩
    rintro ⟨o', e', hne, hget', hrest⟩
    have hindex := (h k _).mpr ⟨o, e, hget, rfl, hkey⟩
    have hindex' := (h k _).mpr ⟨o', e', hget', hrest⟩
    exact absurd (hname o' e' hget' (hrest.1.trans
      (Option.some.inj (hindex'.symm.trans hindex)))) hne
  · rw [h k v]
    constructor
    · rintro ⟨o', e', hget', hrest⟩
      refine ⟨o', e', ?_, hget', hrest⟩
      rintro rfl
      exact hkey (Option.some.inj (hget.symm.trans hget') ▸ hrest.2)
    · rintro ⟨o', e', -, hrest⟩
      exact ⟨o', e', hrest⟩

end Indexed

/-- The index names the entries by their own keys. -/
def KeyIndexed (keysOf : E → List K) (entries : StdMap O E) (index : StdMap K O) : Prop :=
  ∀ k o, index.get? k = some o ↔ ∃ e, entries.get? o = some e ∧ k ∈ keysOf e

namespace KeyIndexed

variable {keysOf : E → List K} {entries : StdMap O E} {index : StdMap K O} {o : O} {e : E} {k : K}

lemma iff_indexed :
    KeyIndexed keysOf entries index ↔ Indexed keysOf (fun o _ => o) entries index := by
  refine forall₂_congr (fun k o => iff_congr Iff.rfl ?_)
  constructor
  · rintro ⟨e, hget, hkey⟩
    exact ⟨o, e, hget, rfl, hkey⟩
  · rintro ⟨_, e, hget, rfl, hkey⟩
    exact ⟨e, hget, hkey⟩

lemma empty (keysOf : E → List K) : KeyIndexed keysOf (.empty : StdMap O E) .empty := by
  intro k o
  simp

section
variable (h : KeyIndexed keysOf entries index)
include h

lemma get?_eq_none_iff : index.get? k = none ↔ ∀ o e, entries.get? o = some e → k ∉ keysOf e :=
  (iff_indexed.mp h).get?_eq_none_iff

lemma exists_of_contains (hcontains : index.contains k = true) :
    ∃ o e, entries.get? o = some e ∧ k ∈ keysOf e := by
  obtain ⟨o, hindex⟩ := Option.isSome_iff_exists.mp hcontains
  obtain ⟨e, hget, hkey⟩ := (h k o).mp hindex
  exact ⟨o, e, hget, hkey⟩

lemma add (lt' : K → K → Bool) (hnew : entries.get? o = none)
    (hfree : ∀ k ∈ keysOf e, index.get? k = none) : KeyIndexed keysOf (entries.insert lt o e)
      ((keysOf e).foldl (fun index k => index.insert lt' k o) index) :=
  iff_indexed.mpr ((iff_indexed.mp h).add lt lt' hnew hfree)

lemma remove (hget : entries.get? o = some e) : KeyIndexed keysOf (entries.erase o)
      ((keysOf e).foldl (fun index k => index.erase k) index) :=
  iff_indexed.mpr ((iff_indexed.mp h).remove hget (fun _ _ _ hsame => hsame))

end

end KeyIndexed

/-- The pairs of a multimap are those that the entries contribute. -/
def RefIndexed (refsOf : E → List R) (entries : StdMap O E) (refs : List R) : Prop :=
  refs.Nodup ∧ ∀ r, r ∈ refs ↔ ∃ o e, entries.get? o = some e ∧ r ∈ refsOf e

namespace RefIndexed

variable {refsOf : E → List R} {entries : StdMap O E} {refs : List R} {o : O} {e : E}

lemma empty (refsOf : E → List R) : RefIndexed refsOf (.empty : StdMap O E) [] := by
  refine ⟨List.nodup_nil, fun r => ?_⟩
  simp

section
variable (h : RefIndexed refsOf entries refs)
include h

lemma add (hnew : entries.get? o = none) (hnodup : (refsOf e).Nodup)
    (hapart : ∀ o' e', entries.get? o' = some e' → ∀ r ∈ refsOf e, r ∉ refsOf e') :
    RefIndexed refsOf (entries.insert lt o e) (refs ++ refsOf e) := by
  constructor
  · refine List.nodup_append.mpr ⟨h.1, hnodup, ?_⟩
    rintro r hold _ hr rfl
    obtain ⟨o', e', hget', hr'⟩ := (h.2 r).mp hold
    exact hapart o' e' hget' r hr hr'
  · intro r
    rw [List.mem_append, h.2 r]
    simp only [get?_insert_eq_some_iff hnew, or_and_right, exists_or, and_assoc,
      exists_and_left, exists_eq_left]
    exact or_comm

/-- Pairs that no other entry contributes can be filtered out. -/
lemma remove (hget : entries.get? o = some e) (keep : R → Bool)
    (hown : ∀ r ∈ refsOf e, keep r = false)
    (hapart : ∀ o' e', o' ≠ o → entries.get? o' = some e' → ∀ r ∈ refsOf e', keep r = true) :
    RefIndexed refsOf (entries.erase o) (refs.filter keep) := by
  refine ⟨h.1.filter _, fun r => ?_⟩
  simp only [List.mem_filter, h.2 r, get?_erase_eq_some_iff, and_assoc]
  constructor
  · rintro ⟨⟨o', e', hget', hr⟩, hkeep⟩
    refine ⟨o', e', ?_, hget', hr⟩
    rintro rfl
    cases hget.symm.trans hget'
    cases (hown r hr).symm.trans hkeep
  · rintro ⟨o', e', hne, hget', hr⟩
    exact ⟨⟨o', e', hget', hr⟩, hapart o' e' hne hget' r hr⟩

end

end RefIndexed

end Tecracoin.Data
