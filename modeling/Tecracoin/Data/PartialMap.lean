/-
  Partial functions as the abstract meaning of a store: which keys are bound,
  and to what.  Two operations are enough for a ledger: `without` unbinds keys
  and `extend` binds new ones.  Both are what key by key updates add up to.

  `extend_without_restore` is the law a roll back rests on: after some bindings
  have been taken out and fresh ones put in, taking the fresh ones out and
  putting the old ones back gives the store one started from.
-/
import Tecracoin.Data.StdMap

namespace Tecracoin.Data

open StdMap

/-- A store: what each key is bound to, if anything. -/
abbrev PartialMap (K V : Type) := K → Option V

namespace PartialMap

variable {K V : Type} [DecidableEq K]

/-- Unbind the keys of a list. -/
def without (u : PartialMap K V) (ks : List K) : PartialMap K V :=
  fun k => if k ∈ ks then none else u k

/-- Bind the entries of a list; of several entries for one key the first counts. -/
def extend (u : PartialMap K V) (es : List (K × V)) : PartialMap K V :=
  fun k => (lookup k es).or (u k)

variable {u : PartialMap K V} {k k' : K} {v : V} {ks : List K} {es : List (K × V)}

@[simp] lemma without_nil : u.without [] = u := by
  funext k
  simp [without]

lemma without_of_mem (h : k ∈ ks) : u.without ks k = none := if_pos h

lemma without_of_notMem (h : k ∉ ks) : u.without ks k = u k := if_neg h

lemma without_eq_none (h : u k = none) : u.without ks k = none := by
  rw [without, h, ite_self]

lemma without_append {ks' : List K} : u.without (ks ++ ks') = (u.without ks).without ks' := by
  funext k
  by_cases hk : k ∈ ks' <;> simp [without, hk]

lemma without_reverse : u.without ks.reverse = u.without ks := by
  funext k
  simp [without]

@[simp] lemma extend_nil : u.extend [] = u := by
  funext k
  simp [extend, lookup]

lemma extend_of_notMem (h : k ∉ es.map Prod.fst) : u.extend es k = u k := by
  rw [extend, lookup_eq_none_iff.mpr h, Option.none_or]

lemma extend_of_nodup (hnodup : (es.map Prod.fst).Nodup) {e : K × V} (he : e ∈ es) :
    u.extend es e.1 = some e.2 := by
  rw [extend, lookup_of_mem hnodup he, Option.some_or]

/-- The entries of a list agree with `u`: what is bound by them is what `u` says. -/
lemma extend_of_mem (hes : ∀ e ∈ es, u e.1 = some e.2) {w : PartialMap K V}
    (h : k ∈ es.map Prod.fst) : w.extend es k = u k := by
  obtain ⟨e, he, rfl⟩ := List.mem_map.mp h
  cases hlookup : lookup e.1 es with
  | none => exact absurd h (lookup_eq_none_iff.mp hlookup)
  | some v =>
    have hv : u e.1 = some v := hes (e.1, v) (mem_of_lookup hlookup)
    rw [extend, hlookup, Option.some_or, hv]

lemma extend_append {es' : List (K × V)} : u.extend (es ++ es') = (u.extend es').extend es := by
  funext k
  rw [extend, lookup_append, Option.or_assoc]
  rfl

/-- What is taken out and what is put in can be undone. -/
lemma extend_without_restore {ins outs : List (K × V)} (hins : ∀ e ∈ ins, u e.1 = some e.2)
    (houts : ∀ e ∈ outs, u e.1 = none) :
    (((u.without (ins.map Prod.fst)).extend outs).without (outs.map Prod.fst)).extend ins = u := by
  funext k
  by_cases hin : k ∈ ins.map Prod.fst
  · exact extend_of_mem hins hin
  · rw [extend_of_notMem hin]
    by_cases hout : k ∈ outs.map Prod.fst
    · obtain ⟨e, he, rfl⟩ := List.mem_map.mp hout
      rw [without_of_mem hout, houts e he]
    · rw [without_of_notMem hout, extend_of_notMem hout, without_of_notMem hin]

/-! ## One key at a time -/

lemma foldl_update_none :
    ks.foldl (fun (m : PartialMap K V) k => Function.update m k none) u = u.without ks := by
  induction ks generalizing u with
  | nil => exact without_nil.symm
  | cons k ks ih =>
    rw [List.foldl_cons, ih, ← List.singleton_append, without_append]
    congr 1
    funext k'
    by_cases hk : k' = k <;> simp [without, hk]

lemma foldl_update_some (hnodup : (es.map Prod.fst).Nodup) (u : PartialMap K V) :
    es.foldl (fun (m : PartialMap K V) e => Function.update m e.1 (some e.2)) u = u.extend es := by
  induction es generalizing u with
  | nil => exact extend_nil.symm
  | cons e es ih =>
    obtain ⟨hnew, hrest⟩ := List.nodup_cons.mp hnodup
    rw [List.foldl_cons, ih hrest]
    funext k
    by_cases hk : k = e.1
    · subst hk
      rw [extend_of_notMem hnew, Function.update_self, extend_of_nodup hnodup (.head _)]
    · have hne : e.1 ≠ k := fun h => hk h.symm
      rw [extend, Function.update_of_ne hk, extend, lookup, if_neg hne]

end PartialMap

end Tecracoin.Data
