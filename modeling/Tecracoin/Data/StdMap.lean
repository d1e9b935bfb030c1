/-
  Finite maps as lists of entries with pairwise distinct keys.

  The entries stand in iteration order.  `set` takes the comparison `lt` that
  decides where a new key goes, so one structure serves both an ordered map
  (`lt` the key order) and a hash map (`lt` constantly `false`: a new entry is
  appended).  No lemma below depends on the comparison: lookups and key sets
  are the same for every iteration order.

  That keys are distinct is a field of the structure, so a caller never
  re-proves it.
-/
import Mathlib.Tactic

namespace Tecracoin.Data

open List

/-- A finite map: its entries in iteration order, no key twice. -/
structure StdMap (K V : Type) where
  entries : List (K × V)
  nodupKeys : (entries.map Prod.fst).Nodup

namespace StdMap

variable {K V : Type} {m : StdMap K V} {k k' : K} {v : V} {e : K × V} {es : List (K × V)}

@[ext] lemma ext {m' : StdMap K V} (h : m.entries = m'.entries) : m = m' := by
  cases m; cases m'; simp_all

instance [DecidableEq K] [DecidableEq V] : DecidableEq (StdMap K V) := fun m m' =>
  decidable_of_iff (m.entries = m'.entries) ⟨ext, fun h => h ▸ rfl⟩

/-- The map without entries. -/
def empty : StdMap K V := ⟨[], nodup_nil⟩

/-- The comparison of a hash map: it has no key order, a new entry is appended. -/
def unordered (_ _ : K) : Bool := false

/-- The keys, in iteration order. -/
def keys (m : StdMap K V) : List K := m.entries.map Prod.fst

lemma nodup_entries : m.entries.Nodup := m.nodupKeys.of_map

/-! ## Lookup -/

section Lookup

variable [DecidableEq K]

/-- First entry of an entry list with the given key. -/
def lookup (k : K) : List (K × V) → Option V
  | [] => none
  | (k', v) :: es => if k' = k then some v else lookup k es

/-- `find`: the value stored under `k`. -/
def get? (m : StdMap K V) (k : K) : Option V := lookup k m.entries

/-- `count(k) != 0`. -/
def contains (m : StdMap K V) (k : K) : Bool := (m.get? k).isSome

@[simp] lemma get?_empty : (empty : StdMap K V).get? k = none := rfl

lemma lookup_eq_list : lookup k es = es.lookup k := by
  induction es with
  | nil => rfl
  | cons e es ih =>
    rw [lookup, lookup_cons, ih]
    by_cases hk : e.1 = k
    · simp [hk]
    · simp [hk, beq_false_of_ne (Ne.symm hk)]

lemma lookup_eq_none_iff : lookup k es = none ↔ k ∉ es.map Prod.fst := by
  rw [lookup_eq_list, List.lookup_eq_none_iff]
  simp only [mem_map, not_exists, not_and, bne_iff_ne, ne_comm]

lemma mem_of_lookup (h : lookup k es = some v) : (k, v) ∈ es := by
  rw [lookup_eq_list] at h
  obtain ⟨before, after, rfl, -⟩ := lookup_eq_some_iff.mp h
  exact mem_append_cons_self

/-- Lookup finds an entry whose key has no other value. -/
lemma lookup_eq_some_iff (hunique : ∀ v v', (k, v) ∈ es → (k, v') ∈ es → v = v') :
    lookup k es = some v ↔ (k, v) ∈ es := by
  refine ⟨mem_of_lookup, fun hmem => ?_⟩
  cases hlook : lookup k es with
  | none => exact absurd (mem_map_of_mem hmem) (lookup_eq_none_iff.mp hlook)
  | some v' => rw [hunique v' v (mem_of_lookup hlook) hmem]

lemma lookup_of_mem (hn : (es.map Prod.fst).Nodup) (h : (k, v) ∈ es) : lookup k es = some v := by
  refine (lookup_eq_some_iff (fun v v' hv hv' => ?_)).mpr h
  exact congrArg Prod.snd (inj_on_of_nodup_map hn hv hv' rfl)

lemma get?_eq_some_iff : m.get? k = some v ↔ (k, v) ∈ m.entries :=
  ⟨mem_of_lookup, lookup_of_mem m.nodupKeys⟩

lemma get?_eq_none_iff : m.get? k = none ↔ k ∉ m.keys :=
  lookup_eq_none_iff

lemma contains_iff : m.contains k = true ↔ k ∈ m.keys := by
  rw [contains, ← not_iff_not, ← get?_eq_none_iff]
  simp

lemma mem_keys_of_get? (h : m.get? k = some v) : k ∈ m.keys :=
  mem_map.mpr ⟨(k, v), get?_eq_some_iff.mp h, rfl⟩

end Lookup

/-! ## Writing one key -/

section Write

variable {lt : K → K → Bool}

lemma takeWhile_cons_dropWhile_perm {α : Type} (p : α → Bool) (e : α) (es : List α) :
    (es.takeWhile p ++ e :: es.dropWhile p).Perm (e :: es) := by
  have h := @perm_middle _ e (es.takeWhile p) (es.dropWhile p)
  rwa [takeWhile_append_dropWhile] at h

variable [DecidableEq K] {w : V}

section

variable (lt : K → K → Bool)

/-- Entry list with `k` overwritten in place, or placed by `lt` when new. -/
def put (k : K) (v : V) (es : List (K × V)) : List (K × V) :=
  if k ∈ es.map Prod.fst then es.map (fun e => if e.1 = k then (k, v) else e)
  else es.takeWhile (fun e => !lt k e.1) ++ (k, v) :: es.dropWhile (fun e => !lt k e.1)

lemma map_fst_overwrite :
    (es.map (fun e => if e.1 = k then (k, v) else e)).map Prod.fst = es.map Prod.fst := by
  induction es with
  | nil => rfl
  | cons e es ih =>
    simp only [map_cons, ih, cons.injEq, and_true]
    by_cases hk : e.1 = k <;> simp [hk]

lemma nodup_put (hn : (es.map Prod.fst).Nodup) : ((put lt k v es).map Prod.fst).Nodup := by
  unfold put
  split
  · rw [map_fst_overwrite]; exact hn
  · rename_i hk
    have hperm := (takeWhile_cons_dropWhile_perm (fun e => !lt k e.1) (k, v) es).map Prod.fst
    exact hperm.nodup_iff.mpr (nodup_cons.mpr ⟨hk, hn⟩)

/-- `m[k] = v`. -/
def set (m : StdMap K V) (k : K) (v : V) : StdMap K V :=
  ⟨put lt k v m.entries, nodup_put lt m.nodupKeys⟩

/-- `m.insert(make_pair(k, v))`: a present key keeps its value. With a default for `v` this is also
    what a read through `operator[]` does to the map. -/
def insert (m : StdMap K V) (k : K) (v : V) : StdMap K V :=
  if m.contains k then m else m.set lt k v

end

/-- `m.erase(k)`. -/
def erase (m : StdMap K V) (k : K) : StdMap K V :=
  ⟨m.entries.filter (fun e => !decide (e.1 = k)), m.nodupKeys.sublist (filter_sublist.map _)⟩

lemma mem_put : e ∈ put lt k v es ↔ e = (k, v) ∨ (e ∈ es ∧ e.1 ≠ k) := by
  unfold put
  split
  · rename_i hk
    constructor
    · intro h
      obtain ⟨e', he', rfl⟩ := mem_map.mp h
      by_cases hek : e'.1 = k
      · simp [hek]
      · simp [hek, he']
    · rintro (rfl | ⟨he, hne⟩)
      · obtain ⟨e', he', hfst⟩ := mem_map.mp hk
        exact mem_map.mpr ⟨e', he', by simp [hfst]⟩
      · exact mem_map.mpr ⟨e, he, by simp [hne]⟩
  · rename_i hk
    rw [(takeWhile_cons_dropWhile_perm _ _ _).mem_iff, mem_cons]
    refine or_congr_right ⟨fun h => ⟨h, ?_⟩, fun h => h.1⟩
    rintro rfl
    exact hk (mem_map.mpr ⟨e, h, rfl⟩)

/-- The entries after a write: the new one, and the old ones under other keys. -/
lemma mem_entries_set : e ∈ (m.set lt k v).entries ↔ e = (k, v) ∨ (e ∈ m.entries ∧ e.1 ≠ k) :=
  mem_put

@[simp] lemma get?_set_self : (m.set lt k v).get? k = some v :=
  get?_eq_some_iff.mpr (mem_entries_set.mpr (.inl rfl))

lemma get?_set_of_ne (h : k' ≠ k) : (m.set lt k v).get? k' = m.get? k' := by
  apply Option.ext
  intro v'
  rw [get?_eq_some_iff, get?_eq_some_iff, mem_entries_set]
  constructor
  · rintro (he | he)
    · exact absurd (congrArg Prod.fst he) h
    · exact he.1
  · exact fun he => .inr ⟨he, h⟩

/-- What is found after a write is the new value, or was there. -/
lemma get?_set_eq_some (h : (m.set lt k v).get? k' = some w) :
    k' = k ∧ w = v ∨ k' ≠ k ∧ m.get? k' = some w := by
  by_cases hk : k' = k
  · subst hk
    rw [get?_set_self] at h
    exact .inl ⟨rfl, (Option.some.inj h).symm⟩
  · exact .inr ⟨hk, (get?_set_of_ne hk).symm.trans h⟩

lemma mem_keys_set : k' ∈ (m.set lt k v).keys ↔ k' = k ∨ k' ∈ m.keys := by
  rw [← not_iff_not, not_or, ← get?_eq_none_iff, ← get?_eq_none_iff]
  by_cases hk : k' = k
  · simp [hk]
  · simp [hk, get?_set_of_ne hk]

lemma insert_of_contains (h : m.contains k = true) : m.insert lt k v = m := by
  simp [insert, h]

lemma insert_of_not_contains (h : m.contains k = false) : m.insert lt k v = m.set lt k v := by
  simp [insert, h]

/-- Inserting under `k` leaves a present value and otherwise stores `v`. -/
lemma get?_insert_self : (m.insert lt k v).get? k = some ((m.get? k).getD v) := by
  by_cases h : m.contains k = true
  · rw [insert_of_contains h]
    obtain ⟨v', hv'⟩ := Option.isSome_iff_exists.mp h
    rw [hv', Option.getD_some]
  · rw [Bool.not_eq_true] at h
    rw [insert_of_not_contains h, get?_set_self]
    have hnone : m.get? k = none := by simpa [contains] using h
    rw [hnone, Option.getD_none]

lemma get?_insert_of_ne (h : k' ≠ k) : (m.insert lt k v).get? k' = m.get? k' := by
  unfold insert
  split
  · rfl
  · exact get?_set_of_ne h

/-- Inserting the default value changes no value. -/
lemma getD_insert : ((m.insert lt k v).get? k').getD v = (m.get? k').getD v := by
  by_cases hk : k' = k
  · rw [hk, get?_insert_self, Option.getD_some]
  · rw [get?_insert_of_ne hk]

lemma get?_insert_eq_some (h : (m.insert lt k v).get? k' = some w) :
    k' = k ∧ w = v ∨ m.get? k' = some w := by
  unfold insert at h
  split at h
  · exact .inr h
  · exact (get?_set_eq_some h).imp_right And.right

lemma get?_insert_eq_some_iff (hnew : m.get? k = none) :
    (m.insert lt k v).get? k' = some w ↔ k' = k ∧ w = v ∨ m.get? k' = some w := by
  refine ⟨get?_insert_eq_some, ?_⟩
  rintro (⟨rfl, rfl⟩ | hold)
  · rw [get?_insert_self, hnew, Option.getD_none]
  · have hne : k' ≠ k := by
      rintro rfl
      cases hnew.symm.trans hold
    rw [get?_insert_of_ne hne, hold]

lemma mem_keys_insert : k' ∈ (m.insert lt k v).keys ↔ k' = k ∨ k' ∈ m.keys := by
  unfold insert
  split
  · rename_i h
    exact (or_iff_right_of_imp (fun hk => hk ▸ contains_iff.mp h)).symm
  · exact mem_keys_set

@[simp] lemma get?_erase_self : (m.erase k).get? k = none := by
  rw [get?_eq_none_iff]
  intro h
  obtain ⟨e, he, rfl⟩ := mem_map.mp h
  simp [erase] at he

lemma get?_erase_of_ne (h : k' ≠ k) : (m.erase k).get? k' = m.get? k' := by
  apply Option.ext
  intro v
  rw [get?_eq_some_iff, get?_eq_some_iff]
  simp [erase, h]

lemma get?_erase_eq_some (h : (m.erase k).get? k' = some v) : k' ≠ k ∧ m.get? k' = some v := by
  have hk : k' ≠ k := by
    rintro rfl
    cases (get?_erase_self).symm.trans h
  exact ⟨hk, (get?_erase_of_ne hk).symm.trans h⟩

lemma get?_erase_eq_some_iff : (m.erase k).get? k' = some v ↔ k' ≠ k ∧ m.get? k' = some v :=
  ⟨get?_erase_eq_some, fun h => (get?_erase_of_ne h.1).trans h.2⟩

section Forall

variable {P : K → V → Prop} (h : ∀ k' w, m.get? k' = some w → P k' w)
include h

/-- What holds of the old entries and of the new one holds of all. -/
lemma forall_set (hv : P k v) : ∀ k' w, (m.set lt k v).get? k' = some w → P k' w := by
  intro k' w hget
  rcases get?_set_eq_some hget with ⟨rfl, rfl⟩ | ⟨-, hold⟩
  · exact hv
  · exact h k' w hold

lemma forall_insert (hv : P k v) : ∀ k' w, (m.insert lt k v).get? k' = some w → P k' w := by
  intro k' w hget
  rcases get?_insert_eq_some hget with ⟨rfl, rfl⟩ | hold
  · exact hv
  · exact h k' w hold

lemma forall_erase : ∀ k' w, (m.erase k).get? k' = some w → P k' w :=
  fun k' w hget => h k' w (get?_erase_eq_some hget).2

end Forall

lemma contains_of_get? (h : m.get? k = some v) : m.contains k = true := by
  rw [contains, h, Option.isSome_some]

lemma contains_of_get?_none (h : m.get? k = none) : m.contains k = false := by
  rw [contains, h, Option.isSome_none]

variable (lt : K → K → Bool)

@[simp] lemma contains_insert_self (m : StdMap K V) (k : K) (v : V) :
    (m.insert lt k v).contains k = true :=
  contains_of_get? get?_insert_self

lemma contains_insert_of_ne (h : k' ≠ k) : (m.insert lt k v).contains k' = m.contains k' := by
  rw [contains, get?_insert_of_ne h, contains]

@[simp] lemma contains_erase_self (m : StdMap K V) (k : K) : (m.erase k).contains k = false :=
  contains_of_get?_none get?_erase_self

lemma contains_erase_of_ne (h : k' ≠ k) : (m.erase k).contains k' = m.contains k' := by
  rw [contains, get?_erase_of_ne h, contains]

lemma mem_entries_erase : e ∈ (m.erase k).entries ↔ e ∈ m.entries ∧ e.1 ≠ k := by
  simp [erase]

lemma erase_of_get?_none (h : m.get? k = none) : m.erase k = m := by
  apply StdMap.ext
  refine filter_eq_self.mpr (fun e he => ?_)
  have hk : k ∉ m.keys := get?_eq_none_iff.mp h
  have hne : e.1 ≠ k := fun heq => hk (heq ▸ mem_map.mpr ⟨e, he, rfl⟩)
  simpa using hne

lemma perm_of_mem_iff {m' : StdMap K V}
    (h : ∀ e, e ∈ m'.entries ↔ e = (k, v) ∨ e ∈ m.entries ∧ e.1 ≠ k) :
    m'.entries.Perm ((k, v) :: (m.erase k).entries) := by
  have hnodup : ((k, v) :: (m.erase k).entries).Nodup :=
    nodup_cons.mpr ⟨by simp [mem_entries_erase], nodup_entries⟩
  refine (perm_ext_iff_of_nodup nodup_entries hnodup).mpr (fun e => ?_)
  rw [h, mem_cons, mem_entries_erase]

/-- Up to their order the entries after a write are the new one and the others. -/
lemma set_perm (m : StdMap K V) (k : K) (v : V) :
    (m.set lt k v).entries.Perm ((k, v) :: (m.erase k).entries) :=
  perm_of_mem_iff (fun _ => mem_entries_set)

/-- A bound key splits the entries into its own and the others. -/
lemma perm_of_get? (h : m.get? k = some v) : m.entries.Perm ((k, v) :: (m.erase k).entries) := by
  refine perm_of_mem_iff (fun e => ?_)
  constructor
  · intro he
    by_cases hk : e.1 = k
    · have hv : m.get? k = some e.2 := get?_eq_some_iff.mpr (hk ▸ he)
      rw [h, Option.some.injEq] at hv
      exact .inl (Prod.ext hk hv.symm)
    · exact .inr ⟨he, hk⟩
  · rintro (rfl | ⟨he, _⟩)
    · exact get?_eq_some_iff.mp h
    · exact he

end Write

/-! ## Mapping the values -/

section MapValues

variable {W ε : Type} {f : K → V → Except ε W} {ws : List (K × W)} {g : K → V → W}

/-- Compute a new value for every entry, first to last; the first failure wins. -/
def mapEntriesM (f : K → V → Except ε W) : List (K × V) → Except ε (List (K × W))
  | [] => .ok []
  | e :: es =>
    match f e.1 e.2 with
    | .error err => .error err
    | .ok w =>
      match mapEntriesM f es with
      | .error err => .error err
      | .ok ws => .ok ((e.1, w) :: ws)

/-- The entries computed: the old keys, each with its value. -/
lemma mapEntriesM_ok_iff :
    mapEntriesM f es = .ok ws ↔
      Forall₂ (fun e w => e.1 = w.1 ∧ f e.1 e.2 = .ok w.2) es ws := by
  fun_induction mapEntriesM generalizing ws with
  | case1 => rw [forall₂_nil_left_iff, Except.ok.injEq, eq_comm]
  | case2 e es err hf =>
    refine ⟨nofun, ?_⟩
    rintro (_ | ⟨⟨-, hhead⟩, -⟩)
    cases hf.symm.trans hhead
  | case3 e es w hf err hrest ih =>
    refine ⟨nofun, ?_⟩
    rintro (_ | ⟨-, htail⟩)
    cases hrest.symm.trans (ih.mpr htail)
  | case4 e es w hf ws' hrest ih =>
    constructor
    · rintro ⟨⟩
      exact .cons ⟨rfl, hf⟩ (ih.mp hrest)
    · rintro (_ | ⟨⟨hkey, hhead⟩, htail⟩)
      cases hf.symm.trans hhead
      cases hrest.symm.trans (ih.mpr htail)
      rw [hkey]

lemma keys_mapEntriesM (h : mapEntriesM f es = .ok ws) : ws.map Prod.fst = es.map Prod.fst := by
  have hall := mapEntriesM_ok_iff.mp h
  clear h
  induction hall with
  | nil => rfl
  | cons hhead _ ih => rw [map_cons, map_cons, hhead.1, ih]

/-- Compute a new value for every key. -/
def mapM (f : K → V → Except ε W) (m : StdMap K V) : Except ε (StdMap K W) :=
  match h : mapEntriesM f m.entries with
  | .error err => .error err
  | .ok ws => .ok ⟨ws, keys_mapEntriesM h ▸ m.nodupKeys⟩

lemma mapM_ok_iff {w : StdMap K W} :
    m.mapM f = .ok w ↔ mapEntriesM f m.entries = .ok w.entries := by
  unfold mapM
  split
  · rename_i err h
    rw [h]
    exact ⟨nofun, nofun⟩
  · rename_i ws h
    constructor
    · intro hw
      cases hw
      exact h
    · intro hw
      exact congrArg Except.ok (ext (Except.ok.inj (h.symm.trans hw)))

/-- A new value for every key. -/
def mapVals (g : K → V → W) (m : StdMap K V) : StdMap K W :=
  ⟨m.entries.map (fun e => (e.1, g e.1 e.2)), by
    rw [map_map]
    exact m.nodupKeys⟩

lemma get?_mapVals [DecidableEq K] : (m.mapVals g).get? k = (m.get? k).map (g k) := by
  cases hget : m.get? k with
  | some v =>
    refine get?_eq_some_iff.mpr (mem_map.mpr ⟨(k, v), get?_eq_some_iff.mp hget, rfl⟩)
  | none =>
    refine Option.eq_none_iff_forall_ne_some.mpr (fun w hget' => ?_)
    obtain ⟨e, he, heq⟩ := mem_map.mp (get?_eq_some_iff.mp hget')
    obtain ⟨rfl, _⟩ := Prod.mk.inj heq
    rw [get?_eq_some_iff.mpr he] at hget
    cases hget

/-- Computing with the values of `mapVals g`, when `g'` names the results. -/
lemma mapM_mapVals {X : Type} {f : K → W → Except ε X} {g' : K → V → X}
    (h : ∀ e ∈ m.entries, f e.1 (g e.1 e.2) = .ok (g' e.1 e.2)) :
    (m.mapVals g).mapM f = .ok (m.mapVals g') := by
  rw [mapM_ok_iff, mapEntriesM_ok_iff, mapVals, mapVals, forall₂_map_left_iff,
    forall₂_map_right_iff, forall₂_same]
  exact fun e he => ⟨rfl, h e he⟩

lemma mapM_eq_mapVals (h : ∀ e ∈ m.entries, f e.1 e.2 = .ok (g e.1 e.2)) :
    m.mapM f = .ok (m.mapVals g) := by
  rw [mapM_ok_iff, mapEntriesM_ok_iff, mapVals, forall₂_map_right_iff, forall₂_same]
  exact fun e he => ⟨rfl, h e he⟩

end MapValues

/-! ## A quantity summed over the entries -/

section Sum

variable {A : Type} [AddCommMonoid A] {lt : K → K → Bool}

/-- The sum of `f` over all entries. -/
def sum (f : K → V → A) (m : StdMap K V) : A := (m.entries.map (fun e => f e.1 e.2)).sum

lemma sum_nonneg {f : K → V → Int} (h : ∀ e ∈ m.entries, 0 ≤ f e.1 e.2) : 0 ≤ m.sum f :=
  List.sum_nonneg (forall_mem_map.mpr h)

variable [DecidableEq K]

lemma sum_of_get? (f : K → V → A) (h : m.get? k = some v) :
    m.sum f = f k v + (m.erase k).sum f :=
  ((perm_of_get? h).map _).sum_eq

/-- A write exchanges one summand. -/
lemma sum_set {f : K → V → A} : (m.set lt k v).sum f = f k v + (m.erase k).sum f :=
  ((set_perm lt m k v).map _).sum_eq

lemma sum_insert_of_none {f : K → V → A} (hnew : m.get? k = none) (v : V) :
    (m.insert lt k v).sum f = f k v + m.sum f := by
  rw [insert_of_not_contains (contains_of_get?_none hnew), sum_set, erase_of_get?_none hnew]

/-- A summand is at most the sum when no summand is negative. -/
lemma le_sum_of_get? {f : K → V → Int} (h : ∀ e ∈ m.entries, 0 ≤ f e.1 e.2)
    (hget : m.get? k = some v) : f k v ≤ m.sum f := by
  rw [sum_of_get? f hget]
  have hrest : 0 ≤ (m.erase k).sum f :=
    sum_nonneg (fun e he => h e (mem_entries_erase.mp he).1)
  omega

end Sum

/-! ## The elements of all values -/

section Elements

variable [DecidableEq K] {A : Type} {m : StdMap K (List A)}

lemma flatMap_snd :
    m.entries.flatMap Prod.snd = m.keys.flatMap (fun k => (m.get? k).getD []) := by
  rw [keys, flatMap_map]
  refine flatMap_congr (fun e he => ?_)
  rw [get?_eq_some_iff.mpr he, Option.getD_some]

/-- Two maps with the same keys, and under each key the same elements in some order, have the same
    elements. -/
lemma flatMap_perm {m' : StdMap K (List A)}
    (h : ∀ k, Option.Rel Perm (m.get? k) (m'.get? k)) :
    (m.entries.flatMap Prod.snd).Perm (m'.entries.flatMap Prod.snd) := by
  have hsame {o o' : Option (List A)} (h : Option.Rel Perm o o') :
      o.isSome = o'.isSome ∧ (o.getD []).Perm (o'.getD []) := by
    cases h with
    | some hperm => exact ⟨rfl, hperm⟩
    | none => exact ⟨rfl, .refl _⟩
  have hkeys : m.keys.Perm m'.keys := by
    refine (perm_ext_iff_of_nodup m.nodupKeys m'.nodupKeys).mpr (fun k => ?_)
    rw [← keys, ← keys, ← contains_iff, ← contains_iff, contains, contains, (hsame (h k)).1]
  rw [flatMap_snd, flatMap_snd]
  exact (hkeys.flatMap_right _).trans (Perm.flatMap_left _ (fun k _ => (hsame (h k)).2))

end Elements

/-! ## Writing many keys -/

section WriteMany

variable [DecidableEq K] {lt : K → K → Bool}

lemma lookup_append {es' : List (K × V)} :
    lookup k (es ++ es') = (lookup k es).or (lookup k es') := by
  simp only [lookup_eq_list, List.lookup_append]

/-- With distinct keys the order of the entries does not matter. -/
lemma lookup_reverse (hnodup : (es.map Prod.fst).Nodup) (k : K) :
    lookup k es.reverse = lookup k es := by
  have hnodup' : (es.reverse.map Prod.fst).Nodup := by
    rw [map_reverse, nodup_reverse]
    exact hnodup
  apply Option.ext
  intro v
  constructor
  · exact fun h => lookup_of_mem hnodup (mem_reverse.mp (mem_of_lookup h))
  · exact fun h => lookup_of_mem hnodup' (mem_reverse.mpr (mem_of_lookup h))

lemma get?_foldl_insert_const (ks : List K) (v : V) (m : StdMap K V) (k : K) :
    (ks.foldl (fun m k => m.insert lt k v) m).get? k
      = (m.get? k).or (if k ∈ ks then some v else none) := by
  induction ks generalizing m with
  | nil => simp
  | cons k' ks ih =>
    rw [foldl_cons, ih]
    by_cases hk : k = k'
    · subst hk
      rw [get?_insert_self, if_pos mem_cons_self]
      cases m.get? k <;> rfl
    · simp [hk, get?_insert_of_ne hk]

/-- Setting entries one after another keeps the last one of the list. -/
lemma get?_foldl_set :
    (es.foldl (fun m e => m.set lt e.1 e.2) m).get? k = (lookup k es.reverse).or (m.get? k) := by
  induction es generalizing m with
  | nil => rfl
  | cons e es ih =>
    obtain ⟨k', v⟩ := e
    rw [foldl_cons, ih, reverse_cons, lookup_append, Option.or_assoc, lookup, lookup]
    split_ifs with hk
    · subst hk
      rw [get?_set_self]
      rfl
    · rw [get?_set_of_ne (Ne.symm hk)]
      rfl

lemma get?_foldl_erase (ks : List K) (m : StdMap K V) (k : K) :
    (ks.foldl (fun m k => m.erase k) m).get? k = if k ∈ ks then none else m.get? k := by
  induction ks generalizing m with
  | nil => rfl
  | cons k' ks ih =>
    rw [foldl_cons, ih]
    by_cases hk : k = k'
    · subst hk
      simp
    · simp [hk, get?_erase_of_ne hk]

end WriteMany

/-! ## The elements of a map of collections -/

section Elems

variable {A : Type}

/-- The elements of all values, `f` listing those of one value. -/
def elems (f : V → List A) (m : StdMap K V) : List A := m.entries.flatMap (fun e => f e.2)

@[simp] lemma elems_empty {f : V → List A} : (empty : StdMap K V).elems f = [] := rfl

variable [DecidableEq K]

/-- A bound key splits the elements into its own and the others. -/
lemma elems_of_get? (f : V → List A) {m : StdMap K V} {k : K} {v : V} (h : m.get? k = some v) :
    (m.elems f).Perm (f v ++ (m.erase k).elems f) := by
  have hsplit := (perm_of_get? h).flatMap_right (fun e => f e.2)
  rwa [flatMap_cons] at hsplit

lemma elems_set (f : V → List A) (lt : K → K → Bool) (m : StdMap K V) (k : K) (v : V) :
    ((m.set lt k v).elems f).Perm (f v ++ (m.erase k).elems f) := by
  have hsplit := (set_perm lt m k v).flatMap_right (fun e => f e.2)
  rwa [flatMap_cons] at hsplit

end Elems

end StdMap

end Tecracoin.Data
