/-
  What the indexes of the masternode list say.

  Insertion, update and removal test in three ways whether a property is
  absent: an address is compared with the null address, an operator key is
  asked whether it is valid, and the update compares with the default value of
  the type.  `propertyOf` is the one notion behind the three, and each
  operation of the list becomes a row of exchanges on the property index.

  The invariant is kept in two parts.  `PropsExact` is about the property
  index and does not depend on internal ids; `IdsExact` is about the ids.
-/
import Tecracoin.Data.Run
import Tecracoin.Evo.DeterministicMN

namespace Tecracoin.Evo

open Data CDeterministicMN StdMap OwnerIndex UniqueValue LawfulUniqueValue List

variable {p : UniqueProperty} {map map' : MnUniquePropertyMap}
  {e : Option UniqueProperty × Option UniqueProperty} {c : Bool} {addr : CService}
  {proTxHash : Uint256}

variable {K T : Type} [UniqueValue T] {v : T} {dmn : CDeterministicMN K}

/-! ## The property behind a value -/

/-- The index key of a value; the null value has none. -/
def propertyOf (v : T) : Option UniqueProperty :=
  if beq v nullValue then none else some (serializeHash v)

lemma propertyOf_of_ne (h : beq v nullValue = false) : propertyOf v = some (serializeHash v) := by
  rw [propertyOf, h]
  rfl

lemma mem_propertyOf_iff : p ∈ propertyOf v ↔ beq v nullValue = false ∧ serializeHash v = p := by
  unfold propertyOf
  cases beq v nullValue <;> simp

lemma propertyOf_eq_iff [LawfulUniqueValue T] {w : T} :
    propertyOf v = propertyOf w ↔ beq v w = true := by
  have hnull : ∀ v : T, beq v nullValue = true ↔ serializeHash v = serializeHash (nullValue : T) :=
    fun v => beq_iff v _
  unfold propertyOf
  rw [beq_iff v w]
  split_ifs with hv hw hw
  · rw [hnull] at hv hw
    simp [hv, hw]
  · rw [hnull] at hv hw
    simp only [false_iff]
    exact fun heq => hw (heq ▸ hv)
  · rw [hnull] at hv hw
    simp only [false_iff]
    exact fun heq => hv (heq.trans hw)
  · rw [Option.some.injEq]

lemma addUniqueProperty_ok_iff :
    addUniqueProperty dmn v map = .ok map' ↔
      beq v nullValue = false ∧
        map.acquire? (propertyOf v) dmn.proTxHash = some map' := by
  unfold addUniqueProperty
  cases hnull : beq v nullValue with
  | true => simp
  | false =>
    rw [propertyOf_of_ne hnull, acquire?]
    cases map.acquire (serializeHash v) dmn.proTxHash <;> simp

lemma deleteUniqueProperty_ok_iff :
    deleteUniqueProperty dmn v map = .ok map' ↔
      beq v nullValue = false ∧
        map.release? (propertyOf v) dmn.proTxHash = some map' := by
  unfold deleteUniqueProperty
  cases hnull : beq v nullValue with
  | true => simp
  | false =>
    rw [propertyOf_of_ne hnull, release?]
    cases map.release (serializeHash v) dmn.proTxHash <;> simp

lemma updateUniqueProperty_ok_iff [LawfulUniqueValue T] {oldValue newValue : T} :
    updateUniqueProperty dmn oldValue newValue map = .ok map' ↔
      map.exchange (propertyOf oldValue) (propertyOf newValue) dmn.proTxHash = some map' := by
  unfold updateUniqueProperty exchange
  by_cases hsame : beq oldValue newValue = true
  · rw [if_pos hsame, if_pos (propertyOf_eq_iff.mpr hsame), Except.ok.injEq, Option.some.injEq]
  · rw [if_neg hsame, if_neg (fun h => hsame (propertyOf_eq_iff.mp h))]
    rw [Option.bind_eq_some_iff]
    refine except_bind_ok_iff.trans (exists_congr (fun map1 => and_congr ?_ ?_))
    · cases hnull : beq oldValue nullValue with
      | true => simp [propertyOf, hnull, release?]
      | false => simp [deleteUniqueProperty_ok_iff, hnull]
    · cases hnull : beq newValue nullValue with
      | true => simp [propertyOf, hnull, acquire?]
      | false => simp [addUniqueProperty_ok_iff, hnull]

section
variable (hc : c = true ↔ beq v nullValue = false)
include hc

/-- A property is added or deleted on the condition that it is not null. -/
lemma addUniquePropertyIf_ok_iff :
    addUniquePropertyIf c dmn v map = .ok map' ↔
      map.acquire? (propertyOf v) dmn.proTxHash = some map' := by
  unfold addUniquePropertyIf
  cases hnull : beq v nullValue with
  | true => simp [hc, hnull, propertyOf, acquire?]
  | false => simp [hc, hnull, addUniqueProperty_ok_iff]

lemma deleteUniquePropertyIf_ok_iff :
    deleteUniquePropertyIf c dmn v map = .ok map' ↔
      map.release? (propertyOf v) dmn.proTxHash = some map' := by
  unfold deleteUniquePropertyIf
  cases hnull : beq v nullValue with
  | true => simp [hc, hnull, propertyOf, release?]
  | false => simp [hc, hnull, deleteUniqueProperty_ok_iff]

end

lemma addr_ne_null_iff : decide (addr ≠ .null) = true ↔ beq addr nullValue = false := by
  simp [beq, nullValue]

lemma notMem_propertyOf_null [LawfulUniqueValue T] : p ∉ propertyOf (nullValue : T) := by
  intro hp
  have hne := (mem_propertyOf_iff.mp hp).1
  rw [(beq_iff _ _).mpr rfl] at hne
  cases hne

/-! ## The properties of a masternode -/

/-- Which of the four kinds a property is of. -/
def UniqueProperty.kind : UniqueProperty → Nat
  | .outpoint _ => 0
  | .service _ => 1
  | .keyID _ => 2
  | .pubKey _ => 3

/-- The properties of the pair are of kind `n`. -/
def OfKind (n : Nat) (e : Option UniqueProperty × Option UniqueProperty) : Prop :=
  ∀ p, p ∈ e.1 ∨ p ∈ e.2 → p.kind = n

lemma apart_of_kind {n n' : Nat} {e' : Option UniqueProperty × Option UniqueProperty}
    (h : OfKind n e) (h' : OfKind n' e') (hne : n ≠ n') : OwnerIndex.Apart e e' := by
  intro p hp
  have hkind := h p hp
  exact ⟨fun hp' => hne (hkind.symm.trans (h' p (.inl hp'))),
    fun hp' => hne (hkind.symm.trans (h' p (.inr hp')))⟩

lemma kind_of_mem (h : p ∈ propertyOf v) : p.kind = (serializeHash v).kind := by
  rw [(mem_propertyOf_iff.mp h).2]

lemma kind_outpoint {o : COutPoint} (h : p ∈ propertyOf o) : p.kind = 0 := kind_of_mem h

lemma kind_service (h : p ∈ propertyOf addr) : p.kind = 1 := kind_of_mem h

lemma kind_keyID {id : CKeyID} (h : p ∈ propertyOf id) : p.kind = 2 := kind_of_mem h

variable [OperatorKey K]

lemma kind_operator [LawfulOperatorKey K] {key : K} (h : p ∈ propertyOf key) : p.kind = 3 := by
  obtain ⟨buf, hbuf⟩ := LawfulOperatorKey.isPubKey key
  rw [kind_of_mem h, hbuf]
  rfl

namespace CDeterministicMN

section

variable (dmn : CDeterministicMN K)

/-- The masternode has the property. -/
def Owns (p : UniqueProperty) : Prop :=
  p ∈ propertyOf dmn.collateralOutpoint ∨ p ∈ propertyOf dmn.pdmnState.addr ∨
    p ∈ propertyOf dmn.pdmnState.keyIDOwner ∨ p ∈ propertyOf dmn.pdmnState.pubKeyOperator

/-- The properties of a masternode, each turned into an exchange. -/
def pairs (f : Option UniqueProperty → Option UniqueProperty × Option UniqueProperty)
    (dmn : CDeterministicMN K) : List (Option UniqueProperty × Option UniqueProperty) :=
  [f (propertyOf dmn.collateralOutpoint), f (propertyOf dmn.pdmnState.addr),
    f (propertyOf dmn.pdmnState.keyIDOwner), f (propertyOf dmn.pdmnState.pubKeyOperator)]

/-- The exchanges that add the masternode. -/
def taken := dmn.pairs (fun p => (none, p))

/-- The exchanges that remove the masternode. -/
def returned := dmn.pairs (fun p => (p, none))

/-- The exchanges that update the masternode to a new state. -/
def exchanged (state : CDeterministicMNState K) :
    List (Option UniqueProperty × Option UniqueProperty) :=
  [(propertyOf dmn.pdmnState.addr, propertyOf state.addr),
    (propertyOf dmn.pdmnState.keyIDOwner, propertyOf state.keyIDOwner),
    (propertyOf dmn.pdmnState.pubKeyOperator, propertyOf state.pubKeyOperator)]

lemma pairwise_pairs [LawfulOperatorKey K]
    {f : Option UniqueProperty → Option UniqueProperty × Option UniqueProperty}
    (hf : ∀ s p, p ∈ (f s).1 ∨ p ∈ (f s).2 → p ∈ s) {dmn : CDeterministicMN K} :
    (dmn.pairs f).Pairwise OwnerIndex.Apart := by
  have h0 : OfKind 0 (f (propertyOf dmn.collateralOutpoint)) :=
    fun p hp => kind_outpoint (hf _ p hp)
  have h1 : OfKind 1 (f (propertyOf dmn.pdmnState.addr)) := fun p hp => kind_service (hf _ p hp)
  have h2 : OfKind 2 (f (propertyOf dmn.pdmnState.keyIDOwner)) :=
    fun p hp => kind_keyID (hf _ p hp)
  have h3 : OfKind 3 (f (propertyOf dmn.pdmnState.pubKeyOperator)) :=
    fun p hp => kind_operator (hf _ p hp)
  simp only [pairs, pairwise_cons, forall_mem_cons, not_mem_nil, false_imp_iff,
    implies_true, List.Pairwise.nil, and_true]
  exact ⟨⟨apart_of_kind h0 h1 (by decide), apart_of_kind h0 h2 (by decide),
      apart_of_kind h0 h3 (by decide)⟩,
    ⟨apart_of_kind h1 h2 (by decide), apart_of_kind h1 h3 (by decide)⟩,
    apart_of_kind h2 h3 (by decide)⟩

lemma pairwise_exchanged [LawfulOperatorKey K] (state : CDeterministicMNState K) :
    (dmn.exchanged state).Pairwise OwnerIndex.Apart := by
  have h1 : OfKind 1 (propertyOf dmn.pdmnState.addr, propertyOf state.addr) :=
    fun p hp => hp.elim kind_service kind_service
  have h2 : OfKind 2 (propertyOf dmn.pdmnState.keyIDOwner, propertyOf state.keyIDOwner) :=
    fun p hp => hp.elim kind_keyID kind_keyID
  have h3 : OfKind 3 (propertyOf dmn.pdmnState.pubKeyOperator, propertyOf state.pubKeyOperator) :=
    fun p hp => hp.elim kind_operator kind_operator
  simp only [exchanged, pairwise_cons, forall_mem_cons, not_mem_nil, false_imp_iff,
    implies_true, List.Pairwise.nil, and_true]
  exact ⟨⟨apart_of_kind h1 h2 (by decide), apart_of_kind h1 h3 (by decide)⟩,
    apart_of_kind h2 h3 (by decide)⟩

end

variable {dmn : CDeterministicMN K} {state : CDeterministicMNState K}

lemma owns_iff_taken : (∃ e ∈ dmn.taken, p ∈ e.2) ↔ dmn.Owns p := by
  simp [taken, pairs, Owns]

lemma owns_iff_returned : (∃ e ∈ dmn.returned, p ∈ e.1) ↔ dmn.Owns p := by
  simp [returned, pairs, Owns]

/-- The property of a pair belongs to the masternode before or after the update. -/
lemma owns_of_mem_exchanged (he : e ∈ dmn.exchanged state) :
    (∀ p ∈ e.1, dmn.Owns p) ∧
      ∀ p ∈ e.2, ({ dmn with pdmnState := state } : CDeterministicMN K).Owns p := by
  simp only [exchanged, mem_cons, not_mem_nil, or_false] at he
  rcases he with rfl | rfl | rfl
  · exact ⟨fun p hp => .inr (.inl hp), fun p hp => .inr (.inl hp)⟩
  · exact ⟨fun p hp => .inr (.inr (.inl hp)), fun p hp => .inr (.inr (.inl hp))⟩
  · exact ⟨fun p hp => .inr (.inr (.inr hp)), fun p hp => .inr (.inr (.inr hp))⟩

variable [LawfulOperatorKey K]

/-- The kind of a property says where the masternode has it. -/
lemma Owns.of_kind (h : dmn.Owns p) :
    (p.kind = 0 → p ∈ propertyOf dmn.collateralOutpoint) ∧
      (p.kind = 1 → p ∈ propertyOf dmn.pdmnState.addr) ∧
      (p.kind = 2 → p ∈ propertyOf dmn.pdmnState.keyIDOwner) ∧
      (p.kind = 3 → p ∈ propertyOf dmn.pdmnState.pubKeyOperator) := by
  rcases h with h | h | h | h
  · simp [kind_outpoint h, h]
  · simp [kind_service h, h]
  · simp [kind_keyID h, h]
  · simp [kind_operator h, h]

/-- A property that the masternode had before and has after stays in its place. -/
lemma eq_of_owns (he : e ∈ dmn.exchanged state) (hp : p ∈ e.2) (howns : dmn.Owns p) :
    e.2 = e.1 := by
  obtain ⟨-, haddr, howner, hoperator⟩ := howns.of_kind
  simp only [exchanged, mem_cons, not_mem_nil, or_false] at he
  rcases he with rfl | rfl | rfl
  · exact hp.trans (haddr (kind_service hp)).symm
  · exact hp.trans (howner (kind_keyID hp)).symm
  · exact hp.trans (hoperator (kind_operator hp)).symm

/-- What the masternode owns after an update: the collateral, and what the new state brings. -/
lemma owns_update_iff :
    ({ dmn with pdmnState := state } : CDeterministicMN K).Owns p ↔
      (dmn.Owns p ∧ ∀ e ∈ dmn.exchanged state, p ∉ e.1) ∨
        ∃ e ∈ dmn.exchanged state, p ∈ e.2 := by
  have hcollateral : p ∈ propertyOf dmn.collateralOutpoint →
      ∀ e ∈ dmn.exchanged state, p ∉ e.1 := by
    intro hp e he hpe
    simp only [exchanged, mem_cons, not_mem_nil, or_false] at he
    have hkind := kind_outpoint hp
    rcases he with rfl | rfl | rfl
    · exact absurd (hkind.symm.trans (kind_service hpe)) (by decide)
    · exact absurd (hkind.symm.trans (kind_keyID hpe)) (by decide)
    · exact absurd (hkind.symm.trans (kind_operator hpe)) (by decide)
  constructor
  · rintro (hp | hp | hp | hp)
    · exact .inl ⟨.inl hp, hcollateral hp⟩
    · exact .inr ⟨_, .head _, hp⟩
    · exact .inr ⟨_, .tail _ (.head _), hp⟩
    · exact .inr ⟨_, .tail _ (.tail _ (.head _)), hp⟩
  · rintro (⟨hp | hp | hp | hp, hgone⟩ | ⟨e, he, hp⟩)
    · exact .inl hp
    · exact absurd hp (hgone _ (.head _))
    · exact absurd hp (hgone _ (.tail _ (.head _)))
    · exact absurd hp (hgone _ (.tail _ (.tail _ (.head _))))
    · exact (owns_of_mem_exchanged he).2 p hp

end CDeterministicMN

/-! ## The operations as exchanges -/

/-- What `AddMN` and `RemoveMN` insist on: collateral and owner key are not null. -/
structure CDeterministicMN.Solid (dmn : CDeterministicMN K) : Prop where
  collateral : beq dmn.collateralOutpoint nullValue = false
  owner : beq dmn.pdmnState.keyIDOwner nullValue = false

namespace CDeterministicMNList

section

variable (l : CDeterministicMNList K)

/-- The list with a masternode added, and the given property index. -/
def withAdded (dmn : CDeterministicMN K) (map : MnUniquePropertyMap) : CDeterministicMNList K :=
  { l with
    mnMap := l.mnMap.set StdMap.unordered dmn.proTxHash dmn
    mnInternalIdMap := l.mnInternalIdMap.set StdMap.unordered dmn.internalId dmn.proTxHash
    mnUniquePropertyMap := map }

/-- The list with a masternode replaced. -/
def withUpdated (dmn : CDeterministicMN K) (map : MnUniquePropertyMap) : CDeterministicMNList K :=
  { l with
    mnMap := l.mnMap.set StdMap.unordered dmn.proTxHash dmn
    mnUniquePropertyMap := map }

/-- The list with a masternode removed. -/
def withRemoved (proTxHash : Uint256) (dmn : CDeterministicMN K)
    (map : MnUniquePropertyMap) : CDeterministicMNList K :=
  { l with
    mnMap := l.mnMap.erase proTxHash
    mnInternalIdMap := l.mnInternalIdMap.erase dmn.internalId
    mnUniquePropertyMap := map }

end

variable {l l' : CDeterministicMNList K} {dmn : CDeterministicMN K}

section

omit [OperatorKey K]

lemma get?_withAdded (map : MnUniquePropertyMap) (proTxHash : Uint256) :
    (l.withAdded dmn map).mnMap.get? proTxHash =
      if proTxHash = dmn.proTxHash then some dmn else l.mnMap.get? proTxHash := by
  split_ifs with hsame
  · rw [hsame]
    exact get?_set_self
  · exact get?_set_of_ne hsame

lemma get?_withUpdated :
    (l.withUpdated dmn map).mnMap.get? proTxHash =
      if proTxHash = dmn.proTxHash then some dmn else l.mnMap.get? proTxHash :=
  get?_withAdded map proTxHash

lemma get?_withRemoved {removed : Uint256} :
    (l.withRemoved removed dmn map).mnMap.get? proTxHash =
      if proTxHash = removed then none else l.mnMap.get? proTxHash := by
  split_ifs with hsame
  · rw [hsame]
    exact get?_erase_self
  · exact get?_erase_of_ne hsame

end

lemma addMN_ok_iff [LawfulOperatorKey K] :
    l.addMN dmn = .ok l' ↔
      l.mnMap.get? dmn.proTxHash = none ∧ dmn.Solid ∧
        ∃ map, l.mnUniquePropertyMap.exchangeAll dmn.taken dmn.proTxHash = some map ∧
          l' = l.withAdded dmn map := by
  unfold addMN
  have hcontains : l.mnMap.contains dmn.proTxHash = false ↔ l.mnMap.get? dmn.proTxHash = none := by
    simp [StdMap.contains]
  cases hnew : l.mnMap.contains dmn.proTxHash with
  | true =>
    rw [if_pos rfl]
    refine ⟨by rintro ⟨⟩, fun h => ?_⟩
    rw [← hcontains, hnew] at h
    cases h.1
  | false =>
    rw [if_neg Bool.false_ne_true]
    simp only [except_bind_ok_iff, addUniqueProperty_ok_iff,
      addUniquePropertyIf_ok_iff addr_ne_null_iff,
      addUniquePropertyIf_ok_iff (LawfulOperatorKey.isValid_iff _), taken,
      pairs, exchangeAll_cons, exchange_none_left,
      exchangeAll_nil, Option.some.injEq, Except.ok.injEq]
    constructor
    · rintro ⟨m1, ⟨hcollateral, h1⟩, m2, h2, m3, ⟨howner, h3⟩, m4, h4, rfl⟩
      exact ⟨hcontains.mp hnew, ⟨hcollateral, howner⟩, m4, ⟨m1, h1, m2, h2, m3, h3, m4, h4, rfl⟩,
        rfl⟩
    · rintro ⟨_, hsolid, _, ⟨m1, h1, m2, h2, m3, h3, m4, h4, rfl⟩, rfl⟩
      exact ⟨m1, ⟨hsolid.collateral, h1⟩, m2, h2, m3, ⟨hsolid.owner, h3⟩, m4, h4, rfl⟩

lemma updateMN_ok_iff [LawfulOperatorKey K] {state : CDeterministicMNState K} :
    l.updateMN dmn state = .ok l' ↔
      ∃ map, l.mnUniquePropertyMap.exchangeAll (dmn.exchanged state) dmn.proTxHash = some map ∧
        l' = l.withUpdated { dmn with pdmnState := state } map := by
  unfold updateMN
  simp only [except_bind_ok_iff, updateUniqueProperty_ok_iff, exchanged,
    exchangeAll_cons, exchangeAll_nil, Option.some.injEq, Except.ok.injEq]
  constructor
  · rintro ⟨m1, h1, m2, h2, m3, h3, rfl⟩
    exact ⟨m3, ⟨m1, h1, m2, h2, m3, h3, rfl⟩, rfl⟩
  · rintro ⟨_, ⟨m1, h1, m2, h2, m3, h3, rfl⟩, rfl⟩
    exact ⟨m1, h1, m2, h2, m3, h3, rfl⟩

lemma removeMN_ok_iff [LawfulOperatorKey K] (hget : l.mnMap.get? proTxHash = some dmn) :
    l.removeMN proTxHash = .ok l' ↔
      dmn.Solid ∧
        ∃ map, l.mnUniquePropertyMap.exchangeAll dmn.returned dmn.proTxHash = some map ∧
          l' = l.withRemoved proTxHash dmn map := by
  unfold removeMN getMN
  rw [hget]
  simp only [except_bind_ok_iff, deleteUniqueProperty_ok_iff,
    deleteUniquePropertyIf_ok_iff addr_ne_null_iff,
    deleteUniquePropertyIf_ok_iff (LawfulOperatorKey.isValid_iff _), returned,
    pairs, exchangeAll_cons, exchange_none_right,
    exchangeAll_nil, Option.some.injEq, Except.ok.injEq]
  constructor
  · rintro ⟨m1, ⟨hcollateral, h1⟩, m2, h2, m3, ⟨howner, h3⟩, m4, h4, rfl⟩
    exact ⟨⟨hcollateral, howner⟩, m4, ⟨m1, h1, m2, h2, m3, h3, m4, h4, rfl⟩, rfl⟩
  · rintro ⟨hsolid, _, ⟨m1, h1, m2, h2, m3, h3, m4, h4, rfl⟩, rfl⟩
    exact ⟨m1, ⟨hsolid.collateral, h1⟩, m2, h2, m3, ⟨hsolid.owner, h3⟩, m4, h4, rfl⟩

/-! ## The property index is exact -/

/-- The masternode registered as `proTxHash` has the property. -/
def Owned (l : CDeterministicMNList K) (p : UniqueProperty) (proTxHash : Uint256) : Prop :=
  ∃ dmn, l.mnMap.get? proTxHash = some dmn ∧ dmn.Owns p

/-- Masternodes stand under their own hash, and the index holds exactly their properties. -/
structure PropsExact (l : CDeterministicMNList K) : Prop where
  hash_eq : ∀ proTxHash dmn, l.mnMap.get? proTxHash = some dmn → dmn.proTxHash = proTxHash
  props : l.mnUniquePropertyMap.Exact l.Owned

lemma propsExact_new {blockHash : Uint256} {height : Int} {count : Nat} :
    (new blockHash height count : CDeterministicMNList K).PropsExact where
  hash_eq := nofun
  props := OwnerIndex.Exact.empty.congr (fun _ _ => ⟨False.elim, fun h => nomatch h.choose_spec.1⟩)

namespace PropsExact

lemma owned_self (hget : l.mnMap.get? dmn.proTxHash = some dmn)
    (hp : dmn.Owns p) : l.Owned p dmn.proTxHash :=
  ⟨dmn, hget, hp⟩

lemma not_owned_of_new (hnew : l.mnMap.get? dmn.proTxHash = none) :
    ¬ l.Owned p dmn.proTxHash := by
  rintro ⟨other, hother, _⟩
  rw [hnew] at hother
  cases hother

section
variable [LawfulOperatorKey K] (h : l.PropsExact)
include h

lemma exact_taken (hnew : l.mnMap.get? dmn.proTxHash = none)
    (hmap : l.mnUniquePropertyMap.exchangeAll dmn.taken dmn.proTxHash = some map) :
    (l.withAdded dmn map).PropsExact := by
  obtain ⟨-, map', hmap', hexact⟩ := (h.props.exchangeAll dmn.taken (o := dmn.proTxHash)
    (by simp [taken, pairs])
    (fun _ _ _ _ howned => absurd howned (not_owned_of_new hnew))
    (pairwise_pairs (by simp))).resolve_right (fun hrefused => nomatch hmap.symm.trans hrefused.2)
  cases hmap.symm.trans hmap'
  refine ⟨forall_set h.hash_eq rfl, hexact.congr (fun p proTxHash => ?_)⟩
  have hgone : ∀ e ∈ dmn.taken, p ∉ e.1 := by
    simp [taken, pairs]
  rw [owns_iff_taken]
  by_cases hsame : proTxHash = dmn.proTxHash
  · subst hsame
    simp only [not_owned_of_new hnew, false_and, false_or, and_true]
    simp [Owned, withAdded]
  · simp only [Owned, withAdded, get?_set_of_ne hsame, hsame, and_false, or_false]
    exact ⟨fun howned => howned.1, fun howned => ⟨howned, hgone⟩⟩

/-- A masternode with free properties is added without complaint. -/
lemma addMN (hnew : l.mnMap.get? dmn.proTxHash = none) (hsolid : dmn.Solid)
    (hfree : ∀ p, dmn.Owns p → ∀ other, ¬ l.Owned p other) :
    ∃ map, l.addMN dmn = .ok (l.withAdded dmn map) ∧ (l.withAdded dmn map).PropsExact := by
  have hfree' : ∀ e ∈ dmn.taken, ∀ p ∈ e.2, ∀ other, ¬ l.Owned p other :=
    fun e he p hp => hfree p (owns_iff_taken.mp ⟨e, he, hp⟩)
  obtain ⟨-, map, hmap, -⟩ := (h.props.exchangeAll dmn.taken (o := dmn.proTxHash)
    (by simp [taken, pairs])
    (fun e he p hp howned => absurd howned (hfree' e he p hp _))
    (pairwise_pairs (by simp))).resolve_right
    (fun hrefused => hrefused.1 (fun e he p hp other howned =>
      absurd howned (hfree' e he p hp other)))
  exact ⟨map, addMN_ok_iff.mpr ⟨hnew, hsolid, map, hmap, rfl⟩, h.exact_taken hnew hmap⟩

lemma of_addMN (hok : l.addMN dmn = .ok l') :
    l.mnMap.get? dmn.proTxHash = none ∧ dmn.Solid ∧ ∃ map, l' = l.withAdded dmn map ∧
      l'.PropsExact := by
  obtain ⟨hnew, hsolid, map, hmap, rfl⟩ := addMN_ok_iff.mp hok
  exact ⟨hnew, hsolid, map, rfl, h.exact_taken hnew hmap⟩

section
variable (hget : l.mnMap.get? dmn.proTxHash = some dmn) {state : CDeterministicMNState K}
include hget

/-- A masternode gets the properties of a new state unless somebody else has one. -/
lemma exchange_exchanged :
    (∃ map, l.mnUniquePropertyMap.exchangeAll (dmn.exchanged state) dmn.proTxHash = some map ∧
      (l.withUpdated { dmn with pdmnState := state } map).PropsExact) ∨
    ((∃ p, ({ dmn with pdmnState := state } : CDeterministicMN K).Owns p ∧
        ∃ other, l.Owned p other ∧ other ≠ dmn.proTxHash) ∧
      l.mnUniquePropertyMap.exchangeAll (dmn.exchanged state) dmn.proTxHash = none) := by
  have howns : ∀ p, l.Owned p dmn.proTxHash ↔ dmn.Owns p := by
    intro p
    constructor
    · rintro ⟨other, hother, hp⟩
      exact Option.some.inj (hget.symm.trans hother) ▸ hp
    · exact owned_self hget
  rcases h.props.exchangeAll (dmn.exchanged state) (o := dmn.proTxHash)
    (fun e he p hp => owned_self hget ((owns_of_mem_exchanged he).1 p hp))
    (fun e he p hp howned => eq_of_owns he hp ((howns p).mp howned))
    (pairwise_exchanged dmn state) with ⟨-, map, hmap, hexact⟩ | ⟨hother, hnone⟩
  · refine .inl ⟨map, hmap, forall_set h.hash_eq rfl, hexact.congr (fun p proTxHash => ?_)⟩
    by_cases hsame : proTxHash = dmn.proTxHash
    · subst hsame
      rw [howns]
      simp only [Owned, withUpdated, get?_set_self, Option.some.injEq, exists_eq_left',
        owns_update_iff, and_true]
    · -- nobody else has one of the properties that go
      simp only [Owned, withUpdated, get?_set_of_ne hsame, hsame, and_false, or_false]
      refine ⟨fun howned => howned.1, fun howned => ⟨howned, fun e he hp => hsame ?_⟩⟩
      exact h.props.functional howned (owned_self hget ((owns_of_mem_exchanged he).1 p hp))
  · push Not at hother
    obtain ⟨e, he, p, hp, other, howned, hne⟩ := hother
    exact .inr ⟨⟨p, (owns_of_mem_exchanged he).2 p hp, other, howned, hne⟩, hnone⟩

/-- A masternode is updated to properties that are its own or free. -/
lemma updateMN (state : CDeterministicMNState K)
    (hfree : ∀ p, ({ dmn with pdmnState := state } : CDeterministicMN K).Owns p →
      ∀ other, l.Owned p other → other = dmn.proTxHash) :
    ∃ map, l.updateMN dmn state = .ok (l.withUpdated { dmn with pdmnState := state } map) ∧
      (l.withUpdated { dmn with pdmnState := state } map).PropsExact := by
  rcases h.exchange_exchanged hget with ⟨map, hmap, hexact⟩ | ⟨⟨p, hp, other, howned, hne⟩, -⟩
  · exact ⟨map, updateMN_ok_iff.mpr ⟨map, hmap, rfl⟩, hexact⟩
  · exact absurd (hfree p hp other howned) hne

lemma of_updateMN (hok : l.updateMN dmn state = .ok l') :
    ∃ map, l' = l.withUpdated { dmn with pdmnState := state } map ∧ l'.PropsExact := by
  obtain ⟨map, hmap, rfl⟩ := updateMN_ok_iff.mp hok
  rcases h.exchange_exchanged hget with ⟨map', hmap', hexact⟩ | ⟨-, hnone⟩
  · cases hmap.symm.trans hmap'
    exact ⟨map, rfl, hexact⟩
  · cases hmap.symm.trans hnone

/-- A registered masternode is removed without complaint. -/
lemma removeMN (hsolid : dmn.Solid) :
    ∃ map, l.removeMN dmn.proTxHash = .ok (l.withRemoved dmn.proTxHash dmn map) ∧
      (l.withRemoved dmn.proTxHash dmn map).PropsExact := by
  have hnothing : ∀ e ∈ dmn.returned, ∀ p, p ∉ e.2 := by
    simp [returned, pairs]
  obtain ⟨-, map, hmap, hexact⟩ := (h.props.exchangeAll dmn.returned (o := dmn.proTxHash)
    (fun e he p hp => owned_self hget (owns_iff_returned.mp ⟨e, he, hp⟩))
    (fun e he p hp => absurd hp (hnothing e he p)) (pairwise_pairs (by simp))).resolve_right
    (fun hrefused => hrefused.1 (fun e he p hp => absurd hp (hnothing e he p)))
  refine ⟨map, (removeMN_ok_iff hget).mpr ⟨hsolid, map, hmap, rfl⟩, forall_erase h.hash_eq, ?_⟩
  refine hexact.congr (fun p proTxHash => ?_)
  have hnothing : ¬ ∃ e ∈ dmn.returned, p ∈ e.2 := fun ⟨e, he, hp⟩ => hnothing e he p hp
  have hgone : (∀ e ∈ dmn.returned, p ∉ e.1) ↔ ¬ dmn.Owns p := by
    rw [← owns_iff_returned]
    simp only [not_exists, not_and]
  rw [hgone]
  simp only [hnothing, false_and, or_false]
  -- its own properties are free; no other masternode had one of them
  by_cases hsame : proTxHash = dmn.proTxHash
  · subst hsame
    simp only [Owned, withRemoved, get?_erase_self, reduceCtorEq, false_and,
      exists_false, iff_false, not_and, not_not]
    rintro ⟨other, hother, hp⟩
    exact Option.some.inj (hget.symm.trans hother) ▸ hp
  · simp only [Owned, withRemoved, get?_erase_of_ne hsame]
    refine ⟨fun howned => howned.1, fun howned => ⟨howned, fun hp => hsame ?_⟩⟩
    exact h.props.functional howned (owned_self hget hp)

end

lemma of_removeMN (hok : l.removeMN proTxHash = .ok l') :
    ∃ dmn map, l.mnMap.get? proTxHash = some dmn ∧
      l' = l.withRemoved proTxHash dmn map ∧ l'.PropsExact := by
  cases hget : l.mnMap.get? proTxHash with
  | none =>
    rw [CDeterministicMNList.removeMN, getMN, hget] at hok
    cases hok
  | some dmn =>
    obtain rfl := h.hash_eq proTxHash dmn hget
    obtain ⟨hsolid, map, _, rfl⟩ := (removeMN_ok_iff hget).mp hok
    obtain ⟨map', hok', hexact⟩ := h.removeMN hget hsolid
    exact ⟨dmn, map, rfl, rfl, Except.ok.inj (hok.symm.trans hok') ▸ hexact⟩

end

end PropsExact

end CDeterministicMNList

end Tecracoin.Evo
