/-
  The masternode list under any sequence of its operations.

  Both indexes stay exact.  For the property index this needs no assumption at
  all once an operation has succeeded: a property in foreign hands makes an
  assertion fail.  For the internal ids it rests on new masternodes coming with
  new ids.
-/
import Tecracoin.Data.KeyIndex
import Tecracoin.Evo.Indexes

namespace Tecracoin.Evo

open Data StdMap CDeterministicMN UniqueValue LawfulUniqueValue CDeterministicMNList List

variable {proTxHash : Uint256} {penalty : Int} {p : UniqueProperty}

variable {K : Type}

variable {l l' : CDeterministicMNList K}

namespace CDeterministicMNList

variable {dmn : CDeterministicMN K}

/-! ## Internal ids -/

/-- `mnInternalIdMap` maps exactly the ids of the masternodes to their hashes. -/
def IdsExact (l : CDeterministicMNList K) : Prop :=
  ∀ internalId proTxHash, l.mnInternalIdMap.get? internalId = some proTxHash ↔
    ∃ dmn, l.mnMap.get? proTxHash = some dmn ∧ dmn.internalId = internalId

namespace IdsExact

/-- The id is the one key of a masternode. -/
lemma iff_keyIndexed : l.IdsExact ↔ KeyIndexed
    (fun dmn : CDeterministicMN K => [dmn.internalId]) l.mnMap l.mnInternalIdMap := by
  simp [IdsExact, KeyIndexed, eq_comm]

lemma new (blockHash : Uint256) (height : Int) (count : Nat) :
    (new blockHash height count : CDeterministicMNList K).IdsExact :=
  iff_keyIndexed.mpr (.empty _)

lemma unique (h : l.IdsExact) {proTxHash' : Uint256} {dmn' : CDeterministicMN K}
    (hget : l.mnMap.get? proTxHash = some dmn) (hget' : l.mnMap.get? proTxHash' = some dmn')
    (hid : dmn.internalId = dmn'.internalId) : proTxHash = proTxHash' := by
  have hfirst := (h dmn.internalId proTxHash).mpr ⟨dmn, hget, rfl⟩
  have hsecond := (h dmn.internalId proTxHash').mpr ⟨dmn', hget', hid.symm⟩
  exact Option.some.inj (hfirst.symm.trans hsecond)

lemma withAdded (h : l.IdsExact) (hnew : l.mnMap.get? dmn.proTxHash = none)
    (hid : ∀ proTxHash other, l.mnMap.get? proTxHash = some other →
      other.internalId ≠ dmn.internalId) (map : MnUniquePropertyMap) :
    (l.withAdded dmn map).IdsExact := by
  have hindexed := iff_keyIndexed.mp h
  have hfree : l.mnInternalIdMap.get? dmn.internalId = none := by
    refine hindexed.get?_eq_none_iff.mpr (fun proTxHash other hother hmem => ?_)
    exact hid proTxHash other hother (mem_singleton.mp hmem).symm
  have hadded := hindexed.add (e := dmn) StdMap.unordered StdMap.unordered hnew
    (by simpa using hfree)
  rw [foldl_cons, foldl_nil, insert_of_not_contains (by rw [StdMap.contains, hnew]; rfl),
    insert_of_not_contains (by rw [StdMap.contains, hfree]; rfl)] at hadded
  exact iff_keyIndexed.mpr hadded

lemma withUpdated (h : l.IdsExact) (hget : l.mnMap.get? dmn.proTxHash = some dmn)
    (state : CDeterministicMNState K) (map : MnUniquePropertyMap) :
    (l.withUpdated { dmn with pdmnState := state } map).IdsExact := by
  intro internalId proTxHash
  unfold CDeterministicMNList.withUpdated
  rw [h internalId proTxHash]
  by_cases hhash : proTxHash = dmn.proTxHash
  · subst hhash
    rw [hget, get?_set_self]
    simp
  · rw [get?_set_of_ne hhash]

lemma withRemoved (h : l.IdsExact) (hget : l.mnMap.get? dmn.proTxHash = some dmn)
    (map : MnUniquePropertyMap) : (l.withRemoved dmn.proTxHash dmn map).IdsExact :=
  iff_keyIndexed.mpr ((iff_keyIndexed.mp h).remove hget)

end IdsExact

/-! ## Updates that keep the properties -/

/-- The two states have the same properties. -/
def SameProps (a b : CDeterministicMNState K) : Prop :=
  a.addr = b.addr ∧ a.keyIDOwner = b.keyIDOwner ∧ a.pubKeyOperator = b.pubKeyOperator

lemma sameProps_punishedState {nHeight maxPenalty : Int} {state : CDeterministicMNState K} :
    SameProps state (punishedState nHeight maxPenalty penalty state) :=
  ⟨rfl, rfl, rfl⟩

variable [OperatorKey K] {state : CDeterministicMNState K}
  {mns : List (CDeterministicMN K)}

lemma owns_of_sameProps (hsame : SameProps dmn.pdmnState state) :
    ({ dmn with pdmnState := state } : CDeterministicMN K).Owns p ↔ dmn.Owns p := by
  unfold CDeterministicMN.Owns
  rw [hsame.1, hsame.2.1, hsame.2.2]

lemma updateMNByHash_eq (hget : l.mnMap.get? proTxHash = some dmn)
    (state : CDeterministicMNState K) :
    l.updateMNByHash proTxHash state = l.updateMN dmn state := by
  rw [updateMNByHash, hget]

/-- An update that keeps the properties cannot fail. -/
lemma PropsExact.updateMN_same [LawfulOperatorKey K] (h : l.PropsExact)
    (hget : l.mnMap.get? proTxHash = some dmn)
    (state : CDeterministicMNState K) (hsame : SameProps dmn.pdmnState state) :
    ∃ l', l.updateMNByHash proTxHash state = .ok l' := by
  obtain rfl := h.hash_eq proTxHash dmn hget
  obtain ⟨map, hok, _⟩ := h.updateMN hget state (fun p hp other howned =>
    h.props.functional howned (PropsExact.owned_self hget ((owns_of_sameProps hsame).mp hp)))
  exact ⟨_, (updateMNByHash_eq hget state).trans hok⟩

lemma PropsExact.of_updateMNByHash [LawfulOperatorKey K] (h : l.PropsExact)
    (hok : l.updateMNByHash proTxHash state = .ok l') :
    ∃ dmn map, l.mnMap.get? proTxHash = some dmn ∧ dmn.proTxHash = proTxHash ∧
      l' = l.withUpdated { dmn with pdmnState := state } map ∧ l'.PropsExact := by
  unfold updateMNByHash at hok
  split at hok
  · cases hok
  · case h_2 dmn hget =>
      have hhash := h.hash_eq proTxHash dmn hget
      obtain ⟨map, rfl, hexact⟩ := h.of_updateMN (hhash ▸ hget) hok
      exact ⟨dmn, map, hget, hhash, rfl, hexact⟩

lemma poSePunish_eq (hpenalty : 0 < penalty) (hget : l.mnMap.get? proTxHash = some dmn) :
    l.poSePunish proTxHash penalty = l.updateMNByHash proTxHash
      (punishedState l.nHeight l.calcMaxPoSePenalty penalty dmn.pdmnState) := by
  rw [poSePunish, if_neg (not_not.mpr hpenalty), getMN, hget]

lemma poSeDecrease_eq (hget : l.mnMap.get? proTxHash = some dmn)
    (hpenalty : 0 < dmn.pdmnState.nPoSePenalty) (hban : dmn.pdmnState.nPoSeBanHeight = -1) :
    l.poSeDecrease proTxHash = l.updateMNByHash proTxHash
      { dmn.pdmnState with nPoSePenalty := dmn.pdmnState.nPoSePenalty - 1 } := by
  rw [poSeDecrease, getMN, hget]
  exact if_pos ⟨hpenalty, hban⟩

lemma poSePunish_ok (hok : l.poSePunish proTxHash penalty = .ok l') :
    ∃ state, l.updateMNByHash proTxHash state = .ok l' := by
  revert hok
  fun_cases poSePunish with
  | case1 | case2 => exact nofun
  | case3 => exact fun hok => ⟨_, hok⟩

lemma poSeDecrease_ok (hok : l.poSeDecrease proTxHash = .ok l') :
    ∃ state, l.updateMNByHash proTxHash state = .ok l' := by
  revert hok
  fun_cases poSeDecrease with
  | case1 | case3 => exact nofun
  | case2 => exact fun hok => ⟨_, hok⟩

/-! ## Reading a list back -/

lemma mem_allMNs_iff (h : l.PropsExact) :
    dmn ∈ l.allMNs ↔ l.mnMap.get? dmn.proTxHash = some dmn := by
  unfold allMNs
  rw [mem_map]
  constructor
  · rintro ⟨⟨proTxHash, other⟩, hmem, rfl⟩
    have hget := get?_eq_some_iff.mpr hmem
    rw [h.hash_eq proTxHash other hget]
    exact hget
  · intro hget
    exact ⟨_, get?_eq_some_iff.mp hget, rfl⟩

/-- Two entries of the list differ in their hashes and have no common property. -/
lemma PropsExact.pairwise_allMNs (h : l.PropsExact) :
    l.allMNs.Pairwise (fun a b => a.proTxHash ≠ b.proTxHash ∧ ∀ p, a.Owns p → ¬ b.Owns p) := by
  have hnodup : (l.allMNs.map proTxHash).Nodup := by
    have hkeys : l.allMNs.map proTxHash = l.mnMap.keys := by
      unfold allMNs StdMap.keys
      rw [map_map]
      refine map_congr_left (fun e he => ?_)
      exact h.hash_eq e.1 e.2 (get?_eq_some_iff.mpr he)
    rw [hkeys]
    exact l.mnMap.nodupKeys
  rw [Nodup, pairwise_map] at hnodup
  refine hnodup.imp_of_mem (fun {a b} ha hb hne => ⟨hne, fun p hpa hpb => hne ?_⟩)
  exact h.props.functional ⟨a, (mem_allMNs_iff h).mp ha, hpa⟩ ⟨b, (mem_allMNs_iff h).mp hb, hpb⟩

variable [LawfulOperatorKey K]

section
variable (h : l.PropsExact)
include h

lemma addAll_ok (hok : mns.foldlM addMN l = .ok l') :
    l'.PropsExact ∧
      (∀ proTxHash dmn, l'.mnMap.get? proTxHash = some dmn ↔
        l.mnMap.get? proTxHash = some dmn ∨ (dmn ∈ mns ∧ dmn.proTxHash = proTxHash)) := by
  induction mns generalizing l with
  | nil =>
    cases hok
    exact ⟨h, by simp⟩
  | cons first mns ih =>
    obtain ⟨l1, hadd, hrest⟩ := foldlM_cons_ok_iff.mp hok
    obtain ⟨hnew, _, map, rfl, hexact⟩ := h.of_addMN hadd
    obtain ⟨hexact', hget'⟩ := ih hexact hrest
    refine ⟨hexact', fun proTxHash dmn => ?_⟩
    rw [hget', withAdded]
    by_cases hhash : proTxHash = first.proTxHash
    · subst hhash
      rw [get?_set_self, hnew, mem_cons]
      constructor
      · rintro (heq | ⟨hmem, hdmn⟩)
        · exact .inr ⟨.inl (Option.some.inj heq).symm,
            congrArg proTxHash (Option.some.inj heq).symm⟩
        · exact .inr ⟨.inr hmem, hdmn⟩
      · rintro (hnone | ⟨rfl | hmem, hdmn⟩)
        · cases hnone
        · exact .inl rfl
        · exact .inr ⟨hmem, hdmn⟩
    · rw [get?_set_of_ne hhash, mem_cons]
      refine or_congr_right (and_congr_left (fun hdmn => ?_))
      refine ⟨.inr, fun hmem => hmem.resolve_left ?_⟩
      rintro rfl
      exact hhash hdmn.symm

/-- Masternodes with distinct ids keep the id index exact. -/
lemma IdsExact.addAll (hids : l.IdsExact) (hok : mns.foldlM addMN l = .ok l')
    (hdistinct : mns.Pairwise (fun a b => a.internalId ≠ b.internalId))
    (hfresh : ∀ dmn ∈ mns, ∀ proTxHash other, l.mnMap.get? proTxHash = some other →
      other.internalId ≠ dmn.internalId) : l'.IdsExact := by
  induction mns generalizing l with
  | nil =>
    cases hok
    exact hids
  | cons first mns ih =>
    obtain ⟨l1, hadd, hrest⟩ := foldlM_cons_ok_iff.mp hok
    obtain ⟨hnew, _, map, rfl, hexact⟩ := h.of_addMN hadd
    obtain ⟨hfirst, hdistinct⟩ := pairwise_cons.mp hdistinct
    refine ih hexact (hids.withAdded hnew (hfresh first (.head _)) map) hrest hdistinct ?_
    intro dmn hmem
    exact forall_set (hfresh dmn (.tail _ hmem)) (hfirst dmn hmem)

/-- Masternodes with distinct hashes and properties can all be added. -/
lemma addAll_succeeds (hsolid : ∀ dmn ∈ mns, dmn.Solid)
    (hdistinct : mns.Pairwise (fun a b => a.proTxHash ≠ b.proTxHash ∧ ∀ p, a.Owns p → ¬ b.Owns p))
    (hfresh : ∀ dmn ∈ mns, l.mnMap.get? dmn.proTxHash = none ∧
      ∀ p, dmn.Owns p → ∀ other, ¬ l.Owned p other) : ∃ l', mns.foldlM addMN l = .ok l' := by
  induction mns generalizing l with
  | nil => exact ⟨l, rfl⟩
  | cons first mns ih =>
    obtain ⟨hnew, hfree⟩ := hfresh first (.head _)
    obtain ⟨hfirst, hdistinct⟩ := pairwise_cons.mp hdistinct
    obtain ⟨map, hadd, hexact⟩ := h.addMN hnew (hsolid first (.head _)) hfree
    obtain ⟨l', hl'⟩ := ih hexact (forall_mem_cons.mp hsolid).2 hdistinct (by
        intro dmn hmem
        obtain ⟨hnew', hfree'⟩ := hfresh dmn (.tail _ hmem)
        obtain ⟨hhash, happart⟩ := hfirst dmn hmem
        refine ⟨?_, ?_⟩
        · rw [withAdded, get?_set_of_ne (Ne.symm hhash)]
          exact hnew'
        · rintro p hp other ⟨owner, howner, hp'⟩
          rcases get?_set_eq_some howner with ⟨-, rfl⟩ | ⟨-, howner⟩
          · exact happart p hp' hp
          · exact hfree' p hp other ⟨owner, howner, hp'⟩)
    exact ⟨l', foldlM_cons_ok_iff.mpr ⟨_, hadd, hl'⟩⟩

end

lemma owns_reread : dmn.reread.Owns p ↔ dmn.Owns p := by
  have hkey : propertyOf (OperatorKey.reread dmn.pdmnState.pubKeyOperator) =
      propertyOf dmn.pdmnState.pubKeyOperator :=
    propertyOf_eq_iff.mpr ((beq_iff _ _).mpr (LawfulOperatorKey.serializeHash_reread _))
  unfold CDeterministicMN.Owns reread
  rw [hkey]

/-- What reading a written list back gives: the same masternodes, with exact indexes. -/
lemma reload_ok (h : l.PropsExact) (hok : unserialize l.serialize = .ok l') :
    l'.PropsExact ∧
      (∀ proTxHash, l'.mnMap.get? proTxHash = (l.mnMap.get? proTxHash).map reread) ∧
      (l.IdsExact → l'.IdsExact) := by
  obtain ⟨hexact, hget⟩ := addAll_ok propsExact_new hok
  refine ⟨hexact, fun proTxHash => ?_, fun hids => ?_⟩
  · apply Option.ext
    intro dmn
    rw [Option.map_eq_some_iff]
    refine (hget proTxHash dmn).trans ?_
    constructor
    · rintro (hnone | ⟨hmem, rfl⟩)
      · cases hnone
      · obtain ⟨dmn0, hmem0, rfl⟩ := mem_map.mp hmem
        exact ⟨dmn0, (mem_allMNs_iff h).mp hmem0, rfl⟩
    · rintro ⟨dmn0, hget0, rfl⟩
      have hhash := h.hash_eq proTxHash dmn0 hget0
      exact .inr ⟨mem_map_of_mem ((mem_allMNs_iff h).mpr (hhash ▸ hget0)), hhash⟩
  · refine IdsExact.addAll propsExact_new (IdsExact.new _ _ _) hok ?_ ?_
    · show (l.allMNs.map reread).Pairwise _
      rw [pairwise_map]
      refine h.pairwise_allMNs.imp_of_mem (fun {a b} ha hb hne hid => hne.1 ?_)
      exact hids.unique ((mem_allMNs_iff h).mp ha) ((mem_allMNs_iff h).mp hb) hid
    · intro dmn _ proTxHash other hother
      cases hother

lemma reload_succeeds (h : l.PropsExact)
    (hsolid : ∀ proTxHash dmn, l.mnMap.get? proTxHash = some dmn → dmn.Solid) :
    ∃ l', unserialize l.serialize = .ok l' := by
  refine addAll_succeeds propsExact_new ?_ ?_ ?_
  · intro dmn hmem
    obtain ⟨dmn0, hmem0, rfl⟩ := mem_map.mp hmem
    have hsolid0 := hsolid _ _ ((mem_allMNs_iff h).mp hmem0)
    exact ⟨hsolid0.collateral, hsolid0.owner⟩
  · show (l.allMNs.map reread).Pairwise _
    rw [pairwise_map]
    refine h.pairwise_allMNs.imp (fun {a b} hne => ⟨hne.1, fun p => ?_⟩)
    rw [owns_reread, owns_reread]
    exact hne.2 p
  · exact fun dmn _ => ⟨rfl, fun p _ other howned => nomatch howned.choose_spec.1⟩

end CDeterministicMNList

/-! ## Sequences of operations -/

inductive MNListOp (K : Type)
  | addMN (dmn : CDeterministicMN K)
  | updateMN (proTxHash : Uint256) (pdmnState : CDeterministicMNState K)
  | poSePunish (proTxHash : Uint256) (penalty : Int)
  | poSeDecrease (proTxHash : Uint256)
  | removeMN (proTxHash : Uint256)
  /-- Write the list to a stream and read it back. -/
  | reload

variable [OperatorKey K]

namespace MNListOp

/-- One operation; a failed assertion ends the run. -/
def step : MNListOp K → CDeterministicMNList K → Option (CDeterministicMNList K)
  | .addMN dmn, l => (l.addMN dmn).toOption
  | .updateMN proTxHash pdmnState, l => (l.updateMNByHash proTxHash pdmnState).toOption
  | .poSePunish proTxHash penalty, l => (l.poSePunish proTxHash penalty).toOption
  | .poSeDecrease proTxHash, l => (l.poSeDecrease proTxHash).toOption
  | .removeMN proTxHash, l => (l.removeMN proTxHash).toOption
  | .reload, l => (unserialize l.serialize).toOption

/-- New masternodes come with a new hash, a new id and free properties, and an update brings
    properties that no other masternode has. -/
def Allowed : MNListOp K → CDeterministicMNList K → Prop
  | .addMN dmn, l =>
    l.mnMap.get? dmn.proTxHash = none ∧
      (∀ proTxHash other, l.mnMap.get? proTxHash = some other →
        other.internalId ≠ dmn.internalId) ∧
      ∀ p, dmn.Owns p → ∀ other, ¬ l.Owned p other
  | .updateMN proTxHash pdmnState, l =>
    ∀ dmn, l.mnMap.get? proTxHash = some dmn →
      ∀ p, ({ dmn with pdmnState := pdmnState } : CDeterministicMN K).Owns p →
        ∀ other, l.Owned p other → other = proTxHash
  | _, _ => True

/-- The operation is about a registered masternode, and the keys that may not be null are not null.
    -/
def Ready : MNListOp K → CDeterministicMNList K → Prop
  | .addMN dmn, _ => dmn.Solid
  | .updateMN proTxHash _, l => l.hasMN proTxHash = true
  | .poSePunish proTxHash penalty, l => l.hasMN proTxHash = true ∧ 0 < penalty
  | .poSeDecrease proTxHash, l =>
    ∃ dmn, l.mnMap.get? proTxHash = some dmn ∧ 0 < dmn.pdmnState.nPoSePenalty ∧
      dmn.pdmnState.nPoSeBanHeight = -1
  | .removeMN proTxHash, l =>
    ∃ dmn, l.mnMap.get? proTxHash = some dmn ∧ dmn.pdmnState.keyIDOwner ≠ 0
  | .reload, l =>
    ∀ proTxHash dmn, l.mnMap.get? proTxHash = some dmn → dmn.pdmnState.keyIDOwner ≠ 0

end MNListOp

namespace CDeterministicMNList

/-- Both indexes are exact, and no collateral is null. -/
structure Indexed (l : CDeterministicMNList K) : Prop where
  props : l.PropsExact
  ids : l.IdsExact
  collateral : ∀ proTxHash dmn, l.mnMap.get? proTxHash = some dmn →
    beq dmn.collateralOutpoint nullValue = false

namespace Indexed

lemma new (blockHash : Uint256) (height : Int) (count : Nat) :
    (new blockHash height count : CDeterministicMNList K).Indexed where
  props := propsExact_new
  ids := IdsExact.new _ _ _
  collateral := nofun

lemma solid (h : l.Indexed) {dmn : CDeterministicMN K} (hget : l.mnMap.get? proTxHash = some dmn)
    (howner : dmn.pdmnState.keyIDOwner ≠ 0) : dmn.Solid :=
  ⟨h.collateral proTxHash dmn hget, decide_eq_false howner⟩

lemma updateMNByHash [LawfulOperatorKey K] (h : l.Indexed) {state : CDeterministicMNState K}
    (hok : l.updateMNByHash proTxHash state = .ok l') : l'.Indexed := by
  obtain ⟨dmn, map, hget, rfl, rfl, hexact⟩ := h.props.of_updateMNByHash hok
  exact ⟨hexact, h.ids.withUpdated hget state map,
    forall_set h.collateral (h.collateral _ dmn hget)⟩

variable {op : MNListOp K} [LawfulOperatorKey K]

lemma step (h : l.Indexed) (hallowed : op.Allowed l) (hstep : op.step l = some l') :
    l'.Indexed := by
  cases op with
  | addMN dmn =>
    have hok := toOption_eq_some_iff.mp hstep
    obtain ⟨hnew, hsolid, map, rfl, hexact⟩ := h.props.of_addMN hok
    exact ⟨hexact, h.ids.withAdded hnew hallowed.2.1 map, forall_set h.collateral hsolid.collateral⟩
  | updateMN proTxHash pdmnState => exact h.updateMNByHash (toOption_eq_some_iff.mp hstep)
  | poSePunish proTxHash penalty =>
    obtain ⟨_, hok⟩ := poSePunish_ok (toOption_eq_some_iff.mp hstep)
    exact h.updateMNByHash hok
  | poSeDecrease proTxHash =>
    obtain ⟨_, hok⟩ := poSeDecrease_ok (toOption_eq_some_iff.mp hstep)
    exact h.updateMNByHash hok
  | removeMN proTxHash =>
    have hok := toOption_eq_some_iff.mp hstep
    obtain ⟨dmn, map, hget, rfl, hexact⟩ := h.props.of_removeMN hok
    obtain rfl := h.props.hash_eq proTxHash dmn hget
    exact ⟨hexact, h.ids.withRemoved hget map, forall_erase h.collateral⟩
  | reload =>
    obtain ⟨hexact, hget, hids⟩ :=
      reload_ok h.props (toOption_eq_some_iff.mp hstep)
    refine ⟨hexact, hids h.ids, ?_⟩
    intro proTxHash other hother
    rw [hget, Option.map_eq_some_iff] at hother
    obtain ⟨dmn, hdmn, rfl⟩ := hother
    exact h.collateral proTxHash dmn hdmn

lemma succeeds (h : l.Indexed) (hallowed : op.Allowed l) (hready : op.Ready l) :
    ∃ l', op.step l = some l' := by
  have hlift : ∀ {x : Except Failure (CDeterministicMNList K)}, (∃ l', x = .ok l') →
      ∃ l', x.toOption = some l' := by
    rintro x ⟨l', rfl⟩
    exact ⟨l', rfl⟩
  cases op with
  | addMN dmn =>
    obtain ⟨map, hok, _⟩ := h.props.addMN hallowed.1 hready hallowed.2.2
    exact hlift ⟨_, hok⟩
  | updateMN proTxHash pdmnState =>
    obtain ⟨dmn, hget⟩ := Option.isSome_iff_exists.mp hready
    obtain rfl := h.props.hash_eq proTxHash dmn hget
    obtain ⟨map, hok, _⟩ := h.props.updateMN hget pdmnState (hallowed dmn hget)
    exact hlift ⟨_, (updateMNByHash_eq hget pdmnState).trans hok⟩
  | poSePunish proTxHash penalty =>
    obtain ⟨dmn, hget⟩ := Option.isSome_iff_exists.mp hready.1
    obtain ⟨l', hok⟩ := h.props.updateMN_same hget _ sameProps_punishedState
    exact hlift ⟨_, (poSePunish_eq hready.2 hget).trans hok⟩
  | poSeDecrease proTxHash =>
    obtain ⟨dmn, hget, hpenalty, hban⟩ := hready
    obtain ⟨l', hok⟩ := h.props.updateMN_same hget
      { dmn.pdmnState with nPoSePenalty := dmn.pdmnState.nPoSePenalty - 1 } ⟨rfl, rfl, rfl⟩
    exact hlift ⟨_, (poSeDecrease_eq hget hpenalty hban).trans hok⟩
  | removeMN proTxHash =>
    obtain ⟨dmn, hget, howner⟩ := hready
    obtain rfl := h.props.hash_eq proTxHash dmn hget
    obtain ⟨map, hok, _⟩ := h.props.removeMN hget (h.solid hget howner)
    exact hlift ⟨_, hok⟩
  | reload =>
    exact hlift (reload_succeeds h.props (fun proTxHash dmn hget =>
      h.solid hget (hready proTxHash dmn hget)))

end Indexed

end CDeterministicMNList

open MNListOp in
/-- After any sequence of allowed operations on a list with lazily parsed keys that are null or
    valid the id index maps exactly the ids of the masternodes to their hashes, and the property
    index holds exactly the collateral and the non-null address, owner key and operator key of each
    masternode, owned by it with count one. No assertion stops an operation on a registered
    masternode whose owner key is not null. -/
theorem mnList_indexes_exact (internalSetBuf : InternalSetBuf) {blockHash : Uint256}
    {height : Int} {count : Nat} {l : CDeterministicMNList (GenuineLazyKey internalSetBuf)}
    (h : Reaches step Allowed (new blockHash height count) l) :
    (∀ internalId proTxHash, l.mnInternalIdMap.get? internalId = some proTxHash ↔
      ∃ dmn, l.mnMap.get? proTxHash = some dmn ∧ dmn.internalId = internalId) ∧
    (∀ p proTxHash n, l.mnUniquePropertyMap.get? p = some (proTxHash, n) ↔
      n = 1 ∧ ∃ dmn, l.mnMap.get? proTxHash = some dmn ∧ dmn.Owns p) ∧
    ∀ op : MNListOp _, op.Allowed l → op.Ready l → ∃ l', op.step l = some l' := by
  have hindexed : l.Indexed :=
    h.invariant (P := Indexed) (.new blockHash height count)
      (fun _ _ _ hl hallowed hstep => hl.step hallowed hstep)
  refine ⟨hindexed.ids, fun p proTxHash n => ?_, fun op => hindexed.succeeds⟩
  rw [hindexed.props.props p (proTxHash, n)]
  constructor
  · rintro ⟨other, howned, heq⟩
    obtain ⟨rfl, rfl⟩ := Prod.mk.inj heq
    exact ⟨rfl, howned⟩
  · rintro ⟨rfl, howned⟩
    exact ⟨proTxHash, howned, rfl⟩

namespace Sample

/-- A library that reads all bytes but one as a key. -/
def readsAllBut9 : InternalSetBuf := fun buf => if buf = 9 then none else some ⟨buf⟩

/-- The wrapper after reading the bytes. -/
def rawKey (buf : Nat) : CBLSLazyPublicKey readsAllBut9 := ⟨CBLSLazyWrapper.new.unserialize buf⟩

def lazyKey : GenuineLazyKey readsAllBut9 :=
  ⟨rawKey 6, ⟨6⟩, CBLSLazyWrapper.represents_unserialize rfl⟩

/-- The state of a masternode with the given owner and operator keys. -/
def mnState {K : Type} (owner : CKeyID) (operator : K) (addr : CService) :
    CDeterministicMNState K where
  nRegisteredHeight := 10
  nLastPaidHeight := 0
  nPoSePenalty := 0
  nPoSeRevivedHeight := -1
  nPoSeBanHeight := -1
  nRevocationReason := 0
  confirmedHash := 0
  confirmedHashWithProRegTxHash := 0
  keyIDOwner := owner
  pubKeyOperator := operator
  keyIDVoting := owner
  addr := addr
  scriptPayout := []
  scriptOperatorPayout := []

def address : CService := ⟨0xffff01020304, 2718⟩

section

variable {K : Type} [OperatorKey K]

def sampleMN (key : K) : CDeterministicMN K where
  proTxHash := 1
  internalId := 0
  collateralOutpoint := ⟨7, 0⟩
  nOperatorReward := 0
  pdmnState := mnState 5 key address

open MNListOp in
/-- The one masternode of a list may be updated to any state. -/
lemma allowed_sampleMN {key : K} {l : CDeterministicMNList K}
    (hentries : l.mnMap.entries = [(1, sampleMN key)]) {state : CDeterministicMNState K} :
    Allowed (.updateMN 1 state) l := by
  rintro dmn _ p _ other ⟨owner, howner, _⟩
  have hmem := get?_eq_some_iff.mp howner
  rw [hentries, mem_singleton] at hmem
  exact congrArg Prod.fst hmem

open MNListOp in
lemma allowed_add_sampleMN (key : K) :
    Allowed (.addMN (sampleMN key)) (new 0 10 0) := by
  refine ⟨rfl, fun _ _ hget => ?_, fun _ _ _ howned => ?_⟩
  · cases hget
  · obtain ⟨owner, howner, _⟩ := howned
    cases howner

end

end Sample

open Sample MNListOp in
/-- A masternode is added and moves to another address. -/
theorem mnList_indexes_exact_moved :
    ∃ l : CDeterministicMNList (GenuineLazyKey readsAllBut9),
      Reaches step Allowed (new 0 10 0) l ∧
      l.mnInternalIdMap.get? 0 = some 1 ∧
      l.mnUniquePropertyMap.get? (.service ⟨0xffff05060708, 2718⟩) = some (1, 1) ∧
      l.mnUniquePropertyMap.get? (.pubKey 6) = some (1, 1) := by
  have hadded : Reaches step Allowed (new 0 10 0) _ :=
    Reaches.start.next _ (allowed_add_sampleMN lazyKey) rfl
  have hmoved := hadded.next (.updateMN 1 (mnState 5 lazyKey ⟨0xffff05060708, 2718⟩))
    (allowed_sampleMN rfl) rfl
  obtain ⟨hids, hprops, _⟩ := mnList_indexes_exact _ hmoved
  refine ⟨_, hmoved, (hids 0 1).mpr ⟨_, rfl, rfl⟩, (hprops _ _ _).mpr ⟨rfl, _, rfl, ?_⟩,
    (hprops _ _ _).mpr ⟨rfl, _, rfl, ?_⟩⟩
  · exact .inr (.inl rfl)
  · exact .inr (.inr (.inr rfl))

open Sample MNListOp in
/-- Two runs over wrappers as the code has them. A masternode is updated to a null owner key: the
    index has no entry for that key, and the masternode cannot be removed any more. A masternode is
    updated to a malformed operator key, which enters the index since it is not the null wrapper,
    and is removed: the key stays in the index, since no valid key is found in it, and no
    masternode is left. -/
theorem null_owner_and_malformed_operator :
    (∃ (l : CDeterministicMNList (CBLSLazyPublicKey readsAllBut9)) (dmn : _),
      Reaches step Allowed (new 0 10 0) l ∧
      l.mnMap.get? 1 = some dmn ∧ dmn.pdmnState.keyIDOwner = 0 ∧
      l.mnUniquePropertyMap.get? (serializeHash dmn.pdmnState.keyIDOwner) = none ∧
      l.removeMN 1 = .error (.asserts "oldValue != nullValue")) ∧
    ∃ l : CDeterministicMNList (CBLSLazyPublicKey readsAllBut9),
      Reaches step Allowed (new 0 10 0) l ∧
      l.mnMap.entries = [] ∧ l.mnUniquePropertyMap.get? (.pubKey 9) = some (1, 1) := by
  have hadded : Reaches step Allowed (new 0 10 0) _ :=
    Reaches.start.next _ (allowed_add_sampleMN (rawKey 6)) rfl
  have hnull := hadded.next (.updateMN 1 (mnState 0 (rawKey 6) address)) (allowed_sampleMN rfl) rfl
  have hmalformed := hadded.next (.updateMN 1 (mnState 5 (rawKey 9) address)) (allowed_sampleMN rfl)
    rfl
  exact ⟨⟨_, _, hnull, rfl, rfl, rfl, rfl⟩, _, hmalformed.next (.removeMN 1) trivial rfl, rfl, rfl⟩

end Tecracoin.Evo
