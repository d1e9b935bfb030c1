/-
  `GetQuorumConnections` (`llmq/quorums_utils.cpp`): the members of a quorum that a
  member connects to.

  From three members on every gap is smaller than the ring, so each round finds another
  member.  With one or two members a round meets the member itself; it then advances
  neither the gap nor the counter, and the loop does not end.
-/
import Mathlib.Data.List.GetD
import Tecracoin.Evo.ListChain

namespace Tecracoin.Evo

open Data Llmq Relation Finset

/-! ## The loop -/

/-- The member `i` places on from the first. -/
def ringAt (ring : List Uint256) (i : Nat) : Uint256 := ring.getD (i % ring.length) 0

/-- The variables of the loop. -/
structure Search where
  gap : Nat
  gapMax : Nat
  k : Nat
  result : Finset Uint256

/-- At most so many rounds of the loop for the member at `i`. Each member is in the ring once, so
    two pointers are compared by their positions. -/
def connectionLoop (ring : List Uint256) (i : Nat) : Nat → Search → Option (Finset Uint256)
  | 0, _ => none
  | rounds + 1, s =>
    let gapMax := s.gapMax / 2
    if gapMax ≠ 0 ∨ s.k ≤ 1 then
      if (i + s.gap) % ring.length = i then connectionLoop ring i rounds { s with gapMax := gapMax }
      else connectionLoop ring i rounds
        ⟨s.gap * 2, gapMax, s.k + 1, insert (ringAt ring (i + s.gap)) s.result⟩
    else some s.result

section Loop

variable {n i k gapMax : Nat} {ring : List Uint256}

/-- The number of rounds. -/
def roundCount (n : Nat) : Nat := max 2 (Nat.log2 (n - 1))

lemma loop_goes_on_iff (hn : 3 ≤ n) (hmax : gapMax = (n - 1) / 2 ^ k) :
    (gapMax / 2 ≠ 0 ∨ k ≤ 1) ↔ k < roundCount n := by
  have hlog : k < Nat.log2 (n - 1) ↔ 2 ^ (k + 1) ≤ n - 1 := Nat.le_log2 (by omega)
  rw [hmax, Nat.div_div_eq_div_mul, ← Nat.pow_succ, Nat.div_ne_zero_iff, roundCount,
    lt_max_iff, hlog]
  have hpos := Nat.two_pow_pos (k + 1)
  omega

/-- A gap is shorter than the ring. -/
lemma add_gap_ne (hn : 3 ≤ n) (hk : k < roundCount n) (hi : i < n) : (i + 2 ^ k) % n ≠ i := by
  have hlt : 2 ^ k < n := by
    rcases (loop_goes_on_iff hn rfl).mpr hk with hhalf | hfirst
    · rw [Nat.div_div_eq_div_mul, Nat.div_ne_zero_iff] at hhalf
      omega
    · have hle : 2 ^ k ≤ 2 ^ 1 := Nat.pow_le_pow_right (by omega) hfirst
      omega
  have hpos := Nat.two_pow_pos k
  rcases Nat.lt_or_ge (i + 2 ^ k) n with hin | hout
  · rw [Nat.mod_eq_of_lt hin]
    omega
  · rw [Nat.mod_eq_sub_mod hout, Nat.mod_eq_of_lt (by omega)]
    omega

/-- From three members on the loop collects the members at all gaps. -/
lemma connectionLoop_eq (hn : 3 ≤ ring.length) (hi : i < ring.length) (rounds : Nat)
    (result : Finset Uint256) (hk : k + rounds = roundCount ring.length) :
    connectionLoop ring i (rounds + 1) ⟨2 ^ k, (ring.length - 1) / 2 ^ k, k, result⟩ =
      some (result ∪ (Ico k (roundCount ring.length)).image
        (fun k => ringAt ring (i + 2 ^ k))) := by
  induction rounds generalizing k result with
  | zero =>
    have hstop := mt (loop_goes_on_iff hn rfl).mp (by omega : ¬ k < roundCount ring.length)
    rw [connectionLoop, if_neg hstop, ← hk, Nat.add_zero, Ico_self, image_empty, union_empty]
  | succ rounds ih =>
    have hlt : k < roundCount ring.length := by omega
    rw [connectionLoop, if_pos ((loop_goes_on_iff hn rfl).mpr hlt), if_neg (add_gap_ne hn hlt hi),
      Nat.div_div_eq_div_mul, ← Nat.pow_succ, ih _ (by omega), ← insert_Ico_add_one_left_eq_Ico hlt,
      image_insert, insert_union, union_insert]
    rfl

/-- With one or two members the second gap leads back to the member itself. -/
lemma connectionLoop_small (hn : ring.length = 1 ∨ ring.length = 2) (hi : i < ring.length)
    (rounds : Nat) (hk : k ≤ 1) (result : Finset Uint256) :
    connectionLoop ring i rounds ⟨2 ^ k, gapMax, k, result⟩ = none := by
  induction rounds generalizing k gapMax result with
  | zero => rfl
  | succ rounds ih =>
    rw [connectionLoop, if_pos (.inr hk)]
    split_ifs with hself
    · exact ih hk result
    · obtain rfl | rfl : k = 0 ∨ k = 1 := by omega
      · exact ih le_rfl _
      · dsimp only at hself
        rcases hn with hn | hn <;> rw [hn] at hself <;> omega

end Loop

/-! ## Connected quorums -/

/-- What is asked of the connections of the member at `i`. -/
structure Suitable (ring : List Uint256) (i : Nat) (result : Finset Uint256) : Prop where
  others : ∀ x ∈ result, x ∈ ring ∧ x ≠ ringAt ring i
  next : 2 ≤ ring.length → ringAt ring (i + 1) ∈ result
  few : result.card ≤ max 2 (Nat.log2 (ring.length - 1))

section Members

variable (env : EvoEnv) (params : LLMQParams) (quorumHash : Uint256) {ring : List Uint256}

/-- `mns`, as the hashes of the members. -/
def ringOf : List Uint256 := (getAllQuorumMembers env params quorumHash).map (·.proTxHash)

/-- The connections, if the loop ends within so many rounds. -/
def getQuorumConnections (forMember : Uint256) (rounds : Nat) : Option (Finset Uint256) :=
  let ring := ringOf env params quorumHash
  match ring.findIdx? (fun proTxHash => decide (proTxHash = forMember)) with
  | none => some ∅
  | some i => connectionLoop ring i rounds ⟨1, ring.length - 1, 0, ∅⟩

/-- The search for the connections of a member ends with these. -/
def ConnectsTo (forMember : Uint256) (result : Finset Uint256) : Prop :=
  ∃ rounds, getQuorumConnections env params quorumHash forMember rounds = some result

/-- Member `b` is among the connections of member `a`. -/
def Linked (a b : Uint256) : Prop :=
  ∃ result, ConnectsTo env params quorumHash a result ∧ b ∈ result

/-- The connections do what they are for. -/
structure ConnectedQuorum (ring : List Uint256) : Prop where
  members : ∀ i < ring.length, ∃ result, ConnectsTo env params quorumHash (ringAt ring i) result ∧
    Suitable ring i result
  graph : ∀ i < ring.length, ∀ j < ring.length,
    ReflTransGen (Linked env params quorumHash) (ringAt ring i) (ringAt ring j)

variable {env params quorumHash}

lemma ringAt_inj (hdistinct : ring.Nodup) (hn : 0 < ring.length) {i j : Nat} :
    ringAt ring i = ringAt ring j ↔ i % ring.length = j % ring.length := by
  rw [ringAt, ringAt, List.getD_eq_getElem _ _ (Nat.mod_lt i hn),
    List.getD_eq_getElem _ _ (Nat.mod_lt j hn), hdistinct.getElem_inj_iff]

lemma getQuorumConnections_eq (hring : ringOf env params quorumHash = ring)
    (hdistinct : ring.Nodup) (i : Nat) (hi : i < ring.length) (rounds : Nat) :
    getQuorumConnections env params quorumHash (ringAt ring i) rounds =
      connectionLoop ring i rounds ⟨2 ^ 0, (ring.length - 1) / 2 ^ 0, 0, ∅⟩ := by
  have hat : ringAt ring i = ring[i] := by
    rw [ringAt, Nat.mod_eq_of_lt hi, List.getD_eq_getElem]
  have hfound : ring.findIdx? (fun x => decide (x = ringAt ring i)) = some i := by
    rw [List.findIdx?_eq_some_iff_getElem, hat]
    refine ⟨hi, decide_eq_true rfl, fun j hj hsame => ?_⟩
    exact hj.ne (hdistinct.getElem_inj_iff.mp (of_decide_eq_true hsame))
  simp only [getQuorumConnections, hring, hfound, pow_zero, Nat.div_one]

/-- The search ends for every member with suitable connections, and they connect the quorum, exactly
    if it does not have one or two members. -/
theorem connectedQuorum_iff (hdistinct : (ringOf env params quorumHash).Nodup) :
    ConnectedQuorum env params quorumHash (ringOf env params quorumHash) ↔
      (ringOf env params quorumHash).length ≠ 1 ∧ (ringOf env params quorumHash).length ≠ 2 := by
  have heq := getQuorumConnections_eq rfl hdistinct
  generalize ringOf env params quorumHash = ring at *
  constructor
  · intro h
    by_contra hsmall
    have hn : ring.length = 1 ∨ ring.length = 2 := by omega
    obtain ⟨result, ⟨rounds, hrounds⟩, -⟩ := h.members 0 (by omega)
    rw [heq 0 (by omega), connectionLoop_small hn (by omega) rounds (Nat.zero_le 1)] at hrounds
    cases hrounds
  · intro hn
    have hmembers (i : Nat) (hi : i < ring.length) : ∃ result,
        ConnectsTo env params quorumHash (ringAt ring i) result ∧ Suitable ring i result := by
      have hloop := connectionLoop_eq (by omega) hi (roundCount ring.length) ∅ (Nat.zero_add _)
      refine ⟨_, ⟨_, (heq i hi _).trans hloop⟩, ?_, fun _ => ?_, ?_⟩ <;> rw [empty_union]
      · intro x hx
        obtain ⟨k, hk, rfl⟩ := mem_image.mp hx
        rw [ne_eq, ringAt_inj hdistinct (by omega), Nat.mod_eq_of_lt hi]
        refine ⟨?_, add_gap_ne (by omega) (mem_Ico.mp hk).2 hi⟩
        rw [ringAt, List.getD_eq_getElem _ _ (Nat.mod_lt _ (by omega))]
        exact List.getElem_mem _
      · exact mem_image.mpr ⟨0, mem_Ico.mpr ⟨le_rfl, lt_max_of_lt_left Nat.two_pos⟩, rfl⟩
      · exact card_image_le.trans_eq (Nat.card_Ico _ _)
    -- along the ring every member is reached
    have hsteps (i d : Nat) : i < ring.length → ReflTransGen (Linked env params quorumHash)
        (ringAt ring i) (ringAt ring (i + d)) := by
      intro hi
      induction d with
      | zero => exact .refl
      | succ d ih =>
        obtain ⟨result, hresult, hsuitable⟩ := hmembers ((i + d) % ring.length)
          (Nat.mod_lt _ (by omega))
        have hat (e : Nat) : ringAt ring ((i + d) % ring.length + e) = ringAt ring (i + d + e) := by
          rw [ringAt_inj hdistinct (by omega), Nat.mod_add_mod]
        rw [← Nat.add_zero ((i + d) % ring.length), hat] at hresult
        exact ih.tail ⟨result, hresult, hat 1 ▸ hsuitable.next (by omega)⟩
    refine ⟨hmembers, fun i hi j hj => ?_⟩
    have hend := hsteps i (j + ring.length - i) hi
    rwa [show i + (j + ring.length - i) = j + ring.length from by omega,
      (ringAt_inj hdistinct (by omega)).mpr (Nat.add_mod_right j ring.length)] at hend

end Members

namespace Sample

/-- A confirmed masternode. -/
def confirmedMN (proTxHash : Uint256) : MN :=
  ⟨proTxHash, 0, ⟨proTxHash, 0⟩, 0, ⟨0, 0, 0, -1, -1, 0, 1, proTxHash, 0, .null, 0, .null, [], []⟩⟩

/-- The environment in which these are the masternodes at the base block of a quorum. -/
def quorumEnv (hashes : List Uint256) : EvoEnv :=
  { smallEnv with
    listOfQuorumBlock := fun _ => { (.new 0 0 0 : MNList) with
      mnMap := hashes.foldl (fun mns proTxHash =>
        mns.insert StdMap.unordered proTxHash (confirmedMN proTxHash)) .empty } }

end Sample

open Sample

theorem connectedQuorum_three : ringOf (quorumEnv [3, 2, 1]) llmq5_60 0 = [3, 2, 1] ∧
    ConnectedQuorum (quorumEnv [3, 2, 1]) llmq5_60 0
      (ringOf (quorumEnv [3, 2, 1]) llmq5_60 0) := by
  have hring : ringOf (quorumEnv [3, 2, 1]) llmq5_60 0 = [3, 2, 1] := by
    rw [ringOf, getAllQuorumMembers, CDeterministicMNList.calculateQuorum,
      List.mergeSort_of_pairwise (by decide +kernel)]
    decide +kernel
  refine ⟨hring, (connectedQuorum_iff ?_).mpr ?_⟩ <;> rw [hring] <;> decide

/-- The only member of a quorum looks for connections forever. -/
theorem single_member_search_endless : ringOf (quorumEnv [1]) llmq5_60 0 = [1] ∧
    ¬∃ result, ConnectsTo (quorumEnv [1]) llmq5_60 0 1 result := by
  have hring : ringOf (quorumEnv [1]) llmq5_60 0 = [1] := by decide +kernel
  refine ⟨hring, ?_⟩
  rintro ⟨result, rounds, hresult⟩
  have hloop := getQuorumConnections_eq hring (List.nodup_singleton 1) 0 Nat.one_pos rounds
  rw [connectionLoop_small (.inl rfl) Nat.one_pos rounds (Nat.zero_le 1)] at hloop
  exact absurd (hresult.symm.trans hloop) (Option.some_ne_none result)

end Tecracoin.Evo
